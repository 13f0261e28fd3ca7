import DocPipeline.Lifecycle.Signals
import Mathlib.Data.List.Basic

namespace DocPipeline.Delivery

-- What may be done with a channel before it is closed.
inductive Use where
  | mint
  | copy (handle : Handle)
  | send (handle : Handle) (signal : Signal)
  | drop (handle : Handle)
  | wait
deriving DecidableEq

-- A channel, the signals whose sends succeeded, and those that waits have given, both in order.
structure Account where
  signals : Signals := {}
  accepted : List Signal := []
  given : List Signal := []
deriving DecidableEq

namespace Account

def sent (a : Account) (handle : Handle) (signal : Signal) : Account :=
  match a.signals.send? handle signal with
  | some signals => { a with signals, accepted := a.accepted ++ [signal] }
  | none => a

def waited (a : Account) : Account :=
  match a.signals.wait with
  | (signals, .signal signal) => { a with signals, given := a.given ++ [signal] }
  | (signals, _) => { a with signals }

def after (a : Account) : Use → Account
  | .mint => { a with signals := a.signals.mint.1 }
  | .copy handle => { a with signals := (a.signals.copy handle).1 }
  | .send handle signal => a.sent handle signal
  | .drop handle => { a with signals := a.signals.drop handle }
  | .wait => a.waited

def afterAll (a : Account) (uses : List Use) : Account := uses.foldl after a

end Account

-- At every moment what was given is a beginning of what was accepted, and a wait that finds no
-- handle finds that all handles were dropped and everything accepted was given.
def Faithful (a : Account) : List Use → Prop
  | [] => a.given <+: a.accepted
  | use :: rest =>
    a.given <+: a.accepted ∧
      (use = .wait → a.signals.wait.2 = .noHandles →
        a.signals.live = [] ∧ a.given = a.accepted) ∧
      Faithful (a.after use) rest

-- A handle minted now would be on a new channel, and what is queued would be left on the old one.
def Forgets (s : Signals) : Prop := s.ownSender = false ∧ s.queue ≠ []

-- No handle is minted at such a moment.
def Lossless (a : Account) : List Use → Prop
  | [] => True
  | use :: rest => (use = .mint → ¬Forgets a.signals) ∧ Lossless (a.after use) rest

-- A run is wound up by dropping handles and waiting.
def Use.windsUp : Use → Bool
  | .drop _ | .wait => true
  | _ => false

theorem afterAll_cons (a : Account) (use : Use) (rest : List Use) :
    a.afterAll (use :: rest) = (a.after use).afterAll rest := rfl

theorem afterAll_append (a : Account) (uses rest : List Use) :
    a.afterAll (uses ++ rest) = (a.afterAll uses).afterAll rest := List.foldl_append

theorem lossless_append (a : Account) (uses rest : List Use) :
    Lossless a (uses ++ rest) ↔ Lossless a uses ∧ Lossless (a.afterAll uses) rest := by
  induction uses generalizing a with
  | nil => simp [Lossless, Account.afterAll]
  | cons use uses ih => simp only [List.cons_append, Lossless, ih, afterAll_cons, and_assoc]

theorem lossless_of_windsUp (a : Account) (uses : List Use)
    (hu : ∀ use ∈ uses, use.windsUp = true) : Lossless a uses := by
  induction uses generalizing a with
  | nil => trivial
  | cons use uses ih =>
    have hrest := ih (a.after use) fun u hm => hu u (List.mem_cons_of_mem _ hm)
    refine ⟨?_, hrest⟩
    rintro rfl
    simpa [Use.windsUp] using hu .mint List.mem_cons_self

theorem faithful_append (a : Account) (uses rest : List Use) (hf : Faithful a (uses ++ rest)) :
    Faithful (a.afterAll uses) rest := by
  induction uses generalizing a with
  | nil => exact hf
  | cons use uses ih => exact ih (a.after use) hf.2.2

-- What holds of a channel that was not closed. All handles are on the current channel: a new one
-- is opened only when none is left.
structure Sound (a : Account) : Prop where
  isOpen : a.signals.closed = false
  current : ∀ handle ∈ a.signals.live, handle.channel = a.signals.channel
  bereft : a.signals.ownSender = false → a.signals.live = []

theorem sound_new : Sound {} := ⟨rfl, by simp, by simp⟩

section Operations

variable {s : Signals}

theorem hasHandle_eq_true (hc : ∀ handle ∈ s.live, handle.channel = s.channel)
    (hl : s.live ≠ []) : s.hasHandle = true := by
  obtain ⟨handle, hm⟩ := List.exists_mem_of_ne_nil _ hl
  simp only [Signals.hasHandle, List.any_eq_true, beq_iff_eq]
  exact ⟨handle, hm, hc handle hm⟩

theorem hasHandle_eq_false (hl : s.live = []) : s.hasHandle = false := by
  simp [Signals.hasHandle, hl]

theorem live_eq_nil_of_hasHandle (hc : ∀ handle ∈ s.live, handle.channel = s.channel)
    (hh : s.hasHandle = false) : s.live = [] := by
  by_contra hl
  simp [hasHandle_eq_true hc hl] at hh

theorem mint_of_ownSender (ho : s.ownSender = true) : s.mint = s.add s.channel := by
  simp [Signals.mint, ho]

theorem mint_of_not_ownSender (ho : s.ownSender = false) :
    s.mint = s.renew.add (s.channel + 1) := by
  simp [Signals.mint, ho, Signals.renew]

theorem send?_eq_some {handle : Handle} {signal : Signal} {sent : Signals}
    (h : s.send? handle signal = some sent) :
    sent = { s with queue := s.queue ++ [signal] } := by
  unfold Signals.send? at h
  split at h
  · exact (Option.some.inj h).symm
  · cases h

theorem wait_of_queue {signal : Signal} {rest : List Signal} (hq : s.queue = signal :: rest) :
    s.wait = ({ s with ownSender := s.ownSender && s.hasHandle, queue := rest },
      .signal signal) := by
  simp [Signals.wait, hq]

theorem wait_of_hasHandle (hq : s.queue = []) (ho : s.closed = false) (hh : s.hasHandle = true) :
    s.wait = (s, .pending) := by
  simp [Signals.wait, hq, ho, hh]

theorem wait_of_not_hasHandle (hq : s.queue = []) (hh : s.hasHandle = false) :
    s.wait = ({ s with ownSender := false }, .noHandles) := by
  simp [Signals.wait, hq, hh]

end Operations

section Steps

variable {a : Account}

theorem sound_mint (h : Sound a) : Sound (a.after .mint) := by
  cases ho : a.signals.ownSender with
  | true =>
    simp only [Account.after, mint_of_ownSender ho, Signals.add]
    refine ⟨h.isOpen, ?_, fun hn => ?_⟩
    · intro handle hm
      rcases List.mem_append.mp hm with hm | hm
      · exact h.current handle hm
      · rw [List.mem_singleton.mp hm]
    · simp [ho] at hn
  | false =>
    simp only [Account.after, mint_of_not_ownSender ho, Signals.add, Signals.renew]
    refine ⟨rfl, ?_, by simp⟩
    intro handle hm
    rw [h.bereft ho, List.nil_append, List.mem_singleton] at hm
    rw [hm]

theorem sound_copy (h : Sound a) (handle : Handle) : Sound (a.after (.copy handle)) := by
  simp only [Account.after, Signals.copy]
  split
  · rename_i hm
    refine ⟨h.isOpen, ?_, fun ho => ?_⟩
    · intro other ho
      rcases List.mem_append.mp ho with ho | ho
      · exact h.current other ho
      · rw [List.mem_singleton.mp ho]
        exact h.current handle hm
    · rw [h.bereft ho] at hm
      cases hm
  · exact h

theorem sound_send (h : Sound a) (handle : Handle) (signal : Signal) :
    Sound (a.after (.send handle signal)) := by
  simp only [Account.after, Account.sent]
  split
  · rename_i sent hs
    obtain rfl := send?_eq_some hs
    exact ⟨h.isOpen, h.current, h.bereft⟩
  · exact h

theorem sound_drop (h : Sound a) (handle : Handle) : Sound (a.after (.drop handle)) := by
  refine ⟨h.isOpen, fun other hm => h.current other (List.mem_of_mem_erase hm), fun ho => ?_⟩
  simp [Account.after, Signals.drop, h.bereft ho]

-- A wait gives the run its sender back only if a handle is left.
theorem sound_wait (h : Sound a) : Sound (a.after .wait) := by
  have hb : (a.signals.ownSender && a.signals.hasHandle) = false → a.signals.live = [] := by
    intro ho
    rcases Bool.and_eq_false_iff.mp ho with ho | hh
    · exact h.bereft ho
    · exact live_eq_nil_of_hasHandle h.current hh
  cases hq : a.signals.queue with
  | cons signal rest =>
    simp only [Account.after, Account.waited, wait_of_queue hq]
    exact ⟨h.isOpen, h.current, hb⟩
  | nil =>
    cases hh : a.signals.hasHandle with
    | true =>
      simp only [Account.after, Account.waited, wait_of_hasHandle hq h.isOpen hh]
      exact h
    | false =>
      simp only [Account.after, Account.waited, wait_of_not_hasHandle hq hh]
      exact ⟨h.isOpen, h.current, fun _ => live_eq_nil_of_hasHandle h.current hh⟩

theorem sound_after (h : Sound a) (use : Use) : Sound (a.after use) := by
  cases use with
  | mint => exact sound_mint h
  | copy handle => exact sound_copy h handle
  | send handle signal => exact sound_send h handle signal
  | drop handle => exact sound_drop h handle
  | wait => exact sound_wait h

theorem sound_afterAll (h : Sound a) (uses : List Use) : Sound (a.afterAll uses) := by
  induction uses generalizing a with
  | nil => exact h
  | cons use uses ih => exact ih (sound_after h use)

-- Everything that can happen to signals: some are accepted and queued, or the first in the queue is
-- given, or a handle on a new channel leaves the queue behind.
theorem after_cases (h : Sound a) (use : Use) :
    (∃ new, (a.after use).accepted = a.accepted ++ new ∧ (a.after use).given = a.given ∧
      (a.after use).signals.queue = a.signals.queue ++ new) ∨
    (∃ signal, a.signals.queue = signal :: (a.after use).signals.queue ∧
      (a.after use).given = a.given ++ [signal] ∧ (a.after use).accepted = a.accepted) ∨
    (use = .mint ∧ Forgets a.signals ∧ (a.after use).signals.queue = [] ∧
      (a.after use).given = a.given ∧ (a.after use).accepted = a.accepted) := by
  cases use with
  | mint =>
    cases ho : a.signals.ownSender with
    | true =>
      refine .inl ⟨[], ?_⟩
      simp [Account.after, mint_of_ownSender ho, Signals.add]
    | false =>
      by_cases hq : a.signals.queue = []
      · refine .inl ⟨[], ?_⟩
        simp [Account.after, mint_of_not_ownSender ho, Signals.add, Signals.renew, hq]
      · refine .inr (.inr ⟨rfl, ⟨ho, hq⟩, ?_⟩)
        simp [Account.after, mint_of_not_ownSender ho, Signals.add, Signals.renew]
  | copy handle =>
    refine .inl ⟨[], ?_⟩
    simp only [Account.after, Signals.copy]
    split <;> simp [Signals.add]
  | send handle signal =>
    simp only [Account.after, Account.sent]
    split
    · rename_i sent hs
      obtain rfl := send?_eq_some hs
      exact .inl ⟨[signal], rfl, rfl, rfl⟩
    · exact .inl ⟨[], by simp⟩
  | drop handle => exact .inl ⟨[], by simp [Account.after, Signals.drop]⟩
  | wait =>
    cases hq : a.signals.queue with
    | cons signal rest =>
      refine .inr (.inl ⟨signal, ?_⟩)
      simp [Account.after, Account.waited, wait_of_queue hq]
    | nil =>
      refine .inl ⟨[], ?_⟩
      cases hh : a.signals.hasHandle with
      | true => simp [Account.after, Account.waited, wait_of_hasHandle hq h.isOpen hh, hq]
      | false => simp [Account.after, Account.waited, wait_of_not_hasHandle hq hh, hq]

end Steps

-- Nothing was lost: what was accepted and not yet given is queued, in the same order.
def Exact (a : Account) : Prop := a.accepted = a.given ++ a.signals.queue

-- Something was lost: fewer signals were given or are queued than were accepted.
def Short (a : Account) : Prop := a.given.length + a.signals.queue.length < a.accepted.length

section Balance

variable {a : Account}

theorem exact_after (h : Sound a) (he : Exact a) {use : Use}
    (hu : use = .mint → ¬Forgets a.signals) : Exact (a.after use) := by
  unfold Exact at he ⊢
  rcases after_cases h use with ⟨new, ha, hg, hq⟩ | ⟨signal, hq, hg, ha⟩ | ⟨hm, hf, _⟩
  · rw [ha, hg, hq, he, List.append_assoc]
  · rw [ha, hg, he, hq, List.append_assoc, List.singleton_append]
  · exact absurd hf (hu hm)

theorem short_after (h : Sound a) (hs : Short a) (use : Use) : Short (a.after use) := by
  unfold Short at hs ⊢
  rcases after_cases h use with ⟨new, ha, hg, hq⟩ | ⟨signal, hq, hg, ha⟩ | ⟨_, _, hq, hg, ha⟩
  · rw [ha, hg, hq, List.length_append, List.length_append]
    omega
  · rw [hq, List.length_cons] at hs
    rw [ha, hg, List.length_append, List.length_singleton]
    omega
  · rw [ha, hg, hq, List.length_nil]
    omega

theorem short_afterAll (h : Sound a) (hs : Short a) (uses : List Use) :
    Short (a.afterAll uses) := by
  induction uses generalizing a with
  | nil => exact hs
  | cons use uses ih => exact ih (sound_after h use) (short_after h hs use)

theorem short_of_forgets (he : Exact a) (hf : Forgets a.signals) :
    Short (a.after .mint) := by
  have hpos := List.length_pos_of_ne_nil hf.2
  unfold Exact at he
  unfold Short
  simp only [Account.after, mint_of_not_ownSender hf.1, Signals.add, Signals.renew, he,
    List.length_append, List.length_nil]
  omega

-- The first mint that forgets signals makes the account short, and it stays so.
theorem short_of_not_lossless (h : Sound a) (he : Exact a) (uses : List Use)
    (hl : ¬Lossless a uses) : Short (a.afterAll uses) := by
  induction uses generalizing a with
  | nil => exact absurd trivial hl
  | cons use uses ih =>
    rw [afterAll_cons]
    by_cases hm : use = .mint ∧ Forgets a.signals
    · obtain ⟨rfl, hf⟩ := hm
      exact short_afterAll (sound_after h _) (short_of_forgets he hf) uses
    · have hu : use = .mint → ¬Forgets a.signals := fun hu hf => hm ⟨hu, hf⟩
      exact ih (sound_after h use) (exact_after h he hu) fun hr => hl ⟨hu, hr⟩

theorem given_begins (he : Exact a) : a.given <+: a.accepted :=
  ⟨a.signals.queue, he.symm⟩

theorem settled_of_noHandles (h : Sound a) (he : Exact a)
    (hw : a.signals.wait.2 = .noHandles) : a.signals.live = [] ∧ a.given = a.accepted := by
  cases hq : a.signals.queue with
  | cons signal rest => simp [wait_of_queue hq] at hw
  | nil =>
    cases hh : a.signals.hasHandle with
    | true => simp [wait_of_hasHandle hq h.isOpen hh] at hw
    | false =>
      refine ⟨live_eq_nil_of_hasHandle h.current hh, ?_⟩
      rw [he, hq, List.append_nil]

theorem faithful_of_lossless (h : Sound a) (he : Exact a) (uses : List Use)
    (hl : Lossless a uses) : Faithful a uses := by
  induction uses generalizing a with
  | nil => exact given_begins he
  | cons use uses ih =>
    refine ⟨given_begins he, fun _ => settled_of_noHandles h he, ?_⟩
    exact ih (sound_after h use) (exact_after h he hl.1) hl.2

end Balance

-- Drops every handle and waits for everything that is queued.
def windUp (s : Signals) : List Use :=
  s.live.map .drop ++ List.replicate s.queue.length .wait

section WindUp

variable {a : Account}

theorem windUp_windsUp (s : Signals) : ∀ use ∈ windUp s, use.windsUp = true := by
  intro use hm
  rcases List.mem_append.mp hm with hm | hm
  · obtain ⟨handle, _, rfl⟩ := List.mem_map.mp hm
    rfl
  · rw [(List.mem_replicate.mp hm).2]
    rfl

theorem afterAll_drops (live : List Handle) (hl : a.signals.live = live) :
    (a.afterAll (live.map .drop)).signals.live = [] ∧
      (a.afterAll (live.map .drop)).signals.queue = a.signals.queue := by
  induction live generalizing a with
  | nil => exact ⟨hl, rfl⟩
  | cons handle rest ih =>
    have hr : (a.after (.drop handle)).signals.live = rest := by
      simp [Account.after, Signals.drop, hl]
    exact ih hr

theorem afterAll_waits (queue : List Signal) (hl : a.signals.live = [])
    (hq : a.signals.queue = queue) :
    (a.afterAll (List.replicate queue.length .wait)).signals.live = [] ∧
      (a.afterAll (List.replicate queue.length .wait)).signals.queue = [] := by
  induction queue generalizing a with
  | nil => exact ⟨hl, hq⟩
  | cons signal rest ih =>
    have hw : a.after .wait = { a with
        signals := { a.signals with
          ownSender := a.signals.ownSender && a.signals.hasHandle, queue := rest }
        given := a.given ++ [signal] } := by
      simp [Account.after, Account.waited, wait_of_queue hq]
    rw [List.length_cons, List.replicate_succ, afterAll_cons]
    exact ih (by rw [hw]; exact hl) (by rw [hw])

theorem wait_windUp (a : Account) :
    (a.afterAll (windUp a.signals)).signals.wait.2 = .noHandles := by
  obtain ⟨hl, hq⟩ := afterAll_drops a.signals.live rfl
  obtain ⟨hl', hq'⟩ := afterAll_waits _ hl hq
  rw [windUp, afterAll_append]
  rw [wait_of_not_hasHandle hq' (hasHandle_eq_false hl')]

-- A channel that lost signals is found out once it is wound up: the last wait finds no handle
-- though not all signals were given.
theorem not_faithful_windUp (h : Sound a) (hs : Short a) :
    ¬Faithful a (windUp a.signals ++ [.wait]) := by
  intro hf
  have hlast := faithful_append a (windUp a.signals) [.wait] hf
  obtain ⟨_, he⟩ := hlast.2.1 rfl (wait_windUp a)
  have hshort := short_afterAll h hs (windUp a.signals)
  unfold Short at hshort
  rw [he] at hshort
  omega

end WindUp

-- Whatever is done with handles, delivery is faithful however the run is wound up if and only if no
-- handle was minted while the run had lost its sender and signals were queued.
theorem lossless_iff_faithful (uses : List Use) :
    Lossless {} uses ↔
      ∀ rest, (∀ use ∈ rest, use.windsUp = true) → Faithful {} (uses ++ rest) := by
  have he : Exact {} := rfl
  constructor
  · intro hl rest hr
    apply faithful_of_lossless sound_new he
    exact (lossless_append {} uses rest).mpr ⟨hl, lossless_of_windsUp _ rest hr⟩
  · intro hf
    by_contra hl
    have hsound := sound_afterAll sound_new uses
    have hshort := short_of_not_lossless sound_new he uses hl
    apply not_faithful_windUp hsound hshort
    apply faithful_append
    apply hf
    intro use hm
    rcases List.mem_append.mp hm with hm | hm
    · exact windUp_windsUp _ use hm
    · rw [List.mem_singleton.mp hm]
      rfl

-- Two signals are queued and the handle is dropped. After the first of them the run has no sender,
-- so the next handle is on a new channel, and the second signal is never given.
theorem second_signal_forgotten :
    ¬Faithful {} [.mint, .send ⟨0, 0⟩ .regenerate, .send ⟨0, 0⟩ .shutdown, .drop ⟨0, 0⟩, .wait,
      .mint, .drop ⟨1, 1⟩, .wait] := by
  intro hf
  have hlast := faithful_append {} [.mint, .send ⟨0, 0⟩ .regenerate, .send ⟨0, 0⟩ .shutdown,
    .drop ⟨0, 0⟩, .wait, .mint, .drop ⟨1, 1⟩] [.wait] hf
  obtain ⟨_, he⟩ := hlast.2.1 rfl rfl
  exact absurd he (by decide)

end DocPipeline.Delivery
