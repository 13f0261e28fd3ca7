import DocPipeline.Proofs.Coordinator.Hooks

namespace DocPipeline

variable {ε : Type}

namespace Coordinator

-- A dispatcher that was destroyed holds no plugin.
def Orderly (c : Coordinator ε) : Prop :=
  c.dispatcher.destroyed = true → c.dispatcher.plugins = []

-- Nothing is left that could still be used.
structure Over (c : Coordinator ε) : Prop where
  stage : c.stage = .terminated
  destroyed : c.dispatcher.destroyed = true
  plugins : c.dispatcher.plugins = []
  closed : c.world.signals.closed = true
  ownSender : c.world.signals.ownSender = false

section Orderly

variable {c c' : Coordinator ε}

theorem Orderly.of_same (h : c.Orderly) (hs : c.SamePlugins c') : c'.Orderly := by
  unfold Orderly
  rw [hs.dispatcher]
  exact h

theorem Orderly.of_ready (h : c.dispatcher.destroyed = false) : c.Orderly := fun hd => by
  rw [h] at hd
  cases hd

theorem release_destroyed (c : Coordinator ε) : c.release.dispatcher.destroyed = true := by
  simp only [release, Dispatcher.destroy]
  split
  · assumption
  · rfl

theorem Orderly.release_plugins (h : c.Orderly) : c.release.dispatcher.plugins = [] := by
  simp only [release, Dispatcher.destroy]
  split
  next hd => exact h hd
  next => rfl

-- What is released in the last stage is over.
theorem Orderly.release_over (h : c.Orderly) (hs : c.stage = .terminated) : c.release.Over :=
  ⟨hs, c.release_destroyed, h.release_plugins, rfl, rfl⟩

-- The last stage may be entered from every other one.
theorem Orderly.abort_over (h : c.Orderly) : c.abort.Over := by
  unfold abort
  cases hm : c.machine.move .terminated with
  | ok machine =>
    have hkept : Orderly ({ c with machine }.note (Machine.stepEvent ⟨c.stage, .terminated⟩)) := h
    exact hkept.release_over (Machine.current_of_move hm)
  | error failure => exact h.release_over (Machine.terminated_of_move_error hm)

end Orderly

end Coordinator

namespace Flow

open Coordinator

-- At no moment does a run bring back what was destroyed.
section Orderly

theorem keeps_orderly_register (plugin : Plugin ε) :
    Keeps Orderly (register plugin) fun _ => True := by
  apply keeps_bind keeps_get
  intro c hc
  unfold Dispatcher.register
  by_cases hd : c.dispatcher.destroyed
  · rw [if_pos hd]
    exact keeps_throw _
  · rw [if_neg hd]
    exact keeps_set (Orderly.of_ready (by simpa [Coordinator.note] using hd))

theorem keeps_orderly_dispatch {h : Hook} (occasion : Occasion h) (payload : h.Payload) :
    Keeps Orderly (dispatch occasion payload : Flow ε h.Payload) fun _ => True := by
  intro c hc
  refine ⟨?_, fun _ _ => trivial⟩
  simp only [dispatch, exec_mk, Dispatcher.dispatch]
  by_cases hd : c.dispatcher.destroyed
  · rw [if_pos hd]
    exact hc
  · rw [if_neg hd]
    exact Orderly.of_ready (by simpa using hd)

theorem Silent.keeps_orderly {α : Type} {m : Flow ε α} (hm : Silent m) :
    Keeps Orderly m fun _ => True :=
  hm.keeps fun hs hc => hc.of_same hs

theorem keeps_orderly_configure (raw : Json) :
    Keeps Orderly (configure raw : Flow ε (Session ε)) fun _ => True := by
  have hprepare : Keeps Orderly (prepare raw : Flow ε (Settings × Runtime)) fun _ => True :=
    keeps_prepare_of_register (fun hs hc => hc.of_same hs) id keeps_orderly_register raw
  apply keeps_bind hprepare
  intro loaded _
  exact keeps_bind (keeps_orderly_dispatch _ _) fun settings _ =>
    (silent_settle settings loaded.2).keeps_orderly

theorem keeps_orderly_parse (session : Session ε) (candidates : Candidates) :
    Keeps Orderly (parse session candidates) fun _ => True := by
  have hfiles : Silent (parseFiles session candidates) := silent_bind silent_get fun c =>
    silent_assemble (adds_files session c.world.tree candidates)
  apply keeps_bind hfiles.keeps_orderly
  intro _ _
  apply keeps_bind (keeps_orderly_dispatch _ _)
  intro fragments _
  have hfragments : Silent (parseFragments session fragments) := silent_bind silent_get fun _ =>
    silent_assemble (Assembly.adds_addFragments _ fragments)
  exact (silent_bind hfragments fun _ => silent_pure _).keeps_orderly

theorem keeps_orderly_editRecords (plan : Plan) :
    Keeps Orderly (editRecords plan : Flow ε Unit) fun _ => True := by
  apply keeps_bind silent_get.keeps_orderly
  intro c _
  apply keeps_bind (silent_editStore _).keeps_orderly
  intro _ _
  apply keeps_bind (keeps_orderly_dispatch _ _)
  intro records _
  apply keeps_bind (silent_of_lenient fun hI => keeps_withoutSource hI plan records).keeps_orderly
  intro shown _
  apply keeps_bind (silent_editStore _).keeps_orderly
  intro _ _
  apply keeps_bind (keeps_orderly_dispatch _ _)
  intro _ _
  exact (silent_bind silent_get fun _ => silent_note _ _).keeps_orderly

theorem keeps_orderly_regenerate (session : Session ε) :
    Keeps Orderly (regenerate session) fun _ => True := by
  apply keeps_bind (silent_editStore _).keeps_orderly
  intro _ _
  apply keeps_bind silent_get.keeps_orderly
  intro _ _
  apply keeps_bind (silent_note _ _).keeps_orderly
  intro _ _
  exact keeps_bind (keeps_orderly_dispatch _ _) fun _ _ => keeps_pure trivial

theorem keeps_orderly_complete (session : Session ε) :
    Keeps Orderly (complete session) fun _ => True := by
  have hdrop : ∀ handle, Silent (dropHandle handle : Flow ε Unit) := fun handle =>
    silent_of_lenient fun hI => keeps_dropHandle hI handle
  apply keeps_bind (silent_of_lenient fun hI => keeps_mintHandle hI).keeps_orderly
  intro handle _
  apply keeps_bind
  · apply keeps_tryCatch (keeps_orderly_dispatch _ _)
    exact fun _ => (silent_bind (hdrop handle) fun _ => silent_throw _).keeps_orderly
  · exact fun _ _ => (silent_bind (hdrop handle) fun _ => silent_pure _).keeps_orderly

-- Whether the last hook fails or not, everything is released.
theorem keeps_orderly_shutDown (plan : Plan) :
    Keeps Orderly (shutDown plan : Flow ε Unit) fun _ => True := by
  intro c hc
  have hdispatch := (keeps_orderly_dispatch (.shutdown (some plan)) () c hc).1
  rcases hd : exec (dispatch (.shutdown (some plan)) ()) c with ⟨result, c₁⟩
  rw [hd] at hdispatch
  obtain ⟨log, he⟩ := exec_shutDown hd
  rw [he]
  exact ⟨fun _ => hdispatch.release_plugins, fun _ _ => trivial⟩

theorem keeps_orderly_proceed (moment : Moment ε) :
    Keeps Orderly (proceed moment) fun _ => True := by
  cases moment with
  | configure raw => exact keeps_bind (keeps_orderly_configure raw) fun _ _ => keeps_pure trivial
  | start session =>
    have hbegin : Keeps Orderly (beginPass session) fun _ => True :=
      keeps_bind (keeps_orderly_dispatch _ _) fun _ _ => (silent_passCandidates _ _).keeps_orderly
    exact keeps_bind hbegin fun _ _ => keeps_pure trivial
  | parse session candidates =>
    exact keeps_bind (keeps_orderly_parse session candidates) fun _ _ => keeps_pure trivial
  | edit session =>
    exact keeps_bind (keeps_orderly_editRecords session.plan) fun _ _ => keeps_pure trivial
  | complete session =>
    exact keeps_bind (keeps_orderly_complete session) fun _ _ => keeps_pure trivial
  | shutDown plan => exact keeps_bind (keeps_orderly_shutDown plan) fun _ _ => keeps_pure trivial
  | signalled session signal =>
    cases signal with
    | regenerate =>
      exact keeps_bind (keeps_orderly_regenerate session) fun _ _ => keeps_pure trivial
    | shutdown => exact (silent_proceed rfl).keeps_orderly
  | _ => exact (silent_proceed rfl).keeps_orderly

theorem keeps_orderly_advance (moment : Moment ε) :
    Keeps Orderly (advance moment) fun _ => True := by
  have henter : ∀ target, Silent (enter target : Flow ε Unit) := by
    intro target c
    apply keeps_bind keeps_get
    intro entering hsame
    split
    · exact keeps_set (hsame.trans ⟨rfl, rfl, rfl, rfl⟩)
    · exact keeps_throw _
  have htarget : Silent (enterTarget moment) := by
    unfold enterTarget
    split
    · exact henter _
    · exact silent_pure _
  exact keeps_bind htarget.keeps_orderly fun _ _ => keeps_orderly_proceed moment

end Orderly

-- A run that goes through its last moment has released everything when that is done.
theorem over_of_shutDown {plan : Plan} {c c' : Coordinator ε} {result : Except Failure Unit}
    (ho : c.Orderly) (hs : c.stage = .terminated) (h : exec (shutDown plan) c = (result, c')) :
    c'.Over := by
  have hdispatch := (keeps_orderly_dispatch (.shutdown (some plan)) () c ho).1
  have hstage : (exec (dispatch (.shutdown (some plan)) ()) c).2.stage = .terminated := hs
  rcases hd : exec (dispatch (.shutdown (some plan)) ()) c with ⟨answer, called⟩
  rw [hd] at hdispatch hstage
  obtain ⟨log, he⟩ := exec_shutDown hd
  rw [he] at h
  obtain ⟨-, rfl⟩ := Prod.mk.inj h
  have hover := hdispatch.release_over hstage
  exact ⟨hover.stage, hover.destroyed, hover.plugins, hover.closed, hover.ownSender⟩

end Flow

namespace Coordinator

section Returning

variable {raw : Json} {c₀ c c' : Coordinator ε} {trail : List (Situation ε)} {moment : Moment ε}
  {result : Except Failure Unit}

-- The last step of a run fails, or it is the one that shuts down.
theorem Orderly.over_of_step (ho : c.Orderly) (hm : moment.isReturned = false)
    (h : c.step moment = (.returned result, c')) : c'.Over := by
  have hadvance := (Flow.keeps_orderly_advance moment c ho).1
  rcases he : exec (Flow.advance moment) c with ⟨failure | next, c₁⟩
  · rw [he] at hadvance
    rw [step_of_error he] at h
    obtain ⟨-, rfl⟩ := Prod.mk.inj h
    exact hadvance.abort_over
  · rw [step_of_ok he] at h
    obtain ⟨rfl, rfl⟩ := Prod.mk.inj h
    obtain ⟨machine, log, hp⟩ := Flow.advance_ok he
    have hleads := (Flow.leads_of_proceed hm _ trivial).2 _ (congrArg Prod.fst hp)
    cases hleads with
    | @shutDown plan =>
      have htarget : (Moment.shutDown plan : Moment ε).target? = some .terminated := rfl
      cases hmove : c.machine.move .terminated with
      | error failure =>
        simp only [Flow.advance, Flow.enterTarget, htarget, Flow.enter, exec_bind, exec_get,
          hmove] at he
        cases he
      | ok last =>
        rw [Flow.exec_advance_of_move htarget hmove] at he
        obtain ⟨_, c₂, hshut, hlast⟩ := exec_bind_eq_ok he
        obtain ⟨-, rfl⟩ := Prod.mk.inj hlast
        have hentered : Orderly (Flow.entered last .terminated c) := ho
        exact Flow.over_of_shutDown hentered (Machine.current_of_move hmove) hshut

theorem orderly_of_course (ho : c₀.Orderly) (h : Course raw c₀ trail moment c) : c.Orderly := by
  induction h with
  | begin => exact ho
  | @step trail moment c _ hm ih =>
    have hadvance := (Flow.keeps_orderly_advance moment c ih).1
    rcases he : exec (Flow.advance moment) c with ⟨failure | next, c'⟩
    · rw [he] at hadvance
      rw [step_of_error he]
      exact fun _ => hadvance.abort_over.plugins
    · rw [he] at hadvance
      rw [step_of_ok he]
      exact hadvance
  | meddle _ signals ih => exact ih

-- What the run answers when it takes its last step, and the coordinator as it is then.
def Returns (raw : Json) (c₀ : Coordinator ε) (result : Except Failure Unit)
    (c : Coordinator ε) : Prop :=
  ∃ trail moment before, Course raw c₀ trail moment before ∧ moment.isReturned = false ∧
    before.step moment = (.returned result, c)

theorem returns_of_follow {steps : Nat} (h : Course raw c₀ trail moment c)
    (hm : moment.isReturned = false) (hf : c.follow steps moment = some (result, c')) :
    c₀.Returns raw result c' := by
  induction steps generalizing trail moment c with
  | zero =>
    cases moment with
    | returned => cases hm
    | _ => cases hf
  | succ steps ih =>
    have hnext : (c.step moment).2.follow steps (c.step moment).1 = some (result, c') := by
      cases moment with
      | returned => cases hm
      | _ => exact hf
    rcases hs : c.step moment with ⟨next, c₁⟩
    cases hr : next.isReturned with
    | false =>
      have hcourse := h.step hm
      exact ih hcourse (by rw [hs]; exact hr) hnext
    | true =>
      cases next <;> simp only [Moment.isReturned, Bool.false_eq_true] at hr
      rw [hs, follow_returned] at hnext
      obtain ⟨rfl, rfl⟩ := Prod.mk.inj (Option.some.inj hnext)
      exact ⟨trail, moment, c, h, hm, hs⟩

-- Every answer of a run is one that it gives when it returns.
theorem returns_of_generate {bound : Nat} (h : c₀.generate bound raw = some (result, c)) :
    c₀.Returns raw result c :=
  returns_of_follow .begin rfl h

theorem Returns.over (h : c₀.Returns raw result c) (ho : c₀.Orderly) : c.Over := by
  obtain ⟨trail, moment, before, hcourse, hm, hstep⟩ := h
  exact (orderly_of_course ho hcourse).over_of_step hm hstep

end Returning

-- What anybody may try with the handles, the coordinator and its plugins when no run is under way.
inductive Attempt (ε : Type) where
  | send (handle : Handle) (signal : Signal)
  | copy (handle : Handle)
  | drop (handle : Handle)
  | handle
  | register (plugin : Plugin ε)
  | dispatch {h : Hook} (occasion : Occasion h) (payload : h.Payload)
  | generate (bound : Nat) (raw : Json)

def attempt (c : Coordinator ε) : Attempt ε → Coordinator ε
  | .send handle signal => { c with world := (c.world.send handle signal).2 }
  | .copy handle =>
    { c with world := { c.world with signals := (c.world.signals.copy handle).1 } }
  | .drop handle => { c with world := { c.world with signals := c.world.signals.drop handle } }
  | .handle => c.handle.2
  | .register plugin => (exec (Flow.register plugin) c).2
  | .dispatch occasion payload => (exec (Flow.dispatch occasion payload) c).2
  | .generate bound raw => ((c.generate bound raw).map Prod.snd).getD c

def attemptAll (c : Coordinator ε) (attempts : List (Attempt ε)) : Coordinator ε :=
  attempts.foldl attempt c

-- Whatever is tried is refused, and leaves everything as it is.
structure Inert (c : Coordinator ε) : Prop where
  stage : c.stage = .terminated
  plugins : c.dispatcher.plugins = []
  accepts : ∀ handle, c.world.signals.accepts handle = false
  send : ∀ handle signal, c.world.send handle signal = (.error .terminated, c.world)
  handle : c.handle = (.error .terminated, c)
  register : ∀ plugin, exec (Flow.register plugin) c = (.error .terminated, c)
  dispatch : ∀ {h : Hook} (occasion : Occasion h) (payload : h.Payload),
    exec (Flow.dispatch occasion payload) c = (.error .terminated, c)
  generate : ∀ bound raw, c.generate bound raw = some (.error .terminated, c)

namespace Over

variable {c : Coordinator ε}

theorem accepts (h : c.Over) (handle : Handle) : c.world.signals.accepts handle = false := by
  simp [Signals.accepts, h.closed]

theorem send (h : c.Over) (handle : Handle) (signal : Signal) :
    c.world.send handle signal = (.error .terminated, c.world) := by
  simp [World.send, Signals.send?, h.accepts handle]

theorem register (h : c.Over) (plugin : Plugin ε) :
    exec (Flow.register plugin) c = (.error .terminated, c) := by
  simp only [Flow.register, exec_bind, exec_get, Dispatcher.register, h.destroyed]
  rfl

theorem dispatch (h : c.Over) {hook : Hook} (occasion : Occasion hook) (payload : hook.Payload) :
    exec (Flow.dispatch occasion payload) c = (.error .terminated, c) := by
  simp only [Flow.dispatch, exec_mk, Dispatcher.dispatch, h.destroyed]
  rfl

-- There is nothing left to release.
theorem abort (h : c.Over) : c.abort = c := by
  have hdispatcher : c.dispatcher.destroy = c.dispatcher := if_pos h.destroyed
  have hevents : c.dispatcher.destroyEvents = [] := if_pos h.destroyed
  have hsignals : c.world.signals.close = c.world.signals := by
    rw [Signals.close, ← h.ownSender, ← h.closed]
  rw [Coordinator.abort, Machine.move_of_terminated h.stage]
  simp only [release, hdispatcher, hevents, hsignals]
  rfl

theorem generate (h : c.Over) (bound : Nat) (raw : Json) :
    c.generate bound raw = some (.error .terminated, c) := by
  have hstep : c.step (.configure raw) = (.returned (.error .terminated), c) := by
    rw [step_of_error (Flow.exec_advance_of_terminated h.stage raw), h.abort]
  rw [Coordinator.generate, passSteps, Nat.mul_succ, follow, hstep]
  · exact follow_returned _ _ _
  · intro _ hreturned
    cases hreturned

theorem inert (h : c.Over) : c.Inert :=
  ⟨h.stage, h.plugins, h.accepts, h.send, if_pos h.stage, h.register, h.dispatch, h.generate⟩

-- Only which handles are left can change.
theorem attempt (h : c.Over) (attempt : Attempt ε) :
    (c.attempt attempt).Over ∧
      ∃ live nextId, c.attempt attempt =
        { c with world := { c.world with
            signals := { c.world.signals with live, nextId } } } := by
  have hsame : c.Over ∧ ∃ live nextId, c =
      { c with world := { c.world with
          signals := { c.world.signals with live, nextId } } } := ⟨h, _, _, rfl⟩
  cases attempt with
  | send handle signal =>
    simp only [Coordinator.attempt, h.send]
    exact hsame
  | copy handle =>
    simp only [Coordinator.attempt, Signals.copy]
    split
    · exact ⟨⟨h.stage, h.destroyed, h.plugins, h.closed, h.ownSender⟩, _, _, rfl⟩
    · exact hsame
  | drop handle => exact ⟨⟨h.stage, h.destroyed, h.plugins, h.closed, h.ownSender⟩, _, _, rfl⟩
  | handle =>
    rw [Coordinator.attempt, h.inert.handle]
    exact hsame
  | register plugin =>
    rw [Coordinator.attempt, h.register]
    exact hsame
  | dispatch occasion payload =>
    rw [Coordinator.attempt, h.dispatch]
    exact hsame
  | generate bound raw =>
    rw [Coordinator.attempt, h.generate]
    exact hsame

theorem attemptAll (h : c.Over) (attempts : List (Attempt ε)) :
    (c.attemptAll attempts).Over ∧
      ∃ live nextId, c.attemptAll attempts =
        { c with world := { c.world with
            signals := { c.world.signals with live, nextId } } } := by
  induction attempts generalizing c with
  | nil => exact ⟨h, _, _, rfl⟩
  | cons first rest ih =>
    obtain ⟨hfirst, live, nextId, he⟩ := h.attempt first
    obtain ⟨hrest, live', nextId', he'⟩ := ih hfirst
    refine ⟨hrest, live', nextId', ?_⟩
    rw [Coordinator.attemptAll, List.foldl_cons]
    exact he'.trans (by rw [he])

end Over

-- For every run that returns, however it ends and whatever others do with their handles meanwhile:
-- all handles are closed from then on, whenever they were obtained, no new one is given, no plugin
-- is left, none is registered or called, and no run is begun again. Whatever is tried changes at
-- most which handles are left, so that the history, the store and the counters stay as they are.
theorem nothing_live_after_return {raw : Json} {c₀ c : Coordinator ε}
    {result : Except Failure Unit} (ho : c₀.Orderly) (h : c₀.Returns raw result c)
    (attempts : List (Attempt ε)) :
    (c.attemptAll attempts).Inert ∧
      ∃ live nextId, c.attemptAll attempts =
        { c with world := { c.world with
            signals := { c.world.signals with live, nextId } } } := by
  obtain ⟨hover, hsame⟩ := (h.over ho).attemptAll attempts
  exact ⟨hover.inert, hsame⟩

theorem twice_inert :
    twice.Orderly ∧ ∃ result c, twice.Returns twiceConfig result c ∧
      (c.attemptAll [.copy ⟨0, 0⟩, .send ⟨0, 0⟩ .regenerate, .generate 1 twiceConfig]).Inert := by
  have horderly : twice.Orderly := nofun
  obtain ⟨⟨result, c⟩, hgenerate⟩ := Option.isSome_iff_exists.mp
    (show (twice.generate 2 twiceConfig).isSome by decide +kernel)
  have hreturns := returns_of_generate hgenerate
  exact ⟨horderly, result, c, hreturns, (nothing_live_after_return horderly hreturns _).1⟩

end Coordinator

end DocPipeline
