import DocPipeline.Proofs.Coordinator.Hooks
import DocPipeline.World
import Mathlib.Algebra.GroupWithZero.Nat

namespace DocPipeline

namespace Store

variable {store : Store} {receiver after last last' : Receiver} {delivery : Delivery}
  {deliveries deliveries' : List Delivery}

-- What is received next, if anything waits. Changes that the buffer dropped come as one number.
def next? (store : Store) (receiver : Receiver) : Option (Delivery × Receiver) :=
  let waiting := store.changes.drop receiver.seen
  if bufferSize < waiting.length then
    some (.lagged (waiting.length - bufferSize), ⟨store.changes.length - bufferSize⟩)
  else waiting.head?.map fun change => (.change change, ⟨receiver.seen + 1⟩)

-- One delivery after the other is received until nothing waits.
inductive Drained (store : Store) : Receiver → List Delivery → Receiver → Prop where
  | done {receiver : Receiver} (h : store.next? receiver = none) :
      Drained store receiver [] receiver
  | next {receiver after last : Receiver} {delivery : Delivery} {deliveries : List Delivery}
      (h : store.next? receiver = some (delivery, after))
      (hrest : Drained store after deliveries last) :
      Drained store receiver (delivery :: deliveries) last

theorem next?_of_lagging (h : bufferSize < store.changes.length - receiver.seen) :
    store.next? receiver = some (.lagged (store.changes.length - receiver.seen - bufferSize),
      ⟨store.changes.length - bufferSize⟩) := by
  simp only [next?, List.length_drop, h, if_true]

theorem next?_of_kept (h : store.changes.length - receiver.seen ≤ bufferSize) :
    store.next? receiver = (store.changes.drop receiver.seen).head?.map fun change =>
      (.change change, ⟨receiver.seen + 1⟩) := by
  simp only [next?, List.length_drop, Nat.not_lt.mpr h, if_false]

-- A delivery moves the receiver on by as many changes as it is counted for, and never too far.
theorem seen_of_next (h : store.next? receiver = some (delivery, after)) :
    after.seen = receiver.seen + delivery.count ∧ after.seen ≤ store.changes.length := by
  by_cases hlag : bufferSize < store.changes.length - receiver.seen
  · rw [next?_of_lagging hlag] at h
    cases h
    simp only [Delivery.count]
    omega
  · rw [next?_of_kept (Nat.not_lt.mp hlag), List.head?_drop] at h
    obtain ⟨change, hchange, heq⟩ := Option.map_eq_some_iff.mp h
    have hlt := (List.getElem?_eq_some_iff.mp hchange).1
    cases heq
    exact ⟨rfl, hlt⟩

namespace Drained

theorem seen (h : store.Drained receiver deliveries last) :
    last.seen = receiver.seen + (deliveries.map Delivery.count).sum := by
  induction h with
  | done => rfl
  | next hnext _ ih =>
    rw [ih, (seen_of_next hnext).1, List.map_cons, List.sum_cons, Nat.add_assoc]

theorem unique (h : store.Drained receiver deliveries last)
    (h' : store.Drained receiver deliveries' last') : deliveries = deliveries' ∧ last = last' := by
  induction h generalizing deliveries' with
  | done hnone =>
    cases h' with
    | done => exact ⟨rfl, rfl⟩
    | next hnext => rw [hnone] at hnext; cases hnext
  | next hnext _ ih =>
    cases h' with
    | done hnone => rw [hnone] at hnext; cases hnext
    | next hnext' hrest' =>
      rw [hnext] at hnext'
      cases hnext'
      obtain ⟨rfl, rfl⟩ := ih hrest'
      exact ⟨rfl, rfl⟩

end Drained

-- Changes that the buffer holds are received as they are.
theorem drained_kept {waiting : List Change} (hw : store.changes.drop receiver.seen = waiting)
    (hs : receiver.seen ≤ store.changes.length) (hb : waiting.length ≤ bufferSize) :
    store.Drained receiver (waiting.map .change) store.subscribe := by
  have hlength : store.changes.length - receiver.seen = waiting.length := by
    rw [← hw, List.length_drop]
  induction waiting generalizing receiver with
  | nil =>
    obtain rfl : receiver = store.subscribe :=
      congrArg Receiver.mk (show receiver.seen = store.changes.length by simp at hlength; omega)
    refine .done ?_
    rw [next?_of_kept (by omega), hw]
    rfl
  | cons change waiting ih =>
    have hnext : store.next? receiver = some (.change change, ⟨receiver.seen + 1⟩) := by
      rw [next?_of_kept (by omega), hw]
      rfl
    rw [List.length_cons] at hlength hb
    refine .next hnext (ih ?_ (by dsimp only; omega) (by omega) (by dsimp only; omega))
    rw [← List.tail_drop, hw, List.tail_cons]

-- Receiving comes to an end, with all that the receiver is given.
theorem drained_receive (hs : receiver.seen ≤ store.changes.length) :
    store.Drained receiver (store.receive receiver).2 store.subscribe := by
  by_cases hlag : bufferSize < store.changes.length - receiver.seen
  · have hmissed : store.changes.length - receiver.seen - bufferSize ≠ 0 := by omega
    have hreceive : (store.receive receiver).2 =
        .lagged (store.changes.length - receiver.seen - bufferSize) ::
          (store.changes.drop (store.changes.length - bufferSize)).map .change := by
      simp only [receive, List.length_drop, hmissed, if_false, List.drop_drop, List.cons_append,
        List.nil_append]
      rw [show receiver.seen + (store.changes.length - receiver.seen - bufferSize) =
        store.changes.length - bufferSize by omega]
    rw [hreceive]
    have hkept : (store.changes.drop (store.changes.length - bufferSize)).length ≤ bufferSize := by
      rw [List.length_drop]
      omega
    exact .next (next?_of_lagging hlag) (drained_kept rfl (Nat.sub_le _ _) hkept)
  · have hmissed : store.changes.length - receiver.seen - bufferSize = 0 := by omega
    have hreceive : (store.receive receiver).2 =
        (store.changes.drop receiver.seen).map .change := by
      simp only [receive, List.length_drop, hmissed, if_true, List.nil_append, List.drop_zero]
    rw [hreceive]
    exact drained_kept rfl hs (by rw [List.length_drop]; omega)

end Store

theorem Delivery.foldl_count (deliveries : List Delivery) (n : Nat) :
    deliveries.foldl (fun n delivery => n + delivery.count) n =
      n + (deliveries.map Delivery.count).sum := by
  induction deliveries generalizing n with
  | nil => rfl
  | cons delivery deliveries ih =>
    rw [List.foldl_cons, ih, List.map_cons, List.sum_cons, Nat.add_assoc]

namespace Diagnostics

variable {d : Diagnostics} {store : Store} {early : Nat} {h : Hook}

-- It watches the store, and has counted what it received since so many changes were told.
def Counting (d : Diagnostics) (store : Store) (early : Nat) : Prop :=
  ∃ receiver, d.receiver = some receiver ∧ receiver.seen = early + d.observed ∧
    receiver.seen ≤ store.changes.length

-- It drains what waits, delivery by delivery, and then has counted everything.
theorem Counting.drain (hd : d.Counting store early) :
    (∃ receiver deliveries, d.receiver = some receiver ∧
      store.Drained receiver deliveries store.subscribe ∧
      (d.drain store).1.observed = d.observed + (deliveries.map Delivery.count).sum) ∧
    (d.drain store).1.Counting store early ∧
    early + (d.drain store).1.observed = store.changes.length := by
  obtain ⟨receiver, hreceiver, hseen, hle⟩ := hd
  have hdrained := Store.drained_receive hle
  have hdrain : (d.drain store).1 = { d with
      receiver := some store.subscribe
      observed := d.observed + ((store.receive receiver).2.map Delivery.count).sum } := by
    rw [Diagnostics.drain, hreceiver, ← Delivery.foldl_count]
    rfl
  have htotal : early + (d.drain store).1.observed = store.changes.length := by
    have hlast : store.changes.length = _ := hdrained.seen
    rw [hdrain]
    dsimp only
    omega
  refine ⟨⟨receiver, _, hreceiver, hdrained, by rw [hdrain]⟩, ?_, htotal⟩
  exact ⟨store.subscribe, by rw [hdrain], htotal.symm, Nat.le_refl _⟩

-- A later pass goes on watching from where it is.
theorem Counting.watch (hd : d.Counting store early) :
    d.beginPass.watch store = d.beginPass := by
  obtain ⟨receiver, hreceiver, -⟩ := hd
  simp only [Diagnostics.watch, beginPass, hreceiver, Option.getD_some]

-- At every hook but the first of all it drains what waits.
theorem Counting.respond (hd : d.Counting store early) (occasion : Occasion h)
    (payload : h.Payload) (hh : h ≠ .handleConfig) :
    ∃ d' : Diagnostics, d'.Counting store early ∧ d'.receiver = d.receiver ∧
      d'.observed = d.observed ∧
      (d.respond store occasion payload).1 = (d'.drain store).1 := by
  cases h with
  | handleConfig => exact absurd rfl hh
  | start => exact ⟨d.beginPass, hd, rfl, rfl, congrArg (·.drain store |>.1) hd.watch⟩
  | _ => exact ⟨d, hd, rfl, rfl, rfl⟩

-- Before the first pass it takes no notice of the store.
theorem respond_of_unwatched (hd : d.receiver = none) (occasion : Occasion h)
    (payload : h.Payload) (hh : h ≠ .start) : (d.respond store occasion payload).1 = d := by
  have hdrain : (d.drain store).1 = d := by rw [Diagnostics.drain, hd]
  cases h with
  | start => exact absurd rfl hh
  | handleConfig => rfl
  | _ => exact hdrain

-- The first pass begins to watch, with nothing to count yet.
theorem respond_start (hd : d.receiver = none) (plan : Plan) (package : Package)
    (state : RunState) :
    (d.respond store (.start plan package) state).1 =
      { d with passes := d.passes + 1, receiver := some store.subscribe } := by
  have hwatch : d.beginPass.watch store =
      { d with passes := d.passes + 1, receiver := some store.subscribe } := by
    simp only [Diagnostics.watch, beginPass, hd, Option.getD_none]
  have hreceive : store.receive store.subscribe = (store.subscribe, []) := by
    simp [Store.receive, Store.subscribe]
  change ((d.beginPass.watch store).drain store).1 = _
  simp only [hwatch, Diagnostics.drain, hreceive, List.foldl_nil]

end Diagnostics

-- What happens to a store that the diagnostics watch.
inductive Incident where
  | edit (edit : StoreEdit)
  | call {h : Hook} (occasion : Occasion h) (payload : h.Payload)

namespace Incident

def Begins : Incident → Prop
  | edit _ => False
  | @call h _ _ => h = .start

end Incident

-- The diagnostics, the store, and the changes that it told of.
structure Watch where
  diagnostics : Diagnostics := {}
  store : Store := {}
  told : List Change := []

namespace Watch

variable {w : Watch} {early : Nat}

def meet (w : Watch) : Incident → Watch
  | .edit edit =>
    let (store, told) := w.store.edit edit
    { w with store, told := w.told ++ told }
  | .call occasion payload =>
    { w with diagnostics := (w.diagnostics.respond w.store occasion payload).1 }

def run (w : Watch) (incidents : List Incident) : Watch := incidents.foldl meet w

-- The first pass begins after some incidents, and what is told is collected from there on.
def begun (store : Store) (before : List Incident) (plan : Plan) (package : Package)
    (state : RunState) : Watch :=
  { (run { store } before).meet (.call (.start plan package) state) with told := [] }

theorem changes_edit (store : Store) (edit : StoreEdit) :
    (store.edit edit).1.changes = store.changes ++ (store.edit edit).2 := by
  cases edit with
  | take => exact (List.append_nil _).symm
  | _ => rfl

-- The diagnostics count from where so many changes had been told, and all since then are known.
structure Counted (w : Watch) (early : Nat) : Prop where
  counting : w.diagnostics.Counting w.store early
  told : w.store.changes.length = early + w.told.length

theorem Counted.meet (hw : w.Counted early) (incident : Incident) :
    (w.meet incident).Counted early := by
  cases incident with
  | edit edit =>
    have hlength : (w.store.edit edit).1.changes.length =
        w.store.changes.length + (w.store.edit edit).2.length := by
      rw [changes_edit, List.length_append]
    obtain ⟨receiver, hreceiver, hseen, hle⟩ := hw.counting
    refine ⟨⟨receiver, hreceiver, hseen, ?_⟩, ?_⟩
    · change _ ≤ (w.store.edit edit).1.changes.length
      omega
    · change (w.store.edit edit).1.changes.length =
        early + (w.told ++ (w.store.edit edit).2).length
      rw [hlength, hw.told, List.length_append, Nat.add_assoc]
  | @call h occasion payload =>
    refine ⟨?_, hw.told⟩
    by_cases hh : h = .handleConfig
    · subst hh
      cases occasion
      exact hw.counting
    · obtain ⟨d', hd', -, -, heq⟩ := hw.counting.respond occasion payload hh
      change ((w.diagnostics.respond w.store occasion payload).1).Counting w.store early
      rw [heq]
      exact hd'.drain.2.1

theorem Counted.run (hw : w.Counted early) (incidents : List Incident) :
    (w.run incidents).Counted early := by
  induction incidents generalizing w with
  | nil => exact hw
  | cons incident incidents ih => exact ih (hw.meet incident)

theorem diagnostics_run_of_unwatched {incidents : List Incident}
    (hw : w.diagnostics.receiver = none) (h : ∀ incident ∈ incidents, ¬incident.Begins) :
    (w.run incidents).diagnostics = w.diagnostics := by
  induction incidents generalizing w with
  | nil => rfl
  | cons incident incidents ih =>
    have hfirst : (w.meet incident).diagnostics = w.diagnostics := by
      cases incident with
      | edit => rfl
      | call occasion payload =>
        exact Diagnostics.respond_of_unwatched hw occasion payload (h _ List.mem_cons_self)
    have hrest := ih (w := w.meet incident) (by rw [hfirst, hw])
      fun later hlater => h later (List.mem_cons_of_mem _ hlater)
    exact hrest.trans hfirst

theorem counted_begun (store : Store) {before : List Incident}
    (hbefore : ∀ incident ∈ before, ¬incident.Begins) (plan : Plan) (package : Package)
    (state : RunState) :
    (begun store before plan package state).diagnostics.observed = 0 ∧
    (begun store before plan package state).Counted
      (run { store } before).store.changes.length := by
  have hfresh : (run { store } before).diagnostics = {} := diagnostics_run_of_unwatched rfl hbefore
  have hbegun : (begun store before plan package state).diagnostics =
      { passes := 1, receiver := some (run { store } before).store.subscribe } := by
    change ((run { store } before).diagnostics.respond _ (.start plan package) state).1 = _
    rw [Diagnostics.respond_start (by rw [hfresh]), hfresh]
  exact ⟨by rw [hbegun],
    ⟨_, congrArg Diagnostics.receiver hbegun, by rw [hbegun]; rfl, Nat.le_refl _⟩, rfl⟩

end Watch

section Order

variable {ε : Type} {raw : Json} {c₀ c : Coordinator ε} {result : Except Failure Unit}

-- The plugins are told of the configuration before anything else.
def ConfigureFirst (earlier later : Call) : Prop :=
  later.hook = .handleConfig → earlier.hook = .handleConfig

theorem configureFirst_answered (names : List String) (passes : Nat) :
    ((answered names (Hook.ofRun passes)).map Prod.fst).Pairwise ConfigureFirst := by
  have hrest : Hook.handleConfig ∉ (List.range passes).flatMap Hook.ofPass ++ [.shutdown] := by
    simp only [List.mem_append, List.mem_flatMap, not_or, not_exists, not_and]
    refine ⟨fun number _ hmem => ?_, by decide⟩
    unfold Hook.ofPass at hmem
    split at hmem <;> simp at hmem
  have hsplit : Hook.ofRun passes =
      [.handleConfig] ++ ((List.range passes).flatMap Hook.ofPass ++ [.shutdown]) := rfl
  rw [hsplit, answered_append, List.map_append, List.pairwise_append]
  have hfirst : ∀ call ∈ (answered names [.handleConfig]).map Prod.fst,
      call.hook = .handleConfig := by
    intro call hcall
    obtain ⟨answer, hanswer, rfl⟩ := List.mem_map.mp hcall
    exact List.mem_singleton.mp (mem_answered hanswer).1
  have hlater : ∀ call ∈ (answered names
      ((List.range passes).flatMap Hook.ofPass ++ [.shutdown])).map Prod.fst,
      call.hook ≠ .handleConfig := by
    intro call hcall heq
    obtain ⟨answer, hanswer, rfl⟩ := List.mem_map.mp hcall
    exact hrest (heq ▸ (mem_answered hanswer).1)
  refine ⟨?_, ?_, fun earlier hearlier _ _ _ => hfirst earlier hearlier⟩
  · exact List.pairwise_of_forall_mem_list fun earlier hearlier _ _ _ => hfirst earlier hearlier
  · exact List.pairwise_of_forall_mem_list fun _ _ later hl heq => absurd heq (hlater later hl)

-- Whether it failed or not, what a run called is the beginning of what whole runs call.
theorem Coordinator.Heard.begins (h : c₀.Heard raw result c) :
    ∃ names passes, c.dispatcher.calls.map Prod.fst <+:
      (answered names (Hook.ofRun passes)).map Prod.fst := by
  obtain ⟨-, h⟩ := h
  cases result with
  | ok =>
    obtain ⟨plugins, -, -, hcalls⟩ := h
    exact ⟨plugins.map Plugin.name, c.world.metrics.passes, hcalls ▸ List.prefix_rfl⟩
  | error failure =>
    rcases h with hnone | ⟨plugins, -, hshort⟩
    · exact ⟨[], 0, by rw [hnone]; exact List.nil_prefix⟩
    · obtain ⟨passes, -, hbegins⟩ := hshort.begins
      exact ⟨_, passes, hbegins⟩

theorem Course.configureFirst {trail : List (Situation ε)} {moment : Moment ε} (hb : c₀.Built)
    (h : Course raw c₀ trail moment c) :
    (c.dispatcher.calls.map Prod.fst).Pairwise ConfigureFirst := by
  have hbegins : ∃ names passes, c.dispatcher.calls.map Prod.fst <+:
      (answered names (Hook.ofRun passes)).map Prod.fst := by
    obtain ⟨signals, -, rfl⟩ | ⟨hm, -, hheard⟩ | ⟨result, -, hheard⟩ := h.heard hb
    · refine ⟨[], 0, ?_⟩
      change c₀.dispatcher.calls.map Prod.fst <+: _
      rw [hb.dispatcher]
      exact List.nil_prefix
    · exact (hheard.refused hm .terminated).begins
    · exact hheard.begins
  obtain ⟨names, passes, hbegins⟩ := hbegins
  exact (configureFirst_answered names passes).sublist hbegins.sublist

end Order

namespace Watch

-- Whatever is done to a store and in whatever order plugins are called. From the first pass on the
-- diagnostics have counted, at each hook that they answer, all changes that the store told of since
-- that pass began, each of them once: what waits for them is received delivery by delivery until
-- nothing does, and there is one way only to do that. The configuration alone is handed to them
-- without a store to drain; it is handed out before the first pass, and in no run after that.
theorem observed_eq_told (store : Store) {before : List Incident}
    (hbefore : ∀ incident ∈ before, ¬incident.Begins) (plan : Plan) (package : Package)
    (state : RunState) (incidents : List Incident) :
    let w := (begun store before plan package state).run incidents
    (begun store before plan package state).diagnostics.observed = 0 ∧
    (∀ {h : Hook} (occasion : Occasion h) (payload : h.Payload), h ≠ .handleConfig →
      let next := w.meet (.call occasion payload)
      next.diagnostics.observed = w.told.length ∧
      ∃ receiver deliveries, w.diagnostics.receiver = some receiver ∧
        w.store.Drained receiver deliveries w.store.subscribe ∧
        (∀ deliveries' last, w.store.Drained receiver deliveries' last →
          deliveries' = deliveries ∧ last = w.store.subscribe) ∧
        next.diagnostics.observed =
          w.diagnostics.observed + (deliveries.map Delivery.count).sum) ∧
    (∀ settings : Settings, w.meet (.call .handleConfig settings) = w) ∧
    ∀ {ε : Type} (raw : Json) (c₀ : Coordinator ε) (trail : List (Situation ε))
      (moment : Moment ε) (c : Coordinator ε), c₀.Built → Course raw c₀ trail moment c →
        (c.dispatcher.calls.map Prod.fst).Pairwise ConfigureFirst := by
  intro w
  obtain ⟨hbegun, hcounted⟩ := counted_begun store hbefore plan package state
  have hw : w.Counted _ := hcounted.run incidents
  refine ⟨hbegun, fun occasion payload hh => ?_, fun _ => rfl,
    fun _ _ _ _ _ hb hcourse => hcourse.configureFirst hb⟩
  obtain ⟨d', hd', hreceiver, hobserved, hrespond⟩ := hw.counting.respond occasion payload hh
  obtain ⟨⟨receiver, deliveries, hr, hdrained, hsum⟩, -, htotal⟩ := hd'.drain
  have hnext : (w.meet (.call occasion payload)).diagnostics = (d'.drain w.store).1 := hrespond
  refine ⟨?_, receiver, deliveries, hreceiver ▸ hr, hdrained,
    fun _ _ h => h.unique hdrained, ?_⟩
  · have htold := hw.told
    rw [hnext]
    omega
  · rw [hnext, hsum, hobserved]

def early : List Incident := [.edit (.replace []), .call .handleConfig default]

-- More changes than the buffer holds, and another pass.
def burst : List Incident :=
  List.replicate 130 (.edit (.replace [])) ++
    [.call (.start default default) default, .edit .reset, .call .handleConfig default, .edit .take]

def bursting : Watch := (begun {} early default default default).run burst

theorem burst_observed :
    bursting.told.length = 131 ∧ bursting.diagnostics.observed = 130 ∧
    (bursting.meet (.call (.shutdown none) ())).diagnostics.observed = 131 ∧
    (twice.after 5 (.configure twiceConfig)).2.dispatcher.calls.length = 10 ∧
    ((twice.after 5 (.configure twiceConfig)).2.dispatcher.calls.map Prod.fst).Pairwise
      ConfigureFirst := by
  have hearly : ∀ incident ∈ early, ¬incident.Begins := by
    simp [early, Incident.Begins]
  have hbuilt : twice.Built := ⟨rfl, rfl, rfl⟩
  have htold : bursting.told.length = 131 := by decide +kernel
  obtain ⟨-, hcalled, -, hruns⟩ := observed_eq_told {} hearly default default default burst
  obtain ⟨hobserved, -⟩ := hcalled (.shutdown none) () (by decide)
  refine ⟨htold, by decide +kernel, ?_, by decide +kernel,
    hruns twiceConfig twice _ _ _ hbuilt (Coordinator.course_ahead 5 .begin)⟩
  rw [bursting] at htold ⊢
  exact hobserved.trans htold

-- The hook that is handed no store leaves a change waiting. No run calls it that late.
theorem configured_unobserved :
    let w := (begun {} early default default default).run [.edit .reset]
    let next := w.meet (.call .handleConfig default)
    next.told.length = 1 ∧ next.diagnostics.observed = 0 := by
  decide

end Watch

end DocPipeline
