import DocPipeline.Proofs.Coordinator.Enlist
import DocPipeline.Proofs.Coordinator.History

namespace DocPipeline

variable {ε : Type}

namespace Hook

-- The hooks of a pass. All passes but the first are asked for.
def ofPass (number : Nat) : List Hook :=
  (if number = 0 then [] else [regenerate]) ++
    [start, handleVirtual, handleDocData, handleDocDb, complete]

def ofPasses (passes : Nat) : List Hook := handleConfig :: (List.range passes).flatMap ofPass

-- The hooks of a whole run.
def ofRun (passes : Nat) : List Hook := ofPasses passes ++ [shutdown]

-- The hooks before another pass begins.
def begun (passes : Nat) : List Hook :=
  ofPasses passes ++ if passes = 0 then [] else [regenerate]

theorem ofPasses_succ (passes : Nat) : ofPasses (passes + 1) =
    begun passes ++ [start, handleVirtual, handleDocData, handleDocDb, complete] := by
  simp [ofPasses, begun, ofPass, List.range_succ]

theorem ofPasses_prefix (passes : Nat) : ofPasses passes <+: ofPasses (passes + 1) := by
  rw [ofPasses_succ, begun, List.append_assoc]
  exact List.prefix_append _ _

theorem shutdown_not_mem_ofPasses (passes : Nat) : shutdown ∉ ofPasses passes := by
  simp only [ofPasses, List.mem_cons, reduceCtorEq, List.mem_flatMap, false_or, not_exists, not_and]
  intro number _ hmem
  unfold ofPass at hmem
  split at hmem <;> simp at hmem

end Hook

namespace Moment

-- The hooks that are called at a moment.
def called : Moment ε → List Hook
  | configure _ => [.handleConfig]
  | start _ => [.start]
  | parse _ _ => [.handleVirtual]
  | edit _ => [.handleDocData, .handleDocDb]
  | complete _ => [.complete]
  | signalled _ .regenerate => [.regenerate]
  | shutDown _ => [.shutdown]
  | _ => []

-- The hooks that were gone through before a moment, when so many passes were counted.
def before (passes : Nat) : Moment ε → List Hook
  | configure _ => []
  | discover _ => [.handleConfig]
  | start _ => Hook.begun passes
  | parse _ _ => Hook.begun passes ++ [.start]
  | edit _ => Hook.begun passes ++ [.start, .handleVirtual]
  | resolve _ | prepare _ | publish _ | complete _ =>
    Hook.begun passes ++ [.start, .handleVirtual, .handleDocData, .handleDocDb]
  | completed _ _ => Hook.ofPasses (passes + 1)
  | idle _ | wait _ | signalled _ _ | shutDown _ => Hook.ofPasses passes
  | returned _ => Hook.ofRun passes

-- No pass is counted before the first one, and one at least after it.
def Counts (passes : Nat) : Moment ε → Prop
  | configure _ | discover _ => passes = 0
  | idle _ | wait _ | signalled _ _ | shutDown _ | returned _ => 0 < passes
  | _ => True

theorem before_of_leads {passes : Nat} {moment next : Moment ε} (hl : moment.Leads next)
    (hc : moment.Counts passes) :
    next.before (passes + moment.completing) = moment.before passes ++ moment.called ∧
      next.Counts (passes + moment.completing) := by
  cases hl with
  | configure => exact ⟨rfl, hc⟩
  | discover =>
    obtain rfl : passes = 0 := hc
    exact ⟨rfl, trivial⟩
  | complete =>
    refine ⟨?_, trivial⟩
    simp [before, called, completing, Hook.ofPasses_succ]
  | regenerate =>
    have hpasses : passes ≠ 0 := Nat.pos_iff_ne_zero.mp hc
    exact ⟨by simp [before, called, completing, Hook.begun, hpasses], trivial⟩
  | stay => exact ⟨by simp [before, called, completing], Nat.succ_pos passes⟩
  | leave => exact ⟨by simp [before, called, completing], Nat.succ_pos passes⟩
  | shutDown => exact ⟨rfl, hc⟩
  | start | parse | edit | resolve | prepare | publish =>
    exact ⟨by simp [before, called, completing], trivial⟩
  | _ => exact ⟨by simp [before, called, completing], hc⟩

theorem underWay_of_leads {moment next : Moment ε} (hl : moment.Leads next)
    (hs : ∀ plan, moment ≠ shutDown plan) :
    next.isReturned = false ∧ ∀ raw, next ≠ configure raw := by
  cases hl with
  | shutDown => exact absurd rfl (hs _)
  | _ => exact ⟨rfl, nofun⟩

-- Unless the run ends there, a whole number of passes goes on from what a moment calls.
theorem prefix_of_counts {passes : Nat} {moment : Moment ε} (hc : moment.Counts passes)
    (hr : moment.isReturned = false) (hs : ∀ plan, moment ≠ shutDown plan) :
    moment.before passes ++ moment.called <+: Hook.ofPasses (passes + 1) := by
  have hfirst : [Hook.handleConfig] <+: Hook.ofPasses (passes + 1) := ⟨_, rfl⟩
  have hwhole := Hook.ofPasses_prefix passes
  cases moment with
  | configure => exact hfirst
  | discover => exact hfirst
  | completed => simp [before, called]
  | idle | wait => simpa [before, called] using hwhole
  | signalled session signal =>
    cases signal with
    | regenerate =>
      have hpasses : passes ≠ 0 := Nat.pos_iff_ne_zero.mp hc
      simp [before, called, Hook.ofPasses_succ, Hook.begun, hpasses]
    | shutdown => simpa [before, called] using hwhole
  | shutDown plan => exact absurd rfl (hs plan)
  | returned => cases hr
  | _ => simp [before, called, Hook.ofPasses_succ, List.prefix_append_right_inj]

end Moment

-- How the calls of a run end that fails: they are the beginning of a whole run's. Nobody failed
-- before the last one called, and if that one did, its failure is that of the run. The plugins are
-- told of the end only where that is what fails.
structure CutShort (names : List String) (failure : Failure) (calls : List Answer) : Prop where
  begins : ∃ passes, 0 < passes ∧
    calls.map Prod.fst <+: (answered names (Hook.ofRun passes)).map Prod.fst
  ok : ∀ answer ∈ calls.dropLast, answer.2 = .ok ()
  raised : ∀ call cause, calls.getLast? = some (call, .error cause) →
    failure = cause.blamedOn call.plugin call.hook.name
  shutdown : ∀ answer ∈ calls, answer.1.hook = .shutdown →
    ∃ name cause, calls.getLast? = some (⟨.shutdown, name⟩, .error cause)

section CutShort

variable {names : List String} {hooks : List Hook} {failure : Failure} {calls : List Answer}
  {passes : Nat}

theorem Stops.cutShort (h : Stops names hooks failure calls) (hp : hooks <+: Hook.ofPasses passes)
    (hpos : 0 < passes) : CutShort names failure calls := by
  have hbegins : hooks <+: Hook.ofRun passes := hp.trans (List.prefix_append _ _)
  refine ⟨⟨passes, hpos, ?_⟩, h.ok_of_mem_dropLast, fun _ _ => h.failure_of_getLast?, ?_⟩
  · obtain ⟨more, hmore⟩ := hbegins
    rw [← hmore, answered_append, List.map_append]
    exact h.prefix_answered.trans (List.prefix_append _ _)
  · intro answer hanswer hshutdown
    obtain ⟨called, hcalled, he⟩ :=
      List.mem_map.mp (h.prefix_answered.subset (List.mem_map_of_mem hanswer))
    have hmem : Hook.shutdown ∈ hooks := by
      rw [← hshutdown, ← he]
      exact (mem_answered hcalled).1
    exact absurd (hp.subset hmem) (Hook.shutdown_not_mem_ofPasses passes)

theorem Raises.cutShort (h : Raises names .shutdown failure calls) (hpos : 0 < passes) :
    CutShort names failure (answered names (Hook.ofPasses passes) ++ calls) := by
  have hstops := h.stops.later (Hook.ofPasses passes)
  refine ⟨⟨passes, hpos, hstops.prefix_answered⟩, hstops.ok_of_mem_dropLast,
    fun _ _ => hstops.failure_of_getLast?, fun _ _ _ => ?_⟩
  obtain ⟨first, name, rest, cause, -, -, rfl⟩ := h
  exact ⟨name, cause, by rw [← List.append_assoc, List.getLast?_concat]⟩

end CutShort

namespace Coordinator

-- To release the plugins and to abort the run calls nobody.
theorem release_made (c : Coordinator ε) : c.Made c.release [] := by
  refine ⟨?_, rfl⟩
  simp only [release, Dispatcher.destroy]
  split <;> exact (List.append_nil _).symm

theorem abort_made (c : Coordinator ε) : c.Made c.abort [] := by
  unfold abort
  split
  · exact ⟨(release_made _).calls, rfl⟩
  · exact release_made c

end Coordinator

namespace Flow

variable {names : List String}

-- At a moment that calls no hook, nothing is done with the plugins.
theorem silent_proceed {moment : Moment ε} (h : moment.called = []) : Silent (proceed moment) := by
  cases moment with
  | discover session =>
    have hfirst : Silent (discoverFirst session) := silent_bind (silent_discover session) fun _ =>
      silent_bind (silent_note _ _) fun _ => silent_pure _
    exact silent_bind hfirst fun _ => silent_pure _
  | resolve session => exact silent_bind (silent_resolve session) fun _ => silent_pure _
  | prepare session =>
    have hprepare : Silent (preparePublishing session.plan : Flow ε Unit) :=
      silent_of_lenient fun hI => keeps_preparePublishing hI session.plan
    exact silent_bind hprepare fun _ => silent_pure _
  | publish session => exact silent_bind (silent_publish session) fun _ => silent_pure _
  | completed session keepAlive =>
    have hcount : Silent (work (Work.count Metrics.addPass) : Flow ε Unit) :=
      silent_work fun _ => keeps_modify fun _ h => h
    exact silent_bind hcount fun _ => silent_pure _
  | idle session => exact silent_bind (silent_note _ _) fun _ => silent_pure _
  | wait session => exact silent_wait session
  | signalled session signal =>
    cases signal with
    | regenerate => cases h
    | shutdown => exact silent_bind (silent_note _ _) fun _ => silent_pure _
  | returned result => exact silent_pure _
  | _ => cases h

-- Unless it begins or ends the run, what is done at a moment calls the hooks of the moment.
theorem calls_proceed {moment : Moment ε} (hc : ∀ raw, moment ≠ .configure raw)
    (hs : ∀ plan, moment ≠ .shutDown plan) : Calls names moment.called (proceed moment) := by
  cases moment with
  | configure raw => exact absurd rfl (hc raw)
  | start session => exact calls_then (calls_beginPass session) fun _ => silent_pure _
  | parse session candidates =>
    exact calls_then (calls_parse session candidates) fun _ => silent_pure _
  | edit session => exact calls_then (calls_editRecords session.plan) fun _ => silent_pure _
  | complete session => exact calls_then (calls_complete session) fun _ => silent_pure _
  | signalled session signal =>
    cases signal with
    | regenerate => exact calls_then (calls_regenerate session) fun _ => silent_pure _
    | shutdown => exact (silent_proceed rfl).calls
  | shutDown plan => exact absurd rfl (hs plan)
  | _ => exact (silent_proceed rfl).calls

-- The hook is called before anything is released, and its failure is handed on after that.
theorem exec_shutDown {plan : Plan} {c c' : Coordinator ε} {result : Except Failure Unit}
    (h : exec (dispatch (.shutdown (some plan)) ()) c = (result, c')) :
    ∃ log, exec (shutDown plan) c =
      (result, { c'.release with world := { c'.release.world with log } }) := by
  simp only [shutDown, exec_bind, exec_tryCatch, h]
  cases result <;> exact ⟨_, rfl⟩

-- A run that is terminated is not begun again.
theorem exec_advance_of_terminated {c : Coordinator ε} (h : c.stage = .terminated) (raw : Json) :
    exec (advance (.configure raw)) c = (.error .terminated, c) := by
  simp only [advance, enterTarget, Moment.target?, enter, exec_bind, exec_get,
    Machine.move_of_terminated h]
  rfl

-- Where a moment is not followed by another, its stage was refused or what was done then failed.
theorem advance_error {moment : Moment ε} {c c' : Coordinator ε} {failure : Failure}
    (h : exec (advance moment) c = (.error failure, c')) :
    c' = c ∨ ∃ machine log,
      exec (proceed moment) { c with machine, world := { c.world with log } } =
        (.error failure, c') := by
  cases ht : moment.target? with
  | none =>
    rw [exec_advance_of_stay ht] at h
    exact .inr ⟨c.machine, c.world.log, h⟩
  | some target =>
    cases hm : c.machine.move target with
    | ok machine =>
      rw [exec_advance_of_move ht hm] at h
      exact .inr ⟨_, _, h⟩
    | error failure' =>
      simp only [advance, enterTarget, ht, enter, exec_bind, exec_get, hm] at h
      cases h
      exact .inl rfl

-- Passes are counted where they are completed.
theorem proceed_passes (moment : Moment ε) (c : Coordinator ε) :
    (exec (proceed moment) c).2.world.metrics.passes =
      c.world.metrics.passes + moment.completing := by
  have hm : moment.Meets fun _ _ => True := by
    cases moment <;> first | trivial | exact ⟨fun _ => trivial, fun _ _ _ _ => trivial⟩
  have hw : c.Within (.keeping fun _ _ => True) c.machine c.world.metrics.passes
      { generation := 0 } := ⟨c.meets_any, rfl, ⟨rfl, trivial⟩⟩
  exact (proceed_within Coordinator.lasting_any hm hw).1.world.passes

end Flow

-- Where a run stands before it returns: which plugins it has, and what was called so far.
def Moment.Heard (raw : Json) (c₀ : Coordinator ε) (moment : Moment ε) (c : Coordinator ε) : Prop :=
  ∃ plugins, c₀.Enlists raw plugins ∧ c.Calling (plugins.map Plugin.name) ∧
    c.dispatcher.calls =
      answered (plugins.map Plugin.name) (moment.before c.world.metrics.passes) ∧
    c.world.metrics.hookInvocations = c.dispatcher.calls.length ∧
    moment.Counts c.world.metrics.passes

-- What was called by a run that has returned.
def Coordinator.Heard (c₀ : Coordinator ε) (raw : Json) (result : Except Failure Unit)
    (c : Coordinator ε) : Prop :=
  c.world.metrics.hookInvocations = c.dispatcher.calls.length ∧
  match result with
  | .ok () => ∃ plugins, c₀.Enlists raw plugins ∧ 0 < c.world.metrics.passes ∧
      c.dispatcher.calls =
        answered (plugins.map Plugin.name) (Hook.ofRun c.world.metrics.passes)
  | .error failure => c.dispatcher.calls = [] ∨ ∃ plugins, c₀.Enlists raw plugins ∧
      CutShort (plugins.map Plugin.name) failure c.dispatcher.calls

namespace Coordinator

variable {raw : Json} {c₀ c c' : Coordinator ε} {result : Except Failure Unit}

-- What follows without a call makes no difference.
theorem Heard.of_made (h : c₀.Heard raw result c) (hm : c.Made c' [])
    (hp : c'.world.metrics.passes = c.world.metrics.passes) : c₀.Heard raw result c' := by
  have hcalls : c'.dispatcher.calls = c.dispatcher.calls := by rw [hm.calls, List.append_nil]
  have hcounted : c'.world.metrics.hookInvocations = c.world.metrics.hookInvocations := hm.counted
  unfold Heard at h ⊢
  rw [hcalls, hcounted, hp]
  exact h

theorem abort_passes (c : Coordinator ε) :
    c.abort.world.metrics.passes = c.world.metrics.passes := by
  unfold abort
  split <;> rfl

end Coordinator

namespace Moment.Heard

variable {raw : Json} {c₀ c c' : Coordinator ε} {moment next : Moment ε} {failure : Failure}

-- A stage that is entered calls nobody.
theorem enter (h : moment.Heard raw c₀ c) (machine : Machine) (log : Log) :
    moment.Heard raw c₀ { c with machine, world := { c.world with log } } := by
  obtain ⟨plugins, henlists, hcalling, hrest⟩ := h
  exact ⟨plugins, henlists, ⟨hcalling.names, hcalling.ready⟩, hrest⟩

theorem proceed_ok (h : moment.Heard raw c₀ c) (hc : ∀ raw, moment ≠ .configure raw)
    (hs : ∀ plan, moment ≠ .shutDown plan) (hr : moment.isReturned = false)
    (he : exec (Flow.proceed moment) c = (.ok next, c')) : next.Heard raw c₀ c' := by
  obtain ⟨plugins, henlists, hcalling, hcalls, hcounted, hcounts⟩ := h
  have hleads := (Flow.leads_of_proceed hr c trivial).2 next (by rw [he])
  have hpasses := Flow.proceed_passes moment c
  rw [he] at hpasses
  obtain ⟨hbefore, hnext⟩ := before_of_leads hleads hcounts
  obtain ⟨hcalling', hmade⟩ := (Flow.calls_proceed hc hs c hcalling).1 next c' he
  refine ⟨plugins, henlists, hcalling', ?_, hmade.all_counted hcounted, hpasses ▸ hnext⟩
  rw [hmade.calls, hcalls, hpasses, hbefore, answered_append]

theorem proceed_error (h : moment.Heard raw c₀ c) (hc : ∀ raw, moment ≠ .configure raw)
    (hs : ∀ plan, moment ≠ .shutDown plan) (hr : moment.isReturned = false)
    (he : exec (Flow.proceed moment) c = (.error failure, c')) :
    c₀.Heard raw (.error failure) c' := by
  obtain ⟨plugins, henlists, hcalling, hcalls, hcounted, hcounts⟩ := h
  obtain ⟨made, hstops, hmade⟩ := (Flow.calls_proceed hc hs c hcalling).2 failure c' he
  refine ⟨hmade.all_counted hcounted, .inr ⟨plugins, henlists, ?_⟩⟩
  rw [hmade.calls, hcalls]
  exact (hstops.later _).cutShort (prefix_of_counts hcounts hr hs) (Nat.succ_pos _)

-- Where a stage is refused the calls end between two hooks.
theorem refused (h : moment.Heard raw c₀ c) (hr : moment.isReturned = false) (failure : Failure) :
    c₀.Heard raw (.error failure) c := by
  obtain ⟨plugins, henlists, -, hcalls, hcounted, hcounts⟩ := h
  refine ⟨hcounted, .inr ⟨plugins, henlists, ?_⟩⟩
  rw [hcalls]
  have hbefore : moment.before c.world.metrics.passes <+:
      Hook.ofPasses (c.world.metrics.passes + 1) := by
    by_cases hs : ∃ plan, moment = .shutDown plan
    · obtain ⟨plan, rfl⟩ := hs
      exact Hook.ofPasses_prefix c.world.metrics.passes
    · exact (List.prefix_append _ moment.called).trans
        (prefix_of_counts hcounts hr (not_exists.mp hs))
  exact (Stops.between (List.append_nil _).symm).cutShort hbefore (Nat.succ_pos _)

-- The last hook ends a run as it should, or fails and is then the one that ends it.
theorem proceed_shutDown {plan : Plan} (h : (shutDown plan).Heard raw c₀ c) :
    (∀ next, exec (Flow.proceed (.shutDown plan)) c = (.ok next, c') →
      next = .returned (.ok ()) ∧ c₀.Heard raw (.ok ()) c') ∧
    ∀ failure, exec (Flow.proceed (.shutDown plan)) c = (.error failure, c') →
      c₀.Heard raw (.error failure) c' := by
  obtain ⟨plugins, henlists, hcalling, hcalls, hcounted, hcounts⟩ := h
  obtain ⟨hok, herror⟩ := Flow.dispatch_calls (.shutdown (some plan)) () hcalling
  have hpasses := Flow.proceed_passes (.shutDown plan) c
  rcases hd : exec (Flow.dispatch (.shutdown (some plan)) ()) c with ⟨result, c₁⟩
  obtain ⟨log, he⟩ := Flow.exec_shutDown hd
  have hreleased : c₁.Made { c₁.release with world := { c₁.release.world with log } } [] :=
    ⟨(Coordinator.release_made c₁).calls, (Coordinator.release_made c₁).counted⟩
  generalize { c₁.release with world := { c₁.release.world with log } } = c₂ at he hreleased
  rw [Flow.proceed, exec_bind, he] at hpasses ⊢
  cases result with
  | ok _ =>
    refine ⟨?_, fun _ h => (nomatch h)⟩
    rintro _ ⟨⟩
    have hmade := (hok () c₁ hd).2.trans hreleased
    rw [List.append_nil] at hmade
    have hsame : c'.world.metrics.passes = c.world.metrics.passes := hpasses
    refine ⟨rfl, hmade.all_counted hcounted, plugins, henlists, hsame ▸ hcounts, ?_⟩
    rw [hmade.calls, hcalls, hsame, Hook.ofRun, answered_append]
    rfl
  | error failure =>
    refine ⟨fun _ h => (nomatch h), ?_⟩
    rintro _ ⟨⟩
    obtain ⟨made, hraises, hmade⟩ := herror failure c₁ hd
    have hmade := hmade.trans hreleased
    rw [List.append_nil] at hmade
    refine ⟨hmade.all_counted hcounted, .inr ⟨plugins, henlists, ?_⟩⟩
    rw [hmade.calls, hcalls]
    exact hraises.cutShort hcounts

-- A step of a run that is under way.
theorem advance (h : moment.Heard raw c₀ c) (hc : ∀ raw, moment ≠ .configure raw)
    (hr : moment.isReturned = false) :
    (∀ next c', exec (Flow.advance moment) c = (.ok next, c') →
      (next.isReturned = false ∧ (∀ raw, next ≠ .configure raw) ∧ next.Heard raw c₀ c') ∨
      ∃ result, next = .returned result ∧ c₀.Heard raw result c') ∧
    ∀ failure c', exec (Flow.advance moment) c = (.error failure, c') →
      c₀.Heard raw (.error failure) c' := by
  constructor
  · intro next c' he
    obtain ⟨machine, log, hp⟩ := Flow.advance_ok he
    by_cases hs : ∃ plan, moment = .shutDown plan
    · obtain ⟨plan, rfl⟩ := hs
      exact .inr ⟨_, (h.enter machine log).proceed_shutDown.1 next hp⟩
    · have hs := not_exists.mp hs
      have hleads := (Flow.leads_of_proceed hr _ trivial).2 next (by rw [hp])
      obtain ⟨hreturned, hconfigure⟩ := underWay_of_leads hleads hs
      exact .inl ⟨hreturned, hconfigure, (h.enter machine log).proceed_ok hc hs hr hp⟩
  · intro failure c' he
    obtain rfl | ⟨machine, log, hp⟩ := Flow.advance_error he
    · exact h.refused hr failure
    · by_cases hs : ∃ plan, moment = .shutDown plan
      · obtain ⟨plan, rfl⟩ := hs
        exact (h.enter machine log).proceed_shutDown.2 failure hp
      · exact (h.enter machine log).proceed_error hc (not_exists.mp hs) hr hp

end Moment.Heard

namespace Coordinator

-- A coordinator as it is built.
structure Built (c : Coordinator ε) : Prop where
  machine : c.machine = {}
  dispatcher : c.dispatcher = {}
  metrics : c.world.metrics = {}

variable {c₀ c : Coordinator ε}

theorem Built.meddle (hb : c₀.Built) (signals : Signals) :
    Built { c₀ with world := { c₀.world with signals } } := ⟨hb.machine, hb.dispatcher, hb.metrics⟩

-- The first step registers the plugins, and calls them for the first time.
theorem Built.advance (hb : c.Built) (raw : Json) :
    (∀ next c', exec (Flow.advance (.configure raw)) c = (.ok next, c') →
      ∃ session, next = .discover session ∧ next.Heard raw c c') ∧
    ∀ failure c', exec (Flow.advance (.configure raw)) c = (.error failure, c') →
      c.Heard raw (.error failure) c' := by
  have hmove : c.machine.move .configuring = .ok ⟨.configuring, [⟨.init, .configuring⟩]⟩ := by
    rw [hb.machine]
    rfl
  have htarget : (Moment.configure raw : Moment ε).target? = some .configuring := rfl
  obtain ⟨c₁, hadvance, hd, hmetrics, henlists⟩ : ∃ c₁, exec (Flow.advance (.configure raw)) c =
      exec (Flow.proceed (.configure raw)) c₁ ∧ c₁.dispatcher = {} ∧ c₁.world.metrics = {} ∧
      ∀ plugins, c₁.Enlists raw plugins → c.Enlists raw plugins :=
    ⟨_, Flow.exec_advance_of_move htarget hmove, hb.dispatcher, hb.metrics, fun _ h => h⟩
  obtain ⟨hok, herror⟩ := Flow.configure_hooks hd (by rw [hmetrics] : _ = 0)
  have hpasses := Flow.proceed_passes (.configure raw) c₁
  rw [hadvance]
  rw [Flow.proceed, exec_bind] at hpasses ⊢
  rcases he : exec (Flow.configure raw) c₁ with ⟨failure | session, c₂⟩
  · refine ⟨fun _ _ h => (nomatch h), ?_⟩
    rintro _ _ ⟨⟩
    obtain ⟨hcounted, hcalls⟩ := herror failure c₂ he
    refine ⟨hcounted, hcalls.imp id ?_⟩
    rintro ⟨plugins, hplugins, hstops⟩
    have hbegins : [Hook.handleConfig] <+: Hook.ofPasses 1 := ⟨_, rfl⟩
    exact ⟨plugins, henlists plugins hplugins, hstops.cutShort hbegins Nat.one_pos⟩
  · refine ⟨?_, fun _ _ h => (nomatch h)⟩
    rintro _ _ ⟨⟩
    rw [he, hmetrics] at hpasses
    obtain ⟨plugins, hplugins, hcalling, hcalls, hcounted⟩ := hok session c₂ he
    exact ⟨session, rfl, plugins, henlists plugins hplugins, hcalling, hcalls, hcounted, hpasses⟩

end Coordinator

namespace Course

variable {raw : Json} {c₀ c : Coordinator ε} {trail : List (Situation ε)} {moment : Moment ε}

theorem heard (hb : c₀.Built) (h : Course raw c₀ trail moment c) :
    (∃ signals, moment = .configure raw ∧ c = { c₀ with world := { c₀.world with signals } }) ∨
    (moment.isReturned = false ∧ (∀ raw, moment ≠ .configure raw) ∧ moment.Heard raw c₀ c) ∨
    ∃ result, moment = .returned result ∧ c₀.Heard raw result c := by
  induction h with
  | begin => exact .inl ⟨c₀.world.signals, rfl, rfl⟩
  | @step trail moment c _ hm ih =>
    obtain ⟨signals, rfl, rfl⟩ | ⟨_, hc, hheard⟩ | ⟨result, rfl, _⟩ := ih
    · obtain ⟨hok, herror⟩ := (hb.meddle signals).advance raw
      rcases he : exec (Flow.advance (.configure raw))
        { c₀ with world := { c₀.world with signals } } with ⟨failure | next, c'⟩
      · rw [Coordinator.step_of_error he]
        exact .inr (.inr ⟨_, rfl, (herror failure c' he).of_made c'.abort_made c'.abort_passes⟩)
      · rw [Coordinator.step_of_ok he]
        obtain ⟨session, rfl, hheard⟩ := hok next c' he
        exact .inr (.inl ⟨rfl, nofun, hheard⟩)
    · obtain ⟨hok, herror⟩ := hheard.advance hc hm
      rcases he : exec (Flow.advance moment) c with ⟨failure | next, c'⟩
      · rw [Coordinator.step_of_error he]
        exact .inr (.inr ⟨_, rfl, (herror failure c' he).of_made c'.abort_made c'.abort_passes⟩)
      · rw [Coordinator.step_of_ok he]
        exact .inr (hok next c' he)
    · cases hm
  | meddle _ signals ih =>
    obtain ⟨signals', rfl, rfl⟩ | ⟨hm, hc, hheard⟩ | ⟨result, rfl, hheard⟩ := ih
    · exact .inl ⟨signals, rfl, rfl⟩
    · obtain ⟨plugins, henlists, hcalling, hrest⟩ := hheard
      exact .inr (.inl ⟨hm, hc, plugins, henlists, ⟨hcalling.names, hcalling.ready⟩, hrest⟩)
    · exact .inr (.inr ⟨result, rfl, hheard⟩)

-- A coordinator that is terminated runs no more.
theorem of_terminated (ht : c₀.stage = .terminated) (h : Course raw c₀ trail moment c) :
    c.stage = .terminated ∧ c₀.Made c [] ∧
      (moment = .configure raw ∨ moment = .returned (.error .terminated)) := by
  have hsame : c₀.Made c₀ [] := (Coordinator.SamePlugins.refl c₀).made
  induction h with
  | begin => exact ⟨ht, hsame, .inl rfl⟩
  | @step trail moment c _ hm ih =>
    obtain ⟨hstage, hmade, rfl | rfl⟩ := ih
    · rw [Coordinator.step_of_error (Flow.exec_advance_of_terminated hstage raw)]
      refine ⟨?_, hmade.trans c.abort_made, .inr rfl⟩
      rw [Coordinator.abort, Machine.move_of_terminated hstage]
      exact hstage
    · cases hm
  | meddle _ signals ih => exact ⟨ih.1, ⟨ih.2.1.calls, ih.2.1.counted⟩, ih.2.2⟩

end Course

namespace Coordinator

-- For all plugins, wherever one fails and whatever else fails: the plugins that a run calls are the
-- diagnostics, those that the configuration names, and those of the host, in this order. A run that
-- does not fail calls all of them at every hook of its passes, and one that fails is cut short. All
-- calls are counted. A coordinator runs once; whoever runs it again calls nobody.
theorem hooks_of_run (raw : Json) {c₀ : Coordinator ε} (hb : c₀.Built)
    {trail : List (Situation ε)} {result : Except Failure Unit} {c : Coordinator ε}
    (h : Course raw c₀ trail (.returned result) c) :
    c.world.metrics.hookInvocations = c.dispatcher.calls.length ∧
    (result = .ok () → ∃ plugins passes, c₀.Enlists raw plugins ∧ 0 < passes ∧
      passes = trail.countP Situation.completes ∧ passes = c.world.metrics.passes ∧
      c.dispatcher.calls = answered (plugins.map Plugin.name) (Hook.ofRun passes)) ∧
    (∀ failure, result = .error failure → c.dispatcher.calls = [] ∨
      ∃ plugins, c₀.Enlists raw plugins ∧
        CutShort (plugins.map Plugin.name) failure c.dispatcher.calls) ∧
    ∀ raw' trail' result' c', Course raw' c trail' (.returned result') c' →
      result' = .error .terminated ∧ c'.dispatcher.calls = c.dispatcher.calls ∧
      c'.world.metrics.hookInvocations = c.world.metrics.hookInvocations := by
  have hstart : c₀.Within (.keeping fun _ _ => True) {} 0 {} :=
    ⟨c₀.meets_any, hb.machine, ⟨by rw [hb.metrics], trivial⟩⟩
  obtain ⟨_, _, word, _, _, _, hw, _⟩ := h.ended lasting_any hstart
  obtain ⟨_, hr, _⟩ | ⟨hr, _⟩ | ⟨_, hr, hcounted, hheard⟩ := h.heard hb <;> cases hr
  refine ⟨hcounted, ?_, ?_, ?_⟩
  · rintro rfl
    obtain ⟨plugins, henlists, hpos, hcalls⟩ := hheard
    exact ⟨plugins, _, henlists, hpos, hw.world.passes, rfl, hcalls⟩
  · rintro failure rfl
    exact hheard
  · intro raw' trail' result' c' h'
    have hterminated : c.stage = .terminated := by
      rw [stage, hw.machine, Machine.along_concat]
      rfl
    obtain ⟨-, hmade, hr | hr⟩ := h'.of_terminated hterminated <;> cases hr
    exact ⟨rfl, hmade.calls.trans (List.append_nil _), hmade.counted⟩

theorem twice_hooks :
    twice.Built ∧ ∃ trail result c plugins, Course twiceConfig twice trail (.returned result) c ∧
      result = .ok () ∧ twice.Enlists twiceConfig plugins ∧
      c.dispatcher.calls = answered (plugins.map Plugin.name) (Hook.ofRun 2) ∧
      c.world.metrics.hookInvocations = 26 := by
  have hbuilt : twice.Built := ⟨rfl, rfl, rfl⟩
  obtain ⟨⟨result, c⟩, hgenerate⟩ := Option.isSome_iff_exists.mp
    (show (twice.generate 2 twiceConfig).isSome by decide +kernel)
  have hview : (twice.generate 2 twiceConfig).map (fun r =>
      (r.1.isOk, r.2.world.metrics.passes, r.2.world.metrics.hookInvocations)) =
        some (true, 2, 26) := by
    decide +kernel
  rw [hgenerate] at hview
  simp only [Option.map_some, Option.some.injEq, Prod.mk.injEq] at hview
  obtain ⟨hok, hpasses, hcount⟩ := hview
  obtain ⟨trail, hcourse⟩ := course_of_generate hgenerate
  cases result with
  | error failure => cases hok
  | ok _ =>
    obtain ⟨-, hcalls, -⟩ := hooks_of_run twiceConfig hbuilt hcourse
    obtain ⟨plugins, passes, henlists, -, -, rfl, hmade⟩ := hcalls rfl
    rw [hpasses] at hmade
    exact ⟨hbuilt, trail, _, c, plugins, hcourse, rfl, henlists, hmade, hcount⟩

end Coordinator

end DocPipeline
