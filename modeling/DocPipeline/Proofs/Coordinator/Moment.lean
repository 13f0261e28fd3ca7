import DocPipeline.Proofs.Coordinator.Course
import DocPipeline.Proofs.Coordinator.Upkeep
import DocPipeline.Proofs.Lifecycle.Words

namespace DocPipeline

namespace Moment

variable {ε : Type}

-- Which moment may come after which.
inductive Leads : Moment ε → Moment ε → Prop where
  | configure {raw session} : Leads (configure raw) (discover session)
  | discover {session first} : Leads (discover session) (start first)
  | start {session begun candidates} : Leads (start session) (parse begun candidates)
  | parse {session candidates parsed} : Leads (parse session candidates) (edit parsed)
  | edit {session} : Leads (edit session) (resolve session)
  | resolve {session} : Leads (resolve session) (prepare session)
  | prepare {session} : Leads (prepare session) (publish session)
  | publish {session published} : Leads (publish session) (complete published)
  | complete {session keepAlive} : Leads (complete session) (completed session keepAlive)
  | stay {session} : Leads (completed session true) (idle session)
  | leave {session} : Leads (completed session false) (shutDown session.plan)
  | idle {session} : Leads (idle session) (wait session)
  | wait {session} : Leads (wait session) (wait session)
  | receive {session signal} : Leads (wait session) (signalled session signal)
  | abandon {session} : Leads (wait session) (shutDown session.plan)
  | regenerate {session again} : Leads (signalled session .regenerate) (start again)
  | stop {session} : Leads (signalled session .shutdown) (shutDown session.plan)
  | shutDown {plan} : Leads (shutDown plan) (returned (.ok ()))

-- The word that was entered before a moment, in a run that was asked for so many passes more.
def Entered (rounds : Nat) (word : List Stage) : Moment ε → Prop
  | configure _ => rounds = 0 ∧ word = []
  | discover _ => rounds = 0 ∧ word = [.configuring]
  | start _ => word = Stage.begun rounds
  | parse _ _ | edit _ | resolve _ => word = Stage.begun rounds ++ [.generating]
  | prepare _ => word = Stage.begun rounds ++ [.generating, .resolving]
  | publish _ | complete _ => word = Stage.begun rounds ++ [.generating, .resolving, .publishing]
  | completed _ _ | idle _ =>
    word = Stage.begun rounds ++ [.generating, .resolving, .publishing, .completing]
  | wait _ | signalled _ _ =>
    word = Stage.begun rounds ++ [.generating, .resolving, .publishing, .completing, .idle]
  | shutDown _ => ∃ idles, word = Stage.whole rounds idles
  | returned _ => ∃ idles, word = Stage.whole rounds idles ++ [.terminated]

def Meets (R : Database → Database → Prop) : Moment ε → Prop
  | discover session | start session | parse session _ | edit session | resolve session
  | prepare session | publish session | complete session | completed session _ | idle session
  | wait session | signalled session _ => session.Meets (.keeping R)
  | _ => True

-- How many passes are complete and not yet counted.
def completing : Moment ε → Nat
  | completed _ _ => 1
  | _ => 0

-- How many signals to regenerate were taken and not yet followed.
def regenerating : Moment ε → Nat
  | signalled _ .regenerate => 1
  | _ => 0

theorem count_target (moment : Moment ε) :
    moment.target?.toList.count .regenerating = moment.regenerating := by
  cases moment with
  | signalled session signal => cases signal <;> rfl
  | _ => rfl

theorem eq_shutDown_of_target {moment : Moment ε} (h : moment.target? = some .terminated) :
    ∃ plan, moment = shutDown plan := by
  cases moment with
  | shutDown plan => exact ⟨plan, rfl⟩
  | signalled session signal => cases signal <;> cases h
  | _ => cases h

-- No stage is ever refused.
theorem Entered.move {rounds : Nat} {word : List Stage} {moment : Moment ε} {target : Stage}
    (h : moment.Entered rounds word) (ht : moment.target? = some target) :
    (Machine.along word).move target = .ok (.along (word ++ [target])) := by
  apply Machine.move_along
  cases moment <;> simp only [target?, reduceCtorEq, Option.some.injEq] at ht
  case configure => obtain ⟨_, rfl⟩ := h; subst ht; rfl
  case discover => obtain ⟨_, rfl⟩ := h; subst ht; rfl
  case start => obtain rfl := h; subst ht; exact Machine.current_begun rounds
  case signalled session signal =>
    obtain rfl := h
    cases signal <;> simp only [reduceCtorEq, Option.some.injEq] at ht
    subst ht
    rw [Machine.along_append]
    rfl
  case shutDown =>
    obtain ⟨idles, rfl⟩ := h
    subst ht
    cases idles <;> rw [Stage.whole, List.append_assoc, Machine.along_append] <;> rfl
  all_goals
    obtain rfl := h
    subst ht
    rw [Machine.along_append]
    rfl

theorem Entered.leads {rounds : Nat} {word : List Stage} {moment next : Moment ε}
    (h : moment.Entered rounds word) (hl : moment.Leads next) :
    ∃ rounds', next.Entered rounds' (word ++ moment.target?.toList) := by
  cases hl with
  | configure => obtain ⟨_, rfl⟩ := h; exact ⟨0, rfl, rfl⟩
  | discover => obtain ⟨_, rfl⟩ := h; exact ⟨0, rfl⟩
  | leave => obtain rfl := h; exact ⟨rounds, false, by simp [Stage.whole, target?]⟩
  | abandon => obtain rfl := h; exact ⟨rounds, true, by simp [Stage.whole, target?]⟩
  | stop => obtain rfl := h; exact ⟨rounds, true, by simp [Stage.whole, target?]⟩
  | regenerate =>
    obtain rfl := h
    exact ⟨rounds + 1, by simp [Stage.begun_succ, Stage.round, target?, Entered]⟩
  | shutDown => obtain ⟨idles, rfl⟩ := h; exact ⟨rounds, idles, rfl⟩
  | _ => obtain rfl := h; exact ⟨rounds, by simp [target?, Entered]⟩

-- Where a run fails, it has entered a part of the word of a run that does not fail.
theorem Entered.begins {rounds : Nat} {word : List Stage} {moment : Moment ε}
    (h : moment.Entered rounds word) (hr : moment.isReturned = false)
    (ht : moment.target? ≠ some .terminated) :
    word ++ moment.target?.toList ≠ [] ∧
      ∃ rounds' idles, word ++ moment.target?.toList <+: Stage.whole rounds' idles := by
  suffices h' : ∃ rounds' rest, word ++ moment.target?.toList = Stage.begun rounds' ++ rest ∧
      rest <+: [.generating, .resolving, .publishing, .completing, .idle] ∨
      word ++ moment.target?.toList = [.configuring] by
    obtain ⟨rounds', rest, ⟨hw, hrest⟩ | hw⟩ := h'
    · rw [hw]
      exact ⟨Stage.begun_ne_nil _ _, rounds', true, Stage.begun_append_begins rounds' hrest⟩
    · rw [hw]
      exact ⟨by simp, 0, true, ⟨_, rfl⟩⟩
  cases moment with
  | configure => obtain ⟨_, rfl⟩ := h; exact ⟨0, [], .inr rfl⟩
  | discover => obtain ⟨_, rfl⟩ := h; exact ⟨0, [], .inl ⟨rfl, List.nil_prefix⟩⟩
  | shutDown => exact absurd rfl ht
  | returned => cases hr
  | signalled session signal =>
    obtain rfl := h
    cases signal with
    | regenerate =>
      refine ⟨rounds + 1, [], .inl ⟨?_, List.nil_prefix⟩⟩
      simp [Stage.begun_succ, Stage.round, target?]
    | shutdown => exact ⟨rounds, _, .inl ⟨List.append_assoc _ _ _, ⟨_, rfl⟩⟩⟩
  | _ => obtain rfl := h; exact ⟨rounds, _, .inl ⟨List.append_assoc _ _ _, ⟨_, rfl⟩⟩⟩

end Moment

namespace Flow

variable {ε : Type}

-- What is done until the plugins were told that the pass is complete.
def tellComplete (session : Session ε) : Flow ε Bool := do
  enter .completing
  let handle ← mintHandle
  dispatch (.complete session.plan handle session.reparser) false

-- Only plugins make the step fail that tells them.
theorem isOk_tellComplete (session : Session ε) (c : Coordinator ε) :
    (exec (tellComplete session) c).1.isOk = (exec (advance (.complete session)) c).1.isOk := by
  have ha : advance (.complete session) = enter .completing >>= fun _ => complete session >>=
    fun keepAlive => pure (.completed session keepAlive) := rfl
  rw [ha, tellComplete]
  rcases he : exec (enter .completing) c with ⟨failure | _, c₁⟩
  · rw [exec_bind_of_error he, exec_bind_of_error he]
    rfl
  · rw [exec_bind_of_ok he, exec_bind_of_ok he]
    rcases hm : exec mintHandle c₁ with ⟨failure | handle, c₂⟩
    · cases hm
    · rw [complete, exec_bind_of_ok hm, exec_bind, exec_bind_of_ok hm, exec_bind, exec_tryCatch]
      rcases hd : exec (dispatch (.complete session.plan handle session.reparser) false) c₂ with
        ⟨failure | keepAlive, c₃⟩ <;> rfl

end Flow

namespace Situation

variable {ε : Type}

-- The pass is complete and no plugin failed when told so.
def completes : Situation ε → Bool
  | (.complete session, c) => (exec (Flow.tellComplete session) c).1.isOk
  | _ => false

-- A signal is taken from the channel.
def takes (signal : Signal) : Situation ε → Bool
  | (.wait _, c) => c.world.signals.wait.2 = .signal signal
  | _ => false

end Situation

namespace Flow

variable {ε : Type} {R : Database → Database → Prop}

-- A wait does not fail, and is followed by the signal that was taken.
theorem exec_wait (session : Session ε) (c : Coordinator ε) :
    ∃ next c', exec (wait session) c = (.ok next, c') ∧ (Moment.wait session).Leads next ∧
      (Situation.takes .regenerate (.wait session, c)).toNat = next.regenerating := by
  have ht : Situation.takes .regenerate (.wait session, c) =
    decide (c.world.signals.wait.2 = .signal .regenerate) := rfl
  rw [ht, wait, waitForSignal, exec_bind, exec_modifyGet]
  rcases c.world.signals.wait with ⟨signals, signal | _ | _⟩
  · refine ⟨.signalled session signal, _, rfl, .receive, ?_⟩
    cases signal <;> rfl
  · exact ⟨.shutDown session.plan, _, rfl, .abandon, rfl⟩
  · exact ⟨.wait session, _, rfl, .wait, rfl⟩

theorem leads_of_proceed {moment : Moment ε} (hm : moment.isReturned = false) :
    Keeps (fun _ => True) (proceed moment) moment.Leads := by
  cases moment with
  | configure raw => exact keeps_bind (keeps_trivial _) fun _ _ => keeps_pure .configure
  | discover session => exact keeps_bind (keeps_trivial _) fun _ _ => keeps_pure .discover
  | start session => exact keeps_bind (keeps_trivial _) fun _ _ => keeps_pure .start
  | parse session candidates => exact keeps_bind (keeps_trivial _) fun _ _ => keeps_pure .parse
  | edit session => exact keeps_bind (keeps_trivial _) fun _ _ => keeps_pure .edit
  | resolve session => exact keeps_bind (keeps_trivial _) fun _ _ => keeps_pure .resolve
  | prepare session => exact keeps_bind (keeps_trivial _) fun _ _ => keeps_pure .prepare
  | publish session => exact keeps_bind (keeps_trivial _) fun _ _ => keeps_pure .publish
  | complete session => exact keeps_bind (keeps_trivial _) fun _ _ => keeps_pure .complete
  | completed session keepAlive =>
    apply keeps_bind (keeps_trivial _)
    intro _ _
    cases keepAlive with
    | true => exact keeps_pure .stay
    | false => exact keeps_pure .leave
  | idle session => exact keeps_bind (keeps_trivial _) fun _ _ => keeps_pure .idle
  | wait session =>
    intro c _
    obtain ⟨next, c', he, hl, _⟩ := exec_wait session c
    change _ ∧ ∀ next, (exec (wait session) c).1 = .ok next → _
    rw [he]
    exact ⟨trivial, fun _ h => by cases h; exact hl⟩
  | signalled session signal =>
    cases signal with
    | regenerate => exact keeps_bind (keeps_trivial _) fun _ _ => keeps_pure .regenerate
    | shutdown => exact keeps_bind (keeps_trivial _) fun _ _ => keeps_pure .stop
  | shutDown plan => exact keeps_bind (keeps_trivial _) fun _ _ => keeps_pure .shutDown
  | returned => cases hm

variable {machine : Machine} {passes generation : Nat}

theorem regenerate_within (hR : Lasting R) {session : Session ε}
    (hm : session.Meets (.keeping R)) {c : Coordinator ε}
    (hc : c.Within (.keeping R) machine passes { generation }) :
    (exec (regenerate session) c).2.Within (.keeping R) machine passes
        { generation := generation + 1 } ∧
      ∀ again, (exec (regenerate session) c).1 = .ok again → again.Meets (.keeping R) := by
  have hreset : exec (editStore .reset) c =
    (.ok (), { c with world := { c.world with store := c.world.store.reset.1 } }) := rfl
  rw [regenerate, exec_bind_of_ok hreset]
  have hrest : Keeps
      (Coordinator.Within (.keeping R) machine passes { generation := generation + 1 })
      (do
        note .info ("regenerating (generation " ++
          toString (← get).world.store.db.generation ++ ")")
        let state : RunState ← dispatch (.regenerate session.plan session.reparser)
          { session.state with menuLinks := [] }
        return { session with state } : Flow ε (Session ε))
      fun again => again.Meets (.keeping R) := by
    apply keeps_bind keeps_get
    intro _ _
    apply keeps_bind (keeps_note Coordinator.lenient_within _ _)
    intro _ _
    exact keeps_bind
      (keeps_dispatch (Standard.keeping_fair hR) (Standard.keeping_governs hR .regenerate) _ _)
      fun _ _ => keeps_pure hm
  have hchange : R { generation := generation + 1 } c.world.store.db.reset :=
    hR.reset hc.world.change
  exact hrest _ (hc.of_world rfl rfl rfl rfl rfl ⟨hc.world.passes, hchange⟩)

theorem keeps_wait {session : Session ε} (hm : session.Meets (.keeping R)) {base : Database} :
    Keeps (Coordinator.Within (.keeping R) machine passes base) (wait session)
      (Moment.Meets R) := by
  apply keeps_bind (Q := fun _ => True)
  · exact keeps_modifyGet fun c hc =>
      ⟨Coordinator.lenient_within c _ ⟨rfl, rfl, rfl, rfl, rfl, rfl, rfl⟩ hc, trivial⟩
  · intro answer _
    cases answer with
    | signal signal => exact keeps_pure hm
    | noHandles =>
      exact keeps_bind (keeps_note Coordinator.lenient_within _ _) fun _ _ => keeps_pure trivial
    | pending => exact keeps_pure hm

theorem keeps_proceed (hR : Lasting R) {moment : Moment ε} (hm : moment.Meets R)
    (hc : moment.completing = 0) (hr : moment.regenerating = 0) {base : Database} :
    Keeps (Coordinator.Within (.keeping R) machine passes base) (proceed moment)
      (Moment.Meets R) := by
  have hs : (Standard.keeping R : Standard ε).Fair := Standard.keeping_fair hR
  cases moment with
  | configure raw =>
    exact keeps_bind (keeps_configure hs (Standard.keeping_governs hR .handleConfig) raw)
      fun _ h => keeps_pure h.1
  | discover session =>
    apply keeps_bind (keeps_discoverFirst hs session)
    rintro _ ⟨_, ⟨state, _, he⟩, rfl⟩
    cases he
    exact keeps_pure hm
  | start session => exact keeps_bind (keeps_beginPass hR hm) fun _ h => keeps_pure h
  | parse session candidates =>
    exact keeps_bind (keeps_parse hR hm candidates) fun _ h => keeps_pure h
  | edit session =>
    exact keeps_bind (keeps_editRecords hR session.plan) fun _ _ => keeps_pure hm
  | resolve session => exact keeps_bind (keeps_resolve hR hm) fun _ _ => keeps_pure hm
  | prepare session =>
    exact keeps_bind (keeps_preparePublishing Coordinator.lenient_within session.plan)
      fun _ _ => keeps_pure hm
  | publish session => exact keeps_bind (keeps_publish hR hm) fun _ h => keeps_pure h
  | complete session => exact keeps_bind (keeps_complete hR session) fun _ _ => keeps_pure hm
  | completed => cases hc
  | idle session =>
    exact keeps_bind (keeps_note Coordinator.lenient_within _ _) fun _ _ => keeps_pure hm
  | wait session => exact keeps_wait hm
  | signalled session signal =>
    cases signal with
    | regenerate => cases hr
    | shutdown =>
      exact keeps_bind (keeps_note Coordinator.lenient_within _ _) fun _ _ => keeps_pure trivial
  | shutDown plan => exact keeps_bind (keeps_shutDown hR plan) fun _ _ => keeps_pure trivial
  | returned result => exact keeps_pure trivial

-- The passes and the generation change only where a pass is counted and where another is begun.
theorem proceed_within (hR : Lasting R) {moment : Moment ε} (hm : moment.Meets R)
    {c : Coordinator ε} (hc : c.Within (.keeping R) machine passes { generation }) :
    (exec (proceed moment) c).2.Within (.keeping R) machine (passes + moment.completing)
        { generation := generation + moment.regenerating } ∧
      ∀ next, (exec (proceed moment) c).1 = .ok next → next.Meets R := by
  cases moment with
  | completed session keepAlive =>
    refine ⟨hc.of_world rfl rfl rfl rfl rfl ⟨?_, hc.world.change⟩, fun next h => ?_⟩
    · exact congrArg (· + 1) hc.world.passes
    · cases keepAlive <;> cases h
      · trivial
      · exact hm
  | signalled session signal =>
    cases signal with
    | regenerate =>
      obtain ⟨hw, hq⟩ := regenerate_within hR hm hc
      have hp : proceed (.signalled session .regenerate) =
        regenerate session >>= fun again => pure (.start again) := rfl
      rcases he : exec (regenerate session) c with ⟨failure | again, c'⟩ <;> rw [he] at hw hq
      · rw [hp, exec_bind_of_error he]
        exact ⟨hw, fun next h => nomatch h⟩
      · rw [hp, exec_bind_of_ok he]
        exact ⟨hw, fun next h => by cases h; exact hq again rfl⟩
    | shutdown => exact keeps_proceed hR hm rfl rfl c hc
  | _ => exact keeps_proceed hR hm rfl rfl c hc

end Flow

end DocPipeline
