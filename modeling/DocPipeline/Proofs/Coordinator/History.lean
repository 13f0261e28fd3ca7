import DocPipeline.Proofs.Coordinator.Moment

namespace DocPipeline

namespace Situation

variable {ε : Type} {moment next : Moment ε} {c c' : Coordinator ε}

theorem countP_concat (p : Situation ε → Bool) (trail : List (Situation ε))
    (situation : Situation ε) :
    (trail ++ [situation]).countP p = trail.countP p + (p situation).toNat := by
  rw [List.countP_append, List.countP_singleton]
  cases p situation <;> rfl

theorem exec_advance_wait (session : Session ε) (c : Coordinator ε) :
    exec (Flow.advance (.wait session)) c = exec (Flow.wait session) c :=
  Flow.exec_advance_of_stay rfl c

theorem completes_of_leads (h : exec (Flow.advance moment) c = (.ok next, c'))
    (hl : moment.Leads next) : (completes (moment, c)).toNat = next.completing := by
  cases hl with
  | complete =>
    rw [completes, Flow.isOk_tellComplete, h]
    rfl
  | _ => rfl

theorem takes_of_leads (h : exec (Flow.advance moment) c = (.ok next, c'))
    (hl : moment.Leads next) : (takes .regenerate (moment, c)).toNat = next.regenerating := by
  cases moment with
  | wait session =>
    obtain ⟨next', c'', he, _, hn⟩ := Flow.exec_wait session c
    rw [exec_advance_wait, he] at h
    cases h
    exact hn
  | _ => cases hl <;> rfl

theorem completes_of_error {failure : Failure}
    (h : exec (Flow.advance moment) c = (.error failure, c')) :
    completes (moment, c) = false := by
  cases moment with
  | complete session =>
    rw [completes, Flow.isOk_tellComplete, h]
    rfl
  | _ => rfl

theorem takes_of_error {failure : Failure}
    (h : exec (Flow.advance moment) c = (.error failure, c')) :
    takes .regenerate (moment, c) = false := by
  cases moment with
  | wait session =>
    obtain ⟨next, c'', he, _, _⟩ := Flow.exec_wait session c
    rw [exec_advance_wait, he] at h
    cases h
  | _ => rfl

end Situation

namespace Coordinator

variable {ε : Type} {std : Standard ε} {passes : Nat} {base : Database} {c : Coordinator ε}
  {word : List Stage}

theorem Within.abort (h : c.Within std (.along word) passes base)
    (hw : (Machine.along word).current ≠ .terminated) :
    c.abort.Within std (.along (word ++ [.terminated])) passes base := by
  have hp : (Machine.along word).current.mayPrecede .terminated := by
    simpa [Stage.mayPrecede] using hw
  have hm := h.machine ▸ Machine.move_along hp
  simp only [Coordinator.abort, hm]
  apply Within.release
  exact ⟨h.meets.of_plugins rfl rfl h.meets.waiting h.meets.registered, rfl,
    ⟨h.world.passes, h.world.change⟩⟩

theorem Within.abort_of_terminated (h : c.Within std (.along (word ++ [.terminated])) passes base) :
    c.abort.Within std (.along (word ++ [.terminated])) passes base := by
  have hm : c.machine.move .terminated = .error .terminated := by
    rw [h.machine, Machine.along_concat]
    rfl
  simp only [Coordinator.abort, hm]
  exact h.release

end Coordinator

-- Where a run stands: what it entered, and what was counted.
structure Standing {ε : Type} (R : Database → Database → Prop) (trail : List (Situation ε))
    (rounds : Nat) (word : List Stage) (passes : Nat) (moment : Moment ε) (c : Coordinator ε) :
    Prop where
  entered : moment.Entered rounds word
  meets : moment.Meets R
  within : c.Within (.keeping R) (.along word) passes { generation := word.count .regenerating }
  completed : trail.countP Situation.completes = passes + moment.completing
  taken : trail.countP (Situation.takes .regenerate) =
    word.count .regenerating + moment.regenerating

-- How a run has ended: in the last stage, which it entered once, after a part of a word or all of
-- it.
def Ended {ε : Type} (R : Database → Database → Prop) (trail : List (Situation ε))
    (result : Except Failure Unit) (c : Coordinator ε) : Prop :=
  ∃ rounds idles word, word ≠ [] ∧ word <+: Stage.whole rounds idles ∧
    (result = .ok () → word = Stage.whole rounds idles) ∧
    c.Within (.keeping R) (.along (word ++ [.terminated])) (trail.countP Situation.completes)
      { generation := word.count .regenerating } ∧
    trail.countP (Situation.takes .regenerate) = word.count .regenerating

namespace Standing

variable {ε : Type} {R : Database → Database → Prop} {trail : List (Situation ε)} {rounds : Nat}
  {word : List Stage} {passes : Nat} {moment : Moment ε} {c : Coordinator ε}

theorem move (h : Standing R trail rounds word passes moment c) {target : Stage}
    (ht : moment.target? = some target) :
    c.machine.move target = .ok (.along (word ++ [target])) := by
  rw [h.within.machine]
  exact h.entered.move ht

-- What a step does to the coordinator, whether it fails or not.
theorem advance_within (h : Standing R trail rounds word passes moment c) (hR : Lasting R) :
    (exec (Flow.advance moment) c).2.Within (.keeping R) (.along (word ++ moment.target?.toList))
        (passes + moment.completing)
        { generation := (word ++ moment.target?.toList).count .regenerating } ∧
      ∀ next, (exec (Flow.advance moment) c).1 = .ok next → next.Meets R := by
  rw [List.count_append, moment.count_target]
  cases ht : moment.target? with
  | none =>
    rw [Flow.exec_advance_of_stay ht, Option.toList_none, List.append_nil]
    exact Flow.proceed_within hR h.meets h.within
  | some target =>
    rw [Flow.exec_advance_of_move ht (h.move ht), Option.toList_some]
    apply Flow.proceed_within hR h.meets
    exact ⟨h.within.meets.of_plugins rfl rfl h.within.meets.waiting h.within.meets.registered, rfl,
      ⟨h.within.world.passes, h.within.world.change⟩⟩

-- Every moment that the run is led to knows the stage it comes from.
theorem leads_of_advance (h : Standing R trail rounds word passes moment c)
    (hm : moment.isReturned = false) {next : Moment ε} {c' : Coordinator ε}
    (he : exec (Flow.advance moment) c = (.ok next, c')) : moment.Leads next := by
  cases ht : moment.target? with
  | none =>
    rw [Flow.exec_advance_of_stay ht] at he
    exact (Flow.leads_of_proceed hm c trivial).2 next (by rw [he])
  | some target =>
    rw [Flow.exec_advance_of_move ht (h.move ht)] at he
    exact (Flow.leads_of_proceed hm _ trivial).2 next (by rw [he])

theorem step_ok (h : Standing R trail rounds word passes moment c) (hR : Lasting R)
    (hm : moment.isReturned = false) {next : Moment ε} {c' : Coordinator ε}
    (he : exec (Flow.advance moment) c = (.ok next, c')) :
    ∃ rounds' word' passes',
      Standing R (trail ++ [(moment, c)]) rounds' word' passes' next c' := by
  have hl := h.leads_of_advance hm he
  obtain ⟨hw, hmeets⟩ := h.advance_within hR
  rw [he] at hw hmeets
  obtain ⟨rounds', hentered⟩ := h.entered.leads hl
  refine ⟨rounds', _, _, hentered, hmeets next rfl, hw, ?_, ?_⟩
  · rw [Situation.countP_concat, h.completed, Situation.completes_of_leads he hl]
  · rw [Situation.countP_concat, h.taken, Situation.takes_of_leads he hl, List.count_append,
      moment.count_target]

theorem step_error (h : Standing R trail rounds word passes moment c) (hR : Lasting R)
    (hm : moment.isReturned = false) {failure : Failure} {c' : Coordinator ε}
    (he : exec (Flow.advance moment) c = (.error failure, c')) :
    Ended R (trail ++ [(moment, c)]) (.error failure) c'.abort := by
  have hw := (h.advance_within hR).1
  rw [he] at hw
  have hcompleted : (trail ++ [(moment, c)]).countP Situation.completes =
      passes + moment.completing := by
    rw [Situation.countP_concat, h.completed, Situation.completes_of_error he]
    rfl
  have htaken : (trail ++ [(moment, c)]).countP (Situation.takes .regenerate) =
      (word ++ moment.target?.toList).count .regenerating := by
    rw [Situation.countP_concat, h.taken, Situation.takes_of_error he, List.count_append,
      moment.count_target]
    rfl
  by_cases ht : moment.target? = some .terminated
  · -- The last hook failed, and the last stage was entered before it was called.
    obtain ⟨plan, rfl⟩ := Moment.eq_shutDown_of_target ht
    obtain ⟨idles, rfl⟩ := h.entered
    refine ⟨rounds, idles, _, Stage.whole_ne_nil rounds idles, List.prefix_rfl, nofun, ?_, ?_⟩
    · rw [hcompleted, ← Stage.count_terminated]
      exact hw.abort_of_terminated
    · rw [htaken]
      exact Stage.count_terminated _
  · obtain ⟨hne, rounds', idles, hbegins⟩ := h.entered.begins hm ht
    refine ⟨rounds', idles, _, hne, hbegins, nofun, ?_, htaken⟩
    rw [hcompleted]
    apply hw.abort
    apply Machine.current_along_ne
    exact fun hmem => Stage.terminated_not_mem_whole rounds' idles (hbegins.subset hmem)

-- What has returned after its last moment has ended.
theorem ended {result : Except Failure Unit}
    (h : Standing R trail rounds word passes (.returned result) c) : Ended R trail result c := by
  obtain ⟨idles, rfl⟩ := h.entered
  refine ⟨rounds, idles, _, Stage.whole_ne_nil rounds idles, List.prefix_rfl, fun _ => rfl, ?_, ?_⟩
  · rw [h.completed, ← Stage.count_terminated]
    exact h.within
  · rw [h.taken, Stage.count_terminated]
    rfl

theorem meddle (h : Standing R trail rounds word passes moment c) (signals : Signals) :
    Standing R trail rounds word passes moment
      { c with world := { c.world with signals } } :=
  ⟨h.entered, h.meets, Coordinator.lenient_within c _ ⟨rfl, rfl, rfl, rfl, rfl, rfl, rfl⟩ h.within,
    h.completed, h.taken⟩

end Standing

theorem Ended.meddle {ε : Type} {R : Database → Database → Prop} {trail : List (Situation ε)}
    {result : Except Failure Unit} {c : Coordinator ε} (h : Ended R trail result c)
    (signals : Signals) : Ended R trail result { c with world := { c.world with signals } } := by
  obtain ⟨rounds, idles, word, hne, hbegins, hok, hw, htaken⟩ := h
  exact ⟨rounds, idles, word, hne, hbegins, hok,
    Coordinator.lenient_within c _ ⟨rfl, rfl, rfl, rfl, rfl, rfl, rfl⟩ hw, htaken⟩

namespace Coordinator

variable {ε : Type}

-- A coordinator that has not run.
structure Fresh (c : Coordinator ε) : Prop where
  machine : c.machine = {}
  generation : c.world.store.db.generation = 0
  passes : c.world.metrics.passes = 0

-- Nobody but the run resets the store.
def ResetsNothing (c : Coordinator ε) : Prop :=
  c.Meets (.keeping fun before after => after.generation = before.generation)

end Coordinator

namespace Course

variable {ε : Type} {R : Database → Database → Prop} {raw : Json} {c₀ c : Coordinator ε}
  {trail : List (Situation ε)} {moment : Moment ε}

theorem standing_or_ended (hR : Lasting R) (hc : c₀.Within (.keeping R) {} 0 {})
    (h : Course raw c₀ trail moment c) :
    (moment.isReturned = false ∧
      ∃ rounds word passes, Standing R trail rounds word passes moment c) ∨
    ∃ result, moment = .returned result ∧ Ended R trail result c := by
  induction h with
  | begin =>
    exact .inl ⟨rfl, 0, [], 0, ⟨rfl, rfl⟩, trivial, hc, rfl, rfl⟩
  | @step trail moment c _ hm ih =>
    obtain ⟨_, rounds, word, passes, hs⟩ | ⟨result, rfl, _⟩ := ih
    · rcases he : exec (Flow.advance moment) c with ⟨failure | next, c'⟩
      · rw [Coordinator.step_of_error he]
        exact .inr ⟨_, rfl, hs.step_error hR hm he⟩
      · rw [Coordinator.step_of_ok he]
        obtain ⟨rounds', word', passes', hs'⟩ := hs.step_ok hR hm he
        cases next with
        | returned result => exact .inr ⟨result, rfl, hs'.ended⟩
        | _ => exact .inl ⟨rfl, rounds', word', passes', hs'⟩
    · cases hm
  | meddle _ signals ih =>
    obtain ⟨hm, rounds, word, passes, hs⟩ | ⟨result, rfl, he⟩ := ih
    · exact .inl ⟨hm, rounds, word, passes, hs.meddle signals⟩
    · exact .inr ⟨result, rfl, he.meddle signals⟩

theorem ended {result : Except Failure Unit} (hR : Lasting R)
    (hc : c₀.Within (.keeping R) {} 0 {}) (h : Course raw c₀ trail (.returned result) c) :
    Ended R trail result c := by
  obtain ⟨hm, _⟩ | ⟨_, hr, he⟩ := h.standing_or_ended hR hc
  · cases hm
  · cases hr
    exact he

end Course

namespace Coordinator

variable {ε : Type}

theorem lasting_any : Lasting fun _ _ => True :=
  ⟨fun _ _ => trivial, fun _ _ _ => trivial, fun _ => trivial⟩

theorem lasting_generation :
    Lasting fun before after : Database => after.generation = before.generation :=
  ⟨fun hab hbc => hbc.trans hab, fun _ _ _ => rfl, fun h => congrArg (· + 1) h⟩

-- Nothing is required where everything is allowed.
theorem meets_any (c : Coordinator ε) : c.Meets (.keeping fun _ _ => True) :=
  ⟨fun _ _ _ _ => ⟨fun _ _ => trivial, fun _ _ _ _ => trivial⟩,
    fun _ _ _ _ => ⟨fun _ _ => trivial, fun _ _ _ _ _ _ _ => trivial⟩,
    fun _ _ _ _ => ⟨fun _ _ => trivial, fun _ _ _ _ _ _ _ => trivial⟩, fun _ _ _ _ => trivial,
    fun _ _ _ _ _ _ => trivial, fun _ _ _ _ _ _ => trivial⟩

-- For all collaborators, all other users of the handles and wherever a hook or a collaborator
-- fails: no stage that the first run of a coordinator enters is refused. Once the run has
-- returned, its history is that of a number of rounds and one last pass, cut short where it
-- failed, and then of the last stage. It counts the passes that were completed, and took as many
-- signals to regenerate as it regenerated, which the generation counts if nobody else resets the
-- store.
theorem history_of_run (raw : Json) {c₀ : Coordinator ε} (hc : c₀.Fresh) :
    (∀ trail moment c, Course raw c₀ trail moment c →
      ∀ target, moment.target? = some target → ∃ machine, c.machine.move target = .ok machine) ∧
    ∀ trail result c, Course raw c₀ trail (.returned result) c →
      c.stage = .terminated ∧
      (∃ rounds idles word, word ≠ [] ∧ word <+: Stage.whole rounds idles ∧
        (result = .ok () → word = Stage.whole rounds idles) ∧
        c.machine.history = Step.path .init (word ++ [.terminated])) ∧
      c.world.metrics.passes = trail.countP Situation.completes ∧
      c.machine.history.countP (fun step => step.target = .regenerating) =
        trail.countP (Situation.takes .regenerate) ∧
      (c₀.ResetsNothing → c.world.store.db.generation =
        c.machine.history.countP fun step => step.target = .regenerating) := by
  have hany : c₀.Within (.keeping fun _ _ => True) {} 0 {} :=
    ⟨c₀.meets_any, hc.machine, ⟨hc.passes, trivial⟩⟩
  constructor
  · intro trail moment c h target ht
    obtain ⟨_, rounds, word, passes, hs⟩ | ⟨result, rfl, _⟩ := h.standing_or_ended lasting_any hany
    · exact ⟨_, hs.move ht⟩
    · cases ht
  · intro trail result c h
    obtain ⟨rounds, idles, word, hne, hbegins, hok, hw, htaken⟩ := h.ended lasting_any hany
    have hhistory : c.machine.history = Step.path .init (word ++ [.terminated]) := by
      rw [hw.machine, Machine.history_along]
    have hcount : c.machine.history.countP (fun step => step.target = .regenerating) =
        word.count .regenerating := by
      rw [hhistory, Step.countP_path, Stage.count_terminated]
    refine ⟨?_, ⟨rounds, idles, word, hne, hbegins, hok, hhistory⟩, hw.world.passes,
      hcount.trans htaken.symm, fun hresets => ?_⟩
    · rw [stage, hw.machine, Machine.along_concat]
      rfl
    · -- The same run, now seen with what it leaves of the generation.
      obtain ⟨_, _, word', _, _, _, hw', htaken'⟩ :=
        h.ended lasting_generation ⟨hresets, hc.machine, ⟨hc.passes, hc.generation⟩⟩
      rw [hw'.world.change, hcount, ← htaken, htaken']

theorem twice_resetsNothing : twice.ResetsNothing where
  runtimes name factory h options := by
    cases Dict.eq_of_get?_singleton h
    exact ⟨fun _ _ => rfl, by rintro world _ ⟨⟩ db; rfl⟩
  publishers name factory h options := by
    cases Dict.eq_of_get?_singleton h
    exact ⟨fun _ _ => rfl, by rintro world _ ⟨⟩ plan package state world'; rfl⟩
  plugins name factory h := nomatch h
  hydrator := fileHydrator_changes fun _ => rfl
  waiting plugin hp h occasion payload world := by
    cases List.mem_singleton.mp hp
    rw [twicePlugin_store]
  registered plugin hp := nomatch hp

theorem twice_history :
    twice.Fresh ∧ twice.ResetsNothing ∧
      ∃ trail result c, Course twiceConfig twice trail (.returned result) c ∧
        c.stage = .terminated ∧ trail.countP Situation.completes = 2 ∧
        trail.countP (Situation.takes .regenerate) = 1 ∧ c.world.store.db.generation = 1 := by
  have hfresh : twice.Fresh := ⟨rfl, rfl, rfl⟩
  obtain ⟨⟨result, c⟩, hgenerate⟩ := Option.isSome_iff_exists.mp
    (show (twice.generate 2 twiceConfig).isSome by decide +kernel)
  have hpasses :
      (twice.generate 2 twiceConfig).map (fun r => r.2.world.metrics.passes) = some 2 := by
    decide +kernel
  have hgeneration :
      (twice.generate 2 twiceConfig).map (fun r => r.2.world.store.db.generation) = some 1 := by
    decide +kernel
  rw [hgenerate, Option.map_some, Option.some.injEq] at hpasses hgeneration
  obtain ⟨trail, hcourse⟩ := course_of_generate hgenerate
  obtain ⟨hstage, _, hcompleted, htaken, hcounted⟩ :=
    (history_of_run twiceConfig hfresh).2 trail result c hcourse
  refine ⟨hfresh, twice_resetsNothing, trail, result, c, hcourse, hstage, ?_, ?_, hgeneration⟩
  · rw [← hcompleted, hpasses]
  · rw [← htaken, ← hcounted twice_resetsNothing, hgeneration]

end Coordinator

end DocPipeline
