import DocPipeline.Proofs.Coordinator.Blueprint

namespace DocPipeline

variable {ε β : Type}

-- How many passes were begun.
def passesBegun (trail : List (Situation ε)) : Nat :=
  trail.countP fun situation => situation.1.isStart

-- Whenever files were parsed, the tree showed the same part.
def Unchanged (part : Tree → β) (tree : Tree) (trail : List (Situation ε)) : Prop :=
  ∀ session candidates c, (Moment.parse session candidates, c) ∈ trail →
    part c.world.tree = part tree

theorem passesBegun_concat (trail : List (Situation ε)) (situation : Situation ε) :
    passesBegun (trail ++ [situation]) = passesBegun trail + situation.1.isStart.toNat := by
  rw [passesBegun, List.countP_append, List.countP_singleton]
  cases situation.1.isStart <;> rfl

-- Before the first pass a run loads its collaborators, which leave the store alone, and looks for
-- files.
def Moment.Early (part : Tree → β) : Moment ε → Coordinator ε → Prop
  | configure _, c => ∃ machine passes, c.Within (.repeatable part) machine passes {}
  | discover session, c =>
    (∃ machine passes, c.Within (.repeatable part) machine passes {}) ∧
      session.Meets (.repeatable part) ∧ session.state.menuLinks = []
  | returned _, _ => True
  | _, _ => False

theorem Moment.Early.meddle {part : Tree → β} {moment : Moment ε} {c : Coordinator ε}
    (h : moment.Early part c) (signals : Signals) :
    moment.Early part { c with world := { c.world with signals } } := by
  have hw : ∀ machine passes, c.Within (.repeatable part) machine passes {} →
      Coordinator.Within (.repeatable part) machine passes {}
        { c with world := { c.world with signals } } := fun _ _ hw =>
    Coordinator.lenient_within _ _ (.meddle c signals) hw
  cases moment with
  | configure raw =>
    obtain ⟨machine, passes, hc⟩ := h
    exact ⟨machine, passes, hw _ _ hc⟩
  | discover session =>
    obtain ⟨⟨machine, passes, hc⟩, hsession⟩ := h
    exact ⟨⟨machine, passes, hw _ _ hc⟩, hsession⟩
  | returned => trivial
  | _ => exact absurd h id

namespace Blueprint

-- Whenever the publisher was called, it was called with what the blueprint says.
def Covers (B : Blueprint ε) (trail : List (Situation ε)) : Prop :=
  ∀ before session c after, trail = before ++ (.publish session, c) :: after →
    session = B.passed ∧
      ∃ generation, passesBegun before = generation + 1 ∧
        c.world.store.db = B.resolved.at generation

theorem exists_edits {plugins : List (Plugin ε)}
    (h : ∀ plugin ∈ plugins, ∃ edits, plugin.EditsBy edits) :
    ∃ edits, List.Forall₂ Plugin.EditsBy plugins edits := by
  induction plugins with
  | nil => exact ⟨[], .nil⟩
  | cons plugin plugins ih =>
    obtain ⟨⟨e, he⟩, hrest⟩ := List.forall_mem_cons.mp h
    obtain ⟨edits, hedits⟩ := ih hrest
    exact ⟨e :: edits, .cons he hedits⟩

-- What was configured and found fixes the blueprint, with which the first pass begins.
theorem exists_of_discovered {part : Tree → β} (tree : Tree) {session : Session ε}
    {state : RunState} {c : Coordinator ε} {machine : Machine} {passes : Nat}
    (hm : session.Meets (.repeatable part)) (hl : session.state.menuLinks = [])
    (hf : session.state.Fills session.plan state)
    (hw : c.Within (.repeatable part) machine passes {}) :
    ∃ B : Blueprint ε, B.Sound part ∧ B.tree = tree ∧ B.Serves c ∧
      B.Stands 0
        (.start { session with state, found := some ({ session with state } : Session ε).chosen })
        c := by
  obtain ⟨⟨hsees, complete, hcompletes⟩, hpublisher⟩ := hm
  obtain ⟨edits, hedits⟩ := exists_edits hw.meets.registered
  refine ⟨⟨{ session with state := { state with invalidCode := [] }, found := none }, edits,
    complete, tree⟩, ⟨rfl, hf.menuLinks.trans hl, hf.listed, hsees, hcompletes, hpublisher⟩, rfl,
    hedits, ⟨state.invalidCode, _, rfl, ?_⟩, hw.world.change⟩
  rintro candidates ⟨⟩
  rfl

theorem Covers.of_not_mem {B : Blueprint ε} {trail : List (Situation ε)}
    (h : ∀ session c, (Moment.publish session, c) ∉ trail) : B.Covers trail := by
  rintro before session c after rfl
  exact absurd (by simp) (h session c)

theorem Covers.concat {B : Blueprint ε} {trail : List (Situation ε)} (h : B.Covers trail)
    {moment : Moment ε} {c : Coordinator ε} {generation : Nat}
    (hm : moment.isEnding ∨ B.Stands generation moment c)
    (hg : passesBegun trail = generation + moment.underWay) :
    B.Covers (trail ++ [(moment, c)]) := by
  intro before session c' after he
  rcases List.eq_nil_or_concat after with rfl | ⟨after, last, rfl⟩
  · obtain ⟨rfl, hlast⟩ := List.append_inj' he rfl
    cases hlast
    obtain hm | ⟨rfl, hdb⟩ := hm
    · cases hm
    · exact ⟨rfl, generation, hg, hdb⟩
  · rw [List.concat_eq_append, ← List.cons_append, ← List.append_assoc] at he
    exact h before session c' after (List.append_inj' he rfl).1

end Blueprint

namespace Course

variable {part : Tree → β} {raw : Json} {c₀ c : Coordinator ε} {trail : List (Situation ε)}
  {moment : Moment ε}

-- What is known of a run at any moment: either no pass was begun, or there is a blueprint that all
-- passes follow.
def Known (part : Tree → β) (tree : Tree) (trail : List (Situation ε)) (moment : Moment ε)
    (c : Coordinator ε) : Prop :=
  ((∀ session c', (Moment.publish session, c') ∉ trail) ∧ passesBegun trail = 0 ∧
    moment.Early part c) ∨
  ∃ B : Blueprint ε, B.Sound part ∧ B.tree = tree ∧ B.Covers trail ∧ ∃ generation,
    (moment.isEnding ∨ B.Serves c ∧ B.Stands generation moment c) ∧
    passesBegun trail = generation + moment.underWay

theorem known_of_early {tree : Tree} (hm : moment.isReturned = false)
    (hp : ∀ session c', (Moment.publish session, c') ∉ trail) (hb : passesBegun trail = 0)
    (he : moment.Early part c) :
    Known part tree (trail ++ [(moment, c)]) (c.step moment).1 (c.step moment).2 := by
  have hs : (Standard.repeatable part : Standard ε).Fair := Standard.repeatable_fair part
  have hp' : ∀ session c', (Moment.publish session, c') ∉ trail ++ [(moment, c)] := by
    intro session c' hmem
    rcases List.mem_append.mp hmem with hmem | hmem
    · exact hp session c' hmem
    · obtain ⟨rfl, rfl⟩ := Prod.mk.inj (List.mem_singleton.mp hmem)
      exact he
  have hb' : passesBegun (trail ++ [(moment, c)]) = 0 := by
    rw [passesBegun_concat, hb]
    cases moment <;> first | rfl | exact absurd he id
  rcases ha : exec (Flow.advance moment) c with ⟨failure | next, c'⟩
  · rw [Coordinator.step_of_error ha]
    exact .inl ⟨hp', hb', trivial⟩
  · rw [Coordinator.step_of_ok ha]
    obtain ⟨machine, log, hproceed⟩ := Flow.advance_ok ha
    cases moment with
    | configure raw =>
      obtain ⟨_, passes, hw⟩ := he
      obtain ⟨session, c₁, hconfigure, hnext⟩ := exec_bind_eq_ok hproceed
      cases hnext
      obtain ⟨hw₁, hsession⟩ := (Flow.keeps_configure hs (Standard.repeatable_governs part)
        raw).of_ok (hw.after machine log) hconfigure
      exact .inl ⟨hp', hb', ⟨⟨machine, passes, hw₁⟩, hsession⟩⟩
    | discover session =>
      obtain ⟨⟨_, passes, hw⟩, hmeets, hlinks⟩ := he
      obtain ⟨first, c₁, hdiscover, hnext⟩ := exec_bind_eq_ok hproceed
      cases hnext
      obtain ⟨hw₁, _, ⟨state, hfills, he⟩, rfl⟩ :=
        (Flow.keeps_discoverFirst hs session).of_ok (hw.after machine log) hdiscover
      cases he
      obtain ⟨B, hB, htree, hserves, hstands⟩ :=
        Blueprint.exists_of_discovered tree hmeets hlinks hfills hw₁
      exact .inr ⟨B, hB, htree, .of_not_mem hp', 0, .inr ⟨hserves, hstands⟩, hb'⟩
    | returned => cases hm
    | _ => exact absurd he id

theorem known (hc : ∃ machine passes, c₀.Within (.repeatable part) machine passes {})
    (h : Course raw c₀ trail moment c) (ht : Unchanged part c₀.world.tree trail) :
    Known part c₀.world.tree trail moment c := by
  induction h with
  | begin =>
    exact .inl ⟨fun _ _ => List.not_mem_nil, rfl, hc⟩
  | @step trail moment c _ hm ih =>
    obtain ⟨hp, hb, he⟩ | ⟨B, hB, htree, hcovers, generation, hs, hg⟩ :=
      ih fun session candidates c' hmem => ht session candidates c' (List.mem_append_left _ hmem)
    · exact known_of_early hm hp hb he
    · refine .inr ⟨B, hB, htree, hcovers.concat (hs.imp_right And.right) hg, ?_⟩
      have hb : passesBegun (trail ++ [(moment, c)]) =
          generation + moment.underWay + moment.isStart.toNat := by
        rw [passesBegun_concat, hg]
      rcases ha : exec (Flow.advance moment) c with ⟨failure | next, c'⟩
      · rw [Coordinator.step_of_error ha, hb]
        exact ⟨generation, .inl rfl, by rw [Nat.add_assoc, moment.underWay_add_isStart]; rfl⟩
      · rw [Coordinator.step_of_ok ha, hb]
        obtain ⟨machine, log, hproceed⟩ := Flow.advance_ok ha
        obtain hending | ⟨hserves, hstands⟩ := hs
        · obtain ⟨plan, rfl⟩ : ∃ plan, moment = .shutDown plan := by
            cases moment with
            | shutDown plan => exact ⟨plan, rfl⟩
            | returned => cases hm
            | _ => cases hending
          obtain ⟨_, c₁, _, hnext⟩ := exec_bind_eq_ok hproceed
          cases hnext
          exact ⟨generation, .inl rfl, rfl⟩
        · have hparse : ∀ session candidates, moment = .parse session candidates →
              part c.world.tree = part B.tree := by
            rintro session candidates rfl
            rw [htree]
            exact ht session candidates c (by simp)
          obtain ⟨generation', hnext, hg'⟩ :=
            Blueprint.proceed_repeats hB (c := { c with machine, world := { c.world with log } })
              hserves (hstands.of_db rfl) hparse hproceed
          exact ⟨generation', hnext, hg'.symm⟩
  | @meddle trail moment c _ signals ih =>
    obtain ⟨hp, hb, he⟩ | ⟨B, hB, htree, hcovers, generation, hs, hg⟩ := ih ht
    · exact .inl ⟨hp, hb, he.meddle signals⟩
    · exact .inr ⟨B, hB, htree, hcovers, generation,
        hs.imp_right fun ⟨hserves, hstands⟩ => ⟨hserves, hstands.of_db rfl⟩, hg⟩

end Course

namespace Coordinator

-- For all configurations, all other users of the handles, and all collaborators whose work on a
-- pass depends on nothing but what they are lent: whenever a run calls the publisher, the store
-- holds the same records, syntax trees and index as at any other call, and the run state the same
-- links, skipped code and lists of files. So every pass reproduces the first, and no pass leaves
-- anything behind but its generation.
theorem passes_reproduced (part : Tree → β) (raw : Json) {c₀ : Coordinator ε}
    (hdb : c₀.world.store.db = {}) (hm : c₀.Meets (.repeatable part))
    {trail : List (Situation ε)} {moment : Moment ε} {c : Coordinator ε}
    (h : Course raw c₀ trail moment c) (ht : Unchanged part c₀.world.tree trail)
    {before₁ after₁ before after : List (Situation ε)} {session₁ session : Session ε}
    {c₁ c₂ : Coordinator ε} (h₁ : trail = before₁ ++ (.publish session₁, c₁) :: after₁)
    (h₂ : trail = before ++ (.publish session, c₂) :: after) :
    c₂.world.store.db.records = c₁.world.store.db.records ∧
      c₂.world.store.db.asts = c₁.world.store.db.asts ∧
      c₂.world.store.db.index = c₁.world.store.db.index ∧
      session.state = session₁.state ∧
      c₂.world.store.db.generation + 1 = passesBegun before := by
  have hw : ∃ machine passes, c₀.Within (.repeatable part) machine passes {} :=
    ⟨c₀.machine, c₀.world.metrics.passes, hm, rfl, rfl, hdb⟩
  obtain ⟨hp, _⟩ | ⟨B, _, _, hcovers, _⟩ := h.known hw ht
  · exact absurd (by simp [h₁]) (hp session₁ c₁)
  · obtain ⟨rfl, _, _, hdb₁⟩ := hcovers _ _ _ _ h₁
    obtain ⟨rfl, generation, hbegun, hdb₂⟩ := hcovers _ _ _ _ h₂
    rw [hdb₁, hdb₂]
    exact ⟨rfl, rfl, rfl, rfl, hbegun.symm⟩

theorem twicePlugin_editsBy : twicePlugin.EditsBy fun _ =>
    { fragments := (· ++ [⟨"globals", "x"⟩]), records := List.reverse } where
  store occasion payload world _ := by rw [twicePlugin_store]
  start _ _ _ _ _ := rfl
  handleVirtual _ _ _ _ := rfl
  handleDocData _ _ _ _ := rfl
  handleDocDb _ _ _ := rfl
  regenerate _ _ _ _ _ := rfl

theorem twice_repeatable : twice.Meets (.repeatable id) where
  runtimes name factory h options := by
    cases Dict.eq_of_get?_singleton h
    refine ⟨fun _ _ => rfl, ?_⟩
    rintro world _ ⟨⟩
    refine ⟨⟨?_, ?_⟩, fun contents => (contents.at 0).reindex.contents, fun _ _ => rfl⟩
    · rintro t _ rfl _ _ _
      rfl
    · intro _ _ _ _ _ _
      rfl
  publishers name factory h options := by
    cases Dict.eq_of_get?_singleton h
    refine ⟨fun _ _ => rfl, ?_⟩
    rintro world _ ⟨⟩ plan package state world' _
    exact ⟨⟨_, rfl⟩, rfl⟩
  plugins name factory h := nomatch h
  hydrator := fileHydrator_changes fun _ => rfl
  waiting plugin hp := by
    cases List.mem_singleton.mp hp
    exact ⟨_, twicePlugin_editsBy⟩
  registered plugin hp := nomatch hp

theorem split_of_getElem? {α : Type} {items : List α} {n : Nat} {item : α}
    (h : items[n]? = some item) : items = items.take n ++ item :: items.drop (n + 1) := by
  obtain ⟨hn, rfl⟩ := List.getElem?_eq_some_iff.mp h
  rw [← List.drop_eq_getElem_cons hn, List.take_append_drop]

theorem exists_publish {trail : List (Situation ε)} {n : Nat}
    (h : trail[n]?.map (fun situation => situation.1.isPublish) = some true) :
    ∃ session c, trail[n]? = some (.publish session, c) := by
  obtain ⟨⟨moment, c⟩, hn, hp⟩ := Option.map_eq_some_iff.mp h
  cases moment with
  | publish session => exact ⟨session, c, hn⟩
  | _ => cases hp

theorem twice_passes_reproduced :
    twice.Meets (.repeatable id) ∧
      Unchanged id twice.world.tree (twice.ahead 24 (.configure twiceConfig)) ∧
      ∃ before₁ session₁ c₁ after₁ before session c₂ after,
        twice.ahead 24 (.configure twiceConfig) = before₁ ++ (.publish session₁, c₁) :: after₁ ∧
        twice.ahead 24 (.configure twiceConfig) = before ++ (.publish session, c₂) :: after ∧
        passesBegun before₁ = 1 ∧ passesBegun before = 2 ∧
        c₁.world.store.db.records.map Record.label = ["global:!", "missing:", "file:"] ∧
        c₂.world.store.db.records = c₁.world.store.db.records ∧
        session.state = session₁.state ∧ c₂.world.store.db.generation = 1 := by
  have hcourse := course_ahead 24 (.begin : Course twiceConfig twice [] _ twice)
  rw [List.nil_append] at hcourse
  have hunchanged : Unchanged id twice.world.tree (twice.ahead 24 (.configure twiceConfig)) := by
    have hall : (twice.ahead 24 (.configure twiceConfig)).all
        (fun situation => situation.2.world.tree.entries = twice.world.tree.entries) := by
      decide +kernel
    intro session candidates c hmem
    have hentries : c.world.tree.entries = twice.world.tree.entries := by
      simpa using List.all_eq_true.mp hall _ hmem
    exact congrArg Tree.mk hentries
  obtain ⟨session₁, c₁, h₁⟩ := exists_publish
    (show (twice.ahead 24 (.configure twiceConfig))[7]?.map (fun s => s.1.isPublish) = some true by
      decide +kernel)
  obtain ⟨session, c₂, h₂⟩ := exists_publish
    (show (twice.ahead 24 (.configure twiceConfig))[18]?.map (fun s => s.1.isPublish) = some true by
      decide +kernel)
  have hlabels : (twice.ahead 24 (.configure twiceConfig))[7]?.map
      (fun s => s.2.world.store.db.records.map Record.label) =
        some ["global:!", "missing:", "file:"] := by
    decide +kernel
  rw [h₁, Option.map_some, Option.some.injEq] at hlabels
  obtain ⟨hrecords, _, _, hstate, hgeneration⟩ := passes_reproduced id twiceConfig rfl
    twice_repeatable hcourse hunchanged (split_of_getElem? h₁) (split_of_getElem? h₂)
  have hbegun₁ : passesBegun ((twice.ahead 24 (.configure twiceConfig)).take 7) = 1 := by
    decide +kernel
  have hbegun : passesBegun ((twice.ahead 24 (.configure twiceConfig)).take 18) = 2 := by
    decide +kernel
  refine ⟨twice_repeatable, hunchanged, _, session₁, c₁, _, _, session, c₂, _,
    split_of_getElem? h₁, split_of_getElem? h₂, hbegun₁, hbegun, hlabels, hrecords, hstate, ?_⟩
  omega

end Coordinator

end DocPipeline
