import DocPipeline.Proofs.Coordinator.Moment
import DocPipeline.Proofs.Coordinator.Regeneration
import DocPipeline.Proofs.Database.Index

namespace DocPipeline

namespace Moment

variable {ε : Type}

def session? : Moment ε → Option (Session ε)
  | discover session | start session | parse session _ | edit session | resolve session
  | prepare session | publish session | complete session | completed session _ | idle session
  | wait session | signalled session _ => some session
  | _ => none

-- Whatever runtime the run has at the moment is one of these.
def RunsOn (P : Runtime → Prop) (moment : Moment ε) : Prop :=
  ∀ session, moment.session? = some session → P session.runtime

theorem RunsOn.of_none {P : Runtime → Prop} {moment : Moment ε} (h : moment.session? = none) :
    moment.RunsOn P := by
  intro session hs
  rw [h] at hs
  cases hs

-- Where the publisher is still to be called, the index has been built.
def Indexed (c : Coordinator ε) : Moment ε → Prop
  | prepare session | publish session =>
    session.runtime.resolver = indexResolver → c.world.store.db.Indexed
  | _ => True

end Moment

namespace Flow

variable {ε : Type} {session : Session ε} {c c' : Coordinator ε}

theorem indexed_of_resolve (hr : session.runtime.resolver = indexResolver)
    (h : exec (resolve session) c = (.ok (), c')) : c'.world.store.db.Indexed := by
  have hresolve : exec (resolve session) c = (.ok (),
      { c with world := { c.world with store := c.world.store.resolve.1 } }) := by
    simp only [resolve, hr, indexResolver, exec_bind, exec_get]
    rfl
  obtain ⟨_, rfl⟩ := Prod.mk.inj (hresolve.symm.trans h)
  exact Database.indexed_reindex _

theorem store_of_preparePublishing {plan : Plan}
    (h : exec (preparePublishing plan) c = (.ok (), c')) : c'.world.store = c.world.store := by
  have hlenient : Coordinator.Lenient fun d : Coordinator ε => d.world.store = c.world.store :=
    fun _ _ hd hc => hd.store.trans hc
  exact ((keeps_preparePublishing hlenient plan).of_ok rfl h).1

-- One step: only the resolver comes before the preparations, and only these before the publisher.
theorem indexed_step {moment : Moment ε} (hm : moment.isReturned = false)
    (h : moment.Indexed c) : (c.step moment).1.Indexed (c.step moment).2 := by
  rcases ha : exec (advance moment) c with ⟨failure | next, c'⟩
  · rw [Coordinator.step_of_error ha]
    trivial
  · rw [Coordinator.step_of_ok ha]
    obtain ⟨machine, log, hproceed⟩ := advance_ok ha
    have hleads : moment.Leads next := ((leads_of_proceed hm).of_ok trivial hproceed).2
    cases hleads with
    | resolve =>
      obtain ⟨_, d, hresolve, hnext⟩ := exec_bind_eq_ok hproceed
      cases hnext
      exact fun hr => indexed_of_resolve hr hresolve
    | prepare =>
      obtain ⟨_, d, hprepare, hnext⟩ := exec_bind_eq_ok hproceed
      cases hnext
      intro hr
      rw [store_of_preparePublishing hprepare]
      exact h hr
    | _ => trivial

end Flow

section Runtime

variable {ε : Type} {P : Runtime → Prop}

-- Asks of the runtimes that they are some of these, and nothing of other collaborators.
def Standard.runtimes (P : Runtime → Prop) : Standard ε where
  change _ _ := True
  plugin _ := True
  runtime := P
  publisher _ := True

theorem Standard.runtimes_fair : (Standard.runtimes P : Standard ε).Fair :=
  ⟨fun _ => trivial, fun _ _ => trivial, fun _ => trivial⟩

namespace Flow

theorem runtime_of_discover (session : Session ε) :
    Keeps (fun _ => True) (discover session) fun found => found.1.runtime = session.runtime :=
  keeps_bind (keeps_trivial _) fun _ _ => keeps_bind (keeps_trivial _) fun _ _ =>
    keeps_bind (keeps_trivial _) fun _ _ => keeps_pure rfl

theorem runtime_of_beginPass (session : Session ε) :
    Keeps (fun _ => True) (beginPass session) fun begun => begun.1.runtime = session.runtime := by
  apply keeps_bind (keeps_trivial _)
  intro state _
  unfold passCandidates
  split
  · split
    · exact keeps_pure rfl
    · exact runtime_of_discover _
  · exact runtime_of_discover _

theorem runtime_of_discoverFirst (session : Session ε) :
    Keeps (fun _ => True) (discoverFirst session) fun first =>
      first.runtime = session.runtime := by
  apply keeps_bind (runtime_of_discover session)
  rintro ⟨found, candidates⟩ h
  exact keeps_bind (keeps_trivial _) fun _ _ => keeps_pure h

theorem runtime_of_parse (session : Session ε) (candidates : Candidates) :
    Keeps (fun _ => True) (parse session candidates) fun parsed =>
      parsed.runtime = session.runtime :=
  keeps_bind (keeps_trivial _) fun _ _ => keeps_bind (keeps_trivial _) fun _ _ =>
    keeps_bind (keeps_trivial _) fun _ _ => keeps_pure rfl

theorem runtime_of_publish (session : Session ε) :
    Keeps (fun _ => True) (publish session) fun published =>
      published.runtime = session.runtime :=
  keeps_bind (keeps_trivial _) fun _ _ => keeps_bind (keeps_trivial _) fun _ _ => keeps_pure rfl

theorem runtime_of_regenerate (session : Session ε) :
    Keeps (fun _ => True) (regenerate session) fun again => again.runtime = session.runtime :=
  keeps_bind (keeps_trivial _) fun _ _ => keeps_bind (keeps_trivial _) fun _ _ =>
    keeps_bind (keeps_trivial _) fun _ _ => keeps_bind (keeps_trivial _) fun _ _ => keeps_pure rfl

-- What is done at a moment with a session hands on the runtime of the session.
theorem runsOn_proceed {moment : Moment ε} (hm : moment.session?.isSome) (h : moment.RunsOn P) :
    Keeps (fun _ => True) (proceed moment) (Moment.RunsOn P) := by
  -- Steps that give no session but their own one, or none at all.
  have hsame : ∀ {α : Type} {m : Flow ε α} {next : α → Moment ε}, (∀ a, (next a).RunsOn P) →
      Keeps (fun _ => True) (m >>= fun a => pure (next a)) (Moment.RunsOn P) := fun hnext =>
    keeps_bind (keeps_trivial _) fun a _ => keeps_pure (hnext a)
  have hone : ∀ {session next : Session ε} {moment' : Moment ε},
      moment.session? = some session → next.runtime = session.runtime →
      moment'.session? = some next → moment'.RunsOn P := by
    intro session next moment' hs hr hn other ho
    obtain rfl := Option.some.inj (hn.symm.trans ho)
    exact hr ▸ h session hs
  cases moment with
  | discover session =>
    exact keeps_bind (runtime_of_discoverFirst session) fun _ hr => keeps_pure (hone rfl hr rfl)
  | start session =>
    exact keeps_bind (runtime_of_beginPass session) fun _ hr => keeps_pure (hone rfl hr rfl)
  | parse session candidates =>
    exact keeps_bind (runtime_of_parse session candidates) fun _ hr => keeps_pure (hone rfl hr rfl)
  | publish session =>
    exact keeps_bind (runtime_of_publish session) fun _ hr => keeps_pure (hone rfl hr rfl)
  | completed session keepAlive =>
    apply hsame
    intro _
    cases keepAlive
    · exact .of_none rfl
    · exact hone rfl rfl rfl
  | wait session =>
    apply keeps_bind (keeps_trivial _)
    intro answer _
    cases answer with
    | signal signal => exact keeps_pure (hone rfl rfl rfl)
    | noHandles => exact keeps_bind (keeps_trivial _) fun _ _ => keeps_pure (.of_none rfl)
    | pending => exact keeps_pure (hone rfl rfl rfl)
  | signalled session signal =>
    cases signal with
    | regenerate =>
      exact keeps_bind (runtime_of_regenerate session) fun _ hr => keeps_pure (hone rfl hr rfl)
    | shutdown => exact hsame fun _ => .of_none rfl
  | edit session | resolve session | prepare session | complete session | idle session =>
    exact hsame fun _ => hone rfl rfl rfl
  | configure | shutDown | returned => cases hm

end Flow

theorem Flow.runsOn_configure {raw : Json} {c c' : Coordinator ε} {next : Moment ε}
    (hc : c.Meets (.runtimes P)) (h : exec (proceed (.configure raw)) c = (.ok next, c')) :
    next.RunsOn P := by
  obtain ⟨session, _, hconfigure, hnext⟩ := exec_bind_eq_ok h
  cases hnext
  have hg : (Standard.runtimes P : Standard ε).Governs .handleConfig :=
    fun _ _ _ _ _ => ⟨trivial, trivial⟩
  have hwithin : c.Within (.runtimes P) c.machine c.world.metrics.passes {} :=
    ⟨hc, rfl, rfl, trivial⟩
  obtain ⟨_, ⟨hruntime, _⟩, _⟩ :=
    (keeps_configure Standard.runtimes_fair hg raw).of_ok hwithin hconfigure
  rintro _ ⟨⟩
  exact hruntime

-- One step: the configuration loads a runtime, and all else keeps it.
theorem Coordinator.runsOn_step {moment : Moment ε} {c : Coordinator ε}
    (hm : moment.isReturned = false) (h : moment.RunsOn P)
    (hc : ∀ raw, moment = .configure raw → c.Meets (.runtimes P)) :
    (c.step moment).1.RunsOn P ∧ ∀ raw, (c.step moment).1 ≠ .configure raw := by
  rcases ha : exec (Flow.advance moment) c with ⟨failure | next, c'⟩
  · rw [step_of_error ha]
    exact ⟨.of_none rfl, nofun⟩
  · rw [step_of_ok ha]
    obtain ⟨machine, log, hproceed⟩ := Flow.advance_ok ha
    have hleads : moment.Leads next := ((Flow.leads_of_proceed hm).of_ok trivial hproceed).2
    refine ⟨?_, by rintro raw rfl; cases hleads⟩
    cases moment with
    | configure raw =>
      have hentered : Coordinator.Meets (.runtimes P)
          { c with machine, world := { c.world with log } } :=
        (hc raw rfl).of_plugins rfl rfl (hc raw rfl).waiting (hc raw rfl).registered
      exact Flow.runsOn_configure hentered hproceed
    | shutDown plan =>
      cases hleads
      exact .of_none rfl
    | returned => cases hm
    | _ => exact ((Flow.runsOn_proceed rfl h).of_ok trivial hproceed).2

end Runtime

namespace Course

variable {ε : Type} {raw : Json} {c₀ c : Coordinator ε} {trail : List (Situation ε)}
  {moment : Moment ε}

theorem indexed (h : Course raw c₀ trail moment c) :
    (∀ situation ∈ trail, situation.1.Indexed situation.2) ∧ moment.Indexed c := by
  induction h with
  | begin => exact ⟨fun _ hmem => absurd hmem List.not_mem_nil, trivial⟩
  | step _ hm ih =>
    obtain ⟨htrail, hcurrent⟩ := ih
    refine ⟨fun situation hmem => ?_, Flow.indexed_step hm hcurrent⟩
    rcases List.mem_append.mp hmem with hmem | hmem
    · exact htrail situation hmem
    · rw [List.mem_singleton.mp hmem]
      exact hcurrent
  | @meddle trail moment c _ signals ih =>
    refine ⟨ih.1, ?_⟩
    cases moment <;> exact ih.2

-- A run has one of the runtimes that it may load.
theorem runsOn {P : Runtime → Prop} (hc : c₀.Meets (.runtimes P))
    (h : Course raw c₀ trail moment c) :
    (∀ situation ∈ trail, situation.1.RunsOn P) ∧ moment.RunsOn P := by
  suffices hall : ((∀ situation ∈ trail, situation.1.RunsOn P) ∧ moment.RunsOn P) ∧
      ∀ raw, moment = .configure raw → c.Meets (.runtimes P) from hall.1
  induction h with
  | begin =>
    exact ⟨⟨fun _ hmem => absurd hmem List.not_mem_nil, .of_none rfl⟩, fun _ _ => hc⟩
  | step _ hm ih =>
    obtain ⟨⟨htrail, hcurrent⟩, hmeets⟩ := ih
    obtain ⟨hnext, hnever⟩ := Coordinator.runsOn_step hm hcurrent hmeets
    refine ⟨⟨fun situation hmem => ?_, hnext⟩, fun raw hraw => absurd hraw (hnever raw)⟩
    rcases List.mem_append.mp hmem with hmem | hmem
    · exact htrail situation hmem
    · rw [List.mem_singleton.mp hmem]
      exact hcurrent
  | meddle _ signals ih =>
    refine ⟨ih.1, fun raw hraw => ?_⟩
    exact (ih.2 raw hraw).of_plugins rfl rfl (ih.2 raw hraw).waiting (ih.2 raw hraw).registered

end Course

namespace Coordinator

-- For every database, whatever its index was: the resolver builds the exact index, leaves all else
-- as it is, and has nothing left to do a second time. And in every run, whoever uses the handles
-- and whatever plugins did to the index, the publisher is called on a database whose index is
-- exact, provided that the runtime of the run resolves with it; and so it does if every runtime
-- does that the run may load.
theorem published_index_exact :
    (∀ db, ∃ resolved, indexResolver db = (resolved, .ok ()) ∧ resolved.Indexed ∧
      resolved.records = db.records ∧ resolved.asts = db.asts ∧
      resolved.generation = db.generation ∧ indexResolver resolved = (resolved, .ok ())) ∧
    ∀ (ε : Type) (raw : Json) (c₀ : Coordinator ε) (trail : List (Situation ε))
      (moment : Moment ε) (c : Coordinator ε), Course raw c₀ trail moment c →
      ∀ (session : Session ε) (d : Coordinator ε), (Moment.publish session, d) ∈ trail →
        (session.runtime.resolver = indexResolver → d.world.store.db.Indexed) ∧
        (c₀.Meets (.runtimes fun runtime => runtime.resolver = indexResolver) →
          session.runtime.resolver = indexResolver ∧ d.world.store.db.Indexed) := by
  refine ⟨fun db => ⟨db.reindex, rfl, db.indexed_reindex, rfl, rfl, rfl, rfl⟩, ?_⟩
  intro ε raw c₀ trail moment c h session d hmem
  have hindexed : session.runtime.resolver = indexResolver → d.world.store.db.Indexed :=
    h.indexed.1 _ hmem
  refine ⟨hindexed, fun hmeets => ?_⟩
  have hresolver : session.runtime.resolver = indexResolver :=
    (h.runsOn hmeets).1 _ hmem session rfl
  exact ⟨hresolver, hindexed hresolver⟩

-- A parser whose records share their names, and a plugin that leaves an index of its own.
def namesakeParser : Parser where
  file tree _ file _ :=
    if tree.isFile file then
      .ok (some ⟨[namesake "A" "A", namesake "B" "A", namesake "A" "C"], none⟩)
    else .ok none
  code _ _ := .ok none
  test _ _ _ _ := .ok none
where
  namesake (name longname : String) : Record :=
    { kind := .entity "class"
      fields := .ofList [("name", .string name), ("longname", .string longname)] }

def stalePlugin : Plugin Nat :=
  .custom "stale" fun {h} _ =>
    match h with
    | .handleDocDb =>
      .editStore (.update fun db => { db with index := .ofList [("B", [7, 0]), ("Z", [])] })
        (.done ())
    | _ => .done ()

def namesakes : Coordinator Nat :=
  { twice with
    registry :=
      { twice.registry with
        runtimes := .ofList [("r", fun _ => .done ⟨"r", namesakeParser, indexResolver⟩)] }
    waiting := [stalePlugin] }

theorem namesakes_meets :
    namesakes.Meets (.runtimes fun runtime => runtime.resolver = indexResolver) where
  runtimes name factory h options := by
    cases Dict.eq_of_get?_singleton h
    exact ⟨fun _ _ => trivial, fun world runtime hr => by cases hr; rfl⟩
  publishers name factory h options := by
    cases Dict.eq_of_get?_singleton h
    exact ⟨fun _ _ => trivial, fun _ _ _ => trivial⟩
  plugins name factory h := nomatch h
  hydrator := fileHydrator_changes fun _ => trivial
  waiting _ _ := trivial
  registered _ _ := trivial

-- The plugin's index is gone when the publisher is called.
theorem namesakes_index_exact :
    ∃ session d, (namesakes.ahead 12 (.configure twiceConfig))[7]? = some (.publish session, d) ∧
      session.runtime.resolver = indexResolver ∧ d.world.store.db.Indexed ∧
      d.world.store.db.index.entries = [("A", [0, 1, 2]), ("B", [1]), ("C", [2])] := by
  have hcourse := course_ahead 12 (.begin : Course twiceConfig namesakes [] _ namesakes)
  rw [List.nil_append] at hcourse
  obtain ⟨session, d, hpublish⟩ := exists_publish
    (show (namesakes.ahead 12 (.configure twiceConfig))[7]?.map (fun s => s.1.isPublish) =
      some true by decide +kernel)
  have hentries : (namesakes.ahead 12 (.configure twiceConfig))[7]?.map
      (fun s => s.2.world.store.db.index.entries) =
        some [("A", [0, 1, 2]), ("B", [1]), ("C", [2])] := by
    decide +kernel
  rw [hpublish, Option.map_some, Option.some.injEq] at hentries
  obtain ⟨-, hexact⟩ := published_index_exact.2 _ _ _ _ _ _ hcourse session d
    (List.mem_of_getElem? hpublish)
  obtain ⟨hresolver, hindexed⟩ := hexact namesakes_meets
  exact ⟨session, d, hpublish, hresolver, hindexed, hentries⟩

end Coordinator

end DocPipeline
