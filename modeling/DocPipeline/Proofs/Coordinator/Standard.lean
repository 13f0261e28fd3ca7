import DocPipeline.Coordinator.Run
import DocPipeline.Proofs.Conduct
import DocPipeline.Proofs.Parsing.Assembly

namespace DocPipeline

-- How collaborators may change the database, and what those that a run loads must be like.
structure Standard (ε : Type) where
  change : Database → Database → Prop
  plugin : Plugin ε → Prop
  runtime : Runtime → Prop
  publisher : Publisher ε → Prop

namespace Standard

variable {ε : Type}

-- What a standard needs to be of use: doing nothing meets it, and so does doing one thing after
-- the other.
structure Fair (std : Standard ε) : Prop where
  refl : ∀ db, std.change db db
  trans : ∀ {a b c}, std.change a b → std.change b c → std.change a c
  diagnostics : ∀ state, std.plugin (.diagnostics state)

-- At the hook, plugins that meet the standard change the database as it allows, and go on to meet
-- it.
def Governs (std : Standard ε) (h : Hook) : Prop :=
  ∀ plugin, std.plugin plugin → ∀ (occasion : Occasion h) (payload : h.Payload) (world : World ε),
    std.plugin (plugin.respond occasion payload world).1 ∧
      std.change world.store.db (plugin.respond occasion payload world).2.world.store.db

end Standard

-- Where a world stands that was changed as the standard allows.
structure World.Within {ε : Type} (std : Standard ε) (passes : Nat) (base : Database)
    (world : World ε) : Prop where
  passes : world.metrics.passes = passes
  change : std.change base world.store.db

namespace Coordinator

variable {ε : Type}

-- All collaborators that a coordinator has or may load meet the standard.
structure Meets (std : Standard ε) (c : Coordinator ε) : Prop where
  runtimes : ∀ name factory, c.registry.runtimes.get? name = some factory →
    ∀ options, (factory options).Makes std.change std.runtime
  publishers : ∀ name factory, c.registry.publishers.get? name = some factory →
    ∀ options, (factory options).Makes std.change std.publisher
  plugins : ∀ name factory, c.registry.plugins.get? name = some factory →
    ∀ options, (factory options).Makes std.change std.plugin
  hydrator : ∀ dir patterns, (c.hydrator dir patterns).Changes std.change
  waiting : ∀ plugin ∈ c.waiting, std.plugin plugin
  registered : ∀ plugin ∈ c.dispatcher.plugins, std.plugin plugin

theorem Meets.of_plugins {std : Standard ε} {c c' : Coordinator ε} (h : c.Meets std)
    (hr : c'.registry = c.registry) (hh : c'.hydrator = c.hydrator)
    (hw : ∀ plugin ∈ c'.waiting, std.plugin plugin)
    (hp : ∀ plugin ∈ c'.dispatcher.plugins, std.plugin plugin) : c'.Meets std := by
  refine ⟨?_, ?_, ?_, ?_, hw, hp⟩
  · rw [hr]
    exact h.runtimes
  · rw [hr]
    exact h.publishers
  · rw [hr]
    exact h.plugins
  · rw [hh]
    exact h.hydrator

-- Where a coordinator stands whose collaborators meet the standard.
structure Within (std : Standard ε) (machine : Machine) (passes : Nat) (base : Database)
    (c : Coordinator ε) : Prop where
  meets : c.Meets std
  machine : c.machine = machine
  world : c.world.Within std passes base

-- What a run may change without any consequence for the course that it takes: the files, the log,
-- the signals, the plan and what is said about the package.
structure Alike (c c' : Coordinator ε) : Prop where
  registry : c'.registry = c.registry
  hydrator : c'.hydrator = c.hydrator
  waiting : c'.waiting = c.waiting
  dispatcher : c'.dispatcher = c.dispatcher
  machine : c'.machine = c.machine
  store : c'.world.store = c.world.store
  metrics : c'.world.metrics = c.world.metrics

theorem Alike.meddle (c : Coordinator ε) (signals : Signals) :
    c.Alike { c with world := { c.world with signals } } :=
  ⟨rfl, rfl, rfl, rfl, rfl, rfl, rfl⟩

theorem Alike.refl (c : Coordinator ε) : c.Alike c := ⟨rfl, rfl, rfl, rfl, rfl, rfl, rfl⟩

-- The property does not look at such things.
def Lenient (I : Coordinator ε → Prop) : Prop := ∀ c c', c.Alike c' → I c → I c'

theorem lenient_alike (c : Coordinator ε) : Lenient c.Alike := fun _ _ h hc =>
  ⟨h.registry.trans hc.registry, h.hydrator.trans hc.hydrator, h.waiting.trans hc.waiting,
    h.dispatcher.trans hc.dispatcher, h.machine.trans hc.machine, h.store.trans hc.store,
    h.metrics.trans hc.metrics⟩

-- The world may change in other ways, too, as long as the standard allows it.
theorem Within.of_world {std : Standard ε} {machine : Machine} {passes passes' : Nat}
    {base base' : Database} {c c' : Coordinator ε} (h : c.Within std machine passes base)
    (hr : c'.registry = c.registry) (hh : c'.hydrator = c.hydrator) (hw : c'.waiting = c.waiting)
    (hd : c'.dispatcher = c.dispatcher) (hm : c'.machine = c.machine)
    (hworld : c'.world.Within std passes' base') : c'.Within std machine passes' base' :=
  ⟨h.meets.of_plugins hr hh (hw ▸ h.meets.waiting) (hd ▸ h.meets.registered), hm.trans h.machine,
    hworld⟩

theorem Within.after {std : Standard ε} {machine : Machine} {passes : Nat} {base : Database}
    {c : Coordinator ε} (h : c.Within std machine passes base) (machine' : Machine) (log : Log) :
    Coordinator.Within std machine' passes base
      { c with machine := machine', world := { c.world with log } } :=
  ⟨h.meets.of_plugins rfl rfl h.meets.waiting h.meets.registered, rfl,
    ⟨h.world.passes, h.world.change⟩⟩

theorem lenient_within {std : Standard ε} {machine : Machine} {passes : Nat} {base : Database} :
    Lenient (Coordinator.Within std machine passes base) := fun _ _ h hc =>
  hc.of_world h.registry h.hydrator h.waiting h.dispatcher h.machine
    ⟨h.metrics ▸ hc.world.passes, h.store ▸ hc.world.change⟩

end Coordinator

-- The property depends neither on the log nor on how many files were not accepted.
structure World.Steady {ε : Type} (J : World ε → Prop) : Prop where
  log : ∀ {world} log, J world → J { world with log }
  filtered : ∀ {world} count, J world →
    J { world with metrics := world.metrics.addFiltered count }

section Works

variable {ε : Type} {std : Standard ε} {passes : Nat} {base : Database} {J : World ε → Prop}

theorem World.steady_within : World.Steady (World.Within std passes base) :=
  ⟨fun _ h => ⟨h.passes, h.change⟩, fun _ h => ⟨h.passes, h.change⟩⟩

namespace Work

theorem keeps_act (hJ : World.Steady J) {α : Type} {act : Act α} {Q : α → Prop}
    (ha : Keeps (fun _ => True) act Q) : Keeps J (Work.act act) Q := by
  intro world h
  exact ⟨hJ.log _ h, (ha world.log trivial).2⟩

theorem keeps_noteAll (hJ : World.Steady J) (events : List Event) :
    Keeps J (Work.noteAll events) fun _ => True :=
  keeps_modify fun _ h => hJ.log _ h

end Work

theorem Conduct.Makes.keeps_perform (hs : std.Fair) {α : Type} {good : α → Prop}
    {conduct : Conduct ε Unit α} (hc : conduct.Makes std.change good) :
    Keeps (World.Within std passes base) conduct.perform good := by
  intro world h
  refine ⟨⟨?_, hs.trans h.change (hc.1 () world)⟩, fun a ha => hc.2 world a ha⟩
  exact (congrArg Prod.fst (conduct.run_course () world)).trans h.passes

theorem Registry.keeps_make {α : Type} {good : α → Prop} {factories : Dict (Factory ε α)}
    (hf : ∀ name factory, factories.get? name = some factory →
      ∀ options, Keeps J (factory options).perform good)
    (kind : CollaboratorKind) (spec : CollaboratorSpec) (options : Option Json) :
    Keeps J (Registry.make factories kind spec options) good := by
  unfold Registry.make
  cases h : factories.get? spec.name with
  | none => exact keeps_throw _
  | some factory => exact keeps_tryCatch (hf _ factory h _) fun _ => keeps_throw _

namespace Discovery

variable (hJ : World.Steady J) {hydrator : Hydrator ε}
  (hh : ∀ dir patterns, Keeps J (hydrator dir patterns).perform fun _ => True)

include hJ

theorem keeps_choose (dir : Path) (filter : Filter) (files : List Path) :
    Keeps J (choose dir filter files)
      fun chosen => chosen = Candidate.select dir files filter := by
  apply keeps_bind (Work.keeps_noteAll hJ _)
  intro _ _
  exact keeps_bind (keeps_modify fun _ h => hJ.filtered _ h) fun _ _ => keeps_pure rfl

include hh

theorem keeps_hydrateSource (dir : Path) (source : Option SourceSpec) (label : String) :
    Keeps J (hydrateSource hydrator dir source label) fun _ => True := by
  cases source with
  | none => exact keeps_throw _
  | some source =>
    apply keeps_bind (keeps_tryCatch (hh dir source.patterns) fun _ => keeps_throw _)
    intro hydrated _
    exact keeps_bind (Work.keeps_noteAll hJ _) fun _ _ => keeps_pure trivial

theorem keeps_fillMain (plan : Plan) (state : RunState) :
    Keeps J (fillMain hydrator plan state)
      fun filled => filled.sourceFiles.isSome ∧ (state.sourceFiles.isSome → filled = state) ∧
        filled.menuLinks = state.menuLinks := by
  unfold fillMain
  cases h : state.sourceFiles with
  | some files => exact keeps_pure ⟨by simp [h], fun _ => rfl, rfl⟩
  | none =>
    exact keeps_bind (keeps_hydrateSource hJ hh _ _ _) fun _ _ =>
      keeps_pure ⟨rfl, (fun hf => nomatch hf), rfl⟩

theorem keeps_fillTests (plan : Plan) (test : TestPlan) (state : RunState) :
    Keeps J (fillTests hydrator plan test state)
      fun filled => filled.testFiles.isSome ∧ (state.testFiles.isSome → filled = state) ∧
        filled.sourceFiles = state.sourceFiles ∧ filled.menuLinks = state.menuLinks := by
  unfold fillTests
  cases h : state.testFiles with
  | some files => exact keeps_pure ⟨by simp [h], fun _ => rfl, rfl, rfl⟩
  | none =>
    exact keeps_bind (keeps_hydrateSource hJ hh _ _ _) fun _ _ =>
      keeps_pure ⟨rfl, (fun hf => nomatch hf), rfl, rfl⟩

theorem keeps_findMain (plan : Plan) (state : RunState) :
    Keeps J (findMain hydrator plan state)
      fun result => (result.1.sourceFiles.isSome ∧
        (state.sourceFiles.isSome → result.1 = state) ∧
        result.1.menuLinks = state.menuLinks) ∧
        result.2 = Candidate.select plan.dir (result.1.sourceFiles.getD []) plan.filter := by
  apply keeps_bind (keeps_fillMain hJ hh plan state)
  intro filled hf
  exact keeps_bind (keeps_choose hJ _ _ _) fun chosen hc => keeps_pure ⟨hf, hc⟩

theorem keeps_findTests (plan : Plan) (state : RunState) :
    Keeps J (findTests hydrator plan state)
      fun result => ((plan.test.isSome → result.1.testFiles.isSome) ∧
        ((plan.test.isSome → state.testFiles.isSome) → result.1 = state) ∧
        result.1.sourceFiles = state.sourceFiles ∧ result.1.menuLinks = state.menuLinks) ∧
        result.2 = match plan.test with
          | none => []
          | some test =>
            Candidate.select plan.dir (result.1.testFiles.getD []) test.filter := by
  unfold findTests
  cases plan.test with
  | none => exact keeps_pure ⟨⟨nofun, fun _ => rfl, rfl, rfl⟩, rfl⟩
  | some test =>
    apply keeps_bind (keeps_fillTests hJ hh plan test state)
    rintro filled ⟨hset, hsame, hrest⟩
    apply keeps_bind (keeps_choose hJ _ _ _)
    intro chosen hc
    exact keeps_pure ⟨⟨fun _ => hset, fun h => hsame (h rfl), hrest⟩, hc⟩

end Discovery

-- Expanding patterns in the files leaves the database alone.
theorem fileHydrator_changes {R : Database → Database → Prop} (hR : ∀ db, R db db) (dir : Path)
    (patterns : List String) : (fileHydrator dir patterns : Conduct ε Unit Hydrated).Changes R :=
  fun payload world => Conduct.ofAct_changes hR (Discovery.hydrate world.tree dir patterns) payload
    world

end Works

end DocPipeline
