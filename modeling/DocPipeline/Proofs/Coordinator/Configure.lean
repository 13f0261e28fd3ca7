import DocPipeline.Proofs.Coordinator.Standard

namespace DocPipeline

namespace RunState

-- The lists of files that the plan needs are set.
def Listed (plan : Plan) (state : RunState) : Prop :=
  state.sourceFiles.isSome ∧ (plan.test.isSome → state.testFiles.isSome)

-- Lists that were not set were set, and the links were left alone.
structure Fills (plan : Plan) (state filled : RunState) : Prop where
  listed : filled.Listed plan
  same : state.Listed plan → filled = state
  menuLinks : filled.menuLinks = state.menuLinks

end RunState

namespace Session

variable {ε : Type}

-- What the patterns accept of the files that are listed.
def chosen (session : Session ε) : Candidates :=
  ⟨Candidate.select session.plan.dir (session.state.sourceFiles.getD []) session.plan.filter,
    match session.plan.test with
    | none => []
    | some test =>
      Candidate.select session.plan.dir (session.state.testFiles.getD []) test.filter⟩

def Meets (std : Standard ε) (session : Session ε) : Prop :=
  std.runtime session.runtime ∧ std.publisher session.publisher

end Session

theorem Settings.plan_menuLinks {s : Settings} {dir : Path} {result : Plan × RunState}
    (h : s.plan dir = .ok result) : result.2.menuLinks = [] := by
  obtain ⟨_, _, hsource⟩ := except_bind_eq_ok h
  dsimp only at hsource
  split at hsource
  · cases hsource
  · obtain ⟨filter, _, htest⟩ := except_bind_eq_ok hsource
    obtain ⟨test, _, hruntime⟩ := except_bind_eq_ok htest
    cases hr : s.runtime <;> rw [hr] at hruntime <;> cases hruntime
    rfl

-- A run begins without links.
theorem Plan.keeps_ofSettings (settings : Settings) (dir : Path) :
    Keeps (fun _ => True) (Plan.ofSettings settings dir) fun result => result.2.menuLinks = [] := by
  apply keeps_bind (Q := fun result => settings.plan dir = .ok result)
  · intro log _
    exact ⟨trivial, fun result h => h⟩
  · intro result h
    apply keeps_bind (Q := fun _ => True)
    · exact keeps_trivial _
    · intro _ _
      exact keeps_pure (Settings.plan_menuLinks h)

section Dispatching

variable {ε : Type} {std : Standard ε} {passes : Nat} {base : Database} {h : Hook}

theorem Plugin.respond_course (plugin : Plugin ε) (occasion : Occasion h) (payload : h.Payload)
    (world : World ε) :
    (plugin.respond occasion payload world).2.world.metrics.course = world.metrics.course := by
  cases plugin with
  | diagnostics state => rfl
  | custom name respond => exact Conduct.run_course _ _ _

-- All plugins at a hook together do no more than each of them may do.
theorem Dispatcher.callAll_within (hs : std.Fair) (hg : std.Governs h) (occasion : Occasion h)
    (plugins : List (Plugin ε)) (hp : ∀ plugin ∈ plugins, std.plugin plugin)
    (payload : h.Payload) (world : World ε) (hw : world.Within std passes base) :
    (∀ plugin ∈ (callAll occasion plugins payload world).plugins, std.plugin plugin) ∧
      (callAll occasion plugins payload world).outcome.world.Within std passes base := by
  induction plugins generalizing payload world with
  | nil => exact ⟨hp, hw⟩
  | cons plugin rest ih =>
    obtain ⟨hfirst, hrest⟩ := List.forall_mem_cons.mp hp
    obtain ⟨hcalled, hchange⟩ := hg plugin hfirst occasion payload (enter ⟨h, plugin.name⟩ world)
    have hcourse := plugin.respond_course occasion payload (enter ⟨h, plugin.name⟩ world)
    simp only [callAll]
    generalize plugin.respond occasion payload (enter ⟨h, plugin.name⟩ world) = response at *
    rcases response with ⟨called, result, left, world'⟩
    have hw' : world'.Within std passes base :=
      ⟨(congrArg Prod.fst hcourse).trans hw.passes, hs.trans hw.change hchange⟩
    cases result with
    | error failure => exact ⟨List.forall_mem_cons.mpr ⟨hcalled, hrest⟩, hw'⟩
    | ok _ =>
      obtain ⟨hplugins, hworld⟩ := ih hrest left world' hw'
      exact ⟨List.forall_mem_cons.mpr ⟨hcalled, hplugins⟩, hworld⟩

end Dispatching

namespace Flow

variable {ε α : Type} {std : Standard ε} {machine : Machine} {passes : Nat} {base : Database}

theorem keeps_work {work : Work ε α} {Q : α → Prop}
    (hw : Keeps (World.Within std passes base) work Q) :
    Keeps (Coordinator.Within std machine passes base) (Flow.work work) Q := by
  intro c hc
  obtain ⟨hworld, hq⟩ := hw c.world hc.world
  exact ⟨hc.of_world rfl rfl rfl rfl rfl hworld, hq⟩

theorem keeps_note {I : Coordinator ε → Prop} (hI : Coordinator.Lenient I) (level : Level)
    (message : String) : Keeps I (Flow.note level message) fun _ => True :=
  keeps_modify fun c hc => hI c _ ⟨rfl, rfl, rfl, rfl, rfl, rfl, rfl⟩ hc

theorem keeps_dispatch (hs : std.Fair) {h : Hook} (hg : std.Governs h) (occasion : Occasion h)
    (payload : h.Payload) :
    Keeps (Coordinator.Within std machine passes base) (dispatch occasion payload)
      fun _ => True := by
  intro c hc
  refine ⟨?_, fun _ _ => trivial⟩
  simp only [dispatch, exec_mk, Dispatcher.dispatch]
  by_cases hd : c.dispatcher.destroyed
  · rw [if_pos hd]
    exact hc.of_world rfl rfl rfl rfl rfl hc.world
  · rw [if_neg hd]
    obtain ⟨hp, hw⟩ := Dispatcher.callAll_within hs hg occasion c.dispatcher.plugins
      hc.meets.registered payload c.world hc.world
    exact ⟨hc.meets.of_plugins rfl rfl hc.meets.waiting hp, hc.machine, hw⟩

theorem keeps_register {plugin : Plugin ε} (hp : std.plugin plugin) :
    Keeps (Coordinator.Within std machine passes base) (register plugin) fun _ => True := by
  apply keeps_bind keeps_get
  intro c hc
  unfold Dispatcher.register
  split
  next dispatcher hd =>
    split at hd
    · cases hd
    · cases hd
      have hall : ∀ p ∈ c.dispatcher.plugins ++ [plugin], std.plugin p := by
        simp only [List.mem_append, List.mem_singleton]
        rintro p (h | rfl)
        · exact hc.meets.registered p h
        · exact hp
      exact keeps_set ⟨hc.meets.of_plugins rfl rfl hc.meets.waiting hall, hc.machine,
        ⟨hc.world.passes, hc.world.change⟩⟩
  next => exact keeps_throw _

theorem keeps_applyLogLevel {I : Coordinator ε → Prop} (hI : Coordinator.Lenient I)
    (level : LogLevel) : Keeps I (applyLogLevel level) fun _ => True := by
  apply keeps_bind keeps_get
  intro c hc
  split
  · refine keeps_bind (keeps_set ?_) fun _ _ => keeps_note hI _ _
    exact hI c _ ⟨rfl, rfl, rfl, rfl, rfl, rfl, rfl⟩ hc
  · exact keeps_pure trivial

theorem keeps_loadRuntime (hs : std.Fair) (settings : Settings) :
    Keeps (Coordinator.Within std machine passes base) (loadRuntime settings) std.runtime := by
  unfold loadRuntime
  cases settings.runtime with
  | none => exact keeps_throw _
  | some spec =>
    exact keeps_bind keeps_get fun c hc =>
      keeps_work (Registry.keeps_make
        (fun _ _ hf options => (hc.meets.runtimes _ _ hf options).keeps_perform hs) _ _ _)

theorem keeps_registerNamed (hs : std.Fair) (spec : CollaboratorSpec) :
    Keeps (Coordinator.Within std machine passes base) (registerNamed spec) fun _ => True := by
  apply keeps_bind keeps_get
  intro c hc
  exact keeps_bind (keeps_work (Registry.keeps_make
    (fun _ _ hf options => (hc.meets.plugins _ _ hf options).keeps_perform hs) _ _ _))
    fun plugin hp => keeps_register hp

theorem keeps_registerWaiting :
    Keeps (Coordinator.Within std machine passes base) registerWaiting fun _ => True := by
  apply keeps_bind keeps_get
  intro c hc
  apply keeps_bind
  · apply keeps_modify
    intro d hd
    exact ⟨hd.meets.of_plugins rfl rfl (by simp) hd.meets.registered, hd.machine, hd.world⟩
  · intro _ _
    exact keeps_forM fun plugin hp => keeps_register (hc.meets.waiting plugin hp)

theorem keeps_loadPackage (path : Path) :
    Keeps (Coordinator.Within std machine passes base) (loadPackage path) fun _ => True := by
  apply keeps_bind keeps_get
  intro c _
  rcases Package.load c.world.tree c.format path with ⟨package, events⟩
  exact keeps_bind (keeps_work (Work.keeps_noteAll World.steady_within _)) fun _ _ =>
    keeps_pure trivial

theorem keeps_prepare (hs : std.Fair) (raw : Json) :
    Keeps (Coordinator.Within std machine passes base) (prepare raw)
      fun loaded => std.runtime loaded.2 := by
  apply keeps_bind (keeps_register (hs.diagnostics {}))
  intro _ _
  apply keeps_bind keeps_get
  intro c _
  apply keeps_bind (keeps_work (Work.keeps_act World.steady_within (keeps_trivial _)))
  intro settings _
  apply keeps_bind (keeps_applyLogLevel Coordinator.lenient_within _)
  intro _ _
  apply keeps_bind (keeps_loadRuntime hs settings)
  intro runtime hruntime
  apply keeps_bind (keeps_note Coordinator.lenient_within _ _)
  intro _ _
  apply keeps_bind (keeps_forM fun spec _ => keeps_registerNamed hs spec)
  intro _ _
  exact keeps_bind keeps_registerWaiting fun _ _ => keeps_pure hruntime

theorem keeps_settle (hs : std.Fair) (settings : Settings) {runtime : Runtime}
    (hr : std.runtime runtime) :
    Keeps (Coordinator.Within std machine passes base) (settle settings runtime)
      fun session => session.Meets std ∧ session.state.menuLinks = [] := by
  apply keeps_bind keeps_get
  intro c hc
  apply keeps_bind
    (keeps_work (Work.keeps_act World.steady_within (Plan.keeps_ofSettings settings c.dir)))
  rintro ⟨plan, state⟩ hlinks
  apply keeps_bind (keeps_applyLogLevel Coordinator.lenient_within _)
  intro _ _
  apply keeps_bind keeps_get
  intro d hd
  apply keeps_bind (keeps_work (Registry.keeps_make
    (fun _ _ hf options => (hd.meets.publishers _ _ hf options).keeps_perform hs) _ _ _))
  intro publisher hpublisher
  apply keeps_bind (keeps_loadPackage _)
  intro package _
  apply keeps_bind (keeps_modify fun e he => he.of_world rfl rfl rfl rfl rfl he.world)
  intro _ _
  exact keeps_pure ⟨⟨hr, hpublisher⟩, hlinks⟩

theorem keeps_configure (hs : std.Fair) (hg : std.Governs .handleConfig) (raw : Json) :
    Keeps (Coordinator.Within std machine passes base) (configure raw)
      fun session => session.Meets std ∧ session.state.menuLinks = [] := by
  apply keeps_bind (keeps_prepare hs raw)
  rintro ⟨settings, runtime⟩ hr
  apply keeps_bind (keeps_dispatch hs hg _ _)
  intro edited _
  exact keeps_settle hs edited hr

-- What discovery leaves of a session, and the candidates it finds.
def Discovered (session : Session ε) (result : Session ε × Candidates) : Prop :=
  ∃ state, session.state.Fills session.plan state ∧
    result = ({ session with state }, { session with state }.chosen)

theorem keeps_discover (hs : std.Fair) (session : Session ε) :
    Keeps (Coordinator.Within std machine passes base) (discover session)
      (Discovered session) := by
  apply keeps_bind keeps_get
  intro c hc
  have hh : ∀ dir patterns, Keeps (World.Within std passes base)
      (c.hydrator dir patterns).perform fun _ => True := fun dir patterns =>
    Conduct.Makes.keeps_perform hs ⟨hc.meets.hydrator dir patterns, fun _ _ _ => trivial⟩
  apply keeps_bind (keeps_work (Discovery.keeps_findMain World.steady_within hh _ _))
  rintro ⟨main, files⟩ ⟨⟨hmain, hsame, hlinks⟩, hchosen⟩
  dsimp only at hmain hsame hlinks hchosen ⊢
  subst hchosen
  apply keeps_bind (keeps_work (Discovery.keeps_findTests World.steady_within hh _ _))
  rintro ⟨filled, tests⟩ ⟨⟨hfilled, hsame', hfiles, hlinks'⟩, hchosen⟩
  dsimp only at hfilled hsame' hfiles hlinks' hchosen ⊢
  subst hchosen
  refine keeps_pure ⟨filled, ⟨⟨hfiles ▸ hmain, hfilled⟩, fun hl => ?_, hlinks'.trans hlinks⟩, ?_⟩
  · obtain rfl := hsame hl.1
    exact hsame' hl.2
  · rw [← hfiles]
    rfl

theorem keeps_discoverFirst (hs : std.Fair) (session : Session ε) :
    Keeps (Coordinator.Within std machine passes base) (discoverFirst session)
      fun first => ∃ found, Discovered session (found, found.chosen) ∧
        first = { found with found := some found.chosen } := by
  apply keeps_bind (keeps_discover hs session)
  rintro ⟨found, candidates⟩ hd
  apply keeps_bind (keeps_note Coordinator.lenient_within _ _)
  intro _ _
  refine keeps_pure ?_
  obtain ⟨state, hf, he⟩ := hd
  cases he
  exact ⟨_, ⟨state, hf, rfl⟩, rfl⟩

end Flow

section Again

variable {ε : Type}

namespace Discovery

theorem exec_findMain_of_listed {plan : Plan} {state : RunState} (hydrator : Hydrator ε)
    (h : state.sourceFiles.isSome) (world : World ε) :
    ∃ metrics log, exec (findMain hydrator plan state) world =
      (.ok (state, Candidate.select plan.dir (state.sourceFiles.getD []) plan.filter),
        { world with metrics, log }) := by
  obtain ⟨files, hf⟩ := Option.isSome_iff_exists.mp h
  have hfill : fillMain hydrator plan state = pure state := by
    simp only [fillMain, hf]
  rw [findMain, hfill]
  exact ⟨_, _, rfl⟩

theorem exec_findTests_of_listed {plan : Plan} {state : RunState} (hydrator : Hydrator ε)
    (h : plan.test.isSome → state.testFiles.isSome) (world : World ε) :
    ∃ metrics log, exec (findTests hydrator plan state) world =
      (.ok (state, match plan.test with
        | none => []
        | some test => Candidate.select plan.dir (state.testFiles.getD []) test.filter),
        { world with metrics, log }) := by
  unfold findTests
  cases ht : plan.test with
  | none => exact ⟨_, _, rfl⟩
  | some test =>
    obtain ⟨files, hf⟩ := Option.isSome_iff_exists.mp (h (by simp [ht]))
    have hfill : fillTests hydrator plan test state = pure state := by
      simp only [fillTests, hf]
    dsimp only
    rw [hfill]
    exact ⟨_, _, rfl⟩

end Discovery

namespace Flow

theorem exec_work {α : Type} {work : Work ε α} {result : Except Failure α} {world : World ε}
    {c : Coordinator ε} (h : exec work c.world = (result, world)) :
    exec (Flow.work work) c = (result, { c with world }) := by
  have hr : work.run.run c.world = (result, world) := h
  simp only [Flow.work, exec_mk, hr]

theorem work_eq_ok {α : Type} {doing : Work ε α} {a : α} {c c' : Coordinator ε}
    (h : exec (work doing) c = (.ok a, c')) :
    ∃ world, exec doing c.world = (.ok a, world) ∧ c' = { c with world } := by
  obtain ⟨hresult, rfl⟩ := Prod.mk.inj h
  exact ⟨_, Prod.ext hresult rfl, rfl⟩

-- Once the lists are filled, discovery reads nothing but them.
theorem exec_discover_of_listed (session : Session ε)
    (h : session.state.Listed session.plan) (c : Coordinator ε) :
    ∃ metrics log, exec (discover session) c =
      (.ok (session, session.chosen), { c with world := { c.world with metrics, log } }) := by
  obtain ⟨metrics, log, hm⟩ := Discovery.exec_findMain_of_listed c.hydrator h.1 c.world
  obtain ⟨metrics', log', ht⟩ := Discovery.exec_findTests_of_listed c.hydrator h.2
    { c.world with metrics, log }
  refine ⟨metrics', log', ?_⟩
  rw [discover, exec_bind_of_ok (exec_get c), exec_bind_of_ok (exec_work hm),
    exec_bind_of_ok (exec_work ht)]
  rfl

end Flow

end Again

end DocPipeline
