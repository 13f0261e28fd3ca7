import DocPipeline.Proofs.Coordinator.Course
import DocPipeline.Proofs.Parsing.Shadow
import DocPipeline.Proofs.Plugin.Steady
import DocPipeline.Proofs.Publish.Veil

namespace DocPipeline

variable {ε : Type} {alike : ε → ε → Prop} {places published : Location → Prop}
  {seen : Database → Database}

-- No file among the candidates is at one of the places.
def Candidates.Avoid (candidates : Candidates) (places : Location → Prop) (tree : Tree) : Prop :=
  ∀ file ∈ candidates.main ++ candidates.tests, ∀ location entry,
    tree.find file.absolute = .ok (location, entry) → ¬ places location

-- Both documents are written to the same place, and the place is all that tells the trees apart.
theorem JsonPublisher.publish_shadows (publisher : JsonPublisher) (plan : Plan) (package : Package)
    (state : RunState) {world shadow : World ε} (hw : world.Shadows alike places seen shadow)
    (hlands : ∀ location, (prepared world.tree plan.destination).Lands (publisher.target plan)
      location → places location) :
    ((publisher.publish plan package).run state world).Shadows alike places seen id
      ((publisher.publish plan.hidden package).run state shadow) := by
  obtain ⟨log, hleft⟩ := publisher.run_publish plan package state world
  obtain ⟨log', hright⟩ := publisher.run_publish plan.hidden package state shadow
  obtain ⟨hresult, htree⟩ := sameBut_writeInto hw.tree hlands
    (publisher.published plan package state world.store.db)
    (publisher.published plan.hidden package state shadow.store.db)
  rw [hleft, hright]
  exact ⟨hresult, fun _ _ => rfl, fun _ _ => ⟨htree, hw.db, hw.changes, hw.signals, hw.host⟩⟩

namespace Session

-- The session of the second run.
def hidden (session : Session ε) : Session ε := { session with plan := session.plan.hidden }

-- Files are parsed and published by what comes with the program.
structure Bundled (session : Session ε) : Prop where
  runtime : session.runtime = fileRuntime
  publisher : ∃ publisher : JsonPublisher, session.publisher = publisher.publish

-- The location in a tree that the session's document is written to.
def Publishes (session : Session ε) (tree : Tree) (location : Location) : Prop :=
  ∃ publisher : JsonPublisher, session.publisher = publisher.publish ∧
    (JsonPublisher.prepared tree session.plan.destination).Lands (publisher.target session.plan)
      location

end Session

namespace Coordinator

-- Everything that the run may call is steady.
structure Steady (alike : ε → ε → Prop) (published : Location → Prop) (c : Coordinator ε) :
    Prop where
  registered : ∀ plugin ∈ c.dispatcher.plugins, plugin.Steady alike published
  waiting : ∀ plugin ∈ c.waiting, plugin.Steady alike published
  hydrator : ∀ dir patterns, (c.hydrator dir patterns).Steady alike published fun _ => True
  runtimes : Factory.Steady alike published (· = fileRuntime) c.registry.runtimes
  publishers : Factory.Steady alike published
    (fun publish => ∃ publisher : JsonPublisher, publish = publisher.publish) c.registry.publishers
  plugins : Factory.Steady alike published (Plugin.Steady alike published) c.registry.plugins

-- The coordinator of the second run beside that of the first.
structure Shadows (alike : ε → ε → Prop) (published places : Location → Prop)
    (seen : Database → Database) (c d : Coordinator ε) : Prop where
  steady : c.Steady alike published
  known : ∀ location, places location → published location
  world : c.world.Shadows alike places seen d.world
  same : d = { c with world := d.world, plan := d.plan }

variable {c d : Coordinator ε}

theorem Steady.of_plugins {c' : Coordinator ε} (h : c.Steady alike published)
    (registered : ∀ plugin ∈ c'.dispatcher.plugins, plugin.Steady alike published)
    (waiting : ∀ plugin ∈ c'.waiting, plugin.Steady alike published)
    (hydrator : c'.hydrator = c.hydrator) (registry : c'.registry = c.registry) :
    c'.Steady alike published :=
  ⟨registered, waiting, hydrator ▸ h.hydrator, registry ▸ h.runtimes, registry ▸ h.publishers,
    registry ▸ h.plugins⟩

theorem Steady.of_same {c' : Coordinator ε} (h : c.Steady alike published)
    (dispatcher : c'.dispatcher = c.dispatcher) (waiting : c'.waiting = c.waiting)
    (hydrator : c'.hydrator = c.hydrator) (registry : c'.registry = c.registry) :
    c'.Steady alike published :=
  h.of_plugins (dispatcher ▸ h.registered) (waiting ▸ h.waiting) hydrator registry

-- What comes with the program is steady.
theorem steady_builtin (registered : c.dispatcher.plugins = [])
    (waiting : ∀ plugin ∈ c.waiting, plugin.Steady alike published)
    (hydrator : c.hydrator = fileHydrator) (registry : c.registry = .builtin) :
    c.Steady alike published := by
  refine ⟨by simp [registered], waiting, hydrator ▸ fileHydrator_steady, ?_, ?_, ?_⟩
  · rw [registry]
    rintro name factory hfactory options
    rw [Dict.eq_of_get?_singleton hfactory]
    exact Conduct.steady_done rfl
  · rw [registry]
    rintro name factory hfactory options
    rw [Dict.eq_of_get?_singleton hfactory]
    dsimp only
    cases JsonPublisher.ofOptions options with
    | error failure => exact Conduct.steady_fail failure
    | ok publisher => exact Conduct.steady_done ⟨publisher, rfl⟩
  · rw [registry]
    rintro name factory hfactory options
    rw [Dict.eq_of_get?_singleton hfactory]
    exact Conduct.steady_done (Plugin.steady_diagnostics _)

namespace Shadows

theorem machine (h : c.Shadows alike published places seen d) : d.machine = c.machine := by
  rw [h.same]

theorem exists_eq (h : c.Shadows alike published places seen d) :
    ∃ world plan, d = { c with world, plan } := ⟨_, _, h.same⟩

theorem with_world {places' : Location → Prop} {seen' : Database → Database} {world shadow : World ε}
    (h : c.Shadows alike published places seen d)
    (hk : ∀ location, places' location → published location)
    (hw : world.Shadows alike places' seen' shadow) :
    Coordinator.Shadows alike published places' seen' { c with world }
      { d with world := shadow } where
  steady := h.steady.of_same rfl rfl rfl rfl
  known := hk
  world := hw
  same := congrArg (fun d : Coordinator ε => { d with world := shadow }) h.same

theorem note (h : c.Shadows alike published places seen d) (event event' : Event) :
    (c.note event).Shadows alike published places seen (d.note event') :=
  h.with_world h.known (h.world.with_log _ _)

end Shadows

end Coordinator

namespace Flow

variable {α β : Type} {R : α → β → Prop}

-- What the second run does beside the first. Where both fail, they are at the same stage.
abbrev Shadowed (alike : ε → ε → Prop) (published places : Location → Prop)
    (seen : Database → Database) (m : Flow ε α) (n : Flow ε β) (R : α → β → Prop)
    (seen' : Database → Database := seen) : Prop :=
  Lockstep (Coordinator.Shadows alike published places seen) m n R
    (Coordinator.Shadows alike published places seen') fun c d => d.machine = c.machine

theorem shadowed_get : Shadowed alike published places seen (get : Flow ε (Coordinator ε)) get
    (Coordinator.Shadows alike published places seen) :=
  lockstep_get

theorem shadowed_modify {f g : Coordinator ε → Coordinator ε}
    (h : ∀ c d, c.Shadows alike published places seen d →
      (f c).Shadows alike published places seen (g d)) :
    Shadowed alike published places seen (modify f) (modify g) fun _ _ => True :=
  lockstep_modify h

theorem shadowed_throw (failure : Failure) :
    Shadowed alike published places seen (throw failure : Flow ε α) (throw failure : Flow ε β) R
      seen := lockstep_throw failure fun _ _ h => h.machine

theorem shadowed_work {m : Work ε α} {n : Work ε β}
    (h : Work.Shadowed alike places seen m n R) :
    Shadowed alike published places seen (work m) (work n) R := by
  intro c d hcd
  have hends := h c.world d.world hcd.world
  have hm : exec (work m) c = ((exec m c.world).1, { c with world := (exec m c.world).2 }) := rfl
  have hn : exec (work n) d = ((exec n d.world).1, { d with world := (exec n d.world).2 }) := rfl
  rw [hm, hn]
  generalize exec m c.world = left, exec n d.world = right at hends
  cases hends with
  | ok hR hQ => exact .ok hR (hcd.with_world hcd.known hQ)
  | error hE => exact .error hcd.machine

theorem shadowed_note (level level' : Level) (message message' : String) :
    Shadowed (ε := ε) alike published places seen (note level message) (note level' message')
      fun _ _ => True := lockstep_modify fun _ _ h => h.note _ _

theorem shadowed_enter (target : Stage) :
    Shadowed (ε := ε) alike published places seen (enter target) (enter target)
      fun _ _ => True := by
  apply lockstep_bind shadowed_get
  intro c d h
  obtain ⟨shadow, plan, rfl⟩ := h.exists_eq
  dsimp only
  cases c.machine.move target with
  | ok machine =>
    have hmoved : Coordinator.Shadows alike published places seen { c with machine }
        { c with machine, world := shadow, plan } :=
      ⟨h.steady.of_same rfl rfl rfl rfl, h.known, h.world, rfl⟩
    exact lockstep_set (hmoved.note _ _)
  | error failure => exact shadowed_throw failure

theorem shadowed_register {plugin : Plugin ε} (hp : plugin.Steady alike published) :
    Shadowed alike published places seen (register plugin) (register plugin) fun _ _ => True := by
  apply lockstep_bind shadowed_get
  intro c d h
  obtain ⟨shadow, plan, rfl⟩ := h.exists_eq
  dsimp only [Dispatcher.register]
  cases c.dispatcher.destroyed with
  | true => exact shadowed_throw _
  | false =>
    let dispatcher : Dispatcher ε :=
      { plugins := c.dispatcher.plugins ++ [plugin], calls := c.dispatcher.calls }
    have hall : ∀ plugin ∈ dispatcher.plugins, plugin.Steady alike published := by
      intro other hother
      rcases List.mem_append.mp hother with hother | hother
      · exact h.steady.registered other hother
      · exact List.mem_singleton.mp hother ▸ hp
    have hregistered : Coordinator.Shadows alike published places seen { c with dispatcher }
        { c with dispatcher, world := shadow, plan } :=
      ⟨h.steady.of_plugins hall h.steady.waiting rfl rfl, h.known, h.world, rfl⟩
    exact lockstep_set (hregistered.note _ _)

theorem shadowed_dispatch {h : Hook} (occasion : Occasion h) (payload : h.Payload) :
    Shadowed alike published places h.seen (dispatch occasion payload : Flow ε h.Payload)
      (dispatch occasion.hidden (h.hide payload)) fun left right => right = h.hide left := by
  intro c d hcd
  obtain ⟨shadow, plan, rfl⟩ := hcd.exists_eq
  have hc := Dispatcher.callAll_hidden hcd.known occasion hcd.steady.registered payload hcd.world
  simp only [dispatch, exec_mk, Dispatcher.dispatch]
  cases c.dispatcher.destroyed with
  | true => exact .error rfl
  | false =>
    obtain ⟨hplugins, hcalls, ⟨hresult, hpayload, hworld⟩, hleft⟩ := hc
    simp only [Bool.false_eq_true, if_false, hplugins, hcalls, hresult]
    cases hr : (Dispatcher.callAll occasion c.dispatcher.plugins payload c.world).outcome.result with
    | error failure => exact .error rfl
    | ok _ =>
      refine .ok (hpayload _ hr) ⟨?_, hcd.known, hworld _ hr, rfl⟩
      exact hcd.steady.of_plugins hleft hcd.steady.waiting rfl rfl

-- What changes the store in both runs in such a way that it comes to look as it should.
theorem shadowed_editStore (seen' : Database → Database) {edit edit' : StoreEdit}
    (h : ∀ store other : Store, other.db = seen store.db → other.changes = store.changes →
      (other.edit edit').1.db = seen' (store.edit edit).1.db ∧
        (other.edit edit').1.changes = (store.edit edit).1.changes) :
    Shadowed (ε := ε) alike published places seen (editStore edit) (editStore edit')
      (fun _ _ => True) seen' := by
  apply lockstep_bind (R := fun _ _ => True)
  · intro c d hcd
    obtain ⟨hdb, hchanges⟩ := h _ _ hcd.world.db hcd.world.changes
    exact .ok trivial
      (hcd.with_world hcd.known ⟨hcd.world.tree, hdb, hchanges, hcd.world.signals, hcd.world.host⟩)
  · exact fun _ _ _ => lockstep_pure trivial

section Configure

theorem shadowed_applyLogLevel (level : LogLevel) :
    Shadowed (ε := ε) alike published places seen (applyLogLevel level) (applyLogLevel level)
      fun _ _ => True := by
  apply lockstep_bind shadowed_get
  intro c d h
  obtain ⟨shadow, plan, rfl⟩ := h.exists_eq
  dsimp only
  split
  · exact lockstep_bind (lockstep_set (h.with_world h.known (h.world.with_log _ _)))
      fun _ _ _ => shadowed_note _ _ _ _
  · exact lockstep_pure trivial

theorem shadowed_loadRuntime (settings : Settings) :
    Shadowed (ε := ε) alike published places id (loadRuntime settings)
      (loadRuntime settings.hidden) fun a b => b = a ∧ a = fileRuntime := by
  have hruntime : settings.hidden.runtime = settings.runtime := rfl
  unfold loadRuntime
  rw [hruntime]
  cases settings.runtime with
  | none => exact shadowed_throw _
  | some spec =>
    apply lockstep_bind shadowed_get
    intro c d h
    obtain ⟨shadow, plan, rfl⟩ := h.exists_eq
    exact shadowed_work (Registry.shadowed_make h.steady.runtimes h.known _ _ _)

theorem shadowed_registerNamed (spec : CollaboratorSpec) :
    Shadowed (ε := ε) alike published places id (registerNamed spec) (registerNamed spec)
      fun _ _ => True := by
  apply lockstep_bind shadowed_get
  intro c d h
  obtain ⟨shadow, plan, rfl⟩ := h.exists_eq
  apply lockstep_bind (shadowed_work (Registry.shadowed_make h.steady.plugins h.known _ _ _))
  rintro plugin _ ⟨rfl, hplugin⟩
  exact shadowed_register hplugin

theorem shadowed_registerWaiting :
    Shadowed (ε := ε) alike published places id registerWaiting registerWaiting
      fun _ _ => True := by
  apply lockstep_bind shadowed_get
  intro c d h
  obtain ⟨shadow, plan, rfl⟩ := h.exists_eq
  refine lockstep_bind (shadowed_modify ?_) ?_
  · intro c d h
    obtain ⟨shadow, plan, rfl⟩ := h.exists_eq
    exact ⟨h.steady.of_plugins h.steady.registered nofun rfl rfl, h.known, h.world, rfl⟩
  · intro _ _ _
    exact lockstep_forM fun plugin hplugin => shadowed_register (h.steady.waiting plugin hplugin)

-- No document was published yet.
theorem shadowed_loadPackage (hn : ∀ location, ¬ places location) (path : Path) :
    Shadowed (ε := ε) alike published places seen (loadPackage path) (loadPackage path)
      fun a b => b = a := by
  apply lockstep_bind shadowed_get
  intro c d h
  obtain ⟨shadow, plan, rfl⟩ := h.exists_eq
  dsimp only
  rw [h.world.tree.eq hn]
  exact lockstep_bind (shadowed_work (Work.shadowed_noteAll _)) fun _ _ _ => lockstep_pure rfl

theorem shadowed_prepare (hn : ∀ location, ¬ places location) {raw : Json} {shown : Bool}
    (hc : raw.IsCanonical) (hshown : raw.get? "includeSource" = some (.bool shown)) :
    Shadowed (ε := ε) alike published places id (prepare raw) (prepare raw.hidden)
      fun a b => b = (a.1.hidden, a.2) ∧ a.2 = fileRuntime := by
  apply lockstep_bind (shadowed_register (Plugin.steady_diagnostics _))
  intro _ _ _
  apply lockstep_bind shadowed_get
  intro c d h
  obtain ⟨shadow, plan, rfl⟩ := h.exists_eq
  dsimp only
  rw [h.world.tree.eq hn]
  have hload : Work.Shadowed alike places id (Work.act (Settings.load c.world.tree c.dir raw))
      (Work.act (Settings.load c.world.tree c.dir raw.hidden)) fun a b => b = a.hidden :=
    Work.shadowed_act fun log log' => Settings.load_hidden hc hshown log log'
  apply lockstep_bind (shadowed_work hload)
  rintro settings _ rfl
  apply lockstep_bind (shadowed_applyLogLevel settings.logLevel)
  intro _ _ _
  apply lockstep_bind (shadowed_loadRuntime settings)
  rintro runtime _ ⟨rfl, hruntime⟩
  apply lockstep_bind (shadowed_note _ _ _ _)
  intro _ _ _
  apply lockstep_bind (lockstep_forM fun spec _ => shadowed_registerNamed spec)
  intro _ _ _
  apply lockstep_bind shadowed_registerWaiting
  intro _ _ _
  exact lockstep_pure ⟨rfl, hruntime⟩

theorem shadowed_settle (hn : ∀ location, ¬ places location) (settings : Settings)
    {runtime : Runtime} (hr : runtime = fileRuntime) :
    Shadowed (ε := ε) alike published places id (settle settings runtime)
      (settle settings.hidden runtime) fun a b => b = a.hidden ∧ a.Bundled := by
  apply lockstep_bind shadowed_get
  intro c d h
  obtain ⟨shadow, plan, rfl⟩ := h.exists_eq
  have hplan : Work.Shadowed (ε := ε) alike places id
      (Work.act (Plan.ofSettings settings c.dir)) (Work.act (Plan.ofSettings settings.hidden c.dir))
      fun a b => b = (a.1.hidden, a.2) := by
    refine Work.shadowed_act fun log log' => ?_
    rw [Plan.ofSettings, Plan.ofSettings, Settings.plan_hidden]
    cases settings.plan c.dir <;> rfl
  apply lockstep_bind (shadowed_work hplan)
  rintro ⟨plan', state⟩ _ rfl
  apply lockstep_bind (shadowed_applyLogLevel plan'.logLevel)
  intro _ _ _
  apply lockstep_bind shadowed_get
  intro c d h
  obtain ⟨shadow, plan, rfl⟩ := h.exists_eq
  apply lockstep_bind (shadowed_work (Registry.shadowed_make h.steady.publishers h.known _ _ _))
  rintro publisher _ ⟨rfl, hpublisher⟩
  apply lockstep_bind (shadowed_loadPackage hn _)
  rintro _ package rfl
  refine lockstep_bind (shadowed_modify ?_) ?_
  · intro c d h
    obtain ⟨shadow, plan, rfl⟩ := h.exists_eq
    exact ⟨h.steady.of_same rfl rfl rfl rfl, h.known, h.world, rfl⟩
  · intro _ _ _
    exact lockstep_pure ⟨rfl, hr, hpublisher⟩

theorem shadowed_configure (hn : ∀ location, ¬ places location) {raw : Json} {shown : Bool}
    (hc : raw.IsCanonical) (hshown : raw.get? "includeSource" = some (.bool shown)) :
    Shadowed (ε := ε) alike published places id (configure raw) (configure raw.hidden)
      fun a b => b = a.hidden ∧ a.Bundled := by
  apply lockstep_bind (shadowed_prepare hn hc hshown)
  rintro ⟨settings, runtime⟩ _ ⟨rfl, hruntime⟩
  apply lockstep_bind (shadowed_dispatch .handleConfig settings)
  rintro edited _ rfl
  exact shadowed_settle hn edited hruntime

end Configure

section Pass

variable {session : Session ε}

theorem shadowed_discover (session : Session ε) :
    Shadowed alike published places id (discover session) (discover session.hidden)
      fun a b => b = (a.1.hidden, a.2) ∧ (session.Bundled → a.1.Bundled) := by
  apply lockstep_bind shadowed_get
  intro c d h
  obtain ⟨shadow, plan, rfl⟩ := h.exists_eq
  apply lockstep_bind
    (shadowed_work (shadowed_findMain h.steady.hydrator h.known session.plan session.state))
  rintro _ found rfl
  apply lockstep_bind
    (shadowed_work (shadowed_findTests h.steady.hydrator h.known session.plan found.1))
  rintro _ found rfl
  exact lockstep_pure ⟨rfl, fun hb => ⟨hb.runtime, hb.publisher⟩⟩

theorem shadowed_discoverFirst (hb : session.Bundled) :
    Shadowed alike published places id (discoverFirst session) (discoverFirst session.hidden)
      fun a b => b = a.hidden ∧ a.Bundled := by
  apply lockstep_bind (shadowed_discover session)
  rintro ⟨found, candidates⟩ _ ⟨rfl, hfound⟩
  apply lockstep_bind (shadowed_note _ _ _ _)
  intro _ _ _
  exact lockstep_pure ⟨rfl, (hfound hb).runtime, (hfound hb).publisher⟩

theorem shadowed_passCandidates (hb : session.Bundled) (before : RunState) :
    Shadowed alike published places id (passCandidates session before)
      (passCandidates session.hidden before)
      fun a b => b = (a.1.hidden, a.2) ∧ a.1.Bundled := by
  have hdiscover : Shadowed alike published places id (discover { session with found := none })
      (discover { session.hidden with found := none })
      fun a b => b = (a.1.hidden, a.2) ∧ a.1.Bundled :=
    (shadowed_discover { session with found := none }).mono
      (fun a b h => ⟨h.1, h.2 ⟨hb.runtime, hb.publisher⟩⟩) fun _ _ => id
  have hfound : session.hidden.found = session.found := rfl
  have hstate : session.hidden.state = session.state := rfl
  unfold passCandidates
  rw [hfound, hstate]
  cases session.found with
  | none => exact hdiscover
  | some found =>
    dsimp only
    by_cases hfiles : session.state.hasFilesOf before = true
    · rw [if_pos hfiles, if_pos hfiles]
      exact lockstep_pure ⟨rfl, hb.runtime, hb.publisher⟩
    · rw [if_neg hfiles, if_neg hfiles]
      exact hdiscover

theorem shadowed_beginPass (hb : session.Bundled) :
    Shadowed alike published places id (beginPass session) (beginPass session.hidden)
      fun a b => b = (a.1.hidden, a.2) ∧ a.1.Bundled := by
  apply lockstep_bind (shadowed_dispatch (.start session.plan session.package) session.state)
  rintro _ state rfl
  have hbundled : Session.Bundled { session with state } := ⟨hb.runtime, hb.publisher⟩
  exact shadowed_passCandidates hbundled session.state

-- Files are added to equal stores.
theorem shadowed_assemble {m n : Assembling β} (h : Assembly.Shadowed m n) :
    Shadowed (ε := ε) alike published places id (assemble m) (assemble n) fun a b => b = a := by
  refine lockstep_bind shadowed_get ?_
  intro c d hcd
  obtain ⟨shadow, plan, rfl⟩ := hcd.exists_eq
  have hends := h ⟨c.world.store, c.world.metrics, c.world.log, []⟩
    ⟨shadow.store, shadow.metrics, shadow.log, []⟩ ⟨hcd.world.store_eq, rfl⟩
  have hassemble : ∀ (world : World ε) (assembling : Assembling β), world.assemble assembling =
      let ends := exec assembling ⟨world.store, world.metrics, world.log, []⟩
      (ends.1, ends.2.skipped,
        { world with store := ends.2.store, metrics := ends.2.metrics, log := ends.2.log }) :=
    fun _ _ => rfl
  simp only [hassemble]
  generalize exec m ⟨c.world.store, c.world.metrics, c.world.log, []⟩ = left,
    exec n ⟨shadow.store, shadow.metrics, shadow.log, []⟩ = right at hends
  have hadded : ∀ {a b : Assembly}, Assembly.Alike a b → Coordinator.Shadows alike published places id
      { c with world := { c.world with store := a.store, metrics := a.metrics, log := a.log } }
      { c with
        plan
        world := { shadow with store := b.store, metrics := b.metrics, log := b.log } } := by
    intro a b hab
    exact hcd.with_world hcd.known ⟨hcd.world.tree, congrArg Store.db hab.1,
      congrArg Store.changes hab.1, hcd.world.signals, hcd.world.host⟩
  cases hends with
  | ok _ hQ => exact lockstep_bind (lockstep_set (hadded hQ)) fun _ _ _ => lockstep_pure hQ.2
  | error hE => exact lockstep_bind (lockstep_set (hadded hE)) fun _ _ _ => shadowed_throw _

variable {candidates : Candidates} {tree : Tree}

-- Whatever was published is not parsed.
theorem shadowed_parseFiles (hb : session.Bundled) (ha : candidates.Avoid places tree) :
    Lockstep (fun c d : Coordinator ε =>
        c.Shadows alike published places id d ∧ c.world.tree = tree)
      (parseFiles session candidates) (parseFiles session.hidden candidates) (fun a b => b = a)
      (Coordinator.Shadows alike published places id) fun c d => d.machine = c.machine := by
  rintro c d ⟨hcd, rfl⟩
  obtain ⟨shadow, plan, rfl⟩ := hcd.exists_eq
  have hagree : ∀ file ∈ candidates.main ++ candidates.tests,
      (Sources.of c.world.tree session.plan session.runtime session.package).Agree
        (Sources.of shadow.tree session.hidden.plan session.runtime session.package) file := by
    intro file hfile
    rw [hb.runtime]
    exact fileRuntime_agree hcd.world.tree (ha file hfile) session.plan session.package
  rw [parseFiles, parseFiles, exec_bind_of_ok (exec_get _), exec_bind_of_ok (exec_get _)]
  refine shadowed_assemble ?_ c _ hcd
  refine lockstep_bind (Assembly.shadowed_addEach fun file hfile =>
    Assembly.shadowed_addSource (hagree file (List.mem_append_left _ hfile))) ?_
  rintro _ n rfl
  have htest : session.hidden.plan.test = session.plan.test := rfl
  rw [htest]
  cases session.plan.test with
  | none => exact lockstep_pure rfl
  | some test =>
    refine lockstep_bind (Assembly.shadowed_addEach fun file hfile =>
      Assembly.shadowed_addTest (hagree file (List.mem_append_right _ hfile)) test.type) ?_
    rintro _ m rfl
    exact lockstep_pure rfl

theorem shadowed_parse (hb : session.Bundled) (ha : candidates.Avoid places tree) :
    Lockstep (fun c d : Coordinator ε =>
        c.Shadows alike published places id d ∧ c.world.tree = tree)
      (parse session candidates) (parse session.hidden candidates)
      (fun a b => b = a.hidden ∧ a.Bundled)
      (Coordinator.Shadows alike published places id) fun c d => d.machine = c.machine := by
  apply lockstep_bind (shadowed_parseFiles hb ha)
  rintro _ skipped rfl
  apply lockstep_bind (shadowed_dispatch (.handleVirtual session.plan) ([] : List Fragment))
  rintro _ fragments rfl
  have hfragments : Shadowed alike published places id (parseFragments session fragments)
      (parseFragments session.hidden fragments) fun a b => b = a := by
    apply lockstep_bind shadowed_get
    intro c d h
    exact shadowed_assemble (Assembly.shadowed_addEach fun fragment _ =>
      Assembly.shadowed_addFragment rfl rfl fragment)
  apply lockstep_bind hfragments
  rintro _ skippedFragments rfl
  exact lockstep_pure ⟨rfl, hb.runtime, hb.publisher⟩

theorem exec_withoutSource (plan : Plan) (records : List Record) (c : Coordinator ε) :
    ∃ log, exec (withoutSource plan records) c =
      (.ok (if plan.includeSource then records else records.map Record.blankSource),
        { c with world := { c.world with log } }) := by
  unfold withoutSource
  cases plan.includeSource with
  | true => exact ⟨c.world.log, rfl⟩
  | false => exact ⟨_, rfl⟩

-- Whether or not the first run keeps source text, the second blanks it.
theorem shadowed_withoutSource (plan : Plan) (records : List Record) :
    Shadowed (ε := ε) alike published places seen (withoutSource plan records)
      (withoutSource plan.hidden records) fun a b => b = a.map Record.blankSource := by
  intro c d h
  obtain ⟨log, hleft⟩ := exec_withoutSource plan records c
  obtain ⟨log', hright⟩ := exec_withoutSource plan.hidden records d
  rw [hleft, hright]
  refine .ok ?_ (h.with_world h.known (h.world.with_log _ _))
  change records.map Record.blankSource = _
  cases plan.includeSource with
  | true => rfl
  | false => exact (Record.map_blankSource_blankSource records).symm

theorem shadowed_editRecords (plan : Plan) :
    Shadowed (ε := ε) alike published places id (editRecords plan) (editRecords plan.hidden)
      (fun _ _ => True) Database.blanked := by
  apply lockstep_bind shadowed_get
  intro c d h
  dsimp only
  rw [h.world.store_eq]
  refine lockstep_bind
    (shadowed_editStore id fun store other hdb hchanges => ⟨?_, hchanges⟩) ?_
  · simp only [Store.edit, Store.take, hdb, id_eq]
  intro _ _ _
  apply lockstep_bind (shadowed_dispatch (.handleDocData plan) c.world.store.db.records)
  rintro _ records rfl
  apply lockstep_bind (shadowed_withoutSource plan records)
  rintro kept _ rfl
  refine lockstep_bind (shadowed_editStore Database.blanked
    fun store other hdb hchanges => ?_) fun _ _ _ => ?_
  · simp only [Store.edit, Store.replace, hdb, hchanges, List.length_map]
    exact ⟨rfl, trivial⟩
  · refine lockstep_bind (shadowed_dispatch (.handleDocDb plan) ()) fun _ _ _ => ?_
    exact lockstep_bind shadowed_get fun _ _ _ => shadowed_note _ _ _ _

theorem shadowed_resolve (hb : session.Bundled) :
    Shadowed alike published places Database.blanked (resolve session) (resolve session.hidden)
      fun _ _ => True := by
  apply lockstep_bind shadowed_get
  intro c d h
  have hresolver : session.runtime.resolver = indexResolver := by rw [hb.runtime]; rfl
  have hresolver' : session.hidden.runtime.resolver = indexResolver := hresolver
  rw [hresolver, hresolver']
  refine lockstep_bind (shadowed_editStore Database.blanked fun store other hdb hchanges => ?_)
    fun _ _ _ => lockstep_pure trivial
  simp only [Store.edit, Store.update, indexResolver, hdb, hchanges, Database.reindex_blanked,
    Change.between_blanked]
  exact ⟨trivial, trivial⟩

theorem shadowed_preparePublishing (plan : Plan) :
    Shadowed (ε := ε) alike published places seen (preparePublishing plan)
      (preparePublishing plan.hidden) fun _ _ => True := by
  have hempty : Shadowed (ε := ε) alike published places seen (emptyDestination plan)
      (emptyDestination plan.hidden) fun _ _ => True := by
    unfold emptyDestination
    have hsame : plan.hidden.emptyDestination = plan.emptyDestination := rfl
    rw [hsame]
    split
    · apply lockstep_bind shadowed_get
      intro c d h
      obtain ⟨shadow, plan', rfl⟩ := h.exists_eq
      obtain ⟨hresult, htree⟩ := h.world.tree.empty plan.destination c.dir
      have hdestination : plan.hidden.destination = plan.destination := rfl
      dsimp only
      rw [hdestination, hresult]
      refine lockstep_bind (lockstep_set (h.with_world h.known ⟨htree, h.world.db, h.world.changes,
        h.world.signals, h.world.host⟩)) fun _ _ _ => ?_
      cases (Destination.empty c.world.tree plan.destination c.dir).2 with
      | error failure => exact shadowed_throw failure
      | ok emptied =>
        dsimp only
        split
        · exact shadowed_note _ _ _ _
        · exact lockstep_pure trivial
    · exact lockstep_pure trivial
  exact lockstep_bind hempty fun _ _ _ => shadowed_note _ _ _ _

end Pass

section Publish

variable {session : Session ε} {tree : Tree}

theorem shadowed_callPublisher (hb : session.Bundled)
    (hk : ∀ location, session.Publishes tree location → published location) :
    Lockstep (fun c d : Coordinator ε =>
        c.Shadows alike published places Database.blanked d ∧ c.world.tree = tree)
      (callPublisher session) (callPublisher session.hidden) (fun a b => b = a)
      (Coordinator.Shadows alike published
        (fun location => places location ∨ session.Publishes tree location) Database.blanked)
      fun c d => d.machine = c.machine := by
  rintro c d ⟨hcd, rfl⟩
  obtain ⟨shadow, plan, rfl⟩ := hcd.exists_eq
  obtain ⟨publisher, hpublisher⟩ := hb.publisher
  have hworld : c.world.Shadows alike
      (fun location => places location ∨ session.Publishes c.world.tree location) Database.blanked
      shadow :=
    hcd.world.mono fun _ => Or.inl
  obtain ⟨hresult, hpayload, hleft⟩ := publisher.publish_shadows session.plan session.package
    session.state hworld fun _ hlands => .inr ⟨publisher, hpublisher, hlands⟩
  simp only [callPublisher, Session.hidden, exec_mk, hpublisher, hresult]
  cases hr : ((publisher.publish session.plan session.package).run session.state c.world).result with
  | error failure => exact .error rfl
  | ok _ =>
    refine .ok (hpayload _ hr) (hcd.with_world (fun location hlocation => ?_) (hleft _ hr))
    exact hlocation.elim (hcd.known location) (hk location)

theorem shadowed_reportPass (session : Session ε) :
    Shadowed alike published places seen (reportPass session) (reportPass session.hidden)
      fun _ _ => True := by
  have hcoverage : session.hidden.plan.docCoverage = session.plan.docCoverage := rfl
  have hstate : session.hidden.state = session.state := rfl
  unfold reportPass
  rw [hcoverage, hstate]
  cases session.plan.docCoverage with
  | false =>
    cases session.state.invalidCodeReport? with
    | none => exact lockstep_pure trivial
    | some report => exact shadowed_note _ _ _ _
  | true =>
    refine lockstep_bind shadowed_get fun _ _ _ =>
      lockstep_bind (shadowed_note _ _ _ _) fun _ _ _ => ?_
    cases session.state.invalidCodeReport? with
    | none => exact lockstep_pure trivial
    | some report => exact shadowed_note _ _ _ _

theorem shadowed_publish (hb : session.Bundled)
    (hk : ∀ location, session.Publishes tree location → published location) :
    Lockstep (fun c d : Coordinator ε =>
        c.Shadows alike published places Database.blanked d ∧ c.world.tree = tree)
      (publish session) (publish session.hidden) (fun a b => b = a.hidden ∧ a.Bundled)
      (Coordinator.Shadows alike published
        (fun location => places location ∨ session.Publishes tree location) Database.blanked)
      fun c d => d.machine = c.machine := by
  apply lockstep_bind (shadowed_callPublisher hb hk)
  rintro _ state rfl
  exact lockstep_bind (shadowed_reportPass { session with state }) fun _ _ _ =>
    lockstep_pure ⟨rfl, hb.runtime, hb.publisher⟩

end Publish

section Complete

variable {session : Session ε}

theorem shadowed_mintHandle : Shadowed (ε := ε) alike published places seen mintHandle mintHandle
    fun a b => b = a := by
  refine lockstep_modifyGet fun c d h => ?_
  obtain ⟨shadow, plan, rfl⟩ := h.exists_eq
  dsimp only
  rw [h.world.signals]
  exact ⟨rfl, h.with_world h.known (h.world.with_signals _)⟩

theorem shadowed_dropHandle (handle : Handle) :
    Shadowed (ε := ε) alike published places seen (dropHandle handle) (dropHandle handle)
      fun _ _ => True := by
  refine shadowed_modify fun c d h => ?_
  obtain ⟨shadow, plan, rfl⟩ := h.exists_eq
  dsimp only
  rw [h.world.signals]
  exact h.with_world h.known (h.world.with_signals _)

theorem shadowed_complete (session : Session ε) :
    Shadowed alike published places Database.blanked (complete session) (complete session.hidden)
      fun a b => b = a := by
  apply lockstep_bind shadowed_mintHandle
  rintro _ handle rfl
  refine lockstep_bind (lockstep_tryCatch
    (shadowed_dispatch (.complete session.plan handle session.reparser) false) fun failure => ?_) ?_
  · refine lockstep_bind (lockstep_modify (Q := fun c d => d.machine = c.machine) fun _ _ h => h)
      fun _ _ _ => ?_
    exact lockstep_throw failure fun _ _ h => h
  · rintro _ keepAlive rfl
    exact lockstep_bind (shadowed_dropHandle handle) fun _ _ _ => lockstep_pure rfl

theorem shadowed_waitForSignal : Shadowed (ε := ε) alike published places seen waitForSignal
    waitForSignal fun a b => b = a := by
  refine lockstep_modifyGet fun c d h => ?_
  obtain ⟨shadow, plan, rfl⟩ := h.exists_eq
  dsimp only
  rw [h.world.signals]
  exact ⟨rfl, h.with_world h.known (h.world.with_signals _)⟩

theorem shadowed_regenerate (hb : session.Bundled) :
    Shadowed alike published places Database.blanked (regenerate session)
      (regenerate session.hidden) (fun a b => b = a.hidden ∧ a.Bundled) id := by
  refine lockstep_bind (shadowed_editStore id fun store other hdb hchanges => ?_) fun _ _ _ => ?_
  · simp only [Store.edit, Store.reset, Store.update, hdb, hchanges]
    exact ⟨rfl, congrArg _ (Change.between_blanked store.db store.db.reset)⟩
  · apply lockstep_bind shadowed_get
    intro c d h
    refine lockstep_bind (shadowed_note _ _ _ _) fun _ _ _ => ?_
    apply lockstep_bind (shadowed_dispatch (.regenerate session.plan session.reparser) { session.state with menuLinks := [] })
    rintro _ state rfl
    exact lockstep_pure ⟨rfl, hb.runtime, hb.publisher⟩

-- The last hook may fail in different worlds; the stage is the same after it.
theorem shadowed_shutDown (plan : Plan) :
    Lockstep (Coordinator.Shadows (ε := ε) alike published places Database.blanked) (shutDown plan)
      (shutDown plan.hidden) (fun _ _ => True) (fun c d => d.machine = c.machine)
      fun c d => d.machine = c.machine := by
  refine lockstep_bind (R := fun a b => b = a) (Q := fun c d => d.machine = c.machine) ?_ ?_
  · refine lockstep_tryCatch ?_ fun failure => lockstep_pure rfl
    have hdispatch : Shadowed (ε := ε) alike published places Database.blanked
        (dispatch (.shutdown (some plan)) () >>= fun _ => pure (.ok () : Except Failure Unit))
        (dispatch (.shutdown (some plan.hidden)) () >>= fun _ => pure (.ok ()))
        fun a b => b = a :=
      lockstep_bind (shadowed_dispatch (.shutdown (some plan)) ()) fun _ _ _ => lockstep_pure rfl
    exact hdispatch.mono (fun _ _ h => h) fun _ _ h => h.machine
  · rintro _ result rfl
    refine lockstep_bind (lockstep_modify (Q := fun c d => d.machine = c.machine) fun _ _ h => h)
      fun _ _ _ => ?_
    refine lockstep_bind lockstep_get fun c d _ => ?_
    refine lockstep_bind (R := fun _ _ => True) (Q := fun c d => d.machine = c.machine)
      (fun _ _ h => .ok trivial h) fun _ _ _ => ?_
    cases result with
    | ok _ => exact lockstep_pure trivial
    | error failure => exact lockstep_throw failure fun _ _ h => h

end Complete

end Flow

end DocPipeline
