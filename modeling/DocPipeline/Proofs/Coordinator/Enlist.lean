import DocPipeline.Proofs.Coordinator.Calls

namespace DocPipeline

variable {ε : Type}

namespace Registry

-- A plugin that the registry has under the name that the configuration uses.
def Supplies (registry : Registry ε) (spec : CollaboratorSpec) (plugin : Plugin ε) : Prop :=
  ∃ factory world, registry.plugins.get? spec.name = some factory ∧
    ((factory (spec.options none)).run () world).result = .ok plugin

theorem loadPlugin_eq_ok {registry : Registry ε} {spec : CollaboratorSpec} {plugin : Plugin ε}
    {world world' : World ε} (h : exec (registry.loadPlugin spec) world = (.ok plugin, world')) :
    registry.Supplies spec plugin := by
  unfold loadPlugin make at h
  cases hf : registry.plugins.get? spec.name with
  | none =>
    rw [hf] at h
    cases h
  | some factory =>
    rw [hf] at h
    dsimp only at h
    rw [exec_tryCatch] at h
    refine ⟨factory, world, hf, ?_⟩
    simp only [Conduct.perform, exec_mk] at h
    generalize (factory (spec.options none)).run () world = outcome at h ⊢
    rcases outcome with ⟨failure | made, left, world₁⟩ <;> cases h
    rfl

end Registry

namespace Coordinator

-- The plugins of a run in their order: the diagnostics, those that the configuration names, and
-- those of the host.
def Enlists (raw : Json) (c : Coordinator ε) (plugins : List (Plugin ε)) : Prop :=
  ∃ settings loaded log log',
    exec (Settings.load c.world.tree c.dir raw) log = (.ok settings, log') ∧
    List.Forall₂ c.registry.Supplies settings.plugins loaded ∧
    plugins = .diagnostics {} :: loaded ++ c.waiting

-- These plugins were added to those that there were, and none was called.
structure Joins (c c' : Coordinator ε) (plugins : List (Plugin ε)) : Prop where
  registry : c'.registry = c.registry
  waiting : c'.waiting = c.waiting
  dispatcher : c'.dispatcher =
    { c.dispatcher with plugins := c.dispatcher.plugins ++ plugins }
  hookInvocations : c'.world.metrics.hookInvocations = c.world.metrics.hookInvocations

theorem SamePlugins.joins {c c' : Coordinator ε} (h : c.SamePlugins c') : c.Joins c' [] :=
  ⟨h.registry, h.waiting, by rw [h.dispatcher, List.append_nil], h.hookInvocations⟩

theorem Joins.trans {c c' c'' : Coordinator ε} {plugins plugins' : List (Plugin ε)}
    (h : c.Joins c' plugins) (h' : c'.Joins c'' plugins') : c.Joins c'' (plugins ++ plugins') :=
  ⟨h'.registry.trans h.registry, h'.waiting.trans h.waiting,
    by rw [h'.dispatcher, h.dispatcher, List.append_assoc],
    h'.hookInvocations.trans h.hookInvocations⟩

theorem Joins.ready {c c' : Coordinator ε} {plugins : List (Plugin ε)} (h : c.Joins c' plugins)
    (hready : c.dispatcher.destroyed = false) : c'.dispatcher.destroyed = false := by
  rw [h.dispatcher]
  exact hready

-- Before the first hook, no plugin was called.
structure Uncalled (c : Coordinator ε) : Prop where
  ready : c.dispatcher.destroyed = false
  calls : c.dispatcher.calls = []
  hookInvocations : c.world.metrics.hookInvocations = 0

theorem Uncalled.of_same {c c' : Coordinator ε} (h : c.Uncalled) (hs : c.SamePlugins c') :
    c'.Uncalled :=
  ⟨hs.dispatcher ▸ h.ready, hs.dispatcher ▸ h.calls, hs.hookInvocations.trans h.hookInvocations⟩

theorem Uncalled.all_counted {c : Coordinator ε} (h : c.Uncalled) :
    c.world.metrics.hookInvocations = c.dispatcher.calls.length := by
  rw [h.hookInvocations, h.calls, List.length_nil]

end Coordinator

namespace Flow

variable {α : Type}

theorem exec_register (plugin : Plugin ε) {c : Coordinator ε}
    (h : c.dispatcher.destroyed = false) :
    exec (register plugin) c = (.ok ⟨⟩, { c with
      dispatcher := { c.dispatcher with plugins := c.dispatcher.plugins ++ [plugin] }
      world := c.world.note (Dispatcher.registerEvent plugin) }) := by
  simp only [register, exec_bind, exec_get, Dispatcher.register, h]
  rfl

theorem register_joins (plugin : Plugin ε) {c : Coordinator ε}
    (h : c.dispatcher.destroyed = false) :
    ∃ c', exec (register plugin) c = (.ok ⟨⟩, c') ∧ c.Joins c' [plugin] :=
  ⟨_, exec_register plugin h, ⟨rfl, rfl, rfl, rfl⟩⟩

theorem keeps_uncalled_register (plugin : Plugin ε) :
    Keeps Coordinator.Uncalled (register plugin) fun _ => True := by
  intro c hc
  obtain ⟨c', he, hj⟩ := register_joins plugin hc.ready
  rw [he]
  refine ⟨⟨hj.ready hc.ready, ?_, hj.hookInvocations.trans hc.hookInvocations⟩, fun _ _ => trivial⟩
  rw [hj.dispatcher]
  exact hc.calls

theorem silent_loadRuntime (settings : Settings) :
    Silent (loadRuntime settings : Flow ε Runtime) := by
  unfold loadRuntime
  cases settings.runtime with
  | none => exact silent_throw _
  | some spec => exact silent_bind silent_get fun _ => silent_make _ _ _

-- What is kept wherever nothing is done with the plugins, and where one is registered, is kept while
-- all of them are loaded, even if that fails.
theorem keeps_prepare_of_register {I : Coordinator ε → Prop}
    (hs : ∀ {c c' : Coordinator ε}, c.SamePlugins c' → I c → I c')
    (hw : ∀ {c : Coordinator ε}, I c → I { c with waiting := [] })
    (hr : ∀ plugin, Keeps I (register plugin) fun _ => True) (raw : Json) :
    Keeps I (prepare raw : Flow ε (Settings × Runtime)) fun _ => True := by
  apply keeps_bind (hr _)
  intro _ _
  apply keeps_bind (silent_get.keeps hs)
  intro c _
  apply keeps_bind ((silent_act _).keeps hs)
  intro settings _
  apply keeps_bind ((silent_of_lenient fun hI => keeps_applyLogLevel hI _).keeps hs)
  intro _ _
  apply keeps_bind ((silent_loadRuntime settings).keeps hs)
  intro runtime _
  apply keeps_bind ((silent_note _ _).keeps hs)
  intro _ _
  have hnamed : ∀ spec, Keeps I (registerNamed spec : Flow ε Unit) fun _ => True := fun spec =>
    keeps_bind (silent_get.keeps hs) fun _ _ =>
      keeps_bind ((silent_make _ _ _).keeps hs) fun plugin _ => hr plugin
  apply keeps_bind (keeps_forM fun spec _ => hnamed spec)
  intro _ _
  have hwaiting : Keeps I (registerWaiting : Flow ε Unit) fun _ => True :=
    keeps_bind (silent_get.keeps hs) fun _ _ =>
      keeps_bind (keeps_modify fun _ h => hw h) fun _ _ => keeps_forM fun plugin _ => hr plugin
  exact keeps_bind hwaiting fun _ _ => keeps_pure trivial

-- While plugins are loaded none is called.
theorem keeps_uncalled_prepare (raw : Json) :
    Keeps Coordinator.Uncalled (prepare raw : Flow ε (Settings × Runtime)) fun _ => True :=
  keeps_prepare_of_register (fun hsame h => h.of_same hsame)
    (fun h => ⟨h.ready, h.calls, h.hookInvocations⟩) keeps_uncalled_register raw

theorem forM_register_joins (plugins : List (Plugin ε)) {c : Coordinator ε}
    (h : c.dispatcher.destroyed = false) :
    ∃ c', exec (plugins.forM register) c = (.ok ⟨⟩, c') ∧ c.Joins c' plugins := by
  induction plugins generalizing c with
  | nil => exact ⟨c, rfl, (Coordinator.SamePlugins.refl c).joins⟩
  | cons plugin rest ih =>
    obtain ⟨c₁, hfirst, hj₁⟩ := register_joins plugin h
    obtain ⟨c₂, hrest, hj₂⟩ := ih (hj₁.ready h)
    exact ⟨c₂, (exec_bind_of_ok hfirst _).trans hrest, hj₁.trans hj₂⟩

theorem registerNamed_eq_ok {spec : CollaboratorSpec} {c c' : Coordinator ε}
    (hready : c.dispatcher.destroyed = false)
    (h : exec (registerNamed spec) c = (.ok ⟨⟩, c')) :
    ∃ plugin, c.registry.Supplies spec plugin ∧ c.Joins c' [plugin] := by
  rw [registerNamed, exec_bind_of_ok (exec_get c)] at h
  obtain ⟨plugin, c₁, hload, hregister⟩ := exec_bind_eq_ok h
  have hsame : c.SamePlugins c₁ := (silent_make _ _ _).of_ok hload
  obtain ⟨c₂, he, hj⟩ := register_joins plugin (hsame.joins.ready hready)
  rw [he] at hregister
  cases hregister
  obtain ⟨world, hloaded, -⟩ := work_eq_ok hload
  exact ⟨plugin, Registry.loadPlugin_eq_ok hloaded, hsame.joins.trans hj⟩

theorem forM_registerNamed_eq_ok {specs : List CollaboratorSpec} {c c' : Coordinator ε}
    (hready : c.dispatcher.destroyed = false)
    (h : exec (specs.forM registerNamed) c = (.ok ⟨⟩, c')) :
    ∃ loaded, List.Forall₂ c.registry.Supplies specs loaded ∧ c.Joins c' loaded := by
  induction specs generalizing c with
  | nil =>
    cases h
    exact ⟨[], .nil, (Coordinator.SamePlugins.refl _).joins⟩
  | cons spec specs ih =>
    obtain ⟨_, c₁, hfirst, hrest⟩ := exec_bind_eq_ok h
    obtain ⟨plugin, hsupplies, hj₁⟩ := registerNamed_eq_ok hready hfirst
    obtain ⟨loaded, hall, hj₂⟩ := ih (hj₁.ready hready) hrest
    rw [hj₁.registry] at hall
    exact ⟨plugin :: loaded, .cons hsupplies hall, hj₁.trans hj₂⟩

theorem registerWaiting_joins {c : Coordinator ε} (h : c.dispatcher.destroyed = false) :
    ∃ c', exec registerWaiting c = (.ok ⟨⟩, c') ∧
      Coordinator.Joins { c with waiting := [] } c' c.waiting :=
  forM_register_joins c.waiting (c := { c with waiting := [] }) h

-- What is registered when everything is loaded.
theorem prepare_eq_ok {raw : Json} {c c' : Coordinator ε} {loaded : Settings × Runtime}
    (hc : c.dispatcher = {}) (h : exec (prepare raw) c = (.ok loaded, c')) :
    c.Enlists raw c'.dispatcher.plugins := by
  have hready : c.dispatcher.destroyed = false := by rw [hc]
  obtain ⟨first, hfirst, hj, htree, hdir⟩ : ∃ first, exec (register (.diagnostics {})) c =
      (.ok ⟨⟩, first) ∧ c.Joins first [.diagnostics {}] ∧ first.world.tree = c.world.tree ∧
      first.dir = c.dir :=
    ⟨_, exec_register _ hready, ⟨rfl, rfl, rfl, rfl⟩, rfl, rfl⟩
  rw [prepare, exec_bind_of_ok hfirst, exec_bind_of_ok (exec_get first)] at h
  obtain ⟨settings, c₁, hload, h⟩ := exec_bind_eq_ok h
  obtain ⟨_, c₂, hlevel, h⟩ := exec_bind_eq_ok h
  obtain ⟨runtime, c₃, hruntime, h⟩ := exec_bind_eq_ok h
  obtain ⟨_, c₄, hnote, h⟩ := exec_bind_eq_ok h
  obtain ⟨_, c₅, hnamed, h⟩ := exec_bind_eq_ok h
  obtain ⟨_, c₆, hwaiting, h⟩ := exec_bind_eq_ok h
  cases h
  have hlevelled : Silent (applyLogLevel settings.logLevel : Flow ε Unit) :=
    silent_of_lenient fun hI => keeps_applyLogLevel hI _
  have hsame : first.SamePlugins c₄ := ((silent_act _).of_ok hload).trans
    ((hlevelled.of_ok hlevel).trans
      (((silent_loadRuntime settings).of_ok hruntime).trans ((silent_note _ _).of_ok hnote)))
  have hj₄ : c.Joins c₄ [.diagnostics {}] := hj.trans hsame.joins
  obtain ⟨listed, hall, hlisted⟩ := forM_registerNamed_eq_ok (hj₄.ready hready) hnamed
  have hj₅ := hj₄.trans hlisted
  obtain ⟨c₇, hlast, hj₇⟩ := registerWaiting_joins (hj₅.ready hready)
  rw [hlast] at hwaiting
  cases hwaiting
  obtain ⟨world, hsettings, -⟩ := work_eq_ok hload
  rw [htree, hdir] at hsettings
  rw [hj₄.registry] at hall
  refine ⟨settings, listed, first.world.log, world.log, ?_, hall, ?_⟩
  · obtain ⟨hresult, rfl⟩ := Prod.mk.inj hsettings
    exact Prod.ext hresult rfl
  · rw [hj₇.dispatcher]
    dsimp only
    rw [hj₅.dispatcher, hj₅.waiting, hc]
    rfl

-- The first hook is called when all plugins are registered, and fails like any other.
theorem configure_hooks {raw : Json} {c : Coordinator ε} (hd : c.dispatcher = {})
    (hcount : c.world.metrics.hookInvocations = 0) :
    (∀ session c', exec (configure raw) c = (.ok session, c') → ∃ plugins,
      c.Enlists raw plugins ∧ c'.Calling (plugins.map Plugin.name) ∧
      c'.dispatcher.calls = answered (plugins.map Plugin.name) [.handleConfig] ∧
      c'.world.metrics.hookInvocations = c'.dispatcher.calls.length) ∧
    ∀ failure c', exec (configure raw) c = (.error failure, c') →
      c'.world.metrics.hookInvocations = c'.dispatcher.calls.length ∧
      (c'.dispatcher.calls = [] ∨ ∃ plugins, c.Enlists raw plugins ∧
        Stops (plugins.map Plugin.name) [.handleConfig] failure c'.dispatcher.calls) := by
  have huncalled : c.Uncalled := ⟨by rw [hd], by rw [hd], hcount⟩
  have hprepared := (keeps_uncalled_prepare raw c huncalled).1
  rcases hp : exec (prepare raw) c with ⟨failure | ⟨settings, runtime⟩, c₁⟩ <;> rw [hp] at hprepared
  · rw [configure, exec_bind_of_error hp]
    refine ⟨fun _ _ h => (nomatch h), ?_⟩
    rintro _ _ ⟨⟩
    exact ⟨hprepared.all_counted, .inl hprepared.calls⟩
  · have henlists := prepare_eq_ok hd hp
    have hrest : Calls (c₁.dispatcher.plugins.map Plugin.name) [.handleConfig] (do
        let settings : Settings ← dispatch .handleConfig settings
        settle settings runtime : Flow ε (Session ε)) :=
      calls_then (calls_dispatch _ _) fun _ => silent_settle _ _
    obtain ⟨hok, herror⟩ := hrest c₁ ⟨rfl, hprepared.ready⟩
    rw [configure, exec_bind_of_ok hp]
    -- What was made after this was made in all.
    have hall : ∀ {made c'}, c₁.Made c' made → c'.dispatcher.calls = made := by
      intro made c' hmade
      rw [hmade.calls, hprepared.calls, List.nil_append]
    constructor
    · intro session c' he
      obtain ⟨hcalling, hmade⟩ := hok session c' he
      exact ⟨_, henlists, hcalling, hall hmade, hmade.all_counted hprepared.all_counted⟩
    · intro failure c' he
      obtain ⟨made, hstops, hmade⟩ := herror failure c' he
      exact ⟨hmade.all_counted hprepared.all_counted, .inr ⟨_, henlists, hall hmade ▸ hstops⟩⟩

end Flow

end DocPipeline
