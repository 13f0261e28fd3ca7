import DocPipeline.Discovery.Find
import DocPipeline.Proofs.Conduct
import DocPipeline.Proofs.Config.Hidden
import DocPipeline.Proofs.Database.Blank
import DocPipeline.Proofs.Discovery.Veil
import DocPipeline.Proofs.Lockstep
import DocPipeline.Registry

namespace DocPipeline

variable {ε π α : Type}

def Reparser.hidden (reparser : Reparser) : Reparser :=
  { reparser with plan := reparser.plan.hidden }

-- What plugins are told in the second run.
def Occasion.hidden : {h : Hook} → Occasion h → Occasion h
  | _, .handleConfig => .handleConfig
  | _, .start plan package => .start plan.hidden package
  | _, .handleVirtual plan => .handleVirtual plan.hidden
  | _, .handleDocData plan => .handleDocData plan.hidden
  | _, .handleDocDb plan => .handleDocDb plan.hidden
  | _, .complete plan handle reparser => .complete plan.hidden handle reparser.hidden
  | _, .regenerate plan reparser => .regenerate plan.hidden reparser.hidden
  | _, .shutdown plan => .shutdown (plan.map Plan.hidden)

namespace Hook

-- What they are lent there.
def hide : (h : Hook) → h.Payload → h.Payload
  | .handleConfig, settings => Settings.hidden settings
  | .start, state => state
  | .handleVirtual, fragments => fragments
  | .handleDocData, records => records
  | .handleDocDb, () => ()
  | .complete, keepAlive => keepAlive
  | .regenerate, state => state
  | .shutdown, () => ()

-- The database as the second run has it at a hook.
def seen : Hook → Database → Database
  | .handleDocDb | .complete | .shutdown => Database.blanked
  | _ => id

end Hook

-- The world of the second run beside that of the first. Documents were published at some places, and
-- what collaborators remember in both is alike.
structure World.Shadows (alike : ε → ε → Prop) (places : Location → Prop)
    (seen : Database → Database) (world shadow : World ε) : Prop where
  tree : world.tree.SameBut places shadow.tree
  db : shadow.store.db = seen world.store.db
  changes : shadow.store.changes = world.store.changes
  signals : shadow.signals = world.signals
  host : alike world.host shadow.host

-- Both runs have the same answer, and if it is no failure, they go on side by side.
structure Conduct.Outcome.Shadows (alike : ε → ε → Prop) (places : Location → Prop)
    (seen : Database → Database) (hide : π → π) (outcome shadow : Conduct.Outcome ε π α) :
    Prop where
  result : shadow.result = outcome.result
  payload : ∀ value, outcome.result = .ok value → shadow.payload = hide outcome.payload
  world : ∀ value, outcome.result = .ok value →
    outcome.world.Shadows alike places seen shadow.world

variable {alike : ε → ε → Prop} {places published : Location → Prop} {seen : Database → Database}
  {world shadow : World ε}

-- In the second run source text was blanked, and the documents that were published differ. A steady
-- plugin makes nothing of that, whichever of the documents were published.
def Plugin.Steady (alike : ε → ε → Prop) (published : Location → Prop) (plugin : Plugin ε) : Prop :=
  ∀ (h : Hook) (occasion : Occasion h) (payload : h.Payload) (places : Location → Prop),
    (∀ location, places location → published location) →
    ∀ world shadow, world.Shadows alike places h.seen shadow →
      (plugin.respond occasion payload world).2.Shadows alike places h.seen h.hide
        (plugin.respond occasion.hidden (h.hide payload) shadow).2

-- The same of a collaborator that is lent nothing.
def Conduct.Steady (alike : ε → ε → Prop) (published : Location → Prop) (good : α → Prop)
    (conduct : Conduct ε Unit α) : Prop :=
  ∀ places : Location → Prop, (∀ location, places location → published location) →
    ∀ world shadow, world.Shadows alike places id shadow →
      (conduct.run () world).Shadows alike places id id (conduct.run () shadow) ∧
        ∀ value, (conduct.run () world).result = .ok value → good value

-- What a run may load from some factories, whatever it is named.
def Factory.Steady (alike : ε → ε → Prop) (published : Location → Prop) (good : α → Prop)
    (factories : Dict (Factory ε α)) : Prop :=
  ∀ name factory, factories.get? name = some factory →
    ∀ options, (factory options).Steady alike published good

namespace World

theorem Shadows.with_log (h : world.Shadows alike places seen shadow) (log log' : Log) :
    World.Shadows alike places seen { world with log } { shadow with log := log' } :=
  ⟨h.tree, h.db, h.changes, h.signals, h.host⟩

theorem Shadows.with_metrics (h : world.Shadows alike places seen shadow)
    (metrics metrics' : Metrics) : World.Shadows alike places seen { world with metrics }
      { shadow with metrics := metrics' } :=
  ⟨h.tree, h.db, h.changes, h.signals, h.host⟩

theorem Shadows.with_signals (h : world.Shadows alike places seen shadow) (signals : Signals) :
    World.Shadows alike places seen { world with signals } { shadow with signals } :=
  ⟨h.tree, h.db, h.changes, rfl, h.host⟩

theorem Shadows.mono {more : Location → Prop} (h : world.Shadows alike places seen shadow)
    (hmore : ∀ location, places location → more location) :
    world.Shadows alike more seen shadow :=
  ⟨h.tree.mono hmore, h.db, h.changes, h.signals, h.host⟩

theorem Shadows.store_eq (h : world.Shadows alike places id shadow) :
    shadow.store = world.store := by
  have hdb : shadow.store.db = world.store.db := h.db
  calc shadow.store = ⟨shadow.store.db, shadow.store.changes⟩ := rfl
    _ = world.store := by rw [hdb, h.changes]

end World

namespace Diagnostics

-- It looks at nothing of the store but the changes.
theorem update_congr {store other : Store} (h : other.changes = store.changes) (d : Diagnostics)
    (hook : Hook) : d.update other hook = d.update store hook := by
  have hdrain : ∀ d : Diagnostics, d.drain other = d.drain store := by
    intro d
    simp only [drain, Store.receive, Store.subscribe, h]
  have hwatch : ∀ d : Diagnostics, d.watch other = d.watch store := by
    intro d
    simp only [watch, Store.subscribe, h]
  cases hook with
  | handleConfig => rfl
  | start => simp only [update, hwatch, hdrain]
  | _ => exact hdrain d

end Diagnostics

namespace Plugin

theorem steady_diagnostics (state : Diagnostics) :
    (diagnostics state : Plugin ε).Steady alike published := by
  intro h occasion payload places _ world shadow hw
  exact ⟨rfl, fun _ _ => rfl, fun _ _ => hw.with_log _ _⟩

variable {h : Hook} {plugin : Plugin ε}

-- A plugin that was called is the same in both runs.
theorem respond_fst_hidden (hw : world.Shadows alike places seen shadow) (plugin : Plugin ε)
    (occasion : Occasion h) (payload : h.Payload) :
    (plugin.respond occasion.hidden (h.hide payload) shadow).1 =
      (plugin.respond occasion payload world).1 := by
  cases plugin with
  | diagnostics state =>
    exact congrArg (fun updated => diagnostics updated.1) (state.update_congr hw.changes h)
  | custom name respond => rfl

theorem Steady.respond (hs : plugin.Steady alike published) (occasion : Occasion h)
    (payload : h.Payload) (world : World ε) :
    (plugin.respond occasion payload world).1.Steady alike published := by
  cases plugin with
  | diagnostics state => exact steady_diagnostics _
  | custom name respond => exact hs

end Plugin

namespace Dispatcher

variable {h : Hook}

-- The plugins of a hook, one after the other: the calls are the same.
theorem callAll_hidden (hp : ∀ location, places location → published location)
    (occasion : Occasion h) {plugins : List (Plugin ε)}
    (hs : ∀ plugin ∈ plugins, plugin.Steady alike published) (payload : h.Payload)
    (hw : world.Shadows alike places h.seen shadow) :
    let round := callAll occasion plugins payload world
    let other := callAll occasion.hidden plugins (h.hide payload) shadow
    other.plugins = round.plugins ∧ other.calls = round.calls ∧
      round.outcome.Shadows alike places h.seen h.hide other.outcome ∧
      ∀ plugin ∈ round.plugins, plugin.Steady alike published := by
  induction plugins generalizing payload world shadow with
  | nil => exact ⟨rfl, rfl, ⟨rfl, fun _ _ => rfl, fun _ _ => hw⟩, hs⟩
  | cons plugin rest ih =>
    obtain ⟨hfirst, hrest⟩ := List.forall_mem_cons.mp hs
    have hentered : (enter ⟨h, plugin.name⟩ world).Shadows alike places h.seen
        (enter ⟨h, plugin.name⟩ shadow) := (hw.with_log _ _).with_metrics _ _
    have hanswer := hfirst h occasion payload places hp _ _ hentered
    have hcalled := plugin.respond_fst_hidden hentered occasion payload
    have hsteady := hfirst.respond occasion payload (enter ⟨h, plugin.name⟩ world)
    simp only [callAll]
    rcases hout : plugin.respond occasion payload (enter ⟨h, plugin.name⟩ world) with
      ⟨called, outcome⟩
    rcases hout' : plugin.respond occasion.hidden (h.hide payload) (enter ⟨h, plugin.name⟩ shadow)
      with ⟨called', outcome'⟩
    rw [hout, hout'] at hanswer hcalled
    rw [hout] at hsteady
    obtain rfl := hcalled
    obtain ⟨hresult, hpayload, hworld⟩ := hanswer
    dsimp only at hresult hpayload hworld hsteady ⊢
    rw [hresult]
    cases hr : outcome.result with
    | error failure =>
      exact ⟨rfl, rfl, ⟨rfl, nofun, nofun⟩, List.forall_mem_cons.mpr ⟨hsteady, hrest⟩⟩
    | ok _ =>
      obtain ⟨hplugins, hcalls, hround, hleft⟩ := ih hrest outcome.payload (hworld _ hr)
      rw [hpayload _ hr]
      exact ⟨congrArg (_ :: ·) hplugins, congrArg (_ :: ·) hcalls, hround,
        List.forall_mem_cons.mpr ⟨hsteady, hleft⟩⟩

end Dispatcher

section Work

variable {good : α → Prop}

-- Work that is done in both runs, with what it gives there.
abbrev Work.Shadowed {β : Type} (alike : ε → ε → Prop) (places : Location → Prop)
    (seen : Database → Database) (m : Work ε α) (n : Work ε β) (R : α → β → Prop) : Prop :=
  Lockstep (World.Shadows alike places seen) m n R (World.Shadows alike places seen)
    fun _ _ => True

theorem Work.shadowed_noteAll (events : List Event) : Work.Shadowed alike places seen
    (Work.noteAll events) (Work.noteAll events) fun _ _ => True :=
  lockstep_modify fun _ _ hw => hw.with_log _ _

theorem Work.shadowed_count (change : Metrics → Metrics) : Work.Shadowed alike places seen
    (Work.count change) (Work.count change) fun _ _ => True :=
  lockstep_modify fun _ _ hw => hw.with_metrics _ _

theorem Work.shadowed_act {β : Type} {act : Act α} {act' : Act β} {f : α → β}
    (h : ∀ log log', (exec act' log').1 = (exec act log).1.map f) :
    Work.Shadowed alike places seen (Work.act act) (Work.act act') fun a b => b = f a := by
  intro world shadow hw
  have hm : exec (Work.act act) world =
      ((exec act world.log).1, { world with log := (exec act world.log).2 }) := rfl
  have hn : exec (Work.act act') shadow =
      ((exec act' shadow.log).1, { shadow with log := (exec act' shadow.log).2 }) := rfl
  rw [hm, hn, h world.log shadow.log]
  cases (exec act world.log).1 with
  | ok value => exact .ok rfl (hw.with_log _ _)
  | error failure => exact .error trivial

theorem Conduct.Steady.perform {conduct : Conduct ε Unit α}
    (h : conduct.Steady alike published good)
    (hp : ∀ location, places location → published location) :
    Work.Shadowed alike places id conduct.perform conduct.perform fun a b => b = a ∧ good a := by
  intro world shadow hw
  obtain ⟨⟨hresult, -, hworld⟩, hgood⟩ := h places hp world shadow hw
  simp only [Conduct.perform, exec_mk, hresult]
  cases hr : (conduct.run () world).result with
  | ok value => exact .ok ⟨rfl, hgood value hr⟩ (hworld value hr)
  | error failure => exact .error trivial

theorem Registry.shadowed_make {factories : Dict (Factory ε α)}
    (h : Factory.Steady alike published good factories)
    (hp : ∀ location, places location → published location) (kind : CollaboratorKind)
    (spec : CollaboratorSpec) (options : Option Json) :
    Work.Shadowed alike places id (make factories kind spec options)
      (make factories kind spec options) fun a b => b = a ∧ good a := by
  unfold make
  cases hfactory : factories.get? spec.name with
  | none => exact lockstep_throw _ fun _ _ _ => trivial
  | some factory =>
    exact lockstep_tryCatch ((h _ _ hfactory _).perform hp) fun failure =>
      lockstep_throw _ fun _ _ _ => trivial

end Work

theorem Conduct.steady_done {good : α → Prop} {value : α} (h : good value) :
    (Conduct.done value : Conduct ε Unit α).Steady alike published good := by
  intro places _ world shadow hw
  refine ⟨⟨rfl, fun _ _ => rfl, fun _ _ => hw⟩, fun other hother => ?_⟩
  cases hother
  exact h

theorem Conduct.steady_fail {good : α → Prop} (failure : Failure) :
    (Conduct.fail failure : Conduct ε Unit α).Steady alike published good :=
  fun _ _ _ _ _ => ⟨⟨rfl, nofun, nofun⟩, nofun⟩

section Discovery

open Discovery

variable {hydrator : Hydrator ε}

theorem fileHydrator_steady (dir : Path) (patterns : List String) :
    (fileHydrator dir patterns : Conduct ε Unit Hydrated).Steady alike published
      fun _ => True := by
  intro places _ world shadow hw
  refine ⟨?_, fun _ _ => trivial⟩
  simp only [fileHydrator, Conduct.run, hw.tree.hydrate]
  obtain ⟨log, hr⟩ := Conduct.run_ofAct (hydrate world.tree dir patterns) () world
  obtain ⟨log', hr'⟩ := Conduct.run_ofAct (hydrate world.tree dir patterns) () shadow
  rw [hr, hr']
  exact ⟨rfl, fun _ _ => rfl, fun _ _ => hw.with_log _ _⟩

variable (hs : ∀ dir patterns, (hydrator dir patterns).Steady alike published fun _ => True)
  (hp : ∀ location, places location → published location)
include hs hp

theorem shadowed_hydrateSource (dir : Path) (source : Option SourceSpec) (label : String) :
    Work.Shadowed alike places id (hydrateSource hydrator dir source label)
      (hydrateSource hydrator dir source label) fun a b => b = a := by
  unfold hydrateSource
  cases source with
  | none => exact lockstep_throw _ fun _ _ _ => trivial
  | some source =>
    apply lockstep_bind (lockstep_tryCatch ((hs dir source.patterns).perform hp) fun failure =>
      lockstep_throw _ fun _ _ _ => trivial)
    rintro hydrated _ ⟨rfl, -⟩
    exact lockstep_bind (Work.shadowed_noteAll _) fun _ _ _ => lockstep_pure rfl

omit hs hp in
theorem shadowed_choose (dir : Path) (filter : Filter) (files : List Path) :
    Work.Shadowed (ε := ε) alike places seen (choose dir filter files) (choose dir filter files)
      fun a b => b = a :=
  lockstep_bind (Work.shadowed_noteAll _) fun _ _ _ =>
    lockstep_bind (Work.shadowed_count _) fun _ _ _ => lockstep_pure rfl

theorem shadowed_findMain (plan : Plan) (state : RunState) :
    Work.Shadowed alike places id (findMain hydrator plan state)
      (findMain hydrator plan.hidden state) fun a b => b = a := by
  have hfill : Work.Shadowed alike places id (fillMain hydrator plan state)
      (fillMain hydrator plan.hidden state) fun a b => b = a := by
    unfold fillMain
    cases state.sourceFiles with
    | some files => exact lockstep_pure rfl
    | none =>
      apply lockstep_bind (shadowed_hydrateSource hs hp plan.dir plan.source "source")
      rintro _ hydrated rfl
      exact lockstep_pure rfl
  apply lockstep_bind hfill
  rintro _ filled rfl
  apply lockstep_bind (shadowed_choose plan.dir plan.filter (filled.sourceFiles.getD []))
  rintro _ chosen rfl
  exact lockstep_pure rfl

theorem shadowed_findTests (plan : Plan) (state : RunState) :
    Work.Shadowed alike places id (findTests hydrator plan state)
      (findTests hydrator plan.hidden state) fun a b => b = a := by
  unfold findTests
  have htest : plan.hidden.test = plan.test := rfl
  rw [htest]
  cases plan.test with
  | none => exact lockstep_pure rfl
  | some test =>
    have hfill : Work.Shadowed alike places id (fillTests hydrator plan test state)
        (fillTests hydrator plan.hidden test state) fun a b => b = a := by
      unfold fillTests
      cases state.testFiles with
      | some files => exact lockstep_pure rfl
      | none =>
        apply lockstep_bind (shadowed_hydrateSource hs hp plan.dir test.source "test.source")
        rintro _ hydrated rfl
        exact lockstep_pure rfl
    apply lockstep_bind hfill
    rintro _ filled rfl
    apply lockstep_bind (shadowed_choose plan.dir test.filter (filled.testFiles.getD []))
    rintro _ chosen rfl
    exact lockstep_pure rfl

end Discovery

end DocPipeline
