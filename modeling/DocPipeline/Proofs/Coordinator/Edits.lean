import DocPipeline.Proofs.Coordinator.Configure

namespace DocPipeline

-- What a database holds of a pass.
structure Contents where
  records : List Record := []
  asts : List Ast := []
  index : Dict (List Nat) := .empty

def Database.contents (db : Database) : Contents := ⟨db.records, db.asts, db.index⟩

def Contents.at (contents : Contents) (generation : Nat) : Database :=
  { records := contents.records, asts := contents.asts, index := contents.index, generation }

-- What is done to the data of a pass.
structure Edits where
  fragments : List Fragment → List Fragment := id
  records : List Record → List Record := id
  contents : Contents → Contents := id

def Edits.update (edits : Edits) (db : Database) : Database :=
  (edits.contents db.contents).at db.generation

variable {ε : Type}

-- Whenever the plugin does not fail, it edits the data of a pass in this way. It leaves the run
-- state alone, and the store, too, unless it is told that the database is complete.
structure Plugin.EditsBy (plugin : Plugin ε) (edits : Plan → Edits) : Prop where
  store : ∀ {h : Hook} (occasion : Occasion h) payload world, h ≠ .handleDocDb →
    (plugin.respond occasion payload world).2.world.store.db = world.store.db
  start : ∀ plan package (state : RunState) world,
    (plugin.respond (.start plan package) state world).2.result = .ok () →
    (plugin.respond (.start plan package) state world).2.payload = state
  handleVirtual : ∀ plan (fragments : List Fragment) world,
    (plugin.respond (.handleVirtual plan) fragments world).2.result = .ok () →
    (plugin.respond (.handleVirtual plan) fragments world).2.payload =
      (edits plan).fragments fragments
  handleDocData : ∀ plan (records : List Record) world,
    (plugin.respond (.handleDocData plan) records world).2.result = .ok () →
    (plugin.respond (.handleDocData plan) records world).2.payload = (edits plan).records records
  handleDocDb : ∀ plan world,
    (plugin.respond (.handleDocDb plan) () world).2.result = .ok () →
    (plugin.respond (.handleDocDb plan) () world).2.world.store.db =
      (edits plan).update world.store.db
  regenerate : ∀ plan reparser (state : RunState) world,
    (plugin.respond (.regenerate plan reparser) state world).2.result = .ok () →
    (plugin.respond (.regenerate plan reparser) state world).2.payload = state

-- Whenever the publisher does not fail, it changed the links of the run state at most, and did not
-- reset the store.
def Publisher.OnlyLinks (publisher : Publisher ε) : Prop :=
  ∀ plan package (state : RunState) (world : World ε),
    ((publisher plan package).run state world).result = .ok () →
    (∃ menuLinks, ((publisher plan package).run state world).payload = { state with menuLinks }) ∧
    ((publisher plan package).run state world).world.store.db.generation =
      world.store.db.generation

-- The parser reads no more of the tree than a part of it.
structure Parser.Sees {β : Type} (part : Tree → β) (parser : Parser) : Prop where
  file : ∀ {t u}, part t = part u → ∀ dir file hint,
    parser.file t dir file hint = parser.file u dir file hint
  test : ∀ {t u}, part t = part u → ∀ type dir file,
    parser.test t type dir file = parser.test u type dir file

-- Whenever the resolver does not fail, it completes what the database holds in this way. How often
-- the database was reset is nothing that it completes.
def Resolver.CompletesBy (resolver : Resolver) (complete : Contents → Contents) : Prop :=
  ∀ db, (resolver db).2 = .ok () → (resolver db).1 = (complete db.contents).at db.generation

-- The standard of collaborators that do the same in every pass, as long as the part of the tree
-- that they read stays the same. What is loaded leaves the store alone while it is loaded.
def Standard.repeatable {β : Type} (part : Tree → β) : Standard ε where
  change before after := after = before
  plugin plugin := ∃ edits, plugin.EditsBy edits
  runtime runtime := runtime.parser.Sees part ∧ ∃ complete, runtime.resolver.CompletesBy complete
  publisher publisher := publisher.OnlyLinks

namespace Plugin

theorem editsBy_diagnostics (state : Diagnostics) :
    (diagnostics state : Plugin ε).EditsBy fun _ => {} where
  store _ _ _ _ := rfl
  start _ _ _ _ _ := rfl
  handleVirtual _ _ _ _ := rfl
  handleDocData _ _ _ _ := rfl
  handleDocDb _ _ _ := rfl
  regenerate _ _ _ _ _ := rfl

-- A plugin goes on to edit as it did. What the diagnostics remember makes no difference.
theorem EditsBy.respond {plugin : Plugin ε} {edits : Plan → Edits} (he : plugin.EditsBy edits)
    {h : Hook} (occasion : Occasion h) (payload : h.Payload) (world : World ε) :
    (plugin.respond occasion payload world).1.EditsBy edits := by
  cases plugin with
  | diagnostics state =>
    exact ⟨fun _ _ _ _ => rfl, he.start, he.handleVirtual, he.handleDocData, he.handleDocDb,
      he.regenerate⟩
  | custom name respond => exact he

end Plugin

namespace Standard

variable {β : Type} (part : Tree → β)

theorem repeatable_fair : (repeatable part : Standard ε).Fair :=
  ⟨fun _ => rfl, fun hab hbc => hbc.trans hab, fun state => ⟨_, Plugin.editsBy_diagnostics state⟩⟩

theorem repeatable_governs : (repeatable part : Standard ε).Governs .handleConfig := by
  rintro plugin ⟨edits, he⟩ occasion payload world
  exact ⟨⟨edits, he.respond occasion payload world⟩, he.store occasion payload world nofun⟩

end Standard

section Dispatching

variable {h : Hook} {occasion : Occasion h} {plugins : List (Plugin ε)}
  {edits : List (Plan → Edits)}

-- What one plugin does to a view of the payload and the database, all do one after the other.
theorem Dispatcher.callAll_view {γ : Type} (view : h.Payload → Database → γ)
    (effect : (Plan → Edits) → γ → γ)
    (hone : ∀ (plugin : Plugin ε) edits, plugin.EditsBy edits → ∀ payload world,
      (plugin.respond occasion payload world).2.result = .ok () →
      view (plugin.respond occasion payload world).2.payload
          (plugin.respond occasion payload world).2.world.store.db =
        effect edits (view payload world.store.db))
    (hp : List.Forall₂ Plugin.EditsBy plugins edits) (payload : h.Payload) (world : World ε)
    (hok : (callAll occasion plugins payload world).outcome.result = .ok ()) :
    List.Forall₂ Plugin.EditsBy (callAll occasion plugins payload world).plugins edits ∧
      view (callAll occasion plugins payload world).outcome.payload
          (callAll occasion plugins payload world).outcome.world.store.db =
        edits.foldl (fun v e => effect e v) (view payload world.store.db) := by
  induction hp generalizing payload world with
  | nil => exact ⟨.nil, rfl⟩
  | @cons plugin e rest edits hfirst _ ih =>
    have hcalled := hfirst.respond occasion payload (enter ⟨h, plugin.name⟩ world)
    have heffect := hone plugin e hfirst payload (enter ⟨h, plugin.name⟩ world)
    simp only [callAll] at hok ⊢
    generalize plugin.respond occasion payload (enter ⟨h, plugin.name⟩ world) = response at *
    rcases response with ⟨called, result | _, left, world'⟩
    · cases hok
    · obtain ⟨hplugins, hview⟩ := ih left world' hok
      have hleft : view left world'.store.db = effect e (view payload world.store.db) :=
        heffect rfl
      refine ⟨.cons hcalled hplugins, ?_⟩
      rw [List.foldl_cons, hview, hleft]

namespace Flow

variable {payload payload' : h.Payload} {c c' : Coordinator ε}

theorem dispatch_view {γ : Type} (view : h.Payload → Database → γ)
    (effect : (Plan → Edits) → γ → γ)
    (hone : ∀ (plugin : Plugin ε) edits, plugin.EditsBy edits → ∀ payload world,
      (plugin.respond occasion payload world).2.result = .ok () →
      view (plugin.respond occasion payload world).2.payload
          (plugin.respond occasion payload world).2.world.store.db =
        effect edits (view payload world.store.db))
    (he : exec (dispatch occasion payload) c = (.ok payload', c'))
    (hp : List.Forall₂ Plugin.EditsBy c.dispatcher.plugins edits) :
    List.Forall₂ Plugin.EditsBy c'.dispatcher.plugins edits ∧
      view payload' c'.world.store.db =
        edits.foldl (fun v e => effect e v) (view payload c.world.store.db) := by
  simp only [dispatch, exec_mk, Dispatcher.dispatch] at he
  by_cases hd : c.dispatcher.destroyed
  · rw [if_pos hd] at he
    cases he
  · rw [if_neg hd] at he
    have hview := Dispatcher.callAll_view view effect hone hp payload c.world
    generalize Dispatcher.callAll occasion c.dispatcher.plugins payload c.world = round at *
    rcases round with ⟨plugins, calls, result | _, left, world⟩
    · cases he
    · cases he
      exact hview rfl

theorem dispatch_store (hh : h ≠ .handleDocDb)
    (he : exec (dispatch occasion payload) c = (.ok payload', c'))
    (hp : List.Forall₂ Plugin.EditsBy c.dispatcher.plugins edits) :
    List.Forall₂ Plugin.EditsBy c'.dispatcher.plugins edits ∧
      c'.world.store.db = c.world.store.db := by
  have h := dispatch_view (fun _ db => db) (fun _ db => db)
    (fun _ _ hedits payload world _ => hedits.store occasion payload world hh) he hp
  rwa [List.foldl_fixed] at h

end Flow

end Dispatching

namespace Flow

variable {plan : Plan} {edits : List (Plan → Edits)} {c c' : Coordinator ε}

theorem dispatch_start {package : Package} {state state' : RunState}
    (he : exec (dispatch (.start plan package) state) c = (.ok state', c'))
    (hp : List.Forall₂ Plugin.EditsBy c.dispatcher.plugins edits) : state' = state := by
  have h := dispatch_view (fun state _ => state) (fun _ state => state)
    (fun _ _ hedits state world => hedits.start plan package state world) he hp
  rw [List.foldl_fixed] at h
  exact h.2

theorem dispatch_regenerate {reparser : Reparser} {state state' : RunState}
    (he : exec (dispatch (.regenerate plan reparser) state) c = (.ok state', c'))
    (hp : List.Forall₂ Plugin.EditsBy c.dispatcher.plugins edits) :
    state' = state := by
  have h := dispatch_view (fun state _ => state) (fun _ state => state)
    (fun _ _ hedits state world => hedits.regenerate plan reparser state world) he hp
  rw [List.foldl_fixed] at h
  exact h.2

theorem dispatch_handleVirtual {fragments fragments' : List Fragment}
    (he : exec (dispatch (.handleVirtual plan) fragments) c = (.ok fragments', c'))
    (hp : List.Forall₂ Plugin.EditsBy c.dispatcher.plugins edits) :
    fragments' = edits.foldl (fun fs e => (e plan).fragments fs) fragments :=
  (dispatch_view (fun fragments _ => fragments) (fun e fragments => (e plan).fragments fragments)
    (fun _ _ hedits fragments world => hedits.handleVirtual plan fragments world) he hp).2

theorem dispatch_handleDocData {records records' : List Record}
    (he : exec (dispatch (.handleDocData plan) records) c = (.ok records', c'))
    (hp : List.Forall₂ Plugin.EditsBy c.dispatcher.plugins edits) :
    records' = edits.foldl (fun rs e => (e plan).records rs) records :=
  (dispatch_view (fun records _ => records) (fun e records => (e plan).records records)
    (fun _ _ hedits records world => hedits.handleDocData plan records world) he hp).2

theorem dispatch_handleDocDb (he : exec (dispatch (.handleDocDb plan) ()) c = (.ok (), c'))
    (hp : List.Forall₂ Plugin.EditsBy c.dispatcher.plugins edits) :
    List.Forall₂ Plugin.EditsBy c'.dispatcher.plugins edits ∧
      c'.world.store.db = edits.foldl (fun db e => (e plan).update db) c.world.store.db :=
  dispatch_view (fun _ db => db) (fun e db => (e plan).update db)
    (fun _ _ hedits _ world => hedits.handleDocDb plan world) he hp

end Flow

end DocPipeline
