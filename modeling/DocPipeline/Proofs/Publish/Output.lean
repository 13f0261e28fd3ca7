import DocPipeline.Publish.Json
import DocPipeline.Proofs.Tree.Edits

namespace DocPipeline.JsonPublisher

variable {ε : Type} {before after : Tree} {file directory : Path} {text : String}

-- The text that is published: the link to the document is in it.
def published (publisher : JsonPublisher) (plan : Plan) (package : Package) (state : RunState)
    (db : Database) : String :=
  publisher.render (document plan package
    (state.addMenuLink "Doc Data" publisher.fileName).menuLinks db)

-- The tree in which the destination was created.
def prepared (before : Tree) (destination : Path) : Tree :=
  (before.createDirectories destination).1

theorem grown_prepared (before : Tree) (destination : Path) :
    Tree.Grown before (prepared before destination) destination :=
  (Tree.createDirectories_grown rfl).1

theorem writeInto_ok (h : writeInto before directory file text = (after, .ok ())) :
    (∃ landing, (prepared before directory).Lands file landing ∧
      after = (prepared before directory).put landing (.file text.toUTF8)) ∧
    (directory.text ≠ "" →
      ∃ home, (prepared before directory).find directory = .ok (home, .directory)) := by
  unfold writeInto at h
  split at h
  next => cases h
  next made hmade =>
    rw [prepared, hmade]
    refine ⟨?_, (Tree.createDirectories_grown hmade).2 rfl⟩
    split at h
    next written hwrite =>
      cases h
      exact Tree.writeBytes_eq_ok hwrite
    next => cases h

theorem writeInto_error {failure : Failure}
    (h : writeInto before directory file text = (after, .error failure)) :
    after = prepared before directory := by
  unfold writeInto at h
  split at h
  next made e hmade =>
    cases h
    rw [prepared, hmade]
  next made hmade =>
    rw [prepared, hmade]
    split at h <;> cases h
    rfl

-- All that publishing does to the files is to write one into the destination.
theorem publish_writes (publisher : JsonPublisher) (plan : Plan) (package : Package)
    (state : RunState) (world : World ε) :
    let outcome := (publisher.publish plan package).run state world
    writeInto world.tree plan.destination (publisher.target plan)
      (publisher.published plan package state world.store.db) =
        (outcome.world.tree, outcome.result) := by
  rcases hw : writeInto world.tree plan.destination (publisher.target plan)
    (publisher.published plan package state world.store.db) with ⟨tree, result⟩
  simp only [publish, bind, Conduct.bind, Conduct.payload, Conduct.tree, Conduct.store,
    Conduct.run]
  unfold published at hw
  rw [hw]
  cases result <;> rfl

-- A location in the destination, or that of the destination itself.
def Inside (before : Tree) (destination : Path) (location : Location) : Prop :=
  ∃ home, (prepared before destination).find destination = .ok (home, .directory) ∧
    home <+: location

-- Nothing has changed but the destination, the directories above it and what is inside.
def Confined (before after : Tree) (destination : Path) : Prop :=
  ∀ location, after.get? location ≠ before.get? location →
    Tree.Paved before (prepared before destination) destination location ∨
      Inside before destination location

-- There is a link in the destination where the output is to be.
def Linked (before : Tree) (destination : Path) (name : String) : Prop :=
  ∃ home target, (prepared before destination).find destination = .ok (home, .directory) ∧
    (prepared before destination).get? (home ++ [name]) = some (.link target)

section Written

variable {plan : Plan} {publisher : JsonPublisher} {landing : Location}

-- No directory that was created is where the output goes.
theorem not_paved_of_lands (h : (prepared before directory).Lands file landing) :
    ¬ Tree.Paved before (prepared before directory) directory landing := by
  intro hp
  have hdirectory := hp.directory
  obtain h | ⟨bytes, h⟩ := h
  · rw [(Tree.place_vacant h).2] at hdirectory
    cases hdirectory
  · rw [Tree.place_file h] at hdirectory
    cases hdirectory

-- What is not written to is as it was, or a directory created on the way.
theorem paved_or_lands (h : ∃ result, writeInto before directory file text = (after, result))
    {location : Location} (hchanged : after.get? location ≠ before.get? location) :
    Tree.Paved before (prepared before directory) directory location ∨
      (prepared before directory).Lands file location ∧
        after.get? location = some (.file text.toUTF8) := by
  obtain ⟨result, h⟩ := h
  have hgrown := grown_prepared before directory
  cases result with
  | error failure =>
    obtain rfl := writeInto_error h
    exact .inl (hgrown.paved location hchanged)
  | ok _ =>
    obtain ⟨⟨landing, hlands, rfl⟩, -⟩ := writeInto_ok h
    rw [Tree.get?_put hlands.ne_nil] at hchanged ⊢
    split at hchanged
    next hlanding => exact .inr ⟨hlanding ▸ hlands, if_pos hlanding⟩
    next => exact .inl (hgrown.paved location hchanged)

theorem inside_of_name (hn : IsName publisher.fileName)
    (hlink : ¬ Linked before plan.destination publisher.fileName)
    (h : (prepared before plan.destination).Lands (publisher.target plan) landing)
    (hhome : plan.destination.text ≠ "" →
      ∃ home, (prepared before plan.destination).find plan.destination = .ok (home, .directory)) :
    Inside before plan.destination landing := by
  obtain ⟨home, hfind⟩ := hhome fun hempty => Tree.not_lands_name hn hempty h
  have hfree : ∀ target, (prepared before plan.destination).get? (home ++ [publisher.fileName]) ≠
      some (.link target) := fun target ht => hlink ⟨home, target, hfind, ht⟩
  obtain rfl := Tree.lands_join hn hfind hfree h
  exact ⟨home, hfind, List.prefix_append _ _⟩

end Written

-- Whatever file name the options give, publishing creates the missing directories on the way to the
-- destination and changes nothing else but the file that the path of the output leads to, which
-- holds the document afterwards. So nothing outside the destination is touched exactly when that
-- file is inside or stays as it was. It is inside when its name is a plain one and no link.
theorem publish_changes (publisher : JsonPublisher) (plan : Plan) (package : Package)
    (state : RunState) (world : World ε) :
    let outcome := (publisher.publish plan package).run state world
    let before := world.tree
    let after := outcome.world.tree
    let made := prepared before plan.destination
    (∀ location, after.get? location ≠ before.get? location →
      Tree.Paved before made plan.destination location ∨
        made.Lands (publisher.target plan) location ∧ after.get? location =
          some (.file (publisher.published plan package state world.store.db).toUTF8)) ∧
    (outcome.result = .ok () → ∃ landing, made.Lands (publisher.target plan) landing ∧
      after.get? landing =
        some (.file (publisher.published plan package state world.store.db).toUTF8)) ∧
    (Confined before after plan.destination ↔
      ∀ landing, made.Lands (publisher.target plan) landing →
        after.get? landing ≠ before.get? landing → Inside before plan.destination landing) ∧
    (IsName publisher.fileName → ¬ Linked before plan.destination publisher.fileName →
      Confined before after plan.destination) := by
  intro outcome before after made
  have hwrites : writeInto before plan.destination (publisher.target plan)
      (publisher.published plan package state world.store.db) = (after, outcome.result) :=
    publish_writes publisher plan package state world
  have hchanges : ∀ location, after.get? location ≠ before.get? location →
      Tree.Paved before made plan.destination location ∨
        made.Lands (publisher.target plan) location ∧ after.get? location =
          some (.file (publisher.published plan package state world.store.db).toUTF8) :=
    fun location hchanged => paved_or_lands ⟨_, hwrites⟩ hchanged
  have hconfined : Confined before after plan.destination ↔
      ∀ landing, made.Lands (publisher.target plan) landing →
        after.get? landing ≠ before.get? landing → Inside before plan.destination landing := by
    constructor
    · exact fun h landing hlands hchanged =>
        (h landing hchanged).resolve_left (not_paved_of_lands hlands)
    · intro h location hchanged
      exact (hchanges location hchanged).imp_right fun hwritten =>
        h location hwritten.1 hchanged
  refine ⟨hchanges, fun hok => ?_, hconfined, fun hn hlink => ?_⟩
  · rw [hok] at hwrites
    obtain ⟨⟨landing, hlands, hafter⟩, -⟩ := writeInto_ok hwrites
    refine ⟨landing, hlands, ?_⟩
    rw [hafter, Tree.get?_put hlands.ne_nil, if_pos rfl]
  · rw [hconfined]
    intro landing hlands hchanged
    refine inside_of_name hn hlink hlands ?_
    cases hresult : outcome.result with
    | error failure =>
      rw [hresult] at hwrites
      have hpaved := (grown_prepared before plan.destination).paved landing
      rw [writeInto_error hwrites] at hchanged
      exact absurd (hpaved hchanged) (not_paved_of_lands hlands)
    | ok _ =>
      rw [hresult] at hwrites
      exact (writeInto_ok hwrites).2

def project : World Unit := { tree := ⟨[(["p"], .directory)]⟩, log := ⟨none, []⟩, host := () }

def docs : Plan := { (default : Plan) with destination := ⟨"/p/docs"⟩ }

theorem docs_found : (prepared project.tree docs.destination).find docs.destination =
    .ok (["p", "docs"], .directory) := by
  rfl

-- The options are accepted, and the output is written next to the destination.
theorem output_beside_destination :
    ofOptions (some (.object [("fileName", .string "../out.json")])) =
        .ok { fileName := "../out.json" } ∧
      ¬ Confined project.tree ((publish { fileName := "../out.json" } docs {}).run {}
        project).world.tree docs.destination := by
  refine ⟨rfl, fun h => ?_⟩
  have hwritten : (((publish { fileName := "../out.json" } docs {}).run {}
      project).world.tree.get? ["p", "out.json"]).isSome = true := by
    rfl
  have hchanged : ((publish { fileName := "../out.json" } docs {}).run {}
      project).world.tree.get? ["p", "out.json"] ≠ project.tree.get? ["p", "out.json"] := by
    intro he
    rw [he] at hwritten
    cases hwritten
  rcases h ["p", "out.json"] hchanged with hpaved | ⟨home, hfind, hinside⟩
  · cases hpaved.directory
  · cases docs_found.symm.trans hfind
    exact absurd hinside (by decide)

theorem name_confined : IsName "out.json" ∧ ¬ Linked project.tree docs.destination "out.json" ∧
    Confined project.tree ((publish { fileName := "out.json" } docs {}).run {} project).world.tree
      docs.destination := by
  have hn : IsName "out.json" := by decide
  have hlink : ¬ Linked project.tree docs.destination "out.json" := by
    rintro ⟨home, target, hfind, hlink⟩
    cases docs_found.symm.trans hfind
    cases hlink
  obtain ⟨-, -, -, hconfined⟩ := publish_changes { fileName := "out.json" } docs {} {} project
  exact ⟨hn, hlink, hconfined hn hlink⟩

end DocPipeline.JsonPublisher
