import DocPipeline.Publish.Destination
import DocPipeline.Proofs.Publish.Output
import DocPipeline.Proofs.Tree.Veil

namespace DocPipeline

variable {tree other : Tree} {places : Location → Prop} {destination : Path}

namespace Destination

theorem contains_veil (dir : Path) (base : Option Location) :
    contains (tree.veil places) destination dir base = contains tree destination dir base := by
  rw [contains, contains, Tree.resolve?_veil, Tree.resolve?_veil]

theorem removeEntry_veil (location : Location) (name : String) (path : Path)
    (base : Option Location) :
    removeEntry (tree.veil places) location name path base =
      (removeEntry tree location name path base).map (Tree.veil places) := by
  have hdirectory : (tree.veil places).get? (location ++ [name]) = some .directory ↔
      tree.get? (location ++ [name]) = some .directory := by
    rw [Tree.get?_veil]
    rcases tree.get? (location ++ [name]) with _ | _ | _ | _ <;> simp [Entry.veil]
  rw [removeEntry, removeEntry, Tree.removeAll_veil, Tree.remove_veil]
  by_cases hd : tree.get? (location ++ [name]) = some .directory
  · rw [if_pos hd, if_pos (hdirectory.mpr hd)]
  · rw [if_neg hd, if_neg (hdirectory.not.mpr hd)]

theorem removeEach_veil (location : Location) (base : Option Location) (names : List String) :
    removeEach destination location base names (tree.veil places) =
      (removeEach destination location base names tree).map (Tree.veil places) id := by
  induction names generalizing tree with
  | nil => rfl
  | cons name rest ih =>
    simp only [removeEach]
    rw [removeEntry_veil]
    cases removeEntry tree location name (destination.join ⟨name⟩) base with
    | error e => rfl
    | ok after => exact ih

theorem empty_veil (dir : Path) :
    empty (tree.veil places) destination dir =
      (empty tree destination dir).map (Tree.veil places) id := by
  rw [empty, empty, contains_veil]
  split
  · rfl
  · rw [Tree.find_veil]
    rcases tree.find destination with e | ⟨location, _ | _ | _⟩
    · cases e <;> rfl
    · rfl
    · simp only [Except.map, Entry.veil, Tree.names_veil, removeEach_veil]
      rfl
    · rfl

end Destination

theorem Tree.SameBut.empty (h : tree.SameBut places other) (destination dir : Path) :
    (Destination.empty other destination dir).2 = (Destination.empty tree destination dir).2 ∧
      (Destination.empty tree destination dir).1.SameBut places
        (Destination.empty other destination dir).1 := by
  have hempty := congrArg (Destination.empty · destination dir) h
  simp only [Destination.empty_veil, Prod.ext_iff, Prod.map_fst, Prod.map_snd, id_eq] at hempty
  exact hempty.symm

namespace Tree

theorem lands_veil {path : Path} {location : Location} :
    (tree.veil places).Lands path location ↔ tree.Lands path location := by
  rw [Lands, Lands, place_veil]
  rcases tree.place (withoutSlashes path).1 true with e | ⟨found, bytes | _ | _⟩ | vacant <;>
    simp [Except.map, Place.veil, Entry.veil]

-- What is written is under the veil.
theorem writeBytes_veil {path : Path} (hlands : ∀ location, tree.Lands path location → places location)
    (bytes : ByteArray) : (tree.veil places).writeBytes path .empty =
      (tree.writeBytes path bytes).map (veil places) := by
  have hput : ∀ location, places location → (tree.veil places).put location (.file .empty) =
      (tree.put location (.file bytes)).veil places := by
    intro location hlocation
    simp [put_veil, Entry.veil, hlocation]
  simp only [Tree.writeBytes, place_veil]
  rcases hplace : tree.place (withoutSlashes path).1 true with
    e | ⟨location, shown | _ | _⟩ | location
  · rfl
  · dsimp only [Except.map, Place.veil, Entry.veil]
    split
    · rfl
    · rw [hput location (hlands location (.inr ⟨shown, hplace⟩))]
  · rfl
  · rfl
  · dsimp only [Except.map, Place.veil]
    split
    · rfl
    · rw [hput location (hlands location (.inl hplace))]

end Tree

namespace JsonPublisher

theorem prepared_veil : prepared (tree.veil places) destination =
    (prepared tree destination).veil places := by
  rw [prepared, prepared, Tree.createDirectories_veil]
  rfl

-- A document is written to the same place under the veil, where none of its text shows.
theorem writeInto_veil {file : Path}
    (hlands : ∀ location, (prepared tree destination).Lands file location → places location)
    (text : String) : writeInto (tree.veil places) destination file "" =
      (writeInto tree destination file text).map (Tree.veil places) id := by
  unfold prepared at hlands
  simp only [writeInto, Tree.createDirectories_veil]
  rcases hmade : tree.createDirectories destination with ⟨made, _ | e⟩ <;> rw [hmade] at hlands
  · simp only [Prod.map_apply, id_eq]
    have hwrite : (made.veil places).write file "" = (made.write file text).map (Tree.veil places) :=
      Tree.writeBytes_veil hlands text.toUTF8
    rw [hwrite]
    cases made.write file text <;> rfl
  · rfl

-- Two documents that are published to one place leave trees that are the same but for it.
theorem sameBut_writeInto {file : Path} (h : tree.SameBut places other)
    (hlands : ∀ location, (prepared tree destination).Lands file location → places location)
    (text text' : String) :
    (writeInto other destination file text').2 = (writeInto tree destination file text).2 ∧
      (writeInto tree destination file text).1.SameBut places
        (writeInto other destination file text').1 := by
  have hlands' : ∀ location, (prepared other destination).Lands file location → places location := by
    intro location hlocation
    apply hlands
    have hveiled : ((prepared other destination).veil places).Lands file location :=
      Tree.lands_veil.mpr hlocation
    rwa [← prepared_veil, h, prepared_veil, Tree.lands_veil] at hveiled
  have hwrite := writeInto_veil hlands text
  rw [← h, writeInto_veil hlands' text'] at hwrite
  simp only [Prod.ext_iff, Prod.map_fst, Prod.map_snd, id_eq] at hwrite
  exact hwrite.symm

-- What publishing leaves besides the file.
theorem run_publish {ε : Type} (publisher : JsonPublisher) (plan : Plan) (package : Package)
    (state : RunState) (world : World ε) :
    let written := writeInto world.tree plan.destination (publisher.target plan)
      (publisher.published plan package state world.store.db)
    ∃ log, (publisher.publish plan package).run state world =
      ⟨written.2, state.addMenuLink "Doc Data" publisher.fileName,
        { world with tree := written.1, log }⟩ := by
  rcases hw : writeInto world.tree plan.destination (publisher.target plan)
    (publisher.published plan package state world.store.db) with ⟨tree, result⟩
  simp only [publish, bind, Conduct.bind, Conduct.payload, Conduct.tree, Conduct.store,
    Conduct.run]
  unfold published at hw
  rw [hw]
  cases result with
  | ok _ => exact ⟨_, rfl⟩
  | error failure => exact ⟨world.log, rfl⟩

end JsonPublisher

end DocPipeline
