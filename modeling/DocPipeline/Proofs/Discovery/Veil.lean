import DocPipeline.Discovery.Hydrate
import DocPipeline.Proofs.Tree.Veil

namespace DocPipeline

variable {tree : Tree} {places : Location → Prop}

namespace Glob

theorem exists?_veil (path : Path) : exists? (tree.veil places) path = exists? tree path := by
  rw [exists?, exists?, Tree.place_veil]
  rcases tree.place path false with e | ⟨location, entry⟩ | location <;> rfl

theorem childNames_veil (path : Path) :
    childNames (tree.veil places) path = childNames tree path := by
  rw [childNames, childNames, Tree.find_veil]
  rcases tree.find path with e | ⟨location, _ | _ | _⟩
  · rfl
  · rfl
  · exact Tree.names_veil
  · rfl

-- By induction on the fuel, for the three kinds of matching together.
theorem matches_veil (fuel : Nat) :
    (∀ dir segments, matchesBelow (tree.veil places) fuel dir segments =
      matchesBelow tree fuel dir segments) ∧
    (∀ path segments, matchesAt (tree.veil places) fuel path segments =
      matchesAt tree fuel path segments) ∧
    ∀ path segment rest, matchesName (tree.veil places) fuel path segment rest =
      matchesName tree fuel path segment rest := by
  induction fuel with
  | zero => exact ⟨fun _ _ => rfl, fun _ _ => rfl, fun _ _ _ => rfl⟩
  | succ fuel ih =>
    obtain ⟨hbelow, hat, hname⟩ := ih
    refine ⟨fun dir segments => ?_, fun path segments => ?_, fun path segment rest => ?_⟩
    · cases segments with
      | nil => rfl
      | cons segment rest =>
        simp only [matchesBelow, exists?_veil, Tree.isDirectory_veil, childNames_veil, hbelow, hat]
    · cases segments with
      | nil => rfl
      | cons segment rest => simp only [matchesAt, Tree.isDirectory_veil, hbelow, hname]
    · simp only [matchesName, hbelow]

theorem expand_veil (glob : Glob) : glob.expand (tree.veil places) = glob.expand tree := by
  have hbound : depthBound (tree.veil places) = depthBound tree := by
    rw [depthBound, depthBound, Tree.veil, List.length_map]
  rw [Glob.expand, Glob.expand, hbound]
  exact (matches_veil _).1 _ _

end Glob

namespace Discovery

theorem walk_veil (dir : Path) : walk (tree.veil places) dir = walk tree dir := by
  rw [walk, walk, Tree.find_veil]
  rcases tree.find dir with e | ⟨location, _ | _ | _⟩
  · rfl
  · rfl
  · simp only [Except.map, Entry.veil, Tree.filesBelow_veil]
  · rfl

theorem expandGlob_veil (pattern : String) (absolute : Path) :
    expandGlob (tree.veil places) pattern absolute = expandGlob tree pattern absolute := by
  have hfile : (tree.veil places).isFile = tree.isFile := funext fun _ => Tree.isFile_veil
  simp only [expandGlob, Glob.expand_veil, hfile]

theorem hydrate_veil (dir : Path) (patterns : List String) :
    hydrate (tree.veil places) dir patterns = hydrate tree dir patterns := by
  have hone : hydrateOne (tree.veil places) dir = hydrateOne tree dir := by
    funext hydrated pattern
    simp only [hydrateOne, Tree.isDirectory_veil, Tree.isFile_veil, walk_veil, expandGlob_veil]
  rw [hydrate, hydrate, hone]

end Discovery

theorem Tree.SameBut.hydrate {other : Tree} (h : tree.SameBut places other) (dir : Path)
    (patterns : List String) :
    Discovery.hydrate other dir patterns = Discovery.hydrate tree dir patterns :=
  calc
    Discovery.hydrate other dir patterns = Discovery.hydrate (other.veil places) dir patterns :=
      (Discovery.hydrate_veil dir patterns).symm
    _ = Discovery.hydrate (tree.veil places) dir patterns := by rw [h]
    _ = Discovery.hydrate tree dir patterns := Discovery.hydrate_veil dir patterns

end DocPipeline
