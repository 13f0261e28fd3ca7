import DocPipeline.Proofs.Tree.Edits

namespace DocPipeline

open Classical in
-- The bytes of a hidden file do not show.
noncomputable def Entry.veil (hidden : Prop) : Entry → Entry
  | .file bytes => .file (if hidden then .empty else bytes)
  | entry => entry

theorem Entry.veil_of_not {hidden : Prop} (h : ¬ hidden) (entry : Entry) :
    entry.veil hidden = entry := by
  cases entry <;> simp [Entry.veil, h]

namespace Tree

variable {tree other : Tree} {places more : Location → Prop} {location : Location} {path : Path}

noncomputable def veil (places : Location → Prop) (tree : Tree) : Tree :=
  ⟨tree.entries.map fun e => (e.1, e.2.veil (places e.1))⟩

noncomputable def Place.veil (places : Location → Prop) : Place → Place
  | .found location entry => .found location (entry.veil (places location))
  | .vacant location => .vacant location

theorem get?_veil : (tree.veil places).get? location =
    (tree.get? location).map (Entry.veil (places location)) := by
  unfold get?
  split
  · rfl
  · rw [veil, List.find?_map]
    cases hfind : tree.entries.find? ((fun e => e.1 == location) ∘ fun e =>
        (e.1, e.2.veil (places e.1))) with
    | none =>
      have hnone : tree.entries.find? (·.1 == location) = none := hfind
      rw [hnone]
      rfl
    | some e =>
      have hsome : tree.entries.find? (·.1 == location) = some e := hfind
      have hlocation : e.1 = location := by simpa using List.find?_some hsome
      rw [hsome]
      simp [hlocation]

section Follow

variable {followLast : Bool} {onLink onLink' : Location → List String → Except IoError Place}

theorem followSegments_veil
    (h : ∀ start segments, onLink' start segments = (onLink start segments).map (Place.veil places))
    (segments : List String) :
    (tree.veil places).followSegments followLast onLink' location segments =
      (tree.followSegments followLast onLink location segments).map (Place.veil places) := by
  induction segments generalizing location with
  | nil => rfl
  | cons segment rest ih =>
    unfold followSegments
    split
    · exact ih
    · split
      · exact ih
      · dsimp only
        rw [get?_veil]
        cases tree.get? (location ++ [segment]) with
        | none => dsimp only [Option.map_none]; split <;> rfl
        | some entry =>
          cases entry with
          | directory => exact ih
          | file bytes =>
            dsimp only [Option.map_some, Entry.veil]
            split <;> rfl
          | link target =>
            dsimp only [Option.map_some, Entry.veil]
            split
            · rfl
            · exact h _ _

theorem follow_veil {links : Nat} (segments : List String) :
    (tree.veil places).follow followLast links location segments =
      (tree.follow followLast links location segments).map (Place.veil places) := by
  induction links generalizing location segments with
  | zero =>
    have h : ∀ (_ : Location) (_ : List String), (.error .linkLoop : Except IoError Place) =
        Except.map (Place.veil places) (.error .linkLoop) := fun _ _ => rfl
    exact followSegments_veil h segments
  | succ links ih => exact followSegments_veil (fun _ _ => ih _) segments

end Follow

theorem place_veil (followLast : Bool) (base : Option Location) :
    (tree.veil places).place path followLast base =
      (tree.place path followLast base).map (Place.veil places) := by
  unfold place
  split
  · rfl
  · cases start? path base with
    | none => rfl
    | some location => exact follow_veil _

theorem find_veil (base : Option Location) : (tree.veil places).find path base =
    (tree.find path base).map fun found => (found.1, found.2.veil (places found.1)) := by
  rw [find, find, place_veil]
  rcases tree.place path true base with e | ⟨location, entry⟩ | location <;> rfl

section Queries

theorem isDirectory_veil : (tree.veil places).isDirectory path = tree.isDirectory path := by
  rw [isDirectory, isDirectory, find_veil]
  rcases tree.find path with e | ⟨location, _ | _ | _⟩ <;> rfl

theorem isFile_veil : (tree.veil places).isFile path = tree.isFile path := by
  rw [isFile, isFile, find_veil]
  rcases tree.find path with e | ⟨location, _ | _ | _⟩ <;> rfl

theorem isFileAt_veil : (tree.veil places).isFileAt location = tree.isFileAt location := by
  rw [isFileAt, isFileAt, get?_veil]
  rcases tree.get? location with _ | _ | _ | _ <;> rfl

theorem below_veil : (tree.veil places).below location = tree.below location := by
  rw [below, below, veil, List.filter_map, List.map_map]
  rfl

theorem names_veil : (tree.veil places).names location = tree.names location := by
  rw [names, names, below_veil]

theorem filesBelow_veil : (tree.veil places).filesBelow location = tree.filesBelow location := by
  rw [filesBelow, filesBelow, below_veil]
  exact List.filter_congr fun _ _ => isFileAt_veil

theorem resolve?_veil (base : Option Location) :
    (tree.veil places).resolve? path base = tree.resolve? path base := by
  rw [resolve?, resolve?, find_veil]
  cases tree.find path base <;> rfl

end Queries

section Edits

theorem put_veil (entry : Entry) : (tree.put location entry).veil places =
    (tree.veil places).put location (entry.veil (places location)) := by
  simp only [put, veil, List.map_append, List.map_cons, List.map_nil, List.filter_map]
  rfl

theorem filter_veil (keep : Location → Bool) :
    (⟨tree.entries.filter fun e => keep e.1⟩ : Tree).veil places =
      ⟨(tree.veil places).entries.filter fun e => keep e.1⟩ := by
  simp only [veil, List.filter_map]
  rfl

theorem createDirectory_veil : (tree.veil places).createDirectory path =
    (tree.createDirectory path).map (veil places) := by
  rw [createDirectory, createDirectory, create, create, place_veil]
  rcases tree.place path false with e | ⟨location, entry⟩ | location
  · rfl
  · rfl
  · exact congrArg Except.ok (put_veil .directory).symm

theorem settled_veil (tree : Tree) (e : IoError) :
    (if (tree.veil places).isDirectory path then (tree.veil places, none)
      else (tree.veil places, some e)) =
      (if tree.isDirectory path then (tree, none) else (tree, some e)).map (veil places) id := by
  rw [isDirectory_veil]
  split <;> rfl

theorem createWithParents_veil (fuel : Nat) (path : Path) :
    (tree.veil places).createWithParents fuel path =
      (tree.createWithParents fuel path).map (veil places) id := by
  induction fuel generalizing tree path with
  | zero =>
    unfold createWithParents
    rw [createDirectory_veil]
    rcases tree.createDirectory path with e | made
    · cases e <;> first | rfl | exact settled_veil tree _
    · rfl
  | succ fuel ih =>
    unfold createWithParents
    rw [createDirectory_veil]
    rcases tree.createDirectory path with e | made
    · cases e with
      | notFound =>
        dsimp only [Except.map]
        cases parent? path with
        | none => rfl
        | some parent =>
          dsimp only
          rw [ih]
          rcases tree.createWithParents fuel parent with ⟨between, _ | e⟩
          · simp only [Prod.map_apply, id_eq, createDirectory_veil]
            rcases between.createDirectory path with e | made
            · exact settled_veil between e
            · rfl
          · rfl
      | _ => exact settled_veil tree _
    · rfl

theorem createDirectories_veil (path : Path) :
    (tree.veil places).createDirectories path =
      (tree.createDirectories path).map (veil places) id := by
  rw [createDirectories, createDirectories]
  split
  · rfl
  · exact createWithParents_veil _ path

theorem remove_veil (base : Option Location) : (tree.veil places).remove path base =
    (tree.remove path base).map (veil places) := by
  rw [remove, remove, place_veil]
  rcases tree.place path false base with e | ⟨location, _ | _ | _⟩ | location
  · rfl
  · exact congrArg Except.ok (filter_veil (· != location)).symm
  · rfl
  · exact congrArg Except.ok (filter_veil (· != location)).symm
  · rfl

theorem removeAll_veil (base : Option Location) : (tree.veil places).removeAll path base =
    (tree.removeAll path base).map (veil places) := by
  rw [removeAll, removeAll, place_veil]
  rcases tree.place path false base with e | ⟨location, _ | _ | _⟩ | location
  · rfl
  · rfl
  · exact congrArg Except.ok (filter_veil (!location.isPrefixOf ·)).symm
  · exact congrArg Except.ok (filter_veil (· != location)).symm
  · rfl

end Edits

-- Both trees are the same but for the bytes of files at some places.
def SameBut (places : Location → Prop) (tree other : Tree) : Prop :=
  other.veil places = tree.veil places

theorem veil_veil (h : ∀ location, places location → more location) (tree : Tree) :
    (tree.veil places).veil more = tree.veil more := by
  simp only [veil, List.map_map]
  congr 1
  refine List.map_congr_left fun e _ => ?_
  by_cases hplaces : places e.1
  · have hmore := h e.1 hplaces
    cases hentry : e.2 <;> simp [Entry.veil, hmore, hentry]
  · simp [Entry.veil_of_not hplaces]

theorem SameBut.mono (h : SameBut places tree other)
    (hmore : ∀ location, places location → more location) : SameBut more tree other := by
  rw [SameBut, ← veil_veil hmore other, ← veil_veil hmore tree, h]

theorem veil_of_none (hn : ∀ location, ¬ places location) (tree : Tree) :
    tree.veil places = tree := by
  simp only [veil, Entry.veil_of_not (hn _)]
  exact congrArg Tree.mk (List.map_id _)

theorem SameBut.eq (h : SameBut places tree other) (hn : ∀ location, ¬ places location) :
    other = tree := by
  rwa [SameBut, veil_of_none hn, veil_of_none hn] at h

-- A file at no such place reads the same.
theorem SameBut.readText (h : SameBut places tree other)
    (hfree : ∀ location entry, tree.find path = .ok (location, entry) → ¬ places location) :
    other.readText path = tree.readText path := by
  have hfind : (other.veil places).find path = (tree.veil places).find path := congrArg (find · path) h
  rw [find_veil, find_veil] at hfind
  rw [Tree.readText, Tree.readText]
  rcases htree : tree.find path with e | ⟨location, entry⟩ <;> rw [htree] at hfind <;>
    rcases hother : other.find path with e' | ⟨location', entry'⟩ <;> rw [hother] at hfind <;>
    simp only [Except.map, Except.ok.injEq, Prod.mk.injEq, Except.error.injEq, reduceCtorEq] at hfind
  · rw [hfind]
  · obtain ⟨rfl, hentry⟩ := hfind
    rw [Entry.veil_of_not (hfree _ _ htree), Entry.veil_of_not (hfree _ _ htree)] at hentry
    rw [hentry]

end Tree

end DocPipeline
