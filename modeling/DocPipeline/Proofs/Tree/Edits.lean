import DocPipeline.Proofs.Tree.Follow
import Mathlib.Logic.Relation

namespace DocPipeline.Tree

variable {tree after : Tree} {path : Path} {location : Location} {entry : Entry}

theorem get?_put (hne : location ≠ []) (tree : Tree) (entry : Entry) (other : Location) :
    (tree.put location entry).get? other =
      if other = location then some entry else tree.get? other := by
  by_cases ho : other = []
  · simp [get?, ho, Ne.symm hne]
  · by_cases hl : other = location
    · subst hl
      have hnone : (tree.entries.filter (·.1 != other)).find? (·.1 == other) = none := by
        simp [List.find?_eq_none]
      simp [get?, put, ho, List.find?_append, hnone]
    · have hkeep : (tree.entries.filter (·.1 != location)).find? (·.1 == other) =
          tree.entries.find? (·.1 == other) := by
        rw [List.find?_filter]
        congr 1
        funext e
        by_cases he : e.1 = other <;> simp [he, hl]
      simp [get?, put, ho, hl, List.find?_append, hkeep, Ne.symm hl]

-- An entry that is put where there was none hides nothing.
theorem restOf_put (hne : location ≠ []) (hnone : tree.get? location = none) :
    tree.RestOf (tree.put location entry) := by
  intro other e he
  rw [get?_put hne]
  split
  next h =>
    rw [h, hnone] at he
    cases he
  next => exact he

section Vacant

variable {followLast : Bool} {links : Nat} {start : Location} {segments : List String}

-- A path that leads to a vacant place never comes across it before.
theorem Way.put (h : Way tree followLast links start segments (.vacant location)) :
    Way (tree.put location .directory) true links start segments (.found location .directory) := by
  obtain ⟨hne, hnone⟩ := h.reached_in
  have hsame : tree.RestOf (tree.put location .directory) := restOf_put hne hnone
  generalize hvacant : Place.vacant location = reached at h
  induction h with
  | here => cases hvacant
  | stay hpart _ ih => exact .stay hpart (ih hvacant)
  | up hpart _ ih => exact .up hpart (ih hvacant)
  | down hpart hentry _ ih => exact .down hpart (hsame _ _ hentry) (ih hvacant)
  | vacant hpart =>
    cases hvacant
    exact .down hpart (by rw [get?_put hne, if_pos rfl]) .here
  | file => cases hvacant
  | link => cases hvacant
  | follow hpart hentry _ _ ih =>
    exact .follow hpart (hsame _ _ hentry) (fun hlast => hlast.2 rfl) (ih hvacant)

theorem find_put {base : Option Location}
    (h : tree.place path followLast base = .ok (.vacant location)) :
    (tree.put location .directory).find path base = .ok (location, .directory) := by
  obtain ⟨hnul, start, hstart, hway⟩ := place_eq_ok_iff.mp h
  exact find_eq_ok_iff.mpr (place_eq_ok_iff.mpr ⟨hnul, start, hstart, hway.put⟩)

end Vacant

theorem RestOf.find (h : tree.RestOf after) {base : Option Location}
    (hf : tree.find path base = .ok (location, entry)) :
    after.find path base = .ok (location, entry) :=
  find_eq_ok_iff.mpr (h.place (place_of_find hf))

section Directories

theorem createDirectory_eq_ok (h : tree.createDirectory path = .ok after) :
    ∃ location, location ≠ [] ∧ tree.get? location = none ∧
      after = tree.put location .directory ∧ after.find path = .ok (location, .directory) := by
  unfold createDirectory create at h
  split at h
  next => cases h
  next location hplace =>
    cases h
    obtain ⟨hne, hnone⟩ := place_vacant hplace
    exact ⟨location, hne, hnone, rfl, find_put hplace⟩
  next => cases h

-- The path itself, or one that names a directory above it.
def Above (path above : Path) : Prop :=
  Relation.ReflTransGen (fun path above => parent? path = some above) path above

-- A place without an entry that has become a directory, to which the path or one above it leads.
structure Paved (tree after : Tree) (path : Path) (location : Location) : Prop where
  vacant : tree.get? location = none
  directory : after.get? location = some .directory
  above : ∃ above, Above path above ∧ after.find above = .ok (location, .directory)

-- One tree grew out of the other by creating directories on the way of a path.
structure Grown (tree after : Tree) (path : Path) : Prop where
  restOf : tree.RestOf after
  paved : ∀ location, after.get? location ≠ tree.get? location → Paved tree after path location

namespace Grown

variable {between : Tree}

theorem refl (tree : Tree) (path : Path) : Grown tree tree path :=
  ⟨RestOf.refl tree, fun _ h => absurd rfl h⟩

-- What grew for a path above grew for the path.
theorem of_parent {above : Path} (hp : parent? path = some above) (h : Grown tree after above) :
    Grown tree after path := by
  refine ⟨h.restOf, fun location hl => ?_⟩
  obtain ⟨hvacant, hdirectory, further, habove, hfind⟩ := h.paved location hl
  exact ⟨hvacant, hdirectory, further, .head hp habove, hfind⟩

theorem createDirectory (h : Grown tree between path)
    (hc : between.createDirectory path = .ok after) : Grown tree after path := by
  obtain ⟨created, hne, hnone, rfl, hfind⟩ := createDirectory_eq_ok hc
  have hrest : between.RestOf (between.put created .directory) := restOf_put hne hnone
  refine ⟨h.restOf.trans hrest, fun location hl => ?_⟩
  by_cases hcreated : location = created
  · subst hcreated
    refine ⟨h.restOf.get?_eq_none hnone, ?_, path, .refl, hfind⟩
    rw [get?_put hne, if_pos rfl]
  · rw [get?_put hne, if_neg hcreated] at hl
    obtain ⟨hvacant, hdirectory, above, habove, hfind⟩ := h.paved location hl
    exact ⟨hvacant, hrest _ _ hdirectory, above, habove, hrest.find hfind⟩

end Grown

theorem Grown.settled (h : Grown tree after path) {e : IoError} {settled : Tree}
    {result : Option IoError}
    (hs : (if after.isDirectory path then (after, none) else (after, some e)) = (settled, result)) :
    Grown tree settled path ∧
      (result = none → ∃ home, settled.find path = .ok (home, .directory)) := by
  split at hs
  next hdirectory =>
    cases hs
    exact ⟨h, fun _ => isDirectory_iff.mp hdirectory⟩
  next =>
    cases hs
    exact ⟨h, nofun⟩

theorem Grown.created {between : Tree} (h : Grown tree between path)
    (hc : between.createDirectory path = .ok after) :
    Grown tree after path ∧ ∃ home, after.find path = .ok (home, .directory) := by
  obtain ⟨home, -, -, -, hfind⟩ := createDirectory_eq_ok hc
  exact ⟨h.createDirectory hc, home, hfind⟩

-- By induction on the count of directories that may be missing.
theorem createWithParents_grown {fuel : Nat} {result : Option IoError}
    (h : createWithParents fuel tree path = (after, result)) :
    Grown tree after path ∧ (result = none → ∃ home, after.find path = .ok (home, .directory)) := by
  induction fuel generalizing tree path after result with
  | zero =>
    unfold createWithParents at h
    split at h
    next hcreate =>
      cases h
      obtain ⟨hgrown, hhome⟩ := (Grown.refl tree path).created hcreate
      exact ⟨hgrown, fun _ => hhome⟩
    next =>
      cases h
      exact ⟨Grown.refl tree path, nofun⟩
    next => exact (Grown.refl tree path).settled h
  | succ fuel ih =>
    unfold createWithParents at h
    split at h
    next hcreate =>
      cases h
      obtain ⟨hgrown, hhome⟩ := (Grown.refl tree path).created hcreate
      exact ⟨hgrown, fun _ => hhome⟩
    next =>
      split at h
      next fuel' parent heq hparent =>
        obtain rfl : fuel = fuel' := Nat.succ.inj heq
        split at h
        next hparents =>
          cases h
          exact ⟨(ih hparents).1.of_parent hparent, nofun⟩
        next hparents =>
          have hgrown := (ih hparents).1.of_parent hparent
          split at h
          next hcreate =>
            cases h
            obtain ⟨hgrown, hhome⟩ := hgrown.created hcreate
            exact ⟨hgrown, fun _ => hhome⟩
          next => exact hgrown.settled h
      next =>
        cases h
        exact ⟨Grown.refl tree path, nofun⟩
    next => exact (Grown.refl tree path).settled h

-- Whatever comes of it, only missing directories on the way of the path are created.
theorem createDirectories_grown {result : Option IoError}
    (h : tree.createDirectories path = (after, result)) :
    Grown tree after path ∧ (result = none → path.text ≠ "" →
      ∃ home, after.find path = .ok (home, .directory)) := by
  unfold createDirectories at h
  split at h
  next hempty =>
    cases h
    exact ⟨Grown.refl tree path, fun _ hne => absurd hempty hne⟩
  next =>
    obtain ⟨hgrown, hhome⟩ := createWithParents_grown h
    exact ⟨hgrown, fun hresult _ => hhome hresult⟩

end Directories

section Write

-- Where writing to a path writes, with links followed to the end.
def Lands (tree : Tree) (path : Path) (location : Location) : Prop :=
  tree.place (withoutSlashes path).1 true = .ok (.vacant location) ∨
    ∃ bytes, tree.place (withoutSlashes path).1 true = .ok (.found location (.file bytes))

theorem Lands.ne_nil (h : tree.Lands path location) : location ≠ [] := by
  obtain h | ⟨bytes, h⟩ := h
  · exact (place_vacant h).1
  · have hfile := place_file h
    rintro rfl
    cases hfile

theorem writeBytes_eq_ok {bytes : ByteArray} (h : tree.writeBytes path bytes = .ok after) :
    ∃ location, tree.Lands path location ∧ after = tree.put location (.file bytes) := by
  unfold writeBytes at h
  dsimp only at h
  split at h
  next => cases h
  next location hplace =>
    split at h <;> cases h
    exact ⟨location, .inl hplace, rfl⟩
  next location old hplace =>
    split at h <;> cases h
    exact ⟨location, .inr ⟨old, hplace⟩, rfl⟩
  next => cases h

variable {reached : Place}

def Place.IsLink : Place → Prop
  | .found _ (.link _) => True
  | _ => False

-- Whether the last link is followed makes no difference where there is none.
theorem Way.of_not_isLink (hr : ¬ reached.IsLink) {links : Nat} {start : Location}
    {segments : List String} (h : Way tree false links start segments reached) :
    Way tree true links start segments reached := by
  induction h with
  | here => exact .here
  | stay hpart _ ih => exact .stay hpart (ih hr)
  | up hpart _ ih => exact .up hpart (ih hr)
  | down hpart hentry _ ih => exact .down hpart hentry (ih hr)
  | vacant hpart hentry => exact .vacant hpart hentry
  | file hpart hentry => exact .file hpart hentry
  | link => exact absurd trivial hr
  | follow hpart hentry _ _ ih =>
    exact .follow hpart hentry (fun hlast => hlast.2 rfl) (ih hr)

theorem place_of_not_isLink (hr : ¬ reached.IsLink) {base : Option Location}
    (h : tree.place path false base = .ok reached) : tree.place path true base = .ok reached := by
  obtain ⟨hnul, start, hstart, hway⟩ := place_eq_ok_iff.mp h
  exact place_eq_ok_iff.mpr ⟨hnul, start, hstart, hway.of_not_isLink hr⟩

theorem withoutSlashes_of_getLast {c : Char} (h : path.text.toList.getLast? = some c)
    (hc : c ≠ '/') : withoutSlashes path = (path, false) := by
  obtain ⟨front, hfront⟩ := List.getLast?_eq_some_iff.mp h
  have hkept : path.text.toList.reverse.dropWhile (· == '/') = path.text.toList.reverse := by
    rw [hfront, List.reverse_concat, List.dropWhile_cons_of_neg (by simpa using hc)]
  have htext : String.ofList path.text.toList.reverse.reverse = path.text := by simp
  rw [withoutSlashes, hkept, htext]
  simp [hfront]

section Name

variable {directory : Path} {name : String} {home : Location}

theorem withoutSlashes_join (hn : IsName name) (directory : Path) :
    withoutSlashes (directory.join ⟨name⟩) = (directory.join ⟨name⟩, false) := by
  obtain ⟨between, htext, -⟩ :=
    Path.toList_join directory (Path.isAbsolute_of_no_slash hn.no_slash)
  have hne : name.toList ≠ [] := by simpa using hn.ne_empty
  have hlast : (directory.join ⟨name⟩).text.toList.getLast? = some (name.toList.getLast hne) := by
    rw [htext, List.getLast?_append, List.getLast?_eq_some_getLast hne, Option.some_or]
  exact withoutSlashes_of_getLast hlast fun he => hn.no_slash (he ▸ List.getLast_mem hne)

-- A name in a directory is written right there, unless there is a link of that name.
theorem lands_join (hn : IsName name) (hfind : tree.find directory = .ok (home, .directory))
    (hlink : ∀ target, tree.get? (home ++ [name]) ≠ some (.link target))
    (h : tree.Lands (directory.join ⟨name⟩) location) : location = home ++ [name] := by
  have hnotLink : ¬ (tree.placeAt home name).IsLink := by
    unfold placeAt
    split
    next entry hentry =>
      cases entry with
      | link target => exact absurd hentry (hlink target)
      | _ => exact id
    next => exact id
  have hplace := place_of_not_isLink hnotLink (place_join hn hfind)
  unfold Lands at h
  rw [withoutSlashes_join hn, hplace] at h
  unfold placeAt at h
  split at h <;> obtain h | ⟨_, h⟩ := h <;> cases h <;> rfl

-- A name on its own leads nowhere.
theorem not_lands_name (hn : IsName name) (hd : directory.text = "") :
    ¬ tree.Lands (directory.join ⟨name⟩) location := by
  have hrelative := Path.isAbsolute_of_no_slash hn.no_slash
  have hplace : tree.place (directory.join ⟨name⟩) true = .error .notFound := by
    simp [place, Path.join_of_empty hd, start?, hrelative, hn.no_nul]
  rw [Lands, withoutSlashes_join hn, hplace]
  rintro (h | ⟨_, h⟩) <;> cases h

end Name

end Write

end DocPipeline.Tree
