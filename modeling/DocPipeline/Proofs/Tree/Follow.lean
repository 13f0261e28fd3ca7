import DocPipeline.Proofs.Path.Names
import DocPipeline.Proofs.Tree.Way
import Mathlib.Data.List.Induction
import DocPipeline.Tree.Edit

namespace DocPipeline

-- What an entry of a directory can be called.
structure IsName (name : String) : Prop where
  ne_empty : name ≠ ""
  ne_here : name ≠ "."
  ne_up : name ≠ ".."
  no_slash : '/' ∉ name.toList
  no_nul : '\x00' ∉ name.toList

instance (name : String) : Decidable (IsName name) :=
  decidable_of_iff (name ≠ "" ∧ name ≠ "." ∧ name ≠ ".." ∧ '/' ∉ name.toList ∧
      '\x00' ∉ name.toList)
    ⟨fun ⟨hempty, hhere, hup, hslash, hnul⟩ => ⟨hempty, hhere, hup, hslash, hnul⟩,
      fun ⟨hempty, hhere, hup, hslash, hnul⟩ => ⟨hempty, hhere, hup, hslash, hnul⟩⟩

theorem IsName.isStep {name : String} (h : IsName name) : Path.IsStep name :=
  ⟨h.ne_empty, h.ne_here, h.ne_up, h.no_slash⟩

namespace Tree

theorem readText_of_find {tree : Tree} {file : Path} {location : Location} {text : String}
    (h : tree.find file = .ok (location, .file text.toUTF8)) : tree.readText file = .ok text := by
  have hdecode : String.fromUTF8? text.toUTF8 = some text := dif_pos text.isValidUTF8
  simp only [readText, h, hdecode]

-- A tree as file systems have it: all names are names, and everything is in a directory.
structure WellFormed (tree : Tree) : Prop where
  names : ∀ e ∈ tree.entries, ∀ name ∈ e.1, IsName name
  above : ∀ e ∈ tree.entries, tree.get? e.1.dropLast = some .directory

instance (tree : Tree) : Decidable tree.WellFormed :=
  decidable_of_iff ((∀ e ∈ tree.entries, ∀ name ∈ e.1, IsName name) ∧
      ∀ e ∈ tree.entries, tree.get? e.1.dropLast = some .directory)
    ⟨fun ⟨hnames, habove⟩ => ⟨hnames, habove⟩, fun ⟨hnames, habove⟩ => ⟨hnames, habove⟩⟩

variable {tree rest : Tree} {location : Location} {entry : Entry}

theorem mem_of_get? (h : tree.get? location = some entry) (hne : location ≠ []) :
    (location, entry) ∈ tree.entries := by
  rw [get?, if_neg hne] at h
  obtain ⟨⟨found, e⟩, hfind, rfl⟩ := Option.map_eq_some_iff.mp h
  obtain rfl : found = location := by simpa using List.find?_some hfind
  exact List.mem_of_find?_eq_some hfind

theorem isSome_get?_of_mem {e : Location × Entry} (h : e ∈ tree.entries) :
    (tree.get? e.1).isSome := by
  unfold get?
  split
  · rfl
  · rw [Option.isSome_map, List.find?_isSome]
    exact ⟨e, h, beq_self_eq_true e.1⟩

-- Taking away all entries at certain locations takes away nothing else.
theorem get?_filter (tree : Tree) (keep : Location → Bool) (hroot : keep [] = true)
    (location : Location) :
    get? ⟨tree.entries.filter fun e => keep e.1⟩ location =
      if keep location then tree.get? location else none := by
  by_cases hne : location = []
  · rw [hne, hroot]
    rfl
  · simp only [get?, if_neg hne, List.find?_filter]
    have hmatch :
        (fun e : Location × Entry => decide (keep e.1 = true ∧ (e.1 == location) = true)) =
          fun e => keep location && e.1 == location := by
      funext e
      by_cases he : e.1 = location <;> simp [he]
    rw [hmatch]
    cases keep location with
    | true => simp
    | false => simp

namespace WellFormed

theorem dropLast (hw : tree.WellFormed) (h : (tree.get? location).isSome) :
    tree.get? location.dropLast = some .directory := by
  by_cases hne : location = []
  · rw [hne]
    rfl
  · obtain ⟨entry, hentry⟩ := Option.isSome_iff_exists.mp h
    exact hw.above _ (mem_of_get? hentry hne)

-- Above an entry there are directories all the way up.
theorem above_of_prefix (hw : tree.WellFormed) {outer : Location} {below : List String}
    (h : (tree.get? (outer ++ below)).isSome) (hne : below ≠ []) :
    tree.get? outer = some .directory := by
  induction below using List.reverseRecOn with
  | nil => exact absurd rfl hne
  | append_singleton below name ih =>
    have hlast := hw.dropLast h
    rw [← List.append_assoc, List.dropLast_concat] at hlast
    by_cases hb : below = []
    · rwa [hb, List.append_nil] at hlast
    · exact ih (by rw [hlast]; rfl) hb

-- Nothing is below a file or a link.
theorem get?_below (hw : tree.WellFormed) {outer : Location}
    (h : tree.get? outer ≠ some .directory) (hbelow : outer <+: location)
    (hne : location ≠ outer) : tree.get? location = none := by
  obtain ⟨below, rfl⟩ := hbelow
  by_contra hsome
  refine h (hw.above_of_prefix (Option.isSome_iff_ne_none.mpr hsome) ?_)
  rintro rfl
  exact hne (List.append_nil _)

theorem isName (hw : tree.WellFormed) (h : (tree.get? location).isSome) {name : String}
    (hmem : name ∈ location) : IsName name := by
  obtain ⟨entry, hentry⟩ := Option.isSome_iff_exists.mp h
  exact hw.names _ (mem_of_get? hentry (List.ne_nil_of_mem hmem)) name hmem

end WellFormed

section Found

variable {followLast : Bool} {links : Nat} {start : Location} {segments : List String}
variable {reached : Place} {base : Option Location} {path : Path}

-- What is reached, directories apart, is as the tree has it.
def Place.In (tree : Tree) : Place → Prop
  | .found _ .directory => True
  | .found location entry => tree.get? location = some entry
  | .vacant location => location ≠ [] ∧ tree.get? location = none

-- In any tree, well formed or not.
theorem Way.reached_in (h : Way tree followLast links start segments reached) :
    reached.In tree := by
  induction h with
  | here => trivial
  | stay _ _ ih => exact ih
  | up _ _ ih => exact ih
  | down _ _ _ ih => exact ih
  | vacant _ hentry => exact ⟨by simp, hentry⟩
  | file _ hentry => exact hentry
  | link _ hentry => exact hentry
  | follow _ _ _ _ ih => exact ih

theorem get?_linkStart {target : String} (h : tree.get? start = some .directory) :
    tree.get? (linkStart start target) = some .directory := by
  unfold linkStart
  split
  · rfl
  · exact h

theorem Way.get?_eq (hw : tree.WellFormed) (hstart : tree.get? start = some .directory)
    (h : Way tree followLast links start segments (.found location entry)) :
    tree.get? location = some entry := by
  generalize hreached : Place.found location entry = reached at h
  induction h with
  | here =>
    cases hreached
    exact hstart
  | stay _ _ ih => exact ih hstart hreached
  | up _ _ ih => exact ih (hw.dropLast (by rw [hstart]; rfl)) hreached
  | down _ hentry _ ih => exact ih hentry hreached
  | vacant => cases hreached
  | file _ hentry =>
    cases hreached
    exact hentry
  | link _ hentry =>
    cases hreached
    exact hentry
  | follow _ _ _ _ ih => exact ih (get?_linkStart hstart) hreached

theorem place_in (h : tree.place path followLast base = .ok reached) : reached.In tree := by
  obtain ⟨-, start, -, hway⟩ := place_eq_ok_iff.mp h
  exact hway.reached_in

-- What a path leads to is there, if it is a file.
theorem place_file {bytes : ByteArray}
    (h : tree.place path followLast base = .ok (.found location (.file bytes))) :
    tree.get? location = some (.file bytes) :=
  place_in h

-- Where a path leads to a vacant place, there is nothing.
theorem place_vacant (h : tree.place path followLast base = .ok (.vacant location)) :
    location ≠ [] ∧ tree.get? location = none :=
  place_in h

end Found

-- The base that relative paths are followed from is a directory.
def IsBase (tree : Tree) (base : Option Location) : Prop :=
  ∀ location, base = some location → tree.get? location = some .directory

theorem place_found (hw : tree.WellFormed) {base : Option Location} (hb : tree.IsBase base)
    {path : Path} {followLast : Bool}
    (h : tree.place path followLast base = .ok (.found location entry)) :
    tree.get? location = some entry := by
  obtain ⟨-, start, hstart, hway⟩ := place_eq_ok_iff.mp h
  refine hway.get?_eq hw ?_
  unfold start? at hstart
  split at hstart
  · cases hstart
    rfl
  · split at hstart
    · cases hstart
    · exact hb start hstart

section Find

variable {path : Path} {base : Option Location}

theorem find_eq_ok_iff : tree.find path base = .ok (location, entry) ↔
    tree.place path true base = .ok (.found location entry) := by
  rw [find]
  split <;> simp [*]

theorem place_of_find (h : tree.find path base = .ok (location, entry)) :
    tree.place path true base = .ok (.found location entry) :=
  find_eq_ok_iff.mp h

-- What a path is found to lead to is there.
theorem find_found (hw : tree.WellFormed) (hb : tree.IsBase base)
    (h : tree.find path base = .ok (location, entry)) : tree.get? location = some entry :=
  place_found hw hb (place_of_find h)

theorem isDirectory_iff : tree.isDirectory path = true ↔
    ∃ location, tree.find path = .ok (location, .directory) := by
  rw [isDirectory]
  constructor
  · intro h
    split at h
    next location hfind => exact ⟨location, hfind⟩
    next => cases h
  · rintro ⟨location, hfind⟩
    rw [hfind]

theorem isFile_iff : tree.isFile path = true ↔
    ∃ location bytes, tree.find path = .ok (location, .file bytes) := by
  rw [isFile]
  constructor
  · intro h
    split at h
    next location bytes hfind => exact ⟨location, bytes, hfind⟩
    next => cases h
  · rintro ⟨location, bytes, hfind⟩
    rw [hfind]

theorem isFileAt_iff : tree.isFileAt location = true ↔
    ∃ bytes, tree.get? location = some (.file bytes) := by
  rw [isFileAt]
  constructor
  · intro h
    split at h
    next bytes hget => exact ⟨bytes, hget⟩
    next => cases h
  · rintro ⟨bytes, hget⟩
    rw [hget]

end Find

-- All of one tree is in the other.
def RestOf (rest tree : Tree) : Prop :=
  ∀ location entry, rest.get? location = some entry → tree.get? location = some entry

namespace RestOf

theorem get?_eq_none (h : rest.RestOf tree) (hnone : tree.get? location = none) :
    rest.get? location = none := by
  cases he : rest.get? location with
  | none => rfl
  | some entry =>
    rw [h _ _ he] at hnone
    cases hnone

theorem refl (tree : Tree) : tree.RestOf tree := fun _ _ h => h

theorem trans {tree' : Tree} (h : tree'.RestOf rest) (h' : rest.RestOf tree) :
    tree'.RestOf tree :=
  fun _ _ he => h' _ _ (h _ _ he)

variable {followLast : Bool}

-- Wherever a way goes on, the entry is the same in both trees.
theorem way (h : rest.RestOf tree) {links : Nat} {start : Location} {segments : List String}
    (hway : Way rest followLast links start segments (.found location entry)) :
    Way tree followLast links start segments (.found location entry) := by
  generalize hfound : Place.found location entry = reached at hway
  induction hway with
  | here => exact .here
  | stay hpart _ ih => exact .stay hpart (ih hfound)
  | up hpart _ ih => exact .up hpart (ih hfound)
  | down hpart hentry _ ih => exact .down hpart (h _ _ hentry) (ih hfound)
  | vacant => cases hfound
  | file hpart hentry => exact .file hpart (h _ _ hentry)
  | link hpart hentry hlast => exact .link hpart (h _ _ hentry) hlast
  | follow hpart hentry hlast _ ih => exact .follow hpart (h _ _ hentry) hlast (ih hfound)

-- A path that is found in what is left of a tree led there before.
theorem place (h : rest.RestOf tree) {base : Option Location} {path : Path}
    (hf : rest.place path followLast base = .ok (.found location entry)) :
    tree.place path followLast base = .ok (.found location entry) := by
  obtain ⟨hnul, start, hstart, hway⟩ := place_eq_ok_iff.mp hf
  exact place_eq_ok_iff.mpr ⟨hnul, start, hstart, h.way hway⟩

end RestOf

section Name

-- The place of a name in a directory.
def placeAt (tree : Tree) (location : Location) (name : String) : Place :=
  match tree.get? (location ++ [name]) with
  | some entry => .found (location ++ [name]) entry
  | none => .vacant (location ++ [name])

theorem way_name {name : String} (hn : IsName name) (location : Location) (links : Nat) :
    Way tree false links location [name] (tree.placeAt location name) := by
  have hpart := hn.isStep.ofSegment?
  unfold placeAt
  split
  next entry hentry =>
    cases entry with
    | directory => exact .down hpart hentry .here
    | file bytes => exact .file hpart hentry
    | link target => exact .link hpart hentry nofun
  next hentry => exact .vacant hpart hentry

-- The path of a name in a directory is found there, whatever is there.
theorem place_join {destination : Path} {base : Option Location} {name : String}
    (hn : IsName name) (h : tree.find destination base = .ok (location, .directory)) :
    tree.place (destination.join ⟨name⟩) false base = .ok (tree.placeAt location name) := by
  have hrelative := Path.isAbsolute_of_no_slash hn.no_slash
  obtain ⟨between, htext, hbetween⟩ := Path.toList_join destination hrelative
  obtain ⟨hnul, start, hstart, hway⟩ := place_eq_ok_iff.mp (place_of_find h)
  have hne : destination.text ≠ "" := by
    intro he
    simp [start?, Path.isAbsolute, he] at hstart
  have hjoin : start? (destination.join ⟨name⟩) base = some start := by
    have hjoined : (destination.join ⟨name⟩).text ≠ "" := by
      intro he
      rw [he] at htext
      simp [hne] at htext
    simpa [start?, Path.isAbsolute_join hrelative, hne, hjoined] using hstart
  have hfree : '\x00' ∉ (destination.join ⟨name⟩).text.toList := by
    rw [htext, List.mem_append, List.mem_append, not_or, not_or]
    exact ⟨⟨hnul, fun h => absurd (hbetween _ h) (by decide)⟩, hn.no_nul⟩
  obtain ⟨front, hsegments, hfront⟩ := Path.segments_join hrelative hne
  rw [Path.segments_of_no_slash hn.no_slash] at hsegments
  have hlead : Way tree true maxLinks start front (.found location .directory) := by
    obtain hfront | hfront := hfront <;> rw [hfront] at hway
    · exact hway
    · exact hway.of_slash
  refine place_eq_ok_iff.mpr ⟨hfree, start, hjoin, ?_⟩
  rw [hsegments]
  exact hlead.append (List.cons_ne_nil _ _) (way_name hn location)

end Name

end Tree

end DocPipeline
