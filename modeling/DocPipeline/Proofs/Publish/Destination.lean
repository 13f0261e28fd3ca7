import DocPipeline.Failure.Kind
import DocPipeline.Proofs.Tree.Follow
import DocPipeline.Publish.Destination

namespace DocPipeline

namespace Tree

variable {tree : Tree} {location : Location}

theorem isBelow_iff {above : Location} :
    isBelow location above = true ↔ ∃ name rest, location = above ++ name :: rest := by
  rw [isBelow, Bool.and_eq_true, List.isPrefixOf_iff_prefix, decide_eq_true_iff]
  constructor
  · rintro ⟨⟨_ | ⟨name, rest⟩, rfl⟩, hlength⟩
    · simp at hlength
    · exact ⟨name, rest, rfl⟩
  · rintro ⟨name, rest, rfl⟩
    exact ⟨List.prefix_append _ _, by simp⟩

-- What is below a location are the entries there, but for the location itself.
theorem mem_below {names : List String} :
    names ∈ tree.below location ↔ names ≠ [] ∧ (tree.get? (location ++ names)).isSome := by
  rw [below, sortLocations, List.mem_mergeSort, List.mem_map]
  constructor
  · rintro ⟨e, he, hdrop⟩
    obtain ⟨hmem, hbelow⟩ := List.mem_filter.mp he
    obtain ⟨first, rest, hlocation⟩ := isBelow_iff.mp hbelow
    rw [hlocation, List.drop_left] at hdrop
    rw [← hdrop, ← hlocation]
    exact ⟨List.cons_ne_nil _ _, isSome_get?_of_mem hmem⟩
  · rintro ⟨hne, h⟩
    obtain ⟨entry, hentry⟩ := Option.isSome_iff_exists.mp h
    obtain ⟨first, rest, rfl⟩ := List.exists_cons_of_ne_nil hne
    refine ⟨_, List.mem_filter.mpr ⟨mem_of_get? hentry (by simp), ?_⟩, List.drop_left⟩
    exact isBelow_iff.mpr ⟨first, rest, rfl⟩

-- The names in a directory are those of the entries directly in it.
theorem mem_names {name : String} :
    name ∈ tree.names location ↔ (tree.get? (location ++ [name])).isSome := by
  have hmem : name ∈ tree.names location ↔ [name] ∈ tree.below location := by
    unfold names
    rw [List.mem_filterMap]
    constructor
    · rintro ⟨found, hfound, hname⟩
      split at hname <;> cases hname
      exact hfound
    · exact fun h => ⟨[name], h, rfl⟩
  rw [hmem, mem_below]
  exact and_iff_right (List.cons_ne_nil _ _)

theorem placeAt_eq_found {name : String} {found : Location} {entry : Entry}
    (h : tree.placeAt location name = .found found entry) :
    found = location ++ [name] ∧ tree.get? found = some entry := by
  unfold placeAt at h
  split at h <;> cases h
  exact ⟨rfl, by assumption⟩

theorem remove_eq_ok {after : Tree} {path : Path} {base : Option Location}
    (h : tree.remove path base = .ok after) :
    ∃ found entry, tree.place path false base = .ok (.found found entry) ∧ entry ≠ .directory ∧
      after = ⟨tree.entries.filter (·.1 != found)⟩ := by
  unfold remove at h
  split at h
  next => cases h
  next => cases h
  next => cases h
  next found entry hentry hplace =>
    cases h
    exact ⟨found, entry, hplace, hentry, rfl⟩

theorem removeAll_eq_ok {after : Tree} {path : Path} {base : Option Location}
    (h : tree.removeAll path base = .ok after) :
    ∃ found entry, tree.place path false base = .ok (.found found entry) ∧
      (entry = .directory ∧ after = ⟨tree.entries.filter fun e => !found.isPrefixOf e.1⟩ ∨
        ∃ target, entry = .link target) := by
  unfold removeAll at h
  split at h
  next => cases h
  next => cases h
  next found hplace =>
    cases h
    exact ⟨found, .directory, hplace, .inl ⟨rfl, rfl⟩⟩
  next found target hplace => exact ⟨found, .link target, hplace, .inr ⟨target, rfl⟩⟩
  next => cases h

end Tree

namespace Destination

variable {tree : Tree} {destination dir : Path} {base : Option Location} {location : Location}

-- The destination is the working directory or one above it, in spelling or once links are resolved.
def Encloses (tree : Tree) (destination dir : Path) (base : Option Location) : Prop :=
  destination.normalize.parts <+: dir.normalize.parts ∨
    ∃ outer inner, tree.resolve? destination base = some outer ∧
      tree.resolve? dir base = some inner ∧ outer <+: inner

theorem contains_iff : contains tree destination dir base = true ↔
    Encloses tree destination dir base := by
  rw [contains, Bool.or_eq_true, Path.isWithin, List.isPrefixOf_iff_prefix, Encloses]
  refine or_congr_right ?_
  cases tree.resolve? destination base <;> cases tree.resolve? dir base <;>
    simp [List.isPrefixOf_iff_prefix]

-- One entry is taken away with everything below it and nothing else is, where the path leads to it
-- in the tree that was there at first.
theorem get?_removeEntry (hw : tree.WellFormed) {rest after : Tree} (hrest : rest.RestOf tree)
    {name : String} {path : Path}
    (hplace : tree.place path false base = .ok (tree.placeAt location name))
    (h : removeEntry rest location name path base = .ok after) (other : Location) :
    after.get? other = if (location ++ [name]).isPrefixOf other then none else rest.get? other := by
  have hfound : ∀ {found entry}, rest.place path false base = .ok (.found found entry) →
      found = location ++ [name] ∧ tree.get? found = some entry := by
    intro found entry hf
    have hsame := (hrest.place hf).symm.trans hplace
    exact Tree.placeAt_eq_found (Except.ok.inj hsame).symm
  unfold removeEntry at h
  split at h
  next hdirectory =>
    obtain ⟨found, entry, hplaced, ⟨rfl, rfl⟩ | ⟨target, rfl⟩⟩ := Tree.removeAll_eq_ok h
    · obtain ⟨rfl, -⟩ := hfound hplaced
      rw [Tree.get?_filter rest (fun l => !(location ++ [name]).isPrefixOf l) (by simp)]
      cases (location ++ [name]).isPrefixOf other <;> rfl
    · obtain ⟨rfl, hlink⟩ := hfound hplaced
      rw [hrest _ _ hdirectory] at hlink
      cases hlink
  next =>
    obtain ⟨found, entry, hplaced, hentry, rfl⟩ := Tree.remove_eq_ok h
    obtain ⟨rfl, htree⟩ := hfound hplaced
    rw [Tree.get?_filter rest (fun l => l != location ++ [name]) (by simp)]
    by_cases hother : other = location ++ [name]
    · simp [hother]
    · cases hbelow : (location ++ [name]).isPrefixOf other with
      | false => simp [hother]
      | true =>
        -- Nothing is below what is no directory.
        have hfile : tree.get? (location ++ [name]) ≠ some .directory := by
          rw [htree]
          exact fun he => hentry (Option.some.inj he)
        have hnone := hw.get?_below hfile (List.isPrefixOf_iff_prefix.mp hbelow) hother
        simp [hother, hrest.get?_eq_none hnone]

-- The names are gone through in their order until one cannot be taken away. Of those before it
-- nothing is left, nor of what was below them.
theorem get?_removeEach (hw : tree.WellFormed)
    (hfind : tree.find destination base = .ok (location, .directory)) {names : List String}
    (hnames : ∀ name ∈ names, IsName name) {rest after : Tree} {result : Except Failure Unit}
    (hrest : rest.RestOf tree)
    (h : removeEach destination location base names rest = (after, result)) :
    ∃ gone, gone <+: names ∧ (result = .ok () → gone = names) ∧
      ∀ other, after.get? other =
        if gone.any fun name => (location ++ [name]).isPrefixOf other then none
        else rest.get? other := by
  induction names generalizing rest with
  | nil =>
    cases h
    exact ⟨[], List.prefix_rfl, fun _ => rfl, fun _ => rfl⟩
  | cons name names ih =>
    unfold removeEach at h
    dsimp only at h
    split at h
    next less hremoved =>
      have hplace := Tree.place_join (hnames name List.mem_cons_self) hfind
      have hless := get?_removeEntry hw hrest hplace hremoved
      have hlessOf : less.RestOf rest := by
        intro l entry hl
        rw [hless] at hl
        split at hl
        · cases hl
        · exact hl
      obtain ⟨gone, hprefix, hall, hafter⟩ :=
        ih (fun n hn => hnames n (List.mem_cons_of_mem name hn)) (hlessOf.trans hrest) h
      refine ⟨name :: gone, List.cons_prefix_cons.mpr ⟨rfl, hprefix⟩,
        fun hok => congrArg _ (hall hok), fun other => ?_⟩
      rw [hafter, hless, List.any_cons]
      cases (location ++ [name]).isPrefixOf other <;> simp
    next =>
      cases h
      exact ⟨[], List.nil_prefix, nofun, fun _ => rfl⟩

section Empty

variable {list : Tree → Location → List String} {after : Tree} {result : Except Failure Bool}
  {outer : Location}

theorem get?_empty (hw : tree.WellFormed)
    (hl : ∀ location name, name ∈ list tree location ↔ name ∈ tree.names location)
    (hc : ¬ contains tree destination dir base = true)
    (hfind : tree.find destination base = .ok (outer, .directory))
    (h : empty tree destination dir base list = (after, result)) :
    ∃ gone, (result = .ok true ∧ gone = list tree outer ∨ ∃ failure, result = .error failure) ∧
      ∀ other, after.get? other =
        if gone.any fun name => (outer ++ [name]).isPrefixOf other then none
        else tree.get? other := by
  have hnames : ∀ name ∈ list tree outer, IsName name := by
    intro name hname
    have hsome := Tree.mem_names.mp ((hl outer name).mp hname)
    exact hw.isName hsome (List.mem_append_right outer (List.mem_singleton_self name))
  simp only [empty, if_neg hc, hfind] at h
  rcases hr : removeEach destination outer base (list tree outer) tree with ⟨left, done⟩
  rw [hr] at h
  obtain ⟨gone, -, hall, hafter⟩ := get?_removeEach hw hfind hnames (Tree.RestOf.refl tree) hr
  refine ⟨gone, ?_, ?_⟩
  · cases done with
    | ok _ =>
      cases h
      exact .inl ⟨rfl, hall rfl⟩
    | error failure =>
      cases h
      exact .inr ⟨failure, rfl⟩
  · obtain ⟨rfl, -⟩ := Prod.mk.inj h
    exact hafter

-- Only what is below the directory that the destination leads to may be gone afterwards.
theorem get?_empty_of_outside (hw : tree.WellFormed)
    (hl : ∀ location name, name ∈ list tree location ↔ name ∈ tree.names location)
    (h : empty tree destination dir base list = (after, result)) {other : Location}
    (hother : ∀ outer, tree.resolve? destination base = some outer →
      Tree.isBelow other outer = false) : after.get? other = tree.get? other := by
  by_cases hc : contains tree destination dir base = true
  · simp only [empty, if_pos hc] at h
    cases h
    rfl
  · rcases hfind : tree.find destination base with e | ⟨outer, _ | _ | target⟩
    case ok.directory =>
      obtain ⟨gone, -, hafter⟩ := get?_empty hw hl hc hfind h
      have hresolve : tree.resolve? destination base = some outer := by
        rw [Tree.resolve?, hfind]
      have hnone : (gone.any fun name => (outer ++ [name]).isPrefixOf other) = false := by
        rw [List.any_eq_false]
        rintro name - hprefix
        obtain ⟨more, rfl⟩ := List.isPrefixOf_iff_prefix.mp hprefix
        have hbelow : Tree.isBelow (outer ++ [name] ++ more) outer = true :=
          Tree.isBelow_iff.mpr ⟨name, more, by simp⟩
        rw [hother outer hresolve] at hbelow
        cases hbelow
      rw [hafter, hnone]
      rfl
    case error =>
      simp only [empty, if_neg hc, hfind] at h
      cases e <;> cases h <;> rfl
    all_goals
      simp only [empty, if_neg hc, hfind] at h
      cases h
      rfl

-- Nothing is left of what was below the directory.
theorem get?_empty_of_below (hw : tree.WellFormed)
    (hl : ∀ location name, name ∈ list tree location ↔ name ∈ tree.names location)
    {entry : Entry} (hfind : tree.find destination base = .ok (outer, entry)) {emptied : Bool}
    (h : empty tree destination dir base list = (after, .ok emptied)) :
    entry = .directory ∧ ∀ location, Tree.isBelow location outer → after.get? location = none := by
  have hc : ¬ contains tree destination dir base = true := by
    intro hc
    simp only [empty, if_pos hc] at h
    cases h
  cases entry with
  | directory =>
    refine ⟨rfl, fun location hbelow => ?_⟩
    obtain ⟨gone, ⟨-, rfl⟩ | ⟨_, hf⟩, hafter⟩ := get?_empty hw hl hc hfind h
    · rw [hafter]
      obtain ⟨name, more, rfl⟩ := Tree.isBelow_iff.mp hbelow
      cases htree : tree.get? (outer ++ name :: more) with
      | none => exact ite_self none
      | some found =>
        -- What was there was below an entry of the directory, which was listed.
        have hlisted : name ∈ list tree outer := by
          rw [hl, Tree.mem_names]
          by_cases hmore : more = []
          · rw [hmore] at htree
            rw [htree]
            rfl
          · rw [List.append_cons] at htree
            rw [hw.above_of_prefix (by rw [htree]; rfl) hmore]
            rfl
        rw [if_pos]
        refine List.any_eq_true.mpr ⟨name, hlisted, List.isPrefixOf_iff_prefix.mpr ⟨more, ?_⟩⟩
        rw [List.append_assoc]
        rfl
    · cases hf
  | file bytes =>
    simp only [empty, if_neg hc, hfind] at h
    cases h
  | link target =>
    simp only [empty, if_neg hc, hfind] at h
    cases h

end Empty

-- For every tree, with links of any kind, and however the paths are spelled. If the destination is
-- the working directory or above it, emptying it is refused and changes nothing. In all other
-- cases, in whatever order the destination is listed and even if that fails halfway, the working
-- directory stays with all directories above it, and so does everything that is not below the
-- directory to which the destination leads, whatever links lead there. If it does not fail, that
-- directory is still there and nothing is below it. The working directory is the place that its
-- path led to beforehand. A spelling of it that goes through a link in the destination leads
-- nowhere once the link is gone.
theorem empty_is_safe (hw : tree.WellFormed) (hb : tree.IsBase base)
    {list : Tree → Location → List String}
    (hl : ∀ location name, name ∈ list tree location ↔ name ∈ tree.names location)
    (destination dir : Path) :
    (Encloses tree destination dir base →
      empty tree destination dir base list = (tree, .error (refusal destination)) ∧
        (refusal destination).kind = "ConfigValidation") ∧
    ∀ after result, empty tree destination dir base list = (after, result) →
      (∀ emptied, result = .ok emptied →
        ∀ outer entry, tree.find destination base = .ok (outer, entry) →
          after.get? outer = some .directory ∧
            ∀ location, Tree.isBelow location outer → after.get? location = none) ∧
      (∀ inner entry, tree.find dir base = .ok (inner, entry) →
        after.get? inner = some entry ∧
          ∀ above, above <+: inner → above ≠ inner → after.get? above = some .directory) ∧
      ∀ location, (∀ outer, tree.resolve? destination base = some outer →
          Tree.isBelow location outer = false) →
        after.get? location = tree.get? location ∧
          ∀ path entry, tree.find path base = .ok (location, entry) →
            after.get? location = some entry := by
  have hrefused : Encloses tree destination dir base →
      empty tree destination dir base list = (tree, .error (refusal destination)) := by
    intro hencloses
    rw [empty, if_pos (contains_iff.mpr hencloses)]
  refine ⟨fun hencloses => ⟨hrefused hencloses, rfl⟩, fun after result h => ?_⟩
  have houtside : ∀ location, (∀ outer, tree.resolve? destination base = some outer →
      Tree.isBelow location outer = false) → after.get? location = tree.get? location :=
    fun location hlocation => get?_empty_of_outside hw hl h hlocation
  refine ⟨?_, ?_, ?_⟩
  · rintro emptied rfl outer entry hfind
    obtain ⟨rfl, hbelow⟩ := get?_empty_of_below hw hl hfind h
    refine ⟨?_, hbelow⟩
    rw [houtside outer, Tree.find_found hw hb hfind]
    intro resolved hresolved
    rw [Tree.resolve?, hfind] at hresolved
    cases hresolved
    simp [Tree.isBelow]
  · intro inner entry hfind
    have hentry := Tree.find_found hw hb hfind
    -- Nothing on the way to the working directory is below the destination.
    have hway : ∀ above, above <+: inner → after.get? above = tree.get? above := by
      intro above habove
      by_cases hencloses : Encloses tree destination dir base
      · rw [hrefused hencloses] at h
        cases h
        rfl
      · apply houtside
        intro outer hresolve
        by_contra hbelow
        obtain ⟨name, more, rfl⟩ := Tree.isBelow_iff.mp (by simpa using hbelow)
        refine hencloses (.inr ⟨outer, inner, hresolve, ?_, ?_⟩)
        · rw [Tree.resolve?, hfind]
        · exact (List.prefix_append outer (name :: more)).trans habove
    refine ⟨by rw [hway inner List.prefix_rfl, hentry], fun above habove hne => ?_⟩
    rw [hway above habove]
    obtain ⟨below, rfl⟩ := habove
    refine hw.above_of_prefix (by rw [hentry]; rfl) ?_
    rintro rfl
    exact hne (List.append_nil above).symm
  · intro location hlocation
    refine ⟨houtside location hlocation, fun path entry hfind => ?_⟩
    rw [houtside location hlocation]
    exact Tree.find_found hw hb hfind

-- A project with its destination inside, two links to that, and one from there to the sources.
def linkedTree : Tree :=
  ⟨[(["p"], .directory), (["p", "docs"], .directory), (["p", "docs", "a.html"], .file .empty),
    (["p", "docs", "img"], .directory), (["p", "docs", "img", "x"], .link "/p/src"),
    (["p", "src"], .directory), (["p", "src", "main.js"], .file .empty),
    (["out"], .link "p/docs/"), (["q"], .link "p/docs/img/x")]⟩

-- The names in a directory in the order of the entries.
def listing (tree : Tree) (location : Location) : List String :=
  tree.entries.filterMap fun e => if e.1.dropLast = location then e.1.getLast? else none

theorem mem_listing (tree : Tree) (location : Location) (name : String) :
    name ∈ listing tree location ↔ name ∈ tree.names location := by
  rw [Tree.mem_names, listing, List.mem_filterMap]
  constructor
  · rintro ⟨⟨found, entry⟩, hmem, hname⟩
    obtain ⟨rfl, hlast⟩ : found.dropLast = location ∧ found.getLast? = some name := by
      simpa using hname
    obtain ⟨front, rfl⟩ := List.getLast?_eq_some_iff.mp hlast
    rw [List.dropLast_concat]
    exact Tree.isSome_get?_of_mem hmem
  · intro h
    obtain ⟨entry, hentry⟩ := Option.isSome_iff_exists.mp h
    exact ⟨_, Tree.mem_of_get? hentry (by simp), by simp⟩

-- A way over the links that leads to the destination.
def roundabout : Path := ⟨"/p/../out/./img/.."⟩

-- The destination is emptied, and nothing else. The project above it is not.
theorem linkedTree_emptied :
    empty linkedTree ⟨"out/img/x/.."⟩ ⟨"/p"⟩ (some []) listing =
        (linkedTree, .error (refusal ⟨"out/img/x/.."⟩)) ∧
      ∃ after, empty linkedTree roundabout ⟨"/p"⟩ (some []) listing = (after, .ok true) ∧
        after.get? ["p", "docs"] = some .directory ∧ after.get? ["p", "docs", "img"] = none ∧
        after.get? ["p"] = some .directory ∧
        after.get? ["p", "src", "main.js"] = some (.file .empty) := by
  have hw : linkedTree.WellFormed := by decide +kernel
  have hb : linkedTree.IsBase (some []) := by
    rintro _ ⟨⟩
    rfl
  have hl := mem_listing linkedTree
  have hencloses : Encloses linkedTree ⟨"out/img/x/.."⟩ ⟨"/p"⟩ (some []) :=
    .inr ⟨["p"], ["p"], by decide +kernel, by decide +kernel, List.prefix_rfl⟩
  refine ⟨((empty_is_safe hw hb hl ⟨"out/img/x/.."⟩ ⟨"/p"⟩).1 hencloses).1, ?_⟩
  have hok : (empty linkedTree roundabout ⟨"/p"⟩ (some []) listing).2.toOption = some true := by
    decide +kernel
  rcases he : empty linkedTree roundabout ⟨"/p"⟩ (some []) listing with ⟨after, result⟩
  rw [he] at hok
  obtain ⟨hemptied, hdir, hrest⟩ :=
    (empty_is_safe hw hb hl roundabout ⟨"/p"⟩).2 after result he
  cases result with
  | error failure => cases hok
  | ok emptied =>
    cases hok
    have hfound : linkedTree.find roundabout (some []) = .ok (["p", "docs"], .directory) := by
      decide +kernel
    have hproject : linkedTree.find ⟨"/p"⟩ (some []) = .ok (["p"], .directory) := by
      decide +kernel
    have hsource : ∀ outer, linkedTree.resolve? roundabout (some []) = some outer →
        Tree.isBelow ["p", "src", "main.js"] outer = false := by
      intro outer houter
      rw [Tree.resolve?, hfound] at houter
      cases houter
      decide
    obtain ⟨hstays, hnothing⟩ := hemptied true rfl _ _ hfound
    exact ⟨after, rfl, hstays, hnothing _ (by decide), (hdir _ _ hproject).1,
      (hrest _ hsource).1.trans (by decide +kernel)⟩

-- The working directory is spelled through a link in the destination. The link goes, and the
-- directory stays where it is.
example :
    let after := (empty linkedTree ⟨"/q/../../out"⟩ ⟨"/p/docs/img/x"⟩ none listing).1
    (linkedTree.find ⟨"/p/docs/img/x"⟩).toOption = some (["p", "src"], .directory) ∧
      (after.find ⟨"/p/docs/img/x"⟩).toOption = none ∧
      after.get? ["p", "src", "main.js"] = some (.file .empty) := by
  decide +kernel

end Destination

end DocPipeline
