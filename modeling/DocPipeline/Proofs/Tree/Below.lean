import DocPipeline.Proofs.Path.Names
import DocPipeline.Proofs.Publish.Destination
import DocPipeline.Glob.Expand
import Mathlib.Data.String.Basic
import Mathlib.Data.List.Nodup
import Mathlib.Data.List.Perm.Subperm

namespace DocPipeline.Tree

open DocPipeline.Path (ofNames IsStep)

variable {tree other : Tree} {home place : Location} {names : List String} {entry : Entry}

-- A working directory at the end of a path of names, with nothing but directories and files in it.
structure Project (tree : Tree) (dir : List String) (home : Location) : Prop where
  wellFormed : tree.WellFormed
  distinct : (tree.entries.map Prod.fst).Nodup
  steps : ∀ name ∈ dir, IsStep name
  found : tree.find (ofNames dir) = .ok (home, .directory)
  noLinks : ∀ names target, tree.get? (home ++ names) ≠ some (.link target)

-- Both directories hold the same.
def Same (tree : Tree) (home : Location) (other : Tree) (place : Location) : Prop :=
  ∀ names, tree.get? (home ++ names) = other.get? (place ++ names)

theorem Same.below (h : Same tree home other place) (names : List String) :
    Same tree (home ++ names) other (place ++ names) := by
  intro more
  rw [List.append_assoc, List.append_assoc]
  exact h _

section Follow

variable {followLast : Bool} {links : Nat} {location : Location}

-- Where there are no links, names lead to the location of the names.
theorem Way.location_eq (hlinks : ∀ names target, tree.get? (home ++ names) ≠ some (.link target))
    (hn : ∀ name ∈ names, IsStep name)
    (h : Way tree followLast links home names (.found location entry)) :
    location = home ++ names := by
  generalize hfound : Place.found location entry = reached at h
  induction h with
  | here =>
    cases hfound
    exact (List.append_nil _).symm
  | stay hpart => cases (hn _ List.mem_cons_self).ofSegment?.symm.trans hpart
  | up hpart => cases (hn _ List.mem_cons_self).ofSegment?.symm.trans hpart
  | down _ _ _ ih =>
    rw [List.append_cons]
    refine ih (fun names => ?_) (List.forall_mem_cons.mp hn).2 hfound
    rw [List.append_assoc]
    exact hlinks _
  | vacant => cases hfound
  | file =>
    cases hfound
    rfl
  | link _ hentry => exact absurd hentry (hlinks _ _)
  | follow _ hentry => exact absurd hentry (hlinks _ _)

theorem Way.isSome_get? {start : Location} {name : String} (hname : IsStep name)
    (h : Way tree followLast links start (name :: names) (.found location entry)) :
    (tree.get? (start ++ [name])).isSome := by
  have hstep := hname.ofSegment?
  cases h with
  | stay hpart => cases hstep.symm.trans hpart
  | up hpart => cases hstep.symm.trans hpart
  | down _ hentry => simp [hentry]
  | file _ hentry => simp [hentry]
  | link _ hentry => simp [hentry]
  | follow _ hentry => simp [hentry]

-- The names of an entry lead to it, whatever links there are beside the way.
theorem way_entry (hw : tree.WellFormed) (hhome : tree.get? home = some .directory)
    (hget : tree.get? (home ++ names) = some entry)
    (hlink : followLast = true → ∀ target, entry ≠ .link target) (links : Nat) :
    Way tree followLast links home names (.found (home ++ names) entry) := by
  induction names generalizing home with
  | nil =>
    rw [List.append_nil] at hget ⊢
    rw [hhome] at hget
    cases hget
    exact .here
  | cons name names ih =>
    have hsome := Option.isSome_iff_exists.mpr ⟨entry, hget⟩
    have hpart :=
      (hw.isName hsome (List.mem_append_right home List.mem_cons_self)).isStep.ofSegment?
    rw [List.append_cons] at hget hsome ⊢
    by_cases hne : names = []
    · subst hne
      rw [List.append_nil] at hget ⊢
      cases entry with
      | directory => exact .down hpart hget .here
      | file bytes => exact .file hpart hget
      | link target => exact .link hpart hget fun hlast => hlink hlast target rfl
    · have hthere := hw.above_of_prefix hsome hne
      exact .down hpart hthere (ih hthere hget)

end Follow

-- Each directory on the way to an entry is an entry of its own.
theorem length_le_entries (hw : tree.WellFormed) {location : Location}
    (h : (tree.get? location).isSome) : location.length ≤ tree.entries.length := by
  let fronts := (List.range location.length).map fun i => location.take (i + 1)
  have hnodup : fronts.Nodup := by
    refine List.Nodup.map_on (fun i hi j hj heq => ?_) List.nodup_range
    have hlength := congrArg List.length heq
    rw [List.length_take, List.length_take] at hlength
    rw [List.mem_range] at hi hj
    omega
  have hsubset : fronts ⊆ tree.entries.map Prod.fst := by
    intro front hfront
    obtain ⟨i, hi, rfl⟩ := List.mem_map.mp hfront
    rw [List.mem_range] at hi
    have hne : location.take (i + 1) ≠ [] := by
      rw [← List.length_pos_iff, List.length_take]
      omega
    have hsome : (tree.get? (location.take (i + 1))).isSome := by
      by_cases hend : location.drop (i + 1) = []
      · rwa [← List.append_nil (location.take (i + 1)), ← hend, List.take_append_drop]
      · rw [← List.take_append_drop (i + 1) location] at h
        rw [hw.above_of_prefix h hend]
        rfl
    obtain ⟨entry, hentry⟩ := Option.isSome_iff_exists.mp hsome
    exact List.mem_map_of_mem (mem_of_get? hentry hne)
  have hle := (List.Nodup.subperm hnodup hsubset).length_le
  simpa [fronts] using hle

theorem IsBase.none (tree : Tree) : tree.IsBase none := fun _ h => nomatch h

section Entries

variable {dir : List String} {followLast : Bool}

-- A path of names is followed from the root.
theorem place_ofNames_iff {reached : Place} : tree.place (ofNames dir) followLast = .ok reached ↔
    '\x00' ∉ (ofNames dir).text.toList ∧
      Way tree followLast maxLinks [] (ofNames dir).segments reached := by
  rw [place_eq_ok_iff, start?, if_pos (Path.isAbsolute_ofNames dir)]
  simp

theorem find_ofNames_iff (hd : ∀ name ∈ dir, IsStep name) :
    tree.find (ofNames dir) = .ok (home, .directory) ↔ '\x00' ∉ (ofNames dir).text.toList ∧
      Way tree true maxLinks [] ("" :: dir) (.found home .directory) := by
  rw [find_eq_ok_iff, place_ofNames_iff]
  refine and_congr_right fun _ => ?_
  by_cases hne : dir = []
  · subst hne
    rw [Path.segments_ofNames_nil]
    constructor
    · intro hway
      exact hway.of_slash
    · exact .stay rfl
  · rw [Path.segments_ofNames hd hne]

theorem place_entry (hw : tree.WellFormed) (hd : ∀ name ∈ dir, IsStep name)
    (hfind : tree.find (ofNames dir) = .ok (home, .directory)) (hne : names ≠ [])
    (hget : tree.get? (home ++ names) = some entry)
    (hlink : followLast = true → ∀ target, entry ≠ .link target) :
    tree.place (ofNames (dir ++ names)) followLast = .ok (.found (home ++ names) entry) := by
  have hhome := find_found hw (IsBase.none tree) hfind
  have hsome := Option.isSome_iff_exists.mpr ⟨entry, hget⟩
  have hname : ∀ name ∈ names, IsName name :=
    fun name hname => hw.isName hsome (List.mem_append_right home hname)
  have hall : ∀ name ∈ dir ++ names, IsStep name :=
    List.forall_mem_append.mpr ⟨hd, fun name h => (hname name h).isStep⟩
  obtain ⟨hnul, hdir⟩ := (find_ofNames_iff hd).mp hfind
  have hfree : '\x00' ∉ (ofNames (dir ++ names)).text.toList := by
    rw [Path.mem_text_ofNames (by decide)] at hnul ⊢
    rintro ⟨name, hmem, hchar⟩
    rcases List.mem_append.mp hmem with hmem | hmem
    · exact hnul ⟨name, hmem, hchar⟩
    · exact (hname name hmem).no_nul hchar
  refine place_ofNames_iff.mpr ⟨hfree, ?_⟩
  rw [Path.segments_ofNames hall (by simp [hne]), ← List.cons_append]
  exact hdir.append hne (way_entry hw hhome hget hlink)

end Entries

namespace Project

variable {dir : List String} (hp : Project tree dir home)

include hp

theorem isDirectory_home : tree.get? home = some .directory :=
  find_found hp.wellFormed (IsBase.none tree) hp.found

-- A path of names below the directory is followed from there.
theorem place_iff (hn : ∀ name ∈ names, IsStep name) (hne : names ≠ []) (followLast : Bool)
    (location : Location) (entry : Entry) :
    tree.place (ofNames (dir ++ names)) followLast = .ok (.found location entry) ↔
      location = home ++ names ∧ tree.get? location = some entry := by
  constructor
  · intro h
    have hall : ∀ name ∈ dir ++ names, IsStep name := List.forall_mem_append.mpr ⟨hp.steps, hn⟩
    obtain ⟨-, hway⟩ := place_ofNames_iff.mp h
    rw [Path.segments_ofNames hall (by simp [hne]), ← List.cons_append] at hway
    obtain ⟨between, left, -, hfront, hback⟩ := hway.split hne
    cases hfront.unique ((find_ofNames_iff hp.steps).mp hp.found).2
    exact ⟨hback.location_eq hp.noLinks hn, hback.get?_eq hp.wellFormed hp.isDirectory_home⟩
  · rintro ⟨rfl, hget⟩
    refine place_entry hp.wellFormed hp.steps hp.found hne hget ?_
    rintro - target rfl
    exact hp.noLinks names target hget

theorem find_iff (hn : ∀ name ∈ names, IsStep name) (location : Location) (entry : Entry) :
    tree.find (ofNames (dir ++ names)) = .ok (location, entry) ↔
      location = home ++ names ∧ tree.get? location = some entry := by
  by_cases hne : names = []
  · subst hne
    rw [List.append_nil, List.append_nil, hp.found]
    constructor
    · intro h
      cases h
      exact ⟨rfl, hp.isDirectory_home⟩
    · rintro ⟨rfl, h⟩
      rw [hp.isDirectory_home] at h
      cases h
      rfl
  · exact find_eq_ok_iff.trans (hp.place_iff hn hne true location entry)

theorem isDirectory_eq (hn : ∀ name ∈ names, IsStep name) :
    tree.isDirectory (ofNames (dir ++ names)) =
      decide (tree.get? (home ++ names) = some .directory) := by
  rw [Bool.eq_iff_iff, decide_eq_true_iff, isDirectory_iff]
  constructor
  · rintro ⟨location, hfind⟩
    obtain ⟨rfl, hget⟩ := (hp.find_iff hn _ _).mp hfind
    exact hget
  · intro hget
    exact ⟨_, (hp.find_iff hn _ _).mpr ⟨rfl, hget⟩⟩

theorem isFile_eq (hn : ∀ name ∈ names, IsStep name) :
    tree.isFile (ofNames (dir ++ names)) = tree.isFileAt (home ++ names) := by
  rw [Bool.eq_iff_iff, isFile_iff, isFileAt_iff]
  constructor
  · rintro ⟨location, bytes, hfind⟩
    obtain ⟨rfl, hget⟩ := (hp.find_iff hn _ _).mp hfind
    exact ⟨bytes, hget⟩
  · rintro ⟨bytes, hget⟩
    exact ⟨_, bytes, (hp.find_iff hn _ _).mpr ⟨rfl, hget⟩⟩

theorem exists?_eq (hn : ∀ name ∈ names, IsStep name) (hne : names ≠ []) :
    Glob.exists? tree (ofNames (dir ++ names)) = (tree.get? (home ++ names)).isSome := by
  rw [Bool.eq_iff_iff, Glob.exists?, Option.isSome_iff_exists]
  constructor
  · intro h
    split at h
    next hplace =>
      obtain ⟨rfl, hget⟩ := (hp.place_iff hn hne _ _ _).mp hplace
      exact ⟨_, hget⟩
    next => cases h
  · rintro ⟨entry, hget⟩
    rw [(hp.place_iff hn hne _ _ _).mpr ⟨rfl, hget⟩]

theorem childNames_eq (hn : ∀ name ∈ names, IsStep name)
    (hd : tree.get? (home ++ names) = some .directory) :
    Glob.childNames tree (ofNames (dir ++ names)) = tree.names (home ++ names) := by
  rw [Glob.childNames, (hp.find_iff hn _ _).mpr ⟨rfl, hd⟩]

end Project

section Order

-- Locations are in a total order, name by name.
theorem comesBefore_total : ∀ p q : Location, (comesBefore p q || comesBefore q p) = true
  | [], _ => rfl
  | _ :: _, [] => rfl
  | p :: ps, q :: qs => by
    have ih := comesBefore_total ps qs
    rw [comesBefore, comesBefore]
    by_cases hpq : p = q
    · rw [if_pos hpq, if_pos hpq.symm, ih]
    · rw [if_neg hpq, if_neg (Ne.symm hpq)]
      simpa using lt_or_gt_of_ne hpq

theorem comesBefore_trans : ∀ p q r : Location,
    comesBefore p q = true → comesBefore q r = true → comesBefore p r = true
  | [], _, _, _, _ => rfl
  | _ :: _, [], _, h, _ => nomatch h
  | _ :: _, _ :: _, [], _, h => nomatch h
  | p :: ps, q :: qs, r :: rs, hpq, hqr => by
    rw [comesBefore] at hpq hqr ⊢
    split at hpq
    next heq =>
      subst heq
      split at hqr
      next heq => rw [if_pos heq, comesBefore_trans ps qs rs hpq hqr]
      next hne => rw [if_neg hne, hqr]
    next hne =>
      have hlt : p < q := of_decide_eq_true hpq
      split at hqr
      next heq => rw [← heq, if_neg hne, hpq]
      next =>
        have hpr : p < r := String.lt_trans hlt (of_decide_eq_true hqr)
        rw [if_neg (ne_of_lt hpr), decide_eq_true hpr]

theorem comesBefore_antisymm : ∀ p q : Location,
    comesBefore p q = true → comesBefore q p = true → p = q
  | [], [], _, _ => rfl
  | [], _ :: _, _, h => nomatch h
  | _ :: _, [], h, _ => nomatch h
  | p :: ps, q :: qs, hpq, hqp => by
    rw [comesBefore] at hpq hqp
    split at hpq
    next heq =>
      rw [if_pos heq.symm] at hqp
      rw [heq, comesBefore_antisymm ps qs hpq hqp]
    next hne =>
      rw [if_neg (Ne.symm hne)] at hqp
      exact absurd (of_decide_eq_true hqp) (String.lt_asymm (of_decide_eq_true hpq))

end Order

section Listing

theorem isStep_of_mem_below (hw : tree.WellFormed) (h : names ∈ tree.below home) :
    ∀ name ∈ names, IsStep name :=
  fun _ hname => (hw.isName (mem_below.mp h).2 (List.mem_append_right home hname)).isStep

-- Each location below is listed once.
theorem nodup_below (hd : (tree.entries.map Prod.fst).Nodup) (home : Location) :
    (tree.below home).Nodup := by
  rw [below, sortLocations, (List.mergeSort_perm _ _).nodup_iff]
  have hlocations : ((tree.entries.filter fun e => isBelow e.1 home).map Prod.fst).Nodup :=
    hd.sublist (List.filter_sublist.map _)
  refine List.Nodup.of_map (home ++ ·) ?_
  rw [List.map_map]
  refine Eq.subst (motive := List.Nodup) (List.map_congr_left fun e he => ?_) hlocations
  obtain ⟨first, rest, hlocation⟩ := isBelow_iff.mp (List.mem_filter.mp he).2
  simp [hlocation]

-- What is below two directories that hold the same is listed the same.
theorem Same.below_eq (h : Same tree home other place)
    (hd : (tree.entries.map Prod.fst).Nodup) (hd' : (other.entries.map Prod.fst).Nodup) :
    tree.below home = other.below place := by
  have hperm : (tree.below home).Perm (other.below place) := by
    rw [List.perm_ext_iff_of_nodup (nodup_below hd home) (nodup_below hd' place)]
    intro names
    rw [mem_below, mem_below, h names]
  refine List.Perm.eq_of_pairwise (fun p q _ _ => comesBefore_antisymm p q) ?_ ?_ hperm
  · exact List.pairwise_mergeSort comesBefore_trans comesBefore_total _
  · exact List.pairwise_mergeSort comesBefore_trans comesBefore_total _

theorem Same.names_eq (h : Same tree home other place)
    (hd : (tree.entries.map Prod.fst).Nodup) (hd' : (other.entries.map Prod.fst).Nodup) :
    tree.names home = other.names place := by
  rw [names, names, h.below_eq hd hd']

theorem Same.isFileAt_eq (h : Same tree home other place) (names : List String) :
    tree.isFileAt (home ++ names) = other.isFileAt (place ++ names) := by
  rw [isFileAt, isFileAt, h names]

theorem Same.filesBelow_eq (h : Same tree home other place)
    (hd : (tree.entries.map Prod.fst).Nodup) (hd' : (other.entries.map Prod.fst).Nodup) :
    tree.filesBelow home = other.filesBelow place := by
  rw [filesBelow, filesBelow, h.below_eq hd hd']
  exact List.filter_congr fun names _ => h.isFileAt_eq names

end Listing

end DocPipeline.Tree
