import DocPipeline.Proofs.Path.Outlook
import DocPipeline.Proofs.Text.Bytes
import DocPipeline.Proofs.Tree.Below

namespace DocPipeline.Tree

open DocPipeline.Path (ofNames IsStep)

variable {tree : Tree} {home location : Location} {names front back : List String} {name : String}
variable {entry : Entry} {followLast : Bool}

section Entries

-- The path of an entry below a directory leads there, however the directory was found.
theorem find_entry {dir : List String} (hw : tree.WellFormed) (hd : ∀ name ∈ dir, IsStep name)
    (hfind : tree.find (ofNames dir) = .ok (home, .directory))
    (hget : tree.get? (home ++ names) = some entry) (hlink : ∀ target, entry ≠ .link target) :
    tree.find (ofNames (dir ++ names)) = .ok (home ++ names, entry) := by
  by_cases hne : names = []
  · subst hne
    rw [List.append_nil] at hget ⊢
    rw [find_found hw (IsBase.none tree) hfind] at hget
    cases hget
    rw [List.append_nil, hfind]
  · exact find_eq_ok_iff.mpr (place_entry hw hd hfind hne hget fun _ => hlink)

theorem isFile_entry {dir : List String} (hw : tree.WellFormed) (hd : ∀ name ∈ dir, IsStep name)
    (hfind : tree.find (ofNames dir) = .ok (home, .directory))
    (hfile : tree.isFileAt (home ++ names) = true) :
    tree.isFile (ofNames (dir ++ names)) = true := by
  obtain ⟨bytes, hget⟩ := isFileAt_iff.mp hfile
  exact isFile_iff.mpr ⟨_, bytes, find_entry hw hd hfind hget nofun⟩

end Entries

section Beginnings

-- On the way to where a path leads, each name is in a directory.
theorem find_beginning (hsteps : ∀ step ∈ front ++ name :: back, IsStep step)
    (h : tree.place (ofNames (front ++ name :: back)) followLast = .ok (.found location entry)) :
    ∃ between, tree.find (ofNames front) = .ok (between, .directory) ∧
      (tree.get? (between ++ [name])).isSome := by
  obtain ⟨hfront, hback⟩ := List.forall_mem_append.mp hsteps
  obtain ⟨hnul, hway⟩ := place_ofNames_iff.mp h
  rw [Path.segments_ofNames hsteps (by simp), ← List.cons_append] at hway
  obtain ⟨between, left, -, hlead, hrest⟩ := hway.split (List.cons_ne_nil name back)
  refine ⟨between, ?_, hrest.isSome_get? (hback name List.mem_cons_self)⟩
  exact (find_ofNames_iff hfront).mpr ⟨Path.not_mem_text_front (by decide) hnul, hlead⟩

end Beginnings

section Depth

-- How often a path goes down to a name, and how often it goes up.
def downs (segments : List String) : Nat :=
  (segments.filterMap Path.Part.ofSegment?).countP Path.Part.isName

def ups (segments : List String) : Nat :=
  (segments.filterMap Path.Part.ofSegment?).count .up

variable {segment : String} {segments : List String} {start : Location} {links : Nat}

theorem counts_stay (hpart : Path.Part.ofSegment? segment = none)
    (segments : List String) :
    downs (segment :: segments) = downs segments ∧ ups (segment :: segments) = ups segments := by
  simp [downs, ups, hpart]

theorem counts_up (hpart : Path.Part.ofSegment? segment = some .up)
    (segments : List String) :
    downs (segment :: segments) = downs segments ∧
      ups (segment :: segments) = ups segments + 1 := by
  simp [downs, ups, hpart, Path.Part.isName]

theorem counts_name (hpart : Path.Part.ofSegment? segment = some (.name segment))
    (segments : List String) :
    downs (segment :: segments) = downs segments + 1 ∧
      ups (segment :: segments) = ups segments := by
  constructor
  · rw [downs, List.filterMap_cons_some hpart, List.countP_cons_of_pos (by rfl), ← downs]
  · rw [ups, List.filterMap_cons_some hpart, List.count_cons_of_ne (by simp), ← ups]

-- A way goes through the entries once, and once more for each link. By induction on the number of
-- links, and for each number on the segments: after a link, what is left of them is a way with less.
theorem Way.downs_le (hw : tree.WellFormed) (hstart : tree.get? start = some .directory)
    (h : Way tree followLast links start segments (.found location entry)) :
    start.length + downs segments ≤ (links + 1) * tree.entries.length + ups segments := by
  induction links using Nat.strongRecOn generalizing start segments with
  | _ links ihLinks =>
    have hentries : tree.entries.length ≤ (links + 1) * tree.entries.length :=
      Nat.le_mul_of_pos_left _ (Nat.succ_pos links)
    -- The name of an entry is one more step down, and there are no more of them than entries.
    have hthere : ∀ {start name entry}, tree.get? (start ++ [name]) = some entry →
        start.length + 1 ≤ tree.entries.length := by
      intro start name entry hentry
      simpa using length_le_entries hw (Option.isSome_iff_exists.mpr ⟨entry, hentry⟩)
    have hnone : downs [] = 0 := rfl
    induction segments generalizing start with
    | nil =>
      cases h
      have hlength := length_le_entries hw (Option.isSome_iff_exists.mpr ⟨_, hstart⟩)
      omega
    | cons segment segments ih =>
      cases h with
      | stay hpart h =>
        obtain ⟨hdowns, hups⟩ := counts_stay hpart segments
        have hrest := ih hstart h
        omega
      | up hpart h =>
        obtain ⟨hdowns, hups⟩ := counts_up hpart segments
        have hrest := ih (hw.dropLast (by simp [hstart])) h
        rw [List.length_dropLast] at hrest
        omega
      | down hpart hentry h =>
        obtain ⟨hdowns, hups⟩ := counts_name hpart segments
        have hrest := ih hentry h
        rw [List.length_append, List.length_singleton] at hrest
        omega
      | file hpart hentry =>
        obtain ⟨hdowns, -⟩ := counts_name hpart []
        have hlength := hthere hentry
        omega
      | link hpart hentry =>
        obtain ⟨hdowns, -⟩ := counts_name hpart []
        have hlength := hthere hentry
        omega
      | @follow links _ _ _ _ _ hpart hentry _ h =>
        obtain ⟨hdowns, hups⟩ := counts_name hpart segments
        have hlength := hthere hentry
        by_cases hend : segments = []
        · subst hend
          omega
        · obtain ⟨between, left, hleft, hlead, hrest⟩ := h.split hend
          have hbetween := hlead.get?_eq hw (get?_linkStart hstart)
          have hbound := ihLinks left (Nat.lt_succ_of_le hleft) hbetween hrest
          have hless : (left + 1) * tree.entries.length ≤ (links + 1) * tree.entries.length :=
            Nat.mul_le_mul_right _ (Nat.succ_le_succ hleft)
          rw [Nat.succ_mul (links + 1)]
          omega

-- A path that leads to something goes down as often at most, unless it goes up in between.
theorem place_downs (hw : tree.WellFormed) {path : Path}
    (h : tree.place path followLast = .ok (.found location entry)) :
    downs path.segments ≤ (maxLinks + 1) * tree.entries.length + ups path.segments := by
  obtain ⟨-, start, hstart, hway⟩ := place_eq_ok_iff.mp h
  obtain rfl : start = [] := by
    unfold start? at hstart
    split at hstart
    · exact (Option.some.inj hstart).symm
    · split at hstart <;> cases hstart
  simpa using hway.downs_le hw rfl

end Depth

section Order

variable {p q : Location}

-- Depth first, and in each directory by the bytes of the names.
def Precedes (p q : Location) : Prop :=
  List.Lex (fun name other => utf8 name < utf8 other) p q

theorem precedes_of_comesBefore (h : comesBefore p q = true) (hne : p ≠ q) : Precedes p q := by
  induction p generalizing q with
  | nil =>
    cases q with
    | nil => exact absurd rfl hne
    | cons name q => exact .nil
  | cons name p ih =>
    cases q with
    | nil => cases h
    | cons other q =>
      rw [comesBefore] at h
      split at h
      next heq =>
        subst heq
        exact .cons (ih h fun he => hne (congrArg _ he))
      next => exact .rel (utf8_lt_iff.mpr (of_decide_eq_true h))

theorem mem_filesBelow : names ∈ tree.filesBelow home ↔
    names ≠ [] ∧ tree.isFileAt (home ++ names) = true := by
  rw [filesBelow, List.mem_filter, mem_below, and_assoc]
  refine and_congr_right fun _ => and_iff_right_of_imp fun h => ?_
  obtain ⟨bytes, hget⟩ := isFileAt_iff.mp h
  rw [hget]
  rfl

-- The files below a directory come in their order, each of them once.
theorem pairwise_filesBelow (hd : (tree.entries.map Prod.fst).Nodup) (home : Location) :
    (tree.filesBelow home).Pairwise Precedes := by
  have hsorted : (tree.below home).Pairwise fun p q => comesBefore p q = true :=
    List.pairwise_mergeSort comesBefore_trans comesBefore_total _
  have hboth := hsorted.and (nodup_below hd home)
  exact (hboth.imp fun h => precedes_of_comesBefore h.1 h.2).filter _

end Order

end DocPipeline.Tree
