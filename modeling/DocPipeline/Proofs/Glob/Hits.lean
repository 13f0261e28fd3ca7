import DocPipeline.Proofs.Glob.Twins
import DocPipeline.Proofs.Tree.Descent

namespace DocPipeline.Glob

open DocPipeline.Path (ofNames IsStep)
open DocPipeline.Tree (downs ups)

variable {tree : Tree} {dir path file : Path} {segment next : List Token}
variable {segments rest others : List (List Token)} {name child : String}

-- The paths that the segments of a pattern lead to from a directory.
inductive Hits (tree : Tree) : Path → List (List Token) → Path → Prop where
  -- No segment is left.
  | done (path : Path) : Hits tree path [] path
  -- A segment without wildcards only asks whether its path exists.
  | literal {dir file : Path} {segment : List Token} {rest : List (List Token)} {name : String}
      (hliteral : literal? segment = some name) (hexists : exists? tree (dir.join ⟨name⟩) = true)
      (hrest : Hits tree (dir.join ⟨name⟩) rest file) : Hits tree dir (segment :: rest) file
  -- One that begins with a dot may stand for the directory itself or for the one above.
  | special {dir file : Path} {segment : List Token} {rest : List (List Token)} {name : String}
      (hliteral : literal? segment = none) (hdir : tree.isDirectory dir = true)
      (hdot : segment.head? = some (.char '.')) (hname : name ∈ ["..", "."])
      (hmatch : isMatch segment name.toList = true)
      (hrest : Hits tree (dir.join ⟨name⟩) rest file) : Hits tree dir (segment :: rest) file
  -- Any other stands for the names in the directory that match it.
  | name {dir file : Path} {segment : List Token} {rest : List (List Token)} {child : String}
      (hliteral : literal? segment = none) (hdepth : isAnyDepth segment = false)
      (hchild : child ∈ childNames tree dir) (hmatch : isMatch segment child.toList = true)
      (hrest : Hits tree (dir.join ⟨child⟩) rest file) : Hits tree dir (segment :: rest) file
  -- Two stars stand for no directory, for the names that match the next segment,
  | here {dir file : Path} {segment next : List Token} {rest others : List (List Token)}
      {child : String} (hdepth : isAnyDepth segment = true)
      (hnext : dropAnyDepth rest = next :: others) (hchild : child ∈ childNames tree dir)
      (hmatch : isMatch next child.toList = true)
      (hrest : Hits tree (dir.join ⟨child⟩) others file) : Hits tree dir (segment :: rest) file
  -- or for one more directory on the way,
  | deeper {dir file : Path} {segment : List Token} {rest : List (List Token)} {child : String}
      (hdepth : isAnyDepth segment = true) (hchild : child ∈ childNames tree dir)
      (hdir : tree.isDirectory (dir.join ⟨child⟩) = true)
      (hrest : Hits tree (dir.join ⟨child⟩) (segment :: dropAnyDepth rest) file) :
      Hits tree dir (segment :: rest) file
  -- and at the end of the pattern for each directory.
  | last {dir : Path} {segment : List Token} {rest : List (List Token)} {child : String}
      (hdepth : isAnyDepth segment = true) (hnext : dropAnyDepth rest = [])
      (hchild : child ∈ childNames tree dir)
      (hdir : tree.isDirectory (dir.join ⟨child⟩) = true) :
      Hits tree dir (segment :: rest) (dir.join ⟨child⟩)

-- The segments of a pattern that was split at its slashes.
def IsSplit (segments : List (List Token)) : Prop :=
  ∀ segment ∈ segments, ∀ name, literal? segment = some name → '/' ∉ name.toList

theorem literal?_of_isAnyDepth (h : isAnyDepth segment = true) : literal? segment = none := by
  have hmem : Token.anyDepth ∈ segment := List.contains_iff_mem.mp h
  have hnone : segment.mapM Token.char? = none := by
    induction segment with
    | nil => cases hmem
    | cons token segment ih =>
      rw [List.mapM_cons]
      rcases List.mem_cons.mp hmem with rfl | hmem
      · rfl
      · rw [ih (List.contains_iff_mem.mpr hmem) hmem]
        cases token.char? <;> rfl
  rw [literal?, hnone]
  rfl

section Names

theorem isDirectory_of_mem (h : child ∈ childNames tree dir) : tree.isDirectory dir = true := by
  unfold childNames at h
  split at h
  next hfind => exact Tree.isDirectory_iff.mpr ⟨_, hfind⟩
  next => cases h

theorem exists_find (h : child ∈ childNames tree dir) :
    ∃ location, tree.find dir = .ok (location, .directory) ∧
      (tree.get? (location ++ [child])).isSome := by
  unfold childNames at h
  split at h
  next location hfind => exact ⟨location, hfind, Tree.mem_names.mp h⟩
  next => cases h

theorem mem_childNames {location : Location} (h : tree.find dir = .ok (location, .directory)) :
    child ∈ childNames tree dir ↔ (tree.get? (location ++ [child])).isSome := by
  rw [childNames, h]
  exact Tree.mem_names

theorem isName_of_mem (hw : tree.WellFormed) (h : child ∈ childNames tree dir) : IsName child := by
  obtain ⟨location, -, hsome⟩ := exists_find h
  exact hw.isName hsome (by simp)

theorem lastName_join (h : '/' ∉ name.toList) : lastName (dir.join ⟨name⟩) = name := by
  have hrelative := Path.isAbsolute_of_no_slash h
  have hsegments := Path.segments_of_no_slash h
  rw [lastName]
  by_cases hd : dir.text = ""
  · rw [Path.join_of_empty hd, hsegments]
    rfl
  · obtain ⟨front, hjoin, -⟩ := Path.segments_join hrelative hd
    rw [hjoin, hsegments, List.getLast?_append]
    rfl

end Names

section Sound

-- What is matched at a path by what is left of a pattern.
def through (tree : Tree) (fuel : Nat) (path : Path) (rest : List (List Token)) : List Path :=
  if rest.isEmpty then [path] else matchesBelow tree fuel path rest

theorem matchesBelow_literal (h : literal? segment = some name) (fuel : Nat) :
    matchesBelow tree (fuel + 1) dir (segment :: rest) =
      if exists? tree (dir.join ⟨name⟩) then through tree fuel (dir.join ⟨name⟩) rest else [] := by
  rw [matchesBelow, h]
  rfl

theorem matchesBelow_wild (h : literal? segment = none) (fuel : Nat) :
    matchesBelow tree (fuel + 1) dir (segment :: rest) =
      if tree.isDirectory dir then
        (if segment.head? = some (.char '.') then
            ["..", "."].filter fun name => isMatch segment name.toList
          else []).flatMap (fun name => through tree fuel (dir.join ⟨name⟩) rest) ++
          (childNames tree dir).flatMap fun name =>
            matchesAt tree fuel (dir.join ⟨name⟩) (segment :: rest)
      else [] := by
  rw [matchesBelow, h]
  rfl

-- What two stars match at an entry when they stand for no directory.
def without (tree : Tree) (fuel : Nat) (path : Path) (rest : List (List Token)) : List Path :=
  match dropAnyDepth rest with
  | [] => if tree.isDirectory path then [path] else []
  | next :: others => matchesName tree fuel path next others

theorem matchesAt_depth (h : isAnyDepth segment = true) (fuel : Nat) :
    matchesAt tree (fuel + 1) path (segment :: rest) =
      if tree.isDirectory path then
        without tree fuel path rest ++
          matchesBelow tree fuel path (segment :: dropAnyDepth rest)
      else without tree fuel path rest := by
  rw [matchesAt, if_pos h]
  rfl

theorem matchesAt_name (h : isAnyDepth segment = false) (fuel : Nat) :
    matchesAt tree (fuel + 1) path (segment :: rest) = matchesName tree fuel path segment rest := by
  rw [matchesAt, h]
  rfl

theorem matchesName_eq (fuel : Nat) :
    matchesName tree (fuel + 1) path segment rest =
      if isNameMatch segment path then through tree fuel path rest else [] := by
  rw [matchesName]
  rfl

-- All matches that some fuel gives are hits.
structure Sound (tree : Tree) (fuel : Nat) : Prop where
  below : ∀ {dir segments file}, file ∈ matchesBelow tree fuel dir segments →
    Hits tree dir segments file
  entry : ∀ {dir child segment rest file}, child ∈ childNames tree dir →
    literal? segment = none → file ∈ matchesAt tree fuel (dir.join ⟨child⟩) (segment :: rest) →
      Hits tree dir (segment :: rest) file
  named : ∀ {path segment rest file}, file ∈ matchesName tree fuel path segment rest →
    isNameMatch segment path = true ∧ Hits tree path rest file

namespace Sound

variable {fuel : Nat} (h : Sound tree fuel)

include h

theorem through (hfile : file ∈ through tree fuel path rest) : Hits tree path rest file := by
  unfold Glob.through at hfile
  split at hfile
  next hempty =>
    rw [List.isEmpty_iff.mp hempty, List.mem_singleton.mp hfile]
    exact .done path
  next => exact h.below hfile

theorem below_succ (hfile : file ∈ matchesBelow tree (fuel + 1) dir segments) :
    Hits tree dir segments file := by
  cases segments with
  | nil =>
    unfold matchesBelow at hfile
    cases hfile
  | cons segment rest =>
    cases hliteral : literal? segment with
    | some name =>
      rw [matchesBelow_literal hliteral] at hfile
      split at hfile
      next hexists => exact .literal hliteral hexists (h.through hfile)
      next => cases hfile
    | none =>
      rw [matchesBelow_wild hliteral] at hfile
      split at hfile
      next hdir =>
        rcases List.mem_append.mp hfile with hspecial | hchild
        · obtain ⟨name, hname, hrest⟩ := List.mem_flatMap.mp hspecial
          split at hname
          next hdot =>
            obtain ⟨hname, hmatch⟩ := List.mem_filter.mp hname
            exact .special hliteral hdir hdot hname hmatch (h.through hrest)
          next => cases hname
        · obtain ⟨child, hchild, hentry⟩ := List.mem_flatMap.mp hchild
          exact h.entry hchild hliteral hentry
      next => cases hfile

theorem entry_succ (hw : tree.WellFormed) (hchild : child ∈ childNames tree dir)
    (hliteral : literal? segment = none)
    (hfile : file ∈ matchesAt tree (fuel + 1) (dir.join ⟨child⟩) (segment :: rest)) :
    Hits tree dir (segment :: rest) file := by
  have hlast : lastName (dir.join ⟨child⟩) = child :=
    lastName_join (isName_of_mem hw hchild).no_slash
  have hnamed : ∀ {next others}, file ∈ matchesName tree fuel (dir.join ⟨child⟩) next others →
      isMatch next child.toList = true ∧ Hits tree (dir.join ⟨child⟩) others file := by
    intro next others hmem
    obtain ⟨hmatch, hrest⟩ := h.named hmem
    rw [isNameMatch, hlast] at hmatch
    exact ⟨hmatch, hrest⟩
  cases hdepth : isAnyDepth segment with
  | false =>
    rw [matchesAt_name hdepth] at hfile
    obtain ⟨hmatch, hrest⟩ := hnamed hfile
    exact .name hliteral hdepth hchild hmatch hrest
  | true =>
    have hwithout : file ∈ without tree fuel (dir.join ⟨child⟩) rest →
        Hits tree dir (segment :: rest) file := by
      intro hmem
      unfold without at hmem
      split at hmem
      next hnext =>
        split at hmem
        next hdir =>
          rw [List.mem_singleton.mp hmem]
          exact .last hdepth hnext hchild hdir
        next => cases hmem
      next hnext =>
        obtain ⟨hmatch, hrest⟩ := hnamed hmem
        exact .here hdepth hnext hchild hmatch hrest
    rw [matchesAt_depth hdepth] at hfile
    split at hfile
    next hdir =>
      rcases List.mem_append.mp hfile with hmem | hbelow
      · exact hwithout hmem
      · exact .deeper hdepth hchild hdir (h.below hbelow)
    next => exact hwithout hfile

theorem named_succ (hfile : file ∈ matchesName tree (fuel + 1) path segment rest) :
    isNameMatch segment path = true ∧ Hits tree path rest file := by
  rw [matchesName_eq] at hfile
  split at hfile
  next hmatch => exact ⟨hmatch, h.through hfile⟩
  next => cases hfile

end Sound

theorem sound (hw : tree.WellFormed) (fuel : Nat) : Sound tree fuel := by
  induction fuel with
  | zero =>
    refine ⟨fun {_ segments _} h => ?_, fun _ _ h => ?_, fun h => ?_⟩
    · rw [matchesBelow] at h
      cases h
    · rw [matchesAt] at h
      cases h
    · rw [matchesName] at h
      cases h
  | succ fuel ih => exact ⟨ih.below_succ, ih.entry_succ hw, ih.named_succ⟩

end Sound

section Complete

theorem counts_join (dir : Path) (h : '/' ∉ name.toList) :
    downs (dir.join ⟨name⟩).segments = downs dir.segments + downs [name] ∧
      ups (dir.join ⟨name⟩).segments = ups dir.segments + ups [name] := by
  have hsteps : (dir.join ⟨name⟩).steps = dir.steps ++ (Path.mk name).steps :=
    Path.steps_join (Path.isAbsolute_of_no_slash h)
  unfold Path.steps at hsteps
  rw [Path.segments_of_no_slash h] at hsteps
  constructor
  · rw [downs, hsteps, List.countP_append, ← downs, ← downs]
  · rw [ups, hsteps, List.count_append, ← ups, ← ups]

theorem counts_child (hw : tree.WellFormed) (h : child ∈ childNames tree dir) :
    downs (dir.join ⟨child⟩).segments = downs dir.segments + 1 ∧
      ups (dir.join ⟨child⟩).segments = ups dir.segments := by
  have hname := isName_of_mem hw h
  have hone : downs [child] = downs [] + 1 ∧ ups [child] = ups [] :=
    Tree.counts_name hname.isStep.ofSegment? []
  have hnone : downs [] = 0 ∧ ups [] = 0 := ⟨rfl, rfl⟩
  have hjoin := counts_join dir hname.no_slash
  omega

theorem counts_special (dir : Path) (h : name ∈ ["..", "."]) :
    downs (dir.join ⟨name⟩).segments = downs dir.segments ∧
      ups dir.segments ≤ ups (dir.join ⟨name⟩).segments ∧
      ups (dir.join ⟨name⟩).segments ≤ ups dir.segments + 1 := by
  have hname : '/' ∉ name.toList ∧ downs [name] = 0 ∧ ups [name] ≤ 1 := by
    rcases List.mem_pair.mp h with rfl | rfl <;> decide
  have hjoin := counts_join dir hname.1
  omega

theorem counts_literal (dir : Path) (h : '/' ∉ name.toList) :
    downs dir.segments ≤ downs (dir.join ⟨name⟩).segments ∧
      ups (dir.join ⟨name⟩).segments ≤ ups dir.segments + 1 := by
  have hjoin := counts_join dir h
  have hups : ups [name] ≤ 1 := by
    rw [ups]
    exact List.count_le_length.trans (List.length_filterMap_le _ _)
  omega

theorem IsSplit.tail (h : IsSplit (segment :: rest)) : IsSplit rest :=
  fun segment hmem => h segment (List.mem_cons_of_mem _ hmem)

theorem IsSplit.dropAnyDepth (h : IsSplit (segment :: rest)) :
    IsSplit (segment :: Glob.dropAnyDepth rest) := by
  intro next hmem
  rcases List.mem_cons.mp hmem with rfl | hmem
  · exact h _ List.mem_cons_self
  · exact h next (List.mem_cons_of_mem _ (mem_dropAnyDepth hmem))

-- Matches at an entry are matches below its directory.
theorem mem_through_entry {fuel : Nat} (hliteral : literal? segment = none)
    (hchild : child ∈ childNames tree dir)
    (h : file ∈ matchesAt tree fuel (dir.join ⟨child⟩) (segment :: rest)) :
    file ∈ through tree (fuel + 1) dir (segment :: rest) := by
  rw [through, List.isEmpty_cons, if_neg Bool.false_ne_true, matchesBelow_wild hliteral,
    if_pos (isDirectory_of_mem hchild)]
  exact List.mem_append_right _ (List.mem_flatMap.mpr ⟨child, hchild, h⟩)

theorem mem_matchesName {fuel : Nat} (hw : tree.WellFormed) (hchild : child ∈ childNames tree dir)
    (hmatch : isMatch segment child.toList = true)
    (h : file ∈ through tree fuel (dir.join ⟨child⟩) rest) :
    file ∈ matchesName tree (fuel + 1) (dir.join ⟨child⟩) segment rest := by
  have hname : isNameMatch segment (dir.join ⟨child⟩) = true := by
    rw [isNameMatch, lastName_join (isName_of_mem hw hchild).no_slash, hmatch]
  rw [matchesName_eq, if_pos hname]
  exact h

theorem mem_matchesAt_without {fuel : Nat} (hdepth : isAnyDepth segment = true)
    (h : file ∈ without tree fuel path rest) :
    file ∈ matchesAt tree (fuel + 1) path (segment :: rest) := by
  rw [matchesAt_depth hdepth]
  split
  · exact List.mem_append_left _ h
  · exact h

-- The fuel that is enough: three for a segment, and two for a name that the path goes down to.
def Enough (fuel : Nat) (dir : Path) (segments : List (List Token)) (file : Path) : Prop :=
  2 * downs file.segments + 2 * ups dir.segments + 3 * segments.length ≤
    fuel + 2 * ups file.segments + 2 * downs dir.segments

-- All hits are matches where the fuel is enough. A path goes up once at most for each segment, so
-- what is enough for the rest of a path is never nothing.
theorem Hits.complete (hw : tree.WellFormed) (h : Hits tree dir segments file)
    (hs : IsSplit segments) :
    downs dir.segments + ups file.segments ≤
        downs file.segments + ups dir.segments + segments.length ∧
      ∀ fuel, Enough fuel dir segments file → file ∈ through tree fuel dir segments := by
  unfold Enough
  induction h with
  | done path =>
    refine ⟨by omega, fun fuel _ => ?_⟩
    exact List.mem_singleton_self path
  | @literal dir file segment rest name hliteral hexists _ ih =>
    have hcounts := counts_literal dir (hs _ List.mem_cons_self _ hliteral)
    obtain ⟨hspan, hmem⟩ := ih hs.tail
    rw [List.length_cons]
    refine ⟨by omega, fun fuel hfuel => ?_⟩
    obtain ⟨fuel, rfl⟩ : ∃ n, fuel = n + 1 := ⟨fuel - 1, by omega⟩
    rw [through, List.isEmpty_cons, if_neg Bool.false_ne_true, matchesBelow_literal hliteral,
      if_pos hexists]
    exact hmem fuel (by omega)
  | @special dir file segment rest name hliteral hdir hdot hname hmatch _ ih =>
    have hcounts := counts_special dir hname
    obtain ⟨hspan, hmem⟩ := ih hs.tail
    rw [List.length_cons]
    refine ⟨by omega, fun fuel hfuel => ?_⟩
    obtain ⟨fuel, rfl⟩ : ∃ n, fuel = n + 1 := ⟨fuel - 1, by omega⟩
    rw [through, List.isEmpty_cons, if_neg Bool.false_ne_true, matchesBelow_wild hliteral,
      if_pos hdir, if_pos hdot]
    refine List.mem_append_left _ (List.mem_flatMap.mpr ⟨name, ?_, hmem fuel (by omega)⟩)
    exact List.mem_filter.mpr ⟨hname, hmatch⟩
  | @name dir file segment rest child hliteral hdepth hchild hmatch _ ih =>
    have hcounts := counts_child hw hchild
    obtain ⟨hspan, hmem⟩ := ih hs.tail
    rw [List.length_cons]
    refine ⟨by omega, fun fuel hfuel => ?_⟩
    obtain ⟨fuel, rfl⟩ : ∃ n, fuel = n + 3 := ⟨fuel - 3, by omega⟩
    refine mem_through_entry hliteral hchild ?_
    rw [matchesAt_name hdepth]
    exact mem_matchesName hw hchild hmatch (hmem fuel (by omega))
  | @here dir file segment next rest others child hdepth hnext hchild hmatch _ ih =>
    have hcounts := counts_child hw hchild
    have hfewer := length_dropAnyDepth_le rest
    have hothers : IsSplit (next :: others) := hnext ▸ hs.dropAnyDepth.tail
    obtain ⟨hspan, hmem⟩ := ih hothers.tail
    rw [hnext, List.length_cons] at hfewer
    rw [List.length_cons]
    refine ⟨by omega, fun fuel hfuel => ?_⟩
    obtain ⟨fuel, rfl⟩ : ∃ n, fuel = n + 3 := ⟨fuel - 3, by omega⟩
    refine mem_through_entry (literal?_of_isAnyDepth hdepth) hchild
      (mem_matchesAt_without hdepth ?_)
    rw [without, hnext]
    exact mem_matchesName hw hchild hmatch (hmem fuel (by omega))
  | @deeper dir file segment rest child hdepth hchild hdir _ ih =>
    have hcounts := counts_child hw hchild
    have hfewer := length_dropAnyDepth_le rest
    obtain ⟨hspan, hmem⟩ := ih hs.dropAnyDepth
    rw [List.length_cons] at hspan hmem ⊢
    refine ⟨by omega, fun fuel hfuel => ?_⟩
    obtain ⟨fuel, rfl⟩ : ∃ n, fuel = n + 2 := ⟨fuel - 2, by omega⟩
    refine mem_through_entry (literal?_of_isAnyDepth hdepth) hchild ?_
    rw [matchesAt_depth hdepth, if_pos hdir]
    exact List.mem_append_right _ (hmem fuel (by omega))
  | @last dir segment rest child hdepth hnext hchild hdir =>
    have hcounts := counts_child hw hchild
    rw [List.length_cons]
    refine ⟨by omega, fun fuel hfuel => ?_⟩
    obtain ⟨fuel, rfl⟩ : ∃ n, fuel = n + 2 := ⟨fuel - 2, by omega⟩
    refine mem_through_entry (literal?_of_isAnyDepth hdepth) hchild
      (mem_matchesAt_without hdepth ?_)
    rw [without, hnext]
    dsimp only
    rw [if_pos hdir]
    exact List.mem_singleton_self _

end Complete

section Expand

theorem exists?_child (hw : tree.WellFormed) (h : child ∈ childNames tree dir) :
    exists? tree (dir.join ⟨child⟩) = true := by
  obtain ⟨location, hfind, hsome⟩ := exists_find h
  obtain ⟨entry, hentry⟩ := Option.isSome_iff_exists.mp hsome
  rw [exists?, Tree.place_join (isName_of_mem hw h) hfind, Tree.placeAt, hentry]

-- How much further down than up a path that exists can go.
def deepest (tree : Tree) : Nat := (Tree.maxLinks + 1) * tree.entries.length

theorem downs_le_of_exists? (hw : tree.WellFormed) (h : exists? tree path = true) :
    downs path.segments ≤ deepest tree + ups path.segments := by
  unfold exists? at h
  split at h
  next hplace => exact Tree.place_downs hw hplace
  next => cases h

theorem Hits.downs_le (hw : tree.WellFormed) (h : Hits tree dir segments file)
    (hdir : downs dir.segments ≤ deepest tree + ups dir.segments) :
    downs file.segments ≤ deepest tree + ups file.segments := by
  induction h with
  | done path => exact hdir
  | literal _ hexists _ ih => exact ih (downs_le_of_exists? hw hexists)
  | @special dir file segment rest name _ _ _ hname _ _ ih =>
    have hcounts := counts_special dir hname
    exact ih (by omega)
  | name _ _ hchild _ _ ih => exact ih (downs_le_of_exists? hw (exists?_child hw hchild))
  | here _ _ hchild _ _ ih => exact ih (downs_le_of_exists? hw (exists?_child hw hchild))
  | deeper _ hchild _ _ ih => exact ih (downs_le_of_exists? hw (exists?_child hw hchild))
  | last _ _ hchild _ => exact downs_le_of_exists? hw (exists?_child hw hchild)

-- The matches of a pattern are all that it leads to from the root: the bound leaves nothing out.
theorem mem_expand_iff (hw : tree.WellFormed) {glob : Glob} (hs : IsSplit glob.segments)
    (hne : glob.segments ≠ []) :
    file ∈ glob.expand tree ↔ Hits tree ⟨"/"⟩ glob.segments file := by
  rw [Glob.expand]
  refine ⟨fun h => (sound hw _).below h, fun h => ?_⟩
  have hroot : downs (Path.mk "/").segments = 0 ∧ ups (Path.mk "/").segments = 0 := by decide
  have hdowns := h.downs_le hw (by omega)
  have hfuel : 2 * deepest tree ≤ depthBound tree := by
    have hlinks : Tree.maxLinks = 40 ∧ depthBound.maxLinks = 40 := ⟨rfl, rfl⟩
    rw [deepest, depthBound, hlinks.1, hlinks.2]
    omega
  have hmem := (h.complete hw hs).2 (depthBound tree + 3 * glob.segments.length)
    (by unfold Enough; omega)
  rwa [through, List.isEmpty_eq_false_iff.mpr hne, if_neg Bool.false_ne_true] at hmem

end Expand

section Parse

theorem isSplit_of_mapM {texts : List String} (ht : ∀ text ∈ texts, '/' ∉ text.toList)
    (h : (texts.mapM fun text => tokens text.toList) = .ok segments) : IsSplit segments := by
  intro segment hmem name hliteral
  obtain ⟨text, htext, htokens⟩ := exists_of_mapM_eq_ok h hmem
  rw [literal?_tokens htokens hliteral]
  exact ht text htext

-- A pattern that is read has segments, and no slash is left in one.
theorem parse_isSplit {names : List String} (hn : ∀ name ∈ names, IsStep name) {glob : Glob}
    (h : Glob.parse (ofNames names) = .ok glob) : IsSplit glob.segments ∧ glob.segments ≠ [] := by
  obtain ⟨_, -, h⟩ := except_bind_eq_ok h
  obtain ⟨segments, hsegments, h⟩ := except_bind_eq_ok h
  cases h
  by_cases hne : names = []
  · subst hne
    rw [Path.segments_ofNames_nil] at hsegments
    cases hsegments
    have htexts : ∀ text ∈ [""], '/' ∉ text.toList := by decide
    exact ⟨isSplit_of_mapM htexts rfl, List.cons_ne_nil _ _⟩
  · rw [Path.segments_ofNames hn hne] at hsegments
    exact ⟨isSplit_of_mapM (fun name hname => (hn name hname).no_slash) hsegments,
      ne_nil_of_mapM hsegments hne⟩

end Parse

end DocPipeline.Glob
