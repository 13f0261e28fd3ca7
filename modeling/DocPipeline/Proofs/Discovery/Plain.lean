import DocPipeline.Proofs.Discovery.Union
import DocPipeline.Proofs.Glob.Everything

namespace DocPipeline.Discovery

open DocPipeline.Path (ofNames IsStep)
open DocPipeline.Glob (Hits)

variable {tree : Tree} {dir : Path} {pattern : String} {names : List String} {file path : Path}

theorem isDirectory_of_isFile (h : tree.isFile path = true) : tree.isDirectory path = false := by
  obtain ⟨location, bytes, hfind⟩ := Tree.isFile_iff.mp h
  rw [Tree.isDirectory, hfind]

-- What a pattern with wildcards stands for are the files that it leads to.
theorem mem_expand_filter (hw : tree.WellFormed) (hn : ∀ name ∈ names, IsStep name) {glob : Glob}
    (h : Glob.parse (ofNames names) = .ok glob) :
    file ∈ (glob.expand tree).filter tree.isFile ↔
      Hits tree ⟨"/"⟩ glob.segments file ∧ tree.isFile file = true := by
  obtain ⟨hsplit, hne⟩ := Glob.parse_isSplit hn h
  rw [List.mem_filter, Glob.mem_expand_iff hw hsplit hne]

-- Names that are matched one by one are the path of one file, if they are that of any.
theorem hits_literals_and_isFile (hn : ∀ name ∈ names, IsStep name) :
    Hits tree ⟨"/"⟩ (Glob.literals names) file ∧ tree.isFile file = true ↔
      file = ofNames names ∧ tree.isFile file = true := by
  have hroot : Path.mk "/" = ofNames [] := rfl
  rw [hroot]
  refine and_congr_left fun hfile => ⟨fun h => h.eq_of_literals hn, ?_⟩
  rintro rfl
  obtain ⟨location, bytes, hfind⟩ := Tree.isFile_iff.mp hfile
  have hliterals : Hits tree (ofNames []) (Glob.literals names ++ []) (ofNames names) ↔
      Hits tree (ofNames ([] ++ names)) [] (ofNames names) :=
    Glob.hits_literals_iff hn (Tree.place_of_find hfind)
  rw [List.append_nil] at hliterals
  exact hliterals.mpr (.done _)

theorem filesOf?_file (hfile : tree.isFile (Path.absolutize dir ⟨pattern⟩) = true)
    (hwild : hasWildcard pattern = false) :
    filesOf? tree dir pattern = some [Path.absolutize dir ⟨pattern⟩] := by
  simp only [filesOf?, isDirectory_of_isFile hfile, hwild, hfile, Bool.false_eq_true, if_false,
    if_true]

theorem filesOf?_wild_iff (hdir : tree.isDirectory (Path.absolutize dir ⟨pattern⟩) = false)
    (hwild : hasWildcard pattern = true) {files : List Path} :
    filesOf? tree dir pattern = some files ↔
      ∃ glob, Glob.parse (Path.absolutize dir ⟨pattern⟩) = .ok glob ∧
        files = (glob.expand tree).filter tree.isFile := by
  simp only [filesOf?, hdir, hwild, Bool.false_eq_true, if_false, if_true, expandGlob_toOption]
  cases Glob.parse (Path.absolutize dir ⟨pattern⟩) with
  | error e => simp [Except.toOption]
  | ok glob => simp [Except.toOption, eq_comm]

-- Where no character of its path has a meaning in patterns, a pattern with wildcards still stands
-- for what is at its path.
theorem mem_expand_of_isPlain (hw : tree.WellFormed) (hn : ∀ name ∈ names, IsStep name)
    (hplain : (ofNames names).IsPlain) (hne : names ≠ []) {glob : Glob}
    (h : Glob.parse (ofNames names) = .ok glob) :
    file ∈ (glob.expand tree).filter tree.isFile ↔
      file = ofNames names ∧ tree.isFile file = true := by
  rw [mem_expand_filter hw hn h]
  rw [Glob.parse_literal hplain.literal hn hne] at h
  cases h
  exact hits_literals_and_isFile hn

-- A pattern that is the path of a file adds that file and no other, unless it has wildcards and its
-- path has a meaning in patterns. Then it adds the files that it leads to as a pattern.
theorem file_taken (hw : tree.WellFormed) (ha : dir.isAbsolute = true)
    {before after : List String} {hydrated : Hydrated}
    (h : Hydrates tree dir (before ++ pattern :: after) hydrated)
    (hfile : tree.isFile (Path.absolutize dir ⟨pattern⟩) = true) :
    ∃ first files last, Hydrates tree dir before first ∧ Hydrates tree dir after last ∧
      hydrated =
        (first.union ⟨files, [(Path.absolutize dir ⟨pattern⟩).text]⟩).union last ∧
      (hasWildcard pattern = false ∨ (Path.absolutize dir ⟨pattern⟩).IsPlain →
        files = [Path.absolutize dir ⟨pattern⟩]) ∧
      (hasWildcard pattern = true →
        ∃ glob, Glob.parse (Path.absolutize dir ⟨pattern⟩) = .ok glob ∧
          ∀ file, files.any (·.sameAs file) = true ↔
            ∃ hit, Hits tree ⟨"/"⟩ glob.segments hit ∧ tree.isFile hit = true ∧
              hit.sameAs file = true) := by
  obtain ⟨first, others, hfirst, hothers, rfl⟩ := hydrates_append_iff.mp h
  obtain ⟨files, last, hfiles, hlast, rfl⟩ := hydrates_cons_iff.mp hothers
  obtain ⟨names, hn, hnames⟩ := Path.exists_absolutize ha ⟨pattern⟩
  have hdirectory := isDirectory_of_isFile hfile
  have hglob : globOf tree dir pattern = (Path.absolutize dir ⟨pattern⟩).text := by
    rw [globOf, hdirectory]
    rfl
  refine ⟨first, files.foldl Hydrated.addFile [], last, hfirst, hlast, ?_, ?_, ?_⟩
  · rw [← Hydrated.union_assoc, Hydrated.alone, hglob]
  · intro hcase
    cases hwild : hasWildcard pattern with
    | false =>
      rw [filesOf?_file hfile hwild] at hfiles
      cases hfiles
      rfl
    | true =>
      have hplain := hcase.resolve_left (by simp [hwild])
      obtain ⟨glob, hparse, rfl⟩ := (filesOf?_wild_iff hdirectory hwild).mp hfiles
      rw [hnames] at hfile hplain hparse ⊢
      have hne : names ≠ [] := by
        rintro rfl
        cases hfile
      refine Hydrated.foldl_addFile_eq_singleton fun file => ?_
      rw [mem_expand_of_isPlain hw hn hplain hne hparse]
      refine and_iff_left_of_imp ?_
      rintro rfl
      exact hfile
  · intro hwild
    obtain ⟨glob, hparse, rfl⟩ := (filesOf?_wild_iff hdirectory hwild).mp hfiles
    rw [hnames] at hparse ⊢
    refine ⟨glob, hparse, fun file => ?_⟩
    rw [Hydrated.any_sameAs_iff, Hydrated.mem_parts_foldl_addFile, List.mem_map]
    refine exists_congr fun hit => ?_
    rw [mem_expand_filter hw hn hparse, and_assoc, Path.sameAs, beq_iff_eq]

section OddNames

-- Two files with characters of patterns in their names.
def oddNames : Tree :=
  ⟨[(["w"], .directory), (["w", "src"], .directory), (["w", "src", "a[1].js"], .file .empty),
    (["w", "src", "\x7ba\x7d.js"], .file .empty)]⟩

theorem braces_taken :
    (oddNames.WellFormed ∧
      oddNames.isFile (Path.absolutize ⟨"/w"⟩ ⟨"src/\x7ba\x7d.js"⟩) = true) ∧
      Hydrates oddNames ⟨"/w"⟩ ["src/\x7ba\x7d.js"]
        ⟨[⟨"/w/src/\x7ba\x7d.js"⟩], ["/w/src/\x7ba\x7d.js"]⟩ := by
  have hw : oddNames.WellFormed := by decide
  have habsolute : Path.absolutize ⟨"/w"⟩ ⟨"src/\x7ba\x7d.js"⟩ = ⟨"/w/src/\x7ba\x7d.js"⟩ := by
    decide
  have hfile : oddNames.isFile (Path.absolutize ⟨"/w"⟩ ⟨"src/\x7ba\x7d.js"⟩) = true := by
    rw [habsolute]
    rfl
  have hplain : (Path.absolutize ⟨"/w"⟩ ⟨"src/\x7ba\x7d.js"⟩).IsPlain := by
    rw [habsolute]
    decide
  obtain ⟨glob, hparse⟩ : ∃ glob,
      Glob.parse (Path.absolutize ⟨"/w"⟩ ⟨"src/\x7ba\x7d.js"⟩) = .ok glob := by
    rw [habsolute]
    exact ⟨_, rfl⟩
  have hfiles := (filesOf?_wild_iff (isDirectory_of_isFile hfile) rfl).mpr ⟨glob, hparse, rfl⟩
  have hone := hydrates_singleton hfiles
  have hlist : Hydrates oddNames ⟨"/w"⟩ ([] ++ "src/\x7ba\x7d.js" :: []) _ := hone
  obtain ⟨first, files, last, hfirst, hlast, heq, htaken, -⟩ :=
    file_taken hw (by decide) hlist hfile
  refine ⟨⟨hw, hfile⟩, ?_⟩
  rw [heq, hydrates_nil_iff.mp hfirst, hydrates_nil_iff.mp hlast, Hydrated.empty_union,
    Hydrated.union_empty, htaken (.inr hplain), habsolute] at hone
  exact hone

-- A set of one character never stands for the brackets that it is written with.
theorem not_hits_brackets (file : Path) : ¬ Hits oddNames ⟨"/"⟩
    [[.char 'w'], [.char 's', .char 'r', .char 'c'],
      [.char 'a', .within [('1', '1')], .char '.', .char 'j', .char 's']] file := by
  intro h
  have hfind : oddNames.find (ofNames ["w", "src"]) = .ok (["w", "src"], .directory) := rfl
  have hplace : oddNames.place (ofNames ([] ++ ["w", "src"])) true =
      .ok (.found ["w", "src"] .directory) := rfl
  have hnames : ∀ name ∈ [] ++ ["w", "src"], IsName name := by decide
  have hbelow := (Glob.hits_literals_iff (fun name hname => (hnames name hname).isStep) hplace).mp h
  cases hbelow with
  | literal hliteral => cases hliteral
  | special _ _ hdot => cases hdot
  | @name _ _ _ _ child _ _ hchild hmatch =>
    obtain ⟨entry, hentry⟩ := Option.isSome_iff_exists.mp ((Glob.mem_childNames hfind).mp hchild)
    have hmem := Tree.mem_of_get? hentry (by simp)
    obtain ⟨rfl, -⟩ | ⟨rfl, -⟩ : child = "a[1].js" ∧ entry = .file .empty ∨
        child = "\x7ba\x7d.js" ∧ entry = .file .empty := by simpa [oddNames] using hmem
    · have hchars : "a[1].js".toList = ['a', '[', '1', ']', '.', 'j', 's'] := rfl
      rw [hchars] at hmatch
      simp [Glob.isMatch, Glob.Token.isChar, Glob.inRanges] at hmatch
    · have hchars : "\x7ba\x7d.js".toList = ['{', 'a', '}', '.', 'j', 's'] := rfl
      rw [hchars] at hmatch
      simp [Glob.isMatch, Glob.Token.isChar] at hmatch
  | here hdepth => cases hdepth
  | deeper hdepth => cases hdepth
  | last hdepth => cases hdepth

-- A file with brackets in its name is not taken by its own path.
theorem brackets_not_taken :
    oddNames.WellFormed ∧ oddNames.isFile (Path.absolutize ⟨"/w"⟩ ⟨"src/a[1].js"⟩) = true ∧
      Hydrates oddNames ⟨"/w"⟩ ["src/a[1].js"] ⟨[], ["/w/src/a[1].js"]⟩ := by
  have habsolute : Path.absolutize ⟨"/w"⟩ ⟨"src/a[1].js"⟩ = ⟨"/w/src/a[1].js"⟩ := by decide
  have hw : oddNames.WellFormed := by decide
  have hfile : oddNames.isFile (Path.absolutize ⟨"/w"⟩ ⟨"src/a[1].js"⟩) = true := by
    rw [habsolute]
    rfl
  refine ⟨hw, hfile, ?_⟩
  have hdirectory := isDirectory_of_isFile hfile
  have hparse : Glob.parse (ofNames ["w", "src", "a[1].js"]) =
      .ok ⟨[[.char 'w'], [.char 's', .char 'r', .char 'c'],
        [.char 'a', .within [('1', '1')], .char '.', .char 'j', .char 's']]⟩ := rfl
  have hnone : ((Glob.mk [[.char 'w'], [.char 's', .char 'r', .char 'c'],
      [.char 'a', .within [('1', '1')], .char '.', .char 'j', .char 's']]).expand
        oddNames).filter oddNames.isFile = [] := by
    have hnames : ∀ name ∈ ["w", "src", "a[1].js"], IsName name := by decide
    refine List.eq_nil_iff_forall_not_mem.mpr fun file hmem => not_hits_brackets file ?_
    exact ((mem_expand_filter hw (fun name hname => (hnames name hname).isStep) hparse).mp hmem).1
  have hfiles : filesOf? oddNames ⟨"/w"⟩ "src/a[1].js" = some [] :=
    (filesOf?_wild_iff hdirectory rfl).mpr ⟨_, habsolute ▸ hparse, hnone.symm⟩
  have hone := hydrates_singleton hfiles
  rw [globOf, hdirectory, habsolute] at hone
  exact hone

end OddNames

end DocPipeline.Discovery
