import DocPipeline.Proofs.Discovery.Plain

namespace DocPipeline

open DocPipeline.Path (ofNames IsStep)
open DocPipeline.Glob (Hits)

-- Both list the same files, in whatever order.
def Hydrated.SameFiles (hydrated other : Hydrated) : Prop :=
  ∀ parts, parts ∈ hydrated.files.map Path.parts ↔ parts ∈ other.files.map Path.parts

namespace Discovery

variable {tree : Tree} {dir : Path} {pattern : String} {patterns names : List String}
variable {home : Location} {files : List Path} {file : Path}

section Texts

theorem isPlain_of_hasWildcard {text : String} (h : hasWildcard text = false) :
    (Path.mk text).IsPlain := by
  intro c hc
  have hnone := List.any_eq_false.mp h c hc
  simp only [Bool.or_eq_true, beq_iff_eq, not_or] at hnone
  exact ⟨hnone.1.1.2, hnone.1.1.1, hnone.1.2⟩

theorem isStep_stars : ∀ name ∈ ["**", "*"], IsStep name := by
  have hnames : ∀ name ∈ ["**", "*"], IsName name := by decide
  exact fun name hname => (hnames name hname).isStep

theorem withoutSlashes_eq_self {text : String} (h : text.toList.getLast? ≠ some '/') :
    withoutSlashes text = text := by
  have hkept : text.toList.reverse.dropWhile (· == '/') = text.toList.reverse := by
    rw [← List.head?_reverse] at h
    cases hchars : text.toList.reverse with
    | nil => rfl
    | cons c chars =>
      rw [hchars] at h
      have hc : c ≠ '/' := fun he => h (congrArg some he)
      rw [List.dropWhile_cons_of_neg (by simpa using hc)]
  rw [withoutSlashes, hkept, List.reverse_reverse, String.ofList_toList]

-- What is recorded for a directory is the path of two more names in it.
theorem recorded_ofNames (hn : ∀ name ∈ names, IsStep name) :
    Path.mk (withoutSlashes (ofNames names).text ++ "/**/*") = ofNames (names ++ ["**", "*"]) := by
  obtain rfl | ⟨init, last, rfl⟩ := List.eq_nil_or_concat names
  · decide
  · rw [List.concat_eq_append] at hn ⊢
    have hlast := Path.getLast?_ofNames init (hn last (by simp))
    have hstars : "/**/*" = "/" ++ "/".intercalate ["**", "*"] := by decide
    have hinter : "/".intercalate (init ++ [last] ++ ["**", "*"]) =
        "/".intercalate (init ++ [last]) ++ "/" ++ "/".intercalate ["**", "*"] :=
      String.intercalate_append_of_ne_nil (by simp) (by simp)
    rw [withoutSlashes_eq_self hlast, hstars]
    calc
      Path.mk ((ofNames (init ++ [last])).text ++ ("/" ++ "/".intercalate ["**", "*"])) =
          Path.mk (ofNames (init ++ [last] ++ ["**", "*"])).text := by
        rw [Path.text_ofNames, Path.text_ofNames, hinter]
        simp only [String.append_assoc]
      _ = ofNames (init ++ [last] ++ ["**", "*"]) := rfl

end Texts

section Pattern

-- No file below a directory is reached through a link.
def Unlinked (tree : Tree) (path : Path) (home : Location) : Prop :=
  ∀ names, (∀ name ∈ names, IsStep name) → names ≠ [] →
    tree.isFile (path.join ⟨"/".intercalate names⟩) = true → tree.isFileAt (home ++ names) = true

-- What is recorded for a pattern stands for the same when it is read in its place.
structure Reproducible (tree : Tree) (dir : Path) (pattern : String) : Prop where
  -- No character of the path has a meaning in patterns, where it is not read as one already.
  plain : tree.isDirectory (Path.absolutize dir ⟨pattern⟩) = true ∨ hasWildcard pattern = false →
    (Path.absolutize dir ⟨pattern⟩).IsPlain
  -- No directory is called what is recorded.
  unnamed : tree.isDirectory (Path.absolutize dir ⟨pattern⟩) = true →
    tree.isDirectory ((Path.absolutize dir ⟨pattern⟩).join ⟨"**/*"⟩) = false
  unlinked : ∀ home, tree.find (Path.absolutize dir ⟨pattern⟩) = .ok (home, .directory) →
    Unlinked tree (Path.absolutize dir ⟨pattern⟩) home

-- A path stands for its file if there is one, whether it is read as a path or as a pattern.
theorem filesOf?_isPlain (hw : tree.WellFormed) (hn : ∀ name ∈ names, IsStep name)
    (hnames : Path.absolutize dir ⟨pattern⟩ = ofNames names)
    (hdir : tree.isDirectory (ofNames names) = false) (hplain : (ofNames names).IsPlain) :
    ∃ files, filesOf? tree dir pattern = some files ∧
      ∀ file, file ∈ files ↔ file = ofNames names ∧ tree.isFile file = true := by
  cases hwild : hasWildcard pattern with
  | true =>
    have hne : names ≠ [] := by
      rintro rfl
      cases hdir
    have hparse := Glob.parse_literal hplain.literal hn hne
    exact ⟨_, (filesOf?_wild_iff (hnames ▸ hdir) hwild).mpr ⟨_, hnames ▸ hparse, rfl⟩,
      fun file => mem_expand_of_isPlain hw hn hplain hne hparse⟩
  | false =>
    rw [filesOf?, hnames, hdir, hwild, if_neg Bool.false_ne_true, if_neg Bool.false_ne_true]
    cases hfile : tree.isFile (ofNames names) with
    | true =>
      refine ⟨_, if_pos rfl, fun file => ?_⟩
      rw [List.mem_singleton]
      refine (and_iff_left_of_imp ?_).symm
      rintro rfl
      exact hfile
    | false =>
      refine ⟨_, if_neg Bool.false_ne_true, fun file => ⟨fun h => (by cases h), ?_⟩⟩
      rintro ⟨rfl, h⟩
      rw [hfile] at h
      cases h

theorem join_stars (hn : ∀ name ∈ names, IsStep name) :
    (ofNames names).join ⟨"**/*"⟩ = ofNames (names ++ ["**", "*"]) := by
  have htext : "**/*" = "/".intercalate ["**", "*"] := by decide
  rw [htext, Path.join_ofNames hn isStep_stars (by simp)]

-- Read as a pattern, what is recorded for a directory stands for all files below it.
theorem filesOf?_everything (hw : tree.WellFormed) (hn : ∀ name ∈ names, IsStep name)
    (hnames : Path.absolutize dir ⟨pattern⟩ = ofNames names)
    (hfind : tree.find (ofNames names) = .ok (home, .directory)) (hplain : (ofNames names).IsPlain)
    (hunnamed : tree.isDirectory ((ofNames names).join ⟨"**/*"⟩) = false) :
    ∃ again, filesOf? tree dir (globOf tree dir pattern) = some again ∧
      ∀ file, file ∈ again ↔ ∃ more, more ≠ [] ∧ (∀ name ∈ more, IsStep name) ∧
        file = ofNames (names ++ more) ∧ tree.isFile file = true := by
  have hdirectory := Tree.isDirectory_iff.mpr ⟨home, hfind⟩
  have hglob : globOf tree dir pattern = withoutSlashes (ofNames names).text ++ "/**/*" := by
    rw [globOf, hnames, if_pos hdirectory]
  have hall := List.forall_mem_append.mpr ⟨hn, isStep_stars⟩
  have hread : Path.absolutize dir ⟨globOf tree dir pattern⟩ = ofNames (names ++ ["**", "*"]) := by
    rw [hglob, recorded_ofNames hn, Path.absolutize_ofNames hall]
  have hwild : hasWildcard (globOf tree dir pattern) = true := by
    rw [hglob]
    simp [hasWildcard]
  have hparse : Glob.parse (ofNames (names ++ ["**", "*"])) =
      .ok ⟨Glob.literals names ++ Glob.everything⟩ := by
    have hoption := Glob.parse_toOption hplain.literal hn isStep_stars (by simp)
    rw [Glob.parseBelow?_everything] at hoption
    cases hresult : Glob.parse (ofNames (names ++ ["**", "*"])) <;> rw [hresult] at hoption <;>
      cases hoption
    rfl
  rw [join_stars hn] at hunnamed
  refine ⟨_, (filesOf?_wild_iff (hread ▸ hunnamed) hwild).mpr ⟨_, hread ▸ hparse, rfl⟩,
    fun file => ?_⟩
  have hbelow : Hits tree ⟨"/"⟩ (Glob.literals names ++ Glob.everything) file ↔
      Hits tree (ofNames names) Glob.everything file := by
    have hroot : Path.mk "/" = ofNames [] := rfl
    rw [hroot]
    exact Glob.hits_literals_iff hn (Tree.place_of_find hfind)
  rw [mem_expand_filter hw hall hparse]
  constructor
  · rintro ⟨hhits, hfile⟩
    obtain ⟨more, hne, hmore, heq⟩ := (Glob.hits_everything_iff hw hn hfile).mp (hbelow.mp hhits)
    exact ⟨more, hne, hmore, heq, hfile⟩
  · rintro ⟨more, hne, hmore, heq, hfile⟩
    exact ⟨hbelow.mpr ((Glob.hits_everything_iff hw hn hfile).mpr ⟨more, hne, hmore, heq⟩), hfile⟩

-- Walking a directory lists the files that are in it without following a link.
theorem mem_walk_iff (hw : tree.WellFormed) (hn : ∀ name ∈ names, IsStep name)
    (hfind : tree.find (ofNames names) = .ok (home, .directory)) :
    file ∈ walk tree (ofNames names) ↔ ∃ more, more ≠ [] ∧ (∀ name ∈ more, IsStep name) ∧
      file = ofNames (names ++ more) ∧ tree.isFileAt (home ++ more) = true := by
  rw [walk_ofNames hw hn hfind, List.mem_map]
  constructor
  · rintro ⟨more, hmore, rfl⟩
    obtain ⟨hne, hfile⟩ := Tree.mem_filesBelow.mp hmore
    exact ⟨more, hne, Tree.isStep_of_mem_below hw (List.mem_of_mem_filter hmore), rfl, hfile⟩
  · rintro ⟨more, hne, -, rfl, hfile⟩
    exact ⟨more, Tree.mem_filesBelow.mpr ⟨hne, hfile⟩, rfl⟩

-- A pattern that is recorded as it is read stands for the same again.
theorem filesOf?_again (hw : tree.WellFormed) (ha : dir.isAbsolute = true)
    (hr : Reproducible tree dir pattern) (h : filesOf? tree dir pattern = some files) :
    ∃ again, filesOf? tree dir (globOf tree dir pattern) = some again ∧
      ∀ file, file ∈ again ↔ file ∈ files := by
  obtain ⟨names, hn, hnames⟩ := Path.exists_absolutize ha ⟨pattern⟩
  obtain ⟨hplain, hunnamed, hunlinked⟩ := hr
  rw [hnames] at hplain hunnamed hunlinked
  cases hdir : tree.isDirectory (ofNames names) with
  | true =>
    obtain ⟨home, hfind⟩ := Tree.isDirectory_iff.mp hdir
    obtain ⟨again, hagain, hmem⟩ := filesOf?_everything hw hn hnames hfind (hplain (.inl hdir))
      (hunnamed hdir)
    refine ⟨again, hagain, fun file => ?_⟩
    rw [filesOf?_directory (hnames ▸ hdir), hnames] at h
    cases h
    rw [hmem, mem_walk_iff hw hn hfind]
    refine exists_congr fun more => and_congr_right fun hne => and_congr_right fun hmore =>
      and_congr_right ?_
    rintro rfl
    have hlinked := hunlinked home hfind more hmore hne
    rw [Path.join_ofNames hn hmore hne] at hlinked
    exact ⟨hlinked, Tree.isFile_entry hw hn hfind⟩
  | false =>
    have hglob : globOf tree dir pattern = (ofNames names).text := by
      rw [globOf, hnames, hdir]
      rfl
    have hread : Path.absolutize dir ⟨globOf tree dir pattern⟩ = ofNames names := by
      rw [hglob]
      exact Path.absolutize_ofNames hn dir
    -- A pattern that is no pattern once it is absolute, or never was one, is the path of a file.
    have hpath : (ofNames names).IsPlain → ∃ again,
        filesOf? tree dir (globOf tree dir pattern) = some again ∧
          ∀ file, file ∈ again ↔ file ∈ files := by
      intro hchars
      obtain ⟨files', hfiles', hmem⟩ := filesOf?_isPlain hw hn hnames hdir hchars
      obtain ⟨again, hagain, hmem'⟩ := filesOf?_isPlain hw hn hread hdir hchars
      rw [h] at hfiles'
      cases hfiles'
      exact ⟨again, hagain, fun file => (hmem' file).trans (hmem file).symm⟩
    cases hwild : hasWildcard pattern with
    | false => exact hpath (hplain (.inr hwild))
    | true =>
      cases hwild' : hasWildcard (ofNames names).text with
      | false => exact hpath (isPlain_of_hasWildcard hwild')
      | true =>
        obtain ⟨glob, hparse, rfl⟩ := (filesOf?_wild_iff (hnames ▸ hdir) hwild).mp h
        refine ⟨_, (filesOf?_wild_iff (hread ▸ hdir) (hglob ▸ hwild')).mpr
          ⟨glob, ?_, rfl⟩, fun _ => Iff.rfl⟩
        rw [hread, ← hnames]
        exact hparse

end Pattern

section Again

variable {hydrated : Hydrated}

theorem Hydrates.again (hw : tree.WellFormed) (ha : dir.isAbsolute = true)
    (h : Hydrates tree dir patterns hydrated)
    (hr : ∀ pattern ∈ patterns, Reproducible tree dir pattern) :
    ∃ again, Hydrates tree dir hydrated.globs again ∧ hydrated.SameFiles again := by
  -- What each pattern stands for, and what is recorded for it.
  have heach : ∀ pattern ∈ patterns, ∃ files again, filesOf? tree dir pattern = some files ∧
      filesOf? tree dir (globOf tree dir pattern) = some again ∧
        ∀ parts, parts ∈ files.map Path.parts ↔ parts ∈ again.map Path.parts := by
    intro pattern hpattern
    obtain ⟨files, hfiles⟩ := exists_hydrates_iff.mp ⟨hydrated, h⟩ pattern hpattern
    obtain ⟨again, hagain, hmem⟩ := filesOf?_again hw ha (hr pattern hpattern) hfiles
    exact ⟨files, again, hfiles, hagain, fun parts => by simp only [List.mem_map, hmem]⟩
  have hread : ∀ glob ∈ hydrated.globs, ∃ files, filesOf? tree dir glob = some files := by
    rw [h.globs_eq]
    refine List.forall_mem_map.mpr fun pattern hpattern => ?_
    obtain ⟨_, again, -, hagain, -⟩ := heach pattern hpattern
    exact ⟨again, hagain⟩
  obtain ⟨again, hagain⟩ := exists_hydrates_iff.mpr hread
  refine ⟨again, hagain, fun parts => ?_⟩
  rw [h.mem_parts_iff, hagain.mem_parts_iff, h.globs_eq]
  constructor
  · rintro ⟨pattern, hpattern, files, hfiles, hparts⟩
    obtain ⟨files', others, hfiles', hothers, hsame⟩ := heach pattern hpattern
    rw [hfiles] at hfiles'
    cases hfiles'
    exact ⟨_, List.mem_map_of_mem hpattern, others, hothers, (hsame parts).mp hparts⟩
  · rintro ⟨glob, hglob, others, hothers, hparts⟩
    obtain ⟨pattern, hpattern, rfl⟩ := List.mem_map.mp hglob
    obtain ⟨files, others', hfiles, hothers', hsame⟩ := heach pattern hpattern
    rw [hothers] at hothers'
    cases hothers'
    exact ⟨pattern, hpattern, files, hfiles, (hsame parts).mpr hparts⟩

theorem mem_parts_alone {files : List Path} {parts : List Path.Part}
    (h : filesOf? tree dir pattern = some files) (hone : Hydrates tree dir [pattern] hydrated) :
    parts ∈ hydrated.files.map Path.parts ↔ parts ∈ files.map Path.parts := by
  rw [hone.unique (hydrates_singleton h)]
  exact Hydrated.mem_parts_foldl_addFile

-- What was recorded is expanded to the same files, where every pattern can be reproduced. For a
-- directory it always holds at least the files that the walk listed, and no others just as long as
-- no file is reached through a link below the directory.
theorem recorded_reproduced (hw : tree.WellFormed) (ha : dir.isAbsolute = true) :
    (∀ patterns hydrated, Hydrates tree dir patterns hydrated →
      (∀ pattern ∈ patterns, Reproducible tree dir pattern) →
        ∃ again, Hydrates tree dir hydrated.globs again ∧ hydrated.SameFiles again) ∧
    ∀ pattern home hydrated,
      tree.find (Path.absolutize dir ⟨pattern⟩) = .ok (home, .directory) →
      (Path.absolutize dir ⟨pattern⟩).IsPlain →
      tree.isDirectory ((Path.absolutize dir ⟨pattern⟩).join ⟨"**/*"⟩) = false →
      Hydrates tree dir [pattern] hydrated →
        ∃ again, Hydrates tree dir hydrated.globs again ∧
          (∀ parts ∈ hydrated.files.map Path.parts, parts ∈ again.files.map Path.parts) ∧
          (hydrated.SameFiles again ↔ Unlinked tree (Path.absolutize dir ⟨pattern⟩) home) := by
  refine ⟨fun patterns hydrated h hr => h.again hw ha hr, ?_⟩
  intro pattern home hydrated hfind hplain hunnamed h
  obtain ⟨names, hn, hnames⟩ := Path.exists_absolutize ha ⟨pattern⟩
  have hdir : tree.isDirectory (ofNames names) = true := by rw [← hnames, Tree.isDirectory, hfind]
  have hfind' := hnames ▸ hfind
  obtain ⟨others, hothers, hmem⟩ := filesOf?_everything hw hn hnames hfind' (hnames ▸ hplain)
    (hnames ▸ hunnamed)
  have hfiles : filesOf? tree dir pattern = some (walk tree (Path.absolutize dir ⟨pattern⟩)) :=
    filesOf?_directory (hnames ▸ hdir)
  have hglobs : hydrated.globs = [globOf tree dir pattern] := h.globs_eq
  have hagain := hydrates_singleton hothers
  rw [← hglobs] at hagain
  have hlisted : ∀ parts, parts ∈ hydrated.files.map Path.parts ↔
      ∃ file ∈ walk tree (ofNames names), file.parts = parts := by
    intro parts
    rw [mem_parts_alone hfiles h, hnames, List.mem_map]
  have hread : ∀ parts, parts ∈ (others.foldl Hydrated.addFile []).map Path.parts ↔
      ∃ file ∈ others, file.parts = parts := by
    intro parts
    rw [Hydrated.mem_parts_foldl_addFile, List.mem_map]
  refine ⟨_, hagain, ?_, ?_, ?_⟩
  · intro parts hparts
    obtain ⟨file, hfile, rfl⟩ := (hlisted parts).mp hparts
    obtain ⟨more, hne, hmore, rfl, hat⟩ := (mem_walk_iff hw hn hfind').mp hfile
    exact (hread _).mpr ⟨_, (hmem _).mpr
      ⟨more, hne, hmore, rfl, Tree.isFile_entry hw hn hfind' hat⟩, rfl⟩
  · intro hsame more hmore hne hfile
    rw [hnames, Path.join_ofNames hn hmore hne] at hfile
    have hparts := (hread _).mpr ⟨_, (hmem _).mpr ⟨more, hne, hmore, rfl, hfile⟩, rfl⟩
    obtain ⟨file, hwalk, heq⟩ := (hlisted _).mp ((hsame _).mpr hparts)
    obtain ⟨more', -, hmore', rfl, hat⟩ := (mem_walk_iff hw hn hfind').mp hwalk
    have hnames' := Path.eq_of_parts_ofNames (List.forall_mem_append.mpr ⟨hn, hmore'⟩)
      (List.forall_mem_append.mpr ⟨hn, hmore⟩) heq
    rwa [List.append_cancel_left hnames'] at hat
  · intro hunlinked
    have hr : Reproducible tree dir pattern := by
      refine ⟨fun _ => hplain, fun _ => hunnamed, fun home' hfound => ?_⟩
      rw [hfind] at hfound
      cases hfound
      exact hunlinked
    obtain ⟨again, hagain', hsame⟩ := h.again hw ha (List.forall_mem_singleton.mpr hr)
    rwa [hagain'.unique hagain] at hsame

-- A directory without links in it, and the path of a link to a file.
theorem reproducible_inner : Reproducible nested ⟨"/w"⟩ "src/lib" := by
  have habsolute : Path.absolutize ⟨"/w"⟩ ⟨"src/lib"⟩ = ofNames ["w", "src", "lib"] := by decide
  have hnames : ∀ name ∈ ["w", "src", "lib"], IsName name := by decide
  have hfound : nested.find (ofNames ["w", "src", "lib"]) =
      .ok (["w", "src", "lib"], .directory) := rfl
  have hproject : Tree.Project nested ["w", "src", "lib"] ["w", "src", "lib"] := by
    refine ⟨by decide, by decide, fun name hname => (hnames name hname).isStep, hfound, ?_⟩
    intro names target hget
    have hmem := Tree.mem_of_get? hget (by simp)
    simp [nested] at hmem
  refine ⟨fun _ => ?_, fun _ => ?_, fun home hfind names hn hne hfile => ?_⟩
  · rw [habsolute]
    decide
  · rw [habsolute]
    rfl
  · rw [habsolute] at hfind hfile
    rw [hfound] at hfind
    cases hfind
    rwa [Path.join_ofNames hproject.steps hn hne, hproject.isFile_eq hn] at hfile

theorem reproducible_link : Reproducible nested ⟨"/w"⟩ "src/z.js" := by
  have habsolute : Path.absolutize ⟨"/w"⟩ ⟨"src/z.js"⟩ = ⟨"/w/src/z.js"⟩ := by decide
  have hfile : nested.find ⟨"/w/src/z.js"⟩ = .ok (["w", "src", "a.js"], .file .empty) := rfl
  refine ⟨fun _ => ?_, fun hdir => ?_, fun home hfind => ?_⟩
  · rw [habsolute]
    decide
  · rw [habsolute, Tree.isDirectory, hfile] at hdir
    cases hdir
  · rw [habsolute, hfile] at hfind
    cases hfind

theorem hydrates_nested : Hydrates nested ⟨"/w"⟩ ["src/lib", "src/z.js"]
    ⟨[⟨"/w/src/lib/b.js"⟩, ⟨"/w/src/z.js"⟩], ["/w/src/lib/**/*", "/w/src/z.js"]⟩ := by
  have hlink : filesOf? nested ⟨"/w"⟩ "src/z.js" = some [⟨"/w/src/z.js"⟩] :=
    filesOf?_file (by rfl) rfl
  exact (hydrates_singleton filesOf?_inner).append (hydrates_singleton hlink)

theorem nested_reproduced : ∃ again,
    Hydrates nested ⟨"/w"⟩ ["/w/src/lib/**/*", "/w/src/z.js"] again ∧
      Hydrated.SameFiles
        ⟨[⟨"/w/src/lib/b.js"⟩, ⟨"/w/src/z.js"⟩], ["/w/src/lib/**/*", "/w/src/z.js"]⟩ again := by
  have hw : nested.WellFormed := by decide
  have hreproducible : ∀ pattern ∈ ["src/lib", "src/z.js"],
      Reproducible nested ⟨"/w"⟩ pattern := by
    intro pattern hpattern
    obtain rfl | rfl := List.mem_pair.mp hpattern
    · exact reproducible_inner
    · exact reproducible_link
  have ha : Path.isAbsolute ⟨"/w"⟩ = true := by decide
  have hagain := (recorded_reproduced hw ha).1 _ _ hydrates_nested hreproducible
  exact hagain

-- A link to a file that walking its directory leaves out is found once the directory is recorded.
theorem link_not_reproduced : nested.WellFormed ∧ ∃ hydrated again,
    Hydrates nested ⟨"/w"⟩ ["src"] hydrated ∧ Hydrates nested ⟨"/w"⟩ hydrated.globs again ∧
      ¬ hydrated.SameFiles again := by
  have hw : nested.WellFormed := by decide
  have hnames : ∀ name ∈ ["w", "src"], IsName name := by decide
  have habsolute : Path.absolutize ⟨"/w"⟩ ⟨"src"⟩ = ofNames ["w", "src"] := by decide
  have hfind : nested.find (ofNames ["w", "src"]) = .ok (["w", "src"], .directory) := rfl
  obtain ⟨others, hothers, hmem⟩ := filesOf?_everything hw
    (fun name hname => (hnames name hname).isStep) habsolute hfind (by decide) rfl
  refine ⟨hw, _, _, hydrates_singleton filesOf?_nested, hydrates_singleton hothers, ?_⟩
  intro hsame
  have hlink : (Path.mk "/w/src/z.js") ∈ others := by
    have hstep : ∀ name ∈ ["z.js"], IsName name := by decide
    exact (hmem _).mpr ⟨["z.js"], List.cons_ne_nil _ _,
      fun name hname => (hstep name hname).isStep, rfl, rfl⟩
  have hread := (hsame (Path.mk "/w/src/z.js").parts).mpr
    (Hydrated.mem_parts_foldl_addFile.mpr (List.mem_map_of_mem hlink))
  have hwalked : (Path.mk "/w/src/z.js").parts ∈
      [Path.mk "/w/src/a.js", Path.mk "/w/src/lib/b.js"].map Path.parts :=
    Hydrated.mem_parts_foldl_addFile.mp hread
  exact absurd hwalked (by decide)

end Again

end Discovery

end DocPipeline
