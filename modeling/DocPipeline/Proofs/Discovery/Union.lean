import DocPipeline.Proofs.Discovery.Portable
import DocPipeline.Proofs.Tree.Descent

namespace DocPipeline

open DocPipeline.Path (ofNames IsStep)

namespace Hydrated

section Merge

variable {files more others : List Path} {file : Path} {parts : List Path.Part}

-- Files are the same when their parts are.
theorem any_sameAs_iff : files.any (·.sameAs file) = true ↔ file.parts ∈ files.map Path.parts := by
  simp only [List.any_eq_true, Path.sameAs, beq_iff_eq, List.mem_map]

-- What is in one list and then what is new in the other.
def merge (files more : List Path) : List Path :=
  files ++ more.filter fun file => !files.any (·.sameAs file)

theorem isNew_iff : (!files.any (·.sameAs file)) = true ↔ file.parts ∉ files.map Path.parts := by
  rw [Bool.not_eq_true', ← Bool.not_eq_true, any_sameAs_iff]

theorem mem_parts_new :
    parts ∈ (more.filter fun file => !files.any (·.sameAs file)).map Path.parts ↔
      parts ∈ more.map Path.parts ∧ parts ∉ files.map Path.parts := by
  constructor
  · intro h
    obtain ⟨file, hfile, rfl⟩ := List.mem_map.mp h
    obtain ⟨hmore, hnew⟩ := List.mem_filter.mp hfile
    exact ⟨List.mem_map_of_mem hmore, isNew_iff.mp hnew⟩
  · rintro ⟨hmore, hnew⟩
    obtain ⟨file, hfile, rfl⟩ := List.mem_map.mp hmore
    exact List.mem_map_of_mem (List.mem_filter.mpr ⟨hfile, isNew_iff.mpr hnew⟩)

theorem mem_parts_merge : parts ∈ (merge files more).map Path.parts ↔
    parts ∈ files.map Path.parts ∨ parts ∈ more.map Path.parts := by
  rw [merge, List.map_append, List.mem_append, mem_parts_new]
  tauto

theorem mem_of_mem_merge (h : file ∈ merge files more) : file ∈ files ∨ file ∈ more :=
  (List.mem_append.mp h).imp_right List.mem_of_mem_filter

theorem nodup_merge (h : (files.map Path.parts).Nodup) (h' : (more.map Path.parts).Nodup) :
    ((merge files more).map Path.parts).Nodup := by
  rw [merge, List.map_append]
  refine h.append (h'.sublist (List.filter_sublist.map _)) ?_
  exact fun parts hbefore hmore => (mem_parts_new.mp hmore).2 hbefore

theorem merge_assoc (files more others : List Path) :
    merge (merge files more) others = merge files (merge more others) := by
  have hfilter : (others.filter fun file => !(merge files more).any (·.sameAs file)) =
      (others.filter fun file => !more.any (·.sameAs file)).filter fun file =>
        !files.any (·.sameAs file) := by
    rw [List.filter_filter]
    refine List.filter_congr fun file _ => ?_
    rw [Bool.eq_iff_iff, Bool.and_eq_true, isNew_iff, isNew_iff, isNew_iff, mem_parts_merge, not_or]
  rw [merge, hfilter]
  simp only [merge, List.filter_append, List.append_assoc]

theorem nil_merge (files : List Path) : merge [] files = files := by simp [merge]

theorem merge_nil (files : List Path) : merge files [] = files := List.append_nil files

theorem addFile_eq (files : List Path) (file : Path) : addFile files file = merge files [file] := by
  rw [addFile, merge]
  cases h : files.any (·.sameAs file) <;> simp [h]

-- Listing files one by one is listing them alone and then merging.
theorem foldl_addFile_eq (files more : List Path) :
    more.foldl addFile files = merge files (more.foldl addFile []) := by
  induction more generalizing files with
  | nil => exact (merge_nil files).symm
  | cons file more ih =>
    rw [List.foldl_cons, List.foldl_cons, ih, ih (addFile [] file), addFile_eq, addFile_eq,
      merge_assoc, nil_merge]

-- Where no two files are the same, all of them are listed.
theorem foldl_addFile_of_nodup (h : (files.map Path.parts).Nodup) :
    files.foldl addFile [] = files := by
  induction files with
  | nil => rfl
  | cons file files ih =>
    rw [List.map_cons, List.nodup_cons] at h
    rw [List.foldl_cons, foldl_addFile_eq, ih h.2, addFile_eq, nil_merge, merge]
    have hnew : files.filter (fun other => !([file].any (·.sameAs other))) = files := by
      refine List.filter_eq_self.mpr fun other hother => ?_
      rw [isNew_iff, List.map_singleton, List.mem_singleton]
      exact fun heq => h.1 (heq ▸ List.mem_map_of_mem hother)
    rw [hnew]
    rfl

theorem nodup_foldl_addFile (files : List Path) :
    ((files.foldl addFile []).map Path.parts).Nodup := by
  induction files with
  | nil => exact List.nodup_nil
  | cons file files ih =>
    rw [List.foldl_cons, foldl_addFile_eq, addFile_eq, nil_merge]
    exact nodup_merge (List.nodup_singleton _) ih

theorem mem_of_mem_foldl_addFile (h : file ∈ files.foldl addFile []) : file ∈ files := by
  induction files with
  | nil => exact h
  | cons first files ih =>
    rw [List.foldl_cons, foldl_addFile_eq, addFile_eq, nil_merge] at h
    rcases mem_of_mem_merge h with hfirst | hrest
    · rw [List.mem_singleton.mp hfirst]
      exact List.mem_cons_self
    · exact List.mem_cons_of_mem _ (ih hrest)

theorem mem_parts_foldl_addFile :
    parts ∈ (files.foldl addFile []).map Path.parts ↔ parts ∈ files.map Path.parts := by
  induction files with
  | nil => rfl
  | cons file files ih =>
    rw [List.foldl_cons, foldl_addFile_eq, addFile_eq, nil_merge, mem_parts_merge, ih,
      List.map_singleton, List.mem_singleton, List.map_cons, List.mem_cons]

theorem foldl_addFile_eq_singleton (h : ∀ other, other ∈ files ↔ other = file) :
    files.foldl addFile [] = [file] := by
  have hall : ∀ other ∈ files.foldl addFile [], other = file :=
    fun other hother => (h other).mp (mem_of_mem_foldl_addFile hother)
  have hmem : file.parts ∈ (files.foldl addFile []).map Path.parts :=
    mem_parts_foldl_addFile.mpr (List.mem_map_of_mem ((h file).mpr rfl))
  have hnodup := nodup_foldl_addFile files
  generalize files.foldl addFile [] = listed at hall hmem hnodup
  obtain - | ⟨first, - | ⟨second, rest⟩⟩ := listed
  · cases hmem
  · rw [hall first List.mem_cons_self]
  · -- The second would be the first once more.
    rw [hall first List.mem_cons_self, hall second (by simp)] at hnodup
    simp at hnodup

end Merge

-- What is listed in one and then in the other, each file where it comes first.
def union (hydrated more : Hydrated) : Hydrated :=
  ⟨merge hydrated.files more.files, hydrated.globs ++ more.globs⟩

-- The files of one pattern, under the glob that records it.
def alone (files : List Path) (glob : String) : Hydrated := ⟨files.foldl addFile [], [glob]⟩

theorem union_assoc (a b c : Hydrated) : (a.union b).union c = a.union (b.union c) := by
  rw [union, union, union, union, merge_assoc, List.append_assoc]

theorem empty_union (hydrated : Hydrated) : ({} : Hydrated).union hydrated = hydrated := by
  rw [union, nil_merge, List.nil_append]

theorem union_empty (hydrated : Hydrated) : hydrated.union {} = hydrated := by
  rw [union, merge_nil, List.append_nil]

theorem add_eq_union (hydrated : Hydrated) (files : List Path) (glob : String) :
    hydrated.add files glob = hydrated.union (alone files glob) := by
  rw [add, foldl_addFile_eq]
  rfl

end Hydrated

namespace Discovery

variable {tree : Tree} {dir : Path} {pattern : String} {patterns more : List String}
variable {hydrated further : Hydrated} {files : List Path} {file : Path}

-- Expanding the patterns does not fail, whatever is logged, and gives this.
def Hydrates (tree : Tree) (dir : Path) (patterns : List String) (hydrated : Hydrated) : Prop :=
  ∀ log, (exec (hydrate tree dir patterns) log).1 = .ok hydrated

theorem hydrates_iff : Hydrates tree dir patterns hydrated ↔
    hydratedFrom? tree dir patterns {} = some hydrated := by
  have hall : ∀ log, (exec (hydrate tree dir patterns) log).1.toOption =
      hydratedFrom? tree dir patterns {} := exec_foldlM_hydrateOne tree dir patterns {}
  constructor
  · intro h
    rw [← hall ⟨none, []⟩, h]
    rfl
  · intro h log
    have hlog := (hall log).trans h
    cases hrun : (exec (hydrate tree dir patterns) log).1 <;> rw [hrun] at hlog <;> cases hlog
    rfl

theorem hydratedFrom?_cons (pattern : String) (patterns : List String) (hydrated : Hydrated) :
    hydratedFrom? tree dir (pattern :: patterns) hydrated =
      (filesOf? tree dir pattern).bind fun files =>
        hydratedFrom? tree dir patterns (hydrated.add files (globOf tree dir pattern)) := by
  rw [hydratedFrom?, List.foldlM_cons]
  cases filesOf? tree dir pattern <;> rfl

-- What was listed before comes first.
theorem hydratedFrom?_eq (patterns : List String) (hydrated : Hydrated) :
    hydratedFrom? tree dir patterns hydrated =
      (hydratedFrom? tree dir patterns {}).map hydrated.union := by
  induction patterns generalizing hydrated with
  | nil => exact congrArg some (Hydrated.union_empty hydrated).symm
  | cons pattern patterns ih =>
    rw [hydratedFrom?_cons, hydratedFrom?_cons]
    cases filesOf? tree dir pattern with
    | none => rfl
    | some files =>
      rw [Option.bind_some, Option.bind_some, ih, ih (({} : Hydrated).add _ _), Option.map_map,
        Hydrated.add_eq_union, Hydrated.add_eq_union, Hydrated.empty_union]
      congr 1
      funext more
      exact Hydrated.union_assoc _ _ _

theorem Hydrates.append (h : Hydrates tree dir patterns hydrated)
    (h' : Hydrates tree dir more further) :
    Hydrates tree dir (patterns ++ more) (hydrated.union further) := by
  rw [hydrates_iff] at h h' ⊢
  rw [hydratedFrom?, List.foldlM_append, ← hydratedFrom?, h]
  change hydratedFrom? tree dir more hydrated = _
  rw [hydratedFrom?_eq, h']
  rfl

theorem hydrates_nil_iff : Hydrates tree dir [] hydrated ↔ hydrated = {} := by
  rw [hydrates_iff]
  exact Option.some_inj.trans eq_comm

-- The first pattern is expanded alone, and then the others.
theorem hydrates_cons_iff : Hydrates tree dir (pattern :: patterns) hydrated ↔
    ∃ files rest, filesOf? tree dir pattern = some files ∧ Hydrates tree dir patterns rest ∧
      hydrated = (Hydrated.alone files (globOf tree dir pattern)).union rest := by
  rw [hydrates_iff, hydratedFrom?_cons, Option.bind_eq_some_iff]
  refine exists_congr fun files => ?_
  rw [hydratedFrom?_eq, Hydrated.add_eq_union, Hydrated.empty_union, Option.map_eq_some_iff]
  constructor
  · rintro ⟨hfiles, rest, hrest, rfl⟩
    exact ⟨rest, hfiles, hydrates_iff.mpr hrest, rfl⟩
  · rintro ⟨rest, hfiles, hrest, rfl⟩
    exact ⟨hfiles, rest, hydrates_iff.mp hrest, rfl⟩

theorem hydrates_singleton (h : filesOf? tree dir pattern = some files) :
    Hydrates tree dir [pattern] (.alone files (globOf tree dir pattern)) :=
  hydrates_cons_iff.mpr
    ⟨files, {}, h, hydrates_nil_iff.mpr rfl, (Hydrated.union_empty _).symm⟩

-- Patterns are expanded as long as each of them is.
theorem exists_hydrates_iff : (∃ hydrated, Hydrates tree dir patterns hydrated) ↔
    ∀ pattern ∈ patterns, ∃ files, filesOf? tree dir pattern = some files := by
  induction patterns with
  | nil => exact ⟨fun _ => nofun, fun _ => ⟨{}, hydrates_nil_iff.mpr rfl⟩⟩
  | cons pattern patterns ih =>
    rw [List.forall_mem_cons, ← ih]
    constructor
    · rintro ⟨hydrated, h⟩
      obtain ⟨files, rest, hfiles, hrest, -⟩ := hydrates_cons_iff.mp h
      exact ⟨⟨files, hfiles⟩, rest, hrest⟩
    · rintro ⟨⟨files, hfiles⟩, rest, hrest⟩
      exact ⟨_, hydrates_cons_iff.mpr ⟨files, rest, hfiles, hrest, rfl⟩⟩

theorem Hydrates.unique (h : Hydrates tree dir patterns hydrated)
    (h' : Hydrates tree dir patterns further) : hydrated = further :=
  Except.ok.inj ((h ⟨none, []⟩).symm.trans (h' ⟨none, []⟩))

theorem hydrates_append_iff : Hydrates tree dir (patterns ++ more) hydrated ↔
    ∃ first last, Hydrates tree dir patterns first ∧ Hydrates tree dir more last ∧
      hydrated = first.union last := by
  constructor
  · intro h
    have heach := exists_hydrates_iff.mp ⟨hydrated, h⟩
    obtain ⟨hbefore, hafter⟩ := List.forall_mem_append.mp heach
    obtain ⟨first, hfirst⟩ := exists_hydrates_iff.mpr hbefore
    obtain ⟨last, hlast⟩ := exists_hydrates_iff.mpr hafter
    exact ⟨first, last, hfirst, hlast, h.unique (hfirst.append hlast)⟩
  · rintro ⟨first, last, hfirst, hlast, rfl⟩
    exact hfirst.append hlast

namespace Hydrates

variable (h : Hydrates tree dir patterns hydrated)

include h

theorem globs_eq : hydrated.globs = patterns.map (globOf tree dir) := by
  induction patterns generalizing hydrated with
  | nil =>
    rw [hydrates_nil_iff.mp h]
    rfl
  | cons pattern patterns ih =>
    obtain ⟨files, rest, -, hrest, rfl⟩ := hydrates_cons_iff.mp h
    rw [List.map_cons, ← ih hrest]
    rfl

theorem nodup_parts : (hydrated.files.map Path.parts).Nodup := by
  induction patterns generalizing hydrated with
  | nil =>
    rw [hydrates_nil_iff.mp h]
    exact List.nodup_nil
  | cons pattern patterns ih =>
    obtain ⟨files, rest, -, hrest, rfl⟩ := hydrates_cons_iff.mp h
    exact Hydrated.nodup_merge (Hydrated.nodup_foldl_addFile files) (ih hrest)

-- Each file that is listed is one that some pattern stands for.
theorem exists_pattern (hfile : file ∈ hydrated.files) :
    ∃ pattern ∈ patterns, ∃ files, filesOf? tree dir pattern = some files ∧ file ∈ files := by
  induction patterns generalizing hydrated with
  | nil =>
    rw [hydrates_nil_iff.mp h] at hfile
    cases hfile
  | cons pattern patterns ih =>
    obtain ⟨files, rest, hfiles, hrest, rfl⟩ := hydrates_cons_iff.mp h
    rcases Hydrated.mem_of_mem_merge hfile with hfirst | hlater
    · exact ⟨pattern, List.mem_cons_self, files, hfiles, Hydrated.mem_of_mem_foldl_addFile hfirst⟩
    · obtain ⟨other, hother, hrest⟩ := ih hrest hlater
      exact ⟨other, List.mem_cons_of_mem _ hother, hrest⟩

-- And up to their spelling these are all files that a pattern stands for.
theorem mem_parts_iff {parts : List Path.Part} : parts ∈ hydrated.files.map Path.parts ↔
    ∃ pattern ∈ patterns, ∃ files, filesOf? tree dir pattern = some files ∧
      parts ∈ files.map Path.parts := by
  induction patterns generalizing hydrated with
  | nil =>
    rw [hydrates_nil_iff.mp h]
    simp
  | cons pattern patterns ih =>
    obtain ⟨files, rest, hfiles, hrest, rfl⟩ := hydrates_cons_iff.mp h
    have hmerge : parts ∈ ((Hydrated.alone files (globOf tree dir pattern)).union rest).files.map
        Path.parts ↔ parts ∈ files.map Path.parts ∨ parts ∈ rest.files.map Path.parts :=
      Hydrated.mem_parts_merge.trans (or_congr_left Hydrated.mem_parts_foldl_addFile)
    rw [hmerge, ih hrest, List.exists_mem_cons_iff]
    refine or_congr_left ⟨fun hparts => ⟨files, hfiles, hparts⟩, ?_⟩
    rintro ⟨others, hothers, hparts⟩
    rw [hfiles] at hothers
    cases hothers
    exact hparts

-- Patterns in another order list the same files in another order.
theorem perm (hp : patterns.Perm more) : ∃ further, Hydrates tree dir more further ∧
    (hydrated.files.map Path.parts).Perm (further.files.map Path.parts) := by
  have heach := exists_hydrates_iff.mp ⟨hydrated, h⟩
  obtain ⟨further, hfurther⟩ := exists_hydrates_iff.mpr fun pattern hpattern =>
    heach pattern (hp.mem_iff.mpr hpattern)
  refine ⟨further, hfurther, ?_⟩
  rw [List.perm_ext_iff_of_nodup h.nodup_parts hfurther.nodup_parts]
  intro parts
  rw [h.mem_parts_iff, hfurther.mem_parts_iff]
  exact exists_congr fun pattern => and_congr_left' hp.mem_iff

end Hydrates

section Files

variable {home : Location}

theorem filesOf?_directory (hd : tree.isDirectory (Path.absolutize dir ⟨pattern⟩) = true) :
    filesOf? tree dir pattern = some (walk tree (Path.absolutize dir ⟨pattern⟩)) := if_pos hd

theorem nodup_walk (hw : tree.WellFormed) (hd : (tree.entries.map Prod.fst).Nodup)
    {names : List String} (hn : ∀ name ∈ names, IsStep name)
    (hfind : tree.find (ofNames names) = .ok (home, .directory)) :
    ((walk tree (ofNames names)).map Path.parts).Nodup := by
  rw [walk_ofNames hw hn hfind, List.map_map]
  refine List.Nodup.map_on (fun p hp q hq heq => ?_) ((Tree.nodup_below hd home).filter _)
  have hsteps : ∀ {more}, more ∈ tree.filesBelow home → ∀ name ∈ names ++ more, IsStep name :=
    fun hmore => List.forall_mem_append.mpr
      ⟨hn, Tree.isStep_of_mem_below hw (List.mem_of_mem_filter hmore)⟩
  exact List.append_cancel_left (Path.eq_of_parts_ofNames (hsteps hp) (hsteps hq) heq)

-- Whatever a pattern stands for, it is files that exist.
theorem isFile_of_mem_filesOf? (hw : tree.WellFormed) (ha : dir.isAbsolute = true)
    (h : filesOf? tree dir pattern = some files) (hfile : file ∈ files) :
    tree.isFile file = true := by
  obtain ⟨names, hn, hnames⟩ := Path.exists_absolutize ha ⟨pattern⟩
  simp only [filesOf?, hnames] at h
  split at h
  next hdirectory =>
    cases h
    obtain ⟨home, hfind⟩ := Tree.isDirectory_iff.mp hdirectory
    rw [walk_ofNames hw hn hfind] at hfile
    obtain ⟨more, hmore, rfl⟩ := List.mem_map.mp hfile
    exact Tree.isFile_entry hw hn hfind (Tree.mem_filesBelow.mp hmore).2
  next =>
    split at h
    next =>
      rw [expandGlob_toOption] at h
      obtain ⟨glob, -, rfl⟩ := Option.map_eq_some_iff.mp h
      exact List.of_mem_filter hfile
    next =>
      split at h
      next hexists =>
        cases h
        rw [List.mem_singleton.mp hfile]
        exact hexists
      next =>
        cases h
        cases hfile

-- Expanding patterns is a union in the order of the patterns: lists of patterns add up, no file is
-- listed twice, all files exist, a directory stands for the files below it, and the order of the
-- patterns does not tell which files there are.
theorem hydration_union (hw : tree.WellFormed) (hd : (tree.entries.map Prod.fst).Nodup)
    (ha : dir.isAbsolute = true) :
    (∀ patterns more hydrated further, Hydrates tree dir patterns hydrated →
      Hydrates tree dir more further → Hydrates tree dir (patterns ++ more)
        ⟨hydrated.files ++ further.files.filter fun file => !hydrated.files.any (·.sameAs file),
          hydrated.globs ++ further.globs⟩) ∧
    (∀ patterns hydrated, Hydrates tree dir patterns hydrated →
      hydrated.globs.length = patterns.length ∧ (hydrated.files.map Path.parts).Nodup ∧
        ∀ file ∈ hydrated.files, tree.isFile file = true) ∧
    (∀ pattern home, tree.find (Path.absolutize dir ⟨pattern⟩) = .ok (home, .directory) →
      ∃ below : List Location, Hydrates tree dir [pattern]
          ⟨below.map fun names => (Path.absolutize dir ⟨pattern⟩).join ⟨"/".intercalate names⟩,
            [withoutSlashes (Path.absolutize dir ⟨pattern⟩).text ++ "/**/*"]⟩ ∧
        (∀ names, names ∈ below ↔ names ≠ [] ∧ tree.isFileAt (home ++ names) = true) ∧
        below.Pairwise Tree.Precedes) ∧
    ∀ patterns more hydrated, patterns.Perm more → Hydrates tree dir patterns hydrated →
      ∃ further, Hydrates tree dir more further ∧
        (hydrated.files.map Path.parts).Perm (further.files.map Path.parts) := by
  refine ⟨?_, ?_, ?_, ?_⟩
  · intro patterns more hydrated further h h'
    exact h.append h'
  · intro patterns hydrated h
    refine ⟨by rw [h.globs_eq, List.length_map], h.nodup_parts, fun file hfile => ?_⟩
    obtain ⟨pattern, -, files, hfiles, hmem⟩ := h.exists_pattern hfile
    exact isFile_of_mem_filesOf? hw ha hfiles hmem
  · intro pattern home hfind
    obtain ⟨names, hn, hnames⟩ := Path.exists_absolutize ha ⟨pattern⟩
    have hdirectory := Tree.isDirectory_iff.mpr ⟨home, hfind⟩
    refine ⟨tree.filesBelow home, ?_, fun _ => Tree.mem_filesBelow,
      Tree.pairwise_filesBelow hd home⟩
    have halone := hydrates_singleton (filesOf?_directory hdirectory)
    rw [globOf, if_pos hdirectory] at halone
    have hnodup : ((walk tree (Path.absolutize dir ⟨pattern⟩)).map Path.parts).Nodup := by
      rw [hnames] at hfind ⊢
      exact nodup_walk hw hd hn hfind
    rw [Hydrated.alone, Hydrated.foldl_addFile_of_nodup hnodup, walk, hfind] at halone
    exact halone
  · intro patterns more hydrated hp h
    exact h.perm hp

-- A directory in another, with a link beside it.
def nested : Tree :=
  ⟨[(["w"], .directory), (["w", "src"], .directory), (["w", "src", "a.js"], .file .empty),
    (["w", "src", "lib"], .directory), (["w", "src", "lib", "b.js"], .file .empty),
    (["w", "src", "z.js"], .link "a.js")]⟩

theorem filesOf?_nested : filesOf? nested ⟨"/w"⟩ "src" =
    some [⟨"/w/src/a.js"⟩, ⟨"/w/src/lib/b.js"⟩] := by
  have hsorted : [["a.js"], ["lib"], ["lib", "b.js"], ["z.js"]].Pairwise
      fun p q => Tree.comesBefore p q = true := by decide
  have hbelow : nested.below ["w", "src"] = [["a.js"], ["lib"], ["lib", "b.js"], ["z.js"]] := by
    simpa [Tree.below, nested, Tree.isBelow, Tree.sortLocations] using
      List.mergeSort_of_pairwise hsorted
  have hfind : nested.find ⟨"/w/src"⟩ = .ok (["w", "src"], .directory) := rfl
  have habsolute : Path.absolutize ⟨"/w"⟩ ⟨"src"⟩ = ⟨"/w/src"⟩ := by decide
  rw [filesOf?_directory (by rw [habsolute]; rfl), habsolute, walk, hfind]
  dsimp only
  rw [Tree.filesBelow, hbelow]
  rfl

theorem filesOf?_inner : filesOf? nested ⟨"/w"⟩ "src/lib" = some [⟨"/w/src/lib/b.js"⟩] := by
  have hbelow : nested.below ["w", "src", "lib"] = [["b.js"]] := by
    simp [Tree.below, nested, Tree.isBelow, Tree.sortLocations]
  have hfind : nested.find ⟨"/w/src/lib"⟩ = .ok (["w", "src", "lib"], .directory) := rfl
  have habsolute : Path.absolutize ⟨"/w"⟩ ⟨"src/lib"⟩ = ⟨"/w/src/lib"⟩ := by decide
  rw [filesOf?_directory (by rw [habsolute]; rfl), habsolute, walk, hfind]
  dsimp only
  rw [Tree.filesBelow, hbelow]
  rfl

theorem nested_hydration :
    (nested.WellFormed ∧ (nested.entries.map Prod.fst).Nodup) ∧
      Hydrates nested ⟨"/w"⟩ (["src/lib"] ++ ["src"])
        ⟨[⟨"/w/src/lib/b.js"⟩, ⟨"/w/src/a.js"⟩], ["/w/src/lib/**/*", "/w/src/**/*"]⟩ := by
  have hw : nested.WellFormed := by decide
  have hd : (nested.entries.map Prod.fst).Nodup := by decide
  have ha : Path.isAbsolute ⟨"/w"⟩ = true := by decide
  have hunion := (hydration_union hw hd ha).1 _ _ _ _
    (hydrates_singleton filesOf?_inner) (hydrates_singleton filesOf?_nested)
  refine ⟨⟨hw, hd⟩, ?_⟩
  exact hunion

end Files

end Discovery

end DocPipeline
