import DocPipeline.Proofs.Conduct
import DocPipeline.Proofs.Discovery.Find
import DocPipeline.Proofs.Glob.Twins
import DocPipeline.Proofs.Path.Relative

namespace DocPipeline

open DocPipeline.Path (ofNames IsStep Inner)
open DocPipeline.Tree (Project Same)
open DocPipeline.Glob (Twins Literal Stays)

variable {dir base : List String}

-- A name in a pattern that also stands for the directory it is looked up in, or the one above.
def Glob.IsSpecial (name : String) : Prop :=
  ∃ segment, tokens name.toList = .ok segment ∧ literal? segment = none ∧
    segment.head? = some (.char '.') ∧ ∃ special ∈ ["..", "."], isMatch segment special.toList = true

-- A relative pattern that leads to nothing but what is below the directory it is expanded in.
structure StaysBelow (pattern : String) (names : List String) : Prop where
  inner : Inner ⟨pattern⟩ names
  names : Discovery.hasWildcard pattern = true → ∀ name ∈ names, ¬ Glob.IsSpecial name

theorem StaysBelow.stays {pattern : String} {names : List String} (h : StaysBelow pattern names)
    (hw : Discovery.hasWildcard pattern = true) {segments : List (List Glob.Token)}
    (hparse : Glob.parseBelow? names = some segments) : ∀ segment ∈ segments, Stays segment := by
  intro segment hsegment
  obtain ⟨name, hname, htokens⟩ :=
    exists_of_mapM_eq_ok (Glob.parseBelow?_eq_some hparse) hsegment
  refine ⟨fun text hliteral => ?_, fun hliteral hdot special hspecial => ?_⟩
  · have htext : text = name := String.toList_inj.mp (Glob.literal?_tokens htokens hliteral)
    exact htext ▸ h.inner.isStep name hname
  · rw [Bool.eq_false_iff]
    exact fun hmatch => h.names hw name hname
      ⟨segment, htokens, hliteral, hdot, special, hspecial, hmatch⟩

namespace Discovery

-- The files that one pattern stands for, unless it cannot be read.
def filesOf? (tree : Tree) (dir : Path) (pattern : String) : Option (List Path) :=
  let absolute := Path.absolutize dir ⟨pattern⟩
  if tree.isDirectory absolute then some (walk tree absolute)
  else if hasWildcard pattern then (expandGlob tree pattern absolute).toOption
  else if tree.isFile absolute then some [absolute]
  else some []

-- The files that several patterns stand for, each listed once.
def filesOfAll? (tree : Tree) (dir : Path) (patterns : List String) : Option (List Path) :=
  patterns.foldlM (fun files pattern =>
    (filesOf? tree dir pattern).map (·.foldl Hydrated.addFile files)) []

-- The glob pattern that records one pattern.
def globOf (tree : Tree) (dir : Path) (pattern : String) : String :=
  let absolute := Path.absolutize dir ⟨pattern⟩
  if tree.isDirectory absolute then withoutSlashes absolute.text ++ "/**/*" else absolute.text

-- What is listed and recorded for several patterns after what was before.
def hydratedFrom? (tree : Tree) (dir : Path) (patterns : List String) (hydrated : Hydrated) :
    Option Hydrated :=
  patterns.foldlM (fun hydrated pattern =>
    (filesOf? tree dir pattern).map (hydrated.add · (globOf tree dir pattern))) hydrated

theorem exec_hydrateOne (tree : Tree) (dir : Path) (hydrated : Hydrated) (pattern : String)
    (log : Log) :
    (exec (hydrateOne tree dir hydrated pattern) log).1.toOption =
      (filesOf? tree dir pattern).map (hydrated.add · (globOf tree dir pattern)) := by
  simp only [hydrateOne, filesOf?, globOf]
  split
  · rfl
  · split
    · rw [exec_bind_fst]
      cases expandGlob tree pattern (Path.absolutize dir ⟨pattern⟩) <;> rfl
    · split <;> rfl

theorem exec_foldlM_hydrateOne (tree : Tree) (dir : Path) (patterns : List String)
    (hydrated : Hydrated) (log : Log) :
    (exec (patterns.foldlM (hydrateOne tree dir) hydrated) log).1.toOption =
      hydratedFrom? tree dir patterns hydrated := by
  induction patterns generalizing hydrated log with
  | nil => rfl
  | cons pattern patterns ih =>
    have hone := exec_hydrateOne tree dir hydrated pattern log
    rw [hydratedFrom?, List.foldlM_cons, List.foldlM_cons, ← hone, exec_bind]
    rcases exec (hydrateOne tree dir hydrated pattern) log with ⟨failure | next, log'⟩
    · rfl
    · exact ih next log'

theorem files_hydratedFrom? (tree : Tree) (dir : Path) (patterns : List String)
    (hydrated : Hydrated) :
    (hydratedFrom? tree dir patterns hydrated).map Hydrated.files =
      patterns.foldlM (fun files pattern =>
        (filesOf? tree dir pattern).map (·.foldl Hydrated.addFile files)) hydrated.files := by
  induction patterns generalizing hydrated with
  | nil => rfl
  | cons pattern patterns ih =>
    rw [hydratedFrom?, List.foldlM_cons, List.foldlM_cons]
    cases filesOf? tree dir pattern with
    | none => rfl
    | some files => exact ih _

theorem exec_hydrate (tree : Tree) (dir : Path) (patterns : List String) (log : Log) :
    (exec (hydrate tree dir patterns) log).1.toOption.map Hydrated.files =
      filesOfAll? tree dir patterns := by
  rw [hydrate, exec_foldlM_hydrateOne, files_hydratedFrom?]
  rfl

-- The files below a directory by their paths, wherever the directory was found.
theorem walk_ofNames {tree : Tree} {home : Location} (hw : tree.WellFormed)
    (hd : ∀ name ∈ dir, IsStep name)
    (hfind : tree.find (ofNames dir) = .ok (home, .directory)) :
    walk tree (ofNames dir) =
      (tree.filesBelow home).map fun names => ofNames (dir ++ names) := by
  rw [walk, hfind]
  refine List.map_congr_left fun names hnames => ?_
  have hbelow := List.mem_of_mem_filter hnames
  exact Path.join_ofNames hd (Tree.isStep_of_mem_below hw hbelow) (Tree.mem_below.mp hbelow).1

section Twins

variable {tree other : Tree} {home place : Location}

variable (hp : Project tree dir home) (hp' : Project other base place)
variable (hs : Same tree home other place)

include hp in
theorem walk_below {names : List String} (hn : ∀ name ∈ names, IsStep name)
    (hd : tree.get? (home ++ names) = some .directory) :
    walk tree (ofNames (dir ++ names)) =
      (tree.filesBelow (home ++ names)).map fun more => ofNames (dir ++ (names ++ more)) := by
  rw [walk_ofNames hp.wellFormed (List.forall_mem_append.mpr ⟨hp.steps, hn⟩)
    ((hp.find_iff hn _ _).mpr ⟨rfl, hd⟩)]
  exact List.map_congr_left fun more _ => by rw [List.append_assoc]

theorem expandGlob_toOption (tree : Tree) (pattern : String) (absolute : Path) :
    (expandGlob tree pattern absolute).toOption =
      (Glob.parse absolute).toOption.map fun glob => (glob.expand tree).filter tree.isFile := by
  rw [expandGlob]
  cases Glob.parse absolute <;> rfl

include hp hp' hs in
theorem twins_walk {names : List String} (hn : ∀ name ∈ names, IsStep name)
    (hd : tree.get? (home ++ names) = some .directory) :
    Twins dir base (walk tree (ofNames (dir ++ names))) (walk other (ofNames (base ++ names))) := by
  have hsame := (hs.below names).filesBelow_eq hp.distinct hp'.distinct
  have hd' : other.get? (place ++ names) = some .directory := (hs names).symm.trans hd
  refine ⟨(tree.filesBelow (home ++ names)).map (names ++ ·), ?_, ?_, ?_⟩
  · intro more hmore
    obtain ⟨further, hfurther, rfl⟩ := List.mem_map.mp hmore
    have hsome := (Tree.mem_below.mp (List.mem_of_mem_filter hfurther)).2
    rw [List.append_assoc] at hsome
    exact fun name hname => (hp.wellFormed.isName hsome (List.mem_append_right _ hname)).isStep
  · rw [walk_below hp hn hd, List.map_map]
    rfl
  · rw [walk_below hp' hn hd', ← hsame, List.map_map]
    rfl

include hp hp' hs in
theorem rel_expandGlob {pattern : String} {names : List String} (h : StaysBelow pattern names)
    (hw : hasWildcard pattern = true) (hne : names ≠ []) (hl : Literal dir) (hl' : Literal base) :
    Option.Rel (Twins dir base) (expandGlob tree pattern (ofNames (dir ++ names))).toOption
      (expandGlob other pattern (ofNames (base ++ names))).toOption := by
  have hn := h.inner.isStep
  rw [expandGlob_toOption, expandGlob_toOption, Glob.parse_toOption hl hp.steps hn hne,
    Glob.parse_toOption hl' hp'.steps hn hne]
  cases hparse : Glob.parseBelow? names with
  | none => exact .none
  | some segments =>
    have hsegments := Glob.ne_nil_of_parseBelow? hparse hne
    have htwins := Glob.twins_expand hp hp' hs (h.stays hw hparse) hsegments
    refine .some (htwins.filter fun more hmore => ?_)
    rw [hp.isFile_eq hmore, hp'.isFile_eq hmore, hs.isFileAt_eq]

include hp hp' hs in
-- One pattern stands for the same files below both directories.
theorem rel_filesOf? {pattern : String} {names : List String} (h : StaysBelow pattern names)
    (hl : hasWildcard pattern = true → Literal dir ∧ Literal base) :
    Option.Rel (Twins dir base) (filesOf? tree (ofNames dir) pattern)
      (filesOf? other (ofNames base) pattern) := by
  have hn := h.inner.isStep
  have hdirectory : tree.isDirectory (ofNames (dir ++ names)) =
      other.isDirectory (ofNames (base ++ names)) := by
    rw [hp.isDirectory_eq hn, hp'.isDirectory_eq hn, hs]
  have hfile : tree.isFile (ofNames (dir ++ names)) = other.isFile (ofNames (base ++ names)) := by
    rw [hp.isFile_eq hn, hp'.isFile_eq hn, hs.isFileAt_eq]
  simp only [filesOf?]
  rw [h.inner.absolutize hp.steps, h.inner.absolutize hp'.steps, ← hdirectory, ← hfile]
  split
  next hd =>
    rw [hp.isDirectory_eq hn, decide_eq_true_iff] at hd
    exact .some (twins_walk hp hp' hs hn hd)
  next hd =>
    split
    next hw =>
      -- The working directory itself is a directory.
      have hne : names ≠ [] := by
        rintro rfl
        rw [hp.isDirectory_eq hn, List.append_nil, hp.isDirectory_home] at hd
        exact hd (decide_eq_true rfl)
      exact rel_expandGlob hp hp' hs h hw hne (hl hw).1 (hl hw).2
    next =>
      split
      · exact .some (.single hn)
      · exact .some .nil

end Twins

section Listing

variable {files others more others' : List Path}

theorem any_sameAs (hd : ∀ name ∈ dir, IsStep name) {below : List (List String)}
    (hbelow : ∀ names ∈ below, ∀ name ∈ names, IsStep name) {names : List String}
    (hn : ∀ name ∈ names, IsStep name) :
    (below.map fun names => ofNames (dir ++ names)).any (·.sameAs (ofNames (dir ++ names))) =
      below.contains names := by
  have hsame : ∀ more, (∀ name ∈ more, IsStep name) →
      (ofNames (dir ++ more)).sameAs (ofNames (dir ++ names)) = (names == more) := by
    intro more hm
    rw [Path.sameAs_ofNames (List.forall_mem_append.mpr ⟨hd, hm⟩)
      (List.forall_mem_append.mpr ⟨hd, hn⟩), Bool.eq_iff_iff, beq_iff_eq, beq_iff_eq,
      List.append_cancel_left_eq]
    exact eq_comm
  induction below with
  | nil => rfl
  | cons more below ih =>
    obtain ⟨hmore, hbelow⟩ := List.forall_mem_cons.mp hbelow
    rw [List.map_cons, List.any_cons, hsame more hmore, ih hbelow, List.contains_cons]

theorem twins_addFile (hd : ∀ name ∈ dir, IsStep name) (hb : ∀ name ∈ base, IsStep name)
    (h : Twins dir base files others) {names : List String} (hn : ∀ name ∈ names, IsStep name) :
    Twins dir base (Hydrated.addFile files (ofNames (dir ++ names)))
      (Hydrated.addFile others (ofNames (base ++ names))) := by
  have hall : files.any (·.sameAs (ofNames (dir ++ names))) =
      others.any (·.sameAs (ofNames (base ++ names))) := by
    obtain ⟨below, hbelow, rfl, rfl⟩ := h
    rw [any_sameAs hd hbelow hn, any_sameAs hb hbelow hn]
  rw [Hydrated.addFile, Hydrated.addFile, hall]
  exact .ite Iff.rfl (fun _ => h) fun _ => h.append (.single hn)

theorem twins_foldl_addFile (hd : ∀ name ∈ dir, IsStep name) (hb : ∀ name ∈ base, IsStep name)
    (h : Twins dir base files others) (hm : Twins dir base more others') :
    Twins dir base (more.foldl Hydrated.addFile files) (others'.foldl Hydrated.addFile others) := by
  obtain ⟨below, hbelow, rfl, rfl⟩ := hm
  induction below generalizing files others with
  | nil => exact h
  | cons names below ih =>
    obtain ⟨hnames, hbelow⟩ := List.forall_mem_cons.mp hbelow
    exact ih (twins_addFile hd hb h hnames) hbelow

end Listing

section Find

variable {ε : Type}

theorem fileHydrator_result (dir : Path) (patterns : List String) (world : World ε) :
    ((fileHydrator dir patterns).run () world).result =
      (exec (hydrate world.tree dir patterns) ⟨some .trace, []⟩).1 := by
  obtain ⟨log, hrun⟩ := Conduct.run_ofAct (hydrate world.tree dir patterns) () world
  rw [fileHydrator, Conduct.run, hrun]

theorem hydrateSource_toOption (dir : Path) (source : Option SourceSpec) (label : String)
    (world : World ε) :
    (exec (hydrateSource fileHydrator dir source label) world).1.toOption.map Hydrated.files =
      source.bind fun spec => filesOfAll? world.tree dir spec.patterns := by
  cases source with
  | none => rfl
  | some spec =>
    have hfiles := exec_hydrate world.tree dir spec.patterns ⟨some .trace, []⟩
    rw [← fileHydrator_result dir spec.patterns world] at hfiles
    rw [Option.bind_some, ← hfiles, hydrateSource, exec_bind, exec_tryCatch, Conduct.perform,
      exec_mk]
    rcases (fileHydrator dir spec.patterns).run () world with ⟨failure | hydrated, _, _⟩ <;> rfl

-- The list that is set, or what the source stands for.
def listed? (tree : Tree) (dir : Path) (source : Option SourceSpec) :
    Option (List Path) → Option (List Path)
  | some files => some files
  | none => source.bind fun spec => filesOfAll? tree dir spec.patterns

-- The relative paths of the candidates, unless looking for them failed.
def relatives? (result : Except Failure (RunState × List Candidate)) : Option (List String) :=
  result.toOption.map fun found => found.2.map (·.relative)

theorem relatives?_findMain (plan : Plan) (state : RunState) (world : World ε) :
    relatives? (exec (findMain fileHydrator plan state) world).1 =
      (listed? world.tree plan.dir plan.source state.sourceFiles).map fun files =>
        (Candidate.select plan.dir files plan.filter).map (·.relative) := by
  rw [findMain, exec_bind, fillMain]
  cases hgiven : state.sourceFiles with
  | some files =>
    dsimp only
    rw [exec_pure]
    dsimp only
    rw [hgiven]
    rfl
  | none =>
    rw [listed?, ← hydrateSource_toOption plan.dir plan.source "source" world]
    rw [exec_bind]
    rcases exec (hydrateSource fileHydrator plan.dir plan.source "source") world with
      ⟨failure | hydrated, world'⟩ <;> rfl

theorem relatives?_findTests (plan : Plan) (state : RunState) (world : World ε) :
    relatives? (exec (findTests fileHydrator plan state) world).1 =
      match plan.test with
      | none => some []
      | some test => (listed? world.tree plan.dir test.source state.testFiles).map fun files =>
          (Candidate.select plan.dir files test.filter).map (·.relative) := by
  unfold findTests
  cases plan.test with
  | none => rfl
  | some test =>
    dsimp only
    rw [exec_bind, fillTests]
    cases hgiven : state.testFiles with
    | some files =>
      dsimp only
      rw [exec_pure]
      dsimp only
      rw [hgiven]
      rfl
    | none =>
      dsimp only
      rw [listed?, ← hydrateSource_toOption plan.dir test.source "test.source" world, exec_bind]
      rcases exec (hydrateSource fileHydrator plan.dir test.source "test.source") world with
        ⟨failure | hydrated, world'⟩ <;> rfl

end Find

section Portable

variable {tree other : Tree} {home place : Location} {files others : List Path}

theorem relatives_select (hd : ∀ name ∈ dir, IsStep name) (hb : ∀ name ∈ base, IsStep name)
    (h : Twins dir base files others) (filter : Filter) :
    (Candidate.select (ofNames dir) files filter).map (·.relative) =
      (Candidate.select (ofNames base) others filter).map (·.relative) := by
  obtain ⟨below, hbelow, rfl, rfl⟩ := h
  have hselect : ∀ dir : List String, (∀ name ∈ dir, IsStep name) →
      (Candidate.select (ofNames dir) (below.map fun names => ofNames (dir ++ names)) filter).map
        (·.relative) = (below.map fun names => "/".intercalate names).filter filter.accepts := by
    intro dir hd
    have hof : (below.map fun names => ofNames (dir ++ names)).map (Candidate.ofFile (ofNames dir)) =
        below.map fun names => ⟨ofNames (dir ++ names), "/".intercalate names⟩ := by
      rw [List.map_map]
      refine List.map_congr_left fun names hnames => ?_
      have hn := hbelow names hnames
      rw [Function.comp_apply, Candidate.ofFile,
        Path.absolutize_ofNames (List.forall_mem_append.mpr ⟨hd, hn⟩),
        Path.relativeTo_ofNames hd hn]
    rw [Candidate.select, hof, List.filter_map, List.filter_map, List.map_map]
    rfl
  rw [hselect dir hd, hselect base hb]

variable (hp : Project tree dir home) (hp' : Project other base place)
variable (hs : Same tree home other place)

include hp hp' hs in
theorem rel_filesOfAll? {patterns : List String}
    (hbelow : ∀ pattern ∈ patterns, ∃ names, StaysBelow pattern names)
    (hl : ∀ pattern ∈ patterns, hasWildcard pattern = true → Literal dir ∧ Literal base) :
    Option.Rel (Twins dir base) (filesOfAll? tree (ofNames dir) patterns)
      (filesOfAll? other (ofNames base) patterns) := by
  have hall : ∀ files others, Twins dir base files others →
      Option.Rel (Twins dir base)
        (patterns.foldlM (fun files pattern =>
          (filesOf? tree (ofNames dir) pattern).map (·.foldl Hydrated.addFile files)) files)
        (patterns.foldlM (fun files pattern =>
          (filesOf? other (ofNames base) pattern).map (·.foldl Hydrated.addFile files)) others) := by
    induction patterns with
    | nil => exact fun _ _ h => .some h
    | cons pattern patterns ih =>
      obtain ⟨⟨names, hpattern⟩, hbelow⟩ := List.forall_mem_cons.mp hbelow
      obtain ⟨hfirst, hl⟩ := List.forall_mem_cons.mp hl
      intro files others h
      have hone := rel_filesOf? hp hp' hs hpattern hfirst
      rw [List.foldlM_cons, List.foldlM_cons]
      generalize filesOf? tree (ofNames dir) pattern = found,
        filesOf? other (ofNames base) pattern = found' at hone
      cases hone with
      | none => exact .none
      | some hmore => exact ih hbelow hl _ _ (twins_foldl_addFile hp.steps hp'.steps h hmore)
  exact hall [] [] .nil

theorem twins_absoluteFiles (hd : ∀ name ∈ dir, IsStep name) (hb : ∀ name ∈ base, IsStep name)
    {list : List String} (h : ∀ file ∈ list, ∃ names, Inner ⟨file⟩ names) :
    Twins dir base (list.map fun file => Path.absolutize (ofNames dir) ⟨file⟩)
      (list.map fun file => Path.absolutize (ofNames base) ⟨file⟩) := by
  induction list with
  | nil => exact .nil
  | cons file list ih =>
    obtain ⟨⟨names, hfile⟩, hlist⟩ := List.forall_mem_cons.mp h
    rw [List.map_cons, List.map_cons, hfile.absolutize hd, hfile.absolutize hb]
    exact (Twins.single hfile.isStep).append (ih hlist)

end Portable

end Discovery

section WorkingDirectory

-- A working directory: its path is absolute and normal, and there is nothing in it but directories
-- and files.
structure Tree.IsWorkingDirectory (tree : Tree) (dir : Path) (home : Location) : Prop where
  wellFormed : tree.WellFormed
  distinct : (tree.entries.map Prod.fst).Nodup
  absolute : dir.isAbsolute = true
  normal : dir.normalize = dir
  found : tree.find dir = .ok (home, .directory)
  noLinks : ∀ names target, tree.get? (home ++ names) ≠ some (.link target)

theorem Tree.IsWorkingDirectory.exists_project {tree : Tree} {dir : Path} {home : Location}
    (h : tree.IsWorkingDirectory dir home) : ∃ names, dir = ofNames names ∧ Project tree names home := by
  obtain ⟨names, hsteps, rfl⟩ := Path.exists_ofNames h.absolute h.normal
  exact ⟨names, rfl, h.wellFormed, h.distinct, hsteps, h.found, h.noLinks⟩

-- No character of the path has a meaning of its own in a pattern.
def Path.IsPlain (path : Path) : Prop := ∀ c ∈ path.text.toList, Glob.IsPlain c

instance (path : Path) : Decidable path.IsPlain :=
  List.decidableBAll Glob.IsPlain path.text.toList

theorem Path.IsPlain.literal {names : List String} (h : (ofNames names).IsPlain) : Literal names := by
  intro name hname c hc
  by_cases hslash : c = '/'
  · rw [hslash]
    decide
  · exact h c ((Path.mem_text_ofNames hslash names).mpr ⟨name, hname, hc⟩)

namespace Settings

variable {s : Settings} {plan : Plan} {state : RunState}

-- The patterns that files are looked for with.
def patterns (s : Settings) : List String :=
  (s.source.map SourceSpec.patterns).getD [] ++
    ((s.test.bind (·.source)).map SourceSpec.patterns).getD []

-- The files that are listed.
def files (s : Settings) : List String :=
  s.sourceFiles.getD [] ++ (s.test.bind (·.sourceFiles)).getD []

-- All patterns and files are relative, and below the working directory.
structure IsBelow (s : Settings) : Prop where
  patterns : ∀ pattern ∈ s.patterns, ∃ names, StaysBelow pattern names
  files : ∀ file ∈ s.files, ∃ names, Inner ⟨file⟩ names

structure Planned (s : Settings) (dir : Path) (plan : Plan) (state : RunState) : Prop where
  dir_eq : plan.dir = dir
  source_eq : plan.source = s.source
  filter_eq : Filter.compile s.includes s.excludes = .ok plan.filter
  test_eq : s.test.mapM planTest = .ok plan.test
  sourceFiles_eq : state.sourceFiles = absoluteFiles dir s.sourceFiles
  testFiles_eq : state.testFiles = s.test.bind fun test => absoluteFiles dir test.sourceFiles

theorem planned {dir : Path} (h : s.plan dir = .ok (plan, state)) : s.Planned dir plan state := by
  obtain ⟨_, -, h⟩ := except_bind_eq_ok h
  dsimp only at h
  split at h
  · cases h
  · obtain ⟨filter, hfilter, h⟩ := except_bind_eq_ok h
    obtain ⟨test, htest, h⟩ := except_bind_eq_ok h
    cases hruntime : s.runtime <;> rw [hruntime] at h <;> cases h
    exact ⟨rfl, rfl, hfilter, htest, rfl, rfl⟩

-- The plan in another working directory differs in its paths only.
theorem plan_elsewhere {dir : Path} (h : s.plan dir = .ok (plan, state)) (base : Path) :
    s.plan base = .ok
      ({ plan with
          dir := base
          destination := base.absolutize ⟨s.destination⟩
          package := base.absolutize ⟨s.package⟩
          index := base.absolutize ⟨s.index⟩ },
        { state with
          sourceFiles := absoluteFiles base s.sourceFiles
          testFiles := s.test.bind fun test => absoluteFiles base test.sourceFiles }) := by
  obtain ⟨_, hvalid, h⟩ := except_bind_eq_ok h
  dsimp only at h
  split at h
  next => cases h
  next hsource =>
    obtain ⟨filter, hfilter, h⟩ := except_bind_eq_ok h
    obtain ⟨test, htest, h⟩ := except_bind_eq_ok h
    cases hruntime : s.runtime <;> rw [hruntime] at h <;> cases h
    simp only [Settings.plan, hvalid, hsource, hfilter, htest, hruntime]
    rfl

theorem exists_of_mapM_planTest {given : Option TestSettings} {test : TestPlan}
    (h : given.mapM planTest = .ok (some test)) :
    ∃ settings, given = some settings ∧ test.source = settings.source := by
  cases given with
  | none => cases h
  | some settings =>
    obtain ⟨found, hfound, h⟩ := except_bind_eq_ok h
    cases h
    obtain ⟨filter, -, hfound⟩ := except_bind_eq_ok hfound
    cases hfound
    exact ⟨settings, rfl, rfl⟩

end Settings

namespace Discovery

variable {s : Settings} {plan : Plan} {state : RunState} {ε : Type}

theorem rel_listed? {tree other : Tree} {home place : Location} (hp : Project tree dir home)
    (hp' : Project other base place) (hs : Same tree home other place) {source : Option SourceSpec}
    {files : Option (List String)}
    (hsource : ∀ pattern ∈ (source.map SourceSpec.patterns).getD [],
      ∃ names, StaysBelow pattern names)
    (hl : ∀ pattern ∈ (source.map SourceSpec.patterns).getD [],
      hasWildcard pattern = true → Literal dir ∧ Literal base)
    (hfiles : ∀ file ∈ files.getD [], ∃ names, Inner ⟨file⟩ names) :
    Option.Rel (Twins dir base)
      (listed? tree (ofNames dir) source (Settings.absoluteFiles (ofNames dir) files))
      (listed? other (ofNames base) source (Settings.absoluteFiles (ofNames base) files)) := by
  cases files with
  | some list => exact .some (twins_absoluteFiles hp.steps hp'.steps hfiles)
  | none =>
    cases source with
    | none => exact .none
    | some spec => exact rel_filesOfAll? hp hp' hs hsource hl

theorem map_relatives_select (hd : ∀ name ∈ dir, IsStep name) (hb : ∀ name ∈ base, IsStep name)
    {files others : Option (List Path)} (h : Option.Rel (Twins dir base) files others)
    (filter : Filter) :
    (files.map fun files => (Candidate.select (ofNames dir) files filter).map (·.relative)) =
      others.map fun others => (Candidate.select (ofNames base) others filter).map (·.relative) := by
  cases h with
  | none => rfl
  | some h => exact congrArg some (relatives_select hd hb h filter)

-- What is found for a configuration does not depend on where the working directory is, as long as
-- no pattern with wildcards is expanded in one whose path has characters with a meaning in patterns.
theorem found_portable {tree other : Tree} {dir base : Path} {home place : Location}
    (hp : tree.IsWorkingDirectory dir home) (hp' : other.IsWorkingDirectory base place)
    (hs : Same tree home other place) (hb : s.IsBelow)
    (hplain : (∃ pattern ∈ s.patterns, hasWildcard pattern = true) → dir.IsPlain ∧ base.IsPlain)
    (hplan : s.plan dir = .ok (plan, state)) :
    ∃ plan' state', s.plan base = .ok (plan', state') ∧
      ∀ world world' : World ε, world.tree = tree → world'.tree = other →
        relatives? (exec (findMain fileHydrator plan state) world).1 =
          relatives? (exec (findMain fileHydrator plan' state') world').1 ∧
        ∀ filled filled' : RunState,
          filled.testFiles = state.testFiles → filled'.testFiles = state'.testFiles →
          relatives? (exec (findTests fileHydrator plan filled) world).1 =
            relatives? (exec (findTests fileHydrator plan' filled') world').1 := by
  obtain ⟨plan', state', hplan'⟩ : ∃ plan' state', s.plan base = .ok (plan', state') :=
    ⟨_, _, Settings.plan_elsewhere hplan base⟩
  refine ⟨plan', state', hplan', fun world world' hw hw' => ?_⟩
  have hplanned := Settings.planned hplan
  have hplanned' := Settings.planned hplan'
  obtain ⟨front, rfl, hproject⟩ := hp.exists_project
  obtain ⟨front', rfl, hproject'⟩ := hp'.exists_project
  have hfilter : plan'.filter = plan.filter :=
    Except.ok.inj (hplanned'.filter_eq.symm.trans hplanned.filter_eq)
  have htest : plan'.test = plan.test :=
    Except.ok.inj (hplanned'.test_eq.symm.trans hplanned.test_eq)
  obtain ⟨hmain, htests⟩ := List.forall_mem_append.mp hb.patterns
  obtain ⟨hmainFiles, htestFiles⟩ := List.forall_mem_append.mp hb.files
  have hliteral : ∀ pattern ∈ s.patterns, hasWildcard pattern = true →
      Literal front ∧ Literal front' := by
    intro pattern hpattern hw
    obtain ⟨hd, hb⟩ := hplain ⟨pattern, hpattern, hw⟩
    exact ⟨hd.literal, hb.literal⟩
  obtain ⟨hmainLiteral, htestLiteral⟩ := List.forall_mem_append.mp hliteral
  refine ⟨?_, fun filled filled' hfilled hfilled' => ?_⟩
  · rw [relatives?_findMain, relatives?_findMain, hw, hw', hplanned.dir_eq, hplanned'.dir_eq,
      hplanned.source_eq, hplanned'.source_eq, hplanned.sourceFiles_eq, hplanned'.sourceFiles_eq,
      hfilter]
    exact map_relatives_select hproject.steps hproject'.steps
      (rel_listed? hproject hproject' hs hmain hmainLiteral hmainFiles) plan.filter
  · rw [relatives?_findTests, relatives?_findTests, hw, hw', hplanned.dir_eq, hplanned'.dir_eq,
      hfilled, hfilled', hplanned.testFiles_eq, hplanned'.testFiles_eq, htest]
    have htestEq := hplanned.test_eq
    cases hplanTest : plan.test with
    | none => rfl
    | some test =>
      rw [hplanTest] at htestEq
      obtain ⟨given, hgiven, hsource⟩ := Settings.exists_of_mapM_planTest htestEq
      rw [hgiven] at htests htestLiteral htestFiles ⊢
      dsimp only [Option.bind_some]
      rw [hsource]
      exact map_relatives_select hproject.steps hproject'.steps
        (rel_listed? hproject hproject' hs htests htestLiteral htestFiles) test.filter

-- A project of one file, in a directory of that name.
def projectIn (name : String) : Tree := ⟨[([name], .directory), ([name, "a.js"], .file .empty)]⟩

def allScripts : Settings :=
  { source := some (.one "*.js"), includes := [""], runtime := some (.bare "r") }

theorem same_projectIn (name other : String) :
    Same (projectIn name) [name] (projectIn other) [other] := by
  intro names
  cases names with
  | nil => simp [Tree.get?, projectIn]
  | cons first rest => cases rest <;> simp [Tree.get?, projectIn]

theorem noLinks_projectIn (name : String) (location : Location) (target : String) :
    (projectIn name).get? location ≠ some (.link target) := by
  intro h
  by_cases hne : location = []
  · rw [hne] at h
    cases h
  · have hmem := Tree.mem_of_get? h hne
    simp [projectIn] at hmem

theorem isWorkingDirectory_plain : (projectIn "p1").IsWorkingDirectory ⟨"/p1"⟩ ["p1"] :=
  ⟨by decide, by decide, by decide, by decide, rfl, fun _ => noLinks_projectIn "p1" _⟩

theorem isWorkingDirectory_brackets :
    (projectIn "p[1]").IsWorkingDirectory ⟨"/p[1]"⟩ ["p[1]"] :=
  ⟨by decide, by decide, by decide, by decide, rfl, fun _ => noLinks_projectIn "p[1]" _⟩

theorem isBelow_allScripts : allScripts.IsBelow := by
  refine ⟨fun pattern hpattern => ?_, nofun⟩
  obtain rfl : pattern = "*.js" := List.mem_singleton.mp hpattern
  refine ⟨["*.js"], ⟨by decide, by decide⟩, fun _ => ?_⟩
  rintro name hname ⟨segment, htokens, -, hdot, -⟩
  obtain rfl := List.mem_singleton.mp hname
  cases htokens
  cases hdot

theorem found_elsewhere : allScripts.IsBelow ∧
    ∃ plan state plan' state', allScripts.plan ⟨"/p1"⟩ = .ok (plan, state) ∧
      allScripts.plan ⟨"/p2"⟩ = .ok (plan', state') ∧
      ∀ world world' : World Unit, world.tree = projectIn "p1" → world'.tree = projectIn "p2" →
        relatives? (exec (findMain fileHydrator plan state) world).1 =
          relatives? (exec (findMain fileHydrator plan' state') world').1 := by
  have hp' : (projectIn "p2").IsWorkingDirectory ⟨"/p2"⟩ ["p2"] :=
    ⟨by decide, by decide, by decide, by decide, rfl, fun _ => noLinks_projectIn "p2" _⟩
  obtain ⟨plan, state, hplan⟩ : ∃ plan state, allScripts.plan ⟨"/p1"⟩ = .ok (plan, state) :=
    ⟨_, _, rfl⟩
  obtain ⟨plan', state', hplan', hfound⟩ := found_portable isWorkingDirectory_plain hp'
    (same_projectIn "p1" "p2") isBelow_allScripts (fun _ => by decide) hplan
  exact ⟨isBelow_allScripts, plan, state, plan', state', hplan, hplan',
    fun world world' hw hw' => (hfound world world' hw hw').1⟩

section Brackets

open Glob

theorem matchesBelow_child {tree : Tree} {dir : Path} {name : String} {segment : List Token}
    (rest : List (List Token)) (fuel : Nat) (hliteral : literal? segment = none)
    (hany : isAnyDepth segment = false) (hdot : segment.head? ≠ some (.char '.'))
    (hdir : tree.isDirectory dir = true) (hchild : childNames tree dir = [name]) :
    matchesBelow tree (fuel + 3) dir (segment :: rest) =
      if isNameMatch segment (dir.join ⟨name⟩) then
        if rest.isEmpty then [dir.join ⟨name⟩] else matchesBelow tree fuel (dir.join ⟨name⟩) rest
      else [] := by
  simp [matchesBelow, matchesAt, matchesName, hliteral, hany, hdot, hdir, hchild]

theorem below_projectIn (name : String) :
    (projectIn name).below [] = [[name], [name, "a.js"]] := by
  have hsorted : [[name], [name, "a.js"]].Pairwise fun p q => Tree.comesBefore p q = true := by
    simp [Tree.comesBefore]
  simpa [Tree.below, projectIn, Tree.isBelow, Tree.sortLocations] using
    List.mergeSort_of_pairwise hsorted

-- Read as a pattern, the directory's own name stands for another.
theorem expand_brackets :
    Glob.expand (projectIn "p[1]") ⟨[[.char 'p', .within [('1', '1')]],
      [.anyChars, .char '.', .char 'j', .char 's']]⟩ = [] := by
  have hchild : childNames (projectIn "p[1]") ⟨"/"⟩ = ["p[1]"] := by
    have hfind : (projectIn "p[1]").find ⟨"/"⟩ = .ok ([], .directory) := rfl
    rw [childNames, hfind]
    dsimp only
    rw [Tree.names, below_projectIn]
    rfl
  have hname : isNameMatch [.char 'p', .within [('1', '1')]] (Path.join ⟨"/"⟩ ⟨"p[1]"⟩) = false := by
    have hlast : lastName (Path.join ⟨"/"⟩ ⟨"p[1]"⟩) = "p[1]" := by decide
    rw [isNameMatch, hlast]
    simp [isMatch, Token.isChar, inRanges]
  obtain ⟨fuel, hfuel⟩ : ∃ fuel, depthBound (projectIn "p[1]") + 3 * 2 = fuel + 3 := ⟨675, rfl⟩
  rw [Glob.expand, List.length_cons, List.length_singleton, hfuel,
    matchesBelow_child _ fuel rfl rfl (by decide) rfl hchild, hname]
  rfl

theorem expand_plain :
    Glob.expand (projectIn "p1") ⟨[[.char 'p', .char '1'],
      [.anyChars, .char '.', .char 'j', .char 's']]⟩ = [⟨"/p1/a.js"⟩] := by
  have hliteral : literal? [.char 'p', .char '1'] = some "p1" := rfl
  have hexists : exists? (projectIn "p1") (Path.join ⟨"/"⟩ ⟨"p1"⟩) = true := rfl
  have hchild : childNames (projectIn "p1") (Path.join ⟨"/"⟩ ⟨"p1"⟩) = ["a.js"] := by
    have hfind : (projectIn "p1").find (Path.join ⟨"/"⟩ ⟨"p1"⟩) = .ok (["p1"], .directory) := rfl
    rw [childNames, hfind]
    simp [Tree.names, Tree.below, projectIn, Tree.isBelow, Tree.sortLocations]
  have hname : isNameMatch [.anyChars, .char '.', .char 'j', .char 's']
      ((Path.join ⟨"/"⟩ ⟨"p1"⟩).join ⟨"a.js"⟩) = true := by
    have hlast : lastName ((Path.join ⟨"/"⟩ ⟨"p1"⟩).join ⟨"a.js"⟩) = "a.js" := by decide
    rw [isNameMatch, hlast]
    simp [isMatch, Token.isChar]
  obtain ⟨fuel, hfuel⟩ : ∃ fuel, depthBound (projectIn "p1") + 3 * 2 = fuel + 3 + 1 := ⟨674, rfl⟩
  rw [Glob.expand, List.length_cons, List.length_singleton, hfuel, matchesBelow]
  dsimp only
  rw [hliteral]
  dsimp only
  rw [if_pos hexists, List.isEmpty_cons,
    if_neg Bool.false_ne_true, matchesBelow_child _ fuel rfl rfl (by decide) rfl hchild, hname]
  rfl

theorem filesOf?_plain :
    filesOf? (projectIn "p1") ⟨"/p1"⟩ "*.js" = some [⟨"/p1/a.js"⟩] := by
  have habsolute : Path.absolutize ⟨"/p1"⟩ ⟨"*.js"⟩ = ⟨"/p1/*.js"⟩ := by decide
  have hdir : (projectIn "p1").isDirectory ⟨"/p1/*.js"⟩ = false := rfl
  have hwild : hasWildcard "*.js" = true := rfl
  have hparse : Glob.parse ⟨"/p1/*.js"⟩ = .ok ⟨[[.char 'p', .char '1'],
      [.anyChars, .char '.', .char 'j', .char 's']]⟩ := rfl
  have hfile : (projectIn "p1").isFile ⟨"/p1/a.js"⟩ = true := rfl
  simp [filesOf?, habsolute, hdir, hwild, expandGlob, hparse, Except.toOption, expand_plain, hfile]

theorem filesOf?_brackets : filesOf? (projectIn "p[1]") ⟨"/p[1]"⟩ "*.js" = some [] := by
  have habsolute : Path.absolutize ⟨"/p[1]"⟩ ⟨"*.js"⟩ = ⟨"/p[1]/*.js"⟩ := by decide
  have hdir : (projectIn "p[1]").isDirectory ⟨"/p[1]/*.js"⟩ = false := rfl
  have hwild : hasWildcard "*.js" = true := rfl
  have hparse : Glob.parse ⟨"/p[1]/*.js"⟩ = .ok ⟨[[.char 'p', .within [('1', '1')]],
      [.anyChars, .char '.', .char 'j', .char 's']]⟩ := rfl
  simp [filesOf?, habsolute, hdir, hwild, expandGlob, hparse, Except.toOption, expand_brackets]

end Brackets

-- With brackets in the path of the working directory, a pattern with wildcards finds nothing in it.
theorem nothing_in_brackets :
    (projectIn "p1").IsWorkingDirectory ⟨"/p1"⟩ ["p1"] ∧
      (projectIn "p[1]").IsWorkingDirectory ⟨"/p[1]"⟩ ["p[1]"] ∧
      Same (projectIn "p1") ["p1"] (projectIn "p[1]") ["p[1]"] ∧ allScripts.IsBelow ∧
      ∃ plan state plan' state', allScripts.plan ⟨"/p1"⟩ = .ok (plan, state) ∧
        allScripts.plan ⟨"/p[1]"⟩ = .ok (plan', state') ∧
        ∀ world world' : World Unit, world.tree = projectIn "p1" →
          world'.tree = projectIn "p[1]" →
          relatives? (exec (findMain fileHydrator plan state) world).1 = some ["a.js"] ∧
            relatives? (exec (findMain fileHydrator plan' state') world').1 = some [] := by
  refine ⟨isWorkingDirectory_plain, isWorkingDirectory_brackets, same_projectIn _ _,
    isBelow_allScripts, _, _, _, _, rfl, rfl, fun world world' hw hw' => ⟨?_, ?_⟩⟩
  · rw [relatives?_findMain, hw]
    change Option.map _ (filesOfAll? (projectIn "p1") ⟨"/p1"⟩ ["*.js"]) = _
    rw [filesOfAll?, List.foldlM_cons, filesOf?_plain]
    decide +kernel
  · rw [relatives?_findMain, hw']
    change Option.map _ (filesOfAll? (projectIn "p[1]") ⟨"/p[1]"⟩ ["*.js"]) = _
    rw [filesOfAll?, List.foldlM_cons, filesOf?_brackets]
    rfl

end Discovery

end WorkingDirectory

end DocPipeline
