import DocPipeline.Proofs.Config.Reload
import DocPipeline.Proofs.Discovery.Find
import DocPipeline.Proofs.Path.Names

namespace DocPipeline

-- A list of files, or a source that is not empty.
def HasSource (source : Option SourceSpec) (files : Option (List String)) : Prop :=
  files ≠ none ∨ ∃ spec, source = some spec ∧ spec ≠ .one "" ∧ spec ≠ .many []

theorem lacksSource_eq_false_iff {source : Option SourceSpec} {files : Option (List String)} :
    lacksSource source files = false ↔ HasSource source files := by
  have hempty : ∀ spec : SourceSpec, spec.isEmpty = false ↔ spec ≠ .one "" ∧ spec ≠ .many [] := by
    intro spec
    cases spec <;> simp [SourceSpec.isEmpty]
  cases files with
  | some files => simp [lacksSource, HasSource]
  | none =>
    cases source with
    | none => simp [lacksSource, HasSource]
    | some spec => simpa [lacksSource, HasSource] using hempty spec

-- Why a pattern is refused.
def Pattern.refusal (label text : String) : Failure :=
  .invalidConfig ("'" ++ label ++ "' pattern '" ++ text ++
    "' is not a valid regular expression: wrong syntax or too large")

-- Patterns, each read from the text at its place.
def Pattern.AllRead (texts : List String) (patterns : List Pattern) : Prop :=
  List.Forall₂ (fun text pattern => Pattern.parse? text = some pattern) texts patterns

theorem Pattern.AllRead.readable {texts : List String} {patterns : List Pattern}
    (h : Pattern.AllRead texts patterns) :
    ∀ text ∈ texts, ∃ pattern, Pattern.parse? text = some pattern := by
  induction h with
  | nil => exact nofun
  | cons hread _ ih => exact List.forall_mem_cons.mpr ⟨⟨_, hread⟩, ih⟩

-- All patterns are read, or the first that cannot be read is told.
theorem Pattern.compileAll_cases (texts : List String) (label : String) :
    (∃ patterns, Pattern.compileAll texts label = .ok patterns ∧
      Pattern.AllRead texts patterns) ∨
    ∃ text ∈ texts, Pattern.parse? text = none ∧
      Pattern.compileAll texts label = .error (Pattern.refusal label text) := by
  induction texts with
  | nil => exact .inl ⟨[], rfl, .nil⟩
  | cons text texts ih =>
    unfold Pattern.compileAll at ih ⊢
    rw [List.mapM_cons]
    cases hread : Pattern.parse? text with
    | none => exact .inr ⟨text, List.mem_cons_self, hread, rfl⟩
    | some pattern =>
      obtain ⟨patterns, hrest, hall⟩ | ⟨bad, hbad, hnone, hrest⟩ := ih
      · refine .inl ⟨pattern :: patterns, ?_, .cons hread hall⟩
        rw [hrest]
        rfl
      · refine .inr ⟨bad, List.mem_cons_of_mem _ hbad, hnone, ?_⟩
        rw [hrest]
        rfl

-- A filter whose patterns are read from some texts.
structure Filter.Reads (filter : Filter) (includes excludes : List String) : Prop where
  includes : Pattern.AllRead includes filter.includes
  excludes : Pattern.AllRead excludes filter.excludes

theorem Filter.Reads.readable {filter : Filter} {includes excludes : List String}
    (h : filter.Reads includes excludes) :
    ∀ text ∈ includes ++ excludes, ∃ pattern, Pattern.parse? text = some pattern :=
  List.forall_mem_append.mpr ⟨h.includes.readable, h.excludes.readable⟩

theorem Filter.compile_cases (includes excludes : List String) :
    (∃ filter : Filter, compile includes excludes = .ok filter ∧
      filter.Reads includes excludes) ∨
    ∃ label, ∃ text ∈ includes ++ excludes, Pattern.parse? text = none ∧
      compile includes excludes = .error (Pattern.refusal label text) := by
  unfold compile
  obtain ⟨kept, hincludes, hi⟩ | ⟨text, hmem, hnone, hincludes⟩ :=
    Pattern.compileAll_cases includes "includes"
  · obtain ⟨dropped, hexcludes, he⟩ | ⟨text, hmem, hnone, hexcludes⟩ :=
      Pattern.compileAll_cases excludes "excludes"
    · exact .inl ⟨⟨kept, dropped⟩, by rw [hincludes, hexcludes]; rfl, hi, he⟩
    · exact .inr ⟨_, text, List.mem_append_right _ hmem, hnone, by
        rw [hincludes, hexcludes]; rfl⟩
  · exact .inr ⟨_, text, List.mem_append_left _ hmem, hnone, by rw [hincludes]; rfl⟩

-- The absolute and normal path that a text stands for in a directory.
structure Path.Resolves (dir : Path) (text : String) (path : Path) : Prop where
  led : path = dir.resolution ⟨text⟩
  absolute : path.isAbsolute = true
  normal : path.normalize = path

theorem Path.resolves_absolutize {dir : Path} (hd : dir.isAbsolute = true) (text : String) :
    dir.Resolves text (dir.absolutize ⟨text⟩) :=
  ⟨absolutize_eq_resolution hd _, isAbsolute_absolutize hd _, normalize_absolutize hd _⟩

-- With a plan and run state, looking for files fails only where the hydrator does, and never for
-- want of a source. Tests are looked for in the run state that the main files leave.
structure Discovery.Supplied (plan : Plan) (state : RunState) : Prop where
  main : ∀ (ε : Type) (hydrator : Hydrator ε) (world : World ε) (failure : Failure),
    (exec (findMain hydrator plan state) world).1 = .error failure →
    OfHydrator hydrator plan.dir "source" failure ∧ ∀ label, failure ≠ missingSource label
  tests : ∀ (ε : Type) (hydrator : Hydrator ε) (world : World ε) (failure : Failure),
    (exec (findTests hydrator plan state) world).1 = .error failure →
    OfHydrator hydrator plan.dir "test.source" failure ∧ ∀ label, failure ≠ missingSource label
  testsAfter : ∀ (ε : Type) (hydrator : Hydrator ε) (world : World ε) main world',
    exec (findMain hydrator plan state) world = (.ok main, world') →
    ∀ failure, (exec (findTests hydrator plan main.1) world').1 = .error failure →
    OfHydrator hydrator plan.dir "test.source" failure ∧ ∀ label, failure ≠ missingSource label

namespace Settings

variable {s : Settings} {dir : Path}

-- All patterns that files are chosen with, those of the tests included.
def filterPatterns (s : Settings) : List String :=
  s.includes ++ s.excludes ++ (s.test.elim [] fun test => test.includes ++ test.excludes)

-- What is asked of settings whether they were just loaded or edited since.
structure Sensible (s : Settings) : Prop where
  runtime : ∃ spec, s.runtime = some spec ∧ isBlankName spec.name = false
  publisher : isBlankName s.publisher.name = false
  plugins : ∀ spec ∈ s.plugins, isBlankName spec.name = false
  testType : ∀ test, s.test = some test → test.type ≠ ""
  testSource : ∀ test, s.test = some test → HasSource test.source test.sourceFiles

-- What is asked of settings for a plan.
structure Valid (s : Settings) : Prop extends Sensible s where
  source : HasSource s.source s.sourceFiles
  patterns : ∀ text ∈ s.filterPatterns, ∃ pattern, Pattern.parse? text = some pattern

section Checks

-- A check that passes where a property holds, and refuses the configuration elsewhere.
def Checks (check : Except Failure Unit) (P : Prop) : Prop :=
  (P ∧ check = .ok ()) ∨ (¬P ∧ ∃ message, check = .error (.invalidConfig message))

variable {check : Except Failure Unit} {P Q : Prop}

theorem Checks.eq_ok_iff (h : Checks check P) : check = .ok () ↔ P := by
  obtain ⟨hp, hok⟩ | ⟨hp, message, herror⟩ := h
  · exact iff_of_true hok hp
  · refine iff_of_false (fun hok => ?_) hp
    rw [herror] at hok
    cases hok

theorem Checks.of_error (h : Checks check P) {failure : Failure} (he : check = .error failure) :
    ∃ message, failure = .invalidConfig message := by
  obtain ⟨_, hok⟩ | ⟨_, message, herror⟩ := h
  · rw [hok] at he
    cases he
  · rw [herror] at he
    cases he
    exact ⟨message, rfl⟩

theorem Checks.congr (h : Checks check P) (hpq : P ↔ Q) : Checks check Q := by
  unfold Checks at h ⊢
  rwa [← hpq]

theorem checks_invalid (message : String) (hp : ¬P) : Checks (invalid message) P :=
  .inr ⟨hp, message, rfl⟩

theorem checks_bind {next : Unit → Except Failure Unit} (h : Checks check P)
    (hnext : Checks (next ()) Q) : Checks (check >>= next) (P ∧ Q) := by
  obtain ⟨hp, rfl⟩ | ⟨hp, message, rfl⟩ := h
  · exact hnext.congr (and_iff_right hp).symm
  · exact .inr ⟨fun hpq => hp hpq.1, message, rfl⟩

theorem checks_forM {α : Type} {f : α → Except Failure Unit} {P : α → Prop}
    (h : ∀ a, Checks (f a) (P a)) (items : List α) :
    Checks (items.forM f) (∀ a ∈ items, P a) := by
  induction items with
  | nil => exact .inl ⟨nofun, rfl⟩
  | cons a items ih =>
    -- A list is checked as its first item, and then as the rest of it.
    exact (checks_bind (h a) ih).congr List.forall_mem_cons.symm

end Checks

section Validate

theorem checks_checkName (spec : CollaboratorSpec) (key : String) :
    Checks (checkName spec key) (isBlankName spec.name = false) := by
  unfold checkName
  split
  next hb => exact checks_invalid _ (by simp [hb])
  next hb => exact .inl ⟨by simpa using hb, rfl⟩

theorem checks_checkTest (test : TestSettings) :
    Checks (checkTest test) (test.type ≠ "" ∧ HasSource test.source test.sourceFiles) := by
  unfold checkTest
  split
  next htype => exact checks_invalid _ fun h => h.1 htype
  next htype =>
    split
    next hlacks =>
      refine checks_invalid _ fun h => ?_
      rw [lacksSource_eq_false_iff.mpr h.2] at hlacks
      cases hlacks
    next hlacks => exact .inl ⟨⟨htype, lacksSource_eq_false_iff.mp (by simpa using hlacks)⟩, rfl⟩

-- The checks of the test settings, if there are any.
def checkTests (s : Settings) : Except Failure Unit :=
  match s.test with
  | none => .ok ()
  | some test => checkTest test

theorem checks_checkTests (s : Settings) : Checks s.checkTests
    (∀ test, s.test = some test → test.type ≠ "" ∧ HasSource test.source test.sourceFiles) := by
  unfold checkTests
  cases s.test with
  | none => exact .inl ⟨nofun, rfl⟩
  | some test => simpa using checks_checkTest test

def checkRuntime (s : Settings) : Except Failure Unit :=
  match s.runtime with
  | none => invalid "'runtime' is required"
  | some spec => checkName spec "runtime"

theorem checks_checkRuntime (s : Settings) : Checks s.checkRuntime
    (∃ spec, s.runtime = some spec ∧ isBlankName spec.name = false) := by
  unfold checkRuntime
  cases s.runtime with
  | none => exact checks_invalid _ (by simp)
  | some spec => simpa using checks_checkName spec "runtime"

theorem validate_eq (s : Settings) :
    s.validate = (s.checkRuntime >>= fun _ => checkName s.publisher "publisher" >>= fun _ =>
      (s.plugins.forM fun spec => checkName spec "plugins") >>= fun _ => s.checkTests) := by
  unfold validate checkRuntime checkTests
  cases s.runtime <;> cases s.test <;> rfl

theorem checks_validate (s : Settings) : Checks s.validate s.Sensible := by
  rw [validate_eq]
  apply (checks_bind s.checks_checkRuntime (checks_bind (checks_checkName _ _)
    (checks_bind (checks_forM (fun spec => checks_checkName spec "plugins") _)
      s.checks_checkTests))).congr
  constructor
  · rintro ⟨hruntime, hpublisher, hplugins, htest⟩
    exact ⟨hruntime, hpublisher, hplugins, fun test h => (htest test h).1,
      fun test h => (htest test h).2⟩
  · rintro ⟨hruntime, hpublisher, hplugins, htype, hsource⟩
    exact ⟨hruntime, hpublisher, hplugins, fun test h => ⟨htype test h, hsource test h⟩⟩

end Validate

section Plan

-- What the settings of tests become.
structure TestFollows (test : TestSettings) (plan : TestPlan) : Prop where
  type : plan.type = test.type
  source : plan.source = test.source
  filter : plan.filter.Reads test.includes test.excludes

-- What becomes of settings in a working directory.
structure Follows (s : Settings) (dir : Path) (plan : Plan) (state : RunState) : Prop where
  place : plan.dir = dir
  source : plan.source = s.source
  destination : dir.Resolves s.destination plan.destination
  package : dir.Resolves s.package plan.package
  index : dir.Resolves s.index plan.index
  filter : plan.filter.Reads s.includes s.excludes
  test : Option.Rel TestFollows s.test plan.test
  sourceFiles : Option.Rel (List.Forall₂ dir.Resolves) s.sourceFiles state.sourceFiles
  testFiles : Option.Rel (List.Forall₂ dir.Resolves) (s.test.bind (·.sourceFiles)) state.testFiles

theorem planTest_cases (test : TestSettings) :
    (∃ plan, planTest test = .ok plan ∧ TestFollows test plan) ∨
    ∃ label, ∃ text ∈ test.includes ++ test.excludes, Pattern.parse? text = none ∧
      planTest test = .error (Pattern.refusal label text) := by
  unfold planTest
  obtain ⟨filter, hfilter, hreads⟩ | ⟨label, text, hmem, hnone, hfilter⟩ :=
    Filter.compile_cases test.includes test.excludes
  · exact .inl ⟨⟨test.type, test.source, filter⟩, by rw [hfilter]; rfl, rfl, rfl, hreads⟩
  · exact .inr ⟨label, text, hmem, hnone, by rw [hfilter]; rfl⟩

theorem mapM_planTest_cases (test : Option TestSettings) :
    (∃ plan, test.mapM planTest = .ok plan ∧ Option.Rel TestFollows test plan) ∨
    ∃ label, ∃ text ∈ test.elim [] (fun test => test.includes ++ test.excludes),
      Pattern.parse? text = none ∧ test.mapM planTest = .error (Pattern.refusal label text) := by
  cases test with
  | none => exact .inl ⟨none, rfl, .none⟩
  | some test =>
    obtain ⟨plan, hplan, hfollows⟩ | ⟨label, text, hmem, hnone, hplan⟩ := planTest_cases test
    · exact .inl ⟨some plan, by rw [Option.mapM_some, hplan]; rfl, .some hfollows⟩
    · exact .inr ⟨label, text, hmem, hnone, by rw [Option.mapM_some, hplan]; rfl⟩

theorem rel_absoluteFiles (hd : dir.isAbsolute = true) (files : Option (List String)) :
    Option.Rel (List.Forall₂ dir.Resolves) files (absoluteFiles dir files) := by
  cases files with
  | none => exact .none
  | some files =>
    refine .some ?_
    induction files with
    | nil => exact .nil
    | cons file files ih => exact .cons (Path.resolves_absolutize hd file) ih

-- The failure of settings that lack a source of main files.
def missing : Failure := .invalidConfig "'source' or 'sourceFiles' is not defined"

-- A plan is made, or what is wrong with the settings is told.
inductive Planning (s : Settings) (dir : Path) : Except Failure (Plan × RunState) → Prop
  | senseless {failure : Failure} (h : s.validate = .error failure) :
    Planning s dir (.error failure)
  | sourceless (h : ¬HasSource s.source s.sourceFiles) : Planning s dir (.error missing)
  | unreadable {label text : String} (hm : text ∈ s.filterPatterns) (h : Pattern.parse? text = none) :
    Planning s dir (.error (Pattern.refusal label text))
  | planned {plan : Plan} {state : RunState} (hv : s.validate = .ok ())
    (hs : HasSource s.source s.sourceFiles) (h : s.Follows dir plan state) :
    Planning s dir (.ok (plan, state))

theorem planning (hd : dir.isAbsolute = true) (s : Settings) : Planning s dir (s.plan dir) := by
  unfold Settings.plan
  cases hv : s.validate with
  | error failure => exact .senseless hv
  | ok _ =>
    cases hs : lacksSource s.source s.sourceFiles with
    | true =>
      refine .sourceless fun h => ?_
      rw [lacksSource_eq_false_iff.mpr h] at hs
      cases hs
    | false =>
      obtain ⟨filter, hfilter, hreads⟩ | ⟨label, text, hmem, hnone, hfilter⟩ :=
        Filter.compile_cases s.includes s.excludes
      · obtain ⟨test, htest, hfollows⟩ | ⟨label, text, hmem, hnone, htest⟩ :=
          mapM_planTest_cases s.test
        · obtain ⟨runtime, hruntime⟩ := Option.isSome_iff_exists.mp (runtime_of_validate hv)
          rw [hfilter, htest, hruntime]
          refine .planned hv (lacksSource_eq_false_iff.mp hs) ?_
          exact ⟨rfl, rfl, Path.resolves_absolutize hd _, Path.resolves_absolutize hd _,
            Path.resolves_absolutize hd _, hreads, hfollows, rel_absoluteFiles hd _, by
              cases s.test <;> first | exact .none | exact rel_absoluteFiles hd _⟩
        · rw [hfilter, htest]
          exact .unreadable (List.mem_append_right _ hmem) hnone
      · rw [hfilter]
        exact .unreadable (List.mem_append_left _ hmem) hnone

theorem TestFollows.readable {test : Option TestSettings} {plan : Option TestPlan}
    (h : Option.Rel TestFollows test plan) :
    ∀ text ∈ test.elim [] (fun test => test.includes ++ test.excludes),
      ∃ pattern, Pattern.parse? text = some pattern := by
  cases h with
  | none => exact nofun
  | some hfollows => exact hfollows.filter.readable

theorem Follows.readable {plan : Plan} {state : RunState} (h : s.Follows dir plan state) :
    ∀ text ∈ s.filterPatterns, ∃ pattern, Pattern.parse? text = some pattern :=
  List.forall_mem_append.mpr ⟨h.filter.readable, TestFollows.readable h.test⟩

theorem plan_ok_iff (hd : dir.isAbsolute = true) :
    (∃ result, s.plan dir = .ok result) ↔ s.Valid := by
  constructor
  · rintro ⟨result, hok⟩
    have hp := planning hd s
    rw [hok] at hp
    cases hp with
    | planned hv hs h => exact ⟨s.checks_validate.eq_ok_iff.mp hv, hs, h.readable⟩
  · intro h
    cases hplan : s.plan dir with
    | ok result => exact ⟨result, rfl⟩
    | error failure =>
      have hp := planning hd s
      rw [hplan] at hp
      exfalso
      cases hp with
      | senseless hv =>
        rw [s.checks_validate.eq_ok_iff.mpr h.toSensible] at hv
        cases hv
      | sourceless hs => exact hs h.source
      | unreadable hm hnone =>
        obtain ⟨pattern, hread⟩ := h.patterns _ hm
        rw [hnone] at hread
        cases hread

theorem invalidConfig_of_plan (hd : dir.isAbsolute = true) {failure : Failure}
    (h : s.plan dir = .error failure) : ∃ message, failure = .invalidConfig message := by
  have hp := planning hd s
  rw [h] at hp
  cases hp with
  | senseless hv => exact s.checks_validate.of_error hv
  | sourceless hs => exact ⟨_, rfl⟩
  | unreadable hm hnone => exact ⟨_, rfl⟩

end Plan

section Discovery

variable {plan : Plan} {state : RunState}

theorem ne_none_of_hasSource {source : Option SourceSpec} {files : Option (List String)}
    {paths : Option (List Path)} (h : HasSource source files)
    (hr : Option.Rel (List.Forall₂ dir.Resolves) files paths) : paths ≠ none ∨ source ≠ none := by
  obtain hfiles | ⟨spec, rfl, _⟩ := h
  · cases hr with
    | none => exact absurd rfl hfiles
    | some _ => exact .inl nofun
  · exact .inr nofun

theorem Follows.supplies_main (h : s.Follows dir plan state)
    (hs : HasSource s.source s.sourceFiles) : state.sourceFiles ≠ none ∨ plan.source ≠ none :=
  h.source ▸ ne_none_of_hasSource hs h.sourceFiles

theorem Follows.supplies_tests (h : s.Follows dir plan state) (hs : s.Sensible) :
    ∀ test, plan.test = some test → state.testFiles ≠ none ∨ test.source ≠ none := by
  intro test htest
  have hrel := h.test
  rw [htest] at hrel
  cases hset : s.test with
  | none =>
    rw [hset] at hrel
    cases hrel
  | some settings =>
    rw [hset] at hrel
    cases hrel with
    | some hfollows =>
      have hfiles := h.testFiles
      rw [hset, Option.bind_some] at hfiles
      rw [hfollows.source]
      exact ne_none_of_hasSource (hs.testSource settings hset) hfiles

theorem Follows.supplied (h : s.Follows dir plan state) (hv : s.Valid) :
    Discovery.Supplied plan state := by
  have hmain := h.supplies_main hv.source
  have htests := h.supplies_tests hv.toSensible
  refine ⟨fun ε hydrator world failure hf => ?_, fun ε hydrator world failure hf => ?_,
    fun ε hydrator world main world' hfound failure hf => ?_⟩
  · have hcause := Discovery.findMain_eq_error hmain hf
    exact ⟨hcause, hcause.ne_missingSource⟩
  · have hcause := Discovery.findTests_eq_error htests hf
    exact ⟨hcause, hcause.ne_missingSource⟩
  · have hsame : main.1.testFiles = state.testFiles := (Discovery.findMain_eq_ok hfound).2
    have hcause := Discovery.findTests_eq_error (hsame.symm ▸ htests) hf
    exact ⟨hcause, hcause.ne_missingSource⟩

end Discovery

-- A plan is made of valid settings and of no others, and what is refused is refused as an invalid
-- configuration. The plan holds the paths and patterns of the settings, and discovery is never
-- without a list of files or a source. Of settings as they were loaded, only the source of main
-- files can be missing and only a pattern can be wrong.
theorem plan_exactly_valid (hd : dir.isAbsolute = true) (s : Settings) :
    ((∃ result, s.plan dir = .ok result) ↔ s.Valid) ∧
    (∀ failure, s.plan dir = .error failure → ∃ message, failure = .invalidConfig message) ∧
    (∀ plan state, s.plan dir = .ok (plan, state) →
      s.Follows dir plan state ∧ Discovery.Supplied plan state) ∧
    ∀ tree raw log, (exec (load tree dir raw) log).1 = .ok s → ∀ failure,
      s.plan dir = .error failure →
      (¬HasSource s.source s.sourceFiles ∧ failure = missing) ∨
      ∃ label, ∃ text ∈ s.filterPatterns, Pattern.parse? text = none ∧
        failure = Pattern.refusal label text := by
  refine ⟨plan_ok_iff hd, fun _ => invalidConfig_of_plan hd, fun plan state hok => ?_,
    fun tree raw log hload failure herror => ?_⟩
  · have hp := planning hd s
    rw [hok] at hp
    cases hp with
    | planned hv hs h => exact ⟨h, h.supplied ((plan_ok_iff hd).mp ⟨_, hok⟩)⟩
  · obtain ⟨_, _, _, hvalid⟩ := load_eq_ok hload
    have hp := planning hd s
    rw [herror] at hp
    cases hp with
    | senseless hv =>
      rw [hvalid] at hv
      cases hv
    | sourceless hs => exact .inl ⟨hs, rfl⟩
    | unreadable hm hnone => exact .inr ⟨_, _, hm, hnone, rfl⟩

-- Two lists of files, one of them written with detours, and an index outside the directory.
def detoured : Settings :=
  { sourceFiles := some ["lib/./a.js", "/p/lib/../b.js"]
    includes := ["[.]js$"]
    test := some { type := "mocha", sourceFiles := some ["test//a.js"], includes := ["test", "x*"] }
    runtime := some (.bare "r")
    index := "../../README.md" }

theorem detoured_valid : detoured.Valid :=
  { runtime := ⟨_, rfl, by decide⟩
    publisher := by decide
    plugins := nofun
    testType := by
      rintro _ ⟨⟩
      decide
    testSource := by
      rintro _ ⟨⟩
      exact .inl nofun
    source := .inl nofun
    patterns := by
      have hall : detoured.filterPatterns.all fun text => (Pattern.parse? text).isSome := by
        decide +kernel
      exact fun text h => Option.isSome_iff_exists.mp (List.all_eq_true.mp hall text h) }

theorem detoured_planned : ∃ plan state, detoured.plan ⟨"/p"⟩ = .ok (plan, state) ∧
    plan.destination = ⟨"/p/docs"⟩ ∧ plan.index = ⟨"/README.md"⟩ ∧
    Discovery.Supplied plan state := by
  have hd : Path.isAbsolute ⟨"/p"⟩ = true := by decide
  obtain ⟨hiff, _, hplanned, _⟩ := plan_exactly_valid hd detoured
  obtain ⟨⟨plan, state⟩, hok⟩ := hiff.mpr detoured_valid
  obtain ⟨hfollows, hsupplied⟩ := hplanned plan state hok
  exact ⟨plan, state, hok, hfollows.destination.led.trans (by decide),
    hfollows.index.led.trans (by decide), hsupplied⟩

end Settings

end DocPipeline
