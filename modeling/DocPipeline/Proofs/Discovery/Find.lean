import DocPipeline.Coordinator.Pass
import DocPipeline.Proofs.Effect
import DocPipeline.Proofs.Path.Steps

namespace DocPipeline

theorem Candidate.ofFile_congr (dir : Path) {p q : Path} (h : p.sameAs q) :
    ofFile dir p = ofFile dir q := by
  rw [ofFile, ofFile, Path.absolutize_congr dir h]

theorem Candidate.map_ofFile_congr (dir : Path) {ps qs : List Path} (h : samePaths ps qs) :
    ps.map (ofFile dir) = qs.map (ofFile dir) := by
  induction ps generalizing qs with
  | nil =>
    cases qs with
    | nil => rfl
    | cons => simp [samePaths] at h
  | cons p ps ih =>
    cases qs with
    | nil => simp [samePaths] at h
    | cons q qs =>
      simp only [samePaths, List.length_cons, List.zip_cons_cons, List.all_cons,
        Bool.and_eq_true, beq_iff_eq, Nat.add_right_cancel_iff] at h
      obtain ⟨hlength, hfirst, hrest⟩ := h
      rw [List.map_cons, List.map_cons, ofFile_congr dir hfirst, ih]
      simp [samePaths, hlength, hrest]

theorem Candidate.select_congr (dir : Path) (filter : Filter) {given files : Option (List Path)}
    (h : sameLists given files) :
    select dir (given.getD []) filter = select dir (files.getD []) filter := by
  cases given <;> cases files
  · rfl
  · cases h
  · cases h
  · simp only [select, Option.getD_some, map_ofFile_congr dir h]

theorem isSome_of_sameLists {given files : Option (List Path)} (h : sameLists given files) :
    files.isSome = given.isSome := by
  cases given <;> cases files <;> first | rfl | cases h

namespace Discovery

variable {ε : Type} {hydrator : Hydrator ε} {plan : Plan} {state : RunState}
  {world world' : World ε}

-- The files of a list that is set, or what the hydrator makes of the source of one that is not.
def Listing (hydrator : Hydrator ε) (dir : Path) (source : Option SourceSpec) (world : World ε) :
    Option (List Path) → List Path → Prop
  | some given, files => files = given
  | none, files => ∃ spec hydrated, source = some spec ∧
      ((hydrator dir spec.patterns).run () world).result = .ok hydrated ∧ files = hydrated.files

theorem hydrateSource_eq_ok {dir : Path} {source : Option SourceSpec} {label : String}
    {hydrated : Hydrated}
    (h : exec (hydrateSource hydrator dir source label) world = (.ok hydrated, world')) :
    ∃ spec, source = some spec ∧
      ((hydrator dir spec.patterns).run () world).result = .ok hydrated := by
  cases source with
  | none => cases h
  | some spec =>
    obtain ⟨found, world₁, hfound, hrest⟩ := exec_bind_eq_ok h
    cases hrest
    refine ⟨spec, rfl, ?_⟩
    rw [exec_tryCatch] at hfound
    simp only [Conduct.perform, exec_mk] at hfound
    generalize (hydrator dir spec.patterns).run () world = outcome at hfound ⊢
    rcases outcome with ⟨failure | found', left, world₂⟩ <;> cases hfound
    rfl

theorem fillMain_eq_ok {filled : RunState}
    (h : exec (fillMain hydrator plan state) world = (.ok filled, world')) :
    (∃ files, filled.sourceFiles = some files ∧
      Listing hydrator plan.dir plan.source world state.sourceFiles files) ∧
    filled.testFiles = state.testFiles := by
  unfold fillMain at h
  cases hs : state.sourceFiles with
  | some files =>
    rw [hs] at h
    cases h
    exact ⟨⟨files, hs, rfl⟩, rfl⟩
  | none =>
    rw [hs] at h
    obtain ⟨hydrated, world₁, hh, hrest⟩ := exec_bind_eq_ok h
    cases hrest
    obtain ⟨spec, hspec, hresult⟩ := hydrateSource_eq_ok hh
    exact ⟨⟨hydrated.files, rfl, spec, hydrated, hspec, hresult, rfl⟩, rfl⟩

theorem fillTests_eq_ok {test : TestPlan} {filled : RunState}
    (h : exec (fillTests hydrator plan test state) world = (.ok filled, world')) :
    (∃ files, filled.testFiles = some files ∧
      Listing hydrator plan.dir test.source world state.testFiles files) ∧
    filled.sourceFiles = state.sourceFiles := by
  unfold fillTests at h
  cases hs : state.testFiles with
  | some files =>
    rw [hs] at h
    cases h
    exact ⟨⟨files, hs, rfl⟩, rfl⟩
  | none =>
    rw [hs] at h
    obtain ⟨hydrated, world₁, hh, hrest⟩ := exec_bind_eq_ok h
    cases hrest
    obtain ⟨spec, hspec, hresult⟩ := hydrateSource_eq_ok hh
    exact ⟨⟨hydrated.files, rfl, spec, hydrated, hspec, hresult, rfl⟩, rfl⟩

theorem findMain_eq_ok {result : RunState × List Candidate}
    (h : exec (findMain hydrator plan state) world = (.ok result, world')) :
    (∃ files, result.1.sourceFiles = some files ∧
      Listing hydrator plan.dir plan.source world state.sourceFiles files ∧
      result.2 = Candidate.select plan.dir files plan.filter) ∧
    result.1.testFiles = state.testFiles := by
  obtain ⟨filled, world₁, hfill, hrest⟩ := exec_bind_eq_ok h
  obtain ⟨⟨files, hfiles, hlisting⟩, htests⟩ := fillMain_eq_ok hfill
  obtain ⟨chosen, world₂, hchoose, hpure⟩ := exec_bind_eq_ok hrest
  rw [hfiles] at hchoose
  cases hchoose
  cases hpure
  exact ⟨⟨files, hfiles, hlisting, rfl⟩, htests⟩

-- Without tests in the plan nothing is looked for.
theorem findTests_eq_ok {result : RunState × List Candidate}
    (h : exec (findTests hydrator plan state) world = (.ok result, world')) :
    (match plan.test with
    | none => result.2 = []
    | some test => ∃ files, result.1.testFiles = some files ∧
        Listing hydrator plan.dir test.source world state.testFiles files ∧
        result.2 = Candidate.select plan.dir files test.filter) ∧
    result.1.sourceFiles = state.sourceFiles := by
  unfold findTests at h
  cases ht : plan.test with
  | none =>
    rw [ht] at h
    cases h
    exact ⟨rfl, rfl⟩
  | some test =>
    rw [ht] at h
    obtain ⟨filled, world₁, hfill, hrest⟩ := exec_bind_eq_ok h
    obtain ⟨⟨files, hfiles, hlisting⟩, hmain⟩ := fillTests_eq_ok hfill
    obtain ⟨chosen, world₂, hchoose, hpure⟩ := exec_bind_eq_ok hrest
    rw [hfiles] at hchoose
    cases hchoose
    cases hpure
    exact ⟨⟨files, hfiles, hlisting, rfl⟩, hmain⟩

-- A failure of the hydrator, with a note around it.
def OfHydrator (hydrator : Hydrator ε) (dir : Path) (label : String) (failure : Failure) : Prop :=
  ∃ patterns world cause, ((hydrator dir patterns).run () world).result = .error cause ∧
    failure = cause.note ("Failed to expand '" ++ label ++ "' patterns")

theorem OfHydrator.ne_missingSource {dir : Path} {label : String} {failure : Failure}
    (h : OfHydrator hydrator dir label failure) (other : String) :
    failure ≠ missingSource other := by
  obtain ⟨_, _, _, _, rfl⟩ := h
  exact nofun

theorem hydrateSource_eq_error {dir : Path} {spec : SourceSpec} {label : String}
    {failure : Failure}
    (h : (exec (hydrateSource hydrator dir (some spec) label) world).1 = .error failure) :
    OfHydrator hydrator dir label failure := by
  unfold hydrateSource at h
  rw [exec_bind_fst] at h
  simp only [exec_tryCatch, Conduct.perform, exec_mk] at h
  cases hr : ((hydrator dir spec.patterns).run () world).result with
  | ok hydrated =>
    rw [hr] at h
    cases h
  | error cause =>
    rw [hr] at h
    cases h
    exact ⟨_, _, _, hr, rfl⟩

-- Looking for files fails in the hydrator only, where a list of files or a source is there.
theorem findMain_eq_error {failure : Failure}
    (hs : state.sourceFiles ≠ none ∨ plan.source ≠ none)
    (h : (exec (findMain hydrator plan state) world).1 = .error failure) :
    OfHydrator hydrator plan.dir "source" failure := by
  unfold findMain fillMain at h
  cases hfiles : state.sourceFiles with
  | some files =>
    rw [hfiles] at h
    cases h
  | none =>
    obtain ⟨spec, hspec⟩ := Option.ne_none_iff_exists'.mp (hs.resolve_left (absurd hfiles))
    simp only [hfiles, hspec] at h
    rw [exec_bind_fst, exec_bind_fst] at h
    cases hh : (exec (hydrateSource hydrator plan.dir (some spec) "source") world).1 with
    | ok hydrated =>
      rw [hh] at h
      cases h
    | error cause =>
      rw [hh] at h
      cases h
      exact hydrateSource_eq_error hh

theorem findTests_eq_error {failure : Failure}
    (hs : ∀ test, plan.test = some test → state.testFiles ≠ none ∨ test.source ≠ none)
    (h : (exec (findTests hydrator plan state) world).1 = .error failure) :
    OfHydrator hydrator plan.dir "test.source" failure := by
  unfold findTests at h
  cases ht : plan.test with
  | none =>
    rw [ht] at h
    cases h
  | some test =>
    unfold fillTests at h
    cases hfiles : state.testFiles with
    | some files =>
      rw [ht, hfiles] at h
      cases h
    | none =>
      obtain ⟨spec, hspec⟩ := Option.ne_none_iff_exists'.mp ((hs test ht).resolve_left (absurd hfiles))
      simp only [ht, hfiles, hspec] at h
      rw [exec_bind_fst, exec_bind_fst] at h
      cases hh : (exec (hydrateSource hydrator plan.dir (some spec) "test.source") world).1 with
      | ok hydrated =>
        rw [hh] at h
        cases h
      | error cause =>
        rw [hh] at h
        cases h
        exact hydrateSource_eq_error hh

end Discovery

end DocPipeline
