import DocPipeline.Proofs.Parsing.Assembly
import DocPipeline.Source.FileRuntime

namespace DocPipeline

namespace ParseResult

-- The parser had nothing to document, and gave no output.
def isNothing : ParseResult → Bool
  | .ok none => true
  | _ => false

-- The parser gave output, with neither records nor a syntax tree.
def isBare : ParseResult → Bool
  | .ok (some parsed) => parsed.records.isEmpty && parsed.ast.isNone
  | _ => false

end ParseResult

namespace Metrics

-- How many files were accounted for.
def files (m : Metrics) : Nat := m.filesParsed + m.filesEmpty + m.parseFailures

def addOutput (m : Metrics) (parsed : Parsed) : Metrics :=
  if parsed.records.length = 0 ∧ parsed.ast.isNone then m.addEmptyFile
  else m.addFile parsed.records.length

-- What the answer of the parser for a file adds.
def addResult (m : Metrics) : ParseResult → Metrics
  | .error _ => m.addFailure
  | .ok none => m
  | .ok (some parsed) => m.addOutput parsed

theorem files_addResult (m : Metrics) (result : ParseResult) :
    (m.addResult result).files + result.isNothing.toNat = m.files + 1 := by
  rcases result with cause | _ | parsed
  · simp [addResult, addFailure, files, ParseResult.isNothing]
    omega
  · simp [addResult, ParseResult.isNothing]
  · simp only [addResult, addOutput, ParseResult.isNothing, Bool.toNat_false]
    split <;> simp only [files, addEmptyFile, addFile] <;> omega

theorem filesEmpty_addResult (m : Metrics) (result : ParseResult) :
    (m.addResult result).filesEmpty = m.filesEmpty + result.isBare.toNat := by
  rcases result with cause | _ | ⟨_ | ⟨record, records⟩, _ | tree⟩ <;> rfl

theorem recordsAdded_addResult (m : Metrics) (result : ParseResult) :
    (m.addResult result).recordsAdded = m.recordsAdded + result.records.length := by
  rcases result with cause | _ | ⟨_ | ⟨record, records⟩, _ | tree⟩ <;> rfl

section Results

variable (m : Metrics) (results : List ParseResult)

theorem files_foldl :
    (results.foldl addResult m).files + results.countP ParseResult.isNothing =
      m.files + results.length := by
  induction results generalizing m with
  | nil => rfl
  | cons result results ih =>
    have h := files_addResult m result
    have hr := ih (m.addResult result)
    rw [List.foldl_cons, List.countP_cons, List.length_cons]
    cases hn : result.isNothing <;> simp only [hn, Bool.toNat_true, Bool.toNat_false, if_true,
      Bool.false_eq_true, if_false] at h ⊢ <;> omega

theorem filesEmpty_foldl :
    (results.foldl addResult m).filesEmpty =
      m.filesEmpty + results.countP ParseResult.isBare := by
  induction results generalizing m with
  | nil => rfl
  | cons result results ih =>
    rw [List.foldl_cons, ih, filesEmpty_addResult, List.countP_cons]
    cases result.isBare <;> simp
    omega

theorem recordsAdded_foldl :
    (results.foldl addResult m).recordsAdded =
      m.recordsAdded + (results.flatMap ParseResult.records).length := by
  induction results generalizing m with
  | nil => rfl
  | cons result results ih =>
    rw [List.foldl_cons, ih, recordsAdded_addResult, List.flatMap_cons, List.length_append,
      Nat.add_assoc]

end Results

end Metrics

-- The assembly gives an answer from every state, and counts in this way.
def Counts {α : Type} (work : Assembling α) (tally : Metrics → Metrics) : Prop :=
  ∀ a, ∃ n b, exec work a = (.ok n, b) ∧ b.metrics = tally a.metrics

namespace Assembly

section Counting

variable {α β : Type} {f g : Metrics → Metrics}

theorem counts_pure (value : α) : Counts (pure value : Assembling α) id := by
  intro a
  exact ⟨value, a, rfl, rfl⟩

theorem counts_bind {work : Assembling α} {next : α → Assembling β} (hw : Counts work f)
    (hn : ∀ value, Counts (next value) g) : Counts (work >>= next) (g ∘ f) := by
  intro a
  obtain ⟨n, b, hb, hf⟩ := hw a
  obtain ⟨m, c, hc, hg⟩ := hn n b
  exact ⟨m, c, by rw [exec_bind_of_ok hb, hc], by rw [hg, hf, Function.comp_apply]⟩

theorem counts_count (change : Metrics → Metrics) : Counts (count change) change := by
  intro a
  exact ⟨⟨⟩, _, rfl, rfl⟩

theorem counts_keep (records : List Record) (ast : Option Ast) : Counts (keep records ast) id := by
  intro a
  exact ⟨⟨⟩, _, rfl, rfl⟩

-- A failure counts once, and an answer without output does not count.
theorem counts_item (level : Level) (message label : String) (result : ParseResult)
    (store : Parsed → Assembling Nat) (hnone : result = .ok none → f = id)
    (hsome : ∀ parsed, result = .ok (some parsed) → Counts (store parsed) f)
    (herror : ∀ cause, result = .error cause → f = Metrics.addFailure) :
    Counts (do
      say level message
      match (← settle label .skip result) with
      | none => return 0
      | some parsed => store parsed) f := by
  intro a
  rcases result with cause | _ | parsed
  · rw [herror cause rfl]
    exact ⟨0, _, rfl, rfl⟩
  · rw [hnone rfl]
    exact ⟨0, _, rfl, rfl⟩
  · exact hsome parsed rfl { a with log := a.log.add ⟨level, message⟩ }

-- Each item counts by itself, one after the other.
theorem counts_addEach (add : α → Assembling Nat) (tally : α → Metrics → Metrics)
    (ha : ∀ item, Counts (add item) (tally item)) (items : List α) :
    Counts (addEach add items) fun m => items.foldl (fun m item => tally item m) m := by
  induction items with
  | nil => exact counts_pure 0
  | cons item items ih =>
    exact counts_bind (ha item) fun n => counts_bind ih fun m => counts_pure (n + m)

end Counting

section Items

variable (sources : Sources)

theorem counts_addFile (key : String) (parsed : Parsed) :
    Counts (addFile key parsed) (·.addOutput parsed) :=
  counts_bind (counts_count (·.addOutput parsed)) fun _ =>
    counts_bind (counts_keep parsed.records (parsed.ast.map fun tree => ⟨key, tree⟩)) fun _ =>
      counts_pure parsed.records.length

theorem counts_file (level : Level) (message key label : String) (result : ParseResult) :
    Counts (do
      say level message
      match (← settle label .skip result) with
      | none => return 0
      | some parsed => addFile key parsed) (·.addResult result) := by
  apply counts_item
  · rintro rfl
    rfl
  · rintro parsed rfl
    exact counts_addFile key parsed
  · rintro cause rfl
    rfl

theorem counts_addSource (file : Candidate) :
    Counts (addSource sources .skip file) (·.addResult (sources.fileResult file)) := by
  intro a
  exact counts_file .info ("parse: " ++ file.relative) _ _ _ a

theorem counts_addTest (type : String) (file : Candidate) :
    Counts (addTest sources type .skip file) (·.addResult (sources.testResult type file)) := by
  intro a
  exact counts_file .info ("parse: " ++ file.relative) _ _ _ a

theorem counts_addSources (files : List Candidate) :
    Counts (addSources sources .skip files)
      fun m => (files.map sources.fileResult).foldl Metrics.addResult m := by
  simp only [List.foldl_map]
  exact counts_addEach _ _ (counts_addSource sources) files

theorem counts_addTests (type : String) (files : List Candidate) :
    Counts (addTests sources type .skip files)
      fun m => (files.map (sources.testResult type)).foldl Metrics.addResult m := by
  simp only [List.foldl_map]
  exact counts_addEach _ _ (counts_addTest sources type) files

-- Whatever the parser answers for source and test files, each file is accounted for once, unless
-- the parser answered that there is nothing to document. Files are counted as empty when their
-- output was, and the counter of records grows with the database.
theorem files_accounted (type : String) (main tests : List Candidate) (a : Assembly) :
    let results := main.map sources.fileResult ++ tests.map (sources.testResult type)
    ∃ n b, exec (do
          let n ← addSources sources .skip main
          return n + (← addTests sources type .skip tests)) a = (.ok n, b) ∧
      b.metrics.files + results.countP ParseResult.isNothing =
        a.metrics.files + (main.length + tests.length) ∧
      (b.metrics.files = a.metrics.files + (main.length + tests.length) ↔
        ∀ result ∈ results, result.isNothing = false) ∧
      b.metrics.filesEmpty = a.metrics.filesEmpty + results.countP ParseResult.isBare ∧
      ∃ added, b.store.db.records = a.store.db.records ++ added ∧
        b.metrics.recordsAdded = a.metrics.recordsAdded + added.length := by
  intro results
  obtain ⟨n, b, hb, hmetrics⟩ := counts_bind (counts_addSources sources main) (fun n =>
    counts_bind (counts_addTests sources type tests) fun m => counts_pure (n + m)) a
  obtain ⟨_, b', hb', hdb, _⟩ := adds_bind (adds_addSources sources main) (fun n =>
    adds_bind (adds_addTests sources type tests) fun m => adds_pure (n + m)) a
  cases hb.symm.trans hb'
  have hfold : b.metrics = results.foldl Metrics.addResult a.metrics := by
    rw [hmetrics, List.foldl_append]
    rfl
  have hfiles := Metrics.files_foldl a.metrics results
  rw [← hfold, List.length_append, List.length_map, List.length_map] at hfiles
  refine ⟨n, b, hb, hfiles, ?_, ?_, results.flatMap ParseResult.records, ?_, ?_⟩
  · have hzero : results.countP ParseResult.isNothing = 0 ↔
        ∀ result ∈ results, result.isNothing = false := by
      simp [List.countP_eq_zero]
    rw [← hzero]
    omega
  · rw [hfold, Metrics.filesEmpty_foldl]
  · simp [hdb, Yield.addTo, Yield.append, mainYield, testYield, Yield.concat, Yield.ofFile,
      results, List.flatMap_map]
  · rw [hfold, Metrics.recordsAdded_foldl]

end Items

-- A project whose one source file is blank.
def blankFile : Candidate := ⟨⟨"/p/a.js"⟩, "a.js"⟩

def blankSources : Sources where
  tree := ⟨[(["p"], .directory), (["p", "a.js"], .file " ".toUTF8)]⟩
  dir := ⟨"/p"⟩
  parser := fileRuntime.parser
  hint := {}

-- The runtime that comes with the program has nothing to document there, and the file is in none of
-- the counters.
theorem blank_file_unaccounted :
    (blankSources.fileResult blankFile).isNothing = true ∧
      (exec (addSources blankSources .skip [blankFile]) { log := ⟨none, []⟩ }).2.metrics = {} := by
  decide +kernel

end Assembly

end DocPipeline
