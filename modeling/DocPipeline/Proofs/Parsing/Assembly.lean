import DocPipeline.Parsing.Assembly
import DocPipeline.Proofs.Effect
import Mathlib.Data.List.Basic

namespace DocPipeline

namespace ParseResult

def records : ParseResult → List Record
  | .ok (some parsed) => parsed.records
  | _ => []

def asts (key : String) : ParseResult → List Ast
  | .ok (some parsed) => (parsed.ast.map fun tree => ⟨key, tree⟩).toList
  | _ => []

-- The code to remember, with the message of the failure's outermost layer.
def skipped (label : String) : ParseResult → List InvalidCode
  | .error cause => [⟨label, cause.message⟩]
  | .ok _ => []

end ParseResult

namespace Sources

variable (sources : Sources)

def fileResult (file : Candidate) : ParseResult :=
  sources.parser.file sources.tree sources.dir file.absolute sources.hint

def testResult (type : String) (file : Candidate) : ParseResult :=
  sources.parser.test sources.tree type sources.dir file.absolute

def fragmentResult (fragment : Fragment) : ParseResult :=
  sources.parser.code sources.dir fragment.code

end Sources

-- What assembling adds to a store and to the code that was skipped.
structure Yield where
  records : List Record := []
  asts : List Ast := []
  skipped : List InvalidCode := []

namespace Yield

def append (y z : Yield) : Yield :=
  ⟨y.records ++ z.records, y.asts ++ z.asts, y.skipped ++ z.skipped⟩

def concat {α : Type} (yield : α → Yield) (items : List α) : Yield :=
  ⟨items.flatMap fun item => (yield item).records, items.flatMap fun item => (yield item).asts,
    items.flatMap fun item => (yield item).skipped⟩

def ofFile (key label : String) (result : ParseResult) : Yield :=
  ⟨result.records, result.asts key, result.skipped label⟩

-- The records of fragments are marked, and no syntax tree is kept.
def ofFragment (label : String) (result : ParseResult) : Yield :=
  ⟨result.records.map Assembly.markVirtual, [], result.skipped label⟩

def addTo (y : Yield) (db : Database) : Database :=
  { db with records := db.records ++ y.records, asts := db.asts ++ y.asts }

@[simp] theorem append_nil (y : Yield) : y.append {} = y := by simp [append]

@[simp] theorem nil_append (y : Yield) : append {} y = y := by simp [append]

theorem addTo_append (y z : Yield) (db : Database) :
    (y.append z).addTo db = z.addTo (y.addTo db) := by
  simp [addTo, append]

end Yield

-- What the run itself counts.
def Metrics.course (m : Metrics) : Nat × Nat := (m.passes, m.hookInvocations)

-- The assembly gives an answer from every state, and changes the database and the skipped code by
-- what it yields alone. It counts neither passes nor hooks.
def Adds {α : Type} (work : Assembling α) (y : Yield) : Prop :=
  ∀ a, ∃ n b, exec work a = (.ok n, b) ∧ b.store.db = y.addTo a.store.db ∧
    b.skipped = a.skipped ++ y.skipped ∧ b.metrics.course = a.metrics.course

namespace Assembly

section Adding

variable {α β : Type} {y z : Yield}

theorem adds_pure (value : α) : Adds (pure value : Assembling α) {} := by
  intro a
  exact ⟨value, a, rfl, by simp [Yield.addTo], by simp, rfl⟩

theorem adds_bind {work : Assembling α} {next : α → Assembling β} (hw : Adds work y)
    (hn : ∀ value, Adds (next value) z) : Adds (work >>= next) (y.append z) := by
  intro a
  obtain ⟨n, b, hb, hdb, hs, hp⟩ := hw a
  obtain ⟨m, c, hc, hdc, ht, hq⟩ := hn n b
  refine ⟨m, c, by rw [exec_bind_of_ok hb, hc], ?_, ?_, hq.trans hp⟩
  · rw [hdc, hdb, Yield.addTo_append]
  · rw [ht, hs, List.append_assoc, Yield.append]

theorem adds_count (change : Metrics → Metrics) (h : ∀ m, (change m).course = m.course) :
    Adds (count change) {} := by
  intro a
  exact ⟨⟨⟩, _, rfl, by simp [Yield.addTo], by simp, h a.metrics⟩

theorem adds_say (level : Level) (message : String) : Adds (say level message) {} := by
  intro a
  exact ⟨⟨⟩, _, rfl, by simp [Yield.addTo], by simp, rfl⟩

theorem adds_keep (records : List Record) (ast : Option Ast) :
    Adds (keep records ast) ⟨records, ast.toList, []⟩ := by
  intro a
  exact ⟨⟨⟩, _, rfl, rfl, by simp, rfl⟩

-- After a word to the log an item is parsed, and what there is of its output is stored. Without
-- output the item adds nothing but the failure, if it failed.
theorem adds_item (level : Level) (message label : String) (result : ParseResult)
    (store : Parsed → Assembling Nat) (hnone : result = .ok none → y = {})
    (hsome : ∀ parsed, result = .ok (some parsed) → Adds (store parsed) y)
    (herror : ∀ cause, result = .error cause → y = ⟨[], [], [⟨label, cause.message⟩]⟩) :
    Adds (do
      say level message
      match (← settle label .skip result) with
      | none => return 0
      | some parsed => store parsed) y := by
  rw [← Yield.nil_append y]
  apply adds_bind (adds_say level message)
  intro _
  rcases result with cause | _ | parsed
  · rw [herror cause rfl]
    intro a
    exact ⟨0, _, rfl, by simp [Yield.addTo], rfl, rfl⟩
  · rw [hnone rfl]
    exact adds_pure 0
  · exact hsome parsed rfl

end Adding

section Items

variable (sources : Sources)

theorem adds_addFile (key : String) (parsed : Parsed) :
    Adds (addFile key parsed) ⟨parsed.records, ParseResult.asts key (.ok (some parsed)), []⟩ := by
  have hc : Adds (count fun m =>
      if parsed.records.length = 0 ∧ parsed.ast.isNone then m.addEmptyFile
      else m.addFile parsed.records.length) {} :=
    adds_count _ fun m => by split <;> rfl
  have h := adds_bind hc
    (fun _ => adds_bind (adds_keep parsed.records (parsed.ast.map fun tree => ⟨key, tree⟩))
      (fun _ => adds_pure parsed.records.length))
  rw [Yield.nil_append, Yield.append_nil] at h
  exact h

theorem adds_file (level : Level) (message key label : String) (result : ParseResult) :
    Adds (do
      say level message
      match (← settle label .skip result) with
      | none => return 0
      | some parsed => addFile key parsed) (.ofFile key label result) := by
  apply adds_item
  · rintro rfl
    rfl
  · rintro parsed rfl
    exact adds_addFile key parsed
  · rintro cause rfl
    rfl

theorem adds_addSource (file : Candidate) :
    Adds (addSource sources .skip file)
      (.ofFile file.relative file.relative (sources.fileResult file)) := by
  intro a
  exact adds_file .info ("parse: " ++ file.relative) _ _ _ a

theorem adds_addTest (type : String) (file : Candidate) :
    Adds (addTest sources type .skip file)
      (.ofFile (testKey file) file.relative (sources.testResult type file)) := by
  intro a
  exact adds_file .info ("parse: " ++ file.relative) _ _ _ a

theorem adds_addFragment (fragment : Fragment) :
    Adds (addFragment sources .skip fragment)
      (.ofFragment fragment.label (sources.fragmentResult fragment)) := by
  have h := adds_item (y := .ofFragment fragment.label (sources.fragmentResult fragment)) .debug
    ("parse virtual: " ++ fragment.label) fragment.label (sources.fragmentResult fragment)
    (fun parsed => do
      count (·.addVirtual parsed.records.length)
      keep (parsed.records.map markVirtual) none
      return parsed.records.length)
    (fun hr => by rw [hr]; rfl) (fun parsed hr => ?_) (fun cause hr => by rw [hr]; rfl)
  · intro a
    exact h a
  · have hk := adds_bind (adds_count (·.addVirtual parsed.records.length) fun _ => rfl) fun _ =>
      adds_bind (adds_keep (parsed.records.map markVirtual) none) fun _ =>
        adds_pure parsed.records.length
    rw [Yield.nil_append, Yield.append_nil] at hk
    rw [hr]
    exact hk

-- One item after the other adds what the items yield, in their order.
theorem adds_addEach {α : Type} (add : α → Assembling Nat) (yield : α → Yield)
    (ha : ∀ item, Adds (add item) (yield item)) (items : List α) :
    Adds (addEach add items) (.concat yield items) := by
  induction items with
  | nil => exact adds_pure 0
  | cons item items ih =>
    have h := adds_bind (ha item) fun n => adds_bind ih fun m => adds_pure (n + m)
    rw [Yield.append_nil] at h
    exact h

def mainYield (files : List Candidate) : Yield :=
  .concat (fun file => .ofFile file.relative file.relative (sources.fileResult file)) files

def testYield (type : String) (files : List Candidate) : Yield :=
  .concat (fun file => .ofFile (testKey file) file.relative (sources.testResult type file)) files

def fragmentYield (fragments : List Fragment) : Yield :=
  .concat (fun fragment => .ofFragment fragment.label (sources.fragmentResult fragment)) fragments

theorem fragmentYield_asts (fragments : List Fragment) :
    (fragmentYield sources fragments).asts = [] := by
  simp [fragmentYield, Yield.concat, Yield.ofFragment]

theorem adds_addSources (files : List Candidate) :
    Adds (addSources sources .skip files) (mainYield sources files) :=
  adds_addEach _ _ (adds_addSource sources) files

theorem adds_addTests (type : String) (files : List Candidate) :
    Adds (addTests sources type .skip files) (testYield sources type files) :=
  adds_addEach _ _ (adds_addTest sources type) files

theorem adds_addFragments (fragments : List Fragment) :
    Adds (addFragments sources .skip fragments) (fragmentYield sources fragments) :=
  adds_addEach _ _ (adds_addFragment sources) fragments

end Items

end Assembly

end DocPipeline
