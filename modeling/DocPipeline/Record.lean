import DocPipeline.Dict
import DocPipeline.Json.Printer

namespace DocPipeline

-- Files and test files are kinds of their own, apart from entities of any spelling.
inductive DocKind where
  | file
  | testFile
  | entity (spelling : String)
deriving DecidableEq, Inhabited

namespace DocKind

def text : DocKind → String
  | file => "file"
  | testFile => "testFile"
  | entity spelling => spelling

-- The kind that a text is read as.
def ofText (text : String) : DocKind :=
  if text = "file" then file else if text = "testFile" then testFile else entity text

-- A text may be given where a kind is asked for, and the other way round.
instance : Coe String DocKind := ⟨ofText⟩

instance : Coe DocKind String := ⟨text⟩

def isFileLike : DocKind → Bool
  | file | testFile => true
  | entity _ => false

@[simp] theorem text_ofText (text : String) : (ofText text).text = text := by
  unfold ofText
  split
  · exact Eq.symm ‹_›
  · split
    · exact Eq.symm ‹_›
    · rfl

-- An entity that is spelled as a file is read as the file.
theorem ofText_text (kind : DocKind) :
    ofText kind.text = kind ↔ kind ≠ entity "file" ∧ kind ≠ entity "testFile" := by
  cases kind with
  | file => decide
  | testFile => decide
  | entity spelling =>
    by_cases hfile : spelling = "file" <;> by_cases htest : spelling = "testFile" <;>
      simp [ofText, text, hfile, htest]

theorem isFileLike_iff {kind : DocKind} :
    kind.isFileLike = true ↔ kind = file ∨ kind = testFile := by
  cases kind <;> simp [isFileLike]

end DocKind

-- One unit of extracted documentation. It may have content, and carries any other fields in the
-- order in which they were given.
structure Record where
  kind : DocKind
  content : Option String := none
  isVirtual : Bool := false
  fields : Dict Json := .empty
deriving Inhabited

namespace Record

-- Such a record stands for a whole file and carries its text.
def isFileLike (record : Record) : Bool := record.kind.isFileLike

def set (record : Record) (key : String) (value : Json) : Record :=
  { record with fields := record.fields.insert key value }

def textField? (record : Record) (key : String) : Option String :=
  (record.fields.get? key).bind Json.asString?

def name? (record : Record) : Option String := record.textField? "name"

def isUndocumented (record : Record) : Bool :=
  (((record.fields.get? "undocument").bind Json.asBool?).getD false)

def reserved : List String := ["kind", "content", "builtinVirtual"]

def toJson (record : Record) : Json :=
  let content := match record.content with
    | none => []
    | some text => [("content", .string text)]
  let mark := if record.isVirtual then [("builtinVirtual", .bool true)] else []
  .object (("kind", .string record.kind.text) :: content ++ mark ++ record.fields.entries)

-- A reserved key occurs at most once; of other equal keys the last value counts.
def ofJson? : Json → Option Record
  | .object entries => do
    if reserved.any fun key => 1 < (entries.map (·.1)).count key then none
    let kind ← (Json.lookup "kind" entries).bind Json.asString?
    let content ← Json.fieldD? entries "content" (Json.optional? Json.asString?) none
    let isVirtual ← Json.fieldD? entries "builtinVirtual" Json.asBool? false
    let others := entries.filter fun entry => !reserved.contains entry.1
    let fields := others.map fun (key, value) => (key, value.canonical)
    return ⟨.ofText kind, content, isVirtual, .ofList fields⟩
  | _ => none

-- The kind and the name, with a mark on virtual records.
def label (record : Record) : String :=
  record.kind.text ++ ":" ++ record.name?.getD "" ++ if record.isVirtual then "!" else ""

end Record

end DocPipeline
