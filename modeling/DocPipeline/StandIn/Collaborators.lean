import DocPipeline.Discovery.Find
import DocPipeline.Registry
import DocPipeline.StandIn.Deed

namespace DocPipeline.StandIn

-- What a parser is asked.
inductive Asked where
  | file (dir path : Path) (hint : PackageHint)
  | code (dir : Path) (text : String)
  | test (type : String) (dir path : Path)
deriving DecidableEq, Inhabited

namespace Asked

-- The code itself, or the path of the file from the working directory.
def name : Asked → String
  | file dir path _ | test _ dir path => Path.relativeTo dir path
  | code _ text => text

def fields : Asked → List (String × Json)
  | file dir path hint =>
    [("kind", .string "call"), ("file", .string path.text), ("dir", .string dir.text),
      ("package", .ofString? hint.name), ("main", .ofString? (hint.main.map (·.text)))]
  | code dir _ => [("kind", .string "callCode"), ("dir", .string dir.text)]
  | test type dir path =>
    [("kind", .string "callTest"), ("file", .string path.text), ("dir", .string dir.text),
      ("type", .string type)]

-- The question as an object, which can stand for a record.
def toJson (asked : Asked) : Json := .ofEntries (("name", .string asked.name) :: asked.fields)

-- The answer that repeats the question.
def echo (asked : Asked) : Parsed := ⟨(Record.ofJson? asked.toJson).toList, some asked.toJson⟩

end Asked

-- A parser answers what it is asked out of a table of its maker's choice, so it has no entries in
-- the ledger. Publishers, hydrators and factories are entered before they do anything.
def parser (answer : Asked → ParseResult) : Parser where
  file _ dir file hint := answer (.file dir file hint)
  code dir code := answer (.code dir code)
  test _ type dir file := answer (.test type dir file)

variable {α : Type}

def publisher (name : String) (conduct : Conduct Ledger RunState Unit) : Publisher Ledger :=
  fun plan package => do
    let db := (← Conduct.store).db
    Ledger.enter ⟨name, "publish", some (.object
      [("records", .strings (db.records.map Record.label)),
        ("index", Database.indexToJson db.index), ("package", .ofString? package.name?),
        ("destination", .string plan.destination.text), ("state", (← Conduct.payload).toJson)])⟩
    conduct

def hydrator (conduct : Conduct Ledger Unit Hydrated) : Hydrator Ledger := fun dir patterns => do
  Ledger.enter ⟨"hydrator", "hydrate", some (.object
    [("dir", .string dir.text), ("patterns", .strings patterns)])⟩
  conduct

def factory (name : String) (make : Option Json → Conduct Ledger Unit α) : Factory Ledger α :=
  fun options => do
    Ledger.enter ⟨name, "load", some (.ofOption options)⟩
    make options

end DocPipeline.StandIn
