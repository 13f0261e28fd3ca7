import DocPipeline.Record

namespace DocPipeline

structure Ast where
  filePath : String
  tree : Json
deriving Inhabited

def Ast.toJson (ast : Ast) : Json := .object [("filePath", .string ast.filePath), ("ast", ast.tree)]

-- The records of one pass in documentation order, the syntax trees they came from, and an index
-- from keys to positions of records. The generation counts how often the database was reset.
structure Database where
  records : List Record := []
  asts : List Ast := []
  index : Dict (List Nat) := .empty
  generation : Nat := 0
deriving Inhabited

structure Coverage where
  actual : Nat
  expect : Nat
deriving DecidableEq, Inhabited

namespace Coverage

-- Whole percents, rounded down; nothing to document counts as all documented.
def percent (coverage : Coverage) : Nat :=
  if coverage.expect = 0 then 100 else coverage.actual * 100 / coverage.expect

def text (coverage : Coverage) : String :=
  toString coverage.percent ++ "% (" ++ toString coverage.actual ++ "/" ++
    toString coverage.expect ++ ")"

def toJson (coverage : Coverage) : Json :=
  .object [("actual", .nat coverage.actual), ("expect", .nat coverage.expect)]

end Coverage

namespace Database

def append (db : Database) (records : List Record) (ast : Option Ast) : Database :=
  { db with records := db.records ++ records, asts := db.asts ++ ast.toList }

-- A new pass begins with nothing but a higher generation.
def reset (db : Database) : Database := { generation := db.generation + 1 }

-- The records at the positions of a key; positions beyond the last record are passed over.
def lookup (db : Database) (key : String) : List Record :=
  ((db.index.get? key).getD []).filterMap fun position => db.records[position]?

def byKind (db : Database) (kind : DocKind) : List Record := db.records.filter (·.kind == kind)

def coverage (db : Database) : Coverage :=
  let entities := db.records.filter fun record => !record.isFileLike
  ⟨(entities.filter fun record => !record.isUndocumented).length, entities.length⟩

def indexToJson (index : Dict (List Nat)) : Json :=
  .object (index.entries.map fun (key, positions) => (key, .array (positions.map .nat)))

-- The records by their labels and the syntax trees by their files.
def outline (db : Database) : Json :=
  .object [("records", .strings (db.records.map Record.label)),
    ("asts", .strings (db.asts.map (·.filePath))), ("index", indexToJson db.index),
    ("generation", .nat db.generation)]

def toJson (db : Database) : Json :=
  .object [("records", .array (db.records.map Record.toJson)),
    ("asts", .array (db.asts.map Ast.toJson)), ("index", indexToJson db.index),
    ("generation", .nat db.generation)]

end Database

namespace Record

def carriesSource (record : Record) : Bool := record.isFileLike && record.content.isSome

def blankSource (record : Record) : Record :=
  if record.carriesSource then { record with content := some "" } else record

end Record

-- Blanks the source text that records carry, and counts them.
def stripSource (records : List Record) : List Record × Nat :=
  (records.map Record.blankSource, (records.filter Record.carriesSource).length)

end DocPipeline
