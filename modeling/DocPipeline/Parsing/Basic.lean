import DocPipeline.Database.Index
import DocPipeline.Failure.Basic
import DocPipeline.Text.Quoted
import DocPipeline.Tree.Basic

namespace DocPipeline

structure Parsed where
  records : List Record := []
  ast : Option Json := none
deriving Inhabited

def Parsed.toJson (parsed : Parsed) : Json :=
  .object [("records", .array (parsed.records.map Record.toJson)), ("ast", .ofOption parsed.ast)]

-- There may be nothing to document, which is not a failure.
abbrev ParseResult := Except Failure (Option Parsed)

-- What a parser is told about the package: its name and the path of its main file.
structure PackageHint where
  name : Option String := none
  main : Option Path := none
deriving DecidableEq, Inhabited

structure Parser where
  file : Tree → (dir file : Path) → PackageHint → ParseResult
  code : (dir : Path) → (code : String) → ParseResult
  test : Tree → (type : String) → (dir file : Path) → ParseResult

instance : Inhabited Parser :=
  ⟨fun _ _ _ _ => .ok none, fun _ _ => .ok none, fun _ _ _ _ => .ok none⟩

-- A resolver that fails may have changed the database before.
abbrev Resolver := Database → Database × Except Failure Unit

def indexResolver : Resolver := fun db => (db.reindex, .ok ())

-- What a runtime supplies: a parser for source files, fragments of code and test files, and a
-- resolver that completes the database of a pass. Both depend on their arguments alone, so that
-- parsing a file again gives the same answer.
structure Runtime where
  name : String
  parser : Parser
  resolver : Resolver
deriving Inhabited

def Runtime.debugText (runtime : Runtime) : String :=
  "Runtime \x7b name: " ++ Text.quoted runtime.name ++ ", .. \x7d"

end DocPipeline
