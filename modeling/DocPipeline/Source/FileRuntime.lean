import DocPipeline.Parsing.Basic
import DocPipeline.Source.Declaration
import DocPipeline.Source.TestBlock

namespace DocPipeline

def IoError.readFailure (e : IoError) (path : Path) : Failure :=
  (Failure.text e.message).note ("Failed to read " ++ path.text)

def readSource (tree : Tree) (path : Path) : Except Failure String :=
  match tree.readText path with
  | .ok text => .ok text
  | .error e => .error (e.readFailure path)

namespace Declaration

def toRecord (owner : String) (d : Declaration) : Record :=
  { kind := .ofText d.kind
    fields := .ofList [("name", .string d.name), ("longname", .string (owner ++ "~" ++ d.name)),
      ("memberof", .string owner), ("lineNumber", .nat d.line),
      ("undocument", .bool (!d.documented))] }

def toJson (d : Declaration) : Json :=
  .object [("kind", .string d.kind), ("line", .nat d.line), ("name", .string d.name)]

end Declaration

def TestBlock.toRecord (owner : String) (block : TestBlock) : Record :=
  { kind := .ofText (if block.word = "it" then "test" else "testDescribe")
    fields := .ofList [("name", .string block.description), ("memberof", .string owner)] }

namespace FileRuntime

def name : String := "tjsdoc-runtime-file"

def declarationRecords (code owner : String) : List Record :=
  (Declaration.ofCode code).map (Declaration.toRecord owner)

def ast (code : String) : Json :=
  .object [("declarations", .array ((Declaration.ofCode code).map Declaration.toJson)),
    ("lines", .nat (Text.lineCount code.toList)), ("type", .string "Program")]

def fileRecord (code owner : String) : Record :=
  { kind := .file, content := some code, fields := .ofList [("name", .string owner)] }

-- The mark on records of the package's main file.
def importPath? (hint : PackageHint) (file : Path) : Option String :=
  match hint.main with
  | some main => if main.sameAs file then hint.name else none
  | none => none

def markImport (path : Option String) (record : Record) : Record :=
  match path with
  | some path => record.set "importPath" (.string path)
  | none => record

def parseFile (tree : Tree) (dir file : Path) (hint : PackageHint) : ParseResult := do
  let code ← readSource tree file
  if Text.allBlank code then return none
  let owner := Path.relativeTo dir file
  let found := (declarationRecords code owner).map (markImport (importPath? hint file))
  return some ⟨fileRecord code owner :: found, some (ast code)⟩

-- A fragment has no file and no syntax tree.
def parseCode (_dir : Path) (code : String) : ParseResult :=
  match declarationRecords code "virtual" with
  | [] => .ok none
  | records => .ok (some ⟨records, none⟩)

def parseTest (tree : Tree) (type : String) (dir file : Path) : ParseResult := do
  let code ← readSource tree file
  let owner := Path.relativeTo dir file
  let record : Record :=
    { kind := .testFile, content := some code
      fields := .ofList [("name", .string owner), ("testType", .string type)] }
  return some ⟨record :: (TestBlock.ofCode code).map (TestBlock.toRecord owner),
    some (.object [("testType", .string type), ("type", .string "Program")])⟩

end FileRuntime

-- The runtime that comes with the program. It scans source files for declarations and test files
-- for blocks. A file gives one record with its text, and one record for everything found in it; the
-- records of the package's main file carry the package's name.
def fileRuntime : Runtime :=
  ⟨FileRuntime.name, ⟨FileRuntime.parseFile, FileRuntime.parseCode, FileRuntime.parseTest⟩,
    indexResolver⟩

end DocPipeline
