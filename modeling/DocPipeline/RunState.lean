import DocPipeline.Json.Basic
import DocPipeline.Path.Basic

namespace DocPipeline

structure MenuLink where
  label : String
  href : String
deriving DecidableEq, Inhabited

-- A file or fragment that failed to parse, by its relative path or its label.
structure InvalidCode where
  path : String
  message : String
deriving DecidableEq, Inhabited

def InvalidCode.toJson (code : InvalidCode) : Json :=
  .object [("path", .string code.path), ("message", .string code.message)]

def InvalidCode.text (code : InvalidCode) : String := code.path ++ ": " ++ code.message

-- A list of files is unset until it is given or found.
structure RunState where
  sourceFiles : Option (List Path) := none
  sourceGlobs : Option (List String) := none
  testFiles : Option (List Path) := none
  testGlobs : Option (List String) := none
  menuLinks : List MenuLink := []
  invalidCode : List InvalidCode := []
deriving DecidableEq, Inhabited

def MenuLink.toJson (link : MenuLink) : Json :=
  .object [("label", .string link.label), ("href", .string link.href)]

namespace RunState

def addMenuLink (state : RunState) (label href : String) : RunState :=
  { state with menuLinks := state.menuLinks ++ [⟨label, href⟩] }

-- The skipped code of a pass, one line for each.
def invalidCodeReport? (state : RunState) : Option String :=
  if state.invalidCode.isEmpty then none
  else
    some ("invalid code: " ++ toString state.invalidCode.length ++ " skipped" ++
      String.join (state.invalidCode.map fun code => "\n  " ++ code.text))

def listToJson : Option (List String) → Json
  | none => .null
  | some items => .strings items

def toJson (state : RunState) : Json :=
  let files (paths : Option (List Path)) : Json := listToJson (paths.map fun ps => ps.map (·.text))
  .object [("sourceFiles", files state.sourceFiles), ("sourceGlobs", listToJson state.sourceGlobs),
    ("testSourceFiles", files state.testFiles), ("testSourceGlobs", listToJson state.testGlobs),
    ("menuLinks", .array (state.menuLinks.map MenuLink.toJson)),
    ("invalidCode", .strings (state.invalidCode.map InvalidCode.text))]

end RunState

end DocPipeline
