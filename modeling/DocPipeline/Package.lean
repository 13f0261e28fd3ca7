import DocPipeline.Json.Basic

namespace DocPipeline

-- The manifest of the documented package, in the form that output uses.
structure PackageSummary where
  name : Option String := none
  version : Option String := none
  description : Option String := none
  homepage : Option String := none
  repository : Option String := none
  bugsUrl : Option String := none
  message : String := ""
deriving DecidableEq, Inhabited

-- A missing manifest is null.
structure Package where
  raw : Json := .null
  summary : PackageSummary := {}
deriving Inhabited

namespace PackageSummary

-- An address is a text or the `url` of an object.
def address? (raw : Json) (key : String) : Option String :=
  match raw.get? key with
  | some (.string url) => some url
  | some value => (value.get? "url").bind Json.asString?
  | none => none

def line (label : String) : Option String → List String
  | none => []
  | some value => [label ++ ": " ++ value]

-- The fields that are present, one a line.
def describe (s : PackageSummary) : String :=
  "\n".intercalate (line "name" s.name ++ line "version" s.version ++
    line "description" s.description ++ line "homepage" s.homepage ++
    line "repository" s.repository ++ line "bugs" s.bugsUrl)

def ofManifest (raw : Json) : PackageSummary :=
  let text (key : String) : Option String := (raw.get? key).bind Json.asString?
  let fields : PackageSummary :=
    { name := text "name", version := text "version", description := text "description"
      homepage := text "homepage", repository := address? raw "repository"
      bugsUrl := address? raw "bugs" }
  { fields with message := fields.describe }

def toJson (s : PackageSummary) : Json :=
  .object [("name", .ofString? s.name), ("version", .ofString? s.version),
    ("description", .ofString? s.description), ("homepage", .ofString? s.homepage),
    ("repository", .ofString? s.repository), ("bugsUrl", .ofString? s.bugsUrl),
    ("formattedMessage", .string s.message)]

end PackageSummary

namespace Package

def name? (package : Package) : Option String := (package.raw.get? "name").bind Json.asString?

def main? (package : Package) : Option String := (package.raw.get? "main").bind Json.asString?

def isMissing (package : Package) : Bool := package.raw.isNull

end Package

end DocPipeline
