import DocPipeline.Config.Spec
import DocPipeline.Path.Basic

namespace DocPipeline

def defaultInclude : String := "\\.(js|jsm|jsx)$"

def defaultPublisher : String := "tjsdoc-publisher-json"

structure TestSettings where
  type : String := ""
  source : Option SourceSpec := none
  sourceFiles : Option (List String) := none
  includes : List String := [defaultInclude]
  excludes : List String := []
deriving DecidableEq, Inhabited

-- Settings: a configuration with its defaults filled in, before it is checked against a working
-- directory. Plugins may edit it. Its JSON form leaves out what is not set, and reading that form
-- gives the same settings again.
structure Settings where
  source : Option SourceSpec := none
  sourceFiles : Option (List String) := none
  destination : String := "./docs"
  includes : List String := [defaultInclude]
  excludes : List String := []
  test : Option TestSettings := none
  runtime : Option CollaboratorSpec := none
  runtimeOptions : Option Json := none
  publisher : CollaboratorSpec := .bare defaultPublisher
  publisherOptions : Option Json := none
  plugins : List CollaboratorSpec := []
  package : String := "./package.json"
  includeSource : Bool := true
  emptyDestination : Bool := false
  docCoverage : Bool := true
  fullStackTrace : Bool := false
  logLevel : LogLevel := .info
  title : Option String := none
  index : String := "./README.md"
  -- Other keys, in increasing order.
  extra : List (String × Json) := []
deriving Inhabited

-- The entry of a value that is set.
def entryOf {α : Type} (key : String) (toJson : α → Json) : Option α → List (String × Json)
  | none => []
  | some value => [(key, toJson value)]

namespace TestSettings

def keys : List String := ["type", "source", "sourceFiles", "includes", "excludes"]

def ofJson? (value : Json) : Option TestSettings := do
  let entries ← Json.fields? keys value
  let type ← Json.fieldD? entries "type" Json.asString? ""
  let source ← Json.fieldD? entries "source" (Json.optional? SourceSpec.ofJson?) none
  let sourceFiles ← Json.fieldD? entries "sourceFiles" (Json.optional? Json.asStrings?) none
  let includes ← Json.fieldD? entries "includes" Json.asStrings? [defaultInclude]
  let excludes ← Json.fieldD? entries "excludes" Json.asStrings? []
  return { type, source, sourceFiles, includes, excludes }

def toJson (test : TestSettings) : Json :=
  .object ([("type", .string test.type)] ++ entryOf "source" SourceSpec.toJson test.source ++
    entryOf "sourceFiles" Json.strings test.sourceFiles ++
    [("includes", .strings test.includes), ("excludes", .strings test.excludes)])

end TestSettings

namespace Settings

def keys : List String :=
  ["source", "sourceFiles", "destination", "includes", "excludes", "test", "runtime",
   "runtimeOptions", "publisher", "publisherOptions", "plugins", "package", "includeSource",
   "emptyDestination", "docCoverage", "fullStackTrace", "logLevel", "title", "index"]

def specs? : Json → Option (List CollaboratorSpec)
  | .array items => items.mapM CollaboratorSpec.ofJson?
  | _ => none

def ofJson? : Json → Option Settings
  | .object entries => do
    let source ← Json.fieldD? entries "source" (Json.optional? SourceSpec.ofJson?) none
    let sourceFiles ← Json.fieldD? entries "sourceFiles" (Json.optional? Json.asStrings?) none
    let destination ← Json.fieldD? entries "destination" Json.asString? "./docs"
    let includes ← Json.fieldD? entries "includes" Json.asStrings? [defaultInclude]
    let excludes ← Json.fieldD? entries "excludes" Json.asStrings? []
    let test ← Json.fieldD? entries "test" (Json.optional? TestSettings.ofJson?) none
    let runtime ← Json.fieldD? entries "runtime" (Json.optional? CollaboratorSpec.ofJson?) none
    let runtimeOptions ← Json.fieldD? entries "runtimeOptions" (Json.optional? some) none
    let publisher ← Json.fieldD? entries "publisher" CollaboratorSpec.ofJson?
      (.bare defaultPublisher)
    let publisherOptions ← Json.fieldD? entries "publisherOptions" (Json.optional? some) none
    let plugins ← Json.fieldD? entries "plugins" specs? []
    let package ← Json.fieldD? entries "package" Json.asString? "./package.json"
    let includeSource ← Json.fieldD? entries "includeSource" Json.asBool? true
    let emptyDestination ← Json.fieldD? entries "emptyDestination" Json.asBool? false
    let docCoverage ← Json.fieldD? entries "docCoverage" Json.asBool? true
    let fullStackTrace ← Json.fieldD? entries "fullStackTrace" Json.asBool? false
    let logLevel ← Json.fieldD? entries "logLevel" LogLevel.ofJson? .info
    let title ← Json.fieldD? entries "title" (Json.optional? Json.asString?) none
    let index ← Json.fieldD? entries "index" Json.asString? "./README.md"
    let extra := entries.filter fun entry => !keys.contains entry.1
    return { source, sourceFiles, destination, includes, excludes, test, runtime, runtimeOptions,
             publisher, publisherOptions, plugins, package, includeSource, emptyDestination,
             docCoverage, fullStackTrace, logLevel, title, index, extra }
  | _ => none

def toJson (s : Settings) : Json :=
  .object (entryOf "source" SourceSpec.toJson s.source ++
    entryOf "sourceFiles" Json.strings s.sourceFiles ++
    [("destination", .string s.destination), ("includes", .strings s.includes),
     ("excludes", .strings s.excludes)] ++
    entryOf "test" TestSettings.toJson s.test ++
    entryOf "runtime" CollaboratorSpec.toJson s.runtime ++
    entryOf "runtimeOptions" id s.runtimeOptions ++
    [("publisher", s.publisher.toJson)] ++
    entryOf "publisherOptions" id s.publisherOptions ++
    [("plugins", .array (s.plugins.map CollaboratorSpec.toJson)), ("package", .string s.package),
     ("includeSource", .bool s.includeSource), ("emptyDestination", .bool s.emptyDestination),
     ("docCoverage", .bool s.docCoverage), ("fullStackTrace", .bool s.fullStackTrace),
     ("logLevel", s.logLevel.toJson)] ++
    entryOf "title" Json.string s.title ++
    [("index", .string s.index)] ++ s.extra)

-- Puts a value at a key of the JSON form, or takes the key away.
def edit? (s : Settings) (key : String) (value : Option Json) : Option Settings :=
  match s.toJson.canonical with
  | .object entries =>
    ofJson? (.object (match value with
      | some value => Json.insert key value entries
      | none => Json.erase key entries))
  | _ => none

end Settings

end DocPipeline
