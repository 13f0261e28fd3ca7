import DocPipeline.Config.Extends
import DocPipeline.Config.Settings
import DocPipeline.Discovery.Filter
import DocPipeline.RunState
import DocPipeline.Text.Blank

namespace DocPipeline

structure TestPlan where
  type : String
  source : Option SourceSpec
  filter : Filter
deriving Inhabited

-- The configuration of one run, which nothing changes any more.
structure Plan where
  dir : Path
  source : Option SourceSpec := none
  destination : Path
  filter : Filter
  test : Option TestPlan := none
  runtime : CollaboratorSpec
  runtimeOptions : Option Json := none
  publisher : CollaboratorSpec
  publisherOptions : Option Json := none
  plugins : List CollaboratorSpec := []
  package : Path
  includeSource : Bool
  emptyDestination : Bool
  docCoverage : Bool
  fullStackTrace : Bool
  logLevel : LogLevel
  title : Option String := none
  index : Path
  extra : List (String × Json) := []
deriving Inhabited

def isBlankName (name : String) : Bool := Text.allBlank name

-- There is nothing to take sources from.
def lacksSource (source : Option SourceSpec) (files : Option (List String)) : Bool :=
  files.isNone && (source.all SourceSpec.isEmpty)

namespace Settings

def invalid {α : Type} (message : String) : Except Failure α := .error (.invalidConfig message)

def checkName (spec : CollaboratorSpec) (key : String) : Except Failure Unit :=
  if isBlankName spec.name then invalid ("'" ++ key ++ "' names an empty module") else .ok ()

def checkTest (test : TestSettings) : Except Failure Unit :=
  if test.type = "" then invalid "'test.type' is not defined"
  else if lacksSource test.source test.sourceFiles then
    invalid "'test.source' or 'test.sourceFiles' is not defined"
  else .ok ()

-- What must hold of settings whether they were just loaded or edited since.
def validate (s : Settings) : Except Failure Unit := do
  match s.runtime with
  | none => invalid "'runtime' is required"
  | some spec => checkName spec "runtime"
  checkName s.publisher "publisher"
  s.plugins.forM fun spec => checkName spec "plugins"
  match s.test with
  | none => return
  | some test => checkTest test

def isNamed : Json → Bool
  | .string _ => true
  | .object entries => ((Json.lookup "name" entries).bind Json.asString?).isSome
  | _ => false

def checkShape (value : Json) : Except Failure Unit :=
  ["runtime", "publisher"].forM fun key =>
    if (value.get? key).all isNamed then .ok ()
    else invalid ("'" ++ key ++ "' must be a string or an object with a 'name'")

def ofValue (value : Json) : Except Failure Settings := do
  checkShape value
  let settings ← match ofJson? value with
    | some settings => Except.ok settings
    | none => invalid "config is malformed: a field has the wrong type"
  settings.validate
  return settings

-- Checks the value's shape, expands the parents and fills in the defaults.
def load (tree : Tree) (dir : Path) (raw : Json) : Act Settings := do
  match raw with
  | .object _ => Act.ofExcept (ofValue (← Config.expand tree dir raw))
  | _ => throw (.invalidConfig "config must be an object")

def absoluteFiles (dir : Path) (files : Option (List String)) : Option (List Path) :=
  files.map fun files => files.map fun file => Path.absolutize dir ⟨file⟩

def planTest (test : TestSettings) : Except Failure TestPlan := do
  return ⟨test.type, test.source, ← Filter.compile test.includes test.excludes⟩

-- Settings may have been edited since they were loaded, so they are checked again. The patterns are
-- read, and every path is resolved against the working directory.
def plan (s : Settings) (dir : Path) : Except Failure (Plan × RunState) := do
  s.validate
  if lacksSource s.source s.sourceFiles then invalid "'source' or 'sourceFiles' is not defined"
  let filter ← Filter.compile s.includes s.excludes
  let test ← s.test.mapM planTest
  let runtime ← match s.runtime with
    | some runtime => Except.ok runtime
    | none => invalid "'runtime' is required"
  let state : RunState :=
    { sourceFiles := absoluteFiles dir s.sourceFiles
      testFiles := s.test.bind fun test => absoluteFiles dir test.sourceFiles }
  return ({ dir, source := s.source, destination := dir.absolutize ⟨s.destination⟩, filter, test,
            runtime, runtimeOptions := s.runtimeOptions, publisher := s.publisher,
            publisherOptions := s.publisherOptions, plugins := s.plugins,
            package := dir.absolutize ⟨s.package⟩, includeSource := s.includeSource,
            emptyDestination := s.emptyDestination, docCoverage := s.docCoverage,
            fullStackTrace := s.fullStackTrace, logLevel := s.logLevel, title := s.title,
            index := dir.absolutize ⟨s.index⟩, extra := s.extra }, state)

end Settings

namespace Plan

def event (plan : Plan) : Event :=
  ⟨.debug, "config resolved: destination=" ++ plan.destination.text ++ ", " ++
    toString plan.filter.includes.length ++ " includes, " ++
    toString plan.filter.excludes.length ++ " excludes"⟩

def ofSettings (settings : Settings) (dir : Path) : Act (Plan × RunState) := do
  let result ← Act.ofExcept (settings.plan dir)
  noteAll [result.1.event]
  return result

def patternsJson (filter : Filter) : List (String × Json) :=
  [("includes", .strings (filter.includes.map (·.source))),
   ("excludes", .strings (filter.excludes.map (·.source)))]

def sourceJson (source : Option SourceSpec) : Json :=
  RunState.listToJson (source.map SourceSpec.patterns)

def testJson : Option TestPlan → Json
  | none => .null
  | some test => .object ([("type", .string test.type), ("source", sourceJson test.source)] ++
      patternsJson test.filter)

def toJson (plan : Plan) : Json :=
  .object ([("dirPath", .string plan.dir.text), ("source", sourceJson plan.source),
    ("destination", .string plan.destination.text)] ++ patternsJson plan.filter ++
    [("test", testJson plan.test), ("runtime", plan.runtime.toJson),
     ("runtimeOptions", .ofOption plan.runtimeOptions), ("publisher", plan.publisher.toJson),
     ("publisherOptions", .ofOption plan.publisherOptions),
     ("plugins", .array (plan.plugins.map CollaboratorSpec.toJson)),
     ("package", .string plan.package.text), ("includeSource", .bool plan.includeSource),
     ("emptyDestination", .bool plan.emptyDestination), ("docCoverage", .bool plan.docCoverage),
     ("fullStackTrace", .bool plan.fullStackTrace), ("logLevel", plan.logLevel.toJson),
     ("title", .ofString? plan.title), ("index", .string plan.index.text),
     ("extra", .object plan.extra)])

end Plan

end DocPipeline
