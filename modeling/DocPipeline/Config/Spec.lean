import DocPipeline.Json.Basic

namespace DocPipeline

-- Source locations: directories, files or glob patterns.
inductive SourceSpec where
  | one (pattern : String)
  | many (patterns : List String)
deriving DecidableEq, Inhabited

namespace SourceSpec

def patterns : SourceSpec → List String
  | one pattern => [pattern]
  | many patterns => patterns

def isEmpty : SourceSpec → Bool
  | one pattern => pattern == ""
  | many patterns => patterns.isEmpty

def ofJson? : Json → Option SourceSpec
  | .string pattern => some (one pattern)
  | value => (value.asStrings?).map many

def toJson : SourceSpec → Json
  | one pattern => .string pattern
  | many patterns => .strings patterns

end SourceSpec

-- A collaborator by its bare name, or with options of its own.
inductive CollaboratorSpec where
  | bare (name : String)
  | described (name : String) (options : Option Json)
deriving Inhabited

namespace CollaboratorSpec

def name : CollaboratorSpec → String
  | bare name => name
  | described name _ => name

-- Options of its own win over those that the configuration gives beside it.
def options (spec : CollaboratorSpec) (fallback : Option Json) : Option Json :=
  match spec with
  | bare _ => fallback
  | described _ options => options.orElse fun _ => fallback

def ofJson? : Json → Option CollaboratorSpec
  | .string name => some (bare name)
  | value => do
    let entries ← Json.fields? ["name", "options"] value
    let name ← (Json.lookup "name" entries).bind Json.asString?
    let options ← Json.fieldD? entries "options" (Json.optional? some) none
    return described name options

def toJson : CollaboratorSpec → Json
  | bare name => .string name
  | described name options =>
    .object (("name", .string name) :: match options with
      | none => []
      | some options => [("options", options)])

end CollaboratorSpec

inductive LogLevel where
  | off
  | fatal
  | error
  | warn
  | info
  | verbose
  | debug
  | trace
deriving DecidableEq, Inhabited

namespace LogLevel

def all : List LogLevel := [off, fatal, error, warn, info, verbose, debug, trace]

def name : LogLevel → String
  | off => "off"
  | fatal => "fatal"
  | error => "error"
  | warn => "warn"
  | info => "info"
  | verbose => "verbose"
  | debug => "debug"
  | trace => "trace"

-- The level that is asked of the log, where some names mean the same.
def directive : LogLevel → String
  | off => "off"
  | fatal | error => "error"
  | warn => "warn"
  | info => "info"
  | verbose | debug => "debug"
  | trace => "trace"

def debugName : LogLevel → String
  | off => "Off"
  | fatal => "Fatal"
  | error => "Error"
  | warn => "Warn"
  | info => "Info"
  | verbose => "Verbose"
  | debug => "Debug"
  | trace => "Trace"

-- A level is its name, or an object with the name as its only key and null as the value.
def ofJson? : Json → Option LogLevel
  | .string name => all.find? (·.name == name)
  | .object [(name, .null)] => all.find? (·.name == name)
  | _ => none

def toJson (level : LogLevel) : Json := .string level.name

end LogLevel

end DocPipeline
