namespace DocPipeline.CommandLine

inductive Key where
  | config
  | logDir
  | logJson
  | debug
  | version
  | help
deriving DecidableEq, Inhabited

namespace Key

def all : List Key := [config, logDir, logJson, debug, version, help]

def short : Key → Option Char
  | config => some 'c'
  | version => some 'v'
  | help => some 'h'
  | _ => none

def long : Key → String
  | config => "config"
  | logDir => "log-dir"
  | logJson => "log-json"
  | debug => "debug"
  | version => "version"
  | help => "help"

-- What stands for the value of an option that takes one.
def value? : Key → Option String
  | config => some "PATH"
  | logDir => some "DIR"
  | _ => none

def ofShort? (c : Char) : Option Key := all.find? fun key => key.short == some c

def ofLong? (name : String) : Option Key := all.find? fun key => key.long == name

def text (key : Key) : String :=
  "--" ++ key.long ++ match key.value? with
    | some value => " <" ++ value ++ ">"
    | none => ""

end Key

structure Arguments where
  config : Option String := none
  logDir : Option String := none
  logJson : Bool := false
  debug : Bool := false
deriving DecidableEq, Inhabited

-- What ends the reading before its end.
inductive Stop where
  | help
  | version
  | refused (message : String)
deriving DecidableEq, Inhabited

namespace Stop

def unexpected (argument : String) : Stop :=
  refused ("unexpected argument '" ++ argument ++ "' found")

def unexpectedValue (key : Key) (value : String) : Stop :=
  refused ("unexpected value '" ++ value ++ "' for '" ++ key.text ++
    "' found; no more were expected")

def valueMissing (key : Key) : Stop :=
  refused ("a value is required for '" ++ key.text ++ "' but none was supplied")

def repeated (key : Key) : Stop :=
  refused ("the argument '" ++ key.text ++ "' cannot be used multiple times")

end Stop

-- What was read so far. An option whose value may be in the next argument is pending, and it stays
-- pending with its value until the next option.
structure Reading where
  arguments : Arguments := {}
  seen : List Key := []
  pending : Option (Key × Option String) := none
deriving Inhabited

namespace Reading

def mark (r : Reading) (key : Key) : Except Stop Reading :=
  if key ∈ r.seen then .error (.repeated key) else .ok { r with seen := key :: r.seen }

def setValue (r : Reading) (key : Key) (value : String) : Except Stop Reading := do
  let r ← r.mark key
  return { r with arguments := match key with
    | .config => { r.arguments with config := some value }
    | .logDir => { r.arguments with logDir := some value }
    | _ => r.arguments }

def settle (r : Reading) : Except Stop Reading :=
  match r.pending with
  | none => .ok r
  | some (key, none) => .error (.valueMissing key)
  | some (key, some value) => { r with pending := none }.setValue key value

def setFlag (r : Reading) (key : Key) : Except Stop Reading := do
  let r ← r.settle
  match key with
  | .help => throw .help
  | .version => throw .version
  | .logJson => return { ← r.mark key with arguments := { r.arguments with logJson := true } }
  | .debug => return { ← r.mark key with arguments := { r.arguments with debug := true } }
  | _ => return r

-- An option that takes a value, with the value attached to it.
def setOption (r : Reading) (key : Key) (value : Option String) : Except Stop Reading := do
  let r ← r.settle
  match value with
  | some value => r.setValue key value
  | none => return { r with pending := some (key, none) }

def readLong (r : Reading) (text : List Char) : Except Stop Reading :=
  let name := String.ofList (text.takeWhile (· != '='))
  let value := match text.dropWhile (· != '=') with
    | [] => none
    | _ :: rest => some (String.ofList rest)
  match Key.ofLong? name with
  | none => .error (.unexpected ("--" ++ name))
  | some key =>
    if key.value?.isSome then r.setOption key value
    else match value with
      | some value => .error (.unexpectedValue key value)
      | none => r.setFlag key

-- The value attached to a short option, where an equals sign may come first.
def attached : List Char → Option String
  | [] => none
  | '=' :: rest => some (String.ofList rest)
  | rest => some (String.ofList rest)

-- Several short options in one argument; the first that takes a value takes what follows it.
def readShort (r : Reading) : List Char → Except Stop Reading
  | [] => .ok r
  | c :: rest =>
    match Key.ofShort? c with
    | none => .error (.unexpected (String.ofList ['-', c]))
    | some key =>
      if key.value?.isSome then r.setOption key (attached rest)
      else do (← r.setFlag key).readShort rest

-- An argument that is no option is the value of the option before it, or a mistake.
def readValue (r : Reading) (argument : String) : Except Stop Reading :=
  match r.pending with
  | some (key, none) => .ok { r with pending := some (key, some argument) }
  | _ => .error (.unexpected argument)

def readArgument (r : Reading) (argument : String) : Except Stop Reading :=
  match argument.toList with
  | '-' :: '-' :: rest => r.readLong rest
  | '-' :: c :: rest => r.readShort (c :: rest)
  | _ => r.readValue argument

-- After `--` no argument is an option.
def readAll (r : Reading) : List String → Except Stop Reading
  | [] => r.settle
  | argument :: rest =>
    if argument = "--" then
      match rest with
      | [] => r.settle
      | extra :: _ => .error (.unexpected extra)
    else do (← r.readArgument argument).readAll rest

end Reading

-- From the first argument to the last. The options for help and for the version end the reading at
-- once, and so does the first mistake. An option that takes a value may have it attached, or in the
-- next argument unless that looks like an option. The directory for log files may also come from
-- the environment.
def Arguments.parse (arguments : List String) (logDirEnv : Option String) :
    Except Stop Arguments := do
  let r ← Reading.readAll {} arguments
  return { r.arguments with logDir := r.arguments.logDir.orElse fun _ => logDirEnv }

end DocPipeline.CommandLine
