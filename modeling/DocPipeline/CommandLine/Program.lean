import DocPipeline.CommandLine.Arguments
import DocPipeline.Coordinator.Run

namespace DocPipeline.CommandLine

structure Invocation where
  arguments : List String
  -- The directory for log files that the environment names.
  logDirEnv : Option String
  -- The current date, which names the log file.
  date : String
  dir : Path
  tree : Tree

structure Exit where
  code : Nat
  -- What was logged to the console, and whether it is logged as JSON.
  events : List Event := []
  logsJson : Bool := false
  -- The lines printed after what was logged.
  lines : List String := []
  errors : List String := []
  tree : Tree

namespace Exit

def eventLine (logsJson : Bool) (event : Event) : String :=
  if logsJson then
    (Json.object [("level", .string event.level.name),
      ("fields", .object [("message", .string event.message)])]).toText
  else event.text

-- Everything that appears on the console.
def console (exit : Exit) : List String := exit.events.map (eventLine exit.logsJson) ++ exit.lines

end Exit

def programName : String := "tjsdoc"

-- The environment variable that names the directory for log files.
def logDirVariable : String := "TJSDOC_LOG_DIR"

def usage : String := "Usage: " ++ programName ++ " [OPTIONS]"

def helpLines (logDirEnv : Option String) : List String :=
  ["Generate API documentation",
   "",
   usage,
   "",
   "Options:",
   "  -c, --config <PATH>  Config file to use instead of the conventional locations",
   "      --log-dir <DIR>  Also write daily rotated log files into this directory " ++
     "[env: " ++ logDirVariable ++ "=" ++ logDirEnv.getD "" ++ "]",
   "      --log-json       Log to the console as JSON lines",
   "      --debug          Start at debug log level",
   "  -v, --version        Print version",
   "  -h, --help           Print help"]

def refusalLines (message : String) : List String :=
  ["error: " ++ message, "", usage, "", "For more information, try '--help'."]

def usageExitCode : Nat := 2

def Exit.ofStop (invocation : Invocation) : Stop → Exit
  | .help => { code := 0, lines := helpLines invocation.logDirEnv, tree := invocation.tree }
  | .version => { code := 0, lines := [programName ++ " " ++ version], tree := invocation.tree }
  | .refused message =>
    { code := usageExitCode, errors := refusalLines message, tree := invocation.tree }

def startEvents (arguments : Arguments) : List Event :=
  [⟨.info, "Logging initialized: dir=" ++ Text.quotedOption arguments.logDir ++ ", prefix=" ++
     programName ++ ", debug=" ++ toString arguments.debug ++ ", console=true, json=" ++
     toString arguments.logJson⟩,
   ⟨.info, "Starting " ++ appName ++ " v" ++ version⟩]

def exists? (tree : Tree) (path : Path) : Bool :=
  match tree.find path with
  | .ok _ => true
  | .error _ => false

-- Makes sure of the directory for log files.
def prepareLogDir (invocation : Invocation) (arguments : Arguments) : Tree × Except Failure Unit :=
  match arguments.logDir with
  | none => (invocation.tree, .ok ())
  | some name =>
    let path := invocation.dir.join ⟨name⟩
    if name = "" ∨ exists? invocation.tree path then (invocation.tree, .ok ())
    else
      match invocation.tree.createDirectories path with
      | (tree, none) => (tree, .ok ())
      | (tree, some e) => (tree, .error (e.failure ("Failed to create log directory: " ++ name)))

def logFile? (invocation : Invocation) (arguments : Arguments) : Option Path :=
  arguments.logDir.map fun name =>
    (invocation.dir.join ⟨name⟩).join ⟨programName ++ "." ++ invocation.date⟩

-- Adds text to a file.
def addText (tree : Tree) (path : Path) (text : String) : Tree :=
  let old := (tree.readText path).toOption.getD ""
  (tree.write path (old ++ text)).toOption.getD tree

-- The log file is there from the start.
def openLogFile (invocation : Invocation) (arguments : Arguments) (tree : Tree) : Tree :=
  match logFile? invocation arguments with
  | none => tree
  | some path => addText tree path ""

-- Everything that was logged goes to the log file too, unless the run has removed it.
def writeLogFile (invocation : Invocation) (arguments : Arguments) (tree : Tree)
    (events : List Event) : Tree :=
  match logFile? invocation arguments with
  | none => tree
  | some path =>
    if tree.isFile path then
      addText tree path (String.join (events.map fun event => event.text ++ "\n"))
    else tree

def coordinator (dir : Path) (tree : Tree) (log : Log) : Coordinator Unit :=
  { dir, registry := .builtin, setsLogLevel := true, world := { tree, log, host := () } }

-- How a run ended: the exit code, and whether help is to be printed.
structure Ending where
  code : Nat
  showsHelp : Bool := false

def fail (c : Coordinator Unit) (reporter : Reporter) (failure : Failure) :
    Ending × Coordinator Unit :=
  let (code, log) := (reporter.handle failure).run c.world.log
  (⟨code, false⟩, { c with world := { c.world with log } })

-- No plugin of this program asks to be kept alive, so there is one pass.
def runConfig (c : Coordinator Unit) (value : Json) : Ending × Coordinator Unit :=
  match c.generate 1 value with
  | none => (⟨0, false⟩, c)
  | some (.ok (), c) => (⟨0, false⟩, c.note ⟨.info, "Generation complete"⟩)
  | some (.error failure, c) => fail c c.reporter failure

def run (c : Coordinator Unit) (arguments : Arguments) : Ending × Coordinator Unit :=
  let located := Config.locate c.world.tree c.dir (arguments.config.map Path.mk)
  let (result, log) := located.run.run c.world.log
  let c := { c with world := { c.world with log } }
  match result with
  | .error failure => fail c {} failure
  | .ok none =>
    (⟨fatalExitCode, true⟩,
      c.note ⟨.error, "No config found: pass -c <path> or add a .tjsdocrc file"⟩)
  | .ok (some (value, source)) =>
    runConfig (c.note ⟨.info, "Using config: " ++ source.display⟩) value

-- From the arguments and the files to the exit code, the output and the files afterwards.
def execute (invocation : Invocation) : Exit :=
  match Arguments.parse invocation.arguments invocation.logDirEnv with
  | .error stop => .ofStop invocation stop
  | .ok arguments =>
    match prepareLogDir invocation arguments with
    | (tree, .error failure) => { code := fatalExitCode, errors := [failure.summary], tree }
    | (tree, .ok ()) =>
      let log : Log := ⟨some (if arguments.debug then .debug else .info), startEvents arguments⟩
      let tree := openLogFile invocation arguments tree
      let (ending, c) := run (coordinator invocation.dir tree log) arguments
      let events := c.world.log.events
      { code := ending.code, events, logsJson := arguments.logJson
        lines := if ending.showsHelp then helpLines invocation.logDirEnv else []
        tree := writeLogFile invocation arguments c.world.tree events }

end DocPipeline.CommandLine
