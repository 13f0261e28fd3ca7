import DocPipeline.Failure.Basic
import DocPipeline.Json.Reader
import DocPipeline.Tree.Basic
import DocPipeline.Yaml.Value

namespace DocPipeline

-- Adds a context to a failure of the file system.
def IoError.failure (e : IoError) (context : String) : Failure :=
  (Failure.text e.message).note context

namespace Config

def conventionalNames : List String :=
  [".tjsdocrc", ".tjsdocrc.json", ".tjsdocrc.yaml", ".tjsdocrc.yml", ".tjsdoc.json", ".tjsdoc.yaml"]

-- The field of the package manifest that may hold a configuration.
def packageField : String := "tjsdoc"

-- Where a configuration was found.
inductive Source where
  | explicit (path : Path)
  | conventional (path : Path)
  | manifest (path : Path)
deriving DecidableEq, Inhabited

namespace Source

def display : Source → String
  | explicit path => path.text
  | conventional path => path.text
  | manifest path => path.text ++ " (" ++ packageField ++ ")"

def kind : Source → String
  | explicit _ => "explicit"
  | conventional _ => "conventional"
  | manifest _ => "packageJson"

end Source

inductive Format where
  | json
  | yaml
  | script
  | either
deriving DecidableEq, Inhabited

def Format.ofPath (path : Path) : Format :=
  match path.extension? with
  | some "json" => json
  | some "yaml" | some "yml" => yaml
  | some "js" | some "cjs" | some "mjs" => script
  | _ => either

def unreadable : Failure := .text "the text is malformed"

def Format.parse (format : Format) (path : Path) (text : String) : Except Failure Json :=
  let required (value : Option Json) (context : String) : Except Failure Json :=
    match value with
    | some value => .ok value
    | none => .error (unreadable.note (context ++ path.text))
  match format with
  | json => required (Json.parseCommented? text) "Failed to parse JSON config: "
  | yaml => required (Yaml.parse? text) "Failed to parse YAML config: "
  | script => .error (.text ("JavaScript config files are not supported: " ++ path.text))
  | either =>
    required ((Json.parseCommented? text).orElse fun _ => Yaml.parse? text)
      "Failed to parse config as JSON or YAML: "

-- Reads a configuration file.
def readFile (tree : Tree) (path : Path) : Except Failure Json :=
  match tree.readText path with
  | .error e => .error (e.failure ("Failed to read config: " ++ path.text))
  | .ok text => (Format.ofPath path).parse path text

def readEvent (path : Path) : Event := ⟨.info, "Loaded config from " ++ path.text⟩

def load (tree : Tree) (path : Path) : Act Json := do
  let value ← Act.ofExcept (readFile tree path)
  noteAll [readEvent path]
  return value

def conventional? (tree : Tree) (dir : Path) : Option Path :=
  (conventionalNames.map fun name => dir.join ⟨name⟩).find? tree.isFile

-- The configuration in a package manifest, if the manifest exists and has one.
def readManifest (tree : Tree) (path : Path) : Except Failure (Option Json) :=
  if tree.isFile path then
    match tree.readText path with
    | .error e => .error (e.failure ("Failed to read package manifest: " ++ path.text))
    | .ok text =>
      match Json.parseCommented? text with
      | none => .error (unreadable.note ("Failed to parse package manifest: " ++ path.text))
      | some manifest => .ok (manifest.get? packageField)
  else .ok none

-- The configuration of a working directory with the place where it was found. A file named on the
-- command line must exist; otherwise the first of the conventional names counts, and then a field
-- of the package manifest. The extension of a file's name tells its format; without a known one
-- JSON is tried before YAML.
def locate (tree : Tree) (dir : Path) (explicit : Option Path) : Act (Option (Json × Source)) := do
  match explicit with
  | some path =>
    let path := dir.join path
    return some (← load tree path, .explicit path)
  | none =>
    match conventional? tree dir with
    | some path => return some (← load tree path, .conventional path)
    | none =>
      let path := dir.join ⟨"package.json"⟩
      let found ← Act.ofExcept (readManifest tree path)
      return found.map (·, .manifest path)

end Config

end DocPipeline
