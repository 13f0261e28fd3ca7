import DocPipeline.Registry
import DocPipeline.Tree.Edit

namespace DocPipeline

-- The publisher that comes with the program. It writes the database as one JSON document into the
-- destination, and adds a link to that document before it writes it.
structure JsonPublisher where
  fileName : String := "docData.json"
  pretty : Bool := true
deriving DecidableEq, Inhabited

namespace JsonPublisher

def name : String := "tjsdoc-publisher-json"

def ofJson? (value : Json) : Option JsonPublisher := do
  let entries ← Json.fields? ["fileName", "pretty"] value
  let fileName ← Json.fieldD? entries "fileName" Json.asString? "docData.json"
  let pretty ← Json.fieldD? entries "pretty" Json.asBool? true
  return { fileName, pretty }

def ofOptions : Option Json → Except Failure JsonPublisher
  | none => .ok {}
  | some value =>
    match ofJson? value with
    | some publisher => .ok publisher
    | none => .error ((Failure.text "a field has the wrong type").note
        "Invalid JSON publisher options")

def document (plan : Plan) (package : Package) (links : List MenuLink) (db : Database) : Json :=
  .object [("title", .ofString? (plan.title.orElse fun _ => package.summary.name)),
    ("package", package.summary.toJson), ("menuLinks", .array (links.map MenuLink.toJson)),
    ("docs", db.toJson)]

def render (publisher : JsonPublisher) (document : Json) : String :=
  if publisher.pretty then document.toPrettyText else document.toText

def target (publisher : JsonPublisher) (plan : Plan) : Path :=
  plan.destination.join ⟨publisher.fileName⟩

-- Writes a file into a directory that is created when it is missing.
def writeInto (tree : Tree) (dir file : Path) (text : String) : Tree × Except Failure Unit :=
  match tree.createDirectories dir with
  | (tree, some e) => (tree, .error (e.failure ("Failed to create destination: " ++ dir.text)))
  | (tree, none) =>
    match tree.write file text with
    | .ok tree => (tree, .ok ())
    | .error e => (tree, .error (e.failure ("Failed to write " ++ file.text)))

def publish {ε : Type} (publisher : JsonPublisher) : Publisher ε := fun plan package => do
  let state := (← Conduct.payload).addMenuLink "Doc Data" publisher.fileName
  Conduct.edit state (Conduct.done ())
  let text := publisher.render (document plan package state.menuLinks (← Conduct.store).db)
  let (tree, result) := writeInto (← Conduct.tree) plan.destination (publisher.target plan) text
  Conduct.setTree tree (Conduct.ofExcept result)
  Conduct.note ⟨.info, "output: " ++ (publisher.target plan).text⟩ (Conduct.done ())

end JsonPublisher

end DocPipeline
