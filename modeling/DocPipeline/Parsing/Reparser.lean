import DocPipeline.Parsing.Assembly

namespace DocPipeline

structure Reparser where
  plan : Plan
  runtime : Runtime
  package : Package
deriving Inhabited

namespace Reparser

-- Parsing one file again, outside a pass. The path may be absolute or relative to the working
-- directory, in any spelling. The records are handed out and not stored; a failure is handed out
-- too.
def parse (reparser : Reparser) (tree : Tree) (path : Path) : Assembling (List Record) := do
  let sources := Sources.of tree reparser.plan reparser.runtime reparser.package
  match (← Assembly.parseSource sources .propagate (.ofFile reparser.plan.dir path)) with
  | none => return []
  | some parsed => return parsed.records

def debugText (reparser : Reparser) : String :=
  "FileReparser \x7b runtime: " ++ Text.quoted reparser.runtime.name ++ ", dir_path: " ++
    Text.quoted reparser.plan.dir.text ++ " \x7d"

end Reparser

end DocPipeline
