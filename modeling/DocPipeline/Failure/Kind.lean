import DocPipeline.Failure.Report
import DocPipeline.Json.Basic

namespace DocPipeline

namespace Failure

-- The kind of a layer that has one of its own.
def layerKind? : Failure → Option String
  | invalidConfig _ => some "ConfigValidation"
  | load .. => some "CollaboratorLoad"
  | terminated => some "Terminated"
  | illegalStep .. => some "InvalidTransition"
  | _ => none

-- The kind of a failure, for hosts that tell failures apart. A layer's own kind comes first, then
-- whether a file failed to parse or a collaborator failed.
def kind (failure : Failure) : String :=
  match failure.layers.findSome? layerKind? with
  | some kind => kind
  | none =>
    match failure.root with
    | parse .. => "FileParse"
    | _ => if failure.blame?.isSome then "CollaboratorFailure" else "Other"

def toJson (failure : Failure) : Json :=
  .object [("error", .string failure.kind), ("message", .string failure.summary)]

end Failure

-- The value, or the failure that came instead of one.
def Json.ofResult : Except Failure Json → Json
  | .ok value => value
  | .error failure => failure.toJson

namespace Verdict

def toJson : Verdict → Json
  | configInvalid => .string "ConfigInvalid"
  | unknown => .string "Unknown"
  | collaborator blame =>
    .object [("module", .string blame.collaborator), ("builtin", .bool blame.isBuiltin)]

end Verdict

def Report.toJson (report : Report) : Json :=
  .object [("kind", report.verdict.toJson), ("message", .string report.message),
    ("exit", .nat fatalExitCode)]

def Blame.toJson (blame : Blame) : Json :=
  .object [("module", .string blame.collaborator), ("stage", .string blame.stage),
    ("builtin", .bool blame.isBuiltin)]

end DocPipeline
