import DocPipeline.Failure.Basic

namespace DocPipeline

def version : String := "0.1.0"

def appName : String := "tjsdoc"

inductive Verdict where
  | configInvalid
  | collaborator (blame : Blame)
  | unknown
deriving DecidableEq, Inhabited

structure Report where
  verdict : Verdict
  message : String
deriving DecidableEq, Inhabited

structure Reporter where
  fullTrace : Bool := false
  packageMessage : String := ""
deriving Inhabited

def fatalExitCode : Nat := 1

namespace Reporter

def rule : String := String.ofList (List.replicate 95 '-')

def header (blame : Blame) : String :=
  if blame.isBuiltin then
    "An uncaught fatal error has been detected with a TJSDoc module.\n" ++
    "Please report this error to the TJSDoc issues forum after checking if a similar report " ++
    "already exists:"
  else
    "An uncaught fatal error has been detected with an external module.\n" ++
    "Please report this error to any issues forum after checking if a similar report " ++
    "already exists:"

def details (reporter : Reporter) (failure : Failure) : String :=
  if reporter.fullTrace then failure.details else failure.summary

-- The diagnostic for a failure that ends a run. An invalid configuration anywhere among the causes
-- comes first; otherwise the failure is put down to the outermost collaborator, unless the whole
-- trace was asked for.
def verdict (reporter : Reporter) (failure : Failure) : Verdict :=
  if failure.concernsConfig then .configInvalid
  else if reporter.fullTrace then .unknown
  else match failure.blame? with
    | some blame => .collaborator blame
    | none => .unknown

def message (reporter : Reporter) (failure : Failure) : String :=
  match reporter.verdict failure with
  | .configInvalid =>
    "The provided config file failed validation; tjsdoc (" ++ version ++ "): " ++
      reporter.details failure
  | .collaborator blame =>
    let package := if reporter.packageMessage = "" then "" else reporter.packageMessage ++ "\n"
    header blame ++ "\n" ++ rule ++ "\nmodule: " ++ blame.message ++ "\n" ++ package ++
      "tjsdoc version: " ++ version ++ "\n" ++ rule ++ "\n" ++ reporter.details failure
  | .unknown =>
    "An unknown fatal error has occurred; tjsdoc (" ++ version ++ "): " ++ reporter.details failure

def report (reporter : Reporter) (failure : Failure) : Report :=
  ⟨reporter.verdict failure, reporter.message failure⟩

-- Logs the diagnostic and gives the exit status.
def handle (reporter : Reporter) (failure : Failure) : Logged Nat := do
  note .error (reporter.message failure)
  return fatalExitCode

end Reporter

end DocPipeline
