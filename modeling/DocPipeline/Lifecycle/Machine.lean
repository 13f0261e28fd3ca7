import DocPipeline.Failure.Basic
import DocPipeline.Json.Basic

namespace DocPipeline

structure Step where
  source : Stage
  target : Stage
deriving DecidableEq, Inhabited

-- The current stage of a run with the steps that led to it, the latest first.
structure Machine where
  current : Stage := .init
  steps : List Step := []
deriving Inhabited

def Step.toJson (step : Step) : Json := .strings [step.source.name, step.target.name]

namespace Machine

def history (machine : Machine) : List Step := machine.steps.reverse

-- A step that is not allowed changes nothing.
def move (machine : Machine) (target : Stage) : Except Failure Machine :=
  if machine.current = .terminated then .error .terminated
  else if machine.current.mayPrecede target then
    .ok ⟨target, ⟨machine.current, target⟩ :: machine.steps⟩
  else .error (.illegalStep machine.current target)

def stepEvent (step : Step) : Event :=
  ⟨.debug, "lifecycle: " ++ step.source.name ++ " -> " ++ step.target.name⟩

end Machine

end DocPipeline
