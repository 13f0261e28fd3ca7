import DocPipeline.Plugin.Dispatcher

namespace DocPipeline

-- Publishes the store; the run state may be edited.
abbrev Publisher (ε : Type) := Plan → Package → Conduct ε RunState Unit

abbrev Factory (ε α : Type) := Option Json → Conduct ε Unit α

-- The collaborators that configurations may name. A name stands for a factory, which is given the
-- options of the configuration. Registering a name again puts another factory in its place.
structure Registry (ε : Type) where
  runtimes : Dict (Factory ε Runtime) := .empty
  publishers : Dict (Factory ε (Publisher ε)) := .empty
  plugins : Dict (Factory ε (Plugin ε)) := .empty
deriving Inhabited

namespace Registry

variable {ε α : Type}

def unknownReason : String := "no collaborator registered under this name"

-- Makes what a name stands for. Whatever the cause of a failure, it is told as one reason.
def make (factories : Dict (Factory ε α)) (kind : CollaboratorKind) (spec : CollaboratorSpec)
    (options : Option Json) : Work ε α := do
  match factories.get? spec.name with
  | none => throw (.load kind spec.name unknownReason)
  | some factory =>
    tryCatch (factory (spec.options options)).perform fun failure =>
      throw (.load kind spec.name failure.summary)

def loadRuntime (registry : Registry ε) (spec : CollaboratorSpec) (options : Option Json) :
    Work ε Runtime :=
  make registry.runtimes .runtime spec options

def loadPublisher (registry : Registry ε) (spec : CollaboratorSpec) (options : Option Json) :
    Work ε (Publisher ε) :=
  make registry.publishers .publisher spec options

def loadPlugin (registry : Registry ε) (spec : CollaboratorSpec) : Work ε (Plugin ε) :=
  make registry.plugins .plugin spec none

def addRuntime (registry : Registry ε) (name : String) (factory : Factory ε Runtime) :
    Registry ε :=
  { registry with runtimes := registry.runtimes.insert name factory }

def addPublisher (registry : Registry ε) (name : String) (factory : Factory ε (Publisher ε)) :
    Registry ε :=
  { registry with publishers := registry.publishers.insert name factory }

def addPlugin (registry : Registry ε) (name : String) (factory : Factory ε (Plugin ε)) :
    Registry ε :=
  { registry with plugins := registry.plugins.insert name factory }

end Registry

end DocPipeline
