import DocPipeline.Discovery.Find
import DocPipeline.Failure.Report
import DocPipeline.Lifecycle.Machine
import DocPipeline.Publish.Json
import DocPipeline.Source.FileRuntime

namespace DocPipeline

-- What a run needs: the collaborators, the plugins, the stage, and the world in which the
-- collaborators work.
structure Coordinator (ε : Type) where
  dir : Path
  registry : Registry ε
  -- Plugins of the host, which come after those that the configuration names.
  waiting : List (Plugin ε) := []
  hydrator : Hydrator ε := fileHydrator
  format : Json → PackageSummary := PackageSummary.ofManifest
  -- Whether the configuration decides how much is logged.
  setsLogLevel : Bool := false
  dispatcher : Dispatcher ε := {}
  machine : Machine := {}
  plan : Option Plan := none
  packageMessage : Option String := none
  world : World ε

-- A step of a run. What it changed before it failed stays changed.
abbrev Flow (ε : Type) := ExceptT Failure (StateM (Coordinator ε))

namespace Registry

-- The collaborators that come with the program.
def builtin {ε : Type} : Registry ε :=
  { runtimes := .ofList [(FileRuntime.name, fun _ => .done fileRuntime)]
    publishers := .ofList [(JsonPublisher.name, fun options =>
      (Conduct.ofExcept (JsonPublisher.ofOptions options)).bind fun publisher =>
        .done publisher.publish)]
    plugins := .ofList [(Diagnostics.name, fun _ => .done (.diagnostics {}))] }

end Registry

namespace Coordinator

variable {ε : Type}

def stage (c : Coordinator ε) : Stage := c.machine.current

def note (c : Coordinator ε) (event : Event) : Coordinator ε :=
  { c with world := c.world.note event }

-- A handle for the host, as long as the run has not ended.
def handle (c : Coordinator ε) : Except Failure Handle × Coordinator ε :=
  if c.stage = .terminated then (.error .terminated, c)
  else
    let (signals, handle) := c.world.signals.mint
    (.ok handle, { c with world := { c.world with signals } })

def reporter (c : Coordinator ε) : Reporter :=
  ⟨c.plan.any (·.fullStackTrace), c.packageMessage.getD ""⟩

-- Releases the plugins and closes the channel.
def release (c : Coordinator ε) : Coordinator ε :=
  let log := c.world.log.addAll c.dispatcher.destroyEvents
  { c with dispatcher := c.dispatcher.destroy
           world := { c.world with log, signals := c.world.signals.close } }

-- Ends a run that failed. No hook is called.
def abort (c : Coordinator ε) : Coordinator ε :=
  match c.machine.move .terminated with
  | .ok machine => ({ c with machine }.note (Machine.stepEvent ⟨c.stage, .terminated⟩)).release
  | .error _ => c.release

def debugText (c : Coordinator ε) : String :=
  "Coordinator \x7b dir_path: " ++ Text.quoted c.dir.text ++ ", state: " ++ c.stage.name ++
    ", dispatcher: " ++ c.dispatcher.debugText ++ ", store: " ++ c.world.store.debugText ++
    ", .. \x7d"

end Coordinator

namespace Flow

variable {ε α : Type}

def work (work : Work ε α) : Flow ε α := ExceptT.mk fun c =>
  let (result, world) := work.run.run c.world
  (result, { c with world })

def note (level : Level) (message : String) : Flow ε Unit := modify (·.note ⟨level, message⟩)

def enter (target : Stage) : Flow ε Unit := do
  let c ← get
  match c.machine.move target with
  | .ok machine =>
    set ({ c with machine }.note (Machine.stepEvent ⟨c.stage, target⟩))
  | .error failure => throw failure

-- Calls the plugins, and gives the payload as they left it.
def dispatch {h : Hook} (occasion : Occasion h) (payload : h.Payload) : Flow ε h.Payload :=
  ExceptT.mk fun c =>
    let (dispatcher, outcome) := c.dispatcher.dispatch occasion payload c.world
    (outcome.result.map fun () => outcome.payload,
      { c with dispatcher, world := outcome.world })

def register (plugin : Plugin ε) : Flow ε Unit := do
  let c ← get
  match c.dispatcher.register plugin with
  | .ok dispatcher => set ({ c with dispatcher }.note (Dispatcher.registerEvent plugin))
  | .error failure => throw failure

-- Runs an assembly, and gives the code that it skipped.
def assemble (assembling : Assembling α) : Flow ε (List InvalidCode) := do
  let c ← get
  let (result, skipped, world) := c.world.assemble assembling
  set { c with world }
  match result with
  | .ok _ => return skipped
  | .error failure => throw failure

end Flow

end DocPipeline
