import DocPipeline.Lifecycle.Signals
import DocPipeline.Parsing.Reparser

namespace DocPipeline

-- The world in which collaborators work: the files, the store and the counters of a run, its
-- signals and its log, and the host. The host is what the embedding program keeps for its own
-- collaborators; the run never looks at it.
structure World (ε : Type) where
  tree : Tree
  store : Store := {}
  metrics : Metrics := {}
  signals : Signals := {}
  log : Log
  host : ε
deriving Inhabited

-- Work in the world that may fail. What it changed before it failed stays changed.
abbrev Work (ε : Type) := ExceptT Failure (StateM (World ε))

-- A change that a collaborator may make to the store.
inductive StoreEdit where
  | append (records : List Record) (ast : Option Ast)
  | replace (records : List Record)
  | take
  | reset
  | update (change : Database → Database)

def Store.edit (store : Store) : StoreEdit → Store × List Change
  | .append records ast => store.append records ast
  | .replace records => store.replace records
  | .take => (store.take.1, [])
  | .reset => store.reset
  | .update change => store.update change

namespace World

variable {ε : Type}

def note (world : World ε) (event : Event) : World ε := { world with log := world.log.add event }

-- Runs an assembly on the store, the counters and the log, and gives the code that was skipped.
def assemble {α : Type} (world : World ε) (work : Assembling α) :
    Except Failure α × List InvalidCode × World ε :=
  let (result, a) := work.run.run ⟨world.store, world.metrics, world.log, []⟩
  (result, a.skipped, { world with store := a.store, metrics := a.metrics, log := a.log })

def reparse (world : World ε) (reparser : Reparser) (path : Path) :
    Except Failure (List Record) × World ε :=
  let (result, _, world) := world.assemble (reparser.parse world.tree path)
  (result, world)

def send (world : World ε) (handle : Handle) (signal : Signal) :
    Except Failure Unit × World ε :=
  match world.signals.send? handle signal with
  | some signals => (.ok (), { world with signals })
  | none => (.error .terminated, world)

end World

namespace Work

variable {ε α : Type}

-- Work that only writes to the log and may fail.
def act (work : Act α) : Work ε α := ExceptT.mk fun world =>
  let (result, log) := work.run.run world.log
  (result, { world with log })

def note (level : Level) (message : String) : Work ε Unit := modify (·.note ⟨level, message⟩)

def noteAll (events : List Event) : Work ε Unit :=
  modify fun world => { world with log := world.log.addAll events }

def count (change : Metrics → Metrics) : Work ε Unit :=
  modify fun world => { world with metrics := change world.metrics }

def editStore (edit : StoreEdit) : Work ε (List Change) :=
  modifyGet fun world =>
    let (store, changes) := world.store.edit edit
    (changes, { world with store })

end Work

end DocPipeline
