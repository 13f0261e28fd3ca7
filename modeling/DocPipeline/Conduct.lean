import DocPipeline.World

namespace DocPipeline

-- What a collaborator does, step by step: a tree whose nodes are the steps that collaborators may
-- take and whose branches are their answers. Nothing else in the world can be reached. A conduct
-- works on a payload, which is what the run lends to be edited.
inductive Conduct (ε π α : Type) where
  | done (value : α)
  | fail (failure : Failure)
  | look (next : ε → π → Conduct ε π α)
  | remember (host : ε) (next : Conduct ε π α)
  | edit (payload : π) (next : Conduct ε π α)
  | readTree (next : Tree → Conduct ε π α)
  | setTree (tree : Tree) (next : Conduct ε π α)
  | readStore (next : Store → Conduct ε π α)
  | editStore (edit : StoreEdit) (next : Conduct ε π α)
  | send (handle : Handle) (signal : Signal) (next : Except Failure Unit → Conduct ε π α)
  | accepts (handle : Handle) (next : Bool → Conduct ε π α)
  | copy (handle : Handle) (next : Handle → Conduct ε π α)
  | drop (handle : Handle) (next : Conduct ε π α)
  | reparse (reparser : Reparser) (path : Path)
      (next : Except Failure (List Record) → Conduct ε π α)
  | note (event : Event) (next : Conduct ε π α)

namespace Conduct

variable {ε π α β : Type}

instance : Inhabited (Conduct ε π α) := ⟨.fail (.text "")⟩

def bind : Conduct ε π α → (α → Conduct ε π β) → Conduct ε π β
  | done value, f => f value
  | fail failure, _ => fail failure
  | look next, f => look fun host payload => (next host payload).bind f
  | remember host next, f => remember host (next.bind f)
  | edit payload next, f => edit payload (next.bind f)
  | readTree next, f => readTree fun tree => (next tree).bind f
  | setTree tree next, f => setTree tree (next.bind f)
  | readStore next, f => readStore fun store => (next store).bind f
  | editStore e next, f => editStore e (next.bind f)
  | send handle signal next, f => send handle signal fun result => (next result).bind f
  | accepts handle next, f => accepts handle fun result => (next result).bind f
  | copy handle next, f => copy handle fun handle => (next handle).bind f
  | drop handle next, f => drop handle (next.bind f)
  | reparse reparser path next, f => reparse reparser path fun result => (next result).bind f
  | note event next, f => note event (next.bind f)

instance : Monad (Conduct ε π) where
  pure := done
  bind := bind

-- What is left of a conduct: its answer, the payload as it was edited, and the world.
structure Outcome (ε π α : Type) where
  result : Except Failure α
  payload : π
  world : World ε

def run : Conduct ε π α → π → World ε → Outcome ε π α
  | done value, payload, world => ⟨.ok value, payload, world⟩
  | fail failure, payload, world => ⟨.error failure, payload, world⟩
  | look next, payload, world => (next world.host payload).run payload world
  | remember host next, payload, world => next.run payload { world with host }
  | edit payload next, _, world => next.run payload world
  | readTree next, payload, world => (next world.tree).run payload world
  | setTree tree next, payload, world => next.run payload { world with tree }
  | readStore next, payload, world => (next world.store).run payload world
  | editStore e next, payload, world =>
    next.run payload { world with store := (world.store.edit e).1 }
  | send handle signal next, payload, world =>
    let (result, world) := world.send handle signal
    (next result).run payload world
  | accepts handle next, payload, world =>
    (next (world.signals.accepts handle)).run payload world
  | copy handle next, payload, world =>
    let (signals, handle) := world.signals.copy handle
    (next handle).run payload { world with signals }
  | drop handle next, payload, world =>
    next.run payload { world with signals := world.signals.drop handle }
  | reparse reparser path next, payload, world =>
    let (result, world) := world.reparse reparser path
    (next result).run payload world
  | note event next, payload, world => next.run payload (world.note event)

-- A conduct with nothing to edit, as work.
def perform (conduct : Conduct ε Unit α) : Work ε α := ExceptT.mk fun world =>
  let outcome := conduct.run () world
  (outcome.result, outcome.world)

def host : Conduct ε π ε := look fun host _ => done host

def payload : Conduct ε π π := look fun _ payload => done payload

-- Changes what the host remembers.
def modifyHost (change : ε → ε) : Conduct ε π Unit :=
  look fun host _ => remember (change host) (done ())

-- Changes the payload.
def modifyPayload (change : π → π) : Conduct ε π Unit :=
  look fun _ payload => edit (change payload) (done ())

def tree : Conduct ε π Tree := readTree done

def store : Conduct ε π Store := readStore done

def ofExcept : Except Failure α → Conduct ε π α
  | .ok value => done value
  | .error failure => fail failure

def noteAll (events : List Event) (next : Conduct ε π α) : Conduct ε π α := events.foldr note next

-- Work that only writes to a log. Its events are collected first and noted then.
def ofAct (work : Act α) : Conduct ε π α :=
  let (result, log) := work.run.run ⟨some .trace, []⟩
  noteAll log.events (ofExcept result)

end Conduct

end DocPipeline
