import DocPipeline.Database.Index

namespace DocPipeline

inductive Change where
  | recordsAppended (added total : Nat)
  | recordsReplaced (total : Nat)
  | indexUpdated (keys : Nat)
  | reset (generation : Nat)
deriving DecidableEq, Inhabited

namespace Change

def debugText : Change → String
  | recordsAppended added total =>
    "RecordsAppended \x7b added: " ++ toString added ++ ", total: " ++ toString total ++ " \x7d"
  | recordsReplaced total => "RecordsReplaced \x7b total: " ++ toString total ++ " \x7d"
  | indexUpdated keys => "IndexUpdated \x7b keys: " ++ toString keys ++ " \x7d"
  | reset generation => "Reset \x7b generation: " ++ toString generation ++ " \x7d"

def toJson : Change → Json
  | recordsAppended added total => .array [.string "RecordsAppended", .nat added, .nat total]
  | recordsReplaced total => .array [.string "RecordsReplaced", .nat total]
  | indexUpdated keys => .array [.string "IndexUpdated", .nat keys]
  | reset generation => .array [.string "Reset", .nat generation]

-- What an update changed. A reset hides the other changes made with it.
def between (before after : Database) : List Change :=
  if before.generation ≠ after.generation then [reset after.generation]
  else
    let total := after.records.length
    let records :=
      if before.records.length < total then [recordsAppended (total - before.records.length) total]
      else if total < before.records.length then [recordsReplaced total]
      else []
    records ++ if before.index.size ≠ after.index.size then [indexUpdated after.index.size] else []

end Change

-- The store holds the database of a run and all changes that were made to it. A change is noticed
-- by its effect on three numbers: how many records there are, how many keys the index has, and the
-- generation. Receivers read the changes in order; one that falls behind by more than the buffer
-- holds is told how many it missed.
structure Store where
  db : Database := {}
  changes : List Change := []
deriving Inhabited

-- How many changes a receiver has passed.
structure Receiver where
  seen : Nat
deriving Inhabited, DecidableEq

-- What a receiver is given: a change, or the number of those it missed.
inductive Delivery where
  | change (change : Change)
  | lagged (missed : Nat)
deriving DecidableEq, Inhabited

def Delivery.toJson : Delivery → Json
  | change c => c.toJson
  | lagged missed => .array [.string "Lagged", .nat missed]

namespace Store

def update (store : Store) (f : Database → Database) : Store × List Change :=
  let db := f store.db
  let changes := Change.between store.db db
  (⟨db, store.changes ++ changes⟩, changes)

def append (store : Store) (records : List Record) (ast : Option Ast) : Store × List Change :=
  store.update (·.append records ast)

-- Moves the records out, which no receiver is told.
def take (store : Store) : Store × List Record :=
  ({ store with db := { store.db with records := [] } }, store.db.records)

def replace (store : Store) (records : List Record) : Store × List Change :=
  let change := Change.recordsReplaced records.length
  (⟨{ store.db with records }, store.changes ++ [change]⟩, [change])

def reset (store : Store) : Store × List Change := store.update Database.reset

def resolve (store : Store) : Store × List Change := store.update Database.reindex

def debugText (store : Store) : String :=
  "DocStore \x7b records: " ++ toString store.db.records.length ++ ", generation: " ++
    toString store.db.generation ++ " \x7d"

def bufferSize : Nat := 128

def subscribe (store : Store) : Receiver := ⟨store.changes.length⟩

-- Everything that waits for the receiver, which has then seen all changes.
def receive (store : Store) (receiver : Receiver) : Receiver × List Delivery :=
  let waiting := store.changes.drop receiver.seen
  let missed := waiting.length - bufferSize
  let notice := if missed = 0 then [] else [Delivery.lagged missed]
  (store.subscribe, notice ++ (waiting.drop missed).map .change)

end Store

end DocPipeline
