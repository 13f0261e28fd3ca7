import DocPipeline.Plugin.Hook

namespace DocPipeline

-- The plugin that comes with the program and is always the first. It logs every hook, and the
-- changes of the store since the hook before.
structure Diagnostics where
  passes : Nat := 0
  receiver : Option Receiver := none
  -- How many changes it was told of, those it missed included.
  observed : Nat := 0
deriving Inhabited

def Delivery.count : Delivery → Nat
  | change _ => 1
  | lagged missed => missed

def Delivery.event : Delivery → Event
  | change c => ⟨.trace, "doc db: " ++ c.debugText⟩
  | lagged missed => ⟨.trace, "doc db: " ++ toString missed ++ " changes not shown"⟩

namespace Diagnostics

def name : String := "tjsdoc-plugin-diagnostics"

-- It watches the store from the first pass on.
def watch (d : Diagnostics) (store : Store) : Diagnostics :=
  { d with receiver := some (d.receiver.getD store.subscribe) }

def drain (d : Diagnostics) (store : Store) : Diagnostics × List Event :=
  match d.receiver with
  | none => (d, [])
  | some receiver =>
    let (receiver, deliveries) := store.receive receiver
    ({ d with receiver := some receiver
              observed := deliveries.foldl (fun n delivery => n + delivery.count) d.observed },
      deliveries.map Delivery.event)

def beginPass (d : Diagnostics) : Diagnostics := { d with passes := d.passes + 1 }

-- What it does before it logs the hook.
def update (d : Diagnostics) (store : Store) : Hook → Diagnostics × List Event
  | .handleConfig => (d, [])
  | .start => (d.beginPass.watch store).drain store
  | _ => d.drain store

def hookText (d : Diagnostics) (store : Store) : {h : Hook} → Occasion h → h.Payload → String
  | _, .handleConfig, (settings : Settings) =>
    "onHandleConfig: runtime=" ++ Text.quotedOption (settings.runtime.map (·.name)) ++
      ", publisher=" ++ settings.publisher.name ++ ", plugins=" ++
      toString settings.plugins.length
  | _, .start plan package, _ =>
    "onStart: pass " ++ toString d.passes ++ ", destination=" ++ plan.destination.text ++
      ", package=" ++ Text.quotedOption package.name?
  | _, .handleVirtual _, (fragments : List Fragment) =>
    "onHandleVirtual: " ++ toString fragments.length ++ " fragments so far"
  | _, .handleDocData _, (records : List Record) =>
    "onHandleDocData: " ++ toString records.length ++ " records"
  | _, .handleDocDb _, _ => "onHandleDocDB: " ++ store.debugText
  | _, .complete _ _ _, (keepAlive : Bool) =>
    "onComplete: " ++ toString store.db.records.length ++ " records, keepAlive=" ++
      toString keepAlive
  | _, .regenerate _ _, _ => "onRegenerate: generation " ++ toString store.db.generation
  | _, .shutdown _, _ =>
    "onShutdown after " ++ toString d.passes ++ " passes, " ++ toString d.observed ++
      " db changes"

def respond (d : Diagnostics) (store : Store) {h : Hook} (occasion : Occasion h)
    (payload : h.Payload) : Diagnostics × List Event :=
  let (d, events) := d.update store h
  (d, events ++ [⟨.debug, d.hookText store occasion payload⟩])

end Diagnostics

end DocPipeline
