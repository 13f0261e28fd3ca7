namespace DocPipeline

inductive Level where
  | error
  | warn
  | info
  | debug
  | trace
deriving DecidableEq, Inhabited

namespace Level

def rank : Level → Nat
  | error => 0
  | warn => 1
  | info => 2
  | debug => 3
  | trace => 4

def name : Level → String
  | error => "ERROR"
  | warn => "WARN"
  | info => "INFO"
  | debug => "DEBUG"
  | trace => "TRACE"

def all : List Level := [error, warn, info, debug, trace]

def ofName? (name : String) : Option Level := all.find? (·.name == name)

end Level

structure Event where
  level : Level
  message : String
deriving DecidableEq, Inhabited

def Event.text (event : Event) : String := event.level.name ++ " " ++ event.message

-- Log events in the order in which they were written. A log keeps only the events that are at least
-- as severe as its limit; without a limit it keeps none.
structure Log where
  limit : Option Level
  events : List Event
deriving Inhabited

def Log.shows (log : Log) (level : Level) : Bool :=
  match log.limit with
  | none => false
  | some limit => level.rank ≤ limit.rank

def Log.add (log : Log) (event : Event) : Log :=
  if log.shows event.level then { log with events := log.events ++ [event] } else log

def Log.addAll (log : Log) (events : List Event) : Log := events.foldl Log.add log

-- Computations that write to a log.
abbrev Logged := StateM Log

def note (level : Level) (message : String) : Logged Unit := modify (·.add ⟨level, message⟩)

def noteAll (events : List Event) : Logged Unit := modify (·.addAll events)

end DocPipeline
