namespace DocPipeline

inductive Signal where
  | regenerate
  | shutdown
deriving DecidableEq, Inhabited

-- A handle knows the channel it was made on.
structure Handle where
  channel : Nat
  id : Nat
deriving DecidableEq, Inhabited

-- Signals to a run that is kept alive. They are sent through handles and wait in a queue. A run
-- holds a sender of its own, from which handles are made, but not while it waits: so a wait ends
-- when the queue is empty and no handle is left. After a wait the run gets its sender back if a
-- handle is left to get it from. Otherwise the next handle is made on a new channel, whose queue is
-- empty.
structure Signals where
  channel : Nat := 0
  ownSender : Bool := true
  closed : Bool := false
  -- The handles that were made and not yet dropped, on all channels.
  live : List Handle := []
  queue : List Signal := []
  nextId : Nat := 0
deriving DecidableEq, Inhabited

inductive Wait where
  | signal (signal : Signal)
  | noHandles
  -- Nothing is queued, and a handle is left through which something may come.
  | pending
deriving DecidableEq, Inhabited

namespace Signals

def add (s : Signals) (channel : Nat) : Signals × Handle :=
  let handle : Handle := ⟨channel, s.nextId⟩
  ({ s with live := s.live ++ [handle], nextId := s.nextId + 1 }, handle)

def renew (s : Signals) : Signals :=
  { s with channel := s.channel + 1, ownSender := true, closed := false, queue := [] }

-- Makes a handle, on a new channel if the run has lost its sender.
def mint (s : Signals) : Signals × Handle :=
  let s := if s.ownSender then s else s.renew
  s.add s.channel

def copy (s : Signals) (handle : Handle) : Signals × Handle :=
  if handle ∈ s.live then s.add handle.channel else (s, handle)

def drop (s : Signals) (handle : Handle) : Signals := { s with live := s.live.erase handle }

-- Whether signals sent through the handle are received.
def accepts (s : Signals) (handle : Handle) : Bool :=
  s.live.contains handle && handle.channel == s.channel && !s.closed

-- There is no answer if the signal is not accepted.
def send? (s : Signals) (handle : Handle) (signal : Signal) : Option Signals :=
  if s.accepts handle then some { s with queue := s.queue ++ [signal] } else none

def hasHandle (s : Signals) : Bool := s.live.any fun handle => handle.channel == s.channel

def wait (s : Signals) : Signals × Wait :=
  let own := s.ownSender && s.hasHandle
  match s.queue with
  | signal :: rest => ({ s with ownSender := own, queue := rest }, .signal signal)
  | [] =>
    if s.hasHandle && !s.closed then (s, .pending)
    else ({ s with ownSender := own }, .noHandles)

def close (s : Signals) : Signals := { s with ownSender := false, closed := true }

end Signals

end DocPipeline
