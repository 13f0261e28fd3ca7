import DocPipeline.Plugin.Diagnostics
import DocPipeline.Conduct

namespace DocPipeline

-- A plugin of the host keeps what it remembers in the host's part of the world.
inductive Plugin (ε : Type) where
  | diagnostics (state : Diagnostics)
  | custom (name : String) (respond : {h : Hook} → Occasion h → Conduct ε h.Payload Unit)

instance {ε : Type} : Inhabited (Plugin ε) := ⟨.diagnostics {}⟩

-- One invocation of a plugin.
structure Call where
  hook : Hook
  plugin : String
deriving DecidableEq, Inhabited

-- An invocation and how it ended.
abbrev Answer := Call × Except Failure Unit

def Call.event (call : Call) : Event := ⟨.debug, call.hook.name ++ " -> " ++ call.plugin⟩

namespace Plugin

variable {ε : Type}

def name : Plugin ε → String
  | diagnostics _ => Diagnostics.name
  | custom name _ => name

def respond {h : Hook} (occasion : Occasion h) (payload : h.Payload) (world : World ε) :
    Plugin ε → Plugin ε × Conduct.Outcome ε h.Payload Unit
  | diagnostics state =>
    let (state, events) := state.respond world.store occasion payload
    (diagnostics state, ⟨.ok (), payload, { world with log := world.log.addAll events }⟩)
  | plugin@(custom _ respond) => (plugin, (respond occasion).run payload world)

end Plugin

structure Dispatcher (ε : Type) where
  plugins : List (Plugin ε) := []
  destroyed : Bool := false
  -- All invocations so far, in order.
  calls : List Answer := []
deriving Inhabited

namespace Dispatcher

variable {ε : Type}

-- What the hook left: the plugins as they are now and the invocations that it took.
structure Round (ε : Type) (h : Hook) where
  plugins : List (Plugin ε)
  calls : List Answer
  outcome : Conduct.Outcome ε h.Payload Unit

def enter (call : Call) (world : World ε) : World ε :=
  let world := world.note call.event
  { world with metrics := world.metrics.addHook }

-- The plugins are called one after the other in the order in which they were registered, each on
-- the payload that the one before it left. The first that fails ends the hook, and its failure is
-- put down to it. A dispatcher that was destroyed has no plugins left and takes no more.
def callAll {h : Hook} (occasion : Occasion h) :
    List (Plugin ε) → h.Payload → World ε → Round ε h
  | [], payload, world => ⟨[], [], ⟨.ok (), payload, world⟩⟩
  | plugin :: rest, payload, world =>
    let call : Call := ⟨h, plugin.name⟩
    let (called, outcome) := plugin.respond occasion payload (enter call world)
    match outcome.result with
    | .error failure =>
      ⟨called :: rest, [(call, .error failure)],
        { outcome with result := .error (failure.blamedOn plugin.name h.name) }⟩
    | .ok () =>
      let round := callAll occasion rest outcome.payload outcome.world
      ⟨called :: round.plugins, (call, .ok ()) :: round.calls, round.outcome⟩

def dispatch {h : Hook} (dispatcher : Dispatcher ε) (occasion : Occasion h) (payload : h.Payload)
    (world : World ε) : Dispatcher ε × Conduct.Outcome ε h.Payload Unit :=
  if dispatcher.destroyed then (dispatcher, ⟨.error .terminated, payload, world⟩)
  else
    let round := callAll occasion dispatcher.plugins payload world
    ({ dispatcher with plugins := round.plugins, calls := dispatcher.calls ++ round.calls },
      round.outcome)

def names (dispatcher : Dispatcher ε) : List String := dispatcher.plugins.map Plugin.name

def registerEvent (plugin : Plugin ε) : Event := ⟨.debug, "registered plugin: " ++ plugin.name⟩

def register (dispatcher : Dispatcher ε) (plugin : Plugin ε) : Except Failure (Dispatcher ε) :=
  if dispatcher.destroyed then .error .terminated
  else .ok { dispatcher with plugins := dispatcher.plugins ++ [plugin] }

def destroy (dispatcher : Dispatcher ε) : Dispatcher ε :=
  if dispatcher.destroyed then dispatcher
  else { dispatcher with plugins := [], destroyed := true }

def destroyEvents (dispatcher : Dispatcher ε) : List Event :=
  if dispatcher.destroyed then []
  else [⟨.debug, "releasing " ++ toString dispatcher.plugins.length ++ " plugins"⟩]

def debugText (dispatcher : Dispatcher ε) : String :=
  "HookDispatcher \x7b plugins: " ++ Text.quotedList dispatcher.names ++ ", destroyed: " ++
    toString dispatcher.destroyed ++ " \x7d"

end Dispatcher

end DocPipeline
