import DocPipeline.Lifecycle.Signals
import DocPipeline.Parsing.Reparser

namespace DocPipeline

-- The hooks of a run. At each hook plugins are told about an occasion, and are lent a payload that
-- they may edit.
inductive Hook where
  | handleConfig
  | start
  | handleVirtual
  | handleDocData
  | handleDocDb
  | complete
  | regenerate
  | shutdown
deriving DecidableEq, Inhabited

namespace Hook

def all : List Hook :=
  [handleConfig, start, handleVirtual, handleDocData, handleDocDb, complete, regenerate, shutdown]

def name : Hook → String
  | handleConfig => "onHandleConfig"
  | start => "onStart"
  | handleVirtual => "onHandleVirtual"
  | handleDocData => "onHandleDocData"
  | handleDocDb => "onHandleDocDB"
  | complete => "onComplete"
  | regenerate => "onRegenerate"
  | shutdown => "onShutdown"

-- What plugins may edit: settings, files and links, fragments, records, or whether to keep alive.
abbrev Payload : Hook → Type
  | handleConfig => Settings
  | start => RunState
  | handleVirtual => List Fragment
  | handleDocData => List Record
  | handleDocDb => Unit
  | complete => Bool
  | regenerate => RunState
  | shutdown => Unit

end Hook

-- What plugins are told.
inductive Occasion : Hook → Type where
  | handleConfig : Occasion .handleConfig
  | start (plan : Plan) (package : Package) : Occasion .start
  | handleVirtual (plan : Plan) : Occasion .handleVirtual
  | handleDocData (plan : Plan) : Occasion .handleDocData
  | handleDocDb (plan : Plan) : Occasion .handleDocDb
  | complete (plan : Plan) (handle : Handle) (reparser : Reparser) : Occasion .complete
  | regenerate (plan : Plan) (reparser : Reparser) : Occasion .regenerate
  | shutdown (plan : Option Plan) : Occasion .shutdown

end DocPipeline
