namespace DocPipeline

-- The stages of a run and the steps between them. A pass runs from generating to completing; a run
-- that is kept alive comes back to generating through idle and regenerating. Every stage but the
-- last may be followed by the last, and nothing follows that.
inductive Stage where
  | init
  | configuring
  | discovering
  | generating
  | resolving
  | publishing
  | completing
  | idle
  | regenerating
  | terminated
deriving DecidableEq, Inhabited

namespace Stage

def all : List Stage :=
  [init, configuring, discovering, generating, resolving, publishing, completing, idle,
   regenerating, terminated]

def name : Stage → String
  | init => "Init"
  | configuring => "Configuring"
  | discovering => "Discovering"
  | generating => "Generating"
  | resolving => "Resolving"
  | publishing => "Publishing"
  | completing => "Completing"
  | idle => "Idle"
  | regenerating => "Regenerating"
  | terminated => "Terminated"

def ofName? (name : String) : Option Stage := all.find? (·.name == name)

-- The one stage besides the last that may come next.
def next : Stage → Option Stage
  | init => some configuring
  | configuring => some discovering
  | discovering => some generating
  | generating => some resolving
  | resolving => some publishing
  | publishing => some completing
  | completing => some idle
  | idle => some regenerating
  | regenerating => some generating
  | terminated => none

def mayPrecede (source target : Stage) : Bool :=
  source != terminated && (target == terminated || source.next == some target)

end Stage

end DocPipeline
