import DocPipeline.Lifecycle.Stage
import DocPipeline.Log
import DocPipeline.Path.Basic

namespace DocPipeline

inductive CollaboratorKind where
  | runtime
  | publisher
  | plugin
deriving DecidableEq, Inhabited

namespace CollaboratorKind

def all : List CollaboratorKind := [runtime, publisher, plugin]

def name : CollaboratorKind → String
  | runtime => "runtime"
  | publisher => "publisher"
  | plugin => "plugin"

def ofName? (name : String) : Option CollaboratorKind := all.find? (·.name == name)

end CollaboratorKind

-- A failure inside a collaborator, at one of the stages of its work.
structure Blame where
  collaborator : String
  stage : String
deriving DecidableEq, Inhabited

-- The collaborators that come with the program share a beginning of their names.
def Blame.isBuiltin (blame : Blame) : Bool := "tjsdoc".toList.isPrefixOf blame.collaborator.toList

def Blame.message (blame : Blame) : String :=
  "'" ++ blame.collaborator ++ "' failed during " ++ blame.stage

inductive Context where
  | note (text : String)
  | blame (blame : Blame)
deriving DecidableEq, Inhabited

def Context.message : Context → String
  | note text => text
  | blame b => b.message

-- A failure has a root, and contexts may be put around it; a file that failed to parse is a root
-- with a cause of its own. The layers of a failure, the outermost first, are the contexts and roots
-- that it is made of.
inductive Failure where
  | text (message : String)
  | invalidConfig (message : String)
  | load (kind : CollaboratorKind) (name reason : String)
  | terminated
  | illegalStep (source target : Stage)
  | parse (path : String) (cause : Failure)
  | within (context : Context) (cause : Failure)
deriving DecidableEq, Inhabited

namespace Failure

-- The message of the outermost layer.
def message : Failure → String
  | text message => message
  | invalidConfig message => "config validation failed: " ++ message
  | load kind name reason => "failed to load " ++ kind.name ++ " '" ++ name ++ "': " ++ reason
  | terminated => "lifecycle already terminated"
  | illegalStep source target =>
    "invalid lifecycle transition " ++ source.name ++ " -> " ++ target.name
  | parse path _ => "failed to parse " ++ path
  | within context _ => context.message

-- The failure below the outermost layer.
def cause? : Failure → Option Failure
  | parse _ cause => some cause
  | within _ cause => some cause
  | _ => none

def chain : Failure → List String
  | f@(parse _ cause) => f.message :: cause.chain
  | f@(within _ cause) => f.message :: cause.chain
  | f => [f.message]

def summary (failure : Failure) : String := ": ".intercalate failure.chain

-- The layers whose kind can be told. The outermost layer of what made a file fail to parse is
-- known by its message only.
def layers : Failure → List Failure
  | f@(parse _ cause) => f :: cause.layers.tail
  | f@(within _ cause) => f :: cause.layers
  | f => [f]

def isInvalidConfig : Failure → Bool
  | invalidConfig _ => true
  | _ => false

def concernsConfig (failure : Failure) : Bool := failure.layers.any isInvalidConfig

-- The outermost collaborator among the contexts.
def blame? : Failure → Option Blame
  | within (.blame b) _ => some b
  | within (.note _) cause => cause.blame?
  | _ => none

-- The failure without the contexts around it.
def root : Failure → Failure
  | within _ cause => cause.root
  | f => f

-- Continues a text of several lines after `indent` blanks.
def indented (indent : Nat) (text : String) : String :=
  ("\n" ++ String.ofList (List.replicate indent ' ')).intercalate
    ((text.toList.splitOn '\n').map String.ofList)

def padLeft (width : Nat) (text : String) : String :=
  String.ofList (List.replicate (width - text.length) ' ') ++ text

def numbered (n : Nat) : List String → List String
  | [] => []
  | cause :: rest => (padLeft 5 (toString n) ++ ": " ++ indented 7 cause) :: numbered (n + 1) rest

-- The messages with the outermost first and the others listed below it, numbered if several.
def details (failure : Failure) : String :=
  match failure.chain with
  | [] => ""
  | [message] => message
  | [message, cause] => message ++ "\n\nCaused by:\n    " ++ indented 4 cause
  | message :: causes => message ++ "\n\nCaused by:\n" ++ "\n".intercalate (numbered 0 causes)

def note (failure : Failure) (text : String) : Failure := within (.note text) failure

def blamedOn (failure : Failure) (collaborator stage : String) : Failure :=
  within (.blame ⟨collaborator, stage⟩) failure

end Failure

-- Computations that write to a log and may fail.
abbrev Act := ExceptT Failure Logged

namespace Act

def ofExcept {α : Type} (result : Except Failure α) : Act α := ExceptT.mk (pure result)

-- Changes the failure, if there is one.
def mapFailure {α : Type} (f : Failure → Failure) (act : Act α) : Act α :=
  ExceptT.mk (do
    match (← act.run) with
    | .ok value => return .ok value
    | .error failure => return .error (f failure))

end Act

end DocPipeline
