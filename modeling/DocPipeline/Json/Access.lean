import DocPipeline.Json.Basic

namespace DocPipeline.Json

-- Lenient reading of objects: what is missing, or not of the kind asked for, reads as empty.
def field (value : Json) (key : String) : Json := (value.get? key).getD null

-- The value at a key. Null counts as missing.
def given? (value : Json) (key : String) : Option Json :=
  match value.get? key with
  | some null => none
  | other => other

def text? (value : Json) (key : String) : Option String := (value.field key).asString?

def text (value : Json) (key : String) : String := (value.text? key).getD ""

def flag (value : Json) (key : String) : Bool := (value.field key).asBool?.getD false

def asNat? : Json → Option Nat
  | number (.integer n) => if 0 ≤ n then some n.toNat else none
  | _ => none

def items (value : Json) (key : String) : List Json :=
  match value.field key with
  | array items => items
  | _ => []

def texts (value : Json) (key : String) : List String := (value.items key).filterMap asString?

def entries (value : Json) (key : String) : List (String × Json) :=
  match value.field key with
  | object entries => entries
  | _ => []

-- Entries that follow those of an object.
def withEntries (value : Json) (more : List (String × Json)) : Json :=
  match value with
  | object entries => object (entries ++ more)
  | other => other

end DocPipeline.Json
