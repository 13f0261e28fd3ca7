namespace DocPipeline

-- Entries in the order in which their keys were first put. Putting a key again changes its value
-- and keeps its place.
structure Dict (α : Type) where
  entries : List (String × α)
deriving Inhabited, DecidableEq

namespace Dict

variable {α : Type}

def empty : Dict α := ⟨[]⟩

def get? (dict : Dict α) (key : String) : Option α :=
  (dict.entries.find? (·.1 == key)).map (·.2)

def contains (dict : Dict α) (key : String) : Bool := dict.entries.any (·.1 == key)

def insertEntry (key : String) (value : α) : List (String × α) → List (String × α)
  | [] => [(key, value)]
  | (k, v) :: rest => if k = key then (k, value) :: rest else (k, v) :: insertEntry key value rest

def insert (dict : Dict α) (key : String) (value : α) : Dict α :=
  ⟨insertEntry key value dict.entries⟩

def erase (dict : Dict α) (key : String) : Dict α := ⟨dict.entries.filter (·.1 != key)⟩

def ofList (entries : List (String × α)) : Dict α :=
  entries.foldl (fun dict (key, value) => dict.insert key value) empty

def keys (dict : Dict α) : List String := dict.entries.map (·.1)

def size (dict : Dict α) : Nat := dict.entries.length

end Dict

end DocPipeline
