namespace DocPipeline

-- A number is an integer between -2^63 and 2^64 - 1, or the 64 bits of a finite double.
inductive Number where
  | integer (value : Int)
  | double (bits : UInt64)
deriving DecidableEq

-- JSON values. An object is a list of entries in some order; it is canonical when its keys increase
-- strictly, which makes them distinct. Values that the program computes with are canonical,
-- documents that it writes keep the order in which their entries were given.
inductive Json where
  | null
  | bool (value : Bool)
  | number (value : Number)
  | string (value : String)
  | array (items : List Json)
  | object (entries : List (String × Json))
deriving Inhabited

namespace Json

def nat (n : Nat) : Json := number (.integer n)

def strings (items : List String) : Json := array (items.map string)

def ofOption : Option Json → Json
  | none => null
  | some value => value

def ofString? : Option String → Json
  | none => null
  | some text => string text

def asString? : Json → Option String
  | string value => some value
  | _ => none

def asBool? : Json → Option Bool
  | bool value => some value
  | _ => none

def isNull : Json → Bool
  | null => true
  | _ => false

-- The value of the first entry with this key.
def lookup (key : String) : List (String × Json) → Option Json
  | [] => none
  | (k, v) :: rest => if k = key then some v else lookup key rest

-- Puts an entry into entries that increase, in place of one with the same key.
def insert (key : String) (value : Json) : List (String × Json) → List (String × Json)
  | [] => [(key, value)]
  | (k, v) :: rest =>
    if key = k then (key, value) :: rest
    else if key < k then (key, value) :: (k, v) :: rest
    else (k, v) :: insert key value rest

def erase (key : String) (entries : List (String × Json)) : List (String × Json) :=
  entries.filter (·.1 ≠ key)

-- The increasing entries of a list; of entries with one key the last counts.
def sortEntries (entries : List (String × Json)) : List (String × Json) :=
  entries.foldl (fun kept (key, value) => insert key value kept) []

def ofEntries (entries : List (String × Json)) : Json := object (sortEntries entries)

def get? (key : String) : Json → Option Json
  | object entries => lookup key entries
  | _ => none

def asStrings? : Json → Option (List String)
  | array items => items.mapM asString?
  | _ => none

-- Null stands for nothing; any other value must be readable.
def optional? {α : Type} (read? : Json → Option α) : Json → Option (Option α)
  | null => some none
  | value => (read? value).map some

-- The value at a key, or a default for a missing one; a value that cannot be read is no answer.
def fieldD? {α : Type} (entries : List (String × Json)) (key : String) (read? : Json → Option α)
    (default : α) : Option α :=
  match lookup key entries with
  | none => some default
  | some value => read? value

-- The fields of a structure, written as an object or as an array of the first of them in order.
def fields? (names : List String) : Json → Option (List (String × Json))
  | object entries => some entries
  | array items => if items.length ≤ names.length then some (names.zip items) else none
  | _ => none

mutual

def canonical : Json → Json
  | array items => array (canonicalItems items)
  | object entries => object (sortEntries (canonicalEntries entries))
  | other => other

def canonicalItems : List Json → List Json
  | [] => []
  | item :: rest => canonical item :: canonicalItems rest

def canonicalEntries : List (String × Json) → List (String × Json)
  | [] => []
  | (key, value) :: rest => (key, canonical value) :: canonicalEntries rest

end

end Json

end DocPipeline
