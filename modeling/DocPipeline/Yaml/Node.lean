import DocPipeline.Yaml.Scanner

namespace DocPipeline.Yaml

-- Nodes of a YAML document, read from its tokens. A stream holds one document or none. An alias
-- refers to an anchor by a number; which node a number stands for is settled when all are read, for
-- the last of several nodes with one number counts.
inductive Node where
  | scalar (text : String) (plain : Bool) (tag : Option String)
  | sequence (tag : Option String) (items : List Node)
  | mapping (tag : Option String) (entries : List (Node × Node))
  | alias (number : Nat)
deriving Inhabited

-- A node with its anchor's number, and the count of events before it.
structure Anchored where
  number : Nat
  start : Nat
  node : Node

structure NodeReader where
  tokens : List Token
  -- Events: a scalar or an alias is one, a collection is two around those inside.
  events : Nat := 0
  names : List (String × Nat) := []
  anchored : List Anchored := []
  handles : List (String × String) := []

abbrev ReadNode := StateT NodeReader Option

namespace NodeReader

def peek : ReadNode (Option Token) := do return (← get).tokens.head?

def skip : ReadNode Unit := modify fun s => { s with tokens := s.tokens.drop 1 }

def event : ReadNode Unit := modify fun s => { s with events := s.events + 1 }

-- An anchor's number is the count of different names before it.
def anchorNumber (name : String) : ReadNode Nat := do
  let s ← get
  let number := s.names.length
  set { s with names := (name, number) :: s.names.filter (·.1 != name) }
  return number

def aliasNumber (name : String) : ReadNode Nat := do
  match (← get).names.find? (·.1 == name) with
  | some (_, number) => return number
  | none => failure

def tagText (handle suffix : String) : ReadNode String := do
  if handle = "" then return suffix
  match (← get).handles.find? (·.1 == handle) with
  | some (_, start) => return start ++ suffix
  | none => failure

-- The anchor and the tag in front of a node, in either order.
def properties : ReadNode (Option String × Option String) := do
  match (← peek) with
  | some (.anchor name) =>
    skip
    match (← peek) with
    | some (.tag handle suffix) =>
      skip
      return (some name, some (← tagText handle suffix))
    | _ => return (some name, none)
  | some (.tag handle suffix) =>
    skip
    match (← peek) with
    | some (.anchor name) =>
      skip
      return (some name, some (← tagText handle suffix))
    | _ => return (none, some (← tagText handle suffix))
  | _ => return (none, none)

def empty (tag : Option String) : Node := .scalar "" true tag

-- A node that is not written is an empty scalar.
def readEmpty : ReadNode Node := do
  event
  return empty none

-- The tag that is only an exclamation mark does not count on a scalar.
def scalarTag (tag : Option String) : Option String := if tag = some "!" then none else tag

section Collections

-- How a node is read: within a block or not, and whether entries alone may make a sequence.
variable (read : Bool → Bool → ReadNode Node)

-- Reads a node unless one of the tokens comes that stand for its absence.
def readUnless (absent : Token → Bool) (block indentless : Bool) : ReadNode Node := do
  match (← peek) with
  | some token => if absent token then readEmpty else read block indentless
  | none => failure

def endsEntry : Token → Bool
  | .blockEntry | .blockEnd => true
  | _ => false

def endsIndentlessEntry : Token → Bool
  | .blockEntry | .key | .value | .blockEnd => true
  | _ => false

def endsPair : Token → Bool
  | .key | .value | .blockEnd => true
  | _ => false

def blockSequence : Nat → List Node → ReadNode (List Node)
  | 0, _ => failure
  | n + 1, done => do
    match (← peek) with
    | some .blockEntry =>
      skip
      blockSequence n ((← readUnless read endsEntry true false) :: done)
    | some .blockEnd =>
      skip
      return done.reverse
    | _ => failure

def indentlessSequence : Nat → List Node → ReadNode (List Node)
  | 0, _ => failure
  | n + 1, done => do
    match (← peek) with
    | some .blockEntry =>
      skip
      indentlessSequence n ((← readUnless read endsIndentlessEntry true false) :: done)
    | _ => return done.reverse

def blockMapping : Nat → List (Node × Node) → ReadNode (List (Node × Node))
  | 0, _ => failure
  | n + 1, done => do
    match (← peek) with
    | some .blockEnd =>
      skip
      return done.reverse
    | some .key =>
      skip
      let key ← readUnless read endsPair true true
      match (← peek) with
      | some .value =>
        skip
        blockMapping n ((key, ← readUnless read endsPair true true) :: done)
      | _ => blockMapping n ((key, ← readEmpty) :: done)
    | _ => failure

def endsFlowItem : Token → Bool
  | .flowEntry | .flowSequenceEnd => true
  | _ => false

def endsFlowItemKey : Token → Bool
  | .value | .flowEntry | .flowSequenceEnd => true
  | _ => false

-- A pair within a flow sequence. A token that stands for an absent key is passed over.
def flowPair : ReadNode Node := do
  event
  let key ← do
    match (← peek) with
    | some token =>
      if endsFlowItemKey token then
        skip
        readEmpty
      else read false false
    | none => failure
  let value ← do
    match (← peek) with
    | some .value =>
      skip
      readUnless read endsFlowItem false false
    | _ => readEmpty
  event
  return .mapping none [(key, value)]

-- Passes over the comma between entries; the first entry has none in front of it.
def separator (first : Bool) : ReadNode Unit := do
  if first then return
  match (← peek) with
  | some .flowEntry => skip
  | _ => failure

def flowSequence : Nat → List Node → ReadNode (List Node)
  | 0, _ => failure
  | n + 1, done => do
    if (← peek) = some .flowSequenceEnd then
      skip
      return done.reverse
    separator done.isEmpty
    match (← peek) with
    | some .flowSequenceEnd =>
      skip
      return done.reverse
    | some .key =>
      skip
      flowSequence n ((← flowPair read) :: done)
    | _ => flowSequence n ((← read false false) :: done)

def endsFlowKey : Token → Bool
  | .value | .flowEntry | .flowMappingEnd => true
  | _ => false

def endsFlowValue : Token → Bool
  | .flowEntry | .flowMappingEnd => true
  | _ => false

def flowMapping : Nat → List (Node × Node) → ReadNode (List (Node × Node))
  | 0, _ => failure
  | n + 1, done => do
    if (← peek) = some .flowMappingEnd then
      skip
      return done.reverse
    separator done.isEmpty
    match (← peek) with
    | some .flowMappingEnd =>
      skip
      return done.reverse
    | some .key =>
      skip
      let key ← readUnless read endsFlowKey false false
      match (← peek) with
      | some .value =>
        skip
        flowMapping n ((key, ← readUnless read endsFlowValue false false) :: done)
      | _ => flowMapping n ((key, ← readEmpty) :: done)
    | _ =>
      let key ← read false false
      flowMapping n ((key, ← readEmpty) :: done)

end Collections

-- The rest of a node after its properties. A node with a property need not be written.
def readContent (read : Bool → Bool → ReadNode Node) (fuel : Nat) (block indentless marked : Bool)
    (tag : Option String) : ReadNode Node := do
  let token ← peek
  if indentless ∧ token = some .blockEntry then
    return .sequence tag (← indentlessSequence read fuel [])
  match token, block with
  | some (.scalar text plain), _ =>
    skip
    return .scalar text plain (scalarTag tag)
  | some .flowSequenceStart, _ =>
    skip
    return .sequence tag (← flowSequence read fuel [])
  | some .flowMappingStart, _ =>
    skip
    return .mapping tag (← flowMapping read fuel [])
  | some .blockSequenceStart, true =>
    skip
    return .sequence tag (← blockSequence read fuel [])
  | some .blockMappingStart, true =>
    skip
    return .mapping tag (← blockMapping read fuel [])
  | _, _ => if marked then return empty tag else failure

def isCollection : Node → Bool
  | .sequence .. | .mapping .. => true
  | _ => false

def readNode : Nat → Bool → Bool → ReadNode Node
  | 0, _, _ => failure
  | fuel + 1, block, indentless => do
    match (← peek) with
    | some (.alias name) =>
      skip
      event
      return .alias (← aliasNumber name)
    | _ =>
      let (name, tag) ← properties
      let number ← name.mapM anchorNumber
      let start := (← get).events
      event
      let node ← readContent (readNode fuel) fuel block indentless (name.isSome || tag.isSome) tag
      if isCollection node then event
      match number with
      | none => return node
      | some number =>
        modify fun s => { s with anchored := ⟨number, start, node⟩ :: s.anchored }
        return node

-- Only versions 1.1 and 1.2 are known, and a handle is declared once.
def directives : Nat → Bool → ReadNode Unit
  | 0, _ => failure
  | n + 1, versioned => do
    match (← peek) with
    | some (.version major minor) =>
      if versioned ∨ major ≠ 1 ∨ (minor ≠ 1 ∧ minor ≠ 2) then failure
      skip
      directives n true
    | some (.tagDirective handle start) =>
      let s ← get
      if s.handles.any (·.1 == handle) then failure
      set { s with handles := s.handles ++ [(handle, start)] }
      skip
      directives n versioned
    | _ => return

-- The handles that hold unless a directive declares them.
def defaultHandles : List (String × String) := [("!", "!"), ("!!", "tag:yaml.org,2002:")]

def endsDocument : Option Token → Bool
  | none | some (.version ..) | some (.tagDirective ..) | some .documentStart
  | some .documentEnd => true
  | _ => false

def startsDocument : Option Token → Bool
  | some (.version ..) | some (.tagDirective ..) | some .documentStart => true
  | _ => false

-- The one document of a stream, or nothing if it is empty.
def readDocument (fuel : Nat) : ReadNode (Option Node) := do
  if (← peek).isNone then return none
  if startsDocument (← peek) then
    directives fuel false
    if (← peek) != some .documentStart then failure
    skip
    modify fun s => { s with handles := s.handles ++ defaultHandles }
    if endsDocument (← peek) then return some (← readEmpty)
    else return some (← readNode fuel true false)
  else
    modify fun s => { s with handles := defaultHandles }
    return some (← readNode fuel true false)

end NodeReader

-- A document with what its aliases refer to, and the count of its events.
structure Document where
  root : Option Node
  anchored : List Anchored
  events : Nat

-- Every call of the reader takes a token or gives an empty scalar, so twice their count is enough.
def document? (text : List Char) : Option Document := do
  let tokens ← tokens? text
  let (root, s) ← (NodeReader.readDocument (2 * tokens.length + 2)).run { tokens }
  if (s.tokens.dropWhile (· == .documentEnd)).isEmpty then
    some ⟨root, s.anchored, s.events⟩
  else none

end DocPipeline.Yaml
