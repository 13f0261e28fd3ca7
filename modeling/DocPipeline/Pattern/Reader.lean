import DocPipeline.Pattern.ClassName

namespace DocPipeline.Pattern

open Text

def maxNesting : Nat := 250

def maxCost : Nat := 10 * 1024 * 1024

structure Flags where
  insensitive : Bool := false
  multiLine : Bool := false
  dotAll : Bool := false
  carriage : Bool := false
  spaced : Bool := false
  wide : Bool := true

-- The names of groups must differ.
structure State where
  flags : Flags
  names : List String
  rest : List Char

abbrev Read := StateT State Option

def peek : Read (Option Char) := do return (← get).rest.head?

def advance : Read Unit := modify fun s => { s with rest := s.rest.drop 1 }

-- A comment runs from `#` to the end of the line.
def skipSpace (comment : Bool) : List Char → List Char
  | [] => []
  | c :: rest =>
    if comment then skipSpace (c != '\n') rest
    else if c = '#' then skipSpace true rest
    else if isBlank c then skipSpace false rest
    else c :: rest

-- In a pattern read with the flag `x` blanks and comments between the parts of the syntax do not
-- count.
def skip : Read Unit :=
  modify fun s => if s.flags.spaced then { s with rest := skipSpace false s.rest } else s

def next : Read Unit := do
  advance
  skip

-- Moves past the current character and gives the one after it, which must exist.
def following : Read Char := do
  next
  match (← peek) with
  | some c => return c
  | none => failure

def collect (test : Char → Bool) : Nat → Read (List Char)
  | 0 => return []
  | n + 1 => do
    match (← peek) with
    | some c =>
      if test c then
        next
        return c :: (← collect test n)
      else return []
    | none => return []

def collectAll (test : Char → Bool) : Read (List Char) := do
  collect test (← get).rest.length

def hexValue? (c : Char) : Option Nat :=
  if c.isDigit then some (c.toNat - '0'.toNat)
  else if 'a' ≤ c ∧ c ≤ 'f' then some (c.toNat - 'a'.toNat + 10)
  else if 'A' ≤ c ∧ c ≤ 'F' then some (c.toNat - 'A'.toNat + 10)
  else none

def hexNumber? (digits : List Char) : Option Nat :=
  digits.foldlM (fun n c => (hexValue? c).map (n * 16 + ·)) 0

def charOfCode? (n : Nat) : Option Char := if n.isValidChar then some (Char.ofNat n) else none

-- What a backslash and its character stand for.
inductive Escape where
  | char (c : Char)
  | set (s : CharSet)
  | look (condition : Look)

-- After the first of `count` hexadecimal digits; two digits above 7f need Unicode.
def readHexDigits (count : Nat) : Read Escape := do
  let digit : Read Char := do
    match (← peek) with
    | some c => if (hexValue? c).isSome then return c else failure
    | none => failure
  let first ← digit
  let mut digits := [first]
  for _ in List.range (count - 1) do
    next
    digits := digits ++ [← digit]
  next
  let n ← hexNumber? digits
  if count = 2 ∧ 0x7f < n ∧ ¬ (← get).flags.wide then failure
  return .char (← charOfCode? n)

def readHexBrace : Read Escape := do
  next
  let digits ← collectAll (· != '}')
  if (← peek) != some '}' ∨ digits.isEmpty then failure
  next
  return .char (← charOfCode? (← hexNumber? digits))

def readHex (count : Nat) : Read Escape := do
  if (← following) = '{' then readHexBrace else readHexDigits count

-- Splits around the first occurrence of a separator.
def cutAt? (separator : List Char) : List Char → Option (List Char × List Char)
  | [] => none
  | c :: rest =>
    if separator.isPrefixOf (c :: rest) then some ([], (c :: rest).drop separator.length)
    else (cutAt? separator rest).map fun (before, after) => (c :: before, after)

-- The class that the text between braces names, and whether its complement is meant.
def bracedClass? (name : List Char) : Option (CharSet × Bool) :=
  match cutAt? ['!', '='] name with
  | some (key, value) => (classByValue? key value).map (·, true)
  | none =>
    match (cutAt? [':'] name).orElse fun _ => cutAt? ['='] name with
    | some (key, value) => (classByValue? key value).map (·, false)
    | none => (classByName? name).map (·, false)

def foldAscii (set : CharSet) : CharSet :=
  let upper := (List.range 26).filter fun i => set.contains (0x61 + i)
  let lower := (List.range 26).filter fun i => set.contains (0x41 + i)
  set.union (.ofCodes (upper.map (0x41 + ·) ++ lower.map (0x61 + ·)))

-- Adds the other cases when case does not count.
def Flags.close (flags : Flags) (set : CharSet) : CharSet :=
  if flags.insensitive then (if flags.wide then set.foldCase else foldAscii set) else set

-- A complement holds characters beyond ASCII, so it needs Unicode.
def Flags.negate (flags : Flags) (negated : Bool) (set : CharSet) : Option CharSet :=
  if negated then if flags.wide then some set.complement else none else some set

def readUnicodeClass (negated : Bool) : Read Escape := do
  let c ← following
  let flags := (← get).flags
  let (set, other) ←
    if c = '{' then do
      next
      let name ← collectAll (· != '}')
      if (← peek) != some '}' then failure
      advance
      bracedClass? name
    else do
      if c = '\\' then failure
      next
      (classByName? [c]).map (·, false)
  if ¬ flags.wide then failure
  return .set (← flags.negate (negated != other) (flags.close set))

-- The conditions that `\b` and a word in braces stand for.
def boundary? (ascii : Bool) (word : List Char) : Option Look :=
  match String.ofList word with
  | "start" => some (.wordStart ascii)
  | "end" => some (.wordEnd ascii)
  | "start-half" => some (.wordStartHalf ascii)
  | "end-half" => some (.wordEndHalf ascii)
  | _ => none

def isBoundaryLetter (c : Char) : Bool := c.isAlpha || c == '-'

-- After `\b`: braces that open with a letter name a condition, others are a repetition.
def readBoundary (ascii : Bool) : Read Escape := do
  if (← peek) != some '{' then return .look (.boundary ascii)
  let start ← get
  if isBoundaryLetter (← following) then
    let word ← collectAll isBoundaryLetter
    if (← peek) != some '}' then failure
    advance
    return .look (← boundary? ascii word)
  else
    set start
    return .look (.boundary ascii)

def isMeta (c : Char) : Bool := "\\.+*?()|[]\x7b\x7d^$#&-~".toList.contains c

def isEscapable (c : Char) : Bool :=
  isMeta c || (c.toNat < 128 && !c.isAlphanum && c != '<' && c != '>')

-- A backslash comes first.
def readEscape : Read Escape := do
  advance
  let flags := (← get).flags
  match (← peek) with
  | none => failure
  | some 'x' => readHex 2
  | some 'u' => readHex 4
  | some 'U' => readHex 8
  | some 'p' => readUnicodeClass false
  | some 'P' => readUnicodeClass true
  | some c =>
    advance
    if let some set := classOfLetter? flags.wide c.toLower then
      return .set (← flags.negate c.isUpper set)
    if isEscapable c then return .char c
    match c with
    | 'a' => return .char '\x07'
    | 'f' => return .char '\x0c'
    | 't' => return .char '\t'
    | 'n' => return .char '\n'
    | 'r' => return .char '\r'
    | 'v' => return .char '\x0b'
    | 'A' => return .look .textStart
    | 'z' => return .look .textEnd
    | 'b' => readBoundary !flags.wide
    | 'B' => return .look (.notBoundary !flags.wide)
    | '<' => return .look (.wordStart !flags.wide)
    | '>' => return .look (.wordEnd !flags.wide)
    | _ => failure

-- An ASCII class in its own brackets, if one stands here.
def asciiClassAt? (text : List Char) : Option (CharSet × Bool × List Char) := do
  let '[' :: ':' :: text := text | none
  let (negated, text) := match text with
    | '^' :: text => (true, text)
    | text => (false, text)
  let (name, rest) ← cutAt? [':'] text
  let ']' :: rest := rest | none
  let set ← asciiClass? (String.ofList name)
  return (set, negated, rest)

inductive SetOp where
  | inter
  | diff
  | symmDiff

def SetOp.apply : SetOp → CharSet → CharSet → CharSet
  | inter, s, t => s.inter t
  | diff, s, t => s.diff t
  | symmDiff, s, t => s.symmDiff t

-- A set under construction: its items so far, how many they are and how deep they nest.
structure Union where
  set : CharSet := .empty
  count : Nat := 0
  depth : Nat := 0

def Union.add (u : Union) (set : CharSet) (depth : Nat) : Union :=
  ⟨u.set.union set, u.count + 1, max u.depth depth⟩

def Union.nesting (u : Union) : Nat := if 2 ≤ u.count then u.depth + 1 else u.depth

-- Applies the operation that waits for its second operand.
def Union.operand (flags : Flags) (pending : Option (SetOp × Union)) (u : Union) : Union :=
  match pending with
  | none => ⟨u.set, 1, u.nesting⟩
  | some (op, left) =>
    ⟨op.apply (flags.close left.set) (flags.close u.set), 1, max left.depth u.nesting + 1⟩

-- A single item of a set.
def readClassItem : Read Escape := do
  match (← peek) with
  | some '\\' => readEscape
  | some c =>
    advance
    return .char c
  | none => failure

def Flags.literal? (flags : Flags) (c : Char) : Option Nat :=
  if flags.wide ∨ c.toNat < 128 then some c.toNat else none

-- A character, a class or a range of characters. A hyphen before `]` or another hyphen is no range.
def readClassRange : Read CharSet := do
  let first ← readClassItem
  skip
  let s ← get
  let '-' :: after := s.rest | single s.flags first
  let after := if s.flags.spaced then skipSpace false after else after
  if after.head? = some ']' ∨ after.head? = some '-' then single s.flags first
  else
    let _ ← following
    let .char low := first | failure
    let .char high ← readClassItem | failure
    let low ← s.flags.literal? low
    let high ← s.flags.literal? high
    if high < low then failure
    return ⟨[(low, high)]⟩
where
  single (flags : Flags) (item : Escape) : Read CharSet := do
    if (← peek).isNone then failure
    match item with
    | .char c => return ⟨[(← flags.literal? c, c.toNat)]⟩
    | .set set => return set
    | .look _ => failure

-- Hyphens at the front, and then a closing bracket if nothing came before it, stand for themselves.
def readClassStart : Read (Bool × Union) := do
  let c ← following
  let negated := c == '^'
  if negated then let _ ← following
  let hyphens ← collectAll (· == '-')
  let hyphen : CharSet := .ofChars ['-']
  let items := hyphens.foldl (fun (u : Union) _ => u.add hyphen 0) {}
  match (← peek) with
  | none => failure
  | some ']' =>
    if items.count = 0 then
      let _ ← following
      return (negated, items.add (.ofChars [']']) 0)
    else return (negated, items)
  | some _ => return (negated, items)

mutual

-- A set in brackets, with the depth of its nesting.
def readClass : Nat → Read (CharSet × Nat)
  | 0 => failure
  | fuel + 1 => do
    let (negated, items) ← readClassStart
    readClassItems fuel negated none items

def readClassItems (fuel : Nat) (negated : Bool) (pending : Option (SetOp × Union)) (u : Union) :
    Read (CharSet × Nat) :=
  match fuel with
  | 0 => failure
  | fuel + 1 => do
    skip
    let s ← get
    let operator (op : SetOp) : Read (CharSet × Nat) := do
      advance
      advance
      readClassItems fuel negated (some (op, u.operand s.flags pending)) {}
    match s.rest with
    | [] => failure
    | '[' :: _ =>
      match asciiClassAt? s.rest with
      | some (set, other, rest) =>
        modify fun s => { s with rest }
        let set ← s.flags.negate other (s.flags.close set)
        readClassItems fuel negated pending (u.add set 0)
      | none =>
        let (set, depth) ← readClass fuel
        readClassItems fuel negated pending (u.add set depth)
    | ']' :: _ =>
      advance
      let whole := u.operand s.flags pending
      return (← s.flags.negate negated (s.flags.close whole.set), whole.depth + 1)
    | '&' :: '&' :: _ => operator .inter
    | '-' :: '-' :: _ => operator .diff
    | '~' :: '~' :: _ => operator .symmDiff
    | _ =>
      let set ← readClassRange
      readClassItems fuel negated pending (u.add set 0)

end

-- An expression and the depth of its nesting.
structure Built where
  expr : Expr
  depth : Nat

def Built.leaf (expr : Expr) : Built := ⟨expr, 0⟩

-- The parts of a branch in reverse; a change of flags is a part that cannot be repeated.
abbrev Branch := List (Option Built)

def Branch.repeated (branch : Branch) (least : Nat) (most : Option Nat) : Read Branch :=
  match branch with
  | some b :: rest => return some ⟨.times b.expr least most, b.depth + 1⟩ :: rest
  | _ => failure

def deepest (parts : List Built) : Nat := parts.foldl (fun d b => max d b.depth) 0

def Branch.build (branch : Branch) : Built :=
  let parts := branch.filterMap id
  let depth := if 2 ≤ branch.length then deepest parts + 1 else deepest parts
  ⟨parts.foldl (fun e b => match e with
    | .empty => b.expr
    | e => .cat b.expr e) .empty, depth⟩

-- Branches in reverse.
def alternatives : List Built → Built
  | [] => .leaf .empty
  | [b] => b
  | last :: others =>
    ⟨others.foldl (fun e b => .alt b.expr e) last.expr, deepest (last :: others) + 1⟩

def readDecimal : Read (Option Nat) := do
  modify fun s => { s with rest := s.rest.dropWhile isBlank }
  let digits ← collectAll Char.isDigit
  let _ ← collectAll isBlank
  if digits.isEmpty then return none
  let n := digits.foldl (fun n c => n * 10 + (c.toNat - '0'.toNat)) 0
  if n ≤ 0xffffffff then return some n else failure

-- The counts in braces; the opening brace comes first.
def readCounts : Read (Nat × Option Nat) := do
  let _ ← following
  let least ← readDecimal
  let counts ← do
    match (← peek) with
    | none => failure
    | some ',' =>
      let c ← following
      let some least := least | failure
      if c = '}' then pure (least, none)
      else do
        let some most ← readDecimal | failure
        pure (least, some most)
    | some _ =>
      let some least := least | failure
      pure (least, some least)
  if (← peek) != some '}' then failure
  next
  if (← peek) = some '?' then advance
  match counts.2 with
  | some most => if most < counts.1 then failure else return counts
  | none => return counts

-- Letters that set flags, up to a colon or a closing parenthesis. None occurs twice, and a hyphen
-- is followed by a letter; the letters after it are taken back.
def readFlags (seen : List Char) (flags : Flags) : List Char → Option (Flags × List Char)
  | [] => none
  | c :: rest =>
    if c = ':' ∨ c = ')' then
      if seen.head? = some '-' then none else some (flags, c :: rest)
    else if c ∈ seen then none
    else
      let on := !seen.contains '-'
      match c with
      | '-' => readFlags ('-' :: seen) flags rest
      | 'i' => readFlags ('i' :: seen) { flags with insensitive := on } rest
      | 'm' => readFlags ('m' :: seen) { flags with multiLine := on } rest
      | 's' => readFlags ('s' :: seen) { flags with dotAll := on } rest
      | 'R' => readFlags ('R' :: seen) { flags with carriage := on } rest
      | 'x' => readFlags ('x' :: seen) { flags with spaced := on } rest
      | 'u' => readFlags ('u' :: seen) { flags with wide := on } rest
      | 'U' => readFlags ('U' :: seen) flags rest
      | _ => none

def alphabetic : CharSet := .alphabetic

def alphanumeric : CharSet :=
  CharSet.alphabetic.union (.ofCategory fun c => c ∈ ["Nd", "Nl", "No"])

def isNameStart (c : Char) : Bool := c == '_' || alphabetic.contains c.toNat

def isNameChar (c : Char) : Bool :=
  c == '_' || c == '.' || c == '[' || c == ']' || alphanumeric.contains c.toNat

-- The name of a group, up to its closing bracket.
def readName : Read Unit := do
  let s ← get
  let (name, rest) ← cutAt? ['>'] s.rest
  match name with
  | [] => failure
  | c :: others =>
    if ¬ isNameStart c ∨ ¬ others.all isNameChar then failure
    if String.ofList name ∈ s.names then failure
    set { s with rest, names := String.ofList name :: s.names }

-- What stands between an opening parenthesis and the group's body. A group that only changes flags
-- has no body.
def readGroupStart : Read Bool := do
  next
  let s ← get
  match s.rest with
  | '?' :: '=' :: _ | '?' :: '!' :: _ | '?' :: '<' :: '=' :: _ | '?' :: '<' :: '!' :: _ => failure
  | '?' :: 'P' :: '<' :: rest | '?' :: '<' :: rest =>
    set { s with rest }
    readName
    return true
  | '?' :: rest =>
    match readFlags [] s.flags rest with
    | some (flags, c :: after) =>
      if c = ')' ∧ rest.head? = some ')' then failure
      set { s with flags, rest := after }
      return c == ':'
    | _ => failure
  | _ => return true

def anyChar (flags : Flags) : CharSet :=
  if flags.dotAll then everything
  else if flags.carriage then (CharSet.ofChars ['\n', '\r']).complement
  else (CharSet.ofChars ['\n']).complement

-- A character outside brackets; case folds it only where its other cases can be written.
def literal (c : Char) : Read Expr := do
  let flags := (← get).flags
  if flags.insensitive ∧ ¬ flags.wide ∧ 128 ≤ c.toNat then failure
  return .one (flags.close (.ofChars [c]))

def readPrimitive (c : Char) : Read Expr := do
  let flags := (← get).flags
  match c with
  | '\\' =>
    match (← readEscape) with
    | .char c => literal c
    | .set set => return .one set
    | .look condition => return .look condition
  | '.' =>
    advance
    if flags.wide then return .one (anyChar flags) else failure
  | '^' =>
    advance
    return .look (if flags.multiLine then .lineStart flags.carriage else .textStart)
  | '$' =>
    advance
    return .look (if flags.multiLine then .lineEnd flags.carriage else .textEnd)
  | c =>
    advance
    literal c

def readCountless (branch : Branch) (least : Nat) (most : Option Nat) : Read Branch := do
  let branch ← branch.repeated least most
  advance
  if (← peek) = some '?' then advance
  return branch

-- The branches up to the end of the group or of the pattern. Flags set in a group hold to its end.
def readBranches : Nat → List Built → Branch → Read Built
  | 0, _, _ => failure
  | fuel + 1, done, branch => do
    skip
    match (← peek) with
    | none | some ')' => return alternatives (branch.build :: done)
    | some '|' =>
      advance
      readBranches fuel (branch.build :: done) []
    | some '(' =>
      let outside := (← get).flags
      if (← readGroupStart) then
        let body ← readBranches fuel [] []
        if (← peek) != some ')' then failure
        modify fun s => { s with flags := outside }
        advance
        readBranches fuel done (some ⟨body.expr, body.depth + 1⟩ :: branch)
      else readBranches fuel done (none :: branch)
    | some '[' =>
      let (set, depth) ← readClass fuel
      readBranches fuel done (some ⟨.one set, depth⟩ :: branch)
    | some '?' => readBranches fuel done (← readCountless branch 0 (some 1))
    | some '*' => readBranches fuel done (← readCountless branch 0 none)
    | some '+' => readBranches fuel done (← readCountless branch 1 none)
    | some '{' =>
      let (least, most) ← readCounts
      readBranches fuel done (← branch.repeated least most)
    | some c => readBranches fuel done (some (.leaf (← readPrimitive c)) :: branch)

-- A pattern is unreadable when its syntax is wrong, when it asks for look-around, for
-- back-references or for more than `maxNesting` levels, or when the automaton it stands for would
-- exceed `maxCost` bytes by the estimate of `cost`. Every call consumes a character, so the length
-- of the pattern is fuel enough.
def readExpr? (source : List Char) : Option Expr := do
  let (built, state) ← (readBranches (2 * source.length + 2) [] []).run ⟨{}, [], source⟩
  if state.rest.isEmpty ∧ built.depth ≤ maxNesting ∧ built.expr.cost ≤ maxCost then
    some built.expr
  else none

end DocPipeline.Pattern
