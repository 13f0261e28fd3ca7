namespace DocPipeline.Yaml

def isBreak (c : Char) : Bool :=
  c == '\n' || c == '\r' || c == '\u0085' || c == '\u2028' || c == '\u2029'

def isBlank (c : Char) : Bool := c == ' ' || c == '\t'

-- Letters, digits, the underscore and the hyphen.
def isWord (c : Char) : Bool := c.isAlphanum || c == '_' || c == '-'

-- Characters that may stand in YAML text.
def isAllowed (c : Char) : Bool :=
  let n := c.toNat
  n == 0x09 || n == 0x0a || n == 0x0d || (0x20 ≤ n && n ≤ 0x7e) || n == 0x85 ||
    (0xa0 ≤ n && n ≤ 0xfffd) || 0x10000 ≤ n

def isBreakOrEnd : Option Char → Bool
  | none => true
  | some c => isBreak c

def isBlankOrEnd : Option Char → Bool
  | none => true
  | some c => isBlank c || isBreak c

-- A place in YAML text: the characters that are left, and the line, the column and the index of the
-- next one. Lines end with a line feed, a carriage return, both together, or one of three
-- separators beyond ASCII; a line's end is read as a line feed, except that the last two separators
-- are kept.
structure Cursor where
  rest : List Char
  line : Nat := 0
  column : Nat := 0
  index : Nat := 0

namespace Cursor

def peek (cur : Cursor) : Option Char := cur.rest.head?

def ahead (cur : Cursor) (n : Nat) : Option Char := cur.rest[n]?

def skip (cur : Cursor) : Cursor :=
  { cur with rest := cur.rest.drop 1, column := cur.column + 1, index := cur.index + 1 }

def skipMany : Nat → Cursor → Cursor
  | 0, cur => cur
  | n + 1, cur => skipMany n cur.skip

-- Passes over a line's end, and gives the text it is read as.
def readBreak (cur : Cursor) : List Char × Cursor :=
  let next (text rest : List Char) (size : Nat) : List Char × Cursor :=
    (text, ⟨rest, cur.line + 1, 0, cur.index + size⟩)
  match cur.rest with
  | '\r' :: '\n' :: rest => next ['\n'] rest 2
  | c :: rest =>
    if c = '\u2028' ∨ c = '\u2029' then next [c] rest 1
    else if isBreak c then next ['\n'] rest 1
    else ([], cur)
  | [] => ([], cur)

def skipBreak (cur : Cursor) : Cursor := cur.readBreak.2

def takeWhileFrom (test : Char → Bool) : Nat → Cursor → List Char × Cursor
  | 0, cur => ([], cur)
  | n + 1, cur =>
    match cur.peek with
    | some c =>
      if test c then
        let (taken, rest) := takeWhileFrom test n cur.skip
        (c :: taken, rest)
      else ([], cur)
    | none => ([], cur)

-- The longest run of characters that pass; no line's end may pass.
def takeWhile (cur : Cursor) (test : Char → Bool) : List Char × Cursor :=
  takeWhileFrom test cur.rest.length cur

def skipWhile (cur : Cursor) (test : Char → Bool) : Cursor := (cur.takeWhile test).2

def skipComment (cur : Cursor) : Cursor :=
  if cur.peek = some '#' then cur.skipWhile fun c => !isBreak c else cur

-- Blanks and a comment up to the end of a line, which is passed over too.
def endLine? (cur : Cursor) : Option Cursor :=
  let cur := (cur.skipWhile isBlank).skipComment
  if isBreakOrEnd cur.peek then some cur.skipBreak else none

-- Three hyphens or three dots alone at the start of a line.
def atDocumentMark (cur : Cursor) : Bool :=
  cur.column == 0 && (['-', '-', '-'].isPrefixOf cur.rest || ['.', '.', '.'].isPrefixOf cur.rest) &&
    isBlankOrEnd (cur.ahead 3)

end Cursor

end DocPipeline.Yaml
