import DocPipeline.Yaml.Cursor

namespace DocPipeline.Yaml

-- What lies between two words: blanks, or the first line break and those after it.
structure Gap where
  blanks : List Char := []
  first : List Char := []
  more : List Char := []
  broken : Bool := false

namespace Gap

def isEmpty (gap : Gap) : Bool := gap.blanks.isEmpty && !gap.broken

-- Between two words on different lines a single line break becomes a space and of several the first
-- is dropped.
def folded (first more : List Char) : List Char :=
  if first.head? = some '\n' then (if more.isEmpty then [' '] else more) else first ++ more

def text (gap : Gap) : List Char := if gap.broken then folded gap.first gap.more else gap.blanks

-- Reads on through blanks and line breaks. A tab before column `indent` of a new line is an error.
def read? (indent : Nat) : Nat → Gap → Cursor → Option (Gap × Cursor)
  | 0, gap, cur => some (gap, cur)
  | n + 1, gap, cur =>
    match cur.peek with
    | none => some (gap, cur)
    | some c =>
      if isBlank c then
        if gap.broken then
          if c = '\t' ∧ cur.column < indent then none else read? indent n gap cur.skip
        else read? indent n { gap with blanks := gap.blanks ++ [c] } cur.skip
      else if isBreak c then
        let (text, next) := cur.readBreak
        if gap.broken then read? indent n { gap with more := gap.more ++ text } next
        else read? indent n { first := text, broken := true } next
      else some (gap, cur)

end Gap

def hexDigit? (c : Char) : Option Nat :=
  if c.isDigit then some (c.toNat - '0'.toNat)
  else if 'a' ≤ c ∧ c ≤ 'f' then some (c.toNat - 'a'.toNat + 10)
  else if 'A' ≤ c ∧ c ≤ 'F' then some (c.toNat - 'A'.toNat + 10)
  else none

def hexNumber? (digits : List Char) : Option Nat :=
  digits.foldlM (fun n c => (hexDigit? c).map (n * 16 + ·)) 0

-- What a backslash and a character stand for in a double-quoted scalar.
def escaped? : Char → Option Char
  | '0' => some '\x00'
  | 'a' => some '\x07'
  | 'b' => some '\x08'
  | 't' => some '\t'
  | '\t' => some '\t'
  | 'n' => some '\n'
  | 'v' => some '\x0b'
  | 'f' => some '\x0c'
  | 'r' => some '\r'
  | 'e' => some '\x1b'
  | ' ' => some ' '
  | '"' => some '"'
  | '/' => some '/'
  | '\\' => some '\\'
  | 'N' => some '\u0085'
  | '_' => some '\u00a0'
  | 'L' => some '\u2028'
  | 'P' => some '\u2029'
  | _ => none

def escapeLength? : Char → Option Nat
  | 'x' => some 2
  | 'u' => some 4
  | 'U' => some 8
  | _ => none

-- Reads an escape, after its backslash.
def readEscape? (cur : Cursor) : Option (Char × Cursor) := do
  let c ← cur.peek
  match escapeLength? c with
  | none => return (← escaped? c, cur.skip)
  | some n =>
    let digits := cur.skip.rest.take n
    if digits.length < n then none
    let code ← hexNumber? digits
    if code.isValidChar then some (Char.ofNat code, cur.skip.skipMany n) else none

-- Reads characters up to a blank, a line break or the closing quote; tells whether the line was
-- ended by a backslash.
def readWord? (single : Bool) : Nat → List Char → Cursor → Option (List Char × Bool × Cursor)
  | 0, done, cur => some (done, false, cur)
  | n + 1, done, cur =>
    match cur.rest with
    | [] => some (done, false, cur)
    | c :: rest =>
      if isBlank c || isBreak c then some (done, false, cur)
      else if single then
        if c = '\'' then
          if rest.head? = some '\'' then readWord? single n (done ++ ['\'']) (cur.skipMany 2)
          else some (done, false, cur)
        else readWord? single n (done ++ [c]) cur.skip
      else if c = '"' then some (done, false, cur)
      else if c = '\\' then
        if rest.head?.any isBreak then some (done, true, cur.skip.skipBreak)
        else
          match readEscape? cur.skip with
          | some (c, next) => readWord? single n (done ++ [c]) next
          | none => none
      else readWord? single n (done ++ [c]) cur.skip

def readQuoted? (single : Bool) : Nat → List Char → Cursor → Option (List Char × Cursor)
  | 0, _, _ => none
  | n + 1, done, cur => do
    if cur.atDocumentMark ∨ cur.rest.isEmpty then none
    let (done, broken, cur) ← readWord? single cur.rest.length done cur
    if cur.peek = some (if single then '\'' else '"') then return (done, cur.skip)
    let (gap, cur) ← Gap.read? 0 cur.rest.length { broken } cur
    readQuoted? single n (done ++ gap.text) cur

-- The text of a quoted scalar; the cursor is at its opening quote.
def quotedScalar? (cur : Cursor) : Option (List Char × Cursor) :=
  readQuoted? (cur.peek == some '\'') (cur.rest.length + 1) [] cur.skip

def isFlowIndicator (c : Char) : Bool :=
  c == ',' || c == '[' || c == ']' || c == '\x7b' || c == '\x7d'

-- Reads the characters of a plain scalar up to a blank, a line break or an indicator. What came
-- before the first of them is the gap.
def readPlainWord? (inFlow : Bool) :
    Nat → List Char → Gap → Cursor → Option (List Char × Gap × Cursor)
  | 0, done, gap, cur => some (done, gap, cur)
  | n + 1, done, gap, cur =>
    match cur.rest with
    | [] => some (done, gap, cur)
    | c :: rest =>
      if isBlank c || isBreak c then some (done, gap, cur)
      else if inFlow && c == ':' && rest.head?.any fun d => d == '?' || isFlowIndicator d then none
      else if (c == ':' && isBlankOrEnd rest.head?) || (inFlow && isFlowIndicator c) then
        some (done, gap, cur)
      else readPlainWord? inFlow n (done ++ gap.text ++ [c]) {} cur.skip

def readPlain? (inFlow : Bool) (indent : Nat) :
    Nat → List Char → Gap → Cursor → Option (List Char × Gap × Cursor)
  | 0, done, gap, cur => some (done, gap, cur)
  | n + 1, done, gap, cur => do
    if cur.atDocumentMark ∨ cur.peek = some '#' then return (done, gap, cur)
    let (done, gap, cur) ← readPlainWord? inFlow cur.rest.length done gap cur
    if !(cur.peek.any fun c => isBlank c || isBreak c) then return (done, gap, cur)
    let (gap, cur) ← Gap.read? indent cur.rest.length gap cur
    if !inFlow && cur.column < indent then return (done, gap, cur)
    readPlain? inFlow indent n done gap cur

-- The text of a plain scalar in a block at `indent`, and whether a line break follows it.
def plainScalar? (inFlow : Bool) (indent : Nat) (cur : Cursor) :
    Option (List Char × Bool × Cursor) :=
  (readPlain? inFlow indent (cur.rest.length + 1) [] {} cur).map fun (text, gap, cur) =>
    (text, gap.broken, cur)

inductive Chomp where
  | strip
  | clip
  | keep
deriving DecidableEq

def chompOf? (c : Char) : Option Chomp :=
  if c = '+' then some .keep else if c = '-' then some .strip else none

-- The header of a block scalar after its indicator: how it ends, and its indentation if given.
def blockHeader? (cur : Cursor) : Option (Chomp × Nat × Cursor) := do
  let chomp (cur : Cursor) : Option Chomp × Cursor :=
    match cur.peek.bind chompOf? with
    | some chomp => (some chomp, cur.skip)
    | none => (none, cur)
  let digit? (cur : Cursor) : Option (Nat × Cursor) :=
    match cur.peek with
    | some c =>
      if c = '0' then none
      else if c.isDigit then some (c.toNat - '0'.toNat, cur.skip)
      else some (0, cur)
    | none => some (0, cur)
  let (before, cur) := chomp cur
  let (indent, cur) ← digit? cur
  let (after, cur) := if before.isNone ∧ indent ≠ 0 then chomp cur else (none, cur)
  return ((before.orElse fun _ => after).getD .clip, indent, ← cur.endLine?)

-- Passes over empty lines and the indentation of the next line, as far as `indent` if it is not
-- zero. Gives the line breaks and the deepest column reached.
def readBreaks? (indent : Nat) : Nat → List Char → Nat → Cursor → Option (List Char × Nat × Cursor)
  | 0, breaks, deepest, cur => some (breaks, deepest, cur)
  | n + 1, breaks, deepest, cur =>
    let inside (cur : Cursor) : Bool := indent == 0 || cur.column < indent
    let spaces := (cur.takeWhile (· == ' ')).1.length
    let cur := cur.skipMany (if indent = 0 then spaces else min spaces (indent - cur.column))
    let deepest := max deepest cur.column
    if inside cur ∧ cur.peek = some '\t' then none
    else if cur.peek.any isBreak then
      let (text, next) := cur.readBreak
      readBreaks? indent n (breaks ++ text) deepest next
    else some (breaks, deepest, cur)

-- What has been read of a block scalar: its text, the break that ended its last line, the breaks
-- after that, and whether that line began with a blank.
structure BlockText where
  text : List Char := []
  lineEnd : List Char := []
  breaks : List Char := []
  startedBlank : Bool := false

-- Joins the next line. A folded scalar turns a single break between lines into a space, unless one
-- of them begins with a blank.
def BlockText.join (literal : Bool) (b : BlockText) (blank : Bool) : List Char :=
  if !literal && b.lineEnd.head? == some '\n' && !b.startedBlank && !blank then
    b.text ++ (if b.breaks.isEmpty then [' '] else []) ++ b.breaks
  else b.text ++ b.lineEnd ++ b.breaks

def readBlockLines? (literal : Bool) (indent : Nat) :
    Nat → BlockText → Cursor → Option (BlockText × Cursor)
  | 0, b, cur => some (b, cur)
  | n + 1, b, cur =>
    if cur.column = indent ∧ ¬ cur.rest.isEmpty then
      let blank := cur.peek.any isBlank
      let joined := b.join literal blank
      let (line, cur) := cur.takeWhile fun c => !isBreak c
      let (lineEnd, cur) := cur.readBreak
      match readBreaks? indent (cur.rest.length + 1) [] 0 cur with
      | none => none
      | some (breaks, _, cur) =>
        readBlockLines? literal indent n ⟨joined ++ line, lineEnd, breaks, blank⟩ cur
    else some (b, cur)

-- The text of a block scalar in a block at `parent`; the cursor is at its indicator.
def blockScalar? (parent : Int) (cur : Cursor) : Option (List Char × Cursor) := do
  let literal := cur.peek == some '|'
  let (chomp, increment, cur) ← blockHeader? cur.skip
  let given := if increment = 0 then 0 else (max parent 0).toNat + increment
  let (breaks, deepest, cur) ← readBreaks? given (cur.rest.length + 1) [] 0 cur
  let indent := if given = 0 then max (max deepest (parent + 1).toNat) 1 else given
  let (b, cur) ← readBlockLines? literal indent (cur.rest.length + 1) { breaks } cur
  let lineEnd := if chomp = .strip then [] else b.lineEnd
  let breaks := if chomp = .keep then b.breaks else []
  return (b.text ++ lineEnd ++ breaks, cur)

end DocPipeline.Yaml
