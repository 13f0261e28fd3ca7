import DocPipeline.Yaml.Scalar
import DocPipeline.Yaml.Token

namespace DocPipeline.Yaml

-- Where a key may have begun. In a block mapping whose column it shares it must be one.
structure KeyPlace where
  position : Nat
  mustBeKey : Bool
  line : Nat
  column : Nat
  index : Nat

-- A scalar or flow collection may turn out to be a key when a colon follows on the same line, at
-- most `maxKeyLength` characters on. The scanner therefore remembers where a key may have begun,
-- one place for each level of flow collections, and at the colon puts the tokens that make it a key
-- in front of it. A block collection is opened by the column of its first entry and ended by a
-- smaller one.
structure Scanner where
  cur : Cursor
  -- The scanned tokens in reverse, and how many there are.
  tokens : List Token := []
  count : Nat := 0
  -- Tokens that belong in front of the token at a position.
  inserted : List (Nat × List Token) := []
  indent : Int := -1
  indents : List Int := []
  -- For each open flow collection the place in the collection around it.
  outer : List (Option KeyPlace) := []
  place : Option KeyPlace := none
  keyAllowed : Bool := true

abbrev Scan := StateT Scanner Option

def maxKeyLength : Nat := 1024

namespace Scanner

def inFlow (s : Scanner) : Bool := !s.outer.isEmpty

def push (s : Scanner) (token : Token) : Scanner :=
  { s with tokens := token :: s.tokens, count := s.count + 1 }

-- Forgets a place that lies too far back.
def dropStale? (s : Scanner) : Option Scanner :=
  let stale (place : KeyPlace) : Bool :=
    place.line < s.cur.line || place.index + maxKeyLength < s.cur.index
  let check? : Option KeyPlace → Option (Option KeyPlace)
    | none => some none
    | some place =>
      if stale place then (if place.mustBeKey then none else some none) else some (some place)
  do return { s with place := ← check? s.place, outer := ← s.outer.mapM check? }

def dropPlace? (s : Scanner) : Option Scanner :=
  if s.place.any (·.mustBeKey) then none else some { s with place := none }

def savePlace? (s : Scanner) : Option Scanner :=
  if s.keyAllowed then
    s.dropPlace?.map fun s =>
      let mustBeKey := !s.inFlow && s.indent == (s.cur.column : Int)
      { s with place := some ⟨s.count, mustBeKey, s.cur.line, s.cur.column, s.cur.index⟩ }
  else some s

-- Opens a block collection if the column lies deeper than the innermost.
def openBlock (s : Scanner) (column : Nat) (position : Option Nat) (token : Token) : Scanner :=
  if s.inFlow ∨ (column : Int) ≤ s.indent then s
  else
    let s := { s with indents := s.indent :: s.indents, indent := column }
    match position with
    | none => s.push token
    | some n => { s with inserted := (n, [token]) :: s.inserted }

-- Ends the block collections that lie deeper than a column.
def closeBlocks (column : Int) : Nat → Scanner → Scanner
  | 0, s => s
  | n + 1, s =>
    if s.inFlow ∨ s.indent ≤ column then s
    else
      closeBlocks column n
        { s.push .blockEnd with indent := s.indents.headD (-1), indents := s.indents.tail }

def endBlocks (s : Scanner) (column : Int) : Scanner := closeBlocks column (s.indents.length + 1) s

def skipMany (s : Scanner) (n : Nat) : Scanner := { s with cur := s.cur.skipMany n }

-- Moves over an indicator of one character.
def indicate (s : Scanner) (token : Token) (keyAllowed : Bool) : Scanner :=
  { (s.push token).skipMany 1 with keyAllowed }

-- Passes over blanks, comments and line breaks. A tab is a blank only where no key can stand.
def skipToToken : Nat → Scanner → Scanner
  | 0, s => s
  | n + 1, s =>
    let cur := if s.cur.index = 0 ∧ s.cur.peek = some '\ufeff' then s.cur.skip else s.cur
    let cur := cur.skipWhile fun c => c == ' ' || ((s.inFlow || !s.keyAllowed) && c == '\t')
    let cur := cur.skipComment
    if cur.peek.any isBreak then
      skipToToken n { s with cur := cur.skipBreak, keyAllowed := s.keyAllowed || !s.inFlow }
    else { s with cur }

def number? (cur : Cursor) : Option (Nat × Cursor) :=
  let (digits, cur) := cur.takeWhile Char.isDigit
  if digits.isEmpty ∨ 9 < digits.length then none
  else some (digits.foldl (fun n c => n * 10 + (c.toNat - '0'.toNat)) 0, cur)

def version? (cur : Cursor) : Option (Token × Cursor) := do
  let (major, cur) ← number? (cur.skipWhile isBlank)
  if cur.peek != some '.' then none
  let (minor, cur) ← number? cur.skip
  return (.version major minor, cur)

-- A handle of tags, which begins with an exclamation mark and may end with one.
def tagHandle? (cur : Cursor) : Option (List Char × Cursor) :=
  if cur.peek = some '!' then
    let (name, cur) := cur.skip.takeWhile isWord
    if cur.peek = some '!' then some ('!' :: name ++ ['!'], cur.skip) else some ('!' :: name, cur)
  else none

def isUriChar (brackets : Bool) (c : Char) : Bool :=
  isWord c || ";/?:@&=+$.%!~*'()".toList.contains c || (brackets && ",[]".toList.contains c)

-- The bytes of percent escapes, decoded together.
def unescapeUri? : Nat → List UInt8 → List Char → Option (List Char)
  | 0, _, _ => none
  | n + 1, bytes, text =>
    let flushed (rest : Option (List Char)) : Option (List Char) := do
      let decoded ← String.fromUTF8? ⟨bytes.toArray⟩
      return decoded.toList ++ (← rest)
    match text with
    | '%' :: a :: b :: rest =>
      match hexNumber? [a, b] with
      | some code => unescapeUri? n (bytes ++ [code.toUInt8]) rest
      | none => none
    | '%' :: _ => none
    | c :: rest => flushed ((unescapeUri? n [] rest).map (c :: ·))
    | [] => flushed (some [])

def uri? (brackets : Bool) (head : List Char) (cur : Cursor) : Option (String × Cursor) := do
  let (text, cur) := cur.takeWhile (isUriChar brackets)
  if head.isEmpty ∧ text.isEmpty then none
  let text ← unescapeUri? (text.length + 1) [] text
  return (String.ofList (head.drop 1 ++ text), cur)

def tagDirective? (cur : Cursor) : Option (Token × Cursor) := do
  let (handle, cur) ← tagHandle? (cur.skipWhile isBlank)
  if handle != ['!'] ∧ (handle.length < 2 ∨ handle.getLast? != some '!') then none
  if !cur.peek.any isBlank then none
  let (start, cur) ← uri? true [] (cur.skipWhile isBlank)
  if !isBlankOrEnd cur.peek then none
  return (.tagDirective (String.ofList handle) start, cur)

def directive? (cur : Cursor) : Option (Token × Cursor) := do
  let (name, cur) := cur.skip.takeWhile isWord
  if !isBlankOrEnd cur.peek then none
  let (token, cur) ← match String.ofList name with
    | "YAML" => version? cur
    | "TAG" => tagDirective? cur
    | _ => none
  return (token, ← cur.endLine?)

-- The name of an anchor or an alias, after its indicator.
def anchorName? (cur : Cursor) : Option (String × Cursor) :=
  let (name, cur) := cur.takeWhile isWord
  let ends := isBlankOrEnd cur.peek || cur.peek.any ("?:,]\x7d%@`".toList.contains ·)
  if name.isEmpty ∨ ¬ ends then none else some (String.ofList name, cur)

-- A tag: an address in angle brackets, or a handle and a suffix.
def tag? (inFlow : Bool) (cur : Cursor) : Option (Token × Cursor) := do
  let (token, cur) ←
    if cur.ahead 1 = some '<' then do
      let (suffix, cur) ← uri? true [] (cur.skipMany 2)
      if cur.peek != some '>' then none
      pure (Token.tag "" suffix, cur.skip)
    else do
      let (handle, cur) ← tagHandle? cur
      if 2 ≤ handle.length ∧ handle.getLast? = some '!' then
        let (suffix, cur) ← uri? false [] cur
        pure (Token.tag (String.ofList handle) suffix, cur)
      else
        let (suffix, cur) ← uri? false handle cur
        pure (if suffix = "" then Token.tag "" "!" else Token.tag "!" suffix, cur)
  if isBlankOrEnd cur.peek ∨ (inFlow ∧ cur.peek = some ',') then some (token, cur) else none

def withToken (s : Scanner) (result : Token × Cursor) : Scanner :=
  { s.push result.1 with cur := result.2 }

-- What a colon makes of the place that was remembered.
def value? (s : Scanner) : Option Scanner :=
  match s.place with
  | some place =>
    let s := { s with inserted := (place.position, [.key]) :: s.inserted, place := none }
    let s := s.openBlock place.column (some place.position) .blockMappingStart
    some (s.indicate .value false)
  | none =>
    if s.inFlow then some (s.indicate .value false)
    else if s.keyAllowed then
      some ((s.openBlock s.cur.column none .blockMappingStart).indicate .value true)
    else none

def blockEntry? (s : Scanner) : Option Scanner := do
  if ¬ s.inFlow ∧ ¬ s.keyAllowed then none
  let s := s.openBlock s.cur.column none .blockSequenceStart
  return (← s.dropPlace?).indicate .blockEntry true

def key? (s : Scanner) : Option Scanner := do
  if ¬ s.inFlow ∧ ¬ s.keyAllowed then none
  let s := s.openBlock s.cur.column none .blockMappingStart
  let s ← s.dropPlace?
  return s.indicate .key !s.inFlow

def flowStart? (s : Scanner) (token : Token) : Option Scanner := do
  let s ← s.savePlace?
  return { s with outer := s.place :: s.outer, place := none }.indicate token true

def flowEnd? (s : Scanner) (token : Token) : Option Scanner := do
  let s ← s.dropPlace?
  return { s with place := s.outer.headD none, outer := s.outer.tail }.indicate token false

def documentMark? (s : Scanner) (token : Token) : Option Scanner := do
  let s ← (s.endBlocks (-1)).dropPlace?
  return { (s.push token).skipMany 3 with keyAllowed := false }

-- Scans a token in which a key may begin.
def content? (s : Scanner) (read? : Scanner → Option (Token × Cursor)) : Option Scanner := do
  let s ← s.savePlace?
  return { s.withToken (← read? s) with keyAllowed := false }

def isIndicator (c : Char) : Bool := "-?:,[]\x7b\x7d#&*!|>'\"%@`".toList.contains c

def plain? (s : Scanner) : Option Scanner := do
  let s ← s.savePlace?
  let (text, broken, cur) ← plainScalar? s.inFlow (s.indent + 1).toNat s.cur
  return { s.withToken (.scalar (String.ofList text) true, cur) with keyAllowed := broken }

def quoted? (s : Scanner) : Option Scanner :=
  s.content? fun s => do
    let (text, cur) ← quotedScalar? s.cur
    return (.scalar (String.ofList text) false, cur)

def block? (s : Scanner) : Option Scanner := do
  let s ← s.dropPlace?
  let (text, cur) ← blockScalar? s.indent s.cur
  return { s.withToken (.scalar (String.ofList text) false, cur) with keyAllowed := true }

-- Scans one token; `c` is the character it begins with.
def next? (s : Scanner) (c : Char) : Option Scanner :=
  let spaced := isBlankOrEnd (s.cur.ahead 1)
  if s.cur.column = 0 ∧ c = '%' then do
    let s ← (s.endBlocks (-1)).dropPlace?
    return { s.withToken (← directive? s.cur) with keyAllowed := false }
  else if s.cur.atDocumentMark then
    s.documentMark? (if c = '-' then .documentStart else .documentEnd)
  else if c = '[' then s.flowStart? .flowSequenceStart
  else if c = '\x7b' then s.flowStart? .flowMappingStart
  else if c = ']' then s.flowEnd? .flowSequenceEnd
  else if c = '\x7d' then s.flowEnd? .flowMappingEnd
  else if c = ',' then s.dropPlace?.map (·.indicate .flowEntry true)
  else if c = '-' ∧ spaced then s.blockEntry?
  else if c = '?' ∧ (s.inFlow ∨ spaced) then s.key?
  else if c = ':' ∧ (s.inFlow ∨ spaced) then s.value?
  else if c = '*' then
    s.content? fun s => (anchorName? s.cur.skip).map fun (name, cur) => (.alias name, cur)
  else if c = '&' then
    s.content? fun s => (anchorName? s.cur.skip).map fun (name, cur) => (.anchor name, cur)
  else if c = '!' then s.content? fun s => tag? s.inFlow s.cur
  else if (c = '|' ∨ c = '>') ∧ ¬ s.inFlow then s.block?
  else if c = '\'' ∨ c = '"' then s.quoted?
  else if !(isBlank c || isIndicator c) || (c == '-' && !(s.cur.ahead 1).any isBlank) ||
      (!s.inFlow && (c == '?' || c == ':') && !spaced) then s.plain?
  else none

-- Puts the inserted tokens in front of the tokens at their positions.
def weave (inserted : List (Nat × List Token)) (position : Nat) : List Token → List Token
  | [] => []
  | token :: rest =>
    (inserted.filter (·.1 == position)).flatMap (·.2) ++ token ::
      weave inserted (position + 1) rest

def finish? (s : Scanner) : Option (List Token) := do
  let s ← (s.endBlocks (-1)).dropPlace?
  return weave s.inserted 0 s.tokens.reverse

-- Every token but the last few takes a character, so the length of the text is fuel enough.
def run? : Nat → Scanner → Option (List Token)
  | 0, _ => none
  | n + 1, s => do
    let s ← (skipToToken (s.cur.rest.length + 1) s).dropStale?
    match s.cur.peek with
    | none => s.finish?
    | some c =>
      let s := s.endBlocks s.cur.column
      run? n (← s.next? c)

end Scanner

-- The tokens of a text, if it can be scanned. A mark of the byte order may come first.
def tokens? (text : List Char) : Option (List Token) :=
  let text := match text with
    | '\ufeff' :: rest => rest
    | text => text
  if text.all isAllowed then Scanner.run? (text.length + 2) { cur := { rest := text } } else none

end DocPipeline.Yaml
