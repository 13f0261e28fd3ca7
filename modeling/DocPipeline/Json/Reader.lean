import DocPipeline.Json.Basic
import DocPipeline.Json.Comment

namespace DocPipeline.Json

def skipSpace : List Char → List Char
  | c :: rest =>
    if c = ' ' ∨ c = '\n' ∨ c = '\t' ∨ c = '\r' then skipSpace rest else c :: rest
  | [] => []

def hexDigit? (c : Char) : Option Nat :=
  if '0' ≤ c ∧ c ≤ '9' then some (c.toNat - '0'.toNat)
  else if 'a' ≤ c ∧ c ≤ 'f' then some (c.toNat - 'a'.toNat + 10)
  else if 'A' ≤ c ∧ c ≤ 'F' then some (c.toNat - 'A'.toNat + 10)
  else none

def hex4? (a b c d : Char) : Option Nat := do
  let a ← hexDigit? a
  let b ← hexDigit? b
  let c ← hexDigit? c
  let d ← hexDigit? d
  return ((a * 16 + b) * 16 + c) * 16 + d

def escape? : Char → Option Char
  | '"' => some '"'
  | '\\' => some '\\'
  | '/' => some '/'
  | 'b' => some '\x08'
  | 'f' => some '\x0c'
  | 'n' => some '\n'
  | 'r' => some '\r'
  | 't' => some '\t'
  | _ => none

-- The rest of a string, after its opening quote; what was read is kept in reverse. Halves of a
-- surrogate pair stand only together.
def stringTail (done : List Char) : List Char → Option (String × List Char)
  | [] => none
  | '"' :: rest => some (String.ofList done.reverse, rest)
  | '\\' :: 'u' :: a :: b :: c :: d :: rest =>
    match hex4? a b c d with
    | none => none
    | some high =>
      if 0xd800 ≤ high ∧ high < 0xdc00 then
        match rest with
        | '\\' :: 'u' :: e :: f :: g :: h :: rest =>
          match hex4? e f g h with
          | none => none
          | some low =>
            if 0xdc00 ≤ low ∧ low < 0xe000 then
              stringTail (Char.ofNat (0x10000 + (high - 0xd800) * 0x400 + (low - 0xdc00)) :: done)
                rest
            else none
        | _ => none
      else if 0xdc00 ≤ high ∧ high < 0xe000 then none
      else stringTail (Char.ofNat high :: done) rest
  | '\\' :: c :: rest =>
    match escape? c with
    | none => none
    | some c => stringTail (c :: done) rest
  | c :: rest => if c.toNat < 0x20 ∨ c = '\\' then none else stringTail (c :: done) rest

def digitValue (c : Char) : Nat := c.toNat - '0'.toNat

def natOfDigits (digits : List Char) : Nat :=
  digits.foldl (fun n c => n * 10 + digitValue c) 0

def maxSignificand : Nat := 0xffffffffffffffff

-- Takes digits while the number they form fits 64 bits; counts those taken and those left.
def takeDigits (n : Nat) (taken : Nat) : List Char → Nat × Nat × Nat
  | [] => (n, taken, 0)
  | c :: rest =>
    if n * 10 + digitValue c ≤ maxSignificand then
      takeDigits (n * 10 + digitValue c) (taken + 1) rest
    else (n, taken, rest.length + 1)

-- The text of a number without its sign, taken apart.
structure NumberText where
  whole : List Char
  fraction : List Char
  exponent : Option (Bool × List Char)

def power (e : Nat) : Float := Float.ofScientific 1 false e

-- The double for `n · 10^e`, if it is not beyond the largest.
def scale? (n : Nat) (e : Int) : Option Float :=
  let x := Float.ofNat n
  if n = 0 then some x
  else if 0 ≤ e then
    if 308 < e then none
    else
      let y := x * power e.toNat
      if y.isInf then none else some y
  else
    let steps := (-e).toNat
    if steps ≤ 308 then some (x / power steps)
    else if steps ≤ 616 then some (x / power 308 / power (steps - 308))
    else some 0.0

def largestExponent : Nat := 0x7fffffff

def NumberText.double? (t : NumberText) : Option Float :=
  let (n, _, dropped) := takeDigits 0 0 t.whole
  let (n, taken, _) := takeDigits n 0 t.fraction
  let start : Int := (dropped : Int) - taken
  match t.exponent with
  | none => scale? n start
  | some (negative, digits) =>
    let e := natOfDigits digits
    if largestExponent < e then if n ≠ 0 ∧ ¬ negative then none else some 0.0
    else scale? n (if negative then start - e else start + e)

-- A number without point and exponent that fits 64 bits is an integer. Any other number is the
-- double obtained from its leading digits, as many as fit 64 bits, and a power of ten: both are
-- rounded to doubles and then multiplied or divided. A number beyond the largest double is an
-- error.
def NumberText.value? (negative : Bool) (t : NumberText) : Option Number :=
  let n := natOfDigits t.whole
  let plain := t.fraction.isEmpty && t.exponent.isNone
  if plain && !negative && n ≤ maxSignificand then some (.integer n)
  else if plain && negative && n ≠ 0 && n ≤ 0x8000000000000000 then some (.integer (-n))
  else t.double?.map fun x => .double (if negative then -x else x).toBits

def digitsAndRest (s : List Char) : List Char × List Char :=
  (s.takeWhile Char.isDigit, s.dropWhile Char.isDigit)

def readWhole? : List Char → Option (List Char × List Char)
  | '0' :: rest =>
    match rest with
    | c :: _ => if c.isDigit then none else some (['0'], rest)
    | [] => some (['0'], rest)
  | s =>
    let (digits, rest) := digitsAndRest s
    if digits.isEmpty then none else some (digits, rest)

def readFraction? : List Char → Option (List Char × List Char)
  | '.' :: rest =>
    let (digits, rest) := digitsAndRest rest
    if digits.isEmpty then none else some (digits, rest)
  | s => some ([], s)

def readExponentDigits? (negative : Bool) (s : List Char) :
    Option (Option (Bool × List Char) × List Char) :=
  let (digits, rest) := digitsAndRest s
  if digits.isEmpty then none else some (some (negative, digits), rest)

def readExponent? : List Char → Option (Option (Bool × List Char) × List Char)
  | c :: rest =>
    if c = 'e' ∨ c = 'E' then
      match rest with
      | '+' :: rest => readExponentDigits? false rest
      | '-' :: rest => readExponentDigits? true rest
      | rest => readExponentDigits? false rest
    else some (none, c :: rest)
  | [] => some (none, [])

def readUnsigned? (negative : Bool) (s : List Char) : Option (Json × List Char) := do
  let (whole, s) ← readWhole? s
  let (fraction, s) ← readFraction? s
  let (exponent, s) ← readExponent? s
  let value ← NumberText.value? negative ⟨whole, fraction, exponent⟩
  return (number value, s)

-- A value that holds no other values.
def readScalar? : List Char → Option (Json × List Char)
  | 't' :: 'r' :: 'u' :: 'e' :: rest => some (bool true, rest)
  | 'f' :: 'a' :: 'l' :: 's' :: 'e' :: rest => some (bool false, rest)
  | 'n' :: 'u' :: 'l' :: 'l' :: rest => some (null, rest)
  | '"' :: rest => (stringTail [] rest).map fun (text, rest) => (string text, rest)
  | '-' :: rest => readUnsigned? true rest
  | s => readUnsigned? false s

section Containers

variable (value? : List Char → Option (Json × List Char))

def readItems? : Nat → List Json → List Char → Option (Json × List Char)
  | 0, _, _ => none
  | fuel + 1, done, s =>
    match value? s with
    | none => none
    | some (item, s) =>
      match skipSpace s with
      | ',' :: s => readItems? fuel (item :: done) s
      | ']' :: s => some (array (item :: done).reverse, s)
      | _ => none

def readArray? (s : List Char) : Option (Json × List Char) :=
  match skipSpace s with
  | ']' :: s => some (array [], s)
  | s => readItems? value? (s.length + 1) [] s

def readEntry? (s : List Char) : Option ((String × Json) × List Char) :=
  match skipSpace s with
  | '"' :: s =>
    match stringTail [] s with
    | none => none
    | some (key, s) =>
      match skipSpace s with
      | ':' :: s => (value? s).map fun (value, s) => ((key, value), s)
      | _ => none
  | _ => none

def readEntries? : Nat → List (String × Json) → List Char → Option (Json × List Char)
  | 0, _, _ => none
  | fuel + 1, done, s =>
    match readEntry? value? s with
    | none => none
    | some (entry, s) =>
      match skipSpace s with
      | ',' :: s => readEntries? fuel (entry :: done) s
      | '}' :: s => some (object (entry :: done).reverse, s)
      | _ => none

def readObject? (s : List Char) : Option (Json × List Char) :=
  match skipSpace s with
  | '}' :: s => some (object [], s)
  | s => readEntries? value? (s.length + 1) [] s

end Containers

-- Reads one value that nests at most `depth` deep.
def readValue? : Nat → List Char → Option (Json × List Char)
  | 0, s => readScalar? (skipSpace s)
  | depth + 1, s =>
    match skipSpace s with
    | '[' :: rest => readArray? (readValue? depth) rest
    | '{' :: rest => readObject? (readValue? depth) rest
    | s => readScalar? s

def maxDepth : Nat := 127

-- The value of a text with its entries as they stand. Arrays and objects nest at most 127 deep.
def read? (text : List Char) : Option Json :=
  match readValue? maxDepth text with
  | some (value, rest) => if (skipSpace rest).isEmpty then some value else none
  | none => none

-- The value of a text is canonical, so that the last of equal keys counts.
def parse? (text : String) : Option Json := (read? text.toList).map canonical

def parseCommented? (text : String) : Option Json :=
  ((blankComments text.toList).bind read?).map canonical

end DocPipeline.Json
