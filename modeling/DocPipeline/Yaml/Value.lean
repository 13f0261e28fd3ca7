import DocPipeline.Json.Basic
import DocPipeline.Yaml.Node

namespace DocPipeline.Yaml

def maxDepth : Nat := 128

def digitOf? (base : Nat) (c : Char) : Option Nat :=
  (hexDigit? c).bind fun d => if d < base then some d else none

def natOfDigits? (base : Nat) (digits : List Char) : Option Nat :=
  if digits.isEmpty then none
  else digits.foldlM (fun n c => (digitOf? base c).map (n * base + ·)) 0

-- A leading zero before other digits makes a text of them.
def hasLeadingZero (text : List Char) : Bool :=
  let digits := match text with
    | '-' :: rest | '+' :: rest => rest
    | text => text
  match digits with
  | '0' :: c :: rest => (c :: rest).all Char.isDigit
  | _ => false

-- An integer with an optional sign, in one of four bases.
def integer? (text : List Char) : Option Int :=
  let (negative, body) := match text with
    | '-' :: rest => (true, rest)
    | '+' :: rest => (false, rest)
    | text => (false, text)
  let based := match body with
    | '0' :: 'x' :: rest => natOfDigits? 16 rest
    | '0' :: 'o' :: rest => natOfDigits? 8 rest
    | '0' :: 'b' :: rest => natOfDigits? 2 rest
    | _ => none
  let found := based.orElse fun _ => if hasLeadingZero text then none else natOfDigits? 10 body
  found.map fun n => if negative then -(n : Int) else n

inductive IntegerRange where
  | small
  | wide
  | huge

-- Integers that fit 64 bits are values; those that fit only 128 cannot be read.
def rangeOf (n : Int) : IntegerRange :=
  if -0x8000000000000000 ≤ n ∧ n ≤ 0xffffffffffffffff then .small
  else if -0x80000000000000000000000000000000 ≤ n ∧ n < 0x100000000000000000000000000000000
    then .wide
  else .huge

-- A decimal number with an optional sign: the digits before and after the point, and the exponent.
def decimalParts? (text : List Char) : Option (Bool × List Char × List Char × Int) := do
  let (negative, text) := match text with
    | '-' :: rest => (true, rest)
    | '+' :: rest => (false, rest)
    | text => (false, text)
  let whole := text.takeWhile Char.isDigit
  let text := text.dropWhile Char.isDigit
  let (fraction, text) := match text with
    | '.' :: rest => (rest.takeWhile Char.isDigit, rest.dropWhile Char.isDigit)
    | text => ([], text)
  if whole.isEmpty ∧ fraction.isEmpty then none
  match text with
  | [] => return (negative, whole, fraction, 0)
  | c :: rest =>
    if c != 'e' ∧ c != 'E' then none
    let (below, digits) := match rest with
      | '-' :: rest => (true, rest)
      | '+' :: rest => (false, rest)
      | rest => (false, rest)
    let n ← natOfDigits? 10 digits
    return (negative, whole, fraction, if below then -(n : Int) else n)

-- The finite double nearest to a decimal.
def finite? (text : List Char) : Option Float := do
  let (negative, whole, fraction, exponent) ← decimalParts? text
  let digits := (whole ++ fraction).dropWhile (· == '0')
  let m := (natOfDigits? 10 digits).getD 0
  let e := exponent - fraction.length
  let size := e + digits.length
  let x ←
    if m = 0 ∨ size < -400 then some 0.0
    else if 400 < size then none
    else
      let x := Float.ofScientific m (decide (e < 0)) e.natAbs
      if x.isInf then none else some x
  return if negative then -x else x

-- Null stands for the numbers that JSON does not have.
def float? (text : String) : Option Json :=
  if text ∈ [".inf", ".Inf", ".INF", "+.inf", "+.Inf", "+.INF", "-.inf", "-.Inf", "-.INF", ".nan",
      ".NaN", ".NAN"] then some .null
  else
    let body := match text.toList with
      | '+' :: rest => rest
      | text => text
    if text.toList.head? = some '+' ∧ (body.head? = some '+' ∨ body.head? = some '-') then none
    else (finite? body).map fun x => .number (.double x.toBits)

def isNullText (text : String) : Bool := text ∈ ["null", "Null", "NULL", "~"]

def boolOf? (text : String) : Option Bool :=
  if text ∈ ["true", "True", "TRUE"] then some true
  else if text ∈ ["false", "False", "FALSE"] then some false
  else none

-- A failed reading is `some none`; without a reading as an integer the answer is `none`.
def integerValue? (text : String) : Option (Option Json) :=
  match integer? text.toList with
  | none => none
  | some n =>
    match rangeOf n with
    | .small => some (some (.number (.integer n)))
    | .wide => some none
    | .huge => none

def plainValue? (text : String) : Option Json :=
  if text = "" ∨ isNullText text then some .null
  else match boolOf? text with
    | some b => some (.bool b)
    | none =>
      match integerValue? text with
      | some value => value
      | none =>
        if hasLeadingZero text.toList then some (.string text)
        else some ((float? text).getD (.string text))

def coreTag (name : String) : String := "tag:yaml.org,2002:" ++ name

-- A tag of one's own cannot be read.
def isLocal (tag : Option String) : Bool :=
  match tag with
  | some tag => tag.toList.head? == some '!'
  | none => false

def scalarValue? (text : String) (plain : Bool) (tag : Option String) : Option Json :=
  match tag with
  | none => if plain then plainValue? text else some (.string text)
  | some tag =>
    if isLocal tag then none
    else if tag = coreTag "bool" then (boolOf? text).map .bool
    else if tag = coreTag "int" then (integerValue? text).join
    else if tag = coreTag "float" then float? text
    else if tag = coreTag "null" then if isNullText text then some .null else none
    else some (.string text)

namespace Document

-- The node that a number stands for.
def anchoredNode? (d : Document) (number : Nat) : Option Node :=
  (d.anchored.filter (·.number == number)).foldl (fun best a => match best with
    | none => some a
    | some b => if b.start < a.start then some a else some b) none |>.map (·.node)

-- Follows an alias, which leaves one less to be followed.
def dealias? (d : Document) : Node → StateT Nat Option Node
  | .alias number => do
    match (← get) with
    | 0 => failure
    | left + 1 =>
      set left
      match d.anchoredNode? number with
      | some node => return node
      | none => failure
  | node => return node

def keyText? (d : Document) (node : Node) : StateT Nat Option String := do
  match (← d.dealias? node) with
  | .scalar text _ _ => return text
  | _ => failure

def value? (d : Document) : Nat → Node → StateT Nat Option Json
  | depth, node => do
    match (← d.dealias? node) with
    | .scalar text plain tag => StateT.lift (scalarValue? text plain tag)
    | .sequence tag items =>
      if isLocal tag then failure
      match depth with
      | 0 => failure
      | depth + 1 => return .array (← items.mapM (value? d depth))
    | .mapping tag entries =>
      if isLocal tag then failure
      match depth with
      | 0 => failure
      | depth + 1 =>
        let entries ← entries.mapM fun (key, node) => do
          let key ← d.keyText? key
          return (key, ← value? d depth node)
        return .ofEntries entries
    | .alias _ => failure

end Document

-- The value of a text; a text without a document is null. A plain scalar is null, a truth value, an
-- integer or a floating number if it is written like one, and a text otherwise; core tags ask for
-- one of these. The keys of a mapping are the texts of scalars, and the last of equal keys counts.
-- Collections nest at most `maxDepth` deep, and aliases are followed at most a hundred times for
-- each event.
def parse? (text : String) : Option Json := do
  let d ← document? text.toList
  match d.root with
  | none => some .null
  | some node => (d.value? maxDepth node).run' (100 * d.events)

end DocPipeline.Yaml
