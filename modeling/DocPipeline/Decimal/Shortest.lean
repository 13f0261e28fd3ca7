namespace DocPipeline.Decimal

structure Binary where
  negative : Bool
  mantissa : Nat
  exponent : Int
deriving DecidableEq

-- The leading one of a mantissa, which the bits leave out.
def leadingOne : Nat := 0x10000000000000

-- The parts of a double's 64 bits; a number too small for a leading one has none.
def Binary.ofBits (bits : UInt64) : Binary :=
  let biased := ((bits >>> 52) &&& 0x7ff).toNat
  let fraction := (bits &&& 0xfffffffffffff).toNat
  let negative := bits >>> 63 == 1
  if biased = 0 then ⟨negative, fraction, -1074⟩
  else ⟨negative, fraction + leadingOne, (biased : Int) - 1075⟩

-- A non-negative rational number.
structure Ratio where
  num : Nat
  den : Nat

def Ratio.le (x y : Ratio) : Bool := x.num * y.den ≤ y.num * x.den

def Ratio.lt (x y : Ratio) : Bool := x.num * y.den < y.num * x.den

-- The rational `n · base^e`.
def Ratio.scaled (n base : Nat) (e : Int) : Ratio :=
  if 0 ≤ e then ⟨n * base.pow e.toNat, 1⟩ else ⟨n, base.pow (-e).toNat⟩

-- The reals that round to a finite double `m · 2^q` form an interval around it, ends included when
-- `m` is even. It is given in quarters of the number's last place. Below a power of two the numbers
-- lie twice as close.
structure Interval where
  low : Ratio
  value : Ratio
  high : Ratio
  closed : Bool

def Binary.interval (x : Binary) : Interval :=
  let below := if x.mantissa = leadingOne ∧ -1074 < x.exponent then 1 else 2
  { low := .scaled (4 * x.mantissa - below) 2 (x.exponent - 2)
    value := .scaled (4 * x.mantissa) 2 (x.exponent - 2)
    high := .scaled (4 * x.mantissa + 2) 2 (x.exponent - 2)
    closed := x.mantissa % 2 == 0 }

def Interval.contains (i : Interval) (x : Ratio) : Bool :=
  if i.closed then i.low.le x && x.le i.high else i.low.lt x && x.lt i.high

-- The exponent of the leading decimal digit of a positive rational.
def Ratio.leading (x : Ratio) : Int :=
  if x.den ≤ x.num then ((Nat.toDigits 10 (x.num / x.den)).length : Int) - 1
  else
    let up := (Nat.toDigits 10 (x.den / x.num)).length
    if x.den ≤ x.num * Nat.pow 10 (up - 1) then -((up : Int) - 1) else -(up : Int)

-- The grid point of `unit`-sized steps that serves the interval best, if one lies in it.
def Interval.pick? (i : Interval) (exponent : Int) : Option Nat :=
  let unit := Ratio.scaled 1 10 exponent
  let below := i.value.num * unit.den / (i.value.den * unit.num)
  let point (n : Nat) : Ratio := ⟨n * unit.num, unit.den⟩
  let twice : Ratio := ⟨2 * i.value.num, i.value.den⟩
  let middle : Ratio := ⟨(2 * below + 1) * unit.num, unit.den⟩
  match i.contains (point below) && below != 0, i.contains (point (below + 1)) with
  | true, false => some below
  | false, true => some (below + 1)
  | true, true =>
    if twice.lt middle then some below
    else if middle.lt twice then some (below + 1)
    else some (if below % 2 = 0 then below else below + 1)
  | false, false => none

-- For 1, 2, … 17 digits the number's two neighbours on that decimal grid are tried, in exact
-- arithmetic; the first grid with a neighbour in the interval wins, and of two neighbours the
-- nearer.
def Interval.search (i : Interval) (leading : Int) : Nat → Nat → Nat × Int
  | _, 0 => (i.value.num / i.value.den, 0)
  | digits, tries + 1 =>
    let exponent := leading - digits + 1
    match i.pick? exponent with
    | some n => (n, exponent)
    | none => i.search leading (digits + 1) tries

def stripZeros : Nat → Nat × Int → Nat × Int
  | 0, r => r
  | fuel + 1, (n, e) => if n % 10 = 0 ∧ n ≠ 0 then stripZeros fuel (n / 10, e + 1) else (n, e)

-- The digits `n` and the exponent `e` of the shortest decimal `n · 10^e`, `n` not ending in zero.
def shortest (x : Binary) : Nat × Int :=
  let i := x.interval
  stripZeros 20 (i.search i.value.leading 1 17)

-- How a format writes such a decimal.
structure Style where
  -- the largest count of digits before the point in positional notation
  maxWhole : Int
  -- the largest count of zeros between the point and the first digit
  maxZeros : Int
  -- the least count of exponent digits
  exponentDigits : Nat

def zeros (n : Nat) : String := String.ofList (List.replicate n '0')

-- Positional notation keeps one digit on each side of the point; the exponent carries its sign.
def Style.write (style : Style) (x : Binary) : String :=
  let sign := if x.negative then "-" else ""
  if x.mantissa = 0 then sign ++ "0.0"
  else
    let (n, e) := shortest x
    let digits := Nat.toDigits 10 n
    let point : Int := digits.length + e
    if 0 ≤ e ∧ point ≤ style.maxWhole then
      sign ++ String.ofList digits ++ zeros e.toNat ++ ".0"
    else if 0 < point ∧ point ≤ style.maxWhole then
      sign ++ String.ofList (digits.take point.toNat) ++ "." ++
        String.ofList (digits.drop point.toNat)
    else if -style.maxZeros ≤ point ∧ point ≤ 0 then
      sign ++ "0." ++ zeros (-point).toNat ++ String.ofList digits
    else
      let fraction := digits.drop 1
      let mantissa := String.ofList (digits.take 1) ++
        if fraction.isEmpty then "" else "." ++ String.ofList fraction
      let power := Nat.toDigits 10 (point - 1).natAbs
      sign ++ mantissa ++ (if point - 1 < 0 then "e-" else "e+") ++
        zeros (style.exponentDigits - power.length) ++ String.ofList power

end DocPipeline.Decimal
