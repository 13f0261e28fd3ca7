import DocPipeline.Decimal.Shortest

namespace DocPipeline.Decimal

-- The nearest natural number to a quotient.
def roundDiv (num den : Nat) : Nat :=
  let q := num / den
  let r := num % den
  if 2 * r < den then q else if den < 2 * r then q + 1 else if q % 2 = 0 then q else q + 1

-- The number with a fixed count of decimal places. The exact value is rounded to the nearest; a tie
-- goes to the even neighbour.
def Binary.fixed (x : Binary) (places : Nat) : String :=
  let value := Ratio.scaled (x.mantissa * Nat.pow 10 places) 2 x.exponent
  let digits := Nat.toDigits 10 (roundDiv value.num value.den)
  let digits := List.replicate (places + 1 - digits.length) '0' ++ digits
  let whole := digits.length - places
  (if x.negative then "-" else "") ++ String.ofList (digits.take whole) ++ "." ++
    String.ofList (digits.drop whole)

end DocPipeline.Decimal
