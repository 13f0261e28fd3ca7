namespace DocPipeline.Text

-- Sets of code points as lists of ranges, and the text form of the tables that describe them. A set
-- is canonical when its ranges increase and do not touch; every operation here gives a canonical
-- set.
structure CharSet where
  ranges : List (Nat × Nat)
deriving DecidableEq, Inhabited

def maxCode : Nat := 0x10ffff

namespace CharSet

def empty : CharSet := ⟨[]⟩

-- Joins ranges that come in the order of their first members.
def joinRanges : List (Nat × Nat) → List (Nat × Nat)
  | [] => []
  | (low, high) :: rest =>
    match joinRanges rest with
    | (low', high') :: rest' =>
      if low' ≤ high + 1 then (low, max high high') :: rest'
      else (low, high) :: (low', high') :: rest'
    | [] => [(low, high)]

def ofRanges (ranges : List (Nat × Nat)) : CharSet :=
  ⟨joinRanges (ranges.mergeSort fun p q => p.1 ≤ q.1)⟩

def ofCodes (codes : List Nat) : CharSet := ofRanges (codes.map fun code => (code, code))

def ofChars (chars : List Char) : CharSet := ofCodes (chars.map Char.toNat)

def contains (set : CharSet) (code : Nat) : Bool :=
  set.ranges.any fun (low, high) => low ≤ code && code ≤ high

def isEmpty (set : CharSet) : Bool := set.ranges.isEmpty

def union (s t : CharSet) : CharSet := ofRanges (s.ranges ++ t.ranges)

-- The gaps from `next` on between ranges that increase.
def gaps (next : Nat) : List (Nat × Nat) → List (Nat × Nat)
  | [] => if next ≤ maxCode then [(next, maxCode)] else []
  | (low, high) :: rest =>
    if next < low then (next, low - 1) :: gaps (high + 1) rest else gaps (high + 1) rest

def complement (set : CharSet) : CharSet := ⟨gaps 0 set.ranges⟩

def inter (s t : CharSet) : CharSet := (s.complement.union t.complement).complement

def diff (s t : CharSet) : CharSet := s.inter t.complement

def symmDiff (s t : CharSet) : CharSet := (s.diff t).union (t.diff s)

-- Every member lies below a bound.
def isBelow (set : CharSet) (bound : Nat) : Bool := set.ranges.all (·.2 < bound)

end CharSet

def digit36 (c : Char) : Nat :=
  if c.isDigit then c.toNat - '0'.toNat else c.toNat - 'a'.toNat + 10

def number36 (digits : List Char) : Nat := digits.foldl (fun n c => n * 36 + digit36 c) 0

-- The words of a table, which blanks and line feeds separate.
def words (table : String) : List (List Char) :=
  (table.toList.splitOnP fun c => c == ' ' || c == '\n').filter (!·.isEmpty)

def numbers (table : String) : List Nat := (words table).map number36

namespace CharSet

-- The ranges of the runs that pass, from `next` on.
def rangesOfRuns (tagLength : Nat) (test : String → Bool) (next : Nat) :
    List (List Char) → List (Nat × Nat)
  | [] => []
  | run :: rest =>
    let size := number36 (run.drop tagLength)
    let others := rangesOfRuns tagLength test (next + size) rest
    if test (String.ofList (run.take tagLength)) then (next, next + size - 1) :: others else others

def ofRuns (tagLength : Nat) (table : String) (test : String → Bool) : CharSet :=
  ofRanges (rangesOfRuns tagLength test 0 (words table))

def rangesOfGaps (next : Nat) : List Nat → List (Nat × Nat)
  | gap :: size :: rest =>
    (next + gap, next + gap + size - 1) :: rangesOfGaps (next + gap + size) rest
  | [gap] => [(next + gap, maxCode)]
  | [] => []

def ofGaps (table : String) : CharSet := ⟨rangesOfGaps 0 (numbers table)⟩

end CharSet

end DocPipeline.Text
