import DocPipeline.Text.Category
import DocPipeline.Text.Property

namespace DocPipeline.Pattern

open Text

-- A condition on the place between two characters.
inductive Look where
  | textStart
  | textEnd
  | lineStart (carriage : Bool)
  | lineEnd (carriage : Bool)
  | boundary (ascii : Bool)
  | notBoundary (ascii : Bool)
  | wordStart (ascii : Bool)
  | wordEnd (ascii : Bool)
  | wordStartHalf (ascii : Bool)
  | wordEndHalf (ascii : Bool)
deriving DecidableEq

-- An expression is run on all positions of a text at once. Positions are the bits of a number: bit
-- `i` stands before the character at index `i`. `Expr.reach` takes a set of positions to the set of
-- those where a match begun at one of them may end, so an expression is found in a text when some
-- position is reached from any.
inductive Expr where
  | empty
  | one (set : CharSet)
  | look (condition : Look)
  | cat (first second : Expr)
  | alt (first second : Expr)
  | times (body : Expr) (least : Nat) (most : Option Nat)

def asciiWord : CharSet :=
  .ofRanges [('a'.toNat, 'z'.toNat), ('A'.toNat, 'Z'.toNat), ('0'.toNat, '9'.toNat),
    ('_'.toNat, '_'.toNat)]

-- Letters, marks, decimal digits, connecting punctuation and the joiners.
def word : CharSet :=
  CharSet.alphabetic.union
    ((CharSet.ofCategory fun c => c ∈ ["Mn", "Mc", "Me", "Nd", "Pc"]).union .joinControl)

def isWordChar (ascii : Bool) (c : Char) : Bool :=
  (if ascii then asciiWord else word).contains c.toNat

def isWord (ascii : Bool) : Option Char → Bool
  | none => false
  | some c => isWordChar ascii c

-- Whether the condition holds between the two characters, either of which may be missing.
def Look.holds (before after : Option Char) : Look → Bool
  | textStart => before.isNone
  | textEnd => after.isNone
  | lineStart false => before.isNone || before == some '\n'
  | lineEnd false => after.isNone || after == some '\n'
  | lineStart true =>
    before.isNone || before == some '\n' || (before == some '\r' && after != some '\n')
  | lineEnd true =>
    after.isNone || after == some '\r' || (after == some '\n' && before != some '\r')
  | boundary ascii => isWord ascii before != isWord ascii after
  | notBoundary ascii => isWord ascii before == isWord ascii after
  | wordStart ascii => !isWord ascii before && isWord ascii after
  | wordEnd ascii => isWord ascii before && !isWord ascii after
  | wordStartHalf ascii => !isWord ascii before
  | wordEndHalf ascii => !isWord ascii after

-- The positions of the characters that pass a test.
def marks (test : Char → Bool) : List Char → Nat
  | [] => 0
  | c :: rest => 2 * marks test rest + (test c).toNat

-- The positions that pass a test on the characters at both sides.
def gapMarks (test : Option Char → Option Char → Bool) (before : Option Char) : List Char → Nat
  | [] => (test before none).toNat
  | c :: rest => 2 * gapMarks test (some c) rest + (test before (some c)).toNat

-- `n` rounds of `f`, or as many as change anything.
def iterate (f : Nat → Nat) : Nat → Nat → Nat
  | 0, s => s
  | n + 1, s => if f s = s then s else iterate f n (f s)

-- What 0, 1, … `n` rounds of `f` reach together.
def spread (f : Nat → Nat) : Nat → Nat → Nat
  | 0, s => s
  | n + 1, s => if s ||| f s = s then s else spread f n (s ||| f s)

namespace Expr

-- Beyond one round for each position a repetition reaches nothing new.
def reach (text : List Char) : Expr → Nat → Nat
  | empty, s => s
  | one set, s => (s &&& marks (fun c => set.contains c.toNat) text) <<< 1
  | look condition, s => s &&& gapMarks (fun before after => condition.holds before after) none text
  | cat e f, s => reach text f (reach text e s)
  | alt e f, s => reach text e s ||| reach text f s
  | times e least most, s =>
    let rounds := match most with
      | none => text.length + 1
      | some most => most - least
    spread (reach text e) rounds (iterate (reach text e) least s)

def isIn (e : Expr) (text : List Char) : Bool :=
  reach text e ((1 <<< (text.length + 1)) - 1) != 0

def consumesNothing : Expr → Bool
  | empty | look _ => true
  | one _ => false
  | cat e f | alt e f => e.consumesNothing && f.consumesNothing
  | times e _ most => e.consumesNothing || most == some 0

-- An estimate of the bytes an automaton for the expression needs.
def cost : Expr → Nat
  | empty => 0
  | one set => if set.isBelow 128 then 24 + 8 * set.ranges.length else 32 + 70 * set.ranges.length
  | look _ => 24
  | cat e f => e.cost + f.cost
  | alt e f => e.cost + f.cost + 32
  | times e least most =>
    if e.consumesNothing then e.cost
    else match most with
      | none => max 1 least * e.cost + 32
      | some most => least * e.cost + (most - least) * (e.cost + 32)

end Expr

end DocPipeline.Pattern
