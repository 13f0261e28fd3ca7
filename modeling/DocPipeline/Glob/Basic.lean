import DocPipeline.Path.Basic

namespace DocPipeline

inductive GlobError where
  | wildcards (position : Nat)
  | recursiveWildcards (position : Nat)
  | range (position : Nat)
deriving DecidableEq, Inhabited

namespace GlobError

def position : GlobError → Nat
  | wildcards n => n
  | recursiveWildcards n => n
  | range n => n

def reason : GlobError → String
  | wildcards _ => "wildcards are either regular \x60*\x60 or recursive \x60**\x60"
  | recursiveWildcards _ => "recursive wildcards must form a single path component"
  | range _ => "invalid range pattern"

def message (e : GlobError) : String :=
  "Pattern syntax error near position " ++ toString e.position ++ ": " ++ e.reason

end GlobError

namespace Glob

inductive Token where
  | char (c : Char)
  | anyChar
  | anyChars
  | anyDepth
  | within (ranges : List (Char × Char))
  | except (ranges : List (Char × Char))
deriving DecidableEq, Inhabited

def Token.char? : Token → Option Char
  | char c => some c
  | _ => none

-- The characters between brackets, where a hyphen between two of them makes a range.
def charRanges : List Char → List (Char × Char)
  | low :: '-' :: high :: rest => (low, high) :: charRanges rest
  | c :: rest => (c, c) :: charRanges rest
  | [] => []

-- A set at an opening bracket, and what follows it. The first character listed may be a closing
-- bracket.
def set? : List Char → Option (Token × List Char)
  | '[' :: '!' :: first :: rest =>
    if rest.contains ']' then
      some (.except (charRanges (first :: rest.takeWhile (· != ']'))),
        (rest.dropWhile (· != ']')).drop 1)
    else none
  | '[' :: first :: rest =>
    if first ≠ '!' ∧ rest.contains ']' then
      some (.within (charRanges (first :: rest.takeWhile (· != ']'))),
        (rest.dropWhile (· != ']')).drop 1)
    else none
  | _ => none

-- Reads a pattern from a position on, after the character `before`. Two stars must be a segment.
def readTokens : Nat → Nat → Option Char → List Char → Except GlobError (List Token)
  | 0, _, _, _ => .ok []
  | _, _, _, [] => .ok []
  | n + 1, position, before, c :: rest => do
    if c = '?' then return .anyChar :: (← readTokens n (position + 1) (some c) rest)
    else if c = '*' then
      let stars := (c :: rest).takeWhile (· == '*')
      let rest := (c :: rest).dropWhile (· == '*')
      if 2 < stars.length then throw (.wildcards (position + 2))
      else if stars.length = 1 then
        return .anyChars :: (← readTokens n (position + 1) (some '*') rest)
      else if before.all (· == '/') then
        match rest with
        | [] => return [.anyDepth]
        | d :: rest =>
          if d = '/' then return .anyDepth :: (← readTokens n (position + 3) (some '/') rest)
          else throw (.recursiveWildcards (position + 2))
      else throw (.recursiveWildcards (position - 1))
    else if c = '[' then
      match set? (c :: rest) with
      | none => throw (.range position)
      | some (token, after) =>
        let size := (c :: rest).length - after.length
        return token :: (← readTokens n (position + size) (some ']') after)
    else return .char c :: (← readTokens n (position + 1) (some c) rest)

def tokens (pattern : List Char) : Except GlobError (List Token) :=
  readTokens (pattern.length + 1) 0 none pattern

def inRanges (ranges : List (Char × Char)) (c : Char) : Bool :=
  ranges.any fun (low, high) => low ≤ c && c ≤ high

def Token.isChar (token : Token) (c : Char) : Bool :=
  match token with
  | char d => c == d
  | anyChar => true
  | within ranges => inRanges ranges c
  | except ranges => !inRanges ranges c
  | anyChars | anyDepth => false

-- Whether a name matches: `anyChars` takes no character, or one and is tried again.
def isMatch : List Token → List Char → Bool
  | [], name => name.isEmpty
  | .anyChars :: rest, [] => isMatch rest []
  | .anyChars :: rest, c :: name => isMatch rest (c :: name) || isMatch (.anyChars :: rest) name
  | _ :: _, [] => false
  | token :: rest, c :: name => token.isChar c && isMatch rest name
termination_by tokens name => (name.length, tokens.length)

-- The text of a segment without wildcards.
def literal? (tokens : List Token) : Option String :=
  (tokens.mapM Token.char?).map String.ofList

def isAnyDepth (tokens : List Token) : Bool := tokens.contains .anyDepth

end Glob

-- An absolute pattern, segment by segment. `?` stands for one character, `*` for any characters of
-- a name, brackets for one of the characters listed, and `**` as a whole segment for any number of
-- directories. Braces have no meaning.
structure Glob where
  segments : List (List Glob.Token)
deriving Inhabited

-- The whole pattern is read before its segments.
def Glob.parse (pattern : Path) : Except GlobError Glob := do
  let _ ← Glob.tokens pattern.text.toList
  let segments ← (pattern.segments.drop 1).mapM fun segment => Glob.tokens segment.toList
  return ⟨segments⟩

end DocPipeline
