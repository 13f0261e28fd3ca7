import DocPipeline.Pattern.Expr
import DocPipeline.Text.Blank

namespace DocPipeline

-- Blocks of a test file: a call of `describe`, `context` or `it` whose first argument is a quoted
-- text. Quotes of the three kinds end each other.
structure TestBlock where
  word : String
  description : String
deriving DecidableEq, Inhabited

namespace TestBlock

def words : List String := ["describe", "context", "it"]

def isQuote (c : Char) : Bool := c == '\'' || c == '"' || c == '\x60'

-- What follows a character, with blanks before it.
def afterChar? (c : Char) (text : List Char) : Option (List Char) :=
  match Text.trimStart text with
  | d :: rest => if d = c then some rest else none
  | [] => none

-- The quoted text at the beginning, and what follows it.
def quoted? (text : List Char) : Option (String × List Char) :=
  match Text.trimStart text with
  | [] => none
  | c :: rest =>
    let rest' := rest.dropWhile fun d => !isQuote d
    if isQuote c && !rest'.isEmpty then
      some (String.ofList (rest.takeWhile fun d => !isQuote d), rest'.drop 1)
    else none

-- The block that a text begins with, and what follows it.
def at? (text : List Char) : Option (TestBlock × List Char) := do
  let word ← words.find? fun word => word.toList.isPrefixOf text
  let inner ← afterChar? '(' (text.drop word.length)
  let (description, rest) ← quoted? inner
  return (⟨word, description⟩, rest)

-- The blocks of a text after `before`, of which `skip` characters belong to the last block found.
def scan (skip : Nat) (before : Option Char) : List Char → List TestBlock
  | [] => []
  | c :: rest =>
    if skip = 0 ∧ ¬ Pattern.isWord false before then
      match at? (c :: rest) with
      | some (block, after) => block :: scan (rest.length - after.length) (some c) rest
      | none => scan 0 (some c) rest
    else scan (skip - 1) (some c) rest

def ofCode (code : String) : List TestBlock := scan 0 none code.toList

end TestBlock

end DocPipeline
