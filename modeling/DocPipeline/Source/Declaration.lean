import DocPipeline.Pattern.Expr
import DocPipeline.Text.Blank

namespace DocPipeline

-- Declarations of classes and functions in source text. A declaration is found by how its line
-- begins: after gaps and the words `export`, `default` and `async`, which may be missing, comes
-- what is declared and then its name. It counts as documented when the text before its line ends
-- with the end of a block comment.
structure Declaration where
  kind : String
  name : String
  line : Nat
  documented : Bool
deriving DecidableEq, Inhabited

namespace Declaration

def isGap (c : Char) : Bool := c == ' ' || c == '\t'

-- What follows a word and the gap after it.
def afterWord? (word : String) (text : List Char) : Option (List Char) :=
  let rest := text.drop word.length
  if word.toList.isPrefixOf text && rest.head?.any isGap then some (rest.dropWhile isGap)
  else none

def skipWord (word : String) (text : List Char) : List Char := (afterWord? word text).getD text

def skipModifiers (text : List Char) : List Char :=
  let text := match afterWord? "export" text with
    | some rest => skipWord "default" rest
    | none => text
  skipWord "async" text

-- The word that says what is declared, with the kind it stands for.
def keywords : List (String × String) :=
  [("class", "class"), ("function*", "function"), ("function", "function")]

def isNameStart (c : Char) : Bool :=
  c.isAlpha || c == '_' || c == '$'

def isNamePart (c : Char) : Bool := Pattern.isWordChar false c || c == '$'

def name? : List Char → Option String
  | c :: rest =>
    if isNameStart c then some (String.ofList (c :: rest.takeWhile isNamePart)) else none
  | [] => none

-- The kind and the name that a line declares.
def ofLine? (line : List Char) : Option (String × String) :=
  let text := skipModifiers (line.dropWhile isGap)
  keywords.findSome? fun (word, kind) => do
    let rest ← afterWord? word text
    return (kind, ← name? rest)

-- Whether a text, given from its end backwards, ends with a block comment and blanks.
def endsInComment (backwards : List Char) : Bool :=
  "/*".toList.isPrefixOf (backwards.dropWhile Text.isBlank)

-- The declarations of the lines that follow a text, which is given backwards.
def ofLines (line : Nat) (before : List Char) : List (List Char) → List Declaration
  | [] => []
  | text :: rest =>
    let others := ofLines (line + 1) ('\n' :: (text.reverse ++ before)) rest
    match ofLine? text with
    | some (kind, name) => ⟨kind, name, line, endsInComment before⟩ :: others
    | none => others

def ofCode (code : String) : List Declaration := ofLines 1 [] (code.toList.splitOn '\n')

end Declaration

end DocPipeline
