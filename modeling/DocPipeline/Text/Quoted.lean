import DocPipeline.Text.Category
import DocPipeline.Text.Property

namespace DocPipeline.Text

-- Controls, formats, surrogates, private and unassigned codes, and separators.
def invisible : CharSet :=
  (CharSet.ofCategory fun c => c ∈ ["Cc", "Cf", "Cs", "Co", "Cn", "Zl", "Zp", "Zs"]).diff
    (.ofChars [' '])

def hidden : CharSet := invisible.union .graphemeExtend

def escapeCode (c : Char) : List Char :=
  "\\u\x7b".toList ++ Nat.toDigits 16 c.toNat ++ ['}']

def escapeChar (c : Char) : List Char :=
  match c with
  | '\x00' => ['\\', '0']
  | '\t' => ['\\', 't']
  | '\r' => ['\\', 'r']
  | '\n' => ['\\', 'n']
  | '"' => ['\\', '"']
  | '\\' => ['\\', '\\']
  | c => if hidden.contains c.toNat then escapeCode c else [c]

-- Text in double quotes, as it stands in descriptions of values. Quotes, backslashes and line ends
-- are escaped with a backslash. Marks that extend the character before them and characters that
-- leave no visible trace are written by their code; the space is not one of those.
def quoted (text : String) : String :=
  String.ofList ('"' :: text.toList.flatMap escapeChar ++ ['"'])

-- A value that may be missing.
def quotedOption : Option String → String
  | none => "None"
  | some text => "Some(" ++ quoted text ++ ")"

def quotedList (items : List String) : String := "[" ++ ", ".intercalate (items.map quoted) ++ "]"

end DocPipeline.Text
