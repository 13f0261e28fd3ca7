import DocPipeline.Json.Basic
import DocPipeline.Decimal.Shortest

namespace DocPipeline.Json

-- Positional notation from 0.00001 to 9999999999999999.
def doubleStyle : Decimal.Style := ⟨16, 4, 2⟩

def Number.toText : Number → String
  | .integer value => toString value
  | .double bits => doubleStyle.write (.ofBits bits)

def hexChar (n : Nat) : Char :=
  if n < 10 then Char.ofNat (n + '0'.toNat) else Char.ofNat (n - 10 + 'a'.toNat)

-- Only the quote, the backslash and the control characters below the space are escaped.
def escapeChar (c : Char) : List Char :=
  match c with
  | '"' => ['\\', '"']
  | '\\' => ['\\', '\\']
  | '\x08' => ['\\', 'b']
  | '\x0c' => ['\\', 'f']
  | '\n' => ['\\', 'n']
  | '\r' => ['\\', 'r']
  | '\t' => ['\\', 't']
  | c =>
    if c.toNat < 0x20 then ['\\', 'u', '0', '0', hexChar (c.toNat / 16), hexChar (c.toNat % 16)]
    else [c]

def quoted (text : String) : List Char :=
  '"' :: text.toList.flatMap escapeChar ++ ['"']

def scalarText : Json → List Char
  | null => "null".toList
  | bool true => "true".toList
  | bool false => "false".toList
  | number value => (Number.toText value).toList
  | string text => quoted text
  | _ => []

mutual

-- On one line, with the entries in the order of their list.
def compact : Json → List Char
  | array items => '[' :: compactItems items
  | object entries => '{' :: compactEntries entries
  | other => scalarText other

-- What follows the opening bracket.
def compactItems : List Json → List Char
  | [] => [']']
  | [item] => compact item ++ [']']
  | item :: rest => compact item ++ ',' :: compactItems rest

def compactEntries : List (String × Json) → List Char
  | [] => ['}']
  | [(key, value)] => quoted key ++ ':' :: compact value ++ ['}']
  | (key, value) :: rest => quoted key ++ ':' :: compact value ++ ',' :: compactEntries rest

end

-- A new line, indented to a level.
def newLine (level : Nat) : List Char := '\n' :: List.replicate (2 * level) ' '

mutual

-- With one entry a line and two spaces for each level.
def pretty (level : Nat) : Json → List Char
  | array [] => ['[', ']']
  | object [] => ['{', '}']
  | array items => '[' :: prettyItems level items
  | object entries => '{' :: prettyEntries level entries
  | other => scalarText other

def prettyItems (level : Nat) : List Json → List Char
  | [] => newLine level ++ [']']
  | [item] => newLine (level + 1) ++ pretty (level + 1) item ++ newLine level ++ [']']
  | item :: rest =>
    newLine (level + 1) ++ pretty (level + 1) item ++ ',' :: prettyItems level rest

def prettyEntries (level : Nat) : List (String × Json) → List Char
  | [] => newLine level ++ ['}']
  | [(key, value)] =>
    newLine (level + 1) ++ quoted key ++ ':' :: ' ' :: pretty (level + 1) value ++
      newLine level ++ ['}']
  | (key, value) :: rest =>
    newLine (level + 1) ++ quoted key ++ ':' :: ' ' :: pretty (level + 1) value ++
      ',' :: prettyEntries level rest

end

def toText (value : Json) : String := String.ofList (compact value)

def toPrettyText (value : Json) : String := String.ofList (pretty 0 value)

end DocPipeline.Json
