import DocPipeline.Text.Blank
import DocPipeline.Text.CaseFold
import DocPipeline.Text.Script
import DocPipeline.Pattern.Expr

namespace DocPipeline.Pattern

open Text

def everything : CharSet := ⟨[(0, maxCode)]⟩

def blank : CharSet := .ofRanges blankRanges

-- In the name of a class case, blanks, hyphens and underscores do not count, nor does a leading
-- `is`.
def plainName (name : List Char) : String :=
  let lower := name.map Char.toLower
  let (lead, lower) := match lower with
    | 'i' :: 's' :: rest => (['i', 's'], rest)
    | rest => ([], rest)
  let kept := lower.filter fun c => !(isBlank c || c == '-' || c == '_') && c.toNat < 128
  if lead = ['i', 's'] ∧ kept = ['c'] then "isc" else String.ofList kept

-- A general category: its short forms, and the two-letter categories it consists of.
def categoryNames : List (List String × List String) :=
  [(["l", "letter"], ["Lu", "Ll", "Lt", "Lm", "Lo"]),
   (["lc", "casedletter"], ["Lu", "Ll", "Lt"]),
   (["lu", "uppercaseletter"], ["Lu"]),
   (["ll", "lowercaseletter"], ["Ll"]),
   (["lt", "titlecaseletter"], ["Lt"]),
   (["lm", "modifierletter"], ["Lm"]),
   (["lo", "otherletter"], ["Lo"]),
   (["m", "mark", "combiningmark"], ["Mn", "Mc", "Me"]),
   (["mn", "nonspacingmark"], ["Mn"]),
   (["mc", "spacingmark"], ["Mc"]),
   (["me", "enclosingmark"], ["Me"]),
   (["n", "number"], ["Nd", "Nl", "No"]),
   (["nd", "decimalnumber", "digit"], ["Nd"]),
   (["nl", "letternumber"], ["Nl"]),
   (["no", "othernumber"], ["No"]),
   (["p", "punctuation", "punct"], ["Pc", "Pd", "Ps", "Pe", "Pi", "Pf", "Po"]),
   (["pc", "connectorpunctuation"], ["Pc"]),
   (["pd", "dashpunctuation"], ["Pd"]),
   (["ps", "openpunctuation"], ["Ps"]),
   (["pe", "closepunctuation"], ["Pe"]),
   (["pi", "initialpunctuation"], ["Pi"]),
   (["pf", "finalpunctuation"], ["Pf"]),
   (["po", "otherpunctuation"], ["Po"]),
   (["s", "symbol"], ["Sm", "Sc", "Sk", "So"]),
   (["sm", "mathsymbol"], ["Sm"]),
   (["sc", "currencysymbol"], ["Sc"]),
   (["sk", "modifiersymbol"], ["Sk"]),
   (["so", "othersymbol"], ["So"]),
   (["z", "separator"], ["Zs", "Zl", "Zp"]),
   (["zs", "spaceseparator"], ["Zs"]),
   (["zl", "lineseparator"], ["Zl"]),
   (["zp", "paragraphseparator"], ["Zp"]),
   (["c", "other"], ["Cc", "Cf", "Co", "Cn"]),
   (["cc", "control", "cntrl"], ["Cc"]),
   (["cf", "format"], ["Cf"]),
   (["co", "privateuse"], ["Co"]),
   (["cn", "unassigned"], ["Cn"])]

def category? (name : String) : Option CharSet :=
  if name = "any" then some everything
  else if name = "assigned" then some (CharSet.ofCategory (· != "Cn"))
  else if name = "ascii" then some ⟨[(0, 127)]⟩
  else (categoryNames.find? fun c => name ∈ c.1).map fun c =>
    CharSet.ofCategory fun short => short ∈ c.2

def script? (name : String) : Option CharSet :=
  let name := if name = "qaac" then "copt" else if name = "qaai" then "zinh" else name
  let pairs := scriptPairs ((words scriptNames).map String.ofList)
  (pairs.find? fun (short, long) =>
    plainName short.toList = name ∨ plainName long.toList = name).map fun (short, _) =>
      CharSet.ofScript short

def properties : List (List String × CharSet) :=
  [(["alpha", "alphabetic"], .alphabetic),
   (["lower", "lowercase"], .lowercase),
   (["upper", "uppercase"], .uppercase),
   (["wspace", "whitespace", "space"], blank),
   (["cased"], .cased),
   (["ci", "caseignorable"], .caseIgnorable),
   (["math"], .mathematical),
   (["emoji"], .emoji),
   (["ideo", "ideographic"], .ideographic),
   (["dash"], .dash),
   (["dia", "diacritic"], .diacritic),
   (["ext", "extender"], .extender),
   (["hex", "hexdigit"], .hexDigit),
   (["ids", "idstart"], .idStart),
   (["idc", "idcontinue"], .idContinue),
   (["xids", "xidstart"], .xidStart),
   (["xidc", "xidcontinue"], .xidContinue),
   (["di", "defaultignorablecodepoint"], .defaultIgnorable),
   (["grext", "graphemeextend"], .graphemeExtend),
   (["joinc", "joincontrol"], .joinControl)]

-- Some short names are those of a property and of a category, and mean the category.
def classByName? (name : List Char) : Option CharSet :=
  let name := plainName name
  let property := if name ∈ ["cf", "sc", "lc"] then none
    else (properties.find? fun p => name ∈ p.1).map (·.2)
  (property.orElse fun _ => category? name).orElse fun _ => script? name

def classByValue? (name value : List Char) : Option CharSet :=
  match plainName name with
  | "gc" | "generalcategory" => category? (plainName value)
  | "sc" | "script" => script? (plainName value)
  | _ => none

-- The class of a letter after a backslash. Without Unicode only ASCII characters belong to it.
def classOfLetter? (wide : Bool) : Char → Option CharSet
  | 'd' => some (if wide then CharSet.ofCategory (· == "Nd") else ⟨[('0'.toNat, '9'.toNat)]⟩)
  | 's' => some (if wide then blank else ⟨[(0x09, 0x0d), (0x20, 0x20)]⟩)
  | 'w' => some (if wide then word else asciiWord)
  | _ => none

def asciiClass? : String → Option CharSet
  | "alnum" => some (.ofRanges [(0x30, 0x39), (0x41, 0x5a), (0x61, 0x7a)])
  | "alpha" => some (.ofRanges [(0x41, 0x5a), (0x61, 0x7a)])
  | "ascii" => some ⟨[(0, 0x7f)]⟩
  | "blank" => some ⟨[(0x09, 0x09), (0x20, 0x20)]⟩
  | "cntrl" => some ⟨[(0, 0x1f), (0x7f, 0x7f)]⟩
  | "digit" => some ⟨[(0x30, 0x39)]⟩
  | "graph" => some ⟨[(0x21, 0x7e)]⟩
  | "lower" => some ⟨[(0x61, 0x7a)]⟩
  | "print" => some ⟨[(0x20, 0x7e)]⟩
  | "punct" => some ⟨[(0x21, 0x2f), (0x3a, 0x40), (0x5b, 0x60), (0x7b, 0x7e)]⟩
  | "space" => some ⟨[(0x09, 0x0d), (0x20, 0x20)]⟩
  | "upper" => some ⟨[(0x41, 0x5a)]⟩
  | "word" => some asciiWord
  | "xdigit" => some ⟨[(0x30, 0x39), (0x41, 0x46), (0x61, 0x66)]⟩
  | _ => none

end DocPipeline.Pattern
