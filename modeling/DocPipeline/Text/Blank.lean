namespace DocPipeline.Text

-- The 25 characters with the property `White_Space`, as ranges in increasing order.
def blankRanges : List (Nat × Nat) :=
  [(0x09, 0x0d), (0x20, 0x20), (0x85, 0x85), (0xa0, 0xa0), (0x1680, 0x1680), (0x2000, 0x200a),
   (0x2028, 0x2029), (0x202f, 0x202f), (0x205f, 0x205f), (0x3000, 0x3000)]

def isBlank (c : Char) : Bool :=
  blankRanges.any fun (low, high) => low ≤ c.toNat && c.toNat ≤ high

def trimStart (text : List Char) : List Char := text.dropWhile isBlank

def trimEnd (text : List Char) : List Char := (text.reverse.dropWhile isBlank).reverse

def allBlank (text : String) : Bool := text.toList.all isBlank

-- The number of lines: one for each line feed, and one more for characters after the last.
def lineCount : List Char → Nat
  | [] => 0
  | '\n' :: rest => lineCount rest + 1
  | [_] => 1
  | _ :: rest@('\n' :: _) => lineCount rest
  | _ :: rest => lineCount rest

def endsWith (text ending : List Char) : Bool := ending.reverse.isPrefixOf text.reverse

end DocPipeline.Text
