namespace DocPipeline.Json

-- Where in the text a character stands.
inductive Region where
  | plain
  | quoted
  | escaped
  | opening
  | block
  | closing
  | line
deriving DecidableEq

-- The text may end here.
def Region.final : Region → Bool
  | plain | line => true
  | _ => false

-- The region after a character, and what the character becomes.
def Region.step : Region → Char → Option (Region × Char)
  | plain, '"' => some (quoted, '"')
  | plain, '/' => some (opening, ' ')
  | plain, '#' => some (line, ' ')
  | plain, c => some (plain, c)
  | quoted, '"' => some (plain, '"')
  | quoted, '\\' => some (escaped, '\\')
  | quoted, c => some (quoted, c)
  | escaped, c => some (quoted, c)
  | opening, '*' => some (block, ' ')
  | opening, '/' => some (line, ' ')
  | opening, _ => none
  | block, '*' => some (closing, ' ')
  | block, _ => some (block, ' ')
  | closing, '/' => some (plain, ' ')
  | closing, '*' => some (closing, ' ')
  | closing, _ => some (block, ' ')
  | line, '\n' => some (plain, '\n')
  | line, _ => some (line, ' ')

-- The text read so far is kept in reverse.
def blankFrom (region : Region) (done : List Char) : List Char → Option (List Char)
  | [] => if region.final then some done.reverse else none
  | c :: rest =>
    match region.step c with
    | none => none
    | some (next, d) => blankFrom next (d :: done) rest

-- Comments in JSON text. A comment runs from `//` or `#` to the end of its line, or from `/*` to
-- the next `*/`; each of its characters becomes a space, except the line feed that ends a line
-- comment. Nothing inside a string opens a comment. A lone slash, and a string or a block comment
-- without an end, make the text unreadable.
def blankComments (text : List Char) : Option (List Char) := blankFrom .plain [] text

end DocPipeline.Json
