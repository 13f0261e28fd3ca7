import DocPipeline.Pattern.Reader

namespace DocPipeline

-- A pattern is a regular expression together with the text it was written as.
structure Pattern where
  source : String
  expr : Pattern.Expr

namespace Pattern

def parse? (source : String) : Option Pattern := (readExpr? source.toList).map (⟨source, ·⟩)

-- Whether the pattern is found anywhere in a text.
def isIn (pattern : Pattern) (text : String) : Bool := pattern.expr.isIn text.toList

end Pattern

end DocPipeline
