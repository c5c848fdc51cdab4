/-!
# JavaScript identifiers

The names that emitted code may use for globals: ASCII letters, digits, underscores and dollar
signs, not starting with a digit.
-/

namespace ChunkLoading.Identifier

def isStart (c : Char) : Bool := c.isAlpha || c == '_' || c == '$'

def isPart (c : Char) : Bool := c.isAlphanum || c == '_' || c == '$'

/-- Whether a text is an identifier. -/
def isIdentifier (s : String) : Bool :=
  match s.toList with
  | [] => false
  | c :: cs => isStart c && cs.all isPart

end ChunkLoading.Identifier
