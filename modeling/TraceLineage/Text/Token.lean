/-!
# Tokens

The texts that may name a header or a method: one or more ASCII letters, digits and the fifteen
marks ``!#$%&'*+-.^_`|~``.
-/

namespace TraceLineage
namespace Text

/-- The marks that a token may contain beside letters and digits. -/
def tokenMarks : List Char :=
  "!#$%&'*+-.^_`|~".toList

def isTokenChar (c : Char) : Bool :=
  c.isAlphanum || tokenMarks.contains c

/-- A text that may name a header or a method. -/
def isToken (s : String) : Bool :=
  s ≠ "" && s.toList.all isTokenChar

end Text
end TraceLineage
