import TraceLineage.Text.Unshown

/-!
# Quoted characters

A character between single quotes, as messages write it.  Tab, line feed, carriage return, NUL, the
single quote and the backslash have escapes of two characters; any other character without a glyph
of its own is given by its code point; all else stands for itself.
-/

namespace TraceLineage
namespace Text

/-- The digits of a number in base sixteen, lower case and without leading zeros. -/
def hexadecimal (n : Nat) : String :=
  String.ofList (Nat.toDigits 16 n)

/-- What stands between the quotes for one character. -/
def escape (c : Char) : String :=
  if c = '\t' then "\\t"
  else if c = '\n' then "\\n"
  else if c = '\r' then "\\r"
  else if c.toNat = 0 then "\\0"
  else if c = '\'' then "\\'"
  else if c = '\\' then "\\\\"
  else if isUnshown c then "\\u\x7b" ++ hexadecimal c.toNat ++ "\x7d"
  else String.singleton c

def quote (c : Char) : String :=
  "'" ++ escape c ++ "'"

end Text
end TraceLineage
