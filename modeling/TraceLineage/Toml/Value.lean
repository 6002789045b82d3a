/-!
# TOML trees

The value of a TOML document: scalars, arrays, and tables whose keys are distinct.  Floats and
points in time keep their written form, since nothing here computes with them.
-/

namespace TraceLineage
namespace Toml

/-- A value.  The keys of a table are distinct and stand in the order in which they appear first. -/
inductive Value where
  | text (s : String)
  | integer (n : Int)
  | boolean (b : Bool)
  | float (written : String)
  | moment (written : String)
  | array (elements : List Value)
  | table (entries : List (String × Value))

def Value.text? : Value → Option String
  | text s => some s
  | _ => none

/-- The only character of a value that is a text of one character. -/
def Value.char? : Value → Option Char
  | text s =>
    match s.toList with
    | [c] => some c
    | _ => none
  | _ => none

/-- The number of a value that is a whole number and not negative. -/
def Value.nat? : Value → Option Nat
  | integer n => if 0 ≤ n then some n.toNat else none
  | _ => none

end Toml
end TraceLineage
