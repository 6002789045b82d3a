/-!
# Reading TOML: characters

A reader takes something off the front of a text and returns it with the rest, or fails.  Here are
the character classes of the format, white space, comments, and runs of digits.
-/

namespace TraceLineage
namespace Toml

/-- Takes something off the front of a text. -/
abbrev Reader (α : Type) := List Char → Option (α × List Char)

def isBlankChar (c : Char) : Bool :=
  c = ' ' || c = '\t'

/-- A character that may stand in a comment: anything but controls, a tab excepted. -/
def isCommentChar (c : Char) : Bool :=
  c = '\t' || (0x20 ≤ c.toNat && c.toNat ≠ 0x7f)

/-- A character that stands for itself between double quotes. -/
def isBasicChar (c : Char) : Bool :=
  isCommentChar c && c ≠ '"' && c ≠ '\\'

/-- A character that stands for itself between single quotes. -/
def isLiteralChar (c : Char) : Bool :=
  isCommentChar c && c ≠ '\''

def isBareKeyChar (c : Char) : Bool :=
  c.isAlphanum || c = '_' || c = '-'

/-- The value of a digit in bases up to sixteen. -/
def digitValue? (c : Char) : Option Nat :=
  if c.isDigit then some (c.toNat - '0'.toNat)
  else if 'a' ≤ c ∧ c ≤ 'f' then some (c.toNat - 'a'.toNat + 10)
  else if 'A' ≤ c ∧ c ≤ 'F' then some (c.toNat - 'A'.toNat + 10)
  else none

def isDigitOf (base : Nat) (c : Char) : Bool :=
  match digitValue? c with
  | some v => v < base
  | none => false

/-- The number that some digits of a base write. -/
def ofDigits (base : Nat) (ds : List Char) : Nat :=
  ds.foldl (fun n c => n * base + (digitValue? c).getD 0) 0

def skipBlanks (cs : List Char) : List Char :=
  cs.dropWhile isBlankChar

def lineBreak? : List Char → Option (List Char)
  | '\n' :: r => some r
  | '\r' :: '\n' :: r => some r
  | _ => none

/-- The rest behind a comment, if there is one. -/
def skipComment : List Char → List Char
  | '#' :: r => r.dropWhile isCommentChar
  | cs => cs

/-- The rest behind blanks, a comment, and the end of the line, which may be the end of the text. -/
def endLine? (cs : List Char) : Option (List Char) :=
  match skipComment (skipBlanks cs) with
  | [] => some []
  | r => lineBreak? r

/-- The rest behind blanks, comments and line breaks; `fuel` bounds their number. -/
def skipTrivia : Nat → List Char → List Char
  | 0, cs => cs
  | fuel + 1, cs =>
    let r := skipComment (skipBlanks cs)
    match lineBreak? r with
    | some r => skipTrivia fuel r
    | none => r

/-- The rest behind blanks, comments and line breaks. -/
def skipAllTrivia (cs : List Char) : List Char :=
  skipTrivia (cs.length + 1) cs

/-- Further digits of a base, between any two of which one underscore may stand. -/
def moreDigits (base : Nat) : List Char → List Char × List Char
  | [] => ([], [])
  | '_' :: d :: r =>
    if isDigitOf base d then
      let (ds, rest) := moreDigits base r
      (d :: ds, rest)
    else ([], '_' :: d :: r)
  | d :: r =>
    if isDigitOf base d then
      let (ds, rest) := moreDigits base r
      (d :: ds, rest)
    else ([], d :: r)

/-- One or more digits of a base, between any two of which one underscore may stand. -/
def digits (base : Nat) : Reader (List Char)
  | d :: r =>
    if isDigitOf base d then
      let (ds, rest) := moreDigits base r
      some (d :: ds, rest)
    else none
  | [] => none

/-- The number that exactly `n` decimal digits write. -/
def fixedDigits (n : Nat) (cs : List Char) : Option (Nat × List Char) :=
  let ds := cs.take n
  if ds.length = n ∧ ds.all (isDigitOf 10) = true then some (ofDigits 10 ds, cs.drop n) else none

def expect (c : Char) : List Char → Option (List Char)
  | d :: r => if d = c then some r else none
  | [] => none

end Toml
end TraceLineage
