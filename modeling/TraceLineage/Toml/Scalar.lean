import TraceLineage.Toml.Quoted
import TraceLineage.Toml.Value

/-!
# Reading TOML: numbers, dates and times

Whole numbers are written in base ten with an optional sign, or in base two, eight or sixteen behind
a mark, and must fit into 64 bits.  Dates and times follow RFC 3339 with the parts in their ranges.
-/

namespace TraceLineage
namespace Toml

/-- A sign in front of a number: whether it is a minus, and the rest. -/
def sign : List Char → Bool × List Char
  | '-' :: r => (true, r)
  | '+' :: r => (false, r)
  | cs => (false, cs)

/-- The digits of a whole number in base ten, without superfluous zeros in front. -/
def decimalDigits : Reader (List Char)
  | '0' :: r => some (['0'], r)
  | cs => digits 10 cs

/-- A whole number that fits into 64 bits. -/
def int64? (n : Int) : Option Value :=
  if -Int.pow 2 63 ≤ n ∧ n < Int.pow 2 63 then some (.integer n) else none

/-- A whole number in a base, read behind the mark of the base. -/
def radixInteger (base : Nat) (cs : List Char) : Option (Value × List Char) := do
  let (ds, r) ← digits base cs
  let v ← int64? (ofDigits base ds)
  some (v, r)

def integer : Reader Value
  | '0' :: 'x' :: r => radixInteger 16 r
  | '0' :: 'o' :: r => radixInteger 8 r
  | '0' :: 'b' :: r => radixInteger 2 r
  | cs => do
    let (negative, r) := sign cs
    let (ds, r) ← decimalDigits r
    let n : Int := ofDigits 10 ds
    let v ← int64? (if negative then -n else n)
    some (v, r)

/-- What a reader has taken off the front of a text. -/
def taken (cs rest : List Char) : String :=
  String.ofList (cs.take (cs.length - rest.length))

/-- The exponent of a floating-point number: its value, with a sign. -/
def exponent : Reader Int
  | 'e' :: r | 'E' :: r => do
    let (negative, r) := sign r
    let (ds, r) ← digits 10 r
    let n : Int := ofDigits 10 ds
    some (if negative then -n else n, r)
  | _ => none

def fraction : Reader (List Char)
  | '.' :: r => digits 10 r
  | _ => none

/-- The least number that rounds to infinity in 64 bits. -/
def overflowBound : Nat := Nat.pow 2 1024 - Nat.pow 2 970

/-- Whether the number of some digits times a power of ten rounds to infinity. -/
def overflows (ds : List Char) (power : Int) : Bool :=
  let n := ofDigits 10 ds
  let size : Int := (ds.dropWhile (· = '0')).length + power
  if n = 0 ∨ size < 300 then false
  else if 320 < size then true
  else if 0 ≤ power then overflowBound ≤ n * Nat.pow 10 power.toNat
  else overflowBound * Nat.pow 10 (-power).toNat ≤ n

/-- A floating-point number.  One that is too large is refused, one that is too small is not. -/
def float (cs : List Char) : Option (Value × List Char) :=
  let (negative, r) := sign cs
  match r with
  | 'i' :: 'n' :: 'f' :: r => some (.float (taken cs r), r)
  | 'n' :: 'a' :: 'n' :: r => some (.float (taken cs r), r)
  | _ => do
    let (ds, r) ← decimalDigits r
    let (fs, e, r) ←
      match exponent r with
      | some (e, r) => some ([], e, r)
      | none => do
        let (fs, r) ← fraction r
        match exponent r with
        | some (e, r) => some (fs, e, r)
        | none => some (fs, 0, r)
    if !negative && overflows (ds ++ fs) (e - fs.length) then none
    else some (.float (taken cs r), r)

/-- A number of a fixed count of digits within bounds. -/
def part (n low high : Nat) (cs : List Char) : Option (Nat × List Char) := do
  let (v, r) ← fixedDigits n cs
  if low ≤ v ∧ v ≤ high then some (v, r) else none

def daysIn (year month : Nat) : Nat :=
  if month = 2 then
    if year % 4 = 0 ∧ (year % 100 ≠ 0 ∨ year % 400 = 0) then 29 else 28
  else if month = 4 ∨ month = 6 ∨ month = 9 ∨ month = 11 then 30
  else 31

def date (cs : List Char) : Option (List Char) := do
  let (year, r) ← fixedDigits 4 cs
  let r ← expect '-' r
  let (month, r) ← part 2 1 12 r
  let r ← expect '-' r
  let (_, r) ← part 2 1 (daysIn year month) r
  some r

def time (cs : List Char) : Option (List Char) := do
  let (_, r) ← part 2 0 23 cs
  let r ← expect ':' r
  let (_, r) ← part 2 0 59 r
  let r ← expect ':' r
  let (_, r) ← part 2 0 60 r
  match r with
  | '.' :: f =>
    match f.takeWhile (isDigitOf 10) with
    | [] => none
    | _ => some (f.dropWhile (isDigitOf 10))
  | _ => some r

/-- The rest behind an offset from universal time, if there is one. -/
def offset (cs : List Char) : Option (List Char) :=
  match cs with
  | 'Z' :: r | 'z' :: r => some r
  | '+' :: r | '-' :: r => do
    let (_, r) ← part 2 0 23 r
    let r ← expect ':' r
    let (_, r) ← part 2 0 59 r
    some r
  | _ => some cs

/-- A date, a time, or both with an optional offset. -/
def moment (cs : List Char) : Option (Value × List Char) :=
  match date cs with
  | none => (time cs).map fun r => (.moment (taken cs r), r)
  | some r =>
    match r with
    | 'T' :: t | 't' :: t => do
      let r ← offset (← time t)
      some (.moment (taken cs r), r)
    | ' ' :: t =>
      match part 2 0 23 t with
      | some (_, ':' :: _) => do
        let r ← offset (← time t)
        some (.moment (taken cs r), r)
      | _ => some (.moment (taken cs r), r)
    | _ => some (.moment (taken cs r), r)

def numeric (cs : List Char) : Option (Value × List Char) :=
  match moment cs with
  | some x => some x
  | none =>
    match float cs with
    | some x => some x
    | none => integer cs

/-- A value that is neither an array nor a table. -/
def scalar (cs : List Char) : Option (Value × List Char) :=
  match cs with
  | '"' :: _ | '\'' :: _ => (text cs).map fun (s, r) => (.text s, r)
  | 't' :: 'r' :: 'u' :: 'e' :: r => some (.boolean true, r)
  | 'f' :: 'a' :: 'l' :: 's' :: 'e' :: r => some (.boolean false, r)
  | _ => numeric cs

end Toml
end TraceLineage
