/-!
# HTTP headers

Header names as the HTTP layer accepts them, and multimaps of headers.  A name is given as bytes; it
must have 1 to 65535 of them, each a token byte, and is kept in lower case.  A value is given as
bytes too, and only some values can be read as text.  Several values may stand under one name, and
the first of them is the one that a lookup sees.
-/

namespace TraceLineage
namespace Http

/-- The token bytes, as inclusive ranges in ascending order. -/
def tokenByteRanges : List (Nat × Nat) :=
  [(0x21, 0x21), (0x23, 0x27), (0x2a, 0x2b), (0x2d, 0x2e), (0x30, 0x39), (0x41, 0x5a),
    (0x5e, 0x7a), (0x7c, 0x7c), (0x7e, 0x7e)]

/-- The lower-case character of a token byte. -/
def tokenByte? (b : UInt8) : Option Char :=
  if tokenByteRanges.any fun r => r.1 ≤ b.toNat && b.toNat ≤ r.2 then
    some (Char.ofNat (if 0x41 ≤ b.toNat && b.toNat ≤ 0x5a then b.toNat + 0x20 else b.toNat))
  else none

/-- The greatest length of a header name, in bytes. -/
def maxNameLength : Nat := 65535

/-- A header name in lower case. -/
structure HeaderName where
  text : String
  deriving DecidableEq, Repr

def HeaderName.ofBytes? (bs : List UInt8) : Option HeaderName :=
  if 1 ≤ bs.length ∧ bs.length ≤ maxNameLength then
    (bs.mapM tokenByte?).map fun cs => ⟨String.ofList cs⟩
  else none

def utf8Bytes (s : String) : List UInt8 :=
  s.toList.flatMap String.utf8EncodeChar

def HeaderName.ofString? (s : String) : Option HeaderName :=
  HeaderName.ofBytes? (utf8Bytes s)

/-- A header value, which may be of any bytes. -/
structure HeaderValue where
  bytes : List UInt8
  deriving DecidableEq, Repr

namespace HeaderValue

/-- A byte that a header value may show as text: a tab, a space or a visible character. -/
def isPlainByte (b : UInt8) : Bool :=
  b.toNat = 0x09 || (0x20 ≤ b.toNat && b.toNat ≤ 0x7e)

/-- All bytes of a value can be shown as text. -/
def isPlain (v : HeaderValue) : Bool :=
  v.bytes.all isPlainByte

/-- The text of a value, each byte of which then stands for one character. -/
def text? (v : HeaderValue) : Option String :=
  if v.isPlain = true then some (String.ofList (v.bytes.map fun b => Char.ofNat b.toNat)) else none

def ofText (s : String) : HeaderValue :=
  ⟨utf8Bytes s⟩

/-- The value with the bytes of a text, if they are plain. -/
def ofPlain? (s : String) : Option HeaderValue :=
  if (ofText s).isPlain = true then some (ofText s) else none

/-- The text that the bytes of a value encode, which is empty if they encode none. -/
def decode (v : HeaderValue) : String :=
  (String.fromUTF8? ⟨v.bytes.toArray⟩).getD ""

end HeaderValue

/-- Values under header names, in the order in which they were appended. -/
structure HeaderMap where
  entries : List (HeaderName × HeaderValue) := []
  deriving DecidableEq, Repr

namespace HeaderMap

def values (m : HeaderMap) (n : HeaderName) : List HeaderValue :=
  (m.entries.filter fun e => e.1 = n).map Prod.snd

def first? (m : HeaderMap) (n : HeaderName) : Option HeaderValue :=
  (m.values n).head?

/-- Puts one value in place of all those under a name. -/
def insert (m : HeaderMap) (n : HeaderName) (value : HeaderValue) : HeaderMap :=
  ⟨m.entries.filter (fun e => e.1 ≠ n) ++ [(n, value)]⟩

/-- The map of some texts; what is no header name is left out. -/
def ofList (es : List (String × String)) : HeaderMap :=
  ⟨es.filterMap fun e => (HeaderName.ofString? e.1).map fun n => (n, .ofText e.2)⟩

/-- The text of the first value under a name in any letter case. -/
def lookup (m : HeaderMap) (name : String) : Option String :=
  ((HeaderName.ofString? name).bind m.first?).bind HeaderValue.text?

/-- The entries in the order of their names; values of one name keep their order. -/
def toSortedList (m : HeaderMap) : List (String × String) :=
  (m.entries.map fun e => (e.1.text, e.2.decode)).mergeSort fun a b => a.1 ≤ b.1

theorem values_insert
    (m : HeaderMap) (n : HeaderName) (value : HeaderValue) :
    (m.insert n value).values n = [value] := by
  simp [values, insert, List.filter_filter]

theorem values_insert_of_ne
    (m : HeaderMap) {n q : HeaderName} (value : HeaderValue) (h : n ≠ q) :
    (m.insert n value).values q = m.values q := by
  have hf : ∀ e : HeaderName × HeaderValue, (decide (e.1 = q) && decide (e.1 ≠ n)) =
      decide (e.1 = q) := by
    intro e
    by_cases hq : e.1 = q
    · simp [hq, Ne.symm h]
    · simp [hq]
  simp only [values, insert, List.filter_append, List.filter_filter, hf]
  simp [h]

end HeaderMap
end Http
end TraceLineage
