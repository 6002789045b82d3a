import TraceLineage.Scenario.TextExpr

/-!
# Redaction

Random characters say nothing, so they are replaced where a scenario is reported: the random part of
the id with number `n` and `k` random characters is written `<n:k>`, and `<n:k-d>` where `d` of them
are missing.  A redaction is a table from real texts to written ones, in the order in which they
became known; the head of an id is written by the part of the table that is older than the id.
-/

namespace TraceLineage
namespace Scenario

/-- Real texts with the texts that stand for them, oldest first. -/
structure Redaction where
  table : List (List Char × List Char) := []

namespace Redaction

/-- The longest real text of the table that a text starts with, and what is written for it. -/
def match? (table : List (List Char × List Char)) (cs : List Char) :
    Option (List Char × List Char) :=
  table.foldl
    (fun best e =>
      if e.1.isPrefixOf cs && e.1.length > (best.elim 0 fun b => b.1.length) then some e else best)
    none

/-- Replaces real texts from left to right, the longest first; `skip` characters are covered by the
last replacement. -/
def replace (table : List (List Char × List Char)) : Nat → List Char → List Char
  | _, [] => []
  | skip + 1, _ :: cs => replace table skip cs
  | 0, c :: cs =>
    match match? table (c :: cs) with
    | some e => e.2 ++ replace table (e.1.length - 1) cs
    | none => c :: replace table 0 cs

def apply (r : Redaction) (s : String) : String :=
  String.ofList (replace r.table 0 s.toList)

/-- What is written for `k` random characters of the id with a number, of which `cut` are
missing. -/
def mark (number k cut : Nat) : String :=
  "<" ++ toString number ++ ":" ++ toString k ++
    (if cut = 0 then "" else "-" ++ toString cut) ++ ">"

def add (r : Redaction) (real written : String) : Redaction :=
  ⟨r.table ++ [(real.toList, written.toList)]⟩

/-- The state of building a table: the table, and the written heads of the ids so far. -/
abbrev Builder := Redaction × List String

def addAlias (minted : List Mint) (b : Builder) (a : Alias) : Builder :=
  match nthMint? minted a.number, b.2[a.number - 1]? with
  | some m, some head =>
    (b.1.add (cutBytes a.cut m.id.text) (head ++ mark a.number m.tail.utf8ByteSize a.cut), b.2)
  | _, _ => b

def addMint (b : Builder) (m : Mint) : Builder :=
  let head := b.1.apply m.head
  (b.1.add m.id.text (head ++ mark (b.2.length + 1) m.tail.utf8ByteSize 0), b.2 ++ [head])

/-- The table of all ids and aliases, in the order in which they became known. -/
def ofMints (minted : List Mint) (aliases : List Alias) : Redaction :=
  let aged (b : Builder) (age : Nat) : Builder :=
    (aliases.filter fun a => a.age = age).foldl (addAlias minted) b
  (minted.foldl (fun b m => aged (addMint b m) (b.2.length + 1)) (aged ({}, []) 0)).1

end Redaction
end Scenario
end TraceLineage
