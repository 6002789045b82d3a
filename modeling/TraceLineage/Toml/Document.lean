import TraceLineage.Toml.Scalar
import TraceLineage.Toml.Table

/-!
# Reading TOML: documents

A document is a sequence of key-value lines and headers.  The lines behind a header fill the table
of that header.
-/

namespace TraceLineage
namespace Toml

/-- The last part of a key and the path in front of it. -/
def splitKey (ks : List String) : Option (List String × String) :=
  ks.getLast?.map fun k => (ks.dropLast, k)

def pair (value : Reader Value) (cs : List Char) :
    Option ((List String × String × Value) × List Char) := do
  let (ks, r) ← key cs
  let r ← expect '=' (skipBlanks r)
  let (v, r) ← value (skipBlanks r)
  let (path, k) ← splitKey ks
  some ((path, k, v), r)

/-- The elements of an array up to its closing bracket; `fuel` bounds their number. -/
def elements (value : Reader Value) : Nat → Reader (List Value)
  | 0, _ => none
  | fuel + 1, cs =>
    match skipAllTrivia cs with
    | ']' :: r => some ([], r)
    | r => do
      let (v, r) ← value r
      match skipAllTrivia r with
      | ',' :: r =>
        let (vs, r) ← elements value fuel r
        some (v :: vs, r)
      | ']' :: r => some ([v], r)
      | _ => none

/-- The pairs of an inline table up to its closing brace, added to those in front of them; `fuel`
bounds their number. -/
def inlinePairs (value : Reader Value) : Nat → Entries → Reader Entries
  | 0, _, _ => none
  | fuel + 1, es, cs => do
    let ((path, k, v), r) ← pair value cs
    let es ← Entries.addDotted path k v es
    match skipBlanks r with
    | ',' :: r => inlinePairs value fuel es r
    | '}' :: r => some (es, r)
    | _ => none

/-- An inline table, read behind its opening brace. -/
def inlineTable (value : Reader Value) (cs : List Char) : Option (Value × List Char) :=
  match skipBlanks cs with
  | '}' :: r => some (.table [], r)
  | _ => do
    let (es, r) ← inlinePairs value (cs.length + 1) [] cs
    some ((Node.table .explicit es).toValue, r)

/-- A value whose arrays and tables nest less than `depth` times. -/
def value : Nat → Reader Value
  | 0, _ => none
  | 1, cs => scalar cs
  | depth + 2, cs =>
    match cs with
    | '[' :: r => (elements (value (depth + 1)) (r.length + 1) r).map fun (vs, r) => (.array vs, r)
    | '\x7b' :: r => inlineTable (value (depth + 1)) r
    | cs => scalar cs

/-- One more than the greatest number of times that arrays and inline tables may nest. -/
def maxDepth : Nat := 80

/-- What is being filled. -/
inductive Target where
  | root
  | table (path : List String) (k : String)
  | element (path : List String) (k : String)

/-- A document while it is read. -/
structure Draft where
  root : Entries := []
  target : Target := .root
  current : Entries := []

namespace Draft

/-- Puts what is being filled in its place. -/
def close (d : Draft) : Option Entries :=
  match d.target with
  | .root => some d.current
  | .table path k => Entries.closeTable path k d.current d.root
  | .element path k => Entries.appendTable path k d.current d.root

def beginTable (d : Draft) (ks : List String) : Option Draft := do
  let root ← d.close
  let (path, k) ← splitKey ks
  let (es, root) ← Entries.openTable path k root
  some ⟨root, .table path k, es⟩

/-- Begins one of the tables of a header. -/
def beginElement (d : Draft) (ks : List String) : Option Draft := do
  let root ← d.close
  let (path, k) ← splitKey ks
  if Entries.mayAppend path k root then some ⟨root, .element path k, []⟩ else none

end Draft

def header (d : Draft) : Reader Draft
  | '[' :: '[' :: r => do
    let (ks, r) ← key r
    let r ← expect ']' (skipBlanks r)
    let r ← expect ']' r
    let r ← endLine? r
    some (← d.beginElement ks, r)
  | '[' :: r => do
    let (ks, r) ← key r
    let r ← expect ']' (skipBlanks r)
    let r ← endLine? r
    some (← d.beginTable ks, r)
  | _ => none

def keyValue (d : Draft) (cs : List Char) : Option (Draft × List Char) := do
  let ((path, k, v), r) ← pair (value maxDepth) cs
  let r ← endLine? r
  let es ← Entries.addDotted path k v d.current
  some ({ d with current := es }, r)

/-- The lines of a document; `fuel` bounds their number. -/
def lines : Nat → Draft → List Char → Option Draft
  | 0, _, _ => none
  | fuel + 1, d, cs =>
    match skipBlanks cs with
    | [] => some d
    | '#' :: r => do lines fuel d (← endLine? ('#' :: r))
    | '[' :: r => do
      let (d, r) ← header d ('[' :: r)
      lines fuel d r
    | r =>
      match lineBreak? r with
      | some r => lines fuel d r
      | none => do
        let (d, r) ← keyValue d r
        lines fuel d r

/-- The tree of a document, unless its text breaks a rule of the format.  A byte order mark in front
is skipped. -/
def parse (s : String) : Option Value := do
  let cs :=
    match s.toList with
    | '\ufeff' :: r => r
    | cs => cs
  let d ← lines (cs.length + 1) {} cs
  let es ← d.close
  some (Node.table .explicit es).toValue

end Toml
end TraceLineage
