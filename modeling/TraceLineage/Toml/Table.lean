import TraceLineage.Toml.Value

/-!
# Building TOML tables

A table grows key by key while a document is read.  Tables that come into being on the way to
another key are implicit, and may be completed later; tables that were written out may not.
-/

namespace TraceLineage
namespace Toml

/-- How a table came into being. -/
inductive Origin where
  | explicit
  | implicit
  | dotted
  deriving DecidableEq, Repr

/-- Something under a key while a document is read. -/
inductive Node where
  | value (v : Value)
  | table (origin : Origin) (entries : List (String × Node))
  | tables (ts : List (List (String × Node)))

/-- The entries of a table while a document is read. -/
abbrev Entries := List (String × Node)

/-- Replaces the node under a key, or appends it. -/
def Entries.put (k : String) (n : Node) : Entries → Entries
  | [] => [(k, n)]
  | e :: es => if e.1 = k then (k, n) :: es else e :: Entries.put k n es

/-- The entries without those under a key. -/
def Entries.remove (k : String) (es : Entries) : Entries :=
  es.filter fun e => e.1 ≠ k

/-- Changes the table at the end of a path, coming through tables under one header at their latest.
Tables that are missing on the way get an origin, which is also that of the dotted keys that may
pass through implicit and dotted tables only.  The change is told the origin of the table. -/
def Entries.descend (missing : Origin) (change : Origin → Entries → Option Entries) :
    Origin → List String → Entries → Option Entries
  | here, [], es => change here es
  | _, k :: ks, es =>
    match es.lookup k with
    | none => do
      let sub ← Entries.descend missing change missing ks []
      some (Entries.put k (.table missing sub) es)
    | some (.value _) => none
    | some (.table origin sub) =>
      if missing = .dotted ∧ origin = .explicit then none
      else do
        let sub ← Entries.descend missing change origin ks sub
        some (Entries.put k (.table origin sub) es)
    | some (.tables []) => none
    | some (.tables (t :: ts)) => do
      let t ← Entries.descend missing change .explicit ks t
      some (Entries.put k (.tables (t :: ts)) es)

/-- Adds a value under a dotted key, given by the path in front of its last part.  A table that was
written out, or that a header needed, takes no values under dotted keys. -/
def Entries.addDotted (path : List String) (k : String) (v : Value) (es : Entries) :
    Option Entries :=
  Entries.descend .dotted
    (fun origin sub =>
      if path ≠ [] ∧ origin ≠ .dotted then none
      else
        match sub.lookup k with
        | some _ => none
        | none => some (sub ++ [(k, .value v)]))
    .explicit path es

/-- The table that a header is about to fill, and the document without it. -/
def Entries.openTable (path : List String) (k : String) (root : Entries) :
    Option (Entries × Entries) := do
  let target ← find path root
  match target with
  | none => some ([], root)
  | some (.table .implicit es) => do
    let root ←
      Entries.descend .implicit (fun _ sub => some (Entries.remove k sub)) .explicit path root
    some (es, root)
  | some _ => none
where
  -- the node under the last part of a path, if there is one and the path can be walked
  find : List String → Entries → Option (Option Node)
    | [], es => some (es.lookup k)
    | p :: ps, es =>
      match es.lookup p with
      | none => some none
      | some (.value _) => none
      | some (.table _ sub) => find ps sub
      | some (.tables []) => none
      | some (.tables (t :: _)) => find ps t

/-- Puts a finished table under its header. -/
def Entries.closeTable (path : List String) (k : String) (t root : Entries) : Option Entries :=
  Entries.descend .implicit
    (fun _ sub =>
      match sub.lookup k with
      | some _ => none
      | none => some (sub ++ [(k, .table .explicit t)]))
    .explicit path root

/-- Whether a header of one of several tables may stand here. -/
def Entries.mayAppend (path : List String) (k : String) (root : Entries) : Bool :=
  match Entries.openTable.find k path root with
  | some none | some (some (.tables _)) => true
  | _ => false

/-- Appends a finished table to those under its header. -/
def Entries.appendTable (path : List String) (k : String) (t root : Entries) : Option Entries :=
  Entries.descend .implicit
    (fun _ sub =>
      match sub.lookup k with
      | none => some (sub ++ [(k, .tables [t])])
      | some (.tables ts) => some (Entries.put k (.tables (t :: ts)) sub)
      | some _ => none)
    .explicit path root

mutual

def Node.toValue : Node → Value
  | .value v => v
  | .table _ es => .table (entriesToValues es)
  | .tables ts => .array (tablesToValues ts).reverse

def entriesToValues : List (String × Node) → List (String × Value)
  | [] => []
  | (k, n) :: es => (k, n.toValue) :: entriesToValues es

def tablesToValues : List (List (String × Node)) → List Value
  | [] => []
  | t :: ts => .table (entriesToValues t) :: tablesToValues ts

end

end Toml
end TraceLineage
