import TraceLineage.Context.Auxiliary
import TraceLineage.Fault

/-!
# Contexts

A context is what one execution unit knows of its trace: the current id, if there is one, and
auxiliary fields.  The id may only grow until the context is cleared.  A blank id is stored as it
is but counts as none.
-/

namespace TraceLineage

/-- The trace of one execution unit: the stored id, which may be blank, and what travels with it. -/
structure Context where
  current : Option TraceId
  auxiliary : Auxiliary
  deriving DecidableEq

namespace Context

/-- A context without an id and without fields. -/
def empty : Context := ⟨none, .empty⟩

instance : Inhabited Context := ⟨empty⟩

/-- A context with an id, blank or not, and without fields. -/
def withId (id : TraceId) : Context := ⟨some id, .empty⟩

/-- The id, unless it is blank. -/
def get? (c : Context) : Option TraceId :=
  c.current.filter fun id => !id.isBlank

/-- Replaces the id by one that extends it. -/
def set (c : Context) (id : TraceId) : Except StateFault Context :=
  match c.get? with
  | none => .ok { c with current := some id }
  | some old =>
    if id.isExtensionOf old = true then .ok { c with current := some id }
    else .error (.overriding old id)

def put (c : Context) (k v : String) : Context :=
  { c with auxiliary := c.auxiliary.insert k v }

def putAll (c : Context) (es : List (String × String)) : Context :=
  es.foldl (fun c e => c.put e.1 e.2) c

def isEmpty (c : Context) : Bool :=
  c.get?.isNone && c.auxiliary.isEmpty

theorem get?_empty : empty.get? = none := rfl

/-- A context shows an id exactly if it stores one that is not blank. -/
theorem get?_eq_some_iff
    (c : Context) (id : TraceId) :
    c.get? = some id ↔ c.current = some id ∧ id.isBlank = false := by
  simp [get?, Option.filter_eq_some_iff]

theorem get?_put
    (c : Context) (k v : String) :
    (c.put k v).get? = c.get? := rfl

end Context
end TraceLineage
