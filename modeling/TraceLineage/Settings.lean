import TraceLineage.Minting.Scheme
import TraceLineage.Text.Token

/-!
# Settings

A configuration as somebody writes it down, before any rule is checked.
-/

namespace TraceLineage

/-- The header that carries trace ids unless another is configured. -/
def defaultHeaderName : String := "x-trace-id"

/-- A header whose value is copied into the auxiliary fields of a request, under a key. -/
structure CopiedHeader where
  key : String
  name : String
  deriving DecidableEq, Repr

/-- A configuration before its rules are checked. -/
structure Settings where
  headerName : String := defaultHeaderName
  copiedHeaders : List CopiedHeader := []
  request : SchemeParts := {}
  job : SchemeParts := {}
  thread : SchemeParts := {}
  deriving DecidableEq, Repr

def Settings.parts (s : Settings) : Invoker → SchemeParts
  | .request => s.request
  | .job => s.job
  | .thread => s.thread

def checkHeaderName (name : String) : Except ConfigFault Unit :=
  if Text.isToken name = true then .ok () else .error (.headerName name)

namespace CopiedHeader

/-- A header with a key to store its value under and a name that is a token. -/
def isValid (h : CopiedHeader) : Bool :=
  !Text.isBlank h.key && Text.isToken h.name

/-- The rules on copied headers, the key before the name. -/
def check (h : CopiedHeader) : Except ConfigFault Unit :=
  if Text.isBlank h.key = true then .error (.blankKey h.name)
  else checkHeaderName h.name

theorem check_eq_ok_iff
    (h : CopiedHeader) :
    h.check = .ok () ↔ h.isValid = true := by
  by_cases hb : Text.isBlank h.key = true <;>
    by_cases ht : Text.isToken h.name = true <;>
      simp [check, isValid, checkHeaderName, hb, ht]

end CopiedHeader
end TraceLineage
