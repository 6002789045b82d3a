import TraceLineage.Context.Auxiliary

/-!
# Records

What is written to the log.  An event has a level, a message and named fields; a record is an event
together with the spans that enclose it, from the outermost to the innermost.
-/

namespace TraceLineage

/-- The severity of an event, from what interests developers to what is a failure. -/
inductive Level where
  | debug
  | info
  | warn
  | error
  deriving DecidableEq, Repr

/-- The value of a field: a text or a count. -/
inductive FieldValue where
  | text (s : String)
  | number (n : Nat)
  deriving DecidableEq, Repr

/-- Named values, in the order in which they were given. -/
abbrev FieldList := List (String × FieldValue)

/-- A named period of execution with fields of its own.  Fields whose values are maps stand apart:
in which order the entries of a map are written is left open. -/
structure Span where
  name : String
  fields : FieldList
  maps : List (String × Auxiliary) := []
  deriving DecidableEq, Repr

/-- Something that happened. -/
structure Event where
  level : Level
  message : String
  fields : FieldList := []
  deriving DecidableEq, Repr

/-- An event in its place. -/
structure Record where
  event : Event
  spans : List Span
  deriving DecidableEq, Repr

def Level.name : Level → String
  | debug => "DEBUG"
  | info => "INFO"
  | warn => "WARN"
  | error => "ERROR"

end TraceLineage
