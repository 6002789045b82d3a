import TraceLineage.Invoker
import TraceLineage.Text.Quoted
import TraceLineage.TraceId

/-!
# Faults

Everything that can be refused, by cause.  A fault is a conflict with the state of a context, a
mistake in a configuration, or the absence of any context; `Fault.message` gives the wording.
-/

namespace TraceLineage

/-- A conflict between an operation and the state it meets: a root invoker was asked to append to a
parent, an id would be replaced by one that does not extend it, or a job was about to start where an
id is present already. -/
inductive StateFault where
  | rootDelimiter (invoker : Invoker)
  | overriding (existing attempted : TraceId)
  | populated (existing : TraceId)
  deriving DecidableEq, Repr

/-- A violated rule of a configuration, with the values that violate it.  What is wrong with a
settings document that cannot be read is told if it is known; a header name may be refused by the
rules here or by the HTTP layer. -/
inductive ConfigFault where
  | lengthOutOfRange (invoker : Invoker) (length : Nat)
  | tagNotVisible (invoker : Invoker) (tag : String)
  | tagTooLong (invoker : Invoker) (tag : String) (length : Nat)
  | delimiterOfRoot (invoker : Invoker) (delimiter : Char)
  | delimiterNotVisible (invoker : Invoker) (delimiter : Char)
  | headerName (name : String)
  | blankKey (name : String)
  | unreadable (detail : Option String)
  | headerRefused (name : String)
  deriving DecidableEq, Repr

/-- A refusal: the state of the context does not permit the operation, the configuration is invalid,
or no context is in scope. -/
inductive Fault where
  | state (cause : StateFault)
  | configuration (cause : ConfigFault)
  | noContext
  deriving DecidableEq, Repr

def StateFault.message : StateFault → String
  | rootDelimiter i =>
    i.name ++ " is a root invoker, it never appends to a parent trace id and has no delimiter"
  | overriding existing attempted =>
    "overriding existing trace id is prohibited, appending is allowed (existing: " ++
      existing.text ++ ", attempted: " ++ attempted.text ++ ")"
  | populated existing =>
    "context already has trace id populated, this is illegal (existing: " ++ existing.text ++ ")"

/-- The wording of a configuration fault. -/
def ConfigFault.message : ConfigFault → String
  | lengthOutOfRange i length =>
    i.name ++ " trace id length " ++ toString length ++ " is outside the allowed range [" ++
      toString i.minLength ++ ", " ++ toString i.maxLength ++ "]"
  | tagNotVisible i tag =>
    i.name ++ " trace id prefix `" ++ tag ++ "` must contain only visible ASCII characters"
  | tagTooLong i tag length =>
    i.name ++ " trace id prefix `" ++ tag ++ "` must be shorter than the configured length " ++
      toString length
  | delimiterOfRoot i d =>
    i.name ++ " is a root invoker and does not accept a delimiter (got `" ++
      String.singleton d ++ "`)"
  | delimiterNotVisible i d =>
    i.name ++ " trace id delimiter " ++ Text.quote d ++ " must be a visible ASCII character"
  | headerName name => "`" ++ name ++ "` is not a valid header name"
  | blankKey name => "additional header `" ++ name ++ "` has an empty context key"
  | unreadable detail => "failed to parse settings" ++ detail.elim "" (": " ++ ·)
  | headerRefused name => "invalid header name `" ++ name ++ "`: invalid HTTP header name"

def Fault.message : Fault → String
  | state cause => "invalid trace state: " ++ cause.message
  | configuration cause => "invalid trace configuration: " ++ cause.message
  | noContext => "no trace context is in scope for the current execution unit"

end TraceLineage
