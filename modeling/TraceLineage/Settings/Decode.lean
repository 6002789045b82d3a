import TraceLineage.Config
import TraceLineage.Toml.Document

/-!
# Settings from TOML

Decodes a TOML tree.  Where a table describes a scheme or a copied header, an array of the values of
its fields, in their order, may stand in its place.  Fields that are missing take their defaults;
unknown keys are refused, except in a copied header, where both fields are required and everything
else is ignored.
-/

namespace TraceLineage

open Toml (Value)

def optionalField {α : Type} (decode : Value → Option α) : Option Value → Option (Option α)
  | none => some none
  | some v => (decode v).map some

/-- Whether all keys of a table are among some. -/
def onlyKeys (keys : List String) (entries : List (String × Value)) : Bool :=
  entries.all fun e => keys.contains e.1

namespace SchemeParts

/-- The keys of the fields, in their order. -/
def keys : List String := ["prefix", "delimiter", "length"]

/-- The parts of three fields, each of which may be missing. -/
def ofFields (tag delimiter length : Option Value) : Option SchemeParts := do
  return {
    tag := ← optionalField Value.text? tag
    delimiter := ← optionalField Value.char? delimiter
    length := ← optionalField Value.nat? length }

def ofToml? : Value → Option SchemeParts
  | .table es =>
    if onlyKeys keys es = true then
      ofFields (es.lookup "prefix") (es.lookup "delimiter") (es.lookup "length")
    else none
  | .array vs => ofFields vs[0]? vs[1]? vs[2]?
  | _ => none

end SchemeParts

namespace CopiedHeader

/-- The header of two fields, both of which are required. -/
def ofFields (key name : Option Value) : Option CopiedHeader := do
  return ⟨← (← key).text?, ← (← name).text?⟩

def ofToml? : Value → Option CopiedHeader
  | .table es => ofFields (es.lookup "context_key") (es.lookup "header_name")
  | .array vs => ofFields vs[0]? vs[1]?
  | _ => none

def listOfToml? : Value → Option (List CopiedHeader)
  | .array vs => vs.mapM ofToml?
  | _ => none

end CopiedHeader

namespace Settings

def keys : List String := ["header_name", "additional_headers", "request", "job", "thread"]

def ofToml? : Value → Option Settings
  | .table es =>
    if onlyKeys keys es = true then do
      let headerName ← optionalField Value.text? (es.lookup "header_name")
      let headers ← optionalField CopiedHeader.listOfToml? (es.lookup "additional_headers")
      let request ← optionalField SchemeParts.ofToml? (es.lookup "request")
      let job ← optionalField SchemeParts.ofToml? (es.lookup "job")
      let thread ← optionalField SchemeParts.ofToml? (es.lookup "thread")
      return {
        headerName := headerName.getD defaultHeaderName
        copiedHeaders := headers.getD []
        request := request.getD {}
        job := job.getD {}
        thread := thread.getD {} }
    else none
  | _ => none

def parse? (text : String) : Option Settings :=
  (Toml.parse text).bind ofToml?

end Settings

namespace Config

/-- Checks the settings of a TOML document and reports success in the log.  What is wrong with a
text that cannot be read is told in the words of `diagnose`. -/
def loadToml (text : String) (f : Facilities) (diagnose : String → Option String := fun _ => none) :
    Except Fault Config × Facilities :=
  match Settings.parse? text with
  | some s => load s f
  | none => (.error (.configuration (.unreadable (diagnose text))), f)

end Config
end TraceLineage
