import Reconciler.Json.Basic
import Reconciler.Report
import Reconciler.Telemetry.Filter

set_option autoImplicit false

namespace Reconciler.Log

def Value.toJson : Value → Json
  | text value => .string value
  | number value => .integer value
  | flag value => .bool value

def fieldsJson (fields : Fields) : List (String × Json) :=
  fields.map fun (name, value) => (name, value.toJson)

-- The fields of a span and its name, which hides a field of that name.
def Span.toJson (span : Span) : Json :=
  .object (fieldsJson (span.fields.filter (·.1 ≠ "name")) ++ [("name", .string span.name)])

def Note.toJson (note : Note) (span : Option Span) : Json :=
  Json.ofMembers [
    ("level", some (.string note.level.text)),
    ("fields", some (.object (("message", .string note.message) :: fieldsJson note.fields))),
    ("target", some (.string note.target)),
    ("span", span.map (·.toJson))]

def regularLine? (filter : Filter) (record : Record) : Option Json :=
  if filter.allows record.note.target record.note.level then
    -- Spans count as information, whatever the record is.
    some (record.note.toJson (record.spans.find? fun span => filter.allows span.target .info))
  else none

def reports : Filter := [⟨Report.target, some .error⟩]

def reportLine? (record : Record) : Option Json :=
  if reports.allows record.note.target record.note.level then some (record.note.toJson none) else none

end Reconciler.Log
