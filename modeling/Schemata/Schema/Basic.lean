import Schemata.FieldType
import Schemata.Text.Case
import Schemata.Value.Basic
namespace Schemata

/-! Schemas that documents are held to.

A field is a rule for its own value and, where its values are documents themselves,
the schema for these.  The functions that descriptions refer to by name stand here
as functions. -/

/-- A function under the name by which descriptions refer to it. -/
structure Hook (α : Type) where
  name : String
  run : α

/-- Accepts or refuses a value, or gives up with a message. -/
abbrev Validator := Value → Except String Bool

/-- What is written for a value that is assigned. -/
abbrev Formatter := Value → Value

/-- The value that a document implies. -/
abbrev Calculator := Body → Value

/-- What replaces a body of an older version, if it has to change. -/
abbrev Upgrader := Body → Option Body

structure FieldRule where
  name : String
  type : FieldType
  isArray : Bool := false
  required : Bool := true
  default : Option Value := none
  /-- Limits to the length of texts and to the value of numbers. -/
  min : Option Number := none
  max : Option Number := none
  validator : Option (Hook Validator) := none
  failMessage : Option String := none
  formatter : Option (Hook Formatter) := none
  calculator : Option (Hook Calculator) := none

def FieldRule.isPersisted (rule : FieldRule) : Bool := rule.type.isPersisted

mutual

structure Schema where
  name : String
  version : Nat
  fields : List Field
  upgrader : Option Upgrader := none

structure Field extends FieldRule where
  schema : Option Schema := none

end

instance : Inhabited Schema := ⟨⟨"", 0, [], none⟩⟩

namespace Schema

def doctype (schema : Schema) : String := Text.toSmallLetters schema.name

def field? (schema : Schema) (name : String) : Option Field :=
  schema.fields.find? fun field => field.name = name

def upgrade? (schema : Schema) (body : Body) : Option Body :=
  schema.upgrader.bind fun upgrader => upgrader body

end Schema

end Schemata
