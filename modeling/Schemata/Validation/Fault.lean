import Schemata.FieldType
namespace Schemata

/-! What cuts a validation short: a mistake in a schema or in one of its functions, as
opposed to a document that does not fit. -/

inductive ValidationFault where
  | raised (field message : String)
  | unhandledType (field : String) (type : FieldType)
  | missingSubschema (field : String)
deriving DecidableEq

def ValidationFault.message : ValidationFault → String
  | raised field message => s!"validator for {field} raised: {message}"
  | unhandledType field type => s!"unhandled type {type.name} for field {field}"
  | missingSubschema field => s!"field {field} is a subschema field without a schema"

end Schemata
