import Schemata.FieldName
import Schemata.FieldType
import Schemata.Json.Writer
import Schemata.Text.Blank
namespace Schemata

/-! The normal form of one field, whichever way a description states it. -/

/-- A limit as declared, a number or a text that may be one. -/
inductive Bound where
  | number (value : Finite)
  | text (value : String)
deriving DecidableEq

namespace Bound

def value? : Bound → Option Number
  | .number value => some (.finite value)
  | .text value => Number.ofText? (Text.trim value.toList)

def display : Bound → String
  | .number value => (Number.finite value).text
  | .text value => value

def toJson : Bound → Json
  | .number value => .number (.float value)
  | .text value => .text value

end Bound

/-- A reference to another schema by name; linking adds its position in the order of
loading. -/
structure Reference where
  name : String
  position : Option Nat
deriving DecidableEq

structure FieldSpec where
  type : FieldType
  isArray : Bool := false
  required : Bool := true
  default : Option Json := none
  values : Option String := none
  validator : Option String := none
  failMessage : Option String := none
  formatter : Option String := none
  reference : Option Reference := none
  min : Option Bound := none
  max : Option Bound := none
  calculator : Option String := none
  calculatedType : Option String := none

namespace FieldSpec

def ofShorthand (shorthand : Shorthand) : FieldSpec :=
  { type := shorthand.type, required := shorthand.required }

/-- The position of the schema that governs the values of a linked subschema field. -/
def target? (spec : FieldSpec) : Option Nat :=
  if spec.type.isSubschema then spec.reference.bind Reference.position else none

def members (spec : FieldSpec) : Keyed Json :=
  [("type", .text spec.type.name), ("isArray", .bool spec.isArray),
      ("required", .bool spec.required)] ++
    Keyed.optional "default" spec.default ++
    Keyed.optional "values" (spec.values.map .text) ++
    Keyed.optional "validate" (spec.validator.map .text) ++
    Keyed.optional "validateFailMsg" (spec.failMessage.map .text) ++
    Keyed.optional "formatter" (spec.formatter.map .text) ++
    Keyed.optional "schema" (spec.reference.map fun reference => .text reference.name) ++
    Keyed.optional "min" (spec.min.map Bound.toJson) ++
    Keyed.optional "max" (spec.max.map Bound.toJson) ++
    Keyed.optional "calculator" (spec.calculator.map .text) ++
    Keyed.optional "calculatedType" (spec.calculatedType.map .text)

end FieldSpec

end Schemata
