import Schemata.Description.FieldSpec
import Schemata.Notice
namespace Schemata

/-! One field of a description: a shorthand, a descriptor object, or a list of exactly
one of these for a field that holds an array. -/

inductive SubkeyForm where
  | text
  | numberOrText
deriving DecidableEq

def SubkeyForm.description : SubkeyForm → String
  | text => "a string"
  | numberOrText => "one of number,string"

inductive FieldFault where
  | name (fault : FieldNameFault)
  | arity (found : Nat)
  | shorthand (text : String)
  | shape
  | subkeyForm (key : String) (form : SubkeyForm)
  | subkeyMissing (key : String)
  | requiredFlag (value : Json)
  | type (name : String)

/-- The message for a field, given as `schema.field`. -/
def FieldFault.message (fault : FieldFault) (place : String) : String :=
  match fault with
  | name nameFault => s!"{place}: {nameFault.reason}"
  | arity found =>
      s!"{place}: is an array but should have exactly one element (found {found})"
  | shorthand text => s!"{place}: unknown field type '{text}'"
  | shape => s!"{place}: is not a valid object, array or string"
  | subkeyForm key form => s!"{place}.{key}: has to be {form.description}"
  | subkeyMissing key => s!"{place}.{key}: is missing"
  | requiredFlag value => s!"{place}.required: invalid value {value.compact}"
  | type typeName => s!"{place}.type: unknown field type '{typeName}'"

def descriptorKeys : List String :=
  ["type", "default", "values", "validate", "validateFailMsg", "formatter", "schema",
    "required", "min", "max", "calculator", "calculatedType"]

namespace FieldSpec

def optionalText (descriptor : Keyed Json) (key : String) :
    Except FieldFault (Option String) :=
  match Keyed.get? descriptor key with
  | none => .ok none
  | some (.text text) => .ok (some text)
  | some _ => .error (.subkeyForm key .text)

def mandatoryText (descriptor : Keyed Json) (key : String) : Except FieldFault String := do
  match ← optionalText descriptor key with
  | some text => .ok text
  | none => .error (.subkeyMissing key)

def optionalBound (descriptor : Keyed Json) (key : String) :
    Except FieldFault (Option Bound) :=
  match Keyed.get? descriptor key with
  | none => .ok none
  | some (.text text) => .ok (some (.text text))
  | some (.number number) =>
      match number.toNumber with
      | .finite value => .ok (some (.number value))
      | _ => .error (.subkeyForm key .numberOrText)
  | some _ => .error (.subkeyForm key .numberOrText)

/-- A field is required unless its descriptor says otherwise. -/
def requiredFlag (descriptor : Keyed Json) : Except FieldFault Bool :=
  match Keyed.get? descriptor "required" with
  | none => .ok true
  | some (.bool value) => .ok value
  | some (.text text) =>
      match Text.toSmallAscii text with
      | "true" => .ok true
      | "false" => .ok false
      | _ => .error (.requiredFlag (.text text))
  | some value => .error (.requiredFlag value)

/-- The keys that name a calculator and its type have to be there for a calculated
field. -/
def calculatorText (type : FieldType) (descriptor : Keyed Json) (key : String) :
    Except FieldFault (Option String) :=
  if type.isPersisted then optionalText descriptor key
  else (mandatoryText descriptor key).map some

def ofDescriptor (descriptor : Keyed Json) : Except FieldFault FieldSpec := do
  let typeName ← mandatoryText descriptor "type"
  let type ← match FieldType.ofName? typeName with
    | some type => .ok type
    | none => .error (.type typeName)
  let values ← optionalText descriptor "values"
  let validator ← optionalText descriptor "validate"
  let formatter ← optionalText descriptor "formatter"
  let failMessage ← optionalText descriptor "validateFailMsg"
  let min ← optionalBound descriptor "min"
  let max ← optionalBound descriptor "max"
  let calculator ← calculatorText type descriptor "calculator"
  let calculatedType ← calculatorText type descriptor "calculatedType"
  let reference ←
    if type.isSubschema then
      (optionalText descriptor "schema").map fun name => name.map (⟨·, none⟩)
    else .ok none
  let required ← requiredFlag descriptor
  .ok
    { type, required, default := Keyed.get? descriptor "default", values, validator,
      failMessage, formatter, reference, min, max, calculator, calculatedType }

def ofSingle : Json → Except FieldFault FieldSpec
  | .text text =>
      match Shorthand.ofName? text with
      | some shorthand => .ok (ofShorthand shorthand)
      | none => .error (.shorthand text)
  | .object descriptor => ofDescriptor descriptor
  | _ => .error .shape

def ofJson (name : String) (raw : Json) : Except FieldFault FieldSpec :=
  match fieldNameFault? name with
  | some fault => .error (.name fault)
  | none =>
      match raw with
      | .array [item] => (ofSingle item).map fun spec => { spec with isArray := true }
      | .array items => .error (.arity items.length)
      | raw => ofSingle raw

end FieldSpec

/-- The keys without a meaning in a field as it stands in a description. -/
def unknownDescriptorKeys : Json → List String
  | .array [.object descriptor] => (Keyed.keys descriptor).filter (· ∉ descriptorKeys)
  | .object descriptor => (Keyed.keys descriptor).filter (· ∉ descriptorKeys)
  | _ => []

/-- A field that is accepted is remarked on for each of its keys without a meaning. -/
def fieldNotices (schema name : String) (raw : Json) : List Notice :=
  match FieldSpec.ofJson name raw with
  | .ok _ => (unknownDescriptorKeys raw).map (.unknownKey schema name)
  | .error _ => []

end Schemata
