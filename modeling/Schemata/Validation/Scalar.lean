import Schemata.Schema.Basic
import Schemata.Text.Units
import Schemata.Time.Reading
import Schemata.Validation.Fault
import Schemata.Validation.Outcome
import Schemata.Validation.Template
namespace Schemata

/-! One value of a field.

A value is first brought into the form of its declared type, as far as it can be read
that way.  Then its type, its bounds and the validator are asked in this order, and the
first that objects decides. -/

namespace FieldType

/-- The value in the form of the type; what cannot be read that way stays as it is. -/
def coerce : FieldType → Value → Value
  | .date, .text text => (Date.read text).toOption.elim (.text text) .date
  | .date, .instant instant => .date instant.date
  | .datetime, .text text => (Instant.read text).toOption.elim (.text text) .instant
  | .timestamp, .text text => (Instant.read text).toOption.elim (.text text) .instant
  | .buffer, .object members =>
      (Value.decodeBuffer (.object members)).elim (.object members) .buffer
  | _, value => value

/-- Whether a value is of the type, for the types that single values are judged by. -/
def admits : FieldType → Value → Bool
  | .string, .text _ => true
  | .boolean, .bool _ => true
  | .number, .number _ => true
  | .date, .date _ => true
  | .datetime, .instant _ => true
  | .timestamp, .instant _ => true
  | .buffer, .buffer _ => true
  | _, _ => false

theorem isNull_of_admits {type : FieldType} {value : Value}
    (admitted : type.admits value = true) : value.isNull = false := by
  cases value with
  | null => cases type <;> simp [admits] at admitted
  | _ => rfl

theorem coerce_of_admits {type : FieldType} {value : Value}
    (admitted : type.admits value = true) : type.coerce value = value := by
  cases type <;> cases value <;> first
    | rfl
    | simp [admits] at admitted

/-- A value stays as it is, or takes the form that the type asks for. -/
theorem coerce_eq_or_admits (type : FieldType) (value : Value) :
    type.coerce value = value ∨
      (value.isNull = false ∧ type.admits (type.coerce value) = true) := by
  fun_cases coerce type value with
  | case1 text =>
      cases read : (Date.read text).toOption with
      | none => exact .inl rfl
      | some date => exact .inr ⟨rfl, rfl⟩
  | case2 instant => exact .inr ⟨rfl, rfl⟩
  | case3 text | case4 text =>
      cases read : (Instant.read text).toOption with
      | none => exact .inl rfl
      | some instant => exact .inr ⟨rfl, rfl⟩
  | case5 members =>
      cases decoded : Value.decodeBuffer (.object members) with
      | none => exact .inl rfl
      | some bytes => exact .inr ⟨rfl, rfl⟩
  | case6 => exact .inl rfl

@[simp] theorem coerce_coerce (type : FieldType) (value : Value) :
    type.coerce (type.coerce value) = type.coerce value := by
  rcases coerce_eq_or_admits type value with same | ⟨_, admitted⟩
  · rw [same, same]
  · exact coerce_of_admits admitted

@[simp] theorem isNull_coerce (type : FieldType) (value : Value) :
    (type.coerce value).isNull = value.isNull := by
  rcases coerce_eq_or_admits type value with same | ⟨present, admitted⟩
  · rw [same]
  · rw [isNull_of_admits admitted, present]

end FieldType

namespace FieldRule

/-- What bounds hold to: the length of a text or the value of a number. -/
def measure? : Value → Option Number
  | .text text => some (.ofInt (Text.unitCount text))
  | .number number => some number
  | _ => none

def measuredName (path : String) : Value → String
  | .text _ => s!"{path} length"
  | _ => path

/-- The bounds in words, if there are any. -/
def boundsText? : Option Number → Option Number → Option String
  | some min, some max =>
      some s!"between {Value.numberDisplay min}-{Value.numberDisplay max}"
  | some min, none => some s!"at least {Value.numberDisplay min}"
  | none, some max => some s!"at most {Value.numberDisplay max}"
  | none, none => none

def outOfBounds (rule : FieldRule) (size : Number) : Bool :=
  rule.min.any (fun min => size.lt min) || rule.max.any (fun max => max.lt size)

def boundsFault? (rule : FieldRule) (path : String) (value : Value) : Option String :=
  (measure? value).bind fun size =>
    if rule.outOfBounds size then
      (boundsText? rule.min rule.max).map fun bounds =>
        s!"{measuredName path value} must be {bounds}"
    else none

def refusal (rule : FieldRule) (value : Value) : String :=
  Template.render (rule.failMessage.getD Template.standard) value rule.type

def consult (rule : FieldRule) (path : String) (value : Value) :
    Except ValidationFault Outcome :=
  match rule.validator with
  | none => .ok (.ofPass path)
  | some validator =>
      match validator.run value with
      | .error message => .error (.raised path message)
      | .ok true => .ok (.ofPass path)
      | .ok false => .ok (.ofFailure path (rule.refusal value))

def absent (rule : FieldRule) (path : String) : Outcome :=
  if rule.required then .ofFailure path s!"missing field {path}" else .ofPass path

/-- Whether a value is of the type of the field.  There is no answer for the types of documents
and of calculated values. -/
def matches? (rule : FieldRule) (path : String) (value : Value) : Except ValidationFault Bool :=
  match rule.type with
  | .subschema => .error (.unhandledType path .subschema)
  | .calculated => .error (.unhandledType path .calculated)
  | type => .ok (type.admits value)

def judge (rule : FieldRule) (path : String) : Value → Except ValidationFault Outcome
  | .null => .ok (rule.absent path)
  | .array _ => .ok (.ofFailure path s!"{path} must not be an array")
  | value =>
      match rule.matches? path value with
      | .error fault => .error fault
      | .ok true =>
          match rule.boundsFault? path value with
          | some message => .ok (.ofFailure path message)
          | none => rule.consult path value
      | .ok false =>
          .ok (.ofFailure path
            s!"{path} must be of type {rule.type.name}, got {value.typeName}")

end FieldRule

end Schemata
