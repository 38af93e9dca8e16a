import Schemata.Keyed.Table
import Schemata.Time.Instant
namespace Schemata

/-! Values that documents hold: those of JSON, and days, instants and bytes.

The members of an object are kept in ascending order of their keys.  For those of a whole
document, its body, the type says so. -/

inductive Value where
  | null
  | bool (value : Bool)
  | number (value : Number)
  | text (value : String)
  | date (value : Date)
  | instant (value : Instant)
  | buffer (bytes : List UInt8)
  | array (items : List Value)
  | object (members : List (String × Value))
deriving Inhabited

abbrev Members := Keyed Value

abbrev Body := Table Value

/-- The object that has the members of a body. -/
abbrev Body.value (body : Body) : Value := .object body.entries

namespace Value

def nat (value : Nat) : Value := .number (.ofInt value)

def typeName : Value → String
  | .null => "null"
  | .bool _ => "boolean"
  | .number _ => "number"
  | .text _ => "string"
  | .date _ => "date"
  | .instant _ => "datetime"
  | .buffer _ => "buffer"
  | .array _ => "array"
  | .object _ => "object"

def isNull : Value → Bool
  | .null => true
  | _ => false

def text? : Value → Option String
  | .text value => some value
  | _ => none

def number? : Value → Option Number
  | .number value => some value
  | _ => none

def items? : Value → Option (List Value)
  | .array items => some items
  | _ => none

def members? : Value → Option Members
  | .object members => some members
  | _ => none

mutual

/-- Equality of values, with numbers compared by value: a NaN differs from itself and
both zeros are one. -/
def same : Value → Value → Bool
  | .null, .null => true
  | .bool left, .bool right => left == right
  | .number left, .number right => left.same right
  | .text left, .text right => left == right
  | .date left, .date right => left == right
  | .instant left, .instant right => left == right
  | .buffer left, .buffer right => left == right
  | .array left, .array right => sameItems left right
  | .object left, .object right => sameMembers left right
  | _, _ => false

def sameItems : List Value → List Value → Bool
  | [], [] => true
  | left :: lefts, right :: rights => same left right && sameItems lefts rights
  | _, _ => false

def sameMembers : List (String × Value) → List (String × Value) → Bool
  | [], [] => true
  | (key, left) :: lefts, (other, right) :: rights =>
      key == other && same left right && sameMembers lefts rights
  | _, _ => false

end

/-- A value that is missing or null counts as absent. -/
def isAbsent : Option Value → Bool
  | none => true
  | some value => value.isNull

end Value

end Schemata
