import Schemata.Json.Basic
import Schemata.Value.Basic
namespace Schemata

/-! Values as JSON, the form in which documents are stored.

Days and instants become text and bytes become an object; reading back is structural,
so it is for the type of a field to say that a text is a day. -/

namespace Value

/-- Whole numbers of which none share a representation are written as integers, and
what is no finite number as null. -/
def numberToJson (number : Number) : Json :=
  match number.toSafeInt? with
  | some whole => .int whole
  | none => .ofNumber number

def bufferToJson (bytes : List UInt8) : Json :=
  .object
    [("type", .text "Buffer"), ("data", .array (bytes.map fun byte => .nat byte.toNat))]

mutual

def toJson : Value → Json
  | .null => .null
  | .bool value => .bool value
  | .number value => numberToJson value
  | .text value => .text value
  | .date value => .text value.text
  | .instant value => .text value.text
  | .buffer bytes => bufferToJson bytes
  | .array items => .array (itemsToJson items)
  | .object members => .object (membersToJson members)

def itemsToJson : List Value → List Json
  | [] => []
  | item :: rest => toJson item :: itemsToJson rest

def membersToJson : List (String × Value) → List (String × Json)
  | [] => []
  | (key, value) :: rest => (key, toJson value) :: membersToJson rest

end

mutual

def ofJson : Json → Value
  | .null => .null
  | .bool value => .bool value
  | .number value => .number value.toNumber
  | .text value => .text value
  | .array items => .array (itemsOfJson items)
  | .object members => .object (Keyed.ofList (membersOfJson members))

def itemsOfJson : List Json → List Value
  | [] => []
  | item :: rest => ofJson item :: itemsOfJson rest

/-- The members one by one, in the order of the JSON object. -/
def membersOfJson : List (String × Json) → List (String × Value)
  | [] => []
  | (key, value) :: rest => (key, ofJson value) :: membersOfJson rest

end

def byte? : Value → Option UInt8
  | .number value =>
      value.toSafeInt?.bind fun whole =>
        if 0 ≤ whole ∧ whole ≤ 255 then some (UInt8.ofNat whole.toNat) else none
  | _ => none

/-- The bytes of an object in stored form, which has no other members. -/
def decodeBuffer : Value → Option (List UInt8)
  | .object members =>
      if members.length = 2 ∧ (Keyed.get? members "type").bind text? = some "Buffer" then
        ((Keyed.get? members "data").bind items?).bind fun items => items.mapM byte?
      else none
  | _ => none

end Value

def Body.ofJson (members : Keyed Json) : Body := Table.ofList (Value.membersOfJson members)

end Schemata
