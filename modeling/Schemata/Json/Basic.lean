import Schemata.Keyed
import Schemata.Number.Basic
namespace Schemata

/-! JSON values.

Whole numerals and numerals with a fraction or an exponent stay apart, as a version
number has to be whole.  Members of an object stand in the order in which their keys
first came. -/

inductive JsonNumber where
  | int (value : Int)
  | float (value : Finite)
deriving DecidableEq

def JsonNumber.toNumber : JsonNumber → Number
  | .int value => .ofInt value
  | .float value => .finite value

inductive Json where
  | null
  | bool (value : Bool)
  | number (value : JsonNumber)
  | text (value : String)
  | array (items : List Json)
  | object (members : List (String × Json))
deriving Inhabited

namespace Json

def int (value : Int) : Json := .number (.int value)

def nat (value : Nat) : Json := int value

/-- The number itself where JSON can write it, else null. -/
def ofNumber : Number → Json
  | .finite value => .number (.float value)
  | _ => .null

def ofOption (f : α → Json) : Option α → Json
  | none => .null
  | some value => f value

def texts (values : List String) : Json := .array (values.map .text)

def text? : Json → Option String
  | .text value => some value
  | _ => none

def members? : Json → Option (Keyed Json)
  | .object members => some members
  | _ => none

def items? : Json → Option (List Json)
  | .array items => some items
  | _ => none

def int? : Json → Option Int
  | .number (.int value) => some value
  | _ => none

def bool? : Json → Option Bool
  | .bool value => some value
  | _ => none

def number? : Json → Option JsonNumber
  | .number value => some value
  | _ => none

/-- The member under a key, of anything that is not an object none. -/
def get? (json : Json) (key : String) : Option Json :=
  json.members?.bind fun members => Keyed.get? members key

def texts? (json : Json) : Option (List String) :=
  json.items?.bind fun items => items.mapM text?

end Json

end Schemata
