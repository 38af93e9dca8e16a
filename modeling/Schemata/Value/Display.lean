import Schemata.Json.Writer
import Schemata.Value.Json
namespace Schemata

/-! Values as readers of messages see them. -/

namespace Value

def numberDisplay (number : Number) : String :=
  match number.toSafeInt? with
  | some whole => toString whole
  | none => number.text

mutual

def display : Value → String
  | .null => "null"
  | .bool value => if value then "true" else "false"
  | .number value => numberDisplay value
  | .text value => value
  | .date value => value.text
  | .instant value => value.text
  | .buffer bytes => s!"<Buffer {bytes.length} bytes>"
  | .array items => ",".intercalate (displays items)
  | .object members => (toJson (.object members)).compact

def displays : List Value → List String
  | [] => []
  | item :: rest => display item :: displays rest

end

end Value

end Schemata
