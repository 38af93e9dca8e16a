namespace Schemata

/-! Scalars of a YAML text. -/

namespace Yaml

inductive Style where
  | plain
  | quoted
  | literal
  | folded
deriving DecidableEq

structure Scalar where
  style : Style := .plain
  tag : Option String := none
  text : String
deriving DecidableEq

def Scalar.empty : Scalar := ⟨.plain, none, ""⟩

end Yaml

end Schemata
