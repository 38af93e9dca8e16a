namespace Schemata

/-! Remarks that accompany a result without changing it. -/

inductive Notice where
  | unknownKey (schema field key : String)
  /-- A body was brought from its version, if it had one, to the schema's. -/
  | upgraded (schema : String) (found : Option Nat) (current : Nat)
deriving DecidableEq

/-- The version that a body had, as remarks show it. -/
def Notice.foundText : Option Nat → String
  | none => "None"
  | some version => s!"Some({version})"

end Schemata
