import Schemata.Schema.Basic
namespace Schemata

/-! The functions that descriptions may refer to. -/

inductive HookKind where
  | validator
  | formatter
  | calculator
deriving DecidableEq

def HookKind.name : HookKind → String
  | validator => "validator"
  | formatter => "formatter"
  | calculator => "calculator"

structure Hooks where
  validators : Keyed Validator := []
  formatters : Keyed Formatter := []
  calculators : Keyed Calculator := []

namespace Hooks

def hook? {α : Type} (functions : Keyed α) (name : String) : Option (Hook α) :=
  (Keyed.get? functions name).map (⟨name, ·⟩)

def validator? (hooks : Hooks) : String → Option (Hook Validator) := hook? hooks.validators

def formatter? (hooks : Hooks) : String → Option (Hook Formatter) := hook? hooks.formatters

def calculator? (hooks : Hooks) : String → Option (Hook Calculator) :=
  hook? hooks.calculators

def addValidator (hooks : Hooks) (name : String) (run : Validator) : Hooks :=
  { hooks with validators := Keyed.put hooks.validators name run }

def addFormatter (hooks : Hooks) (name : String) (run : Formatter) : Hooks :=
  { hooks with formatters := Keyed.put hooks.formatters name run }

def addCalculator (hooks : Hooks) (name : String) (run : Calculator) : Hooks :=
  { hooks with calculators := Keyed.put hooks.calculators name run }

end Hooks

end Schemata
