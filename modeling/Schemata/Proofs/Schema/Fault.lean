import Schemata.Keyed.Ordered
import Schemata.Schema.Set
import Schemata.Proofs.Collect
import Schemata.Proofs.Number.Numeral
import Schemata.Proofs.Value.Reading
namespace Schemata

/-! When the field of a description can be made, and what it is then.

`SchemaSet.fieldOf_eq` takes the making of a field apart: there is what is wrong with the
field whatever schemas there are (`SchemaSet.fieldFault?`), and the schema that it refers to,
which may not have been made.  `FieldRule.Follows` says part by part what a rule has of the
entry that it is made of, and where nothing is wrong with the field, it has all of that
(`FieldSpec.rule_follows`). -/

/-- The functions that a field names are registered, each under its own kind. -/
structure Hooks.Supplies (hooks : Hooks) (spec : FieldSpec) : Prop where
  validator : ∀ name, spec.validator = some name → name ∈ Keyed.keys hooks.validators
  formatter : ∀ name, spec.formatter = some name → name ∈ Keyed.keys hooks.formatters
  calculator : ∀ name, spec.calculator = some name → name ∈ Keyed.keys hooks.calculators

/-- The function that a field names is the one that is registered under the name. -/
inductive Hook.Named {α : Type} (functions : Keyed α) : Option String → Option (Hook α) → Prop
  | none : Named functions none none
  | some {name : String} {run : α} (registered : Keyed.get? functions name = some run) :
      Named functions (some name) (some ⟨name, run⟩)

/-- A bound limits texts and numbers, as the number that it is or that it names, and is dropped
for any other type. -/
inductive Bound.Limits (type : FieldType) : Option Bound → Option Number → Prop
  | none : Limits type none none
  | dropped {bound : Option Bound} (text : type ≠ .string) (number : type ≠ .number) :
      Limits type bound none
  | number {value : Finite} (bounded : type = .string ∨ type = .number) :
      Limits type (some (.number value)) (some (.finite value))
  | text {text : String} {limit : Number} (bounded : type = .string ∨ type = .number)
      (read : Number.ofText? (Text.trim text.toList) = some limit) :
      Limits type (some (.text text)) (some limit)

/-- A rule holds values to what the entry of a description states. -/
structure FieldRule.Follows (rule : FieldRule) (hooks : Hooks) (entry : String × FieldSpec) :
    Prop where
  name : rule.name = entry.1
  type : rule.type = entry.2.type
  isArray : rule.isArray = entry.2.isArray
  required : rule.required = entry.2.required
  default : Option.Rel Value.Reads entry.2.default rule.default
  min : Bound.Limits entry.2.type entry.2.min rule.min
  max : Bound.Limits entry.2.type entry.2.max rule.max
  validator : Hook.Named hooks.validators entry.2.validator rule.validator
  failMessage : rule.failMessage = entry.2.failMessage
  formatter : Hook.Named hooks.formatters entry.2.formatter rule.formatter
  calculator : Hook.Named hooks.calculators entry.2.calculator rule.calculator

theorem Hook.named_bind {α : Type} {functions : Keyed α} {name : Option String}
    (supplied : ∀ held, name = some held → held ∈ Keyed.keys functions) :
    Named functions name (name.bind (Hooks.hook? functions)) := by
  cases name with
  | none => exact .none
  | some name =>
      obtain ⟨run, registered⟩ := Keyed.contains_iff.mp (Keyed.mem_keys_iff.mp (supplied name rfl))
      rw [Option.bind_some, Hooks.hook?, registered]
      exact .some registered

theorem Bound.Limits.eq_bind {type : FieldType} {bound : Option Bound} {limit : Option Number}
    (limits : Limits type bound limit) (bounded : type = .string ∨ type = .number) :
    limit = bound.bind Bound.value? := by
  cases limits with
  | none => rfl
  | dropped text number => exact absurd bounded (not_or.mpr ⟨text, number⟩)
  | number => rfl
  | text _ read => exact read.symm

namespace FieldSpec

/-- The bounds that are texts are numbers, where the type of the field has bounds. -/
def Measured (spec : FieldSpec) : Prop :=
  spec.type = .string ∨ spec.type = .number → ∀ text,
    spec.min = some (.text text) ∨ spec.max = some (.text text) →
      Decimal.Numeral (Text.trim text.toList)

def keptBound (type : FieldType) (bound : Option Bound) : Option Number :=
  if type = .string ∨ type = .number then bound.bind Bound.value? else none

/-- The rule for the values of a field. -/
def rule (spec : FieldSpec) (name : String) (hooks : Hooks) : FieldRule where
  name
  type := spec.type
  isArray := spec.isArray
  required := spec.required
  default := spec.default.map Value.ofJson
  min := keptBound spec.type spec.min
  max := keptBound spec.type spec.max
  validator := spec.validator.bind hooks.validator?
  failMessage := spec.failMessage
  formatter := spec.formatter.bind hooks.formatter?
  calculator := spec.calculator.bind hooks.calculator?

theorem keptBound_limits {type : FieldType} {bound : Option Bound}
    (measured : type = .string ∨ type = .number → ∀ text, bound = some (.text text) →
      Decimal.Numeral (Text.trim text.toList)) :
    Bound.Limits type bound (keptBound type bound) := by
  rw [keptBound]
  split
  · rename_i bounded
    cases bound with
    | none => exact .none
    | some bound =>
        cases bound with
        | number value => exact .number bounded
        | text text =>
            obtain ⟨limit, read⟩ := Option.isSome_iff_exists.mp
              (Number.ofText?_isSome_iff.mpr (measured bounded text rfl))
            rw [Option.bind_some, Bound.value?, read]
            exact .text bounded read
  · rename_i plain
    exact .dropped (fun text => plain (.inl text)) fun number => plain (.inr number)

theorem rule_follows {hooks : Hooks} {entry : String × FieldSpec}
    (supplies : hooks.Supplies entry.2) (measured : entry.2.Measured) :
    (entry.2.rule entry.1 hooks).Follows hooks entry where
  name := rfl
  type := rfl
  isArray := rfl
  required := rfl
  default := Value.rel_reads_iff.mpr rfl
  min := keptBound_limits fun bounded text min => measured bounded text (.inl min)
  max := keptBound_limits fun bounded text max => measured bounded text (.inr max)
  validator := Hook.named_bind supplies.validator
  failMessage := rfl
  formatter := Hook.named_bind supplies.formatter
  calculator := Hook.named_bind supplies.calculator

end FieldSpec

namespace SchemaSet

variable {hooks : Hooks}

def boundFault? (type : FieldType) (invalid : String → SchemaError) :
    Option Bound → Option SchemaError
  | some (.text text) =>
      if (type = .string ∨ type = .number) ∧ (Bound.text text).value?.isNone then
        some (invalid text)
      else none
  | _ => none

/-- A name is given that is not among the entries. -/
def absentFault? {α : Type} (entries : Keyed α) (missing : String → SchemaError) :
    Option String → Option SchemaError
  | some name => if Keyed.contains entries name then none else some (missing name)
  | none => none

/-- Why no field can be made, whatever schemas there are. -/
def fieldFault? (hooks : Hooks) (schema : String) (entry : String × FieldSpec) :
    Option SchemaError :=
  ((((boundFault? entry.2.type (.invalidBound schema entry.1 "min") entry.2.min).or
    (boundFault? entry.2.type (.invalidBound schema entry.1 "max") entry.2.max)).or
    (absentFault? hooks.validators (.unknownHook schema entry.1 .validator) entry.2.validator)).or
    (absentFault? hooks.formatters (.unknownHook schema entry.1 .formatter) entry.2.formatter)).or
    (absentFault? hooks.calculators (.unknownHook schema entry.1 .calculator) entry.2.calculator)

theorem isBounded_iff {type : FieldType} :
    type.isBounded = true ↔ type = .string ∨ type = .number := by
  simp [FieldType.isBounded]

theorem boundOf_eq (type : FieldType) (invalid : String → SchemaError) (bound : Option Bound) :
    boundOf type invalid bound =
      (boundFault? type invalid bound).elim (.ok (FieldSpec.keptBound type bound)) .error := by
  rw [boundOf.eq_def, FieldSpec.keptBound]
  cases bound with
  | none => simp [boundFault?]
  | some bound =>
      dsimp only
      by_cases bounded : type.isBounded = true
      · have kinds := isBounded_iff.mp bounded
        rw [if_pos bounded, if_pos kinds, Option.bind_some]
        cases bound with
        | number value => rfl
        | text text =>
            cases read : (Bound.text text).value? with
            | none => simp [boundFault?, kinds, read, Bound.display]
            | some value => simp [boundFault?, read]
      · have kinds := mt isBounded_iff.mpr bounded
        rw [if_neg bounded, if_neg kinds]
        cases bound with
        | number value => rfl
        | text text => simp [boundFault?, kinds]

theorem lookUp_eq {α β : Type} {find : String → Option α} {entries : Keyed β}
    (same : ∀ name, (find name).isSome = Keyed.contains entries name)
    (missing : String → SchemaError) (name : Option String) :
    lookUp find missing name =
      (absentFault? entries missing name).elim (.ok (name.bind find)) .error := by
  cases name with
  | none => rfl
  | some name =>
      rw [lookUp, absentFault?, Option.bind_some, ← same]
      cases find name <;> rfl

theorem isSome_hook? {α : Type} (functions : Keyed α) (name : String) :
    (Hooks.hook? functions name).isSome = Keyed.contains functions name := by
  rw [Hooks.hook?, Option.isSome_map, Keyed.contains]

/-- A field is made as far as its own bounds and functions go, and as the schema that it
refers to is among those that have been made. -/
theorem fieldOf_eq (hooks : Hooks) (made : Keyed Schema) (owner : String)
    (entry : String × FieldSpec) :
    fieldOf hooks made owner entry =
      ((fieldFault? hooks owner entry).or (absentFault? made (.missingSubschema owner entry.1)
        (entry.2.reference.map Reference.name))).elim
      (.ok ⟨entry.2.rule entry.1 hooks,
        (entry.2.reference.map Reference.name).bind (Keyed.get? made)⟩) .error := by
  rw [fieldOf, fieldFault?]
  simp only [boundOf_eq, Hooks.validator?, Hooks.formatter?, Hooks.calculator?,
    lookUp_eq (isSome_hook? _), lookUp_eq (fun name => (rfl : _ = Keyed.contains made name))]
  cases boundFault? entry.2.type _ entry.2.min with
  | some error => rfl
  | none =>
  cases boundFault? entry.2.type _ entry.2.max with
  | some error => rfl
  | none =>
  cases absentFault? hooks.validators _ entry.2.validator with
  | some error => rfl
  | none =>
  cases absentFault? hooks.formatters _ entry.2.formatter with
  | some error => rfl
  | none =>
  cases absentFault? hooks.calculators _ entry.2.calculator with
  | some error => rfl
  | none =>
  cases absentFault? made _ (entry.2.reference.map Reference.name) with
  | some error => rfl
  | none => rfl

theorem boundFault?_eq_none_iff {type : FieldType} {invalid : String → SchemaError}
    {bound : Option Bound} :
    boundFault? type invalid bound = none ↔ (type = .string ∨ type = .number →
      ∀ text, bound = some (.text text) → Decimal.Numeral (Text.trim text.toList)) := by
  cases bound with
  | none => simp [boundFault?]
  | some bound =>
      cases bound with
      | number value => simp [boundFault?]
      | text text =>
          simp only [boundFault?, Bound.value?, ite_eq_right_iff, reduceCtorEq, imp_false, not_and,
            Option.isNone_iff_eq_none, Option.some.injEq, Bound.text.injEq, forall_eq',
            ← Number.ofText?_isSome_iff, Option.isSome_iff_ne_none, ne_eq]

theorem absentFault?_eq_none_iff {α : Type} {entries : Keyed α} {missing : String → SchemaError}
    {name : Option String} :
    absentFault? entries missing name = none ↔
      ∀ held, name = some held → held ∈ Keyed.keys entries := by
  cases name with
  | none => simp [absentFault?]
  | some name => simp [absentFault?, Keyed.mem_keys_iff]

theorem fieldFault?_eq_none_iff {owner : String} {entry : String × FieldSpec} :
    fieldFault? hooks owner entry = none ↔ hooks.Supplies entry.2 ∧ entry.2.Measured := by
  simp only [fieldFault?, Option.or_eq_none_iff, boundFault?_eq_none_iff, absentFault?_eq_none_iff]
  constructor
  · rintro ⟨⟨⟨⟨low, high⟩, validator⟩, formatter⟩, calculator⟩
    refine ⟨⟨validator, formatter, calculator⟩, fun bounded text declared => ?_⟩
    rcases declared with min | max
    · exact low bounded text min
    · exact high bounded text max
  · rintro ⟨⟨validator, formatter, calculator⟩, measured⟩
    exact ⟨⟨⟨⟨fun bounded text min => measured bounded text (.inl min),
      fun bounded text max => measured bounded text (.inr max)⟩, validator⟩, formatter⟩,
      calculator⟩

theorem boundFault?_eq_some {type : FieldType} {invalid : String → SchemaError}
    {bound : Option Bound} {error : SchemaError}
    (fault : boundFault? type invalid bound = some error) : ∃ text, error = invalid text := by
  rw [boundFault?.eq_def] at fault
  split at fault
  · rename_i text
    split at fault
    · exact ⟨text, (Option.some.inj fault).symm⟩
    · simp at fault
  · simp at fault

theorem absentFault?_eq_some {α : Type} {entries : Keyed α} {missing : String → SchemaError}
    {name : Option String} {error : SchemaError}
    (fault : absentFault? entries missing name = some error) : ∃ held, error = missing held := by
  rw [absentFault?.eq_def] at fault
  split at fault
  · rename_i held
    split at fault
    · simp at fault
    · exact ⟨held, (Option.some.inj fault).symm⟩
  · simp at fault

theorem fieldFault?_ne_missing {owner : String} {entry : String × FieldSpec} {error : SchemaError}
    (fault : fieldFault? hooks owner entry = some error) (schema field target : String) :
    error ≠ .missingSubschema schema field target := by
  simp only [fieldFault?, Option.or_eq_some_iff] at fault
  rcases fault with ((((low | ⟨_, high⟩) | ⟨_, validator⟩) | ⟨_, formatter⟩) | ⟨_, calculator⟩)
  · obtain ⟨_, rfl⟩ := boundFault?_eq_some low
    simp
  · obtain ⟨_, rfl⟩ := boundFault?_eq_some high
    simp
  · obtain ⟨_, rfl⟩ := absentFault?_eq_some validator
    simp
  · obtain ⟨_, rfl⟩ := absentFault?_eq_some formatter
    simp
  · obtain ⟨_, rfl⟩ := absentFault?_eq_some calculator
    simp

end SchemaSet

end Schemata
