import Schemata.Proofs.Collect
import Schemata.Proofs.Validation.Conformance
import Schemata.Proofs.Validation.Shape
namespace Schemata

/-! Schemas that differ in their validators.

`Schema.Alike` relates schemas that are built alike, field by field and at any depth, where the
rules of their fields are related.  A validator is asked about the values that fit the type and the
bounds of its field and about no others (`FieldRule.judge_of_not_fits`), so validators that agree on
these cannot be told apart by any validation (`Schema.validate_of_agreeing_validators`). -/

/-- What is said of a value for a rule; without a validator it is approved of. -/
def FieldRule.answer (rule : FieldRule) (value : Value) : Except String Bool :=
  rule.validator.elim (.ok true) fun validator => validator.run value

/-- The rules are the same but for their validators. -/
def FieldRule.Revises (left right : FieldRule) : Prop :=
  ∃ validator, right = { left with validator }

/-- The rules are the same but for validators that say the same of all values that fit. -/
structure FieldRule.AgreesWith (left right : FieldRule) : Prop where
  revises : left.Revises right
  answers : ∀ value, left.Fits value → left.answer value = right.answer value

mutual

inductive Schema.Alike (related : FieldRule → FieldRule → Prop) : Schema → Schema → Prop
  | intro {left right : Schema} (name : left.name = right.name)
      (version : left.version = right.version) (upgrader : left.upgrader = right.upgrader)
      (fields : List.Forall₂ (Field.Alike related) left.fields right.fields) :
      Schema.Alike related left right

inductive Field.Alike (related : FieldRule → FieldRule → Prop) : Field → Field → Prop
  | intro {left right : Field} (rules : related left.toFieldRule right.toFieldRule)
      (schemas : Option.Rel (Schema.Alike related) left.schema right.schema) :
      Field.Alike related left right

end

/-- What is said of schemas that are built alike may rest on that for the schemas of their
fields. -/
theorem Schema.Alike.induction {related : FieldRule → FieldRule → Prop}
    {motive : Schema → Schema → Prop} {left right : Schema} (alike : left.Alike related right)
    (step : ∀ left right, left.name = right.name →
      List.Forall₂ (fun left right => related left.toFieldRule right.toFieldRule ∧
        Option.Rel motive left.schema right.schema) left.fields right.fields →
      motive left right) : motive left right := by
  induction left using Schema.induction generalizing right with
  | step left inductionHypothesis =>
      obtain ⟨name, _, _, fields⟩ := alike
      refine step left right name (forall₂_imp_of_mem (fun field member other pair => ?_) fields)
      obtain ⟨rules, schemas⟩ := pair
      exact ⟨rules, rel_imp_of_eq_some (fun inner nested _ pair =>
        inductionHypothesis field member inner nested pair) schemas⟩

namespace FieldRule

variable {left right rule : FieldRule} {path : String} {value : Value}

theorem consult_eq (rule : FieldRule) (path : String) (value : Value) :
    rule.consult path value =
      match rule.answer value with
      | .error message => .error (.raised path message)
      | .ok true => .ok (.ofPass path)
      | .ok false => .ok (.ofFailure path (rule.refusal value)) := by
  rw [consult, answer]
  cases rule.validator <;> rfl

theorem Revises.refl (rule : FieldRule) : rule.Revises rule :=
  ⟨rule.validator, rfl⟩

/-- Beside the judgement of a value nothing of what a field does has to do with validators. -/
theorem Revises.alike (revises : left.Revises right) :
    right.slot = left.slot ∧ right.defaulted = left.defaulted ∧
    right.settleBy = left.settleBy ∧ right.examineNested = left.examineNested := by
  obtain ⟨_, rfl⟩ := revises
  exact ⟨rfl, rfl, rfl, rfl⟩

theorem Revises.fits_iff (revises : left.Revises right) : right.Fits value ↔ left.Fits value := by
  obtain ⟨_, rfl⟩ := revises
  constructor <;> exact fun fits => ⟨fits.form, fits.notBelow, fits.notAbove⟩

theorem Revises.refusal (revises : left.Revises right) : right.refusal = left.refusal := by
  obtain ⟨_, rfl⟩ := revises
  rfl

/-- Rules that agree judge alike whatever they are given. -/
theorem AgreesWith.judge_eq (agrees : left.AgreesWith right) (path : String) (value : Value) :
    left.judge path value = right.judge path value := by
  obtain ⟨revises, answers⟩ := agrees
  by_cases fits : left.Fits value
  · rw [judge_of_fits fits, judge_of_fits (revises.fits_iff.mpr fits), consult_eq, consult_eq,
      answers value fits, revises.refusal]
  · obtain ⟨validator, rfl⟩ := revises
    cases null : value.isNull with
    | true =>
        cases value with
        | null => rfl
        | _ => simp [Value.isNull] at null
    | false =>
        rcases judge_of_not_fits fits null path with ⟨_, _, unasked⟩ | ⟨_, unasked⟩
        · exact (unasked left.validator).trans (unasked validator).symm
        · exact (unasked left.validator).trans (unasked validator).symm

theorem AgreesWith.examinePlain_eq (agrees : left.AgreesWith right) :
    left.examinePlain = right.examinePlain := by
  have judged : left.judge = right.judge :=
    funext fun path => funext fun value => agrees.judge_eq path value
  obtain ⟨⟨validator, rfl⟩, _⟩ := agrees
  funext value
  unfold examinePlain
  rw [← judged]

theorem AgreesWith.settle_eq (agrees : left.AgreesWith right)
    (nested : Option (Members → Examined Members)) (held : Option Value) :
    left.settle nested held = right.settle nested held := by
  obtain ⟨slot, defaulted, settleBy, examineNested⟩ := agrees.revises.alike
  have type : right.type = left.type := congrArg Slot.type slot
  have name : right.name = left.name := congrArg Slot.name slot
  rw [settle.eq_def, settle.eq_def, type, name, defaulted, settleBy, examineNested,
    agrees.examinePlain_eq]

end FieldRule

theorem Field.validate_of_agreeing {left right : Field}
    (rules : left.toFieldRule.AgreesWith right.toFieldRule)
    (schemas : left.schema.map Schema.validate = right.schema.map Schema.validate) :
    left.validate = right.validate := by
  have name : right.name = left.name := congrArg Slot.name rules.revises.alike.1
  funext body
  rw [Field.validate_eq_settle, Field.validate_eq_settle, Field.settle, Field.settle, schemas,
    rules.settle_eq, name]

theorem validateFields_of_alike {lefts rights : List Field}
    (pairs : List.Forall₂ (fun left right => left.isPersisted = right.isPersisted ∧
      left.validate = right.validate) lefts rights) :
    validateFields lefts = validateFields rights := by
  induction pairs with
  | nil => rfl
  | cons first _ inductionHypothesis =>
      obtain ⟨persisted, same⟩ := first
      funext body outcome
      rw [validateFields, validateFields, persisted, same, inductionHypothesis]

theorem Schema.Alike.refl {related : FieldRule → FieldRule → Prop}
    (reflexive : ∀ rule, related rule rule) (schema : Schema) : schema.Alike related schema := by
  induction schema using Schema.induction with
  | step schema inductionHypothesis =>
      refine .intro rfl rfl rfl (List.forall₂_same.mpr fun field member =>
        .intro (reflexive field.toFieldRule) ?_)
      cases nested : field.schema with
      | none => exact .none
      | some inner => exact .some (inductionHypothesis field member inner nested)

theorem Schema.Alike.shape_eq {left right : Schema} (alike : left.Alike FieldRule.Revises right) :
    left.shape = right.shape := by
  refine alike.induction (motive := fun left right => left.shape = right.shape)
    fun left right _ fields => ?_
  have same : left.shape.fields = right.shape.fields := by
    rw [shape_fields, shape_fields]
    refine map_eq_of_forall₂ (fun first second pair => ?_) fields
    rw [Field.fieldShape_eq, Field.fieldShape_eq, pair.1.alike.1, map_eq_of_rel pair.2]
  cases first : left.shape
  cases second : right.shape
  rwa [first, second, ← Shape.mk.injEq] at same

theorem Field.Alike.fieldShape_eq {left right : Field}
    (alike : left.Alike FieldRule.Revises right) : left.fieldShape = right.fieldShape := by
  obtain ⟨revises, schemas⟩ := alike
  rw [Field.fieldShape_eq, Field.fieldShape_eq, revises.alike.1,
    map_eq_of_rel (rel_imp_of_eq_some (fun _ _ _ alike => alike.shape_eq) schemas)]

/-- Validators that say the same of all values within type and bounds make for the same
validation of every body, with its edits, its outcome or the fault that cuts it short.  No other
value is ever shown to a validator. -/
theorem Schema.validate_of_agreeing_validators {left right : Schema}
    (alike : left.Alike FieldRule.AgreesWith right) (body : Members) :
    left.validate body = right.validate body := by
  refine congrFun (alike.induction (motive := fun left right => left.validate = right.validate)
    fun left right _ fields => ?_) body
  funext members
  rw [Schema.validate_eq, Schema.validate_eq,
    validateFields_of_alike (fields.imp fun first second pair => ?_)]
  obtain ⟨rules, schemas⟩ := pair
  exact ⟨(congrArg Slot.isPersisted rules.revises.alike.1).symm,
    Field.validate_of_agreeing rules (map_eq_of_rel schemas)⟩

namespace Sample

def residence (check : FieldType → Validator) : Schema where
  name := "Residence"
  version := 1
  fields :=
    [{ name := "city", type := .string, max := some (.ofInt 9),
       validator := some ⟨"city", check .string⟩ },
      { name := "since", type := .date, required := false,
        validator := some ⟨"since", check .date⟩ }]

def stay (check : FieldType → Validator) : Schema where
  name := "Stay"
  version := 1
  fields :=
    [{ name := "nights", type := .number, min := some (.ofInt 1),
       validator := some ⟨"nights", check .number⟩ },
      { name := "arrival", type := .date, validator := some ⟨"arrival", check .date⟩ },
      { name := "guests", type := .string, isArray := true, required := false,
        validator := some ⟨"guests", check .string⟩ },
      { name := "homes", type := .subschema, isArray := true,
        schema := some (residence check) }]

/-- Gives up on what is not of the type, and on numbers below one. -/
def wary : FieldType → Validator
  | .number, .number number =>
      if number.lt (.ofInt 1) then .error "too small a number" else .ok true
  | .string, .text _ => .ok true
  | .date, .date _ => .ok true
  | _, _ => .error "not of the type"

def content : FieldType → Validator := fun _ _ => .ok true

theorem stay_alike : (stay wary).Alike FieldRule.AgreesWith (stay content) := by
  have residences : (residence wary).Alike FieldRule.AgreesWith (residence content) := by
    refine .intro rfl rfl rfl (.cons (.intro ⟨⟨_, rfl⟩, fun value fits => ?_⟩ .none)
      (.cons (.intro ⟨⟨_, rfl⟩, fun value fits => ?_⟩ .none) .nil))
    · cases fits.form with
      | text => rfl
    · cases fits.form with
      | date => rfl
  refine .intro rfl rfl rfl (.cons (.intro ⟨⟨_, rfl⟩, fun value fits => ?_⟩ .none)
    (.cons (.intro ⟨⟨_, rfl⟩, fun value fits => ?_⟩ .none)
      (.cons (.intro ⟨⟨_, rfl⟩, fun value fits => ?_⟩ .none)
        (.cons (.intro ⟨⟨_, rfl⟩, fun value fits => ?_⟩ (.some residences)) .nil))))
  · cases fits.form with
    | number number =>
        have enough := fits.notBelow number _ rfl rfl
        simp [FieldRule.answer, wary, content, enough]
  · cases fits.form with
    | date => rfl
  · cases fits.form with
    | text => rfl
  · cases fits.form

/-- A date that is a text, a guest without a name, homes in no city and in a long one, and no
nights. -/
def vagueStay : Members :=
  [("arrival", .text "2024-03-01"), ("guests", .array [.text "Ann", .null]),
    ("homes", .array [.object [("city", .nat 7)], .object [("city", .text "Gothenburg")]]),
    ("nights", .nat 0)]

end Sample

open Sample in
theorem Schema.validate_of_agreeing_validators_of_stay :
    (stay wary).Alike FieldRule.AgreesWith (stay content) ∧
    (stay wary).validate vagueStay = (stay content).validate vagueStay ∧
    wary .date (.text "2024-03-01") = .error "not of the type" ∧
    ((stay wary).validate vagueStay).outcome.failures =
      [⟨"nights", "nights must be at least 1"⟩,
        ⟨"homes[0].city", "city must be of type string, got number"⟩,
        ⟨"homes[1].city", "city length must be at most 9"⟩] :=
  ⟨stay_alike, Schema.validate_of_agreeing_validators stay_alike vagueStay, rfl,
    by decide +kernel⟩

end Schemata
