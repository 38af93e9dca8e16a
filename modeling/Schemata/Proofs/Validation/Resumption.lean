import Schemata.Proofs.Validation.FieldOrder
import Schemata.Proofs.Validation.Undeclared
import Schemata.Proofs.Validation.Validators
namespace Schemata

/-! Validation after one that has been cut short.

What a run has edited before a fault stays edited, at any point of the recursion.  Another run,
with other validators, does not mind: it finds in what has been left what it would have found
before (`Resumes`).  This goes up from values to bodies, where the members that the second run has
still to visit may have been edited by the first or not. -/

/-- An examination that ends with an outcome for a value ends with it, and with the same edits,
for what another has left of the value, however far that one has come. -/
def Resumes {α : Type} (first second : α → Examined α) : Prop :=
  ∀ {value done outcome}, second value = ⟨done, .ok outcome⟩ →
    second (first value).edited = ⟨done, .ok outcome⟩

namespace Keyed

variable {α : Type}

theorem write_write (members : Keyed α) (key : String) {first second : Option α}
    (kept : second = none → first = none) :
    write (write members key first) key second = write members key second := by
  cases second with
  | none => rw [kept rfl, write]
  | some second =>
      cases first with
      | none => rfl
      | some first => exact insert_insert members key first second

end Keyed

section Examinations

variable {examine : String → Value → Examined Value} {validate : Members → Examined Members}
  {path : String}

theorem examineDocument_edited_of_members? {value : Value} (other : value.members? = none) :
    (examineDocument validate path value).edited = value := by
  rw [examineDocument_of_members? validate path other]

theorem items?_edited_examineDocument {value : Value} (single : value.items? = none) :
    (examineDocument validate path value).edited.items? = none := by
  cases value with
  | object members => rfl
  | array items => simp [Value.items?] at single
  | _ => rfl

theorem isNull_edited_examineDocument (value : Value) :
    (examineDocument validate path value).edited.isNull = value.isNull := by
  cases value <;> rfl

variable {other : String → Value → Examined Value} {another : Members → Examined Members}

theorem examineItems_resumes (each : ∀ path, Resumes (examine path) (other path))
    {position : Nat} {items done : List Value} {outcome total : Outcome}
    (ran : examineItems other path position items outcome = ⟨done, .ok total⟩)
    (before : Outcome) :
    examineItems other path position
      (examineItems examine path position items before).edited outcome = ⟨done, .ok total⟩ := by
  induction items generalizing position outcome done before with
  | nil => exact ran
  | cons item rest inductionHypothesis =>
      obtain ⟨first, others, part, examined, rest_ran, rfl⟩ := examineItems_cons_ok ran
      -- What is behind an item that has faulted has not been touched.
      rcases examineItems_edited_cons examine path position item rest before with
        edited | ⟨after, edited⟩
      · rw [edited]
        exact examineItems_cons (each _ examined) rest_ran
      · rw [edited]
        exact examineItems_cons (each _ examined) (inductionHypothesis rest_ran after)

theorem examineDocument_resumes (inner : Resumes validate another) :
    Resumes (examineDocument validate path) (examineDocument another path) := by
  intro value done outcome examined
  rcases examineDocument_ok examined with
    ⟨members, body, part, rfl, validated, rfl, rfl⟩ | ⟨noDocument, _, _⟩
  · exact examineDocument_object (inner validated)
  · rw [examineDocument_edited_of_members? noDocument]
    exact examined

end Examinations

namespace FieldRule

variable {left right : FieldRule} {validate another : Members → Examined Members} {value : Value}

theorem isNull_edited_examineNested (rule : FieldRule) (value : Value) :
    (rule.examineNested validate value).edited.isNull = value.isNull := by
  rw [examineNested.eq_def]
  split
  · split <;> rfl
  · split
    · rfl
    · exact isNull_edited_examineDocument value

theorem isNull_edited_examinePlain (rule : FieldRule) (value : Value) :
    (rule.examinePlain value).edited.isNull = value.isNull := by
  rw [examinePlain.eq_def]
  split
  · split <;> rfl
  · exact FieldType.isNull_coerce rule.type value

/-- Validators have no part in the form of plain values. -/
theorem Revises.edited_examinePlain (revises : left.Revises right) (value : Value) :
    (left.examinePlain value).edited = (right.examinePlain value).edited := by
  have unedited : ∀ (rule : FieldRule) items,
      (examineItems (fun path item => ⟨item, rule.judge path item⟩) left.name 0 items
        .empty).edited = items :=
    fun rule items => examineItems_edited_of_kept (fun _ _ => rfl) 0 items .empty
  obtain ⟨validator, rfl⟩ := revises
  rw [examinePlain.eq_def, examinePlain.eq_def]
  dsimp only
  split
  · split
    · simp only [examineArray, unedited]
    · rfl
  · rfl

theorem examineNested_resumes (rule : FieldRule) (inner : Resumes validate another) :
    Resumes (rule.examineNested validate) (rule.examineNested another) := by
  intro value done outcome examined
  have documents : ∀ path, Resumes (examineDocument validate path) (examineDocument another path) :=
    fun path => examineDocument_resumes inner
  rcases examineNested_ok examined with
    ⟨array, items, rfl, found⟩ | ⟨single, noItems, found⟩ | ⟨mismatch, same, _⟩
  · obtain ⟨after, total, ran, rfl, rfl⟩ := examineArray_ok found
    rw [examineNested_array array, examineArray, examineNested_array array]
    exact examineArray_eq (examineItems_resumes documents ran .empty)
  · rw [examineNested_single single noItems,
      examineNested_single single (items?_edited_examineDocument noItems)]
    exact documents rule.name found
  · subst same
    have kept : (rule.examineNested validate done).edited = done := by
      rw [examineNested.eq_def]
      cases done <;> simp_all [Value.items?]
    rw [kept]
    exact examined

/-- Plain values are brought into their form once. -/
theorem examinePlain_edited {rule : FieldRule} {edited : Value} {part : Outcome}
    (examined : rule.examinePlain value = ⟨edited, .ok part⟩) :
    rule.examinePlain edited = ⟨edited, .ok part⟩ := by
  rcases examinePlain_ok examined with
    ⟨array, items, rfl, found⟩ | ⟨_, _, rfl, _⟩ | ⟨single, rfl, judged⟩
  · obtain ⟨after, total, ran, rfl, rfl⟩ := examineArray_ok found
    obtain rfl := examineItems_unedited (fun _ _ => rfl) ran
    have formed : (items.map rule.type.coerce).map rule.type.coerce =
        items.map rule.type.coerce := by
      rw [List.map_map]
      exact List.map_congr_left fun item _ => FieldType.coerce_coerce rule.type item
    rw [examinePlain_array array, formed]
    exact found
  · exact examined
  · rw [examinePlain_single single, FieldType.coerce_coerce, judged]

theorem examinePlain_resumes (revises : left.Revises right) :
    Resumes left.examinePlain right.examinePlain := by
  intro value done outcome examined
  rw [revises.edited_examinePlain value, examined]
  exact examinePlain_edited examined

/-- The default comes in once, be it in the first run or in the second. -/
theorem settleBy_resumes {first second : Value → Examined Value} (revises : left.Revises right)
    (present : ∀ value, (first value).edited.isNull = value.isNull)
    (each : Resumes first second) : Resumes (left.settleBy first) (right.settleBy second) := by
  intro held done outcome settled
  obtain ⟨_, defaulted, settleBy, _⟩ := revises.alike
  rw [settleBy] at settled ⊢
  rcases settleBy_ok settled with
    ⟨examined, absent, rfl⟩ | ⟨value, edited, examined, notNull, found, rfl⟩
  · rw [settleBy_of_absent examined absent]
    subst examined
    exact settleBy_of_absent (left.defaulted_defaulted held) absent
  · have still := (present value).trans notNull
    rw [settleBy_of_value examined notNull, Examined.map,
      settleBy_of_value (defaulted_of_value still) still, each found]
    rfl

end FieldRule

theorem Field.settle_resumes {left right : Field}
    (revises : left.toFieldRule.Revises right.toFieldRule)
    (nested : Option.Rel (fun first second => Resumes first.validate second.validate)
      left.schema right.schema) :
    Resumes left.settle right.settle := by
  intro held done outcome settled
  obtain ⟨slot, _, _, examineNested⟩ := revises.alike
  have type : right.type = left.type := congrArg Slot.type slot
  rcases FieldRule.settle_ok settled with
    ⟨validate, subschema, declared, settled⟩ | ⟨plain, stored, settled⟩
  · obtain ⟨twin, declaredTwin, rfl⟩ := Option.map_eq_some_iff.mp declared
    rw [declaredTwin] at nested
    cases schema : left.schema with
    | none => simp [schema] at nested
    | some inner =>
        rw [schema, Option.rel_some_some] at nested
        rw [Field.settle, Field.settle, declared, schema, Option.map_some,
          FieldRule.settle_nested subschema, FieldRule.settle_nested (type ▸ subschema)]
        refine FieldRule.settleBy_resumes revises
          (FieldRule.isNull_edited_examineNested left.toFieldRule) ?_ settled
        rw [examineNested]
        exact left.examineNested_resumes nested
  · rw [Field.settle, Field.settle, FieldRule.settle_plain plain stored,
      FieldRule.settle_plain (type ▸ plain) (type ▸ stored)]
    exact FieldRule.settleBy_resumes revises
      (FieldRule.isNull_edited_examinePlain left.toFieldRule)
      (FieldRule.examinePlain_resumes revises) settled

theorem Field.get?_edited_validate_eq_none {field : Field} {body : Members} {key : String}
    (gone : Keyed.get? (field.validate body).edited key = none) : Keyed.get? body key = none := by
  by_cases same : field.name = key
  · rw [← same, field.get?_edited_validate_self] at gone
    rw [← same]
    exact Field.settle_eq_none gone
  · rwa [Field.get?_edited_validate_of_ne same] at gone

/-- A member that none of the fields names can be written before or after. -/
theorem Field.validate_write {field : Field} {key : String} (other : field.name ≠ key)
    (body : Members) (value : Option Value) :
    field.validate (Keyed.write body key value) =
      (field.validate body).map (fun edited => Keyed.write edited key value) := by
  rw [Field.validate_eq_settle, Field.validate_eq_settle,
    Keyed.get?_write_of_ne body value other.symm, Examined.map, Examined.map, Examined.map,
    Keyed.write_comm body other.symm]

theorem validateFields_write {fields : List Field} {key : String}
    (others : ∀ field ∈ fields, field.name ≠ key) (body : Members) (value : Option Value)
    (outcome : Outcome) :
    validateFields fields (Keyed.write body key value) outcome =
      (validateFields fields body outcome).map fun edited => Keyed.write edited key value := by
  induction fields generalizing body outcome with
  | nil => simp only [validateFields, Examined.map]
  | cons field rest inductionHypothesis =>
      obtain ⟨other, others⟩ := List.forall_mem_cons.mp others
      cases persisted : field.isPersisted with
      | false =>
          simp only [validateFields, persisted, Bool.false_eq_true, ↓reduceIte]
          exact inductionHypothesis others body outcome
      | true =>
          simp only [validateFields, persisted, ↓reduceIte, Field.validate_write other,
            Examined.map]
          cases (field.validate body).verdict with
          | error fault => rfl
          | ok part => exact inductionHypothesis others _ _

theorem validateFields_cons_persisted {field : Field} {rest : List Field} {body middle : Members}
    {part : Outcome} (persisted : field.isPersisted = true)
    (first : field.validate body = ⟨middle, .ok part⟩) (outcome : Outcome) :
    validateFields (field :: rest) body outcome =
      validateFields rest middle (outcome.merge "" part) := by
  simp only [validateFields, persisted, ↓reduceIte, first]

/-- The first field is visited in any case, and the others if it does not fault. -/
theorem validateFields_edited_cons {field : Field} (persisted : field.isPersisted = true)
    (rest : List Field) (body : Members) (outcome : Outcome) :
    (validateFields (field :: rest) body outcome).edited = (field.validate body).edited ∨
      ∃ total, (validateFields (field :: rest) body outcome).edited =
        (validateFields rest (field.validate body).edited total).edited := by
  rw [validateFields, persisted, if_pos rfl]
  dsimp only
  split
  · exact .inl rfl
  · exact .inr ⟨_, rfl⟩

/-- A field writes over what another of its name has written, and does so in every body that has
the same under the name. -/
theorem Field.validate_resumes {left right : Field} (name : left.name = right.name)
    (resumes : Resumes left.settle right.settle) {body middle : Members} {part : Outcome}
    (validated : right.validate body = ⟨middle, .ok part⟩) :
    ∃ value, middle = Keyed.write (left.validate body).edited left.name value ∧
      ∀ edited : Members, Keyed.get? edited left.name =
          Keyed.get? (left.validate body).edited left.name →
        right.validate edited = ⟨Keyed.write edited left.name value, .ok part⟩ := by
  rw [Field.validate_eq_settle, ← name] at validated
  obtain ⟨value, settled, rfl⟩ := Examined.map_eq_mk validated
  have again := resumes settled
  have kept : value = none → (left.settle (Keyed.get? body left.name)).edited = none :=
    fun none => Field.settle_eq_none (by rw [again, none])
  refine ⟨value, ?_, fun edited found => ?_⟩
  · rw [Field.validate_eq_settle, Examined.map, Keyed.write_write body left.name kept]
  · rw [Field.validate_eq_settle, ← name, found, left.get?_edited_validate_self, again,
      Examined.map]

theorem validateFields_resumes {lefts rights : List Field}
    (names : (lefts.map fun field => field.name).Nodup)
    (slots : lefts.map (fun field => field.slot) = rights.map fun field => field.slot)
    (pairs : List.Forall₂ (fun left right => Resumes left.settle right.settle) lefts rights)
    {body done : Members} {outcome total : Outcome}
    (ran : validateFields rights body outcome = ⟨done, .ok total⟩) (before : Outcome) :
    validateFields rights (validateFields lefts body before).edited outcome =
      ⟨done, .ok total⟩ := by
  induction pairs generalizing body done outcome before with
  | nil => simpa only [validateFields] using ran
  | @cons left right lefts rights resumes _ inductionHypothesis =>
      obtain ⟨apart, names⟩ := nodup_names_cons names
      obtain ⟨slot, slots⟩ := List.cons.inj slots
      have stored : left.isPersisted = right.isPersisted := congrArg Slot.isPersisted slot
      have others : ∀ slot ∈ lefts.map (fun field => field.slot), slot.name ≠ left.name :=
        List.forall_mem_map.mpr fun other member => (apart other member).symm
      have untouched : ∀ other ∈ rights, other.name ≠ left.name := by
        rw [slots] at others
        exact fun other member => others other.slot (List.mem_map_of_mem member)
      rcases validateFields_cons_ok ran with
        ⟨persisted, ran⟩ | ⟨persisted, middle, part, validated, ran⟩
      · have skipped := stored.trans persisted
        simp only [validateFields, skipped, persisted, Bool.false_eq_true, ↓reduceIte]
        exact inductionHypothesis names slots ran before
      · obtain ⟨value, rfl, visited⟩ :=
          Field.validate_resumes (congrArg Slot.name slot) resumes validated
        rcases validateFields_edited_cons (stored.trans persisted) lefts body before with
          edited | ⟨after, edited⟩
        · rw [edited, validateFields_cons_persisted persisted (visited _ rfl)]
          exact ran
        · -- The other fields have found the body without the last edit of this one.
          have found : Keyed.get? (validateFields lefts (left.validate body).edited after).edited
              left.name = Keyed.get? (left.validate body).edited left.name :=
            get?_edited_validateFields rfl
              (fun other member same => absurd same.symm (apart other member)) after
          rw [validateFields_write untouched] at ran
          obtain ⟨rest, again, rfl⟩ := Examined.map_eq_mk ran
          rw [edited, validateFields_cons_persisted persisted (visited _ found),
            validateFields_write untouched, inductionHypothesis names slots again after]
          rfl

theorem get?_edited_validateFields_eq_none {fields : List Field} {body : Members} {key : String}
    {outcome : Outcome}
    (gone : Keyed.get? (validateFields fields body outcome).edited key = none) :
    Keyed.get? body key = none := by
  induction fields generalizing body outcome with
  | nil => simpa only [validateFields] using gone
  | cons field rest inductionHypothesis =>
      cases persisted : field.isPersisted with
      | false =>
          simp only [validateFields, persisted, Bool.false_eq_true, ↓reduceIte] at gone
          exact inductionHypothesis gone
      | true =>
          rcases validateFields_edited_cons persisted rest body outcome with
            edited | ⟨total, edited⟩
          · exact Field.get?_edited_validate_eq_none (edited ▸ gone)
          · exact Field.get?_edited_validate_eq_none (inductionHypothesis (edited ▸ gone))

theorem Schema.validate_resumes {left right : Schema} (alike : left.Alike FieldRule.Revises right)
    (distinct : left.Distinct) : Resumes left.validate right.validate := by
  refine alike.induction (motive := fun left right => left.Distinct →
    Resumes left.validate right.validate) (fun left right _ fields distinct => ?_) distinct
  obtain ⟨names, inner⟩ := distinct
  intro body done outcome validated
  rw [Schema.validate_eq] at validated ⊢
  rw [Schema.validate_eq]
  refine validateFields_resumes names ?_ ?_ validated .empty
  · exact map_eq_of_forall₂ (fun _ _ pair => pair.1.alike.1.symm) fields
  · refine forall₂_imp_of_mem (fun field member other pair => ?_) fields
    exact Field.settle_resumes pair.1 (rel_imp_of_eq_some (fun nested declared _ resumes =>
      resumes (inner field member nested declared)) pair.2)

/-- A validation that is cut short does no harm: it takes no member away and changes none that no
stored field names, and what it leaves of a body is as good as the body for the schema with other
validators, which ends with the same outcome and leaves the same. -/
theorem Schema.validate_edited_of_cut_short {left right : Schema} {body partly : Members}
    {verdict : Except ValidationFault Outcome} (distinct : left.Distinct)
    (alike : left.Alike FieldRule.Revises right) (ran : left.validate body = ⟨partly, verdict⟩) :
    (∀ after outcome, right.validate body = ⟨after, .ok outcome⟩ →
      right.validate partly = ⟨after, .ok outcome⟩) ∧
    (∀ key value, Keyed.get? body key = some value →
      ∃ left, Keyed.get? partly key = some left) ∧
    ∀ key, ¬ left.Stores key → Keyed.get? partly key = Keyed.get? body key := by
  have edited : (left.validate body).edited = partly := congrArg Examined.edited ran
  subst edited
  refine ⟨fun after outcome validated => Schema.validate_resumes alike distinct validated,
    fun key value held => ?_, fun key unstored => Schema.get?_edited_validate unstored body⟩
  apply Option.ne_none_iff_exists'.mp
  intro gone
  rw [Schema.validate_eq] at gone
  rw [get?_edited_validateFields_eq_none gone] at held
  simp at held

namespace Sample

/-- Gives up on one city. -/
def touchy : FieldType → Validator := fun _ value =>
  if value.text? = some "Nowhere" then .error "no such city" else .ok true

/-- Three homes, and dates that are texts. -/
def longStay : Members :=
  [("arrival", .text "2024-03-01"),
    ("homes", .array
      [.object [("city", .text "Lund"), ("since", .text "2020-01-01")],
        .object [("city", .text "Nowhere"), ("since", .text "2021-01-01")],
        .object [("city", .text "Falun"), ("since", .text "2022-01-01")]]),
    ("nights", .nat 12)]

/-- The kinds of values by which homes say since when. -/
def sinceKinds (body : Members) : List String :=
  (((Keyed.get? body "homes").bind Value.items?).getD []).map fun home =>
    ((home.members?.bind fun members => Keyed.get? members "since").map Value.typeName).getD ""

theorem stay_revised (check other : FieldType → Validator) :
    (stay check).Alike FieldRule.Revises (stay other) := by
  have residences : (residence check).Alike FieldRule.Revises (residence other) :=
    .intro rfl rfl rfl (.cons (.intro ⟨_, rfl⟩ .none) (.cons (.intro ⟨_, rfl⟩ .none) .nil))
  exact .intro rfl rfl rfl (.cons (.intro ⟨_, rfl⟩ .none) (.cons (.intro ⟨_, rfl⟩ .none)
    (.cons (.intro ⟨_, rfl⟩ .none) (.cons (.intro ⟨_, rfl⟩ (.some residences)) .nil))))

theorem stay_distinct (check : FieldType → Validator) : (stay check).Distinct := by
  have residences : (residence check).Distinct := by
    refine .intro (by simp [residence]) fun field member inner nested => ?_
    simp only [residence, List.mem_cons, List.not_mem_nil, or_false] at member
    rcases member with rfl | rfl <;> simp at nested
  refine .intro (by simp [stay]) fun field member inner nested => ?_
  simp only [stay, List.mem_cons, List.not_mem_nil, or_false] at member
  rcases member with rfl | rfl | rfl | rfl
  · simp at nested
  · simp at nested
  · simp at nested
  · exact Option.some.inj nested ▸ residences

end Sample

open Sample in
theorem Schema.validate_edited_of_cut_short_of_stay :
    ((stay touchy).Distinct ∧ (stay touchy).Alike FieldRule.Revises (stay content) ∧
      (stay touchy).validate longStay = ⟨((stay touchy).validate longStay).edited,
        .error (.raised "city" "no such city")⟩) ∧
    sinceKinds ((stay touchy).validate longStay).edited = ["date", "string", "string"] ∧
    (stay content).validate ((stay touchy).validate longStay).edited =
      ⟨((stay content).validate longStay).edited,
        .ok ((stay content).validate longStay).outcome⟩ ∧
    ((stay content).validate longStay).outcome.verdict? "homes[2].since" = some true := by
  have ran : (stay touchy).validate longStay = ⟨((stay touchy).validate longStay).edited,
      .error (.raised "city" "no such city")⟩ := Examined.eq_of_verdict (by decide +kernel)
  have validated : (stay content).validate longStay = _ := Examined.eq_of_ok (by decide +kernel)
  have revised := stay_revised touchy content
  obtain ⟨resumed, _⟩ :=
    Schema.validate_edited_of_cut_short (stay_distinct touchy) revised ran
  exact ⟨⟨stay_distinct touchy, revised, ran⟩, by decide +kernel, resumed _ _ validated,
    by decide +kernel⟩

end Schemata
