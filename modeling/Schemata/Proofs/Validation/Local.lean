import Mathlib.Data.List.Basic
import Schemata.Validation.Examined
namespace Schemata

/-! Validation of a field reads and writes one member of a body.

`Field.settle` is what a field does with the value under its name, whatever else the body
holds, and `Field.validate_eq_settle` says that this is all it does.  Fields of distinct
names are then independent of each other: `validateFields_parts` takes a run apart into
what each field does with the value that it found. -/

namespace Keyed

variable {α : Type}

def write (members : Keyed α) (key : String) : Option α → Keyed α
  | none => members
  | some value => insert members key value

theorem get?_write_of_ne {key other : String} (members : Keyed α) (value : Option α)
    (distinct : key ≠ other) : get? (write members key value) other = get? members other := by
  cases value with
  | none => rfl
  | some value => exact get?_insert_of_ne members value distinct

theorem get?_write_self {members : Keyed α} {key : String} {value : Option α}
    (kept : value = none → get? members key = none) :
    get? (write members key value) key = value := by
  cases value with
  | none => exact kept rfl
  | some value => exact get?_insert_self members key value

theorem write_get? (members : Keyed α) (key : String) :
    write members key (get? members key) = members := by
  cases found : get? members key with
  | none => rfl
  | some value => exact insert_of_get? found

end Keyed

/-- A list whose items are told apart by their names: the first from the others, and these
from each other. -/
theorem nodup_names_cons {α : Type} {name : α → String} {first : α} {rest : List α}
    (names : ((first :: rest).map name).Nodup) :
    (∀ other ∈ rest, name first ≠ name other) ∧ (rest.map name).Nodup := by
  obtain ⟨fresh, others⟩ := List.nodup_cons.mp names
  exact ⟨fun other member same => fresh (List.mem_map.mpr ⟨other, member, same.symm⟩), others⟩

theorem Schema.sizeOf_inner_lt {schema inner : Schema} {field : Field}
    (member : field ∈ schema.fields) (nested : field.schema = some inner) :
    sizeOf inner < sizeOf schema := by
  cases schema
  cases field
  have smaller := List.sizeOf_lt_of_mem member
  simp only at nested
  subst nested
  simp at smaller ⊢
  omega

/-- No schema is found among those of its fields, however deep, so a property of a schema may
rest on that of these. -/
@[elab_as_elim]
theorem Schema.induction {motive : Schema → Prop}
    (step : ∀ schema, (∀ field ∈ schema.fields, ∀ inner, field.schema = some inner →
      motive inner) → motive schema) (schema : Schema) : motive schema :=
  step schema fun _ _ inner _ => Schema.induction step inner
termination_by sizeOf schema
decreasing_by exact sizeOf_inner_lt ‹_› ‹_›

theorem Examined.map_eq_mk {α β : Type} {f : α → β} {examined : Examined α} {edited : β}
    {verdict : Except ValidationFault Outcome} (same : examined.map f = ⟨edited, verdict⟩) :
    ∃ value, examined = ⟨value, verdict⟩ ∧ edited = f value := by
  cases examined with
  | mk value found =>
      simp only [Examined.map, Examined.mk.injEq] at same
      obtain ⟨rfl, rfl⟩ := same
      exact ⟨value, rfl, rfl⟩

/-- The outcome, which is empty when a fault has cut the examination short. -/
def Examined.outcome {α : Type} (examined : Examined α) : Outcome :=
  examined.verdict.toOption.getD .empty

theorem Examined.eq_of_verdict {α : Type} {examined : Examined α}
    {verdict : Except ValidationFault Outcome} (same : examined.verdict = verdict) :
    examined = ⟨examined.edited, verdict⟩ := by
  subst same
  rfl

theorem Examined.eq_of_ok {α : Type} {examined : Examined α}
    (ok : examined.verdict.toOption.isSome = true) :
    examined = ⟨examined.edited, .ok examined.outcome⟩ := by
  cases examined with
  | mk edited verdict =>
      cases verdict with
      | error fault => simp [Except.toOption] at ok
      | ok outcome => rfl

namespace FieldRule

variable {rule : FieldRule} {held after : Option Value} {part : Outcome}

/-- What a field examines: its default stands in for a value that is absent. -/
def defaulted (rule : FieldRule) (held : Option Value) : Option Value :=
  if Value.isAbsent held then rule.default.or held else held

/-- What a field does with the value under its name, given how it examines one. -/
def settleBy (rule : FieldRule) (examine : Value → Examined Value) (held : Option Value) :
    Examined (Option Value) :=
  match rule.defaulted held with
  | none => ⟨none, .ok (rule.absent rule.name)⟩
  | some .null => ⟨some .null, .ok (rule.absent rule.name)⟩
  | some value => (examine value).map some

/-- What a field does with the value under its name; `nested` validates the documents
that it holds. -/
def settle (rule : FieldRule) (nested : Option (Members → Examined Members))
    (held : Option Value) : Examined (Option Value) :=
  match rule.type, nested with
  | .calculated, _ => ⟨held, .error (.unhandledType rule.name .calculated)⟩
  | .subschema, none => ⟨rule.defaulted held, .error (.missingSubschema rule.name)⟩
  | .subschema, some validate => rule.settleBy (rule.examineNested validate) held
  | _, _ => rule.settleBy rule.examinePlain held

theorem get?_fill (rule : FieldRule) (body : Members) :
    Keyed.get? (rule.fill body) rule.name = rule.defaulted (Keyed.get? body rule.name) := by
  rw [fill, defaulted]
  cases rule.default with
  | none => simp
  | some value =>
      by_cases absent : Value.isAbsent (Keyed.get? body rule.name) = true
      · simp [absent]
      · simp [absent]

theorem fill_eq_write (rule : FieldRule) (body : Members) :
    rule.fill body =
      Keyed.write body rule.name (rule.defaulted (Keyed.get? body rule.name)) := by
  have kept := (Keyed.write_get? body rule.name).symm
  rw [fill, defaulted]
  cases rule.default with
  | none => simpa using kept
  | some value =>
      by_cases absent : Value.isAbsent (Keyed.get? body rule.name) = true
      · simp [absent, Keyed.write]
      · simpa [absent] using kept

theorem insert_fill (rule : FieldRule) (body : Members) (value : Value) :
    Keyed.insert (rule.fill body) rule.name value = Keyed.insert body rule.name value := by
  rw [fill_eq_write]
  cases rule.defaulted (Keyed.get? body rule.name) with
  | none => rfl
  | some default => exact Keyed.insert_insert body rule.name default value

theorem examineHeld_eq (rule : FieldRule) (examine : Value → Examined Value) (body : Members) :
    rule.examineHeld examine body =
      (rule.settleBy examine (Keyed.get? body rule.name)).map
        (Keyed.write body rule.name) := by
  have filled := rule.fill_eq_write body
  unfold examineHeld settleBy
  dsimp only
  rw [get?_fill]
  cases examined : rule.defaulted (Keyed.get? body rule.name) with
  | none =>
      rw [examined] at filled
      simp only [filled, Examined.map]
  | some value =>
      rw [examined] at filled
      have written : (examine value).map (Keyed.insert (rule.fill body) rule.name) =
          ((examine value).map some).map (Keyed.write body rule.name) := by
        simp only [Examined.map, insert_fill, Keyed.write]
      cases value with
      | null => simp only [filled, Examined.map]
      | _ => exact written

theorem examine_eq_settle (rule : FieldRule) (nested : Option (Members → Examined Members))
    (body : Members) :
    rule.examine nested body =
      (rule.settle nested (Keyed.get? body rule.name)).map (Keyed.write body rule.name) := by
  have kept := Keyed.write_get? body rule.name
  cases type : rule.type with
  | calculated => simp only [examine, settle, type, Examined.map, kept]
  | subschema =>
      cases nested with
      | none => simp only [examine, settle, type, Examined.map, fill_eq_write]
      | some validate => simp only [examine, settle, type, examineHeld_eq]
  | _ => simp only [examine, settle, type, examineHeld_eq]

/-- A field that is settled without a fault has the schema of its documents, or holds
plain values. -/
theorem settle_ok {nested : Option (Members → Examined Members)}
    (settled : rule.settle nested held = ⟨after, .ok part⟩) :
    (∃ validate, rule.type = .subschema ∧ nested = some validate ∧
      rule.settleBy (rule.examineNested validate) held = ⟨after, .ok part⟩) ∨
    (rule.type ≠ .subschema ∧ rule.type ≠ .calculated ∧
      rule.settleBy rule.examinePlain held = ⟨after, .ok part⟩) := by
  cases type : rule.type with
  | calculated => simp [settle, type] at settled
  | subschema =>
      cases nested with
      | none => simp [settle, type] at settled
      | some validate =>
          exact .inl ⟨validate, rfl, rfl, by simpa only [settle, type] using settled⟩
  | _ =>
      refine .inr ⟨by simp, by simp, ?_⟩
      simpa only [settle, type] using settled

theorem settle_nested {validate : Members → Examined Members} (type : rule.type = .subschema) :
    rule.settle (some validate) held = rule.settleBy (rule.examineNested validate) held := by
  simp only [settle, type]

theorem settle_plain {nested : Option (Members → Examined Members)}
    (plain : rule.type ≠ .subschema) (stored : rule.type ≠ .calculated) :
    rule.settle nested held = rule.settleBy rule.examinePlain held := by
  cases type : rule.type with
  | calculated => exact absurd type stored
  | subschema => exact absurd type plain
  | _ => simp only [settle, type]

theorem settleBy_of_absent {examine : Value → Examined Value}
    (examined : rule.defaulted held = after) (absent : Value.isAbsent after = true) :
    rule.settleBy examine held = ⟨after, .ok (rule.absent rule.name)⟩ := by
  subst examined
  rw [settleBy]
  cases examined : rule.defaulted held with
  | none => rfl
  | some value =>
      rw [examined] at absent
      cases value with
      | null => rfl
      | _ => simp [Value.isAbsent, Value.isNull] at absent

theorem settleBy_of_value {examine : Value → Examined Value} {value : Value}
    (examined : rule.defaulted held = some value) (present : value.isNull = false) :
    rule.settleBy examine held = (examine value).map some := by
  rw [settleBy]
  rw [examined]
  cases value with
  | null => simp [Value.isNull] at present
  | _ => rfl

theorem settleBy_ok {examine : Value → Examined Value}
    (settled : rule.settleBy examine held = ⟨after, .ok part⟩) :
    (rule.defaulted held = after ∧ Value.isAbsent after = true ∧
      part = rule.absent rule.name) ∨
    (∃ value edited, rule.defaulted held = some value ∧ value.isNull = false ∧
      examine value = ⟨edited, .ok part⟩ ∧ after = some edited) := by
  cases absent : Value.isAbsent (rule.defaulted held) with
  | true =>
      rw [settleBy_of_absent rfl absent, Examined.mk.injEq, Except.ok.injEq] at settled
      obtain ⟨rfl, rfl⟩ := settled
      exact .inl ⟨rfl, absent, rfl⟩
  | false =>
      cases examined : rule.defaulted held with
      | none => simp [examined, Value.isAbsent] at absent
      | some value =>
          have present : value.isNull = false := by
            simpa [examined, Value.isAbsent] using absent
          rw [settleBy_of_value examined present] at settled
          obtain ⟨edited, found, rfl⟩ := Examined.map_eq_mk settled
          exact .inr ⟨value, edited, rfl, present, found, rfl⟩

theorem defaulted_of_value {value : Value} (present : value.isNull = false) :
    rule.defaulted (some value) = some value := by
  simp [defaulted, Value.isAbsent, present]

theorem defaulted_defaulted (rule : FieldRule) (held : Option Value) :
    rule.defaulted (rule.defaulted held) = rule.defaulted held := by
  simp only [defaulted]
  split
  · rename_i absent
    cases rule.default with
    | none => simp [absent]
    | some value => simp
  · rfl

theorem defaulted_eq_none (examined : rule.defaulted held = none) : held = none := by
  rw [defaulted] at examined
  split at examined
  · simp only [Option.or_eq_none_iff] at examined
    exact examined.2
  · exact examined

theorem settleBy_eq_none {examine : Value → Examined Value}
    (settled : (rule.settleBy examine held).edited = none) : held = none := by
  rw [settleBy] at settled
  split at settled
  · exact defaulted_eq_none ‹_›
  · simp at settled
  · simp [Examined.map] at settled

end FieldRule

def Field.settle (field : Field) (held : Option Value) : Examined (Option Value) :=
  field.toFieldRule.settle (field.schema.map Schema.validate) held

theorem Field.validate_eq_settle (field : Field) (body : Members) :
    field.validate body =
      (field.settle (Keyed.get? body field.name)).map (Keyed.write body field.name) := by
  rw [Field.validate_eq, FieldRule.examine_eq_settle]
  rfl

/-- No field takes a value away, whatever comes of it. -/
theorem Field.settle_eq_none {field : Field} {held : Option Value}
    (settled : (field.settle held).edited = none) : held = none := by
  rw [settle, FieldRule.settle.eq_def] at settled
  split at settled
  · exact settled
  · exact FieldRule.defaulted_eq_none settled
  · exact FieldRule.settleBy_eq_none settled
  · exact FieldRule.settleBy_eq_none settled

theorem FieldRule.edited_settleBy {rule : FieldRule} {examine : Value → Examined Value}
    {value : Value} (present : value.isNull = false) (kept : (examine value).edited = value) :
    (rule.settleBy examine (some value)).edited = some value := by
  rw [settleBy_of_value (defaulted_of_value present) present]
  exact congrArg some kept

/-- No field changes a number, whatever its type and whatever comes of it. -/
theorem Field.edited_settle_number (field : Field) (number : Number) :
    (field.settle (some (.number number))).edited = some (.number number) := by
  by_cases calculated : field.type = .calculated
  · simp only [settle, FieldRule.settle, calculated]
  by_cases subschema : field.type = .subschema
  · cases nested : field.schema with
    | none =>
        simp only [settle, nested, FieldRule.settle, subschema, Option.map_none]
        exact FieldRule.defaulted_of_value rfl
    | some inner =>
        rw [settle, nested, Option.map_some, FieldRule.settle_nested subschema]
        refine FieldRule.edited_settleBy rfl ?_
        rw [FieldRule.examineNested.eq_def]
        dsimp only
        split <;> rfl
  · rw [settle, FieldRule.settle_plain subschema calculated]
    refine FieldRule.edited_settleBy rfl ?_
    rw [FieldRule.examinePlain.eq_def]
    dsimp only
    split
    · rfl
    · cases field.type <;> rfl

namespace Outcome

theorem failures_merge_empty (outcome part : Outcome) :
    (outcome.merge "" part).failures = outcome.failures ++ part.failures := by
  have same : Failure.under "" = id := funext fun failure => by
    rw [Failure.under, String.empty_append]
    rfl
  rw [merge, same, List.map_id]

/-- An outcome to which those of parts have been added in their order. -/
def joined (outcome : Outcome) (parts : List Outcome) : Outcome :=
  parts.foldl (fun total part => total.merge "" part) outcome

variable (outcome : Outcome) (parts : List Outcome)

theorem passed_joined :
    (outcome.joined parts).passed = (outcome.passed && parts.all Outcome.passed) := by
  rw [joined]
  induction parts generalizing outcome with
  | nil => simp
  | cons part rest inductionHypothesis =>
      rw [List.foldl_cons, inductionHypothesis, passed_merge, List.all_cons, Bool.and_assoc]

theorem failures_joined :
    (outcome.joined parts).failures = outcome.failures ++ parts.flatMap Outcome.failures := by
  rw [joined]
  induction parts generalizing outcome with
  | nil => simp
  | cons part rest inductionHypothesis =>
      rw [List.foldl_cons, inductionHypothesis, failures_merge_empty, List.flatMap_cons,
        List.append_assoc]

theorem verdict?_joined (path : String) :
    (outcome.joined parts).verdict? path =
      (parts.map fun part => part.verdict? path).foldl (Option.merge and)
        (outcome.verdict? path) := by
  rw [joined]
  induction parts generalizing outcome with
  | nil => rfl
  | cons part rest inductionHypothesis =>
      rw [List.foldl_cons, inductionHypothesis, verdict?_merge_empty, List.map_cons,
        List.foldl_cons]

end Outcome

/-- The fields that a validation visits. -/
def storedFields (fields : List Field) : List Field :=
  fields.filter fun field => field.isPersisted

theorem mem_storedFields {fields : List Field} {field : Field} :
    field ∈ storedFields fields ↔ field ∈ fields ∧ field.isPersisted = true := by
  simp [storedFields]

def Field.outcomeIn (field : Field) (body : Members) : Outcome :=
  (field.settle (Keyed.get? body field.name)).outcome

/-- What fields find in a body, on top of what has been found before. -/
def outcomeOfFields (fields : List Field) (body : Members) (outcome : Outcome) : Outcome :=
  (storedFields fields).foldl (fun total field => total.merge "" (field.outcomeIn body)) outcome

theorem storedFields_cons (field : Field) (rest : List Field) :
    storedFields (field :: rest) =
      if field.isPersisted then field :: storedFields rest else storedFields rest :=
  List.filter_cons

theorem outcomeOfFields_congr {fields : List Field} {left right : Members} (outcome : Outcome)
    (alike : ∀ field ∈ storedFields fields, field.outcomeIn left = field.outcomeIn right) :
    outcomeOfFields fields left outcome = outcomeOfFields fields right outcome := by
  rw [outcomeOfFields]
  exact List.foldl_ext _ _ _ fun total field member => by rw [alike field member]

theorem outcomeOfFields_eq_joined (fields : List Field) (body : Members) (outcome : Outcome) :
    outcomeOfFields fields body outcome =
      outcome.joined ((storedFields fields).map fun field => field.outcomeIn body) :=
  List.foldl_map.symm

theorem passed_outcomeOfFields {fields : List Field} {body : Members} {outcome : Outcome} :
    (outcomeOfFields fields body outcome).passed = true ↔
      outcome.passed = true ∧
        ∀ field ∈ storedFields fields, (field.outcomeIn body).passed = true := by
  rw [outcomeOfFields_eq_joined, Outcome.passed_joined]
  simp

/-- What a run over fields has done: every field has settled the value that it found under
its name, each for itself, and no other member has changed. -/
theorem validateFields_parts {fields : List Field} {body after : Members}
    {outcome total : Outcome} (names : (fields.map fun field => field.name).Nodup)
    (ran : validateFields fields body outcome = ⟨after, .ok total⟩) :
    (∀ field ∈ storedFields fields, field.settle (Keyed.get? body field.name) =
      ⟨Keyed.get? after field.name, .ok (field.outcomeIn body)⟩) ∧
    total = outcomeOfFields fields body outcome ∧
    ∀ key, (∀ field ∈ storedFields fields, field.name ≠ key) →
      Keyed.get? after key = Keyed.get? body key := by
  induction fields generalizing body outcome with
  | nil =>
      simp only [validateFields, Examined.mk.injEq, Except.ok.injEq] at ran
      obtain ⟨rfl, rfl⟩ := ran
      exact ⟨by simp [storedFields], rfl, fun _ _ => rfl⟩
  | cons field rest inductionHypothesis =>
      obtain ⟨apart, restNames⟩ := nodup_names_cons names
      have others : ∀ other ∈ storedFields rest, field.name ≠ other.name :=
        fun other member => apart other (mem_storedFields.mp member).1
      rw [outcomeOfFields]
      rw [storedFields_cons]
      cases persisted : field.isPersisted with
      | false =>
          simp only [validateFields, persisted, Bool.false_eq_true, ↓reduceIte] at ran ⊢
          exact inductionHypothesis restNames ran
      | true =>
          simp only [validateFields, persisted, ↓reduceIte, Field.validate_eq_settle] at ran ⊢
          cases settled : field.settle (Keyed.get? body field.name) with
          | mk value verdict =>
              cases verdict with
              | error fault => simp [settled, Examined.map] at ran
              | ok part =>
                  simp only [settled, Examined.map] at ran
                  obtain ⟨each, total_eq, frame⟩ := inductionHypothesis restNames ran
                  have found : field.outcomeIn body = part := by
                    simp [Field.outcomeIn, settled, Examined.outcome, Except.toOption]
                  have kept : Keyed.get? after field.name = value := by
                    rw [frame field.name fun other member => (others other member).symm]
                    apply Keyed.get?_write_self
                    intro none
                    exact Field.settle_eq_none (by rw [settled, none])
                  have unread : ∀ other ∈ storedFields rest,
                      Keyed.get? (Keyed.write body field.name value) other.name =
                        Keyed.get? body other.name := fun other member =>
                    Keyed.get?_write_of_ne body value (others other member)
                  have alike : ∀ other ∈ storedFields rest,
                      other.outcomeIn (Keyed.write body field.name value) =
                        other.outcomeIn body := by
                    intro other member
                    rw [Field.outcomeIn, unread other member, Field.outcomeIn]
                  refine ⟨?_, ?_, ?_⟩
                  · intro other member
                    rcases List.mem_cons.mp member with rfl | member
                    · rw [settled, kept, found]
                    · rw [← alike other member, ← unread other member]
                      exact each other member
                  · rw [total_eq, outcomeOfFields_congr _ alike, List.foldl_cons, found]
                    rfl
                  · intro key apart
                    rw [frame key fun other member => apart other (.tail _ member)]
                    exact Keyed.get?_write_of_ne body value (apart field (.head _))

/-- A member stays as it is that the fields of its name leave alone, wherever a fault cuts
the validation short. -/
theorem get?_edited_validateFields {fields : List Field} {body : Members} {key : String}
    {held : Option Value} (found : Keyed.get? body key = held)
    (rests : ∀ field ∈ fields, field.name = key → (field.settle held).edited = held)
    (outcome : Outcome) :
    Keyed.get? (validateFields fields body outcome).edited key = held := by
  induction fields generalizing body outcome with
  | nil => simpa only [validateFields] using found
  | cons field rest inductionHypothesis =>
      have later := fun other member => rests other (List.mem_cons_of_mem field member)
      have first : Keyed.get? (field.validate body).edited key = held := by
        rw [Field.validate_eq_settle, Examined.map]
        by_cases same : field.name = key
        · rw [same, found, rests field List.mem_cons_self same]
          exact Keyed.get?_write_self fun none => none ▸ found
        · rw [Keyed.get?_write_of_ne _ _ same, found]
      rw [validateFields]
      split
      · dsimp only
        split
        · exact first
        · exact inductionHypothesis first later _
      · exact inductionHypothesis found later _

theorem validateFields_exists {fields : List Field} {body : Members}
    (names : (fields.map fun field => field.name).Nodup)
    (settled : ∀ field ∈ storedFields fields, ∃ value part,
      field.settle (Keyed.get? body field.name) = ⟨value, .ok part⟩) (outcome : Outcome) :
    ∃ after total, validateFields fields body outcome = ⟨after, .ok total⟩ := by
  induction fields generalizing body outcome with
  | nil => exact ⟨body, outcome, by simp only [validateFields]⟩
  | cons field rest inductionHypothesis =>
      obtain ⟨apart, restNames⟩ := nodup_names_cons names
      rw [storedFields_cons] at settled
      cases persisted : field.isPersisted with
      | false =>
          simp only [validateFields, persisted, Bool.false_eq_true, ↓reduceIte] at settled ⊢
          exact inductionHypothesis restNames settled outcome
      | true =>
          simp only [persisted, ↓reduceIte] at settled
          obtain ⟨value, part, first⟩ := settled field (.head _)
          simp only [validateFields, persisted, ↓reduceIte, Field.validate_eq_settle, first,
            Examined.map]
          apply inductionHypothesis restNames
          intro other member
          rw [Keyed.get?_write_of_ne body value (apart other (mem_storedFields.mp member).1)]
          exact settled other (.tail _ member)

end Schemata
