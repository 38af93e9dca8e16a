import Schemata.Proofs.Validation.Idempotence
import Schemata.Proofs.Value.Stored
import Schemata.Validation.Body
namespace Schemata

/-! A body that has passed a validation, and what a validation makes of it once it has been
stored and read back.

A reloaded value is `stored`, and the examination of its field is to make `recalled` of it,
which is to pass exactly when all instants in it are `timely`.  As for idempotence, the
statement goes up from values to bodies, one way to examine after the other. -/

namespace FieldType

variable {type : FieldType} {value : Value}

theorem coerce_sound (plain : value.Plain) : (type.coerce value).Sound := by
  fun_cases coerce type value with
  | case1 text =>
      cases read : Date.read text with
      | error failure => exact plain.sound
      | ok date => exact .date (Date.read_ok read)
  | case2 instant => cases plain
  | case3 text | case4 text =>
      cases read : Instant.read text with
      | error failure => exact plain.sound
      | ok instant => exact .instant (Instant.read_ok read).1
  | case5 members =>
      cases decoded : Value.decodeBuffer (.object members) with
      | none => exact plain.sound
      | some bytes => exact .buffer bytes
  | case6 => exact plain.sound

theorem coerce_stored (sound : value.Sound) (admitted : type.admits value = true) :
    type.coerce value.stored = value.recalled := by
  have form := admits_iff.mp admitted
  cases form with
  | text | bool => rfl
  | number number =>
      cases sound with
      | number value => exact Value.stored_number value
  | date date =>
      cases sound with
      | date inReach =>
          change (Date.read date.text).toOption.elim (Value.text date.text) .date = .date date
          rw [Date.read_text inReach]
          rfl
  | datetime instant | timestamp instant =>
      cases sound with
      | instant regular =>
          change (Instant.read instant.text).toOption.elim (Value.text instant.text) .instant =
            if instant.timely then .instant instant.truncated else .text instant.text
          rw [Instant.read_text regular]
          cases instant.timely <;> rfl
  | buffer bytes => exact coerce_stored_buffer bytes

end FieldType

namespace Value

variable {value : Value}

theorem Sound.isNull_stored (sound : value.Sound) : value.stored.isNull = value.isNull := by
  cases sound with
  | number value =>
      rw [stored_number]
      rfl
  | object ordered each =>
      rw [stored_object ordered]
      rfl
  | _ => rfl

theorem isNull_recalled (value : Value) : value.recalled.isNull = value.isNull := by
  cases value with
  | instant instant =>
      change (if instant.timely then .instant instant.truncated else .text instant.text :
        Value).isNull = false
      split <;> rfl
  | _ => rfl

end Value

namespace FieldRule

variable {rule : FieldRule} {path : String} {value : Value}

/-- A value that is accepted is accepted again unless an instant has stayed a text. -/
theorem accepts_recalled (unchecked : rule.validator = none) (accepted : rule.Accepts value) :
    rule.Accepts value.recalled ↔ value.timely = true := by
  have form := accepted.form
  have approved : ∀ {other : Value} validator, rule.validator = some validator →
      validator.run other = .ok true := fun validator declared => by simp [unchecked] at declared
  cases value with
  | text | bool | date | buffer => exact iff_of_true accepted rfl
  | null | array | object =>
      have impossible := form.present
      simp [Value.isNull, Value.items?, Value.members?] at impossible
  | number number =>
      have recalled : rule.type.Form (.number number.canonical) := by
        cases type : rule.type <;> rw [type] at form <;> cases form
        exact .number _
      refine iff_of_true ⟨⟨recalled, ?_, ?_⟩, approved⟩ rfl
      · rintro size min ⟨rfl⟩ declared
        rw [Number.lt_canonical_left]
        exact accepted.notBelow number min rfl declared
      · rintro size max ⟨rfl⟩ declared
        rw [Number.lt_canonical_right]
        exact accepted.notAbove number max rfl declared
  | instant instant =>
      change rule.Accepts (if instant.timely then .instant instant.truncated
        else .text instant.text) ↔ instant.timely = true
      cases instant.timely with
      | true =>
          have recalled : rule.type.Form (.instant instant.truncated) := by
            cases type : rule.type <;> rw [type] at form <;> cases form
            · exact .datetime _
            · exact .timestamp _
          exact iff_of_true ⟨⟨recalled, by rintro _ _ ⟨⟩, by rintro _ _ ⟨⟩⟩, approved⟩ rfl
      | false =>
          refine iff_of_false (fun again => ?_) Bool.false_ne_true
          have text := again.form
          cases type : rule.type <;> rw [type] at form text <;> cases form <;> cases text

theorem judge_ok (unchecked : rule.validator = none) (plain : rule.type ≠ .subschema)
    (stored : rule.type ≠ .calculated) (path : String) (value : Value) :
    ∃ part, rule.judge path value = .ok part := by
  cases judged : rule.judge path value with
  | ok part => exact ⟨part, rfl⟩
  | error fault =>
      rw [judge_of_fits (fits_of_fault plain stored judged), consult, unchecked] at judged
      simp at judged

end FieldRule

/-- What has passed an examination is sound, and when it has been reloaded the examination
makes of it what it is to become, without a fault. -/
def Reloads (examine : Value → Examined Value) : Prop :=
  ∀ ⦃value edited part⦄, value.Plain → examine value = ⟨edited, .ok part⟩ → part.passed = true →
    edited.Sound ∧ ∃ again, examine edited.stored = ⟨edited.recalled, .ok again⟩ ∧
      (again.passed = true ↔ edited.timely = true)

theorem FieldRule.scalar_reloads {rule : FieldRule} (unchecked : rule.validator = none)
    (path : String) :
    Reloads fun value => ⟨rule.type.coerce value, rule.judge path (rule.type.coerce value)⟩ := by
  intro value edited part plain examined passed
  simp only [Examined.mk.injEq] at examined
  obtain ⟨rfl, judged⟩ := examined
  have sound : (rule.type.coerce value).Sound := FieldType.coerce_sound plain
  refine ⟨sound, ?_⟩
  generalize rule.type.coerce value = edited at judged sound
  rcases (rule.judge_passed_iff judged).mp passed with ⟨rfl, optional⟩ | accepted
  · have reformed : rule.type.coerce Value.null.stored = Value.null.recalled := by
      cases rule.type <;> rfl
    refine ⟨rule.absent path, by dsimp only; rw [reformed]; rfl, ?_⟩
    exact iff_of_true (rule.passed_absent path |>.mpr optional) rfl
  · have reformed : rule.type.coerce edited.stored = edited.recalled :=
      FieldType.coerce_stored sound (FieldType.admits_iff.mpr accepted.form)
    obtain ⟨typed, stored⟩ := accepted.form.plain
    obtain ⟨again, judgedAgain⟩ := rule.judge_ok unchecked typed stored path edited.recalled
    refine ⟨again, by dsimp only; rw [reformed, judgedAgain], ?_⟩
    have present : edited.recalled.isNull = false := by
      rw [edited.isNull_recalled, accepted.form.present.1]
    rw [rule.judge_passed_iff_accepts present judgedAgain]
    exact rule.accepts_recalled unchecked accepted

section Items

variable {examine : String → Value → Examined Value} {path : String}

theorem examineItems_passed_start {position : Nat} {items after : List Value}
    {outcome total : Outcome}
    (ran : examineItems examine path position items outcome = ⟨after, .ok total⟩)
    (passed : total.passed = true) : outcome.passed = true := by
  rw [(examineItems_joined ran).1, Outcome.passed_joined, Bool.and_eq_true] at passed
  exact passed.1

theorem examineItems_reloads (each : ∀ path, Reloads (examine path)) {position : Nat}
    {items after : List Value} {outcome total : Outcome} (plain : ∀ item ∈ items, item.Plain)
    (ran : examineItems examine path position items outcome = ⟨after, .ok total⟩)
    (passed : total.passed = true) :
    (∀ item ∈ after, item.Sound) ∧ ∀ start, ∃ again,
      examineItems examine path position (after.map Value.stored) start =
        ⟨after.map Value.recalled, .ok again⟩ ∧
      (again.passed = true ↔ start.passed = true ∧ ∀ item ∈ after, item.timely = true) := by
  induction items generalizing position after outcome with
  | nil =>
      simp only [examineItems, Examined.mk.injEq] at ran
      obtain ⟨rfl, _⟩ := ran
      exact ⟨by simp, fun start => ⟨start, by simp [examineItems]⟩⟩
  | cons item rest inductionHypothesis =>
      obtain ⟨first, others, part, examined, rest_ran, rfl⟩ := examineItems_cons_ok ran
      have both := examineItems_passed_start rest_ran passed
      rw [Outcome.passed_merge, Bool.and_eq_true] at both
      obtain ⟨sound, again, reload, timely⟩ := each _ (plain item (.head _)) examined both.2
      obtain ⟨sounds, reloads⟩ :=
        inductionHypothesis (fun item member => plain item (.tail _ member)) rest_ran
      refine ⟨List.forall_mem_cons.mpr ⟨sound, sounds⟩, fun start => ?_⟩
      obtain ⟨total, rest_again, timelies⟩ := reloads (start.merge "" again)
      refine ⟨total, examineItems_cons reload rest_again, ?_⟩
      rw [timelies, Outcome.passed_merge, Bool.and_eq_true, timely, List.forall_mem_cons,
        and_assoc]

theorem examineArray_reloads (each : ∀ path, Reloads (examine path)) {items : List Value}
    {edited : Value} {part : Outcome} (plain : (Value.array items).Plain)
    (examined : examineArray examine path items = ⟨edited, .ok part⟩)
    (passed : part.passed = true) :
    ∃ after, edited = .array after ∧ edited.Sound ∧ ∃ again,
      examineArray examine path (after.map Value.stored) = ⟨edited.recalled, .ok again⟩ ∧
      (again.passed = true ↔ edited.timely = true) := by
  obtain ⟨after, total, ran, rfl, rfl⟩ := examineArray_ok examined
  rw [Outcome.passed_closed] at passed
  cases plain with
  | array plain =>
      obtain ⟨sounds, reloads⟩ := examineItems_reloads each plain ran passed
      obtain ⟨again, reload, timely⟩ := reloads .empty
      refine ⟨after, rfl, .array sounds, again.closed path, ?_, ?_⟩
      · rw [Value.recalled_array]
        exact examineArray_eq reload
      · rw [Outcome.passed_closed, timely, Value.timely_array, List.all_eq_true]
        simp

end Items

/-- What there is to prove of a schema: a body that has passed is sound, and passes again,
as far as its instants are timely, when it has been reloaded. -/
def Schema.Reloads (schema : Schema) : Prop :=
  ∀ ⦃before body : Members⦄ ⦃outcome : Outcome⦄, (Value.object before).Plain →
    schema.validate before = ⟨body, .ok outcome⟩ → outcome.passed = true →
      (Value.object body).Sound ∧ ∃ again,
        schema.validate (Keyed.mapValues Value.stored body) =
          ⟨Keyed.mapValues Value.recalled body, .ok again⟩ ∧
        (again.passed = true ↔ (Value.object body).timely = true)

theorem examineDocument_reloads {inner : Schema} (nested : inner.Reloads) (path : String) :
    Reloads (examineDocument inner.validate path) := by
  intro value edited part plain examined passed
  rcases examineDocument_ok examined with
    ⟨before, body, outcome, rfl, validated, rfl, rfl⟩ | ⟨_, _, rfl⟩
  · rw [Outcome.passed_closed, Outcome.passed_merge, Outcome.passed_empty, Bool.true_and] at passed
    obtain ⟨sound, again, reload, timely⟩ := nested plain validated passed
    refine ⟨sound, (Outcome.empty.merge s!"{path}." again).closed path, ?_, ?_⟩
    · rw [Value.stored_object sound.ordered, Value.recalled_object]
      exact examineDocument_object reload
    · rw [Outcome.passed_closed, Outcome.passed_merge, Outcome.passed_empty, Bool.true_and, timely]
  · simp at passed

namespace FieldRule

variable {rule : FieldRule}

theorem examineNested_reloads {inner : Schema} (nested : inner.Reloads) :
    Reloads (rule.examineNested inner.validate) := by
  intro value edited part plain examined passed
  rcases examineNested_ok examined with
    ⟨array, items, rfl, found⟩ | ⟨single, other, found⟩ | ⟨_, _, message, rfl⟩
  · obtain ⟨after, rfl, sound, again, reload, timely⟩ :=
      examineArray_reloads (examineDocument_reloads nested) plain found passed
    refine ⟨sound, again, ?_, timely⟩
    rw [Value.stored_array, examineNested_array array, reload]
  · obtain ⟨sound, again, reload, timely⟩ :=
      examineDocument_reloads nested rule.name plain found passed
    refine ⟨sound, again, ?_, timely⟩
    have still : edited.stored.items? = none := by
      rcases examineDocument_ok found with ⟨_, _, _, _, _, rfl, _⟩ | ⟨_, _, rfl⟩
      · rw [Value.stored_object sound.ordered]
        rfl
      · simp at passed
    rw [examineNested_single single still, reload]
  · simp at passed

theorem examinePlain_reloads (unchecked : rule.validator = none) : Reloads rule.examinePlain := by
  intro value edited part plain examined passed
  rcases examinePlain_ok examined with
    ⟨array, items, rfl, found⟩ | ⟨_, _, _, rfl⟩ | ⟨single, rfl, judged⟩
  · obtain ⟨after, rfl, sound, again, reload, timely⟩ :=
      examineArray_reloads (rule.scalar_reloads unchecked) plain (examineArray_map.mp found) passed
    refine ⟨sound, again, ?_, timely⟩
    rw [Value.stored_array, examinePlain_array array]
    exact examineArray_map.mpr reload
  · simp at passed
  · obtain ⟨sound, again, reload, timely⟩ :=
      rule.scalar_reloads unchecked rule.name plain (by dsimp only; rw [judged]) passed
    refine ⟨sound, again, ?_, timely⟩
    rw [examinePlain_single single]
    exact reload

theorem defaulted_eq_some {held : Option Value} {value : Value}
    (examined : rule.defaulted held = some value) : value ∈ rule.default ∨ value ∈ held := by
  rw [defaulted] at examined
  split at examined
  · rcases Option.or_eq_some_iff.mp examined with declared | ⟨_, found⟩
    · exact .inl declared
    · exact .inr found
  · exact .inr examined

/-- The default is not asked for again: a value that is absent has stayed so. -/
theorem settleBy_reloads {examine : Value → Examined Value} (reloads : Reloads examine)
    (stays : ∀ value, (examine value).edited.isNull = value.isNull)
    {before held : Option Value} {part : Outcome} (plain : ∀ value ∈ before, value.Plain)
    (default : ∀ value ∈ rule.default, value.Plain)
    (settled : rule.settleBy examine before = ⟨held, .ok part⟩) (passed : part.passed = true) :
    (∀ value ∈ held, value.Sound) ∧ ∃ again,
      rule.settleBy examine (held.map Value.stored) = ⟨held.map Value.recalled, .ok again⟩ ∧
      (again.passed = true ↔ ∀ value ∈ held, value.timely = true) := by
  rcases settleBy_ok settled with
    ⟨examined, absent, rfl⟩ | ⟨value, edited, examined, present, found, rfl⟩
  · have unchanged : held.map Value.stored = held ∧ held.map Value.recalled = held ∧
        (∀ value ∈ held, value.Sound) ∧ ∀ value ∈ held, value.timely = true := by
      cases held with
      | none => simp
      | some value =>
          cases value with
          | null =>
              exact ⟨rfl, rfl, by rintro _ ⟨⟩; exact .null, by rintro _ ⟨⟩; rfl⟩
          | _ => simp [Value.isAbsent, Value.isNull] at absent
    obtain ⟨stored, recalled, sound, timely⟩ := unchanged
    refine ⟨sound, rule.absent rule.name, ?_, iff_of_true passed timely⟩
    rw [stored, recalled]
    subst examined
    exact settleBy_of_absent (rule.defaulted_defaulted before) absent
  · have plainValue : value.Plain := by
      rcases defaulted_eq_some examined with declared | found
      · exact default value declared
      · exact plain value found
    obtain ⟨sound, again, reload, timely⟩ := reloads plainValue found passed
    have still : edited.stored.isNull = false := by
      have kept := stays value
      rw [found] at kept
      rw [sound.isNull_stored, kept, present]
    refine ⟨by rintro _ ⟨⟩; exact sound, again, ?_, by simpa using timely⟩
    rw [Option.map_some, settleBy_of_value (defaulted_of_value still) still, reload]
    rfl

end FieldRule

def Field.Reloads (field : Field) : Prop :=
  ∀ ⦃before held part⦄, (∀ value ∈ before, value.Plain) → field.settle before = ⟨held, .ok part⟩ →
    part.passed = true → (∀ value ∈ held, value.Sound) ∧ ∃ again,
      field.settle (held.map Value.stored) = ⟨held.map Value.recalled, .ok again⟩ ∧
      (again.passed = true ↔ ∀ value ∈ held, value.timely = true)

theorem Field.reloads {field : Field} (unchecked : field.validator = none)
    (default : ∀ value ∈ field.default, value.Plain)
    (inner : ∀ inner, field.schema = some inner → inner.Reloads) : field.Reloads := by
  intro before held part plain settled passed
  rcases FieldRule.settle_ok settled with
    ⟨validate, type, declared, settled⟩ | ⟨type, stored, settled⟩
  · obtain ⟨schema, declaredSchema, rfl⟩ := Option.map_eq_some_iff.mp declared
    obtain ⟨sound, again, reload, timely⟩ := FieldRule.settleBy_reloads
      (FieldRule.examineNested_reloads (inner schema declaredSchema))
      field.isNull_edited_examineNested plain default settled passed
    refine ⟨sound, again, ?_, timely⟩
    rw [Field.settle, declared, FieldRule.settle_nested type, reload]
  · obtain ⟨sound, again, reload, timely⟩ := FieldRule.settleBy_reloads
      (FieldRule.examinePlain_reloads unchecked) field.isNull_edited_examinePlain plain default
      settled passed
    refine ⟨sound, again, ?_, timely⟩
    rw [Field.settle, FieldRule.settle_plain type stored, reload]

theorem stored_or_other (fields : List Field) (key : String) :
    (∃ field ∈ storedFields fields, field.name = key) ∨
      ∀ field ∈ storedFields fields, field.name ≠ key := by
  by_cases declared : ∃ field ∈ storedFields fields, field.name = key
  · exact .inl declared
  · exact .inr fun field member same => declared ⟨field, member, same⟩

section Fields

variable {fields : List Field} {before body : Members} {outcome total : Outcome}

/-- What a run that has passed has done: the value of each field can be reloaded, and all
other members are as they were. -/
theorem validateFields_passed (names : (fields.map fun field => field.name).Nodup)
    (each : ∀ field ∈ storedFields fields, field.Reloads) (plain : (Value.object before).Plain)
    (ran : validateFields fields before outcome = ⟨body, .ok total⟩)
    (passed : total.passed = true) :
    (∀ field ∈ storedFields fields,
      (∀ value ∈ Keyed.get? body field.name, value.Sound) ∧ ∃ again,
        field.settle ((Keyed.get? body field.name).map Value.stored) =
          ⟨(Keyed.get? body field.name).map Value.recalled, .ok again⟩ ∧
        (again.passed = true ↔ ∀ value ∈ Keyed.get? body field.name, value.timely = true)) ∧
    ∀ {key value}, (∀ field ∈ storedFields fields, field.name ≠ key) →
      Keyed.get? body key = some value → value.Plain := by
  obtain ⟨settled, rfl, unread⟩ := validateFields_parts names ran
  have parts := (passed_outcomeOfFields.mp passed).2
  constructor
  · intro field member
    exact each field member (fun value found => plain.of_get? found) (settled field member)
      (parts field member)
  · intro key value other found
    exact plain.of_get? (unread key other ▸ found)

theorem validateFields_sound (names : (fields.map fun field => field.name).Nodup)
    (each : ∀ field ∈ storedFields fields, field.Reloads) (plain : (Value.object before).Plain)
    (ran : validateFields fields before outcome = ⟨body, .ok total⟩)
    (passed : total.passed = true) : (Value.object body).Sound := by
  obtain ⟨reloads, others⟩ := validateFields_passed names each plain ran passed
  have ordered : Keyed.Ordered (validateFields fields before outcome).edited :=
    validateFields_ordered plain.ordered
  rw [ran] at ordered
  refine Value.Sound.object_of_get? ordered fun key value found => ?_
  rcases stored_or_other fields key with ⟨field, member, rfl⟩ | other
  · exact (reloads field member).1 value found
  · exact (others other found).sound

/-- A run over what has been stored of a body that has passed.  The members that are
`shown` are those that have been stored; these come back, and pass if they are timely. -/
theorem validateFields_reload (names : (fields.map fun field => field.name).Nodup)
    (each : ∀ field ∈ storedFields fields, field.Reloads) (plain : (Value.object before).Plain)
    (ran : validateFields fields before outcome = ⟨body, .ok total⟩)
    (passed : total.passed = true) {start : Members} (shown : String → Bool)
    (ordered : Keyed.Ordered start)
    (fields_shown : ∀ field ∈ storedFields fields, shown field.name = true)
    (found : ∀ key, shown key = true →
      Keyed.get? start key = (Keyed.get? body key).map Value.stored) :
    ∃ after again, validateFields fields start .empty = ⟨after, .ok again⟩ ∧
      Keyed.Ordered after ∧
      (∀ key, shown key = true →
        Keyed.get? after key = (Keyed.get? body key).map Value.recalled) ∧
      (again.passed = true ↔ ∀ key value, shown key = true →
        Keyed.get? body key = some value → value.timely = true) := by
  obtain ⟨reloads, others⟩ := validateFields_passed names each plain ran passed
  have examined : ∀ field ∈ storedFields fields, ∃ value part,
      field.settle (Keyed.get? start field.name) = ⟨value, .ok part⟩ := by
    intro field member
    obtain ⟨_, again, reload, _⟩ := reloads field member
    rw [found field.name (fields_shown field member)]
    exact ⟨_, again, reload⟩
  obtain ⟨after, again, ran_again⟩ := validateFields_exists names examined .empty
  obtain ⟨settled, rfl, frame⟩ := validateFields_parts names ran_again
  have after_ordered : Keyed.Ordered (validateFields fields start .empty).edited :=
    validateFields_ordered ordered
  rw [ran_again] at after_ordered
  have passes : ∀ field ∈ storedFields fields, (field.outcomeIn start).passed = true ↔
      ∀ value ∈ Keyed.get? body field.name, value.timely = true := by
    intro field member
    obtain ⟨_, again, reload, timely⟩ := reloads field member
    rw [Field.outcomeIn, found field.name (fields_shown field member), reload, ← timely]
    rfl
  refine ⟨after, _, ran_again, after_ordered, fun key key_shown => ?_, ?_⟩
  · rcases stored_or_other fields key with ⟨field, member, rfl⟩ | other
    · obtain ⟨_, again, reload, _⟩ := reloads field member
      have here := settled field member
      rw [found field.name key_shown, reload] at here
      simpa using congrArg Examined.edited here.symm
    · rw [frame key other, found key key_shown]
      exact Option.map_congr fun value held => (others other held).stored_eq
  · rw [passed_outcomeOfFields]
    simp only [Outcome.passed_empty, true_and]
    constructor
    · intro every key value _ held
      rcases stored_or_other fields key with ⟨field, member, rfl⟩ | other
      · exact (passes field member).mp (every field member) value held
      · exact (others other held).timely
    · exact fun every field member => (passes field member).mpr fun value held =>
        every field.name value (fields_shown field member) held

end Fields

/-- A schema that runs no code of its own: there are no validators, defaults are as they
are in JSON, and names tell fields apart. -/
inductive Schema.Inert : Schema → Prop
  | intro {schema : Schema} (names : (schema.fields.map fun field => field.name).Nodup)
      (unchecked : ∀ field ∈ schema.fields, field.validator = none)
      (defaults : ∀ field ∈ schema.fields, ∀ value ∈ field.default, value.Plain)
      (inner : ∀ field ∈ schema.fields, ∀ inner, field.schema = some inner → inner.Inert) :
      schema.Inert

namespace Schema

variable {schema : Schema}

theorem Inert.names (inert : schema.Inert) :
    (schema.fields.map fun field => field.name).Nodup := by
  cases inert with
  | intro names _ _ _ => exact names

theorem Inert.reloads_field (inert : schema.Inert)
    (inner : ∀ field ∈ schema.fields, ∀ inner, field.schema = some inner → inner.Reloads) :
    ∀ field ∈ storedFields schema.fields, field.Reloads := by
  intro field member
  have declared := (mem_storedFields.mp member).1
  cases inert with
  | intro _ unchecked defaults _ =>
      exact Field.reloads (unchecked field declared) (defaults field declared)
        (inner field declared)

theorem Inert.reloads (inert : schema.Inert) : schema.Reloads := by
  induction inert with
  | @intro schema names unchecked defaults inner inductionHypothesis =>
      have each := reloads_field (.intro names unchecked defaults inner) inductionHypothesis
      intro before body outcome plain validated passed
      rw [Schema.validate_eq] at validated
      have sound := validateFields_sound names each plain validated passed
      have ordered := sound.ordered
      obtain ⟨after, again, ran, after_ordered, found, timely⟩ :=
        validateFields_reload names each plain validated passed (fun _ => true)
          (Keyed.ordered_mapValues Value.stored ordered) (fun _ _ => rfl)
          fun key _ => Keyed.get?_mapValues Value.stored body key
      have whole : after = Keyed.mapValues Value.recalled body := by
        refine Keyed.eq_of_get? after_ordered (Keyed.ordered_mapValues _ ordered) fun key => ?_
        rw [found key rfl, Keyed.get?_mapValues]
      refine ⟨sound, again, by rw [Schema.validate_eq, ran, whole], ?_⟩
      rw [timely, Value.timely_object_iff ordered]
      exact forall₂_congr fun key value => forall_prop_of_true rfl

theorem Inert.fields_reload (inert : schema.Inert) :
    ∀ field ∈ storedFields schema.fields, field.Reloads := by
  have nested := inert
  cases nested with
  | intro _ _ _ inner =>
      exact inert.reloads_field fun field member inner_schema declared =>
        (inner field member inner_schema declared).reloads

end Schema

end Schemata
