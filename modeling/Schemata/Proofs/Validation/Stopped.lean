import Schemata.Proofs.Collect
import Schemata.Proofs.Validation.Location
import Schemata.Proofs.Validation.Shape
namespace Schemata

/-! What an examination that was cut short has done, one lemma for each way to examine.

The fault is that of one part, which the examination has left as that part was left; what comes
before the part has been examined without a fault.  Where the part is in a value is said by the
steps to it, and where in a body by the field that was visited (`Visits`). -/

/-- The steps from what is under the name of a field to one value of it. -/
inductive FieldRule.Spot (rule : FieldRule) : Location → Prop
  | single (single : rule.isArray = false) : Spot rule []
  | item (array : rule.isArray = true) (index : Nat) : Spot rule [.item index]

/-- What is absent has nothing but a null in it. -/
theorem FieldRule.Spot.eq_null {rule : FieldRule} {spot : Location} {held : Option Value}
    {item : Value} (spotted : rule.Spot spot) (absent : Value.isAbsent held = true)
    (found : held.bind spot.find? = some item) : item = .null := by
  obtain ⟨value, rfl, found⟩ := Option.bind_eq_some_iff.mp found
  cases value with
  | null =>
      cases spotted with
      | single => exact (Option.some.inj found).symm
      | item => simp [Location.find?] at found
  | _ => simp [Value.isAbsent, Value.isNull] at absent

/-- Fields are visited up to one, and those before it have been edited. -/
inductive Visits : List Field → Members → Field → Members → Prop
  | here {field : Field} {rest : List Field} {body : Members}
      (persisted : field.isPersisted = true) : Visits (field :: rest) body field body
  | later {first field : Field} {rest : List Field} {body middle : Members}
      (visits : Visits rest (first.fieldShape.normalize body) field middle) :
      Visits (first :: rest) body field middle

section Examinations

variable {examine : String → Value → Examined Value} {validate : Members → Examined Members}
  {path : String} {position : Nat} {items after : List Value} {value edited : Value}
  {outcome : Outcome} {fault : ValidationFault}

theorem examineItems_stopped
    (stopped : examineItems examine path position items outcome = ⟨after, .error fault⟩) :
    ∃ index item edited, items[index]? = some item ∧
      examine (itemPath path (position + index)) item = ⟨edited, .error fault⟩ ∧
      after[index]? = some edited := by
  induction items generalizing position outcome after with
  | nil => simp [examineItems] at stopped
  | cons item rest inductionHypothesis =>
      cases examined : examine (itemPath path position) item with
      | mk first verdict =>
          cases verdict with
          | error other =>
              simp only [examineItems, examined, Examined.mk.injEq] at stopped
              obtain ⟨rfl, same⟩ := stopped
              exact ⟨0, item, first, rfl, same ▸ examined, rfl⟩
          | ok part =>
              simp only [examineItems, examined] at stopped
              obtain ⟨others, ran, rfl⟩ := Examined.map_eq_mk stopped
              obtain ⟨index, later, edited, found, faulted, left⟩ := inductionHypothesis ran
              rw [Nat.add_right_comm] at faulted
              exact ⟨index + 1, later, edited, found, faulted, left⟩

theorem examineDocument_stopped
    (stopped : examineDocument validate path value = ⟨edited, .error fault⟩) :
    ∃ members inside, value = .object members ∧ validate members = ⟨inside, .error fault⟩ ∧
      edited = .object inside := by
  cases value with
  | object members =>
      obtain ⟨rfl, failed⟩ := Examined.mk.inj stopped
      exact ⟨members, _, rfl, Examined.eq_of_verdict (error_of_map failed), rfl⟩
  | _ => simp [examineDocument] at stopped

theorem examineArray_stopped (stopped : examineArray examine path items = ⟨edited, .error fault⟩) :
    ∃ index item after, items[index]? = some item ∧
      examine (path ++ Location.suffix [.item index]) item = ⟨after, .error fault⟩ ∧
      Location.find? [.item index] edited = some after := by
  obtain ⟨rfl, failed⟩ := Examined.mk.inj stopped
  obtain ⟨index, item, after, found, faulted, left⟩ :=
    examineItems_stopped (Examined.eq_of_verdict (error_of_map failed))
  rw [Nat.zero_add, Location.itemPath_eq] at faulted
  exact ⟨index, item, after, found, faulted, by rw [Location.find?_item, left]⟩

end Examinations

namespace FieldRule

variable {rule : FieldRule} {validate : Members → Examined Members} {value edited : Value}
  {held after : Option Value} {fault : ValidationFault}

theorem examineNested_stopped
    (stopped : rule.examineNested validate value = ⟨edited, .error fault⟩) :
    ∃ spot members inside, rule.Spot spot ∧ spot.find? value = some (.object members) ∧
      validate members = ⟨inside, .error fault⟩ ∧ spot.find? edited = some (.object inside) := by
  rw [examineNested.eq_def] at stopped
  split at stopped
  · rename_i items
    cases array : rule.isArray with
    | false => simp [array] at stopped
    | true =>
        rw [array, if_pos rfl] at stopped
        obtain ⟨index, item, after, found, faulted, left⟩ := examineArray_stopped stopped
        obtain ⟨members, inside, rfl, validated, rfl⟩ := examineDocument_stopped faulted
        exact ⟨[.item index], members, inside, .item array index, by simpa using found, validated,
          left⟩
  · cases array : rule.isArray with
    | true => simp [array] at stopped
    | false =>
        rw [array, if_neg Bool.false_ne_true] at stopped
        obtain ⟨members, inside, rfl, validated, rfl⟩ := examineDocument_stopped stopped
        exact ⟨[], members, inside, .single array, rfl, validated, rfl⟩

theorem examinePlain_stopped (stopped : rule.examinePlain value = ⟨edited, .error fault⟩) :
    ∃ spot item, rule.Spot spot ∧ spot.find? edited = some item ∧
      rule.judge (rule.name ++ spot.suffix) item = .error fault := by
  cases array : rule.isArray with
  | false =>
      rw [examinePlain_single array, Examined.mk.injEq] at stopped
      obtain ⟨rfl, failed⟩ := stopped
      exact ⟨[], _, .single array, rfl, by rwa [Location.suffix, String.append_empty]⟩
  | true =>
      cases value with
      | array items =>
          rw [examinePlain_array array] at stopped
          obtain ⟨index, item, after, _, faulted, left⟩ := examineArray_stopped stopped
          obtain ⟨rfl, failed⟩ := Examined.mk.inj faulted
          exact ⟨[.item index], item, .item array index, left, failed⟩
      | _ => simp [examinePlain, array] at stopped

theorem settleBy_stopped {examine : Value → Examined Value}
    (stopped : rule.settleBy examine held = ⟨after, .error fault⟩) :
    ∃ value edited, rule.defaulted held = some value ∧ value.isNull = false ∧
      examine value = ⟨edited, .error fault⟩ ∧ after = some edited := by
  cases absent : Value.isAbsent (rule.defaulted held) with
  | true => simp [settleBy_of_absent rfl absent] at stopped
  | false =>
      cases examined : rule.defaulted held with
      | none => simp [examined, Value.isAbsent] at absent
      | some value =>
          have present : value.isNull = false := by
            simpa [examined, Value.isAbsent] using absent
          rw [settleBy_of_value examined present] at stopped
          obtain ⟨edited, found, rfl⟩ := Examined.map_eq_mk stopped
          exact ⟨value, edited, rfl, present, found, rfl⟩

end FieldRule

namespace Field

variable {field : Field} {inner : Schema} {held after : Option Value} {part : Outcome}
  {fault : ValidationFault}

theorem settle_nested_stopped (type : field.type = .subschema) (nested : field.schema = some inner)
    (stopped : field.settle held = ⟨after, .error fault⟩) :
    ∃ spot members inside, field.Spot spot ∧
      (field.defaulted held).bind spot.find? = some (.object members) ∧
      inner.validate members = ⟨inside, .error fault⟩ ∧
      after.bind spot.find? = some (.object inside) := by
  rw [settle, nested, Option.map_some, FieldRule.settle_nested type] at stopped
  obtain ⟨value, edited, defaulted, _, examined, rfl⟩ := FieldRule.settleBy_stopped stopped
  obtain ⟨spot, members, inside, spotted, found, validated, left⟩ :=
    FieldRule.examineNested_stopped examined
  exact ⟨spot, members, inside, spotted, by rwa [defaulted], validated, left⟩

theorem settle_plain_stopped (plain : field.type ≠ .subschema) (stored : field.isPersisted = true)
    (stopped : field.settle held = ⟨after, .error fault⟩) :
    ∃ spot item, field.Spot spot ∧ after.bind spot.find? = some item ∧
      field.judge (field.name ++ spot.suffix) item = .error fault := by
  rw [settle, FieldRule.settle_plain plain (of_decide_eq_true stored)] at stopped
  obtain ⟨value, edited, _, _, examined, rfl⟩ := FieldRule.settleBy_stopped stopped
  exact FieldRule.examinePlain_stopped examined

/-- A field that is visited without a fault normalizes the body. -/
theorem eq_normalize {body middle : Members} (stored : field.isPersisted = true)
    (validated : field.validate body = ⟨middle, .ok part⟩) :
    middle = field.fieldShape.normalize body := by
  rw [Field.validate_eq_settle] at validated
  obtain ⟨value, settled, rfl⟩ := Examined.map_eq_mk validated
  rw [Field.normalize_fieldShape, stored, if_pos rfl,
    Field.settle_eq_normalized (fun _ _ _ _ _ => Schema.validate_normalizes) settled]

end Field

section Visits

variable {fields : List Field} {body middle edited : Members} {field : Field} {outcome : Outcome}
  {fault : ValidationFault}

theorem Visits.mem (visits : Visits fields body field middle) :
    field ∈ fields ∧ field.isPersisted = true := by
  induction visits with
  | here persisted => exact ⟨List.mem_cons_self, persisted⟩
  | later _ inductionHypothesis =>
      exact ⟨List.mem_cons_of_mem _ inductionHypothesis.1, inductionHypothesis.2⟩

theorem validateFields_stopped
    (stopped : validateFields fields body outcome = ⟨edited, .error fault⟩) :
    ∃ field middle, Visits fields body field middle ∧
      field.settle (Keyed.get? middle field.name) =
        ⟨Keyed.get? edited field.name, .error fault⟩ := by
  induction fields generalizing body outcome with
  | nil => simp [validateFields] at stopped
  | cons field rest inductionHypothesis =>
      rw [validateFields] at stopped
      cases persisted : field.isPersisted with
      | false =>
          rw [persisted, if_neg Bool.false_ne_true] at stopped
          obtain ⟨later, middle, visits, settled⟩ := inductionHypothesis stopped
          refine ⟨later, middle, .later ?_, settled⟩
          rwa [Field.normalize_fieldShape, persisted, if_neg Bool.false_ne_true]
      | true =>
          rw [persisted, if_pos rfl] at stopped
          cases first : field.validate body with
          | mk middle verdict =>
              rw [first] at stopped
              cases verdict with
              | ok part =>
                  obtain ⟨later, last, visits, settled⟩ := inductionHypothesis stopped
                  exact ⟨later, last, .later (Field.eq_normalize persisted first ▸ visits), settled⟩
              | error other =>
                  obtain ⟨rfl, failed⟩ := Examined.mk.inj stopped
                  rw [Field.validate_eq_settle] at first
                  obtain ⟨value, settled, rfl⟩ := Examined.map_eq_mk first
                  have kept : value = none → Keyed.get? body field.name = none :=
                    fun none => Field.settle_eq_none (by rw [settled, none])
                  refine ⟨field, body, .here persisted, ?_⟩
                  rw [settled, Keyed.get?_write_self kept, failed]

end Visits

end Schemata
