import Schemata.Proofs.Validation.Conformance
import Schemata.Proofs.Validation.Location
import Schemata.Proofs.Validation.Shape
import Schemata.Proofs.Value.Stored
namespace Schemata

/-! Values in which every number can be compared.

A NaN is in no relation to any number.  JSON cannot write one and no type asks for one, so a
validation finds none in what it leaves unless the body had one before
(`Schema.comparable_of_validate`). -/

namespace Value

/-- No number that is found in the value is a NaN. -/
def Comparable (value : Value) : Prop :=
  ∀ location, Location.find? location value ≠ some (.number .nan)

variable {value : Value} {items : List Value} {members : Members}

theorem comparable_of_single (single : value.items? = none) (other : value.members? = none)
    (number : value ≠ .number .nan) : value.Comparable := by
  intro location
  cases location with
  | nil => simpa using number
  | cons step rest =>
      cases value with
      | array items => simp [items?] at single
      | object members => simp [members?] at other
      | _ => cases step <;> simp [Location.find?]

theorem comparable_array_iff :
    (Value.array items).Comparable ↔ ∀ item ∈ items, item.Comparable := by
  constructor
  · intro comparable item member location found
    obtain ⟨index, inside⟩ := List.getElem?_of_mem member
    exact comparable (.item index :: location) (by rw [Location.find?, inside]; exact found)
  · intro each location found
    cases location with
    | nil => simp at found
    | cons step rest =>
        cases step with
        | member name => simp [Location.find?] at found
        | item index =>
            obtain ⟨item, inside, found⟩ := Option.bind_eq_some_iff.mp found
            exact each item (List.mem_of_getElem? inside) rest found

theorem comparable_object_iff :
    (Value.object members).Comparable ↔
      ∀ key value, Keyed.get? members key = some value → value.Comparable := by
  constructor
  · intro comparable key value held location found
    exact comparable (.member key :: location) (by rw [Location.find?, held]; exact found)
  · intro each location found
    cases location with
    | nil => simp at found
    | cons step rest =>
        cases step with
        | item index => simp [Location.find?] at found
        | member name =>
            obtain ⟨value, held, found⟩ := Option.bind_eq_some_iff.mp found
            exact each name value held rest found

theorem Plain.comparable (plain : value.Plain) : value.Comparable := by
  induction plain with
  | array _ inductionHypothesis => exact comparable_array_iff.mpr inductionHypothesis
  | object _ _ inductionHypothesis =>
      exact comparable_object_iff.mpr fun key value held =>
        inductionHypothesis _ (Keyed.mem_of_get? held)
  | _ => exact comparable_of_single rfl rfl (by simp)

theorem comparable_write {key : String} {held : Option Value}
    (comparable : (Value.object members).Comparable) (each : ∀ value ∈ held, value.Comparable) :
    (Value.object (Keyed.write members key held)).Comparable := by
  cases held with
  | none => exact comparable
  | some value =>
      refine comparable_object_iff.mpr fun name other found => ?_
      by_cases same : key = name
      · rw [← same, Keyed.get?_write_self (by simp), Option.some.injEq] at found
        exact found ▸ each value rfl
      · rw [Keyed.get?_write_of_ne _ _ same] at found
        exact comparable_object_iff.mp comparable name other found

end Value

/-- No default in the schema, or in those that it refers to, has a NaN in it. -/
inductive Schema.DefaultsComparable : Schema → Prop
  | intro {schema : Schema}
      (defaults : ∀ field ∈ schema.fields, ∀ value ∈ field.default, value.Comparable)
      (inner : ∀ field ∈ schema.fields, ∀ inner, field.schema = some inner →
        inner.DefaultsComparable) : schema.DefaultsComparable

theorem FieldType.comparable_coerce {type : FieldType} {value : Value}
    (comparable : value.Comparable) : (type.coerce value).Comparable := by
  rcases coerce_eq_or_admits type value with same | ⟨_, admitted⟩
  · rwa [same]
  · -- The forms of all other types hold no number at all.
    cases number : type with
    | number => cases value <;> exact comparable
    | _ =>
        have form := admits_iff.mp admitted
        obtain ⟨_, single, other⟩ := form.present
        rw [number] at single other form
        refine Value.comparable_of_single single other fun same => ?_
        rw [same] at form
        cases form

namespace Slot

variable {slot : Slot} {nested : Members → Members} {value : Value}

theorem comparable_item
    (inner : ∀ members, (Value.object members).Comparable →
      (Value.object (nested members)).Comparable)
    (comparable : value.Comparable) : (slot.item nested value).Comparable := by
  by_cases type : slot.type = .subschema
  · cases value with
    | object members =>
        rw [item_object type]
        exact inner members comparable
    | _ =>
        rw [item_of_members? rfl]
        exact FieldType.comparable_coerce comparable
  · rw [item_of_plain type]
    exact FieldType.comparable_coerce comparable

theorem comparable_value
    (inner : ∀ members, (Value.object members).Comparable →
      (Value.object (nested members)).Comparable)
    (comparable : value.Comparable) : (slot.value nested value).Comparable := by
  cases declared : slot.isArray with
  | false =>
      rw [value_of_single declared]
      exact comparable_item inner comparable
  | true =>
      cases value with
      | array items =>
          rw [value_array declared, Value.comparable_array_iff, List.forall_mem_map]
          exact fun item member =>
            comparable_item inner (Value.comparable_array_iff.mp comparable item member)
      | _ => rwa [value_of_mismatch declared rfl]

theorem comparable_held {held : Option Value}
    (inner : ∀ members, (Value.object members).Comparable →
      (Value.object (nested members)).Comparable)
    (default : ∀ value ∈ slot.default, value.Comparable)
    (each : ∀ value ∈ held, value.Comparable) :
    ∀ value ∈ slot.held nested held, value.Comparable := by
  intro value found
  obtain ⟨given, chosen, rfl⟩ := Option.map_eq_some_iff.mp found
  refine comparable_value inner ?_
  split at chosen
  · rcases Option.or_eq_some_iff.mp chosen with filled | ⟨_, kept⟩
    · exact default given filled
    · exact each given kept
  · exact each given chosen

end Slot

namespace Schema

variable {schema : Schema} {body after : Members} {outcome : Outcome}

theorem comparable_normalize (defaults : schema.DefaultsComparable)
    (comparable : (Value.object body).Comparable) :
    (Value.object (schema.shape.normalize body)).Comparable := by
  induction defaults generalizing body with
  | @intro schema defaults _ inductionHypothesis =>
      rw [Shape.normalize_eq, shape_fields, List.foldl_map]
      refine List.foldlRecOn (motive := fun body => (Value.object body).Comparable) _ _
        comparable fun body before field member => ?_
      rw [Field.normalize_fieldShape]
      split
      · refine Value.comparable_write before ?_
        rw [FieldShape.normalized, Field.fieldShape_toSlot, Field.fieldShape_shape]
        refine Slot.comparable_held (fun members inside => ?_) (defaults field member)
          fun value held => Value.comparable_object_iff.mp before field.name value held
        cases nested : field.schema with
        | none => exact inside
        | some inner => exact inductionHypothesis field member inner nested inside
      · exact before

/-- A validation puts no NaN into a body. -/
theorem comparable_of_validate (defaults : schema.DefaultsComparable)
    (validated : schema.validate body = ⟨after, .ok outcome⟩)
    (comparable : (Value.object body).Comparable) : (Value.object after).Comparable := by
  rw [validate_normalizes validated]
  exact comparable_normalize defaults comparable

end Schema

end Schemata
