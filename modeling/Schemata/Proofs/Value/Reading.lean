import Schemata.Keyed.Ordered
import Schemata.Value.Json
namespace Schemata

/-! What JSON stands for.

`Value.Reads` says of a value that it is what JSON states, part by part: whole numerals and
those with a fraction are numbers, the items of an array stand in their order, and the members
of an object under their keys, whatever their order; under a key that is given twice the last
counts.  There is exactly one such value, and `Value.ofJson` makes it (`Value.reads_iff`). -/

namespace Value

inductive Reads : Json → Value → Prop
  | null : Reads .null .null
  | bool (value : Bool) : Reads (.bool value) (.bool value)
  | int (value : Int) : Reads (.number (.int value)) (.number (.ofInt value))
  | float (value : Finite) : Reads (.number (.float value)) (.number (.finite value))
  | text (value : String) : Reads (.text value) (.text value)
  | array {items : List Json} {values : List Value} (size : values.length = items.length)
      (each : ∀ (position : Nat) item value, items[position]? = some item →
        values[position]? = some value → Reads item value) :
      Reads (.array items) (.array values)
  | object {members : Keyed Json} {values : Members} (ordered : Keyed.Ordered values)
      (keys : ∀ key, key ∈ Keyed.keys values ↔ key ∈ Keyed.keys members)
      (each : ∀ key json value, Keyed.get? members.reverse key = some json →
        Keyed.get? values key = some value → Reads json value) :
      Reads (.object members) (.object values)

theorem itemsOfJson_eq (items : List Json) : itemsOfJson items = items.map ofJson := by
  induction items with
  | nil => rfl
  | cons item rest inductionHypothesis => rw [itemsOfJson, inductionHypothesis, List.map_cons]

theorem membersOfJson_eq (members : Keyed Json) :
    membersOfJson members = Keyed.mapValues ofJson members := by
  induction members with
  | nil => rfl
  | cons entry rest inductionHypothesis =>
      rw [membersOfJson, inductionHypothesis, Keyed.mapValues, Keyed.mapValues, List.map_cons]

theorem get?_membersOfJson (members : Keyed Json) (key : String) :
    Keyed.get? (Keyed.ofList (membersOfJson members)) key =
      (Keyed.get? members.reverse key).map ofJson := by
  rw [Keyed.get?_ofList_eq, membersOfJson_eq, Keyed.mapValues, ← List.map_reverse]
  exact Keyed.get?_mapValues ofJson members.reverse key

theorem reads_array {items : List Json} (each : ∀ item ∈ items, Reads item (ofJson item)) :
    Reads (.array items) (ofJson (.array items)) := by
  rw [ofJson, itemsOfJson_eq]
  refine .array (List.length_map _) fun position item value there found => ?_
  rw [List.getElem?_map, there, Option.map_some, Option.some.injEq] at found
  exact found ▸ each item (List.mem_of_getElem? there)

theorem reads_object {members : Keyed Json}
    (each : ∀ entry ∈ members, Reads entry.2 (ofJson entry.2)) :
    Reads (.object members) (ofJson (.object members)) := by
  rw [ofJson]
  refine .object (Keyed.ordered_ofList _) (fun key => ?_) fun key json value stated found => ?_
  · rw [Keyed.mem_keys_iff, Keyed.contains, get?_membersOfJson, Option.isSome_map,
      ← Keyed.contains, Keyed.contains_reverse, Keyed.mem_keys_iff]
  · rw [get?_membersOfJson, stated, Option.map_some, Option.some.injEq] at found
    exact found ▸ each (key, json) (List.mem_reverse.mp (Keyed.mem_of_get? stated))

mutual

theorem reads_ofJson : (json : Json) → Reads json (ofJson json)
  | .null => .null
  | .bool value => .bool value
  | .number (.int value) => .int value
  | .number (.float value) => .float value
  | .text value => .text value
  | .array items => reads_array (reads_items items)
  | .object members => reads_object (reads_members members)

theorem reads_items : (items : List Json) → ∀ item ∈ items, Reads item (ofJson item)
  | [] => fun _ member => by simp at member
  | item :: rest => List.forall_mem_cons.mpr ⟨reads_ofJson item, reads_items rest⟩

theorem reads_members :
    (members : List (String × Json)) → ∀ entry ∈ members, Reads entry.2 (ofJson entry.2)
  | [] => fun _ member => by simp at member
  | (key, value) :: rest => List.forall_mem_cons.mpr ⟨reads_ofJson value, reads_members rest⟩

end

theorem Reads.eq_ofJson {json : Json} {value : Value} (reads : Reads json value) :
    value = ofJson json := by
  induction reads with
  | null | bool | int | float | text => rfl
  | @array items values size each inductionHypothesis =>
      rw [ofJson, itemsOfJson_eq]
      refine congrArg Value.array (List.ext_getElem (by simp [size]) fun position inside _ => ?_)
      have there : position < items.length := size ▸ inside
      rw [List.getElem_map]
      exact inductionHypothesis position _ _ (List.getElem?_eq_getElem there)
        (List.getElem?_eq_getElem inside)
  | @object members values ordered keys each inductionHypothesis =>
      rw [ofJson]
      refine congrArg Value.object
        (Keyed.eq_of_get? ordered (Keyed.ordered_ofList _) fun key => ?_)
      rw [get?_membersOfJson]
      cases stated : Keyed.get? members.reverse key with
      | none =>
          have absent : key ∉ Keyed.keys values := by
            rw [keys, Keyed.mem_keys_iff, ← Keyed.contains_reverse, Keyed.contains, stated]
            simp
          simpa [Keyed.mem_keys_iff, Keyed.contains] using absent
      | some json =>
          have present : key ∈ Keyed.keys values := by
            rw [keys, Keyed.mem_keys_iff, ← Keyed.contains_reverse, Keyed.contains, stated]
            rfl
          obtain ⟨value, found⟩ := Keyed.contains_iff.mp (Keyed.mem_keys_iff.mp present)
          rw [found, inductionHypothesis key json value stated found, Option.map_some]

/-- Reading makes the value that the JSON stands for. -/
theorem reads_iff {json : Json} {value : Value} : Reads json value ↔ value = ofJson json :=
  ⟨Reads.eq_ofJson, fun same => same ▸ reads_ofJson json⟩

theorem rel_reads_iff {json : Option Json} {value : Option Value} :
    Option.Rel Reads json value ↔ value = json.map ofJson := by
  constructor
  · rintro (reads | _)
    · exact congrArg some (reads_iff.mp reads)
    · rfl
  · rintro rfl
    cases json with
    | none => exact .none
    | some json => exact .some (reads_iff.mpr rfl)

end Value

end Schemata
