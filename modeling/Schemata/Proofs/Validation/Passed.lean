import Schemata.Proofs.Validation.Coherence
import Schemata.Proofs.Validation.Stopped
namespace Schemata

/-! What is known of a value whose path has passed.

Verdicts for one path are joined on the way up, and one that is false stays false.  So a path that
has passed is refused in no part (`Outcome.Clears`), and followed down to the field that its steps
lead to, that field has passed by itself (`Schema.holds_of_clears`).  This needs no path to stand
for one location only. -/

/-- Nothing that has been judged under the path has failed. -/
def Outcome.Clears (outcome : Outcome) (path : String) : Prop :=
  outcome.verdict? path ≠ some false

/-- The schema, or one of those that it refers to, has a field whose values are at a location. -/
inductive Schema.Declares : Schema → Location → Field → Prop
  | own {schema : Schema} {field : Field} (member : field ∈ schema.fields) :
      Schema.Declares schema [.member field.name] field
  | inside {schema inner : Schema} {field target : Field} {spot rest : Location}
      (member : field ∈ schema.fields) (type : field.type = .subschema)
      (nested : field.schema = some inner) (spotted : field.Spot spot)
      (declares : Schema.Declares inner rest target) :
      Schema.Declares schema (.member field.name :: (spot ++ rest)) target

namespace Outcome

variable {outcome part : Outcome} {path mount rest : String}

theorem Clears.of_merge (clears : (outcome.merge mount part).Clears (mount ++ rest)) :
    outcome.Clears (mount ++ rest) ∧ part.Clears rest :=
  ⟨fun refused => clears (verdict?_merge_eq_false_iff.mpr (.inl refused)),
    fun refused => clears (verdict?_merge_eq_false_iff.mpr (.inr ⟨rest, rfl, refused⟩))⟩

theorem Clears.of_merge_empty (clears : (outcome.merge "" part).Clears path) :
    outcome.Clears path ∧ part.Clears path := by
  rw [← @String.empty_append path] at clears
  simpa only [String.empty_append] using clears.of_merge

theorem Clears.of_joined {parts : List Outcome} (clears : (outcome.joined parts).Clears path) :
    outcome.Clears path ∧ ∀ part ∈ parts, part.Clears path := by
  induction parts generalizing outcome with
  | nil => exact ⟨clears, by simp⟩
  | cons part rest inductionHypothesis =>
      obtain ⟨merged, later⟩ := inductionHypothesis clears
      obtain ⟨before, own⟩ := merged.of_merge_empty
      exact ⟨before, List.forall_mem_cons.mpr ⟨own, later⟩⟩

theorem Clears.of_closed {other : String} (clears : (outcome.closed path).Clears other) :
    outcome.Clears other :=
  fun refused => clears (verdict?_note_eq_false_iff.mpr (.inl refused))

theorem Heads.passed_of_clears (heads : outcome.Heads path) (clears : outcome.Clears path) :
    outcome.passed = true := by
  rw [Clears, heads.own, ne_eq, Option.some.injEq, Bool.not_eq_false] at clears
  exact clears

end Outcome

section Examinations

variable {examine : String → Value → Examined Value} {validate : Members → Examined Members}
  {path place : String} {position index : Nat} {items after : List Value}
  {value edited item : Value} {outcome total part : Outcome} {inside : Members}

/-- Each item has been examined, and what was found of it is not refused either. -/
theorem examineItems_cleared
    (ran : examineItems examine path position items outcome = ⟨after, .ok total⟩)
    (left : after[index]? = some edited) (clears : total.Clears place) :
    ∃ given part, examine (itemPath path (position + index)) given = ⟨edited, .ok part⟩ ∧
      part.Clears place := by
  obtain ⟨rfl, lengths, each⟩ := examineItems_joined ran
  have inside : index < items.length := lengths ▸ (List.getElem?_eq_some_iff.mp left).1
  have given : items[index]? = some items[index] := List.getElem?_eq_getElem inside
  obtain ⟨_, same, examined⟩ := each index items[index] given
  obtain rfl := Option.some.inj (same.symm.trans left)
  exact ⟨_, _, examined, clears.of_joined.2 _ (mem_itemOutcomes given)⟩

theorem examineArray_cleared
    (examined : examineArray examine path items = ⟨edited, .ok total⟩)
    (left : Location.find? [.item index] edited = some item) (clears : total.Clears place) :
    ∃ given part, examine (path ++ Location.suffix [.item index]) given = ⟨item, .ok part⟩ ∧
      part.Clears place := by
  obtain ⟨others, joined, ran, rfl, rfl⟩ := examineArray_ok examined
  rw [Location.find?_item] at left
  obtain ⟨given, part, examined, cleared⟩ := examineItems_cleared ran left clears.of_closed
  rw [Nat.zero_add, Location.itemPath_eq] at examined
  exact ⟨given, part, examined, cleared⟩

theorem examineDocument_cleared
    (examined : examineDocument validate path value = ⟨.object inside, .ok part⟩)
    (clears : part.Clears (path ++ "." ++ place)) :
    ∃ members outcome, validate members = ⟨inside, .ok outcome⟩ ∧ outcome.Clears place := by
  rcases examineDocument_ok examined with
    ⟨members, body, outcome, _, validated, same, rfl⟩ | ⟨noDocument, rfl, _⟩
  · obtain rfl := Value.object.inj same
    have mounted : (Outcome.empty.merge (path ++ ".") outcome).Clears (path ++ "." ++ place) :=
      clears.of_closed
    exact ⟨members, outcome, validated, mounted.of_merge.2⟩
  · simp [Value.members?] at noDocument

theorem FieldRule.examineNested_cleared {rule : FieldRule} {spot : Location}
    (spotted : rule.Spot spot)
    (examined : rule.examineNested validate value = ⟨edited, .ok part⟩)
    (left : spot.find? edited = some (.object inside))
    (clears : part.Clears (rule.name ++ spot.suffix ++ "." ++ place)) :
    ∃ members outcome, validate members = ⟨inside, .ok outcome⟩ ∧ outcome.Clears place := by
  rcases examineNested_ok examined with
    ⟨array, items, rfl, each⟩ | ⟨single, _, document⟩ | ⟨mismatch, rfl, _⟩
  · cases spotted with
    | single single => simp [array] at single
    | item _ index =>
        obtain ⟨_, _, examined, cleared⟩ := examineArray_cleared each left clears
        exact examineDocument_cleared examined cleared
  · cases spotted with
    | item array _ => simp [single] at array
    | single _ =>
        obtain rfl := Option.some.inj left
        rw [Location.suffix, String.append_empty] at clears
        exact examineDocument_cleared document clears
  · cases spotted with
    | single single =>
        obtain rfl := Option.some.inj left
        simp [single, Value.items?] at mismatch
    | item array _ =>
        cases edited with
        | array items => simp [array, Value.items?] at mismatch
        | _ => simp [Location.find?] at left

end Examinations

section Fields

variable {field : Field} {fields : List Field} {inner : Schema} {held after : Option Value}
  {body inside : Members} {outcome part : Outcome} {path : String} {spot : Location}

theorem Field.settle_cleared (type : field.type = .subschema)
    (nested : field.schema = some inner) (spotted : field.Spot spot)
    (settled : field.settle held = ⟨after, .ok part⟩)
    (left : after.bind spot.find? = some (.object inside))
    (clears : part.Clears (field.name ++ spot.suffix ++ "." ++ path)) :
    ∃ members outcome, inner.validate members = ⟨inside, .ok outcome⟩ ∧ outcome.Clears path := by
  rw [settle, nested, Option.map_some, FieldRule.settle_nested type] at settled
  rcases FieldRule.settleBy_ok settled with ⟨_, absent, _⟩ | ⟨_, edited, _, _, examined, rfl⟩
  · have null := spotted.eq_null absent left
    simp at null
  · exact FieldRule.examineNested_cleared spotted examined left clears

theorem outcomeOfFields_cleared (clears : (outcomeOfFields fields body outcome).Clears path) :
    outcome.Clears path ∧ ∀ field ∈ storedFields fields, (field.outcomeIn body).Clears path := by
  rw [outcomeOfFields_eq_joined] at clears
  exact ⟨clears.of_joined.1, fun field stored =>
    clears.of_joined.2 _ (List.mem_map_of_mem stored)⟩

end Fields

/-- A value of a field that holds plain values is accepted, unless it is a null. -/
theorem Field.Holds.accepts {field : Field} {held value : Value} {spot : Location}
    (holds : field.Holds (some held)) (type : field.type ≠ .subschema)
    (spotted : field.Spot spot) (found : spot.find? held = some value)
    (present : value.isNull = false) : field.Accepts value := by
  have heldPresent : held.isNull = false := by
    cases spotted with
    | single => exact Option.some.inj found ▸ present
    | item => cases held <;> first | rfl | simp [Location.find?] at found
  rcases (Field.holds_plain_iff type heldPresent).mp holds with
    ⟨single, accepted⟩ | ⟨array, items, rfl, each⟩
  · cases spotted with
    | single => exact Option.some.inj found ▸ accepted
    | item array => simp [single] at array
  · cases spotted with
    | single single => simp [array] at single
    | item _ index =>
        rw [Location.find?_item] at found
        rcases each value (List.mem_of_getElem? found) with ⟨rfl, _⟩ | accepted
        · simp [Value.isNull] at present
        · exact accepted

namespace Schema

variable {schema : Schema} {location : Location} {field : Field} {body after : Members}
  {outcome : Outcome} {value : Value}

theorem Declares.starts (declares : schema.Declares location field) :
    ∃ name rest, location = .member name :: rest := by
  cases declares with
  | own => exact ⟨_, _, rfl⟩
  | inside => exact ⟨_, _, rfl⟩

/-- The field of a path that has passed holds what it has to, at any depth. -/
theorem holds_of_clears (distinct : schema.Distinct) (declares : schema.Declares location field)
    (persisted : field.isPersisted = true)
    (validated : schema.validate body = ⟨after, .ok outcome⟩)
    (clears : outcome.Clears location.path)
    (found : location.find? (.object after) = some value) : field.Holds (some value) := by
  induction declares generalizing body after outcome with
  | @own schema field member =>
      obtain ⟨names, inner⟩ := distinct
      rw [Schema.validate_eq] at validated
      obtain ⟨each, rfl, _⟩ := validateFields_parts names validated
      have stored := mem_storedFields.mpr ⟨member, persisted⟩
      have settled := each field stored
      have cleared := (outcomeOfFields_cleared clears).2 field stored
      rw [Location.path, Location.suffix, String.append_empty] at cleared
      have heads : (field.outcomeIn body).Heads field.name :=
        field.coheres (by rw [Field.validate_eq_settle, settled]; rfl)
      have holds := (Field.settle_passed_iff (fun nested schema =>
        Schema.judges (inner field member nested schema)) settled).mp
          (heads.passed_of_clears cleared)
      have held : Keyed.get? after field.name = some value := by
        simpa [Location.find?] using found
      rwa [held] at holds
  | @inside schema nestedSchema field target spot rest member type nested spotted declares
      inductionHypothesis =>
      obtain ⟨names, inner⟩ := distinct
      obtain ⟨next, more, starts⟩ := declares.starts
      rw [Schema.validate_eq] at validated
      obtain ⟨each, rfl, _⟩ := validateFields_parts names validated
      have stored : field ∈ storedFields schema.fields :=
        mem_storedFields.mpr ⟨member, by rw [FieldRule.isPersisted, type]; rfl⟩
      have cleared := (outcomeOfFields_cleared clears).2 field stored
      rw [starts, Location.path_append_member, ← starts] at cleared
      -- What the steps lead on from is a document, as they go on with the name of a field.
      have onwards : Location.find? (spot ++ rest) =
          fun value => (spot.find? value).bind rest.find? :=
        funext (Location.find?_append spot rest)
      rw [Location.find?, onwards, ← Option.bind_assoc] at found
      obtain ⟨around, there, found⟩ := Option.bind_eq_some_iff.mp found
      cases around with
      | object members =>
          obtain ⟨_, _, validated, cleared⟩ :=
            Field.settle_cleared type nested spotted (each field stored) there cleared
          exact inductionHypothesis (inner field member nestedSchema nested) persisted validated
            cleared found
      | _ => simp [starts, Location.find?] at found

/-- A value of a field of plain values whose path has passed is accepted, unless it is a null. -/
theorem accepts_of_clears {spot : Location} (distinct : schema.Distinct)
    (declares : schema.Declares location field) (plain : field.type ≠ .subschema)
    (stored : field.type ≠ .calculated)
    (validated : schema.validate body = ⟨after, .ok outcome⟩)
    (clears : outcome.Clears location.path) (spotted : field.Spot spot)
    (found : (location ++ spot).find? (.object after) = some value)
    (present : value.isNull = false) : field.Accepts value := by
  rw [Location.find?_append] at found
  obtain ⟨held, atField, inField⟩ := Option.bind_eq_some_iff.mp found
  have holds : field.Holds (some held) :=
    holds_of_clears distinct declares (decide_eq_true stored) validated clears atField
  exact holds.accepts plain spotted inField present

end Schema

end Schemata
