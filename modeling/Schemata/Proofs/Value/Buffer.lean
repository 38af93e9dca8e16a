import Schemata.Proofs.Collect
import Schemata.Proofs.Json.Same
import Schemata.Proofs.Value.Stored
namespace Schemata

/-! Bytes in the form in which they are stored.

An object is read as bytes exactly when it is stored as these bytes are
(`Value.decodeBuffer_exact`): it has the two members of the stored form and no other, and
its items are stored as the bytes are. -/

theorem Keyed.ordered_pair {α : Type} {first second : String × α} (before : first.1 < second.1) :
    Ordered [first, second] :=
  List.pairwise_pair.mpr before

/-- Two entries in the order of their keys are all that an ordered list of two holds. -/
theorem Keyed.eq_pair {α : Type} {members : Keyed α} {first second : String × α}
    (ordered : Ordered members) (two : members.length = 2) (before : first.1 < second.1)
    (firstHeld : first ∈ members) (secondHeld : second ∈ members) : members = [first, second] := by
  obtain ⟨left, right, rfl⟩ := List.length_eq_two.mp two
  have ascends : left.1 < right.1 := (ordered_cons.mp ordered).1 _ (by simp [keys])
  simp only [List.mem_cons, List.not_mem_nil, or_false] at firstHeld secondHeld
  rcases firstHeld with rfl | rfl <;> rcases secondHeld with rfl | rfl
  · exact absurd before (String.lt_irrefl _)
  · rfl
  · exact absurd (String.lt_trans before ascends) (String.lt_irrefl _)
  · exact absurd before (String.lt_irrefl _)

namespace Value

variable {value : Value} {members : Members} {byte : UInt8} {bytes : List UInt8}

theorem eq_of_text? {content : String} (found : value.text? = some content) :
    value = .text content := by
  cases value with
  | text held => exact congrArg Value.text (Option.some.inj found)
  | _ => simp [text?] at found

theorem eq_of_items? {items : List Value} (found : value.items? = some items) :
    value = .array items := by
  cases value with
  | array held => exact congrArg Value.array (Option.some.inj found)
  | _ => simp [items?] at found

/-- A number is stored as a numeral, or as null if there is none for it. -/
theorem numberToJson_cases (value : Number) :
    numberToJson value = .null ∨ ∃ number, numberToJson value = .number number := by
  rw [numberToJson]
  cases value.toSafeInt? with
  | some whole => exact .inr ⟨_, rfl⟩
  | none =>
      cases value with
      | finite value => exact .inr ⟨_, rfl⟩
      | infinite negative => exact .inl rfl
      | nan => exact .inl rfl

theorem numberToJson_eq_int_iff {value : Number} {whole : Int} :
    numberToJson value = .int whole ↔ value.toSafeInt? = some whole := by
  rw [numberToJson]
  cases value.toSafeInt? with
  | some other => simp [Json.int]
  | none => cases value <;> simp [Json.int, Json.ofNumber]

theorem toJson_eq_int_iff {whole : Int} :
    value.toJson = .int whole ↔ ∃ number, value = .number number ∧
      number.toSafeInt? = some whole := by
  cases value with
  | number value => simp [toJson, numberToJson_eq_int_iff]
  | _ => simp [toJson, bufferToJson, Json.int]

/-- Only a text is stored as the tag, since days and instants are written without its letters. -/
theorem toJson_eq_tag_iff : value.toJson = .text "Buffer" ↔ value = .text "Buffer" := by
  have letter : 'B' ∈ "Buffer".toList := by decide
  cases value with
  | number value => rcases numberToJson_cases value with null | ⟨_, number⟩ <;> simp [toJson, *]
  | date value =>
      refine iff_of_false (fun tagged => ?_) (by simp)
      rw [← Json.text.inj tagged, Date.text, String.toList_ofList] at letter
      exact absurd (Date.mem_chars letter) (by decide)
  | instant value =>
      refine iff_of_false (fun tagged => ?_) (by simp)
      rw [← Json.text.inj tagged, Instant.text, String.toList_ofList] at letter
      exact absurd (Instant.mem_chars letter) (by decide)
  | _ => simp [toJson, bufferToJson]

theorem toJson_eq_array_iff {items : List Json} :
    value.toJson = .array items ↔ ∃ values, value = .array values ∧ values.map toJson = items := by
  cases value with
  | number value => rcases numberToJson_cases value with null | ⟨_, number⟩ <;> simp [toJson, *]
  | array values => simp
  | _ => simp [toJson, bufferToJson]

/-- A byte is read from what is stored as the byte is. -/
theorem byte?_eq_some_iff : byte? value = some byte ↔ value.toJson = .nat byte.toNat := by
  rw [Json.nat, toJson_eq_int_iff]
  constructor
  · intro found
    cases value with
    | number number =>
        obtain ⟨whole, safe, inside⟩ := Option.bind_eq_some_iff.mp found
        split at inside
        · rename_i range
          have small := byte.toNat_lt
          refine ⟨number, rfl, ?_⟩
          rw [safe, ← Option.some.inj inside]
          simp only [UInt8.toNat_ofNat', Option.some.injEq]
          omega
        · simp at inside
    | _ => simp [byte?] at found
  · intro written
    obtain ⟨held, same, safe⟩ := written
    have small := byte.toNat_lt
    have inside : (0 : Int) ≤ byte.toNat ∧ (byte.toNat : Int) ≤ 255 := by omega
    simp only [same, byte?, safe, Option.bind_some, if_pos inside, Int.toNat_natCast,
      UInt8.ofNat_toNat]

/-- The items are stored as the bytes are, one by one. -/
def StoredAs (items : List Value) (bytes : List UInt8) : Prop :=
  List.Forall₂ (fun item byte => toJson item = .nat byte.toNat) items bytes

/-- The object is in the stored form of bytes, with items that are the bytes in JSON. -/
def BufferForm (members : Members) (bytes : List UInt8) : Prop :=
  ∃ items, members = [("data", .array items), ("type", .text "Buffer")] ∧ StoredAs items bytes

theorem mapM_byte?_iff {items : List Value} :
    items.mapM byte? = some bytes ↔ StoredAs items bytes := by
  simp only [StoredAs, mapM_eq_some_iff, byte?_eq_some_iff]

theorem decodeBuffer_iff_form (ordered : Keyed.Ordered members) :
    decodeBuffer (.object members) = some bytes ↔ BufferForm members bytes := by
  constructor
  · intro decoded
    simp only [decodeBuffer] at decoded
    split at decoded
    · rename_i form
      obtain ⟨two, tagged⟩ := form
      obtain ⟨items, found, read⟩ := Option.bind_eq_some_iff.mp decoded
      obtain ⟨tag, tagFound, text⟩ := Option.bind_eq_some_iff.mp tagged
      obtain ⟨data, dataFound, array⟩ := Option.bind_eq_some_iff.mp found
      obtain rfl := eq_of_text? text
      obtain rfl := eq_of_items? array
      have before : "data" < "type" := by decide
      refine ⟨items, ?_, mapM_byte?_iff.mp read⟩
      exact Keyed.eq_pair ordered two before (Keyed.mem_of_get? dataFound)
        (Keyed.mem_of_get? tagFound)
    · simp at decoded
  · intro form
    obtain ⟨items, same, stored⟩ := form
    rw [same]
    exact mapM_byte?_iff.mpr stored

theorem same_tag_iff : value.toJson.same (.text "Buffer") = true ↔ value = .text "Buffer" :=
  Json.same_text_iff.trans toJson_eq_tag_iff

theorem same_items_iff {items : List Value} :
    (Value.array items).toJson.same (.array (bytes.map fun byte => .nat byte.toNat)) = true ↔
      StoredAs items bytes := by
  rw [toJson_array, Json.same_array_iff, List.forall₂_map_left_iff, List.forall₂_map_right_iff]
  simp only [StoredAs, Json.nat, Json.same_int_iff]

theorem same_data_iff :
    value.toJson.same (.array (bytes.map fun byte => .nat byte.toNat)) = true ↔
      ∃ items, value = .array items ∧ StoredAs items bytes := by
  constructor
  · intro same
    obtain ⟨jsons, written⟩ := Json.same_array_right same
    obtain ⟨items, rfl, _⟩ := toJson_eq_array_iff.mp written
    exact ⟨items, rfl, same_items_iff.mp same⟩
  · intro form
    obtain ⟨items, same, stored⟩ := form
    rw [same]
    exact same_items_iff.mpr stored

/-- A member that is stored as one of the stored form is the tag, or the items. -/
theorem member_form {entry : String × Value} {other : Json}
    (found : Keyed.get? [("type", .text "Buffer"),
      ("data", .array (bytes.map fun byte => .nat byte.toNat))] entry.1 = some other)
    (same : entry.2.toJson.same other = true) :
    entry = ("type", .text "Buffer") ∨
      ∃ items, entry = ("data", .array items) ∧ StoredAs items bytes := by
  obtain ⟨key, held⟩ := entry
  have listed := Keyed.mem_of_get? found
  simp only [List.mem_cons, List.not_mem_nil, or_false, Prod.mk.injEq] at listed
  rcases listed with ⟨rfl, rfl⟩ | ⟨rfl, rfl⟩
  · obtain rfl := same_tag_iff.mp same
    exact .inl rfl
  · obtain ⟨items, rfl, stored⟩ := same_data_iff.mp same
    exact .inr ⟨items, rfl, stored⟩

theorem same_buffer_iff_form (ordered : Keyed.Ordered members) :
    (toJson (.object members)).same (toJson (.buffer bytes)) = true ↔ BufferForm members bytes := by
  rw [toJson_object, toJson, bufferToJson, Json.same_object_iff]
  constructor
  · intro same
    obtain ⟨two, each⟩ := same
    have form : ∀ entry ∈ members, entry = ("type", .text "Buffer") ∨
        ∃ items, entry = ("data", .array items) ∧ StoredAs items bytes := by
      intro entry member
      obtain ⟨other, found, same⟩ :=
        each (entry.1, toJson entry.2) (List.mem_map.mpr ⟨entry, member, rfl⟩)
      exact member_form found same
    obtain ⟨left, right, rfl⟩ := List.length_eq_two.mp
      (by simpa [Keyed.mapValues] using two : members.length = 2)
    have ascends : left.1 < right.1 := (Keyed.ordered_cons.mp ordered).1 _ (by simp [Keyed.keys])
    -- The keys ascend, so the items come first and the tag second.
    rcases form left (by simp) with rfl | ⟨items, rfl, stored⟩ <;>
      rcases form right (by simp) with rfl | ⟨others, rfl, _⟩ <;>
      dsimp only at ascends
    · exact absurd ascends (by decide)
    · exact absurd ascends (by decide)
    · exact ⟨items, rfl, stored⟩
    · exact absurd ascends (by decide)
  · intro form
    obtain ⟨items, same, stored⟩ := form
    rw [same]
    refine ⟨by simp [Keyed.mapValues], fun entry member => ?_⟩
    simp only [Keyed.mapValues, List.map_cons, List.map_nil, List.mem_cons, List.not_mem_nil,
      or_false] at member
    rcases member with rfl | rfl
    · exact ⟨_, rfl, same_items_iff.mpr stored⟩
    · exact ⟨_, rfl, same_tag_iff.mpr rfl⟩

theorem decodeBuffer_iff_same (ordered : Keyed.Ordered members) :
    decodeBuffer (.object members) = some bytes ↔
      (toJson (.object members)).same (toJson (.buffer bytes)) = true := by
  rw [decodeBuffer_iff_form ordered, same_buffer_iff_form ordered]

theorem coerce_object_iff {type : FieldType} :
    type.coerce (.object members) = .buffer bytes ↔
      type = .buffer ∧ decodeBuffer (.object members) = some bytes := by
  cases type with
  | buffer =>
      rw [FieldType.coerce]
      cases decodeBuffer (.object members) <;> simp
  | _ => simp [FieldType.coerce]

/-- An object is read as bytes exactly when it is stored as the same JSON as they are.  So bytes
that have been stored come back in a field that is declared to hold bytes, whichever they are,
and no field makes bytes of any other object. -/
theorem decodeBuffer_exact (members : Table Value) :
    (∀ bytes, decodeBuffer (.object members.entries) = some bytes ↔
      (toJson (.object members.entries)).same (toJson (.buffer bytes)) = true) ∧
    (∀ bytes, FieldType.buffer.coerce (ofJson (toJson (.buffer bytes))) = .buffer bytes) ∧
    ∀ type : FieldType, ∀ bytes, type.coerce (.object members.entries) = .buffer bytes ↔
      type = .buffer ∧
        (toJson (.object members.entries)).same (toJson (.buffer bytes)) = true := by
  refine ⟨fun bytes => decodeBuffer_iff_same members.ordered, FieldType.coerce_stored_buffer, ?_⟩
  intro type bytes
  rw [coerce_object_iff, decodeBuffer_iff_same members.ordered]

end Value

namespace Sample

/-- The bytes 0, 255 and 7 as a reader may have brought them: with the sign of a zero, and with
the members in the order of their keys. -/
def wireBytes : Table Value := .ofList
  [("data", .array [.number (.finite (.zero true)), .nat 255, .nat 7]), ("type", .text "Buffer")]

end Sample

open Sample in
theorem Value.decodeBuffer_exact_of_wireBytes :
    decodeBuffer (.object wireBytes.entries) = some [0, 255, 7] ∧
      (toJson (.object wireBytes.entries)).same (toJson (.buffer [0, 255, 7])) = true ∧
      FieldType.buffer.coerce (.object wireBytes.entries) = .buffer [0, 255, 7] := by
  obtain ⟨read, _, made⟩ := decodeBuffer_exact wireBytes
  have decoded : decodeBuffer (.object wireBytes.entries) = some [0, 255, 7] := by decide +kernel
  have same := (read _).mp decoded
  exact ⟨decoded, same, (made .buffer _).mpr ⟨rfl, same⟩⟩

end Schemata
