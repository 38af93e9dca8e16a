import Mathlib.Algebra.Group.Int.Defs
import Schemata.Keyed.Ordered
import Schemata.Proofs.Number.Whole
import Schemata.Proofs.Time.Reading
import Schemata.Proofs.Value.Reading
import Schemata.Validation.Scalar
namespace Schemata

/-! Values that are stored as JSON and read back.

Reading is structural, so a day comes back as text and bytes come back as an object, until
the type of their field gives them their form again.  `recalled` is the value after that:
a zero has lost its sign, and an instant what is below its millisecond, or has stayed a text
that cannot be read. -/

namespace JsonNumber

/-- The numerals of JSON hold integers of 64 bits, with or without a sign. -/
inductive WellFormed : JsonNumber → Prop
  | int {whole : Int} (lower : -2 ^ 63 ≤ whole) (upper : whole < 2 ^ 64) :
      WellFormed (.int whole)
  | float (value : Finite) : WellFormed (.float value)

theorem WellFormed.toNumber_finite {number : JsonNumber} (wellFormed : number.WellFormed) :
    ∃ value, number.toNumber = .finite value := by
  cases wellFormed with
  | @int whole lower upper =>
      have limit : 2 ^ 64 < powerOfTwo 1023 := by decide +kernel
      exact Number.ofInt_finite (by omega)
  | float value => exact ⟨value, rfl⟩

end JsonNumber

/-- What a value of JSON is by its type: integers have 64 bits, and a key comes once in an
object. -/
inductive Json.WellFormed : Json → Prop
  | null : WellFormed .null
  | bool (value : Bool) : WellFormed (.bool value)
  | number {value : JsonNumber} (wellFormed : value.WellFormed) : WellFormed (.number value)
  | text (value : String) : WellFormed (.text value)
  | array {items : List Json} (each : ∀ item ∈ items, WellFormed item) :
      WellFormed (.array items)
  | object {members : List (String × Json)} (names : (Keyed.keys members).Nodup)
      (each : ∀ entry ∈ members, WellFormed entry.2) : WellFormed (.object members)

section WellFormed

variable {items : List Json} {members : List (String × Json)} {whole : Int}

@[simp] theorem Json.wellFormed_text (value : String) : (Json.text value).WellFormed :=
  .text value

@[simp] theorem Json.wellFormed_int_iff :
    (Json.number (.int whole)).WellFormed ↔ -2 ^ 63 ≤ whole ∧ whole < 2 ^ 64 := by
  constructor
  · rintro (_ | _ | ⟨⟨lower, upper⟩⟩)
    exact ⟨lower, upper⟩
  · exact fun ⟨lower, upper⟩ => .number (.int lower upper)

@[simp] theorem Json.wellFormed_array_iff :
    (Json.array items).WellFormed ↔ ∀ item ∈ items, item.WellFormed := by
  constructor
  · rintro (_ | _ | _ | _ | each)
    exact each
  · exact .array

@[simp] theorem Json.wellFormed_object_iff :
    (Json.object members).WellFormed ↔
      (Keyed.keys members).Nodup ∧ ∀ entry ∈ members, entry.2.WellFormed := by
  constructor
  · rintro (_ | _ | _ | _ | _ | ⟨names, each⟩)
    exact ⟨names, each⟩
  · exact fun ⟨names, each⟩ => .object names each

end WellFormed

namespace Value

/-- Values that are read from JSON as they are. -/
inductive Plain : Value → Prop
  | null : Plain .null
  | bool (value : Bool) : Plain (.bool value)
  | number (value : Finite) : Plain (.number (.finite value))
  | text (value : String) : Plain (.text value)
  | array {items : List Value} (each : ∀ item ∈ items, Plain item) : Plain (.array items)
  | object {members : Members} (ordered : Keyed.Ordered members)
      (each : ∀ entry ∈ members, Plain entry.2) : Plain (.object members)

/-- Plain values and what validation makes of them. -/
inductive Sound : Value → Prop
  | null : Sound .null
  | bool (value : Bool) : Sound (.bool value)
  | number (value : Finite) : Sound (.number (.finite value))
  | text (value : String) : Sound (.text value)
  | date {value : Date} (inReach : value.InReach) : Sound (.date value)
  | instant {value : Instant} (regular : value.Regular) : Sound (.instant value)
  | buffer (bytes : List UInt8) : Sound (.buffer bytes)
  | array {items : List Value} (each : ∀ item ∈ items, Sound item) : Sound (.array items)
  | object {members : Members} (ordered : Keyed.Ordered members)
      (each : ∀ entry ∈ members, Sound entry.2) : Sound (.object members)

theorem Plain.sound {value : Value} (plain : value.Plain) : value.Sound := by
  induction plain with
  | null => exact .null
  | bool value => exact .bool value
  | number value => exact .number value
  | text value => exact .text value
  | array _ inductionHypothesis => exact .array inductionHypothesis
  | object ordered _ inductionHypothesis => exact .object ordered inductionHypothesis

mutual

/-- The value with its parts changed that are no arrays and no objects. -/
def mapLeaves (change : Value → Value) : Value → Value
  | .array items => .array (mapItems change items)
  | .object members => .object (mapMembers change members)
  | leaf => change leaf

def mapItems (change : Value → Value) : List Value → List Value
  | [] => []
  | item :: rest => mapLeaves change item :: mapItems change rest

def mapMembers (change : Value → Value) : List (String × Value) → List (String × Value)
  | [] => []
  | (key, value) :: rest => (key, mapLeaves change value) :: mapMembers change rest

end

mutual

/-- Whether all parts that are no arrays and no objects pass a test. -/
def allLeaves (test : Value → Bool) : Value → Bool
  | .array items => allItems test items
  | .object members => allMembers test members
  | leaf => test leaf

def allItems (test : Value → Bool) : List Value → Bool
  | [] => true
  | item :: rest => allLeaves test item && allItems test rest

def allMembers (test : Value → Bool) : List (String × Value) → Bool
  | [] => true
  | (_, value) :: rest => allLeaves test value && allMembers test rest

end

def truncated : Value → Value :=
  mapLeaves fun
    | .instant value => .instant value.truncated
    | leaf => leaf

/-- Whether the years of all instants are written with four digits. -/
def timely : Value → Bool :=
  allLeaves fun
    | .instant value => value.timely
    | _ => true

/-- The value as it comes back from where it was stored. -/
def recalled : Value → Value :=
  mapLeaves fun
    | .number value => .number value.canonical
    | .instant value => if value.timely then .instant value.truncated else .text value.text
    | leaf => leaf

def stored (value : Value) : Value := ofJson (toJson value)

theorem itemsToJson_eq (items : List Value) : itemsToJson items = items.map toJson := by
  induction items with
  | nil => rfl
  | cons item rest inductionHypothesis => rw [itemsToJson, inductionHypothesis, List.map_cons]

theorem membersToJson_eq (members : Members) :
    membersToJson members = Keyed.mapValues toJson members := by
  induction members with
  | nil => rfl
  | cons entry rest inductionHypothesis =>
      rw [membersToJson, inductionHypothesis, Keyed.mapValues, Keyed.mapValues, List.map_cons]

theorem mapItems_eq (change : Value → Value) (items : List Value) :
    mapItems change items = items.map (mapLeaves change) := by
  induction items with
  | nil => rfl
  | cons item rest inductionHypothesis => rw [mapItems, inductionHypothesis, List.map_cons]

theorem mapMembers_eq (change : Value → Value) (members : Members) :
    mapMembers change members = Keyed.mapValues (mapLeaves change) members := by
  induction members with
  | nil => rfl
  | cons entry rest inductionHypothesis =>
      rw [mapMembers, inductionHypothesis, Keyed.mapValues, Keyed.mapValues, List.map_cons]

theorem allItems_eq (test : Value → Bool) (items : List Value) :
    allItems test items = items.all (allLeaves test) := by
  induction items with
  | nil => rfl
  | cons item rest inductionHypothesis => rw [allItems, inductionHypothesis, List.all_cons]

theorem allMembers_eq (test : Value → Bool) (members : Members) :
    allMembers test members = members.all fun entry => allLeaves test entry.2 := by
  induction members with
  | nil => rfl
  | cons entry rest inductionHypothesis => rw [allMembers, inductionHypothesis, List.all_cons]

@[simp] theorem truncated_array (items : List Value) :
    truncated (.array items) = .array (items.map truncated) :=
  congrArg Value.array (mapItems_eq _ items)

@[simp] theorem truncated_object (members : Members) :
    truncated (.object members) = .object (Keyed.mapValues truncated members) :=
  congrArg Value.object (mapMembers_eq _ members)

@[simp] theorem recalled_array (items : List Value) :
    recalled (.array items) = .array (items.map recalled) :=
  congrArg Value.array (mapItems_eq _ items)

@[simp] theorem recalled_object (members : Members) :
    recalled (.object members) = .object (Keyed.mapValues recalled members) :=
  congrArg Value.object (mapMembers_eq _ members)

@[simp] theorem timely_array (items : List Value) :
    timely (.array items) = items.all timely :=
  allItems_eq _ items

@[simp] theorem timely_object (members : Members) :
    timely (.object members) = members.all fun entry => timely entry.2 :=
  allMembers_eq _ members

@[simp] theorem toJson_array (items : List Value) :
    toJson (.array items) = .array (items.map toJson) :=
  congrArg Json.array (itemsToJson_eq items)

@[simp] theorem toJson_object (members : Members) :
    toJson (.object members) = .object (Keyed.mapValues toJson members) :=
  congrArg Json.object (membersToJson_eq members)

@[simp] theorem stored_array (items : List Value) :
    stored (.array items) = .array (items.map stored) := by
  rw [stored, toJson_array, ofJson, itemsOfJson_eq, List.map_map]
  rfl

theorem stored_object {members : Members} (ordered : Keyed.Ordered members) :
    stored (.object members) = .object (Keyed.mapValues stored members) := by
  have entries : Keyed.mapValues ofJson (Keyed.mapValues toJson members) =
      Keyed.mapValues stored members := by
    simp only [Keyed.mapValues, List.map_map]
    rfl
  rw [stored, toJson_object, ofJson, membersOfJson_eq, entries,
    Keyed.ofList_of_ordered (Keyed.ordered_mapValues stored ordered)]

theorem stored_number (value : Finite) :
    stored (.number (.finite value)) = .number (Number.finite value).canonical := by
  rw [stored, toJson, numberToJson]
  cases found : (Number.finite value).toSafeInt? with
  | some whole => exact congrArg Value.number (Number.ofInt_of_toSafeInt? found)
  | none => exact congrArg Value.number (Number.canonical_of_toSafeInt?_none found).symm

theorem safe_byte (byte : UInt8) : ((byte.toNat : Int)).natAbs ≤ largestSafeInt := by
  have small : byte.toNat < 256 := byte.toNat_lt
  have limit : 256 ≤ largestSafeInt := by decide
  omega

theorem byte?_nat (byte : UInt8) : byte? (.number (.ofInt byte.toNat)) = some byte := by
  have small : byte.toNat < 256 := byte.toNat_lt
  have inside : (0 : Int) ≤ byte.toNat ∧ (byte.toNat : Int) ≤ 255 := by omega
  simp only [byte?, Number.toSafeInt?_ofInt (safe_byte byte), Option.bind_some, if_pos inside,
    Int.toNat_natCast, UInt8.ofNat_toNat]

/-- Bytes come back as an object, whose members are in the order of their keys then. -/
theorem stored_buffer (bytes : List UInt8) :
    stored (.buffer bytes) =
      .object [("data", .array (bytes.map fun byte => .number (.ofInt byte.toNat))),
        ("type", .text "Buffer")] := by
  have items : (bytes.map fun byte => Json.nat byte.toNat).map ofJson =
      bytes.map fun byte => Value.number (.ofInt byte.toNat) := by
    rw [List.map_map]
    rfl
  have before : "data" < "type" := by decide
  rw [stored, toJson, bufferToJson, ofJson, membersOfJson, membersOfJson, membersOfJson, ofJson,
    ofJson, itemsOfJson_eq, items]
  simp [Keyed.ofList, Keyed.insert, Keyed.contains, Keyed.get?, Keyed.place, before]

theorem decodeBuffer_stored (bytes : List UInt8) :
    (stored (.buffer bytes)).decodeBuffer = some bytes := by
  have decoded : (bytes.map fun byte => Value.number (.ofInt byte.toNat)).mapM byte? =
      pure (bytes.map id) := mapM_map_eq_pure fun byte _ => byte?_nat byte
  rw [List.map_id] at decoded
  rw [stored_buffer]
  exact decoded

theorem Plain.stored_eq {value : Value} (plain : value.Plain) :
    value.stored = value.recalled := by
  induction plain with
  | null | bool | text => rfl
  | number value => exact stored_number value
  | array _ inductionHypothesis =>
      rw [stored_array, recalled_array, List.map_congr_left inductionHypothesis]
  | object ordered _ inductionHypothesis =>
      rw [stored_object ordered, recalled_object, Keyed.mapValues_congr inductionHypothesis]

theorem Plain.timely {value : Value} (plain : value.Plain) : value.timely = true := by
  induction plain with
  | null | bool | text | number => rfl
  | array _ inductionHypothesis =>
      rw [timely_array, List.all_eq_true]
      exact inductionHypothesis
  | object _ _ inductionHypothesis =>
      rw [timely_object, List.all_eq_true]
      exact inductionHypothesis

/-- A value that has come back is stored as it was before. -/
theorem Sound.toJson_recalled {value : Value} (sound : value.Sound) :
    value.recalled.toJson = value.toJson := by
  induction sound with
  | null | bool | text | date | buffer => rfl
  | number value =>
      have same : (Number.finite value).canonical.toSafeInt? =
          (Number.finite value).toSafeInt? := Number.toSafeInt?_canonical _
      change numberToJson (Number.finite value).canonical = numberToJson (.finite value)
      cases found : (Number.finite value).toSafeInt? with
      | some whole => simp only [numberToJson, same, found]
      | none => rw [Number.canonical_of_toSafeInt?_none found]
  | @instant value _ =>
      change (if value.timely then .instant value.truncated else .text value.text : Value).toJson =
        .text value.text
      split
      · rw [toJson, Instant.text_truncated]
      · rfl
  | array _ inductionHypothesis =>
      rw [recalled_array, toJson_array, toJson_array, List.map_map]
      exact congrArg Json.array (List.map_congr_left inductionHypothesis)
  | object _ _ inductionHypothesis =>
      rw [recalled_object, toJson_object, toJson_object, Keyed.mapValues_mapValues]
      exact congrArg Json.object (Keyed.mapValues_congr inductionHypothesis)

theorem sameItems_map (f g : Value → Value) (items : List Value) :
    sameItems (items.map f) (items.map g) = items.all fun item => (f item).same (g item) := by
  induction items with
  | nil => rfl
  | cons item rest inductionHypothesis =>
      rw [List.map_cons, List.map_cons, sameItems, inductionHypothesis, List.all_cons]

theorem sameMembers_mapValues (f g : Value → Value) (members : Members) :
    sameMembers (Keyed.mapValues f members) (Keyed.mapValues g members) =
      members.all fun entry => (f entry.2).same (g entry.2) := by
  induction members with
  | nil => rfl
  | cons entry rest inductionHypothesis =>
      simp only [Keyed.mapValues, List.map_cons, sameMembers, List.all_cons, beq_self_eq_true,
        Bool.true_and] at inductionHypothesis ⊢
      rw [inductionHypothesis]

/-- What comes back is what was stored, to the millisecond, exactly when the years of all
instants are written with four digits. -/
theorem Sound.same_recalled {value : Value} (sound : value.Sound) :
    value.truncated.same value.recalled = value.timely := by
  induction sound with
  | null => rfl
  | bool | text | date | buffer => exact beq_self_eq_true _
  | number value => exact Number.same_canonical value
  | @instant value _ =>
      change (Value.instant value.truncated).same
        (if value.timely then .instant value.truncated else .text value.text) = value.timely
      cases value.timely with
      | true => exact beq_self_eq_true _
      | false => rfl
  | array _ inductionHypothesis =>
      rw [truncated_array, recalled_array, timely_array, same, sameItems_map, Bool.eq_iff_iff,
        List.all_eq_true, List.all_eq_true]
      exact forall₂_congr fun item member => by rw [inductionHypothesis item member]
  | object _ _ inductionHypothesis =>
      rw [truncated_object, recalled_object, timely_object, same, sameMembers_mapValues,
        Bool.eq_iff_iff, List.all_eq_true, List.all_eq_true]
      exact forall₂_congr fun entry member => by rw [inductionHypothesis entry member]

variable {members : Members} {key : String} {value : Value}

theorem Plain.ordered (plain : Plain (.object members)) : Keyed.Ordered members := by
  cases plain with
  | object ordered _ => exact ordered

theorem Sound.ordered (sound : Sound (.object members)) : Keyed.Ordered members := by
  cases sound with
  | object ordered _ => exact ordered

theorem Plain.of_get? (plain : Plain (.object members))
    (found : Keyed.get? members key = some value) : value.Plain := by
  cases plain with
  | object _ each => exact each _ (Keyed.mem_of_get? found)

theorem Sound.of_get? (sound : Sound (.object members))
    (found : Keyed.get? members key = some value) : value.Sound := by
  cases sound with
  | object _ each => exact each _ (Keyed.mem_of_get? found)

theorem Plain.object_of_get? (ordered : Keyed.Ordered members)
    (each : ∀ key value, Keyed.get? members key = some value → value.Plain) :
    Plain (.object members) :=
  .object ordered fun entry member => each entry.1 entry.2 (Keyed.get?_of_mem ordered member)

theorem Sound.object_of_get? (ordered : Keyed.Ordered members)
    (each : ∀ key value, Keyed.get? members key = some value → value.Sound) :
    Sound (.object members) :=
  .object ordered fun entry member => each entry.1 entry.2 (Keyed.get?_of_mem ordered member)

theorem timely_object_iff (ordered : Keyed.Ordered members) :
    timely (.object members) = true ↔
      ∀ key value, Keyed.get? members key = some value → value.timely = true := by
  rw [timely_object, List.all_eq_true]
  constructor
  · exact fun each key value found => each _ (Keyed.mem_of_get? found)
  · exact fun each entry member => each entry.1 entry.2 (Keyed.get?_of_mem ordered member)

end Value

theorem FieldType.coerce_stored_buffer (bytes : List UInt8) :
    FieldType.buffer.coerce (Value.buffer bytes).stored = .buffer bytes := by
  have decoded := Value.decodeBuffer_stored bytes
  rw [Value.stored_buffer] at decoded ⊢
  rw [coerce, decoded, Option.elim_some]

theorem Json.WellFormed.plain {json : Json} (wellFormed : json.WellFormed) :
    (Value.ofJson json).Plain := by
  induction wellFormed with
  | null => exact .null
  | bool value => exact .bool value
  | number wellFormed =>
      obtain ⟨value, finite⟩ := wellFormed.toNumber_finite
      rw [Value.ofJson, finite]
      exact .number value
  | text value => exact .text value
  | array _ inductionHypothesis =>
      rw [Value.ofJson, Value.itemsOfJson_eq]
      refine .array fun item member => ?_
      obtain ⟨json, inside, rfl⟩ := List.mem_map.mp member
      exact inductionHypothesis json inside
  | @object members names _ inductionHypothesis =>
      rw [Value.ofJson, Value.membersOfJson_eq]
      refine Value.Plain.object_of_get? (Keyed.ordered_ofList _) fun key value found => ?_
      rw [Keyed.get?_ofList (by rwa [Keyed.keys_mapValues]), Keyed.get?_mapValues] at found
      obtain ⟨json, written, rfl⟩ := Option.map_eq_some_iff.mp found
      exact inductionHypothesis _ (Keyed.mem_of_get? written)

end Schemata
