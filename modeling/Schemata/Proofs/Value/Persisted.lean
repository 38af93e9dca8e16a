import Schemata.Proofs.Time.RoundTrip
import Schemata.Proofs.Value.Buffer
namespace Schemata

/-! Values that are stored again.

What is read of a stored value is stored as the same JSON, whatever the value was: days,
instants and bytes have lost their type by then, and what is no finite number is null, but their
form in JSON stays (`Value.toJson_ofJson_toJson`).  A plain value has not changed at all. -/

namespace Value

/-- What a value is by its type: the keys of an object ascend. -/
inductive WellFormed : Value → Prop
  | null : WellFormed .null
  | bool (value : Bool) : WellFormed (.bool value)
  | number (value : Number) : WellFormed (.number value)
  | text (value : String) : WellFormed (.text value)
  | date (value : Date) : WellFormed (.date value)
  | instant (value : Instant) : WellFormed (.instant value)
  | buffer (bytes : List UInt8) : WellFormed (.buffer bytes)
  | array {items : List Value} (each : ∀ item ∈ items, WellFormed item) :
      WellFormed (.array items)
  | object {members : Members} (ordered : Keyed.Ordered members)
      (each : ∀ entry ∈ members, WellFormed entry.2) : WellFormed (.object members)

variable {value : Value}

theorem Plain.wellFormed (plain : value.Plain) : value.WellFormed := by
  induction plain with
  | null => exact .null
  | bool value => exact .bool value
  | number value => exact .number (.finite value)
  | text value => exact .text value
  | array _ inductionHypothesis => exact .array inductionHypothesis
  | object ordered _ inductionHypothesis => exact .object ordered inductionHypothesis

/-- There are no instants in a plain value that could lose anything. -/
theorem Plain.truncated_eq (plain : value.Plain) : value.truncated = value := by
  induction plain with
  | null | bool | text | number => rfl
  | array _ inductionHypothesis =>
      rw [truncated_array, List.map_congr_left inductionHypothesis, List.map_id']
  | @object members _ _ inductionHypothesis =>
      have same : Keyed.mapValues truncated members = Keyed.mapValues id members :=
        Keyed.mapValues_congr inductionHypothesis
      rw [truncated_object, same]
      exact congrArg Value.object (List.map_id' members)

theorem Plain.same_stored (plain : value.Plain) : value.same value.stored = true := by
  have recalled := plain.sound.same_recalled
  rwa [plain.truncated_eq, plain.timely, ← plain.stored_eq] at recalled

theorem Plain.toJson_stored (plain : value.Plain) : value.stored.toJson = value.toJson := by
  rw [plain.stored_eq]
  exact plain.sound.toJson_recalled

/-- A number is stored as it was before: as an integer, which is read as the same integer, as
a numeral of the same value, or as null. -/
theorem toJson_stored_number (value : Number) :
    (stored (.number value)).toJson = (Value.number value).toJson := by
  cases value with
  | finite value => exact (Plain.number value).toJson_stored
  | infinite negative => rfl
  | nan => rfl

theorem same_toJson_number (value : Number) :
    (Value.number value).toJson.same (Value.number value).toJson = true := by
  rw [toJson]
  rcases numberToJson_cases value with null | ⟨number, found⟩
  · rw [null]
    rfl
  · rw [found]
    exact number.same_self

theorem same_toJson_buffer (bytes : List UInt8) :
    (stored (.buffer bytes)).toJson.same (Value.buffer bytes).toJson = true := by
  have decoded := decodeBuffer_stored bytes
  have before : "data" < "type" := by decide
  rw [stored_buffer] at decoded ⊢
  exact (decodeBuffer_iff_same (Keyed.ordered_pair before)).mp decoded

theorem WellFormed.same_toJson (wellFormed : value.WellFormed) :
    value.stored.toJson.same value.toJson = true := by
  induction wellFormed with
  | null => rfl
  | bool | text | date | instant => exact beq_self_eq_true _
  | number value =>
      rw [toJson_stored_number]
      exact same_toJson_number value
  | buffer bytes => exact same_toJson_buffer bytes
  | @array items _ inductionHypothesis =>
      rw [stored_array, toJson_array, toJson_array, Json.same_array_iff,
        List.forall₂_map_left_iff, List.forall₂_map_left_iff, List.forall₂_map_right_iff,
        List.forall₂_same]
      exact inductionHypothesis
  | @object members ordered _ inductionHypothesis =>
      rw [stored_object ordered, toJson_object, toJson_object, Keyed.mapValues_mapValues,
        Json.same_object_iff]
      refine ⟨by simp [Keyed.mapValues], fun entry member => ?_⟩
      obtain ⟨⟨key, held⟩, inside, rfl⟩ := List.mem_map.mp member
      refine ⟨held.toJson, ?_, inductionHypothesis _ inside⟩
      rw [Keyed.get?_mapValues, Keyed.get?_of_mem ordered inside, Option.map_some]

/-- What is read is a plain value, since JSON has no others. -/
theorem WellFormed.plain_stored (wellFormed : value.WellFormed) : value.stored.Plain := by
  induction wellFormed with
  | null => exact .null
  | bool value => exact .bool value
  | number value =>
      cases value with
      | finite value =>
          rw [stored_number]
          exact .number _
      | infinite negative => exact .null
      | nan => exact .null
  | text value => exact .text value
  | date value => exact .text value.text
  | instant value => exact .text value.text
  | buffer bytes =>
      have each : ∀ item ∈ bytes.map fun byte => Value.number (.ofInt byte.toNat), item.Plain := by
        intro item member
        obtain ⟨byte, _, rfl⟩ := List.mem_map.mp member
        obtain ⟨held, finite, _⟩ := Number.ofInt_safe (safe_byte byte)
        rw [finite]
        exact .number held
      have before : "data" < "type" := by decide
      rw [stored_buffer]
      refine .object (Keyed.ordered_pair before) ?_
      simp only [List.forall_mem_cons]
      exact ⟨.array each, .text "Buffer", by simp⟩
  | @array items _ inductionHypothesis =>
      rw [stored_array]
      exact .array (List.forall_mem_map.mpr inductionHypothesis)
  | @object members ordered _ inductionHypothesis =>
      rw [stored_object ordered]
      exact .object (Keyed.ordered_mapValues stored ordered)
        (List.forall_mem_map.mpr inductionHypothesis)

/-- Whatever is stored of a value is stored again once it has been read, as the same JSON, and
from then on with its members in the same order.  If the value is plain, which days, instants,
bytes and infinite numbers are not, it is read as it was, up to the sign of a zero. -/
theorem toJson_ofJson_toJson (wellFormed : value.WellFormed) :
    (toJson (ofJson (toJson value))).same (toJson value) = true ∧
      toJson (ofJson (toJson (ofJson (toJson value)))) = toJson (ofJson (toJson value)) ∧
      (value.Plain → value.same (ofJson (toJson value)) = true) :=
  ⟨wellFormed.same_toJson, wellFormed.plain_stored.toJson_stored, Plain.same_stored⟩

end Value

namespace Sample

/-- Values of all kinds, among them numbers that have no numeral, and the first integer that is
stored as a number with a fraction. -/
def logPage : Members :=
  [("crew", .array [.null, .bool true, .number .nan, .number (.infinite true)]),
    ("day", .date earlyLeapDay),
    ("depth", .number (.ofInt 9007199254740992)),
    ("seen", .instant newCentury),
    ("signal", .buffer [0, 255])]

/-- Numbers next to zero, of which one has its sign. -/
def soundings : Value :=
  .array [.number (.finite (.zero true)),
    .number (.finite ⟨false, 1, ⟨1, 0, by decide, rfl⟩, by decide +kernel⟩)]

theorem logPage_wellFormed : (Value.object logPage).WellFormed := by
  have crew : ∀ value ∈ [Value.null, .bool true, .number .nan, .number (.infinite true)],
      value.WellFormed := by
    simp [Value.WellFormed.null, Value.WellFormed.bool, Value.WellFormed.number]
  have ascending : (Keyed.keys logPage).Pairwise (· < ·) := by decide +kernel
  refine .object ascending ?_
  simp only [logPage, List.forall_mem_cons]
  exact ⟨.array crew, .date _, .number _, .instant _, .buffer _, by simp⟩

theorem soundings_plain : soundings.Plain := by
  refine .array ?_
  simp [Value.Plain.number]

end Sample

open Sample in
theorem Value.toJson_ofJson_toJson_of_logPage :
    ((Value.object logPage).WellFormed ∧
      (toJson (ofJson (toJson (.object logPage)))).same (toJson (.object logPage)) = true) ∧
    (soundings.WellFormed ∧ soundings.Plain) ∧
      soundings.same (ofJson (toJson soundings)) = true :=
  ⟨⟨logPage_wellFormed, (toJson_ofJson_toJson logPage_wellFormed).1⟩,
    ⟨soundings_plain.wellFormed, soundings_plain⟩,
    (toJson_ofJson_toJson soundings_plain.wellFormed).2.2 soundings_plain⟩

end Schemata
