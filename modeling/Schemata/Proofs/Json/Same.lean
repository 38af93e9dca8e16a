import Mathlib.Data.List.Forall2
import Schemata.Json.Basic
namespace Schemata

/-! When two values of JSON are the same.

The members of an object have an order in the text, which is of no account here: two objects
are the same if they have as many members and each of the one is the same as that of the other
under its key.  Numerals with a fraction or an exponent are compared by value, and are never the
same as whole ones. -/

def JsonNumber.same : JsonNumber → JsonNumber → Bool
  | .int left, .int right => left == right
  | .float left, .float right => (Number.finite left).same (.finite right)
  | _, _ => false

theorem JsonNumber.same_self (number : JsonNumber) : number.same number = true := by
  cases number with
  | int value => exact beq_self_eq_true value
  | float value => exact beq_self_eq_true value.signedSteps

namespace Json

mutual

def same : Json → Json → Bool
  | .null, .null => true
  | .bool left, .bool right => left == right
  | .number left, .number right => left.same right
  | .text left, .text right => left == right
  | .array left, .array right => sameItems left right
  | .object left, .object right => left.length == right.length && sameMembers left right
  | _, _ => false

def sameItems : List Json → List Json → Bool
  | [], [] => true
  | left :: lefts, right :: rights => same left right && sameItems lefts rights
  | _, _ => false

/-- Whether each member is found among the others. -/
def sameMembers : List (String × Json) → Keyed Json → Bool
  | [], _ => true
  | (key, value) :: rest, others =>
      (match Keyed.get? others key with
        | some other => same value other
        | none => false) && sameMembers rest others

end

variable {json : Json} {items others : List Json} {members : Keyed Json}

theorem sameItems_iff :
    sameItems items others = true ↔
      List.Forall₂ (fun left right => left.same right = true) items others := by
  induction items generalizing others with
  | nil => cases others <;> simp [sameItems]
  | cons item rest inductionHypothesis =>
      cases others with
      | nil => simp [sameItems]
      | cons other others =>
          rw [sameItems, Bool.and_eq_true, List.forall₂_cons, inductionHypothesis]

theorem sameMembers_iff {entries : List (String × Json)} :
    sameMembers entries members = true ↔
      ∀ entry ∈ entries, ∃ other, Keyed.get? members entry.1 = some other ∧
        entry.2.same other = true := by
  induction entries with
  | nil => simp [sameMembers]
  | cons entry rest inductionHypothesis =>
      obtain ⟨key, value⟩ := entry
      rw [sameMembers, Bool.and_eq_true, List.forall_mem_cons, inductionHypothesis]
      cases Keyed.get? members key <;> simp

theorem same_array_iff :
    (Json.array items).same (.array others) = true ↔
      List.Forall₂ (fun left right => left.same right = true) items others := by
  rw [same, sameItems_iff]

theorem same_object_iff {entries : List (String × Json)} :
    (Json.object entries).same (.object members) = true ↔
      entries.length = members.length ∧
        ∀ entry ∈ entries, ∃ other, Keyed.get? members entry.1 = some other ∧
          entry.2.same other = true := by
  rw [same, Bool.and_eq_true, sameMembers_iff, beq_iff_eq]

theorem same_text_iff {value : String} : json.same (.text value) = true ↔ json = .text value := by
  cases json with
  | text other => rw [same, beq_iff_eq, Json.text.injEq]
  | _ => simp [same]

theorem same_int_iff {whole : Int} : json.same (.int whole) = true ↔ json = .int whole := by
  cases json with
  | number number =>
      cases number with
      | int other => simp [int, same, JsonNumber.same]
      | float other => simp [int, same, JsonNumber.same]
  | _ => simp [int, same]

theorem same_array_right (found : json.same (.array others) = true) :
    ∃ items, json = .array items := by
  cases json with
  | array items => exact ⟨items, rfl⟩
  | _ => simp [same] at found

end Json

end Schemata
