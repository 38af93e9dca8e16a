import Mathlib.Data.List.Perm.Basic
import Mathlib.Data.List.Nodup
import Schemata.Proofs.Validation.Shape
namespace Schemata

/-! The order in which a schema declares its fields.

Every field writes under a name of its own, and writes under different names commute
(`Keyed.write_comm`), as verdicts do that are joined.  So fields normalize a body in any order
(`Schema.normalize_permuted`), and the order is seen in that of the failures only
(`Schema.validate_permuted`). -/

namespace Keyed

variable {α : Type} {key other : String}

theorem replace_comm (members : Keyed α) (distinct : key ≠ other) (first second : α) :
    replace (replace members key first) other second =
      replace (replace members other second) key first := by
  induction members with
  | nil => rfl
  | cons entry rest inductionHypothesis =>
      by_cases atKey : entry.1 = key
      · simp [replace, atKey, distinct]
      · by_cases atOther : entry.1 = other
        · simp [replace, atOther, Ne.symm distinct]
        · simp [replace, atKey, atOther, inductionHypothesis]

/-- A key that is added goes where it would go whatever the values of the others. -/
theorem replace_place_of_ne (members : Keyed α) (distinct : key ≠ other) (first second : α) :
    replace (place members key first) other second =
      place (replace members other second) key first := by
  induction members with
  | nil => simp [place, replace, distinct]
  | cons entry rest inductionHypothesis =>
      by_cases atOther : entry.1 = other
      · by_cases before : key < other
        · simp [place, replace, atOther, before, distinct]
        · simp [place, replace, atOther, before]
      · by_cases before : key < entry.1
        · simp [place, replace, atOther, before, distinct]
        · simp [place, replace, atOther, before, inductionHypothesis]

theorem place_comm_of_lt (members : Keyed α) (less : key < other) (first second : α) :
    place (place members key first) other second =
      place (place members other second) key first := by
  have notAfter : ¬ other < key := fun after =>
    String.lt_irrefl key (String.lt_trans less after)
  induction members with
  | nil => simp [place, less, notAfter]
  | cons entry rest inductionHypothesis =>
      by_cases before : key < entry.1
      · by_cases otherBefore : other < entry.1
        · simp [place, less, notAfter, before, otherBefore]
        · simp [place, notAfter, before, otherBefore]
      · have otherNotBefore : ¬ other < entry.1 := fun otherBefore =>
          before (String.lt_trans less otherBefore)
        simp [place, before, otherNotBefore, inductionHypothesis]

theorem place_comm (members : Keyed α) (distinct : key ≠ other) (first second : α) :
    place (place members key first) other second =
      place (place members other second) key first := by
  by_cases less : key < other
  · exact place_comm_of_lt members less first second
  · have greater : other < key :=
      Std.lt_of_le_of_ne (String.not_lt.mp less) (Ne.symm distinct)
    exact (place_comm_of_lt members greater second first).symm

/-- Writes under different keys commute, whether the keys are there already or not, and
whatever the order of the list. -/
theorem insert_comm (members : Keyed α) (distinct : key ≠ other) (first second : α) :
    insert (insert members key first) other second =
      insert (insert members other second) key first := by
  have otherHeld : contains (insert members key first) other = contains members other := by
    rw [contains, get?_insert_of_ne members first distinct, contains]
  have keyHeld : contains (insert members other second) key = contains members key := by
    rw [contains, get?_insert_of_ne members second distinct.symm, contains]
  rw [insert, otherHeld, insert.eq_def (insert members other second), keyHeld, insert, insert]
  cases contains members key with
  | true =>
      cases contains members other with
      | true => exact replace_comm members distinct first second
      | false => exact (replace_place_of_ne members distinct.symm second first).symm
  | false =>
      cases contains members other with
      | true => exact replace_place_of_ne members distinct first second
      | false => exact place_comm members distinct first second

theorem write_comm (members : Keyed α) (distinct : key ≠ other) (first second : Option α) :
    write (write members key first) other second =
      write (write members other second) key first := by
  cases first with
  | none => rfl
  | some first =>
      cases second with
      | none => rfl
      | some second => exact insert_comm members distinct first second

end Keyed

namespace Outcome

theorem merge_and_right_comm (verdict first second : Option Bool) :
    Option.merge and (Option.merge and verdict first) second =
      Option.merge and (Option.merge and verdict second) first := by
  cases verdict with
  | none => cases first <;> cases second <;> simp [Option.merge, Bool.and_comm]
  | some verdict =>
      cases first <;> cases second <;> simp [Option.merge, Bool.and_right_comm]

end Outcome

section Parts

variable {fields left right : List Field} {body after : Members} {outcome total : Outcome}

theorem verdict?_outcomeOfFields (path : String) :
    (outcomeOfFields fields body outcome).verdict? path =
      (storedFields fields).foldl
        (fun verdict field => Option.merge and verdict ((field.outcomeIn body).verdict? path))
        (outcome.verdict? path) := by
  rw [outcomeOfFields_eq_joined, Outcome.verdict?_joined, List.map_map, List.foldl_map]
  rfl

theorem failures_outcomeOfFields :
    (outcomeOfFields fields body outcome).failures = outcome.failures ++
      (storedFields fields).flatMap fun field => (field.outcomeIn body).failures := by
  rw [outcomeOfFields_eq_joined, Outcome.failures_joined, List.flatMap_map]

theorem passed_outcomeOfFields_perm (permuted : (storedFields left).Perm (storedFields right)) :
    (outcomeOfFields left body outcome).passed = (outcomeOfFields right body outcome).passed := by
  rw [Bool.eq_iff_iff, passed_outcomeOfFields, passed_outcomeOfFields]
  simp only [permuted.mem_iff]

theorem paths_outcomeOfFields_perm (permuted : (storedFields left).Perm (storedFields right)) :
    (outcomeOfFields left body outcome).paths = (outcomeOfFields right body outcome).paths := by
  apply Table.ext
  intro path
  change Outcome.verdict? _ path = Outcome.verdict? _ path
  rw [verdict?_outcomeOfFields, verdict?_outcomeOfFields]
  exact permuted.foldl_eq' (fun _ _ _ _ verdict => Outcome.merge_and_right_comm verdict _ _) _

/-- A run comes to an end when each field does on its own. -/
theorem validateFields_ok_iff (names : (fields.map fun field => field.name).Nodup)
    (outcome : Outcome) :
    (∃ after total, validateFields fields body outcome = ⟨after, .ok total⟩) ↔
      ∀ field ∈ storedFields fields, ∃ value part,
        field.settle (Keyed.get? body field.name) = ⟨value, .ok part⟩ := by
  constructor
  · intro ⟨after, total, ran⟩ field stored
    exact ⟨_, _, (validateFields_parts names ran).1 field stored⟩
  · intro settled
    exact validateFields_exists names settled outcome

end Parts

theorem Field.normalize_comm {first second : Field} (distinct : first.name ≠ second.name)
    (body : Members) :
    second.fieldShape.normalize (first.fieldShape.normalize body) =
      first.fieldShape.normalize (second.fieldShape.normalize body) := by
  simp only [Field.normalize_fieldShape]
  cases first.isPersisted with
  | false => rfl
  | true =>
      cases second.isPersisted with
      | false => rfl
      | true =>
          simp only [↓reduceIte]
          rw [Keyed.get?_write_of_ne body _ distinct, Keyed.get?_write_of_ne body _ distinct.symm]
          exact Keyed.write_comm body distinct _ _

theorem Field.outcome_validate (field : Field) (body : Members) :
    (field.validate body).outcome = field.outcomeIn body := by
  rw [Field.validate_eq_settle]
  rfl

namespace Schema

variable {left right : Schema} {body : Members}

theorem storedFields_perm (permuted : left.fields.Perm right.fields) :
    (storedFields left.fields).Perm (storedFields right.fields) :=
  permuted.filter _

theorem normalize_permuted (permuted : left.fields.Perm right.fields)
    (names : (left.fields.map fun field => field.name).Nodup) (body : Members) :
    left.shape.normalize body = right.shape.normalize body := by
  rw [Shape.normalize_eq, Shape.normalize_eq, shape_fields, shape_fields, List.foldl_map,
    List.foldl_map]
  refine permuted.foldl_eq' (fun field here other there edited => ?_) body
  by_cases equal : field.name = other.name
  · rw [List.inj_on_of_nodup_map names here there equal]
  · exact Field.normalize_comm equal edited

/-- The failures of a validation are those of its fields, as each finds them on its own, in the
order of declaration. -/
theorem failures_validate {schema : Schema} {after : Members} {outcome : Outcome}
    (names : (schema.fields.map fun field => field.name).Nodup)
    (validated : schema.validate body = ⟨after, .ok outcome⟩) :
    outcome.failures =
      (storedFields schema.fields).flatMap fun field => (field.validate body).outcome.failures := by
  rw [Schema.validate_eq] at validated
  rw [(validateFields_parts names validated).2.1, failures_outcomeOfFields]
  simp only [Field.outcome_validate]
  rfl

/-- Schemas that declare the same fields in different orders end with an outcome for the same
bodies, leave the same of a body, and find the same but for the order of the failures, which is
that of the fields. -/
theorem validate_permuted (permuted : left.fields.Perm right.fields)
    (names : (left.fields.map fun field => field.name).Nodup) (body : Members) :
    ((∃ after outcome, left.validate body = ⟨after, .ok outcome⟩) ↔
      ∃ after outcome, right.validate body = ⟨after, .ok outcome⟩) ∧
    ∀ after outcome edited total, left.validate body = ⟨after, .ok outcome⟩ →
      right.validate body = ⟨edited, .ok total⟩ →
      after = edited ∧ outcome.passed = total.passed ∧ outcome.paths = total.paths ∧
      outcome.failures.Perm total.failures ∧
      outcome.failures =
        (storedFields left.fields).flatMap (fun field => (field.validate body).outcome.failures) ∧
      total.failures =
        (storedFields right.fields).flatMap
          (fun field => (field.validate body).outcome.failures) := by
  have stored := storedFields_perm permuted
  have others : (right.fields.map fun field => field.name).Nodup :=
    (permuted.map _).nodup_iff.mp names
  constructor
  · simp only [Schema.validate_eq]
    rw [validateFields_ok_iff names, validateFields_ok_iff others]
    simp only [stored.mem_iff]
  · intro after outcome edited total first second
    have failures := failures_validate names first
    have same := failures_validate others second
    have edits := normalize_permuted permuted names body
    rw [← validate_normalizes first, ← validate_normalizes second] at edits
    rw [Schema.validate_eq] at first second
    obtain ⟨_, made, _⟩ := validateFields_parts names first
    obtain ⟨_, again, _⟩ := validateFields_parts others second
    refine ⟨edits, ?_, ?_, ?_, failures, same⟩
    · rw [made, again, passed_outcomeOfFields_perm stored]
    · rw [made, again, paths_outcomeOfFields_perm stored]
    · rw [failures, same]
      exact stored.flatMap_right _

end Schema

namespace Sample

/-- The second field has the name that is the path of the first item of the first field. -/
def tray : Schema where
  name := "Tray"
  version := 1
  fields :=
    [{ name := "cups", type := .number, isArray := true },
      { name := "cups[0]", type := .string, default := some (.text "blue") },
      { name := "handle", type := .boolean }]

def turnedTray : Schema := { tray with fields := tray.fields.reverse }

/-- One cup is no number, and there is no handle. -/
def brokenTray : Members := [("cups", .array [.text "none", .nat 2])]

end Sample

open Sample in
theorem Schema.validate_permuted_of_tray :
    (tray.fields.Perm turnedTray.fields ∧ (tray.fields.map fun field => field.name).Nodup) ∧
    (tray.validate brokenTray =
        ⟨(tray.validate brokenTray).edited, .ok (tray.validate brokenTray).outcome⟩ ∧
      turnedTray.validate brokenTray =
        ⟨(turnedTray.validate brokenTray).edited, .ok (turnedTray.validate brokenTray).outcome⟩) ∧
    (tray.validate brokenTray).edited = (turnedTray.validate brokenTray).edited ∧
    (tray.validate brokenTray).outcome.paths = (turnedTray.validate brokenTray).outcome.paths ∧
    (tray.validate brokenTray).outcome.verdict? "cups[0]" = some false ∧
    (tray.validate brokenTray).outcome.failures ≠
      (turnedTray.validate brokenTray).outcome.failures ∧
    (tray.validate brokenTray).outcome.failures.Perm
      (turnedTray.validate brokenTray).outcome.failures := by
  have permuted : tray.fields.Perm turnedTray.fields := (List.reverse_perm _).symm
  have names : (tray.fields.map fun field => field.name).Nodup := by decide
  have first : tray.validate brokenTray = _ := Examined.eq_of_ok (by decide +kernel)
  have second : turnedTray.validate brokenTray = _ := Examined.eq_of_ok (by decide +kernel)
  obtain ⟨edited, _, paths, failures, _⟩ :=
    (Schema.validate_permuted permuted names brokenTray).2 _ _ _ _ first second
  exact ⟨⟨permuted, names⟩, ⟨first, second⟩, edited, paths, by decide +kernel, by decide +kernel,
    failures⟩

end Schemata
