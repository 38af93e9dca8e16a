import Mathlib.Data.List.Induction
import Schemata.Proofs.Document.Tags
namespace Schemata

/-! Assignments to a document, one after the other.

An assignment writes under its own name, where the schema has a field that is stored; else it
fails and leaves the document as it is.  So of all the assignments to a name the last decides,
and what a sequence of them leaves is known key by key (`Document.assignAll_local`). -/

/-- A value for a name, or none to remove what is there. -/
structure Assignment where
  name : String
  value : Option Value

/-- The field that is assigned under a name, if there is one that can be. -/
def Schema.assignable? (schema : Schema) (name : String) : Option Field :=
  (schema.fields.find? fun field => field.name = name).filter fun field =>
    field.type ≠ .calculated

/-- The field of a name whose value the body implies. -/
def Schema.calculated? (schema : Schema) (name : String) : Option Field :=
  (schema.fields.find? fun field => field.name = name).filter fun field =>
    field.type = .calculated

namespace Document

variable {document : Document} {schema : Schema} {key : String}

/-- The document after an assignment, which may have failed. -/
def assign (document : Document) (assignment : Assignment) : Document :=
  document.after (.set assignment.name assignment.value)

def assignAll (document : Document) (assignments : List Assignment) : Document :=
  assignments.foldl assign document

/-- What the last assignment to a key leaves there: what the formatter of the field makes of the
value, the value itself where there is no formatter, or nothing.  There is an answer provided
that assignments to the key succeed and that there is one. -/
def lastWritten? (schema : Schema) (key : String) (assignments : List Assignment) :
    Option (Option Value) :=
  (schema.assignable? key).bind fun field =>
    (assignments.reverse.find? fun assignment => assignment.name = key).map fun last =>
      last.value.map fun value =>
        match field.formatter with
        | some formatter => formatter.run value
        | none => value

theorem assignAll_concat (document : Document) (assignments : List Assignment)
    (last : Assignment) :
    document.assignAll (assignments ++ [last]) = (document.assignAll assignments).assign last := by
  rw [assignAll, List.foldl_append]
  rfl

theorem assignable?_eq (schema : Schema) (name : String) :
    schema.assignable? name = (schema.field? name).filter fun field => field.isPersisted := rfl

theorem calculated?_eq (schema : Schema) (name : String) :
    schema.calculated? name =
      (schema.field? name).filter fun field => field.type = .calculated := rfl

theorem assignable?_eq_some {field : Field} (found : schema.assignable? key = some field) :
    schema.field? key = some field ∧ field.isPersisted = true ∧ field.name = key := by
  obtain ⟨declared, persisted⟩ := Option.filter_eq_some_iff.mp found
  exact ⟨declared, persisted, by simpa using List.find?_some declared⟩

/-- The answer to an assignment, which the schema alone decides. -/
theorem set_eq (document : Document) (name : String) (value : Option Value) :
    document.set name value =
      match document.schema.assignable? name, document.schema.calculated? name with
      | some _, _ => .ok (document.assign ⟨name, value⟩)
      | none, some _ => .error (.readOnlyField name)
      | none, none => .error (.unknownField document.schema.name name) := by
  simp only [assign, after, set, assignable?_eq, calculated?_eq]
  cases document.schema.field? name with
  | none => rfl
  | some field =>
      by_cases calculated : field.type = .calculated
      · simp [FieldRule.isPersisted, FieldType.isPersisted, calculated, Option.filter]
      · simp [FieldRule.isPersisted, FieldType.isPersisted, calculated, Option.filter,
          Except.toOption]

theorem assign_of_refused {assignment : Assignment}
    (refused : document.schema.assignable? assignment.name = none) :
    document.assign assignment = document := by
  rcases document.after_set assignment.name assignment.value with
    kept | ⟨field, found, _, persisted, _⟩
  · exact kept
  · simp [assignable?_eq, found, persisted, Option.filter] at refused

theorem assign_of_field {assignment : Assignment} {field : Field}
    (found : document.schema.assignable? assignment.name = some field) :
    document.assign assignment =
      { document with body := assigned document.body field.toFieldRule assignment.value } := by
  obtain ⟨declared, persisted, _⟩ := assignable?_eq_some found
  simp only [assign, after, set, declared, persisted, if_true, Except.toOption, Option.getD_some]

/-- An assignment changes nothing but the body. -/
theorem assign_frame (document : Document) (assignment : Assignment) :
    (document.assign assignment).schema = document.schema ∧
      (document.assign assignment).state = document.state ∧
      (document.assign assignment).outcome = document.outcome := by
  cases found : document.schema.assignable? assignment.name with
  | none =>
      rw [assign_of_refused found]
      exact ⟨rfl, rfl, rfl⟩
  | some field =>
      rw [assign_of_field found]
      exact ⟨rfl, rfl, rfl⟩

theorem get?_assign_of_ne {assignment : Assignment} (other : assignment.name ≠ key) :
    (document.assign assignment).body.get? key = document.body.get? key := by
  cases found : document.schema.assignable? assignment.name with
  | none => rw [assign_of_refused found]
  | some field =>
      have named : field.name = assignment.name := (assignable?_eq_some found).2.2
      rw [assign_of_field found]
      exact get?_assigned_of_ne (named ▸ other)

theorem get?_assign_self {assignment : Assignment} {field : Field}
    (found : document.schema.assignable? assignment.name = some field) :
    (document.assign assignment).body.get? assignment.name =
      assignment.value.map (formatted field.toFieldRule) := by
  have named : field.name = assignment.name := (assignable?_eq_some found).2.2
  rw [assign_of_field found, ← named]
  exact get?_assigned_self _ _ _

theorem assignAll_frame (document : Document) (assignments : List Assignment) :
    (document.assignAll assignments).schema = document.schema ∧
      (document.assignAll assignments).state = document.state ∧
      (document.assignAll assignments).outcome = document.outcome := by
  induction assignments generalizing document with
  | nil => exact ⟨rfl, rfl, rfl⟩
  | cons first rest inductionHypothesis =>
      obtain ⟨schema, state, outcome⟩ := inductionHypothesis (document.assign first)
      obtain ⟨same, kept, recorded⟩ := document.assign_frame first
      exact ⟨schema.trans same, state.trans kept, outcome.trans recorded⟩

section LastWritten

variable {assignments : List Assignment} {last : Assignment}

theorem lastWritten?_concat_of_ne (other : last.name ≠ key) :
    lastWritten? schema key (assignments ++ [last]) = lastWritten? schema key assignments := by
  simp only [lastWritten?, List.reverse_append, List.reverse_singleton, List.singleton_append]
  rw [List.find?_cons_of_neg (by simpa using other)]

theorem lastWritten?_concat_self {field : Field}
    (found : schema.assignable? last.name = some field) :
    lastWritten? schema last.name (assignments ++ [last]) =
      some (last.value.map (formatted field.toFieldRule)) := by
  simp only [lastWritten?, found, Option.bind_some, List.reverse_append, List.reverse_singleton,
    List.singleton_append]
  rw [List.find?_cons_of_pos (by simp), Option.map_some]
  rfl

end LastWritten

/-- A key has what the last assignment to it leaves there, and what it had before if there
is none that succeeds. -/
theorem get?_assignAll (document : Document) (assignments : List Assignment) (key : String) :
    (document.assignAll assignments).body.get? key =
      (lastWritten? document.schema key assignments).getD (document.body.get? key) := by
  induction assignments using List.reverseRecOn with
  | nil => simp [assignAll, lastWritten?]
  | append_singleton earlier last inductionHypothesis =>
      have same : (document.assignAll earlier).schema = document.schema :=
        (document.assignAll_frame earlier).1
      rw [assignAll_concat]
      by_cases named : last.name = key
      · subst named
        cases found : document.schema.assignable? last.name with
        | none =>
            rw [assign_of_refused (same ▸ found), inductionHypothesis]
            simp [lastWritten?, found]
        | some field =>
            rw [get?_assign_self (same ▸ found), lastWritten?_concat_self found]
            rfl
      · rw [get?_assign_of_ne named, inductionHypothesis, lastWritten?_concat_of_ne named]

/-- Assignments that fail can as well be left out. -/
theorem assignAll_filter (document : Document) (assignments : List Assignment) :
    document.assignAll (assignments.filter fun assignment =>
      (document.schema.assignable? assignment.name).isSome) = document.assignAll assignments := by
  induction assignments generalizing document with
  | nil => rfl
  | cons first rest inductionHypothesis =>
      have same := (document.assign_frame first).1
      have later := inductionHypothesis (document.assign first)
      rw [same] at later
      cases found : document.schema.assignable? first.name with
      | none =>
          rw [List.filter_cons_of_neg (by simp [found])]
          rw [assign_of_refused found] at later
          rw [later, assignAll, assignAll, List.foldl_cons, assign_of_refused found]
      | some field =>
          rw [List.filter_cons_of_pos (by simp [found])]
          exact later

/-- A field that is calculated is computed from the whole body, and any other name has what
the body holds under it. -/
theorem get?_eq (document : Document) (name : String) :
    document.get? name =
      match document.schema.calculated? name with
      | some field => field.calculator.map fun calculator => calculator.run document.body
      | none => document.body.get? name := by
  rw [get?, calculated?_eq]
  cases document.schema.field? name with
  | none => rfl
  | some field =>
      by_cases calculated : field.type = .calculated
      · simp [FieldRule.isPersisted, FieldType.isPersisted, calculated, Option.filter]
      · simp [FieldRule.isPersisted, FieldType.isPersisted, calculated, Option.filter]

/-- What a sequence of assignments makes of a document, however many of them fail.  Each key
has what the last that succeeds leaves there, and nothing else has changed, so those that fail
can be left out.  An assignment fails exactly where the field of its name is calculated or
there is none.  At the end, as at every point before, a name is read from the body, and a
calculated field is computed from the body as it is then. -/
theorem assignAll_local (document : Document) (assignments : List Assignment) :
    let changed := document.assignAll assignments
    (changed.schema = document.schema ∧ changed.state = document.state ∧
      changed.outcome = document.outcome) ∧
    (∀ key, changed.body.get? key =
      (lastWritten? document.schema key assignments).getD (document.body.get? key)) ∧
    changed = document.assignAll (assignments.filter fun assignment =>
      (document.schema.assignable? assignment.name).isSome) ∧
    (∀ name value, changed.set name value =
      match document.schema.assignable? name, document.schema.calculated? name with
      | some _, _ => .ok (document.assignAll (assignments ++ [⟨name, value⟩]))
      | none, some _ => .error (.readOnlyField name)
      | none, none => .error (.unknownField document.schema.name name)) ∧
    ∀ name, changed.get? name =
      match document.schema.calculated? name with
      | some field => field.calculator.map fun calculator => calculator.run changed.body
      | none => (lastWritten? document.schema name assignments).getD
          (document.body.get? name) := by
  intro changed
  have frame := document.assignAll_frame assignments
  have held := document.get?_assignAll assignments
  refine ⟨frame, held, (document.assignAll_filter assignments).symm, ?_, ?_⟩
  · intro name value
    rw [set_eq, frame.1, ← assignAll_concat]
  · intro name
    rw [get?_eq, frame.1, held]

end Document

namespace Sample

/-- A purse has an owner, who is written with a title, and what is in it is counted. -/
def purse : Schema where
  name := "Purse"
  version := 1
  fields :=
    [{ name := "coins", type := .number, required := false },
      { name := "count", type := .calculated,
        calculator := some ⟨"size", fun body => .nat body.size⟩ },
      { name := "owner", type := .string,
        formatter := some ⟨"titled", fun value => (value.text?.map fun name =>
          .text ("Dame " ++ name)).getD value⟩ }]

def fullPurse : Document :=
  ⟨purse, .ofList [("coins", .nat 3), ("mark", .text "x"), ("owner", .text "Ada")], .versioned 1,
    .empty⟩

/-- The coins are spent, the purse changes hands twice, and two assignments fail. -/
def spending : List Assignment :=
  [⟨"owner", some (.text "Bea")⟩, ⟨"coins", none⟩, ⟨"count", some (.nat 9)⟩,
    ⟨"owner", some (.text "Cleo")⟩, ⟨"mark", none⟩]

end Sample

open Sample in
theorem Document.assignAll_local_of_purse :
    let changed := fullPurse.assignAll spending
    changed.body.get? "owner" = some (.text "Dame Cleo") ∧
    changed.body.get? "coins" = none ∧ changed.body.get? "mark" = some (.text "x") ∧
    changed.get? "count" = some (.nat 2) ∧
    changed.set "count" (some (.nat 9)) = .error (.readOnlyField "count") ∧
    changed.set "mark" none = .error (.unknownField "Purse" "mark") ∧
    changed.state = .versioned 1 := by
  obtain ⟨⟨_, state, _⟩, held, _, answered, read⟩ := fullPurse.assignAll_local spending
  exact ⟨held "owner", held "coins", held "mark", read "count", answered "count" _,
    answered "mark" _, state⟩

end Schemata
