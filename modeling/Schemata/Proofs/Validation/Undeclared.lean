import Mathlib.Data.List.Forall2
import Schemata.Proofs.Validation.Conformance
namespace Schemata

/-! What a validation does not look at.

`Schema.Agrees` says that two bodies differ in nothing but members that no stored field names,
at any depth.  They are validated side by side, and each way to examine a value comes to one
verdict for both (`RunsAlike`).  Names may come twice in a schema here: what one field has
edited is examined by another then, so it has to go on agreeing not only for the schema that has
edited it but for every schema for which it has agreed before. -/

/-- A stored field of the schema has the name. -/
def Schema.Stores (schema : Schema) (name : String) : Prop :=
  ∃ field ∈ schema.fields, field.isPersisted = true ∧ field.name = name

mutual

/-- Bodies that hold under the name of each stored field what the field cannot tell apart. -/
inductive Schema.Agrees : Schema → Members → Members → Prop
  | intro {schema : Schema} {left right : Members}
      (fields : ∀ field ∈ schema.fields, field.isPersisted = true →
        Field.Agrees field (Keyed.get? left field.name) (Keyed.get? right field.name)) :
      Schema.Agrees schema left right

/-- What is held under the name of a field: the same, or documents that agree, one or a list
of them. -/
inductive Field.Agrees : Field → Option Value → Option Value → Prop
  | same {field : Field} {held : Option Value} : Field.Agrees field held held
  | document {field : Field} {inner : Schema} {left right : Value}
      (type : field.type = .subschema) (schema : field.schema = some inner)
      (agree : Schema.AgreesOn inner left right) : Field.Agrees field (some left) (some right)
  | documents {field : Field} {inner : Schema} {lefts rights : List Value}
      (type : field.type = .subschema) (schema : field.schema = some inner)
      (length : lefts.length = rights.length)
      (agree : ∀ (index : Nat) (left right : Value), lefts[index]? = some left →
        rights[index]? = some right → Schema.AgreesOn inner left right) :
      Field.Agrees field (some (.array lefts)) (some (.array rights))

/-- Single values: the same, or documents that agree. -/
inductive Schema.AgreesOn : Schema → Value → Value → Prop
  | same {schema : Schema} {value : Value} : Schema.AgreesOn schema value value
  | document {schema : Schema} {left right : Members} (agrees : Schema.Agrees schema left right) :
      Schema.AgreesOn schema (.object left) (.object right)

end

/-- An examination comes to the same verdict on both sides, and what it leaves of them agrees
for every viewer for whom they agreed before. -/
structure RunsAlike {viewer α : Type} (agree : viewer → α → α → Prop) (examine : α → Examined α)
    (left right : α) : Prop where
  verdict : (examine left).verdict = (examine right).verdict
  edited : ∀ eye, agree eye left right → agree eye (examine left).edited (examine right).edited

theorem RunsAlike.refl {viewer α : Type} {agree : viewer → α → α → Prop}
    (reflexive : ∀ eye value, agree eye value value) (examine : α → Examined α) (value : α) :
    RunsAlike agree examine value value :=
  ⟨rfl, fun eye _ => reflexive eye _⟩

/-- What leaves both values as they are needs to come to one verdict only. -/
theorem RunsAlike.of_unedited {viewer α : Type} {agree : viewer → α → α → Prop}
    {examine : α → Examined α} {left right : α} {verdict : Except ValidationFault Outcome}
    (first : examine left = ⟨left, verdict⟩) (second : examine right = ⟨right, verdict⟩) :
    RunsAlike agree examine left right := by
  refine ⟨by rw [first, second], fun eye agreed => ?_⟩
  rw [first, second]
  exact agreed

theorem examineItems_runsAlike {viewer : Type} {agree : viewer → Value → Value → Prop}
    {examine : String → Value → Examined Value} {listed : Value → Value → Prop}
    {lefts rights : List Value}
    (each : ∀ path ⦃left right⦄, listed left right → RunsAlike agree (examine path) left right)
    (items : List.Forall₂ listed lefts rights) (path : String) (position : Nat)
    (outcome : Outcome) :
    RunsAlike (fun eye => List.Forall₂ (agree eye))
      (fun items => examineItems examine path position items outcome) lefts rights := by
  induction items generalizing position outcome with
  | nil => exact ⟨rfl, fun eye agreed => agreed⟩
  | @cons left right lefts rights first rest inductionHypothesis =>
      obtain ⟨verdict, edited⟩ := each (itemPath path position) first
      cases judged : (examine (itemPath path position) left).verdict with
      | error fault =>
          rw [judged] at verdict
          refine ⟨by simp only [examineItems, judged, ← verdict], fun eye agreed => ?_⟩
          simp only [examineItems, judged, ← verdict]
          obtain ⟨here, later⟩ := List.forall₂_cons.mp agreed
          exact .cons (edited eye here) later
      | ok part =>
          rw [judged] at verdict
          obtain ⟨same, kept⟩ := inductionHypothesis (position + 1) (outcome.merge "" part)
          refine ⟨by simpa only [examineItems, judged, ← verdict, Examined.map] using same,
            fun eye agreed => ?_⟩
          simp only [examineItems, judged, ← verdict, Examined.map]
          obtain ⟨here, later⟩ := List.forall₂_cons.mp agreed
          exact .cons (edited eye here) (kept eye later)

theorem examineArray_runsAlike {viewer : Type} {agree : viewer → Value → Value → Prop}
    {examine : String → Value → Examined Value} {listed : Value → Value → Prop}
    {lefts rights : List Value}
    (each : ∀ path ⦃left right⦄, listed left right → RunsAlike agree (examine path) left right)
    (items : List.Forall₂ listed lefts rights) (path : String) :
    ∃ editedLeft editedRight verdict,
      examineArray examine path lefts = ⟨.array editedLeft, verdict⟩ ∧
      examineArray examine path rights = ⟨.array editedRight, verdict⟩ ∧
      ∀ eye, List.Forall₂ (agree eye) lefts rights →
        List.Forall₂ (agree eye) editedLeft editedRight := by
  obtain ⟨verdict, edited⟩ := examineItems_runsAlike each items path 0 .empty
  refine ⟨_, _, _, rfl, ?_, edited⟩
  rw [examineArray, verdict]

/-- What there is to show of a schema: it validates bodies that agree for it alike. -/
def Schema.Blind (schema : Schema) : Prop :=
  ∀ ⦃left right⦄, schema.Agrees left right → RunsAlike Schema.Agrees schema.validate left right

namespace Schema

variable {inner viewer : Schema} {left right : Members}

theorem agrees_iff :
    viewer.Agrees left right ↔ ∀ field ∈ storedFields viewer.fields,
      field.Agrees (Keyed.get? left field.name) (Keyed.get? right field.name) := by
  constructor
  · intro ⟨fields⟩ field stored
    obtain ⟨member, persisted⟩ := mem_storedFields.mp stored
    exact fields field member persisted
  · intro fields
    exact .intro fun field member persisted =>
      fields field (mem_storedFields.mpr ⟨member, persisted⟩)

/-- Only what is stored counts for whether bodies agree. -/
theorem agrees_of_stored (same : ∀ name, viewer.Stores name →
    Keyed.get? left name = Keyed.get? right name) : viewer.Agrees left right := by
  refine .intro fun field member persisted => ?_
  rw [same field.name ⟨field, member, persisted, rfl⟩]
  exact .same

theorem Blind.document (blind : inner.Blind) (path : String) {left right : Value}
    (agree : inner.AgreesOn left right) :
    RunsAlike AgreesOn (examineDocument inner.validate path) left right := by
  cases agree with
  | same => exact .refl (fun _ _ => .same) _ _
  | document agrees =>
      obtain ⟨verdict, edited⟩ := blind agrees
      refine ⟨by simp only [examineDocument, verdict], fun eye agreed => ?_⟩
      cases agreed with
      | same => exact .same
      | document agreed => exact .document (edited eye agreed)

end Schema

namespace Field

variable {field viewer : Field} {inner : Schema}

theorem agrees_object_iff {left right : Members} :
    viewer.Agrees (some (.object left)) (some (.object right)) ↔
      left = right ∨ ∃ inner, viewer.type = .subschema ∧ viewer.schema = some inner ∧
        inner.Agrees left right := by
  constructor
  · intro agreed
    cases agreed with
    | same => exact .inl rfl
    | document type schema agree =>
        cases agree with
        | same => exact .inl rfl
        | document agrees => exact .inr ⟨_, type, schema, agrees⟩
  · rintro (rfl | ⟨inner, type, schema, agrees⟩)
    · exact .same
    · exact .document type schema (.document agrees)

theorem agrees_array_iff {lefts rights : List Value} :
    viewer.Agrees (some (.array lefts)) (some (.array rights)) ↔
      lefts = rights ∨ ∃ inner, viewer.type = .subschema ∧ viewer.schema = some inner ∧
        List.Forall₂ inner.AgreesOn lefts rights := by
  constructor
  · intro agreed
    cases agreed with
    | same => exact .inl rfl
    | document type schema agree =>
        cases agree
        exact .inl rfl
    | documents type schema length agree =>
        have items := List.forall₂_iff_get.mpr ⟨length, fun index first second =>
          agree index _ _ (List.getElem?_eq_getElem first) (List.getElem?_eq_getElem second)⟩
        exact .inr ⟨_, type, schema, items⟩
  · rintro (rfl | ⟨inner, type, schema, items⟩)
    · exact .same
    · obtain ⟨length, agree⟩ := List.forall₂_iff_get.mp items
      refine .documents type schema length fun index left right first second => ?_
      obtain ⟨before, rfl⟩ := List.getElem?_eq_some_iff.mp first
      obtain ⟨after, rfl⟩ := List.getElem?_eq_some_iff.mp second
      exact agree index before after

theorem settle_document {value : Value} (type : field.type = .subschema)
    (schema : field.schema = some inner) (present : value.isNull = false) :
    field.settle (some value) = (field.examineNested inner.validate value).map some := by
  rw [settle, schema, Option.map_some, FieldRule.settle_nested type,
    FieldRule.settleBy_of_value (FieldRule.defaulted_of_value present) present]

theorem settle_objects_runsAlike (type : field.type = .subschema)
    (schema : field.schema = some inner) (blind : inner.Blind) {left right : Members}
    (agrees : inner.Agrees left right) :
    RunsAlike Agrees field.settle (some (.object left)) (some (.object right)) := by
  cases declared : field.isArray with
  | true =>
      have kept : ∀ members, field.settle (some (.object members)) = ⟨some (.object members),
          .ok (.ofFailure field.name s!"{field.name} must be an array")⟩ := by
        intro members
        rw [settle_document type schema rfl]
        simp only [FieldRule.examineNested, declared, ↓reduceIte, Examined.map]
      exact .of_unedited (kept left) (kept right)
  | false =>
      obtain ⟨verdict, edited⟩ := blind agrees
      have made : ∀ members, field.settle (some (.object members)) =
          (examineDocument inner.validate field.name (.object members)).map some := by
        intro members
        rw [settle_document type schema rfl, FieldRule.examineNested_single declared rfl]
      refine ⟨by simp only [made, Examined.map, examineDocument, verdict], fun eye agreed => ?_⟩
      simp only [made, Examined.map, examineDocument]
      rcases agrees_object_iff.mp agreed with rfl | ⟨_, itsType, itsSchema, agreed⟩
      · exact .same
      · exact agrees_object_iff.mpr (.inr ⟨_, itsType, itsSchema, edited _ agreed⟩)

theorem settle_arrays_runsAlike (type : field.type = .subschema)
    (schema : field.schema = some inner) (blind : inner.Blind) {lefts rights : List Value}
    (items : List.Forall₂ inner.AgreesOn lefts rights) :
    RunsAlike Agrees field.settle (some (.array lefts)) (some (.array rights)) := by
  cases declared : field.isArray with
  | true =>
      obtain ⟨editedLeft, editedRight, verdict, first, second, edited⟩ :=
        examineArray_runsAlike (fun path _ _ agree => blind.document path agree) items field.name
      have made : ∀ items, field.settle (some (.array items)) =
          (examineArray (examineDocument inner.validate) field.name items).map some := by
        intro items
        rw [settle_document type schema rfl, FieldRule.examineNested_array declared]
      refine ⟨by simp only [made, Examined.map, first, second], fun eye agreed => ?_⟩
      simp only [made, Examined.map, first, second]
      rcases agrees_array_iff.mp agreed with rfl | ⟨_, itsType, itsSchema, agreed⟩
      · rw [first, Examined.mk.injEq, Value.array.injEq] at second
        rw [second.1]
        exact .same
      · exact agrees_array_iff.mpr (.inr ⟨_, itsType, itsSchema, edited _ agreed⟩)
  | false =>
      have kept : ∀ items, field.settle (some (.array items)) = ⟨some (.array items),
          .ok (.ofFailure field.name s!"{field.name} must not be an array")⟩ := by
        intro items
        rw [settle_document type schema rfl]
        simp only [FieldRule.examineNested, declared, Bool.false_eq_true, ↓reduceIte,
          Examined.map]
      exact .of_unedited (kept lefts) (kept rights)

/-- The viewers are all fields, so also those that look at what this one has left. -/
theorem settle_runsAlike (nested : ∀ inner, field.schema = some inner → inner.Blind)
    {left right : Option Value} (agrees : field.Agrees left right) :
    RunsAlike Agrees field.settle left right := by
  cases agrees with
  | same => exact .refl (fun _ _ => .same) _ _
  | document type schema agree =>
      cases agree with
      | same => exact .refl (fun _ _ => .same) _ _
      | document agrees =>
          exact settle_objects_runsAlike type schema (nested _ schema) agrees
  | documents type schema length agree =>
      rcases agrees_array_iff.mp (.documents type schema length agree) with
        rfl | ⟨inner, type, schema, items⟩
      · exact .refl (fun _ _ => .same) _ _
      · exact settle_arrays_runsAlike type schema (nested inner schema) items

/-- The bodies hold what the field cannot tell apart. -/
def AgreesIn (field : Field) (left right : Members) : Prop :=
  field.Agrees (Keyed.get? left field.name) (Keyed.get? right field.name)

theorem get?_edited_validate_self (field : Field) (body : Members) :
    Keyed.get? (field.validate body).edited field.name =
      (field.settle (Keyed.get? body field.name)).edited := by
  rw [Field.validate_eq_settle, Examined.map]
  exact Keyed.get?_write_self settle_eq_none

theorem get?_edited_validate_of_ne {key : String} (other : field.name ≠ key) (body : Members) :
    Keyed.get? (field.validate body).edited key = Keyed.get? body key := by
  rw [Field.validate_eq_settle, Examined.map]
  exact Keyed.get?_write_of_ne body _ other

theorem validate_runsAlike (nested : ∀ inner, field.schema = some inner → inner.Blind)
    {left right : Members} (agrees : field.AgreesIn left right) :
    RunsAlike AgreesIn field.validate left right := by
  obtain ⟨verdict, edited⟩ := settle_runsAlike nested agrees
  refine ⟨?_, fun eye agreed => ?_⟩
  · simpa only [Field.validate_eq_settle, Examined.map] using verdict
  · by_cases same : field.name = eye.name
    · rw [AgreesIn, ← same, get?_edited_validate_self, get?_edited_validate_self]
      rw [AgreesIn, ← same] at agreed
      exact edited eye agreed
    · rw [AgreesIn, get?_edited_validate_of_ne same, get?_edited_validate_of_ne same]
      exact agreed

end Field

theorem validateFields_runsAlike {fields : List Field} {left right : Members}
    (nested : ∀ field ∈ fields, ∀ inner, field.schema = some inner → inner.Blind)
    (agree : ∀ field ∈ storedFields fields, field.AgreesIn left right) (outcome : Outcome) :
    RunsAlike Field.AgreesIn (fun body => validateFields fields body outcome) left right := by
  induction fields generalizing left right outcome with
  | nil =>
      simp only [validateFields]
      exact ⟨rfl, fun _ agreed => agreed⟩
  | cons field rest inductionHypothesis =>
      obtain ⟨here, others⟩ := List.forall_mem_cons.mp nested
      rw [storedFields_cons] at agree
      cases persisted : field.isPersisted with
      | false =>
          simp only [persisted, Bool.false_eq_true, ↓reduceIte] at agree
          simpa only [validateFields, persisted, Bool.false_eq_true, ↓reduceIte] using
            inductionHypothesis others agree outcome
      | true =>
          simp only [persisted, ↓reduceIte] at agree
          obtain ⟨agrees, agree⟩ := List.forall_mem_cons.mp agree
          obtain ⟨verdict, edited⟩ := Field.validate_runsAlike here agrees
          simp only [validateFields, persisted, ↓reduceIte]
          cases first : (field.validate left).verdict with
          | error fault =>
              rw [first] at verdict
              refine ⟨by simp only [first, ← verdict], fun eye agreed => ?_⟩
              simp only [first, ← verdict]
              exact edited eye agreed
          | ok part =>
              rw [first] at verdict
              have later := inductionHypothesis others
                (fun other stored => edited other (agree other stored)) (outcome.merge "" part)
              refine ⟨by simpa only [first, ← verdict] using later.verdict, fun eye agreed => ?_⟩
              simpa only [first, ← verdict] using later.edited eye (edited eye agreed)

theorem Schema.blind (schema : Schema) : schema.Blind := by
  induction schema using Schema.induction with
  | step schema inductionHypothesis =>
      intro left right agrees
      obtain ⟨verdict, edited⟩ :=
        validateFields_runsAlike inductionHypothesis (agrees_iff.mp agrees) .empty
      simp only [← Schema.validate_eq] at verdict edited
      exact ⟨verdict, fun viewer agreed => agrees_iff.mpr fun field stored =>
        edited field (agrees_iff.mp agreed field stored)⟩

theorem Schema.get?_edited_validate {schema : Schema} {key : String}
    (undeclared : ¬ schema.Stores key) (body : Members) :
    Keyed.get? (schema.validate body).edited key = Keyed.get? body key := by
  rw [Schema.validate_eq]
  refine get?_edited_validateFields rfl (fun field member named => ?_) .empty
  have calculated : field.type = .calculated := by
    apply Classical.byContradiction
    intro other
    exact undeclared ⟨field, member, decide_eq_true other, named⟩
  simp only [Field.settle, FieldRule.settle, calculated]

/-- Bodies that agree on what the stored fields of a schema name, in themselves and in the
documents that they hold, are validated with one verdict, paths and messages or fault, and agree
afterwards.  What no stored field names stays as it is in each of them, and a body that differs
from them in nothing else has the same verdict. -/
theorem Schema.validate_undeclared {schema : Schema} {left right : Members}
    (agrees : schema.Agrees left right) :
    (schema.validate left).verdict = (schema.validate right).verdict ∧
    schema.Agrees (schema.validate left).edited (schema.validate right).edited ∧
    (∀ key, ¬ schema.Stores key →
      Keyed.get? (schema.validate left).edited key = Keyed.get? left key ∧
      Keyed.get? (schema.validate right).edited key = Keyed.get? right key) ∧
    ∀ other : Members, (∀ name, schema.Stores name → Keyed.get? left name = Keyed.get? other name) →
      (schema.validate other).verdict = (schema.validate left).verdict := by
  obtain ⟨verdict, edited⟩ := schema.blind agrees
  refine ⟨verdict, edited schema agrees, fun key undeclared => ?_, fun other same => ?_⟩
  · exact ⟨get?_edited_validate undeclared left, get?_edited_validate undeclared right⟩
  · exact (schema.blind (agrees_of_stored same)).verdict.symm

namespace Sample

def player : Schema where
  name := "Player"
  version := 1
  fields :=
    [{ name := "nick", type := .string }, { name := "rank", type := .calculated }]

def team : Schema where
  name := "Team"
  version := 1
  fields :=
    [{ name := "motto", type := .string, default := some (.text "none") },
      { name := "players", type := .subschema, isArray := true, schema := some player },
      { name := "size", type := .calculated }]

/-- Two players, one of whom has no nickname. -/
def duo : Members :=
  [("players", .array [.object [("nick", .text "Ann")], .object []])]

/-- The same two, with a rank and a size, which are calculated, and with notes. -/
def annotatedDuo : Members :=
  [("note", .text "new"),
    ("players", .array [.object [("nick", .text "Ann"), ("rank", .nat 3)],
      .object [("note", .array [])]]),
    ("size", .nat 7)]

theorem duo_agrees : team.Agrees duo annotatedDuo := by
  have players : List.Forall₂ player.AgreesOn
      [.object [("nick", .text "Ann")], .object []]
      [.object [("nick", .text "Ann"), ("rank", .nat 3)], .object [("note", .array [])]] := by
    refine .cons (.document (Schema.agrees_of_stored ?_))
      (.cons (.document (Schema.agrees_of_stored ?_)) .nil)
    all_goals
      intro name ⟨field, member, persisted, named⟩
      simp only [player, List.mem_cons, List.not_mem_nil, or_false] at member
      rcases member with rfl | rfl
      · subst named
        rfl
      · simp [FieldRule.isPersisted, FieldType.isPersisted] at persisted
  refine .intro fun field member persisted => ?_
  simp only [team, List.mem_cons, List.not_mem_nil, or_false] at member
  rcases member with rfl | rfl | rfl
  · exact .same
  · exact Field.agrees_array_iff.mpr (.inr ⟨player, rfl, rfl, players⟩)
  · simp [FieldRule.isPersisted, FieldType.isPersisted] at persisted

end Sample

open Sample in
theorem Schema.validate_undeclared_of_duo :
    (team.Agrees duo annotatedDuo ∧ ¬ team.Stores "size") ∧
    (team.validate duo).verdict = (team.validate annotatedDuo).verdict ∧
    (team.validate duo).outcome.failures = [⟨"players[1].nick", "missing field nick"⟩] ∧
    Keyed.get? (team.validate annotatedDuo).edited "size" = some (.nat 7) := by
  have undeclared : ¬ team.Stores "size" := by
    intro ⟨field, member, persisted, named⟩
    simp only [team, List.mem_cons, List.not_mem_nil, or_false] at member
    rcases member with rfl | rfl | rfl
    · simp at named
    · simp at named
    · simp [FieldRule.isPersisted, FieldType.isPersisted] at persisted
  obtain ⟨verdict, _, kept, _⟩ := Schema.validate_undeclared duo_agrees
  exact ⟨⟨duo_agrees, undeclared⟩, verdict, by decide +kernel, (kept "size" undeclared).2⟩

end Schemata
