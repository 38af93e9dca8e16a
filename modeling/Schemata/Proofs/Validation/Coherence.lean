import Schemata.Proofs.Validation.Conformance
namespace Schemata

/-! The three accounts of an outcome, which is whether all has passed, what has failed, and a
verdict for each path.

They agree after every validation.  `Outcome.Coherent` is kept by each operation on outcomes,
and `Outcome.Heads` is what an examination adds: its outcome speaks of the path of its value
and of what lies below, and says of that path what it says of all. -/

/-- An outcome has passed when nothing has failed and when no visited path has; the path of a
failure has not passed. -/
structure Outcome.Coherent (outcome : Outcome) : Prop where
  failures : outcome.passed = true ↔ outcome.failures = []
  verdicts : outcome.passed = true ↔
    ∀ path verdict, outcome.verdict? path = some verdict → verdict = true
  failed : ∀ failure ∈ outcome.failures, outcome.verdict? failure.path = some false

/-- Every path that was visited continues this one. -/
structure Outcome.Below (outcome : Outcome) (path : String) : Prop extends outcome.Coherent where
  within : ∀ other, (outcome.verdict? other).isSome = true → ∃ rest, other = path ++ rest

structure Outcome.Heads (outcome : Outcome) (path : String) : Prop extends
    outcome.Below path where
  own : outcome.verdict? path = some outcome.passed

theorem Verdicts.merge_eq_false_iff (left right : Option Bool) :
    Option.merge and left right = some false ↔ left = some false ∨ right = some false := by
  cases left with
  | none => simp
  | some left =>
      cases right with
      | none => simp
      | some right => cases left <;> simp [Option.merge]

theorem Verdicts.isSome_merge (left right : Option Bool) :
    (Option.merge and left right).isSome = true ↔
      left.isSome = true ∨ right.isSome = true := by
  rw [Option.isSome_merge, Bool.or_eq_true]

namespace Outcome

variable {outcome part : Outcome} {path other mount : String} {ok : Bool}

theorem all_verdicts_iff :
    (∀ path verdict, outcome.verdict? path = some verdict → verdict = true) ↔
      ∀ path, outcome.verdict? path ≠ some false := by
  constructor
  · intro all path refused
    simpa using all path false refused
  · intro clean path verdict found
    cases verdict with
    | false => exact absurd found (clean path)
    | true => rfl

section Joined

variable (Holds : Option Bool → Prop)
  (joins : ∀ left right, Holds (Option.merge and left right) ↔ Holds left ∨ Holds right)

include joins

/-- What holds of joined verdicts when it holds of one of them holds after a note of the path
when it held before or holds of what is noted. -/
theorem verdict?_note_iff :
    Holds ((outcome.paths.note path ok).get? other) ↔
      Holds (outcome.verdict? other) ∨ (path = other ∧ Holds (some ok)) := by
  rw [Verdicts.get?_note]
  split
  · rename_i same
    simp [joins, same, verdict?]
  · rename_i distinct
    simp [distinct, verdict?]

theorem verdict?_merge_iff :
    Holds ((outcome.merge mount part).verdict? path) ↔
      Holds (outcome.verdict? path) ∨
        ∃ rest, mount ++ rest = path ∧ Holds (part.verdict? rest) := by
  by_cases below : ∃ rest, mount ++ rest = path
  · obtain ⟨rest, rfl⟩ := below
    rw [verdict?_merge, joins]
    simp [String.append_right_inj]
  · rw [verdict?_merge_of_foreign fun rest same => below ⟨rest, same⟩]
    simp only [not_exists] at below
    simp [below]

end Joined

theorem verdict?_note_eq_false_iff :
    (outcome.paths.note path ok).get? other = some false ↔
      outcome.verdict? other = some false ∨ (path = other ∧ ok = false) := by
  simpa using verdict?_note_iff (· = some false) Verdicts.merge_eq_false_iff

theorem isSome_verdict?_note :
    ((outcome.paths.note path ok).get? other).isSome = true ↔
      (outcome.verdict? other).isSome = true ∨ path = other := by
  simpa using verdict?_note_iff (Option.isSome · = true) Verdicts.isSome_merge

theorem verdict?_merge_eq_false_iff :
    (outcome.merge mount part).verdict? path = some false ↔
      outcome.verdict? path = some false ∨
        ∃ rest, mount ++ rest = path ∧ part.verdict? rest = some false :=
  verdict?_merge_iff (· = some false) Verdicts.merge_eq_false_iff

theorem isSome_verdict?_merge :
    ((outcome.merge mount part).verdict? path).isSome = true ↔
      (outcome.verdict? path).isSome = true ∨
        ∃ rest, mount ++ rest = path ∧ (part.verdict? rest).isSome = true :=
  verdict?_merge_iff (Option.isSome · = true) Verdicts.isSome_merge

namespace Coherent

theorem empty : Outcome.empty.Coherent where
  failures := by simp [Outcome.empty]
  verdicts := by simp [Outcome.empty, verdict?, Table.get?, Table.empty]
  failed := by simp [Outcome.empty]

theorem passed_iff (coherent : outcome.Coherent) :
    outcome.passed = true ↔ ∀ path, outcome.verdict? path ≠ some false :=
  coherent.verdicts.trans all_verdicts_iff

/-- A path may be marked as passed at any time, and as failed once something has failed. -/
theorem mark (coherent : outcome.Coherent) (agrees : outcome.passed = true → ok = true)
    (path : String) : (outcome.mark path ok).Coherent := by
  have same : (outcome.mark path ok).passed = outcome.passed := by
    rw [passed_mark]
    cases passed : outcome.passed with
    | false => rfl
    | true => rw [agrees passed, Bool.and_self]
  refine ⟨same ▸ coherent.failures, ?_, fun failure member => ?_⟩
  · rw [same, all_verdicts_iff]
    constructor
    · intro passed other refused
      rcases verdict?_note_eq_false_iff.mp refused with before | ⟨_, now⟩
      · exact coherent.passed_iff.mp passed other before
      · simp [agrees passed] at now
    · intro clean
      exact coherent.passed_iff.mpr fun other before =>
        clean other (verdict?_note_eq_false_iff.mpr (.inl before))
  · exact verdict?_note_eq_false_iff.mpr (.inl (coherent.failed failure member))

theorem pass (coherent : outcome.Coherent) (path : String) : (outcome.pass path).Coherent := by
  have marked : (outcome.mark path true).Coherent := coherent.mark (fun _ => rfl) path
  rwa [Outcome.mark, Bool.and_true] at marked

theorem fail (coherent : outcome.Coherent) (path message : String) :
    (outcome.fail path message).Coherent := by
  have refused : (outcome.fail path message).verdict? path = some false :=
    verdict?_note_eq_false_iff.mpr (.inr ⟨rfl, rfl⟩)
  refine ⟨by simp [Outcome.fail], ?_, fun failure member => ?_⟩
  · rw [all_verdicts_iff]
    exact iff_of_false (by simp [Outcome.fail]) fun clean => clean path refused
  · rcases List.mem_append.mp member with before | now
    · exact verdict?_note_eq_false_iff.mpr (.inl (coherent.failed failure before))
    · rw [List.mem_singleton.mp now]
      exact refused

theorem merge (coherent : outcome.Coherent) (part_coherent : part.Coherent) (mount : String) :
    (outcome.merge mount part).Coherent := by
  refine ⟨?_, ?_, fun failure member => ?_⟩
  · rw [passed_merge, Bool.and_eq_true, coherent.failures, part_coherent.failures]
    simp [Outcome.merge]
  · rw [passed_merge, Bool.and_eq_true, coherent.passed_iff, part_coherent.passed_iff,
      all_verdicts_iff]
    constructor
    · rintro ⟨clean, part_clean⟩ path refused
      rcases verdict?_merge_eq_false_iff.mp refused with before | ⟨rest, _, below⟩
      · exact clean path before
      · exact part_clean rest below
    · intro clean
      exact ⟨fun path before => clean path (verdict?_merge_eq_false_iff.mpr (.inl before)),
        fun rest below => clean (mount ++ rest)
          (verdict?_merge_eq_false_iff.mpr (.inr ⟨rest, rfl, below⟩))⟩
  · rcases List.mem_append.mp member with before | later
    · exact verdict?_merge_eq_false_iff.mpr (.inl (coherent.failed failure before))
    · obtain ⟨below, inside, rfl⟩ := List.mem_map.mp later
      exact verdict?_merge_eq_false_iff.mpr
        (.inr ⟨below.path, rfl, part_coherent.failed below inside⟩)

end Coherent

namespace Below

theorem empty (path : String) : Outcome.empty.Below path where
  toCoherent := .empty
  within := by simp [Outcome.empty, verdict?, Table.get?, Table.empty]

theorem of_continued (below : outcome.Below other) (continued : ∃ rest, other = path ++ rest) :
    outcome.Below path where
  toCoherent := below.toCoherent
  within visited seen := by
    obtain ⟨first, rfl⟩ := continued
    obtain ⟨rest, rfl⟩ := below.within visited seen
    exact ⟨first ++ rest, String.append_assoc⟩

/-- What is mounted on a continuation of the path stays below it. -/
theorem merge (below : outcome.Below path) (coherent : part.Coherent)
    (inside : ∀ rest, (part.verdict? rest).isSome = true → ∃ more, mount ++ rest = path ++ more) :
    (outcome.merge mount part).Below path where
  toCoherent := below.toCoherent.merge coherent mount
  within visited seen := by
    rcases isSome_verdict?_merge.mp seen with before | ⟨rest, rfl, there⟩
    · exact below.within visited before
    · exact inside rest there

/-- The verdict for a whole is that of all its parts, whatever its path was said to be. -/
theorem closed (below : outcome.Below path) : (outcome.closed path).Heads path where
  toCoherent := below.toCoherent.mark id path
  within visited seen := by
    rcases isSome_verdict?_note.mp seen with before | rfl
    · exact below.within visited before
    · exact ⟨"", String.append_empty.symm⟩
  own := by
    rw [passed_closed]
    cases passed : outcome.passed with
    | false =>
        rw [Outcome.closed, passed]
        exact verdict?_note_eq_false_iff.mpr (.inr ⟨rfl, rfl⟩)
    | true =>
        have all := below.verdicts.mp passed path
        rw [Outcome.closed, passed]
        change (outcome.paths.note path true).get? path = some true
        rw [Verdicts.get?_note_self, Bool.and_true]
        cases found : outcome.paths.get? path with
        | none => rfl
        | some verdict => rw [Option.getD_some, all verdict found]

end Below

theorem heads_of_note {paths : Verdicts} {passed : Bool} {failures : List Failure}
    (coherent : Outcome.Coherent ⟨passed, paths, failures⟩)
    (noted : paths = Outcome.empty.paths.note path passed) :
    Outcome.Heads ⟨passed, paths, failures⟩ path where
  toCoherent := coherent
  within visited seen := by
    subst noted
    rcases isSome_verdict?_note.mp seen with before | rfl
    · exact (Below.empty path).within visited before
    · exact ⟨"", String.append_empty.symm⟩
  own := by
    subst noted
    exact Verdicts.get?_note_self _ _ _

theorem Single.heads (single : Single path outcome) : outcome.Heads path := by
  cases single with
  | pass => exact heads_of_note (Coherent.empty.pass path) rfl
  | failure message => exact heads_of_note (Coherent.empty.fail path message) rfl

end Outcome

/-- What an examination finds heads what it finds below the path of its value. -/
def Headed (examine : String → Value → Examined Value) : Prop :=
  ∀ ⦃path value edited part⦄, examine path value = ⟨edited, .ok part⟩ → part.Heads path

/-- What there is to show of a schema: its validations end with coherent outcomes. -/
def Schema.Coheres (schema : Schema) : Prop :=
  ∀ ⦃body after outcome⦄, schema.validate body = ⟨after, .ok outcome⟩ → outcome.Coherent

def Field.Coheres (field : Field) : Prop :=
  ∀ ⦃body after part⦄, field.validate body = ⟨after, .ok part⟩ → part.Heads field.name

section Examinations

variable {examine : String → Value → Examined Value} {path : String} {edited : Value}
  {part : Outcome}

theorem itemPath_continued (path : String) (position : Nat) :
    ∃ rest, itemPath path position = path ++ rest := by
  refine ⟨s!"[{position}]", ?_⟩
  simp only [itemPath, String.append_assoc]
  rfl

theorem examineItems_below (each : Headed examine) {position : Nat} {items after : List Value}
    {outcome total : Outcome} (below : outcome.Below path)
    (ran : examineItems examine path position items outcome = ⟨after, .ok total⟩) :
    total.Below path := by
  induction items generalizing position after outcome with
  | nil =>
      simp only [examineItems, Examined.mk.injEq, Except.ok.injEq] at ran
      exact ran.2 ▸ below
  | cons item rest inductionHypothesis =>
      obtain ⟨first, others, part, examined, rest_ran, rfl⟩ := examineItems_cons_ok ran
      have item_below := (each examined).toBelow.of_continued (itemPath_continued path position)
      refine inductionHypothesis (below.merge item_below.toCoherent fun rest seen => ?_) rest_ran
      rw [String.empty_append]
      exact item_below.within rest seen

theorem examineArray_heads (each : Headed examine) {items : List Value}
    (examined : examineArray examine path items = ⟨edited, .ok part⟩) : part.Heads path := by
  obtain ⟨after, total, ran, rfl, rfl⟩ := examineArray_ok examined
  exact (examineItems_below each (.empty path) ran).closed

theorem examineDocument_headed {inner : Schema} (nested : inner.Coheres) :
    Headed (examineDocument inner.validate) := by
  intro path value edited part examined
  rcases examineDocument_ok examined with
    ⟨members, body, outcome, rfl, validated, rfl, rfl⟩ | ⟨_, _, rfl⟩
  · refine ((Outcome.Below.empty path).merge (nested validated) fun rest _ => ?_).closed
    exact ⟨"." ++ rest, String.append_assoc⟩
  · exact (Outcome.Single.failure _).heads

end Examinations

namespace FieldRule

variable {rule : FieldRule} {path : String} {value edited : Value} {part : Outcome}

theorem examineNested_heads {inner : Schema} (nested : inner.Coheres)
    (examined : rule.examineNested inner.validate value = ⟨edited, .ok part⟩) :
    part.Heads rule.name := by
  rcases examineNested_ok examined with
    ⟨_, items, rfl, found⟩ | ⟨_, _, found⟩ | ⟨_, _, message, rfl⟩
  · exact examineArray_heads (examineDocument_headed nested) found
  · exact examineDocument_headed nested found
  · exact (Outcome.Single.failure _).heads

theorem examinePlain_heads (examined : rule.examinePlain value = ⟨edited, .ok part⟩) :
    part.Heads rule.name := by
  rcases examinePlain_ok examined with
    ⟨_, items, rfl, found⟩ | ⟨_, _, _, rfl⟩ | ⟨_, _, judged⟩
  · refine examineArray_heads ?_ found
    intro path item edited part judged
    exact (judge_single (Examined.mk.inj judged).2).heads
  · exact (Outcome.Single.failure _).heads
  · exact (judge_single judged).heads

theorem settleBy_heads {examine : Value → Examined Value} {held after : Option Value}
    (each : ∀ {value edited part}, examine value = ⟨edited, .ok part⟩ → part.Heads rule.name)
    (settled : rule.settleBy examine held = ⟨after, .ok part⟩) : part.Heads rule.name := by
  rcases settleBy_ok settled with ⟨_, _, rfl⟩ | ⟨_, _, _, _, examined, _⟩
  · exact (rule.absent_single rule.name).heads
  · exact each examined

end FieldRule

theorem Field.coheres_of_nested {field : Field}
    (nested : ∀ inner, field.schema = some inner → inner.Coheres) : field.Coheres := by
  intro body after part validated
  rw [Field.validate_eq_settle] at validated
  obtain ⟨value, settled, rfl⟩ := Examined.map_eq_mk validated
  rcases FieldRule.settle_ok settled with ⟨_, _, declared, settled⟩ | ⟨_, _, settled⟩
  · obtain ⟨inner, schema, rfl⟩ := Option.map_eq_some_iff.mp declared
    exact FieldRule.settleBy_heads (FieldRule.examineNested_heads (nested inner schema)) settled
  · exact FieldRule.settleBy_heads FieldRule.examinePlain_heads settled

/-- A run over fields stays coherent, keeps every path that has been visited and adds the path
of each stored field. -/
theorem validateFields_coherent {fields : List Field} {body after : Members}
    {outcome total : Outcome} (coherent : outcome.Coherent)
    (each : ∀ field ∈ fields, field.Coheres)
    (ran : validateFields fields body outcome = ⟨after, .ok total⟩) :
    total.Coherent ∧ ∀ path,
      ((outcome.verdict? path).isSome = true ∨
        ∃ field ∈ storedFields fields, field.name = path) →
      (total.verdict? path).isSome = true := by
  induction fields generalizing body outcome with
  | nil =>
      simp only [validateFields, Examined.mk.injEq, Except.ok.injEq] at ran
      obtain ⟨_, rfl⟩ := ran
      exact ⟨coherent, by simp [storedFields]⟩
  | cons field rest inductionHypothesis =>
      obtain ⟨here, later⟩ := List.forall_mem_cons.mp each
      rw [storedFields_cons]
      rcases validateFields_cons_ok ran with
        ⟨persisted, ran⟩ | ⟨persisted, middle, part, first, ran⟩
      · simpa only [persisted, Bool.false_eq_true, ↓reduceIte] using
          inductionHypothesis coherent later ran
      · have heads := here first
        obtain ⟨total_coherent, visited⟩ :=
          inductionHypothesis (coherent.merge heads.toCoherent "") later ran
        refine ⟨total_coherent, fun path visits => visited path ?_⟩
        rw [persisted, if_pos rfl, List.exists_mem_cons_iff] at visits
        rw [Outcome.verdict?_merge_empty, Verdicts.isSome_merge]
        rcases visits with before | same | there
        · exact .inl (.inl before)
        · rw [← same, heads.own]
          exact .inl (.inr rfl)
        · exact .inr there

theorem Schema.coheres (schema : Schema) : schema.Coheres := by
  induction schema using Schema.induction with
  | step schema inductionHypothesis =>
      intro body after outcome validated
      rw [Schema.validate_eq] at validated
      exact (validateFields_coherent .empty
        (fun field member => Field.coheres_of_nested (inductionHypothesis field member))
        validated).1

theorem Field.coheres (field : Field) : field.Coheres :=
  Field.coheres_of_nested fun inner _ => inner.coheres

/-- Whatever a validation comes to, its accounts agree and each stored field has a verdict;
the verdict of a field is the outcome of validating it, with all that it holds. -/
theorem Schema.validate_coherent :
    (∀ (schema : Schema) (body after : Members) (outcome : Outcome),
      schema.validate body = ⟨after, .ok outcome⟩ →
        outcome.Coherent ∧ ∀ field ∈ schema.fields, field.isPersisted = true →
          (outcome.verdict? field.name).isSome = true) ∧
    ∀ (field : Field) (body after : Members) (part : Outcome),
      field.validate body = ⟨after, .ok part⟩ → part.Heads field.name := by
  refine ⟨fun schema body after outcome validated => ?_, fun field _ _ _ validated => ?_⟩
  · rw [Schema.validate_eq] at validated
    obtain ⟨coherent, visited⟩ :=
      validateFields_coherent .empty (fun field _ => field.coheres) validated
    exact ⟨coherent, fun field member persisted => visited field.name
      (.inr ⟨field, mem_storedFields.mpr ⟨member, persisted⟩, rfl⟩)⟩
  · exact field.coheres validated

namespace Sample

def phones : Field where
  name := "phones"
  type := .subschema
  isArray := true
  schema := some phone

/-- The day of birth is missing, one number is too long, one telephone is no document, and
the validator refuses a tag. -/
def charles : Members :=
  [("phones", .array [.object [("number", .text "123456")], .text "none"]),
    ("tags", .array [.text "older", .null])]

end Sample

open Sample in
theorem Schema.validate_coherent_of_charles :
    (person.validate charles =
        ⟨(person.validate charles).edited, .ok (person.validate charles).outcome⟩ ∧
      phones.validate charles =
        ⟨(phones.validate charles).edited, .ok (phones.validate charles).outcome⟩) ∧
    ((person.validate charles).outcome.Coherent ∧
      ((person.validate charles).outcome.verdict? "born").isSome = true) ∧
    (phones.validate charles).outcome.Heads "phones" := by
  have whole : person.validate charles = _ := Examined.eq_of_ok (by decide +kernel)
  have part : phones.validate charles = _ := Examined.eq_of_ok (by decide +kernel)
  obtain ⟨coherent, visited⟩ := Schema.validate_coherent.1 person charles _ _ whole
  exact ⟨⟨whole, part⟩, ⟨coherent, visited _ List.mem_cons_self rfl⟩,
    Schema.validate_coherent.2 phones charles _ _ part⟩

example : (Sample.person.validate Sample.charles).outcome.failures.map Failure.path =
    ["born", "phones[0].number", "phones[1]", "tags[0]"] := by decide +kernel

end Schemata
