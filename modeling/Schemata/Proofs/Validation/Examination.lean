import Schemata.Proofs.Validation.Local
namespace Schemata

/-! What an examination that was not faulted has done, one lemma for each way to examine:
the items of an array, a document, the value of a field of documents and that of a field
of plain values. -/

variable {examine : String → Value → Examined Value} {validate : Members → Examined Members}
  {path : String} {value edited : Value} {part : Outcome}

/-- What is found of a single value: it passes, or fails with one message. -/
inductive Outcome.Single (path : String) : Outcome → Prop
  | pass : Single path (.ofPass path)
  | failure (message : String) : Single path (.ofFailure path message)

theorem examineItems_cons_ok {position : Nat} {item : Value} {rest after : List Value}
    {outcome total : Outcome}
    (ran : examineItems examine path position (item :: rest) outcome = ⟨after, .ok total⟩) :
    ∃ first others part, examine (itemPath path position) item = ⟨first, .ok part⟩ ∧
      examineItems examine path (position + 1) rest (outcome.merge "" part) =
        ⟨others, .ok total⟩ ∧
      after = first :: others := by
  cases examined : examine (itemPath path position) item with
  | mk first verdict =>
      cases verdict with
      | error fault => simp [examineItems, examined] at ran
      | ok part =>
          simp only [examineItems, examined] at ran
          obtain ⟨others, rest_ran, rfl⟩ := Examined.map_eq_mk ran
          exact ⟨first, others, part, rfl, rest_ran, rfl⟩

theorem examineItems_cons {position : Nat} {item first : Value} {rest others : List Value}
    {outcome total : Outcome}
    (examined : examine (itemPath path position) item = ⟨first, .ok part⟩)
    (ran : examineItems examine path (position + 1) rest (outcome.merge "" part) =
      ⟨others, .ok total⟩) :
    examineItems examine path position (item :: rest) outcome =
      ⟨first :: others, .ok total⟩ := by
  simp only [examineItems, examined, ran, Examined.map]

/-- What is found of items on their own, from a position on. -/
def itemOutcomes (examine : String → Value → Examined Value) (path : String) (position : Nat)
    (items : List Value) : List Outcome :=
  (items.zipIdx position).map fun entry => (examine (itemPath path entry.2) entry.1).outcome

theorem getElem?_itemOutcomes (examine : String → Value → Examined Value) (path : String)
    (position : Nat) (items : List Value) (index : Nat) :
    (itemOutcomes examine path position items)[index]? =
      items[index]?.map fun item => (examine (itemPath path (position + index)) item).outcome := by
  simp only [itemOutcomes, List.getElem?_map, List.getElem?_zipIdx, Option.map_map]
  rfl

theorem mem_itemOutcomes {position index : Nat} {items : List Value} {item : Value}
    (found : items[index]? = some item) :
    (examine (itemPath path (position + index)) item).outcome ∈
      itemOutcomes examine path position items := by
  apply List.mem_of_getElem?
  rw [getElem?_itemOutcomes, found]
  rfl

/-- Every item is examined at its position, whatever else there is, and the outcomes are joined in
the order of the items. -/
theorem examineItems_joined {position : Nat} {items after : List Value} {outcome total : Outcome}
    (ran : examineItems examine path position items outcome = ⟨after, .ok total⟩) :
    total = outcome.joined (itemOutcomes examine path position items) ∧
    after.length = items.length ∧
    ∀ index item, items[index]? = some item → ∃ edited, after[index]? = some edited ∧
      examine (itemPath path (position + index)) item =
        ⟨edited, .ok (examine (itemPath path (position + index)) item).outcome⟩ := by
  induction items generalizing position outcome after with
  | nil =>
      simp only [examineItems, Examined.mk.injEq, Except.ok.injEq] at ran
      obtain ⟨rfl, rfl⟩ := ran
      exact ⟨rfl, rfl, by simp⟩
  | cons item rest inductionHypothesis =>
      obtain ⟨first, others, part, examined, rest_ran, rfl⟩ := examineItems_cons_ok ran
      obtain ⟨total_eq, lengths, each⟩ := inductionHypothesis rest_ran
      have found : (examine (itemPath path position) item).outcome = part := by
        rw [examined]
        rfl
      refine ⟨?_, congrArg Nat.succ lengths, fun index other at_index => ?_⟩
      · rw [total_eq, itemOutcomes, itemOutcomes, List.zipIdx_cons, List.map_cons, found]
        rfl
      · cases index with
        | zero =>
            obtain rfl := Option.some.inj at_index
            exact ⟨first, rfl, by rw [Nat.add_zero, found, examined]⟩
        | succ index =>
            rw [← Nat.add_assoc, Nat.add_right_comm]
            exact each index other at_index

theorem examineItems_eq_map {form : Value → Value} {position : Nat} {items after : List Value}
    {outcome total : Outcome}
    (each : ∀ {place item edited part}, examine place item = ⟨edited, .ok part⟩ →
      edited = form item)
    (ran : examineItems examine path position items outcome = ⟨after, .ok total⟩) :
    after = items.map form := by
  induction items generalizing position after outcome with
  | nil =>
      simp only [examineItems, Examined.mk.injEq] at ran
      exact ran.1.symm
  | cons item rest inductionHypothesis =>
      obtain ⟨first, others, part, examined, rest_ran, rfl⟩ := examineItems_cons_ok ran
      rw [List.map_cons, each examined, inductionHypothesis rest_ran]

/-- The first item is examined in any case, and the others if it does not fault. -/
theorem examineItems_edited_cons (examine : String → Value → Examined Value) (path : String)
    (position : Nat) (item : Value) (rest : List Value) (outcome : Outcome) :
    (examineItems examine path position (item :: rest) outcome).edited =
        (examine (itemPath path position) item).edited :: rest ∨
      ∃ total, (examineItems examine path position (item :: rest) outcome).edited =
        (examine (itemPath path position) item).edited ::
          (examineItems examine path (position + 1) rest total).edited := by
  rw [examineItems]
  split
  · exact .inl rfl
  · exact .inr ⟨_, rfl⟩

theorem examineItems_edited_of_kept (kept : ∀ path item, (examine path item).edited = item)
    (position : Nat) (items : List Value) (outcome : Outcome) :
    (examineItems examine path position items outcome).edited = items := by
  induction items generalizing position outcome with
  | nil => rfl
  | cons item rest inductionHypothesis =>
      rcases examineItems_edited_cons examine path position item rest outcome with
        edited | ⟨total, edited⟩
      · rw [edited, kept]
      · rw [edited, kept, inductionHypothesis]

theorem examineItems_unedited {position : Nat} {items after : List Value}
    {outcome total : Outcome} (kept : ∀ path item, (examine path item).edited = item)
    (ran : examineItems examine path position items outcome = ⟨after, .ok total⟩) :
    after = items := by
  rw [← examineItems_edited_of_kept kept position items outcome, ran]

theorem examineArray_ok {items : List Value}
    (examined : examineArray examine path items = ⟨edited, .ok part⟩) :
    ∃ others total, examineItems examine path 0 items .empty = ⟨others, .ok total⟩ ∧
      edited = .array others ∧ part = total.closed path := by
  cases ran : examineItems examine path 0 items .empty with
  | mk others verdict =>
      simp only [examineArray, ran, Examined.mk.injEq] at examined
      obtain ⟨rfl, closed⟩ := examined
      cases verdict with
      | error fault => simp [Except.map] at closed
      | ok total =>
          simp only [Except.map, Except.ok.injEq] at closed
          exact ⟨others, total, rfl, rfl, closed.symm⟩

theorem examineArray_eq {items others : List Value} {total : Outcome}
    (ran : examineItems examine path 0 items .empty = ⟨others, .ok total⟩) :
    examineArray examine path items = ⟨.array others, .ok (total.closed path)⟩ := by
  simp only [examineArray, ran, Except.map]

theorem examineItems_map {change : Value → Value} {position : Nat} {items after : List Value}
    {outcome total : Outcome} :
    examineItems examine path position (items.map change) outcome = ⟨after, .ok total⟩ ↔
      examineItems (fun path item => examine path (change item)) path position items outcome =
        ⟨after, .ok total⟩ := by
  induction items generalizing position after outcome with
  | nil => exact Iff.rfl
  | cons item rest inductionHypothesis =>
      constructor
      · intro ran
        obtain ⟨first, others, part, examined, rest_ran, rfl⟩ := examineItems_cons_ok ran
        exact examineItems_cons examined (inductionHypothesis.mp rest_ran)
      · intro ran
        obtain ⟨first, others, part, examined, rest_ran, rfl⟩ := examineItems_cons_ok ran
        exact examineItems_cons examined (inductionHypothesis.mpr rest_ran)

theorem examineArray_map {change : Value → Value} {items : List Value} {edited : Value}
    {part : Outcome} :
    examineArray examine path (items.map change) = ⟨edited, .ok part⟩ ↔
      examineArray (fun path item => examine path (change item)) path items =
        ⟨edited, .ok part⟩ := by
  constructor
  · intro examined
    obtain ⟨after, total, ran, rfl, rfl⟩ := examineArray_ok examined
    exact examineArray_eq (examineItems_map.mp ran)
  · intro examined
    obtain ⟨after, total, ran, rfl, rfl⟩ := examineArray_ok examined
    exact examineArray_eq (examineItems_map.mpr ran)

theorem examineDocument_ok
    (examined : examineDocument validate path value = ⟨edited, .ok part⟩) :
    (∃ members body outcome, value = .object members ∧
      validate members = ⟨body, .ok outcome⟩ ∧ edited = .object body ∧
      part = (Outcome.empty.merge s!"{path}." outcome).closed path) ∨
    (value.members? = none ∧ edited = value ∧
      part = .ofFailure path s!"{path} must be an object") := by
  cases value with
  | object members =>
      cases validated : validate members with
      | mk body verdict =>
          simp only [examineDocument, validated, Examined.mk.injEq] at examined
          obtain ⟨rfl, closed⟩ := examined
          cases verdict with
          | error fault => simp [Except.map] at closed
          | ok outcome =>
              simp only [Except.map, Except.ok.injEq] at closed
              exact .inl ⟨members, body, outcome, rfl, validated, rfl, closed.symm⟩
  | _ =>
      simp only [examineDocument, Examined.mk.injEq, Except.ok.injEq] at examined
      exact .inr ⟨rfl, examined.1.symm, examined.2.symm⟩

theorem examineDocument_object {members body : Members} {outcome : Outcome}
    (validated : validate members = ⟨body, .ok outcome⟩) :
    examineDocument validate path (.object members) =
      ⟨.object body, .ok ((Outcome.empty.merge s!"{path}." outcome).closed path)⟩ := by
  simp only [examineDocument, validated, Except.map]

theorem examineDocument_of_members? (validate : Members → Examined Members) (path : String)
    (other : value.members? = none) :
    examineDocument validate path value =
      ⟨value, .ok (.ofFailure path s!"{path} must be an object")⟩ := by
  cases value with
  | object members => simp [Value.members?] at other
  | _ => rfl

namespace FieldRule

variable {rule : FieldRule}

theorem absent_single (rule : FieldRule) (path : String) :
    Outcome.Single path (rule.absent path) := by
  rw [absent]
  split
  · exact .failure _
  · exact .pass

theorem consult_single (consulted : rule.consult path value = .ok part) :
    Outcome.Single path part := by
  rw [consult] at consulted
  split at consulted
  · exact Except.ok.inj consulted ▸ .pass
  · split at consulted
    · simp at consulted
    · exact Except.ok.inj consulted ▸ .pass
    · exact Except.ok.inj consulted ▸ .failure _

theorem judge_single (judged : rule.judge path value = .ok part) : Outcome.Single path part := by
  rw [judge.eq_def] at judged
  split at judged
  · exact Except.ok.inj judged ▸ rule.absent_single path
  · exact Except.ok.inj judged ▸ .failure _
  · split at judged
    · simp at judged
    · split at judged
      · exact Except.ok.inj judged ▸ .failure _
      · exact consult_single judged
    · exact Except.ok.inj judged ▸ .failure _

/-- A value that is an array where none is declared, or the other way round, is left as it
is and fails. -/
theorem examineNested_ok
    (examined : rule.examineNested validate value = ⟨edited, .ok part⟩) :
    (rule.isArray = true ∧ ∃ items, value = .array items ∧
      examineArray (examineDocument validate) rule.name items = ⟨edited, .ok part⟩) ∨
    (rule.isArray = false ∧ value.items? = none ∧
      examineDocument validate rule.name value = ⟨edited, .ok part⟩) ∨
    (rule.isArray = value.items?.isNone ∧ edited = value ∧
      ∃ message, part = .ofFailure rule.name message) := by
  cases isArray : rule.isArray with
  | true =>
      cases value with
      | array items =>
          simp only [examineNested, isArray, ↓reduceIte] at examined
          exact .inl ⟨rfl, items, rfl, examined⟩
      | _ =>
          simp only [examineNested, isArray, ↓reduceIte, Examined.mk.injEq,
            Except.ok.injEq] at examined
          exact .inr (.inr ⟨rfl, examined.1.symm, _, examined.2.symm⟩)
  | false =>
      cases value with
      | array items =>
          simp only [examineNested, isArray, Bool.false_eq_true, ↓reduceIte,
            Examined.mk.injEq, Except.ok.injEq] at examined
          exact .inr (.inr ⟨rfl, examined.1.symm, _, examined.2.symm⟩)
      | _ =>
          simp only [examineNested, isArray, Bool.false_eq_true, ↓reduceIte] at examined
          exact .inr (.inl ⟨rfl, rfl, examined⟩)

theorem examineNested_array {items : List Value} (array : rule.isArray = true) :
    rule.examineNested validate (.array items) =
      examineArray (examineDocument validate) rule.name items := by
  simp only [examineNested, array, ↓reduceIte]

theorem examineNested_single (single : rule.isArray = false) (other : value.items? = none) :
    rule.examineNested validate value = examineDocument validate rule.name value := by
  cases value with
  | array items => simp [Value.items?] at other
  | _ => simp only [examineNested, single, Bool.false_eq_true, ↓reduceIte]

theorem examinePlain_array {items : List Value} (array : rule.isArray = true) :
    rule.examinePlain (.array items) =
      examineArray (fun path item => ⟨item, rule.judge path item⟩) rule.name
        (items.map rule.type.coerce) := by
  simp only [examinePlain, array, ↓reduceIte]

theorem examinePlain_single (single : rule.isArray = false) :
    rule.examinePlain value =
      ⟨rule.type.coerce value, rule.judge rule.name (rule.type.coerce value)⟩ := by
  simp only [examinePlain, single, Bool.false_eq_true, ↓reduceIte]

theorem examinePlain_ok (examined : rule.examinePlain value = ⟨edited, .ok part⟩) :
    (rule.isArray = true ∧ ∃ items, value = .array items ∧
      examineArray (fun path item => ⟨item, rule.judge path item⟩) rule.name
        (items.map rule.type.coerce) = ⟨edited, .ok part⟩) ∨
    (rule.isArray = true ∧ value.items? = none ∧ edited = value ∧
      part = .ofFailure rule.name s!"{rule.name} must be an array") ∨
    (rule.isArray = false ∧ edited = rule.type.coerce value ∧
      rule.judge rule.name edited = .ok part) := by
  cases isArray : rule.isArray with
  | true =>
      cases value with
      | array items =>
          simp only [examinePlain, isArray, ↓reduceIte] at examined
          exact .inl ⟨rfl, items, rfl, examined⟩
      | _ =>
          simp only [examinePlain, isArray, ↓reduceIte, Examined.mk.injEq,
            Except.ok.injEq] at examined
          exact .inr (.inl ⟨rfl, rfl, examined.1.symm, examined.2.symm⟩)
  | false =>
      simp only [examinePlain, isArray, Bool.false_eq_true, ↓reduceIte,
        Examined.mk.injEq] at examined
      obtain ⟨rfl, judged⟩ := examined
      exact .inr (.inr ⟨rfl, rfl, judged⟩)

end FieldRule

theorem validateFields_cons_ok {field : Field} {rest : List Field} {body after : Members}
    {outcome total : Outcome}
    (ran : validateFields (field :: rest) body outcome = ⟨after, .ok total⟩) :
    (field.isPersisted = false ∧ validateFields rest body outcome = ⟨after, .ok total⟩) ∨
    (field.isPersisted = true ∧ ∃ middle part, field.validate body = ⟨middle, .ok part⟩ ∧
      validateFields rest middle (outcome.merge "" part) = ⟨after, .ok total⟩) := by
  rw [validateFields] at ran
  cases persisted : field.isPersisted with
  | false =>
      exact .inl ⟨rfl, by simpa only [persisted, Bool.false_eq_true, ↓reduceIte] using ran⟩
  | true =>
      simp only [persisted, ↓reduceIte] at ran
      cases first : field.validate body with
      | mk middle verdict =>
          rw [first] at ran
          cases verdict with
          | error fault => simp at ran
          | ok part => exact .inr ⟨rfl, middle, part, rfl, ran⟩

end Schemata
