import Schemata.Proofs.Validation.Faults
import Schemata.Proofs.Validation.Resumption
namespace Schemata

/-! Where a validator has given up.

A failure that is found in a document that another one holds is mounted there, document by
document, and so comes to have its full path.  What a validator raises goes up the same way, and
nothing is added to its path: it leads from the innermost document (`Schema.raised_located`), and
is the full path only if that is the whole document. -/

/-- A field of plain values has one of them at steps from the start of the innermost document,
which is at the outer steps. -/
inductive Schema.Asks : Schema → Location → Location → FieldRule → Prop
  | plain {schema : Schema} {field : Field} {spot : Location} (member : field ∈ schema.fields)
      (persisted : field.isPersisted = true) (type : field.type ≠ .subschema)
      (spotted : field.Spot spot) :
      Schema.Asks schema [] (.member field.name :: spot) field.toFieldRule
  | within {schema inner : Schema} {field : Field} {spot outer own : Location} {rule : FieldRule}
      (member : field ∈ schema.fields) (type : field.type = .subschema)
      (nested : field.schema = some inner) (spotted : field.Spot spot)
      (asks : Schema.Asks inner outer own rule) :
      Schema.Asks schema (.member field.name :: (spot ++ outer)) own rule

section Examinations

variable {examine : String → Value → Examined Value} {validate : Members → Examined Members}
  {path : String} {position index : Nat} {items after : List Value} {item value edited : Value}
  {outcome total part : Outcome} {fault : ValidationFault} {spot : Location} {members : Members}

theorem examineItems_part (found : items[index]? = some item)
    (ran : examineItems examine path position items outcome = ⟨after, .ok total⟩) :
    ∃ edited part, examine (itemPath path (position + index)) item = ⟨edited, .ok part⟩ ∧
      after[index]? = some edited ∧ part.failures ⊆ total.failures := by
  obtain ⟨rfl, _, each⟩ := examineItems_joined ran
  obtain ⟨edited, left, examined⟩ := each index item found
  refine ⟨edited, _, examined, left, fun failure inside => ?_⟩
  rw [Outcome.failures_joined]
  exact List.mem_append_right _ (List.mem_flatMap.mpr ⟨_, mem_itemOutcomes found, inside⟩)

/-- The failures in a document are mounted on its path. -/
theorem examineDocument_part
    (examined : examineDocument validate path (.object members) = ⟨edited, .ok part⟩) :
    ∃ inside inner, validate members = ⟨inside, .ok inner⟩ ∧
      part.failures = inner.failures.map (Failure.under (path ++ ".")) := by
  rcases examineDocument_ok examined with
    ⟨same, inside, inner, found, validated, _, rfl⟩ | ⟨noDocument, _, _⟩
  · cases found
    exact ⟨inside, inner, validated, List.nil_append _⟩
  · simp [Value.members?] at noDocument

theorem examineArray_part (found : items[index]? = some item)
    (examined : examineArray examine path items = ⟨edited, .ok total⟩) :
    ∃ after part, examine (path ++ Location.suffix [.item index]) item = ⟨after, .ok part⟩ ∧
      Location.find? [.item index] edited = some after ∧ part.failures ⊆ total.failures := by
  obtain ⟨others, outcome, ran, rfl, rfl⟩ := examineArray_ok examined
  obtain ⟨after, part, examined, left, subset⟩ := examineItems_part found ran
  rw [Nat.zero_add, Location.itemPath_eq] at examined
  exact ⟨after, part, examined, by rw [Location.find?_item, left], subset⟩

end Examinations

namespace FieldRule

variable {rule left right : FieldRule} {validate : Members → Examined Members}
  {value edited item : Value} {held after : Option Value} {part : Outcome}
  {fault : ValidationFault} {spot : Location} {members : Members}

theorem examineNested_part (spotted : rule.Spot spot)
    (found : spot.find? value = some (.object members))
    (examined : rule.examineNested validate value = ⟨edited, .ok part⟩) :
    ∃ inside inner, validate members = ⟨inside, .ok inner⟩ ∧ ∀ failure ∈ inner.failures,
      failure.under (rule.name ++ spot.suffix ++ ".") ∈ part.failures := by
  cases spotted with
  | single single =>
      obtain rfl := Option.some.inj found
      rw [examineNested_single single rfl] at examined
      obtain ⟨inside, inner, validated, failures⟩ := examineDocument_part examined
      refine ⟨inside, inner, validated, fun failure member => ?_⟩
      rw [failures, Location.suffix, String.append_empty]
      exact List.mem_map_of_mem member
  | item array index =>
      cases value with
      | array items =>
          rw [Location.find?_item] at found
          rw [examineNested_array array] at examined
          obtain ⟨_, part, examined, _, subset⟩ := examineArray_part found examined
          obtain ⟨inside, inner, validated, failures⟩ := examineDocument_part examined
          refine ⟨inside, inner, validated, fun failure member => subset ?_⟩
          rw [failures]
          exact List.mem_map_of_mem member
      | _ => simp [Location.find?] at found

theorem examinePlain_part (spotted : rule.Spot spot) (found : spot.find? edited = some item)
    (examined : rule.examinePlain value = ⟨edited, .ok part⟩) :
    ∃ own, rule.judge (rule.name ++ spot.suffix) item = .ok own ∧
      own.failures ⊆ part.failures := by
  cases spotted with
  | single single =>
      rw [examinePlain_single single, Examined.mk.injEq] at examined
      obtain ⟨rfl, judged⟩ := examined
      obtain rfl := Option.some.inj found
      exact ⟨part, by rwa [Location.suffix, String.append_empty], List.Subset.refl _⟩
  | item array index =>
      rcases examinePlain_ok examined with
        ⟨_, items, rfl, each⟩ | ⟨_, noItems, rfl, _⟩ | ⟨single, _, _⟩
      · obtain ⟨others, total, ran, rfl, _⟩ := examineArray_ok each
        obtain rfl := examineItems_unedited (fun _ _ => rfl) ran
        rw [Location.find?_item] at found
        obtain ⟨_, own, examined, _, subset⟩ := examineArray_part found each
        exact ⟨own, (Examined.mk.inj examined).2, subset⟩
      · cases edited with
        | array items => simp [Value.items?] at noItems
        | _ => simp [Location.find?] at found
      · simp [array] at single

theorem Spot.of_revises (spotted : left.Spot spot) (revises : left.Revises right) :
    right.Spot spot := by
  have same : right.isArray = left.isArray := congrArg Slot.isArray revises.alike.1
  cases spotted with
  | single single => exact .single (same.trans single)
  | item array index => exact .item (same.trans array) index

/-- What a validator has raised a message about fails when another one refuses it. -/
theorem Revises.judge_refused {path : String} (revises : left.Revises right)
    (plain : left.type ≠ .subschema) (stored : left.type ≠ .calculated)
    (failed : left.judge path item = .error fault) (refused : right.answer item = .ok false) :
    right.judge path item = .ok (.ofFailure path (left.refusal item)) := by
  have fits : right.Fits item := revises.fits_iff.mpr (fits_of_fault plain stored failed)
  rw [judge_of_fits fits, consult_eq, refused, revises.refusal]

end FieldRule

namespace Field

variable {field left right : Field} {inner : Schema} {held after : Option Value} {part : Outcome}
  {fault : ValidationFault} {spot : Location} {members : Members} {item : Value}

theorem settle_nested_part (type : field.type = .subschema) (nested : field.schema = some inner)
    (spotted : field.Spot spot)
    (found : (field.defaulted held).bind spot.find? = some (.object members))
    (settled : field.settle held = ⟨after, .ok part⟩) :
    ∃ inside outcome, inner.validate members = ⟨inside, .ok outcome⟩ ∧
      ∀ failure ∈ outcome.failures,
        failure.under (field.name ++ spot.suffix ++ ".") ∈ part.failures := by
  rw [settle, nested, Option.map_some, FieldRule.settle_nested type] at settled
  rcases FieldRule.settleBy_ok settled with
    ⟨defaulted, absent, _⟩ | ⟨value, edited, defaulted, _, examined, _⟩
  · have null := spotted.eq_null (defaulted ▸ absent) found
    simp at null
  · rw [defaulted] at found
    exact FieldRule.examineNested_part spotted found examined

theorem settle_plain_part (plain : field.type ≠ .subschema) (stored : field.isPersisted = true)
    (spotted : field.Spot spot) (found : after.bind spot.find? = some item)
    (settled : field.settle held = ⟨after, .ok part⟩) (present : item.isNull = false) :
    ∃ own, field.judge (field.name ++ spot.suffix) item = .ok own ∧
      own.failures ⊆ part.failures := by
  rw [settle, FieldRule.settle_plain plain (of_decide_eq_true stored)] at settled
  rcases FieldRule.settleBy_ok settled with ⟨_, absent, _⟩ | ⟨_, edited, _, _, examined, rfl⟩
  · simp [spotted.eq_null absent found, Value.isNull] at present
  · exact FieldRule.examinePlain_part spotted found examined

/-- Validators have no part in what is left of plain values. -/
theorem edited_settle_plain (revises : left.toFieldRule.Revises right.toFieldRule)
    (plain : left.type ≠ .subschema) (stored : left.isPersisted = true) (held : Option Value) :
    (left.settle held).edited = (right.settle held).edited := by
  obtain ⟨slot, defaulted, settleBy, _⟩ := revises.alike
  have type : right.type = left.type := congrArg Slot.type slot
  rw [settle, settle, FieldRule.settle_plain plain (of_decide_eq_true stored),
    FieldRule.settle_plain (type ▸ plain) (type ▸ of_decide_eq_true stored), settleBy]
  cases absent : Value.isAbsent (left.defaulted held) with
  | true => rw [FieldRule.settleBy_of_absent rfl absent, FieldRule.settleBy_of_absent rfl absent]
  | false =>
      cases examined : left.defaulted held with
      | none => simp [examined, Value.isAbsent] at absent
      | some value =>
          have present : value.isNull = false := by
            simpa [examined, Value.isAbsent] using absent
          rw [FieldRule.settleBy_of_value examined present,
            FieldRule.settleBy_of_value examined present]
          exact congrArg some (revises.edited_examinePlain value)

end Field

section Visits

variable {fields lefts rights : List Field} {body middle edited : Members} {field : Field}
  {outcome total : Outcome} {fault : ValidationFault}

/-- Fields that differ in validators are visited side by side. -/
theorem Visits.beside {related : Field → Field → Prop} (visits : Visits lefts body field middle)
    (shapes : ∀ left right, related left right → left.fieldShape = right.fieldShape)
    (pairs : List.Forall₂ related lefts rights) :
    ∃ twin, related field twin ∧ Visits rights body twin middle := by
  induction visits generalizing rights with
  | @here field rest body persisted =>
      cases pairs with
      | @cons _ twin _ _ first _ =>
          have slot : field.slot = twin.slot := by
            rw [← Field.fieldShape_toSlot, shapes _ _ first, Field.fieldShape_toSlot]
          exact ⟨twin, first, .here ((congrArg Slot.isPersisted slot).symm.trans persisted)⟩
  | later _ inductionHypothesis =>
      cases pairs with
      | cons first others =>
          rw [shapes _ _ first] at inductionHypothesis
          obtain ⟨twin, pair, visits⟩ := inductionHypothesis others
          exact ⟨twin, pair, .later visits⟩

theorem validateFields_failures_subset
    (ran : validateFields fields body outcome = ⟨edited, .ok total⟩) :
    outcome.failures ⊆ total.failures := by
  induction fields generalizing body outcome with
  | nil =>
      simp only [validateFields, Examined.mk.injEq, Except.ok.injEq] at ran
      rw [ran.2]
      exact List.Subset.refl _
  | cons field rest inductionHypothesis =>
      rcases validateFields_cons_ok ran with ⟨_, ran⟩ | ⟨_, _, part, _, ran⟩
      · exact inductionHypothesis ran
      · have later := inductionHypothesis ran
        rw [Outcome.failures_merge_empty] at later
        exact fun failure member => later (List.mem_append_left _ member)

theorem Visits.part (visits : Visits fields body field middle)
    (ran : validateFields fields body outcome = ⟨edited, .ok total⟩) :
    ∃ after part, field.settle (Keyed.get? middle field.name) = ⟨after, .ok part⟩ ∧
      part.failures ⊆ total.failures := by
  induction visits generalizing outcome with
  | here persisted =>
      rcases validateFields_cons_ok ran with ⟨skipped, _⟩ | ⟨_, middle, part, validated, ran⟩
      · simp [persisted] at skipped
      · have later := validateFields_failures_subset ran
        rw [Outcome.failures_merge_empty] at later
        rw [Field.validate_eq_settle] at validated
        obtain ⟨after, settled, _⟩ := Examined.map_eq_mk validated
        exact ⟨after, part, settled, fun failure member => later (List.mem_append_right _ member)⟩
  | later _ inductionHypothesis =>
      rcases validateFields_cons_ok ran with ⟨skipped, ran⟩ | ⟨persisted, _, _, validated, ran⟩
      · rw [Field.normalize_fieldShape, skipped, if_neg Bool.false_ne_true] at inductionHypothesis
        exact inductionHypothesis ran
      · exact inductionHypothesis (Field.eq_normalize persisted validated ▸ ran)

end Visits

namespace Schema

variable {schema inner other : Schema} {outer own : Location} {rule : FieldRule}

theorem Asks.starts (asks : schema.Asks outer own rule) :
    (∃ name rest, own = .member name :: rest) ∧
      ∃ name rest, outer ++ own = .member name :: rest := by
  induction asks with
  | plain => exact ⟨⟨_, _, rfl⟩, _, _, rfl⟩
  | within _ _ _ _ _ inductionHypothesis => exact ⟨inductionHypothesis.1, _, _, rfl⟩

theorem Asks.path_within (asks : inner.Asks outer own rule) (name : String) (spot : Location) :
    Location.path (.member name :: (spot ++ outer) ++ own) =
      name ++ spot.suffix ++ "." ++ (outer ++ own).path := by
  obtain ⟨_, first, rest, starts⟩ := asks.starts
  rw [List.cons_append, List.append_assoc, starts, Location.path_append_member]

/-- The way from the innermost document is the whole way only if there is no other around it. -/
theorem Asks.path_eq_iff (asks : schema.Asks outer own rule) :
    own.path = (outer ++ own).path ↔ outer = [] := by
  obtain ⟨⟨name, rest, starts⟩, _⟩ := asks.starts
  cases asks with
  | plain => simp
  | @within _ _ field spot outer _ _ _ _ _ _ _ =>
      refine ⟨fun same => ?_, fun impossible => absurd impossible (List.cons_ne_nil _ _)⟩
      rw [List.cons_append, starts, Location.path_append_member] at same
      have lengths := congrArg String.length same
      simp at lengths

/-- A validator has raised the message: the field of the rule was asked about the value, which is
at these steps in what is left of the body.  Had it been refused there, a failure would have been
recorded for the path of these steps. -/
structure RaisedAt (schema : Schema) (body edited : Members) (message : String)
    (outer own : Location) (rule : FieldRule) (value : Value) : Prop where
  asks : schema.Asks outer own rule
  held : (outer ++ own).find? (.object edited) = some value
  answered : rule.answer value = .error message
  refused : ∀ other, schema.Alike FieldRule.Revises other →
    (∀ twin, other.Asks outer own twin → twin.answer value = .ok false) →
    ∀ after outcome, other.validate body = ⟨after, .ok outcome⟩ →
      ⟨(outer ++ own).path, rule.refusal value⟩ ∈ outcome.failures

theorem raisedAt_plain {body edited middle : Members} {field : Field} {path message : String}
    (visits : Visits schema.fields body field middle) (plain : field.type ≠ .subschema)
    (settled : field.settle (Keyed.get? middle field.name) =
      ⟨Keyed.get? edited field.name, .error (.raised path message)⟩) :
    ∃ outer own rule value, schema.RaisedAt body edited message outer own rule value ∧
      path = own.path := by
  obtain ⟨member, persisted⟩ := visits.mem
  obtain ⟨spot, item, spotted, found, failed⟩ :=
    Field.settle_plain_stopped plain persisted settled
  have stored : field.type ≠ .calculated := of_decide_eq_true persisted
  obtain ⟨validator, words, declared, ran, raised⟩ := FieldRule.judge_fault plain stored failed
  obtain ⟨rfl, rfl⟩ := ValidationFault.raised.inj raised
  have answered : field.answer item = .error message := by
    rw [FieldRule.answer, declared]
    exact ran
  refine ⟨[], .member field.name :: spot, field.toFieldRule, item,
    ⟨.plain member persisted plain spotted, found, answered, ?_⟩, rfl⟩
  intro other alike refused after outcome validated
  obtain ⟨_, _, _, fields⟩ := alike
  rw [Schema.validate_eq] at validated
  obtain ⟨twin, alike, twinVisits⟩ := visits.beside (fun _ _ alike => alike.fieldShape_eq) fields
  obtain ⟨revises, _⟩ := alike
  obtain ⟨left, part, twinSettled, subset⟩ := twinVisits.part validated
  obtain ⟨twinMember, twinPersisted⟩ := twinVisits.mem
  have name : twin.name = field.name := congrArg Slot.name revises.alike.1
  have type : twin.type = field.type := congrArg Slot.type revises.alike.1
  have same := Field.edited_settle_plain revises plain persisted (Keyed.get? middle field.name)
  rw [name] at twinSettled
  rw [settled, twinSettled] at same
  dsimp only at same
  have twinSpotted := spotted.of_revises revises
  have twinRefused : twin.answer item = .ok false :=
    refused twin.toFieldRule (name ▸ .plain twinMember twinPersisted (type ▸ plain) twinSpotted)
  obtain ⟨own, judged, ownSubset⟩ := Field.settle_plain_part (type ▸ plain) twinPersisted
    twinSpotted (same ▸ found) twinSettled
    (FieldRule.fits_of_fault plain stored failed).form.present.1
  rw [name, revises.judge_refused plain stored failed twinRefused, Except.ok.injEq] at judged
  subst judged
  exact subset (ownSubset List.mem_cons_self)

theorem raisedAt_within {body edited middle : Members} {field : Field} {path message : String}
    (visits : Visits schema.fields body field middle) (type : field.type = .subschema)
    (nested : field.schema = some inner)
    (settled : field.settle (Keyed.get? middle field.name) =
      ⟨Keyed.get? edited field.name, .error (.raised path message)⟩)
    (raises : ∀ {members inside}, inner.validate members =
        ⟨inside, .error (.raised path message)⟩ →
      ∃ outer own rule value, inner.RaisedAt members inside message outer own rule value ∧
        path = own.path) :
    ∃ outer own rule value, schema.RaisedAt body edited message outer own rule value ∧
      path = own.path := by
  obtain ⟨member, _⟩ := visits.mem
  obtain ⟨spot, members, inside, spotted, found, stopped, left⟩ :=
    Field.settle_nested_stopped type nested settled
  obtain ⟨outer, own, rule, value, raised, same⟩ := raises stopped
  refine ⟨.member field.name :: (spot ++ outer), own, rule, value,
    ⟨.within member type nested spotted raised.asks, ?_, raised.answered, ?_⟩, same⟩
  · have onwards : Location.find? (spot ++ (outer ++ own)) =
        fun value => (spot.find? value).bind (outer ++ own).find? :=
      funext (Location.find?_append spot (outer ++ own))
    rw [List.cons_append, List.append_assoc, Location.find?, onwards, ← Option.bind_assoc, left]
    exact raised.held
  · intro other alike refused after outcome validated
    obtain ⟨_, _, _, fields⟩ := alike
    rw [Schema.validate_eq] at validated
    obtain ⟨twin, alike, twinVisits⟩ := visits.beside (fun _ _ alike => alike.fieldShape_eq) fields
    obtain ⟨revises, schemas⟩ := alike
    obtain ⟨_, part, twinSettled, subset⟩ := twinVisits.part validated
    obtain ⟨slot, defaulted, _⟩ := revises.alike
    have name : twin.name = field.name := congrArg Slot.name slot
    have twinType : twin.type = .subschema := (congrArg Slot.type slot).trans type
    have twinSpotted := spotted.of_revises revises
    cases twinNested : twin.schema with
    | none => simp [nested, twinNested] at schemas
    | some twinInner =>
        rw [nested, twinNested, Option.rel_some_some] at schemas
        rw [← defaulted, ← name] at found
        obtain ⟨_, total, twinValidated, mounted⟩ :=
          Field.settle_nested_part twinType twinNested twinSpotted found twinSettled
        have asked : ∀ asked, twinInner.Asks outer own asked → asked.answer value = .ok false :=
          fun asked asks => refused asked
            (name ▸ .within twinVisits.mem.1 twinType twinNested twinSpotted asks)
        have failure := subset (mounted _ (raised.refused _ schemas asked _ _ twinValidated))
        rwa [Failure.under, name, ← raised.asks.path_within] at failure

/-- What a validator raises, the field says of the innermost document around the value, which is
the whole document or one that is held in it at any depth.  The failure that is recorded when the
value is refused instead has the whole path.  So the field is that path only if no other document
is around. -/
theorem raised_located {body edited : Members} {path message : String}
    (raised : schema.validate body = ⟨edited, .error (.raised path message)⟩) :
    ∃ outer own rule value, schema.RaisedAt body edited message outer own rule value ∧
      path = own.path ∧ (path = (outer ++ own).path ↔ outer = []) := by
  have located : ∃ outer own rule value,
      schema.RaisedAt body edited message outer own rule value ∧ path = own.path := by
    induction schema using Schema.induction generalizing body edited with
    | step schema inductionHypothesis =>
        rw [Schema.validate_eq] at raised
        obtain ⟨field, middle, visits, settled⟩ := validateFields_stopped raised
        obtain ⟨member, persisted⟩ := visits.mem
        by_cases type : field.type = .subschema
        · cases nested : field.schema with
          | none => simp [Field.settle, nested, FieldRule.settle, type] at settled
          | some inner =>
              exact raisedAt_within visits type nested settled
                (inductionHypothesis field member inner nested)
        · exact raisedAt_plain visits type settled
  obtain ⟨outer, own, rule, value, at_, rfl⟩ := located
  exact ⟨outer, own, rule, value, at_, rfl, at_.asks.path_eq_iff⟩

end Schema

namespace Sample

/-- Refuses the city about which the other gives up. -/
def refusing : FieldType → Validator := fun _ value => .ok (value.text? ≠ some "Nowhere")

end Sample

open Sample in
theorem Schema.raised_located_of_stay :
    (stay touchy).validate longStay = ⟨((stay touchy).validate longStay).edited,
      .error (.raised "city" "no such city")⟩ ∧
    ∃ outer own rule value, (stay touchy).RaisedAt longStay
        ((stay touchy).validate longStay).edited "no such city" outer own rule value ∧
      "city" = own.path ∧ ("city" = (outer ++ own).path ↔ outer = []) := by
  have raised : (stay touchy).validate longStay = ⟨((stay touchy).validate longStay).edited,
      .error (.raised "city" "no such city")⟩ := Examined.eq_of_verdict (by decide +kernel)
  exact ⟨raised, Schema.raised_located raised⟩

open Sample in
/-- The city of the second home is raised as the field `city`.  Where it is refused instead, the
failure is that of `homes[1].city`, and there is none for `city`. -/
theorem Schema.raised_without_outer_path :
    ((stay touchy).validate longStay).verdict = .error (.raised "city" "no such city") ∧
    (stay touchy).Alike FieldRule.Revises (stay refusing) ∧
    (∀ type value, touchy type value = .error "no such city" → refusing type value = .ok false) ∧
    ((stay refusing).validate longStay).outcome.failures =
      [⟨"homes[1].city", "Failed validation function"⟩] ∧
    ¬ ∃ failure ∈ ((stay refusing).validate longStay).outcome.failures, failure.path = "city" := by
  refine ⟨by decide +kernel, stay_revised touchy refusing, fun type value raised => ?_,
    by decide +kernel, by decide +kernel⟩
  rw [touchy] at raised
  split at raised
  · simp [refusing, *]
  · simp at raised

end Schemata
