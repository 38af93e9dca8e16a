import Schemata.Proofs.Validation.Coherence
import Schemata.Proofs.Validation.Location
namespace Schemata

/-! The items of an array.

A field examines each item at its index, whatever else is in the array (`Field.Finds`), and joins
what it finds of them in their order (`examineItems_joined`).  All that it finds of an item is at
the path of the item or below, and an index ends at its bracket, so items say nothing of each other
(`itemPath_apart`). -/

/-- What is found of a value on its own: whether it passes, and how it fails. -/
structure Finding where
  passed : Bool
  failures : List Failure

def Outcome.finding (outcome : Outcome) : Finding := ⟨outcome.passed, outcome.failures⟩

/-- What a field finds of an item at a path.  A plain item passes or fails with one message; a
document is validated by the schema of the field, and what it has failed at is below the path. -/
inductive Field.Finds (field : Field) (path : String) : Value → Finding → Prop
  | passed {item : Value} (plain : field.type ≠ .subschema)
      (judged : field.judge path (field.type.coerce item) = .ok (.ofPass path)) :
      Finds field path item ⟨true, []⟩
  | failed {item : Value} {message : String} (plain : field.type ≠ .subschema)
      (judged : field.judge path (field.type.coerce item) = .ok (.ofFailure path message)) :
      Finds field path item ⟨false, [⟨path, message⟩]⟩
  | document {inner : Schema} {members body : Members} {outcome : Outcome}
      (type : field.type = .subschema) (schema : field.schema = some inner)
      (validated : inner.validate members = ⟨body, .ok outcome⟩) :
      Finds field path (.object members)
        ⟨outcome.passed, outcome.failures.map (Failure.under s!"{path}.")⟩
  | other {item : Value} (type : field.type = .subschema) (other : item.members? = none) :
      Finds field path item ⟨false, [⟨path, s!"{path} must be an object"⟩]⟩

/-- The failures at a path and below. -/
def Outcome.failuresFrom (outcome : Outcome) (path : String) : List Failure :=
  outcome.failures.filter fun failure => path.toList.isPrefixOf failure.path.toList

theorem toList_itemPath (path : String) (index : Nat) :
    (itemPath path index).toList = path.toList ++ '[' :: (index.repr.toList ++ [']']) := by
  rw [Location.itemPath_eq, String.toList_append, Location.toList_suffix_item]
  rfl

/-- No path is below those of two items. -/
theorem itemPath_apart {path left right : String} {first second : Nat}
    (same : itemPath path first ++ left = itemPath path second ++ right) : first = second := by
  simp only [← String.toList_inj, String.toList_append, toList_itemPath, List.append_assoc,
    List.cons_append, List.append_cancel_left_eq, List.cons.injEq, List.nil_append] at same
  exact (Location.index_injective same.2).1

theorem ne_itemPath_append (path rest : String) (index : Nat) :
    path ≠ itemPath path index ++ rest := by
  intro same
  have lengths := congrArg (fun text => text.toList.length) same
  simp only [String.toList_append, toList_itemPath, List.length_append, List.length_cons] at lengths
  omega

theorem Outcome.verdict?_closed_of_ne {outcome : Outcome} {path other : String}
    (distinct : path ≠ other) : (outcome.closed path).verdict? other = outcome.verdict? other :=
  Verdicts.get?_note_of_ne _ _ distinct

/-- Items that leave every state as it is may be left out of a fold. -/
theorem foldl_only {α β : Type} {step : β → α → β} {items : List α} (index : Nat)
    (idle : ∀ other item, other ≠ index → items[other]? = some item →
      ∀ state, step state item = state) (start : β) :
    items.foldl step start = items[index]?.elim start (step start) := by
  induction items generalizing index start with
  | nil => rfl
  | cons first rest inductionHypothesis =>
      rw [List.foldl_cons]
      cases index with
      | zero =>
          -- All that is left is idle, as it is for an index that is behind it.
          rw [inductionHypothesis rest.length fun other item _ found =>
            idle (other + 1) item (Nat.succ_ne_zero other) found]
          simp
      | succ index =>
          rw [idle 0 first (Nat.succ_ne_zero index).symm rfl]
          exact inductionHypothesis index (fun other item distinct found =>
            idle (other + 1) item (mt Nat.succ.inj distinct) found) start

section Examinations

variable {examine : String → Value → Examined Value} {path : String}

theorem foldl_itemOutcomes {β : Type} {step : β → Outcome → β} (index : Nat)
    (idle : ∀ other item, other ≠ index → ∀ state,
      step state (examine (itemPath path other) item).outcome = state)
    (items : List Value) (start : β) :
    (itemOutcomes examine path 0 items).foldl step start =
      items[index]?.elim start fun item =>
        step start (examine (itemPath path index) item).outcome := by
  rw [foldl_only index, getElem?_itemOutcomes, Option.elim_map, Nat.zero_add]
  · rfl
  · intro other part distinct found state
    rw [getElem?_itemOutcomes, Nat.zero_add] at found
    obtain ⟨item, _, rfl⟩ := Option.map_eq_some_iff.mp found
    exact idle other item distinct state

/-- What is found of a value, a fault apart, is at its path or below. -/
theorem Headed.below (each : Headed examine) (path : String) (value : Value) :
    (examine path value).outcome.Below path := by
  cases examined : examine path value with
  | mk edited verdict =>
      cases verdict with
      | error fault => exact .empty path
      | ok part => exact (each examined).toBelow

variable {other index : Nat}

theorem verdict?_elsewhere (each : Headed examine) (distinct : other ≠ index) (item : Value)
    (rest : String) :
    (examine (itemPath path other) item).outcome.verdict? (itemPath path index ++ rest) = none := by
  rw [← Option.not_isSome_iff_eq_none]
  intro visited
  obtain ⟨more, same⟩ := (each.below _ item).within _ visited
  exact distinct (itemPath_apart same).symm

theorem failuresFrom_elsewhere (each : Headed examine) (distinct : other ≠ index) (item : Value) :
    (examine (itemPath path other) item).outcome.failuresFrom (itemPath path index) = [] := by
  rw [Outcome.failuresFrom, List.filter_eq_nil_iff]
  intro failure member inside
  obtain ⟨rest, same⟩ := List.isPrefixOf_iff_prefix.mp inside
  have below : failure.path = itemPath path index ++ String.ofList rest := by
    rw [← String.toList_inj, String.toList_append, String.toList_ofList, same]
  have failed := (each.below _ item).failed failure member
  rw [below, verdict?_elsewhere each distinct] at failed
  contradiction

/-- At and below the path of an item, the joined outcome says what that item does. -/
theorem verdict?_joined_item (each : Headed examine) (items : List Value) (rest : String) :
    (Outcome.empty.joined (itemOutcomes examine path 0 items)).verdict?
        (itemPath path index ++ rest) =
      items[index]?.elim none fun item =>
        (examine (itemPath path index) item).outcome.verdict? (itemPath path index ++ rest) := by
  rw [Outcome.verdict?_joined, List.foldl_map, foldl_itemOutcomes index]
  · have unvisited : Outcome.empty.verdict? (itemPath path index ++ rest) = none := rfl
    simp only [unvisited, Option.merge_none_left]
  · intro other item distinct state
    rw [verdict?_elsewhere each distinct, Option.merge_none_right]

theorem failuresFrom_joined_item (each : Headed examine) (items : List Value) :
    (Outcome.empty.joined (itemOutcomes examine path 0 items)).failuresFrom
        (itemPath path index) =
      items[index]?.elim [] fun item =>
        (examine (itemPath path index) item).outcome.failuresFrom (itemPath path index) := by
  rw [Outcome.failuresFrom, Outcome.failures_joined, List.filter_append, List.filter_flatMap,
    List.flatMap_eq_foldl, foldl_itemOutcomes index]
  · rfl
  · intro other item distinct state
    have nothing : (examine (itemPath path other) item).outcome.failuresFrom
        (itemPath path index) = [] := failuresFrom_elsewhere each distinct item
    rw [Outcome.failuresFrom] at nothing
    rw [nothing, List.append_nil]

end Examinations

namespace Field

variable {field : Field} {path : String} {item edited : Value} {items : List Value}
  {part : Outcome}

/-- How a field examines one item of an array. -/
def examineItem (field : Field) : String → Value → Examined Value :=
  match field.type, field.schema with
  | .subschema, some inner => examineDocument inner.validate
  | _, _ => fun path item => ⟨field.type.coerce item, field.judge path (field.type.coerce item)⟩

theorem examineItem_nested {inner : Schema} (type : field.type = .subschema)
    (schema : field.schema = some inner) :
    field.examineItem = examineDocument inner.validate := by
  simp only [examineItem, type, schema]

theorem examineItem_plain (plain : field.type ≠ .subschema) :
    field.examineItem = fun path item =>
      ⟨field.type.coerce item, field.judge path (field.type.coerce item)⟩ := by
  rw [examineItem]
  split
  · rename_i type _
    exact absurd type plain
  · rfl

theorem examineItem_headed (field : Field) : Headed field.examineItem := by
  rw [examineItem]
  split
  · exact examineDocument_headed (Schema.coheres _)
  · intro path item edited part examined
    exact (FieldRule.judge_single (Examined.mk.inj examined).2).heads

theorem finding_mounted (outcome : Outcome) (path mount : String) :
    ((Outcome.empty.merge mount outcome).closed path).finding =
      ⟨outcome.passed, outcome.failures.map (Failure.under mount)⟩ := by
  rw [Outcome.finding, Outcome.passed_closed]
  simp [Outcome.closed, Outcome.mark, Outcome.merge, Outcome.empty]

theorem Finds.finding_eq {finding : Finding}
    (declared : field.type = .subschema → ∃ inner, field.schema = some inner)
    (finds : field.Finds path item finding) :
    finding = (field.examineItem path item).outcome.finding := by
  cases finds with
  | passed plain judged | failed plain judged =>
      simp only [examineItem_plain plain, judged]
      rfl
  | document type schema validated =>
      rw [examineItem_nested type schema, examineDocument_object validated]
      exact (finding_mounted _ _ _).symm
  | other type other =>
      obtain ⟨inner, schema⟩ := declared type
      rw [examineItem_nested type schema, examineDocument_of_members? _ _ other]
      rfl

theorem finds_of_examineItem
    (declared : field.type = .subschema → ∃ inner, field.schema = some inner)
    (examined : field.examineItem path item = ⟨edited, .ok part⟩) :
    field.Finds path item part.finding := by
  by_cases type : field.type = .subschema
  · obtain ⟨inner, schema⟩ := declared type
    rw [examineItem_nested type schema] at examined
    rcases examineDocument_ok examined with
      ⟨members, body, outcome, rfl, validated, _, rfl⟩ | ⟨other, _, rfl⟩
    · rw [finding_mounted]
      exact .document type schema validated
    · exact .other type other
  · rw [examineItem_plain type] at examined
    have judged := (Examined.mk.inj examined).2
    cases FieldRule.judge_single judged with
    | pass => exact .passed type judged
    | failure message => exact .failed type judged

/-- A field of arrays examines each item, with a schema if it holds documents. -/
theorem settle_items {after : Option Value} (array : field.isArray = true)
    (settled : field.settle (some (.array items)) = ⟨after, .ok part⟩) :
    (field.type = .subschema → ∃ inner, field.schema = some inner) ∧
    ∃ edited, examineArray field.examineItem field.name items = ⟨edited, .ok part⟩ := by
  rcases FieldRule.settle_ok settled with
    ⟨validate, type, nested, settled⟩ | ⟨plain, _, settled⟩
  all_goals
    rw [FieldRule.settleBy_of_value (FieldRule.defaulted_of_value rfl) rfl] at settled
    obtain ⟨edited, examined, _⟩ := Examined.map_eq_mk settled
  · obtain ⟨inner, schema, rfl⟩ := Option.map_eq_some_iff.mp nested
    rw [FieldRule.examineNested_array array] at examined
    exact ⟨fun _ => ⟨inner, schema⟩, edited, by rwa [examineItem_nested type schema]⟩
  · rw [FieldRule.examinePlain_array array] at examined
    rw [examineItem_plain plain]
    exact ⟨fun type => absurd type plain, edited, examineArray_map.mp examined⟩

variable {body after : Members} {outcome : Outcome}

/-- The outcome for an array is joined from those of its items. -/
theorem validate_joined (array : field.isArray = true)
    (held : Keyed.get? body field.name = some (.array items))
    (validated : field.validate body = ⟨after, .ok outcome⟩) :
    outcome =
      (Outcome.empty.joined (itemOutcomes field.examineItem field.name 0 items)).closed
        field.name ∧
    ∀ index item, items[index]? = some item →
      (∀ finding, field.Finds (itemPath field.name index) item finding ↔
        finding = (field.examineItem (itemPath field.name index) item).outcome.finding) ∧
      (field.examineItem (itemPath field.name index) item).outcome.Heads
        (itemPath field.name index) := by
  rw [Field.validate_eq_settle, held] at validated
  obtain ⟨_, settled, _⟩ := Examined.map_eq_mk validated
  obtain ⟨declared, edited, examined⟩ := settle_items array settled
  obtain ⟨_, total, ran, _, rfl⟩ := examineArray_ok examined
  obtain ⟨rfl, _, each⟩ := examineItems_joined ran
  refine ⟨rfl, fun index item found => ?_⟩
  obtain ⟨left, _, examined⟩ := each index item found
  rw [Nat.zero_add] at examined
  refine ⟨fun finding => ⟨Finds.finding_eq declared, ?_⟩, field.examineItem_headed examined⟩
  rintro rfl
  exact finds_of_examineItem declared examined

theorem verdict?_item (array : field.isArray = true)
    (held : Keyed.get? body field.name = some (.array items))
    (validated : field.validate body = ⟨after, .ok outcome⟩) (index : Nat) (rest : String) :
    outcome.verdict? (itemPath field.name index ++ rest) =
      items[index]?.elim none fun item =>
        (field.examineItem (itemPath field.name index) item).outcome.verdict?
          (itemPath field.name index ++ rest) := by
  obtain ⟨rfl, _⟩ := validate_joined array held validated
  rw [Outcome.verdict?_closed_of_ne (ne_itemPath_append field.name rest index),
    verdict?_joined_item field.examineItem_headed]

theorem failuresFrom_item (array : field.isArray = true)
    (held : Keyed.get? body field.name = some (.array items))
    (validated : field.validate body = ⟨after, .ok outcome⟩) (index : Nat) :
    outcome.failuresFrom (itemPath field.name index) =
      items[index]?.elim [] fun item =>
        (field.examineItem (itemPath field.name index) item).outcome.failuresFrom
          (itemPath field.name index) := by
  obtain ⟨rfl, _⟩ := validate_joined array held validated
  exact failuresFrom_joined_item field.examineItem_headed items

/-- Items are validated each on its own and located by their index.  The verdict for the path of an
item is what it comes to on its own, the failures are those of the items in their order, the verdict
for the field is that of all items, and an item that is replaced by another changes nothing that is
said at or below the path of a third. -/
theorem validate_items (array : field.isArray = true)
    (held : Keyed.get? body field.name = some (.array items))
    (validated : field.validate body = ⟨after, .ok outcome⟩) :
    (∃ found : List Finding, found.length = items.length ∧
      (∀ index item, items[index]? = some item → ∃ finding, found[index]? = some finding ∧
        (∀ other, field.Finds (itemPath field.name index) item other ↔ other = finding) ∧
        outcome.verdict? (itemPath field.name index) = some finding.passed) ∧
      outcome.failures = found.flatMap Finding.failures ∧
      outcome.verdict? field.name = some (found.all Finding.passed)) ∧
    ∀ replaced value edited other,
      field.validate (Keyed.insert body field.name (.array (items.set replaced value))) =
        ⟨edited, .ok other⟩ →
      ∀ index, index ≠ replaced →
        (∀ rest, other.verdict? (itemPath field.name index ++ rest) =
          outcome.verdict? (itemPath field.name index ++ rest)) ∧
        other.failuresFrom (itemPath field.name index) =
          outcome.failuresFrom (itemPath field.name index) := by
  constructor
  · have heads := field.coheres validated
    obtain ⟨joined, each⟩ := validate_joined array held validated
    refine ⟨(itemOutcomes field.examineItem field.name 0 items).map Outcome.finding, ?_, ?_, ?_, ?_⟩
    · rw [List.length_map, itemOutcomes, List.length_map, List.length_zipIdx]
    · intro index item found
      obtain ⟨finds, own⟩ := each index item found
      refine ⟨_, ?_, finds, ?_⟩
      · rw [List.getElem?_map, getElem?_itemOutcomes, found, Nat.zero_add]
        rfl
      · have verdict := verdict?_item array held validated index ""
        rwa [String.append_empty, found, Option.elim_some, own.own] at verdict
    · rw [joined, List.flatMap_map]
      exact Outcome.failures_joined _ _
    · rw [heads.own, joined, Outcome.passed_closed, Outcome.passed_joined, List.all_map]
      rfl
  · intro replaced value edited other again index distinct
    have inserted := Keyed.get?_insert_self body field.name
      (Value.array (items.set replaced value))
    have kept : (items.set replaced value)[index]? = items[index]? :=
      List.getElem?_set_ne distinct.symm
    constructor
    · intro rest
      rw [verdict?_item array inserted again, verdict?_item array held validated, kept]
    · rw [failuresFrom_item array inserted again, failuresFrom_item array held validated, kept]

end Field

namespace Sample

def tags : Field where
  name := "tags"
  type := .string
  isArray := true
  required := false
  validator := some ⟨"short", fun value => .ok (value.display.length < 4)⟩

def charlesPhones : List Value := [.object [("number", .text "123456")], .text "none"]

/-- The second telephone is a document now. -/
def mendedCharles : Members :=
  Keyed.insert charles "phones" (.array (charlesPhones.set 1 (.object [("number", .text "55")])))

end Sample

open Sample in
theorem Field.validate_items_of_charles :
    (phones.isArray = true ∧ Keyed.get? charles "phones" = some (.array charlesPhones) ∧
      phones.validate charles =
        ⟨(phones.validate charles).edited, .ok (phones.validate charles).outcome⟩ ∧
      phones.validate mendedCharles =
        ⟨(phones.validate mendedCharles).edited, .ok (phones.validate mendedCharles).outcome⟩) ∧
    (tags.isArray = true ∧ Keyed.get? charles "tags" = some (.array [.text "older", .null]) ∧
      tags.validate charles =
        ⟨(tags.validate charles).edited, .ok (tags.validate charles).outcome⟩) ∧
    (∃ found : List Finding, found.length = 2 ∧
      (phones.validate charles).outcome.failures = found.flatMap Finding.failures) ∧
    ((phones.validate mendedCharles).outcome.failuresFrom "phones[0]" =
        (phones.validate charles).outcome.failuresFrom "phones[0]" ∧
      (phones.validate charles).outcome.verdict? "phones[1]" = some false ∧
      (phones.validate mendedCharles).outcome.verdict? "phones[1]" = some true) ∧
    ∃ found : List Finding,
      (tags.validate charles).outcome.verdict? "tags" = some (found.all Finding.passed) := by
  have held : Keyed.get? charles "phones" = some (.array charlesPhones) := rfl
  have first : phones.validate charles = _ := Examined.eq_of_ok (by decide +kernel)
  have second : phones.validate mendedCharles = _ := Examined.eq_of_ok (by decide +kernel)
  have texts : Keyed.get? charles "tags" = some (.array [.text "older", .null]) := rfl
  have third : tags.validate charles = _ := Examined.eq_of_ok (by decide +kernel)
  obtain ⟨⟨found, length, _, failures, _⟩, apart⟩ := Field.validate_items rfl held first
  obtain ⟨⟨others, _, _, _, whole⟩, _⟩ := Field.validate_items rfl texts third
  have same := (apart 1 (.object [("number", .text "55")]) _ _ second 0 Nat.zero_ne_one).2
  exact ⟨⟨rfl, held, first, second⟩, ⟨rfl, texts, third⟩, ⟨found, length, failures⟩,
    ⟨same, by decide +kernel, by decide +kernel⟩, others, whole⟩

example : (Sample.phones.validate Sample.mendedCharles).outcome.failures.map Failure.path =
    ["phones[0].number"] := by decide +kernel

end Schemata
