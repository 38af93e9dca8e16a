import Mathlib.Data.List.Nodup
import Schemata.Proofs.Validation.Conformance
namespace Schemata

/-! Locations in documents, and the paths that stand for them.

A path is a text in which the steps of a location are only joined, so a name that has a joint in
it reads like steps.  `Schema.Unambiguous` forbids a name that goes on like a way into the value
of another field, and `Schema.path_injective` says that paths stand for one location each then. -/

/-- A step into a value: to what is under a name of it, or to an item. -/
inductive Step
  | member (name : String)
  | item (index : Nat)
deriving DecidableEq

/-- Where a value is in a document. -/
abbrev Location := List Step

namespace Location

/-- What further steps add to a path. -/
def suffix : Location → String
  | [] => ""
  | .member name :: rest => "." ++ name ++ suffix rest
  | .item index :: rest => s!"[{index}]" ++ suffix rest

def path : Location → String
  | .member name :: rest => name ++ suffix rest
  | location => suffix location

theorem suffix_member (name : String) (rest : Location) :
    suffix (.member name :: rest) = "." ++ path (.member name :: rest) :=
  String.append_assoc

theorem itemPath_append_suffix (path : String) (index : Nat) (rest : Location) :
    itemPath path index ++ suffix rest = path ++ suffix (.item index :: rest) := by
  simp only [itemPath, suffix, toString, String.append_assoc]

/-- The value to which the steps lead. -/
def find? : Location → Value → Option Value
  | [], value => some value
  | .member name :: rest, .object members => (Keyed.get? members name).bind (find? rest)
  | .item index :: rest, .array items => items[index]?.bind (find? rest)
  | _ :: _, _ => none

@[simp] theorem find?_nil (value : Value) : find? [] value = some value := by
  rw [find?]

@[simp] theorem find?_item (index : Nat) (items : List Value) :
    find? [.item index] (.array items) = items[index]? := by
  rw [find?, funext find?_nil, Option.bind_fun_some]

theorem find?_append (outer rest : Location) (value : Value) :
    find? (outer ++ rest) value = (find? outer value).bind (find? rest) := by
  induction outer generalizing value with
  | nil => rw [List.nil_append, find?_nil, Option.bind_some]
  | cons step steps inductionHypothesis =>
      have each : find? (steps ++ rest) = fun value => (find? steps value).bind (find? rest) :=
        funext inductionHypothesis
      cases step with
      | member name =>
          cases value <;> simp only [List.cons_append, find?, Option.bind_none, each,
            Option.bind_assoc]
      | item index =>
          cases value <;> simp only [List.cons_append, find?, Option.bind_none, each,
            Option.bind_assoc]

theorem suffix_append (outer rest : Location) :
    suffix (outer ++ rest) = suffix outer ++ suffix rest := by
  induction outer with
  | nil => exact String.empty_append.symm
  | cons step steps inductionHypothesis =>
      cases step <;> simp only [List.cons_append, suffix, inductionHypothesis, String.append_assoc]

/-- The way into a document inside goes on with a point. -/
theorem path_append_member (name next : String) (steps rest : Location) :
    path (.member name :: (steps ++ .member next :: rest)) =
      name ++ suffix steps ++ "." ++ path (.member next :: rest) := by
  rw [path, suffix_append, suffix_member, ← String.append_assoc, ← String.append_assoc]

theorem itemPath_eq (path : String) (index : Nat) :
    itemPath path index = path ++ suffix [.item index] := by
  simpa [suffix] using itemPath_append_suffix path index []

end Location

mutual

/-- A document of the schema may have a value at the location. -/
inductive Schema.Reaches : Schema → Location → Prop
  | member {schema : Schema} {field : Field} {rest : Location}
      (declared : field ∈ schema.fields) (persisted : field.isPersisted = true)
      (within : Field.Reaches field rest) : Schema.Reaches schema (.member field.name :: rest)

/-- Steps from what is under the name of a field. -/
inductive Field.Reaches : Field → Location → Prop
  | array {field : Field} (array : field.isArray = true) : Field.Reaches field []
  | item {field : Field} {rest : Location} (array : field.isArray = true) (index : Nat)
      (within : Field.Enters field rest) : Field.Reaches field (.item index :: rest)
  | single {field : Field} {rest : Location} (single : field.isArray = false)
      (within : Field.Enters field rest) : Field.Reaches field rest

/-- Steps from one value of a field. -/
inductive Field.Enters : Field → Location → Prop
  | here {field : Field} : Field.Enters field []
  | document {field : Field} {inner : Schema} {rest : Location} (type : field.type = .subschema)
      (schema : field.schema = some inner) (within : Schema.Reaches inner rest) :
      Field.Enters field rest

end

/-- The character by which a path goes on from the name of a field into what is under it. -/
def FieldRule.joint? (rule : FieldRule) : Option Char :=
  if rule.isArray then some '['
  else if rule.type = .subschema then some '.'
  else none

/-- The name begins like a path into what is under the name of the field. -/
def FieldRule.Covers (rule : FieldRule) (name : String) : Prop :=
  ∃ joint, rule.joint? = some joint ∧ (rule.name.push joint).toList <+: name.toList

instance (rule : FieldRule) (name : String) : Decidable (rule.Covers name) :=
  decidable_of_iff
    (rule.joint?.any fun joint => decide ((rule.name.push joint).toList <+: name.toList))
    (by simp only [FieldRule.Covers, Option.any_eq_true, decide_eq_true_eq])

/-- No stored field covers the name of another, in the schema and in all that it refers to. -/
inductive Schema.Unambiguous : Schema → Prop
  | intro {schema : Schema}
      (apart : ∀ field ∈ schema.fields, field.isPersisted = true →
        ∀ other ∈ schema.fields, other.isPersisted = true → ¬ field.Covers other.name)
      (inner : ∀ field ∈ schema.fields, ∀ inner, field.schema = some inner →
        inner.Unambiguous) : schema.Unambiguous

/-- The text tells all these locations apart. -/
def Location.Legible (text : Location → String) (places : Location → Prop) : Prop :=
  ∀ first second, places first → places second → text first = text second → first = second

namespace Location

theorem repr_injective {first second : Nat} (same : first.repr = second.repr) :
    first = second := by
  rw [Nat.repr_eq_ofList_toDigits, Nat.repr_eq_ofList_toDigits, String.ofList_inj] at same
  rw [← @Nat.ofDigitChars_ten_toDigits first, same, Nat.ofDigitChars_ten_toDigits]

/-- An index ends where its digits do. -/
theorem takeWhile_repr (index : Nat) (rest : List Char) :
    (index.repr.toList ++ ']' :: rest).takeWhile Char.isDigit = index.repr.toList := by
  have digits : ∀ c ∈ index.repr.toList, c.isDigit = true := by
    intro c member
    rw [Nat.repr_eq_ofList_toDigits, String.toList_ofList] at member
    exact Nat.isDigit_of_mem_toDigits (by decide) (by decide) member
  rw [List.takeWhile_append_of_pos digits, List.takeWhile_cons_of_neg (by decide), List.append_nil]

theorem toList_suffix_item (index : Nat) (rest : Location) :
    (suffix (.item index :: rest)).toList =
      '[' :: (index.repr.toList ++ ']' :: (suffix rest).toList) := by
  simp [suffix, toString]

theorem toList_suffix_member (name : String) (rest : Location) :
    (suffix (.member name :: rest)).toList = '.' :: (path (.member name :: rest)).toList := by
  rw [suffix_member, String.toList_append]
  rfl

theorem index_injective {first second : Nat} {left right : List Char}
    (same : first.repr.toList ++ ']' :: left = second.repr.toList ++ ']' :: right) :
    first = second ∧ left = right := by
  have indices := congrArg (List.takeWhile Char.isDigit) same
  rw [takeWhile_repr, takeWhile_repr, String.toList_inj] at indices
  rw [indices, List.append_cancel_left_eq, List.cons.injEq] at same
  exact ⟨repr_injective indices, same.2⟩

theorem suffix_item_injective {first second : Nat} {left right : Location}
    (same : suffix (.item first :: left) = suffix (.item second :: right)) :
    first = second ∧ suffix left = suffix right := by
  rw [← String.toList_inj, toList_suffix_item, toList_suffix_item, List.cons.injEq] at same
  obtain ⟨indices, rest⟩ := index_injective same.2
  exact ⟨indices, String.toList_inj.mp rest⟩

theorem suffix_ne_empty (step : Step) (rest : Location) : suffix (step :: rest) ≠ "" := by
  rw [ne_eq, ← String.toList_inj]
  cases step with
  | member name => simp [toList_suffix_member]
  | item index => simp [toList_suffix_item]

end Location

/-- A path goes on with the joint of the field. -/
theorem Field.Enters.joint {field : Field} {step : Step} {rest : Location}
    (enters : field.Enters (step :: rest)) : field.type = .subschema ∧
      ∃ more, (Location.suffix (step :: rest)).toList = '.' :: more := by
  cases enters with
  | document type _ within =>
      cases within with
      | member => exact ⟨type, _, Location.toList_suffix_member _ _⟩

theorem Field.Reaches.joint {field : Field} {step : Step} {rest : Location}
    (reaches : field.Reaches (step :: rest)) : ∃ joint more, field.joint? = some joint ∧
      (Location.suffix (step :: rest)).toList = joint :: more := by
  cases reaches with
  | item array index =>
      exact ⟨'[', _, by simp [FieldRule.joint?, array], Location.toList_suffix_item index rest⟩
  | single single within =>
      obtain ⟨type, more, suffix⟩ := within.joint
      exact ⟨'.', more, by simp [FieldRule.joint?, single, type], suffix⟩

/-- A name that goes on like the path is one that the field covers. -/
theorem Field.Reaches.name_eq_of_longer {field : Field} {rest : Location} {name : String}
    {between more : List Char} (reaches : field.Reaches rest) (apart : ¬ field.Covers name)
    (longer : name.toList = field.name.toList ++ between)
    (same : (Location.suffix rest).toList = between ++ more) : field.name = name := by
  cases between with
  | nil => simpa [String.toList_inj] using longer.symm
  | cons head tail =>
      cases rest with
      | nil => simp [Location.suffix] at same
      | cons step rest =>
          obtain ⟨joint, _, found, suffix⟩ := reaches.joint
          rw [suffix, List.cons_append, List.cons.injEq] at same
          refine absurd ⟨joint, found, tail, ?_⟩ apart
          rw [String.toList_push, longer, same.1, List.append_assoc, List.singleton_append]

theorem Field.Reaches.name_eq {field other : Field} {rest more : Location}
    (reaches : field.Reaches rest) (also : other.Reaches more)
    (apart : ¬ field.Covers other.name ∧ ¬ other.Covers field.name)
    (same : field.name ++ Location.suffix rest = other.name ++ Location.suffix more) :
    field.name = other.name := by
  rw [← String.toList_inj, String.toList_append, String.toList_append] at same
  -- One of the names may take more of the path than the other.
  rcases List.append_eq_append_iff.mp same with ⟨between, longer, left⟩ | ⟨between, longer, left⟩
  · exact reaches.name_eq_of_longer apart.1 longer left
  · exact (also.name_eq_of_longer apart.2 longer left).symm

section Paths

variable {field : Field}

theorem Field.suffix_injective_of_enters
    (inner : ∀ inner, field.schema = some inner → Location.Legible Location.path inner.Reaches) :
    Location.Legible Location.suffix field.Enters := by
  intro first second entered also same
  cases entered with
  | here =>
      cases second with
      | nil => rfl
      | cons step rest => exact absurd same.symm (Location.suffix_ne_empty step rest)
  | document _ schema within =>
      cases within with
      | @member _ _ rest declared persisted below =>
          cases also with
          | here => exact absurd same (Location.suffix_ne_empty _ rest)
          | document _ found other =>
              rw [schema, Option.some.injEq] at found
              subst found
              cases other with
              | member otherDeclared otherPersisted otherBelow =>
                  rw [Location.suffix_member, Location.suffix_member,
                    String.append_right_inj] at same
                  exact inner _ schema _ _ (.member declared persisted below)
                    (.member otherDeclared otherPersisted otherBelow) same

theorem Field.suffix_injective
    (inner : ∀ inner, field.schema = some inner → Location.Legible Location.path inner.Reaches) :
    Location.Legible Location.suffix field.Reaches := by
  have enters := Field.suffix_injective_of_enters inner
  intro first second reached also same
  cases reached with
  | array array =>
      cases second with
      | nil => rfl
      | cons step rest => exact absurd same.symm (Location.suffix_ne_empty step rest)
  | item array index within =>
      cases also with
      | array => exact absurd same (Location.suffix_ne_empty _ _)
      | item _ other below =>
          obtain ⟨rfl, rest⟩ := Location.suffix_item_injective same
          rw [enters _ _ within below rest]
      | single single => simp [array] at single
  | single single within =>
      cases also with
      | array array => simp [array] at single
      | item array => simp [array] at single
      | single _ below => exact enters _ _ within below same

/-- Without ambiguous names a path stands for one location. -/
theorem Schema.path_injective {schema : Schema} (distinct : schema.Distinct)
    (unambiguous : schema.Unambiguous) : Location.Legible Location.path schema.Reaches := by
  induction schema using Schema.induction with
  | step schema inductionHypothesis =>
      obtain ⟨names, innerDistinct⟩ := distinct
      obtain ⟨apart, innerUnambiguous⟩ := unambiguous
      intro first second reached also same
      cases reached with
      | @member _ field rest declared persisted within =>
          cases also with
          | @member _ other more otherDeclared otherPersisted below =>
              have named : field.name = other.name := within.name_eq below
                ⟨apart field declared persisted other otherDeclared otherPersisted,
                  apart other otherDeclared otherPersisted field declared persisted⟩ same
              have one : field = other :=
                List.inj_on_of_nodup_map names declared otherDeclared named
              subst one
              -- What is left of both paths leads on from the value of one field.
              rw [Location.path, Location.path, String.append_right_inj] at same
              have inner : ∀ inner, field.schema = some inner →
                  Location.Legible Location.path inner.Reaches := fun inner nested =>
                inductionHypothesis field declared inner nested
                  (innerDistinct field declared inner nested)
                  (innerUnambiguous field declared inner nested)
              rw [Field.suffix_injective inner _ _ within below same]

end Paths

end Schemata
