import Schemata.FieldType
import Schemata.Text.Slice
import Schemata.Value.Display
namespace Schemata

/-! Failure messages with placeholders: `%v%` for the value, `%t%` for the kind of
value, `%s%` for the declared type and `%S%` for the name of that type's values.

A template is gone through once from the left, in turns that end behind a percent sign or the
placeholder that begins with it.  It is cut at places that are counted in bytes, of which none
is within a character (`Template.turn?_exists`), so there is always a message. -/

namespace Template

def standard : String := "Failed validation function"

def substitute? (value : Value) (declared : FieldType) : String → Option String
  | "%v%" => some value.display
  | "%t%" => some value.typeName
  | "%s%" => some declared.name
  | "%S%" => some declared.valueName
  | _ => none

/-- What the first three bytes of a text stand for, if they are a placeholder. -/
def leading? (value : Value) (declared : FieldType) (text : String) : Option String :=
  (Text.cut? text 3).bind fun (head, _) => substitute? value declared head

/-- What one turn puts out, and the text that is left unless it was the last.  A cut within a
character has no result. -/
def turn? (value : Value) (declared : FieldType) (text : String) :
    Option (String × Option String) :=
  match Text.offset? '%' text.toList with
  | none => some (text, none)
  | some offset =>
      (Text.cut? text offset).bind fun (before, tail) =>
        match leading? value declared tail with
        | some shown => (Text.cut? tail 3).map fun (_, rest) => (before ++ shown, some rest)
        | none => (Text.cut? tail 1).map fun (_, rest) => (before ++ "%", some rest)

/-- What a turn does: it comes to the end, to a placeholder, or to a percent sign that starts
none and stays. -/
inductive Turn (value : Value) (declared : FieldType) : String → String → Option String → Prop
  | last {text : String} (absent : '%' ∉ text.toList) : Turn value declared text text none
  | placeholder {before head rest shown : String} (absent : '%' ∉ before.toList)
      (substituted : substitute? value declared head = some shown) :
      Turn value declared (before ++ (head ++ rest)) (before ++ shown) (some rest)
  | percent {before rest : String} (absent : '%' ∉ before.toList)
      (plain : leading? value declared ("%" ++ rest) = none) :
      Turn value declared (before ++ ("%" ++ rest)) (before ++ "%") (some rest)

variable {value : Value} {declared : FieldType} {text rest shown : String}

theorem leading?_eq_some (found : leading? value declared text = some shown) :
    ∃ head rest, text = head ++ rest ∧ head.utf8ByteSize = 3 ∧
      substitute? value declared head = some shown := by
  obtain ⟨⟨head, rest⟩, cut, substituted⟩ := Option.bind_eq_some_iff.mp found
  obtain ⟨parts, size⟩ := Text.eq_of_cut? cut
  exact ⟨head, rest, parts, size, substituted⟩

theorem eq_append_of_toList {before after : List Char}
    (parts : text.toList = before ++ '%' :: after) :
    text = String.ofList before ++ ("%" ++ String.ofList after) := by
  rw [← String.toList_inj, parts]
  simp

theorem turn?_exists (value : Value) (declared : FieldType) (text : String) :
    ∃ shown left, turn? value declared text = some (shown, left) ∧
      Turn value declared text shown left := by
  rw [turn?]
  cases found : Text.offset? '%' text.toList with
  | none => exact ⟨text, none, rfl, .last (Text.offset?_eq_none_iff.mp found)⟩
  | some offset =>
      obtain ⟨before, after, parts, absent, rfl⟩ := Text.eq_of_offset? found
      obtain rfl := eq_append_of_toList parts
      have absent : '%' ∉ (String.ofList before).toList := by rwa [String.toList_ofList]
      simp only [Text.cut?_append, Option.bind_some]
      cases led : leading? value declared ("%" ++ String.ofList after) with
      | none =>
          have one : Text.cut? ("%" ++ String.ofList after) 1 = some ("%", String.ofList after) :=
            Text.cut?_append "%" _
          simp only [one, Option.map_some]
          exact ⟨_, _, rfl, .percent absent led⟩
      | some shown =>
          obtain ⟨head, rest, same, three, substituted⟩ := leading?_eq_some led
          have cut : Text.cut? (head ++ rest) 3 = some (head, rest) :=
            three ▸ Text.cut?_append head rest
          simp only [same, cut, Option.map_some]
          exact ⟨_, _, rfl, .placeholder absent substituted⟩

theorem turn_of_turn? {left : Option String}
    (turned : turn? value declared text = some (shown, left)) :
    Turn value declared text shown left := by
  obtain ⟨_, _, found, turn⟩ := turn?_exists value declared text
  rw [turned, Option.some.injEq, Prod.mk.injEq] at found
  obtain ⟨rfl, rfl⟩ := found
  exact turn

theorem turn?_ne_none (value : Value) (declared : FieldType) (text : String) :
    turn? value declared text ≠ none := by
  obtain ⟨_, _, found, _⟩ := turn?_exists value declared text
  simp [found]

theorem ne_empty_of_substitute? {head : String}
    (substituted : substitute? value declared head = some shown) : head ≠ "" := by
  rintro rfl
  simp [substitute?] at substituted

theorem Turn.shorter (turn : Turn value declared text shown (some rest)) :
    rest.utf8ByteSize < text.utf8ByteSize := by
  cases turn with
  | @placeholder before head _ _ _ substituted =>
      have size : head.utf8ByteSize ≠ 0 := fun none =>
        ne_empty_of_substitute? substituted (String.utf8ByteSize_eq_zero_iff.mp none)
      rw [String.utf8ByteSize_append, String.utf8ByteSize_append]
      omega
  | percent =>
      have size : "%".utf8ByteSize = 1 := rfl
      rw [String.utf8ByteSize_append, String.utf8ByteSize_append, size]
      omega

/-- What is put out for a text, if it is never cut within a character. -/
def pass? (value : Value) (declared : FieldType) (text : String) : Option String :=
  match _turned : turn? value declared text with
  | none => none
  | some (shown, none) => some shown
  | some (shown, some rest) => (pass? value declared rest).map (shown ++ ·)
termination_by text.utf8ByteSize
decreasing_by exact (turn_of_turn? _turned).shorter

theorem pass?_isSome (value : Value) (declared : FieldType) (text : String) :
    (pass? value declared text).isSome = true := by
  fun_induction pass? value declared text with
  | case1 text failed => exact absurd failed (turn?_ne_none value declared text)
  | case2 => rfl
  | case3 text shown rest _ inductionHypothesis =>
      rw [Option.isSome_map]
      exact inductionHypothesis

def render (template : String) (value : Value) (declared : FieldType) : String :=
  (pass? value declared template).get (pass?_isSome value declared template)

end Template

end Schemata
