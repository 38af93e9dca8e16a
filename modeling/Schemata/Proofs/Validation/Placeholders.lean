import Schemata.Validation.Template
namespace Schemata

/-! What messages are made of templates.

`Template.expand` goes through the characters of a template one by one, and
`Template.render_single_pass` says that the pass over its bytes comes to the same: it never cuts
a character, does not look at what it has put in, and goes on right behind a percent sign that
starts no placeholder. -/

namespace Template

variable {value : Value} {declared : FieldType} {text rest shown head : String}

/-- At each place a placeholder of three characters or, failing that, one character. -/
def expand (value : Value) (declared : FieldType) : List Char → List Char
  | '%' :: 'v' :: '%' :: rest => value.display.toList ++ expand value declared rest
  | '%' :: 't' :: '%' :: rest => value.typeName.toList ++ expand value declared rest
  | '%' :: 's' :: '%' :: rest => declared.name.toList ++ expand value declared rest
  | '%' :: 'S' :: '%' :: rest => declared.valueName.toList ++ expand value declared rest
  | c :: rest => c :: expand value declared rest
  | [] => []

theorem expand_append_of_absent {before : List Char} (absent : '%' ∉ before) (rest : List Char) :
    expand value declared (before ++ rest) = before ++ expand value declared rest := by
  induction before with
  | nil => rfl
  | cons c before inductionHypothesis =>
      simp only [List.mem_cons, not_or] at absent
      rw [List.cons_append, expand, inductionHypothesis absent.2, List.cons_append]
      all_goals
        intro later same
        exact absurd same.symm absent.1

theorem expand_substitute (substituted : substitute? value declared head = some shown)
    (rest : List Char) :
    expand value declared (head.toList ++ rest) = shown.toList ++ expand value declared rest := by
  unfold substitute? at substituted
  split at substituted <;> cases substituted <;> rfl

theorem leading?_append (three : head.utf8ByteSize = 3) (rest : String) :
    leading? value declared (head ++ rest) = substitute? value declared head := by
  have cut : Text.cut? (head ++ rest) 3 = some (head, rest) := three ▸ Text.cut?_append head rest
  rw [leading?, cut, Option.bind_some]

/-- A percent sign that no placeholder begins with is one character among others. -/
theorem expand_percent (plain : leading? value declared ("%" ++ rest) = none) :
    expand value declared ('%' :: rest.toList) = '%' :: expand value declared rest.toList := by
  have apart : ∀ head : String, head.utf8ByteSize = 3 →
      (substitute? value declared head).isSome = true →
      ∀ later, '%' :: rest.toList ≠ head.toList ++ later := by
    intro head three substituted later same
    have text : "%" ++ rest = head ++ String.ofList later := by
      rw [← String.toList_inj]
      simpa using same
    rw [text, leading?_append three] at plain
    simp [plain] at substituted
  rw [expand]
  · intro later _ same
    exact apart "%v%" rfl rfl later (congrArg ('%' :: ·) same)
  · intro later _ same
    exact apart "%t%" rfl rfl later (congrArg ('%' :: ·) same)
  · intro later _ same
    exact apart "%s%" rfl rfl later (congrArg ('%' :: ·) same)
  · intro later _ same
    exact apart "%S%" rfl rfl later (congrArg ('%' :: ·) same)

theorem Turn.expand_eq {left : Option String} (turn : Turn value declared text shown left) :
    expand value declared text.toList =
      shown.toList ++ left.elim [] fun rest => expand value declared rest.toList := by
  cases turn with
  | last absent =>
      have whole : expand value declared (text.toList ++ []) =
          text.toList ++ expand value declared [] := expand_append_of_absent absent []
      rwa [List.append_nil] at whole
  | placeholder absent substituted =>
      rw [String.toList_append, String.toList_append, String.toList_append,
        expand_append_of_absent absent, expand_substitute substituted, List.append_assoc]
      rfl
  | percent absent plain =>
      rw [String.toList_append, String.toList_append, String.toList_append,
        expand_append_of_absent absent, List.append_assoc]
      exact congrArg _ (expand_percent plain)

theorem pass?_eq_expand (value : Value) (declared : FieldType) (text : String) :
    pass? value declared text = some (String.ofList (expand value declared text.toList)) := by
  fun_induction pass? value declared text with
  | case1 text failed => exact absurd failed (turn?_ne_none value declared text)
  | case2 text shown turned =>
      rw [(turn_of_turn? turned).expand_eq, Option.elim_none, List.append_nil, String.ofList_toList]
  | case3 text shown rest turned inductionHypothesis =>
      rw [inductionHypothesis, (turn_of_turn? turned).expand_eq, Option.map_some,
        Option.elim_some, String.ofList_append, String.ofList_toList]

theorem render_eq_expand (template : String) (value : Value) (declared : FieldType) :
    render template value declared = String.ofList (expand value declared template.toList) := by
  simp only [render, pass?_eq_expand, Option.get_some]

/-- There is a message for every template, since no cut is within a character, and it is the
template with each placeholder, from the left, in exchange for what it stands for.  So what has
been put in is not looked at again, and a percent sign that begins no placeholder stays, with
the next character free to begin one. -/
theorem render_single_pass (template : String) (value : Value) (declared : FieldType) :
    pass? value declared template =
      some (String.ofList (expand value declared template.toList)) ∧
    render template value declared = String.ofList (expand value declared template.toList) ∧
    (∀ head shown rest, substitute? value declared head = some shown →
      render (head ++ rest) value declared = shown ++ render rest value declared) ∧
    ∀ rest, leading? value declared ("%" ++ rest) = none →
      render ("%" ++ rest) value declared = "%" ++ render rest value declared := by
  refine ⟨pass?_eq_expand value declared template, render_eq_expand template value declared,
    ?_, ?_⟩
  · intro head shown rest substituted
    rw [render_eq_expand, render_eq_expand, String.toList_append, expand_substitute substituted,
      String.ofList_append, String.ofList_toList]
  · intro rest plain
    rw [render_eq_expand, render_eq_expand, String.toList_append]
    exact (congrArg String.ofList (expand_percent plain)).trans String.ofList_cons

example : render "%s% / %S% / 100%" (.bool true) .date = "date / DateOnly / 100%" := by
  decide +kernel

/-- The value looks like a placeholder, and so does what stands before one. -/
theorem render_single_pass_of_adjacent :
    (substitute? (.text "%t%") .string "%v%" = some "%t%" ∧
      leading? (.text "%t%") .string ("%" ++ ("%v%" ++ "é%S")) = none) ∧
    render ("%" ++ ("%v%" ++ "é%S")) (.text "%t%") .string =
      "%" ++ ("%t%" ++ render "é%S" (.text "%t%") .string) := by
  have plain : leading? (.text "%t%") .string ("%" ++ ("%v%" ++ "é%S")) = none := by
    decide +kernel
  obtain ⟨_, _, replaced, kept⟩ := render_single_pass "é%S" (.text "%t%") .string
  have substituted : substitute? (.text "%t%") .string "%v%" = some "%t%" := rfl
  exact ⟨⟨substituted, plain⟩, (kept _ plain).trans (congrArg _ (replaced _ _ _ substituted))⟩

end Template

end Schemata
