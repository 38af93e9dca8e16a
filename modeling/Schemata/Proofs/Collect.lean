import Mathlib.Data.List.Forall2
import Schemata.Collect
namespace Schemata

/-! Steps that are taken for all items of a list, up to the first that fails, and lists that are
related item by item. -/

universe u v w

variable {ε α : Type u} {β : Type v} {γ : Type w}

/-- A step that either has a fault or a result is taken for all items, or fails with the
fault of the first that has one. -/
theorem mapM_of_faults {step : β → Except ε α} {fault? : β → Option ε} {result : β → α}
    {items : List β}
    (each : ∀ item ∈ items, step item = (fault? item).elim (.ok (result item)) .error) :
    items.mapM step = (items.findSome? fault?).elim (.ok (items.map result)) .error := by
  induction items with
  | nil => rfl
  | cons item rest inductionHypothesis =>
      rw [List.mapM_cons, each item List.mem_cons_self,
        inductionHypothesis fun other member => each other (List.mem_cons_of_mem _ member),
        List.findSome?_cons]
      cases fault? item with
      | some error => rfl
      | none =>
          cases rest.findSome? fault? with
          | some error => rfl
          | none => rfl

/-- What was written item by item is read as the list of what each item is read as. -/
theorem mapM_map_eq_pure {m : Type → Type} [Monad m] [LawfulMonad m] {α β γ : Type}
    {write : γ → β} {read : β → m α} {result : γ → α} {items : List γ}
    (each : ∀ item ∈ items, read (write item) = pure (result item)) :
    (items.map write).mapM read = pure (items.map result) := by
  induction items with
  | nil => rfl
  | cons item rest inductionHypothesis =>
      rw [List.map_cons, List.mapM_cons, each item List.mem_cons_self,
        inductionHypothesis fun other member => each other (List.mem_cons_of_mem _ member)]
      simp

/-- A step that may have no result is taken for all items exactly where each has one. -/
theorem mapM_eq_some_iff {α β : Type} {step : β → Option α} {items : List β}
    {results : List α} :
    items.mapM step = some results ↔
      List.Forall₂ (fun item result => step item = some result) items results := by
  induction items generalizing results with
  | nil =>
      rw [List.mapM_nil, List.forall₂_nil_left_iff]
      exact ⟨fun same => (Option.some.inj same).symm, fun same => congrArg some same.symm⟩
  | cons item rest inductionHypothesis =>
      rw [List.mapM_cons, List.forall₂_cons_left_iff]
      simp only [Option.bind_eq_bind, Option.bind_eq_some_iff, inductionHypothesis]
      constructor
      · intro ⟨first, stepped, others, taken, same⟩
        exact ⟨first, others, stepped, taken, (Option.some.inj same).symm⟩
      · intro ⟨first, others, stepped, taken, same⟩
        exact ⟨first, stepped, others, taken, congrArg some same.symm⟩

theorem findSome?_flatMap (inner : γ → List β) (pick : β → Option α) (items : List γ) :
    (items.flatMap inner).findSome? pick = items.findSome? fun item =>
      (inner item).findSome? pick := by
  induction items with
  | nil => rfl
  | cons item rest inductionHypothesis =>
      rw [List.flatMap_cons, List.findSome?_append, inductionHypothesis, List.findSome?_cons]
      cases (inner item).findSome? pick <;> rfl

theorem findSome?_filterMap (inner : γ → Option β) (pick : β → Option α) (items : List γ) :
    (items.filterMap inner).findSome? pick = items.findSome? fun item =>
      (inner item).bind pick := by
  rw [← List.head?_filterMap, ← List.head?_filterMap, List.filterMap_filterMap]

section Results

variable {step : β → Except ε α} {items : List β} {results : List α}

theorem error_of_map {α β : Type v} {f : α → β} {answer : Except ε α} {fault : ε}
    (failed : answer.map f = .error fault) : answer = .error fault := by
  cases answer with
  | ok value => simp [Except.map] at failed
  | error other => exact congrArg Except.error (Except.error.inj failed)

/-- An answer that is one is itself, whatever would stand for a failure. -/
theorem eq_ok_of_isOk {answer : Except ε α} (ok : answer.isOk = true) (other : α) :
    answer = .ok (answer.toOption.getD other) := by
  cases answer with
  | ok value => rfl
  | error fault => simp [Except.isOk, Except.toBool] at ok

theorem eq_ok_of_toOption {answer : Except ε α} {value : α}
    (found : answer.toOption = some value) : answer = .ok value := by
  cases answer with
  | ok held => exact congrArg Except.ok (Option.some.inj found)
  | error fault => simp [Except.toOption] at found

theorem mapM_ok_iff :
    items.mapM step = .ok results ↔
      List.Forall₂ (fun item result => step item = .ok result) items results := by
  induction items generalizing results with
  | nil =>
      rw [List.mapM_nil, List.forall₂_nil_left_iff]
      exact ⟨fun same => (Except.ok.inj same).symm, fun same => congrArg Except.ok same.symm⟩
  | cons item items inductionHypothesis =>
      constructor
      · intro taken
        obtain ⟨first, rest, stepped, others, rfl⟩ := mapM_cons_ok taken
        exact .cons stepped (inductionHypothesis.mp others)
      · intro each
        cases each with
        | cons stepped others =>
            rw [List.mapM_cons, stepped, inductionHypothesis.mpr others]
            rfl

theorem mapM_exists (each : ∀ item ∈ items, ∃ result, step item = .ok result) :
    ∃ results, items.mapM step = .ok results := by
  induction items with
  | nil => exact ⟨[], rfl⟩
  | cons item items inductionHypothesis =>
      obtain ⟨first, stepped⟩ := each item List.mem_cons_self
      obtain ⟨rest, others⟩ :=
        inductionHypothesis fun other member => each other (List.mem_cons_of_mem item member)
      exact ⟨first :: rest, mapM_ok_iff.mpr (.cons stepped (mapM_ok_iff.mp others))⟩

theorem foldlM_preserves {next : α → β → Except ε α} {holds : α → Prop} {start result : α}
    (preserved : ∀ {before after item}, item ∈ items → holds before →
      next before item = .ok after → holds after)
    (initial : holds start) (folded : items.foldlM next start = .ok result) : holds result := by
  induction items generalizing start with
  | nil =>
      rw [List.foldlM_nil] at folded
      exact Except.ok.inj folded ▸ initial
  | cons item items inductionHypothesis =>
      rw [List.foldlM_cons] at folded
      obtain ⟨middle, stepped, folded⟩ := ok_of_bind folded
      exact inductionHypothesis (fun inside => preserved (List.mem_cons_of_mem _ inside))
        (preserved List.mem_cons_self initial stepped) folded

end Results

section Pairs

/-- Lists that are related item by item are so in every way that follows for the items of the
first. -/
theorem forall₂_imp_of_mem {α β : Type} {related other : α → β → Prop} {lefts : List α}
    {rights : List β} (each : ∀ left ∈ lefts, ∀ right, related left right → other left right)
    (pairs : List.Forall₂ related lefts rights) : List.Forall₂ other lefts rights := by
  induction pairs with
  | nil => exact .nil
  | cons first rest inductionHypothesis =>
      obtain ⟨here, later⟩ := List.forall_mem_cons.mp each
      exact .cons (here _ first) (inductionHypothesis later)

theorem exists_of_mem_left {α β : Type} {related : α → β → Prop} {lefts : List α}
    {rights : List β} (pairs : List.Forall₂ related lefts rights) {left : α}
    (member : left ∈ lefts) : ∃ right ∈ rights, related left right := by
  induction pairs with
  | nil => simp at member
  | cons first _ inductionHypothesis =>
      rcases List.mem_cons.mp member with rfl | later
      · exact ⟨_, List.mem_cons_self, first⟩
      · obtain ⟨right, inside, pair⟩ := inductionHypothesis later
        exact ⟨right, List.mem_cons_of_mem _ inside, pair⟩

theorem map_eq_of_forall₂ {α β : Type} {related : α → α → Prop} {made : α → β}
    {lefts rights : List α} (each : ∀ left right, related left right → made left = made right)
    (pairs : List.Forall₂ related lefts rights) : lefts.map made = rights.map made := by
  have same : List.Forall₂ (· = ·) (lefts.map made) (rights.map made) :=
    List.rel_map (fun left right => each left right) pairs
  rwa [List.forall₂_eq_eq_eq] at same

theorem rel_imp_of_eq_some {α : Type} {related other : α → α → Prop} {left right : Option α}
    (each : ∀ first, left = some first → ∀ second, related first second → other first second)
    (pair : Option.Rel related left right) : Option.Rel other left right := by
  cases pair with
  | none => exact .none
  | some pair => exact .some (each _ rfl _ pair)

theorem map_eq_of_rel {α β : Type} {made : α → β} {left right : Option α}
    (pair : Option.Rel (fun first second => made first = made second) left right) :
    left.map made = right.map made := by
  cases pair with
  | none => rfl
  | some same => exact congrArg some same

end Pairs

end Schemata
