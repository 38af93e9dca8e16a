import Schemata.Registry
namespace Schemata

/-! References between schemas as a graph on their positions. -/

structure Edge where
  source : Nat
  field : String
  target : Nat
deriving DecidableEq

/-- The linked fields of the schema at a position, in the order of declaration, each
with the position that it refers to. -/
def references (schemas : List SchemaDescription) (position : Nat) :
    List (String × Nat) :=
  match schemas[position]? with
  | none => []
  | some schema =>
      schema.fields.filterMap fun entry => entry.2.target?.map fun target => (entry.1, target)

/-- A field of one schema refers to the other. -/
def Refers (schemas : List SchemaDescription) (edge : Edge) : Prop :=
  (edge.field, edge.target) ∈ references schemas edge.source

theorem references_eq_nil {schemas : List SchemaDescription} {position : Nat}
    (outside : schemas.length ≤ position) : references schemas position = [] := by
  simp [references, List.getElem?_eq_none outside]

namespace Graph

/-- How many positions are neither open nor finished. -/
def unseen (count : Nat) (opened finished : List Nat) : Nat :=
  ((List.range count).filter fun position =>
    position ∉ opened ∧ position ∉ finished).length

theorem unseen_le (count : Nat) (opened finished more : List Nat) :
    unseen count opened (finished ++ more) ≤ unseen count opened finished := by
  simp only [unseen]
  simp only [← List.countP_eq_length_filter]
  apply List.countP_mono_left
  intro position _ seen
  simp only [List.mem_append, not_or, Bool.decide_and, Bool.and_eq_true,
    decide_eq_true_eq] at seen ⊢
  exact ⟨seen.1, seen.2.1⟩

theorem unseen_open_le (count target : Nat) (opened finished : List Nat) :
    unseen count (target :: opened) finished ≤ unseen count opened finished := by
  simp only [unseen]
  simp only [← List.countP_eq_length_filter]
  apply List.countP_mono_left
  intro position _ seen
  simp only [List.mem_cons, not_or, Bool.decide_and, Bool.and_eq_true,
    decide_eq_true_eq] at seen ⊢
  exact ⟨seen.1.2, seen.2⟩

theorem unseen_open_lt {count target : Nat} {opened finished : List Nat}
    (inside : target < count) (notOpen : target ∉ opened) (notFinished : target ∉ finished) :
    unseen count (target :: opened) finished < unseen count opened finished := by
  simp only [unseen]
  simp only [← List.countP_eq_length_filter]
  have split :
      List.countP (fun position =>
          decide (position ∉ target :: opened ∧ position ∉ finished)) (List.range count) +
        List.countP (fun position => decide (position = target)) (List.range count) ≤
      List.countP (fun position =>
          decide (position ∉ opened ∧ position ∉ finished)) (List.range count) := by
    simp only [List.mem_cons, not_or]
    generalize List.range count = positions
    induction positions with
    | nil => simp
    | cons position rest inductionHypothesis =>
        simp only [List.countP_cons]
        by_cases same : position = target
        · subst same
          simp only [not_true_eq_false, false_and, decide_false, Bool.false_eq_true,
            ↓reduceIte, decide_true, notOpen, notFinished, not_false_eq_true, and_self]
          omega
        · simp only [same, not_false_eq_true, true_and, decide_false, Bool.false_eq_true,
            ↓reduceIte]
          omega
  have member : 0 < List.countP (fun position => decide (position = target))
      (List.range count) :=
    List.countP_pos_iff.mpr ⟨target, List.mem_range.mpr inside, by simp⟩
  omega

end Graph

end Schemata
