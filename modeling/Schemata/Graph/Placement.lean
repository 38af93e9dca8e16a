import Schemata.Graph.Resolution
namespace Schemata

/-! Schemas behind all that they refer to.

The walk marks a position as soon as it enters it, goes along the references of the schema
there, and puts the schema out after that.  A mark does not tell whether the schema has been
put out yet. -/

namespace Graph

theorem unseen_opened_le (count : Nat) (more opened finished : List Nat) :
    unseen count (more ++ opened) finished ≤ unseen count opened finished := by
  induction more with
  | nil => exact Nat.le_refl _
  | cons position rest inductionHypothesis =>
      exact Nat.le_trans (unseen_open_le count position (rest ++ opened) finished)
        inductionHypothesis

/-- What a walk has entered, and the schemas that it has put out. -/
structure Placement where
  entered : List Nat
  order : List SchemaDescription

/-- Enters the positions one after the other, unless they are marked.  There is no answer
if a position has no schema. -/
def place (schemas : List SchemaDescription) (marked : List Nat) (positions : List Nat) :
    Option Placement :=
  match positions with
  | [] => some ⟨[], []⟩
  | position :: rest =>
      if position ∈ marked then place schemas marked rest
      else if inside : position < schemas.length then
        match place schemas (position :: marked)
            ((references schemas position).map Prod.snd) with
        | none => none
        | some below =>
            match place schemas (below.entered ++ position :: marked) rest with
            | none => none
            | some beside =>
                some
                  { entered := below.entered ++ position :: beside.entered
                    order := below.order ++ schemas[position] :: beside.order }
      else none
termination_by (unseen schemas.length marked [], positions.length)
decreasing_by
  · exact Prod.Lex.right _ (by simp)
  · exact Prod.Lex.left _ _ (unseen_open_lt inside ‹_› (by simp))
  · exact Prod.Lex.left _ _ (Nat.lt_of_le_of_lt (unseen_opened_le _ _ _ _)
      (unseen_open_lt inside ‹_› (by simp)))

/-- The walk comes to its end where references lead to schemas. -/
theorem isSome_place {schemas : List SchemaDescription} {marked positions : List Nat}
    (closed : ∀ position, ∀ reference ∈ references schemas position,
      reference.2 < schemas.length)
    (inside : ∀ position ∈ positions, position < schemas.length) :
    (place schemas marked positions).isSome = true := by
  have targets : ∀ position, ∀ target ∈ (references schemas position).map Prod.snd,
      target < schemas.length := fun position => List.forall_mem_map.mpr (closed position)
  fun_induction place schemas marked positions with
  | case1 => rfl
  | case2 marked position rest _ inductionHypothesis =>
      exact inductionHypothesis (List.forall_mem_cons.mp inside).2
  | case3 marked position rest _ _ none_below below =>
      exact none_below ▸ below (targets position)
  | case4 marked position rest _ _ lower _ none_beside _ beside =>
      exact none_beside ▸ beside (List.forall_mem_cons.mp inside).2
  | case5 => rfl
  | case6 marked position rest _ outside =>
      exact absurd (List.forall_mem_cons.mp inside).1 outside

end Graph

namespace ResolvedGraph

variable (graph : ResolvedGraph)

/-- The schemas as they are put out by a walk that enters every position. -/
def placedOrder? : Option (List SchemaDescription) :=
  (Graph.place graph.schemas [] (List.range graph.size)).map Graph.Placement.order

theorem isSome_placedOrder? : graph.placedOrder?.isSome = true := by
  rw [placedOrder?, Option.isSome_map]
  exact Graph.isSome_place graph.closed fun position member => List.mem_range.mp member

/-- The schemas, each after all that it refers to. -/
def dependencyOrder : List SchemaDescription :=
  graph.placedOrder?.get graph.isSome_placedOrder?

theorem placedOrder?_eq : graph.placedOrder? = some graph.dependencyOrder :=
  (Option.some_get graph.isSome_placedOrder?).symm

end ResolvedGraph

end Schemata
