import Schemata.Graph.Edge
namespace Schemata

/-! Depth-first search along references.

The search answers with the positions in the order in which they are finished, each
after all that it refers to, or with the first way that it finds back to a position it
is still in. -/

namespace Graph

/-- The part of a path, latest edge first, from a position on it to its end. -/
def cycleOf (path : List Edge) (position : Nat) : List Edge :=
  path.reverse.dropWhile fun edge => edge.source ≠ position

/-- Follows the remaining references of a position.  `path` led there, latest edge
first, and `finished` is done with.  The answer lists what this call finishes. -/
def follow (schemas : List SchemaDescription) (current : Nat) (path : List Edge)
    (finished : List Nat) (remaining : List (String × Nat)) :
    Except (List Edge) (List Nat) :=
  match remaining with
  | [] => .ok []
  | (field, target) :: rest =>
      let walked := ⟨current, field, target⟩ :: path
      if target ∈ current :: path.map Edge.source then
        .error (cycleOf walked target)
      else if target ∈ finished then
        follow schemas current path finished rest
      else
        match follow schemas target walked finished (references schemas target) with
        | .error cycle => .error cycle
        | .ok fresh =>
            match follow schemas current path (finished ++ (fresh ++ [target])) rest with
            | .error cycle => .error cycle
            | .ok later => .ok (fresh ++ [target] ++ later)
termination_by
  (unseen schemas.length (current :: path.map Edge.source) finished, remaining.length)
decreasing_by
  · exact Prod.Lex.right _ (by simp)
  · by_cases inside : target < schemas.length
    · exact Prod.Lex.left _ _ (unseen_open_lt inside ‹_› ‹_›)
    · rw [references_eq_nil (by omega)]
      have smaller :=
        unseen_open_le schemas.length target (current :: path.map Edge.source) finished
      rcases Nat.lt_or_eq_of_le smaller with less | equal
      · exact Prod.Lex.left _ _ less
      · rw [show unseen schemas.length
            (target :: List.map Edge.source (⟨current, field, target⟩ :: path)) finished =
          unseen schemas.length (current :: path.map Edge.source) finished from equal]
        exact Prod.Lex.right _ (by simp)
  · have smaller := unseen_le schemas.length (current :: path.map Edge.source) finished
      (fresh ++ [target])
    rcases Nat.lt_or_eq_of_le smaller with less | equal
    · exact Prod.Lex.left _ _ less
    · rw [equal]
      exact Prod.Lex.right _ (by simp)

/-- Finishes the given positions one after the other, after what is finished. -/
def finishFrom (schemas : List SchemaDescription) (finished : List Nat) :
    List Nat → Except (List Edge) (List Nat)
  | [] => .ok finished
  | position :: rest =>
      if position ∈ finished then finishFrom schemas finished rest
      else
        match follow schemas position [] finished (references schemas position) with
        | .error cycle => .error cycle
        | .ok fresh => finishFrom schemas (finished ++ (fresh ++ [position])) rest

/-- All positions in the order in which they are finished, or a cycle. -/
def finishingOrder (schemas : List SchemaDescription) : Except (List Edge) (List Nat) :=
  finishFrom schemas [] (List.range schemas.length)

end Graph

end Schemata
