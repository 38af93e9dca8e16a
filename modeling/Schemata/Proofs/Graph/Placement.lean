import Schemata.Graph.Placement
import Schemata.Proofs.Graph.Finishing
namespace Schemata

/-! The walk that only marks what it enters.

The search for a circle tells what it is in from what it has finished.  The walk that puts the
schemas out does not, but where there is no circle it meets none of the former: what it meets
with a mark has been put out already, so it puts the schemas out in the order in which the
search finishes them (`Graph.places_of_follow`, `ResolvedGraph.orders_of_ended`). -/

variable {schemas : List SchemaDescription}

namespace Graph

variable {marked positions : List Nat} {position : Nat}

theorem place_of_mem {rest : List Nat} (member : position ∈ marked) :
    place schemas marked (position :: rest) = place schemas marked rest := by
  rw [place, if_pos member]

/-- The schemas at these positions. -/
def schemasAt (schemas : List SchemaDescription) (positions : List Nat) :
    List SchemaDescription :=
  positions.filterMap fun position => schemas[position]?

theorem schemasAt_concat (positions : List Nat) (position : Nat) :
    schemasAt schemas (positions ++ [position]) =
      schemasAt schemas positions ++ schemas[position]?.toList := by
  cases found : schemas[position]? <;> simp [schemasAt, found]

/-- A walk that comes to its end with marks for these positions and has put out what is there. -/
def Places (schemas : List SchemaDescription) (marked positions fresh : List Nat) : Prop :=
  ∃ placement, place schemas marked positions = some placement ∧
    placement.order = schemasAt schemas fresh ∧
    ∀ position, position ∈ placement.entered ↔ position ∈ fresh

theorem places_nil (schemas : List SchemaDescription) (marked : List Nat) :
    Places schemas marked [] [] :=
  ⟨⟨[], []⟩, by rw [place], rfl, fun _ => Iff.rfl⟩

theorem Places.of_mem {rest fresh : List Nat} (places : Places schemas marked rest fresh)
    (member : position ∈ marked) : Places schemas marked (position :: rest) fresh := by
  rwa [Places, place_of_mem member]

/-- What a walk puts out for a position that it enters: what lies below, the schema there, and
what lies beside. -/
theorem Places.cons {rest below beside : List Nat} (unmarked : position ∉ marked)
    (inside : position < schemas.length)
    (down : Places schemas (position :: marked) ((references schemas position).map Prod.snd) below)
    (across : ∀ entered, (∀ other, other ∈ entered ↔ other ∈ below) →
      Places schemas (entered ++ position :: marked) rest beside) :
    Places schemas marked (position :: rest) (below ++ position :: beside) := by
  obtain ⟨lower, down, lowerOrder, lowerEntered⟩ := down
  obtain ⟨side, across, sideOrder, sideEntered⟩ := across lower.entered lowerEntered
  refine ⟨⟨lower.entered ++ position :: side.entered,
    lower.order ++ schemas[position] :: side.order⟩, ?_, ?_, fun other => ?_⟩
  · simp only [place, if_neg unmarked, dif_pos inside, down, across]
  · simp [lowerOrder, sideOrder, schemasAt, List.getElem?_eq_getElem inside]
  · simp [lowerEntered, sideEntered]

/-- Marks stand for what the search is in and what it has finished.  As long as the search goes
on, it meets none of the former, so the walk puts out what the search finishes. -/
theorem places_of_follow {current : Nat} {path : List Edge} {finished fresh : List Nat}
    {remaining : List (String × Nat)} (marked : List Nat)
    (closed : ∀ position, ∀ reference ∈ references schemas position,
      reference.2 < schemas.length)
    (inside : ∀ reference ∈ remaining, reference.2 < schemas.length)
    (marks : ∀ position, position ∈ marked ↔
      position ∈ current :: path.map Edge.source ∨ position ∈ finished)
    (followed : follow schemas current path finished remaining = .ok fresh) :
    Places schemas marked (remaining.map Prod.snd) fresh := by
  fun_induction follow schemas current path finished remaining generalizing marked fresh with
  | case1 =>
      obtain rfl := Except.ok.inj followed
      exact places_nil schemas marked
  | case2 => simp at followed
  | case3 current path finished field target rest _ done inductionHypothesis =>
      obtain ⟨_, later⟩ := List.forall_mem_cons.mp inside
      exact (inductionHypothesis marked later marks followed).of_mem
        ((marks target).mpr (.inr done))
  | case4 => simp at followed
  | case5 => simp at followed
  | case6 current path finished field target rest walked notOpen notFinished inner found later
      next below =>
      rename_i beside
      obtain rfl := Except.ok.inj followed
      obtain ⟨here, others⟩ := List.forall_mem_cons.mp inside
      rw [List.map_cons, List.append_assoc, List.singleton_append]
      apply Places.cons _ here
      · apply below (target :: marked) _ _ found
        · exact closed target
        · intro position
          simp only [walked, List.mem_cons, List.map_cons, marks position, or_assoc]
      · intro entered enters
        apply beside (entered ++ target :: marked) others _ next
        intro position
        simp only [List.mem_append, List.mem_cons, enters, marks position]
        tauto
      · exact fun member => ((marks target).mp member).elim notOpen notFinished

theorem places_of_finishFrom {finished order : List Nat} (marked : List Nat)
    (closed : ∀ position, ∀ reference ∈ references schemas position,
      reference.2 < schemas.length)
    (inside : ∀ position ∈ positions, position < schemas.length)
    (marks : ∀ position, position ∈ marked ↔ position ∈ finished)
    (ended : finishFrom schemas finished positions = .ok order) :
    ∃ fresh, order = finished ++ fresh ∧ Places schemas marked positions fresh := by
  induction positions generalizing marked finished with
  | nil =>
      obtain rfl := Except.ok.inj ended
      exact ⟨[], (List.append_nil _).symm, places_nil schemas marked⟩
  | cons first rest inductionHypothesis =>
      obtain ⟨here, others⟩ := List.forall_mem_cons.mp inside
      simp only [finishFrom] at ended
      split at ended
      · rename_i done
        obtain ⟨fresh, rfl, places⟩ := inductionHypothesis marked others marks ended
        exact ⟨fresh, rfl, places.of_mem ((marks first).mpr done)⟩
      · rename_i notFinished
        split at ended
        · simp at ended
        · rename_i below followed
          -- What is marked once the walk is back is what the search has finished by then.
          have across : ∀ entered, (∀ other, other ∈ entered ↔ other ∈ below) → ∃ beside,
              order = (finished ++ (below ++ [first])) ++ beside ∧
              Places schemas (entered ++ first :: marked) rest beside := by
            intro entered enters
            apply inductionHypothesis (entered ++ first :: marked) others _ ended
            intro position
            simp only [List.mem_append, List.mem_cons, enters, marks position]
            tauto
          obtain ⟨beside, rfl, _⟩ := across below fun _ => Iff.rfl
          refine ⟨below ++ first :: beside, by simp, ?_⟩
          apply Places.cons (mt (marks first).mp notFinished) here
          · apply places_of_follow (first :: marked) closed _ _ followed
            · exact closed first
            · exact fun position => by simp [marks position]
          · intro entered enters
            obtain ⟨again, same, places⟩ := across entered enters
            rwa [List.append_cancel_left same]

end Graph

namespace ResolvedGraph

/-- The schemas are put out in this order of their positions, each position once and after all
that it refers to. -/
structure Orders (graph : ResolvedGraph) (order : List Nat) : Prop where
  finished : Finished graph.schemas order
  distinct : order.Nodup
  all : ∀ position < graph.schemas.length, position ∈ order
  places : graph.dependencyOrder = Graph.schemasAt graph.schemas order

variable {graph : ResolvedGraph} {order : List Nat} {description : SchemaDescription}

theorem orders_of_ended (ended : Graph.finishingOrder graph.schemas = .ok order) :
    graph.Orders order := by
  obtain ⟨finished, all⟩ := Graph.finishingOrder_finished ended
  refine ⟨finished, Graph.finishingOrder_nodup ended, all, ?_⟩
  obtain ⟨fresh, rfl, placement, placed, puts, _⟩ := Graph.places_of_finishFrom [] graph.closed
    (fun position member => List.mem_range.mp member) (fun _ => Iff.rfl) ended
  apply Option.some.inj
  rw [← placedOrder?_eq, placedOrder?, size, placed, Option.map_some, puts]

theorem Orders.mem_dependencyOrder_iff (orders : graph.Orders order) :
    description ∈ graph.dependencyOrder ↔ description ∈ graph.schemas := by
  rw [orders.places, Graph.schemasAt, List.mem_filterMap]
  constructor
  · rintro ⟨position, _, inside⟩
    exact List.mem_of_getElem? inside
  · intro loaded
    obtain ⟨position, inside⟩ := List.getElem?_of_mem loaded
    obtain ⟨bounded, _⟩ := List.getElem?_eq_some_iff.mp inside
    exact ⟨position, orders.all position bounded, inside⟩

end ResolvedGraph

end Schemata
