import Mathlib.Data.List.Nodup
import Schemata.Proofs.Graph.Links
namespace Schemata

/-! The order in which schemas can be made.

Schemas are put out in the order in which the search for a circle finishes them
(`ResolvedGraph.orders_of_ended`).  In that order every schema comes once and after all that it
leads to (`Resolution.resolve_orders`). -/

open Relation

variable {schemas : List SchemaDescription}

/-- The part before a position has all that the position refers to. -/
theorem Finished.before {order earlier later : List Nat} {position : Nat}
    (finished : Finished schemas order) (split : order = earlier ++ position :: later) :
    ∀ reference ∈ references schemas position, reference.2 ∈ earlier := by
  induction finished generalizing later with
  | nil => simp at split
  | @snoc order last before done inductionHypothesis =>
      rcases List.eq_nil_or_concat later with rfl | ⟨middle, final, rfl⟩
      · obtain ⟨rfl, same⟩ := List.append_inj' split rfl
        rwa [List.singleton_inj.mp same] at done
      · have longer : order ++ [last] = (earlier ++ position :: middle) ++ [final] := by
          simpa using split
        exact inductionHypothesis (List.append_inj' longer rfl).1

namespace ResolvedGraph

variable {graph : ResolvedGraph} {description target : SchemaDescription}
  {before after : List SchemaDescription}

/-- A field of the one schema holds documents of the other. -/
def DependsOn (graph : ResolvedGraph) (description target : SchemaDescription) : Prop :=
  ∃ entry ∈ description.fields, graph.subschema? entry.2 = some target

theorem schemas_nodup (graph : ResolvedGraph) : graph.schemas.Nodup :=
  graph.names_nodup.of_map

theorem Sound.dependencyOrder_nodup (sound : graph.Sound) : graph.dependencyOrder.Nodup := by
  obtain ⟨order, orders⟩ := sound.ordered
  rw [orders.places]
  refine orders.distinct.filterMap fun first second description here there => ?_
  obtain ⟨firstInside, rfl⟩ := List.getElem?_eq_some_iff.mp here
  obtain ⟨secondInside, same⟩ := List.getElem?_eq_some_iff.mp there
  exact (graph.schemas_nodup.getElem_inj_iff.mp same).symm

/-- What a schema depends on comes before it. -/
theorem mem_before_of_dependsOn (sound : graph.Sound)
    (split : graph.dependencyOrder = before ++ description :: after)
    (depends : graph.DependsOn description target) : target ∈ before := by
  obtain ⟨entry, declared, governed⟩ := depends
  obtain ⟨position, linked, there⟩ := Option.bind_eq_some_iff.mp governed
  obtain ⟨order, orders⟩ := sound.ordered
  rw [orders.places] at split
  obtain ⟨earlier, rest, parts, rfl, later⟩ := List.filterMap_eq_append_iff.mp split
  obtain ⟨skipped, own, others, rfl, absent, found, _⟩ := List.filterMap_eq_cons_iff.mp later
  rw [← List.append_assoc] at parts
  have passed := orders.finished.before parts _ (mem_references found declared linked)
  rcases List.mem_append.mp passed with placed | nothing
  · exact List.mem_filterMap.mpr ⟨position, placed, there⟩
  · exact absurd (absent position nothing) (by simp [there])

/-- So does all that it leads to, step by step. -/
theorem mem_before_of_transGen (sound : graph.Sound)
    (split : graph.dependencyOrder = before ++ description :: after)
    (leads : TransGen graph.DependsOn description target) : target ∈ before := by
  induction leads with
  | single depends => exact mem_before_of_dependsOn sound split depends
  | @tail middle target _ depends inductionHypothesis =>
      obtain ⟨earlier, later, rfl⟩ := List.append_of_mem inductionHypothesis
      have sooner : graph.dependencyOrder =
          earlier ++ middle :: (later ++ description :: after) := by simpa using split
      exact List.mem_append_left _ (mem_before_of_dependsOn sound sooner depends)

end ResolvedGraph

namespace Resolution

/-- The schemas of a graph come in an order, each of them once: a walk along the references comes
to its end with it, every field of documents refers to a schema that comes before its own, and so
does whatever that schema leads to. -/
theorem resolve_orders {calls : List (Json × String)} {graph : ResolvedGraph}
    (resolved : resolve (Registry.empty.registerAll calls) = .ok graph) :
    graph.placedOrder? = some graph.dependencyOrder ∧
    graph.dependencyOrder.Perm graph.schemas ∧ graph.dependencyOrder.Nodup ∧
    ∀ before description after, graph.dependencyOrder = before ++ description :: after →
      (∀ entry ∈ description.fields, entry.2.type = .subschema →
        ∃ target ∈ before, graph.subschema? entry.2 = some target) ∧
      ∀ target, TransGen graph.DependsOn description target → target ∈ before := by
  have sound := resolve_sound resolved
  have once := sound.dependencyOrder_nodup
  refine ⟨graph.placedOrder?_eq, ?_, once, ?_⟩
  · rw [List.perm_ext_iff_of_nodup once graph.schemas_nodup]
    exact fun description => ResolvedGraph.mem_dependencyOrder_iff sound
  · intro before description after split
    refine ⟨fun entry declared type => ?_, fun target leads =>
      ResolvedGraph.mem_before_of_transGen sound split leads⟩
    have loaded : description ∈ graph.schemas := by
      apply (ResolvedGraph.mem_dependencyOrder_iff sound).mp
      simp [split]
    cases sound.linked description loaded entry declared with
    | plain other => exact absurd type other
    | @subschema position target _ reference inside =>
        have governed : graph.subschema? entry.2 = some target := by
          rw [ResolvedGraph.subschema?, FieldSpec.target?_of_subschema type reference,
            Option.bind_some, inside]
        exact ⟨target, ResolvedGraph.mem_before_of_dependsOn sound split
          ⟨entry, declared, governed⟩, governed⟩

end Resolution

open Sample in
theorem Resolution.resolve_orders_of_loan :
    Resolution.resolve (Registry.empty.registerAll loanDescriptions) = .ok loanGraph ∧
    loanGraph.names = ["Loan", "Book", "Reader"] ∧
    loanGraph.dependencyOrder.map SchemaDescription.name = ["Book", "Reader", "Loan"] ∧
    loanGraph.placedOrder? = some loanGraph.dependencyOrder ∧
    loanGraph.dependencyOrder.Perm loanGraph.schemas := by
  obtain ⟨placed, permuted, _⟩ := Resolution.resolve_orders loan_resolved
  refine ⟨loan_resolved, by decide +kernel, ?_, placed, permuted⟩
  rw [(ResolvedGraph.orders_of_ended loan_ended).places]
  decide +kernel

end Schemata
