import Mathlib.Data.List.Nodup
import Mathlib.Logic.Relation
import Schemata.Graph.Search
namespace Schemata

/-! The depth-first search finds a way back exactly when there is one.

What the search finishes is an order in which every position comes after all that it
refers to (`Finished`), and in such an order no position can be reached from itself.  When
the search gives up instead, all positions that it is still in lead to the current one, so
the reference back to one of them closes a cycle. -/

open Relation

/-- Some field of one schema refers to the other. -/
def RefersTo (schemas : List SchemaDescription) (source target : Nat) : Prop :=
  ∃ field, Refers schemas ⟨source, field, target⟩

/-- A list of positions, each after all that it refers to. -/
inductive Finished (schemas : List SchemaDescription) : List Nat → Prop
  | nil : Finished schemas []
  | snoc {order : List Nat} {position : Nat} (before : Finished schemas order)
      (done : ∀ reference ∈ references schemas position, reference.2 ∈ order) :
      Finished schemas (order ++ [position])

variable {schemas : List SchemaDescription} {order : List Nat} {source target : Nat}

theorem Finished.closed (finished : Finished schemas order) (member : source ∈ order)
    (refers : RefersTo schemas source target) : target ∈ order := by
  induction finished with
  | nil => simp at member
  | snoc before done inductionHypothesis =>
      rcases List.mem_append.mp member with earlier | last
      · exact List.mem_append_left _ (inductionHypothesis earlier)
      · obtain ⟨field, reference⟩ := refers
        rw [List.mem_singleton.mp last] at reference
        exact List.mem_append_left _ (done (field, target) reference)

theorem Finished.reached (finished : Finished schemas order) (member : source ∈ order)
    (reachable : ReflTransGen (RefersTo schemas) source target) : target ∈ order := by
  induction reachable with
  | refl => exact member
  | tail _ refers inductionHypothesis => exact finished.closed inductionHypothesis refers

theorem Finished.acyclic (finished : Finished schemas order) (member : source ∈ order) :
    ¬ TransGen (RefersTo schemas) source source := by
  induction finished generalizing source with
  | nil => simp at member
  | @snoc order position before done inductionHypothesis =>
      intro cycle
      rcases List.mem_append.mp member with earlier | last
      · exact inductionHypothesis earlier cycle
      · -- The first step of the cycle leads to what came before, and from there nothing
        -- leads out of it again.
        obtain rfl := List.mem_singleton.mp last
        obtain ⟨next, ⟨field, reference⟩, back⟩ := TransGen.head'_iff.mp cycle
        have earlier := before.reached (done (field, next) reference) back
        exact inductionHypothesis earlier cycle

namespace Graph

/-- A search that comes to an end has finished the remaining references and keeps the
order. -/
theorem follow_finished {current : Nat} {path : List Edge} {finished fresh : List Nat}
    {remaining : List (String × Nat)} (before : Finished schemas finished)
    (followed : follow schemas current path finished remaining = .ok fresh) :
    Finished schemas (finished ++ fresh) ∧
      ∀ reference ∈ remaining, reference.2 ∈ finished ++ fresh := by
  fun_induction follow schemas current path finished remaining generalizing fresh with
  | case1 =>
      obtain rfl := Except.ok.inj followed
      simpa using before
  | case2 => simp at followed
  | case3 current path finished field target rest _ done inductionHypothesis =>
      obtain ⟨after, others⟩ := inductionHypothesis before followed
      refine ⟨after, fun reference member => ?_⟩
      rcases List.mem_cons.mp member with rfl | member
      · exact List.mem_append_left _ done
      · exact others reference member
  | case4 => simp at followed
  | case5 => simp at followed
  | case6 current path finished field target rest _ _ _ inner found later _ below =>
      rename_i beside
      obtain rfl := Except.ok.inj followed
      obtain ⟨reached, targets⟩ := below before found
      have here : Finished schemas (finished ++ (inner ++ [target])) := by
        rw [← List.append_assoc]
        exact .snoc reached targets
      obtain ⟨after, others⟩ := beside here ‹_›
      simp only [List.append_assoc] at after others ⊢
      refine ⟨after, fun reference member => ?_⟩
      rcases List.mem_cons.mp member with rfl | member
      · simp
      · exact others reference member

/-- What a search finishes is new to it: neither is it finished already nor is the search
still in it. -/
theorem follow_fresh {current : Nat} {path : List Edge} {finished fresh : List Nat}
    {remaining : List (String × Nat)} (distinct : finished.Nodup)
    (followed : follow schemas current path finished remaining = .ok fresh) :
    (∀ position ∈ current :: path.map Edge.source, position ∉ fresh) ∧
      (finished ++ fresh).Nodup := by
  fun_induction follow schemas current path finished remaining generalizing fresh with
  | case1 =>
      obtain rfl := Except.ok.inj followed
      simpa using distinct
  | case2 => simp at followed
  | case3 current path finished field target rest _ _ inductionHypothesis =>
      exact inductionHypothesis distinct followed
  | case4 => simp at followed
  | case5 => simp at followed
  | case6 current path finished field target rest walked notOpen notFinished inner found later
      _ below =>
      rename_i beside
      obtain rfl := Except.ok.inj followed
      obtain ⟨apart, reached⟩ := below distinct found
      have new : target ∉ finished ++ inner := by
        simpa [notFinished] using apart target (.head _)
      have here : (finished ++ (inner ++ [target])).Nodup := by
        simpa using List.Nodup.concat new reached
      obtain ⟨others, after⟩ := beside here ‹_›
      refine ⟨fun position opened => ?_, by simpa only [List.append_assoc] using after⟩
      have different : position ≠ target := fun same => notOpen (same ▸ opened)
      have outside : position ∉ inner := apart position (.tail _ opened)
      simp [outside, different, others position opened]

/-- A search that gives up has found a position that leads back to itself, provided that
all positions it is in lead to the current one. -/
theorem follow_cycle {current : Nat} {path : List Edge} {finished : List Nat}
    {remaining : List (String × Nat)} {cycle : List Edge}
    (leads : ∀ position ∈ current :: path.map Edge.source,
      ReflTransGen (RefersTo schemas) position current)
    (rest : ∀ reference ∈ remaining, reference ∈ references schemas current)
    (followed : follow schemas current path finished remaining = .error cycle) :
    ∃ position, TransGen (RefersTo schemas) position position := by
  fun_induction follow schemas current path finished remaining generalizing cycle with
  | case1 => simp at followed
  | case2 current path finished field target remaining _ =>
      rename_i opened
      have refers : RefersTo schemas current target := ⟨field, rest _ (.head _)⟩
      exact ⟨current, .head' refers (leads target opened)⟩
  | case3 current path finished field target remaining _ _ inductionHypothesis =>
      exact inductionHypothesis leads (fun _ member => rest _ (.tail _ member)) followed
  | case4 current path finished field target remaining _ _ _ inner found =>
      rename_i below
      have refers : RefersTo schemas current target := ⟨field, rest _ (.head _)⟩
      refine below (fun position opened => ?_) (fun _ member => member) found
      rcases List.mem_cons.mp opened with rfl | opened
      · exact .refl
      · exact (leads position opened).tail refers
  | case5 current path finished field target remaining _ _ _ inner _ later found _ =>
      rename_i beside
      exact beside leads (fun _ member => rest _ (.tail _ member)) found
  | case6 => simp at followed

theorem finishFrom_finished {finished positions order : List Nat}
    (before : Finished schemas finished)
    (ended : finishFrom schemas finished positions = .ok order) :
    Finished schemas order ∧ ∀ position, position ∈ finished ∨ position ∈ positions →
      position ∈ order := by
  induction positions generalizing finished with
  | nil =>
      obtain rfl := Except.ok.inj ended
      simpa using before
  | cons first rest inductionHypothesis =>
      simp only [finishFrom] at ended
      split at ended
      · rename_i done
        obtain ⟨after, all⟩ := inductionHypothesis before ended
        refine ⟨after, fun position member => all position ?_⟩
        rcases member with earlier | member
        · exact .inl earlier
        · rcases List.mem_cons.mp member with rfl | later
          · exact .inl done
          · exact .inr later
      · split at ended
        · simp at ended
        · rename_i fresh followed
          obtain ⟨reached, targets⟩ := follow_finished before followed
          have here : Finished schemas (finished ++ (fresh ++ [first])) := by
            rw [← List.append_assoc]
            exact .snoc reached targets
          obtain ⟨after, all⟩ := inductionHypothesis here ended
          refine ⟨after, fun position member => all position ?_⟩
          rcases member with earlier | member
          · exact .inl (by simp [earlier])
          · rcases List.mem_cons.mp member with rfl | later
            · exact .inl (by simp)
            · exact .inr later

theorem finishFrom_nodup {finished positions order : List Nat} (distinct : finished.Nodup)
    (ended : finishFrom schemas finished positions = .ok order) : order.Nodup := by
  induction positions generalizing finished with
  | nil => exact Except.ok.inj ended ▸ distinct
  | cons first rest inductionHypothesis =>
      simp only [finishFrom] at ended
      split at ended
      · exact inductionHypothesis distinct ended
      · rename_i notFinished
        split at ended
        · simp at ended
        · rename_i fresh followed
          obtain ⟨apart, reached⟩ := follow_fresh distinct followed
          have new : first ∉ finished ++ fresh := by
            simpa [notFinished] using apart first (.head _)
          exact inductionHypothesis (by simpa using List.Nodup.concat new reached) ended

theorem finishFrom_cycle {finished positions : List Nat} {cycle : List Edge}
    (ended : finishFrom schemas finished positions = .error cycle) :
    ∃ position, TransGen (RefersTo schemas) position position := by
  induction positions generalizing finished with
  | nil => simp [finishFrom] at ended
  | cons first rest inductionHypothesis =>
      simp only [finishFrom] at ended
      split at ended
      · exact inductionHypothesis ended
      · split at ended
        · rename_i found followed
          refine follow_cycle ?_ (fun _ member => member) followed
          intro position opened
          rw [show position = first by simpa using opened]
        · exact inductionHypothesis ended

/-- Nothing is left to finish where all references lead to what is finished. -/
theorem follow_of_finished {current : Nat} {path : List Edge} {finished : List Nat}
    {remaining : List (String × Nat)} (notOpen : ∀ position ∈ finished,
      position ∉ current :: path.map Edge.source)
    (done : ∀ reference ∈ remaining, reference.2 ∈ finished) :
    follow schemas current path finished remaining = .ok [] := by
  induction remaining with
  | nil => rw [follow]
  | cons reference rest inductionHypothesis =>
      obtain ⟨first, later⟩ := List.forall_mem_cons.mp done
      rw [follow, if_neg (notOpen reference.2 first), if_pos first, inductionHypothesis later]

theorem finishFrom_of_backward {first count : Nat} (bound : first + count ≤ schemas.length)
    (backward : ∀ position < schemas.length, ∀ reference ∈ references schemas position,
      reference.2 < position) :
    finishFrom schemas (List.range first) (List.range' first count) =
      .ok (List.range (first + count)) := by
  induction count generalizing first with
  | zero => rfl
  | succ count inductionHypothesis =>
      have unfinished : first ∉ List.range first := by simp
      have followed : follow schemas first [] (List.range first) (references schemas first) =
          .ok [] := by
        refine follow_of_finished (fun position finished opened => ?_) fun reference member =>
          List.mem_range.mpr (backward first (by omega) reference member)
        rw [List.map_nil, List.mem_singleton] at opened
        exact unfinished (opened ▸ finished)
      rw [List.range'_succ, finishFrom, if_neg unfinished, followed]
      dsimp only
      rw [List.nil_append, ← List.range_succ, inductionHypothesis (by omega),
        Nat.succ_add_eq_add_succ]

/-- Schemas that refer to earlier ones only are finished in the order of loading. -/
theorem finishingOrder_of_backward
    (backward : ∀ position < schemas.length, ∀ reference ∈ references schemas position,
      reference.2 < position) :
    finishingOrder schemas = .ok (List.range schemas.length) := by
  have finished := finishFrom_of_backward (Nat.le_of_eq (Nat.zero_add schemas.length)) backward
  rwa [Nat.zero_add, ← List.range_eq_range'] at finished

theorem finishingOrder_finished (ended : finishingOrder schemas = .ok order) :
    Finished schemas order ∧ ∀ position < schemas.length, position ∈ order := by
  obtain ⟨finished, all⟩ := finishFrom_finished .nil ended
  exact ⟨finished, fun position inside => all position (.inr (List.mem_range.mpr inside))⟩

theorem finishingOrder_nodup (ended : finishingOrder schemas = .ok order) : order.Nodup :=
  finishFrom_nodup List.nodup_nil ended

/-- The search finds an order exactly when no position leads back to itself. -/
theorem finishingOrder_ok_iff :
    (∃ order, finishingOrder schemas = .ok order) ↔
      ¬ ∃ position, TransGen (RefersTo schemas) position position := by
  constructor
  · rintro ⟨order, ended⟩ ⟨position, cycle⟩
    obtain ⟨finished, all⟩ := finishingOrder_finished ended
    -- A position on a cycle has references, so there is a schema at it.
    have inside : position < schemas.length := by
      obtain ⟨next, ⟨field, reference⟩, _⟩ := TransGen.head'_iff.mp cycle
      apply Nat.lt_of_not_le
      intro outside
      rw [Refers, references_eq_nil outside] at reference
      simp at reference
    exact finished.acyclic (all position inside) cycle
  · intro acyclic
    cases ended : finishingOrder schemas with
    | ok order => exact ⟨order, rfl⟩
    | error cycle => exact absurd (finishFrom_cycle ended) acyclic

end Graph

end Schemata
