import Schemata.Proofs.Graph.Resolution
namespace Schemata

/-! The circle that is reported is one.

The edges that the search has followed are a walk to the position that it is in, and no two of
them start from one position.  Where a reference leads back to one of these, the edges from there
on are a walk back to it (`Walk.from_source`), and those by which the search has come there are
left out.  `Resolution.resolve_circular` says the same of the names in the error. -/

/-- Edges that follow one another, each a reference from where the one before has led. -/
inductive Walk (schemas : List SchemaDescription) : Nat → List Edge → Nat → Prop
  | nil (position : Nat) : Walk schemas position [] position
  | cons {edge : Edge} {rest : List Edge} {last : Nat} (refers : Refers schemas edge)
      (onwards : Walk schemas edge.target rest last) :
      Walk schemas edge.source (edge :: rest) last

namespace Walk

variable {schemas : List SchemaDescription} {edges : List Edge} {first last position : Nat}

theorem refers (walk : Walk schemas first edges last) : ∀ edge ∈ edges, Refers schemas edge := by
  induction walk with
  | nil => simp
  | cons refers _ inductionHypothesis =>
      exact List.forall_mem_cons.mpr ⟨refers, inductionHypothesis⟩

theorem head?_source (walk : Walk schemas first edges last) (nonempty : edges ≠ []) :
    edges.head?.map Edge.source = some first := by
  cases walk with
  | nil => exact absurd rfl nonempty
  | cons => rfl

theorem concat (walk : Walk schemas first edges position) {field : String} {target : Nat}
    (refers : Refers schemas ⟨position, field, target⟩) :
    Walk schemas first (edges ++ [⟨position, field, target⟩]) target := by
  induction walk with
  | nil position => exact .cons refers (.nil target)
  | cons step _ inductionHypothesis => exact .cons step (inductionHypothesis refers)

/-- From the edge on that starts from a position, the walk is one from there. -/
theorem from_source (walk : Walk schemas first edges last)
    (passed : position ∈ edges.map Edge.source) :
    Walk schemas position (edges.dropWhile fun edge => edge.source ≠ position) last ∧
      edges.dropWhile (fun edge => edge.source ≠ position) ≠ [] := by
  induction walk with
  | nil => simp at passed
  | @cons edge rest last refers onwards inductionHypothesis =>
      by_cases here : edge.source = position
      · subst here
        rw [List.dropWhile_cons_of_neg (by simp)]
        exact ⟨.cons refers onwards, List.cons_ne_nil _ _⟩
      · rw [List.dropWhile_cons_of_pos (by simpa using here)]
        exact inductionHypothesis (List.mem_of_ne_of_mem (Ne.symm here) passed)

end Walk

/-- Edges that lead from a position back to it and pass every other one at most once. -/
structure Circle (schemas : List SchemaDescription) (cycle : List Edge) (position : Nat) :
    Prop where
  walk : Walk schemas position cycle position
  nonempty : cycle ≠ []
  distinct : (cycle.map Edge.source).Nodup

namespace Graph

variable {schemas : List SchemaDescription}

/-- A reference back to a position that the search is in closes a circle. -/
theorem circle_cycleOf {edge : Edge} {path : List Edge} {start : Nat}
    (walk : Walk schemas start path.reverse edge.source) (refers : Refers schemas edge)
    (distinct : (edge.source :: path.map Edge.source).Nodup)
    (back : edge.target ∈ edge.source :: path.map Edge.source) :
    Circle schemas (cycleOf (edge :: path) edge.target) edge.target := by
  have whole : Walk schemas start (edge :: path).reverse edge.target := by
    rw [List.reverse_cons]
    exact walk.concat refers
  have passed : edge.target ∈ (edge :: path).reverse.map Edge.source := by
    rw [List.map_reverse, List.mem_reverse]
    exact back
  obtain ⟨closed, nonempty⟩ := whole.from_source passed
  refine ⟨closed, nonempty, ?_⟩
  have sublist : (cycleOf (edge :: path) edge.target).Sublist (edge :: path).reverse :=
    List.dropWhile_sublist _
  refine (sublist.map Edge.source).nodup ?_
  rw [List.map_reverse, List.nodup_reverse]
  exact distinct

/-- What is followed stays a walk to the current position without repetition, and the first
reference back into it ends the search. -/
theorem follow_circle {current : Nat} {path : List Edge} {finished : List Nat}
    {remaining : List (String × Nat)} {cycle : List Edge} {start : Nat}
    (walk : Walk schemas start path.reverse current)
    (distinct : (current :: path.map Edge.source).Nodup)
    (rest : ∀ reference ∈ remaining, reference ∈ references schemas current)
    (followed : follow schemas current path finished remaining = .error cycle) :
    ∃ position, Circle schemas cycle position := by
  fun_induction follow schemas current path finished remaining generalizing cycle with
  | case1 => simp at followed
  | case2 current path finished field target remaining _ =>
      rename_i back
      obtain rfl := Except.error.inj followed
      exact ⟨target, @circle_cycleOf schemas ⟨current, field, target⟩ path start walk
        (rest _ (.head _)) distinct back⟩
  | case3 current path finished field target remaining _ _ inductionHypothesis =>
      exact inductionHypothesis walk distinct (fun _ member => rest _ (.tail _ member)) followed
  | case4 current path finished field target remaining walked notOpen _ inner found =>
      rename_i below
      obtain rfl := Except.error.inj followed
      have onwards : Walk schemas start walked.reverse target := by
        rw [List.reverse_cons]
        exact walk.concat (rest _ (.head _))
      exact below onwards (List.nodup_cons.mpr ⟨notOpen, distinct⟩) (fun _ member => member) found
  | case5 current path finished field target remaining _ _ _ inner _ later found _ =>
      rename_i beside
      obtain rfl := Except.error.inj followed
      exact beside walk distinct (fun _ member => rest _ (.tail _ member)) found
  | case6 => simp at followed

theorem finishFrom_circle {finished positions : List Nat} {cycle : List Edge}
    (ended : finishFrom schemas finished positions = .error cycle) :
    ∃ position, Circle schemas cycle position := by
  induction positions generalizing finished with
  | nil => simp [finishFrom] at ended
  | cons first rest inductionHypothesis =>
      simp only [finishFrom] at ended
      split at ended
      · exact inductionHypothesis ended
      · split at ended
        · rename_i found followed
          obtain rfl := Except.error.inj ended
          exact follow_circle (.nil first) (List.nodup_singleton first) (fun _ member => member)
            followed
        · exact inductionHypothesis ended

end Graph

/-- Steps that follow one another, each a registered schema and a subschema field of it that
refers to the schema of the next step, and at last to the schema at the end. -/
inductive Registry.Walk (registry : Registry) : String → List (String × String) → String → Prop
  | nil (name : String) : Walk registry name [] name
  | cons {schema : SchemaDescription} {field next last : String} {spec : FieldSpec}
      {rest : List (String × String)} (registered : schema ∈ registry.schemas)
      (declared : (field, spec) ∈ schema.fields) (type : spec.type = .subschema)
      (reference : spec.reference.map Reference.name = some next)
      (onwards : Walk registry next rest last) :
      Walk registry schema.name ((schema.name, field) :: rest) last

namespace Resolution

variable {registry : Registry}

theorem citation?_eq_some {schema target : String} {entry : String × FieldSpec}
    {citation : Citation} (cited : citation? schema entry = some citation)
    (named : citation.target = some target) :
    entry.2.type = .subschema ∧ entry.2.reference.map Reference.name = some target := by
  rw [citation?] at cited
  split at cited
  · rename_i subschema
    rw [← Option.some.inj cited] at named
    exact ⟨of_decide_eq_true subschema, named⟩
  · simp at cited

theorem nameAt_linked (registry : Registry) (position : Nat) :
    nameAt (linkedGraph registry).schemas position = nameAt registry.schemas position := by
  rw [nameAt, nameAt, linkedGraph, List.getElem?_map, Option.map_map]
  rfl

/-- A walk among linked schemas is one among the registered schemas of these names. -/
theorem walk_of_linked {cycle : List Edge} {first last : Nat}
    (walk : Walk (linkedGraph registry).schemas first cycle last) :
    registry.Walk (nameAt registry.schemas first)
      (cycle.map fun edge => (nameAt registry.schemas edge.source, edge.field))
      (nameAt registry.schemas last) := by
  induction walk with
  | nil position => exact .nil _
  | @cons edge rest last refers _ inductionHypothesis =>
      obtain ⟨schema, ⟨field, spec⟩, citation, found, declared, rfl, cited, named⟩ :=
        refers_linked refers
      obtain ⟨type, reference⟩ := citation?_eq_some cited named
      rw [List.map_cons, nameAt_of_getElem? found]
      exact .cons (List.mem_of_getElem? found) declared type reference inductionHypothesis

/-- A circle passes every name at most once. -/
theorem nodup_nameAt {cycle : List Edge} {position : Nat}
    (circle : Circle (linkedGraph registry).schemas cycle position) :
    (cycle.map fun edge => nameAt registry.schemas edge.source).Nodup := by
  have apart : ∀ one ∈ cycle.map Edge.source, ∀ other ∈ cycle.map Edge.source,
      nameAt registry.schemas one = nameAt registry.schemas other → one = other := by
    intro one passed other alsoPassed same
    obtain ⟨edge, member, rfl⟩ := List.mem_map.mp passed
    obtain ⟨second, alsoMember, rfl⟩ := List.mem_map.mp alsoPassed
    obtain ⟨schema, _, _, found, _⟩ := refers_linked (circle.walk.refers edge member)
    obtain ⟨twin, _, _, alsoFound, _⟩ := refers_linked (circle.walk.refers second alsoMember)
    rw [nameAt_of_getElem? found, nameAt_of_getElem? alsoFound] at same
    have position := registry.indexes.get?_of_there found
    rw [same, registry.indexes.get?_of_there alsoFound] at position
    exact (Option.some.inj position).symm
  rw [← Function.comp_def, ← List.map_map]
  exact circle.distinct.map_on apart

theorem Citation.fault?_ne_circular (names : List String) (citation : Citation)
    (schema : String) (steps : List (String × String)) :
    citation.fault? names ≠ some (.circular schema steps) := by
  rw [Citation.fault?]
  split
  · simp
  · split <;> simp

/-- What is reported as circular is a circle: from the schema that the error is about, fields
of registered schemas that hold documents lead from each schema of the path to the next, to no
schema twice, and at last back to the first. -/
theorem resolve_circular {calls : List (Json × String)} {schema : String}
    {steps : List (String × String)}
    (refused : resolve (Registry.empty.registerAll calls) = .error (.circular schema steps)) :
    (Registry.empty.registerAll calls).Walk schema steps schema ∧
      steps ≠ [] ∧ (steps.map Prod.fst).Nodup ∧
      GenerationError.cyclePath schema steps =
        " -> ".intercalate (steps.map (fun step => step.1 ++ "." ++ step.2) ++ [schema]) := by
  generalize Registry.empty.registerAll calls = registry at refused
  rw [resolve_eq] at refused
  split at refused
  · rename_i error known
    obtain ⟨citation, _, fault⟩ := List.exists_of_findSome?_eq_some known
    rw [Except.error.inj refused] at fault
    exact absurd fault (Citation.fault?_ne_circular _ citation schema steps)
  · split at refused
    · simp at refused
    · rename_i cycle ended
      obtain ⟨position, circle⟩ := Graph.finishFrom_circle ended
      have starts := circle.walk.head?_source circle.nonempty
      simp only [circularError, starts, Option.getD_some, nameAt_linked, Except.error.injEq,
        GenerationError.circular.injEq] at refused
      obtain ⟨rfl, rfl⟩ := refused
      refine ⟨walk_of_linked circle.walk, by simpa using circle.nonempty, ?_, rfl⟩
      rw [List.map_map]
      exact nodup_nameAt circle

end Resolution

namespace Sample

/-- A museum shows a painting, and a painting and its painter refer to each other. -/
def museumDescriptions : List (Json × String) :=
  let refersTo (name field target : String) : Json × String :=
    (.object [("name", .text name), ("version", .nat 1),
      ("fields", .object
        [(field, .object [("type", .text "subschema"), ("schema", .text target)])])], name)
  [refersTo "Museum" "shown" "Painting", refersTo "Painting" "by" "Painter",
    refersTo "Painter" "portrait" "Painting"]

theorem museum_refused :
    Resolution.resolve (Registry.empty.registerAll museumDescriptions) =
      .error (.circular "Painting" [("Painting", "by"), ("Painter", "portrait")]) := by
  let linked := (Resolution.linkedGraph (Registry.empty.registerAll museumDescriptions)).schemas
  have first : references linked 0 = [("shown", 1)] := rfl
  have second : references linked 1 = [("by", 2)] := rfl
  have third : references linked 2 = [("portrait", 1)] := rfl
  have ended : Graph.finishingOrder linked = .error [⟨1, "by", 2⟩, ⟨2, "portrait", 1⟩] := by
    rw [Graph.finishingOrder, show linked.length = 3 from rfl]
    simp [List.range_succ, Graph.finishFrom, first, second, third, Graph.follow, Graph.cycleOf]
  have known : (Registry.empty.registerAll museumDescriptions).citations.findSome?
      (Citation.fault? (Registry.empty.registerAll museumDescriptions).names) = none := rfl
  rw [Resolution.resolve_eq, known]
  simp only [linked] at ended
  simp only [ended]
  rfl

end Sample

open Sample in
/-- The field by which the search has come to the circle is not part of it. -/
theorem Resolution.resolve_circular_of_museum :
    Resolution.resolve (Registry.empty.registerAll museumDescriptions) =
      .error (.circular "Painting" [("Painting", "by"), ("Painter", "portrait")]) ∧
    (Registry.empty.registerAll museumDescriptions).Walk "Painting"
      [("Painting", "by"), ("Painter", "portrait")] "Painting" ∧
    GenerationError.cyclePath "Painting" [("Painting", "by"), ("Painter", "portrait")] =
      "Painting.by -> Painter.portrait -> Painting" := by
  obtain ⟨walk, _, _, path⟩ := Resolution.resolve_circular museum_refused
  exact ⟨museum_refused, walk, path⟩

end Schemata
