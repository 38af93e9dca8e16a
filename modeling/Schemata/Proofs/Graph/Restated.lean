import Schemata.Proofs.Description.Restated
import Schemata.Proofs.Graph.Links
import Schemata.Proofs.Graph.Registered
namespace Schemata

/-! Graphs made again of what is emitted of them.

The search for an order looks at references only, and references are followed by names only.
So descriptions that say the same under other origins are linked to the same positions and
ordered alike (`Resolution.resolve_labelled`), and the manifests and the index of a graph say
all that the graph was made of (`Resolution.resolve_restated`). -/

namespace Graph

variable {left right : List SchemaDescription}

theorem follow_congr (same : ∀ position, references left position = references right position)
    (current : Nat) (path : List Edge) (finished : List Nat) (remaining : List (String × Nat)) :
    follow left current path finished remaining =
      follow right current path finished remaining := by
  fun_induction follow left current path finished remaining with
  | case1 => rw [follow]
  | case2 current path finished field target rest walked opened =>
      rw [follow, if_pos opened]
  | case3 current path finished field target rest notOpen done inductionHypothesis =>
      rw [follow, if_neg notOpen, if_pos done, inductionHypothesis]
  | case4 current path finished field target rest walked notOpen notFinished cycle found below =>
      rw [follow, if_neg notOpen, if_neg notFinished, ← same target, ← below, found]
  | case5 current path finished field target rest walked notOpen notFinished fresh found cycle
      ended below beside =>
      rw [follow, if_neg notOpen, if_neg notFinished, ← same target, ← below, found]
      simp only [← beside, ended]
  | case6 current path finished field target rest walked notOpen notFinished fresh found later
      ended below beside =>
      rw [follow, if_neg notOpen, if_neg notFinished, ← same target, ← below, found]
      simp only [← beside, ended]

theorem finishFrom_congr
    (same : ∀ position, references left position = references right position)
    (finished positions : List Nat) :
    finishFrom left finished positions = finishFrom right finished positions := by
  induction positions generalizing finished with
  | nil => rfl
  | cons position rest inductionHypothesis =>
      simp only [finishFrom, inductionHypothesis, follow_congr same, same position]

end Graph

/-- A description under another origin. -/
def SchemaDescription.labelled (pair : SchemaDescription × String) : SchemaDescription :=
  { pair.1 with origin := pair.2 }

/-- The graph with other origins, as far as there are any. -/
def ResolvedGraph.labelled (graph : ResolvedGraph) (origins : List String) : ResolvedGraph where
  schemas := graph.schemas.mapIdx fun position schema =>
    { schema with origin := origins[position]?.getD schema.origin }
  index := graph.index
  indexes name position := by
    rw [graph.indexes name position, List.getElem?_map, List.getElem?_map, List.getElem?_mapIdx]
    cases graph.schemas[position]? <;> rfl
  closed position reference member := by
    rw [List.length_mapIdx]
    apply graph.closed position reference
    rw [references, List.getElem?_mapIdx] at member
    rw [references]
    cases found : graph.schemas[position]? with
    | none => simp [found] at member
    | some schema => simpa [found] using member

theorem ResolvedGraph.schemas_labelled {graph : ResolvedGraph} {origins : List String}
    (size : origins.length = graph.size) :
    (graph.labelled origins).schemas =
      (graph.schemas.zip origins).map SchemaDescription.labelled := by
  have enough : graph.schemas.length ≤ origins.length := Nat.le_of_eq size.symm
  refine List.ext_getElem (by simp [labelled, enough]) fun position inside _ => ?_
  have there : position < origins.length := by
    rw [labelled, List.length_mapIdx] at inside
    omega
  simp [labelled, SchemaDescription.labelled, List.getElem?_eq_getElem there]

namespace Resolution

section Labelling

variable {pairs : List (SchemaDescription × String)} {registry next : Registry}

theorem references_labelled (pairs : List (SchemaDescription × String)) (position : Nat) :
    references (pairs.map SchemaDescription.labelled) position =
      references (pairs.map Prod.fst) position := by
  simp only [references, List.getElem?_map]
  cases pairs[position]? <;> rfl

theorem finishingOrder_labelled (pairs : List (SchemaDescription × String)) :
    Graph.finishingOrder (pairs.map SchemaDescription.labelled) =
      Graph.finishingOrder (pairs.map Prod.fst) := by
  rw [Graph.finishingOrder, Graph.finishingOrder, List.length_map, List.length_map,
    Graph.finishFrom_congr (references_labelled pairs)]

theorem names_labelled (before : registry.schemas = pairs.map Prod.fst)
    (after : next.schemas = pairs.map SchemaDescription.labelled) :
    next.names = registry.names := by
  rw [Registry.names, Registry.names, before, after, List.map_map, List.map_map]
  rfl

theorem index_labelled (before : registry.schemas = pairs.map Prod.fst)
    (after : next.schemas = pairs.map SchemaDescription.labelled) :
    next.index = registry.index := by
  have others := next.indexes
  change Indexes next.index next.names at others
  rw [names_labelled before after] at others
  exact others.unique registry.indexes

theorem citations_labelled (before : registry.schemas = pairs.map Prod.fst)
    (after : next.schemas = pairs.map SchemaDescription.labelled) :
    next.citations = registry.citations := by
  rw [Registry.citations, Registry.citations, before, after, List.flatMap_map, List.flatMap_map]
  rfl

/-- Where descriptions come from makes no difference to how they are linked. -/
theorem linkedGraph_labelled (before : registry.schemas = pairs.map Prod.fst)
    (after : next.schemas = pairs.map SchemaDescription.labelled) :
    (linkedGraph next).schemas = (pairs.map fun pair =>
      (linkedSchema registry.index pair.1, pair.2)).map SchemaDescription.labelled := by
  rw [schemas_linkedGraph, index_labelled before after, after, List.map_map, List.map_map]
  rfl

end Labelling

/-- Nor to whether they lead in a circle. -/
theorem resolve_labelled {registry next : Registry} {graph : ResolvedGraph}
    {origins : List String} (resolved : resolve registry = .ok graph)
    (size : origins.length = registry.size)
    (after : next.schemas = (registry.schemas.zip origins).map SchemaDescription.labelled) :
    resolve next = .ok (graph.labelled origins) := by
  obtain ⟨known, rfl, order, ended⟩ := resolve_parts resolved
  have before : registry.schemas = (registry.schemas.zip origins).map Prod.fst :=
    (List.map_fst_zip (by simp [size, Registry.size])).symm
  have relinked := linkedGraph_labelled before after
  have zipped : (registry.schemas.zip origins).map
        (fun pair => (linkedSchema registry.index pair.1, pair.2)) =
      (linkedGraph registry).schemas.zip origins := by
    rw [schemas_linkedGraph, List.zip_map_left]
    rfl
  have same : linkedGraph next = (linkedGraph registry).labelled origins := by
    apply ResolvedGraph.ext
    rw [relinked, zipped, ResolvedGraph.schemas_labelled]
    rw [size, Registry.size, ResolvedGraph.size, schemas_linkedGraph, List.length_map]
  have ended : Graph.finishingOrder (linkedGraph next).schemas = .ok order := by
    rw [relinked, finishingOrder_labelled, zipped, List.map_fst_zip]
    · exact ended
    · simp [schemas_linkedGraph, size, Registry.size]
  rw [← same]
  refine resolve_of_order ?_ ended
  rw [names_labelled before after, citations_labelled before after, known]
  rfl

theorem statement_linkedField (index : Table Nat) (entry : String × FieldSpec) :
    (linkedField index entry).2.statement = entry.2.statement := by
  by_cases type : entry.2.type = .subschema
  · rw [linkedField_of_subschema type]
    simp only [FieldSpec.statement, FieldSpec.stated, FieldSpec.members, Option.map_map,
      Function.comp_def]
  · rw [linkedField_of_plain type]

theorem statement_linkedSchema (index : Table Nat) (description : SchemaDescription) :
    (linkedSchema index description).statement = description.statement := by
  have fields : (description.fields.map (linkedField index)).map
        (fun entry => (entry.1, entry.2.statement)) =
      description.fields.map fun entry => (entry.1, entry.2.statement) := by
    simp only [List.map_map, Function.comp_def, linkedField_fst, statement_linkedField]
  rw [SchemaDescription.statement, linkedSchema, fields]
  rfl

end Resolution

namespace Registry

variable {registry : Registry} {description : SchemaDescription}

theorem register_statement (canonical : description.Canonical)
    (free : description.name ∉ registry.names) (origin : String) :
    ∃ next, registry.register description.statement origin = .ok (next, registry.size) ∧
      next.schemas = registry.schemas ++ [SchemaDescription.labelled (description, origin)] := by
  rw [register, SchemaDescription.ofJson_statement canonical]
  exact ⟨_, add_of_free (by exact free), rfl⟩

/-- Descriptions of distinct names are all registered, one after the other. -/
theorem registerAll_statements {pairs : List (SchemaDescription × String)}
    (canonical : ∀ pair ∈ pairs, pair.1.Canonical)
    (names : (registry.names ++ pairs.map fun pair => pair.1.name).Nodup) :
    registry.answers (pairs.map fun pair => (pair.1.statement, pair.2)) =
        (List.range' registry.size pairs.length).map .ok ∧
      (registry.registerAll (pairs.map fun pair => (pair.1.statement, pair.2))).schemas =
        registry.schemas ++ pairs.map SchemaDescription.labelled := by
  induction pairs generalizing registry with
  | nil => simp [answers, registerAll]
  | cons pair rest inductionHypothesis =>
      have free : pair.1.name ∉ registry.names := by
        intro taken
        exact (List.nodup_append.mp names).2.2 _ taken _ List.mem_cons_self rfl
      obtain ⟨next, registered, grown⟩ :=
        register_statement (canonical pair List.mem_cons_self) free pair.2
      have one_more : next.size = registry.size + 1 := by simp [size, grown]
      obtain ⟨answered, left⟩ := @inductionHypothesis next
        (fun other later => canonical other (List.mem_cons_of_mem _ later))
        (by simpa [Registry.names, grown, SchemaDescription.labelled] using names)
      constructor
      · simp only [List.map_cons, answers, registered, answered, List.length_cons,
          List.range'_succ, one_more]
      · simp only [List.map_cons, registerAll, List.foldl_cons, registered]
        rw [← registerAll, left, grown]
        simp

end Registry

namespace ResolvedGraph

variable {graph : ResolvedGraph}

theorem manifestOf?_emitted (package : String)
    {schema : SchemaDescription} (member : schema ∈ graph.schemas) :
    Emission.manifestOf? (graph.schemas.map fun schema => schema.manifest package) schema.name =
      some (schema.manifest package) := by
  obtain ⟨before, after, parts⟩ := List.append_of_mem member
  have others : ∀ other ∈ before, other.name ≠ schema.name := by
    intro other earlier same
    have names := graph.names_nodup
    rw [ResolvedGraph.names, parts, List.map_append] at names
    exact (List.nodup_append.mp names).2.2 _ (List.mem_map_of_mem earlier) _
      List.mem_cons_self same
  have named : ∀ other : SchemaDescription,
      ((other.manifest package).get? "name").bind Json.text? = some other.name := by
    intro other
    simp [SchemaDescription.manifest, Json.get?, Json.members?, Keyed.get?, Json.text?]
  rw [Emission.manifestOf?, parts, List.find?_map, List.find?_eq_some_iff_append.mpr
    ⟨by simp [named], before, after, rfl, fun other earlier => by
      simp [named, others other earlier]⟩, Option.map_some]

/-- The manifests and the index of a graph give the descriptions of its schemas. -/
theorem restated?_emitted (graph : ResolvedGraph) (options : EmissionOptions) :
    Emission.restated?
        (graph.schemas.map fun schema => Emission.json options graph (.manifest schema))
        (Emission.json options graph .index) =
      some (graph.schemas.map SchemaDescription.statement) := by
  have models : ((graph.indexJson options.package).get? "models").bind Json.texts? =
      some graph.names := by
    simp [indexJson, Json.get?, Json.members?, Keyed.get?, Json.texts?_texts]
  have each : ∀ schema ∈ graph.schemas,
      (Emission.manifestOf? (graph.schemas.map fun schema => schema.manifest options.package)
        schema.name).bind Emission.restatedSchema? = some schema.statement := by
    intro schema member
    rw [manifestOf?_emitted options.package member, Option.bind_some,
      SchemaDescription.restatedSchema?_manifest]
  simp only [Emission.restated?, Emission.json, models, ResolvedGraph.names, bind,
    Option.bind_some]
  exact mapM_map_eq_pure each

end ResolvedGraph

namespace Resolution

variable {calls : List (Json × String)} {graph : ResolvedGraph}

/-- The manifests and the index of a graph give descriptions, one for each schema, that are
registered without fault under any origins and make the same graph again. -/
theorem resolve_restated (resolved : resolve (Registry.empty.registerAll calls) = .ok graph)
    (options : EmissionOptions) :
    ∃ descriptions, Emission.restated?
          (graph.schemas.map fun schema => Emission.json options graph (.manifest schema))
          (Emission.json options graph .index) = some descriptions ∧
      descriptions.length = graph.size ∧
      ((∀ call ∈ calls, call.1.WellFormed) →
        ∀ description ∈ descriptions, description.WellFormed) ∧
      ∀ origins : List String, origins.length = graph.size →
        Registry.empty.answers (descriptions.zip origins) = (List.range graph.size).map .ok ∧
        resolve (Registry.empty.registerAll (descriptions.zip origins)) =
          .ok (graph.labelled origins) := by
  have accepted := fun wellFormed =>
    resolve_accepted (Registry.registerAll_accepted (by simp [Registry.empty]) wellFormed) resolved
  have canonical := Registry.registerAll_canonical calls
  generalize Registry.empty.registerAll calls = registry at resolved canonical
  obtain ⟨_, linked, _⟩ := resolve_parts resolved
  have statements : graph.schemas.map SchemaDescription.statement =
      registry.schemas.map SchemaDescription.statement := by
    rw [linked, schemas_linkedGraph, List.map_map]
    exact List.map_congr_left fun description _ => statement_linkedSchema _ description
  have size : graph.size = registry.size := by
    rw [ResolvedGraph.size, linked, schemas_linkedGraph, List.length_map, Registry.size]
  refine ⟨_, graph.restated?_emitted options, by simp [ResolvedGraph.size],
    fun wellFormed description member => ?_, fun origins count => ?_⟩
  · obtain ⟨schema, loaded, rfl⟩ := List.mem_map.mp member
    exact SchemaDescription.statement_wellFormed (accepted wellFormed schema loaded)
  · have there : (registry.schemas.zip origins).map Prod.fst = registry.schemas :=
      List.map_fst_zip (by simp [count, size, Registry.size])
    have zipped : (graph.schemas.map SchemaDescription.statement).zip origins =
        (registry.schemas.zip origins).map fun pair => (pair.1.statement, pair.2) := by
      rw [statements, List.zip_map_left]
      rfl
    have fresh : (Registry.empty.names ++
        (registry.schemas.zip origins).map fun pair => pair.1.name).Nodup := by
      have names := registry.names_nodup
      rw [Registry.names, ← there, List.map_map] at names
      exact names
    obtain ⟨answered, registered⟩ := @Registry.registerAll_statements .empty
      (registry.schemas.zip origins)
      (fun pair member => canonical pair.1 (List.of_mem_zip member).1)
      fresh
    rw [zipped, answered]
    refine ⟨?_, resolve_labelled resolved (count.trans size) registered⟩
    simp [List.range_eq_range', count, size, Registry.size, Registry.empty]

end Resolution

namespace Sample

def loanEmission : EmissionOptions := ⟨"models", false, "library"⟩

end Sample

open Sample in
theorem Resolution.resolve_restated_of_loan :
    Resolution.resolve (Registry.empty.registerAll loanDescriptions) = .ok loanGraph ∧
    ∃ descriptions, Emission.restated?
          (loanGraph.schemas.map fun schema =>
            Emission.json loanEmission loanGraph (.manifest schema))
          (Emission.json loanEmission loanGraph .index) = some descriptions ∧
      Resolution.resolve (Registry.empty.registerAll (descriptions.zip ["a", "b", "c"])) =
        .ok (loanGraph.labelled ["a", "b", "c"]) := by
  have size : ["a", "b", "c"].length = loanGraph.size := by decide +kernel
  obtain ⟨descriptions, restated, _, _, again⟩ :=
    Resolution.resolve_restated loan_resolved loanEmission
  exact ⟨loan_resolved, descriptions, restated, (again _ size).2⟩

end Schemata
