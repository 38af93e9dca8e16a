import Mathlib.Data.List.Perm.Basic
import Schemata.Proofs.Graph.Restated
namespace Schemata

/-! Registration in another order.

What a registry accepts, whether it can be resolved and what becomes of each description depend
on the descriptions only and not on their order, apart from the positions that references are
given (`Resolution.resolve_reordered`).  `SchemaDescription.unplaced` leaves these out, and with
them the origin, which a manifest does not show. -/

open Relation

def FieldSpec.unplaced (spec : FieldSpec) : FieldSpec :=
  { spec with reference := spec.reference.map fun reference => ⟨reference.name, none⟩ }

theorem FieldSpec.Canonical.unplaced_eq {spec : FieldSpec} (canonical : spec.Canonical) :
    spec.unplaced = spec := by
  have same : spec.reference.map (fun reference => ⟨reference.name, none⟩) = spec.reference := by
    cases referring : spec.reference with
    | none => rfl
    | some reference => rw [Option.map_some, ← canonical.unlinked reference referring]
  rw [FieldSpec.unplaced, same]

theorem FieldSpec.members_unplaced (spec : FieldSpec) : spec.unplaced.members = spec.members := by
  simp only [members, unplaced, Option.map_map, Function.comp_def]

/-- A description without where it comes from and without the positions of its references. -/
def SchemaDescription.unplaced (description : SchemaDescription) : SchemaDescription :=
  { description with
    origin := ""
    fields := description.fields.map fun entry => (entry.1, entry.2.unplaced) }

namespace SchemaDescription

variable {json : Json} {origin : String} {description : SchemaDescription}

/-- What is accepted as a description, without where it comes from. -/
def described? (json : Json) : Option SchemaDescription := (ofJson json "").toOption

/-- Only the message of a refusal depends on where a description comes from. -/
theorem ofJson_of_origin (accepted : ofJson json origin = .ok description) (other : String) :
    ofJson json other = .ok { description with origin := other } := by
  rw [ofJson] at accepted ⊢
  obtain ⟨header, read, accepted⟩ := ok_of_bind accepted
  obtain ⟨fields, normalized, accepted⟩ := ok_of_bind accepted
  have again : Header.ofJson json other = .ok header :=
    Header.ofJson_ok_iff.mpr (Header.ofJson_ok_iff.mp read)
  rw [again, ← Except.ok.inj accepted]
  simp only [bind, Except.bind, normalized]

theorem described?_eq_some (accepted : ofJson json origin = .ok description) :
    described? json = some description.unplaced := by
  have canonical := ofJson_canonical accepted
  have fields : description.fields.map (fun entry => (entry.1, entry.2.unplaced)) =
      description.fields := by
    refine (List.map_congr_left fun entry declared => ?_).trans (List.map_id _)
    rw [(canonical.fields entry declared).unplaced_eq]
    rfl
  rw [described?, ofJson_of_origin accepted "", unplaced, fields]
  rfl

theorem described?_eq_none {fault : DescriptionError}
    (refused : ofJson json origin = .error fault) : described? json = none := by
  rw [described?]
  cases again : ofJson json "" with
  | error other => rfl
  | ok description =>
      rw [ofJson_of_origin again origin] at refused
      simp at refused

theorem manifest_unplaced (description : SchemaDescription) (package : String) :
    description.unplaced.manifest package = description.manifest package := by
  simp only [manifest, unplaced, List.map_map, Function.comp_def, FieldSpec.members_unplaced]
  rfl

end SchemaDescription

namespace Registry

variable {registry next : Registry} {calls : List (Json × String)}

/-- What can be registered without a fault, one after the other: descriptions under names that
are free and distinct. -/
structure Admits (registry : Registry) (jsons : List Json) : Prop where
  described : ∀ json ∈ jsons, (SchemaDescription.described? json).isSome = true
  names : (registry.names ++
    (jsons.filterMap SchemaDescription.described?).map SchemaDescription.name).Nodup

theorem Admits.perm {jsons others : List Json} (admits : registry.Admits jsons)
    (permuted : jsons.Perm others) : registry.Admits others where
  described json member := admits.described json (permuted.mem_iff.mpr member)
  names := (((permuted.filterMap _).map _).append_left _).nodup_iff.mp admits.names

/-- The step: a call that succeeds adds what it describes, and one that fails is not admitted. -/
theorem register_admits (registry : Registry) (call : Json × String) :
    (∃ position description, registry.answers [call] = [.ok position] ∧
      SchemaDescription.described? call.1 = some description.unplaced ∧
      (registry.registerAll [call]).schemas = registry.schemas ++ [description]) ∨
    (∃ error, registry.answers [call] = [.error error] ∧
      ∀ jsons, ¬ registry.Admits (call.1 :: jsons)) := by
  obtain ⟨answer, answered, steps⟩ := register_steps registry call.1 call.2
  generalize left : registry.registerAll [(call.1, call.2)] = next at steps
  cases steps with
  | malformed refused =>
      refine .inr ⟨_, answered, fun jsons admits => ?_⟩
      have described := admits.described call.1 List.mem_cons_self
      simp [SchemaDescription.described?_eq_none refused] at described
  | @taken description described member =>
      refine .inr ⟨_, answered, fun jsons admits => ?_⟩
      have names := admits.names
      rw [List.filterMap_cons_some (SchemaDescription.described?_eq_some described)] at names
      exact (List.nodup_append.mp names).2.2 _ member _ List.mem_cons_self rfl
  | added described free schemas =>
      exact .inl ⟨_, _, answered, SchemaDescription.described?_eq_some described, schemas⟩

theorem admits_cons {json : Json} {jsons : List Json} {description : SchemaDescription}
    (described : SchemaDescription.described? json = some description.unplaced)
    (grown : next.schemas = registry.schemas ++ [description]) :
    registry.Admits (json :: jsons) ↔ next.Admits jsons := by
  have names : ∀ others : List String, next.names ++ others =
      registry.names ++ description.unplaced.name :: others := by
    intro others
    simp [Registry.names, grown, SchemaDescription.unplaced]
  constructor
  · intro admits
    refine ⟨fun other member => admits.described other (List.mem_cons_of_mem json member), ?_⟩
    rw [names]
    simpa only [List.filterMap_cons_some described, List.map_cons] using admits.names
  · intro admits
    refine ⟨List.forall_mem_cons.mpr ⟨by rw [described]; rfl, admits.described⟩, ?_⟩
    rw [List.filterMap_cons_some described, List.map_cons, ← names]
    exact admits.names

/-- Calls succeed one after the other when their descriptions are admitted together. -/
theorem answers_ok_iff (registry : Registry) (calls : List (Json × String)) :
    (∀ answer ∈ registry.answers calls, answer.isOk = true) ↔
      registry.Admits (calls.map Prod.fst) := by
  induction calls generalizing registry with
  | nil => exact iff_of_true (by simp [answers]) ⟨by simp, by simpa using registry.names_nodup⟩
  | cons call rest inductionHypothesis =>
      rw [← List.singleton_append, answers_append, List.forall_mem_append, inductionHypothesis,
        List.map_append]
      rcases register_admits registry call with
        ⟨position, description, answered, described, left⟩ | ⟨error, answered, refused⟩
      · rw [answered]
        exact (and_iff_right (by simp [Except.isOk, Except.toBool])).trans
          (admits_cons described left).symm
      · rw [answered]
        exact iff_of_false (by simp [Except.isOk, Except.toBool]) (refused _)

/-- What is registered then, in the order of the calls. -/
theorem unplaced_registerAll (admits : registry.Admits (calls.map Prod.fst)) :
    (registry.registerAll calls).schemas.map SchemaDescription.unplaced =
      registry.schemas.map SchemaDescription.unplaced ++
        (calls.map Prod.fst).filterMap SchemaDescription.described? := by
  induction calls generalizing registry with
  | nil => simp [registerAll]
  | cons call rest inductionHypothesis =>
      rcases register_admits registry call with
        ⟨position, description, answered, described, left⟩ | ⟨error, answered, refused⟩
      · rw [List.map_cons, admits_cons described left] at admits
        rw [← List.singleton_append, registerAll_append, inductionHypothesis admits, left]
        simp [described]
      · exact absurd admits (refused _)

theorem names_eq_unplaced (registry : Registry) : registry.names =
    (registry.schemas.map SchemaDescription.unplaced).map SchemaDescription.name := by
  rw [Registry.names, List.map_map]
  rfl

/-- The references of a registry do not tell where they lead to. -/
theorem citations_eq_unplaced (registry : Registry) : registry.citations =
    (registry.schemas.map SchemaDescription.unplaced).flatMap fun schema =>
      schema.fields.filterMap (citation? schema.name) := by
  have each : ∀ (schema : String) (entry : String × FieldSpec),
      citation? schema (entry.1, entry.2.unplaced) = citation? schema entry := by
    intro schema entry
    simp only [citation?, FieldSpec.unplaced, Option.map_map, Function.comp_def]
  simp only [citations, List.flatMap_map, SchemaDescription.unplaced, List.filterMap_map,
    Function.comp_def, each]

/-- The registries hold the same descriptions, under whatever origins and in any order. -/
def Reorders (registry other : Registry) : Prop :=
  (registry.schemas.map SchemaDescription.unplaced).Perm
    (other.schemas.map SchemaDescription.unplaced)

namespace Reorders

variable {other : Registry}

theorem citations (reorders : registry.Reorders other) :
    registry.citations.Perm other.citations := by
  rw [citations_eq_unplaced, citations_eq_unplaced]
  exact List.Perm.flatMap_right _ reorders

theorem names (reorders : registry.Reorders other) : registry.names.Perm other.names := by
  rw [names_eq_unplaced, names_eq_unplaced]
  exact reorders.map _

theorem cites_iff (reorders : registry.Reorders other) (source target : String) :
    registry.Cites source target ↔ other.Cites source target := by
  simp only [Cites, reorders.citations.mem_iff]

theorem faultless_iff (reorders : registry.Reorders other) :
    registry.citations.findSome? (Citation.fault? registry.names) = none ↔
      other.citations.findSome? (Citation.fault? other.names) = none := by
  simp only [List.findSome?_eq_none_iff, reorders.citations.mem_iff, Citation.fault?,
    reorders.names.mem_iff]

end Reorders

end Registry

theorem ResolvedGraph.get?_unplaced_eq_some_iff {graph : ResolvedGraph} {name : String}
    {description : SchemaDescription} :
    (graph.get? name).map SchemaDescription.unplaced = some description ↔
      description ∈ graph.schemas.map SchemaDescription.unplaced ∧ description.name = name := by
  rw [Option.map_eq_some_iff, List.mem_map]
  constructor
  · intro ⟨schema, there, same⟩
    obtain ⟨member, named⟩ := get?_eq_some_iff.mp there
    exact ⟨⟨schema, member, same⟩, by rw [← same]; exact named⟩
  · intro ⟨⟨schema, member, same⟩, named⟩
    exact ⟨schema, get?_eq_some_iff.mpr ⟨member, by rw [← named, ← same]; rfl⟩, same⟩

/-- Under each name the graphs hold the same but for origins and positions. -/
theorem ResolvedGraph.get?_unplaced_perm {graph other : ResolvedGraph}
    (same : (graph.schemas.map SchemaDescription.unplaced).Perm
      (other.schemas.map SchemaDescription.unplaced)) (name : String) :
    (graph.get? name).map SchemaDescription.unplaced =
      (other.get? name).map SchemaDescription.unplaced := by
  apply Option.ext
  intro description
  rw [get?_unplaced_eq_some_iff, get?_unplaced_eq_some_iff, same.mem_iff]

/-- A manifest shows no origin and no position. -/
theorem Emission.content_unplaced (options : EmissionOptions) (graph : ResolvedGraph)
    (schema : SchemaDescription) :
    content options graph (.manifest schema.unplaced) =
      content options graph (.manifest schema) := by
  rw [content, json, SchemaDescription.manifest_unplaced]
  rfl

namespace Resolution

variable {registry : Registry} {graph : ResolvedGraph}

/-- There is a graph when every reference leads to a schema and none leads in a circle. -/
theorem resolve_ok_iff (registry : Registry) :
    (∃ graph, resolve registry = .ok graph) ↔
      registry.citations.findSome? (Citation.fault? registry.names) = none ∧
        ¬ ∃ name, TransGen registry.Cites name name := by
  constructor
  · intro ⟨graph, resolved⟩
    obtain ⟨known, linked, ended⟩ := resolve_parts resolved
    rw [← cyclic_iff known, ← linked]
    exact ⟨known, Graph.finishingOrder_ok_iff.mp ended⟩
  · intro ⟨known, acyclic⟩
    rw [← cyclic_iff known] at acyclic
    obtain ⟨order, ended⟩ := Graph.finishingOrder_ok_iff.mpr acyclic
    exact ⟨_, resolve_of_order (by rw [known]; rfl) ended⟩

theorem unplaced_linkedField (index : Table Nat) (entry : String × FieldSpec) :
    ((linkedField index entry).1, (linkedField index entry).2.unplaced) =
      linkedField .empty (entry.1, entry.2.unplaced) := by
  by_cases type : entry.2.type = .subschema
  · rw [linkedField_of_subschema type, linkedField_of_subschema (by exact type)]
    simp [FieldSpec.unplaced, Function.comp_def]
  · rw [linkedField_of_plain type, linkedField_of_plain (by exact type)]

/-- What linking makes of a description does not depend on the others, positions apart. -/
theorem unplaced_linkedSchema (index : Table Nat) (description : SchemaDescription) :
    (linkedSchema index description).unplaced = linkedSchema .empty description.unplaced := by
  have targets : description.unplaced.targets = description.targets := by
    simp [SchemaDescription.targets, SchemaDescription.unplaced, FieldSpec.unplaced,
      List.filterMap_map, Function.comp_def]
  rw [linkedSchema, linkedSchema, importsOf_linked, importsOf_linked, targets]
  simp only [SchemaDescription.unplaced, List.map_map, List.any_map, Function.comp_def,
    unplaced_linkedField, linkedField_type]
  rfl

theorem unplaced_schemas (resolved : resolve registry = .ok graph) :
    graph.schemas.map SchemaDescription.unplaced =
      (registry.schemas.map SchemaDescription.unplaced).map (linkedSchema .empty) := by
  rw [(resolve_parts resolved).2.1, schemas_linkedGraph, List.map_map, List.map_map]
  exact List.map_congr_left fun description _ => unplaced_linkedSchema _ description

section Reordering

variable {others : Registry} {other : ResolvedGraph}

theorem resolve_ok_reordered (reorders : registry.Reorders others) :
    (∃ graph, resolve registry = .ok graph) ↔ ∃ graph, resolve others = .ok graph := by
  have cites : registry.Cites = others.Cites := by
    funext source target
    exact propext (reorders.cites_iff source target)
  rw [resolve_ok_iff, resolve_ok_iff, reorders.faultless_iff, cites]

theorem get?_reordered (resolved : resolve registry = .ok graph)
    (again : resolve others = .ok other) (reorders : registry.Reorders others) :
    graph.names.Perm other.names ∧ ∀ name,
      (graph.get? name).map SchemaDescription.unplaced =
        (other.get? name).map SchemaDescription.unplaced := by
  have same : (graph.schemas.map SchemaDescription.unplaced).Perm
      (other.schemas.map SchemaDescription.unplaced) := by
    rw [unplaced_schemas resolved, unplaced_schemas again]
    exact reorders.map _
  constructor
  · have named := same.map SchemaDescription.name
    rw [List.map_map, List.map_map] at named
    exact named
  · exact ResolvedGraph.get?_unplaced_perm same

end Reordering

/-- Descriptions that are registered without a fault are so in any order and under any origins.
They make a graph in one order when they do in the other, and then both graphs have the same
schemas, equal but for origins and positions, and the manifest of each is written alike. -/
theorem resolve_reordered {calls others : List (Json × String)}
    (permuted : (calls.map Prod.fst).Perm (others.map Prod.fst))
    (registered : ∀ answer ∈ Registry.empty.answers calls, answer.isOk = true) :
    (∀ answer ∈ Registry.empty.answers others, answer.isOk = true) ∧
    ((∃ graph, resolve (Registry.empty.registerAll calls) = .ok graph) ↔
      ∃ graph, resolve (Registry.empty.registerAll others) = .ok graph) ∧
    ∀ graph other, resolve (Registry.empty.registerAll calls) = .ok graph →
      resolve (Registry.empty.registerAll others) = .ok other →
      graph.names.Perm other.names ∧ ∀ name,
        (graph.get? name).map SchemaDescription.unplaced =
          (other.get? name).map SchemaDescription.unplaced ∧
        ∀ options : EmissionOptions,
          (graph.get? name).map (fun schema => Emission.content options graph (.manifest schema)) =
            (other.get? name).map
              fun schema => Emission.content options other (.manifest schema) := by
  have admits := (Registry.answers_ok_iff .empty calls).mp registered
  have admitted := admits.perm permuted
  have reorders : (Registry.empty.registerAll calls).Reorders
      (Registry.empty.registerAll others) := by
    rw [Registry.Reorders, Registry.unplaced_registerAll admits,
      Registry.unplaced_registerAll admitted]
    exact (permuted.filterMap _).append_left _
  refine ⟨(Registry.answers_ok_iff .empty others).mpr admitted, resolve_ok_reordered reorders, ?_⟩
  intro graph other resolved again
  obtain ⟨names, held⟩ := get?_reordered resolved again reorders
  refine ⟨names, fun name => ⟨held name, fun options => ?_⟩⟩
  have written := congrArg
    (Option.map fun schema => Emission.content options graph (.manifest schema)) (held name)
  simp only [Option.map_map, Function.comp_def, Emission.content_unplaced] at written
  exact written

end Resolution

namespace Sample

/-- The same descriptions the other way round, all from one place. -/
def archivedDescriptions : List (Json × String) :=
  loanDescriptions.reverse.map fun call => (call.1, "archive")

end Sample

open Sample in
theorem Resolution.resolve_reordered_of_loan :
    ((loanDescriptions.map Prod.fst).Perm (archivedDescriptions.map Prod.fst) ∧
      ∀ answer ∈ Registry.empty.answers loanDescriptions, answer.isOk = true) ∧
    (Registry.empty.registerAll loanDescriptions).names = ["Loan", "Book", "Reader"] ∧
    (Registry.empty.registerAll archivedDescriptions).names = ["Reader", "Book", "Loan"] ∧
    ∃ graph, Resolution.resolve (Registry.empty.registerAll archivedDescriptions) = .ok graph ∧
      (loanGraph.get? "Loan").map SchemaDescription.unplaced =
        (graph.get? "Loan").map SchemaDescription.unplaced ∧
      (loanGraph.get? "Loan").map
          (fun schema => Emission.content loanEmission loanGraph (.manifest schema)) =
        (graph.get? "Loan").map
          fun schema => Emission.content loanEmission graph (.manifest schema) := by
  have permuted : (loanDescriptions.map Prod.fst).Perm (archivedDescriptions.map Prod.fst) := by
    rw [archivedDescriptions, List.map_map, List.map_reverse]
    exact (List.reverse_perm _).symm
  have registered : ∀ answer ∈ Registry.empty.answers loanDescriptions, answer.isOk = true := by
    decide +kernel
  obtain ⟨_, resolves, alike⟩ := Resolution.resolve_reordered permuted registered
  obtain ⟨graph, resolved⟩ := resolves.mp ⟨_, loan_resolved⟩
  obtain ⟨_, same⟩ := alike _ _ loan_resolved resolved
  exact ⟨⟨permuted, registered⟩, by decide +kernel, by decide +kernel, graph, resolved,
    (same "Loan").1, (same "Loan").2 loanEmission⟩

end Schemata
