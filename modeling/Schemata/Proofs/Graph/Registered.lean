import Mathlib.Data.List.Induction
import Schemata.Proofs.Description.Canonical
namespace Schemata

/-! Registries after any calls, accepted or refused.

A call leaves a registry as it is or puts one description at its end (`Registry.Steps`).  So
whatever is registered stays where it is, the calls that succeed answer 0, 1, 2 and so on, and
a name leads to the position that its call has answered with
(`Registry.registerAll_consistent`). -/

namespace SchemaDescription

/-- A description as it is registered: its fields have allowed names of their own, and nothing
has been made of its references. -/
structure Unresolved (description : SchemaDescription) : Prop where
  distinct : (Keyed.keys description.fields).Nodup
  named : ∀ name ∈ Keyed.keys description.fields, name ≠ ""
  unreserved : ∀ name ∈ Keyed.keys description.fields,
    name ∉ ["get", "set", "doctype__", "_id", "id"]
  visible : ∀ name ∈ Keyed.keys description.fields, name.toList.head? ≠ some '_'
  unlinked : ∀ entry ∈ description.fields, ∀ reference, entry.2.reference = some reference →
    reference.position = none
  imports : description.imports = []
  requiresDateOnly : description.requiresDateOnly = false

theorem Canonical.unresolved {description : SchemaDescription}
    (canonical : description.Canonical) (distinct : (Keyed.keys description.fields).Nodup) :
    description.Unresolved := by
  have allowed : ∀ name ∈ Keyed.keys description.fields, fieldNameFault? name = none := by
    intro name member
    obtain ⟨entry, declared, rfl⟩ := List.mem_map.mp member
    exact canonical.allowed entry declared
  exact ⟨distinct, fun name member => (fieldNameFault?_eq_none_iff.mp (allowed name member)).2.2,
    fun name member => (fieldNameFault?_eq_none_iff.mp (allowed name member)).1,
    fun name member => (fieldNameFault?_eq_none_iff.mp (allowed name member)).2.1,
    fun entry declared => (canonical.fields entry declared).unlinked, canonical.imports,
    canonical.requiresDateOnly⟩

end SchemaDescription

namespace Registry

/-- What calls answer, one after the other: a position, or why a description is refused. -/
def answers (registry : Registry) : List (Json × String) → List (Except GenerationError Nat)
  | [] => []
  | call :: rest =>
      match registry.register call.1 call.2 with
      | .ok (next, position) => .ok position :: next.answers rest
      | .error error => .error error :: registry.answers rest

/-- What a call answers and what it leaves: a description that is malformed or whose name is
taken changes nothing, and any other comes last. -/
inductive Steps (registry : Registry) (json : Json) (origin : String) :
    Except GenerationError Nat → Registry → Prop
  | malformed {error : DescriptionError}
      (refused : SchemaDescription.ofJson json origin = .error error) :
      Steps registry json origin (.error (.description error)) registry
  | taken {description : SchemaDescription}
      (described : SchemaDescription.ofJson json origin = .ok description)
      (member : description.name ∈ registry.names) :
      Steps registry json origin (.error (.duplicate description.name)) registry
  | added {description : SchemaDescription} {next : Registry}
      (described : SchemaDescription.ofJson json origin = .ok description)
      (free : description.name ∉ registry.names)
      (schemas : next.schemas = registry.schemas ++ [description])
      (index : next.index = registry.index.insert description.name registry.size) :
      Steps registry json origin (.ok registry.size) next

/-- All that is registered in one registry is found in the other, at the same position. -/
structure KeptIn (registry next : Registry) : Prop where
  schemas : registry.schemas <+: next.schemas
  positions : ∀ name position, registry.index.get? name = some position →
    next.index.get? name = some position
  found : ∀ name schema, registry.get? name = some schema → next.get? name = some schema

/-- Names lead to their schemas, each to its own. -/
structure Consistent (registry : Registry) : Prop where
  names : registry.names.Nodup
  index_iff : ∀ name position, registry.index.get? name = some position ↔
    ∃ schema, registry.schemas[position]? = some schema ∧ schema.name = name
  get?_iff : ∀ name schema, registry.get? name = some schema ↔
    schema ∈ registry.schemas ∧ schema.name = name
  unresolved : ∀ schema ∈ registry.schemas, schema.Unresolved

variable {registry next : Registry} {json : Json} {origin : String}
  {answer : Except GenerationError Nat} {calls : List (Json × String)}

theorem get?_eq_some_iff {name : String} {schema : SchemaDescription} :
    registry.get? name = some schema ↔ schema ∈ registry.schemas ∧ schema.name = name :=
  registry.indexes.bind_eq_some_iff

/-- The step lemma: every call is one of the three steps. -/
theorem register_steps (registry : Registry) (json : Json) (origin : String) :
    ∃ answer, registry.answers [(json, origin)] = [answer] ∧
      registry.Steps json origin answer (registry.registerAll [(json, origin)]) := by
  simp only [answers, registerAll, List.foldl_cons, List.foldl_nil, register]
  cases described : SchemaDescription.ofJson json origin with
  | error error => exact ⟨_, rfl, .malformed described⟩
  | ok description =>
      by_cases taken : description.name ∈ registry.names
      · simp only [add_of_taken taken]
        exact ⟨_, rfl, .taken described taken⟩
      · simp only [add_of_free taken]
        exact ⟨_, rfl, .added described taken rfl rfl⟩

theorem registerAll_append (registry : Registry) (calls more : List (Json × String)) :
    registry.registerAll (calls ++ more) = (registry.registerAll calls).registerAll more :=
  List.foldl_append

theorem answers_append (registry : Registry) (calls more : List (Json × String)) :
    registry.answers (calls ++ more) =
      registry.answers calls ++ (registry.registerAll calls).answers more := by
  induction calls generalizing registry with
  | nil => rfl
  | cons call rest inductionHypothesis =>
      rw [List.cons_append, answers, answers, registerAll, List.foldl_cons]
      cases registry.register call.1 call.2 with
      | error error => exact congrArg _ (inductionHypothesis registry)
      | ok step => exact congrArg _ (inductionHypothesis step.1)

theorem Steps.unresolved (wellFormed : json.WellFormed)
    (steps : registry.Steps json origin answer next)
    (before : ∀ schema ∈ registry.schemas, schema.Unresolved) :
    ∀ schema ∈ next.schemas, schema.Unresolved := by
  cases steps with
  | malformed | taken => exact before
  | added described free schemas =>
      intro schema member
      rw [schemas] at member
      rcases List.mem_append.mp member with earlier | last
      · exact before schema earlier
      · obtain rfl := List.mem_singleton.mp last
        exact (SchemaDescription.ofJson_canonical described).unresolved
          (SchemaDescription.ofJson_accepted wellFormed described).names

theorem Steps.grows (steps : registry.Steps json origin answer next) :
    registry.schemas <+: next.schemas := by
  cases steps with
  | malformed | taken => exact List.prefix_refl _
  | added described free schemas => exact schemas ▸ List.prefix_append _ _

theorem Steps.keptIn (steps : registry.Steps json origin answer next) :
    registry.KeptIn next := by
  refine ⟨steps.grows, fun name position found => ?_, fun name schema found => ?_⟩
  · obtain ⟨schema, there, named⟩ := registry.indexes.get?_eq_some_iff.mp found
    obtain ⟨rest, same⟩ := steps.grows
    refine next.indexes.get?_eq_some_iff.mpr ⟨schema, ?_, named⟩
    rw [← same, List.getElem?_append_left (List.getElem?_eq_some_iff.mp there).1, there]
  · obtain ⟨member, named⟩ := get?_eq_some_iff.mp found
    exact get?_eq_some_iff.mpr ⟨steps.grows.subset member, named⟩

theorem consistent_of_unresolved
    (unresolved : ∀ schema ∈ registry.schemas, schema.Unresolved) : registry.Consistent where
  names := registry.names_nodup
  index_iff _ _ := registry.indexes.get?_eq_some_iff
  get?_iff _ _ := get?_eq_some_iff
  unresolved := unresolved

theorem Steps.ids (steps : registry.Steps json origin answer next) :
    List.range registry.size ++ [answer].filterMap Except.toOption = List.range next.size := by
  cases steps with
  | malformed | taken => simp [Except.toOption]
  | added described free schemas => simp [Except.toOption, size, schemas, List.range_succ]

/-- The run lemma. -/
theorem registerAll_unresolved (wellFormed : ∀ call ∈ calls, call.1.WellFormed) :
    ∀ schema ∈ (empty.registerAll calls).schemas, schema.Unresolved := by
  induction calls using List.reverseRecOn with
  | nil => simp [registerAll, empty]
  | append_singleton calls call inductionHypothesis =>
      obtain ⟨answer, _, steps⟩ := register_steps (empty.registerAll calls) call.1 call.2
      rw [registerAll_append]
      exact steps.unresolved (wellFormed call (by simp))
        (inductionHypothesis fun other member => wellFormed other (List.mem_append_left _ member))

theorem filterMap_answers (calls : List (Json × String)) :
    (empty.answers calls).filterMap Except.toOption =
      List.range (empty.registerAll calls).size := by
  induction calls using List.reverseRecOn with
  | nil => rfl
  | append_singleton calls call inductionHypothesis =>
      obtain ⟨answer, answered, steps⟩ := register_steps (empty.registerAll calls) call.1 call.2
      rw [answers_append, registerAll_append, answered, List.filterMap_append,
        inductionHypothesis]
      exact steps.ids

/-- After any calls names are distinct and lead to their schemas, which are as they were
described; the calls that succeeded have answered 0, 1, 2 and so on; and one more call takes
one of the three steps, in which nothing is lost that was there before. -/
theorem registerAll_consistent (calls : List (Json × String))
    (wellFormed : ∀ call ∈ calls, call.1.WellFormed) :
    (empty.registerAll calls).Consistent ∧
    (empty.answers calls).filterMap Except.toOption =
      List.range (empty.registerAll calls).size ∧
    ∀ json origin, ∃ answer,
      empty.answers (calls ++ [(json, origin)]) = empty.answers calls ++ [answer] ∧
      (empty.registerAll calls).Steps json origin answer
        (empty.registerAll (calls ++ [(json, origin)])) ∧
      (empty.registerAll calls).KeptIn (empty.registerAll (calls ++ [(json, origin)])) := by
  refine ⟨consistent_of_unresolved (registerAll_unresolved wellFormed),
    filterMap_answers calls, fun json origin => ?_⟩
  obtain ⟨answer, answered, steps⟩ := register_steps (empty.registerAll calls) json origin
  rw [answers_append, registerAll_append, answered]
  exact ⟨answer, rfl, steps, steps.keptIn⟩

end Registry

namespace Sample

def albumDescription : Json :=
  .object [("name", .text "Album"), ("version", .nat 1),
    ("fields", .object
      [("tracks", .array [.object [("type", .text "subschema"), ("schema", .text "Track")]])])]

def trackDescription (field : String) : Json :=
  .object [("name", .text "Track"), ("version", .nat 1),
    ("fields", .object [(field, .text "number")])]

/-- The first track has a field of a reserved name, and the second album is a duplicate. -/
def shelfCalls : List (Json × String) :=
  [(albumDescription, "album.json"), (trackDescription "id", "draft.json"),
    (albumDescription, "copy.json"), (trackDescription "length", "track.json")]

theorem shelfCalls_wellFormed : ∀ call ∈ shelfCalls, call.1.WellFormed := by
  simp [shelfCalls, albumDescription, trackDescription, Json.nat, Json.int, Keyed.keys]

end Sample

open Sample in
theorem Registry.registerAll_consistent_of_shelf :
    (∀ call ∈ shelfCalls, call.1.WellFormed) ∧
    (Registry.empty.registerAll shelfCalls).names = ["Album", "Track"] ∧
    (Registry.empty.registerAll shelfCalls).Consistent ∧
    (Registry.empty.answers shelfCalls).filterMap Except.toOption = [0, 1] ∧
    ∃ answer, (Registry.empty.registerAll shelfCalls).Steps .null "scan.json" answer
      (Registry.empty.registerAll (shelfCalls ++ [(.null, "scan.json")])) := by
  obtain ⟨consistent, ids, step⟩ :=
    Registry.registerAll_consistent shelfCalls shelfCalls_wellFormed
  obtain ⟨answer, _, steps, _⟩ := step .null "scan.json"
  exact ⟨shelfCalls_wellFormed, rfl, consistent, ids, answer, steps⟩

end Schemata
