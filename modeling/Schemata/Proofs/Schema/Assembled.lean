import Mathlib.Data.List.Forall2
import Schemata.Proofs.Graph.Linked
import Schemata.Proofs.Schema.Fault
import Schemata.Proofs.Validation.Local
namespace Schemata

/-! The schemas that are made of a graph.

`Schema.Mirrors` says what a schema has of its description, and `SchemaSet.build_mirrors`
when a set is made and that it has a mirror of every description then.  The schemas are made
in the order in which the graph puts them out, so each finds those that it refers to:
`SchemaSet.Made` is what holds after a part of that order, with one more schema by
`SchemaSet.Made.step`. -/

/-- The schema of the documents that a field holds is the one that has been made of the
schema that the field refers to. -/
inductive FieldSpec.Handle (graph : ResolvedGraph) (made : Keyed Schema) (spec : FieldSpec) :
    Option Schema → Prop
  | plain (type : spec.type ≠ .subschema) : Handle graph made spec none
  | subschema {target : SchemaDescription} {inner : Schema} (type : spec.type = .subschema)
      (refers : graph.subschema? spec = some target)
      (own : Keyed.get? made target.name = some inner) : Handle graph made spec (some inner)

/-- A schema has the fields of its description, in their order. -/
structure Schema.Mirrors (graph : ResolvedGraph) (hooks : Hooks) (upgraders : Keyed Upgrader)
    (made : Keyed Schema) (description : SchemaDescription) (schema : Schema) : Prop where
  name : schema.name = description.name
  version : schema.version = description.version
  doctype : schema.doctype = description.doctype
  upgrader : schema.upgrader = Keyed.get? upgraders description.name
  fields : List.Forall₂ (fun entry field => field.Follows hooks entry ∧
    entry.2.Handle graph made field.schema) description.fields schema.fields

/-- A field of the one schema holds documents of the other. -/
def Schema.Embeds (schema inner : Schema) : Prop :=
  ∃ field ∈ schema.fields, field.schema = some inner

/-- All entries are found among the later ones. -/
def Keyed.Kept {α : Type} (members later : Keyed α) : Prop :=
  ∀ key value, Keyed.get? members key = some value → Keyed.get? later key = some value

theorem Keyed.kept_put {α : Type} {members : Keyed α} {key : String} (value : α)
    (absent : key ∉ keys members) : Kept members (put members key value) := by
  intro name held found
  have other : key ≠ name := fun same =>
    absent (same ▸ mem_keys_iff.mpr (contains_iff.mpr ⟨held, found⟩))
  rw [get?_put_of_ne members value other, found]

variable {graph : ResolvedGraph} {hooks : Hooks} {upgraders : Keyed Upgrader}
  {made after : Keyed Schema} {description : SchemaDescription}

theorem FieldSpec.Handle.mono {spec : FieldSpec} {inner : Option Schema}
    (kept : Keyed.Kept made after) (handle : spec.Handle graph made inner) :
    spec.Handle graph after inner := by
  cases handle with
  | plain type => exact .plain type
  | subschema type refers own => exact .subschema type refers (kept _ _ own)

theorem Schema.Mirrors.mono {schema : Schema} (kept : Keyed.Kept made after)
    (mirrors : schema.Mirrors graph hooks upgraders made description) :
    schema.Mirrors graph hooks upgraders after description :=
  { mirrors with
    fields := mirrors.fields.imp fun _ _ ⟨rule, handle⟩ => ⟨rule, handle.mono kept⟩ }

/-- Each field of a schema comes from an entry of its description. -/
theorem Schema.Mirrors.entry {schema : Schema}
    (mirrors : schema.Mirrors graph hooks upgraders made description) {field : Field}
    (declared : field ∈ schema.fields) : ∃ entry ∈ description.fields,
      field.Follows hooks entry ∧
        entry.2.Handle graph made field.schema :=
  exists_of_mem_left mirrors.fields.flip declared

/-- Each entry of a description has become a field of its schema. -/
theorem Schema.Mirrors.field {schema : Schema}
    (mirrors : schema.Mirrors graph hooks upgraders made description) {entry : String × FieldSpec}
    (declared : entry ∈ description.fields) : ∃ field ∈ schema.fields,
      field.Follows hooks entry ∧
        entry.2.Handle graph made field.schema :=
  exists_of_mem_left mirrors.fields declared

theorem Schema.Mirrors.field_names {schema : Schema}
    (mirrors : schema.Mirrors graph hooks upgraders made description) :
    (schema.fields.map fun field => field.name) = Keyed.keys description.fields := by
  rw [Keyed.keys, ← List.forall₂_eq_eq_eq, List.forall₂_map_left_iff, List.forall₂_map_right_iff]
  exact mirrors.fields.flip.imp fun field entry related => related.1.name

namespace SchemaSet

section Schemas

def schemaFault? (hooks : Hooks) (description : SchemaDescription) : Option SchemaError :=
  description.fields.findSome? (fieldFault? hooks description.name)

/-- The schema of a description, where the schemas that it refers to are at hand. -/
def assembled (hooks : Hooks) (upgraders : Keyed Upgrader) (made : Keyed Schema)
    (description : SchemaDescription) : Schema where
  name := description.name
  version := description.version
  fields := description.fields.map fun entry => ⟨entry.2.rule entry.1 hooks,
    (entry.2.reference.map Reference.name).bind (Keyed.get? made)⟩
  upgrader := Keyed.get? upgraders description.name

/-- All schemas that a description refers to have been made. -/
def Prepared (made : Keyed Schema) (description : SchemaDescription) : Prop :=
  ∀ entry ∈ description.fields, ∀ target, entry.2.reference.map Reference.name = some target →
    target ∈ Keyed.keys made

theorem addSchema_eq (prepared : Prepared made description) :
    addSchema hooks upgraders made description = (schemaFault? hooks description).elim
      (.ok (Keyed.put made description.name (assembled hooks upgraders made description)))
      .error := by
  have each : ∀ entry ∈ description.fields, fieldOf hooks made description.name entry =
      (fieldFault? hooks description.name entry).elim (.ok ⟨entry.2.rule entry.1 hooks,
        (entry.2.reference.map Reference.name).bind (Keyed.get? made)⟩) .error := by
    intro entry declared
    rw [fieldOf_eq, absentFault?_eq_none_iff.mpr (prepared entry declared), Option.or_none]
  rw [addSchema, schemaOf, mapM_of_faults each, schemaFault?]
  cases description.fields.findSome? (fieldFault? hooks description.name) <;> rfl

theorem schemaFault?_eq_none_iff :
    schemaFault? hooks description = none ↔
      ∀ entry ∈ description.fields, hooks.Supplies entry.2 ∧ entry.2.Measured := by
  rw [schemaFault?, List.findSome?_eq_none_iff]
  exact forall₂_congr fun entry _ => fieldFault?_eq_none_iff

/-- The schemas of the positions that have been passed, under their names and in their
order, and each a mirror of its description. -/
structure Made (graph : ResolvedGraph) (hooks : Hooks) (upgraders : Keyed Upgrader)
    (order : List Nat) (made : Keyed Schema) : Prop where
  keys : Keyed.keys made = (Graph.schemasAt graph.schemas order).map SchemaDescription.name
  distinct : (Keyed.keys made).Nodup
  each : ∀ position ∈ order, ∀ description, graph.schemas[position]? = some description →
    ∃ schema, Keyed.get? made description.name = some schema ∧
      schema.Mirrors graph hooks upgraders made description

theorem made_nil : Made graph hooks upgraders [] [] where
  keys := rfl
  distinct := List.nodup_nil
  each := fun position member => by simp at member

variable {order : List Nat} {position : Nat}

theorem Made.prepared (before : Made graph hooks upgraders order made) (sound : graph.Sound)
    (done : ∀ reference ∈ references graph.schemas position, reference.2 ∈ order)
    (found : graph.schemas[position]? = some description) : Prepared made description := by
  intro entry declared name referred
  cases sound.linked description (List.mem_of_getElem? found) entry declared with
  | plain type unreferenced => simp [unreferenced] at referred
  | subschema type reference inside =>
      rw [reference, Option.map_some, Option.some.injEq] at referred
      subst referred
      have target := FieldSpec.target?_of_subschema type reference
      obtain ⟨schema, own, _⟩ := before.each _
        (done _ (ResolvedGraph.mem_references found declared target)) _ inside
      exact Keyed.mem_keys_iff.mpr (Keyed.contains_iff.mpr ⟨schema, own⟩)

/-- The name of the next schema is new, since positions with one name are the same. -/
theorem Made.absent (before : Made graph hooks upgraders order made)
    (fresh : position ∉ order) (found : graph.schemas[position]? = some description) :
    description.name ∉ Keyed.keys made := by
  rw [before.keys]
  intro member
  obtain ⟨other, passed, same⟩ := List.mem_map.mp member
  obtain ⟨earlier, inside, there⟩ := List.mem_filterMap.mp passed
  have position := graph.indexes.get?_of_there found
  rw [← same, graph.indexes.get?_of_there there, Option.some.injEq] at position
  exact fresh (position ▸ inside)

theorem assembled_mirrors (sound : graph.Sound) (loaded : description ∈ graph.schemas)
    (faultless : schemaFault? hooks description = none) (prepared : Prepared made description) :
    (assembled hooks upgraders made description).Mirrors graph hooks upgraders made
      description where
  name := rfl
  version := rfl
  doctype := rfl
  upgrader := rfl
  fields := by
    rw [assembled, List.forall₂_map_right_iff, List.forall₂_same]
    refine fun entry declared => ⟨?_, ?_⟩
    · obtain ⟨supplies, measured⟩ := schemaFault?_eq_none_iff.mp faultless entry declared
      exact FieldSpec.rule_follows supplies measured
    cases sound.linked description loaded entry declared with
    | plain type unreferenced =>
        rw [unreferenced]
        exact .plain type
    | @subschema position target type reference inside =>
        obtain ⟨schema, own⟩ := Keyed.contains_iff.mp (Keyed.mem_keys_iff.mp
          (prepared entry declared target.name (by rw [reference]; rfl)))
        have refers : graph.subschema? entry.2 = some target := by
          rw [ResolvedGraph.subschema?, FieldSpec.target?_of_subschema type reference]
          exact inside
        rw [reference, Option.map_some, Option.bind_some, own]
        exact .subschema type refers own

/-- One more schema is made, with all that it refers to made before. -/
theorem Made.step (before : Made graph hooks upgraders order made) (sound : graph.Sound)
    (done : ∀ reference ∈ references graph.schemas position, reference.2 ∈ order)
    (fresh : position ∉ order) (found : graph.schemas[position]? = some description)
    (faultless : schemaFault? hooks description = none) :
    Made graph hooks upgraders (order ++ [position])
      (Keyed.put made description.name (assembled hooks upgraders made description)) := by
  have absent := before.absent fresh found
  have prepared := before.prepared sound done found
  -- What has been made is still found, so it mirrors its descriptions as before.
  have kept : Keyed.Kept made (Keyed.put made description.name _) :=
    Keyed.kept_put (assembled hooks upgraders made description) absent
  refine ⟨?_, ?_, fun earlier passed other there => ?_⟩
  · rw [Keyed.keys_put_of_absent _ absent, before.keys, Graph.schemasAt_concat, found,
      List.map_append]
    rfl
  · rw [Keyed.keys_put_of_absent _ absent]
    simpa using List.Nodup.concat absent before.distinct
  · rcases List.mem_append.mp passed with passed | last
    · obtain ⟨schema, own, mirrors⟩ := before.each earlier passed other there
      exact ⟨schema, kept _ _ own, mirrors.mono kept⟩
    · rw [List.mem_singleton.mp last, found, Option.some.injEq] at there
      subst there
      exact ⟨_, Keyed.get?_put_self _ _ _,
        (assembled_mirrors sound (List.mem_of_getElem? found) faultless prepared).mono kept⟩

theorem Made.skip (before : Made graph hooks upgraders order made)
    (missing : graph.schemas[position]? = none) :
    Made graph hooks upgraders (order ++ [position]) made := by
  refine ⟨?_, before.distinct, fun other passed description there => ?_⟩
  · simpa [Graph.schemasAt, missing] using before.keys
  · rcases List.mem_append.mp passed with passed | last
    · exact before.each other passed description there
    · rw [List.mem_singleton.mp last, missing] at there
      simp at there

/-- The schemas of a finished order are made, up to the first with a fault. -/
theorem foldlM_addSchema (sound : graph.Sound) (finished : Finished graph.schemas order)
    (distinct : order.Nodup) :
    match (Graph.schemasAt graph.schemas order).findSome? (schemaFault? hooks) with
    | some error =>
        (Graph.schemasAt graph.schemas order).foldlM (addSchema hooks upgraders) [] = .error error
    | none => ∃ made, Made graph hooks upgraders order made ∧
        (Graph.schemasAt graph.schemas order).foldlM (addSchema hooks upgraders) [] = .ok made := by
  induction finished with
  | nil => exact ⟨[], made_nil, rfl⟩
  | @snoc order position _ done inductionHypothesis =>
      rw [← List.concat_eq_append, List.nodup_concat] at distinct
      obtain ⟨fresh, earlier⟩ := distinct
      have before := inductionHypothesis earlier
      rw [Graph.schemasAt_concat, List.findSome?_append, List.foldlM_append]
      cases faulty : (Graph.schemasAt graph.schemas order).findSome? (schemaFault? hooks) with
      | some error =>
          rw [faulty] at before
          rw [before]
          rfl
      | none =>
          rw [faulty] at before
          obtain ⟨made, before, folded⟩ := before
          rw [folded]
          cases found : graph.schemas[position]? with
          | none => exact ⟨made, before.skip found, rfl⟩
          | some description =>
              have last : (Except.ok made >>= fun made =>
                  [description].foldlM (addSchema hooks upgraders) made) =
                  addSchema hooks upgraders made description :=
                bind_pure (addSchema hooks upgraders made description)
              rw [Option.toList_some, Option.none_or, List.findSome?_singleton, last,
                addSchema_eq (before.prepared sound done found)]
              cases faultless : schemaFault? hooks description with
              | some error => rfl
              | none => exact ⟨_, before.step sound done fresh found faultless, rfl⟩

end Schemas

section Sets

/-- Why no set can be made of a graph: an upgrader is for none of its schemas, or one of
its schemas has a fault. -/
def buildFault? (graph : ResolvedGraph) (hooks : Hooks) (upgraders : Keyed Upgrader) :
    Option SchemaError :=
  ((upgraders.find? fun upgrader => (graph.get? upgrader.1).isNone).map
    fun upgrader => .unknownUpgraderTarget upgrader.1).or
    (graph.dependencyOrder.findSome? (schemaFault? hooks))

theorem build_eq (sound : graph.Sound) (hooks : Hooks) (upgraders : Keyed Upgrader) :
    match buildFault? graph hooks upgraders with
    | some error => build graph hooks upgraders = .error error
    | none => ∃ order made, graph.Orders order ∧ Made graph hooks upgraders order made ∧
        build graph hooks upgraders = .ok ⟨graph.names, made⟩ := by
  obtain ⟨order, orders⟩ := sound.ordered
  have folded := @foldlM_addSchema graph hooks upgraders order sound orders.finished
    orders.distinct
  rw [build, buildFault?, orders.places]
  cases upgraders.find? fun upgrader => (graph.get? upgrader.1).isNone with
  | some upgrader => rfl
  | none =>
      rw [Option.map_none, Option.none_or]
      cases faulty : (Graph.schemasAt graph.schemas order).findSome? (schemaFault? hooks) with
      | some error =>
          rw [faulty] at folded
          simp only [folded]
          rfl
      | none =>
          rw [faulty] at folded
          obtain ⟨made, all, folded⟩ := folded
          refine ⟨order, made, orders, all, ?_⟩
          simp only [folded]
          rfl

/-- Where the search for a circle has ended, the schemas are made in its order. -/
theorem build_of_ended (ended : Graph.finishingOrder graph.schemas = .ok order) :
    build graph hooks upgraders =
      match upgraders.find? fun upgrader => (graph.get? upgrader.1).isNone with
      | some upgrader => .error (.unknownUpgraderTarget upgrader.1)
      | none => ((Graph.schemasAt graph.schemas order).foldlM (addSchema hooks upgraders) []).map
          (⟨graph.names, ·⟩) := by
  rw [build, (ResolvedGraph.orders_of_ended ended).places]
  rfl

theorem buildFault?_eq_none_iff (sound : graph.Sound) :
    buildFault? graph hooks upgraders = none ↔
      (∀ name ∈ Keyed.keys upgraders, name ∈ graph.names) ∧
      ∀ description ∈ graph.schemas, ∀ entry ∈ description.fields,
        hooks.Supplies entry.2 ∧ entry.2.Measured := by
  rw [buildFault?, Option.or_eq_none_iff, Option.map_eq_none_iff, List.find?_eq_none,
    List.findSome?_eq_none_iff]
  refine and_congr ?_ (forall_congr' fun description => ?_)
  · simp only [Option.isNone_iff_eq_none, ← Option.isSome_iff_ne_none, ← ne_eq,
      ResolvedGraph.get?_isSome_iff, Keyed.keys, List.forall_mem_map]
  · rw [ResolvedGraph.mem_dependencyOrder_iff sound, schemaFault?_eq_none_iff]

theorem buildFault?_ne_missing {error : SchemaError}
    (fault : buildFault? graph hooks upgraders = some error) (schema field target : String) :
    error ≠ .missingSubschema schema field target := by
  rcases Option.or_eq_some_iff.mp fault with unknown | ⟨_, faulty⟩
  · obtain ⟨upgrader, _, rfl⟩ := Option.map_eq_some_iff.mp unknown
    simp
  · obtain ⟨description, _, faulty⟩ := List.exists_of_findSome?_eq_some faulty
    obtain ⟨entry, _, faulty⟩ := List.exists_of_findSome?_eq_some faulty
    exact fieldFault?_ne_missing faulty schema field target

/-- A set has the schemas of a graph, each once and under its name.  Schemas that fields
hold documents of are those of the set, as are those that their fields hold documents of in
turn. -/
structure Mirrors (graph : ResolvedGraph) (hooks : Hooks) (upgraders : Keyed Upgrader)
    (set : SchemaSet) : Prop where
  names : set.names = graph.names
  size : set.size = graph.size
  keys : (Keyed.keys set.schemas).Perm graph.names
  distinct : (Keyed.keys set.schemas).Nodup
  each : ∀ description ∈ graph.schemas, ∃ schema, set.get? description.name = some schema ∧
    schema.Mirrors graph hooks upgraders set.schemas description
  own : ∀ name schema inner, set.get? name = some schema →
    Relation.ReflTransGen Schema.Embeds schema inner → set.get? inner.name = some inner

/-- A schema of the set is found under its own name, and mirrors a description. -/
theorem Made.found (all : Made graph hooks upgraders order made)
    {name : String} {schema : Schema} (found : Keyed.get? made name = some schema) :
    schema.name = name ∧ ∃ description ∈ graph.schemas,
      schema.Mirrors graph hooks upgraders made description := by
  have member : name ∈ Keyed.keys made :=
    Keyed.mem_keys_iff.mpr (Keyed.contains_iff.mpr ⟨schema, found⟩)
  rw [all.keys] at member
  obtain ⟨description, ordered, rfl⟩ := List.mem_map.mp member
  obtain ⟨position, passed, inside⟩ := List.mem_filterMap.mp ordered
  obtain ⟨own, there, mirrors⟩ := all.each position passed description inside
  rw [found, Option.some.injEq] at there
  subst there
  exact ⟨mirrors.name, description, List.mem_of_getElem? inside, mirrors⟩

theorem faultless_of_built (sound : graph.Sound) {set : SchemaSet}
    (built : build graph hooks upgraders = .ok set) : buildFault? graph hooks upgraders = none := by
  have answer := build_eq sound hooks upgraders
  cases faulty : buildFault? graph hooks upgraders with
  | none => rfl
  | some error =>
      rw [faulty] at answer
      simp [built] at answer

theorem made_of_built (sound : graph.Sound) {set : SchemaSet}
    (built : build graph hooks upgraders = .ok set) :
    ∃ order made, graph.Orders order ∧ Made graph hooks upgraders order made ∧
      set = ⟨graph.names, made⟩ := by
  have answer := build_eq sound hooks upgraders
  rw [faultless_of_built sound built] at answer
  obtain ⟨order, made, orders, all, same⟩ := answer
  exact ⟨order, made, orders, all, Except.ok.inj (built.symm.trans same)⟩

/-- Every schema that is found in a set mirrors the description of that name. -/
theorem mirrors_of_found (sound : graph.Sound) {set : SchemaSet} {name : String} {schema : Schema}
    (built : build graph hooks upgraders = .ok set) (found : set.get? name = some schema) :
    schema.name = name ∧ ∃ description ∈ graph.schemas,
      schema.Mirrors graph hooks upgraders set.schemas description := by
  obtain ⟨_, made, _, all, rfl⟩ := made_of_built sound built
  exact all.found found

theorem Made.embedded (all : Made graph hooks upgraders order made)
    {schema inner : Schema} (found : Keyed.get? made schema.name = some schema)
    (embeds : schema.Embeds inner) : Keyed.get? made inner.name = some inner := by
  obtain ⟨_, description, _, mirrors⟩ := all.found found
  obtain ⟨field, declared, nested⟩ := embeds
  obtain ⟨entry, _, _, handle⟩ := mirrors.entry declared
  rw [nested] at handle
  cases handle with
  | subschema _ _ own =>
      rw [(all.found own).1]
      exact own

theorem Made.mirrors (all : Made graph hooks upgraders order made) (orders : graph.Orders order) :
    Mirrors graph hooks upgraders ⟨graph.names, made⟩ := by
  have keys : (Keyed.keys made).Perm graph.names := by
    refine (List.perm_ext_iff_of_nodup all.distinct graph.names_nodup).mpr fun name => ?_
    rw [all.keys, ← orders.places, ResolvedGraph.names, List.mem_map, List.mem_map]
    exact exists_congr fun description =>
      and_congr_left fun _ => orders.mem_dependencyOrder_iff
  refine ⟨rfl, ?_, keys, all.distinct, fun description loaded => ?_, ?_⟩
  · simpa [size, ResolvedGraph.size, Keyed.keys, ResolvedGraph.names] using keys.length_eq
  · obtain ⟨position, inside⟩ := List.getElem?_of_mem loaded
    obtain ⟨bounded, _⟩ := List.getElem?_eq_some_iff.mp inside
    exact all.each position (orders.all position bounded) description inside
  · intro name schema inner found reached
    induction reached with
    | refl => exact (all.found found).1 ▸ found
    | tail _ embeds inductionHypothesis => exact all.embedded inductionHypothesis embeds

theorem mirrors_of_built (sound : graph.Sound) {set : SchemaSet}
    (built : build graph hooks upgraders = .ok set) : set.Mirrors graph hooks upgraders := by
  obtain ⟨order, made, orders, all, rfl⟩ := made_of_built sound built
  exact all.mirrors orders

theorem mirrors_of_loaded (sound : graph.Sound) {set : SchemaSet} {schema : Schema}
    (built : build graph hooks upgraders = .ok set) (loaded : description ∈ graph.schemas)
    (found : set.get? description.name = some schema) :
    schema.Mirrors graph hooks upgraders set.schemas description := by
  obtain ⟨_, there, mirrors⟩ := (mirrors_of_built sound built).each description loaded
  exact Option.some.inj (there.symm.trans found) ▸ mirrors

/-- What holds of every schema that mirrors a description, once it holds of those that its
fields hold documents of, holds of all that are found in a set. -/
theorem induction_of_found {motive : Schema → Prop} (sound : graph.Sound) {set : SchemaSet}
    (built : build graph hooks upgraders = .ok set)
    (step : ∀ description ∈ graph.schemas, ∀ schema,
      schema.Mirrors graph hooks upgraders set.schemas description →
      (∀ field ∈ schema.fields, ∀ inner, field.schema = some inner → motive inner) →
      motive schema)
    {name : String} {schema : Schema} (found : set.get? name = some schema) : motive schema := by
  induction schema using Schema.induction generalizing name with
  | step schema inductionHypothesis =>
      obtain ⟨_, description, loaded, mirrors⟩ := mirrors_of_found sound built found
      refine step description loaded schema mirrors fun field declared inner nested => ?_
      have own := (mirrors_of_built sound built).own name schema inner found
        (.single ⟨field, declared, nested⟩)
      exact inductionHypothesis field declared inner nested own

/-- A set is made of a resolved graph exactly when each upgrader is for one of its schemas,
all functions are registered that its fields name, and the bounds that are texts are
numbers.  A schema that a field refers to is never missing, and the set mirrors the graph. -/
theorem build_mirrors {calls : List (Json × String)} {graph : ResolvedGraph}
    (resolved : Resolution.resolve (Registry.empty.registerAll calls) = .ok graph)
    (hooks : Hooks) (upgraders : Keyed Upgrader) :
    ((∃ set, build graph hooks upgraders = .ok set) ↔
      (∀ name ∈ Keyed.keys upgraders, name ∈ graph.names) ∧
      ∀ description ∈ graph.schemas, ∀ entry ∈ description.fields,
        hooks.Supplies entry.2 ∧ entry.2.Measured) ∧
    (∀ schema field target,
      build graph hooks upgraders ≠ .error (.missingSubschema schema field target)) ∧
    ∀ set, build graph hooks upgraders = .ok set → set.Mirrors graph hooks upgraders := by
  have sound := Resolution.resolve_sound resolved
  have answer := build_eq sound hooks upgraders
  rw [← buildFault?_eq_none_iff sound]
  cases faulty : buildFault? graph hooks upgraders with
  | none =>
      rw [faulty] at answer
      obtain ⟨_, made, orders, all, built⟩ := answer
      rw [built]
      refine ⟨by simp, by simp, fun set same => ?_⟩
      rw [← Except.ok.inj same]
      exact all.mirrors orders
  | some error =>
      rw [faulty] at answer
      rw [show build graph hooks upgraders = .error error from answer]
      refine ⟨by simp, fun schema field target same => ?_, by simp⟩
      exact buildFault?_ne_missing faulty schema field target (Except.error.inj same)

end Sets

end SchemaSet

namespace Sample

/-- Ferries call at ports.  They take at least one car, twenty where nothing is said, and fly
a flag that is known and written in a shorter form.  What bounds the trips of a day bounds no
flag of one. -/
def ferryDescriptions : List (Json × String) :=
  [(.object [("name", .text "Ferry"), ("version", .nat 2),
      ("fields", .object
        [("cars", .object [("type", .text "number"), ("default", .nat 20), ("min", .text " 1 "),
            ("max", .text "6e1")]),
          ("daily", .object [("type", .text "boolean"), ("required", .bool false),
            ("min", .text "often")]),
          ("draught", .object [("type", .text "number"), ("min", .number (.float (.zero false)))]),
          ("flag", .object [("type", .text "string"), ("validate", .text "known"),
            ("validateFailMsg", .text "no such flag"), ("formatter", .text "short")]),
          ("ports", .array [.object [("type", .text "subschema"), ("schema", .text "Port")]]),
          ("title", .object [("type", .text "calculated"), ("calculator", .text "label"),
            ("calculatedType", .text "string")])])], "ferry.json"),
    (.object [("name", .text "Port"), ("version", .nat 1),
      ("fields", .object
        [("opened", .object [("type", .text "date"), ("default", .text "1871-05-01")]),
          ("signs", .array [.object [("type", .text "string"),
            ("default", .array [.text "A", .null])]])])], "port.json")]

def ferryGraph : ResolvedGraph :=
  Resolution.linkedGraph (Registry.empty.registerAll ferryDescriptions)

def ferryHooks : Hooks where
  validators := [("known", fun value => .ok (!value.isNull))]
  formatters := [("short", fun _ => .null)]
  calculators := [("label", fun body => (body.get? "flag").getD .null)]

def ferryUpgraders : Keyed Upgrader := [("Ferry", some)]

def ferryPort : Schema where
  name := "Port"
  version := 1
  fields :=
    [{ name := "opened", type := .date, default := some (.text "1871-05-01") },
      { name := "signs", type := .string, isArray := true,
        default := some (.array [.text "A", .null]) }]

def ferry : Schema where
  name := "Ferry"
  version := 2
  fields :=
    [{ name := "cars", type := .number, default := some (.nat 20), min := some (.ofInt 1),
        max := some (.ofInt 60) },
      { name := "daily", type := .boolean, required := false },
      { name := "draught", type := .number, min := some (.finite (.zero false)) },
      { name := "flag", type := .string, validator := ferryHooks.validator? "known",
        failMessage := some "no such flag", formatter := ferryHooks.formatter? "short" },
      { name := "ports", type := .subschema, isArray := true, schema := some ferryPort },
      { name := "title", type := .calculated, calculator := ferryHooks.calculator? "label" }]
  upgrader := some some

def ferrySet : SchemaSet := ⟨["Ferry", "Port"], [("Port", ferryPort), ("Ferry", ferry)]⟩

theorem ferry_ended : Graph.finishingOrder ferryGraph.schemas = .ok [1, 0] := by
  have size : ferryGraph.schemas.length = 2 := by decide +kernel
  have first : references ferryGraph.schemas 0 = [("ports", 1)] := rfl
  have second : references ferryGraph.schemas 1 = [] := rfl
  rw [Graph.finishingOrder, size]
  simp [List.range_succ, Graph.finishFrom, first, second, Graph.follow]

theorem ferry_resolved :
    Resolution.resolve (Registry.empty.registerAll ferryDescriptions) = .ok ferryGraph :=
  Resolution.resolve_of_order rfl ferry_ended

theorem ferry_built : SchemaSet.build ferryGraph ferryHooks ferryUpgraders = .ok ferrySet := by
  rw [SchemaSet.build_of_ended ferry_ended]
  rfl

end Sample

open Sample in
theorem SchemaSet.build_mirrors_of_ferry :
    Resolution.resolve (Registry.empty.registerAll ferryDescriptions) = .ok ferryGraph ∧
    SchemaSet.build ferryGraph ferryHooks ferryUpgraders = .ok ferrySet ∧
    ferrySet.Mirrors ferryGraph ferryHooks ferryUpgraders := by
  obtain ⟨_, _, mirrors⟩ := SchemaSet.build_mirrors ferry_resolved ferryHooks ferryUpgraders
  exact ⟨ferry_resolved, ferry_built, mirrors _ ferry_built⟩

end Schemata
