import Schemata.Proofs.Document.Tags
import Schemata.Proofs.Number.Comparison
import Schemata.Proofs.Validation.Comparable
import Schemata.Proofs.Validation.Located
import Schemata.Proofs.Validation.Passed
namespace Schemata

/-! What the bounds of a description come to in documents.

A bound goes a long way: it stands in the description of a field, becomes a limit of the rule that
is made of the field, and is held against the measure of each value.  Every bound becomes a limit
(`SchemaSet.limit_of_built`), but a text may name what is not a number, and such a limit keeps
nothing out.  All others are kept by the values of a field that has passed, wherever the field is
(`Document.bounds_kept`). -/

namespace FieldSpec

/-- The field is of a type whose values have a measure. -/
def Bounded (spec : FieldSpec) : Prop := spec.type = .string ∨ spec.type = .number

/-- The bound is declared as a minimum or as a maximum. -/
def HasBound (spec : FieldSpec) (bound : Bound) : Prop :=
  spec.min = some bound ∨ spec.max = some bound

/-- A measure keeps the bounds of the field, apart from those that are no numbers. -/
structure Keeps (spec : FieldSpec) (size : Number) : Prop where
  min : ∀ bound limit, spec.min = some bound → bound.value? = some limit → limit ≠ .nan →
    limit.AtMost size
  max : ∀ bound limit, spec.max = some bound → bound.value? = some limit → limit ≠ .nan →
    size.AtMost limit

/-- The steps from what is under the name of a field to one value of it. -/
inductive Spot (spec : FieldSpec) : Location → Prop
  | single (single : spec.isArray = false) : Spot spec []
  | item (array : spec.isArray = true) (index : Nat) : Spot spec [.item index]

end FieldSpec

/-- The bound is a text that names what is not a number. -/
def Bound.NamesNaN (bound : Bound) : Prop :=
  ∃ text, bound = .text text ∧ Decimal.NaN (Text.trim text.toList)

/-- A description, or one of those that its fields refer to, has a field whose values are at a
location. -/
inductive ResolvedGraph.Declares (graph : ResolvedGraph) :
    SchemaDescription → Location → FieldSpec → Prop
  | own {description : SchemaDescription} {name : String} {spec : FieldSpec}
      (declared : (name, spec) ∈ description.fields) :
      Declares graph description [.member name] spec
  | inside {description target : SchemaDescription} {name : String} {outer spec : FieldSpec}
      {spot rest : Location} (declared : (name, outer) ∈ description.fields)
      (refers : graph.subschema? outer = some target) (spotted : outer.Spot spot)
      (declares : Declares graph target rest spec) :
      Declares graph description (.member name :: (spot ++ rest)) spec

/-- The upgrader of the schema answers for the payload with a body that has a NaN in it. -/
def Schema.Spoils (schema : Schema) (payload : Json) : Prop :=
  ∃ members next, payload = .object members ∧
    schema.Upgrades (Body.ofJson members) next ∧ ¬ next.value.Comparable

theorem Bound.value?_eq_nan_iff {bound : Bound} :
    bound.value? = some .nan ↔ bound.NamesNaN := by
  cases bound with
  | number value => simp [value?, NamesNaN]
  | text text =>
      rw [value?, Number.ofText?_eq_nan_iff]
      simp [NamesNaN]

section Rules

variable {hooks : Hooks} {spec : FieldSpec} {name : String} {rule : FieldRule} {value : Value}
  {size : Number}

theorem FieldRule.measure?_eq_nan (measured : measure? value = some .nan) :
    value = .number .nan := by
  cases value with
  | text text => exact absurd (Option.some.inj measured) (Number.ofInt_ne_nan _)
  | number number => rw [Option.some.inj measured]
  | _ => simp [measure?] at measured

theorem FieldRule.Accepts.measured (accepts : rule.Accepts value)
    (bounded : rule.type = .string ∨ rule.type = .number) :
    ∃ size, measure? value = some size := by
  have form := accepts.form
  rcases bounded with type | type
  all_goals
    rw [type] at form
    cases form
    exact ⟨_, rfl⟩

/-- What the rule of a field accepts keeps the bounds of the field. -/
theorem FieldRule.Accepts.keeps (accepts : rule.Accepts value)
    (follows : rule.Follows hooks (name, spec)) (bounded : spec.Bounded)
    (measured : measure? value = some size) (number : size ≠ .nan) : spec.Keeps size := by
  have least : rule.min = spec.min.bind Bound.value? := follows.min.eq_bind bounded
  have greatest : rule.max = spec.max.bind Bound.value? := follows.max.eq_bind bounded
  refine ⟨fun bound limit declared read proper => ?_, fun bound limit declared read proper => ?_⟩
  · rw [declared, Option.bind_some, read] at least
    exact (Number.lt_eq_false_iff number proper).mp (accepts.notBelow size limit measured least)
  · rw [declared, Option.bind_some, read] at greatest
    exact (Number.lt_eq_false_iff proper number).mp (accepts.notAbove size limit measured greatest)

theorem FieldSpec.Spot.of_rule {spot : Location} (spotted : spec.Spot spot)
    (follows : rule.Follows hooks (name, spec)) : rule.Spot spot := by
  cases spotted with
  | single single => exact .single (follows.isArray.trans single)
  | item array index => exact .item (follows.isArray.trans array) index

end Rules

namespace SchemaSet

variable {graph : ResolvedGraph} {hooks : Hooks} {upgraders : Keyed Upgrader} {set : SchemaSet}
  {name : String} {schema : Schema} {description : SchemaDescription}

/-- No default of a set has a NaN in it, as JSON cannot write one. -/
theorem defaultsComparable_of_found (sound : graph.Sound)
    (accepted : ∀ description ∈ graph.schemas, description.Accepted)
    (built : build graph hooks upgraders = .ok set) (found : set.get? name = some schema) :
    schema.DefaultsComparable := by
  refine induction_of_found sound built (fun description loaded schema mirrors inner => ?_) found
  refine .intro (fun field member value default => ?_) inner
  obtain ⟨entry, declared, rule, _⟩ := mirrors.entry member
  have stated := Value.rel_reads_iff.mp rule.default
  obtain ⟨json, written, rfl⟩ := Option.map_eq_some_iff.mp (stated ▸ default)
  exact ((accepted description loaded).defaults entry declared json written).plain.comparable

/-- What a description declares, its schema has, with the rule that is made of it. -/
theorem declares_of_graph (sound : graph.Sound)
    (built : build graph hooks upgraders = .ok set) (loaded : description ∈ graph.schemas)
    {location : Location} {spec : FieldSpec} (declares : graph.Declares description location spec)
    (found : set.get? description.name = some schema) :
    ∃ field name, schema.Declares location field ∧ field.Follows hooks (name, spec) := by
  induction declares generalizing schema with
  | @own description name spec declared =>
      obtain ⟨field, member, rule, _⟩ :=
        (mirrors_of_loaded sound built loaded found).field declared
      have named : field.name = name := rule.name
      exact ⟨field, name, named ▸ .own member, rule⟩
  | @inside description target name outer spec spot rest declared refers spotted _
      inductionHypothesis =>
      obtain ⟨field, member, rule, handle⟩ :=
        (mirrors_of_loaded sound built loaded found).field declared
      have named : field.name = name := rule.name
      -- Only a field that holds documents refers to a description, and its schema is in the set.
      cases nested : field.schema with
      | none =>
          rw [nested] at handle
          cases handle with
          | plain type =>
              simp [ResolvedGraph.subschema?, FieldSpec.target?, FieldType.isSubschema, type]
                at refers
      | some inner =>
          rw [nested] at handle
          cases handle with
          | subschema type also own =>
              obtain rfl := Option.some.inj (refers.symm.trans also)
              obtain ⟨_, _, inside⟩ := Option.bind_eq_some_iff.mp refers
              obtain ⟨target, name, declares, made⟩ :=
                inductionHypothesis (List.mem_of_getElem? inside) own
              have subschema : field.type = .subschema := rule.type.trans type
              exact ⟨target, name,
                named ▸ .inside member subschema nested (spotted.of_rule rule) declares, made⟩

/-- Every bound in a set is a limit.  It is a NaN exactly where a text names it, and these are the
limits that nothing is below and nothing is above. -/
theorem limit_of_built (sound : graph.Sound) (built : build graph hooks upgraders = .ok set)
    (loaded : description ∈ graph.schemas) {entry : String × FieldSpec}
    (declared : entry ∈ description.fields) (bounded : entry.2.Bounded) {bound : Bound}
    (has : entry.2.HasBound bound) :
    ∃ limit, bound.value? = some limit ∧ (limit = .nan ↔ bound.NamesNaN) ∧
      (limit = .nan ↔ ∀ size : Number, size.lt limit = false ∧ limit.lt size = false) := by
  obtain ⟨_, supplied⟩ := (buildFault?_eq_none_iff sound).mp (faultless_of_built sound built)
  have measured : entry.2.Measured := (supplied description loaded entry declared).2
  obtain ⟨limit, read⟩ : ∃ limit, bound.value? = some limit := by
    cases bound with
    | number value => exact ⟨_, rfl⟩
    | text text =>
        exact Option.isSome_iff_exists.mp
          (Number.ofText?_isSome_iff.mpr (measured bounded text has))
  refine ⟨limit, read, ?_, Number.unrelated_iff.symm⟩
  rw [← Bound.value?_eq_nan_iff, read, Option.some.injEq]

end SchemaSet

theorem DocumentState.Stamped.comparable {schema : Schema} {body bound : Body}
    (stamped : Stamped schema body bound) (comparable : body.value.Comparable) :
    bound.value.Comparable := by
  refine Value.comparable_object_iff.mpr fun key value held => ?_
  rw [Table.get?_entries] at held
  by_cases doctype : key = doctypeKey
  · rw [doctype, stamped.doctype, Option.some.injEq] at held
    exact held ▸ Value.comparable_of_single rfl rfl (by simp)
  by_cases version : key = versionKey
  · rw [version, stamped.version, Option.some.injEq] at held
    refine held ▸ Value.comparable_of_single rfl rfl fun same => ?_
    exact Number.ofInt_ne_nan _ (Value.number.inj same)
  · rw [stamped.others key doctype version] at held
    exact Value.comparable_object_iff.mp comparable key value held

namespace Document

variable {schema : Schema} {document : Document} {payload : Json}

/-- What comes from JSON has no NaN in it, unless the upgrader brings one. -/
theorem comparable_of_ofJson (defaults : schema.DefaultsComparable)
    (wellFormed : payload.WellFormed) (unspoilt : ¬ schema.Spoils payload)
    (read : (Document.ofJson schema payload).1 = .ok document) :
    document.body.value.Comparable := by
  obtain ⟨members, rfl, loaded⟩ := loaded_of_ofJson read
  obtain ⟨_, bound, ran, validated⟩ := load_ok loaded
  obtain ⟨_, next, _, current, stamped⟩ := DocumentState.stamped_of_bind ran
  refine Schema.comparable_of_validate defaults (Schema.validateBody_eq_iff.mp validated) ?_
  refine stamped.comparable ?_
  rcases DocumentState.current_eq_or current with rfl | upgraded
  · exact wellFormed.plain.comparable
  · exact Classical.byContradiction fun spoilt =>
      unspoilt ⟨members, next, rfl, upgraded, spoilt⟩

/-- In a set that has been made, every bound is a limit, though one that is a text may name what
is not a number, and then keeps nothing out.  All other bounds of a field that has passed, at any
depth, are kept by each of its values that is not a null, unless an upgrader has made this value a
NaN. -/
theorem bounds_kept {calls : List (Json × String)} {graph : ResolvedGraph} {hooks : Hooks}
    {upgraders : Keyed Upgrader} {set : SchemaSet}
    (wellFormed : ∀ call ∈ calls, call.1.WellFormed)
    (resolved : Resolution.resolve (Registry.empty.registerAll calls) = .ok graph)
    (built : SchemaSet.build graph hooks upgraders = .ok set) :
    (∀ description ∈ graph.schemas, ∀ entry ∈ description.fields, entry.2.Bounded →
      ∀ bound, entry.2.HasBound bound → ∃ limit, bound.value? = some limit ∧
        (limit = .nan ↔ bound.NamesNaN) ∧
        (limit = .nan ↔ ∀ size : Number, size.lt limit = false ∧ limit.lt size = false)) ∧
    ∀ description ∈ graph.schemas, ∀ schema payload document,
      set.get? description.name = some schema → payload.WellFormed →
      (Document.ofJson schema payload).1 = .ok document →
      ∀ location spec spot value, graph.Declares description location spec → spec.Bounded →
        document.outcome.verdict? location.path = some true → spec.Spot spot →
        (location ++ spot).find? document.body.value = some value → value.isNull = false →
        ∃ size, FieldRule.measure? value = some size ∧
          (spec.Keeps size ∨ (size = .nan ∧ schema.Spoils payload)) := by
  have sound := Resolution.resolve_sound resolved
  have accepted := Resolution.resolve_accepted
    (Registry.registerAll_accepted (by simp [Registry.empty]) wellFormed) resolved
  refine ⟨fun description loaded entry declared bounded bound has =>
    SchemaSet.limit_of_built sound built loaded declared bounded has, ?_⟩
  intro description loaded schema payload document found payloadFormed read location spec spot
    value declares bounded passed spotted there present
  obtain ⟨field, name, declares, made⟩ :=
    SchemaSet.declares_of_graph sound built loaded declares found
  have type : field.type = spec.type := made.type
  have measurable : field.type = .string ∨ field.type = .number := type ▸ bounded
  have plain : field.type ≠ .subschema ∧ field.type ≠ .calculated := by
    rcases measurable with type | type <;> simp [type]
  obtain ⟨members, _, loaded⟩ := loaded_of_ofJson read
  obtain ⟨_, _, _, validated⟩ := load_ok loaded
  have accepts : field.Accepts value := Schema.accepts_of_clears
    (SchemaSet.distinct_of_found sound accepted built found) declares plain.1 plain.2
    (Schema.validateBody_eq_iff.mp validated) (by simp [Outcome.Clears, passed])
    (spotted.of_rule made) there present
  obtain ⟨size, measured⟩ := accepts.measured measurable
  refine ⟨size, measured, ?_⟩
  by_cases number : size = .nan
  · -- No text measures a NaN, so the value is one itself, and the payload had none.
    refine .inr ⟨number, Classical.byContradiction fun unspoilt => ?_⟩
    have comparable := comparable_of_ofJson
      (SchemaSet.defaultsComparable_of_found sound accepted built found) payloadFormed unspoilt read
    exact comparable _ (FieldRule.measure?_eq_nan (number ▸ measured) ▸ there)
  · exact .inl (accepts.keeps made bounded measured number)

end Document

theorem Value.eq_of_number? {held : Option Value} {number : Number}
    (read : held.bind number? = some number) : held = some (.number number) := by
  obtain ⟨value, rfl, is_number⟩ := Option.bind_eq_some_iff.mp read
  cases value with
  | number held => rw [Option.some.inj is_number]
  | _ => simp [number?] at is_number

namespace Sample

/-- The bound of the berths is a text. -/
def berths : FieldSpec := { type := .number, min := some (.text " 1 ") }

def linkedPort : SchemaDescription where
  name := "Port"
  version := 1
  origin := "port.json"
  fields := [("berths", berths)]

def portsOfCall : FieldSpec :=
  { type := .subschema, isArray := true, reference := some ⟨"Port", some 1⟩ }

def linkedVoyage : SchemaDescription where
  name := "Voyage"
  version := 2
  origin := "voyage.json"
  fields := [("ports", portsOfCall), ("captain", { type := .string, validator := some "known" })]
  imports := ["Port"]

theorem voyageGraph_schemas : voyageGraph.schemas = [linkedVoyage, linkedPort] := rfl

theorem voyage_declares_berths :
    voyageGraph.Declares linkedVoyage [.member "ports", .item 1, .member "berths"] berths :=
  .inside (List.mem_cons_self : ("ports", portsOfCall) ∈ linkedVoyage.fields) rfl (.item rfl 1)
    (.own (List.mem_cons_self : ("berths", berths) ∈ linkedPort.fields))

def roundTripPayload : Json :=
  .object [("captain", .text "Ahab"),
    ("ports", .array [.object [("berths", .nat 3)], .object [("berths", .nat 7)]])]

def roundTrip : Document :=
  ((Document.ofJson voyage roundTripPayload).1.toOption).getD ⟨voyage, .empty, .unbound, .empty⟩

end Sample

open Sample in
theorem Document.bounds_kept_of_voyage :
    ((∀ call ∈ voyageDescriptions, call.1.WellFormed) ∧
      Resolution.resolve (Registry.empty.registerAll voyageDescriptions) = .ok voyageGraph ∧
      SchemaSet.build voyageGraph strictHooks [] = .ok voyageSet) ∧
    ((Document.ofJson voyage roundTripPayload).1 = .ok roundTrip ∧
      roundTrip.outcome.verdict? "ports[1].berths" = some true) ∧
    berths.Keeps (.ofInt 7) := by
  have wellFormed : ∀ call ∈ voyageDescriptions, call.1.WellFormed := by
    simp [voyageDescriptions, Json.nat, Json.int, Keyed.keys]
  have payload : roundTripPayload.WellFormed := by
    simp [roundTripPayload, Json.nat, Json.int, Keyed.keys]
  have read : (Document.ofJson voyage roundTripPayload).1 = .ok roundTrip :=
    eq_ok_of_isOk (by decide +kernel) _
  have passed : roundTrip.outcome.verdict? "ports[1].berths" = some true := by decide +kernel
  obtain ⟨_, kept⟩ := Document.bounds_kept wellFormed voyage_resolved voyageSet_built
  obtain ⟨size, measured, keeps | ⟨nan, _⟩⟩ := kept linkedVoyage (by simp [voyageGraph_schemas])
    voyage roundTripPayload roundTrip voyageSet_voyage payload read _ berths [] (.nat 7)
    voyage_declares_berths (.inr rfl) passed (.single rfl)
    (Value.eq_of_number? (by decide +kernel)) rfl
  · exact ⟨⟨wellFormed, voyage_resolved, voyageSet_built⟩, ⟨read, passed⟩,
      Option.some.inj measured ▸ keeps⟩
  · rw [nan] at measured
    exact absurd (Option.some.inj measured) (Number.ofInt_ne_nan 7)

namespace Sample

/-- A gauge whose level has a minimum that names what is not a number. -/
def gaugeDescriptions : List (Json × String) :=
  [(.object [("name", .text "Gauge"), ("version", .nat 1),
      ("fields", .object [("level", .object [("type", .text "number"), ("min", .text "nan")])])],
    "gauge.json")]

def gaugeGraph : ResolvedGraph :=
  Resolution.linkedGraph (Registry.empty.registerAll gaugeDescriptions)

def level : FieldSpec := { type := .number, min := some (.text "nan") }

def linkedGauge : SchemaDescription where
  name := "Gauge"
  version := 1
  origin := "gauge.json"
  fields := [("level", level)]

def gauge : Schema where
  name := "Gauge"
  version := 1
  fields := [{ name := "level", type := .number, min := some .nan }]

def gauges : SchemaSet := ⟨["Gauge"], [("Gauge", gauge)]⟩

def reading : Document :=
  ((Document.ofJson gauge (.object [("level", .nat 5)])).1.toOption).getD
    ⟨gauge, .empty, .unbound, .empty⟩

theorem gauge_ended : Graph.finishingOrder gaugeGraph.schemas = .ok [0] :=
  Graph.finishingOrder_of_backward (by decide)

theorem gauge_resolved :
    Resolution.resolve (Registry.empty.registerAll gaugeDescriptions) = .ok gaugeGraph :=
  Resolution.resolve_of_order rfl gauge_ended

theorem gauge_built : SchemaSet.build gaugeGraph {} [] = .ok gauges := by
  rw [SchemaSet.build_of_ended gauge_ended]
  rfl

end Sample

open Sample in
/-- The set of the gauge is made, and a level passes that its minimum is not at most.  No level at
all would be refused for this minimum. -/
theorem Document.gauge_bound_unkept :
    Resolution.resolve (Registry.empty.registerAll gaugeDescriptions) = .ok gaugeGraph ∧
    SchemaSet.build gaugeGraph {} [] = .ok gauges ∧ gauges.get? "Gauge" = some gauge ∧
    linkedGauge ∈ gaugeGraph.schemas ∧
    gaugeGraph.Declares linkedGauge [.member "level"] level ∧ level.HasBound (.text "nan") ∧
    (Document.ofJson gauge (.object [("level", .nat 5)])).1 = .ok reading ∧
    reading.outcome.verdict? "level" = some true ∧
    reading.body.get? "level" = some (.nat 5) ∧
    (∀ limit, (Bound.text "nan").value? = some limit → ¬ limit.AtMost (.ofInt 5)) ∧
    ∀ limit size : Number, (Bound.text "nan").value? = some limit → size.lt limit = false := by
  have read : (Bound.text "nan").value? = some .nan := by decide +kernel
  refine ⟨gauge_resolved, gauge_built, rfl, List.mem_cons_self,
    .own List.mem_cons_self, .inl rfl,
    eq_ok_of_isOk (by decide +kernel) _, by decide +kernel,
    Value.eq_of_number? (by decide +kernel), ?_, ?_⟩
  · intro limit same
    rw [read, Option.some.injEq] at same
    subst same
    rintro (below | equal)
    · simp [Number.lt] at below
    · simp [Number.same] at equal
  · intro limit size same
    rw [read, Option.some.injEq] at same
    exact (Number.unrelated_iff.mpr same.symm size).1

end Schemata
