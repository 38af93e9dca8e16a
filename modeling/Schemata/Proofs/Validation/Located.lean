import Mathlib.Data.List.Nodup
import Schemata.Proofs.Description.Accepted
import Schemata.Proofs.Validation.Faults
import Schemata.Proofs.Validation.FieldOrder
import Schemata.Proofs.Validation.Location
namespace Schemata

/-! Where the failures of a validation are.

Each way to examine a value finds its failures at locations of their own: those of different
items differ in an index, and those of different fields in a name (`Schema.locates`).  Their paths
are not repeated then when paths tell locations apart. -/

def Outcome.failurePaths (outcome : Outcome) : List String :=
  outcome.failures.map Failure.path

/-- The paths are the texts of locations, each of a location of its own. -/
def Located (text : Location → String) (places : Location → Prop) (paths : List String) : Prop :=
  ∃ locations : List Location, paths = locations.map text ∧ locations.Nodup ∧
    ∀ location ∈ locations, places location

namespace Located

variable {text other : Location → String} {places more : Location → Prop} {paths rest : List String}

theorem nil : Located text places [] :=
  ⟨[], rfl, .nil, by simp⟩

theorem single {location : Location} (place : places location) :
    Located text places [text location] :=
  ⟨[location], rfl, List.nodup_singleton _, by simpa using place⟩

theorem append (first : Located text places paths) (second : Located text more rest)
    (apart : ∀ location, places location → ¬ more location) :
    Located text (fun location => places location ∨ more location) (paths ++ rest) := by
  obtain ⟨locations, rfl, nodup, each⟩ := first
  obtain ⟨others, rfl, othersNodup, othersEach⟩ := second
  refine ⟨locations ++ others, List.map_append.symm, ?_, fun location member => ?_⟩
  · exact nodup.append othersNodup fun location here there =>
      apart location (each location here) (othersEach location there)
  · exact (List.mem_append.mp member).imp (each location) (othersEach location)

/-- The same paths for other locations, which they stand for as well. -/
theorem into (located : Located text places paths) {into : Location → Location}
    (injective : Function.Injective into)
    (texts : ∀ location, other (into location) = text location)
    (kept : ∀ location, places location → more (into location)) : Located other more paths := by
  obtain ⟨locations, rfl, nodup, each⟩ := located
  refine ⟨locations.map into, ?_, nodup.map injective, fun location member => ?_⟩
  · rw [List.map_map]
    exact List.map_congr_left fun location _ => (texts location).symm
  · obtain ⟨location, inside, rfl⟩ := List.mem_map.mp member
    exact kept location (each location inside)

theorem mono (located : Located text places paths)
    (kept : ∀ location, places location → more location) : Located text more paths :=
  located.into Function.injective_id (fun _ => rfl) kept

/-- Paths are mounted on a text, at the same locations. -/
theorem mounted {mount : String} (located : Located text places paths)
    (texts : ∀ location, places location → other location = mount ++ text location) :
    Located other places (paths.map (mount ++ ·)) := by
  obtain ⟨locations, rfl, nodup, each⟩ := located
  refine ⟨locations, ?_, nodup, each⟩
  rw [List.map_map]
  exact List.map_congr_left fun location member => (texts location (each location member)).symm

theorem flatMap {α : Type} {items : List α} {places : α → Location → Prop}
    {paths : α → List String} (each : ∀ item ∈ items, Located text (places item) (paths item))
    (apart : items.Pairwise fun first second =>
      ∀ location, places first location → ¬ places second location) :
    Located text (fun location => ∃ item ∈ items, places item location)
      (items.flatMap paths) := by
  induction items with
  | nil => exact .nil
  | cons item rest inductionHypothesis =>
      obtain ⟨first, later⟩ := List.pairwise_cons.mp apart
      obtain ⟨own, others⟩ := List.forall_mem_cons.mp each
      refine (own.append (inductionHypothesis others later) ?_).mono ?_
      · intro location here there
        obtain ⟨second, member, place⟩ := there
        exact first second member location here place
      · intro location found
        rcases found with here | ⟨second, member, place⟩
        · exact ⟨item, List.mem_cons_self, here⟩
        · exact ⟨second, List.mem_cons_of_mem item member, place⟩

/-- Texts that tell the locations apart are not repeated. -/
theorem nodup (located : Located text places paths) (legible : Location.Legible text places) :
    paths.Nodup := by
  obtain ⟨locations, rfl, nodup, each⟩ := located
  exact nodup.map_on fun first here second there =>
    legible first second (each first here) (each second there)

end Located

namespace Location

/-- The text of steps that lead on from a path. -/
def pathFrom (path : String) (location : Location) : String := path ++ suffix location

/-- The locations that are reached by a first step. -/
inductive Under (step : Step) (places : Location → Prop) : Location → Prop
  | intro {rest : Location} (within : places rest) : Under step places (step :: rest)

theorem Under.step_eq {first second : Step} {places more : Location → Prop} {location : Location}
    (here : Under first places location) (there : Under second more location) :
    first = second := by
  cases here
  cases there
  rfl

/-- The locations in the items from some index on. -/
def InItems (places : Location → Prop) (first : Nat) (location : Location) : Prop :=
  ∃ index, first ≤ index ∧ Under (.item index) places location

end Location

theorem Located.under {text other : Location → String} {places : Location → Prop}
    {paths : List String} (located : Located text places paths) {step : Step}
    (texts : ∀ rest, other (step :: rest) = text rest) :
    Located other (Location.Under step places) paths :=
  located.into (fun _ _ same => List.tail_eq_of_cons_eq same) texts fun _ place => .intro place

section Examinations

variable {path : String} {places : Location → Prop} {edited : Value} {part : Outcome}

theorem Outcome.Single.located (single : Outcome.Single path part) (here : places []) :
    Located (Location.pathFrom path) places part.failurePaths := by
  cases single with
  | pass => exact .nil
  | failure message =>
      have same : Location.pathFrom path [] = path := String.append_empty
      have located : Located (Location.pathFrom path) places [Location.pathFrom path []] :=
        .single here
      rwa [same] at located

/-- Items are at locations of their own, as they differ in their index. -/
theorem located_examineItems {examine : String → Value → Examined Value} {position : Nat}
    {items after : List Value} {outcome total : Outcome}
    (each : ∀ {place item edited part}, examine place item = ⟨edited, .ok part⟩ →
      Located (Location.pathFrom place) places part.failurePaths)
    (ran : examineItems examine path position items outcome = ⟨after, .ok total⟩) :
    ∃ paths, total.failurePaths = outcome.failurePaths ++ paths ∧
      Located (Location.pathFrom path) (Location.InItems places position) paths := by
  induction items generalizing position outcome after with
  | nil =>
      simp only [examineItems, Examined.mk.injEq, Except.ok.injEq] at ran
      exact ⟨[], by rw [ran.2, List.append_nil], .nil⟩
  | cons item rest inductionHypothesis =>
      obtain ⟨_, _, part, examined, rest_ran, _⟩ := examineItems_cons_ok ran
      obtain ⟨paths, total_eq, later⟩ := inductionHypothesis rest_ran
      have first : Located (Location.pathFrom path) (Location.Under (.item position) places)
          part.failurePaths :=
        (each examined).under fun rest =>
          (Location.itemPath_append_suffix path position rest).symm
      refine ⟨part.failurePaths ++ paths, ?_, (first.append later ?_).mono ?_⟩
      · rw [total_eq, Outcome.failurePaths, Outcome.failures_merge_empty, List.map_append,
          List.append_assoc]
        rfl
      · intro location here there
        obtain ⟨index, bound, inside⟩ := there
        have same := Step.item.inj (here.step_eq inside)
        omega
      · intro location found
        rcases found with here | ⟨index, bound, inside⟩
        · exact ⟨position, Nat.le_refl position, here⟩
        · exact ⟨index, Nat.le_of_succ_le bound, inside⟩

theorem located_examineArray {examine : String → Value → Examined Value} {items : List Value}
    (each : ∀ {place item edited part}, examine place item = ⟨edited, .ok part⟩ →
      Located (Location.pathFrom place) places part.failurePaths)
    (examined : examineArray examine path items = ⟨edited, .ok part⟩) :
    Located (Location.pathFrom path) (Location.InItems places 0) part.failurePaths := by
  obtain ⟨_, total, ran, _, rfl⟩ := examineArray_ok examined
  obtain ⟨paths, same, located⟩ := located_examineItems each ran
  change Located _ _ total.failurePaths
  rwa [same]

end Examinations

/-- The schema finds its failures at the locations that it reaches. -/
def Schema.Locates (schema : Schema) : Prop :=
  ∀ members body outcome, schema.validate members = ⟨body, .ok outcome⟩ →
    Located Location.path schema.Reaches outcome.failurePaths

theorem Schema.Reaches.pathFrom {schema : Schema} {location : Location}
    (reaches : schema.Reaches location) (path : String) :
    Location.pathFrom path location = s!"{path}." ++ Location.path location := by
  cases reaches with
  | member =>
      rw [Location.pathFrom, Location.suffix_member, ← String.append_assoc]
      rfl

theorem Outcome.failurePaths_mounted (path mount : String) (part : Outcome) :
    ((Outcome.empty.merge mount part).closed path).failurePaths =
      part.failurePaths.map (mount ++ ·) := by
  change (([] : List Failure) ++ part.failures.map (Failure.under mount)).map Failure.path = _
  rw [List.nil_append, List.map_map, failurePaths, List.map_map]
  rfl

namespace Field

variable {field : Field} {inner : Schema} {path : String} {value edited : Value} {part : Outcome}

theorem reaches_nil (field : Field) : field.Reaches [] := by
  cases array : field.isArray with
  | true => exact .array array
  | false => exact .single array .here

theorem reaches_of_inItems {location : Location} (array : field.isArray = true)
    (inside : Location.InItems field.Enters 0 location) : field.Reaches location := by
  obtain ⟨index, _, within⟩ := inside
  cases within with
  | intro within => exact .item array index within

theorem located_examineDocument (type : field.type = .subschema)
    (schema : field.schema = some inner) (locates : inner.Locates)
    (examined : examineDocument inner.validate path value = ⟨edited, .ok part⟩) :
    Located (Location.pathFrom path) field.Enters part.failurePaths := by
  rcases examineDocument_ok examined with
    ⟨members, body, outcome, rfl, validated, _, rfl⟩ | ⟨_, _, rfl⟩
  · rw [Outcome.failurePaths_mounted]
    exact ((locates _ _ _ validated).mounted fun location reaches => reaches.pathFrom path).mono
      fun location reaches => .document type schema reaches
  · exact (Outcome.Single.failure _).located .here

theorem located_examineNested (type : field.type = .subschema)
    (schema : field.schema = some inner) (locates : inner.Locates)
    (examined : field.examineNested inner.validate value = ⟨edited, .ok part⟩) :
    Located (Location.pathFrom field.name) field.Reaches part.failurePaths := by
  rcases FieldRule.examineNested_ok examined with
    ⟨array, items, _, each⟩ | ⟨single, _, document⟩ | ⟨_, _, _, rfl⟩
  · exact (located_examineArray (located_examineDocument type schema locates) each).mono
      fun location inside => reaches_of_inItems array inside
  · exact (located_examineDocument type schema locates document).mono
      fun location within => .single single within
  · exact (Outcome.Single.failure _).located field.reaches_nil

theorem located_examinePlain (examined : field.examinePlain value = ⟨edited, .ok part⟩) :
    Located (Location.pathFrom field.name) field.Reaches part.failurePaths := by
  rcases FieldRule.examinePlain_ok examined with
    ⟨array, items, _, each⟩ | ⟨_, _, _, rfl⟩ | ⟨_, _, judged⟩
  · have inItems : Located (Location.pathFrom field.name) (Location.InItems field.Enters 0)
        part.failurePaths := located_examineArray (fun judged =>
      (FieldRule.judge_single (congrArg Examined.verdict judged)).located .here) each
    exact inItems.mono fun location inside => reaches_of_inItems array inside
  · exact (Outcome.Single.failure _).located field.reaches_nil
  · exact (FieldRule.judge_single judged).located field.reaches_nil

theorem located_settleBy {examine : Value → Examined Value} {held after : Option Value}
    (each : ∀ {value edited part}, examine value = ⟨edited, .ok part⟩ →
      Located (Location.pathFrom field.name) field.Reaches part.failurePaths)
    (settled : field.settleBy examine held = ⟨after, .ok part⟩) :
    Located (Location.pathFrom field.name) field.Reaches part.failurePaths := by
  rcases FieldRule.settleBy_ok settled with ⟨_, _, rfl⟩ | ⟨_, _, _, _, examined, _⟩
  · exact (FieldRule.absent_single _ _).located field.reaches_nil
  · exact each examined

theorem located_settle {held after : Option Value}
    (locates : ∀ inner, field.schema = some inner → inner.Locates)
    (settled : field.settle held = ⟨after, .ok part⟩) :
    Located (Location.pathFrom field.name) field.Reaches part.failurePaths := by
  rcases FieldRule.settle_ok settled with ⟨_, type, nested, settled⟩ | ⟨_, _, settled⟩
  · obtain ⟨inner, schema, rfl⟩ := Option.map_eq_some_iff.mp nested
    exact located_settleBy (located_examineNested type schema (locates inner schema)) settled
  · exact located_settleBy located_examinePlain settled

end Field

namespace Schema

/-- No two failures of a validation are at one location. -/
theorem locates {schema : Schema} (distinct : schema.Distinct) : schema.Locates := by
  induction schema using Schema.induction with
  | step schema inductionHypothesis =>
      obtain ⟨names, inner⟩ := distinct
      intro body after outcome validated
      rw [Outcome.failurePaths, failures_validate names validated, List.map_flatMap]
      rw [Schema.validate_eq] at validated
      obtain ⟨settled, _⟩ := validateFields_parts names validated
      -- The first step names the field, so locations of different fields differ.
      have each : ∀ field ∈ storedFields schema.fields, Located Location.path
          (Location.Under (.member field.name) field.Reaches)
          (field.outcomeIn body).failurePaths := by
        intro field stored
        have declared := (mem_storedFields.mp stored).1
        have located := Field.located_settle (fun nested schema =>
          inductionHypothesis field declared nested schema
            (inner field declared nested schema)) (settled field stored)
        exact located.under fun _ => rfl
      have apart : (storedFields schema.fields).Pairwise fun first second =>
          ∀ location, Location.Under (.member first.name) first.Reaches location →
            ¬ Location.Under (.member second.name) second.Reaches location :=
        ((List.pairwise_map.mp names).filter _).imp fun distinct location here there =>
          distinct (Step.member.inj (here.step_eq there))
      simp only [Field.outcome_validate]
      refine (Located.flatMap each apart).mono fun location found => ?_
      obtain ⟨field, stored, inside⟩ := found
      obtain ⟨declared, persisted⟩ := mem_storedFields.mp stored
      cases inside with
      | intro reaches => exact .member declared persisted reaches

end Schema

namespace SchemaSet

variable {graph : ResolvedGraph} {hooks : Hooks} {upgraders : Keyed Upgrader} {set : SchemaSet}
  {name : String} {schema : Schema}

/-- Fields are told apart in all schemas of a set that is made of accepted descriptions. -/
theorem distinct_of_found (sound : graph.Sound)
    (accepted : ∀ description ∈ graph.schemas, description.Accepted)
    (built : build graph hooks upgraders = .ok set) (found : set.get? name = some schema) :
    schema.Distinct :=
  induction_of_found sound built (fun description loaded _ mirrors inner =>
    .intro (mirrors.field_names ▸ (accepted description loaded).names) inner) found

/-- Every failure of a validation is at a location of its own, so two failures have one path only
where paths do not tell the locations apart that the schema reaches.  They do where no stored field
covers the name of another. -/
theorem failures_located {calls : List (Json × String)} {body after : Members} {outcome : Outcome}
    (wellFormed : ∀ call ∈ calls, call.1.WellFormed)
    (resolved : Resolution.resolve (Registry.empty.registerAll calls) = .ok graph)
    (built : build graph hooks upgraders = .ok set) (found : set.get? name = some schema)
    (validated : schema.validate body = ⟨after, .ok outcome⟩) :
    Located Location.path schema.Reaches outcome.failurePaths ∧
    (Location.Legible Location.path schema.Reaches → outcome.failurePaths.Nodup) ∧
    (schema.Unambiguous → Location.Legible Location.path schema.Reaches) := by
  have accepted := Resolution.resolve_accepted
    (Registry.registerAll_accepted (by simp [Registry.empty]) wellFormed) resolved
  have distinct := distinct_of_found (Resolution.resolve_sound resolved) accepted built found
  have located := Schema.locates distinct body after outcome validated
  exact ⟨located, located.nodup, Schema.path_injective distinct⟩

end SchemaSet

namespace Sample

/-- One port has no berths, one is none, and one says nothing; there is no captain. -/
def strandedVoyage : Members :=
  [("ports", .array [.object [("berths", .nat 0)], .nat 3, .object []])]

theorem port_unambiguous : port.Unambiguous :=
  .intro (by decide) (by simp [port])

theorem voyage_unambiguous : voyage.Unambiguous := by
  refine .intro (by decide) fun field declared inner nested => ?_
  simp only [voyage, List.mem_cons, List.not_mem_nil, or_false] at declared
  rcases declared with rfl | rfl
  · exact Option.some.inj nested ▸ port_unambiguous
  · simp at nested

end Sample

open Sample in
theorem SchemaSet.failures_located_of_voyage :
    ((∀ call ∈ voyageDescriptions, call.1.WellFormed) ∧
      Resolution.resolve (Registry.empty.registerAll voyageDescriptions) = .ok voyageGraph ∧
      SchemaSet.build voyageGraph strictHooks [] = .ok voyageSet ∧
      voyageSet.get? "Voyage" = some voyage ∧
      voyage.validate strandedVoyage =
        ⟨(voyage.validate strandedVoyage).edited, .ok (voyage.validate strandedVoyage).outcome⟩) ∧
    (voyage.Unambiguous ∧ (voyage.validate strandedVoyage).outcome.failurePaths.Nodup) ∧
    (voyage.validate strandedVoyage).outcome.failurePaths =
      ["ports[0].berths", "ports[1]", "ports[2].berths", "captain"] := by
  have wellFormed : ∀ call ∈ voyageDescriptions, call.1.WellFormed := by
    simp [voyageDescriptions, Json.nat, Json.int, Keyed.keys]
  have validated : voyage.validate strandedVoyage = _ := Examined.eq_of_ok (by decide +kernel)
  obtain ⟨_, unrepeated, legible⟩ := SchemaSet.failures_located wellFormed voyage_resolved
    voyageSet_built voyageSet_voyage validated
  exact ⟨⟨wellFormed, voyage_resolved, voyageSet_built, voyageSet_voyage, validated⟩,
    ⟨voyage_unambiguous, unrepeated (legible voyage_unambiguous)⟩, by decide +kernel⟩

namespace Sample

/-- An envelope goes to an address, and has a field with the name that is the path of its city. -/
def envelopeDescriptions : List (Json × String) :=
  [(.object [("name", .text "Address"), ("version", .nat 1),
      ("fields", .object [("city", .text "string")])], "address.json"),
    (.object [("name", .text "Envelope"), ("version", .nat 1),
      ("fields", .object
        [("to", .object [("type", .text "subschema"), ("schema", .text "Address")]),
          ("to.city", .text "string")])], "envelope.json")]

def envelopeGraph : ResolvedGraph :=
  Resolution.linkedGraph (Registry.empty.registerAll envelopeDescriptions)

def city : Field := { name := "city", type := .string }

def destination : Schema where
  name := "Address"
  version := 1
  fields := [city]

def recipient : Field := { name := "to", type := .subschema, schema := some destination }

def recipientCity : Field := { name := "to.city", type := .string }

def envelope : Schema where
  name := "Envelope"
  version := 1
  fields := [recipient, recipientCity]

def envelopeSet : SchemaSet :=
  ⟨["Address", "Envelope"], [("Address", destination), ("Envelope", envelope)]⟩

def unaddressed : Members := [("to", .object [])]

theorem envelope_ended : Graph.finishingOrder envelopeGraph.schemas = .ok [0, 1] :=
  Graph.finishingOrder_of_backward (by decide)

theorem envelope_resolved :
    Resolution.resolve (Registry.empty.registerAll envelopeDescriptions) = .ok envelopeGraph :=
  Resolution.resolve_of_order rfl envelope_ended

theorem envelopeSet_built : SchemaSet.build envelopeGraph {} [] = .ok envelopeSet := by
  rw [SchemaSet.build_of_ended envelope_ended]
  rfl

end Sample

open Sample in
/-- The city of the address and a field that is named like its path fail under one path. -/
theorem SchemaSet.envelope_path_repeated :
    (∀ call ∈ envelopeDescriptions, call.1.WellFormed) ∧
    Resolution.resolve (Registry.empty.registerAll envelopeDescriptions) = .ok envelopeGraph ∧
    SchemaSet.build envelopeGraph {} [] = .ok envelopeSet ∧
    envelopeSet.get? "Envelope" = some envelope ∧
    (∃ outcome, envelope.validate unaddressed = ⟨unaddressed, .ok outcome⟩ ∧
      outcome.failurePaths = ["to.city", "to.city"] ∧ ¬ outcome.failurePaths.Nodup) ∧
    ¬ Location.Legible Location.path envelope.Reaches := by
  have validated : envelope.validate unaddressed = _ := Examined.eq_of_ok (by decide +kernel)
  have inside : envelope.Reaches [.member recipient.name, .member city.name] :=
    .member (by simp [envelope]) rfl
      (.single rfl (.document rfl rfl (.member List.mem_cons_self rfl (.single rfl .here))))
  have beside : envelope.Reaches [.member recipientCity.name] :=
    .member (by simp [envelope]) rfl (.single rfl .here)
  refine ⟨by simp [envelopeDescriptions, Json.nat, Json.int, Keyed.keys], envelope_resolved,
    envelopeSet_built, rfl, ⟨_, validated, by decide +kernel, by decide +kernel⟩, fun legible => ?_⟩
  exact absurd (legible _ _ inside beside (by decide +kernel)) (by decide)

end Schemata
