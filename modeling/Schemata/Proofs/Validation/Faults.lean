import Schemata.Proofs.Schema.Assembled
import Schemata.Proofs.Validation.Stopped
namespace Schemata

/-! Where the fault comes from that cuts a validation short.

What faults a whole has faulted a part of it, so every fault is that of some field: its
validator has given up, or it is to hold documents and has no schema for these
(`Schema.fault_origin`).  The second is never the case in a set that has been built, where the
schemas of all fields have been linked. -/

/-- A fault for which there is a reason in the field itself. -/
inductive Field.Faults (field : Field) : ValidationFault → Prop
  | raised {validator : Hook Validator} {value : Value} {message : String} (path : String)
      (declared : field.validator = some validator)
      (ran : validator.run value = .error message) : Faults field (.raised path message)
  | missing (type : field.type = .subschema) (schema : field.schema = none) :
      Faults field (.missingSubschema field.name)

/-- A field of the schema, or of one whose documents it holds at any depth, faults. -/
def Schema.Faults (schema : Schema) (fault : ValidationFault) : Prop :=
  ∃ holder, Relation.ReflTransGen Schema.Embeds schema holder ∧
    ∃ field ∈ holder.fields, field.Faults fault

/-- A validator of the schema, or of one whose documents it holds at any depth, gives up with
the message on some value. -/
def Schema.Raises (schema : Schema) (message : String) : Prop :=
  ∃ holder, Relation.ReflTransGen Schema.Embeds schema holder ∧
    ∃ field ∈ holder.fields, ∃ validator, field.validator = some validator ∧
      ∃ value, validator.run value = .error message

theorem Schema.Faults.of_embedded {schema inner : Schema} {fault : ValidationFault}
    (embeds : schema.Embeds inner) (faults : inner.Faults fault) : schema.Faults fault := by
  obtain ⟨holder, reached, faulty⟩ := faults
  exact ⟨holder, .head embeds reached, faulty⟩

namespace FieldRule

variable {rule : FieldRule} {path : String} {value : Value} {fault : ValidationFault}

theorem consult_fault (failed : rule.consult path value = .error fault) :
    ∃ validator message, rule.validator = some validator ∧
      validator.run value = .error message ∧ fault = .raised path message := by
  rw [consult] at failed
  cases declared : rule.validator with
  | none => simp [declared] at failed
  | some validator =>
      cases ran : validator.run value with
      | ok approved => cases approved <;> simp [declared, ran] at failed
      | error message =>
          simp only [declared, ran, Except.error.injEq] at failed
          exact ⟨validator, message, rfl, ran, failed.symm⟩

theorem judge_fault (plain : rule.type ≠ .subschema) (stored : rule.type ≠ .calculated)
    (failed : rule.judge path value = .error fault) :
    ∃ validator message, rule.validator = some validator ∧
      validator.run value = .error message ∧ fault = .raised path message := by
  rw [judge_of_fits (fits_of_fault plain stored failed)] at failed
  exact consult_fault failed

end FieldRule

/-- A stored field is faulted by what it is itself or by the schema of its documents. -/
theorem Field.settle_fault {field : Field} {held after : Option Value} {fault : ValidationFault}
    (persisted : field.isPersisted = true)
    (stopped : field.settle held = ⟨after, .error fault⟩) :
    field.Faults fault ∨ ∃ inner, field.schema = some inner ∧
      ∃ members, (inner.validate members).verdict = .error fault := by
  by_cases subschema : field.type = .subschema
  · cases nested : field.schema with
    | none =>
        simp only [settle, nested, Option.map_none, FieldRule.settle, subschema,
          Examined.mk.injEq, Except.error.injEq] at stopped
        exact .inl (stopped.2 ▸ .missing subschema nested)
    | some inner =>
        obtain ⟨_, members, _, _, _, validated, _⟩ :=
          settle_nested_stopped subschema nested stopped
        exact .inr ⟨inner, rfl, members, congrArg Examined.verdict validated⟩
  · obtain ⟨_, _, _, _, judged⟩ := settle_plain_stopped subschema persisted stopped
    obtain ⟨validator, message, declared, ran, rfl⟩ :=
      FieldRule.judge_fault subschema (of_decide_eq_true persisted) judged
    exact .inl (.raised _ declared ran)

/-- No fault is without a reason: calculated fields, which have no type to be judged by, are never
reached, and those that hold documents are judged by their schemas. -/
theorem Schema.fault_origin {schema : Schema} {body : Members} {fault : ValidationFault}
    (failed : (schema.validate body).verdict = .error fault) : schema.Faults fault := by
  induction schema using Schema.induction generalizing body with
  | step schema inductionHypothesis =>
      have stopped := Examined.eq_of_verdict failed
      rw [Schema.validate_eq] at stopped
      obtain ⟨field, middle, visits, settled⟩ := validateFields_stopped stopped
      obtain ⟨member, persisted⟩ := visits.mem
      rcases Field.settle_fault persisted settled with faults | ⟨inner, nested, members, within⟩
      · exact ⟨schema, .refl, field, member, faults⟩
      · exact .of_embedded ⟨field, member, nested⟩
          (inductionHypothesis field member inner nested within)

theorem Schema.raises_of_faults {schema : Schema} {fault : ValidationFault}
    (linked : ∀ holder, Relation.ReflTransGen Schema.Embeds schema holder →
      ∀ field ∈ holder.fields, field.type = .subschema → field.schema ≠ none)
    (faults : schema.Faults fault) :
    ∃ path message, fault = .raised path message ∧ schema.Raises message := by
  obtain ⟨holder, reached, field, member, faulty⟩ := faults
  cases faulty with
  | raised path declared ran =>
      exact ⟨path, _, rfl, holder, reached, field, member, _, declared, _, ran⟩
  | missing type schema => exact absurd schema (linked holder reached field member type)

namespace SchemaSet

variable {graph : ResolvedGraph} {hooks : Hooks} {upgraders : Keyed Upgrader} {set : SchemaSet}
  {name : String} {schema inner : Schema}

/-- The schemas that a schema of a set holds documents of have theirs in turn. -/
theorem linked_of_reached (sound : graph.Sound) (built : build graph hooks upgraders = .ok set)
    (found : set.get? name = some schema)
    (reached : Relation.ReflTransGen Schema.Embeds schema inner) {field : Field}
    (member : field ∈ inner.fields) (type : field.type = .subschema) : field.schema ≠ none := by
  have own := (mirrors_of_built sound built).own name schema inner found reached
  obtain ⟨_, description, _, mirrors⟩ := mirrors_of_found sound built own
  obtain ⟨entry, _, rule, handle⟩ := mirrors.entry member
  intro missing
  rw [missing] at handle
  cases handle with
  | plain plain => exact plain (rule.type.symm.trans type)

/-- Only a validator can cut a validation short, in a set that is made of a resolved graph
and at any depth of its schemas; where none gives up, every validation has an outcome. -/
theorem validate_fault_is_raised {calls : List (Json × String)}
    (resolved : Resolution.resolve (Registry.empty.registerAll calls) = .ok graph)
    (built : build graph hooks upgraders = .ok set) (found : set.get? name = some schema)
    (reached : Relation.ReflTransGen Schema.Embeds schema inner) :
    (∀ body, (∃ outcome, (inner.validate body).verdict = .ok outcome) ∨
      ∃ path message, (inner.validate body).verdict = .error (.raised path message) ∧
        inner.Raises message) ∧
    ((∀ message, ¬ inner.Raises message) →
      ∀ body, ∃ outcome, (inner.validate body).verdict = .ok outcome) := by
  have sound := Resolution.resolve_sound resolved
  have ends : ∀ body, (∃ outcome, (inner.validate body).verdict = .ok outcome) ∨
      ∃ path message, (inner.validate body).verdict = .error (.raised path message) ∧
        inner.Raises message := by
    intro body
    cases verdict : (inner.validate body).verdict with
    | ok outcome => exact .inl ⟨outcome, rfl⟩
    | error fault =>
        obtain ⟨path, message, rfl, raises⟩ := Schema.raises_of_faults
          (fun holder deeper field member => linked_of_reached sound built found
            (reached.trans deeper) member) (Schema.fault_origin verdict)
        exact .inr ⟨path, message, rfl, raises⟩
  refine ⟨ends, fun quiet body => ?_⟩
  rcases ends body with answered | ⟨_, message, _, raises⟩
  · exact answered
  · exact absurd raises (quiet message)

end SchemaSet

namespace Sample

/-- Voyages call at ports, whose number of berths has a bound that is a text, and have a
captain that must be known. -/
def voyageDescriptions : List (Json × String) :=
  [(.object [("name", .text "Voyage"), ("version", .nat 2),
      ("fields", .object
        [("ports", .array [.object [("type", .text "subschema"), ("schema", .text "Port")]]),
          ("captain", .object [("type", .text "string"), ("validate", .text "known")])])],
      "voyage.json"),
    (.object [("name", .text "Port"), ("version", .nat 1),
      ("fields", .object
        [("berths", .object [("type", .text "number"), ("min", .text " 1 ")])])], "port.json")]

def voyageGraph : ResolvedGraph :=
  Resolution.linkedGraph (Registry.empty.registerAll voyageDescriptions)

theorem voyage_ended : Graph.finishingOrder voyageGraph.schemas = .ok [1, 0] := by
  have size : voyageGraph.schemas.length = 2 := by decide +kernel
  have first : references voyageGraph.schemas 0 = [("ports", 1)] := rfl
  have second : references voyageGraph.schemas 1 = [] := rfl
  rw [Graph.finishingOrder, size]
  simp [List.range_succ, Graph.finishFrom, first, second, Graph.follow]

theorem voyage_resolved :
    Resolution.resolve (Registry.empty.registerAll voyageDescriptions) = .ok voyageGraph :=
  Resolution.resolve_of_order rfl voyage_ended

/-- A captain must have a name; the validator gives up when there is none. -/
def strictHooks : Hooks :=
  Hooks.addValidator {} "known" fun value =>
    if value.text? = some "" then .error "a name is empty" else .ok true

def port : Schema where
  name := "Port"
  version := 1
  fields := [{ name := "berths", type := .number, min := some (.ofInt 1) }]

def voyage : Schema where
  name := "Voyage"
  version := 2
  fields :=
    [{ name := "ports", type := .subschema, isArray := true, schema := some port },
      { name := "captain", type := .string, validator := strictHooks.validator? "known" }]

def unmanned : Members :=
  [("captain", .text ""), ("ports", .array [.object [("berths", .nat 3)]])]

def voyageSet : SchemaSet := ⟨["Voyage", "Port"], [("Port", port), ("Voyage", voyage)]⟩

theorem voyageSet_built : SchemaSet.build voyageGraph strictHooks [] = .ok voyageSet := by
  rw [SchemaSet.build_of_ended voyage_ended]
  rfl

theorem voyageSet_voyage : voyageSet.get? "Voyage" = some voyage := rfl

theorem voyage_embeds_port : voyage.Embeds port :=
  ⟨_, List.mem_cons_self, rfl⟩

theorem port_quiet (message : String) : ¬ port.Raises message := by
  intro ⟨holder, reached, field, member, validator, declared, _⟩
  have alone : holder = port := by
    rcases reached.cases_head with same | ⟨inner, ⟨berths, inside, nested⟩, _⟩
    · exact same.symm
    · rw [List.mem_singleton.mp inside] at nested
      simp at nested
  rw [alone] at member
  rw [List.mem_singleton.mp member] at declared
  simp at declared

end Sample

open Sample in
theorem SchemaSet.validate_fault_is_raised_of_voyage :
    Resolution.resolve (Registry.empty.registerAll voyageDescriptions) = .ok voyageGraph ∧
    ((voyage.validate unmanned).verdict = .error (.raised "captain" "a name is empty") ∧
      voyage.Raises "a name is empty") ∧
    (voyage.Embeds port ∧ ∀ body, ∃ outcome, (port.validate body).verdict = .ok outcome) := by
  obtain ⟨ends, _⟩ :=
    SchemaSet.validate_fault_is_raised voyage_resolved voyageSet_built voyageSet_voyage .refl
  obtain ⟨_, always⟩ :=
    SchemaSet.validate_fault_is_raised voyage_resolved voyageSet_built voyageSet_voyage
      (.single voyage_embeds_port)
  have failed : (voyage.validate unmanned).verdict =
      .error (.raised "captain" "a name is empty") := by decide +kernel
  refine ⟨voyage_resolved, ⟨failed, ?_⟩, voyage_embeds_port, always port_quiet⟩
  rcases ends unmanned with ⟨outcome, answered⟩ | ⟨path, message, raised, raises⟩
  · simp [failed] at answered
  · rw [failed, Except.error.injEq, ValidationFault.raised.injEq] at raised
    exact raised.2 ▸ raises

end Schemata
