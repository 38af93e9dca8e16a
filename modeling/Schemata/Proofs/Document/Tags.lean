import Schemata.Proofs.Document.Versions
import Schemata.Proofs.Schema.Assembled
import Schemata.Proofs.Schema.Built
namespace Schemata

/-! The tags of a document while it is changed.

A document has both tags when it is obtained.  Validation leaves them alone: the doctype is
the name of no field, and no field changes a number, which the version is.  Assignments
write under the names of fields only, so the doctype stays for good, and the version as
long as no field of its name is assigned (`Document.run_tags`). -/

theorem SchemaSet.untagged_of_found {graph : ResolvedGraph} {hooks : Hooks}
    {upgraders : Keyed Upgrader} {set : SchemaSet} {name : String} {schema : Schema}
    (sound : graph.Sound) (built : build graph hooks upgraders = .ok set)
    (found : set.get? name = some schema) : ∀ field ∈ schema.fields, field.name ≠ doctypeKey := by
  obtain ⟨_, description, loaded, mirrors⟩ := mirrors_of_found sound built found
  intro field member same
  obtain ⟨entry, declared, rule, _⟩ := mirrors.entry member
  have named : field.name = entry.1 := rule.name
  have allowed := sound.allowed description loaded entry declared
  rw [← named, same] at allowed
  exact doctypeKey_refused allowed

namespace DocumentState

variable {schema : Schema} {body bound : Body}

theorem stamped_ok (ran : stamped schema body = .ok bound) : Stamped schema body bound := by
  rw [stamped] at ran
  cases tagged : withDoctype schema body with
  | error error => simp [tagged, Except.map] at ran
  | ok next =>
      rw [tagged] at ran
      exact Except.ok.inj ran ▸ stamped_of_withDoctype tagged

/-- Whatever is bound carries both tags, and else the members of the body as it is now. -/
theorem stamped_of_bind {state after : DocumentState}
    (ran : (state.bind schema body).1 = .ok (bound, after)) :
    after = versioned schema.version ∧
      ∃ next notices, current schema body = .ok (next, notices) ∧ Stamped schema next bound := by
  rw [bind_fst] at ran
  cases read : current schema body with
  | error error => simp [read, Except.bind] at ran
  | ok answer =>
      rw [read] at ran
      cases given : stamped schema answer.1 with
      | error error => simp [given, Except.bind, Except.map] at ran
      | ok held =>
          simp only [given, Except.bind, Except.map, Except.ok.injEq, Prod.mk.injEq] at ran
          obtain ⟨rfl, rfl⟩ := ran
          exact ⟨rfl, answer.1, answer.2, rfl, stamped_ok given⟩

end DocumentState

namespace Document

/-- A document of a schema, from any of the places that documents come from. -/
inductive Obtained (schema : Schema) (document : Document) : Prop
  | new (made : (Document.new schema).1 = .ok document)
  | load (body : Body) (loaded : (Document.load schema body).1 = .ok document)
  | ofJson (payload : Json) (read : (Document.ofJson schema payload).1 = .ok document)
  | fetch {σ : Type} [DocumentStore σ] (store : σ) (id : String)
      (fetched : (Document.fetch store schema id).1 = .ok (some document))

inductive Call where
  | set (name : String) (value : Option Value)
  | validate

/-- The document after a call, which may have failed. -/
def after (document : Document) : Call → Document
  | .set name value => (document.set name value).toOption.getD document
  | .validate => document.revalidate.1

def run (document : Document) (calls : List Call) : Document := calls.foldl after document

/-- The call writes under a key, since there is a field of that name that can be assigned. -/
def Call.Assigns (schema : Schema) (key : String) : Call → Prop
  | .set name _ => name = key ∧ ∃ field, schema.field? key = some field ∧ field.isPersisted = true
  | .validate => False

/-- What no call changes. -/
structure Tagged (schema : Schema) (document : Document) : Prop where
  governed : document.schema = schema
  state : document.state = .versioned schema.version
  doctype : document.body.get? doctypeKey = some (.text schema.doctype)

def Versioned (schema : Schema) (document : Document) : Prop :=
  document.body.get? versionKey = some (.nat schema.version)

variable {schema : Schema} {document changed : Document} {name : String} {value : Option Value}

section Obtained

theorem loaded_of_ofJson {payload : Json}
    (read : (Document.ofJson schema payload).1 = .ok document) :
    ∃ members, payload = .object members ∧
      (Document.load schema (Body.ofJson members)).1 = .ok document := by
  cases payload with
  | object members => exact ⟨members, rfl, read⟩
  | _ => simp [Document.ofJson] at read

theorem Obtained.loaded (obtained : document.Obtained schema) :
    ∃ body, (Document.load schema body).1 = .ok document := by
  have ofJson : ∀ {payload}, (Document.ofJson schema payload).1 = .ok document →
      ∃ body, (Document.load schema body).1 = .ok document := by
    intro payload read
    obtain ⟨members, _, loaded⟩ := loaded_of_ofJson read
    exact ⟨Body.ofJson members, loaded⟩
  cases obtained with
  | new made => exact ⟨_, made⟩
  | load body loaded => exact ⟨body, loaded⟩
  | ofJson payload read => exact ofJson read
  | fetch store id fetched =>
      rw [Document.fetch] at fetched
      cases held : DocumentStore.get store id with
      | error error => simp [held] at fetched
      | ok payload =>
          cases payload with
          | none => simp [held] at fetched
          | some payload =>
              cases read : (Document.ofJson schema payload).1 with
              | error error => simp [held, read, Except.map] at fetched
              | ok document =>
                  simp only [held, read, Except.map, Except.ok.injEq, Option.some.injEq] at fetched
                  exact ofJson (fetched ▸ read)

theorem load_ok {body : Body} (loaded : (load schema body).1 = .ok document) :
    document.schema = schema ∧ ∃ bound,
      (DocumentState.unbound.bind schema body).1 = .ok (bound, document.state) ∧
      schema.validateBody bound = ⟨document.body, .ok document.outcome⟩ := by
  cases bind : (DocumentState.unbound.bind schema body).1 with
  | error error => simp [load, bind, Except.bind] at loaded
  | ok answer =>
      obtain ⟨bound, state⟩ := answer
      simp only [load, bind, Except.bind, ofBound] at loaded
      split at loaded
      · rename_i outcome verdict
        obtain rfl := Except.ok.inj loaded
        exact ⟨rfl, bound, rfl, by rw [← verdict]⟩
      · simp at loaded

/-- Validation changes neither tag. -/
theorem validate_tags (body : Body) (untagged : ∀ field ∈ schema.fields, field.name ≠ doctypeKey) :
    (schema.validateBody body).edited.get? doctypeKey = body.get? doctypeKey ∧
      ∀ number, body.get? versionKey = some (.number number) →
        (schema.validateBody body).edited.get? versionKey = some (.number number) := by
  rw [Schema.get?_validateBody, Schema.get?_validateBody]
  exact ⟨get?_edited_validateFields rfl
      (fun field member named => absurd named (untagged field member)) _,
    fun number found => get?_edited_validateFields found
      (fun field _ _ => field.edited_settle_number number) _⟩

theorem Obtained.tagged (obtained : document.Obtained schema)
    (untagged : ∀ field ∈ schema.fields, field.name ≠ doctypeKey) :
    document.Tagged schema ∧ document.Versioned schema := by
  obtain ⟨body, loaded⟩ := obtained.loaded
  obtain ⟨same, bound, ran, validated⟩ := load_ok loaded
  obtain ⟨state, next, _, _, stamped⟩ := DocumentState.stamped_of_bind ran
  obtain ⟨doctype, version⟩ := validate_tags bound untagged
  rw [validated] at doctype version
  exact ⟨⟨same, state, doctype.trans stamped.doctype⟩, version _ stamped.version⟩

end Obtained

section Calls

theorem set_ok (ran : document.set name value = .ok changed) :
    ∃ field, document.schema.field? name = some field ∧ field.name = name ∧
      field.isPersisted = true ∧
      changed = { document with body := assigned document.body field.toFieldRule value } := by
  rw [set] at ran
  split at ran
  · simp at ran
  · rename_i field found
    split at ran
    · rename_i persisted
      have named : field.name = name := by simpa using List.find?_some found
      exact ⟨field, found, named, persisted, (Except.ok.inj ran).symm⟩
    · simp at ran

theorem get?_assigned_of_ne {body : Body} {rule : FieldRule} {key : String}
    (other : rule.name ≠ key) : (assigned body rule value).get? key = body.get? key := by
  cases value with
  | none => exact Table.get?_erase_of_ne body other
  | some value => exact Table.get?_insert_of_ne body _ other

theorem get?_assigned_self (body : Body) (rule : FieldRule) (value : Option Value) :
    (assigned body rule value).get? rule.name = value.map (formatted rule) := by
  cases value with
  | none => exact Table.get?_erase_self body rule.name
  | some value => exact Table.get?_insert_self body rule.name _

theorem after_set (document : Document) (name : String) (value : Option Value) :
    document.after (.set name value) = document ∨
      ∃ field, document.schema.field? name = some field ∧ field.name = name ∧
        field.isPersisted = true ∧ document.after (.set name value) =
          { document with body := assigned document.body field.toFieldRule value } := by
  rw [after]
  cases ran : document.set name value with
  | error error => exact .inl rfl
  | ok changed => exact .inr (set_ok ran)

theorem revalidate_fst (document : Document) :
    document.revalidate.1.schema = document.schema ∧
      document.revalidate.1.state = document.state ∧
      document.revalidate.1.body = (document.schema.validateBody document.body).edited := by
  rw [revalidate]
  split <;> exact ⟨rfl, rfl, rfl⟩

theorem Tagged.after (tagged : document.Tagged schema)
    (untagged : ∀ field ∈ schema.fields, field.name ≠ doctypeKey) (call : Call) :
    (document.after call).Tagged schema := by
  cases call with
  | set name value =>
      rcases document.after_set name value with kept | ⟨field, found, named, _, changed⟩
      · rw [kept]
        exact tagged
      · have declared : field ∈ schema.fields := by
          rw [tagged.governed] at found
          exact List.mem_of_find?_eq_some found
        rw [changed]
        refine ⟨tagged.governed, tagged.state, ?_⟩
        rw [get?_assigned_of_ne (untagged field declared), tagged.doctype]
  | validate =>
      obtain ⟨same, state, body⟩ := document.revalidate_fst
      refine ⟨same.trans tagged.governed, state.trans tagged.state, ?_⟩
      rw [Document.after, body, tagged.governed, (validate_tags _ untagged).1, tagged.doctype]

theorem Versioned.after (versioned : document.Versioned schema) (tagged : document.Tagged schema)
    (untagged : ∀ field ∈ schema.fields, field.name ≠ doctypeKey) {call : Call}
    (unassigned : ¬ call.Assigns schema versionKey) : (document.after call).Versioned schema := by
  cases call with
  | set name value =>
      rcases document.after_set name value with kept | ⟨field, found, named, persisted, changed⟩
      · rw [kept]
        exact versioned
      · have other : field.name ≠ versionKey := by
          intro same
          rw [named.symm.trans same, tagged.governed] at found
          exact unassigned ⟨named.symm.trans same, field, found, persisted⟩
        rw [Versioned, changed]
        exact (get?_assigned_of_ne other).trans versioned
  | validate =>
      obtain ⟨_, _, body⟩ := document.revalidate_fst
      rw [Versioned, Document.after, body, tagged.governed]
      exact (validate_tags _ untagged).2 _ versioned

theorem Tagged.run (tagged : document.Tagged schema)
    (untagged : ∀ field ∈ schema.fields, field.name ≠ doctypeKey) (calls : List Call) :
    (document.run calls).Tagged schema := by
  induction calls generalizing document with
  | nil => exact tagged
  | cons call rest inductionHypothesis => exact inductionHypothesis (tagged.after untagged call)

theorem Versioned.run (versioned : document.Versioned schema) (tagged : document.Tagged schema)
    (untagged : ∀ field ∈ schema.fields, field.name ≠ doctypeKey) {calls : List Call}
    (unassigned : ∀ call ∈ calls, ¬ call.Assigns schema versionKey) :
    (document.run calls).Versioned schema := by
  induction calls generalizing document with
  | nil => exact versioned
  | cons call rest inductionHypothesis =>
      obtain ⟨first, later⟩ := List.forall_mem_cons.mp unassigned
      exact inductionHypothesis (versioned.after tagged untagged first)
        (tagged.after untagged call) later

/-- An assignment to a field of the name of the version writes over the version. -/
theorem Tagged.version_assigned (tagged : document.Tagged schema) {field : Field}
    (found : schema.field? versionKey = some field) (persisted : field.isPersisted = true)
    (value : Option Value) :
    (document.after (.set versionKey value)).body.get? versionKey =
      value.map (formatted field.toFieldRule) := by
  have named : field.name = versionKey := by simpa using List.find?_some found
  rw [Document.after, set, tagged.governed, found]
  simp only [persisted, ↓reduceIte, Except.toOption, Option.getD_some]
  rw [← named, get?_assigned_self]

end Calls

/-- A document of a set, wherever it comes from, keeps its state and its doctype whatever
is assigned and however often it is validated, and its version too, unless the version is
assigned: where a field has that name, an assignment writes over it. -/
theorem run_tags {calls : List (Json × String)} {graph : ResolvedGraph} {hooks : Hooks}
    {upgraders : Keyed Upgrader} {set : SchemaSet}
    (resolved : Resolution.resolve (Registry.empty.registerAll calls) = .ok graph)
    (built : SchemaSet.build graph hooks upgraders = .ok set)
    (found : set.get? name = some schema) (obtained : document.Obtained schema)
    (changes : List Call) :
    (document.run changes).Tagged schema ∧
    ((∀ change ∈ changes, ¬ change.Assigns schema versionKey) →
      (document.run changes).Versioned schema) ∧
    ∀ field, schema.field? versionKey = some field → field.isPersisted = true → ∀ value,
      (document.run (changes ++ [.set versionKey value])).body.get? versionKey =
        value.map (formatted field.toFieldRule) := by
  have untagged := SchemaSet.untagged_of_found (Resolution.resolve_sound resolved) built found
  obtain ⟨tagged, versioned⟩ := obtained.tagged untagged
  refine ⟨tagged.run untagged changes, versioned.run tagged untagged, ?_⟩
  intro field declared persisted value
  rw [run, List.foldl_append]
  exact (tagged.run untagged changes).version_assigned declared persisted value

end Document

namespace Sample

/-- The version of a ship is a field of it as well. -/
def shipDescriptions : List (Json × String) :=
  [(.object [("name", .text "Ship"), ("version", .nat 3),
      ("fields", .object [("schema_version__", .text "number"),
        ("flag", .object [("type", .text "string"), ("default", .text "none")])])], "ship.json")]

def shipGraph : ResolvedGraph :=
  Resolution.linkedGraph (Registry.empty.registerAll shipDescriptions)

def ship : Schema where
  name := "Ship"
  version := 3
  fields := [{ name := versionKey, type := .number },
    { name := "flag", type := .string, default := some (.text "none") }]

def shipSchemas : SchemaSet := ⟨["Ship"], [("Ship", ship)]⟩

/-- The ship that has been launched: nothing but defaults. -/
def launched : Document :=
  ((Document.new ship).1.toOption).getD ⟨ship, .empty, .unbound, .empty⟩

/-- Assignments that succeed and fail, and a validation. -/
def refitted : List Document.Call :=
  [.set "flag" (some (.bool true)), .set "mast" none, .validate]

theorem ship_ended : Graph.finishingOrder shipGraph.schemas = .ok [0] :=
  Graph.finishingOrder_of_backward (by decide)

theorem ship_resolved :
    Resolution.resolve (Registry.empty.registerAll shipDescriptions) = .ok shipGraph :=
  Resolution.resolve_of_order rfl ship_ended

theorem ship_built : SchemaSet.build shipGraph {} [] = .ok shipSchemas := by
  rw [SchemaSet.build_of_ended ship_ended]
  rfl

theorem launched_new : (Document.new ship).1 = .ok launched :=
  eq_ok_of_isOk (by decide +kernel) _

end Sample

open Sample in
theorem Document.run_tags_of_ship :
    (Resolution.resolve (Registry.empty.registerAll shipDescriptions) = .ok shipGraph ∧
      SchemaSet.build shipGraph {} [] = .ok shipSchemas ∧ shipSchemas.get? "Ship" = some ship ∧
      launched.Obtained ship ∧ ∀ change ∈ refitted, ¬ change.Assigns ship versionKey) ∧
    (launched.run refitted).Tagged ship ∧ (launched.run refitted).Versioned ship := by
  have found : shipSchemas.get? "Ship" = some ship := rfl
  have obtained : launched.Obtained ship := .new launched_new
  have elsewhere : ∀ change ∈ refitted, ¬ change.Assigns ship versionKey := by
    simp [refitted, Call.Assigns, versionKey]
  obtain ⟨tagged, versioned, _⟩ := run_tags ship_resolved ship_built found obtained refitted
  exact ⟨⟨ship_resolved, ship_built, found, obtained, elsewhere⟩, tagged, versioned elsewhere⟩

open Sample in
/-- The version of a ship is assigned, and what is saved of the ship is refused. -/
theorem Document.ship_version_assigned :
    Resolution.resolve (Registry.empty.registerAll shipDescriptions) = .ok shipGraph ∧
    SchemaSet.build shipGraph {} [] = .ok shipSchemas ∧ shipSchemas.get? "Ship" = some ship ∧
    launched.Obtained ship ∧ ship.version = 3 ∧
    (launched.run [.set versionKey (some (.nat 7))]).body.get? versionKey =
      some (.nat 7) ∧
    (Document.ofJson ship (launched.run [.set versionKey (some (.nat 7))]).toJson).1 =
      .error (.futureVersion "Ship" 7 3) := by
  have untagged := SchemaSet.untagged_of_found (Resolution.resolve_sound ship_resolved) ship_built
    (rfl : shipSchemas.get? "Ship" = some ship)
  have obtained : launched.Obtained ship := .new launched_new
  refine ⟨ship_resolved, ship_built, rfl, obtained, rfl, ?_, ?_⟩
  · exact (obtained.tagged untagged).1.version_assigned rfl rfl (some (.nat 7))
  · have refused : (Document.ofJson ship
        (launched.run [.set versionKey (some (.nat 7))]).toJson).1.map (fun _ => ()) =
          .error (.futureVersion "Ship" 7 3) := by decide +kernel
    cases read : (Document.ofJson ship
        (launched.run [.set versionKey (some (.nat 7))]).toJson).1 with
    | ok document => simp [read, Except.map] at refused
    | error error => simpa [read, Except.map] using refused

end Schemata
