import Schemata.Proofs.Document.Tags
namespace Schemata

/-! A document that is saved and fetched again.

What is stored is the body without its calculated members.  Fetching reads it, binds it and
validates it: the tags are there already, so binding changes nothing, and the validation
makes of each value what `Value.recalled` says. -/

theorem Value.Plain.insert {body : Body} {key : String} {value : Value}
    (plain : body.value.Plain) (added : value.Plain) :
    Plain (.object (body.insert key value).entries) := by
  refine Plain.object_of_get? (body.insert key value).ordered ?_
  intro other held found
  rw [Table.get?_entries] at found
  by_cases same : key = other
  · subst same
    rw [Table.get?_insert_self, Option.some.injEq] at found
    exact found ▸ added
  · rw [Table.get?_insert_of_ne body value same] at found
    exact plain.of_get? found

theorem Schema.field?_of_mem {schema : Schema} {field : Field}
    (names : (schema.fields.map fun field => field.name).Nodup) (member : field ∈ schema.fields) :
    schema.field? field.name = some field := by
  rw [field?]
  generalize schema.fields = fields at names member
  induction fields with
  | nil => simp at member
  | cons first rest inductionHypothesis =>
      obtain ⟨apart, names⟩ := nodup_names_cons names
      rcases List.mem_cons.mp member with rfl | later
      · simp
      · rw [List.find?_cons_of_neg (by simpa using apart field later)]
        exact inductionHypothesis names later

namespace Document

variable {schema : Schema} {document : Document}

/-- Loading a payload has bound a plain body, which carries both tags, and validated it. -/
theorem ofJson_ok {payload : Json} (dormant : schema.Dormant) (wellFormed : payload.WellFormed)
    (loaded : (ofJson schema payload).1 = .ok document) :
    document.schema = schema ∧ ∃ before : Body, before.value.Plain ∧
      before.get? doctypeKey = some (.text schema.doctype) ∧
      before.get? versionKey = some (.nat schema.version) ∧
      schema.validateBody before = ⟨document.body, .ok document.outcome⟩ := by
  obtain ⟨members, rfl, loaded⟩ := loaded_of_ofJson loaded
  have plain : (Body.ofJson members).value.Plain := wellFormed.plain
  obtain ⟨same, _, bound, validated⟩ := load_ok loaded
  obtain ⟨tagged, ran, rfl⟩ := DocumentState.bind_ok dormant.upgrader bound
  obtain ⟨tag, shape⟩ := DocumentState.withDoctype_ok ran
  have plainTagged : tagged.value.Plain := by
    rcases shape with rfl | rfl
    · exact plain
    · exact plain.insert (.text _)
  refine ⟨same, _, plainTagged.insert (Value.plain_version dormant.version_lt), ?_,
    Table.get?_insert_self _ _ _, validated⟩
  rw [Table.get?_insert_of_ne _ _ (by decide), tag]

theorem tags_of_loaded {before : Body} (dormant : schema.Dormant)
    (tag : before.get? doctypeKey = some (.text schema.doctype))
    (version : before.get? versionKey = some (.nat schema.version))
    (validated : schema.validateBody before = ⟨document.body, .ok document.outcome⟩) :
    document.body.get? doctypeKey = some (.text schema.doctype) ∧
      document.body.get? versionKey = some (.nat schema.version) := by
  obtain ⟨kept, number⟩ := validate_tags before dormant.untagged
  rw [validated] at kept number
  exact ⟨kept.trans tag, number _ version⟩

theorem get?_stored (document : Document) (key : String) :
    document.stored.get? key =
      if isStored document.schema key then document.body.get? key else none :=
  Table.get?_filter (isStored document.schema) document.body key

/-- What is stored of a document is read back as a body of stored values. -/
theorem toJson_members (document : Document) :
    ∃ members, document.toJson = .object members ∧
      Body.ofJson members = document.stored.mapValues Value.stored := by
  have read : Value.ofJson document.toJson =
      .object (document.stored.mapValues Value.stored).entries :=
    Value.stored_object document.stored.ordered
  rw [toJson, Value.toJson_object] at read ⊢
  exact ⟨_, rfl, Table.eq_of_entries (Value.object.inj read)⟩

theorem ofJson_toJson (schema : Schema) (document : Document) :
    ofJson schema document.toJson = load schema (document.stored.mapValues Value.stored) := by
  obtain ⟨members, object, body⟩ := document.toJson_members
  rw [object, ofJson, body]

theorem isStored_of_mem {field : Field} (dormant : schema.Dormant)
    (member : field ∈ storedFields schema.fields) : isStored schema field.name = true := by
  obtain ⟨declared, persisted⟩ := mem_storedFields.mp member
  rw [isStored, Schema.field?_of_mem dormant.inert.names declared]
  exact persisted

theorem isStored_doctypeKey (untagged : ∀ field ∈ schema.fields, field.name ≠ doctypeKey) :
    isStored schema doctypeKey = true := by
  have undeclared : schema.field? doctypeKey = none :=
    List.find?_eq_none.mpr fun field member => by simpa using untagged field member
  rw [isStored, undeclared]
  rfl

theorem get?_read (same : document.schema = schema) {key : String}
    (shown : isStored schema key = true) :
    (document.stored.mapValues Value.stored).get? key =
      (document.body.get? key).map Value.stored := by
  rw [Table.get?_mapValues, get?_stored, same, if_pos shown]

/-- A stored body lacks no tag but the version, and that only where it is calculated. -/
theorem bind_stored (dormant : schema.Dormant) (same : document.schema = schema)
    (tag : document.body.get? doctypeKey = some (.text schema.doctype))
    (version : document.body.get? versionKey = some (.nat schema.version)) :
    DocumentState.unbound.bind schema (document.stored.mapValues Value.stored) =
      (.ok ((document.stored.mapValues Value.stored).insert versionKey
        (.nat schema.version), .versioned schema.version), []) := by
  have tagged : (document.stored.mapValues Value.stored).get? doctypeKey =
      some (.text schema.doctype) := by
    rw [get?_read same (isStored_doctypeKey dormant.untagged), tag]
    rfl
  cases shown : isStored schema versionKey with
  | true =>
      have found : DocumentState.foundVersion (document.stored.mapValues Value.stored) =
          .ok (some schema.version) := by
        refine DocumentState.foundVersion_of_version dormant.version_lt ?_
        rw [get?_read same shown, version, Option.map_some,
          Value.stored_version dormant.version_lt]
      exact DocumentState.bind_of_tags dormant.upgrader found tagged (by simp)
  | false =>
      have found : DocumentState.foundVersion (document.stored.mapValues Value.stored) =
          .ok none := by
        rw [DocumentState.foundVersion, Table.get?_mapValues, get?_stored, same, shown]
        rfl
      exact DocumentState.bind_of_tags dormant.upgrader found tagged (by simp)

/-- A valid document that has been loaded from JSON is loaded again from what is stored of
it.  All values come back, and the document is valid exactly as far as its instants have
years of four digits. -/
theorem reload {payload : Json} (dormant : schema.Dormant) (wellFormed : payload.WellFormed)
    (loaded : (ofJson schema payload).1 = .ok document) (valid : document.isValid = true) :
    document.stored.value.Sound ∧ ∃ reloaded,
      ofJson schema document.toJson = (.ok reloaded, []) ∧
      reloaded.stored = document.stored.mapValues Value.recalled ∧
      (reloaded.isValid = true ↔ document.stored.value.timely = true) := by
  obtain ⟨same, before, plain, tag, version, validated⟩ := ofJson_ok dormant wellFormed loaded
  obtain ⟨tag, version⟩ := tags_of_loaded dormant tag version validated
  have ran := Schema.validateBody_eq_iff.mp validated
  rw [Schema.validate_eq] at ran
  have names := dormant.inert.names
  have each := dormant.inert.fields_reload
  have sound := validateFields_sound names each plain ran valid
  have soundStored : document.stored.value.Sound := by
    refine Value.Sound.object_of_get? document.stored.ordered fun key value found => ?_
    rw [Table.get?_entries, get?_stored] at found
    split at found
    · exact sound.of_get? found
    · simp at found
  have found : ∀ key, isStored schema key = true →
      ((document.stored.mapValues Value.stored).insert versionKey (.nat schema.version)).get? key =
        (document.body.get? key).map Value.stored := by
    intro key shown
    by_cases tagged : versionKey = key
    · subst tagged
      rw [Table.get?_insert_self, version, Option.map_some,
        Value.stored_version dormant.version_lt]
    · rw [Table.get?_insert_of_ne _ _ tagged, get?_read same shown]
  obtain ⟨after, again, ranAgain, ordered, recalled, timely⟩ :=
    validateFields_reload names each plain ran valid (isStored schema)
      (Table.ordered _) (fun field => isStored_of_mem dormant) found
  rw [← Schema.validate_eq] at ranAgain
  refine ⟨soundStored, ⟨schema, ⟨after, ordered⟩, .versioned schema.version, again⟩, ?_, ?_, ?_⟩
  · have revalidated : schema.validateBody _ = ⟨⟨after, ordered⟩, .ok again⟩ :=
      Schema.validateBody_eq_iff.mpr ranAgain
    rw [ofJson_toJson, load, bind_stored dormant same tag version]
    simp only [Except.bind, ofBound, revalidated]
  · refine Table.ext fun key => ?_
    rw [get?_stored, Table.get?_mapValues, get?_stored, same]
    cases shown : isStored schema key with
    | true =>
        simp only [↓reduceIte]
        exact recalled key shown
    | false => rfl
  · rw [isValid, timely, Value.timely_object_iff document.stored.ordered]
    refine forall₂_congr fun key value => ?_
    rw [Table.get?_entries, Table.get?_entries, get?_stored, same]
    cases isStored schema key <;> simp

/-- A valid document that has been loaded from JSON is saved and fetched again as it is.
Its schema is one of a set that is built without upgraders from registered descriptions
that name no validators.  The payload is the same, and all values come back up to the
milliseconds of their instants, but for instants whose year has not four digits: of these a
text comes back, so exactly the documents without any are valid again. -/
theorem fetch_save {calls : List (Json × String)} {graph : ResolvedGraph} {hooks : Hooks}
    {set : SchemaSet} {name : String} {payload : Json}
    (descriptions : ∀ call ∈ calls, call.1.WellFormed)
    (resolved : Resolution.resolve (Registry.empty.registerAll calls) = .ok graph)
    (unchecked : ∀ description ∈ graph.schemas, description.Unchecked)
    (built : SchemaSet.build graph hooks [] = .ok set) (found : set.get? name = some schema)
    (wellFormed : payload.WellFormed) (loaded : (ofJson schema payload).1 = .ok document)
    (valid : document.isValid = true) (store : MemoryStore) (id : String) :
    ∃ kept reloaded, document.save store id = .ok kept ∧
      fetch kept schema id = (.ok (some reloaded), []) ∧
      reloaded.toJson = document.toJson ∧
      (reloaded.isValid = true ↔ document.stored.value.timely = true) ∧
      document.stored.value.truncated.same reloaded.stored.value =
        document.stored.value.timely := by
  have accepted : ∀ description ∈ graph.schemas, description.Accepted :=
    Resolution.resolve_accepted (Registry.registerAll_accepted (by simp [Registry.empty])
      descriptions) resolved
  have dormant : schema.Dormant := SchemaSet.build_dormant
    (Resolution.resolve_sound resolved) accepted unchecked built found
  obtain ⟨sound, reloaded, read, recalled, timely⟩ := reload dormant wellFormed loaded valid
  have same : reloaded.stored.value = document.stored.value.recalled := by
    rw [recalled, Value.recalled_object]
    rfl
  refine ⟨store.put id document.toJson, reloaded, rfl, ?_, ?_, timely, ?_⟩
  · have held : (store.put id document.toJson).get? id = some document.toJson :=
      Keyed.get?_put_self _ _ _
    simp only [fetch, DocumentStore.get, held, read, Except.map]
  · rw [toJson, same, sound.toJson_recalled, toJson]
  · rw [same, sound.same_recalled]

end Document

namespace Sample

/-- Tours have stops, which are documents themselves, and a guide unless there is none. -/
def tourDescriptions : List (Json × String) :=
  [(.object [("name", .text "Stop"), ("version", .nat 1),
      ("fields", .object [("at", .text "datetime")])], "stop.json"),
    (.object [("name", .text "Tour"), ("version", .nat 2),
      ("fields", .object
        [("stops", .array [.object [("type", .text "subschema"), ("schema", .text "Stop")]]),
          ("guide", .object [("type", .text "string"), ("default", .text "none")])])],
      "tour.json")]

def tourRegistry : Registry := Registry.empty.registerAll tourDescriptions

def tourGraph : ResolvedGraph := Resolution.linkedGraph tourRegistry

def stop : Schema where
  name := "Stop"
  version := 1
  fields := [{ name := "at", type := .datetime }]

def tour : Schema where
  name := "Tour"
  version := 2
  fields :=
    [{ name := "stops", type := .subschema, isArray := true, schema := some stop },
      { name := "guide", type := .string, default := some (.text "none") }]

def tourSchemas : SchemaSet := ⟨["Stop", "Tour"], [("Stop", stop), ("Tour", tour)]⟩

def tourPayload (time : String) : Json :=
  .object [("stops", .array [.object [("at", .text time)]])]

/-- The document that is loaded for a tour with one stop at a time. -/
def tourAt (time : String) : Document :=
  ((Document.ofJson tour (tourPayload time)).1.toOption).getD ⟨tour, .empty, .unbound, .empty⟩

def morning : String := "2026-01-15T10:00:00.1234567+01:00"

/-- A time that is in the next year, of five digits, where there is no offset. -/
def lastNight : String := "9999-12-31T23:30:00-01:00"

theorem tourDescriptions_wellFormed : ∀ call ∈ tourDescriptions, call.1.WellFormed := by
  simp [tourDescriptions, Json.nat, Json.int, Keyed.keys]

theorem tour_ended : Graph.finishingOrder tourGraph.schemas = .ok [0, 1] :=
  Graph.finishingOrder_of_backward (by decide)

theorem tour_resolved : Resolution.resolve tourRegistry = .ok tourGraph :=
  Resolution.resolve_of_order rfl tour_ended

theorem tour_unchecked : ∀ description ∈ tourGraph.schemas, description.Unchecked := by
  have none_named : (tourGraph.schemas.all fun description =>
      description.fields.all fun entry => entry.2.validator.isNone) = true := rfl
  simpa [SchemaDescription.Unchecked] using none_named

theorem tour_built : SchemaSet.build tourGraph {} [] = .ok tourSchemas := by
  rw [SchemaSet.build_of_ended tour_ended]
  rfl

theorem tourPayload_wellFormed (time : String) : (tourPayload time).WellFormed := by
  simp [tourPayload, Keyed.keys]

theorem tourAt_loaded {time : String}
    (ok : (Document.ofJson tour (tourPayload time)).1.isOk = true) :
    (Document.ofJson tour (tourPayload time)).1 = .ok (tourAt time) :=
  eq_ok_of_isOk ok _

end Sample

open Sample in
theorem Document.fetch_save_of_morning :
    (Resolution.resolve tourRegistry = .ok tourGraph ∧
      SchemaSet.build tourGraph {} [] = .ok tourSchemas ∧
      tourSchemas.get? "Tour" = some tour ∧
      (Document.ofJson tour (tourPayload morning)).1 = .ok (tourAt morning) ∧
      (tourAt morning).isValid = true) ∧
    ∃ kept reloaded, (tourAt morning).save MemoryStore.empty "spring" = .ok kept ∧
      Document.fetch kept tour "spring" = (.ok (some reloaded), []) ∧
      reloaded.toJson = (tourAt morning).toJson ∧
      (reloaded.isValid = true ↔ (tourAt morning).stored.value.timely = true) ∧
      (tourAt morning).stored.value.truncated.same reloaded.stored.value =
        (tourAt morning).stored.value.timely := by
  have found : tourSchemas.get? "Tour" = some tour := rfl
  have loaded : (Document.ofJson tour (tourPayload morning)).1 = .ok (tourAt morning) :=
    tourAt_loaded (by decide +kernel)
  have valid : (tourAt morning).isValid = true := by decide +kernel
  exact ⟨⟨tour_resolved, tour_built, found, loaded, valid⟩,
    Document.fetch_save tourDescriptions_wellFormed tour_resolved tour_unchecked tour_built found
      (tourPayload_wellFormed morning) loaded valid MemoryStore.empty "spring"⟩

open Sample in
/-- A tour in the last night that has a year of four digits is valid, and is fetched as one
that is not. -/
theorem Document.fetched_last_night_invalid :
    Resolution.resolve tourRegistry = .ok tourGraph ∧
    SchemaSet.build tourGraph {} [] = .ok tourSchemas ∧
    tourSchemas.get? "Tour" = some tour ∧
    (Document.ofJson tour (tourPayload lastNight)).1 = .ok (tourAt lastNight) ∧
    (tourAt lastNight).isValid = true ∧
    ∃ kept reloaded, (tourAt lastNight).save MemoryStore.empty "spring" = .ok kept ∧
      (Document.fetch kept tour "spring").1 = .ok (some reloaded) ∧
      reloaded.isValid = false := by
  refine ⟨tour_resolved, tour_built, rfl, tourAt_loaded (by decide +kernel), by decide +kernel,
    MemoryStore.empty.put "spring" (tourAt lastNight).toJson, ?_⟩
  have verdict : (Document.fetch (MemoryStore.empty.put "spring" (tourAt lastNight).toJson) tour
      "spring").1.toOption.join.map Document.isValid = some false := by decide +kernel
  obtain ⟨reloaded, read, invalid⟩ := Option.map_eq_some_iff.mp verdict
  refine ⟨reloaded, rfl, ?_, invalid⟩
  have fetched := Option.join_eq_some_iff.mp read
  cases found : (Document.fetch (MemoryStore.empty.put "spring" (tourAt lastNight).toJson) tour
      "spring").1 with
  | error error => simp [found, Except.toOption] at fetched
  | ok answer => rw [found] at fetched; exact congrArg Except.ok (Option.some.inj fetched)

end Schemata
