import Schemata.Proofs.Document.Reload
namespace Schemata

/-! Documents of one schema under another.

The doctype of a schema is its name in small letters, so names that differ in more than the
size of their letters have doctypes of their own.  What is stored of a document carries the
doctype of its schema, and a body with another doctype is bound only if the upgrader makes
something else of it (`DocumentState.bind_of_other`). -/

/-- The upgrader is asked about a body and hands back another one, whose doctype is that of
the schema or missing. -/
def Schema.TakesOver (schema : Schema) (body : Body) : Prop :=
  ∃ version next, DocumentState.HasVersion body version ∧
    version.all (· < schema.version) = true ∧ schema.Upgrades body next ∧
    (Value.isAbsent (next.get? doctypeKey) = true ∨
      next.get? doctypeKey = some (.text schema.doctype))

namespace DocumentState

variable {schema : Schema} {body : Body} {version : Option Nat}

theorem untold_of_withDoctype {tagged : Body} (ran : withDoctype schema body = .ok tagged) :
    Value.isAbsent (body.get? doctypeKey) = true ∨
      body.get? doctypeKey = some (.text schema.doctype) := by
  rw [withDoctype] at ran
  split at ran
  · rename_i missing
    exact .inl (by rw [missing]; rfl)
  · rename_i null
    exact .inl (by rw [null]; rfl)
  · rename_i tag found
    split at ran
    · rename_i same
      exact .inr (same ▸ found)
    · simp at ran
  · simp at ran

/-- A body is handed on as it is, or as the upgrader leaves it. -/
theorem modern_cases (schema : Schema) (version : Option Nat) (body : Body) :
    modern schema version body = body ∨
      (version.all (· < schema.version) = true ∧
        schema.Upgrades body (modern schema version body)) := by
  by_cases older : version.all (· < schema.version) = true
  · rw [modern_of_older older]
    cases upgraded : schema.upgrader.bind fun upgrade => upgrade body with
    | none => exact .inl rfl
    | some next => exact .inr ⟨older, Option.bind_eq_some_iff.mp upgraded⟩
  · exact .inl (modern_of_not_older older body)

/-- A body with the doctype of another schema is bound exactly when it is taken over. -/
theorem bind_of_other {tag : String} (small : schema.version < SchemaDescription.versionLimit)
    (found : body.get? doctypeKey = some (.text tag)) (other : tag ≠ schema.doctype) :
    (∃ bound, (unbound.bind schema body).1 = .ok bound) ↔ schema.TakesOver body := by
  constructor
  · rintro ⟨bound, answered⟩
    rcases bind_cases small body with
      ⟨_, refused⟩ | ⟨_, _, _, refused⟩ | ⟨version, has, _, answer⟩
    · simp [refused] at answered
    · simp [refused] at answered
    · rw [answer, stamped] at answered
      cases ran : withDoctype schema (modern schema version body) with
      | error error => simp [ran, Except.map] at answered
      | ok tagged =>
          have untold := untold_of_withDoctype ran
          rcases modern_cases schema version body with same | ⟨older, upgraded⟩
          · rw [same, found] at untold
            simp [Value.isAbsent, Value.isNull, other] at untold
          · exact ⟨version, _, has, older, upgraded, untold⟩
  · rintro ⟨version, next, has, older, ⟨upgrade, upgrader, upgraded⟩, untold⟩
    have notNewer : ∀ number ∈ version, number ≤ schema.version := by
      rintro number rfl
      exact Nat.le_of_lt (of_decide_eq_true older)
    have handed : modern schema version body = next := by
      rw [modern_of_older older, upgrader, Option.bind_some, upgraded, Option.getD_some]
    obtain ⟨tagged, ran⟩ := withDoctype_exists untold
    rw [bind_of_notNewer has small notNewer, handed, stamped, ran]
    exact ⟨_, rfl⟩

end DocumentState

namespace Document

variable {document : Document}

theorem Tagged.stored_doctype {schema : Schema} (tagged : document.Tagged schema)
    (untagged : ∀ field ∈ schema.fields, field.name ≠ doctypeKey) :
    (document.stored.mapValues Value.stored).get? doctypeKey =
      some (.text schema.doctype) := by
  rw [get?_read tagged.governed (isStored_doctypeKey untagged), tagged.doctype]
  rfl

/-- Schemas of a set have doctypes of their own where their names differ in more than the
size of the letters.  What is stored of a document of the one, however it has been changed,
is then bound or loaded as a document of the other only if the upgrader takes it over. -/
theorem bind_other {calls : List (Json × String)} {graph : ResolvedGraph} {hooks : Hooks}
    {upgraders : Keyed Upgrader} {set : SchemaSet} {firstName secondName : String}
    {first second : Schema}
    (resolved : Resolution.resolve (Registry.empty.registerAll calls) = .ok graph)
    (built : SchemaSet.build graph hooks upgraders = .ok set)
    (found : set.get? firstName = some first) (other : set.get? secondName = some second)
    (distinct : Text.toSmallLetters firstName ≠ Text.toSmallLetters secondName) :
    first.doctype ≠ second.doctype ∧
    ∀ document : Document, document.Obtained first → ∀ changes,
      ∃ members, (document.run changes).toJson = .object members ∧
        ((∃ bound, (DocumentState.unbound.bind second (Body.ofJson members)).1 = .ok bound) ↔
          second.TakesOver (Body.ofJson members)) ∧
        ∀ loaded, (Document.ofJson second (.object members)).1 = .ok loaded →
          second.TakesOver (Body.ofJson members) := by
  have sound := Resolution.resolve_sound resolved
  have untagged := SchemaSet.untagged_of_found sound built found
  obtain ⟨firstNamed, _⟩ := SchemaSet.mirrors_of_found sound built found
  obtain ⟨secondNamed, description, listed, mirrors⟩ :=
    SchemaSet.mirrors_of_found sound built other
  have small : second.version < SchemaDescription.versionLimit :=
    mirrors.version ▸ sound.version_lt description listed
  have different : first.doctype ≠ second.doctype := by
    rw [Schema.doctype, Schema.doctype, firstNamed, secondNamed]
    exact distinct
  refine ⟨different, fun document obtained changes => ?_⟩
  have tagged := (obtained.tagged untagged).1.run untagged changes
  obtain ⟨members, object, body⟩ := (document.run changes).toJson_members
  have doctype := tagged.stored_doctype untagged
  rw [← body] at doctype
  have answered := DocumentState.bind_of_other small doctype different
  refine ⟨members, object, answered, fun loaded read => answered.mp ?_⟩
  obtain ⟨_, bound, ran, _⟩ := load_ok read
  exact ⟨_, ran⟩

end Document

namespace Sample

def unlabelled : Upgrader := fun body => some (body.erase doctypeKey)

def postDescriptions : List (Json × String) :=
  [("Letter", 1), ("letter", 1), ("Parcel", 2)].map fun (name, version) =>
    (.object [("name", .text name), ("version", .nat version), ("fields", .object [])], name)

def postGraph : ResolvedGraph :=
  Resolution.linkedGraph (Registry.empty.registerAll postDescriptions)

def letter : Schema := { name := "Letter", version := 1, fields := [] }

def smallLetter : Schema := { name := "letter", version := 1, fields := [] }

/-- Whatever is older passes for a parcel. -/
def parcel : Schema := { name := "Parcel", version := 2, fields := [], upgrader := some unlabelled }

def postSchemas : SchemaSet :=
  ⟨["Letter", "letter", "Parcel"],
    [("Letter", letter), ("letter", smallLetter), ("Parcel", parcel)]⟩

theorem post_ended : Graph.finishingOrder postGraph.schemas = .ok [0, 1, 2] :=
  Graph.finishingOrder_of_backward (by decide)

theorem post_resolved :
    Resolution.resolve (Registry.empty.registerAll postDescriptions) = .ok postGraph :=
  Resolution.resolve_of_order rfl post_ended

theorem post_built : SchemaSet.build postGraph {} [("Parcel", unlabelled)] = .ok postSchemas := by
  rw [SchemaSet.build_of_ended post_ended]
  rfl

/-- A letter that has been written: it holds nothing but its tags. -/
def written : Document :=
  ((Document.new letter).1.toOption).getD ⟨letter, .empty, .unbound, .empty⟩

theorem written_new : (Document.new letter).1 = .ok written :=
  eq_ok_of_isOk (by decide +kernel) _

def packed : Document :=
  ((Document.new parcel).1.toOption).getD ⟨parcel, .empty, .unbound, .empty⟩

theorem packed_new : (Document.new parcel).1 = .ok packed :=
  eq_ok_of_isOk (by decide +kernel) _

end Sample

open Sample in
theorem Document.bind_other_of_parcel :
    (Resolution.resolve (Registry.empty.registerAll postDescriptions) = .ok postGraph ∧
      SchemaSet.build postGraph {} [("Parcel", unlabelled)] = .ok postSchemas ∧
      postSchemas.get? "Parcel" = some parcel ∧ postSchemas.get? "Letter" = some letter ∧
      Text.toSmallLetters "Parcel" ≠ Text.toSmallLetters "Letter" ∧
      packed.Obtained parcel) ∧
    parcel.doctype ≠ letter.doctype ∧
    ∃ members, (packed.run [.validate]).toJson = .object members ∧
      ¬ ∃ bound, (DocumentState.unbound.bind letter (Body.ofJson members)).1 = .ok bound := by
  have distinct : Text.toSmallLetters "Parcel" ≠ Text.toSmallLetters "Letter" := by decide
  have obtained : packed.Obtained parcel := .new packed_new
  obtain ⟨different, refused⟩ := Document.bind_other post_resolved post_built
    (rfl : postSchemas.get? "Parcel" = some parcel)
    (rfl : postSchemas.get? "Letter" = some letter) distinct
  obtain ⟨members, object, answered, _⟩ := refused packed obtained [.validate]
  -- There is no upgrader for letters that could take the parcel over.
  have kept : ¬ letter.TakesOver (Body.ofJson members) := by
    rintro ⟨_, _, _, _, ⟨_, upgrader, _⟩, _⟩
    simp [letter] at upgrader
  exact ⟨⟨post_resolved, post_built, rfl, rfl, distinct, obtained⟩, different,
    members, object, mt answered.mp kept⟩

open Sample in
/-- A letter is loaded as one of the schema whose name is in small letters, since both have
one doctype, and as a parcel, since the upgrader of parcels takes the doctype away. -/
theorem Document.letter_loaded_otherwise :
    Resolution.resolve (Registry.empty.registerAll postDescriptions) = .ok postGraph ∧
    SchemaSet.build postGraph {} [("Parcel", unlabelled)] = .ok postSchemas ∧
    postSchemas.get? "Letter" = some letter ∧ postSchemas.get? "letter" = some smallLetter ∧
    postSchemas.get? "Parcel" = some parcel ∧ "Letter" ≠ "letter" ∧ "Letter" ≠ "Parcel" ∧
    written.Obtained letter ∧ letter.doctype = smallLetter.doctype ∧
    (Document.ofJson smallLetter written.toJson).1.isOk = true ∧
    (Document.ofJson parcel written.toJson).1.isOk = true := by
  refine ⟨post_resolved, post_built, rfl, rfl, rfl, by decide, by decide, .new written_new,
    by decide, ?_, ?_⟩ <;> decide +kernel

end Schemata
