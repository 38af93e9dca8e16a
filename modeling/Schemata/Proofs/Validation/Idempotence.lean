import Schemata.Proofs.Validation.Resumption
namespace Schemata

/-! What has been validated is settled: a second validation finds the same and edits
nothing.

A validation that is not cut short may be resumed as well as one that is, and by the same
schema: what it has left then is all that it would leave. -/

/-- What an examination has edited it would leave alone, with the same outcome. -/
def AtRest {α : Type} (examine : α → Examined α) : Prop :=
  ∀ {value edited part}, examine value = ⟨edited, .ok part⟩ → examine edited = ⟨edited, .ok part⟩

theorem Resumes.atRest {α : Type} {examine : α → Examined α} (resumes : Resumes examine examine) :
    AtRest examine := by
  intro value edited part examined
  have again := resumes examined
  rwa [examined] at again

theorem Schema.validate_atRest {schema : Schema} (distinct : schema.Distinct) :
    AtRest schema.validate :=
  Resumes.atRest (Schema.validate_resumes (.refl FieldRule.Revises.refl schema) distinct)

/-- Validating what a validation has left finds the same outcome, with all paths and
failures, and changes nothing. -/
theorem Schema.validate_validate {schema : Schema} {body after : Members} {outcome : Outcome}
    (distinct : schema.Distinct) (validated : schema.validate body = ⟨after, .ok outcome⟩) :
    schema.validate after = ⟨after, .ok outcome⟩ :=
  schema.validate_atRest distinct validated

theorem Schema.validate_validate_of_person :
    (Sample.person.Distinct ∧ Sample.person.validate Sample.ada =
      ⟨(Sample.person.validate Sample.ada).edited,
        .ok (Sample.person.validate Sample.ada).outcome⟩) ∧
    Sample.person.validate (Sample.person.validate Sample.ada).edited =
      ⟨(Sample.person.validate Sample.ada).edited,
        .ok (Sample.person.validate Sample.ada).outcome⟩ :=
  ⟨⟨Sample.person_distinct, Sample.person_validate_ada⟩,
    Schema.validate_validate Sample.person_distinct Sample.person_validate_ada⟩

end Schemata
