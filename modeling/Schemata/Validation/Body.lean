import Schemata.Validation.Examined
namespace Schemata

/-! Validation of whole bodies.

Whatever is written is written under the name of a field, so members that are in the order of
their keys stay so, and a body that is validated is a body again. -/

namespace FieldRule

variable {members : Members} (rule : FieldRule)

theorem fill_ordered (ordered : Keyed.Ordered members) :
    Keyed.Ordered (rule.fill members) := by
  rw [fill]
  split
  · split
    · exact Keyed.ordered_insert _ _ ordered
    · exact ordered
  · exact ordered

theorem examineHeld_ordered (examine : Value → Examined Value)
    (ordered : Keyed.Ordered members) :
    Keyed.Ordered (rule.examineHeld examine members).edited := by
  have filled := rule.fill_ordered ordered
  rw [examineHeld]
  split
  · exact filled
  · exact filled
  · exact Keyed.ordered_insert _ _ filled

theorem examine_ordered (nested : Option (Members → Examined Members))
    (ordered : Keyed.Ordered members) : Keyed.Ordered (rule.examine nested members).edited := by
  rw [examine.eq_def]
  split
  · exact ordered
  · exact rule.fill_ordered ordered
  · exact rule.examineHeld_ordered _ ordered
  · exact rule.examineHeld_ordered _ ordered

end FieldRule

theorem validateFields_ordered {fields : List Field} {members : Members} {outcome : Outcome}
    (ordered : Keyed.Ordered members) :
    Keyed.Ordered (validateFields fields members outcome).edited := by
  induction fields generalizing members outcome with
  | nil => simpa only [validateFields] using ordered
  | cons field rest inductionHypothesis =>
      have first : Keyed.Ordered (field.validate members).edited := by
        rw [Field.validate_eq]
        exact field.examine_ordered _ ordered
      rw [validateFields]
      split
      · dsimp only
        split
        · exact first
        · exact inductionHypothesis first
      · exact inductionHypothesis ordered

theorem Schema.validate_ordered (schema : Schema) {members : Members}
    (ordered : Keyed.Ordered members) : Keyed.Ordered (schema.validate members).edited := by
  rw [Schema.validate_eq]
  exact validateFields_ordered ordered

def Schema.validateBody (schema : Schema) (body : Body) : Examined Body :=
  ⟨⟨(schema.validate body.entries).edited, schema.validate_ordered body.ordered⟩,
    (schema.validate body.entries).verdict⟩

theorem Schema.get?_validateBody (schema : Schema) (body : Body) (key : String) :
    (schema.validateBody body).edited.get? key =
      Keyed.get? (validateFields schema.fields body.entries .empty).edited key := by
  rw [← Schema.validate_eq]
  rfl

theorem Schema.validateBody_eq_iff {schema : Schema} {body after : Body}
    {verdict : Except ValidationFault Outcome} :
    schema.validateBody body = ⟨after, verdict⟩ ↔
      schema.validate body.entries = ⟨after.entries, verdict⟩ := by
  obtain ⟨entries, ordered⟩ := after
  cases ran : schema.validate body.entries
  simp only [validateBody, ran, Examined.mk.injEq, Table.mk.injEq]

end Schemata
