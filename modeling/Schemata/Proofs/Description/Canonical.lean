import Schemata.Proofs.Description.Accepted
namespace Schemata

/-! The normal form of descriptions.

However a field is stated, its reference is there only where its values are documents, and
nobody has followed it yet; and it names a calculator wherever its values are calculated. -/

namespace FieldSpec

/-- What holds of every field before references are followed. -/
structure Canonical (spec : FieldSpec) : Prop where
  unlinked : ∀ reference, spec.reference = some reference → reference.position = none
  unreferenced : spec.type ≠ .subschema → spec.reference = none
  calculator : spec.type = .calculated → spec.calculator.isSome = true
  calculatedType : spec.type = .calculated → spec.calculatedType.isSome = true

variable {raw : Json} {descriptor : Keyed Json} {spec : FieldSpec}

theorem calculatorText_isSome {key : String} {value : Option String}
    (read : calculatorText .calculated descriptor key = .ok value) : value.isSome = true := by
  have computed : FieldType.calculated.isPersisted = false := rfl
  rw [calculatorText, computed, if_neg Bool.false_ne_true] at read
  cases stated : mandatoryText descriptor key with
  | error fault => simp [stated, Except.map] at read
  | ok text =>
      rw [stated] at read
      rw [← Except.ok.inj read, Option.isSome_some]

theorem Reads.canonical (reads : Reads descriptor spec) : spec.Canonical := by
  refine ⟨fun reference referring => ?_, reads.unreferenced, fun calculated => ?_,
    fun calculated => ?_⟩
  · by_cases subschema : spec.type = .subschema
    · obtain ⟨name, _, stated⟩ := reads.reference subschema
      rw [stated] at referring
      obtain ⟨_, _, rfl⟩ := Option.map_eq_some_iff.mp referring
      rfl
    · rw [reads.unreferenced subschema] at referring
      simp at referring
  · have read := reads.calculator
    rw [calculated] at read
    exact calculatorText_isSome read
  · have read := reads.calculatedType
    rw [calculated] at read
    exact calculatorText_isSome read

theorem ofShorthand_canonical {text : String} {shorthand : Shorthand}
    (found : Shorthand.ofName? text = some shorthand) : (ofShorthand shorthand).Canonical := by
  have stored : ∀ listed ∈ Shorthand.all, listed.type ≠ .calculated := by decide
  have other := stored shorthand (List.mem_of_find?_eq_some found)
  exact ⟨by simp [ofShorthand], fun _ => rfl, fun calculated => absurd calculated other,
    fun calculated => absurd calculated other⟩

theorem ofSingle_canonical (described : ofSingle raw = .ok spec) : spec.Canonical := by
  cases raw with
  | text text =>
      rw [ofSingle] at described
      split at described
      · rename_i shorthand found
        exact Except.ok.inj described ▸ ofShorthand_canonical found
      · simp at described
  | object descriptor => exact (reads_of_ofDescriptor described).canonical
  | _ => simp [ofSingle] at described

theorem ofJson_canonical {name : String} (described : ofJson name raw = .ok spec) :
    spec.Canonical := by
  rw [ofJson.eq_def] at described
  cases allowed : fieldNameFault? name with
  | some fault => simp [allowed] at described
  | none =>
      simp only [allowed] at described
      split at described
      · rename_i item
        cases single : ofSingle item with
        | error fault => simp [single, Except.map] at described
        | ok inner =>
            rw [single] at described
            obtain ⟨unlinked, unreferenced, calculator, calculatedType⟩ :=
              ofSingle_canonical single
            rw [← Except.ok.inj described]
            exact ⟨unlinked, unreferenced, calculator, calculatedType⟩
      · simp at described
      · exact ofSingle_canonical described

end FieldSpec

namespace SchemaDescription

/-- What holds of every description before references are followed. -/
structure Canonical (description : SchemaDescription) : Prop where
  named : description.name ≠ ""
  version_lt : description.version < versionLimit
  allowed : ∀ entry ∈ description.fields, fieldNameFault? entry.1 = none
  fields : ∀ entry ∈ description.fields, entry.2.Canonical
  imports : description.imports = []
  requiresDateOnly : description.requiresDateOnly = false

variable {json : Json} {origin : String} {description : SchemaDescription}

theorem ne_empty_of_nonEmptyText? {name : String} (read : nonEmptyText? json = some name) :
    name ≠ "" := by
  cases json with
  | text text =>
      rw [nonEmptyText?] at read
      split at read
      · simp at read
      · rename_i nonEmpty
        rintro rfl
        exact nonEmpty (Option.some.inj read ▸ rfl)
  | _ => simp [nonEmptyText?] at read

theorem ofJson_origin (accepted : ofJson json origin = .ok description) :
    description.origin = origin := by
  rw [ofJson] at accepted
  obtain ⟨header, _, accepted⟩ := ok_of_bind accepted
  obtain ⟨fields, _, accepted⟩ := ok_of_bind accepted
  rw [← Except.ok.inj accepted]

theorem ofJson_canonical (accepted : ofJson json origin = .ok description) :
    description.Canonical := by
  have regular := ofJson_regular accepted
  rw [ofJson] at accepted
  obtain ⟨header, read, accepted⟩ := ok_of_bind accepted
  obtain ⟨fields, normalized, accepted⟩ := ok_of_bind accepted
  obtain ⟨_, _, named, _⟩ := Header.ofJson_ok_iff.mp read
  obtain ⟨_, _, nonEmpty⟩ := Option.bind_eq_some_iff.mp named
  have canonical : ∀ entry ∈ fields, entry.2.Canonical := by
    intro entry member
    obtain ⟨_, _, stated⟩ := mem_of_mapM normalized member
    exact FieldSpec.ofJson_canonical (normalizedField_ok stated).2
  obtain rfl := Except.ok.inj accepted
  exact ⟨ne_empty_of_nonEmptyText? nonEmpty, regular.version_lt, regular.allowed, canonical,
    rfl, rfl⟩

end SchemaDescription

namespace Registry

theorem registerAll_canonical (calls : List (Json × String)) :
    ∀ description ∈ (empty.registerAll calls).schemas, description.Canonical :=
  registerAll_forall (by simp [empty]) fun _ _ _ read => SchemaDescription.ofJson_canonical read

end Registry

end Schemata
