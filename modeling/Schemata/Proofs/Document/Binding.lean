import Schemata.Description.Basic
import Schemata.Document.Basic
import Schemata.Proofs.Value.Stored
namespace Schemata

/-! What a body has once it is bound to a schema: the two tags, and else what it had. -/

section Version

variable {version : Nat}

theorem safe_of_version (small : version < SchemaDescription.versionLimit) :
    (version : Int).natAbs ≤ largestSafeInt := by
  have limit : SchemaDescription.versionLimit ≤ largestSafeInt := by decide
  omega

theorem Value.plain_version (small : version < SchemaDescription.versionLimit) :
    (Value.nat version).Plain := by
  obtain ⟨value, found, _⟩ := Number.ofInt_safe (safe_of_version small)
  rw [Value.nat, found]
  exact .number value

theorem Value.stored_version (small : version < SchemaDescription.versionLimit) :
    (Value.nat version).stored = .nat version := by
  have safe := safe_of_version small
  obtain ⟨value, found, _⟩ := Number.ofInt_safe safe
  rw [Value.nat, found, stored_number, ← found, Number.canonical_ofInt safe]

theorem DocumentState.versionOf?_version (small : version < SchemaDescription.versionLimit) :
    versionOf? (.nat version) = some version := by
  have safe := safe_of_version small
  have limit : largestSafeInt ≤ largestVersion := by decide
  have whole := Number.toSafeInt?_ofInt safe
  obtain ⟨value, found, _⟩ := Number.ofInt_safe safe
  rw [found, Number.toSafeInt?, Option.filter_eq_some_iff] at whole
  have counted : min (version : Int).toNat largestVersion = version := by omega
  rw [Value.nat, found, versionOf?, whole.1, Option.bind_some, if_pos (Int.natCast_nonneg _),
    counted]

theorem DocumentState.foundVersion_of_version {body : Body}
    (small : version < SchemaDescription.versionLimit)
    (found : body.get? versionKey = some (.nat version)) :
    foundVersion body = .ok (some version) := by
  have read := versionOf?_version small
  obtain ⟨number, is_number⟩ : ∃ number, Value.nat version = .number number := ⟨_, rfl⟩
  rw [is_number] at read found
  rw [foundVersion, found]
  simp only [read]

end Version

namespace DocumentState

variable {schema : Schema} {body next tagged : Body} {notices : List Notice}

theorem current_ok (dormant : schema.upgrader = none)
    (ran : current schema body = .ok (next, notices)) : next = body ∧ notices = [] := by
  have unchanged : ∀ found, modernized schema found body = (body, []) := by
    intro found
    rw [modernized, Schema.upgrade?, dormant]
    rfl
  rw [current] at ran
  split at ran
  · simp at ran
  · rw [unchanged] at ran
    simpa [eq_comm] using ran
  · split at ran
    · simp at ran
    · split at ran
      · simpa [eq_comm] using ran
      · rw [unchanged] at ran
        simpa [eq_comm] using ran

theorem current_of_version (found : foundVersion body = .ok (some schema.version)) :
    current schema body = .ok (body, []) := by
  rw [current, found]
  simp

theorem current_of_none (dormant : schema.upgrader = none)
    (found : foundVersion body = .ok none) : current schema body = .ok (body, []) := by
  rw [current, found]
  simp only [modernized, Schema.upgrade?, dormant, Option.bind_none]

theorem withDoctype_ok (ran : withDoctype schema body = .ok tagged) :
    tagged.get? doctypeKey = some (.text schema.doctype) ∧
      (tagged = body ∨ tagged = body.insert doctypeKey (.text schema.doctype)) := by
  rw [withDoctype] at ran
  split at ran
  · obtain rfl := Except.ok.inj ran
    exact ⟨Table.get?_insert_self _ _ _, .inr rfl⟩
  · obtain rfl := Except.ok.inj ran
    exact ⟨Table.get?_insert_self _ _ _, .inr rfl⟩
  · rename_i tag found
    split at ran
    · rename_i same
      obtain rfl := Except.ok.inj ran
      exact ⟨same ▸ found, .inl rfl⟩
    · simp at ran
  · simp at ran

theorem withDoctype_of_tag (found : body.get? doctypeKey = some (.text schema.doctype)) :
    withDoctype schema body = .ok body := by
  rw [withDoctype, found]
  simp

/-- A body that carries the tags, or lacks the version only, is bound as it is. -/
theorem bind_of_tags {version : Option Nat} (dormant : schema.upgrader = none)
    (found : foundVersion body = .ok version)
    (tagged : body.get? doctypeKey = some (.text schema.doctype))
    (same : ∀ number ∈ version, number = schema.version) :
    unbound.bind schema body =
      (.ok (body.insert versionKey (.nat schema.version), versioned schema.version), []) := by
  have kept : current schema body = .ok (body, []) := by
    cases version with
    | none => exact current_of_none dormant found
    | some number =>
        obtain rfl := same number rfl
        exact current_of_version found
  rw [bind, kept]
  simp only [stamped, withDoctype_of_tag tagged, Except.map]

theorem bind_ok {state : DocumentState} (dormant : schema.upgrader = none)
    (bound : (unbound.bind schema body).1 = .ok (next, state)) :
    ∃ tagged, withDoctype schema body = .ok tagged ∧
      next = tagged.insert versionKey (.nat schema.version) := by
  rw [bind] at bound
  split at bound
  · simp at bound
  · rename_i kept notices ran
    obtain ⟨rfl, _⟩ := current_ok dormant ran
    cases tagged : withDoctype schema kept with
    | error error => simp [stamped, tagged, Except.map] at bound
    | ok body =>
        simp only [stamped, tagged, Except.map, Except.ok.injEq, Prod.mk.injEq] at bound
        exact ⟨body, rfl, bound.1.symm⟩

end DocumentState

end Schemata
