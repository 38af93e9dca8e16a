import Schemata.Proofs.Document.Binding
import Schemata.Proofs.Number.Whole
namespace Schemata

/-! How bodies of any version become bodies of the current one.

`HasVersion` is what the version tag of a body says, whatever its size, and `bind_versions`
is the whole rule: which tags are refused, when the upgrader has a say, and what else
changes.  A bound body carries both tags, so no upgrader has a say in it again. -/

/-- The upgrader of the schema is there, and makes another body of this one. -/
def Schema.Upgrades (schema : Schema) (body next : Body) : Prop :=
  ∃ upgrade, schema.upgrader = some upgrade ∧ upgrade body = some next

theorem Schema.upgrade?_eq_some_iff {schema : Schema} {body next : Body} :
    schema.upgrade? body = some next ↔ schema.Upgrades body next :=
  Option.bind_eq_some_iff

namespace DocumentState

/-- The version that a body states: none where the tag is missing or null, else the natural
number that the tag is. -/
inductive HasVersion (body : Body) : Option Nat → Prop
  | absent (absent : Value.isAbsent (body.get? versionKey) = true) : HasVersion body none
  | stated {number : Finite} {version : Nat}
      (found : body.get? versionKey = some (.number (.finite number)))
      (whole : number.signedSteps = (version * stepsPerOne : Nat)) :
      HasVersion body (some version)

/-- The body that is held to the schema: what the upgrader makes of an older one, or of one
without a version, if it changes it. -/
def modern (schema : Schema) (version : Option Nat) (body : Body) : Body :=
  match schema.upgrader with
  | some upgrade => if version.all (· < schema.version) then (upgrade body).getD body else body
  | none => body

/-- The members of a body that has been bound. -/
structure Stamped (schema : Schema) (body bound : Body) : Prop where
  doctype : bound.get? doctypeKey = some (.text schema.doctype)
  version : bound.get? versionKey = some (.nat schema.version)
  others : ∀ key, key ≠ doctypeKey → key ≠ versionKey →
    bound.get? key = body.get? key

variable {schema : Schema} {body next bound : Body} {version : Option Nat}

section Found

theorem HasVersion.unique {other : Option Nat} (left : HasVersion body version)
    (right : HasVersion body other) : version = other := by
  cases left with
  | absent absent =>
      cases right with
      | absent _ => rfl
      | stated found _ => simp [found, Value.isAbsent, Value.isNull] at absent
  | stated found whole =>
      cases right with
      | absent absent => simp [found, Value.isAbsent, Value.isNull] at absent
      | stated same size =>
          simp only [found, Option.some.injEq, Value.number.injEq, Number.finite.injEq] at same
          rw [same, size, Int.ofNat_inj] at whole
          rw [Nat.eq_of_mul_eq_mul_right stepsPerOne_pos whole]

theorem hasVersion_of_nat {count : Nat} (small : count < SchemaDescription.versionLimit)
    (found : body.get? versionKey = some (.nat count)) : HasVersion body (some count) := by
  obtain ⟨number, counted, sign, steps⟩ := Number.ofInt_safe (safe_of_version small)
  rw [Value.nat, counted] at found
  refine .stated found ?_
  have positive : number.negative = false := by
    rw [sign]
    exact decide_eq_false (by omega)
  rw [Finite.signedSteps, positive, steps]
  simp

theorem versionOf?_of_whole {number : Finite} {count : Nat}
    (whole : number.signedSteps = (count * stepsPerOne : Nat)) :
    versionOf? (.number (.finite number)) = some (min count largestVersion) := by
  have integral := Number.toInt?_eq_natCast_iff.mpr whole
  rw [versionOf?, integral, Option.bind_some, if_pos (Int.natCast_nonneg count),
    Int.toNat_natCast]

theorem whole_of_versionOf? {value : Value} {found : Nat} (read : versionOf? value = some found) :
    ∃ number count, value = .number (.finite number) ∧
      number.signedSteps = (count * stepsPerOne : Nat) := by
  rw [versionOf?.eq_def] at read
  split at read
  · rename_i number
    obtain ⟨whole, integral, counted⟩ := Option.bind_eq_some_iff.mp read
    split at counted
    · rename_i nonnegative
      obtain ⟨count, rfl⟩ := Int.eq_ofNat_of_zero_le nonnegative
      exact ⟨number, count, rfl, Number.toInt?_eq_natCast_iff.mp integral⟩
    · simp at counted
  · simp at read

theorem foundVersion_of_hasVersion (has : HasVersion body version) :
    foundVersion body = .ok (version.map (min · largestVersion)) := by
  cases has with
  | absent absent =>
      rw [foundVersion]
      cases found : body.get? versionKey with
      | none => rfl
      | some value =>
          rw [found, Value.isAbsent] at absent
          cases value with
          | null => rfl
          | _ => simp [Value.isNull] at absent
  | stated found whole =>
      rw [foundVersion, found]
      simp only [versionOf?_of_whole whole, Option.map_some]

theorem hasVersion_of_foundVersion {found : Option Nat} (read : foundVersion body = .ok found) :
    ∃ version, HasVersion body version := by
  rw [foundVersion] at read
  split at read
  · rename_i missing
    exact ⟨none, .absent (by rw [missing]; rfl)⟩
  · rename_i null
    exact ⟨none, .absent (by rw [null]; rfl)⟩
  · rename_i value _ tag
    cases counted : versionOf? value with
    | none => simp [counted] at read
    | some number =>
        obtain ⟨number, count, rfl, whole⟩ := whole_of_versionOf? counted
        exact ⟨some count, .stated tag whole⟩

theorem foundVersion_error {error : DocumentError} (read : foundVersion body = .error error) :
    error = .malformedControl versionKey := by
  rw [foundVersion] at read
  split at read
  · simp at read
  · simp at read
  · split at read
    · simp at read
    · exact (Except.error.inj read).symm

theorem foundVersion_error_iff :
    foundVersion body = .error (.malformedControl versionKey) ↔
      ∀ version, ¬ HasVersion body version := by
  constructor
  · intro read version has
    simp [foundVersion_of_hasVersion has] at read
  · intro unstated
    cases read : foundVersion body with
    | ok found =>
        obtain ⟨version, has⟩ := hasVersion_of_foundVersion read
        exact absurd has (unstated version)
    | error error => rw [foundVersion_error read]

end Found

section Current

theorem lt_largestVersion {version : Nat} (small : version < SchemaDescription.versionLimit) :
    version < largestVersion := by
  have limit : SchemaDescription.versionLimit ≤ largestVersion := by decide
  omega

theorem current_of_newer {number : Nat} (has : HasVersion body (some number))
    (small : schema.version < SchemaDescription.versionLimit) (newer : schema.version < number) :
    current schema body =
      .error (.futureVersion schema.name (min number largestVersion) schema.version) := by
  have limit := lt_largestVersion small
  have counted : schema.version < min number largestVersion := by omega
  rw [current, foundVersion_of_hasVersion has]
  simp only [Option.map_some, if_pos counted]

theorem modern_of_older (older : version.all (· < schema.version) = true) (body : Body) :
    modern schema version body = (schema.upgrader.bind fun upgrade => upgrade body).getD body := by
  rw [modern]
  cases schema.upgrader with
  | none => rfl
  | some upgrade => exact if_pos older

theorem modern_of_not_older (recent : ¬ version.all (· < schema.version) = true) (body : Body) :
    modern schema version body = body := by
  rw [modern]
  cases schema.upgrader with
  | none => rfl
  | some upgrade => exact if_neg recent

theorem modernized_fst (schema : Schema) (found : Option Nat) (body : Body) :
    (modernized schema found body).1 =
      (schema.upgrader.bind fun upgrade => upgrade body).getD body := by
  rw [modernized, ← Schema.upgrade?]
  cases schema.upgrade? body <;> rfl

/-- The body that is held to the schema is the one that was given, or the upgrader's answer. -/
theorem current_eq_or {notices : List Notice} (ran : current schema body = .ok (next, notices)) :
    next = body ∨ schema.Upgrades body next := by
  have answered : ∀ found, modernized schema found body = (next, notices) →
      next = body ∨ schema.Upgrades body next := by
    intro found same
    rw [modernized] at same
    split at same
    · rename_i upgraded answer
      obtain ⟨rfl, _⟩ := Prod.mk.inj same
      exact .inr (Schema.upgrade?_eq_some_iff.mp answer)
    · exact .inl (Prod.mk.inj same).1.symm
  rw [current] at ran
  split at ran
  · simp at ran
  · exact answered none (Except.ok.inj ran)
  · split at ran
    · simp at ran
    · split at ran
      · exact .inl (Prod.mk.inj (Except.ok.inj ran)).1.symm
      · exact answered _ (Except.ok.inj ran)

theorem current_of_notNewer (has : HasVersion body version)
    (small : schema.version < SchemaDescription.versionLimit)
    (notNewer : ∀ number ∈ version, number ≤ schema.version) :
    ∃ notices, current schema body = .ok (modern schema version body, notices) := by
  have limit := lt_largestVersion small
  have upgraded : ∀ found, version.all (· < schema.version) = true →
      modernized schema found body =
        (modern schema version body, (modernized schema found body).2) := by
    intro found older
    rw [modern_of_older older, ← modernized_fst schema found body]
  rw [current, foundVersion_of_hasVersion has]
  cases version with
  | none => exact ⟨_, congrArg Except.ok (upgraded none rfl)⟩
  | some number =>
      have least := notNewer number rfl
      have counted : min number largestVersion = number := by omega
      simp only [Option.map_some, counted, if_neg (Nat.not_lt.mpr least)]
      by_cases same : number = schema.version
      · rw [if_pos same, modern_of_not_older (by simp [same])]
        exact ⟨[], rfl⟩
      · have older : (some number).all (· < schema.version) = true := by
          simp only [Option.all_some, decide_eq_true_eq]
          omega
        rw [if_neg same]
        exact ⟨_, congrArg Except.ok (upgraded (some number) older)⟩

end Current

section Doctype

theorem withDoctype_wrong_iff {expected tag : String} :
    withDoctype schema body = .error (.wrongDoctype expected tag) ↔
      expected = schema.doctype ∧ body.get? doctypeKey = some (.text tag) ∧
        tag ≠ schema.doctype := by
  rw [withDoctype]
  cases found : body.get? doctypeKey with
  | none => simp
  | some value =>
      cases value with
      | text held =>
          dsimp only
          split
          · rename_i same
            simp [same, eq_comm]
          · rename_i other
            simp only [Except.error.injEq, DocumentError.wrongDoctype.injEq, Option.some.injEq,
              Value.text.injEq]
            constructor
            · rintro ⟨rfl, rfl⟩
              exact ⟨rfl, rfl, other⟩
            · rintro ⟨rfl, rfl, _⟩
              exact ⟨rfl, rfl⟩
      | _ => simp

theorem withDoctype_malformed_iff :
    withDoctype schema body = .error (.malformedControl doctypeKey) ↔
      ∃ value, body.get? doctypeKey = some value ∧ value.isNull = false ∧
        value.text? = none := by
  rw [withDoctype]
  cases found : body.get? doctypeKey with
  | none => simp
  | some value =>
      cases value with
      | null => simp [Value.isNull]
      | text held =>
          dsimp only
          split <;> simp [Value.text?]
      | _ => simp [Value.isNull, Value.text?]

theorem withDoctype_error {error : DocumentError} (ran : withDoctype schema body = .error error) :
    error ≠ .malformedControl versionKey ∧
      ∀ name found current, error ≠ .futureVersion name found current := by
  rw [withDoctype] at ran
  have keys : doctypeKey ≠ versionKey := by decide
  split at ran
  · simp at ran
  · simp at ran
  · split at ran
    · simp at ran
    · rw [← Except.error.inj ran]
      simp
  · rw [← Except.error.inj ran]
    simp [keys]

theorem withDoctype_exists
    (untold : Value.isAbsent (body.get? doctypeKey) = true ∨
      body.get? doctypeKey = some (.text schema.doctype)) :
    ∃ tagged, withDoctype schema body = .ok tagged := by
  rw [withDoctype]
  rcases untold with absent | same
  · cases found : body.get? doctypeKey with
    | none => exact ⟨_, rfl⟩
    | some value =>
        rw [found, Value.isAbsent] at absent
        cases value with
        | null => exact ⟨_, rfl⟩
        | _ => simp [Value.isNull] at absent
  · simp [same]

theorem stamped_of_withDoctype {tagged : Body} (ran : withDoctype schema body = .ok tagged) :
    Stamped schema body (tagged.insert versionKey (.nat schema.version)) := by
  obtain ⟨tag, shape⟩ := withDoctype_ok ran
  refine ⟨?_, Table.get?_insert_self _ _ _, ?_⟩
  · rw [Table.get?_insert_of_ne _ _ (by decide), tag]
  · intro key notDoctype notVersion
    rw [Table.get?_insert_of_ne _ _ notVersion.symm]
    rcases shape with rfl | rfl
    · rfl
    · exact Table.get?_insert_of_ne _ _ notDoctype.symm

end Doctype

section Bind

theorem bind_fst (state : DocumentState) (schema : Schema) (body : Body) :
    (state.bind schema body).1 = (current schema body).bind fun answer =>
      (stamped schema answer.1).map (·, versioned schema.version) := by
  rw [bind]
  cases current schema body <;> rfl

/-- The three things that the version of a body can lead to. -/
theorem bind_cases (small : schema.version < SchemaDescription.versionLimit) (body : Body) :
    ((∀ version, ¬ HasVersion body version) ∧
      (unbound.bind schema body).1 = .error (.malformedControl versionKey)) ∨
    (∃ number, HasVersion body (some number) ∧ schema.version < number ∧
      (unbound.bind schema body).1 =
        .error (.futureVersion schema.name (min number largestVersion) schema.version)) ∨
    (∃ version, HasVersion body version ∧ (∀ number ∈ version, number ≤ schema.version) ∧
      (unbound.bind schema body).1 =
        (stamped schema (modern schema version body)).map (·, versioned schema.version)) := by
  rw [bind_fst]
  cases read : foundVersion body with
  | error error =>
      obtain rfl := foundVersion_error read
      refine .inl ⟨foundVersion_error_iff.mp read, ?_⟩
      rw [current, read]
      rfl
  | ok found =>
      obtain ⟨version, has⟩ := hasVersion_of_foundVersion read
      by_cases notNewer : ∀ number ∈ version, number ≤ schema.version
      · obtain ⟨notices, ran⟩ := current_of_notNewer has small notNewer
        exact .inr (.inr ⟨version, has, notNewer, by rw [ran]; rfl⟩)
      · cases version with
        | none => simp at notNewer
        | some number =>
            have newer : schema.version < number := by simpa using notNewer
            refine .inr (.inl ⟨number, has, newer, ?_⟩)
            rw [current_of_newer has small newer]
            rfl

theorem stamped_error_iff {error : DocumentError} :
    (stamped schema next).map (·, versioned schema.version) = .error error ↔
      withDoctype schema next = .error error := by
  rw [stamped]
  cases withDoctype schema next <;> simp [Except.map]

theorem bind_malformed_version_iff (small : schema.version < SchemaDescription.versionLimit) :
    (unbound.bind schema body).1 = .error (.malformedControl versionKey) ↔
      ∀ version, ¬ HasVersion body version := by
  rcases bind_cases small body with
    ⟨unstated, refused⟩ | ⟨number, has, _, refused⟩ | ⟨version, has, _, answered⟩
  · exact iff_of_true refused unstated
  · refine iff_of_false ?_ fun unstated => unstated (some number) has
    simp [refused]
  · refine iff_of_false ?_ fun unstated => unstated version has
    rw [answered, stamped_error_iff]
    exact fun ran => (withDoctype_error ran).1 rfl

theorem bind_futureVersion_iff (small : schema.version < SchemaDescription.versionLimit)
    {name : String} {found current : Nat} :
    (unbound.bind schema body).1 = .error (.futureVersion name found current) ↔
      ∃ number, HasVersion body (some number) ∧ schema.version < number ∧
        name = schema.name ∧ found = min number largestVersion ∧ current = schema.version := by
  rcases bind_cases small body with
    ⟨unstated, refused⟩ | ⟨number, has, newer, refused⟩ | ⟨version, has, notNewer, answered⟩
  · refine iff_of_false (by simp [refused]) ?_
    rintro ⟨number, has, _⟩
    exact unstated (some number) has
  · rw [refused, Except.error.injEq, DocumentError.futureVersion.injEq]
    constructor
    · rintro ⟨rfl, rfl, rfl⟩
      exact ⟨number, has, newer, rfl, rfl, rfl⟩
    · rintro ⟨other, stated, _, rfl, rfl, rfl⟩
      rw [Option.some.inj (has.unique stated)]
      exact ⟨rfl, rfl, rfl⟩
  · refine iff_of_false ?_ ?_
    · rw [answered, stamped_error_iff]
      exact fun ran => (withDoctype_error ran).2 name found current rfl
    · rintro ⟨number, stated, newer, _⟩
      have least := notNewer number (has.unique stated)
      omega

theorem bind_of_notNewer (has : HasVersion body version)
    (small : schema.version < SchemaDescription.versionLimit)
    (notNewer : ∀ number ∈ version, number ≤ schema.version) :
    (unbound.bind schema body).1 =
      (stamped schema (modern schema version body)).map (·, versioned schema.version) := by
  obtain ⟨notices, ran⟩ := current_of_notNewer has small notNewer
  rw [bind_fst, ran]
  rfl

/-- A body that carries both tags is bound as it is, in any state. -/
theorem bind_stamped (stamped : Stamped schema body bound)
    (small : schema.version < SchemaDescription.versionLimit) (state : DocumentState) :
    state.bind schema bound = (.ok (bound, versioned schema.version), []) := by
  have found := foundVersion_of_version small stamped.version
  rw [bind, current_of_version found]
  simp only [DocumentState.stamped, withDoctype_of_tag stamped.doctype, Except.map,
    Table.insert_of_get? stamped.version]

/-- What binding a body comes to.  A version tag that is no natural number is refused, and
so is one that is above the version of the schema, however large.  Any other body is bound
as the upgrader leaves it, which has a say in older bodies only: refused if it has the tag
of another doctype or one that is no text, else given both tags, with no other member
changed.  What has been bound once is bound again as it is, whatever the upgrader. -/
theorem bind_versions (small : schema.version < SchemaDescription.versionLimit) (body : Body) :
    let result := (unbound.bind schema body).1
    (result = .error (.malformedControl versionKey) ↔ ∀ version, ¬ HasVersion body version) ∧
    (∀ name found current, result = .error (.futureVersion name found current) ↔
      ∃ number, HasVersion body (some number) ∧ schema.version < number ∧
        name = schema.name ∧ found = min number largestVersion ∧ current = schema.version) ∧
    ∀ version, HasVersion body version → (∀ number ∈ version, number ≤ schema.version) →
      let next := modern schema version body
      (∀ expected tag, result = .error (.wrongDoctype expected tag) ↔
        expected = schema.doctype ∧ next.get? doctypeKey = some (.text tag) ∧
          tag ≠ schema.doctype) ∧
      (result = .error (.malformedControl doctypeKey) ↔
        ∃ value, next.get? doctypeKey = some value ∧ value.isNull = false ∧
          value.text? = none) ∧
      (Value.isAbsent (next.get? doctypeKey) = true ∨
          next.get? doctypeKey = some (.text schema.doctype) →
        ∃ bound, result = .ok (bound, versioned schema.version) ∧ Stamped schema next bound ∧
          ∀ state upgrader, bind state { schema with upgrader } bound =
            (.ok (bound, versioned schema.version), [])) := by
  refine ⟨bind_malformed_version_iff small, fun _ _ _ => bind_futureVersion_iff small, ?_⟩
  intro version has notNewer
  dsimp only
  rw [bind_of_notNewer has small notNewer]
  refine ⟨?_, ?_, ?_⟩
  · intro expected tag
    rw [stamped_error_iff, withDoctype_wrong_iff]
  · rw [stamped_error_iff, withDoctype_malformed_iff]
  · intro untold
    obtain ⟨tagged, ran⟩ := withDoctype_exists untold
    have result := stamped_of_withDoctype ran
    refine ⟨tagged.insert versionKey (.nat schema.version), ?_, result, ?_⟩
    · rw [stamped, ran]
      rfl
    · intro state upgrader
      have again : Stamped { schema with upgrader } (modern schema version body) _ :=
        ⟨result.doctype, result.version, result.others⟩
      exact bind_stamped again small state

end Bind

end DocumentState

namespace Sample

/-- Deeds were titles once, and named their owner otherwise. -/
def renamed : Upgrader := fun body =>
  (body.get? "holder").map fun owner =>
    ((body.erase doctypeKey).erase "holder").insert "owner" owner

def deed : Schema where
  name := "Deed"
  version := 3
  fields := []
  upgrader := some renamed

def oldDeed : Body := Table.ofList
  [(doctypeKey, .text "title"), ("holder", .text "Ada"), (versionKey, .nat 2)]

def newDeed : Body := Table.ofList
  [(doctypeKey, .text "deed"), ("owner", .text "Ada"), (versionKey, .nat 3)]

end Sample

open Sample in
theorem DocumentState.bind_versions_of_oldDeed :
    (deed.version < SchemaDescription.versionLimit ∧ HasVersion oldDeed (some 2) ∧
      (∀ number ∈ some 2, number ≤ deed.version) ∧
      modern deed (some 2) oldDeed =
        Table.ofList [("owner", .text "Ada"), (versionKey, .nat 2)]) ∧
    (unbound.bind deed oldDeed).1 = .ok (newDeed, versioned 3) ∧
    ∀ state upgrader,
      bind state { deed with upgrader } newDeed = (.ok (newDeed, versioned 3), []) := by
  have small : deed.version < SchemaDescription.versionLimit := by decide
  have has : HasVersion oldDeed (some 2) := hasVersion_of_nat (by decide) rfl
  have notNewer : ∀ number ∈ some 2, number ≤ deed.version := by simp [deed]
  have untold : Value.isAbsent ((modern deed (some 2) oldDeed).get? doctypeKey) = true := rfl
  have result : (unbound.bind deed oldDeed).1 = .ok (newDeed, versioned 3) :=
    bind_of_notNewer has small notNewer
  obtain ⟨_, _, bindings⟩ := bind_versions small oldDeed
  obtain ⟨_, _, bound⟩ := bindings (some 2) has notNewer
  obtain ⟨held, answered, _, again⟩ := bound (.inl untold)
  obtain ⟨rfl, _⟩ := Prod.mk.inj (Except.ok.inj (answered.symm.trans result))
  exact ⟨⟨small, has, notNewer, rfl⟩, result, again⟩

end Schemata
