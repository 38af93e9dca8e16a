import Schemata.Proofs.Document.Versions
namespace Schemata

/-! Binding again.

Where a body comes from is of no account to `bind`: a body of an older version, or of none, is
handed to the upgrader whatever state it is said to be in.  So the upgrader has no say exactly
in bodies whose version tag is refused or not below the version of the schema
(`DocumentState.bind_upgraders`). -/

namespace DocumentState

variable {schema : Schema} {body : Body} {version : Option Nat}

/-- The upgrader has a say in bodies without a version and in older ones. -/
inductive Older (schema : Schema) (body : Body) : Prop
  | unversioned (has : HasVersion body none)
  | below {number : Nat} (has : HasVersion body (some number)) (lower : number < schema.version)

theorem older_iff (has : HasVersion body version) :
    Older schema body ↔ version.all (· < schema.version) = true := by
  constructor
  · intro older
    cases older with
    | unversioned none => rw [has.unique none]; rfl
    | below some lower => rw [has.unique some]; simpa using lower
  · intro lower
    cases version with
    | none => exact .unversioned has
    | some number => exact .below has (by simpa using lower)

/-- A body that is not older is judged by the name and the version of the schema alone. -/
theorem current_of_not_older (small : schema.version < SchemaDescription.versionLimit)
    (recent : ¬ Older schema body) (upgrader : Option Upgrader) :
    current { schema with upgrader } body = current schema body := by
  have limit := lt_largestVersion small
  rw [current, current]
  cases read : foundVersion body with
  | error error => rfl
  | ok found =>
      obtain ⟨version, has⟩ := hasVersion_of_foundVersion read
      rw [foundVersion_of_hasVersion has, Except.ok.injEq] at read
      subst read
      cases version with
      | none => exact absurd (.unversioned has) recent
      | some number =>
          have reached : ¬ min number largestVersion < schema.version := fun lower =>
            recent (.below has (by omega))
          simp only [Option.map_some]
          split
          · rfl
          · rw [if_pos (by omega), if_pos (by omega)]

theorem bind_of_not_older (small : schema.version < SchemaDescription.versionLimit)
    (recent : ¬ Older schema body) (state : DocumentState) (upgrader : Option Upgrader) :
    state.bind { schema with upgrader } body = state.bind schema body := by
  rw [bind, bind, current_of_not_older small recent]
  rfl

theorem bind_of_older (small : schema.version < SchemaDescription.versionLimit)
    (older : Older schema body) (state : DocumentState) (upgrader : Option Upgrader) :
    (state.bind { schema with upgrader } body).1 =
      (stamped schema ((upgrader.bind fun upgrade => upgrade body).getD body)).map
        (·, versioned schema.version) := by
  have stated : ∃ version, HasVersion body version ∧
      ∀ number ∈ version, number ≤ schema.version := by
    cases older with
    | unversioned has => exact ⟨none, has, by simp⟩
    | below has lower => exact ⟨some _, has, by simpa using Nat.le_of_lt lower⟩
  obtain ⟨version, has, notNewer⟩ := stated
  have bound := @bind_of_notNewer { schema with upgrader } body version has small notNewer
  have lower : version.all (· < schema.version) = true := (older_iff has).mp older
  have next := @modern_of_older { schema with upgrader } version lower body
  rwa [next] at bound

/-- Binding asks the upgrader exactly where a body is older than the schema, also if the state
says that it is bound already.  The upgrader decides then what is bound; a body of the version
of the schema is only held to the type tag. -/
theorem bind_upgraders (small : schema.version < SchemaDescription.versionLimit)
    (state : DocumentState) (body : Body) :
    ((∀ left right, state.bind { schema with upgrader := left } body =
        state.bind { schema with upgrader := right } body) ↔ ¬ Older schema body) ∧
    (Older schema body → ∀ upgrader, (state.bind { schema with upgrader } body).1 =
      (stamped schema ((upgrader.bind fun upgrade => upgrade body).getD body)).map
        (·, versioned schema.version)) ∧
    (HasVersion body (some schema.version) → ∀ upgrader,
      state.bind { schema with upgrader } body =
        ((stamped schema body).map (·, versioned schema.version), [])) := by
  refine ⟨⟨fun alike older => ?_, fun recent left right => ?_⟩,
    fun older => bind_of_older small older state, fun has upgrader => ?_⟩
  · -- One upgrader leaves a tag that is refused, the other leaves nothing to refuse.
    have same := congrArg Prod.fst (alike
      (some fun _ => some (Table.empty.insert doctypeKey (.bool true)))
      (some fun _ => some Table.empty))
    rw [bind_of_older small older, bind_of_older small older] at same
    simp [stamped, withDoctype, Except.map] at same
  · rw [bind_of_not_older small recent, bind_of_not_older small recent]
  · have recent : ¬ Older schema body := fun older => by simpa using (older_iff has).mp older
    have limit := lt_largestVersion small
    have found : foundVersion body = .ok (some schema.version) := by
      rw [foundVersion_of_hasVersion has, Option.map_some, Nat.min_eq_left (Nat.le_of_lt limit)]
    rw [bind_of_not_older small recent, bind, current_of_version found]

end DocumentState

namespace Sample

/-- Members had a full name once. -/
def shortened : Upgrader := fun body =>
  (body.get? "fullname").map fun name =>
    (body.erase "fullname").insert "name" name

def member : Schema := { name := "Member", version := 3, fields := [] }

def oldMember : Body := Table.ofList
  [(doctypeKey, .text "member"), ("fullname", .text "Ada"), (versionKey, .nat 2)]

def newMember : Body := Table.ofList [("fullname", .text "Ada"), (versionKey, .nat 3)]

end Sample

open Sample in
theorem DocumentState.bind_upgraders_of_oldMember :
    (member.version < SchemaDescription.versionLimit ∧ Older member oldMember) ∧
    ((versioned 3).bind { member with upgrader := some shortened } oldMember).1 =
      (stamped member ((shortened oldMember).getD oldMember)).map (·, versioned 3) ∧
    (¬ ∀ left right, (versioned 3).bind { member with upgrader := left } oldMember =
      (versioned 3).bind { member with upgrader := right } oldMember) ∧
    (versioned 3).bind { member with upgrader := some shortened } newMember =
      ((stamped member newMember).map (·, versioned 3), []) := by
  have small : member.version < SchemaDescription.versionLimit := by decide
  have older : Older member oldMember := .below (hasVersion_of_nat (by decide) rfl) (by decide)
  obtain ⟨asked_iff, decided, _⟩ := bind_upgraders small (versioned 3) oldMember
  obtain ⟨_, _, held⟩ := bind_upgraders small (versioned 3) newMember
  exact ⟨⟨small, older⟩, decided older (some shortened), fun alike => asked_iff.mp alike older,
    held (hasVersion_of_nat (by decide) rfl) (some shortened)⟩

open Sample in
/-- A body that is said to be bound at the version of its schema is upgraded all the same. -/
theorem DocumentState.rebinding_upgrades :
    let again := fun upgrader : Upgrader =>
      ((versioned 3).bind { member with upgrader := some upgrader } oldMember).1
    let nameOf := fun upgrader => (again upgrader).toOption.map fun bound =>
      (bound.1.get? "name").bind Value.text?
    nameOf shortened = some (some "Ada") ∧ nameOf (fun _ => none) = some none ∧
      again shortened ≠ again fun _ => none := by
  intro again nameOf
  have upgraded : nameOf shortened = some (some "Ada") := by decide +kernel
  have kept : nameOf (fun _ => none) = some none := by decide +kernel
  refine ⟨upgraded, kept, fun same => ?_⟩
  have named : nameOf shortened = nameOf fun _ => none := by
    simp only [nameOf, same]
  rw [upgraded, kept] at named
  simp at named

end Schemata
