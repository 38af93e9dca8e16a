import Schemata.Proofs.Validation.Coherence
namespace Schemata

/-! Outcomes that are merged into one.

An account of an outcome is what is visited or what has failed: merging adds to it what the part
has below its mount (`Outcome.Account.merge`), also where paths of different parts coincide once
they are mounted.  The accounts determine the verdicts, so mounts act on outcomes
(`Outcome.merge_acts`): how parts are nested on the way to the whole shows in nothing but their
paths, and the order in which they are merged in nothing but the order of the failures. -/

namespace Verdicts

variable {verdict left right : Option Bool}

theorem isSome_iff : verdict.isSome = true ↔ verdict = some true ∨ verdict = some false := by
  rcases verdict with _ | _ | _ <;> simp

theorem eq_true_iff : verdict = some true ↔ verdict.isSome = true ∧ ¬ verdict = some false := by
  rcases verdict with _ | _ | _ <;> simp

/-- A verdict is known from whether there is one and whether it is a failure. -/
theorem eq_of_known (seen : left.isSome = true ↔ right.isSome = true)
    (refused : left = some false ↔ right = some false) : left = right := by
  rcases left with _ | _ | _ <;> rcases right with _ | _ | _ <;> simp_all

end Verdicts

namespace Outcome

/-- Mounted on a text, the outcome has this verdict for the path. -/
def Tells (outcome : Outcome) (mount path : String) (ok : Bool) : Prop :=
  ∃ rest, mount ++ rest = path ∧ outcome.verdict? rest = some ok

/-- Two outcomes differ at most in the order of their failures. -/
structure SameUpToOrder (left right : Outcome) : Prop where
  passed : left.passed = right.passed
  paths : left.paths = right.paths
  failures : left.failures.Perm right.failures

/-- A property that a missing verdict does not have, and a joined one exactly when one of the two
has it. -/
structure Account (Holds : Option Bool → Prop) : Prop where
  none : ¬ Holds none
  joins : ∀ left right, Holds (Option.merge and left right) ↔ Holds left ∨ Holds right

variable {left right : Outcome} {Holds : Option Bool → Prop}

namespace Account

theorem visited : Account (Option.isSome · = true) := ⟨by simp, Verdicts.isSome_merge⟩

theorem failed : Account (· = some false) := ⟨by simp, Verdicts.merge_eq_false_iff⟩

theorem empty (account : Account Holds) (path : String) :
    Holds (Outcome.empty.verdict? path) ↔ False :=
  iff_false_intro account.none

theorem merge (account : Account Holds) (outcome part : Outcome) (mount path : String) :
    Holds ((outcome.merge mount part).verdict? path) ↔
      Holds (outcome.verdict? path) ∨ ∃ rest, mount ++ rest = path ∧ Holds (part.verdict? rest) :=
  verdict?_merge_iff Holds account.joins

theorem merge_empty (account : Account Holds) (outcome part : Outcome) (path : String) :
    Holds ((outcome.merge "" part).verdict? path) ↔
      Holds (outcome.verdict? path) ∨ Holds (part.verdict? path) := by
  rw [verdict?_merge_empty, account.joins]

end Account

theorem paths_eq_of_accounts
    (alike : ∀ Holds, Account Holds →
      ∀ path, Holds (left.verdict? path) ↔ Holds (right.verdict? path)) :
    left.paths = right.paths :=
  Table.ext fun path =>
    Verdicts.eq_of_known (alike _ .visited path) (alike _ .failed path)

theorem eq_of_accounts (passed : left.passed = right.passed)
    (alike : ∀ Holds, Account Holds →
      ∀ path, Holds (left.verdict? path) ↔ Holds (right.verdict? path))
    (failures : left.failures = right.failures) : left = right := by
  have paths := paths_eq_of_accounts alike
  cases left
  cases right
  rw [mk.injEq]
  exact ⟨passed, paths, failures⟩

variable (outcome part first second : Outcome) (mount inner other path : String)

theorem failures_merge :
    (outcome.merge mount part).failures =
      outcome.failures ++ part.failures.map (Failure.under mount) := rfl

theorem under_under : Failure.under mount ∘ Failure.under inner = Failure.under (mount ++ inner) :=
  funext fun failure => by
    rw [Function.comp_apply, Failure.under, Failure.under, Failure.under, String.append_assoc]

/-- A part that is on a mount already is merged as if it were on both mounts at once. -/
theorem merge_mounted :
    outcome.merge mount (empty.merge inner part) = outcome.merge (mount ++ inner) part := by
  apply eq_of_accounts
  · rw [passed_merge, passed_merge, passed_merge, passed_empty, Bool.true_and]
  · intro Holds account path
    rw [account.merge, account.merge]
    -- The empty outcome adds no path, so what lies below the outer mount lies below both.
    refine or_congr_right ⟨?_, ?_⟩
    · rintro ⟨rest, rfl, held⟩
      rw [account.merge, account.empty, false_or] at held
      obtain ⟨rest, rfl, held⟩ := held
      exact ⟨rest, String.append_assoc, held⟩
    · rintro ⟨rest, rfl, held⟩
      refine ⟨inner ++ rest, String.append_assoc.symm, ?_⟩
      exact (account.merge _ _ _ _).mpr (.inr ⟨rest, rfl, held⟩)
  · rw [failures_merge, failures_merge, failures_merge, empty, List.nil_append, List.map_map,
      under_under]

/-- Parts on one mount are merged as if they had been merged before they were mounted. -/
theorem merge_merge :
    (outcome.merge mount first).merge mount second =
      outcome.merge mount (first.merge "" second) := by
  apply eq_of_accounts
  · rw [passed_merge, passed_merge, passed_merge, passed_merge, Bool.and_assoc]
  · intro Holds account path
    rw [account.merge, account.merge, account.merge, or_assoc, ← exists_or]
    simp only [account.merge_empty, and_or_left]
  · rw [failures_merge, failures_merge, failures_merge, failures_merge_empty, List.map_append,
      List.append_assoc]

theorem empty_merge_empty : empty.merge "" part = part := by
  apply eq_of_accounts
  · rw [passed_merge, passed_empty, Bool.true_and]
  · intro Holds account path
    rw [account.merge_empty, account.empty, false_or]
  · rw [failures_merge_empty, empty, List.nil_append]

/-- The mounts may differ: paths on one may continue the other. -/
theorem merge_right_comm :
    ((outcome.merge mount first).merge other second).SameUpToOrder
      ((outcome.merge other second).merge mount first) where
  passed := Bool.and_right_comm outcome.passed first.passed second.passed
  paths := by
    apply paths_eq_of_accounts
    intro Holds account path
    rw [account.merge, account.merge, account.merge, account.merge]
    exact or_right_comm
  failures := by
    rw [failures_merge, failures_merge, failures_merge, failures_merge, List.append_assoc,
      List.append_assoc]
    exact List.perm_append_comm.append_left outcome.failures

theorem merge_comm : (first.merge "" second).SameUpToOrder (second.merge "" first) := by
  have swapped := merge_right_comm empty first second "" ""
  rwa [empty_merge_empty, empty_merge_empty] at swapped

theorem failed_merge_iff :
    (outcome.merge mount part).verdict? path = some false ↔
      outcome.verdict? path = some false ∨ part.Tells mount path false :=
  verdict?_merge_eq_false_iff

/-- A path has passed when one of the two has it as passed and none has it as failed. -/
theorem passed_merge_iff :
    (outcome.merge mount part).verdict? path = some true ↔
      (outcome.verdict? path = some true ∨ part.Tells mount path true) ∧
        ¬ (outcome.verdict? path = some false ∨ part.Tells mount path false) := by
  have visited : ((outcome.merge mount part).verdict? path).isSome = true ↔
      (outcome.verdict? path = some true ∨ part.Tells mount path true) ∨
        (outcome.verdict? path = some false ∨ part.Tells mount path false) := by
    rw [isSome_verdict?_merge]
    simp only [Verdicts.isSome_iff, and_or_left, exists_or]
    exact or_or_or_comm
  rw [Verdicts.eq_true_iff, visited, failed_merge_iff]
  exact and_congr_left fun clean => or_iff_left clean

/-- Mounts act on outcomes: a part on a mount of its own may be merged on both mounts at once, parts
on one mount may be merged first, and without a mount the empty outcome leaves a part as it is.
Whatever the mounts, the order of merging shows in the order of the failures alone: a path has
failed when something that was merged has it as failed, and passed only when nothing has. -/
theorem merge_acts :
    outcome.merge mount (empty.merge other second) = outcome.merge (mount ++ other) second ∧
    (outcome.merge mount first).merge mount second =
      outcome.merge mount (first.merge "" second) ∧
    empty.merge "" second = second ∧
    ((outcome.merge mount first).merge other second).SameUpToOrder
      ((outcome.merge other second).merge mount first) ∧
    (first.merge "" second).SameUpToOrder (second.merge "" first) ∧
    ∀ path,
      (((outcome.merge mount first).merge other second).verdict? path = some false ↔
        outcome.verdict? path = some false ∨ first.Tells mount path false ∨
          second.Tells other path false) ∧
      (((outcome.merge mount first).merge other second).verdict? path = some true ↔
        (outcome.verdict? path = some true ∨ first.Tells mount path true ∨
          second.Tells other path true) ∧
        ¬ (outcome.verdict? path = some false ∨ first.Tells mount path false ∨
          second.Tells other path false)) := by
  refine ⟨merge_mounted .., merge_merge .., empty_merge_empty second, merge_right_comm ..,
    merge_comm .., fun path => ⟨?_, ?_⟩⟩
  · rw [failed_merge_iff, failed_merge_iff, or_assoc]
  · rw [passed_merge_iff, passed_merge_iff, failed_merge_iff, or_assoc]
    refine and_congr_left fun clean => ?_
    have before : ¬ (outcome.verdict? path = some false ∨ first.Tells mount path false) :=
      fun refused => clean (or_assoc.mp (.inl refused))
    rw [and_iff_left before, or_assoc]

example :
    ((empty.merge "to." (ofFailure "city" "missing field city")).merge "to"
        (ofPass ".city")).paths =
      (ofFailure "to.city" "missing field city").paths := by decide +kernel

end Outcome

end Schemata
