import Schemata.Keyed.Table
namespace Schemata

/-! What a validation found: a verdict for each path it visited and the failures in the
order in which they were met. -/

structure Failure where
  path : String
  message : String
deriving DecidableEq

/-- The failure as it is met below a mount. -/
def Failure.under (mount : String) (failure : Failure) : Failure :=
  { failure with path := mount ++ failure.path }

/-- Whether a path and everything below it passed. -/
abbrev Verdicts := Table Bool

namespace Verdicts

/-- A verdict for a path: a failed one stays, and a passed one gives way. -/
def note (verdicts : Verdicts) (path : String) (ok : Bool) : Verdicts :=
  if ok then
    if (verdicts.get? path).isSome then verdicts else verdicts.insert path true
  else verdicts.insert path false

@[simp] theorem get?_note_self (verdicts : Verdicts) (path : String) (ok : Bool) :
    (verdicts.note path ok).get? path = some ((verdicts.get? path).getD true && ok) := by
  rw [note]
  cases ok with
  | false => simp
  | true =>
      cases found : verdicts.get? path with
      | none => simp
      | some held => simp [found]

theorem get?_note_of_ne {path other : String} (verdicts : Verdicts) (ok : Bool)
    (distinct : path ≠ other) :
    (verdicts.note path ok).get? other = verdicts.get? other := by
  rw [note]
  split
  · split
    · rfl
    · exact Table.get?_insert_of_ne _ _ distinct
  · exact Table.get?_insert_of_ne _ _ distinct

/-- A verdict is joined with the one that is held for its path. -/
theorem get?_note (verdicts : Verdicts) (path other : String) (ok : Bool) :
    (verdicts.note path ok).get? other =
      if path = other then Option.merge and (verdicts.get? other) (some ok)
      else verdicts.get? other := by
  split
  · rename_i same
    subst same
    rw [get?_note_self]
    cases verdicts.get? path <;> rfl
  · rename_i distinct
    exact get?_note_of_ne verdicts ok distinct

theorem get?_foldl_note {entries : Keyed Bool} (names : (Keyed.keys entries).Nodup)
    (verdicts : Verdicts) (mount path : String) :
    (entries.foldl (fun paths entry => paths.note (mount ++ entry.1) entry.2) verdicts).get?
        (mount ++ path) =
      Option.merge and (verdicts.get? (mount ++ path)) (Keyed.get? entries path) := by
  induction entries generalizing verdicts with
  | nil => simp
  | cons entry rest inductionHypothesis =>
      obtain ⟨fresh, names⟩ := List.nodup_cons.mp names
      rw [List.foldl_cons, inductionHypothesis names, get?_note]
      simp only [String.append_right_inj, Keyed.get?]
      split
      · rename_i same
        have absent : Keyed.get? rest path = none := by
          rw [← same, ← Option.not_isSome_iff_eq_none]
          exact mt Keyed.mem_keys_iff.mpr fresh
        rw [absent, Option.merge_none_right]
      · rfl

theorem get?_foldl_note_of_foreign {mount path : String}
    (foreign : ∀ rest, mount ++ rest ≠ path) (entries : Keyed Bool) (verdicts : Verdicts) :
    (entries.foldl (fun paths entry => paths.note (mount ++ entry.1) entry.2) verdicts).get?
      path = verdicts.get? path := by
  induction entries generalizing verdicts with
  | nil => rfl
  | cons entry rest inductionHypothesis =>
      rw [List.foldl_cons, inductionHypothesis]
      exact get?_note_of_ne verdicts entry.2 (foreign entry.1)

end Verdicts

structure Outcome where
  passed : Bool
  paths : Verdicts
  failures : List Failure
deriving DecidableEq

namespace Outcome

def empty : Outcome := ⟨true, .empty, []⟩

instance : Inhabited Outcome := ⟨empty⟩

def verdict? (outcome : Outcome) (path : String) : Option Bool := outcome.paths.get? path

def messagesFor (outcome : Outcome) (path : String) : List String :=
  (outcome.failures.filter fun failure => failure.path = path).map Failure.message

def pass (outcome : Outcome) (path : String) : Outcome :=
  { outcome with paths := outcome.paths.note path true }

def fail (outcome : Outcome) (path message : String) : Outcome :=
  ⟨false, outcome.paths.note path false, outcome.failures ++ [⟨path, message⟩]⟩

/-- The verdict for a path whose parts have been judged, without a message. -/
def mark (outcome : Outcome) (path : String) (ok : Bool) : Outcome :=
  ⟨outcome.passed && ok, outcome.paths.note path ok, outcome.failures⟩

/-- Adds the outcome for a part, whose paths are mounted on a text. -/
def merge (outcome : Outcome) (mount : String) (part : Outcome) : Outcome :=
  { passed := outcome.passed && part.passed
    paths := part.paths.entries.foldl
      (fun paths entry => paths.note (mount ++ entry.1) entry.2) outcome.paths
    failures := outcome.failures ++ part.failures.map (Failure.under mount) }

def ofPass (path : String) : Outcome := empty.pass path

def ofFailure (path message : String) : Outcome := empty.fail path message

@[simp] theorem passed_empty : empty.passed = true := rfl

@[simp] theorem passed_mark (outcome : Outcome) (path : String) (ok : Bool) :
    (outcome.mark path ok).passed = (outcome.passed && ok) := rfl

@[simp] theorem passed_merge (outcome : Outcome) (mount : String) (part : Outcome) :
    (outcome.merge mount part).passed = (outcome.passed && part.passed) := rfl

@[simp] theorem passed_ofPass (path : String) : (ofPass path).passed = true := rfl

@[simp] theorem passed_ofFailure (path message : String) :
    (ofFailure path message).passed = false := rfl

/-- Below the mount, verdicts are joined with those for the part. -/
theorem verdict?_merge (outcome : Outcome) (mount : String) (part : Outcome) (path : String) :
    (outcome.merge mount part).verdict? (mount ++ path) =
      Option.merge and (outcome.verdict? (mount ++ path)) (part.verdict? path) :=
  Verdicts.get?_foldl_note (Keyed.nodup_keys part.paths.ordered) outcome.paths mount path

theorem verdict?_merge_of_foreign {mount path : String} (foreign : ∀ rest, mount ++ rest ≠ path)
    (outcome part : Outcome) :
    (outcome.merge mount part).verdict? path = outcome.verdict? path :=
  Verdicts.get?_foldl_note_of_foreign foreign part.paths.entries outcome.paths

theorem verdict?_merge_empty (outcome part : Outcome) (path : String) :
    (outcome.merge "" part).verdict? path =
      Option.merge and (outcome.verdict? path) (part.verdict? path) := by
  simpa using outcome.verdict?_merge "" part path

end Outcome

end Schemata
