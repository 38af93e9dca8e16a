namespace Schemata

/-! Values under text keys.

`get?` is the view: a list of pairs stands for the map that answers with the first
pair of a key.  Two ways to write differ only in where a new key goes: `put` keeps
the order of arrival, `insert` keeps keys in ascending order.  An entry that is
already there is overwritten in its place by both, so writing back the value that
is held changes nothing, whatever the list.
-/

universe u v w

abbrev Keyed (α : Type u) := List (String × α)

namespace Keyed

variable {α : Type u} {β : Type v}

def get? : Keyed α → String → Option α
  | [], _ => none
  | (name, value) :: rest, key => if name = key then some value else get? rest key

def contains (members : Keyed α) (key : String) : Bool :=
  (get? members key).isSome

def keys (members : Keyed α) : List String :=
  members.map Prod.fst

def replace : Keyed α → String → α → Keyed α
  | [], _, _ => []
  | (name, old) :: rest, key, value =>
      if name = key then (name, value) :: rest else (name, old) :: replace rest key value

/-- Adds an entry before the first larger key. -/
def place : Keyed α → String → α → Keyed α
  | [], key, value => [(key, value)]
  | (name, old) :: rest, key, value =>
      if key < name then (key, value) :: (name, old) :: rest
      else (name, old) :: place rest key value

/-- Writes in order of arrival. -/
def put (members : Keyed α) (key : String) (value : α) : Keyed α :=
  if contains members key then replace members key value else members ++ [(key, value)]

/-- Writes in ascending order of keys. -/
def insert (members : Keyed α) (key : String) (value : α) : Keyed α :=
  if contains members key then replace members key value else place members key value

def erase (members : Keyed α) (key : String) : Keyed α :=
  members.filter fun entry => entry.1 ≠ key

/-- The entries written one after the other, a later one over an earlier one of its
key. -/
def ofList (entries : List (String × α)) : Keyed α :=
  entries.foldl (fun members entry => insert members entry.1 entry.2) []

/-- The same, in order of arrival. -/
def inOrder (entries : List (String × α)) : Keyed α :=
  entries.foldl (fun members entry => put members entry.1 entry.2) []

/-- The member of a key if there is a value for it. -/
def optional (key : String) : Option α → Keyed α
  | none => []
  | some value => [(key, value)]

def mapValues (f : α → β) (members : Keyed α) : Keyed β :=
  members.map fun entry => (entry.1, f entry.2)

@[simp] theorem get?_nil (key : String) : get? ([] : Keyed α) key = none := rfl

theorem contains_iff {members : Keyed α} {key : String} :
    contains members key = true ↔ ∃ value, get? members key = some value := by
  simp [contains, Option.isSome_iff_exists]

theorem get?_replace_self {members : Keyed α} {key : String} (value : α)
    (held : contains members key = true) :
    get? (replace members key value) key = some value := by
  induction members with
  | nil => simp [contains] at held
  | cons entry rest inductionHypothesis =>
      simp only [replace]
      split
      · rename_i same
        simp [get?, same]
      · rename_i other
        simp only [contains, get?, other, ↓reduceIte] at held
        simpa [get?, other] using inductionHypothesis held

theorem get?_replace_of_ne {key other : String} (members : Keyed α) (value : α)
    (distinct : key ≠ other) :
    get? (replace members key value) other = get? members other := by
  induction members with
  | nil => rfl
  | cons entry rest inductionHypothesis =>
      simp only [replace]
      split
      · rename_i same
        simp [get?, same, distinct]
      · simp [get?, inductionHypothesis]

theorem get?_place_self {members : Keyed α} {key : String} (value : α)
    (absent : get? members key = none) :
    get? (place members key value) key = some value := by
  induction members with
  | nil => simp [place, get?]
  | cons entry rest inductionHypothesis =>
      have other : entry.1 ≠ key := by
        intro same
        simp [get?, same] at absent
      simp only [get?, other, ↓reduceIte] at absent
      simp only [place]
      split
      · simp [get?]
      · simpa [get?, other] using inductionHypothesis absent

theorem get?_place_of_ne {key other : String} (members : Keyed α) (value : α)
    (distinct : key ≠ other) :
    get? (place members key value) other = get? members other := by
  induction members with
  | nil => simp [place, get?, distinct]
  | cons entry rest inductionHypothesis =>
      simp only [place]
      split
      · simp [get?, distinct]
      · simp [get?, inductionHypothesis]

@[simp] theorem get?_insert_self (members : Keyed α) (key : String) (value : α) :
    get? (insert members key value) key = some value := by
  rw [insert]
  split
  · rename_i held
    exact get?_replace_self value held
  · rename_i absent
    exact get?_place_self value (by simpa [contains] using absent)

theorem get?_insert_of_ne {key other : String} (members : Keyed α) (value : α)
    (distinct : key ≠ other) :
    get? (insert members key value) other = get? members other := by
  rw [insert]
  split
  · exact get?_replace_of_ne members value distinct
  · exact get?_place_of_ne members value distinct

theorem get?_append (left right : Keyed α) (key : String) :
    get? (left ++ right) key = (get? left key).or (get? right key) := by
  induction left with
  | nil => simp
  | cons entry rest inductionHypothesis =>
      simp only [List.cons_append, get?]
      split
      · simp
      · exact inductionHypothesis

theorem get?_optional (key : String) (value : Option α) (other : String) :
    get? (optional key value) other = if key = other then value else none := by
  cases value with
  | none => simp [optional]
  | some value => simp [optional, get?]

theorem forall_mem_optional {key : String} {value : Option α} {holds : α → Prop} :
    (∀ entry ∈ optional key value, holds entry.2) ↔
      ∀ present, value = some present → holds present := by
  cases value <;> simp [optional]

theorem keys_optional_sublist (key : String) (value : Option α) :
    (keys (optional key value)).Sublist [key] := by
  cases value with
  | none => exact List.nil_sublist _
  | some value => exact List.Sublist.refl _

@[simp] theorem get?_put_self (members : Keyed α) (key : String) (value : α) :
    get? (put members key value) key = some value := by
  rw [put]
  split
  · rename_i held
    exact get?_replace_self value held
  · rename_i absent
    have empty : get? members key = none := by simpa [contains] using absent
    simp [get?_append, empty, get?]

theorem get?_put_of_ne {key other : String} (members : Keyed α) (value : α)
    (distinct : key ≠ other) :
    get? (put members key value) other = get? members other := by
  rw [put]
  split
  · exact get?_replace_of_ne members value distinct
  · simp [get?_append, get?, distinct]

@[simp] theorem get?_erase_self (members : Keyed α) (key : String) :
    get? (erase members key) key = none := by
  induction members with
  | nil => rfl
  | cons entry rest inductionHypothesis =>
      simp only [erase, List.filter_cons]
      split
      · rename_i other
        simp only [ne_eq, decide_not, Bool.not_eq_eq_eq_not, Bool.not_true,
          decide_eq_false_iff_not] at other
        simpa [get?, other, erase] using inductionHypothesis
      · simpa [erase] using inductionHypothesis

theorem get?_erase_of_ne {key other : String} (members : Keyed α)
    (distinct : key ≠ other) :
    get? (erase members key) other = get? members other := by
  induction members with
  | nil => rfl
  | cons entry rest inductionHypothesis =>
      simp only [erase, List.filter_cons]
      split
      · simpa [get?, erase] using
          congrArg (fun tail => if entry.1 = other then some entry.2 else tail)
            inductionHypothesis
      · rename_i same
        have key_eq : entry.1 = key := by simpa using same
        simpa [get?, key_eq, distinct, erase] using inductionHypothesis

theorem insert_of_get? {members : Keyed α} {key : String} {value : α}
    (found : get? members key = some value) : insert members key value = members := by
  have held : contains members key = true := contains_iff.mpr ⟨value, found⟩
  simp only [insert, held, ↓reduceIte]
  clear held
  induction members with
  | nil => simp at found
  | cons entry rest inductionHypothesis =>
      simp only [get?] at found
      simp only [replace]
      split
      · rename_i same
        simp only [same, ↓reduceIte, Option.some.injEq] at found
        simp [← found]
      · rename_i other
        simp only [other, ↓reduceIte] at found
        simp [inductionHypothesis found]

theorem replace_replace (members : Keyed α) (key : String) (first second : α) :
    replace (replace members key first) key second = replace members key second := by
  induction members with
  | nil => rfl
  | cons entry rest inductionHypothesis =>
      simp only [replace]
      split
      · rename_i same
        simp [replace, same]
      · rename_i other
        simp [replace, other, inductionHypothesis]

theorem replace_place {members : Keyed α} {key : String} (first second : α)
    (absent : get? members key = none) :
    replace (place members key first) key second = place members key second := by
  induction members with
  | nil => simp [place, replace]
  | cons entry rest inductionHypothesis =>
      have other : entry.1 ≠ key := by
        intro same
        simp [get?, same] at absent
      simp only [get?, other, ↓reduceIte] at absent
      simp only [place]
      split
      · simp [replace]
      · simp [replace, other, inductionHypothesis absent]

theorem insert_insert (members : Keyed α) (key : String) (first second : α) :
    insert (insert members key first) key second = insert members key second := by
  have held : contains (insert members key first) key = true :=
    contains_iff.mpr ⟨first, get?_insert_self members key first⟩
  rw [insert, if_pos held]
  simp only [insert]
  split
  · exact replace_replace members key first second
  · rename_i absent
    exact replace_place first second (by simpa [contains] using absent)

theorem mem_of_get? {members : Keyed α} {key : String} {value : α}
    (found : get? members key = some value) : (key, value) ∈ members := by
  induction members with
  | nil => simp at found
  | cons entry rest inductionHypothesis =>
      simp only [get?] at found
      split at found
      · rename_i same
        rw [← Option.some.inj found, ← same]
        exact .head _
      · exact .tail _ (inductionHypothesis found)

@[simp] theorem get?_mapValues (f : α → β) (members : Keyed α) (key : String) :
    get? (mapValues f members) key = (get? members key).map f := by
  induction members with
  | nil => rfl
  | cons entry rest inductionHypothesis =>
      simp only [mapValues, List.map_cons, get?] at inductionHypothesis ⊢
      split
      · rfl
      · exact inductionHypothesis

@[simp] theorem keys_mapValues (f : α → β) (members : Keyed α) :
    keys (mapValues f members) = keys members := by
  simp [keys, mapValues]

theorem mapValues_mapValues {γ : Type w} (f : β → γ) (g : α → β) (members : Keyed α) :
    mapValues f (mapValues g members) = mapValues (f ∘ g) members := by
  simp [mapValues]

theorem mapValues_congr {f g : α → β} {members : Keyed α}
    (same : ∀ entry ∈ members, f entry.2 = g entry.2) :
    mapValues f members = mapValues g members :=
  List.map_congr_left fun entry member => by rw [same entry member]

theorem get?_filter (test : String → Bool) (members : Keyed α) (key : String) :
    get? (members.filter fun entry => test entry.1) key =
      if test key then get? members key else none := by
  induction members with
  | nil => simp
  | cons entry rest inductionHypothesis =>
      simp only [List.filter_cons]
      by_cases same : entry.1 = key
      · cases kept : test key with
        | true => simp [get?, same, kept]
        | false => simpa [get?, same, kept] using inductionHypothesis
      · split
        · simpa [get?, same] using inductionHypothesis
        · simpa [get?, same] using inductionHypothesis

end Keyed

end Schemata
