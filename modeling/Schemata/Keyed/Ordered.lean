import Schemata.Keyed
namespace Schemata

/-! Keys in ascending order.

Writing with `insert` and erasing keep the order, and ordered lists that answer alike
are equal (`eq_of_get?`), so an ordered list is determined by the map that it stands
for. -/

universe u v

namespace Keyed

variable {α : Type u} {β : Type v} {members left right : Keyed α} {key : String}

/-- The keys ascend, so none comes twice. -/
def Ordered (members : Keyed α) : Prop := (keys members).Pairwise (· < ·)

theorem mem_keys_iff : key ∈ keys members ↔ contains members key = true := by
  induction members with
  | nil => simp [keys, contains]
  | cons entry rest inductionHypothesis =>
      by_cases same : entry.1 = key
      · simp [keys, contains, get?, same]
      · simp only [contains] at inductionHypothesis
        simp only [keys, List.map_cons, List.mem_cons, contains, get?, same, ↓reduceIte]
        rw [← inductionHypothesis, keys]
        simp [Ne.symm same]

theorem keys_replace (value : α) : keys (replace members key value) = keys members := by
  induction members with
  | nil => rfl
  | cons entry rest inductionHypothesis =>
      simp only [replace]
      split
      · rfl
      · exact congrArg (entry.1 :: ·) inductionHypothesis

theorem keys_put_of_absent (value : α) (absent : key ∉ keys members) :
    keys (put members key value) = keys members ++ [key] := by
  rw [put, if_neg (mt mem_keys_iff.mpr absent)]
  simp [keys]

theorem mem_keys_place {name : String} {value : α} :
    name ∈ keys (place members key value) ↔ name = key ∨ name ∈ keys members := by
  induction members with
  | nil => simp [place, keys]
  | cons entry rest inductionHypothesis =>
      simp only [place]
      split
      · simp [keys]
      · simp only [keys, List.map_cons, List.mem_cons] at inductionHypothesis ⊢
        rw [inductionHypothesis]
        exact or_left_comm

@[simp] theorem ordered_nil : Ordered ([] : Keyed α) := List.Pairwise.nil

theorem ordered_cons {entry : String × α} :
    Ordered (entry :: members) ↔ (∀ name ∈ keys members, entry.1 < name) ∧ Ordered members :=
  List.pairwise_cons

theorem ordered_place (value : α) (ordered : Ordered members)
    (fresh : key ∉ keys members) : Ordered (place members key value) := by
  induction members with
  | nil => exact List.pairwise_singleton _ _
  | cons entry rest inductionHypothesis =>
      obtain ⟨above, rest_ordered⟩ := ordered_cons.mp ordered
      simp only [keys, List.map_cons, List.mem_cons, not_or] at fresh
      simp only [place]
      split
      · rename_i before
        refine ordered_cons.mpr ⟨fun name member => ?_, ordered⟩
        rcases List.mem_cons.mp member with same | later
        · exact same ▸ before
        · exact String.lt_trans before (above name later)
      · rename_i notBefore
        refine ordered_cons.mpr ⟨fun name member => ?_,
          inductionHypothesis rest_ordered fresh.2⟩
        rcases mem_keys_place.mp member with same | old
        · exact same ▸ Std.lt_of_le_of_ne (String.not_lt.mp notBefore) (Ne.symm fresh.1)
        · exact above name old

theorem ordered_insert (key : String) (value : α) (ordered : Ordered members) :
    Ordered (insert members key value) := by
  rw [insert]
  split
  · rw [Ordered]
    rw [keys_replace]
    exact ordered
  · rename_i absent
    exact ordered_place value ordered fun member => absent (mem_keys_iff.mp member)

theorem ordered_erase (key : String) (ordered : Ordered members) :
    Ordered (erase members key) :=
  List.Pairwise.sublist (List.filter_sublist.map Prod.fst) ordered

theorem ordered_ofList (entries : List (String × α)) : Ordered (ofList entries) := by
  suffices kept : ∀ start : Keyed α, Ordered start →
      Ordered (entries.foldl (fun members entry => insert members entry.1 entry.2) start) from
    kept [] ordered_nil
  induction entries with
  | nil => exact fun _ ordered => ordered
  | cons entry rest inductionHypothesis =>
      exact fun start ordered =>
        inductionHypothesis _ (ordered_insert entry.1 entry.2 ordered)

theorem get?_eq_none_of_lt (below : ∀ name ∈ keys members, key < name) :
    get? members key = none := by
  cases found : get? members key with
  | none => rfl
  | some value =>
      have member : key ∈ keys members := mem_keys_iff.mpr (by simp [contains, found])
      exact absurd (below key member) (String.lt_irrefl key)

/-- A list that answers alike does not start below an ordered one. -/
theorem not_lt_head {entry other : String × α} {rest others : Keyed α}
    (ordered : Ordered (other :: others))
    (alike : ∀ key, get? (entry :: rest) key = get? (other :: others) key) :
    ¬ entry.1 < other.1 := by
  intro before
  have above := (ordered_cons.mp ordered).1
  have gone : get? (other :: others) entry.1 = none :=
    get?_eq_none_of_lt fun name member => by
      rcases List.mem_cons.mp member with same | later
      · exact same ▸ before
      · exact String.lt_trans before (above name later)
  have here := alike entry.1
  rw [gone] at here
  simp [get?] at here

theorem eq_of_get? (left_ordered : Ordered left) (right_ordered : Ordered right)
    (alike : ∀ key, get? left key = get? right key) : left = right := by
  induction left generalizing right with
  | nil =>
      cases right with
      | nil => rfl
      | cons entry rest => simpa [get?] using alike entry.1
  | cons entry rest inductionHypothesis =>
      cases right with
      | nil => simpa [get?] using alike entry.1
      | cons other others =>
          obtain ⟨above, rest_ordered⟩ := ordered_cons.mp left_ordered
          obtain ⟨otherAbove, others_ordered⟩ := ordered_cons.mp right_ordered
          have same : entry.1 = other.1 :=
            String.le_antisymm
              (String.not_lt.mp (not_lt_head left_ordered fun key => (alike key).symm))
              (String.not_lt.mp (not_lt_head right_ordered alike))
          have value : entry.2 = other.2 := by
            simpa [get?, same] using alike entry.1
          have equal : rest = others := by
            apply inductionHypothesis rest_ordered others_ordered
            intro key
            by_cases first : entry.1 = key
            · rw [get?_eq_none_of_lt fun name member => first ▸ above name member,
                get?_eq_none_of_lt fun name member => first ▸ same ▸ otherAbove name member]
            · have here := alike key
              simp only [get?, first, same ▸ first, ↓reduceIte] at here
              exact here
          rw [equal, Prod.ext same value]

theorem ordered_mapValues (f : α → β) (ordered : Ordered members) :
    Ordered (mapValues f members) := by
  rw [Ordered]
  rw [keys_mapValues]
  exact ordered

theorem ordered_filter (test : String × α → Bool) (ordered : Ordered members) :
    Ordered (members.filter test) :=
  List.Pairwise.sublist (List.filter_sublist.map Prod.fst) ordered

theorem get?_of_mem {value : α} (ordered : Ordered members) (member : (key, value) ∈ members) :
    get? members key = some value := by
  induction members with
  | nil => simp at member
  | cons entry rest inductionHypothesis =>
      obtain ⟨above, rest_ordered⟩ := ordered_cons.mp ordered
      rcases List.mem_cons.mp member with rfl | later
      · simp [get?]
      · have after := above key (List.mem_map.mpr ⟨_, later, rfl⟩)
        have other : entry.1 ≠ key := fun same => String.lt_irrefl key (same ▸ after)
        simpa [get?, other] using inductionHypothesis rest_ordered later

theorem nodup_keys (ordered : Ordered members) : (keys members).Nodup := by
  refine List.Pairwise.imp ?_ ordered
  rintro left right before rfl
  exact String.lt_irrefl left before

/-- Of entries written one after the other, the last of a key is found. -/
theorem get?_ofList_eq (entries : List (String × α)) (key : String) :
    get? (ofList entries) key = get? entries.reverse key := by
  suffices found : ∀ start : Keyed α,
      get? (entries.foldl (fun members entry => insert members entry.1 entry.2) start) key =
        (get? entries.reverse key).or (get? start key) by
    rw [ofList, found [], get?_nil, Option.or_none]
  induction entries with
  | nil => simp
  | cons entry rest inductionHypothesis =>
      intro start
      rw [List.foldl_cons, inductionHypothesis, List.reverse_cons, get?_append, Option.or_assoc]
      by_cases same : entry.1 = key
      · simp [get?, same]
      · simp [get?, same, get?_insert_of_ne start entry.2 same]

theorem contains_reverse : contains members.reverse key = contains members key := by
  rw [Bool.eq_iff_iff, ← mem_keys_iff, ← mem_keys_iff, keys, keys, List.map_reverse,
    List.mem_reverse]

theorem get?_reverse (names : (keys members).Nodup) (key : String) :
    get? members.reverse key = get? members key := by
  induction members with
  | nil => rfl
  | cons entry rest inductionHypothesis =>
      obtain ⟨fresh, names⟩ := List.nodup_cons.mp names
      rw [List.reverse_cons, get?_append, inductionHypothesis names]
      by_cases same : entry.1 = key
      · have absent : get? rest key = none := by
          rw [← Option.not_isSome_iff_eq_none]
          exact same ▸ mt mem_keys_iff.mpr fresh
        simp [get?, same, absent]
      · simp [get?, same]

theorem get?_ofList {entries : List (String × α)} (names : (keys entries).Nodup)
    (key : String) : get? (ofList entries) key = get? entries key :=
  (get?_ofList_eq entries key).trans (get?_reverse names key)

theorem ofList_of_ordered (ordered : Ordered members) : ofList members = members :=
  eq_of_get? (ordered_ofList members) ordered (get?_ofList (nodup_keys ordered))

end Keyed

end Schemata
