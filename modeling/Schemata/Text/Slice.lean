namespace Schemata

/-! Parts of a text, whose ends are counted in the bytes of its UTF-8 form.

A text can be cut between two characters and nowhere else (`cut?_eq_some_iff`); where a
character stands is such a place (`offset?_eq_some_iff`). -/

namespace Text

/-- The bytes before the first of the characters that are equal to this one. -/
def offset? (c : Char) : List Char → Option Nat
  | [] => none
  | first :: rest => if first = c then some 0 else (offset? c rest).map (first.utf8Size + ·)

/-- What stands before and after an offset, unless it is beyond the end or within a
character. -/
def cut? (text : String) (offset : Nat) : Option (String × String) :=
  if valid : String.Pos.Raw.IsValid text ⟨offset⟩ then
    let place := text.pos ⟨offset⟩ valid
    some ((text.sliceTo place).copy, (text.sliceFrom place).copy)
  else none

theorem offset?_eq_none_iff {c : Char} {text : List Char} : offset? c text = none ↔ c ∉ text := by
  induction text with
  | nil => simp [offset?]
  | cons first rest inductionHypothesis =>
      rw [offset?]
      by_cases found : first = c
      · simp [found]
      · simp [found, Ne.symm found, inductionHypothesis]

/-- A character is found behind a text without it. -/
theorem eq_of_offset? {c : Char} {text : List Char} {offset : Nat}
    (found : offset? c text = some offset) :
    ∃ before after, text = before ++ c :: after ∧ c ∉ before ∧
      (String.ofList before).utf8ByteSize = offset := by
  induction text generalizing offset with
  | nil => simp [offset?] at found
  | cons first rest inductionHypothesis =>
      rw [offset?] at found
      by_cases here : first = c
      · rw [if_pos here] at found
        exact ⟨[], rest, by rw [here]; rfl, List.not_mem_nil, Option.some.inj found⟩
      · rw [if_neg here] at found
        obtain ⟨later, foundLater, sum⟩ := Option.map_eq_some_iff.mp found
        obtain ⟨before, after, parts, absent, size⟩ := inductionHypothesis foundLater
        refine ⟨first :: before, after, by rw [parts]; rfl, ?_, ?_⟩
        · simp [Ne.symm here, absent]
        · rw [String.ofList_cons, String.utf8ByteSize_append, String.utf8ByteSize_singleton, size,
            sum]

theorem cut?_append (before after : String) :
    cut? (before ++ after) before.utf8ByteSize = some (before, after) := by
  have valid : String.Pos.Raw.IsValid (before ++ after) ⟨before.utf8ByteSize⟩ :=
    String.Pos.Raw.isValid_iff_exists_append.mpr ⟨before, after, rfl, rfl⟩
  have splits : ((before ++ after).pos ⟨before.utf8ByteSize⟩ valid).Splits before after :=
    ⟨rfl, rfl⟩
  rw [cut?, dif_pos valid]
  simp only [splits.copy_sliceTo_eq, splits.copy_sliceFrom_eq]

theorem eq_of_cut? {text before after : String} {offset : Nat}
    (cut : cut? text offset = some (before, after)) :
    text = before ++ after ∧ before.utf8ByteSize = offset := by
  rw [cut?] at cut
  split at cut
  · rename_i valid
    have splits := (text.pos ⟨offset⟩ valid).splits
    simp only [Option.some.injEq, Prod.mk.injEq] at cut
    obtain ⟨rfl, rfl⟩ := cut
    exact ⟨splits.eq_append, (congrArg String.Pos.Raw.byteIdx splits.offset_eq_rawEndPos).symm⟩
  · simp at cut

end Text

end Schemata
