import Schemata.Proofs.Number.Numeral
namespace Schemata

/-! The order of numbers, and what stands outside of it.

Two numbers of which neither is a NaN are in the one relation or in the other
(`Number.lt_eq_false_iff`), so what is not below a limit is above it.  A NaN is not below and not
above anything (`Number.unrelated_iff`).  No arithmetic here comes to one, and a text is read as
one only where it names it. -/

/-- The name of what is not a number, with a sign that may be missing. -/
def Decimal.NaN (text : List Char) : Prop :=
  ∃ sign name, Sign sign ∧ name.map Char.toLower = "nan".toList ∧ text = sign ++ name

namespace Number

/-- The one number is below the other, or is the same value. -/
def AtMost (left right : Number) : Prop := left.lt right = true ∨ left.same right = true

theorem lt_eq_false_iff {left right : Number} (leftNumber : left ≠ .nan)
    (rightNumber : right ≠ .nan) : left.lt right = false ↔ right.AtMost left := by
  cases left with
  | nan => exact absurd rfl leftNumber
  | finite left =>
      cases right with
      | nan => exact absurd rfl rightNumber
      | finite right =>
          simp only [lt, AtMost, same, decide_eq_false_iff_not, decide_eq_true_eq, beq_iff_eq]
          omega
      | infinite negative => simp [lt, AtMost, same]
  | infinite negative =>
      cases right with
      | nan => exact absurd rfl rightNumber
      | finite right => simp [lt, AtMost, same]
      | infinite other => cases negative <;> cases other <;> simp [lt, AtMost, same]

/-- A limit that nothing is below and nothing is above is a NaN. -/
theorem unrelated_iff {limit : Number} :
    (∀ size : Number, size.lt limit = false ∧ limit.lt size = false) ↔ limit = .nan := by
  constructor
  · intro unrelated
    cases limit with
    | nan => rfl
    | finite value => simpa [lt] using (unrelated (.infinite true)).1
    | infinite negative =>
        have both := unrelated (.finite (.zero false))
        simp [lt] at both
  · rintro rfl size
    exact ⟨by cases size <;> rfl, rfl⟩

theorem ofRatio_ne_nan (negative : Bool) (num den : Nat) : ofRatio negative num den ≠ .nan := by
  rw [ofRatio, ofSteps]
  split <;> simp

theorem ofInt_ne_nan (whole : Int) : ofInt whole ≠ .nan :=
  ofRatio_ne_nan _ _ _

theorem ofDecimal_ne_nan (negative : Bool) (digits : Nat) (exponent : Int) :
    ofDecimal negative digits exponent ≠ .nan := by
  rw [ofDecimal]
  repeat' split
  all_goals first | exact ofRatio_ne_nan _ _ _ | simp

section Texts

open Decimal

theorem ofUnsigned?_eq_nan_iff {negative : Bool} {text : List Char} :
    ofUnsigned? negative text = some .nan ↔ text.map Char.toLower = "nan".toList := by
  have counted : ∀ {whole fraction rest : List Char} {exponent : Int → Int},
      (if whole.isEmpty && fraction.isEmpty then none
        else (exponent? rest).map fun scale =>
          ofDecimal negative (value (whole ++ fraction)) (exponent scale)) ≠ some .nan := by
    intro whole fraction rest exponent read
    split at read
    · simp at read
    · obtain ⟨scale, _, number⟩ := Option.map_eq_some_iff.mp read
      exact ofDecimal_ne_nan _ _ _ number
  rw [ofUnsigned?]
  dsimp only
  split
  · rename_i infinite
    simp only [Bool.or_eq_true, decide_eq_true_eq] at infinite
    refine iff_of_false (by simp) fun name => ?_
    rw [name] at infinite
    simp at infinite
  · split
    · rename_i name
      exact iff_of_true rfl (by simpa using name)
    · rename_i other
      exact iff_of_false counted (by simpa using other)

/-- The texts that are read as what is not a number. -/
theorem ofText?_eq_nan_iff {text : List Char} : ofText? text = some .nan ↔ NaN text := by
  rw [ofText?]
  dsimp only
  rw [ofUnsigned?_eq_nan_iff]
  constructor
  · intro name
    obtain ⟨sign, signed, parts⟩ := splitSign_spec text
    exact ⟨sign, _, signed, name, parts⟩
  · rintro ⟨sign, name, signed, named, rfl⟩
    rwa [splitSign_append signed (Magnitude.nan named).unsigned]

end Texts

end Number

end Schemata
