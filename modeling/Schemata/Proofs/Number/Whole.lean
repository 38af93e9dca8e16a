import Schemata.Number.Basic
namespace Schemata

/-! Whole numbers of up to 53 bits are exact, and a number that is one is known by it up to
the sign of zero. -/

theorem stepsPerOne_pos : 0 < stepsPerOne := by
  unfold stepsPerOne
  exact powerOfTwo_pos 1074

theorem nearestQuotient_mul (quotient : Nat) {den : Nat} (positive : 0 < den) :
    nearestQuotient (quotient * den) den = quotient := by
  rw [nearestQuotient]
  simp [Nat.mul_div_cancel quotient positive, positive]

theorem powerOfTwo_droppedBits_le {whole : Nat} (positive : 0 < whole) :
    powerOfTwo (droppedBits whole) ≤ whole := by
  have below : powerOfTwo whole.log2 ≤ whole := Nat.log2_self_le (by omega)
  exact Nat.le_trans (powerOfTwo_le (by unfold droppedBits; omega)) below

theorem roundedSteps_exact {significand : Nat} (shift : Nat)
    (small : significand < powerOfTwo 53) :
    roundedSteps (significand * powerOfTwo shift) 1 = significand * powerOfTwo shift := by
  by_cases zero : significand = 0
  · subst zero
    simp [roundedSteps, nearestQuotient, powerOfTwo_pos]
  · have positive : significand * powerOfTwo shift ≠ 0 := by
      have scale := powerOfTwo_pos shift
      exact Nat.mul_ne_zero zero (by omega)
    have bits : (significand * powerOfTwo shift).log2 < 53 + shift := by
      rw [Nat.log2_lt positive]
      calc significand * powerOfTwo shift < powerOfTwo 53 * powerOfTwo shift :=
            Nat.mul_lt_mul_of_pos_right small (powerOfTwo_pos shift)
        _ = 2 ^ (53 + shift) := (powerOfTwo_add 53 shift).symm
    have dropped : droppedBits (significand * powerOfTwo shift) ≤ shift := by
      rw [droppedBits]
      omega
    obtain ⟨kept, shift_eq⟩ := Nat.exists_eq_add_of_le' dropped
    have scaled : significand * powerOfTwo shift =
        significand * powerOfTwo kept *
          powerOfTwo (droppedBits (significand * powerOfTwo shift)) := by
      rw [Nat.mul_assoc, ← powerOfTwo_add, ← shift_eq]
    rw [roundedSteps]
    simp only [Nat.div_one, Nat.one_mul]
    generalize droppedBits (significand * powerOfTwo shift) = dropped at scaled
    rw [scaled, nearestQuotient_mul _ (powerOfTwo_pos dropped)]

theorem roundedSteps_le (steps : Nat) : roundedSteps steps 1 ≤ 2 * steps := by
  by_cases zero : steps = 0
  · subst zero
    decide
  · have scale := powerOfTwo_droppedBits_le (by omega : 0 < steps)
    have near := nearestQuotient_le steps (powerOfTwo (droppedBits steps))
    have whole := Nat.div_mul_le_self steps (powerOfTwo (droppedBits steps))
    have rounded := Nat.mul_le_mul_right (powerOfTwo (droppedBits steps)) near
    simp only [roundedSteps, Nat.div_one, Nat.one_mul]
    rw [Nat.add_mul, Nat.one_mul] at rounded
    omega

theorem Finite.eq_of_parts {left right : Finite} (negative : left.negative = right.negative)
    (steps : left.steps = right.steps) : left = right := by
  cases left
  cases right
  simp_all

namespace Number

/-- Both zeros as one. -/
def canonical : Number → Number
  | .finite value => .finite (if value.isZero then .zero false else value)
  | number => number

/-- The integers of 1023 bits are finite as numbers. -/
theorem ofInt_finite {whole : Int} (small : whole.natAbs < powerOfTwo 1023) :
    ∃ value, ofInt whole = .finite value := by
  have bounded : roundedSteps (whole.natAbs * stepsPerOne) 1 < stepsLimit := by
    calc roundedSteps (whole.natAbs * stepsPerOne) 1 ≤ 2 * (whole.natAbs * stepsPerOne) :=
          roundedSteps_le _
      _ < 2 * (powerOfTwo 1023 * stepsPerOne) := by
          have scaled := Nat.mul_lt_mul_of_pos_right small stepsPerOne_pos
          omega
      _ = stepsLimit := by
          unfold stepsPerOne stepsLimit
          rw [← powerOfTwo_add, ← powerOfTwo_succ]
  rw [ofInt, ofRatio, ofSteps]
  rw [dif_pos bounded]
  exact ⟨_, rfl⟩

theorem roundedSteps_of_safe {whole : Int} (safe : whole.natAbs ≤ largestSafeInt) :
    roundedSteps (whole.natAbs * stepsPerOne) 1 = whole.natAbs * stepsPerOne := by
  have small : whole.natAbs < powerOfTwo 53 := by
    have positive := powerOfTwo_pos 53
    rw [largestSafeInt] at safe
    omega
  unfold stepsPerOne
  exact roundedSteps_exact 1074 small

theorem ofInt_safe {whole : Int} (safe : whole.natAbs ≤ largestSafeInt) :
    ∃ value : Finite, ofInt whole = .finite value ∧ value.negative = decide (whole < 0) ∧
      value.steps = whole.natAbs * stepsPerOne := by
  have small : whole.natAbs < powerOfTwo 1023 := by
    have limit : largestSafeInt < powerOfTwo 1023 := by decide +kernel
    omega
  obtain ⟨value, found⟩ := ofInt_finite small
  have shape := found
  rw [ofInt, ofRatio, ofSteps] at shape
  split at shape
  · simp only [finite.injEq] at shape
    subst shape
    exact ⟨_, found, rfl, roundedSteps_of_safe safe⟩
  · simp at shape

theorem toInt?_of_steps {value : Finite} {magnitude : Nat}
    (steps : value.steps = magnitude * stepsPerOne) :
    value.toInt? = some (if value.negative then -(magnitude : Int) else magnitude) := by
  have divides : value.steps % stepsPerOne = 0 := by rw [steps, Nat.mul_mod_left]
  have quotient : value.steps / stepsPerOne = magnitude := by
    rw [steps, Nat.mul_div_cancel _ stepsPerOne_pos]
  rw [Finite.toInt?, if_pos divides, quotient]

theorem toSafeInt?_ofInt {whole : Int} (safe : whole.natAbs ≤ largestSafeInt) :
    (ofInt whole).toSafeInt? = some whole := by
  obtain ⟨value, found, sign, steps⟩ := ofInt_safe safe
  have signed : (if value.negative then -(whole.natAbs : Int) else whole.natAbs) = whole := by
    by_cases below : whole < 0
    · rw [sign, decide_eq_true below, if_pos rfl]
      omega
    · rw [sign, decide_eq_false below, if_neg Bool.false_ne_true]
      omega
  rw [found, toSafeInt?, toInt?_of_steps steps, signed]
  exact Option.filter_eq_some_iff.mpr ⟨rfl, decide_eq_true safe⟩

theorem toInt?_eq_some {value : Finite} {whole : Int} (found : value.toInt? = some whole) :
    value.steps = whole.natAbs * stepsPerOne ∧
      (value.negative = true → whole ≤ 0) ∧ (value.negative = false → 0 ≤ whole) := by
  rw [Finite.toInt?] at found
  split at found
  · rename_i divides
    have steps := Nat.div_mul_cancel (Nat.dvd_of_mod_eq_zero divides)
    generalize value.steps / stepsPerOne = magnitude at found steps
    cases sign : value.negative with
    | true =>
        simp only [sign, ↓reduceIte, Option.some.injEq] at found
        have size : whole.natAbs = magnitude := by omega
        exact ⟨size ▸ steps.symm, fun _ => by omega, fun impossible => by simp at impossible⟩
    | false =>
        simp only [sign, Bool.false_eq_true, ↓reduceIte, Option.some.injEq] at found
        have size : whole.natAbs = magnitude := by omega
        exact ⟨size ▸ steps.symm, fun impossible => by simp at impossible, fun _ => by omega⟩
  · simp at found

theorem toInt?_eq_natCast_iff {value : Finite} {count : Nat} :
    value.toInt? = some (count : Int) ↔ value.signedSteps = (count * stepsPerOne : Nat) := by
  have positive := stepsPerOne_pos
  rw [Finite.signedSteps]
  constructor
  · intro found
    obtain ⟨steps, below, _⟩ := toInt?_eq_some found
    rw [Int.natAbs_natCast] at steps
    cases sign : value.negative with
    | false => simp [steps]
    | true =>
        have zero : count = 0 := by have := below sign; omega
        simp [steps, zero]
  · intro size
    cases sign : value.negative with
    | false =>
        simp only [sign, Bool.false_eq_true, ↓reduceIte, Int.ofNat_inj] at size
        rw [toInt?_of_steps size, sign]
        simp
    | true =>
        -- Only a zero has a minus sign and is no less than zero.
        simp only [sign, ↓reduceIte] at size
        have product : count * stepsPerOne = 0 := by omega
        have zero : count = 0 := (Nat.mul_eq_zero.mp product).resolve_right (by omega)
        have steps : value.steps = 0 * stepsPerOne := by omega
        rw [toInt?_of_steps steps, zero]
        simp

theorem isZero_iff {value : Finite} {whole : Int} (found : value.toInt? = some whole) :
    value.isZero = true ↔ whole = 0 := by
  have steps := (toInt?_eq_some found).1
  have positive := stepsPerOne_pos
  rw [Finite.isZero, beq_iff_eq, steps, Nat.mul_eq_zero]
  omega

/-- A safe integer determines the number that it was found for, but for the sign of a
zero. -/
theorem ofInt_of_toSafeInt? {number : Number} {whole : Int}
    (found : number.toSafeInt? = some whole) : ofInt whole = number.canonical := by
  cases number with
  | finite value =>
      obtain ⟨integral, safe⟩ := Option.filter_eq_some_iff.mp found
      obtain ⟨steps, negative, positive⟩ := toInt?_eq_some integral
      obtain ⟨other, other_eq, other_sign, other_steps⟩ := ofInt_safe (of_decide_eq_true safe)
      rw [other_eq, canonical, finite.injEq]
      by_cases zero : whole = 0
      · rw [if_pos ((isZero_iff integral).mpr zero)]
        apply Finite.eq_of_parts
        · rw [other_sign, zero]
          rfl
        · rw [other_steps, zero, Int.natAbs_zero, Nat.zero_mul]
          rfl
      · rw [if_neg fun is_zero => zero ((isZero_iff integral).mp is_zero)]
        apply Finite.eq_of_parts
        · rw [other_sign]
          cases sign : value.negative with
          | true => exact decide_eq_true (by have := negative sign; omega)
          | false => exact decide_eq_false (by have := positive sign; omega)
        · rw [other_steps, steps]
  | infinite _ => simp [toSafeInt?] at found
  | nan => simp [toSafeInt?] at found

theorem toSafeInt?_zero (negative : Bool) :
    (Number.finite (.zero negative)).toSafeInt? = some 0 := by
  have whole : (Finite.zero negative).toInt? = some 0 := by
    have steps : (Finite.zero negative).steps = 0 * stepsPerOne := (Nat.zero_mul _).symm
    rw [toInt?_of_steps steps]
    cases negative <;> rfl
  rw [toSafeInt?, whole]
  exact Option.filter_eq_some_iff.mpr ⟨rfl, by decide⟩

theorem eq_zero_of_isZero {value : Finite} (zero : value.isZero = true) :
    value = .zero value.negative :=
  Finite.eq_of_parts rfl (beq_iff_eq.mp zero)

theorem canonical_of_toSafeInt?_none {number : Number} (none : number.toSafeInt? = none) :
    number.canonical = number := by
  cases number with
  | finite value =>
      rw [canonical, if_neg]
      intro zero
      rw [eq_zero_of_isZero zero, toSafeInt?_zero] at none
      simp at none
  | _ => rfl

@[simp] theorem toSafeInt?_canonical (number : Number) :
    number.canonical.toSafeInt? = number.toSafeInt? := by
  cases found : number.toSafeInt? with
  | none => rw [canonical_of_toSafeInt?_none found, found]
  | some whole =>
      have safe : whole.natAbs ≤ largestSafeInt := by
        cases number with
        | finite value => exact of_decide_eq_true (Option.filter_eq_some_iff.mp found).2
        | _ => simp [toSafeInt?] at found
      rw [← ofInt_of_toSafeInt? found, toSafeInt?_ofInt safe]

theorem canonical_ofInt {whole : Int} (safe : whole.natAbs ≤ largestSafeInt) :
    (ofInt whole).canonical = ofInt whole :=
  (ofInt_of_toSafeInt? (toSafeInt?_ofInt safe)).symm

theorem signedSteps_canonical (value : Finite) :
    (if value.isZero then Finite.zero false else value).signedSteps = value.signedSteps := by
  split
  · rename_i zero
    rw [eq_zero_of_isZero zero]
    cases value.negative <;> rfl
  · rfl

theorem lt_canonical_left (left right : Number) : left.canonical.lt right = left.lt right := by
  cases left with
  | finite value => cases right <;> simp only [canonical, lt, signedSteps_canonical]
  | _ => rfl

theorem lt_canonical_right (left right : Number) : left.lt right.canonical = left.lt right := by
  cases right with
  | finite value => cases left <;> simp only [canonical, lt, signedSteps_canonical]
  | _ => rfl

theorem same_canonical (value : Finite) :
    (Number.finite value).same (Number.finite value).canonical = true := by
  simp only [canonical, same, signedSteps_canonical, beq_self_eq_true]

end Number

end Schemata
