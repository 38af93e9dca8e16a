import Schemata.Number.Decimal
namespace Schemata

/-! Decimal digits read back as the number that they were written for. -/

namespace Decimal

variable {width number : Nat} {c : Char}

theorem isDigit_of_isDigit (digit : c.isDigit = true) : isDigit c = true := by
  simpa [Char.isDigit, isDigit, Char.le_def] using digit

theorem digitValue_lt (digit : isDigit c = true) : digitValue c < 10 := by
  simp only [isDigit, Bool.and_eq_true, decide_eq_true_eq, Char.le_def] at digit
  have upper : c.toNat ≤ 57 := UInt32.le_iff_toNat_le.mp digit.2
  have zero : '0'.toNat = 48 := rfl
  rw [digitValue]
  omega

theorem isDigit_digitsOf (number : Nat) (member : c ∈ digitsOf number) : isDigit c = true :=
  isDigit_of_isDigit (Nat.isDigit_of_mem_toDigits (by decide) (by decide) member)

theorem isDigit_padded (member : c ∈ padded width number) : isDigit c = true := by
  rcases List.mem_append.mp member with zero | digit
  · rw [List.eq_of_mem_replicate zero]
    decide
  · exact isDigit_digitsOf number digit

theorem value_append (left right : List Char) :
    value (left ++ right) = value left * powerOfTen right.length + value right := by
  have shifted : ∀ (digits : List Char) (start : Nat),
      digits.foldl (fun total c => total * 10 + digitValue c) start =
        start * powerOfTen digits.length + value digits := by
    intro digits
    induction digits with
    | nil => intro start; simp [value, powerOfTen]
    | cons digit rest inductionHypothesis =>
        intro start
        have first := inductionHypothesis (digitValue digit)
        have step : powerOfTen (rest.length + 1) = 10 * powerOfTen rest.length :=
          Nat.pow_succ'
        simp only [value, List.foldl_cons, List.length_cons, Nat.zero_mul, Nat.zero_add] at first ⊢
        rw [inductionHypothesis, first, step, Nat.add_mul, Nat.mul_assoc, Nat.add_assoc]
        rfl
  rw [value, List.foldl_append, shifted]
  rfl

theorem value_lt {digits : List Char} (every : ∀ c ∈ digits, isDigit c = true) :
    value digits < powerOfTen digits.length := by
  induction digits with
  | nil => decide
  | cons digit rest inductionHypothesis =>
      have tail := inductionHypothesis fun c member => every c (.tail _ member)
      have small := digitValue_lt (every digit (.head _))
      have step : powerOfTen (rest.length + 1) = 10 * powerOfTen rest.length :=
        Nat.pow_succ'
      have head := Nat.mul_le_mul_right (powerOfTen rest.length) (Nat.le_of_lt_succ small)
      have first : value [digit] = digitValue digit := Nat.zero_add _
      have total := value_append [digit] rest
      rw [List.singleton_append, first] at total
      rw [total, List.length_cons, step]
      omega

theorem value_digitsOf (number : Nat) : value (digitsOf number) = number := by
  have digit : ∀ digit < 10, value [Nat.digitChar digit] = digit := by decide
  induction number using Nat.strongRecOn with
  | ind number inductionHypothesis =>
      by_cases small : number < 10
      · rw [digitsOf, Nat.toDigits_of_lt_base small, digit number small]
      · have split : digitsOf number =
            digitsOf (number / 10) ++ [Nat.digitChar (number % 10)] :=
          Nat.toDigits_of_base_le (by decide) (by omega)
        have ten : powerOfTen [Nat.digitChar (number % 10)].length = 10 := rfl
        rw [split, value_append, inductionHypothesis _ (by omega), ten,
          digit _ (Nat.mod_lt _ (by decide))]
        omega

@[simp] theorem value_padded (width number : Nat) : value (padded width number) = number := by
  have zeros : ∀ count, value (List.replicate count '0') = 0 := by
    intro count
    induction count with
    | zero => rfl
    | succ count inductionHypothesis =>
        rw [List.replicate_succ', value_append, inductionHypothesis]
        rfl
  rw [padded, value_append, zeros, value_digitsOf, Nat.zero_mul, Nat.zero_add]

theorem length_padded (positive : 0 < width) (fits : number < powerOfTen width) :
    (padded width number).length = width := by
  have short : (digitsOf number).length ≤ width :=
    (Nat.length_toDigits_le_iff (by decide) positive).mpr fits
  simp only [padded, List.length_append, List.length_replicate]
  omega

theorem le_length_padded (width number : Nat) : width ≤ (padded width number).length := by
  simp only [padded, List.length_append, List.length_replicate]
  omega

theorem padded_ne_nil (width number : Nat) : padded width number ≠ [] := by
  simp [padded, digitsOf, Nat.toDigits_ne_nil]

end Decimal

end Schemata
