namespace Schemata

/-! Powers of two and of ten, the scales of binary and of decimal numbers. -/

def powerOfTwo (exponent : Nat) : Nat := Nat.pow 2 exponent

def powerOfTen (exponent : Nat) : Nat := Nat.pow 10 exponent

theorem powerOfTwo_pos (exponent : Nat) : 0 < powerOfTwo exponent :=
  Nat.pow_pos (by decide)

theorem powerOfTwo_succ (exponent : Nat) :
    powerOfTwo (exponent + 1) = 2 * powerOfTwo exponent := Nat.pow_succ'

theorem powerOfTwo_add (left right : Nat) :
    powerOfTwo (left + right) = powerOfTwo left * powerOfTwo right := Nat.pow_add 2 left right

theorem powerOfTwo_le {left right : Nat} (le : left ≤ right) :
    powerOfTwo left ≤ powerOfTwo right := Nat.pow_le_pow_right (by decide) le

theorem lt_powerOfTwo_log2 (number : Nat) : number < powerOfTwo (number.log2 + 1) :=
  Nat.lt_log2_self

end Schemata
