import Schemata.Number.Power
namespace Schemata

/-! Binary floating point of 64 bits as exact data.

A finite number is a sign and a magnitude counted in `2 ^ -1074`, the smallest step
of the format, so comparison, the test for whole numbers and rounding are arithmetic
on natural numbers.  `fits` says that the magnitude has at most 53 significant bits.
-/

/-- The number of smallest steps in one. -/
@[irreducible] def stepsPerOne : Nat := powerOfTwo 1074

/-- Magnitudes from here on are infinite. -/
@[irreducible] def stepsLimit : Nat := powerOfTwo 2098

structure Finite where
  negative : Bool
  steps : Nat
  fits : ∃ significand shift,
    significand < powerOfTwo 53 ∧ steps = significand * powerOfTwo shift
  bounded : steps < stepsLimit
deriving DecidableEq

inductive Number where
  | finite (value : Finite)
  | infinite (negative : Bool)
  | nan
deriving DecidableEq

/-- The integer nearest to a quotient; a half goes to the even neighbour. -/
def nearestQuotient (num den : Nat) : Nat :=
  let below := num / den
  let rest := num % den
  if 2 * rest < den ∨ (2 * rest = den ∧ below % 2 = 0) then below else below + 1

theorem nearestQuotient_le (num den : Nat) : nearestQuotient num den ≤ num / den + 1 := by
  unfold nearestQuotient
  dsimp only
  split <;> omega

/-- How many low bits a magnitude of this size drops to keep 53. -/
def droppedBits (whole : Nat) : Nat := whole.log2 + 1 - 53

theorem div_powerOfTwo_droppedBits_lt (whole : Nat) :
    whole / powerOfTwo (droppedBits whole) < powerOfTwo 53 := by
  rw [Nat.div_lt_iff_lt_mul (powerOfTwo_pos _), ← powerOfTwo_add]
  exact Nat.lt_of_lt_of_le (lt_powerOfTwo_log2 whole)
    (powerOfTwo_le (by unfold droppedBits; omega))

/-- A quotient of steps rounded to 53 significant bits. -/
def roundedSteps (num den : Nat) : Nat :=
  let dropped := droppedBits (num / den)
  nearestQuotient num (den * powerOfTwo dropped) * powerOfTwo dropped

theorem roundedSteps_fits (num den : Nat) :
    ∃ significand shift,
      significand < powerOfTwo 53 ∧ roundedSteps num den = significand * powerOfTwo shift := by
  have small := div_powerOfTwo_droppedBits_lt (num / den)
  rw [Nat.div_div_eq_div_mul] at small
  have near := nearestQuotient_le num (den * powerOfTwo (droppedBits (num / den)))
  by_cases below :
      nearestQuotient num (den * powerOfTwo (droppedBits (num / den))) < powerOfTwo 53
  · exact ⟨_, _, below, rfl⟩
  · have edge :
        nearestQuotient num (den * powerOfTwo (droppedBits (num / den))) = powerOfTwo 53 := by
      omega
    refine ⟨powerOfTwo 52, droppedBits (num / den) + 1, by decide, ?_⟩
    simp only [roundedSteps]
    rw [edge, Nat.add_comm _ 1, powerOfTwo_add 1, ← Nat.mul_assoc]
    rfl

namespace Number

/-- The number nearest to `± num / den` steps, infinite when that is out of range. -/
def ofSteps (negative : Bool) (num den : Nat) : Number :=
  if bounded : roundedSteps num den < stepsLimit then
    .finite ⟨negative, roundedSteps num den, roundedSteps_fits num den, bounded⟩
  else .infinite negative

def ofRatio (negative : Bool) (num den : Nat) : Number :=
  ofSteps negative (num * stepsPerOne) den

def ofInt (value : Int) : Number := ofRatio (value < 0) value.natAbs 1

end Number

namespace Finite

def zero (negative : Bool) : Finite :=
  ⟨negative, 0, ⟨0, 0, by decide, rfl⟩, by decide +kernel⟩

def signedSteps (value : Finite) : Int :=
  if value.negative then -(value.steps : Int) else value.steps

def isZero (value : Finite) : Bool := value.steps == 0

/-- The integer that the value is, if it is one. -/
def toInt? (value : Finite) : Option Int :=
  if value.steps % stepsPerOne = 0 then
    some (if value.negative then -(value.steps / stepsPerOne : Nat) else
      (value.steps / stepsPerOne : Nat))
  else none

end Finite

/-- Up to this magnitude every integer has a number of its own, and no two share
one. -/
def largestSafeInt : Nat := powerOfTwo 53 - 1

namespace Number

/-- The integer that the number is, if it is one of at most `largestSafeInt`. -/
def toSafeInt? : Number → Option Int
  | .finite value => value.toInt?.filter fun whole => whole.natAbs ≤ largestSafeInt
  | _ => none

/-- Order of numbers; a NaN is in no relation. -/
def lt : Number → Number → Bool
  | .finite left, .finite right => left.signedSteps < right.signedSteps
  | .finite _, .infinite negative => !negative
  | .infinite negative, .finite _ => negative
  | .infinite left, .infinite right => left && !right
  | .nan, _ => false
  | _, .nan => false

/-- Equality of values: both zeros are one value and a NaN differs from itself. -/
def same : Number → Number → Bool
  | .finite left, .finite right => left.signedSteps == right.signedSteps
  | .infinite left, .infinite right => left == right
  | _, _ => false

end Number

end Schemata
