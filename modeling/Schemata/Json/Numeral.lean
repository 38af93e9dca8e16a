import Schemata.Json.Basic
import Schemata.Number.Decimal
namespace Schemata

/-! Numerals of JSON texts.

A numeral without fraction and exponent in the range of 64-bit words is a whole
number.  Any other is read in two roundings: as many leading digits as fit 64 bits
make the significand, and one step scales it by a power of ten. -/

namespace JsonNumber

private def significandLimit : Nat := powerOfTwo 64

/-- Appends digits while the significand stays below its limit; what is left over is
not looked at again. -/
private def absorb : Nat → List Char → Nat × List Char
  | significand, [] => (significand, [])
  | significand, c :: rest =>
      let next := significand * 10 + Decimal.digitValue c
      if next < significandLimit then absorb next rest else (significand, c :: rest)

/-- The greatest power of ten that is applied in one step. -/
private def largestStep : Nat := 308

/-- The steps of the number nearest to a power of ten. -/
private def stepsOfPower (exponent : Nat) : Nat :=
  match Number.ofRatio false (powerOfTen exponent) 1 with
  | .finite power => power.steps
  | _ => 0

private def finite? : Number → Option Finite
  | .finite value => some value
  | _ => none

/-- An exponent out of reach below is brought nearer by one division. -/
private def approach (negative : Bool) : Finite × Int → Finite × Int
  | (magnitude, exponent) =>
      if exponent < -(largestStep : Int) then
        let smaller := Number.ofSteps negative (magnitude.steps * stepsPerOne)
          (stepsOfPower largestStep)
        ((finite? smaller).getD (.zero negative), exponent + largestStep)
      else (magnitude, exponent)

/-- The magnitude times a power of ten; none when it is out of range.  A significand of
64 bits is zero after two approaches. -/
private def scale (negative : Bool) (magnitude : Finite) (exponent : Int) :
    Option Finite :=
  let (magnitude, exponent) := approach negative (approach negative (magnitude, exponent))
  if magnitude.isZero then some (.zero negative)
  else if exponent > largestStep then none
  else if 0 ≤ exponent then
    finite? (.ofSteps negative (magnitude.steps * stepsOfPower exponent.natAbs) stepsPerOne)
  else
    finite? (.ofSteps negative (magnitude.steps * stepsPerOne) (stepsOfPower exponent.natAbs))

private def float? (negative : Bool) (whole fraction : List Char) (exponent : Int) :
    Option Finite :=
  let (significand, cut) := absorb 0 whole
  let (significand, unread) := absorb significand fraction
  let exponent := exponent + cut.length - (fraction.length - unread.length : Nat)
  (finite? (.ofRatio negative significand 1)).bind fun magnitude =>
    scale negative magnitude exponent

private def int? (negative : Bool) (magnitude : Nat) : Option Int :=
  if negative then
    if 0 < magnitude ∧ magnitude ≤ powerOfTwo 63 then some (-(magnitude : Int)) else none
  else if magnitude < significandLimit then some magnitude else none

/-- A fraction with its point, empty text meaning none. -/
private def fraction? : List Char → Option (List Char)
  | [] => some []
  | '.' :: digits =>
      if digits.isEmpty || !digits.all Decimal.isDigit then none else some digits
  | _ => none

def ofNumeral? (text : List Char) : Option JsonNumber :=
  let (negative, unsigned) := match text with
    | '-' :: rest => (true, rest)
    | rest => (false, rest)
  let whole := unsigned.takeWhile Decimal.isDigit
  let rest := unsigned.dropWhile Decimal.isDigit
  let isExponentMark (c : Char) : Bool := c = 'e' || c = 'E'
  let point := rest.takeWhile (!isExponentMark ·)
  let power := rest.dropWhile (!isExponentMark ·)
  if whole.isEmpty || (whole.head? = some '0' && whole.length ≠ 1) then none
  else
    match fraction? point, Decimal.exponent? power with
    | some fraction, some exponent =>
        let asFloat := (float? negative whole fraction exponent).map JsonNumber.float
        if rest.isEmpty then
          match int? negative (Decimal.value whole) with
          | some value => some (.int value)
          | none => asFloat
        else asFloat
    | _, _ => none

end JsonNumber

end Schemata
