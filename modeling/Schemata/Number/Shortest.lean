import Schemata.Number.Decimal
namespace Schemata

/-! The shortest decimal that reads back, and its layouts.

Among the decimals inside the interval that rounds to a number, those with the fewest
digits are looked for on the grids of 1, 2, … 17 digits; of two neighbours on one grid
the nearer is taken, and a tie is left to the layout.
-/

structure NumberLayout where
  /-- Of two equally near decimals the one with the even last digit is written;
  otherwise the larger. -/
  tieToEven : Bool
  /-- Decimal exponents that are written without an exponent mark, from the first up
  to but not including the second. -/
  positional : Option (Int × Int)
  /-- Whole numbers keep a fraction of zero. -/
  wholeFraction : Bool

/-- Plain text: never an exponent, no fraction on whole numbers. -/
def NumberLayout.plain : NumberLayout := ⟨false, none, false⟩

/-- JSON text: an exponent below `10 ^ -5` and from `10 ^ 16` on, and always a
fraction otherwise. -/
def NumberLayout.json : NumberLayout := ⟨true, some (-5, 16), true⟩

namespace Finite

/-- The significand of a positive magnitude and the distance to its neighbour above,
as an exponent of two. -/
private def gapExponent (value : Finite) : Nat := droppedBits value.steps

/-- The least power of ten above a positive magnitude. -/
private def decimalExponent (value : Finite) : Int :=
  let estimate : Int := ((value.steps.log2 : Int) - 1074) * 30103 / 100000
  let below (power : Int) : Bool :=
    if power < 0 then value.steps * powerOfTen power.natAbs < stepsPerOne
    else value.steps < stepsPerOne * powerOfTen power.natAbs
  if below estimate then estimate
  else if below (estimate + 1) then estimate + 1
  else estimate + 2

/-- The chosen decimal on the grid of the multiples of `10 ^ power`, if one reads
back.  All lengths are in quarters of the smallest step. -/
private def onGrid? (value : Finite) (tieToEven : Bool) (power : Int) : Option Nat :=
  let up := if power < 0 then powerOfTen power.natAbs else 1
  let grid :=
    if power < 0 then 4 * stepsPerOne else 4 * stepsPerOne * powerOfTen power.natAbs
  let point := 4 * value.steps * up
  let gap := powerOfTwo (gapExponent value)
  let narrow := value.steps = powerOfTwo 52 * gap && gap ≠ 1
  let lower := point - (if narrow then gap else 2 * gap) * up
  let upper := point + 2 * gap * up
  let closed := (value.steps / gap) % 2 = 0
  let inside (multiple : Nat) : Bool :=
    let length := multiple * grid
    if closed then lower ≤ length && length ≤ upper else lower < length && length < upper
  let floor := point / grid
  let left := point - floor * grid
  let right := grid - left
  match inside floor, inside (floor + 1) with
  | true, false => some floor
  | false, true => some (floor + 1)
  | false, false => none
  | true, true =>
      if left < right then some floor
      else if right < left then some (floor + 1)
      else if tieToEven && floor % 2 = 0 then some floor
      else some (floor + 1)

/-- The first of the grids that holds a decimal, with its power of ten. -/
private def searchGrids (value : Finite) (tieToEven : Bool) (exponent : Int) :
    List Nat → Nat × Int
  | [] => (0, exponent)
  | count :: more =>
      let power := exponent - count
      match onGrid? value tieToEven power with
      | some multiple => (multiple, power)
      | none => searchGrids value tieToEven exponent more

/-- Digits without trailing zeros, and the exponent `e` of `0.digits · 10 ^ e`. -/
private def shortestDigits (value : Finite) (tieToEven : Bool) : List Char × Int :=
  let (multiple, power) :=
    searchGrids value tieToEven (decimalExponent value) (List.range' 1 17)
  let digits := Decimal.digitsOf multiple
  ((digits.reverse.dropWhile (· = '0')).reverse, power + digits.length)

/-- Digits with the point at a place, which may lie outside of them. -/
private def positionalText (digits : List Char) (place : Int) (wholeFraction : Bool) :
    List Char :=
  if place ≤ 0 then
    '0' :: '.' :: (List.replicate place.natAbs '0' ++ digits)
  else
    let whole := digits.take place.natAbs
    let fraction := digits.drop place.natAbs
    let whole := whole ++ List.replicate (place.natAbs - whole.length) '0'
    if fraction.isEmpty then whole ++ (if wholeFraction then ['.', '0'] else [])
    else whole ++ '.' :: fraction

private def exponentText (exponent : Int) : List Char :=
  'e' :: (if exponent < 0 then '-' else '+') :: Decimal.digitsOf exponent.natAbs

private def scientificText (digits : List Char) (exponent : Int) : List Char :=
  match digits with
  | [] => []
  | [digit] => digit :: exponentText exponent
  | digit :: rest => digit :: '.' :: (rest ++ exponentText exponent)

def text (value : Finite) (layout : NumberLayout) : List Char :=
  let sign := if value.negative then ['-'] else []
  if value.isZero then sign ++ positionalText ['0'] 1 layout.wholeFraction
  else
    let (digits, place) := shortestDigits value layout.tieToEven
    let plain := match layout.positional with
      | none => true
      | some (first, last) => first ≤ place - 1 && place - 1 < last
    sign ++ if plain then positionalText digits place layout.wholeFraction
      else scientificText digits (place - 1)

end Finite

def Number.text : Number → String
  | .finite value => String.ofList (value.text .plain)
  | .infinite negative => if negative then "-inf" else "inf"
  | .nan => "NaN"

end Schemata
