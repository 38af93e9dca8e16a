import Schemata.Number.Basic
namespace Schemata

/-! Numbers from decimal notation.

`Number.ofDecimal` rounds `digits · 10 ^ exponent` once.  `Number.ofText?` is the
notation of textual bounds: a sign, digits with at most one point, an exponent, or a
name for infinity or for what is not a number.
-/

namespace Decimal

def isDigit (c : Char) : Bool := '0' ≤ c && c ≤ '9'

def digitValue (c : Char) : Nat := c.toNat - '0'.toNat

def digitChar (digit : Nat) : Char := Char.ofNat ('0'.toNat + digit)

def value (digits : List Char) : Nat :=
  digits.foldl (fun total c => total * 10 + digitValue c) 0

def digitsOf (number : Nat) : List Char := Nat.toDigits 10 number

def padded (width number : Nat) : List Char :=
  let digits := digitsOf number
  List.replicate (width - digits.length) '0' ++ digits

def signText (value : Int) : List Char := if value < 0 then ['-'] else []

/-- A leading sign, `true` for minus. -/
def splitSign : List Char → Bool × List Char
  | '-' :: rest => (true, rest)
  | '+' :: rest => (false, rest)
  | text => (false, text)

def signed (negative : Bool) (magnitude : Nat) : Int :=
  if negative then -(magnitude : Int) else magnitude

/-- The exponent part of a decimal numeral, empty text meaning none. -/
def exponent? : List Char → Option Int
  | [] => some 0
  | mark :: rest =>
      let (negative, digits) := splitSign rest
      if (mark = 'e' || mark = 'E') && !digits.isEmpty && digits.all isDigit then
        some (signed negative (value digits))
      else none

end Decimal

namespace Number

/-- Beyond this power of ten lie only infinity and, below, zero. -/
private def exponentReach : Nat := 400

/-- The number nearest to `± digits · 10 ^ exponent`. -/
def ofDecimal (negative : Bool) (digits : Nat) (exponent : Int) : Number :=
  if digits = 0 then .finite (.zero negative)
  else if exponent > exponentReach then .infinite negative
  else if exponent < -(exponentReach + digits.log2 : Nat) then .finite (.zero negative)
  else if exponent < 0 then ofRatio negative digits (powerOfTen exponent.natAbs)
  else ofRatio negative (digits * powerOfTen exponent.natAbs) 1

def ofUnsigned? (negative : Bool) (text : List Char) : Option Number :=
  let name := text.map Char.toLower
  if name = "inf".toList || name = "infinity".toList then some (.infinite negative)
  else if name = "nan".toList then some .nan
  else
    let whole := text.takeWhile Decimal.isDigit
    let (fraction, rest) := match text.dropWhile Decimal.isDigit with
      | '.' :: tail => (tail.takeWhile Decimal.isDigit, tail.dropWhile Decimal.isDigit)
      | tail => ([], tail)
    if whole.isEmpty && fraction.isEmpty then none
    else (Decimal.exponent? rest).map fun exponent =>
      ofDecimal negative (Decimal.value (whole ++ fraction)) (exponent - fraction.length)

/-- Reads a textual number, the whole of the text. -/
def ofText? (text : List Char) : Option Number :=
  let (negative, rest) := Decimal.splitSign text
  ofUnsigned? negative rest

end Number

end Schemata
