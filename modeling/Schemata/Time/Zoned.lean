import Schemata.Time.Layout
namespace Schemata

/-! Date and time with an offset from universal time, in fixed columns.

The date is read and looked up in the calendar before the time of day is read, and the
time of day is judged before the offset is read, so an earlier fault hides a later
one. -/

namespace Zoned

inductive Fault where
  | premature
  | invalid
  | outOfRange
  | trailing
deriving DecidableEq

def Fault.message : Fault → String
  | premature => "premature end of input"
  | invalid => "input contains invalid characters"
  | outOfRange => "input is out of range"
  | trailing => "trailing input"

/-- The first of the given number of digits, all of which have to be there. -/
def column (count : Nat) (text : List Char) : Except Fault (Nat × List Char) :=
  let digits := text.take count
  if digits.length = count ∧ digits.all Decimal.isDigit then
    .ok (Decimal.value digits, text.drop count)
  else .error .invalid

def mark (allowed : Char → Bool) : List Char → Except Fault (List Char)
  | c :: rest => if allowed c then .ok rest else .error .invalid
  | [] => .error .invalid

def fraction : List Char → Except Fault (Nat × List Char)
  | '.' :: rest =>
      let digits := rest.takeWhile Decimal.isDigit
      if rest.isEmpty then .error .premature
      else if digits.isEmpty then .error .invalid
      else .ok (Layout.nanosOf digits, rest.drop digits.length)
  | text => .ok (0, text)

/-- Two digits of an offset; a single byte is too little to judge. -/
def offsetDigits : List Char → Except Fault (Char × Char × List Char)
  | first :: second :: rest => .ok (first, second, rest)
  | [only] => .error (if only.utf8Size < 2 then .premature else .invalid)
  | [] => .error .premature

def offsetHours (text : List Char) : Except Fault (Nat × List Char) := do
  let (first, second, rest) ← offsetDigits text
  if Decimal.isDigit first && Decimal.isDigit second then
    .ok (Decimal.value [first, second], rest)
  else .error .invalid

def offsetMinutes (text : List Char) : Except Fault (Nat × List Char) := do
  let (first, second, rest) ← offsetDigits text
  if Decimal.isDigit first && Decimal.isDigit second then
    if first < '6' then .ok (Decimal.value [first, second], rest) else .error .outOfRange
  else .error .invalid

/-- Hours and minutes of an offset behind (`true`) or ahead of universal time. -/
def offset : List Char → Except Fault (Bool × Nat × Nat × List Char)
  | [] => .error .premature
  | sign :: rest =>
      if sign = 'Z' || sign = 'z' then .ok (false, 0, 0, rest)
      else if sign = '+' || sign = '-' || sign = '\u2212' then do
        let (hours, rest) ← offsetHours rest
        let rest ← match rest with
          | [] => .error .premature
          | c :: rest => if c = ':' then .ok rest else .error .invalid
        let (minutes, rest) ← offsetMinutes rest
        .ok (sign ≠ '+', hours, minutes, rest)
      else .error .invalid

/-- The shortest text that has all columns, in bytes. -/
def leastBytes : Nat := 19

def byteCount (text : List Char) : Nat :=
  text.foldr (fun c count => c.utf8Size + count) 0

def read (text : List Char) : Except Fault Instant := do
  if byteCount text < leastBytes then .error .premature
  let (year, text) ← column 4 text
  let text ← mark (· = '-') text
  let (month, text) ← column 2 text
  let text ← mark (· = '-') text
  let (day, text) ← column 2 text
  let date ← match Date.ofNumbers? year month day with
    | some date => .ok date
    | none => .error .outOfRange
  let text ← mark (fun c => c = 'T' || c = 't' || c = ' ') text
  let (hour, text) ← column 2 text
  let text ← mark (· = ':') text
  let (minute, text) ← column 2 text
  let text ← mark (· = ':') text
  let (second, text) ← column 2 text
  let (nanos, text) ← fraction text
  let clock ← match Instant.ofClock? date hour minute second nanos with
    | some clock => .ok clock
    | none => .error .outOfRange
  let (behind, hours, minutes, text) ← offset text
  if !text.isEmpty then .error .trailing
  if 24 ≤ hours then .error .outOfRange
  .ok (clock.fromZone behind (hours * 3600 + minutes * 60))

end Zoned

end Schemata
