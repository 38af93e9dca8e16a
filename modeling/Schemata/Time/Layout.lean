import Schemata.Text.Blank
import Schemata.Time.Instant
namespace Schemata

/-! Layouts of dates and times without an offset.

A number takes the blanks before it and as many digits as its item allows; a sign lets
a year have any number of digits. -/

inductive LayoutItem where
  | year
  | month
  | day
  | hour
  | minute
  | second
  /-- A point and digits, of which nine count, or nothing. -/
  | fraction
  | exactly (c : Char)
  | blanks
deriving DecidableEq

abbrev Layout := List LayoutItem

namespace Layout

structure Found where
  year : Int := 0
  month : Nat := 0
  day : Nat := 0
  hour : Nat := 0
  minute : Nat := 0
  second : Nat := 0
  fraction : Nat := 0

/-- At least one digit and at most so many, and the rest of the text. -/
def digits? (most : Nat) (text : List Char) : Option (Nat × List Char) :=
  let found := (text.take most).takeWhile Decimal.isDigit
  if found.isEmpty then none else some (Decimal.value found, text.drop found.length)

def nanosOf (digits : List Char) : Nat :=
  let counted := digits.take 9
  Decimal.value counted * powerOfTen (9 - counted.length)

def number? (text : List Char) : Option (Nat × List Char) :=
  digits? 2 (Text.skipBlanks text)

def year? (text : List Char) : Option (Int × List Char) :=
  match Text.skipBlanks text with
  | '-' :: rest => (digits? rest.length rest).map fun (year, rest) => (-(year : Int), rest)
  | '+' :: rest => (digits? rest.length rest).map fun (year, rest) => ((year : Int), rest)
  | text => (digits? 4 text).map fun (year, rest) => ((year : Int), rest)

def readItem (found : Found) (text : List Char) : LayoutItem → Option (Found × List Char)
  | .year => (year? text).map fun (year, rest) => ({ found with year }, rest)
  | .month => (number? text).map fun (month, rest) => ({ found with month }, rest)
  | .day => (number? text).map fun (day, rest) => ({ found with day }, rest)
  | .hour => (number? text).map fun (hour, rest) => ({ found with hour }, rest)
  | .minute => (number? text).map fun (minute, rest) => ({ found with minute }, rest)
  | .second => (number? text).map fun (second, rest) => ({ found with second }, rest)
  | .fraction =>
      match text with
      | '.' :: rest =>
          let digits := rest.takeWhile Decimal.isDigit
          if digits.isEmpty then none
          else some ({ found with fraction := nanosOf digits }, rest.drop digits.length)
      | _ => some (found, text)
  | .exactly c =>
      match text with
      | first :: rest => if first = c then some (found, rest) else none
      | [] => none
  | .blanks => some (found, Text.skipBlanks text)

def readFrom (found : Found) (text : List Char) : Layout → Option Found
  | [] => if text.isEmpty then some found else none
  | item :: rest => (readItem found text item).bind fun (found, text) =>
      readFrom found text rest

/-- Reads a text that the layout matches as a whole. -/
def read? (layout : Layout) (text : List Char) : Option Found :=
  readFrom {} text layout

def Found.date? (found : Found) : Option Date :=
  Date.ofNumbers? found.year found.month found.day

def Found.instant? (found : Found) : Option Instant :=
  found.date?.bind fun date =>
    Instant.ofClock? date found.hour found.minute found.second found.fraction

def date : Layout := [.year, .exactly '-', .month, .exactly '-', .day]

/-- A date that allows blanks around its parts. -/
def spacedDate : Layout :=
  [.year, .blanks, .exactly '-', .month, .blanks, .exactly '-', .day, .blanks]

def clock : Layout := [.hour, .exactly ':', .minute, .exactly ':', .second]

def withClock : List Layout :=
  [date ++ .exactly 'T' :: clock ++ [.fraction],
    date ++ .exactly 'T' :: clock,
    date ++ .blanks :: clock ++ [.fraction],
    date ++ .blanks :: clock,
    date ++ [.exactly 'T', .hour, .exactly ':', .minute]]

end Layout

end Schemata
