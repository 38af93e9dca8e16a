import Schemata.Time.Calendar
namespace Schemata

/-! Instants in universal time: a day, a second of the day and what follows the second.

In a leap second the part below the second runs on to two seconds, so that a minute
of 61 seconds keeps its second 59 for both. -/

def secondsPerDay : Nat := 86400

def nanosPerSecond : Nat := 1000000000

structure Instant where
  date : Date
  second : Nat
  nanos : Nat
  second_lt : second < secondsPerDay
  nanos_lt : nanos < 2 * nanosPerSecond
deriving DecidableEq

namespace Instant

def ofDate (date : Date) : Instant := ⟨date, 0, 0, by decide, by decide⟩

/-- The instant of a clock; second 60 is a leap second. -/
def ofClock? (date : Date) (hour minute second fraction : Nat) : Option Instant :=
  if inside : hour < 24 ∧ minute < 60 ∧ second ≤ 60 ∧ fraction < nanosPerSecond then
    some
      { date
        second := hour * 3600 + minute * 60 + min second 59
        nanos := fraction + if second = 60 then nanosPerSecond else 0
        second_lt := by unfold secondsPerDay; omega
        nanos_lt := by split <;> omega }
  else none

/-- The instant at which a clock shows this reading that is behind (`true`) or ahead of
universal time by so many seconds, less than a day. -/
def fromZone (clock : Instant) (behind : Bool) (offset : Nat) : Instant :=
  let shift := if behind then offset else secondsPerDay - offset
  let total := clock.second + shift
  let date :=
    if behind then (if total < secondsPerDay then clock.date else clock.date.next)
    else if secondsPerDay ≤ total then clock.date else clock.date.previous
  { clock with date, second := total % secondsPerDay, second_lt := Nat.mod_lt _ (by decide) }

def isLeapSecond (instant : Instant) : Bool := nanosPerSecond ≤ instant.nanos

def unixSeconds (instant : Instant) : Int :=
  instant.date.dayNumber * secondsPerDay + instant.second

/-- Date and time with milliseconds, in universal time. -/
def chars (instant : Instant) : List Char :=
  let second := instant.second % 60 + if instant.isLeapSecond then 1 else 0
  instant.date.chars ++ 'T' :: Decimal.padded 2 (instant.second / 3600) ++
    ':' :: Decimal.padded 2 (instant.second / 60 % 60) ++
    ':' :: Decimal.padded 2 second ++
    '.' :: Decimal.padded 3 (instant.nanos % nanosPerSecond / 1000000) ++ ['Z']

def text (instant : Instant) : String := String.ofList instant.chars

end Instant

end Schemata
