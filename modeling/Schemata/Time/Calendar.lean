import Schemata.Number.Decimal
namespace Schemata

/-! Days of the Gregorian calendar, extended to all years. -/

def isLeapYear (year : Int) : Bool :=
  year % 4 = 0 && (year % 100 ≠ 0 || year % 400 = 0)

def daysInMonth (year : Int) (month : Nat) : Nat :=
  match month with
  | 2 => if isLeapYear year then 29 else 28
  | 4 | 6 | 9 | 11 => 30
  | _ => 31

theorem daysInMonth_pos (year : Int) (month : Nat) : 1 ≤ daysInMonth year month := by
  simp only [daysInMonth]
  split <;> (try split) <;> decide

structure Date where
  year : Int
  month : Nat
  day : Nat
  month_mem : 1 ≤ month ∧ month ≤ 12
  day_mem : 1 ≤ day ∧ day ≤ daysInMonth year month
deriving DecidableEq

namespace Date

def firstYear : Int := -262143

def lastYear : Int := 262142

/-- The day of these numbers, if there is one in the years that texts can name. -/
def ofNumbers? (year : Int) (month day : Nat) : Option Date :=
  if firstYear ≤ year ∧ year ≤ lastYear then
    if inMonths : 1 ≤ month ∧ month ≤ 12 then
      if inDays : 1 ≤ day ∧ day ≤ daysInMonth year month then
        some ⟨year, month, day, inMonths, inDays⟩
      else none
    else none
  else none

def before (left right : Date) : Bool :=
  left.year < right.year ||
    (left.year == right.year &&
      (left.month < right.month || (left.month == right.month && left.day < right.day)))

def next (date : Date) : Date :=
  if inMonth : date.day < daysInMonth date.year date.month then
    ⟨date.year, date.month, date.day + 1, date.month_mem, by omega⟩
  else if inYear : date.month < 12 then
    ⟨date.year, date.month + 1, 1, by omega, by simp, daysInMonth_pos _ _⟩
  else ⟨date.year + 1, 1, 1, by decide, by simp, daysInMonth_pos _ _⟩

def previous (date : Date) : Date :=
  if inMonth : 1 < date.day then
    ⟨date.year, date.month, date.day - 1, date.month_mem, by have := date.day_mem; omega⟩
  else if inYear : 1 < date.month then
    ⟨date.year, date.month - 1, daysInMonth date.year (date.month - 1),
      by have := date.month_mem; omega, daysInMonth_pos _ _, Nat.le_refl _⟩
  else ⟨date.year - 1, 12, 31, by decide, by simp [daysInMonth]⟩

private def daysBeforeMonth (year : Int) (month : Nat) : Nat :=
  (List.range' 1 (month - 1)).foldr (fun before days => daysInMonth year before + days) 0

/-- Days from the first of January of year 1 to that of another year. -/
private def daysBeforeYear (year : Int) : Int :=
  let past := year - 1
  past * 365 + past / 4 - past / 100 + past / 400

def dayNumber (date : Date) : Int :=
  daysBeforeYear date.year - daysBeforeYear 1970 +
    daysBeforeMonth date.year date.month + (date.day - 1 : Nat)

private theorem daysBeforeMonth_succ (year : Int) {month : Nat} (positive : 1 ≤ month) :
    daysBeforeMonth year (month + 1) = daysBeforeMonth year month + daysInMonth year month := by
  have summed : ∀ months : List Nat, ∀ base,
      months.foldr (fun before days => daysInMonth year before + days) base =
        months.foldr (fun before days => daysInMonth year before + days) 0 + base := by
    intro months base
    induction months with
    | nil => simp
    | cons first rest inductionHypothesis =>
        simp only [List.foldr_cons, inductionHypothesis]
        omega
  have months : List.range' 1 (month + 1 - 1) = List.range' 1 (month - 1) ++ [month] := by
    obtain ⟨before, rfl⟩ := Nat.exists_eq_add_of_le' positive
    rw [Nat.add_sub_cancel, Nat.add_sub_cancel, List.range'_concat]
    simp [Nat.add_comm]
  rw [daysBeforeMonth, months, List.foldr_append, summed, List.foldr_cons, List.foldr_nil]
  rfl

private theorem daysBeforeMonth_le (year : Int) {month later : Nat} (positive : 1 ≤ month)
    (before : month < later) :
    daysBeforeMonth year month + daysInMonth year month ≤ daysBeforeMonth year later := by
  induction later with
  | zero => omega
  | succ later inductionHypothesis =>
      rcases Nat.lt_succ_iff_lt_or_eq.mp before with earlier | rfl
      · have step := daysBeforeMonth_succ year (Nat.le_trans positive (Nat.le_of_lt earlier))
        have reached := inductionHypothesis earlier
        omega
      · exact Nat.le_of_eq (daysBeforeMonth_succ year positive).symm

/-- A year is as long as its twelve months. -/
private theorem daysBeforeYear_succ (year : Int) :
    daysBeforeYear (year + 1) = daysBeforeYear year + daysBeforeMonth year 13 := by
  have days : daysBeforeMonth year 13 = if isLeapYear year then 366 else 365 := by
    simp only [daysBeforeMonth, List.range', List.foldr, daysInMonth]
    split <;> rfl
  have leap_iff : isLeapYear year = true ↔ year % 4 = 0 ∧ (year % 100 ≠ 0 ∨ year % 400 = 0) := by
    simp [isLeapYear]
  rw [days]
  simp only [daysBeforeYear, Int.add_sub_cancel]
  by_cases leap : isLeapYear year = true
  · have divides := leap_iff.mp leap
    rw [if_pos leap]
    omega
  · have divides := mt leap_iff.mpr leap
    rw [if_neg leap]
    omega

private theorem daysBeforeYear_le {year later : Int} (before : year ≤ later) :
    daysBeforeYear year ≤ daysBeforeYear later := by
  simp only [daysBeforeYear]
  omega

theorem before_iff {left right : Date} : left.before right = true ↔
    left.year < right.year ∨ (left.year = right.year ∧
      (left.month < right.month ∨ (left.month = right.month ∧ left.day < right.day))) := by
  simp [before]

theorem dayNumber_lt_of_before {left right : Date} (before : left.before right = true) :
    left.dayNumber < right.dayNumber := by
  have first := right.day_mem
  have last := left.day_mem
  have months := left.month_mem
  rw [dayNumber, dayNumber]
  rcases before_iff.mp before with years | ⟨year, month | ⟨month, day⟩⟩
  · have inYear := daysBeforeMonth_le left.year months.1 (show left.month < 13 by omega)
    have year := daysBeforeYear_succ left.year
    have ordered := daysBeforeYear_le (show left.year + 1 ≤ right.year from years)
    omega
  · have inYear := daysBeforeMonth_le left.year months.1 month
    rw [← year]
    omega
  · rw [← year, ← month]
    omega

/-- A day is known by its number. -/
theorem dayNumber_inj {left right : Date} :
    left.dayNumber = right.dayNumber ↔ left = right := by
  refine ⟨fun same => ?_, congrArg dayNumber⟩
  have forwards : ¬ left.before right = true := fun before => by
    have := dayNumber_lt_of_before before
    omega
  have backwards : ¬ right.before left = true := fun before => by
    have := dayNumber_lt_of_before before
    omega
  rw [before_iff] at forwards backwards
  obtain ⟨year, month, day, _, _⟩ := left
  obtain ⟨otherYear, otherMonth, otherDay, _, _⟩ := right
  simp only [Date.mk.injEq]
  dsimp only at forwards backwards
  omega

/-- Four digits for the years 0 to 9999; other years have a sign. -/
def yearText (year : Int) : List Char :=
  if 0 ≤ year ∧ year ≤ 9999 then Decimal.padded 4 year.natAbs
  else (if year < 0 then '-' else '+') :: Decimal.padded 4 year.natAbs

def chars (date : Date) : List Char :=
  yearText date.year ++ '-' :: Decimal.padded 2 date.month ++
    '-' :: Decimal.padded 2 date.day

def text (date : Date) : String := String.ofList date.chars

end Date

end Schemata
