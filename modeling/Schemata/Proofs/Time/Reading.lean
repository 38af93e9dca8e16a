import Schemata.Proofs.Collect
import Schemata.Proofs.Time.Layout
namespace Schemata

/-! Days and instants read back from their texts: a day always, an instant to its
millisecond if its year has four digits. -/

/-- The days that texts can name. -/
def Date.InReach (date : Date) : Prop := Date.firstYear ≤ date.year ∧ date.year ≤ Date.lastYear

namespace Instant

/-- A leap second ends a minute. -/
def Regular (instant : Instant) : Prop :=
  instant.isLeapSecond = true → instant.second % 60 = 59

/-- The year is one of those that are written with four digits. -/
def timely (instant : Instant) : Bool := 0 ≤ instant.date.year && instant.date.year ≤ 9999

def truncated (instant : Instant) : Instant :=
  { instant with
    nanos := instant.nanos / 1000000 * 1000000
    nanos_lt := Nat.lt_of_le_of_lt (Nat.div_mul_le_self _ _) instant.nanos_lt }

end Instant

namespace Date

variable {date : Date}

theorem ofNumbers?_self (inReach : date.InReach) :
    ofNumbers? date.year date.month date.day = some date := by
  rw [InReach] at inReach
  rw [ofNumbers?]
  rw [if_pos inReach, dif_pos date.month_mem, dif_pos date.day_mem]

theorem ofNumbers?_eq_some {year : Int} {month day : Nat}
    (found : ofNumbers? year month day = some date) :
    date.year = year ∧ firstYear ≤ year ∧ year ≤ lastYear := by
  rw [ofNumbers?] at found
  split at found
  · rename_i inReach
    split at found
    · split at found
      · simp only [Option.some.injEq] at found
        exact ⟨found ▸ rfl, inReach⟩
      · simp at found
    · simp at found
  · simp at found

theorem mem_yearText {year : Int} {c : Char} (member : c ∈ yearText year) :
    Decimal.isDigit c = true ∨ c = '-' ∨ c = '+' := by
  rw [yearText] at member
  split at member
  · exact .inl (Decimal.isDigit_padded member)
  · rcases List.mem_cons.mp member with sign | digit
    · split at sign
      · exact .inr (.inl sign)
      · exact .inr (.inr sign)
    · exact .inl (Decimal.isDigit_padded digit)

theorem mem_chars {c : Char} (member : c ∈ date.chars) :
    Decimal.isDigit c = true ∨ c = '-' ∨ c = '+' := by
  simp only [chars, List.cons_append, List.append_assoc, List.mem_append, List.mem_cons] at member
  rcases member with year | hyphen | month | hyphen | day
  · exact mem_yearText year
  · exact .inr (.inl hyphen)
  · exact .inl (Decimal.isDigit_padded month)
  · exact .inr (.inl hyphen)
  · exact .inl (Decimal.isDigit_padded day)

theorem isBlank_of_mem_chars {c : Char} (member : c ∈ date.chars) : Text.isBlank c = false := by
  rcases mem_chars member with digit | rfl | rfl
  · exact Text.isBlank_of_isDigit digit
  · decide
  · decide

theorem read_text (inReach : date.InReach) : Date.read date.text = .ok date := by
  have found : ofLayout? date.chars = some date := by
    rw [ofLayout?, Layout.date_read?]
    exact ofNumbers?_self inReach
  rw [read, text]
  rw [String.toList_ofList, Text.trim_eq_self fun c => isBlank_of_mem_chars]
  simp only [found]

end Date

namespace Zoned

variable {count number : Nat}

theorem column_padded (positive : 0 < count) (fits : number < powerOfTen count)
    (rest : List Char) :
    column count (Decimal.padded count number ++ rest) = .ok (number, rest) := by
  have width := Decimal.length_padded positive fits
  have digits : (Decimal.padded count number ++ rest).take count =
      Decimal.padded count number := List.take_left' width
  have after : (Decimal.padded count number ++ rest).drop count = rest :=
    List.drop_left' width
  unfold column
  dsimp only
  rw [digits, after, if_pos ⟨width, List.all_eq_true.mpr fun c => Decimal.isDigit_padded⟩,
    Decimal.value_padded]

theorem length_le_byteCount (text : List Char) : text.length ≤ byteCount text := by
  induction text with
  | nil => exact Nat.le_refl 0
  | cons c rest inductionHypothesis =>
      have positive := c.utf8Size_pos
      simp only [byteCount, List.foldr_cons, List.length_cons] at inductionHypothesis ⊢
      omega

theorem fraction_padded (fits : number < powerOfTen 3) (c : Char)
    (ended : Decimal.isDigit c = false) (rest : List Char) :
    fraction ('.' :: (Decimal.padded 3 number ++ c :: rest)) =
      .ok (number * 1000000, c :: rest) := by
  have width := Decimal.length_padded (by decide) fits
  have digits : (Decimal.padded 3 number ++ c :: rest).takeWhile Decimal.isDigit =
      Decimal.padded 3 number := by
    rw [List.takeWhile_append_of_pos fun c => Decimal.isDigit_padded,
      List.takeWhile_cons_of_neg (by simp [ended]), List.append_nil]
  have nanos : Layout.nanosOf (Decimal.padded 3 number) = number * 1000000 := by
    have counted : (Decimal.padded 3 number).take 9 = Decimal.padded 3 number :=
      List.take_of_length_le (by omega)
    rw [Layout.nanosOf, counted, Decimal.value_padded, width]
    rfl
  have written := Decimal.padded_ne_nil 3 number
  simp only [fraction, digits, nanos, List.drop_left, List.isEmpty_iff, List.append_eq_nil_iff,
    written, false_and, ↓reduceIte]

def columns (year month day hour minute second milli : Nat) : List Char :=
  Decimal.padded 4 year ++ '-' :: (Decimal.padded 2 month ++ '-' ::
    (Decimal.padded 2 day ++ 'T' :: (Decimal.padded 2 hour ++ ':' ::
      (Decimal.padded 2 minute ++ ':' :: (Decimal.padded 2 second ++ '.' ::
        (Decimal.padded 3 milli ++ ['Z']))))))

theorem column_lt {text : List Char} {found : Nat × List Char}
    (read : column count text = .ok found) : found.1 < powerOfTen count := by
  unfold column at read
  dsimp only at read
  split at read
  · rename_i full
    simp only [Except.ok.injEq] at read
    have small := Decimal.value_lt (List.all_eq_true.mp full.2)
    rwa [full.1, show Decimal.value (text.take count) = found.1 from read ▸ rfl] at small
  · simp at read

theorem read_columns {year month day hour minute second milli : Nat} {date : Date}
    {clock : Instant} (year_lt : year < powerOfTen 4) (month_lt : month < powerOfTen 2)
    (day_lt : day < powerOfTen 2) (hour_lt : hour < powerOfTen 2)
    (minute_lt : minute < powerOfTen 2) (second_lt : second < powerOfTen 2)
    (milli_lt : milli < powerOfTen 3) (found : Date.ofNumbers? year month day = some date)
    (shown : Instant.ofClock? date hour minute second (milli * 1000000) = some clock) :
    read (columns year month day hour minute second milli) = .ok (clock.fromZone false 0) := by
  have long : ¬ byteCount (columns year month day hour minute second milli) < leastBytes := by
    have enough := length_le_byteCount (columns year month day hour minute second milli)
    simp only [columns, List.length_append, List.length_cons,
      Decimal.length_padded (by decide : 0 < 4) year_lt,
      Decimal.length_padded (by decide : 0 < 2) month_lt,
      Decimal.length_padded (by decide : 0 < 2) day_lt,
      Decimal.length_padded (by decide : 0 < 2) hour_lt,
      Decimal.length_padded (by decide : 0 < 2) minute_lt,
      Decimal.length_padded (by decide : 0 < 2) second_lt] at enough
    rw [leastBytes, columns]
    omega
  have universal : offset ['Z'] = .ok (false, 0, 0, []) := rfl
  rw [read]
  simp only [bind, Except.bind]
  rw [if_neg long]
  simp only [columns, column_padded (by decide) year_lt, column_padded (by decide) month_lt,
    column_padded (by decide) day_lt, column_padded (by decide) hour_lt,
    column_padded (by decide) minute_lt, column_padded (by decide) second_lt,
    fraction_padded milli_lt 'Z' (by decide), found, shown, mark, universal, decide_true,
    Bool.true_or, List.isEmpty_nil, Bool.not_true, Bool.false_eq_true, ↓reduceIte]
  rfl

end Zoned

namespace Instant

variable {instant : Instant}

theorem eq_of_parts {left right : Instant} (date : left.date = right.date)
    (second : left.second = right.second) (nanos : left.nanos = right.nanos) : left = right := by
  cases left
  cases right
  simp_all

theorem timely_iff : instant.timely = true ↔
    0 ≤ instant.date.year ∧ instant.date.year ≤ 9999 := by
  simp [timely]

theorem fromZone_second (clock : Instant) (behind : Bool) (offset : Nat) :
    (clock.fromZone behind offset).second =
      (clock.second + if behind then offset else secondsPerDay - offset) % secondsPerDay := rfl

theorem fromZone_date (clock : Instant) (offset : Nat) :
    (clock.fromZone false offset).date =
      if secondsPerDay ≤ clock.second + (secondsPerDay - offset) then clock.date
      else clock.date.previous := rfl

theorem fromZone_nanos (clock : Instant) (behind : Bool) (offset : Nat) :
    (clock.fromZone behind offset).nanos = clock.nanos := rfl

theorem fromZone_zero (clock : Instant) : clock.fromZone false 0 = clock := by
  have second := clock.second_lt
  apply eq_of_parts
  · rw [fromZone_date, Nat.sub_zero, if_pos (Nat.le_add_left _ _)]
  · rw [fromZone_second, if_neg Bool.false_ne_true, Nat.sub_zero, Nat.add_mod_right,
      Nat.mod_eq_of_lt second]
  · exact fromZone_nanos clock false 0

theorem ofClock?_chars (regular : instant.Regular) :
    ofClock? instant.date (instant.second / 3600) (instant.second / 60 % 60)
      (instant.second % 60 + if instant.isLeapSecond then 1 else 0)
      (instant.nanos % nanosPerSecond / 1000000 * 1000000) = some instant.truncated := by
  have second := instant.second_lt
  have nanos := instant.nanos_lt
  rw [secondsPerDay] at second
  rw [nanosPerSecond] at nanos
  unfold ofClock? nanosPerSecond
  cases leap : instant.isLeapSecond with
  | true =>
      have last := regular leap
      have long : 1000000000 ≤ instant.nanos :=
        of_decide_eq_true leap
      rw [dif_pos (by simp only [↓reduceIte]; omega), Option.some.injEq]
      apply eq_of_parts
      · rfl
      · simp only [truncated, ↓reduceIte]
        omega
      · simp only [truncated, ↓reduceIte, last]
        omega
  | false =>
      have short : instant.nanos < 1000000000 :=
        Nat.lt_of_not_le (of_decide_eq_false leap)
      have within : instant.second % 60 + 0 ≠ 60 := by omega
      rw [dif_pos (by simp only [Bool.false_eq_true, ↓reduceIte]; omega), Option.some.injEq]
      apply eq_of_parts
      · rfl
      · simp only [truncated, Bool.false_eq_true, ↓reduceIte]
        omega
      · simp only [truncated, Bool.false_eq_true, ↓reduceIte, within]
        omega

theorem chars_eq_columns (timely : instant.timely = true) :
    instant.chars = Zoned.columns instant.date.year.natAbs instant.date.month instant.date.day
      (instant.second / 3600) (instant.second / 60 % 60)
      (instant.second % 60 + if instant.isLeapSecond then 1 else 0)
      (instant.nanos % nanosPerSecond / 1000000) := by
  simp only [chars, Date.chars, Date.yearText, timely_iff.mp timely, and_self, ↓reduceIte,
    Zoned.columns, List.append_assoc, List.cons_append]

theorem zoned_read_chars (regular : instant.Regular) (timely : instant.timely = true) :
    Zoned.read instant.chars = .ok instant.truncated := by
  obtain ⟨lower, upper⟩ := timely_iff.mp timely
  have tenThousand : powerOfTen 4 = 10000 := rfl
  have thousand : powerOfTen 3 = 1000 := rfl
  have hundred : powerOfTen 2 = 100 := rfl
  have second := instant.second_lt
  rw [secondsPerDay] at second
  have found : Date.ofNumbers? (instant.date.year.natAbs : Int) instant.date.month
      instant.date.day = some instant.date := by
    rw [Int.natAbs_of_nonneg lower]
    exact Date.ofNumbers?_self
      ⟨by unfold Date.firstYear; omega, by unfold Date.lastYear; omega⟩
  rw [chars_eq_columns timely, Zoned.read_columns (by omega) instant.date.month_lt
    instant.date.day_lt (by omega) (by omega) (by split <;> omega)
    (by unfold nanosPerSecond; omega) found (ofClock?_chars regular), fromZone_zero]

theorem mem_chars {c : Char} (member : c ∈ instant.chars) :
    Decimal.isDigit c = true ∨ c ∈ ['-', '+', 'T', ':', '.', 'Z'] := by
  simp only [chars, List.cons_append, List.append_assoc, List.mem_append, List.mem_cons] at member
  rcases member with date | mark | hour | mark | minute | mark | second | mark | milli | mark
  · rcases Date.mem_chars date with digit | rfl | rfl
    · exact .inl digit
    · exact .inr (by decide)
    · exact .inr (by decide)
  · exact .inr (by simp [mark])
  · exact .inl (Decimal.isDigit_padded hour)
  · exact .inr (by simp [mark])
  · exact .inl (Decimal.isDigit_padded minute)
  · exact .inr (by simp [mark])
  · exact .inl (Decimal.isDigit_padded second)
  · exact .inr (by simp [mark])
  · exact .inl (Decimal.isDigit_padded milli)
  · exact .inr (by simp_all)

theorem trim_chars (instant : Instant) : Text.trim instant.chars = instant.chars := by
  apply Text.trim_eq_self
  intro c member
  rcases mem_chars member with digit | mark
  · exact Text.isBlank_of_isDigit digit
  · simp only [List.mem_cons, List.not_mem_nil, or_false] at mark
    rcases mark with rfl | rfl | rfl | rfl | rfl | rfl <;> decide

theorem leastBytes_le_length (instant : Instant) : Zoned.leastBytes ≤ instant.chars.length := by
  have four : ∀ number, 4 ≤ (Decimal.padded 4 number).length := Decimal.le_length_padded 4
  have two : ∀ number, 2 ≤ (Decimal.padded 2 number).length := Decimal.le_length_padded 2
  have year : 4 ≤ (Date.yearText instant.date.year).length := by
    rw [Date.yearText]
    split
    · exact four _
    · exact Nat.le_succ_of_le (four _)
  have month := two instant.date.month
  have day := two instant.date.day
  have hour := two (instant.second / 3600)
  have minute := two (instant.second / 60 % 60)
  have second := two (instant.second % 60 + if instant.isLeapSecond then 1 else 0)
  simp only [Zoned.leastBytes, chars, Date.chars, List.length_append, List.length_cons]
  omega

/-- A year of more than four digits has a sign, where a column has to be. -/
theorem zoned_read_chars_error (untimely : instant.timely = false) :
    Zoned.read instant.chars = .error .invalid := by
  have signed : ∃ sign rest, instant.chars = sign :: rest ∧ Decimal.isDigit sign = false := by
    have long : ¬ (0 ≤ instant.date.year ∧ instant.date.year ≤ 9999) :=
      fun inside => by simp [timely_iff.mpr inside] at untimely
    simp only [chars, Date.chars, Date.yearText, long, ↓reduceIte, List.cons_append]
    split
    · exact ⟨_, _, rfl, by decide⟩
    · exact ⟨_, _, rfl, by decide⟩
  have enough : ¬ Zoned.byteCount instant.chars < Zoned.leastBytes :=
    Nat.not_lt_of_le (Nat.le_trans instant.leastBytes_le_length (Zoned.length_le_byteCount _))
  obtain ⟨sign, rest, chars, letter⟩ := signed
  have broken : Zoned.column 4 (sign :: rest) = .error .invalid := by
    simp [Zoned.column, letter]
  rw [chars] at enough ⊢
  rw [Zoned.read]
  simp only [bind, Except.bind, broken, if_neg enough]

theorem ofChars?_eq_none {fault : Zoned.Fault}
    (zoned : Zoned.read instant.chars = .error fault) : ofChars? instant.chars = none := by
  have ended : 'Z' ∈ instant.chars := by simp [chars]
  have foreign : Layout.Foreign 'Z' := ⟨by decide, by decide, by decide, by decide⟩
  have silent : ∀ layout ∈ Layout.withClock, .exactly 'Z' ∉ layout := by decide
  rw [ofChars?, List.findSome?_eq_none_iff]
  intro reading member
  simp only [readings, List.cons_append, List.mem_cons, List.mem_append, List.mem_map,
    List.not_mem_nil, or_false] at member
  rcases member with rfl | ⟨layout, clocked, rfl⟩ | rfl
  · simp only [zoned, Except.toOption]
  · simp only [Layout.read?_eq_none foreign (silent layout clocked) ended, Option.bind_none]
  · have undated : Layout.date.read? instant.chars = none :=
      Layout.read?_eq_none foreign (by decide) ended
    simp only [Date.ofLayout?, undated, Option.bind_none, Option.map_none]

theorem read_timely (regular : instant.Regular) (timely : instant.timely = true) :
    Instant.read instant.text = .ok instant.truncated := by
  rw [read, text, String.toList_ofList, trim_chars]
  simp only [zoned_read_chars regular timely]

theorem read_untimely (untimely : instant.timely = false) :
    Instant.read instant.text = .error ⟨instant.text, .invalid⟩ := by
  have zoned := zoned_read_chars_error untimely
  rw [read, text, String.toList_ofList, trim_chars]
  simp only [zoned, ofChars?_eq_none zoned]

/-- The text of an instant is read back, to the millisecond, exactly when its year is
written with four digits. -/
theorem read_text (regular : instant.Regular) :
    (Instant.read instant.text).toOption =
      if instant.timely then some instant.truncated else none := by
  cases timely : instant.timely with
  | true => rw [read_timely regular timely, Except.toOption, if_pos rfl]
  | false => rw [read_untimely timely, Except.toOption, if_neg Bool.false_ne_true]

theorem isLeapSecond_truncated (instant : Instant) :
    instant.truncated.isLeapSecond = instant.isLeapSecond := by
  have whole : nanosPerSecond ≤ instant.nanos / 1000000 * 1000000 ↔
      nanosPerSecond ≤ instant.nanos := by
    rw [nanosPerSecond]
    omega
  exact decide_eq_decide.mpr whole

theorem text_truncated (instant : Instant) : instant.truncated.text = instant.text := by
  have leap := instant.isLeapSecond_truncated
  have milli : instant.truncated.nanos % nanosPerSecond / 1000000 =
      instant.nanos % nanosPerSecond / 1000000 := by
    simp only [truncated, nanosPerSecond]
    omega
  have date : instant.truncated.date = instant.date := rfl
  have second : instant.truncated.second = instant.second := rfl
  simp only [text, chars, leap, milli, date, second]

end Instant

namespace Zoned

variable {text : List Char} {instant : Instant}

/-- What every stage has found in a text that is read with an offset. -/
inductive Stages (text : List Char) (instant : Instant) : Prop
  | mk {year month day hour minute second nanos : Nat × List Char}
      {fromMonth fromDay fromHour fromMinute fromSecond : List Char} {date : Date} {clock : Instant}
      {behind : Bool} {hours minutes : Nat}
      (yearRead : column 4 text = .ok year)
      (yearMark : mark (· = '-') year.2 = .ok fromMonth)
      (monthRead : column 2 fromMonth = .ok month)
      (monthMark : mark (· = '-') month.2 = .ok fromDay)
      (dayRead : column 2 fromDay = .ok day)
      (dated : Date.ofNumbers? year.1 month.1 day.1 = some date)
      (dayMark : mark (fun c => c = 'T' || c = 't' || c = ' ') day.2 = .ok fromHour)
      (hourRead : column 2 fromHour = .ok hour)
      (hourMark : mark (· = ':') hour.2 = .ok fromMinute)
      (minuteRead : column 2 fromMinute = .ok minute)
      (minuteMark : mark (· = ':') minute.2 = .ok fromSecond)
      (secondRead : column 2 fromSecond = .ok second)
      (nanosRead : fraction second.2 = .ok nanos)
      (clocked : Instant.ofClock? date hour.1 minute.1 second.1 nanos.1 = some clock)
      (zoned : offset nanos.2 = .ok (behind, hours, minutes, []))
      (inside : hours < 24)
      (moved : instant = clock.fromZone behind ((hours * 60 + minutes) * 60)) : Stages text instant

theorem stages_of_read (read : Zoned.read text = .ok instant) : Stages text instant := by
  rw [Zoned.read] at read
  split at read
  · simp [bind, Except.bind] at read
  · obtain ⟨year, yearRead, read⟩ := ok_of_bind read
    obtain ⟨_, yearMark, read⟩ := ok_of_bind read
    obtain ⟨month, monthRead, read⟩ := ok_of_bind read
    obtain ⟨_, monthMark, read⟩ := ok_of_bind read
    obtain ⟨day, dayRead, read⟩ := ok_of_bind read
    cases dated : Date.ofNumbers? year.1 month.1 day.1 with
    | none => simp [dated, bind, Except.bind] at read
    | some date =>
        simp only [dated] at read
        obtain ⟨_, ⟨⟩, read⟩ := ok_of_bind read
        obtain ⟨_, dayMark, read⟩ := ok_of_bind read
        obtain ⟨hour, hourRead, read⟩ := ok_of_bind read
        obtain ⟨_, hourMark, read⟩ := ok_of_bind read
        obtain ⟨minute, minuteRead, read⟩ := ok_of_bind read
        obtain ⟨_, minuteMark, read⟩ := ok_of_bind read
        obtain ⟨second, secondRead, read⟩ := ok_of_bind read
        obtain ⟨nanos, nanosRead, read⟩ := ok_of_bind read
        cases clocked : Instant.ofClock? date hour.1 minute.1 second.1 nanos.1 with
        | none => simp [clocked, bind, Except.bind] at read
        | some clock =>
            simp only [clocked] at read
            obtain ⟨_, ⟨⟩, read⟩ := ok_of_bind read
            obtain ⟨⟨behind, hours, minutes, rest⟩, zoned, read⟩ := ok_of_bind read
            dsimp only at read
            split at read
            · simp [bind, Except.bind] at read
            · rename_i nothing
              split at read
              · simp [bind, Except.bind] at read
              · rename_i inside
                rw [Bool.not_eq_true, Bool.not_eq_false', List.isEmpty_iff] at nothing
                subst nothing
                have whole : (hours * 60 + minutes) * 60 = hours * 3600 + minutes * 60 := by omega
                exact ⟨yearRead, yearMark, monthRead, monthMark, dayRead, dated, dayMark, hourRead,
                  hourMark, minuteRead, minuteMark, secondRead, nanosRead, clocked, zoned,
                  Nat.lt_of_not_le inside, whole ▸ (Except.ok.inj read).symm⟩

/-- What is read with an offset is an instant of the clock, in a year of four digits, that
has been moved by whole minutes. -/
theorem read_ok (read : Zoned.read text = .ok instant) :
    ∃ (year month day : Nat) (date : Date) (hour minute second nanos : Nat) (clock : Instant)
      (behind : Bool) (minutes : Nat), year < powerOfTen 4 ∧
      Date.ofNumbers? year month day = some date ∧
      Instant.ofClock? date hour minute second nanos = some clock ∧
      instant = clock.fromZone behind (minutes * 60) := by
  obtain ⟨year, _, _, _, _, dated, _, _, _, _, _, _, _, clocked, _, _, moved⟩ := stages_of_read read
  exact ⟨_, _, _, _, _, _, _, _, _, _, _, column_lt year, dated, clocked, moved⟩

end Zoned

namespace Instant

variable {instant clock : Instant} {date : Date}

theorem ofClock?_eq_some {hour minute second fraction : Nat}
    (found : ofClock? date hour minute second fraction = some clock) :
    clock.date = date ∧ clock.Regular := by
  rw [ofClock?] at found
  split at found
  · rename_i inside
    simp only [Option.some.injEq] at found
    subst found
    refine ⟨rfl, fun leap => ?_⟩
    have long : nanosPerSecond ≤ fraction + if second = 60 then nanosPerSecond else 0 :=
      of_decide_eq_true leap
    have last : second = 60 := by
      split at long
      · assumption
      · omega
    subst last
    dsimp only
    omega
  · simp at found

theorem regular_fromZone (regular : clock.Regular) (behind : Bool) (minutes : Nat) :
    (clock.fromZone behind (minutes * 60)).Regular := by
  intro leap
  have last := regular leap
  have day : secondsPerDay = 86400 := rfl
  rw [fromZone_second, day]
  split <;> omega

theorem fromZone_year (clock : Instant) (behind : Bool) (offset : Nat) :
    clock.date.year - 1 ≤ (clock.fromZone behind offset).date.year ∧
      (clock.fromZone behind offset).date.year ≤ clock.date.year + 1 := by
  have next : clock.date.next.year = clock.date.year ∨
      clock.date.next.year = clock.date.year + 1 := by
    rw [Date.next]
    split
    · exact .inl rfl
    · split
      · exact .inl rfl
      · exact .inr rfl
  have previous : clock.date.previous.year = clock.date.year ∨
      clock.date.previous.year = clock.date.year - 1 := by
    rw [Date.previous]
    split
    · exact .inl rfl
    · split
      · exact .inl rfl
      · exact .inr rfl
  rw [fromZone]
  dsimp only
  split
  · split <;> omega
  · split <;> omega

theorem zoned_read_ok {text : List Char} (read : Zoned.read text = .ok instant) :
    instant.Regular ∧ instant.date.InReach := by
  obtain ⟨year, month, day, date, hour, minute, second, nanos, clock, behind, minutes, small,
    found, shown, rfl⟩ := Zoned.read_ok read
  obtain ⟨rfl, regular⟩ := ofClock?_eq_some shown
  obtain ⟨same, _⟩ := Date.ofNumbers?_eq_some found
  obtain ⟨lower, upper⟩ := fromZone_year clock behind (minutes * 60)
  have tenThousand : powerOfTen 4 = 10000 := rfl
  refine ⟨regular_fromZone regular behind minutes, ?_, ?_⟩
  · rw [Date.firstYear]
    omega
  · rw [Date.lastYear]
    omega

theorem date?_ok {found : Layout.Found} (read : found.date? = some date) : date.InReach := by
  obtain ⟨same, inReach⟩ := Date.ofNumbers?_eq_some read
  rw [Date.InReach]
  rwa [same]

theorem ofChars?_ok {text : List Char} (read : ofChars? text = some instant) :
    instant.Regular ∧ instant.date.InReach := by
  obtain ⟨reading, member, read⟩ := List.exists_of_findSome?_eq_some read
  simp only [readings, List.cons_append, List.mem_cons, List.mem_append, List.mem_map,
    List.not_mem_nil, or_false] at member
  rcases member with rfl | ⟨layout, _, rfl⟩ | rfl
  · cases zoned : Zoned.read text with
    | error fault => simp [zoned, Except.toOption] at read
    | ok found =>
        simp only [zoned, Except.toOption, Option.some.injEq] at read
        exact read ▸ zoned_read_ok zoned
  · obtain ⟨found, _, read⟩ := Option.bind_eq_some_iff.mp read
    obtain ⟨date, dated, shown⟩ := Option.bind_eq_some_iff.mp read
    obtain ⟨rfl, regular⟩ := ofClock?_eq_some shown
    exact ⟨regular, date?_ok dated⟩
  · obtain ⟨date, alone, rfl⟩ := Option.map_eq_some_iff.mp read
    obtain ⟨found, _, dated⟩ := Option.bind_eq_some_iff.mp alone
    exact ⟨fun leap => by simp [isLeapSecond, ofDate, nanosPerSecond] at leap, date?_ok dated⟩

theorem read_ok {text : String} (read : Instant.read text = .ok instant) :
    instant.Regular ∧ instant.date.InReach := by
  unfold Instant.read at read
  dsimp only at read
  split at read
  · rename_i zoned
    simp only [Except.ok.injEq] at read
    exact read ▸ zoned_read_ok zoned
  · split at read
    · rename_i found
      simp only [Except.ok.injEq] at read
      exact read ▸ ofChars?_ok found
    · simp at read

end Instant

theorem Date.read_ok {text : String} {date : Date} (read : Date.read text = .ok date) :
    date.InReach := by
  unfold Date.read at read
  dsimp only at read
  split at read
  · rename_i found
    simp only [Except.ok.injEq] at read
    obtain ⟨numbers, _, dated⟩ := Option.bind_eq_some_iff.mp found
    exact read ▸ Instant.date?_ok dated
  · split at read
    · rename_i instant found
      simp only [Except.ok.injEq] at read
      exact read ▸ (Instant.read_ok found).2
    · simp at read

end Schemata
