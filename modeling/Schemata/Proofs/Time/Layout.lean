import Schemata.Proofs.Number.Decimal
import Schemata.Time.Reading
namespace Schemata

/-! A day reads back from its text, and its letters and colons tell which layouts can read a
text: it has each of them as often as a layout without an offset asks for it. -/

namespace Text

theorem isBlank_of_isDigit {c : Char} (digit : Decimal.isDigit c = true) :
    isBlank c = false := by
  simp only [Decimal.isDigit, Bool.and_eq_true, decide_eq_true_eq, Char.le_def] at digit
  have lower : 48 ≤ c.toNat := UInt32.le_iff_toNat_le.mp digit.1
  have upper : c.toNat ≤ 57 := UInt32.le_iff_toNat_le.mp digit.2
  simp only [isBlank, Bool.or_eq_false_iff, Bool.and_eq_false_iff, decide_eq_false_iff_not,
    beq_eq_false_iff_ne]
  omega

theorem skipBlanks_cons {c : Char} (solid : isBlank c = false) (rest : List Char) :
    skipBlanks (c :: rest) = c :: rest :=
  List.dropWhile_cons_of_neg (by simp [solid])

theorem trim_eq_self {text : List Char} (solid : ∀ c ∈ text, isBlank c = false) :
    trim text = text := by
  have kept : ∀ text, (∀ c ∈ text, isBlank c = false) → skipBlanks text = text := by
    intro text solid
    cases text with
    | nil => rfl
    | cons c rest => exact skipBlanks_cons (solid c (.head _)) rest
  have backwards : ∀ c ∈ text.reverse, isBlank c = false :=
    fun c member => solid c (List.mem_reverse.mp member)
  rw [trim, kept text solid, kept text.reverse backwards, List.reverse_reverse]

theorem skipBlanks_padded {width number : Nat} (rest : List Char) :
    skipBlanks (Decimal.padded width number ++ rest) = Decimal.padded width number ++ rest := by
  cases digits : Decimal.padded width number with
  | nil => exact absurd digits (Decimal.padded_ne_nil width number)
  | cons c others =>
      have member : c ∈ Decimal.padded width number := digits ▸ .head _
      exact skipBlanks_cons (isBlank_of_isDigit (Decimal.isDigit_padded member)) _

/-- Skipping blanks skips nothing else. -/
theorem count_skipBlanks {c : Char} (solid : isBlank c = false) (text : List Char) :
    (skipBlanks text).count c = text.count c := by
  have skipped : c ∉ text.takeWhile isBlank := fun member => by
    have blank := List.all_eq_true.mp List.all_takeWhile c member
    simp [solid] at blank
  have parts := congrArg (List.count c) (List.takeWhile_append_dropWhile (p := isBlank) (l := text))
  rwa [List.count_append, List.count_eq_zero.mpr skipped, Nat.zero_add] at parts

end Text

namespace Date

theorem month_lt (date : Date) : date.month < powerOfTen 2 := by
  have hundred : powerOfTen 2 = 100 := rfl
  have inYear := date.month_mem
  omega

theorem day_lt (date : Date) : date.day < powerOfTen 2 := by
  have hundred : powerOfTen 2 = 100 := rfl
  have inMonth := date.day_mem
  have longest : daysInMonth date.year date.month ≤ 31 := by
    simp only [daysInMonth]
    split <;> (try split) <;> decide
  omega

end Date

namespace Layout

variable {digits rest text : List Char} {most number : Nat}

/-- A run of digits is taken as a whole where it fits and nothing continues it. -/
theorem digits?_append (every : ∀ c ∈ digits, Decimal.isDigit c = true) (written : digits ≠ [])
    (fits : digits.length ≤ most)
    (ended : digits.length = most ∨ ∀ c ∈ rest.head?, Decimal.isDigit c = false) :
    digits? most (digits ++ rest) = some (Decimal.value digits, rest) := by
  have stops : (rest.take (most - digits.length)).takeWhile Decimal.isDigit = [] := by
    rcases ended with full | other
    · rw [full, Nat.sub_self, List.take_zero, List.takeWhile_nil]
    · cases rest with
      | nil => rw [List.take_nil, List.takeWhile_nil]
      | cons c rest =>
          cases most - digits.length with
          | zero => rw [List.take_zero, List.takeWhile_nil]
          | succ more =>
              rw [List.take_succ_cons]
              exact List.takeWhile_cons_of_neg (by simp [other c rfl])
  have found : ((digits ++ rest).take most).takeWhile Decimal.isDigit = digits := by
    rw [List.take_append, List.take_of_length_le fits, List.takeWhile_append_of_pos every,
      stops, List.append_nil]
  unfold digits?
  dsimp only
  rw [found, List.drop_left, if_neg (by simpa using written)]

theorem number?_padded (fits : number < powerOfTen 2) (rest : List Char) :
    number? (Decimal.padded 2 number ++ rest) = some (number, rest) := by
  have width := Decimal.length_padded (by decide) fits
  rw [number?, Text.skipBlanks_padded, digits?_append (fun c => Decimal.isDigit_padded)
    (Decimal.padded_ne_nil 2 number) (by omega) (.inl width), Decimal.value_padded]

theorem year?_padded (year : Nat) (rest : List Char) :
    year? (Decimal.padded 4 year ++ rest) =
      (digits? 4 (Decimal.padded 4 year ++ rest)).map fun (year, rest) => ((year : Int), rest) := by
  have unsigned : ∀ sign, Decimal.isDigit sign = false → ∀ others,
      Decimal.padded 4 year ++ rest ≠ sign :: others := by
    intro sign letter others same
    cases digits : Decimal.padded 4 year with
    | nil => exact Decimal.padded_ne_nil 4 year digits
    | cons first tail =>
        simp only [digits, List.cons_append, List.cons.injEq] at same
        have member : first ∈ Decimal.padded 4 year := digits ▸ .head _
        have digit := Decimal.isDigit_padded member
        simp [same.1, letter] at digit
  rw [year?]
  rw [Text.skipBlanks_padded]
  split
  · rename_i same
    exact absurd same (unsigned '-' (by decide) _)
  · rename_i same
    exact absurd same (unsigned '+' (by decide) _)
  · rfl

theorem year?_yearText (year : Int) (rest : List Char) :
    year? (Date.yearText year ++ '-' :: rest) = some (year, '-' :: rest) := by
  have every : ∀ c ∈ Decimal.padded 4 year.natAbs, Decimal.isDigit c = true :=
    fun c => Decimal.isDigit_padded
  have written := Decimal.padded_ne_nil 4 year.natAbs
  rw [Date.yearText]
  split
  · rename_i plain
    have width : (Decimal.padded 4 year.natAbs).length = 4 :=
      Decimal.length_padded (by decide) (by have : powerOfTen 4 = 10000 := rfl; omega)
    have value : (year.natAbs : Int) = year := Int.natAbs_of_nonneg plain.1
    rw [year?_padded, digits?_append every written (Nat.le_of_eq width) (.inl width)]
    simp only [Option.map_some, Decimal.value_padded, value]
  · have signed : digits? (Decimal.padded 4 year.natAbs ++ '-' :: rest).length
        (Decimal.padded 4 year.natAbs ++ '-' :: rest) = some (year.natAbs, '-' :: rest) := by
      rw [digits?_append every written (by simp) (.inr (by simp [Decimal.isDigit])),
        Decimal.value_padded]
    by_cases negative : year < 0
    · have value : -(year.natAbs : Int) = year := by omega
      rw [if_pos negative, List.cons_append, year?, Text.skipBlanks_cons (by decide)]
      simp only [signed, Option.map_some, value]
    · have value : (year.natAbs : Int) = year := by omega
      rw [if_neg negative, List.cons_append, year?, Text.skipBlanks_cons (by decide)]
      simp only [signed, Option.map_some, value]

theorem date_read? {date : Date} :
    Layout.date.read? date.chars =
      some { year := date.year, month := date.month, day := date.day } := by
  have last := number?_padded date.day_lt []
  rw [List.append_nil] at last
  rw [read?, Layout.date, Date.chars]
  simp only [List.append_assoc, List.cons_append, readFrom, readItem, year?_yearText,
    number?_padded date.month_lt, last, Option.map_some, Option.bind_some, ↓reduceIte,
    List.isEmpty_nil]

/-- A character that only an item takes that asks for it. -/
structure Foreign (c : Char) : Prop where
  solid : Text.isBlank c = false
  noDigit : Decimal.isDigit c = false
  noSign : c ≠ '-' ∧ c ≠ '+'
  noPoint : c ≠ '.'

theorem count_drop {c : Char} {initial : List Char} (foreign : Decimal.isDigit c = false)
    (every : ∀ c ∈ initial, Decimal.isDigit c = true) (prefixed : initial <+: text) :
    (text.drop initial.length).count c = text.count c := by
  obtain ⟨after, rfl⟩ := prefixed
  have absent : c ∉ initial := fun member => by simp [every c member] at foreign
  rw [List.drop_left, List.count_append, List.count_eq_zero.mpr absent, Nat.zero_add]

theorem isDigit_of_mem_takeWhile {c : Char} (member : c ∈ text.takeWhile Decimal.isDigit) :
    Decimal.isDigit c = true :=
  List.all_eq_true.mp (List.all_takeWhile) c member

/-- Digits are taken from the front, and nothing else is. -/
theorem digits?_eq_some {count : Nat} (read : digits? most text = some (count, rest)) :
    ∃ found, (∀ c ∈ found, Decimal.isDigit c = true) ∧ found <+: text ∧
      rest = text.drop found.length := by
  unfold digits? at read
  dsimp only at read
  split at read
  · simp at read
  · simp only [Option.some.injEq, Prod.mk.injEq] at read
    exact ⟨_, fun c => isDigit_of_mem_takeWhile,
      (List.takeWhile_prefix _).trans (List.take_prefix most text), read.2.symm⟩

theorem eq_some_of_map {α β : Type} {read : Option (α × List Char)}
    {place : α × List Char → β × List Char} {value : β}
    (mapped : read.map place = some (value, rest))
    (kept : ∀ found, (place found).2 = found.2) : ∃ found, read = some (found, rest) := by
  obtain ⟨found, read_eq, same⟩ := Option.map_eq_some_iff.mp mapped
  have after := kept found
  rw [same] at after
  exact ⟨found.1, by rw [read_eq, show rest = found.2 from after]⟩

/-- A year is digits after blanks and, where there is one, a sign. -/
theorem year?_eq_some {year : Int} (read : year? text = some (year, rest)) :
    ∃ sign digits most count, (sign = [] ∨ sign = ['-'] ∨ sign = ['+']) ∧
      Text.skipBlanks text = sign ++ digits ∧ digits? most digits = some (count, rest) := by
  rw [year?] at read
  split at read
  · rename_i signed
    obtain ⟨count, found⟩ := eq_some_of_map read fun _ => rfl
    exact ⟨['-'], _, _, count, .inr (.inl rfl), signed, found⟩
  · rename_i signed
    obtain ⟨count, found⟩ := eq_some_of_map read fun _ => rfl
    exact ⟨['+'], _, _, count, .inr (.inr rfl), signed, found⟩
  · obtain ⟨count, found⟩ := eq_some_of_map read fun _ => rfl
    exact ⟨[], _, _, count, .inl rfl, rfl, found⟩

section Foreign

variable {c : Char} {found next : Found} {item : LayoutItem} {layout : Layout}

theorem count_digits? {count : Nat} (foreign : Foreign c)
    (read : digits? most text = some (count, rest)) : rest.count c = text.count c := by
  obtain ⟨found, every, prefixed, rfl⟩ := digits?_eq_some read
  exact count_drop foreign.noDigit every prefixed

theorem count_number? {count : Nat} (foreign : Foreign c)
    (read : number? text = some (count, rest)) : rest.count c = text.count c := by
  rw [count_digits? foreign read, Text.count_skipBlanks foreign.solid]

theorem count_year? {year : Int} (foreign : Foreign c) (read : year? text = some (year, rest)) :
    rest.count c = text.count c := by
  obtain ⟨sign, digits, most, count, signs, split, found⟩ := year?_eq_some read
  have unsigned : c ∉ sign := by
    rcases signs with rfl | rfl | rfl
    · exact List.not_mem_nil
    · simpa using foreign.noSign.1
    · simpa using foreign.noSign.2
  rw [count_digits? foreign found, ← Text.count_skipBlanks foreign.solid text, split,
    List.count_append, List.count_eq_zero.mpr unsigned, Nat.zero_add]

theorem count_readItem (foreign : Foreign c)
    (read : readItem found text item = some (next, rest)) :
    text.count c = rest.count c + [item].count (.exactly c) := by
  cases item with
  | year =>
      obtain ⟨year, found⟩ := eq_some_of_map read fun _ => rfl
      exact (count_year? foreign found).symm
  | month | day | hour | minute | second =>
      obtain ⟨count, found⟩ := eq_some_of_map read fun _ => rfl
      exact (count_number? foreign found).symm
  | fraction =>
      simp only [readItem] at read
      split at read
      · split at read
        · simp at read
        · simp only [Option.some.injEq, Prod.mk.injEq] at read
          obtain ⟨_, rfl⟩ := read
          rw [List.count_cons_of_ne foreign.noPoint.symm]
          exact (count_drop foreign.noDigit (fun c => isDigit_of_mem_takeWhile)
            (List.takeWhile_prefix _)).symm
      · simp only [Option.some.injEq, Prod.mk.injEq] at read
        rw [read.2]
        rfl
  | exactly mark =>
      simp only [readItem] at read
      split at read
      · split at read
        · rename_i same
          simp only [Option.some.injEq, Prod.mk.injEq] at read
          rw [same, read.2, List.count_cons, List.count_singleton]
          simp
        · simp at read
      · simp at read
  | blanks =>
      simp only [readItem, Option.some.injEq, Prod.mk.injEq] at read
      rw [← read.2, Text.count_skipBlanks foreign.solid]
      rfl

/-- A text has a foreign character as often as the layout that reads it asks for it. -/
theorem count_read? (foreign : Foreign c) (read : layout.read? text = some found) :
    text.count c = layout.count (.exactly c) := by
  rw [read?] at read
  generalize ({} : Found) = before at read
  induction layout generalizing before text with
  | nil =>
      cases text with
      | nil => rfl
      | cons first rest => simp [readFrom] at read
  | cons item items inductionHypothesis =>
      rw [readFrom, Option.bind_eq_some_iff] at read
      obtain ⟨⟨next, rest⟩, here, later⟩ := read
      rw [count_readItem foreign here, inductionHypothesis _ later, Nat.add_comm,
        ← List.count_append, List.singleton_append]

/-- A layout that does not ask for a foreign character reads no text that has it. -/
theorem read?_eq_none (foreign : Foreign c) (silent : .exactly c ∉ layout) (member : c ∈ text) :
    layout.read? text = none := by
  cases read : layout.read? text with
  | none => rfl
  | some found =>
      have often := count_read? foreign read
      rw [List.count_eq_zero.mpr silent] at often
      exact absurd member (List.count_eq_zero.mp often)

end Foreign

end Layout

end Schemata
