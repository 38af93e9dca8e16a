import Schemata.Proofs.Collect
import Schemata.Proofs.Time.Agreement
namespace Schemata

/-! No text is two instants.

A layout without an offset reads only texts that have as many colons and letters as it asks for,
and an offset adds one of them.  So two readings take the same text only if they follow layouts
that ask for as many; these are the same but for a fraction of a second at the end, and both
find what is there of it.  The order of the readings does not matter therefore
(`Instant.read_unambiguous`). -/

namespace Zoned

variable {text : List Char} {instant : Instant}

theorem suffix_of_offsetHours {found : Nat × List Char} (read : offsetHours text = .ok found) :
    found.2 <:+ text := by
  obtain ⟨⟨first, second, rest⟩, digits, counted⟩ := ok_of_bind read
  have taken : rest <:+ text := by
    unfold offsetDigits at digits
    split at digits
    · simp only [Except.ok.injEq, Prod.mk.injEq] at digits
      obtain ⟨-, -, rfl⟩ := digits
      exact ⟨[_, _], rfl⟩
    · simp at digits
    · simp at digits
  dsimp only at counted
  split at counted
  · rw [← Except.ok.inj counted]
    exact taken
  · simp at counted

/-- An offset has a letter or a colon. -/
theorem mark_of_offset {found : Bool × Nat × Nat × List Char} (read : offset text = .ok found) :
    'Z' ∈ text ∨ 'z' ∈ text ∨ ':' ∈ text := by
  cases text with
  | nil => simp [offset] at read
  | cons sign rest =>
      rw [offset] at read
      split at read
      · rename_i universal
        simp only [Bool.or_eq_true, decide_eq_true_eq] at universal
        rcases universal with rfl | rfl
        · exact .inl (.head _)
        · exact .inr (.inl (.head _))
      · split at read
        · obtain ⟨⟨hours, after⟩, counted, read⟩ := ok_of_bind read
          have suffix := suffix_of_offsetHours counted
          cases after with
          | nil => simp [bind, Except.bind] at read
          | cons c minutes =>
              by_cases colon : c = ':'
              · subst colon
                exact .inr (.inr (.tail _ (suffix.subset (.head _))))
              · simp [bind, Except.bind, colon] at read
        · simp at read

theorem foreign_of_read (read : Zoned.read text = .ok instant) :
    'Z' ∈ text ∨ 'z' ∈ text ∨ 3 ≤ text.count ':' := by
  obtain ⟨zone, found, offset, suffix, often⟩ := offset_of_read read
  rcases mark_of_offset offset with capital | small | colon
  · exact .inl (suffix.subset capital)
  · exact .inr (.inl (suffix.subset small))
  · have counted := List.count_pos_iff.mpr colon
    exact .inr (.inr (by omega))

end Zoned

namespace Layout

variable {text : List Char} {layout left right : Layout} {before found other : Found}

/-- The layouts of all readings but the one with an offset. -/
def offsetless : List Layout := withClock ++ [date]

theorem foreign_colon : Foreign ':' := ⟨by decide, by decide, by decide, by decide⟩

theorem foreign_letter {c : Char} (letter : c = 'T' ∨ c = 'Z' ∨ c = 'z') : Foreign c := by
  rcases letter with rfl | rfl | rfl <;> exact ⟨by decide, by decide, by decide, by decide⟩

/-- What has an offset is read by no layout without one. -/
theorem read?_of_zoned {instant : Instant} (zoned : Zoned.read text = .ok instant)
    (member : layout ∈ offsetless) : layout.read? text = none := by
  have silent : ∀ layout ∈ offsetless, .exactly 'Z' ∉ layout ∧ .exactly 'z' ∉ layout ∧
      layout.count (.exactly ':') < 3 := by decide
  obtain ⟨capital, small, colons⟩ := silent layout member
  rcases Zoned.foreign_of_read zoned with there | there | often
  · exact read?_eq_none (foreign_letter (.inr (.inl rfl))) capital there
  · exact read?_eq_none (foreign_letter (.inr (.inr rfl))) small there
  · cases read : layout.read? text with
    | none => rfl
    | some found =>
        have counted := count_read? foreign_colon read
        omega

/-- A fraction at the end need not be there. -/
theorem readFrom_fraction (read : readFrom before text layout = some found) :
    readFrom before text (layout ++ [.fraction]) = some found := by
  induction layout generalizing before text with
  | nil =>
      cases text with
      | nil => exact read
      | cons first rest => simp [readFrom] at read
  | cons item items inductionHypothesis =>
      rw [readFrom, Option.bind_eq_some_iff] at read
      obtain ⟨next, here, later⟩ := read
      rw [List.cons_append, readFrom, here, Option.bind_some]
      exact inductionHypothesis later

/-- Layouts that read the same text find the same in it. -/
theorem read?_agree (first : left ∈ offsetless) (second : right ∈ offsetless)
    (read : left.read? text = some found) (again : right.read? text = some other) :
    found = other := by
  have alike : ∀ left ∈ offsetless, ∀ right ∈ offsetless,
      left.count (.exactly ':') = right.count (.exactly ':') →
      left.count (.exactly 'T') = right.count (.exactly 'T') →
      left = right ∨ left = right ++ [.fraction] ∨ right = left ++ [.fraction] := by decide
  have letter : Foreign 'T' := foreign_letter (.inl rfl)
  have colons := (count_read? foreign_colon read).symm.trans (count_read? foreign_colon again)
  have letters := (count_read? letter read).symm.trans (count_read? letter again)
  rcases alike left first right second colons letters with rfl | rfl | rfl
  · exact Option.some.inj (read.symm.trans again)
  · exact Option.some.inj (read.symm.trans (readFrom_fraction again))
  · exact Option.some.inj ((readFrom_fraction read).symm.trans again)

/-- The time of the day that has been read. -/
def Found.clock (found : Found) : Nat × Nat × Nat × Nat :=
  (found.hour, found.minute, found.second, found.fraction)

theorem clock_of_readItem {item : LayoutItem} {next : Found × List Char} (dated : item ∈ date)
    (read : readItem before text item = some next) : next.1.clock = before.clock := by
  cases item with
  | year | month | day =>
      obtain ⟨_, _, rfl⟩ := Option.map_eq_some_iff.mp read
      rfl
  | exactly mark =>
      simp only [readItem] at read
      split at read
      · split at read
        · rw [← Option.some.inj read]
        · simp at read
      · simp at read
  | hour | minute | second | fraction | blanks => simp [date] at dated

theorem clock_of_readFrom (dated : layout ⊆ date)
    (read : readFrom before text layout = some found) : found.clock = before.clock := by
  induction layout generalizing before text with
  | nil =>
      simp only [readFrom, Option.ite_none_right_eq_some, Option.some.injEq] at read
      rw [read.2]
  | cons item items inductionHypothesis =>
      rw [readFrom, Option.bind_eq_some_iff] at read
      obtain ⟨next, here, later⟩ := read
      obtain ⟨first, others⟩ := List.cons_subset.mp dated
      rw [inductionHypothesis others later, clock_of_readItem first here]

/-- A date alone is read as its midnight. -/
theorem instant?_of_date (read : date.read? text = some found) :
    found.instant? = found.date?.map Instant.ofDate := by
  have midnight : found.clock = (0, 0, 0, 0) := clock_of_readFrom (List.Subset.refl _) read
  simp only [Found.clock, Prod.mk.injEq] at midnight
  obtain ⟨hour, minute, second, fraction⟩ := midnight
  rw [Found.instant?, hour, minute, second, fraction]
  cases found.date? <;> rfl

end Layout

namespace Instant

variable {text : List Char} {reading left right : List Char → Option Instant}
  {order : List (List Char → Option Instant)} {instant first second : Instant}

/-- A reading takes what has an offset, or follows a layout. -/
theorem reading_cases (member : reading ∈ readings) (read : reading text = some instant) :
    Zoned.read text = .ok instant ∨ ∃ layout ∈ Layout.offsetless, ∃ found,
      layout.read? text = some found ∧ found.instant? = some instant := by
  simp only [readings, List.cons_append, List.mem_cons, List.mem_append, List.mem_map,
    List.not_mem_nil, or_false] at member
  rcases member with rfl | ⟨layout, clocked, rfl⟩ | rfl
  · exact .inl (eq_ok_of_toOption read)
  · obtain ⟨found, there, shown⟩ := Option.bind_eq_some_iff.mp read
    exact .inr ⟨layout, List.mem_append_left _ clocked, found, there, shown⟩
  · obtain ⟨day, alone, rfl⟩ := Option.map_eq_some_iff.mp read
    obtain ⟨found, there, dated⟩ := Option.bind_eq_some_iff.mp alone
    refine .inr ⟨Layout.date, by simp [Layout.offsetless], found, there, ?_⟩
    rw [Layout.instant?_of_date there, dated, Option.map_some]

/-- Readings of one text are readings of one instant. -/
theorem readings_agree (leftMember : left ∈ readings) (rightMember : right ∈ readings)
    (read : left text = some first) (again : right text = some second) : first = second := by
  rcases reading_cases leftMember read with zoned | ⟨layout, member, found, there, shown⟩
  · rcases reading_cases rightMember again with other | ⟨other, listed, _, found, _⟩
    · exact Except.ok.inj (zoned.symm.trans other)
    · simp [Layout.read?_of_zoned zoned listed] at found
  · rcases reading_cases rightMember again with zoned | ⟨other, listed, _, found, told⟩
    · simp [Layout.read?_of_zoned zoned member] at there
    · rw [← Layout.read?_agree member listed there found, shown] at told
      exact Option.some.inj told

theorem findSome?_readings (same : order.Perm readings) (text : List Char) :
    order.findSome? (fun reading => reading text) = ofChars? text := by
  cases read : ofChars? text with
  | none =>
      rw [ofChars?, List.findSome?_eq_none_iff] at read
      exact List.findSome?_eq_none_iff.mpr fun reading member => read reading (same.subset member)
  | some instant =>
      obtain ⟨left, leftMember, taken⟩ := List.exists_of_findSome?_eq_some read
      cases reread : order.findSome? fun reading => reading text with
      | none =>
          have refused := List.findSome?_eq_none_iff.mp reread left (same.symm.subset leftMember)
          simp [taken] at refused
      | some other =>
          obtain ⟨right, rightMember, again⟩ := List.exists_of_findSome?_eq_some reread
          rw [readings_agree leftMember (same.subset rightMember) taken again]

/-- Reads an instant with the readings in some order; the fault is that of the reading with an
offset, whenever it is tried. -/
def readIn (order : List (List Char → Option Instant)) (text : String) :
    Except InvalidInstant Instant :=
  let trimmed := Text.trim text.toList
  match order.findSome? fun reading => reading trimmed with
  | some instant => .ok instant
  | none =>
      match Zoned.read trimmed with
      | .ok instant => .ok instant
      | .error fault => .error ⟨text, fault⟩

/-- All readings that take a text find the same instant in it, so it does not matter in which
order they are tried. -/
theorem read_unambiguous (text : String) :
    (∀ left ∈ readings, ∀ right ∈ readings, ∀ first second,
      left (Text.trim text.toList) = some first → right (Text.trim text.toList) = some second →
        first = second) ∧
    ∀ order, order.Perm readings → readIn order text = Instant.read text := by
  refine ⟨fun left leftMember right rightMember first second =>
    readings_agree leftMember rightMember, fun order same => ?_⟩
  rw [readIn, Instant.read]
  simp only [findSome?_readings same]
  cases zoned : Zoned.read (Text.trim text.toList) with
  | ok instant => simp [ofChars?, readings, zoned, Except.toOption]
  | error fault => cases ofChars? (Text.trim text.toList) <;> rfl

end Instant

namespace Sample

/-- Two layouts take it, one of which allows a fraction. -/
def noonText : String := " 2026-03-15 12:00:00\n"

def noon : Instant :=
  { Instant.ofDate ⟨2026, 3, 15, by decide, by decide⟩ with
    second := 43200
    second_lt := by decide }

def wholeSeconds (text : List Char) : Option Instant :=
  ((Layout.date ++ .blanks :: Layout.clock : Layout).read? text).bind Layout.Found.instant?

def partSeconds (text : List Char) : Option Instant :=
  ((Layout.date ++ .blanks :: Layout.clock ++ [.fraction] : Layout).read? text).bind
    Layout.Found.instant?

end Sample

open Sample in
theorem Instant.read_unambiguous_of_noon :
    (partSeconds ∈ readings ∧ wholeSeconds ∈ readings ∧
      partSeconds (Text.trim noonText.toList) = some noon ∧
      wholeSeconds (Text.trim noonText.toList) = some noon ∧ readings.reverse.Perm readings) ∧
    (∀ other, wholeSeconds (Text.trim noonText.toList) = some other → noon = other) ∧
    readIn readings.reverse noonText = Instant.read noonText := by
  have part : partSeconds ∈ readings := List.mem_of_getElem? (i := 3) rfl
  have whole : wholeSeconds ∈ readings := List.mem_of_getElem? (i := 4) rfl
  have read : partSeconds (Text.trim noonText.toList) = some noon := by decide +kernel
  have again : wholeSeconds (Text.trim noonText.toList) = some noon := by decide +kernel
  obtain ⟨agree, reordered⟩ := Instant.read_unambiguous noonText
  exact ⟨⟨part, whole, read, again, List.reverse_perm _⟩,
    fun other => agree _ part _ whole noon other read, reordered _ (List.reverse_perm _)⟩

end Schemata
