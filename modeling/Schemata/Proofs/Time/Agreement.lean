import Mathlib.Data.List.DropRight
import Mathlib.Data.List.TakeWhile
import Schemata.Proofs.Time.Reading
import Schemata.Validation.Scalar
namespace Schemata

/-! A text is read as a day exactly when it is read as an instant, and the day is that of the
instant.

The two readings try the layouts in different orders, and only one thing keeps them from taking
a text differently: a day alone has no colon, and every other layout asks for one. -/

namespace Text

/-- A text has no blanks left at its ends once they have been taken off. -/
theorem trim_trim (text : List Char) : trim (trim text) = trim text := by
  have kept : skipBlanks (trim text) = trim text := by
    refine List.dropWhile_eq_self_iff.mpr fun nonempty => ?_
    obtain ⟨ending, split⟩ : trim text <+: skipBlanks text :=
      List.rdropWhile_prefix (p := isBlank) (l := skipBlanks text)
    have solid := List.dropWhile_get_zero_not (p := isBlank) text
    have longer : 0 < (skipBlanks text).length := by
      rw [← split, List.length_append]
      omega
    have same : (skipBlanks text)[0] = (trim text)[0] := by
      simp only [← split, List.getElem_append_left nonempty]
    rw [← same]
    exact solid longer
  have ended : skipBlanks (trim text).reverse = (trim text).reverse := by
    rw [trim, List.reverse_reverse]
    exact List.dropWhile_idempotent _ _
  rw [trim, kept, ended, List.reverse_reverse]

end Text

namespace Zoned

variable {count : Nat} {text rest : List Char}

theorem suffix_of_column {found : Nat × List Char} (read : column count text = .ok found) :
    found.2 <:+ text := by
  unfold column at read
  dsimp only at read
  split at read
  · rw [← Except.ok.inj read]
    exact List.drop_suffix _ _
  · simp at read

theorem mark_ok {allowed : Char → Bool} (read : mark allowed text = .ok rest) :
    ∃ c, allowed c = true ∧ text = c :: rest := by
  cases text with
  | nil => simp [mark] at read
  | cons c after =>
      rw [mark] at read
      split at read
      · rename_i fits
        exact ⟨c, fits, by rw [Except.ok.inj read]⟩
      · simp at read

/-- A column and the mark after it are taken from the front. -/
theorem suffix_of_part {allowed : Char → Bool} {found : Nat × List Char}
    (marked : mark allowed found.2 = .ok rest) (read : column count text = .ok found) :
    rest <:+ text := by
  obtain ⟨c, _, split⟩ := mark_ok marked
  have after : rest <:+ found.2 := split ▸ List.suffix_cons c rest
  exact after.trans (suffix_of_column read)

/-- The mark after a column is not among what is left. -/
theorem count_of_part {c : Char} {found : Nat × List Char}
    (marked : mark (fun other => decide (other = c)) found.2 = .ok rest)
    (read : column count text = .ok found) : rest.count c + 1 ≤ text.count c := by
  obtain ⟨other, fits, split⟩ := mark_ok marked
  obtain rfl := of_decide_eq_true fits
  have fewer := (suffix_of_column read).sublist.count_le other
  rwa [split, List.count_cons_self] at fewer

theorem suffix_of_fraction {found : Nat × List Char} (read : fraction text = .ok found) :
    found.2 <:+ text := by
  rw [fraction.eq_def] at read
  split at read
  · dsimp only at read
    split at read
    · simp at read
    · split at read
      · simp at read
      · obtain rfl := Except.ok.inj read
        exact (List.drop_suffix _ _).trans (List.suffix_cons _ _)
  · obtain rfl := Except.ok.inj read
    exact List.suffix_refl _

/-- What is read with an offset has the time of the day before it, with two colons. -/
theorem offset_of_read {instant : Instant} (read : Zoned.read text = .ok instant) :
    ∃ zone found, offset zone = .ok found ∧ zone <:+ text ∧
      zone.count ':' + 2 ≤ text.count ':' := by
  obtain ⟨year, yearMark, month, monthMark, day, _, dayMark, hour, hourMark, minute, minuteMark,
    second, nanos, _, zone, _⟩ := stages_of_read read
  have dated := (suffix_of_part dayMark day).trans <|
    (suffix_of_part monthMark month).trans (suffix_of_part yearMark year)
  have clock := (suffix_of_part minuteMark minute).trans (suffix_of_part hourMark hour)
  have seconds := (suffix_of_fraction nanos).trans (suffix_of_column second)
  have before := dated.sublist.count_le ':'
  have hours := count_of_part hourMark hour
  have minutes := count_of_part minuteMark minute
  have after := seconds.sublist.count_le ':'
  exact ⟨_, _, zone, seconds.trans (clock.trans dated), by omega⟩

/-- What is read with an offset has the time of the day with it. -/
theorem colon_mem {instant : Instant} (read : Zoned.read text = .ok instant) : ':' ∈ text := by
  obtain ⟨zone, _, _, _, often⟩ := offset_of_read read
  exact List.count_pos_iff.mp (by omega)

end Zoned

namespace Instant

/-- The reading with an offset, which is tried first, is one of the readings. -/
theorem toOption_read (text : String) :
    (Instant.read text).toOption = ofChars? (Text.trim text.toList) := by
  rw [read]
  cases zoned : Zoned.read (Text.trim text.toList) with
  | ok instant => simp [ofChars?, readings, zoned, Except.toOption]
  | error fault =>
      dsimp only
      cases ofChars? (Text.trim text.toList) with
      | none => rfl
      | some instant => rfl

/-- A text that is a day alone is an instant for its midnight and for nothing else. -/
theorem ofChars?_of_day {text : List Char} {date : Date}
    (alone : Date.ofLayout? text = some date) : ofChars? text = some (ofDate date) := by
  obtain ⟨found, read, _⟩ := Option.bind_eq_some_iff.mp alone
  have foreign : Layout.Foreign ':' := ⟨by decide, by decide, by decide, by decide⟩
  have colonless : ':' ∉ text := fun member => by
    rw [Layout.read?_eq_none foreign (by decide) member] at read
    simp at read
  have unzoned : (Zoned.read text).toOption = none := by
    cases zoned : Zoned.read text with
    | ok instant => exact absurd (Zoned.colon_mem zoned) colonless
    | error fault => rfl
  have clockless : ∀ layout ∈ Layout.withClock, layout.read? text = none := by
    intro layout clocked
    have asked : ∀ layout ∈ Layout.withClock, .exactly ':' ∈ layout := by decide
    cases clock : layout.read? text with
    | none => rfl
    | some found =>
        have often := Layout.count_read? foreign clock
        rw [List.count_eq_zero.mpr colonless, eq_comm, List.count_eq_zero] at often
        exact absurd (asked layout clocked) often
  have silent : (Layout.withClock.map fun layout text =>
      (layout.read? text).bind Layout.Found.instant?).findSome? (fun reading => reading text) =
        none := by
    rw [List.findSome?_eq_none_iff]
    intro reading member
    obtain ⟨layout, clocked, rfl⟩ := List.mem_map.mp member
    simp only [clockless layout clocked, Option.bind_none]
  simp only [ofChars?, readings, List.cons_append, List.findSome?_cons, unzoned,
    List.findSome?_append, silent, alone, Option.map_some, Option.none_or]

end Instant

theorem Date.toOption_read (text : String) :
    (Date.read text).toOption = (Instant.read text).toOption.map Instant.date := by
  rw [Instant.toOption_read, Date.read]
  cases alone : ofLayout? (Text.trim text.toList) with
  | some date =>
      rw [Instant.ofChars?_of_day alone]
      rfl
  | none =>
      have again := Instant.toOption_read (String.ofList (Text.trim text.toList))
      rw [String.toList_ofList, Text.trim_trim] at again
      rw [← again]
      dsimp only
      cases Instant.read (String.ofList (Text.trim text.toList)) with
      | ok instant => rfl
      | error fault => rfl

theorem Instant.date_eq_iff (instant : Instant) (date : Date) :
    instant.date = date ↔ date.dayNumber = instant.unixSeconds / secondsPerDay := by
  have second := instant.second_lt
  have number : instant.unixSeconds / secondsPerDay = instant.date.dayNumber := by
    rw [unixSeconds]
    rw [secondsPerDay] at second ⊢
    omega
  rw [number, eq_comm, Date.dayNumber_inj]

/-- Days and instants are read from the same texts, the day is the one in universal time, and a
field of days takes the same day from a stored text whether or not it is made an instant
before. -/
theorem Date.read_agrees :
    (∀ text, (Date.read text).toOption = (Instant.read text).toOption.map Instant.date) ∧
    (∀ (instant : Instant) (date : Date), instant.date = date ↔
      date.dayNumber = instant.unixSeconds / secondsPerDay) ∧
    ∀ text, FieldType.date.coerce (FieldType.datetime.coerce (.text text)) =
      FieldType.date.coerce (.text text) := by
  refine ⟨Date.toOption_read, Instant.date_eq_iff, fun text => ?_⟩
  have agreed := Date.toOption_read text
  cases read : (Instant.read text).toOption with
  | none => simp [FieldType.coerce, read]
  | some instant =>
      rw [read, Option.map_some] at agreed
      simp [FieldType.coerce, read, agreed]

end Schemata
