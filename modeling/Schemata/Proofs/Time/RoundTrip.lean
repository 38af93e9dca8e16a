import Schemata.Proofs.Collect
import Schemata.Proofs.Time.Reading
import Schemata.Time.Json
import Schemata.Value.Display
namespace Schemata

/-! What is left of a day and of an instant when they are written and read again.

A day is what it was, for all years that can be named and with either reader, so no two days
share a text (`Date.text_restored`).  An instant that has been read from a text keeps its
milliseconds as long as its year has four digits, and is not read again otherwise
(`Instant.text_reread`). -/

namespace Date

variable {date : Date}

/-- Blanks that are allowed between the parts need not be there. -/
theorem spacedDate_read? :
    Layout.spacedDate.read? date.chars =
      some { year := date.year, month := date.month, day := date.day } := by
  have last := Layout.number?_padded date.day_lt []
  rw [List.append_nil] at last
  have hyphen : ∀ rest, Text.skipBlanks ('-' :: rest) = '-' :: rest :=
    Text.skipBlanks_cons (by decide)
  have ended : Text.skipBlanks [] = [] := rfl
  rw [Layout.read?, Layout.spacedDate, chars]
  simp only [List.append_assoc, List.cons_append, Layout.readFrom, Layout.readItem,
    Layout.year?_yearText, Layout.number?_padded date.month_lt, last, hyphen, ended,
    Option.map_some, Option.bind_some, ↓reduceIte, List.isEmpty_nil]

theorem ofJson?_toJson (inReach : date.InReach) : ofJson? date.toJson = some date := by
  have found : ofSpaced? date.chars = some date := by
    rw [ofSpaced?, spacedDate_read?]
    exact ofNumbers?_self inReach
  rw [toJson, ofJson?, Json.text?, Option.bind_some, text, String.toList_ofList, found]

/-- A day in any year that can be named has one text, which its JSON and messages show, and from
which both readers take the same day; so it shares its text with no other day. -/
theorem text_restored (inReach : date.InReach) :
    date.toJson = .text date.text ∧ (Value.date date).toJson = date.toJson ∧
      (Value.date date).display = date.text ∧
    Date.read date.text = .ok date ∧ ofJson? date.toJson = some date ∧
    ∀ other : Date, other.InReach → other.text = date.text → other = date := by
  refine ⟨rfl, by rw [Value.toJson, toJson], by rw [Value.display], read_text inReach,
    ofJson?_toJson inReach, fun other otherInReach same => ?_⟩
  have again := read_text otherInReach
  rw [same, read_text inReach] at again
  exact (Except.ok.inj again).symm

end Date

namespace Instant

variable {instant : Instant} {text : String}

/-- An instant from a text, written and read again, is cut off to its milliseconds as long as
its year has four digits, which does not change its text, and is not read otherwise. -/
theorem text_reread (read : Instant.read text = .ok instant) :
    (0 ≤ instant.date.year ∧ instant.date.year ≤ 9999 →
      Instant.read instant.text = .ok instant.truncated ∧
        instant.truncated.text = instant.text) ∧
    (¬ (0 ≤ instant.date.year ∧ instant.date.year ≤ 9999) →
      Instant.read instant.text = .error ⟨instant.text, .invalid⟩) ∧
    instant.truncated.date = instant.date ∧ instant.truncated.second = instant.second ∧
      instant.truncated.nanos = instant.nanos / 1000000 * 1000000 ∧
      instant.truncated.isLeapSecond = instant.isLeapSecond := by
  obtain ⟨regular, _⟩ := read_ok read
  refine ⟨fun inside => ?_, fun outside => ?_, rfl, rfl, rfl, instant.isLeapSecond_truncated⟩
  · exact ⟨read_timely regular (timely_iff.mpr inside), instant.text_truncated⟩
  · apply read_untimely
    rwa [← Bool.not_eq_true, timely_iff]

end Instant

namespace Sample

/-- A leap day of a year with a sign. -/
def earlyLeapDay : Date := ⟨-4, 2, 29, by decide, by decide⟩

/-- A leap second at the end of a month, told by a clock that is five hours behind. -/
def leapSecondText : String := "1985-06-30T18:59:60.123987-05:00"

def leapSecond : Instant :=
  ⟨⟨1985, 6, 30, by decide, by decide⟩, 86399, 1123987000, by decide, by decide⟩

/-- An instant after the last year of four digits, told by a clock that is still in that year. -/
def newCenturyText : String := "9999-12-31T23:30:00.5-01:00"

theorem january_mem : 1 ≤ 1 ∧ 1 ≤ 12 := by decide

def newCentury : Instant :=
  ⟨⟨10000, 1, 1, january_mem, by decide⟩, 1800, 500000000, by decide, by decide⟩

end Sample

open Sample in
theorem Date.text_restored_of_earlyLeapDay :
    earlyLeapDay.InReach ∧ earlyLeapDay.text = "-0004-02-29" ∧
    Date.read earlyLeapDay.text = .ok earlyLeapDay ∧
    Date.ofJson? earlyLeapDay.toJson = some earlyLeapDay := by
  have inReach : earlyLeapDay.InReach := ⟨by decide, by decide⟩
  obtain ⟨_, _, _, read, decoded, _⟩ := Date.text_restored inReach
  exact ⟨inReach, rfl, read, decoded⟩

open Sample in
theorem Instant.text_reread_of_leapSecond :
    (Instant.read leapSecondText = .ok leapSecond ∧
      leapSecond.text = "1985-06-30T23:59:60.123Z" ∧
      Instant.read leapSecond.text = .ok leapSecond.truncated ∧
      leapSecond.truncated.isLeapSecond = true) ∧
    Instant.read newCenturyText = .ok newCentury ∧
      newCentury.text = "+10000-01-01T00:30:00.500Z" ∧
      Instant.read newCentury.text = .error ⟨newCentury.text, .invalid⟩ := by
  have leap : Instant.read leapSecondText = .ok leapSecond :=
    eq_ok_of_toOption (by decide +kernel)
  have past : Instant.read newCenturyText = .ok newCentury :=
    eq_ok_of_toOption (by decide +kernel)
  obtain ⟨timely, _, _, _, _, kept⟩ := Instant.text_reread leap
  obtain ⟨_, untimely, _⟩ := Instant.text_reread past
  exact ⟨⟨leap, rfl, (timely (by decide)).1, kept.trans rfl⟩, past, rfl, untimely (by decide)⟩

end Schemata
