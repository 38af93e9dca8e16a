import Schemata.Text.Quoted
import Schemata.Time.Zoned
namespace Schemata

/-! Dates and instants from texts as documents hold them. -/

structure InvalidDate where
  input : String
deriving DecidableEq

structure InvalidInstant where
  input : String
  fault : Zoned.Fault
deriving DecidableEq

def InvalidDate.message (failure : InvalidDate) : String :=
  s!"invalid date {Text.quoted failure.input}: expected YYYY-MM-DD"

def InvalidInstant.message (failure : InvalidInstant) : String :=
  s!"invalid datetime {Text.quoted failure.input}: {failure.fault.message}"

namespace Date

def ofLayout? (text : List Char) : Option Date :=
  (Layout.date.read? text).bind Layout.Found.date?

def ofSpaced? (text : List Char) : Option Date :=
  (Layout.spacedDate.read? text).bind Layout.Found.date?

end Date

namespace Instant

/-- The readings of a text, in the order in which they are tried: with an offset,
without one, and a date alone for its midnight. -/
def readings : List (List Char → Option Instant) :=
  (fun text => (Zoned.read text).toOption) ::
    Layout.withClock.map (fun layout text => (layout.read? text).bind Layout.Found.instant?) ++
    [fun text => (Date.ofLayout? text).map ofDate]

def ofChars? (text : List Char) : Option Instant :=
  readings.findSome? fun reading => reading text

/-- Reads an instant; a text that has no reading is faulted for what keeps it from
being one with an offset. -/
def read (text : String) : Except InvalidInstant Instant :=
  let trimmed := Text.trim text.toList
  match Zoned.read trimmed with
  | .ok instant => .ok instant
  | .error fault =>
      match ofChars? trimmed with
      | some instant => .ok instant
      | none => .error ⟨text, fault⟩

end Instant

namespace Date

def read (text : String) : Except InvalidDate Date :=
  let trimmed := Text.trim text.toList
  match ofLayout? trimmed with
  | some date => .ok date
  | none =>
      match Instant.read (String.ofList trimmed) with
      | .ok instant => .ok instant.date
      | .error _ => .error ⟨text⟩

end Date

end Schemata
