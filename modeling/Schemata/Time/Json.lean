import Schemata.Json.Basic
import Schemata.Time.Reading
namespace Schemata

/-! Days as JSON values of their own.

They are written as their texts.  Reading one allows other blanks than reading a text does,
and takes no instant for its day. -/

namespace Date

def toJson (date : Date) : Json := .text date.text

def ofJson? (json : Json) : Option Date :=
  json.text?.bind fun text => ofSpaced? text.toList

end Date

end Schemata
