import Schemata.Json.Numeral
namespace Schemata

/-! JSON from text.

The text is read one character at a time.  `Scan` is what the reader is in the middle
of, `Assembly` the value built so far: the open arrays and objects around the place,
innermost first, and what may come next.  A later member of a key takes the place of
an earlier one. -/

namespace Json

private inductive Token where
  | openArray
  | closeArray
  | openObject
  | closeObject
  | comma
  | colon
  | scalar (value : Json)

private inductive Scan where
  | between
  | word (read : List Char)
  | numeral (read : List Char)
  | text (read : List Char)
  | escape (read : List Char)
  /-- The digits of a sixteen-bit unit; `high` is the unit before, when that was the
  first of a pair. -/
  | unit (read : List Char) (high : Option Nat) (count value : Nat)
  /-- After the first unit of a pair, the mark of the second has to follow. -/
  | secondUnit (read : List Char) (high : Nat) (marked : Bool)

private def hexDigit? (c : Char) : Option Nat :=
  if '0' ≤ c && c ≤ '9' then some (c.toNat - '0'.toNat)
  else if 'a' ≤ c && c ≤ 'f' then some (c.toNat - 'a'.toNat + 10)
  else if 'A' ≤ c && c ≤ 'F' then some (c.toNat - 'A'.toNat + 10)
  else none

private def escaped? : Char → Option Char
  | '"' => some '"'
  | '\\' => some '\\'
  | '/' => some '/'
  | 'b' => some '\x08'
  | 'f' => some '\x0c'
  | 'n' => some '\n'
  | 'r' => some '\r'
  | 't' => some '\t'
  | _ => none

private def isHighUnit (unit : Nat) : Bool := 0xD800 ≤ unit && unit ≤ 0xDBFF

private def isLowUnit (unit : Nat) : Bool := 0xDC00 ≤ unit && unit ≤ 0xDFFF

/-- After the last digit of a unit: a character, the first half of one, or neither. -/
private def endOfUnit (read : List Char) : Option Nat → Nat → Option Scan
  | none, unit =>
      if isHighUnit unit then some (.secondUnit read unit false)
      else if isLowUnit unit then none
      else some (.text (Char.ofNat unit :: read))
  | some high, unit =>
      if isLowUnit unit then
        some (.text
          (Char.ofNat (0x10000 + (high - 0xD800) * 0x400 + (unit - 0xDC00)) :: read))
      else none

private def isNumeralChar (c : Char) : Bool :=
  Decimal.isDigit c || c = '-' || c = '+' || c = '.' || c = 'e' || c = 'E'

private def isWordChar (c : Char) : Bool := 'a' ≤ c && c ≤ 'z'

private def isSpace (c : Char) : Bool := c = ' ' || c = '\n' || c = '\t' || c = '\r'

private def wordValue? (word : List Char) : Option Json :=
  if word = "null".toList then some .null
  else if word = "true".toList then some (.bool true)
  else if word = "false".toList then some (.bool false)
  else none

private def start (c : Char) : Option (Scan × Option Token) :=
  match c with
  | '[' => some (.between, some .openArray)
  | ']' => some (.between, some .closeArray)
  | '{' => some (.between, some .openObject)
  | '}' => some (.between, some .closeObject)
  | ',' => some (.between, some .comma)
  | ':' => some (.between, some .colon)
  | '"' => some (.text [], none)
  | c =>
      if isSpace c then some (.between, none)
      else if c = '-' || Decimal.isDigit c then some (.numeral [c], none)
      else if isWordChar c then some (.word [c], none)
      else none

/-- The token that ends here because the text does, or because a character follows
that is no part of it. -/
private def finish : Scan → Option (Option Token)
  | .between => some none
  | .word read => (wordValue? read.reverse).map fun value => some (.scalar value)
  | .numeral read =>
      (JsonNumber.ofNumeral? read.reverse).map fun value => some (.scalar (.number value))
  | _ => none

/-- One character: the next state, and the tokens that end before and at it. -/
private def scanChar (scan : Scan) (c : Char) : Option (Scan × List Token) :=
  let restart : Option (Scan × List Token) := do
    let ended ← finish scan
    let (next, token) ← start c
    some (next, ended.toList ++ token.toList)
  match scan with
  | .between => restart
  | .word read => if isWordChar c then some (.word (c :: read), []) else restart
  | .numeral read => if isNumeralChar c then some (.numeral (c :: read), []) else restart
  | .text read =>
      if c = '"' then some (.between, [.scalar (.text (String.ofList read.reverse))])
      else if c = '\\' then some (.escape read, [])
      else if c.toNat < 0x20 then none
      else some (.text (c :: read), [])
  | .escape read =>
      if c = 'u' then some (.unit read none 0 0, [])
      else (escaped? c).map fun meant => (.text (meant :: read), [])
  | .unit read high count value => do
      let digit ← hexDigit? c
      let value := value * 16 + digit
      if count + 1 < 4 then some (.unit read high (count + 1) value, [])
      else (endOfUnit read high value).map fun next => (next, [])
  | .secondUnit read high marked =>
      if marked then
        if c = 'u' then some (.unit read (some high) 0 0, []) else none
      else if c = '\\' then some (.secondUnit read high true, [])
      else none

private inductive Frame where
  | array (reversed : List Json)
  | object (members : List (String × Json)) (key : String)

private inductive Expected where
  | value
  | firstItem
  | firstKey
  | key
  | colon
  | separator
  | nothing (result : Json)

private structure Assembly where
  frames : List Frame
  expected : Expected

def nestingLimit : Nat := 127

/-- A finished value goes into the innermost frame. -/
private def Assembly.add (frames : List Frame) (value : Json) : Assembly :=
  match frames with
  | [] => ⟨[], .nothing value⟩
  | .array reversed :: outer => ⟨.array (value :: reversed) :: outer, .separator⟩
  | .object members key :: outer =>
      ⟨.object (Keyed.put members key value) key :: outer, .separator⟩

private def Assembly.descend (frames : List Frame) (frame : Frame) (expected : Expected) :
    Option Assembly :=
  if frames.length < nestingLimit then some ⟨frame :: frames, expected⟩ else none

private def Assembly.beginValue (frames : List Frame) : Token → Option Assembly
  | .scalar value => some (.add frames value)
  | .openArray => descend frames (.array []) .firstItem
  | .openObject => descend frames (.object [] "") .firstKey
  | _ => none

private def Assembly.close (frames : List Frame) (token : Token) : Option Assembly :=
  match frames, token with
  | .array reversed :: outer, .closeArray => some (.add outer (.array reversed.reverse))
  | .object members _ :: outer, .closeObject => some (.add outer (.object members))
  | _, _ => none

private def Assembly.name (frames : List Frame) (token : Token) : Option Assembly :=
  match frames, token with
  | .object members _ :: outer, .scalar (.text key) =>
      some ⟨.object members key :: outer, .colon⟩
  | _, _ => none

private def Assembly.accept (assembly : Assembly) (token : Token) : Option Assembly :=
  let frames := assembly.frames
  match assembly.expected, token with
  | .value, token => beginValue frames token
  | .firstItem, .closeArray => close frames token
  | .firstItem, token => beginValue frames token
  | .firstKey, .closeObject => close frames token
  | .firstKey, token => name frames token
  | .key, token => name frames token
  | .colon, .colon => some ⟨frames, .value⟩
  | .separator, .comma =>
      match frames with
      | .array _ :: _ => some ⟨frames, .value⟩
      | .object _ _ :: _ => some ⟨frames, .key⟩
      | [] => none
  | .separator, token => close frames token
  | _, _ => none

private def readChar (state : Scan × Assembly) (c : Char) : Option (Scan × Assembly) := do
  let (scan, tokens) ← scanChar state.1 c
  let assembly ← tokens.foldlM Assembly.accept state.2
  some (scan, assembly)

def parse? (text : String) : Option Json := do
  let (scan, assembly) ← text.toList.foldlM readChar (.between, ⟨[], .value⟩)
  let last ← finish scan
  let assembly ← last.toList.foldlM Assembly.accept assembly
  match assembly.expected with
  | .nothing result => some result
  | _ => none

end Json

end Schemata
