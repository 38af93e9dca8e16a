import Schemata.Yaml.Scalar.Quoted
namespace Schemata

/-! Names, tags and directives. -/

namespace Yaml

def anchorName? (text : List Placed) : Option (String × List Placed) :=
  let name := text.takeWhile fun c => isNameChar c.char
  let after := text.drop name.length
  let ends := endsWord after ||
    (after.head?.map fun c => ['?', ':', ',', ']', '}', '%', '@', '`'].contains c.char) =
      some true
  if name.isEmpty || !ends then none else some (String.ofList (name.map Placed.char), after)

/-- A tag as it is written: a handle, none in a tag that is written in full, and what
follows it. -/
structure Tag where
  handle : String
  suffix : String
deriving DecidableEq

def Tag.lone : Tag := ⟨"", "!"⟩

/-- Characters of an address.  The comma and square brackets stand only in one that is
written in full. -/
private def isAddressChar (full : Bool) (c : Char) : Bool :=
  isNameChar c ||
    [';', '/', '?', ':', '@', '&', '=', '+', '$', '.', '!', '~', '*', '\'', '(', ')'].contains c ||
    (full && (c = ',' || c = '[' || c = ']'))

/-- The number of octets that follow a first octet in UTF-8. -/
private def octetsAfter? (octet : Nat) : Option Nat :=
  if octet < 0x80 then some 0
  else if octet < 0xC0 then none
  else if octet < 0xE0 then some 1
  else if octet < 0xF0 then some 2
  else if octet < 0xF8 then some 3
  else none

/-- An address and what follows.  An octet is escaped by a percent sign; `due` octets of a
character are still to come, and `pending` characters of an escape are passed over. -/
private def address? (full : Bool) (due : Nat) :
    Nat → List Placed → Option (List Char × List Placed)
  | _, [] => if due = 0 then some ([], []) else none
  | pending + 1, _ :: rest => address? full due pending rest
  | 0, c :: rest =>
      if c.char = '%' then
        if rest.length < 2 then none
        else do
          let octet ← hexValue? ((rest.take 2).map Placed.char)
          let due ←
            if due = 0 then octetsAfter? octet
            else if 0x80 ≤ octet && octet < 0xC0 then some (due - 1)
            else none
          let (text, after) ← address? full due 2 rest
          some (Char.ofNat octet :: text, after)
      else if due ≠ 0 then none
      else if isAddressChar full c.char then do
        let (text, after) ← address? full 0 0 rest
        some (c.char :: text, after)
      else some ([], c :: rest)

private def someAddress? (full : Bool) (text : List Placed) :
    Option (String × List Placed) := do
  let (address, after) ← address? full 0 0 text
  if address.isEmpty then none else some (String.ofList address, after)

/-- The name between two exclamation marks, after the first of them. -/
private def handle? (text : List Placed) : Option (String × List Placed) :=
  let name := text.takeWhile fun c => isNameChar c.char
  match text.drop name.length with
  | c :: rest =>
      if c.char = '!' then some (String.ofList ('!' :: name.map Placed.char ++ ['!']), rest)
      else none
  | [] => none

private def unendedTag? (text : List Placed) : Option (Tag × List Placed) :=
  match text with
  | c :: rest =>
      if c.char = '<' then do
        let (address, after) ← someAddress? true rest
        match after with
        | d :: after => if d.char = '>' then some (⟨"", address⟩, after) else none
        | [] => none
      else match handle? text with
        | some (handle, rest) => do
            let (suffix, after) ← someAddress? false rest
            some (⟨handle, suffix⟩, after)
        | none => do
            let (suffix, after) ← address? false 0 0 text
            some (if suffix.isEmpty then .lone else ⟨"!", String.ofList suffix⟩, after)
  | [] => some (.lone, [])

/-- A tag, after its exclamation mark.  In braces a comma may be attached to it. -/
def tag? (braces : Bool) (text : List Placed) : Option (Tag × List Placed) := do
  let (tag, after) ← unendedTag? text
  if endsWord after || (braces && after.head?.map Placed.char = some ',') then
    some (tag, after)
  else none

/-- What stands before a document: the version of the language, and what handles of tags
stand for. -/
inductive Directive where
  | version (major minor : Nat)
  | handle (handle meaning : String)
deriving DecidableEq

private def versionNumber? (text : List Placed) : Option (Nat × List Placed) :=
  let digits := text.takeWhile fun c => Decimal.isDigit c.char
  if digits.isEmpty || 9 < digits.length then none
  else
    let value := digits.foldl (fun total c => total * 10 + Decimal.digitValue c.char) 0
    some (value, text.drop digits.length)

private def version? (text : List Placed) : Option (Directive × List Placed) := do
  let (major, after) ← versionNumber? (skipBlanks text)
  if after.head?.map Placed.char ≠ some '.' then none
  else
    let (minor, after) ← versionNumber? after.tail
    some (.version major minor, after)

private def handleMeaning? (text : List Placed) : Option (Directive × List Placed) :=
  match skipBlanks text with
  | [] => none
  | c :: rest =>
      if c.char ≠ '!' then none
      else do
        let (handle, after) :=
          match handle? rest with
          | some found => found
          | none => ("!", rest)
        if (after.head?.map fun c => isBlank c.char) ≠ some true then none
        else
          let (meaning, after) ← someAddress? true (skipBlanks after)
          if endsWord after then some (.handle handle meaning, after) else none

/-- A directive, after its percent sign, and the lines after it. -/
def directive? (text : List Placed) : Option (Directive × List Placed) := do
  let name := text.takeWhile fun c => isNameChar c.char
  let after := text.drop name.length
  if !endsWord after then none
  else
    let (directive, after) ←
      if name.map Placed.char = "YAML".toList then version? after
      else if name.map Placed.char = "TAG".toList then handleMeaning? after
      else none
    let lines ← nextLine? after
    some (directive, lines)

end Yaml

end Schemata
