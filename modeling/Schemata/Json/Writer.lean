import Schemata.Json.Basic
import Schemata.Number.Shortest
namespace Schemata

/-! JSON as text, on one line or with an indent of two. -/

def JsonNumber.text : JsonNumber → List Char
  | .int value => Decimal.signText value ++ Decimal.digitsOf value.natAbs
  | .float value => value.text .json

namespace Json

/-- Quotes, backslashes and controls are escaped, and nothing else. -/
private def escapedChar (c : Char) : List Char :=
  match c with
  | '"' => ['\\', '"']
  | '\\' => ['\\', '\\']
  | '\x08' => ['\\', 'b']
  | '\x0c' => ['\\', 'f']
  | '\n' => ['\\', 'n']
  | '\r' => ['\\', 'r']
  | '\t' => ['\\', 't']
  | c =>
      if c.toNat < 0x20 then
        ['\\', 'u', '0', '0', Nat.digitChar (c.toNat / 16), Nat.digitChar (c.toNat % 16)]
      else [c]

def quotedText (text : String) : List Char :=
  '"' :: text.toList.flatMap escapedChar ++ ['"']

mutual

def compactChars : Json → List Char
  | .null => "null".toList
  | .bool value => (if value then "true" else "false").toList
  | .number value => value.text
  | .text value => quotedText value
  | .array items => '[' :: compactItems items ++ [']']
  | .object members => '{' :: compactMembers members ++ ['}']

private def compactItems : List Json → List Char
  | [] => []
  | item :: [] => compactChars item
  | item :: rest => compactChars item ++ ',' :: compactItems rest

private def compactMembers : List (String × Json) → List Char
  | [] => []
  | (key, value) :: [] => quotedText key ++ ':' :: compactChars value
  | (key, value) :: rest =>
      quotedText key ++ ':' :: (compactChars value ++ ',' :: compactMembers rest)

end

def compact (json : Json) : String := String.ofList json.compactChars

private def newline (depth : Nat) : List Char := '\n' :: List.replicate (2 * depth) ' '

mutual

private def indentedChars (depth : Nat) : Json → List Char
  | .array (item :: rest) =>
      '[' :: (indentedItems (depth + 1) (item :: rest) ++ newline depth ++ [']'])
  | .object (member :: rest) =>
      '{' :: (indentedMembers (depth + 1) (member :: rest) ++ newline depth ++ ['}'])
  | .array [] => ['[', ']']
  | .object [] => ['{', '}']
  | .null => "null".toList
  | .bool value => (if value then "true" else "false").toList
  | .number value => value.text
  | .text value => quotedText value

private def indentedItems (depth : Nat) : List Json → List Char
  | [] => []
  | item :: [] => newline depth ++ indentedChars depth item
  | item :: rest =>
      newline depth ++ indentedChars depth item ++ ',' :: indentedItems depth rest

private def indentedMembers (depth : Nat) : List (String × Json) → List Char
  | [] => []
  | (key, value) :: [] =>
      newline depth ++ quotedText key ++ ':' :: ' ' :: indentedChars depth value
  | (key, value) :: rest =>
      newline depth ++ quotedText key ++ ':' :: ' ' ::
        (indentedChars depth value ++ ',' :: indentedMembers depth rest)

end

def indented (json : Json) : String := String.ofList (indentedChars 0 json)

end Json

end Schemata
