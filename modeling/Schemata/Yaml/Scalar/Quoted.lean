import Schemata.Number.Decimal
import Schemata.Yaml.Gap
namespace Schemata

/-! Quoted scalars.

They may run over several lines, none of which marks a document.  Between double quotes a
backslash gives the character after it a meaning, and hides the end of a line. -/

namespace Yaml

private def hexDigit? (c : Char) : Option Nat :=
  if Decimal.isDigit c then some (Decimal.digitValue c)
  else if 'a' ≤ c.toLower && c.toLower ≤ 'f' then some (c.toLower.toNat - 'a'.toNat + 10)
  else none

def hexValue? (digits : List Char) : Option Nat :=
  digits.foldlM (fun total c => (hexDigit? c).map (total * 16 + ·)) 0

/-- The character with a code of so many hexadecimal digits, and the number of characters
of the escape. -/
private def coded? (size : Nat) (text : List Char) : Option (Char × Nat) :=
  if text.length < size then none
  else do
    let code ← hexValue? (text.take size)
    if code.isValidChar then some (Char.ofNat code, size + 1) else none

private def named? : Char → Option Char
  | '0' => some '\x00'
  | 'a' => some '\x07'
  | 'b' => some '\x08'
  | 't' => some '\t'
  | '\t' => some '\t'
  | 'n' => some '\n'
  | 'v' => some '\x0b'
  | 'f' => some '\x0c'
  | 'r' => some '\r'
  | 'e' => some '\x1b'
  | ' ' => some ' '
  | '"' => some '"'
  | '/' => some '/'
  | '\\' => some '\\'
  | 'N' => some '\u0085'
  | '_' => some '\u00a0'
  | 'L' => some '\u2028'
  | 'P' => some '\u2029'
  | _ => none

/-- What stands after a backslash: the character that it means, and how many characters
say so. -/
def escape? : List Char → Option (Char × Nat)
  | [] => none
  | 'x' :: rest => coded? 2 rest
  | 'u' :: rest => coded? 4 rest
  | 'U' :: rest => coded? 8 rest
  | c :: _ => (named? c).map (·, 1)

/-- After an opening double quote and a gap: the text up to the closing quote, and what
follows.  So many characters as `pending` says belong to an escape and are passed over. -/
def doubleQuoted? (gap : Gap) : Nat → List Placed → Option (List Char × List Placed)
  | _, [] => none
  | pending + 1, _ :: rest => doubleQuoted? gap pending rest
  | 0, c :: rest =>
      if isDocumentMarker (c :: rest) then none
      else if isBlank c.char || isBreak c.char then doubleQuoted? (gap.add c.char) 0 rest
      else if c.char = '"' then some (gap.text, rest)
      else if c.char ≠ '\\' then do
        let (text, after) ← doubleQuoted? .empty 0 rest
        some (gap.text ++ c.char :: text, after)
      else if (rest.head?.map fun d => isBreak d.char) = some true then do
        let (text, after) ← doubleQuoted? (.lines none []) 1 rest
        some (gap.text ++ text, after)
      else do
        let (meant, size) ← escape? ((rest.take 9).map Placed.char)
        let (text, after) ← doubleQuoted? .empty size rest
        some (gap.text ++ meant :: text, after)

/-- After an opening single quote and a gap: the text up to the closing quote, and what
follows.  Two quotes stand for one. -/
def singleQuoted? (gap : Gap) : List Placed → Option (List Char × List Placed)
  | [] => none
  | c :: rest =>
      if isDocumentMarker (c :: rest) then none
      else if isBlank c.char || isBreak c.char then singleQuoted? (gap.add c.char) rest
      else if c.char ≠ '\'' then do
        let (text, after) ← singleQuoted? .empty rest
        some (gap.text ++ c.char :: text, after)
      else match rest with
        | [] => some (gap.text, [])
        | d :: after =>
            if d.char = '\'' then do
              let (text, after) ← singleQuoted? .empty after
              some (gap.text ++ '\'' :: text, after)
            else some (gap.text, d :: after)

end Yaml

end Schemata
