import Schemata.Yaml.Gap
namespace Schemata

/-! Plain scalars. -/

namespace Yaml

/-- Characters that end a plain scalar in braces. -/
def isFlowMark (c : Char) : Bool := c = ',' || c = '[' || c = ']' || c = '{' || c = '}'

/-- Whether a plain scalar may start here.  The dash, and outside of braces the question
mark and the colon, start one only before a word. -/
def startsPlain (braces : Bool) : List Placed → Bool
  | [] => false
  | c :: rest =>
      if c.char = '-' then !endsWord rest
      else if c.char = '?' || c.char = ':' then !braces && !endsWord rest
      else !(isBlank c.char || isBreak c.char || isFlowMark c.char ||
        ['#', '&', '*', '!', '|', '>', '\'', '"', '%', '@', '`'].contains c.char)

/-- Whether a plain scalar ends before a character that follows a gap: a line is not
indented enough or marks a document, a comment starts, a colon ends a word, or the entry
in braces ends. -/
def endsPlain (braces : Bool) (indent : Nat) (gap : Gap) : List Placed → Bool
  | [] => true
  | c :: rest =>
      (gap.hasBreak && !braces && c.column < indent) || isDocumentMarker (c :: rest) ||
        (c.char = '#' && gap ≠ .empty) || (c.char = ':' && endsWord rest) ||
        (braces && isFlowMark c.char)

/-- Whether a colon in braces has a mark attached that it must not have. -/
def isMisplacedColon (braces : Bool) : List Placed → Bool
  | c :: d :: _ => braces && c.char = ':' && (isFlowMark d.char || d.char = '?')
  | _ => false

/-- A plain scalar: its text, whether a line ends behind it, and what follows.  Further
lines have to be indented by `indent`, and not by tabs. -/
def plain? (braces : Bool) (indent : Nat) (gap : Gap) :
    List Placed → Option (List Char × Bool × List Placed)
  | [] => some ([], gap.hasBreak, [])
  | c :: rest =>
      if isBlank c.char || isBreak c.char then
        if c.char = '\t' && gap.hasBreak && c.column < indent then none
        else plain? braces indent (gap.add c.char) rest
      else if endsPlain braces indent gap (c :: rest) then
        some ([], gap.hasBreak, c :: rest)
      else if isMisplacedColon braces (c :: rest) then none
      else do
        let (text, ended, after) ← plain? braces indent .empty rest
        some (gap.text ++ c.char :: text, ended, after)

end Yaml

end Schemata
