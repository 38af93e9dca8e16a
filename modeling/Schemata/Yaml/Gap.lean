import Schemata.Yaml.Character
namespace Schemata

/-! Gaps between the words of a scalar that runs over several lines. -/

namespace Yaml

inductive Gap where
  | blanks (text : List Char)
  /-- The end of a line, none if a backslash hides it, and those of the empty lines after
  it.  The blanks around them do not count. -/
  | lines (first : Option Char) (more : List Char)
deriving DecidableEq

namespace Gap

def empty : Gap := .blanks []

def hasBreak : Gap → Bool
  | blanks _ => false
  | lines _ _ => true

def add (gap : Gap) (c : Char) : Gap :=
  match gap with
  | blanks text => if isBreak c then lines (some c) [] else blanks (text ++ [c])
  | lines first more => if isBreak c then lines first (more ++ [c]) else lines first more

/-- What a gap says.  The end of a line joins the words by a space, or says nothing when
empty lines follow, each of which is the end of a line; U+2028 and U+2029 stand for
themselves. -/
def text : Gap → List Char
  | blanks text => text
  | lines (some '\n') [] => [' ']
  | lines (some '\n') more => more
  | lines first more => first.toList ++ more

end Gap

end Yaml

end Schemata
