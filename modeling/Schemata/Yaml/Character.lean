namespace Schemata

/-! Characters of a YAML text and the places where they stand. -/

namespace Yaml

/-- Characters that a text may hold: no controls but the tab and the ends of lines. -/
def isAllowed (c : Char) : Bool :=
  let code := c.toNat
  code = 9 || code = 10 || code = 13 || (0x20 ≤ code && code ≤ 0x7E) || code = 0x85 ||
    (0xA0 ≤ code && code ≤ 0xFFFD) || 0x10000 ≤ code

def isBlank (c : Char) : Bool := c = ' ' || c = '\t'

def isBreak (c : Char) : Bool := c = '\n' || c = '\u2028' || c = '\u2029'

/-- Characters of names: letters and digits of ASCII, the underscore and the dash. -/
def isNameChar (c : Char) : Bool := c.isAlphanum || c = '_' || c = '-'

/-- A character with its line and its column, both counted from 0. -/
structure Placed where
  char : Char
  line : Nat
  column : Nat
deriving DecidableEq

/-- Places characters from a line and column on.  A carriage return, alone or before a
line feed, and U+0085 end a line as a line feed does. -/
def place (line column : Nat) : List Char → List Placed
  | [] => []
  | '\r' :: '\n' :: rest => ⟨'\n', line, column⟩ :: place (line + 1) 0 rest
  | c :: rest =>
      if c = '\r' || c = '\u0085' then ⟨'\n', line, column⟩ :: place (line + 1) 0 rest
      else if isBreak c then ⟨c, line, column⟩ :: place (line + 1) 0 rest
      else ⟨c, line, column⟩ :: place line (column + 1) rest

/-- The characters of a text with their places.  A byte order mark at its start takes a
column and says nothing. -/
def placeText : List Char → List Placed
  | '\ufeff' :: rest => place 0 1 rest
  | text => place 0 0 text

/-- Whether a word ends here: at a blank, the end of a line or the end of the text. -/
def endsWord : List Placed → Bool
  | [] => true
  | c :: _ => isBlank c.char || isBreak c.char

/-- Whether a line starts here with three marks of a kind and nothing attached. -/
def isMarker (mark : Char) : List Placed → Bool
  | a :: b :: c :: rest =>
      a.column = 0 && a.char = mark && b.char = mark && c.char = mark && endsWord rest
  | _ => false

/-- Whether a line that starts or ends a document starts here. -/
def isDocumentMarker (text : List Placed) : Bool := isMarker '-' text || isMarker '.' text

def skipBlanks (text : List Placed) : List Placed :=
  text.dropWhile fun (c : Placed) => isBlank c.char

/-- The lines after this one, of which nothing may be left but blanks and a comment. -/
def nextLine? (text : List Placed) : Option (List Placed) :=
  let rest := match skipBlanks text with
    | c :: rest =>
        if c.char = '#' then rest.dropWhile fun (c : Placed) => !isBreak c.char
        else c :: rest
    | [] => []
  match rest with
  | [] => some []
  | c :: rest => if isBreak c.char then some rest else none

end Yaml

end Schemata
