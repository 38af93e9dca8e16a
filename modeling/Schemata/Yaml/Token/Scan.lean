import Schemata.Yaml.Scalar.Block
import Schemata.Yaml.Scalar.Plain
import Schemata.Yaml.Token.Basic
namespace Schemata

/-! Tokens of a text.

A word is known to be a key only when its colon comes, so the tokens since a possible key
are kept apart until then.  A key stands on the line of its colon, at most 1024
characters before it.  Text that only lists or nested mappings have is refused. -/

namespace Yaml

/-- A place where a key may have started, and the tokens since then, last first. -/
structure PossibleKey where
  line : Nat
  column : Nat
  /-- In a block, what starts at its indent is a key or a fault. -/
  required : Bool
  tokens : List Token := []

/-- The state of reading: what is left of the text, and the tokens before the possible
key, last first. -/
structure Scan where
  rest : List Placed
  braces : Bool := false
  /-- The indent of the block that is open. -/
  indent : Option Nat := none
  keyAllowed : Bool := true
  possibleKey : Option PossibleKey := none
  tokens : List Token := []

namespace Scan

def put (scan : Scan) (token : Token) : Scan :=
  match scan.possibleKey with
  | some key => { scan with possibleKey := some { key with tokens := token :: key.tokens } }
  | none => { scan with tokens := token :: scan.tokens }

/-- Gives up the possible key, unless it has to be one. -/
def dropKey? (scan : Scan) : Option Scan :=
  match scan.possibleKey with
  | some key =>
      if key.required then none
      else some { scan with possibleKey := none, tokens := key.tokens ++ scan.tokens }
  | none => some scan

/-- Gives up a possible key that is too far behind a place. -/
def dropStaleKey? (scan : Scan) (place : Placed) : Option Scan :=
  match scan.possibleKey with
  | some key =>
      if key.line < place.line || key.column + 1024 < place.column then scan.dropKey?
      else some scan
  | none => some scan

/-- Notes that a key may start here, and that none starts right after it. -/
def noteKey? (scan : Scan) (place : Placed) : Option Scan :=
  if !scan.keyAllowed then some scan
  else do
    let required := !scan.braces && scan.indent = some place.column
    let scan ← scan.dropKey?
    some
      { scan with
        keyAllowed := false
        possibleKey := some { line := place.line, column := place.column, required } }

/-- Opens a block at a column unless one is open there; a block within a block is
refused. -/
def openBlock? (scan : Scan) (column : Nat) : Option Scan :=
  if scan.braces then some scan
  else match scan.indent with
    | none => some ({ scan with indent := some column }.put .blockStart)
    | some indent => if indent < column then none else some scan

def closeBlock (scan : Scan) : Scan :=
  if scan.braces || scan.indent.isNone then scan
  else { scan with indent := none }.put .blockEnd

/-- Closes a block that is indented further than a column. -/
def closeBlockBefore (scan : Scan) (column : Nat) : Scan :=
  if scan.indent.any (column < ·) then scan.closeBlock else scan

/-- Skips blanks, comments and ends of lines.  After the end of a line outside of braces a
key may start, and no tab may stand before it. -/
def skipGap (braces keyAllowed inComment : Bool) : List Placed → Bool × List Placed
  | [] => (keyAllowed, [])
  | c :: rest =>
      if isBreak c.char then skipGap braces (keyAllowed || !braces) false rest
      else if inComment then skipGap braces keyAllowed true rest
      else if c.char = ' ' || (c.char = '\t' && (braces || !keyAllowed)) then
        skipGap braces keyAllowed false rest
      else if c.char = '#' then skipGap braces keyAllowed true rest
      else (keyAllowed, c :: rest)

/-- A directive or the mark of a document, which end a block. -/
private def outerToken? (scan : Scan) (token : Token) (rest : List Placed) :
    Option Scan := do
  let scan ← scan.closeBlock.dropKey?
  some { scan.put token with rest, keyAllowed := false }

private def openBrace? (scan : Scan) (rest : List Placed) : Option Scan := do
  if scan.braces then none
  else
    let scan ← scan.dropKey?
    some { scan.put .openBrace with rest, braces := true, keyAllowed := true }

private def closeBrace? (scan : Scan) (rest : List Placed) : Option Scan := do
  if !scan.braces then none
  else
    let scan ← scan.dropKey?
    some { scan.put .closeBrace with rest, braces := false, keyAllowed := false }

private def comma? (scan : Scan) (rest : List Placed) : Option Scan := do
  if !scan.braces then none
  else
    let scan ← scan.dropKey?
    some { scan.put .comma with rest, keyAllowed := true }

/-- A question mark: any node may follow as a key. -/
private def keyMark? (scan : Scan) (column : Nat) (rest : List Placed) : Option Scan := do
  if !scan.braces && !scan.keyAllowed then none
  else
    let scan ← (← scan.dropKey?).openBlock? column
    some { scan.put .key with rest, keyAllowed := !scan.braces }

/-- A colon: what started at the possible key is the key, or a key stands before it that
a question mark announced. -/
private def valueMark? (scan : Scan) (column : Nat) (rest : List Placed) : Option Scan :=
  match scan.possibleKey with
  | some key => do
      let scan ← { scan with possibleKey := none }.openBlock? key.column
      let scan := scan.put .key
      let scan := { scan with tokens := key.tokens ++ scan.tokens }
      some { scan.put .value with rest, keyAllowed := false }
  | none => do
      if !scan.braces && !scan.keyAllowed then none
      else
        let scan ← scan.openBlock? column
        some { scan.put .value with rest, keyAllowed := !scan.braces }

private def blockScalar? (scan : Scan) (style : Style) (rest : List Placed) :
    Option Scan := do
  if scan.braces then none
  else
    let scan ← scan.dropKey?
    let (text, rest) ← block? (style = .folded) scan.indent rest
    some { scan.put (.scalar style (String.ofList text)) with rest, keyAllowed := true }

private def plainScalar? (scan : Scan) (start : Placed) (rest : List Placed) :
    Option Scan := do
  if !startsPlain scan.braces (start :: rest) then none
  else
    let scan ← scan.noteKey? start
    let (text, ended, rest) ←
      plain? scan.braces (scan.indent.elim 0 (· + 1)) .empty (start :: rest)
    some { scan.put (.scalar .plain (String.ofList text)) with rest, keyAllowed := ended }

private def token? (scan : Scan) (start : Placed) (rest : List Placed) : Option Scan :=
  match start.char with
  | '{' => scan.openBrace? rest
  | '}' => scan.closeBrace? rest
  | ',' => scan.comma? rest
  | '&' => do
      let scan ← scan.noteKey? start
      let (name, rest) ← anchorName? rest
      some { scan.put (.anchor name) with rest }
  | '*' => do
      let scan ← scan.noteKey? start
      let (name, rest) ← anchorName? rest
      some { scan.put (.alias name) with rest }
  | '!' => do
      let scan ← scan.noteKey? start
      let (tag, rest) ← tag? scan.braces rest
      some { scan.put (.tag tag) with rest }
  | '|' => scan.blockScalar? .literal rest
  | '>' => scan.blockScalar? .folded rest
  | '\'' => do
      let scan ← scan.noteKey? start
      let (text, rest) ← singleQuoted? .empty rest
      some { scan.put (.scalar .quoted (String.ofList text)) with rest }
  | '"' => do
      let scan ← scan.noteKey? start
      let (text, rest) ← doubleQuoted? .empty 0 rest
      some { scan.put (.scalar .quoted (String.ofList text)) with rest }
  | c =>
      let mark := scan.braces || endsWord rest
      if c = '?' && mark then scan.keyMark? start.column rest
      else if c = ':' && mark then scan.valueMark? start.column rest
      else scan.plainScalar? start rest

private def step? (scan : Scan) (start : Placed) (rest : List Placed) : Option Scan := do
  let scan ← scan.dropStaleKey? start
  let scan := scan.closeBlockBefore start.column
  if start.column = 0 && start.char = '%' then
    let (directive, rest) ← directive? rest
    scan.outerToken? (.directive directive) rest
  else if isMarker '-' (start :: rest) then scan.outerToken? .documentStart (rest.drop 2)
  else if isMarker '.' (start :: rest) then scan.outerToken? .documentEnd (rest.drop 2)
  else scan.token? start rest

private def finish? (scan : Scan) : Option (List Token) := do
  let scan ← scan.closeBlock.dropKey?
  some scan.tokens.reverse

/-- The tokens up to the end of the text; `count` bounds their number. -/
private def tokensFrom? : Nat → Scan → Option (List Token)
  | 0, _ => none
  | count + 1, scan => do
      let (keyAllowed, rest) := skipGap scan.braces scan.keyAllowed false scan.rest
      let scan := { scan with keyAllowed, rest }
      match rest with
      | [] => scan.finish?
      | start :: rest =>
          let scan ← scan.step? start rest
          tokensFrom? count scan

def tokens? (text : List Placed) : Option (List Token) :=
  tokensFrom? (text.length + 1) { rest := text }

end Scan

end Yaml

end Schemata
