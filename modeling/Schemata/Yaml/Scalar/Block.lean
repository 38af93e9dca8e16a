import Schemata.Number.Decimal
import Schemata.Yaml.Gap
namespace Schemata

/-! Scalars written as a block of indented lines, literally or folded. -/

namespace Yaml

/-- What becomes of the ends of lines at the end of a block. -/
inductive Chomping where
  | strip
  | clip
  | keep
deriving DecidableEq

private def takeChomping : List Placed → Chomping × List Placed
  | [] => (.clip, [])
  | c :: rest =>
      if c.char = '-' then (.strip, rest)
      else if c.char = '+' then (.keep, rest)
      else (.clip, c :: rest)

/-- A digit that says how far the block is indented; 0 is not one. -/
private def takeIncrement? : List Placed → Option (Option Nat × List Placed)
  | [] => some (none, [])
  | c :: rest =>
      if c.char = '0' then none
      else if Decimal.isDigit c.char then some (some (Decimal.digitValue c.char), rest)
      else some (none, c :: rest)

/-- What stands after the mark of a block: a digit and a sign in either order. -/
def blockHeader? (text : List Placed) : Option (Chomping × Option Nat × List Placed) := do
  let (before, text) := takeChomping text
  let (increment, text) ← takeIncrement? text
  let (after, text) := if before = .clip then takeChomping text else (before, text)
  let lines ← nextLine? text
  some (after, increment, lines)

/-- The widest indent of the lines up to the first that is not empty, at least `widest`;
no tab may start such a line. -/
def indentFound? (widest : Nat) : List Placed → Option Nat
  | [] => some widest
  | c :: rest =>
      if c.char = ' ' then indentFound? (max widest (c.column + 1)) rest
      else if isBreak c.char then indentFound? widest rest
      else if c.char = '\t' then none
      else some widest

def Chomping.tail (chomping : Chomping) (first : Option Char) (more : List Char) :
    List Char :=
  match chomping with
  | .strip => []
  | .clip => first.toList
  | .keep => first.toList ++ more

structure BlockForm where
  folded : Bool
  chomping : Chomping
  indent : Nat

/-- What joins two lines.  Folding leaves the ends of lines beside one that starts with a
blank. -/
def BlockForm.joint (form : BlockForm) (first : Option Char) (more : List Char)
    (blankBeside : Bool) : List Char :=
  if form.folded && !blankBeside then (Gap.lines first more).text
  else first.toList ++ more

/-- The lines of a block.  `first` and `more` are the ends of lines since its last text,
`blankBefore` says whether the line of that text starts with a blank, and `inText` whether
a line's text is being read. -/
def BlockForm.lines? (form : BlockForm) (first : Option Char) (more : List Char)
    (blankBefore inText : Bool) : List Placed → Option (List Char × List Placed)
  | [] => some (form.chomping.tail first more, [])
  | c :: rest =>
      if inText then
        if isBreak c.char then form.lines? (some c.char) [] blankBefore false rest
        else do
          let (text, after) ← form.lines? none [] blankBefore true rest
          some (c.char :: text, after)
      else if isBreak c.char then form.lines? first (more ++ [c.char]) blankBefore false rest
      else if c.column < form.indent then
        if c.char = ' ' then form.lines? first more blankBefore false rest
        else if c.char = '\t' then none
        else some (form.chomping.tail first more, c :: rest)
      else do
        let joint := form.joint first more (blankBefore || isBlank c.char)
        let (text, after) ← form.lines? none [] (isBlank c.char) true rest
        some (joint ++ c.char :: text, after)

/-- After the mark of a block: its text, and what follows.  Its lines are indented further
than the mapping around it, if there is one. -/
def block? (folded : Bool) (outer : Option Nat) (text : List Placed) :
    Option (List Char × List Placed) := do
  let (chomping, increment, lines) ← blockHeader? text
  let indent ← match increment with
    | some increment => some (outer.getD 0 + increment)
    | none => indentFound? (outer.elim 1 (· + 1)) lines
  BlockForm.lines? { folded, chomping, indent } none [] false false lines

end Yaml

end Schemata
