import Schemata.Yaml.Token.Scan
namespace Schemata

/-! A document that is a mapping of scalars, as a block or in braces.

The tokens are read as nodes; then tags and aliases are replaced by what they stand for,
in the order of the text. -/

namespace Yaml

/-- A key or a value as it is written. -/
inductive Node where
  | alias (name : String)
  | scalar (anchor : Option String) (tag : Option Tag) (style : Style) (text : String)
deriving DecidableEq

def Node.empty : Node := .scalar none none .plain ""

/-- The anchor and the tag of a node, in either order. -/
private def takeProperties : List Token → (Option String × Option Tag) × List Token
  | .anchor name :: .tag tag :: rest => ((some name, some tag), rest)
  | .tag tag :: .anchor name :: rest => ((some name, some tag), rest)
  | .anchor name :: rest => ((some name, none), rest)
  | .tag tag :: rest => ((none, some tag), rest)
  | rest => ((none, none), rest)

/-- A node, of which an anchor or a tag may be all that is written.  A lone exclamation
mark before a scalar is no tag. -/
private def node? (tokens : List Token) : Option (Node × List Token) :=
  match tokens with
  | .alias name :: rest => some (.alias name, rest)
  | tokens =>
      let ((anchor, tag), rest) := takeProperties tokens
      match rest with
      | .scalar style text :: rest =>
          some (.scalar anchor (tag.filter (· ≠ .lone)) style text, rest)
      | .blockStart :: _ => none
      | .openBrace :: _ => none
      | rest =>
          if anchor.isNone && tag.isNone then none
          else some (.scalar anchor tag .plain "", rest)

/-- A node, which is not there if one of these tokens comes next. -/
private def nodeBefore? (ends : List Token) (tokens : List Token) :
    Option (Node × List Token) :=
  match tokens with
  | [] => none
  | token :: rest => if token ∈ ends then some (.empty, token :: rest) else node? (token :: rest)

/-- The value of an entry, which is not there without a colon. -/
private def entryValue? (ends : List Token) (tokens : List Token) :
    Option (Node × List Token) :=
  match tokens with
  | .value :: rest => nodeBefore? ends rest
  | rest => some (.empty, rest)

/-- The entries of a block and what follows; `count` bounds their number. -/
private def blockEntries? :
    Nat → List Token → Option (List (Node × Node) × List Token)
  | 0, _ => none
  | _ + 1, .blockEnd :: rest => some ([], rest)
  | count + 1, .key :: rest => do
      let (key, rest) ← nodeBefore? [.key, .value, .blockEnd] rest
      let (value, rest) ← entryValue? [.key, .value, .blockEnd] rest
      let (entries, rest) ← blockEntries? count rest
      some ((key, value) :: entries, rest)
  | _, _ => none

/-- An entry in braces.  A node that no colon follows is a key. -/
private def braceEntry? (tokens : List Token) : Option ((Node × Node) × List Token) :=
  match tokens with
  | .key :: rest => do
      let (key, rest) ← nodeBefore? [.value, .comma, .closeBrace] rest
      let (value, rest) ← entryValue? [.comma, .closeBrace] rest
      some ((key, value), rest)
  | tokens => (node? tokens).map fun (key, rest) => ((key, .empty), rest)

/-- The entries in braces, of which the last may have a comma behind it, and what
follows. -/
private def braceEntries? :
    Nat → List Token → Option (List (Node × Node) × List Token)
  | 0, _ => none
  | _ + 1, .closeBrace :: rest => some ([], rest)
  | count + 1, tokens => do
      let (entry, rest) ← braceEntry? tokens
      match rest with
      | .comma :: rest =>
          let (entries, rest) ← braceEntries? count rest
          some (entry :: entries, rest)
      | .closeBrace :: rest => some ([entry], rest)
      | _ => none

structure Document where
  directives : List Directive := []
  anchor : Option String := none
  tag : Option Tag := none
  entries : List (Node × Node) := []

private def takeDirectives : List Token → List Directive × List Token
  | .directive directive :: rest =>
      let (directives, rest) := takeDirectives rest
      (directive :: directives, rest)
  | rest => ([], rest)

/-- The mapping of a document, and what follows.  A document of nothing but an anchor or
a tag has no entries. -/
private def content? (directives : List Directive) (tokens : List Token) :
    Option (Document × List Token) := do
  let ((anchor, tag), rest) := takeProperties tokens
  let (entries, rest) ← match rest with
    | .blockStart :: rest => blockEntries? (rest.length + 1) rest
    | .openBrace :: rest => braceEntries? (rest.length + 1) rest
    | .scalar _ _ :: _ => none
    | rest => if anchor.isNone && tag.isNone then none else some ([], rest)
  some (⟨directives, anchor, tag, entries⟩, rest)

/-- The document that tokens write, if they write no other.  Without any token it is
empty, and so is one that nothing follows the mark of. -/
def Document.ofTokens? (tokens : List Token) : Option Document := do
  let (directives, rest) := takeDirectives tokens
  let (document, rest) ← match rest with
    | .documentStart :: [] => some ({ directives }, [])
    | .documentStart :: .documentEnd :: rest => some ({ directives }, rest)
    | .documentStart :: rest => content? directives rest
    | [] => if directives.isEmpty then some ({}, []) else none
    | rest => if directives.isEmpty then content? [] rest else none
  if rest.all (· = .documentEnd) then some document else none

abbrev Handles := List (String × String)

private def Directive.handle? : Directive → Option (String × String)
  | .handle name meaning => some (name, meaning)
  | .version _ _ => none

/-- The handles of a document, after those that it declares the common ones.  A version
other than 1.1 and 1.2, and a second declaration, are faults. -/
private def handles? (directives : List Directive) : Option Handles :=
  let handles := directives.filterMap Directive.handle?
  let versions := directives.filter fun directive => directive.handle?.isNone
  if 1 < versions.length then none
  else if versions.any fun version => version ≠ .version 1 1 && version ≠ .version 1 2 then none
  else if (handles.map Prod.fst).eraseDups ≠ handles.map Prod.fst then none
  else some (handles ++ [("!", "!"), ("!!", "tag:yaml.org,2002:")])

private def Tag.resolve? (handles : Handles) (tag : Tag) : Option String :=
  if tag.handle.isEmpty then some tag.suffix
  else (handles.lookup tag.handle).map (· ++ tag.suffix)

/-- What anchors stand for, the latest first; none is the mapping itself. -/
private abbrev Anchors := List (String × Option Scalar)

/-- The scalar of a node, and the anchors after it. -/
private def Node.resolve? (handles : Handles) (anchors : Anchors) :
    Node → Option (Scalar × Anchors)
  | .alias name => do
      let scalar ← (anchors.lookup name).join
      some (scalar, anchors)
  | .scalar anchor tag style text => do
      let tag ← tag.mapM fun tag => tag.resolve? handles
      let scalar : Scalar := { style, tag, text }
      let anchors := match anchor with
        | some name => (name, some scalar) :: anchors
        | none => anchors
      some (scalar, anchors)

private def resolveEntries? (handles : Handles) :
    Anchors → List (Node × Node) → Option (List (Scalar × Scalar))
  | _, [] => some []
  | anchors, (key, value) :: rest => do
      let (key, anchors) ← key.resolve? handles anchors
      let (value, anchors) ← value.resolve? handles anchors
      let entries ← resolveEntries? handles anchors rest
      some ((key, value) :: entries)

def Document.entries? (document : Document) : Option (List (Scalar × Scalar)) := do
  let handles ← handles? document.directives
  if document.tag.any fun tag => (tag.resolve? handles).isNone then none
  else
    let anchors := match document.anchor with
      | some name => [(name, none)]
      | none => []
    resolveEntries? handles anchors document.entries

/-- The entries of the only document in a text, in the order of the text. -/
def entriesOf? (text : String) : Option (List (Scalar × Scalar)) := do
  if !text.toList.all isAllowed then none
  else
    let tokens ← Scan.tokens? (placeText text.toList)
    let document ← Document.ofTokens? tokens
    document.entries?

end Yaml

end Schemata
