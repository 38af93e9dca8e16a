import Schemata.Files.Path
import Schemata.Keyed
namespace Schemata

/-! Files and directories.

`FileSystem` is what a program may do with files, in any monad.  `FileTree` is a file
system as a value: a map from absolute paths without `.` and `..` to files and
directories, in which a write either succeeds or leaves everything as it is. -/

class FileSystem (m : Type → Type) where
  read : String → m (Option ByteArray)
  write : String → String → m Bool
  exists? : String → m Bool
  isDirectory : String → m Bool
  /-- The names in a directory, each with whether it is a regular file. -/
  entries : String → m (Option (List (String × Bool)))

inductive FileNode where
  | file (content : ByteArray)
  | directory

structure FileTree where
  /-- The directory from which relative paths start, innermost name first. -/
  working : List String
  nodes : Keyed FileNode

namespace FileTree

/-- The text of a place, given by its names from the innermost outwards. -/
def placeText (place : List String) : String :=
  String.join (place.reverse.map fun name => "/" ++ name)

def nodeAt (tree : FileTree) (place : List String) : Option FileNode :=
  if place.isEmpty then some .directory else Keyed.get? tree.nodes (placeText place)

def directoryAt (tree : FileTree) (place : List String) : Bool :=
  match tree.nodeAt place with
  | some .directory => true
  | _ => false

/-- Names are not too long for an entry and hold no zero. -/
def isNameAllowed (name : String) : Bool :=
  name.utf8ByteSize ≤ 255 && !name.toList.contains '\x00'

/-- Follows the parts of a path; all but the last have to be directories, and what
they lead to need not exist. -/
def walk (tree : FileTree) (place : List String) : List String → Option (List String)
  | [] => some place
  | part :: rest =>
      if !tree.directoryAt place then none
      else if part = "" || part = "." then walk tree place rest
      else if part = ".." then walk tree place.tail rest
      else if isNameAllowed part then walk tree (part :: place) rest
      else none

def locate (tree : FileTree) (path : String) : Option (List String) :=
  if path.isEmpty then none
  else if Path.isAbsolute path then tree.walk [] (Path.parts path)
  else tree.walk tree.working (Path.parts path)

def node? (tree : FileTree) (path : String) : Option FileNode :=
  (tree.locate path).bind tree.nodeAt

def read? (tree : FileTree) (path : String) : Option ByteArray :=
  match tree.node? path with
  | some (.file content) => some content
  | _ => none

def isDirectory (tree : FileTree) (path : String) : Bool :=
  match tree.node? path with
  | some .directory => true
  | _ => false

def put (tree : FileTree) (place : List String) (node : FileNode) : FileTree :=
  { tree with nodes := Keyed.insert tree.nodes (placeText place) node }

/-- The tree with a file written, unless the path leads nowhere or to a directory. -/
def write? (tree : FileTree) (path : String) (content : ByteArray) : Option FileTree :=
  (tree.locate path).bind fun place =>
    if tree.directoryAt place then none else some (tree.put place (.file content))

def nameIn? (directory path : String) : Option String :=
  let start := (directory ++ "/").toList
  let name := path.toList.drop start.length
  if start.isPrefixOf path.toList && !name.isEmpty && !name.contains '/' then
    some (String.ofList name)
  else none

def entries? (tree : FileTree) (path : String) : Option (List (String × Bool)) :=
  (tree.locate path).bind fun place =>
    if tree.directoryAt place then
      some (tree.nodes.filterMap fun entry =>
        (nameIn? (placeText place) entry.1).map fun name =>
          (name, match entry.2 with
            | .file _ => true
            | .directory => false))
    else none

/-- Adds the directories on the way along the parts of a path. -/
def addDirectories (tree : FileTree) (place : List String) : List String → FileTree
  | [] => tree
  | part :: rest =>
      if part = "" || part = "." then addDirectories tree place rest
      else if part = ".." then addDirectories tree place.tail rest
      else
        let next := part :: place
        let tree := if (tree.nodeAt next).isSome then tree else tree.put next .directory
        addDirectories tree next rest

def withDirectory (tree : FileTree) (path : String) : FileTree :=
  tree.addDirectories (if Path.isAbsolute path then [] else tree.working) (Path.parts path)

def ofWorking (path : String) : FileTree :=
  let place := (Path.parts path).filter (· ≠ "")
  { (⟨[], []⟩ : FileTree).withDirectory path with working := place.reverse }

end FileTree

instance : FileSystem (StateM FileTree) where
  read path := do return (← get).read? path
  write path text := do
    match (← get).write? path text.toUTF8 with
    | some tree => set tree; return true
    | none => return false
  exists? path := do return ((← get).node? path).isSome
  isDirectory path := do return (← get).isDirectory path
  entries path := do return (← get).entries? path

end Schemata
