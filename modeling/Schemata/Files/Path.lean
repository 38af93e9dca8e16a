namespace Schemata

/-! Paths as text.

Joining and taking the parent leave the text of a path as it is: nothing is looked up
and `..` is not worked out. -/

namespace Path

def isAbsolute (path : String) : Bool := path.toList.head? = some '/'

def join (base path : String) : String :=
  if isAbsolute path then path
  else if base.isEmpty || base.toList.getLast? = some '/' then base ++ path
  else base ++ "/" ++ path

/-- The path itself if it is absolute, else as seen from a base. -/
def resolve (path base : String) : String :=
  if isAbsolute path then path else join base path

/-- Drops what does not count at the end of a path, given in reverse: separators, but
not the root, and parts that stand for the directory itself, but not a first part. -/
private def dropTrailing : List Char → List Char
  | '/' :: c :: rest => dropTrailing (c :: rest)
  | '.' :: '/' :: rest => dropTrailing ('/' :: rest)
  | reversed => reversed

/-- The path without its last part; none for a root and for an empty path. -/
def parent? (path : String) : Option String :=
  let reversed := dropTrailing path.toList.reverse
  if reversed.isEmpty || reversed = ['/'] then none
  else
    some (String.ofList
      (dropTrailing (reversed.dropWhile (· ≠ '/'))).reverse)

def parts (path : String) : List String :=
  (path.toList.splitOnP (· = '/')).map String.ofList

/-- What follows the last point of a file's name; a point at the start does not
count. -/
def extension? (name : String) : Option String :=
  let reversed := name.toList.reverse
  let extension := reversed.takeWhile (· ≠ '.')
  match reversed.dropWhile (· ≠ '.') with
  | '.' :: c :: rest =>
      if c :: rest = ['.'] && extension.isEmpty then none
      else some (String.ofList extension.reverse)
  | _ => none

end Path

end Schemata
