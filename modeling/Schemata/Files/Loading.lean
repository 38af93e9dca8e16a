import Schemata.Files.System
import Schemata.Graph.Resolution
namespace Schemata

/-! Loading all descriptions of a directory. -/

namespace Registry

def descriptionNames (entries : List (String × Bool)) : List String :=
  ((entries.filter fun entry =>
    entry.2 && Path.extension? entry.1 = some "json").map Prod.fst).mergeSort
      fun left right => left ≤ right

def sourceFile (path : String) (content : Option ByteArray) : SourceFile :=
  ⟨path, content.bind String.fromUTF8?⟩

section

variable {m : Type → Type} [Monad m] [FileSystem m]

/-- The description files of a directory as they are read, in the order of names. -/
def readDirectory (directory : String) : m (Except GenerationError (List SourceFile)) := do
  match ← FileSystem.entries directory with
  | none => return .error (.inputOutput directory)
  | some entries =>
      let names := descriptionNames entries
      if names.isEmpty then return .error (.noInput directory)
      let files ← names.mapM fun name => do
        let path := Path.join directory name
        return sourceFile path (← FileSystem.read path)
      return .ok files

def loadDirectory (directory : String) :
    m (Except GenerationError Registry × List Notice) := do
  match ← readDirectory directory with
  | .error error => return (.error error, [])
  | .ok files => return (empty.registerFiles files, noticesOfFiles empty files)

end

end Registry

end Schemata
