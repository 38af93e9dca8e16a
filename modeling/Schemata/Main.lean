import Schemata.Command.Run
namespace Schemata

/-! The program on the file system of the machine. -/

private def attempt (action : IO α) : IO (Option α) := do
  match ← action.toBaseIO with
  | .ok value => return some value
  | .error _ => return none

instance : FileSystem IO where
  read path := attempt (IO.FS.readBinFile path)
  write path text := do return (← attempt (IO.FS.writeFile path text)).isSome
  exists? path := do
    let here ← IO.currentDir
    (here / path).pathExists
  isDirectory path := do
    let here ← IO.currentDir
    (here / path).isDir
  entries path := do
    let here ← IO.currentDir
    match ← attempt (here / path).readDir with
    | none => return none
    | some found =>
        let named ← found.toList.mapM fun entry => do
          let isFile ← attempt do
            let data ← entry.path.metadata
            return data.type == .file
          return (entry.fileName, isFile.getD false)
        return some named

end Schemata

def main (arguments : List String) : IO UInt32 := do
  let result ← Schemata.Run.main arguments
  for event in result.events do
    IO.println event.text
  IO.print result.output
  return UInt32.ofNat result.code
