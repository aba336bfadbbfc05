import MockForge.CommandLine

/-!
# The program

The program looks at what lies below the working directory, works out what its command does to it,
and then does it.
-/

namespace MockForge

/-- Adds an entry of a directory, with all that is below it, to a file system. -/
partial def FileSystem.load (place : Location) (fs : FileSystem) (found : IO.FS.DirEntry) :
    IO FileSystem := do
  let location := found.fileName :: place
  if ← found.path.isDir then
    (← found.path.readDir).foldlM (FileSystem.load location) (fs.withDirectory location)
  else
    return fs.withFile location (← IO.FS.readBinFile found.path)

/-- Does what an operation says below the working directory. -/
def FileSystem.Operation.carryOut (operation : FileSystem.Operation) : IO Unit :=
  let path (location : Location) : String := "/".intercalate location.reverse
  match operation with
  | .makeDirectory location => IO.FS.createDir (path location)
  | .createFile location => IO.FS.writeBinFile (path location) .empty
  | .fill location contents => IO.FS.writeBinFile (path location) contents
  | .rename source target => IO.FS.rename (path source) (path target)
  | .remove location => IO.FS.removeFile (path location)

/-- What the environment of the program says. -/
def CommandLine.Environment.current : IO CommandLine.Environment := do
  return {
    forceColor := ← IO.getEnv "CLICOLOR_FORCE"
    noColor := ← IO.getEnv "NO_COLOR"
    color := ← IO.getEnv "CLICOLOR"
    terminal := ← (← IO.getStdout).isTty
    logFilter := ← IO.getEnv "RUST_LOG" }

end MockForge

open MockForge in
/-- Runs the program. -/
def main (arguments : List String) : IO UInt32 := do
  let environment ← CommandLine.Environment.current
  let files ← (← (← IO.currentDir).readDir).foldlM (FileSystem.load []) FileSystem.empty
  let done := CommandLine.run arguments environment files
  done.operations.forM FileSystem.Operation.carryOut
  IO.print done.value.printed.out
  IO.eprint done.value.printed.err
  return done.value.code.number.toUInt32
