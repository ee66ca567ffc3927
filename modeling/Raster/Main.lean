/-
# The program

Looks up the files that the arguments name, lets the command run on them, and puts
what it changed and printed where it belongs. Nothing is decided here.
-/
import Raster.Command.Run

namespace Raster

/-- Adds what is found under a name, if it can be read. -/
def Files.observe (files : Files) (name : String) : IO Files := do
  let place := (← IO.currentDir) / name
  if ← place.isDir then
    return files.makeDirectory name
  try
    let bytes ← IO.FS.readBinFile place
    return (files.write name bytes.toList).toOption.getD files
  catch _ => return files

/-- The files that some paths name, with the directories on the way to them. -/
def Files.ofPaths (paths : List String) : IO Files :=
  (paths.flatMap namesOnWay).eraseDups.foldlM observe {}

/-- Writes the files whose content is not what it was. -/
def Files.writeChanges (before after : Files) : IO Unit :=
  for (name, bytes) in after.toList do
    if (before.read name).toOption ≠ some bytes then
      IO.FS.writeBinFile ((← IO.currentDir) / name) ⟨bytes.toArray⟩

/-- The environment variables that settings come from, as far as they are set. -/
def environment : IO (Fields String) :=
  [Config.discThresholdVariable, Config.concurrencyVariable].foldlM (fun found name => do
    match ← IO.getEnv name with
    | some value => return found.insert name value
    | none => return found) Fields.empty

/-- Runs a command on the files that its arguments name, and answers with the exit code. -/
def runProgram (arguments : List String) : IO UInt32 := do
  let files ← Files.ofPaths (Command.paths arguments)
  let found ← environment
  let ending := Command.run arguments files found.get?
  files.writeChanges ending.files
  ending.complaints.forM IO.eprintln
  IO.print ending.output
  return ending.code.toUInt32

end Raster

/-- Runs the program. -/
def main (arguments : List String) : IO UInt32 := Raster.runProgram arguments
