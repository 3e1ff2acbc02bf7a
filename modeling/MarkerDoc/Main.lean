import MarkerDoc.Shell.Runner

/-!
# The program

Reads the command line, does what it asks for, and prints the result.  The names of the files to
work on are expected on standard input, one a line, as a search below the working directory lists
them; they are read into a disk, and the files that a command has written to that disk are written
out at the end.
-/

namespace MarkerDoc

/-- The lines of a stream up to its end. -/
partial def readNames (stream : IO.FS.Stream) (names : List String) : IO (List String) := do
  let line ← stream.getLine
  if line.isEmpty then return names.reverse
  readNames stream (Text.trimEnd line :: names)

/-- A disk with the named files below the working directory. -/
def loadDisk (cwd : List String) (names : List String) : IO Disk :=
  names.foldlM (fun (d : Disk) (name : String) => do
    return d.addFile (.ofText name) (← IO.FS.readBinFile name)) (Disk.fresh cwd)

/-- Writes the files that are new or changed. -/
def saveChanges (before after : Disk) : IO Unit := do
  let known := before.workingFiles
  for (name, content) in after.workingFiles do
    unless known.contains (name, content) do
      let file := Path.mk name
      match file.parent? with
      | some dir => unless dir.isEmpty do IO.FS.createDirAll dir.display
      | none => pure ()
      IO.FS.writeBinFile file.display content

/-- The names that lead to the working directory. -/
def workingPlace : IO (List String) := do
  let text := (← IO.getEnv "PWD").getD "/"
  return (Path.ofText text).components.filterMap Path.Component.name?

/-- Carries out an invocation and gives the exit code. -/
def perform (invocation : Invocation) : IO UInt32 := do
  let names ← readNames (← IO.getStdin) []
  let disk ← loadDisk (← workingPlace) names
  match Command.run (.ofHost Shell.host) invocation { disk } with
  | .ok session =>
    IO.print session.printed
    IO.eprint session.complaints
    saveChanges disk session.disk
    return 0
  | .error failure =>
    IO.print failure.session.printed
    IO.eprint failure.session.complaints
    saveChanges disk failure.session.disk
    IO.eprint failure.error.complaint
    return failure.error.exitCode.toUInt32

end MarkerDoc

def main (args : List String) : IO UInt32 := do
  match MarkerDoc.Request.ofArgs (args.map MarkerDoc.Bytes.ofText) with
  | .usageError =>
    IO.eprint (MarkerDoc.Request.helpText .general)
    return 2
  | .version =>
    IO.print MarkerDoc.Request.versionText
    return 0
  | .help topic =>
    IO.print (MarkerDoc.Request.helpText topic)
    return 0
  | .run invocation => MarkerDoc.perform invocation
