/-
MapStore.Main — the program behind the command line.

What a request does is decided by `CommandLine.run`, which works on a disk held
in memory. This module gives it the storage directory as it is and afterwards
brings the directory to the state that the run left behind: new files are
written beside their place and renamed onto it.
-/
import MapStore.CommandLine.Run

namespace MapStore.Program

/-- The storage directory, with what is directly inside it, on a disk that has
nothing else. -/
def readStorage (storage : String) : IO Disk := do
  try
    let root ← IO.FS.realPath storage
    if ← root.isDir then
      let mut disk := (Disk.empty.makeDirectories storage).2
      for entry in ← root.readDir do
        let path := Disk.join storage entry.fileName
        if ← entry.path.isDir then
          disk := (disk.makeDirectories path).2
        else
          let bytes ← IO.FS.readBinFile entry.path
          disk := (disk.write path bytes.toList).toOption.getD disk
      return disk
    else
      let bytes ← IO.FS.readBinFile root
      let parent := "/".intercalate (Disk.steps storage).dropLast
      let disk := (Disk.empty.makeDirectories parent).2
      return (disk.write storage bytes.toList).toOption.getD disk
  catch _ => return Disk.empty

/-- Brings the storage directory from one state to another. -/
def writeStorage (storage : String) (before after : Disk) : IO Unit := do
  if !before.isPresent storage && after.isPresent storage then IO.FS.createDirAll storage
  for name in (after.list storage).toOption.getD [] do
    let path := Disk.join storage name
    match after.read path with
    | .error _ => pure ()
    | .ok bytes =>
      if (before.read path).toOption != some bytes then
        let temporary := MapFile.temporaryPath path
        IO.FS.writeBinFile temporary bytes.toByteArray
        IO.FS.rename temporary path

/-- Carries out what the arguments ask; answers the exit code. -/
def run (args : List String) : IO UInt32 := do
  let before ← match CommandLine.Reading.ofArguments args with
    | .run request => readStorage request.storage
    | _ => pure Disk.empty
  let (outcome, after) := CommandLine.run args before
  if let .run request := CommandLine.Reading.ofArguments args then
    writeStorage request.storage before after
  IO.print outcome.output
  return UInt32.ofNat outcome.code

end MapStore.Program

def main (args : List String) : IO UInt32 := MapStore.Program.run args
