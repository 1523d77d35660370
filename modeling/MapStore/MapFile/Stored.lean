/-
MapStore.MapFile.Stored — map files on a disk.

A map file is written whole under a temporary name beside its own and then
renamed, so at its own name there is at every moment either what was there
before or the new file, never a part of one. If the temporary file cannot be
made nothing has changed; if the renaming is refused the temporary file stays.
-/
import MapStore.Disk
import MapStore.MapFile

namespace MapStore.MapFile

/-- The path of a file half written. -/
def temporaryPath (path : String) : String := path ++ Artifact.temporary

/-- Writes the map file to the path. -/
def save (file : MapFile) (path : String) (d : Disk) : Except StoreError Unit × Disk :=
  match d.write (temporaryPath path) file.encode with
  | .error cause => (.error cause, d)
  | .ok written =>
    match written.rename (temporaryPath path) path with
    | .error cause => (.error cause, written)
    | .ok renamed => (.ok (), renamed)

/-- Reads the map file at the path. -/
def load (path : String) (d : Disk) : Except StoreError MapFile :=
  match d.read path with
  | .error cause => .error cause
  | .ok bytes => (decode bytes).mapError (Fault.toError path)

end MapStore.MapFile
