/-
MapStore.DirectMap — a sorted map that is kept in a file.

A direct map is a plain map with an artifact: opened, it holds what its
artifact holds; saved, it is written to it whole. A map of an engine that
keeps nothing has no artifact and is saved by forgetting that it changed. The
map is dirty from a change until a save that captures it: a removal that finds
nothing changes nothing. A save that fails leaves the map dirty, so the next
one tries again; a close that cannot save leaves it open.
-/
import MapStore.PlainMap
import MapStore.MapFile.Stored

namespace MapStore

/-- What an engine tells a map that it opens. -/
structure MapSettings where
  name : String
  id : MapId
  /-- The directory for artifacts, if the engine keeps its maps. -/
  storageDir : Option String
  /-- The options the engine passes through. -/
  options : SortedTable String String

/-- The path of the map's artifact. -/
def MapSettings.artifactPath (s : MapSettings) : Option String :=
  s.storageDir.map (Disk.join · (Artifact.fileName s.name s.id))

/-- A sorted map and its artifact. -/
structure DirectMap extends PlainMap where
  /-- Where the artifact is; none if nothing is kept. -/
  path : Option String
  /-- Whether there is a change that no save captured. -/
  dirty : Bool

namespace DirectMap

/-- The entries in the artifact at the path, which must be this map's. -/
def loadEntries (s : MapSettings) (path : String) (d : Disk) :
    Except StoreError (List (Bytes × Bytes)) :=
  match MapFile.load path d with
  | .error cause => .error cause
  | .ok file =>
    if file.name = s.name ∧ file.id = s.id then .ok file.entries
    else .error (.corruption
      (path ++ ": holds map " ++ Text.quote file.name ++ " id " ++ toString file.id.toNat ++
        ", expected " ++ Text.quote s.name ++ " id " ++ toString s.id.toNat))

/-- The entries a map starts with: those of its artifact if there is one. -/
def storedEntries (s : MapSettings) (d : Disk) : Except StoreError (List (Bytes × Bytes)) :=
  match s.artifactPath with
  | none => .ok []
  | some path => if d.isPresent path then loadEntries s path d else .ok []

/-- Opens the map with what its artifact holds. -/
def load (s : MapSettings) (keyType valueType : DataType) (d : Disk) :
    Except StoreError DirectMap := do
  let entries ← storedEntries s d
  return { PlainMap.empty s.name s.id keyType valueType with
    table := .ofList keyType.compare entries, path := s.artifactPath, dirty := false }

/-- Makes a change to `key`; answers the value the key had. -/
def write (m : DirectMap) (key : Bytes) (c : Change) :
    Except StoreError (Option Bytes × DirectMap) := do
  let (previous, plain) ← m.toPlainMap.write key c
  let changed := c != .tombstone || previous.isSome
  return (previous, { m with toPlainMap := plain, dirty := m.dirty || changed })

/-- What the artifact holds once the map is saved. -/
def file (m : DirectMap) : MapFile := ⟨m.name, m.id, m.table.toList⟩

/-- Captures the changes since the last save. -/
def save (m : DirectMap) (d : Disk) : Except StoreError Unit × DirectMap × Disk :=
  match m.path with
  | none => (.ok (), { m with dirty := false }, d)
  | some path =>
    if m.dirty then
      match m.file.save path d with
      | (.ok (), d) => (.ok (), { m with dirty := false }, d)
      | (.error cause, d) => (.error cause, { m with dirty := true }, d)
    else (.ok (), m, d)

/-- Saves the map and closes it; a closed map is left alone. -/
def close (m : DirectMap) (d : Disk) : Except StoreError Unit × DirectMap × Disk :=
  if m.closed then (.ok (), m, d)
  else match m.save d with
    | (.ok (), m, d) => (.ok (), { m with closed := true }, d)
    | (.error cause, m, d) => (.error cause, m, d)

end DirectMap

end MapStore
