/-
MapStore.MapIds — which map has which id.

An engine gives every map name an id and keeps it. New names get the id after
the highest one ever seen, so an id found on disk is never given to another
map. At start the assignments are recovered from the names of the files in the
directory (`recover`): of several artifacts of one map the highest id counts.
Forgetting the assignments (`clear`) keeps the counter.
-/
import MapStore.Artifact
import MapStore.Config
import MapStore.SortedTable

namespace MapStore

/-- The ids of an engine's maps. -/
structure MapIds where
  /-- The highest id recovered or given out. -/
  lastId : MapId
  /-- The id of each name, by name. -/
  assigned : SortedTable String MapId

namespace MapIds

/-- No id given out yet. -/
def empty : MapIds := ⟨0, .empty compare⟩

/-- The largest id there is. -/
def maxId : MapId := 0xffffffff

/-- The id of `name`. -/
def get? (ids : MapIds) (name : String) : Option MapId := ids.assigned.get? name

/-- Notes an artifact of the map `name`; its highest id counts. -/
def record (ids : MapIds) (name : String) (id : MapId) : MapIds :=
  let kept := match ids.get? name with
    | some existing => max existing id
    | none => id
  { lastId := max ids.lastId id, assigned := (ids.assigned.insert name kept).2 }

/-- Notes one file of the directory. -/
def recordFile (policy : RecoveryPolicy) (ids : MapIds) (file : String) :
    Except StoreError MapIds :=
  match Artifact.parse file, policy with
  | .ok (some (name, id)), _ => .ok (ids.record name id)
  | .ok none, _ => .ok ids
  | .error _, .skip => .ok ids
  | .error cause, .abort => .error cause

/-- The ids that the files of a directory show. -/
def recover (policy : RecoveryPolicy) (files : List String) : Except StoreError MapIds :=
  files.foldlM (recordFile policy) empty

/-- The id of `name`, a new one if it has none. -/
def idFor (ids : MapIds) (name : String) : Except StoreError (MapId × MapIds) :=
  match ids.get? name with
  | some id => .ok (id, ids)
  | none =>
    if ids.lastId = maxId then .error (.config "map id space exhausted")
    else
      let id := ids.lastId + 1
      .ok (id, { lastId := id, assigned := (ids.assigned.insert name id).2 })

/-- Every name with its id, by name. -/
def assignments (ids : MapIds) : List (String × MapId) := ids.assigned.toList

/-- Forgets the assignments but not the highest id. -/
def clear (ids : MapIds) : MapIds := { ids with assigned := ids.assigned.clear }

end MapIds

end MapStore
