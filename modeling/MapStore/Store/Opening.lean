/-
MapStore.Store.Opening — new maps.

A map is made on its own, or as an engine makes it: from the settings the
engine gives, listed in the engine's live-sets. Direct, buffered and adaptive
maps of an engine all stand on a direct map, which is the one listed to be
saved, so a name can be opened as any of the three in turn.
-/
import MapStore.MapKind
import MapStore.Store.Saving

namespace MapStore

namespace MapHandle

/-- A new map that lives in memory. -/
def newMemory (s : MapSettings) (keyType valueType : DataType) : Action MapHandle :=
  Action.newMap (.memory (.empty s.name s.id keyType valueType))

/-- A new direct map with what its artifact holds. -/
def newDirect (s : MapSettings) (keyType valueType : DataType) : Action MapHandle := do
  let d ← Action.lift (DirectMap.load s keyType valueType (← Action.disk))
  Action.newMap (.direct d)

/-- What a new map over `backing` is told about itself. -/
def front (backing : MapHandle) (keyType valueType : DataType) : Action Front := do
  let (name, id) ← backing.identity
  return { name, id, backing, keyType, valueType }

/-- A new buffered map over `backing`. -/
def newBuffered (backing : MapHandle) (keyType valueType : DataType) : Action MapHandle := do
  let front ← backing.front keyType valueType
  Action.newMap (.buffered { front with buffer := .empty keyType.compare, closed := false })

/-- A new adaptive map over `backing`, in direct mode. -/
def newAdaptive (backing : MapHandle) (keyType valueType : DataType) (meter : MeterHandle)
    (live : LiveHandle) : Action MapHandle := do
  let front ← backing.front keyType valueType
  Action.newMap (.adaptive { front with buffer := none, meter, live })

/-- A new plain map that follows a plan of faults. -/
def newFaulty (name : String) (id : MapId) (keyType valueType : DataType) (plan : FaultPlan)
    (settings : Option MapSettings) : Action MapHandle :=
  Action.newMap (.faulty
    { inner := .empty name id keyType valueType, plan, calls := .zero,
      onPut := [], onRemove := [], answers := [], settings })

end MapHandle

/-! ## Maps of an engine -/

/-- How an engine makes maps of a type. -/
structure MapBuilder where
  /-- The type's name in messages. -/
  label : String
  /-- Whether a map is of the type. -/
  builds : MapState → Bool
  /-- Makes a map and lists it. -/
  build : MapSettings → LiveHandle → Action MapHandle

namespace MapBuilder

/-- Makes in-memory maps. -/
def memory (keyType valueType : DataType) : MapBuilder where
  label := "aostore::map::memory::MemoryMap"
  builds state := state matches .memory _
  build settings live := do
    let m ← MapHandle.newMemory settings keyType valueType
    let _ ← live.addStorage m
    return m

/-- Makes direct maps. -/
def direct (keyType valueType : DataType) : MapBuilder where
  label := "aostore::map::direct::DirectMap"
  builds state := state matches .direct _
  build settings live := do
    let m ← MapHandle.newDirect settings keyType valueType
    let _ ← live.addStorage m
    return m

/-- Makes buffered maps, each over a direct map of its own. -/
def buffered (keyType valueType : DataType) : MapBuilder where
  label := "aostore::buffer::map::BufferedMap"
  builds state := state matches .buffered _
  build settings live := do
    let backing ← MapHandle.newDirect settings keyType valueType
    let m ← backing.newBuffered keyType valueType
    let _ ← live.addStorage backing
    let _ ← live.addBuffered (.map m)
    return m

/-- Makes adaptive maps, each over a direct map of its own, with the given
meter or else one that counts. -/
def adaptive (keyType valueType : DataType) (meter : Option MeterHandle) : MapBuilder where
  label := "aostore::adaptive::map::AdaptiveMap"
  builds state := state matches .adaptive _
  build settings live := do
    let backing ← MapHandle.newDirect settings keyType valueType
    let meter ← match meter with
      | some meter => pure meter
      | none => Action.newMeter .idle
    let m ← backing.newAdaptive keyType valueType meter live
    let _ ← live.addStorage backing
    let _ ← live.addAdaptive m
    return m

/-- Makes maps of a kind. -/
def ofKind (kind : MapKind) (keyType valueType : DataType) (meter : Option MeterHandle) :
    MapBuilder :=
  match kind with
  | .adaptive => adaptive keyType valueType meter
  | .direct => direct keyType valueType
  | .buffered => buffered keyType valueType
  | .inMemory => memory keyType valueType

end MapBuilder

end MapStore
