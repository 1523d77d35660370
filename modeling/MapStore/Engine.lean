/-
MapStore.Engine — the registry of the maps of one directory.

An engine opens maps by name, each name once: opening a name again gives the
same map. It gives every name an id, saves all its maps (`commit`), and closes
them all (`close`), after which it opens nothing more. Both go through every
map whatever fails, and answer the first failure. Opened on a directory, an
engine makes the directory if it is missing and takes the ids from the files
in it; configured in memory, or without a directory, it touches no file.

`EngineHandle.drop` is what happens when nobody holds the engine any more: it
is closed, even if a map refuses to, and its live-sets go with it.
-/
import MapStore.Store.Opening
import MapStore.Tick

namespace MapStore.EngineHandle

/-! ## The engine itself -/

/-- An engine that was never opened: closed, without maps. -/
def unopened : Engine where
  config := .default
  maps := .empty compare
  ids := .empty
  closed := true
  live := ⟨0⟩
  running := false

/-- What the engine is at the moment. -/
def state (e : EngineHandle) : Action Engine := do
  return ((← get).engines[e.index]?).getD unopened

/-- Changes what the engine is. -/
def modifyState (e : EngineHandle) (f : Engine → Engine) : Action Unit :=
  modify fun s => { s with engines := s.engines.modify e.index f }

/-- The ids in a directory, which is made if it is missing. -/
def recoverIds (policy : RecoveryPolicy) : Option String → Action MapIds
  | none => return .empty
  | some directory => do
    Action.onDisk (·.makeDirectories directory)
    let files ← Action.lift ((← Action.disk).list directory)
    Action.lift (MapIds.recover policy files)

/-- Opens an engine. -/
def openWith (config : Config) : Action EngineHandle := do
  let ids ← recoverIds config.recoveryPolicy config.storageDir
  let live ← Action.newLive
  let s ← get
  let engine : Engine :=
    { config, maps := .empty compare, ids, closed := false, live, running := true }
  set { s with engines := s.engines ++ [engine] }
  return ⟨s.engines.length⟩

/-! ## Opening maps -/

/-- The map open under `name`, or a new one. -/
def mapNamed (e : EngineHandle) (name : String) (builder : MapBuilder) : Action MapHandle := do
  Action.lift (Artifact.checkName name)
  let engine ← e.state
  if engine.closed then Action.refuse .engineClosed
  match engine.maps.get? name with
  | some m => return m
  | none =>
    let (id, ids) ← Action.lift (engine.ids.idFor name)
    e.modifyState ({ · with ids })
    let settings : MapSettings :=
      { name, id, storageDir := engine.config.storageDir, options := engine.config.options }
    let m ← builder.build settings engine.live
    e.modifyState fun engine => { engine with maps := (engine.maps.insert name m).2 }
    return m

/-- The map open under `name`, whatever its type, or a new one of the kind. -/
def openMap (e : EngineHandle) (name : String) (kind : MapKind) (keyType valueType : DataType)
    (meter : Option MeterHandle) : Action MapHandle :=
  e.mapNamed name (.ofKind kind keyType valueType meter)

/-- The map open under `name`, which must be of the builder's type, or a new
one. -/
def openTyped (e : EngineHandle) (name : String) (builder : MapBuilder) : Action MapHandle := do
  let m ← e.mapNamed name builder
  if builder.builds (← Action.state m) then return m
  else Action.refuse (.mapKindMismatch name builder.label)

/-! ## Asking -/

/-- Whether a map is open under `name`. -/
def hasMap (e : EngineHandle) (name : String) : Action Bool := return (← e.state).maps.contains name

/-- The names of the open maps, in order. -/
def mapNames (e : EngineHandle) : Action (List String) := return (← e.state).maps.keys

/-- The open maps, by name. -/
def maps (e : EngineHandle) : Action (List MapHandle) := return (← e.state).maps.values

/-- The id of `name`, if it has one. -/
def mapId (e : EngineHandle) (name : String) : Action (Option MapId) :=
  return (← e.state).ids.get? name

/-! ## Running -/

/-- The first failure of two. -/
def firstFailure (failure : Option StoreError) : Except StoreError Unit → Option StoreError
  | .ok () => failure
  | .error cause => some (failure.getD cause)

/-- Does the same to every map, whatever fails, and answers the first failure.
A panic ends it. -/
def forEachMap (action : MapHandle → Action Unit) (maps : List MapHandle) : Action Unit := do
  let failure ← maps.foldlM (fun failure m => do
    match ← Action.attempt (action m) with
    | .ok () => return firstFailure failure (.ok ())
    | .error (.error cause) => return firstFailure failure (.error cause)
    | .error (.panic message) => throw (.panic message)) none
  match failure with
  | none => return ()
  | some cause => Action.refuse cause

/-- Saves every map. -/
def commit (e : EngineHandle) : Action Unit := do
  let engine ← e.state
  if engine.closed then Action.refuse .engineClosed
  forEachMap MapHandle.save engine.maps.values

/-- Ends the background ticks. -/
def stopScheduler (e : EngineHandle) : Action Unit := e.modifyState ({ · with running := false })

/-- Saves and closes every map. Closing a closed engine does nothing. -/
def close (e : EngineHandle) : Action Unit := do
  let engine ← e.state
  if engine.closed then return ()
  e.modifyState fun engine =>
    { engine with closed := true, running := false, maps := engine.maps.clear }
  let forget : Action Unit := do
    Action.modifyLive engine.live LiveSets.clear
    e.modifyState fun engine => { engine with ids := engine.ids.clear }
  match ← Action.attempt (forEachMap MapHandle.close engine.maps.values) with
  | .ok () => forget
  | .error (.error cause) =>
    forget
    Action.refuse cause
  | .error (.panic message) => throw (.panic message)

/-- Closes the engine and gives up its live-sets. A refusal to close is passed
over; a panic reaches the caller, but only when the live-sets are gone. -/
def drop (e : EngineHandle) : Action Unit := do
  let closed ← Action.attempt e.close
  Action.modifyLive (← e.state).live ({ · with alive := false })
  match closed with
  | .error (.panic message) => throw (.panic message)
  | _ => return ()

/-- Runs a tick now. -/
def tick (e : EngineHandle) : Action TickReport := do
  let engine ← e.state
  Tick.run engine.live ⟨engine.config.adaptiveThreshold⟩

end MapStore.EngineHandle
