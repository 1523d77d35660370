/-
MapStore.Store — maps that share parts, and the actions on them.

Maps are shared: a buffered map writes into a backing that others may hold
too, an engine and its caller hold the same map, live-sets name maps. So maps
are referred to by handles, and a `Store` says what each handle stands for at
the moment, beside the access meters, live-sets and engines, and the disk.
A map that stands on another is always younger than its backing, so a handle's
number is larger than that of any map below it.

The five states of a map are

  `memory`    a plain map
  `direct`    a plain map with its artifact
  `buffered`  a write buffer over a backing
  `adaptive`  a backing, with a write buffer over it while in buffered mode
  `faulty`    a plain map that misbehaves as planned, for trying out what the
              others do about it

An `Action` is a step on the store that answers a value or ends early with a
`Fault`. What it did to the store before it ended stays done.
-/
import MapStore.AccessMeter
import MapStore.Config
import MapStore.DirectMap
import MapStore.LiveSet
import MapStore.MapIds
import MapStore.Merge
import MapStore.WriteBuffer

namespace MapStore

/-! ## Handles -/

/-- Refers to a map. -/
structure MapHandle where
  index : Nat
  deriving DecidableEq, Repr

/-- Refers to an access meter. -/
structure MeterHandle where
  index : Nat
  deriving DecidableEq, Repr

/-- Refers to the live-sets of an engine. -/
structure LiveHandle where
  index : Nat
  deriving DecidableEq, Repr

/-- Refers to a merge unit that is no map. -/
structure UnitHandle where
  index : Nat
  deriving DecidableEq, Repr

/-- Refers to an engine. -/
structure EngineHandle where
  index : Nat
  deriving DecidableEq, Repr

/-! ## Maps over a backing -/

/-- A map that stands on another. -/
structure Front where
  name : String
  id : MapId
  backing : MapHandle
  keyType : DataType
  valueType : DataType

/-- A map whose writes wait in a buffer. -/
structure BufferedMap extends Front where
  buffer : WriteBuffer
  closed : Bool

/-- A map that writes into a buffer at some times and straight into its
backing at others. -/
structure AdaptiveMap extends Front where
  /-- The writes that wait, in buffered mode. -/
  buffer : Option WriteBuffer
  meter : MeterHandle
  /-- The live-sets that the map is listed in while it is in buffered mode. -/
  live : LiveHandle

/-- How the map writes at the moment. -/
def AdaptiveMap.mode (m : AdaptiveMap) : MapMode :=
  if m.buffer.isSome then .buffered else .direct

/-! ## Maps that misbehave -/

/-- What a faulty map does when it is called: nothing unusual, or a fault. -/
structure FaultPlan where
  /-- On a look-up, a count or a listing. -/
  read : Option Fault
  /-- On a put or a removal. -/
  write : Option Fault
  save : Option Fault
  close : Option Fault
  /-- How many writes still succeed whatever `write` says. -/
  writeAfter : Nat
  /-- How the coming calls end, one each; they come before the settings. -/
  coming : List (Option Fault) := []
  deriving DecidableEq, Repr

namespace FaultPlan

/-- Behaves as a plain map does. -/
def none : FaultPlan := ⟨.none, .none, .none, .none, 0, []⟩

/-- The fault of a call for which the settings have `setting`, and the plan for
the calls after it. -/
def next (p : FaultPlan) (setting : Option Fault) : Option Fault × FaultPlan :=
  match p.coming with
  | [] => (setting, p)
  | outcome :: later => (outcome, { p with coming := later })

end FaultPlan

/-- A write that arrives while another map is being called. -/
structure Arrival where
  target : MapHandle
  key : Bytes
  change : Change
  deriving DecidableEq, Repr

/-- How often a faulty map was called. -/
structure CallCounts where
  get : Nat
  put : Nat
  remove : Nat
  size : Nat
  entries : Nat
  save : Nat
  close : Nat
  deriving DecidableEq, Repr

/-- A map that was never called. -/
def CallCounts.zero : CallCounts := ⟨0, 0, 0, 0, 0, 0, 0⟩

/-- A plain map that follows a plan of faults. -/
structure FaultyMap where
  inner : PlainMap
  plan : FaultPlan
  calls : CallCounts
  /-- The writes that arrive at the start of the coming puts, one batch each. -/
  onPut : List (List Arrival)
  /-- The writes that arrive at the start of the coming removals. -/
  onRemove : List (List Arrival)
  /-- What the writes that arrived were answered, in their order. -/
  answers : List (Except Fault (Option Bytes))
  /-- What the engine said that opened the map, if one did. -/
  settings : Option MapSettings

/-! ## The store -/

/-- What a map is at the moment. -/
inductive MapState where
  | memory (m : PlainMap)
  | direct (m : DirectMap)
  | buffered (m : BufferedMap)
  | adaptive (m : AdaptiveMap)
  | faulty (m : FaultyMap)

namespace MapState

/-- The map's name. -/
def name : MapState → String
  | memory m => m.name
  | direct m => m.name
  | buffered m => m.name
  | adaptive m => m.name
  | faulty m => m.inner.name

/-- The map's id. -/
def id : MapState → MapId
  | memory m => m.id
  | direct m => m.id
  | buffered m => m.id
  | adaptive m => m.id
  | faulty m => m.inner.id

/-- The map that this one stands on. -/
def backing? : MapState → Option MapHandle
  | buffered m => some m.backing
  | adaptive m => some m.backing
  | _ => none

/-- The writes that wait to be merged. -/
def buffer? : MapState → Option WriteBuffer
  | buffered m => some m.buffer
  | adaptive m => m.buffer
  | _ => none

/-- The map with other writes waiting; a map that has no buffer stays so. -/
def withBuffer (b : WriteBuffer) : MapState → MapState
  | buffered m => .buffered { m with buffer := b }
  | adaptive m => .adaptive { m with buffer := m.buffer.map fun _ => b }
  | other => other

/-- The batches of writes still to arrive at the map. -/
def pendingArrivals : MapState → Nat
  | faulty m => m.onPut.length + m.onRemove.length
  | _ => 0

end MapState

/-- A unit of merge work that is no map: it answers empty stats or a fault. -/
structure StandIn where
  label : String
  fault : Option Fault
  runs : Nat
  deriving DecidableEq, Repr

/-- What the merge phase of a tick visits. -/
inductive MergeUnit where
  /-- The write buffer of a map. -/
  | map (m : MapHandle)
  | standIn (u : UnitHandle)
  deriving DecidableEq, Repr

/-- What the ticks of an engine visit. -/
structure LiveSets where
  /-- Maps to be saved. -/
  storage : LiveSet MapHandle
  /-- Buffers to be merged. -/
  buffered : LiveSet MergeUnit
  /-- Maps whose mode is to be decided. -/
  adaptive : LiveSet MapHandle
  /-- Whether their engine still exists. -/
  alive : Bool

namespace LiveSets

/-- Live-sets of a new engine. -/
def empty : LiveSets := ⟨.empty, .empty, .empty, true⟩

/-- Without members. -/
def clear (l : LiveSets) : LiveSets := { empty with alive := l.alive }

end LiveSets

/-- The registry of the maps of one directory. -/
structure Engine where
  config : Config
  /-- The open maps by name. -/
  maps : SortedTable String MapHandle
  ids : MapIds
  closed : Bool
  live : LiveHandle
  /-- Whether ticks run in the background. -/
  running : Bool

/-- Everything that handles refer to, and the disk. -/
structure Store where
  disk : Disk
  maps : List MapState
  meters : List AccessMeter
  units : List StandIn
  live : List LiveSets
  engines : List Engine

/-- Nothing but a disk. -/
def Store.onDisk (disk : Disk) : Store := ⟨disk, [], [], [], [], []⟩

/-! ## Actions -/

/-- A step on the store. -/
abbrev Action := EStateM Fault Store

namespace Action

variable {α : Type}

/-- Ends early with a refusal. -/
def refuse (cause : StoreError) : Action α := throw (.error cause)

/-- Answers a value or a refusal found without the store. -/
def lift : Except StoreError α → Action α
  | .ok a => pure a
  | .error cause => refuse cause

/-- Runs to its end an action that may end early, and answers how it ended. -/
def attempt (action : Action α) : Action (Except Fault α) := fun s =>
  match action s with
  | .ok a s => .ok (.ok a) s
  | .error fault s => .ok (.error fault) s

/-- Gives way to a fault if there is one. -/
def consult : Option Fault → Action Unit
  | some fault => throw fault
  | none => pure ()

/-- What a handle that refers to nothing meets: the store hands out no such
handle, and treats it as a closed map. -/
def noMap : Action α := refuse (.mapClosed "")

/-- What the map is at the moment. -/
def state (m : MapHandle) : Action MapState := do
  match (← get).maps[m.index]? with
  | some state => pure state
  | none => noMap

/-- Makes the map what `state` says. -/
def setState (m : MapHandle) (state : MapState) : Action Unit :=
  modify fun s => { s with maps := s.maps.set m.index state }

/-- Changes what the map is. -/
def modifyState (m : MapHandle) (f : MapState → MapState) : Action Unit :=
  modify fun s => { s with maps := s.maps.modify m.index f }

/-- Adds a map. -/
def newMap (state : MapState) : Action MapHandle := do
  let s ← get
  set { s with maps := s.maps ++ [state] }
  return ⟨s.maps.length⟩

/-- The batches of writes that still arrive somewhere; one set off by another
lies deeper each time, but never deeper than there are batches. -/
def pendingArrivals : Action Nat := do
  return (← get).maps.foldl (fun n state => n + state.pendingArrivals) 0

/-- Counts a call of a faulty map, and gives way to the fault that the plan has
for it; `setting` is what the settings say of calls of its sort. -/
def enterFaulty (m : MapHandle) (f : FaultyMap) (setting : Option Fault)
    (count : CallCounts → CallCounts) : Action Unit := do
  let (fault, plan) := f.plan.next setting
  setState m (.faulty { f with plan, calls := count f.calls })
  consult fault

/-- Notes what a write was answered that arrived while a faulty map was called.
A refusal is nobody's concern; a panic ends the call. -/
def noteAnswer (m : MapHandle) (answer : Except Fault (Option Bytes)) : Action Unit := do
  modifyState m fun
    | .faulty f => .faulty { f with answers := f.answers ++ [answer] }
    | other => other
  match answer with
  | .error (.panic message) => throw (.panic message)
  | _ => return ()

/-- The access meter. -/
def meter (h : MeterHandle) : Action AccessMeter := do
  return ((← get).meters[h.index]?).getD .idle

/-- Changes the access meter. -/
def modifyMeter (h : MeterHandle) (f : AccessMeter → AccessMeter) : Action Unit :=
  modify fun s => { s with meters := s.meters.modify h.index f }

/-- Adds an access meter. -/
def newMeter (m : AccessMeter) : Action MeterHandle := do
  let s ← get
  set { s with meters := s.meters ++ [m] }
  return ⟨s.meters.length⟩

/-- The live-sets; there are none left of an engine that is gone. -/
def liveSets (h : LiveHandle) : Action LiveSets := do
  return ((← get).live[h.index]?).getD { LiveSets.empty with alive := false }

/-- Changes the live-sets. -/
def modifyLive (h : LiveHandle) (f : LiveSets → LiveSets) : Action Unit :=
  modify fun s => { s with live := s.live.modify h.index f }

/-- Adds live-sets. -/
def newLive : Action LiveHandle := do
  let s ← get
  set { s with live := s.live ++ [LiveSets.empty] }
  return ⟨s.live.length⟩

/-- The disk. -/
def disk : Action Disk := return (← get).disk

/-- Makes the disk what `disk` says. -/
def setDisk (disk : Disk) : Action Unit := modify ({ · with disk })

/-- A step on the disk that may be refused. -/
def onDisk (f : Disk → Except StoreError α × Disk) : Action α := do
  let (answer, disk) := f (← Action.disk)
  setDisk disk
  lift answer

end Action

namespace LiveHandle

/-- Lists a map to be saved; answers whether it was not listed. -/
def addStorage (h : LiveHandle) (m : MapHandle) : Action Bool := do
  let l ← Action.liveSets h
  let (added, storage) := l.storage.insert m
  Action.modifyLive h ({ · with storage })
  return added

/-- Lists a buffer to be merged; answers whether it was not listed. -/
def addBuffered (h : LiveHandle) (u : MergeUnit) : Action Bool := do
  let l ← Action.liveSets h
  let (added, buffered) := l.buffered.insert u
  Action.modifyLive h ({ · with buffered })
  return added

/-- Strikes a buffer off; answers whether it was listed. -/
def removeBuffered (h : LiveHandle) (u : MergeUnit) : Action Bool := do
  let l ← Action.liveSets h
  let (removed, buffered) := l.buffered.erase u
  Action.modifyLive h ({ · with buffered })
  return removed

/-- Lists a map whose mode is to be decided; answers whether it was not
listed. -/
def addAdaptive (h : LiveHandle) (m : MapHandle) : Action Bool := do
  let l ← Action.liveSets h
  let (added, adaptive) := l.adaptive.insert m
  Action.modifyLive h ({ · with adaptive })
  return added

end LiveHandle

end MapStore
