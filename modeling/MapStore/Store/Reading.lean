/-
MapStore.Store.Reading — what a map answers to readers.

A plain map answers from its table. A map with a write buffer answers from the
buffer where it has a slot for the key and from its backing otherwise; its
listing is the backing's with the buffered changes made to it. An adaptive map
in direct mode answers what its backing answers, and tells its meter of
look-ups, but not of counts and listings. A closed map refuses every reader.
-/
import MapStore.Store

namespace MapStore

/-- The entries of a backing with the buffered changes made to them. -/
def WriteBuffer.over (b : WriteBuffer) (entries : List (Bytes × Bytes)) :
    List (Bytes × Bytes) :=
  (b.snapshot.foldl (fun t slot => (PlainMap.change t slot.1 slot.2.change).2)
    (.ofList b.slots.order entries)).toList

namespace MapHandle

/-- The value of `key`. -/
def get (m : MapHandle) (key : Bytes) : Action (Option Bytes) := do
  match ← Action.state m with
  | .memory p => Action.lift (p.get key)
  | .direct d => Action.lift (d.get key)
  | .faulty f =>
    Action.enterFaulty m f f.plan.read fun c => { c with get := c.get + 1 }
    Action.lift (f.inner.get key)
  | .buffered b =>
    if b.closed then Action.refuse (.mapClosed b.name)
    match b.buffer.get? key with
    | some change => return change.toOption
    | none => if _h : b.backing.index < m.index then b.backing.get key else Action.noMap
  | .adaptive a =>
    Action.modifyMeter a.meter .recordRead
    match a.buffer.bind (·.get? key) with
    | some change => return change.toOption
    | none => if _h : a.backing.index < m.index then a.backing.get key else Action.noMap
termination_by m.index

/-- Whether the map has `key`. -/
def contains (m : MapHandle) (key : Bytes) : Action Bool := do
  match ← Action.state m with
  | .adaptive a =>
    Action.modifyMeter a.meter .recordRead
    match a.buffer with
    | none => if _h : a.backing.index < m.index then a.backing.contains key else Action.noMap
    | some buffer =>
      match buffer.get? key with
      | some change => return change.toOption.isSome
      | none => return (← a.backing.get key).isSome
  | _ => return (← m.get key).isSome
termination_by m.index

/-- The entries in key order. -/
def entries (m : MapHandle) : Action (List (Bytes × Bytes)) := do
  match ← Action.state m with
  | .memory p => Action.lift p.entries
  | .direct d => Action.lift d.entries
  | .faulty f =>
    Action.enterFaulty m f f.plan.read fun c => { c with entries := c.entries + 1 }
    Action.lift f.inner.entries
  | .buffered b =>
    if b.closed then Action.refuse (.mapClosed b.name)
    if _h : b.backing.index < m.index then return b.buffer.over (← b.backing.entries)
    else Action.noMap
  | .adaptive a =>
    if _h : a.backing.index < m.index then
      let entries ← a.backing.entries
      return a.buffer.elim entries (·.over entries)
    else Action.noMap
termination_by m.index

/-- The number of entries. -/
def size (m : MapHandle) : Action Nat := do
  match ← Action.state m with
  | .memory p => Action.lift p.size
  | .direct d => Action.lift d.size
  | .faulty f =>
    Action.enterFaulty m f f.plan.read fun c => { c with size := c.size + 1 }
    Action.lift f.inner.size
  | .buffered _ => return (← m.entries).length
  | .adaptive a =>
    if a.buffer.isSome then return (← m.entries).length
    else if _h : a.backing.index < m.index then a.backing.size
    else Action.noMap
termination_by m.index

/-- Whether there is no entry. -/
def isEmpty (m : MapHandle) : Action Bool := return (← m.size) == 0

/-- The map's name and id. -/
def identity (m : MapHandle) : Action (String × MapId) := do
  let state ← Action.state m
  return (state.name, state.id)

/-- The writes that wait to be merged: their number and their bytes. -/
def pending (m : MapHandle) : Action (Nat × Nat) := do
  match (← Action.state m).buffer? with
  | some buffer => return (buffer.count, buffer.size)
  | none => return (0, 0)

end MapHandle

end MapStore
