/-
MapStore.Store.Writing — putting and removing.

A write is a change to a key and answers the value the key had for a reader.
A plain map makes the change to its table. A map with a write buffer checks
the change against its own data types and buffers it, asking its backing for
the previous value only if nothing is buffered for the key. An adaptive map in
direct mode hands the change to its backing.

A faulty map may be set up so that other writes arrive while it is called:
each call takes the next batch and has it written first. Those writes may
themselves reach faulty maps, so `write` carries how deep such arrivals may
still lie; `put` and `remove` set it to the number of batches there are, which
is enough. What an arriving write answers is noted and otherwise nobody's
concern.
-/
import MapStore.Store.Reading

namespace MapStore

namespace FaultyMap

/-- The batch that arrives with a change of this sort, and what is left. -/
def takeArrivals (f : FaultyMap) : Change → List Arrival × FaultyMap
  | .value _ => (f.onPut.headD [], { f with onPut := f.onPut.tail })
  | .tombstone => (f.onRemove.headD [], { f with onRemove := f.onRemove.tail })

/-- Counts a call of this sort. -/
def countWrite (c : CallCounts) : Change → CallCounts
  | .value _ => { c with put := c.put + 1 }
  | .tombstone => { c with remove := c.remove + 1 }

/-- The fault of the next write, and the plan for those after it. -/
def nextWrite (p : FaultPlan) : Option Fault × FaultPlan :=
  if p.coming.isEmpty ∧ 0 < p.writeAfter then (none, { p with writeAfter := p.writeAfter - 1 })
  else p.next p.write

/-- Counts the call and makes the change, or gives way to the planned fault. -/
def write (f : FaultyMap) (key : Bytes) (c : Change) :
    Except Fault (Option Bytes) × FaultyMap :=
  let (fault, plan) := nextWrite f.plan
  let f := { f with plan }
  match fault with
  | some fault => (.error fault, f)
  | none =>
    match f.inner.write key c with
    | .ok (previous, inner) => (.ok previous, { f with inner })
    | .error cause => (.error (.error cause), f)

end FaultyMap

namespace MapHandle

/-- Has a faulty map make a change. -/
def writeFaulty (m : MapHandle) (key : Bytes) (change : Change) : Action (Option Bytes) := do
  match ← Action.state m with
  | .faulty f =>
    let (answer, f) := f.write key change
    Action.setState m (.faulty f)
    MonadExcept.ofExcept answer
  | _ => Action.noMap

/-- Buffers a change; answers the value the key had for a reader. -/
def writeBuffered (m : MapHandle) (front : Front) (buffer : WriteBuffer) (key : Bytes)
    (change : Change) : Action (Option Bytes) := do
  Action.lift (PlainMap.checkChange front.keyType front.valueType key change)
  let (previous, buffer) ← buffer.resolve key change front.backing.get
  Action.modifyState m (·.withBuffer buffer)
  return previous

/-- Makes a change to `key`; answers the value the key had. Writes that arrive
meanwhile may set off others `depth` deep. -/
def write (depth : Nat) (m : MapHandle) (key : Bytes) (change : Change) :
    Action (Option Bytes) := do
  match ← Action.state m with
  | .memory p =>
    let (previous, p) ← Action.lift (p.write key change)
    Action.setState m (.memory p)
    return previous
  | .direct d =>
    let (previous, d) ← Action.lift (d.write key change)
    Action.setState m (.direct d)
    return previous
  | .buffered b =>
    if b.closed then Action.refuse (.mapClosed b.name)
    m.writeBuffered b.toFront b.buffer key change
  | .adaptive a =>
    Action.modifyMeter a.meter .recordWrite
    match a.buffer with
    | some buffer => m.writeBuffered a.toFront buffer key change
    | none =>
      if _h : a.backing.index < m.index then write depth a.backing key change
      else Action.noMap
  | .faulty f =>
    let (batch, f) := f.takeArrivals change
    Action.setState m (.faulty { f with calls := FaultyMap.countWrite f.calls change })
    match depth with
    | 0 => pure ()
    | deeper + 1 =>
      batch.forM fun arrival => do
        let answer ← Action.attempt (write deeper arrival.target arrival.key arrival.change)
        Action.noteAnswer m answer
    m.writeFaulty key change
termination_by (depth, m.index)

/-- Puts `value` under `key`; answers the value the key had. -/
def put (m : MapHandle) (key value : Bytes) : Action (Option Bytes) := do
  write (← Action.pendingArrivals) m key (.value value)

/-- Takes `key` out; answers the value it had. -/
def remove (m : MapHandle) (key : Bytes) : Action (Option Bytes) := do
  write (← Action.pendingArrivals) m key .tombstone

end MapHandle

end MapStore
