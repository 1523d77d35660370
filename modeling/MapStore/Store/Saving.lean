/-
MapStore.Store.Saving — making the contents of a map durable, and closing it.

A map that stands on another saves by merging and then saving its backing. It
closes likewise: what waits is merged, then the backing is closed. While a
buffered map merges for the last time it already refuses writers; if that
merge or the backing's close is refused the map opens again with what is still
buffered, and a later close tries again. Closing a closed map does nothing.
-/
import MapStore.Store.Modes

namespace MapStore.MapHandle

/-- Makes the contents durable; maps that keep nothing have nothing to do. -/
def save (m : MapHandle) : Action Unit := do
  match ← Action.state m with
  | .memory _ => return ()
  | .direct d =>
    let (answer, d, disk) := d.save (← Action.disk)
    Action.setDisk disk
    Action.setState m (.direct d)
    Action.lift answer
  | .faulty f =>
    Action.enterFaulty m f f.plan.save fun c => { c with save := c.save + 1 }
  | .buffered b =>
    if b.closed then return ()
    let _ ← m.merge
    if _h : b.backing.index < m.index then b.backing.save else Action.noMap
  | .adaptive a =>
    let _ ← m.merge
    if _h : a.backing.index < m.index then a.backing.save else Action.noMap
termination_by m.index

/-- Says whether a buffered map is closed. -/
def setClosed (m : MapHandle) (closed : Bool) : Action Unit :=
  Action.modifyState m fun
    | .buffered b => .buffered { b with closed }
    | other => other

/-- Makes the contents durable and refuses reads and writes from then on. -/
def close (m : MapHandle) : Action Unit := do
  match ← Action.state m with
  | .memory p => Action.setState m (.memory p.close)
  | .direct d =>
    let (answer, d, disk) := d.close (← Action.disk)
    Action.setDisk disk
    Action.setState m (.direct d)
    Action.lift answer
  | .faulty f =>
    Action.enterFaulty m f f.plan.close fun c => { c with close := c.close + 1 }
    Action.modifyState m fun
      | .faulty f => .faulty { f with inner := f.inner.close }
      | other => other
  | .buffered b =>
    if b.closed then return ()
    m.setClosed true
    let lastMerge : Action Unit := do
      let _ ← m.merge
      if _h : b.backing.index < m.index then b.backing.close else Action.noMap
    match ← Action.attempt lastMerge with
    | .ok () => return ()
    | .error (.error cause) =>
      m.setClosed false
      Action.refuse cause
    | .error (.panic message) => throw (.panic message)
  | .adaptive a =>
    let _ ← m.switchToDirect
    if _h : a.backing.index < m.index then a.backing.close else Action.noMap
termination_by m.index

end MapStore.MapHandle
