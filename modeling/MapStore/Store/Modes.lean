/-
MapStore.Store.Modes — changing the mode of an adaptive map.

An adaptive map enters buffered mode with an empty buffer and is listed for
merging in its engine's live-sets; without an engine it is refused. It leaves
buffered mode by draining the buffer and is struck off the list; if the drain
fails it stays buffered, and nothing is lost. Both answer whether the mode
changed.
-/
import MapStore.Store.Merging

namespace MapStore.MapHandle

/-- How an adaptive map writes at the moment. -/
def mode (m : MapHandle) : Action MapMode := do
  match ← Action.state m with
  | .adaptive a => return a.mode
  | .buffered _ => return .buffered
  | _ => return .direct

/-- Has an adaptive map write into a buffer from now on. -/
def switchToBuffered (m : MapHandle) : Action Bool := do
  match ← Action.state m with
  | .adaptive a =>
    if a.buffer.isSome then return false
    if !(← Action.liveSets a.live).alive then Action.refuse .engineClosed
    let _ ← a.live.addBuffered (.map m)
    Action.setState m (.adaptive { a with buffer := some (.empty a.keyType.compare) })
    return true
  | _ => return false

/-- Has an adaptive map write straight into its backing from now on. -/
def switchToDirect (m : MapHandle) : Action Bool := do
  match ← Action.state m with
  | .adaptive a =>
    if a.buffer.isNone then return false
    let _ ← m.merge
    if (← Action.liveSets a.live).alive then
      let _ ← a.live.removeBuffered (.map m)
    Action.modifyState m fun
      | .adaptive a => .adaptive { a with buffer := none }
      | other => other
    return true
  | _ => return false

/-- The shares of reads and writes that an adaptive map's meter reports. -/
def percents (m : MapHandle) : Action (Nat × Nat) := do
  match ← Action.state m with
  | .adaptive a =>
    let meter ← Action.meter a.meter
    match meter.readPercent with
    | .ok read => return (read, meter.writePercent)
    | .error fault => throw fault
  | _ => return (0, 0)

/-- Starts a new window of an adaptive map's meter. -/
def resetWindow (m : MapHandle) : Action Unit := do
  match ← Action.state m with
  | .adaptive a => Action.modifyMeter a.meter .reset
  | _ => return ()

end MapStore.MapHandle
