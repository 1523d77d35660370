/-
MapStore.Tick — one round of background work.

A tick has three phases, each over the members its live-set has when the
phase begins. First every adaptive map is asked for its shares of reads and
writes, its window starts anew, and it changes to the mode the policy wants.
Then every buffer is merged. Then every map to be saved is saved. A member
that fails or panics in its switch, merge or save is counted and passed over;
the others are visited all the same. A meter that panics when it is asked for
its shares ends the tick.
-/
import MapStore.Store.Saving

namespace MapStore

/-- What a tick did. -/
structure TickReport where
  switchedToDirect : Nat
  switchedToBuffered : Nat
  switchFailures : Nat
  /-- Units merged. -/
  merged : Nat
  mergeFailures : Nat
  /-- Maps saved. -/
  flushed : Nat
  flushFailures : Nat
  deriving DecidableEq, Repr

namespace TickReport

/-- Nothing was done. -/
def none : TickReport := ⟨0, 0, 0, 0, 0, 0, 0⟩

/-- Counts an attempt to change a map's mode. -/
def countSwitch (r : TickReport) (target : MapMode) : Except Fault Bool → TickReport
  | .ok true =>
    match target with
    | .direct => { r with switchedToDirect := r.switchedToDirect + 1 }
    | .buffered => { r with switchedToBuffered := r.switchedToBuffered + 1 }
  | .ok false => r
  | .error _ => { r with switchFailures := r.switchFailures + 1 }

/-- Counts the evaluation of a map: the mode it was to change to, if any, and
how the attempt ended. -/
def countEvaluation (r : TickReport) : Option (MapMode × Except Fault Bool) → TickReport
  | .none => r
  | some (target, outcome) => r.countSwitch target outcome

/-- Counts an attempt to merge. -/
def countMerge (r : TickReport) : Except StoreError MergeStats → TickReport
  | .ok _ => { r with merged := r.merged + 1 }
  | .error _ => { r with mergeFailures := r.mergeFailures + 1 }

/-- Counts an attempt to save. -/
def countFlush (r : TickReport) : Except Fault Unit → TickReport
  | .ok () => { r with flushed := r.flushed + 1 }
  | .error _ => { r with flushFailures := r.flushFailures + 1 }

end TickReport

namespace MergeUnit

/-- Does the unit's work. -/
def run : MergeUnit → Action MergeStats
  | .map m => m.merge
  | .standIn u => do
    modify fun s =>
      { s with units := s.units.modify u.index fun x => { x with runs := x.runs + 1 } }
    Action.consult ((← get).units[u.index]?.bind (·.fault))
    return .none

/-- What the unit is called in messages. -/
def label : MergeUnit → Action String
  | .map m => return (← m.identity).1
  | .standIn u => return ((← get).units[u.index]?).elim "" (·.label)

end MergeUnit

namespace Tick

/-- Has the map change to a mode; answers whether it did. -/
def switchTo (m : MapHandle) : MapMode → Action Bool
  | .direct => m.switchToDirect
  | .buffered => m.switchToBuffered

/-- Decides the mode of one adaptive map; answers the mode it was to change to,
if any, and how the attempt ended. -/
def evaluate (policy : ModePolicy) (m : MapHandle) :
    Action (Option (MapMode × Except Fault Bool)) := do
  let (read, write) ← m.percents
  m.resetWindow
  match policy.modeFor read write with
  | none => return none
  | some target => return some (target, ← Action.attempt (switchTo m target))

/-- Evaluates one adaptive map. -/
def optimize (policy : ModePolicy) (r : TickReport) (m : MapHandle) : Action TickReport :=
  return r.countEvaluation (← evaluate policy m)

/-- Merges one unit. -/
def mergeUnit (r : TickReport) (u : MergeUnit) : Action TickReport :=
  return r.countMerge (MergePool.outcome (← Action.attempt u.run))

/-- Saves one map. -/
def flush (r : TickReport) (m : MapHandle) : Action TickReport :=
  return r.countFlush (← Action.attempt m.save)

/-- One round over the live-sets. -/
def run (live : LiveHandle) (policy : ModePolicy) : Action TickReport := do
  let r ← (← Action.liveSets live).adaptive.members.foldlM (optimize policy) .none
  let r ← (← Action.liveSets live).buffered.members.foldlM mergeUnit r
  (← Action.liveSets live).storage.members.foldlM flush r

end Tick

end MapStore
