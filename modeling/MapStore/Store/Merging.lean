/-
MapStore.Store.Merging — draining a write buffer into its backing.

A merge works on a copy of the slots, in key order. Each change is made to the
backing first, and only then the slot is dropped, provided it is still the
slot that was copied: a write that arrived meanwhile has given the key a newer
one, which stays for the next merge. So a reader finds every key in at least
one of the two places, and a merge that stops halfway has lost nothing; done
again it makes the remaining changes, and perhaps some it made before.
-/
import MapStore.Store.Writing

namespace MapStore.MapHandle

/-- Drops the slot of `key` if it still has the sequence number `seq`; answers
whether it had. -/
def dropSlot (m : MapHandle) (key : Bytes) (seq : Nat) : Action Bool := do
  match (← Action.state m).buffer? with
  | some buffer =>
    let (dropped, buffer) := buffer.eraseUnchanged key seq
    Action.modifyState m (·.withBuffer buffer)
    return dropped
  | none => return false

/-- Makes one copied change to the backing and drops its slot. -/
def mergeSlot (m : MapHandle) (front : Front) (stats : MergeStats) (copied : Bytes × Slot) :
    Action MergeStats := do
  let (key, slot) := copied
  match ← Action.attempt (front.backing.write (← Action.pendingArrivals) key slot.change) with
  | .ok _ =>
    let stats := stats.apply slot.change
    return if ← m.dropSlot key slot.seq then stats else stats.supersede
  | .error (.error cause) => Action.refuse (.mergeFailed front.name cause.message)
  | .error (.panic message) => throw (.panic message)

/-- Makes the buffered changes to the backing. -/
def drain (m : MapHandle) (front : Front) (buffer : WriteBuffer) : Action MergeStats :=
  buffer.snapshot.foldlM (m.mergeSlot front) .none

/-- Makes the changes that wait in a map's buffer to its backing; a map
without a buffer has none. -/
def merge (m : MapHandle) : Action MergeStats := do
  match ← Action.state m with
  | .buffered b => m.drain b.toFront b.buffer
  | .adaptive a => a.buffer.elim (return .none) (m.drain a.toFront)
  | _ => return .none

end MapStore.MapHandle
