/-
MapStore.Merge — what a merge did, and how merges are run.

A merge copies the slots of a write buffer into the backing map one by one and
counts what it did. Merges are handed to a pool of workers as units of work; a
worker survives whatever its unit does, so a unit that panics is reported like
one that failed.
-/
import MapStore.WriteBuffer
import MapStore.Error

namespace MapStore

/-- What a merge did. -/
structure MergeStats where
  /-- Values written into the backing. -/
  written : Nat
  /-- Tombstones applied to the backing. -/
  tombstones : Nat
  /-- Slots rewritten before they could be dropped; they stay buffered. -/
  superseded : Nat
  deriving DecidableEq, Repr

namespace MergeStats

/-- Nothing was merged. -/
def none : MergeStats := ⟨0, 0, 0⟩

/-- The slots copied into the backing. -/
def total (s : MergeStats) : Nat := s.written + s.tombstones

/-- Counts a change copied into the backing. -/
def apply (s : MergeStats) : Change → MergeStats
  | .value _ => { s with written := s.written + 1 }
  | .tombstone => { s with tombstones := s.tombstones + 1 }

/-- Counts a slot that was not the copied one any more. -/
def supersede (s : MergeStats) : MergeStats := { s with superseded := s.superseded + 1 }

end MergeStats

/-- Workers for merges. -/
structure MergePool where
  /-- How many; 0 for as many as the machine runs. -/
  workers : Nat
  deriving DecidableEq, Repr

namespace MergePool

/-- What the pool reports of a unit that ended so. -/
def outcome {α : Type} : Except Fault α → Except StoreError α
  | .ok a => .ok a
  | .error (.error cause) => .error cause
  | .error (.panic message) => .error (.mergePanicked (Fault.panicText message))

/-- The outcomes of units, in the order they were handed in. Units handed in
before the pool is given up are finished all the same. -/
def waitAll {α : Type} (units : List (Except Fault α)) : List (Except StoreError α) :=
  units.map outcome

end MergePool

end MapStore
