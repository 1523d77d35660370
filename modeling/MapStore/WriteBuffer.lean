/-
MapStore.WriteBuffer — writes that wait to be merged into a backing map.

A buffer holds at most one slot for a key: the last write to it, either a
value or a tombstone, which hides whatever lies behind the buffer. Each write
takes the next sequence number, so a merge that copied a slot can tell later
whether the slot is still the one it copied (`eraseUnchanged`), even if the
same bytes were written again. `size` counts the bytes of keys and values.

`insert` is the plain write. `resolve` is a write that answers the value the
key had for a reader: with no slot for the key it asks what lies behind the
buffer, before anything is changed, and if that fails nothing is buffered.
-/
import MapStore.SortedTable
import MapStore.Bytes

namespace MapStore

/-- What a write does to its key. -/
inductive Change where
  /-- The key gets this value. -/
  | value (bytes : Bytes)
  /-- The key goes. -/
  | tombstone
  deriving DecidableEq, Repr

namespace Change

/-- The value a reader finds after the change. -/
def toOption : Change → Option Bytes
  | value bytes => some bytes
  | tombstone => none

/-- The bytes that a buffered change takes besides its key. -/
def size : Change → Nat
  | value bytes => bytes.length
  | tombstone => 0

end Change

/-- A buffered change and its sequence number. -/
structure Slot where
  change : Change
  seq : Nat
  deriving DecidableEq, Repr

/-- The writes to a map that its backing does not have yet. -/
structure WriteBuffer where
  slots : SortedTable Bytes Slot
  /-- The bytes of the keys and values in the slots. -/
  size : Nat
  /-- The sequence number of the last write. -/
  lastSeq : Nat

namespace WriteBuffer

/-- The buffer without slots, its keys in the given order. -/
def empty (order : Bytes → Bytes → Ordering) : WriteBuffer := ⟨.empty order, 0, 0⟩

/-- The buffered change to `key`. -/
def get? (b : WriteBuffer) (key : Bytes) : Option Change := (b.slots.get? key).map (·.change)

/-- Buffers a change; answers the buffered change it replaces. -/
def insert (b : WriteBuffer) (key : Bytes) (change : Change) : Option Change × WriteBuffer :=
  let seq := b.lastSeq + 1
  let (previous, slots) := b.slots.insert key ⟨change, seq⟩
  let size := match previous with
    | some old => b.size - old.change.size + change.size
    | none => b.size + (key.length + change.size)
  (previous.map (·.change), { slots, size, lastSeq := seq })

/-- Buffers a change; answers the value that a reader found under `key`
before it. `behind` is asked only if nothing is buffered for the key. -/
def resolve {m : Type → Type} [Monad m] (b : WriteBuffer) (key : Bytes) (change : Change)
    (behind : Bytes → m (Option Bytes)) : m (Option Bytes × WriteBuffer) := do
  let hidden ← match b.get? key with
    | some _ => pure none
    | none => behind key
  let (previous, b) := b.insert key change
  pure (previous.elim hidden Change.toOption, b)

/-- Every slot with its key, in key order. -/
def snapshot (b : WriteBuffer) : List (Bytes × Slot) := b.slots.toList

/-- Drops the slot of `key` if it still has the sequence number `seq`; answers
whether it had. -/
def eraseUnchanged (b : WriteBuffer) (key : Bytes) (seq : Nat) : Bool × WriteBuffer :=
  match b.slots.eraseIf key (·.seq == seq) with
  | (some old, slots) => (true, { b with slots, size := b.size - (key.length + old.change.size) })
  | (none, _) => (false, b)

/-- The number of slots. -/
def count (b : WriteBuffer) : Nat := b.slots.size

/-- Whether nothing is buffered. -/
def isEmpty (b : WriteBuffer) : Bool := b.slots.isEmpty

end WriteBuffer

end MapStore
