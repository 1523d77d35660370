/-
MapStore.Proofs.Absorbing — a merge loses no write that arrives while it runs.

Slot by slot a merge takes in what arrives at its writes to the backing. The
induction is on the slots that are left of its copy (`Arriving.drain`); what
carries it is `Waiting` for the buffer, and that the backing has exactly the
merged slots' changes made to it, whatever arrives. `Absorbed` is what is known
at each point.

So a merge either comes to its end or stops at the slot whose write was
refused, and in both cases every write that arrived until then was answered the
previous value and readers find the earlier contents with those writes made in
order. A later merge finishes the work if the data type of the keys admits keys
that compare equal alike: `merge_absorbs`. That it may not otherwise, and that
a key may come out in another spelling, is seen in `respelled_lingers`.
-/
import MapStore.Proofs.Arriving
import MapStore.Proofs.KeyOrders

namespace MapStore

open PlainMap (changeAll change checkChange answersTo)
open WriteBuffer (changesOf)
open SortedTable (last?)

/-! ## Schedules -/

/-- How many of the slots are of keys that were written to by the time the
batch of the slot had arrived, after the changes `arrived`. -/
def rewritten (order : Bytes → Bytes → Ordering) (arrived : List (Bytes × Change))
    (slots : List (Bytes × Slot)) (batches : List (List (Bytes × Change))) : Nat :=
  slots.zipIdx.countP fun e =>
    (last? order (arrived ++ (batches.take (e.2 + 1)).flatten) e.1.1).isSome

theorem rewritten_cons (order : Bytes → Bytes → Ordering) (arrived : List (Bytes × Change))
    (slot : Bytes × Slot) (slots : List (Bytes × Slot)) (batch : List (Bytes × Change))
    (batches : List (List (Bytes × Change))) :
    rewritten order arrived (slot :: slots) (batch :: batches) =
      (last? order (arrived ++ batch) slot.1).isSome.toNat +
        rewritten order (arrived ++ batch) slots batches := by
  unfold rewritten
  rw [List.zipIdx_cons', List.countP_cons, List.countP_map]
  simp only [Function.comp_def, List.take_succ_cons, List.take_zero, List.flatten_cons,
    List.flatten_nil, List.append_nil, List.append_assoc, Prod.map]
  rw [Nat.add_comm]
  cases (last? order (arrived ++ batch) slot.1).isSome <;> rfl

namespace FaultyMap

/-- Where nothing is to arrive nothing does. -/
theorem schedule_of_nil {f : FaultyMap} (nothing : f.arrivals = []) (slots : List (Bytes × Slot)) :
    (f.schedule slots).flatten = [] := by
  induction slots generalizing f with
  | nil => rfl
  | cons s rest ih =>
    have batch : (f.takeArrivals s.2.change).1 = [] := by
      refine List.eq_nil_iff_forall_not_mem.2 fun a ha => ?_
      have among : a ∈ f.arrivals := mem_takeArrivals (.inl ha)
      rw [nothing] at among
      cases among
    have later : (f.takeArrivals s.2.change).2.arrivals = [] := by
      refine List.eq_nil_iff_forall_not_mem.2 fun a ha => ?_
      have among : a ∈ f.arrivals := mem_takeArrivals (.inr ha)
      rw [nothing] at among
      cases among
    rw [schedule, batch, List.map_nil, List.flatten_cons, ih later, List.append_nil]

/-- When the slots are merged one after the other, the change of the one with
this number does not come through to the map. -/
def StopsAt (f : FaultyMap) (slots : List (Bytes × Slot)) (n : Nat) (fault : Fault) : Prop :=
  (f.plan.write = some fault ∧ f.plan.writeAfter = n) ∨
    ∃ entry cause, slots[n]? = some entry ∧ fault = .error cause ∧
      checkChange f.inner.keyType f.inner.valueType entry.1 entry.2.change = .error cause

theorem Refuses.stopsAt {f : FaultyMap} {key : Bytes} {slot : Slot} {fault : Fault}
    (h : f.Refuses key slot.change fault) (left : List (Bytes × Slot)) :
    f.StopsAt ((key, slot) :: left) 0 fault := by
  obtain planned | ⟨cause, eq, refused⟩ := h
  · exact .inl planned
  · exact .inr ⟨_, cause, rfl, eq, refused⟩

/-- What stops the map `f'`, one write later, stops the map one slot later. -/
theorem StopsAt.succ {f f' : FaultyMap} {left : List (Bytes × Slot)} {n : Nat} {fault : Fault}
    (h : f'.StopsAt left n fault) (entry : Bytes × Slot)
    (keyType : f'.inner.keyType = f.inner.keyType)
    (valueType : f'.inner.valueType = f.inner.valueType) (write : f'.plan.write = f.plan.write)
    (after : f.plan.write = none ∨ f.plan.writeAfter = f'.plan.writeAfter + 1) :
    f.StopsAt (entry :: left) (n + 1) fault := by
  obtain ⟨refuses, now⟩ | ⟨entry', cause, there, eq, refused⟩ := h
  · rw [write] at refuses
    obtain never | after := after
    · rw [never] at refuses
      cases refuses
    · exact .inl ⟨refuses, by omega⟩
  · rw [keyType, valueType] at refused
    exact .inr ⟨entry', cause, there, eq, refused⟩

/-- Nothing is to arrive at the map, and it refuses no look-up, listing or
write. -/
structure Settled (f : FaultyMap) : Prop where
  arrivals : f.arrivals = []
  reads : f.plan.read = none
  writes : f.plan.write = none
  coming : f.plan.coming = []

end FaultyMap

namespace Store

variable {s s' : Store} {m b : MapHandle} {x : BufferedMap} {f : FaultyMap}
  {since : Nat} {left : List (Bytes × Slot)} {arrived : List (Bytes × Change)}

/-! ## All slots -/

/-- After some of the copied slots are merged, with others left and a list of
changes that came in meanwhile: they were answered one by one what readers
found, and what waits is the rest of the copy and what came in. -/
def Absorbed (s' : Store) (m b : MapHandle) (x : BufferedMap)
    (f : FaultyMap) (since : Nat) (merged left : List (Bytes × Slot))
    (arrived new : List (Bytes × Change)) : Prop :=
  ∃ w f', s'.Arriving m b { x with buffer := w } f' ∧
    w.Waiting since left (arrived ++ new) ∧
    f'.inner.table = changeAll f.inner.table (changesOf merged) ∧
    f'.answers = f.answers ++ (answersTo
      (changeAll (changeAll f.inner.table (changesOf (merged ++ left))) arrived) new).map .ok

/-- No slot merged, and a batch answered. -/
theorem Absorbed.of_arriving {w : WriteBuffer} {f₁ : FaultyMap} {batch : List (Bytes × Change)}
    (h : s'.Arriving m b { x with buffer := w } f₁)
    (waiting : w.Waiting since left (arrived ++ batch))
    [Std.TransCmp f.inner.table.order]
    (visible : ∀ key, (x.buffer.overTable f.inner.table).get? key =
      (changeAll (changeAll f.inner.table (changesOf left)) arrived).get? key)
    (table : f₁.inner.table = f.inner.table)
    (answers : f₁.answers =
      f.answers ++ (answersTo (x.buffer.overTable f.inner.table) batch).map .ok) :
    s'.Absorbed m b x f since [] left arrived batch := by
  have lawful : Std.TransCmp (x.buffer.overTable f.inner.table).order := by
    rw [WriteBuffer.order_overTable]
    infer_instance
  refine ⟨w, f₁, h, waiting, table, ?_⟩
  rw [answers, PlainMap.answersTo_congr (by
    rw [WriteBuffer.order_overTable, PlainMap.order_changeAll, PlainMap.order_changeAll]) visible]
  rfl

/-- A first slot merged, and its batch answered, before the rest. -/
theorem Absorbed.cons {w : WriteBuffer} {f₁ : FaultyMap} {entry : Bytes × Slot}
    {merged : List (Bytes × Slot)} {batch new : List (Bytes × Change)}
    [Std.TransCmp f.inner.table.order]
    (visible : ∀ key, (x.buffer.overTable f.inner.table).get? key =
      (changeAll (changeAll f.inner.table (changesOf (entry :: (merged ++ left))))
        arrived).get? key)
    (table : f₁.inner.table = (change f.inner.table entry.1 entry.2.change).2)
    (answers : f₁.answers =
      f.answers ++ (answersTo (x.buffer.overTable f.inner.table) batch).map .ok)
    (rest : s'.Absorbed m b { x with buffer := w } f₁ since merged left (arrived ++ batch) new) :
    s'.Absorbed m b x f since (entry :: merged) left arrived (batch ++ new) := by
  obtain ⟨w', f', arriving, waiting, table', answers'⟩ := rest
  have lawful : Std.TransCmp (x.buffer.overTable f.inner.table).order := by
    rw [WriteBuffer.order_overTable]
    infer_instance
  refine ⟨w', f', arriving, ?_, ?_, ?_⟩
  · rw [← List.append_assoc]
    exact waiting
  · rw [table', table]
    rfl
  · have first := PlainMap.answersTo_congr (by
      rw [WriteBuffer.order_overTable, PlainMap.order_changeAll, PlainMap.order_changeAll])
      visible batch
    rw [answers', answers, first, table, PlainMap.changeAll_append, List.cons_append,
      PlainMap.answersTo_append, List.map_append, List.append_assoc]
    rfl

namespace Arriving

/-- The slots that are left are merged one after the other, as far as the writes
come through. -/
theorem drain (h : s.Arriving m b x f) (waiting : x.buffer.Waiting since left arrived)
    (stats : MergeStats) :
    ((f.plan.write = none ∨ left.length ≤ f.plan.writeAfter) ∧
      ∃ stats' s', left.foldlM (m.mergeSlot x.toFront) stats s = .ok stats' s' ∧
        s'.Absorbed m b x f since left [] arrived (f.schedule left).flatten ∧
        stats'.total = stats.total + left.length ∧
        stats'.superseded = stats.superseded +
          rewritten x.keyType.compare arrived left (f.schedule left)) ∨
    ∃ n fault s', n < left.length ∧ f.StopsAt left n fault ∧
      left.foldlM (m.mergeSlot x.toFront) stats s = .error (x.toFront.mergeFault fault) s' ∧
      s'.Absorbed m b x f since (left.take n) (left.drop n) arrived
        ((f.schedule left).take (n + 1)).flatten := by
  induction left generalizing s x f arrived stats with
  | nil =>
    have lawful := h.lawful_table
    have lawful' := h.lawful_slots
    refine .inl ⟨.inr (Nat.zero_le _), stats, s, rfl, .of_arriving h ?_
      (waiting.get?_overTable f.inner.table h.same_order) rfl ?_, rfl, rfl⟩
    · rw [FaultyMap.schedule, List.flatten_nil, List.append_nil]
      exact waiting
    · rw [FaultyMap.schedule, List.flatten_nil, answersTo, List.map_nil, List.append_nil]
  | cons entry left ih =>
    obtain ⟨key, slot⟩ := entry
    have lawful := h.lawful_table
    have lawful' := h.lawful_slots
    have visible := waiting.get?_overTable f.inner.table h.same_order
    rw [List.foldlM_cons, Action.run_bind, FaultyMap.schedule]
    obtain ⟨s₁, w, f₁, h₁, scheduled, answers, merged | refused⟩ := h.mergeSlot waiting stats
    · obtain ⟨stats₁, run, total, superseded, waiting₁, table, write, after⟩ := merged
      rw [run]
      have rest := ih h₁ waiting₁ stats₁
      rw [scheduled, write] at rest
      obtain ⟨lasts, stats', s', run', absorbed, total', superseded'⟩ |
        ⟨n, fault, s', early, stops, run', absorbed⟩ := rest
      · refine .inl ⟨?_, stats', s', run', absorbed.cons (by simpa using visible) table answers,
          ?_, ?_⟩
        · rw [List.length_cons]
          rcases lasts with never | lasts
          · exact .inl never
          rcases after with never | after
          · exact .inl never
          · exact .inr (by omega)
        · rw [total', total, List.length_cons]
          omega
        · rw [superseded', superseded, rewritten_cons, Nat.add_assoc]
      · refine .inr ⟨n + 1, fault, s', Nat.succ_lt_succ early,
          stops.succ _ (h₁.keyType.symm.trans h.keyType) (h₁.valueType.symm.trans h.valueType) write
            after, run', ?_⟩
        rw [List.take_succ_cons, List.drop_succ_cons, List.take_succ_cons, List.flatten_cons]
        exact absorbed.cons (by simpa using visible) table answers
    · obtain ⟨fault, run, waiting₁, table, refuses⟩ := refused
      rw [run]
      refine .inr ⟨0, fault, s₁, Nat.succ_pos _, refuses.stopsAt left, rfl,
        .of_arriving h₁ ?_ visible table ?_⟩
      · simpa using waiting₁
      · simpa using answers

/-- Where keys that compare equal are admitted alike, nothing but the plan
stops a merge. -/
theorem planned_of_stopsAt (h : s.Arriving m b x f) (coherent : x.keyType.Coherent) {n : Nat}
    {fault : Fault} (stops : f.StopsAt x.buffer.snapshot n fault) :
    f.plan.write = some fault ∧ f.plan.writeAfter = n := by
  rcases stops with planned | ⟨entry, cause, there, -, refused⟩
  · exact planned
  · have lawful := h.lawful
    have admitted := h.filled.admitted coherent entry (List.mem_of_getElem? there)
    rw [h.keyType, h.valueType, refused] at admitted
    cases admitted

end Arriving

/-! ## The merge -/

/-- What became of a merge over the contents `before`, their keys of this type,
that left some slots of its copy, and of the changes that came in meanwhile. -/
structure Took (s' : Store) (m b : MapHandle) (keyType : DataType) (f : FaultyMap)
    (before : SortedTable Bytes Bytes) (left : List (Bytes × Slot))
    (new : List (Bytes × Change)) : Prop where
  /-- Each was answered the value that its key had just before it. -/
  answers : ∃ f', s'.maps[b.index]? = some (.faulty f') ∧
    f'.answers = f.answers ++ (answersTo before new).map .ok
  /-- Readers find the earlier contents with just these changes made in order. -/
  shows : ∃ t, s'.Reads m t ∧ t.Alike (changeAll before new)
  /-- What waits is the last of them for each key, and what the merge left. -/
  waits : ∃ x', s'.maps[m.index]? = some (.buffered x') ∧ ∀ key, x'.buffer.get? key =
    (last? before.order new key).or (last? before.order (changesOf left) key)
  /-- One more merge, at which nothing arrives and nothing is refused, leaves
  nothing waiting and the same contents in the backing, where keys that compare
  equal are admitted alike. -/
  finishes : keyType.Coherent → ∀ f' f'', s'.maps[b.index]? = some (.faulty f') →
    f''.inner = f'.inner → f''.Settled → ∃ stats s'' bytes t,
      m.merge (s'.set b (.faulty f'')) = .ok stats s'' ∧
      m.pending s'' = .ok (0, bytes) s'' ∧ s''.Reads m t ∧ s''.Reads b t ∧
      t.Alike (changeAll before new)

namespace Arriving

/-- A merge goes over a copy of the slots. -/
theorem run_merge (h : s.Arriving m b x f) :
    m.merge s = x.buffer.snapshot.foldlM (m.mergeSlot x.toFront) .none s :=
  MapHandle.run_merge_buffered h.state

/-- A merge at which nothing arrives and nothing is refused makes every waiting
change to the backing. -/
theorem merge_settled (h : s.Arriving m b x f) (coherent : x.keyType.Coherent)
    (settled : f.Settled) :
    ∃ stats s' bytes, m.merge s = .ok stats s' ∧ m.pending s' = .ok (0, bytes) s' ∧
      s'.Reads m (x.buffer.overTable f.inner.table) ∧
      s'.Reads b (x.buffer.overTable f.inner.table) := by
  have lawful := h.lawful_slots
  rw [h.run_merge]
  obtain ⟨-, stats, s', run, ⟨w, f', still, waiting, table, -⟩, -, -⟩ |
    ⟨n, fault, s', -, stops, -⟩ := h.drain (x.buffer.waiting_snapshot h.sound) .none
  · have lawful' : Std.TransCmp w.slots.order := still.lawful_slots
    have nothing : w.snapshot = [] := by
      refine (SortedTable.toList_eq_nil_iff w.slots).2 fun key => ?_
      have found := waiting.get?_of_nil key
      rw [FaultyMap.schedule_of_nil settled.arrivals] at found
      simpa [WriteBuffer.get?] using found
    have through := still.reads_through
    rw [WriteBuffer.overTable_of_snapshot_nil nothing, table] at through
    have behind := still.reads_behind
    rw [table] at behind
    refine ⟨stats, s', w.size, run, ?_, through, behind⟩
    have count : w.count = 0 := by
      rw [WriteBuffer.count, SortedTable.size_eq_length]
      exact congrArg List.length nothing
    unfold MapHandle.pending
    rw [Action.run_bind, Action.run_state still.state]
    simp [MapState.buffer?, count]
  · have refuses := (h.planned_of_stopsAt coherent stops).1
    rw [settled.writes] at refuses
    cases refuses

end Arriving

/-- What is known of the moment when a merge has ended. -/
theorem Absorbed.took {merged : List (Bytes × Slot)} {new : List (Bytes × Change)}
    (h : s.Arriving m b x f)
    (absorbed : s'.Absorbed m b x f since merged left [] new)
    (all : merged ++ left = x.buffer.snapshot) :
    s'.Took m b x.keyType f (x.buffer.overTable f.inner.table) left new := by
  obtain ⟨w, f', still, waiting, table, answers⟩ := absorbed
  have lawful : Std.TransCmp w.slots.order := still.lawful_slots
  have lawful' := still.lawful_table
  have whole : changeAll f'.inner.table (changesOf left) = x.buffer.overTable f.inner.table := by
    rw [table, ← PlainMap.changeAll_append, changesOf, changesOf, ← List.map_append, all]
    rfl
  have order : (x.buffer.overTable f.inner.table).order = w.slots.order := by
    rw [WriteBuffer.order_overTable, h.order]
    exact still.slots.symm
  have alike : (w.overTable f'.inner.table).Alike
      (changeAll (x.buffer.overTable f.inner.table) new) := by
    have lawful'' : Std.TransCmp (w.overTable f'.inner.table).order := by
      rw [WriteBuffer.order_overTable]
      infer_instance
    refine .of_get? ?_ fun key => ?_
    · rw [WriteBuffer.order_overTable, PlainMap.order_changeAll, order]
      exact still.same_order.symm
    · rw [waiting.get?_overTable f'.inner.table still.same_order, whole]
      rfl
  constructor
  case answers =>
    refine ⟨f', still.behind, ?_⟩
    rw [answers, all]
    rfl
  case shows => exact ⟨_, still.reads_through, alike⟩
  case waits =>
    refine ⟨_, still.state, fun key => ?_⟩
    rw [order]
    exact waiting.get? key
  case finishes =>
    intro coherent g f'' at_b inner settled
    rw [still.behind] at at_b
    cases at_b
    have arriving := still.rebehind f'' ⟨f'.inner.table, inner, rfl⟩
      (settled.reads.trans still.reads.symm) (settled.coming.trans still.coming.symm)
      (by simp [settled.arrivals])
    obtain ⟨stats, s'', bytes, run, pending, through, behind⟩ :=
      arriving.merge_settled coherent settled
    rw [inner] at through behind
    exact ⟨stats, s'', bytes, _, run, pending, through, behind, alike⟩

/-- A merge loses no write that arrives while it runs. It comes to its end
unless a write to the backing is refused, having made every copied change, and
then only what arrived waits; refused a write, it stops there, and then what it
did not get to waits too. Where keys that compare equal are admitted alike it
is refused a write by the plan alone. -/
theorem merge_absorbs (h : s.Arriving m b x f) :
    s.Reads m (x.buffer.overTable f.inner.table) ∧
    (((f.plan.write = none ∨ x.buffer.snapshot.length ≤ f.plan.writeAfter) ∧
      ∃ stats s', m.merge s = .ok stats s' ∧
        stats.written + stats.tombstones = x.buffer.snapshot.length ∧
        stats.superseded = rewritten x.keyType.compare [] x.buffer.snapshot
          (f.schedule x.buffer.snapshot) ∧
        s'.Took m b x.keyType f (x.buffer.overTable f.inner.table) []
          (f.schedule x.buffer.snapshot).flatten) ∨
    ∃ n fault s', n < x.buffer.snapshot.length ∧ f.StopsAt x.buffer.snapshot n fault ∧
      (x.keyType.Coherent → f.plan.write = some fault ∧ f.plan.writeAfter = n) ∧
      m.merge s = .error (x.toFront.mergeFault fault) s' ∧
      s'.Took m b x.keyType f (x.buffer.overTable f.inner.table) (x.buffer.snapshot.drop n)
        ((f.schedule x.buffer.snapshot).take (n + 1)).flatten) := by
  have lawful := h.lawful_slots
  refine ⟨h.reads_through, ?_⟩
  rw [h.run_merge]
  obtain ⟨lasts, stats, s', run, absorbed, total, superseded⟩ |
    ⟨n, fault, s', early, stops, run, absorbed⟩ :=
    h.drain (x.buffer.waiting_snapshot h.sound) .none
  · refine .inl ⟨lasts, stats, s', run, ?_, ?_, absorbed.took h (List.append_nil _)⟩
    · exact total.trans (Nat.zero_add _)
    · exact superseded.trans (Nat.zero_add _)
  · exact .inr ⟨n, fault, s', early, stops, fun coherent => h.planned_of_stopsAt coherent stops,
      run, absorbed.took h (List.take_append_drop ..)⟩

/-- Two waiting changes. While the first is merged its key is put again and the
second key too; while the second is merged the first key is removed. -/
def busy : BufferedMap × FaultyMap :=
  ({ name := "m", id := ⟨1⟩, backing := ⟨0⟩, keyType := .bytes, valueType := .bytes
     buffer := (((WriteBuffer.empty Bytes.compare).insert [1] (.value [10])).2.insert [2]
       .tombstone).2
     closed := false },
   { inner := .empty "m" ⟨1⟩ .bytes .bytes, plan := .none, calls := .zero
     onPut := [[⟨⟨1⟩, [1], .value [11]⟩, ⟨⟨1⟩, [2], .value [20]⟩]]
     onRemove := [[⟨⟨1⟩, [1], .tombstone⟩]], answers := [], settings := none })

/-- The store that holds the two maps. -/
def busyStore : Store :=
  { Store.onDisk .empty with maps := [.faulty busy.2, .buffered busy.1] }

theorem busy_arriving : busyStore.Arriving ⟨1⟩ ⟨0⟩ busy.1 busy.2 where
  state := rfl
  isOpen := rfl
  backing := rfl
  below := by decide
  behind := rfl
  behindOpen := rfl
  reads := rfl
  coming := rfl
  keyType := rfl
  valueType := rfl
  lawful := inferInstanceAs (Std.TransCmp Bytes.compare)
  order := rfl
  filled := (WriteBuffer.Filled.empty.insert [1] (.value [10]) rfl).insert [2] .tombstone rfl
  fits a mem := by
    have target : a.target = ⟨1⟩ := by
      revert a
      decide
    refine ⟨target, ?_⟩
    cases a.change <;> rfl

/-- Both slots of the copy are rewritten before they can be dropped, and what
waits afterwards is what came in last. -/
theorem busy_absorbs :
    ∃ stats s', (⟨1⟩ : MapHandle).merge busyStore = .ok stats s' ∧
      stats.written + stats.tombstones = 2 ∧ stats.superseded = 2 ∧
      DataType.bytes.Coherent ∧
      s'.Took ⟨1⟩ ⟨0⟩ .bytes busy.2 (busy.1.buffer.overTable busy.2.inner.table) []
        [([1], .value [11]), ([2], .value [20]), ([1], .tombstone)] := by
  have copied : busy.1.buffer.snapshot = [([1], ⟨.value [10], 1⟩), ([2], ⟨.tombstone, 2⟩)] := by
    decide
  have coherent : DataType.bytes.Coherent := DataType.coherent_of_mem (by simp)
  obtain ⟨-, ⟨-, stats, s', run, total, superseded, took⟩ |
    ⟨n, fault, s', -, -, planned, -⟩⟩ := merge_absorbs busy_arriving
  · rw [copied] at total superseded took
    exact ⟨stats, s', run, total, superseded, coherent, took⟩
  · cases (planned coherent).1

/-- A removal waits whose key is spelled in capitals, which the data type of the
keys does not admit. While it is merged the same word is put in small letters. -/
def respelled : BufferedMap × FaultyMap :=
  ({ name := "m", id := ⟨1⟩, backing := ⟨0⟩, keyType := .smallLetters, valueType := .bytes
     buffer := ((WriteBuffer.empty DataType.smallLetters.compare).insert [75] .tombstone).2
     closed := false },
   { inner := .empty "m" ⟨1⟩ .smallLetters .bytes, plan := .none, calls := .zero
     onPut := [], onRemove := [[⟨⟨1⟩, [107], .value [118]⟩]], answers := [], settings := none })

/-- The store that holds the two maps. -/
def respelledStore : Store :=
  { Store.onDisk .empty with maps := [.faulty respelled.2, .buffered respelled.1] }

theorem respelled_arriving : respelledStore.Arriving ⟨1⟩ ⟨0⟩ respelled.1 respelled.2 where
  state := rfl
  isOpen := rfl
  backing := rfl
  below := by decide
  behind := rfl
  behindOpen := rfl
  reads := rfl
  coming := rfl
  keyType := rfl
  valueType := rfl
  lawful := inferInstanceAs (Std.TransCmp DataType.smallLetters.compare)
  order := rfl
  filled := .insert .empty [75] .tombstone rfl
  fits a mem := by
    obtain rfl : a = ⟨⟨1⟩, [107], .value [118]⟩ := by
      simpa [respelled, FaultyMap.arrivals] using mem
    exact ⟨rfl, rfl⟩

/-- The buffered map after the put, which has its key as the removal spelled it. -/
def respelledPut : BufferedMap :=
  { respelled.1 with buffer := (respelled.1.buffer.insert [107] (.value [118])).2 }

/-- The map behind after the removal, the put having arrived. -/
def respelledBehind : FaultyMap :=
  { respelled.2 with
    calls := { CallCounts.zero with remove := 1 }, onRemove := [], answers := [.ok none] }

/-- The store after the merge. -/
def respelledMerged : Store :=
  { Store.onDisk .empty with maps := [.faulty respelledBehind, .buffered respelledPut] }

/-- The put arrives when the removal is made behind. It finds the slot of the
removal and takes it over, key and all. -/
theorem run_respelled :
    (⟨1⟩ : MapHandle).merge respelledStore = .ok ⟨0, 1, 1⟩ respelledMerged := by
  have put : ∀ s : Store, s.maps[1]? = some (.buffered respelled.1) → ∀ depth,
      (⟨1⟩ : MapHandle).write depth [107] (.value [118]) s =
        .ok none (s.set ⟨1⟩ (.buffered respelledPut)) := by
    intro s state depth
    have admitted : checkChange respelled.1.keyType respelled.1.valueType [107] (.value [118]) =
        .ok () := rfl
    have there : respelled.1.buffer.get? [107] = some .tombstone := rfl
    rw [MapHandle.write_buffered state rfl, MapHandle.writeBuffered_of_some there]
    simp only [Action.run_bind, admitted, Action.run_lift_ok, Action.run_modifyState _ state]
    rfl
  have behind : (⟨0⟩ : MapHandle).write 1 [75] .tombstone respelledStore =
      .ok none respelledMerged := by
    -- the call is counted and its batch taken, then the put is delivered
    obtain ⟨f, hf⟩ : ∃ f, f = { (respelled.2.takeArrivals .tombstone).2 with
      calls := FaultyMap.countWrite respelled.2.calls .tombstone } := ⟨_, rfl⟩
    have state : (respelledStore.set ⟨0⟩ (.faulty f)).maps[1]? = some (.buffered respelled.1) := rfl
    have delivered : (respelled.2.takeArrivals .tombstone).1.forM (MapHandle.deliver ⟨0⟩ (1 - 1))
        (respelledStore.set ⟨0⟩ (.faulty f)) = .ok () respelledMerged := by
      show (do
        MapHandle.deliver ⟨0⟩ (1 - 1) ⟨⟨1⟩, [107], .value [118]⟩
        pure () : Action Unit) _ = _
      simp only [MapHandle.deliver, Action.run_bind, Action.run_attempt, put _ state]
      rw [hf]
      rfl
    rw [MapHandle.write_deliver (f := respelled.2) rfl fun _ => Nat.one_pos, ← hf, Action.run_bind,
      delivered]
    rfl
  have copied : respelled.1.buffer.snapshot = [([75], ⟨.tombstone, 1⟩)] := rfl
  have depth : respelledStore.maps.foldl (fun n st => n + st.pendingArrivals) 0 = 1 := rfl
  have below : respelled.1.backing = ⟨0⟩ := rfl
  rw [respelled_arriving.run_merge, copied]
  simp only [List.foldlM_cons, List.foldlM_nil, MapHandle.mergeSlot, Action.run_pendingArrivals,
    Action.run_bind, Action.run_attempt, depth, below, behind]
  rfl

theorem respelledMerged_arriving :
    respelledMerged.Arriving ⟨1⟩ ⟨0⟩ respelledPut respelledBehind where
  state := rfl
  isOpen := rfl
  backing := rfl
  below := by decide
  behind := rfl
  behindOpen := rfl
  reads := rfl
  coming := rfl
  keyType := rfl
  valueType := rfl
  lawful := inferInstanceAs (Std.TransCmp DataType.smallLetters.compare)
  order := rfl
  filled := respelled_arriving.filled.insert [107] (.value [118]) rfl
  fits a mem := nomatch mem

/-- The put is listed under the spelling of the removal, and no further merge
gets it into the map behind. So a merge does not keep the spellings of keys,
and another one finishes only where keys that compare equal are admitted alike. -/
theorem respelled_lingers :
    respelledStore.Arriving ⟨1⟩ ⟨0⟩ respelled.1 respelled.2 ∧
      ∃ stats s' t, (⟨1⟩ : MapHandle).merge respelledStore = .ok stats s' ∧
        s'.Reads ⟨1⟩ t ∧ t.toList = [([75], [118])] ∧
        (changeAll (respelled.1.buffer.overTable respelled.2.inner.table)
          [([107], .value [118])]).toList = [([107], [118])] ∧
        (∃ f, s'.maps[0]? = some (.faulty f) ∧ f.Settled) ∧
        ∃ s'', (⟨1⟩ : MapHandle).merge s' =
            .error (.error (.mergeFailed "m"
              (StoreError.invalidKey "small" "capital letter").message)) s'' ∧
          (⟨1⟩ : MapHandle).pending s'' = .ok (1, 2) s'' := by
  refine ⟨respelled_arriving, _, _, _, run_respelled, respelledMerged_arriving.reads_through, rfl,
    rfl, ⟨_, rfl, rfl, rfl, rfl, rfl⟩, ?_⟩
  have copied : respelledPut.buffer.snapshot = [([75], ⟨.value [118], 2⟩)] := rfl
  have depth : respelledMerged.maps.foldl (fun n st => n + st.pendingArrivals) 0 = 0 := rfl
  have below : respelledPut.backing = ⟨0⟩ := rfl
  have refused : ∃ s'', (⟨0⟩ : MapHandle).write 0 [75] (.value [118]) respelledMerged =
      .error (.error (.invalidKey "small" "capital letter")) s'' ∧
      (⟨1⟩ : MapHandle).pending s'' = .ok (1, 2) s'' := by
    rw [MapHandle.write_faulty (f := respelledBehind) rfl rfl]
    exact ⟨_, rfl, rfl⟩
  obtain ⟨s'', refused, pending⟩ := refused
  refine ⟨s'', ?_, pending⟩
  rw [respelledMerged_arriving.run_merge, copied]
  simp only [List.foldlM_cons, List.foldlM_nil, MapHandle.mergeSlot, Action.run_pendingArrivals,
    Action.run_bind, Action.run_attempt, depth, below, refused]
  rfl

end Store

end MapStore
