/-
MapStore.Proofs.Weighing — the byte count of a buffer is exact.

A buffer does not add up its slots when it is asked for their bytes. It keeps a
count, to which each write adds and from which it takes the change that it replaces;
a slot that is dropped is taken off with the key that was passed in. Keys that are
equal may be of different length, so this is right only if the key passed in is
spelled as the one in the slot.

A merge passes in what it copied (`ByCopies`). A slot that still has the number of
the copy is the one that was copied, spelling included, and any other is left alone
(`BufferCall.Fate`). So the count is that of the slots, and no more is ever taken
off than is there (`BufferCall.size_is_exact`).
-/
import Mathlib.Algebra.GroupWithZero.Nat
import Mathlib.Data.List.Induction
import MapStore.Proofs.Sequencing

namespace MapStore

/-! ## What a call does to the count -/

namespace WriteBuffer

/-- The bytes of the change that is buffered for the key. -/
def replaced (b : WriteBuffer) (key : Bytes) : Nat := (b.get? key).elim 0 Change.size

/-- The bytes that a write of the key brings: those of the change, and of the key if
it has no slot yet. -/
def brought (b : WriteBuffer) (key : Bytes) (change : Change) : Nat :=
  match b.get? key with
  | some _ => change.size
  | none => key.length + change.size

theorem size_insert (b : WriteBuffer) (key : Bytes) (change : Change) :
    (b.insert key change).2.size = b.size - b.replaced key + b.brought key change := by
  unfold insert replaced brought get? SortedTable.insert
  cases b.slots.get? key <;> rfl

theorem size_eraseUnchanged (b : WriteBuffer) (key : Bytes) (seq : Nat) :
    (b.eraseUnchanged key seq).2.size =
      b.size - if (b.eraseUnchanged key seq).1 then key.length + b.replaced key else 0 := by
  cases found : b.slots.get? key with
  | none => simp [b.eraseUnchanged_of_none seq found]
  | some slot =>
    by_cases same : slot.seq = seq
    · subst same
      simp [eraseUnchanged, SortedTable.eraseIf, SortedTable.erase, replaced, get?, found]
    · simp [b.eraseUnchanged_of_ne found same]

end WriteBuffer

namespace BufferCall

/-- The bytes that the call takes off the count. -/
def taken (b : WriteBuffer) : BufferCall → Nat
  | insert key _ | resolve key _ _ => b.replaced key
  | eraseUnchanged key seq =>
    if (b.eraseUnchanged key seq).1 then key.length + b.replaced key else 0

/-- The bytes that the call adds to the count afterwards. -/
def added (b : WriteBuffer) : BufferCall → Nat
  | insert key change => b.brought key change
  | resolve key change behind =>
    match b.get? key, behind key with
    | none, .error _ => 0
    | _, _ => b.brought key change
  | eraseUnchanged _ _ => 0

/-- A write that asks what lies behind is a plain one, or nothing if it is refused
there. -/
theorem after_resolve (b : WriteBuffer) (key : Bytes) (change : Change)
    (behind : Bytes → Except Fault (Option Bytes)) :
    (resolve key change behind).after b =
      match b.get? key, behind key with
      | none, .error _ => b
      | _, _ => (b.insert key change).2 := by
  cases found : b.get? key with
  | some old => rw [after, run_resolve_of_some found]
  | none =>
    rw [after, run_resolve_of_none found]
    cases behind key <;> rfl

/-- How a call counts. -/
theorem size_after (b : WriteBuffer) (call : BufferCall) :
    (call.after b).size = b.size - call.taken b + call.added b := by
  cases call with
  | insert key change => exact b.size_insert key change
  | eraseUnchanged key seq => exact b.size_eraseUnchanged key seq
  | resolve key change behind =>
    rw [after_resolve, taken, added]
    split
    · rename_i none refused
      simp [WriteBuffer.replaced, none]
    · exact b.size_insert key change

end BufferCall

/-! ## What the slots weigh -/

namespace WriteBuffer

variable {b : WriteBuffer} {key : Bytes} {slot : Slot}

/-- The bytes of the keys and values of slots. -/
def weight (slots : List (Bytes × Slot)) : Nat :=
  (slots.map fun slot => slot.1.length + slot.2.change.size).sum

@[simp] theorem weight_nil : weight [] = 0 := rfl

@[simp] theorem weight_cons (first : Bytes × Slot) (rest : List (Bytes × Slot)) :
    weight (first :: rest) = first.1.length + first.2.change.size + weight rest := by
  simp [weight]

@[simp] theorem weight_append (lower upper : List (Bytes × Slot)) :
    weight (lower ++ upper) = weight lower + weight upper := by
  simp [weight]

theorem weight_perm {slots slots' : List (Bytes × Slot)} (perm : slots.Perm slots') :
    weight slots = weight slots' :=
  (perm.map _).sum_nat

/-- The count is that of the slots. -/
def Weighed (b : WriteBuffer) : Prop := b.size = weight b.snapshot

theorem weighed_empty (order : Bytes → Bytes → Ordering) : (empty order).Weighed := rfl

/-- A change that is replaced has been counted. -/
theorem replaced_le [Std.TransCmp b.slots.order] (h : b.Weighed) (key : Bytes) :
    b.replaced key ≤ b.size := by
  rw [replaced, get?]
  cases found : b.slots.get? key with
  | none => exact Nat.zero_le _
  | some slot =>
    have parts := weight_perm (b.slots.toList_perm_erase found)
    rw [weight_cons] at parts
    show slot.change.size ≤ b.size
    rw [h, snapshot, parts]
    exact Nat.le_trans (Nat.le_add_left ..) (Nat.le_add_right ..)

/-- A write counts the key as it is spelled in the slot. -/
theorem Weighed.insert [Std.TransCmp b.slots.order] (h : b.Weighed) (key : Bytes)
    (change : Change) : (b.insert key change).2.Weighed := by
  have after : weight (b.insert key change).2.snapshot =
      (b.slots.keptKey key).length + change.size + weight (b.slots.erase key).2.toList := by
    have := weight_perm (b.slots.toList_insert_perm key ⟨change, b.lastSeq + 1⟩)
    rwa [weight_cons] at this
  rw [Weighed, after, size_insert, h, snapshot, replaced, brought, get?]
  cases found : b.slots.get? key with
  | none =>
    rw [b.slots.keptKey_of_none found, (b.slots.same_erase_of_none found).toList]
    simp only [Option.map_none, Option.elim_none]
    omega
  | some slot =>
    have before := weight_perm (b.slots.toList_perm_erase found)
    rw [weight_cons] at before
    simp only [Option.map_some, Option.elim_some, before]
    omega

/-- A slot that is dropped by the key that it has takes its own bytes off. -/
theorem Weighed.drop [Std.TransCmp b.slots.order] (h : b.Weighed)
    (mem : (key, slot) ∈ b.snapshot) :
    (b.eraseUnchanged key slot.seq).2.Weighed ∧ key.length + b.replaced key ≤ b.size := by
  obtain ⟨drops, lower, upper, split, rest⟩ := drops_listed mem
  have found := ((SortedTable.mem_toList _).1 mem).2
  have own : b.replaced key = slot.change.size := by simp [replaced, get?, found]
  have size : b.size = weight lower + (key.length + slot.change.size + weight upper) := by
    rw [h, split, weight_append, weight_cons]
  constructor
  · rw [Weighed, size_eraseUnchanged, drops, if_pos rfl, own, rest, weight_append, size]
    omega
  · rw [own, size]
    omega

end WriteBuffer

/-! ## Calls of a merge -/

namespace BufferCall

open WriteBuffer

variable {order : Bytes → Bytes → Ordering} {b : WriteBuffer} {key : Bytes} {seq : Nat}
  {call : BufferCall} {calls more : List BufferCall}

/-- The key and the number are those of a slot that was listed at some time in the
calls, or before or after them. -/
def Copied (order : Bytes → Bytes → Ordering) (calls : List BufferCall) (key : Bytes)
    (seq : Nat) : Prop :=
  ∃ earlier later slot, calls = earlier ++ later ∧
    (key, slot) ∈ (runAll (.empty order) earlier).snapshot ∧ slot.seq = seq

/-- Slots are dropped only by keys and numbers that were copied before. -/
def ByCopies (order : Bytes → Bytes → Ordering) (calls : List BufferCall) : Prop :=
  ∀ first key seq rest, calls = first ++ .eraseUnchanged key seq :: rest →
    Copied order first key seq

theorem ByCopies.of_append (copied : ByCopies order (calls ++ more)) : ByCopies order calls := by
  rintro first key seq rest rfl
  exact copied first key seq (rest ++ more) (by simp)

/-- What the last call drops by was copied before it. -/
theorem ByCopies.last (copied : ByCopies order (calls ++ [call])) :
    ∀ key seq, call = .eraseUnchanged key seq → Copied order calls key seq := by
  rintro key seq rfl
  exact copied calls key seq [] rfl

/-- A copied slot is still there, or its number drops nothing. -/
theorem Copied.there_or_kept [Std.TransCmp order] (copied : Copied order calls key seq) :
    (∃ slot, (key, slot) ∈ (runAll (.empty order) calls).snapshot ∧ slot.seq = seq) ∨
      (runAll (.empty order) calls).eraseUnchanged key seq =
        (false, runAll (.empty order) calls) := by
  obtain ⟨earlier, later, slot, rfl, mem, rfl⟩ := copied
  rw [runAll_append]
  cases Fate.run (reached order earlier).numbered mem later with
  | there spared mem => exact .inl ⟨slot, mem, rfl⟩
  | outdated superseded outdated => exact .inr outdated.keeps

/-- A write keeps the count exact, and so does a drop by a copy. No more is taken
off than has been counted. -/
theorem weighed_after [Std.TransCmp b.slots.order] (h : b.Weighed) (call : BufferCall)
    (copied : ∀ key seq, call = .eraseUnchanged key seq →
      (∃ slot, (key, slot) ∈ b.snapshot ∧ slot.seq = seq) ∨
        b.eraseUnchanged key seq = (false, b)) :
    (call.after b).Weighed ∧ call.taken b ≤ b.size := by
  cases call with
  | insert key change => exact ⟨h.insert key change, replaced_le h key⟩
  | resolve key change behind =>
    rw [after_resolve]
    refine ⟨?_, replaced_le h key⟩
    split
    · exact h
    · exact h.insert key change
  | eraseUnchanged key seq =>
    show (b.eraseUnchanged key seq).2.Weighed ∧ _
    rw [taken]
    obtain ⟨slot, mem, rfl⟩ | kept := copied key seq rfl
    · obtain ⟨weighed, fits⟩ := h.drop mem
      rw [(drops_listed mem).1, if_pos rfl]
      exact ⟨weighed, fits⟩
    · rw [kept]
      exact ⟨h, Nat.zero_le _⟩

theorem weighed_runAll [Std.TransCmp order] (copied : ByCopies order calls) :
    (runAll (.empty order) calls).Weighed := by
  induction calls using List.reverseRecOn with
  | nil => exact weighed_empty order
  | append_singleton calls call ih =>
    have before := ih copied.of_append
    rw [runAll_append]
    exact (weighed_after before call fun key seq is => (copied.last key seq is).there_or_kept).1

/-- **The byte count is exact.** Take any order of keys that is transitive and
consistent, and any writes of a new buffer, among them such as are refused by what
lies behind, and slots dropped by copies that were made at any time before. In the
buffer they lead to

* the count is the bytes of the keys, as they are spelled there, and of the values
  of all slots;
* the number of slots is that of the listed ones;
* the count is 0 if there is no slot.

Each of the calls takes off at most what had been counted before it, and adds to
what is left. -/
theorem size_is_exact (order : Bytes → Bytes → Ordering) [Std.TransCmp order]
    (calls : List BufferCall) (copied : ByCopies order calls) :
    let b := runAll (.empty order) calls
    b.size = (b.snapshot.map fun slot => slot.1.length + slot.2.change.size).sum ∧
    b.count = b.snapshot.length ∧
    (b.isEmpty = true → b.size = 0) ∧
    ∀ first call rest, calls = first ++ call :: rest →
      let held := runAll (.empty order) first
      call.taken held ≤ held.size ∧
      (call.after held).size = held.size - call.taken held + call.added held := by
  intro b
  have weighed : b.Weighed := weighed_runAll copied
  refine ⟨weighed, b.slots.size_eq_length, ?_, ?_⟩
  · intro none
    have nil : b.snapshot = [] := b.slots.isEmpty_iff.1 none
    rw [weighed, nil, weight_nil]
  · rintro first call rest rfl held
    have split : first ++ call :: rest = first ++ [call] ++ rest := by simp
    rw [split] at copied
    have until_call : ByCopies order (first ++ [call]) := copied.of_append
    have step := weighed_after (weighed_runAll until_call.of_append) call
      fun key seq is => (until_call.last key seq is).there_or_kept
    exact ⟨step.2, size_after held call⟩

/-- Keys that begin with the same byte are equal. -/
abbrev byFirst : Bytes → Bytes → Ordering := compareOn (List.headD · 0)

/-- A slot is written twice, under keys of different length, and dropped by the
second copy of it and not by the first. Another key is written after what lies behind
refused that once. -/
def mergedCalls : List BufferCall :=
  [.insert [1, 1, 1] (.value [9]), .insert [1] (.value [9, 9]), .eraseUnchanged [1, 1, 1] 1,
    .resolve [2] .tombstone fun _ => .error (.panic none),
    .resolve [2] .tombstone fun _ => .ok none, .eraseUnchanged [1, 1, 1] 2]

theorem mergedCalls_byCopies : ByCopies byFirst mergedCalls := by
  have mem : ([1, 1, 1], ⟨.value [9], 1⟩) ∈
      (runAll (.empty byFirst) (mergedCalls.take 1)).snapshot := by decide +kernel
  have mem' : ([1, 1, 1], ⟨.value [9, 9], 2⟩) ∈
      (runAll (.empty byFirst) (mergedCalls.take 2)).snapshot := by decide +kernel
  intro first key seq rest split
  simp [mergedCalls, List.cons_eq_append_iff] at split
  obtain ⟨middle, rfl, ⟨rfl, ⟨rfl, rfl⟩, -⟩ | ⟨rfl, ⟨rfl, rfl⟩, -⟩⟩ := split
  · exact ⟨mergedCalls.take 1, _, _, rfl, mem, rfl⟩
  · exact ⟨mergedCalls.take 2, _, _, rfl, mem', rfl⟩

/-- Only the key of the tombstone is left. -/
theorem merged_slots_leave_one_byte :
    ByCopies byFirst mergedCalls ∧ (runAll (.empty byFirst) mergedCalls).size = 1 := by
  have exact := (size_is_exact byFirst mergedCalls mergedCalls_byCopies).1
  rw [exact]
  exact ⟨mergedCalls_byCopies, by decide +kernel⟩

end BufferCall

end MapStore
