/-
MapStore.Proofs.Sequencing — a slot's number tells whether it is still the one
that was copied.

A merge copies the slots of a buffer, lets go of it, and later drops each copied
slot if it still has the number of the copy. In between the slot may have been
rewritten, with the same bytes even, or dropped and written again, under a key
that is equal but spelled differently. `eraseUnchanged` must not take any of
those for the slot it copied.

What a buffer can be asked to change is a `BufferCall`, and one lemma says all
that a call can do (`BufferCall.effect`): nothing, a new slot for a key, or one
slot less. Numbers are given in ascending order, so that a number which is no
longer a key's own is never its own again (`Outdated`). The copied slot is
either still there or outdated, whatever the calls since (`Fate.run`).
-/
import MapStore.Proofs.Overlay

namespace MapStore

/-! ## Calls -/

/-- What is asked of a buffer, besides reading it. -/
inductive BufferCall where
  | insert (key : Bytes) (change : Change)
  /-- The write that answers what a reader found before; `behind` is what lies
  behind the buffer. -/
  | resolve (key : Bytes) (change : Change) (behind : Bytes → Except Fault (Option Bytes))
  | eraseUnchanged (key : Bytes) (seq : Nat)

/-- How a call that did not fail is answered. -/
inductive BufferAnswer where
  | replaced (old : Option Change)
  | previous (value : Option Bytes)
  | dropped (was : Bool)

/-- Without a slot there is nothing to drop. -/
theorem WriteBuffer.eraseUnchanged_of_none (b : WriteBuffer) {key : Bytes} (seq : Nat)
    (absent : b.slots.get? key = none) : b.eraseUnchanged key seq = (false, b) := by
  simp [eraseUnchanged, SortedTable.eraseIf, absent]

namespace BufferCall

/-- Makes the call of a buffer that is kept in place. -/
def run : BufferCall → EStateM Fault WriteBuffer BufferAnswer
  | .insert key change => do
    let (old, buffer) := (← get).insert key change
    set buffer
    return .replaced old
  | .resolve key change behind => do
    let (value, buffer) ← (← get).resolve key change fun key => MonadExcept.ofExcept (behind key)
    set buffer
    return .previous value
  | .eraseUnchanged key seq => do
    let (was, buffer) := (← get).eraseUnchanged key seq
    set buffer
    return .dropped was

/-- The buffer after the call. -/
def after (b : WriteBuffer) (call : BufferCall) : WriteBuffer :=
  match call.run b with
  | .ok _ b' => b'
  | .error _ b' => b'

/-- The buffer after all the calls. -/
def runAll (b : WriteBuffer) (calls : List BufferCall) : WriteBuffer := calls.foldl after b

/-- The call is a write, of `key` or an equal key, and succeeds. -/
def Writes (b : WriteBuffer) (key : Bytes) (call : BufferCall) : Prop :=
  match call with
  | .insert other _ | .resolve other _ _ =>
    b.slots.order other key = .eq ∧ ∃ answer b', call.run b = .ok answer b'
  | .eraseUnchanged .. => False

/-- The call takes the slot of `key`, or of an equal key, out of the buffer. -/
def Drops (b : WriteBuffer) (key : Bytes) (call : BufferCall) : Prop :=
  match call with
  | .insert .. | .resolve .. => False
  | .eraseUnchanged other _ =>
    b.slots.order other key = .eq ∧ ∃ b', call.run b = .ok (.dropped true) b'

/-- After the call a slot that `key` had is no longer there. -/
def Supersedes (b : WriteBuffer) (key : Bytes) (call : BufferCall) : Prop :=
  call.Writes b key ∨ call.Drops b key

variable {b b' start : WriteBuffer} {key other : Bytes} {change : Change} {slot : Slot}
  {call : BufferCall} {behind : Bytes → Except Fault (Option Bytes)}

/-! ## One call -/

section

variable {α β : Type}

theorem run_bind (a : EStateM Fault WriteBuffer α) (f : α → EStateM Fault WriteBuffer β)
    (b : WriteBuffer) : (a >>= f) b = match a b with
      | .ok r b' => f r b'
      | .error fault b' => .error fault b' := by
  show EStateM.bind a f b = _
  unfold EStateM.bind
  cases a b <;> rfl

theorem run_pure (r : α) (b : WriteBuffer) :
    (pure r : EStateM Fault WriteBuffer α) b = .ok r b := rfl

theorem run_get (b : WriteBuffer) :
    (get : EStateM Fault WriteBuffer WriteBuffer) b = .ok b b := rfl

theorem run_set (b b' : WriteBuffer) :
    (set b' : EStateM Fault WriteBuffer PUnit) b = .ok ⟨⟩ b' := rfl

end

@[simp] theorem run_insert (b : WriteBuffer) (key : Bytes) (change : Change) :
    (insert key change).run b = .ok (.replaced (b.get? key)) (b.insert key change).2 := rfl

@[simp] theorem run_eraseUnchanged (b : WriteBuffer) (key : Bytes) (seq : Nat) :
    (eraseUnchanged key seq).run b =
      .ok (.dropped (b.eraseUnchanged key seq).1) (b.eraseUnchanged key seq).2 := rfl

/-- Over a slot nothing is asked. -/
theorem run_resolve_of_some {old : Change} (found : b.get? key = some old) :
    (resolve key change behind).run b =
      .ok (.previous old.toOption) (b.insert key change).2 := by
  unfold run
  simp only [run_bind, run_get, WriteBuffer.resolve, found, run_pure, run_set,
    WriteBuffer.insert_answer]
  rfl

/-- With no slot for the key, what lies behind decides whether there is a
write. -/
theorem run_resolve_of_none (none : b.get? key = none) :
    (resolve key change behind).run b =
      match behind key with
      | .ok value => .ok (.previous value) (b.insert key change).2
      | .error fault => .error fault b := by
  unfold run
  simp only [run_bind, run_get, WriteBuffer.resolve, none, WriteBuffer.insert_answer]
  cases behind key <;> rfl

/-- A call that fails asked what lies behind, for a key without a slot, and
left the buffer as it was. -/
theorem of_run_error {fault : Fault} (failed : call.run b = .error fault b') :
    b' = b ∧ ∃ key change behind, call = .resolve key change behind ∧ b.get? key = none ∧
      behind key = .error fault := by
  cases call with
  | insert key change => cases failed
  | eraseUnchanged key seq => cases failed
  | resolve key change behind =>
    cases found : b.get? key with
    | some old =>
      rw [run_resolve_of_some found] at failed
      cases failed
    | none =>
      rw [run_resolve_of_none found] at failed
      cases answer : behind key with
      | ok value =>
        rw [answer] at failed
        cases failed
      | error cause =>
        rw [answer] at failed
        cases failed
        exact ⟨rfl, key, change, behind, rfl, found, answer⟩

/-- All that a call can do to a buffer. -/
inductive Effect (b : WriteBuffer) (call : BufferCall) : WriteBuffer → Prop
  | nothing (none : ∀ key, ¬ call.Supersedes b key) : Effect b call b
  | written (key : Bytes) (change : Change)
      (whose : ∀ other, call.Supersedes b other ↔ b.slots.order key other = .eq) :
      Effect b call (b.insert key change).2
  | dropped (key : Bytes) (slot : Slot) (found : b.slots.get? key = some slot)
      (whose : ∀ other, call.Supersedes b other ↔ b.slots.order key other = .eq) :
      Effect b call (b.eraseUnchanged key slot.seq).2

/-- A call that writes. -/
theorem effect_of_writes {answer : BufferAnswer} {b' : WriteBuffer}
    (ran : call.run b = .ok answer b') (made : b' = (b.insert key change).2)
    (is : call = .insert key change ∨ ∃ behind, call = .resolve key change behind) :
    Effect b call (call.after b) := by
  have after : call.after b = (b.insert key change).2 := by
    simp [BufferCall.after, ran, made]
  rw [after]
  refine .written key change ?_
  intro other
  obtain rfl | ⟨behind, rfl⟩ := is
  · simp [Supersedes, Writes, Drops]
  · simp [Supersedes, Writes, Drops, ran]

theorem effect (b : WriteBuffer) (call : BufferCall) : Effect b call (call.after b) := by
  cases call with
  | insert key change => exact effect_of_writes (run_insert b key change) rfl (.inl rfl)
  | resolve key change behind =>
    cases found : b.get? key with
    | some old =>
      exact effect_of_writes (run_resolve_of_some found) rfl (.inr ⟨behind, rfl⟩)
    | none =>
      have ran := @run_resolve_of_none b key change behind found
      cases answer : behind key with
      | ok value =>
        rw [answer] at ran
        exact effect_of_writes ran rfl (.inr ⟨behind, rfl⟩)
      | error fault =>
        rw [answer] at ran
        have after : (resolve key change behind).after b = b := by
          simp [BufferCall.after, ran]
        rw [after]
        refine .nothing ?_
        intro other
        simp [Supersedes, Writes, Drops, ran]
  | eraseUnchanged key seq =>
    have after : (eraseUnchanged key seq).after b = (b.eraseUnchanged key seq).2 := rfl
    have kept (same : b.eraseUnchanged key seq = (false, b)) :
        Effect b (.eraseUnchanged key seq) ((eraseUnchanged key seq).after b) := by
      rw [after, same]
      refine .nothing ?_
      intro other
      simp [Supersedes, Writes, Drops, same]
    cases found : b.slots.get? key with
    | none => exact kept (b.eraseUnchanged_of_none seq found)
    | some slot =>
      by_cases same : slot.seq = seq
      · subst same
        rw [after]
        refine .dropped key slot found ?_
        intro other
        simp [Supersedes, Writes, Drops, (b.eraseUnchanged_of_eq found).1]
      · exact kept (b.eraseUnchanged_of_ne found same)

end BufferCall

/-! ## Numbers of slots -/

namespace WriteBuffer

variable {b : WriteBuffer} {key other : Bytes} {change : Change} {slot : Slot} {seq : Nat}

instance [h : Std.TransCmp b.slots.order] :
    Std.TransCmp (b.insert key change).2.slots.order := h

/-- No slot has a number that is still to be given, and no two slots have the
same one. -/
structure Numbered (b : WriteBuffer) : Prop where
  sound : b.Sound
  distinct : ∀ key other slot slot', b.slots.get? key = some slot →
    b.slots.get? other = some slot' → slot.seq = slot'.seq → b.slots.order key other = .eq

/-- The number was given to a slot of `key` that is no longer there. -/
structure Outdated (b : WriteBuffer) (key : Bytes) (seq : Nat) : Prop where
  given : seq ≤ b.lastSeq
  gone : ∀ slot, b.slots.get? key = some slot → slot.seq ≠ seq

/-- A slot that is found after one was dropped was there before, under another
key. -/
theorem of_slot_drop [Std.TransCmp b.slots.order] (found : b.slots.get? key = some slot)
    {slot' : Slot}
    (later : (b.eraseUnchanged key slot.seq).2.slots.get? other = some slot') :
    b.slots.order key other ≠ .eq ∧ b.slots.get? other = some slot' := by
  rw [(b.eraseUnchanged_of_eq found).2, SortedTable.get?_erase] at later
  split at later
  · cases later
  · exact ⟨‹_›, later⟩

namespace Numbered

theorem empty (order : Bytes → Bytes → Ordering) [Std.TransCmp order] :
    (WriteBuffer.empty order).Numbered where
  sound := sound_empty order
  distinct key _ _ _ found := by
    simp [WriteBuffer.empty] at found

theorem insert [Std.TransCmp b.slots.order] (h : b.Numbered) (key : Bytes) (change : Change) :
    (b.insert key change).2.Numbered where
  sound := sound_insert b h.sound key change
  distinct first second slot slot' found found' same := by
    rw [slot_insert] at found found'
    have low := h.sound first slot
    have low' := h.sound second slot'
    -- only a slot of the key that was written has the new number
    split at found
    · rename_i is
      split at found'
      · rename_i is'
        exact Std.TransCmp.eq_trans (Std.OrientedCmp.eq_symm is) is'
      · cases found
        have := low' found'
        simp only at same
        omega
    · split at found'
      · cases found'
        have := low found
        simp only at same
        omega
      · exact h.distinct first second slot slot' found found' same

theorem drop [Std.TransCmp b.slots.order] (h : b.Numbered)
    (found : b.slots.get? key = some slot) :
    (b.eraseUnchanged key slot.seq).2.Numbered where
  sound := sound_eraseUnchanged b h.sound key slot.seq
  distinct first second old old' had had' same := by
    rw [order_slots_eraseUnchanged]
    exact h.distinct first second old old' (of_slot_drop found had).2
      (of_slot_drop found had').2 same

/-- The listed numbers are all different. -/
theorem nodup [Std.TransCmp b.slots.order] (h : b.Numbered) :
    (b.snapshot.map (·.2.seq)).Nodup := by
  rw [List.Nodup, List.pairwise_map]
  refine (SortedTable.pairwise_toList b.slots).imp_of_mem ?_
  intro first second mem mem' less same
  have eq := h.distinct first.1 second.1 first.2 second.2
    ((SortedTable.mem_toList _).1 mem).2 ((SortedTable.mem_toList _).1 mem').2 same
  rw [eq] at less
  cases less

end Numbered

namespace Outdated

theorem insert [Std.TransCmp b.slots.order] (h : b.Outdated key seq) (other : Bytes)
    (change : Change) : (b.insert other change).2.Outdated key seq where
  given := Nat.le_succ_of_le h.given
  gone slot found := by
    rw [slot_insert] at found
    split at found
    · cases found
      have := h.given
      simp only
      omega
    · exact h.gone slot found

theorem drop [Std.TransCmp b.slots.order] (h : b.Outdated key seq)
    (found : b.slots.get? other = some slot) :
    (b.eraseUnchanged other slot.seq).2.Outdated key seq where
  given := by
    rw [lastSeq_eraseUnchanged]
    exact h.given
  gone slot' later := h.gone slot' (of_slot_drop found later).2

/-- An outdated number drops nothing. -/
theorem keeps (h : b.Outdated key seq) : b.eraseUnchanged key seq = (false, b) := by
  cases found : b.slots.get? key with
  | none => exact b.eraseUnchanged_of_none seq found
  | some slot => exact b.eraseUnchanged_of_ne found (h.gone slot found)

end Outdated

/-- A rewritten slot's number is outdated. -/
theorem outdated_insert [Std.TransCmp b.slots.order] (sound : b.Sound)
    (found : b.slots.get? key = some slot) (same : b.slots.order other key = .eq)
    (change : Change) : (b.insert other change).2.Outdated key slot.seq where
  given := Nat.le_succ_of_le (sound key slot found)
  gone slot' later := by
    rw [slot_insert, if_pos same] at later
    cases later
    have := sound key slot found
    simp only
    omega

/-- A dropped slot's number is outdated. -/
theorem outdated_drop [Std.TransCmp b.slots.order] (sound : b.Sound)
    (found : b.slots.get? key = some slot) {dropped : Slot}
    (there : b.slots.get? other = some dropped) (same : b.slots.order other key = .eq) :
    (b.eraseUnchanged other dropped.seq).2.Outdated key slot.seq where
  given := by
    rw [lastSeq_eraseUnchanged]
    exact sound key slot found
  gone slot' later := absurd same (of_slot_drop there later).1

/-- A slot that is still the one that was copied is dropped, and no other. -/
theorem drops_listed [Std.TransCmp b.slots.order] (mem : (key, slot) ∈ b.snapshot) :
    (b.eraseUnchanged key slot.seq).1 = true ∧ ∃ first rest,
      b.snapshot = first ++ (key, slot) :: rest ∧
      (b.eraseUnchanged key slot.seq).2.snapshot = first ++ rest := by
  have drop := b.eraseUnchanged_of_eq ((SortedTable.mem_toList _).1 mem).2
  obtain ⟨first, rest, split⟩ := List.append_of_mem mem
  refine ⟨drop.1, first, rest, split, ?_⟩
  rw [snapshot, drop.2]
  exact SortedTable.toList_erase_of_eq b.slots split

/-- Writing one key leaves the listed slots of the others. -/
theorem mem_snapshot_insert [Std.TransCmp b.slots.order] (mem : (key, slot) ∈ b.snapshot)
    (ne : b.slots.order other key ≠ .eq) (change : Change) :
    (key, slot) ∈ (b.insert other change).2.snapshot := by
  obtain ⟨spelled, found⟩ := (SortedTable.mem_toList _).1 mem
  have spelled' : (b.insert other change).2.slots.key? key = some key := by
    have := b.slots.key?_insert other key ⟨change, b.lastSeq + 1⟩
    rw [if_neg ne, spelled] at this
    exact this
  refine (SortedTable.mem_toList _).2 ⟨spelled', ?_⟩
  rw [slot_insert, if_neg ne, found]

/-- Dropping a slot leaves the listed slots of other keys. -/
theorem mem_snapshot_drop [Std.TransCmp b.slots.order] (mem : (key, slot) ∈ b.snapshot)
    {dropped : Slot} (there : b.slots.get? other = some dropped)
    (ne : b.slots.order other key ≠ .eq) :
    (key, slot) ∈ (b.eraseUnchanged other dropped.seq).2.snapshot := by
  obtain ⟨spelled, found⟩ := (SortedTable.mem_toList _).1 mem
  rw [snapshot, (b.eraseUnchanged_of_eq there).2]
  refine (SortedTable.mem_toList _).2 ⟨?_, ?_⟩
  · rw [SortedTable.key?_erase, if_neg ne, spelled]
  · rw [SortedTable.get?_erase, if_neg ne, found]

end WriteBuffer

/-! ## Series of calls -/

namespace BufferCall

open WriteBuffer

variable {b start : WriteBuffer} {key : Bytes} {slot : Slot} {seq : Nat} {call : BufferCall}
  {calls : List BufferCall}

theorem runAll_cons (b : WriteBuffer) (call : BufferCall) (rest : List BufferCall) :
    runAll b (call :: rest) = runAll (call.after b) rest := rfl

theorem runAll_append (b : WriteBuffer) (before more : List BufferCall) :
    runAll b (before ++ more) = runAll (runAll b before) more :=
  List.foldl_append

theorem order_after (b : WriteBuffer) (call : BufferCall) :
    (call.after b).slots.order = b.slots.order := by
  have step := call.effect b
  generalize call.after b = later at step
  cases step with
  | nothing none => rfl
  | written key change whose => rfl
  | dropped key slot found whose => exact order_slots_eraseUnchanged b key slot.seq

instance [h : Std.TransCmp b.slots.order] : Std.TransCmp (call.after b).slots.order :=
  (order_after b call).symm ▸ h

/-- Numbers stay in order, whatever is called. -/
theorem numbered_after [Std.TransCmp b.slots.order] (h : b.Numbered) (call : BufferCall) :
    (call.after b).Numbered := by
  have step := call.effect b
  generalize call.after b = later at step
  cases step with
  | nothing none => exact h
  | written key change whose => exact h.insert key change
  | dropped key slot found whose => exact h.drop found

/-- Numbers go up by at most one a call. -/
theorem lastSeq_after (b : WriteBuffer) (call : BufferCall) :
    (call.after b).lastSeq ≤ b.lastSeq + 1 := by
  have step := call.effect b
  generalize call.after b = later at step
  cases step with
  | nothing none => exact Nat.le_succ _
  | written key change whose => exact Nat.le_refl _
  | dropped key slot found whose =>
    rw [lastSeq_eraseUnchanged]
    exact Nat.le_succ _

/-- What is outdated stays so. -/
theorem outdated_after [Std.TransCmp b.slots.order] (h : b.Outdated key seq)
    (call : BufferCall) : (call.after b).Outdated key seq := by
  have step := call.effect b
  generalize call.after b = later at step
  cases step with
  | nothing none => exact h
  | written other change whose => exact h.insert other change
  | dropped other slot found whose => exact h.drop found

/-- A call leaves a listed slot in the list if it does not supersede it. -/
theorem mem_after [Std.TransCmp b.slots.order] (mem : (key, slot) ∈ b.snapshot)
    (spares : ¬ call.Supersedes b key) : (key, slot) ∈ (call.after b).snapshot := by
  have step := call.effect b
  generalize call.after b = later at step
  cases step with
  | nothing none => exact mem
  | written other change whose => exact mem_snapshot_insert mem (mt (whose key).2 spares) change
  | dropped other dropped there whose =>
    exact mem_snapshot_drop mem there (mt (whose key).2 spares)

/-- A call that supersedes a slot makes its number outdated. -/
theorem outdated_of_supersedes [Std.TransCmp b.slots.order] (sound : b.Sound)
    (mem : (key, slot) ∈ b.snapshot) (superseded : call.Supersedes b key) :
    (call.after b).Outdated key slot.seq := by
  have found := ((SortedTable.mem_toList _).1 mem).2
  have step := call.effect b
  generalize call.after b = later at step
  cases step with
  | nothing none => exact absurd superseded (none key)
  | written other change whose =>
    exact outdated_insert sound found ((whose key).1 superseded) change
  | dropped other dropped there whose =>
    exact outdated_drop sound found there ((whose key).1 superseded)

/-- One of the calls, in its turn, supersedes the slot of `key`. -/
def SupersededBy (b : WriteBuffer) (key : Bytes) (calls : List BufferCall) : Prop :=
  ∃ first call rest, calls = first ++ call :: rest ∧ call.Supersedes (runAll b first) key

theorem supersededBy_cons (b : WriteBuffer) (key : Bytes) (call : BufferCall)
    (rest : List BufferCall) :
    SupersededBy b key (call :: rest) ↔
      call.Supersedes b key ∨ SupersededBy (call.after b) key rest := by
  constructor
  · rintro ⟨first, one, others, split, superseded⟩
    cases first with
    | nil =>
      cases split
      exact .inl superseded
    | cons _ first =>
      cases split
      exact .inr ⟨first, one, others, rfl, superseded⟩
  · rintro (now | ⟨first, one, others, rfl, superseded⟩)
    · exact ⟨[], call, rest, rfl, now⟩
    · exact ⟨call :: first, one, others, rfl, superseded⟩

/-- What has come of a copied slot. -/
inductive Fate (key : Bytes) (slot : Slot) (superseded : Prop) (b : WriteBuffer) : Prop
  | there (spared : ¬ superseded) (mem : (key, slot) ∈ b.snapshot)
  | outdated (superseded : superseded) (outdated : b.Outdated key slot.seq)

theorem outdated_runAll [Std.TransCmp b.slots.order] (h : b.Outdated key seq)
    (calls : List BufferCall) : (runAll b calls).Outdated key seq := by
  induction calls generalizing b with
  | nil => exact h
  | cons call rest ih => exact ih (outdated_after h call)

/-- After any calls a listed slot is there as it was, or its number is
outdated. -/
theorem Fate.run [Std.TransCmp b.slots.order] (numbered : b.Numbered)
    (mem : (key, slot) ∈ b.snapshot) (calls : List BufferCall) :
    Fate key slot (SupersededBy b key calls) (runAll b calls) := by
  induction calls generalizing b with
  | nil =>
    refine .there ?_ mem
    rintro ⟨first, call, rest, split, -⟩
    simp at split
  | cons call rest ih =>
    rw [supersededBy_cons, runAll_cons]
    by_cases now : call.Supersedes b key
    · have outdated := outdated_of_supersedes numbered.sound mem now
      exact .outdated (.inl now) (outdated_runAll outdated rest)
    · cases ih (numbered_after numbered call) (mem_after mem now) with
      | there spared mem => exact .there (fun either => either.elim now spared) mem
      | outdated later outdated => exact .outdated (.inr later) outdated

/-- What holds of a buffer after any calls. -/
structure Reached (order : Bytes → Bytes → Ordering) (calls : Nat) (b : WriteBuffer) : Prop where
  order : b.slots.order = order
  numbered : b.Numbered
  lastSeq : b.lastSeq ≤ calls

theorem Reached.run {order : Bytes → Bytes → Ordering} [Std.TransCmp order] {made : Nat}
    (h : Reached order made b) (calls : List BufferCall) :
    Reached order (made + calls.length) (runAll b calls) := by
  induction calls generalizing b made with
  | nil => exact h
  | cons call rest ih =>
    have lawful : Std.TransCmp b.slots.order := h.order ▸ inferInstance
    have step : Reached order (made + 1) (call.after b) :=
      ⟨(order_after b call).trans h.order, numbered_after h.numbered call,
        Nat.le_trans (lastSeq_after b call) (Nat.succ_le_succ h.lastSeq)⟩
    rw [List.length_cons, Nat.add_comm rest.length, ← Nat.add_assoc]
    exact ih step

theorem reached (order : Bytes → Bytes → Ordering) [Std.TransCmp order]
    (calls : List BufferCall) :
    Reached order calls.length (runAll (.empty order) calls) := by
  have start : Reached order 0 (.empty order) :=
    ⟨rfl, .empty order, Nat.le_refl 0⟩
  simpa using start.run calls

instance (order : Bytes → Bytes → Ordering) [Std.TransCmp order] (calls : List BufferCall) :
    Std.TransCmp (runAll (.empty order) calls).slots.order := by
  rw [(reached order calls).order]
  infer_instance

/-- **A dropped slot is the one that was copied.** Take any order of keys that is
transitive and consistent, and any calls of a new buffer. In the buffer they
lead to

* all slots have different numbers, none above the last number given, which is
  at most the number of calls;
* a call fails just if it asks what lies behind, the key being without a slot,
  and is refused there; and then it leaves the buffer as it was.

Copy any slot of it, and make any further calls. Dropping the slot by the
number of the copy

* succeeds just if no call since has written the key, or an equal key, and none
  has taken the slot out;
* if it succeeds, takes out the slot that was copied, as it was copied, and
  leaves all others and the last number;
* if it does not, leaves the buffer as it was. -/
theorem drops_the_copied_slot (order : Bytes → Bytes → Ordering) [Std.TransCmp order]
    (before : List BufferCall) :
    let b := runAll (.empty order) before
    (b.snapshot.map (·.2.seq)).Nodup ∧ (∀ entry ∈ b.snapshot, entry.2.seq ≤ b.lastSeq) ∧
    b.lastSeq ≤ before.length ∧
    (∀ (call : BufferCall) fault b', call.run b = .error fault b' ↔
      b' = b ∧ ∃ key change behind, call = .resolve key change behind ∧ b.get? key = none ∧
        behind key = .error fault) ∧
    ∀ key slot more, (key, slot) ∈ b.snapshot →
      let now := runAll (.empty order) (before ++ more)
      let dropped := now.eraseUnchanged key slot.seq
      (dropped.1 = true ↔ ∀ first call rest, more = first ++ call :: rest →
        let held := runAll (.empty order) (before ++ first)
        ¬ call.Writes held key ∧ ¬ call.Drops held key) ∧
      (dropped.1 = true → dropped.2.lastSeq = now.lastSeq ∧ ∃ lower upper,
        now.snapshot = lower ++ (key, slot) :: upper ∧ dropped.2.snapshot = lower ++ upper) ∧
      (dropped.1 = false → dropped.2 = now) := by
  intro b
  have h : Reached order before.length b := reached order before
  have lawful : Std.TransCmp b.slots.order := h.order ▸ inferInstance
  refine ⟨h.numbered.nodup, ?_, h.lastSeq, ?_, ?_⟩
  · intro entry mem
    exact h.numbered.sound entry.1 entry.2 ((SortedTable.mem_toList _).1 mem).2
  · intro call fault b'
    constructor
    · exact of_run_error
    · rintro ⟨rfl, key, change, behind, rfl, none, refused⟩
      rw [run_resolve_of_none none, refused]
  · intro key slot more mem now dropped
    have spared : (∀ first call rest, more = first ++ call :: rest →
        let held := runAll (.empty order) (before ++ first)
        ¬ call.Writes held key ∧ ¬ call.Drops held key) ↔ ¬ SupersededBy b key more := by
      simp only [SupersededBy, Supersedes, runAll_append, not_exists, not_and, not_or]
      rfl
    have after : now = runAll b more := runAll_append ..
    have lawful' : Std.TransCmp now.slots.order :=
      (reached order (before ++ more)).order ▸ inferInstance
    have fate := Fate.run h.numbered mem more
    rw [← after] at fate
    rw [spared]
    cases fate with
    | there spared mem =>
      obtain ⟨drops, lower, upper, split, rest⟩ := drops_listed mem
      refine ⟨iff_of_true drops spared, ?_, ?_⟩
      · intro _
        exact ⟨lastSeq_eraseUnchanged now key slot.seq, lower, upper, split, rest⟩
      · intro kept
        rw [drops] at kept
        cases kept
    | outdated superseded outdated =>
      have kept : dropped = (false, now) := outdated.keeps
      refine ⟨iff_of_false ?_ (not_not_intro superseded), ?_, ?_⟩
      · simp [kept]
      · intro drops
        simp [kept] at drops
      · intro _
        rw [kept]

/-- Keys of the same length are equal. -/
abbrev byLength : Bytes → Bytes → Ordering := compareOn List.length

/-- Two keys are written. -/
def copiedCalls : List BufferCall := [.insert [1] (.value [9]), .insert [2, 2] (.value [9])]

/-- The first key's slot is dropped under another spelling and written again as
it was. What lies behind refuses the write of a third key, and the second key's
slot is asked for by a number that is not its own. -/
def laterCalls : List BufferCall :=
  [.eraseUnchanged [7] 1, .insert [1] (.value [9]),
    .resolve [3, 3, 3] .tombstone fun _ => .error (.panic none), .eraseUnchanged [2, 2] 1]

/-- The slot that was written again stays, the other one goes. -/
theorem rewritten_slot_stays :
    (([1], ⟨.value [9], 1⟩) ∈ (runAll (.empty byLength) copiedCalls).snapshot ∧
      ¬ ∀ first call rest, laterCalls = first ++ call :: rest →
        let held := runAll (.empty byLength) (copiedCalls ++ first)
        ¬ call.Writes held [1] ∧ ¬ call.Drops held [1]) ∧
    (([2, 2], ⟨.value [9], 2⟩) ∈ (runAll (.empty byLength) copiedCalls).snapshot ∧
      ∀ first call rest, laterCalls = first ++ call :: rest →
        let held := runAll (.empty byLength) (copiedCalls ++ first)
        ¬ call.Writes held [2, 2] ∧ ¬ call.Drops held [2, 2]) := by
  have all := (drops_the_copied_slot byLength copiedCalls).2.2.2.2
  have mem : ([1], ⟨.value [9], 1⟩) ∈ (runAll (.empty byLength) copiedCalls).snapshot := by
    decide +kernel
  have mem' : ([2, 2], ⟨.value [9], 2⟩) ∈ (runAll (.empty byLength) copiedCalls).snapshot := by
    decide +kernel
  refine ⟨⟨mem, ?_⟩, mem', ?_⟩
  · intro spared
    exact absurd ((all [1] _ laterCalls mem).1.2 spared) (by decide +kernel)
  · exact (all [2, 2] _ laterCalls mem').1.1 (by decide +kernel)

end BufferCall

end MapStore
