/-
MapStore.Proofs.Overlay — a write buffer laid over a table.

What a reader finds through a buffered map is its backing with the buffered
changes made to it: `overTable`. Key by key that is the buffered change where
there is one and the backing's value otherwise (`get?_overTable`); the listing
that the map gives is the list of that table (`over_toList`).

Three facts carry everything that is said of buffered maps. Buffering a change
makes the change to the laid-over table (`get?_overTable_insert`). Making the
first buffered change to the table and dropping its slot leaves the laid-over
table as it is, to the byte (`overTable_drop`), which is why a merge can stop
anywhere. And a buffer whose slots are all numbered (`Sound`) gives every later
write a number of its own.
-/
import MapStore.Proofs.KeyOrders
import MapStore.Proofs.Table
import MapStore.Store.Reading

namespace MapStore

/-! ## Changes to a table -/

namespace PlainMap

/-- The table after the changes, made from left to right. -/
def changeAll (t : SortedTable Bytes Bytes) (changes : List (Bytes × Change)) :
    SortedTable Bytes Bytes :=
  changes.foldl (fun t c => (change t c.1 c.2).2) t

@[simp] theorem order_change (t : SortedTable Bytes Bytes) (key : Bytes) (c : Change) :
    (change t key c).2.order = t.order := by
  cases c <;> rfl

@[simp] theorem change_answer (t : SortedTable Bytes Bytes) (key : Bytes) (c : Change) :
    (change t key c).1 = t.get? key := by
  cases c <;> rfl

instance (t : SortedTable Bytes Bytes) [h : Std.TransCmp t.order] (key : Bytes) (c : Change) :
    Std.TransCmp (change t key c).2.order := by
  rw [order_change]; exact h

/-- A change is admitted under another spelling of its key. -/
theorem checkChange_congr {keyType valueType : DataType} {key other : Bytes} {c : Change}
    (coherent : keyType.Coherent) (same : keyType.compare key other = .eq)
    (admitted : checkChange keyType valueType key c = .ok ()) :
    checkChange keyType valueType other c = .ok () := by
  cases c with
  | tombstone => rfl
  | value bytes =>
    simp only [checkChange, DataType.checkKey] at admitted ⊢
    cases valid : keyType.validate key with
    | error reason =>
      rw [valid] at admitted
      cases admitted
    | ok _ =>
      rw [valid] at admitted
      rw [coherent key other same valid]
      exact admitted

/-- A changed key has what the change gives it, every other key what it had. -/
theorem get?_change (t : SortedTable Bytes Bytes) [Std.TransCmp t.order] (key other : Bytes)
    (c : Change) :
    (change t key c).2.get? other =
      if t.order key other = .eq then c.toOption else t.get? other := by
  cases c with
  | value bytes => exact SortedTable.get?_insert t key other bytes
  | tombstone => exact SortedTable.get?_erase t key other

/-- Making a change to tables with the same entries. -/
theorem same_change {t u : SortedTable Bytes Bytes} [Std.TransCmp t.order] (h : t.Same u)
    (key : Bytes) (c : Change) : (change t key c).2.Same (change u key c).2 := by
  cases c with
  | value bytes => exact SortedTable.same_insert h key bytes
  | tombstone => exact SortedTable.same_erase h key

@[simp] theorem changeAll_nil (t : SortedTable Bytes Bytes) : changeAll t [] = t := rfl

theorem changeAll_cons (t : SortedTable Bytes Bytes) (c : Bytes × Change)
    (rest : List (Bytes × Change)) :
    changeAll t (c :: rest) = changeAll (change t c.1 c.2).2 rest := rfl

theorem changeAll_append (t : SortedTable Bytes Bytes) (first rest : List (Bytes × Change)) :
    changeAll t (first ++ rest) = changeAll (changeAll t first) rest := by
  simp [changeAll]

@[simp] theorem order_changeAll (t : SortedTable Bytes Bytes) (changes : List (Bytes × Change)) :
    (changeAll t changes).order = t.order := by
  induction changes generalizing t with
  | nil => rfl
  | cons c rest ih => rw [changeAll_cons, ih, order_change]

theorem same_changeAll {t u : SortedTable Bytes Bytes} [Std.TransCmp t.order] (h : t.Same u)
    (changes : List (Bytes × Change)) : (changeAll t changes).Same (changeAll u changes) := by
  induction changes generalizing t u with
  | nil => exact h
  | cons c rest ih => exact ih (same_change h c.1 c.2)

/-- After changes a key has what the last change to it gives it, or else what
it had. -/
theorem get?_changeAll (t : SortedTable Bytes Bytes) [Std.TransCmp t.order]
    (changes : List (Bytes × Change)) (key : Bytes) :
    (changeAll t changes).get? key =
      (SortedTable.last? t.order changes key).elim (t.get? key) Change.toOption := by
  induction changes generalizing t with
  | nil => rfl
  | cons c rest ih =>
    rw [changeAll_cons, ih, order_change, get?_change, SortedTable.last?_cons]
    cases SortedTable.last? t.order rest key with
    | some later => rfl
    | none => by_cases h : t.order c.1 key = .eq <;> simp [h]

end PlainMap

/-! ## A buffer over a table -/

namespace WriteBuffer

open PlainMap (changeAll change)

/-- The buffered changes with their keys, in key order. -/
def changes (b : WriteBuffer) : List (Bytes × Change) := b.snapshot.map fun s => (s.1, s.2.change)

/-- The table with the buffered changes made to it. -/
def overTable (b : WriteBuffer) (t : SortedTable Bytes Bytes) : SortedTable Bytes Bytes :=
  changeAll t b.changes

@[simp] theorem order_overTable (b : WriteBuffer) (t : SortedTable Bytes Bytes) :
    (b.overTable t).order = t.order := PlainMap.order_changeAll ..

theorem over_eq (b : WriteBuffer) (entries : List (Bytes × Bytes)) :
    b.over entries = (b.overTable (.ofList b.slots.order entries)).toList := by
  simp [WriteBuffer.over, overTable, changeAll, changes, List.foldl_map]

/-- The last buffered change to a key is the one buffered for it. -/
theorem last?_changes (b : WriteBuffer) [Std.TransCmp b.slots.order] (key : Bytes) :
    SortedTable.last? b.slots.order b.changes key = b.get? key := by
  rw [changes, SortedTable.last?_map, snapshot, SortedTable.last?_toList, get?]

/-- Through the buffer a reader finds the buffered change to a key, or else
what the table has. -/
theorem get?_overTable (b : WriteBuffer) (t : SortedTable Bytes Bytes) [Std.TransCmp t.order]
    (order : b.slots.order = t.order) (key : Bytes) :
    (b.overTable t).get? key = (b.get? key).elim (t.get? key) Change.toOption := by
  have lawful : Std.TransCmp b.slots.order := order ▸ inferInstance
  rw [overTable, PlainMap.get?_changeAll, ← order, last?_changes]

/-- Tables with the same entries show the same entries through a buffer. -/
theorem same_overTable (b : WriteBuffer) {t u : SortedTable Bytes Bytes} [Std.TransCmp t.order]
    (h : t.Same u) : (b.overTable t).Same (b.overTable u) :=
  PlainMap.same_changeAll h b.changes

/-- The listing through a buffer is that of the laid-over table. -/
theorem over_toList (b : WriteBuffer) (t : SortedTable Bytes Bytes) [Std.TransCmp t.order]
    (order : b.slots.order = t.order) : b.over t.toList = (b.overTable t).toList := by
  rw [over_eq, order]
  have same := SortedTable.same_ofList_toList t
  exact (same_overTable b same).toList

/-! ## Changes of the buffer -/

@[simp] theorem insert_answer (b : WriteBuffer) (key : Bytes) (c : Change) :
    (b.insert key c).1 = b.get? key := rfl

@[simp] theorem order_slots_insert (b : WriteBuffer) (key : Bytes) (c : Change) :
    (b.insert key c).2.slots.order = b.slots.order := rfl

@[simp] theorem lastSeq_insert (b : WriteBuffer) (key : Bytes) (c : Change) :
    (b.insert key c).2.lastSeq = b.lastSeq + 1 := rfl

/-- A buffered change has the next number; the slots of other keys stay. -/
theorem slot_insert (b : WriteBuffer) [Std.TransCmp b.slots.order] (key other : Bytes)
    (c : Change) :
    (b.insert key c).2.slots.get? other =
      if b.slots.order key other = .eq then some ⟨c, b.lastSeq + 1⟩ else b.slots.get? other :=
  SortedTable.get?_insert b.slots key other ⟨c, b.lastSeq + 1⟩

theorem get?_insert (b : WriteBuffer) [Std.TransCmp b.slots.order] (key other : Bytes)
    (c : Change) :
    (b.insert key c).2.get? other =
      if b.slots.order key other = .eq then some c else b.get? other := by
  rw [get?, slot_insert]
  split <;> rfl

/-- Buffering a change makes it to the laid-over table. -/
theorem get?_overTable_insert (b : WriteBuffer) (t : SortedTable Bytes Bytes)
    [Std.TransCmp t.order] (order : b.slots.order = t.order) (key other : Bytes) (c : Change) :
    ((b.insert key c).2.overTable t).get? other =
      (change (b.overTable t) key c).2.get? other := by
  have lawful : Std.TransCmp b.slots.order := order ▸ inferInstance
  have lawful' : Std.TransCmp (b.overTable t).order := by
    rw [order_overTable]; infer_instance
  rw [get?_overTable (b.insert key c).2 t order, get?_insert, PlainMap.get?_change,
    get?_overTable b t order, order_overTable, order]
  split <;> rfl

/-- Dropping a slot that still has its number takes it out of the buffer. -/
theorem eraseUnchanged_of_eq (b : WriteBuffer) {key : Bytes} {slot : Slot}
    (found : b.slots.get? key = some slot) :
    (b.eraseUnchanged key slot.seq).1 = true ∧
      (b.eraseUnchanged key slot.seq).2.slots = (b.slots.erase key).2 := by
  simp [eraseUnchanged, SortedTable.eraseIf, found, SortedTable.erase]

/-- A slot with another number stays, and so does the buffer. -/
theorem eraseUnchanged_of_ne (b : WriteBuffer) {key : Bytes} {seq : Nat} {slot : Slot}
    (found : b.slots.get? key = some slot) (other : slot.seq ≠ seq) :
    b.eraseUnchanged key seq = (false, b) := by
  simp [eraseUnchanged, SortedTable.eraseIf, found, other]

@[simp] theorem order_slots_eraseUnchanged (b : WriteBuffer) (key : Bytes) (seq : Nat) :
    (b.eraseUnchanged key seq).2.slots.order = b.slots.order := by
  unfold eraseUnchanged SortedTable.eraseIf
  cases found : b.slots.get? key with
  | none => rfl
  | some slot => by_cases h : slot.seq = seq <;> simp [h, SortedTable.erase, found]

@[simp] theorem lastSeq_eraseUnchanged (b : WriteBuffer) (key : Bytes) (seq : Nat) :
    (b.eraseUnchanged key seq).2.lastSeq = b.lastSeq := by
  unfold eraseUnchanged
  split <;> rfl

/-- Dropping a slot brings in no other. -/
theorem mem_snapshot_eraseUnchanged (b : WriteBuffer) [Std.TransCmp b.slots.order] {key : Bytes}
    {seq : Nat} {entry : Bytes × Slot} (h : entry ∈ (b.eraseUnchanged key seq).2.snapshot) :
    entry ∈ b.snapshot := by
  cases there : b.slots.get? key with
  | none =>
    simp only [eraseUnchanged, SortedTable.eraseIf, there] at h
    exact h
  | some slot =>
    by_cases same : slot.seq = seq
    · subst same
      rw [snapshot, (eraseUnchanged_of_eq b there).2] at h
      exact SortedTable.mem_toList_erase b.slots h
    · rw [eraseUnchanged_of_ne b there same] at h
      exact h

/-- Dropping the first slot leaves the others. -/
theorem snapshot_drop_head (b : WriteBuffer) [Std.TransCmp b.slots.order] {key : Bytes}
    {slot : Slot} {rest : List (Bytes × Slot)} (h : b.snapshot = (key, slot) :: rest) :
    (b.eraseUnchanged key slot.seq).1 = true ∧
      (b.eraseUnchanged key slot.seq).2.snapshot = rest := by
  have mem : (key, slot) ∈ b.slots.toList := by
    rw [show b.slots.toList = _ from h]; exact List.mem_cons_self ..
  have drop := eraseUnchanged_of_eq b ((SortedTable.mem_toList _).1 mem).2
  refine ⟨drop.1, ?_⟩
  rw [snapshot, drop.2]
  exact SortedTable.toList_erase_head b.slots h

/-- Making the first buffered change and dropping its slot leaves the laid-over
table as it is. -/
theorem overTable_drop {b b' : WriteBuffer} {key : Bytes} {slot : Slot}
    {rest : List (Bytes × Slot)} (h : b.snapshot = (key, slot) :: rest)
    (h' : b'.snapshot = rest) (t : SortedTable Bytes Bytes) :
    b'.overTable (change t key slot.change).2 = b.overTable t := by
  simp [overTable, changes, h, h', PlainMap.changeAll_cons]

/-- Nothing is laid over a table by a buffer without slots. -/
theorem overTable_of_snapshot_nil {b : WriteBuffer} (h : b.snapshot = [])
    (t : SortedTable Bytes Bytes) : b.overTable t = t := by
  simp [overTable, changes, h]

/-- Nothing is found in a buffer without slots. -/
theorem get?_of_snapshot_nil {b : WriteBuffer} (lawful : Std.TransCmp b.slots.order)
    (h : b.snapshot = []) (key : Bytes) : b.get? key = none := by
  rw [get?, (SortedTable.toList_eq_nil_iff b.slots).1 h key]
  rfl

@[simp] theorem snapshot_empty (order : Bytes → Bytes → Ordering) :
    (empty order).snapshot = [] := by
  rfl

/-! ## Numbered slots -/

/-- No slot has a number that is still to be given. -/
def Sound (b : WriteBuffer) : Prop :=
  ∀ key slot, b.slots.get? key = some slot → slot.seq ≤ b.lastSeq

theorem sound_empty (order : Bytes → Bytes → Ordering) [Std.TransCmp order] :
    (empty order).Sound := by
  intro key slot found
  simp [empty] at found

theorem sound_insert (b : WriteBuffer) [Std.TransCmp b.slots.order] (h : b.Sound) (key : Bytes)
    (c : Change) : (b.insert key c).2.Sound := by
  intro other slot found
  rw [slot_insert] at found
  split at found
  · cases found
    exact Nat.le_refl _
  · exact Nat.le_succ_of_le (h other slot found)

theorem sound_eraseUnchanged (b : WriteBuffer) [Std.TransCmp b.slots.order] (h : b.Sound)
    (key : Bytes) (seq : Nat) : (b.eraseUnchanged key seq).2.Sound := by
  intro other slot found
  rw [lastSeq_eraseUnchanged]
  cases there : b.slots.get? key with
  | none =>
    simp [eraseUnchanged, SortedTable.eraseIf, there] at found
    exact h other slot found
  | some old =>
    by_cases same : old.seq = seq
    · subst same
      rw [(eraseUnchanged_of_eq b there).2, SortedTable.get?_erase] at found
      split at found
      · cases found
      · exact h other slot found
    · rw [eraseUnchanged_of_ne b there same] at found
      exact h other slot found

end WriteBuffer

end MapStore
