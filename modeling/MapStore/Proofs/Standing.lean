/-
MapStore.Proofs.Standing — a map that stands on a plain map, and what it shows.

A buffered or adaptive map shows its backing with the waiting writes laid over
it: `PlainMap.through` is that map. `Stands` says of a store how a map stands
on its backing: the two have the same data types, the buffer is in the order
of the keys, and no other map reaches either of them. Only calls of the map
itself then change what it shows.

Every reader is answered from the map that is shown. A write makes its change
to it, key by key. Merging, saving and switching leave it exactly as it is,
also where they stop halfway: one merged slot moves a change from the buffer
to the backing and nothing else (`stands_mergeSlot`), and the rest follows by
induction on the slots that are still to be merged.
-/
import MapStore.Proofs.Backing
import MapStore.Proofs.Switching

namespace MapStore

/-- The front of an open map that stands on another, and its waiting writes
while it buffers any. -/
def MapState.front? : MapState → Option (Front × Option WriteBuffer)
  | buffered m => if m.closed then none else some (m.toFront, some m.buffer)
  | adaptive m => some (m.toFront, m.buffer)
  | _ => none

/-- A map that stands on another reaches just that one. -/
theorem MapState.reaches_of_front? {st : MapState} {front : Front} {waiting : Option WriteBuffer}
    (h : st.front? = some (front, waiting)) : st.reaches = [front.backing] := by
  cases st with
  | buffered x =>
    simp only [front?] at h
    split at h
    · cases h
    · cases h
      rfl
  | adaptive a =>
    cases h
    rfl
  | memory _ => cases h
  | direct _ => cases h
  | faulty _ => cases h

theorem MapState.buffer?_of_front? {st : MapState} {front : Front}
    {waiting : Option WriteBuffer} (h : st.front? = some (front, waiting)) :
    st.buffer? = waiting := by
  cases st with
  | buffered x =>
    simp only [front?] at h
    split at h
    · cases h
    · cases h
      rfl
  | adaptive a =>
    cases h
    rfl
  | memory _ => cases h
  | direct _ => cases h
  | faulty _ => cases h

/-- Other waiting writes for a map that buffers. -/
theorem MapState.front?_withBuffer {st : MapState} {front : Front} {w : WriteBuffer}
    (h : st.front? = some (front, some w)) (w' : WriteBuffer) :
    (st.withBuffer w').front? = some (front, some w') := by
  cases st with
  | buffered x =>
    simp only [front?] at h
    split at h
    · cases h
    · rename_i isOpen
      cases h
      simp [withBuffer, front?, isOpen]
  | adaptive a =>
    simp only [front?, Option.some.injEq, Prod.mk.injEq] at h
    simp [withBuffer, front?, h.1, h.2]
  | memory _ => cases h
  | direct _ => cases h
  | faulty _ => cases h

/-- The plain map that is seen through the waiting writes. -/
def PlainMap.through (p : PlainMap) (waiting : Option WriteBuffer) : PlainMap :=
  { p with table := waiting.elim p.table (·.overTable p.table) }

/-- Nothing is seen of a buffer without slots. -/
theorem PlainMap.through_empty (p : PlainMap) {w : WriteBuffer} (h : w.snapshot = []) :
    p.through (some w) = p.through none := by
  rw [through, through, Option.elim, Option.elim, WriteBuffer.overTable_of_snapshot_nil h]

namespace Store

variable {s s' : Store} {m b : MapHandle} {p p' : PlainMap} {front : Front}
  {waiting waiting' : Option WriteBuffer}

/-- A map stands on a plain map that only it uses. -/
structure Stands (s : Store) (m b : MapHandle) (p : PlainMap) (front : Front)
    (waiting : Option WriteBuffer) : Prop where
  below : b.index < m.index
  state : ∃ st, s.maps[m.index]? = some st ∧ st.front? = some (front, waiting)
  backing : front.backing = b
  keyType : front.keyType = p.keyType
  valueType : front.valueType = p.valueType
  plain : s.Backing b p
  /-- Keys are in an order. -/
  lawful : Std.TransCmp p.keyType.compare
  order : p.table.order = p.keyType.compare
  orders : ∀ w, waiting = some w → w.slots.order = p.keyType.compare
  /-- No other map reaches either of the two. -/
  alone : s.Closed fun x => x ≠ m ∧ x ≠ b

/-- What a map shows that stands on a plain map. -/
def Shows (s : Store) (m b : MapHandle) (t : PlainMap) : Prop :=
  ∃ p front waiting, s.Stands m b p front waiting ∧ t = p.through waiting

namespace Stands

theorem ne (h : s.Stands m b p front waiting) : m ≠ b := by
  rintro rfl
  exact Nat.lt_irrefl _ h.below

/-- The map is a buffered or an adaptive one. -/
theorem kinds (h : s.Stands m b p front waiting) :
    (∃ (x : BufferedMap), s.maps[m.index]? = some (.buffered x) ∧ x.closed = false ∧
      x.toFront = front ∧ waiting = some x.buffer) ∨
    ∃ (a : AdaptiveMap), s.maps[m.index]? = some (.adaptive a) ∧ a.toFront = front ∧
      a.buffer = waiting := by
  obtain ⟨st, state, eq⟩ := h.state
  cases st with
  | buffered x =>
    cases isOpen : x.closed with
    | true => simp [MapState.front?, isOpen] at eq
    | false =>
      simp only [MapState.front?, isOpen, Bool.false_eq_true, if_false, Option.some.injEq,
        Prod.mk.injEq] at eq
      exact .inl ⟨x, state, isOpen, eq.1, eq.2.symm⟩
  | adaptive a =>
    simp only [MapState.front?, Option.some.injEq, Prod.mk.injEq] at eq
    exact .inr ⟨a, state, eq.1, eq.2⟩
  | memory _ => cases eq
  | direct _ => cases eq
  | faulty _ => cases eq

/-- A step of the two maps, or of others, after which they are as said. -/
theorem move {Q : MapHandle → Prop} (h : s.Stands m b p front waiting)
    (confined : s.Confined Q s')
    (state : ∃ st, s'.maps[m.index]? = some st ∧ st.front? = some (front, waiting'))
    (plain : s'.Backing b p') (keyType : p'.keyType = p.keyType)
    (valueType : p'.valueType = p.valueType) (order : p'.table.order = p.table.order)
    (orders : ∀ w, waiting' = some w → w.slots.order = p.keyType.compare) :
    s'.Stands m b p' front waiting' where
  below := h.below
  state := state
  backing := h.backing
  keyType := keyType ▸ h.keyType
  valueType := valueType ▸ h.valueType
  plain := plain
  lawful := keyType ▸ h.lawful
  order := by rw [order, keyType, h.order]
  orders w eq := by rw [keyType, orders w eq]
  alone := confined.closed h.alone

/-- A step of the backing. -/
theorem move_backing (h : s.Stands m b p front waiting) (frame : s.Frame (· = b) s')
    (plain : s'.Backing b p') (keyType : p'.keyType = p.keyType)
    (valueType : p'.valueType = p.valueType) (order : p'.table.order = p.table.order) :
    s'.Stands m b p' front waiting := by
  have touched := frame h.plain.closed
  obtain ⟨st, state, eq⟩ := h.state
  exact h.move touched.toConfined ⟨st, (touched.other m h.ne).trans state, eq⟩ plain keyType
    valueType order h.orders

/-- Another buffer for the map. -/
theorem move_front (h : s.Stands m b p front waiting) (st : MapState)
    (eq : st.front? = some (front, waiting'))
    (orders : ∀ w, waiting' = some w → w.slots.order = p.keyType.compare) :
    (s.set m st).Stands m b p front waiting' := by
  obtain ⟨st₀, state, eq₀⟩ := h.state
  have reaches : ∀ x ∈ st.reaches, x ∈ st₀.reaches := by
    rw [MapState.reaches_of_front? eq, MapState.reaches_of_front? eq₀]
    exact fun _ hx => hx
  refine h.move (confined_set (P := (· = m)) rfl state reaches)
    ⟨st, maps_set_self st state, eq⟩ (h.plain.congr ?_) rfl rfl rfl orders
  exact maps_set_of_ne s st h.ne

/-- A step that leaves the maps. -/
theorem of_maps (h : s.Stands m b p front waiting) (same : s'.maps = s.maps) :
    s'.Stands m b p front waiting := by
  refine h.move (confined_of_maps (P := fun _ => False) same) ?_ ?_ rfl rfl rfl h.orders
  · rw [same]
    exact h.state
  · exact h.plain.congr (by rw [same])

/-- A step of maps that are neither of the two. -/
theorem of_others (h : s.Stands m b p front waiting)
    (others : s.Confined (fun x => x ≠ m ∧ x ≠ b) s') : s'.Stands m b p front waiting := by
  obtain ⟨st, state, eq⟩ := h.state
  have atM := others.other m fun both => both.1 rfl
  have atB := others.other b fun both => both.2 rfl
  exact h.move others ⟨st, atM.trans state, eq⟩ (h.plain.congr atB) rfl rfl rfl h.orders

/-! ## Reading -/

/-- Through the waiting writes a key has the waiting change, or else what the
backing has. -/
theorem get?_through (h : s.Stands m b p front waiting) (key : Bytes) :
    (p.through waiting).table.get? key =
      (waiting.bind (·.get? key)).elim (p.table.get? key) Change.toOption := by
  cases waiting with
  | none => rfl
  | some w =>
    have lawful : Std.TransCmp p.table.order := h.order ▸ h.lawful
    exact WriteBuffer.get?_overTable w p.table ((h.orders w rfl).trans h.order.symm) key

theorem order_through (h : s.Stands m b p front waiting) :
    (p.through waiting).table.order = p.keyType.compare := by
  rw [← h.order]
  cases waiting with
  | none => rfl
  | some w => exact WriteBuffer.order_overTable w p.table

/-- A call of the backing that only reads. -/
theorem asks {α : Type} {a : Action α} {r : α} (h : s.Stands m b p front waiting)
    (frame : s.Frame (· = b) (a.after s)) (answers : a.Answers s r (·.Backing b p)) :
    a.Answers s r (·.Stands m b p front waiting) :=
  answers.imp fun plain => h.move_backing frame plain rfl rfl rfl

/-- A look-up in the waiting writes, and in the backing if nothing waits. -/
theorem look (h : s.Stands m b p front waiting) (key : Bytes) :
    (match waiting.bind (·.get? key) with
      | some change => pure change.toOption
      | none => b.get key : Action (Option Bytes)).Answers s
        ((p.through waiting).table.get? key) (·.Stands m b p front waiting) := by
  rw [h.get?_through key]
  cases waiting.bind (·.get? key) with
  | some change => exact .of_ok rfl h
  | none => exact h.asks (frame_get (P := (· = b)) rfl key) (h.plain.get key)

/-- A step that only changes meters. -/
theorem metered (h : s.Stands m b p front waiting) (meters : List AccessMeter) :
    ({ s with meters } : Store).Stands m b p front waiting :=
  h.of_maps rfl

theorem get (h : s.Stands m b p front waiting) (key : Bytes) :
    (m.get key).Answers s ((p.through waiting).table.get? key)
      (·.Stands m b p front waiting) := by
  have below := h.below
  obtain ⟨x, state, isOpen, rfl, rfl⟩ | ⟨a, state, rfl, rfl⟩ := h.kinds
  · obtain rfl := h.backing
    exact .congr (MapHandle.get_buffered state isOpen below key) (h.look key)
  · obtain rfl := h.backing
    exact .congr (MapHandle.get_adaptive state below key)
      ((h.metered (s.meters.modify a.meter.index .recordRead)).look key)

theorem contains (h : s.Stands m b p front waiting) (key : Bytes) :
    (m.contains key).Answers s ((p.through waiting).table.get? key).isSome
      (·.Stands m b p front waiting) := by
  have below := h.below
  obtain ⟨x, state, isOpen, rfl, rfl⟩ | ⟨a, state, rfl, rfl⟩ := h.kinds
  · refine .congr (MapHandle.contains_of_get state ?_ key) (h.get key).map
    intro a eq
    cases eq
  · obtain rfl := h.backing
    have metered := h.metered (s.meters.modify a.meter.index .recordRead)
    cases waiting : a.buffer with
    | none =>
      rw [waiting] at metered
      refine .congr ?_
        (metered.asks (frame_contains (P := (· = a.backing)) rfl key) (metered.plain.contains key))
      rw [MapHandle.contains_adaptive state below, waiting]
    | some w =>
      rw [waiting] at metered
      refine .congr ?_ (metered.look key).map
      rw [MapHandle.contains_adaptive state below, waiting]
      cases there : w.get? key <;> simp [there]

theorem entries (h : s.Stands m b p front waiting) :
    m.entries.Answers s (p.through waiting).table.toList (·.Stands m b p front waiting) := by
  have below := h.below
  have listed := h.asks (frame_entries (P := (· = b)) rfl) h.plain.entries
  have listedOver : ∀ w, waiting = some w →
      (do return w.over (← b.entries) : Action (List (Bytes × Bytes))).Answers s
        (p.through waiting).table.toList (·.Stands m b p front waiting) := by
    rintro w rfl
    have lawful : Std.TransCmp p.table.order := h.order ▸ h.lawful
    show Action.Answers _ _ (w.overTable p.table).toList _
    rw [← WriteBuffer.over_toList w p.table ((h.orders w rfl).trans h.order.symm)]
    exact listed.map
  obtain ⟨x, state, isOpen, rfl, rfl⟩ | ⟨a, state, rfl, rfl⟩ := h.kinds
  · obtain rfl := h.backing
    exact .congr (MapHandle.entries_buffered state isOpen below) (listedOver _ rfl)
  · obtain rfl := h.backing
    cases waiting : a.buffer with
    | none =>
      rw [waiting] at listed
      refine .congr ?_ listed
      rw [MapHandle.entries_adaptive state below, waiting, Action.run_bind]
      cases a.backing.entries s <;> rfl
    | some w =>
      rw [waiting] at listedOver
      refine .congr ?_ (listedOver w rfl)
      rw [MapHandle.entries_adaptive state below, waiting]
      rfl

theorem size (h : s.Stands m b p front waiting) :
    m.size.Answers s (p.through waiting).table.size (·.Stands m b p front waiting) := by
  have below := h.below
  have counted : (do return (← m.entries).length : Action Nat).Answers s
      (p.through waiting).table.size (·.Stands m b p front waiting) := by
    rw [SortedTable.size_eq_length]
    exact h.entries.map
  obtain ⟨x, state, isOpen, rfl, rfl⟩ | ⟨a, state, rfl, rfl⟩ := h.kinds
  · exact .congr (MapHandle.size_of_buffer state rfl) counted
  · obtain rfl := h.backing
    cases waiting : a.buffer with
    | none =>
      rw [waiting] at h
      exact .congr (MapHandle.size_adaptive state waiting below)
        (h.asks (frame_size (P := (· = a.backing)) rfl) h.plain.size)
    | some w =>
      rw [waiting] at counted
      exact .congr (MapHandle.size_of_buffer state waiting) counted

theorem isEmpty (h : s.Stands m b p front waiting) :
    m.isEmpty.Answers s ((p.through waiting).table.size == 0)
      (·.Stands m b p front waiting) :=
  h.size.map

/-! ## Writing -/

/-- Giving the map another buffer in the order of its keys. -/
theorem rebuffer {w w' : WriteBuffer} (h : s.Stands m b p front (some w))
    (order : w'.slots.order = w.slots.order) :
    ∃ s', Action.modifyState m (·.withBuffer w') s = .ok () s' ∧
      s'.Stands m b p front (some w') := by
  obtain ⟨st, state, eq⟩ := h.state
  refine ⟨_, Action.run_modifyState _ state, h.move_front _ (MapState.front?_withBuffer eq w') ?_⟩
  intro other same
  cases same
  exact order.trans (h.orders w rfl)

/-- A write into the buffer. -/
theorem writeBuffered {w : WriteBuffer} (h : s.Stands m b p front (some w)) (key : Bytes)
    (c : Change) :
    (∃ s', s'.Stands m b p front (some (w.insert key c).2) ∧
      PlainMap.checkChange p.keyType p.valueType key c = .ok () ∧
      m.writeBuffered front w key c s =
        .ok ((p.through (some w)).table.get? key) s') ∨
    ∃ fault s', s'.Stands m b p front (some w) ∧
      m.writeBuffered front w key c s = .error fault s' := by
  have found := h.get?_through key
  cases checked : PlainMap.checkChange front.keyType front.valueType key c with
  | error cause =>
    refine .inr ⟨.error cause, s, h, ?_⟩
    simp [MapHandle.writeBuffered, checked]
  | ok _ =>
    have checked' : PlainMap.checkChange p.keyType p.valueType key c = .ok () := by
      rw [← h.keyType, ← h.valueType, checked]
    cases there : w.get? key with
    | some old =>
      obtain ⟨s', run, still⟩ := h.rebuffer (WriteBuffer.order_slots_insert w key c)
      refine .inl ⟨s', still, checked', ?_⟩
      rw [MapHandle.writeBuffered_of_some there]
      simp [checked, run, found, there]
    | none =>
      rw [MapHandle.writeBuffered_of_none there, h.backing]
      have asked := h.asks (frame_get (P := (· = b)) rfl key) (h.plain.get key)
      obtain ⟨hidden, run₁⟩ | ⟨fault, run₁⟩ := Action.ends (b.get key) s
      · obtain rfl := asked.answer _ _ run₁
        obtain ⟨s', run, still⟩ := asked.keeps.rebuffer (WriteBuffer.order_slots_insert w key c)
        refine .inl ⟨s', still, checked', ?_⟩
        simp [checked, run₁, run, found, there]
      · exact .inr ⟨fault, _, asked.keeps, by simp [checked, run₁]⟩

/-- A write makes its change to what is shown, or leaves it. -/
theorem write (h : s.Stands m b p front waiting) (depth : Nat) (key : Bytes) (c : Change) :
    (∃ s' p' waiting', s'.Stands m b p' front waiting' ∧
      p'.keyType = p.keyType ∧ p'.valueType = p.valueType ∧
      PlainMap.checkChange p.keyType p.valueType key c = .ok () ∧
      (∀ other, (p'.through waiting').table.get? other =
        (PlainMap.change (p.through waiting).table key c).2.get? other) ∧
      m.write depth key c s = .ok ((p.through waiting).table.get? key) s') ∨
    ∃ fault s', s'.Stands m b p front waiting ∧ m.write depth key c s = .error fault s' := by
  have lawful : Std.TransCmp p.table.order := h.order ▸ h.lawful
  have inserted : ∀ w, waiting = some w → ∀ other,
      (p.through (some (w.insert key c).2)).table.get? other =
        (PlainMap.change (p.through (some w)).table key c).2.get? other := by
    rintro w eq other
    exact WriteBuffer.get?_overTable_insert w p.table ((h.orders w eq).trans h.order.symm) key
      other c
  have below := h.below
  obtain ⟨x, state, isOpen, rfl, rfl⟩ | ⟨a, state, rfl, rfl⟩ := h.kinds
  · rw [MapHandle.write_buffered state isOpen]
    obtain ⟨s', still, checked, run⟩ | failed := h.writeBuffered key c
    · exact .inl ⟨s', p, _, still, rfl, rfl, checked, inserted _ rfl, run⟩
    · exact .inr failed
  · obtain rfl := h.backing
    rw [MapHandle.write_adaptive state below]
    have metered := h.metered (s.meters.modify a.meter.index .recordWrite)
    cases waiting : a.buffer with
    | some w =>
      rw [waiting] at metered inserted
      obtain ⟨s', still, checked, run⟩ | failed := metered.writeBuffered key c
      · exact .inl ⟨s', p, _, still, rfl, rfl, checked, inserted w rfl, run⟩
      · exact .inr failed
    | none =>
      rw [waiting] at metered
      have frame : Store.Frame (· = a.backing)
          { s with meters := s.meters.modify a.meter.index .recordWrite }
          ((a.backing.write depth key c).after
            { s with meters := s.meters.modify a.meter.index .recordWrite }) :=
        frame_write (P := (· = a.backing)) depth rfl key c
      obtain ⟨s', plain, checked, run⟩ | ⟨fault, s', plain, run⟩ :=
        metered.plain.write depth key c
      · rw [Action.after_of_ok run] at frame
        refine .inl ⟨s', _, none, metered.move_backing frame plain rfl rfl ?_, rfl, rfl, checked,
          fun _ => rfl, run⟩
        exact PlainMap.order_change ..
      · rw [Action.after_of_error run] at frame
        exact .inr ⟨fault, s', metered.move_backing frame plain rfl rfl rfl, run⟩

/-! ## Merging and saving -/

theorem dropSlot {w : WriteBuffer} (h : s.Stands m b p front (some w)) (key : Bytes)
    (seq : Nat) :
    ∃ s', m.dropSlot key seq s = .ok (w.eraseUnchanged key seq).1 s' ∧
      s'.Stands m b p front (some (w.eraseUnchanged key seq).2) := by
  obtain ⟨st, state, eq⟩ := h.state
  obtain ⟨s', run, still⟩ := h.rebuffer (WriteBuffer.order_slots_eraseUnchanged w key seq)
  refine ⟨s', ?_, still⟩
  unfold MapHandle.dropSlot
  rw [Action.run_bind, Action.run_state state]
  simp only [MapState.buffer?_of_front? eq, Action.run_bind]
  rw [run]
  rfl

/-- Merging the first waiting slot: its change is in the backing and no longer
waits, or nothing happened. -/
theorem mergeSlot {w : WriteBuffer} {key : Bytes} {slot : Slot} {rest : List (Bytes × Slot)}
    (h : s.Stands m b p front (some w)) (first : w.snapshot = (key, slot) :: rest)
    (stats : MergeStats) :
    (∃ s' stats' p' w', m.mergeSlot front stats (key, slot) s = .ok stats' s' ∧
      s'.Stands m b p' front (some w') ∧ w'.snapshot = rest ∧
      p'.through (some w') = p.through (some w)) ∨
    ∃ fault s', m.mergeSlot front stats (key, slot) s = .error fault s' ∧
      s'.Stands m b p front (some w) := by
  have lawful : Std.TransCmp w.slots.order := h.orders w rfl ▸ h.lawful
  unfold MapHandle.mergeSlot
  simp only [Action.run_bind, Action.run_pendingArrivals, Action.run_attempt, h.backing]
  generalize s.maps.foldl _ 0 = depth
  have frame : s.Frame (· = b) ((b.write depth key slot.change).after s) :=
    frame_write (P := (· = b)) depth rfl key slot.change
  obtain ⟨s₁, plain, -, run⟩ | ⟨fault, s₁, plain, run⟩ := h.plain.write depth key slot.change
  · rw [Action.after_of_ok run] at frame
    have moved := h.move_backing frame plain rfl rfl (PlainMap.order_change ..)
    obtain ⟨s₂, run₂, still⟩ := moved.dropSlot key slot.seq
    obtain ⟨dropped, left⟩ := WriteBuffer.snapshot_drop_head w first
    refine .inl ⟨s₂, stats.apply slot.change, _, _, ?_, still, left, ?_⟩
    · simp [run, run₂, dropped]
    · have same := WriteBuffer.overTable_drop first left p.table
      simp only [PlainMap.through, Option.elim, same]
  · rw [Action.after_of_error run] at frame
    have moved := h.move_backing frame plain rfl rfl rfl
    rw [run]
    cases fault with
    | error cause => exact .inr ⟨_, s₁, rfl, moved⟩
    | panic message => exact .inr ⟨_, s₁, rfl, moved⟩

/-- Merging the waiting slots leaves what is shown, and if it comes to its end
no slot waits any more. -/
theorem drain {w : WriteBuffer} (h : s.Stands m b p front (some w)) :
    (∃ s' stats p' w', m.drain front w s = .ok stats s' ∧
      s'.Stands m b p' front (some w') ∧ w'.snapshot = [] ∧
      p'.through (some w') = p.through (some w)) ∨
    ∃ fault s' p' w', m.drain front w s = .error fault s' ∧
      s'.Stands m b p' front (some w') ∧ p'.through (some w') = p.through (some w) := by
  unfold MapHandle.drain
  generalize slots : w.snapshot = rest
  generalize MergeStats.none = stats
  induction rest generalizing s p w stats with
  | nil => exact .inl ⟨s, stats, p, w, rfl, h, slots, rfl⟩
  | cons first rest ih =>
    obtain ⟨key, slot⟩ := first
    rw [List.foldlM_cons, Action.run_bind]
    obtain ⟨s₁, stats', p', w', run, still, left, same⟩ | ⟨fault, s₁, run, still⟩ :=
      h.mergeSlot slots stats
    · rw [run, ← same]
      exact ih still left stats'
    · rw [run]
      exact .inr ⟨fault, s₁, p, w, rfl, still, rfl⟩

/-- A merge leaves what is shown; if it comes to its end nothing waits any
more. -/
theorem merge (h : s.Stands m b p front waiting) :
    (∃ s' stats p' waiting', m.merge s = .ok stats s' ∧ s'.Stands m b p' front waiting' ∧
      (∀ w, waiting' = some w → w.snapshot = []) ∧ p'.through waiting' = p.through waiting) ∨
    ∃ fault s' p' waiting', m.merge s = .error fault s' ∧ s'.Stands m b p' front waiting' ∧
      p'.through waiting' = p.through waiting := by
  have merged : ∀ w, waiting = some w → m.merge s = m.drain front w s := by
    rintro w rfl
    obtain ⟨x, state, -, rfl, eq⟩ | ⟨a, state, rfl, eq⟩ := h.kinds
    · rw [MapHandle.run_merge_buffered state, Option.some.inj eq]
    · exact MapHandle.run_merge_adaptive state eq
  cases waiting with
  | some w =>
    rw [merged w rfl]
    obtain ⟨s', stats, p', w', run, still, empty, same⟩ | ⟨fault, s', p', w', run, still, same⟩ :=
      h.drain
    · refine .inl ⟨s', stats, p', some w', run, still, fun x eq => ?_, same⟩
      cases eq
      exact empty
    · exact .inr ⟨fault, s', p', some w', run, still, same⟩
  | none =>
    refine .inl ⟨s, .none, p, none, ?_, h, fun w eq => (by cases eq), rfl⟩
    obtain ⟨x, -, -, -, eq⟩ | ⟨a, state, -, eq⟩ := h.kinds
    · cases eq
    · exact MapHandle.run_merge_of_none state eq

end Stands

/-! ## What is shown -/

variable {t : PlainMap}

theorem Stands.shows (h : s.Stands m b p front waiting) : s.Shows m b (p.through waiting) :=
  ⟨p, front, waiting, h, rfl⟩

namespace Shows

theorem of_maps (h : s.Shows m b t) (same : s'.maps = s.maps) : s'.Shows m b t := by
  obtain ⟨p, front, waiting, stands, rfl⟩ := h
  exact (stands.of_maps same).shows

theorem of_others (h : s.Shows m b t) (others : s.Confined (fun x => x ≠ m ∧ x ≠ b) s') :
    s'.Shows m b t := by
  obtain ⟨p, front, waiting, stands, rfl⟩ := h
  exact (stands.of_others others).shows

theorem merge (h : s.Shows m b t) : (m.merge.after s).Shows m b t := by
  obtain ⟨p, front, waiting, stands, rfl⟩ := h
  obtain ⟨s', stats, p', waiting', run, still, -, same⟩ |
    ⟨fault, s', p', waiting', run, still, same⟩ := stands.merge
  · rw [Action.after_of_ok run, ← same]
    exact still.shows
  · rw [Action.after_of_error run, ← same]
    exact still.shows

theorem save_backing (h : s.Shows m b t) : (b.save.after s).Shows m b t := by
  obtain ⟨p, front, waiting, stands, rfl⟩ := h
  exact (stands.move_backing (frame_save (P := (· = b)) rfl) stands.plain.save rfl rfl rfl).shows

theorem save (h : s.Shows m b t) : (m.save.after s).Shows m b t := by
  have merged : Action.after (do let _ ← m.merge; b.save) s |>.Shows m b t := by
    obtain ⟨stats, run⟩ | ⟨fault, run⟩ := Action.ends m.merge s
    · rw [Action.after_bind_of_ok run]
      exact h.merge.save_backing
    · rw [Action.after_bind_of_error run]
      exact h.merge
  obtain ⟨p, front, waiting, stands, rfl⟩ := h
  have below := stands.below
  obtain ⟨x, state, isOpen, rfl, -⟩ | ⟨a, state, rfl, -⟩ := stands.kinds
  · obtain rfl := stands.backing
    rwa [Action.after, MapHandle.save_buffered state isOpen below]
  · obtain rfl := stands.backing
    rwa [Action.after, MapHandle.save_adaptive state below]

/-- Entering buffered mode leaves what is shown: nothing waits yet. -/
theorem switchToBuffered (h : s.Shows m b t) : (m.switchToBuffered.after s).Shows m b t := by
  obtain ⟨p, front, waiting, stands, rfl⟩ := h
  obtain ⟨x, state, -, -, -⟩ | ⟨a, state, rfl, rfl⟩ := stands.kinds
  · unfold MapHandle.switchToBuffered
    rw [Action.after_bind_of_ok (Action.run_state state)]
    exact stands.shows
  · obtain ⟨-, run⟩ | ⟨-, -, run⟩ | ⟨direct, -, run⟩ := MapHandle.switchToBuffered_cases state
    · rw [Action.after_of_ok run]
      exact stands.shows
    · rw [Action.after_of_error run]
      exact stands.shows
    · rw [Action.after_of_ok run]
      have none : a.buffer = none := by
        cases eq : a.buffer with
        | none => rfl
        | some w => simp [AdaptiveMap.mode, eq] at direct
      have listed : (s.withListed a.live ((s.liveSets a.live).buffered.insert (.map m)).2).Stands m
          b p a.toFront a.buffer := stands.of_maps rfl
      have entered := listed.move_front (.adaptive
        { a with buffer := some (.empty a.keyType.compare) }) rfl (by
          intro w eq
          cases eq
          rw [stands.keyType]
          rfl)
      rw [none, ← p.through_empty (WriteBuffer.snapshot_empty a.keyType.compare)]
      exact entered.shows

/-- Leaving buffered mode leaves what is shown: nothing waits any more. -/
theorem switchToDirect (h : s.Shows m b t) : (m.switchToDirect.after s).Shows m b t := by
  obtain ⟨p, front, waiting, stands, rfl⟩ := h
  obtain ⟨x, state, -, -, -⟩ | ⟨a, state, rfl, rfl⟩ := stands.kinds
  · unfold MapHandle.switchToDirect
    rw [Action.after_bind_of_ok (Action.run_state state)]
    exact stands.shows
  · obtain ⟨-, run⟩ | ⟨fault, -, run₁, run⟩ | ⟨stats, buffer, -, run₁, state₁, run⟩ :=
      MapHandle.switchToDirect_cases state
    · rw [Action.after_of_ok run]
      exact stands.shows
    · rw [Action.after_of_error run]
      exact stands.shows.merge
    · rw [Action.after_of_ok run]
      obtain ⟨s', stats', p', waiting', run', still, empty, same⟩ |
        ⟨fault, s', p', waiting', run', still, same⟩ := stands.merge
      · rw [Action.after_of_ok run'] at *
        have struck : ∀ s₂ : Store, s₂.maps = s'.maps → (s₂.set m (.adaptive
            { a with buffer := none })).Stands m b p' a.toFront none := by
          intro s₂ maps
          exact (still.of_maps maps).move_front _ rfl fun w eq => by cases eq
        rw [← same]
        have nothing : p'.through waiting' = p'.through none := by
          cases waiting' with
          | none => rfl
          | some w => exact p'.through_empty (empty w rfl)
        rw [nothing]
        refine (struck _ ?_).shows
        split <;> rfl
      · rw [run'] at run₁
        cases run₁

end Shows

end Store

end MapStore
