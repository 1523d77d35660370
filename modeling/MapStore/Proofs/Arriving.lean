/-
MapStore.Proofs.Arriving — writes that arrive while a map is merged.

A buffered map is merged into its backing while other writes are made to it:
at the start of each write to the backing a batch of them arrives
(`FaultyMap.schedule`), to keys that are merged already, still to be merged, or
not in the buffer at all, and any write to the backing may be refused.

`Arriving` is what holds at every moment of such a merge, and the lemmas say
what its steps come to: a reader is answered from the backing and the waiting
changes (`Arriving.reads_through`), a write that arrives is answered exactly
and buffered (`Arriving.deliver`), and a merged slot is dropped, or stays
because its key was written to since it was copied (`Arriving.mergeSlot`).

Of the buffer nothing is asked but that it came about as buffers do (`Filled`):
each change in it was checked when it was made, under the spelling that its key
came with. A slot keeps the spelling it began with, so whether the backing
admits what is in the slot is another matter: it does where keys that compare
equal are admitted alike (`Filled.admitted`).
-/
import MapStore.Proofs.Calls
import MapStore.Proofs.Draining

namespace MapStore

open PlainMap (changeAll change checkChange answersTo)
open WriteBuffer (changesOf)
open SortedTable (last?)

/-! ## Buffers as they come about -/

/-- A buffer of a map of these data types. It is empty at first, takes changes
that the data types admit, and drops slots. -/
inductive WriteBuffer.Filled (keyType valueType : DataType) : WriteBuffer → Prop
  | empty : Filled keyType valueType (.empty keyType.compare)
  | insert {w : WriteBuffer} (before : Filled keyType valueType w) (key : Bytes) (c : Change)
      (admitted : checkChange keyType valueType key c = .ok ()) :
      Filled keyType valueType (w.insert key c).2
  | drop {w : WriteBuffer} (before : Filled keyType valueType w) (key : Bytes) (seq : Nat) :
      Filled keyType valueType (w.eraseUnchanged key seq).2

namespace WriteBuffer.Filled

variable {keyType valueType : DataType} {w : WriteBuffer}

/-- Its keys are in the order of their type. -/
theorem order (filled : w.Filled keyType valueType) : w.slots.order = keyType.compare := by
  induction filled with
  | empty => rfl
  | insert before key c admitted ih => exact ih
  | @drop w before key seq ih => exact (order_slots_eraseUnchanged w key seq).trans ih

variable [Std.TransCmp keyType.compare]

/-- Its slots are numbered. -/
theorem sound (filled : w.Filled keyType valueType) : w.Sound := by
  induction filled with
  | empty => exact sound_empty keyType.compare
  | @insert w before key c admitted ih =>
    have lawful : Std.TransCmp w.slots.order := before.order ▸ inferInstance
    exact sound_insert w ih key c
  | @drop w before key seq ih =>
    have lawful : Std.TransCmp w.slots.order := before.order ▸ inferInstance
    exact sound_eraseUnchanged w ih key seq

/-- Where keys that compare equal are admitted alike, what is in its slots is
admitted under the spellings that the slots keep. -/
theorem admitted (filled : w.Filled keyType valueType) (coherent : keyType.Coherent) :
    ∀ entry ∈ w.snapshot, checkChange keyType valueType entry.1 entry.2.change = .ok () := by
  induction filled with
  | empty => exact fun entry mem => nomatch mem
  | @insert w before key c admitted ih =>
    have lawful : Std.TransCmp w.slots.order := before.order ▸ inferInstance
    intro entry mem
    obtain old | rfl := SortedTable.mem_toList_insert w.slots mem
    · exact ih entry old
    · have same : keyType.compare key (w.slots.keptKey key) = .eq := by
        rw [← before.order, Std.OrientedCmp.eq_comm, SortedTable.order_keptKey]
        exact Std.ReflCmp.compare_self
      exact PlainMap.checkChange_congr coherent same admitted
  | @drop w before key seq ih =>
    have lawful : Std.TransCmp w.slots.order := before.order ▸ inferInstance
    exact fun entry mem => ih entry (mem_snapshot_eraseUnchanged w mem)

end WriteBuffer.Filled

/-! ## What arrives -/

/-- The change that a write makes when it arrives, with its key. -/
def Arrival.entry (a : Arrival) : Bytes × Change := (a.key, a.change)

/-- A write to the map `m` that its data types admit. -/
structure Arrival.Fits (a : Arrival) (m : MapHandle) (front : Front) : Prop where
  target : a.target = m
  admitted : checkChange front.keyType front.valueType a.key a.change = .ok ()

namespace FaultyMap

/-- The writes that are still to arrive. -/
def arrivals (f : FaultyMap) : List Arrival := f.onPut.flatten ++ f.onRemove.flatten

/-- The batches of changes that arrive while the slots are merged, one a slot. -/
def schedule (f : FaultyMap) : List (Bytes × Slot) → List (List (Bytes × Change))
  | [] => []
  | s :: rest =>
    (f.takeArrivals s.2.change).1.map Arrival.entry :: (f.takeArrivals s.2.change).2.schedule rest

/-- What arrives depends on nothing but what is to arrive. -/
theorem schedule_congr {f g : FaultyMap} (onPut : f.onPut = g.onPut)
    (onRemove : f.onRemove = g.onRemove) (slots : List (Bytes × Slot)) :
    f.schedule slots = g.schedule slots := by
  induction slots generalizing f g with
  | nil => rfl
  | cons s rest ih =>
    have same : (f.takeArrivals s.2.change).1 = (g.takeArrivals s.2.change).1 ∧
        (f.takeArrivals s.2.change).2.onPut = (g.takeArrivals s.2.change).2.onPut ∧
        (f.takeArrivals s.2.change).2.onRemove = (g.takeArrivals s.2.change).2.onRemove := by
      cases s.2.change <;> simp [takeArrivals, onPut, onRemove]
    rw [schedule, schedule, same.1, ih same.2.1 same.2.2]

/-- A write is let through, or refused once as many were let through as the
plan says. -/
theorem nextWrite_cases {p : FaultPlan} (coming : p.coming = []) :
    (∃ p', nextWrite p = (none, p') ∧ p'.read = p.read ∧ p'.coming = p.coming ∧
      p'.write = p.write ∧ (p.write = none ∨ p.writeAfter = p'.writeAfter + 1)) ∨
    ∃ fault, p.write = some fault ∧ p.writeAfter = 0 ∧ nextWrite p = (some fault, p) := by
  unfold nextWrite FaultPlan.next
  cases after : p.writeAfter with
  | zero =>
    cases write : p.write with
    | none => exact .inl ⟨p, by simp [coming], rfl, rfl, write, .inl rfl⟩
    | some fault => exact .inr ⟨fault, rfl, rfl, by simp [coming]⟩
  | succ n => exact .inl ⟨{ p with writeAfter := n }, by simp [coming], rfl, rfl, rfl, .inr rfl⟩

/-- Why a write to the map does not come through: its plan refuses it, or its
data types do not admit the change. -/
def Refuses (f : FaultyMap) (key : Bytes) (c : Change) (fault : Fault) : Prop :=
  (f.plan.write = some fault ∧ f.plan.writeAfter = 0) ∨
    ∃ cause, fault = .error cause ∧
      checkChange f.inner.keyType f.inner.valueType key c = .error cause

end FaultyMap

/-- A copied change counts once, whichever sort it is of. -/
theorem MergeStats.total_apply (stats : MergeStats) (c : Change) :
    (stats.apply c).total = stats.total + 1 := by
  cases c <;> simp only [apply, total] <;> omega

theorem MergeStats.superseded_apply (stats : MergeStats) (c : Change) :
    (stats.apply c).superseded = stats.superseded := by
  cases c <;> rfl

/-- How a merge ends whose backing refused a write with the fault. -/
def Front.mergeFault (front : Front) : Fault → Fault
  | .error cause => .error (.mergeFailed front.name cause.message)
  | .panic message => .panic message

/-- A write that arrives at a faulty map is made and its answer noted. -/
def MapHandle.deliver (m : MapHandle) (depth : Nat) (a : Arrival) : Action Unit := do
  let answer ← Action.attempt (a.target.write depth a.key a.change)
  Action.noteAnswer m answer

/-- A batch that is to arrive is counted among those that still arrive. -/
theorem pendingArrivals_pos {s : Store} {m : MapHandle} {f : FaultyMap} {c : Change}
    (h : s.maps[m.index]? = some (.faulty f)) (some : (f.takeArrivals c).1 ≠ []) :
    0 < s.maps.foldl (fun n st => n + st.pendingArrivals) 0 := by
  have counted : 0 < (MapState.faulty f).pendingArrivals := by
    cases c with
    | value bytes =>
      cases onPut : f.onPut with
      | nil => simp [FaultyMap.takeArrivals, onPut] at some
      | cons batch rest =>
        simp only [MapState.pendingArrivals, onPut, List.length_cons]
        omega
    | tombstone =>
      cases onRemove : f.onRemove with
      | nil => simp [FaultyMap.takeArrivals, onRemove] at some
      | cons batch rest =>
        simp only [MapState.pendingArrivals, onRemove, List.length_cons]
        omega
  have sum : s.maps.foldl (fun n st => n + st.pendingArrivals) 0 =
      (s.maps.map MapState.pendingArrivals).sum := by
    rw [List.sum_eq_foldl, List.foldl_map]
  rw [sum]
  have among : (MapState.faulty f).pendingArrivals ∈ s.maps.map MapState.pendingArrivals :=
    List.mem_map.2 ⟨_, List.mem_of_getElem? h, rfl⟩
  exact List.sum_pos_iff_exists_pos_nat.2 ⟨_, among, counted⟩

/-- A faulty map takes its batch, has it written, and follows its plan. -/
theorem MapHandle.write_deliver {s : Store} {m : MapHandle} {f : FaultyMap} {depth : Nat}
    {key : Bytes} {c : Change} (h : s.maps[m.index]? = some (.faulty f))
    (deep : (f.takeArrivals c).1 ≠ [] → 0 < depth) :
    m.write depth key c s = (do
      (f.takeArrivals c).1.forM (m.deliver (depth - 1))
      m.writeFaulty key c) (s.set m (.faulty
        { (f.takeArrivals c).2 with calls := FaultyMap.countWrite f.calls c })) := by
  have calls : (f.takeArrivals c).2.calls = f.calls := by
    cases c <;> rfl
  cases depth with
  | zero =>
    have nothing : (f.takeArrivals c).1 = [] := by
      cases batch : (f.takeArrivals c).1 with
      | nil => rfl
      | cons a rest =>
        rw [batch] at deep
        exact absurd (deep (List.cons_ne_nil _ _)) (Nat.lt_irrefl 0)
    rw [write_faulty h nothing, nothing]
    rfl
  | succ n =>
    rw [write, Action.run_bind, Action.run_state h]
    simp only [Action.run_bind, Action.run_setState, calls]
    rfl

/-! ## The moments of a merge -/

namespace Store

variable {s s' : Store} {m b : MapHandle} {x : BufferedMap} {f : FaultyMap}
  {since : Nat} {left : List (Bytes × Slot)} {arrived : List (Bytes × Change)}

/-- An open buffered map over a plain one of the same data types whose look-ups
and listings are not refused, with writes still to arrive at it that the data
types admit. -/
structure Arriving (s : Store) (m b : MapHandle) (x : BufferedMap) (f : FaultyMap) : Prop where
  state : s.maps[m.index]? = some (.buffered x)
  isOpen : x.closed = false
  backing : x.backing = b
  below : b.index < m.index
  behind : s.maps[b.index]? = some (.faulty f)
  behindOpen : f.inner.closed = false
  reads : f.plan.read = none
  coming : f.plan.coming = []
  keyType : x.keyType = f.inner.keyType
  valueType : x.valueType = f.inner.valueType
  /-- Keys are in an order. -/
  lawful : Std.TransCmp x.keyType.compare
  order : f.inner.table.order = x.keyType.compare
  filled : x.buffer.Filled x.keyType x.valueType
  fits : ∀ a ∈ f.arrivals, a.Fits m x.toFront

/-- What a map answers to readers: the entries of a table. -/
structure Reads (s : Store) (m : MapHandle) (t : SortedTable Bytes Bytes) : Prop where
  get : ∀ key, ∃ s', m.get key s = .ok (t.get? key) s'
  entries : ∃ s', m.entries s = .ok t.toList s'

namespace Arriving

theorem ne (h : s.Arriving m b x f) : m ≠ b := by
  rintro rfl
  exact Nat.lt_irrefl _ h.below

theorem slots (h : s.Arriving m b x f) : x.buffer.slots.order = x.keyType.compare :=
  h.filled.order

theorem sound (h : s.Arriving m b x f) : x.buffer.Sound := by
  have lawful := h.lawful
  exact h.filled.sound

/-- The order of the buffer is one. -/
theorem lawful_slots (h : s.Arriving m b x f) : Std.TransCmp x.buffer.slots.order :=
  h.slots ▸ h.lawful

theorem lawful_table (h : s.Arriving m b x f) : Std.TransCmp f.inner.table.order :=
  h.order ▸ h.lawful

theorem same_order (h : s.Arriving m b x f) :
    x.buffer.slots.order = f.inner.table.order := h.slots.trans h.order.symm

/-- The buffered map with other changes waiting. -/
theorem rebuffer (h : s.Arriving m b x f) {w : WriteBuffer}
    (filled : w.Filled x.keyType x.valueType) :
    (s.set m (.buffered { x with buffer := w })).Arriving m b { x with buffer := w } f :=
  { h with
    state := maps_set_self _ h.state
    behind := (maps_set_of_ne s _ h.ne).trans h.behind
    filled }

/-- The plain map behind with other entries, and with less to arrive. -/
theorem rebehind (h : s.Arriving m b x f) (f' : FaultyMap)
    (inner : ∃ table, f'.inner = { f.inner with table } ∧ table.order = f.inner.table.order)
    (reads : f'.plan.read = f.plan.read) (coming : f'.plan.coming = f.plan.coming)
    (arrivals : ∀ a ∈ f'.arrivals, a ∈ f.arrivals) :
    (s.set b (.faulty f')).Arriving m b x f' := by
  obtain ⟨table, eq, order⟩ := inner
  exact
    { h with
      state := (maps_set_of_ne s _ h.ne.symm).trans h.state
      behind := maps_set_self _ h.behind
      behindOpen := eq ▸ h.behindOpen
      reads := reads.trans h.reads
      coming := coming.trans h.coming
      keyType := eq ▸ h.keyType
      valueType := eq ▸ h.valueType
      order := by rw [eq]; exact order.trans h.order
      fits := fun a ha => h.fits a (arrivals a ha) }

/-! ## Reading -/

/-- Looking at the map behind only counts the call. -/
theorem enter (h : s.Arriving m b x f) (count : CallCounts → CallCounts) :
    Action.enterFaulty b f f.plan.read count s =
        .ok () (s.set b (.faulty { f with calls := count f.calls })) ∧
      (s.set b (.faulty { f with calls := count f.calls })).Arriving m b x
        { f with calls := count f.calls } := by
  constructor
  · rw [Action.run_enterFaulty, FaultPlan.next, h.coming]
    simp only [h.reads]
  · exact h.rebehind _ ⟨f.inner.table, rfl, rfl⟩ rfl rfl fun _ ha => ha

theorem get_behind (h : s.Arriving m b x f) (key : Bytes) :
    ∃ s' calls, b.get key s = .ok (f.inner.table.get? key) s' ∧
      s'.Arriving m b x { f with calls } := by
  obtain ⟨run, still⟩ := h.enter fun c => { c with get := c.get + 1 }
  refine ⟨_, _, ?_, still⟩
  rw [MapHandle.get_faulty h.behind, Action.run_bind, run, PlainMap.get_open h.behindOpen]
  rfl

theorem entries_behind (h : s.Arriving m b x f) :
    ∃ s' calls, b.entries s = .ok f.inner.table.toList s' ∧
      s'.Arriving m b x { f with calls } := by
  obtain ⟨run, still⟩ := h.enter fun c => { c with entries := c.entries + 1 }
  refine ⟨_, _, ?_, still⟩
  rw [MapHandle.entries_faulty h.behind, Action.run_bind, run, PlainMap.entries_open h.behindOpen]
  rfl

/-- The plain map behind answers with its entries. -/
theorem reads_behind (h : s.Arriving m b x f) : s.Reads b f.inner.table where
  get key := by
    obtain ⟨s', calls, run, -⟩ := h.get_behind key
    exact ⟨s', run⟩
  entries := by
    obtain ⟨s', calls, run, -⟩ := h.entries_behind
    exact ⟨s', run⟩

/-- The buffered map answers with the plain one's entries and the waiting
changes made to them. -/
theorem reads_through (h : s.Arriving m b x f) :
    s.Reads m (x.buffer.overTable f.inner.table) where
  get key := by
    have lawful := h.lawful_table
    have below := h.below
    obtain rfl := h.backing
    rw [WriteBuffer.get?_overTable x.buffer f.inner.table h.same_order,
      MapHandle.get_buffered h.state h.isOpen below]
    cases there : x.buffer.get? key with
    | some c => exact ⟨s, rfl⟩
    | none =>
      obtain ⟨s', calls, run, -⟩ := h.get_behind key
      exact ⟨s', run⟩
  entries := by
    have lawful := h.lawful_table
    have below := h.below
    obtain rfl := h.backing
    obtain ⟨s', calls, run, -⟩ := h.entries_behind
    refine ⟨s', ?_⟩
    rw [MapHandle.entries_buffered h.state h.isOpen below,
      ← WriteBuffer.over_toList x.buffer f.inner.table h.same_order]
    simp [run]

/-! ## One write that arrives -/

/-- The buffered map with one more change waiting. -/
theorem insert {a : Arrival} (h : s.Arriving m b x f) (fits : a.Fits m x.toFront) :
    (s.set m (.buffered { x with buffer := (x.buffer.insert a.key a.change).2 })).Arriving m b
      { x with buffer := (x.buffer.insert a.key a.change).2 } f :=
  h.rebuffer (h.filled.insert a.key a.change fits.admitted)

/-- A write is answered what a reader finds, and buffered. -/
theorem write {a : Arrival} (h : s.Arriving m b x f) (fits : a.Fits m x.toFront)
    (depth : Nat) :
    ∃ s' calls, a.target.write depth a.key a.change s =
        .ok ((x.buffer.overTable f.inner.table).get? a.key) s' ∧
      s'.Arriving m b { x with buffer := (x.buffer.insert a.key a.change).2 }
        { f with calls } := by
  have lawful := h.lawful_table
  rw [fits.target, MapHandle.write_buffered h.state h.isOpen,
    WriteBuffer.get?_overTable x.buffer f.inner.table h.same_order]
  cases there : x.buffer.get? a.key with
  | some old =>
    refine ⟨_, f.calls, ?_, h.insert fits⟩
    rw [MapHandle.writeBuffered_of_some there]
    simp only [Action.run_bind, fits.admitted, Action.run_lift_ok,
      Action.run_modifyState _ h.state]
    rfl
  | none =>
    obtain ⟨s₁, calls, run, still⟩ := h.get_behind a.key
    refine ⟨_, calls, ?_, still.insert fits⟩
    rw [MapHandle.writeBuffered_of_none there, h.backing]
    simp only [Action.run_bind, fits.admitted, Action.run_lift_ok, run,
      Action.run_modifyState _ still.state]
    rfl

/-- A write that arrives is answered what a reader finds, and buffered, and the
answer is noted. -/
theorem deliver {a : Arrival} (h : s.Arriving m b x f) (fits : a.Fits m x.toFront)
    (depth : Nat) :
    ∃ s' calls, b.deliver depth a s = .ok () s' ∧
      s'.Arriving m b { x with buffer := (x.buffer.insert a.key a.change).2 }
        { f with
          calls
          answers := f.answers ++ [.ok ((x.buffer.overTable f.inner.table).get? a.key)] } := by
  obtain ⟨s₁, calls, run, still⟩ := h.write fits depth
  refine ⟨_, calls, ?_, still.rebehind _ ⟨f.inner.table, rfl, rfl⟩ rfl rfl fun _ ha => ha⟩
  unfold MapHandle.deliver Action.noteAnswer
  simp only [Action.run_bind, Action.run_attempt, run, Action.run_modifyState _ still.behind]
  rfl

/-- A batch arrives: each write is answered what it finds after those before
it, and all are buffered. -/
theorem batch {l : List Arrival} (h : s.Arriving m b x f)
    (fits : ∀ a ∈ l, a.Fits m x.toFront) (depth : Nat) :
    ∃ s' calls, l.forM (b.deliver depth) s = .ok () s' ∧
      s'.Arriving m b { x with buffer := x.buffer.insertAll (l.map Arrival.entry) }
        { f with
          calls
          answers := f.answers ++
            (answersTo (x.buffer.overTable f.inner.table) (l.map Arrival.entry)).map .ok } := by
  induction l generalizing s x f with
  | nil => exact ⟨s, f.calls, rfl, by simpa [answersTo, WriteBuffer.insertAll] using h⟩
  | cons a rest ih =>
    obtain ⟨s₁, calls₁, run₁, still₁⟩ := h.deliver (fits a (List.mem_cons_self ..)) depth
    obtain ⟨s₂, calls₂, run₂, still₂⟩ := ih still₁ fun a' mem =>
      fits a' (List.mem_cons_of_mem _ mem)
    have lawful := h.lawful_table
    have lawful' : Std.TransCmp
        ((x.buffer.insert a.key a.change).2.overTable f.inner.table).order := by
      rw [WriteBuffer.order_overTable]
      infer_instance
    -- the writes after the first find its change made
    have same := PlainMap.answersTo_congr
      (t := (x.buffer.insert a.key a.change).2.overTable f.inner.table)
      (u := (change (x.buffer.overTable f.inner.table) a.key a.change).2)
      (by rw [PlainMap.order_change, WriteBuffer.order_overTable, WriteBuffer.order_overTable])
      (fun other => WriteBuffer.get?_overTable_insert x.buffer f.inner.table h.same_order a.key
        other a.change) (rest.map Arrival.entry)
    refine ⟨s₂, calls₂, ?_, ?_⟩
    · show (do b.deliver depth a; rest.forM (b.deliver depth) : Action Unit) s = _
      rw [Action.run_bind, run₁]
      exact run₂
    · rw [same] at still₂
      simpa [answersTo, Arrival.entry, WriteBuffer.insertAll_cons, List.append_assoc] using still₂

/-- A write to the plain map behind has its batch written first. -/
theorem write_behind (h : s.Arriving m b x f) (key : Bytes) (c : Change) :
    ∃ s' f', b.write (s.maps.foldl (fun n st => n + st.pendingArrivals) 0) key c s =
        b.writeFaulty key c s' ∧
      s'.Arriving m b
        { x with buffer := x.buffer.insertAll ((f.takeArrivals c).1.map Arrival.entry) } f' ∧
      f'.inner = f.inner ∧ f'.plan = f.plan ∧
      f'.answers = f.answers ++ (answersTo (x.buffer.overTable f.inner.table)
        ((f.takeArrivals c).1.map Arrival.entry)).map .ok ∧
      ∀ slots, f'.schedule slots = (f.takeArrivals c).2.schedule slots := by
  -- the map that counted the call and took its batch
  obtain ⟨f₁, hf₁⟩ : ∃ f₁, f₁ =
    { (f.takeArrivals c).2 with calls := FaultyMap.countWrite f.calls c } := ⟨_, rfl⟩
  have inner : f₁.inner = f.inner := by rw [hf₁]; cases c <;> rfl
  have plan : f₁.plan = f.plan := by rw [hf₁]; cases c <;> rfl
  have answers : f₁.answers = f.answers := by rw [hf₁]; cases c <;> rfl
  have scheduled : ∀ slots, f₁.schedule slots = (f.takeArrivals c).2.schedule slots := by
    rw [hf₁]
    exact FaultyMap.schedule_congr rfl rfl
  have taken := h.rebehind f₁ ⟨f.inner.table, inner, rfl⟩ (by rw [plan]) (by rw [plan])
    fun a ha => FaultyMap.mem_takeArrivals (.inr (by rw [hf₁] at ha; exact ha))
  obtain ⟨s₂, calls, run, still⟩ := taken.batch
    (fun a ha => h.fits a (FaultyMap.mem_takeArrivals (c := c) (.inl ha)))
    (s.maps.foldl (fun n st => n + st.pendingArrivals) 0 - 1)
  rw [inner, answers] at still
  refine ⟨s₂, _, ?_, still, rfl, plan, rfl, fun slots => ?_⟩
  · rw [MapHandle.write_deliver h.behind (pendingArrivals_pos h.behind), ← hf₁, Action.run_bind,
      run]
  · rw [← scheduled]
    refine FaultyMap.schedule_congr ?_ ?_ slots <;> rfl

/-! ## One slot -/

/-- The plain map behind is written to, or refuses it. -/
theorem writeFaulty (h : s.Arriving m b x f) (key : Bytes) (c : Change) :
    ∃ s' plan, (b.writeFaulty key c s = .ok (f.inner.table.get? key) s' ∧
        s'.Arriving m b x
          { f with inner := { f.inner with table := (change f.inner.table key c).2 }, plan } ∧
        plan.write = f.plan.write ∧
        (f.plan.write = none ∨ f.plan.writeAfter = plan.writeAfter + 1)) ∨
      ∃ fault, b.writeFaulty key c s = .error fault s' ∧ s'.Arriving m b x { f with plan } ∧
        f.Refuses key c fault := by
  have written : ∀ answer f', f.write key c = (answer, f') →
      b.writeFaulty key c s = (MonadExcept.ofExcept answer : Action _) (s.set b (.faulty f')) := by
    intro answer f' eq
    unfold MapHandle.writeFaulty
    simp only [Action.run_bind, Action.run_state h.behind, Action.run_setState, eq]
  obtain ⟨plan, next, reads, coming, write, after⟩ | ⟨fault, write, after, next⟩ :=
    FaultyMap.nextWrite_cases h.coming
  · cases checked : checkChange f.inner.keyType f.inner.valueType key c with
    | ok _ =>
      have made : f.inner.write key c =
          .ok (f.inner.table.get? key, { f.inner with table := (change f.inner.table key c).2 }) :=
        PlainMap.write_eq_ok.2 ⟨h.behindOpen, checked, rfl, rfl⟩
      have still := h.rebehind
        { f with inner := { f.inner with table := (change f.inner.table key c).2 }, plan }
        ⟨_, rfl, PlainMap.order_change ..⟩ reads coming fun _ ha => ha
      refine ⟨_, plan, .inl ⟨written (.ok _) _ ?_, still, write, after⟩⟩
      unfold FaultyMap.write
      simp only [next, made]
    | error cause =>
      have refused : f.inner.write key c = .error cause := by
        simp [PlainMap.write, PlainMap.checkOpen, h.behindOpen, checked, bind, Except.bind]
      have still := h.rebehind { f with plan } ⟨f.inner.table, rfl, rfl⟩ reads coming
        fun _ ha => ha
      refine ⟨_, plan, .inr ⟨.error cause, written (.error (.error cause)) { f with plan } ?_,
        still, .inr ⟨cause, rfl, checked⟩⟩⟩
      unfold FaultyMap.write
      simp only [next, refused]
  · have still := h.rebehind f ⟨f.inner.table, rfl, rfl⟩ rfl rfl fun _ ha => ha
    refine ⟨_, f.plan, .inr ⟨fault, written (.error fault) f ?_, still, .inl ⟨write, after⟩⟩⟩
    unfold FaultyMap.write
    simp only [next]

/-- A slot is dropped by its number. -/
theorem dropSlot (h : s.Arriving m b x f) (key : Bytes) (seq : Nat) :
    ∃ s', m.dropSlot key seq s = .ok (x.buffer.eraseUnchanged key seq).1 s' ∧
      s'.Arriving m b { x with buffer := (x.buffer.eraseUnchanged key seq).2 } f := by
  have lawful := h.lawful_slots
  refine ⟨_, ?_, h.rebuffer (h.filled.drop key seq)⟩
  unfold MapHandle.dropSlot
  rw [Action.run_bind, Action.run_state h.state]
  simp only [MapState.buffer?, Action.run_bind, Action.run_modifyState _ h.state]
  rfl

/-- One slot is merged while a batch arrives: its change is made to the plain
map behind and it is dropped, unless its key was written to since it was
copied; or that map refuses the write and the slot stays. -/
theorem mergeSlot {key : Bytes} {slot : Slot} (h : s.Arriving m b x f)
    (waiting : x.buffer.Waiting since ((key, slot) :: left) arrived) (stats : MergeStats) :
    ∃ s' w f', s'.Arriving m b { x with buffer := w } f' ∧
      (∀ slots, f'.schedule slots = (f.takeArrivals slot.change).2.schedule slots) ∧
      f'.answers = f.answers ++ (answersTo (x.buffer.overTable f.inner.table)
        ((f.takeArrivals slot.change).1.map Arrival.entry)).map .ok ∧
      ((∃ stats', m.mergeSlot x.toFront stats (key, slot) s = .ok stats' s' ∧
          stats'.total = stats.total + 1 ∧
          stats'.superseded = stats.superseded + (last? x.keyType.compare
            (arrived ++ (f.takeArrivals slot.change).1.map Arrival.entry) key).isSome.toNat ∧
          w.Waiting since left (arrived ++ (f.takeArrivals slot.change).1.map Arrival.entry) ∧
          f'.inner.table = (change f.inner.table key slot.change).2 ∧
          f'.plan.write = f.plan.write ∧
          (f.plan.write = none ∨ f.plan.writeAfter = f'.plan.writeAfter + 1)) ∨
        ∃ fault, m.mergeSlot x.toFront stats (key, slot) s =
            .error (x.toFront.mergeFault fault) s' ∧
          w.Waiting since ((key, slot) :: left)
            (arrived ++ (f.takeArrivals slot.change).1.map Arrival.entry) ∧
          f'.inner.table = f.inner.table ∧ f.Refuses key slot.change fault) := by
  have lawful := h.lawful_slots
  obtain ⟨s₁, f₁, entered, h₁, inner, plan, answers, scheduled⟩ := h.write_behind key slot.change
  have waiting₁ := waiting.insertAll ((f.takeArrivals slot.change).1.map Arrival.entry)
  obtain ⟨s₂, plan₂, ⟨run₂, h₂, write, after⟩ | ⟨fault, run₂, h₂, refuses⟩⟩ :=
    h₁.writeFaulty key slot.change
  · -- the change is made behind, and the slot dropped if it is still the copied one
    obtain ⟨s₃, run₃, h₃⟩ := h₂.dropSlot key slot.seq
    have lawful₁ := h₁.lawful_slots
    obtain ⟨dropped, waiting₃⟩ := waiting₁.drop
    have run : m.mergeSlot x.toFront stats (key, slot) s = .ok
        (if (last? x.keyType.compare (arrived ++ (f.takeArrivals slot.change).1.map Arrival.entry)
            key).isNone
          then stats.apply slot.change else (stats.apply slot.change).supersede) s₃ := by
      unfold MapHandle.mergeSlot
      simp only [Action.run_bind, Action.run_pendingArrivals, Action.run_attempt, h.backing,
        entered, run₂, run₃]
      rw [dropped, show (x.buffer.insertAll _).slots.order = x.keyType.compare from h₁.slots]
      rfl
    refine ⟨s₃, _, _, h₃, fun slots => ?schedule, answers, .inl ⟨_, run, ?total, ?superseded,
      waiting₃, by rw [inner], by rw [write, plan], by rwa [plan] at after⟩⟩
    case schedule =>
      rw [← scheduled]
      refine FaultyMap.schedule_congr ?_ ?_ slots <;> rfl
    case total =>
      split
      · exact MergeStats.total_apply stats slot.change
      · exact MergeStats.total_apply stats slot.change
    case superseded =>
      cases last? x.keyType.compare _ key with
      | none => exact MergeStats.superseded_apply stats slot.change
      | some _ => exact congrArg (· + 1) (MergeStats.superseded_apply stats slot.change)
  · have refused : f.Refuses key slot.change fault := by
      unfold FaultyMap.Refuses at refuses ⊢
      rwa [inner, plan] at refuses
    refine ⟨s₂, _, _, h₂, fun slots => ?_, answers,
      .inr ⟨fault, ?_, waiting₁, by rw [inner], refused⟩⟩
    · rw [← scheduled]
      refine FaultyMap.schedule_congr ?_ ?_ slots <;> rfl
    · unfold MapHandle.mergeSlot
      simp only [Action.run_bind, Action.run_pendingArrivals, Action.run_attempt, h.backing,
        entered, run₂]
      cases fault <;> rfl

end Arriving

end Store

end MapStore
