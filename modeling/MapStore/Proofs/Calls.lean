/-
MapStore.Proofs.Calls — what reads, writes, saves and closes come to.

A read of a plain map is refused or answered from its table; a map over another
answers what is buffered and asks the map below for the rest. A write of a plain
map is refused or makes its change; a direct map besides notes that it changed,
and a faulty map follows its plan first. A write into a buffer asks the backing
only if nothing is buffered for the key. A map over another is saved and closed
by merging first. Each is said once here, in the form in which the proofs about
whole calls use it.
-/
import MapStore.Proofs.Actions
import MapStore.Proofs.Overlay
import MapStore.Store.Saving

namespace MapStore

namespace PlainMap

variable {p : PlainMap}

/-! ## Open and closed plain maps -/

theorem checkOpen_open (h : p.closed = false) : p.checkOpen = .ok () := by
  simp [checkOpen, h]

/-- An open plain map answers from its table. -/
theorem get_open (h : p.closed = false) (key : Bytes) : p.get key = .ok (p.table.get? key) := by
  rw [get, checkOpen_open h]
  rfl

theorem size_open (h : p.closed = false) : p.size = .ok p.table.size := by
  rw [size, checkOpen_open h]
  rfl

theorem entries_open (h : p.closed = false) : p.entries = .ok p.table.toList := by
  rw [entries, checkOpen_open h]
  rfl

theorem checkOpen_closed (h : p.closed = true) : p.checkOpen = .error (.mapClosed p.name) := by
  simp [checkOpen, h]

/-- A closed plain map refuses readers and writers. -/
theorem get_closed (h : p.closed = true) (key : Bytes) :
    p.get key = .error (.mapClosed p.name) := by
  rw [get, checkOpen_closed h]
  rfl

theorem write_closed (h : p.closed = true) (key : Bytes) (c : Change) :
    p.write key c = .error (.mapClosed p.name) := by
  rw [write, checkOpen_closed h]
  rfl

theorem size_closed (h : p.closed = true) : p.size = .error (.mapClosed p.name) := by
  rw [size, checkOpen_closed h]
  rfl

theorem entries_closed (h : p.closed = true) : p.entries = .error (.mapClosed p.name) := by
  rw [entries, checkOpen_closed h]
  rfl

/-- A write that is not refused makes its change and answers what was there. -/
theorem write_eq_ok {m m' : PlainMap} {key : Bytes} {c : Change} {previous : Option Bytes} :
    m.write key c = .ok (previous, m') ↔
      m.closed = false ∧ checkChange m.keyType m.valueType key c = .ok () ∧
        previous = m.table.get? key ∧ m' = { m with table := (change m.table key c).2 } := by
  unfold write checkOpen
  cases m.closed with
  | true => simp [bind, Except.bind]
  | false =>
    cases checkChange m.keyType m.valueType key c with
    | error cause => simp [bind, Except.bind]
    | ok _ => simp [bind, Except.bind, pure, Except.pure, eq_comm]

end PlainMap

/-- A direct map notes that it changed, unless nothing was there to remove. -/
theorem DirectMap.write_eq_ok {m m' : DirectMap} {key : Bytes} {c : Change}
    {previous : Option Bytes} :
    m.write key c = .ok (previous, m') ↔
      ∃ plain, m.toPlainMap.write key c = .ok (previous, plain) ∧
        m' = { m with
          toPlainMap := plain
          dirty := m.dirty || (c != .tombstone || previous.isSome) } := by
  unfold write
  cases m.toPlainMap.write key c with
  | error cause => simp [bind, Except.bind]
  | ok made =>
    obtain ⟨answer, plain⟩ := made
    simp only [bind, Except.bind, pure, Except.pure, Except.ok.injEq, Prod.mk.injEq]
    constructor
    · rintro ⟨rfl, rfl⟩
      exact ⟨plain, ⟨rfl, rfl⟩, rfl⟩
    · rintro ⟨_, ⟨rfl, rfl⟩, rfl⟩
      exact ⟨rfl, rfl⟩

/-- Saving a direct map changes at most whether it is dirty. -/
theorem DirectMap.save_map (m : DirectMap) (d : Disk) :
    ∃ dirty, (m.save d).2.1 = { m with dirty } := by
  unfold save
  split
  · exact ⟨false, rfl⟩
  · split
    · split
      · exact ⟨false, rfl⟩
      · exact ⟨true, rfl⟩
    · exact ⟨m.dirty, rfl⟩

namespace FaultyMap

/-- A faulty map gives way to a fault, or makes the change as the plain map
inside does. -/
theorem write_cases (f : FaultyMap) (key : Bytes) (c : Change) :
    (∃ fault plan, f.write key c = (.error fault, { f with plan })) ∨
      ∃ previous inner plan, f.inner.write key c = .ok (previous, inner) ∧
        f.write key c = (.ok previous, { f with plan, inner }) := by
  simp only [write]
  cases (nextWrite f.plan).1 with
  | some fault => exact .inl ⟨fault, _, rfl⟩
  | none =>
    cases h : f.inner.write key c with
    | error cause => exact .inl ⟨.error cause, _, rfl⟩
    | ok made => exact .inr ⟨made.1, made.2, _, rfl, rfl⟩

theorem headD_append_flatten_tail {α : Type} (l : List (List α)) :
    l.headD [] ++ l.tail.flatten = l.flatten := by
  cases l <;> rfl

/-- What arrives with a change, and what is left to arrive, is among what was
to arrive. -/
theorem mem_takeArrivals {f : FaultyMap} {c : Change} {a : Arrival}
    (h : a ∈ (f.takeArrivals c).1 ∨
      a ∈ (f.takeArrivals c).2.onPut.flatten ++ (f.takeArrivals c).2.onRemove.flatten) :
    a ∈ f.onPut.flatten ++ f.onRemove.flatten := by
  cases c with
  | value bytes =>
    rw [← headD_append_flatten_tail f.onPut, List.append_assoc]
    exact List.mem_append.2 h
  | tombstone =>
    rw [← headD_append_flatten_tail f.onRemove, List.mem_append, List.mem_append]
    rw [List.mem_append] at h
    exact or_left_comm.1 h

end FaultyMap

/-- A call of a faulty map is counted, and ends with the fault that the plan
has for it. -/
theorem Action.run_enterFaulty (m : MapHandle) (f : FaultyMap) (setting : Option Fault)
    (count : CallCounts → CallCounts) (s : Store) :
    enterFaulty m f setting count s = match (f.plan.next setting).1 with
      | none => .ok () (s.set m (.faulty
          { f with plan := (f.plan.next setting).2, calls := count f.calls }))
      | some fault => .error fault (s.set m (.faulty
          { f with plan := (f.plan.next setting).2, calls := count f.calls })) := by
  unfold enterFaulty
  simp only [run_bind, run_setState]
  cases (f.plan.next setting).1 <;> rfl

namespace MapHandle

variable {m : MapHandle} {front : Front} {buffer : WriteBuffer} {key : Bytes} {c : Change}

/-- Over a buffered change, a write answers it and asks nobody. -/
theorem writeBuffered_of_some {old : Change} (h : buffer.get? key = some old) :
    m.writeBuffered front buffer key c = (do
      Action.lift (PlainMap.checkChange front.keyType front.valueType key c)
      Action.modifyState m (·.withBuffer (buffer.insert key c).2)
      return old.toOption) := by
  unfold writeBuffered WriteBuffer.resolve
  simp [h]

/-- With nothing buffered for the key, a write answers what the backing has. -/
theorem writeBuffered_of_none (h : buffer.get? key = none) :
    m.writeBuffered front buffer key c = (do
      Action.lift (PlainMap.checkChange front.keyType front.valueType key c)
      let hidden ← front.backing.get key
      Action.modifyState m (·.withBuffer (buffer.insert key c).2)
      return hidden) := by
  unfold writeBuffered WriteBuffer.resolve
  simp [h]

variable {s : Store} {depth : Nat}

/-! ## Reading, by the kind of the map -/

theorem get_none (h : s.maps[m.index]? = none) (key : Bytes) :
    m.get key s = .error (.error (.mapClosed "")) s := by
  rw [get, Action.run_bind, Action.run_state_none h]

theorem get_memory {p : PlainMap} (h : s.maps[m.index]? = some (.memory p)) (key : Bytes) :
    m.get key s = Action.lift (p.get key) s := by
  rw [get, Action.run_bind, Action.run_state h]

theorem get_direct {d : DirectMap} (h : s.maps[m.index]? = some (.direct d)) (key : Bytes) :
    m.get key s = Action.lift (d.toPlainMap.get key) s := by
  rw [get, Action.run_bind, Action.run_state h]

/-- An open direct map answers from its table. -/
theorem get_open {d : DirectMap} (h : s.maps[m.index]? = some (.direct d))
    (isOpen : d.closed = false) (key : Bytes) : m.get key s = .ok (d.table.get? key) s := by
  rw [get_direct h, PlainMap.get_open isOpen]
  rfl

theorem get_faulty {f : FaultyMap} (h : s.maps[m.index]? = some (.faulty f)) (key : Bytes) :
    m.get key s = (do
      Action.enterFaulty m f f.plan.read fun c => { c with get := c.get + 1 }
      Action.lift (f.inner.get key) : Action (Option Bytes)) s := by
  rw [get, Action.run_bind, Action.run_state h]

theorem get_closed {b : BufferedMap} (h : s.maps[m.index]? = some (.buffered b))
    (closed : b.closed = true) (key : Bytes) :
    m.get key s = .error (.error (.mapClosed b.name)) s := by
  rw [get, Action.run_bind, Action.run_state h]
  simp [closed]

/-- A buffered map answers what is buffered, or else asks the map below. -/
theorem get_buffered {b : BufferedMap} (h : s.maps[m.index]? = some (.buffered b))
    (isOpen : b.closed = false) (below : b.backing.index < m.index) (key : Bytes) :
    m.get key s = (match b.buffer.get? key with
      | some change => pure change.toOption
      | none => b.backing.get key : Action (Option Bytes)) s := by
  rw [get, Action.run_bind, Action.run_state h]
  cases found : b.buffer.get? key <;> simp [isOpen, below, found]

/-- An adaptive map tells its meter first. -/
theorem get_adaptive {a : AdaptiveMap} (h : s.maps[m.index]? = some (.adaptive a))
    (below : a.backing.index < m.index) (key : Bytes) :
    m.get key s = (match a.buffer.bind (·.get? key) with
      | some change => pure change.toOption
      | none => a.backing.get key : Action (Option Bytes))
        { s with meters := s.meters.modify a.meter.index .recordRead } := by
  rw [get, Action.run_bind, Action.run_state h]
  cases found : a.buffer.bind (·.get? key) <;> simp [below, found]

theorem contains_none (h : s.maps[m.index]? = none) (key : Bytes) :
    m.contains key s = .error (.error (.mapClosed "")) s := by
  rw [contains, Action.run_bind, Action.run_state_none h]

/-- Whether a map has a key is told by its value, except of adaptive maps. -/
theorem contains_of_get {st : MapState} (h : s.maps[m.index]? = some st)
    (plain : ∀ a, st ≠ .adaptive a) (key : Bytes) :
    m.contains key s = (do return (← m.get key).isSome : Action Bool) s := by
  rw [contains, Action.run_bind, Action.run_state h]
  cases st with
  | adaptive a => exact absurd rfl (plain a)
  | memory p => rfl
  | direct d => rfl
  | faulty f => rfl
  | buffered b => rfl

theorem contains_adaptive {a : AdaptiveMap} (h : s.maps[m.index]? = some (.adaptive a))
    (below : a.backing.index < m.index) (key : Bytes) :
    m.contains key s = (match a.buffer with
      | none => a.backing.contains key
      | some buffer => match buffer.get? key with
        | some change => pure change.toOption.isSome
        | none => do return (← a.backing.get key).isSome : Action Bool)
        { s with meters := s.meters.modify a.meter.index .recordRead } := by
  rw [contains, Action.run_bind, Action.run_state h]
  cases waiting : a.buffer with
  | none => simp [below, waiting]
  | some buffer => cases found : buffer.get? key <;> simp [waiting, found]

theorem entries_none (h : s.maps[m.index]? = none) :
    m.entries s = .error (.error (.mapClosed "")) s := by
  rw [entries, Action.run_bind, Action.run_state_none h]

theorem entries_memory {p : PlainMap} (h : s.maps[m.index]? = some (.memory p)) :
    m.entries s = Action.lift p.entries s := by
  rw [entries, Action.run_bind, Action.run_state h]

theorem entries_direct {d : DirectMap} (h : s.maps[m.index]? = some (.direct d)) :
    m.entries s = Action.lift d.toPlainMap.entries s := by
  rw [entries, Action.run_bind, Action.run_state h]

theorem entries_open {d : DirectMap} (h : s.maps[m.index]? = some (.direct d))
    (isOpen : d.closed = false) : m.entries s = .ok d.table.toList s := by
  rw [entries_direct h, PlainMap.entries_open isOpen]
  rfl

theorem entries_faulty {f : FaultyMap} (h : s.maps[m.index]? = some (.faulty f)) :
    m.entries s = (do
      Action.enterFaulty m f f.plan.read fun c => { c with entries := c.entries + 1 }
      Action.lift f.inner.entries : Action (List (Bytes × Bytes))) s := by
  rw [entries, Action.run_bind, Action.run_state h]

theorem entries_closed {b : BufferedMap} (h : s.maps[m.index]? = some (.buffered b))
    (closed : b.closed = true) : m.entries s = .error (.error (.mapClosed b.name)) s := by
  rw [entries, Action.run_bind, Action.run_state h]
  simp [closed]

/-- The entries below are listed with the buffered changes made to them. -/
theorem entries_buffered {b : BufferedMap} (h : s.maps[m.index]? = some (.buffered b))
    (isOpen : b.closed = false) (below : b.backing.index < m.index) :
    m.entries s = (do return b.buffer.over (← b.backing.entries) :
      Action (List (Bytes × Bytes))) s := by
  rw [entries, Action.run_bind, Action.run_state h]
  simp only [isOpen, Bool.false_eq_true, if_false, below, dif_pos]

theorem entries_adaptive {a : AdaptiveMap} (h : s.maps[m.index]? = some (.adaptive a))
    (below : a.backing.index < m.index) :
    m.entries s = (do
      let entries ← a.backing.entries
      return a.buffer.elim entries (·.over entries) : Action (List (Bytes × Bytes))) s := by
  rw [entries, Action.run_bind, Action.run_state h]
  simp only [below, dif_pos]

theorem size_none (h : s.maps[m.index]? = none) :
    m.size s = .error (.error (.mapClosed "")) s := by
  rw [size, Action.run_bind, Action.run_state_none h]

theorem size_memory {p : PlainMap} (h : s.maps[m.index]? = some (.memory p)) :
    m.size s = Action.lift p.size s := by
  rw [size, Action.run_bind, Action.run_state h]

theorem size_direct {d : DirectMap} (h : s.maps[m.index]? = some (.direct d)) :
    m.size s = Action.lift d.toPlainMap.size s := by
  rw [size, Action.run_bind, Action.run_state h]

theorem size_faulty {f : FaultyMap} (h : s.maps[m.index]? = some (.faulty f)) :
    m.size s = (do
      Action.enterFaulty m f f.plan.read fun c => { c with size := c.size + 1 }
      Action.lift f.inner.size : Action Nat) s := by
  rw [size, Action.run_bind, Action.run_state h]

/-- A map with a buffer counts what it lists. -/
theorem size_of_buffer {st : MapState} {buffer : WriteBuffer} (h : s.maps[m.index]? = some st)
    (waiting : st.buffer? = some buffer) :
    m.size s = (do return (← m.entries).length : Action Nat) s := by
  rw [size, Action.run_bind, Action.run_state h]
  cases st with
  | buffered b => rfl
  | adaptive a =>
    have some : a.buffer = some buffer := waiting
    simp [some]
  | memory p => cases waiting
  | direct d => cases waiting
  | faulty f => cases waiting

/-- Without a buffer an adaptive map counts what is below. -/
theorem size_adaptive {a : AdaptiveMap} (h : s.maps[m.index]? = some (.adaptive a))
    (none : a.buffer = none) (below : a.backing.index < m.index) :
    m.size s = a.backing.size s := by
  rw [size, Action.run_bind, Action.run_state h]
  simp [none, below]

/-! ## Writing, by the kind of the map -/

theorem write_none (h : s.maps[m.index]? = none) :
    m.write depth key c s = .error (.error (.mapClosed "")) s := by
  rw [write, Action.run_bind, Action.run_state_none h]

theorem write_closed {b : BufferedMap} (h : s.maps[m.index]? = some (.buffered b))
    (closed : b.closed = true) :
    m.write depth key c s = .error (.error (.mapClosed b.name)) s := by
  rw [write, Action.run_bind, Action.run_state h]
  simp [closed]

theorem write_memory {p : PlainMap} (h : s.maps[m.index]? = some (.memory p)) :
    m.write depth key c s = match p.write key c with
      | .ok (previous, p) => .ok previous (s.set m (.memory p))
      | .error cause => .error (.error cause) s := by
  rw [write, Action.run_bind, Action.run_state h]
  cases made : p.write key c with
  | error cause => simp [made]
  | ok _ => simp [made]

theorem write_direct {d : DirectMap} (h : s.maps[m.index]? = some (.direct d)) :
    m.write depth key c s = match d.write key c with
      | .ok (previous, d) => .ok previous (s.set m (.direct d))
      | .error cause => .error (.error cause) s := by
  rw [write, Action.run_bind, Action.run_state h]
  cases made : d.write key c with
  | error cause => simp [made]
  | ok _ => simp [made]

theorem write_buffered {b : BufferedMap} (h : s.maps[m.index]? = some (.buffered b))
    (isOpen : b.closed = false) :
    m.write depth key c s = m.writeBuffered b.toFront b.buffer key c s := by
  rw [write, Action.run_bind, Action.run_state h]
  simp [isOpen]

theorem write_adaptive {a : AdaptiveMap} (h : s.maps[m.index]? = some (.adaptive a))
    (below : a.backing.index < m.index) :
    m.write depth key c s = (match a.buffer with
      | some buffer => m.writeBuffered a.toFront buffer key c
      | none => a.backing.write depth key c)
        { s with meters := s.meters.modify a.meter.index .recordWrite } := by
  rw [write, Action.run_bind, Action.run_state h]
  simp only [Action.run_bind, Action.run_modifyMeter]
  cases a.buffer with
  | some buffer => rfl
  | none => simp [below]

/-- Where no writes arrive a faulty map counts the call and follows its plan. -/
theorem write_faulty {f : FaultyMap} (h : s.maps[m.index]? = some (.faulty f))
    (nothing : (f.takeArrivals c).1 = []) :
    m.write depth key c s = m.writeFaulty key c
      (s.set m (.faulty
        { (f.takeArrivals c).2 with calls := FaultyMap.countWrite f.calls c })) := by
  rw [write, Action.run_bind, Action.run_state h]
  have calls : (f.takeArrivals c).2.calls = f.calls := by
    cases c <;> rfl
  cases depth with
  | zero => simp [calls]
  | succ n => simp [nothing, calls]

/-! ## Saving, by the kind of the map -/

theorem save_none (h : s.maps[m.index]? = none) :
    m.save s = .error (.error (.mapClosed "")) s := by
  rw [save, Action.run_bind, Action.run_state_none h]

theorem save_memory {p : PlainMap} (h : s.maps[m.index]? = some (.memory p)) :
    m.save s = .ok () s := by
  rw [save, Action.run_bind, Action.run_state h]
  rfl

theorem save_direct {d : DirectMap} (h : s.maps[m.index]? = some (.direct d)) :
    m.save s = Action.lift (d.save s.disk).1
      (({ s with disk := (d.save s.disk).2.2 } : Store).set m (.direct (d.save s.disk).2.1)) := by
  rw [save, Action.run_bind, Action.run_state h]
  simp only [Action.run_bind, Action.run_disk, Action.run_setDisk, Action.run_setState]

theorem after_save_direct {d : DirectMap} (h : s.maps[m.index]? = some (.direct d)) :
    m.save.after s =
      ({ s with disk := (d.save s.disk).2.2 } : Store).set m (.direct (d.save s.disk).2.1) := by
  rw [Action.after_of_eq (save_direct h), Action.after_lift]

theorem save_faulty {f : FaultyMap} (h : s.maps[m.index]? = some (.faulty f)) :
    m.save s = Action.enterFaulty m f f.plan.save (fun c => { c with save := c.save + 1 }) s := by
  rw [save, Action.run_bind, Action.run_state h]

/-- A closed buffered map was saved when it was closed. -/
theorem save_closed {b : BufferedMap} (h : s.maps[m.index]? = some (.buffered b))
    (closed : b.closed = true) : m.save s = .ok () s := by
  rw [save, Action.run_bind, Action.run_state h]
  simp [closed]

theorem save_buffered {b : BufferedMap} (h : s.maps[m.index]? = some (.buffered b))
    (isOpen : b.closed = false) (below : b.backing.index < m.index) :
    m.save s = (do let _ ← m.merge; b.backing.save : Action Unit) s := by
  rw [save, Action.run_bind, Action.run_state h]
  simp only [isOpen, below, Bool.false_eq_true, if_false, dif_pos]

theorem save_adaptive {a : AdaptiveMap} (h : s.maps[m.index]? = some (.adaptive a))
    (below : a.backing.index < m.index) :
    m.save s = (do let _ ← m.merge; a.backing.save : Action Unit) s := by
  rw [save, Action.run_bind, Action.run_state h]
  simp only [below, dif_pos]

/-! ## Closing, by the kind of the map -/

theorem close_none (h : s.maps[m.index]? = none) :
    m.close s = .error (.error (.mapClosed "")) s := by
  rw [close, Action.run_bind, Action.run_state_none h]

theorem close_memory {p : PlainMap} (h : s.maps[m.index]? = some (.memory p)) :
    m.close s = .ok () (s.set m (.memory p.close)) := by
  rw [close, Action.run_bind, Action.run_state h]
  rfl

theorem close_direct {d : DirectMap} (h : s.maps[m.index]? = some (.direct d)) :
    m.close s = Action.lift (d.close s.disk).1
      (({ s with disk := (d.close s.disk).2.2 } : Store).set m (.direct (d.close s.disk).2.1)) := by
  rw [close, Action.run_bind, Action.run_state h]
  simp only [Action.run_bind, Action.run_disk, Action.run_setDisk, Action.run_setState]

theorem after_close_direct {d : DirectMap} (h : s.maps[m.index]? = some (.direct d)) :
    m.close.after s =
      ({ s with disk := (d.close s.disk).2.2 } : Store).set m (.direct (d.close s.disk).2.1) := by
  rw [Action.after_of_eq (close_direct h), Action.after_lift]

/-- Closing a closed buffered map does nothing. -/
theorem close_closed {b : BufferedMap} (h : s.maps[m.index]? = some (.buffered b))
    (closed : b.closed = true) : m.close s = .ok () s := by
  rw [close, Action.run_bind, Action.run_state h]
  simp [closed]

/-- A buffered map refuses writers while it is merged for the last time; it
opens again if that merge or the close of the map below is refused. -/
theorem close_buffered {b : BufferedMap} (h : s.maps[m.index]? = some (.buffered b))
    (isOpen : b.closed = false) (below : b.backing.index < m.index) :
    m.close s = match (do let _ ← m.merge; b.backing.close : Action Unit)
        (s.set m (.buffered { b with closed := true })) with
      | .ok _ s₂ => .ok () s₂
      | .error (.error cause) s₂ => .error (.error cause) ((m.setClosed false).after s₂)
      | .error (.panic message) s₂ => .error (.panic message) s₂ := by
  have marked : m.setClosed true s = .ok () (s.set m (.buffered { b with closed := true })) :=
    Action.run_modifyState _ h
  rw [close, Action.run_bind, Action.run_state h]
  simp only [isOpen, Bool.false_eq_true, if_false, below, dif_pos]
  rw [Action.run_bind, marked]
  simp only
  rw [Action.run_bind, Action.run_attempt]
  generalize (do let _ ← m.merge; b.backing.close : Action Unit) = last
  cases last (s.set m (.buffered { b with closed := true })) with
  | ok r s₂ => rfl
  | error fault s₂ =>
    cases fault with
    | error cause => rfl
    | panic message => rfl

theorem close_adaptive {a : AdaptiveMap} (h : s.maps[m.index]? = some (.adaptive a))
    (below : a.backing.index < m.index) :
    m.close s = (do let _ ← m.switchToDirect; a.backing.close : Action Unit) s := by
  rw [close, Action.run_bind, Action.run_state h]
  simp only [below, dif_pos]

end MapHandle

end MapStore
