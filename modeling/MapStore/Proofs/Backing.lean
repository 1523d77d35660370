/-
MapStore.Proofs.Backing — what calls of a plain map come to.

A backing is a map that behaves as a plain sorted map, except that a call may
be refused and then has no effect: an in-memory map, a direct map, or a faulty
map at which no writes arrive. Whatever kind it is and however long its plan,
each of its calls either answers what the plain map inside answers, and makes
the change if it is a write, or ends with a fault and leaves the contents.
Nothing else in the store is changed but the disk (`Touches`).
-/
import MapStore.Proofs.Frame

namespace MapStore

/-- The plain map inside a map that stands on no other. -/
def MapState.plain? : MapState → Option PlainMap
  | memory p => some p
  | direct d => some d.toPlainMap
  | faulty f => some f.inner
  | _ => none

namespace Store

variable {s s' : Store} {b : MapHandle} {p : PlainMap}

/-- An open plain map at which no writes arrive. -/
structure Backing (s : Store) (b : MapHandle) (p : PlainMap) : Prop where
  isOpen : p.closed = false
  state : ∃ st, s.maps[b.index]? = some st ∧ st.plain? = some p ∧ st.reaches = []

namespace Backing

theorem of_set {st : MapState} (st' : MapState) (isOpen : p.closed = false)
    (h : s.maps[b.index]? = some st) (plain : st'.plain? = some p)
    (reaches : st'.reaches = []) : (s.set b st').Backing b p :=
  ⟨isOpen, st', maps_set_self st' h, plain, reaches⟩

/-- The map is one of the three kinds. -/
theorem kinds (h : s.Backing b p) :
    s.maps[b.index]? = some (.memory p) ∨
      (∃ d : DirectMap, d.toPlainMap = p ∧ s.maps[b.index]? = some (.direct d)) ∨
      ∃ f : FaultyMap, f.inner = p ∧ s.maps[b.index]? = some (.faulty f) ∧
        (MapState.faulty f).reaches = [] := by
  obtain ⟨st, state, plain, reaches⟩ := h.state
  cases st with
  | memory q => exact .inl (Option.some.inj plain ▸ state)
  | direct d => exact .inr (.inl ⟨d, Option.some.inj plain, state⟩)
  | faulty f => exact .inr (.inr ⟨f, Option.some.inj plain, state, reaches⟩)
  | buffered _ => cases plain
  | adaptive _ => cases plain

/-- The map alone reaches nothing else. -/
theorem closed (h : s.Backing b p) : s.Closed (· = b) := by
  obtain ⟨st, state, -, reaches⟩ := h.state
  rintro m rfl st' state' x hx
  rw [state] at state'
  cases state'
  rw [reaches] at hx
  cases hx

/-- The map is there as long as it is left alone. -/
theorem congr (h : s.Backing b p) (same : s'.maps[b.index]? = s.maps[b.index]?) :
    s'.Backing b p := by
  obtain ⟨st, state, rest⟩ := h.state
  exact ⟨h.isOpen, st, same.trans state, rest⟩

/-! ## Reading -/

/-- A call that asks the plain map inside, after the plan was consulted. -/
theorem asks {α : Type} {a : Action α} {r : α} (h : s.Backing b p)
    (q : PlainMap → Except StoreError α) (count : CallCounts → CallCounts) (answers : q p = .ok r)
    (memory : s.maps[b.index]? = some (.memory p) → a s = Action.lift (q p) s)
    (direct : ∀ d : DirectMap, s.maps[b.index]? = some (.direct d) →
      a s = Action.lift (q d.toPlainMap) s)
    (faulty : ∀ f : FaultyMap, s.maps[b.index]? = some (.faulty f) →
      a s = (do Action.enterFaulty b f f.plan.read count; Action.lift (q f.inner)) s) :
    a.Answers s r (·.Backing b p) := by
  obtain state | ⟨d, rfl, state⟩ | ⟨f, rfl, state, reaches⟩ := h.kinds
  · exact .of_ok (by rw [memory state, answers]; rfl) h
  · exact .of_ok (by rw [direct d state, answers]; rfl) h
  · have plain : (s.set b (.faulty { f with
        plan := (f.plan.next f.plan.read).2, calls := count f.calls })).Backing b f.inner :=
      of_set _ h.isOpen state rfl reaches
    refine .congr (faulty f state) ?_
    rw [answers]
    cases consulted : (f.plan.next f.plan.read).1 with
    | none => exact .of_ok (by simp [Action.run_enterFaulty, consulted]) plain
    | some fault =>
      exact .of_error (by rw [Action.run_bind, Action.run_enterFaulty, consulted]) plain

theorem get (h : s.Backing b p) (key : Bytes) :
    (b.get key).Answers s (p.table.get? key) (·.Backing b p) := by
  exact h.asks (·.get key) (fun c => { c with get := c.get + 1 }) (PlainMap.get_open h.isOpen key)
    (MapHandle.get_memory · key) (fun _ => (MapHandle.get_direct · key))
    fun _ => (MapHandle.get_faulty · key)

theorem entries (h : s.Backing b p) : b.entries.Answers s p.table.toList (·.Backing b p) := by
  exact h.asks (·.entries) (fun c => { c with entries := c.entries + 1 })
    (PlainMap.entries_open h.isOpen) MapHandle.entries_memory (fun _ => MapHandle.entries_direct)
    fun _ => MapHandle.entries_faulty

theorem size (h : s.Backing b p) : b.size.Answers s p.table.size (·.Backing b p) := by
  exact h.asks (·.size) (fun c => { c with size := c.size + 1 })
    (PlainMap.size_open h.isOpen) MapHandle.size_memory (fun _ => MapHandle.size_direct)
    fun _ => MapHandle.size_faulty

/-- Asking a plain map whether it has a key is asking for its value. -/
theorem contains (h : s.Backing b p) (key : Bytes) :
    (b.contains key).Answers s (p.table.get? key).isSome (·.Backing b p) := by
  obtain ⟨st, state, plain, -⟩ := h.state
  refine .congr (MapHandle.contains_of_get state ?_ key) (h.get key).map
  rintro a rfl
  cases plain

/-! ## Writing and saving -/

/-- A write makes its change or leaves the contents. -/
theorem write (h : s.Backing b p) (depth : Nat) (key : Bytes) (c : Change) :
    (∃ s', s'.Backing b { p with table := (PlainMap.change p.table key c).2 } ∧
      PlainMap.checkChange p.keyType p.valueType key c = .ok () ∧
      b.write depth key c s = .ok (p.table.get? key) s') ∨
    ∃ fault s', s'.Backing b p ∧ b.write depth key c s = .error fault s' := by
  obtain state | ⟨d, rfl, state⟩ | ⟨f, rfl, state, reaches⟩ := h.kinds
  · rw [MapHandle.write_memory state]
    cases made : p.write key c with
    | error cause => exact .inr ⟨_, s, h, rfl⟩
    | ok made' =>
      obtain ⟨-, checked, answer, rest⟩ := PlainMap.write_eq_ok.1 made
      refine .inl ⟨_, of_set (.memory made'.2) h.isOpen state (rest ▸ rfl) rfl, checked, ?_⟩
      rw [← answer]
  · rw [MapHandle.write_direct state]
    cases made : d.write key c with
    | error cause => exact .inr ⟨_, s, h, rfl⟩
    | ok made' =>
      obtain ⟨plain, made, rest⟩ := DirectMap.write_eq_ok.1 made
      obtain ⟨-, checked, answer, rfl⟩ := PlainMap.write_eq_ok.1 made
      refine .inl ⟨_, of_set (.direct made'.2) h.isOpen state ?_ rfl, checked, ?_⟩
      · rw [rest]
        rfl
      · rw [← answer]
  · obtain ⟨batch, left⟩ := MapState.no_arrivals reaches c
    rw [MapHandle.write_faulty state batch]
    have inner : (f.takeArrivals c).2.inner = f.inner := by
      cases c <;> rfl
    -- the map that counted the call and took its empty batch
    obtain ⟨f', hf'⟩ : ∃ f', f' = { (f.takeArrivals c).2 with
      calls := FaultyMap.countWrite f.calls c } := ⟨_, rfl⟩
    have inner' : f'.inner = f.inner := by rw [hf', ← inner]
    have left' : f'.onPut.flatten ++ f'.onRemove.flatten = [] := by rw [hf']; exact left
    rw [← hf']
    have state' := maps_set_self (.faulty f') state
    unfold MapHandle.writeFaulty
    rw [Action.run_bind, Action.run_state state']
    obtain ⟨fault, plan, run⟩ | ⟨previous, made, plan, run', run⟩ := f'.write_cases key c
    · refine .inr ⟨fault, _, of_set (.faulty { f' with plan }) h.isOpen state ?_ ?_, ?_⟩
      · exact congrArg some inner'
      · simp [MapState.reaches, left']
      · simp [run]
    · rw [inner'] at run'
      obtain ⟨-, checked, answer, rfl⟩ := PlainMap.write_eq_ok.1 run'
      refine .inl ⟨_, of_set (.faulty { f' with plan, inner := _ }) h.isOpen state rfl ?_,
        checked, ?_⟩
      · simp [MapState.reaches, left']
      · simp [run, answer]

/-- A save leaves the contents. -/
theorem save (h : s.Backing b p) : (b.save.after s).Backing b p := by
  obtain state | ⟨d, rfl, state⟩ | ⟨f, rfl, state, reaches⟩ := h.kinds
  · rw [Action.after_of_ok (MapHandle.save_memory state)]
    exact h
  · rw [MapHandle.after_save_direct state]
    obtain ⟨dirty, saved⟩ := d.save_map s.disk
    refine of_set (s := { s with disk := (d.save s.disk).2.2 }) _ h.isOpen state ?_ rfl
    rw [saved]
    rfl
  · rw [Action.after_of_eq (MapHandle.save_faulty state)]
    unfold Action.enterFaulty
    simp only [Action.after_bind_of_ok (Action.run_setState ..), Action.after_consult]
    exact of_set _ h.isOpen state rfl reaches

end Backing

end Store

end MapStore
