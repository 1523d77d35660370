/-
MapStore.Proofs.Reading — what readers leave of a store.

In a store that is laid out as an engine does it, every map is in memory,
direct, or over a direct map. A look-up tells the meter of the map, if the map
has one, and nothing else comes of it; counts and listings leave the store as
it is.

Below a faulty map a reader may end anywhere, so nothing is said of one here.
-/
import MapStore.Proofs.Evaluating
import MapStore.Proofs.Layout

namespace MapStore.Store

variable {s : Store} {m b : MapHandle} {d : DirectMap} {st : MapState}

/-- Every map is in memory, direct, or over a direct map. -/
theorem Layout.kinds (h : s.Layout) (state : s.maps[m.index]? = some st) :
    (∃ p, st = .memory p) ∨ (∃ d, st = .direct d) ∨
      ∃ front d, st.role = .over front ∧ front.backing.index < m.index ∧
        s.maps[front.backing.index]? = some (.direct d) := by
  have role := role?_of_maps state
  cases st with
  | memory p => exact .inl ⟨p, rfl⟩
  | direct d => exact .inr (.inl ⟨d, rfl⟩)
  | faulty f => exact absurd role (h.faultless m)
  | buffered x =>
    obtain ⟨below, y, base, -⟩ := h.below m x.toFront role
    obtain ⟨d, base, -⟩ := direct_of_role? base
    exact .inr (.inr ⟨x.toFront, d, rfl, below, base⟩)
  | adaptive a =>
    obtain ⟨below, y, base, -⟩ := h.below m a.toFront role
    obtain ⟨d, base, -⟩ := direct_of_role? base
    exact .inr (.inr ⟨a.toFront, d, rfl, below, base⟩)

/-! ## Telling meters -/

/-- The meters with the one of the map changed; maps that are not adaptive have
none. -/
def measured (s : Store) (m : MapHandle) (f : AccessMeter → AccessMeter) : List AccessMeter :=
  (s.profile? m).elim s.meters fun p => s.meters.modify p.meter.index f

/-- The store once the meter of the map was told. -/
def told (s : Store) (m : MapHandle) (f : AccessMeter → AccessMeter) : Store :=
  { s with meters := s.measured m f }

theorem measured_id (s : Store) (m : MapHandle) : s.measured m id = s.meters := by
  unfold measured
  cases s.profile? m with
  | none => rfl
  | some p => exact List.modify_id ..

theorem measured_plain (state : s.maps[m.index]? = some st) (plain : st.profile? = none)
    (f : AccessMeter → AccessMeter) : s.measured m f = s.meters := by
  simp [measured, profile?, state, plain]

theorem measured_adaptive {a : AdaptiveMap} (state : s.maps[m.index]? = some (.adaptive a))
    (f : AccessMeter → AccessMeter) : s.measured m f = s.meters.modify a.meter.index f := by
  simp [measured, profile?, state, MapState.profile?]

theorem measured_none (missing : s.maps[m.index]? = none) (f : AccessMeter → AccessMeter) :
    s.measured m f = s.meters := by
  simp [measured, profile?, missing]

theorem told_plain (state : s.maps[m.index]? = some st) (plain : st.profile? = none)
    (f : AccessMeter → AccessMeter) : s.told m f = s := by
  rw [told, measured_plain state plain]

theorem told_adaptive {a : AdaptiveMap} (state : s.maps[m.index]? = some (.adaptive a))
    (f : AccessMeter → AccessMeter) :
    s.told m f = { s with meters := s.meters.modify a.meter.index f } := by
  rw [told, measured_adaptive state]

theorem told_none (missing : s.maps[m.index]? = none) (f : AccessMeter → AccessMeter) :
    s.told m f = s := by
  rw [told, measured_none missing]

/-! ## Readers -/

/-- What is done with an answer is done without the store. -/
theorem after_map {α β : Type} (a : Action α) (f : α → β) (s : Store) :
    (do return f (← a) : Action β).after s = a.after s := by
  obtain ⟨r, run⟩ | ⟨fault, run⟩ := Action.ends a s
  · rw [Action.after_bind_of_ok run]
    rfl
  · rw [Action.after_bind_of_error run]

/-- A direct map answers readers and stays as it is. -/
theorem after_get_direct (base : s.maps[b.index]? = some (.direct d)) (key : Bytes) :
    (b.get key).after s = s := by
  rw [Action.after_of_eq (MapHandle.get_direct base key), Action.after_lift]

theorem after_entries_direct (base : s.maps[b.index]? = some (.direct d)) :
    b.entries.after s = s := by
  rw [Action.after_of_eq (MapHandle.entries_direct base), Action.after_lift]

theorem after_size_direct (base : s.maps[b.index]? = some (.direct d)) : b.size.after s = s := by
  rw [Action.after_of_eq (MapHandle.size_direct base), Action.after_lift]

theorem after_contains_direct (base : s.maps[b.index]? = some (.direct d)) (key : Bytes) :
    (b.contains key).after s = s := by
  have plain : ∀ a, MapState.direct d ≠ .adaptive a := fun a eq => by cases eq
  rw [Action.after_of_eq (MapHandle.contains_of_get base plain key),
    after_map (b.get key) Option.isSome, after_get_direct base]

/-- A look-up tells the map's own meter. -/
theorem after_get (layout : s.Layout) (m : MapHandle) (key : Bytes) :
    (m.get key).after s = s.told m .recordRead := by
  cases state : s.maps[m.index]? with
  | none => rw [Action.after_of_error (MapHandle.get_none state key), told_none state]
  | some st =>
    obtain ⟨p, rfl⟩ | ⟨d, rfl⟩ | ⟨front, d, above, below, base⟩ := layout.kinds state
    · rw [told_plain state rfl, Action.after_of_eq (MapHandle.get_memory state key),
        Action.after_lift]
    · rw [told_plain state rfl, after_get_direct state]
    · obtain ⟨x, rfl, rfl⟩ | ⟨a, rfl, rfl⟩ := MapState.cases_of_role above
      · rw [told_plain state rfl]
        cases closed : x.closed with
        | true => exact Action.after_of_error (MapHandle.get_closed state closed key)
        | false =>
          rw [Action.after_of_eq (MapHandle.get_buffered state closed below key)]
          cases x.buffer.get? key with
          | some change => rfl
          | none => exact after_get_direct base key
      · rw [told_adaptive state, Action.after_of_eq (MapHandle.get_adaptive state below key)]
        cases a.buffer.bind (·.get? key) with
        | some change => rfl
        | none =>
          exact after_get_direct
            (s := { s with meters := s.meters.modify a.meter.index .recordRead }) base key

theorem after_contains (layout : s.Layout) (m : MapHandle) (key : Bytes) :
    (m.contains key).after s = s.told m .recordRead := by
  cases state : s.maps[m.index]? with
  | none => rw [Action.after_of_error (MapHandle.contains_none state key), told_none state]
  | some st =>
    by_cases plain : ∀ a, st ≠ .adaptive a
    · rw [Action.after_of_eq (MapHandle.contains_of_get state plain key),
        after_map (m.get key) Option.isSome, after_get layout]
    · simp only [ne_eq, not_forall, not_not] at plain
      obtain ⟨a, rfl⟩ := plain
      obtain ⟨below, x, role, -⟩ := layout.below m a.toFront (role?_of_maps state)
      obtain ⟨d, base, -⟩ := direct_of_role? role
      rw [Action.after_of_eq (MapHandle.contains_adaptive state below key), told_adaptive state]
      generalize eq : ({ s with meters := s.meters.modify a.meter.index .recordRead } : Store) = s₁
      have base₁ : s₁.maps[a.backing.index]? = some (.direct d) := eq ▸ base
      cases a.buffer with
      | none => exact after_contains_direct base₁ key
      | some w =>
        simp only
        cases w.get? key with
        | some change => rfl
        | none => rw [after_map (a.backing.get key) Option.isSome, after_get_direct base₁]

/-- A listing leaves the store. -/
theorem after_entries (layout : s.Layout) (m : MapHandle) : m.entries.after s = s := by
  cases state : s.maps[m.index]? with
  | none => exact Action.after_of_error (MapHandle.entries_none state)
  | some st =>
    obtain ⟨p, rfl⟩ | ⟨d, rfl⟩ | ⟨front, d, above, below, base⟩ := layout.kinds state
    · rw [Action.after_of_eq (MapHandle.entries_memory state), Action.after_lift]
    · exact after_entries_direct state
    · obtain ⟨x, rfl, rfl⟩ | ⟨a, rfl, rfl⟩ := MapState.cases_of_role above
      · cases closed : x.closed with
        | true => exact Action.after_of_error (MapHandle.entries_closed state closed)
        | false =>
          rw [Action.after_of_eq (MapHandle.entries_buffered state closed below),
            after_map x.backing.entries x.buffer.over, after_entries_direct base]
      · rw [Action.after_of_eq (MapHandle.entries_adaptive state below),
          after_map a.backing.entries fun entries => a.buffer.elim entries (·.over entries),
          after_entries_direct base]

theorem after_size (layout : s.Layout) (m : MapHandle) : m.size.after s = s := by
  cases state : s.maps[m.index]? with
  | none => exact Action.after_of_error (MapHandle.size_none state)
  | some st =>
    cases waiting : st.buffer? with
    | some w =>
      rw [Action.after_of_eq (MapHandle.size_of_buffer state waiting),
        after_map m.entries List.length, after_entries layout]
    | none =>
      obtain ⟨p, rfl⟩ | ⟨d, rfl⟩ | ⟨front, d, above, below, base⟩ := layout.kinds state
      · rw [Action.after_of_eq (MapHandle.size_memory state), Action.after_lift]
      · exact after_size_direct state
      · obtain ⟨x, rfl, rfl⟩ | ⟨a, rfl, rfl⟩ := MapState.cases_of_role above
        · cases waiting
        · rw [Action.after_of_eq (MapHandle.size_adaptive state waiting below),
            after_size_direct base]

theorem after_isEmpty (layout : s.Layout) (m : MapHandle) : m.isEmpty.after s = s :=
  (after_map m.size (· == 0) s).trans (after_size layout m)

end MapStore.Store
