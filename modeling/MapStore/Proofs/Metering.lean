/-
MapStore.Proofs.Metering — which calls a meter counts.

A meter counts the reads and the writes that callers make of its map, one for
each, whatever comes of them. What the engine does for itself, the merges, saves
and changes of mode, passes the direct maps below, and these have no meter.

All this is of a store that is laid out as an engine does it. Below a faulty map
a call may end anywhere.
-/
import MapStore.Proofs.UpkeepMoves
import MapStore.Proofs.Transparency

namespace MapStore

/-- A look-up counts as a read, a put or a removal as a write; counts and
listings do not count. -/
def Call.meter : Call → AccessMeter → AccessMeter
  | get _ | contains _ => .recordRead
  | put _ _ | remove _ => .recordWrite
  | size | isEmpty | entries => id

namespace Store

variable {s s' : Store} {m b : MapHandle} {st : MapState} {front : Front} {d : DirectMap}

/-! ## Calls -/

/-- A write tells the meter first, and what it changes then has none. -/
theorem meters_write (layout : s.Layout) (depth : Nat) (m : MapHandle) (key : Bytes)
    (c : Change) : ((m.write depth key c).after s).meters = s.measured m .recordWrite := by
  cases write_ends layout m depth key c with
  | refused run =>
    rw [Action.after_of_error run]
    rfl
  | memory _ _ run
  | direct _ _ run
  | buffered _ _ _ _ _ _ run =>
    rw [Action.after_of_ok run]
    rfl

/-- A call tells the map's own meter, and no other, whatever comes of it. -/
theorem meters_call (layout : s.Layout) (c : Call) (m : MapHandle) :
    ((c.perform m).after s).meters = s.measured m c.meter := by
  cases c with
  | get key =>
    exact congrArg Store.meters ((after_map _ _ s).trans (after_get layout m key))
  | contains key =>
    exact congrArg Store.meters ((after_map _ _ s).trans (after_contains layout m key))
  | size =>
    exact (congrArg Store.meters ((after_map _ _ s).trans (after_size layout m))).trans
      (measured_id s m).symm
  | isEmpty =>
    exact (congrArg Store.meters ((after_map _ _ s).trans (after_isEmpty layout m))).trans
      (measured_id s m).symm
  | entries =>
    exact (congrArg Store.meters ((after_map _ _ s).trans (after_entries layout m))).trans
      (measured_id s m).symm
  | put key value =>
    exact (congrArg Store.meters (after_map (m.put key value) Answer.value s)).trans
      (meters_write layout _ m key (.value value))
  | remove key =>
    exact (congrArg Store.meters (after_map (m.remove key) Answer.value s)).trans
      (meters_write layout _ m key .tombstone)

/-! ## Upkeep -/

/-- Maps stand on direct maps, and no writes arrive from elsewhere. -/
theorem Layout.flat (layout : s.Layout) : s.Flat := by
  intro x st state y reached st' state'
  obtain ⟨front, above, rfl⟩ : ∃ front, st.role = .over front ∧ y = front.backing := by
    cases st with
    | buffered m => exact ⟨_, rfl, List.mem_singleton.1 reached⟩
    | adaptive m => exact ⟨_, rfl, List.mem_singleton.1 reached⟩
    | faulty f => exact absurd (role?_of_maps state) (layout.faultless x)
    | memory _ | direct _ => cases reached
  obtain ⟨d, rests⟩ := layout.rests_over state above
  rw [rests.base] at state'
  cases state'
  rfl

/-- Something that leaves the layout and the meters, and then something of the
direct map below that no meter counts. -/
theorem meters_then_below {α β : Type} {first : Action β} {a : Action α} (layout : s.Layout)
    (state : s.maps[m.index]? = some st) (above : st.role = .over front)
    (upkept : s.UpkeepMoves (first.after s)) (meters : (first.after s).meters = s.meters)
    (below : ∀ (s : Store) (d : DirectMap), s.maps[front.backing.index]? = some (.direct d) →
      (a.after s).meters = s.meters) :
    ((do let _ ← first; a : Action α).after s).meters = s.meters := by
  obtain ⟨r, run⟩ | ⟨fault, run⟩ := Action.ends first s
  · obtain ⟨st', state', above'⟩ := over_of_role?
      (show (first.after s).role? m = some (.over front) by
        rw [upkept.role?, role?_of_maps state, above])
    obtain ⟨d, rests⟩ := (upkept.layout layout).rests_over state' above'
    rw [Action.after_bind_of_ok run, below _ d rests.base, meters]
  · rw [Action.after_bind_of_error run, meters]

/-- A new window is one of the map's own meter. -/
theorem meters_resetWindow (m : MapHandle) (s : Store) :
    (m.resetWindow.after s).meters = s.measured m .reset := by
  unfold MapHandle.resetWindow
  cases state : s.maps[m.index]? with
  | none => rw [Action.after_bind_of_error (Action.run_state_none state), measured_none state]
  | some st =>
    rw [Action.after_bind_of_ok (Action.run_state state)]
    cases st with
    | adaptive a =>
      rw [measured_adaptive state]
      rfl
    | memory _ | direct _ | buffered _ | faulty _ => exact (measured_plain state rfl _).symm

/-! ## Closing -/

theorem meters_setClosed (m : MapHandle) (closed : Bool) (s : Store) :
    ((m.setClosed closed).after s).meters = s.meters := by
  unfold MapHandle.setClosed
  cases state : s.maps[m.index]? with
  | none => rw [Action.after_of_ok (Action.run_modifyState_none _ state)]
  | some st =>
    rw [Action.after_of_ok (Action.run_modifyState _ state)]
    rfl

theorem meters_close_direct (base : s.maps[b.index]? = some (.direct d)) :
    (b.close.after s).meters = s.meters := by
  rw [MapHandle.after_close_direct base]
  rfl

theorem meters_close_buffered {x : BufferedMap} (layout : s.Layout)
    (state : s.maps[m.index]? = some (.buffered x)) (below : x.backing.index < m.index) :
    (m.close.after s).meters = s.meters := by
  cases closed : x.closed with
  | true =>
    rw [Action.after_of_ok (MapHandle.close_closed state closed)]
  | false =>
    -- it is marked as closed first, and is open again if that fails
    have layout₁ := (Closes.marked true state).layout layout
    have state₁ : (s.set m (.buffered { x with closed := true })).maps[m.index]? = _ :=
      maps_set_self _ state
    have last := meters_then_below layout₁ state₁ rfl (merge_moves layout₁ m).1
      (meters_merge layout₁.flat m) fun _ _ => meters_close_direct
    rw [Action.after, MapHandle.close_buffered state closed below]
    obtain ⟨r, run⟩ | ⟨fault, run⟩ := Action.ends (do let _ ← m.merge; x.backing.close)
      (s.set m (.buffered { x with closed := true }))
    · simp only [run]
      exact last
    · cases fault with
      | error cause =>
        simp only [run]
        exact (meters_setClosed m false _).trans last
      | panic message =>
        simp only [run]
        exact last

theorem meters_close (layout : s.Layout) (m : MapHandle) :
    (m.close.after s).meters = s.meters := by
  cases state : s.maps[m.index]? with
  | none => rw [Action.after_of_error (MapHandle.close_none state)]
  | some st =>
    obtain ⟨p, rfl⟩ | ⟨d, rfl⟩ | ⟨front, d, above, below, base⟩ := layout.kinds state
    · rw [Action.after_of_ok (MapHandle.close_memory state)]
      rfl
    · exact meters_close_direct state
    · obtain ⟨x, rfl, rfl⟩ | ⟨a, rfl, rfl⟩ := MapState.cases_of_role above
      · exact meters_close_buffered layout state below
      · rw [Action.after, MapHandle.close_adaptive state below]
        exact meters_then_below layout state above (switchTo_moves layout m .direct)
          (meters_switchTo layout.flat m .direct) fun _ _ => meters_close_direct

end Store

end MapStore
