/-
MapStore.Proofs.Switching — what changing the mode of a map comes to.

A switch into buffered mode gives the map an empty buffer and lists it to be
merged; a switch out of it is a merge that succeeded, after which the map has
no buffer and is struck off the list. In every other case nothing becomes of
the mode: the map was in the mode already, its engine is gone, or the merge
failed, and then the merge is all that happened.

A step that switches still changes no map outside a closed set (`Confined`),
so what a tick does to its members can be followed one map at a time.
-/
import MapStore.Proofs.Frame
import MapStore.Tick

namespace MapStore

/-! ## Adaptive maps of the same outline -/

/-- A map with the outline of an adaptive map is one, and differs from it in
what it buffers alone. -/
theorem MapState.adaptive_of_outline {st : MapState} {a : AdaptiveMap}
    (h : st.outline = (MapState.adaptive a).outline) :
    ∃ buffer, st = .adaptive { a with buffer } ∧
      buffer.map WriteBuffer.outline = a.buffer.map WriteBuffer.outline := by
  cases st with
  | adaptive b =>
    simp only [outline, adaptive.injEq, AdaptiveMap.mk.injEq] at h
    obtain ⟨front, buffer, meter, live⟩ := h
    refine ⟨b.buffer, ?_, buffer⟩
    obtain ⟨frontB, bufferB, meterB, liveB⟩ := b
    simp_all
  | memory m => simp [outline] at h
  | direct m => simp [outline] at h
  | buffered m => simp [outline] at h
  | faulty m => simp [outline] at h

namespace AdaptiveMap

theorem mode_of_some (a : AdaptiveMap) (b : WriteBuffer) :
    ({ a with buffer := some b } : AdaptiveMap).mode = .buffered := rfl

theorem mode_of_none (a : AdaptiveMap) :
    ({ a with buffer := none } : AdaptiveMap).mode = .direct := rfl

end AdaptiveMap

namespace Store

/-- The store with a new window of one meter. -/
def rewound (s : Store) (h : MeterHandle) : Store :=
  { s with meters := s.meters.modify h.index .reset }

@[simp] theorem maps_rewound (s : Store) (h : MeterHandle) : (s.rewound h).maps = s.maps := rfl

/-- The store with other members in a live-set of buffers. -/
def withListed (s : Store) (h : LiveHandle) (buffered : LiveSet MergeUnit) : Store :=
  { s with live := s.live.modify h.index ({ · with buffered }) }

@[simp] theorem maps_withListed (s : Store) (h : LiveHandle) (buffered : LiveSet MergeUnit) :
    (s.withListed h buffered).maps = s.maps := rfl

@[simp] theorem meters_withListed (s : Store) (h : LiveHandle) (buffered : LiveSet MergeUnit) :
    (s.withListed h buffered).meters = s.meters := rfl

/-- The members of the other live-sets stay as they were. -/
theorem liveSets_withListed (s : Store) (h x : LiveHandle) (buffered : LiveSet MergeUnit)
    (alive : (s.liveSets h).alive = true) :
    (s.withListed h buffered).liveSets x =
      if h = x then { s.liveSets x with buffered } else s.liveSets x := by
  obtain ⟨i⟩ := h
  obtain ⟨j⟩ := x
  simp only [liveSets, withListed, List.getElem?_modify, LiveHandle.mk.injEq] at *
  by_cases same : i = j
  · subst same
    cases there : s.live[i]? with
    | none => simp [there, LiveSets.empty] at alive
    | some l => simp
  · simp [same]

@[simp] theorem liveSets_set (s : Store) (m : MapHandle) (st : MapState) (h : LiveHandle) :
    (s.set m st).liveSets h = s.liveSets h := rfl

end Store

namespace LiveHandle

theorem run_addBuffered (h : LiveHandle) (u : MergeUnit) (s : Store) :
    h.addBuffered u s = .ok ((s.liveSets h).buffered.insert u).1
      (s.withListed h ((s.liveSets h).buffered.insert u).2) := rfl

theorem run_removeBuffered (h : LiveHandle) (u : MergeUnit) (s : Store) :
    h.removeBuffered u s = .ok ((s.liveSets h).buffered.erase u).1
      (s.withListed h ((s.liveSets h).buffered.erase u).2) := rfl

end LiveHandle

namespace MapHandle

open Store

variable {m : MapHandle} {s : Store} {a : AdaptiveMap}

/-! ## Into buffered mode -/

/-- What comes of the attempt to enter buffered mode. -/
theorem switchToBuffered_cases (h : s.maps[m.index]? = some (.adaptive a)) :
    (a.mode = .buffered ∧ m.switchToBuffered s = .ok false s) ∨
    (a.mode = .direct ∧ (s.liveSets a.live).alive = false ∧
      m.switchToBuffered s = .error (.error .engineClosed) s) ∨
    (a.mode = .direct ∧ (s.liveSets a.live).alive = true ∧
      m.switchToBuffered s = .ok true
        ((s.withListed a.live ((s.liveSets a.live).buffered.insert (.map m)).2).set m
          (.adaptive { a with buffer := some (.empty a.keyType.compare) }))) := by
  unfold switchToBuffered AdaptiveMap.mode
  rw [Action.run_bind, Action.run_state h]
  cases buffer : a.buffer with
  | some b => simp [buffer]
  | none =>
    cases alive : (s.liveSets a.live).alive with
    | false => simp [buffer, alive]
    | true => simp [buffer, alive, LiveHandle.run_addBuffered]

/-! ## Out of buffered mode -/

/-- What comes of the attempt to leave buffered mode. -/
theorem switchToDirect_cases (h : s.maps[m.index]? = some (.adaptive a)) :
    (a.mode = .direct ∧ m.switchToDirect s = .ok false s) ∨
    (∃ fault, a.mode = .buffered ∧ m.merge s = .error fault (m.merge.after s) ∧
      m.switchToDirect s = .error fault (m.merge.after s)) ∨
    (∃ stats buffer, a.mode = .buffered ∧ m.merge s = .ok stats (m.merge.after s) ∧
      (m.merge.after s).maps[m.index]? = some (.adaptive { a with buffer }) ∧
      m.switchToDirect s = .ok true
        ((if (s.liveSets a.live).alive then
            (m.merge.after s).withListed a.live ((s.liveSets a.live).buffered.erase (.map m)).2
          else m.merge.after s).set m (.adaptive { a with buffer := none }))) := by
  unfold switchToDirect AdaptiveMap.mode
  rw [Action.run_bind, Action.run_state h]
  cases buffer : a.buffer with
  | none => simp [buffer]
  | some b =>
    refine .inr ?_
    obtain ⟨stats, run⟩ | ⟨fault, run⟩ := Action.ends m.merge s
    · refine .inr ⟨stats, ?_⟩
      have touched : s.Touches (fun _ => True) (m.merge.after s) :=
        frame_merge trivial fun _ _ _ _ _ _ => trivial
      obtain ⟨st', h', outline⟩ := touched.outline h
      obtain ⟨buffer', rfl, -⟩ := MapState.adaptive_of_outline outline
      have live : (m.merge.after s).liveSets a.live = s.liveSets a.live := by
        simp [liveSets, touched.live]
      refine ⟨buffer', rfl, run, h', ?_⟩
      cases alive : (s.liveSets a.live).alive with
      | false => simp [buffer, run, live, alive, Action.run_modifyState _ h']
      | true =>
        have h'' : ((m.merge.after s).withListed a.live
            ((s.liveSets a.live).buffered.erase (.map m)).2).maps[m.index]? = _ := h'
        simp [buffer, run, live, alive, LiveHandle.run_removeBuffered, Action.run_modifyState _ h'']
    · exact .inl ⟨fault, rfl, run, by simp [buffer, run]⟩

/-! ## The store after an attempt -/

/-- Whatever map is to enter buffered mode, it is adaptive and is given an empty
buffer that is listed, or nothing happens. -/
theorem after_switchToBuffered (m : MapHandle) (s : Store) :
    m.switchToBuffered.after s = s ∨ ∃ a, s.maps[m.index]? = some (.adaptive a) ∧
      a.mode = .direct ∧ (s.liveSets a.live).alive = true ∧
      m.switchToBuffered.after s =
        (s.withListed a.live ((s.liveSets a.live).buffered.insert (.map m)).2).set m
          (.adaptive { a with buffer := some (.empty a.keyType.compare) }) := by
  cases h : s.maps[m.index]? with
  | none =>
    rw [switchToBuffered, Action.after_bind_of_error (Action.run_state_none h)]
    exact .inl rfl
  | some st =>
    cases st with
    | adaptive a =>
      obtain ⟨-, run⟩ | ⟨-, -, run⟩ | ⟨mode, alive, run⟩ := switchToBuffered_cases h
      · exact .inl (Action.after_of_ok run)
      · exact .inl (Action.after_of_error run)
      · exact .inr ⟨a, rfl, mode, alive, Action.after_of_ok run⟩
    | memory _ | direct _ | buffered _ | faulty _ =>
      rw [switchToBuffered, Action.after_bind_of_ok (Action.run_state h)]
      exact .inl rfl

/-- Whatever map is to leave buffered mode, nothing happens, or a merge that
fails, or one after which the map has no buffer and is struck off the list. -/
theorem after_switchToDirect (m : MapHandle) (s : Store) :
    m.switchToDirect.after s = s ∨ m.switchToDirect.after s = m.merge.after s ∨
      ∃ a stats buffer, s.maps[m.index]? = some (.adaptive a) ∧
        m.merge s = .ok stats (m.merge.after s) ∧
        (m.merge.after s).maps[m.index]? = some (.adaptive { a with buffer }) ∧
        m.switchToDirect.after s = (if (s.liveSets a.live).alive then
            (m.merge.after s).withListed a.live ((s.liveSets a.live).buffered.erase (.map m)).2
          else m.merge.after s).set m (.adaptive { a with buffer := none }) := by
  cases h : s.maps[m.index]? with
  | none =>
    rw [switchToDirect, Action.after_bind_of_error (Action.run_state_none h)]
    exact .inl rfl
  | some st =>
    cases st with
    | adaptive a =>
      obtain ⟨-, run⟩ | ⟨fault, -, -, run⟩ | ⟨stats, buffer, -, merged, h', run⟩ :=
        switchToDirect_cases h
      · exact .inl (Action.after_of_ok run)
      · exact .inr (.inl (Action.after_of_error run))
      · exact .inr (.inr ⟨a, stats, buffer, rfl, merged, h', Action.after_of_ok run⟩)
    | memory _ | direct _ | buffered _ | faulty _ =>
      rw [switchToDirect, Action.after_bind_of_ok (Action.run_state h)]
      exact .inl rfl

/-- A new window is one of the meter of an adaptive map. -/
theorem after_resetWindow (m : MapHandle) (s : Store) :
    m.resetWindow.after s = s ∨ ∃ a, s.maps[m.index]? = some (.adaptive a) ∧
      m.resetWindow.after s = s.rewound a.meter := by
  cases h : s.maps[m.index]? with
  | none =>
    rw [resetWindow, Action.after_bind_of_error (Action.run_state_none h)]
    exact .inl rfl
  | some st =>
    rw [resetWindow, Action.after_bind_of_ok (Action.run_state h)]
    cases st with
    | adaptive a => exact .inr ⟨a, rfl, rfl⟩
    | memory _ | direct _ | buffered _ | faulty _ => exact .inl rfl

end MapHandle

/-- Changing the mode of a map tells no meter of anything. -/
theorem Store.meters_switchTo {s : Store} (flat : s.Flat) (m : MapHandle) (target : MapMode) :
    ((Tick.switchTo m target).after s).meters = s.meters := by
  unfold Tick.switchTo
  cases target with
  | buffered =>
    obtain same | ⟨a, -, -, -, entered⟩ := m.after_switchToBuffered s
    · rw [same]
    · rw [entered]
      rfl
  | direct =>
    obtain same | failed | ⟨a, stats, buffer, -, -, -, left⟩ := m.after_switchToDirect s
    · rw [same]
    · rw [failed, meters_merge flat m]
    · rw [left, meters_set]
      split <;> exact meters_merge flat m

end MapStore
