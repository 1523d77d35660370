/-
MapStore.Proofs.BesideFaulty — saving maps beside some that misbehave.

A caller may have an engine open maps of its own making, which do what they like
when they are called. What holds of the other maps is told with in-memory maps in
their place (`tamed`): a merge or a save of another map ends as it does there
(`EndsAlike`), and a save of one that misbehaves makes no difference there.

So a save of any map is a run of moves there, and what moves keep of maps is
kept beside others that misbehave, as long as none of them stands on one of
those.
-/
import MapStore.Proofs.Settling

namespace MapStore

namespace MapState

/-- An in-memory map in the place of one that misbehaves. -/
def tame : MapState → MapState
  | faulty f => .memory f.inner
  | other => other

variable {st : MapState} {front : Front} {d : DirectMap}

theorem tame_of_over (above : st.role = .over front) : st.tame = st := by
  cases st with
  | faulty f => cases above
  | memory _ => rfl
  | direct _ => rfl
  | buffered _ => rfl
  | adaptive _ => rfl

theorem over_of_tame (above : st.tame.role = .over front) : st.role = .over front := by
  cases st with
  | faulty f => cases above
  | memory _ => cases above
  | direct _ => cases above
  | buffered _ => exact above
  | adaptive _ => exact above

theorem direct_of_tame (same : st.tame = .direct d) : st = .direct d := by
  cases st with
  | faulty f => cases same
  | memory _ => cases same
  | direct _ => exact same
  | buffered _ => cases same
  | adaptive _ => cases same

end MapState

namespace Store

variable {s s' : Store} {m b : MapHandle} {st : MapState} {front : Front} {d : DirectMap}
  {waiting : Option WriteBuffer} {w : WriteBuffer}

/-! ## In-memory maps in their place -/

/-- The store with in-memory maps in the place of those that misbehave. -/
def tamed (s : Store) : Store := { s with maps := s.maps.map MapState.tame }

@[simp] theorem disk_tamed (s : Store) : s.tamed.disk = s.disk := rfl

@[simp] theorem engines_tamed (s : Store) : s.tamed.engines = s.engines := rfl

theorem maps_tamed (s : Store) (i : Nat) : s.tamed.maps[i]? = (s.maps[i]?).map MapState.tame :=
  List.getElem?_map

theorem state_tamed (state : s.maps[m.index]? = some st) :
    s.tamed.maps[m.index]? = some st.tame := by
  rw [maps_tamed, state]
  rfl

theorem tamed_set (s : Store) (m : MapHandle) (st : MapState) :
    (s.set m st).tamed = s.tamed.set m st.tame := by
  simp only [tamed, set, List.map_set]

/-- Where no map misbehaves none is replaced. -/
theorem tamed_eq (layout : s.Layout) : s.tamed = s := by
  have same : s.maps.map MapState.tame = s.maps := by
    refine List.ext_getElem? fun i => ?_
    rw [List.getElem?_map]
    cases state : s.maps[i]? with
    | none => rfl
    | some st =>
      cases st with
      | faulty f => exact absurd (role?_of_maps (m := ⟨i⟩) state) (layout.faultless ⟨i⟩)
      | memory _ => rfl
      | direct _ => rfl
      | buffered _ => rfl
      | adaptive _ => rfl
  rw [tamed, same]

theorem direct_tamed : s.tamed.maps[b.index]? = some (.direct d) ↔
    s.maps[b.index]? = some (.direct d) := by
  constructor
  · intro base
    rw [maps_tamed] at base
    obtain ⟨st, state, same⟩ := Option.map_eq_some_iff.1 base
    rw [state, MapState.direct_of_tame same]
  · exact state_tamed

theorem over_tamed (above : st.role = .over front) :
    s.tamed.maps[m.index]? = some st ↔ s.maps[m.index]? = some st := by
  constructor
  · intro state
    rw [maps_tamed] at state
    obtain ⟨st', state', same⟩ := Option.map_eq_some_iff.1 state
    rw [← same] at above
    rw [← same, MapState.tame_of_over (MapState.over_of_tame above), state']
  · intro state
    rw [state_tamed state, MapState.tame_of_over above]

/-- A map keeps its entries where it does. -/
theorem rests_tamed : s.tamed.Rests m b d waiting ↔ s.Rests m b d waiting := by
  constructor
  · rintro ⟨base, top⟩
    refine ⟨direct_tamed.1 base, top.imp_right ?_⟩
    rintro ⟨st, front, state, above, rest⟩
    exact ⟨st, front, (over_tamed above).1 state, above, rest⟩
  · rintro ⟨base, top⟩
    refine ⟨direct_tamed.2 base, top.imp_right ?_⟩
    rintro ⟨st, front, state, above, rest⟩
    exact ⟨st, front, (over_tamed above).2 state, above, rest⟩

/-! ## Actions that end alike -/

/-- The one action succeeds as the other does with in-memory maps in the place of
those that misbehave, and both leave the same. -/
def EndsAlike {α β : Type} (s : Store) (a : Action α) (a' : Action β) : Prop :=
  (∃ r r' s', a s = .ok r s' ∧ a' s.tamed = .ok r' s'.tamed) ∨
    ∃ fault fault' s', a s = .error fault s' ∧ a' s.tamed = .error fault' s'.tamed

namespace EndsAlike

variable {α α' β β' : Type} {a : Action α} {a' : Action α'}

theorem pure (r : α) (r' : α') (s : Store) :
    s.EndsAlike (Pure.pure r : Action α) (Pure.pure r' : Action α') :=
  .inl ⟨r, r', s, rfl, rfl⟩

theorem bind {f : α → Action β} {f' : α' → Action β'} (first : s.EndsAlike a a')
    (next : ∀ r r' s', a s = .ok r s' → a' s.tamed = .ok r' s'.tamed → s'.EndsAlike (f r) (f' r')) :
    s.EndsAlike (a >>= f) (a' >>= f') := by
  obtain ⟨r, r', s', run, run'⟩ | ⟨fault, fault', s', run, run'⟩ := first
  · unfold EndsAlike
    rw [Action.run_bind, Action.run_bind, run, run']
    exact next r r' s' run run'
  · refine .inr ⟨fault, fault', s', ?_, ?_⟩
    · rw [Action.run_bind, run]
    · rw [Action.run_bind, run']

/-- What the one leaves is what the other leaves. -/
theorem after (h : s.EndsAlike a a') : a'.after s.tamed = (a.after s).tamed := by
  obtain ⟨r, r', s', run, run'⟩ | ⟨fault, fault', s', run, run'⟩ := h
  · rw [Action.after_of_ok run, Action.after_of_ok run']
  · rw [Action.after_of_error run, Action.after_of_error run']

/-- If the one succeeds so does the other. -/
theorem ok {r : α} (h : s.EndsAlike a a') (run : a s = .ok r s') :
    ∃ r', a' s.tamed = .ok r' s'.tamed := by
  obtain ⟨r₁, r', s₁, run₁, run'⟩ | ⟨fault, fault', s₁, run₁, -⟩ := h
  · rw [run] at run₁
    cases run₁
    exact ⟨r', run'⟩
  · rw [run] at run₁
    cases run₁

end EndsAlike

/-! ## Merging -/

/-- A slot is merged into a direct map as it is merged there. -/
theorem mergeSlot_alike (copied : Bytes × Slot) (stats stats' : MergeStats)
    (state : s.maps[m.index]? = some st) (above : st.role = .over front)
    (waiting : st.buffer? = some w) (base : s.maps[front.backing.index]? = some (.direct d)) :
    s.EndsAlike (m.mergeSlot front stats copied) (m.mergeSlot front stats' copied) := by
  obtain ⟨key, slot⟩ := copied
  have state' := (over_tamed above).2 state
  have base' := direct_tamed.2 base
  obtain ⟨d₁, previous₁, r, wrote, run⟩ | ⟨cause, fault, refused, run⟩ :=
    mergeSlot_run key slot stats state above waiting base
  · obtain ⟨d₂, previous₂, r', wrote', run'⟩ | ⟨cause', fault', refused', run'⟩ :=
      mergeSlot_run key slot stats' state' above waiting base'
    · rw [wrote] at wrote'
      cases wrote'
      have still := (MapState.role_withBuffer st (w.eraseUnchanged key slot.seq).2).trans above
      refine .inl ⟨r, r', _, run, ?_⟩
      rw [run', tamed_set, tamed_set, MapState.tame_of_over still]
      rfl
    · rw [wrote] at refused'
      cases refused'
  · obtain ⟨d₂, previous₂, r', wrote', run'⟩ | ⟨cause', fault', refused', run'⟩ :=
      mergeSlot_run key slot stats' state' above waiting base'
    · rw [refused] at wrote'
      cases wrote'
    · exact .inr ⟨_, _, s, run, run'⟩

/-- Slots are merged as they are merged there. -/
theorem drain_alike (stats stats' : MergeStats) (state : s.maps[m.index]? = some st)
    (above : st.role = .over front) (waiting : st.buffer? = some w)
    (base : s.maps[front.backing.index]? = some (.direct d)) (slots : List (Bytes × Slot)) :
    s.EndsAlike (slots.foldlM (m.mergeSlot front) stats)
      (slots.foldlM (m.mergeSlot front) stats') := by
  induction slots generalizing s st w d stats stats' with
  | nil => exact .pure stats stats' s
  | cons first rest ih =>
    rw [List.foldlM_cons, List.foldlM_cons]
    refine (mergeSlot_alike first stats stats' state above waiting base).bind
      fun r r' s₁ run _ => ?_
    obtain ⟨key, slot⟩ := first
    have ne := ne_of_role state above base
    obtain ⟨d', previous, r₁, wrote, run₁⟩ | ⟨cause, fault, refused, run₁⟩ :=
      mergeSlot_run key slot stats state above waiting base
    · rw [run] at run₁
      cases run₁
      refine ih r r' (maps_set_self _ ((maps_set_of_ne s (.direct d') ne).trans state))
        ((MapState.role_withBuffer ..).trans above) (MapState.buffer?_withBuffer waiting _)
        ((maps_set_of_ne _ _ ne.symm).trans (maps_set_self _ base))
    · rw [run] at run₁
      cases run₁

/-- So is a whole buffer. -/
theorem merge_alike (state : s.maps[m.index]? = some st) (above : st.role = .over front)
    (base : s.maps[front.backing.index]? = some (.direct d)) :
    s.EndsAlike m.merge m.merge := by
  have state' := (over_tamed above).2 state
  unfold EndsAlike MapHandle.merge
  rw [Action.run_bind, Action.run_state state, Action.run_bind, Action.run_state state']
  obtain ⟨x, rfl, rfl⟩ | ⟨a, rfl, rfl⟩ := MapState.cases_of_role above
  · exact drain_alike .none .none state rfl rfl base x.buffer.snapshot
  · cases buffer : a.buffer with
    | none =>
      simp only [buffer]
      exact EndsAlike.pure MergeStats.none MergeStats.none s
    | some w =>
      simp only [buffer]
      exact drain_alike .none .none state rfl buffer base w.snapshot

/-! ## Saving -/

/-- The map below is still there after a merge. -/
theorem direct_of_merge {stats : MergeStats} (run : m.merge s = .ok stats s')
    (base : s.maps[b.index]? = some (.direct d)) :
    ∃ d', s'.maps[b.index]? = some (.direct d') := by
  have touched : s.Touches (fun _ => True) (m.merge.after s) :=
    frame_merge trivial fun _ _ _ _ _ _ => trivial
  rw [Action.after_of_ok run] at touched
  obtain ⟨st', state', same⟩ := touched.outline base
  cases st' with
  | direct d' => exact ⟨d', state'⟩
  | memory _ => cases same
  | buffered _ => cases same
  | adaptive _ => cases same
  | faulty _ => cases same

theorem save_direct_alike (base : s.maps[b.index]? = some (.direct d)) :
    s.EndsAlike b.save b.save := by
  have left : (({ s with disk := (d.save s.disk).2.2 } : Store).set b
      (.direct (d.save s.disk).2.1)).tamed = (({ s.tamed with
        disk := (d.save s.disk).2.2 } : Store).set b (.direct (d.save s.disk).2.1)) :=
    tamed_set ..
  unfold EndsAlike
  rw [MapHandle.save_direct base, MapHandle.save_direct (direct_tamed.2 base), disk_tamed, ← left]
  cases (d.save s.disk).1 with
  | ok _ => exact .inl ⟨_, _, _, rfl, rfl⟩
  | error cause => exact .inr ⟨_, _, _, rfl, rfl⟩

/-- So are a merge and then a save of the map below. -/
theorem merge_save_alike (state : s.maps[m.index]? = some st) (above : st.role = .over front)
    (base : s.maps[front.backing.index]? = some (.direct d)) :
    s.EndsAlike (do let _ ← m.merge; front.backing.save : Action Unit)
      (do let _ ← m.merge; front.backing.save : Action Unit) := by
  refine (merge_alike state above base).bind fun _ _ s₁ run _ => ?_
  obtain ⟨d', base'⟩ := direct_of_merge run base
  exact save_direct_alike base'

/-- A map that does not misbehave is saved as it is saved there. -/
theorem save_alike (layout : s.tamed.Layout) (m : MapHandle)
    (behaves : ∀ f, s.maps[m.index]? ≠ some (.faulty f)) : s.EndsAlike m.save m.save := by
  cases state : s.maps[m.index]? with
  | none =>
    have state' : s.tamed.maps[m.index]? = none := by
      rw [maps_tamed, state]
      rfl
    exact .inr ⟨_, _, s, MapHandle.save_none state, MapHandle.save_none state'⟩
  | some st =>
    have there := layout.kinds (state_tamed state)
    cases st with
    | faulty f => exact absurd state (behaves f)
    | memory p =>
      exact .inl ⟨_, _, s, MapHandle.save_memory state, MapHandle.save_memory (state_tamed state)⟩
    | direct d => exact save_direct_alike state
    | buffered x =>
      obtain ⟨p, eq⟩ | ⟨d, eq⟩ | ⟨front, d, above, below, base⟩ := there
      · cases eq
      · cases eq
      · cases above
        have base := direct_tamed.1 base
        cases closed : x.closed with
        | true =>
          exact .inl ⟨_, _, s, MapHandle.save_closed state closed,
            MapHandle.save_closed (state_tamed state) closed⟩
        | false =>
          unfold EndsAlike
          rw [MapHandle.save_buffered state closed below,
            MapHandle.save_buffered (state_tamed state) closed below]
          exact merge_save_alike state rfl base
    | adaptive a =>
      obtain ⟨p, eq⟩ | ⟨d, eq⟩ | ⟨front, d, above, below, base⟩ := there
      · cases eq
      · cases eq
      · cases above
        have base := direct_tamed.1 base
        unfold EndsAlike
        rw [MapHandle.save_adaptive state below,
          MapHandle.save_adaptive (state_tamed state) below]
        exact merge_save_alike state rfl base

/-- A save of a map that misbehaves changes nothing there. -/
theorem tamed_save_faulty {f : FaultyMap} (state : s.maps[m.index]? = some (.faulty f)) :
    (m.save.after s).tamed = s.tamed := by
  rw [Action.after_of_eq (MapHandle.save_faulty state)]
  simp only [Action.enterFaulty, Action.after_bind_of_ok (Action.run_setState ..),
    Action.after_consult]
  rw [tamed_set]
  have there : s.tamed.maps[m.index]? = some (.memory f.inner) := state_tamed state
  exact set_self there

/-- A save of any map is a run of moves there. If it succeeds and the map is
open, the map has nothing left to save. -/
theorem save_moves_tamed (layout : s.tamed.Layout) (m : MapHandle) :
    s.tamed.UpkeepMoves (m.save.after s).tamed ∧ ∀ s', m.save s = .ok () s' →
      s.tamed.OpenAt m → s'.tamed.CleanAt m := by
  by_cases behaves : ∀ f, s.maps[m.index]? ≠ some (.faulty f)
  · have alike := save_alike layout m behaves
    obtain ⟨upkept, clean⟩ := save_moves layout m
    rw [alike.after] at upkept
    refine ⟨upkept, fun s' run isOpen => ?_⟩
    obtain ⟨_, run'⟩ := alike.ok run
    exact clean _ run' isOpen
  · push Not at behaves
    obtain ⟨f, state⟩ := behaves
    rw [tamed_save_faulty state]
    refine ⟨.refl, fun s' run _ b d waiting rests => ?_⟩
    -- the map keeps its entries nowhere
    have same := tamed_save_faulty state
    rw [Action.after_of_ok run] at same
    rw [same, rests_tamed] at rests
    obtain ⟨-, -, eq⟩ | ⟨front, above, -⟩ := rests.of_state state
    · cases eq
    · cases above

end Store

end MapStore
