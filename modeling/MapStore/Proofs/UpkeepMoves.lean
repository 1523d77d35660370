/-
MapStore.Proofs.UpkeepMoves — calls and upkeep as runs of moves.

In a store that is laid out as an engine does it, readers change meters at
most. A merge, a save, a change of mode and a whole tick are runs of moves that
leave what maps show; a put or a removal is a run with one write in it, and a
close a run with moves that close the map. What a merge, a save or a close that
succeeded achieved is said beside it: nothing waits any more, and there is no
change that is not saved.
-/
import MapStore.Proofs.Moves
import MapStore.Proofs.Reading

namespace MapStore

open Relation (ReflTransGen)

namespace Store

variable {s s' s'' : Store} {m b : MapHandle} {d : DirectMap} {st : MapState} {front : Front}

/-! ## Readers -/

/-- Nothing changed but meters. -/
def Metered (s s' : Store) : Prop := ∃ meters, s' = { s with meters }

namespace Metered

theorem refl (s : Store) : Metered s s := ⟨s.meters, rfl⟩

theorem told (m : MapHandle) (f : AccessMeter → AccessMeter) : Metered s (s.told m f) := ⟨_, rfl⟩

theorem upkeepMoves (h : Metered s s') : s.UpkeepMoves s' := by
  obtain ⟨meters, rfl⟩ := h
  exact .single (.metered meters)

theorem maps (h : Metered s s') : s'.maps = s.maps := by
  obtain ⟨meters, rfl⟩ := h
  rfl

theorem of_same (h : s' = s) : Metered s s' := ⟨s.meters, h⟩

theorem of_told {f : AccessMeter → AccessMeter} (h : s' = s.told m f) : Metered s s' := ⟨_, h⟩

theorem modifyMeter (h : MeterHandle) (f : AccessMeter → AccessMeter) (s : Store) :
    Metered s ((Action.modifyMeter h f).after s) := ⟨_, rfl⟩

end Metered

/-! ## Merging -/

/-- Nothing waits to be merged into the map below. -/
def Drained (s : Store) (m : MapHandle) : Prop :=
  ∀ st w, s.maps[m.index]? = some st → st.buffer? = some w → w.snapshot = []

/-- The map below refuses a change that waits to be merged into it. -/
def Blocked (s : Store) (m : MapHandle) : Prop :=
  ∃ st front w d entry cause, s.maps[m.index]? = some st ∧ st.role = .over front ∧
    st.buffer? = some w ∧ s.maps[front.backing.index]? = some (.direct d) ∧
    entry ∈ w.snapshot ∧ d.write entry.1 entry.2.change = .error cause

/-- Where nothing waits, none is counted. -/
theorem Drained.pending (h : s.Drained m) (state : s.maps[m.index]? = some st) :
    ∃ bytes, m.pending s = .ok (0, bytes) s := by
  rw [MapHandle.pending, Action.run_bind, Action.run_state state]
  cases waiting : st.buffer? with
  | none => exact ⟨0, by simp [waiting]⟩
  | some w =>
    have nothing : w.count = 0 := by
      rw [WriteBuffer.count, SortedTable.size_eq_length]
      exact congrArg List.length (h st w state waiting)
    exact ⟨w.size, by simp [waiting, nothing]⟩

/-- So a merge does nothing. -/
theorem Drained.merge (h : s.Drained m) (state : s.maps[m.index]? = some st) :
    m.merge s = .ok .none s := by
  cases waiting : st.buffer? with
  | none => exact MapHandle.run_merge_of_none state waiting
  | some w =>
    obtain ⟨front, above⟩ := MapState.over_of_buffer? waiting
    rw [run_merge_over state above waiting, MapHandle.drain, h st w state waiting]
    rfl

/-- Merging one slot makes its change to the direct map below and drops it, or
is refused and does nothing. -/
theorem mergeSlot_run {w : WriteBuffer} (key : Bytes) (slot : Slot) (stats : MergeStats)
    (state : s.maps[m.index]? = some st) (above : st.role = .over front)
    (waiting : st.buffer? = some w) (base : s.maps[front.backing.index]? = some (.direct d)) :
    (∃ d' previous stats', d.write key slot.change = .ok (previous, d') ∧
      m.mergeSlot front stats (key, slot) s = .ok stats'
        ((s.set front.backing (.direct d')).set m
          (st.withBuffer (w.eraseUnchanged key slot.seq).2))) ∨
    ∃ cause cause', d.write key slot.change = .error cause ∧
      m.mergeSlot front stats (key, slot) s = .error (.error cause') s := by
  have ne := ne_of_role state above base
  unfold MapHandle.mergeSlot
  simp only [Action.run_bind, Action.run_pendingArrivals, Action.run_attempt,
    MapHandle.write_direct base]
  cases wrote : d.write key slot.change with
  | error cause => exact .inr ⟨_, _, rfl, rfl⟩
  | ok made =>
    obtain ⟨previous, d'⟩ := made
    have state' := (maps_set_of_ne s (.direct d') ne).trans state
    have dropped : m.dropSlot key slot.seq (s.set front.backing (.direct d')) =
        .ok (w.eraseUnchanged key slot.seq).1 ((s.set front.backing (.direct d')).set m
          (st.withBuffer (w.eraseUnchanged key slot.seq).2)) := by
      unfold MapHandle.dropSlot
      rw [Action.run_bind, Action.run_state state']
      simp only [waiting, Action.run_bind, Action.run_modifyState _ state']
      rfl
    refine .inl ⟨d', previous, if (w.eraseUnchanged key slot.seq).1 then stats.apply slot.change
      else (stats.apply slot.change).supersede, rfl, ?_⟩
    simp only [dropped, Action.run_bind]
    rfl

/-- Draining a buffer is a run of merged slots; if it comes to its end nothing
waits, and else it stopped before a slot that is refused. -/
theorem drain_ends {w : WriteBuffer} (layout : s.Layout) (state : s.maps[m.index]? = some st)
    (above : st.role = .over front) (waiting : st.buffer? = some w) :
    s.UpkeepMoves ((m.drain front w).after s) ∧
      (∀ stats s', m.drain front w s = .ok stats s' → s'.Drained m) ∧
      ∀ fault s', m.drain front w s = .error fault s' →
        (∃ cause, fault = .error cause) ∧ s'.Blocked m := by
  unfold MapHandle.drain
  generalize slots : w.snapshot = rest
  generalize MergeStats.none = stats₀
  induction rest generalizing s st w stats₀ with
  | nil =>
    refine ⟨.refl, fun stats s' run => ?_, fun fault s' run => by cases run⟩
    cases run
    intro st' w' state' waiting'
    rw [state] at state'
    cases state'
    rw [waiting] at waiting'
    cases waiting'
    exact slots
  | cons first rest ih =>
    obtain ⟨key, slot⟩ := first
    obtain ⟨d, rests⟩ := layout.rests_over state above
    have base := rests.base
    have ne := ne_of_role state above base
    rw [List.foldlM_cons]
    obtain ⟨d', previous, stats', wrote, run⟩ | ⟨refusal, cause, refused, run⟩ :=
      mergeSlot_run key slot stats₀ state above waiting base
    · have move : s.UpkeepMove _ := .merged state above waiting slots base wrote
      have state' : ((s.set front.backing (.direct d')).set m
          (st.withBuffer (w.eraseUnchanged key slot.seq).2)).maps[m.index]? = some _ :=
        maps_set_self _ ((maps_set_of_ne s (.direct d') ne).trans state)
      have order := rests.order layout waiting
      have lawful : Std.TransCmp w.slots.order := order.1 ▸ order.2
      obtain ⟨later, drained, refused⟩ := ih (move.layout layout) state'
        ((MapState.role_withBuffer ..).trans above) (MapState.buffer?_withBuffer waiting _)
        (WriteBuffer.snapshot_drop_head w slots).2 stats'
      rw [Action.after_bind_of_ok run, Action.run_bind, run]
      exact ⟨.head move later, drained, refused⟩
    · rw [Action.after_bind_of_error run, Action.run_bind, run]
      refine ⟨.refl, nofun, fun fault s' run' => ?_⟩
      cases run'
      exact ⟨⟨cause, rfl⟩, st, front, w, d, (key, slot), refusal, state, above, waiting, base,
        slots ▸ List.mem_cons_self .., refused⟩

/-- A merge of any map leaves what maps show, and drains its buffer if it is not
refused. -/
theorem merge_ends (layout : s.Layout) (m : MapHandle) :
    s.UpkeepMoves (m.merge.after s) ∧ (∀ stats s', m.merge s = .ok stats s' → s'.Drained m) ∧
      ∀ fault s', m.merge s = .error fault s' →
        (∃ cause, fault = .error cause) ∧ (s.maps[m.index]? = none ∨ s'.Blocked m) := by
  cases state : s.maps[m.index]? with
  | none =>
    have run := MapHandle.run_merge_missing state
    rw [Action.after_of_error run, run]
    refine ⟨.refl, fun stats s' run => (by cases run), fun fault s' run => ?_⟩
    cases run
    exact ⟨⟨_, rfl⟩, .inl rfl⟩
  | some st =>
    cases waiting : st.buffer? with
    | none =>
      have run := MapHandle.run_merge_of_none state waiting
      rw [Action.after_of_ok run, run]
      refine ⟨.refl, fun stats s' run => ?_, fun fault s' run => (by cases run)⟩
      cases run
      intro st' w state' waiting'
      rw [state] at state'
      cases state'
      rw [waiting] at waiting'
      cases waiting'
    | some w =>
      obtain ⟨front, above⟩ := MapState.over_of_buffer? waiting
      obtain ⟨upkept, drained, refused⟩ := drain_ends layout state above waiting
      rw [Action.after, run_merge_over state above waiting]
      exact ⟨upkept, drained, fun fault s' run => (refused fault s' run).imp_right .inr⟩

/-- A merge leaves what maps show, and drains the map's buffer if it succeeds. -/
theorem merge_moves (layout : s.Layout) (m : MapHandle) :
    s.UpkeepMoves (m.merge.after s) ∧ ∀ stats s', m.merge s = .ok stats s' → s'.Drained m :=
  ⟨(merge_ends layout m).1, (merge_ends layout m).2.1⟩

/-! ## Saving -/

/-- The map has nothing waiting and no change that is not saved. -/
def CleanAt (s : Store) (m : MapHandle) : Prop :=
  ∀ b d waiting, s.Rests m b d waiting → Clean d waiting

/-- Where nothing waits it does not wait on top either. -/
theorem Drained.rests {waiting : Option WriteBuffer} (h : s.Drained m)
    (rests : s.Rests m b d waiting) : ∀ w, waiting = some w → w.snapshot = [] := by
  rintro w rfl
  obtain ⟨-, none⟩ | ⟨st, front, state, above, -, buffer⟩ := rests.top
  · cases none
  · exact h st w state buffer

/-- A save of a map over another merges it and saves the map below, -/
theorem save_over (state : s.maps[m.index]? = some st) (above : st.role = .over front)
    (isOpen : st.isOpen = true) (below : front.backing.index < m.index) :
    m.save s = (do let _ ← m.merge; front.backing.save : Action Unit) s := by
  obtain ⟨x, rfl, rfl⟩ | ⟨a, rfl, rfl⟩ := MapState.cases_of_role above
  · exact MapHandle.save_buffered state (by simpa [MapState.isOpen] using isOpen) below
  · exact MapHandle.save_adaptive state below

/-- unless it is closed. -/
theorem save_shut (state : s.maps[m.index]? = some st) (above : st.role = .over front)
    (closed : st.isOpen = false) : m.save s = .ok () s := by
  obtain ⟨x, rfl, -⟩ | ⟨a, rfl, -⟩ := MapState.cases_of_role above
  · exact MapHandle.save_closed state (by simpa [MapState.isOpen] using closed)
  · cases closed

/-- Saving a direct map is one move, after which it is saved if it succeeds. -/
theorem save_direct (base : s.maps[b.index]? = some (.direct d)) :
    s.UpkeepMoves (b.save.after s) ∧ ∀ s', b.save s = .ok () s' →
      ∃ d', s'.maps[b.index]? = some (.direct d') ∧ d'.dirty = false := by
  rw [MapHandle.after_save_direct base]
  refine ⟨.single (.saved base), fun s' ok => ?_⟩
  rw [MapHandle.save_direct base] at ok
  cases answer : (d.save s.disk).1 with
  | error cause =>
    rw [answer] at ok
    cases ok
  | ok _ =>
    rw [answer] at ok
    cases ok
    exact ⟨_, maps_set_self _ base, DirectMap.clean_of_save answer⟩

/-- A change of one map to one of which nothing waits. -/
theorem Drained.set {y : MapHandle} {st' : MapState} (h : s.Drained m)
    (own : y = m → ∀ w, st'.buffer? = some w → w.snapshot = []) : (s.set y st').Drained m := by
  intro st w state waiting
  rw [maps_set] at state
  split at state
  · rename_i eq
    obtain ⟨old, -, rfl⟩ := Option.map_eq_some_iff.1 state
    exact own eq w waiting
  · exact h st w state waiting

/-- Where nothing waits, no move that leaves what maps show makes anything wait. -/
theorem UpkeepMove.drained (h : s.UpkeepMove s') (drained : s.Drained m) : s'.Drained m := by
  cases h with
  | metered meters => exact drained
  | counted units => exact drained
  | merged state above waiting first base wrote =>
    refine Drained.set (s := s.set _ (.direct _)) (drained.set fun _ => nofun) fun eq => ?_
    subst eq
    have nothing := drained _ _ state waiting
    rw [first] at nothing
    cases nothing
  | @saved b d base =>
    have stored : ({ s with disk := (d.save s.disk).2.2 } : Store).Drained m := drained
    exact stored.set fun _ => nofun
  | @entered y a state direct alive =>
    have listed : (s.withListed a.live
        ((s.liveSets a.live).buffered.insert (.map y)).2).Drained m := drained
    refine listed.set fun _ w waiting => ?_
    cases waiting
    exact WriteBuffer.snapshot_empty _
  | @left y a state drained' =>
    have listed : (s.withListed a.live
        ((s.liveSets a.live).buffered.erase (.map y)).2).Drained m := drained
    split
    · exact listed.set fun _ => nofun
    · exact drained.set fun _ => nofun

theorem UpkeepMoves.drained (h : s.UpkeepMoves s') (drained : s.Drained m) : s'.Drained m := by
  induction h with
  | refl => exact drained
  | tail _ move ih => exact move.drained ih

theorem CleanAt.of_drained (drained : s.Drained m)
    (saved : ∀ b d waiting, s.Rests m b d waiting → d.dirty = false) : s.CleanAt m :=
  fun b d waiting rests => ⟨saved b d waiting rests, drained.rests rests⟩

/-- Merging, then saving the map below. -/
theorem merge_save (layout : s.Layout) (state : s.maps[m.index]? = some st)
    (above : st.role = .over front) :
    s.UpkeepMoves ((do let _ ← m.merge; front.backing.save : Action Unit).after s) ∧
      ∀ s', (do let _ ← m.merge; front.backing.save : Action Unit) s = .ok () s' →
        s'.CleanAt m := by
  obtain ⟨merged, drained⟩ := merge_moves layout m
  obtain ⟨stats, run⟩ | ⟨fault, run⟩ := Action.ends m.merge s
  · have layout' := merged.layout layout
    obtain ⟨-, x, role, -⟩ := layout'.below m front (by
      rw [merged.role?, role?_of_maps state, above])
    obtain ⟨d, base, -⟩ := direct_of_role? role
    obtain ⟨saved, clean⟩ := save_direct base
    rw [Action.after_bind_of_ok run]
    refine ⟨merged.trans saved, fun s' run' => ?_⟩
    rw [Action.run_bind, run] at run'
    have upkept : (m.merge.after s).UpkeepMoves s' := by
      rwa [Action.after_of_ok run'] at saved
    refine .of_drained (upkept.drained (drained _ _ run)) fun b d' waiting rests => ?_
    obtain ⟨d'', base', notDirty⟩ := clean s' run'
    obtain ⟨st', state', over'⟩ := over_of_role? (show s'.role? m = some (.over front) by
      rw [upkept.role?, merged.role?, role?_of_maps state, above])
    obtain ⟨rfl, -⟩ := rests.of_over state' over'
    rw [rests.base] at base'
    cases base'
    exact notDirty
  · rw [Action.after_bind_of_error run]
    refine ⟨merged, fun s' run' => ?_⟩
    rw [Action.run_bind, run] at run'
    cases run'

/-- A save of any map leaves what maps show, and if it succeeds the map, if it
is open, has nothing left to save. -/
theorem save_moves (layout : s.Layout) (m : MapHandle) :
    s.UpkeepMoves (m.save.after s) ∧
      ∀ s', m.save s = .ok () s' → s.OpenAt m → s'.CleanAt m := by
  cases state : s.maps[m.index]? with
  | none =>
    have run := MapHandle.save_none state
    rw [Action.after_of_error run, run]
    exact ⟨.refl, nofun⟩
  | some st =>
    obtain ⟨p, rfl⟩ | ⟨d, rfl⟩ | ⟨front, d, above, below, base⟩ := layout.kinds state
    · have run := MapHandle.save_memory state
      rw [Action.after_of_ok run, run]
      refine ⟨.refl, fun s' run _ b d waiting rests => ?_⟩
      cases run
      exact absurd (role?_of_maps state) rests.lasting
    · obtain ⟨saved, clean⟩ := save_direct state
      refine ⟨saved, fun s' run _ b d' waiting rests => ?_⟩
      obtain ⟨d'', base, notDirty⟩ := clean s' run
      obtain ⟨-, rfl, rfl⟩ := rests.of_direct base
      exact clean_none notDirty
    · cases open' : st.isOpen with
      | true =>
        obtain ⟨upkept, clean⟩ := merge_save layout state above
        rw [Action.after, save_over state above open' below]
        exact ⟨upkept, fun s' run _ => clean s' run⟩
      | false =>
        rw [Action.after_of_ok (save_shut state above open')]
        refine ⟨.refl, fun s' run isOpen => ?_⟩
        rw [isOpen _ state] at open'
        cases open'

/-! ## Changing modes -/

theorem liveSets_merge (m : MapHandle) (s : Store) (live : LiveHandle) :
    (m.merge.after s).liveSets live = s.liveSets live := by
  have touched : s.Touches (fun _ => True) (m.merge.after s) :=
    frame_merge trivial fun _ _ _ _ _ _ => trivial
  rw [liveSets, liveSets, touched.live]

theorem switchTo_moves (layout : s.Layout) (m : MapHandle) (target : MapMode) :
    s.UpkeepMoves ((Tick.switchTo m target).after s) := by
  obtain ⟨merged, drained⟩ := merge_moves layout m
  unfold Tick.switchTo
  cases target with
  | buffered =>
    obtain same | ⟨a, state, mode, alive, entered⟩ := m.after_switchToBuffered s
    · rw [same]
    · rw [entered]
      refine .single (.entered state ?_ alive)
      cases buffer : a.buffer with
      | none => rfl
      | some w => simp [AdaptiveMap.mode, buffer] at mode
  | direct =>
    obtain same | failed | ⟨a, stats, buffer, -, run, state, left⟩ := m.after_switchToDirect s
    · rw [same]
    · rw [failed]
      exact merged
    · have move := UpkeepMove.left state fun w eq => drained _ _ run _ w state eq
      rw [liveSets_merge] at move
      rw [left]
      exact merged.tail move

/-- In direct mode nothing waits. -/
theorem switchToDirect_drained {a : AdaptiveMap} {switched : Bool}
    (state : s.maps[m.index]? = some (.adaptive a)) (ok : m.switchToDirect s = .ok switched s') :
    s'.Drained m := by
  obtain ⟨mode, run⟩ | ⟨fault, -, -, run⟩ | ⟨stats, buffer, -, -, merged, run⟩ :=
    MapHandle.switchToDirect_cases state
  · rw [run] at ok
    cases ok
    intro st w state' waiting
    rw [state] at state'
    cases state'
    have buffer : a.buffer = some w := waiting
    simp [AdaptiveMap.mode, buffer] at mode
  · rw [run] at ok
    cases ok
  · rw [run] at ok
    cases ok
    intro st w state' waiting
    have struck : ∀ s₁ : Store, s₁.maps = (m.merge.after s).maps →
        (s₁.set m (.adaptive { a with buffer := none })).maps[m.index]? =
          some (.adaptive { a with buffer := none }) := by
      intro s₁ maps
      have there : s₁.maps[m.index]? = some (.adaptive { a with buffer }) := maps ▸ merged
      exact maps_set_self _ there
    rw [struck _ (by split <;> rfl)] at state'
    cases state'
    cases waiting

/-! ## Ticks -/

/-- A step that leaves what maps show, if the store is laid out. -/
def Keeping (s s' : Store) : Prop := s.Layout → s.UpkeepMoves s'

namespace Keeping

theorem refl (s : Store) : Keeping s s := fun _ => .refl

theorem trans (h : Keeping s s') (h' : Keeping s' s'') : Keeping s s'' := by
  intro layout
  have first := h layout
  exact first.trans (h' (first.layout layout))

theorem of_metered (h : Metered s s') : Keeping s s' := fun _ => h.upkeepMoves

theorem resetWindow (m : MapHandle) (s : Store) : Metered s (m.resetWindow.after s) := by
  obtain same | ⟨a, -, reset⟩ := m.after_resetWindow s
  · rw [same]
    exact .refl s
  · rw [reset]
    exact ⟨_, rfl⟩

theorem evaluate (policy : ModePolicy) (m : MapHandle) (s : Store) :
    Keeping s ((Tick.evaluate policy m).after s) := by
  unfold Tick.evaluate
  refine Action.after_bind (R := Keeping) trans ?_ fun shares s₁ _ => ?_
  · rw [Tick.after_percents]
    exact refl s
  refine Action.after_bind (R := Keeping) trans (of_metered (resetWindow m s₁)) fun _ s₂ _ => ?_
  cases policy.modeFor shares.1 shares.2 with
  | none => exact refl s₂
  | some target =>
    refine Action.after_bind (R := Keeping) trans ?_ fun _ s₃ _ => refl s₃
    rw [Action.after_attempt]
    exact fun layout => switchTo_moves layout m target

theorem run (u : MergeUnit) (s : Store) : Keeping s (u.run.after s) := by
  cases u with
  | map m => exact fun layout => (merge_moves layout m).1
  | standIn u =>
    rw [MergeUnit.after_standIn]
    exact fun _ => .single (.counted _)

theorem save (m : MapHandle) (s : Store) : Keeping s (m.save.after s) :=
  fun layout => (save_moves layout m).1

/-- A whole tick, over whatever live-sets. -/
theorem tick (live : LiveHandle) (policy : ModePolicy) (s : Store) :
    Keeping s ((Tick.run live policy).after s) :=
  Tick.after_run policy refl trans (fun m _ => evaluate policy m) run save

end Keeping

/-! ## Writing -/

/-- A write into a buffer waits there if the data types admit it and, where
nothing waits for the key yet, the map below is open. -/
theorem writeBuffered_ok (w : WriteBuffer) (state : s.maps[m.index]? = some st)
    (base : s.maps[front.backing.index]? = some (.direct d)) {key : Bytes} {c : Change}
    (admitted : PlainMap.checkChange front.keyType front.valueType key c = .ok ())
    (seen : w.get? key ≠ none ∨ d.closed = false) :
    ∃ previous, m.writeBuffered front w key c s =
      .ok previous (s.set m (st.withBuffer (w.insert key c).2)) := by
  have modified : ∀ f, Action.modifyState m f s = .ok () (s.set m (f st)) := fun f =>
    Action.run_modifyState f state
  cases there : w.get? key with
  | some old =>
    refine ⟨old.toOption, ?_⟩
    rw [MapHandle.writeBuffered_of_some there, admitted]
    simp [modified]
  | none =>
    have isOpen : d.closed = false := seen.resolve_left (absurd there)
    have asked := MapHandle.get_open base isOpen key
    refine ⟨d.toPlainMap.table.get? key, ?_⟩
    rw [MapHandle.writeBuffered_of_none there, admitted]
    simp [asked, modified]

/-- If not it is refused. -/
theorem writeBuffered_cases (w : WriteBuffer) (state : s.maps[m.index]? = some st)
    (base : s.maps[front.backing.index]? = some (.direct d)) (key : Bytes) (c : Change) :
    (PlainMap.checkChange front.keyType front.valueType key c = .ok () ∧
      (w.get? key ≠ none ∨ d.closed = false) ∧ ∃ previous,
        m.writeBuffered front w key c s = .ok previous
          (s.set m (st.withBuffer (w.insert key c).2))) ∨
    ∃ cause, m.writeBuffered front w key c s = .error (.error cause) s := by
  cases checked : PlainMap.checkChange front.keyType front.valueType key c with
  | error cause =>
    refine .inr ⟨cause, ?_⟩
    cases there : w.get? key with
    | some old =>
      rw [MapHandle.writeBuffered_of_some there, checked]
      rfl
    | none =>
      rw [MapHandle.writeBuffered_of_none there, checked]
      rfl
  | ok _ =>
    by_cases seen : w.get? key ≠ none ∨ d.closed = false
    · exact .inl ⟨rfl, seen, writeBuffered_ok w state base checked seen⟩
    · obtain ⟨there, notOpen⟩ := not_or.1 seen
      have closed : d.closed = true := by simpa using notOpen
      have asked : front.backing.get key s = .error (.error (.mapClosed d.name)) s := by
        rw [MapHandle.get_direct base, PlainMap.get_closed closed]
        rfl
      refine .inr ⟨.mapClosed d.name, ?_⟩
      rw [MapHandle.writeBuffered_of_none (not_not.1 there), checked]
      simp [asked]

/-- What comes of a write: the meter of the map is told, and then the write is
refused, or the change is made in the map itself, in the direct map that it
stands for, or in its buffer. -/
inductive WriteEnds (s : Store) (m : MapHandle) (depth : Nat) (key : Bytes) (c : Change) : Prop
  | refused {cause : StoreError}
      (run : m.write depth key c s = .error (.error cause) (s.told m .recordWrite))
  | memory {p p' : PlainMap} {previous : Option Bytes}
      (state : s.maps[m.index]? = some (.memory p)) (wrote : p.write key c = .ok (previous, p'))
      (run : m.write depth key c s = .ok previous ((s.told m .recordWrite).set m (.memory p')))
  | direct {b : MapHandle} {d d' : DirectMap} {previous : Option Bytes}
      (rests : s.Rests m b d none) (wrote : d.write key c = .ok (previous, d'))
      (run : m.write depth key c s = .ok previous ((s.told m .recordWrite).set b (.direct d')))
  | buffered {st : MapState} {front : Front} {w : WriteBuffer} {d : DirectMap}
      {previous : Option Bytes} (state : s.maps[m.index]? = some st)
      (above : st.role = .over front) (waiting : st.buffer? = some w)
      (base : s.maps[front.backing.index]? = some (.direct d))
      (seen : w.get? key ≠ none ∨ d.closed = false)
      (admitted : PlainMap.checkChange front.keyType front.valueType key c = .ok ())
      (run : m.write depth key c s = .ok previous
        ((s.told m .recordWrite).set m (st.withBuffer (w.insert key c).2)))

namespace WriteEnds

variable {depth : Nat} {key : Bytes} {c : Change}

theorem of_direct (rests : s.Rests m b d none)
    (asks : m.write depth key c s = b.write depth key c (s.told m .recordWrite)) :
    s.WriteEnds m depth key c := by
  rw [MapHandle.write_direct (s := s.told m .recordWrite) rests.base] at asks
  cases wrote : d.write key c with
  | error cause => exact .refused (by rw [asks, wrote])
  | ok made => exact .direct rests wrote (by rw [asks, wrote])

theorem of_buffered {w : WriteBuffer} (state : s.maps[m.index]? = some st)
    (above : st.role = .over front) (waiting : st.buffer? = some w)
    (base : s.maps[front.backing.index]? = some (.direct d))
    (asks : m.write depth key c s = m.writeBuffered front w key c (s.told m .recordWrite)) :
    s.WriteEnds m depth key c := by
  obtain ⟨admitted, seen, previous, run⟩ | ⟨cause, run⟩ :=
    writeBuffered_cases (s := s.told m .recordWrite) w state base key c
  · exact .buffered state above waiting base seen admitted (asks.trans run)
  · exact .refused (asks.trans run)

end WriteEnds

theorem write_ends (layout : s.Layout) (m : MapHandle) (depth : Nat) (key : Bytes) (c : Change) :
    s.WriteEnds m depth key c := by
  cases state : s.maps[m.index]? with
  | none => exact .refused (by rw [told_none state, MapHandle.write_none state])
  | some st =>
    obtain ⟨p, rfl⟩ | ⟨d, rfl⟩ | ⟨front, d, above, below, base⟩ := layout.kinds state
    · have told : s.told m .recordWrite = s := told_plain state rfl _
      cases wrote : p.write key c with
      | error cause => exact .refused (by rw [told, MapHandle.write_memory state, wrote])
      | ok made => exact .memory state wrote (by rw [told, MapHandle.write_memory state, wrote])
    · exact .of_direct (rests_direct state) (by rw [told_plain state rfl])
    · obtain ⟨x, rfl, rfl⟩ | ⟨a, rfl, rfl⟩ := MapState.cases_of_role above
      · have told : s.told m .recordWrite = s := told_plain state rfl _
        cases closed : x.closed with
        | true => exact .refused (by rw [told, MapHandle.write_closed state closed])
        | false =>
          exact .of_buffered state above rfl base
            (by rw [told, MapHandle.write_buffered state closed])
      · have told := told_adaptive state .recordWrite
        cases buffer : a.buffer with
        | some w =>
          exact .of_buffered state above buffer base
            (by rw [told, MapHandle.write_adaptive state below, buffer])
        | none =>
          exact .of_direct ⟨base, .inr ⟨_, _, state, above, rfl, buffer⟩⟩
            (by rw [told, MapHandle.write_adaptive state below, buffer])

/-- A write of any map is a run with at most one move that makes a change. -/
theorem write_runs (layout : s.Layout) (m : MapHandle) (depth : Nat) (key : Bytes) (c : Change) :
    s.Runs Writes ((m.write depth key c).after s) := by
  have told : s.Runs Writes (s.told m .recordWrite) := (Metered.told m _).upkeepMoves.runs _
  cases write_ends layout m depth key c with
  | refused run =>
    rw [Action.after_of_error run]
    exact told
  | memory state wrote run =>
    rw [Action.after_of_ok run]
    exact told.tail (.inr (.memory state wrote))
  | direct rests wrote run =>
    rw [Action.after_of_ok run]
    exact told.tail (.inr (.direct rests.base wrote))
  | buffered state above waiting base seen admitted run =>
    rw [Action.after_of_ok run]
    exact told.tail (.inr (.buffered state above waiting base seen admitted))

/-! ## Closing -/

/-- The map has nothing waiting, no change that is not saved, and the map below
is closed. -/
def ShutAt (s : Store) (m : MapHandle) : Prop :=
  ∀ b d waiting, s.Rests m b d waiting → Clean d waiting ∧ d.closed = true

/-- If the direct map is closed, there is no change that is not saved. -/
def Tight (s : Store) (b : MapHandle) : Prop :=
  ∀ d, s.maps[b.index]? = some (.direct d) → d.closed = true → d.dirty = false

/-- If the map is closed already, it is closed for good. -/
structure Sealable (s : Store) (m : MapHandle) : Prop where
  shut : ∀ x, s.maps[m.index]? = some (.buffered x) → x.closed = true → s.ShutAt m
  tight : ∀ b d waiting, s.Rests m b d waiting → s.Tight b

theorem OpenAt.tight (h : s.OpenAt b) : s.Tight b := by
  intro d base closed
  have isOpen := h _ base
  simp [MapState.isOpen, closed] at isOpen

/-- An open map can be closed. -/
theorem OpenAt.sealable (h : s.OpenAt m)
    (below : ∀ b d waiting, s.Rests m b d waiting → s.OpenAt b) : s.Sealable m where
  shut x state closed := by
    have isOpen := h _ state
    simp [MapState.isOpen, closed] at isOpen
  tight b d waiting rests := (below b d waiting rests).tight

/-- Only another direct map in its place could be dirty. -/
theorem Tight.set {y : MapHandle} {st' : MapState} (h : s.Tight b)
    (own : y = b → ∀ d, st' = .direct d → d.closed = true → d.dirty = false) :
    (s.set y st').Tight b := by
  intro d base closed
  rw [maps_set] at base
  split at base
  · rename_i eq
    obtain ⟨old, -, rfl⟩ := Option.map_eq_some_iff.1 base
    exact own eq d rfl closed
  · exact h d base closed

theorem UpkeepMove.tight (h : s.UpkeepMove s') (tight : s.Tight b) : s'.Tight b := by
  cases h with
  | metered meters => exact tight
  | counted units => exact tight
  | @merged m st front w key slot rest d₀ d' previous state above waiting first base wrote =>
    refine Tight.set (tight.set fun _ d eq closed => ?_) fun _ d eq => ?_
    · cases eq
      obtain ⟨isOpen, rfl⟩ := DirectMap.of_write wrote
      rw [isOpen] at closed
      cases closed
    · have role := congrArg MapState.role eq
      rw [MapState.role_withBuffer, above] at role
      cases role
  | @saved b₀ d₀ base =>
    have stored : ({ s with disk := (d₀.save s.disk).2.2 } : Store).Tight b := tight
    refine stored.set fun eq d same closed => ?_
    cases same
    subst eq
    obtain ⟨dirty, made⟩ := d₀.save_map s.disk
    have closed₀ : d₀.closed = true := by
      rw [made] at closed
      exact closed
    have clean := tight _ base closed₀
    rw [DirectMap.save_of_clean clean]
    exact clean
  | @entered m a state direct alive =>
    have listed : (s.withListed a.live
        ((s.liveSets a.live).buffered.insert (.map m)).2).Tight b := tight
    exact listed.set fun _ d => nofun
  | @left m a state drained =>
    have listed : (s.withListed a.live
        ((s.liveSets a.live).buffered.erase (.map m)).2).Tight b := tight
    split
    · exact listed.set fun _ d => nofun
    · exact tight.set fun _ d => nofun

theorem Writes.tight (h : s.Writes s') (tight : s.Tight b) : s'.Tight b := by
  cases h with
  | memory state wrote => exact tight.set fun _ d => nofun
  | @direct m d d' key c previous state wrote =>
    refine tight.set fun _ d'' eq closed => ?_
    cases eq
    obtain ⟨isOpen, rfl⟩ := DirectMap.of_write wrote
    rw [isOpen] at closed
    cases closed
  | buffered state above waiting base seen =>
    refine tight.set fun _ d eq => ?_
    have role := congrArg MapState.role eq
    rw [MapState.role_withBuffer, above] at role
    cases role

theorem Closes.tight {x : MapHandle} (h : s.Closes x s') (tight : s.Tight b) : s'.Tight b := by
  cases h with
  | memory state => exact tight.set fun _ d => nofun
  | marked closed state => exact tight.set fun _ d => nofun
  | base rests clean =>
    refine tight.set fun _ d eq _ => ?_
    cases eq
    exact clean

theorem UpkeepMoves.tight (h : s.UpkeepMoves s') (tight : s.Tight b) : s'.Tight b := by
  induction h with
  | refl => exact tight
  | tail _ move ih => exact move.tight ih

theorem Runs.layout {R : Store → Store → Prop} (step : ∀ {s s'}, R s s' → s.Layout → s'.Layout)
    (h : s.Runs R s') (layout : s.Layout) : s'.Layout := by
  induction h with
  | refl => exact layout
  | tail _ move ih => exact move.elim (·.layout ih) (step · ih)

theorem Runs.role? {R : Store → Store → Prop} (step : ∀ {s s'}, R s s' → s'.role? = s.role?)
    (h : s.Runs R s') : s'.role? = s.role? := by
  induction h with
  | refl => rfl
  | tail _ move ih => exact (move.elim (·.role?) step).trans ih

theorem Closes.drained {x : MapHandle} (h : s.Closes x s') (drained : s.Drained m) :
    s'.Drained m := by
  cases h with
  | memory old => exact drained.set fun _ => nofun
  | marked closed old =>
    refine drained.set fun eq w waiting => ?_
    subst eq
    have kept := drained _ w old
    exact kept waiting
  | base rests clean => exact drained.set fun _ => nofun

theorem Runs.drained {x : MapHandle} (h : s.Runs (Closes x) s') (drained : s.Drained m) :
    s'.Drained m := by
  induction h with
  | refl => exact drained
  | tail _ move ih => exact move.elim (·.drained ih) (·.drained ih)

/-- Closing the direct map below, once nothing waits, saves it first, or is
refused and leaves it open. -/
theorem close_direct {waiting : Option WriteBuffer} (rests : s.Rests m b d waiting)
    (drained : ∀ w, waiting = some w → w.snapshot = []) :
    s.Runs (Closes m) (b.close.after s) ∧
      (∀ s', b.close s = .ok () s' → s.Tight b →
        ∃ d', s'.maps[b.index]? = some (.direct d') ∧ d'.dirty = false ∧ d'.closed = true) ∧
      ∀ fault s', b.close s = .error fault s' → ∃ cause, fault = .error cause := by
  rw [MapHandle.after_close_direct rests.base, MapHandle.close_direct rests.base]
  have saved : s.UpkeepMove (({ s with disk := (d.save s.disk).2.2 } : Store).set b
      (.direct (d.save s.disk).2.1)) := .saved rests.base
  have stored : ({ s with disk := (d.save s.disk).2.2 } : Store).Rests m b d waiting :=
    rests.of_maps rfl
  have still := stored.set_base (d.save s.disk).2.1
  cases closed : d.closed with
  | true =>
    have same : d.close s.disk = (.ok (), d, s.disk) := by
      simp [DirectMap.close, closed]
    rw [same, show ({ s with disk := s.disk } : Store).set b (.direct d) = s from
      set_self rests.base]
    refine ⟨.refl, fun s' run' tight => ?_, fun fault s' run' => by cases run'⟩
    cases run'
    exact ⟨d, rests.base, tight d rests.base closed, closed⟩
  | false =>
    unfold DirectMap.close
    rw [closed]
    simp only [Bool.false_eq_true, if_false]
    have clean : (d.save s.disk).1 = .ok () → _ := DirectMap.clean_of_save
    cases made : d.save s.disk with
    | mk answer rest =>
      obtain ⟨d₁, disk₁⟩ := rest
      rw [made] at saved still clean
      cases answer with
      | error cause =>
        refine ⟨.single (.inl saved), ?_, fun fault s' run' => ?_⟩
        · intro s' run'
          cases run'
        · cases run'
          exact ⟨cause, rfl⟩
      | ok _ =>
        have notDirty : d₁.dirty = false := clean rfl
        have move := Closes.base still notDirty drained
        rw [set_set] at move
        refine ⟨.tail (.single (.inl saved)) (.inr move), fun s' run' _ => ?_,
          fun fault s' run' => by cases run'⟩
        cases run'
        exact ⟨{ d₁ with closed := true }, maps_set_self _ rests.base, notDirty, rfl⟩

/-- Draining the map on top, then closing the map below. -/
theorem drain_close {α : Type} {a : Action α} (layout : s.Layout)
    (state : s.maps[m.index]? = some st) (above : st.role = .over front)
    (upkept : s.UpkeepMoves (a.after s)) (drained : ∀ r s', a s = .ok r s' → s'.Drained m) :
    s.Runs (Closes m) ((do let _ ← a; front.backing.close : Action Unit).after s) ∧
      ∀ s', (do let _ ← a; front.backing.close : Action Unit) s = .ok () s' →
        s.Tight front.backing → s'.ShutAt m := by
  obtain ⟨r, run⟩ | ⟨fault, run⟩ := Action.ends a s
  · have role : (a.after s).role? m = some (.over front) := by
      rw [upkept.role?, role?_of_maps state, above]
    obtain ⟨st', state', over'⟩ := over_of_role? role
    obtain ⟨d, rests⟩ := (upkept.layout layout).rests_over state' over'
    obtain ⟨closes, shut, -⟩ := close_direct rests ((drained r _ run).rests rests)
    rw [Action.after_bind_of_ok run]
    refine ⟨.trans (upkept.runs _) closes, fun s' run' tight => ?_⟩
    rw [Action.run_bind, run] at run'
    rw [Action.after_of_ok run'] at closes
    obtain ⟨d', base, notDirty, closed⟩ := shut s' run' (upkept.tight tight)
    intro b d'' waiting rests'
    have role' : s'.role? m = some (.over front) := by
      rw [Runs.role? Closes.role? closes, role]
    obtain ⟨st'', state'', over''⟩ := over_of_role? role'
    obtain ⟨rfl, -⟩ := rests'.of_over state'' over''
    rw [rests'.base] at base
    cases base
    exact ⟨⟨notDirty, (closes.drained (drained _ _ run)).rests rests'⟩, closed⟩
  · rw [Action.after_bind_of_error run]
    refine ⟨upkept.runs _, fun s' run' => ?_⟩
    rw [Action.run_bind, run] at run'
    cases run'

theorem setClosed_runs (m : MapHandle) (closed : Bool) (s : Store) :
    s.Runs (Closes m) ((m.setClosed closed).after s) := by
  unfold MapHandle.setClosed
  cases state : s.maps[m.index]? with
  | none =>
    rw [Action.after_of_ok (Action.run_modifyState_none _ state)]
  | some st =>
    rw [Action.after_of_ok (Action.run_modifyState _ state)]
    cases st with
    | buffered x => exact .single (.inr (.marked closed state))
    | memory _ => rw [set_self state]
    | direct _ => rw [set_self state]
    | adaptive _ => rw [set_self state]
    | faulty _ => rw [set_self state]

/-- The close of an open buffered map is a run with moves that close it, and if
it succeeds the map is saved and closed. -/
theorem close_buffered_runs {x : BufferedMap} (layout : s.Layout)
    (state : s.maps[m.index]? = some (.buffered x)) (notClosed : x.closed = false)
    (below : x.backing.index < m.index) :
    s.Runs (Closes m) (m.close.after s) ∧ ∀ s', m.close s = .ok () s' →
      s.Tight x.backing → s'.ShutAt m := by
  have mark : s.Closes m _ := .marked true state
  have layout₁ := mark.layout layout
  have state₁ : (s.set m (.buffered { x with closed := true })).maps[m.index]? = _ :=
    maps_set_self _ state
  have tight₁ : s.Tight x.backing →
      (s.set m (.buffered { x with closed := true })).Tight x.backing := mark.tight
  have run := MapHandle.close_buffered state notClosed below
  generalize s.set m (.buffered { x with closed := true }) = s₁ at *
  obtain ⟨merged, drained⟩ := merge_moves layout₁ m
  obtain ⟨closes, shut⟩ := drain_close layout₁ state₁ rfl merged drained
  have begun : s.Runs (Closes m) s₁ := .single (.inr mark)
  generalize (do let _ ← m.merge; x.backing.close : Action Unit) = last at *
  cases ended : last s₁ with
  | ok r s₂ =>
    rw [ended] at run
    rw [Action.after_of_ok ended] at closes
    rw [Action.after_of_ok run]
    refine ⟨begun.trans closes, fun s' run' tight => ?_⟩
    rw [run] at run'
    cases run'
    exact shut _ ended (tight₁ tight)
  | error fault s₂ =>
    rw [ended] at run
    rw [Action.after_of_error ended] at closes
    cases fault with
    | panic message =>
      rw [Action.after_of_error run]
      refine ⟨begun.trans closes, fun s' run' => ?_⟩
      rw [run] at run'
      cases run'
    | error cause =>
      rw [Action.after_of_error run]
      refine ⟨begun.trans (closes.trans (setClosed_runs m false s₂)), fun s' run' => ?_⟩
      rw [run] at run'
      cases run'

/-- A close of any map is a run with moves that close it; if it succeeds the map
is saved and closed. -/
theorem close_runs (layout : s.Layout) (m : MapHandle) :
    s.Runs (Closes m) (m.close.after s) ∧ ∀ s', m.close s = .ok () s' → s.Sealable m →
      s'.ShutAt m := by
  cases state : s.maps[m.index]? with
  | none =>
    have run := MapHandle.close_none state
    rw [Action.after_of_error run, run]
    exact ⟨.refl, nofun⟩
  | some st =>
    obtain ⟨p, rfl⟩ | ⟨d, rfl⟩ | ⟨front, d, above, below, base⟩ := layout.kinds state
    · have run := MapHandle.close_memory state
      rw [Action.after_of_ok run, run]
      refine ⟨.single (.inr (.memory state)), fun s' run _ b d waiting rests => ?_⟩
      cases run
      exact absurd (role?_of_maps (maps_set_self _ state)) rests.lasting
    · obtain ⟨closes, shut, -⟩ := close_direct (rests_direct state) nofun
      refine ⟨closes, fun s' run sealable b d' waiting rests => ?_⟩
      obtain ⟨d'', base, notDirty, closed⟩ :=
        shut s' run (sealable.tight m d none (rests_direct state))
      obtain ⟨-, rfl, rfl⟩ := rests.of_direct base
      exact ⟨clean_none notDirty, closed⟩
    · obtain ⟨d', rests⟩ := layout.rests_over state above
      obtain ⟨x, rfl, rfl⟩ | ⟨a, rfl, rfl⟩ := MapState.cases_of_role above
      · cases closed : x.closed with
        | true =>
          have run := MapHandle.close_closed state closed
          rw [Action.after_of_ok run, run]
          refine ⟨.refl, fun s' run sealable => ?_⟩
          cases run
          exact sealable.shut x state closed
        | false =>
          obtain ⟨closes, shut⟩ := close_buffered_runs layout state closed below
          exact ⟨closes, fun s' run sealable => shut s' run (sealable.tight _ _ _ rests)⟩
      · obtain ⟨closes, shut⟩ := drain_close layout state rfl (switchTo_moves layout m .direct)
          fun _ _ run => switchToDirect_drained state run
        rw [Action.after, MapHandle.close_adaptive state below]
        exact ⟨closes, fun s' run sealable => shut s' run (sealable.tight _ _ _ rests)⟩

end Store

end MapStore
