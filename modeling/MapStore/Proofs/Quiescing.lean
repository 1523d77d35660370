/-
MapStore.Proofs.Quiescing — a tick that failed at nothing leaves nothing to do.

After such a tick every adaptive map is in the mode that is wanted, if any is
(`Decided`): it was changed to it, and its meter, with a new window, wants the
same as before or nothing. Every buffer on the list is drained, and every map to
be saved has nothing left to save (`Flushed`). Later visits of the same tick undo
none of this. A merge makes a direct map dirty, but a merge of a tick comes
before all saves, and one that a save begins with is followed by the save of
that direct map.

A store in that state is `Quiescent`, and a tick of it visits everybody and
changes nothing but the meters' windows.
-/
import MapStore.Proofs.Metering
import MapStore.Proofs.Settling
import MapStore.Proofs.Admitting

namespace MapStore

/-! ## What is wanted -/

namespace ModePolicy

variable {policy : ModePolicy} {meter : AccessMeter} {target : Option MapMode}

/-- The mode that the policy wants for what a meter reports, if any. -/
def wants (policy : ModePolicy) (meter : AccessMeter) : Except Fault (Option MapMode) :=
  meter.readPercent.map fun read => policy.modeFor read meter.writePercent

/-- In a new window a meter that counts wants nothing, and one that does not
wants the same as before. -/
theorem wants_reset (h : policy.wants meter = .ok target) :
    ∃ again, policy.wants meter.reset = .ok again ∧ (again = none ∨ again = target) := by
  cases meter with
  | window w => exact ⟨none, by simp [wants, AccessMeter.reset, AccessMeter.readPercent,
      AccessMeter.writePercent, AccessWindow.idle, AccessWindow.readPercent,
      AccessWindow.writePercent, AccessWindow.percent, Except.map, modeFor], .inl rfl⟩
  | fixed f => exact ⟨target, h, .inr rfl⟩

end ModePolicy

namespace Store

variable {policy : ModePolicy} {s s' s'' : Store} {m b : MapHandle} {a : AdaptiveMap}
  {st : MapState} {front : Front} {r : Decision}

/-- Every meter wants what it wanted, or nothing. -/
def WantsNoMore (policy : ModePolicy) (s s' : Store) : Prop :=
  ∀ h target, policy.wants (s.meterAt h) = .ok target →
    ∃ again, policy.wants (s'.meterAt h) = .ok again ∧ (again = none ∨ again = target)

namespace WantsNoMore

theorem of_meters (same : s'.meters = s.meters) : WantsNoMore policy s s' := by
  intro h target wanted
  refine ⟨target, ?_, .inr rfl⟩
  rw [meterAt, same]
  exact wanted

theorem refl (s : Store) : WantsNoMore policy s s := of_meters rfl

theorem trans (h : WantsNoMore policy s s') (h' : WantsNoMore policy s' s'') :
    WantsNoMore policy s s'' := by
  intro meter target wanted
  obtain ⟨again, wanted', less⟩ := h meter target wanted
  obtain ⟨last, wanted'', less'⟩ := h' meter again wanted'
  refine ⟨last, wanted'', ?_⟩
  obtain rfl | rfl := less'
  · exact .inl rfl
  · exact less

end WantsNoMore

theorem wantsNoMore_rewound (policy : ModePolicy) (s : Store) (h : MeterHandle) :
    WantsNoMore policy s (s.rewound h) := by
  intro meter target wanted
  rw [meterAt_rewound]
  split
  · exact ModePolicy.wants_reset wanted
  · exact ⟨target, wanted, .inr rfl⟩

theorem exists_of_role? (h : s.role? m ≠ none) : ∃ st, s.maps[m.index]? = some st := by
  cases state : s.maps[m.index]? with
  | none => simp [role?, state] at h
  | some st => exact ⟨st, rfl⟩

theorem role?_ne_none (state : s.maps[m.index]? = some st) : s.role? m ≠ none := by
  simp [role?, state]

/-- Adaptive maps are in the mode that is wanted of them, if any is. -/
structure Decided (policy : ModePolicy) (s : Store) (m : MapHandle) : Prop where
  there : s.role? m ≠ none
  mode : ∀ p, s.profile? m = some p → ∃ target,
    policy.wants (s.meterAt p.meter) = .ok target ∧ (target = none ∨ target = some p.mode)

theorem Decided.keep (h : s.Decided policy m) (roles : s'.role? = s.role?)
    (profile : s'.profile? m = s.profile? m) (noMore : WantsNoMore policy s s') :
    s'.Decided policy m where
  there := roles ▸ h.there
  mode p is := by
    obtain ⟨target, wanted, done⟩ := h.mode p (profile ▸ is)
    obtain ⟨again, wanted', less⟩ := noMore p.meter target wanted
    refine ⟨again, wanted', ?_⟩
    obtain rfl | rfl := less
    · exact .inl rfl
    · exact done

end Store

/-! ## Evaluating once more -/

namespace Tick

open Store

variable {policy : ModePolicy} {s s' : Store} {m x : MapHandle} {a : AdaptiveMap}
  {target : MapMode} {r : Decision}

/-- A map that is in the mode already is left alone. -/
theorem switchTo_of_mode (state : s.maps[m.index]? = some (.adaptive a)) (mode : a.mode = target) :
    switchTo m target s = .ok false s := by
  unfold switchTo
  cases target with
  | buffered =>
    obtain ⟨-, run⟩ | ⟨direct, -⟩ | ⟨direct, -⟩ := MapHandle.switchToBuffered_cases state
    · exact run
    · rw [mode] at direct
      cases direct
    · rw [mode] at direct
      cases direct
  | direct =>
    obtain ⟨-, run⟩ | ⟨-, buffered, -⟩ | ⟨-, -, buffered, -⟩ :=
      MapHandle.switchToDirect_cases state
    · exact run
    · rw [mode] at buffered
      cases buffered
    · rw [mode] at buffered
      cases buffered

/-- If the answer is that nothing changed, the map was in the mode. -/
theorem mode_of_switchTo (state : s.maps[m.index]? = some (.adaptive a))
    (run : switchTo m target s = .ok false s') : a.mode = target := by
  unfold switchTo at run
  cases target with
  | buffered =>
    obtain ⟨mode, -⟩ | ⟨-, -, ran⟩ | ⟨-, -, ran⟩ := MapHandle.switchToBuffered_cases state
    · exact mode
    · simp only [ran] at run
      cases run
    · simp only [ran] at run
      cases run
  | direct =>
    obtain ⟨mode, -⟩ | ⟨fault, -, -, ran⟩ | ⟨stats, buffer, -, -, -, ran⟩ :=
      MapHandle.switchToDirect_cases state
    · exact mode
    · simp only [ran] at run
      cases run
    · simp only [ran] at run
      cases run

/-- An adaptive map is asked what is wanted, has a new window, and is switched
if something is. -/
theorem evaluate_adaptive (policy : ModePolicy)
    (state : s.maps[m.index]? = some (.adaptive a)) :
    evaluate policy m s = match policy.wants (s.meterAt a.meter) with
      | .error fault => .error fault s
      | .ok none => .ok none (s.rewound a.meter)
      | .ok (some target) =>
        match switchTo m target (s.rewound a.meter) with
        | .ok changed s' => .ok (some (target, .ok changed)) s'
        | .error fault s' => .ok (some (target, .error fault)) s' := by
  have reset : m.resetWindow s = .ok () (s.rewound a.meter) := by
    unfold MapHandle.resetWindow
    rw [Action.run_bind, Action.run_state state]
    rfl
  unfold evaluate MapHandle.percents ModePolicy.wants meterAt
  rw [Action.run_bind, Action.run_bind, Action.run_state state]
  simp only [Action.run_bind, Action.run_meter]
  cases ((s.meters[a.meter.index]?).getD .idle).readPercent with
  | error fault => rfl
  | ok read =>
    simp only [Action.run_pure, reset, Except.map]
    cases policy.modeFor read ((s.meters[a.meter.index]?).getD .idle).writePercent with
    | none => rfl
    | some target =>
      simp only [Action.run_bind, Action.run_attempt]
      cases switchTo m target (s.rewound a.meter) <;> rfl

/-- Of all meters, an evaluation changes that of the map, and only by a new
window. -/
theorem meters_evaluate (layout : s.Layout) (run : evaluate policy m s = .ok r s') :
    s'.meters = s.measured m .reset := by
  cases state : s.maps[m.index]? with
  | none => simp [evaluate, MapHandle.percents, Action.run_state_none state] at run
  | some st =>
    cases plain : st.profile? with
    | none =>
      rw [evaluate_plain policy state plain] at run
      cases run
      rw [measured_plain state plain]
    | some p =>
      have profile : s.profile? m = some p := by simp [profile?, state, plain]
      have rewound : (s.rewound p.meter).Layout := layout.of_maps rfl
      obtain ⟨-, attempted⟩ := (evaluated_of_run run).begins p profile
      rw [measured, profile]
      exact (attempted.meters rewound.flat).2

/-- No evaluation makes a meter want more. -/
theorem wantsNoMore_of_evaluate (layout : s.Layout) (run : evaluate policy m s = .ok r s') :
    WantsNoMore policy s s' := by
  have meters := meters_evaluate layout run
  unfold measured at meters
  cases profile : s.profile? m with
  | none =>
    rw [profile] at meters
    exact .of_meters meters
  | some p =>
    rw [profile] at meters
    exact (wantsNoMore_rewound policy s p.meter).trans (.of_meters meters)

/-- A map whose evaluation did not fail is in the mode that is wanted. -/
theorem decided_of_evaluate (layout : s.Layout) (run : evaluate policy m s = .ok r s')
    (ok : Decision.failed r = false) : s'.Decided policy m := by
  have evaluated := evaluated_of_run run
  have noMore := wantsNoMore_of_evaluate layout run
  have upkept := Keeping.evaluate policy m s layout
  rw [Action.after_of_ok run] at upkept
  refine ⟨?_, ?_⟩
  · rw [upkept.role?]
    cases state : s.maps[m.index]? with
    | none => simp [evaluate, MapHandle.percents, Action.run_state_none state] at run
    | some st => exact role?_ne_none state
  · intro p' profile'
    rw [evaluated.self] at profile'
    obtain ⟨p, profile, rfl⟩ := Option.map_eq_some_iff.1 profile'
    obtain ⟨st, state, is⟩ := Option.bind_eq_some_iff.1 profile
    obtain ⟨a, rfl, rfl⟩ := MapState.adaptive_of_profile is
    rw [evaluate_adaptive policy state] at run
    split at run
    · cases run
    · rename_i wanted
      obtain ⟨again, wanted', less⟩ := noMore a.meter none wanted
      exact ⟨again, wanted', .inl (less.elim id id)⟩
    · rename_i target wanted
      obtain ⟨again, wanted', less⟩ := noMore a.meter (some target) wanted
      refine ⟨again, wanted', less.imp_right fun eq => eq.trans ?_⟩
      split at run
      · rename_i changed s₁ ran
        cases run
        cases changed with
        | true => rfl
        | false => exact congrArg some (mode_of_switchTo (s := s.rewound a.meter) state ran).symm
      · cases run
        cases ok

end Tick

/-! ## Merging and saving once more -/

namespace MapHandle

open Store

variable {s s' : Store} {m b : MapHandle} {d : DirectMap} {st : MapState}

/-- A direct map that is not dirty is saved without anything being done. -/
theorem save_of_saved (base : s.maps[b.index]? = some (.direct d)) (clean : d.dirty = false) :
    b.save s = .ok () s := by
  rw [save_direct base, DirectMap.save_of_clean clean]
  rw [show ({ s with disk := s.disk } : Store).set b (.direct d) = s from set_self base]
  rfl

end MapHandle

namespace Store

variable {s s' s'' : Store} {m x b : MapHandle} {st : MapState} {front : Front} {d : DirectMap}

/-- A save of the map finds nothing to do. -/
structure Flushed (s : Store) (m : MapHandle) : Prop where
  there : s.role? m ≠ none
  saved : s.SavedAt m
  /-- Of a map over another that is not closed nothing waits, and the map below
  has no change that is not saved. -/
  below : ∀ front, s.role? m = some (.over front) → s.OpenAt m →
    s.Drained m ∧ s.SavedAt front.backing

theorem Flushed.save (h : s.Flushed m) (layout : s.Layout) : m.save s = .ok () s := by
  obtain ⟨st, state⟩ := exists_of_role? h.there
  obtain ⟨p, rfl⟩ | ⟨d, rfl⟩ | ⟨front, d, above, lower, base⟩ := layout.kinds state
  · exact MapHandle.save_memory state
  · exact MapHandle.save_of_saved state (h.saved d state)
  · cases isOpen : st.isOpen with
    | false => exact save_shut state above isOpen
    | true =>
      have role : s.role? m = some (.over front) := by
        rw [role?_of_maps state, above]
      obtain ⟨drained, saved⟩ := h.below front role fun st' state' => by
        rw [state] at state'
        cases state'
        exact isOpen
      rw [save_over state above isOpen lower, Action.run_bind, drained.merge state]
      exact MapHandle.save_of_saved base (saved d base)

/-- Whether a map is open is part of its outline. -/
theorem openAt_of_touches {P : MapHandle → Prop} (touched : s.Touches P s') :
    s'.OpenAt m ↔ s.OpenAt m := by
  have same : (s'.maps[m.index]?).map MapState.isOpen = (s.maps[m.index]?).map MapState.isOpen := by
    have outlines := congrArg (fun l => l[m.index]?.map MapState.isOpen) touched.outlines
    have open' (st : MapState) : st.outline.isOpen = st.isOpen := by
      cases st <;> rfl
    simpa [Function.comp_def, open'] using outlines
  have as_option (t : Store) :
      t.OpenAt m ↔ ∀ o, (t.maps[m.index]?).map MapState.isOpen = some o → o = true := by
    simp [OpenAt]
  rw [as_option, as_option, same]

/-- A save that succeeded leaves the map flushed. -/
theorem flushed_of_save (layout : s.Layout) (run : m.save s = .ok () s') : s'.Flushed m := by
  obtain ⟨upkept, clean⟩ := save_moves layout m
  have touched : s.Touches (fun _ => True) (m.save.after s) :=
    frame_save trivial fun _ _ _ _ _ _ => trivial
  rw [Action.after_of_ok run] at upkept touched
  refine ⟨?_, .of_save layout run, ?_⟩
  · rw [upkept.role?]
    intro absent
    have missing : s.maps[m.index]? = none := by simpa [role?] using absent
    rw [MapHandle.save_none missing] at run
    cases run
  · intro front role isOpen
    have clean := clean s' run ((openAt_of_touches touched).1 isOpen)
    obtain ⟨st, state, above⟩ := over_of_role? role
    obtain ⟨d, rests⟩ := (upkept.layout layout).rests_over state above
    obtain ⟨notDirty, drained⟩ := clean _ d _ rests
    refine ⟨?_, ?_⟩
    · intro st' w state' waiting
      rw [state] at state'
      cases state'
      exact drained w waiting
    · intro d' base
      rw [rests.base] at base
      cases base
      exact notDirty

/-- The map and the one below it. -/
def Stack (s : Store) (m : MapHandle) (x : MapHandle) : Prop :=
  x = m ∨ ∃ front, s.role? m = some (.over front) ∧ x = front.backing

/-- Calls of a map stay within the map and the one below it. -/
theorem Layout.closed_stack (layout : s.Layout) (m : MapHandle) : s.Closed (s.Stack m) := by
  rintro x inside st state y reached
  obtain rfl | ⟨front, role, rfl⟩ := inside
  · cases st with
    | buffered z =>
      obtain rfl := List.mem_singleton.1 reached
      exact .inr ⟨_, role?_of_maps state, rfl⟩
    | adaptive a =>
      obtain rfl := List.mem_singleton.1 reached
      exact .inr ⟨_, role?_of_maps state, rfl⟩
    | faulty f => exact absurd (role?_of_maps state) (layout.faultless x)
    | memory p => cases reached
    | direct d => cases reached
  · obtain ⟨-, base, is, -⟩ := layout.below m front role
    obtain ⟨d, direct, -⟩ := direct_of_role? is
    rw [direct] at state
    cases state
    cases reached

/-- A save that succeeded leaves no direct map with a change that is not saved
if that had none before. -/
theorem savedAt_of_save (layout : s.Layout) (run : x.save s = .ok () s') (saved : s.SavedAt b) :
    s'.SavedAt b := by
  have flushed := flushed_of_save layout run
  have roles := (save_moves layout x).1.role?
  have touched := frame_save (.inl rfl) (layout.closed_stack x)
  rw [Action.after_of_ok run] at roles touched
  by_cases inside : s.Stack x b
  · obtain rfl | ⟨front, role, rfl⟩ := inside
    · exact flushed.saved
    · obtain ⟨st, state, above⟩ := over_of_role? role
      cases isOpen : st.isOpen with
      | true =>
        refine (flushed.below front (roles ▸ role) ?_).2
        refine (openAt_of_touches touched).2 fun st' state' => ?_
        rw [state] at state'
        cases state'
        exact isOpen
      | false =>
        rw [save_shut state above isOpen] at run
        cases run
        exact saved
  · intro d base
    exact saved d (touched.other b inside ▸ base)

theorem Flushed.of_save (h : s.Flushed m) (layout : s.Layout) (run : x.save s = .ok () s') :
    s'.Flushed m := by
  have upkept := (save_moves layout x).1
  have touched := frame_save (.inl rfl) (layout.closed_stack x)
  rw [Action.after_of_ok run] at upkept touched
  refine ⟨upkept.role? ▸ h.there, savedAt_of_save layout run h.saved, ?_⟩
  intro front role isOpen
  obtain ⟨drained, saved⟩ :=
    h.below front (upkept.role? ▸ role) ((openAt_of_touches touched).1 isOpen)
  exact ⟨upkept.drained drained, savedAt_of_save layout run saved⟩

/-! ## What the phases of a tick leave -/

/-- A merge of the unit finds nothing to do. -/
def Emptied (s : Store) : MergeUnit → Prop
  | .map m => s.role? m ≠ none ∧ s.Drained m
  | .standIn u => (s.units[u.index]?).bind (·.fault) = none

/-- The stores differ at most in meters, and in how often stand-ins ran. -/
structure Alike (s s' : Store) : Prop where
  maps : s'.maps = s.maps
  disk : s'.disk = s.disk
  live : s'.live = s.live
  faults : ∀ i : Nat, (s'.units[i]?).bind (·.fault) = (s.units[i]?).bind (·.fault)

namespace Alike

theorem refl (s : Store) : s.Alike s := ⟨rfl, rfl, rfl, fun _ => rfl⟩

theorem trans (h : s.Alike s') (h' : s'.Alike s'') : s.Alike s'' :=
  ⟨h'.maps.trans h.maps, h'.disk.trans h.disk, h'.live.trans h.live,
    fun i => (h'.faults i).trans (h.faults i)⟩

theorem emptied {u : MergeUnit} (h : s.Alike s') (emptied : s.Emptied u) : s'.Emptied u := by
  cases u with
  | map m =>
    refine ⟨role?_congr h.maps ▸ emptied.1, fun st w state waiting => ?_⟩
    exact emptied.2 st w (h.maps ▸ state) waiting
  | standIn u => exact (h.faults u.index).trans emptied

theorem flushed (h : s.Alike s') (flushed : s.Flushed m) : s'.Flushed m := by
  have roles := role?_congr h.maps
  refine ⟨roles ▸ flushed.there, fun d base => flushed.saved d (h.maps ▸ base), ?_⟩
  intro front role isOpen
  obtain ⟨drained, saved⟩ :=
    flushed.below front (roles ▸ role) fun st state => isOpen st (h.maps ▸ state)
  exact ⟨fun st w state waiting => drained st w (h.maps ▸ state) waiting,
    fun d base => saved d (h.maps ▸ base)⟩

/-- A run of a stand-in. -/
theorem standIn (u : UnitHandle) (s : Store) : s.Alike ((MergeUnit.standIn u).run.after s) := by
  rw [MergeUnit.after_standIn]
  refine ⟨rfl, rfl, rfl, fun i => ?_⟩
  simp only [List.getElem?_modify]
  by_cases same : u.index = i
  · cases s.units[i]? <;> simp [same]
  · simp [same]

end Alike

/-- Upkeep that asks for no window and starts none. -/
def Unmetered (s s' : Store) : Prop := s.Layout → s.UpkeepMoves s' ∧ s'.meters = s.meters

namespace Unmetered

theorem refl (s : Store) : Unmetered s s := fun _ => ⟨.refl, rfl⟩

theorem trans (h : Unmetered s s') (h' : Unmetered s' s'') : Unmetered s s'' := by
  intro layout
  obtain ⟨first, meters⟩ := h layout
  obtain ⟨next, meters'⟩ := h' (first.layout layout)
  exact ⟨first.trans next, meters'.trans meters⟩

theorem run (u : MergeUnit) (s : Store) : Unmetered s (u.run.after s) := by
  intro layout
  cases u with
  | map m => exact ⟨(merge_moves layout m).1, meters_merge layout.flat m⟩
  | standIn u =>
    refine ⟨Keeping.run _ s layout, ?_⟩
    rw [MergeUnit.after_standIn]

theorem save (m : MapHandle) (s : Store) : Unmetered s (m.save.after s) := fun layout =>
  ⟨(save_moves layout m).1, meters_save layout.flat m⟩

/-- A run of attempts is unmetered if each action is. -/
theorem of_visits {β α : Type} {act : β → Action α} {log : List (β × Except Fault α)}
    (visits : Visits (fun x => Action.attempt (act x)) s log s')
    (each : ∀ x s, Unmetered s ((act x).after s)) : Unmetered s s' := by
  refine visits.keeps refl trans fun x r s₁ s₂ run => ?_
  rw [← Action.after_of_ok run, Action.after_attempt]
  exact each x s₁

end Unmetered

/-- A unit whose merge succeeded has nothing left to merge. -/
theorem emptied_of_run {u : MergeUnit} {stats : MergeStats} (layout : s.Layout)
    (run : u.run s = .ok stats s') : s'.Emptied u := by
  cases u with
  | map m =>
    have run : m.merge s = .ok stats s' := run
    obtain ⟨upkept, drained⟩ := merge_moves layout m
    rw [Action.after_of_ok run] at upkept
    refine ⟨?_, drained stats s' run⟩
    rw [upkept.role?]
    intro absent
    have missing : s.maps[m.index]? = none := by simpa [role?] using absent
    rw [MapHandle.run_merge_missing missing] at run
    cases run
  | standIn u =>
    have alike := Alike.standIn u s
    rw [Action.after_of_ok run] at alike
    refine alike.emptied ?_
    unfold MergeUnit.run at run
    simp only [Action.run_bind, Action.run_modify, Action.run_get] at run
    generalize stays : Option.bind _ _ = fault at run
    cases fault with
    | some fault => cases run
    | none => exact (alike.faults u.index).symm.trans (by cases run; exact stays)

/-- What has nothing left to merge stays so while maps are merged and saved. -/
theorem Emptied.keep {u : MergeUnit} (h : s.Emptied u) (upkept : s.UpkeepMoves s')
    (units : s'.units = s.units) : s'.Emptied u := by
  cases u with
  | map m => exact ⟨upkept.role? ▸ h.1, upkept.drained h.2⟩
  | standIn u =>
    rw [Emptied, units]
    exact h

theorem Emptied.of_run {u v : MergeUnit} (h : s.Emptied v) (layout : s.Layout) :
    (u.run.after s).Emptied v := by
  cases u with
  | map m =>
    have touched : s.Touches (fun _ => True) (m.merge.after s) :=
      frame_merge trivial fun _ _ _ _ _ _ => trivial
    exact h.keep (merge_moves layout m).1 touched.units
  | standIn u => exact (Alike.standIn u s).emptied h

theorem Emptied.of_save {u : MergeUnit} (h : s.Emptied u) (layout : s.Layout) (m : MapHandle) :
    (m.save.after s).Emptied u :=
  h.keep (save_moves layout m).1 (frame_save (.inl rfl) (layout.closed_stack m)).units

/-- All units that were merged have nothing left to merge. -/
theorem emptied_of_merges {log : List (MergeUnit × Except Fault MergeStats)}
    (visits : Visits (fun u => Action.attempt (MergeUnit.run u)) s log s') (layout : s.Layout)
    (ok : ∀ e ∈ log, e.2.isOk = true) {u : MergeUnit}
    (mem : s.Emptied u ∨ u ∈ log.map Prod.fst) : s'.Emptied u := by
  induction visits with
  | nil => exact mem.resolve_right nofun
  | @cons x r log s s₁ s₂ visit rest ih =>
    obtain ⟨stats, run⟩ := ok_of_attempt visit (ok _ List.mem_cons_self)
    have layout₁ := (Keeping.run x s layout).layout layout
    have kept : s.Emptied u → s₁.Emptied u := fun emptied => by
      have := emptied.of_run (u := x) layout
      rwa [Action.after_of_ok run] at this
    rw [Action.after_of_ok run] at layout₁
    refine ih layout₁ (fun e mem => ok e (List.mem_cons_of_mem _ mem)) ?_
    rw [List.map_cons, List.mem_cons] at mem
    obtain emptied | rfl | later := mem
    · exact .inl (kept emptied)
    · exact .inl (emptied_of_run layout run)
    · exact .inr later

/-- All maps that were saved are flushed. -/
theorem flushed_of_saves {log : List (MapHandle × Except Fault Unit)}
    (visits : Visits (fun m => Action.attempt (MapHandle.save m)) s log s') (layout : s.Layout)
    (ok : ∀ e ∈ log, e.2.isOk = true) :
    (∀ m, s.Flushed m ∨ m ∈ log.map Prod.fst → s'.Flushed m) ∧
      ∀ u, s.Emptied u → s'.Emptied u := by
  induction visits with
  | nil => exact ⟨fun m mem => mem.resolve_right nofun, fun _ => id⟩
  | @cons x r log s s₁ s₂ visit rest ih =>
    obtain ⟨_, run⟩ := ok_of_attempt visit (ok _ List.mem_cons_self)
    have layout₁ := (Keeping.save x s layout).layout layout
    have emptied₁ (u : MergeUnit) (emptied : s.Emptied u) := emptied.of_save layout x
    rw [Action.after_of_ok run] at layout₁ emptied₁
    obtain ⟨flushed, emptied⟩ := ih layout₁ fun e mem => ok e (List.mem_cons_of_mem _ mem)
    refine ⟨fun m mem => flushed m ?_, fun u h => emptied u (emptied₁ u h)⟩
    rw [List.map_cons, List.mem_cons] at mem
    obtain already | rfl | later := mem
    · exact .inl (already.of_save layout run)
    · exact .inl (flushed_of_save layout run)
    · exact .inr later

end Store

namespace Tick

open Store

variable {policy : ModePolicy} {live : LiveHandle} {s s' s'' : Store} {m : MapHandle}
  {report : TickReport}

/-- All maps whose evaluation did not fail are in the mode that is wanted. -/
theorem decided_of_evaluations {log : List (MapHandle × Decision)}
    (visits : Visits (evaluate policy) s log s') (layout : s.Layout)
    (ok : ∀ e ∈ log, Decision.failed e.2 = false) :
    s.UpkeepMoves s' ∧ ∀ m, s.Decided policy m ∨ m ∈ log.map Prod.fst → s'.Decided policy m := by
  induction visits with
  | nil => exact ⟨.refl, fun m mem => mem.resolve_right nofun⟩
  | @cons x r log s s₁ s₂ visit rest ih =>
    have upkept := Keeping.evaluate policy x s layout
    rw [Action.after_of_ok visit] at upkept
    have own := decided_of_evaluate layout visit (ok _ List.mem_cons_self)
    obtain ⟨later, decided⟩ :=
      ih (upkept.layout layout) fun e mem => ok e (List.mem_cons_of_mem _ mem)
    refine ⟨upkept.trans later, fun m mem => decided m ?_⟩
    by_cases same : m = x
    · exact .inl (same ▸ own)
    · rw [List.map_cons, List.mem_cons] at mem
      obtain already | eq | later := mem
      · exact .inl (already.keep upkept.role? ((evaluated_of_run visit).others m same)
          (wantsNoMore_of_evaluate layout visit))
      · exact absurd eq same
      · exact .inr later

/-- Evaluations leave the other two lists of maps. -/
theorem adaptive_of_evaluations {log : List (MapHandle × Decision)}
    (visits : Visits (evaluate policy) s log s') (h : LiveHandle) :
    (s'.liveSets h).adaptive = (s.liveSets h).adaptive := by
  refine visits.keeps (R := fun s s' => (s'.liveSets h).adaptive = (s.liveSets h).adaptive)
    (fun _ => rfl) (fun first next => next.trans first) fun x r s s' run => ?_
  rw [(evaluated_of_run run).live, LiveSets.adaptive_relist]

/-! ## Ticks -/

/-- There is nothing for a tick to do. -/
structure Quiescent (policy : ModePolicy) (live : LiveHandle) (s : Store) : Prop where
  layout : s.Layout
  decided : ∀ m ∈ (s.liveSets live).adaptive.members, s.Decided policy m
  emptied : ∀ u ∈ (s.liveSets live).buffered.members, s.Emptied u
  flushed : ∀ m ∈ (s.liveSets live).storage.members, s.Flushed m

/-- A tick that failed at nothing leaves nothing to do. -/
theorem quiescent_of_run (layout : s.Layout) (run : Tick.run live policy s = .ok report s')
    (faultless : report.Faultless) : Quiescent policy live s' := by
  obtain ⟨s₁, s₂, evaluations, merges, saves, ⟨visits₁, each₁, visits₂, each₂, visits₃, each₃⟩,
    rfl⟩ := phases_of_run run
  obtain ⟨switched, merged, saved⟩ := ok_of_faultless faultless
  obtain ⟨upkept₁, decided⟩ := decided_of_evaluations visits₁ layout switched
  have layout₁ := upkept₁.layout layout
  obtain ⟨upkept₂, meters₂⟩ := Unmetered.of_visits visits₂ Unmetered.run layout₁
  have layout₂ := upkept₂.layout layout₁
  obtain ⟨upkept₃, meters₃⟩ := Unmetered.of_visits visits₃ Unmetered.save layout₂
  obtain ⟨flushed, emptied⟩ := flushed_of_saves visits₃ layout₂ saved
  have quiet₃ := Quiet.of_saves visits₃
  have quiet := (Quiet.of_merges visits₂).trans quiet₃
  -- the lists are those that each phase began with
  refine ⟨upkept₃.layout layout₂, fun m mem => ?_, fun u mem => ?_, fun m mem => ?_⟩
  · rw [quiet.liveSets, adaptive_of_evaluations visits₁, ← each₁] at mem
    exact (decided m (.inr mem)).keep (upkept₃.role?.trans upkept₂.role?) (quiet.profiles m)
      (.of_meters (meters₃.trans meters₂))
  · rw [quiet.liveSets, ← each₂] at mem
    exact emptied u (emptied_of_merges visits₂ layout₁ merged (.inr mem))
  · rw [quiet₃.liveSets, ← each₃] at mem
    exact flushed m (.inr mem)

theorem Decided.evaluate (h : s.Decided policy m) :
    ∃ r s', Tick.evaluate policy m s = .ok r s' ∧
      (∀ report : TickReport, report.countEvaluation r = report) ∧
      s.Alike s' ∧ WantsNoMore policy s s' := by
  obtain ⟨st, state⟩ := exists_of_role? h.there
  cases plain : st.profile? with
  | none =>
    exact ⟨none, s, evaluate_plain policy state plain, fun _ => rfl, .refl s, .refl s⟩
  | some p =>
    obtain ⟨a, rfl, rfl⟩ := MapState.adaptive_of_profile plain
    have profile : s.profile? m = some ⟨a.mode, a.meter, a.live⟩ := by
      rw [profile?, state]
      exact plain
    obtain ⟨target, wanted, done⟩ : ∃ target, policy.wants (s.meterAt a.meter) = .ok target ∧
      (target = none ∨ target = some a.mode) := h.mode _ profile
    have alike : s.Alike (s.rewound a.meter) := ⟨rfl, rfl, rfl, fun _ => rfl⟩
    have noMore := wantsNoMore_rewound policy s a.meter
    rw [evaluate_adaptive policy state, wanted]
    obtain rfl | rfl := done
    · exact ⟨none, _, rfl, fun _ => rfl, alike, noMore⟩
    · have stays := switchTo_of_mode (s := s.rewound a.meter) state rfl
      simp only [stays]
      exact ⟨some (a.mode, .ok false), _, rfl, fun _ => rfl, alike, noMore⟩

/-- Maps in the modes that are wanted stay in them. -/
theorem optimize_decided {l : List MapHandle} (decided : ∀ m ∈ l, s.Decided policy m)
    (r : TickReport) : ∃ s', l.foldlM (optimize policy) r s = .ok r s' ∧ s.Alike s' := by
  induction l generalizing s with
  | nil => exact ⟨s, rfl, .refl s⟩
  | cons m rest ih =>
    obtain ⟨decision, s₁, run, counted, alike, noMore⟩ :=
      Decided.evaluate (decided m List.mem_cons_self)
    obtain ⟨s', later, alike'⟩ := ih fun x mem =>
      (decided x (List.mem_cons_of_mem _ mem)).keep (role?_congr alike.maps)
        (by rw [profile?, profile?, alike.maps]) noMore
    refine ⟨s', ?_, alike.trans alike'⟩
    have first : optimize policy r m s = .ok r s₁ := by
      rw [optimize, Action.run_bind, run]
      simp [counted]
    rw [List.foldlM_cons, Action.run_bind, first]
    exact later

theorem Emptied.run {u : MergeUnit} (h : s.Emptied u) :
    ∃ stats s', u.run s = .ok stats s' ∧ s.Alike s' := by
  cases u with
  | map m =>
    obtain ⟨st, state⟩ := exists_of_role? h.1
    exact ⟨.none, s, h.2.merge state, .refl s⟩
  | standIn u =>
    have alike := Alike.standIn u s
    have calm : (((MergeUnit.standIn u).run.after s).units[u.index]?).bind (·.fault) = none :=
      (alike.faults u.index).trans h
    refine ⟨.none, _, ?_, alike⟩
    rw [MergeUnit.after_standIn] at calm ⊢
    unfold MergeUnit.run
    simp only [Action.run_bind, Action.run_modify, Action.run_get]
    simp only at calm
    rw [calm]
    rfl

/-- Units with nothing to merge are merged. -/
theorem merge_emptied {l : List MergeUnit} (emptied : ∀ u ∈ l, s.Emptied u) (r : TickReport) :
    ∃ s', l.foldlM mergeUnit r s = .ok { r with merged := r.merged + l.length } s' ∧
      s.Alike s' := by
  induction l generalizing s r with
  | nil => exact ⟨s, rfl, .refl s⟩
  | cons u rest ih =>
    obtain ⟨stats, s₁, run, alike⟩ := Emptied.run (emptied u List.mem_cons_self)
    obtain ⟨s', later, alike'⟩ := ih (s := s₁)
      (fun v mem => alike.emptied (emptied v (List.mem_cons_of_mem _ mem)))
      { r with merged := r.merged + 1 }
    refine ⟨s', ?_, alike.trans alike'⟩
    have first : mergeUnit r u s = .ok { r with merged := r.merged + 1 } s₁ := by
      rw [mergeUnit, Action.run_bind, Action.run_attempt, run]
      rfl
    rw [List.foldlM_cons, Action.run_bind, first]
    simp only [later, List.length_cons]
    simp only [Nat.add_assoc, Nat.add_comm 1]

/-- Maps with nothing to save are saved. -/
theorem flush_flushed {l : List MapHandle} (layout : s.Layout) (flushed : ∀ m ∈ l, s.Flushed m)
    (r : TickReport) :
    l.foldlM flush r s = .ok { r with flushed := r.flushed + l.length } s := by
  induction l generalizing r with
  | nil => rfl
  | cons m rest ih =>
    have first : flush r m s = .ok { r with flushed := r.flushed + 1 } s := by
      rw [flush, Action.run_bind, Action.run_attempt, (flushed m List.mem_cons_self).save layout]
      rfl
    rw [List.foldlM_cons, Action.run_bind, first]
    simp only [ih fun x mem => flushed x (List.mem_cons_of_mem _ mem), List.length_cons]
    simp only [Nat.add_assoc, Nat.add_comm 1]

/-- Where there is nothing to do, a tick visits every member and does nothing. -/
theorem Quiescent.run (h : Quiescent policy live s) :
    ∃ s', Tick.run live policy s = .ok { TickReport.none with
        merged := (s.liveSets live).buffered.size, flushed := (s.liveSets live).storage.size } s' ∧
      s.Alike s' := by
  obtain ⟨s₁, first, alike₁⟩ := optimize_decided h.decided .none
  have live₁ : s₁.liveSets live = s.liveSets live := by rw [liveSets, liveSets, alike₁.live]
  obtain ⟨s₂, second, alike₂⟩ :=
    merge_emptied (fun u mem => alike₁.emptied (h.emptied u (live₁ ▸ mem))) .none
  have alike := alike₁.trans alike₂
  have live₂ : s₂.liveSets live = s.liveSets live := by rw [liveSets, liveSets, alike.live]
  have third := flush_flushed (h.layout.of_maps alike.maps)
    (fun m mem => alike.flushed (h.flushed m (live₂ ▸ mem)))
    { TickReport.none with merged := 0 + (s.liveSets live).buffered.size }
  rw [live₁] at second
  rw [live₂] at third
  refine ⟨s₂, ?_, alike⟩
  unfold Tick.run
  simp only [Action.run_bind, Action.run_liveSets, first, live₁, second, live₂]
  exact third.trans (by simp [TickReport.none, LiveSet.size])

end Tick

namespace EngineHandle

open Store

variable {config : Config} {disk : Disk} {e : EngineHandle} {s₀ s' : Store} {acts : List Act}
  {report : TickReport}

/-- However an engine and its maps were used, a tick that failed at nothing
leaves nothing to do: a second one, right after it, fails at nothing, changes no
mode, and leaves the maps with all they hold and wait for, the lists of maps and
the disk. -/
theorem second_tick_idles (start : openWith config (.onDisk disk) = .ok e s₀)
    (lawful : ∀ act ∈ acts, act.Lawful) (run : e.tick (Act.run e s₀ acts) = .ok report s')
    (faultless : report.Faultless) :
    ∃ report' s'', e.tick s' = .ok report' s'' ∧ report'.Faultless ∧
      report'.switchedToDirect = 0 ∧ report'.switchedToBuffered = 0 ∧
      s''.maps = s'.maps ∧ s''.live = s'.live ∧ s''.disk = s'.disk := by
  obtain ⟨named, drainable⟩ := drainable_of_openWith (P := fun _ => False) start lawful
    (fun _ => False.elim) fun _ _ _ => False.elim
  have engines := (Run.modeSteps_tick e (Act.run e s₀ acts)).engines
  rw [Action.after_of_ok run] at engines
  obtain ⟨x, asked⟩ := state_answers e (Act.run e s₀ acts)
  have ticked (s : Store) (same : s.engines = (Act.run e s₀ acts).engines) :
      e.tick s = Tick.run x.live ⟨x.config.adaptiveThreshold⟩ s := by
    cases asked
    refine run_tick ?_
    rw [← same]
    rfl
  rw [ticked _ rfl] at run
  obtain ⟨s'', again, alike⟩ :=
    (Tick.quiescent_of_run drainable.layout run faultless).run
  refine ⟨_, s'', (ticked s' engines).trans again, ?_, rfl, rfl, alike.maps, alike.live, alike.disk⟩
  exact ⟨rfl, rfl, rfl⟩

/-- An adaptive map whose meter reports nothing but writes, and a direct map
into which an entry is put. -/
def pairActs : List Act :=
  [.deed (.metered [.fixed ⟨0, 100, none, 0, 0, 0⟩]),
    .deed (.opened ⟨"b", .adaptive, .bytes, .bytes, some ⟨0⟩, false⟩),
    .deed (.opened (depotMap "a")), .deed (.called (.put [1] [2]) ⟨2⟩)]

/-- The two maps with the entry. -/
def pairPut : Store :=
  (Act.run ⟨0⟩ depotStart pairActs.dropLast).set ⟨2⟩ (.direct (depotFull "a" 2))

theorem run_pairActs : Act.run ⟨0⟩ depotStart pairActs = pairPut := by
  have base : (Act.run ⟨0⟩ depotStart pairActs.dropLast).maps[2]? =
      some (.direct (depotEmpty "a" 2)) := rfl
  have taken : (depotEmpty "a" 2).write [1] (.value [2]) = .ok (none, depotFull "a" 2) := rfl
  exact (Deed.called_direct (e := ⟨0⟩) (m := ⟨2⟩) (c := .put [1] [2]) base rfl taken).1

/-- What a tick reports, if it comes to its end. -/
def tickReport? (e : EngineHandle) (s : Store) : Option TickReport :=
  match e.tick s with
  | .ok report _ => some report
  | .error _ _ => none

theorem tick_of_report {s : Store} (h : e.tickReport? s = some report) :
    ∃ s', e.tick s = .ok report s' := by
  unfold tickReport? at h
  cases run : e.tick s with
  | ok report' s' =>
    rw [run] at h
    cases h
    exact ⟨s', rfl⟩
  | error fault s' =>
    rw [run] at h
    cases h

/-- The first tick has a mode to change and a file to write, the second one has
neither. -/
theorem pair_idles :
    openWith depot (.onDisk .empty) = .ok ⟨0⟩ depotStart ∧ (∀ act ∈ pairActs, act.Lawful) ∧
      ∃ report s', (⟨0⟩ : EngineHandle).tick (Act.run ⟨0⟩ depotStart pairActs) = .ok report s' ∧
        report = ⟨0, 1, 0, 1, 0, 2, 0⟩ ∧ report.Faultless ∧
        ∃ report' s'', (⟨0⟩ : EngineHandle).tick s' = .ok report' s'' ∧ report'.Faultless ∧
          report'.switchedToDirect = 0 ∧ report'.switchedToBuffered = 0 ∧
          s''.maps = s'.maps ∧ s''.live = s'.live ∧ s''.disk = s'.disk := by
  have start : openWith depot (.onDisk .empty) = .ok ⟨0⟩ depotStart := rfl
  have lawful : ∀ act ∈ pairActs, act.Lawful := by
    have bytes : Std.TransCmp DataType.bytes.compare := inferInstanceAs (Std.TransCmp Bytes.compare)
    simp [pairActs, Act.Lawful, Deed.Lawful, depotMap, bytes]
  obtain ⟨s', run⟩ := tick_of_report (e := ⟨0⟩) (s := pairPut)
    (show _ = some ⟨0, 1, 0, 1, 0, 2, 0⟩ by decide +kernel)
  rw [← run_pairActs] at run
  exact ⟨start, lawful, _, s', run, rfl, ⟨rfl, rfl, rfl⟩,
    second_tick_idles start lawful run ⟨rfl, rfl, rfl⟩⟩

end EngineHandle

end MapStore
