/-
MapStore.Proofs.Ticking — a tick visits every member once, and its report says
how the visits ended.

Each phase of a tick is a run of `Visits`: the members one after the other,
each with what it came to. Nothing a member does can cut a phase short, since
an attempt always comes to an end and a calm meter stays calm. What one
evaluation does (`Evaluated`) is carried through the first phase by induction,
and the other two phases leave modes, meters and live-sets as they are
(`Quiet`), so what the report counts and which windows are idle can be read off
the stores before and after the whole tick (`Tick.Account`).
-/
import MapStore.Proofs.Evaluating

namespace MapStore

/-! ## Visits -/

/-- Members visited one after the other, each with what the visit came to. -/
inductive Visits {β ρ : Type} (act : β → Action ρ) : Store → List (β × ρ) → Store → Prop where
  | nil (s : Store) : Visits act s [] s
  | cons {x : β} {r : ρ} {log : List (β × ρ)} {s s₁ s₂ : Store} (visit : act x s = .ok r s₁)
      (rest : Visits act s₁ log s₂) : Visits act s ((x, r) :: log) s₂

namespace Visits

variable {β ρ σ : Type} {act : β → Action ρ} {s s' : Store} {log : List (β × ρ)}

/-- A loop that counts what its members come to visits them all, if each visit
comes to an end wherever the ones before it led. -/
theorem of_foldlM (act : β → Action ρ) {I : Store → Prop} {l : List β} (count : σ → ρ → σ)
    (each : ∀ x ∈ l, ∀ s, I s → ∃ r s', act x s = .ok r s' ∧ I s') (start : I s) (c : σ) :
    ∃ log s', (l.foldlM (fun c x => return count c (← act x)) c : Action σ) s =
        .ok (log.foldl (fun c e => count c e.2) c) s' ∧
      log.map Prod.fst = l ∧ Visits act s log s' := by
  induction l generalizing s c with
  | nil => exact ⟨[], s, rfl, rfl, .nil s⟩
  | cons x rest ih =>
    obtain ⟨r, s₁, visit, still⟩ := each x (List.mem_cons_self ..) s start
    obtain ⟨log, s', run, members, visits⟩ :=
      ih (fun y hy => each y (List.mem_cons_of_mem _ hy)) still (count c r)
    refine ⟨(x, r) :: log, s', ?_, by simp [members], .cons visit visits⟩
    rw [List.foldlM_cons, Action.run_bind]
    simpa [visit] using run

/-- An attempt always comes to an end. -/
theorem of_attempts {α : Type} (act : β → Action α) (l : List β)
    (count : σ → Except Fault α → σ) (s : Store) (c : σ) :
    ∃ log s',
      (l.foldlM (fun c x => return count c (← Action.attempt (act x))) c : Action σ) s =
        .ok (log.foldl (fun c e => count c e.2) c) s' ∧
      log.map Prod.fst = l ∧ Visits (fun x => Action.attempt (act x)) s log s' := by
  refine of_foldlM _ (I := fun _ => True) count (fun x _ s _ => ?_) trivial c
  rw [Action.run_attempt]
  cases act x s with
  | ok r s' => exact ⟨_, _, rfl, trivial⟩
  | error fault s' => exact ⟨_, _, rfl, trivial⟩

/-- A loop that came to its end visited them all. -/
theorem of_counted (act : β → Action ρ) {l : List β} {count : σ → ρ → σ} {c c' : σ}
    (run : (l.foldlM (fun c x => return count c (← act x)) c : Action σ) s = .ok c' s') :
    ∃ log, Visits act s log s' ∧ log.map Prod.fst = l ∧
      c' = log.foldl (fun c e => count c e.2) c := by
  induction l generalizing c s with
  | nil =>
    cases run
    exact ⟨[], .nil _, rfl, rfl⟩
  | cons x rest ih =>
    rw [List.foldlM_cons, Action.run_bind, Action.run_bind] at run
    cases visit : act x s with
    | error fault s₁ =>
      rw [visit] at run
      cases run
    | ok r s₁ =>
      rw [visit] at run
      obtain ⟨log, visits, members, counted⟩ := ih run
      exact ⟨(x, r) :: log, .cons visit visits, by rw [List.map_cons, members], counted⟩

/-- The visit of one member, between those before it and those after it. -/
theorem visit_of_mem {before after : List (β × ρ)} {x : β} {r : ρ}
    (visits : Visits act s (before ++ (x, r) :: after) s') :
    ∃ t t', Visits act s before t ∧ act x t = .ok r t' ∧ Visits act t' after s' := by
  induction before generalizing s with
  | nil =>
    cases visits with
    | cons visit rest => exact ⟨s, _, .nil s, visit, rest⟩
  | cons first before ih =>
    cases visits with
    | cons visit rest =>
      obtain ⟨t, t', visits, there, later⟩ := ih rest
      exact ⟨t, t', .cons visit visits, there, later⟩

/-- What every visit keeps to, all of them together keep to. -/
theorem keeps {R : Store → Store → Prop} (visits : Visits act s log s') (refl : ∀ s, R s s)
    (trans : ∀ {s₁ s₂ s₃}, R s₁ s₂ → R s₂ s₃ → R s₁ s₃)
    (each : ∀ x r s s', act x s = .ok r s' → R s s') : R s s' := by
  induction visits with
  | nil s => exact refl s
  | cons visit _ ih => exact trans (each _ _ _ _ visit) ih

end Visits

/-! ## The first phase -/

/-- The mode that is not this one. -/
def MapMode.other : MapMode → MapMode
  | .direct => .buffered
  | .buffered => .direct

theorem MapMode.other_ne (mode : MapMode) : mode.other ≠ mode := by
  cases mode <;> decide

theorem MapMode.eq_other {mode target : MapMode} (ne : mode ≠ target) : mode = target.other := by
  cases mode <;> cases target <;> first | rfl | exact absurd rfl ne

/-- The map exists, and its meter is calm if it has one. -/
def Store.Askable (s : Store) (m : MapHandle) : Prop :=
  m.index < s.maps.length ∧ ∀ p, s.profile? m = some p → (s.meterAt p.meter).Calm

namespace Evaluated

variable {s s' : Store} {m : MapHandle} {r : Decision}

/-- Every map keeps its meter. -/
theorem meter (h : Evaluated m s r s') (x : MapHandle) :
    (s'.profile? x).map (·.meter) = (s.profile? x).map (·.meter) := by
  by_cases same : x = m
  · rw [same, h.self, Option.map_map]
    rfl
  · rw [h.others x same]

/-- What could be evaluated before still can. -/
theorem askable (h : Evaluated m s r s') {x : MapHandle} (askable : s.Askable x) :
    s'.Askable x := by
  refine ⟨h.length ▸ askable.1, fun p' profile' => h.calm _ ?_⟩
  obtain ⟨p, profile, same⟩ : ∃ p, s.profile? x = some p ∧ p.meter = p'.meter := by
    have meters := h.meter x
    rw [profile'] at meters
    exact Option.map_eq_some_iff.1 meters.symm
  exact same ▸ askable.2 p profile

end Evaluated

namespace Tick

variable {policy : ModePolicy} {s s' : Store} {log : List (MapHandle × Decision)}
  {m : MapHandle} {r : Decision}

/-- An evaluation that came to an end did what evaluations do. -/
theorem evaluated_of_run (run : evaluate policy m s = .ok r s') : Evaluated m s r s' := by
  cases h : s.maps[m.index]? with
  | none =>
    simp [evaluate, MapHandle.percents, Action.run_state_none h] at run
  | some st =>
    by_cases calm : ∀ p, s.profile? m = some p → (s.meterAt p.meter).Calm
    · obtain ⟨r', s'', run', evaluated⟩ := evaluate_run policy h calm
      rw [run'] at run
      cases run
      exact evaluated
    · push Not at calm
      obtain ⟨p, profile, panics⟩ := calm
      obtain ⟨a, rfl, rfl⟩ := MapState.adaptive_of_profile
        (show st.profile? = some p by simpa [Store.profile?, h] using profile)
      cases asked : (s.meterAt a.meter).readPercent with
      | ok read => exact absurd ⟨read, asked⟩ panics
      | error fault =>
        rw [Store.meterAt] at asked
        simp [evaluate, MapHandle.percents, Action.run_state h, asked] at run

theorem evaluate_askable (policy : ModePolicy) (askable : s.Askable m) :
    ∃ r s', evaluate policy m s = .ok r s' ∧ Evaluated m s r s' :=
  evaluate_run policy (List.getElem?_eq_some_iff.2 ⟨askable.1, rfl⟩) askable.2

/-- Maps that can all be asked are all evaluated. -/
theorem evaluations_of_askable {l : List MapHandle} (askable : ∀ m ∈ l, s.Askable m)
    (report : TickReport) :
    ∃ log s', l.foldlM (optimize policy) report s =
        .ok (log.foldl (fun r e => r.countEvaluation e.2) report) s' ∧
      log.map Prod.fst = l ∧ Visits (evaluate policy) s log s' := by
  -- they stay so while the maps before them are evaluated
  refine Visits.of_foldlM (evaluate policy) (I := fun s' => ∀ m ∈ l, s'.Askable m)
    TickReport.countEvaluation (fun m mem s' still => ?_) askable report
  obtain ⟨r, s'', run, evaluated⟩ := evaluate_askable policy (still m mem)
  exact ⟨r, s'', run, fun x hx => evaluated.askable (still x hx)⟩

/-- A map that is not among the visited keeps its profile. -/
theorem others_of_evaluations (visits : Visits (evaluate policy) s log s') {x : MapHandle}
    (hx : x ∉ log.map Prod.fst) : s'.profile? x = s.profile? x := by
  induction visits with
  | nil s => rfl
  | cons visit _ ih =>
    rw [List.map_cons, List.mem_cons, not_or] at hx
    rw [ih hx.2, (evaluated_of_run visit).others x hx.1]

/-- A visited map has the mode it was changed to, if it was changed at all,
and otherwise the one it had. -/
theorem self_of_evaluations (visits : Visits (evaluate policy) s log s')
    (nodup : (log.map Prod.fst).Nodup) (mem : (m, r) ∈ log) :
    s'.profile? m = (s.profile? m).map (fun p => { p with mode := r.changedTo.getD p.mode }) ∧
      ∀ target, r.changedTo = some target → ∃ p, s.profile? m = some p ∧ p.mode ≠ target := by
  induction visits with
  | nil s => cases mem
  | @cons x r₁ log s s₁ s₂ visit rest ih =>
    rw [List.map_cons, List.nodup_cons] at nodup
    have first := evaluated_of_run visit
    rcases List.mem_cons.1 mem with head | tail
    · cases head
      rw [others_of_evaluations rest nodup.1]
      exact ⟨first.self, first.changed⟩
    · have ne : m ≠ x := by
        rintro rfl
        exact nodup.1 (List.mem_map.2 ⟨_, tail, rfl⟩)
      rw [← first.others m ne]
      exact ih nodup.2 tail

/-- A visited map was changed to a mode exactly if it was in the other mode
before and is in this one now. -/
theorem changedTo_iff (visits : Visits (evaluate policy) s log s')
    (nodup : (log.map Prod.fst).Nodup) (mem : (m, r) ∈ log) (target : MapMode) :
    r.changedTo = some target ↔ s.mode? m = some target.other ∧ s'.mode? m = some target := by
  obtain ⟨self, changed⟩ := self_of_evaluations visits nodup mem
  constructor
  · intro eq
    obtain ⟨p, profile, ne⟩ := changed target eq
    exact ⟨by simp [Store.mode?, profile, MapMode.eq_other ne], by
      simp [Store.mode?, self, profile, eq]⟩
  · rintro ⟨before, after⟩
    obtain ⟨p, profile, mode⟩ := Option.map_eq_some_iff.1 before
    rw [Store.mode?, self, profile] at after
    cases eq : r.changedTo with
    | none =>
      rw [eq] at after
      have same : p.mode = target := by simpa using after
      exact absurd (mode.symm.trans same) target.other_ne
    | some other =>
      rw [eq] at after
      simpa using after

/-- A visited map that has the mode it had was not changed, -/
theorem unchanged_of_mode (visits : Visits (evaluate policy) s log s')
    (nodup : (log.map Prod.fst).Nodup) (mem : (m, r) ∈ log) (same : s'.mode? m = s.mode? m) :
    r.changedTo = none := by
  cases changed : r.changedTo with
  | none => rfl
  | some target =>
    obtain ⟨before, after⟩ := (changedTo_iff visits nodup mem target).1 changed
    rw [after, before] at same
    exact absurd (Option.some.inj same).symm target.other_ne

/-- and one that was not changed has the mode it had. -/
theorem mode_of_unchanged (visits : Visits (evaluate policy) s log s')
    (nodup : (log.map Prod.fst).Nodup) (mem : (m, r) ∈ log) (unchanged : r.changedTo = none) :
    s'.mode? m = s.mode? m := by
  obtain ⟨self, -⟩ := self_of_evaluations visits nodup mem
  rw [Store.mode?, self, unchanged, Store.mode?]
  simp

/-- As many evaluations changed a map to a mode as there are maps that changed
to it. -/
theorem countP_changedTo (visits : Visits (evaluate policy) s log s')
    (nodup : (log.map Prod.fst).Nodup) (target : MapMode) :
    log.countP (fun e => Decision.changedTo e.2 = some target) =
      (log.map Prod.fst).countP fun m =>
        s.mode? m = some target.other ∧ s'.mode? m = some target := by
  rw [List.countP_map]
  refine List.countP_congr fun e mem => ?_
  obtain ⟨m, r⟩ := e
  simpa using changedTo_iff visits nodup mem target

/-- Every visit starts one window of the map's own meter. -/
theorem resets_of_evaluations (visits : Visits (evaluate policy) s log s') (h : MeterHandle) :
    (s'.meterAt h).resets? = (s.meterAt h).resets?.map
      (· + (log.map Prod.fst).countP fun m => (s.profile? m).map (·.meter) = some h) := by
  induction visits with
  | nil s => simp
  | @cons x r₁ log s s₁ s₂ visit rest ih =>
    have first := evaluated_of_run visit
    rw [ih, first.resets, Option.map_map, List.map_cons, List.countP_cons]
    simp only [first.meter, decide_eq_true_eq]
    congr 1
    funext n
    simp only [Function.comp]
    omega

/-- In an engine the windows of the visited maps are idle afterwards, and other
windows are as they were. -/
theorem windows_of_evaluations (visits : Visits (evaluate policy) s log s') (flat : s.Flat) :
    s'.Flat ∧ ∀ h w, s.meterAt h = .window w → s'.meterAt h = .window
      (if ∃ m ∈ log.map Prod.fst, (s.profile? m).map (·.meter) = some h then .idle else w) := by
  induction visits with
  | nil s => exact ⟨flat, fun h w eq => by simpa using eq⟩
  | @cons x r₁ log s s₁ s₂ visit rest ih =>
    have first := evaluated_of_run visit
    obtain ⟨flat₁, windows₁⟩ := first.windows flat
    obtain ⟨flat₂, windows₂⟩ := ih flat₁
    refine ⟨flat₂, fun h w eq => ?_⟩
    rw [windows₂ h _ (windows₁ h w eq)]
    simp only [first.meter, List.map_cons, List.exists_mem_cons_iff]
    by_cases own : (s.profile? x).map (·.meter) = some h
    · simp only [own, if_true, true_or, ite_self]
    · simp only [own, if_false, false_or]

/-- The list of the buffers to be merged has the other members as before. -/
theorem listed_of_evaluations (visits : Visits (evaluate policy) s log s') {u : MergeUnit}
    (unmoved : ∀ m r, (m, r) ∈ log → u = .map m → r.changedTo = none) (h : LiveHandle) :
    u ∈ (s'.liveSets h).buffered.members ↔ u ∈ (s.liveSets h).buffered.members := by
  induction visits with
  | nil s => exact Iff.rfl
  | @cons x r₁ log s s₁ s₂ visit rest ih =>
    rw [ih fun m r mem => unmoved m r (List.mem_cons_of_mem _ mem),
      (evaluated_of_run visit).live]
    by_cases same : u = .map x
    · rw [unmoved x r₁ (List.mem_cons_self ..) same, ite_self, LiveSets.relist]
    · exact LiveSets.mem_relist same

/-- A map that changed its mode is on the list of its engine's buffers to be
merged exactly if it changed to buffered mode. -/
theorem listed_of_changed (visits : Visits (evaluate policy) s log s')
    (nodup : (log.map Prod.fst).Nodup) (mem : (m, r) ∈ log) {target : MapMode}
    (changed : r.changedTo = some target) {h : LiveHandle}
    (live : (s.profile? m).map (·.live) = some h) (alive : (s.liveSets h).alive = true) :
    .map m ∈ (s'.liveSets h).buffered.members ↔ target = .buffered := by
  induction visits with
  | nil s => cases mem
  | @cons x r₁ log s s₁ s₂ visit rest ih =>
    rw [List.map_cons, List.nodup_cons] at nodup
    have first := evaluated_of_run visit
    rcases List.mem_cons.1 mem with head | tail
    · cases head
      have unmoved : ∀ m' r', (m', r') ∈ log → MergeUnit.map m = .map m' → r'.changedTo = none := by
        intro m' r' mem' same
        cases same
        exact absurd (List.mem_map.2 ⟨_, mem', rfl⟩) nodup.1
      rw [listed_of_evaluations rest unmoved, first.live, if_pos live, changed]
      exact LiveSets.mem_relist_self alive
    · have ne : m ≠ x := by
        rintro rfl
        exact nodup.1 (List.mem_map.2 ⟨_, tail, rfl⟩)
      refine ih nodup.2 tail ?_ ?_
      · rw [first.others m ne, live]
      · rw [first.live, LiveSets.alive_relist, alive]

/-- So it is listed exactly if it is in buffered mode now. -/
theorem listed_of_moved (visits : Visits (evaluate policy) s log s')
    (nodup : (log.map Prod.fst).Nodup) (mem : m ∈ log.map Prod.fst)
    (moved : s'.mode? m ≠ s.mode? m) {h : LiveHandle}
    (live : (s.profile? m).map (·.live) = some h) (alive : (s.liveSets h).alive = true) :
    .map m ∈ (s'.liveSets h).buffered.members ↔ s'.mode? m = some .buffered := by
  obtain ⟨⟨_, r⟩, entry, rfl⟩ := List.mem_map.1 mem
  cases changed : r.changedTo with
  | none => exact absurd (mode_of_unchanged visits nodup entry changed) moved
  | some target =>
    rw [listed_of_changed visits nodup entry changed live alive,
      ((changedTo_iff visits nodup entry target).1 changed).2]
    simp

end Tick

/-! ## The other phases -/

/-- A step that changes no mode, asks no meter for a new window and leaves the
live-sets. -/
structure Quiet (s s' : Store) : Prop where
  profiles : ∀ m, s'.profile? m = s.profile? m
  resets : ∀ h, (s'.meterAt h).resets? = (s.meterAt h).resets?
  /-- In an engine it tells no meter of anything. -/
  meters : s.Flat → s'.Flat ∧ s'.meters = s.meters
  live : s'.live = s.live

namespace Quiet

variable {P : MapHandle → Prop} {s s' s'' : Store}

theorem refl (s : Store) : Quiet s s := ⟨fun _ => rfl, fun _ => rfl, fun flat => ⟨flat, rfl⟩, rfl⟩

theorem trans (h : Quiet s s') (h' : Quiet s' s'') : Quiet s s'' where
  profiles m := (h'.profiles m).trans (h.profiles m)
  resets x := (h'.resets x).trans (h.resets x)
  meters flat := by
    obtain ⟨flat', meters⟩ := h.meters flat
    obtain ⟨flat'', meters'⟩ := h'.meters flat'
    exact ⟨flat'', meters'.trans meters⟩
  live := h'.live.trans h.live

theorem of_frame (h : s.Frame (fun _ => True) s') (meters : s.Flat → s'.meters = s.meters) :
    Quiet s s' := by
  have touches := h fun _ _ _ _ _ _ => trivial
  refine ⟨Store.profile?_of_touches touches, fun x => ?_,
    fun flat => ⟨touches.flat flat, meters flat⟩, touches.live⟩
  rw [← AccessMeter.resets?_outline, Store.meterAt, touches.meter, ← Store.meterAt,
    AccessMeter.resets?_outline]

theorem of_run (u : MergeUnit) (s : Store) : Quiet s (u.run.after s) := by
  cases u with
  | map m => exact of_frame (Store.frame_merge trivial) fun flat => Store.meters_merge flat m
  | standIn u =>
    rw [MergeUnit.after_standIn]
    exact ⟨fun _ => rfl, fun _ => rfl, fun flat => ⟨flat, rfl⟩, rfl⟩

theorem liveSets (h : Quiet s s') (x : LiveHandle) : s'.liveSets x = s.liveSets x := by
  rw [Store.liveSets, Store.liveSets, h.live]

/-- A run of attempts is quiet if each action is. -/
theorem of_visits {β α : Type} {act : β → Action α} {log : List (β × Except Fault α)}
    (visits : Visits (fun x => Action.attempt (act x)) s log s')
    (each : ∀ x s, Quiet s ((act x).after s)) : Quiet s s' := by
  refine visits.keeps refl trans fun x r s₁ s₂ run => ?_
  rw [← Action.after_of_ok run, Action.after_attempt]
  exact each x s₁

theorem of_merges {log : List (MergeUnit × Except Fault MergeStats)}
    (visits : Visits (fun u => Action.attempt (MergeUnit.run u)) s log s') : Quiet s s' :=
  of_visits visits of_run

theorem of_saves {log : List (MapHandle × Except Fault Unit)}
    (visits : Visits (fun m => Action.attempt (MapHandle.save m)) s log s') : Quiet s s' :=
  of_visits visits fun m _ => of_frame (Store.frame_save trivial) fun flat =>
    Store.meters_save flat m

end Quiet

/-! ## Counting -/

namespace TickReport

theorem foldl_countEvaluation {β : Type} (log : List (β × Decision)) (r : TickReport) :
    log.foldl (fun r e => r.countEvaluation e.2) r =
      { r with
        switchedToDirect := r.switchedToDirect +
          log.countP fun e => Decision.changedTo e.2 = some .direct
        switchedToBuffered := r.switchedToBuffered +
          log.countP fun e => Decision.changedTo e.2 = some .buffered
        switchFailures := r.switchFailures + log.countP fun e => Decision.failed e.2 } := by
  induction log generalizing r with
  | nil => rfl
  | cons e rest ih =>
    obtain ⟨x, decision⟩ := e
    simp only [List.foldl_cons, ih, List.countP_cons]
    rcases decision with - | ⟨target, outcome⟩
    · simp [countEvaluation, Decision.changedTo, Decision.failed]
    · rcases outcome with fault | changed
      · simp [countEvaluation, countSwitch, Decision.changedTo, Decision.failed]
        omega
      · cases changed <;> cases target <;>
          simp [countEvaluation, countSwitch, Decision.changedTo, Decision.failed] <;> omega

theorem foldl_countMerge {β : Type} (log : List (β × Except Fault MergeStats)) (r : TickReport) :
    log.foldl (fun r e => r.countMerge (MergePool.outcome e.2)) r =
      { r with
        merged := r.merged + log.countP fun e => e.2.isOk
        mergeFailures := r.mergeFailures + log.countP fun e => !e.2.isOk } := by
  induction log generalizing r with
  | nil => rfl
  | cons e rest ih =>
    obtain ⟨x, outcome⟩ := e
    simp only [List.foldl_cons, ih, List.countP_cons]
    rcases outcome with (cause | message) | stats <;>
      simp [countMerge, MergePool.outcome, Except.isOk, Except.toBool] <;> omega

theorem foldl_countFlush {β : Type} (log : List (β × Except Fault Unit)) (r : TickReport) :
    log.foldl (fun r e => r.countFlush e.2) r =
      { r with
        flushed := r.flushed + log.countP fun e => e.2.isOk
        flushFailures := r.flushFailures + log.countP fun e => !e.2.isOk } := by
  induction log generalizing r with
  | nil => rfl
  | cons e rest ih =>
    obtain ⟨x, outcome⟩ := e
    simp only [List.foldl_cons, ih, List.countP_cons]
    rcases outcome with fault | done <;>
      simp [countFlush, Except.isOk, Except.toBool] <;> omega

/-- What succeeded and what failed add up to the members. -/
theorem counts_add_up {β α : Type} {log : List (β × Except Fault α)} {members : List β}
    (each : log.map Prod.fst = members) :
    log.countP (·.2.isOk) + log.countP (!·.2.isOk) = members.length := by
  rw [← each, List.length_map, List.length_eq_countP_add_countP (·.2.isOk)]
  simp

end TickReport

/-! ## The whole tick -/

/-- How a tick went: the visits of its three phases, with the stores between
them, and what its report says. -/
structure Tick.Account (policy : ModePolicy) (live : LiveHandle) (s s₁ s₂ s₃ : Store)
    (evaluations : List (MapHandle × Decision))
    (merges : List (MergeUnit × Except Fault MergeStats))
    (saves : List (MapHandle × Except Fault Unit)) (report : TickReport) : Prop where
  /-- First the adaptive maps that are listed at the start are evaluated, -/
  evaluated : Visits (Tick.evaluate policy) s evaluations s₁ ∧
    evaluations.map Prod.fst = (s.liveSets live).adaptive.members
  /-- then the buffers that are listed after that are merged, -/
  merged : Visits (fun u => Action.attempt (MergeUnit.run u)) s₁ merges s₂ ∧
    merges.map Prod.fst = (s₁.liveSets live).buffered.members
  /-- then the maps to be saved are saved. -/
  saved : Visits (fun m => Action.attempt (MapHandle.save m)) s₂ saves s₃ ∧
    saves.map Prod.fst = (s.liveSets live).storage.members
  /-- A member that fails in its merge or its save is counted as such. -/
  mergeCounts : report.merged = merges.countP (·.2.isOk) ∧
    report.merged + report.mergeFailures = (s₁.liveSets live).buffered.size
  saveCounts : report.flushed = saves.countP (·.2.isOk) ∧
    report.flushed + report.flushFailures = (s.liveSets live).storage.size
  switchFailures : report.switchFailures = evaluations.countP fun e => Decision.failed e.2
  /-- The modes that changed are those that the report counts. -/
  switchedToDirect : report.switchedToDirect = (s.liveSets live).adaptive.members.countP
    fun m => s.mode? m = some .buffered ∧ s₃.mode? m = some .direct
  switchedToBuffered : report.switchedToBuffered = (s.liveSets live).adaptive.members.countP
    fun m => s.mode? m = some .direct ∧ s₃.mode? m = some .buffered
  otherModes : ∀ m, m ∉ (s.liveSets live).adaptive.members → s₃.mode? m = s.mode? m
  /-- Each evaluation starts one window of the map's meter and attempts to switch
  the map once at most. -/
  evaluations : ∀ before m r after, evaluations = before ++ (m, r) :: after →
    ∃ t t', Visits (Tick.evaluate policy) s before t ∧ Evaluated m t r t' ∧
      Visits (Tick.evaluate policy) t' after s₁
  /-- In an engine the windows of the maps that were evaluated are idle at the
  end, and other windows are as they were. -/
  windows : s.Flat → ∀ h w, s.meterAt h = .window w → s₃.meterAt h = .window
    (if ∃ m ∈ (s.liveSets live).adaptive.members, (s.profile? m).map (·.meter) = some h
      then .idle else w)
  /-- Every map that was evaluated had one new window of its meter. -/
  resets : ∀ h, (s₃.meterAt h).resets? = (s.meterAt h).resets?.map
    (· + (s.liveSets live).adaptive.members.countP
      fun m => (s.profile? m).map (·.meter) = some h)
  /-- A map of this engine that changed its mode is among the buffers that are
  merged if it is in buffered mode now, and not if it is not. -/
  listed : (s.liveSets live).alive = true →
    ∀ m ∈ (s.liveSets live).adaptive.members, (s.profile? m).map (·.live) = some live →
      s₃.mode? m ≠ s.mode? m →
        (.map m ∈ (s₁.liveSets live).buffered.members ↔ s₃.mode? m = some .buffered)
  /-- The other members of that list are those it had at the start. -/
  otherListed : ∀ u, (∀ m, u = .map m → s₃.mode? m = s.mode? m) →
    (u ∈ (s₁.liveSets live).buffered.members ↔ u ∈ (s.liveSets live).buffered.members)

namespace Tick

variable {policy : ModePolicy} {live : LiveHandle} {s s₁ s₂ s₃ : Store}

/-- The maps to be saved stay listed while modes are decided. -/
theorem storage_of_evaluations {log : List (MapHandle × Decision)}
    (visits : Visits (evaluate policy) s log s₁) (h : LiveHandle) :
    (s₁.liveSets h).storage = (s.liveSets h).storage := by
  refine visits.keeps (R := fun s s' => (s'.liveSets h).storage = (s.liveSets h).storage)
    (fun _ => rfl) (fun first next => next.trans first) fun x r s s' run => ?_
  rw [(evaluated_of_run run).live, LiveSets.storage_relist]

/-- The three phases of a tick: whom each of them visited, and where it led. -/
structure Phases (policy : ModePolicy) (live : LiveHandle) (s s₁ s₂ s₃ : Store)
    (evaluations : List (MapHandle × Decision))
    (merges : List (MergeUnit × Except Fault MergeStats))
    (saves : List (MapHandle × Except Fault Unit)) : Prop where
  evaluated : Visits (evaluate policy) s evaluations s₁
  asked : evaluations.map Prod.fst = (s.liveSets live).adaptive.members
  merged : Visits (fun u => Action.attempt (MergeUnit.run u)) s₁ merges s₂
  buffered : merges.map Prod.fst = (s₁.liveSets live).buffered.members
  saved : Visits (fun m => Action.attempt (MapHandle.save m)) s₂ saves s₃
  stored : saves.map Prod.fst = (s₂.liveSets live).storage.members

/-- What the visits of a tick add up to in its report. -/
def counted (evaluations : List (MapHandle × Decision))
    (merges : List (MergeUnit × Except Fault MergeStats))
    (saves : List (MapHandle × Except Fault Unit)) : TickReport :=
  saves.foldl (fun r e => r.countFlush e.2)
    (merges.foldl (fun r e => r.countMerge (MergePool.outcome e.2))
      (evaluations.foldl (fun r e => r.countEvaluation e.2) .none))

/-- Once the modes are decided a tick comes to its end, since the other two
phases only attempt things. -/
theorem phases_of_evaluations {evaluations : List (MapHandle × Decision)}
    (visits : Visits (evaluate policy) s evaluations s₁)
    (asked : evaluations.map Prod.fst = (s.liveSets live).adaptive.members)
    (run : (s.liveSets live).adaptive.members.foldlM (optimize policy) TickReport.none s =
      .ok (evaluations.foldl (fun r e => r.countEvaluation e.2) .none) s₁) :
    ∃ s₂ s₃ merges saves, Phases policy live s s₁ s₂ s₃ evaluations merges saves ∧
      Tick.run live policy s = .ok (counted evaluations merges saves) s₃ := by
  obtain ⟨merges, s₂, second, buffered, merged⟩ := Visits.of_attempts
    MergeUnit.run (s₁.liveSets live).buffered.members
    (fun r outcome => TickReport.countMerge r (MergePool.outcome outcome)) s₁
    (evaluations.foldl (fun r e => r.countEvaluation e.2) .none)
  obtain ⟨saves, s₃, third, stored, saved⟩ := Visits.of_attempts
    MapHandle.save (s₂.liveSets live).storage.members TickReport.countFlush s₂
    (merges.foldl (fun r e => r.countMerge (MergePool.outcome e.2))
      (evaluations.foldl (fun r e => r.countEvaluation e.2) .none))
  refine ⟨s₂, s₃, merges, saves, ⟨visits, asked, merged, buffered, saved, stored⟩, ?_⟩
  have second : (s₁.liveSets live).buffered.members.foldlM mergeUnit _ s₁ = _ := second
  have third : (s₂.liveSets live).storage.members.foldlM flush _ s₂ = _ := third
  unfold Tick.run
  simp only [Action.run_bind, Action.run_liveSets, run, second, third]
  rfl

/-- A tick goes through its phases if all maps can be asked, -/
theorem run_phases (live : LiveHandle) (policy : ModePolicy) (s : Store)
    (askable : ∀ m ∈ (s.liveSets live).adaptive.members, s.Askable m) :
    ∃ s₁ s₂ s₃ evaluations merges saves,
      Phases policy live s s₁ s₂ s₃ evaluations merges saves ∧
      Tick.run live policy s = .ok (counted evaluations merges saves) s₃ := by
  obtain ⟨evaluations, s₁, run, asked, visits⟩ := evaluations_of_askable askable .none
  obtain ⟨s₂, s₃, merges, saves, phases, run⟩ := phases_of_evaluations visits asked run
  exact ⟨s₁, s₂, s₃, evaluations, merges, saves, phases, run⟩

/-- and it went through them if it came to an end. -/
theorem phases_of_run {report : TickReport} (run : Tick.run live policy s = .ok report s₃) :
    ∃ s₁ s₂ evaluations merges saves,
      Phases policy live s s₁ s₂ s₃ evaluations merges saves ∧
      report = counted evaluations merges saves := by
  cases first : (s.liveSets live).adaptive.members.foldlM (optimize policy) TickReport.none s with
  | error fault s₁ =>
    unfold Tick.run at run
    simp only [Action.run_bind, Action.run_liveSets, first] at run
    cases run
  | ok r₁ s₁ =>
    obtain ⟨evaluations, visits, asked, rfl⟩ := Visits.of_counted (evaluate policy) first
    obtain ⟨s₂, s₃, merges, saves, phases, again⟩ := phases_of_evaluations visits asked first
    rw [again] at run
    cases run
    exact ⟨s₁, s₂, evaluations, merges, saves, phases, rfl⟩

/-- A tick whose members have calm meters comes to an end, and visits every
member of its live-sets once, whatever the others come to. -/
theorem run_accounts (live : LiveHandle) (policy : ModePolicy) (s : Store)
    (askable : ∀ m ∈ (s.liveSets live).adaptive.members, s.Askable m) :
    ∃ report s₁ s₂ s₃ evaluations merges saves, Tick.run live policy s = .ok report s₃ ∧
      Account policy live s s₁ s₂ s₃ evaluations merges saves report := by
  obtain ⟨s₁, s₂, s₃, evaluations, merges, saves,
    ⟨visits₁, each₁, visits₂, each₂, visits₃, each₃⟩, run⟩ := run_phases live policy s askable
  have quiet : Quiet s₁ s₃ := (Quiet.of_merges visits₂).trans (.of_saves visits₃)
  have nodup : (evaluations.map Prod.fst).Nodup := each₁ ▸ (s.liveSets live).adaptive.nodup
  have modes : ∀ m, s₃.mode? m = s₁.mode? m := fun m => by rw [Store.mode?, quiet.profiles]; rfl
  rw [(Quiet.of_merges visits₂).liveSets, storage_of_evaluations visits₁] at each₃
  refine ⟨_, s₁, s₂, s₃, evaluations, merges, saves, run, ?_⟩
  rw [counted, TickReport.foldl_countEvaluation, TickReport.foldl_countMerge,
    TickReport.foldl_countFlush]
  refine
    { evaluated := ⟨visits₁, each₁⟩
      merged := ⟨visits₂, each₂⟩
      saved := ⟨visits₃, each₃⟩
      mergeCounts := ⟨by simp [TickReport.none], ?_⟩
      saveCounts := ⟨by simp [TickReport.none], ?_⟩
      switchFailures := by simp [TickReport.none]
      switchedToDirect := ?_
      switchedToBuffered := ?_
      otherModes := fun m out => ?_
      evaluations := fun before m r after eq => ?_
      windows := fun flat h w eq => ?_
      resets := fun h => ?_
      listed := fun alive m mem live moved => ?_
      otherListed := fun u same => ?_ }
  · simpa [TickReport.none, LiveSet.size] using TickReport.counts_add_up each₂
  · simpa [TickReport.none, LiveSet.size] using TickReport.counts_add_up each₃
  · simp only [modes, ← each₁]
    exact (Nat.zero_add _).trans (countP_changedTo visits₁ nodup .direct)
  · simp only [modes, ← each₁]
    exact (Nat.zero_add _).trans (countP_changedTo visits₁ nodup .buffered)
  · rw [modes, Store.mode?, others_of_evaluations visits₁ (each₁ ▸ out)]
    rfl
  · obtain ⟨t, t', earlier, visit, later⟩ := Visits.visit_of_mem (eq ▸ visits₁)
    exact ⟨t, t', earlier, evaluated_of_run visit, later⟩
  · obtain ⟨flat₁, windows⟩ := windows_of_evaluations visits₁ flat
    rw [Store.meterAt, (quiet.meters flat₁).2, ← Store.meterAt, windows h w eq, each₁]
  · rw [quiet.resets, resets_of_evaluations visits₁, each₁]
  · rw [modes] at moved ⊢
    exact listed_of_moved visits₁ nodup (each₁ ▸ mem) moved live alive
  · refine listed_of_evaluations visits₁ (fun m r mem eq => ?_) live
    exact unchanged_of_mode visits₁ nodup mem ((modes m).symm.trans (same m eq))

/-- Two adaptive maps, one that should leave buffered mode over a backing that
refuses every write, and one that should enter it, whose meter counts. -/
def troubled : Store where
  disk := .empty
  maps :=
    [.faulty
      { inner := .empty "a" ⟨1⟩ .bytes .bytes
        plan := { FaultPlan.none with write := some (.panic none) }
        calls := .zero, onPut := [], onRemove := [], answers := [], settings := none },
     .adaptive
      { name := "a", id := ⟨1⟩, backing := ⟨0⟩, keyType := .bytes, valueType := .bytes
        buffer := some ((WriteBuffer.empty Bytes.compare).insert [1] (.value [2])).2
        meter := ⟨0⟩, live := ⟨0⟩ },
     .memory (.empty "b" ⟨2⟩ .bytes .bytes),
     .adaptive
      { name := "b", id := ⟨2⟩, backing := ⟨2⟩, keyType := .bytes, valueType := .bytes
        buffer := none, meter := ⟨1⟩, live := ⟨0⟩ }]
  meters := [.fixed ⟨100, 0, none, 0, 0, 0⟩, .window ⟨1, 3⟩]
  units := []
  live := [⟨⟨[⟨0⟩, ⟨2⟩], by decide⟩, ⟨[.map ⟨1⟩], by decide⟩, ⟨[⟨1⟩, ⟨3⟩], by decide⟩, true⟩]
  engines := []

theorem troubled_flat : troubled.Flat := by
  intro m st state x reached st' state'
  have members : st ∈ troubled.maps := List.mem_of_getElem? state
  have below : x = ⟨0⟩ ∨ x = ⟨2⟩ := by
    simp only [troubled, List.mem_cons, List.not_mem_nil, or_false] at members
    rcases members with rfl | rfl | rfl | rfl
    · cases reached
    · exact .inl (List.mem_singleton.1 reached)
    · cases reached
    · exact .inr (List.mem_singleton.1 reached)
  rcases below with rfl | rfl
  · cases Option.some.inj state'
    rfl
  · cases Option.some.inj state'
    rfl

/-- The tick of that store comes to an end all the same, with a new window of
the meter that counts. -/
theorem troubled_accounts :
    ((troubled.liveSets ⟨0⟩).adaptive.members = [⟨1⟩, ⟨3⟩] ∧
      (∀ m ∈ (troubled.liveSets ⟨0⟩).adaptive.members, troubled.Askable m) ∧ troubled.Flat ∧
      troubled.meterAt ⟨1⟩ = .window ⟨1, 3⟩) ∧
    ∃ report s₁ s₂ s₃ evaluations merges saves,
      Tick.run ⟨0⟩ ⟨50⟩ troubled = .ok report s₃ ∧
        Account ⟨50⟩ ⟨0⟩ troubled s₁ s₂ s₃ evaluations merges saves report ∧
        s₃.meterAt ⟨1⟩ = .window .idle := by
  have askable : ∀ m ∈ (troubled.liveSets ⟨0⟩).adaptive.members, troubled.Askable m := by
    intro m mem
    have cases : m = ⟨1⟩ ∨ m = ⟨3⟩ := by simpa [troubled, Store.liveSets] using mem
    rcases cases with rfl | rfl
    · refine ⟨by decide, fun p profile => ?_⟩
      obtain rfl := Option.some.inj (show some _ = some p from profile)
      exact ⟨100, rfl⟩
    · refine ⟨by decide, fun p profile => ?_⟩
      obtain rfl := Option.some.inj (show some _ = some p from profile)
      exact ⟨25, rfl⟩
  obtain ⟨report, s₁, s₂, s₃, evaluations, merges, saves, run, account⟩ :=
    run_accounts ⟨0⟩ ⟨50⟩ troubled askable
  have idle := account.windows troubled_flat ⟨1⟩ ⟨1, 3⟩ rfl
  have evaluated : ∃ m ∈ (troubled.liveSets ⟨0⟩).adaptive.members,
    (troubled.profile? m).map (·.meter) = some ⟨1⟩ := ⟨⟨3⟩, by decide, rfl⟩
  rw [if_pos evaluated] at idle
  exact ⟨⟨rfl, askable, troubled_flat, rfl⟩, report, s₁, s₂, s₃, evaluations, merges, saves, run,
    account, idle⟩

end Tick

end MapStore
