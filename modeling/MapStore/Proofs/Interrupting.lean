/-
MapStore.Proofs.Interrupting — a meter that panics ends the tick.

A tick contains what its members do when they are switched, merged or saved,
but it asks the meters of its adaptive maps uncontained. So it ends with the
first of them that panics: the maps before it are evaluated, and that is all
that the tick did. No map after it is evaluated, no buffer is merged and no map
is saved. If every meter answers, the tick comes to its end.

Evaluating a map starts a new window of its meter and leaves every meter as
willing to answer as it was (`fault?_of_evaluate`), so the first to panic is
the first in the list that would panic if it were asked at the start.
-/
import MapStore.Proofs.Ticking

namespace MapStore

namespace AccessMeter

/-- How the meter ends a tick that asks it for its shares. -/
def fault? (m : AccessMeter) : Option Fault :=
  match m.readPercent with
  | .ok _ => none
  | .error fault => some fault

theorem fault?_eq_some {m : AccessMeter} {fault : Fault} :
    m.fault? = some fault ↔ m.readPercent = .error fault := by
  unfold fault?
  cases m.readPercent <;> simp

theorem fault?_eq_none {m : AccessMeter} : m.fault? = none ↔ m.Calm := by
  unfold fault? Calm
  cases m.readPercent <;> simp

theorem fault?_outline (m : AccessMeter) : m.outline.fault? = m.fault? := by
  cases m with
  | window w => rfl
  | fixed f => rfl

theorem fault?_reset (m : AccessMeter) : m.reset.fault? = m.fault? := by
  cases m with
  | window w => rfl
  | fixed f => rfl

end AccessMeter

namespace Tick

variable {policy : ModePolicy} {s s' : Store} {m : MapHandle}

/-- Every meter is as willing to answer as it was. -/
def SameFaults (s s' : Store) : Prop := ∀ h, (s'.meterAt h).fault? = (s.meterAt h).fault?

namespace SameFaults

theorem refl (s : Store) : SameFaults s s := fun _ => rfl

theorem trans {s s' s'' : Store} (h : SameFaults s s') (h' : SameFaults s' s'') :
    SameFaults s s'' := fun x => (h' x).trans (h x)

theorem resetWindow (m : MapHandle) (s : Store) : SameFaults s (m.resetWindow.after s) := by
  obtain same | ⟨a, -, reset⟩ := m.after_resetWindow s
  · rw [same]
    exact refl s
  · intro h
    rw [reset, Store.meterAt_rewound]
    split
    · exact AccessMeter.fault?_reset _
    · rfl

theorem switchTo (m : MapHandle) (target : MapMode) (s : Store) :
    SameFaults s ((Tick.switchTo m target).after s) := by
  obtain same | ⟨outcome, switched⟩ := switched_or_same m target s
  · rw [same]
    exact refl s
  · intro h
    rw [← AccessMeter.fault?_outline, switched.meters, AccessMeter.fault?_outline]

end SameFaults

/-- An evaluation leaves every meter as willing to answer as it was. -/
theorem fault?_of_evaluate (policy : ModePolicy) (m : MapHandle) (s : Store) :
    SameFaults s ((evaluate policy m).after s) := by
  unfold evaluate
  refine Action.after_bind (R := SameFaults) .trans ?_ fun shares s₁ _ => ?_
  · rw [after_percents]
    exact .refl s
  refine Action.after_bind (R := SameFaults) .trans (.resetWindow m s₁) fun _ s₂ _ => ?_
  cases policy.modeFor shares.1 shares.2 with
  | none => exact .refl s₂
  | some target =>
    refine Action.after_bind (R := SameFaults) .trans ?_ fun _ s₃ _ => .refl s₃
    rw [Action.after_attempt]
    exact .switchTo m target s₂

/-- A map that cannot be asked ends the tick at once, with the fault of its
meter if it has one. -/
theorem evaluate_stops (policy : ModePolicy) (h : ¬ s.Askable m) :
    ∃ fault, evaluate policy m s = .error fault s ∧
      ∀ p, s.profile? m = some p → (s.meterAt p.meter).fault? = some fault := by
  cases state : s.maps[m.index]? with
  | none =>
    refine ⟨.error (.mapClosed ""), ?_, fun p profile => ?_⟩
    · simp [evaluate, MapHandle.percents, Action.run_state_none state]
    · simp [Store.profile?, state] at profile
  | some st =>
    have there : m.index < s.maps.length := (List.getElem?_eq_some_iff.1 state).1
    obtain ⟨p, profile, panics⟩ : ∃ p, s.profile? m = some p ∧ ¬ (s.meterAt p.meter).Calm := by
      by_contra none
      push Not at none
      exact h ⟨there, none⟩
    obtain ⟨a, rfl, rfl⟩ := MapState.adaptive_of_profile
      (show st.profile? = some p by simpa [Store.profile?, state] using profile)
    cases asked : (s.meterAt a.meter).readPercent with
    | ok read => exact absurd ⟨read, asked⟩ panics
    | error fault =>
      refine ⟨fault, ?_, fun p' profile' => ?_⟩
      · rw [Store.meterAt] at asked
        simp [evaluate, MapHandle.percents, Action.run_state state, asked]
      · rw [profile] at profile'
        cases profile'
        exact AccessMeter.fault?_eq_some.2 asked

/-- Where the evaluations of some maps led, a map that could not be asked still
cannot. -/
theorem not_askable_of_visits {log : List (MapHandle × Decision)}
    (visits : Visits (evaluate policy) s log s') (h : ¬ s.Askable m) : ¬ s'.Askable m := by
  induction visits with
  | nil s => exact h
  | @cons x r log s s₁ s₂ visit rest ih =>
    refine ih fun askable => h ?_
    have evaluated := evaluated_of_run visit
    refine ⟨evaluated.length ▸ askable.1, fun p profile => ?_⟩
    obtain ⟨p', profile', same⟩ : ∃ p', s₁.profile? m = some p' ∧ p'.meter = p.meter := by
      have meters := evaluated.meter m
      rw [profile] at meters
      exact Option.map_eq_some_iff.1 meters
    have faults := fault?_of_evaluate policy x s p.meter
    rw [Action.after_of_ok visit, ← same] at faults
    rw [← same, ← AccessMeter.fault?_eq_none, ← faults, AccessMeter.fault?_eq_none]
    exact askable.2 p' profile'

/-- The fault of a map's meter is the one it had at the start. -/
theorem fault?_of_visits {log : List (MapHandle × Decision)}
    (visits : Visits (evaluate policy) s log s') (h : MeterHandle) :
    (s'.meterAt h).fault? = (s.meterAt h).fault? := by
  refine visits.keeps (R := SameFaults) .refl .trans (fun x r s₁ s₂ run => ?_) h
  rw [← Action.after_of_ok run]
  exact fault?_of_evaluate policy x s₁

/-- A loop stops at the first member whose visit does. -/
theorem optimize_stops {before : List MapHandle} (after : List MapHandle) {fault : Fault}
    {log : List (MapHandle × Decision)} (visits : Visits (evaluate policy) s log s')
    (each : log.map Prod.fst = before) (stops : evaluate policy m s' = .error fault s')
    (r : TickReport) : (before ++ m :: after).foldlM (optimize policy) r s = .error fault s' := by
  induction visits generalizing before r with
  | nil s =>
    subst each
    simp [optimize, stops]
  | @cons x decision log s s₁ s₂ visit rest ih =>
    subst each
    have first : optimize policy r x s = .ok (r.countEvaluation decision) s₁ := by
      simp [optimize, visit]
    rw [List.map_cons, List.cons_append, List.foldlM_cons, Action.run_bind, first]
    exact ih rfl stops _

/-- A tick comes to its end if every adaptive map that is listed can be asked.
Otherwise it ends with the fault of the first that cannot: the maps before it
are evaluated, and nothing else was done. -/
theorem run_reports_or_stops (live : LiveHandle) (policy : ModePolicy) (s : Store) :
    ((∀ m ∈ (s.liveSets live).adaptive.members, s.Askable m) ∧
      ∃ report s', Tick.run live policy s = .ok report s') ∨
    ∃ before m after, (s.liveSets live).adaptive.members = before ++ m :: after ∧
      (∀ x ∈ before, s.Askable x) ∧ ¬ s.Askable m ∧
      ∃ evaluations fault s', Tick.run live policy s = .error fault s' ∧
        Visits (evaluate policy) s evaluations s' ∧ evaluations.map Prod.fst = before ∧
        (∀ p, s.profile? m = some p → (s.meterAt p.meter).readPercent = .error fault) ∧
        ∀ x, x ∉ before → s'.profile? x = s.profile? x := by
  classical
  cases first : (s.liveSets live).adaptive.members.find? fun m => ¬ s.Askable m with
  | none =>
    have askable : ∀ m ∈ (s.liveSets live).adaptive.members, s.Askable m := by
      simpa using first
    obtain ⟨s₁, s₂, s₃, evaluations, merges, saves, -, run⟩ := run_phases live policy s askable
    exact .inl ⟨askable, _, _, run⟩
  | some m =>
    obtain ⟨not, before, after, members, all⟩ := List.find?_eq_some_iff_append.1 first
    simp only [decide_not, Bool.not_eq_eq_eq_not, Bool.not_true, decide_eq_false_iff_not,
      Bool.not_not, decide_eq_true_eq] at not all
    obtain ⟨evaluations, s', -, each, visits⟩ := evaluations_of_askable all .none
    have nodup : m ∉ before := by
      have nodup := (s.liveSets live).adaptive.nodup
      rw [members] at nodup
      intro mem
      exact (List.nodup_append.1 nodup).2.2 m mem m (List.mem_cons_self ..) rfl
    obtain ⟨fault, stops, faults⟩ := evaluate_stops policy (not_askable_of_visits visits not)
    refine .inr ⟨before, m, after, members, all, not, evaluations, fault, s', ?_, visits, each,
      fun p profile => ?_, fun x out => others_of_evaluations visits (each ▸ out)⟩
    · have first : (s.liveSets live).adaptive.members.foldlM (optimize policy) TickReport.none s =
          .error fault s' := by
        rw [members]
        exact optimize_stops after visits each stops _
      unfold Tick.run
      simp only [Action.run_bind, Action.run_liveSets, first]
    · rw [← AccessMeter.fault?_eq_some, ← fault?_of_visits visits]
      exact faults p ((others_of_evaluations visits (each ▸ nodup)).trans profile)

/-- An adaptive map whose meter panics, and a buffered map with a write that
waits. -/
def alarmed : Store where
  disk := .empty
  maps :=
    [.memory (.empty "a" 1 .bytes .bytes),
     .adaptive
      { name := "a", id := 1, backing := ⟨0⟩, keyType := .bytes, valueType := .bytes
        buffer := none, meter := ⟨0⟩, live := ⟨0⟩ },
     .memory (.empty "b" 2 .bytes .bytes),
     .buffered
      { name := "b", id := 2, backing := ⟨2⟩, keyType := .bytes, valueType := .bytes
        buffer := ((WriteBuffer.empty Bytes.compare).insert [1] (.value [2])).2, closed := false }]
  meters := [.fixed ⟨0, 90, some "alarm", 0, 0, 0⟩]
  units := []
  live := [⟨⟨[⟨2⟩, ⟨0⟩], by decide⟩, ⟨[.map ⟨3⟩], by decide⟩, ⟨[⟨1⟩], by decide⟩, true⟩]
  engines := []

/-- The tick of that store reports nothing: it ends with the panic, and the
write still waits. -/
theorem alarmed_stops :
    Tick.run ⟨0⟩ ⟨50⟩ alarmed = .error (.panic (some "alarm")) alarmed := rfl

end Tick

end MapStore
