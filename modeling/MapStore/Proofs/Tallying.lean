/-
MapStore.Proofs.Tallying — the mode of an adaptive map follows its traffic.

An adaptive map that is opened without a meter of the caller's has a counting
one to itself. What this meter has counted is told by the calls alone (`tally`):
each look-up is a read, each put and each removal a write, whether it is answered
or refused and in whatever mode the map is, and nothing else is anything. A tick
that comes to the map, or a caller who asks for it, starts the window anew.

So the mode after a tick is told by the calls since then, the mode before it and
the threshold (`AccessWindow.modeFor`). The attempt to change the mode may fail,
and then the map is in the mode that it was in. And the tick may not come to the
map at all: it ends with the first adaptive map whose meter panics, and those
listed after it keep their modes and their windows (`Store.Reaches`).

The counts have no bound here, where the meter's have one far beyond what a window
can come to.
-/
import MapStore.Proofs.Equipping
import MapStore.Proofs.Interrupting
import MapStore.Proofs.Numbering
import MapStore.Proofs.Quiescing
import MapStore.Proofs.Shares

namespace MapStore

/-! ## Windows -/

namespace AccessWindow

/-- The window after a call. -/
def count (w : AccessWindow) : Call → AccessWindow
  | .get _ | .contains _ => { w with reads := w.reads + 1 }
  | .put _ _ | .remove _ => { w with writes := w.writes + 1 }
  | .size | .isEmpty | .entries => w

/-- The mode that a map in this mode is to be in after this traffic. -/
def modeFor (w : AccessWindow) (threshold : Nat) (mode : MapMode) : MapMode :=
  if threshold < 100 * w.reads / (w.reads + w.writes) then .direct
  else if threshold < 100 * w.writes / (w.reads + w.writes) then .buffered
  else mode

/-- The policy asks for nothing else. -/
theorem getD_modeFor (w : AccessWindow) (policy : ModePolicy) (mode : MapMode) :
    (policy.modeFor w.readPercent w.writePercent).getD mode = w.modeFor policy.threshold mode := by
  have writes : w.writePercent = 100 * w.writes / (w.reads + w.writes) := by
    rw [writePercent, percent_eq, Nat.add_comm w.writes]
  have reads : w.readPercent = 100 * w.reads / (w.reads + w.writes) := percent_eq ..
  rw [ModePolicy.modeFor, modeFor, reads, writes]
  split
  · rfl
  · split <;> rfl

/-- Without traffic there is no reason to change the mode. -/
example (threshold : Nat) (mode : MapMode) : idle.modeFor threshold mode = mode := by
  simp [modeFor, idle]

end AccessWindow

theorem Call.meter_window (c : Call) (w : AccessWindow) :
    c.meter (.window w) = .window (w.count c) := by
  cases c <;> rfl

/-- The window of a meter that counts. -/
def AccessMeter.window? : AccessMeter → Option AccessWindow
  | window w => some w
  | fixed _ => none

namespace Store

variable {s s' : Store} {m x : MapHandle} {h : MeterHandle} {live : LiveHandle} {mode : MapMode}
  {w w' : AccessWindow}

/-- What an adaptive map's meter has counted. -/
def window? (s : Store) (m : MapHandle) : Option AccessWindow :=
  (s.profile? m).bind fun p => (s.meters[p.meter.index]?).bind AccessMeter.window?

/-- The map is in the mode, and has the meter to itself, with this window. -/
structure Gauges (s : Store) (m : MapHandle) (h : MeterHandle) (live : LiveHandle) (mode : MapMode)
    (w : AccessWindow) : Prop where
  layout : s.Layout
  profile : s.profile? m = some ⟨mode, h, live⟩
  window : s.meters[h.index]? = some (.window w)
  own : ∀ x p, s.profile? x = some p → p.meter = h → x = m

namespace Gauges

theorem mode? (g : s.Gauges m h live mode w) : s.mode? m = some mode := by
  rw [Store.mode?, g.profile]
  rfl

theorem window? (g : s.Gauges m h live mode w) : s.window? m = some w := by
  simp [Store.window?, g.profile, g.window, AccessMeter.window?]

/-- The meters of other maps are others. -/
theorem measured_other (g : s.Gauges m h live mode w) (ne : x ≠ m)
    (f : AccessMeter → AccessMeter) : (s.measured x f)[h.index]? = some (.window w) := by
  rw [← g.window]
  unfold measured
  cases profile : s.profile? x with
  | none => rfl
  | some p =>
    have other : p.meter.index ≠ h.index := fun same =>
      ne (g.own x p profile (congrArg MeterHandle.mk same))
    simp [other]

theorem measured_self (g : s.Gauges m h live mode w) (f : AccessMeter → AccessMeter) :
    (s.measured m f)[h.index]? = some (f (.window w)) := by
  simp [measured, g.profile, g.window]

/-- A step that leaves every profile. -/
theorem still (g : s.Gauges m h live mode w) (layout : s'.Layout)
    (profiles : ∀ x, s'.profile? x = s.profile? x)
    (window : s'.meters[h.index]? = some (.window w')) : s'.Gauges m h live mode w' where
  layout := layout
  profile := (profiles m).trans g.profile
  window := window
  own x p profile := g.own x p ((profiles x).symm.trans profile)

/-- A step that leaves every profile but for modes. -/
theorem wired (g : s.Gauges m h live mode w) (layout : s'.Layout) (wired : Wired s s')
    (window : s'.meters[h.index]? = some (.window w')) :
    ∃ mode', s'.Gauges m h live mode' w' := by
  have wiring : s'.wiring? m = some (h, live) := by
    rw [show s'.wiring? = s.wiring? from wired, wiring?, g.profile]
    rfl
  obtain ⟨p, profile, eq⟩ := Option.map_eq_some_iff.1 wiring
  cases eq
  refine ⟨p.mode, layout, profile, window, fun x q is same => ?_⟩
  have wiring' : s.wiring? x = some (q.meter, q.live) := by
    rw [← show s'.wiring? = s.wiring? from wired, wiring?, is]
    rfl
  obtain ⟨q', is', eq'⟩ := Option.map_eq_some_iff.1 wiring'
  obtain ⟨meter, -⟩ := Prod.mk.inj eq'
  exact g.own x q' is' (meter.trans same)

theorem unmetered (g : s.Gauges m h live mode w) (step : Unmetered s s')
    (profiles : ∀ x, s'.profile? x = s.profile? x) : s'.Gauges m h live mode w := by
  obtain ⟨upkept, meters⟩ := step g.layout
  exact g.still (upkept.layout g.layout) profiles (meters ▸ g.window)

end Gauges

/-! ## The order of a tick -/

/-- The adaptive maps that a tick comes to before this one. -/
def ahead (s : Store) (live : LiveHandle) (m : MapHandle) : List MapHandle :=
  (s.liveSets live).adaptive.members.takeWhile (· ≠ m)

/-- A tick over these live-sets comes to the map: it is listed, and the maps
before it answer when they are asked for their shares. -/
def Reaches (s : Store) (live : LiveHandle) (m : MapHandle) : Prop :=
  m ∈ (s.liveSets live).adaptive.members ∧ ∀ x ∈ s.ahead live m, s.Askable x

instance (m : AccessMeter) : Decidable m.Calm :=
  decidable_of_iff (m.fault? = none) AccessMeter.fault?_eq_none

instance (s : Store) (m : MapHandle) : Decidable (s.Askable m) :=
  inferInstanceAs (Decidable (_ ∧ ∀ p ∈ s.profile? m, _))

instance (s : Store) (live : LiveHandle) (m : MapHandle) : Decidable (s.Reaches live m) :=
  inferInstanceAs (Decidable (_ ∧ _))

theorem not_mem_ahead (s : Store) (live : LiveHandle) (m : MapHandle) : m ∉ s.ahead live m := by
  intro mem
  simpa using List.all_eq_true.1 List.all_takeWhile m mem

/-- The list of the adaptive maps, split at a map that is on it. -/
theorem members_ahead (listed : m ∈ (s.liveSets live).adaptive.members) :
    ∃ after, (s.liveSets live).adaptive.members = s.ahead live m ++ m :: after := by
  unfold ahead
  generalize (s.liveSets live).adaptive.members = l at listed ⊢
  induction l with
  | nil => cases listed
  | cons x rest ih =>
    by_cases same : x = m
    · exact ⟨rest, by simp [same]⟩
    · obtain ⟨after, split⟩ := ih ((List.mem_cons.1 listed).resolve_left (Ne.symm same))
      exact ⟨after, by
        rw [List.takeWhile_cons_of_pos (by simpa using same), List.cons_append, ← split]⟩

end Store

/-! ## Ticks -/

namespace Tick

open Store

variable {policy : ModePolicy} {s s' : Store} {m x : MapHandle} {h : MeterHandle}
  {live sets : LiveHandle} {mode : MapMode} {w : AccessWindow} {r : Decision}

/-- A tick comes to the map, after those listed before it, and this is what comes
of its evaluation. -/
def Evaluates (policy : ModePolicy) (sets : LiveHandle) (m : MapHandle) (s : Store) (r : Decision) :
    Prop :=
  ∃ log s₁ s₂, Visits (evaluate policy) s log s₁ ∧ log.map Prod.fst = s.ahead sets m ∧
    evaluate policy m s₁ = .ok r s₂

/-- The mode after an evaluation is the one that is wanted, if the change did not
fail. -/
theorem mode_of_evaluate {a : AdaptiveMap} {target : Option MapMode}
    (state : s.maps[m.index]? = some (.adaptive a)) (run : evaluate policy m s = .ok r s')
    (wanted : policy.wants (s.meterAt a.meter) = .ok target) :
    r.changedTo.getD a.mode = if r.failed then a.mode else target.getD a.mode := by
  rw [evaluate_adaptive policy state, wanted] at run
  cases target with
  | none =>
    cases run
    rfl
  | some target =>
    simp only at run
    split at run
    · rename_i changed s₁ ran
      cases run
      cases changed with
      | true => rfl
      | false => exact mode_of_switchTo (s := s.rewound a.meter) state ran
    · cases run
      rfl

end Tick

namespace Store.Gauges

open Tick

variable {policy : ModePolicy} {s s' : Store} {m x : MapHandle} {h : MeterHandle}
  {live sets : LiveHandle} {mode : MapMode} {w : AccessWindow} {r : Decision}

theorem evaluate_other (g : s.Gauges m h live mode w) (ne : x ≠ m) (policy : ModePolicy) :
    ((evaluate policy x).after s).Gauges m h live mode w := by
  by_cases askable : s.Askable x
  · obtain ⟨r, s', run, evaluated⟩ := evaluate_askable policy askable
    have upkept := Keeping.evaluate policy x s g.layout
    rw [Action.after_of_ok run] at upkept ⊢
    refine ⟨upkept.layout g.layout, (evaluated.others m ne.symm).trans g.profile, ?_, ?_⟩
    · rw [meters_evaluate g.layout run, g.measured_other ne]
    · intro y p' is same
      have meter := evaluated.meter y
      rw [is] at meter
      obtain ⟨p, profile, eq⟩ := Option.map_eq_some_iff.1 meter.symm
      exact g.own y p profile (eq.trans same)
  · obtain ⟨fault, run, -⟩ := evaluate_stops policy askable
    rw [Action.after_of_error run]
    exact g

theorem evaluate_self (g : s.Gauges m h live mode w) (policy : ModePolicy) :
    ∃ (r : Decision) (s' : Store), evaluate policy m s = .ok r s' ∧
      s'.Gauges m h live (if r.failed then mode else w.modeFor policy.threshold mode) .idle := by
  obtain ⟨st, state, is⟩ := Option.bind_eq_some_iff.1 g.profile
  obtain ⟨a, rfl, eq⟩ := MapState.adaptive_of_profile is
  cases eq
  have meter : s.meterAt a.meter = .window w := by
    rw [meterAt, g.window]
    rfl
  obtain ⟨r, s', run, evaluated⟩ := evaluate_run policy state fun p profile => by
    rw [g.profile] at profile
    cases profile
    exact ⟨_, by rw [meter]; rfl⟩
  have upkept := Keeping.evaluate policy m s g.layout
  rw [Action.after_of_ok run] at upkept
  have wanted : policy.wants (s.meterAt a.meter) =
      .ok (policy.modeFor w.readPercent w.writePercent) := by
    rw [meter]
    rfl
  refine ⟨r, s', run, upkept.layout g.layout, ?_, ?_, ?_⟩
  · rw [evaluated.self, g.profile, Option.map_some, mode_of_evaluate state run wanted,
      w.getD_modeFor policy]
  · rw [meters_evaluate g.layout run, g.measured_self]
    rfl
  · intro y p' is same
    have meter := evaluated.meter y
    rw [is] at meter
    obtain ⟨p, profile, eq⟩ := Option.map_eq_some_iff.1 meter.symm
    exact g.own y p profile (eq.trans same)

theorem visits {log : List (MapHandle × Decision)} (g : s.Gauges m h live mode w)
    (visits : Visits (evaluate policy) s log s') (others : m ∉ log.map Prod.fst) :
    s'.Gauges m h live mode w := by
  induction visits with
  | nil => exact g
  | @cons x r log s s₁ s₂ visit rest ih =>
    rw [List.map_cons, List.mem_cons, not_or] at others
    have first := g.evaluate_other (Ne.symm others.1) policy
    rw [Action.after_of_ok visit] at first
    exact ih first others.2

theorem run (u : MergeUnit) (g : s.Gauges m h live mode w) :
    (u.run.after s).Gauges m h live mode w :=
  g.unmetered (Unmetered.run u s) (Quiet.of_run u s).profiles

theorem save (k : MapHandle) (g : s.Gauges m h live mode w) :
    (k.save.after s).Gauges m h live mode w :=
  g.unmetered (Unmetered.save k s) (profile?_of_touches (frame_save (m := k) (P := fun _ => True)
    trivial fun _ _ _ _ _ _ => trivial))

/-- The step leaves the mode and the window. -/
def Kept (m : MapHandle) (h : MeterHandle) (live : LiveHandle) (mode : MapMode) (w : AccessWindow)
    (s s' : Store) : Prop :=
  s.Gauges m h live mode w → s'.Gauges m h live mode w

/-- What is left of a tick that does not come to the map any more. -/
theorem rest_of_tick {l : List MapHandle} (out : m ∉ l) (policy : ModePolicy) (sets : LiveHandle)
    (c : TickReport) (g : s.Gauges m h live mode w) :
    ((do let r ← l.foldlM (optimize policy) c; later sets r : Action TickReport).after s).Gauges
      m h live mode w := by
  have refl (s : Store) : Kept m h live mode w s s := id
  have trans {s₁ s₂ s₃ : Store} (first : Kept m h live mode w s₁ s₂)
      (next : Kept m h live mode w s₂ s₃) : Kept m h live mode w s₁ s₃ := next ∘ first
  have evaluated : Kept m h live mode w s ((l.foldlM (optimize policy) c).after s) :=
    after_visits refl trans TickReport.countEvaluation (evaluate policy)
      (fun x mem s g => evaluate_other g (fun same => out (same ▸ mem)) policy) c s
  exact Action.after_bind (R := Kept m h live mode w) trans evaluated (fun r s₁ _ =>
    after_later refl trans (fun u _ => run u) (fun k _ => save k) sets r s₁) g

/-- A tick that does not come to the map leaves its mode and its window. -/
theorem tick_passes (g : s.Gauges m h live mode w) (passes : ¬ s.Reaches sets m)
    (policy : ModePolicy) : ((Tick.run sets policy).after s).Gauges m h live mode w := by
  rw [run_eq, Action.after_bind_of_ok (Action.run_liveSets sets s)]
  by_cases listed : m ∈ (s.liveSets sets).adaptive.members
  · -- a map before it panics
    obtain ⟨x, mem, panics⟩ : ∃ x ∈ s.ahead sets m, ¬ s.Askable x := by
      by_contra none
      push Not at none
      exact passes ⟨listed, none⟩
    cases first : (s.ahead sets m).find? fun x => ¬ s.Askable x with
    | none =>
      have calm := List.find?_eq_none.1 first x mem
      simp [panics] at calm
    | some y =>
      obtain ⟨not, before, between, split, all⟩ := List.find?_eq_some_iff_append.1 first
      simp only [decide_not, Bool.not_eq_eq_eq_not, Bool.not_true, decide_eq_false_iff_not,
        Bool.not_not, decide_eq_true_eq] at not all
      obtain ⟨log, s₁, -, each, visits⟩ := evaluations_of_askable all .none
      obtain ⟨fault, stops, -⟩ := evaluate_stops policy (not_askable_of_visits visits not)
      have out : m ∉ log.map Prod.fst := fun mem =>
        s.not_mem_ahead sets m (split ▸ List.mem_append_left _ (each ▸ mem))
      obtain ⟨after, members⟩ := members_ahead listed
      have stopped := optimize_stops (between ++ m :: after) visits each stops .none
      have same : before ++ y :: (between ++ m :: after) = (s.liveSets sets).adaptive.members := by
        rw [members, split, List.append_assoc, List.cons_append]
      rw [same] at stopped
      rw [Action.after_bind_of_error stopped]
      exact g.visits visits out
  · exact g.rest_of_tick listed policy sets .none

/-- A tick that comes to the map evaluates it, whatever comes of the rest. -/
theorem tick_reaches (g : s.Gauges m h live mode w) (reaches : s.Reaches sets m)
    (policy : ModePolicy) :
    ∃ r : Decision, Tick.Evaluates policy sets m s r ∧
      ((Tick.run sets policy).after s).Gauges m h live
        (if r.failed then mode else w.modeFor policy.threshold mode) .idle := by
  obtain ⟨listed, askable⟩ := reaches
  obtain ⟨after, members⟩ := members_ahead listed
  have nodup := (s.liveSets sets).adaptive.nodup
  rw [members] at nodup
  obtain ⟨log, s₁, run, each, visits⟩ := evaluations_of_askable askable .none
  have first := g.visits visits (each ▸ s.not_mem_ahead sets m)
  obtain ⟨r, s₂, own, next⟩ := first.evaluate_self policy
  refine ⟨r, ⟨log, s₁, s₂, visits, each, own⟩, ?_⟩
  have visit (c : TickReport) : optimize policy c m s₁ = .ok (c.countEvaluation r) s₂ := by
    rw [optimize, Action.run_bind, own]
    rfl
  have rest := next.rest_of_tick (List.nodup_cons.1 (List.nodup_append.1 nodup).2.1).1 policy sets
  rw [run_eq, Action.after_bind_of_ok (Action.run_liveSets sets s), members, List.foldlM_append,
    bind_assoc, Action.after_bind_of_ok run, List.foldlM_cons, bind_assoc,
    Action.after_bind_of_ok (visit _)]
  exact rest _

end Store.Gauges

/-! ## What is done with the maps -/

/-- The live-sets of an engine. -/
def EngineHandle.liveAt (e : EngineHandle) (s : Store) : LiveHandle :=
  ((s.engines[e.index]?).getD EngineHandle.unopened).live

/-- Something that is done with an engine and its maps. -/
inductive Use where
  | act (a : Act)
  /-- A caller starts a new window of a map's meter. -/
  | rewound (m : MapHandle)

namespace Use

/-- The store after the use, whatever comes of it. -/
def after (e : EngineHandle) (s : Store) : Use → Store
  | act a => a.after e s
  | rewound m => m.resetWindow.after s

/-- The store after uses. -/
def run (e : EngineHandle) (s : Store) (uses : List Use) : Store := uses.foldl (after e) s

/-- The key type of a map that is asked for is a lawful order. -/
def Lawful : Use → Prop
  | act a => a.Lawful
  | rewound _ => True

/-- The use leaves the meter to the map that has it. -/
def Spares (h : MeterHandle) (s : Store) : Use → Prop
  | act (.deed (.opened o)) => o.meter ≠ some h
  | act (.deed (.metered meters)) => meters[h.index]? = s.meters[h.index]?
  | _ => True

/-- So do all these, one after the other. -/
def Spared (h : MeterHandle) (e : EngineHandle) : Store → List Use → Prop
  | _, [] => True
  | s, use :: rest => use.Spares h s ∧ Spared h e (use.after e s) rest

/-- What a map's own meter has counted after the use. -/
def tally (e : EngineHandle) (m : MapHandle) (s : Store) (w : AccessWindow) : Use → AccessWindow
  | act (.deed (.called c x)) => if x = m then w.count c else w
  | act (.deed (.upkept (.tick live _) _)) => if s.Reaches live m then .idle else w
  | act (.deed .ticked) => if s.Reaches (e.liveAt s) m then .idle else w
  | rewound x => if x = m then .idle else w
  | _ => w

/-- What it has counted after all these. -/
def tallyAll (e : EngineHandle) (m : MapHandle) : Store → AccessWindow → List Use → AccessWindow
  | _, w, [] => w
  | s, w, use :: rest => tallyAll e m (use.after e s) (use.tally e m s w) rest

end Use

namespace Store.Gauges

variable {e : EngineHandle} {s s' : Store} {m x : MapHandle} {h : MeterHandle}
  {live : LiveHandle} {mode : MapMode} {w : AccessWindow}

theorem call (g : s.Gauges m h live mode w) (c : Call)
    (layout : ((c.perform x).after s).Layout) :
    ((c.perform x).after s).Gauges m h live mode (if x = m then w.count c else w) := by
  have touched : s.Touches (fun _ => True) ((c.perform x).after s) :=
    frame_call trivial c fun _ _ _ _ _ _ => trivial
  refine g.still layout (profile?_of_touches touched) ?_
  rw [meters_call g.layout]
  split
  · rename_i same
    rw [same, g.measured_self, c.meter_window]
  · rename_i ne
    rw [g.measured_other ne]

theorem tick (g : s.Gauges m h live mode w) (sets : LiveHandle) (policy : ModePolicy) :
    ∃ mode', ((Tick.run sets policy).after s).Gauges m h live mode'
      (if s.Reaches sets m then .idle else w) := by
  split
  · rename_i reaches
    obtain ⟨r, -, next⟩ := g.tick_reaches reaches policy
    exact ⟨_, next⟩
  · rename_i passes
    exact ⟨_, g.tick_passes passes policy⟩

theorem opened {o : Opening} (g : s.Gauges m h live mode w) (spares : o.meter ≠ some h)
    (layout : ((o.perform e).after s).Layout) :
    ((o.perform e).after s).Gauges m h live mode w := by
  have equips := o.equips e s
  obtain ⟨more, meters, -⟩ := equips.meters
  have lt : h.index < s.meters.length := (List.getElem?_eq_some_iff.1 g.window).1
  refine ⟨layout, ?_, ?_, fun y p profile same => ?_⟩
  · obtain ⟨st, state, is⟩ := Option.bind_eq_some_iff.1 g.profile
    obtain ⟨news, maps⟩ := equips.maps
    rw [profile?, ← maps, List.getElem?_append_left (List.getElem?_eq_some_iff.1 state).1, state]
    exact is
  · rw [meters, List.getElem?_append_left lt, g.window]
  · obtain old | ⟨meter, -⟩ := equips.profiles y p profile
    · exact g.own y p old same
    · rw [same] at meter
      cases given : o.meter with
      | some h' =>
        rw [given] at meter
        exact absurd (given.trans (congrArg some meter.symm)) spares
      | none =>
        rw [given] at meter
        rw [meter] at lt
        exact absurd lt (Nat.lt_irrefl _)

/-- Upkeep of a map, which no meter counts. -/
theorem unpaced {α : Type} {a : Action α} (g : s.Gauges m h live mode w)
    (layout : ((do let _ ← a : Action Unit).after s).Layout) (wired : Wired s (a.after s))
    (meters : (a.after s).meters = s.meters) :
    ∃ mode', ((do let _ ← a : Action Unit).after s).Gauges m h live mode' w := by
  have same : (do let _ ← a : Action Unit).after s = a.after s := after_map a (fun _ => ()) s
  rw [same] at layout ⊢
  exact g.wired layout wired (meters ▸ g.window)

theorem upkept (g : s.Gauges m h live mode w) (u : Upkeep)
    (layout : ((u.perform x).after s).Layout) :
    ∃ mode', ((u.perform x).after s).Gauges m h live mode'
      (Use.tally e m s w (.act (.deed (.upkept u x)))) := by
  cases u with
  | save => exact g.wired layout (.save x s) (meters_save g.layout.flat x ▸ g.window)
  | merge => exact g.unpaced layout (.merge x s) (meters_merge g.layout.flat x)
  | switchToBuffered =>
    exact g.unpaced layout (.switchTo x .buffered s) (meters_switchTo g.layout.flat x .buffered)
  | switchToDirect =>
    exact g.unpaced layout (.switchTo x .direct s) (meters_switchTo g.layout.flat x .direct)
  | tick sets policy =>
    obtain ⟨mode', next⟩ := g.tick sets policy
    rw [← after_map (Tick.run sets policy) (fun _ => ()) s] at next
    exact ⟨mode', next⟩

theorem rewound (g : s.Gauges m h live mode w) (layout : (x.resetWindow.after s).Layout) :
    (x.resetWindow.after s).Gauges m h live mode (if x = m then .idle else w) := by
  refine g.still layout (fun y => by rw [profile?, Tick.maps_resetWindow, profile?]) ?_
  rw [meters_resetWindow]
  split
  · rename_i same
    rw [same, g.measured_self]
    rfl
  · rename_i ne
    rw [g.measured_other ne]

theorem committed (g : s.Gauges m h live mode w) (e : EngineHandle) :
    (e.commit.after s).Gauges m h live mode w :=
  EngineHandle.after_commit (R := Kept m h live mode w) (fun _ => id)
    (fun first next => next ∘ first) (fun k _ => save k) e s g

/-- Any use that does not close the engine. -/
theorem use (g : s.Gauges m h live mode w) (use : Use) (spares : use.Spares h s)
    (stays : use ≠ .act (.deed .closed) ∧ use ≠ .act (.deed .dropped))
    (layout : (use.after e s).Layout) :
    ∃ mode', (use.after e s).Gauges m h live mode' (use.tally e m s w) := by
  cases use with
  | rewound x => exact ⟨mode, g.rewound layout⟩
  | act a =>
    cases a with
    | shut x => exact g.wired layout (.close x s) (meters_close g.layout x ▸ g.window)
    | deed d =>
      cases d with
      | opened o => exact ⟨mode, g.opened spares layout⟩
      | called c x => exact ⟨mode, g.call c layout⟩
      | upkept u x => exact g.upkept u layout
      | metered meters => exact ⟨mode, g.still layout (fun _ => rfl) (spares.trans g.window)⟩
      | ticked => exact g.tick (e.liveAt s) _
      | committed => exact ⟨mode, g.committed e⟩
      | closed => exact absurd rfl stays.1
      | dropped => exact absurd rfl stays.2

end Store.Gauges

/-! ## The engine meanwhile -/

/-- The engine is as an engine is that was opened like this, and as long as it is
open it keeps its configuration and its live-sets. -/
structure Store.Attends (s : Store) (e : EngineHandle) (config : Config) (live : LiveHandle) :
    Prop where
  holds : s.Holds e config.storageDir fun named s => s.Drainable (fun _ => False) named
  registered : s.Registered e
  engine : ∀ x, s.engines[e.index]? = some x → x.closed = false → x.config = config ∧ x.live = live

namespace Store.Attends

variable {e : EngineHandle} {config : Config} {live : LiveHandle} {s s' : Store}

/-- Any map may be closed by itself, since nothing is said of what waits. -/
theorem upheld (storage : Option String) :
    Upheld storage (fun x => ∀ front : Front, False → x ≠ front.backing)
      fun named s => s.Drainable (fun _ => False) named :=
  drainable_upheld fun _ => False.elim

theorem layout (a : s.Attends e config live) : s.Layout := by
  obtain ⟨⟨named, drainable⟩, -⟩ := a.holds.holds
  exact drainable.layout

theorem worksOrEnded (a : s.Attends e config live) : Act.WorksOrEnded s e config.storageDir := by
  cases a.holds with
  | working works ids _ _ => exact .inr ⟨_, works, ids⟩
  | ended ended _ => exact .inl ended

/-- An engine that is open works, and its table agrees with its live-sets. -/
theorem works (a : s.Attends e config live) (isOpen : e.isOpen s = true) :
    ∃ x, s.Works e x config.storageDir ∧ s.Registry x ∧ x.config = config ∧ x.live = live := by
  obtain ended | ⟨x, works, -⟩ := a.worksOrEnded
  · rw [ended.notOpen] at isOpen
    cases isOpen
  · obtain ended | ⟨y, engine, registry⟩ := a.registered
    · exact absurd ended works.not_ended
    · cases works.engine.symm.trans engine
      exact ⟨x, works, registry, a.engine x works.engine works.isOpen⟩

theorem act (a : s.Attends e config live) (act : Act) (lawful : act.Lawful) :
    (act.after e s).Attends e config live := by
  refine ⟨(upheld _).act a.holds act lawful fun _ _ _ => False.elim,
    a.registered.act a.worksOrEnded act, ?_⟩
  have effect := Act.effectOnFiles a.worksOrEnded act
  generalize act.after e s = s' at effect
  cases effect with
  | moves steps _ =>
    rw [steps.engines]
    exact a.engine
  | ends _ ended =>
    intro x engine isOpen
    obtain ⟨y, engine', closed⟩ := ended
    cases engine.symm.trans engine'
    rw [isOpen] at closed
    cases closed
  | @opens x o works ordered =>
    obtain ⟨x', engine', same⟩ := o.after_cases
      (P := fun x' s' => s'.engines[e.index]? = some x' ∧ x'.config = config ∧ x'.live = live)
      works.engine works.isOpen works.alive ⟨works.engine, a.engine x works.engine works.isOpen⟩
      (fun id ids given => ⟨EngineHandle.engine_withEngine _ works.engine,
        a.engine x works.engine works.isOpen⟩)
      fun id ids m s₁ valid new given built => by
        refine ⟨EngineHandle.engine_withEngine _ (x := { x with ids }) ?_,
          a.engine x works.engine works.isOpen⟩
        rw [built.engines]
        exact EngineHandle.engine_withEngine _ works.engine
    intro y engine isOpen
    cases engine.symm.trans engine'
    exact same

theorem use (a : s.Attends e config live) (use : Use) (lawful : use.Lawful) :
    (use.after e s).Attends e config live := by
  cases use with
  | act d => exact a.act d lawful
  | rewound x =>
    have still := Still.resetWindow x s
    have metered : Metered s (x.resetWindow.after s) := Keeping.resetWindow x s
    refine ⟨a.holds.modeSteps (.still still) ((upheld config.storageDir).runs
      (metered.upkeepMoves.runs Writes)), ?_, ?_⟩
    · obtain ended | ⟨y, engine, registry⟩ := a.registered
      · exact .inl (ended.congr still.engines)
      · exact .inr ⟨y, still.engines ▸ engine, registry.still still⟩
    · show ∀ y, (x.resetWindow.after s).engines[e.index]? = some y → _
      rw [still.engines]
      exact a.engine

theorem run (a : s.Attends e config live) {acts : List Act} (lawful : ∀ act ∈ acts, act.Lawful) :
    (Act.run e s acts).Attends e config live := by
  induction acts generalizing s with
  | nil => exact a
  | cons act rest ih =>
    exact ih (a.act act (lawful act List.mem_cons_self)) fun act mem =>
      lawful act (List.mem_cons_of_mem _ mem)

/-- An engine that was closed is not opened again. -/
theorem ended_use (a : s.Attends e config live) (ended : e.Ended s) (use : Use) :
    e.Ended (use.after e s) := by
  cases use with
  | rewound x => exact ended.congr (Still.resetWindow x s).engines
  | act d =>
    have effect := Act.effectOnFiles a.worksOrEnded d
    show e.Ended (d.after e s)
    generalize d.after e s = s' at effect
    cases effect with
    | moves steps _ => exact ended.congr steps.engines
    | ends _ ended => exact ended
    | opens o works _ => exact absurd ended works.not_ended

/-- What the map's meter has counted after uses is told by the uses, as long as
the engine is open. -/
theorem tallies {m : MapHandle} {h : MeterHandle} {w : AccessWindow} {uses : List Use}
    (a : s.Attends e config live) (g : e.Ended s ∨ ∃ mode, s.Gauges m h live mode w)
    (lawful : ∀ use ∈ uses, use.Lawful) (spared : Use.Spared h e s uses) :
    (Use.run e s uses).Attends e config live ∧ (e.Ended (Use.run e s uses) ∨
      ∃ mode', (Use.run e s uses).Gauges m h live mode' (Use.tallyAll e m s w uses)) := by
  induction uses generalizing s w with
  | nil => exact ⟨a, g⟩
  | cons use rest ih =>
    obtain ⟨spares, spared⟩ := spared
    have next := a.use use (lawful use List.mem_cons_self)
    have lawful := fun use mem => lawful use (List.mem_cons_of_mem _ mem)
    obtain ended | ⟨mode, g⟩ := g
    · exact ih next (.inl (a.ended_use ended use)) lawful spared
    · by_cases closes : use = .act (.deed .closed) ∨ use = .act (.deed .dropped)
      · refine ih next (.inl ?_) lawful spared
        obtain rfl | rfl := closes
        · exact (Act.files_close a.worksOrEnded).2
        · exact (Act.files_drop a.worksOrEnded).2
      · obtain ⟨mode', after⟩ := g.use use spares (not_or.1 closes) next.layout
        exact ih next (.inr ⟨mode', after⟩) lawful spared

end Store.Attends

namespace EngineHandle

open Store

variable {config : Config} {disk : Disk} {e : EngineHandle} {s₀ s₁ s s' : Store} {m : MapHandle}
  {o : Opening} {w : AccessWindow} {live : LiveHandle}

theorem attends_of_openWith (start : openWith config (.onDisk disk) = .ok e s₀) :
    ∃ live, s₀.Attends e config live := by
  have configured : ∃ x, s₀.engines[e.index]? = some x ∧ x.config = config := by
    unfold openWith at start
    rw [Action.run_bind] at start
    cases recovered : recoverIds config.recoveryPolicy config.storageDir (.onDisk disk) with
    | error fault s₁ =>
      rw [recovered] at start
      cases start
    | ok ids s₁ =>
      rw [recovered] at start
      cases start
      exact ⟨_, by simp; rfl, rfl⟩
  obtain ⟨x, engine, rfl⟩ := configured
  refine ⟨x.live, holds_drainable _ start, registered_of_openWith start, fun y engine' _ => ?_⟩
  cases engine.symm.trans engine'
  exact ⟨rfl, rfl⟩

/-- A new adaptive map without a meter of the caller's starts with an idle one of
its own. -/
theorem gauges_of_opened (a : s₁.Attends e config live)
    (metered : ∀ x p, s₁.profile? x = some p → p.meter.index < s₁.meters.length)
    (ordered : Std.TransCmp o.keyType.compare) (adaptive : o.kind = .adaptive)
    (unasked : o.meter = none) (opened : o.perform e s₁ = .ok m s)
    (new : s₁.maps[m.index]? = none) :
    s.Gauges m ⟨s₁.meters.length⟩ live .direct .idle := by
  have isOpen : e.isOpen s₁ = true := by
    by_contra closed
    obtain ended | ⟨x, works, -⟩ := a.worksOrEnded
    · obtain ⟨cause, refused, -⟩ := perform_refused ended o
      rw [refused] at opened
      cases opened
    · simp [isOpen, works.engine, works.isOpen] at closed
  obtain ⟨x, works, registry, -, own⟩ := a.works isOpen
  have next := (a.act (.deed (.opened o)) ordered).layout
  have equips := o.equips e s₁
  rw [show (Act.deed (.opened o)).after e s₁ = s from Action.after_of_ok opened] at next
  rw [Action.after_of_ok opened, unasked] at equips
  obtain ⟨⟨meter, profile⟩, single⟩ := o.profiles works.engine registry adaptive opened new
  obtain old | ⟨rfl, reserved⟩ := equips.profiles m _ profile
  · rw [profile?, new] at old
    cases old
  have lt := reserved rfl
  obtain ⟨more, meters, idle⟩ := equips.meters
  refine ⟨next, own ▸ profile, ?_, fun y p is same => ?_⟩
  · rw [meters, List.length_append] at lt
    cases more with
    | nil => exact absurd lt (Nat.lt_irrefl _)
    | cons first rest =>
      rw [meters, List.getElem?_append_right (Nat.le_refl _), Nat.sub_self]
      exact congrArg some (idle first List.mem_cons_self)
  · refine (single y p is).resolve_left fun old => ?_
    have there := metered y p old
    rw [same] at there
    exact absurd there (Nat.lt_irrefl _)

/-- An adaptive map is opened without a meter of the caller's, and then anything
is done with the engine, with the map and with others, but so that nobody else is
given the map's meter. What the meter has counted is told by the calls of the map
since the last tick that came to it or the last new window, whatever came of them.
The next tick of the engine, if it is open, ends before it comes to the map, at a
map whose meter panics, and then leaves the mode and the window. Or it starts a
new window, and leaves the map in the mode that the traffic and the threshold
tell, unless the change failed: then in the mode that it was in. -/
theorem mode_follows_traffic {before : List Act} {uses : List Use}
    (start : openWith config (.onDisk disk) = .ok e s₀) (lawful : ∀ act ∈ before, act.Lawful)
    (reached : s₁ = Act.run e s₀ before)
    (metered : ∀ x p, s₁.profile? x = some p → p.meter.index < s₁.meters.length)
    (ordered : Std.TransCmp o.keyType.compare) (adaptive : o.kind = .adaptive)
    (unasked : o.meter = none) (opened : o.perform e s₁ = .ok m s)
    (new : s₁.maps[m.index]? = none) (lawful' : ∀ use ∈ uses, use.Lawful)
    (spared : Use.Spared ⟨s₁.meters.length⟩ e s uses) (later : s' = Use.run e s uses)
    (isOpen : e.isOpen s' = true) (counted : Use.tallyAll e m s .idle uses = w) :
    ∃ mode, s'.mode? m = some mode ∧ s'.window? m = some w ∧
      ((∃ x ∈ s'.ahead (e.liveAt s') m, ¬ s'.Askable x) ∧
          (e.tick.after s').mode? m = some mode ∧ (e.tick.after s').window? m = some w ∨
        ∃ r : Decision, Tick.Evaluates ⟨config.adaptiveThreshold⟩ (e.liveAt s') m s' r ∧
          (e.tick.after s').mode? m =
            some (if r.failed then mode else w.modeFor config.adaptiveThreshold mode) ∧
          (e.tick.after s').window? m = some .idle) := by
  subst reached later counted
  obtain ⟨live, attends⟩ := attends_of_openWith start
  have attends := attends.run lawful
  have begun := gauges_of_opened attends metered ordered adaptive unasked opened new
  have attends : s.Attends e config live := by
    have next := attends.act (.deed (.opened o)) ordered
    rwa [show (Act.deed (.opened o)).after e _ = s from Action.after_of_ok opened] at next
  obtain ⟨attends, ended | ⟨mode, g⟩⟩ := attends.tallies (.inr ⟨_, begun⟩) lawful' spared
  · rw [ended.notOpen] at isOpen
    cases isOpen
  obtain ⟨x, works, registry, rfl, rfl⟩ := attends.works isOpen
  generalize Use.run e s uses = s' at *
  generalize Use.tallyAll e m s .idle uses = w at *
  have here : e.liveAt s' = x.live := by
    rw [liveAt, works.engine]
    rfl
  have ticked : e.tick.after s' =
      (Tick.run x.live ⟨x.config.adaptiveThreshold⟩).after s' := by
    rw [Action.after_of_eq (run_tick (run_state works.engine))]
  refine ⟨mode, g.mode?, g.window?, ?_⟩
  rw [here, ticked]
  by_cases reaches : s'.Reaches x.live m
  · obtain ⟨r, evaluated, next⟩ := g.tick_reaches reaches ⟨x.config.adaptiveThreshold⟩
    exact .inr ⟨r, evaluated, next.mode?, next.window?⟩
  · have next := g.tick_passes reaches ⟨x.config.adaptiveThreshold⟩
    refine .inl ⟨?_, next.mode?, next.window?⟩
    by_contra calm
    push Not at calm
    refine reaches ⟨?_, calm⟩
    obtain ⟨st, state, plain⟩ := Option.bind_eq_some_iff.1 g.profile
    obtain ⟨a, rfl, eq⟩ := MapState.adaptive_of_profile plain
    have lists : a.live = x.live := (congrArg Profile.live eq).symm
    have face : s'.face? m = some (MapState.adaptive a).face := face?_of_maps state
    have sort : (MapState.adaptive a).face.sort = .adaptive a.mode x.live := by
      rw [← lists]
      rfl
    obtain ⟨name, named⟩ := registry.known m _ a.mode face sort
    exact (registry.adaptive m).2 ⟨name, _, ⟨named, face⟩, rfl⟩

/-- A put, or a removal, that an adaptive map in direct mode hands on. -/
theorem called_adaptive {a : AdaptiveMap} {d d' : DirectMap} {c : Call} {key : Bytes}
    {written : Change} {previous : Option Bytes} (state : s.maps[m.index]? = some (.adaptive a))
    (direct : a.buffer = none) (below : a.backing.index < m.index)
    (base : s.maps[a.backing.index]? = some (.direct d)) (change : c.change? = some (key, written))
    (made : d.write key written = .ok (previous, d')) :
    (Deed.called c m).after e s =
      ({ s with meters := s.meters.modify a.meter.index .recordWrite } : Store).set a.backing
        (.direct d') := by
  obtain ⟨depth, same⟩ := Call.perform_of_change (m := m) change s
  have wrote : a.backing.write depth key written
      { s with meters := s.meters.modify a.meter.index .recordWrite } = _ :=
    MapHandle.write_direct base
  refine Action.after_of_ok (r := .value previous) ?_
  rw [same, Action.run_bind, MapHandle.write_adaptive state below, direct]
  simp only [wrote, made]
  rfl

/-- A request for an adaptive map. -/
def paceMap (name : String) (meter : Option MeterHandle) : Opening :=
  ⟨name, .adaptive, .bytes, .bytes, meter, false⟩

/-- The map opened in the depot. -/
def paceOpened : Store := ((paceMap "a" none).perform ⟨0⟩).after depotStart

/-- An entry is put. -/
def paceUses : List Use := [.act (.deed (.called (.put [1] [2]) ⟨1⟩))]

/-- The map with the entry. -/
def pacePut : Store :=
  ({ paceOpened with meters := [.window ⟨0, 1⟩] } : Store).set ⟨0⟩ (.direct (depotFull "a" 1))

theorem run_paceUses : Use.run ⟨0⟩ paceOpened paceUses = pacePut := by
  have state : paceOpened.maps[1]? =
      some (.adaptive ⟨⟨"a", 1, ⟨0⟩, .bytes, .bytes⟩, none, ⟨0⟩, ⟨0⟩⟩) := rfl
  have base : paceOpened.maps[0]? = some (.direct (depotEmpty "a" 1)) := rfl
  have made : (depotEmpty "a" 1).write [1] (.value [2]) = .ok (none, depotFull "a" 1) := rfl
  exact called_adaptive (e := ⟨0⟩) (m := ⟨1⟩) (c := .put [1] [2]) state rfl (by decide) base rfl
    made

/-- After nothing but a write the map is to be buffered. -/
theorem pace_follows :
    openWith depot (.onDisk .empty) = .ok ⟨0⟩ depotStart ∧
      (paceMap "a" none).perform ⟨0⟩ depotStart = .ok ⟨1⟩ paceOpened ∧
      Use.tallyAll ⟨0⟩ ⟨1⟩ paceOpened .idle paceUses = ⟨0, 1⟩ ∧
      (Use.run ⟨0⟩ paceOpened paceUses).mode? ⟨1⟩ = some .direct ∧
      ∃ r : Decision, Tick.Evaluates ⟨50⟩ ⟨0⟩ ⟨1⟩ (Use.run ⟨0⟩ paceOpened paceUses) r ∧
        ((⟨0⟩ : EngineHandle).tick.after (Use.run ⟨0⟩ paceOpened paceUses)).mode? ⟨1⟩ =
          some (if r.failed then .direct else .buffered) ∧
        ((⟨0⟩ : EngineHandle).tick.after (Use.run ⟨0⟩ paceOpened paceUses)).window? ⟨1⟩ =
          some .idle := by
  have start : openWith depot (.onDisk .empty) = .ok ⟨0⟩ depotStart := rfl
  have opened : (paceMap "a" none).perform ⟨0⟩ depotStart = .ok ⟨1⟩ paceOpened := rfl
  have bytes : Std.TransCmp DataType.bytes.compare := inferInstanceAs (Std.TransCmp Bytes.compare)
  have metered : ∀ x p, depotStart.profile? x = some p →
      p.meter.index < depotStart.meters.length := by
    intro x p profile
    cases profile
  have lawful : ∀ use ∈ paceUses, use.Lawful := by
    simp [paceUses, Use.Lawful, Act.Lawful, Deed.Lawful]
  have isOpen : (⟨0⟩ : EngineHandle).isOpen (Use.run ⟨0⟩ paceOpened paceUses) = true := by
    rw [run_paceUses]
    rfl
  have alone : (Use.run ⟨0⟩ paceOpened paceUses).ahead
      ((⟨0⟩ : EngineHandle).liveAt (Use.run ⟨0⟩ paceOpened paceUses)) ⟨1⟩ = [] := by
    rw [run_paceUses]
    decide +kernel
  obtain ⟨mode, was, -, ⟨⟨x, mem, -⟩, -⟩ | ⟨r, evaluated, becomes, idle⟩⟩ :=
    mode_follows_traffic start (List.forall_mem_nil _) rfl metered bytes rfl rfl opened rfl lawful
      ⟨trivial, trivial⟩ rfl isOpen rfl
  · rw [alone] at mem
    cases mem
  have direct : (Use.run ⟨0⟩ paceOpened paceUses).mode? ⟨1⟩ = some .direct := by
    rw [run_paceUses]
    rfl
  rw [direct] at was
  cases was
  have here : (⟨0⟩ : EngineHandle).liveAt (Use.run ⟨0⟩ paceOpened paceUses) = ⟨0⟩ := by
    rw [run_paceUses]
    rfl
  rw [here] at evaluated
  exact ⟨start, opened, rfl, direct, r, evaluated, becomes, idle⟩

/-- Before this map another one is opened, whose meter panics. -/
def alarmActs : List Act :=
  [.deed (.metered [.fixed ⟨0, 0, some "alarm", 0, 0, 0⟩]),
    .deed (.opened (paceMap "b" (some ⟨0⟩)))]

/-- Both maps. -/
def alarmOpened : Store :=
  ((paceMap "a" none).perform ⟨0⟩).after (Act.run ⟨0⟩ depotStart alarmActs)

/-- An entry is put into the second one. -/
def alarmUses : List Use := [.act (.deed (.called (.put [1] [2]) ⟨3⟩))]

def alarmPut : Store :=
  ({ alarmOpened with
      meters := [.fixed ⟨0, 0, some "alarm", 0, 0, 0⟩, .window ⟨0, 1⟩] } : Store).set
    ⟨2⟩ (.direct (depotFull "a" 2))

theorem run_alarmUses : Use.run ⟨0⟩ alarmOpened alarmUses = alarmPut := by
  have state : alarmOpened.maps[3]? =
      some (.adaptive ⟨⟨"a", 2, ⟨2⟩, .bytes, .bytes⟩, none, ⟨1⟩, ⟨0⟩⟩) := rfl
  have base : alarmOpened.maps[2]? = some (.direct (depotEmpty "a" 2)) := rfl
  have made : (depotEmpty "a" 2).write [1] (.value [2]) = .ok (none, depotFull "a" 2) := rfl
  exact called_adaptive (e := ⟨0⟩) (m := ⟨3⟩) (c := .put [1] [2]) state rfl (by decide) base rfl
    made

/-- The tick leaves it in direct mode, and the write is still in the window. -/
theorem alarm_keeps_mode :
    (paceMap "a" none).perform ⟨0⟩ (Act.run ⟨0⟩ depotStart alarmActs) = .ok ⟨3⟩ alarmOpened ∧
      Use.tallyAll ⟨0⟩ ⟨3⟩ alarmOpened .idle alarmUses = ⟨0, 1⟩ ∧
      (⟨0, 1⟩ : AccessWindow).modeFor depot.adaptiveThreshold .direct = .buffered ∧
      ((⟨0⟩ : EngineHandle).tick.after (Use.run ⟨0⟩ alarmOpened alarmUses)).mode? ⟨3⟩ =
        some .direct ∧
      ((⟨0⟩ : EngineHandle).tick.after (Use.run ⟨0⟩ alarmOpened alarmUses)).window? ⟨3⟩ =
        some ⟨0, 1⟩ := by
  rw [run_alarmUses]
  exact ⟨rfl, rfl, rfl, by decide +kernel, by decide +kernel⟩

end EngineHandle

end MapStore
