/-
MapStore.Proofs.Evaluating — what the evaluation of one adaptive map does.

A tick sees three things of an adaptive map: the mode it is in, the meter it
asks and the live-sets it is listed in, its `Profile`. Evaluating a map leaves
the profile of every other map, starts one window of the map's own meter, and
changes the map's mode exactly if the attempt to switch answered that it did.
The list of the buffers to be merged follows: a map that entered buffered mode
is on it, a map that left buffered mode is not, and no other member moved.

`Switched` says so of the attempt to switch, `Evaluated` of the evaluation.
-/
import MapStore.Proofs.Switching

namespace MapStore

/-! ## What a tick sees -/

/-- An adaptive map as a tick sees it. -/
structure Profile where
  mode : MapMode
  meter : MeterHandle
  live : LiveHandle
  deriving DecidableEq

/-- The profile of a map; maps that are not adaptive have none. -/
def MapState.profile? : MapState → Option Profile
  | adaptive a => some ⟨a.mode, a.meter, a.live⟩
  | _ => none

theorem MapState.profile?_outline (st : MapState) : st.outline.profile? = st.profile? := by
  cases st with
  | adaptive a => simp [outline, profile?, AdaptiveMap.mode]
  | memory m => rfl
  | direct m => rfl
  | buffered m => rfl
  | faulty m => rfl

/-- Only adaptive maps have a profile. -/
theorem MapState.adaptive_of_profile {st : MapState} {p : Profile} (h : st.profile? = some p) :
    ∃ a, st = .adaptive a ∧ p = ⟨a.mode, a.meter, a.live⟩ := by
  cases st with
  | adaptive a => exact ⟨a, rfl, (Option.some.inj h).symm⟩
  | memory m => cases h
  | direct m => cases h
  | buffered m => cases h
  | faulty m => cases h

namespace AccessMeter

/-- The meter answers when it is asked for its shares. -/
def Calm (m : AccessMeter) : Prop := ∃ read, m.readPercent = .ok read

/-- How often a fixed meter was reset. -/
def resets? : AccessMeter → Option Nat
  | window _ => none
  | fixed f => some f.resets

theorem calm_outline (m : AccessMeter) : m.outline.Calm ↔ m.Calm := by
  cases m with
  | window w => exact ⟨fun _ => ⟨_, rfl⟩, fun _ => ⟨_, rfl⟩⟩
  | fixed f => exact Iff.rfl

theorem resets?_outline (m : AccessMeter) : m.outline.resets? = m.resets? := by
  cases m <;> rfl

/-- A new window leaves a meter calm. -/
theorem calm_reset (m : AccessMeter) (h : m.Calm) : m.reset.Calm := by
  cases m with
  | window w => exact ⟨_, rfl⟩
  | fixed f => exact h

theorem resets?_reset (m : AccessMeter) : m.reset.resets? = m.resets?.map (· + 1) := by
  cases m <;> rfl

end AccessMeter

namespace Store

variable {P : MapHandle → Prop} {s s' : Store}

/-- The profile of the map that a handle refers to. -/
def profile? (s : Store) (m : MapHandle) : Option Profile :=
  s.maps[m.index]?.bind MapState.profile?

/-- The mode of an adaptive map. -/
def mode? (s : Store) (m : MapHandle) : Option MapMode := (s.profile? m).map (·.mode)

/-- The meter that a handle refers to. -/
def meterAt (s : Store) (h : MeterHandle) : AccessMeter := (s.meters[h.index]?).getD .idle

theorem profile?_of_touches (h : s.Touches P s') (m : MapHandle) :
    s'.profile? m = s.profile? m := by
  have same := congrArg (fun l => l[m.index]?.bind MapState.profile?) h.outlines
  simpa only [profile?, List.getElem?_map, Option.bind_map, Function.comp_def,
    MapState.profile?_outline] using same

theorem profile?_set {m : MapHandle} {st : MapState} (st' : MapState)
    (h : s.maps[m.index]? = some st) (x : MapHandle) :
    (s.set m st').profile? x = if x = m then st'.profile? else s.profile? x := by
  by_cases same : x = m
  · subst same
    simp [profile?, maps_set_self st' h]
  · simp [profile?, maps_set_of_ne s st' (Ne.symm same), same]

theorem meterAt_rewound (s : Store) (h x : MeterHandle) :
    (s.rewound h).meterAt x = if h = x then (s.meterAt x).reset else s.meterAt x := by
  obtain ⟨i⟩ := h
  obtain ⟨j⟩ := x
  simp only [rewound, meterAt, List.getElem?_modify, MeterHandle.mk.injEq]
  cases s.meters[j]? with
  | none => simp [AccessMeter.idle, AccessMeter.reset]
  | some m => by_cases same : i = j <;> simp [same]

/-- One meter has a new window, in which nothing happened yet, or counts that it
was to start one; nothing else changed. -/
structure Renews (s : Store) (h : MeterHandle) (s' : Store) : Prop where
  window : ∀ w, s.meterAt h = .window w → s'.meterAt h = .window .idle
  fixed : ∀ f, s.meterAt h = .fixed f → s'.meterAt h = .fixed { f with resets := f.resets + 1 }
  others : ∀ x, x ≠ h → s'.meterAt x = s.meterAt x
  rest : s' = { s with meters := s'.meters }

theorem renews_rewound (s : Store) (h : MeterHandle) : s.Renews h (s.rewound h) where
  window w eq := by
    rw [meterAt_rewound, if_pos rfl, eq]
    rfl
  fixed f eq := by
    rw [meterAt_rewound, if_pos rfl, eq]
    rfl
  others x ne := by rw [meterAt_rewound, if_neg ne.symm]
  rest := rfl

theorem length_of_touches (h : s.Touches P s') : s'.maps.length = s.maps.length := by
  simpa using congrArg List.length h.outlines

end Store

/-! ## Switching -/

namespace LiveSet

variable {α : Type} [DecidableEq α]

theorem mem_insert (s : LiveSet α) (a b : α) :
    b ∈ (s.insert a).2.members ↔ b = a ∨ b ∈ s.members := by
  unfold insert
  split
  · rename_i there
    simp only [contains, List.contains_iff_mem] at there
    constructor
    · exact .inr
    · rintro (rfl | mem)
      · exact there
      · exact mem
  · simp [or_comm]

theorem mem_erase (s : LiveSet α) (a b : α) :
    b ∈ (s.erase a).2.members ↔ b ≠ a ∧ b ∈ s.members := by
  unfold erase
  split
  · simp [and_comm]
  · rename_i absent
    simp only [contains, List.contains_iff_mem] at absent
    constructor
    · exact fun mem => ⟨fun eq => absent (eq ▸ mem), mem⟩
    · exact And.right

end LiveSet

/-- What was decided of a map: the mode it was to change to, if any, and how
the attempt ended. -/
abbrev Decision := Option (MapMode × Except Fault Bool)

namespace Decision

/-- The mode that the map changed to. -/
def changedTo : Decision → Option MapMode
  | some (target, .ok true) => some target
  | _ => none

/-- Whether the map was to change and the attempt failed. -/
def failed : Decision → Bool
  | some (_, .error _) => true
  | _ => false

end Decision

/-- The live-sets after a map changed to a mode. -/
def LiveSets.relist (l : LiveSets) (m : MapHandle) : Option MapMode → LiveSets
  | some .buffered => { l with buffered := (l.buffered.insert (.map m)).2 }
  | some .direct => if l.alive then { l with buffered := (l.buffered.erase (.map m)).2 } else l
  | none => l

namespace LiveSets

variable (l : LiveSets) (m : MapHandle) (c : Option MapMode)

@[simp] theorem alive_relist : (l.relist m c).alive = l.alive := by
  unfold relist
  split <;> [rfl; (split <;> rfl); rfl]

@[simp] theorem storage_relist : (l.relist m c).storage = l.storage := by
  unfold relist
  split <;> [rfl; (split <;> rfl); rfl]

variable {l m c}

/-- Other members are listed as they were. -/
theorem mem_relist {u : MergeUnit} (ne : u ≠ .map m) :
    u ∈ (l.relist m c).buffered.members ↔ u ∈ l.buffered.members := by
  unfold relist
  split
  · simp [LiveSet.mem_insert, ne]
  · split
    · simp [LiveSet.mem_erase, ne]
    · rfl
  · rfl

/-- The map itself is listed if it is in buffered mode now. -/
theorem mem_relist_self {target : MapMode} (alive : l.alive = true) :
    .map m ∈ (l.relist m (some target)).buffered.members ↔ target = .buffered := by
  cases target with
  | buffered => simp [relist, LiveSet.mem_insert]
  | direct => simp [relist, alive, LiveSet.mem_erase]

end LiveSets

/-- A map that enters buffered mode is listed in its live-sets, -/
theorem Store.liveSets_entered {s : Store} {h : LiveHandle} (alive : (s.liveSets h).alive = true)
    (m : MapHandle) (x : LiveHandle) :
    (s.withListed h ((s.liveSets h).buffered.insert (.map m)).2).liveSets x =
      (s.liveSets x).relist m (if h = x then some .buffered else none) := by
  rw [liveSets_withListed _ _ _ _ alive]
  split
  · rename_i same
    subst same
    rfl
  · rfl

/-- and one that leaves it is not any more, unless there is nobody to list it. -/
theorem Store.liveSets_left {s s₁ : Store} (live : s₁.live = s.live) (h : LiveHandle)
    (m : MapHandle) (x : LiveHandle) :
    (if (s.liveSets h).alive then s₁.withListed h ((s.liveSets h).buffered.erase (.map m)).2
        else s₁).liveSets x =
      (s.liveSets x).relist m (if h = x then some .direct else none) := by
  have same : s₁.liveSets = s.liveSets := by
    funext x
    rw [liveSets, liveSets, live]
  cases alive : (s.liveSets h).alive with
  | false =>
    rw [if_neg (by simp), same]
    split
    · rename_i own
      subst own
      simp [LiveSets.relist, alive]
    · rfl
  | true =>
    rw [if_pos rfl, liveSets_withListed _ _ _ _ (by rw [same, alive]), same]
    split
    · rename_i own
      subst own
      simp [LiveSets.relist, alive]
    · rfl

/-- The store after an attempt to switch one map. -/
structure Switched (m : MapHandle) (s : Store) (r : Decision) (s' : Store) : Prop where
  length : s'.maps.length = s.maps.length
  others : ∀ x, x ≠ m → s'.profile? x = s.profile? x
  self : s'.profile? m =
    (s.profile? m).map fun p => { p with mode := r.changedTo.getD p.mode }
  /-- The answer that the mode changed is true. -/
  changed : ∀ target, r.changedTo = some target → ∃ p, s.profile? m = some p ∧ p.mode ≠ target
  meters : ∀ h, (s'.meterAt h).outline = (s.meterAt h).outline
  live : ∀ h, s'.liveSets h =
    (s.liveSets h).relist m (if (s.profile? m).map (·.live) = some h then r.changedTo else none)

namespace Switched

variable {P : MapHandle → Prop} {s s' s₁ s₂ : Store} {m : MapHandle} {r : Decision}

/-- A step that only touches maps is no change of mode. -/
theorem of_touches (h : s.Touches P s') (unchanged : r.changedTo = none) : Switched m s r s' where
  length := Store.length_of_touches h
  others x _ := Store.profile?_of_touches h x
  self := by
    rw [Store.profile?_of_touches h, unchanged]
    cases s.profile? m <;> rfl
  changed target eq := by simp [unchanged] at eq
  meters x := h.meter x.index
  live x := by simp [Store.liveSets, h.live, unchanged, LiveSets.relist]

/-- A map that changed its mode, after a step that only touched maps, and was
listed accordingly. -/
theorem of_set {a : AdaptiveMap} (a' : AdaptiveMap) (touched : s.Touches P s₁)
    (h : s.maps[m.index]? = some (.adaptive a)) (maps : s₂.maps = s₁.maps)
    (meters : s₂.meters = s₁.meters) (meter : a'.meter = a.meter) (live : a'.live = a.live)
    (ne : a.mode ≠ a'.mode)
    (listed : ∀ x, s₂.liveSets x =
      (s.liveSets x).relist m (if a.live = x then some a'.mode else none)) :
    Switched m s (some (a'.mode, .ok true)) (s₂.set m (.adaptive a')) := by
  obtain ⟨st₁, h₁, -⟩ := touched.outline h
  have h₂ : s₂.maps[m.index]? = some st₁ := maps ▸ h₁
  have profile : s.profile? m = some ⟨a.mode, a.meter, a.live⟩ := by
    simp [Store.profile?, h, MapState.profile?]
  refine ⟨?_, fun x hx => ?_, ?_, fun target eq => ?_, fun x => ?_, fun x => ?_⟩
  · simp [Store.set, maps, Store.length_of_touches touched]
  · rw [Store.profile?_set _ h₂, if_neg hx, ← Store.profile?_of_touches touched x]
    simp [Store.profile?, maps]
  · rw [Store.profile?_set _ h₂, if_pos rfl, profile]
    simp [MapState.profile?, Decision.changedTo, meter, live]
  · obtain rfl : a'.mode = target := by simpa [Decision.changedTo] using eq
    exact ⟨_, profile, ne⟩
  · rw [Store.meterAt, Store.meters_set, meters]
    exact touched.meter x.index
  · rw [Store.liveSets_set, listed, profile]
    simp [Decision.changedTo]

/-- An attempt to switch an adaptive map. -/
theorem of_switchTo {a : AdaptiveMap} (h : s.maps[m.index]? = some (.adaptive a))
    (target : MapMode) :
    ∃ outcome s', Action.attempt (Tick.switchTo m target) s = .ok outcome s' ∧
      Switched m s (some (target, outcome)) s' := by
  have still : s.Touches (fun _ => True) s := .refl _ s
  have merged : s.Touches (fun _ => True) (m.merge.after s) :=
    Store.frame_merge trivial fun _ _ _ _ _ _ => trivial
  rw [Action.run_attempt]
  cases target with
  | buffered =>
    obtain ⟨-, run⟩ | ⟨-, -, run⟩ | ⟨mode, alive, run⟩ := MapHandle.switchToBuffered_cases h
    · exact ⟨.ok false, s, by rw [Tick.switchTo, run], .of_touches still rfl⟩
    · exact ⟨.error (.error .engineClosed), s, by rw [Tick.switchTo, run], .of_touches still rfl⟩
    · refine ⟨.ok true, _, by rw [Tick.switchTo, run], ?_⟩
      refine of_set { a with buffer := some _ } still h rfl rfl rfl rfl
        (by simp [mode, AdaptiveMap.mode_of_some]) fun x => ?_
      rw [AdaptiveMap.mode_of_some]
      exact Store.liveSets_entered alive m x
  | direct =>
    obtain ⟨-, run⟩ | ⟨fault, -, -, run⟩ | ⟨stats, buffer, mode, -, -, run⟩ :=
      MapHandle.switchToDirect_cases h
    · exact ⟨.ok false, s, by rw [Tick.switchTo, run], .of_touches still rfl⟩
    · exact ⟨.error fault, _, by rw [Tick.switchTo, run], .of_touches merged rfl⟩
    · refine ⟨.ok true, _, by rw [Tick.switchTo, run], ?_⟩
      refine of_set { a with buffer := none } merged h ?_ ?_ rfl rfl
        (by simp [mode, AdaptiveMap.mode_of_none]) fun x => ?_
      · split <;> rfl
      · split <;> rfl
      · rw [AdaptiveMap.mode_of_none]
        exact Store.liveSets_left merged.live a.live m x

end Switched

/-- Switching a map of a closed set changes no map outside it. -/
theorem Tick.confined_switchTo {P : MapHandle → Prop} {s : Store} {m : MapHandle}
    (closed : s.Closed P) (inP : P m) (target : MapMode) :
    s.Confined P ((Tick.switchTo m target).after s) := by
  have merged : s.Confined P (m.merge.after s) := (Store.frame_merge inP closed).toConfined
  -- another buffer for the map, wherever it is listed
  have turned : ∀ {s₁ s₂ : Store} {a : AdaptiveMap} (buffer : Option WriteBuffer),
      s₁.maps[m.index]? = some (.adaptive a) → s₂.maps = s₁.maps →
      s₁.Confined P (s₂.set m (.adaptive { a with buffer })) := by
    intro s₁ s₂ a buffer h maps
    have h₂ : s₂.maps[m.index]? = _ := maps ▸ h
    exact (Store.confined_of_maps maps).trans (Store.confined_set inP h₂ fun _ hx => hx)
  cases target with
  | buffered =>
    unfold Tick.switchTo
    obtain same | ⟨a, h, -, -, entered⟩ := m.after_switchToBuffered s
    · rw [same]
      exact .refl P s
    · rw [entered]
      exact turned _ h rfl
  | direct =>
    unfold Tick.switchTo
    obtain same | failed | ⟨a, stats, buffer, -, -, h', left⟩ := m.after_switchToDirect s
    · rw [same]
      exact .refl P s
    · rw [failed]
      exact merged
    · rw [left]
      refine merged.trans (turned (a := { a with buffer }) none h' ?_)
      split <;> rfl

/-! ## Evaluating -/

/-- A map is not switched, or there is one attempt to switch it. -/
def Attempted (m : MapHandle) (s : Store) (r : Decision) (s' : Store) : Prop :=
  (r = none ∧ s' = s) ∨ ∃ target outcome, r = some (target, outcome) ∧
    Action.attempt (Tick.switchTo m target) s = .ok outcome s'

/-- In an engine no meter is told of it. -/
theorem Attempted.meters {m : MapHandle} {s s' : Store} {r : Decision} (h : Attempted m s r s')
    (flat : s.Flat) : s'.Flat ∧ s'.meters = s.meters := by
  obtain ⟨-, rfl⟩ | ⟨target, outcome, -, run⟩ := h
  · exact ⟨flat, rfl⟩
  · have confined : s.Confined (fun _ => True) ((Tick.switchTo m target).after s) :=
      Tick.confined_switchTo (fun _ _ _ _ _ _ => trivial) trivial target
    have meters := Store.meters_switchTo flat m target
    rw [← Action.after_attempt, Action.after_of_ok run] at confined meters
    exact ⟨confined.flat flat, meters⟩

/-- The store after one map was evaluated. -/
structure Evaluated (m : MapHandle) (s : Store) (r : Decision) (s' : Store) : Prop where
  length : s'.maps.length = s.maps.length
  others : ∀ x, x ≠ m → s'.profile? x = s.profile? x
  self : s'.profile? m =
    (s.profile? m).map fun p => { p with mode := r.changedTo.getD p.mode }
  changed : ∀ target, r.changedTo = some target → ∃ p, s.profile? m = some p ∧ p.mode ≠ target
  calm : ∀ h, (s.meterAt h).Calm → (s'.meterAt h).Calm
  /-- The map's own meter starts a window, and then the map is switched once at
  most. -/
  begins : ∀ p, s.profile? m = some p → s.Renews p.meter (s.rewound p.meter) ∧
    Attempted m (s.rewound p.meter) r s'
  /-- In an engine that window is still idle then, and no other changed. -/
  windows : s.Flat → s'.Flat ∧ ∀ h w, s.meterAt h = .window w →
    s'.meterAt h = .window (if (s.profile? m).map (·.meter) = some h then .idle else w)
  /-- The map's own meter starts one window, and no other meter does. -/
  resets : ∀ h, (s'.meterAt h).resets? = (s.meterAt h).resets?.map
    (· + if (s.profile? m).map (·.meter) = some h then 1 else 0)
  live : ∀ h, s'.liveSets h =
    (s.liveSets h).relist m (if (s.profile? m).map (·.live) = some h then r.changedTo else none)

namespace Evaluated

variable {s s' : Store} {m : MapHandle} {r : Decision}

/-- A map without a mode is passed over. -/
theorem of_plain (h : s.profile? m = none) : Evaluated m s none s where
  length := rfl
  others _ _ := rfl
  self := by rw [h]; rfl
  changed target eq := by simp [Decision.changedTo] at eq
  calm _ calm := calm
  begins p eq := by
    rw [h] at eq
    cases eq
  windows flat := ⟨flat, fun x w eq => by simp [h, eq]⟩
  resets x := by simp [h]
  live x := by simp [h, LiveSets.relist]

/-- A map's meter starts a window, then the attempt to switch follows, if any. -/
theorem of_switched {a : AdaptiveMap} (h : s.maps[m.index]? = some (.adaptive a))
    (switched : Switched m (s.rewound a.meter) r s')
    (attempted : Attempted m (s.rewound a.meter) r s') : Evaluated m s r s' where
  length := switched.length
  others := switched.others
  self := switched.self
  changed := switched.changed
  calm x calm := by
    rw [← AccessMeter.calm_outline, switched.meters, AccessMeter.calm_outline]
    rw [Store.meterAt_rewound]
    split
    · exact AccessMeter.calm_reset _ calm
    · exact calm
  begins p profile := by
    obtain rfl : _ = p := by simpa [Store.profile?, h, MapState.profile?] using profile
    exact ⟨s.renews_rewound a.meter, attempted⟩
  windows flat := by
    have rewound : (s.rewound a.meter).Flat :=
      (Store.confined_of_maps (P := fun _ => True) (s.maps_rewound a.meter)).flat flat
    obtain ⟨flat', meters⟩ := attempted.meters rewound
    refine ⟨flat', fun x w eq => ?_⟩
    rw [Store.meterAt, meters, ← Store.meterAt, Store.meterAt_rewound, eq]
    by_cases own : a.meter = x
    · simp [Store.profile?, h, MapState.profile?, own, AccessMeter.reset]
    · simp [Store.profile?, h, MapState.profile?, own]
  resets x := by
    have profile : s.profile? m = some ⟨a.mode, a.meter, a.live⟩ := by
      simp [Store.profile?, h, MapState.profile?]
    rw [← AccessMeter.resets?_outline, switched.meters, AccessMeter.resets?_outline,
      Store.meterAt_rewound, profile]
    by_cases same : a.meter = x
    · simp [same, AccessMeter.resets?_reset]
    · simp [same]
  live := switched.live

end Evaluated

/-- A stand-in counts that it ran, and nothing else changes. -/
theorem MergeUnit.after_standIn (u : UnitHandle) (s : Store) :
    (MergeUnit.standIn u).run.after s =
      { s with units := s.units.modify u.index fun x => { x with runs := x.runs + 1 } } := by
  unfold run
  simp only [Action.after_bind_of_ok (Action.run_modify ..),
    Action.after_bind_of_ok (Action.run_get _)]
  generalize Option.bind _ _ = fault
  cases fault <;> rfl

namespace Tick

variable {s : Store} {m : MapHandle} {st : MapState} (policy : ModePolicy)

/-- A map that is not adaptive has no mode to change. -/
theorem switchTo_plain (h : s.maps[m.index]? = some st) (plain : st.profile? = none)
    (target : MapMode) : switchTo m target s = .ok false s := by
  cases target with
  | direct =>
    unfold switchTo MapHandle.switchToDirect
    simp only
    rw [Action.run_bind, Action.run_state h]
    cases st <;> first | rfl | cases plain
  | buffered =>
    unfold switchTo MapHandle.switchToBuffered
    simp only
    rw [Action.run_bind, Action.run_state h]
    cases st <;> first | rfl | cases plain

/-- So an attempt changes nothing, or is one to switch an adaptive map. -/
theorem switched_or_same (m : MapHandle) (target : MapMode) (s : Store) :
    (switchTo m target).after s = s ∨
      ∃ outcome, Switched m s (some (target, outcome)) ((switchTo m target).after s) := by
  cases h : s.maps[m.index]? with
  | none =>
    cases target <;> simp [switchTo, MapHandle.switchToDirect, MapHandle.switchToBuffered,
      Action.after_bind_of_error (Action.run_state_none h)]
  | some st =>
    cases plain : st.profile? with
    | none => exact .inl (Action.after_of_ok (switchTo_plain h plain target))
    | some p =>
      obtain ⟨a, rfl, -⟩ := MapState.adaptive_of_profile plain
      obtain ⟨outcome, s', run, switched⟩ := Switched.of_switchTo h target
      rw [← Action.after_attempt, Action.after_of_ok run]
      exact .inr ⟨outcome, switched⟩

/-- Asking a map for its shares changes nothing. -/
theorem after_percents (m : MapHandle) (s : Store) : m.percents.after s = s := by
  unfold MapHandle.percents
  refine Action.after_state_bind (R := fun s s' => s' = s) (fun _ => rfl) fun st _ => ?_
  cases st with
  | adaptive a =>
    simp only [Action.after_bind_of_ok (Action.run_meter ..)]
    cases ((s.meters[a.meter.index]?).getD .idle).readPercent <;> rfl
  | memory _ | direct _ | buffered _ | faulty _ => rfl

/-- A new window leaves the maps. -/
theorem maps_resetWindow (m : MapHandle) (s : Store) : (m.resetWindow.after s).maps = s.maps := by
  obtain same | ⟨a, -, reset⟩ := m.after_resetWindow s
  · rw [same]
  · rw [reset, Store.maps_rewound]

/-- A map that is not adaptive has no shares and is left as it is. -/
theorem evaluate_plain (h : s.maps[m.index]? = some st) (plain : st.profile? = none) :
    evaluate policy m s = .ok none s := by
  have percents : m.percents s = .ok (0, 0) s := by
    unfold MapHandle.percents
    rw [Action.run_bind, Action.run_state h]
    cases st <;> first | rfl | cases plain
  have reset : m.resetWindow s = .ok () s := by
    unfold MapHandle.resetWindow
    rw [Action.run_bind, Action.run_state h]
    cases st <;> first | rfl | cases plain
  simp [evaluate, percents, reset, ModePolicy.modeFor]

/-- Evaluating a map whose meter is calm comes to an end. -/
theorem evaluate_run (h : s.maps[m.index]? = some st)
    (calm : ∀ p, s.profile? m = some p → (s.meterAt p.meter).Calm) :
    ∃ r s', evaluate policy m s = .ok r s' ∧ Evaluated m s r s' := by
  cases plain : st.profile? with
  | none =>
    exact ⟨none, s, evaluate_plain policy h plain, .of_plain (by simp [Store.profile?, h, plain])⟩
  | some p =>
    obtain ⟨a, rfl, rfl⟩ := MapState.adaptive_of_profile plain
    obtain ⟨read, asked⟩ := calm ⟨a.mode, a.meter, a.live⟩ (by simp [Store.profile?, h, plain])
    have percents : m.percents s = .ok (read, (s.meterAt a.meter).writePercent) s := by
      rw [Store.meterAt] at asked
      simp [MapHandle.percents, Action.run_state h, asked, Store.meterAt]
    have reset : m.resetWindow s = .ok () (s.rewound a.meter) := by
      simp [MapHandle.resetWindow, Action.run_state h, Store.rewound]
    simp only [evaluate, percents, Action.run_bind, reset]
    cases policy.modeFor read (s.meterAt a.meter).writePercent with
    | none =>
      exact ⟨none, _, rfl, .of_switched h (.of_touches (.refl (fun _ => True) _) rfl)
        (.inl ⟨rfl, rfl⟩)⟩
    | some target =>
      obtain ⟨outcome, s', run, switched⟩ :=
        Switched.of_switchTo (s := s.rewound a.meter) h target
      refine ⟨some (target, outcome), s', ?_,
        .of_switched h switched (.inr ⟨target, outcome, rfl, run⟩)⟩
      show (Action.attempt (switchTo m target) >>= fun o => pure (some (target, o))) _ = _
      rw [Action.run_bind, run]
      rfl

/-! ## What a tick keeps to -/

/-- What a tick does once the modes are decided. -/
def later (live : LiveHandle) (r : TickReport) : Action TickReport := do
  let r ← (← Action.liveSets live).buffered.members.foldlM mergeUnit r
  (← Action.liveSets live).storage.members.foldlM flush r

theorem run_eq (live : LiveHandle) (policy : ModePolicy) :
    run live policy = (do
      let r ← (← Action.liveSets live).adaptive.members.foldlM (optimize policy) .none
      later live r) := rfl

section

variable {R : Store → Store → Prop} (refl : ∀ s, R s s)
  (trans : ∀ {s₁ s₂ s₃}, R s₁ s₂ → R s₂ s₃ → R s₁ s₃)

include refl trans

/-- What each visit keeps to, a loop that counts the visits keeps to. -/
theorem after_visits {β ρ σ : Type} (count : σ → ρ → σ) (act : β → Action ρ) {l : List β}
    (each : ∀ x ∈ l, ∀ s, R s ((act x).after s)) (c : σ) (s : Store) :
    R s ((l.foldlM (fun c x => do return count c (← act x)) c : Action σ).after s) := by
  refine Action.after_foldlM refl trans (fun c x mem s => ?_) c s
  exact Action.after_bind (R := R) trans (each x mem s) fun _ s' _ => refl s'

/-- What is done once the modes are decided keeps to what each merge and each
save keeps to. -/
theorem after_later (merged : ∀ (u : MergeUnit) (s : Store), R s (u.run.after s))
    (saved : ∀ (m : MapHandle) (s : Store), R s (m.save.after s)) (live : LiveHandle)
    (r : TickReport) (s : Store) : R s ((later live r).after s) := by
  unfold later
  rw [Action.after_bind_of_ok (Action.run_liveSets live s)]
  refine Action.after_bind (R := R) trans ?_ fun r s₁ _ => ?_
  · refine after_visits refl trans
      (fun r outcome => TickReport.countMerge r (MergePool.outcome outcome))
      (fun u => Action.attempt (MergeUnit.run u)) (fun u _ s => ?_) _ s
    rw [Action.after_attempt]
    exact merged u s
  rw [Action.after_bind_of_ok (Action.run_liveSets live s₁)]
  refine after_visits refl trans TickReport.countFlush
    (fun m => Action.attempt (MapHandle.save m)) (fun m _ s => ?_) _ s₁
  rw [Action.after_attempt]
  exact saved m s

/-- What each step keeps to, a tick keeps to, whatever comes of it. -/
theorem after_run {live : LiveHandle}
    (evaluated : ∀ m ∈ (s.liveSets live).adaptive.members, ∀ s, R s ((evaluate policy m).after s))
    (merged : ∀ (u : MergeUnit) (s : Store), R s (u.run.after s))
    (saved : ∀ (m : MapHandle) (s : Store), R s (m.save.after s)) :
    R s ((run live policy).after s) := by
  rw [run_eq, Action.after_bind_of_ok (Action.run_liveSets live s)]
  refine Action.after_bind (R := R) trans ?_ fun r s₁ _ =>
    after_later refl trans merged saved live r s₁
  exact after_visits refl trans TickReport.countEvaluation (evaluate policy) evaluated _ s

end

end Tick

end MapStore
