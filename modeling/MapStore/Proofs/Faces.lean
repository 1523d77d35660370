/-
MapStore.Proofs.Faces — what the live-sets depend on of a map.

The live-sets of an engine depend on little of each map: what it stands on, of
which sort it is, and for an adaptive map in which mode. That and its name and
id is its `Face`. Calls change what maps hold and leave every face
(`Still`); the one thing that shows a new face is an adaptive map whose mode
changes, and then its buffer is listed or struck off in the same step
(`Turned`).

So whatever is done with the maps of a store comes to such steps (`ModeSteps`),
refused or panicking at any point. Only an attempt to switch can have a map
enter buffered mode: calls, saves, merges and closes come to steps in which none
does (`UnbufferSteps`).
-/
import Mathlib.Logic.Relation
import MapStore.Engine
import MapStore.Proofs.Evaluating
import MapStore.Proofs.Transparency

namespace MapStore

/-! ## Faces -/

/-- The sort of a map; an adaptive one has a mode and the live-sets of its
engine. -/
inductive MapSort where
  | memory
  | direct
  | buffered
  | adaptive (mode : MapMode) (live : LiveHandle)
  | faulty
  deriving DecidableEq

namespace MapSort

/-- Whether the mode of such a map is to be decided. -/
def adapts : MapSort → Bool
  | adaptive _ _ => true
  | _ => false

/-- Whether such a map has writes to be merged. -/
def buffers : MapSort → Bool
  | buffered => true
  | adaptive mode _ => mode == .buffered
  | _ => false

end MapSort

/-- What registry and live-sets depend on of a map. -/
structure Face where
  name : String
  id : MapId
  /-- The map that this one stands on. -/
  backing? : Option MapHandle
  sort : MapSort

/-- The map that is saved for the map `m` of this face: the one that it stands
on, or itself. -/
def Face.keeper (f : Face) (m : MapHandle) : MapHandle := f.backing?.getD m

namespace MapState

def sort : MapState → MapSort
  | memory _ => .memory
  | direct _ => .direct
  | buffered _ => .buffered
  | adaptive a => .adaptive a.mode a.live
  | faulty _ => .faulty

def face (st : MapState) : Face := ⟨st.name, st.id, st.backing?, st.sort⟩

/-- What a map holds is no part of its face. -/
theorem face_outline (st : MapState) : st.outline.face = st.face := by
  cases st with
  | adaptive a => simp [outline, face, name, id, backing?, sort, AdaptiveMap.mode]
  | memory m => rfl
  | direct m => rfl
  | buffered m => rfl
  | faulty m => rfl

/-- Closing a plain map leaves its face. -/
theorem face_close_memory (p : PlainMap) : (memory p.close).face = (memory p).face := by
  unfold PlainMap.close
  split <;> rfl

theorem face_close_faulty (f : FaultyMap) :
    (faulty { f with inner := f.inner.close }).face = (faulty f).face := by
  unfold PlainMap.close
  simp only [face, name, id, backing?, sort]
  split <;> rfl

/-- So does closing a direct map, whether its save succeeds or not. -/
theorem face_close_direct (d : DirectMap) (disk : Disk) :
    (direct (d.close disk).2.1).face = (direct d).face := by
  obtain ⟨dirty, saved⟩ := d.save_map disk
  unfold DirectMap.close
  split
  · rfl
  · split <;> simp_all [face, name, id, backing?, sort]

end MapState

namespace EngineHandle

variable {R : Store → Store → Prop} {e : EngineHandle} {x : Engine} {s : Store}

/-- A handle of no engine answers as one that was never opened. -/
theorem state_answers (e : EngineHandle) (s : Store) : ∃ x, e.state s = .ok x s := ⟨_, rfl⟩

theorem run_tick (asked : e.state s = .ok x s) :
    e.tick s = Tick.run x.live ⟨x.config.adaptiveThreshold⟩ s := by
  rw [tick, Action.run_bind, asked]

theorem run_commit (asked : e.state s = .ok x s) (isOpen : x.closed = false) :
    e.commit s = forEachMap MapHandle.save x.maps.values s := by
  rw [commit, Action.run_bind, asked]
  simp only [isOpen, Bool.false_eq_true, if_false]

theorem run_commit_closed (asked : e.state s = .ok x s) (closed : x.closed = true) :
    e.commit s = .error (.error .engineClosed) s := by
  rw [commit, Action.run_bind, asked]
  simp [closed]

/-- What each step keeps to is kept to when the same is done to every map,
whatever fails. -/
theorem after_forEachMap (refl : ∀ s, R s s)
    (trans : ∀ {s s' s''}, R s s' → R s' s'' → R s s'') {action : MapHandle → Action Unit}
    {maps : List MapHandle} (each : ∀ m ∈ maps, ∀ s, R s ((action m).after s)) (s : Store) :
    R s ((forEachMap action maps).after s) := by
  unfold forEachMap
  refine Action.after_bind (R := R) trans (s := s) ?_ fun failure s₁ _ => ?_
  · refine Action.after_foldlM (R := R) refl trans (fun failure m mem s => ?_) _ s
    refine Action.after_bind (R := R) trans ?_ fun outcome s₁ _ => ?_
    · rw [Action.after_attempt]
      exact each m mem s
    · split <;> exact refl s₁
  · split <;> exact refl s₁

/-- What a save keeps to, a commit keeps to, whatever fails. -/
theorem after_commit (refl : ∀ s, R s s)
    (trans : ∀ {s s' s''}, R s s' → R s' s'' → R s s'')
    (save : ∀ (m : MapHandle) s, R s (m.save.after s)) (e : EngineHandle) (s : Store) :
    R s (e.commit.after s) := by
  obtain ⟨x, asked⟩ := state_answers e s
  cases closed : x.closed with
  | true =>
    rw [Action.after_of_error (run_commit_closed asked closed)]
    exact refl s
  | false =>
    rw [Action.after, run_commit asked closed]
    exact after_forEachMap refl trans (fun m _ => save m) s

end EngineHandle

/-- What each part of a close keeps to, a close keeps to, whatever comes of it. -/
theorem MapHandle.after_close {R : Store → Store → Prop} (refl : ∀ s, R s s)
    (trans : ∀ {s s' s''}, R s s' → R s' s'' → R s s'')
    (memory : ∀ (s : Store) (m : MapHandle) (p : PlainMap),
      s.maps[m.index]? = some (.memory p) → R s (s.set m (.memory p.close)))
    (direct : ∀ (s : Store) (m : MapHandle) (d : DirectMap),
      s.maps[m.index]? = some (.direct d) →
        R s (Store.set { s with disk := (d.close s.disk).2.2 } m (.direct (d.close s.disk).2.1)))
    (faulty : ∀ (s : Store) (m : MapHandle) (f : FaultyMap) (count : CallCounts → CallCounts),
      s.maps[m.index]? = some (.faulty f) →
        R s ((Action.enterFaulty m f f.plan.close count).after s))
    (shut : ∀ (s : Store) (m : MapHandle), R s ((Action.modifyState m fun
      | .faulty f => .faulty { f with inner := f.inner.close }
      | other => other).after s))
    (setClosed : ∀ (s : Store) (m : MapHandle) (closed : Bool), R s ((m.setClosed closed).after s))
    (merge : ∀ (s : Store) (m : MapHandle), R s (m.merge.after s))
    (switch : ∀ (s : Store) (m : MapHandle), R s (m.switchToDirect.after s))
    (m : MapHandle) (s : Store) : R s (m.close.after s) := by
  induction n : m.index using Nat.strongRecOn generalizing m s with | ind n ih
  subst n
  have below : ∀ (b : MapHandle) (s : Store),
      R s ((if _h : b.index < m.index then b.close else Action.noMap).after s) := by
    intro b s
    split
    · rename_i lt
      exact ih _ lt b s rfl
    · exact refl s
  rw [MapHandle.close]
  cases h : s.maps[m.index]? with
  | none =>
    rw [Action.after_bind_of_error (Action.run_state_none h)]
    exact refl s
  | some st =>
    rw [Action.after_bind_of_ok (Action.run_state h)]
    cases st with
    | memory p => exact memory s m p h
    | direct d =>
      simp only [Action.after_bind_of_ok (Action.run_disk s)]
      rw [Action.after_bind_of_ok (Action.run_setDisk ..),
        Action.after_bind_of_ok (Action.run_setState ..), Action.after_lift]
      exact direct s m d h
    | faulty f =>
      exact Action.after_bind (R := R) trans (faulty s m f _ h) fun _ s₁ _ => shut s₁ m
    | buffered b =>
      simp only
      split
      · exact refl s
      refine Action.after_bind (R := R) trans (setClosed s m true) fun _ s₁ _ => ?_
      refine Action.after_bind (R := R) trans ?_ fun outcome s₂ _ => ?_
      · rw [Action.after_attempt]
        exact Action.after_bind (R := R) trans (merge s₁ m) fun _ s₂ _ => below b.backing s₂
      · cases outcome with
        | ok _ => exact refl s₂
        | error fault =>
          cases fault with
          | error cause =>
            exact Action.after_bind (R := R) trans (setClosed s₂ m false) fun _ s₃ _ => refl s₃
          | panic message => exact refl s₂
    | adaptive a =>
      exact Action.after_bind (R := R) trans (switch s m) fun _ s₁ _ => below a.backing s₁

/-- A change of mode concerns no list but that of the buffers. -/
@[simp] theorem LiveSets.adaptive_relist (l : LiveSets) (m : MapHandle) (c : Option MapMode) :
    (l.relist m c).adaptive = l.adaptive := by
  unfold relist
  split <;> [rfl; (split <;> rfl); rfl]

namespace Store

variable {P : MapHandle → Prop} {s s' s'' : Store} {m : MapHandle} {st st' : MapState}

/-- The face of the map that a handle refers to. -/
def face? (s : Store) (m : MapHandle) : Option Face := (s.maps[m.index]?).map MapState.face

theorem face?_of_maps (h : s.maps[m.index]? = some st) : s.face? m = some st.face := by
  rw [face?, h]
  rfl

/-- Only the map that is set shows a new face. -/
theorem face?_set (st' : MapState) (h : s.maps[m.index]? = some st) (x : MapHandle) :
    (s.set m st').face? x = if x = m then some st'.face else s.face? x := by
  rw [face?, maps_set]
  by_cases same : x = m
  · subst same
    simp [h]
  · rw [if_neg (Ne.symm same), if_neg same, face?]

/-! ## Steps that leave every face -/

/-- No map shows a new face, and live-sets and registries are as they were. -/
structure Still (s s' : Store) : Prop where
  faces : s'.face? = s.face?
  live : s'.live = s.live
  engines : s'.engines = s.engines

namespace Still

theorem refl (s : Store) : s.Still s := ⟨rfl, rfl, rfl⟩

theorem trans (h : s.Still s') (h' : s'.Still s'') : s.Still s'' :=
  ⟨h'.faces.trans h.faces, h'.live.trans h.live, h'.engines.trans h.engines⟩

theorem of_touches (h : s.Touches P s') : s.Still s' := by
  refine ⟨funext fun m => ?_, h.live, h.engines⟩
  have same := congrArg (fun l => l[m.index]?.map MapState.face) h.outlines
  simpa only [face?, List.getElem?_map, Option.map_map, Function.comp_def,
    MapState.face_outline] using same

/-- A step that leaves the maps, the live-sets and the registries. -/
theorem of_maps (maps : s'.maps = s.maps) (live : s'.live = s.live)
    (engines : s'.engines = s.engines) : s.Still s' := by
  refine ⟨funext fun m => ?_, live, engines⟩
  rw [face?, face?, maps]

theorem set (h : s.maps[m.index]? = some st) (face : st'.face = st.face) :
    s.Still (s.set m st') := by
  refine ⟨funext fun x => ?_, rfl, rfl⟩
  rw [face?_set st' h]
  split
  · rename_i same
    rw [same, face?_of_maps h, face]
  · rfl

theorem modifyState {f : MapState → MapState} (m : MapHandle) (face : ∀ st, (f st).face = st.face)
    (s : Store) : s.Still ((Action.modifyState m f).after s) :=
  Action.after_modifyState (R := Still) .refl fun st h => .set h (face st)

theorem resetWindow (m : MapHandle) (s : Store) : s.Still (m.resetWindow.after s) := by
  obtain same | ⟨a, -, reset⟩ := m.after_resetWindow s
  · rw [same]
    exact .refl s
  · rw [reset]
    exact .of_maps rfl rfl rfl

end Still

/-! ## Steps that turn a map -/

/-- An adaptive map is in the target mode afterwards, and in the live-sets that
it belongs to its buffer is listed accordingly. -/
structure Turned (s : Store) (m : MapHandle) (target : MapMode) (s' : Store) : Prop where
  face : ∃ f mode live, s.face? m = some f ∧ f.sort = .adaptive mode live ∧
    (∀ x, s'.face? x = if x = m then some { f with sort := .adaptive target live } else s.face? x) ∧
    ∀ h, s'.liveSets h = (s.liveSets h).relist m (if live = h then some target else none)
  engines : s'.engines = s.engines

theorem turned_set {a : AdaptiveMap} {s₁ : Store} (a' : AdaptiveMap)
    (h : s.maps[m.index]? = some (.adaptive a)) (front : a'.toFront = a.toFront)
    (live : a'.live = a.live) (maps : s₁.maps = s.maps) (engines : s₁.engines = s.engines)
    (listed : ∀ x, s₁.liveSets x =
      (s.liveSets x).relist m (if a.live = x then some a'.mode else none)) :
    s.Turned m a'.mode (s₁.set m (.adaptive a')) := by
  have h₁ : s₁.maps[m.index]? = some (.adaptive a) := maps ▸ h
  refine ⟨⟨_, a.mode, a.live, face?_of_maps h, rfl, fun x => ?_, listed⟩, engines⟩
  rw [face?_set _ h₁]
  split
  · simp [MapState.face, MapState.name, MapState.id, MapState.backing?, MapState.sort, front, live]
  · rw [face?, face?, maps]

/-! ## All steps -/

/-- One step. -/
inductive ModeStep (s : Store) : Store → Prop
  | still {s' : Store} (h : s.Still s') : ModeStep s s'
  | turned {s' : Store} {m : MapHandle} {target : MapMode} (h : s.Turned m target s') :
      ModeStep s s'

/-- Any number of steps. -/
abbrev ModeSteps : Store → Store → Prop := Relation.ReflTransGen ModeStep

/-- One step, in which no map enters buffered mode. -/
inductive UnbufferStep (s : Store) : Store → Prop
  | still {s' : Store} (h : s.Still s') : UnbufferStep s s'
  | turned {s' : Store} {m : MapHandle} (h : s.Turned m .direct s') : UnbufferStep s s'

/-- Any number of such steps. -/
abbrev UnbufferSteps : Store → Store → Prop := Relation.ReflTransGen UnbufferStep

theorem UnbufferStep.modeStep (h : s.UnbufferStep s') : s.ModeStep s' := by
  cases h with
  | still same => exact .still same
  | turned change => exact .turned change

theorem UnbufferSteps.modeSteps (h : s.UnbufferSteps s') : s.ModeSteps s' :=
  Relation.ReflTransGen.mono (fun _ _ => UnbufferStep.modeStep) _ _ h

/-! ## What lets no map enter buffered mode -/

theorem frame_call (inP : P m) (c : Call) : Frame P s ((c.perform m).after s) := by
  have answered : ∀ {α : Type} {a : Action α} (f : α → Answer), Frame P s (a.after s) →
      Frame P s ((do return f (← a) : Action Answer).after s) := fun f h =>
    frame_bind h fun _ s' _ => .refl P s'
  cases c with
  | get key => exact answered _ (frame_get inP key)
  | contains key => exact answered _ (frame_contains inP key)
  | size => exact answered _ (frame_size inP)
  | isEmpty => exact answered _ (frame_isEmpty inP)
  | entries => exact answered _ (frame_entries inP)
  | put key value => exact answered _ (frame_put inP key value)
  | remove key => exact answered _ (frame_remove inP key)

namespace UnbufferSteps

theorem still (h : s.Still s') : s.UnbufferSteps s' := .single (.still h)

theorem touches (h : s.Touches (fun _ => True) s') : s.UnbufferSteps s' := still (.of_touches h)

/-- A step that is framed by the set of all maps. -/
theorem frame (h : Frame (fun _ => True) s s') : s.UnbufferSteps s' :=
  touches (h fun _ _ _ _ _ _ => trivial)

theorem turn (h : s.Turned m .direct s') : s.UnbufferSteps s' := .single (.turned h)

theorem call (c : Call) (m : MapHandle) (s : Store) : s.UnbufferSteps ((c.perform m).after s) :=
  frame (frame_call trivial c)

theorem merge (m : MapHandle) (s : Store) : s.UnbufferSteps (m.merge.after s) :=
  frame (frame_merge trivial)

theorem save (m : MapHandle) (s : Store) : s.UnbufferSteps (m.save.after s) :=
  frame (frame_save trivial)

/-- A unit's work, whatever comes of it. -/
theorem unit (u : MergeUnit) (s : Store) : s.UnbufferSteps (u.run.after s) := by
  cases u with
  | map m => exact merge m s
  | standIn u =>
    rw [MergeUnit.after_standIn]
    exact still (.of_maps rfl rfl rfl)

/-- An attempt to leave buffered mode, whatever comes of it. -/
theorem switchToDirect (m : MapHandle) (s : Store) :
    s.UnbufferSteps (m.switchToDirect.after s) := by
  obtain same | failed | ⟨a, stats, buffer, -, -, h', left⟩ := m.after_switchToDirect s
  · rw [same]
  · rw [failed]
    exact merge m s
  · rw [left]
    have merged : s.Touches (fun _ => True) (m.merge.after s) :=
      frame_merge trivial fun _ _ _ _ _ _ => trivial
    refine (touches merged).trans (turn (turned_set (a := { a with buffer })
      { a with buffer := none } h' rfl rfl ?_ ?_ fun x => ?_))
    · split <;> rfl
    · split <;> rfl
    · have live : (m.merge.after s).liveSets x = s.liveSets x := by
        rw [liveSets, liveSets, merged.live]
      rw [AdaptiveMap.mode_of_none, live]
      exact liveSets_left merged.live a.live m x

theorem setClosed (m : MapHandle) (closed : Bool) (s : Store) :
    s.UnbufferSteps ((m.setClosed closed).after s) :=
  still (.modifyState m (fun st => by cases st <;> rfl) s)

/-- A close, whatever comes of it. -/
theorem close (m : MapHandle) (s : Store) : s.UnbufferSteps (m.close.after s) := by
  refine MapHandle.after_close (R := UnbufferSteps) (fun _ => .refl) .trans ?_ ?_ ?_ ?_
    (fun s m closed => setClosed m closed s) (fun s m => merge m s) (fun s m => switchToDirect m s)
    m s
  · intro s m p h
    exact still (.set h (MapState.face_close_memory p))
  · intro s m d h
    have written : s.Still { s with disk := (d.close s.disk).2.2 } := .of_maps rfl rfl rfl
    exact still (written.trans (.set h (MapState.face_close_direct d s.disk)))
  · intro s m f count h
    exact frame (frame_enterFaulty trivial h _ count)
  · intro s m
    refine still (.modifyState m (fun st => ?_) s)
    cases st with
    | faulty f => exact MapState.face_close_faulty f
    | memory _ => rfl
    | direct _ => rfl
    | buffered _ => rfl
    | adaptive _ => rfl

/-- The same done to every map, whatever comes of it. -/
theorem forEachMap {action : MapHandle → Action Unit}
    (each : ∀ (m : MapHandle) (s : Store), s.UnbufferSteps ((action m).after s))
    (maps : List MapHandle)
    (s : Store) : s.UnbufferSteps ((EngineHandle.forEachMap action maps).after s) :=
  EngineHandle.after_forEachMap (R := UnbufferSteps) (fun _ => .refl) .trans (fun m _ => each m) s

/-- A tick of an engine with no map to be asked for its mode. -/
theorem tick {live : LiveHandle} (policy : ModePolicy)
    (nobody : (s.liveSets live).adaptive.members = []) :
    s.UnbufferSteps ((Tick.run live policy).after s) := by
  refine Tick.after_run policy (fun _ => .refl) .trans (fun m mem => ?_) unit save
  rw [nobody] at mem
  cases mem

end UnbufferSteps

/-! ## Whatever is done -/

namespace ModeSteps

theorem still (h : s.Still s') : s.ModeSteps s' := .single (.still h)

theorem turn (h : s.Turned m target s') : s.ModeSteps s' := .single (.turned h)

/-- What engines there are stays. -/
theorem engines (h : s.ModeSteps s') : s'.engines = s.engines := by
  induction h with
  | refl => rfl
  | tail _ modeStep ih =>
    cases modeStep with
    | still same => exact same.engines.trans ih
    | turned change => exact change.engines.trans ih

/-- What stays of live-sets. -/
theorem sets (steps : s.ModeSteps s') (h : LiveHandle) :
    (s'.liveSets h).alive = (s.liveSets h).alive ∧
      (s'.liveSets h).storage = (s.liveSets h).storage ∧
      (s'.liveSets h).adaptive = (s.liveSets h).adaptive := by
  induction steps with
  | refl => exact ⟨rfl, rfl, rfl⟩
  | tail _ modeStep ih =>
    cases modeStep with
    | still same => rwa [liveSets, same.live]
    | turned change =>
      obtain ⟨_, _, _, -, -, -, relisted⟩ := change.face
      rw [relisted, LiveSets.alive_relist, LiveSets.storage_relist, LiveSets.adaptive_relist]
      exact ih

/-- An attempt to switch, whatever comes of it. -/
theorem switchTo (m : MapHandle) (target : MapMode) (s : Store) :
    s.ModeSteps ((Tick.switchTo m target).after s) := by
  cases target with
  | direct => exact (UnbufferSteps.switchToDirect m s).modeSteps
  | buffered =>
    unfold Tick.switchTo
    obtain same | ⟨a, h, -, alive, entered⟩ := m.after_switchToBuffered s
    · rw [same]
    · rw [entered]
      refine turn (turned_set { a with buffer := some _ } h rfl rfl rfl rfl fun x => ?_)
      rw [AdaptiveMap.mode_of_some]
      exact liveSets_entered alive m x

/-- An evaluation, whatever comes of it. -/
theorem evaluate (policy : ModePolicy) (m : MapHandle) (s : Store) :
    s.ModeSteps ((Tick.evaluate policy m).after s) := by
  refine Action.after_bind (R := ModeSteps) .trans ?_ fun shares s₁ _ => ?_
  · rw [Tick.after_percents]
  refine Action.after_bind (R := ModeSteps) .trans (still (.resetWindow m s₁)) fun _ s₂ _ => ?_
  split
  · exact .refl
  · rename_i target _
    refine Action.after_bind (R := ModeSteps) .trans ?_ fun _ s₃ _ => .refl
    rw [Action.after_attempt]
    exact switchTo m target s₂

/-- A tick, whatever comes of it. -/
theorem tick (live : LiveHandle) (policy : ModePolicy) (s : Store) :
    s.ModeSteps ((Tick.run live policy).after s) :=
  Tick.after_run policy (fun _ => .refl) .trans (fun m _ => evaluate policy m)
    (fun u s => (UnbufferSteps.unit u s).modeSteps) fun m s => (UnbufferSteps.save m s).modeSteps

end ModeSteps

end Store

end MapStore
