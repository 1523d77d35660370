/-
MapStore.Proofs.Actions — how actions run.

An action takes a store and ends with an answer or a fault, and with a store
in either case: `after` is that store. The equations say what the building
blocks of actions do with the store they start from; a proof about an action
rewrites with them and never opens the monad.

A reflexive and transitive relation between stores that each part of an action
keeps to is one that the whole keeps to: `after_bind` is that step.
-/
import MapStore.Store.Merging

namespace MapStore

namespace Store

/-- The store in which a map is something else. -/
def set (s : Store) (m : MapHandle) (state : MapState) : Store :=
  { s with maps := s.maps.set m.index state }

/-- The live-sets that a handle refers to. -/
def liveSets (s : Store) (h : LiveHandle) : LiveSets :=
  (s.live[h.index]?).getD { LiveSets.empty with alive := false }

theorem maps_set (s : Store) (m x : MapHandle) (state : MapState) :
    (s.set m state).maps[x.index]? =
      if m = x then (s.maps[m.index]?).map fun _ => state else s.maps[x.index]? := by
  obtain ⟨i⟩ := m
  obtain ⟨j⟩ := x
  simp only [set, List.getElem?_set, MapHandle.mk.injEq]
  split
  · rename_i same
    subst same
    cases h : s.maps[i]? with
    | none => simp [List.getElem?_eq_none_iff.1 h]
    | some st => simp [(List.getElem?_eq_some_iff.1 h).1]
  · rfl

theorem maps_set_self {s : Store} {m : MapHandle} {st : MapState} (state : MapState)
    (h : s.maps[m.index]? = some st) : (s.set m state).maps[m.index]? = some state := by
  simp [maps_set, h]

theorem maps_set_of_ne (s : Store) {m x : MapHandle} (state : MapState) (h : m ≠ x) :
    (s.set m state).maps[x.index]? = s.maps[x.index]? := by
  simp [maps_set, h]

@[simp] theorem set_set (s : Store) (m : MapHandle) (state state' : MapState) :
    (s.set m state).set m state' = s.set m state' := by
  simp [set]

theorem set_self {s : Store} {m : MapHandle} {st : MapState} (h : s.maps[m.index]? = some st) :
    s.set m st = s := by
  obtain ⟨lt, eq⟩ := List.getElem?_eq_some_iff.1 h
  subst eq
  simp [set]

@[simp] theorem disk_set (s : Store) (m : MapHandle) (state : MapState) :
    (s.set m state).disk = s.disk := rfl

@[simp] theorem meters_set (s : Store) (m : MapHandle) (state : MapState) :
    (s.set m state).meters = s.meters := rfl

@[simp] theorem live_set (s : Store) (m : MapHandle) (state : MapState) :
    (s.set m state).live = s.live := rfl

@[simp] theorem units_set (s : Store) (m : MapHandle) (state : MapState) :
    (s.set m state).units = s.units := rfl

@[simp] theorem engines_set (s : Store) (m : MapHandle) (state : MapState) :
    (s.set m state).engines = s.engines := rfl

end Store

namespace Action

variable {α β : Type}

/-- The store after an action, however it ended. -/
def after (a : Action α) (s : Store) : Store :=
  match a s with
  | .ok _ s' => s'
  | .error _ s' => s'

/-! ## Building blocks -/

@[simp] theorem run_pure (r : α) (s : Store) : (pure r : Action α) s = .ok r s := rfl

@[simp] theorem run_bind (a : Action α) (f : α → Action β) (s : Store) :
    (a >>= f) s = match a s with
      | .ok r s' => f r s'
      | .error fault s' => .error fault s' := by
  show EStateM.bind a f s = _
  unfold EStateM.bind
  cases a s <;> rfl

@[simp] theorem run_map (f : α → β) (a : Action α) (s : Store) :
    (f <$> a) s = match a s with
      | .ok r s' => .ok (f r) s'
      | .error fault s' => .error fault s' := by
  show EStateM.map f a s = _
  unfold EStateM.map
  cases a s <;> rfl

@[simp] theorem run_throw (fault : Fault) (s : Store) :
    (throw fault : Action α) s = .error fault s := rfl

@[simp] theorem run_refuse (cause : StoreError) (s : Store) :
    (refuse cause : Action α) s = .error (.error cause) s := rfl

@[simp] theorem run_noMap (s : Store) : (noMap : Action α) s = .error (.error (.mapClosed "")) s :=
  rfl

@[simp] theorem run_lift_ok (r : α) (s : Store) : lift (.ok r) s = .ok r s := rfl

@[simp] theorem run_lift_error (cause : StoreError) (s : Store) :
    (lift (.error cause) : Action α) s = .error (.error cause) s := rfl

@[simp] theorem run_ofExcept_ok (r : α) (s : Store) :
    (MonadExcept.ofExcept (.ok r : Except Fault α) : Action α) s = .ok r s := rfl

@[simp] theorem run_ofExcept_error (fault : Fault) (s : Store) :
    (MonadExcept.ofExcept (.error fault : Except Fault α) : Action α) s = .error fault s := rfl

@[simp] theorem run_get (s : Store) : (get : Action Store) s = .ok s s := rfl

@[simp] theorem run_modify (f : Store → Store) (s : Store) :
    (modify f : Action Unit) s = .ok () (f s) := rfl

@[simp] theorem run_consult_none (s : Store) : consult none s = .ok () s := rfl

@[simp] theorem run_consult_some (fault : Fault) (s : Store) :
    consult (some fault) s = .error fault s := rfl

/-- An attempt ends with what the action came to. -/
@[simp] theorem run_attempt (a : Action α) (s : Store) :
    attempt a s = match a s with
      | .ok r s' => .ok (.ok r) s'
      | .error fault s' => .ok (.error fault) s' := rfl

theorem run_state {s : Store} {m : MapHandle} {st : MapState}
    (h : s.maps[m.index]? = some st) : state m s = .ok st s := by
  simp [state, h]

theorem run_state_none {s : Store} {m : MapHandle} (h : s.maps[m.index]? = none) :
    state m s = .error (.error (.mapClosed "")) s := by
  simp [state, h]

@[simp] theorem run_setState (m : MapHandle) (st : MapState) (s : Store) :
    setState m st s = .ok () (s.set m st) := rfl

/-- Changing what a map is. -/
theorem run_modifyState {s : Store} {m : MapHandle} {st : MapState} (f : MapState → MapState)
    (h : s.maps[m.index]? = some st) : modifyState m f s = .ok () (s.set m (f st)) := by
  obtain ⟨lt, rfl⟩ := List.getElem?_eq_some_iff.1 h
  have maps : s.maps.modify m.index f = s.maps.set m.index (f s.maps[m.index]) := by
    refine List.ext_getElem? fun i => ?_
    rw [List.getElem?_modify, List.getElem?_set]
    split
    · rename_i same
      subst same
      simp [lt]
    · simp
  simp [modifyState, Store.set, maps]

theorem run_modifyState_none {s : Store} {m : MapHandle} (f : MapState → MapState)
    (h : s.maps[m.index]? = none) : modifyState m f s = .ok () s := by
  have maps : s.maps.modify m.index f = s.maps :=
    List.modify_eq_self (List.getElem?_eq_none_iff.1 h)
  simp [modifyState, maps]

@[simp] theorem run_pendingArrivals (s : Store) :
    pendingArrivals s = .ok (s.maps.foldl (fun n st => n + st.pendingArrivals) 0) s := rfl

@[simp] theorem run_meter (h : MeterHandle) (s : Store) :
    meter h s = .ok ((s.meters[h.index]?).getD .idle) s := rfl

@[simp] theorem run_modifyMeter (h : MeterHandle) (f : AccessMeter → AccessMeter) (s : Store) :
    modifyMeter h f s = .ok () { s with meters := s.meters.modify h.index f } := rfl

@[simp] theorem run_liveSets (h : LiveHandle) (s : Store) :
    liveSets h s = .ok (s.liveSets h) s := rfl

@[simp] theorem run_modifyLive (h : LiveHandle) (f : LiveSets → LiveSets) (s : Store) :
    modifyLive h f s = .ok () { s with live := s.live.modify h.index f } := rfl

@[simp] theorem run_disk (s : Store) : disk s = .ok s.disk s := rfl

@[simp] theorem run_setDisk (d : Disk) (s : Store) : setDisk d s = .ok () { s with disk := d } :=
  rfl

/-! ## The store after an action -/

theorem after_of_ok {a : Action α} {s s' : Store} {r : α} (h : a s = .ok r s') :
    a.after s = s' := by
  simp [after, h]

/-- What runs as another does leaves what the other leaves. -/
theorem after_of_eq {a a' : Action α} {s s' : Store} (same : a s = a' s') :
    a.after s = a'.after s' := by
  rw [after, same, ← after]

theorem after_of_error {a : Action α} {s s' : Store} {fault : Fault}
    (h : a s = .error fault s') : a.after s = s' := by
  simp [after, h]

/-- An action ends with an answer or a fault. -/
theorem ends (a : Action α) (s : Store) :
    (∃ r, a s = .ok r (a.after s)) ∨ ∃ fault, a s = .error fault (a.after s) := by
  unfold after
  cases a s with
  | ok r s' => exact .inl ⟨r, rfl⟩
  | error fault s' => exact .inr ⟨fault, rfl⟩

@[simp] theorem after_attempt (a : Action α) (s : Store) : (attempt a).after s = a.after s := by
  simp only [after, run_attempt]
  cases a s <;> rfl

@[simp] theorem after_pure (r : α) (s : Store) : (pure r : Action α).after s = s := rfl

@[simp] theorem after_throw (fault : Fault) (s : Store) : (throw fault : Action α).after s = s :=
  rfl

@[simp] theorem after_refuse (cause : StoreError) (s : Store) :
    (refuse cause : Action α).after s = s := rfl

@[simp] theorem after_noMap (s : Store) : (noMap : Action α).after s = s := rfl

@[simp] theorem after_lift (r : Except StoreError α) (s : Store) : (lift r).after s = s := by
  cases r <;> rfl

@[simp] theorem after_consult (fault : Option Fault) (s : Store) :
    (consult fault).after s = s := by
  cases fault <;> rfl

@[simp] theorem after_ofExcept (r : Except Fault α) (s : Store) :
    (MonadExcept.ofExcept r : Action α).after s = s := by
  cases r <;> rfl

/-- What comes after a refusal is not done. -/
@[simp] theorem after_refuse_bind (cause : StoreError) (f : α → Action β) (s : Store) :
    (refuse cause >>= f).after s = s := rfl

theorem after_bind_of_ok {a : Action α} {f : α → Action β} {s s' : Store} {r : α}
    (h : a s = .ok r s') : (a >>= f).after s = (f r).after s' := by
  simp [after, h]

theorem after_bind_of_error {a : Action α} {f : α → Action β} {s s' : Store} {fault : Fault}
    (h : a s = .error fault s') : (a >>= f).after s = s' := by
  simp [after, h]

@[simp] theorem after_pure_bind (r : α) (f : α → Action β) (s : Store) :
    ((pure r : Action α) >>= f).after s = (f r).after s := rfl

/-- What each part of an action keeps to, the whole keeps to. -/
theorem after_bind {R : Store → Store → Prop} {a : Action α} {f : α → Action β} {s : Store}
    (trans : ∀ {s₁ s₂ s₃}, R s₁ s₂ → R s₂ s₃ → R s₁ s₃) (first : R s (a.after s))
    (next : ∀ r s', a s = .ok r s' → R s' ((f r).after s')) : R s ((a >>= f).after s) := by
  simp only [after, run_bind] at *
  cases h : a s with
  | ok r s' =>
    simp only [h] at first next ⊢
    exact trans first (next r s' rfl)
  | error fault s' => simpa [h] using first

/-- A step that starts by asking what the map is ends at once if there is none. -/
theorem after_state_bind {R : Store → Store → Prop} {m : MapHandle} {f : MapState → Action α}
    {s : Store} (refl : ∀ s, R s s)
    (each : ∀ st, s.maps[m.index]? = some st → R s ((f st).after s)) :
    R s ((state m >>= f).after s) := by
  cases h : s.maps[m.index]? with
  | none =>
    rw [after_bind_of_error (run_state_none h)]
    exact refl s
  | some st =>
    rw [after_bind_of_ok (run_state h)]
    exact each st h

/-- Nothing changes of a map that there is not. -/
theorem after_modifyState {R : Store → Store → Prop} {m : MapHandle} {f : MapState → MapState}
    {s : Store} (refl : ∀ s, R s s)
    (each : ∀ st, s.maps[m.index]? = some st → R s (s.set m (f st))) :
    R s ((modifyState m f).after s) := by
  cases h : s.maps[m.index]? with
  | none =>
    rw [after_of_ok (run_modifyState_none f h)]
    exact refl s
  | some st =>
    rw [after_of_ok (run_modifyState f h)]
    exact each st h

/-- What each step of a loop keeps to, the loop keeps to. -/
theorem after_foldlM {R : Store → Store → Prop} (refl : ∀ s, R s s)
    (trans : ∀ {s₁ s₂ s₃}, R s₁ s₂ → R s₂ s₃ → R s₁ s₃) {step : β → α → Action β}
    {l : List α} (each : ∀ r, ∀ x ∈ l, ∀ s, R s ((step r x).after s)) (r : β) (s : Store) :
    R s ((l.foldlM step r).after s) := by
  induction l generalizing r s with
  | nil => exact refl s
  | cons x rest ih =>
    rw [List.foldlM_cons]
    refine after_bind trans (each r x (List.mem_cons_self ..) s) fun r' s' _ => ?_
    exact ih (fun r y hy => each r y (List.mem_cons_of_mem _ hy)) r' s'

/-! ## What an action answers -/

/-- Wherever the action ends the store is as said, and the only answer that it
may give is `r`. -/
structure Answers (a : Action α) (s : Store) (r : α) (I : Store → Prop) : Prop where
  keeps : I (a.after s)
  answer : ∀ r' s', a s = .ok r' s' → r' = r

namespace Answers

variable {a a' : Action α} {s : Store} {r : α} {I J : Store → Prop}

theorem of_ok {s' : Store} (run : a s = .ok r s') (h : I s') : a.Answers s r I := by
  refine ⟨by rwa [after_of_ok run], fun r' s'' run' => ?_⟩
  rw [run] at run'
  cases run'
  rfl

theorem of_error {s' : Store} {fault : Fault} (run : a s = .error fault s') (h : I s') :
    a.Answers s r I := by
  refine ⟨by rwa [after_of_error run], fun r' s'' run' => ?_⟩
  rw [run] at run'
  cases run'

/-- An action that does what another does from another store. -/
theorem congr {s' : Store} (same : a s = a' s') (h : a'.Answers s' r I) : a.Answers s r I := by
  refine ⟨?_, fun r' s'' run => h.answer r' s'' (same ▸ run)⟩
  have keeps := h.keeps
  rwa [after, ← same] at keeps

theorem imp (h : a.Answers s r I) (weaker : I (a.after s) → J (a.after s)) : a.Answers s r J :=
  ⟨weaker h.keeps, h.answer⟩

/-- The second of two steps starts where the first ends, unless the first
ended early. -/
theorem bind {f : α → Action β} {r₂ : β} (first : a.Answers s r J)
    (next : ∀ s', a s = .ok r s' → J s' → (f r).Answers s' r₂ I) (early : ∀ s', J s' → I s') :
    (a >>= f).Answers s r₂ I := by
  obtain ⟨r', run⟩ | ⟨fault, run⟩ := ends a s
  · obtain rfl := first.answer r' _ run
    have second := next _ run first.keeps
    have both : (a >>= f) s = f r' (a.after s) := by
      rw [run_bind, run]
    obtain ⟨r'', run'⟩ | ⟨fault, run'⟩ := ends (f r') (a.after s)
    · obtain rfl := second.answer r'' _ run'
      exact of_ok (both.trans run') second.keeps
    · exact of_error (both.trans run') second.keeps
  · exact of_error (by rw [run_bind, run]) (early _ first.keeps)

/-- An action whose answer is worked on. -/
theorem map {f : α → β} (h : a.Answers s r I) :
    (do return f (← a) : Action β).Answers s (f r) I :=
  h.bind (fun _ _ kept => of_ok rfl kept) fun _ kept => kept

end Answers

end Action

namespace MapHandle

variable {s : Store} {m : MapHandle} {st : MapState} {w : WriteBuffer}

theorem run_merge_missing (missing : s.maps[m.index]? = none) :
    m.merge s = .error (.error (.mapClosed "")) s := by
  rw [merge, Action.run_bind, Action.run_state_none missing]

/-- A map without a buffer has nothing to merge, -/
theorem run_merge_of_none (state : s.maps[m.index]? = some st) (unbuffered : st.buffer? = none) :
    m.merge s = .ok .none s := by
  rw [merge, Action.run_bind, Action.run_state state]
  cases st with
  | buffered b => cases unbuffered
  | adaptive a =>
    have nothing : a.buffer = none := unbuffered
    simp [nothing]
  | memory _ | direct _ | faulty _ => rfl

/-- and one with a buffer drains it. -/
theorem run_merge_buffered {x : BufferedMap} (state : s.maps[m.index]? = some (.buffered x)) :
    m.merge s = m.drain x.toFront x.buffer s := by
  rw [merge, Action.run_bind, Action.run_state state]

theorem run_merge_adaptive {a : AdaptiveMap} (state : s.maps[m.index]? = some (.adaptive a))
    (waiting : a.buffer = some w) : m.merge s = m.drain a.toFront w s := by
  rw [merge, Action.run_bind, Action.run_state state]
  simp [waiting]

end MapHandle

end MapStore
