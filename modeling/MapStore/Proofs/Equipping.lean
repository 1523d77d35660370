/-
MapStore.Proofs.Equipping — which meter an adaptive map tells.

An adaptive map is given a meter and live-sets when it is made, and keeps both
(`Wired`): what is done with maps changes modes and nothing else of a profile.

A request for a map adds to the meters at most one, which is new and idle, and
only if none was given with it. A map that is new tells the meter that was given,
or that new one (`Equips`). So a meter that an engine made is nobody's but the
map's, unless somebody gives it away.
-/
import MapStore.Proofs.Metering
import MapStore.Proofs.Registering

namespace MapStore

namespace Store

variable {P : MapHandle → Prop} {s s' s'' : Store} {m : MapHandle} {st st' : MapState}

/-! ## Maps that are there -/

/-- The meter and the live-sets that an adaptive map was given. -/
def wiring? (s : Store) (m : MapHandle) : Option (MeterHandle × LiveHandle) :=
  (s.profile? m).map fun p => (p.meter, p.live)

/-- Every map has the meter and the live-sets that it had. -/
def Wired (s s' : Store) : Prop := s'.wiring? = s.wiring?

namespace Wired

theorem refl (s : Store) : Wired s s := rfl

theorem trans (h : Wired s s') (h' : Wired s' s'') : Wired s s'' := Eq.trans h' h

theorem of_profiles (same : ∀ x, s'.profile? x = s.profile? x) : Wired s s' := by
  funext x
  rw [wiring?, same, wiring?]

theorem of_maps (same : s'.maps = s.maps) : Wired s s' :=
  of_profiles fun x => by rw [profile?, profile?, same]

theorem of_touches (h : s.Touches P s') : Wired s s' := of_profiles (profile?_of_touches h)

theorem of_frame (h : Frame (fun _ => True) s s') : Wired s s' :=
  of_touches (h fun _ _ _ _ _ _ => trivial)

theorem set (state : s.maps[m.index]? = some st) (same : st'.profile? = st.profile?) :
    Wired s (s.set m st') := by
  refine of_profiles fun x => ?_
  rw [profile?_set st' state]
  split
  · rename_i eq
    rw [eq, profile?, state]
    exact same
  · rfl

theorem modifyState {f : MapState → MapState} (m : MapHandle)
    (same : ∀ st, (f st).profile? = st.profile?) (s : Store) :
    Wired s ((Action.modifyState m f).after s) :=
  Action.after_modifyState (R := Wired) refl fun st state => set state (same st)

theorem merge (m : MapHandle) (s : Store) : Wired s (m.merge.after s) :=
  of_frame (frame_merge trivial)

theorem save (m : MapHandle) (s : Store) : Wired s (m.save.after s) :=
  of_frame (frame_save trivial)

theorem of_switched {r : Decision} (switched : Switched m s r s') : Wired s s' := by
  funext x
  by_cases same : x = m
  · rw [same, wiring?, switched.self, wiring?, Option.map_map]
    rfl
  · rw [wiring?, switched.others x same, wiring?]

theorem switchTo (m : MapHandle) (target : MapMode) (s : Store) :
    Wired s ((Tick.switchTo m target).after s) := by
  obtain same | ⟨outcome, switched⟩ := Tick.switched_or_same m target s
  · rw [same]
    exact refl s
  · exact of_switched switched

/-- A close, whatever comes of it. -/
theorem close (m : MapHandle) (s : Store) : Wired s (m.close.after s) := by
  refine MapHandle.after_close (R := Wired) refl trans ?_ ?_ ?_ ?_ ?_ (fun s m => merge m s)
    (fun s m => switchTo m .direct s) m s
  · intro s m p state
    exact set state rfl
  · intro s m d state
    have written : Wired s { s with disk := (d.close s.disk).2.2 } := of_maps rfl
    exact written.trans (set state rfl)
  · intro s m f count state
    exact of_frame (frame_enterFaulty trivial state _ count)
  · intro s m
    exact modifyState m (fun st => by cases st <;> rfl) s
  · intro s m closed
    exact modifyState m (fun st => by cases st <;> rfl) s

end Wired

/-! ## Maps that are new -/

/-- New maps tell the meter that was given, or one that is new: the one with the
number `n`. -/
structure Equips (given : Option MeterHandle) (n : Nat) (s s' : Store) : Prop where
  maps : s.maps <+: s'.maps
  meters : ∃ more, s'.meters = s.meters ++ more ∧ ∀ x ∈ more, x = .idle
  profiles : ∀ y p, s'.profile? y = some p → s.profile? y = some p ∨
    p.meter = given.getD ⟨n⟩ ∧ (given = none → n < s'.meters.length)

namespace Equips

variable {given : Option MeterHandle} {n : Nat}

theorem of_same (maps : s'.maps = s.maps) (meters : s'.meters = s.meters) :
    Equips given n s s' where
  maps := ⟨[], by rw [maps, List.append_nil]⟩
  meters := ⟨[], by rw [meters, List.append_nil], nofun⟩
  profiles y p profile := .inl (by rwa [profile?, maps] at profile)

theorem refl (s : Store) : Equips given n s s := of_same rfl rfl

theorem trans (h : Equips given n s s') (h' : Equips given n s' s'') : Equips given n s s'' := by
  obtain ⟨more, meters, idle⟩ := h.meters
  obtain ⟨more', meters', idle'⟩ := h'.meters
  refine ⟨h.maps.trans h'.maps, ⟨more ++ more', ?_, ?_⟩, fun y p profile => ?_⟩
  · rw [meters', meters, List.append_assoc]
  · intro x mem
    exact (List.mem_append.1 mem).elim (idle x) (idle' x)
  · obtain old | new := h'.profiles y p profile
    · refine (h.profiles y p old).imp_right fun ⟨meter, there⟩ => ⟨meter, fun none => ?_⟩
      have lt := there none
      rw [meters', List.length_append]
      omega
    · exact .inr new

/-- One map more. -/
theorem grow (st : MapState) (s : Store) (own : ∀ p, st.profile? = some p →
    p.meter = given.getD ⟨n⟩ ∧ (given = none → n < s.meters.length)) :
    Equips given n s (s.grow st) where
  maps := List.prefix_append ..
  meters := ⟨[], by rw [Store.grow, List.append_nil], nofun⟩
  profiles y p profile := by
    simp only [Store.grow, profile?, List.getElem?_append] at profile
    split at profile
    · exact .inl profile
    · rw [List.getElem?_singleton] at profile
      split at profile
      · exact .inr (own p profile)
      · cases profile

/-- One meter more. -/
theorem newMeter (s : Store) :
    Equips given n s { s with meters := s.meters ++ [.idle] } where
  maps := List.prefix_refl _
  meters := ⟨[.idle], rfl, fun _ => List.mem_singleton.1⟩
  profiles _ _ := .inl

theorem addStorage (h : LiveHandle) (m : MapHandle) (s : Store) :
    Equips given n s ((h.addStorage m).after s) := of_same rfl rfl

theorem addBuffered (h : LiveHandle) (u : MergeUnit) (s : Store) :
    Equips given n s ((h.addBuffered u).after s) := of_same rfl rfl

theorem addAdaptive (h : LiveHandle) (m : MapHandle) (s : Store) :
    Equips given n s ((h.addAdaptive m).after s) := of_same rfl rfl

end Equips

/-- Of the maps of an engine that builds an adaptive one, only that one has a
profile that is new. -/
theorem Built.profiles {settings : MapSettings} {keyType valueType : DataType} {live : LiveHandle}
    (built : s.Built settings keyType valueType live .adaptive m s') :
    (∃ meter, s'.profile? m = some ⟨.direct, meter, live⟩) ∧
      ∀ y p, s'.profile? y = some p → s.profile? y = some p ∨ y = m := by
  cases built with
  | @adaptive d meter _ loaded grown =>
    refine ⟨⟨meter, by rw [profile?, grown.second]; rfl⟩, fun y p profile => ?_⟩
    rw [profile?, grown.maps, List.getElem?_append] at profile
    split at profile
    · exact .inl profile
    · obtain ⟨i⟩ := y
      obtain ⟨st, state, is⟩ := Option.bind_eq_some_iff.1 profile
      rcases rank : i - s.maps.length with _ | _ | n
      · rw [rank] at state
        cases state
        cases is
      · refine .inr ?_
        simp only [afterNext, MapHandle.mk.injEq]
        omega
      · rw [rank] at state
        cases state

end Store

namespace MapBuilder

open Store

variable {s : Store}

/-- An adaptive map that is set up over a direct one tells the meter it is set
up with. -/
theorem equips_newAdaptive (given : Option MeterHandle) (n : Nat) {b : MapHandle} {d : DirectMap}
    (base : s.maps[b.index]? = some (.direct d)) (keyType valueType : DataType)
    (live : LiveHandle) (reserved : given = none → n < s.meters.length) :
    Equips given n s ((do
      let m ← b.newAdaptive keyType valueType (given.getD ⟨n⟩) live
      let _ ← live.addStorage b
      let _ ← live.addAdaptive m
      return m : Action MapHandle).after s) := by
  rw [Action.after_bind_of_ok (MapHandle.run_newAdaptive base keyType valueType _ live)]
  refine Equips.trans (.grow _ s fun p profile => ?_)
    (Action.after_bind (R := Equips given _) .trans (.addStorage live _ _)
      fun _ s₁ _ => .addAdaptive live _ s₁)
  cases profile
  exact ⟨rfl, reserved⟩

/-- A map that is built tells the given meter, or a new one. -/
theorem equips_build (kind : MapKind) (keyType valueType : DataType) (given : Option MeterHandle)
    (settings : MapSettings) (live : LiveHandle) (s : Store) :
    Equips given s.meters.length s
      (((ofKind kind keyType valueType given).build settings live).after s) := by
  have plain {st : MapState} (none : st.profile? = none) (s' : Store) :
      Equips given s.meters.length s' (s'.grow st) :=
    .grow st s' fun p profile => by rw [none] at profile; cases profile
  have load := MapHandle.run_newDirect settings keyType valueType s
  cases loaded : DirectMap.load settings keyType valueType s.disk with
  | error cause =>
    rw [loaded] at load
    cases kind with
    | inMemory => exact (plain rfl s).trans (.addStorage live _ _)
    | direct => rw [ofKind, direct, Action.after_bind_of_error load]; exact .refl s
    | buffered => rw [ofKind, buffered, Action.after_bind_of_error load]; exact .refl s
    | adaptive => rw [ofKind, adaptive, Action.after_bind_of_error load]; exact .refl s
  | ok d =>
    rw [loaded] at load
    have begun : Equips given s.meters.length s (s.grow (.direct d)) := plain rfl s
    have there : (s.grow (.direct d)).maps[s.next.index]? = some (.direct d) := maps_grow ..
    cases kind with
    | inMemory => exact (plain rfl s).trans (.addStorage live _ _)
    | direct =>
      rw [ofKind, direct, Action.after_bind_of_ok load]
      exact begun.trans (.addStorage live _ _)
    | buffered =>
      rw [ofKind, buffered, Action.after_bind_of_ok load,
        Action.after_bind_of_ok (MapHandle.run_newBuffered there keyType valueType)]
      refine begun.trans (Equips.trans ?_ (Action.after_bind (R := Equips given _) .trans
        (.addStorage live _ _) fun _ s₁ _ => .addBuffered live _ s₁))
      exact plain rfl _
    | adaptive =>
      rw [ofKind, adaptive, Action.after_bind_of_ok load]
      cases given with
      | some h =>
        refine begun.trans
          (equips_newAdaptive (some h) _ there keyType valueType live fun none => ?_)
        cases none
      | none =>
        refine begun.trans (Equips.trans (.newMeter _)
          (equips_newAdaptive (d := d) none _ ?_ keyType valueType live fun _ => ?_))
        · exact there
        · simp [Store.grow]

end MapBuilder

namespace EngineHandle

open Store

variable {e : EngineHandle} {s : Store}

theorem equips_mapNamed (e : EngineHandle) (name : String) (kind : MapKind)
    (keyType valueType : DataType) (given : Option MeterHandle) (s : Store) :
    Equips given s.meters.length s
      ((e.mapNamed name (.ofKind kind keyType valueType given)).after s) := by
  unfold mapNamed
  cases valid : Artifact.checkName name with
  | error cause => exact .refl s
  | ok _ =>
    obtain ⟨x, asked⟩ := state_answers e s
    rw [Action.after_bind_of_ok (Action.run_lift_ok ..), Action.after_bind_of_ok asked]
    cases x.closed with
    | true => exact .refl s
    | false =>
      simp only [Bool.false_eq_true, if_false]
      cases x.maps.get? name with
      | some m => exact .refl s
      | none =>
        cases x.ids.idFor name with
        | error cause => exact .refl s
        | ok r =>
          simp only
          rw [Action.after_bind_of_ok (Action.run_lift_ok ..)]
          refine Action.after_bind (R := Equips given _) .trans (.of_same rfl rfl)
            fun _ s₁ run => ?_
          cases run
          refine Action.after_bind (R := Equips given _) .trans ?_ fun m s₂ _ => .of_same rfl rfl
          exact MapBuilder.equips_build kind keyType valueType given _ x.live
            { s with engines := s.engines.modify e.index ({ · with ids := r.2 }) }

end EngineHandle

/-- A map that is built when an adaptive one is asked for is in direct mode, and
other profiles are not new. -/
theorem Opening.profiles {e : EngineHandle} {x : Engine} {s s' : Store} {m : MapHandle}
    {o : Opening} (engine : s.engines[e.index]? = some x) (registry : s.Registry x)
    (adaptive : o.kind = .adaptive) (opened : o.perform e s = .ok m s')
    (new : s.maps[m.index]? = none) :
    (∃ meter, s'.profile? m = some ⟨.direct, meter, x.live⟩) ∧
      ∀ y p, s'.profile? y = some p → s.profile? y = some p ∨ y = m := by
  obtain opens | ⟨m', cause, -, refused⟩ := o.opens engine registry.isOpen registry.alive
  · rw [opened] at opens
    cases opens with
    | found valid there =>
      obtain ⟨f, openAs, -⟩ := registry.registered o.name m there
      have face := openAs.face
      rw [Store.face?, new] at face
      cases face
    | built valid vacant given built =>
      rw [adaptive] at built
      exact built.profiles
  · rw [opened] at refused
    cases refused

/-- A request for a map, whatever comes of it. -/
theorem Opening.equips (o : Opening) (e : EngineHandle) (s : Store) :
    s.Equips o.meter s.meters.length ((o.perform e).after s) := by
  have named := e.equips_mapNamed o.name o.kind o.keyType o.valueType o.meter s
  unfold perform
  split
  · refine Action.after_bind (R := Store.Equips o.meter _) .trans named fun m s₁ _ => ?_
    cases state : s₁.maps[m.index]? with
    | none =>
      rw [Action.after_bind_of_error (Action.run_state_none state)]
      exact .refl s₁
    | some st =>
      rw [Action.after_bind_of_ok (Action.run_state state)]
      split <;> exact .refl s₁
  · exact named

end MapStore
