/-
MapStore.Proofs.Retiring — a closed map stays closed.

A close that is answered leaves a map that is retired: nothing waits in it, and
the map that keeps its entries is closed with nothing to save. For that a map
that is marked closed already has to be retired, and a direct map that is
closed to have nothing to save. This is so between any two things that are done
with an engine and its maps (`Orderly`), on whatever directory the engine was
opened. While a close is at work its own map is the exception; a close that is
refused opens it again.

No act brings a map back that is retired, or writes at the path of its artifact
(`Later`): another map has another name, and so another path.
-/
import MapStore.Proofs.Refusing
import MapStore.Proofs.Upholding

namespace MapStore

open Artifact (fileName isValidName)

namespace Store

variable {s s' s'' : Store} {m b y : MapHandle} {st : MapState} {front : Front}
  {storage : Option String} {named : String → Option MapHandle} {busy : Option MapHandle}

/-! ## Maps in order -/

/-- What holds of the maps of one engine between any two acts. Each direct map
has the path of its artifact, and one that is closed has nothing to save. A map
marked closed is retired, unless it is just being closed. -/
structure Orderly (s : Store) (storage : Option String) (named : String → Option MapHandle)
    (busy : Option MapHandle) : Prop where
  layout : s.Layout
  roster : s.Roster named
  sited : ∀ b x, s.role? b = some (.base x) → isValidName x.name = true ∧
    x.path = storage.map (Disk.join · (fileName x.name x.id))
  housed : ∀ dir, storage = some dir → ∃ here, s.disk.Houses dir here
  tight : ∀ b, s.Tight b
  marked : ∀ (m : MapHandle) (x : BufferedMap), s.maps[m.index]? = some (.buffered x) →
    x.closed = true → some m ≠ busy → s.Retired m

/-- In the later store what was retired still is, and its artifact is as it
was. -/
structure Later (s s' : Store) : Prop where
  retired : ∀ m, s.Retired m → s'.Retired m
  still : ∀ (b : MapHandle) (st : MapState), s.maps[b.index]? = some st → st.Spent →
    s'.maps[b.index]? = some st
  spares : ∀ (b : MapHandle) (d : DirectMap) path, s.maps[b.index]? = some (.direct d) →
    (MapState.direct d).Spent → d.path = some path → s'.disk.at? path = s.disk.at? path

/-- Maps in order stay so, and what is retired stays behind. -/
def Passes (storage : Option String) (named : String → Option MapHandle)
    (busy : Option MapHandle) (s s' : Store) : Prop :=
  s.Orderly storage named busy → s'.Orderly storage named busy ∧ s.Later s'

namespace Later

theorem refl (s : Store) : s.Later s :=
  ⟨fun _ => id, fun _ _ state _ => state, fun _ _ _ _ _ _ => rfl⟩

theorem trans (h : s.Later s') (h' : s'.Later s'') : s.Later s'' where
  retired m := h'.retired m ∘ h.retired m
  still b st state spent := h'.still b st (h.still b st state spent) spent
  spares b d path base spent own :=
    (h'.spares b d path (h.still b _ base spent) spent own).trans (h.spares b d path base spent own)

end Later

theorem Retired.of_maps (h : s.Retired m) (maps : s'.maps = s.maps) : s'.Retired m := by
  cases h with
  | plain state spent => exact .plain (maps ▸ state) spent
  | layered above base spent drained =>
    refine .layered (role?_congr maps ▸ above) (maps ▸ base) spent ?_
    unfold Drained
    rw [maps]
    exact drained

theorem Later.of_maps (maps : s'.maps = s.maps) (disk : s'.disk = s.disk) : s.Later s' where
  retired _ h := h.of_maps maps
  still _ _ state _ := maps ▸ state
  spares _ _ _ _ _ _ := by rw [disk]

/-- A map over another is open, or marked closed. -/
theorem openAt_or_marked (above : s.role? m = some (.over front)) :
    s.OpenAt m ∨ ∃ x, s.maps[m.index]? = some (.buffered x) ∧ x.closed = true := by
  obtain ⟨st, state, above⟩ := over_of_role? above
  cases isOpen : st.isOpen with
  | true =>
    refine .inl fun st' state' => ?_
    rw [state] at state'
    cases state'
    exact isOpen
  | false =>
    obtain ⟨x, rfl, -⟩ | ⟨a, rfl, -⟩ := MapState.cases_of_role above
    · exact .inr ⟨x, state, by simpa [MapState.isOpen] using isOpen⟩
    · cases isOpen

namespace Orderly

theorem of_empty (empty : s.maps = []) (nothing : ∀ name, named name = none)
    (housed : ∀ dir, storage = some dir → ∃ here, s.disk.Houses dir here) :
    s.Orderly storage named busy where
  layout := .of_empty empty
  roster := .of_empty empty nothing
  sited b x role := by simp [role?_of_empty empty] at role
  housed := housed
  tight b d base := by simp [empty] at base
  marked m x state := by simp [empty] at state

theorem of_maps (o : s.Orderly storage named busy) (maps : s'.maps = s.maps)
    (disk : s'.disk = s.disk) : s'.Orderly storage named busy where
  layout := o.layout.of_maps maps
  roster := o.roster.congr (role?_congr maps)
  sited := by
    rw [role?_congr maps]
    exact o.sited
  housed := disk ▸ o.housed
  tight b := by
    unfold Tight
    rw [maps]
    exact o.tight b
  marked m x state closed idle := (o.marked m x (maps ▸ state) closed idle).of_maps maps

/-- The map is about to be closed. -/
theorem busied (o : s.Orderly storage named none) (m : MapHandle) :
    s.Orderly storage named (some m) :=
  { o with marked := fun m x state closed _ => o.marked m x state closed nofun }

/-- It is closed, or open again. -/
theorem done (o : s.Orderly storage named (some m))
    (ended : ∀ x, s.maps[m.index]? = some (.buffered x) → x.closed = true → s.Retired m) :
    s.Orderly storage named none := by
  refine { o with marked := fun k x state closed _ => ?_ }
  by_cases own : k = m
  · subst own
    exact ended x state closed
  · exact o.marked k x state closed fun eq => own (Option.some.inj eq)

/-- A move within the roles that closes no map but the one that is being
closed. -/
theorem move (o : s.Orderly storage named busy) (layout : s'.Layout) (roles : s'.role? = s.role?)
    (dirs : s.disk.SameDirectories s'.disk) (tight : ∀ b, s.Tight b → s'.Tight b)
    (opens : ∀ m front, s.role? m = some (.over front) → some m ≠ busy → s.OpenAt m → s'.OpenAt m)
    (retired : ∀ m, s.Retired m → s'.Retired m) : s'.Orderly storage named busy where
  layout := layout
  roster := o.roster.congr roles
  sited := by
    rw [roles]
    exact o.sited
  housed dir kept := by
    obtain ⟨here, houses⟩ := o.housed dir kept
    exact ⟨here, houses.congr dirs⟩
  tight b := tight b (o.tight b)
  marked m x state closed idle := by
    have above : s.role? m = some (.over x.toFront) := by
      rw [← roles]
      exact role?_of_maps state
    obtain isOpen | ⟨x', state', closed'⟩ := openAt_or_marked above
    · have still := opens m _ above idle isOpen _ state
      simp [MapState.isOpen, closed] at still
    · exact retired m (o.marked m x' state' closed' idle)

end Orderly

/-! ## Moves -/

theorem UpkeepMove.sameDirectories (h : s.UpkeepMove s') : s.disk.SameDirectories s'.disk := by
  cases h with
  | @saved b d base => exact (d.filed_save s.disk).changes.1
  | left state drained => split <;> exact .refl _
  | metered meters => exact .refl _
  | counted units => exact .refl _
  | merged state above waiting first base wrote => exact .refl _
  | entered state direct alive => exact .refl _

/-- A save of another map is one at another path. -/
theorem UpkeepMove.later (h : s.UpkeepMove s') (o : s.Orderly storage named busy) : s.Later s' where
  retired _ := h.retired
  still _ _ := h.spent
  spares b d path base spent own := by
    have role : s.role? b = some (.base d.toBase) := role?_of_maps base
    obtain ⟨valid, path'⟩ : isValidName d.name = true ∧
        d.path = storage.map (Disk.join · (fileName d.name d.id)) := o.sited b d.toBase role
    rw [own] at path'
    obtain ⟨dir, kept, rfl⟩ := Option.map_eq_some_iff.1 path'.symm
    obtain ⟨here, houses⟩ := o.housed dir kept
    have named : ∀ b x, s.role? b = some (.base x) → isValidName x.name = true ∧
        x.path = some (Disk.join dir (fileName x.name x.id)) := by
      intro b x role
      obtain ⟨valid, path⟩ := o.sited b x role
      rw [kept] at path
      exact ⟨valid, path⟩
    have leaves := h.leaves houses named fun b' d' base' dirty same => by
      obtain rfl : b' = b := o.roster.unique (role?_of_maps base') role same
      rw [base] at base'
      cases base'
      rw [spent.2] at dirty
      cases dirty
    exact Disk.at?_join_congr houses (houses.congr h.sameDirectories)
      (Artifact.isPlain_fileName valid d.id) (leaves d.id)

theorem UpkeepMove.passes (h : s.UpkeepMove s') : Passes storage named busy s s' := by
  intro o
  have later := h.later o
  exact ⟨o.move (h.layout o.layout) h.role? h.sameDirectories (fun _ => h.tight)
    (fun _ _ _ _ => h.openAt) later.retired, later⟩

theorem Writes.passes (h : s.Writes s') : Passes storage named busy s s' := by
  intro o
  have retired : ∀ m, s.Retired m → s'.Retired m := fun _ => h.retired o.layout
  refine ⟨o.move (h.layout o.layout) h.role? (h.disk ▸ .refl _) (fun _ => h.tight)
    (fun m front above _ => h.openAt fun p state => ?_) retired,
    retired, fun _ _ => h.spent, fun _ _ _ _ _ _ => by rw [h.disk]⟩
  rw [role?_of_maps state] at above
  cases above

theorem Closes.passes (h : s.Closes m s') : Passes storage named (some m) s s' := by
  intro o
  have disk := Closing.disk ⟨m, h⟩
  have retired : ∀ m, s.Retired m → s'.Retired m := fun _ => h.retired
  refine ⟨o.move (h.layout o.layout) h.role? (disk ▸ .refl _) (fun _ => h.tight)
    (fun k front above idle isOpen => h.openAt isOpen ?_ fun d waiting rests => ?_) retired,
    retired, fun _ _ => h.spent, fun _ _ _ _ _ _ => by rw [disk]⟩
  · rintro rfl
    exact idle rfl
  · rw [rests.role] at above
    cases above

theorem Passes.refl (s : Store) : Passes storage named busy s s := fun o => ⟨o, .refl s⟩

theorem Passes.trans (h : Passes storage named busy s s') (h' : Passes storage named busy s' s'') :
    Passes storage named busy s s'' := by
  intro o
  obtain ⟨o', later⟩ := h o
  obtain ⟨o'', later'⟩ := h' o'
  exact ⟨o'', later.trans later'⟩

theorem Runs.passes {R : Store → Store → Prop}
    (each : ∀ {s s'}, R s s' → Passes storage named busy s s') (h : s.Runs R s') :
    Passes storage named busy s s' := by
  induction h with
  | refl => exact .refl _
  | tail _ move ih => exact ih.trans (move.elim UpkeepMove.passes each)

/-! ## Closing one map -/

/-- What is shut is retired. -/
theorem ShutAt.retired (h : s.ShutAt m) {d : DirectMap} {waiting : Option WriteBuffer}
    (rests : s.Rests m b d waiting) : s.Retired m := by
  obtain ⟨clean, closed⟩ := h b d waiting rests
  obtain ⟨rfl, rfl⟩ | ⟨st, front, state, above, rfl, rfl⟩ := rests.top
  · exact .plain rests.base ⟨closed, clean.1⟩
  · refine .layered (by rw [role?_of_maps state, above]) rests.base ⟨closed, clean.1⟩ ?_
    intro st' w state' waiting
    rw [state] at state'
    cases state'
    exact clean.2 w waiting

theorem Orderly.sealable (o : s.Orderly storage named none) (m : MapHandle) : s.Sealable m where
  shut x state closed b d waiting rests := by
    have retired := o.marked m x state closed nofun
    have spent := retired.base rests
    cases retired with
    | plain state' notSpent =>
      rw [state] at state'
      cases state'
      exact notSpent.elim
    | layered above base _ drained => exact ⟨⟨spent.2, drained.rests rests⟩, spent.1⟩
  tight b _ _ _ := o.tight b

/-- A close that is answered leaves a map that is retired. -/
theorem Orderly.closed (o : s.Orderly storage named none) (run : m.close s = .ok () s') :
    s'.Retired m := by
  obtain ⟨closes, shut⟩ := close_runs o.layout m
  rw [Action.after_of_ok run] at closes
  have layout := Runs.layout Closes.layout closes o.layout
  have roles := Runs.role? Closes.role? closes
  have shutAt := shut s' run (o.sealable m)
  cases state : s.maps[m.index]? with
  | none =>
    rw [MapHandle.close_none state] at run
    cases run
  | some st =>
    obtain ⟨p, rfl⟩ | ⟨d, rfl⟩ | ⟨front, d, above, -⟩ := o.layout.kinds state
    · rw [MapHandle.close_memory state] at run
      cases run
      exact .plain (maps_set_self _ state) (PlainMap.closed_close p)
    · have role : s'.role? m = some (.base d.toBase) := by
        rw [roles]
        exact role?_of_maps state
      obtain ⟨d', base, -⟩ := direct_of_role? role
      exact shutAt.retired (rests_direct base)
    · have role : s'.role? m = some (.over front) := by
        rw [roles, role?_of_maps state, above]
      obtain ⟨st', state', above'⟩ := over_of_role? role
      obtain ⟨d', rests⟩ := layout.rests_over state' above'
      exact shutAt.retired rests

/-- Closing the direct map below leaves the map on top as open as it was. -/
theorem openAt_close_below {d : DirectMap} (base : s.maps[b.index]? = some (.direct d))
    (above : s.role? m = some (.over front)) (isOpen : s.OpenAt m) :
    (b.close.after s).OpenAt m := by
  obtain ⟨closes, -⟩ := close_direct (rests_direct base) nofun
  have ne : b ≠ m := by
    rintro rfl
    rw [role?_of_maps base] at above
    cases above
  generalize b.close.after s = s' at closes
  induction closes with
  | refl => exact isOpen
  | tail before move ih =>
    have role := (congrFun (Runs.role? Closes.role? before) m).trans above
    refine move.elim (·.openAt ih) fun closes => closes.openAt ih ne fun d' waiting rests => ?_
    rw [rests.role] at role
    cases role

/-- A merge, and a close of the map below, do not panic. -/
theorem last_refused (layout : s.Layout) (above : s.role? m = some (.over front))
    (fault : Fault) (s' : Store)
    (run : (do let _ ← m.merge; front.backing.close : Action Unit) s = .error fault s') :
    ∃ cause, fault = .error cause := by
  obtain ⟨upkept, -, refused⟩ := merge_ends layout m
  rw [Action.run_bind] at run
  obtain ⟨stats, merged⟩ | ⟨fault', failed⟩ := Action.ends m.merge s
  · rw [merged] at run
    have role := (congrFun upkept.role? m).trans above
    obtain ⟨st, state, above'⟩ := over_of_role? role
    obtain ⟨d, rests⟩ := (upkept.layout layout).rests_over state above'
    obtain ⟨-, -, refused'⟩ := close_direct (rests_direct rests.base) nofun
    exact refused' fault s' run
  · rw [failed] at run
    cases run
    exact (refused _ _ failed).1

/-- A map that is not marked closed is open. -/
theorem openAt_setClosed (above : s.role? m = some (.over front)) :
    ((m.setClosed false).after s).OpenAt m := by
  obtain ⟨st, state, above⟩ := over_of_role? above
  unfold MapHandle.setClosed
  rw [Action.after_of_ok (Action.run_modifyState _ state)]
  intro st' state'
  rw [maps_set_self _ state] at state'
  cases state'
  obtain ⟨x, rfl, -⟩ | ⟨a, rfl, -⟩ := MapState.cases_of_role above
  · rfl
  · rfl

/-- A close that is refused leaves the map open, if it was. -/
theorem openAt_of_close_refused {fault : Fault} (layout : s.Layout)
    (above : s.role? m = some (.over front)) (isOpen : s.OpenAt m)
    (run : m.close s = .error fault s') : s'.OpenAt m := by
  have roles := Runs.role? Closes.role? (close_runs layout m).1
  obtain ⟨below, -⟩ := layout.below m front above
  obtain ⟨st, state, above'⟩ := over_of_role? above
  obtain ⟨x, rfl, rfl⟩ | ⟨a, rfl, rfl⟩ := MapState.cases_of_role above'
  · have notClosed : x.closed = false := by simpa [MapState.isOpen] using isOpen _ state
    have mark : s.Closes m _ := .marked true state
    have role₁ := (congrFun mark.role? m).trans above
    obtain ⟨closes, -⟩ := drain_close (mark.layout layout) (maps_set_self _ state) rfl
      (merge_moves (mark.layout layout) m).1 (merge_moves (mark.layout layout) m).2
    have refused := last_refused (mark.layout layout) role₁
    rw [MapHandle.close_buffered state notClosed below] at run
    have role₂ := congrFun (Runs.role? Closes.role? closes) m
    generalize (do let _ ← m.merge; x.backing.close : Action Unit) = last at run refused role₂
    cases ended : last (s.set m (.buffered { x with closed := true })) with
    | ok r s₂ =>
      rw [ended] at run
      cases run
    | error fault' s₂ =>
      obtain ⟨cause, rfl⟩ := refused fault' s₂ ended
      rw [ended] at run
      rw [Action.after_of_error ended] at role₂
      cases run
      exact openAt_setClosed (role₂.trans role₁)
  · rw [MapHandle.close_adaptive state below, Action.run_bind] at run
    have upkept : s.UpkeepMoves (m.switchToDirect.after s) := switchTo_moves layout m .direct
    obtain ⟨switched, ran⟩ | ⟨fault', failed⟩ := Action.ends m.switchToDirect s
    · rw [ran] at run
      have role := (congrFun upkept.role? m).trans above
      obtain ⟨st', state', above''⟩ := over_of_role? role
      obtain ⟨d, rests⟩ := (upkept.layout layout).rests_over state' above''
      have still := openAt_close_below rests.base role (upkept.openAt isOpen)
      rwa [Action.after_of_error run] at still
    · rw [failed] at run
      cases run
      exact upkept.openAt isOpen

/-- A close of any map, whatever comes of it. -/
theorem close_passes (m : MapHandle) (s : Store) :
    Passes storage named none s (m.close.after s) := by
  intro o
  obtain ⟨closes, -⟩ := close_runs o.layout m
  obtain ⟨o', later⟩ := closes.passes Closes.passes (o.busied m)
  refine ⟨o'.done fun x state closed => ?_, later⟩
  obtain ⟨r, run⟩ | ⟨fault, run⟩ := Action.ends m.close s
  · exact o.closed run
  · -- the close was refused, so the mark was set before
    have above : s.role? m = some (.over x.toFront) := by
      rw [← Runs.role? Closes.role? closes]
      exact role?_of_maps state
    obtain isOpen | ⟨x', state', closed'⟩ := openAt_or_marked above
    · have still := openAt_of_close_refused o.layout above isOpen run _ state
      simp [MapState.isOpen, closed] at still
    · exact later.retired m (o.marked m x' state' closed' (Option.some_ne_none m))

/-! ## New maps -/

theorem Extends.retired (h : s.Extends s') (retired : s.Retired m) : s'.Retired m := by
  cases retired with
  | plain state spent => exact .plain (h.old m _ state) spent
  | layered above base spent drained =>
    obtain ⟨st, state, above⟩ := over_of_role? above
    have state' := h.old m st state
    refine .layered (by rw [role?_of_maps state', above]) (h.old _ _ base) spent ?_
    intro st' w there waiting
    rw [state'] at there
    cases there
    exact drained st w state waiting

theorem Extends.later (h : s.Extends s') : s.Later s' where
  retired _ := h.retired
  still b st state _ := h.old b st state
  spares _ _ _ _ _ _ := by rw [h.disk]

/-- One map more, which is open. -/
theorem Makes.orderly {live : LiveHandle} {named' : String → Option MapHandle}
    (h : s.Makes st live s') (o : s.Orderly storage named none) (grows : s.Extends s')
    (layout : s'.Layout) (roster : s'.Roster named') (isOpen : st.isOpen = true)
    (sited : ∀ x, st.role = .base x → isValidName x.name = true ∧
      x.path = storage.map (Disk.join · (fileName x.name x.id))) :
    s'.Orderly storage named' none where
  layout := layout
  roster := roster
  sited b x role := by
    obtain ⟨-, new⟩ | ⟨-, old⟩ := h.role?_cases role
    · exact sited x new
    · exact o.sited b x old
  housed := h.disk ▸ o.housed
  tight b d base closed := by
    rw [h.at?] at base
    split at base
    · cases base
      simp [MapState.isOpen, closed] at isOpen
    · exact o.tight b d base closed
  marked m x state closed idle := by
    rw [h.at?] at state
    split at state
    · cases state
      simp [MapState.isOpen, closed] at isOpen
    · exact grows.retired (o.marked m x state closed idle)

/-- A map that an engine makes is open, and is saved where its artifact is. -/
theorem Adds.orderly {settings : MapSettings} {keyType valueType : DataType} {live : LiveHandle}
    {named' : String → Option MapHandle}
    (h : Adds settings keyType valueType live s named s' named')
    (valid : isValidName settings.name = true) (lawful : Std.TransCmp keyType.compare)
    (o : s.Orderly settings.storageDir named none) :
    s'.Orderly settings.storageDir named' none := by
  have grows := h.grows
  obtain ⟨layout, roster⟩ := h.laid lawful o.layout o.roster
  cases h with
  | memory free makes => exact makes.orderly o grows layout roster rfl nofun
  | @direct d free makes loaded listed =>
    refine makes.orderly o grows layout roster (by simp [MapState.isOpen, loaded.isOpen]) ?_
    intro x role
    cases role
    show isValidName d.name = true ∧
      d.path = settings.storageDir.map (Disk.join · (fileName d.name d.id))
    rw [loaded.path, loaded.name, loaded.id]
    exact ⟨valid, rfl⟩
  | layered given makes above base loaded isOpen empty waiting own =>
    refine makes.orderly o grows layout roster isOpen fun x role => ?_
    rw [above] at role
    cases role

end Store

/-! ## Engines -/

section

open Store

variable {e : EngineHandle} {x : Engine} {s s' : Store} {storage : Option String}

/-- The maps of the engine are in order, whether it is open or was closed. -/
inductive Store.Staffed (s : Store) (e : EngineHandle) (storage : Option String) : Prop
  | working {x : Engine} (works : s.Works e x storage) (ids : x.ids.Ordered)
      (table : x.maps.order = compare) (orderly : s.Orderly storage x.maps.get? none)
  | ended {named : String → Option MapHandle} (ended : e.Ended s)
      (orderly : s.Orderly storage named none)

/-- Maps in order stay so, and what is retired stays behind. -/
theorem Store.orderly_upheld (s₀ : Store) : Upheld storage (fun _ => True)
    fun named s => s.Orderly storage named none ∧ s₀.Later s := by
  have passes : ∀ {named s s'}, s.Orderly storage named none ∧ s₀.Later s →
      Passes storage named none s s' → s'.Orderly storage named none ∧ s₀.Later s' := by
    intro named s s' ⟨orderly, later⟩ passes
    obtain ⟨orderly', later'⟩ := passes orderly
    exact ⟨orderly', later.trans later'⟩
  refine ⟨fun h => h.1.layout, fun h maps disk => ?_, fun h move => passes h move.passes,
    fun h move => passes h move.passes, fun m h _ => passes h (close_passes m _),
    fun kept valid lawful adds h => ?_⟩
  · exact passes h fun orderly => ⟨orderly.of_maps maps disk, .of_maps maps disk⟩
  · subst kept
    exact ⟨adds.orderly valid lawful h.1, h.2.trans adds.grows.later⟩

theorem Store.staffed_iff : s.Staffed e storage ↔
    s.Holds e storage fun named s => s.Orderly storage named none := by
  constructor
  · rintro (⟨works, ids, table, orderly⟩ | ⟨ended, orderly⟩)
    · exact .working works ids table orderly
    · exact .ended ended orderly
  · rintro (⟨works, ids, table, orderly⟩ | ⟨ended, orderly⟩)
    · exact .working works ids table orderly
    · exact .ended ended orderly

namespace Store.Staffed

theorem orderly (h : s.Staffed e storage) :
    (∃ named, s.Orderly storage named none) ∧ ∃ x, s.engines[e.index]? = some x :=
  (staffed_iff.1 h).holds

/-- Any acts. -/
theorem run (h : s.Staffed e storage) (acts : List Act) (lawful : ∀ act ∈ acts, act.Lawful) :
    (Act.run e s acts).Staffed e storage ∧ s.Later (Act.run e s acts) := by
  have begun : s.Holds e storage fun named s' => s'.Orderly storage named none ∧ s.Later s' :=
    (staffed_iff.1 h).imp fun orderly => ⟨orderly, .refl s⟩
  have ended := (orderly_upheld s).run begun acts lawful fun _ _ => trivial
  obtain ⟨⟨named, -, later⟩, -⟩ := ended.holds
  exact ⟨staffed_iff.2 (ended.imp And.left), later⟩

/-- Any act. -/
theorem act (h : s.Staffed e storage) (act : Act) (lawful : act.Lawful) :
    (act.after e s).Staffed e storage ∧ s.Later (act.after e s) :=
  h.run [act] (by simpa using lawful)

end Store.Staffed

/-- The map refuses every call, nothing waits in it, and a save, a merge and a
close of it are answered; whatever is done with it leaves the disk. -/
structure Store.StaysClosed (s : Store) (e : EngineHandle) (m : MapHandle) : Prop where
  calls : ∀ c : Call, (c.perform m).Refused s
  pending : ∃ bytes, m.pending s = .ok (0, bytes) s
  save : m.save s = .ok () s
  merge : m.merge s = .ok .none s
  close : ∃ s', m.close s = .ok () s'
  leaves : ∀ act, Act.On m act → (act.after e s).disk = s.disk

namespace EngineHandle

variable {config : Config} {disk : Disk} {s₀ s₁ : Store} {m : MapHandle}

/-- An engine that was just opened has no maps. -/
theorem staffed_of_openWith (start : openWith config (.onDisk disk) = .ok e s₀) :
    s₀.Staffed e config.storageDir := by
  obtain ⟨maps, -, houses⟩ := works_of_openWith start
  exact staffed_iff.2 (holds_of_openWith start fun named nothing =>
    .of_empty maps nothing houses)

/-- Once a close of a map was answered the map stays closed, in whatever mode
it is put, whatever is done with it, with other maps and with the engine. It
refuses every read and every write, nothing waits in it, and saves, merges and
closes of it are answered without touching the disk. Its artifact is as the
close left it. -/
theorem closed_map_stays_closed {before : List Act}
    (start : openWith config (.onDisk disk) = .ok e s₀)
    (lawful : ∀ act ∈ before, act.Lawful)
    (closed : m.close (Act.run e s₀ before) = .ok () s₁) (after : List Act)
    (lawful' : ∀ act ∈ after, act.Lawful) :
    (Act.run e s₁ after).StaysClosed e m ∧
      ∀ b d waiting path, s₁.Rests m b d waiting → d.path = some path →
        (Act.run e s₁ after).disk.at? path = s₁.disk.at? path := by
  obtain ⟨staffed, -⟩ := (staffed_of_openWith start).run before lawful
  obtain ⟨⟨named, orderly⟩, -⟩ := staffed.orderly
  have retired := orderly.closed closed
  obtain ⟨staffed₁, -⟩ := staffed.act (.shut m) trivial
  have shut : (Act.shut m).after e (Act.run e s₀ before) = s₁ := Action.after_of_ok closed
  rw [shut] at staffed₁
  obtain ⟨staffed', later⟩ := staffed₁.run after lawful'
  obtain ⟨⟨named', orderly'⟩, -⟩ := staffed'.orderly
  have layout := orderly'.layout
  have still := later.retired m retired
  obtain ⟨s', again, -⟩ := still.close layout
  refine ⟨⟨still.call layout, still.pending layout, still.save layout, still.merge layout,
    ⟨s', again⟩, fun act => still.on layout⟩, fun b d waiting path rests own => ?_⟩
  exact later.spares b d path rests.base (retired.base rests) own

/-- A request for an adaptive map of bytes. -/
def kioskMap : Opening := ⟨"a", .adaptive, .bytes, .bytes, none, false⟩

/-- An entry is put into it. -/
def kioskActs : List Act := [.deed (.opened kioskMap), .deed (.called (.put [1] [2]) ⟨1⟩)]

/-- The map opened in the depot. -/
def kioskOpened : Store := (kioskMap.perform ⟨0⟩).after depotStart

/-- The map with the entry. -/
def kioskPut : Store :=
  { kioskOpened with meters := kioskOpened.meters.modify 0 .recordWrite }.set ⟨0⟩
    (.direct (depotFull "a" 1))

/-- The map closed. -/
def kioskClosed : Store :=
  { kioskPut with disk := ((depotFull "a" 1).close kioskPut.disk).2.2 }.set ⟨0⟩
    (.direct ((depotFull "a" 1).close kioskPut.disk).2.1)

theorem run_kioskActs : Act.run ⟨0⟩ depotStart kioskActs = kioskPut := by
  have state : kioskOpened.maps[1]? =
      some (.adaptive ⟨⟨"a", 1, ⟨0⟩, .bytes, .bytes⟩, none, ⟨0⟩, ⟨0⟩⟩) := rfl
  have base : ({ kioskOpened with
      meters := kioskOpened.meters.modify 0 .recordWrite } : Store).maps[0]? =
      some (.direct (depotEmpty "a" 1)) := rfl
  have taken : (depotEmpty "a" 1).write [1] (.value [2]) = .ok (none, depotFull "a" 1) := rfl
  obtain ⟨depth, same⟩ := Call.perform_of_change (m := ⟨1⟩) (c := .put [1] [2]) rfl kioskOpened
  have wrote : (⟨1⟩ : MapHandle).write depth [1] (.value [2]) kioskOpened = .ok none kioskPut := by
    rw [MapHandle.write_adaptive state (by decide)]
    show (⟨0⟩ : MapHandle).write depth [1] (.value [2]) _ = _
    rw [MapHandle.write_direct base, taken]
    rfl
  show ((Call.put [1] [2]).perform ⟨1⟩).after kioskOpened = kioskPut
  rw [Action.after, same, Action.run_bind, wrote]
  rfl

theorem kiosk_close : (⟨1⟩ : MapHandle).close kioskPut = .ok () kioskClosed := by
  have state : kioskPut.maps[1]? =
      some (.adaptive ⟨⟨"a", 1, ⟨0⟩, .bytes, .bytes⟩, none, ⟨0⟩, ⟨0⟩⟩) := rfl
  have base : kioskPut.maps[0]? = some (.direct (depotFull "a" 1)) := rfl
  have saved : ((depotFull "a" 1).close kioskPut.disk).1 = .ok () := by decide +kernel
  have direct : (⟨1⟩ : MapHandle).switchToDirect kioskPut = .ok false kioskPut := rfl
  rw [MapHandle.close_adaptive state (Nat.lt_add_one 0), Action.run_bind, direct]
  show (⟨0⟩ : MapHandle).close kioskPut = _
  rw [MapHandle.close_direct base, saved]
  rfl

/-- The closed map is switched to buffered mode. -/
def kioskLater : List Act := [.deed (.upkept .switchToBuffered ⟨1⟩)]

/-- The map writes into a buffer now, and is closed all the same. -/
theorem kiosk_stays_closed :
    openWith depot (.onDisk .empty) = .ok ⟨0⟩ depotStart ∧
      (⟨1⟩ : MapHandle).close (Act.run ⟨0⟩ depotStart kioskActs) = .ok () kioskClosed ∧
      (⟨1⟩ : MapHandle).mode (Act.run ⟨0⟩ kioskClosed kioskLater) =
        .ok .buffered (Act.run ⟨0⟩ kioskClosed kioskLater) ∧
      (Act.run ⟨0⟩ kioskClosed kioskLater).StaysClosed ⟨0⟩ ⟨1⟩ ∧
      (kioskClosed.disk.at? "s/a-1.db").isSome ∧
      (Act.run ⟨0⟩ kioskClosed kioskLater).disk.at? "s/a-1.db" =
        kioskClosed.disk.at? "s/a-1.db" := by
  have bytes : Std.TransCmp DataType.bytes.compare := inferInstanceAs (Std.TransCmp Bytes.compare)
  have lawful : ∀ act ∈ kioskActs, act.Lawful := by
    simp [kioskActs, Act.Lawful, Deed.Lawful, kioskMap, bytes]
  have lawful' : ∀ act ∈ kioskLater, act.Lawful := by
    simp [kioskLater, Act.Lawful, Deed.Lawful]
  have start : openWith depot (.onDisk .empty) = .ok ⟨0⟩ depotStart := rfl
  have closed : (⟨1⟩ : MapHandle).close (Act.run ⟨0⟩ depotStart kioskActs) =
      .ok () kioskClosed := by
    rw [run_kioskActs, kiosk_close]
  obtain ⟨stays, same⟩ := closed_map_stays_closed start lawful closed kioskLater lawful'
  have mode : (⟨1⟩ : MapHandle).mode (Act.run ⟨0⟩ kioskClosed kioskLater) =
      .ok .buffered (Act.run ⟨0⟩ kioskClosed kioskLater) := rfl
  have state : kioskClosed.maps[1]? =
      some (.adaptive ⟨⟨"a", 1, ⟨0⟩, .bytes, .bytes⟩, none, ⟨0⟩, ⟨0⟩⟩) := rfl
  have base : kioskClosed.maps[0]? =
      some (.direct ((depotFull "a" 1).close kioskPut.disk).2.1) := rfl
  have rests : kioskClosed.Rests ⟨1⟩ ⟨0⟩ ((depotFull "a" 1).close kioskPut.disk).2.1 none :=
    ⟨base, .inr ⟨_, _, state, rfl, rfl, rfl⟩⟩
  have path : ((depotFull "a" 1).close kioskPut.disk).2.1.path = some "s/a-1.db" := by
    decide +kernel
  have there : (kioskClosed.disk.at? "s/a-1.db").isSome := by
    decide +kernel
  exact ⟨start, closed, mode, stays, there, same _ _ _ _ rests path⟩

end EngineHandle

end

end MapStore
