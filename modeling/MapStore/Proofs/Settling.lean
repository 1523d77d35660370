/-
MapStore.Proofs.Settling — when there is nothing left to save.

A store is `Settled` if nothing waits in any buffer and no direct map has a
change that is not saved, and `Shut` if all direct maps are closed besides.
Upkeep finds nothing to do in a settled store, so it leaves the disk; in a shut
one so do writes, which are all refused.

Three things settle the maps of an engine: saving every one of them without a
refusal, a tick that reports no failure, and closing every one of them without
a refusal, which also shuts them. The argument is the same for the first and
the last: what was achieved for a map is not undone when the next ones are
visited (`Carries`). In a tick the buffers are drained first, all of them since
they are all listed, and from then on no save undoes another.
-/
import MapStore.Proofs.Faces
import MapStore.Proofs.EngineMaps
import MapStore.Proofs.Ticking

namespace MapStore

namespace SortedTable

variable {κ α : Type} {t : SortedTable κ α} [Std.TransCmp t.order]

theorem mem_values_of_get? {key : κ} {value : α} (h : t.get? key = some value) :
    value ∈ t.values := by
  obtain ⟨kept, -, mem⟩ := (get?_eq_some_iff t).1 h
  exact List.mem_map.2 ⟨_, mem, rfl⟩

theorem get?_of_mem_values {value : α} (h : value ∈ t.values) :
    ∃ key, t.get? key = some value := by
  obtain ⟨⟨key, value⟩, mem, rfl⟩ := List.mem_map.1 h
  exact ⟨key, ((mem_toList t).1 mem).2⟩

end SortedTable

namespace Store

variable {s s' s'' : Store} {m b : MapHandle} {d d' : DirectMap} {st : MapState}
  {waiting waiting' : Option WriteBuffer}

/-! ## Settled stores -/

/-- The direct map, if it is one, has no change that is not saved. -/
def SavedAt (s : Store) (b : MapHandle) : Prop :=
  ∀ d, s.maps[b.index]? = some (.direct d) → d.dirty = false

/-- Nothing waits, and no direct map has a change that is not saved. -/
structure Settled (s : Store) : Prop where
  saved : ∀ b, s.SavedAt b
  drained : ∀ m, s.Drained m

/-- All direct maps are closed besides. -/
structure Shut (s : Store) : Prop extends Settled s where
  closed : ∀ (b : MapHandle) (d : DirectMap), s.maps[b.index]? = some (.direct d) → d.closed = true

theorem Settled.of_maps (h : s.Settled) (same : s'.maps = s.maps) : s'.Settled := by
  refine ⟨fun b d state => h.saved b d (same ▸ state), fun m st w state => ?_⟩
  exact h.drained m st w (same ▸ state)

theorem Shut.of_maps (h : s.Shut) (same : s'.maps = s.maps) : s'.Shut :=
  ⟨h.toSettled.of_maps same, fun b d state => h.closed b d (same ▸ state)⟩

/-- No direct map is where another was set. -/
theorem direct_of_set (notDirect : ∀ d, st ≠ .direct d) (maps : s'.maps = s.maps)
    (state : (s'.set m st).maps[b.index]? = some (.direct d)) :
    s.maps[b.index]? = some (.direct d) := by
  rw [maps_set] at state
  split at state
  · obtain ⟨old, -, eq⟩ := Option.map_eq_some_iff.1 state
    exact absurd eq (notDirect d)
  · exact maps ▸ state

/-- The disk and the direct maps are as they were. -/
structure Idle (s s' : Store) : Prop where
  disk : s'.disk = s.disk
  bases : ∀ (b : MapHandle) (d : DirectMap), s'.maps[b.index]? = some (.direct d) →
    s.maps[b.index]? = some (.direct d)

namespace Idle

theorem of_maps (maps : s'.maps = s.maps) (disk : s'.disk = s.disk) : s.Idle s' :=
  ⟨disk, fun _ _ state => maps ▸ state⟩

theorem settled (h : s.Idle s') (settled : s.Settled) (drained : ∀ m, s'.Drained m) :
    s'.Settled :=
  ⟨fun b d state => settled.saved b d (h.bases b d state), drained⟩

theorem shut (h : s.Idle s') (shut : s.Shut) (drained : ∀ m, s'.Drained m) : s'.Shut :=
  ⟨h.settled shut.toSettled drained, fun b d state => shut.closed b d (h.bases b d state)⟩

/-- One map is something else, but no direct map. -/
theorem set (st : MapState) (notDirect : ∀ d, st ≠ .direct d) (m : MapHandle)
    (maps : s'.maps = s.maps) (disk : s'.disk = s.disk) : s.Idle (s'.set m st) :=
  ⟨disk, fun _ _ state => direct_of_set notDirect maps state⟩

end Idle

/-- In a settled store there is nothing to merge or to save. -/
theorem UpkeepMove.idle (h : s.UpkeepMove s') (settled : s.Settled) : s.Idle s' := by
  cases h with
  | metered meters => exact .of_maps rfl rfl
  | counted units => exact .of_maps rfl rfl
  | merged state above waiting first base wrote =>
    have nothing := settled.drained _ _ _ state waiting
    rw [first] at nothing
    cases nothing
  | @saved b d base =>
    rw [DirectMap.save_of_clean (settled.saved b d base)]
    rw [show ({ s with disk := s.disk } : Store).set b (.direct d) = s from set_self base]
    exact .of_maps rfl rfl
  | entered state direct alive =>
    refine .set _ (fun d => ?_) _ ?_ ?_
    · nofun
    · rfl
    · rfl
  | left state drained =>
    refine .set _ (fun d => ?_) _ ?_ ?_
    · nofun
    · split <;> rfl
    · split <;> rfl

/-- In a shut store no write is made but to an in-memory map. -/
theorem Writes.memory_of_shut (h : s.Writes s') (layout : s.Layout) (shut : s.Shut) :
    ∃ m p p', s.maps[m.index]? = some (.memory p) ∧ s' = s.set m (.memory p') := by
  cases h with
  | @memory m p p' key c previous state wrote => exact ⟨m, p, p', state, rfl⟩
  | direct state wrote =>
    have isOpen := (DirectMap.of_write wrote).1
    rw [shut.closed _ _ state] at isOpen
    cases isOpen
  | @buffered m st front w d key c state above waiting base seen =>
    rcases seen with there | isOpen
    · obtain ⟨d, rests⟩ := layout.rests_over state above
      obtain ⟨order, lawful⟩ := rests.order layout waiting
      exact absurd (WriteBuffer.get?_of_snapshot_nil (order ▸ lawful)
        (shut.drained m st w state waiting) key) there
    · rw [shut.closed _ _ base] at isOpen
      cases isOpen

theorem UpkeepMoves.settled (h : s.UpkeepMoves s') (settled : s.Settled) :
    s'.Settled ∧ s'.disk = s.disk := by
  induction h with
  | refl => exact ⟨settled, rfl⟩
  | tail _ move ih =>
    have idle := move.idle ih.1
    exact ⟨idle.settled ih.1 fun m => move.drained (ih.1.drained m), idle.disk.trans ih.2⟩

/-- In a shut store writes and upkeep change nothing that is kept. -/
theorem Runs.shut (h : s.Runs Writes s') (layout : s.Layout) (shut : s.Shut) :
    s'.Shut ∧ s'.disk = s.disk := by
  induction h with
  | refl => exact ⟨shut, rfl⟩
  | @tail s₁ _ before move ih =>
    obtain ⟨shut, disk⟩ := ih
    have layout := Runs.layout Writes.layout before layout
    rcases move with upkeep | writes
    · have idle := upkeep.idle shut.toSettled
      exact ⟨idle.shut shut fun m => upkeep.drained (shut.drained m), idle.disk.trans disk⟩
    · obtain ⟨m, p, p', state, rfl⟩ := writes.memory_of_shut layout shut
      have idle : Idle s₁ (s₁.set m (.memory p')) := .set (.memory p') (fun d => nofun) m rfl rfl
      refine ⟨idle.shut shut fun y st w stateY waiting => ?_, disk⟩
      rw [maps_set] at stateY
      split at stateY
      · obtain ⟨-, -, rfl⟩ := Option.map_eq_some_iff.1 stateY
        cases waiting
      · exact shut.drained y st w stateY waiting

/-- A move that closes some map. -/
def Closing (s s' : Store) : Prop := ∃ m, s.Closes m s'

namespace Closing

theorem layout (h : s.Closing s') (layout : s.Layout) : s'.Layout := by
  obtain ⟨m, closes⟩ := h
  exact closes.layout layout

theorem role? (h : s.Closing s') : s'.role? = s.role? := by
  obtain ⟨m, closes⟩ := h
  exact closes.role?

theorem kept {dir : String} {here : Place} {ids : MapIds} (h : s.Closing s')
    (kept : s.Kept dir here ids) : s'.Kept dir here ids := by
  obtain ⟨m, closes⟩ := h
  exact closes.kept kept

end Closing

theorem Runs.closing (h : s.Runs (Closes m) s') : s.Runs Closing s' :=
  Relation.ReflTransGen.mono (fun _ _ move => move.imp_right fun closes => ⟨m, closes⟩) _ _ h

/-- Closing the maps of a settled store leaves it so. -/
theorem Runs.settled (h : s.Runs Closing s') (settled : s.Settled) :
    s'.Settled ∧ s'.disk = s.disk := by
  induction h with
  | refl => exact ⟨settled, rfl⟩
  | tail _ move ih =>
    obtain ⟨settled, disk⟩ := ih
    rcases move with upkeep | ⟨x, closes⟩
    · have idle := upkeep.idle settled
      exact ⟨idle.settled settled fun m => upkeep.drained (settled.drained m), idle.disk.trans disk⟩
    · have drained := fun m => closes.drained (settled.drained m)
      cases closes with
      | memory state =>
        exact ⟨(Idle.set (.memory _) (fun d => nofun) x rfl rfl).settled settled drained, disk⟩
      | marked closed state =>
        exact ⟨(Idle.set (.buffered _) (fun d => nofun) x rfl rfl).settled settled drained, disk⟩
      | base rests clean =>
        refine ⟨⟨fun b d state => ?_, drained⟩, disk⟩
        rw [maps_set] at state
        split at state
        · obtain ⟨-, -, eq⟩ := Option.map_eq_some_iff.1 state
          cases eq
          exact clean
        · exact settled.saved b d state

/-! ## What is achieved lasts -/

namespace Rests

/-- A map rests on one direct map. -/
theorem unique {b' : MapHandle} (h : s.Rests m b d waiting) (h' : s.Rests m b' d' waiting') :
    b' = b ∧ d' = d ∧ waiting' = waiting := by
  have same : b' = b ∧ waiting' = waiting := by
    obtain ⟨rfl, rfl⟩ | ⟨st, front, state, above, rfl, buffer⟩ := h.top
    · obtain ⟨eq, none, -⟩ := h'.of_direct h.base
      exact ⟨eq.symm, none⟩
    · obtain ⟨rfl, rfl⟩ := h'.of_over state above
      exact ⟨rfl, buffer⟩
  obtain ⟨rfl, rfl⟩ := same
  have base := h'.base.symm.trans h.base
  cases base
  exact ⟨rfl, rfl, rfl⟩

/-- The map rested there before, if its role is the same. -/
theorem before (h : s'.Rests m b d waiting) (layout : s.Layout) (roles : s'.role? = s.role?) :
    ∃ d waiting, s.Rests m b d waiting := by
  obtain ⟨rfl, -⟩ | ⟨st, front, state, above, rfl, -⟩ := h.top
  · obtain ⟨d, base, -⟩ := direct_of_role? (roles ▸ h.role)
    exact ⟨d, none, rests_direct base⟩
  · obtain ⟨st, state, above⟩ := over_of_role?
      (show s.role? m = some (.over front) by rw [← roles, role?_of_maps state, above])
    obtain ⟨d, rests⟩ := layout.rests_over state above
    exact ⟨d, st.buffer?, rests⟩

end Rests

namespace Carries

variable (carries : Carries m s s') (layout : s.Layout) (roles : s'.role? = s.role?)

include carries layout roles

theorem cleanAt (clean : s.CleanAt m) : s'.CleanAt m := by
  intro b d' waiting' rests'
  obtain ⟨d, waiting, rests⟩ := rests'.before layout roles
  obtain ⟨d₁, waiting₁, rests₁, -, -, still, -⟩ := carries b d waiting rests
  obtain ⟨-, rfl, rfl⟩ := rests₁.unique rests'
  exact still (clean b d waiting rests)

theorem shutAt (shut : s.ShutAt m) : s'.ShutAt m := by
  intro b d' waiting' rests'
  obtain ⟨d, waiting, rests⟩ := rests'.before layout roles
  obtain ⟨d₁, waiting₁, rests₁, -, -, still, closed⟩ := carries b d waiting rests
  obtain ⟨-, rfl, rfl⟩ := rests₁.unique rests'
  obtain ⟨clean, isClosed⟩ := shut b d waiting rests
  exact ⟨still clean, closed isClosed⟩

end Carries

/-! ## All maps of an engine -/

variable {named : String → Option MapHandle}

/-- The store is settled if every named map is clean. -/
theorem Roster.settled (roster : s.Roster named) (layout : s.Layout)
    (clean : ∀ name m, named name = some m → s.CleanAt m) : s.Settled where
  saved b d base := by
    obtain ⟨t, waiting, given, rests⟩ := roster.rests layout base
    exact (clean d.name t given b d waiting rests).1
  drained m st w state waiting := by
    obtain ⟨front, above⟩ := MapState.over_of_buffer? waiting
    obtain ⟨d, rests⟩ := layout.rests_over state above
    have given := roster.fronts m front (by rw [role?_of_maps state, above])
    exact (clean front.name m given _ d _ rests).2 w waiting

/-- It is shut if every named map is. -/
theorem Roster.shut (roster : s.Roster named) (layout : s.Layout)
    (shut : ∀ name m, named name = some m → s.ShutAt m) : s.Shut where
  toSettled := roster.settled layout fun name m given b d waiting rests =>
    (shut name m given b d waiting rests).1
  closed b d base := by
    obtain ⟨t, waiting, given, rests⟩ := roster.rests layout base
    exact (shut d.name t given b d waiting rests).2

/-! ## The same done to every map -/

/-- A fold that notes refusals and ends with a panic: if nothing is noted in
the end, each member went through. -/
theorem visits_of_foldlM {action : MapHandle → Action Unit}
    {step : Option StoreError → MapHandle → Action (Option StoreError)}
    (went : ∀ failure m s s₁, action m s = .ok () s₁ → step failure m s = .ok failure s₁)
    (refused : ∀ failure m s cause s₁, action m s = .error (.error cause) s₁ →
      ∃ noted, step failure m s = .ok (some noted) s₁)
    (stopped : ∀ failure m s message s₁, action m s = .error (.panic message) s₁ →
      step failure m s = .error (.panic message) s₁)
    (l : List MapHandle) (failure : Option StoreError) (s : Store)
    (run : l.foldlM step failure s = .ok none s') :
    failure = none ∧ ∃ log, Visits action s log s' ∧ log.map Prod.fst = l := by
  induction l generalizing failure s with
  | nil =>
    cases run
    exact ⟨rfl, [], .nil _, rfl⟩
  | cons m rest ih =>
    rw [List.foldlM_cons, Action.run_bind] at run
    cases ended : action m s with
    | ok r s₁ =>
      rw [went failure m s s₁ ended] at run
      obtain ⟨rfl, log, visits, members⟩ := ih _ _ run
      exact ⟨rfl, (m, r) :: log, .cons ended visits, by rw [List.map_cons, members]⟩
    | error fault s₁ =>
      cases fault with
      | error cause =>
        obtain ⟨noted, kept⟩ := refused failure m s cause s₁ ended
        rw [kept] at run
        obtain ⟨forgotten, -⟩ := ih _ _ run
        cases forgotten
      | panic message =>
        rw [stopped failure m s message s₁ ended] at run
        cases run

/-- What is done to every map without a refusal went through for each. -/
theorem visits_of_forEachMap {action : MapHandle → Action Unit} {l : List MapHandle}
    (run : EngineHandle.forEachMap action l s = .ok () s') :
    ∃ log, Visits action s log s' ∧ log.map Prod.fst = l := by
  unfold EngineHandle.forEachMap at run
  rw [Action.run_bind] at run
  split at run
  · rename_i failure s₁ folded
    cases failure with
    | some cause => cases run
    | none =>
      cases run
      refine (visits_of_foldlM ?_ ?_ ?_ l none s folded).2
      · intro failure m s s₁ went
        simp [Action.run_attempt, went, EngineHandle.firstFailure]
      · intro failure m s cause s₁ refused
        exact ⟨failure.getD cause, by
          simp [Action.run_attempt, refused, EngineHandle.firstFailure]⟩
      · intro failure m s message s₁ stopped
        simp [Action.run_attempt, stopped]
  · cases run

/-! ### Saves -/

variable {live : LiveHandle} {dir : String} {here : Place} {ids : MapIds}

/-- A map that was saved stays saved while others are. -/
theorem cleaned_of_saves {log : List (MapHandle × Unit)} (visits : Visits MapHandle.save s log s')
    (layout : s.Layout)
    (ready : ∀ m ∈ log.map Prod.fst, s.role? m ≠ some .memory → s.Top m ∧ s.OpenAt m) :
    s.UpkeepMoves s' ∧ ∀ m ∈ log.map Prod.fst, s.role? m ≠ some .memory → s'.CleanAt m := by
  induction visits with
  | nil => exact ⟨.refl, nofun⟩
  | @cons x r log s s₁ s₂ visit rest ih =>
    obtain ⟨first, clean⟩ := save_moves layout x
    rw [Action.after_of_ok visit] at first
    have layout₁ := first.layout layout
    have roles := first.role?
    obtain ⟨later, cleaned⟩ := ih layout₁ fun m mem lasting => by
      obtain ⟨top, isOpen⟩ := ready m (List.mem_cons_of_mem _ mem) (roles ▸ lasting)
      exact ⟨top.congr roles, first.openAt isOpen⟩
    refine ⟨first.trans later, fun m mem lasting => ?_⟩
    rcases List.mem_cons.1 mem with rfl | mem
    · obtain ⟨top, isOpen⟩ := ready m (List.mem_cons_self ..) lasting
      exact (later.carries layout₁ (top.congr roles)).cleanAt layout₁ later.role?
        (clean s₁ visit isOpen)
    · exact cleaned m mem (roles ▸ lasting)

/-- Saving every map of an open engine without a refusal settles them. -/
theorem Furnished.settled_of_saves (h : s.Furnished live named dir here ids)
    {l : List MapHandle} (all : ∀ m, m ∈ l ↔ ∃ name, named name = some m)
    (run : EngineHandle.forEachMap MapHandle.save l s = .ok () s') : s'.Settled := by
  obtain ⟨log, visits, rfl⟩ := visits_of_forEachMap run
  have layout := h.kept.layout
  obtain ⟨upkept, cleaned⟩ := cleaned_of_saves visits layout fun m mem lasting => by
    obtain ⟨name, given⟩ := (all m).1 mem
    exact ⟨h.roster.top layout given, h.opened m lasting⟩
  refine (h.roster.congr upkept.role?).settled (upkept.layout layout) fun name m given => ?_
  intro b d waiting rests
  have lasting : s.role? m ≠ some .memory := upkept.role? ▸ rests.lasting
  exact cleaned m ((all m).2 ⟨name, given⟩) lasting b d waiting rests

/-! ### Closes -/

/-- The map and the one it rests on are open. -/
def Openable (s : Store) (m : MapHandle) : Prop :=
  s.OpenAt m ∧ ∀ b d waiting, s.Rests m b d waiting → s.OpenAt b

/-- Different maps on top rest on different direct maps. -/
theorem Rests.single {x : MapHandle} (h : s.Rests x b d waiting) (h' : s.Rests m b d' waiting')
    (layout : s.Layout) (topX : s.Top x) (topM : s.Top m) : x = m := by
  obtain ⟨rfl, -⟩ | ⟨stx, frontX, stateX, overX, below, -⟩ := h.top
  · obtain ⟨rfl, -⟩ | ⟨st, front, state, above, below, -⟩ := h'.top
    · rfl
    · exact absurd below (topX m front (by rw [role?_of_maps state, above]))
  · obtain ⟨rfl, -⟩ | ⟨st, front, state, above, below', -⟩ := h'.top
    · exact absurd below (topM x frontX (by rw [role?_of_maps stateX, overX]))
    · exact layout.single x m frontX front (by rw [role?_of_maps stateX, overX])
        (by rw [role?_of_maps state, above]) (below.trans below'.symm)

/-- Closing one map on top leaves the others open. -/
theorem Closes.openable {x : MapHandle} (h : s.Closes x s') (layout : s.Layout) (topX : s.Top x)
    (topM : s.Top m) (ne : x ≠ m) (ready : s.Openable m) : s'.Openable m := by
  refine ⟨h.openAt ready.1 ne fun d waiting rests => ?_, fun b d waiting rests => ?_⟩
  · obtain ⟨rfl, -⟩ | ⟨st, front, state, above, below, -⟩ := rests.top
    · exact ne rfl
    · exact topM x front (by rw [role?_of_maps state, above]) below
  · obtain ⟨d, waiting, rests⟩ := rests.before layout h.role?
    refine h.openAt (ready.2 b d waiting rests) ?_ fun d' waiting' rests' =>
      ne (rests'.single rests layout topX topM)
    rintro rfl
    obtain ⟨rfl, -⟩ | ⟨st, front, state, above, below, -⟩ := rests.top
    · exact ne rfl
    · exact topX m front (by rw [role?_of_maps state, above]) below

theorem UpkeepMove.openable (h : s.UpkeepMove s') (layout : s.Layout) (ready : s.Openable m) :
    s'.Openable m := by
  refine ⟨h.openAt ready.1, fun b d waiting rests => ?_⟩
  obtain ⟨d, waiting, rests⟩ := rests.before layout h.role?
  exact h.openAt (ready.2 b d waiting rests)

theorem Runs.openable {x : MapHandle} (h : s.Runs (Closes x) s') (layout : s.Layout)
    (topX : s.Top x) (topM : s.Top m) (ne : x ≠ m) (ready : s.Openable m) : s'.Openable m := by
  induction h with
  | refl => exact ready
  | tail before move ih =>
    have layout := Runs.layout Closes.layout before layout
    have roles := Runs.role? Closes.role? before
    rcases move with upkeep | closes
    · exact upkeep.openable layout ih
    · exact closes.openable layout (topX.congr roles) (topM.congr roles) ne ih

theorem Runs.carries (h : s.Runs Closing s') (layout : s.Layout) (top : s.Top m) :
    Carries m s s' := by
  induction h with
  | refl => exact .refl m _
  | tail before move ih =>
    have layout := Runs.layout Closing.layout before layout
    have roles := Runs.role? Closing.role? before
    rcases move with upkeep | ⟨x, closes⟩
    · exact ih.trans (upkeep.carries layout (top.congr roles))
    · exact ih.trans (closes.carries m)

/-- A map that was closed stays so while others are. -/
theorem shut_of_closes {log : List (MapHandle × Unit)} (visits : Visits MapHandle.close s log s')
    (layout : s.Layout)
    (ready : ∀ m ∈ log.map Prod.fst, s.Top m ∧ (s.Openable m ∨ s.ShutAt m)) :
    s.Runs Closing s' ∧ ∀ m ∈ log.map Prod.fst, s'.ShutAt m := by
  induction visits with
  | nil => exact ⟨.refl, nofun⟩
  | @cons x r log s s₁ s₂ visit rest ih =>
    obtain ⟨closes, shut⟩ := close_runs layout x
    rw [Action.after_of_ok visit] at closes
    have layout₁ := Runs.layout Closes.layout closes layout
    have roles := Runs.role? Closes.role? closes
    have stays : ∀ {m}, s.Top m → s.ShutAt m → s₁.ShutAt m := fun top already =>
      (closes.closing.carries layout top).shutAt layout roles already
    obtain ⟨topX, readyX⟩ := ready x (List.mem_cons_self ..)
    have self : s₁.ShutAt x :=
      readyX.elim (fun isOpen => shut s₁ visit (isOpen.1.sealable isOpen.2)) (stays topX)
    obtain ⟨later, others⟩ := ih layout₁ fun m mem => by
      obtain ⟨top, state⟩ := ready m (List.mem_cons_of_mem _ mem)
      refine ⟨top.congr roles, ?_⟩
      by_cases same : x = m
      · exact .inr (same ▸ self)
      · exact state.imp (closes.openable layout topX top same) (stays top)
    refine ⟨closes.closing.trans later, fun m mem => ?_⟩
    rcases List.mem_cons.1 mem with rfl | mem
    · exact (later.carries layout₁ (topX.congr roles)).shutAt layout₁
        (Runs.role? Closing.role? later) self
    · exact others m mem

/-- Closing every map of an open engine without a refusal shuts them. -/
theorem Furnished.shut_of_closes (h : s.Furnished live named dir here ids)
    {l : List MapHandle} (all : ∀ m, m ∈ l ↔ ∃ name, named name = some m)
    (run : EngineHandle.forEachMap MapHandle.close l s = .ok () s') :
    s.Runs Closing s' ∧ s'.Shut := by
  obtain ⟨log, visits, rfl⟩ := visits_of_forEachMap run
  have layout := h.kept.layout
  have top : ∀ m ∈ log.map Prod.fst, s.Top m := fun m mem => by
    obtain ⟨name, given⟩ := (all m).1 mem
    exact h.roster.top layout given
  obtain ⟨closes, shut⟩ := Store.shut_of_closes visits layout fun m mem => by
    refine ⟨top m mem, ?_⟩
    by_cases memory : s.role? m = some .memory
    · exact .inr fun b d waiting rests => absurd memory rests.lasting
    · refine .inl ⟨h.opened m memory, fun b d waiting rests => h.opened b ?_⟩
      rw [rests.role]
      nofun
  have roles := Runs.role? Closing.role? closes
  have layout' := Runs.layout Closing.layout closes layout
  exact ⟨closes, (h.roster.congr roles).shut layout' fun name m given =>
    shut m ((all m).2 ⟨name, given⟩)⟩

/-! ### Ticks -/

/-- Where nothing waits no save undoes another. -/
theorem UpkeepMove.savedAt (h : s.UpkeepMove s') (drained : ∀ m, s.Drained m)
    (saved : s.SavedAt b) :
    s'.SavedAt b := by
  have others : ∀ {s₁ : Store} {m : MapHandle} {st : MapState}, s₁.maps = s.maps →
      (∀ d, st ≠ .direct d) → (s₁.set m st).SavedAt b := by
    intro s₁ m st maps notDirect d state
    exact saved d (direct_of_set notDirect maps state)
  cases h with
  | metered meters => exact saved
  | counted units => exact saved
  | merged state above waiting first base wrote =>
    have nothing := drained _ _ _ state waiting
    rw [first] at nothing
    cases nothing
  | @saved b₀ d₀ base =>
    intro d state
    rw [maps_set] at state
    split at state
    · rename_i same
      subst same
      rw [DirectMap.save_of_clean (saved d₀ base), base] at state
      cases state
      exact saved d₀ base
    · exact saved d state
  | entered state direct alive => exact others rfl fun d => nofun
  | left state drained =>
    refine others ?_ fun d => nofun
    split <;> rfl

theorem UpkeepMoves.savedAt (h : s.UpkeepMoves s') (drained : ∀ m, s.Drained m)
    (saved : s.SavedAt b) :
    s'.SavedAt b := by
  induction h with
  | refl => exact saved
  | tail before move ih => exact move.savedAt (fun m => UpkeepMoves.drained before (drained m)) ih

/-- A save without a refusal. -/
theorem SavedAt.of_save (layout : s.Layout) (run : b.save s = .ok () s') : s'.SavedAt b := by
  intro d' state'
  have roles := (save_moves layout b).1.role?
  rw [Action.after_of_ok run] at roles
  obtain ⟨d, base, -⟩ := direct_of_role? (show s.role? b = some (.base d'.toBase) by
    rw [← roles, role?_of_maps state']
    rfl)
  obtain ⟨d'', base', clean⟩ := (save_direct base).2 s' run
  rw [state'] at base'
  cases base'
  exact clean

/-- The visit of an attempt that did not fail. -/
theorem ok_of_attempt {α : Type} {a : Action α} {r : Except Fault α}
    (visit : Action.attempt a s = .ok r s') (ok : r.isOk = true) : ∃ x, a s = .ok x s' := by
  rw [Action.run_attempt] at visit
  cases run : a s with
  | ok x s₁ =>
    rw [run] at visit
    cases visit
    exact ⟨x, rfl⟩
  | error fault s₁ =>
    rw [run] at visit
    cases visit
    cases ok

theorem Keeping.of_evaluations {policy : ModePolicy} {log : List (MapHandle × Decision)}
    (visits : Visits (Tick.evaluate policy) s log s') : Keeping s s' :=
  visits.keeps Keeping.refl Keeping.trans fun m _ s _ run =>
    Action.after_of_ok run ▸ Keeping.evaluate policy m s

/-- A buffer that was drained stays so while others are. -/
theorem drained_of_merges {log : List (MergeUnit × Except Fault MergeStats)}
    (visits : Visits (fun u => Action.attempt (MergeUnit.run u)) s log s') (layout : s.Layout)
    (ok : ∀ e ∈ log, e.2.isOk = true) :
    s.UpkeepMoves s' ∧ ∀ m, .map m ∈ log.map Prod.fst → s'.Drained m := by
  induction visits with
  | nil => exact ⟨.refl, nofun⟩
  | @cons u r log s s₁ s₂ visit rest ih =>
    obtain ⟨stats, run⟩ := ok_of_attempt visit (ok _ (List.mem_cons_self ..))
    have first := Keeping.run u s layout
    rw [Action.after_of_ok run] at first
    obtain ⟨later, drained⟩ :=
      ih (first.layout layout) fun e mem => ok e (List.mem_cons_of_mem _ mem)
    refine ⟨first.trans later, fun m mem => ?_⟩
    rcases List.mem_cons.1 mem with same | mem
    · obtain rfl := same
      exact later.drained ((merge_moves layout m).2 stats s₁ run)
    · exact drained m mem

/-- Where nothing waits a direct map that was saved stays so while others are. -/
theorem saved_of_saves {log : List (MapHandle × Except Fault Unit)}
    (visits : Visits (fun m => Action.attempt (MapHandle.save m)) s log s') (layout : s.Layout)
    (drained : ∀ m, s.Drained m) (ok : ∀ e ∈ log, e.2.isOk = true) :
    s.UpkeepMoves s' ∧ ∀ b ∈ log.map Prod.fst, s'.SavedAt b := by
  induction visits with
  | nil => exact ⟨.refl, nofun⟩
  | @cons x r log s s₁ s₂ visit rest ih =>
    obtain ⟨done, run⟩ := ok_of_attempt visit (ok _ (List.mem_cons_self ..))
    have first := Keeping.save x s layout
    rw [Action.after_of_ok run] at first
    have drained₁ := fun m => first.drained (drained m)
    obtain ⟨later, saved⟩ := ih (first.layout layout) drained₁
      fun e mem => ok e (List.mem_cons_of_mem _ mem)
    refine ⟨first.trans later, fun b mem => ?_⟩
    rcases List.mem_cons.1 mem with rfl | mem
    · exact later.savedAt drained₁ (.of_save layout run)
    · exact saved b mem

end Store

/-- Nothing that the tick visited failed. -/
def TickReport.Faultless (r : TickReport) : Prop :=
  r.switchFailures = 0 ∧ r.mergeFailures = 0 ∧ r.flushFailures = 0

instance (r : TickReport) : Decidable r.Faultless :=
  inferInstanceAs (Decidable (_ ∧ _ ∧ _))

/-- A tick that reports no failure had none among its visits. -/
theorem Tick.ok_of_faultless {evaluations : List (MapHandle × Decision)}
    {merges : List (MergeUnit × Except Fault MergeStats)}
    {saves : List (MapHandle × Except Fault Unit)}
    (faultless : (counted evaluations merges saves).Faultless) :
    (∀ e ∈ evaluations, Decision.failed e.2 = false) ∧ (∀ e ∈ merges, e.2.isOk = true) ∧
      ∀ e ∈ saves, e.2.isOk = true := by
  rw [counted, TickReport.foldl_countEvaluation, TickReport.foldl_countMerge,
    TickReport.foldl_countFlush] at faultless
  obtain ⟨switches, merged, flushed⟩ := faultless
  refine ⟨?_, ?_, ?_⟩
  · simpa using List.countP_eq_zero.1 (Nat.add_eq_zero_iff.1 switches).2
  · simpa using List.countP_eq_zero.1 (Nat.add_eq_zero_iff.1 merged).2
  · simpa using List.countP_eq_zero.1 (Nat.add_eq_zero_iff.1 flushed).2

namespace Store

variable {s s' : Store} {live : LiveHandle} {dir : String} {here : Place} {ids : MapIds}
  {named : String → Option MapHandle}

/-- A tick of an open engine that reports no failure settles its maps. -/
theorem Furnished.settled_of_tick {policy : ModePolicy} {report : TickReport}
    (h : s.Furnished live named dir here ids) (run : Tick.run live policy s = .ok report s')
    (faultless : report.Faultless) : s'.Settled := by
  obtain ⟨s₁, s₂, evaluations, merges, saves, ⟨visits₁, -, visits₂, each₂, visits₃, each₃⟩,
    rfl⟩ := Tick.phases_of_run run
  obtain ⟨-, merged, flushed⟩ := Tick.ok_of_faultless faultless
  -- deciding the modes leaves the maps of the engine as they should be
  have furnished₁ := (Keeping.of_evaluations visits₁ h.kept.layout).furnished h
  obtain ⟨upkept₂, drained⟩ := drained_of_merges visits₂ furnished₁.kept.layout merged
  have furnished₂ := upkept₂.furnished furnished₁
  -- all buffers there are were on the list
  have all : ∀ m, s₂.Drained m := fun m st w state waiting => by
    have listed := furnished₂.listed.waiting m st w state waiting
    rw [(Quiet.of_merges visits₂).liveSets, ← each₂] at listed
    exact drained m listed st w state waiting
  obtain ⟨upkept₃, saved⟩ := saved_of_saves visits₃ furnished₂.kept.layout all flushed
  refine ⟨fun b d state => ?_, fun m => upkept₃.drained (all m)⟩
  have role : s₂.role? b = some (.base d.toBase) := by
    rw [← upkept₃.role?, role?_of_maps state]
    rfl
  have listed := furnished₂.listed.bases b d.toBase role
  rw [← each₃] at listed
  exact saved b listed d state

end Store

end MapStore
