/-
MapStore.Proofs.Moves — the single moves that the calls of an engine consist of.

Whatever is called in a store that is laid out as an engine does it, the store
changes by moves of a few sorts. Some leave what every map shows (`UpkeepMove`): a
slot is merged, a direct map is saved, an adaptive map changes its mode. Some
make a change that a caller wants (`Writes`), and some close a map (`Closes`).

Each move is looked at once: it leaves the roles of all maps and the layout,
and the first sort also carries over the content of every map that no other
stands on (`Carries`). Calls are runs of moves, so what is true of each move is
true of them.
-/
import Mathlib.Logic.Relation
import MapStore.Proofs.Calls
import MapStore.Proofs.Layout
import MapStore.Proofs.Switching

namespace MapStore

open Relation (ReflTransGen)

/-! ## Direct maps -/

namespace DirectMap

variable {d d' : DirectMap} {key : Bytes} {c : Change} {previous : Option Bytes}

/-- What a write makes of a direct map. -/
theorem of_write (h : d.write key c = .ok (previous, d')) :
    d.closed = false ∧ d' = { d with
      table := (PlainMap.change d.table key c).2
      dirty := d.dirty || (c != .tombstone || (d.table.get? key).isSome) } := by
  obtain ⟨plain, made, rfl⟩ := write_eq_ok.1 h
  obtain ⟨isOpen, -, rfl, rfl⟩ := PlainMap.write_eq_ok.1 made
  exact ⟨isOpen, rfl⟩

theorem toBase_of_write (h : d.write key c = .ok (previous, d')) : d'.toBase = d.toBase := by
  obtain ⟨-, rfl⟩ := of_write h
  simp [toBase, PlainMap.order_change]

/-- There is nothing to save of a map that is not dirty. -/
theorem save_of_clean (h : d.dirty = false) (disk : Disk) : d.save disk = (.ok (), d, disk) := by
  have same : { d with dirty := false } = d := by
    rw [← h]
  unfold save
  split
  · rw [same]
  · rw [h]
    rfl

/-- A save that succeeds leaves the map not dirty. -/
theorem clean_of_save {disk : Disk} (h : (d.save disk).1 = .ok ()) :
    (d.save disk).2.1.dirty = false := by
  revert h
  unfold save
  split
  · exact fun _ => rfl
  · split
    · split
      · exact fun _ => rfl
      · exact nofun
    · rename_i clean
      exact fun _ => by simpa using clean

end DirectMap

namespace Store

variable {s s' s'' : Store} {m b : MapHandle}

/-! ## Moves -/

/-- A move that leaves what maps show. -/
inductive UpkeepMove (s : Store) : Store → Prop where
  | metered (meters : List AccessMeter) : UpkeepMove s { s with meters }
  | counted (units : List StandIn) : UpkeepMove s { s with units }
  /-- The first waiting change is made to the map below and waits no longer. -/
  | merged {m : MapHandle} {st : MapState} {front : Front} {w : WriteBuffer} {key : Bytes}
      {slot : Slot} {rest : List (Bytes × Slot)} {d d' : DirectMap} {previous : Option Bytes}
      (state : s.maps[m.index]? = some st) (above : st.role = .over front)
      (waiting : st.buffer? = some w) (first : w.snapshot = (key, slot) :: rest)
      (base : s.maps[front.backing.index]? = some (.direct d))
      (wrote : d.write key slot.change = .ok (previous, d')) :
      UpkeepMove s ((s.set front.backing (.direct d')).set m
        (st.withBuffer (w.eraseUnchanged key slot.seq).2))
  | saved {b : MapHandle} {d : DirectMap} (base : s.maps[b.index]? = some (.direct d)) :
      UpkeepMove s (({ s with disk := (d.save s.disk).2.2 } : Store).set b
        (.direct (d.save s.disk).2.1))
  | entered {m : MapHandle} {a : AdaptiveMap} (state : s.maps[m.index]? = some (.adaptive a))
      (direct : a.buffer = none) (alive : (s.liveSets a.live).alive = true) :
      UpkeepMove s ((s.withListed a.live ((s.liveSets a.live).buffered.insert (.map m)).2).set m
        (.adaptive { a with buffer := some (.empty a.keyType.compare) }))
  | left {m : MapHandle} {a : AdaptiveMap} (state : s.maps[m.index]? = some (.adaptive a))
      (drained : ∀ w, a.buffer = some w → w.snapshot = []) :
      UpkeepMove s ((if (s.liveSets a.live).alive then
          s.withListed a.live ((s.liveSets a.live).buffered.erase (.map m)).2
        else s).set m (.adaptive { a with buffer := none }))

/-- A move that makes a change for a caller. -/
inductive Writes (s : Store) : Store → Prop where
  | memory {m : MapHandle} {p p' : PlainMap} {key : Bytes} {c : Change} {previous : Option Bytes}
      (state : s.maps[m.index]? = some (.memory p)) (wrote : p.write key c = .ok (previous, p')) :
      Writes s (s.set m (.memory p'))
  | direct {m : MapHandle} {d d' : DirectMap} {key : Bytes} {c : Change}
      {previous : Option Bytes} (state : s.maps[m.index]? = some (.direct d))
      (wrote : d.write key c = .ok (previous, d')) : Writes s (s.set m (.direct d'))
  /-- A change that the data types admit waits; the map below was asked if
  nothing waited for the key. -/
  | buffered {m : MapHandle} {st : MapState} {front : Front} {w : WriteBuffer} {d : DirectMap}
      {key : Bytes} {c : Change} (state : s.maps[m.index]? = some st)
      (above : st.role = .over front) (waiting : st.buffer? = some w)
      (base : s.maps[front.backing.index]? = some (.direct d))
      (seen : w.get? key ≠ none ∨ d.closed = false)
      (admitted : PlainMap.checkChange front.keyType front.valueType key c = .ok ()) :
      Writes s (s.set m (st.withBuffer (w.insert key c).2))

/-- A move that closes the map `m`. -/
inductive Closes (m : MapHandle) (s : Store) : Store → Prop where
  | memory {p : PlainMap} (state : s.maps[m.index]? = some (.memory p)) :
      Closes m s (s.set m (.memory p.close))
  | marked {x : BufferedMap} (closed : Bool) (state : s.maps[m.index]? = some (.buffered x)) :
      Closes m s (s.set m (.buffered { x with closed }))
  | base {b : MapHandle} {d : DirectMap} {waiting : Option WriteBuffer}
      (rests : s.Rests m b d waiting) (clean : d.dirty = false)
      (drained : ∀ w, waiting = some w → w.snapshot = []) :
      Closes m s (s.set b (.direct { d with closed := true }))

/-- A map over another is not the one below it. -/
theorem ne_of_role {st : MapState} {front : Front} {d : DirectMap}
    (state : s.maps[m.index]? = some st) (above : st.role = .over front)
    (base : s.maps[b.index]? = some (.direct d)) : b ≠ m := by
  rintro rfl
  rw [base] at state
  cases state
  cases above

/-- The direct map that is found below is the one that is stood on. -/
theorem Rests.eq_of_base {d d' : DirectMap} {waiting : Option WriteBuffer}
    (h : s.Rests m b d waiting) (base : s.maps[b.index]? = some (.direct d')) : d' = d := by
  rw [h.base] at base
  cases base
  rfl

/-- A direct map that is not the one below is not the one on top either. -/
theorem Rests.ne_of_base {d d' : DirectMap} {b' : MapHandle} {waiting : Option WriteBuffer}
    (h : s.Rests m b d waiting) (base : s.maps[b'.index]? = some (.direct d')) (ne : b' ≠ b) :
    b' ≠ m := by
  rintro rfl
  exact ne (h.of_direct base).1

/-! ## Roles and layout -/

theorem UpkeepMove.role? (h : s.UpkeepMove s') : s'.role? = s.role? := by
  cases h with
  | metered meters => rfl
  | counted units => rfl
  | merged state above waiting first base wrote =>
    have ne := ne_of_role state above base
    rw [role?_set ((maps_set_of_ne s _ ne).trans state) (MapState.role_withBuffer ..),
      role?_set base]
    exact congrArg Role.base (DirectMap.toBase_of_write wrote)
  | @saved b d base =>
    obtain ⟨dirty, eq⟩ := d.save_map s.disk
    have role : (MapState.direct (d.save s.disk).2.1).role = (MapState.direct d).role := by
      rw [eq]
      rfl
    exact role?_set (s := { s with disk := (d.save s.disk).2.2 }) base role
  | entered state direct alive =>
    exact role?_set (s := s.withListed _ _) state rfl
  | left state drained =>
    split
    · exact role?_set (s := s.withListed _ _) state rfl
    · exact role?_set state rfl

theorem Writes.role? (h : s.Writes s') : s'.role? = s.role? := by
  cases h with
  | memory state wrote => exact role?_set state rfl
  | direct state wrote =>
    exact role?_set state (congrArg Role.base (DirectMap.toBase_of_write wrote))
  | buffered state above waiting base seen =>
    exact role?_set state (MapState.role_withBuffer ..)

theorem Closes.role? (h : s.Closes m s') : s'.role? = s.role? := by
  cases h with
  | memory state => exact role?_set state rfl
  | marked closed state => exact role?_set state rfl
  | base rests clean => exact role?_set rests.base rfl

/-- No buffer is in the place of a direct map. -/
theorem Layout.set_direct {d d' : DirectMap} (h : s.Layout)
    (state : s.maps[m.index]? = some (.direct d)) (same : d'.toBase = d.toBase) :
    (s.set m (.direct d')).Layout :=
  h.set state (congrArg Role.base same) fun _ _ waiting => nomatch waiting

/-- Another buffer in the same order. -/
theorem Layout.set_buffer {st : MapState} {w w' : WriteBuffer} (h : s.Layout)
    (state : s.maps[m.index]? = some st) (waiting : st.buffer? = some w)
    (order : w'.slots.order = w.slots.order) : (s.set m (st.withBuffer w')).Layout := by
  refine h.set state (MapState.role_withBuffer ..) fun w'' front eq above => ?_
  rw [MapState.buffer?_withBuffer waiting] at eq
  cases eq
  rw [order]
  exact h.orders m st w front state waiting ((MapState.role_withBuffer ..).symm.trans above)

theorem UpkeepMove.layout (h : s.UpkeepMove s') (layout : s.Layout) : s'.Layout := by
  cases h with
  | metered meters => exact layout.of_maps rfl
  | counted units => exact layout.of_maps rfl
  | merged state above waiting first base wrote =>
    have ne := ne_of_role state above base
    have based := layout.set_direct base (DirectMap.toBase_of_write wrote)
    exact based.set_buffer ((maps_set_of_ne s _ ne).trans state) waiting
      (WriteBuffer.order_slots_eraseUnchanged ..)
  | @saved b d base =>
    obtain ⟨dirty, eq⟩ := d.save_map s.disk
    have stored : ({ s with disk := (d.save s.disk).2.2 } : Store).Layout := layout.of_maps rfl
    refine stored.set_direct base ?_
    rw [eq]
    rfl
  | @entered m a state direct alive =>
    have listed : (s.withListed a.live ((s.liveSets a.live).buffered.insert (.map m)).2).Layout :=
      layout.of_maps rfl
    refine listed.set state rfl fun w front eq above => ?_
    cases eq
    cases above
    rfl
  | @left m a state drained =>
    have listed : (s.withListed a.live ((s.liveSets a.live).buffered.erase (.map m)).2).Layout :=
      layout.of_maps rfl
    split
    · exact listed.set state rfl fun _ _ eq => nomatch eq
    · exact layout.set state rfl fun _ _ eq => nomatch eq

theorem Writes.layout (h : s.Writes s') (layout : s.Layout) : s'.Layout := by
  cases h with
  | memory state wrote => exact layout.set state rfl fun _ _ eq => nomatch eq
  | direct state wrote => exact layout.set_direct state (DirectMap.toBase_of_write wrote)
  | buffered state above waiting base seen =>
    exact layout.set_buffer state waiting (WriteBuffer.order_slots_insert ..)

theorem Closes.layout (h : s.Closes m s') (layout : s.Layout) : s'.Layout := by
  cases h with
  | memory state => exact layout.set state rfl fun _ _ eq => nomatch eq
  | @marked x closed state =>
    refine layout.set state rfl fun w front eq above => ?_
    exact layout.orders m _ w front state eq above
  | base rests clean => exact layout.set_direct rests.base rfl

/-! ## What maps show -/

/-- A step after which the map has the content it had, is as clean, and the
map below is the same and as open. -/
def Carries (m : MapHandle) (s s' : Store) : Prop :=
  ∀ b d waiting, s.Rests m b d waiting → ∃ d' waiting', s'.Rests m b d' waiting' ∧
    d'.toBase = d.toBase ∧ content d' waiting' = content d waiting ∧
    (Clean d waiting → Clean d' waiting') ∧ (d.closed = true → d'.closed = true)

namespace Carries

theorem refl (m : MapHandle) (s : Store) : Carries m s s := fun _ d waiting rests =>
  ⟨d, waiting, rests, rfl, rfl, id, id⟩

theorem trans (h : Carries m s s') (h' : Carries m s' s'') : Carries m s s'' := by
  intro b d waiting rests
  obtain ⟨d', waiting', rests', same, content', clean, closed⟩ := h b d waiting rests
  obtain ⟨d'', waiting'', rests'', same', content'', clean', closed'⟩ := h' b d' waiting' rests'
  exact ⟨d'', waiting'', rests'', same'.trans same, content''.trans content', clean' ∘ clean,
    closed' ∘ closed⟩

theorem of_maps (same : s'.maps = s.maps) : Carries m s s' := fun _ d waiting rests =>
  ⟨d, waiting, rests.of_maps same, rfl, rfl, id, id⟩

/-- A step of maps that have nothing to do with this one. -/
theorem set_other {y : MapHandle} (st : MapState)
    (other : ∀ b d waiting, s.Rests m b d waiting → y ≠ m ∧ y ≠ b) : Carries m s (s.set y st) := by
  intro b d waiting rests
  obtain ⟨neM, neB⟩ := other b d waiting rests
  exact ⟨d, waiting, rests.set_other st neM neB, rfl, rfl, id, id⟩

/-- Another map in the place of an in-memory one. -/
theorem set_memory {y : MapHandle} {p : PlainMap} (st : MapState)
    (state : s.maps[y.index]? = some (.memory p)) : Carries m s (s.set y st) := by
  refine set_other st fun b d waiting rests => ⟨?_, ?_⟩
  · rintro rfl
    exact rests.lasting (role?_of_maps state)
  · rintro rfl
    rw [rests.base] at state
    cases state

/-- A direct map in the place of one with the same entries. -/
theorem set_direct {d₀ d' : DirectMap} (base : s.maps[b.index]? = some (.direct d₀))
    (same : d'.toBase = d₀.toBase) (table : d'.table = d₀.table)
    (clean : d₀.dirty = false → d'.dirty = false) (closed : d₀.closed = true → d'.closed = true) :
    Carries m s (s.set b (.direct d')) := by
  intro b' d waiting rests
  by_cases own : b = b'
  · subst own
    obtain rfl := rests.eq_of_base base
    refine ⟨d', waiting, rests.set_base d', same, ?_, fun was => ⟨clean was.1, was.2⟩, closed⟩
    unfold content
    rw [table]
  · exact ⟨d, waiting, rests.set_other _ (rests.ne_of_base base own) own, rfl, rfl, id, id⟩

/-- Other waiting writes, which come to the same, for a map over another. -/
theorem set_over {y : MapHandle} {st st' : MapState} {front : Front}
    (state : s.maps[y.index]? = some st) (above : st.role = .over front)
    (role : st'.role = st.role) (same : ∀ d, content d st'.buffer? = content d st.buffer?)
    (drained : (∀ w, st.buffer? = some w → w.snapshot = []) →
      ∀ w, st'.buffer? = some w → w.snapshot = []) : Carries m s (s.set y st') := by
  intro b d waiting rests
  by_cases own : y = m
  · subst own
    obtain ⟨-, rfl⟩ := rests.of_over state above
    exact ⟨d, _, rests.set_top state above role, rfl, same d, fun was => ⟨was.1, drained was.2⟩,
      id⟩
  · exact ⟨d, waiting, rests.set_other _ own (ne_of_role state above rests.base).symm, rfl, rfl,
      id, id⟩

/-- The first waiting write moves from the map above to the one below, where it
comes to the same. -/
theorem set_merged {y : MapHandle} {st : MapState} {front : Front} {w : WriteBuffer} {key : Bytes}
    {slot : Slot} {rest : List (Bytes × Slot)} {d₀ d' : DirectMap} {previous : Option Bytes}
    (layout : s.Layout) (top : s.Top m) (state : s.maps[y.index]? = some st)
    (above : st.role = .over front) (waiting : st.buffer? = some w)
    (first : w.snapshot = (key, slot) :: rest)
    (base : s.maps[front.backing.index]? = some (.direct d₀))
    (wrote : d₀.write key slot.change = .ok (previous, d')) :
    Carries m s ((s.set front.backing (.direct d')).set y
      (st.withBuffer (w.eraseUnchanged key slot.seq).2)) := by
  intro b d waiting₀ rests
  have stands : s.role? y = some (.over front) := by rw [role?_of_maps state, above]
  by_cases own : y = m
  · subst own
    obtain ⟨rfl, rfl⟩ := rests.of_over state above
    obtain rfl := rests.eq_of_base base
    have order := rests.order layout waiting
    have lawful : Std.TransCmp w.slots.order := order.1 ▸ order.2
    have left := (WriteBuffer.snapshot_drop_head w first).2
    have state' := (maps_set_of_ne s (.direct d') (ne_of_role state above base)).trans state
    have moved := (rests.set_base d').set_top state' above
      (MapState.role_withBuffer st (w.eraseUnchanged key slot.seq).2)
    obtain ⟨-, eq⟩ := DirectMap.of_write wrote
    refine ⟨d', _, moved, DirectMap.toBase_of_write wrote, ?_, fun clean => ?_, fun closed => ?_⟩
    · rw [MapState.buffer?_withBuffer waiting, waiting, eq]
      exact WriteBuffer.overTable_drop first left d₀.table
    · have nothing := clean.2 w waiting
      rw [first] at nothing
      cases nothing
    · rw [eq]
      exact closed
  · -- the map below is not this one's either, since no other stands on it
    have neB : front.backing ≠ b := by
      rintro rfl
      obtain ⟨rfl, -⟩ | ⟨stm, front', stateM, over', same, -⟩ := rests.top
      · exact top y front stands rfl
      · exact own (layout.single y m front front' stands (by rw [role?_of_maps stateM, over'])
          same.symm)
    have below := rests.set_other (.direct d') (top y front stands) neB
    exact ⟨d, waiting₀, below.set_other _ own (ne_of_role state above rests.base).symm, rfl, rfl,
      id, id⟩

end Carries

theorem UpkeepMove.carries (h : s.UpkeepMove s') (layout : s.Layout) (top : s.Top m) :
    Carries m s s' := by
  cases h with
  | metered meters => exact .of_maps rfl
  | counted units => exact .of_maps rfl
  | merged state above waiting first base wrote =>
    exact .set_merged layout top state above waiting first base wrote
  | @saved b d base =>
    obtain ⟨dirty, eq⟩ := d.save_map s.disk
    have stored : Carries m s ({ s with disk := (d.save s.disk).2.2 } : Store) := .of_maps rfl
    refine stored.trans (.set_direct base ?_ ?_ (fun clean => ?_) fun closed => ?_)
    · rw [eq]
      rfl
    · rw [eq]
    · rw [DirectMap.save_of_clean clean]
      exact clean
    · rw [eq]
      exact closed
  | @entered y a state direct alive =>
    have listed : Carries m s
        (s.withListed a.live ((s.liveSets a.live).buffered.insert (.map y)).2) := .of_maps rfl
    have empty := WriteBuffer.snapshot_empty a.keyType.compare
    refine listed.trans (.set_over state rfl rfl (fun d => ?_) fun _ w eq => ?_)
    · rw [show (MapState.adaptive a).buffer? = none from direct]
      exact WriteBuffer.overTable_of_snapshot_nil empty d.table
    · cases eq
      exact empty
  | @left y a state drained =>
    -- whether the map is taken from a list makes no difference to the maps
    have gone : ∀ s₁ : Store, s₁.maps = s.maps →
        Carries m s (s₁.set y (.adaptive { a with buffer := none })) := by
      intro s₁ maps
      have state₁ : s₁.maps[y.index]? = some (.adaptive a) := maps ▸ state
      refine (Carries.of_maps maps).trans (.set_over state₁ rfl rfl (fun d => ?_) fun _ => nofun)
      show d.table = content d a.buffer
      cases buffer : a.buffer with
      | none => rfl
      | some w => exact (WriteBuffer.overTable_of_snapshot_nil (drained w buffer) d.table).symm
    split
    · exact gone _ rfl
    · exact gone _ rfl

theorem Closes.carries {x : MapHandle} (h : s.Closes x s') (m : MapHandle) : Carries m s s' := by
  cases h with
  | memory state => exact .set_memory _ state
  | marked closed state => exact .set_over state rfl rfl (fun _ => rfl) id
  | base rests clean => exact .set_direct rests.base rfl rfl id fun _ => rfl

/-! ## Open maps -/

/-- The map refuses nobody. -/
def OpenAt (s : Store) (m : MapHandle) : Prop :=
  ∀ st, s.maps[m.index]? = some st → st.isOpen = true

theorem OpenAt.set {st st' : MapState} {y : MapHandle} (h : s.OpenAt m)
    (state : s.maps[y.index]? = some st) (same : y = m → st.isOpen = true → st'.isOpen = true) :
    (s.set y st').OpenAt m := by
  intro stm stateM
  rw [maps_set] at stateM
  split at stateM
  · rename_i eq
    subst eq
    rw [state] at stateM
    cases stateM
    exact same rfl (h st state)
  · exact h stm stateM

theorem UpkeepMove.openAt (h : s.UpkeepMove s') (isOpen : s.OpenAt m) : s'.OpenAt m := by
  cases h with
  | metered meters => exact isOpen
  | counted units => exact isOpen
  | merged state above waiting first base wrote =>
    have ne := ne_of_role state above base
    obtain ⟨notClosed, eq⟩ := DirectMap.of_write wrote
    refine OpenAt.set (OpenAt.set isOpen base fun _ _ => ?_)
      ((maps_set_of_ne s _ ne).trans state) fun _ open' => ?_
    · simp [eq, MapState.isOpen, notClosed]
    · rwa [MapState.isOpen_withBuffer]
  | @saved b d base =>
    obtain ⟨dirty, eq⟩ := d.save_map s.disk
    have stored : ({ s with disk := (d.save s.disk).2.2 } : Store).OpenAt m := isOpen
    refine OpenAt.set stored base fun _ open' => ?_
    rw [eq]
    exact open'
  | @entered m₀ a state direct alive =>
    have listed : (s.withListed a.live
        ((s.liveSets a.live).buffered.insert (.map m₀)).2).OpenAt m := isOpen
    exact OpenAt.set listed state fun _ open' => open'
  | @left m₀ a state drained =>
    have listed : (s.withListed a.live
        ((s.liveSets a.live).buffered.erase (.map m₀)).2).OpenAt m := isOpen
    split
    · exact OpenAt.set listed state fun _ open' => open'
    · exact OpenAt.set isOpen state fun _ open' => open'

theorem Writes.openAt (h : s.Writes s') (memory : ∀ p, s.maps[m.index]? ≠ some (.memory p))
    (isOpen : s.OpenAt m) : s'.OpenAt m := by
  cases h with
  | memory state wrote =>
    exact OpenAt.set isOpen state fun eq _ => absurd (eq ▸ state) (memory _)
  | direct state wrote =>
    obtain ⟨notClosed, eq⟩ := DirectMap.of_write wrote
    exact OpenAt.set isOpen state fun _ _ => by simp [eq, MapState.isOpen, notClosed]
  | buffered state above waiting base seen =>
    exact OpenAt.set isOpen state fun _ open' => by rwa [MapState.isOpen_withBuffer]

/-- Closing a map leaves those open that are neither it nor the one below. -/
theorem Closes.openAt {x : MapHandle} (h : s.Closes x s') (isOpen : s.OpenAt m) (ne : x ≠ m)
    (notBelow : ∀ d waiting, ¬ s.Rests x m d waiting) : s'.OpenAt m := by
  cases h with
  | memory state => exact OpenAt.set isOpen state fun eq _ => absurd eq ne
  | marked closed state => exact OpenAt.set isOpen state fun eq _ => absurd eq ne
  | base rests clean =>
    exact OpenAt.set isOpen rests.base fun eq _ => absurd (eq ▸ rests) (notBelow _ _)

/-! ## Runs of moves -/

/-- A run of moves that leave what maps show. -/
abbrev UpkeepMoves : Store → Store → Prop := ReflTransGen UpkeepMove

/-- A run of such moves and others. -/
abbrev Runs (R : Store → Store → Prop) : Store → Store → Prop :=
  ReflTransGen fun s s' => s.UpkeepMove s' ∨ R s s'

theorem UpkeepMoves.runs (h : s.UpkeepMoves s') (R : Store → Store → Prop) : s.Runs R s' :=
  Relation.ReflTransGen.mono (fun _ _ => .inl) _ _ h

/-- What each move keeps, a run keeps. -/
theorem UpkeepMoves.keeps {I : Store → Prop} (h : s.UpkeepMoves s')
    (step : ∀ {s s'}, UpkeepMove s s' → s.Layout → I s → I s') (layout : s.Layout) (start : I s) :
    s'.Layout ∧ I s' := by
  induction h with
  | refl => exact ⟨layout, start⟩
  | tail _ move ih => exact ⟨move.layout ih.1, step move ih.1 ih.2⟩

theorem UpkeepMoves.role? (h : s.UpkeepMoves s') : s'.role? = s.role? := by
  induction h with
  | refl => rfl
  | tail _ move ih => exact move.role?.trans ih

theorem UpkeepMoves.layout (h : s.UpkeepMoves s') (layout : s.Layout) : s'.Layout :=
  (h.keeps (I := fun _ => True) (fun _ _ _ => trivial) layout trivial).1

theorem UpkeepMoves.openAt (h : s.UpkeepMoves s') (isOpen : s.OpenAt m) : s'.OpenAt m := by
  induction h with
  | refl => exact isOpen
  | tail _ move ih => exact move.openAt ih

theorem Top.congr (h : s.Top m) (same : s'.role? = s.role?) : s'.Top m := by
  unfold Top
  rw [same]
  exact h

theorem UpkeepMoves.carries (h : s.UpkeepMoves s') (layout : s.Layout) (top : s.Top m) :
    Carries m s s' := by
  induction h with
  | refl => exact .refl m s
  | tail before move ih =>
    exact ih.trans
      (move.carries (UpkeepMoves.layout before layout) (top.congr (UpkeepMoves.role? before)))

end Store

end MapStore
