/-
MapStore.Proofs.Refusing — maps that refuse for good.

A plain map, kept in a file or not, is spent once it is closed and has nothing
to save: no move makes anything else of it, since writes ask for an open map and
a save has nothing to do (`MapState.Spent`). A map over another is retired when
nothing waits in it and the map below is spent (`Store.Retired`). An adaptive
map has no mark of its own, and a buffered one has one that does not matter:
whatever mode the map is switched to afterwards, its buffer is empty, and
nothing is buffered without asking the map below.

No move brings a retired map back (`UpkeepMove.retired`, `Writes.retired`,
`Closes.retired`). It refuses every call, has nothing to merge or to save, and
whatever is done with it leaves the disk (`Store.Retired.on`). That a close
leaves a map that is retired is said in `Proofs.Retiring`.
-/
import MapStore.Proofs.Footprint

namespace MapStore

open Artifact (fileName isValidName)
open Relation (ReflTransGen)

/-! ## Closed plain maps -/

namespace PlainMap

variable {p : PlainMap}

theorem close_closed (h : p.closed = true) : p.close = p := by
  simp [close, h]

theorem closed_close (p : PlainMap) : p.close.closed = true := by
  unfold close
  split
  · assumption
  · rfl

end PlainMap

theorem DirectMap.write_closed {d : DirectMap} (h : d.closed = true) (key : Bytes) (c : Change) :
    d.write key c = .error (.mapClosed d.name) := by
  rw [write, PlainMap.write_closed h]
  rfl

/-- The map is a plain one, closed and with nothing to save. -/
def MapState.Spent : MapState → Prop
  | memory p => p.closed = true
  | direct d => d.closed = true ∧ d.dirty = false
  | _ => False

namespace Store

variable {s s' s'' : Store} {m b y : MapHandle} {st st' : MapState} {d : DirectMap} {front : Front}

/-! ## Maps that are spent -/

theorem ne_of_spent (state : s.maps[b.index]? = some st) (spent : st.Spent)
    (other : s.maps[y.index]? = some st') (notSpent : ¬ st'.Spent) : y ≠ b := by
  rintro rfl
  rw [state] at other
  cases other
  exact notSpent spent

theorem not_spent_of_over (above : st.role = .over front) : ¬ st.Spent := by
  obtain ⟨x, rfl, -⟩ | ⟨a, rfl, -⟩ := MapState.cases_of_role above
  · exact id
  · exact id

/-- What is set elsewhere, or is the same again, leaves the map. -/
theorem spent_set (state : s.maps[b.index]? = some st) (same : y = b → st' = st) :
    (s.set y st').maps[b.index]? = some st := by
  by_cases own : y = b
  · subst own
    rw [maps_set_self st' state, same rfl]
  · rw [maps_set_of_ne s st' own, state]

theorem UpkeepMove.spent (h : s.UpkeepMove s') (state : s.maps[b.index]? = some st)
    (spent : st.Spent) :
    s'.maps[b.index]? = some st := by
  cases h with
  | metered meters => exact state
  | counted units => exact state
  | merged top above waiting first base wrote =>
    have isOpen := (DirectMap.of_write wrote).1
    have neBase := ne_of_spent state spent base fun ⟨closed, _⟩ => by simp [isOpen] at closed
    have neTop := ne_of_spent state spent top (not_spent_of_over above)
    rw [maps_set_of_ne _ _ neTop, maps_set_of_ne _ _ neBase, state]
  | @saved b₀ d₀ base =>
    refine spent_set (s := { s with disk := (d₀.save s.disk).2.2 }) state fun own => ?_
    subst own
    rw [state] at base
    cases base
    rw [DirectMap.save_of_clean spent.2]
  | entered top direct alive =>
    exact spent_set state fun own => absurd own (ne_of_spent state spent top id)
  | left top drained =>
    have ne := ne_of_spent state spent top id
    split
    · exact spent_set state fun own => absurd own ne
    · exact spent_set state fun own => absurd own ne

theorem Writes.spent (h : s.Writes s') (state : s.maps[b.index]? = some st) (spent : st.Spent) :
    s'.maps[b.index]? = some st := by
  cases h with
  | memory own wrote =>
    refine spent_set state fun eq => absurd eq (ne_of_spent state spent own fun closed => ?_)
    rw [PlainMap.write_closed closed] at wrote
    cases wrote
  | direct own wrote =>
    refine spent_set state fun eq => absurd eq (ne_of_spent state spent own fun closed => ?_)
    rw [DirectMap.write_closed closed.1] at wrote
    cases wrote
  | buffered top above waiting base seen =>
    have ne := ne_of_spent state spent top (not_spent_of_over above)
    exact spent_set state fun eq => absurd eq ne

theorem Closes.spent (h : s.Closes y s') (state : s.maps[b.index]? = some st) (spent : st.Spent) :
    s'.maps[b.index]? = some st := by
  cases h with
  | @memory p own =>
    refine spent_set state fun eq => ?_
    subst eq
    rw [state] at own
    cases own
    exact congrArg MapState.memory (PlainMap.close_closed spent)
  | marked closed own => exact spent_set state fun eq => absurd eq (ne_of_spent state spent own id)
  | base rests clean =>
    refine spent_set state fun eq => ?_
    subst eq
    have own := rests.base
    rw [state] at own
    cases own
    exact congrArg MapState.direct (by rw [← spent.1])

/-! ## Retired maps -/

/-- The map is spent itself, or nothing waits in it and the map below is spent. -/
inductive Retired (s : Store) (m : MapHandle) : Prop
  | plain {st : MapState} (state : s.maps[m.index]? = some st) (spent : st.Spent)
  | layered {front : Front} {d : DirectMap} (above : s.role? m = some (.over front))
      (base : s.maps[front.backing.index]? = some (.direct d))
      (spent : (MapState.direct d).Spent) (drained : s.Drained m)

theorem UpkeepMove.retired (h : s.UpkeepMove s') (retired : s.Retired m) : s'.Retired m := by
  cases retired with
  | plain state spent => exact .plain (h.spent state spent) spent
  | layered above base spent drained =>
    exact .layered (h.role?.symm ▸ above) (h.spent base spent) spent (h.drained drained)

theorem Closes.retired (h : s.Closes y s') (retired : s.Retired m) : s'.Retired m := by
  cases retired with
  | plain state spent => exact .plain (h.spent state spent) spent
  | layered above base spent drained =>
    exact .layered (h.role?.symm ▸ above) (h.spent base spent) spent (h.drained drained)

/-- The map that keeps the entries of a retired map is closed, with nothing to save. -/
theorem Retired.base {d : DirectMap} {waiting : Option WriteBuffer} (h : s.Retired m)
    (rests : s.Rests m b d waiting) : (MapState.direct d).Spent := by
  cases h with
  | plain state spent =>
    obtain ⟨-, -, rfl⟩ | ⟨front, above, -⟩ := rests.of_state state
    · exact spent
    · exact absurd spent (not_spent_of_over above)
  | layered above base spent drained =>
    obtain ⟨st, state, over'⟩ := over_of_role? above
    obtain ⟨rfl, -⟩ := rests.of_over state over'
    rw [rests.base] at base
    cases base
    exact spent

/-- Nothing is found in a buffer in which nothing waits. -/
theorem Layout.get?_of_drained {w : WriteBuffer} (layout : s.Layout)
    (state : s.maps[m.index]? = some st) (waiting : st.buffer? = some w) (drained : s.Drained m)
    (key : Bytes) : w.get? key = none := by
  obtain ⟨front, above⟩ := MapState.over_of_buffer? waiting
  obtain ⟨d, rests⟩ := layout.rests_over state above
  obtain ⟨order, lawful⟩ := rests.order layout waiting
  exact WriteBuffer.get?_of_snapshot_nil (order ▸ lawful) (drained st w state waiting) key

/-- A write that waits was let in by the map below, or by one that waited. -/
theorem Writes.retired (h : s.Writes s') (layout : s.Layout) (retired : s.Retired m) :
    s'.Retired m := by
  cases retired with
  | plain state spent => exact .plain (h.spent state spent) spent
  | layered above base spent drained =>
    refine .layered (h.role?.symm ▸ above) (h.spent base spent) spent ?_
    intro st w state waiting
    cases h with
    | memory own wrote =>
      rw [maps_set] at state
      split at state
      · obtain ⟨-, -, rfl⟩ := Option.map_eq_some_iff.1 state
        cases waiting
      · exact drained st w state waiting
    | direct own wrote =>
      rw [maps_set] at state
      split at state
      · obtain ⟨-, -, rfl⟩ := Option.map_eq_some_iff.1 state
        cases waiting
      · exact drained st w state waiting
    | @buffered m₀ st₀ front₀ w₀ d₀ key c own above₀ waiting₀ base₀ seen =>
      by_cases same : m₀ = m
      · subst same
        rw [role?_of_maps own, above₀] at above
        cases above
        rw [base₀] at base
        cases base
        rcases seen with there | isOpen
        · exact absurd (layout.get?_of_drained own waiting₀ drained key) there
        · rw [spent.1] at isOpen
          cases isOpen
      · rw [maps_set_of_ne s _ same] at state
        exact drained st w state waiting

end Store

/-! ## What callers of such a map get -/

namespace Action

variable {α β : Type} {a : Action α} {f : α → Action β} {s s' : Store} {r : α}

/-- The step is refused, whatever it did before. -/
def Refused (a : Action α) (s : Store) : Prop := ∃ cause s', a s = .error (.error cause) s'

namespace Refused

theorem bind (h : a.Refused s) (f : α → Action β) : (a >>= f).Refused s := by
  obtain ⟨cause, s', run⟩ := h
  exact ⟨cause, s', by rw [run_bind, run]⟩

theorem after (run : a s = .ok r s') (h : (f r).Refused s') : (a >>= f).Refused s := by
  obtain ⟨cause, s'', run'⟩ := h
  refine ⟨cause, s'', ?_⟩
  rw [run_bind, run]
  exact run'

theorem congr {a' : Action α} (same : a s = a' s') (h : a'.Refused s') : a.Refused s := by
  obtain ⟨cause, s'', run⟩ := h
  exact ⟨cause, s'', same.trans run⟩

theorem of_lift {e : Except StoreError α} {cause : StoreError} (h : e = .error cause) :
    (lift e).Refused s := ⟨cause, s, by rw [h, run_lift_error]⟩

end Refused

end Action

namespace Store

open MapStore.Action (Refused)

variable {s s' : Store} {m b : MapHandle} {st : MapState} {d : DirectMap} {front : Front}

section Spent

variable (state : s.maps[b.index]? = some st) (spent : st.Spent)

include state spent

theorem spent_get (key : Bytes) : (b.get key).Refused s := by
  cases st with
  | memory p =>
    exact .congr (MapHandle.get_memory state key) (.of_lift (PlainMap.get_closed spent key))
  | direct d =>
    exact .congr (MapHandle.get_direct state key) (.of_lift (PlainMap.get_closed spent.1 key))
  | buffered x => exact spent.elim
  | adaptive a => exact spent.elim
  | faulty f => exact spent.elim

theorem spent_contains (key : Bytes) : (b.contains key).Refused s := by
  have plain : ∀ a, st ≠ .adaptive a := by
    rintro a rfl
    exact spent.elim
  exact .congr (MapHandle.contains_of_get state plain key) ((spent_get state spent key).bind _)

theorem spent_size : b.size.Refused s := by
  cases st with
  | memory p =>
    exact .congr (MapHandle.size_memory state) (.of_lift (PlainMap.size_closed spent))
  | direct d =>
    exact .congr (MapHandle.size_direct state) (.of_lift (PlainMap.size_closed spent.1))
  | buffered x => exact spent.elim
  | adaptive a => exact spent.elim
  | faulty f => exact spent.elim

theorem spent_entries : b.entries.Refused s := by
  cases st with
  | memory p =>
    exact .congr (MapHandle.entries_memory state) (.of_lift (PlainMap.entries_closed spent))
  | direct d =>
    exact .congr (MapHandle.entries_direct state) (.of_lift (PlainMap.entries_closed spent.1))
  | buffered x => exact spent.elim
  | adaptive a => exact spent.elim
  | faulty f => exact spent.elim

end Spent

namespace Retired

/-- The kinds of map that refuse, with what they stand on. -/
theorem kinds (h : s.Retired m) (layout : s.Layout) :
    (∃ st, s.maps[m.index]? = some st ∧ st.Spent) ∨
      ∃ st front d, s.maps[m.index]? = some st ∧ st.role = .over front ∧
        front.backing.index < m.index ∧ s.maps[front.backing.index]? = some (.direct d) ∧
        (MapState.direct d).Spent ∧ ∀ w, st.buffer? = some w → w.snapshot = [] := by
  cases h with
  | plain state spent => exact .inl ⟨_, state, spent⟩
  | layered above base spent drained =>
    obtain ⟨below, -⟩ := layout.below m _ above
    obtain ⟨st, state, above⟩ := over_of_role? above
    exact .inr ⟨st, _, _, state, above, below, base, spent, fun w => drained st w state⟩

variable (h : s.Retired m) (layout : s.Layout)

include h layout

/-- No waiting change is found in a map over another. -/
theorem hidden (state : s.maps[m.index]? = some st) (above : st.role = .over front) (key : Bytes) :
    ∀ w, st.buffer? = some w → w.get? key = none := by
  intro w waiting
  cases h with
  | plain state' spent =>
    rw [state] at state'
    cases state'
    exact absurd spent (not_spent_of_over above)
  | layered _ _ _ drained => exact layout.get?_of_drained state waiting drained key

theorem get (key : Bytes) : (m.get key).Refused s := by
  obtain ⟨st, state, spent⟩ | ⟨st, front, d, state, above, below, base, spent, -⟩ := h.kinds layout
  · exact spent_get state spent key
  · have hidden := h.hidden layout state above key
    obtain ⟨x, rfl, rfl⟩ | ⟨a, rfl, rfl⟩ := MapState.cases_of_role above
    · cases closed : x.closed with
      | true => exact ⟨_, _, MapHandle.get_closed state closed key⟩
      | false =>
        refine .congr (MapHandle.get_buffered state closed below key) ?_
        rw [hidden x.buffer rfl]
        exact spent_get base spent key
    · have nothing : (a.buffer.bind fun w => w.get? key) = none :=
        Option.bind_eq_none_iff.2 hidden
      refine .congr (MapHandle.get_adaptive state below key) ?_
      rw [nothing]
      exact spent_get (s := { s with meters := s.meters.modify a.meter.index .recordRead }) base
        spent key

theorem contains (key : Bytes) : (m.contains key).Refused s := by
  obtain ⟨st, state, spent⟩ | ⟨st, front, d, state, above, below, base, spent, -⟩ := h.kinds layout
  · exact spent_contains state spent key
  · have hidden := h.hidden layout state above key
    obtain ⟨x, rfl, rfl⟩ | ⟨a, rfl, rfl⟩ := MapState.cases_of_role above
    · refine .congr (MapHandle.contains_of_get state (fun a eq => ?_) key)
        ((h.get layout key).bind _)
      cases eq
    · refine .congr (MapHandle.contains_adaptive state below key) ?_
      cases buffer : a.buffer with
      | none =>
        exact spent_contains (s := { s with meters := s.meters.modify a.meter.index .recordRead })
          base spent key
      | some w =>
        simp only [hidden w buffer]
        exact (spent_get (s := { s with meters := s.meters.modify a.meter.index .recordRead }) base
          spent key).bind _

theorem entries : m.entries.Refused s := by
  obtain ⟨st, state, spent⟩ | ⟨st, front, d, state, above, below, base, spent, -⟩ := h.kinds layout
  · exact spent_entries state spent
  · have asked := spent_entries base spent
    obtain ⟨x, rfl, rfl⟩ | ⟨a, rfl, rfl⟩ := MapState.cases_of_role above
    · cases closed : x.closed with
      | true => exact ⟨_, _, MapHandle.entries_closed state closed⟩
      | false =>
        exact .congr (MapHandle.entries_buffered state closed below) (asked.bind _)
    · exact .congr (MapHandle.entries_adaptive state below) (asked.bind _)

theorem size : m.size.Refused s := by
  obtain ⟨st, state, spent⟩ | ⟨st, front, d, state, above, below, base, spent, -⟩ := h.kinds layout
  · exact spent_size state spent
  · cases waiting : st.buffer? with
    | some w =>
      exact .congr (MapHandle.size_of_buffer state waiting) ((h.entries layout).bind _)
    | none =>
      obtain ⟨x, rfl, rfl⟩ | ⟨a, rfl, rfl⟩ := MapState.cases_of_role above
      · cases waiting
      · exact .congr (MapHandle.size_adaptive state waiting below) (spent_size base spent)

/-- Where a write would end otherwise, a map is open, or a change waits. -/
theorem write (depth : Nat) (key : Bytes) (c : Change) : (m.write depth key c).Refused s := by
  cases write_ends layout m depth key c with
  | refused run => exact ⟨_, _, run⟩
  | memory state wrote =>
    cases h with
    | plain state' spent =>
      rw [state] at state'
      cases state'
      rw [PlainMap.write_closed spent] at wrote
      cases wrote
    | layered above =>
      rw [role?_of_maps state] at above
      cases above
  | direct rests wrote =>
    rw [DirectMap.write_closed (h.base rests).1] at wrote
    cases wrote
  | buffered state above waiting base seen =>
    have shut := (h.base ⟨base, .inr ⟨_, _, state, above, rfl, waiting⟩⟩).1
    rcases seen with there | isOpen
    · exact absurd (h.hidden layout state above key _ waiting) there
    · rw [shut] at isOpen
      cases isOpen

/-- Every call is refused. -/
theorem call (c : Call) : (c.perform m).Refused s := by
  cases c with
  | get key => exact (h.get layout key).bind _
  | contains key => exact (h.contains layout key).bind _
  | size => exact (h.size layout).bind _
  | isEmpty => exact ((h.size layout).bind _).bind _
  | entries => exact (h.entries layout).bind _
  | put key value =>
    exact (Refused.after (Action.run_pendingArrivals s) (h.write layout _ key _)).bind _
  | remove key =>
    exact (Refused.after (Action.run_pendingArrivals s) (h.write layout _ key _)).bind _

/-- Nothing waits, -/
theorem drained : s.Drained m ∧ ∃ st, s.maps[m.index]? = some st := by
  obtain ⟨st, state, spent⟩ | ⟨st, front, d, state, above, -, -, -, empty⟩ := h.kinds layout
  · refine ⟨fun st' w state' waiting => ?_, st, state⟩
    rw [state] at state'
    cases state'
    obtain ⟨front, above⟩ := MapState.over_of_buffer? waiting
    exact absurd spent (not_spent_of_over above)
  · refine ⟨fun st' w state' waiting => ?_, st, state⟩
    rw [state] at state'
    cases state'
    exact empty w waiting

/-- and there is nothing to merge. -/
theorem merge : m.merge s = .ok .none s := by
  obtain ⟨drained, st, state⟩ := h.drained layout
  exact drained.merge state

theorem pending : ∃ bytes, m.pending s = .ok (0, bytes) s := by
  obtain ⟨drained, st, state⟩ := h.drained layout
  exact drained.pending state

end Retired

section Spent

variable (state : s.maps[b.index]? = some st) (spent : st.Spent)

include state spent

/-- There is nothing to save. -/
theorem spent_save : b.save s = .ok () s := by
  cases st with
  | memory p => exact MapHandle.save_memory state
  | direct d =>
    have same : ({ s with disk := s.disk } : Store).set b (.direct d) = s := set_self state
    rw [MapHandle.save_direct state, DirectMap.save_of_clean spent.2, same]
    rfl
  | buffered x => exact spent.elim
  | adaptive a => exact spent.elim
  | faulty f => exact spent.elim

/-- It is closed already. -/
theorem spent_close : b.close s = .ok () s := by
  cases st with
  | memory p => rw [MapHandle.close_memory state, PlainMap.close_closed spent, set_self state]
  | direct d =>
    have same : ({ s with disk := s.disk } : Store).set b (.direct d) = s := set_self state
    have closed : d.close s.disk = (.ok (), d, s.disk) := by simp [DirectMap.close, spent.1]
    rw [MapHandle.close_direct state, closed, same]
    rfl
  | buffered x => exact spent.elim
  | adaptive a => exact spent.elim
  | faulty f => exact spent.elim

end Spent

/-- A call that is refused changes meters at most. -/
theorem call_refused (layout : s.Layout) {c : Call} {fault : Fault}
    (run : c.perform m s = .error fault s') : Metered s s' := by
  cases change : c.change? with
  | none =>
    have metered := metered_read (m := m) layout change
    rwa [Action.after_of_error run] at metered
  | some written =>
    obtain ⟨key, written⟩ := written
    obtain ⟨depth, same⟩ := Call.perform_of_change (m := m) change s
    rw [same] at run
    obtain ⟨r, wrote⟩ | ⟨fault', refused⟩ := Action.ends (m.write depth key written) s
    · rw [Action.run_bind, wrote] at run
      cases run
    · rw [Action.run_bind, refused] at run
      cases run
      exact write_refused layout refused

namespace Retired

variable (h : s.Retired m) (layout : s.Layout)

include h layout

theorem save : m.save s = .ok () s := by
  obtain ⟨st, state, spent⟩ | ⟨st, front, d, state, above, below, base, spent, -⟩ := h.kinds layout
  · exact spent_save state spent
  · cases isOpen : st.isOpen with
    | false => exact save_shut state above isOpen
    | true =>
      rw [save_over state above isOpen below, Action.run_bind, h.merge layout]
      exact spent_save base spent

/-- A switch changes the mode at most. -/
theorem switchTo (target : MapMode) :
    ((Tick.switchTo m target).after s).disk = s.disk ∧
      (target = .direct → ∃ switched s', Tick.switchTo m target s = .ok switched s') := by
  obtain ⟨st, state⟩ : ∃ st, s.maps[m.index]? = some st := by
    obtain ⟨st, state, -⟩ | ⟨st, front, d, state, -⟩ := h.kinds layout <;> exact ⟨st, state⟩
  cases plain : st.profile? with
  | none =>
    have run := Tick.switchTo_plain state plain target
    rw [Action.after_of_ok run]
    exact ⟨rfl, fun _ => ⟨false, s, run⟩⟩
  | some p =>
    obtain ⟨a, rfl, -⟩ := MapState.adaptive_of_profile plain
    have merged := h.merge layout
    cases target with
    | buffered =>
      refine ⟨?_, nofun⟩
      unfold Tick.switchTo
      obtain ⟨-, run⟩ | ⟨-, -, run⟩ | ⟨-, -, run⟩ := MapHandle.switchToBuffered_cases state
      · rw [Action.after_of_ok run]
      · rw [Action.after_of_error run]
      · rw [Action.after_of_ok run]
        rfl
    | direct =>
      unfold Tick.switchTo
      obtain ⟨-, run⟩ | ⟨fault, -, failed, -⟩ | ⟨stats, buffer, -, -, -, run⟩ :=
        MapHandle.switchToDirect_cases state
      · rw [Action.after_of_ok run]
        exact ⟨rfl, fun _ => ⟨_, _, run⟩⟩
      · rw [merged] at failed
        cases failed
      · rw [Action.after_of_ok run, Action.after_of_ok merged]
        refine ⟨?_, fun _ => ⟨_, _, run⟩⟩
        split <;> rfl

/-- Closing it again is answered, and leaves the disk. -/
theorem close : ∃ s', m.close s = .ok () s' ∧ s'.disk = s.disk := by
  obtain ⟨st, state, spent⟩ | ⟨st, front, d, state, above, below, base, spent, -⟩ := h.kinds layout
  · exact ⟨s, spent_close state spent, rfl⟩
  · obtain ⟨x, rfl, rfl⟩ | ⟨a, rfl, rfl⟩ := MapState.cases_of_role above
    · cases closed : x.closed with
      | true =>
        exact ⟨s, MapHandle.close_closed state closed, rfl⟩
      | false =>
        have mark : s.Closes m _ := .marked true state
        have merged := (mark.retired h).merge (mark.layout layout)
        have again := spent_close (mark.spent base spent) spent
        have last : (do let _ ← m.merge; x.backing.close : Action Unit)
            (s.set m (.buffered { x with closed := true })) =
            .ok () (s.set m (.buffered { x with closed := true })) := by
          rw [Action.run_bind, merged]
          exact again
        refine ⟨s.set m (.buffered { x with closed := true }), ?_, rfl⟩
        rw [MapHandle.close_buffered state closed below, last]
    · obtain ⟨disk, answers⟩ := h.switchTo layout .direct
      obtain ⟨switched, s₁, run⟩ := answers rfl
      have upkept := switchTo_moves layout m .direct
      rw [Action.after_of_ok run] at disk upkept
      have run : m.switchToDirect s = .ok switched s₁ := run
      have base₁ := (upkept.keeps (fun move _ there => move.spent there spent) layout base).2
      refine ⟨s₁, ?_, disk⟩
      rw [MapHandle.close_adaptive state below, Action.run_bind, run]
      exact spent_close base₁ spent

/-- Whatever is done with it leaves the disk. -/
theorem on {e : EngineHandle} {act : Act} (done : Act.On m act) :
    (act.after e s).disk = s.disk := by
  have answered : ∀ {α : Type} {a : Action α}, (a.after s).disk = s.disk →
      ((do let _ ← a : Action Unit).after s).disk = s.disk := fun same =>
    Action.after_bind (R := fun s s' => s'.disk = s.disk) (fun first next => next.trans first) same
      fun _ _ _ => rfl
  cases done with
  | called c =>
    obtain ⟨cause, s', run⟩ := h.call layout c
    obtain ⟨meters, rfl⟩ := call_refused layout run
    show ((c.perform m).after s).disk = s.disk
    rw [Action.after_of_error run]
  | saved =>
    show (m.save.after s).disk = s.disk
    rw [Action.after_of_ok (h.save layout)]
  | merged =>
    refine answered ?_
    rw [Action.after_of_ok (h.merge layout)]
  | toBuffered => exact answered (h.switchTo layout .buffered).1
  | toDirect => exact answered (h.switchTo layout .direct).1
  | shut =>
    obtain ⟨s', run, same⟩ := h.close layout
    show (m.close.after s).disk = s.disk
    rw [Action.after_of_ok run, same]

end Retired

end Store

end MapStore
