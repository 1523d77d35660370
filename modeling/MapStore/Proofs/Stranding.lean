/-
MapStore.Proofs.Stranding — a close that panics leaves the map shut.

A close that is refused opens the map again. One that ends with a panic of the
map below does not: the map was shut for its last merge, and nobody opens it.
Nothing is lost, since between them the two maps still have the contents that
there were, but no reader finds them. A later close does not try again: it finds
the map shut and answers at once that all is well, with slots still waiting if
the panic came in the middle of the merge, and over a map that was never closed.
Only a merge still brings the rest to the map below.
-/
import MapStore.Proofs.Shutting

namespace MapStore.Store

open PlainMap (change)

variable {s : Store} {m b : MapHandle} {x : BufferedMap} {f : FaultyMap}

/-- The map was shut when the map below panicked with this message, and is shut
since. -/
structure Stranded (s s' : Store) (m b : MapHandle) (x : BufferedMap) (f : FaultyMap)
    (message : Option String) : Prop where
  /-- It was merged up to some slot, and those from there on wait: some, if a
  write panicked, and none, if the close below did. -/
  rest : ∃ w f', x.Midway f w f' ∧
    s'.maps[m.index]? = some (.buffered { x with buffer := w, closed := true }) ∧
    s'.maps[b.index]? = some (.faulty f') ∧
    w.overTable f'.inner.table = x.buffer.overTable f.inner.table ∧
    (f.plan.write = some (.panic message) ∧ w.snapshot ≠ [] ∨
      f.plan.close = some (.panic message) ∧ w.snapshot = [])
  /-- It refuses everyone, and a later close answers that all is well and does
  nothing, whatever becomes of other maps. -/
  later : ∀ s'', s''.maps[m.index]? = s'.maps[m.index]? →
    s''.Refuses m x.name ∧ m.close s'' = .ok () s''
  /-- Once the map below works a merge brings it the rest. -/
  merges : ∀ x' f' f'', s'.maps[m.index]? = some (.buffered x') →
    s'.maps[b.index]? = some (.faulty f') → f''.inner = f'.inner → f''.plan.read = none →
    f''.plan.coming = [] → f''.Works x'.buffer.snapshot → (∀ a ∈ f''.arrivals, a.target = m) →
    ∃ stats s'' bytes, m.merge (s'.set b (.faulty f'')) = .ok stats s'' ∧
      s''.Reads b (x.buffer.overTable f.inner.table) ∧ m.pending s'' = .ok (0, bytes) s''

/-- A map that is shut with the rest of its slots is stranded with them. -/
theorem Covers.stranded (h : s.Covers m b x f) {w : WriteBuffer} {f' : FaultyMap}
    (midway : x.Midway f w f') {message : Option String}
    (settled : f.plan.write = some (.panic message) ∧ w.snapshot ≠ [] ∨
      f.plan.close = some (.panic message) ∧ w.snapshot = []) :
    s.Stranded (s.pair m b { x with buffer := w, closed := true } f') m b x f message := by
  have front := h.stacked.front { x with buffer := w, closed := true } f'
  have behind := h.stacked.behind { x with buffer := w, closed := true } f'
  have whole := midway.contents
  refine ⟨⟨w, f', midway, front, behind, whole, settled⟩, fun s'' => h.later, ?_⟩
  intro x' f₁ f₂ state below inner reads coming works targets
  obtain rfl : { x with buffer := w, closed := true } = x' := by
    rw [front] at state
    cases state
    rfl
  obtain rfl : f' = f₁ := by
    rw [behind] at below
    cases below
    rfl
  rw [h.stacked.set_behind]
  have covers := h.mended midway inner reads coming targets
  obtain ⟨w', f₃, midway', ⟨stats, run, nothing⟩ | ⟨fault, -, -, -, broken⟩⟩ := covers.merge_cases
  · rw [h.stacked.pair_pair] at run
    have table := midway'.table nothing
    have brought : f₃.inner.table = x.buffer.overTable f.inner.table := by
      rw [table, ← whole, ← inner]
    exact ⟨stats, _, w'.size, run, brought ▸ covers.reads_below midway' _,
      covers.pending_front nothing⟩
  · exact absurd works broken

/-- How a close of an open buffered map ends whatever the map below does. It
goes through, and then the map below was closed holding the contents; or it is
refused, and then the map is open with its contents and a later close goes
through; or the map below panics, and then the map is stranded. Either way all
that arrived was refused. -/
theorem close_panic_strands (h : s.Covers m b x f) :
    s.Reads m (x.buffer.overTable f.inner.table) ∧
    ((∃ s', m.close s = .ok () s' ∧ f.plan.close = none ∧
        s.ShutOver s' m b x.name (x.buffer.overTable f.inner.table) ∧ s.TurnedAway s' b x.name) ∨
      (∃ cause s', m.close s = .error (.error cause) s' ∧ ¬ f.Works x.buffer.snapshot ∧
        s.StaysOpen s' m b x f ∧ s.TurnedAway s' b x.name) ∨
      ∃ message s', m.close s = .error (.panic message) s' ∧ ¬ f.Works x.buffer.snapshot ∧
        s.Stranded s' m b x f message ∧ s.TurnedAway s' b x.name) := by
  refine ⟨h.reads_through, ?_⟩
  obtain went | ⟨w, f', midway, broken, ⟨cause, run⟩ | ⟨message, run, settled⟩⟩ := h.close_cases
  · exact .inl went
  · exact .inr (.inl ⟨cause, _, run, broken, h.stays midway,
      h.turned_away midway _ f'.calls f'.inner⟩)
  · exact .inr (.inr ⟨message, _, run, broken, h.stranded midway settled,
      h.turned_away midway _ f'.calls f'.inner⟩)

/-- Two waiting changes, over a map that panics at the second write. -/
def cracked : BufferedMap × FaultyMap :=
  ({ name := "m", id := 1, backing := ⟨0⟩, keyType := .bytes, valueType := .bytes
     buffer := (((WriteBuffer.empty Bytes.compare).insert [1] (.value [10])).2.insert [2]
       (.value [20])).2
     closed := false },
   { inner := .empty "m" 1 .bytes .bytes, calls := .zero
     plan := { FaultPlan.none with write := some (.panic (some "crack")), writeAfter := 1 }
     onPut := [], onRemove := [], answers := [], settings := none })

/-- The store that holds the two maps. -/
def crackedStore : Store :=
  { Store.onDisk .empty with maps := [.faulty cracked.2, .buffered cracked.1] }

/-- The store after a close. -/
def crackedShut : Store := ((⟨1⟩ : MapHandle).close).after crackedStore

/-- The two maps after that: the first change is made below, which panicked at
the second, and the buffered map is shut. -/
def crackedMaps : BufferedMap × FaultyMap :=
  ({ cracked.1 with buffer := (cracked.1.buffer.eraseUnchanged [1] 1).2, closed := true },
   { cracked.2 with
     inner := { cracked.2.inner with table := (change cracked.2.inner.table [1] (.value [10])).2 }
     calls := { CallCounts.zero with put := 2 }
     plan := { cracked.2.plan with writeAfter := 0 } })

theorem run_cracked :
    (⟨1⟩ : MapHandle).close crackedStore = .error (.panic (some "crack"))
      { crackedStore with maps := [.faulty crackedMaps.2, .buffered crackedMaps.1] } := by
  -- the map below between the two writes
  let f : FaultyMap := { crackedMaps.2 with calls := { CallCounts.zero with put := 1 } }
  have copied : cracked.1.buffer.snapshot =
      [([1], ⟨.value [10], 1⟩), ([2], ⟨.value [20], 2⟩)] := rfl
  have below : cracked.1.backing = ⟨0⟩ := rfl
  have first : (⟨1⟩ : MapHandle).mergeSlot cracked.1.toFront .none ([1], ⟨.value [10], 1⟩)
      (crackedStore.set ⟨1⟩ (.buffered { cracked.1 with closed := true })) =
        .ok ⟨1, 0, 0⟩ { crackedStore with maps := [.faulty f, .buffered crackedMaps.1] } := by
    simp only [MapHandle.mergeSlot, Action.run_pendingArrivals, Action.run_bind,
      Action.run_attempt, below]
    rw [MapHandle.write_faulty (f := cracked.2) rfl rfl]
    rfl
  have second : (⟨1⟩ : MapHandle).mergeSlot cracked.1.toFront ⟨1, 0, 0⟩ ([2], ⟨.value [20], 2⟩)
      { crackedStore with maps := [.faulty f, .buffered crackedMaps.1] } =
        .error (.panic (some "crack"))
          { crackedStore with maps := [.faulty crackedMaps.2, .buffered crackedMaps.1] } := by
    simp only [MapHandle.mergeSlot, Action.run_pendingArrivals, Action.run_bind,
      Action.run_attempt, below]
    rw [MapHandle.write_faulty (f := f) rfl rfl]
    rfl
  have merge : (⟨1⟩ : MapHandle).merge
      (crackedStore.set ⟨1⟩ (.buffered { cracked.1 with closed := true })) =
        .error (.panic (some "crack"))
          { crackedStore with maps := [.faulty crackedMaps.2, .buffered crackedMaps.1] } := by
    rw [MapHandle.run_merge_buffered (x := { cracked.1 with closed := true }) rfl]
    show cracked.1.buffer.snapshot.foldlM ((⟨1⟩ : MapHandle).mergeSlot cracked.1.toFront) .none
      _ = _
    simp only [copied, List.foldlM_cons, Action.run_bind, first, second]
  rw [MapHandle.close_buffered (b := cracked.1) rfl rfl (by decide), Action.run_bind, merge]

theorem crackedShut_eq :
    crackedShut = { crackedStore with maps := [.faulty crackedMaps.2, .buffered crackedMaps.1] } :=
  Action.after_of_error run_cracked

theorem crackedStore_close :
    (⟨1⟩ : MapHandle).close crackedStore = .error (.panic (some "crack")) crackedShut := by
  rw [crackedShut_eq, run_cracked]

theorem cracked_covers : crackedStore.Covers ⟨1⟩ ⟨0⟩ cracked.1 cracked.2 where
  state := rfl
  isOpen := rfl
  backing := rfl
  below := by decide
  behind := rfl
  behindOpen := rfl
  reads := rfl
  coming := rfl
  lawful := inferInstanceAs (Std.TransCmp Bytes.compare)
  order := rfl
  targets := by decide

/-- The first change is made below and the second waits, and the map is shut. -/
theorem cracked_strands :
    crackedStore.Covers ⟨1⟩ ⟨0⟩ cracked.1 cracked.2 ∧
    crackedStore.Stranded crackedShut ⟨1⟩ ⟨0⟩ cracked.1 cracked.2 (some "crack") ∧
    crackedStore.TurnedAway crackedShut ⟨0⟩ "m" := by
  refine ⟨cracked_covers, ?_⟩
  obtain ⟨-, ⟨s', run, -⟩ | ⟨cause, s', run, -⟩ | ⟨message, s', run, -, stranded, away⟩⟩ :=
    close_panic_strands cracked_covers
  · rw [crackedStore_close] at run
    cases run
  · rw [crackedStore_close] at run
    cases run
  · rw [crackedStore_close] at run
    cases run
    exact ⟨stranded, away⟩

/-- The store after that, in which the map below works again. -/
def crackedMended : Store :=
  (Action.modifyState ⟨0⟩ fun
    | .faulty f => .faulty { f with plan := .none }
    | other => other).after crackedShut

/-- A key that was there is refused after the close that panicked, and once the
map below works the next close answers that all is well with the change still
waiting. -/
theorem cracked_not_reopened :
    (⟨1⟩ : MapHandle).get [2] crackedStore = .ok (some [20]) crackedStore ∧
    (⟨1⟩ : MapHandle).close crackedStore = .error (.panic (some "crack")) crackedShut ∧
    (⟨1⟩ : MapHandle).get [2] crackedMended = .error (.error (.mapClosed "m")) crackedMended ∧
    (⟨1⟩ : MapHandle).close crackedMended = .ok () crackedMended ∧
    (⟨1⟩ : MapHandle).pending crackedMended = .ok (1, 2) crackedMended := by
  have state : crackedMended.maps[1]? = some (.buffered crackedMaps.1) := by
    rw [crackedMended, crackedShut_eq]
    rfl
  refine ⟨?_, crackedStore_close, MapHandle.get_closed state rfl [2],
    MapHandle.close_closed state rfl, ?_⟩
  · rw [MapHandle.get_buffered (b := cracked.1) rfl rfl (by decide)]
    rfl
  · rw [MapHandle.pending, Action.run_bind, Action.run_state state]
    rfl

end MapStore.Store
