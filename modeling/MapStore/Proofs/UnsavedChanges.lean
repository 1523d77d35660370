/-
MapStore.Proofs.UnsavedChanges — what an open map still owes its artifact.

`Fresh s m d` says that `m` is open over the direct map `d` and nothing waits:
readers are answered from the table of `d`, whatever kind of map `m` is. An
admitted write changes `d` in one kind of map and waits in another; `Owes s m d`
covers both and says what the direct map will be once the waiting changes are
made to it, in key order, as a merge makes them (`DirectMap.writeAll`). A map
that is closed pays: nothing is refused on the way if saving `d` is not, and
the disk afterwards is the one that saving `d` leaves (`Owes.close`).
-/
import MapStore.Proofs.UpkeepMoves

namespace MapStore

open MapState

namespace DirectMap

variable {d d' : DirectMap} {key : Bytes} {c : Change} {previous : Option Bytes}

/-- The map after changes in their order, or the first refusal. -/
def writeAll (d : DirectMap) (changes : List (Bytes × Change)) : Except StoreError DirectMap :=
  changes.foldlM (fun d c => (d.write c.1 c.2).map (·.2)) d

@[simp] theorem writeAll_nil (d : DirectMap) : d.writeAll [] = .ok d := rfl

theorem writeAll_cons (d : DirectMap) (key : Bytes) (c : Change) (rest : List (Bytes × Change)) :
    d.writeAll ((key, c) :: rest) =
      match d.write key c with
      | .ok (_, d) => d.writeAll rest
      | .error cause => .error cause := by
  rw [writeAll, List.foldlM_cons]
  cases d.write key c with
  | error cause => rfl
  | ok made => rfl

/-- A dirty map is saved if its file is. -/
theorem save_of_dirty {path : String} {disk disk' : Disk} (dirty : d.dirty = true)
    (there : d.path = some path) (saved : d.file.save path disk = (.ok (), disk')) :
    d.save disk = (.ok (), { d with dirty := false }, disk') := by
  simp only [save, there, dirty, saved, if_true]

/-- A map that is closed after its save has saved. -/
theorem close_of_save {disk : Disk} (isOpen : d.closed = false)
    (saved : (d.save disk).1 = .ok ()) :
    (d.close disk).1 = .ok () ∧ (d.close disk).2.2 = (d.save disk).2.2 := by
  unfold close
  rw [isOpen]
  simp only [Bool.false_eq_true, if_false]
  generalize d.save disk = made at *
  obtain ⟨answer, d₁, disk₁⟩ := made
  obtain rfl : answer = .ok () := saved
  exact ⟨rfl, rfl⟩

end DirectMap

namespace WriteBuffer

/-- The changes that wait, if a buffer does. -/
def waitingIn (waiting : Option WriteBuffer) : List (Bytes × Change) :=
  waiting.elim [] changes

/-- The only change in a buffer that was empty. -/
theorem changes_insert {w : WriteBuffer} [Std.TransCmp w.slots.order] (h : w.snapshot = [])
    (key : Bytes) (c : Change) : (w.insert key c).2.changes = [(key, c)] := by
  have only : (w.insert key c).2.snapshot = [(key, ⟨c, w.lastSeq + 1⟩)] :=
    SortedTable.toList_insert_of_nil w.slots h key _
  rw [changes, only]
  rfl

end WriteBuffer

namespace Store

variable {s s' : Store} {m b : MapHandle} {d d' : DirectMap} {st : MapState} {front : Front}
  {waiting : Option WriteBuffer} {key : Bytes} {c : Change} {previous : Option Bytes}

/-- An open map over the direct map `d`, with nothing waiting. -/
structure Fresh (s : Store) (m : MapHandle) (d : DirectMap) : Prop where
  layout : s.Layout
  opened : s.OpenAt m
  isOpen : d.closed = false
  rests : ∃ b waiting, s.Rests m b d waiting ∧ ∀ w, waiting = some w → w.snapshot = []

/-- An open map over a direct map that will be `d` once what waits is merged. -/
structure Owes (s : Store) (m : MapHandle) (d : DirectMap) : Prop where
  layout : s.Layout
  opened : s.OpenAt m
  isOpen : d.closed = false
  rests : ∃ b d₀ waiting, s.Rests m b d₀ waiting ∧
    d₀.writeAll (WriteBuffer.waitingIn waiting) = .ok d

theorem waitingIn_of_drained (h : ∀ w, waiting = some w → w.snapshot = []) :
    WriteBuffer.waitingIn waiting = [] := by
  cases waiting with
  | none => rfl
  | some w => simp [WriteBuffer.waitingIn, WriteBuffer.changes, h w rfl]

theorem Fresh.owes (h : s.Fresh m d) : s.Owes m d := by
  obtain ⟨b, waiting, rests, nothing⟩ := h.rests
  refine ⟨h.layout, h.opened, h.isOpen, b, d, waiting, rests, ?_⟩
  rw [waitingIn_of_drained nothing, DirectMap.writeAll_nil]

theorem Fresh.of_maps (h : s.Fresh m d) (maps : s'.maps = s.maps) : s'.Fresh m d := by
  obtain ⟨b, waiting, rests, nothing⟩ := h.rests
  refine ⟨h.layout.of_maps maps, fun st state => ?_, h.isOpen, b, waiting, rests.of_maps maps,
    nothing⟩
  rw [maps] at state
  exact h.opened st state

theorem Owes.of_maps (h : s.Owes m d) (maps : s'.maps = s.maps) : s'.Owes m d := by
  obtain ⟨b, d₀, waiting, rests, writes⟩ := h.rests
  refine ⟨h.layout.of_maps maps, fun st state => ?_, h.isOpen, b, d₀, waiting,
    rests.of_maps maps, writes⟩
  rw [maps] at state
  exact h.opened st state

/-! ## Reading -/

/-- A fresh map lists the table below it. -/
theorem Fresh.entries (h : s.Fresh m d) : m.entries s = .ok d.table.toList s := by
  obtain ⟨b, waiting, rests, nothing⟩ := h.rests
  have shown : content d waiting = d.table := by
    cases waiting with
    | none => rfl
    | some w => exact WriteBuffer.overTable_of_snapshot_nil (nothing w rfl) d.table
  rw [rests.entries h.layout h.opened h.isOpen, shown]

/-- The kinds of open map over a direct map. -/
theorem Rests.kinds (h : s.Rests m b d waiting) (layout : s.Layout) (opened : s.OpenAt m) :
    (m = b ∧ waiting = none) ∨
      ∃ front, front.backing = b ∧ b.index < m.index ∧ front.keyType = d.keyType ∧
        front.valueType = d.valueType ∧
        ((∃ x : BufferedMap, s.maps[m.index]? = some (.buffered x) ∧ x.closed = false ∧
            x.toFront = front ∧ waiting = some x.buffer) ∨
          ∃ a : AdaptiveMap, s.maps[m.index]? = some (.adaptive a) ∧ a.toFront = front ∧
            a.buffer = waiting) := by
  obtain top | ⟨st, front, state, above, backing, buffer⟩ := h.top
  · exact .inl top
  obtain ⟨below, x, role, -, -, keyType, valueType⟩ :=
    layout.below m front (by rw [role?_of_maps state, above])
  rw [backing, h.role] at role
  cases role
  refine .inr ⟨front, backing, backing ▸ below, keyType, valueType, ?_⟩
  obtain ⟨x, rfl, eq⟩ | ⟨a, rfl, eq⟩ := MapState.cases_of_role above
  · exact .inl ⟨x, state, by simpa [MapState.isOpen] using opened _ state, eq, buffer.symm⟩
  · exact .inr ⟨a, state, eq, buffer⟩

/-- A fresh map finds a key in the table below it. -/
theorem Fresh.get (h : s.Fresh m d) (key : Bytes) :
    ∃ s', m.get key s = .ok (d.table.get? key) s' ∧ Metered s s' := by
  obtain ⟨b, waiting, rests, nothing⟩ := h.rests
  have asked : ∀ s₁ : Store, s₁.maps = s.maps → b.get key s₁ = .ok (d.table.get? key) s₁ :=
    fun s₁ maps => MapHandle.get_open (maps ▸ rests.base) h.isOpen key
  have missed : ∀ w, waiting = some w → w.get? key = none := by
    intro w eq
    obtain ⟨order, lawful⟩ := rests.order h.layout eq
    exact WriteBuffer.get?_of_snapshot_nil (order ▸ lawful) (nothing w eq) key
  obtain ⟨rfl, -⟩ | ⟨front, rfl, below, -, -, ⟨x, state, isOpen, rfl, eq⟩ | ⟨a, state, rfl, eq⟩⟩ :=
    rests.kinds h.layout h.opened
  · exact ⟨s, asked s rfl, .refl s⟩
  · rw [MapHandle.get_buffered state isOpen below, missed x.buffer eq]
    exact ⟨s, asked s rfl, .refl s⟩
  · have unwaited : a.buffer.bind (·.get? key) = none := by
      rw [eq]
      cases waiting with
      | none => rfl
      | some w => exact missed w rfl
    rw [MapHandle.get_adaptive state below, unwaited]
    exact ⟨_, asked _ rfl, .modifyMeter ..⟩

/-! ## Writing -/

/-- An admitted write into an empty buffer waits there. -/
theorem writeBuffered_of_drained {w : WriteBuffer} (layout : s.Layout) (opened : s.OpenAt m)
    (rests : s.Rests m b d (some w)) (nothing : w.snapshot = [])
    (state : s.maps[m.index]? = some st) (above : st.role = .over front)
    (waits : st.buffer? = some w) (backing : front.backing = b)
    (keyType : front.keyType = d.keyType) (valueType : front.valueType = d.valueType)
    (wrote : d.write key c = .ok (previous, d')) :
    ∃ s', m.writeBuffered front w key c s = .ok previous s' ∧ s'.Owes m d' ∧
      s'.disk = s.disk ∧ s'.engines = s.engines := by
  obtain ⟨order, lawful⟩ := rests.order layout rfl
  have lawful' : Std.TransCmp w.slots.order := order ▸ lawful
  obtain ⟨plain, written, -⟩ := DirectMap.write_eq_ok.1 wrote
  obtain ⟨isOpen, admitted, rfl, -⟩ := PlainMap.write_eq_ok.1 written
  have asked := MapHandle.get_open rests.base isOpen key
  have move : s.Writes (s.set m (st.withBuffer (w.insert key c).2)) :=
    .buffered state above waits (backing ▸ rests.base) (.inr isOpen)
      (keyType ▸ valueType ▸ admitted)
  have stays : d'.closed = false := by rw [(DirectMap.of_write wrote).2]; exact isOpen
  refine ⟨_, ?_, ⟨move.layout layout, ?_, stays, b, d, some (w.insert key c).2, ?_, ?_⟩, rfl, rfl⟩
  · rw [MapHandle.writeBuffered_of_none (WriteBuffer.get?_of_snapshot_nil lawful' nothing key)]
    simp only [keyType, valueType, admitted, backing, Action.run_bind, Action.run_lift_ok, asked,
      Action.run_modifyState _ state]
    rfl
  · exact opened.set state fun _ isOpen => by rwa [MapState.isOpen_withBuffer]
  · have rests' := rests.set_top state above (MapState.role_withBuffer st (w.insert key c).2)
    rwa [MapState.buffer?_withBuffer waits] at rests'
  · show d.writeAll (w.insert key c).2.changes = _
    rw [WriteBuffer.changes_insert nothing, DirectMap.writeAll_cons, wrote]
    rfl

/-- An admitted write of a fresh map answers what was there, and the map owes
it from then on. -/
theorem Fresh.write (h : s.Fresh m d) (depth : Nat) (wrote : d.write key c = .ok (previous, d')) :
    ∃ s', m.write depth key c s = .ok previous s' ∧ s'.Owes m d' ∧ s'.disk = s.disk ∧
      s'.engines = s.engines := by
  obtain ⟨b, waiting, rests, nothing⟩ := h.rests
  -- the direct map below makes the change itself
  have direct : ∀ s₁ : Store, s₁.maps = s.maps → waiting = none →
      b.write depth key c s₁ = .ok previous (s₁.set b (.direct d')) ∧
        (s₁.set b (.direct d')).Owes m d' := by
    rintro s₁ maps rfl
    have rests₁ := rests.of_maps maps
    have move : s₁.Writes (s₁.set b (.direct d')) := .direct rests₁.base wrote
    obtain ⟨isOpen, made⟩ := DirectMap.of_write wrote
    have stays : d'.closed = false := by rw [made]; exact isOpen
    have opened : s₁.OpenAt m := (h.of_maps maps).opened
    refine ⟨?_, move.layout (h.layout.of_maps maps), ?_, stays, b, d', none,
      rests₁.set_base d', rfl⟩
    · rw [MapHandle.write_direct rests₁.base, wrote]
    · exact opened.set rests₁.base fun _ _ => by simp [MapState.isOpen, stays]
  obtain ⟨rfl, none⟩ | ⟨front, backing, below, keyType, valueType,
      ⟨x, state, isOpen, rfl, rfl⟩ | ⟨a, state, rfl, eq⟩⟩ := rests.kinds h.layout h.opened
  · obtain ⟨run, owes⟩ := direct s rfl none
    exact ⟨_, run, owes, rfl, rfl⟩
  · rw [MapHandle.write_buffered state isOpen]
    exact writeBuffered_of_drained h.layout h.opened rests (nothing _ rfl) state rfl rfl backing
      keyType valueType wrote
  · subst backing
    rw [MapHandle.write_adaptive state below]
    obtain ⟨s₁, counted⟩ : ∃ s₁,
        s₁ = { s with meters := s.meters.modify a.meter.index .recordWrite } := ⟨_, rfl⟩
    have maps : s₁.maps = s.maps := by rw [counted]
    have disk : s₁.disk = s.disk := by rw [counted]
    have engines : s₁.engines = s.engines := by rw [counted]
    rw [← counted]
    cases buffer : a.buffer with
    | none =>
      rw [buffer] at eq
      obtain ⟨run, owes⟩ := direct s₁ maps eq.symm
      exact ⟨_, run, owes, disk, engines⟩
    | some w =>
      rw [buffer] at eq
      subst eq
      have fresh := h.of_maps maps
      have state₁ : s₁.maps[m.index]? = some (.adaptive a) := maps ▸ state
      obtain ⟨s', run, owes, disk', engines'⟩ := writeBuffered_of_drained fresh.layout fresh.opened
        (rests.of_maps maps) (nothing w rfl) state₁ rfl buffer rfl keyType valueType wrote
      exact ⟨s', run, owes, disk'.trans disk, engines'.trans engines⟩

/-- Whatever fresh map over `d` is called, the answer is `r`, and the map then owes
`d'`. -/
def Brings {α : Type} (call : MapHandle → Action α) (d : DirectMap) (r : α) (d' : DirectMap) :
    Prop :=
  ∀ (m : MapHandle) (s : Store), s.Fresh m d →
    ∃ s', call m s = .ok r s' ∧ s'.Owes m d' ∧ s'.disk = s.disk ∧ s'.engines = s.engines

theorem brings_get (d : DirectMap) (key : Bytes) :
    Brings (·.get key) d (d.table.get? key) d := by
  intro m s fresh
  obtain ⟨s', got, meters, rfl⟩ := fresh.get key
  exact ⟨_, got, fresh.owes.of_maps rfl, rfl, rfl⟩

theorem brings_entries (d : DirectMap) : Brings (·.entries) d d.table.toList d :=
  fun _ s fresh => ⟨s, fresh.entries, fresh.owes, rfl, rfl⟩

theorem brings_put {value : Bytes} (wrote : d.write key (.value value) = .ok (previous, d')) :
    Brings (·.put key value) d previous d' := by
  intro m s fresh
  show ∃ s', m.put key value s = _ ∧ _
  unfold MapHandle.put
  rw [Action.run_bind, Action.run_pendingArrivals]
  exact fresh.write _ wrote

/-! ## Paying -/

/-- A drain makes the waiting changes to the map below if none is refused. -/
theorem drain_writes {w : WriteBuffer} (lawful : Std.TransCmp w.slots.order)
    (state : s.maps[m.index]? = some st) (above : st.role = .over front)
    (waits : st.buffer? = some w) (base : s.maps[front.backing.index]? = some (.direct d))
    (writes : d.writeAll w.changes = .ok d') :
    ∃ stats s', m.drain front w s = .ok stats s' ∧
      s'.maps[front.backing.index]? = some (.direct d') ∧ s'.disk = s.disk ∧
      s'.engines = s.engines := by
  unfold WriteBuffer.changes at writes
  unfold MapHandle.drain
  generalize slots : w.snapshot = rest at *
  generalize MergeStats.none = stats₀
  induction rest generalizing s st w d stats₀ with
  | nil =>
    cases writes
    exact ⟨stats₀, s, rfl, base, rfl, rfl⟩
  | cons first rest ih =>
    obtain ⟨key, slot⟩ := first
    have ne := ne_of_role state above base
    rw [List.map_cons, DirectMap.writeAll_cons] at writes
    obtain ⟨d₁, previous, stats₁, wrote, run⟩ | ⟨cause, _, refused, -⟩ :=
      mergeSlot_run key slot stats₀ state above waits base
    · rw [wrote] at writes
      obtain ⟨stats, s', rest', base', disk, engines⟩ := ih
        (w := (w.eraseUnchanged key slot.seq).2) (by rwa [WriteBuffer.order_slots_eraseUnchanged])
        (maps_set_self _ ((maps_set_of_ne s (.direct d₁) ne).trans state))
        ((MapState.role_withBuffer ..).trans above) (MapState.buffer?_withBuffer waits _)
        ((maps_set_of_ne _ _ ne.symm).trans (maps_set_self _ base))
        (WriteBuffer.snapshot_drop_head w slots).2 writes stats₁
      refine ⟨stats, s', ?_, base', disk, engines⟩
      rw [List.foldlM_cons, Action.run_bind, run]
      exact rest'
    · rw [refused] at writes
      cases writes

/-- The same of a merge. -/
theorem merge_writes {w : WriteBuffer} (lawful : Std.TransCmp w.slots.order)
    (state : s.maps[m.index]? = some st) (above : st.role = .over front)
    (waits : st.buffer? = some w) (base : s.maps[front.backing.index]? = some (.direct d))
    (writes : d.writeAll w.changes = .ok d') :
    ∃ stats s', m.merge s = .ok stats s' ∧ s'.maps[front.backing.index]? = some (.direct d') ∧
      s'.disk = s.disk ∧ s'.engines = s.engines := by
  rw [run_merge_over state above waits]
  exact drain_writes lawful state above waits base writes

/-- A direct map whose save is not refused is closed. -/
theorem close_of_saved (base : s.maps[b.index]? = some (.direct d)) (isOpen : d.closed = false)
    (saved : (d.save s.disk).1 = .ok ()) :
    ∃ s', b.close s = .ok () s' ∧ s'.disk = (d.save s.disk).2.2 ∧ s'.engines = s.engines := by
  obtain ⟨answer, disk⟩ := DirectMap.close_of_save isOpen saved
  rw [MapHandle.close_direct base, answer, disk]
  exact ⟨_, rfl, rfl, rfl⟩

/-- An adaptive map leaves buffered mode with the waiting changes made. -/
theorem switchToDirect_writes {a : AdaptiveMap}
    (lawful : ∀ w, a.buffer = some w → Std.TransCmp w.slots.order)
    (state : s.maps[m.index]? = some (.adaptive a))
    (base : s.maps[a.backing.index]? = some (.direct d))
    (writes : d.writeAll (WriteBuffer.waitingIn a.buffer) = .ok d') :
    ∃ left s', m.switchToDirect s = .ok left s' ∧ s'.maps[a.backing.index]? = some (.direct d') ∧
      s'.disk = s.disk ∧ s'.engines = s.engines := by
  have ne := ne_of_role state rfl base
  cases buffer : a.buffer with
  | none =>
    rw [buffer] at writes
    cases writes
    refine ⟨false, s, ?_, base, rfl, rfl⟩
    rw [MapHandle.switchToDirect, Action.run_bind, Action.run_state state]
    simp [buffer]
  | some w =>
    rw [buffer] at writes
    obtain ⟨stats, s₁, merged, base₁, disk, engines⟩ :=
      merge_writes (lawful w buffer) state rfl buffer base writes
    obtain ⟨direct, -⟩ | ⟨fault, -, refused, -⟩ | ⟨_, buffer', -, -, state₁, switched⟩ :=
      MapHandle.switchToDirect_cases state
    · simp [AdaptiveMap.mode, buffer] at direct
    · rw [merged] at refused
      cases refused
    · rw [Action.after_of_ok merged] at state₁ switched
      refine ⟨true, _, switched, ?_, ?_, ?_⟩
      -- striking the map off the list of buffers leaves the rest
      · rw [maps_set_of_ne _ _ ne.symm]
        split <;> exact base₁
      · rw [disk_set]
        split <;> exact disk
      · rw [engines_set]
        split <;> exact engines

/-- A map that is closed pays what it owes. -/
theorem Owes.close (h : s.Owes m d) (saved : (d.save s.disk).1 = .ok ()) :
    ∃ s', m.close s = .ok () s' ∧ s'.disk = (d.save s.disk).2.2 ∧ s'.engines = s.engines := by
  obtain ⟨b, d₀, waiting, rests, writes⟩ := h.rests
  have lawful : ∀ w, waiting = some w → Std.TransCmp w.slots.order := fun w eq =>
    (rests.order h.layout eq).1 ▸ (rests.order h.layout eq).2
  -- what is left to do once the direct map below has all changes
  have pays : ∀ s₁ : Store, s₁.maps[b.index]? = some (.direct d) → s₁.disk = s.disk →
      s₁.engines = s.engines → ∃ s', b.close s₁ = .ok () s' ∧
        s'.disk = (d.save s.disk).2.2 ∧ s'.engines = s.engines := by
    intro s₁ base disk engines
    rw [← disk] at saved ⊢
    rw [← engines]
    exact close_of_saved base h.isOpen saved
  obtain ⟨rfl, rfl⟩ | ⟨front, rfl, below, -, -,
      ⟨x, state, isOpen, rfl, rfl⟩ | ⟨a, state, rfl, rfl⟩⟩ :=
    rests.kinds h.layout h.opened
  · cases writes
    exact pays s rests.base rfl rfl
  · have ne := ne_of_role state rfl rests.base
    have state₁ := maps_set_self (.buffered { x with closed := true }) state
    have base₁ := (maps_set_of_ne s (.buffered { x with closed := true }) ne.symm).trans rests.base
    obtain ⟨stats, s₁, merged, base, disk, engines⟩ :=
      merge_writes (lawful _ rfl) state₁ rfl rfl base₁ writes
    obtain ⟨s', run, paid⟩ := pays s₁ base disk engines
    rw [MapHandle.close_buffered state isOpen below, Action.run_bind, merged]
    simp only [run]
    exact ⟨s', rfl, paid⟩
  · obtain ⟨left, s₁, switched, base, disk, engines⟩ :=
      switchToDirect_writes lawful state rests.base writes
    obtain ⟨s', run, paid⟩ := pays s₁ base disk engines
    rw [MapHandle.close_adaptive state below, Action.run_bind, switched]
    exact ⟨s', run, paid⟩

end Store

end MapStore
