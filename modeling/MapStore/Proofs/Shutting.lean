/-
MapStore.Proofs.Shutting — a buffered map is closed, or stays open whole.

Closing a buffered map merges what waits and then closes the map below. From
its start until it is refused, if it is, the map refuses everyone, so what
arrives at the writes of that last merge is refused and leaves no trace
(`deliver_closed`). The map below may fail any of these writes, by its plan or
because its data types do not admit a change, and it may fail to close.

Nothing but the two maps changes, and while the map is shut nothing but the
merge changes them. So a store on the way is told by the two (`pair`), a slot
that is merged is the first of the buffer and leaves it (`mergeSlot_closed`),
and a merge ends with an empty buffer or with the rest of it (`drain_closed`).
The contents below and what is still buffered are at every moment the contents
before (`Midway.contents`). So a close that is refused leaves the map open with
those contents: `close_all_or_rest`. `Covers` lets the map below panic as well;
what becomes of the map then is said in `Proofs.Stranding`.
-/
import MapStore.Proofs.Arriving
import MapStore.Proofs.KeyOrders
import MapStore.Proofs.UpkeepMoves

namespace MapStore

open PlainMap (changeAll change checkChange)
open WriteBuffer (changesOf)

/-! ## The map below -/

/-- What a write to a closed map is answered. -/
def Arrival.refused (name : String) : Except Fault (Option Bytes) :=
  .error (.error (.mapClosed name))

namespace FaultyMap

variable {f f' f'' : FaultyMap} {name : String} {first rest : List (Bytes × Change)}
  {slots : List (Bytes × Slot)}

/-- Nothing that the map itself has to say stands in the way of merging the
slots and closing it. -/
structure Works (f : FaultyMap) (slots : List (Bytes × Slot)) : Prop where
  write : f.plan.write = none
  close : f.plan.close = none
  isOpen : f.inner.closed = false
  admits : ∀ entry ∈ slots,
    checkChange f.inner.keyType f.inner.valueType entry.1 entry.2.change = .ok ()

/-- The map after the changes were made to it, and after some of what was to
arrive did and was refused as by a closed map. -/
structure Changed (name : String) (f f' : FaultyMap) (changes : List (Bytes × Change)) : Prop where
  inner : f'.inner = { f.inner with table := changeAll f.inner.table changes }
  plan : ∃ n, f'.plan = { f.plan with writeAfter := n }
  refused : ∃ n, f'.answers = f.answers ++ List.replicate n (Arrival.refused name) ∧
    n + f'.arrivals.length = f.arrivals.length
  arrivals : ∀ a ∈ f'.arrivals, a ∈ f.arrivals

namespace Changed

theorem refl (name : String) (f : FaultyMap) : Changed name f f [] :=
  ⟨rfl, ⟨_, rfl⟩, ⟨0, by simp, Nat.zero_add _⟩, fun _ mem => mem⟩

theorem trans (h : Changed name f f' first) (h' : Changed name f' f'' rest) :
    Changed name f f'' (first ++ rest) := by
  obtain ⟨n, plan⟩ := h.plan
  obtain ⟨n', plan'⟩ := h'.plan
  obtain ⟨k, answers, count⟩ := h.refused
  obtain ⟨k', answers', count'⟩ := h'.refused
  refine ⟨?_, ⟨n', by rw [plan', plan]⟩, ⟨k + k', ?_, by omega⟩,
    fun a mem => h.arrivals a (h'.arrivals a mem)⟩
  · rw [h'.inner, h.inner, PlainMap.changeAll_append]
  · rw [answers', answers, List.append_assoc, List.replicate_append_replicate]

/-- A map that works goes on working while it is written to. -/
theorem works (h : Changed name f f' first) (works : f.Works slots)
    {left : List (Bytes × Slot)} (among : ∀ entry ∈ left, entry ∈ slots) : f'.Works left := by
  obtain ⟨n, plan⟩ := h.plan
  refine ⟨?_, ?_, ?_, fun entry mem => ?_⟩
  · rw [plan]
    exact works.write
  · rw [plan]
    exact works.close
  · rw [h.inner]
    exact works.isOpen
  · rw [h.inner]
    exact works.admits entry (among entry mem)

end Changed

/-- What arrives with a change is among what was to arrive, and no longer is
afterwards. -/
theorem length_takeArrivals (f : FaultyMap) (c : Change) :
    (f.takeArrivals c).1.length + (f.takeArrivals c).2.arrivals.length = f.arrivals.length := by
  cases c with
  | value bytes =>
    have parts := congrArg List.length (headD_append_flatten_tail f.onPut)
    rw [List.length_append] at parts
    simp only [takeArrivals, arrivals, List.length_append]
    omega
  | tombstone =>
    have parts := congrArg List.length (headD_append_flatten_tail f.onRemove)
    rw [List.length_append] at parts
    simp only [takeArrivals, arrivals, List.length_append]
    omega

/-- Only the setting for writes fails one. -/
theorem nextWrite_settings {p : FaultPlan} (coming : p.coming = []) :
    ∃ n, (nextWrite p).2 = { p with writeAfter := n } ∧
      ∀ fault, (nextWrite p).1 = some fault → p.write = some fault := by
  obtain ⟨read, write, save, close, after, _⟩ := p
  obtain rfl := coming
  cases after with
  | zero => exact ⟨0, rfl, fun _ eq => eq⟩
  | succ n => exact ⟨n, rfl, fun _ eq => nomatch eq⟩

/-- A write either gives way to a fault or makes the change; of the plan only
the number of writes that still succeed changes. -/
theorem write_settings (coming : f.plan.coming = []) (key : Bytes) (c : Change) :
    ∃ n, (∃ previous, f.write key c = (.ok previous, { f with
        plan := { f.plan with writeAfter := n }
        inner := { f.inner with table := (change f.inner.table key c).2 } })) ∨
      ∃ fault, f.write key c = (.error fault, { f with plan := { f.plan with writeAfter := n } }) ∧
        (f.plan.write = some fault ∨ ∃ cause, fault = .error cause ∧
          f.inner.write key c = .error cause) := by
  obtain ⟨n, plan, fault⟩ := nextWrite_settings coming
  refine ⟨n, ?_⟩
  unfold write
  simp only [plan]
  cases next : (nextWrite f.plan).1 with
  | some fault' => exact .inr ⟨fault', rfl, .inl (fault fault' next)⟩
  | none =>
    cases made : f.inner.write key c with
    | error cause => exact .inr ⟨_, rfl, .inr ⟨cause, rfl, rfl⟩⟩
    | ok result =>
      obtain ⟨previous, inner⟩ := result
      obtain ⟨-, -, -, rfl⟩ := PlainMap.write_eq_ok.1 made
      exact .inl ⟨previous, rfl⟩

end FaultyMap

/-- A merge of the map came as far as some slot: the changes before it were
made to the map below, and the others wait in `w`. -/
structure BufferedMap.Midway (x : BufferedMap) (f : FaultyMap) (w : WriteBuffer)
    (f' : FaultyMap) : Prop where
  order : w.slots.order = x.buffer.slots.order
  parts : ∃ merged, x.buffer.snapshot = merged ++ w.snapshot ∧
    FaultyMap.Changed x.name f f' (changesOf merged)

namespace BufferedMap.Midway

variable {x : BufferedMap} {f f' f'' : FaultyMap} {w w' : WriteBuffer}

/-- No slot was merged yet. -/
theorem refl (x : BufferedMap) (f : FaultyMap) : x.Midway f x.buffer f :=
  ⟨rfl, [], rfl, .refl x.name f⟩

/-- A merge that goes on from there. -/
theorem trans (h : x.Midway f w f') (h' : { x with buffer := w }.Midway f' w' f'') :
    x.Midway f w' f'' := by
  obtain ⟨first, split, changed⟩ := h.parts
  obtain ⟨rest, split', changed'⟩ := h'.parts
  refine ⟨h'.order.trans h.order, first ++ rest, ?_, ?_⟩
  · rw [split, List.append_assoc]
    exact congrArg (first ++ ·) split'
  · rw [changesOf, List.map_append]
    exact changed.trans changed'

/-- What the map below was told to do when it is closed or read is what it was
told before. -/
theorem plan (h : x.Midway f w f') : ∃ n, f'.plan = { f.plan with writeAfter := n } := by
  obtain ⟨_, -, changed⟩ := h.parts
  exact changed.plan

/-- Between them the two have the contents that they had. -/
theorem contents (h : x.Midway f w f') :
    w.overTable f'.inner.table = x.buffer.overTable f.inner.table := by
  obtain ⟨merged, split, changed⟩ := h.parts
  rw [changed.inner, WriteBuffer.overTable, WriteBuffer.overTable, WriteBuffer.changes,
    WriteBuffer.changes, split, List.map_append, PlainMap.changeAll_append]
  rfl

/-- With nothing left in the buffer the map below has them all. -/
theorem table (h : x.Midway f w f') (nothing : w.snapshot = []) :
    f'.inner.table = x.buffer.overTable f.inner.table := by
  rw [← h.contents, WriteBuffer.overTable, WriteBuffer.changes, nothing]
  rfl

end BufferedMap.Midway

namespace Store

open FaultyMap (Changed)

variable {s s' : Store} {m b : MapHandle} {x : BufferedMap} {f f' : FaultyMap} {key : Bytes}
  {depth : Nat}

/-! ## Two maps of a store -/

/-- The store in which `m` is the buffered map and `b` the faulty one. -/
def pair (s : Store) (m b : MapHandle) (x : BufferedMap) (f : FaultyMap) : Store :=
  (s.set b (.faulty f)).set m (.buffered x)

/-- Of the two handles the second is that of an older map. -/
structure Stacked (s : Store) (m b : MapHandle) : Prop where
  there : m.index < s.maps.length
  below : b.index < m.index

namespace Stacked

theorem ne (h : s.Stacked m b) : m ≠ b := by
  rintro rfl
  exact Nat.lt_irrefl _ h.below

theorem front (h : s.Stacked m b) (x : BufferedMap) (f : FaultyMap) :
    (s.pair m b x f).maps[m.index]? = some (.buffered x) := by
  have there : m.index < (s.set b (.faulty f)).maps.length := by
    simpa [set] using h.there
  exact maps_set_self _ (List.getElem?_eq_getElem there)

theorem behind (h : s.Stacked m b) (x : BufferedMap) (f : FaultyMap) :
    (s.pair m b x f).maps[b.index]? = some (.faulty f) := by
  have there : b.index < s.maps.length := Nat.lt_trans h.below h.there
  rw [pair, maps_set_of_ne _ _ h.ne]
  exact maps_set_self _ (List.getElem?_eq_getElem there)

theorem set_behind (h : s.Stacked m b) (x : BufferedMap) (f f' : FaultyMap) :
    (s.pair m b x f).set b (.faulty f') = s.pair m b x f' := by
  have apart : m.index ≠ b.index := (Nat.ne_of_lt h.below).symm
  simp only [pair, set, List.set_comm _ _ apart, List.set_set]

end Stacked

theorem set_front (s : Store) (m b : MapHandle) (x x' : BufferedMap) (f : FaultyMap) :
    (s.pair m b x f).set m (.buffered x') = s.pair m b x' f := by
  simp [pair]

theorem Stacked.pair_pair (h : s.Stacked m b) (x x' : BufferedMap) (f f' : FaultyMap) :
    (s.pair m b x f).pair m b x' f' = s.pair m b x' f' := by
  rw [pair, h.set_behind, set_front]

/-! ## Readers -/

/-- An open map below answers with its entries. -/
theorem reads_faulty (behind : s.maps[b.index]? = some (.faulty f))
    (isOpen : f.inner.closed = false) (reads : f.plan.read = none) (coming : f.plan.coming = []) :
    s.Reads b f.inner.table := by
  have entered : ∀ count, Action.enterFaulty b f f.plan.read count s =
      .ok () (s.set b (.faulty { f with calls := count f.calls })) := by
    intro count
    rw [Action.run_enterFaulty, FaultPlan.next, coming]
    simp only [reads]
  constructor
  · intro key
    refine ⟨s.set b (.faulty { f with calls := { f.calls with get := f.calls.get + 1 } }), ?_⟩
    rw [MapHandle.get_faulty behind, Action.run_bind, entered, PlainMap.get_open isOpen]
    rfl
  · refine ⟨s.set b (.faulty { f with calls :=
      { f.calls with entries := f.calls.entries + 1 } }), ?_⟩
    rw [MapHandle.entries_faulty behind, Action.run_bind, entered, PlainMap.entries_open isOpen]
    rfl

/-- An open buffered map answers with the entries of the map below and the
changes that wait. -/
theorem reads_buffered (state : s.maps[m.index]? = some (.buffered x)) (isOpen : x.closed = false)
    (below : x.backing.index < m.index) {t : SortedTable Bytes Bytes}
    (lawful : Std.TransCmp t.order) (order : x.buffer.slots.order = t.order)
    (behind : s.Reads x.backing t) : s.Reads m (x.buffer.overTable t) := by
  constructor
  · intro key
    rw [WriteBuffer.get?_overTable x.buffer t order, MapHandle.get_buffered state isOpen below]
    cases there : x.buffer.get? key with
    | some c => exact ⟨s, rfl⟩
    | none =>
      obtain ⟨s', run⟩ := behind.get key
      exact ⟨s', run⟩
  · obtain ⟨s', run⟩ := behind.entries
    refine ⟨s', ?_⟩
    rw [MapHandle.entries_buffered state isOpen below,
      ← WriteBuffer.over_toList x.buffer t order]
    simp [run]

/-! ## While the map is shut -/

/-- The map refuses everyone, as a closed map of this name, and stays as it is. -/
structure Refuses (s : Store) (m : MapHandle) (name : String) : Prop where
  get : ∀ key, m.get key s = .error (.error (.mapClosed name)) s
  put : ∀ key value, m.put key value s = .error (.error (.mapClosed name)) s
  remove : ∀ key, m.remove key s = .error (.error (.mapClosed name)) s
  size : m.size s = .error (.error (.mapClosed name)) s
  entries : m.entries s = .error (.error (.mapClosed name)) s

theorem refuses_of_closed (state : s.maps[m.index]? = some (.buffered x))
    (closed : x.closed = true) :
    s.Refuses m x.name := by
  have entries := MapHandle.entries_closed state closed
  refine ⟨MapHandle.get_closed state closed, fun key value => ?_, fun key => ?_, ?_, entries⟩
  · simp [MapHandle.put, MapHandle.write_closed state closed]
  · simp [MapHandle.remove, MapHandle.write_closed state closed]
  · rw [MapHandle.size_of_buffer state rfl]
    simp [entries]

section Shut

variable (stacked : s.Stacked m b)

include stacked

/-- A write that arrives at a shut map is refused, and that is all. -/
theorem deliver_closed (closed : x.closed = true) {a : Arrival} (target : a.target = m)
    (depth : Nat) : b.deliver depth a (s.pair m b x f) =
      .ok () (s.pair m b x
        { f with answers := f.answers ++ [Arrival.refused x.name] }) := by
  have refused : m.write depth a.key a.change (s.pair m b x f) =
      .error (.error (.mapClosed x.name)) (s.pair m b x f) :=
    MapHandle.write_closed (stacked.front x f) closed
  unfold MapHandle.deliver Action.noteAnswer
  simp only [Action.run_bind, Action.run_attempt, target, refused,
    Action.run_modifyState _ (stacked.behind x f), stacked.set_behind]
  rfl

/-- A whole batch is refused. -/
theorem batch_closed (closed : x.closed = true) {l : List Arrival} (targets : ∀ a ∈ l, a.target = m)
    (depth : Nat) : l.forM (b.deliver depth) (s.pair m b x f) =
      .ok () (s.pair m b x
        { f with
          answers := f.answers ++ List.replicate l.length (Arrival.refused x.name) }) := by
  induction l generalizing f with
  | nil => simp
  | cons a rest ih =>
    show (do b.deliver depth a; rest.forM (b.deliver depth) : Action Unit) _ = _
    rw [Action.run_bind, deliver_closed stacked closed (targets a (List.mem_cons_self ..))]
    simp only
    rw [ih fun a' mem => targets a' (List.mem_cons_of_mem _ mem)]
    simp only [List.append_assoc, List.length_cons, List.replicate_succ, List.singleton_append]

/-- A write to the map below while the one above is shut: what arrives with it
is refused, and then it is made, or gives way to a fault. -/
theorem write_behind_closed (closed : x.closed = true) (coming : f.plan.coming = [])
    (targets : ∀ a ∈ f.arrivals, a.target = m) (key : Bytes) (c : Change) :
    (∃ previous f', b.write ((s.pair m b x f).maps.foldl (fun n st => n + st.pendingArrivals) 0)
        key c (s.pair m b x f) = .ok previous (s.pair m b x f') ∧
      Changed x.name f f' [(key, c)]) ∨
    ∃ fault f', b.write ((s.pair m b x f).maps.foldl (fun n st => n + st.pendingArrivals) 0)
        key c (s.pair m b x f) = .error fault (s.pair m b x f') ∧
      Changed x.name f f' [] ∧
      (f.plan.write = some fault ∨
        ∃ cause, fault = .error cause ∧ f.inner.write key c = .error cause) := by
  have behind := stacked.behind x f
  -- the map that counted the call, and whose batch was refused
  obtain ⟨f₁, hf₁⟩ : ∃ f₁, f₁ = { (f.takeArrivals c).2 with
      calls := FaultyMap.countWrite f.calls c
      answers := f.answers ++
        List.replicate (f.takeArrivals c).1.length (Arrival.refused x.name) } := ⟨_, rfl⟩
  have inner : f₁.inner = f.inner := by rw [hf₁]; cases c <;> rfl
  have plan : f₁.plan = f.plan := by rw [hf₁]; cases c <;> rfl
  have answers : (f.takeArrivals c).2.answers = f.answers := by cases c <;> rfl
  have left : f₁.arrivals = (f.takeArrivals c).2.arrivals := by rw [hf₁]; rfl
  have drained : Changed x.name f f₁ [] := by
    refine ⟨by rw [inner]; rfl, ⟨f.plan.writeAfter, by rw [plan]⟩,
      ⟨(f.takeArrivals c).1.length, by rw [hf₁], ?_⟩, fun a mem => ?_⟩
    · rw [left]
      exact FaultyMap.length_takeArrivals f c
    · rw [left] at mem
      exact FaultyMap.mem_takeArrivals (.inr mem)
  have entered : b.write ((s.pair m b x f).maps.foldl (fun n st => n + st.pendingArrivals) 0)
      key c (s.pair m b x f) = b.writeFaulty key c (s.pair m b x f₁) := by
    rw [MapHandle.write_deliver behind (pendingArrivals_pos behind), stacked.set_behind,
      Action.run_bind, batch_closed stacked closed fun a mem =>
        targets a (FaultyMap.mem_takeArrivals (c := c) (.inl mem))]
    simp only [answers, hf₁]
  have written : ∀ answer f', f₁.write key c = (answer, f') →
      b.writeFaulty key c (s.pair m b x f₁) =
        (MonadExcept.ofExcept answer : Action _) (s.pair m b x f') := by
    intro answer f' eq
    unfold MapHandle.writeFaulty
    simp only [Action.run_bind, Action.run_state (stacked.behind x f₁), Action.run_setState, eq,
      stacked.set_behind]
  rw [entered]
  obtain ⟨n, ⟨previous, eq⟩ | ⟨fault, eq, reason⟩⟩ :=
    FaultyMap.write_settings (by rw [plan]; exact coming) key c
  · refine .inl ⟨previous, _, written _ _ eq, ?_⟩
    show Changed x.name f _ ([] ++ [(key, c)])
    exact drained.trans ⟨rfl, ⟨n, rfl⟩, ⟨0, by simp, Nat.zero_add _⟩, fun _ mem => mem⟩
  · rw [plan, inner] at reason
    refine .inr ⟨fault, _, written _ _ eq, ?_, reason⟩
    show Changed x.name f _ ([] ++ [])
    exact drained.trans ⟨rfl, ⟨n, rfl⟩, ⟨0, by simp, Nat.zero_add _⟩, fun _ mem => mem⟩

/-- The first slot of a shut map is merged and leaves the buffer, or the map
below fails and it stays. A panic is one that the map was told to end with. -/
theorem mergeSlot_closed (closed : x.closed = true) (backing : x.backing = b)
    (coming : f.plan.coming = []) (targets : ∀ a ∈ f.arrivals, a.target = m)
    (lawful : Std.TransCmp x.buffer.slots.order)
    {slot : Slot} {rest : List (Bytes × Slot)} (snapshot : x.buffer.snapshot = (key, slot) :: rest)
    (stats : MergeStats) :
    (∃ stats' w f', m.mergeSlot x.toFront stats (key, slot) (s.pair m b x f) =
        .ok stats' (s.pair m b { x with buffer := w } f') ∧
      w.snapshot = rest ∧ x.Midway f w f') ∨
    ∃ fault f', m.mergeSlot x.toFront stats (key, slot) (s.pair m b x f) =
        .error (x.mergeFault fault) (s.pair m b x f') ∧
      x.Midway f x.buffer f' ∧ (∀ message, fault = .panic message → f.plan.write = some fault) ∧
      ¬ f.Works ((key, slot) :: rest) := by
  obtain ⟨previous, f', run, changed⟩ | ⟨fault, f', run, changed, reason⟩ :=
    write_behind_closed stacked closed coming targets key slot.change
  · obtain ⟨dropped, left⟩ := WriteBuffer.snapshot_drop_head x.buffer snapshot
    have drop : m.dropSlot key slot.seq (s.pair m b x f') = .ok true (s.pair m b
        { x with buffer := (x.buffer.eraseUnchanged key slot.seq).2 } f') := by
      unfold MapHandle.dropSlot
      rw [Action.run_bind, Action.run_state (stacked.front x f')]
      simp only [MapState.buffer?, Action.run_bind, Action.run_modifyState _ (stacked.front x f'),
        MapState.withBuffer, set_front, dropped]
      rfl
    refine .inl ⟨stats.apply slot.change, _, f', ?_, left, ?_⟩
    · unfold MapHandle.mergeSlot
      simp only [Action.run_bind, Action.run_pendingArrivals, Action.run_attempt, backing, run,
        drop]
      rfl
    · exact ⟨WriteBuffer.order_slots_eraseUnchanged .., [(key, slot)], by rw [snapshot, left]; rfl,
        changed⟩
  · refine .inr ⟨fault, f', ?_, ⟨rfl, [], rfl, changed⟩, fun message panics => ?_, fun works => ?_⟩
    · unfold MapHandle.mergeSlot
      simp only [Action.run_bind, Action.run_pendingArrivals, Action.run_attempt, backing, run]
      cases fault <;> rfl
    · obtain settled | ⟨cause, eq, -⟩ := reason
      · exact settled
      · rw [eq] at panics
        cases panics
    · obtain settled | ⟨cause, -, refused⟩ := reason
      · rw [works.write] at settled
        cases settled
      · have admitted := works.admits _ (List.mem_cons_self ..)
        have made := PlainMap.write_eq_ok.2 ⟨works.isOpen, admitted, rfl, rfl⟩
        rw [made] at refused
        cases refused

/-- The slots of a shut map are merged in their order, all of them or up to the
first at which the map below fails. -/
theorem drain_closed (closed : x.closed = true) (backing : x.backing = b)
    (coming : f.plan.coming = []) (targets : ∀ a ∈ f.arrivals, a.target = m)
    (lawful : Std.TransCmp x.buffer.slots.order)
    {left : List (Bytes × Slot)} (snapshot : x.buffer.snapshot = left) (stats : MergeStats) :
    ∃ w f', x.Midway f w f' ∧
      ((∃ stats', left.foldlM (m.mergeSlot x.toFront) stats (s.pair m b x f) =
          .ok stats' (s.pair m b { x with buffer := w } f') ∧ w.snapshot = []) ∨
        ∃ fault, left.foldlM (m.mergeSlot x.toFront) stats (s.pair m b x f) =
            .error (x.mergeFault fault) (s.pair m b { x with buffer := w } f') ∧ w.snapshot ≠ [] ∧
          (∀ message, fault = .panic message → f.plan.write = some fault) ∧ ¬ f.Works left) := by
  induction left generalizing x f stats with
  | nil => exact ⟨x.buffer, f, .refl x f, .inl ⟨stats, rfl, snapshot⟩⟩
  | cons entry left ih =>
    obtain ⟨key, slot⟩ := entry
    rw [List.foldlM_cons, Action.run_bind]
    obtain ⟨stats₁, w₁, f₁, run, snapshot₁, first⟩ | ⟨fault, f₁, run, first, settled, broken⟩ :=
      mergeSlot_closed stacked closed backing coming targets lawful snapshot stats
    · obtain ⟨n, plan⟩ := first.plan
      obtain ⟨merged, -, changed⟩ := first.parts
      have lawful₁ : Std.TransCmp w₁.slots.order := first.order ▸ lawful
      rw [run]
      obtain ⟨w, f', later, ends⟩ :=
        ih (x := { x with buffer := w₁ }) (f := f₁) closed backing (by rw [plan]; exact coming)
          (fun a mem => targets a (changed.arrivals a mem)) lawful₁ snapshot₁ stats₁
      refine ⟨w, f', first.trans later, ?_⟩
      obtain done | ⟨fault, run', waits, settled, broken⟩ := ends
      · exact .inl done
      · refine .inr ⟨fault, run', waits, fun message panics => ?_, fun works => broken ?_⟩
        · rw [← settled message panics, plan]
        · exact changed.works works fun entry mem => List.mem_cons_of_mem _ mem
    · rw [run]
      exact ⟨x.buffer, f₁, first, .inr ⟨fault, rfl, by rw [snapshot]; simp, settled, broken⟩⟩

/-- The map below is closed and gives up its entries, or it refuses. -/
theorem close_behind (coming : f.plan.coming = []) :
    ∃ calls, b.close (s.pair m b x f) = match f.plan.close with
      | none => .ok () (s.pair m b x { f with calls, inner := f.inner.close })
      | some fault => .error fault (s.pair m b x { f with calls }) := by
  refine ⟨{ f.calls with close := f.calls.close + 1 }, ?_⟩
  have behind := stacked.behind x f
  have next : f.plan.next f.plan.close = (f.plan.close, f.plan) := by
    rw [FaultPlan.next, coming]
  rw [MapHandle.close, Action.run_bind, Action.run_state behind]
  simp only [Action.run_bind, Action.run_enterFaulty, next]
  cases f.plan.close with
  | some fault => simp only [stacked.set_behind]
  | none =>
    simp only [stacked.set_behind, Action.run_modifyState _ (stacked.behind _ _)]

end Shut

/-! ## The close -/

/-- An open buffered map over a map that answers readers, with the same order
of keys. What is still to arrive arrives at the buffered map. The map below may
fail whenever it is written to or closed. -/
structure Covers (s : Store) (m b : MapHandle) (x : BufferedMap) (f : FaultyMap) : Prop where
  state : s.maps[m.index]? = some (.buffered x)
  isOpen : x.closed = false
  backing : x.backing = b
  below : b.index < m.index
  behind : s.maps[b.index]? = some (.faulty f)
  behindOpen : f.inner.closed = false
  reads : f.plan.read = none
  coming : f.plan.coming = []
  lawful : Std.TransCmp x.buffer.slots.order
  order : x.buffer.slots.order = f.inner.table.order
  targets : ∀ a ∈ f.arrivals, a.target = m

/-- An open buffered map over a map that answers readers, with the same order
of keys. What is still to arrive arrives at the buffered map; the map below may
refuse to be written to or closed, but does not panic. -/
structure Closable (s : Store) (m b : MapHandle) (x : BufferedMap) (f : FaultyMap) : Prop where
  state : s.maps[m.index]? = some (.buffered x)
  isOpen : x.closed = false
  backing : x.backing = b
  below : b.index < m.index
  behind : s.maps[b.index]? = some (.faulty f)
  behindOpen : f.inner.closed = false
  reads : f.plan.read = none
  coming : f.plan.coming = []
  calm : ∀ message, f.plan.write ≠ some (.panic message) ∧ f.plan.close ≠ some (.panic message)
  lawful : Std.TransCmp x.buffer.slots.order
  order : x.buffer.slots.order = f.inner.table.order
  targets : ∀ a ∈ f.arrivals, a.target = m

theorem Closable.covers (h : s.Closable m b x f) : s.Covers m b x f := { h with }

/-- The map was closed over one that held `contents` when it was closed in its
turn. -/
structure ShutOver (s s' : Store) (m b : MapHandle) (name : String)
    (contents : SortedTable Bytes Bytes) : Prop where
  /-- After the last merge the map below shows the contents, and then it is
  closed. -/
  below : ∃ stats s₁, m.merge ((m.setClosed true).after s) = .ok stats s₁ ∧
    s₁.Reads b contents ∧ b.close s₁ = .ok () s'
  empty : ∃ bytes, m.pending s' = .ok (0, bytes) s'
  /-- It refuses everyone and is left alone by later closes, whatever becomes of
  other maps. -/
  later : ∀ s'', s''.maps[m.index]? = s'.maps[m.index]? →
    s''.Refuses m name ∧ m.close s'' = .ok () s''

/-- Whatever arrived from one store to the other was refused. -/
def TurnedAway (s s' : Store) (b : MapHandle) (name : String) : Prop :=
  ∃ f f' n, s.maps[b.index]? = some (.faulty f) ∧ s'.maps[b.index]? = some (.faulty f') ∧
    f'.answers = f.answers ++ List.replicate n (Arrival.refused name) ∧
    n + f'.arrivals.length = f.arrivals.length

/-- The map is open as before, with the same contents; it was merged up to some
slot, and those from there on are the ones that wait. -/
structure StaysOpen (s s' : Store) (m b : MapHandle) (x : BufferedMap) (f : FaultyMap) : Prop where
  contents : s'.Reads m (x.buffer.overTable f.inner.table)
  rest : ∃ merged left w f', x.buffer.snapshot = merged ++ left ∧
    s'.maps[m.index]? = some (.buffered { x with buffer := w }) ∧ w.snapshot = left ∧
    s'.maps[b.index]? = some (.faulty f') ∧
    f'.inner = { f.inner with table := changeAll f.inner.table (changesOf merged) }
  /-- Once the map below works a close goes through. -/
  retries : ∀ x' f' f'', s'.maps[m.index]? = some (.buffered x') →
    s'.maps[b.index]? = some (.faulty f') → f''.inner = f'.inner → f''.plan.read = none →
    f''.plan.coming = [] → f''.Works x'.buffer.snapshot → (∀ a ∈ f''.arrivals, a.target = m) →
    ∃ s'', m.close (s'.set b (.faulty f'')) = .ok () s'' ∧
      (s'.set b (.faulty f'')).ShutOver s'' m b x.name (x.buffer.overTable f.inner.table) ∧
      (s'.set b (.faulty f'')).TurnedAway s'' b x.name

namespace Covers

variable {w : WriteBuffer} {f'' : FaultyMap}

theorem stacked (h : s.Covers m b x f) : s.Stacked m b :=
  ⟨(List.getElem?_eq_some_iff.1 h.state).1, h.below⟩

/-- Readers find what the map below has and what waits. -/
theorem reads_through (h : s.Covers m b x f) : s.Reads m (x.buffer.overTable f.inner.table) := by
  have below := h.below
  have behind := reads_faulty h.behind h.behindOpen h.reads h.coming
  obtain rfl := h.backing
  exact reads_buffered h.state h.isOpen below (h.order ▸ h.lawful) h.order behind

/-- On the way of a merge the map below answers readers with what it has. -/
theorem reads_below (h : s.Covers m b x f) (midway : x.Midway f w f') (x' : BufferedMap) :
    (s.pair m b x' f').Reads b f'.inner.table := by
  obtain ⟨n, plan⟩ := midway.plan
  obtain ⟨merged, -, changed⟩ := midway.parts
  refine reads_faulty (h.stacked.behind _ f') ?_ ?_ ?_
  · rw [changed.inner]
    exact h.behindOpen
  · rw [plan]
    exact h.reads
  · rw [plan]
    exact h.coming

/-- The same map with the rest of its buffer, over a map that changed. -/
theorem midway (h : s.Covers m b x f) (midway : x.Midway f w f') :
    (s.pair m b { x with buffer := w } f').Covers m b { x with buffer := w } f' := by
  obtain ⟨n, plan⟩ := midway.plan
  obtain ⟨merged, -, changed⟩ := midway.parts
  refine ⟨h.stacked.front _ _, h.isOpen, h.backing, h.below, h.stacked.behind _ _, ?_, ?_, ?_,
    midway.order ▸ h.lawful, ?_, fun a mem => h.targets a (changed.arrivals a mem)⟩
  · rw [changed.inner]
    exact h.behindOpen
  · rw [plan]
    exact h.reads
  · rw [plan]
    exact h.coming
  · rw [changed.inner]
    exact midway.order.trans (h.order.trans (PlainMap.order_changeAll _ _).symm)

/-- What arrived meanwhile was refused. -/
theorem turned_away (h : s.Covers m b x f) (midway : x.Midway f w f') (x' : BufferedMap)
    (calls : CallCounts) (inner : PlainMap) :
    s.TurnedAway (s.pair m b x' { f' with calls, inner }) b x.name := by
  obtain ⟨merged, -, changed⟩ := midway.parts
  obtain ⟨n, answers, count⟩ := changed.refused
  exact ⟨f, _, n, h.behind, h.stacked.behind _ _, answers, count⟩

/-- The map is shut for its last merge. -/
theorem after_shut (h : s.Covers m b x f) :
    s.set m (.buffered { x with closed := true }) = s.pair m b { x with closed := true } f := by
  rw [pair, set_self h.behind]

/-- The map is opened again. -/
theorem after_reopen (h : s.Covers m b x f) (w : WriteBuffer) (f' : FaultyMap) :
    (m.setClosed false).after (s.pair m b { x with buffer := w, closed := true } f') =
      s.pair m b { x with buffer := w } f' := by
  have run : m.setClosed false (s.pair m b { x with buffer := w, closed := true } f') =
      .ok () ((s.pair m b { x with buffer := w, closed := true } f').set m
        (.buffered { x with buffer := w, closed := false })) :=
    Action.run_modifyState _ (h.stacked.front _ f')
  rw [Action.after_of_ok run, set_front, ← h.isOpen]

/-- The merge of a shut map ends with an empty buffer, or with the rest of it. -/
theorem merge_cases (h : s.Covers m b x f) :
    ∃ w f', x.Midway f w f' ∧
      ((∃ stats, m.merge (s.pair m b { x with closed := true } f) =
          .ok stats (s.pair m b { x with buffer := w, closed := true } f') ∧ w.snapshot = []) ∨
        ∃ fault, m.merge (s.pair m b { x with closed := true } f) =
            .error (x.mergeFault fault) (s.pair m b { x with buffer := w, closed := true } f') ∧
          w.snapshot ≠ [] ∧ (∀ message, fault = .panic message → f.plan.write = some fault) ∧
          ¬ f.Works x.buffer.snapshot) := by
  have merge : m.merge (s.pair m b { x with closed := true } f) =
      x.buffer.snapshot.foldlM (m.mergeSlot x.toFront) .none
        (s.pair m b { x with closed := true } f) :=
    MapHandle.run_merge_buffered (x := { x with closed := true }) (h.stacked.front _ f)
  rw [merge]
  obtain ⟨w, f', midway, ends⟩ := drain_closed h.stacked (x := { x with closed := true }) rfl
    h.backing h.coming h.targets h.lawful rfl .none
  exact ⟨w, f', ⟨midway.order, midway.parts⟩, ends⟩

/-- Nothing waits in an empty buffer. -/
theorem pending_front (h : s.Covers m b x f) {closed : Bool} (nothing : w.snapshot = []) :
    m.pending (s.pair m b { x with buffer := w, closed } f') =
      .ok (0, w.size) (s.pair m b { x with buffer := w, closed } f') := by
  have empty : w.count = 0 := by
    rw [WriteBuffer.count, SortedTable.size_eq_length]
    exact congrArg List.length nothing
  unfold MapHandle.pending
  rw [Action.run_bind, Action.run_state (h.stacked.front _ f')]
  simp [MapState.buffer?, empty]

/-- A map that is shut refuses everyone and is not closed again. -/
theorem later (h : s.Covers m b x f) {s'' : Store}
    (same : s''.maps[m.index]? =
      (s.pair m b { x with buffer := w, closed := true } f').maps[m.index]?) :
    s''.Refuses m x.name ∧ m.close s'' = .ok () s'' := by
  have front := same.trans (h.stacked.front { x with buffer := w, closed := true } f')
  have refuses := refuses_of_closed front rfl
  have again := MapHandle.close_closed front rfl
  exact ⟨refuses, again⟩

/-- The map below closed after everything was merged into it. -/
theorem shut_over (h : s.Covers m b x f) {stats : MergeStats} {calls : CallCounts}
    (midway : x.Midway f w f') (nothing : w.snapshot = [])
    (merged : m.merge (s.pair m b { x with closed := true } f) =
      .ok stats (s.pair m b { x with buffer := w, closed := true } f'))
    (closing : b.close (s.pair m b { x with buffer := w, closed := true } f') = .ok ()
      (s.pair m b { x with buffer := w, closed := true }
        { f' with calls, inner := f'.inner.close })) :
    s.ShutOver (s.pair m b { x with buffer := w, closed := true }
      { f' with calls, inner := f'.inner.close }) m b x.name
      (x.buffer.overTable f.inner.table) := by
  refine ⟨⟨stats, _, ?_, ?_, closing⟩, ⟨w.size, h.pending_front nothing⟩, fun s'' => h.later⟩
  · rw [← merged, ← h.after_shut]
    exact congrArg m.merge (Action.after_of_ok (Action.run_modifyState _ h.state))
  · rw [← midway.table nothing]
    exact h.reads_below midway _

/-- A close goes through; or the map below refuses and the map is open again
with the rest of its slots; or it panics and the map stays shut with them. It
goes through if the map below works. -/
theorem close_cases (h : s.Covers m b x f) :
    (∃ s', m.close s = .ok () s' ∧ f.plan.close = none ∧
      s.ShutOver s' m b x.name (x.buffer.overTable f.inner.table) ∧ s.TurnedAway s' b x.name) ∨
    ∃ w f', x.Midway f w f' ∧ ¬ f.Works x.buffer.snapshot ∧
      ((∃ cause, m.close s = .error (.error cause) (s.pair m b { x with buffer := w } f')) ∨
        ∃ message, m.close s = .error (.panic message)
            (s.pair m b { x with buffer := w, closed := true } f') ∧
          (f.plan.write = some (.panic message) ∧ w.snapshot ≠ [] ∨
            f.plan.close = some (.panic message) ∧ w.snapshot = [])) := by
  rw [MapHandle.close_buffered h.state h.isOpen (h.backing.symm ▸ h.below), h.after_shut, h.backing,
    Action.run_bind]
  obtain ⟨w, f', midway, ⟨stats, run, nothing⟩ | ⟨fault, run, waits, settled, broken⟩⟩ :=
    h.merge_cases
  · obtain ⟨n, plan⟩ := midway.plan
    have setting : f'.plan.close = f.plan.close := by rw [plan]
    obtain ⟨calls, closing⟩ := close_behind h.stacked (x := { x with buffer := w, closed := true })
      (f := f') (by rw [plan]; exact h.coming)
    rw [setting] at closing
    rw [run]
    simp only [closing]
    cases refusal : f.plan.close with
    | none =>
      rw [refusal] at closing
      exact .inl ⟨_, rfl, rfl, h.shut_over midway nothing run closing,
        h.turned_away midway _ calls f'.inner.close⟩
    | some fault =>
      have counted : x.Midway f w { f' with calls } := by
        obtain ⟨merged, split, changed⟩ := midway.parts
        exact ⟨midway.order, merged, split, changed.inner, changed.plan, changed.refused,
          changed.arrivals⟩
      refine .inr ⟨w, { f' with calls }, counted, fun works => ?_, ?_⟩
      · rw [works.close] at refusal
        cases refusal
      · cases fault with
        | error cause => exact .inl ⟨cause, by simp only [h.after_reopen]⟩
        | panic message => exact .inr ⟨message, rfl, .inr ⟨rfl, nothing⟩⟩
  · rw [run]
    refine .inr ⟨w, f', midway, broken, ?_⟩
    cases fault with
    | error cause =>
      exact .inl ⟨.mergeFailed x.name cause.message,
        by simp only [Front.mergeFault, h.after_reopen]⟩
    | panic message => exact .inr ⟨message, rfl, .inl ⟨settled message rfl, waits⟩⟩

/-- The map below is told to behave otherwise. -/
theorem mended (h : s.Covers m b x f) (midway : x.Midway f w f') (inner : f''.inner = f'.inner)
    (reads : f''.plan.read = none) (coming : f''.plan.coming = [])
    (targets : ∀ a ∈ f''.arrivals, a.target = m) :
    (s.pair m b { x with buffer := w } f'').Covers m b { x with buffer := w } f'' := by
  have again := h.midway midway
  exact
    { again with
      state := h.stacked.front _ _
      behind := h.stacked.behind _ _
      behindOpen := inner ▸ again.behindOpen
      reads
      coming
      order := inner ▸ again.order
      targets }

/-- A map that is open with the rest of its slots is open whole. -/
theorem stays (h : s.Covers m b x f) (midway : x.Midway f w f') :
    s.StaysOpen (s.pair m b { x with buffer := w } f') m b x f := by
  have again := h.midway midway
  have whole := midway.contents
  obtain ⟨merged, split, changed⟩ := midway.parts
  refine ⟨whole ▸ again.reads_through, ⟨merged, w.snapshot, w, f', split, again.state, rfl,
    again.behind, changed.inner⟩, ?_⟩
  intro x' f₁ f₂ state behind inner reads coming works targets
  obtain rfl : { x with buffer := w } = x' := by
    rw [again.state] at state
    cases state
    rfl
  obtain rfl : f' = f₁ := by
    rw [again.behind] at behind
    cases behind
    rfl
  rw [h.stacked.set_behind]
  have covers := h.mended midway inner reads coming targets
  obtain ⟨s'', run, -, shut, away⟩ | ⟨_, _, -, broken, -⟩ := covers.close_cases
  · refine ⟨s'', run, ?_, away⟩
    rw [← whole, ← inner]
    exact shut
  · exact absurd works broken

end Covers

/-- Closing a buffered map is all or nothing lost. It goes through, and then
the map below was closed holding the contents; or it is refused, and then the
map is open with its contents and a later close goes through. Either way all
that arrived was refused. It goes through if the map below works, and only if
that does not refuse to be closed. -/
theorem close_all_or_rest (h : s.Closable m b x f) :
    s.Reads m (x.buffer.overTable f.inner.table) ∧
    ((∃ s', m.close s = .ok () s' ∧ f.plan.close = none ∧
        s.ShutOver s' m b x.name (x.buffer.overTable f.inner.table) ∧ s.TurnedAway s' b x.name) ∨
      ∃ cause s', m.close s = .error (.error cause) s' ∧ ¬ f.Works x.buffer.snapshot ∧
        s.StaysOpen s' m b x f ∧ s.TurnedAway s' b x.name) := by
  have covers := h.covers
  refine ⟨covers.reads_through, ?_⟩
  obtain went | ⟨w, f', midway, broken, ⟨cause, run⟩ | ⟨message, -, settled⟩⟩ := covers.close_cases
  · exact .inl went
  · exact .inr ⟨cause, _, run, broken, covers.stays midway,
      covers.turned_away midway _ f'.calls f'.inner⟩
  · obtain ⟨writes, -⟩ | ⟨closes, -⟩ := settled
    · exact absurd writes (h.calm message).1
    · exact absurd closes (h.calm message).2

/-- Two waiting changes, over a map that refuses to be closed. While the first
is merged the other key is put, and while the second is merged the first key is
removed. -/
def jammed : BufferedMap × FaultyMap :=
  ({ name := "m", id := 1, backing := ⟨0⟩, keyType := .bytes, valueType := .bytes
     buffer := (((WriteBuffer.empty Bytes.compare).insert [1] (.value [10])).2.insert [2]
       .tombstone).2
     closed := false },
   { inner := .empty "m" 1 .bytes .bytes, calls := .zero
     plan := { FaultPlan.none with close := some (.error (.io .system)) }
     onPut := [[⟨⟨1⟩, [2], .value [20]⟩]], onRemove := [[⟨⟨1⟩, [1], .tombstone⟩]]
     answers := [], settings := none })

/-- The store that holds the two maps. -/
def jammedStore : Store :=
  { Store.onDisk .empty with maps := [.faulty jammed.2, .buffered jammed.1] }

theorem jammed_closable : jammedStore.Closable ⟨1⟩ ⟨0⟩ jammed.1 jammed.2 where
  state := rfl
  isOpen := rfl
  backing := rfl
  below := by decide
  behind := rfl
  behindOpen := rfl
  reads := rfl
  coming := rfl
  calm message := by constructor <;> simp [jammed, FaultPlan.none]
  lawful := inferInstanceAs (Std.TransCmp Bytes.compare)
  order := rfl
  targets := by decide

/-- All is merged below, what arrived meanwhile is refused, and the map is open
with the contents it had. -/
theorem jammed_all_or_rest :
    jammedStore.Closable ⟨1⟩ ⟨0⟩ jammed.1 jammed.2 ∧
    ∃ cause s', (⟨1⟩ : MapHandle).close jammedStore = .error (.error cause) s' ∧
      jammedStore.StaysOpen s' ⟨1⟩ ⟨0⟩ jammed.1 jammed.2 ∧
      jammedStore.TurnedAway s' ⟨0⟩ "m" := by
  refine ⟨jammed_closable, ?_⟩
  obtain ⟨-, ⟨s', -, refuses, -⟩ | ⟨cause, s', run, -, stays, away⟩⟩ :=
    close_all_or_rest jammed_closable
  · cases refuses
  · exact ⟨cause, s', run, stays, away⟩

end Store

end MapStore
