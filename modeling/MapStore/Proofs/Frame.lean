/-
MapStore.Proofs.Frame — what a call of a map leaves alone.

A call of a map may go on to its backing, and, if a faulty map is in the way,
to whatever map the arriving writes are for: these are the maps it `reaches`.
A set of maps that reaches nothing outside itself is `Closed`, and a call of a
map of the set then changes no map outside it (`Confined`).

Reading, writing, merging and saving keep more than that. Of the maps they
pass through they change only what the maps hold: names, ids, data types,
modes and the way the maps stand on each other — the map's `outline` — stay,
and so do the live-sets, the engines and the stand-in units (`Touches`). The
disk changes only as far as files are saved at the paths of these maps.

`Frame P` says of two stores that the second follows from the first by a step
that touches only maps of `P`, if `P` is closed. It is reflexive and
transitive, so every operation has it because its parts have it.

Merging and saving tell a meter of something only if an adaptive map stands
below another map or writes arrive from elsewhere. In an engine neither is so:
its store is `Flat`, and the meters stay as they are.
-/
import MapStore.Proofs.Calls
import MapStore.Proofs.Directory

namespace MapStore

/-! ## Outlines -/

/-- The buffer without its slots. -/
def WriteBuffer.outline (b : WriteBuffer) : WriteBuffer := .empty b.slots.order

/-- The map without its entries. -/
def PlainMap.outline (m : PlainMap) : PlainMap := { m with table := m.table.clear }

/-- The meter without its counts of reads and writes; how often it was reset
stays. -/
def AccessMeter.outline : AccessMeter → AccessMeter
  | window _ => .idle
  | fixed f => .fixed { f with reads := 0, writes := 0 }

namespace MapState

/-- The map without what it holds: what calls of it never change. -/
def outline : MapState → MapState
  | memory m => .memory m.outline
  | direct m => .direct { m with toPlainMap := m.toPlainMap.outline, dirty := false }
  | buffered m => .buffered { m with buffer := m.buffer.outline }
  | adaptive m => .adaptive { m with buffer := m.buffer.map WriteBuffer.outline }
  | faulty m => .faulty
    { m with
      inner := m.inner.outline, plan := .none, calls := .zero, onPut := [], onRemove := [],
      answers := [] }

/-- The maps that a call of this one may go on to. -/
def reaches : MapState → List MapHandle
  | buffered m => [m.backing]
  | adaptive m => [m.backing]
  | faulty m => (m.onPut.flatten ++ m.onRemove.flatten).map (·.target)
  | _ => []

/-- The path that the map is saved at. -/
def home? : MapState → Option String
  | direct m => m.path
  | _ => none

/-- Nothing arrives with a write where nothing is to arrive, and nothing is left. -/
theorem no_arrivals {f : FaultyMap} (reaches : (MapState.faulty f).reaches = []) (c : Change) :
    (f.takeArrivals c).1 = [] ∧
      (f.takeArrivals c).2.onPut.flatten ++ (f.takeArrivals c).2.onRemove.flatten = [] := by
  have nothing : f.onPut.flatten ++ f.onRemove.flatten = [] := List.map_eq_nil_iff.1 reaches
  constructor
  · refine List.eq_nil_iff_forall_not_mem.2 fun a ha => ?_
    have among := FaultyMap.mem_takeArrivals (.inl ha)
    rw [nothing] at among
    cases among
  · refine List.eq_nil_iff_forall_not_mem.2 fun a ha => ?_
    have among := FaultyMap.mem_takeArrivals (.inr ha)
    rw [nothing] at among
    cases among

theorem home?_outline (st : MapState) : st.outline.home? = st.home? := by
  cases st <;> rfl

theorem buffer?_outline (st : MapState) :
    st.outline.buffer? = st.buffer?.map WriteBuffer.outline := by
  cases st <;> rfl

/-- Another buffer in the same order leaves the outline. -/
theorem outline_withBuffer {st : MapState} {b : WriteBuffer}
    (h : st.buffer?.map WriteBuffer.outline = some b.outline) :
    (st.withBuffer b).outline = st.outline := by
  cases st with
  | buffered m =>
    have same : m.buffer.outline = b.outline := by simpa [buffer?] using h
    simp [withBuffer, outline, same]
  | adaptive m =>
    cases hb : m.buffer with
    | none => simp [withBuffer, outline, hb]
    | some old =>
      have same : old.outline = b.outline := by simpa [buffer?, hb] using h
      simp [withBuffer, outline, hb, same]
  | memory m => rfl
  | direct m => rfl
  | faulty m => rfl

@[simp] theorem reaches_withBuffer (st : MapState) (b : WriteBuffer) :
    (st.withBuffer b).reaches = st.reaches := by
  cases st <;> rfl

end MapState

theorem AccessMeter.outline_recordRead (m : AccessMeter) : m.recordRead.outline = m.outline := by
  cases m <;> rfl

theorem AccessMeter.outline_recordWrite (m : AccessMeter) :
    m.recordWrite.outline = m.outline := by
  cases m <;> rfl

/-- A write leaves all of a map but what it holds, -/
theorem PlainMap.outline_write {m m' : PlainMap} {key : Bytes} {c : Change}
    {previous : Option Bytes} (made : m.write key c = .ok (previous, m')) :
    m'.outline = m.outline := by
  obtain ⟨-, -, -, rfl⟩ := write_eq_ok.1 made
  simp [outline, SortedTable.clear]

/-- also if the map is saved in a file. -/
theorem DirectMap.outline_write {m m' : DirectMap} {key : Bytes} {c : Change}
    {previous : Option Bytes} (made : m.write key c = .ok (previous, m')) :
    (MapState.direct m').outline = (MapState.direct m).outline := by
  obtain ⟨plain, written, rfl⟩ := write_eq_ok.1 made
  simp [MapState.outline, PlainMap.outline_write written]

/-- A save of a direct map saves a file at its path, or leaves the disk. -/
theorem DirectMap.filed_save (d : DirectMap) (disk : Disk) :
    disk.Filed (fun path => d.path = some path) (d.save disk).2.2 := by
  unfold save
  cases d.path with
  | none => exact .refl
  | some path =>
    simp only
    split
    · have saved := @Disk.Filed.saved (fun p => some path = some p) disk disk .refl path rfl d.file
      split
      · rename_i run
        rwa [run] at saved
      · rename_i run
        rwa [run] at saved
    · exact .refl

/-! ## Steps that stay within a set of maps -/

namespace Store

variable {P Q : MapHandle → Prop} {s s' s'' : Store}

/-- The path that the map that a handle refers to is saved at. -/
def home? (s : Store) (m : MapHandle) : Option String := (s.maps[m.index]?).bind MapState.home?

/-- A map of the set is saved at the path. -/
def Homes (s : Store) (P : MapHandle → Prop) (path : String) : Prop :=
  ∃ m, P m ∧ s.home? m = some path

/-- The maps of the set reach only maps of the set. -/
def Closed (s : Store) (P : MapHandle → Prop) : Prop :=
  ∀ m, P m → ∀ st, s.maps[m.index]? = some st → ∀ x ∈ st.reaches, P x

/-- Only maps of the set changed, and none reaches a map that it did not reach
before. -/
structure Confined (P : MapHandle → Prop) (s s' : Store) : Prop where
  other : ∀ x, ¬P x → s'.maps[x.index]? = s.maps[x.index]?
  reaches : ∀ x : MapHandle, ∀ st', s'.maps[x.index]? = some st' →
    ∃ st, s.maps[x.index]? = some st ∧ ∀ y ∈ st'.reaches, y ∈ st.reaches

namespace Confined

theorem refl (P : MapHandle → Prop) (s : Store) : Confined P s s :=
  ⟨fun _ _ => rfl, fun _ st' h => ⟨st', h, fun _ hy => hy⟩⟩

theorem trans (h : Confined P s s') (h' : Confined P s' s'') : Confined P s s'' where
  other x hx := (h'.other x hx).trans (h.other x hx)
  reaches x st'' hst'' := by
    obtain ⟨st', hst', sub'⟩ := h'.reaches x st'' hst''
    obtain ⟨st, hst, sub⟩ := h.reaches x st' hst'
    exact ⟨st, hst, fun y hy => sub y (sub' y hy)⟩

/-- A closed set stays closed, whatever set the step was confined to. -/
theorem closed (h : Confined P s s') (hs : s.Closed Q) : s'.Closed Q := by
  intro m hm st' hst' x hx
  obtain ⟨st, hst, sub⟩ := h.reaches m st' hst'
  exact hs m hm st hst x (sub x hx)

end Confined

theorem home?_of_outlines
    (same : s'.maps.map MapState.outline = s.maps.map MapState.outline) : s'.home? = s.home? := by
  funext m
  have outline := congrArg (fun l => l[m.index]?.bind MapState.home?) same
  simpa only [home?, List.getElem?_map, Option.bind_map, Function.comp_def,
    MapState.home?_outline] using outline

/-- Only maps of the set changed, and of those only what they hold. -/
structure Touches (P : MapHandle → Prop) (s s' : Store) : Prop extends Confined P s s' where
  outlines : s'.maps.map MapState.outline = s.maps.map MapState.outline
  meters : s'.meters.map AccessMeter.outline = s.meters.map AccessMeter.outline
  live : s'.live = s.live
  engines : s'.engines = s.engines
  units : s'.units = s.units
  disk : s.disk.Filed (s.Homes P) s'.disk

namespace Touches

theorem refl (P : MapHandle → Prop) (s : Store) : Touches P s s :=
  ⟨.refl P s, rfl, rfl, rfl, rfl, rfl, .refl⟩

/-- Every map is saved where it was. -/
theorem home? (h : Touches P s s') : s'.home? = s.home? := home?_of_outlines h.outlines

theorem trans (h : Touches P s s') (h' : Touches P s' s'') : Touches P s s'' := by
  refine ⟨h.toConfined.trans h'.toConfined, h'.outlines.trans h.outlines,
    h'.meters.trans h.meters, h'.live.trans h.live, h'.engines.trans h.engines,
    h'.units.trans h.units, h.disk.trans ?_⟩
  have homes : s'.Homes P = s.Homes P := by
    unfold Homes
    rw [h.home?]
  exact homes ▸ h'.disk

/-- A map keeps its outline. -/
theorem outline {m : MapHandle} {st : MapState} (h : Touches P s s')
    (hst : s.maps[m.index]? = some st) :
    ∃ st', s'.maps[m.index]? = some st' ∧ st'.outline = st.outline := by
  have same : (s'.maps[m.index]?).map MapState.outline = some st.outline := by
    rw [← List.getElem?_map, h.outlines, List.getElem?_map, hst]; rfl
  simpa using same

/-- A meter keeps its outline. -/
theorem meter (h : Touches P s s') (i : Nat) :
    ((s'.meters[i]?).getD .idle).outline = ((s.meters[i]?).getD .idle).outline := by
  have same : (s'.meters[i]?).map AccessMeter.outline = (s.meters[i]?).map AccessMeter.outline := by
    rw [← List.getElem?_map, h.meters, List.getElem?_map]
  cases hi : s.meters[i]? with
  | none =>
    have hi' : s'.meters[i]? = none := by simpa [hi] using same
    rw [hi']
  | some m =>
    obtain ⟨m', hm', eq⟩ : ∃ m', s'.meters[i]? = some m' ∧ m'.outline = m.outline := by
      simpa [hi] using same
    simp [hm', eq]

end Touches

/-- If the set is closed, only maps of it changed, and only what they hold. -/
def Frame (P : MapHandle → Prop) (s s' : Store) : Prop := s.Closed P → s.Touches P s'

namespace Frame

@[simp] theorem refl (P : MapHandle → Prop) (s : Store) : Frame P s s := fun _ => .refl P s

theorem trans (h : Frame P s s') (h' : Frame P s' s'') : Frame P s s'' := by
  intro closed
  have first := h closed
  exact first.trans (h' (first.closed closed))

end Frame

namespace Frame

/-- A frame may be shown with the set closed. -/
theorem of_closed (h : s.Closed P → Frame P s s') : Frame P s s' := fun closed => h closed closed

end Frame

/-! ## Single changes -/

theorem confined_set {m : MapHandle} {st st' : MapState} (inP : P m)
    (h : s.maps[m.index]? = some st) (reaches : ∀ x ∈ st'.reaches, x ∈ st.reaches) :
    Confined P s (s.set m st') := by
  refine ⟨fun x hx => ?_, fun x y hy => ?_⟩
  · have ne : m ≠ x := fun eq => hx (eq ▸ inP)
    exact maps_set_of_ne s st' ne
  · by_cases eq : m = x
    · subst eq
      rw [maps_set_self st' h] at hy
      cases hy
      exact ⟨st, h, reaches⟩
    · rw [maps_set_of_ne s st' eq] at hy
      exact ⟨y, hy, fun _ hz => hz⟩

/-- A step that leaves the maps is confined to any set. -/
theorem confined_of_maps (same : s'.maps = s.maps) : Confined P s s' :=
  ⟨fun _ _ => by rw [same], fun _ st' h => ⟨st', same ▸ h, fun _ hy => hy⟩⟩

theorem frame_set {m : MapHandle} {st st' : MapState} (inP : P m)
    (h : s.maps[m.index]? = some st) (outline : st'.outline = st.outline)
    (reaches : ∀ x ∈ st'.reaches, x ∈ st.reaches) : Frame P s (s.set m st') := by
  intro _
  refine ⟨confined_set inP h reaches, ?_, rfl, rfl, rfl, rfl, .refl⟩
  obtain ⟨lt, eq⟩ := List.getElem?_eq_some_iff.1 h
  refine List.ext_getElem? fun i => ?_
  simp only [set, List.map_set, List.getElem?_set, List.length_map, lt, if_true, List.getElem?_map]
  split
  · rename_i same
    subst same
    rw [h, outline]
    rfl
  · rfl

theorem frame_disk {disk : Disk} (filed : s.disk.Filed (s.Homes P) disk) :
    Frame P s { s with disk } := fun _ =>
  ⟨confined_of_maps rfl, rfl, rfl, rfl, rfl, rfl, filed⟩

theorem frame_meter (i : Nat) {f : AccessMeter → AccessMeter}
    (keeps : ∀ m, (f m).outline = m.outline) :
    Frame P s { s with meters := s.meters.modify i f } := by
  intro _
  refine ⟨confined_of_maps rfl, rfl, ?_, rfl, rfl, rfl, .refl⟩
  refine List.ext_getElem? fun j => ?_
  simp only [List.getElem?_map, List.getElem?_modify]
  cases s.meters[j]? with
  | none => rfl
  | some m => by_cases h : i = j <;> simp [h, keeps]

/-- A step that starts by asking what the map is. -/
theorem frame_state {α : Type} {m : MapHandle} {f : MapState → Action α}
    (each : ∀ st, s.maps[m.index]? = some st → Frame P s ((f st).after s)) :
    Frame P s ((Action.state m >>= f).after s) :=
  Action.after_state_bind (R := Frame P) (.refl P) each

theorem frame_bind {α β : Type} {a : Action α} {f : α → Action β}
    (first : Frame P s (a.after s))
    (next : ∀ r s', s.Touches P s' → Frame P s' ((f r).after s')) :
    Frame P s ((a >>= f).after s) := by
  intro closed
  have touched := first closed
  exact Action.after_bind (R := Frame P) Frame.trans first
    (fun r s' run => next r s' (by rwa [Action.after_of_ok run] at touched)) closed

theorem frame_forM {α : Type} {f : α → Action Unit} {l : List α}
    (each : ∀ x ∈ l, ∀ s, Frame P s ((f x).after s)) : Frame P s ((l.forM f).after s) := by
  induction l generalizing s with
  | nil => exact .refl P s
  | cons x rest ih =>
    refine frame_bind (each x (List.mem_cons_self ..) s) fun _ s' _ => ?_
    exact ih fun y hy => each y (List.mem_cons_of_mem _ hy)

/-- A step that goes on to a map below, or else ends early. -/
theorem frame_below {α : Type} {m x : MapHandle} {a : Action α}
    (each : x.index < m.index → Frame P s (a.after s)) :
    Frame P s ((if _h : x.index < m.index then a else Action.noMap).after s) := by
  split
  · rename_i lt
    exact each lt
  · simp

/-! ## Reading -/

theorem frame_modifyMeter (h : MeterHandle) {f : AccessMeter → AccessMeter}
    (keeps : ∀ m, (f m).outline = m.outline) :
    Frame P s ((Action.modifyMeter h f).after s) :=
  frame_meter h.index keeps

theorem frame_enterFaulty {m : MapHandle} {f : FaultyMap} (inP : P m)
    (h : s.maps[m.index]? = some (.faulty f)) (setting : Option Fault)
    (count : CallCounts → CallCounts) :
    Frame P s ((Action.enterFaulty m f setting count).after s) := by
  unfold Action.enterFaulty
  refine frame_bind ?_ fun _ s' _ => ?_
  · exact frame_set inP h rfl fun _ hx => hx
  · rw [Action.after_consult]
    exact .refl P s'

theorem frame_get {m : MapHandle} (inP : P m) (key : Bytes) :
    Frame P s ((m.get key).after s) := by
  induction n : m.index using Nat.strongRecOn generalizing m s with | ind n ih
  subst n
  rw [MapHandle.get]
  refine frame_state fun st h => .of_closed fun closed => ?_
  have below := closed m inP st h
  cases st with
  | memory p => simp
  | direct d => simp
  | faulty f =>
    refine frame_bind (frame_enterFaulty inP h _ _) fun _ s' _ => ?_
    simp
  | buffered b =>
    simp only
    split
    · simp
    · split
      · simp
      · exact frame_below fun lt => ih _ lt (below _ (by simp [MapState.reaches])) rfl
  | adaptive a =>
    refine frame_bind (frame_modifyMeter _ AccessMeter.outline_recordRead) fun _ s' _ => ?_
    split
    · simp
    · exact frame_below fun lt => ih _ lt (below _ (by simp [MapState.reaches])) rfl

theorem frame_contains {m : MapHandle} (inP : P m) (key : Bytes) :
    Frame P s ((m.contains key).after s) := by
  induction n : m.index using Nat.strongRecOn generalizing m s with | ind n ih
  subst n
  rw [MapHandle.contains]
  refine frame_state fun st h => .of_closed fun closed => ?_
  have below := closed m inP st h
  have asked : Frame P s ((do return (← m.get key).isSome : Action Bool).after s) :=
    frame_bind (frame_get inP key) fun _ s' _ => by simp
  cases st with
  | adaptive a =>
    have inside := below a.backing (by simp [MapState.reaches])
    refine frame_bind (frame_modifyMeter _ AccessMeter.outline_recordRead) fun _ s' _ => ?_
    cases a.buffer with
    | none => exact frame_below fun lt => ih _ lt inside rfl
    | some buffer =>
      simp only
      split
      · simp
      · exact frame_bind (frame_get inside key) fun _ s' _ => by simp
  | memory p => exact asked
  | direct d => exact asked
  | faulty f => exact asked
  | buffered b => exact asked

theorem frame_entries {m : MapHandle} (inP : P m) : Frame P s (m.entries.after s) := by
  induction n : m.index using Nat.strongRecOn generalizing m s with | ind n ih
  subst n
  rw [MapHandle.entries]
  refine frame_state fun st h => .of_closed fun closed => ?_
  have below := closed m inP st h
  cases st with
  | memory p => simp
  | direct d => simp
  | faulty f =>
    refine frame_bind (frame_enterFaulty inP h _ _) fun _ s' _ => ?_
    simp
  | buffered b =>
    simp only
    split
    · simp
    · refine frame_below fun lt => ?_
      exact frame_bind (ih _ lt (below _ (by simp [MapState.reaches])) rfl) fun _ s' _ => by simp
  | adaptive a =>
    refine frame_below fun lt => ?_
    exact frame_bind (ih _ lt (below _ (by simp [MapState.reaches])) rfl) fun _ s' _ => by simp

theorem frame_size {m : MapHandle} (inP : P m) : Frame P s (m.size.after s) := by
  induction n : m.index using Nat.strongRecOn generalizing m s with | ind n ih
  subst n
  rw [MapHandle.size]
  refine frame_state fun st h => .of_closed fun closed => ?_
  have below := closed m inP st h
  have listed : Frame P s ((do return (← m.entries).length : Action Nat).after s) :=
    frame_bind (frame_entries inP) fun _ s' _ => by simp
  cases st with
  | memory p => simp
  | direct d => simp
  | faulty f =>
    refine frame_bind (frame_enterFaulty inP h _ _) fun _ s' _ => ?_
    simp
  | buffered b => exact listed
  | adaptive a =>
    simp only
    split
    · exact listed
    · exact frame_below fun lt => ih _ lt (below _ (by simp [MapState.reaches])) rfl

theorem frame_isEmpty {m : MapHandle} (inP : P m) : Frame P s (m.isEmpty.after s) :=
  frame_bind (frame_size inP) fun _ s' _ => by simp

/-! ## Writing -/

theorem frame_modifyState {m : MapHandle} {f : MapState → MapState} (inP : P m)
    (outline : ∀ st, s.maps[m.index]? = some st → (f st).outline = st.outline)
    (reaches : ∀ st, s.maps[m.index]? = some st → ∀ x ∈ (f st).reaches, x ∈ st.reaches) :
    Frame P s ((Action.modifyState m f).after s) :=
  Action.after_modifyState (R := Frame P) (.refl P) fun st h =>
    frame_set inP h (outline st h) (reaches st h)

/-- Giving a map another buffer in the order that its buffer had. -/
theorem frame_withBuffer {s₀ : Store} {m : MapHandle} {st₀ : MapState} {b : WriteBuffer}
    (inP : P m) (h₀ : s₀.maps[m.index]? = some st₀)
    (order : st₀.buffer?.map WriteBuffer.outline = some b.outline) (since : s₀.Touches P s) :
    Frame P s ((Action.modifyState m (·.withBuffer b)).after s) := by
  refine frame_modifyState inP (fun st h => ?_) fun st h x hx => ?_
  · obtain ⟨st', h', same⟩ := since.outline h₀
    obtain rfl : st' = st := by simpa [h'] using h
    refine MapState.outline_withBuffer ?_
    rw [← MapState.buffer?_outline, same, MapState.buffer?_outline, order]
  · simpa using hx

theorem frame_writeFaulty {m : MapHandle} (inP : P m) (key : Bytes) (change : Change) :
    Frame P s ((m.writeFaulty key change).after s) := by
  unfold MapHandle.writeFaulty
  refine frame_state fun st h => ?_
  cases st with
  | faulty f =>
    obtain ⟨fault, plan, run⟩ | ⟨previous, inner, plan, made, run⟩ := f.write_cases key change
    · simp only [run]
      refine frame_bind (frame_set inP h rfl fun x hx => hx) fun _ s' _ => ?_
      simp
    · simp only [run]
      refine frame_bind (frame_set inP h ?_ fun x hx => hx) fun _ s' _ => ?_
      · simp [MapState.outline, PlainMap.outline_write made]
      · simp
  | memory p => simp
  | direct d => simp
  | buffered b => simp
  | adaptive a => simp

theorem frame_writeBuffered {m : MapHandle} {st : MapState} {front : Front} {buffer : WriteBuffer}
    (inP : P m) (below : P front.backing) (h : s.maps[m.index]? = some st)
    (has : st.buffer? = some buffer) (key : Bytes) (change : Change) :
    Frame P s ((m.writeBuffered front buffer key change).after s) := by
  have buffered : ∀ s', s.Touches P s' → Frame P s'
      ((Action.modifyState m (·.withBuffer (buffer.insert key change).2)).after s') :=
    fun s' since => frame_withBuffer inP h (by rw [has]; rfl) since
  have checked : Frame P s
      ((Action.lift (PlainMap.checkChange front.keyType front.valueType key change)).after s) := by
    simp
  cases there : buffer.get? key with
  | some old =>
    rw [MapHandle.writeBuffered_of_some there]
    refine frame_bind checked fun _ s₁ t₁ => frame_bind (buffered s₁ t₁) fun _ s₂ _ => ?_
    simp
  | none =>
    rw [MapHandle.writeBuffered_of_none there]
    refine frame_bind checked fun _ s₁ t₁ => frame_bind (frame_get below key) fun _ s₂ t₂ => ?_
    refine frame_bind (buffered s₂ (t₁.trans t₂)) fun _ s₃ _ => ?_
    simp

theorem frame_noteAnswer {m : MapHandle} (inP : P m) (answer : Except Fault (Option Bytes)) :
    Frame P s ((Action.noteAnswer m answer).after s) := by
  unfold Action.noteAnswer
  refine frame_bind (frame_modifyState inP (fun st _ => ?_) fun st _ x hx => ?_) fun _ s' _ => ?_
  · cases st <;> rfl
  · cases st <;> exact hx
  · split <;> simp

theorem frame_write (depth : Nat) {m : MapHandle} (inP : P m) (key : Bytes) (change : Change) :
    Frame P s ((m.write depth key change).after s) := by
  induction depth using Nat.strongRecOn generalizing m s key change with | ind depth deeper
  induction n : m.index using Nat.strongRecOn generalizing m s with | ind n ih
  subst n
  rw [MapHandle.write]
  refine frame_state fun st h => .of_closed fun closed => ?_
  have below := closed m inP st h
  cases st with
  | memory p =>
    simp only
    cases made : p.write key change with
    | error cause => exact .refl P s
    | ok made' =>
      exact frame_set inP h (congrArg MapState.memory (PlainMap.outline_write made)) fun x hx => hx
  | direct d =>
    simp only
    cases made : d.write key change with
    | error cause => exact .refl P s
    | ok made' => exact frame_set inP h (DirectMap.outline_write made) fun x hx => hx
  | buffered b =>
    simp only
    split
    · simp
    · exact frame_writeBuffered inP (below _ (by simp [MapState.reaches])) h rfl key change
  | adaptive a =>
    have inside := below a.backing (by simp [MapState.reaches])
    simp only [Action.after_bind_of_ok (Action.run_modifyMeter ..)]
    refine (frame_meter a.meter.index AccessMeter.outline_recordWrite).trans ?_
    cases has : a.buffer with
    | some buffer =>
      refine frame_writeBuffered inP inside ?_ (show (MapState.adaptive a).buffer? = _ from has) key
        change
      exact h
    | none => exact frame_below fun lt => ih _ lt inside rfl
  | faulty f =>
    have arrive : ∀ a ∈ (f.takeArrivals change).1, P a.target := fun a ha =>
      below _ (List.mem_map_of_mem (FaultyMap.mem_takeArrivals (.inl ha)))
    refine frame_bind (frame_set inP h ?_ fun x hx => ?_) fun _ s₁ _ => ?_
    · cases change <;> rfl
    · obtain ⟨a, ha, rfl⟩ := List.mem_map.1 hx
      exact List.mem_map_of_mem (FaultyMap.mem_takeArrivals (.inr ha))
    · cases depth with
      | zero => exact frame_writeFaulty inP key change
      | succ n =>
        refine frame_bind (frame_forM fun a ha s₂ => ?_) fun _ s₂ _ =>
          frame_writeFaulty inP key change
        refine frame_bind ?_ fun answer s₃ _ => frame_noteAnswer inP answer
        rw [Action.after_attempt]
        exact deeper n (Nat.lt_succ_self n) (arrive a ha) a.key a.change

theorem frame_put {m : MapHandle} (inP : P m) (key value : Bytes) :
    Frame P s ((m.put key value).after s) :=
  frame_write _ inP key (.value value)

theorem frame_remove {m : MapHandle} (inP : P m) (key : Bytes) :
    Frame P s ((m.remove key).after s) :=
  frame_write _ inP key .tombstone

/-! ## Merging and saving -/

theorem frame_dropSlot {m : MapHandle} (inP : P m) (key : Bytes) (seq : Nat) :
    Frame P s ((m.dropSlot key seq).after s) := by
  unfold MapHandle.dropSlot
  refine frame_state fun st h => ?_
  cases has : st.buffer? with
  | none => simp
  | some buffer =>
    refine frame_bind (frame_withBuffer inP h ?_ (.refl P s)) fun _ s' _ => ?_
    · show st.buffer?.map _ = some (buffer.eraseUnchanged key seq).2.outline
      simp [has, WriteBuffer.outline]
    · simp

theorem frame_mergeSlot {m : MapHandle} {front : Front} (inP : P m) (below : P front.backing)
    (stats : MergeStats) (copied : Bytes × Slot) :
    Frame P s ((m.mergeSlot front stats copied).after s) := by
  unfold MapHandle.mergeSlot
  refine frame_bind (.refl P s) fun n s₁ _ => frame_bind ?_ fun answer s₂ _ => ?_
  · rw [Action.after_attempt]
    exact frame_write n below _ _
  · cases answer with
    | ok _ =>
      refine frame_bind (frame_dropSlot inP _ _) fun _ s₃ _ => ?_
      simp
    | error fault => cases fault <;> simp

theorem frame_drain {m : MapHandle} {front : Front} (inP : P m) (below : P front.backing)
    (buffer : WriteBuffer) : Frame P s ((m.drain front buffer).after s) :=
  Action.after_foldlM (Frame.refl P) Frame.trans
    (fun stats copied _ _ => frame_mergeSlot inP below stats copied) _ s

theorem frame_merge {m : MapHandle} (inP : P m) : Frame P s (m.merge.after s) := by
  unfold MapHandle.merge
  refine frame_state fun st h => .of_closed fun closed => ?_
  have below := closed m inP st h
  cases st with
  | buffered b => exact frame_drain inP (below _ (by simp [MapState.reaches])) b.buffer
  | adaptive a =>
    cases has : a.buffer with
    | none => simp [has]
    | some buffer =>
      simp only [has, Option.elim]
      exact frame_drain inP (below _ (by simp [MapState.reaches])) buffer
  | memory p => simp
  | direct d => simp
  | faulty f => simp

theorem frame_save {m : MapHandle} (inP : P m) : Frame P s (m.save.after s) := by
  induction n : m.index using Nat.strongRecOn generalizing m s with | ind n ih
  subst n
  rw [MapHandle.save]
  refine frame_state fun st h => .of_closed fun closed => ?_
  have below := closed m inP st h
  cases st with
  | memory p => simp
  | direct d =>
    obtain ⟨dirty, saved⟩ := d.save_map s.disk
    simp only [Action.after_bind_of_ok (Action.run_disk s)]
    have filed : s.disk.Filed (s.Homes P) (d.save s.disk).2.2 :=
      (d.filed_save s.disk).mono fun path home => ⟨m, inP, by simp [home?, h, MapState.home?, home]⟩
    refine (frame_disk filed).trans ?_
    rw [Action.after_bind_of_ok (Action.run_setDisk ..)]
    have h' : ({ s with disk := (d.save s.disk).2.2 } : Store).maps[m.index]? = _ := h
    refine frame_bind (frame_set inP h' ?_ fun x hx => ?_) fun _ s' _ => ?_
    · simp only [saved]
      rfl
    · simp [MapState.reaches] at hx
    · simp
  | faulty f => exact frame_enterFaulty inP h _ _
  | buffered b =>
    simp only
    split
    · simp
    · refine frame_bind (frame_merge inP) fun _ s' _ => frame_below fun lt => ?_
      exact ih _ lt (below _ (by simp [MapState.reaches])) rfl
  | adaptive a =>
    refine frame_bind (frame_merge inP) fun _ s' _ => frame_below fun lt => ?_
    exact ih _ lt (below _ (by simp [MapState.reaches])) rfl

/-! ## Meters -/

/-- The map goes on to no other. -/
def Bottom (s : Store) (m : MapHandle) : Prop :=
  ∀ st, s.maps[m.index]? = some st → st.reaches = []

/-- A map that another goes on to goes on to no other. -/
def Flat (s : Store) : Prop :=
  ∀ m : MapHandle, ∀ st, s.maps[m.index]? = some st → ∀ x ∈ st.reaches, s.Bottom x

theorem Confined.bottom (h : Confined P s s') {m : MapHandle} (bottom : s.Bottom m) :
    s'.Bottom m := by
  intro st' state'
  obtain ⟨st, state, sub⟩ := h.reaches m st' state'
  rw [bottom st state] at sub
  exact List.eq_nil_iff_forall_not_mem.2 fun x hx => List.not_mem_nil (sub x hx)

theorem Confined.flat (h : Confined P s s') (flat : s.Flat) : s'.Flat := by
  intro m st' state' x hx
  obtain ⟨st, state, sub⟩ := h.reaches m st' state'
  exact h.bottom (flat m st state x (sub x hx))

/-- What stays within all maps stays within them. -/
theorem Frame.confined (h : Frame (fun _ => True) s s') : Confined (fun _ => True) s s' :=
  (h fun _ _ _ _ _ _ => trivial).toConfined

/-- A step that tells no meter of anything, as long as the map `b`, on which
it may call, goes on to no other. -/
def Unheard (b : MapHandle) (s s' : Store) : Prop :=
  s.Bottom b → s'.Bottom b ∧ s'.meters = s.meters

namespace Unheard

variable {b : MapHandle}

theorem refl (b : MapHandle) (s : Store) : Unheard b s s := fun bottom => ⟨bottom, rfl⟩

theorem trans (h : Unheard b s s') (h' : Unheard b s' s'') : Unheard b s s'' := by
  intro bottom
  obtain ⟨bottom', meters⟩ := h bottom
  obtain ⟨bottom'', meters'⟩ := h' bottom'
  exact ⟨bottom'', meters'.trans meters⟩

theorem of_confined (h : Confined P s s') (meters : s.Bottom b → s'.meters = s.meters) :
    Unheard b s s' := fun bottom => ⟨h.bottom bottom, meters bottom⟩

end Unheard

/-- A map that goes on to no other has no meter to tell. -/
theorem unheard_write (depth : Nat) (b : MapHandle) (key : Bytes) (change : Change) :
    Unheard b s ((b.write depth key change).after s) := by
  refine .of_confined (frame_write depth trivial key change).confined fun bottom => ?_
  cases h : s.maps[b.index]? with
  | none =>
    rw [MapHandle.write, Action.after_bind_of_error (Action.run_state_none h)]
  | some st =>
    have nothing := bottom st h
    cases st with
    | memory p =>
      rw [Action.after, MapHandle.write_memory h]
      cases p.write key change <;> rfl
    | direct d =>
      rw [Action.after, MapHandle.write_direct h]
      cases d.write key change <;> rfl
    | faulty f =>
      rw [Action.after_of_eq (MapHandle.write_faulty h (MapState.no_arrivals nothing change).1)]
      unfold MapHandle.writeFaulty
      refine Action.after_state_bind (R := fun s s' => s'.meters = s.meters) (fun _ => rfl)
        fun st _ => ?_
      cases st with
      | faulty f =>
        simp only [Action.after_bind_of_ok (Action.run_setState ..), Action.after_ofExcept]
        rfl
      | memory _ | direct _ | buffered _ | adaptive _ => rfl
    | buffered x => cases nothing
    | adaptive a => cases nothing

theorem meters_dropSlot (m : MapHandle) (key : Bytes) (seq : Nat) :
    ((m.dropSlot key seq).after s).meters = s.meters := by
  unfold MapHandle.dropSlot
  refine Action.after_state_bind (R := fun s s' => s'.meters = s.meters) (fun _ => rfl)
    fun st h => ?_
  cases st.buffer? with
  | none => rfl
  | some buffer =>
    simp only [Action.after_bind_of_ok (Action.run_modifyState _ h), Action.after_pure]
    rfl

/-- Nobody is told of a merge but the map below. -/
theorem unheard_drain (m : MapHandle) (front : Front) (buffer : WriteBuffer) :
    Unheard front.backing s ((m.drain front buffer).after s) := by
  refine Action.after_foldlM (R := Unheard front.backing) (.refl _) Unheard.trans
    (fun stats copied _ s => ?_) _ s
  unfold MapHandle.mergeSlot
  refine Action.after_bind (R := Unheard front.backing) Unheard.trans (.refl _ s) fun n s₁ _ => ?_
  refine Action.after_bind (R := Unheard front.backing) Unheard.trans ?_ fun answer s₂ _ => ?_
  · rw [Action.after_attempt]
    exact unheard_write n front.backing copied.1 copied.2.change
  · cases answer with
    | ok _ =>
      refine Action.after_bind (R := Unheard front.backing) Unheard.trans ?_ fun _ s₃ _ =>
        .refl _ s₃
      exact .of_confined (frame_dropSlot trivial copied.1 copied.2.seq).confined fun _ =>
        meters_dropSlot m copied.1 copied.2.seq
    | error fault => cases fault <;> exact .refl _ s₂

theorem meters_merge (flat : s.Flat) (m : MapHandle) : (m.merge.after s).meters = s.meters := by
  unfold MapHandle.merge
  cases h : s.maps[m.index]? with
  | none => rw [Action.after_bind_of_error (Action.run_state_none h)]
  | some st =>
    rw [Action.after_bind_of_ok (Action.run_state h)]
    have below := flat m st h
    cases st with
    | buffered x =>
      exact (unheard_drain m x.toFront x.buffer (below x.backing (by simp [MapState.reaches]))).2
    | adaptive a =>
      cases has : a.buffer with
      | none => simp [has]
      | some buffer =>
        simp only [has, Option.elim]
        exact (unheard_drain m a.toFront buffer (below a.backing (by simp [MapState.reaches]))).2
    | memory p => rfl
    | direct d => rfl
    | faulty f => rfl

theorem meters_save (flat : s.Flat) (m : MapHandle) : (m.save.after s).meters = s.meters := by
  induction n : m.index using Nat.strongRecOn generalizing m s with | ind n ih
  subst n
  have merged : (m.merge.after s).Flat := (frame_merge trivial).confined.flat flat
  -- a map over another merges, and has the one below saved
  have layered : ∀ b : MapHandle, ((do
      let _ ← m.merge
      if _h : b.index < m.index then b.save else Action.noMap : Action Unit).after s).meters =
        s.meters := by
    intro b
    refine Eq.trans ?_ (meters_merge flat m)
    obtain ⟨stats, run⟩ | ⟨fault, run⟩ := Action.ends m.merge s
    · rw [Action.after_bind_of_ok run]
      split
      · rename_i lt
        exact ih _ lt merged b rfl
      · rfl
    · rw [Action.after_bind_of_error run]
  rw [MapHandle.save]
  refine Action.after_state_bind (R := fun s s' => s'.meters = s.meters) (fun _ => rfl)
    fun st h => ?_
  cases st with
  | memory p => rfl
  | direct d =>
    simp only [Action.after_bind_of_ok (Action.run_disk s),
      Action.after_bind_of_ok (Action.run_setDisk ..),
      Action.after_bind_of_ok (Action.run_setState ..), Action.after_lift]
    rfl
  | faulty f =>
    unfold Action.enterFaulty
    simp only [Action.after_bind_of_ok (Action.run_setState ..), Action.after_consult]
    rfl
  | buffered x =>
    simp only
    split
    · rfl
    · exact layered x.backing
  | adaptive a => exact layered a.backing

end Store

end MapStore
