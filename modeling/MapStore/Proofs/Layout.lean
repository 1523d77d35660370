/-
MapStore.Proofs.Layout — how the maps of an engine stand on each other.

An engine makes in-memory maps, direct maps, and maps over a direct map of
their own. What never changes of a map is its `Role`: for a direct map its name
and id, its path and its data types, for a map over another which one that is.
`Layout` says that every map of a store has one of these roles, that no two
maps stand on the same one, and that keys and buffers are in the order of the
key type.

A map `Rests` on the direct map that keeps its entries, itself or the one it
stands on; its `content` is that table with the waiting writes laid over it,
and this is what an open map lists.
-/
import MapStore.Proofs.Calls
import MapStore.Store.Opening

namespace MapStore

/-! ## Roles -/

/-- What never changes of a direct map. -/
structure Base where
  name : String
  id : MapId
  path : Option String
  keyType : DataType
  valueType : DataType
  order : Bytes → Bytes → Ordering

def DirectMap.toBase (d : DirectMap) : Base :=
  ⟨d.name, d.id, d.path, d.keyType, d.valueType, d.table.order⟩

/-- What never changes of a map. -/
inductive Role where
  | memory
  | base (x : Base)
  | over (front : Front)
  | faulty

namespace MapState

def role : MapState → Role
  | memory _ => .memory
  | direct d => .base d.toBase
  | buffered x => .over x.toFront
  | adaptive a => .over a.toFront
  | faulty _ => .faulty

variable {st : MapState} {x : Base} {front : Front}

theorem direct_of_role (h : st.role = .base x) : ∃ d, st = .direct d ∧ d.toBase = x := by
  cases st with
  | direct d => exact ⟨d, rfl, Role.base.inj h⟩
  | memory _ => cases h
  | buffered _ => cases h
  | adaptive _ => cases h
  | faulty _ => cases h

/-- A map over another is buffered or adaptive. -/
theorem cases_of_role (h : st.role = .over front) :
    (∃ b : BufferedMap, st = .buffered b ∧ b.toFront = front) ∨
      ∃ a : AdaptiveMap, st = .adaptive a ∧ a.toFront = front := by
  cases st with
  | buffered b => exact .inl ⟨b, rfl, Role.over.inj h⟩
  | adaptive a => exact .inr ⟨a, rfl, Role.over.inj h⟩
  | memory _ => cases h
  | direct _ => cases h
  | faulty _ => cases h

@[simp] theorem role_withBuffer (st : MapState) (w : WriteBuffer) :
    (st.withBuffer w).role = st.role := by
  cases st <;> rfl

/-- Only maps over another have waiting writes. -/
theorem over_of_buffer? {w : WriteBuffer} (h : st.buffer? = some w) :
    ∃ front, st.role = .over front := by
  cases st with
  | buffered b => exact ⟨b.toFront, rfl⟩
  | adaptive a => exact ⟨a.toFront, rfl⟩
  | memory _ => cases h
  | direct _ => cases h
  | faulty _ => cases h

theorem buffer?_withBuffer {w : WriteBuffer} (h : st.buffer? = some w) (w' : WriteBuffer) :
    (st.withBuffer w').buffer? = some w' := by
  cases st with
  | buffered b => rfl
  | adaptive a =>
    have buffer : a.buffer = some w := h
    simp [withBuffer, buffer?, buffer]
  | memory _ => cases h
  | direct _ => cases h
  | faulty _ => cases h

/-- Whether the map does not refuse its callers. -/
def isOpen : MapState → Bool
  | memory m => !m.closed
  | direct d => !d.closed
  | buffered x => !x.closed
  | _ => true

@[simp] theorem isOpen_withBuffer (st : MapState) (w : WriteBuffer) :
    (st.withBuffer w).isOpen = st.isOpen := by
  cases st <;> rfl

end MapState

namespace Store

variable {s s' s'' : Store} {m b : MapHandle} {st : MapState} {x : Base} {front : Front}

/-- The role of the map that a handle refers to. -/
def role? (s : Store) (m : MapHandle) : Option Role := s.maps[m.index]?.map MapState.role

theorem role?_of_maps (h : s.maps[m.index]? = some st) : s.role? m = some st.role := by
  simp [role?, h]

theorem role?_congr (same : s'.maps = s.maps) : s'.role? = s.role? := by
  funext x
  rw [role?, role?, same]

/-- A map that changes within its role. -/
theorem role?_set {st' : MapState} (h : s.maps[m.index]? = some st) (same : st'.role = st.role) :
    (s.set m st').role? = s.role? := by
  funext x
  unfold role?
  rw [maps_set]
  split
  · rename_i eq
    subst eq
    rw [h, Option.map_some, Option.map_some, Option.map_some, same]
  · rfl

theorem direct_of_role? (h : s.role? m = some (.base x)) :
    ∃ d, s.maps[m.index]? = some (.direct d) ∧ d.toBase = x := by
  obtain ⟨st, state, role⟩ := Option.map_eq_some_iff.1 h
  obtain ⟨d, rfl, eq⟩ := MapState.direct_of_role role
  exact ⟨d, state, eq⟩

theorem over_of_role? (h : s.role? m = some (.over front)) :
    ∃ st, s.maps[m.index]? = some st ∧ st.role = .over front :=
  Option.map_eq_some_iff.1 h

/-- A merge of a map over another drains its buffer. -/
theorem run_merge_over {w : WriteBuffer} (state : s.maps[m.index]? = some st)
    (above : st.role = .over front) (waiting : st.buffer? = some w) :
    m.merge s = m.drain front w s := by
  obtain ⟨x, rfl, rfl⟩ | ⟨a, rfl, rfl⟩ := MapState.cases_of_role above
  · cases waiting
    exact MapHandle.run_merge_buffered state
  · exact MapHandle.run_merge_adaptive state waiting

/-! ## The layout -/

/-- The waiting writes of a map are in the order of its keys. -/
def Ordered (s : Store) : Prop :=
  ∀ (m : MapHandle) (st : MapState) (w : WriteBuffer) (front : Front),
    s.maps[m.index]? = some st → st.buffer? = some w → st.role = .over front →
      w.slots.order = front.keyType.compare

/-- Every map is in memory, direct, or over a direct map that no other map
stands on, and all are in the order of their key type. -/
structure Layout (s : Store) : Prop where
  faultless : ∀ m, s.role? m ≠ some .faulty
  lawful : ∀ m x, s.role? m = some (.base x) →
    x.order = x.keyType.compare ∧ Std.TransCmp x.keyType.compare
  below : ∀ m front, s.role? m = some (.over front) → front.backing.index < m.index ∧
    ∃ x, s.role? front.backing = some (.base x) ∧ front.name = x.name ∧ front.id = x.id ∧
      front.keyType = x.keyType ∧ front.valueType = x.valueType
  single : ∀ m m' front front', s.role? m = some (.over front) → s.role? m' = some (.over front') →
    front.backing = front'.backing → m = m'
  orders : s.Ordered

/-- There are no maps. -/
theorem role?_of_empty (empty : s.maps = []) (m : MapHandle) : s.role? m = none := by
  simp [role?, empty]

namespace Layout

theorem of_empty (empty : s.maps = []) : s.Layout := by
  have nothing := role?_of_empty empty
  refine ⟨fun m => ?_, fun m x role => ?_, fun m front role => ?_, fun m _ front _ role => ?_,
    fun m st _ _ state => ?_⟩
  · rw [nothing]
    exact nofun
  · rw [nothing] at role
    cases role
  · rw [nothing] at role
    cases role
  · rw [nothing] at role
    cases role
  · rw [empty] at state
    cases state

/-- The roles as before, and other buffers in order. -/
theorem congr (h : s.Layout) (same : s'.role? = s.role?) (orders : s'.Ordered) : s'.Layout where
  faultless := by rw [same]; exact h.faultless
  lawful := by rw [same]; exact h.lawful
  below := by rw [same]; exact h.below
  single := by rw [same]; exact h.single
  orders := orders

/-- The maps as before. -/
theorem of_maps (h : s.Layout) (same : s'.maps = s.maps) : s'.Layout := by
  refine h.congr (role?_congr same) ?_
  unfold Ordered
  rw [same]
  exact h.orders

/-- One map is something else in the same role. -/
theorem set {st' : MapState} (h : s.Layout) (state : s.maps[m.index]? = some st)
    (role : st'.role = st.role)
    (order : ∀ w front, st'.buffer? = some w → st'.role = .over front →
      w.slots.order = front.keyType.compare) : (s.set m st').Layout := by
  refine h.congr (role?_set state role) fun y sty w front stateY waiting above => ?_
  rw [maps_set] at stateY
  split at stateY
  · rw [state] at stateY
    cases stateY
    exact order w front waiting above
  · exact h.orders y sty w front stateY waiting above

end Layout

/-! ## The direct map below -/

/-- The map keeps its entries in the direct map `d` at `b`, and these writes
wait before it. -/
structure Rests (s : Store) (m b : MapHandle) (d : DirectMap) (waiting : Option WriteBuffer) :
    Prop where
  base : s.maps[b.index]? = some (.direct d)
  top : (m = b ∧ waiting = none) ∨ ∃ st front, s.maps[m.index]? = some st ∧
    st.role = .over front ∧ front.backing = b ∧ st.buffer? = waiting

/-- What a map with these waiting writes has for its entries. -/
def content (d : DirectMap) (waiting : Option WriteBuffer) : SortedTable Bytes Bytes :=
  waiting.elim d.table (·.overTable d.table)

/-- Nothing waits, and the direct map has no change that is not saved. -/
def Clean (d : DirectMap) (waiting : Option WriteBuffer) : Prop :=
  d.dirty = false ∧ ∀ w, waiting = some w → w.snapshot = []

theorem clean_none {d : DirectMap} (h : d.dirty = false) : Clean d none :=
  ⟨h, fun w eq => by cases eq⟩

theorem content_of_clean {d : DirectMap} {waiting : Option WriteBuffer} (h : Clean d waiting) :
    content d waiting = d.table := by
  cases waiting with
  | none => rfl
  | some w => exact WriteBuffer.overTable_of_snapshot_nil (h.2 w rfl) d.table

/-- No map stands on this one. -/
def Top (s : Store) (m : MapHandle) : Prop :=
  ∀ y front, s.role? y = some (.over front) → front.backing ≠ m

theorem rests_direct {d : DirectMap} (h : s.maps[m.index]? = some (.direct d)) :
    s.Rests m m d none := ⟨h, .inl ⟨rfl, rfl⟩⟩

theorem Layout.rests_over (h : s.Layout) (state : s.maps[m.index]? = some st)
    (above : st.role = .over front) : ∃ d, s.Rests m front.backing d st.buffer? := by
  obtain ⟨-, x, role, -⟩ := h.below m front (by rw [role?_of_maps state, above])
  obtain ⟨d, base, -⟩ := direct_of_role? role
  exact ⟨d, base, .inr ⟨st, front, state, above, rfl, rfl⟩⟩

namespace Rests

variable {d : DirectMap} {waiting : Option WriteBuffer}

/-- The waiting writes are in the order of the table they wait for. -/
theorem order (h : s.Rests m b d waiting) (layout : s.Layout) {w : WriteBuffer}
    (eq : waiting = some w) :
    w.slots.order = d.table.order ∧ Std.TransCmp d.table.order := by
  have lawful := layout.lawful b d.toBase (role?_of_maps h.base)
  have order : d.table.order = d.keyType.compare := lawful.1
  have trans : Std.TransCmp d.keyType.compare := lawful.2
  rw [order]
  refine ⟨?_, trans⟩
  obtain ⟨-, none⟩ | ⟨st, front, state, above, rfl, buffer⟩ := h.top
  · rw [none] at eq
    cases eq
  · obtain ⟨-, x, role, -, -, keyType, -⟩ :=
      layout.below m front (by rw [role?_of_maps state, above])
    rw [role?_of_maps h.base] at role
    cases role
    rw [layout.orders m st w front state (buffer.trans eq) above, keyType]
    rfl

theorem role (h : s.Rests m b d waiting) : s.role? b = some (.base d.toBase) :=
  role?_of_maps h.base

/-- A step of other maps. -/
theorem set_other {y : MapHandle} (h : s.Rests m b d waiting) (st : MapState) (neM : y ≠ m)
    (neB : y ≠ b) : (s.set y st).Rests m b d waiting := by
  refine ⟨(maps_set_of_ne s st neB).trans h.base, h.top.imp_right ?_⟩
  rintro ⟨stm, front, state, rest⟩
  exact ⟨stm, front, (maps_set_of_ne s st neM).trans state, rest⟩

/-- A step that leaves the maps. -/
theorem of_maps (h : s.Rests m b d waiting) (same : s'.maps = s.maps) :
    s'.Rests m b d waiting := by
  obtain ⟨base, top⟩ := h
  rw [← same] at base top
  exact ⟨base, top⟩

/-- The map that stands on another is not that other. -/
theorem ne_of_over (h : s.Rests m b d waiting) (state : s.maps[m.index]? = some st)
    (above : st.role = .over front) : m ≠ b := by
  rintro rfl
  rw [h.base] at state
  cases state
  cases above

/-- Another direct map in the place of the one below. -/
theorem set_base (h : s.Rests m b d waiting) (d' : DirectMap) :
    (s.set b (.direct d')).Rests m b d' waiting := by
  refine ⟨maps_set_self _ h.base, ?_⟩
  obtain top | ⟨st, front, state, above, rest⟩ := h.top
  · exact .inl top
  · have ne := (h.ne_of_over state above).symm
    exact .inr ⟨st, front, (maps_set_of_ne s _ ne).trans state, above, rest⟩

/-- Other waiting writes for the map on top. -/
theorem set_top {st' : MapState} (h : s.Rests m b d waiting) (state : s.maps[m.index]? = some st)
    (above : st.role = .over front) (same : st'.role = st.role) :
    (s.set m st').Rests m b d st'.buffer? := by
  have ne := h.ne_of_over state above
  refine ⟨(maps_set_of_ne s _ ne).trans h.base, .inr ⟨st', front, maps_set_self _ state,
    same.trans above, ?_, rfl⟩⟩
  obtain ⟨eq, -⟩ | ⟨stm, front', stateM, over', eq, -⟩ := h.top
  · exact absurd eq ne
  · rw [state] at stateM
    cases stateM
    rw [above] at over'
    cases over'
    exact eq

/-- What waits, and below which map. -/
theorem of_over (h : s.Rests m b d waiting) (state : s.maps[m.index]? = some st)
    (above : st.role = .over front) : front.backing = b ∧ st.buffer? = waiting := by
  obtain ⟨eq, -⟩ | ⟨stm, front', stateM, over', rest⟩ := h.top
  · exact absurd eq (h.ne_of_over state above)
  · rw [state] at stateM
    cases stateM
    rw [above] at over'
    cases over'
    exact rest

/-- What the map itself is. -/
theorem of_state (h : s.Rests m b d waiting) (state : s.maps[m.index]? = some st) :
    (m = b ∧ waiting = none ∧ st = .direct d) ∨
      ∃ front, st.role = .over front ∧ front.backing = b ∧ st.buffer? = waiting := by
  obtain ⟨rfl, none⟩ | ⟨stm, front, stateM, rest⟩ := h.top
  · rw [h.base] at state
    cases state
    exact .inl ⟨rfl, none, rfl⟩
  · rw [state] at stateM
    cases stateM
    exact .inr ⟨front, rest⟩

/-- A direct map rests on itself. -/
theorem of_direct {d' : DirectMap} (h : s.Rests m b d waiting)
    (state : s.maps[m.index]? = some (.direct d')) : m = b ∧ waiting = none ∧ d' = d := by
  obtain ⟨eq, none, same⟩ | ⟨front, above, -⟩ := h.of_state state
  · exact ⟨eq, none, MapState.direct.inj same⟩
  · cases above

/-- The map is no in-memory map. -/
theorem lasting (h : s.Rests m b d waiting) : s.role? m ≠ some .memory := by
  obtain ⟨rfl, -⟩ | ⟨st, front, state, above, -⟩ := h.top
  · rw [h.role]
    nofun
  · rw [role?_of_maps state, above]
    nofun

/-- An open map lists its content. -/
theorem entries (h : s.Rests m b d waiting) (layout : s.Layout)
    (opened : ∀ st, s.maps[m.index]? = some st → st.isOpen = true) (isOpen : d.closed = false) :
    m.entries s = .ok (content d waiting).toList s := by
  have listed := MapHandle.entries_open h.base isOpen
  have order := fun w => h.order layout (w := w)
  obtain ⟨rfl, rfl⟩ | ⟨st, front, state, above, rfl, buffer⟩ := h.top
  · exact listed
  · have below := (layout.below m front (by rw [role?_of_maps state, above])).1
    have open' := opened st state
    have overlaid : ∀ w, waiting = some w →
        (content d waiting).toList = w.over d.table.toList := by
      rintro w rfl
      obtain ⟨same, lawful⟩ := order w rfl
      exact (WriteBuffer.over_toList w d.table same).symm
    obtain ⟨x, rfl, rfl⟩ | ⟨a, rfl, rfl⟩ := MapState.cases_of_role above
    · have notClosed : x.closed = false := by simpa [MapState.isOpen] using open'
      rw [MapHandle.entries_buffered state notClosed below, overlaid x.buffer buffer.symm]
      simp [listed]
    · rw [MapHandle.entries_adaptive state below]
      cases waiting : a.buffer with
      | none =>
        obtain rfl := buffer
        simp [listed, MapState.buffer?, waiting, content]
      | some w =>
        have eq : a.buffer = _ := buffer
        simp [listed, overlaid w (eq.symm.trans waiting)]

end Rests

end Store

end MapStore
