/-
MapStore.Proofs.EngineMaps — the maps that an engine has opened.

An engine names one map of each name that it opened (`Roster`): an in-memory
map, a direct map, or the map that stands on the direct map of that name. All
its direct maps are listed to be saved and all its buffers to be merged
(`Listed`). With what it keeps on the disk this is what holds between any two
calls of an open engine (`Furnished`).

Moves leave it, since they leave the roles of maps and list the buffers that
they make. A new map leaves it if it comes in one of three ways: in memory
under a new name, direct under a new name, or over the direct map of its name.
-/
import Mathlib.Logic.Function.Basic
import MapStore.Proofs.Building
import MapStore.Proofs.Keeping

namespace MapStore

open Artifact (fileName isValidName)

/-- The live-sets that the map lists itself in. -/
def MapState.live? : MapState → Option LiveHandle
  | adaptive a => some a.live
  | _ => none

@[simp] theorem MapState.live?_withBuffer (st : MapState) (w : WriteBuffer) :
    (st.withBuffer w).live? = st.live? := by
  cases st <;> rfl

namespace Store

variable {s s' s₁ : Store} {m b : MapHandle} {st st' : MapState} {live : LiveHandle}
  {named : String → Option MapHandle} {dir name : String} {here : Place} {ids : MapIds}
  {x : Base} {front : Front}

/-! ## The names -/

/-- Every direct map is named, itself or by the map that stands on it, and so
is every map that stands on one. -/
structure Roster (s : Store) (named : String → Option MapHandle) : Prop where
  tops : ∀ b x, s.role? b = some (.base x) → ∃ t, named x.name = some t ∧
    (t = b ∨ ∃ front, s.role? t = some (.over front) ∧ front.backing = b)
  fronts : ∀ m front, s.role? m = some (.over front) → named front.name = some m
  registered : ∀ name t, named name = some t → s.role? t = some .memory ∨
    (∃ x, s.role? t = some (.base x) ∧ x.name = name) ∨
    ∃ front, s.role? t = some (.over front) ∧ front.name = name

namespace Roster

theorem of_empty (empty : s.maps = []) (nothing : ∀ name, named name = none) : s.Roster named := by
  have noRole := role?_of_empty empty
  refine ⟨fun b x role => ?_, fun m front role => ?_, fun name t given => ?_⟩
  · rw [noRole] at role
    cases role
  · rw [noRole] at role
    cases role
  · rw [nothing] at given
    cases given

theorem congr (h : s.Roster named) (same : s'.role? = s.role?) : s'.Roster named where
  tops := by rw [same]; exact h.tops
  fronts := by rw [same]; exact h.fronts
  registered := by rw [same]; exact h.registered

/-- No map stands on one that is named. -/
theorem top (h : s.Roster named) (layout : s.Layout) (given : named name = some m) : s.Top m := by
  rintro y front above rfl
  obtain ⟨-, x, base, sameName, -⟩ := layout.below y front above
  rcases h.registered name _ given with memory | ⟨x', base', rfl⟩ | ⟨front', over', -⟩
  · rw [base] at memory
    cases memory
  · rw [base] at base'
    cases base'
    have again := h.fronts y front above
    rw [sameName, given] at again
    cases again
    rw [base] at above
    cases above
  · rw [base] at over'
    cases over'

/-- No direct map has a name that is not given. -/
theorem fresh (h : s.Roster named) (free : named name = none) (base : s.role? b = some (.base x)) :
    x.name ≠ name := by
  rintro rfl
  obtain ⟨t, given, -⟩ := h.tops b x base
  rw [free] at given
  cases given

/-- No two direct maps have one name. -/
theorem unique {b' : MapHandle} {x' : Base} (h : s.Roster named) (base : s.role? b = some (.base x))
    (base' : s.role? b' = some (.base x')) (same : x.name = x'.name) : b = b' := by
  obtain ⟨t, given, top⟩ := h.tops b x base
  obtain ⟨t', given', top'⟩ := h.tops b' x' base'
  rw [← same, given] at given'
  cases given'
  obtain rfl | ⟨front, above, below⟩ := top
  · obtain eq | ⟨front', above', -⟩ := top'
    · exact eq
    · rw [base] at above'
      cases above'
  · obtain rfl | ⟨front', above', below'⟩ := top'
    · rw [base'] at above
      cases above
    · rw [above] at above'
      cases above'
      exact below.symm.trans below'

/-- What stands on a direct map, if it is not named itself. -/
theorem rests (h : s.Roster named) (layout : s.Layout) {d : DirectMap}
    (base : s.maps[b.index]? = some (.direct d)) :
    ∃ t waiting, named d.name = some t ∧ s.Rests t b d waiting := by
  obtain ⟨t, given, rfl | ⟨front, above, rfl⟩⟩ := h.tops b d.toBase (role?_of_maps base)
  · exact ⟨t, none, given, rests_direct base⟩
  · obtain ⟨st, state, over'⟩ := over_of_role? above
    obtain ⟨d', rests⟩ := layout.rests_over state over'
    obtain rfl : d' = d := by
      have same := rests.base.symm.trans base
      cases same
      rfl
    exact ⟨t, st.buffer?, given, rests⟩

end Roster

/-! ## The live-sets -/

/-- The live-sets list all that a tick has to visit: every direct map, and
every map that has a buffer. -/
structure Listed (s : Store) (live : LiveHandle) : Prop where
  alive : (s.liveSets live).alive = true
  bases : ∀ b x, s.role? b = some (.base x) → b ∈ (s.liveSets live).storage.members
  waiting : ∀ (m : MapHandle) (st : MapState) (w : WriteBuffer), s.maps[m.index]? = some st →
    st.buffer? = some w → .map m ∈ (s.liveSets live).buffered.members
  own : ∀ (m : MapHandle) (st : MapState) (h : LiveHandle), s.maps[m.index]? = some st →
    st.live? = some h → h = live

namespace Listed

theorem congr (h : s.Listed live) (maps : s'.maps = s.maps) (sets : s'.live = s.live) :
    s'.Listed live := by
  have roles := role?_congr maps
  have same : s'.liveSets live = s.liveSets live := by
    rw [liveSets, liveSets, sets]
  refine ⟨?_, ?_, ?_, ?_⟩
  · rw [same]
    exact h.alive
  · rw [same, roles]
    exact h.bases
  · rw [same, maps]
    exact h.waiting
  · rw [maps]
    exact h.own

/-- One map is something else in the same role, and is listed if it has a
buffer; the other members stay. -/
theorem move (h : s.Listed live) (state : s.maps[m.index]? = some st)
    (role : st'.role = st.role) (own : st'.live? = st.live?) (maps : s₁.maps = s.maps)
    (alive : (s₁.liveSets live).alive = true)
    (storage : (s₁.liveSets live).storage = (s.liveSets live).storage)
    (others : ∀ u ∈ (s.liveSets live).buffered.members, u ≠ .map m →
      u ∈ (s₁.liveSets live).buffered.members)
    (waiting : ∀ w, st'.buffer? = some w → .map m ∈ (s₁.liveSets live).buffered.members) :
    (s₁.set m st').Listed live := by
  have state₁ : s₁.maps[m.index]? = some st := by rw [maps, state]
  have roles : (s₁.set m st').role? = s.role? := by
    rw [role?_set state₁ role, role?_congr maps]
  have at? : ∀ (y : MapHandle) (sty : MapState), (s₁.set m st').maps[y.index]? = some sty →
      (m = y ∧ sty = st') ∨ (m ≠ y ∧ s.maps[y.index]? = some sty) := by
    intro y sty stateY
    rw [maps_set] at stateY
    split at stateY
    · rename_i same
      rw [state₁] at stateY
      exact .inl ⟨same, (Option.some.inj stateY).symm⟩
    · rename_i ne
      exact .inr ⟨ne, by rw [← maps, stateY]⟩
  refine ⟨alive, fun y x base => ?_, fun y sty w stateY buffer => ?_,
    fun y sty sets stateY given => ?_⟩
  · rw [roles] at base
    rw [liveSets_set, storage]
    exact h.bases y x base
  · rw [liveSets_set]
    obtain ⟨rfl, rfl⟩ | ⟨ne, before⟩ := at? y sty stateY
    · exact waiting w buffer
    · refine others _ (h.waiting y sty w before buffer) fun eq => ne ?_
      cases eq
      rfl
  · obtain ⟨rfl, rfl⟩ | ⟨-, before⟩ := at? y sty stateY
    · exact h.own m st sets state (own ▸ given)
    · exact h.own y sty sets before given

/-- One map is something else in the same role, with a buffer if it had one. -/
theorem set (h : s.Listed live) (state : s.maps[m.index]? = some st)
    (role : st'.role = st.role) (own : st'.live? = st.live?)
    (waiting : ∀ w, st'.buffer? = some w → ∃ w₀, st.buffer? = some w₀) :
    (s.set m st').Listed live := by
  refine h.move state role own rfl h.alive rfl (fun u mem _ => mem) fun w buffer => ?_
  obtain ⟨w₀, before⟩ := waiting w buffer
  exact h.waiting m st w₀ state before

theorem set_direct {d d' : DirectMap} (h : s.Listed live)
    (state : s.maps[m.index]? = some (.direct d)) (same : d'.toBase = d.toBase) :
    (s.set m (.direct d')).Listed live :=
  h.set state (congrArg Role.base same) rfl nofun

theorem set_buffer {w w' : WriteBuffer} (h : s.Listed live) (state : s.maps[m.index]? = some st)
    (waiting : st.buffer? = some w) : (s.set m (st.withBuffer w')).Listed live :=
  h.set state (MapState.role_withBuffer ..) (MapState.live?_withBuffer ..) fun _ _ => ⟨w, waiting⟩

end Listed

theorem UpkeepMove.listed (h : s.UpkeepMove s') (listed : s.Listed live) : s'.Listed live := by
  cases h with
  | metered meters => exact listed.congr rfl rfl
  | counted units => exact listed.congr rfl rfl
  | merged state above waiting first base wrote =>
    have ne := ne_of_role state above base
    have based := listed.set_direct base (DirectMap.toBase_of_write wrote)
    exact based.set_buffer ((maps_set_of_ne s _ ne).trans state) waiting
  | @saved b d base =>
    obtain ⟨dirty, eq⟩ := d.save_map s.disk
    have stored : ({ s with disk := (d.save s.disk).2.2 } : Store).Listed live :=
      listed.congr rfl rfl
    refine stored.set_direct base ?_
    rw [eq]
    rfl
  | @entered m a state direct alive =>
    obtain rfl : a.live = live := listed.own m _ a.live state rfl
    have sets := liveSets_withListed s a.live a.live
      ((s.liveSets a.live).buffered.insert (.map m)).2 alive
    rw [if_pos rfl] at sets
    refine listed.move state rfl rfl rfl (by rw [sets]; exact alive) (by rw [sets])
      (fun u mem _ => ?_) fun w _ => ?_
    · rw [sets]
      exact (LiveSet.mem_insert _ _ u).2 (.inr mem)
    · rw [sets]
      exact (LiveSet.mem_insert _ _ _).2 (.inl rfl)
  | @left m a state drained =>
    obtain rfl : a.live = live := listed.own m _ a.live state rfl
    have alive := listed.alive
    rw [if_pos alive]
    have sets := liveSets_withListed s a.live a.live
      ((s.liveSets a.live).buffered.erase (.map m)).2 alive
    rw [if_pos rfl] at sets
    refine listed.move state rfl rfl rfl (by rw [sets]; exact alive) (by rw [sets])
      (fun u mem ne => ?_) nofun
    rw [sets]
    exact (LiveSet.mem_erase _ _ u).2 ⟨ne, mem⟩

theorem Writes.listed (h : s.Writes s') (listed : s.Listed live) : s'.Listed live := by
  cases h with
  | memory state wrote => exact listed.set state rfl rfl nofun
  | direct state wrote => exact listed.set_direct state (DirectMap.toBase_of_write wrote)
  | buffered state above waiting base seen => exact listed.set_buffer state waiting

/-! ## The maps of an open engine -/

/-- What holds of the maps of an open engine between any two calls. -/
structure Furnished (s : Store) (live : LiveHandle) (named : String → Option MapHandle)
    (dir : String) (here : Place) (ids : MapIds) : Prop where
  kept : s.Kept dir here ids
  roster : s.Roster named
  listed : s.Listed live
  opened : ∀ m, s.role? m ≠ some .memory → s.OpenAt m

theorem UpkeepMove.furnished (h : s.UpkeepMove s')
    (furnished : s.Furnished live named dir here ids) :
    s'.Furnished live named dir here ids where
  kept := h.kept furnished.kept
  roster := furnished.roster.congr h.role?
  listed := h.listed furnished.listed
  opened m lasting := h.openAt (furnished.opened m (h.role? ▸ lasting))

theorem Writes.furnished (h : s.Writes s') (furnished : s.Furnished live named dir here ids) :
    s'.Furnished live named dir here ids where
  kept := h.kept furnished.kept
  roster := furnished.roster.congr h.role?
  listed := h.listed furnished.listed
  opened m lasting := by
    have lasting' : s.role? m ≠ some .memory := h.role? ▸ lasting
    refine h.openAt (fun p state => lasting' ?_) (furnished.opened m lasting')
    exact role?_of_maps state

theorem UpkeepMoves.furnished (h : s.UpkeepMoves s')
    (furnished : s.Furnished live named dir here ids) :
    s'.Furnished live named dir here ids := by
  induction h with
  | refl => exact furnished
  | tail _ move ih => exact move.furnished ih

theorem Runs.furnished (h : s.Runs Writes s') (furnished : s.Furnished live named dir here ids) :
    s'.Furnished live named dir here ids := by
  induction h with
  | refl => exact furnished
  | tail _ move ih => exact move.elim (·.furnished ih) (·.furnished ih)

/-! ## New maps -/

/-- The live-sets still list what they did. -/
structure StillLists (s s' : Store) (live : LiveHandle) : Prop where
  alive : (s.liveSets live).alive = true → (s'.liveSets live).alive = true
  storage : ∀ m ∈ (s.liveSets live).storage.members, m ∈ (s'.liveSets live).storage.members
  buffered : ∀ u ∈ (s.liveSets live).buffered.members, u ∈ (s'.liveSets live).buffered.members

/-- A map is made, and the live-sets still list what they did. -/
structure Makes (s : Store) (st : MapState) (live : LiveHandle) (s' : Store) : Prop
    extends StillLists s s' live where
  maps : s'.maps = s.maps ++ [st]
  disk : s'.disk = s.disk

namespace Makes

theorem at? (h : s.Makes st live s') (m : MapHandle) :
    s'.maps[m.index]? = if m = s.next then some st else s.maps[m.index]? := by
  obtain ⟨i⟩ := m
  simp only [h.maps, next, MapHandle.mk.injEq, List.getElem?_append]
  split
  · rename_i lt
    rw [if_neg (by omega)]
  · rename_i ge
    split
    · rename_i eq
      simp [eq]
    · rename_i ne
      obtain ⟨k, rfl⟩ : ∃ k, i = s.maps.length + (k + 1) := ⟨i - s.maps.length - 1, by omega⟩
      simp

theorem at?_next (h : s.Makes st live s') : s'.maps[s.next.index]? = some st := by
  rw [h.at?, if_pos rfl]

theorem ne_next (h : s.maps[m.index]? = some st) : m ≠ s.next := by
  rintro rfl
  simp [next] at h

/-- What was there still is. -/
theorem at?_old (h : s.Makes st live s') (state : s.maps[m.index]? = some st') :
    s'.maps[m.index]? = some st' := by
  rw [h.at?, if_neg (ne_next state), state]

theorem role? (h : s.Makes st live s') (m : MapHandle) :
    s'.role? m = if m = s.next then some st.role else s.role? m := by
  rw [Store.role?, h.at?]
  split <;> rfl

theorem role?_next (h : s.Makes st live s') : s'.role? s.next = some st.role := by
  rw [h.role?, if_pos rfl]

theorem ne_of_role? {r : Role} (h : s.role? m = some r) : m ≠ s.next := by
  obtain ⟨st, state, -⟩ := Option.map_eq_some_iff.1 h
  exact ne_next state

theorem role?_old {r : Role} (h : s.Makes st live s') (role : s.role? m = some r) :
    s'.role? m = some r := by
  rw [h.role?, if_neg (ne_of_role? role), role]

/-- A role is that of the new map, or of an old one. -/
theorem role?_cases {r : Role} (h : s.Makes st live s') (role : s'.role? m = some r) :
    (m = s.next ∧ st.role = r) ∨ (m ≠ s.next ∧ s.role? m = some r) := by
  rw [h.role?] at role
  split at role
  · exact .inl ⟨‹_›, Option.some.inj role⟩
  · exact .inr ⟨‹_›, role⟩

theorem listed (h : s.Makes st live s') (listed : s.Listed live)
    (base : ∀ x, st.role = .base x → s.next ∈ (s'.liveSets live).storage.members)
    (waiting : ∀ w, st.buffer? = some w → .map s.next ∈ (s'.liveSets live).buffered.members)
    (own : ∀ sets, st.live? = some sets → sets = live) : s'.Listed live := by
  refine ⟨h.alive listed.alive, fun y x role => ?_, fun y sty w stateY buffer => ?_,
    fun y sty sets stateY given => ?_⟩
  · obtain ⟨rfl, new⟩ | ⟨-, old⟩ := h.role?_cases role
    · exact base x new
    · exact h.storage y (listed.bases y x old)
  · rw [h.at?] at stateY
    split at stateY
    · rename_i eq
      cases stateY
      exact eq ▸ waiting w buffer
    · exact h.buffered _ (listed.waiting y sty w stateY buffer)
  · rw [h.at?] at stateY
    split at stateY
    · cases stateY
      exact own sets given
    · exact listed.own y sty sets stateY given

theorem opened (h : s.Makes st live s') (opened : ∀ m, s.role? m ≠ some .memory → s.OpenAt m)
    (isOpen : st.isOpen = true) : ∀ m, s'.role? m ≠ some .memory → s'.OpenAt m := by
  intro y lasting sty stateY
  rw [h.at?] at stateY
  split at stateY
  · cases stateY
    exact isOpen
  · rename_i ne
    rw [h.role?, if_neg ne] at lasting
    exact opened y lasting sty stateY

/-- The layout with one map more, over a direct map that no map stands on. -/
theorem layout (h : s.Makes st live s') (layout : s.Layout) (faultless : st.role ≠ .faulty)
    (lawful : ∀ x, st.role = .base x →
      x.order = x.keyType.compare ∧ Std.TransCmp x.keyType.compare)
    (below : ∀ front, st.role = .over front →
      ∃ x, s.role? front.backing = some (.base x) ∧ front.name = x.name ∧ front.id = x.id ∧
        front.keyType = x.keyType ∧ front.valueType = x.valueType)
    (single : ∀ front, st.role = .over front → s.Top front.backing)
    (order : ∀ w front, st.buffer? = some w → st.role = .over front →
      w.slots.order = front.keyType.compare) : s'.Layout where
  faultless m role := by
    obtain ⟨-, new⟩ | ⟨-, old⟩ := h.role?_cases role
    · exact faultless new
    · exact layout.faultless m old
  lawful m x role := by
    obtain ⟨-, new⟩ | ⟨-, old⟩ := h.role?_cases role
    · exact lawful x new
    · exact layout.lawful m x old
  below m front role := by
    obtain ⟨rfl, new⟩ | ⟨-, old⟩ := h.role?_cases role
    · obtain ⟨x, base, rest⟩ := below front new
      obtain ⟨d, there, -⟩ := direct_of_role? base
      exact ⟨(List.getElem?_eq_some_iff.1 there).1, x, h.role?_old base, rest⟩
    · obtain ⟨lt, x, base, rest⟩ := layout.below m front old
      exact ⟨lt, x, h.role?_old base, rest⟩
  single m m' front front' role role' same := by
    obtain ⟨rfl, new⟩ | ⟨-, old⟩ := h.role?_cases role
    · obtain ⟨rfl, -⟩ | ⟨-, old'⟩ := h.role?_cases role'
      · rfl
      · exact absurd same.symm (single front new m' front' old')
    · obtain ⟨rfl, new'⟩ | ⟨-, old'⟩ := h.role?_cases role'
      · exact absurd same (single front' new' m front old)
      · exact layout.single m m' front front' old old' same
  orders m sty w front state waiting above := by
    rw [h.at?] at state
    split at state
    · cases state
      exact order w front waiting above
    · exact layout.orders m sty w front state waiting above

theorem layout_memory {p : PlainMap} (h : s.Makes (.memory p) live s') (layout : s.Layout) :
    s'.Layout :=
  h.layout layout nofun nofun nofun nofun nofun

theorem layout_direct {d : DirectMap} (h : s.Makes (.direct d) live s') (layout : s.Layout)
    (order : d.table.order = d.keyType.compare) (lawful : Std.TransCmp d.keyType.compare) :
    s'.Layout := by
  refine h.layout layout nofun (fun x role => ?_) nofun nofun nofun
  cases role
  exact ⟨order, lawful⟩

/-- A map with an empty buffer, if any, over a direct map that no other stands
on. -/
theorem layout_over {d : DirectMap} (h : s.Makes st live s') (layout : s.Layout)
    (above : st.role = .over front) (base : s.maps[front.backing.index]? = some (.direct d))
    (name : front.name = d.name) (id : front.id = d.id) (keyType : front.keyType = d.keyType)
    (valueType : front.valueType = d.valueType) (top : s.Top front.backing)
    (empty : ∀ w, st.buffer? = some w → w = .empty front.keyType.compare) : s'.Layout := by
  refine h.layout layout ?_ (fun x eq => ?_) (fun front' eq => ?_) (fun front' eq => ?_)
    fun w front' eq eq' => ?_
  · rw [above]
    exact nofun
  · rw [above] at eq
    cases eq
  · rw [above] at eq
    cases eq
    exact ⟨d.toBase, role?_of_maps base, name, id, keyType, valueType⟩
  · rw [above] at eq
    cases eq
    exact top
  · rw [above] at eq'
    cases eq'
    rw [empty w eq]
    rfl

/-- What an engine keeps, with one map more: a direct map of a new name and
with what is on the disk, or no direct map. -/
theorem kept (h : s.Makes st live s') (kept : s.Kept dir here ids) (layout : s'.Layout)
    (named : ∀ x, st.role = .base x → isValidName x.name = true ∧
      x.path = some (Disk.join dir (fileName x.name x.id)) ∧ ids.get? x.name = some x.id)
    (fresh : ∀ x, st.role = .base x → ∀ m x', s.role? m = some (.base x') → x'.name ≠ x.name)
    (held : ∀ d, st = .direct d → d.Held dir s.disk) : s'.Kept dir here ids where
  layout := layout
  filed :=
    { named := fun m x role => by
        obtain ⟨-, new⟩ | ⟨-, old⟩ := h.role?_cases role
        · exact named x new
        · exact kept.filed.named m x old
      unique := fun m m' x x' role role' same => by
        obtain ⟨rfl, new⟩ | ⟨-, old⟩ := h.role?_cases role
        · obtain ⟨rfl, -⟩ | ⟨-, old'⟩ := h.role?_cases role'
          · rfl
          · exact absurd same.symm (fresh x new m' x' old')
        · obtain ⟨rfl, new'⟩ | ⟨-, old'⟩ := h.role?_cases role'
          · exact absurd same (fresh x' new' m x old)
          · exact kept.filed.unique m m' x x' old old' same }
  shelved := h.disk ▸ kept.shelved
  held b d state clean := by
    rw [h.disk]
    rw [h.at?] at state
    split at state
    · exact held d (Option.some.inj state)
    · exact kept.held b d state clean

/-- A new name for a map that stands on no other. -/
theorem roster (h : s.Makes st live s') (roster : s.Roster named) (free : named name = none)
    (plain : st.role = .memory ∨ ∃ x, st.role = .base x ∧ x.name = name) :
    s'.Roster (Function.update named name (some s.next)) := by
  have other : ∀ {y t}, named y = some t → Function.update named name (some s.next) y = some t := by
    intro y t given
    rw [Function.update_of_ne ?_, given]
    rintro rfl
    rw [free] at given
    cases given
  refine ⟨fun b x role => ?_, fun m front role => ?_, fun y t given => ?_⟩
  · obtain ⟨rfl, new⟩ | ⟨-, old⟩ := h.role?_cases role
    · rcases plain with memory | ⟨x', base, rfl⟩
      · rw [memory] at new
        cases new
      · rw [base] at new
        cases new
        exact ⟨s.next, Function.update_self .., .inl rfl⟩
    · obtain ⟨t, given, top⟩ := roster.tops b x old
      refine ⟨t, other given, top.imp_right ?_⟩
      rintro ⟨front, above, below⟩
      exact ⟨front, h.role?_old above, below⟩
  · obtain ⟨-, new⟩ | ⟨-, old⟩ := h.role?_cases role
    · rcases plain with memory | ⟨x', base, -⟩
      · rw [memory] at new
        cases new
      · rw [base] at new
        cases new
    · exact other (roster.fronts m front old)
  · by_cases same : y = name
    · subst same
      rw [Function.update_self] at given
      cases given
      rcases plain with memory | ⟨x, base, eq⟩
      · exact .inl (h.role?_next.trans (congrArg some memory))
      · exact .inr (.inl ⟨x, h.role?_next.trans (congrArg some base), eq⟩)
    · rw [Function.update_of_ne same] at given
      rcases roster.registered y t given with memory | ⟨x, base, eq⟩ | ⟨front, above, eq⟩
      · exact .inl (h.role?_old memory)
      · exact .inr (.inl ⟨x, h.role?_old base, eq⟩)
      · exact .inr (.inr ⟨front, h.role?_old above, eq⟩)

/-- The name of a direct map goes over to the map that is made on it. -/
theorem roster_over (h : s.Makes st live s') (roster : s.Roster named)
    (above : st.role = .over front) (base : s.role? front.backing = some (.base x))
    (given : named front.name = some front.backing) :
    s'.Roster (Function.update named front.name (some s.next)) := by
  -- no other map has the name
  have other : ∀ {y t r}, named y = some t → s.role? t = some r → (∀ x, r ≠ .base x) →
      Function.update named front.name (some s.next) y = some t := by
    intro y t r given' role ne
    rw [Function.update_of_ne ?_, given']
    rintro rfl
    rw [given] at given'
    cases given'
    rw [base] at role
    cases role
    exact ne x rfl
  refine ⟨fun b x' role => ?_, fun m front' role => ?_, fun y t given' => ?_⟩
  · obtain ⟨-, new⟩ | ⟨-, old⟩ := h.role?_cases role
    · rw [above] at new
      cases new
    · obtain ⟨t, given', top⟩ := roster.tops b x' old
      by_cases own : x'.name = front.name
      · rw [own, given] at given'
        cases given'
        refine ⟨s.next, by rw [own, Function.update_self], .inr ⟨front, ?_, ?_⟩⟩
        · rw [h.role?_next, above]
        · rcases top with eq | ⟨front', over', -⟩
          · exact eq
          · rw [base] at over'
            cases over'
      · refine ⟨t, by rw [Function.update_of_ne own, given'], top.imp_right ?_⟩
        rintro ⟨front', over', below⟩
        exact ⟨front', h.role?_old over', below⟩
  · obtain ⟨rfl, new⟩ | ⟨-, old⟩ := h.role?_cases role
    · rw [above] at new
      cases new
      exact Function.update_self ..
    · exact other (roster.fronts m front' old) old nofun
  · by_cases own : y = front.name
    · subst own
      rw [Function.update_self] at given'
      cases given'
      exact .inr (.inr ⟨front, h.role?_next.trans (congrArg some above), rfl⟩)
    · rw [Function.update_of_ne own] at given'
      rcases roster.registered y t given' with memory | ⟨x, base, eq⟩ | ⟨front, above, eq⟩
      · exact .inl (h.role?_old memory)
      · exact .inr (.inl ⟨x, h.role?_old base, eq⟩)
      · exact .inr (.inr ⟨front, h.role?_old above, eq⟩)

/-! ### The three ways -/

variable {p : PlainMap} {d : DirectMap}

/-- A new in-memory map. -/
theorem furnished_memory (h : s.Makes (.memory p) live s')
    (furnished : s.Furnished live named dir here ids) (free : named name = none)
    (isOpen : p.closed = false) :
    s'.Furnished live (Function.update named name (some s.next)) dir here ids where
  kept := h.kept furnished.kept (h.layout_memory furnished.kept.layout) nofun nofun nofun
  roster := h.roster furnished.roster free (.inl rfl)
  listed := h.listed furnished.listed nofun nofun nofun
  opened := h.opened furnished.opened (by simp [MapState.isOpen, isOpen])

/-- A new direct map with what is on the disk. -/
theorem furnished_direct (h : s.Makes (.direct d) live s')
    (furnished : s.Furnished live named dir here ids) (free : named d.name = none)
    (isOpen : d.closed = false) (valid : isValidName d.name = true)
    (path : d.path = some (Disk.join dir (fileName d.name d.id)))
    (known : ids.get? d.name = some d.id) (order : d.table.order = d.keyType.compare)
    (lawful : Std.TransCmp d.keyType.compare) (held : d.Held dir s.disk)
    (listed : s.next ∈ (s'.liveSets live).storage.members) :
    s'.Furnished live (Function.update named d.name (some s.next)) dir here ids := by
  have layout := h.layout_direct furnished.kept.layout order lawful
  refine
    { kept := h.kept furnished.kept layout (fun x role => ?_) (fun x role m x' role' => ?_)
        fun d' eq => ?_
      roster := h.roster furnished.roster free (.inr ⟨d.toBase, rfl, rfl⟩)
      listed := h.listed furnished.listed (fun _ _ => listed) nofun nofun
      opened := h.opened furnished.opened (by simp [MapState.isOpen, isOpen]) }
  · cases role
    exact ⟨valid, path, known⟩
  · cases role
    exact furnished.roster.fresh free role'
  · cases eq
    exact held

/-- A new map over the direct map of its name. -/
theorem furnished_over (h : s.Makes st live s')
    (furnished : s.Furnished live named dir here ids) (above : st.role = .over front)
    (base : s.maps[front.backing.index]? = some (.direct d)) (name : front.name = d.name)
    (id : front.id = d.id) (keyType : front.keyType = d.keyType)
    (valueType : front.valueType = d.valueType) (given : named front.name = some front.backing)
    (isOpen : st.isOpen = true)
    (empty : ∀ w, st.buffer? = some w → w = .empty front.keyType.compare)
    (waiting : ∀ w, st.buffer? = some w → .map s.next ∈ (s'.liveSets live).buffered.members)
    (own : ∀ sets, st.live? = some sets → sets = live) :
    s'.Furnished live (Function.update named front.name (some s.next)) dir here ids := by
  have role : s.role? front.backing = some (.base d.toBase) := role?_of_maps base
  have notDirect : ∀ x, st.role ≠ .base x := by
    rw [above]
    exact nofun
  have top := furnished.roster.top furnished.kept.layout given
  have layout := h.layout_over furnished.kept.layout above base name id keyType valueType top empty
  refine
    { kept := h.kept furnished.kept layout (fun x eq => absurd eq (notDirect x))
        (fun x eq => absurd eq (notDirect x)) fun d' eq => ?_
      roster := h.roster_over furnished.roster above role given
      listed := h.listed furnished.listed (fun x eq => absurd eq (notDirect x)) waiting own
      opened := h.opened furnished.opened isOpen }
  rw [eq] at above
  cases above

end Makes

end Store

end MapStore
