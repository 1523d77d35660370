/-
MapStore.Proofs.Registering — the table of open maps and the live-sets agree.

An engine keeps its open maps in a table and lists them in its live-sets: each
map, or the direct map it stands on, to be saved; each adaptive map to be asked
for its mode; each buffered map, and each adaptive map in buffered mode, to be
merged. `Agrees` says that the two tell the same.

They agree when an engine is opened and never cease to, whatever is done with
its maps and whatever fails (`EngineHandle.Run`): a map that changes its mode
is listed anew in the step in which it shows the mode, and a map is listed and
registered, or nothing is, when it is opened. So a name stands for one map for
as long as the engine is open.
-/
import MapStore.Proofs.Building
import MapStore.Proofs.Faces

namespace MapStore

namespace Face

/-- Two faces of one map, in different modes perhaps. -/
structure Alike (f f' : Face) : Prop where
  name : f'.name = f.name
  id : f'.id = f.id
  backing : f'.backing? = f.backing?
  sort : f'.sort = f.sort ∨
    ∃ mode mode' live, f.sort = .adaptive mode live ∧ f'.sort = .adaptive mode' live

namespace Alike

variable {f f' : Face}

theorem refl (f : Face) : f.Alike f := ⟨rfl, rfl, rfl, .inl rfl⟩

theorem keeper (h : f.Alike f') (m : MapHandle) : f'.keeper m = f.keeper m := by
  rw [Face.keeper, h.backing, Face.keeper]

theorem adapts (h : f.Alike f') : f'.sort.adapts = f.sort.adapts := by
  obtain same | ⟨_, _, _, eq, eq'⟩ := h.sort
  · rw [same]
  · rw [eq, eq']
    rfl

/-- The live-sets of an adaptive map stay. -/
theorem live {mode : MapMode} {live : LiveHandle} (h : f.Alike f')
    (sort : f'.sort = .adaptive mode live) : ∃ mode', f.sort = .adaptive mode' live := by
  obtain same | ⟨_, _, _, eq, eq'⟩ := h.sort
  · exact ⟨mode, same ▸ sort⟩
  · rw [eq'] at sort
    cases sort
    exact ⟨_, eq⟩

end Alike

end Face

namespace Store

variable {s s' : Store} {x : Engine} {name : String} {m : MapHandle} {f : Face}

/-! ## Agreement -/

/-- A table of open maps has the map under the name, and it has this face. -/
structure OpenAs (s : Store) (maps : SortedTable String MapHandle) (name : String)
    (m : MapHandle) (f : Face) : Prop where
  named : maps.get? name = some m
  face : s.face? m = some f

/-- The live-sets of an engine list just what its table of open maps has. -/
structure Agrees (s : Store) (x : Engine) : Prop where
  /-- Each open name has a map of the name, and the map has the id of the
  name. -/
  registered : ∀ name m, x.maps.get? name = some m →
    ∃ f, s.OpenAs x.maps name m f ∧ f.name = name ∧ x.ids.get? name = some f.id
  /-- The maps to be saved are the open maps, or what these stand on. -/
  storage : ∀ k, k ∈ (s.liveSets x.live).storage.members ↔
    ∃ name m f, s.OpenAs x.maps name m f ∧ f.keeper m = k
  /-- No map is to be saved for two names. -/
  single : ∀ name m f name' m' f', s.OpenAs x.maps name m f → s.OpenAs x.maps name' m' f' →
    f.keeper m = f'.keeper m' → name = name'
  /-- The maps whose mode is to be decided are the open adaptive maps. -/
  adaptive : ∀ m, m ∈ (s.liveSets x.live).adaptive.members ↔
    ∃ name f, s.OpenAs x.maps name m f ∧ f.sort.adapts = true
  /-- The buffers to be merged are those of the open buffered maps and of the
  open adaptive maps that are in buffered mode. -/
  buffered : ∀ u, u ∈ (s.liveSets x.live).buffered.members ↔
    ∃ name m f, s.OpenAs x.maps name m f ∧ f.sort.buffers = true ∧ u = .map m

/-- What holds of an open engine besides: its live-sets are its own, and what
its maps stand on is there. -/
structure Registry (s : Store) (x : Engine) : Prop extends Agrees s x where
  isOpen : x.closed = false
  alive : (s.liveSets x.live).alive = true
  ordered : x.maps.order = compare
  ids : x.ids.Ordered
  kept : ∀ name m f, s.OpenAs x.maps name m f → (s.face? (f.keeper m)).isSome
  own : ∀ name m f mode live, s.OpenAs x.maps name m f → f.sort = .adaptive mode live →
    live = x.live
  known : ∀ m f mode, s.face? m = some f → f.sort = .adaptive mode x.live →
    ∃ name, x.maps.get? name = some m

namespace Registry

section

variable (h : s.Registry x)
  (faces : ∀ name m f, s.OpenAs x.maps name m f → ∃ f', s'.face? m = some f' ∧ f.Alike f')

include h faces

/-- Whatever is open afterwards was open, in another mode perhaps. -/
theorem openAs_before {f' : Face} (openAs' : s'.OpenAs x.maps name m f') :
    ∃ f, s.OpenAs x.maps name m f ∧ f.Alike f' := by
  obtain ⟨f, openAs, -, -⟩ := h.registered name m openAs'.named
  obtain ⟨f'', face, alike⟩ := faces name m f openAs
  rw [openAs'.face] at face
  cases face
  exact ⟨f, openAs, alike⟩

/-- What a face tells apart from the mode is told of the same open maps. -/
theorem exists_openAs_iff {p : String → MapHandle → Face → Prop}
    (modeless : ∀ y k f f', f.Alike f' → (p y k f' ↔ p y k f)) :
    (∃ y k f, s'.OpenAs x.maps y k f ∧ p y k f) ↔ ∃ y k f, s.OpenAs x.maps y k f ∧ p y k f := by
  constructor
  · rintro ⟨y, k, f', openAs', holds⟩
    obtain ⟨f, openAs, alike⟩ := h.openAs_before faces openAs'
    exact ⟨y, k, f, openAs, (modeless y k f f' alike).1 holds⟩
  · rintro ⟨y, k, f, openAs, holds⟩
    obtain ⟨f', face, alike⟩ := faces y k f openAs
    exact ⟨y, k, f', ⟨openAs.named, face⟩, (modeless y k f f' alike).2 holds⟩

/-- A step that keeps the faces of the open maps, but for modes, and lists the
buffers accordingly. -/
theorem keep (there : ∀ m, (s.face? m).isSome → (s'.face? m).isSome)
    (known : ∀ m f mode, s'.face? m = some f → f.sort = .adaptive mode x.live →
      ∃ name, x.maps.get? name = some m)
    (alive : (s'.liveSets x.live).alive = (s.liveSets x.live).alive)
    (storage : (s'.liveSets x.live).storage = (s.liveSets x.live).storage)
    (adaptive : (s'.liveSets x.live).adaptive = (s.liveSets x.live).adaptive)
    (buffered : ∀ u, u ∈ (s'.liveSets x.live).buffered.members ↔
      ∃ name m f, s'.OpenAs x.maps name m f ∧ f.sort.buffers = true ∧ u = .map m) :
    s'.Registry x where
  registered name m named := by
    obtain ⟨f, openAs, sameName, sameId⟩ := h.registered name m named
    obtain ⟨f', face, alike⟩ := faces name m f openAs
    exact ⟨f', ⟨named, face⟩, alike.name.trans sameName, by rw [alike.id, sameId]⟩
  storage k := by
    rw [storage, h.storage]
    refine (h.exists_openAs_iff faces fun _ m f f' alike => ?_).symm
    rw [alike.keeper]
  single name m f name' m' f' openAs openAs' same := by
    obtain ⟨g, before, alike⟩ := h.openAs_before faces openAs
    obtain ⟨g', before', alike'⟩ := h.openAs_before faces openAs'
    rw [alike.keeper, alike'.keeper] at same
    exact h.single name m g name' m' g' before before' same
  adaptive m := by
    rw [adaptive, h.adaptive]
    constructor
    · rintro ⟨name, f, openAs, adapts⟩
      obtain ⟨f', face, alike⟩ := faces name m f openAs
      exact ⟨name, f', ⟨openAs.named, face⟩, alike.adapts.trans adapts⟩
    · rintro ⟨name, f', openAs', adapts⟩
      obtain ⟨f, openAs, alike⟩ := h.openAs_before faces openAs'
      exact ⟨name, f, openAs, alike.adapts.symm.trans adapts⟩
  buffered := buffered
  isOpen := h.isOpen
  alive := alive.trans h.alive
  ordered := h.ordered
  ids := h.ids
  kept name m f openAs := by
    obtain ⟨g, before, alike⟩ := h.openAs_before faces openAs
    rw [alike.keeper]
    exact there _ (h.kept name m g before)
  own name m f mode live openAs sort := by
    obtain ⟨g, before, alike⟩ := h.openAs_before faces openAs
    obtain ⟨mode', sort'⟩ := alike.live sort
    exact h.own name m g mode' live before sort'
  known := known

end

/-! ## Steps of the maps -/

/-- A step that leaves the faces and the live-sets leaves all of it. -/
theorem congr (h : s.Registry x) (faces : s'.face? = s.face?)
    (sets : s'.liveSets x.live = s.liveSets x.live) : s'.Registry x := by
  have openAs : s'.OpenAs = s.OpenAs := by
    funext y name m f
    exact propext ⟨fun ⟨named, face⟩ => ⟨named, faces ▸ face⟩,
      fun ⟨named, face⟩ => ⟨named, faces ▸ face⟩⟩
  refine h.keep (fun name m f openAs => ⟨f, faces ▸ openAs.face, .refl f⟩)
    (fun m there => faces ▸ there) (faces ▸ h.known) ?_ ?_ ?_ ?_
  · rw [sets]
  · rw [sets]
  · rw [sets]
  · rw [sets, openAs]
    exact h.buffered

theorem still (h : s.Registry x) (still : s.Still s') : s'.Registry x :=
  h.congr still.faces (by rw [liveSets, liveSets, still.live])

/-- What engines there are is another matter. -/
theorem withEngine (h : s.Registry x) (e : EngineHandle) (y : Engine) :
    (s.withEngine e y).Registry x := h.congr rfl rfl

section

variable {target mode : MapMode} {live : LiveHandle} {g : Face} (face : s.face? m = some g)
  (sort : g.sort = .adaptive mode live)
  (faces : ∀ y, s'.face? y =
    if y = m then some { g with sort := .adaptive target live } else s.face? y)

include faces

/-- Only the map itself shows another mode. -/
theorem openAs_of_ne {y : MapHandle} (ne : y ≠ m) :
    s'.OpenAs x.maps name y f ↔ s.OpenAs x.maps name y f := by
  constructor <;> rintro ⟨named, face'⟩ <;> refine ⟨named, ?_⟩
  · rwa [faces, if_neg ne] at face'
  · rwa [faces, if_neg ne]

include face sort

theorem alike_of_turned {y : MapHandle} (face' : s.face? y = some f) :
    ∃ f', s'.face? y = some f' ∧ f.Alike f' := by
  rw [faces]
  split
  · rename_i same
    rw [same, face] at face'
    cases face'
    exact ⟨_, rfl, rfl, rfl, rfl, .inr ⟨mode, target, live, sort, rfl⟩⟩
  · exact ⟨f, face', .refl f⟩

/-- The engine that the map is of lists its buffer if the mode is buffered. -/
theorem mem_buffered_own (h : s.Registry x) (own : live = x.live) (u : MergeUnit) :
    u ∈ ((s.liveSets x.live).relist m (some target)).buffered.members ↔
      ∃ name y f, s'.OpenAs x.maps name y f ∧ f.sort.buffers = true ∧ u = .map y := by
  subst own
  by_cases same : u = .map m
  · subst same
    rw [LiveSets.mem_relist_self h.alive]
    have self : s'.face? m = some { g with sort := .adaptive target x.live } := by
      rw [faces, if_pos rfl]
    constructor
    · rintro rfl
      obtain ⟨name, named⟩ := h.known m g mode face sort
      exact ⟨name, m, _, ⟨named, self⟩, rfl, rfl⟩
    · rintro ⟨name, y, f, openAs, buffers, eq⟩
      cases eq
      have face' := openAs.face
      rw [self] at face'
      cases face'
      cases target with
      | buffered => rfl
      | direct => cases buffers
  · rw [LiveSets.mem_relist same, h.buffered]
    constructor <;> rintro ⟨name, y, f, openAs, buffers, rfl⟩
    · exact ⟨name, y, f, (openAs_of_ne faces fun eq => same (eq ▸ rfl)).2 openAs, buffers, rfl⟩
    · exact ⟨name, y, f, (openAs_of_ne faces fun eq => same (eq ▸ rfl)).1 openAs, buffers, rfl⟩

/-- In another engine than the map's own it is not open. -/
theorem mem_buffered_other (h : s.Registry x) (other : live ≠ x.live) (u : MergeUnit) :
    u ∈ (s.liveSets x.live).buffered.members ↔
      ∃ name y f, s'.OpenAs x.maps name y f ∧ f.sort.buffers = true ∧ u = .map y := by
  have stranger : ∀ name y, x.maps.get? name = some y → y ≠ m := by
    rintro name y named rfl
    exact other (h.own name y g mode live ⟨named, face⟩ sort)
  rw [h.buffered]
  constructor <;> rintro ⟨name, y, f, openAs, rest⟩
  · exact ⟨name, y, f, (openAs_of_ne faces (stranger name y openAs.named)).2 openAs, rest⟩
  · exact ⟨name, y, f, (openAs_of_ne faces (stranger name y openAs.named)).1 openAs, rest⟩

end

/-- A map that shows another mode is listed anew in the same step. -/
theorem turned {target : MapMode} (h : s.Registry x) (turned : s.Turned m target s') :
    s'.Registry x := by
  obtain ⟨g, mode, live, face, sort, faces, sets⟩ := turned.face
  refine h.keep (fun name y f openAs => alike_of_turned face sort faces openAs.face)
    (fun y there => ?_) (fun y f mode' face' sort' => ?_) ?_ ?_ ?_ fun u => ?_
  · obtain ⟨f, face'⟩ := Option.isSome_iff_exists.1 there
    obtain ⟨f', face'', -⟩ := alike_of_turned face sort faces face'
    rw [face'']
    rfl
  · rw [faces] at face'
    split at face'
    · rename_i same
      cases face'
      cases sort'
      exact same ▸ h.known m g mode face sort
    · exact h.known y f mode' face' sort'
  · rw [sets, LiveSets.alive_relist]
  · rw [sets, LiveSets.storage_relist]
  · rw [sets, LiveSets.adaptive_relist]
  · rw [sets]
    by_cases own : live = x.live
    · rw [if_pos own]
      exact mem_buffered_own face sort faces h own u
    · rw [if_neg own]
      exact mem_buffered_other face sort faces h own u

theorem modeSteps (h : s.Registry x) (steps : s.ModeSteps s') : s'.Registry x := by
  induction steps with
  | refl => exact h
  | tail _ modeStep ih =>
    cases modeStep with
    | still same => exact ih.still same
    | turned change => exact ih.turned change

end Registry

/-! ## New maps -/

end Store

/-- The live-sets with a new map of this face in all that it belongs to. -/
def LiveSets.enlist (l : LiveSets) (m : MapHandle) (f : Face) : LiveSets where
  storage := (l.storage.insert (f.keeper m)).2
  buffered := if f.sort.buffers then (l.buffered.insert (.map m)).2 else l.buffered
  adaptive := if f.sort.adapts then (l.adaptive.insert m).2 else l.adaptive
  alive := l.alive

namespace LiveSets

variable {l : LiveSets} {m k : MapHandle} {f : Face} {u : MergeUnit}

theorem mem_storage_enlist :
    k ∈ (l.enlist m f).storage.members ↔ k = f.keeper m ∨ k ∈ l.storage.members :=
  LiveSet.mem_insert _ _ _

theorem mem_adaptive_enlist :
    k ∈ (l.enlist m f).adaptive.members ↔
      (f.sort.adapts = true ∧ k = m) ∨ k ∈ l.adaptive.members := by
  unfold enlist
  cases f.sort.adapts with
  | true => simp [LiveSet.mem_insert]
  | false => simp

theorem mem_buffered_enlist :
    u ∈ (l.enlist m f).buffered.members ↔
      (f.sort.buffers = true ∧ u = .map m) ∨ u ∈ l.buffered.members := by
  unfold enlist
  cases f.sort.buffers with
  | true => simp [LiveSet.mem_insert]
  | false => simp

end LiveSets

namespace Store

variable {s s' : Store} {x : Engine} {name : String} {m : MapHandle} {f : Face}
  {live : LiveHandle} {settings : MapSettings} {keyType valueType : DataType}

/-- A new map of this face is there, with what it stands on, and is listed. -/
structure Entered (s : Store) (live : LiveHandle) (m : MapHandle) (f : Face) (s' : Store) :
    Prop where
  face : s'.face? m = some f
  keeper : (s'.face? (f.keeper m)).isSome
  old : ∀ y, (s.face? y).isSome → s'.face? y = s.face? y
  fresh : s.face? m = none
  freshKeeper : s.face? (f.keeper m) = none
  others : ∀ y g mode live, s'.face? y = some g → g.sort = .adaptive mode live →
    s.face? y = some g ∨ y = m
  own : ∀ mode live', f.sort = .adaptive mode live' → live' = live
  sets : s'.liveSets live = (s.liveSets live).enlist m f

theorem face?_next (s : Store) : s.face? s.next = none := by
  simp [face?, next]

theorem face?_afterNext (s : Store) : s.face? s.afterNext = none := by
  simp [face?, afterNext]

namespace Extended

variable {news : List MapState} {sets : LiveSets}

theorem face?_old (e : s.Extended news live sets s') {y : MapHandle} (there : (s.face? y).isSome) :
    s'.face? y = s.face? y := by
  rw [face?, face?, e.old]
  by_contra ge
  have absent : s.maps[y.index]? = none := List.getElem?_eq_none (by omega)
  rw [face?, absent] at there
  cases there

theorem face?_new (e : s.Extended news live sets s') {y : MapHandle} {g : Face}
    (face : s'.face? y = some g) :
    s.face? y = some g ∨
      ∃ i st, news[i]? = some st ∧ y = ⟨s.maps.length + i⟩ ∧ st.face = g := by
  rw [face?, e.maps, List.getElem?_append] at face
  split at face
  · exact .inl face
  · rename_i ge
    obtain ⟨st, there, eq⟩ := Option.map_eq_some_iff.1 face
    obtain ⟨i⟩ := y
    refine .inr ⟨i - s.maps.length, st, there, ?_, eq⟩
    simp only [MapHandle.mk.injEq] at ge ⊢
    omega

/-- A new map on its own. -/
theorem entered_alone {st : MapState} (e : s.Extended [st] live sets s')
    (plain : st.backing? = none) (sort : st.sort.adapts = false)
    (listed : sets = (s.liveSets live).enlist s.next st.face) :
    s.Entered live s.next st.face s' := by
  have keeper : st.face.keeper s.next = s.next := by
    rw [Face.keeper, MapState.face, plain]
    rfl
  have face := face?_of_maps e.first
  refine
    { face := face
      keeper := by rw [keeper, face]; rfl
      old := fun y there => e.face?_old there
      fresh := s.face?_next
      freshKeeper := by rw [keeper]; exact s.face?_next
      others := fun y g mode live' face' sort' => ?_
      own := fun mode live' eq => ?_
      sets := e.own.trans listed }
  · rcases e.face?_new face' with old | ⟨i, st', there, eq, rfl⟩
    · exact .inl old
    · obtain ⟨rfl, rfl⟩ : i = 0 ∧ st = st' := by
        cases i with
        | zero => exact ⟨rfl, Option.some.inj there⟩
        | succ i => cases there
      exact .inr eq
  · rw [show st.sort = _ from eq] at sort
    cases sort

/-- A new map over a new direct map. -/
theorem entered_over {d : DirectMap} {st : MapState}
    (e : s.Extended [.direct d, st] live sets s') (backing : st.backing? = some s.next)
    (own : ∀ mode live', st.sort = .adaptive mode live' → live' = live)
    (listed : sets = (s.liveSets live).enlist s.afterNext st.face) :
    s.Entered live s.afterNext st.face s' := by
  have keeper : st.face.keeper s.afterNext = s.next := by
    rw [Face.keeper, MapState.face, backing]
    rfl
  refine
    { face := face?_of_maps e.second
      keeper := by rw [keeper, face?_of_maps e.first]; rfl
      old := fun y there => e.face?_old there
      fresh := s.face?_afterNext
      freshKeeper := by rw [keeper]; exact s.face?_next
      others := fun y g mode live' face' sort' => ?_
      own := own
      sets := e.own.trans listed }
  rcases e.face?_new face' with old | ⟨i, st', there, eq, rfl⟩
  · exact .inl old
  · rcases i with - | - | i
    · cases there
      cases sort'
    · exact .inr eq
    · cases there

end Extended

/-- However a map of an engine is built, it is there and listed afterwards. -/
theorem Built.entered {kind : MapKind}
    (h : s.Built settings keyType valueType live kind m s') :
    ∃ f, f.name = settings.name ∧ f.id = settings.id ∧ s.Entered live m f s' := by
  cases h with
  | memory grown => exact ⟨_, rfl, rfl, grown.entered_alone rfl rfl rfl⟩
  | direct loaded grown =>
    have loaded := DirectMap.loaded_of_load loaded
    exact ⟨_, loaded.name, loaded.id, grown.entered_alone rfl rfl rfl⟩
  | buffered loaded grown =>
    have loaded := DirectMap.loaded_of_load loaded
    exact ⟨_, loaded.name, loaded.id, grown.entered_over rfl nofun rfl⟩
  | adaptive loaded grown =>
    have loaded := DirectMap.loaded_of_load loaded
    refine ⟨_, loaded.name, loaded.id, grown.entered_over rfl (fun mode live' eq => ?_) rfl⟩
    cases eq
    rfl

namespace Registry

/-- A name that no map is open under may be given an id. -/
theorem assign {ids : MapIds} {id : MapId} (h : s.Registry x) (new : x.maps.get? name = none)
    (ordered : ids.Ordered)
    (gives : ∀ other, ids.get? other = if other = name then some id else x.ids.get? other) :
    s.Registry { x with ids } where
  registered other m named := by
    obtain ⟨f, openAs, sameName, known⟩ := h.registered other m named
    refine ⟨f, openAs, sameName, ?_⟩
    rw [gives, if_neg, known]
    rintro rfl
    rw [new] at named
    cases named
  storage := h.storage
  single := h.single
  adaptive := h.adaptive
  buffered := h.buffered
  isOpen := h.isOpen
  alive := h.alive
  ordered := h.ordered
  ids := ordered
  kept := h.kept
  own := h.own
  known := h.known

section

variable (h : s.Registry x) (new : x.maps.get? f.name = none) (entered : s.Entered x.live m f s')

include h new entered

/-- The open maps are those that were, and the new one. -/
theorem openAs_register {y : String} {k : MapHandle} {g : Face} :
    s'.OpenAs (x.register f.name m).maps y k g ↔
      (y = f.name ∧ k = m ∧ g = f) ∨ s.OpenAs x.maps y k g := by
  have named := EngineHandle.get?_register h.ordered f.name m
  have there : ∀ {g}, s.OpenAs x.maps y k g → s'.face? k = some g := fun openAs =>
    (entered.old _ (by rw [openAs.face]; rfl)).trans openAs.face
  constructor
  · rintro ⟨named', face⟩
    rw [named] at named'
    split at named'
    · cases named'
      rw [entered.face] at face
      exact .inl ⟨‹_›, rfl, (Option.some.inj face).symm⟩
    · obtain ⟨g', openAs, -⟩ := h.registered y k named'
      rw [there openAs] at face
      cases face
      exact .inr openAs
  · rintro (⟨rfl, rfl, rfl⟩ | openAs)
    · exact ⟨by rw [named, if_pos rfl], entered.face⟩
    · refine ⟨?_, there openAs⟩
      rw [named, if_neg, openAs.named]
      rintro rfl
      have named' := openAs.named
      rw [new] at named'
      cases named'

/-- An open map of some sort is the new one, or was there. -/
theorem exists_openAs_register {p : String → MapHandle → Face → Prop} :
    (∃ y k g, s'.OpenAs (x.register f.name m).maps y k g ∧ p y k g) ↔
      p f.name m f ∨ ∃ y k g, s.OpenAs x.maps y k g ∧ p y k g := by
  simp only [h.openAs_register new entered]
  constructor
  · rintro ⟨y, k, g, ⟨rfl, rfl, rfl⟩ | old, holds⟩
    · exact .inl holds
    · exact .inr ⟨y, k, g, old, holds⟩
  · rintro (holds | ⟨y, k, g, old, holds⟩)
    · exact ⟨f.name, m, f, .inl ⟨rfl, rfl, rfl⟩, holds⟩
    · exact ⟨y, k, g, .inr old, holds⟩

/-- What the new map stands on was not there before. -/
theorem single_register {y y' : String} {k k' : MapHandle} {g g' : Face}
    (openAs : s'.OpenAs (x.register f.name m).maps y k g)
    (openAs' : s'.OpenAs (x.register f.name m).maps y' k' g')
    (same : g.keeper k = g'.keeper k') : y = y' := by
  have apart : ∀ {y k g}, s.OpenAs x.maps y k g → g.keeper k ≠ f.keeper m := by
    intro y k g old eq
    have kept := h.kept y k g old
    rw [eq, entered.freshKeeper] at kept
    cases kept
  rw [h.openAs_register new entered] at openAs openAs'
  obtain ⟨rfl, rfl, rfl⟩ | old := openAs
  · obtain ⟨rfl, rfl, rfl⟩ | old' := openAs'
    · rfl
    · exact absurd same.symm (apart old')
  · obtain ⟨rfl, rfl, rfl⟩ | old' := openAs'
    · exact absurd same (apart old)
    · exact h.single y k g y' k' g' old old' same

/-- The live-sets list the new map where its table has it. -/
theorem agrees_register (known : x.ids.get? f.name = some f.id) :
    s'.Agrees (x.register f.name m) where
  registered y k named := by
    obtain ⟨g, openAs⟩ : ∃ g, s'.OpenAs (x.register f.name m).maps y k g := by
      rw [EngineHandle.get?_register h.ordered] at named
      split at named
      · cases named
        exact ⟨f, (h.openAs_register new entered).2 (.inl ⟨‹_›, rfl, rfl⟩)⟩
      · obtain ⟨g, openAs, -⟩ := h.registered y k named
        exact ⟨g, (h.openAs_register new entered).2 (.inr openAs)⟩
    refine ⟨g, openAs, ?_⟩
    obtain ⟨rfl, rfl, rfl⟩ | old := (h.openAs_register new entered).1 openAs
    · exact ⟨rfl, known⟩
    · obtain ⟨g', openAs', rest⟩ := h.registered y k old.named
      have face := old.face.symm.trans openAs'.face
      cases face
      exact rest
  storage k := by
    show k ∈ (s'.liveSets x.live).storage.members ↔ _
    rw [h.exists_openAs_register new entered (p := fun _ k' g => g.keeper k' = k), entered.sets,
      LiveSets.mem_storage_enlist, h.storage, eq_comm]
  single y k g y' k' g' := h.single_register new entered
  adaptive k := by
    show k ∈ (s'.liveSets x.live).adaptive.members ↔ _
    simp only [h.openAs_register new entered]
    rw [entered.sets, LiveSets.mem_adaptive_enlist, h.adaptive]
    constructor
    · rintro (⟨adapts, rfl⟩ | ⟨y, g, old, adapts⟩)
      · exact ⟨_, f, .inl ⟨rfl, rfl, rfl⟩, adapts⟩
      · exact ⟨y, g, .inr old, adapts⟩
    · rintro ⟨y, g, ⟨rfl, rfl, rfl⟩ | old, adapts⟩
      · exact .inl ⟨adapts, rfl⟩
      · exact .inr ⟨y, g, old, adapts⟩
  buffered u := by
    show u ∈ (s'.liveSets x.live).buffered.members ↔ _
    rw [h.exists_openAs_register new entered (p := fun _ k g => g.sort.buffers = true ∧ u = .map k),
      entered.sets, LiveSets.mem_buffered_enlist, h.buffered]

/-- A new map is registered under its name. -/
theorem enter (known : x.ids.get? f.name = some f.id) : s'.Registry (x.register f.name m) where
  toAgrees := h.agrees_register new entered known
  isOpen := h.isOpen
  alive := by
    show (s'.liveSets x.live).alive = true
    rw [entered.sets]
    exact h.alive
  ordered := h.ordered
  ids := h.ids
  kept y k g openAs := by
    obtain ⟨rfl, rfl, rfl⟩ | old := (h.openAs_register new entered).1 openAs
    · exact entered.keeper
    · have kept := h.kept y k g old
      rwa [entered.old _ kept]
  own y k g mode live openAs sort := by
    obtain ⟨rfl, rfl, rfl⟩ | old := (h.openAs_register new entered).1 openAs
    · exact entered.own mode live sort
    · exact h.own y k g mode live old sort
  known k g mode face sort := by
    rcases entered.others k g mode x.live face sort with old | rfl
    · obtain ⟨y, named⟩ := h.known k g mode old sort
      obtain ⟨g', openAs, -⟩ := h.registered y k named
      exact ⟨y, ((h.openAs_register new entered).2 (.inr openAs)).named⟩
    · exact ⟨f.name, ((h.openAs_register new entered).2 (.inl ⟨rfl, rfl, rfl⟩)).named⟩

end

/-- Each map is open under one name. -/
theorem nodup_values (h : s.Registry x) : x.maps.values.Nodup := by
  have lawful : Std.TransCmp x.maps.order := h.ordered ▸ inferInstance
  unfold SortedTable.values
  refine List.pairwise_map.2 ((SortedTable.pairwise_toList x.maps).imp_of_mem ?_)
  rintro ⟨name, m⟩ ⟨name', m'⟩ mem mem' less rfl
  have given := ((SortedTable.mem_toList _).1 mem).2
  have given' := ((SortedTable.mem_toList _).1 mem').2
  -- the map has both names
  obtain ⟨f, openAs, own, -⟩ := h.registered name m given
  obtain ⟨f', openAs', own', -⟩ := h.registered name' m given'
  have face := openAs.face.symm.trans openAs'.face
  cases face
  obtain rfl : name = name' := own.symm.trans own'
  rw [h.ordered] at less
  simp at less

end Registry

/-- Every adaptive map lists itself in live-sets that there are. -/
def Placed (s : Store) : Prop :=
  ∀ m f mode live, s.face? m = some f → f.sort = .adaptive mode live → live.index < s.live.length

/-- An engine with no map open and new live-sets. -/
theorem Registry.new (h : s.Placed) (maps : s'.maps = s.maps)
    (sets : s'.live = s.live ++ [LiveSets.empty]) (live : x.live = ⟨s.live.length⟩)
    (table : x.maps = .empty compare) (isOpen : x.closed = false) (ids : x.ids.Ordered) :
    s'.Registry x := by
  have nothing : ∀ name, x.maps.get? name = none := fun name => by
    rw [table]
    rfl
  have noMap : ∀ {name m f}, ¬ s'.OpenAs x.maps name m f := by
    rintro name m f ⟨named, -⟩
    rw [nothing] at named
    cases named
  have empty : s'.liveSets x.live = LiveSets.empty := by
    rw [liveSets, sets, live]
    simp
  have faces : s'.face? = s.face? := by
    funext m
    rw [face?, face?, maps]
  refine
    { registered := fun name m named => ?_
      storage := fun k => ?_
      single := fun name m f name' m' f' openAs => absurd openAs noMap
      adaptive := fun m => ?_
      buffered := fun u => ?_
      isOpen := isOpen
      alive := by rw [empty]; rfl
      ordered := by rw [table]; rfl
      ids := ids
      kept := fun name m f openAs => absurd openAs noMap
      own := fun name m f mode live openAs => absurd openAs noMap
      known := fun m f mode face sort => ?_ }
  · rw [nothing] at named
    cases named
  · rw [empty]
    refine ⟨fun mem => absurd mem List.not_mem_nil, ?_⟩
    rintro ⟨name, m, f, openAs, -⟩
    exact absurd openAs noMap
  · rw [empty]
    refine ⟨fun mem => absurd mem List.not_mem_nil, ?_⟩
    rintro ⟨name, f, openAs, -⟩
    exact absurd openAs noMap
  · rw [empty]
    refine ⟨fun mem => absurd mem List.not_mem_nil, ?_⟩
    rintro ⟨name, m, f, openAs, -⟩
    exact absurd openAs noMap
  · rw [faces] at face
    have lt := h m f mode x.live face sort
    rw [live] at lt
    exact absurd lt (Nat.lt_irrefl _)

end Store

namespace EngineHandle

variable {e : EngineHandle} {x : Engine} {s s' : Store}

/-! ## Opening the engine -/

/-- Taking the ids from the directory leaves the maps and the engines. -/
theorem recoverIds_leaves {policy : RecoveryPolicy} {dir : Option String} {ids : MapIds}
    (h : recoverIds policy dir s = .ok ids s') :
    ids.Ordered ∧ s'.maps = s.maps ∧ s'.live = s.live ∧ s'.engines = s.engines := by
  cases dir with
  | none =>
    cases h
    exact ⟨MapIds.ordered_empty, rfl, rfl, rfl⟩
  | some directory =>
    obtain ⟨files, -, -, recovered, rfl⟩ := recoverIds_ok h
    exact ⟨(MapIds.recovers_of_recover recovered).ordered, rfl, rfl, rfl⟩

theorem openWith_registry {config : Config} (placed : s.Placed)
    (opened : openWith config s = .ok e s') :
    ∃ x, s'.engines[e.index]? = some x ∧ s'.Registry x := by
  obtain ⟨ids, s₁, recovered, rfl, rfl⟩ := openWith_ok opened
  obtain ⟨ordered, maps, live, engines⟩ := recoverIds_leaves recovered
  refine ⟨_, by simp [booted]; rfl, ?_⟩
  exact .new placed maps (by simp [booted, live]) (by simp [live, fresh]) rfl rfl ordered

end EngineHandle

/-! ## Opening maps -/

/-- A request for a map. -/
structure Opening where
  name : String
  kind : MapKind
  keyType : DataType
  valueType : DataType
  meter : Option MeterHandle
  /-- Whether a map of another type that is there is refused. -/
  typed : Bool

/-- Asks the engine. -/
def Opening.perform (o : Opening) (e : EngineHandle) : Action MapHandle :=
  if o.typed then e.openTyped o.name (.ofKind o.kind o.keyType o.valueType o.meter)
  else e.openMap o.name o.kind o.keyType o.valueType o.meter

/-- All maps that were open still are, under their names. -/
def Engine.Keeps (x x' : Engine) : Prop :=
  ∀ name m, x.maps.get? name = some m → x'.maps.get? name = some m

namespace Opening

variable {e : EngineHandle} {x : Engine} {s : Store}

/-- What comes of a request. -/
theorem opens (engine : s.engines[e.index]? = some x) (isOpen : x.closed = false)
    (alive : (s.liveSets x.live).alive = true) (o : Opening) :
    e.Opens x o.name o.kind o.keyType o.valueType s (o.perform e s) ∨
      ∃ m cause, x.maps.get? o.name = some m ∧ o.perform e s = .error (.error cause) s := by
  unfold perform
  split
  · exact EngineHandle.openTyped_opens engine isOpen alive ..
  · exact .inl (EngineHandle.mapNamed_opens engine isOpen alive ..)

/-- The engine after a request: of what was open nothing is lost, and the map
that was answered is registered, or table and live-sets are as they were. -/
def Leaves (e : EngineHandle) (x : Engine) (name : String) (s : Store) :
    EStateM.Result Fault Store MapHandle → Prop
  | .ok m s' => ∃ x', s'.engines[e.index]? = some x' ∧ s'.Registry x' ∧ x.Keeps x' ∧
      x'.maps.get? name = some m
  | .error _ s' => ∃ x', s'.engines[e.index]? = some x' ∧ s'.Registry x' ∧ x'.maps = x.maps ∧
      s'.live = s.live

theorem leaves (engine : s.engines[e.index]? = some x) (h : s.Registry x) (o : Opening) :
    Leaves e x o.name s (o.perform e s) := by
  obtain opens | ⟨m, cause, there, run⟩ := opens engine h.isOpen h.alive o
  · generalize o.perform e s = r at opens ⊢
    cases opens with
    | invalid bad => exact ⟨x, engine, h, rfl, rfl⟩
    | exhausted valid new none => exact ⟨x, engine, h, rfl, rfl⟩
    | found valid there => exact ⟨x, engine, h, fun _ _ => id, there⟩
    | @unloadable id ids cause valid new given kept broken =>
      obtain ⟨ordered, gives, -⟩ := MapIds.idFor_ok h.ids given
      exact ⟨_, EngineHandle.engine_withEngine _ engine,
        (h.assign new ordered gives).withEngine e _, rfl, rfl⟩
    | @built id ids m s' valid new given built =>
      obtain ⟨ordered, gives, -⟩ := MapIds.idFor_ok h.ids given
      have assigned := (h.assign new ordered gives).withEngine e { x with ids }
      have engine' : s'.engines[e.index]? = some { x with ids } := by
        rw [built.engines]
        exact EngineHandle.engine_withEngine _ engine
      obtain ⟨f, name, known, entered⟩ := built.entered
      have registry : s'.Registry ({ x with ids }.register f.name m) := by
        refine assigned.enter (by rw [name]; exact new) entered ?_
        rw [name, known]
        exact (gives o.name).trans (if_pos rfl)
      have name : f.name = o.name := name
      have named := fun other => EngineHandle.get?_register assigned.ordered o.name m other
      rw [name] at registry
      refine ⟨_, EngineHandle.engine_withEngine _ engine', registry.withEngine e _,
        fun other k there => ?_, ?_⟩
      · rw [named, if_neg, there]
        rintro rfl
        rw [new] at there
        cases there
      · rw [named, if_pos rfl]
  · rw [run]
    exact ⟨x, engine, h, rfl, rfl⟩

end Opening

/-! ## Runs -/

namespace EngineHandle

variable {e : EngineHandle} {x : Engine} {s s' : Store}

/-- Something happens that the engine and its maps have no part in: on the
disk, to meters, to other engines and their maps, by new maps. -/
structure Elsewhere (e : EngineHandle) (s s' : Store) : Prop where
  engine : s'.engines[e.index]? = s.engines[e.index]?
  sets : ∀ x, s.engines[e.index]? = some x → s'.liveSets x.live = s.liveSets x.live
  faces : ∀ x name m, s.engines[e.index]? = some x → x.maps.get? name = some m →
    s'.face? m = s.face? m
  there : ∀ m, (s.face? m).isSome → (s'.face? m).isSome
  own : ∀ x m f mode, s.engines[e.index]? = some x → s'.face? m = some f →
    f.sort = .adaptive mode x.live → ∃ name, x.maps.get? name = some m

theorem Elsewhere.registry (other : e.Elsewhere s s') (engine : s.engines[e.index]? = some x)
    (h : s.Registry x) : s'.Registry x := by
  have faces : ∀ {name m}, x.maps.get? name = some m → s'.face? m = s.face? m := fun named =>
    other.faces x _ _ engine named
  refine h.keep (fun name m f openAs => ⟨f, (faces openAs.named).trans openAs.face, .refl f⟩)
    other.there (fun m f mode => other.own x m f mode engine) ?_ ?_ ?_ fun u => ?_
  · rw [other.sets x engine]
  · rw [other.sets x engine]
  · rw [other.sets x engine]
  · rw [other.sets x engine, h.buffered]
    constructor <;> rintro ⟨name, m, f, ⟨named, face⟩, rest⟩
    · exact ⟨name, m, f, ⟨named, (faces named).trans face⟩, rest⟩
    · exact ⟨name, m, f, ⟨named, (faces named).symm.trans face⟩, rest⟩

/-- A run of an open engine: requests for maps, calls, closes and upkeep of
any maps, ticks and commits, each whatever comes of it, and what happens
elsewhere. -/
inductive Run (e : EngineHandle) (s : Store) : Store → Prop
  | start : Run e s s
  | opened {s₁ : Store} (before : Run e s s₁) (o : Opening) : Run e s ((o.perform e).after s₁)
  | called {s₁ : Store} (before : Run e s s₁) (c : Call) (m : MapHandle) :
      Run e s ((c.perform m).after s₁)
  | closed {s₁ : Store} (before : Run e s s₁) (m : MapHandle) : Run e s (m.close.after s₁)
  | upkept {s₁ : Store} (before : Run e s s₁) (u : Upkeep) (m : MapHandle) :
      Run e s ((u.perform m).after s₁)
  | ticked {s₁ : Store} (before : Run e s s₁) : Run e s (e.tick.after s₁)
  | committed {s₁ : Store} (before : Run e s s₁) : Run e s (e.commit.after s₁)
  | elsewhere {s₁ s₂ : Store} (before : Run e s s₁) (other : e.Elsewhere s₁ s₂) : Run e s s₂

end EngineHandle

/-- Upkeep, whatever comes of it. -/
theorem Upkeep.modeSteps (u : Upkeep) (m : MapHandle) (s : Store) :
    s.ModeSteps ((u.perform m).after s) := by
  have whole : ∀ {α : Type} (a : Action α), s.ModeSteps (a.after s) →
      s.ModeSteps ((do let _ ← a : Action Unit).after s) := fun a steps =>
    Action.after_bind (R := Store.ModeSteps) .trans steps fun _ _ _ => .refl
  cases u with
  | save => exact (Store.UnbufferSteps.save m s).modeSteps
  | merge => exact whole _ (Store.UnbufferSteps.merge m s).modeSteps
  | switchToBuffered => exact whole _ (.switchTo m .buffered s)
  | switchToDirect => exact whole _ (.switchTo m .direct s)
  | tick live policy => exact whole _ (.tick live policy s)

namespace EngineHandle.Run

open Store

variable {e : EngineHandle} {x : Engine} {s s' : Store}

/-- What an engine does with its maps. -/
theorem modeSteps_tick (e : EngineHandle) (s : Store) : s.ModeSteps (e.tick.after s) := by
  obtain ⟨x, asked⟩ := state_answers e s
  rw [Action.after, run_tick asked]
  exact .tick x.live _ s

theorem unbufferSteps_commit (e : EngineHandle) (s : Store) : s.UnbufferSteps (e.commit.after s) :=
  after_commit (R := UnbufferSteps) (fun _ => .refl) .trans .save e s

/-- Table and live-sets agree all along, and nothing that was open is lost. -/
theorem registry (run : Run e s s') (engine : s.engines[e.index]? = some x) (h : s.Registry x) :
    ∃ x', s'.engines[e.index]? = some x' ∧ s'.Registry x' ∧ x.Keeps x' := by
  -- steps of the maps leave the table
  have moved : ∀ {s₁ s₂ : Store},
      (∃ x', s₁.engines[e.index]? = some x' ∧ s₁.Registry x' ∧ x.Keeps x') →
      (∀ x', s₁.engines[e.index]? = some x' → s₁.ModeSteps s₂) →
      ∃ x', s₂.engines[e.index]? = some x' ∧ s₂.Registry x' ∧ x.Keeps x' := by
    rintro s₁ s₂ ⟨x', engine', registry, keeps⟩ steps
    have steps := steps x' engine'
    exact ⟨x', by rw [steps.engines, engine'], registry.modeSteps steps, keeps⟩
  induction run with
  | start => exact ⟨x, engine, h, fun _ _ => id⟩
  | called before c m ih => exact moved ih fun _ _ => (UnbufferSteps.call c m _).modeSteps
  | closed before m ih => exact moved ih fun _ _ => (UnbufferSteps.close m _).modeSteps
  | upkept before u m ih => exact moved ih fun _ _ => u.modeSteps m _
  | ticked before ih => exact moved ih fun _ _ => modeSteps_tick e _
  | committed before ih => exact moved ih fun _ _ => (unbufferSteps_commit e _).modeSteps
  | elsewhere before other ih =>
    obtain ⟨x', engine', registry, keeps⟩ := ih
    exact ⟨x', other.engine.trans engine', other.registry engine' registry, keeps⟩
  | @opened s₁ before o ih =>
    obtain ⟨x', engine', registry, keeps⟩ := ih
    have leaves := o.leaves engine' registry
    obtain ⟨m, run⟩ | ⟨fault, run⟩ := Action.ends (o.perform e) s₁
    · rw [run] at leaves
      obtain ⟨x'', engine'', registry'', keeps', -⟩ := leaves
      exact ⟨x'', engine'', registry'', fun name m named => keeps' name m (keeps name m named)⟩
    · rw [run] at leaves
      obtain ⟨x'', engine'', registry'', maps, -⟩ := leaves
      exact ⟨x'', engine'', registry'', fun name m named => maps ▸ keeps name m named⟩

/-- A map that the table has answers with its name and the id of the name. -/
theorem identity_of_registered {name : String} {m : MapHandle} (h : s.Registry x)
    (engine : s.engines[e.index]? = some x) (named : x.maps.get? name = some m) :
    ∃ id, m.identity s = .ok (name, id) s ∧ e.mapId name s = .ok (some id) s := by
  obtain ⟨f, ⟨-, face⟩, sameName, known⟩ := h.registered name m named
  obtain ⟨st, state, rfl⟩ := Option.map_eq_some_iff.1 face
  refine ⟨st.id, ?_, ?_⟩
  · rw [MapHandle.run_identity state, ← sameName]
    rfl
  · simp [mapId, run_state engine, known, MapState.face]

/-- In every state of an open engine its table of open maps and its live-sets
agree, without duplicates. A request that succeeds answers the map that every
later request for the name answers, with the id of the name; a request that
fails changes neither the table nor the live-sets. -/
theorem table_and_sets_agree {config : Config} {s₀ s₁ : Store} (placed : s₀.Placed)
    (start : openWith config s₀ = .ok e s₁) (run : Run e s₁ s) :
    ∃ x, s.engines[e.index]? = some x ∧ s.Agrees x ∧
      (s.liveSets x.live).storage.members.Nodup ∧
      (s.liveSets x.live).buffered.members.Nodup ∧
      (s.liveSets x.live).adaptive.members.Nodup ∧
      ∀ o : Opening,
        (∀ m s', o.perform e s = .ok m s' →
          (∃ id, m.identity s' = .ok (o.name, id) s' ∧ e.mapId o.name s' = .ok (some id) s') ∧
          ∀ s'', Run e s' s'' → ∀ o' : Opening, o'.name = o.name →
            ∀ m' s₃, o'.perform e s'' = .ok m' s₃ → m' = m) ∧
        ∀ fault s', o.perform e s = .error fault s' →
          ∃ x', s'.engines[e.index]? = some x' ∧ x'.maps = x.maps ∧ s'.live = s.live := by
  obtain ⟨x₁, engine₁, registry₁⟩ := openWith_registry placed start
  obtain ⟨x, engine, registry, -⟩ := run.registry engine₁ registry₁
  refine ⟨x, engine, registry.toAgrees, LiveSet.nodup _, LiveSet.nodup _, LiveSet.nodup _,
    fun o => ⟨fun m s' answered => ?_, fun fault s' refused => ?_⟩⟩
  · have leaves := o.leaves engine registry
    rw [answered] at leaves
    obtain ⟨x', engine', registry', -, named⟩ := leaves
    refine ⟨identity_of_registered registry' engine' named, ?_⟩
    intro s'' later o' same m' s₃ answered'
    obtain ⟨x'', engine'', registry'', keeps⟩ := later.registry engine' registry'
    have leaves' := o'.leaves engine'' registry''
    rw [answered'] at leaves'
    obtain ⟨x₃, -, -, keeps', named'⟩ := leaves'
    have still := keeps' o.name m (keeps o.name m named)
    rw [same, still] at named'
    exact (Option.some.inj named').symm
  · have leaves := o.leaves engine registry
    rw [refused] at leaves
    obtain ⟨x', engine', -, maps, live⟩ := leaves
    exact ⟨x', engine', maps, live⟩

/-- An engine in memory that opened an adaptive map, which then entered
buffered mode. -/
def desk : Store :=
  (Upkeep.switchToBuffered.perform ⟨1⟩).after
    ((Opening.perform ⟨"a", .adaptive, .bytes, .bytes, none, false⟩ ⟨0⟩).after
      ((openWith .default).after (.onDisk .empty)))

/-- The buffer is listed, beside the map and what it stands on. -/
theorem desk_table_and_sets_agree :
    ∃ x, desk.engines[0]? = some x ∧ desk.Agrees x ∧ x.maps.get? "a" = some ⟨1⟩ ∧
      (desk.liveSets x.live).storage.members = [⟨0⟩] ∧
      (desk.liveSets x.live).buffered.members = [.map ⟨1⟩] ∧
      (desk.liveSets x.live).adaptive.members = [⟨1⟩] := by
  have placed : (Store.onDisk .empty).Placed := nofun
  have start : openWith .default (.onDisk .empty) =
      .ok ⟨0⟩ ((openWith .default).after (.onDisk .empty)) := rfl
  have run : Run ⟨0⟩ ((openWith .default).after (.onDisk .empty)) desk :=
    .upkept (.opened .start _) .switchToBuffered ⟨1⟩
  obtain ⟨x, engine, agrees, -⟩ := table_and_sets_agree placed start run
  have lists : (desk.engines[0]?).map (fun x =>
      (x.maps.get? "a", (desk.liveSets x.live).storage.members,
        (desk.liveSets x.live).buffered.members, (desk.liveSets x.live).adaptive.members)) =
      some (some ⟨1⟩, [⟨0⟩], [.map ⟨1⟩], [⟨1⟩]) := by
    decide +kernel
  have engine : desk.engines[0]? = some x := engine
  rw [engine] at lists
  simp only [Option.map_some, Option.some.injEq, Prod.mk.injEq] at lists
  exact ⟨x, engine, agrees, lists⟩

end EngineHandle.Run

end MapStore
