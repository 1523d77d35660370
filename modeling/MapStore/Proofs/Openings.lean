/-
MapStore.Proofs.Openings — an engine on a directory opens maps.

Whatever comes of a request for a map, the maps of the engine and its directory
are as they should be afterwards (`Furnished`): a new name has an id, the maps
that are made for it start with what the artifact of that name and id holds,
and the one on top is named. The disk and the maps that were there are as they
were, and the new ones have nothing to save (`Extends`).
-/
import MapStore.Proofs.EngineMaps
import MapStore.Proofs.Registering

namespace MapStore

open Artifact (fileName isValidName)

variable {dir name : String} {here : Place} {ids ids' : MapIds} {id : MapId}

/-! ## Ids -/

/-- The name, if it had an id, has it still. -/
theorem MapIds.get?_given {other : String} {id' : MapId}
    (gives : ∀ other, ids'.get? other = if other = name then some id else ids.get? other)
    (before : ids.get? name = none ∨ ids.get? name = some id) (had : ids.get? other = some id') :
    ids'.get? other = some id' := by
  rw [gives]
  split
  · rename_i same
    rw [same] at had
    rcases before with none | some
    · rw [none] at had
      cases had
    · rw [← some, had]
  · exact had

/-- The directory is as well described by the ids once another is given. -/
theorem Shelved.given {disk : Disk} (h : Shelved disk dir here ids)
    (gives : ∀ other, ids'.get? other = if other = name then some id else ids.get? other)
    (before : ids.get? name = none ∨ ids.get? name = some id) : Shelved disk dir here ids' := by
  refine ⟨h.houses, h.kept, fun other id' valid there => ?_⟩
  obtain ⟨last, had, le, present⟩ := h.latest other id' valid there
  exact ⟨last, MapIds.get?_given gives before had, le, present⟩

theorem Store.Furnished.given {s : Store} {live : LiveHandle}
    {named : String → Option MapHandle} (h : s.Furnished live named dir here ids)
    (gives : ∀ other, ids'.get? other = if other = name then some id else ids.get? other)
    (before : ids.get? name = none ∨ ids.get? name = some id) :
    s.Furnished live named dir here ids' where
  kept :=
    { layout := h.kept.layout
      filed :=
        { named := fun m x role => by
            obtain ⟨valid, path, had⟩ := h.kept.filed.named m x role
            exact ⟨valid, path, MapIds.get?_given gives before had⟩
          unique := h.kept.filed.unique }
      shelved := h.kept.shelved.given gives before
      held := h.kept.held }
  roster := h.roster
  listed := h.listed
  opened := h.opened

/-! ## Maps just opened -/

namespace DirectMap.Loaded

variable {settings : MapSettings} {keyType valueType : DataType} {disk : Disk} {d : DirectMap}

theorem order (h : d.Loaded settings keyType valueType disk) :
    d.table.order = d.keyType.compare := by
  obtain ⟨entries, -, table⟩ := h.stored
  rw [table, SortedTable.order_ofList]

/-- What is loaded depends on the directory alone. -/
theorem storedEntries_settingsIn (h : settings.storageDir = some dir) (disk : Disk) :
    storedEntries settings disk =
      storedEntries (settingsIn settings.name settings.id dir) disk := by
  simp only [storedEntries, MapSettings.artifactPath, h, settingsIn]
  rfl

theorem held (h : d.Loaded settings keyType valueType disk)
    (kept : settings.storageDir = some dir) : d.Held dir disk := by
  intro _
  obtain ⟨entries, stored, table⟩ := h.stored
  refine ⟨entries, ?_, by rw [table]⟩
  rw [h.name, h.id, ← storedEntries_settingsIn kept, stored]

end DirectMap.Loaded

namespace Store

variable {s s' s'' : Store} {m b : MapHandle} {st : MapState} {live : LiveHandle}
  {named : String → Option MapHandle}

/-! ## Maps that are added -/

/-- The disk and the maps are as they were, but for new maps that have nothing
to save. -/
structure Extends (s s' : Store) : Prop where
  disk : s'.disk = s.disk
  old : ∀ (m : MapHandle) (st : MapState), s.maps[m.index]? = some st →
    s'.maps[m.index]? = some st
  new : ∀ (m : MapHandle) (st : MapState), s'.maps[m.index]? = some st →
    s.maps[m.index]? = some st ∨ (∀ d, st = .direct d → d.dirty = false) ∧
      ∀ w, st.buffer? = some w → w.snapshot = []

namespace Extends

theorem of_maps (maps : s'.maps = s.maps) (disk : s'.disk = s.disk) : s.Extends s' where
  disk := disk
  old _ _ h := maps ▸ h
  new _ _ h := .inl (maps ▸ h)

theorem refl (s : Store) : s.Extends s := .of_maps rfl rfl

theorem trans (h : s.Extends s') (h' : s'.Extends s'') : s.Extends s'' where
  disk := h'.disk.trans h.disk
  old m st state := h'.old m st (h.old m st state)
  new m st state := by
    rcases h'.new m st state with before | clean
    · exact h.new m st before
    · exact .inr clean

end Extends

variable {settings : MapSettings} {keyType valueType : DataType} {d : DirectMap}

/-- One map is made for the settings: the first of their name, or one over the
direct map that has the name so far. The name goes to the new map. -/
inductive Adds (settings : MapSettings) (keyType valueType : DataType) (live : LiveHandle)
    (s : Store) (named : String → Option MapHandle) (s' : Store) :
    (String → Option MapHandle) → Prop
  | memory (free : named settings.name = none)
      (makes : s.Makes (.memory (.empty settings.name settings.id keyType valueType)) live s') :
      Adds settings keyType valueType live s named s'
        (Function.update named settings.name (some s.next))
  | direct {d : DirectMap} (free : named settings.name = none)
      (makes : s.Makes (.direct d) live s') (loaded : d.Loaded settings keyType valueType s.disk)
      (listed : s.next ∈ (s'.liveSets live).storage.members) :
      Adds settings keyType valueType live s named s'
        (Function.update named settings.name (some s.next))
  | layered {st : MapState} {d : DirectMap} {b : MapHandle} (given : named settings.name = some b)
      (makes : s.Makes st live s') (above : st.role = .over ⟨d.name, d.id, b, keyType, valueType⟩)
      (base : s.maps[b.index]? = some (.direct d))
      (loaded : d.Loaded settings keyType valueType s.disk) (isOpen : st.isOpen = true)
      (empty : ∀ w, st.buffer? = some w → w = .empty keyType.compare)
      (waiting : ∀ w, st.buffer? = some w → .map s.next ∈ (s'.liveSets live).buffered.members)
      (own : ∀ sets, st.live? = some sets → sets = live) :
      Adds settings keyType valueType live s named s'
        (Function.update named settings.name (some s.next))

namespace Adds

variable {named' : String → Option MapHandle}

/-- The new map has nothing to save. -/
theorem grows (h : Adds settings keyType valueType live s named s' named') : s.Extends s' := by
  have grows : ∀ {st}, s.Makes st live s' → (∀ d, st = .direct d → d.dirty = false) →
      (∀ w, st.buffer? = some w → w.snapshot = []) → s.Extends s' := by
    intro st makes clean empty
    refine ⟨makes.disk, fun _ _ state => makes.at?_old state, fun m st' state => ?_⟩
    rw [makes.at?] at state
    split at state
    · cases state
      exact .inr ⟨clean, empty⟩
    · exact .inl state
  cases h with
  | memory free makes => exact grows makes nofun nofun
  | direct free makes loaded listed =>
    refine grows makes (fun d' eq => ?_) nofun
    cases eq
    exact loaded.clean
  | layered given makes above base loaded isOpen empty waiting own =>
    refine grows makes (fun d' eq => ?_) fun w eq => ?_
    · rw [eq] at above
      cases above
    · rw [empty w eq]
      exact WriteBuffer.snapshot_empty _

/-- The new map has its place among the others, and its name. -/
theorem laid (h : Adds settings keyType valueType live s named s' named')
    (lawful : Std.TransCmp keyType.compare) (layout : s.Layout) (roster : s.Roster named) :
    s'.Layout ∧ s'.Roster named' := by
  cases h with
  | memory free makes => exact ⟨makes.layout_memory layout, makes.roster roster free (.inl rfl)⟩
  | @direct d free makes loaded listed =>
    exact ⟨makes.layout_direct layout loaded.order (loaded.keyType ▸ lawful),
      makes.roster roster free (.inr ⟨d.toBase, rfl, loaded.name⟩)⟩
  | layered given makes above base loaded isOpen empty waiting own =>
    have top := roster.top layout given
    rw [← loaded.name] at given ⊢
    exact ⟨makes.layout_over layout above base rfl rfl loaded.keyType.symm loaded.valueType.symm
      top empty, makes.roster_over roster above (role?_of_maps base) given⟩

/-- In the directory of the engine the maps are as they should be, with the new
one named, if the id is that of the name. -/
theorem furnished (h : Adds settings keyType valueType live s named s' named')
    (kept : settings.storageDir = some dir) (valid : isValidName settings.name = true)
    (known : ids.get? settings.name = some settings.id) (lawful : Std.TransCmp keyType.compare)
    (furnished : s.Furnished live named dir here ids) :
    s'.Furnished live named' dir here ids := by
  cases h with
  | memory free makes => exact makes.furnished_memory furnished free rfl
  | @direct d free makes loaded listed =>
    have path : d.path = some (Disk.join dir (fileName d.name d.id)) := by
      simp [loaded.path, MapSettings.artifactPath, kept, loaded.name, loaded.id]
    rw [← loaded.name] at free valid known ⊢
    rw [← loaded.id] at known
    exact makes.furnished_direct furnished free loaded.isOpen valid path known loaded.order
      (loaded.keyType ▸ lawful) (loaded.held kept) listed
  | layered given makes above base loaded isOpen empty waiting own =>
    rw [← loaded.name] at given ⊢
    exact makes.furnished_over furnished above base rfl rfl loaded.keyType.symm
      loaded.valueType.symm given isOpen empty waiting own

end Adds

/-! ## Building -/

theorem StillLists.of_sets {l : LiveSets} (own : s'.liveSets live = l)
    (alive : l.alive = (s.liveSets live).alive)
    (storage : ∀ m ∈ (s.liveSets live).storage.members, m ∈ l.storage.members)
    (buffered : ∀ u ∈ (s.liveSets live).buffered.members, u ∈ l.buffered.members) :
    s.StillLists s' live := by
  subst own
  exact ⟨fun h => alive.trans h, storage, buffered⟩

namespace Rests

variable {waiting : Option WriteBuffer}

/-- The map has the name and the id of the one that keeps its entries. -/
theorem identity (h : s.Rests m b d waiting) (layout : s.Layout) :
    m.identity s = .ok (d.name, d.id) s := by
  obtain ⟨rfl, -⟩ | ⟨st, front, state, above, rfl, -⟩ := h.top
  · exact MapHandle.run_identity h.base
  · obtain ⟨-, x, role, name, id, -⟩ :=
      layout.below m front (by rw [role?_of_maps state, above])
    rw [h.role] at role
    cases role
    have names : st.name = front.name ∧ st.id = front.id := by
      obtain ⟨x, rfl, rfl⟩ | ⟨a, rfl, rfl⟩ := MapState.cases_of_role above <;> exact ⟨rfl, rfl⟩
    rw [MapHandle.run_identity state, names.1, names.2, name, id]
    rfl

end Rests

/-- What each new map leaves, two made together leave: a direct map and one over
it. -/
theorem Extended.adds_over {P : Store → (String → Option MapHandle) → Prop} {sets : LiveSets}
    (e : s.Extended [.direct d, st] live sets s') (free : named settings.name = none)
    (loaded : d.Loaded settings keyType valueType s.disk)
    (above : st.role = .over ⟨d.name, d.id, s.next, keyType, valueType⟩)
    (isOpen : st.isOpen = true) (empty : ∀ w, st.buffer? = some w → w = .empty keyType.compare)
    (own : ∀ sets, st.live? = some sets → sets = live) (lists : s.StillLists s' live)
    (listed : s.next ∈ (s'.liveSets live).storage.members)
    (waiting : ∀ w, st.buffer? = some w → .map s.afterNext ∈ (s'.liveSets live).buffered.members)
    (start : P s named) (step : ∀ {s₁ named₁ s₂ named₂},
      Adds settings keyType valueType live s₁ named₁ s₂ named₂ → P s₁ named₁ → P s₂ named₂) :
    P s' (Function.update named settings.name (some s.afterNext)) := by
  -- the store between the two maps, with the live-sets that there will be
  obtain ⟨s₁, between⟩ : ∃ s₁, s₁ = { s' with maps := s.maps ++ [MapState.direct d] } := ⟨_, rfl⟩
  have maps₁ : s₁.maps = s.maps ++ [.direct d] := by rw [between]
  have sets₁ : s₁.liveSets live = s'.liveSets live := by rw [between]; rfl
  have disk₁ : s₁.disk = s.disk := by rw [between, ← e.disk]
  have first : s.Makes (.direct d) live s₁ :=
    ⟨⟨sets₁ ▸ lists.alive, sets₁ ▸ lists.storage, sets₁ ▸ lists.buffered⟩, maps₁, disk₁⟩
  have second : s₁.Makes st live s' := by
    refine ⟨⟨?_, ?_, ?_⟩, by rw [maps₁, e.maps]; simp, by rw [disk₁, e.disk]⟩ <;> rw [sets₁]
    · exact id
    · exact fun _ mem => mem
    · exact fun _ mem => mem
  have next₁ : s₁.next = s.afterNext := by simp [next, afterNext, maps₁]
  have named₁ := step (.direct free first loaded (sets₁ ▸ listed)) start
  have named₂ := step (.layered (Function.update_self ..) second above first.at?_next
    (disk₁ ▸ loaded) isOpen empty (fun w eq => next₁ ▸ waiting w eq) own) named₁
  rwa [Function.update_idem, next₁] at named₂

/-- However a map is built, what each new map leaves is left. -/
theorem Built.adds {P : Store → (String → Option MapHandle) → Prop} {kind : MapKind}
    (h : s.Built settings keyType valueType live kind m s') (free : named settings.name = none)
    (start : P s named) (step : ∀ {s₁ named₁ s₂ named₂},
      Adds settings keyType valueType live s₁ named₁ s₂ named₂ → P s₁ named₁ → P s₂ named₂) :
    P s' (Function.update named settings.name (some m)) := by
  have more : ∀ {k : MapHandle}, ∀ x ∈ (s.liveSets live).storage.members,
      x ∈ ((s.liveSets live).withStorage k).storage.members := fun x mem =>
    (LiveSet.mem_insert _ _ _).2 (.inr mem)
  have self : ∀ {k : MapHandle}, k ∈ ((s.liveSets live).withStorage k).storage.members :=
    (LiveSet.mem_insert _ _ _).2 (.inl rfl)
  cases h with
  | memory grown =>
    have lists : s.StillLists s' live := .of_sets grown.own rfl more fun _ mem => mem
    exact step (.memory free ⟨lists, grown.maps, grown.disk⟩) start
  | direct loaded grown =>
    have lists : s.StillLists s' live := .of_sets grown.own rfl more fun _ mem => mem
    exact step (.direct free ⟨lists, grown.maps, grown.disk⟩ (DirectMap.loaded_of_load loaded)
      (by rw [grown.own]; exact self)) start
  | buffered loaded grown =>
    have loaded := DirectMap.loaded_of_load loaded
    have lists : s.StillLists s' live := .of_sets grown.own rfl more fun _ mem =>
      (LiveSet.mem_insert _ _ _).2 (.inr mem)
    refine grown.adds_over free loaded rfl rfl (fun w eq => (Option.some.inj eq).symm) nofun lists
      (by rw [grown.own]; exact self) (fun w _ => ?_) start step
    rw [grown.own]
    exact (LiveSet.mem_insert _ _ _).2 (.inl rfl)
  | adaptive loaded grown =>
    have loaded := DirectMap.loaded_of_load loaded
    have lists : s.StillLists s' live := .of_sets grown.own rfl more fun _ mem => mem
    exact grown.adds_over free loaded rfl rfl nofun (fun sets eq => (Option.some.inj eq).symm) lists
      (by rw [grown.own]; exact self) nofun start step

/-- The maps and the disk are as they were, but for the new maps. -/
theorem Built.grows {kind : MapKind} (h : s.Built settings keyType valueType live kind m s') :
    s.Extends s' := by
  obtain ⟨named, free⟩ : ∃ named : String → Option MapHandle, named settings.name = none :=
    ⟨fun _ => none, rfl⟩
  exact h.adds (P := fun s' _ => s.Extends s') free (.refl s) fun adds before =>
    before.trans adds.grows

/-- A buffer without slots changes nothing. -/
theorem over_empty {table : SortedTable Bytes Bytes} (order : table.order = keyType.compare)
    (lawful : Std.TransCmp keyType.compare) :
    (WriteBuffer.empty keyType.compare).over table.toList = table.toList := by
  have lawful' : Std.TransCmp table.order := order ▸ lawful
  have same : (WriteBuffer.empty keyType.compare).slots.order = table.order := order.symm
  rw [WriteBuffer.over_toList _ table same,
    WriteBuffer.overTable_of_snapshot_nil (WriteBuffer.snapshot_empty _)]

/-- A map that was just built shows what its artifact holds, of whatever kind
it is. -/
theorem Built.shows {kind : MapKind} {entries : List (Bytes × Bytes)}
    (h : s.Built settings keyType valueType live kind m s') (lasting : kind ≠ .inMemory)
    (lawful : Std.TransCmp keyType.compare)
    (stored : DirectMap.storedEntries settings s.disk = .ok entries) (maps : s''.maps = s'.maps) :
    m.entries s'' = .ok (SortedTable.ofList keyType.compare entries).toList s'' ∧
      m.identity s'' = .ok (settings.name, settings.id) s'' := by
  have below : s.next.index < s.afterNext.index := Nat.lt_succ_self _
  -- what the direct map shows
  have base : ∀ {d : DirectMap}, d.Loaded settings keyType valueType s.disk →
      s'.maps[s.next.index]? = some (.direct d) →
      s.next.entries s'' = .ok (SortedTable.ofList keyType.compare entries).toList s'' := by
    intro d loaded state
    obtain ⟨entries', stored', table⟩ := loaded.stored
    rw [stored] at stored'
    cases stored'
    rw [MapHandle.entries_open (maps ▸ state) loaded.isOpen, table, loaded.keyType]
  cases h with
  | memory grown => exact absurd rfl lasting
  | direct loaded grown =>
    have loaded := DirectMap.loaded_of_load loaded
    refine ⟨base loaded grown.first, ?_⟩
    rw [MapHandle.run_identity (maps ▸ grown.first), ← loaded.name, ← loaded.id]
    rfl
  | buffered loaded grown =>
    have loaded := DirectMap.loaded_of_load loaded
    have nothing := over_empty (SortedTable.order_ofList keyType.compare entries) lawful
    refine ⟨?_, ?_⟩
    · rw [MapHandle.entries_buffered (maps ▸ grown.second) rfl below]
      simp [base loaded grown.first, nothing]
    · rw [MapHandle.run_identity (maps ▸ grown.second), ← loaded.name, ← loaded.id]
      rfl
  | adaptive loaded grown =>
    have loaded := DirectMap.loaded_of_load loaded
    refine ⟨?_, ?_⟩
    · rw [MapHandle.entries_adaptive (maps ▸ grown.second) below]
      simp [base loaded grown.first]
    · rw [MapHandle.run_identity (maps ▸ grown.second), ← loaded.name, ← loaded.id]
      rfl

end Store

/-! ## Requests -/

/-- An open engine on a directory. -/
structure Store.Serves (s : Store) (e : EngineHandle) (x : Engine) (dir : String) : Prop where
  engine : s.engines[e.index]? = some x
  isOpen : x.closed = false
  alive : (s.liveSets x.live).alive = true
  directory : x.config.storageDir = some dir
  ordered : x.maps.order = compare
  ids : x.ids.Ordered

/-- An open engine on a directory, with all maps there are and the directory as
they should be. -/
structure Store.Housed (s : Store) (e : EngineHandle) (x : Engine) (dir : String) (here : Place) :
    Prop extends Serves s e x dir where
  furnished : s.Furnished x.live x.maps.get? dir here x.ids

namespace Store

variable {e : EngineHandle} {x x' : Engine} {s s' : Store} {m : MapHandle} {kind : MapKind}
  {keyType valueType : DataType}

/-- The live-sets, the maps and the disk are all that counts. -/
theorem Furnished.congr {live : LiveHandle} {named : String → Option MapHandle}
    (h : s.Furnished live named dir here ids) (maps : s'.maps = s.maps) (sets : s'.live = s.live)
    (disk : s'.disk = s.disk) : s'.Furnished live named dir here ids := by
  have roles := role?_congr maps
  refine
    { kept := h.kept.of_maps maps disk
      roster := h.roster.congr roles
      listed := h.listed.congr maps sets
      opened := ?_ }
  rw [roles]
  unfold OpenAt
  rw [maps]
  exact h.opened

/-- Building leaves the disk and the engines, and the live-sets live on. -/
theorem Built.leaves {settings : MapSettings} {live : LiveHandle}
    (h : s.Built settings keyType valueType live kind m s') :
    s'.disk = s.disk ∧ s'.engines = s.engines ∧
      (s'.liveSets live).alive = (s.liveSets live).alive := by
  cases h with
  | memory grown => exact ⟨grown.disk, grown.engines, by rw [grown.own]; rfl⟩
  | direct _ grown => exact ⟨grown.disk, grown.engines, by rw [grown.own]; rfl⟩
  | buffered _ grown => exact ⟨grown.disk, grown.engines, by rw [grown.own]; rfl⟩
  | adaptive _ grown => exact ⟨grown.disk, grown.engines, by rw [grown.own]; rfl⟩

/-- A name is given an id. -/
theorem Serves.assign (h : s.Serves e x dir) (given : x.ids.idFor name = .ok (id, ids)) :
    (s.withEngine e { x with ids }).Serves e { x with ids } dir :=
  ⟨EngineHandle.engine_withEngine _ h.engine, h.isOpen, h.alive, h.directory, h.ordered,
    (MapIds.idFor_ok h.ids given).1⟩

/-- A map is built and registered. -/
theorem Serves.built {settings : MapSettings} (h : s.Serves e x dir)
    (built : s.Built settings keyType valueType x.live kind m s') :
    (s'.withEngine e (x.register name m)).Serves e (x.register name m) dir := by
  obtain ⟨-, engines, alive⟩ := built.leaves
  exact ⟨EngineHandle.engine_withEngine _ (engines ▸ h.engine), h.isOpen, alive.trans h.alive,
    h.directory, h.ordered, h.ids⟩

namespace Housed

theorem assign (h : s.Housed e x dir here) (given : x.ids.idFor name = .ok (id, ids)) :
    (s.withEngine e { x with ids }).Housed e { x with ids } dir here := by
  obtain ⟨-, gives, before⟩ := MapIds.idFor_ok h.ids given
  exact ⟨h.toServes.assign given, (h.furnished.given gives before).congr rfl rfl rfl⟩

theorem built (h : s.Housed e x dir here) (valid : isValidName name = true)
    (new : x.maps.get? name = none) (known : x.ids.get? name = some id)
    (lawful : Std.TransCmp keyType.compare)
    (built : s.Built (x.settings name id) keyType valueType x.live kind m s') :
    (s'.withEngine e (x.register name m)).Housed e (x.register name m) dir here ∧
      s.Extends (s'.withEngine e (x.register name m)) := by
  have furnished := built.adds new h.furnished fun adds =>
    adds.furnished h.directory valid known lawful
  have table : (x.register name m).maps.get? = Function.update x.maps.get? name (some m) := by
    funext other
    rw [EngineHandle.get?_register h.ordered, Function.update_apply]
  refine ⟨⟨h.toServes.built built, ?_⟩, built.grows.trans (.of_maps rfl rfl)⟩
  rw [table]
  exact furnished.congr rfl rfl rfl

end Housed

end Store

namespace Opening

open Store

variable {e : EngineHandle} {x x' : Engine} {s s' : Store}

/-- What holds of the store after a request, if it held before, and holds
after the name is given an id, and after a map is built under it. -/
theorem after_cases {P : Engine → Store → Prop} (engine : s.engines[e.index]? = some x)
    (isOpen : x.closed = false) (alive : (s.liveSets x.live).alive = true) (o : Opening)
    (same : P x s)
    (assigned : ∀ id ids, x.ids.idFor o.name = .ok (id, ids) →
      P { x with ids } (s.withEngine e { x with ids }))
    (built : ∀ id ids m s', isValidName o.name = true → x.maps.get? o.name = none →
      x.ids.idFor o.name = .ok (id, ids) →
      (s.withEngine e { x with ids }).Built (x.settings o.name id) o.keyType o.valueType x.live
        o.kind m s' →
      P ({ x with ids }.register o.name m)
        (s'.withEngine e ({ x with ids }.register o.name m))) :
    ∃ x', P x' ((o.perform e).after s) := by
  obtain opens | ⟨m, cause, there, run⟩ := opens engine isOpen alive o
  · generalize run : o.perform e s = r at opens
    cases opens with
    | invalid bad =>
      rw [Action.after_of_error run]
      exact ⟨x, same⟩
    | exhausted valid new none =>
      rw [Action.after_of_error run]
      exact ⟨x, same⟩
    | found valid there =>
      rw [Action.after_of_ok run]
      exact ⟨x, same⟩
    | @unloadable id ids cause valid new given kept broken =>
      rw [Action.after_of_error run]
      exact ⟨_, assigned id ids given⟩
    | @built id ids m s' valid new given made =>
      rw [Action.after_of_ok run]
      exact ⟨_, built id ids m s' (Artifact.valid_of_checkName valid) new given made⟩
  · rw [Action.after_of_error run]
    exact ⟨x, same⟩

/-- Nothing is lost by a map under a new name. -/
theorem keeps_register {m : MapHandle} (ordered : x.maps.order = compare)
    (new : x.maps.get? name = none) : x.Keeps ({ x with ids }.register name m) := by
  intro other k there
  rw [EngineHandle.get?_register (x := { x with ids }) ordered, if_neg]
  · exact there
  · rintro rfl
    rw [new] at there
    cases there

/-- Whatever comes of a request, the engine serves on, the disk is as it was,
and other names have the maps and the ids they had. -/
theorem passes (h : s.Serves e x dir) (o : Opening) :
    ∃ x', ((o.perform e).after s).Serves e x' dir ∧ ((o.perform e).after s).disk = s.disk ∧
      ∀ other, other ≠ o.name →
        x'.maps.get? other = x.maps.get? other ∧ x'.ids.get? other = x.ids.get? other := by
  refine after_cases (P := fun x' s' => s'.Serves e x' dir ∧ s'.disk = s.disk ∧
    ∀ other, other ≠ o.name →
      x'.maps.get? other = x.maps.get? other ∧ x'.ids.get? other = x.ids.get? other)
    h.engine h.isOpen h.alive o ⟨h, rfl, fun _ _ => ⟨rfl, rfl⟩⟩ (fun id ids given => ?_)
    fun id ids m s' valid new given built => ?_
  · obtain ⟨-, gives, -⟩ := MapIds.idFor_ok h.ids given
    exact ⟨h.assign given, rfl, fun other ne => ⟨rfl, (gives other).trans (if_neg ne)⟩⟩
  · obtain ⟨-, gives, -⟩ := MapIds.idFor_ok h.ids given
    have assigned := h.assign given
    refine ⟨assigned.built built, built.leaves.1,
      fun other ne => ⟨?_, (gives other).trans (if_neg ne)⟩⟩
    exact (EngineHandle.get?_register assigned.ordered o.name m other).trans (if_neg ne)

/-- Whatever comes of a request, the maps are as they should be. -/
theorem housed (h : s.Housed e x dir here) (o : Opening)
    (lawful : Std.TransCmp o.keyType.compare) :
    ∃ x', ((o.perform e).after s).Housed e x' dir here ∧ s.Extends ((o.perform e).after s) ∧
      x.Keeps x' := by
  refine after_cases (P := fun x' s' => s'.Housed e x' dir here ∧ s.Extends s' ∧ x.Keeps x')
    h.engine h.isOpen h.alive o ⟨h, .refl s, fun _ _ there => there⟩ (fun id ids given => ?_)
    fun id ids m s' valid new given built => ?_
  · exact ⟨h.assign given, .of_maps rfl rfl, fun _ _ there => there⟩
  · obtain ⟨-, gives, -⟩ := MapIds.idFor_ok h.ids given
    have known : ids.get? o.name = some id := (gives o.name).trans (if_pos rfl)
    obtain ⟨housed, grows⟩ := (h.assign given).built valid new known lawful built
    have written : s.Extends (s.withEngine e { x with ids }) := .of_maps rfl rfl
    exact ⟨housed, written.trans grows, keeps_register h.ordered new⟩

/-- A name that no map is open under gets the entries that its artifact holds,
unless it has no id and there is none left. -/
theorem restores {entries : List (Bytes × Bytes)} (h : s.Serves e x dir) (o : Opening)
    (lawful : Std.TransCmp o.keyType.compare) (lasting : o.kind ≠ .inMemory)
    (valid : isValidName o.name = true) (new : x.maps.get? o.name = none)
    (stored : ∀ id ids, x.ids.idFor o.name = .ok (id, ids) →
      DirectMap.storedEntries (DirectMap.settingsIn o.name id dir) s.disk = .ok entries) :
    (∃ m id s', o.perform e s = .ok m s' ∧
        m.entries s' = .ok (SortedTable.ofList o.keyType.compare entries).toList s' ∧
        m.identity s' = .ok (o.name, id) s' ∧
        (x.ids.get? o.name = none ∨ x.ids.get? o.name = some id)) ∨
      x.ids.get? o.name = none ∧ x.ids.lastId = MapIds.maxId ∧
        o.perform e s = .error (.error (.config "map id space exhausted")) s := by
  have loads : ∀ id ids, x.ids.idFor o.name = .ok (id, ids) →
      DirectMap.storedEntries (x.settings o.name id) s.disk = .ok entries := fun id ids given =>
    (DirectMap.Loaded.storedEntries_settingsIn h.directory s.disk).trans (stored id ids given)
  obtain opens | ⟨m, cause, there, -⟩ := opens h.engine h.isOpen h.alive o
  · generalize run : o.perform e s = r at opens
    cases opens with
    | invalid bad => simp [Artifact.checkName, valid] at bad
    | found _ there =>
      rw [new] at there
      cases there
    | exhausted _ _ none =>
      obtain ⟨unknown, last, rfl⟩ := MapIds.idFor_refused none
      exact .inr ⟨unknown, last, rfl⟩
    | @unloadable id ids cause _ _ given _ broken =>
      rw [DirectMap.load_of_ok (loads id ids given)] at broken
      cases broken
    | @built id ids m s' _ _ given built =>
      obtain ⟨-, -, before⟩ := MapIds.idFor_ok h.ids given
      have maps : (s'.withEngine e ({ x with ids }.register o.name m)).maps = s'.maps := rfl
      obtain ⟨shows, identity⟩ := built.shows lasting lawful (loads id ids given) maps
      exact .inl ⟨m, id, _, rfl, shows, identity, before⟩
  · rw [new] at there
    cases there

end Opening

end MapStore
