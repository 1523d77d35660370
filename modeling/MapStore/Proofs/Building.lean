/-
MapStore.Proofs.Building — what becomes of a request to open a map.

An engine that builds a map adds one map to the store, or a direct map and one
over it, and lists them in its live-sets; a kind that is kept in an artifact
that cannot be loaded adds nothing (`Built`, `build_cases`).

A request under a name ends in one of five ways (`Opens`): the name is
refused, the map of the name is there, the engine has no id left, the artifact
cannot be loaded, or a map is built and registered. `mapNamed_opens` is this
case distinction. A request for a map of a type ends likewise, but for a map
of another type that is there (`openTyped_opens`).
-/
import MapStore.Engine
import MapStore.Proofs.Recovering
import MapStore.Proofs.Switching

namespace MapStore

/-! ## Loading -/

/-- A direct map that has just been opened. -/
structure DirectMap.Loaded (d : DirectMap) (settings : MapSettings) (keyType valueType : DataType)
    (disk : Disk) : Prop where
  name : d.name = settings.name
  id : d.id = settings.id
  keyType : d.keyType = keyType
  valueType : d.valueType = valueType
  path : d.path = settings.artifactPath
  isOpen : d.closed = false
  clean : d.dirty = false
  stored : ∃ entries, storedEntries settings disk = .ok entries ∧
    d.table = .ofList d.keyType.compare entries

namespace DirectMap

variable {settings : MapSettings} {keyType valueType : DataType} {disk : Disk} {d : DirectMap}

theorem load_of_ok {entries : List (Bytes × Bytes)}
    (h : storedEntries settings disk = .ok entries) :
    load settings keyType valueType disk =
      .ok { PlainMap.empty settings.name settings.id keyType valueType with
        table := .ofList keyType.compare entries, path := settings.artifactPath
        dirty := false } := by
  unfold load
  rw [h]
  rfl

theorem load_of_error {cause : StoreError} (h : storedEntries settings disk = .error cause) :
    load settings keyType valueType disk = .error cause := by
  unfold load
  rw [h]
  rfl

theorem loaded_of_load (h : load settings keyType valueType disk = .ok d) :
    d.Loaded settings keyType valueType disk := by
  cases stored : storedEntries settings disk with
  | error cause =>
    rw [load_of_error stored] at h
    cases h
  | ok entries =>
    rw [load_of_ok stored] at h
    cases h
    exact ⟨rfl, rfl, rfl, rfl, rfl, rfl, rfl, entries, stored, rfl⟩

end DirectMap

/-! ## Listing new maps -/

namespace LiveSets

/-- With one map more to be saved. -/
def withStorage (l : LiveSets) (m : MapHandle) : LiveSets :=
  { l with storage := (l.storage.insert m).2 }

/-- With one buffer more to be merged. -/
def withBuffered (l : LiveSets) (u : MergeUnit) : LiveSets :=
  { l with buffered := (l.buffered.insert u).2 }

/-- With one map more whose mode is to be decided. -/
def withAdaptive (l : LiveSets) (m : MapHandle) : LiveSets :=
  { l with adaptive := (l.adaptive.insert m).2 }

end LiveSets

namespace Store

/-- The handle of the map that is made next. -/
def next (s : Store) : MapHandle := ⟨s.maps.length⟩

/-- The handle of the map that is made after that. -/
def afterNext (s : Store) : MapHandle := ⟨s.maps.length + 1⟩

/-- The store with one map more. -/
def grow (s : Store) (st : MapState) : Store := { s with maps := s.maps ++ [st] }

theorem maps_grow (s : Store) (st : MapState) : (s.grow st).maps[s.next.index]? = some st := by
  simp [grow, next]

theorem next_grow (s : Store) (st : MapState) : (s.grow st).next = s.afterNext := by
  simp [grow, next, afterNext]

/-- Maps are added, and the live-sets of one engine are made into `sets`. -/
structure Extended (s : Store) (news : List MapState) (h : LiveHandle) (sets : LiveSets)
    (s' : Store) : Prop where
  maps : s'.maps = s.maps ++ news
  sets : ∀ x, s'.liveSets x = if h = x then sets else s.liveSets x
  disk : s'.disk = s.disk
  engines : s'.engines = s.engines

namespace Extended

variable {s s' s'' : Store} {news news' : List MapState} {h : LiveHandle} {l l' : LiveSets}

theorem own (e : s.Extended news h l s') : s'.liveSets h = l := by
  rw [e.sets, if_pos rfl]

/-- The maps that were there are as they were. -/
theorem old {m : MapHandle} (e : s.Extended news h l s') (lt : m.index < s.maps.length) :
    s'.maps[m.index]? = s.maps[m.index]? := by
  rw [e.maps, List.getElem?_append_left lt]

theorem first {st : MapState} (e : s.Extended (st :: news) h l s') :
    s'.maps[s.next.index]? = some st := by
  simp [e.maps, next]

theorem second {st st' : MapState} (e : s.Extended (st :: st' :: news) h l s') :
    s'.maps[s.afterNext.index]? = some st' := by
  simp [e.maps, afterNext]

theorem trans (e : s.Extended news h l s') (e' : s'.Extended news' h l' s'') :
    s.Extended (news ++ news') h l' s'' where
  maps := by rw [e'.maps, e.maps, List.append_assoc]
  sets x := by
    rw [e'.sets, e.sets]
    split <;> rfl
  disk := e'.disk.trans e.disk
  engines := e'.engines.trans e.engines

/-- Only these parts of a store count. -/
theorem congr (e : s.Extended news h l s') (maps : s''.maps = s'.maps)
    (live : s''.live = s'.live) (disk : s''.disk = s'.disk) (engines : s''.engines = s'.engines) :
    s.Extended news h l s'' where
  maps := maps.trans e.maps
  sets x := by
    rw [liveSets, live]
    exact e.sets x
  disk := disk.trans e.disk
  engines := engines.trans e.engines

theorem grow (s : Store) (st : MapState) (h : LiveHandle) :
    s.Extended [st] h (s.liveSets h) (s.grow st) where
  maps := rfl
  sets x := by
    split
    · rename_i same
      rw [← same]
      rfl
    · rfl
  disk := rfl
  engines := rfl

theorem grows (e : s.Extended news h l s') (st : MapState) :
    s.Extended (news ++ [st]) h l (s'.grow st) := by
  have next := grow s' st h
  rw [e.own] at next
  exact e.trans next

/-- A change of the live-sets of one engine. -/
theorem of_modify (f : LiveSets → LiveSets) (alive : (s.liveSets h).alive = true) :
    s.Extended [] h (f (s.liveSets h)) { s with live := s.live.modify h.index f } where
  maps := (List.append_nil _).symm
  sets x := by
    obtain ⟨i⟩ := h
    obtain ⟨j⟩ := x
    simp only [liveSets, List.getElem?_modify, LiveHandle.mk.injEq] at *
    cases there : s.live[i]? with
    | none => simp [there, LiveSets.empty] at alive
    | some l =>
      by_cases same : i = j
      · subst same
        simp [there]
      · simp [same]
  disk := rfl
  engines := rfl

end Extended

end Store

namespace LiveHandle

open Store

variable {h : LiveHandle} {s : Store} {l : LiveSets}

theorem addStorage_run (own : s.liveSets h = l) (alive : l.alive = true) (m : MapHandle) :
    ∃ added s', h.addStorage m s = .ok added s' ∧ s.Extended [] h (l.withStorage m) s' := by
  subst own
  let f := fun l : LiveSets => { l with storage := ((s.liveSets h).storage.insert m).2 }
  exact ⟨_, _, rfl, .of_modify f alive⟩

theorem addBuffered_run (own : s.liveSets h = l) (alive : l.alive = true) (u : MergeUnit) :
    ∃ added s', h.addBuffered u s = .ok added s' ∧ s.Extended [] h (l.withBuffered u) s' := by
  subst own
  let f := fun l : LiveSets => { l with buffered := ((s.liveSets h).buffered.insert u).2 }
  exact ⟨_, _, rfl, .of_modify f alive⟩

theorem addAdaptive_run (own : s.liveSets h = l) (alive : l.alive = true) (m : MapHandle) :
    ∃ added s', h.addAdaptive m s = .ok added s' ∧ s.Extended [] h (l.withAdaptive m) s' := by
  subst own
  let f := fun l : LiveSets => { l with adaptive := ((s.liveSets h).adaptive.insert m).2 }
  exact ⟨_, _, rfl, .of_modify f alive⟩

end LiveHandle

/-! ## Building -/

namespace Store

variable {settings : MapSettings} {keyType valueType : DataType} {live : LiveHandle}

/-- A map of the kind was built: how the store with it follows from the one
before. -/
inductive Built (s : Store) (settings : MapSettings) (keyType valueType : DataType)
    (live : LiveHandle) : MapKind → MapHandle → Store → Prop
  | memory {s' : Store}
      (grown : s.Extended [.memory (.empty settings.name settings.id keyType valueType)] live
        ((s.liveSets live).withStorage s.next) s') :
      Built s settings keyType valueType live .inMemory s.next s'
  | direct {d : DirectMap} {s' : Store}
      (loaded : DirectMap.load settings keyType valueType s.disk = .ok d)
      (grown : s.Extended [.direct d] live ((s.liveSets live).withStorage s.next) s') :
      Built s settings keyType valueType live .direct s.next s'
  | buffered {d : DirectMap} {s' : Store}
      (loaded : DirectMap.load settings keyType valueType s.disk = .ok d)
      (grown : s.Extended
        [.direct d, .buffered
          { name := d.name, id := d.id, backing := s.next, keyType, valueType
            buffer := .empty keyType.compare, closed := false }] live
        (((s.liveSets live).withStorage s.next).withBuffered (.map s.afterNext)) s') :
      Built s settings keyType valueType live .buffered s.afterNext s'
  | adaptive {d : DirectMap} {meter : MeterHandle} {s' : Store}
      (loaded : DirectMap.load settings keyType valueType s.disk = .ok d)
      (grown : s.Extended
        [.direct d, .adaptive
          { name := d.name, id := d.id, backing := s.next, keyType, valueType
            buffer := none, meter, live }] live
        (((s.liveSets live).withStorage s.next).withAdaptive s.afterNext) s') :
      Built s settings keyType valueType live .adaptive s.afterNext s'

theorem Built.engines {s s' : Store} {kind : MapKind} {m : MapHandle}
    (h : s.Built settings keyType valueType live kind m s') : s'.engines = s.engines := by
  cases h with
  | memory grown => exact grown.engines
  | direct _ grown => exact grown.engines
  | buffered _ grown => exact grown.engines
  | adaptive _ grown => exact grown.engines

/-- The map is of the type that was asked for. -/
theorem Built.top {s s' : Store} {kind : MapKind} {m : MapHandle}
    (h : s.Built settings keyType valueType live kind m s') (meter : Option MeterHandle) :
    ∃ st, s'.maps[m.index]? = some st ∧
      (MapBuilder.ofKind kind keyType valueType meter).builds st = true := by
  cases h with
  | memory grown => exact ⟨_, grown.first, rfl⟩
  | direct _ grown => exact ⟨_, grown.first, rfl⟩
  | buffered _ grown => exact ⟨_, grown.second, rfl⟩
  | adaptive _ grown => exact ⟨_, grown.second, rfl⟩

end Store

namespace MapHandle

variable {s : Store} {m : MapHandle} {st : MapState}

theorem run_identity (h : s.maps[m.index]? = some st) : m.identity s = .ok (st.name, st.id) s := by
  rw [identity, Action.run_bind, Action.run_state h]
  rfl

theorem run_newDirect (settings : MapSettings) (keyType valueType : DataType) (s : Store) :
    newDirect settings keyType valueType s =
      match DirectMap.load settings keyType valueType s.disk with
      | .ok d => .ok s.next (s.grow (.direct d))
      | .error cause => .error (.error cause) s := by
  unfold newDirect
  rw [Action.run_bind, Action.run_disk]
  cases load : DirectMap.load settings keyType valueType s.disk with
  | ok d => simp [load]; rfl
  | error cause => simp [load]

theorem run_newBuffered (h : s.maps[m.index]? = some st) (keyType valueType : DataType) :
    m.newBuffered keyType valueType s = .ok s.next (s.grow (.buffered
      { name := st.name, id := st.id, backing := m, keyType, valueType
        buffer := .empty keyType.compare, closed := false })) := by
  unfold newBuffered front
  simp only [Action.run_bind, run_identity h]
  rfl

theorem run_newAdaptive (h : s.maps[m.index]? = some st) (keyType valueType : DataType)
    (meter : MeterHandle) (live : LiveHandle) :
    m.newAdaptive keyType valueType meter live s = .ok s.next (s.grow (.adaptive
      { name := st.name, id := st.id, backing := m, keyType, valueType
        buffer := none, meter, live })) := by
  unfold newAdaptive front
  simp only [Action.run_bind, run_identity h]
  rfl

end MapHandle

namespace MapBuilder

open Store

variable {settings : MapSettings} {keyType valueType : DataType} {live : LiveHandle} {s : Store}

theorem build_memory (alive : (s.liveSets live).alive = true) :
    ∃ s', (memory keyType valueType).build settings live s = .ok s.next s' ∧
      s.Built settings keyType valueType live .inMemory s.next s' := by
  have grown := Extended.grow s (.memory (.empty settings.name settings.id keyType valueType)) live
  obtain ⟨added, s', run, listed⟩ := LiveHandle.addStorage_run grown.own alive s.next
  refine ⟨s', ?_, .memory (grown.trans listed)⟩
  show (live.addStorage s.next >>= fun _ => pure s.next : Action MapHandle) (s.grow _) = _
  rw [Action.run_bind, run]
  rfl

variable {d : DirectMap}

theorem build_direct (alive : (s.liveSets live).alive = true)
    (loaded : DirectMap.load settings keyType valueType s.disk = .ok d) :
    ∃ s', (direct keyType valueType).build settings live s = .ok s.next s' ∧
      s.Built settings keyType valueType live .direct s.next s' := by
  have load := MapHandle.run_newDirect settings keyType valueType s
  rw [loaded] at load
  have grown := Extended.grow s (.direct d) live
  obtain ⟨added, s', run, listed⟩ := LiveHandle.addStorage_run grown.own alive s.next
  refine ⟨s', ?_, .direct loaded (grown.trans listed)⟩
  simp [direct, load, run]

theorem build_buffered (alive : (s.liveSets live).alive = true)
    (loaded : DirectMap.load settings keyType valueType s.disk = .ok d) :
    ∃ s', (buffered keyType valueType).build settings live s = .ok s.afterNext s' ∧
      s.Built settings keyType valueType live .buffered s.afterNext s' := by
  have load := MapHandle.run_newDirect settings keyType valueType s
  rw [loaded] at load
  have make := MapHandle.run_newBuffered (maps_grow s (.direct d)) keyType valueType
  have grown := (Extended.grow s (.direct d) live).grows (.buffered
    { name := d.name, id := d.id, backing := s.next, keyType, valueType
      buffer := .empty keyType.compare, closed := false })
  obtain ⟨added, s₁, run, saved⟩ := LiveHandle.addStorage_run grown.own alive s.next
  obtain ⟨added', s', run', merged⟩ :=
    LiveHandle.addBuffered_run saved.own alive (.map s.afterNext)
  refine ⟨s', ?_, .buffered loaded ((grown.trans saved).trans merged)⟩
  simp only [MapState.name, MapState.id, next_grow] at make
  simp [buffered, load, make, run, run']

theorem build_adaptive (meter : Option MeterHandle) (alive : (s.liveSets live).alive = true)
    (loaded : DirectMap.load settings keyType valueType s.disk = .ok d) :
    ∃ s', (adaptive keyType valueType meter).build settings live s = .ok s.afterNext s' ∧
      s.Built settings keyType valueType live .adaptive s.afterNext s' := by
  have load := MapHandle.run_newDirect settings keyType valueType s
  rw [loaded] at load
  -- the meter is the one given or one that is added
  obtain ⟨h, s₀, given, metered⟩ : ∃ h s₀,
      (meter = some h ∧ s₀ = s.grow (.direct d) ∨
        meter = none ∧ Action.newMeter .idle (s.grow (.direct d)) = .ok h s₀) ∧
      s.Extended [.direct d] live (s.liveSets live) s₀ := by
    have grown := Extended.grow s (.direct d) live
    cases meter with
    | some meter => exact ⟨meter, _, .inl ⟨rfl, rfl⟩, grown⟩
    | none => exact ⟨_, _, .inr ⟨rfl, rfl⟩, grown.congr rfl rfl rfl rfl⟩
  have there : s₀.maps[s.next.index]? = some (.direct d) := by
    rw [metered.maps]
    exact maps_grow s (.direct d)
  have make := MapHandle.run_newAdaptive there keyType valueType h live
  have grown := metered.grows (.adaptive
    { name := d.name, id := d.id, backing := s.next, keyType, valueType, buffer := none
      meter := h, live })
  obtain ⟨added, s₁, run, saved⟩ := LiveHandle.addStorage_run grown.own alive s.next
  obtain ⟨added', s', run', listed⟩ := LiveHandle.addAdaptive_run saved.own alive s.afterNext
  refine ⟨s', ?_, .adaptive loaded ((grown.trans saved).trans listed)⟩
  have next : s₀.next = s.afterNext := by
    simp [Store.next, afterNext, metered.maps]
  simp only [MapState.name, MapState.id, next] at make
  obtain ⟨rfl, rfl⟩ | ⟨rfl, given⟩ := given
  · simp [adaptive, load, make, run, run']
  · simp [adaptive, load, given, make, run, run']

/-- Building a map of a kind for an engine succeeds, unless the kind keeps its
map in an artifact that cannot be loaded. -/
theorem build_cases (settings : MapSettings) (kind : MapKind) (keyType valueType : DataType)
    (meter : Option MeterHandle) (alive : (s.liveSets live).alive = true) :
    (∃ cause, kind ≠ .inMemory ∧
      DirectMap.load settings keyType valueType s.disk = .error cause ∧
      (ofKind kind keyType valueType meter).build settings live s = .error (.error cause) s) ∨
    ∃ m s', (ofKind kind keyType valueType meter).build settings live s = .ok m s' ∧
      s.Built settings keyType valueType live kind m s' := by
  cases loaded : DirectMap.load settings keyType valueType s.disk with
  | ok d =>
    refine .inr ?_
    cases kind with
    | inMemory => exact ⟨s.next, build_memory alive⟩
    | direct => exact ⟨s.next, build_direct alive loaded⟩
    | buffered => exact ⟨s.afterNext, build_buffered alive loaded⟩
    | adaptive => exact ⟨s.afterNext, build_adaptive meter alive loaded⟩
  | error cause =>
    have load := MapHandle.run_newDirect settings keyType valueType s
    rw [loaded] at load
    cases kind with
    | inMemory => exact .inr ⟨s.next, build_memory alive⟩
    | direct => exact .inl ⟨cause, nofun, rfl, by simp [ofKind, direct, load]⟩
    | buffered => exact .inl ⟨cause, nofun, rfl, by simp [ofKind, buffered, load]⟩
    | adaptive => exact .inl ⟨cause, nofun, rfl, by simp [ofKind, adaptive, load]⟩

end MapBuilder

/-! ## Opening under a name -/

/-- What an engine tells the map of a name and id. -/
def Engine.settings (x : Engine) (name : String) (id : MapId) : MapSettings :=
  { name, id, storageDir := x.config.storageDir, options := x.config.options }

/-- The engine with one map more in its table. -/
def Engine.register (x : Engine) (name : String) (m : MapHandle) : Engine :=
  { x with maps := (x.maps.insert name m).2 }

/-- The store in which an engine is something else. -/
def Store.withEngine (s : Store) (e : EngineHandle) (x : Engine) : Store :=
  { s with engines := s.engines.set e.index x }

namespace EngineHandle

variable {e : EngineHandle} {x x' : Engine} {s s' : Store}

/-- The table with one map more. -/
theorem get?_register (ordered : x.maps.order = compare) (name : String) (m : MapHandle)
    (other : String) :
    (x.register name m).maps.get? other = if other = name then some m else x.maps.get? other := by
  have lawful : Std.TransCmp x.maps.order := by
    rw [ordered]
    infer_instance
  rw [Engine.register, SortedTable.get?_insert, ordered]
  by_cases same : other = name
  · simp [same]
  · have ne : compare name other ≠ .eq := fun eq =>
      same (Std.LawfulEqCmp.eq_of_compare eq).symm
    rw [if_neg ne, if_neg same]

theorem engine_withEngine (x' : Engine) (h : s.engines[e.index]? = some x) :
    (s.withEngine e x').engines[e.index]? = some x' := by
  obtain ⟨lt, -⟩ := List.getElem?_eq_some_iff.1 h
  simp [Store.withEngine, lt]

theorem run_state (h : s.engines[e.index]? = some x) : e.state s = .ok x s := by
  simp [state, h]

theorem run_modifyState (f : Engine → Engine) (h : s.engines[e.index]? = some x) :
    e.modifyState f s = .ok () (s.withEngine e (f x)) := by
  obtain ⟨lt, rfl⟩ := List.getElem?_eq_some_iff.1 h
  have engines : s.engines.modify e.index f = s.engines.set e.index (f s.engines[e.index]) := by
    refine List.ext_getElem? fun i => ?_
    rw [List.getElem?_modify, List.getElem?_set]
    split
    · rename_i same
      subst same
      simp [lt]
    · simp
  simp [modifyState, Store.withEngine, engines]

/-- The directory is made, and the ids are those that its files show. -/
theorem recoverIds_ok {policy : RecoveryPolicy} {directory : String} {ids : MapIds}
    (h : recoverIds policy (some directory) s = .ok ids s') :
    ∃ files, (s.disk.makeDirectories directory).1 = .ok () ∧
      (s.disk.makeDirectories directory).2.list directory = .ok files ∧
      MapIds.recover policy files = .ok ids ∧
      s' = { s with disk := (s.disk.makeDirectories directory).2 } := by
  simp only [recoverIds, Action.onDisk, Action.run_bind, Action.run_disk, Action.run_setDisk] at h
  cases made : (s.disk.makeDirectories directory).1 with
  | error cause => simp [made] at h
  | ok _ =>
    cases listed : (s.disk.makeDirectories directory).2.list directory with
    | error cause => simp [made, listed] at h
    | ok files =>
      cases recovered : MapIds.recover policy files with
      | error cause => simp [made, listed, recovered] at h
      | ok ids' =>
        simp only [made, listed, recovered, Action.run_lift_ok] at h
        cases h
        exact ⟨files, rfl, rfl, recovered, rfl⟩

/-- The engine that is opened, with no map open yet. -/
def fresh (config : Config) (ids : MapIds) (live : LiveHandle) : Engine :=
  { config, maps := .empty compare, ids, closed := false, live, running := true }

/-- The store with one engine more. -/
def booted (config : Config) (ids : MapIds) (disk : Disk) (s : Store) : Store :=
  { s with
    disk
    live := s.live ++ [LiveSets.empty]
    engines := s.engines ++ [fresh config ids ⟨s.live.length⟩] }

/-- An engine that opens has taken its ids, and is there with no map open. -/
theorem openWith_ok {config : Config} (h : openWith config s = .ok e s') :
    ∃ ids s₁, recoverIds config.recoveryPolicy config.storageDir s = .ok ids s₁ ∧
      e = ⟨s₁.engines.length⟩ ∧ s' = booted config ids s₁.disk s₁ := by
  unfold openWith at h
  rw [Action.run_bind] at h
  cases recovered : recoverIds config.recoveryPolicy config.storageDir s with
  | error fault s₁ =>
    rw [recovered] at h
    cases h
  | ok ids s₁ =>
    rw [recovered] at h
    cases h
    exact ⟨ids, s₁, rfl, rfl, rfl⟩

/-- What comes of a request for the map of a name, which is to be of the kind
and data types if it is new. -/
inductive Opens (e : EngineHandle) (x : Engine) (name : String) (kind : MapKind)
    (keyType valueType : DataType) (s : Store) : EStateM.Result Fault Store MapHandle → Prop
  | invalid {cause : StoreError} (bad : Artifact.checkName name = .error cause) :
      Opens e x name kind keyType valueType s (.error (.error cause) s)
  | found {m : MapHandle} (valid : Artifact.checkName name = .ok ())
      (there : x.maps.get? name = some m) : Opens e x name kind keyType valueType s (.ok m s)
  | exhausted {cause : StoreError} (valid : Artifact.checkName name = .ok ())
      (new : x.maps.get? name = none) (none : x.ids.idFor name = .error cause) :
      Opens e x name kind keyType valueType s (.error (.error cause) s)
  | unloadable {id : MapId} {ids : MapIds} {cause : StoreError}
      (valid : Artifact.checkName name = .ok ()) (new : x.maps.get? name = none)
      (given : x.ids.idFor name = .ok (id, ids)) (kept : kind ≠ .inMemory)
      (broken : DirectMap.load (x.settings name id) keyType valueType s.disk = .error cause) :
      Opens e x name kind keyType valueType s
        (.error (.error cause) (s.withEngine e { x with ids }))
  | built {id : MapId} {ids : MapIds} {m : MapHandle} {s' : Store}
      (valid : Artifact.checkName name = .ok ()) (new : x.maps.get? name = none)
      (given : x.ids.idFor name = .ok (id, ids))
      (built : (s.withEngine e { x with ids }).Built (x.settings name id) keyType valueType x.live
        kind m s') :
      Opens e x name kind keyType valueType s
        (.ok m (s'.withEngine e ({ x with ids }.register name m)))

theorem mapNamed_opens (engine : s.engines[e.index]? = some x) (isOpen : x.closed = false)
    (alive : (s.liveSets x.live).alive = true) (name : String) (kind : MapKind)
    (keyType valueType : DataType) (meter : Option MeterHandle) :
    e.Opens x name kind keyType valueType s
      (e.mapNamed name (.ofKind kind keyType valueType meter) s) := by
  unfold mapNamed
  cases valid : Artifact.checkName name with
  | error cause => exact .invalid valid
  | ok _ =>
    simp only [Action.run_bind, Action.run_lift_ok, run_state engine, isOpen]
    cases there : x.maps.get? name with
    | some m => exact .found valid there
    | none =>
      cases given : x.ids.idFor name with
      | error cause => exact .exhausted valid there given
      | ok r =>
        obtain ⟨id, ids⟩ := r
        have assigned := run_modifyState ({ · with ids }) engine
        have engine' := engine_withEngine { x with ids } engine
        obtain ⟨cause, kept, broken, run⟩ | ⟨m, s', run, built⟩ :=
          MapBuilder.build_cases (s := s.withEngine e { x with ids }) (x.settings name id) kind
            keyType valueType meter alive
        · have outcome := Opens.unloadable (e := e) (s := s) valid there given kept broken
          simp only [Engine.settings] at run
          simpa [assigned, run] using outcome
        · have registered : ∀ f, e.modifyState f s' = .ok () (s'.withEngine e (f { x with ids })) :=
            fun f => run_modifyState f (built.engines ▸ engine')
          have outcome := Opens.built (e := e) (s := s) valid there given built
          simp only [Engine.settings] at run
          simpa [assigned, run, registered, Engine.register] using outcome

/-- A request for a map of a type ends like one for a map of any, but for a
map that is there and is of another type. -/
theorem openTyped_opens (engine : s.engines[e.index]? = some x) (isOpen : x.closed = false)
    (alive : (s.liveSets x.live).alive = true) (name : String) (kind : MapKind)
    (keyType valueType : DataType) (meter : Option MeterHandle) :
    e.Opens x name kind keyType valueType s
        (e.openTyped name (.ofKind kind keyType valueType meter) s) ∨
      ∃ m cause, x.maps.get? name = some m ∧
        e.openTyped name (.ofKind kind keyType valueType meter) s = .error (.error cause) s := by
  have opens := mapNamed_opens engine isOpen alive name kind keyType valueType meter
  unfold openTyped
  rw [Action.run_bind]
  generalize e.mapNamed name (.ofKind kind keyType valueType meter) s = r at opens ⊢
  cases opens with
  | invalid bad => exact .inl (.invalid bad)
  | exhausted valid new none => exact .inl (.exhausted valid new none)
  | unloadable valid new given kept broken =>
    exact .inl (.unloadable valid new given kept broken)
  | @found m valid there =>
    cases state : s.maps[m.index]? with
    | none => exact .inr ⟨m, .mapClosed "", there, by simp [Action.run_state_none state]⟩
    | some st =>
      cases builds : (MapBuilder.ofKind kind keyType valueType meter).builds st with
      | true =>
        refine .inl ?_
        simpa [Action.run_state state, builds] using Opens.found valid there
      | false =>
        refine .inr ⟨m, .mapKindMismatch name
          (MapBuilder.ofKind kind keyType valueType meter).label, there, ?_⟩
        simp [Action.run_state state, builds]
  | @built id ids m s' valid new given built =>
    obtain ⟨st, state, builds⟩ := built.top meter
    refine .inl ?_
    have state' : (s'.withEngine e ({ x with ids }.register name m)).maps[m.index]? = some st :=
      state
    simpa [Action.run_state state', builds] using Opens.built valid new given built

end EngineHandle

end MapStore
