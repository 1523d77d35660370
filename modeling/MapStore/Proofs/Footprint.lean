/-
MapStore.Proofs.Footprint — the files that an engine touches.

Only direct maps have a file, and only saving one changes a disk. So whatever
is done with the maps of a store, every map keeps its path, and the disk
changes by files being saved at these paths (`Files`). New paths come with new
maps: one that an engine builds of a kind that is kept has the path of the
artifact of its name and id, in the engine's directory (`Built.home?`).

Along a run of an engine the disk therefore changes at the paths of maps that
the engine built on the way (`Act.Builds`), and of maps that were there before
(`Act.run_files`). What a save at a path can touch is the file there and the
one half written beside it.
-/
import Mathlib.Data.List.Induction
import MapStore.Proofs.Restarting

namespace MapStore

open Artifact (fileName isValidName)

/-- A close saves as a save does, and leaves the map its path. -/
theorem DirectMap.filed_close (d : DirectMap) (disk : Disk) :
    disk.Filed (fun path => d.path = some path) (d.close disk).2.2 ∧
      (d.close disk).2.1.path = d.path := by
  have saved := d.filed_save disk
  obtain ⟨dirty, same⟩ := d.save_map disk
  unfold close
  split
  · exact ⟨.refl, rfl⟩
  · split
    · rename_i run
      rw [run] at saved same
      exact ⟨saved, by simpa using congrArg DirectMap.path same⟩
    · rename_i run
      rw [run] at saved same
      exact ⟨saved, by simpa using congrArg DirectMap.path same⟩

namespace Store

variable {s s' s'' : Store} {m : MapHandle} {st st' : MapState}

/-- The path is one that a map is saved at. -/
abbrev Home (s : Store) (path : String) : Prop := s.Homes (fun _ => True) path

/-- Every map is saved where it was, and the disk changed only by maps being
saved. -/
structure Files (s s' : Store) : Prop where
  homes : s'.home? = s.home?
  disk : s.disk.Filed s.Home s'.disk

theorem home?_set (st' : MapState) (h : s.maps[m.index]? = some st) (x : MapHandle) :
    (s.set m st').home? x = if x = m then st'.home? else s.home? x := by
  rw [home?, maps_set]
  by_cases same : x = m
  · subst same
    simp [h]
  · rw [if_neg (Ne.symm same), if_neg same, home?]

/-! ## What is done with maps -/

namespace Files

theorem refl (s : Store) : s.Files s := ⟨rfl, .refl⟩

theorem trans (h : s.Files s') (h' : s'.Files s'') : s.Files s'' := by
  have same : s'.Home = s.Home := by
    unfold Home Homes
    rw [h.homes]
  exact ⟨h'.homes.trans h.homes, h.disk.trans (same ▸ h'.disk)⟩

/-- A step that is framed by the set of all maps. -/
theorem frame (h : Frame (fun _ => True) s s') : s.Files s' := by
  have touches := h fun _ _ _ _ _ _ => trivial
  exact ⟨touches.home?, touches.disk⟩

/-- A step that leaves the maps and the disk. -/
theorem of_maps (maps : s'.maps = s.maps) (disk : s'.disk = s.disk) : s.Files s' := by
  refine ⟨funext fun m => ?_, disk ▸ .refl⟩
  rw [home?, home?, maps]

/-- A map is replaced by one that is saved where it was; the rest of the store
may change as well, but for the maps and the disk. -/
theorem set (maps : s'.maps = s.maps) (disk : s'.disk = s.disk)
    (h : s.maps[m.index]? = some st) (home : st'.home? = st.home?) : s.Files (s'.set m st') := by
  refine (of_maps maps disk).trans ⟨funext fun x => ?_, .refl⟩
  rw [home?_set st' (maps ▸ h)]
  split
  · rename_i same
    rw [home, same, home?, maps, h]
    rfl
  · rfl

theorem modifyState {f : MapState → MapState} (m : MapHandle)
    (home : ∀ st, (f st).home? = st.home?) (s : Store) :
    s.Files ((Action.modifyState m f).after s) :=
  Action.after_modifyState (R := Files) .refl fun st h => .set rfl rfl h (home st)

/-- The answer of a step is no part of what is left. -/
theorem answered {α β : Type} {a : Action α} (f : α → β) (h : s.Files (a.after s)) :
    s.Files ((do return f (← a) : Action β).after s) :=
  Action.after_bind (R := Files) .trans h fun _ s' _ => .refl s'

theorem call (c : Call) (m : MapHandle) (s : Store) : s.Files ((c.perform m).after s) :=
  frame (frame_call trivial c)

theorem merge (m : MapHandle) (s : Store) : s.Files (m.merge.after s) := frame (frame_merge trivial)

theorem save (m : MapHandle) (s : Store) : s.Files (m.save.after s) := frame (frame_save trivial)

theorem unit (u : MergeUnit) (s : Store) : s.Files (u.run.after s) := by
  cases u with
  | map m => exact merge m s
  | standIn u =>
    rw [MergeUnit.after_standIn]
    exact of_maps rfl rfl

/-- An attempt to switch, whatever comes of it. -/
theorem switchTo (m : MapHandle) (target : MapMode) (s : Store) :
    s.Files ((Tick.switchTo m target).after s) := by
  cases target with
  | direct =>
    unfold Tick.switchTo
    obtain same | failed | ⟨a, stats, buffer, -, -, h, left⟩ := m.after_switchToDirect s
    · rw [same]
      exact .refl s
    · rw [failed]
      exact merge m s
    · rw [left]
      refine (merge m s).trans ?_
      split
      · exact .set rfl rfl h rfl
      · exact .set rfl rfl h rfl
  | buffered =>
    unfold Tick.switchTo
    obtain same | ⟨a, h, -, -, entered⟩ := m.after_switchToBuffered s
    · rw [same]
      exact .refl s
    · rw [entered]
      exact .set rfl rfl h rfl

theorem resetWindow (m : MapHandle) (s : Store) : s.Files (m.resetWindow.after s) := by
  obtain same | ⟨a, -, reset⟩ := m.after_resetWindow s
  · rw [same]
    exact .refl s
  · rw [reset]
    exact of_maps rfl rfl

theorem evaluate (policy : ModePolicy) (m : MapHandle) (s : Store) :
    s.Files ((Tick.evaluate policy m).after s) := by
  refine Action.after_bind (R := Files) .trans ?_ fun shares s₁ _ => ?_
  · rw [Tick.after_percents]
    exact .refl s
  refine Action.after_bind (R := Files) .trans (resetWindow m s₁) fun _ s₂ _ => ?_
  split
  · exact .refl s₂
  · rename_i target _
    refine Action.after_bind (R := Files) .trans ?_ fun _ s₃ _ => .refl s₃
    rw [Action.after_attempt]
    exact switchTo m target s₂

theorem tick (live : LiveHandle) (policy : ModePolicy) (s : Store) :
    s.Files ((Tick.run live policy).after s) :=
  Tick.after_run policy .refl .trans (fun m _ => evaluate policy m) unit save

theorem upkeep (u : Upkeep) (m : MapHandle) (s : Store) : s.Files ((u.perform m).after s) := by
  cases u with
  | save => exact save m s
  | merge => exact answered _ (merge m s)
  | switchToBuffered => exact answered _ (switchTo m .buffered s)
  | switchToDirect => exact answered _ (switchTo m .direct s)
  | tick live policy => exact answered _ (tick live policy s)

/-- A close, whatever comes of it. -/
theorem close (m : MapHandle) (s : Store) : s.Files (m.close.after s) := by
  refine MapHandle.after_close (R := Files) .refl .trans ?_ ?_ ?_ ?_ ?_
    (fun s m => merge m s) (fun s m => switchTo m .direct s) m s
  · intro s m p h
    exact .set rfl rfl h rfl
  · intro s m d h
    obtain ⟨filed, path⟩ := d.filed_close s.disk
    have home : ∀ path, d.path = some path → s.Home path := fun path own =>
      ⟨m, trivial, by simp [home?, h, MapState.home?, own]⟩
    have written : s.Files { s with disk := (d.close s.disk).2.2 } := ⟨rfl, filed.mono home⟩
    exact written.trans (.set rfl rfl h path)
  · intro s m f count h
    exact frame (frame_enterFaulty trivial h _ count)
  · intro s m
    exact modifyState m (fun st => by cases st <;> rfl) s
  · intro s m closed
    exact modifyState m (fun st => by cases st <;> rfl) s

/-- The same done to every map, whatever comes of it. -/
theorem forEachMap {action : MapHandle → Action Unit}
    (each : ∀ (m : MapHandle) (s : Store), s.Files ((action m).after s)) (maps : List MapHandle)
    (s : Store) : s.Files ((EngineHandle.forEachMap action maps).after s) :=
  EngineHandle.after_forEachMap (R := Files) .refl .trans (fun m _ => each m) s

theorem ticked (e : EngineHandle) (s : Store) : s.Files (e.tick.after s) := by
  obtain ⟨x, asked⟩ := EngineHandle.state_answers e s
  rw [Action.after, EngineHandle.run_tick asked]
  exact tick x.live _ s

theorem committed (e : EngineHandle) (s : Store) : s.Files (e.commit.after s) :=
  EngineHandle.after_commit (R := Files) .refl .trans save e s

end Files

/-! ## New maps -/

/-- A map is an old one or one of the new ones. -/
theorem home?_append {news : List MapState} {path : String} {k : MapHandle}
    (maps : s'.maps = s.maps ++ news) (home : s'.home? k = some path) :
    s.home? k = some path ∨ ∃ st ∈ news, st.home? = some path := by
  obtain ⟨st, there, own⟩ := Option.bind_eq_some_iff.1 home
  rw [maps, List.getElem?_append] at there
  split at there
  · exact .inl (Option.bind_eq_some_iff.2 ⟨st, there, own⟩)
  · exact .inr ⟨st, List.mem_of_getElem? there, own⟩

/-- Of the new maps only a direct one is saved, where its artifact is. -/
theorem Built.news {settings : MapSettings} {keyType valueType : DataType} {live : LiveHandle}
    {kind : MapKind} (h : s.Built settings keyType valueType live kind m s') :
    ∃ news, s'.maps = s.maps ++ news ∧ ∀ st ∈ news, ∀ path, st.home? = some path →
      kind ≠ .inMemory ∧ settings.artifactPath = some path := by
  have loads : ∀ {d : DirectMap}, DirectMap.load settings keyType valueType s.disk = .ok d →
      ∀ path, (MapState.direct d).home? = some path → settings.artifactPath = some path :=
    fun loaded path own => (DirectMap.loaded_of_load loaded).path ▸ own
  cases h with
  | memory grown => exact ⟨_, grown.maps, by simp [MapState.home?]⟩
  | direct loaded grown => exact ⟨_, grown.maps, by simpa using loads loaded⟩
  | buffered loaded grown =>
    exact ⟨_, grown.maps, by simpa [MapState.home?] using loads loaded⟩
  | adaptive loaded grown =>
    exact ⟨_, grown.maps, by simpa [MapState.home?] using loads loaded⟩

/-- The maps that are there are saved where they were, and a new one is saved
where its artifact is, if it is of a kind that has one. -/
theorem Built.home? {settings : MapSettings} {keyType valueType : DataType} {live : LiveHandle}
    {kind : MapKind} {path : String} {k : MapHandle}
    (h : s.Built settings keyType valueType live kind m s') (home : s'.home? k = some path) :
    s.home? k = some path ∨ kind ≠ .inMemory ∧ settings.artifactPath = some path := by
  obtain ⟨news, maps, saved⟩ := h.news
  obtain old | ⟨st, mem, own⟩ := home?_append maps home
  · exact .inl old
  · exact .inr (saved st mem path own)

/-- An engine that was not closed, and the directory that it keeps its maps in,
if it keeps them at all. -/
structure Works (s : Store) (e : EngineHandle) (x : Engine) (storage : Option String) : Prop where
  engine : s.engines[e.index]? = some x
  isOpen : x.closed = false
  alive : (s.liveSets x.live).alive = true
  storage : x.config.storageDir = storage

end Store

namespace Store.Works

variable {s s' : Store} {e : EngineHandle} {x : Engine} {storage : Option String}

/-- Steps of the maps leave the engine. -/
theorem modeSteps (h : s.Works e x storage) (steps : s.ModeSteps s') :
    s'.Works e x storage := by
  have alive := (steps.sets x.live).1
  refine ⟨?_, h.isOpen, alive.trans h.alive, h.storage⟩
  rw [steps.engines]
  exact h.engine

theorem not_ended (h : s.Works e x storage) : ¬ e.Ended s := by
  rintro ⟨y, engine, closed⟩
  obtain rfl : x = y := Option.some.inj (h.engine.symm.trans engine)
  rw [h.isOpen] at closed
  cases closed

end Store.Works

/-! ## What is done with an engine -/

/-- What comes of a request that is answered with a new map, of a kind that is
kept. -/
structure Opening.Builds (o : Opening) (e : EngineHandle) (s : Store) (name : String) (id : MapId) :
    Prop where
  named : o.name = name
  kept : o.kind ≠ .inMemory
  new : e.hasMap name s = .ok false s
  answered : ∃ m s', o.perform e s = .ok m s' ∧ m.identity s' = .ok (name, id) s'

/-- Among the acts is a request that is answered with a new map of this name and
id, of a kind that is kept. -/
def Act.Builds (e : EngineHandle) (s : Store) (acts : List Act) (name : String) (id : MapId) :
    Prop :=
  ∃ before o after, acts = before ++ .deed (.opened o) :: after ∧
    o.Builds e (Act.run e s before) name id

namespace Opening

open Store

variable {e : EngineHandle} {x : Engine} {s : Store} {storage : Option String}

/-- Whatever comes of a request, the engine works on and the disk is as it was.
A valid name may be given an id; new paths are those of the map that was
built under it. -/
theorem files (h : s.Works e x storage) (ordered : x.ids.Ordered) (o : Opening) :
    ∃ x', ((o.perform e).after s).Works e x' storage ∧ ((o.perform e).after s).disk = s.disk ∧
      (x'.ids = x.ids ∨
        isValidName o.name = true ∧ ∃ id, x.ids.idFor o.name = .ok (id, x'.ids)) ∧
      ∀ k path, ((o.perform e).after s).home? k = some path → s.home? k = some path ∨
        ∃ id, o.Builds e s o.name id ∧ x'.ids.get? o.name = some id ∧
          storage.map (Disk.join · (fileName o.name id)) = some path := by
  have same : s.Works e x storage ∧ s.disk = s.disk ∧ (x.ids = x.ids ∨
      isValidName o.name = true ∧ ∃ id, x.ids.idFor o.name = .ok (id, x.ids)) ∧
      ∀ k path, s.home? k = some path → s.home? k = some path ∨
        ∃ id, o.Builds e s o.name id ∧ x.ids.get? o.name = some id ∧
          storage.map (Disk.join · (fileName o.name id)) = some path :=
    ⟨h, rfl, .inl rfl, fun _ _ => .inl⟩
  obtain opens | ⟨m, cause, there, run⟩ := opens h.engine h.isOpen h.alive o
  · generalize run : o.perform e s = r at opens
    cases opens with
    | invalid bad =>
      rw [Action.after_of_error run]
      exact ⟨x, same⟩
    | exhausted valid new none =>
      rw [Action.after_of_error run]
      exact ⟨x, same⟩
    | found valid there =>
      rw [Action.after_of_ok run]
      exact ⟨x, same⟩
    | @unloadable id ids cause valid new given kept broken =>
      rw [Action.after_of_error run]
      have works : (s.withEngine e { x with ids }).Works e { x with ids } storage :=
        ⟨EngineHandle.engine_withEngine _ h.engine, h.isOpen, h.alive, h.storage⟩
      exact ⟨_, works, rfl, .inr ⟨Artifact.valid_of_checkName valid, id, given⟩, fun _ _ => .inl⟩
    | @built id ids m s' valid new given built =>
      rw [Action.after_of_ok run]
      obtain ⟨disk, engines, alive⟩ := built.leaves
      have engine' : s'.engines[e.index]? = some { x with ids } := by
        rw [engines]
        exact EngineHandle.engine_withEngine _ h.engine
      have works : (s'.withEngine e ({ x with ids }.register o.name m)).Works e
          ({ x with ids }.register o.name m) storage :=
        ⟨EngineHandle.engine_withEngine _ engine', h.isOpen, alive.trans h.alive, h.storage⟩
      refine ⟨_, works, disk, .inr ⟨Artifact.valid_of_checkName valid, id, given⟩,
        fun k path home => ?_⟩
      have home : s'.home? k = some path := home
      obtain old | ⟨kept, own⟩ := built.home? home
      · exact .inl old
      obtain ⟨-, gives, -⟩ := MapIds.idFor_ok ordered given
      refine .inr ⟨id, ⟨rfl, kept, ?_, m, _, run, ?_⟩, (gives o.name).trans (if_pos rfl), ?_⟩
      · simp [EngineHandle.hasMap, EngineHandle.run_state h.engine, SortedTable.contains, new]
      · obtain ⟨f, name, known, entered⟩ := built.entered
        obtain ⟨st, state, rfl⟩ := Option.map_eq_some_iff.1 entered.face
        have own : st.name = o.name ∧ st.id = id := ⟨name, known⟩
        rw [MapHandle.run_identity (s := s'.withEngine ..) state, own.1, own.2]
      · rw [← own, ← h.storage]
        rfl
  · rw [Action.after_of_error run]
    exact ⟨x, same⟩

end Opening

namespace Act

open Store

variable {e : EngineHandle} {s s' : Store} {acts : List Act} {act : Act} {name : String}
  {id : MapId} {storage : Option String}

theorem run_concat (e : EngineHandle) (s : Store) (acts : List Act) (act : Act) :
    run e s (acts ++ [act]) = act.after e (run e s acts) := by
  simp [run]

theorem Builds.concat (h : Builds e s acts name id) (act : Act) :
    Builds e s (acts ++ [act]) name id := by
  obtain ⟨before, o, after, rfl, builds⟩ := h
  exact ⟨before, o, after ++ [act], by simp, builds⟩

/-- The engine stands after acts as it did: it works on, or it was closed. -/
def WorksOrEnded (s : Store) (e : EngineHandle) (storage : Option String) : Prop :=
  e.Ended s ∨ ∃ x, s.Works e x storage ∧ x.ids.Ordered

/-- Closing the engine is closing its maps, for their files. -/
theorem files_close (h : WorksOrEnded s e storage) :
    s.Files (e.close.after s) ∧ e.Ended (e.close.after s) := by
  rcases h with ended | ⟨x, works, -⟩
  · rw [Action.after_of_ok (EngineHandle.close_ended ended)]
    exact ⟨.refl s, ended⟩
  · obtain ⟨maps, disk, ended, -⟩ := EngineHandle.close_leaves works.engine works.isOpen
    have begun : s.Files (e.closing x s) := .of_maps rfl rfl
    have closed := begun.trans (.forEachMap .close x.maps.values _)
    exact ⟨closed.trans (.of_maps maps disk), ended⟩

theorem files_drop (h : WorksOrEnded s e storage) :
    s.Files (e.drop.after s) ∧ e.Ended (e.drop.after s) := by
  obtain ⟨files, ended⟩ := files_close h
  obtain ⟨x, engine, closed⟩ := ended
  obtain ⟨maps, disk, engines⟩ := EngineHandle.drop_leaves engine
  exact ⟨files.trans (.of_maps maps disk), EngineHandle.Ended.congr ⟨x, engine, closed⟩ engines⟩

theorem WorksOrEnded.modeSteps (h : WorksOrEnded s e storage) (steps : s.ModeSteps s') :
    WorksOrEnded s' e storage := by
  rcases h with ended | ⟨x, works, ordered⟩
  · exact .inl (ended.congr steps.engines)
  · exact .inr ⟨x, works.modeSteps steps, ordered⟩

/-- What an act comes to: an engine that works is asked for a map, or there are
steps of the maps that save files at the paths there are, and they may be the
last ones of the engine. -/
inductive EffectOnFiles (e : EngineHandle) (s : Store) (storage : Option String) :
    Act → Store → Prop
  | opens {x : Engine} (o : Opening) (works : s.Works e x storage) (ordered : x.ids.Ordered) :
      EffectOnFiles e s storage (.deed (.opened o)) ((o.perform e).after s)
  | moves {act : Act} {s' : Store} (steps : s.ModeSteps s') (files : s.Files s') :
      EffectOnFiles e s storage act s'
  | ends {act : Act} {s' : Store} (files : s.Files s') (ended : e.Ended s') :
      EffectOnFiles e s storage act s'

theorem effectOnFiles (h : WorksOrEnded s e storage) (act : Act) :
    EffectOnFiles e s storage act (act.after e s) := by
  cases act with
  | shut m => exact .moves (UnbufferSteps.close m s).modeSteps (.close m s)
  | deed d =>
    cases d with
    | opened o =>
      rcases h with ended | ⟨x, works, ordered⟩
      · have same : (Act.deed (.opened o)).after e s = s := EngineHandle.perform_ended ended o
        rw [same]
        exact .moves .refl (.refl s)
      · exact .opens o works ordered
    | called c m => exact .moves (UnbufferSteps.call c m s).modeSteps (.call c m s)
    | upkept u m => exact .moves (u.modeSteps m s) (.upkeep u m s)
    | metered meters => exact .moves (.still (.of_maps rfl rfl rfl)) (.of_maps rfl rfl)
    | ticked => exact .moves (EngineHandle.Run.modeSteps_tick e s) (.ticked e s)
    | committed =>
      exact .moves (EngineHandle.Run.unbufferSteps_commit e s).modeSteps (.committed e s)
    | closed =>
      obtain ⟨files, ended⟩ := files_close h
      exact .ends files ended
    | dropped =>
      obtain ⟨files, ended⟩ := files_drop h
      exact .ends files ended

/-- What an act does to the disk, it does at the paths of maps that there are;
new paths are those of a map that it builds. -/
theorem files_step (h : WorksOrEnded s e storage) (act : Act) :
    WorksOrEnded (act.after e s) e storage ∧ s.disk.Filed s.Home (act.after e s).disk ∧
      ∀ k path, (act.after e s).home? k = some path → s.home? k = some path ∨
        ∃ o name id, act = .deed (.opened o) ∧ o.Builds e s name id ∧
          storage.map (Disk.join · (fileName name id)) = some path := by
  have effect := effectOnFiles h act
  generalize act.after e s = s' at effect
  cases effect with
  | moves steps files =>
    refine ⟨h.modeSteps steps, files.disk, fun k path home => .inl ?_⟩
    rwa [files.homes] at home
  | ends files ended =>
    refine ⟨.inl ended, files.disk, fun k path home => .inl ?_⟩
    rwa [files.homes] at home
  | opens o works ordered =>
    obtain ⟨x', works', disk, ids, homes⟩ := o.files works ordered
    have ordered' : x'.ids.Ordered := by
      obtain same | ⟨-, id, given⟩ := ids
      · rwa [same]
      · exact (MapIds.idFor_ok ordered given).1
    refine ⟨.inr ⟨x', works', ordered'⟩, disk ▸ .refl, fun k path home => ?_⟩
    obtain old | ⟨id, builds, -, own⟩ := homes k path home
    · exact .inl old
    · exact .inr ⟨o, o.name, id, rfl, builds, own⟩

/-- The path is one that a map was saved at before the acts, or that of a map
that is built by them. -/
def Saves (e : EngineHandle) (s : Store) (storage : Option String) (acts : List Act)
    (path : String) : Prop :=
  s.Home path ∨ ∃ name id, Builds e s acts name id ∧
    storage.map (Disk.join · (fileName name id)) = some path

/-- Whatever acts do to the disk, they do at those paths. -/
theorem run_files (h : WorksOrEnded s e storage) (acts : List Act) :
    WorksOrEnded (run e s acts) e storage ∧
      s.disk.Filed (Saves e s storage acts) (run e s acts).disk ∧
      ∀ path, (run e s acts).Home path → Saves e s storage acts path := by
  induction acts using List.reverseRecOn with
  | nil => exact ⟨h, .refl, fun path home => .inl home⟩
  | append_singleton acts act ih =>
    obtain ⟨worksOrEnded, filed, homes⟩ := ih
    obtain ⟨worksOrEnded', filed', homes'⟩ := files_step worksOrEnded act
    have more : ∀ path, Saves e s storage acts path → Saves e s storage (acts ++ [act]) path := by
      rintro path (old | ⟨name, id, builds, own⟩)
      · exact .inl old
      · exact .inr ⟨name, id, builds.concat act, own⟩
    rw [run_concat]
    refine ⟨worksOrEnded',
      (filed.mono more).trans (filed'.mono fun path home => more path (homes path home)), ?_⟩
    rintro path ⟨k, -, home⟩
    obtain old | ⟨o, name, id, rfl, builds, own⟩ := homes' k path home
    · exact more path (homes path ⟨k, trivial, old⟩)
    · exact .inr ⟨name, id, ⟨acts, o, [], rfl, builds⟩, own⟩

/-- Something that is done with the map by itself. -/
inductive On (m : MapHandle) : Act → Prop
  | called (c : Call) : On m (.deed (.called c m))
  | saved : On m (.deed (.upkept .save m))
  | merged : On m (.deed (.upkept .merge m))
  | toBuffered : On m (.deed (.upkept .switchToBuffered m))
  | toDirect : On m (.deed (.upkept .switchToDirect m))
  | shut : On m (.shut m)

/-- A map in memory touches no file. -/
theorem memory_leaves {m : MapHandle} {p : PlainMap} (h : s.maps[m.index]? = some (.memory p))
    (on : On m act) : (act.after e s).disk = s.disk := by
  have closed : s.Closed (· = m) := by
    rintro _ rfl st state x mem
    rw [h] at state
    cases state
    cases mem
  have nowhere : ∀ path, ¬ s.Homes (· = m) path := by
    rintro path ⟨_, rfl, home⟩
    simp [home?, h, MapState.home?] at home
  have framed : ∀ {s'}, Frame (· = m) s s' → s'.disk = s.disk := fun frame =>
    (frame closed).disk.eq nowhere
  have unswitched : ∀ target, (Tick.switchTo m target >>= fun _ => pure ()).after s = s :=
    fun target => Action.after_bind_of_ok (Tick.switchTo_plain h rfl target)
  cases on with
  | called c => exact framed (frame_call (P := (· = m)) rfl c)
  | saved => exact framed (frame_save (P := (· = m)) rfl)
  | merged => exact framed (frame_bind (frame_merge (P := (· = m)) rfl) fun _ s' _ => .refl _ s')
  | toBuffered => exact congrArg Store.disk (unswitched .buffered)
  | toDirect => exact congrArg Store.disk (unswitched .direct)
  | shut =>
    have after : (Act.shut m).after e s = s.set m (.memory p.close) := by
      exact Action.after_of_ok (MapHandle.close_memory h)
    rw [after]
    rfl

end Act

/-! ## The files of an engine -/

namespace EngineHandle

open Store

variable {e : EngineHandle} {s s' : Store} {config : Config}

/-- Only a valid name is answered with a map. -/
theorem valid_of_perform {o : Opening} {m : MapHandle} (h : o.perform e s = .ok m s') :
    isValidName o.name = true := by
  have refused : ∀ {cause} builder, Artifact.checkName o.name = .error cause →
      e.mapNamed o.name builder s = .error (.error cause) s := by
    intro cause builder bad
    unfold mapNamed
    rw [Action.run_bind, bad]
    rfl
  cases valid : Artifact.checkName o.name with
  | ok _ => exact Artifact.valid_of_checkName valid
  | error cause =>
    unfold Opening.perform openTyped openMap at h
    split at h
    · rw [Action.run_bind, refused _ valid] at h
      cases h
    · rw [refused _ valid] at h
      cases h

/-- Opening an engine makes its directory at most. -/
theorem disk_openWith (config : Config) (s : Store) :
    ((openWith config).after s).disk = s.disk ∨ ∃ dir, config.storageDir = some dir ∧
      ((openWith config).after s).disk = (s.disk.makeDirectories dir).2 := by
  -- the disk that a step leaves is the one that the next step leaves
  have andThen : ∀ {α β : Type} {a : Action α} {f : α → Action β} {s : Store} {disk : Disk},
      (a.after s).disk = disk → (∀ r s', s'.disk = disk → ((f r).after s').disk = disk) →
      ((a >>= f).after s).disk = disk := by
    intro α β a f s disk first next
    refine Action.after_bind (R := fun _ s' => s'.disk = disk) (fun _ later => later) first ?_
    intro r s' run
    rw [Action.after_of_ok run] at first
    exact next r s' first
  unfold openWith
  cases config.storageDir with
  | none => exact .inl rfl
  | some dir =>
    refine .inr ⟨dir, rfl, andThen ?_ fun ids s₁ same => same⟩
    unfold recoverIds
    refine andThen ?_ fun _ s₁ same => andThen same fun disk s₂ same => ?_
    · unfold Action.onDisk
      rw [Action.after_bind_of_ok (Action.run_disk s),
        Action.after_bind_of_ok (Action.run_setDisk ..), Action.after_lift]
    · refine andThen ?_ fun files s₃ same => ?_
      · rwa [Action.after_lift]
      · rwa [Action.after_lift]

/-- An engine that is opened works, with no map open yet. -/
theorem works_of_openWith (start : openWith config s = .ok e s') :
    s'.maps = s.maps ∧
      (∃ x, s'.Works e x config.storageDir ∧ x.ids.Ordered ∧ x.maps = .empty compare) ∧
      ∀ dir, config.storageDir = some dir → ∃ here, s'.disk.Houses dir here := by
  obtain ⟨ids, s₁, recovered, rfl, rfl⟩ := openWith_ok start
  obtain ⟨ordered, maps, -, -⟩ := recoverIds_leaves recovered
  have works : (booted config ids s₁.disk s₁).Works ⟨s₁.engines.length⟩
      (fresh config ids ⟨s₁.live.length⟩) config.storageDir :=
    ⟨by simp [booted], rfl, by simp [booted, fresh, liveSets, LiveSets.empty], rfl⟩
  refine ⟨maps, ⟨_, works, ordered, rfl⟩, fun dir directory => ?_⟩
  rw [directory] at recovered
  obtain ⟨files, -, listed, -, rfl⟩ := recoverIds_ok recovered
  exact Disk.houses_of_list listed

/-- Opening an engine makes directories, on the way to its own, where there was
nothing. -/
theorem openWith_makes (config : Config) (s : Store) (place : Place) :
    s.disk.MadeAt ((openWith config).after s).disk place ∧
      (((openWith config).after s).disk.node? place ≠ s.disk.node? place →
        ∃ dir, config.storageDir = some dir ∧ Disk.PassesThrough dir place) := by
  obtain same | ⟨dir, directory, made⟩ := disk_openWith config s
  · rw [same]
    exact ⟨.inl rfl, fun changed => absurd rfl changed⟩
  · rw [made]
    obtain ⟨makes, passes⟩ := s.disk.makeDirectories_makes dir place
    exact ⟨makes, fun changed => ⟨dir, directory, passes changed⟩⟩

/-- What changes after that is a file of a map that the engine built, or of one
that was there before. -/
theorem run_touches (start : openWith config s = .ok e s') (acts : List Act) {place : Place}
    (changed : (Act.run e s' acts).disk.node? place ≠ s'.disk.node? place) :
    (∃ m path, s.home? m = some path ∧ s'.disk.SavesAt path place) ∨
      ∃ dir here name id, config.storageDir = some dir ∧ s'.disk.Houses dir here ∧
        Act.Builds e s' acts name id ∧
        (place = here ++ [fileName name id] ∨
          place = here ++ [MapFile.temporaryPath (fileName name id)]) := by
  obtain ⟨maps, ⟨x, works, ordered, -⟩, houses⟩ := works_of_openWith start
  obtain ⟨-, filed, -⟩ := Act.run_files (.inr ⟨x, works, ordered⟩) acts
  obtain ⟨path, saves, touched⟩ := filed.changes.2 place changed
  obtain ⟨m, -, home⟩ | ⟨name, id, builds, own⟩ := saves
  · rw [home?, maps, ← home?] at home
    exact .inl ⟨m, path, home, touched⟩
  · obtain ⟨dir, directory, rfl⟩ := Option.map_eq_some_iff.1 own
    obtain ⟨here, houses⟩ := houses dir directory
    have plain : Disk.IsPlain (fileName name id) := by
      obtain ⟨before, o, after, -, rfl, -, -, m, s₁, answered, -⟩ := builds
      exact Artifact.isPlain_fileName (valid_of_perform answered) id
    exact .inr ⟨dir, here, name, id, directory, houses, builds, touched.inside houses plain⟩

/-- An engine without a directory changes nothing. -/
theorem run_leaves (nowhere : config.storageDir = none) (homeless : ∀ m, s.home? m = none)
    (start : openWith config s = .ok e s') (acts : List Act) :
    (Act.run e s' acts).disk = s.disk := by
  obtain ⟨maps, ⟨x, works, ordered, -⟩, -⟩ := works_of_openWith start
  obtain ⟨-, filed, -⟩ := Act.run_files (.inr ⟨x, works, ordered⟩) acts
  have opened : s'.disk = s.disk := by
    obtain same | ⟨dir, directory, -⟩ := disk_openWith config s
    · rwa [Action.after_of_ok start] at same
    · rw [nowhere] at directory
      cases directory
  refine (filed.eq fun path saves => ?_).trans opened
  obtain ⟨m, -, home⟩ | ⟨name, id, -, own⟩ := saves
  · rw [home?, maps, ← home?, homeless] at home
    cases home
  · rw [nowhere] at own
    cases own

/-- Whatever is done with an engine, the disk changes only where the files of
its maps are: each place that changes is in its directory, and there it is that
of the artifact, or of the artifact half written, of a map that the engine built
as one that is kept. (Maps that were in the store before the engine may be
saved on the way; they have files of their own.) Opening the engine makes
directories on the way to its own where there was nothing. An engine that keeps
no maps changes nothing, and neither does what is done with a map in memory. -/
theorem touches_own_files (config : Config) (s₀ : Store) :
    (∀ place, s₀.disk.MadeAt ((openWith config).after s₀).disk place ∧
      (((openWith config).after s₀).disk.node? place ≠ s₀.disk.node? place →
        ∃ dir, config.storageDir = some dir ∧ Disk.PassesThrough dir place)) ∧
    (∀ e s₁ acts, openWith config s₀ = .ok e s₁ → ∀ place,
      (Act.run e s₁ acts).disk.node? place ≠ s₁.disk.node? place →
        (∃ m path, s₀.home? m = some path ∧ s₁.disk.SavesAt path place) ∨
        ∃ dir here name id, config.storageDir = some dir ∧ s₁.disk.Houses dir here ∧
          Act.Builds e s₁ acts name id ∧
          (place = here ++ [fileName name id] ∨
            place = here ++ [MapFile.temporaryPath (fileName name id)])) ∧
    (config.inMemory = true ∨ config.storageName = none → (∀ m, s₀.home? m = none) →
      ∀ e s₁ acts, openWith config s₀ = .ok e s₁ → (Act.run e s₁ acts).disk = s₀.disk) ∧
    ∀ (e : EngineHandle) (s : Store) (m : MapHandle) (p : PlainMap) (act : Act),
      s.maps[m.index]? = some (.memory p) → Act.On m act → (act.after e s).disk = s.disk := by
  refine ⟨openWith_makes config s₀,
    fun e s₁ acts start place changed => run_touches start acts changed,
    fun unkept homeless e s₁ acts start => run_leaves ?_ homeless start acts,
    fun e s m p act => Act.memory_leaves⟩
  unfold Config.storageDir
  obtain inMemory | unnamed := unkept
  · rw [inMemory]
    rfl
  · rw [unnamed]
    split <;> rfl

/-- A directory in which somebody keeps notes. -/
def yard : Disk := (Disk.empty.makeDirectories "s").2.put ["s", "notes"] (.file [1])

/-- An engine on that directory. -/
def yardStart : Store := (openWith depot).after (.onDisk yard)

/-- A map is opened, an entry is put into it, and the engine commits. -/
def yardActs : List Act :=
  [.deed (.opened (depotMap "a")), .deed (.called (.put [1] [2]) ⟨0⟩), .deed .committed]

/-- The engine before the commit. -/
def yardPut : Store :=
  (((depotMap "a").perform ⟨0⟩).after yardStart).set ⟨0⟩ (.direct (depotFull "a" 1))

theorem run_yardActs :
    Act.run ⟨0⟩ yardStart yardActs = (⟨0⟩ : EngineHandle).commit.after yardPut := by
  have base : (((depotMap "a").perform ⟨0⟩).after yardStart).maps[0]? =
      some (.direct (depotEmpty "a" 1)) := rfl
  have taken : (depotEmpty "a" 1).write [1] (.value [2]) = .ok (none, depotFull "a" 1) := rfl
  obtain ⟨put, -⟩ := Deed.called_direct (e := ⟨0⟩) (m := ⟨0⟩) (c := .put [1] [2]) base rfl taken
  show (⟨0⟩ : EngineHandle).commit.after
    ((Deed.called (.put [1] [2]) ⟨0⟩).after ⟨0⟩ (((depotMap "a").perform ⟨0⟩).after yardStart)) = _
  rw [put, yardPut]

/-- The map gets its file, and the notes stay. -/
theorem yard_touches_own_files :
    openWith depot (.onDisk yard) = .ok ⟨0⟩ yardStart ∧
      ((Act.run ⟨0⟩ yardStart yardActs).disk.node? ["s", "a-1.db"]).isSome ∧
      (Act.run ⟨0⟩ yardStart yardActs).disk.node? ["s", "notes"] = some (.file [1]) ∧
      ∃ name id, Act.Builds ⟨0⟩ yardStart yardActs name id ∧
        (["s", "a-1.db"] = ["s"] ++ [fileName name id] ∨
          ["s", "a-1.db"] = ["s"] ++ [MapFile.temporaryPath (fileName name id)]) := by
  have start : openWith depot (.onDisk yard) = .ok ⟨0⟩ yardStart := rfl
  have there : ((Act.run ⟨0⟩ yardStart yardActs).disk.node? ["s", "a-1.db"]).isSome := by
    rw [run_yardActs]
    decide +kernel
  have notes : (Act.run ⟨0⟩ yardStart yardActs).disk.node? ["s", "notes"] = some (.file [1]) := by
    rw [run_yardActs]
    decide +kernel
  have changed : (Act.run ⟨0⟩ yardStart yardActs).disk.node? ["s", "a-1.db"] ≠
      yardStart.disk.node? ["s", "a-1.db"] := by
    have before : yardStart.disk.node? ["s", "a-1.db"] = none := by decide +kernel
    rw [before]
    exact Option.isSome_iff_ne_none.1 there
  obtain ⟨-, touches, -⟩ := touches_own_files depot (.onDisk yard)
  obtain ⟨m, path, home, -⟩ | ⟨dir, here, name, id, directory, houses, builds, own⟩ :=
    touches ⟨0⟩ yardStart yardActs start _ changed
  · cases home
  · cases directory
    have located : yardStart.disk.locate? "s" = some ["s"] := by decide +kernel
    have place := houses.located
    rw [located] at place
    cases place
    exact ⟨start, there, notes, name, id, builds, own⟩

end EngineHandle

end MapStore
