/-
MapStore.Proofs.Numbering — how long a name keeps its id.

The ids that an engine gives to names are not written down anywhere but in the
names of artifacts. While the engine is open each name has an id of its own
(`MapIds.Proper`), and whatever is done, every artifact in the directory has
the id of its name (`Store.Numbers`): a file is only ever saved under the name
and id of a map that the engine built, and none is taken away.

So the artifacts of a directory that engines follow one another on
(`Disk.Succeeds`) always give each name one id and each id to one name
(`Disk.Numbered`), and a name that has an artifact keeps its id for good. A
name whose map was never saved with anything in it has none: then the id goes
with the engine, and the next engine gives it to whatever name comes first.
-/
import MapStore.Proofs.Footprint

namespace MapStore

open Artifact (fileName isValidName)

variable {dir name other : String} {here : Place} {ids ids' : MapIds} {id : MapId}

/-! ## Ids of an engine -/

namespace MapIds

/-- Names are valid, each has an id of its own, and none is above the last. -/
structure Proper (ids : MapIds) : Prop where
  ordered : ids.Ordered
  valid : ∀ name id, ids.get? name = some id → isValidName name = true
  own : ∀ name other id, ids.get? name = some id → ids.get? other = some id → other = name
  bounded : ∀ name id, ids.get? name = some id → id ≤ ids.lastId

/-- Names keep the ids that they have. -/
def Extends (ids ids' : MapIds) : Prop := ∀ name id, ids.get? name = some id →
  ids'.get? name = some id

/-- A name that is given an id keeps the one that it has. -/
theorem extends_of_idFor (ordered : ids.Ordered) (given : ids.idFor name = .ok (id, ids')) :
    ids.Extends ids' := by
  obtain ⟨-, gives, before⟩ := idFor_ok ordered given
  intro other id' had
  rw [gives]
  split
  · rename_i same
    subst same
    rcases before with none | some
    · rw [none] at had
      cases had
    · rw [← some, had]
  · exact had

/-- A new name is given the id after the last, which no other name has. -/
theorem Proper.idFor (h : ids.Proper) (valid : isValidName name = true)
    (given : ids.idFor name = .ok (id, ids')) : ids'.Proper := by
  obtain ⟨-, rfl⟩ | ⟨-, room, rfl, rfl⟩ := idFor_ends given
  · exact h
  have gives := fun other => get?_insert h.ordered (ids.lastId + 1) name other (ids.lastId + 1)
  have below : ∀ other id', ids.get? other = some id' → id' < ids.lastId + 1 :=
    fun other id' had => UInt32.lt_of_le_of_lt (h.bounded other id' had) (lt_succ_of_ne room)
  refine ⟨h.ordered, fun other id' had => ?_, fun first second id' had had' => ?_,
    fun other id' had => ?_⟩
  · rw [gives] at had
    split at had
    · rename_i same
      exact same ▸ valid
    · exact h.valid other id' had
  · rw [gives] at had had'
    split at had <;> split at had'
    · rename_i same same'
      exact same'.trans same.symm
    · cases had
      exact absurd (below second _ had') (UInt32.lt_irrefl _)
    · cases had'
      exact absurd (below first _ had) (UInt32.lt_irrefl _)
    · exact h.own first second id' had had'
  · rw [gives] at had
    split at had
    · cases had
      exact UInt32.le_refl _
    · exact UInt32.le_of_lt (below other id' had)

end MapIds

/-! ## Directories -/

namespace Disk

variable {disk disk' : Disk}

/-- The directory has the artifact of this name and id. -/
def HasArtifact (disk : Disk) (dir name : String) (id : MapId) : Prop :=
  ∃ files, disk.list dir = .ok files ∧ fileName name id ∈ files

theorem hasArtifact_iff (h : disk.Houses dir here) :
    disk.HasArtifact dir name id ↔ (disk.node? (here ++ [fileName name id])).isSome := by
  obtain ⟨files, listed, inside⟩ := list_of_houses h
  rw [← inside]
  constructor
  · rintro ⟨files', listed', mem⟩
    rw [listed] at listed'
    cases listed'
    exact mem
  · exact fun mem => ⟨files, listed, mem⟩

theorem HasArtifact.houses (h : disk.HasArtifact dir name id) : ∃ here, disk.Houses dir here := by
  obtain ⟨files, listed, -⟩ := h
  exact houses_of_list listed

/-- The directory, made if it is missing, holds nothing but what engines leave,
and its artifacts give each name one id and each id to one name. -/
structure Numbered (disk : Disk) (dir : String) : Prop where
  keptOnly : disk.KeptOnly dir
  single : ∀ files, (disk.makeDirectories dir).2.list dir = .ok files →
    ∀ name name' id id', isValidName name = true → isValidName name' = true →
      fileName name id ∈ files → fileName name' id' ∈ files → (name = name' ↔ id = id')

end Disk

namespace Store

variable {s s' : Store} {e : EngineHandle}

/-- The ids are those of the artifacts in the directory, and of all names whose
maps are saved there. -/
structure Numbers (s : Store) (dir : String) (here : Place) (ids : MapIds) : Prop where
  houses : s.disk.Houses dir here
  proper : ids.Proper
  kept : ∀ file, (s.disk.node? (here ++ [file])).isSome → IsKept file
  artifacts : ∀ name id, isValidName name = true → s.disk.HasArtifact dir name id →
    ids.get? name = some id
  homes : ∀ path, s.Home path → ∃ name id, ids.get? name = some id ∧
    path = Disk.join dir (fileName name id)

/-- The engine gives names these ids, unless it was closed. -/
def Gives (s : Store) (e : EngineHandle) (dir : String) (ids : MapIds) : Prop :=
  e.Ended s ∨ ∃ x, s.Works e x (some dir) ∧ x.ids = ids

namespace Numbers

theorem numbered (h : s.Numbers dir here ids) : s.disk.Numbered dir := by
  have made := Disk.makeDirectories_of_houses h.houses
  obtain ⟨files', listed', inside⟩ := Disk.list_of_houses h.houses
  constructor
  · intro files listed file mem
    rw [made, listed'] at listed
    cases listed
    exact h.kept file ((inside file).1 mem)
  · intro files listed name name' id id' valid valid' mem mem'
    rw [made] at listed
    have had := h.artifacts name id valid ⟨files, listed, mem⟩
    have had' := h.artifacts name' id' valid' ⟨files, listed, mem'⟩
    constructor
    · rintro rfl
      rw [had] at had'
      exact Option.some.inj had'
    · rintro rfl
      exact h.proper.own name' name id had' had

/-- What a save at the path of a map touches is an artifact with the id of its
name, or a file half written. -/
theorem touched (h : s.Numbers dir here ids) {path : String} {place : Place}
    (home : s.Home path) (saves : s.disk.SavesAt path place) : ∃ name id,
      isValidName name = true ∧ ids.get? name = some id ∧
        (place = here ++ [fileName name id] ∨
          place = here ++ [MapFile.temporaryPath (fileName name id)]) := by
  obtain ⟨name, id, own, rfl⟩ := h.homes path home
  have valid := h.proper.valid name id own
  exact ⟨name, id, valid, own, saves.inside h.houses (Artifact.isPlain_fileName valid id)⟩

/-- Saving files leaves the directory as it should be, and no artifact is taken
away. -/
theorem files (h : s.Numbers dir here ids) (files : s.Files s') :
    s'.Numbers dir here ids ∧ ∀ name id, isValidName name = true →
      s.disk.HasArtifact dir name id → s'.disk.HasArtifact dir name id := by
  obtain ⟨same, changes⟩ := files.disk.changes
  have houses := h.houses.congr same
  have homes : s'.Home = s.Home := by
    unfold Home Homes
    rw [files.homes]
  -- a file that is there was there or was saved
  have saved : ∀ file, (s'.disk.node? (here ++ [file])).isSome →
      (s.disk.node? (here ++ [file])).isSome ∨ ∃ name id, isValidName name = true ∧
        ids.get? name = some id ∧
          (file = fileName name id ∨ file = MapFile.temporaryPath (fileName name id)) := by
    intro file there
    by_cases unchanged : s'.disk.node? (here ++ [file]) = s.disk.node? (here ++ [file])
    · exact .inl (unchanged ▸ there)
    · obtain ⟨path, home, saves⟩ := changes _ unchanged
      obtain ⟨name, id, valid, own, place⟩ := h.touched home saves
      exact .inr ⟨name, id, valid, own, place.imp Disk.append_singleton_inj.1
        Disk.append_singleton_inj.1⟩
  refine ⟨⟨houses, h.proper, fun file there => ?_, fun name id valid there => ?_,
    homes ▸ h.homes⟩, fun name id valid there => ?_⟩
  · obtain before | ⟨name, id, valid, -, rfl | rfl⟩ := saved file there
    · exact h.kept file before
    · exact .inl ⟨name, id, valid, rfl⟩
    · exact .inr ⟨_, rfl⟩
  · rw [Disk.hasArtifact_iff houses] at there
    obtain before | ⟨name', id', valid', own, eq | eq⟩ := saved _ there
    · exact h.artifacts name id valid ((Disk.hasArtifact_iff h.houses).2 before)
    · obtain ⟨rfl, rfl⟩ := Artifact.fileName_inj eq
      exact own
    · exact absurd eq (Artifact.fileName_ne_temporaryPath _ id _)
  · rw [Disk.hasArtifact_iff h.houses] at there
    rw [Disk.hasArtifact_iff houses]
    refine files.disk.keeps there fun path home located => ?_
    obtain ⟨name', id', own, rfl⟩ := h.homes path home
    have plain := Artifact.isPlain_fileName (h.proper.valid name' id' own) id'
    have place := Disk.place_of_temporary h.houses plain located
    exact Artifact.fileName_ne_temporaryPath _ id _ (Disk.append_singleton_inj.1 place)

theorem worksOrEnded (h : s.Numbers dir here ids) (gives : s.Gives e dir ids) :
    Act.WorksOrEnded s e (some dir) := by
  rcases gives with ended | ⟨x, works, rfl⟩
  · exact .inl ended
  · exact .inr ⟨x, works, h.proper.ordered⟩

/-- An act may give a name an id, and leaves the directory as it should be; no
artifact is taken away. -/
theorem act (h : s.Numbers dir here ids) (gives : s.Gives e dir ids) (act : Act) :
    ∃ ids', ids.Extends ids' ∧ (act.after e s).Numbers dir here ids' ∧
      (act.after e s).Gives e dir ids' ∧ ∀ name id, isValidName name = true →
        s.disk.HasArtifact dir name id → (act.after e s).disk.HasArtifact dir name id := by
  have effect := Act.effectOnFiles (h.worksOrEnded gives) act
  generalize act.after e s = s' at effect
  cases effect with
  | moves steps files =>
    obtain ⟨numbers, keeps⟩ := h.files files
    refine ⟨ids, fun _ _ had => had, numbers, ?_, keeps⟩
    rcases gives with ended | ⟨x, works, same⟩
    · exact .inl (ended.congr steps.engines)
    · exact .inr ⟨x, works.modeSteps steps, same⟩
  | ends files ended =>
    obtain ⟨numbers, keeps⟩ := h.files files
    exact ⟨ids, fun _ _ had => had, numbers, .inl ended, keeps⟩
  | @opens x o works ordered =>
    obtain rfl : x.ids = ids := by
      rcases gives with ended | ⟨y, works', rfl⟩
      · exact absurd ended works.not_ended
      · exact congrArg Engine.ids (Option.some.inj (works.engine.symm.trans works'.engine))
    obtain ⟨x', works', disk, given, homes⟩ := o.files works ordered
    obtain ⟨proper, grows⟩ : x'.ids.Proper ∧ x.ids.Extends x'.ids := by
      obtain same | ⟨valid, id, given⟩ := given
      · rw [same]
        exact ⟨h.proper, fun _ _ had => had⟩
      · exact ⟨h.proper.idFor valid given, MapIds.extends_of_idFor h.proper.ordered given⟩
    refine ⟨x'.ids, grows,
      ⟨disk ▸ h.houses, proper, disk ▸ h.kept, fun name id valid there => ?_, ?_⟩,
      .inr ⟨x', works', rfl⟩, fun name id valid there => disk ▸ there⟩
    · rw [disk] at there
      exact grows name id (h.artifacts name id valid there)
    · rintro path ⟨k, -, home⟩
      obtain old | ⟨id, -, own, eq⟩ := homes k path home
      · obtain ⟨name, id, own, eq⟩ := h.homes path ⟨k, trivial, old⟩
        exact ⟨name, id, grows name id own, eq⟩
      · exact ⟨o.name, id, own, (Option.some.inj eq).symm⟩

/-- Any acts. -/
theorem run (h : s.Numbers dir here ids) (gives : s.Gives e dir ids) (acts : List Act) :
    ∃ ids', ids.Extends ids' ∧ (Act.run e s acts).Numbers dir here ids' ∧
      (Act.run e s acts).Gives e dir ids' ∧ ∀ name id, isValidName name = true →
        s.disk.HasArtifact dir name id → (Act.run e s acts).disk.HasArtifact dir name id := by
  induction acts generalizing s ids with
  | nil => exact ⟨ids, fun _ _ had => had, h, gives, fun _ _ _ there => there⟩
  | cons act rest ih =>
    obtain ⟨ids₁, grows, numbers, gives₁, keeps⟩ := h.act gives act
    obtain ⟨ids', grows', numbers', gives', keeps'⟩ := ih numbers gives₁
    exact ⟨ids', fun name id had => grows' name id (grows name id had), numbers', gives',
      fun name id valid there => keeps' name id valid (keeps name id valid there)⟩

end Numbers

end Store

/-! ## Opening an engine -/

namespace EngineHandle

open Store

variable {config : Config} {disk : Disk} {e : EngineHandle} {s : Store} {files : List String}

/-- The ids of an engine that starts on a directory are those of the artifacts
there. -/
theorem numbers_of_recovered (numbered : disk.Numbered dir)
    (listed : (disk.makeDirectories dir).2.list dir = .ok files)
    (recovered : MapIds.recover config.recoveryPolicy files = .ok ids) :
    ∃ here, (booted config ids (disk.makeDirectories dir).2 (.onDisk disk)).Numbers dir here ids ∧
      ∀ name id, ids.get? name = some id → fileName name id ∈ files := by
  obtain ⟨here, houses⟩ := Disk.houses_of_list listed
  have recovers := MapIds.recovers_of_recover recovered
  have kept := numbered.keptOnly files listed
  obtain ⟨files', listed', inside⟩ := Disk.list_of_houses houses
  rw [listed] at listed'
  cases listed'
  have found : ∀ name id, ids.get? name = some id →
      isValidName name = true ∧ fileName name id ∈ files := by
    intro name id had
    obtain none | ⟨file, mem, parsed⟩ := recovers.found name id had
    · cases none
    · obtain ⟨r, parsed', names⟩ := (kept file mem).parse
      rw [parsed] at parsed'
      cases parsed'
      obtain ⟨valid, rfl⟩ := names name id rfl
      exact ⟨valid, mem⟩
  have single := numbered.single files listed
  refine ⟨here, ⟨houses, ⟨recovers.ordered, fun name id had => (found name id had).1,
    fun name other id had had' => ?_, recovers.bounded nofun⟩,
    fun file there => kept file ((inside file).2 there), fun name id valid there => ?_, ?_⟩,
    fun name id had => (found name id had).2⟩
  · obtain ⟨valid, mem⟩ := found name id had
    obtain ⟨valid', mem'⟩ := found other id had'
    exact (single other name id id valid' valid mem' mem).2 rfl
  · have mem := (inside _).2 ((Disk.hasArtifact_iff houses).1 there)
    obtain ⟨last, had, -⟩ := recovers.known _ mem name id (Artifact.parse_fileName valid id)
    obtain ⟨-, mem'⟩ := found name last had
    obtain rfl := (single name name id last valid valid mem mem').1 rfl
    exact had
  · rintro path ⟨m, -, home⟩
    cases home

theorem numbers_of_openWith (numbered : disk.Numbered dir)
    (directory : config.storageDir = some dir)
    (start : openWith config (.onDisk disk) = .ok e s) :
    ∃ here x, s.Works e x (some dir) ∧ s.Numbers dir here x.ids ∧
      (∀ name id, x.ids.get? name = some id → s.disk.HasArtifact dir name id) ∧
      ∀ here, disk.Houses dir here → s.disk = disk := by
  obtain ⟨-, ⟨x, works, -⟩, -⟩ := works_of_openWith start
  obtain ⟨files, ids, listed, recovered, rfl, rfl⟩ := openWith_recovers directory start
  obtain ⟨here, numbers, found⟩ := numbers_of_recovered numbered listed recovered
  rw [directory] at works
  have same : x = fresh config ids ⟨(Store.onDisk disk).live.length⟩ :=
    Option.some.inj
      (works.engine.symm.trans (serves_booted directory numbers.proper.ordered).engine)
  subst same
  exact ⟨here, _, works, numbers, fun name id had => ⟨files, listed, found name id had⟩,
    fun _ houses => congrArg Prod.snd (Disk.makeDirectories_of_houses houses)⟩

/-- An engine can be opened on a directory that engines left. -/
theorem opens_of_numbered (numbered : disk.Numbered dir) (houses : disk.Houses dir here)
    (directory : config.storageDir = some dir) :
    ∃ e s, openWith config (.onDisk disk) = .ok e s := by
  have made := Disk.makeDirectories_of_houses houses
  obtain ⟨files, listed, -⟩ := Disk.list_of_houses houses
  have listed' : (disk.makeDirectories dir).2.list dir = .ok files := by rw [made, listed]
  obtain ⟨ids, recovered⟩ :=
    MapIds.recover_kept config.recoveryPolicy (numbered.keptOnly files listed')
  exact ⟨_, _, openWith_of_recovered (s := .onDisk disk) directory (congrArg Prod.fst made) listed'
    recovered⟩

end EngineHandle

/-! ## Engines after one another -/

/-- Engines follow one another on the directory, each on the disk that the one
before left, whatever is done with them. -/
inductive Disk.Succeeds (dir : String) (disk : Disk) : Disk → Prop
  | refl : Succeeds dir disk disk
  | engine {config : Config} {disk' : Disk} {e : EngineHandle} {s : Store}
      (before : Succeeds dir disk disk') (directory : config.storageDir = some dir)
      (start : EngineHandle.openWith config (.onDisk disk') = .ok e s) (acts : List Act) :
      Succeeds dir disk (Act.run e s acts).disk

/-- A directory that engines follow one another on stays as it should be, and
keeps its artifacts. -/
theorem Disk.Numbered.succeeds {disk disk' : Disk} (h : disk.Numbered dir)
    (later : disk.Succeeds dir disk') :
    disk'.Numbered dir ∧ ∀ name id, isValidName name = true →
      disk.HasArtifact dir name id → disk'.HasArtifact dir name id := by
  induction later with
  | refl => exact ⟨h, fun _ _ _ there => there⟩
  | @engine config disk₁ e s before directory start acts ih =>
    obtain ⟨numbered, keeps⟩ := ih
    obtain ⟨here, x, works, numbers, -, kept⟩ :=
      EngineHandle.numbers_of_openWith numbered directory start
    obtain ⟨ids', -, numbers', -, keeps'⟩ := numbers.run (.inr ⟨x, works, rfl⟩) acts
    refine ⟨numbers'.numbered, fun name id valid there => keeps' name id valid ?_⟩
    have there := keeps name id valid there
    obtain ⟨here', houses⟩ := there.houses
    rwa [kept here' houses]

/-! ## Names that have an id -/

/-- The engine, if it is open, has the id for the name, and a map that it
answers has this id if it was asked for under the name, and another one if
not. -/
structure EngineHandle.Reserves (e : EngineHandle) (name : String) (id : MapId) (s : Store) :
    Prop where
  known : e.isOpen s = true → e.mapId name s = .ok (some id) s
  answers : ∀ (o : Opening) m s', o.perform e s = .ok m s' →
    ∃ id', m.identity s' = .ok (o.name, id') s' ∧ (id' = id ↔ o.name = name)

/-- Table and live-sets of an engine agree, or it was closed. -/
def Store.Registered (s : Store) (e : EngineHandle) : Prop :=
  e.Ended s ∨ ∃ x, s.engines[e.index]? = some x ∧ s.Registry x

namespace Store

variable {s s' : Store} {e : EngineHandle}

theorem Registered.act (h : s.Registered e) {storage : Option String}
    (worksOrEnded : Act.WorksOrEnded s e storage) (act : Act) : (act.after e s).Registered e := by
  have effect := Act.effectOnFiles worksOrEnded act
  generalize act.after e s = s' at effect
  cases effect with
  | moves steps files =>
    rcases h with ended | ⟨x, engine, registry⟩
    · exact .inl (ended.congr steps.engines)
    · exact .inr ⟨x, by rw [steps.engines, engine], registry.modeSteps steps⟩
  | ends files ended => exact .inl ended
  | opens o works ordered =>
    rcases h with ended | ⟨x, engine, registry⟩
    · exact absurd ended works.not_ended
    · have leaves := o.leaves engine registry
      obtain ⟨m, run⟩ | ⟨fault, run⟩ := Action.ends (o.perform e) s
      · rw [run] at leaves
        obtain ⟨x', engine', registry', -⟩ := leaves
        exact .inr ⟨x', engine', registry'⟩
      · rw [run] at leaves
        obtain ⟨x', engine', registry', -⟩ := leaves
        exact .inr ⟨x', engine', registry'⟩

theorem Registered.run (h : s.Registered e) {storage : Option String}
    (worksOrEnded : Act.WorksOrEnded s e storage) (acts : List Act) :
    (Act.run e s acts).Registered e := by
  induction acts generalizing s with
  | nil => exact h
  | cons act rest ih => exact ih (h.act worksOrEnded act) (Act.files_step worksOrEnded act).1

namespace Numbers

/-- A name that has an id has it to itself. -/
theorem reserves (h : s.Numbers dir here ids) (gives : s.Gives e dir ids)
    (registered : s.Registered e) (had : ids.get? name = some id) : e.Reserves name id s := by
  constructor
  · intro isOpen
    rcases gives with ended | ⟨x, works, rfl⟩
    · rw [ended.notOpen] at isOpen
      cases isOpen
    · simp [EngineHandle.mapId, EngineHandle.run_state works.engine, had]
  · intro o m s' run
    obtain ⟨ids', grows, numbers', gives', -⟩ := h.act gives (.deed (.opened o))
    have after : (Act.deed (.opened o)).after e s = s' := Action.after_of_ok run
    rw [after] at numbers' gives'
    rcases registered with ended | ⟨x, engine, registry⟩
    · obtain ⟨cause, refused, -⟩ := EngineHandle.perform_refused ended o
      rw [refused] at run
      cases run
    have leaves := o.leaves engine registry
    rw [run] at leaves
    obtain ⟨x', engine', registry', -, named⟩ := leaves
    obtain ⟨id', identity, known⟩ :=
      EngineHandle.Run.identity_of_registered registry' engine' named
    -- the id that the map has is the engine's
    have own : ids'.get? o.name = some id' := by
      obtain ⟨y, engine'', closed⟩ | ⟨y, works, rfl⟩ := gives'
      · obtain rfl : x' = y := Option.some.inj (engine'.symm.trans engine'')
        rw [registry'.isOpen] at closed
        cases closed
      · obtain rfl : x' = y := Option.some.inj (engine'.symm.trans works.engine)
        simpa [EngineHandle.mapId, EngineHandle.run_state engine'] using known
    have had' := grows name id had
    refine ⟨id', identity, fun same => ?_, fun same => ?_⟩
    · subst same
      exact numbers'.proper.own name o.name id' had' own
    · rw [same, had'] at own
      exact (Option.some.inj own).symm

/-- It keeps it to itself, whatever is done. -/
theorem reserves_run (h : s.Numbers dir here ids) (gives : s.Gives e dir ids)
    (registered : s.Registered e) (had : ids.get? name = some id) (acts : List Act) :
    e.Reserves name id (Act.run e s acts) := by
  obtain ⟨ids', grows, numbers, gives', -⟩ := h.run gives acts
  exact numbers.reserves gives' (registered.run (h.worksOrEnded gives) acts) (grows name id had)

end Numbers

/-- What a map shows when its engine is closed is in its artifact then. -/
theorem Housed.artifact {x : Engine} {m : MapHandle} {st : MapState} {keyType : DataType}
    (h : s.Housed e x dir here) (closed : e.close s = .ok () s')
    (given : x.maps.get? name = some m) (state : s.maps[m.index]? = some st)
    (lasting : st.keyType? = some keyType) (had : x.ids.get? name = some id) :
    ∃ entries, m.entries s = .ok entries s ∧ (entries ≠ [] →
      (MapFile.encodePayload name entries).length < Bytes.capacity 8 →
        s'.disk.HasArtifact dir name id) := by
  obtain ⟨b, d, waiting, rests, rfl, -⟩ := h.furnished.rests given state lasting
  obtain ⟨-, kept, -, answered⟩ := Deed.close_ends h
  obtain ⟨shut, carries⟩ := answered s' closed
  rw [Action.after_of_ok closed] at kept
  obtain ⟨d', waiting', rests', base, content, -, -⟩ := carries d.name m given b d waiting rests
  refine ⟨_, h.furnished.entries rests, fun entry fits => ?_⟩
  have restores := kept.restores shut.toSettled rests'
  rw [base, content] at restores
  obtain ⟨stored, read, shows⟩ := restores.stored fits
  have own : x.ids.get? d.name = some d.id :=
    (h.furnished.kept.filed.named b d.toBase rests.role).2.2
  rw [had] at own
  obtain rfl := Option.some.inj own
  by_contra gone
  rw [Disk.hasArtifact_iff kept.shelved.houses, Option.not_isSome_iff_eq_none] at gone
  have absent : DirectMap.storedEntries
      (DirectMap.settingsIn d.toBase.name d.toBase.id dir) s'.disk = .ok [] :=
    kept.shelved.absent restores.valid gone
  rw [absent] at read
  cases read
  exact entry shows.symm

end Store

/-! ## After a restart -/

namespace EngineHandle

variable {config : Config} {disk : Disk} {e : EngineHandle} {s : Store}

theorem registered_of_openWith (start : openWith config (.onDisk disk) = .ok e s) :
    s.Registered e := by
  have placed : (Store.onDisk disk).Placed := nofun
  exact .inr (openWith_registry placed start)

/-- An engine on a directory keeps the ids of the artifacts there for their
names. -/
theorem reserves_of_artifact (numbered : disk.Numbered dir) (valid : isValidName name = true)
    (there : disk.HasArtifact dir name id) (directory : config.storageDir = some dir) :
    ∃ e s, openWith config (.onDisk disk) = .ok e s ∧
      ∀ acts, e.Reserves name id (Act.run e s acts) := by
  obtain ⟨here, houses⟩ := there.houses
  obtain ⟨e, s, start⟩ := opens_of_numbered numbered houses directory
  obtain ⟨here', x, works, numbers, -, kept⟩ := numbers_of_openWith numbered directory start
  have had := numbers.artifacts name id valid (kept here houses ▸ there)
  exact ⟨e, s, start,
    numbers.reserves_run (.inr ⟨x, works, rfl⟩) (registered_of_openWith start) had⟩

/-- It knows no id for a name that has no artifact. -/
theorem unknown_of_no_artifact (numbered : disk.Numbered dir) (houses : disk.Houses dir here)
    (gone : ∀ id, ¬ disk.HasArtifact dir name id) (directory : config.storageDir = some dir) :
    ∃ e s, openWith config (.onDisk disk) = .ok e s ∧ e.mapId name s = .ok none s := by
  obtain ⟨e, s, start⟩ := opens_of_numbered numbered houses directory
  obtain ⟨here', x, works, -, found, kept⟩ := numbers_of_openWith numbered directory start
  refine ⟨e, s, start, ?_⟩
  have unknown : x.ids.get? name = none := by
    cases had : x.ids.get? name with
    | none => rfl
    | some id => exact absurd (kept here houses ▸ found name id had) (gone id)
  simp [mapId, run_state works.engine, unknown]

end EngineHandle

theorem Act.run_deeds (e : EngineHandle) (s : Store) (deeds : List Deed) :
    Act.run e s (deeds.map .deed) = s.through e deeds := by
  unfold Act.run Store.through
  rw [List.foldl_map]
  rfl

theorem Moment.store_run (e : EngineHandle) (p : Moment) (deeds : List Deed) :
    (p.run e deeds).store = p.store.through e deeds := by
  induction deeds generalizing p with
  | nil => rfl
  | cons deed rest ih => exact ih (p.next e deed)

/-- Engines follow one another on a directory, and one of them has an id for a
name when it is closed, and the close is answered. As long as that engine is
there the name has the id to itself. After it this depends on the artifact of
the name and the id. If there is one, every later engine has this id for the name
and gives it to no other, whatever is done with it and with those before it. If
there is none, the next engine knows no id for the name. There is one if there was
one before, or if the map of the name shows any entries at the close. -/
theorem ids_last_with_artifacts {config : Config} {disk₀ disk : Disk} {e : EngineHandle}
    {s p s' : Store} {deeds : List Deed} (numbered : disk₀.Numbered dir)
    (earlier : disk₀.Succeeds dir disk) (directory : config.storageDir = some dir)
    (start : EngineHandle.openWith config (.onDisk disk) = .ok e s)
    (lawful : ∀ deed ∈ deeds, deed.Lawful) (reached : p = s.through e deeds)
    (isOpen : e.isOpen p = true) (known : e.mapId name p = .ok (some id) p)
    (closed : e.close p = .ok () s') :
    (∀ acts, e.Reserves name id (Act.run e p acts)) ∧
    (disk.HasArtifact dir name id → s'.disk.HasArtifact dir name id) ∧
    (∀ x m st keyType, p.engines[e.index]? = some x → x.maps.get? name = some m →
      p.maps[m.index]? = some st → st.keyType? = some keyType →
        ∃ entries, m.entries p = .ok entries p ∧ (entries ≠ [] →
          (MapFile.encodePayload name entries).length < Bytes.capacity 8 →
            s'.disk.HasArtifact dir name id)) ∧
    (s'.disk.HasArtifact dir name id → ∀ disk' config', s'.disk.Succeeds dir disk' →
      config'.storageDir = some dir → ∃ e' t,
        EngineHandle.openWith config' (.onDisk disk') = .ok e' t ∧
          ∀ acts, e'.Reserves name id (Act.run e' t acts)) ∧
    (¬ s'.disk.HasArtifact dir name id → ∀ config', config'.storageDir = some dir → ∃ e' t,
      EngineHandle.openWith config' (.onDisk s'.disk) = .ok e' t ∧
        e'.mapId name t = .ok none t) := by
  obtain ⟨numbered, -⟩ := numbered.succeeds earlier
  obtain ⟨_, sound⟩ := EngineHandle.sound_of_openWith directory numbered.keptOnly start
  have sound := sound.run deeds lawful
  obtain ⟨here, x₀, works₀, numbers₀, -, kept⟩ :=
    EngineHandle.numbers_of_openWith numbered directory start
  -- the engine before the close
  obtain ⟨ids, -, numbers, gives, keeps⟩ :=
    numbers₀.run (.inr ⟨x₀, works₀, rfl⟩) (deeds.map .deed)
  have registered := (EngineHandle.registered_of_openWith start).run
    (numbers₀.worksOrEnded (.inr ⟨x₀, works₀, rfl⟩)) (deeds.map .deed)
  have same : (Moment.run e ⟨s, .unsaved⟩ deeds).store = p :=
    (Moment.store_run e _ deeds).trans reached.symm
  rw [Act.run_deeds, ← reached] at numbers gives keeps registered
  obtain ⟨x, works, rfl⟩ := gives.resolve_left fun ended => by simp [ended.notOpen] at isOpen
  have had : x.ids.get? name = some id := by
    simpa [EngineHandle.mapId, EngineHandle.run_state works.engine] using known
  have valid := numbers.proper.valid name id had
  have reserved := numbers.reserves_run (.inr ⟨x, works, rfl⟩) registered had
  -- the close
  obtain ⟨ids', grows, numbers', -, keeps'⟩ :=
    numbers.act (.inr ⟨x, works, rfl⟩) (.deed .closed)
  have after : (Act.deed .closed).after e p = s' := Action.after_of_ok closed
  rw [after] at numbers' keeps'
  refine ⟨reserved, fun there => ?_, fun y m st keyType engine given state lasting => ?_,
    fun there disk' config' later directory' => ?_, fun gone config' directory' => ?_⟩
  · obtain ⟨here', houses⟩ := there.houses
    exact keeps' name id valid (keeps name id valid (kept here' houses ▸ there))
  · obtain rfl : x = y := Option.some.inj (works.engine.symm.trans engine)
    cases sound with
    | ended ended => exact absurd (same ▸ ended) works.not_ended
    | @running y housed notShut saved =>
      rw [same] at housed
      obtain rfl : x = y := Option.some.inj (works.engine.symm.trans housed.engine)
      exact housed.artifact closed given state lasting had
  · obtain ⟨numbered', keeps''⟩ := numbers'.numbered.succeeds later
    exact EngineHandle.reserves_of_artifact numbered' valid (keeps'' name id valid there) directory'
  · refine EngineHandle.unknown_of_no_artifact numbers'.numbered numbers'.houses
      (fun id' there => ?_)
      directory'
    -- an artifact of the name would have the id that it was given
    have own := (numbers'.artifacts name id' valid there).symm.trans (grows name id had)
    obtain rfl := Option.some.inj own
    exact gone there

/-- A map of the depot that an entry was put into keeps its id. -/
theorem depot_id_lasts :
    ∃ s', (⟨0⟩ : EngineHandle).close depotPut.store = .ok () s' ∧
      s'.disk.HasArtifact "s" "a" 1 ∧
      ∃ e' t, EngineHandle.openWith depot (.onDisk s'.disk) = .ok e' t ∧
        ∀ acts, e'.Reserves "a" 1 (Act.run e' t acts) := by
  have directory : depot.storageDir = some "s" := rfl
  have start : EngineHandle.openWith depot (.onDisk .empty) = .ok ⟨0⟩ depotStart := rfl
  have listing : (Disk.empty.makeDirectories "s").2.list "s" = .ok [] := by decide +kernel
  have numbered : Disk.empty.Numbered "s" := by
    constructor <;> intro files listed <;> rw [listing] at listed <;> cases listed
    · exact nofun
    · exact nofun
  have lawful : ∀ deed ∈ depotDeeds, deed.Lawful := by
    have bytes : Std.TransCmp DataType.bytes.compare := inferInstanceAs (Std.TransCmp Bytes.compare)
    simp [depotDeeds, Deed.Lawful, depotMap, bytes]
  have reached : depotPut.store = depotStart.through ⟨0⟩ depotDeeds := by
    rw [← run_depotDeeds, Moment.store_run]
  have isOpen : (⟨0⟩ : EngineHandle).isOpen depotPut.store = true := by decide +kernel
  have known : (⟨0⟩ : EngineHandle).mapId "a" depotPut.store = .ok (some 1) depotPut.store := rfl
  obtain ⟨s', closed⟩ : ∃ s', (⟨0⟩ : EngineHandle).close depotPut.store = .ok () s' := by
    have shut : Deed.closed.secures ⟨0⟩ depotPut.store = some .shut := by decide +kernel
    cases run : (⟨0⟩ : EngineHandle).close depotPut.store with
    | ok done s' => exact ⟨s', rfl⟩
    | error fault s' => simp [Deed.secures, run] at shut
  obtain ⟨-, -, shows, lasts, -⟩ :=
    ids_last_with_artifacts numbered .refl directory start lawful reached isOpen known closed
  -- the map shows the entry at the close
  have named : (depotPut.store.engines[0]?).map (·.maps.get? "a") = some (some ⟨0⟩) := by
    decide +kernel
  obtain ⟨x, engine, given⟩ := Option.map_eq_some_iff.1 named
  have state : depotPut.store.maps[0]? = some (.direct (depotFull "a" 1)) := rfl
  obtain ⟨entries, listed, there⟩ := shows x ⟨0⟩ _ .bytes engine given state rfl
  obtain rfl : entries = [([1], [2])] := by
    rw [MapHandle.entries_open state rfl] at listed
    exact (EStateM.Result.ok.inj listed).1.symm
  have there := there (by simp) (by decide +kernel)
  exact ⟨s', closed, there, lasts there s'.disk depot .refl directory⟩

/-- The depot with a map that nothing was put into. -/
def depotBare : Store := ((depotMap "a").perform ⟨0⟩).after depotStart

/-- The same, closed. -/
def depotLeft : Store := (⟨0⟩ : EngineHandle).close.after depotBare

theorem depotBare_close :
    (⟨0⟩ : EngineHandle).close depotBare = .ok () depotLeft ∧ depotLeft.disk = depotStart.disk := by
  obtain ⟨x, engine, isOpen, listed⟩ : ∃ x, depotBare.engines[0]? = some x ∧ x.closed = false ∧
      x.maps.values = [⟨0⟩] := ⟨_, rfl, rfl, by decide +kernel⟩
  have state : (EngineHandle.closing ⟨0⟩ x depotBare).maps[0]? =
      some (.direct (depotEmpty "a" 1)) := rfl
  have clean : (depotEmpty "a" 1).close (EngineHandle.closing ⟨0⟩ x depotBare).disk =
      (.ok (), { depotEmpty "a" 1 with closed := true }, depotStart.disk) := rfl
  obtain ⟨s₁, eq⟩ : ∃ s₁, s₁ = Store.set
      { EngineHandle.closing ⟨0⟩ x depotBare with disk := depotStart.disk } ⟨0⟩
      (.direct { depotEmpty "a" 1 with closed := true }) := ⟨_, rfl⟩
  have closes : (⟨0⟩ : MapHandle).close (EngineHandle.closing ⟨0⟩ x depotBare) = .ok () s₁ := by
    rw [MapHandle.close_direct state]
    simp [clean, eq]
  have each : EngineHandle.forEachMap MapHandle.close x.maps.values
      (EngineHandle.closing ⟨0⟩ x depotBare) = .ok () s₁ := by
    rw [listed]
    simp [EngineHandle.forEachMap, closes, EngineHandle.firstFailure]
  have closed : s₁.engines[(⟨0⟩ : EngineHandle).index]? =
      some { x with closed := true, running := false, maps := x.maps.clear } := by
    rw [eq]
    exact EngineHandle.engine_withEngine _ engine
  have run := EngineHandle.run_close engine isOpen
  rw [Action.run_bind, Action.run_attempt, each] at run
  have run := run.trans (EngineHandle.run_forget x.live closed)
  have left := Action.after_of_ok run
  refine ⟨?_, ?_⟩
  · rw [depotLeft, left, run]
  · rw [depotLeft, left, eq]
    rfl

/-- The next engine on the depot. -/
def depotNext : Store := (EngineHandle.openWith depot).after (.onDisk depotStart.disk)

/-- The name that comes first there. -/
def depotTaken : Store := ((depotMap "b").perform ⟨0⟩).after depotNext

/-- The name that had the id is asked for again. -/
def depotLate : Store := ((depotMap "a").perform ⟨0⟩).after depotTaken

/-- A map has the id 1 in an engine whose close is answered; in the next engine
another name is given this id, and its own name another one. -/
theorem depot_id_lost :
    EngineHandle.openWith depot (.onDisk .empty) = .ok ⟨0⟩ depotStart ∧
    (depotMap "a").perform ⟨0⟩ depotStart = .ok ⟨0⟩ depotBare ∧
    (⟨0⟩ : MapHandle).identity depotBare = .ok ("a", 1) depotBare ∧
    (⟨0⟩ : EngineHandle).close depotBare = .ok () depotLeft ∧
    EngineHandle.openWith depot (.onDisk depotLeft.disk) = .ok ⟨0⟩ depotNext ∧
    (depotMap "b").perform ⟨0⟩ depotNext = .ok ⟨0⟩ depotTaken ∧
    (⟨0⟩ : MapHandle).identity depotTaken = .ok ("b", 1) depotTaken ∧
    (depotMap "a").perform ⟨0⟩ depotTaken = .ok ⟨1⟩ depotLate ∧
    (⟨1⟩ : MapHandle).identity depotLate = .ok ("a", 2) depotLate := by
  obtain ⟨closed, left⟩ := depotBare_close
  have again : EngineHandle.openWith depot (.onDisk depotLeft.disk) = .ok ⟨0⟩ depotNext := by
    rw [left]
    rfl
  exact ⟨rfl, rfl, rfl, closed, again, rfl, rfl, rfl, rfl⟩

end MapStore
