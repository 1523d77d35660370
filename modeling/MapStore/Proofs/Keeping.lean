/-
MapStore.Proofs.Keeping — what the maps of an engine keep in its directory.

While an engine runs its directory holds nothing but artifacts and files half
written (`Shelved`), and of a map with an artifact the one with its own id is
the latest. Each direct map has a name and an id of its own and the path that
belongs to them (`Filed`). A map without a change that is not saved is on the
disk as it is (`UpToDate`): loading it again gives the entries that it has
(`Held`).

`Kept` puts these together. Each move keeps them, whichever map it is of: only
a save changes the disk, and it changes there what belongs to its own map.
-/
import MapStore.Proofs.Codec
import MapStore.Proofs.Recovering
import MapStore.Proofs.UpkeepMoves

namespace MapStore

open Artifact (fileName isValidName)

/-! ## What is loaded -/

namespace DirectMap

variable {d d' : DirectMap} {disk disk' : Disk} {settings : MapSettings} {path : String}

/-- What is loaded depends on what is at the path of the artifact alone. -/
theorem storedEntries_congr (h : settings.artifactPath = some path)
    (same : disk'.at? path = disk.at? path) :
    storedEntries settings disk' = storedEntries settings disk := by
  have present : disk'.isPresent path = disk.isPresent path := by
    rw [Disk.isPresent, Disk.isPresent, same]
  have loaded : loadEntries settings path disk' = loadEntries settings path disk := by
    rw [loadEntries, loadEntries, MapFile.load, MapFile.load, Disk.read, Disk.read, same]
  simp only [storedEntries, h, present, loaded]

/-- Of a map without an artifact nothing is loaded. -/
theorem storedEntries_absent (h : settings.artifactPath = some path)
    (absent : disk.at? path = none) :
    storedEntries settings disk = .ok [] := by
  simp [storedEntries, h, Disk.isPresent, absent]

/-- A file that was written for the map is loaded. -/
theorem storedEntries_encode {file : MapFile} (h : settings.artifactPath = some path)
    (there : disk.at? path = some (.file file.encode)) (name : file.name = settings.name)
    (id : file.id = settings.id)
    (fits : (MapFile.encodePayload file.name file.entries).length < Bytes.capacity 8) :
    storedEntries settings disk = .ok file.entries := by
  have decoded := MapFile.decode_encode file fits
  simp [storedEntries, h, Disk.isPresent, loadEntries, MapFile.load, Disk.read, there, decoded,
    Except.mapError, name, id]

/-- What an engine on the directory says of the map. -/
def settingsIn (name : String) (id : MapId) (dir : String) : MapSettings :=
  { name, id, storageDir := some dir, options := .empty compare }

/-- The entries can be written into one file. -/
def Fits (d : DirectMap) : Prop :=
  (MapFile.encodePayload d.name d.table.toList).length < Bytes.capacity 8

/-- Loading the map again gives the entries that it has. -/
def Held (d : DirectMap) (dir : String) (disk : Disk) : Prop :=
  d.Fits → ∃ entries, storedEntries (settingsIn d.name d.id dir) disk = .ok entries ∧
    (SortedTable.ofList d.keyType.compare entries).toList = d.table.toList

theorem Held.congr (h : d.Held dir disk) (name : d'.name = d.name) (id : d'.id = d.id)
    (keyType : d'.keyType = d.keyType) (entries : d'.table.toList = d.table.toList)
    (same : disk'.at? (Disk.join dir (fileName d.name d.id)) =
      disk.at? (Disk.join dir (fileName d.name d.id))) : d'.Held dir disk' := by
  intro fits
  unfold Fits at fits
  rw [name, entries] at fits
  obtain ⟨stored, loaded, list⟩ := h fits
  refine ⟨stored, ?_, by rw [keyType, list, entries]⟩
  rw [name, id, ← loaded]
  exact storedEntries_congr rfl same

/-- The file of a map holds what the map shows. -/
theorem held_of_written [Std.TransCmp d.table.order] (order : d.table.order = d.keyType.compare)
    (there : disk.at? (Disk.join dir (fileName d.name d.id)) = some (.file d.file.encode)) :
    d.Held dir disk := by
  intro fits
  have same := SortedTable.same_ofList_toList d.table
  rw [order] at same
  exact ⟨d.file.entries, storedEntries_encode rfl there rfl rfl fits, same.toList⟩

/-- A write that leaves the map not dirty changed nothing. -/
theorem of_write_clean {key : Bytes} {c : Change} {previous : Option Bytes}
    (lawful : Std.TransCmp d.table.order) (h : d.write key c = .ok (previous, d'))
    (clean : d'.dirty = false) :
    d.dirty = false ∧ d'.table.toList = d.table.toList := by
  obtain ⟨-, rfl⟩ := of_write h
  simp only [Bool.or_eq_false_iff] at clean
  obtain ⟨before, notValue, absent⟩ := clean
  refine ⟨before, ?_⟩
  obtain rfl : c = .tombstone := by simpa using notValue
  have none : d.table.get? key = none := by simpa using absent
  -- the removed key was not there
  refine SortedTable.Same.toList ?_
  have order : (d.table.erase key).2.order = d.table.order := rfl
  have lawful' : Std.TransCmp (d.table.erase key).2.order := lawful
  refine (SortedTable.same_iff order).2 ⟨fun other => ?_, fun other => ?_⟩
  · rw [SortedTable.key?_erase]
    split
    · rename_i same
      rw [← SortedTable.key?_congr d.table same, (SortedTable.key?_eq_none_iff d.table key).2 none]
    · rfl
  · rw [SortedTable.get?_erase]
    split
    · rename_i same
      rw [← SortedTable.get?_congr d.table same, none]
    · rfl

end DirectMap

/-! ## The directory -/

variable {dir : String} {here : Place} {ids ids' : MapIds}

/-- The directory holds what stores leave, and of a map with an artifact the
one with its id, which is the highest. -/
structure Shelved (disk : Disk) (dir : String) (here : Place) (ids : MapIds) : Prop where
  houses : disk.Houses dir here
  kept : ∀ file, (disk.node? (here ++ [file])).isSome → IsKept file
  latest : ∀ name id, isValidName name = true →
    (disk.node? (here ++ [fileName name id])).isSome →
      ∃ last, ids.get? name = some last ∧ id ≤ last ∧
        (disk.node? (here ++ [fileName name last])).isSome

/-- What is at the path of an artifact. -/
theorem Disk.at?_join {disk : Disk} {name : String} (h : disk.Houses dir here)
    (plain : Disk.IsPlain name) :
    disk.at? (Disk.join dir name) =
      if Disk.isPath (Disk.join dir name) ∧ name.utf8ByteSize ≤ Disk.maxName then
        disk.node? (here ++ [name])
      else none := by
  unfold Disk.at?
  rw [Disk.locate?_join h plain]
  split <;> rfl

/-- It depends on what is under its name in the directory alone. -/
theorem Disk.at?_join_congr {disk disk' : Disk} {name : String} (h : disk.Houses dir here)
    (h' : disk'.Houses dir here) (plain : Disk.IsPlain name)
    (same : disk'.node? (here ++ [name]) = disk.node? (here ++ [name])) :
    disk'.at? (Disk.join dir name) = disk.at? (Disk.join dir name) := by
  rw [Disk.at?_join h' plain, Disk.at?_join h plain, same]

/-- The artifacts of the name are as they were, of whatever id. -/
def Disk.Leaves (disk disk' : Disk) (here : Place) (name : String) : Prop :=
  ∀ id, disk'.node? (here ++ [fileName name id]) = disk.node? (here ++ [fileName name id])

/-- The saving of a map leaves the artifacts of other names. -/
theorem Disk.Saves.leaves {disk disk' : Disk} {name other : String} {id : MapId}
    (h : disk.Saves disk' here (fileName name id)) (ne : name ≠ other) :
    disk.Leaves disk' here other := by
  intro id'
  refine h.others _ (fun same => ?_) (Artifact.fileName_ne_temporaryPath _ id' _)
  exact ne (Artifact.fileName_inj same).1.symm

namespace Shelved

variable {disk disk' : Disk} {name : String} {id : MapId}

/-- A save of a map with its id. -/
theorem saves (h : Shelved disk dir here ids) (valid : isValidName name = true)
    (own : ids.get? name = some id) (saves : disk.Saves disk' here (fileName name id))
    (there : (disk'.node? (here ++ [fileName name id])).isSome ∨
      disk'.node? (here ++ [fileName name id]) = disk.node? (here ++ [fileName name id])) :
    Shelved disk' dir here ids := by
  -- an artifact that was there still is
  have still : ∀ name' id', isValidName name' = true →
      (disk.node? (here ++ [fileName name' id'])).isSome →
      (disk'.node? (here ++ [fileName name' id'])).isSome := by
    intro name' id' valid' before
    by_cases same : fileName name' id' = fileName name id
    · rw [same] at before ⊢
      exact there.elim (fun present => present) fun eq => eq ▸ before
    · rwa [saves.others _ same (Artifact.fileName_ne_temporaryPath _ id' _)]
  refine ⟨h.houses.congr saves.directories, fun file there' => ?_,
    fun name' id' valid' there' => ?_⟩
  · by_cases same : file = fileName name id
    · exact .inl ⟨name, id, valid, same⟩
    by_cases temporary : file = MapFile.temporaryPath (fileName name id)
    · exact .inr ⟨_, temporary⟩
    rw [saves.others file same temporary] at there'
    exact h.kept file there'
  · by_cases same : fileName name' id' = fileName name id
    · obtain ⟨rfl, rfl⟩ := Artifact.fileName_inj same
      exact ⟨id', own, UInt32.le_refl _, there'⟩
    · rw [saves.others _ same (Artifact.fileName_ne_temporaryPath _ id' _)] at there'
      obtain ⟨last, got, le, present⟩ := h.latest name' id' valid' there'
      exact ⟨last, got, le, still name' last valid' present⟩

end Shelved

/-- The save of a direct map that has changes writes its file, or is refused and
leaves the file that was there. -/
theorem DirectMap.save_ends {disk : Disk} {d : DirectMap} (houses : disk.Houses dir here)
    (valid : isValidName d.name = true)
    (path : d.path = some (Disk.join dir (fileName d.name d.id))) (dirty : d.dirty = true) :
    ∃ disk', disk.Saves disk' here (fileName d.name d.id) ∧
      ((d.save disk = (.ok (), { d with dirty := false }, disk') ∧
          disk.locate? (Disk.join dir (fileName d.name d.id)) =
            some (here ++ [fileName d.name d.id]) ∧
          disk'.node? (here ++ [fileName d.name d.id]) = some (.file d.file.encode)) ∨
        ∃ cause, d.save disk = (.error cause, d, disk') ∧
          disk'.node? (here ++ [fileName d.name d.id]) =
            disk.node? (here ++ [fileName d.name d.id])) := by
  obtain ⟨disk', saves, outcome⟩ :=
    Disk.save_cases houses (Artifact.isPlain_fileName valid d.id) d.file
  refine ⟨disk', saves, outcome.imp (fun ⟨run, rest⟩ => ⟨?_, rest⟩)
    fun ⟨cause, run, there⟩ => ⟨cause, ?_, there⟩⟩
  · simp [DirectMap.save, path, dirty, run]
  · have failed : d.save disk = (.error cause, { d with dirty := true }, disk') := by
      simp [DirectMap.save, path, dirty, run]
    rwa [← dirty] at failed

/-- Saving a direct map that has its id. -/
theorem Shelved.saved {disk : Disk} {d : DirectMap} (h : Shelved disk dir here ids)
    (valid : isValidName d.name = true)
    (path : d.path = some (Disk.join dir (fileName d.name d.id)))
    (own : ids.get? d.name = some d.id) : Shelved (d.save disk).2.2 dir here ids := by
  cases dirty : d.dirty with
  | false => rwa [DirectMap.save_of_clean dirty]
  | true =>
    obtain ⟨disk', saves, ⟨run, -, there⟩ | ⟨cause, run, there⟩⟩ :=
      DirectMap.save_ends h.houses valid path dirty
    · rw [run]
      exact h.saves valid own saves (.inl (by rw [there]; rfl))
    · rw [run]
      exact h.saves valid own saves (.inr there)

namespace Store

variable {s s' : Store} {m b : MapHandle}

/-! ## Artifacts -/

/-- Every direct map without a change that is not saved is held in the directory. -/
def UpToDate (s : Store) (dir : String) : Prop :=
  ∀ (b : MapHandle) (d : DirectMap), s.maps[b.index]? = some (.direct d) →
    d.dirty = false → d.Held dir s.disk

namespace UpToDate

/-- The maps and the disk as before. -/
theorem of_maps (h : s.UpToDate dir) (maps : s'.maps = s.maps) (disk : s'.disk = s.disk) :
    s'.UpToDate dir := by
  unfold UpToDate
  rw [maps, disk]
  exact h

/-- One map is something else, but no direct map. -/
theorem set {st : MapState} (h : s.UpToDate dir) (notDirect : ∀ d, st ≠ .direct d) :
    (s.set m st).UpToDate dir := by
  intro b d state clean
  rw [maps_set] at state
  split at state
  · obtain ⟨old, -, eq⟩ := Option.map_eq_some_iff.1 state
    exact absurd eq (notDirect d)
  · exact h b d state clean

/-- A direct map after a write, with the others as they were. -/
theorem write {d d' : DirectMap} {key : Bytes} {c : Change} {previous : Option Bytes}
    (h : s.UpToDate dir) (layout : s.Layout) (base : s.maps[m.index]? = some (.direct d))
    (wrote : d.write key c = .ok (previous, d')) : (s.set m (.direct d')).UpToDate dir := by
  intro b d'' state clean
  rw [maps_set] at state
  split at state
  · rw [base] at state
    cases state
    have lawful := layout.lawful m d.toBase (role?_of_maps base)
    have trans : Std.TransCmp d.table.order := by
      rw [show d.table.order = d.keyType.compare from lawful.1]
      exact lawful.2
    obtain ⟨before, entries⟩ := DirectMap.of_write_clean trans wrote clean
    have same := DirectMap.toBase_of_write wrote
    exact (h m d base before).congr (congrArg Base.name same) (congrArg Base.id same)
      (congrArg Base.keyType same) entries rfl
  · exact h b d'' state clean

/-- A save of a direct map leaves the others on the disk, and puts it there if
it succeeds. -/
theorem save {d : DirectMap} (h : s.UpToDate dir) (layout : s.Layout)
    (houses : s.disk.Houses dir here)
    (named : ∀ b x, s.role? b = some (.base x) → isValidName x.name = true ∧
      x.path = some (Disk.join dir (fileName x.name x.id)))
    (unique : ∀ b b' x x', s.role? b = some (.base x) → s.role? b' = some (.base x') →
      x.name = x'.name → b = b')
    (base : s.maps[b.index]? = some (.direct d)) :
    (({ s with disk := (d.save s.disk).2.2 } : Store).set b
      (.direct (d.save s.disk).2.1)).UpToDate dir := by
  have lawful := layout.lawful b d.toBase (role?_of_maps base)
  have order : d.table.order = d.keyType.compare := lawful.1
  have trans : Std.TransCmp d.table.order := order ▸ lawful.2
  obtain ⟨valid, path⟩ : isValidName d.name = true ∧
      d.path = some (Disk.join dir (fileName d.name d.id)) :=
    named b d.toBase (role?_of_maps base)
  cases dirty : d.dirty with
  | false =>
    rw [DirectMap.save_of_clean dirty]
    rwa [show ({ s with disk := s.disk } : Store).set b (.direct d) = s from set_self base]
  | true =>
    obtain ⟨disk, saves, outcome⟩ := DirectMap.save_ends houses valid path dirty
    have others : ∀ (b' : MapHandle) (d' : DirectMap), b ≠ b' →
        s.maps[b'.index]? = some (.direct d') → d'.dirty = false → d'.Held dir disk := by
      intro b' d' ne state clean
      have valid' := (named b' d'.toBase (role?_of_maps state)).1
      have names : d.name ≠ d'.name := fun eq => ne <|
        unique b b' d.toBase d'.toBase (role?_of_maps base) (role?_of_maps state) eq
      exact (h b' d' state clean).congr rfl rfl rfl rfl
        (Disk.at?_join_congr houses (houses.congr saves.directories)
          (Artifact.isPlain_fileName valid' d'.id) (saves.leaves names d'.id))
    intro b' d' state clean
    obtain ⟨run, located, there⟩ | ⟨cause, run, there⟩ := outcome
    · rw [run] at state ⊢
      rw [maps_set] at state
      split at state
      · -- the file of this map is the one just written
        obtain ⟨-, -, eq⟩ := Option.map_eq_some_iff.1 state
        cases eq
        rw [← saves.directories.locate?] at located
        exact DirectMap.held_of_written order
          ((congrArg (Option.bind · disk.node?) located).trans there)
      · rename_i ne
        exact others b' d' ne state clean
    · rw [run] at state ⊢
      rw [maps_set] at state
      split at state
      · obtain ⟨-, -, eq⟩ := Option.map_eq_some_iff.1 state
        cases eq
        rw [dirty] at clean
        cases clean
      · rename_i ne
        exact others b' d' ne state clean

end UpToDate

theorem UpkeepMove.upToDate (h : s.UpkeepMove s') (layout : s.Layout)
    (houses : s.disk.Houses dir here)
    (named : ∀ b x, s.role? b = some (.base x) → isValidName x.name = true ∧
      x.path = some (Disk.join dir (fileName x.name x.id)))
    (unique : ∀ b b' x x', s.role? b = some (.base x) → s.role? b' = some (.base x') →
      x.name = x'.name → b = b')
    (upToDate : s.UpToDate dir) : s'.UpToDate dir := by
  cases h with
  | metered meters => exact upToDate.of_maps rfl rfl
  | counted units => exact upToDate.of_maps rfl rfl
  | @merged m st front w key slot rest d d' previous state above waiting first base wrote =>
    refine (upToDate.write layout base wrote).set fun d'' eq => ?_
    have role' := congrArg MapState.role eq
    rw [MapState.role_withBuffer, above] at role'
    cases role'
  | saved base => exact upToDate.save layout houses named unique base
  | entered state direct alive => exact (upToDate.of_maps rfl rfl).set fun d => nofun
  | left state drained =>
    split
    · exact (upToDate.of_maps rfl rfl).set fun d => nofun
    · exact upToDate.set fun d => nofun

theorem Writes.upToDate (h : s.Writes s') (layout : s.Layout) (upToDate : s.UpToDate dir) :
    s'.UpToDate dir := by
  cases h with
  | memory state wrote => exact upToDate.set fun d => nofun
  | direct state wrote => exact upToDate.write layout state wrote
  | buffered state above waiting base seen =>
    refine upToDate.set fun d eq => ?_
    have role' := congrArg MapState.role eq
    rw [MapState.role_withBuffer, above] at role'
    cases role'

theorem Closes.upToDate (h : s.Closes m s') (upToDate : s.UpToDate dir) : s'.UpToDate dir := by
  cases h with
  | memory state => exact upToDate.set fun d => nofun
  | marked closed state => exact upToDate.set fun d => nofun
  | @base b d waiting rests clean =>
    intro b' d' state clean'
    rw [maps_set] at state
    split at state
    · obtain ⟨-, -, eq⟩ := Option.map_eq_some_iff.1 state
      cases eq
      exact (upToDate b d rests.base clean).congr rfl rfl rfl rfl rfl
    · exact upToDate b' d' state clean'

/-! ## What an engine keeps -/

/-- Each direct map has a name and an id of its own and the path that belongs
to them. -/
structure Filed (s : Store) (dir : String) (ids : MapIds) : Prop where
  named : ∀ m x, s.role? m = some (.base x) → isValidName x.name = true ∧
    x.path = some (Disk.join dir (fileName x.name x.id)) ∧ ids.get? x.name = some x.id
  unique : ∀ m m' x x', s.role? m = some (.base x) → s.role? m' = some (.base x') →
    x.name = x'.name → m = m'

/-- What an engine keeps of its maps. -/
structure Kept (s : Store) (dir : String) (here : Place) (ids : MapIds) : Prop where
  layout : s.Layout
  filed : s.Filed dir ids
  shelved : Shelved s.disk dir here ids
  held : ∀ (b : MapHandle) (d : DirectMap), s.maps[b.index]? = some (.direct d) →
    d.dirty = false → d.Held dir s.disk

namespace Kept

/-- A step that leaves the roles of the maps, and the shelf. -/
theorem congr (h : s.Kept dir here ids) (layout : s'.Layout) (role : s'.role? = s.role?)
    (shelved : Shelved s'.disk dir here ids) (upToDate : s'.UpToDate dir) :
    s'.Kept dir here ids where
  layout := layout
  filed := ⟨by rw [role]; exact h.filed.named, by rw [role]; exact h.filed.unique⟩
  shelved := shelved
  held := upToDate

theorem of_maps (h : s.Kept dir here ids) (maps : s'.maps = s.maps) (disk : s'.disk = s.disk) :
    s'.Kept dir here ids :=
  h.congr (h.layout.of_maps maps) (role?_congr maps) (disk ▸ h.shelved)
    (UpToDate.of_maps h.held maps disk)

end Kept

/-! ## Moves -/

theorem UpkeepMove.kept (h : s.UpkeepMove s') (kept : s.Kept dir here ids) :
    s'.Kept dir here ids := by
  have named : ∀ b x, s.role? b = some (.base x) → isValidName x.name = true ∧
      x.path = some (Disk.join dir (fileName x.name x.id)) := fun b x role =>
    ⟨(kept.filed.named b x role).1, (kept.filed.named b x role).2.1⟩
  refine kept.congr (h.layout kept.layout) h.role? ?_
    (h.upToDate kept.layout kept.shelved.houses named kept.filed.unique kept.held)
  cases h with
  | @saved b d base =>
    obtain ⟨valid, path, own⟩ := kept.filed.named b d.toBase (role?_of_maps base)
    exact kept.shelved.saved valid path own
  | left state drained => split <;> exact kept.shelved
  | metered meters => exact kept.shelved
  | counted units => exact kept.shelved
  | merged state above waiting first base wrote => exact kept.shelved
  | entered state direct alive => exact kept.shelved

theorem Writes.kept (h : s.Writes s') (kept : s.Kept dir here ids) : s'.Kept dir here ids := by
  refine kept.congr (h.layout kept.layout) h.role? ?_ (h.upToDate kept.layout kept.held)
  cases h <;> exact kept.shelved

theorem Closes.kept (h : s.Closes m s') (kept : s.Kept dir here ids) : s'.Kept dir here ids := by
  refine kept.congr (h.layout kept.layout) h.role? ?_ (h.upToDate kept.held)
  cases h <;> exact kept.shelved

theorem Runs.kept {R : Store → Store → Prop}
    (step : ∀ {s s'}, R s s' → s.Kept dir here ids → s'.Kept dir here ids)
    (h : s.Runs R s') (kept : s.Kept dir here ids) : s'.Kept dir here ids := by
  induction h with
  | refl => exact kept
  | tail _ move ih => exact move.elim (·.kept ih) (step · ih)

end Store

end MapStore
