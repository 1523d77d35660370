/-
MapStore.Proofs.Restarting — the next engine on a directory gives back what was
made durable.

An engine that is opened on a directory with nothing in it but what engines
leave there (`Disk.KeptOnly`) takes the ids from it, and whatever is done with
it leaves such a directory again. So engines can follow one another on it.

If all that was written is durable in the end (`Holds.restores`), the directory
has the artifact of each map under the id the map had, unless the map has no
entries and no artifact. That stays so while other engines are at work that are
not asked for the name (`Disk.Follows`), and in an engine on the directory until
it is asked. The name is then opened with the same entries in any of the three
lasting kinds; one that has no artifact may be given a new id. What can stand
in the way is that there is no id left for it, and an engine can indeed end in
such a directory.
-/
import MapStore.Proofs.Unasked

namespace MapStore

open Artifact (fileName isValidName)

variable {dir name : String} {here : Place} {ids : MapIds} {id : MapId}

/-! ## Directories that engines leave -/

/-- The directory, made if it is missing, holds nothing but artifacts and files
half written. -/
def Disk.KeptOnly (disk : Disk) (dir : String) : Prop :=
  ∀ files, (disk.makeDirectories dir).2.list dir = .ok files → ∀ file ∈ files, IsKept file

/-- A directory that is listed, and recovered from, is described by the ids. -/
theorem MapIds.Recovers.shelved {disk : Disk} {files : List String}
    (h : MapIds.Recovers .empty files ids) (houses : disk.Houses dir here)
    (listed : disk.list dir = .ok files) (kept : ∀ file ∈ files, IsKept file) :
    Shelved disk dir here ids := by
  obtain ⟨files', listed', inside⟩ := Disk.list_of_houses houses
  rw [listed] at listed'
  cases listed'
  refine ⟨houses, fun file there => kept file ((inside file).2 there),
    fun name id valid there => ?_⟩
  obtain ⟨last, had, le⟩ :=
    h.known _ ((inside _).2 there) name id (Artifact.parse_fileName valid id)
  refine ⟨last, had, le, ?_⟩
  obtain none | ⟨file, mem, parsed⟩ := h.found name last had
  · cases none
  · obtain ⟨r, parsed', names⟩ := (kept file mem).parse
    rw [parsed] at parsed'
    cases parsed'
    obtain ⟨-, rfl⟩ := names name last rfl
    exact (inside _).1 mem

namespace Shelved

variable {disk : Disk}

theorem keptOnly (h : Shelved disk dir here ids) : disk.KeptOnly dir := by
  intro files listed file mem
  rw [Disk.makeDirectories_of_houses h.houses] at listed
  obtain ⟨files', listed', inside⟩ := Disk.list_of_houses h.houses
  rw [listed] at listed'
  cases listed'
  exact h.kept file ((inside file).1 mem)

/-- Ids can be recovered from the directory, and describe it then. -/
theorem recovers (h : Shelved disk dir here ids) (policy : RecoveryPolicy) :
    ∃ files ids', disk.list dir = .ok files ∧ MapIds.recover policy files = .ok ids' ∧
      ids'.Ordered ∧ Shelved disk dir here ids' := by
  obtain ⟨files, listed, inside⟩ := Disk.list_of_houses h.houses
  have kept : ∀ file ∈ files, IsKept file := fun file mem => h.kept file ((inside file).1 mem)
  obtain ⟨ids', recovered⟩ := MapIds.recover_kept policy kept
  have recovers := MapIds.recovers_of_recover recovered
  exact ⟨files, ids', listed, recovered, recovers.ordered, recovers.shelved h.houses listed kept⟩

/-- Nothing is found where there is no artifact. -/
theorem absent (h : Shelved disk dir here ids) (valid : isValidName name = true)
    (gone : disk.node? (here ++ [fileName name id]) = none) :
    DirectMap.storedEntries (DirectMap.settingsIn name id dir) disk = .ok [] := by
  have path : (DirectMap.settingsIn name id dir).artifactPath =
      some (Disk.join dir (fileName name id)) := rfl
  refine DirectMap.storedEntries_absent path ?_
  rw [Disk.at?_join h.houses (Artifact.isPlain_fileName valid id), gone]
  split <;> rfl

end Shelved

/-! ## Opening an engine -/

namespace EngineHandle

variable {config : Config} {s : Store} {files : List String}

theorem openWith_of_recovered (directory : config.storageDir = some dir)
    (made : (s.disk.makeDirectories dir).1 = .ok ())
    (listed : (s.disk.makeDirectories dir).2.list dir = .ok files)
    (recovered : MapIds.recover config.recoveryPolicy files = .ok ids) :
    openWith config s = .ok ⟨s.engines.length⟩
      (booted config ids (s.disk.makeDirectories dir).2 s) := by
  have ids : recoverIds config.recoveryPolicy config.storageDir s =
      .ok ids { s with disk := (s.disk.makeDirectories dir).2 } := by
    simp only [directory, recoverIds, Action.onDisk, Action.run_bind, Action.run_disk,
      Action.run_setDisk, made, listed, recovered, Action.run_lift_ok]
  unfold openWith
  rw [Action.run_bind, ids]
  rfl

theorem openWith_recovers (directory : config.storageDir = some dir)
    (start : openWith config s = .ok e s') :
    ∃ files ids, (s.disk.makeDirectories dir).2.list dir = .ok files ∧
      MapIds.recover config.recoveryPolicy files = .ok ids ∧ e = ⟨s.engines.length⟩ ∧
      s' = booted config ids (s.disk.makeDirectories dir).2 s := by
  obtain ⟨ids, s₁, taken, rfl, rfl⟩ := openWith_ok start
  rw [directory] at taken
  obtain ⟨files, -, listed, recovered, rfl⟩ := recoverIds_ok taken
  exact ⟨files, ids, listed, recovered, rfl, rfl⟩

theorem serves_booted {disk : Disk} (directory : config.storageDir = some dir)
    (ordered : ids.Ordered) :
    (booted config ids disk s).Serves ⟨s.engines.length⟩ (fresh config ids ⟨s.live.length⟩)
      dir where
  engine := by simp [booted]
  isOpen := rfl
  alive := by simp [booted, fresh, Store.liveSets, LiveSets.empty]
  directory := directory
  ordered := rfl
  ids := ordered

/-- Where there is no map yet all maps are as they should be. -/
theorem furnished_booted {disk : Disk} (maps : s.maps = []) (shelved : Shelved disk dir here ids) :
    (booted config ids disk s).Furnished ⟨s.live.length⟩
      (fresh config ids ⟨s.live.length⟩).maps.get? dir here ids := by
  have empty : (booted config ids disk s).maps = [] := maps
  have noState : ∀ (m : MapHandle) (st : MapState),
      (booted config ids disk s).maps[m.index]? ≠ some st := fun m st => by simp [empty]
  have noRole : ∀ (m : MapHandle) (r : Role), (booted config ids disk s).role? m ≠ some r :=
    fun m r => by simp [Store.role?_of_empty empty]
  exact
    { kept :=
        { layout := .of_empty empty
          filed :=
            { named := fun m x role => absurd role (noRole m _)
              unique := fun m _ x _ role => absurd role (noRole m _) }
          shelved
          held := fun b d state => absurd state (noState b _) }
      roster := .of_empty empty fun _ => rfl
      listed :=
        { alive := by simp [booted, Store.liveSets, LiveSets.empty]
          bases := fun b x role => absurd role (noRole b _)
          waiting := fun m st _ state => absurd state (noState m st)
          own := fun m st _ state => absurd state (noState m st) }
      opened := fun m _ st state => absurd state (noState m st) }

/-- An engine was just opened on the disk of the store. -/
structure Begun (e : EngineHandle) (x : Engine) (t t' : Store) (dir : String) (here : Place) :
    Prop extends t'.Serves e x dir where
  disk : t'.disk = t.disk
  shelved : Shelved t.disk dir here x.ids
  new : ∀ name, x.maps.get? name = none
  furnished : t.maps = [] → t'.Furnished x.live x.maps.get? dir here x.ids

/-- On a directory that engines left an engine can be opened. -/
theorem begun {t : Store} (h : Shelved t.disk dir here ids)
    (directory : config.storageDir = some dir) :
    ∃ e t' x, openWith config t = .ok e t' ∧ Begun e x t t' dir here := by
  obtain ⟨files, ids', listed, recovered, ordered, shelved⟩ := h.recovers config.recoveryPolicy
  have made := Disk.makeDirectories_of_houses h.houses
  have opened := openWith_of_recovered (s := t) directory (by rw [made])
    (by rw [made]; exact listed) recovered
  rw [made] at opened
  exact ⟨_, _, _, opened, serves_booted directory ordered, rfl, shelved, fun _ => rfl,
    fun maps => furnished_booted maps shelved⟩

/-- An engine that starts on a directory that engines left. -/
theorem sound_of_openWith {disk : Disk} {e : EngineHandle}
    (directory : config.storageDir = some dir) (left : disk.KeptOnly dir)
    (start : openWith config (.onDisk disk) = .ok e s) :
    ∃ here, Sound e dir here ⟨s, .unsaved⟩ := by
  obtain ⟨files, ids, listed, recovered, rfl, rfl⟩ := openWith_recovers directory start
  obtain ⟨here, houses⟩ := Disk.houses_of_list listed
  have recovers := MapIds.recovers_of_recover recovered
  have shelved := recovers.shelved houses listed (left files listed)
  refine ⟨here, .running ⟨serves_booted directory recovers.ordered, ?_⟩ nofun (absurd rfl)⟩
  exact furnished_booted rfl shelved

end EngineHandle

/-- Whatever is done with an engine, it leaves a directory as it found it: with
nothing in it but what engines leave. -/
theorem Sound.keptOnly {e : EngineHandle} {p : Moment} (h : Sound e dir here p) :
    p.store.disk.KeptOnly dir := by
  cases h with
  | running housed => exact housed.furnished.kept.shelved.keptOnly
  | ended ended kept =>
    obtain ⟨ids, kept⟩ := kept
    exact kept.shelved.keptOnly

/-! ## Opening a name again -/

/-- What comes of a request for a name after the restart. The map that is
answered shows the entries, of whatever lasting kind it is, and has the id
unless there are no entries. A name is refused only if there are no entries,
it has no id, and the last id is used up. -/
inductive EngineHandle.GivesBack (e : EngineHandle) (o : Opening) (id : MapId)
    (entries : List (Bytes × Bytes)) (s : Store) : Prop
  | opened {m : MapHandle} {id' : MapId} {s' : Store} (run : o.perform e s = .ok m s')
      (shows : m.entries s' = .ok entries s') (identity : m.identity s' = .ok (o.name, id') s')
      (same : entries ≠ [] → id' = id)
  | crowded {x : Engine} (empty : entries = []) (engine : s.engines[e.index]? = some x)
      (unknown : x.ids.get? o.name = none) (last : x.ids.lastId = MapIds.maxId)
      (refused : o.perform e s = .error (.error (.config "map id space exhausted")) s)

/-- A new name is refused once the last id is used up. -/
theorem Opening.refused_of_last {e : EngineHandle} {x : Engine} {s : Store}
    (h : s.Serves e x dir) (o : Opening) (valid : isValidName o.name = true)
    (new : x.maps.get? o.name = none) (unknown : x.ids.get? o.name = none)
    (last : x.ids.lastId = MapIds.maxId) :
    o.perform e s = .error (.error (.config "map id space exhausted")) s := by
  have none := MapIds.idFor_of_last unknown last
  obtain opens | ⟨m, cause, there, -⟩ := opens h.engine h.isOpen h.alive o
  · generalize o.perform e s = r at opens
    cases opens with
    | invalid bad => simp [Artifact.checkName, valid] at bad
    | found _ there =>
      rw [new] at there
      cases there
    | exhausted _ _ refused =>
      rw [none] at refused
      cases refused
      rfl
    | unloadable _ _ given =>
      rw [none] at given
      cases given
    | built _ _ given =>
      rw [none] at given
      cases given
  · rw [new] at there
    cases there

/-- The engine did not open the name yet, and finds these entries whatever id
the name has or is given. -/
structure Store.Awaits (s : Store) (e : EngineHandle) (x : Engine) (dir name : String) (id : MapId)
    (keyType : DataType) (entries : List (Bytes × Bytes)) : Prop extends s.Serves e x dir where
  new : x.maps.get? name = none
  known : entries ≠ [] → x.ids.get? name = some id
  found : ∃ stored, (SortedTable.ofList keyType.compare stored).toList = entries ∧
    ∀ id', x.ids.get? name = none ∨ x.ids.get? name = some id' →
      DirectMap.storedEntries (DirectMap.settingsIn name id' dir) s.disk = .ok stored

namespace Store.Awaits

variable {s : Store} {e : EngineHandle} {x : Engine} {keyType : DataType}
  {entries : List (Bytes × Bytes)}

/-- Requests for other names change nothing about it. -/
theorem passes (h : s.Awaits e x dir name id keyType entries) (other : Opening)
    (ne : other.name ≠ name) :
    ∃ x', ((other.perform e).after s).Awaits e x' dir name id keyType entries := by
  obtain ⟨x', serves, disk, same⟩ := other.passes h.toServes
  obtain ⟨maps, ids⟩ := same name ne.symm
  refine ⟨x', serves, maps.trans h.new, ?_, ?_⟩
  · rw [ids]
    exact h.known
  · rw [ids, disk]
    exact h.found

theorem passes_all (h : s.Awaits e x dir name id keyType entries) (deeds : List Deed)
    (opens : ∀ deed ∈ deeds, ∃ other, deed = .opened other)
    (unasked : ∀ deed ∈ deeds, ¬ deed.AsksFor name) :
    ∃ x', (s.through e deeds).Awaits e x' dir name id keyType entries := by
  induction deeds generalizing s x with
  | nil => exact ⟨x, h⟩
  | cons deed rest ih =>
    obtain ⟨other, rfl⟩ := opens deed (List.mem_cons_self ..)
    obtain ⟨x', h'⟩ := h.passes other (unasked _ (List.mem_cons_self ..))
    exact ih h' (fun later mem => opens later (List.mem_cons_of_mem _ mem))
      fun later mem => unasked later (List.mem_cons_of_mem _ mem)

theorem givesBack (h : s.Awaits e x dir name id keyType entries)
    (lawful : Std.TransCmp keyType.compare) (valid : isValidName name = true) {o : Opening}
    (named : o.name = name) (keys : o.keyType = keyType) (lasting : o.kind ≠ .inMemory) :
    e.GivesBack o id entries s := by
  subst named keys
  obtain ⟨stored, rfl, found⟩ := h.found
  obtain ⟨m, id', s', run, shows, identity, before⟩ | ⟨unknown, last, refused⟩ :=
    o.restores h.toServes lawful lasting valid h.new fun id' ids given =>
      found id' (MapIds.idFor_ok h.ids given).2.2
  · refine .opened run shows identity fun entry => ?_
    have own := h.known entry
    rcases before with none | some
    · rw [none] at own
      cases own
    · rw [some] at own
      exact Option.some.inj own
  · refine .crowded (by_contra fun entry => ?_) h.engine unknown last refused
    rw [h.known entry] at unknown
    cases unknown

end Store.Awaits

/-- What the directory gives back an engine on it finds, until it is asked. -/
theorem Disk.Restores.awaits {base : Base} {entries : List (Bytes × Bytes)} {s : Store}
    {e : EngineHandle} {x : Engine} (h : s.disk.Restores dir here base entries)
    (fits : (MapFile.encodePayload base.name entries).length < Bytes.capacity 8)
    (serves : s.Serves e x dir) (shelved : Shelved s.disk dir here x.ids)
    (new : x.maps.get? base.name = none) :
    s.Awaits e x dir base.name base.id base.keyType entries := by
  obtain ⟨stored, read, shows⟩ := h.stored fits
  by_cases there : (s.disk.node? (here ++ [fileName base.name base.id])).isSome
  · -- the artifact gives the name its id
    obtain ⟨last, own, le, present⟩ := shelved.latest base.name base.id h.valid there
    obtain rfl : last = base.id := UInt32.le_antisymm (h.latest last present).1 le
    refine ⟨serves, new, fun _ => own, stored, shows, fun id' before => ?_⟩
    rcases before with none | some
    · rw [own] at none
      cases none
    · rw [own] at some
      cases some
      exact read
  · -- nothing is found under any id
    have absent : ∀ id, DirectMap.storedEntries (DirectMap.settingsIn base.name id dir) s.disk =
        .ok [] := by
      intro id
      refine shelved.absent h.valid (Option.not_isSome_iff_eq_none.1 fun present => ?_)
      exact there (h.latest id present).2
    rw [absent base.id] at read
    cases read
    exact ⟨serves, new, fun entry => absurd shows.symm entry, [], shows, fun id _ => absent id⟩

/-! ## Engines after one another -/

/-- Engines follow one another on the directory, each on the disk that the one
before left, and whatever is done with them, none is asked for the name. -/
inductive Disk.Follows (dir name : String) (disk : Disk) : Disk → Prop
  | refl : Follows dir name disk disk
  | engine {config : Config} {disk' : Disk} {e : EngineHandle} {s : Store} {deeds : List Deed}
      (before : Follows dir name disk disk') (directory : config.storageDir = some dir)
      (start : EngineHandle.openWith config (.onDisk disk') = .ok e s)
      (lawful : ∀ deed ∈ deeds, deed.Lawful) (unasked : ∀ deed ∈ deeds, ¬ deed.AsksFor name) :
      Follows dir name disk (s.through e deeds).disk

/-- What a directory gives back it still does after other engines. -/
theorem Disk.Restores.follows {base : Base} {entries : List (Bytes × Bytes)} {disk disk' : Disk}
    (h : disk.Restores dir here base entries) (follows : Follows dir base.name disk disk') :
    disk'.Restores dir here base entries := by
  induction follows with
  | refl => exact h
  | @engine config disk₁ e s deeds before directory start lawful unasked restores =>
    obtain ⟨ids, shelved⟩ := restores.shelved
    obtain ⟨e', s', x, opened, begun⟩ :=
      EngineHandle.begun (t := .onDisk disk₁) shelved directory
    rw [start] at opened
    cases opened
    have housed : s.Housed e x dir here := ⟨begun.toServes, begun.furnished rfl⟩
    obtain ⟨ended, leaves⟩ :=
      (Store.Unasked.running housed (begun.new base.name)).through deeds lawful unasked
    obtain ⟨ids', kept⟩ := ended.kept
    rw [begun.disk] at leaves
    exact restores.congr kept.shelved leaves

/-! ## After a restart -/

/-- An engine on a directory that gives back the map finds it when it is asked,
whatever was done with the engine before. In a store with other maps, which may
write to the directory as well, only other requests are looked at. -/
theorem EngineHandle.Begun.awaits {e : EngineHandle} {x : Engine} {t t' : Store} {base : Base}
    {entries : List (Bytes × Bytes)} {deeds : List Deed} (h : Begun e x t t' dir here)
    (restores : t.disk.Restores dir here base entries)
    (fits : (MapFile.encodePayload base.name entries).length < Bytes.capacity 8)
    (lawful : ∀ deed ∈ deeds, deed.Lawful) (unasked : ∀ deed ∈ deeds, ¬ deed.AsksFor base.name)
    (alone : t.maps = [] ∨ ∀ deed ∈ deeds, ∃ other, deed = .opened other)
    (isOpen : e.isOpen (t'.through e deeds) = true) :
    ∃ x', (t'.through e deeds).Awaits e x' dir base.name base.id base.keyType entries := by
  rcases alone with none | opens
  · have housed : t'.Housed e x dir here := ⟨h.toServes, h.furnished none⟩
    obtain ⟨unasked, leaves⟩ :=
      (Store.Unasked.running housed (h.new base.name)).through deeds lawful unasked
    obtain ⟨x', housed', new⟩ := unasked.housed isOpen
    have shelved := housed'.furnished.kept.shelved
    rw [h.disk] at leaves
    exact ⟨x', (restores.congr shelved leaves).awaits fits housed'.toServes shelved new⟩
  · have shelved := h.shelved
    rw [← h.disk] at restores shelved
    exact (restores.awaits fits h.toServes shelved (h.new base.name)).passes_all deeds opens unasked

/-- The key type that a lasting map was built with. -/
def MapState.keyType? : MapState → Option DataType
  | direct d => some d.keyType
  | buffered x => some x.keyType
  | adaptive a => some a.keyType
  | memory _ | faulty _ => none

namespace Store.Furnished

variable {s : Store} {live : LiveHandle} {named : String → Option MapHandle} {m : MapHandle}
  {st : MapState} {keyType : DataType}

/-- A map that is named, and is not in memory, rests on a direct map. -/
theorem rests (h : s.Furnished live named dir here ids) (given : named name = some m)
    (state : s.maps[m.index]? = some st) (lasting : st.keyType? = some keyType) :
    ∃ b d waiting, s.Rests m b d waiting ∧ d.name = name ∧ d.keyType = keyType := by
  have role := role?_of_maps state
  obtain memory | ⟨x, base, rfl⟩ | ⟨front, above, rfl⟩ := h.roster.registered name m given
  · rw [role] at memory
    cases st with
    | memory p => cases lasting
    | _ => cases memory
  · rw [role] at base
    obtain ⟨d, rfl, rfl⟩ := MapState.direct_of_role (Option.some.inj base)
    exact ⟨m, d, none, rests_direct state, rfl, Option.some.inj lasting⟩
  · obtain ⟨-, x, below, sameName, -, sameKeys, -⟩ := h.kept.layout.below m front above
    rw [role] at above
    have above := Option.some.inj above
    obtain ⟨d, rests⟩ := h.kept.layout.rests_over state above
    have base := below.symm.trans rests.role
    cases base
    refine ⟨_, d, _, rests, sameName.symm, sameKeys.symm.trans ?_⟩
    obtain ⟨y, rfl, rfl⟩ | ⟨a, rfl, rfl⟩ := MapState.cases_of_role above
    · exact Option.some.inj lasting
    · exact Option.some.inj lasting

/-- It lists its content. -/
theorem entries {b : MapHandle} {d : DirectMap} {waiting : Option WriteBuffer}
    (h : s.Furnished live named dir here ids) (rests : s.Rests m b d waiting) :
    m.entries s = .ok (content d waiting).toList s := by
  refine rests.entries h.kept.layout (h.opened m rests.lasting) ?_
  have base := h.opened b (by rw [rests.role]; exact nofun) _ rests.base
  simpa [MapState.isOpen] using base

end Store.Furnished

/-- An engine starts on a directory that engines left, and any deeds follow
(`first`), after which it is open and has a lasting map open. Any other deeds
follow (`rest`), with no write answered in them before a close is, and in the
end all that was written is durable: since the last write a commit was
answered or a tick reported no failure while the engine was open, or its first
close was answered. Other engines may be at work on the directory then, which
are not asked for the name.

Then the directory is again one that engines left, and an engine on it,
whatever else is in its store, opens and gives back the map: when it is asked
for the name first, whatever else was done with it, as a map of any lasting
kind with the same key type (the value type does not matter), the map shows the
entries that it showed, under its id if there are any.

A file tells the length of its payload in eight bytes. No list of bytes in
memory is too long for that, but here it has to be said. -/
theorem restart_gives_back {config config' : Config} {disk : Disk} {e : EngineHandle}
    {s t : Store} {first rest : List Deed} {p q : Moment} {x : Engine} {m : MapHandle}
    {st : MapState} {keyType : DataType} (directory : config.storageDir = some dir)
    (left : disk.KeptOnly dir) (start : EngineHandle.openWith config (.onDisk disk) = .ok e s)
    (lawful : ∀ deed ∈ first ++ rest, deed.Lawful)
    (before : p = Moment.run e ⟨s, .unsaved⟩ first) (after : q = p.run e rest)
    (engine : p.store.engines[e.index]? = some x) (isOpen : x.closed = false)
    (given : x.maps.get? name = some m) (state : p.store.maps[m.index]? = some st)
    (lasting : st.keyType? = some keyType) (unwritten : p.unwritten e rest = true)
    (durable : q.stage ≠ .unsaved) (follows : q.store.disk.Follows dir name t.disk)
    (directory' : config'.storageDir = some dir) :
    t.disk.KeptOnly dir ∧ ∃ entries id, m.entries p.store = .ok entries p.store ∧
      m.identity p.store = .ok (name, id) p.store ∧
      ((MapFile.encodePayload name entries).length < Bytes.capacity 8 →
        ∃ e' t', EngineHandle.openWith config' t = .ok e' t' ∧ e'.isOpen t' = true ∧
          ∀ (deeds : List Deed) (o : Opening), (∀ deed ∈ deeds, deed.Lawful) →
            (∀ deed ∈ deeds, ¬ deed.AsksFor name) →
            (t.maps = [] ∨ ∀ deed ∈ deeds, ∃ other, deed = .opened other) →
            e'.isOpen (t'.through e' deeds) = true →
              o.name = name → o.keyType = keyType → o.kind ≠ .inMemory →
                e'.GivesBack o id entries (t'.through e' deeds)) := by
  obtain ⟨here, begun⟩ := EngineHandle.sound_of_openWith directory left start
  have sound : Sound e dir here p := before ▸ begun.run first fun deed mem =>
    lawful deed (List.mem_append_left _ mem)
  have later := fun deed mem => lawful deed (List.mem_append_right first mem)
  have sound' : Sound e dir here q := after ▸ sound.run rest later
  cases sound with
  | ended ended =>
    obtain ⟨y, engine', closed⟩ := ended
    obtain rfl : y = x := Option.some.inj (engine'.symm.trans engine)
    rw [isOpen] at closed
    cases closed
  | @running y housed notShut saved =>
    obtain rfl : y = x := Option.some.inj (housed.engine.symm.trans engine)
    have furnished := housed.furnished
    have layout := furnished.kept.layout
    obtain ⟨b, d, waiting, rests, rfl, rfl⟩ := furnished.rests given state lasting
    have holds : Holds e dir here d.name m d.toBase (Store.content d waiting).toList p :=
      .running housed given rests rfl rfl
    have holds' := holds.run (.running housed notShut saved) rest later unwritten
    have restores := ((after ▸ holds').restores sound' durable).follows follows
    obtain ⟨ids, shelved⟩ := restores.shelved
    refine ⟨shelved.keptOnly, (Store.content d waiting).toList, d.id,
      furnished.entries rests, rests.identity layout, fun fits => ?_⟩
    obtain ⟨e', t', x', opened, begun⟩ := EngineHandle.begun (t := t) shelved directory'
    have isOpen' : e'.isOpen t' = true := by
      simp [EngineHandle.isOpen, begun.engine, begun.isOpen]
    refine ⟨e', t', opened, isOpen',
      fun deeds o lawful unasked alone isOpen named keys lasting => ?_⟩
    obtain ⟨y', awaits⟩ := begun.awaits restores fits lawful unasked alone isOpen
    have keyOrder := (layout.lawful b d.toBase rests.role).2
    exact awaits.givesBack keyOrder restores.valid named keys lasting

/-- Maps in the directory `s`. -/
def depot : Config := { Config.default with inMemory := false, storageName := some "s" }

/-- A request for a direct map of bytes. -/
def depotMap (name : String) : Opening := ⟨name, .direct, .bytes, .bytes, none, false⟩

/-- A direct map of the depot that holds nothing. -/
def depotEmpty (name : String) (id : MapId) : DirectMap :=
  { PlainMap.empty name id .bytes .bytes with
    table := .ofList DataType.bytes.compare [], path := some (Disk.join "s" (fileName name id))
    dirty := false }

/-- A direct map of the depot with one entry that is not saved. -/
def depotFull (name : String) (id : MapId) : DirectMap :=
  { depotEmpty name id with table := ((depotEmpty name id).table.insert [1] [2]).2, dirty := true }

/-- The depot on an empty disk, with no map open. -/
def depotStart : Store := (EngineHandle.openWith depot).after (.onDisk .empty)

/-- A map is opened in the depot, and one entry is put into it. -/
def depotDeeds : List Deed := [.opened (depotMap "a"), .called (.put [1] [2]) ⟨0⟩]

/-- The depot after that. -/
def depotPut : Moment :=
  ⟨(((depotMap "a").perform ⟨0⟩).after depotStart).set ⟨0⟩ (.direct (depotFull "a" 1)), .unsaved⟩

theorem run_depotDeeds : Moment.run ⟨0⟩ ⟨depotStart, .unsaved⟩ depotDeeds = depotPut := by
  have opened : Moment.next ⟨0⟩ ⟨depotStart, .unsaved⟩ (.opened (depotMap "a")) =
      ⟨((depotMap "a").perform ⟨0⟩).after depotStart, .unsaved⟩ := rfl
  have base : (((depotMap "a").perform ⟨0⟩).after depotStart).maps[0]? =
      some (.direct (depotEmpty "a" 1)) := rfl
  have taken : (depotEmpty "a" 1).write [1] (.value [2]) = .ok (none, depotFull "a" 1) := rfl
  obtain ⟨after, writes⟩ := Deed.called_direct (e := ⟨0⟩) (m := ⟨0⟩) (c := .put [1] [2]) base rfl
    taken
  show Moment.next ⟨0⟩ (Moment.next ⟨0⟩ ⟨depotStart, .unsaved⟩ _) _ = _
  have notShut : ¬ Stage.unsaved = .shut := by decide
  rw [opened, Moment.next, after, Deed.stage, if_neg notShut, if_pos writes, depotPut]

/-- What was put before a commit is there after a restart, for a map of any
kind. -/
theorem depot_gives_back :
    EngineHandle.openWith depot (.onDisk .empty) = .ok ⟨0⟩ depotStart ∧
      Moment.run ⟨0⟩ ⟨depotStart, .unsaved⟩ depotDeeds = depotPut ∧
      (depotPut.run ⟨0⟩ [.committed]).stage = .durable ∧
      ∃ e' t', EngineHandle.openWith depot (.onDisk (depotPut.run ⟨0⟩ [.committed]).store.disk) =
          .ok e' t' ∧
        ∀ o : Opening, o.name = "a" → o.keyType = .bytes → o.kind ≠ .inMemory →
          e'.GivesBack o 1 [([1], [2])] t' := by
  have directory : depot.storageDir = some "s" := rfl
  have start : EngineHandle.openWith depot (.onDisk .empty) = .ok ⟨0⟩ depotStart := rfl
  have lawful : ∀ deed ∈ depotDeeds ++ [.committed], deed.Lawful := by
    have bytes : Std.TransCmp DataType.bytes.compare := inferInstanceAs (Std.TransCmp Bytes.compare)
    simp [depotDeeds, Deed.Lawful, depotMap, bytes]
  have left : Disk.empty.KeptOnly "s" := by
    intro files listed
    have listing : (Disk.empty.makeDirectories "s").2.list "s" = .ok [] := by decide +kernel
    rw [listing] at listed
    cases listed
    exact nofun
  have named : (depotPut.store.engines[0]?).map (fun x => (x.closed, x.maps.get? "a")) =
      some (false, some ⟨0⟩) := by
    decide +kernel
  obtain ⟨x, engine, named⟩ := Option.map_eq_some_iff.1 named
  obtain ⟨isOpen, given⟩ := Prod.mk.inj named
  have state : depotPut.store.maps[0]? = some (.direct (depotFull "a" 1)) := rfl
  have durable : (depotPut.run ⟨0⟩ [.committed]).stage = .durable := by decide +kernel
  have saved : (depotPut.run ⟨0⟩ [.committed]).stage ≠ .unsaved := by
    rw [durable]
    decide
  obtain ⟨-, entries, id, shows, identity, gives⟩ :=
    restart_gives_back (t := .onDisk (depotPut.run ⟨0⟩ [.committed]).store.disk) directory left
      start lawful run_depotDeeds.symm rfl engine isOpen given state rfl rfl saved .refl directory
  obtain rfl : entries = [([1], [2])] := by
    rw [MapHandle.entries_open state rfl] at shows
    exact (EStateM.Result.ok.inj shows).1.symm
  obtain rfl : id = 1 := by
    rw [MapHandle.run_identity state] at identity
    exact (Prod.mk.inj (EStateM.Result.ok.inj identity).1).2.symm
  obtain ⟨e', t', opened, isOpen', each⟩ := gives (by decide +kernel)
  refine ⟨start, run_depotDeeds, durable, e', t', opened, fun o name keys lasting => ?_⟩
  have nothing : ∀ {P : Deed → Prop}, ∀ deed ∈ [], P deed := by simp
  exact each [] o nothing nothing (.inl rfl) isOpen' name keys lasting

/-! ## When the ids are used up -/

/-- The depot with an artifact that leaves two ids. A run that finishes leaves just
this: on an empty depot an engine opens 4294967292 maps of other names and puts
nothing into them, so that they get ids and no artifacts, then opens `a`, puts an
entry into it and closes. -/
def crowded : Disk :=
  (MapFile.save ⟨"a", 4294967293, [([1], [2])]⟩ "s/a-4294967293.db"
    (Disk.empty.makeDirectories "s").2).2

def crowdedStart : Store := (EngineHandle.openWith depot).after (.onDisk crowded)

/-- The two ids are given, and an entry is put into the second map. -/
def crowdedDeeds : List Deed :=
  [.opened (depotMap "b"), .opened (depotMap "c"), .called (.put [1] [2]) ⟨1⟩]

/-- The depot after that. -/
def crowdedPut : Moment :=
  ⟨(((depotMap "c").perform ⟨0⟩).after (((depotMap "b").perform ⟨0⟩).after crowdedStart)).set ⟨1⟩
    (.direct (depotFull "c" 4294967295)), .unsaved⟩

theorem run_crowdedDeeds :
    Moment.run ⟨0⟩ ⟨crowdedStart, .unsaved⟩ crowdedDeeds = crowdedPut := by
  obtain ⟨s, eq⟩ : ∃ s, s = ((depotMap "c").perform ⟨0⟩).after
      (((depotMap "b").perform ⟨0⟩).after crowdedStart) := ⟨_, rfl⟩
  have opened : Moment.next ⟨0⟩
      (Moment.next ⟨0⟩ ⟨crowdedStart, .unsaved⟩ (.opened (depotMap "b"))) (.opened (depotMap "c")) =
      ⟨s, .unsaved⟩ := eq ▸ rfl
  have base : s.maps[1]? = some (.direct (depotEmpty "c" 4294967295)) := eq ▸ rfl
  have taken : (depotEmpty "c" 4294967295).write [1] (.value [2]) =
      .ok (none, depotFull "c" 4294967295) := rfl
  obtain ⟨after, writes⟩ := Deed.called_direct (e := ⟨0⟩) (m := ⟨1⟩) (c := .put [1] [2]) base rfl
    taken
  show Moment.next ⟨0⟩ (Moment.next ⟨0⟩ (Moment.next ⟨0⟩ ⟨crowdedStart, .unsaved⟩ _) _) _ = _
  have notShut : ¬ Stage.unsaved = .shut := by decide
  rw [opened, Moment.next, after, Deed.stage, if_neg notShut, if_pos writes, eq, crowdedPut]

/-- What an engine finds in the depot once the depot was closed. -/
def crowdedIds : MapIds := (MapIds.empty.record "a" 4294967293).record "c" 4294967295

/-- An engine is closed with all its maps saved, and the next one on the
directory refuses the name of one of them: nothing was ever put into it, so it
has no artifact, and no id is left. -/
theorem crowded_refused :
    ∃ t, crowded.KeptOnly "s" ∧
      EngineHandle.openWith depot (.onDisk crowded) = .ok ⟨0⟩ crowdedStart ∧
      Moment.run ⟨0⟩ ⟨crowdedStart, .unsaved⟩ crowdedDeeds = crowdedPut ∧
      (⟨0⟩ : MapHandle).entries crowdedPut.store = .ok [] crowdedPut.store ∧
      (⟨0⟩ : MapHandle).identity crowdedPut.store = .ok ("b", 4294967294) crowdedPut.store ∧
      (crowdedPut.run ⟨0⟩ [.closed]).stage = .shut ∧
      EngineHandle.openWith depot (.onDisk (crowdedPut.run ⟨0⟩ [.closed]).store.disk) =
        .ok ⟨0⟩ t ∧
      (depotMap "b").perform ⟨0⟩ t = .error (.error (.config "map id space exhausted")) t := by
  have kept : crowded.KeptOnly "s" := by
    intro files listed file mem
    have listing : (crowded.makeDirectories "s").2.list "s" = .ok ["a-4294967293.db"] := by
      decide +kernel
    rw [listing] at listed
    cases listed
    obtain rfl := List.mem_singleton.1 mem
    exact .inl ⟨"a", 4294967293, by decide +kernel, by decide +kernel⟩
  have state : crowdedPut.store.maps[0]? = some (.direct (depotEmpty "b" 4294967294)) := rfl
  have shows : (⟨0⟩ : MapHandle).entries crowdedPut.store = .ok [] crowdedPut.store :=
    MapHandle.entries_open state rfl
  have shut : (crowdedPut.run ⟨0⟩ [.closed]).stage = .shut := by decide +kernel
  -- the next engine
  obtain ⟨disk, eq⟩ : ∃ disk, disk = (crowdedPut.run ⟨0⟩ [.closed]).store.disk := ⟨_, rfl⟩
  have directory : depot.storageDir = some "s" := rfl
  have made : (disk.makeDirectories "s").1 = .ok () := by
    rw [eq]
    decide +kernel
  have listed : (disk.makeDirectories "s").2.list "s" =
      .ok ["a-4294967293.db", "c-4294967295.db"] := by
    rw [eq]
    decide +kernel
  have recovered : MapIds.recover .abort ["a-4294967293.db", "c-4294967295.db"] =
      .ok crowdedIds := rfl
  have ordered : crowdedIds.Ordered := rfl
  have started := EngineHandle.openWith_of_recovered (s := .onDisk disk) directory made listed
    recovered
  have serves : (EngineHandle.booted depot crowdedIds (disk.makeDirectories "s").2
      (.onDisk disk)).Serves ⟨0⟩ (EngineHandle.fresh depot crowdedIds ⟨0⟩) "s" :=
    EngineHandle.serves_booted directory ordered
  have unknown : crowdedIds.get? "b" = none := by decide +kernel
  have last : crowdedIds.lastId = MapIds.maxId := by decide +kernel
  have refused := Opening.refused_of_last serves (depotMap "b") (by decide +kernel) rfl unknown last
  rw [← eq]
  have identity := MapHandle.run_identity state
  exact ⟨_, kept, rfl, run_crowdedDeeds, shows, identity, shut, started, refused⟩

end MapStore
