/-
MapStore.Proofs.Depositing — what was saved can be had from the disk.

A map that has no change since it was saved, or since it was opened, is on the
disk as it is (`UpToDate`). For this it takes that its artifact is its own, which
is so as long as the maps are in order (`Orderly`). The two together are kept by
whatever is done with an engine and its maps (`OrderlyUpToDate`), on whatever directory the
engine was opened.
-/
import MapStore.Proofs.Retiring

namespace MapStore

open Artifact (fileName isValidName)

namespace Store

variable {s s' : Store} {m : MapHandle} {storage : Option String}
  {named : String → Option MapHandle} {busy : Option MapHandle}

/-- The maps are in order, and those without a change that is not saved are on
the disk as they are. -/
structure OrderlyUpToDate (s : Store) (storage : Option String) (named : String → Option MapHandle)
    (busy : Option MapHandle) : Prop where
  orderly : s.Orderly storage named busy
  upToDate : ∀ dir, storage = some dir → s.UpToDate dir

theorem OrderlyUpToDate.of_maps (h : s.OrderlyUpToDate storage named busy) (maps : s'.maps = s.maps)
    (disk : s'.disk = s.disk) : s'.OrderlyUpToDate storage named busy :=
  ⟨h.orderly.of_maps maps disk, fun dir kept => (h.upToDate dir kept).of_maps maps disk⟩

theorem UpkeepMove.orderlyUpToDate (h : s.UpkeepMove s')
    (current : s.OrderlyUpToDate storage named busy) :
    s'.OrderlyUpToDate storage named busy := by
  have o := current.orderly
  refine ⟨(h.passes o).1, fun dir kept => ?_⟩
  obtain ⟨here, houses⟩ := o.housed dir kept
  refine h.upToDate o.layout houses (fun b x role => ?_)
    (fun b b' x x' role role' => o.roster.unique role role') (current.upToDate dir kept)
  obtain ⟨valid, path⟩ := o.sited b x role
  rw [kept] at path
  exact ⟨valid, path⟩

theorem Writes.orderlyUpToDate (h : s.Writes s') (current : s.OrderlyUpToDate storage named busy) :
    s'.OrderlyUpToDate storage named busy :=
  ⟨(h.passes current.orderly).1, fun dir kept =>
    h.upToDate current.orderly.layout (current.upToDate dir kept)⟩

theorem Closes.orderlyUpToDate (h : s.Closes m s')
    (current : s.OrderlyUpToDate storage named (some m)) :
    s'.OrderlyUpToDate storage named (some m) :=
  ⟨(h.passes current.orderly).1, fun dir kept => h.upToDate (current.upToDate dir kept)⟩

theorem UpkeepMoves.orderlyUpToDate (h : s.UpkeepMoves s')
    (current : s.OrderlyUpToDate storage named busy) :
    s'.OrderlyUpToDate storage named busy := by
  induction h with
  | refl => exact current
  | tail before move ih => exact move.orderlyUpToDate ih

/-- A close of any map, whatever comes of it. -/
theorem OrderlyUpToDate.close (m : MapHandle) (current : s.OrderlyUpToDate storage named none) :
    (m.close.after s).OrderlyUpToDate storage named none := by
  refine ⟨(close_passes m s current.orderly).1, ?_⟩
  obtain ⟨closes, -⟩ := close_runs current.orderly.layout m
  generalize m.close.after s = s' at closes
  have closed : s'.OrderlyUpToDate storage named (some m) := by
    induction closes with
    | refl => exact ⟨current.orderly.busied m, current.upToDate⟩
    | tail before move ih => exact move.elim (·.orderlyUpToDate ih) (·.orderlyUpToDate ih)
  exact closed.upToDate

/-- An engine that makes a map has it as its artifact is. -/
theorem Adds.orderlyUpToDate {settings : MapSettings} {keyType valueType : DataType}
    {live : LiveHandle} {named' : String → Option MapHandle}
    (h : Adds settings keyType valueType live s named s' named')
    (valid : isValidName settings.name = true) (lawful : Std.TransCmp keyType.compare)
    (current : s.OrderlyUpToDate settings.storageDir named none) :
    s'.OrderlyUpToDate settings.storageDir named' none := by
  refine ⟨h.orderly valid lawful current.orderly, fun dir kept b d state clean => ?_⟩
  have upToDate := current.upToDate dir kept
  have old : ∀ {st}, s.Makes st live s' → (∀ d, st = .direct d → d.Held dir s.disk) →
      d.Held dir s'.disk := by
    intro st makes held
    rw [makes.at?] at state
    rw [makes.disk]
    split at state
    · cases state
      exact held d rfl
    · exact upToDate b d state clean
  cases h with
  | memory free makes => exact old makes nofun
  | direct free makes loaded listed =>
    refine old makes fun d' eq => ?_
    cases eq
    exact loaded.held kept
  | layered given makes above base loaded isOpen empty waiting own =>
    refine old makes fun d' eq => ?_
    rw [eq] at above
    cases above

theorem orderlyUpToDate_upheld : Upheld storage (fun _ => True) fun named s =>
    s.OrderlyUpToDate storage named none where
  layout h := h.orderly.layout
  still h := h.of_maps
  upkeep h move := move.orderlyUpToDate h
  writes h move := move.orderlyUpToDate h
  closes m h _ := h.close m
  adds kept valid lawful adds h := by
    subst kept
    exact adds.orderlyUpToDate valid lawful h

end Store

/-- An engine that was just opened has no maps. -/
theorem EngineHandle.orderlyUpToDate_of_openWith {config : Config} {disk : Disk} {e : EngineHandle}
    {s : Store} (start : openWith config (.onDisk disk) = .ok e s) :
    s.Holds e config.storageDir fun named s => s.OrderlyUpToDate config.storageDir named none := by
  obtain ⟨maps, -, houses⟩ := works_of_openWith start
  have empty : s.maps = [] := maps
  exact holds_of_openWith start fun named nothing =>
    ⟨.of_empty empty nothing houses, fun dir _ b d base => by simp [empty] at base⟩

end MapStore
