/-
MapStore.Proofs.Unasked — a name that nobody asks for keeps its artifacts.

As long as an engine is not asked for a name, there is no direct map of that
name in its store (`Lacks`). Only a direct map that is saved changes the disk,
and there nothing but its own artifact. So whatever is done with the engine,
its close and all that comes after it included, leaves the artifacts of the
name (`Disk.Leaves`), and with them what the directory gives back
(`Disk.Restores.congr`).
-/
import MapStore.Proofs.Sessions

namespace MapStore

open Artifact (fileName isValidName)

variable {dir name : String} {here : Place} {ids : MapIds}

/-! ## Artifacts that stay as they are -/

namespace Disk

variable {disk disk' disk'' : Disk}

namespace Leaves

theorem of_eq (same : disk' = disk) : disk.Leaves disk' here name := fun _ => by rw [same]

theorem trans (h : disk.Leaves disk' here name) (h' : disk'.Leaves disk'' here name) :
    disk.Leaves disk'' here name := fun id => (h' id).trans (h id)

end Leaves

/-- The directory gives back what it did, if the artifacts of the name are as
they were and it holds nothing but what engines leave. -/
theorem Restores.congr {base : Base} {entries : List (Bytes × Bytes)}
    (h : disk.Restores dir here base entries) (shelved : Shelved disk' dir here ids)
    (leaves : disk.Leaves disk' here base.name) : disk'.Restores dir here base entries := by
  obtain ⟨ids₀, before⟩ := h.shelved
  refine ⟨h.valid, ⟨ids, shelved⟩, fun id there => ?_, fun fits => ?_⟩
  · rw [leaves] at there ⊢
    exact h.latest id there
  · obtain ⟨stored, read, shows⟩ := h.stored fits
    refine ⟨stored, ?_, shows⟩
    rw [← read]
    exact DirectMap.storedEntries_congr rfl (at?_join_congr before.houses shelved.houses
      (Artifact.isPlain_fileName h.valid base.id) (leaves base.id))

end Disk

namespace Store

variable {s s' : Store} {e : EngineHandle} {x : Engine}

/-! ## Moves of other maps -/

/-- No direct map has the name. -/
def Lacks (s : Store) (name : String) : Prop :=
  ∀ b x, s.role? b = some (.base x) → x.name ≠ name

theorem Lacks.congr (h : s.Lacks name) (same : s'.role? = s.role?) : s'.Lacks name := by
  unfold Lacks
  rw [same]
  exact h

theorem Writes.disk (h : s.Writes s') : s'.disk = s.disk := by
  cases h <;> rfl

theorem Closing.disk (h : s.Closing s') : s'.disk = s.disk := by
  obtain ⟨m, closes⟩ := h
  cases closes <;> rfl

/-- A move leaves the artifacts of a name that no direct map with something to
save has. -/
theorem UpkeepMove.leaves (h : s.UpkeepMove s') (houses : s.disk.Houses dir here)
    (named : ∀ b x, s.role? b = some (.base x) → isValidName x.name = true ∧
      x.path = some (Disk.join dir (fileName x.name x.id)))
    (lacks : ∀ (b : MapHandle) (d : DirectMap),
      s.maps[b.index]? = some (.direct d) → d.dirty = true → d.name ≠ name) :
    s.disk.Leaves s'.disk here name := by
  cases h with
  | @saved b d base =>
    obtain ⟨valid', path⟩ : isValidName d.name = true ∧
        d.path = some (Disk.join dir (fileName d.name d.id)) :=
      named b d.toBase (role?_of_maps base)
    show s.disk.Leaves (d.save s.disk).2.2 here name
    cases dirty : d.dirty with
    | false =>
      rw [DirectMap.save_of_clean dirty]
      exact .of_eq rfl
    | true =>
      obtain ⟨disk, saves, outcome⟩ := DirectMap.save_ends houses valid' path dirty
      have after : (d.save s.disk).2.2 = disk := by
        obtain ⟨run, -⟩ | ⟨cause, run, -⟩ := outcome <;> rw [run]
      rw [after]
      exact saves.leaves (lacks b d base dirty)
  | left state drained =>
    refine .of_eq ?_
    split <;> rfl
  | metered meters => exact .of_eq rfl
  | counted units => exact .of_eq rfl
  | merged state above waiting first base wrote => exact .of_eq rfl
  | entered state direct alive => exact .of_eq rfl

/-- A run in which the other moves leave the disk. -/
theorem Runs.leaves {R : Store → Store → Prop}
    (kept : ∀ {s s'}, R s s' → s.Kept dir here ids → s'.Kept dir here ids)
    (role : ∀ {s s'}, R s s' → s'.role? = s.role?) (disk : ∀ {s s'}, R s s' → s'.disk = s.disk)
    (h : s.Runs R s') (before : s.Kept dir here ids) (lacks : s.Lacks name) :
    s'.Kept dir here ids ∧ s'.Lacks name ∧ s.disk.Leaves s'.disk here name := by
  induction h with
  | refl => exact ⟨before, lacks, .of_eq rfl⟩
  | tail _ move ih =>
    obtain ⟨kept₁, lacks₁, leaves⟩ := ih
    rcases move with upkeep | other
    · have own := upkeep.leaves kept₁.shelved.houses (fun b x role =>
          ⟨(kept₁.filed.named b x role).1, (kept₁.filed.named b x role).2.1⟩)
        fun b d base _ => lacks₁ b d.toBase (role?_of_maps base)
      exact ⟨upkeep.kept kept₁, lacks₁.congr upkeep.role?, leaves.trans own⟩
    · exact ⟨kept other kept₁, lacks₁.congr (role other), leaves.trans (.of_eq (disk other))⟩

/-! ## Engines that are not asked for the name -/

/-- The engine was not asked for the name, so no map has it. -/
inductive Unasked (e : EngineHandle) (dir : String) (here : Place) (name : String) (s : Store) :
    Prop
  | running {x : Engine} (housed : s.Housed e x dir here) (new : x.maps.get? name = none)
  | ended {ids : MapIds} (ended : e.Ended s) (kept : s.Kept dir here ids) (lacks : s.Lacks name)

theorem Housed.lacks (h : s.Housed e x dir here) (new : x.maps.get? name = none) : s.Lacks name :=
  fun _ _ role => h.furnished.roster.fresh new role

/-- The close of an open engine, or its end without one. -/
theorem Housed.ending (h : s.Housed e x dir here) (new : x.maps.get? name = none)
    (maps : s'.maps = (e.close.after s).maps) (disk : s'.disk = (e.close.after s).disk)
    (ended : e.Ended s') :
    Unasked e dir here name s' ∧ s.disk.Leaves s'.disk here name := by
  obtain ⟨maps₁, disk₁, -⟩ := EngineHandle.close_leaves h.engine h.isOpen
  have begun : (e.closing x s).Kept dir here x.ids := h.furnished.kept.of_maps rfl rfl
  have lacks : (e.closing x s).Lacks name := (h.lacks new).congr (role?_congr rfl)
  obtain ⟨kept, lacks, leaves⟩ :=
    (Deed.closing_runs h).leaves Closing.kept Closing.role? Closing.disk begun lacks
  have maps := maps.trans maps₁
  have disk := disk.trans disk₁
  exact ⟨.ended ended (kept.of_maps maps disk) (lacks.congr (role?_congr maps)), disk ▸ leaves⟩

end Store

/-- The deed asks the engine for a map of the name. -/
def Deed.AsksFor (name : String) : Deed → Prop
  | opened o => o.name = name
  | _ => False

/-- The store after deeds. -/
def Store.through (s : Store) (e : EngineHandle) (deeds : List Deed) : Store :=
  deeds.foldl (Deed.after e) s

namespace Store.Unasked

variable {s : Store} {e : EngineHandle}

theorem kept (h : Unasked e dir here name s) : ∃ ids, s.Kept dir here ids := by
  cases h with
  | running housed new => exact ⟨_, housed.furnished.kept⟩
  | ended ended kept lacks => exact ⟨_, kept⟩

/-- A deed that does not ask for the name. -/
theorem next (h : Unasked e dir here name s) (deed : Deed) (lawful : deed.Lawful)
    (unasked : ¬ deed.AsksFor name) :
    Unasked e dir here name (deed.after e s) ∧ s.disk.Leaves (deed.after e s).disk here name := by
  cases h with
  | @running x housed new =>
    obtain plain | ⟨o, rfl⟩ | rfl | rfl := deed.kinds
    · obtain ⟨runs, -, engines⟩ :=
        Deed.moves e housed.furnished.kept.layout deed plain
      obtain ⟨-, -, leaves⟩ := runs.leaves Writes.kept Writes.role? Writes.disk
        housed.furnished.kept (housed.lacks new)
      exact ⟨.running (housed.runs runs engines) new, leaves⟩
    · obtain ⟨x', housed', -⟩ := o.housed housed lawful
      obtain ⟨x'', serves, disk, same⟩ := o.passes housed.toServes
      obtain rfl : x'' = x' := Option.some.inj (serves.engine.symm.trans housed'.engine)
      have other : name ≠ o.name := fun eq => unasked eq.symm
      exact ⟨.running housed' ((same name other).1.trans new), .of_eq disk⟩
    · obtain ⟨-, -, ended, -⟩ := EngineHandle.close_leaves housed.engine housed.isOpen
      exact housed.ending new rfl rfl ended
    · obtain ⟨-, -, ended, -⟩ := EngineHandle.close_leaves housed.engine housed.isOpen
      obtain ⟨x', engine, closed⟩ := ended
      obtain ⟨maps, disk, engines⟩ := EngineHandle.drop_leaves engine
      exact housed.ending new maps disk (.congr ⟨x', engine, closed⟩ engines)
  | ended ended kept lacks =>
    obtain ⟨s₁, runs, -, maps, disk, ended'⟩ := deed.idles ended kept.layout
    obtain ⟨kept₁, lacks₁, leaves⟩ :=
      runs.leaves Writes.kept Writes.role? Writes.disk kept lacks
    exact ⟨.ended ended' (kept₁.of_maps maps disk) (lacks₁.congr (role?_congr maps)),
      disk ▸ leaves⟩

/-- Any deeds that do not ask for the name. -/
theorem through (h : Unasked e dir here name s) (deeds : List Deed)
    (lawful : ∀ deed ∈ deeds, deed.Lawful)
    (unasked : ∀ deed ∈ deeds, ¬ deed.AsksFor name) :
    Unasked e dir here name (s.through e deeds) ∧
      s.disk.Leaves (s.through e deeds).disk here name := by
  induction deeds generalizing s with
  | nil => exact ⟨h, .of_eq rfl⟩
  | cons deed rest ih =>
    obtain ⟨first, leaves⟩ :=
      h.next deed (lawful deed (List.mem_cons_self ..)) (unasked deed (List.mem_cons_self ..))
    obtain ⟨last, leaves'⟩ := ih first (fun deed mem => lawful deed (List.mem_cons_of_mem _ mem))
      fun deed mem => unasked deed (List.mem_cons_of_mem _ mem)
    exact ⟨last, leaves.trans leaves'⟩

/-- An engine that is open still runs. -/
theorem housed (h : Unasked e dir here name s) (isOpen : e.isOpen s = true) :
    ∃ x, s.Housed e x dir here ∧ x.maps.get? name = none := by
  cases h with
  | running housed new => exact ⟨_, housed, new⟩
  | ended ended kept lacks =>
    rw [ended.notOpen] at isOpen
    cases isOpen

end Store.Unasked

end MapStore
