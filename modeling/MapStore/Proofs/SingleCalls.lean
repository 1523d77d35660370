/-
MapStore.Proofs.SingleCalls — engines that open one map, call it once and close.

An `errand` is the whole life of an engine that is opened on a directory for
the sake of one call. If the directory can be made and read, and the map has an
id and an artifact that can be loaded or none, the map is open and fresh when it
is called (`Opening.starts`); if the call is answered and what the map then owes
can be saved, the engine closes, and the disk it leaves is the one that this
save leaves (`errand_ends`). If there is no id left for the map, the errand is
refused, and all that it did to the disk is to make the directory
(`errand_refused`).
-/
import MapStore.Proofs.UnsavedChanges
import MapStore.Proofs.Restarting

namespace MapStore

variable {dir : String} {here : Place} {ids ids' : MapIds} {id : MapId}

namespace Store

variable {s s' s'' : Store} {m : MapHandle} {d : DirectMap} {live : LiveHandle}
  {settings : MapSettings} {keyType valueType : DataType} {kind : MapKind}

/-- A map that was just built is fresh, unless it keeps nothing. -/
theorem Built.fresh (h : s.Built settings keyType valueType live kind m s')
    (lasting : kind ≠ .inMemory)
    (loaded : DirectMap.load settings keyType valueType s.disk = .ok d)
    (maps : s''.maps = s'.maps) (layout : s''.Layout)
    (opened : ∀ m, s''.role? m ≠ some .memory → s''.OpenAt m) : s''.Fresh m d := by
  have isOpen : d.closed = false := (DirectMap.loaded_of_load loaded).isOpen
  have lasts : ∀ {m : MapHandle} {st : MapState}, s''.maps[m.index]? = some st →
      st.role ≠ .memory → s''.OpenAt m := fun {m st} state role =>
    opened m fun eq => role (Option.some.inj ((role?_of_maps state).symm.trans eq))
  cases h with
  | memory => exact absurd rfl lasting
  | direct loaded' grown =>
    rw [loaded] at loaded'
    cases loaded'
    have base := grown.first
    rw [← maps] at base
    exact ⟨layout, lasts base nofun, isOpen, s.next, none, rests_direct base, nofun⟩
  | buffered loaded' grown =>
    rw [loaded] at loaded'
    cases loaded'
    have base := grown.first
    have top := grown.second
    rw [← maps] at base top
    refine ⟨layout, lasts top nofun, isOpen, s.next, _,
      ⟨base, .inr ⟨_, _, top, rfl, rfl, rfl⟩⟩, fun w eq => ?_⟩
    cases eq
    exact WriteBuffer.snapshot_empty _
  | adaptive loaded' grown =>
    rw [loaded] at loaded'
    cases loaded'
    have base := grown.first
    have top := grown.second
    rw [← maps] at base top
    exact ⟨layout, lasts top nofun, isOpen, s.next, none,
      ⟨base, .inr ⟨_, _, top, rfl, rfl, rfl⟩⟩, nofun⟩

end Store

/-- A request for a map that is not open yet, under a name with an id, is
answered with a fresh map if its artifact can be loaded. -/
theorem Opening.starts {s : Store} {e : EngineHandle} {x : Engine} {d : DirectMap}
    (h : s.Housed e x dir here) (o : Opening) (lawful : Std.TransCmp o.keyType.compare)
    (lasting : o.kind ≠ .inMemory) (valid : Artifact.isValidName o.name = true)
    (new : x.maps.get? o.name = none) (given : x.ids.idFor o.name = .ok (id, ids))
    (loaded : DirectMap.load (x.settings o.name id) o.keyType o.valueType s.disk = .ok d) :
    ∃ m s', o.perform e s = .ok m s' ∧
      s'.Housed e ({ x with ids }.register o.name m) dir here ∧ s'.disk = s.disk ∧
      s'.Fresh m d := by
  obtain opens | ⟨m, cause, there, -⟩ := o.opens h.engine h.isOpen h.alive
  · generalize run : o.perform e s = r at opens
    cases opens with
    | invalid bad => simp [Artifact.checkName, valid] at bad
    | found _ there =>
      rw [new] at there
      cases there
    | exhausted _ _ none =>
      rw [given] at none
      cases none
    | unloadable _ _ given' _ broken =>
      rw [given] at given'
      cases given'
      rw [loaded] at broken
      cases broken
    | @built _ _ m s' _ _ given' built =>
      rw [given] at given'
      cases given'
      obtain ⟨-, gives, -⟩ := MapIds.idFor_ok h.ids given
      have known : ids.get? o.name = some id := (gives o.name).trans (if_pos rfl)
      obtain ⟨housed, grows⟩ := (h.assign given).built valid new known lawful built
      exact ⟨m, _, rfl, housed, grows.disk, built.fresh lasting loaded rfl
        housed.furnished.kept.layout housed.furnished.opened⟩
  · rw [new] at there
    cases there

namespace EngineHandle

variable {config : Config} {e : EngineHandle} {x : Engine} {m : MapHandle}
  {d d' : DirectMap} {files : List String}

/-- Closing an engine closes its only map. -/
theorem close_single {s : Store} (engine : s.engines[e.index]? = some x) (isOpen : x.closed = false)
    (only : x.maps.values = [m]) (owes : s.Owes m d) (saved : (d.save s.disk).1 = .ok ()) :
    ∃ s', e.close s = .ok () s' ∧ s'.disk = (d.save s.disk).2.2 := by
  have owes' : (e.closing x s).Owes m d := owes.of_maps rfl
  obtain ⟨s₁, closed, disk, engines⟩ := owes'.close saved
  have each : forEachMap MapHandle.close [m] (e.closing x s) = .ok () s₁ := by
    simp [forEachMap, closed, firstFailure]
  have engine₁ : s₁.engines[e.index]? =
      some { x with closed := true, running := false, maps := x.maps.clear } := by
    rw [engines]
    exact engine_withEngine _ engine
  rw [run_close engine isOpen, only, Action.run_bind, Action.run_attempt, each]
  exact ⟨_, run_forget x.live engine₁, disk⟩

/-- An engine opens one map, has it called once and closes. -/
def errand {α : Type} (config : Config) (o : Opening) (call : MapHandle → Action α) : Action α := do
  let e ← openWith config
  let m ← o.perform e
  let r ← call m
  e.close
  return r

/-- An engine starts on a directory that can be made and read. -/
theorem openWith_of_made {disk made : Disk} (directory : config.storageDir = some dir)
    (makes : disk.makeDirectories dir = (.ok (), made)) (listed : made.list dir = .ok files)
    (recovered : MapIds.recover config.recoveryPolicy files = .ok ids) :
    openWith config (.onDisk disk) = .ok ⟨0⟩ (booted config ids made (.onDisk disk)) := by
  have starts := openWith_of_recovered (s := .onDisk disk) directory (congrArg Prod.fst makes)
    ((congrArg (·.2.list dir) makes).trans listed) recovered
  rw [starts, show (Store.onDisk disk).disk.makeDirectories dir = _ from makes]
  rfl

/-- An errand ends well if the directory and the artifact can be read, the call
is answered and what the map owes then can be saved. -/
theorem errand_ends {α : Type} {call : MapHandle → Action α} {r : α} {disk made : Disk}
    (directory : config.storageDir = some dir)
    (makes : disk.makeDirectories dir = (.ok (), made)) (listed : made.list dir = .ok files)
    (recovered : MapIds.recover config.recoveryPolicy files = .ok ids)
    (shelved : Shelved made dir here ids) (o : Opening)
    (lawful : Std.TransCmp o.keyType.compare) (lasting : o.kind ≠ .inMemory)
    (valid : Artifact.isValidName o.name = true) (given : ids.idFor o.name = .ok (id, ids'))
    (loaded : DirectMap.load
      { name := o.name, id, storageDir := some dir, options := config.options }
      o.keyType o.valueType made = .ok d)
    (called : Store.Brings call d r d')
    (saved : (d'.save made).1 = .ok ()) :
    ∃ s', errand config o call (.onDisk disk) = .ok r s' ∧ s'.disk = (d'.save made).2.2 := by
  have start := openWith_of_made directory makes listed recovered
  have housed :
      (booted config ids made (.onDisk disk)).Housed ⟨0⟩ (fresh config ids ⟨0⟩) dir here :=
    ⟨serves_booted directory (MapIds.recovers_of_recover recovered).ordered,
      furnished_booted rfl shelved⟩
  obtain ⟨m, s₂, opened, housed₂, disk₂, fresh₂⟩ :=
    o.starts housed lawful lasting valid rfl given (directory ▸ loaded)
  have only : ((SortedTable.empty compare).insert o.name m).2.values = [m] := by
    rw [SortedTable.values, SortedTable.toList_insert_of_nil _ rfl]
    rfl
  obtain ⟨s₃, call₃, owes, disk₃, engines₃⟩ := called m s₂ fresh₂
  have disk : s₃.disk = made := disk₃.trans disk₂
  rw [← disk] at saved
  obtain ⟨s₄, closed, disk₄⟩ :=
    close_single (engines₃ ▸ housed₂.engine) housed₂.isOpen only owes saved
  refine ⟨s₄, ?_, by rw [disk₄, disk]⟩
  unfold errand
  simp only [Action.run_bind, start, opened, call₃, closed]
  rfl

/-- An errand to a map that there is no id left for is refused, and does no more
to the disk than to make the directory. -/
theorem errand_refused {α : Type} (call : MapHandle → Action α) {disk made : Disk}
    (directory : config.storageDir = some dir)
    (makes : disk.makeDirectories dir = (.ok (), made)) (listed : made.list dir = .ok files)
    (recovered : MapIds.recover config.recoveryPolicy files = .ok ids) (o : Opening)
    (valid : Artifact.isValidName o.name = true) (unknown : ids.get? o.name = none)
    (last : ids.lastId = MapIds.maxId) :
    ∃ s', errand config o call (.onDisk disk) =
        .error (.error (.config "map id space exhausted")) s' ∧ s'.disk = made := by
  have start := openWith_of_made directory makes listed recovered
  have serves : (booted config ids made (.onDisk disk)).Serves ⟨0⟩ (fresh config ids ⟨0⟩) dir :=
    serves_booted directory (MapIds.recovers_of_recover recovered).ordered
  have refused := Opening.refused_of_last serves o valid rfl unknown last
  refine ⟨booted config ids made (.onDisk disk), ?_, rfl⟩
  unfold errand
  simp only [Action.run_bind, start, refused]

end EngineHandle

end MapStore
