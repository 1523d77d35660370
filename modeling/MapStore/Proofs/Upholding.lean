/-
MapStore.Proofs.Upholding — what is upheld whatever is done.

Everything that is done with an engine comes to moves that leave what maps show,
to writes, to closes of maps, and to maps that the engine makes. A property of
maps and of their names that each of these keeps (`Upheld`) is kept by every act
(`Upheld.act`) and so by any number of them (`Upheld.run`).

An engine closes the maps that it names, no matter which they are. A property
need not outlast the close of any other map: `mayShut` tells which ones may be
closed by themselves.
-/
import MapStore.Proofs.Footprint

namespace MapStore

open Artifact (isValidName)
open Store

/-- The key type of a map that is asked for is a lawful order. -/
def Act.Lawful : Act → Prop
  | deed d => d.Lawful
  | shut _ => True

/-- A property of stores, for the maps that are named, that is kept by whatever
is done with maps. It rests on the layout, and on nothing but the maps and the
disk. -/
structure Upheld (storage : Option String) (mayShut : MapHandle → Prop)
    (I : (String → Option MapHandle) → Store → Prop) : Prop where
  layout : ∀ {named s}, I named s → s.Layout
  still : ∀ {named s s'}, I named s → s'.maps = s.maps → s'.disk = s.disk → I named s'
  upkeep : ∀ {named s s'}, I named s → s.UpkeepMove s' → I named s'
  writes : ∀ {named s s'}, I named s → s.Writes s' → I named s'
  closes : ∀ {named s} m, I named s → (mayShut m ∨ ∃ name, named name = some m) →
    I named (m.close.after s)
  adds : ∀ {settings keyType valueType live named s named' s'},
    settings.storageDir = storage → isValidName settings.name = true →
      Std.TransCmp keyType.compare → Adds settings keyType valueType live s named s' named' →
      I named s → I named' s'

/-- The property holds of the engine's maps. An engine that was closed has
forgotten the names. -/
inductive Store.Holds (s : Store) (e : EngineHandle) (storage : Option String)
    (I : (String → Option MapHandle) → Store → Prop) : Prop
  | working {x : Engine} (works : s.Works e x storage) (ids : x.ids.Ordered)
      (table : x.maps.order = compare) (holds : I x.maps.get? s)
  | ended {named : String → Option MapHandle} (ended : e.Ended s) (holds : I named s)

variable {s s' : Store} {e : EngineHandle} {x : Engine} {storage : Option String}
  {mayShut : MapHandle → Prop} {I : (String → Option MapHandle) → Store → Prop}

theorem Store.Holds.imp {J : (String → Option MapHandle) → Store → Prop}
    (h : s.Holds e storage I) (weaker : ∀ {named}, I named s → J named s) :
    s.Holds e storage J := by
  cases h with
  | working works ids table holds => exact .working works ids table (weaker holds)
  | ended ended holds => exact .ended ended (weaker holds)

theorem Store.Holds.holds (h : s.Holds e storage I) :
    (∃ named, I named s) ∧ ∃ x, s.engines[e.index]? = some x := by
  cases h with
  | working works ids table holds => exact ⟨⟨_, holds⟩, _, works.engine⟩
  | ended ended holds =>
    obtain ⟨x, engine, -⟩ := ended
    exact ⟨⟨_, holds⟩, x, engine⟩

/-- Steps of the maps. -/
theorem Store.Holds.modeSteps (h : s.Holds e storage I) (steps : s.ModeSteps s')
    (kept : ∀ {named}, I named s → I named s') : s'.Holds e storage I := by
  cases h with
  | working works ids table holds => exact .working (works.modeSteps steps) ids table (kept holds)
  | ended ended holds => exact .ended (ended.congr steps.engines) (kept holds)

namespace Upheld

/-! ## One act -/

theorem runs (u : Upheld storage mayShut I) {named : String → Option MapHandle}
    (runs : s.Runs Writes s') (holds : I named s) : I named s' := by
  induction runs with
  | refl => exact holds
  | tail _ move ih => exact move.elim (u.upkeep ih) (u.writes ih)

/-- Whatever comes of a request. -/
theorem opening (u : Upheld storage mayShut I) (works : s.Works e x storage) (ids : x.ids.Ordered)
    (table : x.maps.order = compare) (holds : I x.maps.get? s) (o : Opening)
    (lawful : Std.TransCmp o.keyType.compare) : ((o.perform e).after s).Holds e storage I := by
  suffices after : ∃ x', ((o.perform e).after s).Works e x' storage ∧ x'.ids.Ordered ∧
      x'.maps.order = compare ∧ I x'.maps.get? ((o.perform e).after s) by
    obtain ⟨x', works', ids', table', holds'⟩ := after
    exact .working works' ids' table' holds'
  have assigned : ∀ id ids', x.ids.idFor o.name = .ok (id, ids') →
      (s.withEngine e { x with ids := ids' }).Works e { x with ids := ids' } storage ∧
        ids'.Ordered := fun id ids' given =>
    ⟨⟨EngineHandle.engine_withEngine _ works.engine, works.isOpen, works.alive, works.storage⟩,
      (MapIds.idFor_ok ids given).1⟩
  refine o.after_cases (P := fun x' s' => s'.Works e x' storage ∧ x'.ids.Ordered ∧
      x'.maps.order = compare ∧ I x'.maps.get? s')
    works.engine works.isOpen works.alive ⟨works, ids, table, holds⟩
    (fun id ids' given => ?_) fun id ids' m s' valid new given built => ?_
  · obtain ⟨works', ordered⟩ := assigned id ids' given
    exact ⟨works', ordered, table, u.still holds rfl rfl⟩
  · obtain ⟨works', ordered⟩ := assigned id ids' given
    obtain ⟨-, engines, alive⟩ := built.leaves
    have storageDir : (x.settings o.name id).storageDir = storage := works.storage
    have begun : I x.maps.get? (s.withEngine e { x with ids := ids' }) := u.still holds rfl rfl
    have made := built.adds new begun fun adds => u.adds storageDir valid lawful adds
    have named : (Engine.register { x with ids := ids' } o.name m).maps.get? =
        Function.update x.maps.get? o.name (some m) := by
      funext other
      rw [EngineHandle.get?_register (x := { x with ids := ids' }) table, Function.update_apply]
    refine ⟨⟨EngineHandle.engine_withEngine _ (engines ▸ works'.engine), works.isOpen,
      alive.trans works.alive, works.storage⟩, ordered, table, ?_⟩
    rw [named]
    exact u.still made rfl rfl

/-- The close of the engine, whatever comes of it. -/
theorem close (u : Upheld storage mayShut I) (h : s.Holds e storage I) :
    (e.close.after s).Holds e storage I ∧ e.Ended (e.close.after s) := by
  cases h with
  | ended ended holds =>
    rw [Action.after_of_ok (EngineHandle.close_ended ended)]
    exact ⟨.ended ended holds, ended⟩
  | @working x works ids table holds =>
    obtain ⟨maps, disk, ended, -⟩ := EngineHandle.close_leaves works.engine works.isOpen
    have lawful : Std.TransCmp x.maps.order := by
      rw [table]
      infer_instance
    have begun : I x.maps.get? (e.closing x s) := u.still holds rfl rfl
    have closed : I x.maps.get? (e.closing x s) → I x.maps.get?
        ((EngineHandle.forEachMap MapHandle.close x.maps.values).after (e.closing x s)) :=
      EngineHandle.after_forEachMap (R := fun s s' => I x.maps.get? s → I x.maps.get? s')
        (fun _ => id) (fun first next => next ∘ first)
        (fun m mem s holds => u.closes m holds (.inr (SortedTable.get?_of_mem_values mem))) _
    exact ⟨.ended ended (u.still (closed begun) maps disk), ended⟩

/-- Any act. -/
theorem act (u : Upheld storage mayShut I) (h : s.Holds e storage I) (act : Act)
    (lawful : act.Lawful) (may : ∀ m, act = .shut m → mayShut m) :
    (act.after e s).Holds e storage I := by
  obtain ⟨⟨named, holds⟩, x, engine⟩ := h.holds
  have layout := u.layout holds
  have upkept : ∀ {s'}, s.UpkeepMoves s' → s.ModeSteps s' → s'.Holds e storage I :=
    fun upkept steps => h.modeSteps steps (u.runs (upkept.runs Writes))
  cases act with
  | shut m =>
    exact h.modeSteps (UnbufferSteps.close m s).modeSteps fun holds =>
      u.closes m holds (.inl (may m rfl))
  | deed d =>
    cases d with
    | opened o =>
      cases h with
      | working works ids table holds => exact u.opening works ids table holds o lawful
      | ended ended holds =>
        have same : (Act.deed (.opened o)).after e s = s := EngineHandle.perform_ended ended o
        rw [same]
        exact .ended ended holds
    | called c m =>
      exact h.modeSteps (UnbufferSteps.call c m s).modeSteps (u.runs (call_runs layout c m).1)
    | upkept k m => exact upkept (upkeep_moves layout k m) (k.modeSteps m s)
    | metered meters => exact upkept (.single (.metered meters)) (.still (.of_maps rfl rfl rfl))
    | ticked => exact upkept (Deed.tick_moves e layout) (EngineHandle.Run.modeSteps_tick e s)
    | committed =>
      exact upkept (Deed.commit_moves e layout)
        (EngineHandle.Run.unbufferSteps_commit e s).modeSteps
    | closed => exact (u.close h).1
    | dropped =>
      obtain ⟨closed, ended⟩ := u.close h
      obtain ⟨⟨named, holds'⟩, y, engine'⟩ := closed.holds
      obtain ⟨maps, disk, engines⟩ := EngineHandle.drop_leaves engine'
      exact .ended (ended.congr engines) (u.still holds' maps disk)

/-! ## Any acts -/

theorem run (u : Upheld storage mayShut I) (h : s.Holds e storage I) (acts : List Act)
    (lawful : ∀ act ∈ acts, act.Lawful) (may : ∀ m, .shut m ∈ acts → mayShut m) :
    (Act.run e s acts).Holds e storage I := by
  induction acts generalizing s with
  | nil => exact h
  | cons act rest ih =>
    have first := u.act h act (lawful act (List.mem_cons_self ..))
      fun m eq => may m (eq ▸ List.mem_cons_self ..)
    exact ih first (fun act mem => lawful act (List.mem_cons_of_mem _ mem))
      fun m mem => may m (List.mem_cons_of_mem _ mem)

end Upheld

/-- An engine that was just opened has no maps. -/
theorem EngineHandle.holds_of_openWith {config : Config}
    (start : openWith config s = .ok e s')
    (begins : ∀ named : String → Option MapHandle, (∀ name, named name = none) → I named s') :
    s'.Holds e config.storageDir I := by
  obtain ⟨-, ⟨x, works, ids, table⟩, -⟩ := works_of_openWith start
  have nothing : ∀ name, x.maps.get? name = none := fun name => by
    rw [table]
    rfl
  exact .working works ids (by rw [table]; rfl) (begins _ nothing)

end MapStore
