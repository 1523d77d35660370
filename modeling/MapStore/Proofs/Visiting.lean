/-
MapStore.Proofs.Visiting — a commit and a close come to every map.

An engine commits and closes by going through its table of maps. A map that
refuses does not keep it from the others: it notes the refusal and goes on, and
answers with a refusal in the end. So a pass over the maps is told by what each
of them came to, visited once and in whatever order (`Visits`), and its answer by
that (`Answers`). This is so of any maps, also of such as a caller made; only a
panic ends a pass, and those are not spoken of here (`Returned`).

What a save that succeeded achieves of a map lasts while other maps are saved,
whether they refuse or not, if the maps are as an engine keeps them, apart from
those that misbehave (`Store.tamed`). And they are so whatever is done with an
engine (`OrderlyUpToDate`).
-/
import MapStore.Proofs.Depositing
import MapStore.Proofs.Numbering
import MapStore.Proofs.BesideFaulty

namespace MapStore

/-! ## What a pass comes to -/

/-- What maps came to, one after the other. -/
abbrev Outcomes := List (MapHandle × Except Fault Unit)

/-- No map panicked. -/
def Returned (log : Outcomes) : Prop :=
  ∀ entry ∈ log, ∀ message, entry.2 ≠ .error (.panic message)

/-- How a pass over maps that came to this ends, and with which store: it is
answered if no map failed, and otherwise refused as a map was that failed. -/
inductive Answers (log : Outcomes) (s : Store) : EStateM.Result Fault Store Unit → Prop
  | answered (all : ∀ entry ∈ log, entry.2 = .ok ()) : Answers log s (.ok () s)
  | refused {m : MapHandle} {cause : StoreError} (failed : (m, .error (.error cause)) ∈ log) :
      Answers log s (.error (.error cause) s)

/-- What those that are visited come to is settled by where the visits begin. -/
theorem Visits.unique {β ρ : Type} {act : β → Action ρ} {log log' : List (β × ρ)}
    {s s' s'' : Store} (visits : Visits act s log s') (visits' : Visits act s log' s'')
    (same : log.map Prod.fst = log'.map Prod.fst) : log = log' ∧ s' = s'' := by
  induction visits generalizing log' with
  | nil s =>
    cases visits' with
    | nil => exact ⟨rfl, rfl⟩
    | cons _ _ => cases same
  | cons visit rest ih =>
    cases visits' with
    | nil => cases same
    | cons visit' rest' =>
      obtain ⟨rfl, later⟩ := List.cons.inj same
      rw [visit] at visit'
      cases visit'
      obtain ⟨rfl, rfl⟩ := ih rest' later
      exact ⟨rfl, rfl⟩

/-- A fold that notes the first refusal visits every map. -/
theorem foldlM_visits {action : MapHandle → Action Unit}
    {step : Option StoreError → MapHandle → Action (Option StoreError)} {log : Outcomes}
    {s s' : Store}
    (went : ∀ failure m s s₁, action m s = .ok () s₁ → step failure m s = .ok failure s₁)
    (refused : ∀ failure m s cause s₁, action m s = .error (.error cause) s₁ →
      step failure m s = .ok (some (failure.getD cause)) s₁)
    (visits : Visits (fun m => Action.attempt (action m)) s log s') (returned : Returned log)
    (failure : Option StoreError) :
    ∃ noted, (log.map Prod.fst).foldlM step failure s = .ok noted s' ∧
      (noted = none → failure = none ∧ ∀ entry ∈ log, entry.2 = .ok ()) ∧
      ∀ cause, noted = some cause →
        failure = some cause ∨ ∃ m, (m, .error (.error cause)) ∈ log := by
  induction visits generalizing failure with
  | nil s => exact ⟨failure, rfl, fun none => ⟨none, nofun⟩, fun cause => .inl⟩
  | @cons m r log s s₁ s₂ visit rest ih =>
    have later : Returned log := fun entry mem => returned entry (List.mem_cons_of_mem _ mem)
    rw [Action.run_attempt] at visit
    rw [List.map_cons, List.foldlM_cons, Action.run_bind]
    cases run : action m s with
    | ok _ s₃ =>
      rw [run] at visit
      cases visit
      obtain ⟨noted, folded, none, some⟩ := ih later failure
      refine ⟨noted, ?_, fun eq => ?_, fun cause eq => ?_⟩
      · rw [went failure m s s₁ run]
        exact folded
      · obtain ⟨before, all⟩ := none eq
        exact ⟨before, List.forall_mem_cons.2 ⟨rfl, all⟩⟩
      · exact (some cause eq).imp_right fun ⟨x, mem⟩ => ⟨x, List.mem_cons_of_mem _ mem⟩
    | error fault s₃ =>
      rw [run] at visit
      cases visit
      cases fault with
      | panic message => exact absurd rfl (returned _ (List.mem_cons_self ..) message)
      | error cause =>
        obtain ⟨noted, folded, none, some⟩ := ih later (.some (failure.getD cause))
        refine ⟨noted, ?_, fun eq => ?_, fun cause' eq => ?_⟩
        · rw [refused failure m s cause s₁ run]
          exact folded
        · -- the refusal is not forgotten
          cases (none eq).1
        · obtain first | ⟨x, mem⟩ := some cause' eq
          · cases failure with
            | some before => exact .inl first
            | none =>
              cases first
              exact .inr ⟨m, List.mem_cons_self ..⟩
          · exact .inr ⟨x, List.mem_cons_of_mem _ mem⟩

namespace EngineHandle

/-- How a pass ends that noted this. -/
def conclude : Option StoreError → Action Unit
  | none => return ()
  | some cause => Action.refuse cause

/-- What is done to every map is answered as each of them answers. -/
theorem forEachMap_answers {action : MapHandle → Action Unit} {log : Outcomes} {s s' : Store}
    (visits : Visits (fun m => Action.attempt (action m)) s log s') (returned : Returned log) :
    Answers log s' (forEachMap action (log.map Prod.fst) s) := by
  have pass : ∀ step : Option StoreError → MapHandle → Action (Option StoreError),
      (∀ failure m s s₁, action m s = .ok () s₁ → step failure m s = .ok failure s₁) →
      (∀ failure m s cause s₁, action m s = .error (.error cause) s₁ →
        step failure m s = .ok (some (failure.getD cause)) s₁) →
      Answers log s' ((do conclude (← (log.map Prod.fst).foldlM step none) : Action Unit) s) := by
    intro step went refused
    obtain ⟨noted, folded, all, one⟩ := foldlM_visits went refused visits returned none
    rw [Action.run_bind, folded]
    cases noted with
    | none => exact .answered (all rfl).2
    | some cause =>
      obtain ⟨m, mem⟩ := (one cause rfl).resolve_left nofun
      exact .refused mem
  refine pass _ ?_ ?_
  · intro failure m s s₁ went
    simp [Action.run_attempt, went, firstFailure]
  · intro failure m s cause s₁ refused
    simp [Action.run_attempt, refused, firstFailure]

end EngineHandle

/-! ## What a save achieves -/

namespace Store

variable {s s' : Store} {m : MapHandle} {storage : Option String}
  {named : String → Option MapHandle}

/-- A retired map has nothing to save. -/
theorem Retired.cleanAt (h : s.Retired m) : s.CleanAt m := by
  intro b d waiting rests
  refine ⟨(h.base rests).2, ?_⟩
  cases h with
  | plain state spent =>
    obtain ⟨-, rfl, -⟩ | ⟨front, above, -⟩ := rests.of_state state
    · exact nofun
    · exact absurd spent (not_spent_of_over above)
  | layered above base spent drained => exact drained.rests rests

/-- A map that keeps its entries somewhere is open, or retired. -/
theorem Orderly.openAt_or_retired {b : MapHandle} {d : DirectMap} {waiting : Option WriteBuffer}
    (o : s.Orderly storage named none) (rests : s.Rests m b d waiting) :
    s.OpenAt m ∨ s.Retired m := by
  obtain ⟨rfl, -⟩ | ⟨st, front, state, above, -⟩ := rests.top
  · cases closed : d.closed with
    | true => exact .inr (.plain rests.base ⟨closed, o.tight m d rests.base closed⟩)
    | false =>
      refine .inl fun st state => ?_
      rw [rests.base] at state
      cases state
      simp [MapState.isOpen, closed]
  · refine (openAt_or_marked (by rw [role?_of_maps state, above])).imp_right ?_
    rintro ⟨x, state', closed⟩
    exact o.marked m x state' closed (Option.some_ne_none m)

/-- A map that was saved without a refusal has nothing left to save. -/
theorem OrderlyUpToDate.cleanAt_of_save (current : s.tamed.OrderlyUpToDate storage named none)
    (run : m.save s = .ok () s') : s'.tamed.CleanAt m := by
  have o := current.orderly
  obtain ⟨upkept, clean⟩ := save_moves_tamed o.layout m
  rw [Action.after_of_ok run] at upkept
  intro b d waiting rests
  obtain ⟨d₀, waiting₀, rests₀⟩ := rests.before o.layout upkept.role?
  obtain isOpen | retired := o.openAt_or_retired rests₀
  · exact clean s' run isOpen b d waiting rests
  · have later := (Runs.passes Writes.passes (upkept.runs Writes) o).2
    exact (later.retired m retired).cleanAt b d waiting rests

/-- Once a map was saved it stays so while others are saved, whether those are
refused or not. -/
theorem cleaned_of_attempts {log : Outcomes}
    (visits : Visits (fun m => Action.attempt (MapHandle.save m)) s log s')
    (current : s.tamed.OrderlyUpToDate storage named none)
    (top : ∀ m ∈ log.map Prod.fst, s.tamed.Top m) :
    s.tamed.UpkeepMoves s'.tamed ∧ ∀ m, (m, .ok ()) ∈ log → s'.tamed.CleanAt m := by
  induction visits with
  | nil s => exact ⟨.refl, nofun⟩
  | @cons x r log s s₁ s₂ visit rest ih =>
    obtain ⟨first, -⟩ := save_moves_tamed current.orderly.layout x
    have left : x.save.after s = s₁ := by
      rw [← Action.after_attempt]
      exact Action.after_of_ok visit
    rw [left] at first
    have current₁ := first.orderlyUpToDate current
    have top₁ : ∀ m ∈ log.map Prod.fst, s₁.tamed.Top m := fun m mem =>
      (top m (List.mem_cons_of_mem _ mem)).congr first.role?
    obtain ⟨later, cleaned⟩ := ih current₁ top₁
    refine ⟨first.trans later, fun m mem => ?_⟩
    rcases List.mem_cons.1 mem with eq | mem
    · cases eq
      obtain ⟨⟨⟩, run⟩ := ok_of_attempt visit rfl
      have layout₁ := current₁.orderly.layout
      have carries := later.carries layout₁ ((top x (List.mem_cons_self ..)).congr first.role?)
      exact carries.cleanAt layout₁ later.role? (current.cleanAt_of_save run)
    · exact cleaned m mem

/-- In the later store nothing waits in the map any more. It has the entries that
it had, and they can be loaded from its artifact. -/
def Secured (s : Store) (m : MapHandle) (storage : Option String) (s' : Store) : Prop :=
  ∀ b d waiting, s.Rests m b d waiting → ∃ d' waiting', s'.Rests m b d' waiting' ∧
    (∀ w, waiting' = some w → w.snapshot = []) ∧ d'.table = content d waiting ∧
    d'.toBase = d.toBase ∧ ∀ dir, storage = some dir → d'.Held dir s'.disk

/-- The maps of the engine are as an engine keeps them, apart from those that
misbehave. -/
structure KeptBesideFaulty (s : Store) (x : Engine) : Prop where
  table : x.maps.order = compare
  orderlyUpToDate : s.tamed.OrderlyUpToDate x.config.storageDir x.maps.get? none

/-- The maps stay as they were kept while they are saved, and whatever comes of
the others, a map that was saved is secured. -/
theorem KeptBesideFaulty.saved {x : Engine} {log : Outcomes} (beside : s.KeptBesideFaulty x)
    (visits : Visits (fun m => Action.attempt (MapHandle.save m)) s log s')
    (members : ∀ m ∈ log.map Prod.fst, m ∈ x.maps.values) :
    s'.KeptBesideFaulty x ∧ ∀ m, (m, .ok ()) ∈ log → s.Secured m x.config.storageDir s' := by
  have o := beside.orderlyUpToDate.orderly
  have lawful : Std.TransCmp x.maps.order := beside.table ▸ inferInstance
  have top : ∀ m ∈ log.map Prod.fst, s.tamed.Top m := fun m mem => by
    obtain ⟨name, given⟩ := SortedTable.get?_of_mem_values (members m mem)
    exact o.roster.top o.layout given
  obtain ⟨upkept, cleaned⟩ := cleaned_of_attempts visits beside.orderlyUpToDate top
  have current := upkept.orderlyUpToDate beside.orderlyUpToDate
  refine ⟨⟨beside.table, current⟩, fun m saved b d waiting rests => ?_⟩
  obtain ⟨d', waiting', rests', same, content', -, -⟩ :=
    upkept.carries o.layout (top m (List.mem_map_of_mem saved)) b d waiting (rests_tamed.2 rests)
  have clean := cleaned m saved b d' waiting' rests'
  refine ⟨d', waiting', rests_tamed.1 rests', clean.2, ?_, same, fun dir kept => ?_⟩
  · rw [← content', content_of_clean clean]
  · exact current.upToDate dir kept b d' rests'.base clean.1

end Store

namespace EngineHandle

open Store

variable {e : EngineHandle} {x : Engine} {s s' : Store} {l : List MapHandle} {log : Outcomes}

/-! ## The two passes -/

/-- A commit that comes to the maps in this order. -/
def commitOver (e : EngineHandle) (l : List MapHandle) : Action Unit := do
  let engine ← e.state
  if engine.closed then Action.refuse .engineClosed
  forEachMap MapHandle.save l

/-- A close that comes to the maps in this order. -/
def closeOver (e : EngineHandle) (l : List MapHandle) : Action Unit := do
  let engine ← e.state
  if engine.closed then return ()
  e.modifyState fun engine =>
    { engine with closed := true, running := false, maps := engine.maps.clear }
  e.finish engine.live (← Action.attempt (forEachMap MapHandle.close l))

theorem run_commitOver (engine : s.engines[e.index]? = some x) (isOpen : x.closed = false)
    (l : List MapHandle) : e.commitOver l s = forEachMap MapHandle.save l s := by
  unfold commitOver
  rw [Action.run_bind, run_state engine]
  simp only [isOpen, Bool.false_eq_true, if_false]

theorem run_closeOver (engine : s.engines[e.index]? = some x) (isOpen : x.closed = false)
    (l : List MapHandle) : e.closeOver l s = (do
      e.finish x.live (← Action.attempt (forEachMap MapHandle.close l)) : Action Unit)
        (closing e x s) := by
  unfold closeOver
  rw [Action.run_bind, run_state engine]
  simp only [isOpen, Bool.false_eq_true, if_false]
  rw [Action.run_bind, run_closing engine]

/-- The engine is closed, and has forgotten its maps and the ids. -/
structure Vacated (e : EngineHandle) (live : LiveHandle) (s : Store) : Prop where
  engine : ∃ y, s.engines[e.index]? = some y ∧ y.closed = true ∧ y.running = false ∧
    y.maps.toList = [] ∧ y.ids.assigned.toList = []
  storage : (s.liveSets live).storage.members = []
  buffered : (s.liveSets live).buffered.members = []
  adaptive : (s.liveSets live).adaptive.members = []

/-- An engine that is closed forgets the ids and what its live-sets list. -/
theorem forget_vacates (engine : s.engines[e.index]? = some x) (closed : x.closed = true)
    (stopped : x.running = false) (nothing : x.maps.toList = []) :
    ∃ s', e.forget x.live s = .ok () s' ∧ e.Vacated x.live s' ∧ s'.maps = s.maps ∧
      s'.disk = s.disk := by
  refine ⟨_, run_forget x.live engine,
    ⟨⟨_, engine_withEngine _ engine, closed, stopped, nothing, rfl⟩, ?_, ?_, ?_⟩, rfl, rfl⟩
  all_goals
    simp only [Store.liveSets, Store.withEngine, List.getElem?_modify]
    cases s.live[x.live.index]? <;> simp [LiveSets.clear, LiveSets.empty, LiveSet.empty]

/-- A close of which no map panicked leaves the engine without maps, whatever
comes of it. -/
theorem closeOver_answers (engine : s.engines[e.index]? = some x) (isOpen : x.closed = false)
    (visits : Visits (fun m => Action.attempt (MapHandle.close m)) (closing e x s) log s')
    (returned : Returned log) :
    ∃ s'', Answers log s'' (e.closeOver (log.map Prod.fst) s) ∧ e.Vacated x.live s'' ∧
      s''.maps = s'.maps ∧ s''.disk = s'.disk := by
  have same : s'.engines = (closing e x s).engines :=
    visits.keeps (R := fun s s' => s'.engines = s.engines) (fun _ => rfl)
      (fun first next => next.trans first) fun m r s s' visit => by
        have engines := (UnbufferSteps.close m s).modeSteps.engines
        rwa [← Action.after_attempt, Action.after_of_ok visit] at engines
  have closed : s'.engines[e.index]? =
      some { x with closed := true, running := false, maps := x.maps.clear } := by
    rw [same]
    exact engine_withEngine _ engine
  obtain ⟨s'', forgot, vacated, maps, disk⟩ := forget_vacates closed rfl rfl rfl
  refine ⟨s'', ?_, vacated, maps, disk⟩
  have answers := forEachMap_answers visits returned
  rw [run_closeOver engine isOpen, Action.run_bind, Action.run_attempt]
  generalize forEachMap MapHandle.close (log.map Prod.fst) (closing e x s) = ended at answers
  cases answers with
  | answered all =>
    simp only [finish, forgot]
    exact .answered all
  | refused failed =>
    simp only [finish, Action.run_bind, forgot]
    exact .refused failed

variable {config : Config} {disk : Disk} {s₀ : Store}

/-- Whatever was done with an engine and with its maps, the maps are as it keeps
them as long as it is open, whichever in-memory maps misbehave from now on. -/
theorem keptBesideFaulty_of_run {acts : List Act}
    (start : openWith config (.onDisk disk) = .ok e s₀)
    (lawful : ∀ act ∈ acts, act.Lawful) (same : s.tamed = (Act.run e s₀ acts).tamed)
    (engine : s.engines[e.index]? = some x) (isOpen : x.closed = false) :
    s.KeptBesideFaulty x ∧ x.maps.values.Nodup := by
  rw [← engines_tamed, same, engines_tamed] at engine
  have begun := orderlyUpToDate_of_openWith start
  have worksOrEnded : Act.WorksOrEnded s₀ e config.storageDir := by
    cases begun with
    | working works ids _ _ => exact .inr ⟨_, works, ids⟩
    | ended ended _ => exact .inl ended
  have registered := (registered_of_openWith start).run worksOrEnded acts
  have holds := orderlyUpToDate_upheld.run begun acts lawful fun _ _ => trivial
  cases holds with
  | ended ended _ =>
    obtain ⟨y, engine', closed⟩ := ended
    cases engine.symm.trans engine'
    rw [isOpen] at closed
    cases closed
  | working works ids table current =>
    cases engine.symm.trans works.engine
    refine ⟨⟨table, ?_⟩, ?_⟩
    · rw [same, tamed_eq current.orderly.layout, works.storage]
      exact current
    · obtain ended | ⟨y, engine', registry⟩ := registered
      · exact absurd ended works.not_ended
      · cases engine.symm.trans engine'
        exact registry.nodup_values

/-- An engine that is open commits and closes by coming to each map of its table
once, in whatever order, whatever any of them comes to, if none panics.
A commit keeps each map as open as it was, under its name, and is refused exactly
if a map was, and as one was. Each map that was not has then nothing waiting, and
what it shows is in its artifact, if the maps, apart from those that misbehave,
are as an engine keeps them; and they stay so. So they are, and each has one name,
whatever was done with the engine before in-memory maps of it began to misbehave.
A close is refused exactly if a map was, and as one was, and in any case leaves
the engine closed, without maps, ids or members of its live-sets; closed again it
is answered, and comes to no map. -/
theorem comes_to_every_map (engine : s.engines[e.index]? = some x) (isOpen : x.closed = false)
    (order : l.Perm x.maps.values) :
    (l = x.maps.values → e.commit s = e.commitOver l s ∧ e.close s = e.closeOver l s) ∧
    (∃ log s', Visits (fun m => Action.attempt (MapHandle.save m)) s log s' ∧
      log.map Prod.fst = l ∧ (Returned log → Answers log s' (e.commitOver l s) ∧
        s'.engines = s.engines ∧ s'.live = s.live ∧
        s'.maps.map MapState.outline = s.maps.map MapState.outline ∧
        (s.KeptBesideFaulty x → s'.KeptBesideFaulty x ∧
          ∀ m, (m, .ok ()) ∈ log → s.Secured m x.config.storageDir s'))) ∧
    (∃ log s', Visits (fun m => Action.attempt (MapHandle.close m)) (closing e x s) log s' ∧
      log.map Prod.fst = l ∧ (Returned log → ∃ s'', Answers log s'' (e.closeOver l s) ∧
        e.Vacated x.live s'' ∧ s''.maps = s'.maps ∧ s''.disk = s'.disk ∧
        e.close s'' = .ok () s'')) ∧
    ∀ config disk s₀ acts, openWith config (.onDisk disk) = .ok e s₀ →
      (∀ act ∈ acts, act.Lawful) → s.tamed = (Act.run e s₀ acts).tamed →
        s.KeptBesideFaulty x ∧ x.maps.values.Nodup := by
  refine ⟨?_, ?_, ?_, ?_⟩
  · rintro rfl
    rw [run_commitOver engine isOpen, run_closeOver engine isOpen]
    exact ⟨run_commit (run_state engine) isOpen, run_close engine isOpen⟩
  · obtain ⟨log, s', -, rfl, visits⟩ :=
      Visits.of_attempts MapHandle.save l (fun _ _ => ()) s ()
    refine ⟨log, s', visits, rfl, fun returned => ?_⟩
    have touched : s.Touches (fun _ => True) s' :=
      visits.keeps (R := Touches fun _ => True) (.refl _) .trans fun m r s s' visit => by
        have saved : s.Touches (fun _ => True) (m.save.after s) :=
          frame_save trivial fun _ _ _ _ _ _ => trivial
        rwa [← Action.after_attempt, Action.after_of_ok visit] at saved
    rw [run_commitOver engine isOpen]
    exact ⟨forEachMap_answers visits returned, touched.engines, touched.live, touched.outlines,
      fun beside => beside.saved visits fun m mem => order.mem_iff.1 mem⟩
  · obtain ⟨log, s', -, rfl, visits⟩ :=
      Visits.of_attempts MapHandle.close l (fun _ _ => ()) (closing e x s) ()
    refine ⟨log, s', visits, rfl, fun returned => ?_⟩
    obtain ⟨s'', answers, vacated, maps, disk⟩ := closeOver_answers engine isOpen visits returned
    obtain ⟨y, engine', closed, -⟩ := vacated.engine
    exact ⟨s'', answers, vacated, maps, disk, close_ended ⟨y, engine', closed⟩⟩
  · intro config disk s₀ acts start lawful same
    exact keptBesideFaulty_of_run start lawful same engine isOpen

/-- An in-memory map and a buffered map are opened in the depot, and an entry is
put into the second. -/
def bazaarActs : List Act :=
  [.deed (.opened ⟨"a", .inMemory, .bytes, .bytes, none, false⟩),
    .deed (.opened ⟨"b", .buffered, .bytes, .bytes, none, false⟩),
    .deed (.called (.put [1] [2]) ⟨2⟩)]

/-- What the buffered map stands on. -/
def bazaarFront : Front := ⟨"b", 2, ⟨1⟩, .bytes, .bytes⟩

/-- What waits in it. -/
def bazaarWaiting : WriteBuffer :=
  ((WriteBuffer.empty DataType.bytes.compare).insert [1] (.value [2])).2

/-- The two maps with the entry. -/
def bazaarPut : Store :=
  (Act.run ⟨0⟩ depotStart bazaarActs.dropLast).set ⟨2⟩
    (.buffered ⟨bazaarFront, bazaarWaiting, false⟩)

/-- The in-memory map refuses to be saved, and was asked so often. -/
def bazaarRefusing (asked : Nat) : Store :=
  bazaarPut.set ⟨0⟩ (.faulty ⟨.empty "a" 1 .bytes .bytes,
    { FaultPlan.none with save := some (.error (.io .system)) },
    { CallCounts.zero with save := asked }, [], [], [], none⟩)

theorem run_bazaarActs : Act.run ⟨0⟩ depotStart bazaarActs = bazaarPut := by
  have state : (Act.run ⟨0⟩ depotStart bazaarActs.dropLast).maps[2]? =
      some (.buffered ⟨bazaarFront, .empty DataType.bytes.compare, false⟩) := rfl
  have base : (Act.run ⟨0⟩ depotStart bazaarActs.dropLast).maps[1]? =
      some (.direct (depotEmpty "b" 2)) := rfl
  have admitted : PlainMap.checkChange bazaarFront.keyType bazaarFront.valueType [1] (.value [2]) =
      .ok () := rfl
  obtain ⟨depth, same⟩ := Call.perform_of_change (m := ⟨2⟩) (c := .put [1] [2]) rfl
    (Act.run ⟨0⟩ depotStart bazaarActs.dropLast)
  obtain ⟨previous, wrote⟩ := writeBuffered_ok (m := ⟨2⟩) (.empty DataType.bytes.compare) state
    base admitted (.inr rfl)
  show ((Call.put [1] [2]).perform ⟨2⟩).after (Act.run ⟨0⟩ depotStart bazaarActs.dropLast) = _
  rw [Action.after, same, Action.run_bind, MapHandle.write_buffered state rfl, wrote]
  rfl

/-- The first map refuses. -/
theorem bazaar_refuses : (⟨0⟩ : MapHandle).save (bazaarRefusing 0) =
    .error (.error (.io .system)) (bazaarRefusing 1) := by
  have state : (bazaarRefusing 0).maps[0]? = some (.faulty ⟨.empty "a" 1 .bytes .bytes,
      { FaultPlan.none with save := some (.error (.io .system)) }, .zero, [], [], [], none⟩) := rfl
  rw [MapHandle.save_faulty state]
  rfl

/-- The entry was moved below. -/
def bazaarMerged : Store :=
  ((bazaarRefusing 1).set ⟨1⟩ (.direct (depotFull "b" 2))).set ⟨2⟩
    (.buffered ⟨bazaarFront, (bazaarWaiting.eraseUnchanged [1] 1).2, false⟩)

/-- The second map is saved. -/
theorem bazaar_saves : ∃ s', (⟨2⟩ : MapHandle).save (bazaarRefusing 1) = .ok () s' := by
  have state : (bazaarRefusing 1).maps[2]? =
      some (.buffered ⟨bazaarFront, bazaarWaiting, false⟩) := rfl
  have base : (bazaarRefusing 1).maps[1]? = some (.direct (depotEmpty "b" 2)) := rfl
  have taken : (depotEmpty "b" 2).write [1] (.value [2]) = .ok (none, depotFull "b" 2) := rfl
  have merged : ∃ stats, (⟨2⟩ : MapHandle).merge (bazaarRefusing 1) = .ok stats bazaarMerged := by
    rw [MapHandle.run_merge_buffered state]
    show ∃ stats, ([([1], ⟨.value [2], 1⟩)].foldlM (MapHandle.mergeSlot ⟨2⟩ bazaarFront) .none :
      Action MergeStats) _ = _
    rw [List.foldlM_cons, Action.run_bind]
    obtain ⟨d, previous, stats, wrote, run⟩ | ⟨_, _, refused, -⟩ :=
      mergeSlot_run [1] ⟨.value [2], 1⟩ .none state rfl rfl base
    · rw [taken] at wrote
      cases wrote
      have run : (⟨2⟩ : MapHandle).mergeSlot bazaarFront .none ([1], ⟨.value [2], 1⟩)
        (bazaarRefusing 1) = .ok stats bazaarMerged := run
      rw [run]
      exact ⟨stats, rfl⟩
    · rw [taken] at refused
      cases refused
  obtain ⟨stats, merged⟩ := merged
  have full : bazaarMerged.maps[1]? = some (.direct (depotFull "b" 2)) := rfl
  have ready : ((depotFull "b" 2).save bazaarMerged.disk).1 = .ok () := by decide +kernel
  rw [MapHandle.save_buffered state rfl (Nat.lt_add_one 1), Action.run_bind, merged]
  show ∃ s', (⟨1⟩ : MapHandle).save bazaarMerged = .ok () s'
  rw [MapHandle.save_direct full, ready]
  exact ⟨_, rfl⟩

/-- The buffered map is saved although the map before it refuses. -/
theorem bazaar_commit_goes_on :
    openWith depot (.onDisk .empty) = .ok ⟨0⟩ depotStart ∧
      (bazaarRefusing 0).tamed = (Act.run ⟨0⟩ depotStart bazaarActs).tamed ∧
      (bazaarRefusing 0).Rests ⟨2⟩ ⟨1⟩ (depotEmpty "b" 2) (some bazaarWaiting) ∧
      ∃ s', (⟨0⟩ : EngineHandle).commit (bazaarRefusing 0) = .error (.error (.io .system)) s' ∧
        (bazaarRefusing 0).Secured ⟨2⟩ (some "s") s' := by
  have start : openWith depot (.onDisk .empty) = .ok ⟨0⟩ depotStart := rfl
  have lawful : ∀ act ∈ bazaarActs, act.Lawful := by
    have bytes : Std.TransCmp DataType.bytes.compare := inferInstanceAs (Std.TransCmp Bytes.compare)
    simp [bazaarActs, Act.Lawful, Deed.Lawful, bytes]
  have same : (bazaarRefusing 0).tamed = (Act.run ⟨0⟩ depotStart bazaarActs).tamed := by
    rw [run_bazaarActs]
    rfl
  have state : (bazaarRefusing 0).maps[2]? =
      some (.buffered ⟨bazaarFront, bazaarWaiting, false⟩) := rfl
  refine ⟨start, same, ⟨rfl, .inr ⟨_, _, state, rfl, rfl, rfl⟩⟩, ?_⟩
  have there : ((bazaarRefusing 0).engines[0]?).map
      (fun x => (x.closed, x.config.storageDir, x.maps.values)) =
      some (false, some "s", [⟨0⟩, ⟨2⟩]) := by
    decide +kernel
  obtain ⟨x, engine, its⟩ := Option.map_eq_some_iff.1 there
  simp only [Prod.mk.injEq] at its
  obtain ⟨isOpen, directory, values⟩ := its
  obtain ⟨commits, ⟨log, s', visits, listed, rest⟩, -, kept⟩ :=
    comes_to_every_map (e := ⟨0⟩) engine isOpen (.refl _)
  obtain ⟨beside, -⟩ := kept depot .empty depotStart bazaarActs start lawful same
  rw [values] at listed
  obtain ⟨last, saved⟩ := bazaar_saves
  -- what the two maps came to
  have first : Action.attempt (MapHandle.save ⟨0⟩) (bazaarRefusing 0) =
      .ok (.error (.error (.io .system))) (bazaarRefusing 1) := by
    rw [Action.run_attempt, bazaar_refuses]
  have second : Action.attempt (MapHandle.save ⟨2⟩) (bazaarRefusing 1) = .ok (.ok ()) last := by
    rw [Action.run_attempt, saved]
  obtain ⟨rfl, rfl⟩ := visits.unique (.cons first (.cons second (.nil last))) listed
  obtain ⟨answers, -, -, -, secured⟩ := rest (by simp [Returned])
  rw [← (commits rfl).1] at answers
  have secured := (secured beside).2 ⟨2⟩ (by simp)
  rw [directory] at secured
  generalize commit ⟨0⟩ (bazaarRefusing 0) = ended at answers
  cases answers with
  | answered all => simp at all
  | refused failed =>
    obtain ⟨-, rfl⟩ : _ ∧ _ := by simpa using failed
    exact ⟨_, rfl, secured⟩

end EngineHandle

end MapStore
