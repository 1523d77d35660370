/-
MapStore.Proofs.Lingering — what a closed engine lists while it is held.

A close empties the live-sets, unless a map panics in it. From then on the
engine opens nothing and saves nothing, so no map is listed to be saved or to be
asked for its mode again. The list of buffers can fill up again, though. An
adaptive map asks whether its live-sets are gone before it enters buffered mode,
and they go when the engine is dropped, not when it is closed: so a map that
outlives the close can still be switched, is listed then, and is merged by the
ticks that follow (`Lingers`).

Nothing but such a switch lists a buffer. Of all that is done with an engine and
its maps, only an `Act` that asks for a switch can have a map enter buffered
mode; all others come to steps in which none does (`UnbufferSteps`).
-/
import MapStore.Proofs.Sessions

namespace MapStore

namespace LiveSets

variable {l : LiveSets} {m : MapHandle} {u : MergeUnit}

/-- A map that leaves buffered mode has no buffer listed that was not. -/
theorem mem_of_relist_direct {c : Option MapMode} (direct : c = some .direct ∨ c = none)
    (mem : u ∈ (l.relist m c).buffered.members) : u ∈ l.buffered.members := by
  obtain rfl | rfl := direct
  · simp only [relist] at mem
    split at mem
    · exact ((LiveSet.mem_erase _ _ _).1 mem).2
    · exact mem
  · exact mem

end LiveSets

namespace Store

variable {s s' : Store} {e : EngineHandle} {h : LiveHandle}

theorem liveSets_clear (s : Store) (h : LiveHandle) :
    liveSets { s with live := s.live.modify h.index LiveSets.clear } h = (s.liveSets h).clear := by
  simp only [liveSets, List.getElem?_modify, if_pos]
  cases s.live[h.index]? <;> rfl

/-- While no map enters buffered mode no buffer is listed that was not. -/
theorem UnbufferSteps.listed (steps : s.UnbufferSteps s') (h : LiveHandle) {u : MergeUnit}
    (mem : u ∈ (s'.liveSets h).buffered.members) : u ∈ (s.liveSets h).buffered.members := by
  induction steps with
  | refl => exact mem
  | tail _ unbufferStep ih =>
    refine ih ?_
    cases unbufferStep with
    | still same => rwa [liveSets, ← same.live]
    | turned change =>
      obtain ⟨_, _, _, -, -, -, relisted⟩ := change.face
      rw [relisted] at mem
      refine LiveSets.mem_of_relist_direct ?_ mem
      split
      · exact .inl rfl
      · exact .inr rfl

/-- The engine is closed, and its live-sets `h` are still there. They list no
map to be saved and none to be asked for its mode, and of buffers only those of
adaptive maps of the engine that are in buffered mode. -/
structure Lingers (s : Store) (e : EngineHandle) (h : LiveHandle) : Prop where
  closed : ∃ x, s.engines[e.index]? = some x ∧ x.closed = true ∧ x.live = h
  alive : (s.liveSets h).alive = true
  storage : (s.liveSets h).storage.members = []
  adaptive : (s.liveSets h).adaptive.members = []
  buffered : ∀ u ∈ (s.liveSets h).buffered.members,
    ∃ m f, u = .map m ∧ s.face? m = some f ∧ f.sort = .adaptive .buffered h

namespace Lingers

theorem ended (l : s.Lingers e h) : e.Ended s := by
  obtain ⟨x, engine, closed, -⟩ := l.closed
  exact ⟨x, engine, closed⟩

/-- Steps of the maps that keep the list of buffers to what it may hold. -/
theorem keep (l : s.Lingers e h) (steps : s.ModeSteps s')
    (buffered : ∀ u ∈ (s'.liveSets h).buffered.members,
      ∃ m f, u = .map m ∧ s'.face? m = some f ∧ f.sort = .adaptive .buffered h) :
    s'.Lingers e h := by
  obtain ⟨alive, storage, adaptive⟩ := steps.sets h
  exact ⟨by rw [steps.engines]; exact l.closed, alive.trans l.alive, by rw [storage, l.storage],
    by rw [adaptive, l.adaptive], buffered⟩

theorem still (l : s.Lingers e h) (same : s.Still s') : s'.Lingers e h := by
  refine l.keep (.still same) fun u mem => ?_
  have sets : s'.liveSets h = s.liveSets h := by rw [liveSets, same.live, liveSets]
  obtain ⟨m, f, eq, face, sort⟩ := l.buffered u (sets ▸ mem)
  exact ⟨m, f, eq, by rw [same.faces, face], sort⟩

/-- A map that shows another mode is listed, or struck off, in the same step. -/
theorem turned {m : MapHandle} {target : MapMode} (l : s.Lingers e h)
    (change : s.Turned m target s') : s'.Lingers e h := by
  refine l.keep (.turn change) fun u mem => ?_
  obtain ⟨f, mode, live, face, sort, faces, sets⟩ := change.face
  rw [sets] at mem
  by_cases own : u = .map m
  · subst own
    by_cases same : live = h
    · rw [if_pos same] at mem
      obtain rfl := (LiveSets.mem_relist_self l.alive).1 mem
      exact ⟨m, _, rfl, by rw [faces, if_pos rfl], by rw [same]⟩
    · rw [if_neg same] at mem
      obtain ⟨m', f', eq, face', sort'⟩ := l.buffered _ mem
      cases eq
      rw [face] at face'
      cases face'
      rw [sort] at sort'
      cases sort'
      exact absurd rfl same
  · rw [LiveSets.mem_relist own] at mem
    obtain ⟨m', f', rfl, face', sort'⟩ := l.buffered u mem
    have ne : m' ≠ m := by
      rintro rfl
      exact own rfl
    exact ⟨m', f', rfl, by rw [faces, if_neg ne, face'], sort'⟩

theorem modeSteps (l : s.Lingers e h) (steps : s.ModeSteps s') : s'.Lingers e h := by
  induction steps with
  | refl => exact l
  | tail _ modeStep ih =>
    cases modeStep with
    | still same => exact ih.still same
    | turned change => exact ih.turned change

end Lingers

end Store

/-! ## What is done with a closed engine -/

/-- Whether the act asks maps to enter buffered mode: it switches one, or is a
tick over whatever live-sets. -/
def Act.switches : Act → Bool
  | .deed (.upkept .switchToBuffered _) => true
  | .deed (.upkept (.tick _ _) _) => true
  | _ => false

namespace Store.Lingers

variable {s s' : Store} {e : EngineHandle} {h : LiveHandle}

/-- An act that asks for no switch lets no map enter buffered mode. -/
theorem unbufferSteps (l : s.Lingers e h) (act : Act) (held : act ≠ .deed .dropped)
    (calm : act.switches = false) : s.UnbufferSteps (act.after e s) := by
  have whole : ∀ {α : Type} (a : Action α), s.UnbufferSteps (a.after s) →
      s.UnbufferSteps ((do let _ ← a : Action Unit).after s) := fun a steps =>
    Action.after_bind (R := UnbufferSteps) .trans steps fun _ _ _ => .refl
  cases act with
  | shut m => exact .close m s
  | deed d =>
    unfold Act.after
    cases d with
    | opened o =>
      have after : (o.perform e).after s = s := EngineHandle.perform_ended l.ended o
      simp only [Deed.after, after]
      exact .refl
    | called c m => exact .call c m s
    | upkept u m =>
      cases u with
      | save => exact .save m s
      | merge => exact whole _ (.merge m s)
      | switchToDirect => exact whole _ (.switchToDirect m s)
      | switchToBuffered => cases calm
      | tick live policy => cases calm
    | metered meters => exact .still (.of_maps rfl rfl rfl)
    | ticked =>
      obtain ⟨x, engine, -, rfl⟩ := l.closed
      unfold Deed.after Action.after
      rw [EngineHandle.run_tick (EngineHandle.run_state engine)]
      exact .tick _ l.adaptive
    | committed => exact EngineHandle.Run.unbufferSteps_commit e s
    | closed =>
      have after : e.close.after s = s := Action.after_of_ok (EngineHandle.close_ended l.ended)
      simp only [Deed.after, after]
      exact .refl
    | dropped => exact absurd rfl held

/-- Any act comes to steps of the maps. -/
theorem act (l : s.Lingers e h) (act : Act) (held : act ≠ .deed .dropped) :
    (act.after e s).Lingers e h := by
  cases switches : act.switches with
  | false => exact l.modeSteps (l.unbufferSteps act held switches).modeSteps
  | true =>
    obtain ⟨u, m, rfl⟩ : ∃ u m, act = .deed (.upkept u m) := by
      unfold Act.switches at switches
      split at switches
      · exact ⟨_, _, rfl⟩
      · exact ⟨_, _, rfl⟩
      · cases switches
    exact l.modeSteps (u.modeSteps m s)

theorem run (l : s.Lingers e h) (acts : List Act) (held : .deed .dropped ∉ acts) :
    (Act.run e s acts).Lingers e h := by
  induction acts generalizing s with
  | nil => exact l
  | cons act rest ih =>
    rw [List.mem_cons, not_or] at held
    exact ih (l.act act (Ne.symm held.1)) held.2

/-- As long as nobody asks for a switch no buffer is listed that was not. -/
theorem run_listed (l : s.Lingers e h) (acts : List Act) (held : .deed .dropped ∉ acts)
    (calm : ∀ act ∈ acts, act.switches = false) {u : MergeUnit}
    (mem : u ∈ ((Act.run e s acts).liveSets h).buffered.members) :
    u ∈ (s.liveSets h).buffered.members := by
  induction acts generalizing s with
  | nil => exact mem
  | cons act rest ih =>
    rw [List.mem_cons, not_or] at held
    have later := ih (l.act act (Ne.symm held.1)) held.2
      (fun act' mem' => calm act' (List.mem_cons_of_mem _ mem')) mem
    exact (l.unbufferSteps act (Ne.symm held.1) (calm act (List.mem_cons_self ..))).listed h later

/-- A tick visits the buffers that are listed, and nothing else. -/
theorem tick (l : s.Lingers e h) :
    ∃ report s', e.tick s = .ok report s' ∧
      report = { TickReport.none with
        merged := report.merged, mergeFailures := report.mergeFailures } ∧
      report.merged + report.mergeFailures = (s.liveSets h).buffered.size := by
  obtain ⟨x, engine, -, rfl⟩ := l.closed
  have nobody : ∀ m ∈ (s.liveSets x.live).adaptive.members, s.Askable m := by
    intro m mem
    rw [l.adaptive] at mem
    cases mem
  obtain ⟨s₁, s₂, s₃, evaluations, merges, saves, ⟨visits₁, each₁, visits₂, each₂, -, each₃⟩,
    run⟩ := Tick.run_phases x.live ⟨x.config.adaptiveThreshold⟩ s nobody
  obtain rfl : evaluations = [] := by
    rw [l.adaptive] at each₁
    exact List.map_eq_nil_iff.1 each₁
  cases visits₁
  obtain rfl : saves = [] := by
    rw [(Quiet.of_merges visits₂).liveSets, l.storage] at each₃
    exact List.map_eq_nil_iff.1 each₃
  rw [Tick.counted, List.foldl_nil, List.foldl_nil, TickReport.foldl_countMerge] at run
  refine ⟨_, s₃, (EngineHandle.run_tick (EngineHandle.run_state engine)).trans run, rfl, ?_⟩
  simpa [TickReport.none, LiveSet.size] using TickReport.counts_add_up each₂

/-- A map of the engine that is in direct mode enters buffered mode when it is
asked to, and its buffer is listed. -/
theorem switch {m : MapHandle} {a : AdaptiveMap} (l : s.Lingers e h)
    (state : s.maps[m.index]? = some (.adaptive a)) (own : a.live = h) (direct : a.mode = .direct) :
    ∃ s', m.switchToBuffered s = .ok true s' ∧ m.mode s' = .ok .buffered s' ∧
      .map m ∈ (s'.liveSets h).buffered.members := by
  subst own
  obtain ⟨buffered, -⟩ | ⟨-, gone, -⟩ | ⟨-, alive, run⟩ := MapHandle.switchToBuffered_cases state
  · rw [direct] at buffered
    cases buffered
  · rw [l.alive] at gone
    cases gone
  · have there : (s.withListed a.live ((s.liveSets a.live).buffered.insert (.map m)).2).maps[
        m.index]? = some (.adaptive a) := state
    refine ⟨_, run, ?_, ?_⟩
    · unfold MapHandle.mode
      rw [Action.run_bind, Action.run_state (maps_set_self _ there)]
      rfl
    · rw [liveSets_set, liveSets_withListed _ _ _ _ alive, if_pos rfl]
      exact (LiveSet.mem_insert _ _ _).2 (.inl rfl)

end Store.Lingers

namespace EngineHandle

variable {e : EngineHandle} {x : Engine} {s : Store}

/-- What a close leaves of the live-sets. -/
theorem close_clears (engine : s.engines[e.index]? = some x) (isOpen : x.closed = false)
    (alive : (s.liveSets x.live).alive = true) :
    (∃ message s₁, e.close s = .error (.panic message) s₁ ∧
        (s₁.liveSets x.live).storage = (s.liveSets x.live).storage ∧
        (s₁.liveSets x.live).adaptive = (s.liveSets x.live).adaptive) ∨
      ∃ s₁, (e.close s = .ok () s₁ ∨ ∃ cause, e.close s = .error (.error cause) s₁) ∧
        (s₁.liveSets x.live).buffered.members = [] ∧ s₁.Lingers e x.live := by
  have steps := Store.UnbufferSteps.forEachMap .close x.maps.values (closing e x s)
  obtain ⟨still, storage, adaptive⟩ := steps.modeSteps.sets x.live
  obtain ⟨s₁, y, rfl, closed, isClosed, live, ⟨message, run⟩ | ⟨s', eq, ends⟩⟩ :=
    close_cases engine isOpen
  · exact .inl ⟨message, _, run, storage, adaptive⟩
  · have cleared : s'.liveSets x.live = (Store.liveSets
        ((forEachMap MapHandle.close x.maps.values).after (closing e x s)) x.live).clear := by
      rw [eq]
      exact Store.liveSets_clear _ x.live
    have nothing : (s'.liveSets x.live).buffered.members = [] := by
      rw [cleared]
      rfl
    have engine' : s'.engines[e.index]? = some { y with ids := y.ids.clear } := by
      rw [eq]
      exact engine_withEngine _ closed
    refine .inr ⟨s', ?_, nothing, ⟨_, engine', isClosed, live⟩, ?_, ?_, ?_, fun u mem => ?_⟩
    · obtain ⟨cause, run⟩ | ⟨run, -⟩ := ends
      · exact .inr ⟨cause, run⟩
      · exact .inl run
    · rw [cleared]
      exact still.trans alive
    · rw [cleared]
      rfl
    · rw [cleared]
      rfl
    · rw [nothing] at mem
      cases mem

/-- Once an engine is closed, by a close in which no map panicked, and as long
as it is not dropped, whatever is done with it and its maps: it refuses to open
or commit, it lists no map to be saved or asked for its mode, and its ticks visit
the buffers that are listed and nothing else. A map in direct mode still enters
buffered mode when it is asked to, and is listed then; unless somebody asks, no
buffer is listed. A close in which a map panics leaves the members to be saved or
asked listed. -/
theorem closed_engine_switches (engine : s.engines[e.index]? = some x) (isOpen : x.closed = false)
    (alive : (s.liveSets x.live).alive = true) :
    (∃ message s₁, e.close s = .error (.panic message) s₁ ∧
        (s₁.liveSets x.live).storage = (s.liveSets x.live).storage ∧
        (s₁.liveSets x.live).adaptive = (s.liveSets x.live).adaptive) ∨
      ∃ s₁, (e.close s = .ok () s₁ ∨ ∃ cause, e.close s = .error (.error cause) s₁) ∧
        ∀ acts : List Act, .deed .dropped ∉ acts → ∃ s', s' = Act.run e s₁ acts ∧
          s'.Lingers e x.live ∧
          (∀ o : Opening, ∃ cause, o.perform e s' = .error (.error cause) s' ∧
            (Artifact.isValidName o.name = true → cause = .engineClosed)) ∧
          e.commit s' = .error (.error .engineClosed) s' ∧ e.close s' = .ok () s' ∧
          (∃ report s'', e.tick s' = .ok report s'' ∧
            report = { TickReport.none with
              merged := report.merged, mergeFailures := report.mergeFailures } ∧
            report.merged + report.mergeFailures = (s'.liveSets x.live).buffered.size) ∧
          ((∀ act ∈ acts, act.switches = false) → (s'.liveSets x.live).buffered.members = []) ∧
          ∀ (m : MapHandle) (a : AdaptiveMap), s'.maps[m.index]? = some (.adaptive a) →
            a.live = x.live → a.mode = .direct → ∃ s'', m.switchToBuffered s' = .ok true s'' ∧
              m.mode s'' = .ok .buffered s'' ∧ .map m ∈ (s''.liveSets x.live).buffered.members := by
  obtain panicked | ⟨s₁, ends, nothing, lingers⟩ := close_clears engine isOpen alive
  · exact .inl panicked
  · refine .inr ⟨s₁, ends, fun acts held => ?_⟩
    have later := lingers.run acts held
    refine ⟨_, rfl, later, perform_refused later.ended, ?_, close_ended later.ended, later.tick,
      fun calm => ?_, fun m a => later.switch⟩
    · obtain ⟨y, engine', closed, -⟩ := later.closed
      exact run_commit_closed (run_state engine') closed
    · refine List.eq_nil_iff_forall_not_mem.2 fun u mem => ?_
      have before := lingers.run_listed acts held calm mem
      rw [nothing] at before
      cases before

/-- An engine in memory that opened an adaptive map. -/
def booth : Store :=
  (Opening.perform ⟨"a", .adaptive, .bytes, .bytes, none, false⟩ ⟨0⟩).after
    ((openWith .default).after (.onDisk .empty))

/-- The engine closed. -/
def boothClosed : Store := (⟨0⟩ : EngineHandle).close.after booth

/-- The map, and the one below it. -/
def boothMaps : AdaptiveMap × DirectMap :=
  (⟨⟨"a", 1, ⟨0⟩, .bytes, .bytes⟩, none, ⟨0⟩, ⟨0⟩⟩,
   { PlainMap.empty "a" 1 .bytes .bytes with
     table := .ofList DataType.bytes.compare [], path := none, dirty := false })

/-- The store in which the map below is closed, which is all that closing a map
in direct mode comes to. -/
def boothShut : Store :=
  (closing ⟨0⟩ (booth.engines[0]?.getD unopened) booth).set ⟨0⟩
    (.direct { boothMaps.2 with closed := true })

theorem run_booth :
    (⟨0⟩ : EngineHandle).close booth =
      .ok () (((⟨0⟩ : EngineHandle).forget ⟨0⟩).after boothShut) := by
  obtain ⟨x, eq, engine, isOpen, live, values⟩ : ∃ x, x = booth.engines[0]?.getD unopened ∧
      booth.engines[0]? = some x ∧ x.closed = false ∧ x.live = ⟨0⟩ ∧ x.maps.values = [⟨1⟩] :=
    ⟨_, rfl, rfl, rfl, rfl, rfl⟩
  have map : (⟨1⟩ : MapHandle).close (closing ⟨0⟩ x booth) = .ok () boothShut := by
    rw [MapHandle.close_adaptive (a := boothMaps.1) rfl (Nat.lt_add_one 0)]
    show (⟨0⟩ : MapHandle).close (closing ⟨0⟩ x booth) = _
    rw [MapHandle.close_direct (d := boothMaps.2) rfl, boothShut, eq]
    rfl
  rw [run_close engine isOpen, values, live]
  simp only [forEachMap, List.foldlM_cons, List.foldlM_nil, Action.run_bind, Action.run_attempt,
    map]
  rfl

theorem boothClosed_eq : boothClosed = ((⟨0⟩ : EngineHandle).forget ⟨0⟩).after boothShut :=
  Action.after_of_ok run_booth

theorem booth_close : (⟨0⟩ : EngineHandle).close booth = .ok () boothClosed := by
  rw [boothClosed_eq, run_booth]

theorem booth_map :
    ∃ a, boothClosed.maps[1]? = some (.adaptive a) ∧ a.live = ⟨0⟩ ∧ a.mode = .direct := by
  rw [boothClosed_eq]
  exact ⟨boothMaps.1, rfl, rfl, rfl⟩

/-- The map can be switched, and is listed then. -/
theorem booth_engine_switches :
    ∃ x, booth.engines[0]? = some x ∧ x.closed = false ∧ (booth.liveSets x.live).alive = true ∧
      ∃ s', (⟨1⟩ : MapHandle).switchToBuffered boothClosed = .ok true s' ∧
        .map ⟨1⟩ ∈ (s'.liveSets x.live).buffered.members := by
  obtain ⟨x, engine, isOpen, live⟩ :
      ∃ x, booth.engines[0]? = some x ∧ x.closed = false ∧ x.live = ⟨0⟩ := ⟨_, rfl, rfl, rfl⟩
  have alive : (booth.liveSets x.live).alive = true := by
    rw [live]
    rfl
  refine ⟨x, engine, isOpen, alive, ?_⟩
  obtain ⟨message, s₁, run, -⟩ | ⟨s₁, ends, gives⟩ :=
    closed_engine_switches (e := ⟨0⟩) engine isOpen alive
  · rw [booth_close] at run
    cases run
  · obtain rfl : boothClosed = s₁ := by
      obtain run | ⟨cause, run⟩ := ends
      · rw [booth_close] at run
        cases run
        rfl
      · rw [booth_close] at run
        cases run
    obtain ⟨s', rfl, -, -, -, -, -, -, switch⟩ := gives [] (by simp)
    obtain ⟨a, state, own, direct⟩ := booth_map
    obtain ⟨s'', run, -, listed⟩ := switch ⟨1⟩ a state (own.trans live.symm) direct
    exact ⟨s'', run, listed⟩

/-- The map in buffered mode. -/
def boothSwitched : Store := (⟨1⟩ : MapHandle).switchToBuffered.after boothClosed

/-- After the close no buffer is listed; then the map is switched instead of
being refused, its buffer is listed, and the next tick merges it. -/
theorem booth_not_silent :
    (⟨0⟩ : EngineHandle).close booth = .ok () boothClosed ∧
    (boothClosed.liveSets ⟨0⟩).buffered.members = [] ∧
    (⟨1⟩ : MapHandle).switchToBuffered boothClosed = .ok true boothSwitched ∧
    (⟨1⟩ : MapHandle).mode boothSwitched = .ok .buffered boothSwitched ∧
    (boothSwitched.liveSets ⟨0⟩).buffered.members = [.map ⟨1⟩] ∧
    (⟨0⟩ : EngineHandle).tick boothSwitched =
      .ok { TickReport.none with merged := 1 } boothSwitched := by
  refine ⟨booth_close, ?_⟩
  simp only [boothSwitched, boothClosed_eq]
  exact ⟨rfl, rfl, rfl, rfl, rfl⟩

end EngineHandle

end MapStore
