/-
MapStore.Proofs.Sessions — what is done with an engine, and when it is durable.

A `Deed` is one thing that is done with an engine or its maps, whatever comes
of it: a map is opened, called or looked after, the engine ticks, commits, is
closed or dropped. As deeds follow each other (`Moment.next`), what was written
is unsaved first, durable after a commit that is answered or a tick that
reports no failure, and shut after a close that is answered.

What a deed can do is said once (`Effect`): an open engine stays as it should
be, or it ends, or it has ended before and nothing more comes of it. From it
follow the two invariants of a run: the maps are settled whenever the stage
says so (`Sound`), and what a map shows is what the directory gives back once
it is durable (`Holds`).
-/
import MapStore.Proofs.Openings
import MapStore.Proofs.Settling

namespace MapStore

open Artifact (fileName isValidName)

/-! ## Deeds -/

/-- Something that is done with an engine and its maps. -/
inductive Deed where
  | opened (o : Opening)
  | called (c : Call) (m : MapHandle)
  | upkept (u : Upkeep) (m : MapHandle)
  /-- Meters are made, or change by themselves. -/
  | metered (meters : List AccessMeter)
  | ticked
  | committed
  | closed
  | dropped

/-- How safe is what was written. -/
inductive Stage where
  /-- Some of it may not be on the disk. -/
  | unsaved
  /-- Since the last write a commit was answered or a tick reported no
  failure, while the engine was open. -/
  | durable
  /-- The first close of the engine was answered. -/
  | shut
  deriving DecidableEq

/-- A store, and how safe is what was written to it. -/
structure Moment where
  store : Store
  stage : Stage

/-- Whether the engine was not closed yet. -/
def EngineHandle.isOpen (e : EngineHandle) (s : Store) : Bool :=
  (s.engines[e.index]?).any fun x => !x.closed

namespace Deed

/-- The store after the deed, whatever comes of it. -/
def after (e : EngineHandle) (s : Store) : Deed → Store
  | opened o => (o.perform e).after s
  | called c m => (c.perform m).after s
  | upkept u m => (u.perform m).after s
  | metered meters => { s with meters }
  | ticked => e.tick.after s
  | committed => e.commit.after s
  | closed => e.close.after s
  | dropped => e.drop.after s

/-- Whether the deed is a put or a removal that is not refused. -/
def writes (s : Store) : Deed → Bool
  | called c m =>
    match c.change?, c.perform m s with
    | some _, .ok _ _ => true
    | _, _ => false
  | _ => false

/-- Whether the deed, done in this store, makes all that was written before it
durable. -/
def secures (e : EngineHandle) (s : Store) : Deed → Option Stage
  | ticked =>
    match e.tick s with
    | .ok report _ => if report.Faultless then some .durable else none
    | .error _ _ => none
  | committed =>
    match e.commit s with
    | .ok _ _ => some .durable
    | .error _ _ => none
  | closed =>
    match e.close s with
    | .ok _ _ => some .shut
    | .error _ _ => none
  | _ => none

/-- The stage after the deed. -/
def stage (e : EngineHandle) (s : Store) (before : Stage) (deed : Deed) : Stage :=
  if before = .shut then .shut
  else if deed.writes s then .unsaved
  else if e.isOpen s then (deed.secures e s).getD before
  else before

/-- The key type of a map that is asked for is a lawful order. -/
def Lawful : Deed → Prop
  | opened o => Std.TransCmp o.keyType.compare
  | _ => True

end Deed

/-- The moment after a deed. -/
def Moment.next (e : EngineHandle) (p : Moment) (deed : Deed) : Moment :=
  ⟨deed.after e p.store, deed.stage e p.store p.stage⟩

/-- The moment after deeds. -/
def Moment.run (e : EngineHandle) (p : Moment) (deeds : List Deed) : Moment :=
  deeds.foldl (Moment.next e) p

/-- Something that is done with an engine or with a map that it gave out. -/
inductive Act where
  | deed (d : Deed)
  /-- A map is closed by itself. -/
  | shut (m : MapHandle)

namespace Act

/-- The store after the act, whatever comes of it. -/
def after (e : EngineHandle) (s : Store) : Act → Store
  | deed d => d.after e s
  | shut m => m.close.after s

/-- The store after acts. -/
def run (e : EngineHandle) (s : Store) (acts : List Act) : Store := acts.foldl (after e) s

end Act

/-! ## Refused writes -/

namespace Store

variable {s s' : Store} {m : MapHandle} {st : MapState} {front : Front} {d : DirectMap}

/-- A write that is refused changes meters at most. -/
theorem write_refused (layout : s.Layout) {depth : Nat} {key : Bytes} {c : Change} {fault : Fault}
    (run : m.write depth key c s = .error fault s') : Metered s s' := by
  cases write_ends layout m depth key c with
  | refused refused =>
    rw [refused] at run
    cases run
    exact .told m _
  | memory _ _ ran
  | direct _ _ ran
  | buffered _ _ _ _ _ _ ran =>
    rw [ran] at run
    cases run

/-! ## Calls and upkeep as moves -/

theorem metered_read (layout : s.Layout) {c : Call} (reads : c.change? = none) :
    Metered s ((c.perform m).after s) := by
  cases c with
  | get key => exact .of_told ((after_map _ _ s).trans (after_get layout m key))
  | contains key => exact .of_told ((after_map _ _ s).trans (after_contains layout m key))
  | size => exact .of_same ((after_map _ _ s).trans (after_size layout m))
  | isEmpty => exact .of_same ((after_map _ _ s).trans (after_isEmpty layout m))
  | entries => exact .of_same ((after_map _ _ s).trans (after_entries layout m))
  | put _ _ => cases reads
  | remove _ => cases reads

/-- A call is a run with at most one write in it, and with none if it reads or
is refused. -/
theorem call_runs (layout : s.Layout) (c : Call) (m : MapHandle) :
    s.Runs Writes ((c.perform m).after s) ∧
      ((Deed.called c m).writes s = false → s.UpkeepMoves ((c.perform m).after s)) := by
  cases change : c.change? with
  | none =>
    have upkept := (metered_read (m := m) layout change).upkeepMoves
    exact ⟨upkept.runs _, fun _ => upkept⟩
  | some written =>
    obtain ⟨key, written⟩ := written
    obtain ⟨depth, same⟩ := Call.perform_of_change (m := m) change s
    have after : (c.perform m).after s = (m.write depth key written).after s := by
      rw [Action.after_of_eq same]
      obtain ⟨r, run⟩ | ⟨fault, run⟩ := Action.ends (m.write depth key written) s
      · rw [Action.after_bind_of_ok run]
        rfl
      · rw [Action.after_bind_of_error run]
    rw [after]
    refine ⟨write_runs layout m depth key written, fun refused => ?_⟩
    obtain ⟨r, run⟩ | ⟨fault, run⟩ := Action.ends (m.write depth key written) s
    · simp [Deed.writes, change, same, run] at refused
    · exact (write_refused layout run).upkeepMoves

theorem upkeep_moves (layout : s.Layout) (u : Upkeep) (m : MapHandle) :
    s.UpkeepMoves ((u.perform m).after s) := by
  have whole : ∀ {α : Type} (a : Action α), Keeping s (a.after s) →
      Keeping s ((do let _ ← a : Action Unit).after s) := fun a kept =>
    Action.after_bind (R := Keeping) .trans kept fun _ s' _ => .refl s'
  cases u with
  | save => exact (save_moves layout m).1
  | merge => exact whole _ (fun layout => (merge_moves layout m).1) layout
  | switchToBuffered => exact whole _ (fun layout => switchTo_moves layout m .buffered) layout
  | switchToDirect => exact whole _ (fun layout => switchTo_moves layout m .direct) layout
  | tick live policy => exact whole _ (Keeping.tick live policy s) layout

end Store

/-- A put, or a removal, that a direct map takes. -/
theorem Deed.called_direct {e : EngineHandle} {s : Store} {m : MapHandle} {d d' : DirectMap}
    {c : Call} {key : Bytes} {written : Change} {previous : Option Bytes}
    (base : s.maps[m.index]? = some (.direct d)) (change : c.change? = some (key, written))
    (made : d.write key written = .ok (previous, d')) :
    (Deed.called c m).after e s = s.set m (.direct d') ∧ (Deed.called c m).writes s = true := by
  obtain ⟨depth, same⟩ := Call.perform_of_change (m := m) change s
  have run : c.perform m s = .ok (.value previous) (s.set m (.direct d')) := by
    rw [same, Action.run_bind, MapHandle.write_direct base, made]
    rfl
  exact ⟨Action.after_of_ok run, by simp [Deed.writes, change, run]⟩

/-! ## Engines that are closed -/

namespace EngineHandle

variable {e : EngineHandle} {x : Engine} {s : Store}

/-- The engine was closed. -/
def Ended (e : EngineHandle) (s : Store) : Prop :=
  ∃ x, s.engines[e.index]? = some x ∧ x.closed = true

theorem Ended.notOpen (h : e.Ended s) : e.isOpen s = false := by
  obtain ⟨x, engine, closed⟩ := h
  simp [isOpen, engine, closed]

theorem Ended.congr {s' : Store} (h : e.Ended s) (same : s'.engines = s.engines) : e.Ended s' := by
  unfold Ended
  rw [same]
  exact h

/-- A closed engine refuses requests, those for a valid name as closed. -/
theorem perform_refused (h : e.Ended s) (o : Opening) :
    ∃ cause, o.perform e s = .error (.error cause) s ∧
      (isValidName o.name = true → cause = .engineClosed) := by
  obtain ⟨x, engine, closed⟩ := h
  have refused : ∀ builder, ∃ cause, e.mapNamed o.name builder s = .error (.error cause) s ∧
      (isValidName o.name = true → cause = .engineClosed) := by
    intro builder
    unfold mapNamed Artifact.checkName
    rw [Action.run_bind]
    cases valid : isValidName o.name with
    | false => exact ⟨_, rfl, nofun⟩
    | true =>
      rw [if_pos rfl, Action.run_lift_ok]
      simp only [Action.run_bind, run_state engine, closed, if_true]
      exact ⟨_, rfl, fun _ => rfl⟩
  obtain ⟨cause, run, reason⟩ := refused (.ofKind o.kind o.keyType o.valueType o.meter)
  refine ⟨cause, ?_, reason⟩
  unfold Opening.perform
  split
  · unfold openTyped
    rw [Action.run_bind, run]
  · exact run

theorem perform_ended (h : e.Ended s) (o : Opening) : (o.perform e).after s = s := by
  obtain ⟨cause, run, -⟩ := perform_refused h o
  exact Action.after_of_error run

theorem close_ended (h : e.Ended s) : e.close s = .ok () s := by
  obtain ⟨x, engine, closed⟩ := h
  unfold close
  rw [Action.run_bind, run_state engine]
  simp only [closed, if_true]
  rfl

/-- Dropping an engine closes it; besides, only its live-sets change. -/
theorem drop_leaves (engine : (e.close.after s).engines[e.index]? = some x) :
    (e.drop.after s).maps = (e.close.after s).maps ∧
      (e.drop.after s).disk = (e.close.after s).disk ∧
      (e.drop.after s).engines = (e.close.after s).engines := by
  have attempted : ∃ r, Action.attempt e.close s = .ok r (e.close.after s) := by
    rw [Action.run_attempt]
    obtain ⟨r, run⟩ | ⟨fault, run⟩ := Action.ends e.close s
    · rw [run]
      exact ⟨_, rfl⟩
    · rw [run]
      exact ⟨_, rfl⟩
  obtain ⟨r, attempted⟩ := attempted
  unfold drop
  rw [Action.after_bind_of_ok attempted, Action.after_bind_of_ok (run_state engine),
    Action.after_bind_of_ok (Action.run_modifyLive ..)]
  split <;> exact ⟨rfl, rfl, rfl⟩

/-- The store in which the engine closes its maps. -/
def closing (e : EngineHandle) (x : Engine) (s : Store) : Store :=
  s.withEngine e { x with closed := true, running := false, maps := x.maps.clear }

/-- What an engine does once its maps are closed. -/
def forget (e : EngineHandle) (live : LiveHandle) : Action Unit := do
  Action.modifyLive live LiveSets.clear
  e.modifyState fun engine => { engine with ids := engine.ids.clear }

theorem run_forget (live : LiveHandle) (engine : s.engines[e.index]? = some x) :
    e.forget live s = .ok () (Store.withEngine
      { s with live := s.live.modify live.index LiveSets.clear } e
      { x with ids := x.ids.clear }) := by
  unfold forget
  rw [Action.run_bind, Action.run_modifyLive]
  exact run_modifyState (fun engine => { engine with ids := engine.ids.clear }) engine

/-- What an engine does once its maps are closed, or one of them panicked. -/
def finish (e : EngineHandle) (live : LiveHandle) : Except Fault Unit → Action Unit
  | .ok () => e.forget live
  | .error (.error cause) => do
    e.forget live
    Action.refuse cause
  | .error (.panic message) => throw (.panic message)

/-- It begins with the engine marked as closed. -/
theorem run_closing (engine : s.engines[e.index]? = some x) :
    e.modifyState (fun x => { x with closed := true, running := false, maps := x.maps.clear }) s =
      .ok () (closing e x s) :=
  run_modifyState _ engine

/-- Closing an engine closes its maps, and forgets ids and live-sets after it,
unless a map panics. -/
theorem run_close (engine : s.engines[e.index]? = some x) (isOpen : x.closed = false) :
    e.close s = (do
      e.finish x.live (← Action.attempt (forEachMap MapHandle.close x.maps.values)) : Action Unit)
        (closing e x s) := by
  unfold close
  rw [Action.run_bind, run_state engine]
  simp only [isOpen, Bool.false_eq_true, if_false]
  rw [Action.run_bind, run_closing engine]
  rfl

/-- The store after the close, according to how the closes of the maps ended. -/
theorem close_cases (engine : s.engines[e.index]? = some x) (isOpen : x.closed = false) :
    ∃ s₁ y, s₁ = (forEachMap MapHandle.close x.maps.values).after (closing e x s) ∧
      s₁.engines[e.index]? = some y ∧ y.closed = true ∧ y.live = x.live ∧
      ((∃ message, e.close s = .error (.panic message) s₁) ∨
        ∃ s', s' = Store.withEngine { s₁ with live := s₁.live.modify x.live.index LiveSets.clear } e
            { y with ids := y.ids.clear } ∧
          ((∃ cause, e.close s = .error (.error cause) s') ∨ e.close s = .ok () s' ∧
            forEachMap MapHandle.close x.maps.values (closing e x s) = .ok () s₁)) := by
  have steps := Store.UnbufferSteps.forEachMap .close x.maps.values (closing e x s)
  have closed : ((forEachMap MapHandle.close x.maps.values).after (closing e x s)).engines[e.index]?
      = some { x with closed := true, running := false, maps := x.maps.clear } := by
    rw [steps.modeSteps.engines]
    exact engine_withEngine _ engine
  have whole := run_close engine isOpen
  rw [Action.run_bind, Action.run_attempt] at whole
  refine ⟨_, _, rfl, closed, rfl, rfl, ?_⟩
  have forgot := run_forget x.live closed
  generalize forEachMap MapHandle.close x.maps.values = each at *
  obtain ⟨done, run⟩ | ⟨fault, run⟩ := Action.ends each (closing e x s)
  · simp only [run] at whole
    exact .inr ⟨_, rfl, .inr ⟨whole.trans forgot, run⟩⟩
  · simp only [run] at whole
    cases fault with
    | panic message => exact .inl ⟨message, whole⟩
    | error cause =>
      have whole : e.close s = (do
          e.forget x.live
          Action.refuse cause : Action Unit) (each.after (closing e x s)) := whole
      rw [Action.run_bind, forgot] at whole
      exact .inr ⟨_, rfl, .inl ⟨cause, whole⟩⟩

/-- What a close leaves of the maps, of the disk and of the engine. -/
theorem close_leaves (engine : s.engines[e.index]? = some x) (isOpen : x.closed = false) :
    (e.close.after s).maps =
        ((forEachMap MapHandle.close x.maps.values).after (closing e x s)).maps ∧
      (e.close.after s).disk =
        ((forEachMap MapHandle.close x.maps.values).after (closing e x s)).disk ∧
      e.Ended (e.close.after s) ∧
      ∀ s', e.close s = .ok () s' → ∃ s₂,
        forEachMap MapHandle.close x.maps.values (closing e x s) = .ok () s₂ := by
  obtain ⟨s₁, y, rfl, closed, isClosed, -, ⟨message, run⟩ | ⟨s', rfl, ends⟩⟩ :=
    close_cases engine isOpen
  · rw [Action.after_of_error run]
    refine ⟨rfl, rfl, ⟨y, closed, isClosed⟩, fun s' answered => ?_⟩
    rw [run] at answered
    cases answered
  · have ended := engine_withEngine { y with ids := y.ids.clear } closed
    obtain ⟨cause, run⟩ | ⟨run, each⟩ := ends
    · rw [Action.after_of_error run]
      refine ⟨rfl, rfl, ⟨_, ended, isClosed⟩, fun s' answered => ?_⟩
      rw [run] at answered
      cases answered
    · rw [Action.after_of_ok run]
      exact ⟨rfl, rfl, ⟨_, ended, isClosed⟩, fun _ _ => ⟨_, each⟩⟩

end EngineHandle

/-! ## What a deed leaves -/

namespace Store

variable {s s' : Store} {e : EngineHandle} {x : Engine} {dir : String} {here : Place}

/-- What is registered shows what it did, and what is settled stays so, with
the disk as it is. -/
structure Spares (s : Store) (x : Engine) (s' : Store) : Prop where
  carries : ∀ name m, x.maps.get? name = some m → Carries m s s'
  settled : s.Settled → s'.Settled ∧ s'.disk = s.disk

namespace Housed

theorem upkeepMoves (h : s.Housed e x dir here) (upkept : s.UpkeepMoves s')
    (engines : s'.engines = s.engines) :
    s'.Housed e x dir here ∧ s.Spares x s' := by
  have furnished := upkept.furnished h.furnished
  have layout := h.furnished.kept.layout
  exact ⟨⟨{ h.toServes with engine := engines ▸ h.engine, alive := furnished.listed.alive },
    furnished⟩, fun name m given => upkept.carries layout (h.furnished.roster.top layout given),
    upkept.settled⟩

theorem runs (h : s.Housed e x dir here) (runs : s.Runs Writes s')
    (engines : s'.engines = s.engines) :
    s'.Housed e x dir here := by
  have furnished := runs.furnished h.furnished
  exact ⟨{ h.toServes with engine := engines ▸ h.engine, alive := furnished.listed.alive },
    furnished⟩

end Housed

namespace Extends

/-- New maps are of no concern to the old ones. -/
theorem carries (h : s.Extends s') (m : MapHandle) : Carries m s s' := by
  intro b d waiting rests
  refine ⟨d, waiting, ⟨h.old b _ rests.base, rests.top.imp_right ?_⟩, rfl, rfl, id, id⟩
  rintro ⟨st, front, state, rest⟩
  exact ⟨st, front, h.old m st state, rest⟩

theorem spares (h : s.Extends s') (x : Engine) : s.Spares x s' where
  carries _ m _ := h.carries m
  settled settled := by
    refine ⟨⟨fun b d state => ?_, fun m st w state waiting => ?_⟩, h.disk⟩
    · rcases h.new b _ state with before | new
      · exact settled.saved b d before
      · exact new.1 d rfl
    · rcases h.new m st state with before | new
      · exact settled.drained m st w before waiting
      · exact new.2 w waiting

end Extends

/-- The maps of an engine that is open are the values of its table. -/
theorem Serves.mem_values (h : s.Serves e x dir) (m : MapHandle) :
    m ∈ x.maps.values ↔ ∃ name, x.maps.get? name = some m := by
  have lawful : Std.TransCmp x.maps.order := by
    rw [h.ordered]
    infer_instance
  exact ⟨SortedTable.get?_of_mem_values, fun ⟨_, given⟩ => SortedTable.mem_values_of_get? given⟩

end Store

namespace Deed

open Store

variable {s : Store} {e : EngineHandle} {x : Engine} {dir : String} {here : Place}

/-- Whether the engine is closed by the deed. -/
def ends : Deed → Bool
  | closed => true
  | dropped => true
  | _ => false

/-- Whether the deed leaves the engine itself: it asks for no map and does not
close it. -/
def plain : Deed → Bool
  | opened _ => false
  | closed => false
  | dropped => false
  | _ => true

theorem kinds (deed : Deed) :
    deed.plain = true ∨ (∃ o, deed = .opened o) ∨ deed = .closed ∨ deed = .dropped := by
  cases deed <;> simp [plain]

theorem tick_moves (e : EngineHandle) (layout : s.Layout) : s.UpkeepMoves (e.tick.after s) := by
  obtain ⟨x, asked⟩ := EngineHandle.state_answers e s
  rw [Action.after, EngineHandle.run_tick asked]
  exact Keeping.tick x.live _ s layout

theorem commit_moves (e : EngineHandle) (layout : s.Layout) : s.UpkeepMoves (e.commit.after s) :=
  EngineHandle.after_commit (R := Keeping) .refl .trans Keeping.save e s layout

/-- What a deed does that neither asks for a map nor ends the engine. -/
theorem moves (e : EngineHandle) (layout : s.Layout) (deed : Deed)
    (plain : deed.plain = true) :
    s.Runs Writes (deed.after e s) ∧ (deed.writes s = false → s.UpkeepMoves (deed.after e s)) ∧
      (deed.after e s).engines = s.engines := by
  have upkeep : ∀ {s'}, s.UpkeepMoves s' → s.ModeSteps s' →
      s.Runs Writes s' ∧ (deed.writes s = false → s.UpkeepMoves s') ∧ s'.engines = s.engines :=
    fun upkept steps => ⟨upkept.runs _, fun _ => upkept, steps.engines⟩
  cases deed with
  | called c m =>
    obtain ⟨runs, upkept⟩ := call_runs layout c m
    exact ⟨runs, upkept, (UnbufferSteps.call c m s).modeSteps.engines⟩
  | upkept u m => exact upkeep (upkeep_moves layout u m) (u.modeSteps m s)
  | metered meters => exact upkeep (.single (.metered meters)) (.still (.of_maps rfl rfl rfl))
  | ticked => exact upkeep (tick_moves e layout) (EngineHandle.Run.modeSteps_tick e s)
  | committed =>
    exact upkeep (commit_moves e layout) (EngineHandle.Run.unbufferSteps_commit e s).modeSteps
  | opened o => cases plain
  | closed => cases plain
  | dropped => cases plain

/-- A deed that does not end the engine leaves it as it should be. -/
theorem goesOn (h : s.Housed e x dir here) (deed : Deed) (lawful : deed.Lawful)
    (stays : deed.ends = false) :
    ∃ x', (deed.after e s).Housed e x' dir here ∧ x.Keeps x' ∧
      (deed.writes s = false → s.Spares x (deed.after e s)) := by
  obtain plain | ⟨o, rfl⟩ | rfl | rfl := deed.kinds
  · obtain ⟨runs, upkept, engines⟩ := moves e h.furnished.kept.layout deed plain
    exact ⟨x, h.runs runs engines, fun _ _ given => given, fun quiet =>
      (h.upkeepMoves (upkept quiet) engines).2⟩
  · obtain ⟨x', housed, extends', keeps⟩ := o.housed h lawful
    exact ⟨x', housed, keeps, fun _ => extends'.spares x⟩
  · cases stays
  · cases stays

/-- A deed of an engine that was closed is a run of moves at most. -/
theorem idles (ended : e.Ended s) (layout : s.Layout) (deed : Deed) :
    ∃ s₁, s.Runs Writes s₁ ∧ (deed.writes s = false → s.UpkeepMoves s₁) ∧
      (deed.after e s).maps = s₁.maps ∧ (deed.after e s).disk = s₁.disk ∧
      e.Ended (deed.after e s) := by
  obtain ⟨x, engine, -⟩ := id ended
  have same : ∀ {s'}, s'.maps = s.maps → s'.disk = s.disk → s'.engines = s.engines →
      ∃ s₁, s.Runs Writes s₁ ∧ (deed.writes s = false → s.UpkeepMoves s₁) ∧ s'.maps = s₁.maps ∧
        s'.disk = s₁.disk ∧ e.Ended s' := fun maps disk engines =>
    ⟨s, .refl, fun _ => .refl, maps, disk, ended.congr engines⟩
  obtain plain | ⟨o, rfl⟩ | rfl | rfl := deed.kinds
  · obtain ⟨runs, upkept, engines⟩ := moves e layout deed plain
    exact ⟨_, runs, upkept, rfl, rfl, ended.congr engines⟩
  · have after := EngineHandle.perform_ended ended o
    exact same (congrArg Store.maps after) (congrArg Store.disk after)
      (congrArg Store.engines after)
  · have after := Action.after_of_ok (EngineHandle.close_ended ended)
    exact same (congrArg Store.maps after) (congrArg Store.disk after)
      (congrArg Store.engines after)
  · have after := Action.after_of_ok (EngineHandle.close_ended ended)
    obtain ⟨maps, disk, engines⟩ := EngineHandle.drop_leaves (after.symm ▸ engine)
    rw [after] at maps disk engines
    exact same maps disk engines

/-- An open engine closes its maps by moves. -/
theorem closing_runs (h : s.Housed e x dir here) : (e.closing x s).Runs Closing
    ((EngineHandle.forEachMap MapHandle.close x.maps.values).after (e.closing x s)) := by
  have layout : (e.closing x s).Layout := h.furnished.kept.layout.of_maps rfl
  have closes : (e.closing x s).Layout → (e.closing x s).Runs Closing
      ((EngineHandle.forEachMap MapHandle.close x.maps.values).after (e.closing x s)) :=
    EngineHandle.after_forEachMap (R := fun s s' => s.Layout → s.Runs Closing s')
      (fun _ _ => .refl) (fun first next layout => (first layout).trans
        (next (Runs.layout Closing.layout (first layout) layout)))
      (fun m _ s layout => (close_runs layout m).1.closing) _
  exact closes layout

/-- The close of an open engine. -/
theorem close_ends (h : s.Housed e x dir here) :
    e.Ended (e.close.after s) ∧ (e.close.after s).Kept dir here x.ids ∧
      (s.Settled → (e.close.after s).Settled ∧ (e.close.after s).disk = s.disk) ∧
      ∀ s', e.close s = .ok () s' → s'.Shut ∧
        ∀ name m, x.maps.get? name = some m → Carries m s s' := by
  obtain ⟨maps, disk, ended, answered⟩ := EngineHandle.close_leaves h.engine h.isOpen
  have furnished : (e.closing x s).Furnished x.live x.maps.get? dir here x.ids :=
    h.furnished.congr rfl rfl rfl
  have layout := furnished.kept.layout
  have closes := closing_runs h
  have kept := (Runs.kept Closing.kept closes furnished.kept).of_maps maps disk
  refine ⟨ended, kept, fun settled => ?_, fun s' run => ?_⟩
  · have before : (e.closing x s).Settled := settled.of_maps rfl
    obtain ⟨settled₂, disk₂⟩ := closes.settled before
    exact ⟨settled₂.of_maps maps, disk.trans disk₂⟩
  · obtain ⟨s₂, each⟩ := answered s' run
    rw [Action.after_of_ok each, Action.after_of_ok run] at maps
    obtain ⟨closes, shut⟩ := furnished.shut_of_closes h.toServes.mem_values each
    refine ⟨shut.of_maps maps, fun name m given => ?_⟩
    have begun : Carries m s (e.closing x s) := .of_maps rfl
    exact (begun.trans (closes.carries layout (furnished.roster.top layout given))).trans
      (.of_maps maps)

/-- What is said to be durable is settled. -/
theorem secured (h : s.Housed e x dir here) {deed : Deed} {stage : Stage}
    (stays : deed.ends = false) (secures : deed.secures e s = some stage) :
    stage = .durable ∧ (deed.after e s).Settled := by
  cases deed with
  | ticked =>
    have run := EngineHandle.run_tick (EngineHandle.run_state h.engine)
    cases ended : e.tick s with
    | error fault s' => simp [Deed.secures, ended] at secures
    | ok report s' =>
      simp only [Deed.secures, ended] at secures
      split at secures
      · rename_i faultless
        cases secures
        rw [Deed.after, Action.after_of_ok ended]
        exact ⟨rfl, h.furnished.settled_of_tick (run.symm.trans ended) faultless⟩
      · cases secures
  | committed =>
    have run := EngineHandle.run_commit (EngineHandle.run_state h.engine) h.isOpen
    cases ended : e.commit s with
    | error fault s' => simp [Deed.secures, ended] at secures
    | ok done s' =>
      simp only [Deed.secures, ended] at secures
      cases secures
      rw [Deed.after, Action.after_of_ok ended]
      exact ⟨rfl, h.furnished.settled_of_saves h.toServes.mem_values (run.symm.trans ended)⟩
  | opened o => cases secures
  | called c m => cases secures
  | upkept u m => cases secures
  | metered meters => cases secures
  | closed => cases stays
  | dropped => cases stays

end Deed

/-- The next engine on the directory is given back the map with these entries,
if they fit into one file. -/
structure Disk.Restores (disk : Disk) (dir : String) (here : Place) (x : Base)
    (entries : List (Bytes × Bytes)) : Prop where
  valid : isValidName x.name = true
  shelved : ∃ ids, Shelved disk dir here ids
  latest : ∀ id, (disk.node? (here ++ [fileName x.name id])).isSome →
    id ≤ x.id ∧ (disk.node? (here ++ [fileName x.name x.id])).isSome
  stored : (MapFile.encodePayload x.name entries).length < Bytes.capacity 8 → ∃ stored,
    DirectMap.storedEntries (DirectMap.settingsIn x.name x.id dir) disk = .ok stored ∧
      (SortedTable.ofList x.keyType.compare stored).toList = entries

namespace Store

variable {s s' : Store} {m b : MapHandle} {d : DirectMap} {waiting : Option WriteBuffer}
  {dir : String} {here : Place} {ids : MapIds}

/-- Where nothing is left to save the directory has what the maps show. -/
theorem Kept.restores (h : s.Kept dir here ids) (settled : s.Settled)
    (rests : s.Rests m b d waiting) :
    s.disk.Restores dir here d.toBase (content d waiting).toList := by
  have clean : Clean d waiting :=
    ⟨settled.saved b d rests.base, (settled.drained m).rests rests⟩
  obtain ⟨valid, -, own⟩ := h.filed.named b d.toBase rests.role
  rw [content_of_clean clean]
  refine ⟨valid, ⟨ids, h.shelved⟩, fun id there => ?_, h.held b d rests.base clean.1⟩
  obtain ⟨last, had, le, present⟩ := h.shelved.latest d.toBase.name id valid there
  rw [own] at had
  cases had
  exact ⟨le, present⟩

end Store

/-! ## What a deed comes to -/

section

variable {e : EngineHandle} {dir : String} {here : Place}

/-- What a deed can come to. -/
inductive Effect (e : EngineHandle) (dir : String) (here : Place) (deed : Deed) (p p' : Moment) :
    Prop
  | runs {x x' : Engine} (before : p.store.Housed e x dir here)
      (after : p'.store.Housed e x' dir here) (keeps : x.Keeps x')
      (spares : deed.writes p.store = false → p.store.Spares x p'.store)
      (notShut : p.stage ≠ .shut ∧ p'.stage ≠ .shut)
      (saved : p'.stage ≠ .unsaved → p'.store.Settled)
  | ends {x : Engine} (before : p.store.Housed e x dir here) (ended : e.Ended p'.store)
      (kept : ∃ ids, p'.store.Kept dir here ids) (saved : p'.stage ≠ .unsaved → p'.store.Settled)
      (shut : p'.stage = .shut → p'.store.Shut)
      (gives : p'.stage ≠ .unsaved → ∀ name m b d waiting, x.maps.get? name = some m →
        p.store.Rests m b d waiting →
          p'.store.disk.Restores dir here d.toBase (Store.content d waiting).toList)
  | idles (before : e.Ended p.store) (ended : e.Ended p'.store)
      (kept : ∃ ids, p'.store.Kept dir here ids)
      (saved : p'.stage ≠ .unsaved → p'.store.Settled) (shut : p'.stage = .shut → p'.store.Shut)
      (same : p'.stage ≠ .unsaved → p'.stage = p.stage ∧ p'.store.disk = p.store.disk)

/-- The maps are as they should be while the engine is open, and they are
settled whenever the stage says so. -/
inductive Sound (e : EngineHandle) (dir : String) (here : Place) (p : Moment) : Prop
  | running {x : Engine} (housed : p.store.Housed e x dir here) (notShut : p.stage ≠ .shut)
      (saved : p.stage ≠ .unsaved → p.store.Settled)
  | ended (ended : e.Ended p.store) (kept : ∃ ids, p.store.Kept dir here ids)
      (saved : p.stage ≠ .unsaved → p.store.Settled) (shut : p.stage = .shut → p.store.Shut)

namespace Sound

variable {p : Moment}

/-- The close of an open engine, or its end without one. -/
theorem ending {s : Store} {stage : Stage} {x : Engine} {deed : Deed}
    (housed : s.Housed e x dir here) (notShut : stage ≠ .shut)
    (saved : stage ≠ .unsaved → s.Settled) (isOpen : e.isOpen s = true) (ends : deed.ends = true) :
    Effect e dir here deed ⟨s, stage⟩ ⟨deed.after e s, deed.stage e s stage⟩ := by
  obtain ⟨ended, kept, settled, answered⟩ := Deed.close_ends housed
  -- an end that is not known to have saved anything
  have plain : ∀ {s' : Store}, s'.maps = (e.close.after s).maps →
      s'.disk = (e.close.after s).disk → e.Ended s' →
      Effect e dir here deed ⟨s, stage⟩ ⟨s', stage⟩ := by
    intro s' maps disk ended'
    refine .ends housed ended' ⟨x.ids, kept.of_maps maps disk⟩
      (fun durable => (settled (saved durable)).1.of_maps maps) (fun shut => absurd shut notShut)
      fun durable name m b d waiting _ rests => ?_
    have same : s'.disk = s.disk := disk.trans (settled (saved durable)).2
    rw [same]
    exact housed.furnished.kept.restores (saved durable) rests
  cases deed with
  | closed =>
    have next : Deed.stage e s stage .closed = ((Deed.closed.secures e s).getD stage) := by
      simp [Deed.stage, notShut, Deed.writes, isOpen]
    cases run : e.close s with
    | error fault s' =>
      have next : Deed.stage e s stage .closed = stage := by
        rw [next, Deed.secures, run]
        rfl
      rw [next]
      exact plain rfl rfl ended
    | ok done s' =>
      have next : Deed.stage e s stage .closed = .shut := by
        rw [next, Deed.secures, run]
        rfl
      obtain ⟨shut, carries⟩ := answered s' run
      rw [Action.after_of_ok run] at ended kept
      rw [next, Deed.after, Action.after_of_ok run]
      refine .ends housed ended ⟨x.ids, kept⟩ (fun _ => shut.toSettled) (fun _ => shut)
        fun _ name m b d waiting given rests => ?_
      obtain ⟨d', waiting', rests', base, content, -, -⟩ := carries name m given b d waiting rests
      rw [← base, ← content]
      exact kept.restores shut.toSettled rests'
  | dropped =>
    have next : Deed.stage e s stage .dropped = stage := by
      simp [Deed.stage, notShut, Deed.writes, isOpen, Deed.secures]
    obtain ⟨x', engine, closed⟩ := ended
    obtain ⟨maps, disk, engines⟩ := EngineHandle.drop_leaves engine
    rw [next]
    exact plain maps disk (EngineHandle.Ended.congr ⟨x', engine, closed⟩ engines)
  | opened o => cases ends
  | called c m => cases ends
  | upkept u m => cases ends
  | metered meters => cases ends
  | ticked => cases ends
  | committed => cases ends

/-- Any other deed with an open engine. -/
theorem goingOn {s : Store} {stage : Stage} {x : Engine} {deed : Deed}
    (housed : s.Housed e x dir here) (notShut : stage ≠ .shut)
    (saved : stage ≠ .unsaved → s.Settled) (isOpen : e.isOpen s = true) (lawful : deed.Lawful)
    (goes : deed.ends = false) :
    Effect e dir here deed ⟨s, stage⟩ ⟨deed.after e s, deed.stage e s stage⟩ := by
  obtain ⟨x', housed', keeps, spares⟩ := deed.goesOn housed lawful goes
  cases writes : deed.writes s with
  | true =>
    have unsaved : deed.stage e s stage = .unsaved := by
      simp [Deed.stage, notShut, writes]
    rw [unsaved]
    exact .runs housed housed' keeps spares ⟨notShut, nofun⟩ (absurd rfl)
  | false =>
    have next : deed.stage e s stage = (deed.secures e s).getD stage := by
      simp [Deed.stage, notShut, writes, isOpen]
    cases secures : deed.secures e s with
    | none =>
      rw [next, secures, Option.getD_none]
      exact .runs housed housed' keeps spares ⟨notShut, notShut⟩ fun durable =>
        ((spares writes).settled (saved durable)).1
    | some reached =>
      obtain ⟨rfl, settled⟩ := Deed.secured housed goes secures
      rw [next, secures, Option.getD_some]
      exact .runs housed housed' keeps spares ⟨notShut, nofun⟩ fun _ => settled

/-- A deed after the end, with maps that callers still hold. -/
theorem idling {s : Store} {stage : Stage} {deed : Deed} (ended : e.Ended s)
    (kept : ∃ ids, s.Kept dir here ids) (saved : stage ≠ .unsaved → s.Settled)
    (shut : stage = .shut → s.Shut) :
    Effect e dir here deed ⟨s, stage⟩ ⟨deed.after e s, deed.stage e s stage⟩ := by
  obtain ⟨ids, kept⟩ := kept
  have layout := kept.layout
  obtain ⟨s₁, runs, upkept, maps, disk, ended'⟩ := deed.idles ended layout
  have kept' : ∃ ids, (deed.after e s).Kept dir here ids :=
    ⟨ids, (Store.Runs.kept Store.Writes.kept runs kept).of_maps maps disk⟩
  have next : deed.stage e s stage =
      if stage = .shut then .shut else if deed.writes s then .unsaved else stage := by
    simp [Deed.stage, ended.notOpen]
  rw [next]
  by_cases isShut : stage = .shut
  · -- a write is refused
    obtain ⟨shut₁, disk₁⟩ := runs.shut layout (shut isShut)
    rw [if_pos isShut]
    exact .idles ended ended' kept' (fun _ => shut₁.toSettled.of_maps maps)
      (fun _ => shut₁.of_maps maps) fun _ => ⟨isShut.symm, disk.trans disk₁⟩
  · rw [if_neg isShut]
    cases writes : deed.writes s with
    | true => exact .idles ended ended' kept' (absurd rfl) nofun (absurd rfl)
    | false =>
      have still := fun durable => (upkept writes).settled (saved durable)
      exact .idles ended ended' kept' (fun durable => (still durable).1.of_maps maps)
        (fun isShut' => absurd isShut' isShut) fun durable => ⟨rfl, disk.trans (still durable).2⟩

theorem effect (h : Sound e dir here p) (deed : Deed) (lawful : deed.Lawful) :
    Effect e dir here deed p (p.next e deed) := by
  cases h with
  | running housed notShut saved =>
    have isOpen : e.isOpen p.store = true := by
      simp [EngineHandle.isOpen, housed.engine, housed.isOpen]
    cases ends : deed.ends with
    | false => exact goingOn housed notShut saved isOpen lawful ends
    | true => exact ending housed notShut saved isOpen ends
  | ended ended kept saved shut => exact idling ended kept saved shut

theorem next (h : Sound e dir here p) (deed : Deed) (lawful : deed.Lawful) :
    Sound e dir here (p.next e deed) := by
  cases h.effect deed lawful with
  | runs before after keeps spares notShut saved => exact .running after notShut.2 saved
  | ends before ended kept saved shut gives => exact .ended ended kept saved shut
  | idles before ended kept saved shut same => exact .ended ended kept saved shut

/-- All along a run. -/
theorem run (h : Sound e dir here p) (deeds : List Deed) (lawful : ∀ deed ∈ deeds, deed.Lawful) :
    Sound e dir here (p.run e deeds) := by
  induction deeds generalizing p with
  | nil => exact h
  | cons deed rest ih =>
    exact ih (h.next deed (lawful deed (List.mem_cons_self ..)))
      fun deed mem => lawful deed (List.mem_cons_of_mem _ mem)

end Sound

/-! ## What a map shows, until the engine ends and after it -/

/-- Whether no put and no removal is answered by the deeds, until after a close
that was answered. -/
def Moment.unwritten (e : EngineHandle) : Moment → List Deed → Bool
  | _, [] => true
  | p, deed :: rest =>
    (p.stage = .shut || !deed.writes p.store) && unwritten e (p.next e deed) rest

/-- The map shows these entries as long as the engine is open, and after that
the directory gives them back if they were made durable. -/
inductive Holds (e : EngineHandle) (dir : String) (here : Place) (name : String) (m : MapHandle)
    (base : Base) (entries : List (Bytes × Bytes)) (p : Moment) : Prop
  | running {x : Engine} {b : MapHandle} {d : DirectMap} {waiting : Option WriteBuffer}
      (housed : p.store.Housed e x dir here) (given : x.maps.get? name = some m)
      (rests : p.store.Rests m b d waiting) (same : d.toBase = base)
      (shows : (Store.content d waiting).toList = entries)
  | ended (ended : e.Ended p.store)
      (gives : p.stage ≠ .unsaved → p.store.disk.Restores dir here base entries)

namespace Holds

variable {p p' : Moment} {name : String} {m : MapHandle} {base : Base}
  {entries : List (Bytes × Bytes)} {deed : Deed}

/-- An engine that is open was not closed. -/
theorem not_ended {s : Store} {x : Engine} (housed : s.Housed e x dir here) : ¬ e.Ended s := by
  rintro ⟨x', engine, closed⟩
  have same := housed.engine.symm.trans engine
  cases same
  rw [housed.isOpen] at closed
  cases closed

theorem next (h : Holds e dir here name m base entries p) (effect : Effect e dir here deed p p')
    (quiet : p.stage = .shut ∨ deed.writes p.store = false) :
    Holds e dir here name m base entries p' := by
  cases effect with
  | @runs x x' before after keeps spares notShut saved =>
    cases h with
    | ended ended gives => exact absurd ended (not_ended before)
    | @running y b d waiting housed given rests same shows =>
      obtain rfl : y = x := Option.some.inj (housed.engine.symm.trans before.engine)
      have carries := (spares (quiet.resolve_left notShut.1)).carries name m given
      obtain ⟨d', waiting', rests', base', content, -, -⟩ := carries b d waiting rests
      exact .running after (keeps name m given) rests' (base'.trans same)
        ((congrArg SortedTable.toList content).trans shows)
  | @ends x before ended kept saved shut gives =>
    cases h with
    | ended ended gives => exact absurd ended (not_ended before)
    | @running y b d waiting housed given rests same shows =>
      obtain rfl : y = x := Option.some.inj (housed.engine.symm.trans before.engine)
      refine .ended ended fun durable => ?_
      rw [← same, ← shows]
      exact gives durable name m b d waiting given rests
  | idles before ended kept saved shut same =>
    cases h with
    | running housed given rests => exact absurd before (not_ended housed)
    | ended _ gives =>
      refine .ended ended fun durable => ?_
      obtain ⟨stage, disk⟩ := same durable
      rw [disk]
      exact gives (stage ▸ durable)

/-- All along a run in which nothing more is written. -/
theorem run (h : Holds e dir here name m base entries p) (sound : Sound e dir here p)
    (deeds : List Deed) (lawful : ∀ deed ∈ deeds, deed.Lawful)
    (unwritten : p.unwritten e deeds = true) :
    Holds e dir here name m base entries (p.run e deeds) := by
  induction deeds generalizing p with
  | nil => exact h
  | cons deed rest ih =>
    have own := lawful deed (List.mem_cons_self ..)
    simp only [Moment.unwritten, Bool.and_eq_true, Bool.or_eq_true, decide_eq_true_eq,
      Bool.not_eq_true'] at unwritten
    exact ih (h.next (sound.effect deed own) unwritten.1) (sound.next deed own)
      (fun deed mem => lawful deed (List.mem_cons_of_mem _ mem)) unwritten.2

/-- What was made durable is given back. -/
theorem restores (h : Holds e dir here name m base entries p) (sound : Sound e dir here p)
    (durable : p.stage ≠ .unsaved) : p.store.disk.Restores dir here base entries := by
  cases h with
  | ended ended gives => exact gives durable
  | running housed given rests same shows =>
    cases sound with
    | ended ended => exact absurd ended (not_ended housed)
    | running _ _ saved =>
      rw [← same, ← shows]
      exact housed.furnished.kept.restores (saved durable) rests

end Holds

end

end MapStore
