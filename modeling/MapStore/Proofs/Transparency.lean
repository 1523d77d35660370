/-
MapStore.Proofs.Transparency — buffering and mode switching are invisible.

A caller of a buffered or adaptive map cannot tell it from one plain map. The
calls it makes (`Call`), the upkeep that goes on beside them (`Upkeep`: saves,
merges, switches and whole ticks over whatever live-sets) and whatever else
happens to maps that are none of the two make up a `Run`, in any order and of
any length, with calls refused or panicking wherever the backing's plan has it
so. The calls that were answered, made one after the other on a lone in-memory
map, are answered there alike.

Every step keeps what the map shows (`Keeps`) or makes the one change of a
write to it; the run follows by induction on its steps.
-/
import MapStore.Proofs.Evaluating
import MapStore.Proofs.KeyOrders
import MapStore.Proofs.Standing

namespace MapStore

/-! ## Upkeep -/

namespace Store

variable {m b : MapHandle} {s s' s'' : Store} {t : PlainMap}

/-- A step that leaves what the map shows. -/
def Keeps (m b : MapHandle) (s s' : Store) : Prop := ∀ t, s.Shows m b t → s'.Shows m b t

namespace Keeps

theorem refl (m b : MapHandle) (s : Store) : Keeps m b s s := fun _ h => h

theorem trans (h : Keeps m b s s') (h' : Keeps m b s' s'') : Keeps m b s s'' :=
  fun t shows => h' t (h t shows)

theorem of_maps (same : s'.maps = s.maps) : Keeps m b s s' := fun _ h => h.of_maps same

/-- A step that is confined to the other maps, if those are closed. -/
theorem of_others (h : s.Closed (fun x => x ≠ m ∧ x ≠ b) →
    s.Confined (fun x => x ≠ m ∧ x ≠ b) s') : Keeps m b s s' := by
  rintro t ⟨p, front, waiting, stands, rfl⟩
  exact stands.shows.of_others (h stands.alone)

/-- A step that leaves the store if the map is a plain one. -/
theorem of_plain (h : ∀ st, s.maps[b.index]? = some st → (∃ p, st.plain? = some p) → s' = s) :
    Keeps m b s s' := by
  rintro t ⟨p, front, waiting, stands, rfl⟩
  obtain ⟨st, state, plain, -⟩ := stands.plain.state
  rw [h st state ⟨p, plain⟩]
  exact stands.shows

/-- Merging any map. -/
theorem merge (x : MapHandle) (s : Store) : Keeps m b s (x.merge.after s) := by
  by_cases atM : x = m
  · exact atM ▸ fun _ h => h.merge
  by_cases atB : x = b
  · refine of_plain fun st state plain => ?_
    rw [← atB] at state
    have unbuffered : st.buffer? = none := by
      cases st <;> first | rfl | cases plain.choose_spec
    rw [Action.after_of_ok (MapHandle.run_merge_of_none state unbuffered)]
  · exact of_others fun closed => (frame_merge ⟨atM, atB⟩ closed).toConfined

/-- Saving any map. -/
theorem save (x : MapHandle) (s : Store) : Keeps m b s (x.save.after s) := by
  by_cases atM : x = m
  · exact atM ▸ fun _ h => h.save
  by_cases atB : x = b
  · exact atB ▸ fun _ h => h.save_backing
  · exact of_others fun closed => (frame_save ⟨atM, atB⟩ closed).toConfined

/-- Switching any map. -/
theorem switchTo (x : MapHandle) (target : MapMode) (s : Store) :
    Keeps m b s ((Tick.switchTo x target).after s) := by
  by_cases atM : x = m
  · cases target with
    | direct => exact atM ▸ fun _ h => h.switchToDirect
    | buffered => exact atM ▸ fun _ h => h.switchToBuffered
  by_cases atB : x = b
  · refine of_plain fun st state plain => ?_
    rw [← atB] at state
    have profile : st.profile? = none := by
      cases st <;> first | rfl | cases plain.choose_spec
    exact Action.after_of_ok (Tick.switchTo_plain state profile target)
  · exact of_others fun closed => Tick.confined_switchTo closed ⟨atM, atB⟩ target

/-- Evaluating any map. -/
theorem evaluate (policy : ModePolicy) (x : MapHandle) (s : Store) :
    Keeps m b s ((Tick.evaluate policy x).after s) := by
  unfold Tick.evaluate
  refine Action.after_bind (R := Keeps m b) trans ?_ fun shares s₁ _ => ?_
  · rw [Tick.after_percents]
    exact refl m b s
  refine Action.after_bind (R := Keeps m b) trans (of_maps (Tick.maps_resetWindow x s₁))
    fun _ s₂ _ => ?_
  cases policy.modeFor shares.1 shares.2 with
  | none => exact refl m b s₂
  | some target =>
    refine Action.after_bind (R := Keeps m b) trans ?_ fun _ s₃ _ => refl m b s₃
    rw [Action.after_attempt]
    exact switchTo x target s₂

/-- Running any unit of merge work. -/
theorem run (u : MergeUnit) (s : Store) : Keeps m b s (u.run.after s) := by
  cases u with
  | map x => exact merge x s
  | standIn u =>
    rw [MergeUnit.after_standIn]
    exact of_maps rfl

/-- A whole tick, over whatever live-sets. -/
theorem tick (live : LiveHandle) (policy : ModePolicy) (s : Store) :
    Keeps m b s ((Tick.run live policy).after s) :=
  Tick.after_run policy (refl m b) trans (fun x _ => evaluate policy x) run save

end Keeps

end Store

/-- What goes on beside the calls of a map. -/
inductive Upkeep where
  | save
  | merge
  | switchToBuffered
  | switchToDirect
  /-- A background tick over the live-sets of an engine. -/
  | tick (live : LiveHandle) (policy : ModePolicy)

namespace Upkeep

/-- Does the upkeep, of the map or of the engine's live-sets. -/
def perform (m : MapHandle) : Upkeep → Action Unit
  | save => m.save
  | merge => do let _ ← m.merge
  | switchToBuffered => do let _ ← m.switchToBuffered
  | switchToDirect => do let _ ← m.switchToDirect
  | tick live policy => do let _ ← Tick.run live policy

/-- Upkeep leaves what a map shows, whatever comes of it. -/
theorem keeps {m b : MapHandle} (u : Upkeep) (s : Store) :
    s.Keeps m b ((u.perform m).after s) := by
  have whole : ∀ {α : Type} (a : Action α), s.Keeps m b (a.after s) →
      s.Keeps m b ((do let _ ← a : Action Unit).after s) := fun a kept =>
    Action.after_bind (R := Store.Keeps m b) Store.Keeps.trans kept fun _ s' _ => .refl m b s'
  cases u with
  | save => exact .save m s
  | merge => exact whole _ (.merge m s)
  | switchToBuffered => exact whole _ (.switchTo m .buffered s)
  | switchToDirect => exact whole _ (.switchTo m .direct s)
  | tick live policy => exact whole _ (.tick live policy s)

end Upkeep

/-! ## Calls -/

/-- A call of a map. -/
inductive Call where
  | get (key : Bytes)
  | contains (key : Bytes)
  | size
  | isEmpty
  | entries
  | put (key value : Bytes)
  | remove (key : Bytes)

/-- What a call is answered. -/
inductive Answer where
  | value (value : Option Bytes)
  | flag (flag : Bool)
  | number (number : Nat)
  | listing (entries : List (Bytes × Bytes))

/-- Answers that differ at most in the spelling of keys that compare equal. -/
inductive Answer.Agree (order : Bytes → Bytes → Ordering) : Answer → Answer → Prop where
  | same (a : Answer) : Agree order a a
  | listing {l l' : List (Bytes × Bytes)}
      (alike : List.Forall₂ (fun a b => order a.1 b.1 = .eq ∧ a.2 = b.2) l l') :
      Agree order (.listing l) (.listing l')

/-- Where only identical keys compare equal there is one spelling. -/
theorem Answer.Agree.eq {order : Bytes → Bytes → Ordering} {a a' : Answer}
    (identical : ∀ x y, order x y = .eq → x = y) (h : Agree order a a') : a = a' := by
  cases h with
  | same a => rfl
  | listing alike =>
    refine congrArg Answer.listing ?_
    induction alike with
    | nil => rfl
    | cons head _ ih => rw [Prod.ext (identical _ _ head.1) head.2, ih]

namespace Call

/-- Makes the call of a map. -/
def perform (m : MapHandle) : Call → Action Answer
  | get key => return .value (← m.get key)
  | contains key => return .flag (← m.contains key)
  | size => return .number (← m.size)
  | isEmpty => return .flag (← m.isEmpty)
  | entries => return .listing (← m.entries)
  | put key value => return .value (← m.put key value)
  | remove key => return .value (← m.remove key)

/-- What a plain map answers to a call that reads. -/
def read? (p : PlainMap) : Call → Option Answer
  | get key => some (.value (p.table.get? key))
  | contains key => some (.flag (p.table.get? key).isSome)
  | size => some (.number p.table.size)
  | isEmpty => some (.flag (p.table.size == 0))
  | entries => some (.listing p.table.toList)
  | put _ _ => none
  | remove _ => none

/-- The change that a call makes that writes. -/
def change? : Call → Option (Bytes × Change)
  | put key value => some (key, .value value)
  | remove key => some (key, .tombstone)
  | _ => none

theorem perform_of_change {m : MapHandle} {c : Call} {key : Bytes} {change : Change}
    (h : c.change? = some (key, change)) (s : Store) :
    ∃ depth, c.perform m s =
      (do return .value (← m.write depth key change) : Action Answer) s := by
  cases c with
  | put k v =>
    cases h
    exact ⟨s.maps.foldl (fun n st => n + st.pendingArrivals) 0, rfl⟩
  | remove k =>
    cases h
    exact ⟨s.maps.foldl (fun n st => n + st.pendingArrivals) 0, rfl⟩
  | get _ => cases h
  | contains _ => cases h
  | size => cases h
  | isEmpty => cases h
  | entries => cases h

/-- A call reads or writes. -/
theorem reads_or_writes (c : Call) (p : PlainMap) :
    (∃ r, c.read? p = some r) ∨ ∃ key change, c.change? = some (key, change) := by
  cases c with
  | put k v => exact .inr ⟨k, _, rfl⟩
  | remove k => exact .inr ⟨k, _, rfl⟩
  | get _ => exact .inl ⟨_, rfl⟩
  | contains _ => exact .inl ⟨_, rfl⟩
  | size => exact .inl ⟨_, rfl⟩
  | isEmpty => exact .inl ⟨_, rfl⟩
  | entries => exact .inl ⟨_, rfl⟩

variable {s s' : Store} {m b : MapHandle} {p t q : PlainMap} {front : Front}
  {waiting : Option WriteBuffer} {c : Call} {r : Answer}

/-- A reader is answered from what the map shows. -/
theorem read_answers (stands : s.Stands m b p front waiting)
    (reads : c.read? (p.through waiting) = some r) :
    (c.perform m).Answers s r (·.Stands m b p front waiting) := by
  cases c with
  | get key =>
    cases reads
    exact (stands.get key).map
  | contains key =>
    cases reads
    exact (stands.contains key).map
  | size =>
    cases reads
    exact stands.size.map
  | isEmpty =>
    cases reads
    exact stands.isEmpty.map
  | entries =>
    cases reads
    exact stands.entries.map
  | put _ _ => cases reads
  | remove _ => cases reads

/-- A call that fails leaves what the map shows. -/
theorem failed {fault : Fault} (run : c.perform m s = .error fault s') : s.Keeps m b s' := by
  rintro t ⟨p, front, waiting, stands, rfl⟩
  obtain ⟨r, reads⟩ | ⟨key, change, writes⟩ := c.reads_or_writes (p.through waiting)
  · have kept := (read_answers stands reads).keeps
    rw [Action.after_of_error run] at kept
    exact kept.shows
  · obtain ⟨depth, same⟩ := perform_of_change (m := m) writes s
    rw [same, Action.run_bind] at run
    obtain ⟨s₁, p', waiting', -, -, -, -, -, run₁⟩ | ⟨fault, s₁, still, run₁⟩ :=
      stands.write depth key change
    · rw [run₁] at run
      cases run
    · rw [run₁] at run
      cases run
      exact still.shows

end Call

/-! ## One plain map -/

/-- A store with one in-memory map. -/
def Store.alone (p : PlainMap) : Store := { Store.onDisk .empty with maps := [.memory p] }

/-- Open maps of the same types that answer every look-up alike. -/
structure PlainMap.Alike (t q : PlainMap) : Prop where
  keyType : t.keyType = q.keyType
  valueType : t.valueType = q.valueType
  isOpen : q.closed = false
  order : t.table.order = q.table.order
  get? : ∀ key, t.table.get? key = q.table.get? key

namespace Call

variable {s s' : Store} {m b : MapHandle} {t q : PlainMap} {c : Call} {r : Answer}

/-- The lone map answers what plain maps answer. -/
theorem read_alone (isOpen : q.closed = false) (reads : c.read? q = some r) :
    c.perform ⟨0⟩ (Store.alone q) = .ok r (Store.alone q) := by
  have state : (Store.alone q).maps[(⟨0⟩ : MapHandle).index]? = some (.memory q) := rfl
  have get : ∀ key, (⟨0⟩ : MapHandle).get key (Store.alone q) =
      .ok (q.table.get? key) (Store.alone q) := by
    intro key
    rw [MapHandle.get_memory state, PlainMap.get_open isOpen]
    rfl
  have contains : ∀ key, (⟨0⟩ : MapHandle).contains key (Store.alone q) =
      .ok (q.table.get? key).isSome (Store.alone q) := by
    intro key
    rw [MapHandle.contains_of_get state (by rintro a ⟨⟩)]
    simp [get]
  have size : (⟨0⟩ : MapHandle).size (Store.alone q) = .ok q.table.size (Store.alone q) := by
    rw [MapHandle.size_memory state, PlainMap.size_open isOpen]
    rfl
  have entries : (⟨0⟩ : MapHandle).entries (Store.alone q) =
      .ok q.table.toList (Store.alone q) := by
    rw [MapHandle.entries_memory state, PlainMap.entries_open isOpen]
    rfl
  cases c with
  | get key => cases reads; simp [perform, get]
  | contains key => cases reads; simp [perform, contains]
  | size => cases reads; simp [perform, size]
  | isEmpty => cases reads; simp [perform, MapHandle.isEmpty, size]
  | entries => cases reads; simp [perform, entries]
  | put _ _ => cases reads
  | remove _ => cases reads

/-- The lone map makes the changes that its data types admit. -/
theorem write_alone {key : Bytes} {change : Change} (isOpen : q.closed = false)
    (checked : PlainMap.checkChange q.keyType q.valueType key change = .ok ())
    (writes : c.change? = some (key, change)) :
    c.perform ⟨0⟩ (Store.alone q) = .ok (.value (q.table.get? key))
      (Store.alone { q with table := (PlainMap.change q.table key change).2 }) := by
  obtain ⟨depth, same⟩ := perform_of_change (m := ⟨0⟩) writes (Store.alone q)
  have made := PlainMap.write_eq_ok.2 ⟨isOpen, checked, rfl, rfl⟩
  rw [same, Action.run_bind, MapHandle.write_memory rfl, made]
  rfl

/-- Readers of maps that answer look-ups alike agree. -/
theorem read_alike [Std.TransCmp t.table.order] (alike : t.Alike q) {r' : Answer}
    (reads : c.read? t = some r) (reads' : c.read? q = some r') :
    r.Agree t.table.order r' := by
  have listed := SortedTable.entries_alike alike.order alike.get?
  have size : t.table.size = q.table.size := by
    rw [SortedTable.size_eq_length, SortedTable.size_eq_length, listed.length_eq]
  cases c with
  | get key =>
    cases reads
    cases reads'
    rw [alike.get?]
    exact .same _
  | contains key =>
    cases reads
    cases reads'
    rw [alike.get?]
    exact .same _
  | size =>
    cases reads
    cases reads'
    rw [size]
    exact .same _
  | isEmpty =>
    cases reads
    cases reads'
    rw [size]
    exact .same _
  | entries =>
    cases reads
    cases reads'
    exact .listing listed
  | put _ _ => cases reads
  | remove _ => cases reads

/-- A call that a map answered is answered alike by a lone map that is alike
what it shows, and so they are afterwards. -/
theorem answered (shows : s.Shows m b t) (alike : t.Alike q)
    (run : c.perform m s = .ok r s') :
    ∃ t' q' r', s'.Shows m b t' ∧ t'.Alike q' ∧ t'.keyType = t.keyType ∧
      c.perform ⟨0⟩ (Store.alone q) = .ok r' (Store.alone q') ∧
      r.Agree t.keyType.compare r' := by
  obtain ⟨p, front, waiting, stands, rfl⟩ := shows
  have order := stands.order_through
  have lawful : Std.TransCmp (p.through waiting).table.order := order ▸ stands.lawful
  have lawful' : Std.TransCmp q.table.order := alike.order ▸ lawful
  obtain ⟨r₀, reads⟩ | ⟨key, change, writes⟩ := c.reads_or_writes (p.through waiting)
  · obtain ⟨r', reads'⟩ : ∃ r', c.read? q = some r' := by
      cases c <;> first | exact ⟨_, rfl⟩ | cases reads
    have answers := read_answers stands reads
    obtain rfl := answers.answer r s' run
    have still := answers.keeps
    rw [Action.after_of_ok run] at still
    refine ⟨_, q, r', still.shows, alike, rfl, read_alone alike.isOpen reads', ?_⟩
    have agree := read_alike alike reads reads'
    rwa [order] at agree
  · obtain ⟨depth, same⟩ := perform_of_change (m := m) writes s
    rw [same, Action.run_bind] at run
    obtain ⟨s₁, p', waiting', still, keyType, valueType, checked, changed, run₁⟩ |
      ⟨fault, s₁, still, run₁⟩ := stands.write depth key change
    · rw [run₁] at run
      cases run
      have checked' : PlainMap.checkChange q.keyType q.valueType key change = .ok () := by
        rw [← alike.keyType, ← alike.valueType]
        exact checked
      refine ⟨_, _, _, still.shows, ?_, keyType, write_alone alike.isOpen checked' writes, ?_⟩
      · refine ⟨keyType.trans alike.keyType, valueType.trans alike.valueType, alike.isOpen, ?_,
          fun other => ?_⟩
        · rw [still.order_through, keyType, ← order, alike.order]
          exact (PlainMap.order_change ..).symm
        · rw [changed, PlainMap.get?_change, PlainMap.get?_change, alike.order, alike.get?]
      · rw [alike.get?]
        exact .same _
    · rw [run₁] at run
      cases run

end Call

/-! ## Runs -/

/-- Something happens to maps that are neither of the two, or the backing's
plan is changed. -/
structure Elsewhere (m b : MapHandle) (s s' : Store) : Prop where
  map : s'.maps[m.index]? = s.maps[m.index]?
  backing : ∀ p, s.Backing b p → s'.Backing b p
  alone : s.Closed (fun x => x ≠ m ∧ x ≠ b) → s'.Closed fun x => x ≠ m ∧ x ≠ b

/-- A run of a map: the calls that were answered, with their answers, among
calls that failed, upkeep, and what happens elsewhere. -/
inductive Run (m b : MapHandle) (s : Store) : List (Call × Answer) → Store → Prop where
  | start : Run m b s [] s
  | answered {log : List (Call × Answer)} {s₁ s₂ : Store} {c : Call} {r : Answer}
      (before : Run m b s log s₁) (call : c.perform m s₁ = .ok r s₂) :
      Run m b s (log ++ [(c, r)]) s₂
  | failed {log : List (Call × Answer)} {s₁ s₂ : Store} {c : Call} {fault : Fault}
      (before : Run m b s log s₁) (call : c.perform m s₁ = .error fault s₂) : Run m b s log s₂
  | upkeep {log : List (Call × Answer)} {s₁ : Store} (before : Run m b s log s₁) (u : Upkeep) :
      Run m b s log ((u.perform m).after s₁)
  | elsewhere {log : List (Call × Answer)} {s₁ s₂ : Store} (before : Run m b s log s₁)
      (other : Elsewhere m b s₁ s₂) : Run m b s log s₂

namespace Run

variable {m b : MapHandle} {s s' : Store} {p t : PlainMap} {front : Front}
  {waiting : Option WriteBuffer} {log : List (Call × Answer)}

theorem keeps_elsewhere {s₁ s₂ : Store} (other : Elsewhere m b s₁ s₂) : s₁.Keeps m b s₂ := by
  rintro t ⟨p, front, waiting, stands, rfl⟩
  obtain ⟨st, state, eq⟩ := stands.state
  have still : s₂.Stands m b p front waiting :=
    { stands with
      state := ⟨st, other.map.trans state, eq⟩
      plain := other.backing p stands.plain
      alone := other.alone stands.alone }
  exact still.shows

/-- The calls that were answered are answered alike by a lone map that starts
with what the map showed. -/
theorem replays (shows : s.Shows m b t) (isOpen : t.closed = false) (run : Run m b s log s') :
    ∃ t' q answers, s'.Shows m b t' ∧ t'.Alike q ∧ t'.keyType = t.keyType ∧
      (log.map Prod.fst).mapM (·.perform ⟨0⟩) (Store.alone t) = .ok answers (Store.alone q) ∧
      List.Forall₂ (Answer.Agree t.keyType.compare) (log.map Prod.snd) answers := by
  induction run with
  | start => exact ⟨t, t, [], shows, ⟨rfl, rfl, isOpen, rfl, fun _ => rfl⟩, rfl, rfl, .nil⟩
  | @answered log s₁ s₂ c r before call ih =>
    obtain ⟨t₁, q₁, answers, shows₁, alike, keyType, replay, agree⟩ := ih
    obtain ⟨t₂, q₂, r', shows₂, alike₂, keyType₂, run', agree'⟩ :=
      Call.answered shows₁ alike call
    refine ⟨t₂, q₂, answers ++ [r'], shows₂, alike₂, keyType₂.trans keyType, ?_, ?_⟩
    · rw [List.map_append, List.mapM_append, Action.run_bind, replay]
      simp [run']
    · rw [List.map_append]
      rw [keyType] at agree'
      exact List.rel_append agree (.cons agree' .nil)
  | failed before call ih =>
    obtain ⟨t₁, q₁, answers, shows₁, rest⟩ := ih
    exact ⟨t₁, q₁, answers, Call.failed call t₁ shows₁, rest⟩
  | upkeep before u ih =>
    obtain ⟨t₁, q₁, answers, shows₁, rest⟩ := ih
    exact ⟨t₁, q₁, answers, u.keeps _ t₁ shows₁, rest⟩
  | elsewhere before other ih =>
    obtain ⟨t₁, q₁, answers, shows₁, rest⟩ := ih
    exact ⟨t₁, q₁, answers, keeps_elsewhere other t₁ shows₁, rest⟩

/-- Buffering and mode switching are invisible: whatever the run, what the map
answered is what one in-memory map answers to the same calls, and what it
shows is what that map holds. -/
theorem invisible (stands : s.Stands m b p front waiting) (run : Run m b s log s') :
    ∃ answers q,
      (log.map Prod.fst).mapM (·.perform ⟨0⟩) (Store.alone (p.through waiting)) =
        .ok answers (Store.alone q) ∧
      List.Forall₂ (Answer.Agree p.keyType.compare) (log.map Prod.snd) answers ∧
      ((∀ x y, p.keyType.compare x y = .eq → x = y) → log.map Prod.snd = answers) ∧
      (∃ t, s'.Shows m b t ∧ ∀ key, t.table.get? key = q.table.get? key) ∧
      (∀ a, s'.maps[m.index]? = some (.adaptive a) → a.mode = .direct →
        ∃ p', s'.Backing b p' ∧ ∀ key, p'.table.get? key = q.table.get? key) ∧
      (∀ (c : Call) fault s'', c.perform m s' = .error fault s'' →
        ∀ t, s'.Shows m b t → s''.Shows m b t) ∧
      ∀ (u : Upkeep) t, s'.Shows m b t → ((u.perform m).after s').Shows m b t := by
  obtain ⟨t, q, answers, shows, alike, -, replay, agree⟩ :=
    replays stands.shows stands.plain.isOpen run
  refine ⟨answers, q, replay, agree, fun identical => ?_, ⟨t, shows, alike.get?⟩,
    fun a state direct => ?_, fun c fault s'' failed => Call.failed failed, fun u => u.keeps s'⟩
  · have same := agree.imp fun _ _ h => Answer.Agree.eq identical h
    rwa [List.forall₂_eq_eq_eq] at same
  · obtain ⟨p', front', waiting', stands', rfl⟩ := shows
    refine ⟨p', stands'.plain, fun key => ?_⟩
    rw [← alike.get?]
    obtain ⟨x, state', -⟩ | ⟨a', state', -, rfl⟩ := stands'.kinds
    · rw [state'] at state
      cases state
    · rw [state'] at state
      cases state
      cases buffer : a.buffer with
      | none => rfl
      | some w => simp [AdaptiveMap.mode, buffer] at direct

/-- A buffered map over a map that panics at every write. -/
def guarded : Store :=
  { Store.onDisk .empty with
    maps :=
      [.faulty
        { inner := .empty "m" ⟨1⟩ .bytes .bytes
          plan := { FaultPlan.none with write := some (.panic none) }
          calls := .zero, onPut := [], onRemove := [], answers := [], settings := none },
       .buffered
        { name := "m", id := ⟨1⟩, backing := ⟨0⟩, keyType := .bytes, valueType := .bytes
          buffer := .empty Bytes.compare, closed := false }] }

theorem guarded_stands :
    guarded.Stands ⟨1⟩ ⟨0⟩ (.empty "m" ⟨1⟩ .bytes .bytes)
      { name := "m", id := ⟨1⟩, backing := ⟨0⟩, keyType := .bytes, valueType := .bytes }
      (some (.empty Bytes.compare)) where
  below := by decide
  state := ⟨_, rfl, rfl⟩
  backing := rfl
  keyType := rfl
  valueType := rfl
  plain := ⟨rfl, _, rfl, rfl, rfl⟩
  lawful := inferInstanceAs (Std.TransCmp Bytes.compare)
  order := rfl
  orders w eq := by
    cases eq
    rfl
  alone x hx st state := by
    obtain ⟨i⟩ := x
    match i with
    | 0 => exact absurd rfl hx.2
    | 1 => exact absurd rfl hx.1
    | n + 2 => simp [guarded] at state

/-- A put that waits, and a merge that panics: the put is answered as by a
plain map. -/
theorem guarded_invisible :
    ∃ s', Run ⟨1⟩ ⟨0⟩ guarded [(.put [1] [2], .value none)] s' ∧
      ∃ q, [Call.put [1] [2]].mapM (·.perform ⟨0⟩)
        (Store.alone (.empty "m" ⟨1⟩ .bytes .bytes)) = .ok [.value none] (Store.alone q) := by
  have got : ∃ s₁, (⟨0⟩ : MapHandle).get [1] guarded = .ok none s₁ ∧
      s₁.maps[1]? = guarded.maps[1]? := by
    refine ⟨?after, ?run, ?same⟩
    case run =>
      rw [MapHandle.get, Action.run_bind, Action.run_state rfl]
      rfl
    case same => rfl
  have put : ∃ s₁, (Call.put [1] [2]).perform ⟨1⟩ guarded = .ok (.value none) s₁ := by
    obtain ⟨s₁, got, state⟩ := got
    have nothing : (WriteBuffer.empty Bytes.compare).get? [1] = none := rfl
    have checked : PlainMap.checkChange .bytes .bytes [1] (.value [2]) = .ok () := rfl
    have rebuffered := Action.run_modifyState (m := ⟨1⟩)
      (·.withBuffer ((WriteBuffer.empty Bytes.compare).insert [1] (.value [2])).2) (state.trans rfl)
    refine ⟨?written, ?write⟩
    case write =>
      show (do
        return Answer.value (← MapHandle.write 0 ⟨1⟩ [1] (.value [2])) : Action _) guarded = _
      rw [Action.run_bind, MapHandle.write_buffered rfl rfl,
        MapHandle.writeBuffered_of_none nothing]
      simp only [Action.run_bind, checked, Action.run_lift_ok, got, rebuffered]
      rfl
  obtain ⟨s₁, put⟩ := put
  have run : Run ⟨1⟩ ⟨0⟩ guarded [(.put [1] [2], .value none)]
      ((Upkeep.perform ⟨1⟩ .merge).after s₁) := .upkeep (.answered .start put) .merge
  obtain ⟨answers, q, replay, -, exact, -⟩ := invisible guarded_stands run
  refine ⟨_, run, q, ?_⟩
  have same := exact fun x y eq =>
    Std.LawfulEqCmp.eq_of_compare (show Bytes.compare x y = .eq from eq)
  rw [← same] at replay
  exact replay

end Run

end MapStore
