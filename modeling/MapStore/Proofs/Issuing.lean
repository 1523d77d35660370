/-
MapStore.Proofs.Issuing — no id is given out twice.

An engine asks its ids for three things: the id of a name, a new one if it has
none; the id that a name has; and to forget the assignments (`Ask`). Two numbers
say what a series of requests may do to them (`Follows`): what a name has later
it had before or is above the last id before, and no two names come to share an
id above it. The last id only grows, so this composes, and forgetting, which
lowers nothing, is no exception (`Follows.run`).

Names can share an id all the same, where two artifacts in the directory had it
already. Nothing else makes them.
-/
import MapStore.Proofs.Listing

namespace MapStore

namespace MapIds

variable {ids ids' ids'' start : MapIds} {name other : String} {id old : MapId}
  {files : List String}

/-! ## One request for an id -/

theorem get?_clear (ordered : ids.Ordered) (name : String) : ids.clear.get? name = none := by
  have order : Std.TransCmp ids.assigned.order := by
    rw [ordered]
    infer_instance
  exact SortedTable.get?_empty ids.assigned.order name

/-! ## What ids come to -/

/-- What holds of ids and what has come of them: the last id has not gone
down, and ids that names did not have before are above what the last id was,
none of them with two names. -/
structure Follows (ids ids' : MapIds) : Prop where
  ordered : ids'.Ordered
  bounded : ids'.Bounded
  lastId : ids.lastId ≤ ids'.lastId
  known : ∀ name id, ids'.get? name = some id → ids.get? name = some id ∨ ids.lastId < id
  unshared : ∀ name other id, ids'.get? name = some id → ids'.get? other = some id →
    name = other ∨ id ≤ ids.lastId

namespace Follows

theorem refl (ordered : ids.Ordered) (bounded : ids.Bounded) : ids.Follows ids where
  ordered := ordered
  bounded := bounded
  lastId := UInt32.le_refl _
  known _ _ had := .inl had
  unshared name _ id had _ := .inr (bounded name id had)

/-- An id that is not above the last one was there before. -/
theorem had (h : ids.Follows ids') (got : ids'.get? name = some id) (low : id ≤ ids.lastId) :
    ids.get? name = some id := by
  obtain before | above := h.known name id got
  · exact before
  · exact absurd above (UInt32.not_lt.2 low)

theorem trans (h : ids.Follows ids') (h' : ids'.Follows ids'') : ids.Follows ids'' where
  ordered := h'.ordered
  bounded := h'.bounded
  lastId := UInt32.le_trans h.lastId h'.lastId
  known name id got := by
    obtain before | above := h'.known name id got
    · exact h.known name id before
    · exact .inr (UInt32.lt_of_le_of_lt h.lastId above)
  unshared name other id got got' := by
    obtain same | low := h'.unshared name other id got got'
    · exact .inl same
    · exact h.unshared name other id (h'.had got low) (h'.had got' low)

/-- A new id is above the last one and no other name's. -/
theorem insert (ordered : ids.Ordered) (bounded : ids.Bounded) (room : ids.lastId ≠ maxId)
    (name : String) :
    ids.Follows ⟨ids.lastId + 1, (ids.assigned.insert name (ids.lastId + 1)).2⟩ := by
  have fresh := lt_succ_of_ne room
  have gives := fun other => get?_insert ordered (ids.lastId + 1) name other (ids.lastId + 1)
  -- what any name has afterwards is the new id or what it had
  have cases : ∀ {other id}, (MapIds.mk (ids.lastId + 1)
      (ids.assigned.insert name (ids.lastId + 1)).2).get? other = some id →
      other = name ∧ id = ids.lastId + 1 ∨ ids.get? other = some id := by
    intro other id got
    rw [gives] at got
    split at got
    · rename_i same
      exact .inl ⟨same, (Option.some.inj got).symm⟩
    · exact .inr got
  refine ⟨ordered, ?_, UInt32.le_of_lt fresh, ?_, ?_⟩
  · intro other id got
    obtain ⟨-, rfl⟩ | before := cases got
    · exact UInt32.le_refl _
    · exact UInt32.le_of_lt (UInt32.lt_of_le_of_lt (bounded other id before) fresh)
  · intro other id got
    obtain ⟨-, rfl⟩ | before := cases got
    · exact .inr fresh
    · exact .inl before
  · intro first second id got got'
    obtain ⟨rfl, rfl⟩ | before := cases got
    · obtain ⟨rfl, -⟩ | before := cases got'
      · exact .inl rfl
      · exact .inr (bounded second _ before)
    · exact .inr (bounded first id before)

theorem clear (ordered : ids.Ordered) : ids.Follows ids.clear where
  ordered := ordered
  bounded name id got := by
    rw [get?_clear ordered] at got
    cases got
  lastId := UInt32.le_refl _
  known name id got := by
    rw [get?_clear ordered] at got
    cases got
  unshared name other id got := by
    rw [get?_clear ordered] at got
    cases got

end Follows

/-! ## What ids begin as -/

/-- The ids are new ones, or those of the files of a directory. -/
inductive Begins : List String → MapIds → Prop
  | new : Begins [] .empty
  | recovered {policy : RecoveryPolicy} {files : List String} {ids : MapIds}
      (h : recover policy files = .ok ids) : Begins files ids

theorem Begins.sums (h : Begins files start) : Sums files start := by
  cases h with
  | new =>
    have none : recover .skip [] = .ok .empty := rfl
    exact sums_of_recover none
  | recovered h => exact sums_of_recover h

theorem Begins.bounded (h : Begins files start) : start.Bounded := by
  intro name id had
  have listed := ((h.sums.assigned name id).1 had).1
  exact h.sums.lastId.2 (.inr ⟨name, listed⟩)

end MapIds

/-! ## Series of requests -/

/-- What an engine asks of its ids. -/
inductive Ask where
  | idFor (name : String)
  | assigned (name : String)
  | clear

namespace Ask

open MapIds

variable {ids start : MapIds} {name other : String} {id old : MapId} {files : List String}
  {ask ask' : Ask}

/-- The ids after the request. One that is refused leaves them as they were. -/
def after (ids : MapIds) : Ask → MapIds
  | .idFor name =>
    match ids.idFor name with
    | .ok (_, later) => later
    | .error _ => ids
  | .assigned _ => ids
  | .clear => ids.clear

/-- The id that the request is answered with, if any. -/
def answer (ids : MapIds) : Ask → Except StoreError (Option MapId)
  | .idFor name => (ids.idFor name).map fun given => some given.1
  | .assigned name => .ok (ids.get? name)
  | .clear => .ok none

/-- The ids after all the requests. -/
def run (ids : MapIds) (asks : List Ask) : MapIds := asks.foldl after ids

/-- The request is one for the id of `name`. -/
def Concerns (ask : Ask) (name : String) : Prop := ask = .idFor name ∨ ask = .assigned name

theorem run_append (ids : MapIds) (before more : List Ask) :
    run ids (before ++ more) = run (run ids before) more :=
  List.foldl_append

theorem run_cons (ids : MapIds) (ask : Ask) (more : List Ask) :
    run ids (ask :: more) = run (ask.after ids) more :=
  rfl

theorem after_follows (ordered : ids.Ordered) (bounded : ids.Bounded) (ask : Ask) :
    ids.Follows (ask.after ids) := by
  cases ask with
  | idFor name =>
    cases had : ids.get? name with
    | some id =>
      simp only [after, idFor_of_some had]
      exact .refl ordered bounded
    | none =>
      by_cases last : ids.lastId = maxId
      · simp only [after, idFor_of_last had last]
        exact .refl ordered bounded
      · simp only [after, idFor_of_none had last]
        exact .insert ordered bounded last name
  | assigned name => exact .refl ordered bounded
  | clear => exact .clear ordered

theorem run_follows (ordered : ids.Ordered) (bounded : ids.Bounded) (asks : List Ask) :
    ids.Follows (run ids asks) := by
  induction asks generalizing ids with
  | nil => exact .refl ordered bounded
  | cons ask rest ih =>
    have step := after_follows ordered bounded ask
    exact step.trans (ih step.ordered step.bounded)

theorem concerns_of_answer (h : ask.answer ids = .ok (some id)) : ∃ name, ask.Concerns name := by
  cases ask with
  | idFor name => exact ⟨name, .inl rfl⟩
  | assigned name => exact ⟨name, .inr rfl⟩
  | clear => cases h

/-- The id that a request for a name is answered with is the name's. -/
theorem get?_of_answer (ordered : ids.Ordered) (concerns : ask.Concerns name)
    (h : ask.answer ids = .ok (some id)) : (ask.after ids).get? name = some id := by
  obtain rfl | rfl := concerns
  · cases had : ids.get? name with
    | some before =>
      simp only [answer, after, idFor_of_some had] at h ⊢
      cases h
      exact had
    | none =>
      by_cases last : ids.lastId = maxId
      · simp only [answer, idFor_of_last had last] at h
        cases h
      · simp only [answer, after, idFor_of_none had last] at h ⊢
        cases h
        simp [get?_insert ordered]
  · exact Except.ok.inj h

/-- A request for a name that has an id is answered with it. -/
theorem answer_of_get? (h : ask.Concerns name) (had : ids.get? name = some id) :
    ask.answer ids = .ok (some id) := by
  obtain rfl | rfl := h
  · simp only [answer, idFor_of_some had]
    rfl
  · simp only [answer, had]

/-- Only forgetting takes an id from a name. -/
theorem get?_after (ordered : ids.Ordered) (keeps : ask ≠ .clear) (had : ids.get? name = some id) :
    (ask.after ids).get? name = some id := by
  cases ask with
  | idFor other =>
    cases known : ids.get? other with
    | some id' => simpa only [after, idFor_of_some known] using had
    | none =>
      by_cases last : ids.lastId = maxId
      · simpa only [after, idFor_of_last known last] using had
      · have ne : name ≠ other := by
          rintro rfl
          rw [known] at had
          cases had
        simp only [after, idFor_of_none known last, get?_insert ordered, if_neg ne, had]
  | assigned other => exact had
  | clear => exact absurd rfl keeps

theorem get?_run (ordered : ids.Ordered) (bounded : ids.Bounded) {asks : List Ask}
    (keeps : Ask.clear ∉ asks) (had : ids.get? name = some id) :
    (run ids asks).get? name = some id := by
  induction asks generalizing ids with
  | nil => exact had
  | cons ask rest ih =>
    rw [List.mem_cons, not_or] at keeps
    have step := after_follows ordered bounded ask
    rw [run_cons]
    exact ih step.ordered step.bounded keeps.2 (get?_after ordered (Ne.symm keeps.1) had)

/-! ## Never twice -/

/-- A name without an id is given the one after the last. -/
theorem answer_of_new (new : ids.get? name = none)
    (given : (Ask.idFor name).answer ids = .ok (some id)) : ids.lastId < id := by
  by_cases last : ids.lastId = maxId
  · simp only [answer, idFor_of_last new last] at given
    cases given
  · simp only [answer, idFor_of_none new last] at given
    cases given
    exact lt_succ_of_ne last

end Ask

namespace MapIds.Begins

open Ask

variable {start : MapIds} {name other : String} {id old : MapId} {files : List String}
  {before more : List Ask} {ask ask' : Ask}

theorem reached (h : Begins files start) (asks : List Ask) : start.Follows (run start asks) :=
  run_follows h.sums.ordered h.bounded asks

theorem onward (h : Begins files start) (before more : List Ask) :
    (run start before).Follows (run start (before ++ more)) := by
  rw [run_append]
  exact run_follows (h.reached before).ordered (h.reached before).bounded more

/-- What is recovered, and listed, is not above the last id. -/
theorem low (h : Begins files start) (source : start.get? name = some id ∨ Listed files name id) :
    id ≤ start.lastId := by
  obtain had | listed := source
  · exact h.bounded name id had
  · exact h.sums.lastId.2 (.inr ⟨name, listed⟩)

/-- An id that was answered is not above the last one. -/
theorem answered_low (h : Begins files start)
    (answered : ask.answer (run start before) = .ok (some id)) (more : List Ask) :
    id ≤ (run start (before ++ ask :: more)).lastId := by
  obtain ⟨name, concerns⟩ := concerns_of_answer answered
  have ordered := (h.reached before).ordered
  have step := after_follows ordered (h.reached before).bounded ask
  have later := run_follows step.ordered step.bounded more
  rw [run_append, run_cons]
  exact UInt32.le_trans (step.bounded name id (get?_of_answer ordered concerns answered))
    later.lastId

/-- The same name is answered with the same id. -/
theorem answered_again (h : Begins files start) (concerns : ask.Concerns name)
    (concerns' : ask'.Concerns name) (keeps : Ask.clear ∉ more)
    (answered : ask.answer (run start before) = .ok (some id)) :
    ask'.answer (run start (before ++ ask :: more)) = .ok (some id) := by
  have ordered := (h.reached before).ordered
  have step := after_follows ordered (h.reached before).bounded ask
  have got := get?_of_answer ordered concerns answered
  rw [run_append, run_cons]
  exact answer_of_get? concerns' (get?_run step.ordered step.bounded keeps got)

/-- Names that have the same id, if at different times, had it from the
start. -/
theorem shared (h : Begins files start) (ne : name ≠ other)
    (got : (run start before).get? name = some id)
    (got' : (run start (before ++ more)).get? other = some id) :
    start.get? name = some id ∧ start.get? other = some id := by
  -- the other name had the id already when the first one had it
  have had := (h.onward before more).had got' ((h.reached before).bounded name id got)
  obtain same | low := (h.reached before).unshared name other id got had
  · exact absurd same ne
  · exact ⟨(h.reached before).had got low, (h.reached before).had had low⟩

end MapIds.Begins

namespace Ask

open MapIds

variable {start : MapIds} {files : List String}

/-- **No id is given out twice.** Take new ids, or those recovered from any
listing, and any requests.

* A name without an id is given one above every id of an artifact in the
  listing, every id recovered, and every id that a request was answered with
  before, whether or not the assignments were forgotten since.
* Until they are forgotten, requests for a name are answered with the same id.
* Names that have the same id, be it at different times, had it from the start.
* The last id never goes down, and no name has one above it.
* At the largest id a name without one is refused, nothing changes, and the
  names that have ids keep being answered. Below it no name is refused. -/
theorem never_given_twice (begins : Begins files start) :
    (∀ before name id, (run start before).get? name = none →
      (Ask.idFor name).answer (run start before) = .ok (some id) →
      (∀ other old, start.get? other = some old ∨ Listed files other old → old < id) ∧
      ∀ (first : List Ask) (ask : Ask) (rest : List Ask) (old : MapId),
        before = first ++ ask :: rest → ask.answer (run start first) = .ok (some old) → old < id) ∧
    (∀ (before : List Ask) (ask : Ask) (more : List Ask) (ask' : Ask) (name : String) (id : MapId),
      ask.Concerns name → ask'.Concerns name → Ask.clear ∉ more →
      ask.answer (run start before) = .ok (some id) →
      ask'.answer (run start (before ++ ask :: more)) = .ok (some id)) ∧
    (∀ before more name other id, name ≠ other → (run start before).get? name = some id →
      (run start (before ++ more)).get? other = some id →
      start.get? name = some id ∧ start.get? other = some id) ∧
    (∀ before more, (run start before).lastId ≤ (run start (before ++ more)).lastId) ∧
    (∀ asks name id, (run start asks).get? name = some id → id ≤ (run start asks).lastId) ∧
    (∀ asks name, (run start asks).get? name = none → (run start asks).lastId = 0xffffffff →
      (Ask.idFor name).answer (run start asks) = .error (.config "map id space exhausted") ∧
      (Ask.idFor name).after (run start asks) = run start asks) ∧
    (∀ asks name id, (run start asks).get? name = some id →
      (Ask.idFor name).answer (run start asks) = .ok (some id) ∧
      (Ask.idFor name).after (run start asks) = run start asks) ∧
    (∀ asks name, (run start asks).get? name = none → (run start asks).lastId ≠ 0xffffffff →
      (Ask.idFor name).answer (run start asks) = .ok (some ((run start asks).lastId + 1))) := by
  refine ⟨?_, fun _ _ _ _ _ _ => begins.answered_again, fun _ _ _ _ _ => begins.shared,
    fun before more => (begins.onward before more).lastId,
    fun asks => (begins.reached asks).bounded,
    ?_, ?_, ?_⟩
  · intro before name id new given
    have above := answer_of_new new given
    constructor
    · intro other old source
      have low := UInt32.le_trans (begins.low source) (begins.reached before).lastId
      exact UInt32.lt_of_le_of_lt low above
    · rintro first ask rest old rfl answered
      exact UInt32.lt_of_le_of_lt (begins.answered_low answered rest) above
  · intro asks name new last
    simp only [answer, after, idFor_of_last new last, and_true]
    rfl
  · intro asks name id had
    simp only [answer, after, idFor_of_some had, and_true]
    rfl
  · intro asks name new room
    simp only [answer, idFor_of_none new room]
    rfl

/-- Even a map whose artifact is there gets a new id once the assignments are
forgotten, and one above its old one. -/
theorem orders_never_twice :
    ∃ start, Begins ["orders-5.db"] start ∧ (run start [.clear]).get? "orders" = none ∧
      (Ask.idFor "orders").answer (run start [.clear]) = .ok (some 6) ∧
      Listed ["orders-5.db"] "orders" 5 ∧ (5 : MapId) < 6 := by
  have recovered : recover .abort ["orders-5.db"] = .ok (MapIds.empty.record "orders" 5) := rfl
  have begins := Begins.recovered recovered
  obtain ⟨fresh, -, -, -, -, -, -, answers⟩ := never_given_twice begins
  have new : (run (MapIds.empty.record "orders" 5) [.clear]).get? "orders" = none :=
    get?_clear begins.sums.ordered "orders"
  have given := answers [.clear] "orders" new (by decide)
  have listed : Listed ["orders-5.db"] "orders" 5 :=
    ⟨"orders-5.db", List.mem_cons_self, Artifact.parse_eq_some.1 rfl⟩
  exact ⟨_, begins, new, given, listed,
    (fresh [.clear] "orders" 6 new given).1 "orders" 5 (.inr listed)⟩

end Ask

end MapStore
