/-
MapStore.Proofs.Listing — recovery as a function of the file names alone.

A recovery goes through the files in the order in which the directory lists
them, and keeps a highest id and one for each name as it goes. What it ends with
depends on neither the order nor how often a file is listed: each name has the
greatest id that any of its artifacts has (`Sums.assigned`), and the last id is
the greatest of all (`Sums.lastId`). So listings with the same artifacts give
the same ids (`Sums.same`).

Whether it ends with ids at all depends on the names as well. A malformed name
fails a recovery that is to abort, wherever it is listed
(`foldlM_of_malformed`); without one the two policies are the same
(`foldlM_abort`). Which of several malformed names the error gives is that of
the first listed.
-/
import Mathlib.Order.Bounds.Defs
import MapStore.Proofs.NameGrammar
import MapStore.Proofs.Table

namespace MapStore

/-- Where equal keys are the same, tables that answer look-ups alike list the
same entries. -/
theorem SortedTable.same_of_get? {κ α : Type} {t u : SortedTable κ α} [Std.TransCmp t.order]
    [Std.LawfulEqCmp t.order] (order : t.order = u.order) (look : ∀ key, t.get? key = u.get? key) :
    t.Same u := by
  refine (same_iff order).2 ⟨fun key => ?_, look⟩
  have spelled : ∀ {v : SortedTable κ α}, v.order = t.order →
      v.key? key = (v.get? key).map fun _ => key := by
    intro v same
    have : Std.TransCmp v.order := same ▸ inferInstance
    have : Std.LawfulEqCmp v.order := same ▸ inferInstance
    cases found : v.key? key with
    | none => simp [(v.key?_eq_none_iff key).1 found]
    | some kept =>
      obtain rfl := Std.LawfulEqCmp.eq_of_compare (v.order_of_key? found)
      have there := v.isSome_key? kept
      rw [found] at there
      obtain ⟨value, got⟩ := Option.isSome_iff_exists.1 there.symm
      rw [got]
      rfl
  rw [spelled rfl, spelled order.symm, look]

namespace MapIds

open Artifact (Foreign Names Malformed)

variable {ids ids' : MapIds} {name : String} {id : MapId} {policy : RecoveryPolicy} {file : String}
  {files files' : List String}

/-! ## One file -/

theorem recordFile_of_foreign (h : Foreign file) (policy : RecoveryPolicy) (ids : MapIds) :
    ids.recordFile policy file = .ok ids := by
  simp [recordFile, Artifact.parse_of_foreign h]

theorem recordFile_of_names (h : Names file name id) (policy : RecoveryPolicy) (ids : MapIds) :
    ids.recordFile policy file = .ok (ids.record name id) := by
  simp [recordFile, Artifact.parse_of_names h]

theorem recordFile_skip (ids : MapIds) (file : String) :
    ∃ ids', ids.recordFile .skip file = .ok ids' := by
  obtain foreign | ⟨name, id, names⟩ | malformed := Artifact.foreign_or_names_or_malformed file
  · exact ⟨ids, recordFile_of_foreign foreign _ ids⟩
  · exact ⟨_, recordFile_of_names names _ ids⟩
  · obtain ⟨fault, refused⟩ := Artifact.parse_of_malformed malformed
    exact ⟨ids, by simp [recordFile, refused]⟩

/-- The policies differ at malformed names only. -/
theorem recordFile_abort (h : ¬ Malformed file) (ids : MapIds) :
    ids.recordFile .abort file = ids.recordFile .skip file := by
  obtain foreign | ⟨name, id, names⟩ | malformed := Artifact.foreign_or_names_or_malformed file
  · rw [recordFile_of_foreign foreign, recordFile_of_foreign foreign]
  · rw [recordFile_of_names names, recordFile_of_names names]
  · exact absurd malformed h

theorem recordFile_of_malformed (h : Malformed file) (ids : MapIds) :
    ∃ fault, ids.recordFile .abort file = .error (.invalidMapId file fault) := by
  obtain ⟨fault, refused⟩ := Artifact.parse_of_malformed h
  exact ⟨fault, by simp [recordFile, refused]⟩

/-! ## A listing -/

theorem foldlM_skip (files : List String) (ids : MapIds) :
    ∃ ids', files.foldlM (recordFile .skip) ids = .ok ids' := by
  induction files generalizing ids with
  | nil => exact ⟨ids, rfl⟩
  | cons file rest ih =>
    obtain ⟨ids₁, first⟩ := recordFile_skip ids file
    rw [List.foldlM_cons, first]
    exact ih ids₁

/-- Without malformed names the policies are the same. -/
theorem foldlM_abort (sound : ∀ file ∈ files, ¬ Malformed file) (ids : MapIds) :
    files.foldlM (recordFile .abort) ids = files.foldlM (recordFile .skip) ids := by
  induction files generalizing ids with
  | nil => rfl
  | cons file rest ih =>
    obtain ⟨ids₁, first⟩ := recordFile_skip ids file
    have same := (recordFile_abort (sound file List.mem_cons_self) ids).trans first
    rw [List.foldlM_cons, List.foldlM_cons, first, same]
    exact ih (fun x mem => sound x (List.mem_cons_of_mem _ mem)) ids₁

/-- A malformed name aborts, wherever it is listed. -/
theorem foldlM_of_malformed (bad : ∃ file ∈ files, Malformed file) (ids : MapIds) :
    ∃ file ∈ files, Malformed file ∧
      ∃ fault, files.foldlM (recordFile .abort) ids = .error (.invalidMapId file fault) := by
  induction files generalizing ids with
  | nil => simp at bad
  | cons file rest ih =>
    by_cases malformed : Malformed file
    · obtain ⟨fault, refused⟩ := recordFile_of_malformed malformed ids
      refine ⟨file, List.mem_cons_self, malformed, fault, ?_⟩
      rw [List.foldlM_cons, refused]
      rfl
    · have later : ∃ file ∈ rest, Malformed file := by simpa [malformed] using bad
      obtain ⟨ids₁, first⟩ := recordFile_skip ids file
      obtain ⟨file', mem, malformed', fault, refused⟩ := ih later ids₁
      refine ⟨file', List.mem_cons_of_mem _ mem, malformed', fault, ?_⟩
      rw [List.foldlM_cons, recordFile_abort malformed, first]
      exact refused

/-- A foreign name makes no difference. -/
theorem recover_foreign (h : Foreign file) (policy : RecoveryPolicy) (before after : List String) :
    recover policy (before ++ file :: after) = recover policy (before ++ after) := by
  unfold recover
  rw [List.foldlM_append, List.foldlM_append]
  congr 1
  funext ids
  rw [List.foldlM_cons, recordFile_of_foreign h]
  rfl

/-! ## What comes of it -/

/-- An artifact of the map `name` with the id is listed. -/
def Listed (files : List String) (name : String) (id : MapId) : Prop :=
  ∃ file ∈ files, Names file name id

/-- The ids are those of the listed artifacts: each name that has any has the
greatest of them, and the last id is the greatest of all, zero if there are
none. -/
structure Sums (files : List String) (ids : MapIds) : Prop where
  ordered : ids.Ordered
  known : ∀ name, (ids.get? name).isSome ↔ ∃ id, Listed files name id
  assigned : ∀ name id, ids.get? name = some id ↔ IsGreatest {id | Listed files name id} id
  lastId : IsGreatest {id | id = 0 ∨ ∃ name, Listed files name id} ids.lastId

theorem sums_of_recover (h : recover policy files = .ok ids) : Sums files ids := by
  have recovers := recovers_of_recover h
  have known : ∀ {name id}, Listed files name id → ∃ id', ids.get? name = some id' ∧ id ≤ id' := by
    rintro name id ⟨file, mem, names⟩
    exact recovers.known file mem name id (Artifact.parse_of_names names)
  have found : ∀ {name id}, ids.get? name = some id → Listed files name id := by
    intro name id got
    obtain early | ⟨file, mem, parsed⟩ := recovers.found name id got
    · cases early
    · exact ⟨file, mem, Artifact.parse_eq_some.1 parsed⟩
  have bounded : ids.Bounded := recovers.bounded fun _ _ early => nomatch early
  refine ⟨recovers.ordered, fun name => ⟨fun some => ?_, ?_⟩,
    fun name id => ⟨fun got => ⟨found got, fun other listed => ?_⟩, ?_⟩, ?_, ?_⟩
  · obtain ⟨id, got⟩ := Option.isSome_iff_exists.1 some
    exact ⟨id, found got⟩
  · rintro ⟨id, listed⟩
    obtain ⟨id', got, -⟩ := known listed
    exact Option.isSome_iff_exists.2 ⟨id', got⟩
  · obtain ⟨id', got', le⟩ := known listed
    rw [got] at got'
    cases got'
    exact le
  · rintro ⟨listed, greatest⟩
    obtain ⟨id', got, le⟩ := known listed
    rwa [UInt32.le_antisymm le (greatest (found got))]
  · obtain same | ⟨file, mem, name, parsed⟩ := lastId_of_foldlM h
    · exact .inl same
    · exact .inr ⟨name, file, mem, Artifact.parse_eq_some.1 parsed⟩
  · rintro id (rfl | ⟨name, listed⟩)
    · exact UInt32.zero_le
    · obtain ⟨id', got, le⟩ := known listed
      exact UInt32.le_trans le (bounded name id' got)

/-- The ids are the same to every use: the names with theirs, and the last. -/
structure Same (ids ids' : MapIds) : Prop where
  lastId : ids.lastId = ids'.lastId
  assigned : ids.assigned.Same ids'.assigned

theorem Same.assignments (h : ids.Same ids') : ids.assignments = ids'.assignments :=
  h.assigned.toList

/-- Listings with the same artifacts give the same ids. -/
theorem Sums.same (h : Sums files ids) (h' : Sums files' ids')
    (alike : ∀ name id, Listed files name id ↔ Listed files' name id) : ids.Same ids' := by
  have lists : ∀ name, Listed files name = Listed files' name := fun name =>
    funext fun id => propext (alike name id)
  have order : ids.assigned.order = ids'.assigned.order := h.ordered.trans h'.ordered.symm
  have trans : Std.TransCmp ids.assigned.order := h.ordered ▸ inferInstance
  have lawful : Std.LawfulEqCmp ids.assigned.order := h.ordered ▸ inferInstance
  refine ⟨?_, SortedTable.same_of_get? order fun name => Option.ext fun id => ?_⟩
  · have last := h.lastId
    simp only [lists] at last
    exact UInt32.le_antisymm (h'.lastId.2 last.1) (last.2 h'.lastId.1)
  · have mine := h.assigned name id
    rw [lists] at mine
    exact mine.trans (h'.assigned name id).symm

/-- Foreign names and the order do not matter to what is listed. -/
theorem listed_congr (alike : ∀ file, ¬ Foreign file → (file ∈ files ↔ file ∈ files'))
    (name : String) (id : MapId) : Listed files name id ↔ Listed files' name id := by
  refine exists_congr fun file => and_congr_left fun names => alike file fun foreign => ?_
  have parsed := Artifact.parse_of_names names
  rw [Artifact.parse_of_foreign foreign] at parsed
  cases parsed

theorem not_foreign_of_malformed (h : Malformed file) : ¬ Foreign file := by
  intro foreign
  obtain ⟨fault, refused⟩ := Artifact.parse_of_malformed h
  rw [Artifact.parse_of_foreign foreign] at refused
  cases refused

/-- A recovery that fails names a malformed file that is listed. -/
theorem recover_error {cause : StoreError} (h : recover .abort files = .error cause) :
    ∃ file ∈ files, Malformed file ∧ ∃ fault, cause = .invalidMapId file fault := by
  by_cases bad : ∃ file ∈ files, Malformed file
  · obtain ⟨file, mem, malformed, fault, refused⟩ := foldlM_of_malformed bad empty
    cases h.symm.trans refused
    exact ⟨file, mem, malformed, fault, rfl⟩
  · obtain ⟨ids, recovered⟩ := foldlM_skip files empty
    rw [← foldlM_abort (fun file mem malformed => bad ⟨file, mem, malformed⟩)] at recovered
    cases h.symm.trans recovered

/-- A recovery that ends with ids, does so for any listing with the same
files, foreign ones aside. -/
theorem recover_congr (h : recover policy files = .ok ids)
    (alike : ∀ file, ¬ Foreign file → (file ∈ files ↔ file ∈ files')) :
    ∃ ids', recover policy files' = .ok ids' := by
  cases policy with
  | skip => exact foldlM_skip files' empty
  | abort =>
    have sound : ∀ file ∈ files', ¬ Malformed file := by
      intro file mem malformed
      have there := (alike file (not_foreign_of_malformed malformed)).2 mem
      obtain ⟨_, -, -, fault, refused⟩ := foldlM_of_malformed ⟨file, there, malformed⟩ empty
      cases h.symm.trans refused
    unfold recover
    rw [foldlM_abort sound]
    exact foldlM_skip files' empty

/-- **Recovery depends on the file names alone.** Skipping what is malformed, it
always ends, each name has the greatest id of its artifacts, no other name has
one, and the last id is the greatest of all artifacts, zero if there are none.
Aborting, it fails just if some listed name is malformed, with an error that
names such a file, and otherwise ends with what skipping ends with. Under
either policy, listings that have the same files, in whatever order and however
often, foreign ones aside, give the same ids, and a foreign file in a listing
makes no difference at all. -/
theorem recover_by_names :
    (∀ files, ∃ ids, recover .skip files = .ok ids ∧
      (∀ name, (ids.get? name).isSome ↔ ∃ id, Listed files name id) ∧
      (∀ name id, ids.get? name = some id ↔ IsGreatest {id | Listed files name id} id) ∧
      IsGreatest {id | id = 0 ∨ ∃ name, Listed files name id} ids.lastId) ∧
    (∀ files, (∃ file fault, recover .abort files = .error (.invalidMapId file fault)) ↔
      ∃ file ∈ files, Malformed file) ∧
    (∀ files cause, recover .abort files = .error cause →
      ∃ file ∈ files, Malformed file ∧ ∃ fault, cause = .invalidMapId file fault) ∧
    (∀ files, (∀ file ∈ files, ¬ Malformed file) → recover .abort files = recover .skip files) ∧
    (∀ policy files files' ids, recover policy files = .ok ids →
      (∀ file, ¬ Foreign file → (file ∈ files ↔ file ∈ files')) →
      ∃ ids', recover policy files' = .ok ids' ∧ ids.Same ids') ∧
    (∀ file, Foreign file → ∀ policy before after,
      recover policy (before ++ file :: after) = recover policy (before ++ after)) := by
  refine ⟨fun files => ?_, fun files => ⟨?_, fun bad => ?_⟩, fun files cause => recover_error,
    fun files sound => foldlM_abort sound empty, fun policy files files' ids h alike => ?_,
    fun file foreign => recover_foreign foreign⟩
  · obtain ⟨ids, recovered⟩ := foldlM_skip files empty
    have sums := sums_of_recover recovered
    exact ⟨ids, recovered, sums.known, sums.assigned, sums.lastId⟩
  · rintro ⟨_, _, failed⟩
    obtain ⟨file, mem, malformed, -⟩ := recover_error failed
    exact ⟨file, mem, malformed⟩
  · obtain ⟨file, -, -, fault, refused⟩ := foldlM_of_malformed bad empty
    exact ⟨file, fault, refused⟩
  · obtain ⟨ids', recovered⟩ := recover_congr h alike
    exact ⟨ids', recovered, (sums_of_recover h).same (sums_of_recover recovered)
      (listed_congr alike)⟩

/-- A listing with two artifacts of one map, a malformed name and a file half
written. -/
def shelf : List String := ["orders-4.db", "broken-abc.db", "orders-8.db", "items-9.db.tmp"]

/-- It is recovered from if malformed names are skipped, in either order. -/
theorem shelf_by_names :
    (∃ file ∈ shelf, Malformed file) ∧
    (∃ file fault, recover .abort shelf = .error (.invalidMapId file fault)) ∧
    ∃ ids ids', recover .skip shelf = .ok ids ∧ recover .skip shelf.reverse = .ok ids' ∧
      ids.Same ids' := by
  have malformed : ∃ file ∈ shelf, Malformed file :=
    ⟨"broken-abc.db", by simp [shelf], (Artifact.parse_eq_error rfl).1⟩
  obtain ⟨skips, aborts, -, -, congr, -⟩ := recover_by_names
  obtain ⟨ids, recovered, -⟩ := skips shelf
  obtain ⟨ids', recovered', same⟩ :=
    congr .skip shelf shelf.reverse ids recovered fun file _ => List.mem_reverse.symm
  exact ⟨malformed, (aborts shelf).2 malformed, ids, ids', recovered, recovered', same⟩

end MapIds

end MapStore
