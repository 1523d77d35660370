/-
MapStore.Proofs.Recovering — the ids that an engine finds in its directory.

A name keeps the id that it has, and a new one gets the id after the last, as
long as there is one (`idFor_ends`).

Whatever the directory holds, if ids can be recovered from it then every
artifact's map has an id, at least that of the artifact (`Recovers.known`), and
every id recovered is that of an artifact that is there (`Recovers.found`), none
above the last one. A directory with nothing but artifacts and files half
written (`IsKept`) can always be recovered from.
-/
import MapStore.MapIds
import MapStore.Proofs.ArtifactNames

namespace MapStore

/-! ## Files of a store -/

/-- A file that a store leaves in its directory: the artifact of a map, or a
file half written. -/
def IsKept (file : String) : Prop :=
  (∃ name id, Artifact.isValidName name = true ∧ file = Artifact.fileName name id) ∨
    ∃ other, file = MapFile.temporaryPath other

theorem IsKept.parse {file : String} (h : IsKept file) :
    ∃ r, Artifact.parse file = .ok r ∧ ∀ name id, r = some (name, id) →
      Artifact.isValidName name = true ∧ file = Artifact.fileName name id := by
  obtain ⟨name, id, valid, rfl⟩ | ⟨other, rfl⟩ := h
  · refine ⟨_, Artifact.parse_fileName valid id, fun name' id' eq => ?_⟩
    cases eq
    exact ⟨valid, rfl⟩
  · exact ⟨none, Artifact.parse_temporaryPath other, fun _ _ eq => nomatch eq⟩

namespace MapIds

variable {ids ids' : MapIds} {name other : String} {id : MapId} {policy : RecoveryPolicy}
  {files : List String}

/-! ## Look-ups -/

/-- The names are in an order, which the operations leave. -/
def Ordered (ids : MapIds) : Prop := ids.assigned.order = compare

theorem get?_insert (h : ids.Ordered) (lastId : MapId) (name other : String) (id : MapId) :
    (MapIds.mk lastId (ids.assigned.insert name id).2).get? other =
      if other = name then some id else ids.get? other := by
  have lawful : Std.TransCmp ids.assigned.order := by
    rw [h]
    infer_instance
  show (ids.assigned.insert name id).2.get? other = _
  rw [SortedTable.get?_insert, h]
  by_cases same : other = name
  · simp [same]
  · have ne : compare name other ≠ .eq := fun eq =>
      same (Std.LawfulEqCmp.eq_of_compare eq).symm
    rw [if_neg ne, if_neg same]
    rfl

theorem ordered_empty : MapIds.empty.Ordered := rfl

theorem ordered_record (h : ids.Ordered) (name : String) (id : MapId) :
    (ids.record name id).Ordered := h

/-- A name keeps the higher of two ids. -/
theorem get?_record (h : ids.Ordered) (name other : String) (id : MapId) :
    (ids.record name id).get? other =
      if other = name then some ((ids.get? name).elim id (max · id)) else ids.get? other := by
  unfold record
  rw [get?_insert h]
  cases ids.get? name <;> rfl

theorem max_cases (a b : MapId) : max a b = a ∧ b ≤ a ∨ max a b = b ∧ a ≤ b := by
  rw [show max a b = if a ≤ b then b else a from rfl]
  split
  · rename_i le
    exact .inr ⟨rfl, le⟩
  · rename_i gt
    exact .inl ⟨rfl, (UInt32.le_total a b).resolve_left gt⟩

theorem toNat_le_maxId (id : MapId) : id.toNat ≤ maxId.toNat := Nat.le_of_lt_succ id.toNat_lt

theorem lt_succ_of_ne (h : id ≠ maxId) : id < id + 1 := by
  have ne : id.toNat ≠ maxId.toNat := fun eq => h (UInt32.toNat_inj.1 eq)
  have max : maxId.toNat = 4294967295 := rfl
  have bound := id.toNat_lt
  rw [UInt32.lt_iff_toNat_lt, UInt32.toNat_add]
  simp only [UInt32.reduceToNat]
  omega

/-- No name has an id above the last. -/
def Bounded (ids : MapIds) : Prop := ∀ name id, ids.get? name = some id → id ≤ ids.lastId

theorem le_max_left (a b : MapId) : a ≤ max a b := by
  obtain ⟨eq, -⟩ | ⟨eq, le⟩ := max_cases a b
  · rw [eq]
    exact UInt32.le_refl a
  · rwa [eq]

theorem le_max_right (a b : MapId) : b ≤ max a b := by
  obtain ⟨eq, le⟩ | ⟨eq, -⟩ := max_cases a b
  · rwa [eq]
  · rw [eq]
    exact UInt32.le_refl b

/-! ## Giving ids -/

theorem idFor_of_some (had : ids.get? name = some id) : ids.idFor name = .ok (id, ids) := by
  simp [idFor, had]

/-- Where there is room, a name without an id gets the one after the last. -/
theorem idFor_of_none (new : ids.get? name = none) (room : ids.lastId ≠ maxId) :
    ids.idFor name = .ok (ids.lastId + 1,
      ⟨ids.lastId + 1, (ids.assigned.insert name (ids.lastId + 1)).2⟩) := by
  simp [idFor, new, room]

theorem idFor_of_last (new : ids.get? name = none) (last : ids.lastId = maxId) :
    ids.idFor name = .error (.config "map id space exhausted") := by
  simp [idFor, new, last]

/-- A name that is given an id had it, or it is new and the id is the next one. -/
theorem idFor_ends (h : ids.idFor name = .ok (id, ids')) :
    ids.get? name = some id ∧ ids' = ids ∨
      ids.get? name = none ∧ ids.lastId ≠ maxId ∧ id = ids.lastId + 1 ∧
        ids' = ⟨ids.lastId + 1, (ids.assigned.insert name (ids.lastId + 1)).2⟩ := by
  cases had : ids.get? name with
  | some old =>
    rw [idFor_of_some had] at h
    cases h
    exact .inl ⟨rfl, rfl⟩
  | none =>
    by_cases last : ids.lastId = maxId
    · rw [idFor_of_last had last] at h
      cases h
    · rw [idFor_of_none had last] at h
      cases h
      exact .inr ⟨rfl, last, rfl, rfl⟩

/-- A name is refused an id where there is none left. -/
theorem idFor_refused {cause : StoreError} (h : ids.idFor name = .error cause) :
    ids.get? name = none ∧ ids.lastId = maxId ∧ cause = .config "map id space exhausted" := by
  cases had : ids.get? name with
  | some old =>
    rw [idFor_of_some had] at h
    cases h
  | none =>
    by_cases last : ids.lastId = maxId
    · rw [idFor_of_last had last] at h
      cases h
      exact ⟨rfl, last, rfl⟩
    · rw [idFor_of_none had last] at h
      cases h

/-- The name has its id from then on, the one it had if it had one, and the
other names theirs. -/
theorem idFor_ok (ordered : ids.Ordered) (h : ids.idFor name = .ok (id, ids')) :
    ids'.Ordered ∧ (∀ other, ids'.get? other = if other = name then some id else ids.get? other) ∧
      (ids.get? name = none ∨ ids.get? name = some id) := by
  obtain ⟨had, rfl⟩ | ⟨new, -, rfl, rfl⟩ := idFor_ends h
  · refine ⟨ordered, fun other => ?_, .inr had⟩
    split
    · rename_i same
      rw [same, had]
    · rfl
  · exact ⟨ordered, fun other => get?_insert ordered _ name other _, .inl new⟩

/-! ## Noting an artifact -/

section

variable (h : ids.Ordered) (name : String) (id : MapId)

include h

/-- Every name keeps an id, as high as before. -/
theorem kept_record {id' : MapId} (had : ids.get? other = some id') :
    ∃ last, (ids.record name id).get? other = some last ∧ id' ≤ last := by
  rw [get?_record h]
  split
  · rename_i same
    rw [← same, had]
    exact ⟨_, rfl, le_max_left id' id⟩
  · exact ⟨id', had, UInt32.le_refl id'⟩

/-- The name of the artifact has an id as high as that of the artifact. -/
theorem known_record : ∃ last, (ids.record name id).get? name = some last ∧ id ≤ last := by
  rw [get?_record h, if_pos rfl]
  cases ids.get? name with
  | none => exact ⟨id, rfl, UInt32.le_refl id⟩
  | some existing => exact ⟨_, rfl, le_max_right existing id⟩

/-- An id is one from before, or that of the artifact. -/
theorem found_record {id' : MapId} (had : (ids.record name id).get? other = some id') :
    ids.get? other = some id' ∨ (other = name ∧ id' = id) := by
  rw [get?_record h] at had
  split at had
  · rename_i same
    rw [same]
    cases existing : ids.get? name with
    | none =>
      rw [existing] at had
      exact .inr ⟨rfl, (Option.some.inj had).symm⟩
    | some before =>
      rw [existing] at had
      obtain rfl : max before id = id' := Option.some.inj had
      obtain ⟨eq, -⟩ | ⟨eq, -⟩ := max_cases before id
      · exact .inl (by rw [eq])
      · exact .inr ⟨rfl, eq⟩
  · exact .inl had

theorem bounded_record (bounded : ids.Bounded) : (ids.record name id).Bounded := by
  intro other id' had
  obtain before | ⟨-, rfl⟩ := found_record h name id had
  · exact UInt32.le_trans (bounded other id' before) (le_max_left ids.lastId id)
  · exact le_max_right ids.lastId id'

end

/-- A file that is no artifact is passed over, if the policy has it so. -/
theorem recordFile_ok {file : String} (h : ids.recordFile policy file = .ok ids') :
    (∃ name id, Artifact.parse file = .ok (some (name, id)) ∧ ids' = ids.record name id) ∨
      (∀ name id, Artifact.parse file ≠ .ok (some (name, id))) ∧ ids' = ids := by
  unfold recordFile at h
  split at h
  · rename_i name id parsed
    cases h
    exact .inl ⟨name, id, parsed, rfl⟩
  · rename_i parsed
    cases h
    exact .inr ⟨fun name id => by simp [parsed], rfl⟩
  · rename_i parsed
    cases h
    exact .inr ⟨fun name id => by simp [parsed], rfl⟩
  · cases h

/-! ## Recovering -/

/-- What the ids show of the files they were recovered from, and of those they
started with. -/
structure Recovers (ids₀ : MapIds) (files : List String) (ids : MapIds) : Prop where
  ordered : ids.Ordered
  kept : ∀ name id, ids₀.get? name = some id → ∃ id', ids.get? name = some id' ∧ id ≤ id'
  known : ∀ file ∈ files, ∀ name id, Artifact.parse file = .ok (some (name, id)) →
    ∃ id', ids.get? name = some id' ∧ id ≤ id'
  found : ∀ name id, ids.get? name = some id →
    ids₀.get? name = some id ∨ ∃ file ∈ files, Artifact.parse file = .ok (some (name, id))
  bounded : ids₀.Bounded → ids.Bounded

theorem recovers_nil (ordered : ids.Ordered) : Recovers ids [] ids where
  ordered := ordered
  kept _ id h := ⟨id, h, UInt32.le_refl id⟩
  known _ mem := nomatch mem
  found _ _ h := .inl h
  bounded := id

/-- An artifact more, before the other files. -/
theorem Recovers.recorded {file : String} (ordered : ids.Ordered)
    (parsed : Artifact.parse file = .ok (some (name, id)))
    (rest : Recovers (ids.record name id) files ids') : Recovers ids (file :: files) ids' where
  ordered := rest.ordered
  kept other id' had := by
    obtain ⟨id₁, had₁, le⟩ := kept_record ordered name id had
    obtain ⟨last, there, le'⟩ := rest.kept other id₁ had₁
    exact ⟨last, there, UInt32.le_trans le le'⟩
  known file' mem other id' parsed' := by
    obtain rfl | later := List.mem_cons.1 mem
    · rw [parsed] at parsed'
      cases parsed'
      obtain ⟨id₁, had₁, le⟩ := known_record ordered name id
      obtain ⟨last, there, le'⟩ := rest.kept name id₁ had₁
      exact ⟨last, there, UInt32.le_trans le le'⟩
    · exact rest.known file' later other id' parsed'
  found other id' had := by
    obtain before | ⟨file', mem, parsed'⟩ := rest.found other id' had
    · obtain before | ⟨rfl, rfl⟩ := found_record ordered name id before
      · exact .inl before
      · exact .inr ⟨file, List.mem_cons_self .., parsed⟩
    · exact .inr ⟨file', List.mem_cons_of_mem _ mem, parsed'⟩
  bounded h := rest.bounded (bounded_record ordered name id h)

/-- A file more that is no artifact. -/
theorem Recovers.skipped {file : String}
    (foreign : ∀ name id, Artifact.parse file ≠ .ok (some (name, id)))
    (rest : Recovers ids files ids') : Recovers ids (file :: files) ids' where
  ordered := rest.ordered
  kept := rest.kept
  known file' mem other id' parsed' := by
    obtain rfl | later := List.mem_cons.1 mem
    · exact absurd parsed' (foreign other id')
    · exact rest.known file' later other id' parsed'
  found other id' had := (rest.found other id' had).imp_right fun ⟨file', mem, parsed'⟩ =>
    ⟨file', List.mem_cons_of_mem _ mem, parsed'⟩
  bounded := rest.bounded

theorem recovers_of_foldlM (ordered : ids.Ordered)
    (h : files.foldlM (recordFile policy) ids = .ok ids') : Recovers ids files ids' := by
  induction files generalizing ids with
  | nil =>
    cases h
    exact recovers_nil ordered
  | cons file rest ih =>
    rw [List.foldlM_cons] at h
    cases first : ids.recordFile policy file with
    | error cause =>
      rw [first] at h
      cases h
    | ok ids₁ =>
      rw [first] at h
      obtain ⟨name, id, parsed, rfl⟩ | ⟨foreign, rfl⟩ := recordFile_ok first
      · exact .recorded ordered parsed (ih (ordered_record ordered name id) h)
      · exact .skipped foreign (ih ordered h)

/-- What recovered ids show of the files. -/
theorem recovers_of_recover (h : recover policy files = .ok ids) : Recovers .empty files ids :=
  recovers_of_foldlM ordered_empty h

/-- The highest id is one that a file has, if any file raised it. -/
theorem lastId_of_foldlM (h : files.foldlM (recordFile policy) ids = .ok ids') :
    ids'.lastId = ids.lastId ∨
      ∃ file ∈ files, ∃ name, Artifact.parse file = .ok (some (name, ids'.lastId)) := by
  induction files generalizing ids with
  | nil =>
    cases h
    exact .inl rfl
  | cons file rest ih =>
    rw [List.foldlM_cons] at h
    cases first : ids.recordFile policy file with
    | error cause =>
      rw [first] at h
      cases h
    | ok ids₁ =>
      rw [first] at h
      obtain same | ⟨file', mem, found⟩ := ih h
      · rw [same]
        obtain ⟨name, id, parsed, rfl⟩ | ⟨-, rfl⟩ := recordFile_ok first
        · have highest : (ids.record name id).lastId = max ids.lastId id := rfl
          obtain ⟨eq, -⟩ | ⟨eq, -⟩ := max_cases ids.lastId id
          · exact .inl (highest.trans eq)
          · refine .inr ⟨file, List.mem_cons_self, name, ?_⟩
            rw [highest, eq]
            exact parsed
        · exact .inl rfl
      · exact .inr ⟨file', List.mem_cons_of_mem _ mem, found⟩

/-- Ids can be recovered from what stores leave. -/
theorem recover_kept (policy : RecoveryPolicy) (kept : ∀ file ∈ files, IsKept file) :
    ∃ ids, recover policy files = .ok ids := by
  unfold recover
  generalize empty = ids₀
  induction files generalizing ids₀ with
  | nil => exact ⟨ids₀, rfl⟩
  | cons file rest ih =>
    obtain ⟨r, parsed, -⟩ := (kept file (List.mem_cons_self ..)).parse
    obtain ⟨ids₁, first⟩ : ∃ ids₁, ids₀.recordFile policy file = .ok ids₁ := by
      rcases r with - | ⟨name, id⟩
      · exact ⟨ids₀, by simp [recordFile, parsed]⟩
      · exact ⟨ids₀.record name id, by simp [recordFile, parsed]⟩
    obtain ⟨ids, later⟩ := ih (fun x hx => kept x (List.mem_cons_of_mem _ hx)) ids₁
    exact ⟨ids, by rw [List.foldlM_cons, first]; exact later⟩

end MapIds

end MapStore
