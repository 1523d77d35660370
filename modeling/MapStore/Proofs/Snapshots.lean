/-
MapStore.Proofs.Snapshots — a direct map and its artifact.

A direct map and its artifact change apart from each other: writes change the
map, and a save that goes through replaces the artifact. The mark of being
dirty is what ties them. A map without it is in its artifact, entry for entry,
or it is empty and there is none; and whatever the map went through, what is at
its path is a whole file of this map, or nothing.

A save can be refused twice, when the half-written file is made and when it is
renamed (`Refusal`). The file system here refuses for reasons of its own, and
the one that a map runs on for more, so `saveUnder` saves with a refusal from
outside as well. Between the two steps of a save the disk is as a refused
renaming leaves it: what holds after that holds at every moment.

`Run` is any history of one map that is the only writer of its artifact: its
own writes, saves and closes, and anything else that happens to the disk and
leaves what is at the path of the artifact. `Tracks` is kept by each event.
-/
import MapStore.Proofs.KeyOrders
import MapStore.Proofs.Keeping

namespace MapStore

/-! ## The last step of a path -/

/-- An ending without a separator goes to the last part. -/
theorem Text.split_append {c : Char} {ending : List Char} (h : c ∉ ending) (text : List Char) :
    ∃ before last, split c text = before ++ [last] ∧
      split c (text ++ ending) = before ++ [last ++ ending] := by
  induction text with
  | nil => exact ⟨[], [], rfl, split_of_not_mem h⟩
  | cons x rest ih =>
    obtain ⟨before, last, eq, eq'⟩ := ih
    rw [List.cons_append, split, split, eq, eq']
    by_cases same : x = c
    · exact ⟨[] :: before, last, by simp [same], by simp [same]⟩
    · rw [if_neg same, if_neg same]
      cases before with
      | nil => exact ⟨[], x :: last, rfl, rfl⟩
      | cons first others => exact ⟨(x :: first) :: others, last, rfl, rfl⟩

namespace Disk

variable {d d' : Disk} {path : String} {place old new : Place} {bytes : Bytes}

/-- The bytes of the file at the path, if there is a file. -/
def file? (d : Disk) (path : String) : Option Bytes :=
  match d.at? path with
  | some (.file bytes) => some bytes
  | _ => none

theorem file?_eq_some : d.file? path = some bytes ↔ d.at? path = some (.file bytes) := by
  unfold file?
  split
  · rename_i other there
    simp [there]
  · rename_i other
    simpa using other bytes

theorem file?_congr (h : d'.at? path = d.at? path) : d'.file? path = d.file? path := by
  rw [file?, file?, h]

/-- The last step of the path is too long to be a step that stays or goes up. -/
def EndsInName (path : String) : Prop :=
  ∃ before last, steps path = before ++ [last] ∧ 3 ≤ last.length

theorem steps_append {ending : String} (h : '/' ∉ ending.toList) (path : String) :
    ∃ before last, steps path = before ++ [last] ∧
      steps (path ++ ending) = before ++ [last ++ ending] := by
  obtain ⟨before, last, eq, eq'⟩ := Text.split_append h path.toList
  refine ⟨before.map String.ofList, String.ofList last, ?_, ?_⟩
  · simp [steps, eq]
  · simp [steps, String.toList_append, eq', String.ofList_append]

theorem endsInName_append {ending : String} (h : '/' ∉ ending.toList) (long : 3 ≤ ending.length)
    (path : String) : EndsInName (path ++ ending) := by
  obtain ⟨before, last, -, eq⟩ := steps_append h path
  exact ⟨before, last ++ ending, eq, by rw [String.length_append]; omega⟩

/-- A walk to a name ends with that name. -/
theorem locate?_last {before : List String} {last : String} (eq : steps path = before ++ [last])
    (long : 3 ≤ last.length) (located : d.locate? path = some place) :
    ∃ here, before.foldlM d.step? [] = some here ∧ place = here ++ [last] := by
  unfold locate? at located
  split at located
  · rw [eq, List.foldlM_append] at located
    cases start : before.foldlM d.step? [] with
    | none => simp [start] at located
    | some here =>
      have step : d.step? here last = some place := by simpa [start] using located
      unfold step? at step
      split at step
      · have proper : last ≠ "" ∧ last ≠ "." ∧ last ≠ ".." := by
          refine ⟨?_, ?_, ?_⟩ <;> rintro rfl <;> exact absurd long (by decide)
        simp only [next?, proper.1, proper.2.1, proper.2.2, or_self, if_false] at step
        split at step
        · exact ⟨here, rfl, (Option.some.inj step).symm⟩
        · cases step
      · cases step
  · cases located

/-! ## A half-written file -/

/-- A file and its half-written one are at two places below the root. -/
theorem temporary_apart (ends : EndsInName path)
    (temporary : d.locate? (MapFile.temporaryPath path) = some old)
    (located : d.locate? path = some new) : new ≠ [] ∧ new ≠ old := by
  obtain ⟨before, last, eq, long⟩ := ends
  obtain ⟨before', last', eq', eq''⟩ :=
    steps_append (by decide : '/' ∉ Artifact.temporary.toList) path
  obtain ⟨rfl, rfl⟩ : before = before' ∧ last = last' := by
    rw [eq] at eq'
    simpa using eq'
  have long' : 3 ≤ (last ++ Artifact.temporary).length := by
    rw [String.length_append]
    omega
  obtain ⟨here, start, rfl⟩ := locate?_last eq long located
  obtain ⟨here', start', rfl⟩ := locate?_last eq'' long' temporary
  obtain rfl : here = here' := Option.some.inj (start.symm.trans start')
  refine ⟨by simp, fun same => ?_⟩
  have lengths := congrArg String.length (List.append_singleton_inj.1 same).2
  rw [String.length_append] at lengths
  have : Artifact.temporary.length = 4 := by decide
  omega

/-- A half-written file leaves what is at the path. -/
theorem at?_put_temporary {half : Place} (ends : EndsInName path)
    (source : d.locate? (MapFile.temporaryPath path) = some half)
    (free : d.node? half ≠ some .directory) (bytes : Bytes) :
    (d.put half (.file bytes)).at? path = d.at? path := by
  unfold at?
  rw [(SameDirectories.put_file bytes free).locate?]
  cases target : d.locate? path with
  | none => rfl
  | some place =>
    have apart := (temporary_apart ends source target).2
    rw [Option.bind_some, Option.bind_some, node?_put d _ (ne_root free), if_neg apart]

end Disk

open Disk (EndsInName)

/-! ## Saves that are refused -/

/-- What of a save the system refuses. -/
inductive Refusal where
  /-- The half-written file cannot be made. -/
  | creation
  /-- It is made and cannot be renamed. -/
  | rename
  deriving DecidableEq, Repr

variable {path : String} {d d' d₀ : Disk} {refused : Option Refusal}

/-- Saves the file; a step that the system refuses fails. -/
def MapFile.saveUnder (refused : Option Refusal) (file : MapFile) (path : String) (d : Disk) :
    Except StoreError Unit × Disk :=
  match refused with
  | none => file.save path d
  | some .creation => (.error Disk.refusal, d)
  | some .rename =>
    match d.write (temporaryPath path) file.encode with
    | .error cause => (.error cause, d)
    | .ok written => (.error Disk.refusal, written)

/-- The file is at its path after a save, and what was there after a failed one. -/
theorem MapFile.saveUnder_cases (refused : Option Refusal) (ends : EndsInName path)
    (file : MapFile) (d : Disk) :
    (∃ d', file.saveUnder refused path d = (.ok (), d') ∧ d'.file? path = some file.encode) ∨
      ∃ cause d', file.saveUnder refused path d = (.error cause, d') ∧
        d'.file? path = d.file? path := by
  cases refused with
  | none =>
    unfold saveUnder
    obtain ⟨cause, run⟩ | ⟨half, source, free, ⟨cause, run⟩ | ⟨place, target, free', run⟩⟩ :=
      Disk.save_ends file path d
    · exact .inr ⟨cause, _, run, rfl⟩
    · exact .inr ⟨cause, _, run, Disk.file?_congr (Disk.at?_put_temporary ends source free _)⟩
    · exact .inl ⟨_, run, Disk.file?_eq_some.2 (Disk.at?_saved free free' _ target)⟩
  | some step =>
    cases step with
    | creation => exact .inr ⟨_, d, rfl, rfl⟩
    | rename =>
      unfold saveUnder
      cases wrote : d.write (temporaryPath path) file.encode with
      | error cause => exact .inr ⟨cause, d, rfl, rfl⟩
      | ok written =>
        obtain ⟨half, source, free, rfl⟩ := Disk.write_eq_ok wrote
        exact .inr ⟨_, _, rfl, Disk.file?_congr (Disk.at?_put_temporary ends source free _)⟩

namespace DirectMap

variable {m m' m₀ : DirectMap} {s : MapSettings} {keyType valueType : DataType}

/-- Captures the changes since the last save, as far as the system lets it. -/
def saveUnder (refused : Option Refusal) (m : DirectMap) (d : Disk) :
    Except StoreError Unit × DirectMap × Disk :=
  match m.path with
  | none => (.ok (), { m with dirty := false }, d)
  | some path =>
    if m.dirty then
      match m.file.saveUnder refused path d with
      | (.ok (), d) => (.ok (), { m with dirty := false }, d)
      | (.error cause, d) => (.error cause, { m with dirty := true }, d)
    else (.ok (), m, d)

/-- Saves the map, as far as the system lets it, and closes it. -/
def closeUnder (refused : Option Refusal) (m : DirectMap) (d : Disk) :
    Except StoreError Unit × DirectMap × Disk :=
  if m.closed then (.ok (), m, d)
  else match m.saveUnder refused d with
    | (.ok (), m, d) => (.ok (), { m with closed := true }, d)
    | (.error cause, m, d) => (.error cause, m, d)

/-- If the system refuses nothing of its own, this is saving. -/
theorem saveUnder_none (m : DirectMap) (d : Disk) : m.saveUnder none d = m.save d := rfl

/-- If the system refuses nothing of its own, this is closing. -/
theorem closeUnder_none (m : DirectMap) (d : Disk) : m.closeUnder none d = m.close d := rfl

/-- There is nothing to save, or the artifact is written, or the save fails and
all is as it was. -/
theorem saveUnder_cases (refused : Option Refusal) (persisted : m.path = some path)
    (ends : EndsInName path) (d : Disk) :
    (m.dirty = false ∧ m.saveUnder refused d = (.ok (), m, d)) ∨
      m.dirty = true ∧
        ((∃ d', m.saveUnder refused d = (.ok (), { m with dirty := false }, d') ∧
            d'.file? path = some m.file.encode) ∨
          ∃ cause d', m.saveUnder refused d = (.error cause, m, d') ∧
            d'.file? path = d.file? path) := by
  unfold saveUnder
  simp only [persisted]
  cases dirty : m.dirty with
  | false => exact .inl ⟨rfl, rfl⟩
  | true =>
    refine .inr ⟨rfl, ?_⟩
    obtain ⟨d', run, artifact⟩ | ⟨cause, d', run, artifact⟩ :=
      MapFile.saveUnder_cases refused ends m.file d
    · exact .inl ⟨d', by simp [run], artifact⟩
    · have same : { m with dirty := true } = m := by
        rw [← dirty]
      refine .inr ⟨cause, d', ?_, artifact⟩
      simp [run, ← persisted, same]

/-! ## Histories -/

/-- What can happen to a map or around it. -/
inductive Event where
  /-- A value is put or an entry removed. -/
  | write (key : Bytes) (change : Change)
  | save (refused : Option Refusal)
  | close (refused : Option Refusal)
  /-- Others leave this disk. -/
  | elsewhere (disk : Disk)

namespace Event

/-- What the event answers and leaves. -/
def perform (m : DirectMap) (d : Disk) : Event → Except StoreError Unit × DirectMap × Disk
  | write key change =>
    match m.write key change with
    | .ok (_, m) => (.ok (), m, d)
    | .error cause => (.error cause, m, d)
  | save refused => m.saveUnder refused d
  | close refused => m.closeUnder refused d
  | elsewhere disk => (.ok (), m, disk)

/-- Whether the event writes the artifact. -/
def saves : Event → Bool
  | save _ | close _ => true
  | write _ _ | elsewhere _ => false

/-- Nobody else writes the artifact, and what is saved has a size that a file
can state. -/
def Admitted (path : String) (m : DirectMap) (d : Disk) : Event → Prop
  | write _ _ => True
  | save _ | close _ => m.Fits
  | elsewhere disk => disk.file? path = d.file? path

end Event

/-- The events of a history and their answers. -/
abbrev Log := List (Event × Except StoreError Unit)

/-- No save in the log went through. -/
def Log.Unsaved (log : Log) : Prop := ∀ entry ∈ log, entry.1.saves = true → entry.2 ≠ .ok ()

/-- A history of a map whose artifact is at `path`. -/
inductive Run (path : String) : Log → DirectMap → Disk → DirectMap → Disk → Prop
  | refl (m : DirectMap) (d : Disk) : Run path [] m d m d
  | step {log : Log} {m₀ m : DirectMap} {d₀ d : Disk} (run : Run path log m₀ d₀ m d) (e : Event)
      (admitted : e.Admitted path m d) :
      Run path (log ++ [(e, (e.perform m d).1)]) m₀ d₀ (e.perform m d).2.1 (e.perform m d).2.2

/-! ## What every event keeps -/

/-- The map and the bytes of its artifact, if there are any, belong together. -/
structure Tracks (s : MapSettings) (path : String) (m : DirectMap) (artifact : Option Bytes) :
    Prop where
  named : m.name = s.name ∧ m.id = s.id
  located : m.path = some path
  lawful : Std.TransCmp m.keyType.compare
  ordered : m.table.order = m.keyType.compare
  saved : m.closed = true → m.dirty = false
  whole : ∀ bytes, artifact = some bytes →
    ∃ entries, MapFile.decode bytes = .ok ⟨m.name, m.id, entries⟩
  settled : m.dirty = false →
    (∃ bytes entries, artifact = some bytes ∧
      MapFile.decode bytes = .ok ⟨m.name, m.id, entries⟩ ∧
        (SortedTable.ofList m.keyType.compare entries).toList = m.table.toList) ∨
      artifact = none ∧ m.table.toList = []

/-- What an artifact's bytes give when the map is loaded from them. -/
theorem load_of_file? {bytes : Bytes} {entries : List (Bytes × Bytes)}
    (persisted : s.artifactPath = some path) (there : d.file? path = some bytes)
    (decoded : MapFile.decode bytes = .ok ⟨s.name, s.id, entries⟩) :
    ∃ loaded, load s keyType valueType d = .ok loaded ∧
      loaded.table = SortedTable.ofList keyType.compare entries := by
  have at? := Disk.file?_eq_some.1 there
  have stored : storedEntries s d = .ok entries := by
    simp [storedEntries, persisted, Disk.isPresent, loadEntries, MapFile.load, Disk.read, at?,
      decoded, Except.mapError]
  exact ⟨_, by rw [load, stored]; rfl, rfl⟩

/-- An artifact that is read is a file of which the bytes are decoded. -/
theorem of_loaded {file : MapFile} (loaded : MapFile.load path d = .ok file) :
    ∃ bytes, d.file? path = some bytes ∧ MapFile.decode bytes = .ok file := by
  unfold MapFile.load Disk.read at loaded
  cases there : d.at? path with
  | none => simp [there] at loaded
  | some node =>
    cases node with
    | directory => simp [there] at loaded
    | file bytes =>
      simp only [there] at loaded
      cases decoded : MapFile.decode bytes with
      | error fault => simp [decoded, Except.mapError] at loaded
      | ok found =>
        rw [decoded] at loaded
        cases loaded
        exact ⟨bytes, Disk.file?_eq_some.2 there, decoded⟩

/-- The entries that are found are those of the map's own artifact, or there is
none. -/
theorem of_storedEntries {entries : List (Bytes × Bytes)} (persisted : s.artifactPath = some path)
    (stored : storedEntries s d = .ok entries) :
    (∃ bytes, d.file? path = some bytes ∧ MapFile.decode bytes = .ok ⟨s.name, s.id, entries⟩) ∨
      d.file? path = none ∧ entries = [] := by
  simp only [storedEntries, persisted] at stored
  split at stored
  · unfold loadEntries at stored
    split at stored
    · cases stored
    · rename_i file loaded
      split at stored
      · rename_i own
        cases stored
        obtain ⟨bytes, there, decoded⟩ := of_loaded loaded
        refine .inl ⟨bytes, there, ?_⟩
        rw [decoded, ← own.1, ← own.2]
      · cases stored
  · rename_i absent
    have none : d.at? path = none := by simpa [Disk.isPresent] using absent
    refine .inr ⟨?_, (Except.ok.inj stored).symm⟩
    rw [Disk.file?, none]

/-- A map is opened with what is in its artifact, and with nothing if there is
none. -/
theorem tracks_of_load (persisted : s.artifactPath = some path)
    (lawful : Std.TransCmp keyType.compare) (opened : load s keyType valueType d = .ok m) :
    Tracks s path m (d.file? path) := by
  unfold load at opened
  cases stored : storedEntries s d with
  | error cause =>
    rw [stored] at opened
    cases opened
  | ok entries =>
    rw [stored] at opened
    obtain rfl := Except.ok.inj opened
    refine ⟨⟨rfl, rfl⟩, persisted, lawful, SortedTable.order_ofList _ _, fun _ => rfl, ?_,
      fun _ => ?_⟩
    · intro bytes artifact
      obtain ⟨bytes', there, decoded⟩ | ⟨none, -⟩ := of_storedEntries persisted stored
      · obtain rfl : bytes' = bytes := Option.some.inj (there.symm.trans artifact)
        exact ⟨entries, decoded⟩
      · rw [none] at artifact
        cases artifact
    · obtain ⟨bytes, there, decoded⟩ | ⟨none, rfl⟩ := of_storedEntries persisted stored
      · exact .inl ⟨bytes, entries, there, decoded, rfl⟩
      · exact .inr ⟨none, rfl⟩

namespace Tracks

variable {artifact : Option Bytes} {key : Bytes} {c : Change} {previous : Option Bytes}

/-- A write that leaves the map unmarked changed nothing. -/
theorem write (h : Tracks s path m artifact) (made : m.write key c = .ok (previous, m')) :
    Tracks s path m' artifact := by
  have lawful : Std.TransCmp m.table.order := h.ordered ▸ h.lawful
  have clean := of_write_clean lawful made
  obtain ⟨isOpen, rfl⟩ := of_write made
  refine ⟨h.named, h.located, h.lawful, ?_, ?_, h.whole, fun unmarked => ?_⟩
  · exact (PlainMap.order_change m.table key c).trans h.ordered
  · intro closed
    rw [isOpen] at closed
    cases closed
  · obtain ⟨before, entries⟩ := clean unmarked
    rw [entries]
    exact h.settled before

/-- A save that goes through leaves the entries in the artifact. -/
theorem written (h : Tracks s path m artifact) (fits : m.Fits) :
    Tracks s path { m with dirty := false } (some m.file.encode) := by
  have decoded := MapFile.decode_encode m.file fits
  have lawful : Std.TransCmp m.table.order := h.ordered ▸ h.lawful
  refine ⟨h.named, h.located, h.lawful, h.ordered, fun _ => rfl, ?_, fun _ => ?_⟩
  · intro bytes there
    obtain rfl := Option.some.inj there
    exact ⟨_, decoded⟩
  · refine .inl ⟨_, _, rfl, decoded, ?_⟩
    show (SortedTable.ofList m.keyType.compare m.table.toList).toList = m.table.toList
    rw [← h.ordered]
    exact (SortedTable.same_ofList_toList m.table).toList

/-- A map that is saved may be closed. -/
theorem shut (h : Tracks s path m artifact) (clean : m.dirty = false) :
    Tracks s path { m with closed := true } artifact :=
  ⟨h.named, h.located, h.lawful, h.ordered, fun _ => clean, h.whole, h.settled⟩

theorem isOpen (h : Tracks s path m artifact) (dirty : m.dirty = true) : m.closed = false := by
  cases closed : m.closed with
  | false => rfl
  | true => exact absurd (h.saved closed) (by simp [dirty])

/-- An event that saves finds nothing to do, or writes the entries, or fails
and leaves all as it was. -/
theorem saving (h : Tracks s path m (d.file? path)) (ends : EndsInName path) {e : Event}
    (saves : e.saves = true) :
    (m.dirty = false ∧ ∃ closed, e.perform m d = (.ok (), { m with closed }, d)) ∨
      m.dirty = true ∧
        ((∃ closed d', e.perform m d = (.ok (), { m with dirty := false, closed }, d') ∧
            d'.file? path = some m.file.encode) ∨
          ∃ cause d', e.perform m d = (.error cause, m, d') ∧ d'.file? path = d.file? path) := by
  cases e with
  | write key change => cases saves
  | elsewhere disk => cases saves
  | save refused =>
    obtain ⟨clean, run⟩ | ⟨dirty, ⟨d', run, there⟩ | ⟨cause, d', run, before⟩⟩ :=
      saveUnder_cases refused h.located ends d
    · exact .inl ⟨clean, m.closed, run⟩
    · exact .inr ⟨dirty, .inl ⟨m.closed, d', run, there⟩⟩
    · exact .inr ⟨dirty, .inr ⟨cause, d', run, before⟩⟩
  | close refused =>
    obtain ⟨clean, run⟩ | ⟨dirty, ⟨d', run, there⟩ | ⟨cause, d', run, before⟩⟩ :=
      saveUnder_cases refused h.located ends d
    · refine .inl ⟨clean, true, ?_⟩
      show m.closeUnder refused d = _
      unfold closeUnder
      split
      · rename_i closed
        rw [← closed]
      · rw [run]
    · refine .inr ⟨dirty, .inl ⟨true, d', ?_, there⟩⟩
      show m.closeUnder refused d = _
      rw [closeUnder, if_neg (by simp [h.isOpen dirty]), run]
    · refine .inr ⟨dirty, .inr ⟨cause, d', ?_, before⟩⟩
      show m.closeUnder refused d = _
      rw [closeUnder, if_neg (by simp [h.isOpen dirty]), run]

/-- Every event keeps map and artifact together. -/
theorem perform (h : Tracks s path m (d.file? path)) (ends : EndsInName path) (e : Event)
    (admitted : e.Admitted path m d) :
    Tracks s path (e.perform m d).2.1 ((e.perform m d).2.2.file? path) := by
  cases saves : e.saves with
  | true =>
    have fits : m.Fits := by
      cases e with
      | write key change => cases saves
      | elsewhere disk => cases saves
      | save refused => exact admitted
      | close refused => exact admitted
    obtain ⟨clean, closed, run⟩ | ⟨-, ⟨closed, d', run, there⟩ | ⟨cause, d', run, before⟩⟩ :=
      h.saving ends saves
    · rw [run]
      cases closed with
      | false => exact ⟨h.named, h.located, h.lawful, h.ordered, fun _ => clean, h.whole, h.settled⟩
      | true => exact h.shut clean
    · rw [run]
      show Tracks s path _ (d'.file? path)
      rw [there]
      have settled := h.written fits
      exact ⟨settled.named, settled.located, settled.lawful, settled.ordered, fun _ => rfl,
        settled.whole, settled.settled⟩
    · rw [run]
      show Tracks s path m (d'.file? path)
      rwa [before]
  | false =>
    cases e with
    | save refused => cases saves
    | close refused => cases saves
    | elsewhere disk =>
      show Tracks s path m (disk.file? path)
      rwa [show disk.file? path = d.file? path from admitted]
    | write key change =>
      cases made : m.write key change with
      | error cause =>
        simp only [Event.perform, made]
        exact h
      | ok result =>
        simp only [Event.perform, made]
        exact h.write made

/-- A map stays dirty until a save goes through. -/
theorem dirty_of_unsaved (h : Tracks s path m (d.file? path)) (ends : EndsInName path) {e : Event}
    (dirty : m.dirty = true) (unsaved : e.saves = true → (e.perform m d).1 ≠ .ok ()) :
    (e.perform m d).2.1.dirty = true := by
  cases saves : e.saves with
  | true =>
    obtain ⟨clean, -⟩ | ⟨-, ⟨closed, d', run, -⟩ | ⟨cause, d', run, -⟩⟩ := h.saving ends saves
    · rw [clean] at dirty
      cases dirty
    · exact absurd (by rw [run]) (unsaved saves)
    · rw [run]
      exact dirty
  | false =>
    cases e with
    | save refused => cases saves
    | close refused => cases saves
    | elsewhere disk => exact dirty
    | write key change =>
      cases made : m.write key change with
      | error cause =>
        simp only [Event.perform, made]
        exact dirty
      | ok result =>
        simp only [Event.perform, made]
        rw [(of_write made).2, dirty, Bool.true_or]

end Tracks

/-! ## Whole histories -/

namespace Run

variable {log : Log}

theorem keeps_tracks (run : Run path log m₀ d₀ m d) (ends : EndsInName path)
    (h : Tracks s path m₀ (d₀.file? path)) : Tracks s path m (d.file? path) := by
  induction run with
  | refl m d => exact h
  | step run e admitted ih => exact (ih h).perform ends e admitted

theorem keeps_dirty (run : Run path log m₀ d₀ m d) (ends : EndsInName path)
    (h : Tracks s path m₀ (d₀.file? path)) (unsaved : log.Unsaved) (dirty : m₀.dirty = true) :
    m.dirty = true := by
  induction run with
  | refl m d => exact dirty
  | step run e admitted ih =>
    have before := ih h (fun entry mem => unsaved entry (List.mem_append_left _ mem)) dirty
    refine (run.keeps_tracks ends h).dirty_of_unsaved ends before fun saves => ?_
    exact unsaved (e, _) (List.mem_append_right _ (List.mem_singleton_self _)) saves

end Run

/-- What a map and its artifact say of each other at one moment. -/
structure InStep (s : MapSettings) (path : String) (m : DirectMap) (d : Disk) : Prop where
  /-- At the path there is no file, or a whole one with this map's name and id. -/
  whole : d.file? path = none ∨
    ∃ file, MapFile.load path d = .ok file ∧ file.name = m.name ∧ file.id = m.id
  /-- Without changes to save the map is what its artifact holds. -/
  settled : m.dirty = false →
    (∃ loaded, load s m.keyType m.valueType d = .ok loaded ∧
      loaded.table.toList = m.table.toList) ∨
      d.file? path = none ∧ m.table.toList = []

theorem Tracks.inStep (h : Tracks s path m (d.file? path))
    (persisted : s.artifactPath = some path) :
    InStep s path m d := by
  constructor
  · cases there : d.file? path with
    | none => exact .inl rfl
    | some bytes =>
      obtain ⟨entries, decoded⟩ := h.whole bytes there
      have at? := Disk.file?_eq_some.1 there
      have loaded : MapFile.load path d = .ok ⟨m.name, m.id, entries⟩ := by
        simp [MapFile.load, Disk.read, at?, decoded, Except.mapError]
      exact .inr ⟨_, loaded, rfl, rfl⟩
  · intro clean
    obtain ⟨bytes, entries, there, decoded, list⟩ | absent := h.settled clean
    · rw [h.named.1, h.named.2] at decoded
      obtain ⟨loaded, run, table⟩ := load_of_file? persisted there decoded
      exact .inl ⟨loaded, run, by rw [table, list]⟩
    · exact .inr absent

/-- A save that went through: the artifact holds the entries that the map had
and has. -/
structure Captured (s : MapSettings) (path : String) (m m' : DirectMap) (d' : Disk) : Prop where
  artifact : d'.file? path = some m.file.encode
  entries : m'.table = m.table
  clean : m'.dirty = false
  reloads : ∃ loaded, load s m'.keyType m'.valueType d' = .ok loaded ∧
    loaded.table.toList = m.table.toList

/-- A save that failed: nothing is lost, and the next that goes through writes
what the map holds by then. -/
structure Postponed (s : MapSettings) (path : String) (m : DirectMap) (d : Disk) (m' : DirectMap)
    (d' : Disk) : Prop where
  artifact : d'.file? path = d.file? path
  entries : m'.table = m.table
  dirty : m'.dirty = true
  isOpen : m'.closed = false
  next : ∀ log m₁ d₁ (e : Event) m₂ d₂, Run path log m' d' m₁ d₁ → log.Unsaved →
    e.saves = true → m₁.Fits → e.perform m₁ d₁ = (.ok (), m₂, d₂) → Captured s path m₁ m₂ d₂

theorem endsInName_artifactPath (persisted : s.artifactPath = some path) : EndsInName path := by
  obtain ⟨dir, -, rfl⟩ := Option.map_eq_some_iff.1 persisted
  -- the id and the extension stand at the end, whatever the map is called
  have ends : ∃ front, Disk.join dir (Artifact.fileName s.name s.id) =
      front ++ Artifact.extension := by
    unfold Disk.join
    split
    · exact ⟨_, rfl⟩
    · split
      · exact ⟨dir ++ (s.name ++ String.ofList [Artifact.separator] ++ toString s.id.toNat), by
          simp [Artifact.fileName, String.append_assoc]⟩
      · exact ⟨dir ++ "/" ++ (s.name ++ String.ofList [Artifact.separator] ++
          toString s.id.toNat), by simp [Artifact.fileName, String.append_assoc]⟩
  obtain ⟨front, eq⟩ := ends
  rw [eq]
  exact Disk.endsInName_append (by decide) (by decide) front

theorem Tracks.captured (h : Tracks s path m (d.file? path))
    (persisted : s.artifactPath = some path) {e : Event} (saves : e.saves = true)
    (dirty : m.dirty = true) (fits : m.Fits)
    (went : e.perform m d = (.ok (), m', d')) : Captured s path m m' d' := by
  obtain ⟨clean, -⟩ | ⟨-, ⟨closed, disk, run, there⟩ | ⟨cause, disk, run, -⟩⟩ :=
    h.saving (endsInName_artifactPath persisted) saves
  · rw [clean] at dirty
    cases dirty
  · rw [run] at went
    obtain ⟨rfl, rfl⟩ : { m with dirty := false, closed } = m' ∧ disk = d' := by simpa using went
    have decoded : MapFile.decode m.file.encode = .ok ⟨s.name, s.id, m.table.toList⟩ := by
      rw [MapFile.decode_encode m.file fits, file, h.named.1, h.named.2]
    obtain ⟨loaded, reload, table⟩ := load_of_file? persisted there decoded
    have lawful : Std.TransCmp m.table.order := h.ordered ▸ h.lawful
    refine ⟨there, rfl, rfl, loaded, reload, ?_⟩
    rw [table, ← h.ordered]
    exact (SortedTable.same_ofList_toList m.table).toList
  · rw [run] at went
    cases went

/-- In every history of a map its mark and its artifact belong together: they
are in step, a save that fails postpones what it had to write, and one that
goes through captures it. -/
theorem Run.never_apart {log : Log} (persisted : s.artifactPath = some path)
    (lawful : Std.TransCmp keyType.compare) (opened : load s keyType valueType d₀ = .ok m₀)
    (run : Run path log m₀ d₀ m d) :
    InStep s path m d ∧
      ∀ (e : Event) answer m' d', e.saves = true → e.perform m d = (answer, m', d') →
        (answer = .ok () ∧ m'.dirty = false ∧ (m.dirty = true → m.Fits → Captured s path m m' d')) ∨
          answer ≠ .ok () ∧ Postponed s path m d m' d' := by
  have ends := endsInName_artifactPath persisted
  have tracks := run.keeps_tracks ends (tracks_of_load persisted lawful opened)
  refine ⟨tracks.inStep persisted, fun e answer m' d' saves performed => ?_⟩
  obtain ⟨clean, closed, went⟩ |
      ⟨dirty, ⟨closed, disk, went, there⟩ | ⟨cause, disk, failed, before⟩⟩ :=
    tracks.saving ends saves
  · rw [went] at performed
    obtain ⟨rfl, rfl, rfl⟩ : .ok () = answer ∧ { m with closed } = m' ∧ d = d' := by
      simpa using performed
    exact .inl ⟨rfl, clean, fun dirty => absurd dirty (by simp [clean])⟩
  · have captured := fun fits => tracks.captured persisted saves dirty fits went
    rw [went] at performed
    obtain ⟨rfl, rfl, rfl⟩ : .ok () = answer ∧ { m with dirty := false, closed } = m' ∧
        disk = d' := by simpa using performed
    exact .inl ⟨rfl, rfl, fun _ => captured⟩
  · rw [failed] at performed
    obtain ⟨rfl, rfl, rfl⟩ : .error cause = answer ∧ m = m' ∧ disk = d' := by
      simpa using performed
    have tracks' : Tracks s path m (disk.file? path) := before ▸ tracks
    refine .inr ⟨by simp, before, rfl, dirty, tracks.isOpen dirty, ?_⟩
    intro log m₁ d₁ e₁ m₂ d₂ later unsaved saves₁ fits went
    exact (later.keeps_tracks ends tracks').captured persisted saves₁
      (later.keeps_dirty ends tracks' unsaved dirty) fits went

/-- A map called `orders`, kept in the root directory. -/
def orders : MapSettings :=
  { name := "orders", id := 1, storageDir := some "", options := .empty compare }

/-- The map as it is opened where no artifact is. -/
def ordersNew : DirectMap :=
  { PlainMap.empty "orders" 1 .bytes .bytes with
    table := .ofList DataType.bytes.compare [], path := some "orders-1.db", dirty := false }

/-- An order is put, and the save of it is refused when the file is renamed. -/
def ordersRefused : DirectMap × Disk :=
  let put := (Event.write [1] (.value [2])).perform ordersNew .empty
  ((Event.save (some .rename)).perform put.2.1 put.2.2).2

/-- The refused save of the order is made up for by the next. -/
theorem Run.orders_never_apart :
    orders.artifactPath = some "orders-1.db" ∧
      load orders .bytes .bytes .empty = .ok ordersNew ∧
      (∃ log, Run "orders-1.db" log ordersNew .empty ordersRefused.1 ordersRefused.2) ∧
      InStep orders "orders-1.db" ordersRefused.1 ordersRefused.2 ∧
      ordersRefused.1.dirty = true ∧
      Captured orders "orders-1.db" ordersRefused.1
        (ordersRefused.1.save ordersRefused.2).2.1 (ordersRefused.1.save ordersRefused.2).2.2 := by
  have persisted : orders.artifactPath = some "orders-1.db" := by decide +kernel
  have opened : load orders .bytes .bytes .empty = .ok ordersNew := by
    rw [load, storedEntries_absent persisted (by decide +kernel), persisted]
    rfl
  have fits : ∀ dirty, DirectMap.Fits
      { ordersNew with table := (ordersNew.table.insert [1] [2]).2, dirty } := by
    intro dirty
    show (MapFile.encodePayload "orders" [([1], [2])]).length < Bytes.capacity 8
    decide +kernel
  have run : Run "orders-1.db" _ ordersNew .empty ordersRefused.1 ordersRefused.2 :=
    ((Run.refl ordersNew .empty).step (.write [1] (.value [2])) trivial).step
      (.save (some .rename)) (fits true)
  have lawful : Std.TransCmp DataType.bytes.compare := inferInstanceAs (Std.TransCmp Bytes.compare)
  obtain ⟨inStep, saving⟩ := Run.never_apart persisted lawful opened run
  refine ⟨persisted, opened, ⟨_, run⟩, inStep, by decide +kernel, ?_⟩
  obtain ⟨-, -, captured⟩ | ⟨failed, -⟩ := saving (.save none) _ _ _ rfl rfl
  · exact captured (by decide +kernel) (fits true)
  · exact absurd (by decide +kernel) failed

end DirectMap

end MapStore
