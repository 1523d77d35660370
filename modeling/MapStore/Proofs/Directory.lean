/-
MapStore.Proofs.Directory — the files of one directory.

A store keeps its maps as files in one directory. `Houses` says that a path
leads to a directory and where that is; a name in it is then one more step
(`locate?_join`), as long as the name and the path are short enough to be
walked. Files come and go without moving any directory (`SameDirectories`), so
every path leads where it led before, and what a file system call does to the
directory is what it does at that one place: `write`, `rename` and the saving
of a map file are followed there.

Making the directory of a path that leads to one changes nothing; one that is
missing is made, with the directories on the way to it, where there was nothing
(`makeDirectories_makes`).
-/
import MapStore.Proofs.Table
import MapStore.MapFile.Stored
import Mathlib.Data.String.Basic

namespace MapStore

namespace Text

/-- What stands before the first separator goes to the first part. -/
theorem split_append_cons (c : Char) (before after : List Char) :
    split c (before ++ c :: after) = split c before ++ split c after := by
  induction before with
  | nil => simp [split]
  | cons x rest ih =>
    simp only [List.cons_append, split, ih]
    split
    · rfl
    · cases parts : split c rest with
      | nil =>
        cases rest with
        | nil => simp [split] at parts
        | cons y ys =>
          simp only [split] at parts
          split at parts
          · cases parts
          · split at parts <;> cases parts
      | cons part others => rfl

/-- Without a separator there is one part. -/
theorem split_of_not_mem {c : Char} {text : List Char} (h : c ∉ text) :
    split c text = [text] := by
  induction text with
  | nil => rfl
  | cons x rest ih =>
    rw [List.mem_cons, not_or] at h
    rw [split, if_neg (Ne.symm h.1), ih h.2]

end Text

namespace Disk

variable {d d' : Disk} {dir path name : String} {here place other : Place} {node : Node}

/-! ## What is where -/

theorem get?_put (d : Disk) (place other : Place) (node : Node) :
    (d.put place node).nodes.get? other =
      if other = place then some node else d.nodes.get? other := by
  have lawful : Std.TransCmp d.nodes.order := by
    rw [d.ordered]
    infer_instance
  show (d.nodes.insert place node).2.get? other = _
  rw [SortedTable.get?_insert, d.ordered]
  by_cases same : other = place
  · simp [same]
  · have ne : compare place other ≠ .eq := fun eq =>
      same (Std.LawfulEqCmp.eq_of_compare eq).symm
    rw [if_neg ne, if_neg same]

theorem get?_drop (d : Disk) (place other : Place) :
    (d.drop place).nodes.get? other = if other = place then none else d.nodes.get? other := by
  have lawful : Std.TransCmp d.nodes.order := by
    rw [d.ordered]
    infer_instance
  show (d.nodes.erase place).2.get? other = _
  rw [SortedTable.get?_erase, d.ordered]
  by_cases same : other = place
  · simp [same]
  · have ne : compare place other ≠ .eq := fun eq =>
      same (Std.LawfulEqCmp.eq_of_compare eq).symm
    rw [if_neg ne, if_neg same]

theorem node?_put (d : Disk) (node : Node) (h : place ≠ []) (other : Place) :
    (d.put place node).node? other = if other = place then some node else d.node? other := by
  unfold node?
  rw [get?_put]
  by_cases root : other = []
  · simp [root, Ne.symm h]
  · simp [root]

theorem node?_drop (d : Disk) (h : place ≠ []) (other : Place) :
    (d.drop place).node? other = if other = place then none else d.node? other := by
  unfold node?
  rw [get?_drop]
  by_cases root : other = []
  · simp [root, Ne.symm h]
  · simp [root]

/-- What is no directory is not the root. -/
theorem ne_root (free : d.node? place ≠ some .directory) : place ≠ [] := by
  rintro rfl
  exact free rfl

/-! ## Directories that stay -/

/-- The two disks have the same directories. -/
def SameDirectories (d d' : Disk) : Prop :=
  ∀ place, d'.node? place = some .directory ↔ d.node? place = some .directory

namespace SameDirectories

theorem refl (d : Disk) : SameDirectories d d := fun _ => Iff.rfl

theorem trans {d'' : Disk} (h : SameDirectories d d') (h' : SameDirectories d' d'') :
    SameDirectories d d'' := fun place => (h' place).trans (h place)

/-- Steps lead where they led before. -/
theorem step? (h : SameDirectories d d') : d'.step? = d.step? := by
  funext here step
  simp only [Disk.step?, h here]

theorem locate? (h : SameDirectories d d') (path : String) : d'.locate? path = d.locate? path := by
  simp only [Disk.locate?, h.step?]

/-- A file in the place of none or of another. -/
theorem put_file (bytes : Bytes) (free : d.node? place ≠ some .directory) :
    SameDirectories d (d.put place (.file bytes)) := by
  intro other
  rw [node?_put d _ (ne_root free)]
  split
  · rename_i same
    subst same
    simp [free]
  · rfl

end SameDirectories

/-! ## A directory and the names in it -/

/-- A name that is a step downwards. -/
def IsPlain (name : String) : Prop :=
  name ≠ "" ∧ name ≠ "." ∧ name ≠ ".." ∧ '/' ∉ name.toList

theorem next?_plain (h : IsPlain name) (here : Place) :
    next? here name = if name.utf8ByteSize ≤ maxName then some (here ++ [name]) else none := by
  obtain ⟨proper, notDot, notDots, -⟩ := h
  simp [next?, proper, notDot, notDots]

/-- The path leads to a directory, which is at `here`. -/
structure Houses (d : Disk) (path : String) (here : Place) : Prop where
  located : d.locate? path = some here
  directory : d.node? here = some .directory

namespace Houses

theorem congr (h : d.Houses path here) (same : SameDirectories d d') : d'.Houses path here :=
  ⟨(same.locate? path).trans h.located, (same here).2 h.directory⟩

theorem isPath (h : d.Houses path here) : isPath path = true := by
  have located := h.located
  unfold locate? at located
  split at located
  · assumption
  · cases located

theorem steps (h : d.Houses path here) : (steps path).foldlM d.step? [] = some here := by
  have located := h.located
  rwa [locate?, if_pos h.isPath] at located

end Houses

theorem steps_join (plain : '/' ∉ name.toList) (proper : dir ≠ "") :
    steps (join dir name) = steps dir ++ [name] ∨
      ∃ before, steps dir = before ++ [""] ∧ steps (join dir name) = before ++ [name] := by
  have single : Text.split '/' name.toList = [name.toList] := Text.split_of_not_mem plain
  have head : name.toList.head? ≠ some '/' := fun eq => plain (List.mem_of_mem_head? eq)
  unfold join
  rw [if_neg (by simp [head, proper])]
  split
  · rename_i ends
    obtain ⟨before, eq⟩ : ∃ before, dir.toList = before ++ ['/'] :=
      List.getLast?_eq_some_iff.1 ends
    refine .inr ⟨(Text.split '/' before).map String.ofList, ?_, ?_⟩
    · simp [steps, eq, Text.split_append_cons, Text.split]
    · simp [steps, eq, Text.split_append_cons, single]
  · refine .inl ?_
    have slash : "/".toList = ['/'] := by decide
    simp [steps, String.toList_append, slash, Text.split_append_cons, single]

/-- A step is taken in a directory. -/
theorem step?_eq_some {step : String} :
    d.step? here step = some place ↔
      d.node? here = some .directory ∧ next? here step = some place := by
  simp [step?]

/-- A name in a directory is one step from it. -/
theorem locate?_join (h : d.Houses dir here) (plain : IsPlain name) :
    d.locate? (join dir name) =
      if isPath (join dir name) ∧ name.utf8ByteSize ≤ maxName then some (here ++ [name])
      else none := by
  have proper : dir ≠ "" := by
    rintro rfl
    have := h.isPath
    simp [isPath] at this
  have last : d.step? here name =
      if name.utf8ByteSize ≤ maxName then some (here ++ [name]) else none := by
    rw [step?, if_pos h.directory, next?_plain plain]
  have walk : (steps (join dir name)).foldlM d.step? [] = d.step? here name := by
    have steps := h.steps
    obtain eq | ⟨before, ends, eq⟩ := steps_join plain.2.2.2 proper
    · rw [eq, List.foldlM_append, steps]
      simp
    · rw [ends, List.foldlM_append] at steps
      rw [eq, List.foldlM_append]
      cases start : before.foldlM d.step? [] with
      | none => simp [start] at steps
      | some here' =>
        rw [start] at steps
        obtain ⟨-, stays⟩ := step?_eq_some.1
          (show d.step? here' "" = some here by simpa using steps)
        obtain rfl : here' = here := by simpa [next?] using stays
        simp
  unfold locate?
  rw [walk, last]
  by_cases walked : isPath (join dir name) = true
  · simp [walked]
  · simp [walked]

/-- Half-written files stand beside the files that they become. -/
theorem temporaryPath_join (proper : name ≠ "") :
    MapFile.temporaryPath (join dir name) = join dir (MapFile.temporaryPath name) := by
  have head : (MapFile.temporaryPath name).toList.head? = name.toList.head? := by
    unfold MapFile.temporaryPath
    rw [String.toList_append]
    cases chars : name.toList with
    | nil => exact absurd (String.toList_eq_nil_iff.1 chars) proper
    | cons c rest => rfl
  unfold join
  rw [head]
  split
  · rfl
  · split <;> simp [MapFile.temporaryPath, String.append_assoc]

/-! ## Saving a file -/

theorem isPlain_temporary (h : IsPlain name) : IsPlain (MapFile.temporaryPath name) := by
  obtain ⟨proper, -, -, inside⟩ := h
  have chars : (MapFile.temporaryPath name).toList = name.toList ++ ['.', 't', 'm', 'p'] := by
    unfold MapFile.temporaryPath
    rw [String.toList_append]
    rfl
  have other : ∀ short : String, short.toList.length < 4 → MapFile.temporaryPath name ≠ short := by
    rintro short few rfl
    rw [chars, List.length_append, List.length_cons] at few
    simp only [List.length_cons, List.length_nil] at few
    omega
  refine ⟨other "" (by decide), other "." (by decide), other ".." (by decide), ?_⟩
  rw [chars, List.mem_append]
  rintro (mem | mem)
  · exact inside mem
  · revert mem
    decide

/-- The saving of one file left every directory, and every file but this one
and the one under its temporary name. -/
structure Saves (d d' : Disk) (here : Place) (name : String) : Prop where
  directories : SameDirectories d d'
  elsewhere : ∀ place, place ≠ here ++ [name] → place ≠ here ++ [MapFile.temporaryPath name] →
    d'.node? place = d.node? place

theorem append_singleton_inj {name other : String} :
    here ++ [other] = here ++ [name] ↔ other = name := by
  simp

/-- The other files of the directory are left. -/
theorem Saves.others (h : d.Saves d' here name) (other : String) (ne : other ≠ name)
    (notTemporary : other ≠ MapFile.temporaryPath name) :
    d'.node? (here ++ [other]) = d.node? (here ++ [other]) :=
  h.elsewhere _ (fun eq => ne (append_singleton_inj.1 eq)) fun eq =>
    notTemporary (append_singleton_inj.1 eq)

/-- A write that is not refused puts the file where the path leads. -/
theorem write_eq_ok {bytes : Bytes} (h : d.write path bytes = .ok d') :
    ∃ place, d.locate? path = some place ∧ d.node? place ≠ some .directory ∧
      d' = d.put place (.file bytes) := by
  unfold write at h
  split at h
  · rename_i place located
    split at h
    · cases h
    · rename_i notDirectory
      exact ⟨place, located, notDirectory, (Except.ok.inj h).symm⟩
  · cases h

/-- A file that is renamed goes from one place to another. -/
theorem rename_eq_ok {source target : String} (h : d.rename source target = .ok d') :
    ∃ old new bytes, d.locate? source = some old ∧ d.locate? target = some new ∧
      d.node? old = some (.file bytes) ∧ d.node? new ≠ some .directory ∧
      d' = (d.drop old).put new (.file bytes) := by
  unfold rename at h
  split at h
  · rename_i old new source target
    split at h
    · rename_i bytes there free
      exact ⟨old, new, bytes, source, target, there, by simp [free], (Except.ok.inj h).symm⟩
    · rename_i bytes other there taken
      exact ⟨old, new, bytes, source, target, there, by simp [taken], (Except.ok.inj h).symm⟩
    · cases h
  · cases h

/-- Where no directory is in the way a file is written, -/
theorem write_of_free (located : d.locate? path = some place)
    (free : d.node? place ≠ some .directory) (bytes : Bytes) :
    d.write path bytes = .ok (d.put place (.file bytes)) := by
  simp [write, located, free]

/-- and a file is moved. -/
theorem rename_of_free {source target : String} {old new : Place} {bytes : Bytes}
    (located : d.locate? source = some old) (located' : d.locate? target = some new)
    (there : d.node? old = some (.file bytes)) (free : d.node? new ≠ some .directory) :
    d.rename source target = .ok ((d.drop old).put new (.file bytes)) := by
  unfold rename
  rw [located, located']
  simp only [there]
  cases taken : d.node? new with
  | none => rfl
  | some node =>
    cases node with
    | file bytes => rfl
    | directory => exact absurd taken free

/-- The disk after a file was written at one place and moved to another. -/
def saved (d : Disk) (half place : Place) (bytes : Bytes) : Disk :=
  ((d.put half (.file bytes)).drop half).put place (.file bytes)

section

variable {half : Place} (free : d.node? half ≠ some .directory)
  (free' : d.node? place ≠ some .directory) (bytes : Bytes)

include free free'

theorem node?_saved (other : Place) :
    (d.saved half place bytes).node? other =
      if other = place then some (.file bytes) else if other = half then none
      else d.node? other := by
  rw [saved, node?_put _ _ (ne_root free'), node?_drop _ (ne_root free),
    node?_put d _ (ne_root free)]
  split
  · rfl
  · split <;> rfl

theorem SameDirectories.saved : SameDirectories d (d.saved half place bytes) := by
  intro other
  rw [node?_saved free free']
  split
  · rename_i same
    subst same
    simp [free']
  · split
    · rename_i same
      subst same
      simp [free]
    · rfl

/-- What was moved is where the path leads. -/
theorem at?_saved (target : d.locate? path = some place) :
    (d.saved half place bytes).at? path = some (.file bytes) := by
  rw [at?, (SameDirectories.saved free free' bytes).locate?, target, Option.bind_some,
    node?_saved free free', if_pos rfl]

end

/-- A save writes the file under its temporary name and moves it, or stops on
the way. -/
theorem save_ends (file : MapFile) (path : String) (d : Disk) :
    (∃ cause, file.save path d = (.error cause, d)) ∨
      ∃ half, d.locate? (MapFile.temporaryPath path) = some half ∧
        d.node? half ≠ some .directory ∧
        ((∃ cause, file.save path d = (.error cause, d.put half (.file file.encode))) ∨
          ∃ place, d.locate? path = some place ∧ d.node? place ≠ some .directory ∧
            file.save path d = (.ok (), d.saved half place file.encode)) := by
  unfold MapFile.save
  cases wrote : d.write (MapFile.temporaryPath path) file.encode with
  | error cause => exact .inl ⟨cause, rfl⟩
  | ok written =>
    obtain ⟨half, located, free, rfl⟩ := write_eq_ok wrote
    refine .inr ⟨half, located, free, ?_⟩
    have same := SameDirectories.put_file file.encode free
    simp only
    cases renamed : (d.put half (.file file.encode)).rename (MapFile.temporaryPath path) path with
    | error cause => exact .inl ⟨cause, rfl⟩
    | ok moved =>
      obtain ⟨old, place, bytes, source, target, there, free', rfl⟩ := rename_eq_ok renamed
      rw [same.locate?] at source target
      -- what is moved is what was written
      obtain rfl : half = old := Option.some.inj (located.symm.trans source)
      rw [node?_put d _ (ne_root free), if_pos rfl] at there
      cases there
      exact .inr ⟨place, target, fun eq => free' ((same place).2 eq), rfl⟩

/-- A name in a directory that can be walked to is at its place there. -/
theorem place_of_locate (h : d.Houses dir here) (plain : IsPlain name)
    (located : d.locate? (join dir name) = some place) : place = here ++ [name] := by
  rw [locate?_join h plain] at located
  split at located
  · exact (Option.some.inj located).symm
  · cases located

/-- A save at the path may touch the place: it is where the file is, or where
it is while it is half written. -/
def SavesAt (d : Disk) (path : String) (place : Place) : Prop :=
  d.locate? path = some place ∨ d.locate? (MapFile.temporaryPath path) = some place

/-- Saving a map file leaves every directory and every place but its own two;
where the file is there is one afterwards. -/
theorem save_changes (file : MapFile) (path : String) (d : Disk) :
    SameDirectories d (file.save path d).2 ∧
      ∀ place, (file.save path d).2.node? place ≠ d.node? place →
        d.locate? path = some place ∧ ((file.save path d).2.node? place).isSome ∨
          d.locate? (MapFile.temporaryPath path) = some place := by
  obtain ⟨cause, run⟩ | ⟨half, source, free, ⟨cause, run⟩ | ⟨own, target, free', run⟩⟩ :=
    save_ends file path d
  · rw [run]
    exact ⟨.refl d, fun place changed => absurd rfl changed⟩
  · rw [run]
    refine ⟨.put_file _ free, fun place changed => ?_⟩
    rw [node?_put d _ (ne_root free)] at changed
    split at changed
    · rename_i same
      exact .inr (same ▸ source)
    · exact absurd rfl changed
  · rw [run]
    refine ⟨.saved free free' _, fun place changed => ?_⟩
    rw [node?_saved free free'] at changed ⊢
    split at changed
    · rename_i same
      exact .inl ⟨same ▸ target, by simp [same]⟩
    · split at changed
      · rename_i same
        exact .inr (same ▸ source)
      · exact absurd rfl changed

/-- A map file that was saved is found at its path. -/
theorem read_of_save {file : MapFile} (saved : file.save path d = (.ok (), d')) :
    d'.read path = .ok file.encode := by
  obtain ⟨cause, run⟩ | ⟨half, source, free, ⟨cause, run⟩ | ⟨own, target, free', run⟩⟩ :=
    save_ends file path d
  · rw [run] at saved
    cases saved
  · rw [run] at saved
    cases saved
  · rw [run] at saved
    cases saved
    rw [read, at?_saved free free' _ target]

/-- The file system accepts the name in the directory. -/
def Accepts (dir name : String) : Prop :=
  isPath (join dir name) = true ∧ name.utf8ByteSize ≤ maxName

instance (dir name : String) : Decidable (Accepts dir name) :=
  inferInstanceAs (Decidable (_ ∧ _))

theorem utf8Len_le (chars : List Char) : String.utf8Len chars ≤ 4 * chars.length := by
  induction chars with
  | nil => exact Nat.zero_le _
  | cons c rest ih =>
    rw [String.utf8Len_cons, List.length_cons]
    have first := c.utf8Size_le_four
    omega

theorem utf8ByteSize_le (text : String) : text.utf8ByteSize ≤ 4 * text.length := by
  have le := utf8Len_le text.toList
  rwa [← String.utf8ByteSize_ofList, String.ofList_toList, String.length_toList] at le

/-- A name is accepted if it and its path are short enough. -/
theorem accepts_of_short (path : isPath dir = true) (plain : IsPlain name)
    (noNul : Char.ofNat 0 ∉ name.toList) (short : 4 * name.length ≤ maxName)
    (room : dir.utf8ByteSize + 1 + 4 * name.length ≤ maxPath) : Accepts dir name := by
  have bytes := utf8ByteSize_le name
  have first : name.toList.head? ≠ some '/' := fun eq =>
    plain.2.2.2 (List.mem_of_mem_head? (by rw [eq]; rfl))
  simp only [isPath, Bool.and_eq_true, bne_iff_ne, ne_eq, decide_eq_true_eq, Bool.not_eq_true',
    List.contains_eq_mem, decide_eq_false_iff_not] at path
  obtain ⟨⟨proper, -⟩, noNul'⟩ := path
  refine ⟨?_, bytes.trans short⟩
  rw [join, if_neg (by simp [first, proper])]
  split
  · have size : dir.utf8ByteSize + name.utf8ByteSize ≤ maxPath := by omega
    simp [isPath, proper, noNul, noNul', size]
  · have slash : "/".utf8ByteSize = 1 := rfl
    have size : dir.utf8ByteSize + "/".utf8ByteSize + name.utf8ByteSize ≤ maxPath := by omega
    have other : Char.ofNat 0 ≠ '/' := by decide
    simp [isPath, proper, noNul, noNul', size, other]

theorem locate?_accepted (h : d.Houses dir here) (plain : IsPlain name)
    (accepts : Accepts dir name) : d.locate? (join dir name) = some (here ++ [name]) :=
  (locate?_join h plain).trans (if_pos accepts)

/-- A save under names that the file system accepts, where no directory is in
the way, puts the file in its place and leaves the rest of the directory. -/
theorem save_accepted (h : d.Houses dir here) (plain : IsPlain name) (accepts : Accepts dir name)
    (accepts' : Accepts dir (MapFile.temporaryPath name))
    (free : d.node? (here ++ [name]) ≠ some .directory)
    (free' : d.node? (here ++ [MapFile.temporaryPath name]) ≠ some .directory) (file : MapFile) :
    ∃ d', file.save (join dir name) d = (.ok (), d') ∧ d'.Houses dir here ∧
      ∀ other, d'.node? (here ++ [other]) =
        if other = name then some (.file file.encode)
        else if other = MapFile.temporaryPath name then none
        else d.node? (here ++ [other]) := by
  have source := temporaryPath_join plain.1 ▸
    locate?_accepted h (isPlain_temporary plain) accepts'
  have target := locate?_accepted h plain accepts
  have same := SameDirectories.put_file file.encode free'
  have wrote := write_of_free source free' file.encode
  have renamed := rename_of_free ((same.locate? _).trans source) ((same.locate? _).trans target)
    ((node?_put d _ (ne_root free') _).trans (if_pos rfl)) fun eq => free ((same _).1 eq)
  have run : file.save (join dir name) d = (.ok (), d.saved
      (here ++ [MapFile.temporaryPath name]) (here ++ [name]) file.encode) := by
    simp only [MapFile.save, wrote, renamed]
    rfl
  refine ⟨_, run, h.congr (.saved free' free _), fun other => ?_⟩
  rw [node?_saved free' free]
  simp only [append_singleton_inj]

/-- A file half written is beside the file. -/
theorem place_of_temporary (h : d.Houses dir here) (plain : IsPlain name)
    (located : d.locate? (MapFile.temporaryPath (join dir name)) = some place) :
    place = here ++ [MapFile.temporaryPath name] := by
  rw [temporaryPath_join plain.1] at located
  exact place_of_locate h (isPlain_temporary plain) located

/-- In a directory the two places are those of the name and of its temporary
name. -/
theorem SavesAt.inside (h : d.SavesAt (join dir name) place) (houses : d.Houses dir here)
    (plain : IsPlain name) :
    place = here ++ [name] ∨ place = here ++ [MapFile.temporaryPath name] := by
  rcases h with located | located
  · exact .inl (place_of_locate houses plain located)
  · exact .inr (place_of_temporary houses plain located)

/-- A map file is saved, or the file under its name is as it was. -/
theorem save_cases (h : d.Houses dir here) (plain : IsPlain name) (file : MapFile) :
    ∃ d', d.Saves d' here name ∧
      ((file.save (join dir name) d = (.ok (), d') ∧
          d.locate? (join dir name) = some (here ++ [name]) ∧
          d'.node? (here ++ [name]) = some (.file file.encode)) ∨
        ∃ cause, file.save (join dir name) d = (.error cause, d') ∧
          d'.node? (here ++ [name]) = d.node? (here ++ [name])) := by
  obtain ⟨same, changes⟩ := save_changes file (join dir name) d
  have saves : d.Saves (file.save (join dir name) d).2 here name := by
    refine ⟨same, fun place ne notTemporary => ?_⟩
    by_contra changed
    have touched : d.SavesAt (join dir name) place := (changes place changed).imp_left And.left
    rcases touched.inside h plain with own | own
    · exact ne own
    · exact notTemporary own
  have differs : name ≠ MapFile.temporaryPath name := by
    intro eq
    have lengths := congrArg String.length eq
    simp [MapFile.temporaryPath, Artifact.temporary] at lengths
  refine ⟨_, saves, ?_⟩
  obtain ⟨cause, run⟩ | ⟨half, source, free, ⟨cause, run⟩ | ⟨own, target, free', run⟩⟩ :=
    save_ends file (join dir name) d
  · rw [run]
    exact .inr ⟨cause, rfl, rfl⟩
  · rw [run]
    obtain rfl := place_of_temporary h plain source
    refine .inr ⟨cause, rfl, ?_⟩
    rw [node?_put d _ (ne_root free), if_neg fun eq => differs (append_singleton_inj.1 eq)]
  · rw [run]
    obtain rfl := place_of_locate h plain target
    exact .inl ⟨rfl, target, by rw [node?_saved free free', if_pos rfl]⟩

/-- Map files were saved at some of the paths, one after another, whatever came
of it. -/
inductive Filed (paths : String → Prop) (d : Disk) : Disk → Prop
  | refl : Filed paths d d
  | saved {d' : Disk} (before : Filed paths d d') {path : String} (among : paths path)
      (file : MapFile) : Filed paths d (file.save path d').2

namespace Filed

variable {paths paths' : String → Prop}

theorem trans {d'' : Disk} (h : d.Filed paths d') (h' : d'.Filed paths d'') :
    d.Filed paths d'' := by
  induction h' with
  | refl => exact h
  | saved _ among file ih => exact .saved ih among file

theorem mono (h : d.Filed paths d') (more : ∀ path, paths path → paths' path) :
    d.Filed paths' d' := by
  induction h with
  | refl => exact .refl
  | saved _ among file ih => exact .saved ih (more _ among) file

/-- Without a path to save at there is nothing to save. -/
theorem eq (h : d.Filed paths d') (nowhere : ∀ path, ¬ paths path) : d' = d := by
  cases h with
  | refl => rfl
  | saved _ among _ => exact absurd among (nowhere _)

/-- Saved files leave every directory, and every place but those of the files
and of their temporary names. -/
theorem changes (h : d.Filed paths d') :
    SameDirectories d d' ∧ ∀ place, d'.node? place ≠ d.node? place →
      ∃ path, paths path ∧ d.SavesAt path place := by
  induction h with
  | refl => exact ⟨.refl d, fun place changed => absurd rfl changed⟩
  | @saved d₁ before path among file ih =>
    obtain ⟨same, earlier⟩ := ih
    obtain ⟨same', own⟩ := save_changes file path d₁
    refine ⟨same.trans same', fun place changed => ?_⟩
    by_cases now : (file.save path d₁).2.node? place = d₁.node? place
    · exact earlier place (now ▸ changed)
    · refine ⟨path, among, ?_⟩
      have touched : d₁.SavesAt path place := (own place now).imp_left And.left
      rwa [SavesAt, same.locate?, same.locate?] at touched

/-- What is there stays, unless it is where a file is while it is half
written. -/
theorem keeps (h : d.Filed paths d') (there : (d.node? place).isSome)
    (apart : ∀ path, paths path → d.locate? (MapFile.temporaryPath path) ≠ some place) :
    (d'.node? place).isSome := by
  induction h with
  | refl => exact there
  | @saved d₁ before path among file ih =>
    obtain ⟨same', own⟩ := save_changes file path d₁
    by_cases now : (file.save path d₁).2.node? place = d₁.node? place
    · rw [now]
      exact ih
    · rcases own place now with ⟨-, present⟩ | temporary
      · exact present
      · rw [before.changes.1.locate?] at temporary
        exact absurd temporary (apart path among)

end Filed

/-! ## Listing -/

theorem nameIn?_eq_some : nameIn? here place = some name ↔ place = here ++ [name] := by
  unfold nameIn?
  constructor
  · intro eq
    split at eq
    · rename_i inside
      obtain ⟨before, rfl⟩ := List.getLast?_eq_some_iff.1 eq
      rw [← inside, List.dropLast_concat]
    · cases eq
  · rintro rfl
    simp

/-- A directory lists the names of what is in it. -/
theorem list_of_houses (h : d.Houses path here) :
    ∃ files, d.list path = .ok files ∧ ∀ x, x ∈ files ↔ (d.node? (here ++ [x])).isSome := by
  refine ⟨d.nodes.keys.filterMap (nameIn? here), ?_, fun x => ?_⟩
  · rw [list, h.located]
    simp [h.directory]
  have lawful : Std.TransCmp d.nodes.order := by
    rw [d.ordered]
    infer_instance
  have inside : (d.node? (here ++ [x])) = d.nodes.get? (here ++ [x]) := by
    simp [node?]
  rw [inside, List.mem_filterMap]
  simp only [nameIn?_eq_some, exists_eq_right, SortedTable.keys, List.mem_map]
  constructor
  · rintro ⟨⟨place, node⟩, mem, rfl⟩
    rw [(SortedTable.mem_toList d.nodes).1 mem |>.2]
    rfl
  · intro there
    obtain ⟨kept, found⟩ := Option.isSome_iff_exists.1
      ((SortedTable.isSome_key? d.nodes (here ++ [x])).trans there)
    obtain ⟨node, value⟩ := Option.isSome_iff_exists.1 there
    have same := SortedTable.order_of_key? d.nodes found
    rw [d.ordered] at same
    obtain rfl := Std.LawfulEqCmp.eq_of_compare same
    exact ⟨_, (SortedTable.mem_toList d.nodes).2 ⟨found, value⟩, rfl⟩

/-- Only a directory is listed. -/
theorem houses_of_list {files : List String} (h : d.list path = .ok files) :
    ∃ here, d.Houses path here := by
  unfold list at h
  split at h
  · rename_i here located
    split at h
    · rename_i directory
      exact ⟨here, located, directory⟩
    · cases h
  · cases h

/-! ## Making directories that are there -/

/-- A walk that ends in a directory starts in one. -/
theorem directory_of_walk {l : List String} (walk : l.foldlM d.step? here = some place)
    (ends : d.node? place = some .directory) : d.node? here = some .directory := by
  cases l with
  | nil => exact (Option.some.inj walk) ▸ ends
  | cons step rest =>
    rw [List.foldlM_cons] at walk
    cases first : d.step? here step with
    | none => simp [first] at walk
    | some next => exact (step?_eq_some.1 first).1

/-- Steps that stay may be left out. -/
theorem walk_filter {l : List String} (keeps : String → Bool)
    (stays : ∀ step, keeps step = false → step = "" ∨ step = ".")
    (walk : l.foldlM d.step? here = some place) :
    (l.filter keeps).foldlM d.step? here = some place := by
  induction l generalizing here with
  | nil => exact walk
  | cons step rest ih =>
    rw [List.foldlM_cons] at walk
    cases first : d.step? here step with
    | none => simp [first] at walk
    | some next =>
      rw [first] at walk
      have later := ih walk
      cases kept : keeps step with
      | true =>
        rw [List.filter_cons_of_pos kept, List.foldlM_cons, first]
        exact later
      | false =>
        rw [List.filter_cons_of_neg (by simp [kept])]
        obtain rfl : here = next := by
          simpa [next?, stays step kept] using (step?_eq_some.1 first).2
        exact later

/-- Where every step leads to a directory there is none to make. -/
theorem makeSteps_of_walk {l : List String} (walk : l.foldlM d.step? here = some place)
    (ends : d.node? place = some .directory) : makeSteps here l d = (.ok (), d) := by
  induction l generalizing here with
  | nil => rfl
  | cons step rest ih =>
    rw [List.foldlM_cons] at walk
    cases first : d.step? here step with
    | none => simp [first] at walk
    | some next =>
      rw [first] at walk
      have there := directory_of_walk walk ends
      rw [makeSteps, (step?_eq_some.1 first).2]
      simp only [there]
      exact ih walk

/-- Making a directory that is there changes nothing. -/
theorem makeDirectories_of_houses (h : d.Houses path here) :
    d.makeDirectories path = (.ok (), d) := by
  have walk : (properSteps path).foldlM d.step? [] = some here :=
    walk_filter _ (by simp) h.steps
  have walk' := walk_filter (· != ".") (by simp) walk
  have above : makeSteps [] ((properSteps path).filter (· != ".")).dropLast d = (.ok (), d) := by
    cases last : ((properSteps path).filter (· != ".")).getLast? with
    | none =>
      rw [List.getLast?_eq_none_iff.1 last]
      rfl
    | some step =>
      obtain ⟨before, eq⟩ := List.getLast?_eq_some_iff.1 last
      rw [eq] at walk' ⊢
      rw [List.foldlM_append] at walk'
      rw [List.dropLast_concat]
      cases start : before.foldlM d.step? [] with
      | none => simp [start] at walk'
      | some parent =>
        rw [start] at walk'
        exact makeSteps_of_walk start (directory_of_walk (l := [step]) walk' h.directory)
  have proper : path ≠ "" := by
    rintro rfl
    have := h.isPath
    simp [Disk.isPath] at this
  unfold makeDirectories
  rw [if_neg proper, if_pos h.isPath, above]
  simp only [makeDirectory, walk, h.directory]

/-! ## Making directories that are missing -/

/-- The first steps of the path lead to the place, whatever is on the way. -/
def PassesThrough (path : String) (place : Place) : Prop :=
  ∃ before after, steps path = before ++ after ∧ before.foldlM next? [] = some place

/-- At the place there is what there was, or a directory where there was
nothing. -/
def MadeAt (d d' : Disk) (place : Place) : Prop :=
  d'.node? place = d.node? place ∨ d.node? place = none ∧ d'.node? place = some .directory

theorem MadeAt.trans {d'' : Disk} (h : d.MadeAt d' place) (h' : d'.MadeAt d'' place) :
    d.MadeAt d'' place := by
  obtain same | ⟨absent, made⟩ := h'
  · rwa [MadeAt, same]
  · obtain same | ⟨-, made'⟩ := h
    · exact .inr ⟨same ▸ absent, made⟩
    · rw [made'] at absent
      cases absent

theorem madeAt_put (absent : d.node? here = none) (place : Place) :
    d.MadeAt (d.put here .directory) place ∧
      ((d.put here .directory).node? place ≠ d.node? place → place = here) := by
  have root : here ≠ [] := by
    rintro rfl
    cases absent
  have put := node?_put d .directory root place
  by_cases same : place = here
  · subst same
    rw [if_pos rfl] at put
    exact ⟨.inr ⟨absent, put⟩, fun _ => rfl⟩
  · rw [if_neg same] at put
    exact ⟨.inl put, fun changed => absurd put changed⟩

/-- A walk from directory to directory is a walk. -/
theorem next?_of_walk {l : List String} (walk : l.foldlM d.step? here = some place) :
    l.foldlM next? here = some place := by
  induction l generalizing here with
  | nil => exact walk
  | cons step rest ih =>
    rw [List.foldlM_cons] at walk ⊢
    cases first : d.step? here step with
    | none => simp [first] at walk
    | some next =>
      rw [first] at walk
      rw [(step?_eq_some.1 first).2]
      exact ih walk

/-- Steps that stay lead nowhere. -/
theorem next?_filter (keeps : String → Bool)
    (stays : ∀ step, keeps step = false → step = "" ∨ step = ".") (l : List String)
    (here : Place) : (l.filter keeps).foldlM next? here = l.foldlM next? here := by
  induction l generalizing here with
  | nil => rfl
  | cons step rest ih =>
    cases kept : keeps step with
    | true =>
      rw [List.filter_cons_of_pos kept, List.foldlM_cons, List.foldlM_cons]
      cases next? here step with
      | none => rfl
      | some place => exact ih place
    | false =>
      have stay : next? here step = some here := by
        simp [next?, stays step kept]
      rw [List.filter_cons_of_neg (by simp [kept]), List.foldlM_cons, stay]
      exact ih here

/-- Making directories makes them where the steps lead. -/
theorem makeSteps_makes (l : List String) (here : Place) (d : Disk) (place : Place) :
    d.MadeAt (makeSteps here l d).2 place ∧
      ((makeSteps here l d).2.node? place ≠ d.node? place →
        ∃ before after, l = before ++ after ∧ before.foldlM next? here = some place) := by
  induction l generalizing here d with
  | nil => exact ⟨.inl rfl, fun changed => absurd rfl changed⟩
  | cons step rest ih =>
    rw [makeSteps]
    cases leads : next? here step with
    | none => exact ⟨.inl rfl, fun changed => absurd rfl changed⟩
    | some next =>
      have onward : (∃ before after, rest = before ++ after ∧
          before.foldlM next? next = some place) →
          ∃ before after, step :: rest = before ++ after ∧
            before.foldlM next? here = some place := by
        rintro ⟨before, after, rfl, walk⟩
        refine ⟨step :: before, after, rfl, ?_⟩
        rw [List.foldlM_cons, leads]
        exact walk
      simp only
      cases there : d.node? next with
      | some node =>
        cases node with
        | file bytes => exact ⟨.inl rfl, fun changed => absurd rfl changed⟩
        | directory =>
          obtain ⟨made, passes⟩ := ih next d
          exact ⟨made, fun changed => onward (passes changed)⟩
      | none =>
        obtain ⟨made₁, only⟩ := madeAt_put there place
        obtain ⟨made, passes⟩ := ih next (d.put next .directory)
        refine ⟨made₁.trans made, fun changed => ?_⟩
        by_cases later : (makeSteps next rest (d.put next .directory)).2.node? place =
            (d.put next .directory).node? place
        · rw [later] at changed
          refine ⟨[step], rest, rfl, ?_⟩
          rw [only changed]
          simp [leads]
        · exact onward (passes later)

/-- Steps that are left out stay where they are, so what is left passes through
the same places. -/
theorem passesThrough_of_filter {keeps : String → Bool} {before after : List String}
    (stays : ∀ step, keeps step = false → step = "" ∨ step = ".")
    (eq : (steps path).filter keeps = before ++ after)
    (walk : before.foldlM next? [] = some place) : PassesThrough path place := by
  obtain ⟨before, after, whole, rfl, -⟩ := List.filter_eq_append_iff.1 eq
  exact ⟨before, after, whole, by rwa [next?_filter keeps stays] at walk⟩

/-- So do the steps that lead to the directory above. -/
theorem passesThrough_above {before after : List String}
    (eq : ((properSteps path).filter (· != ".")).dropLast = before ++ after)
    (walk : before.foldlM next? [] = some place) : PassesThrough path place := by
  obtain ⟨last, whole⟩ := List.dropLast_prefix ((properSteps path).filter (· != "."))
  rw [eq, List.append_assoc, properSteps, List.filter_filter] at whole
  refine passesThrough_of_filter (fun step out => ?_) whole.symm walk
  simp only [Bool.and_eq_false_iff, bne_eq_false_iff_eq] at out
  exact out.symm

/-- Making the last directory of a path makes it where the path leads. -/
theorem makeDirectory_makes (d : Disk) (path : String) (place : Place) :
    d.MadeAt (d.makeDirectory (properSteps path)).2 place ∧
      ((d.makeDirectory (properSteps path)).2.node? place ≠ d.node? place →
        PassesThrough path place) := by
  unfold makeDirectory
  cases walk : (properSteps path).foldlM d.step? [] with
  | none => exact ⟨.inl rfl, fun changed => absurd rfl changed⟩
  | some last =>
    simp only
    cases there : d.node? last with
    | some node => cases node <;> exact ⟨.inl rfl, fun changed => absurd rfl changed⟩
    | none =>
      obtain ⟨made, only⟩ := madeAt_put there place
      refine ⟨made, fun changed => ?_⟩
      obtain rfl := only changed
      have all : (steps path).filter (· != "") = properSteps path ++ [] := by
        rw [List.append_nil, properSteps]
      exact passesThrough_of_filter (fun step out => .inl (by simpa using out)) all
        (next?_of_walk walk)

/-- Making the directory of a path makes directories that it passes through,
where there was nothing. -/
theorem makeDirectories_makes (d : Disk) (path : String) (place : Place) :
    d.MadeAt (d.makeDirectories path).2 place ∧
      ((d.makeDirectories path).2.node? place ≠ d.node? place → PassesThrough path place) := by
  have nothing : d.MadeAt d place ∧ (d.node? place ≠ d.node? place → PassesThrough path place) :=
    ⟨.inl rfl, fun changed => absurd rfl changed⟩
  unfold makeDirectories
  split
  · exact nothing
  split
  · obtain ⟨made, leads⟩ :=
      makeSteps_makes ((properSteps path).filter (· != ".")).dropLast [] d place
    generalize makeSteps [] ((properSteps path).filter (· != ".")).dropLast d = result at *
    have above : result.2.node? place ≠ d.node? place → PassesThrough path place := by
      intro changed
      obtain ⟨before, after, eq, walk⟩ := leads changed
      exact passesThrough_above eq walk
    obtain ⟨answer, d₁⟩ := result
    cases answer with
    | error cause => exact ⟨made, above⟩
    | ok _ =>
      obtain ⟨made', below⟩ := makeDirectory_makes d₁ path place
      refine ⟨made.trans made', fun changed => ?_⟩
      by_cases same : (d₁.makeDirectory (properSteps path)).2.node? place = d₁.node? place
      · exact above (same ▸ changed)
      · exact below same
  · exact nothing

end Disk

end MapStore
