/-
MapStore.Proofs.Answering — what the runs of the command line answer.

Every run opens an engine of its own on the directory and closes it, so what
one run learns of the others it learns from the directory. `Answers` says what
a command prints after given puts, without engines and files: a look-up the
value put last, a put the value it replaces, a dump the last values of a map in
the order of the keys, a listing the maps in the order in which they were first
put to, by number. `runs_answer` says that so it is for every run of every
sequence of runs on a directory that was empty or missing at first, up to one
exception: after puts to 2³² − 1 maps there is no number left, and a command
about a map without one is refused (`Ends`).

The step is one command (`carryOut_answers`): on a directory that is `Ready`
after some puts it is answered, and leaves the directory ready after its own
put. Whatever kind of map a command asks for, its engine finds the same
entries, and saves a put the same way. A command that only asks leaves no
trace, also where it gave a name the next number for as long as it ran. A
command that is refused leaves none either (`carryOut_refused`).

Any texts can be put under any keys (`reads_put`). One that starts with a hyphen
has to come after `--`, as it would be read as an option before.
-/
import MapStore.CommandLine.Run
import MapStore.Proofs.SingleCalls
import MapStore.Proofs.Stocking
import Mathlib.Algebra.Group.Nat.Defs

namespace MapStore

open Artifact (fileName isValidName)
open Text.Utf8 (encode decodeLossy)

/-- There is an empty directory at the path, or nothing and one can be made. -/
def Disk.Vacant (disk : Disk) (dir : String) : Prop :=
  disk.list dir = .ok [] ∨ disk.isPresent dir = false ∧
    ∃ made, disk.makeDirectories dir = (.ok (), made) ∧ made.list dir = .ok []

namespace CommandLine

/-! ## What is to be answered -/

namespace Command

/-- What a command puts. -/
def put? : Command → Option Put
  | put map key value _ => some ⟨map, key, value⟩
  | maps | get .. | dump .. | workload _ => none

/-- A command about maps that are kept, under names that maps may have. -/
def Lasting : Command → Prop
  | maps => True
  | put map _ _ kind | get map _ kind | dump map kind =>
    isValidName map = true ∧ MapKind.ofTag kind ≠ .inMemory
  | workload _ => False

/-- The map that a command is about has a number after the puts, or there is one
left for it. -/
def Numbered (puts : List Put) : Command → Prop
  | maps | workload _ => True
  | put map _ _ _ | get map _ _ | dump map _ => Put.Numbered puts map

instance : DecidablePred Lasting
  | maps => inferInstanceAs (Decidable True)
  | put map _ _ kind | get map _ kind | dump map kind =>
    inferInstanceAs (Decidable (isValidName map = true ∧ MapKind.ofTag kind ≠ .inMemory))
  | workload _ => inferInstanceAs (Decidable False)

/-- What a command prints after puts into the directory. -/
inductive Answers (dir : String) (puts : List Put) : Command → String → Prop
  /-- The value put last. -/
  | get {map key : String} {kind : Option String} : Answers dir puts (.get map key kind)
      (Help.lines [(Put.last? puts map key).getD "(nil)"])
  /-- The value that is replaced, which is the value put last. -/
  | put {map key value : String} {kind : Option String} : Answers dir puts (.put map key value kind)
      (Help.lines [(Put.last? puts map key).elim "OK" fun old =>
        "OK (replaced " ++ Text.quote old ++ ")"])
  /-- Every key that was put with the value put last, by the bytes of the keys. -/
  | dump {map : String} {kind : Option String} {entries : List (String × String)}
      (exact : ∀ key value, (key, value) ∈ entries ↔ Put.last? puts map key = some value)
      (sorted : entries.Pairwise fun a b => Bytes.compare (encode a.1) (encode b.1) = .lt) :
      Answers dir puts (.dump map kind) (Help.lines (entries.map fun e => e.1 ++ "\t" ++ e.2))
  /-- Every map that was put to with its number, and how many there are. -/
  | maps {rows : List (String × Nat)}
      (exact : ∀ name n, (name, n) ∈ rows ↔ ∃ i, (Put.maps puts)[i]? = some name ∧ n = i + 1)
      (sorted : rows.Pairwise fun a b => compare a.1 b.1 = .lt) :
      Answers dir puts .maps (Help.lines (rows.map (fun r => toString r.2 ++ "  " ++ r.1) ++
        ["last id: " ++ toString (Put.maps puts).length]))
  /-- Nothing was put, and there is no directory. -/
  | nothing (none : puts = []) :
      Answers dir puts .maps (Help.lines ["(no storage at " ++ dir ++ ")"])

/-- How a run of a command on the directory ends, and the disk it leaves. -/
inductive Ends (dir : String) (puts : List Put) (c : Command) (before : Disk) :
    Outcome × Disk → Prop
  /-- It is answered. -/
  | answered {output : String} {after : Disk} (numbered : c.Numbered puts)
      (answers : c.Answers dir puts output) : Ends dir puts c before (⟨0, output⟩, after)
  /-- There is no number for its map: it prints nothing, and nothing is changed. -/
  | refused (full : ¬ c.Numbered puts) : Ends dir puts c before (⟨1, ""⟩, before)

end Command

variable {dir map key value : String} {kind : Option String} {here : Place}
  {puts asked : List Put} {disk : Disk} {policy : RecoveryPolicy}

/-! ## One command -/

/-- The directory is stocked with the puts, or is still to be made. -/
inductive Ready (disk : Disk) (dir : String) (puts : List Put) : Prop
  | stocked {here : Place} (stocked : Stocked disk dir here puts)
  | missing {made : Disk} (absent : disk.isPresent dir = false)
      (makes : disk.makeDirectories dir = (.ok (), made)) (listed : made.list dir = .ok [])
      (nothing : puts = [])

/-- A vacant directory is ready. -/
theorem ready_of_vacant (h : disk.Vacant dir) : Ready disk dir [] := by
  obtain listed | ⟨absent, made, makes, listed⟩ := h
  · obtain ⟨here, houses⟩ := Disk.houses_of_list listed
    exact .stocked (stocked_nil houses listed)
  · exact .missing absent makes listed rfl

/-- An engine makes the directory. -/
theorem Ready.made (h : Ready disk dir puts) :
    ∃ made here, disk.makeDirectories dir = (.ok (), made) ∧ Stocked made dir here puts := by
  cases h with
  | stocked stocked => exact ⟨disk, _, Disk.makeDirectories_of_houses stocked.houses, stocked⟩
  | missing absent makes listed nothing =>
    obtain ⟨here, houses⟩ := Disk.houses_of_list listed
    exact ⟨_, here, makes, nothing ▸ stocked_nil houses listed⟩

/-- The set-up of the engines that commands open. -/
def setUp (dir : String) (policy : RecoveryPolicy) : Config :=
  { Config.default with storageName := some dir, recoveryPolicy := policy }

/-- How commands ask for a map. -/
def asks (map : String) (kind : Option String) : Opening :=
  ⟨map, MapKind.ofTag kind, .string, .string, none, false⟩

/-- A map of texts as it is loaded. -/
def loadedMap (dir map : String) (id : MapId) (entries : List (Bytes × Bytes)) : DirectMap :=
  { PlainMap.empty map id .string .string with
    table := .ofList Bytes.compare entries
    path := some (Disk.join dir (fileName map id))
    dirty := false }

/-- Texts can be put into it, and it is saved whole. -/
theorem put_loadedMap {id : MapId} {entries : List (Bytes × Bytes)} {d : DirectMap}
    {disk' : Disk} (loaded : d = loadedMap dir map id entries) (key value : String)
    (saved : MapFile.save ⟨map, id, (d.table.insert (encode key) (encode value)).2.toList⟩
      (Disk.join dir (fileName map id)) disk = (.ok (), disk')) :
    ∃ d', d.write (encode key) (.value (encode value)) = .ok (d.table.get? (encode key), d') ∧
      (d'.save disk).1 = .ok () ∧ (d'.save disk).2.2 = disk' := by
  have valid : ∀ text : String, DataType.string.validate (encode text) = .ok () := fun text => by
    simp only [DataType.string, Text.Utf8.decode?_encode]
  have admitted : PlainMap.checkChange .string .string (encode key) (.value (encode value)) =
      .ok () := by
    simp only [PlainMap.checkChange, DataType.checkKey, DataType.checkValue, valid,
      Except.mapError, bind, Except.bind]
  obtain ⟨d', changed⟩ : ∃ d', d' = { d with
      table := (d.table.insert (encode key) (encode value)).2, dirty := true } := ⟨_, rfl⟩
  have saves := DirectMap.save_of_dirty (d := d') (by rw [changed]) (by rw [changed, loaded]; rfl)
    (by rw [changed, loaded] at *; exact saved)
  refine ⟨d', ?_, congrArg Prod.fst saves, congrArg (·.2.2) saves⟩
  subst loaded
  exact DirectMap.write_eq_ok.2 ⟨_, PlainMap.write_eq_ok.2 ⟨rfl, admitted, rfl, rfl⟩, changed⟩

/-- An engine on a ready directory finds the last values of a map, and does an
errand there. -/
theorem Ready.errand (h : Ready disk dir puts) (room : Room dir puts)
    (numbered : Put.Numbered puts map) (valid : isValidName map = true)
    (lasting : MapKind.ofTag kind ≠ .inMemory) (policy : RecoveryPolicy) :
    ∃ made here d, Stocked made dir here puts ∧ Latest puts map d.table ∧
      (∃ entries, d = loadedMap dir map (Put.idAt ((Put.maps puts).idxOf map)) entries) ∧
      ∀ {α : Type} {call : MapHandle → Action α} {r : α} {d' : DirectMap},
        Store.Brings call d r d' →
        (d'.save made).1 = .ok () →
        ∃ s', EngineHandle.errand (setUp dir policy) (asks map kind) call (.onDisk disk) =
            .ok r s' ∧
          s'.disk = (d'.save made).2.2 := by
  obtain ⟨made, here, makes, stocked⟩ := h.made
  obtain ⟨files, ids, listed, recovered, shelved, counts⟩ := stocked.recovers policy
  obtain ⟨ids', given⟩ := counts.idFor numbered
  obtain ⟨t, latest, stored⟩ := stocked.loads room valid
  generalize Put.idAt ((Put.maps puts).idxOf map) = id at *
  have loaded : DirectMap.load (DirectMap.settingsIn map id dir) .string .string made =
      .ok (loadedMap dir map id t.toList) := DirectMap.load_of_ok stored
  refine ⟨made, here, loadedMap dir map id t.toList, stocked, latest.loaded, ⟨_, rfl⟩, ?_⟩
  intro α call r d' brings saved
  exact EngineHandle.errand_ends rfl makes listed recovered shelved (asks map kind)
    (inferInstanceAs (Std.TransCmp Bytes.compare)) lasting valid given loaded brings saved

/-- So it does for a call that only asks, and leaves no trace. -/
theorem Ready.errand_of_read (h : Ready disk dir puts) (room : Room dir puts)
    (numbered : Put.Numbered puts map) (valid : isValidName map = true)
    (lasting : MapKind.ofTag kind ≠ .inMemory) (policy : RecoveryPolicy) :
    ∃ d : DirectMap, Latest puts map d.table ∧
      ∀ {α : Type} {call : MapHandle → Action α} {r : α},
        Store.Brings call d r d →
        ∃ s', EngineHandle.errand (setUp dir policy) (asks map kind) call (.onDisk disk) =
            .ok r s' ∧
          Ready s'.disk dir puts := by
  obtain ⟨made, here, d, stocked, latest, loaded, ends⟩ :=
    h.errand room numbered valid lasting policy
  refine ⟨d, latest, fun brings => ?_⟩
  have clean : d.dirty = false := by
    obtain ⟨entries, rfl⟩ := loaded
    rfl
  have saves := DirectMap.save_of_clean clean made
  obtain ⟨s, run, disk⟩ := ends brings (congrArg Prod.fst saves)
  rw [saves] at disk
  exact ⟨s, run, disk ▸ .stocked stocked⟩

/-- So it does for a put. -/
theorem Ready.errand_of_put {p : Put} (h : Ready disk dir puts) (room : Room dir (puts ++ [p]))
    (numbered : Put.Numbered puts p.map) (valid : isValidName p.map = true)
    (lasting : MapKind.ofTag kind ≠ .inMemory) (policy : RecoveryPolicy) :
    ∃ s', EngineHandle.errand (setUp dir policy) (asks p.map kind)
        (fun m => m.put (encode p.key) (encode p.value)) (.onDisk disk) =
          .ok ((Put.last? puts p.map p.key).map encode) s' ∧
      Ready s'.disk dir (puts ++ [p]) := by
  obtain ⟨made, here, d, stocked, latest, ⟨entries, loaded⟩, ends⟩ :=
    h.errand room.of_append numbered valid lasting policy
  obtain ⟨disk', saved, stocked'⟩ := stocked.put room numbered valid latest.insert
  obtain ⟨d', wrote, saves, disk⟩ := put_loadedMap loaded p.key p.value saved
  rw [latest.get?] at wrote
  obtain ⟨s, run, eq⟩ := ends (Store.brings_put wrote) saves
  exact ⟨s, run, eq ▸ disk ▸ .stocked stocked'⟩

/-- For a map without a number it is refused, and leaves the directory as it is. -/
theorem Ready.errand_of_full (h : Ready disk dir puts) (full : ¬ Put.Numbered puts map)
    (valid : isValidName map = true) (policy : RecoveryPolicy) {α : Type}
    (call : MapHandle → Action α) :
    ∃ s, EngineHandle.errand (setUp dir policy) (asks map kind) call (.onDisk disk) =
        .error (.error (.config "map id space exhausted")) s ∧ s.disk = disk := by
  cases h with
  | missing absent makes listed nothing =>
    subst nothing
    exact absurd (.inr (by decide)) full
  | stocked stocked =>
    obtain ⟨files, ids, listed, recovered, -, counts⟩ := stocked.recovers policy
    obtain ⟨unknown, last⟩ := counts.exhausted full
    exact EngineHandle.errand_refused call rfl (Disk.makeDirectories_of_houses stocked.houses)
      listed recovered (asks map kind) valid unknown last

/-! ## What is printed -/

/-- A command about a map is an errand, and prints what the call answers. -/
theorem printed_eq_errand {α : Type} (dir : String) (policy : RecoveryPolicy) (map : String)
    (kind : Option String) (call : MapHandle → Action α) (text : α → String) :
    (do let e ← openStorage dir policy
        let m ← openTextMap e map kind
        let r ← call m
        e.close
        return text r : Action String) =
      text <$> EngineHandle.errand (setUp dir policy) (asks map kind) call := by
  simp only [EngineHandle.errand, map_bind, map_pure]
  rfl

/-- It prints what the call in its errand answers. -/
theorem run_printed {α : Type} {call : MapHandle → Action α} {r : α} {s s' : Store}
    (run : EngineHandle.errand (setUp dir policy) (asks map kind) call s = .ok r s')
    (text : α → String) :
    (do let e ← openStorage dir policy
        let m ← openTextMap e map kind
        let r ← call m
        e.close
        return text r : Action String) s = .ok (text r) s' := by
  rw [printed_eq_errand, Action.run_map, run]

/-- It is refused if its errand is. -/
theorem run_unprinted {α : Type} {call : MapHandle → Action α} {cause : Fault} {s s' : Store}
    (run : EngineHandle.errand (setUp dir policy) (asks map kind) call s = .error cause s')
    (text : α → String) :
    (do let e ← openStorage dir policy
        let m ← openTextMap e map kind
        let r ← call m
        e.close
        return text r : Action String) s = .error cause s' := by
  rw [printed_eq_errand, Action.run_map, run]

/-- A listing of a ready directory shows the maps put to, and changes nothing. -/
theorem Ready.listMaps (h : Ready disk dir puts) (policy : RecoveryPolicy) :
    ∃ output, listMaps dir policy (.onDisk disk) = .ok output (.onDisk disk) ∧
      Command.Answers dir puts .maps output := by
  cases h with
  | missing absent makes listed nothing =>
    refine ⟨_, ?_, .nothing nothing⟩
    show (if !disk.isPresent dir then _ else _ : Action String) _ = _
    rw [absent]
    rfl
  | stocked stocked =>
    obtain ⟨files, ids, listed, recovered, -, counts⟩ := stocked.recovers policy
    obtain ⟨exact, sorted⟩ := counts.numbers
    have present : disk.isPresent dir = true := by
      rw [Disk.isPresent, Disk.at?, stocked.houses.located, Option.bind_some,
        stocked.houses.directory]
      rfl
    have found : disk.list dir >>= MapIds.recover policy = .ok ids := by
      rw [listed]
      exact recovered
    refine ⟨_, ?_, .maps exact sorted⟩
    show (if !disk.isPresent dir then _ else
      Action.lift (disk.list dir >>= MapIds.recover policy) >>= _ : Action String) _ = _
    rw [present, found, List.map_map, ← counts.lastId]
    rfl

/-- A look-up prints the value put last. -/
theorem Ready.printValue (h : Ready disk dir puts) (room : Room dir puts)
    (numbered : Put.Numbered puts map) (valid : isValidName map = true)
    (kept : MapKind.ofTag kind ≠ .inMemory) (policy : RecoveryPolicy) (key : String) :
    ∃ output s, printValue dir policy map key kind (.onDisk disk) = .ok output s ∧
      (Command.get map key kind).Answers dir puts output ∧ Ready s.disk dir puts := by
  obtain ⟨d, latest, reads⟩ := h.errand_of_read room numbered valid kept policy
  obtain ⟨s, run, ready⟩ := reads (Store.brings_get d (encode key))
  have shown : (d.table.get? (encode key)).elim "(nil)" decodeLossy =
      (Put.last? puts map key).getD "(nil)" := by
    rw [latest.get?]
    cases Put.last? puts map key with
    | none => rfl
    | some value => exact Text.Utf8.decodeLossy_encode value
  refine ⟨_, s, run_printed run fun value => Help.lines [value.elim "(nil)" decodeLossy], ?_, ready⟩
  rw [shown]
  exact .get

/-- The line of an entry in a dump. -/
def entryLine (e : Bytes × Bytes) : String := decodeLossy e.1 ++ "\t" ++ decodeLossy e.2

/-- A dump prints every value put last. -/
theorem Ready.printEntries (h : Ready disk dir puts) (room : Room dir puts)
    (numbered : Put.Numbered puts map) (valid : isValidName map = true)
    (kept : MapKind.ofTag kind ≠ .inMemory) (policy : RecoveryPolicy) :
    ∃ output s, printEntries dir policy map kind (.onDisk disk) = .ok output s ∧
      (Command.dump map kind).Answers dir puts output ∧ Ready s.disk dir puts := by
  obtain ⟨d, latest, reads⟩ := h.errand_of_read room numbered valid kept policy
  obtain ⟨s, run, ready⟩ := reads (Store.brings_entries d)
  obtain ⟨entries, listed, exact, sorted⟩ := latest.texts
  have shown : d.table.toList.map entryLine = entries.map fun e => e.1 ++ "\t" ++ e.2 := by
    rw [listed, List.map_map]
    refine List.map_congr_left fun e _ => ?_
    simp only [Function.comp, entryLine, Text.Utf8.decodeLossy_encode]
  refine ⟨_, s, run_printed run fun rows => Help.lines (rows.map entryLine), ?_, ready⟩
  rw [shown]
  exact .dump exact sorted

/-- The line that answers a put. -/
def putLine : Option Bytes → String
  | some old => "OK (replaced " ++ Text.quote (decodeLossy old) ++ ")"
  | none => "OK"

/-- A put prints the value that it replaces. -/
theorem Ready.putValue (h : Ready disk dir puts) {p : Put} (room : Room dir (puts ++ [p]))
    (numbered : Put.Numbered puts p.map) (valid : isValidName p.map = true)
    (kept : MapKind.ofTag kind ≠ .inMemory) (policy : RecoveryPolicy) :
    ∃ output s, putValue dir policy p.map p.key p.value kind (.onDisk disk) = .ok output s ∧
      (Command.put p.map p.key p.value kind).Answers dir puts output ∧
      Ready s.disk dir (puts ++ [p]) := by
  obtain ⟨s, run, ready⟩ := h.errand_of_put room numbered valid kept policy
  have shown : putLine ((Put.last? puts p.map p.key).map encode) =
      (Put.last? puts p.map p.key).elim "OK" fun old =>
        "OK (replaced " ++ Text.quote old ++ ")" := by
    cases Put.last? puts p.map p.key with
    | none => rfl
    | some value => simp only [putLine, Option.map_some, Option.elim_some,
        Text.Utf8.decodeLossy_encode]
  refine ⟨_, s, run_printed run fun previous => Help.lines [putLine previous], ?_, ready⟩
  rw [shown]
  exact .put

/-- A command is answered, and the directory is ready after its put. -/
theorem carryOut_answers {c : Command} (h : Ready disk dir puts)
    (room : Room dir (puts ++ c.put?.toList)) (lasting : c.Lasting) (numbered : c.Numbered puts)
    (skip : Bool) :
    ∃ output s, carryOut ⟨dir, skip, c⟩ (.onDisk disk) = .ok output s ∧
      c.Answers dir puts output ∧ Ready s.disk dir (puts ++ c.put?.toList) := by
  unfold carryOut
  generalize (if skip then .skip else .abort : RecoveryPolicy) = policy
  have unasked : puts ++ [] = puts := List.append_nil puts
  cases c with
  | workload ops => exact lasting.elim
  | put map key value kind => exact h.putValue room numbered lasting.1 lasting.2 policy
  | maps =>
    obtain ⟨output, run, answers⟩ := h.listMaps policy
    exact ⟨output, _, run, answers, unasked.symm ▸ h⟩
  | get map key kind =>
    obtain ⟨output, s, run, answers, ready⟩ :=
      h.printValue room.of_append numbered lasting.1 lasting.2 policy key
    exact ⟨output, s, run, answers, unasked.symm ▸ ready⟩
  | dump map kind =>
    obtain ⟨output, s, run, answers, ready⟩ :=
      h.printEntries room.of_append numbered lasting.1 lasting.2 policy
    exact ⟨output, s, run, answers, unasked.symm ▸ ready⟩

/-- A command about a map without a number is refused, and changes nothing. -/
theorem carryOut_refused {c : Command} (h : Ready disk dir puts) (lasting : c.Lasting)
    (full : ¬ c.Numbered puts) (skip : Bool) :
    ∃ s, carryOut ⟨dir, skip, c⟩ (.onDisk disk) =
      .error (.error (.config "map id space exhausted")) s ∧ s.disk = disk := by
  unfold carryOut
  generalize (if skip then .skip else .abort : RecoveryPolicy) = policy
  cases c with
  | workload ops => exact lasting.elim
  | maps => exact absurd trivial full
  | put map key value kind =>
    obtain ⟨s, run, disk⟩ := h.errand_of_full full lasting.1 policy
      fun m => m.put (encode key) (encode value)
    exact ⟨s, run_unprinted run fun previous => Help.lines [putLine previous], disk⟩
  | get map key kind =>
    obtain ⟨s, run, disk⟩ := h.errand_of_full full lasting.1 policy fun m => m.get (encode key)
    exact ⟨s, run_unprinted run fun value => Help.lines [value.elim "(nil)" decodeLossy], disk⟩
  | dump map kind =>
    obtain ⟨s, run, disk⟩ := h.errand_of_full full lasting.1 policy MapHandle.entries
    exact ⟨s, run_unprinted run fun rows => Help.lines (rows.map entryLine), disk⟩

/-! ## Asking for a put -/

section

variable {level : Level} {said : Said} {text : String} {c : Char} {name : List Char}

/-- An option with a long name is read by its name. -/
theorem readLevel_name (chars : text.toList = '-' :: '-' :: c :: name)
    (options : said.literal = false) (other : level.commands.contains text = false)
    (rest : List String) :
    readLevel level said (text :: rest) =
      readName level said (String.ofList (cutAtEquals (c :: name)).1)
        ((cutAtEquals (c :: name)).2.map String.ofList) >>= fun said =>
          readLevel level said rest := by
  rw [readLevel, options, other, Bool.and_false, chars]
  rfl

/-- The directory is noted. -/
theorem readName_storage (proper : dir ≠ "") :
    readName programLevel .nothing "storage" (some dir) =
      .ok ⟨[("storage", dir)], none, [], false⟩ := by
  have admitted : (!(dir != "")) = false := by simp [proper]
  show (if (false || !(dir != "")) = true then _ else _) = _
  rw [admitted]
  rfl

theorem readLevel_storage (proper : dir ≠ "") (args : List String) :
    readLevel programLevel .nothing (("--storage=" ++ dir) :: "put" :: args) =
      .ok (⟨[("storage", dir)], none, [], false⟩, some ("put", args)) := by
  have chars : ("--storage=" ++ dir).toList =
      '-' :: '-' :: 's' :: 't' :: 'o' :: 'r' :: 'a' :: 'g' :: 'e' :: '=' :: dir.toList := by
    simp
  have other : programLevel.commands.contains ("--storage=" ++ dir) = false := by
    simp [programLevel, ← String.toList_inj]
  have cut : cutAtEquals ('s' :: 't' :: 'o' :: 'r' :: 'a' :: 'g' :: 'e' :: '=' :: dir.toList) =
      ("storage".toList, some dir.toList) := rfl
  rw [readLevel_name chars rfl other, cut, Option.map_some, String.ofList_toList,
    String.ofList_toList, readName_storage proper]
  rfl

/-- After two hyphens texts are taken as they are. -/
theorem readLevel_operands (map key value : String) :
    readLevel (commandLevel [kindFlag] 3 Help.put) .nothing ["--", map, key, value] =
      .ok (⟨[], none, [value, key, map], true⟩, none) := by
  simp [Said.nothing, readLevel, commandLevel, readOperand, Said.settle, Said.awaitsValue, bind,
    Except.bind, pure, Except.pure]

end

/-- Arguments that ask for a put, whatever the texts. -/
def putArgs (dir map key value : String) : List String :=
  ["--storage=" ++ dir, "put", "--", map, key, value]

theorem reads_put (proper : dir ≠ "") (map key value : String) :
    Reading.ofArguments (putArgs dir map key value) =
      .run ⟨dir, false, .put map key value none⟩ := by
  unfold Reading.ofArguments readRequest putArgs
  rw [readLevel_storage proper]
  simp only [bind, Except.bind, readCommand, readLevel_operands]
  simp [Said.settle, Said.value?, pure, Except.pure]

/-! ## Runs -/

/-- What a run with the arguments is to put. -/
def putBy? (args : List String) : Option Put :=
  match Reading.ofArguments args with
  | .run request => request.command.put?
  | .inform _ | .misuse => none

/-- The arguments ask for a command about kept maps in the directory. -/
def Concerns (dir : String) (args : List String) : Prop :=
  ∃ skip c, Reading.ofArguments args = .run ⟨dir, skip, c⟩ ∧ c.Lasting

theorem concerns_putArgs (proper : dir ≠ "") (valid : isValidName map = true)
    (key value : String) : Concerns dir (putArgs dir map key value) :=
  ⟨false, _, reads_put proper map key value, valid, by decide⟩

theorem putBy?_putArgs (proper : dir ≠ "") (map key value : String) :
    putBy? (putArgs dir map key value) = some ⟨map, key, value⟩ := by
  rw [putBy?, reads_put proper]
  rfl

/-- The disk after runs of the program. -/
def diskAfter (disk : Disk) (history : List (List String)) : Disk :=
  history.foldl (fun disk args => (run args disk).2) disk

/-- What runs of the program put. -/
def madeBy (history : List (List String)) : List Put := Put.made (history.filterMap putBy?)

variable {args : List String} {history : List (List String)} {i : Nat}

theorem madeBy_grows (before more : List (List String)) :
    madeBy before <+: madeBy (before ++ more) := by
  unfold madeBy
  rw [List.filterMap_append]
  exact Put.made_grows ..

theorem madeBy_append (before : List (List String)) (args : List String) :
    madeBy (before ++ [args]) = Put.made (before.filterMap putBy? ++ (putBy? args).toList) := by
  simp only [madeBy, List.filterMap_eq_flatMap_toList, List.flatMap_append, List.flatMap_singleton]

/-- What is put by the command whose map has a number. -/
theorem made_of_command {c : Command} (numbered : c.Numbered (Put.made asked)) :
    Put.made (asked ++ c.put?.toList) = Put.made asked ++ c.put?.toList := by
  cases c with
  | put map key value kind => exact Put.made_append_of_numbered numbered
  | maps | get | dump | workload => simp [Command.put?]

/-- Nothing is put by the others. -/
theorem made_of_full {c : Command} (full : ¬ c.Numbered (Put.made asked)) :
    Put.made (asked ++ c.put?.toList) = Put.made asked := by
  cases c with
  | put map key value kind => exact (Put.made_append ..).trans (if_neg full)
  | maps | get | dump | workload => simp [Command.put?]

/-- A run on a ready directory ends as its command is to end, and leaves the
directory ready after its put. -/
theorem run_ends (h : Ready disk dir (Put.made asked)) (concerns : Concerns dir args)
    (room : Room dir (Put.made (asked ++ (putBy? args).toList))) :
    Ready (run args disk).2 dir (Put.made (asked ++ (putBy? args).toList)) ∧
      ∃ request, Reading.ofArguments args = .run request ∧
        request.command.Ends dir (Put.made asked) disk (run args disk) := by
  obtain ⟨skip, c, reads, lasting⟩ := concerns
  have same : putBy? args = c.put? := by
    rw [putBy?, reads]
  rw [same] at room ⊢
  by_cases numbered : c.Numbered (Put.made asked)
  · rw [made_of_command numbered] at room ⊢
    obtain ⟨output, s, carried, answers, ready⟩ := carryOut_answers h room lasting numbered skip
    have ran : run args disk = (⟨0, output⟩, s.disk) := by
      rw [run, reads]
      simp only [carried]
    rw [ran]
    exact ⟨ready, _, reads, .answered numbered answers⟩
  · rw [made_of_full numbered] at room ⊢
    obtain ⟨s, carried, unchanged⟩ := carryOut_refused h lasting numbered skip
    have ran : run args disk = (⟨1, ""⟩, disk) := by
      rw [run, reads]
      simp only [carried, unchanged]
    rw [ran]
    exact ⟨h, _, reads, .refused numbered⟩

/-- After runs the directory is ready after all that they put. -/
theorem ready_after (vacant : disk.Vacant dir) (concern : ∀ args ∈ history, Concerns dir args)
    (room : Room dir (madeBy history)) :
    Ready (diskAfter disk history) dir (madeBy history) := by
  induction history using List.reverseRecOn with
  | nil => exact ready_of_vacant vacant
  | append_singleton before args ih =>
    have ready := ih (fun other mem => concern other (List.mem_append_left _ mem))
      (room.earlier (madeBy_grows before [args]))
    rw [madeBy_append] at room ⊢
    have step := run_ends ready (concern args (by simp)) room
    rw [diskAfter, List.foldl_append]
    exact step.1

/-- In every sequence of runs on a directory that was empty or missing, about
kept maps under names that maps may have, every run ends with code 0 and prints
what its command is to be answered after the puts before it, whatever kinds of
map the runs ask for; only a run about a map that there is no number left for
ends with code 1, and changes nothing. What `Room` asks is that the file system
accepts the names of the artifacts, and that the bytes of each artifact can be
counted at all. -/
theorem runs_answer (vacant : disk.Vacant dir) (concern : ∀ args ∈ history, Concerns dir args)
    (room : Room dir (madeBy history)) (there : history[i]? = some args) :
    ∃ request, Reading.ofArguments args = .run request ∧
      request.command.Ends dir (madeBy (history.take i)) (diskAfter disk (history.take i))
        (run args (diskAfter disk (history.take i))) := by
  have upTo : history.take (i + 1) = history.take i ++ [args] := by
    rw [List.take_add_one, there, Option.toList_some]
  -- the runs before this one, and this one, have room
  have roomTo : ∀ n, Room dir (madeBy (history.take n)) := fun n => by
    have all := madeBy_grows (history.take n) (history.drop n)
    rw [List.take_append_drop] at all
    exact room.earlier all
  have ready := ready_after vacant (fun other mem => concern other (List.mem_of_mem_take mem))
    (roomTo i)
  have room' := roomTo (i + 1)
  rw [upTo, madeBy_append] at room'
  exact (run_ends ready (concern args (List.mem_of_getElem? there)) room').2

/-- Two puts that ask for different kinds of map, and then a look-up that asks
for a third. -/
def fruitRuns : List (List String) :=
  [["-s", "store", "put", "fruit", "apple", "red"],
    ["-s", "store", "put", "--kind=buffered", "fruit", "apple", "green"],
    ["-s", "store", "get", "-k", "direct", "fruit", "apple"]]

theorem madeBy_fruitRuns :
    madeBy fruitRuns = [⟨"fruit", "apple", "red"⟩, ⟨"fruit", "apple", "green"⟩] := by
  decide +kernel

theorem concerns_fruitRuns : ∀ args ∈ fruitRuns, Concerns "store" args := by
  simp only [fruitRuns, List.forall_mem_cons]
  exact ⟨⟨false, .put "fruit" "apple" "red" none, by decide +kernel, by decide +kernel⟩,
    ⟨false, .put "fruit" "apple" "green" (some "buffered"), by decide +kernel, by decide +kernel⟩,
    ⟨false, .get "fruit" "apple" (some "direct"), by decide +kernel, by decide +kernel⟩, nofun⟩

theorem room_fruitRuns : Room "store" (madeBy fruitRuns) := by
  rw [madeBy_fruitRuns]
  refine .of_sizes (fun i map there => ?_) (by decide +kernel)
  have only : Put.maps [⟨"fruit", "apple", "red"⟩, ⟨"fruit", "apple", "green"⟩] = ["fruit"] := by
    decide +kernel
  rw [only] at there
  obtain ⟨rfl, rfl⟩ : i = 0 ∧ map = "fruit" := by
    cases i with
    | zero => exact ⟨rfl, (Option.some.inj there).symm⟩
    | succ i => cases there
  decide +kernel

/-- The look-up prints the value put last. -/
theorem fruitRuns_answer :
    Disk.empty.Vacant "store" ∧ (∀ args ∈ fruitRuns, Concerns "store" args) ∧
      Room "store" (madeBy fruitRuns) ∧
      fruitRuns[2]? = some ["-s", "store", "get", "-k", "direct", "fruit", "apple"] ∧
      (run ["-s", "store", "get", "-k", "direct", "fruit", "apple"]
        (diskAfter .empty (fruitRuns.take 2))).1 = ⟨0, "green\n"⟩ := by
  have vacant : Disk.empty.Vacant "store" := .inr ⟨by decide +kernel, _, rfl, rfl⟩
  refine ⟨vacant, concerns_fruitRuns, room_fruitRuns, rfl, ?_⟩
  obtain ⟨request, reads, ends⟩ :=
    runs_answer vacant concerns_fruitRuns room_fruitRuns (i := 2) rfl
  obtain rfl : request = ⟨"store", false, .get "fruit" "apple" (some "direct")⟩ :=
    Reading.run.inj (reads.symm.trans (by decide +kernel))
  generalize run ["-s", "store", "get", "-k", "direct", "fruit", "apple"]
    (diskAfter .empty (fruitRuns.take 2)) = ended at ends
  cases ends with
  | refused full => exact absurd (.inl (by decide +kernel)) full
  | answered numbered answers =>
    cases answers with
    | get => exact congrArg (Outcome.mk 0) (by decide +kernel)

/-! ## A map for every number -/

/-- One run for each number below `count`, with a put to a map of that name. -/
def countingRuns (count : Nat) : List (List String) :=
  (List.range count).map fun n => putArgs "store" n.repr "k" "v"

/-- What these runs ask to put. -/
def countingPuts (count : Nat) : List Put := (List.range count).map fun n => ⟨n.repr, "k", "v"⟩

theorem putBy?_countingRuns (count : Nat) :
    (countingRuns count).filterMap putBy? = countingPuts count := by
  rw [countingRuns, countingPuts, List.filterMap_map, ← List.filterMap_eq_map]
  exact List.filterMap_congr fun n _ => putBy?_putArgs (by decide) n.repr "k" "v"

theorem countingRuns_succ (count : Nat) :
    countingRuns (count + 1) = countingRuns count ++ [putArgs "store" count.repr "k" "v"] := by
  rw [countingRuns, List.range_succ, List.map_append]
  rfl

theorem countingPuts_succ (count : Nat) :
    countingPuts (count + 1) = countingPuts count ++ [⟨count.repr, "k", "v"⟩] := by
  rw [countingPuts, List.range_succ, List.map_append]
  rfl

theorem length_countingRuns (count : Nat) : (countingRuns count).length = count := by
  rw [countingRuns, List.length_map, List.length_range]

theorem concerns_countingRuns (count : Nat) :
    ∀ args ∈ countingRuns count, Concerns "store" args := by
  intro args mem
  obtain ⟨n, -, rfl⟩ := List.mem_map.1 mem
  exact concerns_putArgs (by decide) (Artifact.isValidName_repr n) "k" "v"

/-- The next number is no name yet. -/
theorem repr_not_mem_range (count : Nat) : count.repr ∉ (List.range count).map Nat.repr := by
  intro mem
  obtain ⟨n, below, same⟩ := List.mem_map.1 mem
  have digits : Nat.toDigits 10 n = Nat.toDigits 10 count := by
    rw [← Nat.toList_repr, ← Nat.toList_repr, same]
  have values := congrArg (Nat.ofDigitChars 10 · 0) digits
  simp only [Nat.ofDigitChars_ten_toDigits] at values
  exact (List.mem_range.1 below).ne values

theorem maps_countingPuts (count : Nat) :
    Put.maps (countingPuts count) = (List.range count).map Nat.repr := by
  induction count with
  | zero => rfl
  | succ count ih =>
    rw [countingPuts_succ, Put.maps_append, ih, if_neg (repr_not_mem_range count),
      List.range_succ, List.map_append]
    rfl

theorem length_maps_countingPuts (count : Nat) :
    (Put.maps (countingPuts count)).length = count := by
  rw [maps_countingPuts, List.length_map, List.length_range]

/-- As long as there are numbers they put what they ask to put. -/
theorem madeBy_countingRuns {count : Nat} (small : count ≤ MapIds.maxId.toNat) :
    madeBy (countingRuns count) = countingPuts count := by
  rw [madeBy, putBy?_countingRuns]
  exact Put.made_of_countable (by rwa [length_maps_countingPuts])

theorem length_repr_le {n : Nat} (small : n < 2 ^ 32) : n.repr.length ≤ 10 :=
  (Nat.length_repr_le_iff (by decide)).2 (Nat.lt_trans small (by decide))

/-- A file system accepts the names of their artifacts. -/
theorem accepts_repr {n : Nat} (small : n < 2 ^ 32) (id : MapId) :
    Disk.Accepts "store" (fileName n.repr id) ∧
      Disk.Accepts "store" (MapFile.temporaryPath (fileName n.repr id)) := by
  have plain := Artifact.isPlain_fileName (Artifact.isValidName_repr n) id
  have noNul : Char.ofNat 0 ∉ (fileName n.repr id).toList := by
    have digits := fun n => Artifact.not_mem_digits (c := Char.ofNat 0) n rfl
    simp [Artifact.toList_fileName, digits, Artifact.separator, Artifact.extension]
  have length : (fileName n.repr id).length ≤ 24 := by
    have name := length_repr_le small
    have number := length_repr_le id.toNat_lt
    have ending : Artifact.extension.length = 3 := by decide
    simp only [fileName, String.length_append, String.length_ofList, Nat.toString_eq_repr, ending,
      List.length_singleton]
    omega
  have longer : (MapFile.temporaryPath (fileName n.repr id)).length ≤ 28 := by
    have ending : Artifact.temporary.length = 4 := by decide
    rw [MapFile.temporaryPath, String.length_append, ending]
    omega
  have noNul' : Char.ofNat 0 ∉ (MapFile.temporaryPath (fileName n.repr id)).toList := by
    simp [MapFile.temporaryPath, noNul, Artifact.temporary]
  have name : 4 * 28 ≤ Disk.maxName := by decide
  have path : "store".utf8ByteSize + 1 + 4 * 28 ≤ Disk.maxPath := by decide
  exact ⟨Disk.accepts_of_short (by decide) plain noNul (by omega) (by omega),
    Disk.accepts_of_short (by decide) (Disk.isPlain_temporary plain) noNul' (by omega) (by omega)⟩

theorem room_countingPuts {count : Nat} (small : count ≤ 2 ^ 32) :
    Room "store" (countingPuts count) := by
  refine .of_sizes (fun i map there => ?_) ?_
  · rw [maps_countingPuts] at there
    obtain ⟨n, below, rfl⟩ := List.mem_map.1 (List.mem_of_getElem? there)
    exact accepts_repr (Nat.lt_of_lt_of_le (List.mem_range.1 below) small) _
  · have each : ∀ size ∈ (countingPuts count).map Put.size, size ≤ 74 := by
      intro size mem
      simp only [countingPuts, List.map_map, List.mem_map, List.mem_range] at mem
      obtain ⟨n, below, rfl⟩ := mem
      have digits := length_repr_le (Nat.lt_of_lt_of_le below small)
      have bytes := Text.Utf8.length_encode_le n.repr
      have key : (encode "k").length = 1 := by decide +kernel
      have value : (encode "v").length = 1 := by decide +kernel
      simp only [Function.comp, Put.size, key, value]
      omega
    have length : (countingPuts count).length = count := by simp [countingPuts]
    have sum := List.sum_le_card_nsmul _ _ each
    rw [List.length_map, length, Nat.nsmul_eq_mul] at sum
    have capacity : Bytes.capacity 8 = 2 ^ 64 := rfl
    omega

/-- Once every number is given to a map, a put to one more map is refused, though
its name is valid and the file system accepts it. And a key that starts with a
hyphen is misread where it does not come after two hyphens. -/
theorem countingRuns_refused :
    Disk.empty.Vacant "store" ∧
      (∀ args ∈ countingRuns (MapIds.maxId.toNat + 1), Concerns "store" args) ∧
      Room "store" ((countingRuns (MapIds.maxId.toNat + 1)).filterMap putBy?) ∧
      (countingRuns (MapIds.maxId.toNat + 1))[MapIds.maxId.toNat]? =
        some (putArgs "store" MapIds.maxId.toNat.repr "k" "v") ∧
      run (putArgs "store" MapIds.maxId.toNat.repr "k" "v")
          (diskAfter .empty ((countingRuns (MapIds.maxId.toNat + 1)).take MapIds.maxId.toNat)) =
        (⟨1, ""⟩,
          diskAfter .empty ((countingRuns (MapIds.maxId.toNat + 1)).take MapIds.maxId.toNat)) ∧
      run ["--storage=store", "put", "fruit", "-x", "red"] .empty = (⟨2, ""⟩, .empty) := by
  have vacant : Disk.empty.Vacant "store" := .inr ⟨by decide +kernel, _, rfl, rfl⟩
  have concern := concerns_countingRuns
  have room : ∀ {count}, count ≤ MapIds.maxId.toNat + 1 → Room "store" (countingPuts count) :=
    fun small => room_countingPuts small
  have misread : run ["--storage=store", "put", "fruit", "-x", "red"] .empty =
      (⟨2, ""⟩, .empty) := by
    have reads : Reading.ofArguments ["--storage=store", "put", "fruit", "-x", "red"] =
        .misuse := by
      decide +kernel
    rw [run, reads]
  -- from here on the highest number is a number like any other
  obtain ⟨count, same⟩ : ∃ count, count = MapIds.maxId.toNat := ⟨_, rfl⟩
  rw [← same] at room ⊢
  have made := madeBy_countingRuns (Nat.le_of_eq same)
  have ready := ready_after vacant (concern count) (made ▸ room (Nat.le_succ count))
  have full : ¬ Put.Numbered (countingPuts count) count.repr := by
    rintro (known | left)
    · rw [maps_countingPuts] at known
      exact repr_not_mem_range count known
    · rw [length_maps_countingPuts, same] at left
      exact Nat.lt_irrefl _ left
  have first : (countingRuns (count + 1)).take count = countingRuns count := by
    rw [countingRuns_succ, List.take_left' (length_countingRuns count)]
  refine ⟨vacant, concern _, putBy?_countingRuns _ ▸ room (Nat.le_refl _), ?_, ?_, misread⟩
  · rw [countingRuns_succ, List.getElem?_append_right (Nat.le_of_eq (length_countingRuns count)),
      length_countingRuns, Nat.sub_self]
    rfl
  · rw [first]
    obtain ⟨s, carried, unchanged⟩ := carryOut_refused (made ▸ ready)
      (c := .put count.repr "k" "v" none) ⟨Artifact.isValidName_repr count, by decide⟩ full false
    rw [run, reads_put (by decide)]
    simp only [carried, unchanged]

end CommandLine

end MapStore
