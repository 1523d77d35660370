/-
MapStore.Proofs.NameGrammar — file names by their grammar.

`Artifact.parse` searches from both ends of a file name. Here the grammar is
said without a search, as what a name is put together from: a name that ends in
`.tmp`, or whose stem has no hyphen or only a leading one to split at, is no
artifact's (`Foreign`); any other splits at the last hyphen of its stem into a
map's name and the text of an id (`Splits`). If that text is a number of 32
bits, the file is the artifact of the map with that id (`Names`); if not, its id
is malformed (`Malformed`). The reader follows the grammar exactly
(`parse_eq_none`, `parse_eq_some`, `parse_eq_error`).

A text is a number (`Text.Numeral.Denotes`) with leading zeros and a plus sign
as well, so a map may have several artifacts with one id; only one of them is
what `fileName` writes.
-/
import MapStore.Proofs.Recovering

namespace MapStore

/-! ## Numerals -/

namespace Text.Numeral

open Nat (ofDigitChars)

variable {limit value n : Nat} {beyond : Error} {digits : List Char}

/-- The text is the number `n` in decimal: one or more ASCII digits, with or
without a plus sign in front. -/
def Denotes (text : List Char) (n : Nat) : Prop :=
  ∃ digits, (text = digits ∨ text = '+' :: digits) ∧ digits ≠ [] ∧
    (∀ c ∈ digits, c.isDigit = true) ∧ ofDigitChars 10 digits 0 = n

theorem isDigit_iff (c : Char) : c.isDigit = true ↔ '0' ≤ c ∧ c ≤ '9' := by
  simp [Char.isDigit, Char.le_def]

/-- Nothing but digits is read, and no number above the limit. -/
theorem readDigits_eq_ok (start : value ≤ limit) :
    readDigits limit beyond value digits = .ok n ↔
      (∀ c ∈ digits, c.isDigit = true) ∧ ofDigitChars 10 digits value = n ∧ n ≤ limit := by
  constructor
  · induction digits generalizing value with
    | nil =>
      intro h
      cases h
      exact ⟨by simp, rfl, start⟩
    | cons c rest ih =>
      intro h
      simp only [readDigits] at h
      split at h
      · rename_i digit
        split at h
        · cases h
        · obtain ⟨all, number, small⟩ := ih (by omega) h
          refine ⟨?_, ?_, small⟩
          · simpa [(isDigit_iff c).2 digit] using all
          · rw [Nat.ofDigitChars_cons, Nat.mul_comm]
            exact number
      · cases h
  · rintro ⟨all, rfl, small⟩
    exact readDigits_digits all small

theorem readMagnitude_eq_ok :
    readMagnitude limit beyond digits = .ok n ↔
      digits ≠ [] ∧ (∀ c ∈ digits, c.isDigit = true) ∧ ofDigitChars 10 digits 0 = n ∧
        n ≤ limit := by
  cases digits with
  | nil => simp [readMagnitude]
  | cons c rest => simp [readMagnitude, readDigits_eq_ok]

/-- The reader takes just the texts that are a number within the limit. -/
theorem parseNat_eq_ok {text : String} :
    parseNat limit text = .ok n ↔ Denotes text.toList n ∧ n ≤ limit := by
  unfold parseNat Denotes
  constructor
  · intro h
    split at h
    · cases h
    · rename_i digits chars
      obtain ⟨some, all, number, small⟩ := readMagnitude_eq_ok.1 h
      exact ⟨⟨digits, .inr chars, some, all, number⟩, small⟩
    · obtain ⟨some, all, number, small⟩ := readMagnitude_eq_ok.1 h
      exact ⟨⟨_, .inl rfl, some, all, number⟩, small⟩
  · rintro ⟨⟨digits, shape, some, all, number⟩, small⟩
    have magnitude : readMagnitude limit .tooLarge digits = .ok n :=
      readMagnitude_eq_ok.2 ⟨some, all, number, small⟩
    split
    · rename_i chars
      rw [chars] at shape
      simp [some] at shape
    · rename_i rest chars
      rw [chars] at shape
      rcases shape with rfl | shape
      · exact absurd (all '+' List.mem_cons_self) (by decide)
      · cases shape
        exact magnitude
    · rename_i sign
      rcases shape with shape | shape
      · rw [shape]
        exact magnitude
      · exact absurd shape (sign digits)

end Text.Numeral

namespace Artifact

open Text.Numeral

variable {c : Char} {text before after : List Char} {file name : String} {id : MapId}

/-! ## Searching -/

theorem dropEnding_eq_some {ending stem : List Char} :
    dropEnding ending text = some stem ↔ text = stem ++ ending := by
  constructor
  · unfold dropEnding
    intro h
    split at h
    · rename_i ends
      cases h
      obtain ⟨start, rfl⟩ := List.isSuffixOf_iff_suffix.1 ends
      simp
    · cases h
  · rintro rfl
    exact dropEnding_append stem ending

theorem dropEnding_eq_none {ending : List Char} :
    dropEnding ending text = none ↔ ¬ ending <:+ text := by
  simp [dropEnding, List.isSuffixOf_iff_suffix]

theorem splitLast_eq_none : splitLast c text = none ↔ c ∉ text := by
  constructor
  · intro h mem
    induction text with
    | nil => cases mem
    | cons x rest ih =>
      unfold splitLast at h
      split at h
      · cases h
      · rename_i later
        rcases List.mem_cons.1 mem with rfl | mem
        · simp at h
        · exact ih later mem
  · exact splitLast_of_not_mem

theorem splitLast_eq_some :
    splitLast c text = some (before, after) ↔ text = before ++ c :: after ∧ c ∉ after := by
  constructor
  · induction text generalizing before with
    | nil => simp [splitLast]
    | cons x rest ih =>
      intro h
      unfold splitLast at h
      split at h
      · rename_i front behind later
        cases h
        obtain ⟨rfl, last⟩ := ih later
        exact ⟨rfl, last⟩
      · rename_i later
        split at h
        · rename_i here
          cases h
          exact ⟨by simp [here], splitLast_eq_none.1 later⟩
        · cases h
  · rintro ⟨rfl, last⟩
    exact splitLast_append last

/-! ## The grammar -/

/-- The file's name without one `.db` at its end, if it has one there. -/
def IsStem (file : String) (stem : List Char) : Prop :=
  file.toList = stem ++ extension.toList ∨ ¬ extension.toList <:+ file.toList ∧ stem = file.toList

/-- The name is no artifact's: it is that of a file half written, or its stem
has no hyphen, or has its last hyphen in front. -/
def Foreign (file : String) : Prop :=
  temporary.toList <:+ file.toList ∨
    ∃ stem, IsStem file stem ∧
      (separator ∉ stem ∨ ∃ text, stem = separator :: text ∧ separator ∉ text)

/-- The name is split at the last hyphen of its stem into the name of a map and
the text of an id. -/
structure Splits (file name : String) (text : List Char) : Prop where
  finished : ¬ temporary.toList <:+ file.toList
  stem : IsStem file (name.toList ++ separator :: text)
  named : name ≠ ""
  last : separator ∉ text

/-- The file is an artifact of the map `name` with the id. -/
def Names (file name : String) (id : MapId) : Prop :=
  ∃ text, Splits file name text ∧ Denotes text id.toNat

/-- The file is an artifact whose id is no number of 32 bits. -/
def Malformed (file : String) : Prop :=
  ∃ name text, Splits file name text ∧ ∀ n ≤ maxU32, ¬ Denotes text n

theorem isStem_iff {stem : List Char} :
    IsStem file stem ↔ (dropEnding extension.toList file.toList).getD file.toList = stem := by
  unfold IsStem
  cases found : dropEnding extension.toList file.toList with
  | none =>
    have bare := dropEnding_eq_none.1 found
    constructor
    · rintro (ends | ⟨-, rfl⟩)
      · exact absurd ⟨stem, ends.symm⟩ bare
      · rfl
    · rintro rfl
      exact .inr ⟨bare, rfl⟩
  | some short =>
    have ends := dropEnding_eq_some.1 found
    constructor
    · rintro (ends' | ⟨bare, -⟩)
      · exact List.append_cancel_right (ends.symm.trans ends')
      · exact absurd ⟨short, ends.symm⟩ bare
    · rintro rfl
      exact .inl ends

/-- Every file name is foreign or can be split. -/
theorem foreign_or_splits (file : String) : Foreign file ∨ ∃ name text, Splits file name text := by
  by_cases ends : temporary.toList <:+ file.toList
  · exact .inl (.inl ends)
  generalize shape : (dropEnding extension.toList file.toList).getD file.toList = stem
  have isStem := isStem_iff.2 shape
  cases found : splitLast separator stem with
  | none => exact .inl (.inr ⟨stem, isStem, .inl (splitLast_eq_none.1 found)⟩)
  | some parts =>
    obtain ⟨front, text⟩ := parts
    obtain ⟨rfl, last⟩ := splitLast_eq_some.1 found
    cases front with
    | nil => exact .inl (.inr ⟨_, isStem, .inr ⟨text, rfl, last⟩⟩)
    | cons first rest =>
      refine .inr ⟨String.ofList (first :: rest), text, ends, ?_, ?_, last⟩
      · rwa [String.toList_ofList]
      · simp

/-! ## The reader -/

theorem parse_of_foreign (h : Foreign file) : parse file = .ok none := by
  unfold parse
  split
  · rfl
  · rename_i finished
    rcases h with ends | ⟨stem, isStem, short⟩
    · rw [Option.not_isSome_iff_eq_none, dropEnding_eq_none] at finished
      exact absurd ends finished
    · simp only [isStem_iff.1 isStem]
      rcases short with none | ⟨text, rfl, last⟩
      · simp only [splitLast_of_not_mem none]
      · simp only [splitLast_eq_some.2 ⟨(List.nil_append _).symm, last⟩]

/-- A file name that can be split is read as the text of its id is. -/
theorem parse_of_splits (h : Splits file name text) :
    parse file = match parseNat maxU32 (String.ofList text) with
      | .ok n => .ok (some (name, UInt32.ofNat n))
      | .error cause => .error (.invalidMapId file cause) := by
  obtain ⟨finished, isStem, named, last⟩ := h
  unfold parse
  rw [dropEnding_eq_none.2 finished]
  simp only [isStem_iff.1 isStem, splitLast_append last, Option.isSome_none, Bool.false_eq_true,
    if_false]
  cases chars : name.toList with
  | nil => exact absurd (String.toList_eq_nil_iff.1 chars) named
  | cons first rest =>
    have whole : String.ofList (first :: rest) = name := by rw [← chars, String.ofList_toList]
    cases parsed : parseNat maxU32 (String.ofList text) with
    | ok n => simp only [parsed, whole]
    | error cause => simp only [parsed]

theorem parse_of_names (h : Names file name id) : parse file = .ok (some (name, id)) := by
  obtain ⟨text, splits, denotes⟩ := h
  have small : id.toNat ≤ maxU32 := Nat.le_of_lt_succ id.toNat_lt
  have read : parseNat maxU32 (String.ofList text) = .ok id.toNat :=
    parseNat_eq_ok.2 ⟨by rwa [String.toList_ofList], small⟩
  rw [parse_of_splits splits, read]
  simp only [UInt32.ofNat_toNat]

theorem parse_of_malformed (h : Malformed file) :
    ∃ cause, parse file = .error (.invalidMapId file cause) := by
  obtain ⟨name, text, splits, none⟩ := h
  rw [parse_of_splits splits]
  cases read : parseNat maxU32 (String.ofList text) with
  | error cause => exact ⟨cause, rfl⟩
  | ok n =>
    obtain ⟨denotes, small⟩ := parseNat_eq_ok.1 read
    rw [String.toList_ofList] at denotes
    exact absurd denotes (none n small)

/-- A file name is foreign, or an artifact's, or malformed. -/
theorem foreign_or_names_or_malformed (file : String) :
    Foreign file ∨ (∃ name id, Names file name id) ∨ Malformed file := by
  obtain foreign | ⟨name, text, splits⟩ := foreign_or_splits file
  · exact .inl foreign
  by_cases number : ∃ n ≤ maxU32, Denotes text n
  · obtain ⟨n, small, denotes⟩ := number
    refine .inr (.inl ⟨name, UInt32.ofNat n, text, splits, ?_⟩)
    rwa [UInt32.toNat_ofNat_of_lt' (Nat.lt_succ_of_le small)]
  · exact .inr (.inr ⟨name, text, splits, fun n small denotes => number ⟨n, small, denotes⟩⟩)

/-- Just the foreign names are passed over. -/
theorem parse_eq_none : parse file = .ok none ↔ Foreign file := by
  refine ⟨fun h => ?_, parse_of_foreign⟩
  obtain foreign | ⟨name, id, names⟩ | malformed := foreign_or_names_or_malformed file
  · exact foreign
  · rw [parse_of_names names] at h
    cases h
  · obtain ⟨cause, refused⟩ := parse_of_malformed malformed
    rw [refused] at h
    cases h

/-- Just the artifacts are read, each as the grammar splits it. -/
theorem parse_eq_some : parse file = .ok (some (name, id)) ↔ Names file name id := by
  refine ⟨fun h => ?_, parse_of_names⟩
  obtain foreign | ⟨name', id', names⟩ | malformed := foreign_or_names_or_malformed file
  · rw [parse_of_foreign foreign] at h
    cases h
  · rw [parse_of_names names] at h
    cases h
    exact names
  · obtain ⟨cause, refused⟩ := parse_of_malformed malformed
    rw [refused] at h
    cases h

/-- Just the malformed names are refused, and the error says which. -/
theorem parse_eq_error {cause : StoreError} (h : parse file = .error cause) :
    Malformed file ∧ ∃ fault, cause = .invalidMapId file fault := by
  obtain foreign | ⟨name, id, names⟩ | malformed := foreign_or_names_or_malformed file
  · rw [parse_of_foreign foreign] at h
    cases h
  · rw [parse_of_names names] at h
    cases h
  · obtain ⟨fault, refused⟩ := parse_of_malformed malformed
    rw [refused] at h
    cases h
    exact ⟨malformed, fault, rfl⟩

/-- **File names are read by exactly their grammar.** Foreign names are passed
over, artifacts are read as the grammar splits them, and just the malformed are
refused, with an error that names the file. What `fileName` writes for a name
that is not empty is read back, so no two maps share an artifact, and none has
the name of a file half written.

A name that a map may have survives recovery: a directory with nothing but the
artifacts of such names and files half written can be recovered from, and
wherever one of them has an artifact, it has an id afterwards, that of its
artifact or a higher one that it also has an artifact with. -/
theorem read_by_grammar :
    (∀ file, parse file = .ok none ↔ Foreign file) ∧
    (∀ file name id, parse file = .ok (some (name, id)) ↔ Names file name id) ∧
    (∀ file, (∃ fault, parse file = .error (.invalidMapId file fault)) ↔ Malformed file) ∧
    (∀ file cause, parse file = .error cause → ∃ fault, cause = .invalidMapId file fault) ∧
    (∀ name id, name ≠ "" → parse (fileName name id) = .ok (some (name, id))) ∧
    (∀ name name' id id', fileName name id = fileName name' id' → name = name' ∧ id = id') ∧
    (∀ name id file, fileName name id ≠ MapFile.temporaryPath file) ∧
    (∀ policy files, (∀ file ∈ files, IsKept file) → ∃ ids, MapIds.recover policy files = .ok ids) ∧
    (∀ policy files ids, MapIds.recover policy files = .ok ids → ∀ name id,
      checkName name = .ok () → fileName name id ∈ files →
      ∃ id', ids.get? name = some id' ∧ id ≤ id' ∧ ∃ file ∈ files, Names file name id') := by
  refine ⟨fun _ => parse_eq_none, fun _ _ _ => parse_eq_some, fun file => ⟨?_, parse_of_malformed⟩,
    fun file cause h => (parse_eq_error h).2, fun name id proper => parse_fileName_of_ne proper id,
    fun _ _ _ _ => fileName_inj, fileName_ne_temporaryPath,
    fun policy _ => MapIds.recover_kept policy,
    fun policy files ids recovered name id accepted mem => ?_⟩
  · rintro ⟨fault, refused⟩
    exact (parse_eq_error refused).1
  · have recovers := MapIds.recovers_of_recover recovered
    obtain ⟨id', got, le⟩ :=
      recovers.known _ mem name id (parse_fileName (valid_of_checkName accepted) id)
    refine ⟨id', got, le, ?_⟩
    obtain early | ⟨file, there, parsed⟩ := recovers.found name id' got
    · cases early
    · exact ⟨file, there, parse_eq_some.1 parsed⟩

/-- A name with hyphens is read back, and a map that has an artifact is known
after a recovery, here with the id of a later artifact. -/
theorem bills_read :
    parse (fileName "a-2-b" 7) = .ok (some ("a-2-b", 7)) ∧
    ∃ ids, MapIds.recover .abort [fileName "bills" 9, fileName "bills" 4] = .ok ids ∧
      ∃ id, ids.get? "bills" = some id ∧ 4 ≤ id := by
  obtain ⟨-, -, -, -, back, -, -, recovered, known⟩ := read_by_grammar
  have accepted : checkName "bills" = .ok () := rfl
  have kept : ∀ file ∈ [fileName "bills" 9, fileName "bills" 4], IsKept file := by
    intro file mem
    have valid := valid_of_checkName accepted
    rcases List.mem_cons.1 mem with rfl | mem
    · exact .inl ⟨"bills", 9, valid, rfl⟩
    · obtain rfl := List.mem_singleton.1 mem
      exact .inl ⟨"bills", 4, valid, rfl⟩
  obtain ⟨ids, ended⟩ := recovered .abort _ kept
  obtain ⟨id, got, le, -⟩ := known .abort _ ids ended "bills" 4 accepted (by simp)
  exact ⟨back "a-2-b" 7 (by decide), ids, ended, id, got, le⟩

end Artifact

end MapStore
