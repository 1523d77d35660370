/-
MapStore.Proofs.ArtifactNames — an artifact's name tells the map and its id.

The name of an artifact is read back to the map's name and the id, whatever
the name is (`parse_fileName_of_ne`): the digits of the id have no hyphen, so
the last hyphen is the one that was put between them. So different maps and ids
have different artifacts (`fileName_inj`). The name of a file half written is
no artifact's.
-/
import MapStore.Artifact
import MapStore.Proofs.Directory

namespace MapStore

namespace Text.Numeral

open Nat (ofDigitChars toDigits)

variable {limit value : Nat} {beyond : Error} {digits : List Char}

theorem le_ofDigitChars (digits : List Char) (value : Nat) :
    value ≤ ofDigitChars 10 digits value := by
  induction digits generalizing value with
  | nil => simp
  | cons c rest ih =>
    rw [Nat.ofDigitChars_cons]
    have later := ih (10 * value + (c.toNat - '0'.toNat))
    omega

/-- Digits whose number is within the limit are read to their number. -/
theorem readDigits_digits (all : ∀ c ∈ digits, c.isDigit = true)
    (small : ofDigitChars 10 digits value ≤ limit) :
    readDigits limit beyond value digits = .ok (ofDigitChars 10 digits value) := by
  induction digits generalizing value with
  | nil => simp [readDigits]
  | cons c rest ih =>
    have digit : '0' ≤ c ∧ c ≤ '9' := by
      have := all c (List.mem_cons_self ..)
      simpa [Char.isDigit, Char.le_def] using this
    rw [Nat.ofDigitChars_cons, Nat.mul_comm] at small ⊢
    have within := le_ofDigitChars rest (value * 10 + (c.toNat - '0'.toNat))
    simp only [readDigits, if_pos digit]
    rw [if_neg (by omega)]
    exact ih (fun x hx => all x (List.mem_cons_of_mem _ hx)) small

/-- A number within the limit is read back from its digits. -/
theorem parseNat_toDigits {n : Nat} (small : n ≤ limit) :
    parseNat limit (String.ofList (toDigits 10 n)) = .ok n := by
  have all : ∀ c ∈ toDigits 10 n, c.isDigit = true := fun c hc =>
    Nat.isDigit_of_mem_toDigits (by decide) (by decide) hc
  have number : ofDigitChars 10 (toDigits 10 n) 0 = n := Nat.ofDigitChars_ten_toDigits
  unfold parseNat
  rw [String.toList_ofList]
  cases shape : toDigits 10 n with
  | nil => exact absurd shape Nat.toDigits_ne_nil
  | cons c rest =>
    rw [shape] at all number
    have noSign : c ≠ '+' := by
      rintro rfl
      have := all '+' (List.mem_cons_self ..)
      revert this
      decide
    split
    · rename_i impossible
      cases impossible
    · rename_i sign
      cases sign
      exact absurd rfl noSign
    · unfold readMagnitude
      simp only
      rw [readDigits_digits all (by omega), number]

end Text.Numeral

namespace Artifact

variable {c : Char} {before after : List Char} {name : String} {id : MapId}

theorem splitLast_of_not_mem (h : c ∉ after) : splitLast c after = none := by
  induction after with
  | nil => rfl
  | cons x rest ih =>
    rw [List.mem_cons, not_or] at h
    simp [splitLast, ih h.2, Ne.symm h.1]

/-- The last separator is the one with none behind it. -/
theorem splitLast_append (h : c ∉ after) :
    splitLast c (before ++ c :: after) = some (before, after) := by
  induction before with
  | nil => simp [splitLast, splitLast_of_not_mem h]
  | cons x rest ih => simp [splitLast, ih]

theorem dropEnding_append (text ending : List Char) :
    dropEnding ending (text ++ ending) = some text := by
  unfold dropEnding
  rw [if_pos (List.isSuffixOf_iff_suffix.2 (List.suffix_append text ending))]
  simp

/-- The characters of an artifact's name. -/
theorem toList_fileName (name : String) (id : MapId) :
    (fileName name id).toList =
      name.toList ++ separator :: Nat.toDigits 10 id.toNat ++ extension.toList := by
  unfold fileName
  simp [String.toList_append, Nat.toString_eq_repr, Nat.toList_repr]

/-- The digits of an id have no hyphen and no slash. -/
theorem not_mem_digits (n : Nat) (h : c.isDigit = false) : c ∉ Nat.toDigits 10 n := by
  intro mem
  have digit := Nat.isDigit_of_mem_toDigits (by decide) (by decide) mem
  rw [h] at digit
  cases digit

theorem valid_of_checkName (h : checkName name = .ok ()) : isValidName name = true := by
  unfold checkName at h
  split at h
  · assumption
  · cases h

/-- What a valid name has not. -/
theorem of_isValidName (h : isValidName name = true) :
    name ≠ "" ∧ separator ∉ name.toList ∧ '/' ∉ name.toList ∧ name.toList.head? ≠ some '.' := by
  unfold isValidName at h
  cases chars : name.toList with
  | nil => simp [chars] at h
  | cons first rest =>
    simp only [chars, Bool.and_eq_true, List.all_eq_true, bne_iff_ne, ne_eq] at h
    obtain ⟨noDot, each⟩ := h
    refine ⟨?_, fun mem => ?_, fun mem => ?_, by simpa using noDot⟩
    · rintro rfl
      cases chars
    · exact (each _ mem).1.1 rfl
    · exact (each _ mem).1.2 rfl

/-- A number is a name. -/
theorem isValidName_repr (n : Nat) : isValidName n.repr = true := by
  have digits : ∀ {c : Char}, c ∈ n.repr.toList → ∀ d : Char, d.isDigit = false → c ≠ d := by
    rintro c mem d other rfl
    exact not_mem_digits n other (Nat.toList_repr ▸ mem)
  unfold isValidName
  cases chars : n.repr.toList with
  | nil => exact absurd (Nat.toList_repr.symm.trans chars) Nat.toDigits_ne_nil
  | cons first rest =>
    rw [chars] at digits
    have noDot := digits (List.mem_cons_self ..) '.' rfl
    simp only [Bool.and_eq_true, bne_iff_ne, ne_eq, noDot, not_false_iff, true_and,
      List.all_eq_true]
    exact fun c mem => ⟨⟨digits mem _ rfl, digits mem _ rfl⟩, digits mem _ rfl⟩

/-- The name of an artifact is a name in a directory. -/
theorem isPlain_fileName (h : isValidName name = true) (id : MapId) :
    Disk.IsPlain (fileName name id) := by
  obtain ⟨proper, -, noSlash, -⟩ := of_isValidName h
  have chars := toList_fileName name id
  have other : ∀ short : String, short.toList.length < 4 → fileName name id ≠ short := by
    rintro short few rfl
    rw [chars] at few
    have ending : extension.toList.length = 3 := by decide
    simp only [List.length_append, List.length_cons, ending] at few
    omega
  refine ⟨other "" (by decide), other "." (by decide), other ".." (by decide), ?_⟩
  rw [chars, List.mem_append, List.mem_append, List.mem_cons]
  rintro ((inName | sep | inDigits) | inEnding)
  · exact noSlash inName
  · revert sep
    decide
  · exact not_mem_digits _ (by decide) inDigits
  · revert inEnding
    decide

/-- The name of a file half written is no artifact's. -/
theorem parse_temporaryPath (file : String) : parse (MapFile.temporaryPath file) = .ok none := by
  unfold parse MapFile.temporaryPath
  rw [String.toList_append, dropEnding_append]
  rfl

/-- The name of an artifact is not that of a file half written. -/
theorem not_temporary_fileName (name : String) (id : MapId) :
    ¬ temporary.toList <:+ (fileName name id).toList := by
  rw [toList_fileName]
  rintro ⟨start, eq⟩
  have last := congrArg List.getLast? eq
  rw [List.getLast?_append, List.getLast?_append] at last
  revert last
  simp [temporary, extension]

/-- The name of an artifact is read back to the map's name and its id, with
hyphens in the map's name as well. -/
theorem parse_fileName_of_ne (proper : name ≠ "") (id : MapId) :
    parse (fileName name id) = .ok (some (name, id)) := by
  have whole : (dropEnding temporary.toList (fileName name id).toList).isSome = false := by
    unfold dropEnding
    rw [if_neg]
    · rfl
    · rw [List.isSuffixOf_iff_suffix]
      exact not_temporary_fileName name id
  have id_lt : id.toNat ≤ Text.Numeral.maxU32 := by
    have := id.toNat_lt
    simp only [Text.Numeral.maxU32]
    omega
  unfold parse
  rw [whole]
  simp only [Bool.false_eq_true, if_false]
  rw [toList_fileName, dropEnding_append, Option.getD_some,
    splitLast_append (not_mem_digits _ (by decide))]
  cases chars : name.toList with
  | nil => exact absurd (String.toList_eq_nil_iff.1 chars) proper
  | cons first rest =>
    simp only [Text.Numeral.parseNat_toDigits id_lt, ← chars, String.ofList_toList,
      UInt32.ofNat_toNat]

/-- The name of the artifact of a valid name is read back. -/
theorem parse_fileName (h : isValidName name = true) (id : MapId) :
    parse (fileName name id) = .ok (some (name, id)) :=
  parse_fileName_of_ne (of_isValidName h).1 id

/-- Different names and ids have different artifacts: the last hyphen is the
one before the id. -/
theorem fileName_inj {name' : String} {id' : MapId}
    (same : fileName name id = fileName name' id') : name = name' ∧ id = id' := by
  have chars := congrArg String.toList same
  rw [toList_fileName, toList_fileName] at chars
  have split := congrArg (splitLast separator) (List.append_cancel_right chars)
  rw [splitLast_append (not_mem_digits _ (by decide)),
    splitLast_append (not_mem_digits _ (by decide))] at split
  obtain ⟨names, digits⟩ := Prod.mk.inj (Option.some.inj split)
  have values := congrArg (Nat.ofDigitChars 10 · 0) digits
  simp only [Nat.ofDigitChars_ten_toDigits] at values
  exact ⟨String.toList_inj.1 names, UInt32.toNat_inj.1 values⟩

/-- No artifact has the name of a file half written. -/
theorem fileName_ne_temporaryPath (name : String) (id : MapId) (file : String) :
    fileName name id ≠ MapFile.temporaryPath file := by
  intro same
  apply not_temporary_fileName name id
  rw [same]
  unfold MapFile.temporaryPath
  rw [String.toList_append]
  exact List.suffix_append file.toList temporary.toList

end Artifact

end MapStore
