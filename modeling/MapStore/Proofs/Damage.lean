/-
MapStore.Proofs.Damage — a damaged map file is never taken for a whole one.

Damage is what can befall a file that was written (`Damaged`): it is cut off, or
something is appended to it, or bytes of it are altered, four in a row at most.

The checksum notices any alteration of the payload that is so short. A shift of
the remainder is linear in exclusive or and loses nothing (`shift_injective`), so
remainders that once differ go on differing; and while no more than four bytes are
taken in, none of them has left the remainder yet (`foldl_step_eq`), so after
different bytes it differs. Hence of two byte strings that differ in four bytes in
a row at most, and are otherwise equal, the checksums differ (`crc32_inj`).

The header is noticed field by field, but for the id, which no checksum covers: a
file whose id was altered is a map file, of another map. Between the checksum and
the payload stands the length, eight bytes, so no short alteration reaches both.
What remains is the id, and whoever opens a map compares it with the id asked for.
-/
import MapStore.Proofs.Building
import MapStore.Proofs.Framing
import MapStore.Proofs.Keeping
import Mathlib.Algebra.Group.Nat.Defs

namespace MapStore

/-! ## Remainders -/

namespace Checksum

variable {b c c' : BitVec 32}

theorem shift_xor (b c : BitVec 32) : shift (b ^^^ c) = shift b ^^^ shift c := by
  unfold shift
  simp only [BitVec.getLsbD_xor, BitVec.ushiftRight_xor_distrib]
  cases b.getLsbD 0 with
  | false =>
    cases c.getLsbD 0 with
    | false => simp
    | true => simp [BitVec.xor_assoc]
  | true =>
    cases c.getLsbD 0 with
    | false =>
      simp only [Bool.xor_false, if_true, Bool.false_eq_true, if_false]
      rw [BitVec.xor_assoc, BitVec.xor_comm (c >>> 1), BitVec.xor_assoc]
    | true =>
      simp only [Bool.xor_true, Bool.not_true, Bool.false_eq_true, if_false, if_true]
      rw [BitVec.xor_comm (c >>> 1), BitVec.xor_assoc, ← BitVec.xor_assoc polynomial,
        BitVec.xor_self, BitVec.zero_xor]

theorem shifts_xor (n : Nat) (b c : BitVec 32) :
    shifts n (b ^^^ c) = shifts n b ^^^ shifts n c := by
  induction n generalizing b c with
  | zero => rfl
  | succ n ih => rw [shifts, shift_xor, ih, shifts, shifts]

theorem shifts_add (n k : Nat) (c : BitVec 32) : shifts (n + k) c = shifts k (shifts n c) := by
  induction n generalizing c with
  | zero => rw [Nat.zero_add, shifts]
  | succ n ih => rw [Nat.succ_add, shifts, shifts, ih]

/-- The polynomial has the highest bit, which a remainder that moved on by one bit
has only from it; so nothing but zero is moved on to zero. -/
theorem eq_zero_of_shift (h : shift c = 0#32) : c = 0#32 := by
  have low : c.getLsbD 0 = c.toNat.testBit 0 := rfl
  have half : (c >>> 1).toNat = c.toNat / 2 := by
    rw [BitVec.toNat_ushiftRight, Nat.shiftRight_eq_div_pow, Nat.pow_one]
  have bound := c.isLt
  unfold shift at h
  split at h
  · have same := congrArg BitVec.toNat (BitVec.xor_eq_zero_iff.1 h)
    rw [half, show polynomial.toNat = 0xEDB88320 from rfl] at same
    omega
  · rename_i even
    have zero := congrArg BitVec.toNat h
    rw [half, BitVec.toNat_ofNat, Nat.zero_mod] at zero
    rw [low, Nat.testBit_zero] at even
    apply BitVec.eq_of_toNat_eq
    rw [BitVec.toNat_ofNat, Nat.zero_mod]
    simp only [decide_eq_true_eq] at even
    omega

theorem shift_injective (h : shift c = shift c') : c = c' := by
  rw [← BitVec.xor_eq_zero_iff]
  apply eq_zero_of_shift
  rw [shift_xor, h, BitVec.xor_self]

theorem shifts_injective {n : Nat} (h : shifts n c = shifts n c') : c = c' := by
  induction n generalizing c c' with
  | zero => exact h
  | succ n ih => exact shift_injective (ih h)

/-- Remainders that differ go on differing, whatever bytes are taken in. -/
theorem foldl_step_injective {bytes : Bytes} (h : bytes.foldl step c = bytes.foldl step c') :
    c = c' := by
  induction bytes generalizing c c' with
  | nil => exact h
  | cons b rest ih =>
    have same := shifts_injective (ih h)
    rwa [BitVec.xor_left_inj] at same

/-! ## Four bytes in a row -/

/-- What has not reached the low end is only moved on. -/
theorem shifts_ofNat (n k : Nat) (fits : k * 2 ^ n < 2 ^ 32) :
    shifts n (BitVec.ofNat 32 (k * 2 ^ n)) = BitVec.ofNat 32 k := by
  induction n with
  | zero => simp [shifts]
  | succ n ih =>
    have double : k * 2 ^ (n + 1) = 2 * (k * 2 ^ n) := by
      rw [Nat.pow_succ, Nat.mul_comm (2 ^ n), Nat.mul_left_comm]
    rw [double] at fits ⊢
    have half : shift (BitVec.ofNat 32 (2 * (k * 2 ^ n))) = BitVec.ofNat 32 (k * 2 ^ n) := by
      have even : (BitVec.ofNat 32 (2 * (k * 2 ^ n))).getLsbD 0 = false := by
        rw [BitVec.getLsbD_ofNat, Nat.testBit_zero]
        simp
      rw [shift, even, if_neg nofun]
      apply BitVec.eq_of_toNat_eq
      rw [BitVec.toNat_ushiftRight, BitVec.toNat_ofNat, BitVec.toNat_ofNat,
        Nat.mod_eq_of_lt fits, Nat.mod_eq_of_lt (by omega), Nat.shiftRight_eq_div_pow]
      omega
    rw [shifts, half, ih (by omega)]

/-- A byte and a number above it do not share a bit. -/
theorem ofNat_add (b : UInt8) (n : Nat) :
    BitVec.ofNat 32 (b.toNat + 256 * n) =
      b.toBitVec.setWidth 32 ^^^ BitVec.ofNat 32 (n * 2 ^ 8) := by
  have byte : b.toNat < 2 ^ 8 := b.toNat_lt
  apply BitVec.eq_of_getLsbD_eq
  intro i inside
  have bits : (b.toNat + 256 * n).testBit i =
      if i < 8 then b.toNat.testBit i else n.testBit (i - 8) := by
    rw [Nat.add_comm, show (256 : Nat) = 2 ^ 8 by rfl, Nat.testBit_two_pow_mul_add n byte]
  have above : (n * 2 ^ 8).testBit i = (decide (8 ≤ i) && n.testBit (i - 8)) := by
    rw [Nat.mul_comm, Nat.testBit_two_pow_mul]
  rw [BitVec.getLsbD_xor, BitVec.getLsbD_ofNat, BitVec.getLsbD_ofNat, BitVec.getLsbD_setWidth, bits,
    above]
  show _ = ((decide (i < 32) && b.toNat.testBit i) ^^ _)
  by_cases low : i < 8
  · simp [low, inside, Nat.not_le.2 low]
  · have none : b.toNat.testBit i = false :=
      Nat.testBit_lt_two_pow (Nat.lt_of_lt_of_le byte (Nat.pow_le_pow_right (by decide) (by omega)))
    simp [low, inside, none, Nat.not_lt.1 low]

/-- Up to four bytes are taken in as the number that they denote. -/
theorem foldl_step_eq (bytes : Bytes) (short : bytes.length ≤ 4) (c : BitVec 32) :
    bytes.foldl step c =
      shifts (8 * bytes.length) (c ^^^ BitVec.ofNat 32 (Bytes.toNatLE bytes)) := by
  induction bytes generalizing c with
  | nil => simp [shifts, Bytes.toNatLE]
  | cons b rest ih =>
    rw [List.length_cons] at short
    have fits : Bytes.toNatLE rest * 2 ^ 8 < 2 ^ 32 := by
      have bound := Bytes.toNatLE_lt rest
      have most : Bytes.capacity rest.length ≤ Bytes.capacity 3 :=
        Bytes.capacity_mono (by omega)
      have three : Bytes.capacity 3 = 2 ^ 24 := by decide
      omega
    have later := shifts_ofNat 8 (Bytes.toNatLE rest) fits
    calc
      (b :: rest).foldl step c
          = shifts (8 * rest.length)
              (shifts 8 (c ^^^ b.toBitVec.setWidth 32) ^^^ BitVec.ofNat 32 (Bytes.toNatLE rest)) :=
        ih (by omega) _
      _ = shifts (8 * rest.length) (shifts 8 (c ^^^ b.toBitVec.setWidth 32 ^^^
              BitVec.ofNat 32 (Bytes.toNatLE rest * 2 ^ 8))) := by
        rw [shifts_xor 8 _ (BitVec.ofNat 32 (Bytes.toNatLE rest * 2 ^ 8)), later]
      _ = shifts (8 * (b :: rest).length) (c ^^^ BitVec.ofNat 32 (Bytes.toNatLE (b :: rest))) := by
        rw [Bytes.toNatLE, ofNat_add, ← BitVec.xor_assoc, ← shifts_add, List.length_cons,
          Nat.mul_succ 8 rest.length, Nat.add_comm 8]

/-- Of two strings of up to four bytes each leaves its own remainder. -/
theorem foldl_step_inj {bytes bytes' : Bytes} (short : bytes.length ≤ 4)
    (size : bytes'.length = bytes.length) (same : bytes.foldl step c = bytes'.foldl step c) :
    bytes = bytes' := by
  rw [foldl_step_eq bytes short, foldl_step_eq bytes' (by omega), size] at same
  have number := congrArg BitVec.toNat ((BitVec.xor_right_inj c).1 (shifts_injective same))
  have fits : ∀ bytes : Bytes, bytes.length ≤ 4 → Bytes.toNatLE bytes < 2 ^ 32 := by
    intro bytes short
    have four : Bytes.capacity 4 = 2 ^ 32 := by decide
    exact four ▸ Nat.lt_of_lt_of_le (Bytes.toNatLE_lt bytes) (Bytes.capacity_mono short)
  rw [BitVec.toNat_ofNat, BitVec.toNat_ofNat, Nat.mod_eq_of_lt (fits bytes short),
    Nat.mod_eq_of_lt (fits bytes' (by omega))] at number
  rw [← Bytes.ofNatLE_toNatLE bytes, number, ← size, Bytes.ofNatLE_toNatLE]

/-- The checksum tells apart what differs in four bytes in a row at most. -/
theorem crc32_inj {before window window' after : Bytes} (short : window.length ≤ 4)
    (size : window'.length = window.length)
    (same : crc32 (before ++ window ++ after) = crc32 (before ++ window' ++ after)) :
    window = window' := by
  have remainders := congrArg (~~~ ·) same
  simp only [crc32, BitVec.not_not, List.foldl_append] at remainders
  exact foldl_step_inj short size (foldl_step_injective remainders)

/-- The check value of CRC-32: that of the digits from 1 to 9. -/
example : crc32 [0x31, 0x32, 0x33, 0x34, 0x35, 0x36, 0x37, 0x38, 0x39] = 0xCBF43926#32 := by
  decide +kernel

end Checksum

/-! ## Damaged files -/

/-- What can become of bytes that were written. -/
inductive Damaged (written : Bytes) : Bytes → Prop where
  /-- Some are missing at the end. -/
  | cutOff {kept lost : Bytes} (whole : written = kept ++ lost) (some : lost ≠ []) :
      Damaged written kept
  /-- There are more at the end. -/
  | extended {more : Bytes} (some : more ≠ []) : Damaged written (written ++ more)
  /-- Some are others, and lie within four in a row. -/
  | altered {before window window' after : Bytes} (whole : written = before ++ window ++ after)
      (short : window.length ≤ 4) (size : window'.length = window.length)
      (other : window' ≠ window) : Damaged written (before ++ window' ++ after)

namespace MapFile

variable {id id' : MapId} {payload payload' : Bytes}

/-- Two headers that agree up to the length have the same checksum. -/
theorem crc32_of_header (same : (header id payload).take 14 = (header id' payload').take 14) :
    Checksum.crc32 payload = Checksum.crc32 payload' := by
  have field : ∀ (id : MapId) (payload : Bytes), ((header id payload).take 14).drop 10 =
      Bytes.ofNatBE 4 (Checksum.crc32 payload).toNat := by
    intro id payload
    have front : (magic ++ Bytes.ofNatBE 2 version ++ Bytes.ofNatBE 4 id.toNat).length = 10 := by
      simp [magic]
    rw [header, List.take_left' (by simp [magic]), List.drop_left' front]
  have sums := congrArg (List.drop 10) same
  rw [field, field] at sums
  have capacity : Bytes.capacity 4 = 2 ^ 32 := by decide
  exact BitVec.eq_of_toNat_eq (Bytes.ofNatBE_inj (capacity ▸ (Checksum.crc32 payload).isLt)
    (capacity ▸ (Checksum.crc32 payload').isLt) sums)

/-- The same header is that of payloads of the same length. -/
theorem length_of_header (small : payload.length < Bytes.capacity 8)
    (small' : payload'.length < Bytes.capacity 8) (same : header id payload = header id' payload') :
    payload.length = payload'.length := by
  have field : ∀ (id : MapId) (payload : Bytes), (header id payload).drop 14 =
      Bytes.ofNatBE 8 payload.length := fun id payload => by
    rw [header, List.drop_left' (by simp [magic])]
  have sizes := congrArg (List.drop 14) same
  rw [field, field] at sizes
  exact Bytes.ofNatBE_inj small small' sizes

/-- A header states where its payload ends. -/
theorem nothing_follows {more : Bytes} (small : payload.length < Bytes.capacity 8)
    (small' : payload'.length < Bytes.capacity 8)
    (same : header id payload ++ payload ++ more = header id' payload' ++ payload') :
    more = [] := by
  obtain ⟨headers, payloads⟩ := List.append_inj ((List.append_assoc ..).symm.trans same)
    ((length_header id payload).trans (length_header id' payload').symm)
  have length := length_of_header small small' headers
  rw [← payloads, List.length_append] at length
  exact List.length_eq_zero_iff.1 (by omega)

/-- Of what surrounds and fills a window, what lies behind the header. -/
theorem payload_of_window {before window after : Bytes}
    (whole : header id payload ++ payload = before ++ window ++ after) :
    payload = before.drop headerSize ++ window.drop (headerSize - before.length) ++
      after.drop (headerSize - (before ++ window).length) := by
  have rest := congrArg (List.drop headerSize) whole
  rwa [List.drop_left' (length_header id payload), List.drop_append, List.drop_append] at rest

/-- Two files that differ within four bytes in a row have the same payload. -/
theorem payload_of_altered {before window window' after : Bytes}
    (whole : header id payload ++ payload = before ++ window ++ after)
    (found : header id' payload' ++ payload' = before ++ window' ++ after)
    (short : window.length ≤ 4) (size : window'.length = window.length) : payload' = payload := by
  have own := payload_of_window whole
  have now := payload_of_window found
  rw [List.length_append, size, ← List.length_append] at now
  by_cases far : before.length < 14
  · -- the window ends before the payload
    have out : ∀ w : Bytes, w.length ≤ 4 → w.drop (headerSize - before.length) = [] := fun w le =>
      List.drop_eq_nil_of_le (by rw [headerSize]; omega)
    rw [own, now, out window short, out window' (by omega)]
  · -- the window begins behind the checksum
    have long := length_header id payload
    have long' := length_header id' payload'
    have enough : 14 ≤ headerSize := by decide
    have front : (header id payload).take 14 = (header id' payload').take 14 := by
      have heads := congrArg (List.take 14) whole
      have heads' := congrArg (List.take 14) found
      rw [List.append_assoc, List.take_append_of_le_length (by omega),
        List.take_append_of_le_length (by omega)] at heads heads'
      rw [heads, heads']
    have sums := crc32_of_header front
    rw [own, now] at sums
    have part := Checksum.crc32_inj (by rw [List.length_drop]; omega)
      (by rw [List.length_drop, List.length_drop, size]) sums
    rw [own, now, part]

/-- Where the bytes of a file are a header with its payload although they are
damaged, the payload is the one that was written, of another map. -/
theorem Frames.of_damaged {bytes : Bytes} (small : payload.length < Bytes.capacity 8)
    (damaged : Damaged (header id payload ++ payload) bytes) (h : Frames id' payload' bytes) :
    payload' = payload ∧ id' ≠ id := by
  obtain ⟨rfl, small'⟩ := h
  generalize found : header id' payload' ++ payload' = bytes at damaged
  cases damaged with
  | cutOff whole some =>
    subst found
    exact absurd (nothing_follows small' small whole.symm) some
  | extended some => exact absurd (nothing_follows small small' found.symm) some
  | altered whole short size other =>
    have same := payload_of_altered whole found short size
    refine ⟨same, fun ids => other ?_⟩
    subst same ids
    have equal := found.symm.trans whole
    rw [List.append_assoc, List.append_assoc] at equal
    exact (List.append_inj (List.append_cancel_left equal) size).1

/-- A damaged file is refused as damaged, or read as the same entries of another
map. -/
theorem decode_of_damaged (file : MapFile) {bytes : Bytes}
    (small : (encodePayload file.name file.entries).length < Bytes.capacity 8)
    (damaged : Damaged file.encode bytes) :
    (∃ d, decode bytes = .error (.damage d)) ∨
      ∃ id, id ≠ file.id ∧ decode bytes = .ok { file with id } := by
  obtain refused | ⟨id, payload, frames⟩ := decode_cases bytes
  · exact .inl refused
  · obtain ⟨rfl, other⟩ := frames.of_damaged small damaged
    have read := decodePayload_append file.name file.entries [] small
    rw [List.append_nil] at read
    refine .inr ⟨id, other, ?_⟩
    rw [frames.decode, read]

end MapFile

namespace DirectMap

/-- Damage to an artifact is noticed whenever it is opened. Let a file be written for
a map, with whatever entries, and be cut off, extended, or altered in four bytes in
a row at most, anywhere in it. Then the map is refused as corrupt, by itself and as
the map that an engine opens, and no map comes of it.

The payload is taken to have a length that eight bytes can state. -/
theorem damage_noticed (s : MapSettings) (entries : List (Bytes × Bytes)) (path : String)
    (bytes : Bytes) (t : Store) (keyType valueType : DataType)
    (small : (MapFile.encodePayload s.name entries).length < Bytes.capacity 8)
    (artifact : s.artifactPath = some path)
    (damaged : Damaged (MapFile.encode ⟨s.name, s.id, entries⟩) bytes)
    (there : t.disk.read path = .ok bytes) :
    ∃ reason, load s keyType valueType t.disk = .error (.corruption reason) ∧
      MapHandle.newDirect s keyType valueType t = .error (.error (.corruption reason)) t := by
  have present : t.disk.isPresent path = true := by
    unfold Disk.read at there
    split at there
    · rename_i found
      rw [Disk.isPresent, found]
      rfl
    · cases there
  have loaded : MapFile.load path t.disk =
      (MapFile.decode bytes).mapError (MapFile.Fault.toError path) := by
    rw [MapFile.load, there]
  have refused : ∃ reason, storedEntries s t.disk = .error (.corruption reason) := by
    simp only [storedEntries, artifact, present, if_true, loadEntries, loaded]
    obtain ⟨d, damage⟩ | ⟨id, other, read⟩ :=
      MapFile.decode_of_damaged ⟨s.name, s.id, entries⟩ small damaged
    · rw [damage]
      exact ⟨_, rfl⟩
    · rw [read]
      simp only [Except.mapError]
      rw [if_neg fun own => other own.2]
      exact ⟨_, rfl⟩
  obtain ⟨reason, stored⟩ := refused
  have unloadable : load s keyType valueType t.disk = .error (.corruption reason) :=
    load_of_error stored
  refine ⟨reason, unloadable, ?_⟩
  rw [MapHandle.run_newDirect, unloadable]

/-- The receipt with one byte of its id altered. -/
def forged : Bytes := MapFile.receipt.encode.take 9 ++ [8] ++ MapFile.receipt.encode.drop 10

/-- A store whose disk has the forged receipt where the receipt was. -/
def forgedStore : Store :=
  .onDisk ((Disk.empty.put ["s"] .directory).put ["s", "a-7.db"] (.file forged))

/-- A receipt whose id was altered is refused, by a map with its old id. -/
theorem forged_noticed :
    (settingsIn "a" 7 "s").artifactPath = some "s/a-7.db" ∧
      Damaged MapFile.receipt.encode forged ∧
      forgedStore.disk.read "s/a-7.db" = .ok forged ∧
      ∃ reason, load (settingsIn "a" 7 "s") .bytes .bytes forgedStore.disk =
          .error (.corruption reason) ∧
        MapHandle.newDirect (settingsIn "a" 7 "s") .bytes .bytes forgedStore =
          .error (.error (.corruption reason)) forgedStore := by
  have artifact : (settingsIn "a" 7 "s").artifactPath = some "s/a-7.db" := by decide +kernel
  have whole : MapFile.receipt.encode =
      MapFile.receipt.encode.take 9 ++ [7] ++ MapFile.receipt.encode.drop 10 := by decide +kernel
  have damaged : Damaged MapFile.receipt.encode forged :=
    .altered whole (by decide) rfl (by decide)
  have there : forgedStore.disk.read "s/a-7.db" = .ok forged := by decide +kernel
  have small : (MapFile.encodePayload "a" [([1], [2])]).length < Bytes.capacity 8 := by
    decide +kernel
  exact ⟨artifact, damaged, there, damage_noticed (settingsIn "a" 7 "s") [([1], [2])] "s/a-7.db"
    forged forgedStore .bytes .bytes small artifact damaged there⟩

end DirectMap

end MapStore
