/-
MapStore.Proofs.NumberOrder — the built-in orders, and encoded numbers in them.

The orders of byte strings, of texts and of numbers are total on all byte strings,
encodings or not (`MapStore.Proofs.KeyOrders`). For the order of numbers there is
more to say: on encodings it is the order of the numbers.

Two facts lead there. On byte strings of one length the lexicographic order is the
order of the numbers that they denote, most significant byte first
(`Bytes.compare_of_length`). And the first byte of an encoding, read with its sign,
is the number divided by 2^56 and rounded down (`sign_encode`): numbers that differ
in it stand as their first bytes do, and numbers that agree in it have the same
sign, so that they stand as their words do.
-/
import Mathlib.Algebra.Group.Int.Defs
import Mathlib.Algebra.Group.Nat.Defs
import MapStore.Proofs.Framing
import MapStore.Proofs.KeyOrders

namespace MapStore

/-- Pairs that stand in the same way compare alike. -/
theorem compareOfLessAndEq_congr {α β : Type} [LT α] [DecidableLT α] [DecidableEq α] [LT β]
    [DecidableLT β] [DecidableEq β] {a b : α} {x y : β} (less : a < b ↔ x < y)
    (same : a = b ↔ x = y) : compareOfLessAndEq a b = compareOfLessAndEq x y := by
  simp only [compareOfLessAndEq, less, same]

/-! ## Byte strings of one length -/

namespace Bytes

theorem toNatLE_append (first rest : Bytes) :
    toNatLE (first ++ rest) = toNatLE first + capacity first.length * toNatLE rest := by
  induction first with
  | nil => simp [toNatLE, capacity]
  | cons b first ih =>
    rw [List.cons_append, toNatLE, ih, toNatLE, List.length_cons, capacity, Nat.mul_add,
      Nat.mul_assoc, Nat.add_assoc]

/-- The first byte counts most. -/
theorem toNatBE_cons (b : UInt8) (rest : Bytes) :
    toNatBE (b :: rest) = b.toNat * capacity rest.length + toNatBE rest := by
  rw [toNatBE, List.reverse_cons, toNatLE_append, List.length_reverse, toNatBE]
  rw [toNatLE, toNatLE, Nat.mul_zero, Nat.add_zero, Nat.add_comm, Nat.mul_comm]

/-- Byte strings of one length stand in the order of the numbers that they
denote. -/
theorem compare_of_length {a b : Bytes} (length : a.length = b.length) :
    compare a b = Ord.compare (toNatBE a) (toNatBE b) := by
  induction a generalizing b with
  | nil =>
    cases b with
    | nil => rfl
    | cons y ys => simp at length
  | cons x xs ih =>
    cases b with
    | nil => simp at length
    | cons y ys =>
      have length' : xs.length = ys.length := by simpa using length
      have low : toNatBE xs < capacity ys.length := toNatBE_lt length'
      have low' : toNatBE ys < capacity ys.length := toNatBE_lt rfl
      rw [compare, toNatBE_cons, toNatBE_cons, length', ih length']
      -- a first byte that is one larger outweighs all that follow it
      by_cases less : x < y
      · have step : (x.toNat + 1) * capacity ys.length ≤ y.toNat * capacity ys.length :=
          Nat.mul_le_mul_right _ (UInt8.lt_iff_toNat_lt.1 less)
        rw [Nat.add_mul, Nat.one_mul] at step
        rw [if_pos less, eq_comm, Nat.compare_eq_lt]
        omega
      by_cases more : y < x
      · have step : (y.toNat + 1) * capacity ys.length ≤ x.toNat * capacity ys.length :=
          Nat.mul_le_mul_right _ (UInt8.lt_iff_toNat_lt.1 more)
        rw [Nat.add_mul, Nat.one_mul] at step
        rw [if_neg less, if_pos more, eq_comm, Nat.compare_eq_gt]
        omega
      have same : x.toNat = y.toNat := by
        rw [UInt8.lt_iff_toNat_lt] at less more
        omega
      rw [if_neg less, if_neg more, same]
      exact compareOfLessAndEq_congr (by omega) (by omega)

end Bytes

/-! ## Encoded numbers -/

namespace DataType.Long

/-- The number of a word is the word, or is negative and 2^64 less. -/
theorem toInt_eq (n : Int64) : n.toInt =
    if n.toUInt64.toNat < 2 ^ 63 then (n.toUInt64.toNat : Int)
    else n.toUInt64.toNat - 2 ^ 64 := by
  show n.toUInt64.toBitVec.toInt = _
  rw [BitVec.toInt_eq_toNat_cond]
  show (if 2 * n.toUInt64.toNat < 2 ^ 64 then (n.toUInt64.toNat : Int)
    else n.toUInt64.toNat - (2 ^ 64 : Nat)) = _
  split <;> split <;> omega

/-- The same of a byte. -/
theorem toInt_sign (b : UInt8) :
    (sign b).toInt = if b.toNat < 128 then (b.toNat : Int) else b.toNat - 256 := by
  show b.toBitVec.toInt = _
  rw [BitVec.toInt_eq_toNat_cond]
  show (if 2 * b.toNat < 2 ^ 8 then (b.toNat : Int) else b.toNat - (2 ^ 8 : Nat)) = _
  split <;> split <;> omega

theorem length_encode (n : Int64) : (encode n).length = 8 := Bytes.length_ofNatBE 8 _

/-- The bytes of an encoding denote the word. -/
theorem toNatBE_encode (n : Int64) : Bytes.toNatBE (encode n) = n.toUInt64.toNat := by
  have fits : n.toUInt64.toNat < Bytes.capacity width := n.toUInt64.toNat_lt
  rw [encode, Bytes.toNatBE_ofNatBE, Nat.mod_eq_of_lt fits]

/-- The sign byte of an encoding is the number divided by 2^56, rounded down. -/
theorem sign_encode (n : Int64) :
    ∃ b rest, encode n = b :: rest ∧ (sign b).toInt = n.toInt / 2 ^ 56 := by
  have denotes := toNatBE_encode n
  have length := length_encode n
  cases bytes : encode n with
  | nil => simp [bytes] at length
  | cons b rest =>
    have length' : rest.length = 7 := by simpa [bytes] using length
    have low : Bytes.toNatBE rest < 2 ^ 56 := Bytes.toNatBE_lt length'
    have weight : Bytes.capacity 7 = 2 ^ 56 := rfl
    rw [bytes, Bytes.toNatBE_cons, length', weight] at denotes
    refine ⟨b, rest, rfl, ?_⟩
    rw [toInt_sign, toInt_eq]
    split <;> split <;> omega

/-- Encodings stand in the order of the numbers. -/
theorem compare_encode (a b : Int64) :
    Long.compare (encode a) (encode b) = Ord.compare a.toInt b.toInt := by
  have words : Bytes.compare (encode a) (encode b) =
      Ord.compare a.toUInt64.toNat b.toUInt64.toNat := by
    rw [Bytes.compare_of_length ((length_encode a).trans (length_encode b).symm),
      toNatBE_encode, toNatBE_encode]
  obtain ⟨x, xs, bytes, high⟩ := sign_encode a
  obtain ⟨y, ys, bytes', high'⟩ := sign_encode b
  have signs : Ord.compare (sign x) (sign y) =
      Ord.compare (a.toInt / 2 ^ 56) (b.toInt / 2 ^ 56) := by
    rw [← high, ← high']
    exact compareOfLessAndEq_congr Int8.lt_iff_toInt_lt Int8.toInt_inj.symm
  have order : Long.compare (encode a) (encode b) =
      (Ord.compare (sign x) (sign y)).then (Bytes.compare (encode a) (encode b)) := by
    rw [bytes, bytes']
    rfl
  rw [order, signs, words]
  rcases Int.lt_trichotomy (a.toInt / 2 ^ 56) (b.toInt / 2 ^ 56) with less | same | more
  · have below : a.toInt < b.toInt := by omega
    rw [Int.compare_eq_lt.2 less, Int.compare_eq_lt.2 below]
    rfl
  · -- with equal first bytes the signs are equal, and the words differ as the numbers do
    rw [Int.compare_eq_eq.2 same]
    show Ord.compare a.toUInt64.toNat b.toUInt64.toNat = _
    have word := toInt_eq a
    have word' := toInt_eq b
    have small := a.toUInt64.toNat_lt
    have small' := b.toUInt64.toNat_lt
    exact compareOfLessAndEq_congr (by split at word <;> split at word' <;> omega)
      (by split at word <;> split at word' <;> omega)
  · have above : b.toInt < a.toInt := by omega
    rw [Int.compare_eq_gt.2 more, Int.compare_eq_gt.2 above]
    rfl

/-- What decodes to a number is its encoding, and nothing else is. -/
theorem decode?_eq_some {encoded : Bytes} {n : Int64} :
    decode? encoded = some n ↔ encoded = encode n := by
  unfold decode?
  constructor
  · intro decoded
    split at decoded
    · rename_i length
      cases decoded
      have fits : Bytes.toNatBE encoded < 2 ^ 64 := Bytes.toNatBE_lt length
      have word : (UInt64.ofNat (Bytes.toNatBE encoded)).toInt64.toUInt64.toNat =
          Bytes.toNatBE encoded := by
        rw [UInt64.toUInt64_toInt64, UInt64.toNat_ofNat_of_lt' fits]
      rw [encode, word, Bytes.ofNatBE_toNatBE length]
    · cases decoded
  · rintro rfl
    have length : (encode n).length = width := length_encode n
    rw [if_pos length, toNatBE_encode, UInt64.ofNat_toNat, Int64.toInt64_toUInt64]

end DataType.Long

/-! ## The built-in orders -/

namespace DataType

/-- **The built-in orders are sound.** The comparison of byte strings, of texts and
of numbers is a total order of all byte strings, encodings or not: exchanging the
two sides reverses the answer, it is transitive, and it says that two keys are equal
just if they are identical.

Encoded numbers stand in the order of the numbers, each is read back from its
encoding and from nothing else, and the empty byte string stands before every
other. -/
theorem orders_are_total :
    (∀ type ∈ [bytes, string, long], ∀ a b c : Bytes,
      type.compare b a = (type.compare a b).swap ∧
      ((type.compare a b).isLE → (type.compare b c).isLE → (type.compare a c).isLE) ∧
      (type.compare a b = .eq ↔ a = b)) ∧
    (∀ a b : Int64, long.compare (Long.encode a) (Long.encode b) = Ord.compare a.toInt b.toInt) ∧
    (∀ encoded n, Long.decode? encoded = some n ↔ encoded = Long.encode n) ∧
    (∀ key, key ≠ [] → long.compare [] key = .lt) := by
  refine ⟨?_, Long.compare_encode, fun _ _ => Long.decode?_eq_some, ?_⟩
  · intro type mem a b c
    obtain ⟨trans, lawful⟩ := lawful_of_mem mem
    exact ⟨Std.OrientedCmp.eq_swap, Std.TransCmp.isLE_trans, Std.LawfulEqCmp.compare_eq_iff_eq⟩
  · intro key some
    cases key with
    | nil => exact absurd rfl some
    | cons b rest => rfl

/-- Keys that encode no number: the empty byte string, a negative first byte and
two longer ones. -/
theorem malformed_keys_are_ordered :
    long ∈ [bytes, string, long] ∧
    (long.compare [0x80, 1] [0xff]).isLE ∧ (long.compare [0xff] [0x7f, 0, 0]).isLE ∧
    (long.compare [0x80, 1] [0x7f, 0, 0]).isLE ∧
    [(0x80 : UInt8), 1] ≠ [] ∧ long.compare [] [0x80, 1] = .lt := by
  have mem : long ∈ [bytes, string, long] := by simp
  have some : [(0x80 : UInt8), 1] ≠ [] := by decide
  have first : (long.compare [0x80, 1] [0xff]).isLE := by decide
  have second : (long.compare [0xff] [0x7f, 0, 0]).isLE := by decide
  obtain ⟨total, -, -, empty⟩ := orders_are_total
  exact ⟨mem, first, second, (total long mem _ _ _).2.1 first second, some, empty _ some⟩

end DataType

end MapStore
