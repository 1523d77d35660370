/-
MapStore.Proofs.Draining — what waits in a buffer while a merge goes on.

A merge works on a copy of the slots, and writes may arrive at any moment
before it is done. `Waiting` is what the buffer has to do with the copy then:
a key that was written meanwhile has the last such write, numbered later than
every copied slot; any other key has the copied slot if that is still to be
merged, and no slot otherwise. A write that arrives keeps this, whichever key
it is to (`Waiting.insert`), and so does dropping a merged slot by its number
(`Waiting.drop`): the slot goes if nothing arrived for its key, and stays if
something did.

So a reader finds the backing with the slots that are still to be merged and
then the writes that arrived (`Waiting.get?_overTable`), at every moment.
-/
import MapStore.Proofs.Overlay

namespace MapStore

/-! ## What writes are answered -/

namespace PlainMap

/-- The values that the changes find, each after those before it. -/
def answersTo (t : SortedTable Bytes Bytes) : List (Bytes × Change) → List (Option Bytes)
  | [] => []
  | c :: rest => t.get? c.1 :: answersTo (change t c.1 c.2).2 rest

theorem answersTo_append (t : SortedTable Bytes Bytes) (first rest : List (Bytes × Change)) :
    answersTo t (first ++ rest) = answersTo t first ++ answersTo (changeAll t first) rest := by
  induction first generalizing t with
  | nil => rfl
  | cons c first ih =>
    rw [List.cons_append, answersTo, ih, answersTo, changeAll_cons, List.cons_append]

/-- Tables that answer every look-up alike answer changes alike. -/
theorem answersTo_congr {t u : SortedTable Bytes Bytes} [Std.TransCmp t.order]
    (order : t.order = u.order) (agree : ∀ key, t.get? key = u.get? key)
    (changes : List (Bytes × Change)) : answersTo t changes = answersTo u changes := by
  induction changes generalizing t u with
  | nil => rfl
  | cons c rest ih =>
    have lawful : Std.TransCmp u.order := order ▸ inferInstance
    rw [answersTo, answersTo, agree]
    refine congrArg _ (ih ?_ fun key => ?_)
    · rw [order_change, order_change, order]
    · rw [get?_change, get?_change, order, agree]

end PlainMap

/-! ## Copied slots -/

namespace WriteBuffer

open PlainMap (changeAll change)
open SortedTable (last?)

/-- The changes of the slots. -/
def changesOf (slots : List (Bytes × Slot)) : List (Bytes × Change) :=
  slots.map fun s => (s.1, s.2.change)

/-- The buffer after the changes, buffered from left to right. -/
def insertAll (w : WriteBuffer) (changes : List (Bytes × Change)) : WriteBuffer :=
  changes.foldl (fun w c => (w.insert c.1 c.2).2) w

theorem insertAll_cons (w : WriteBuffer) (c : Bytes × Change) (rest : List (Bytes × Change)) :
    w.insertAll (c :: rest) = (w.insert c.1 c.2).2.insertAll rest := rfl

/-- A buffer in which the slots `left` are those still to be merged of a copy
made when `since` was the last number, and the changes `arrived` came after. -/
structure Waiting (w : WriteBuffer) (since : Nat) (left : List (Bytes × Slot))
    (arrived : List (Bytes × Change)) : Prop where
  later : since ≤ w.lastSeq
  numbered : ∀ entry ∈ left, entry.2.seq ≤ since
  ascending : left.Pairwise fun a b => w.slots.order a.1 b.1 = .lt
  rewritten : ∀ key c, last? w.slots.order arrived key = some c →
    ∃ n, since < n ∧ w.slots.get? key = some ⟨c, n⟩
  copied : ∀ key, last? w.slots.order arrived key = none →
    w.slots.get? key = last? w.slots.order left key

/-- When a copy is made all of it is to be merged and nothing has arrived. -/
theorem waiting_snapshot (w : WriteBuffer) [Std.TransCmp w.slots.order] (sound : w.Sound) :
    w.Waiting w.lastSeq w.snapshot [] where
  later := Nat.le_refl _
  numbered := by
    rintro ⟨key, slot⟩ mem
    exact sound key slot ((SortedTable.mem_toList _).1 mem).2
  ascending := SortedTable.pairwise_toList w.slots
  rewritten key c arrived := by cases arrived
  copied key _ := (SortedTable.last?_toList w.slots key).symm

namespace Waiting

variable {w : WriteBuffer} {since : Nat} {key : Bytes} {slot : Slot}
  {left : List (Bytes × Slot)} {arrived : List (Bytes × Change)}

/-- A key has the last change that arrived for it, or else the one copied. -/
theorem get? (h : w.Waiting since left arrived) (key : Bytes) :
    w.get? key = (last? w.slots.order arrived key).or
      (last? w.slots.order (changesOf left) key) := by
  rw [WriteBuffer.get?, changesOf, SortedTable.last?_map]
  cases there : last? w.slots.order arrived key with
  | none => rw [h.copied key there, Option.none_or]
  | some c =>
    obtain ⟨n, -, found⟩ := h.rewritten key c there
    rw [found]
    rfl

/-- Once nothing is left to be merged the slots are those of the changes that
arrived. -/
theorem get?_of_nil (h : w.Waiting since [] arrived) (key : Bytes) :
    w.get? key = last? w.slots.order arrived key := by
  rw [h.get?]
  exact Option.or_none

variable [Std.TransCmp w.slots.order]

/-- A reader finds the table with what is left of the copy, and then with what
arrived. -/
theorem get?_overTable (h : w.Waiting since left arrived) (t : SortedTable Bytes Bytes)
    (order : w.slots.order = t.order) (key : Bytes) :
    (w.overTable t).get? key =
      (changeAll (changeAll t (changesOf left)) arrived).get? key := by
  have lawful : Std.TransCmp t.order := order ▸ inferInstance
  have lawful' : Std.TransCmp (changeAll t (changesOf left)).order := by
    rw [PlainMap.order_changeAll]
    infer_instance
  rw [WriteBuffer.get?_overTable w t order, h.get?, PlainMap.get?_changeAll,
    PlainMap.order_changeAll, PlainMap.get?_changeAll, order]
  cases last? t.order arrived key <;> rfl

/-- A write that arrives. -/
theorem insert (h : w.Waiting since left arrived) (key : Bytes) (c : Change) :
    (w.insert key c).2.Waiting since left (arrived ++ [(key, c)]) where
  later := Nat.le_succ_of_le h.later
  numbered := h.numbered
  ascending := h.ascending
  rewritten other c' last := by
    rw [slot_insert]
    rw [order_slots_insert, SortedTable.last?_append, SortedTable.last?_singleton] at last
    by_cases same : w.slots.order key other = .eq
    · rw [if_pos same] at last ⊢
      cases last
      exact ⟨_, Nat.lt_succ_of_le h.later, rfl⟩
    · rw [if_neg same] at last ⊢
      exact h.rewritten other c' last
  copied other none := by
    rw [slot_insert]
    rw [order_slots_insert, SortedTable.last?_append, SortedTable.last?_singleton] at none
    by_cases same : w.slots.order key other = .eq
    · rw [if_pos same] at none
      cases none
    · rw [if_neg same] at none ⊢
      exact h.copied other none

theorem insertAll (h : w.Waiting since left arrived) (changes : List (Bytes × Change)) :
    (w.insertAll changes).Waiting since left (arrived ++ changes) := by
  induction changes generalizing w arrived with
  | nil =>
    rw [List.append_nil]
    exact h
  | cons c rest ih =>
    have lawful : Std.TransCmp (w.insert c.1 c.2).2.slots.order := ‹Std.TransCmp w.slots.order›
    rw [insertAll_cons, ← List.singleton_append, ← List.append_assoc]
    exact ih (h.insert c.1 c.2)

/-- No other slot that is left has the key of the first. -/
theorem last?_tail (h : w.Waiting since ((key, slot) :: left) arrived) {other : Bytes}
    (same : w.slots.order key other = .eq) : last? w.slots.order left other = none := by
  refine SortedTable.last?_eq_none_iff.2 fun entry mem same' => ?_
  have less : w.slots.order key entry.1 = .lt := (List.pairwise_cons.1 h.ascending).1 entry mem
  rw [Std.TransCmp.congr_right same', same] at less
  cases less

/-- The first slot that is left is dropped if nothing arrived for its key, and
stays as it is otherwise. -/
theorem drop (h : w.Waiting since ((key, slot) :: left) arrived) :
    (w.eraseUnchanged key slot.seq).1 = (last? w.slots.order arrived key).isNone ∧
      (w.eraseUnchanged key slot.seq).2.Waiting since left arrived := by
  have ascending := (List.pairwise_cons.1 h.ascending).2
  have numbered : ∀ entry ∈ left, entry.2.seq ≤ since :=
    fun entry mem => h.numbered entry (List.mem_cons_of_mem _ mem)
  cases there : last? w.slots.order arrived key with
  | some c =>
    obtain ⟨n, newer, found⟩ := h.rewritten key c there
    have old : slot.seq ≤ since := h.numbered _ (List.mem_cons_self ..)
    rw [eraseUnchanged_of_ne w found (show n ≠ slot.seq by omega)]
    refine ⟨rfl, h.later, numbered, ascending, h.rewritten, fun other none => ?_⟩
    rw [h.copied other none, SortedTable.last?_cons, if_neg, Option.or_none]
    intro same
    rw [SortedTable.last?_congr arrived same, none] at there
    cases there
  | none =>
    have found : w.slots.get? key = some slot := by
      rw [h.copied key there, SortedTable.last?_cons, h.last?_tail Std.ReflCmp.compare_self]
      simp [Std.ReflCmp.compare_self]
    obtain ⟨dropped, slots⟩ := eraseUnchanged_of_eq w found
    refine ⟨dropped, ?_, numbered, ?_, fun other c last => ?_, fun other none => ?_⟩
    · rw [lastSeq_eraseUnchanged]
      exact h.later
    · rw [order_slots_eraseUnchanged]
      exact ascending
    · rw [order_slots_eraseUnchanged] at last
      have other' : w.slots.order key other ≠ .eq := by
        intro same
        rw [← SortedTable.last?_congr arrived same, there] at last
        cases last
      rw [slots, SortedTable.get?_erase, if_neg other']
      exact h.rewritten other c last
    · rw [order_slots_eraseUnchanged] at none ⊢
      rw [slots, SortedTable.get?_erase]
      by_cases same : w.slots.order key other = .eq
      · rw [if_pos same, h.last?_tail same]
      · rw [if_neg same, h.copied other none, SortedTable.last?_cons, if_neg same, Option.or_none]

end Waiting

end WriteBuffer

end MapStore
