/-
MapStore.Proofs.KeyOrders — the orders of the data types are orders.

The lexicographic order of bytes is the one of the standard library
(`Bytes.compare_eq`), and the order of numbers looks at the sign of the first
byte before it, with the empty byte string first (`Long.compare_eq`). So both
are transitive and consistent, and keys that compare equal are identical.

A caller's own data type need not be so: it may take byte strings for the same
key, and may admit one of them and refuse another. Those that admit keys that
compare equal alike are `Coherent`; `smallLetters` is one that does not.
-/
import MapStore.DataType.Long

namespace MapStore

/-- The order of byte strings is lexicographic. -/
theorem Bytes.compare_eq : Bytes.compare = List.compareLex Ord.compare := by
  funext a b
  induction a generalizing b with
  | nil => cases b <;> rfl
  | cons x xs ih =>
    cases b with
    | nil => rfl
    | cons y ys =>
      rw [Bytes.compare, List.compareLex_cons_cons, ← ih]
      show _ = (compareOfLessAndEq x y).then _
      unfold compareOfLessAndEq
      by_cases less : x < y
      · simp [less]
      by_cases same : x = y
      · simp [same]
      have greater : y < x := by
        rw [UInt8.lt_iff_toNat_lt] at less ⊢
        rw [← UInt8.toNat_inj] at same
        omega
      simp [less, same, greater]

instance : Std.TransCmp Bytes.compare := by
  rw [Bytes.compare_eq]
  infer_instance

instance : Std.LawfulEqCmp Bytes.compare := by
  rw [Bytes.compare_eq]
  infer_instance

namespace DataType.Long

/-- The sign of the first byte, if there is one. -/
def signOf (bytes : Bytes) : Option Int8 := bytes.head?.map sign

/-- The order of numbers looks at the sign first. -/
theorem compare_eq : Long.compare = compareLex (compareOn signOf) Bytes.compare := by
  funext a b
  cases a <;> cases b <;> rfl

instance : Std.TransCmp Long.compare := by
  rw [compare_eq]
  infer_instance

instance : Std.LawfulEqCmp Long.compare where
  compare_self := Std.ReflCmp.compare_self
  eq_of_compare {a b} h := by
    rw [compare_eq, compareLex_eq_eq] at h
    exact Std.LawfulEqCmp.eq_of_compare h.2

end DataType.Long

namespace DataType

/-- Byte strings, texts and numbers have total orders. -/
theorem lawful_of_mem {type : DataType} (mem : type ∈ [bytes, string, long]) :
    Std.TransCmp type.compare ∧ Std.LawfulEqCmp type.compare := by
  have lexicographic : Std.TransCmp Bytes.compare ∧ Std.LawfulEqCmp Bytes.compare :=
    ⟨inferInstance, inferInstance⟩
  have signed : Std.TransCmp Long.compare ∧ Std.LawfulEqCmp Long.compare :=
    ⟨inferInstance, inferInstance⟩
  simp only [List.mem_cons, List.not_mem_nil, or_false] at mem
  rcases mem with rfl | rfl | rfl
  · exact lexicographic
  · exact lexicographic
  · exact signed

/-! ## Spellings of a key -/

/-- Keys that are equal in the order are admitted alike. -/
def Coherent (t : DataType) : Prop :=
  ∀ key other, t.compare key other = .eq → t.validate key = .ok () → t.validate other = .ok ()

/-- In a total order equal keys are the same. -/
theorem coherent_of_lawful (t : DataType) [Std.LawfulEqCmp t.compare] : t.Coherent := by
  intro key other same admitted
  rwa [← Std.LawfulEqCmp.eq_of_compare same]

/-- So they are in the orders of byte strings, of texts and of numbers. -/
theorem coherent_of_mem {t : DataType} (mem : t ∈ [bytes, string, long]) : t.Coherent := by
  have lawful : Std.LawfulEqCmp t.compare := (lawful_of_mem mem).2
  exact t.coherent_of_lawful

/-- The small letter of a capital one. -/
def toSmall (letter : UInt8) : UInt8 :=
  if 65 ≤ letter ∧ letter ≤ 90 then letter + 32 else letter

/-- Words in which capital and small letters count as the same, to be written
in small letters. -/
def smallLetters : DataType where
  name := "small"
  compare a b := Bytes.compare (a.map toSmall) (b.map toSmall)
  validate word := if word.map toSmall = word then .ok () else .error "capital letter"

instance : Std.TransCmp smallLetters.compare :=
  have lexicographic : Std.TransCmp Bytes.compare := inferInstance
  { eq_swap := lexicographic.eq_swap, isLE_trans := lexicographic.isLE_trans }

/-- Of two spellings of a word one may be refused. -/
theorem not_coherent_smallLetters : ¬ smallLetters.Coherent := by
  intro coherent
  have refused := coherent [107] [75] (by decide) rfl
  cases refused

end DataType

end MapStore
