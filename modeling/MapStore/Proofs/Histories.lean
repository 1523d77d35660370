/-
MapStore.Proofs.Histories — what a table has is told by what was asked of it.

Three things are kept for a key, and each comes from a different call. The value
is that of the last insert of the key, or of an equal one (`Holds`); the spelling
is that of the insert which made the entry, when the key had no value, and stays
as long as there is one (`Created`); and what takes the entry out may spell the
key in a third way. Both are said here in terms of the calls and the order of
keys alone, without any table.

One more call changes a table (`get?_after`, `key?_after`) as it changes what is
said of the calls (`holds_concat`, `created_concat`). So a table agrees with the
calls that led to it, by induction from the last one, and the main theorem
(`TableCall.entries_follow_the_calls`) reads the list of entries off the two.
-/
import Mathlib.Data.List.Induction
import MapStore.Proofs.KeyOrders
import MapStore.Proofs.Table

namespace MapStore

/-! ## Calls -/

/-- What is asked of a table, besides reading it. -/
inductive TableCall (κ α : Type) where
  | insert (key : κ) (value : α)
  | erase (key : κ)
  | eraseIf (key : κ) (test : α → Bool)
  | clear

namespace TableCall

open SortedTable

variable {κ α : Type}

/-- The table after the call. -/
def after (t : SortedTable κ α) : TableCall κ α → SortedTable κ α
  | insert key value => (t.insert key value).2
  | erase key => (t.erase key).2
  | eraseIf key test => (t.eraseIf key test).2
  | clear => t.clear

/-- The table after all the calls. -/
def runAll (t : SortedTable κ α) (calls : List (TableCall κ α)) : SortedTable κ α :=
  calls.foldl after t

@[simp] theorem runAll_nil (t : SortedTable κ α) : runAll t [] = t := rfl

@[simp] theorem runAll_concat (t : SortedTable κ α) (calls : List (TableCall κ α))
    (call : TableCall κ α) : runAll t (calls ++ [call]) = call.after (runAll t calls) := by
  simp [runAll]

/-! ## What the calls say of a key -/

section

variable (order : κ → κ → Ordering)

/-- The call gives a value to `key`, under this or an equal key. -/
def Puts (key : κ) : TableCall κ α → Prop
  | insert other _ => order other key = .eq
  | erase _ | eraseIf .. | clear => False

/-- The call takes out the entry of `key`, whose value is `value`. -/
def Removes (key : κ) (value : α) : TableCall κ α → Prop
  | insert .. => False
  | erase other => order other key = .eq
  | eraseIf other test => order other key = .eq ∧ test value = true
  | clear => True

/-- The call is of `key`, or an equal key, or of all keys. -/
def Concerns (key : κ) : TableCall κ α → Prop
  | insert other _ | erase other | eraseIf other _ => order other key = .eq
  | clear => True

/-- The last value that the calls give to `key` is `value`, and none after that one
takes it out. -/
def Holds (calls : List (TableCall κ α)) (key : κ) (value : α) : Prop :=
  ∃ before other later, calls = before ++ insert other value :: later ∧ order other key = .eq ∧
    ∀ call ∈ later, ¬ call.Puts order key ∧ ¬ call.Removes order key value

/-- One of the calls inserts `kept` when it has no value, and from then on it
always has one. -/
def Created (calls : List (TableCall κ α)) (kept : κ) : Prop :=
  ∃ before value later, calls = before ++ insert kept value :: later ∧
    (∀ old, ¬ Holds order before kept old) ∧
    ∀ first, first <+: later → ∃ now, Holds order (before ++ insert kept value :: first) kept now

end

section

variable {order : κ → κ → Ordering} {calls : List (TableCall κ α)} {call : TableCall κ α}
  {key kept : κ} {value : α}

theorem not_holds_nil : ¬ Holds order ([] : List (TableCall κ α)) key value := by
  rintro ⟨before, other, later, split, -⟩
  simp at split

theorem not_created_nil : ¬ Created order ([] : List (TableCall κ α)) kept := by
  rintro ⟨before, value, later, split, -⟩
  simp at split

/-- Calls with one more at the end split at that one, or at one before it. -/
theorem concat_eq_iff {one : TableCall κ α} {before later : List (TableCall κ α)} :
    calls ++ [call] = before ++ one :: later ↔
      (calls = before ∧ call = one ∧ later = []) ∨
        ∃ rest, later = rest ++ [call] ∧ calls = before ++ one :: rest := by
  rcases List.eq_nil_or_concat' later with rfl | ⟨rest, last, rfl⟩
  · simp
  · rw [← List.cons_append, ← List.append_assoc, List.append_singleton_inj]
    constructor
    · rintro ⟨rfl, rfl⟩
      exact .inr ⟨rest, rfl, rfl⟩
    · rintro (⟨-, -, nil⟩ | ⟨rest', split, rfl⟩)
      · simp at nil
      · obtain ⟨rfl, rfl⟩ := List.append_singleton_inj.1 split
        exact ⟨rfl, rfl⟩

/-- One more call gives the key its value, or leaves the one that it has. -/
theorem holds_concat :
    Holds order (calls ++ [call]) key value ↔
      (∃ other, call = insert other value ∧ order other key = .eq) ∨
        Holds order calls key value ∧ ¬ call.Puts order key ∧ ¬ call.Removes order key value := by
  constructor
  · rintro ⟨before, other, later, split, same, spared⟩
    rcases concat_eq_iff.1 split with ⟨-, rfl, -⟩ | ⟨rest, rfl, rfl⟩
    · exact .inl ⟨other, rfl, same⟩
    · have last := spared call (by simp)
      exact .inr ⟨⟨before, other, rest, rfl, same, fun c hc => spared c (by simp [hc])⟩, last⟩
  · rintro (⟨other, rfl, same⟩ | ⟨⟨before, other, later, rfl, same, spared⟩, last⟩)
    · exact ⟨calls, other, [], rfl, same, by simp⟩
    · refine ⟨before, other, later ++ [call], by simp, same, ?_⟩
      intro c hc
      rcases List.mem_append.1 hc with hc | hc
      · exact spared c hc
      · rwa [List.mem_singleton.1 hc]

variable [Std.TransCmp order]

/-- One more call makes an entry for the key, or leaves the spelling of the one
that there is, as long as the key has a value. -/
theorem created_concat :
    Created order (calls ++ [call]) kept ↔
      (∃ value, call = insert kept value ∧ ∀ old, ¬ Holds order calls kept old) ∨
        Created order calls kept ∧ ∃ now, Holds order (calls ++ [call]) kept now := by
  constructor
  · rintro ⟨before, value, later, split, fresh, lasts⟩
    rcases concat_eq_iff.1 split with ⟨rfl, rfl, -⟩ | ⟨rest, rfl, rfl⟩
    · exact .inl ⟨value, rfl, fresh⟩
    · refine .inr ⟨⟨before, value, rest, rfl, fresh, ?_⟩, ?_⟩
      · intro first within
        exact lasts first (within.trans (List.prefix_append ..))
      · rw [split]
        exact lasts (rest ++ [call]) (List.prefix_refl _)
  · rintro (⟨value, rfl, fresh⟩ | ⟨⟨before, value, later, rfl, fresh, lasts⟩, now⟩)
    · refine ⟨calls, value, [], rfl, fresh, ?_⟩
      intro first within
      rw [List.prefix_nil.1 within]
      exact ⟨value, holds_concat.2 (.inl ⟨kept, rfl, Std.ReflCmp.compare_self⟩)⟩
    · refine ⟨before, value, later ++ [call], by simp, fresh, ?_⟩
      intro first within
      rcases List.prefix_concat_iff.1 within with rfl | within
      · simpa using now
      · exact lasts first within

end

/-! ## What a call does to a table -/

section

variable (t : SortedTable κ α)

/-- A removal with a test is one without, or nothing. -/
theorem after_eraseIf (key : κ) (test : α → Bool) :
    (eraseIf key test).after t =
      if (t.get? key).any test then (erase key).after t else t := by
  simp only [after, SortedTable.eraseIf]
  cases t.get? key with
  | none => rfl
  | some value => cases h : test value <;> simp [h]

@[simp] theorem order_after (call : TableCall κ α) : (call.after t).order = t.order := by
  cases call with
  | eraseIf key test =>
    rw [after_eraseIf]
    split <;> rfl
  | insert _ _ | erase _ | clear => rfl

variable [lawful : Std.TransCmp t.order]

instance (call : TableCall κ α) : Std.TransCmp (call.after t).order :=
  (order_after t call).symm ▸ lawful

/-- What the value of a key is after a call. -/
theorem get?_after (call : TableCall κ α) (key : κ) (value : α) :
    (call.after t).get? key = some value ↔
      (∃ other, call = insert other value ∧ t.order other key = .eq) ∨
        t.get? key = some value ∧ ¬ call.Puts t.order key ∧
          ¬ call.Removes t.order key value := by
  cases call with
  | insert other new =>
    rw [after, get?_insert]
    by_cases same : t.order other key = .eq <;> simp [Puts, Removes, same]
  | erase other =>
    rw [after, get?_erase]
    by_cases same : t.order other key = .eq <;> simp [Puts, Removes, same]
  | eraseIf other test =>
    rw [after_eraseIf]
    by_cases same : t.order other key = .eq
    · -- the value that is tested is that of `key`
      rw [get?_congr t same]
      cases found : t.get? key with
      | none => simp [found]
      | some old =>
        by_cases passes : test old = true
        · have goes : old = value → test value = true := by
            rintro rfl
            exact passes
          simpa [after, get?_erase, same, passes, Puts, Removes] using goes
        · have stays : old = value → test value = false := by
            rintro rfl
            simpa using passes
          simpa [same, found, passes, Puts, Removes] using stays
    · have kept : ((erase other).after t).get? key = t.get? key := by
        rw [after, get?_erase, if_neg same]
      split <;> simp [kept, Puts, Removes, same]
  | clear => simp [after, SortedTable.clear, Removes]

/-- What the spelling of a key is after a call. -/
theorem key?_after (call : TableCall κ α) (kept : κ) :
    (call.after t).key? kept = some kept ↔
      (∃ value, call = insert kept value ∧ t.get? kept = none) ∨
        t.key? kept = some kept ∧ ((call.after t).get? kept).isSome := by
  -- a key is spelled only while it has a value
  have there : t.key? kept = some kept → (t.get? kept).isSome = true := by
    intro spelled
    rw [← isSome_key?, spelled]
    rfl
  have erased (other : κ) : ((erase other).after t).key? kept = some kept ↔
      t.key? kept = some kept ∧ (((erase other).after t).get? kept).isSome := by
    rw [after, key?_erase, get?_erase]
    by_cases same : t.order other kept = .eq
    · simp [same]
    · simpa [same] using there
  cases call with
  | insert other new =>
    rw [after, key?_insert, get?_insert]
    by_cases same : t.order other kept = .eq
    · rw [if_pos same, if_pos same, keptKey_eq_getD t same]
      cases spelled : t.key? kept with
      | none =>
        have absent := (key?_eq_none_iff t kept).1 spelled
        simp [absent]
      | some first =>
        have found : t.get? kept ≠ none := by
          rw [Ne, ← key?_eq_none_iff, spelled]
          simp
        simp [found]
    · have other_ne : other ≠ kept := by
        rintro rfl
        exact same Std.ReflCmp.compare_self
      simpa [same, other_ne] using there
  | erase other => simpa using erased other
  | eraseIf other test =>
    rw [after_eraseIf]
    split
    · simpa using erased other
    · simpa using there
  | clear => simp [after, SortedTable.clear]

/-- A call leaves alone what it does not concern. -/
theorem after_others {call : TableCall κ α} {key : κ} (other : ¬ call.Concerns t.order key) :
    (call.after t).get? key = t.get? key ∧ (call.after t).key? key = t.key? key := by
  have erased (taken : κ) (ne : t.order taken key ≠ .eq) :
      ((erase taken).after t).get? key = t.get? key ∧
        ((erase taken).after t).key? key = t.key? key := by
    rw [after, get?_erase, key?_erase, if_neg ne, if_neg ne]
    exact ⟨rfl, rfl⟩
  cases call with
  | insert new value =>
    have ne : t.order new key ≠ .eq := other
    rw [after, get?_insert, key?_insert, if_neg ne, if_neg ne]
    exact ⟨rfl, rfl⟩
  | erase taken => exact erased taken other
  | eraseIf taken test =>
    rw [after_eraseIf]
    split
    · exact erased taken other
    · exact ⟨rfl, rfl⟩
  | clear => exact absurd trivial other

end

/-! ## What calls lead to -/

section

variable (order : κ → κ → Ordering)

@[simp] theorem order_runAll (t : SortedTable κ α) (calls : List (TableCall κ α)) :
    (runAll t calls).order = t.order := by
  induction calls using List.reverseRecOn with
  | nil => rfl
  | append_singleton calls call ih => simp [ih]

/-- A table made from entries is one that inserts lead to. -/
theorem ofList_eq_runAll (entries : List (κ × α)) :
    ofList order entries = runAll (.empty order) (entries.map fun e => insert e.1 e.2) := by
  rw [runAll, List.foldl_map]
  rfl

variable [Std.TransCmp order]

instance (calls : List (TableCall κ α)) : Std.TransCmp (runAll (.empty order) calls).order := by
  rw [order_runAll]
  infer_instance

/-- The value of a key is the last one that it was given and not taken out since. -/
theorem get?_runAll (calls : List (TableCall κ α)) (key : κ) (value : α) :
    (runAll (.empty order) calls).get? key = some value ↔ Holds order calls key value := by
  induction calls using List.reverseRecOn with
  | nil => simp [not_holds_nil]
  | append_singleton calls call ih =>
    rw [runAll_concat, get?_after, holds_concat, ih, order_runAll]
    rfl

/-- A key is spelled as in the insert that made its entry. -/
theorem key?_runAll (calls : List (TableCall κ α)) (kept : κ) :
    (runAll (.empty order) calls).key? kept = some kept ↔ Created order calls kept := by
  induction calls using List.reverseRecOn with
  | nil => simp [not_created_nil]
  | append_singleton calls call ih =>
    have now := get?_runAll order (calls ++ [call]) kept
    rw [runAll_concat] at now
    rw [runAll_concat, key?_after, created_concat, ih, Option.eq_none_iff_forall_ne_some,
      Option.isSome_iff_exists]
    simp only [ne_eq, get?_runAll, now]

end

/-- **A table is a finite map of keys up to equality.** Take any order of keys that is
transitive and consistent, and any calls of a new table. In the table they lead to

* the entries are listed in strictly ascending order, no two with equal keys;
* a look-up, whatever the spelling, finds the last value that the key was given, if
  it was not taken out since, and otherwise nothing;
* an entry is listed with that value, under the spelling of the insert that made it;
* an insert and a removal answer what a look-up before them finds, a removal with a
  test only if it passes;
* no further call changes the value or the entry of a key that it does not concern.

The list of the table makes a table with the same entries. Any list of entries makes
one that inserts lead to, in which each key has the last of its values in the list,
under the first of its spellings. -/
theorem entries_follow_the_calls (order : κ → κ → Ordering) [Std.TransCmp order]
    (calls : List (TableCall κ α)) :
    let t := runAll (.empty order) calls
    (t.toList.Pairwise fun a b => order a.1 b.1 = .lt) ∧
    (∀ a ∈ t.toList, ∀ b ∈ t.toList, order a.1 b.1 = .eq → a = b) ∧
    (∀ key value, t.get? key = some value ↔ Holds order calls key value) ∧
    (∀ kept value, (kept, value) ∈ t.toList ↔
      Created order calls kept ∧ Holds order calls kept value) ∧
    (∀ key value, (t.insert key value).1 = t.get? key) ∧
    (∀ key, (t.erase key).1 = t.get? key) ∧
    (∀ key test, (t.eraseIf key test).1 = (t.get? key).filter test) ∧
    (∀ (call : TableCall κ α) key, ¬ call.Concerns order key →
      (call.after t).get? key = t.get? key ∧
      ∀ value, (key, value) ∈ (call.after t).toList ↔ (key, value) ∈ t.toList) ∧
    Same (ofList order t.toList) t ∧
    ∀ entries : List (κ × α),
      ofList order entries =
        runAll (.empty order) (entries.map fun e => insert e.1 e.2) ∧
      (∀ key, (ofList order entries).get? key = last? order entries key) ∧
      ∀ kept value, (kept, value) ∈ (ofList order entries).toList ↔
        firstKey? order entries kept = some kept ∧ last? order entries kept = some value := by
  intro t
  have same_order : t.order = order := order_runAll _ calls
  have ascending := pairwise_toList t
  rw [same_order] at ascending
  refine ⟨ascending, ?_, get?_runAll order calls, ?_, t.insert_answer, t.erase_answer,
    t.eraseIf_answer, ?_, ?_, ?_⟩
  · intro a mem b mem' same
    rw [← same_order] at same
    exact eq_of_mem_toList t mem mem' same
  · intro kept value
    rw [mem_toList, key?_runAll, get?_runAll]
  · intro call key other
    rw [← same_order] at other
    obtain ⟨value, spelling⟩ := after_others t other
    refine ⟨value, ?_⟩
    intro v
    rw [mem_toList, mem_toList, value, spelling]
  · have same := same_ofList_toList t
    rwa [same_order] at same
  · intro entries
    refine ⟨ofList_eq_runAll order entries, get?_ofList order entries, ?_⟩
    intro kept value
    exact mem_toList_ofList order entries

/-- Keys are equal if they differ only in the bit that tells the case of a letter. -/
abbrev caseless : Bytes → Bytes → Ordering := compareOn (List.map (· ||| 0x20))

/-- A key is inserted as `Ab`, given another value as `aB`, and asked to be removed
as `AB` if it has the first value; `c` is inserted, removed as `C`, and inserted as
`C`. -/
def respelledCalls : List (TableCall Bytes Nat) :=
  [.insert [0x41, 0x62] 1, .insert [0x63] 2, .insert [0x61, 0x42] 3,
    .eraseIf [0x41, 0x42] (· == 1), .erase [0x43], .insert [0x43] 4]

theorem respelled_entries_follow :
    (Created caseless respelledCalls [0x41, 0x62] ∧ Holds caseless respelledCalls [0x41, 0x62] 3) ∧
    (Created caseless respelledCalls [0x43] ∧ Holds caseless respelledCalls [0x43] 4) ∧
    ¬ Created caseless respelledCalls [0x63] := by
  obtain ⟨-, -, values, listed, -⟩ := entries_follow_the_calls caseless respelledCalls
  refine ⟨(listed _ _).1 (by decide +kernel), (listed _ _).1 (by decide +kernel), ?_⟩
  intro created
  have held : Holds caseless respelledCalls [0x63] 4 := (values _ _).1 (by decide +kernel)
  exact absurd ((listed _ _).2 ⟨created, held⟩) (by decide +kernel)

end TableCall

end MapStore
