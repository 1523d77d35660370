/-
MapStore.Proofs.Table — sorted tables as finite maps.

A table is looked at in two ways: key by key (`get?`, and `key?` for the
spelling under which it has a key), and as the list of its entries
(`toList`). `Same` says that two tables have the same list; `same_iff` ties
that to the look-ups, so a change is known once it is known key by key, and
`same_insert` and `same_erase` carry it through the two changes.

Two keys that compare equal are one key but may be spelled differently, so
tables that answer alike may still list different bytes: `entries_alike` says
that they list the same keys up to spelling, with the same values. A table that
is made from a list keeps the first spelling of each key and its last value
(`mem_toList_ofList`), and so is rebuilt from its own list
(`same_ofList_toList`).
-/
import Mathlib.Data.List.Forall2
import MapStore.SortedTable

namespace MapStore.SortedTable

variable {κ α : Type}

/-- The spelling under which the table has `key`. -/
def key? (t : SortedTable κ α) (key : κ) : Option κ := t.tree.getKey? key

/-! ## Orders and answers -/

@[simp] theorem order_empty (order : κ → κ → Ordering) :
    (empty order : SortedTable κ α).order = order := rfl

@[simp] theorem order_insert (t : SortedTable κ α) (key : κ) (value : α) :
    (t.insert key value).2.order = t.order := rfl

@[simp] theorem order_erase (t : SortedTable κ α) (key : κ) : (t.erase key).2.order = t.order := rfl

@[simp] theorem insert_answer (t : SortedTable κ α) (key : κ) (value : α) :
    (t.insert key value).1 = t.get? key := rfl

@[simp] theorem erase_answer (t : SortedTable κ α) (key : κ) : (t.erase key).1 = t.get? key := rfl

/-- A removal with a test answers the value of the key if it passes. -/
theorem eraseIf_answer (t : SortedTable κ α) (key : κ) (test : α → Bool) :
    (t.eraseIf key test).1 = (t.get? key).filter test := by
  unfold eraseIf
  cases found : t.get? key with
  | none => rfl
  | some value => cases h : test value <;> simp [Option.filter, h, found]

theorem size_eq_length (t : SortedTable κ α) : t.size = t.toList.length :=
  Std.TreeMap.length_toList.symm

theorem isEmpty_iff (t : SortedTable κ α) : t.isEmpty = true ↔ t.toList = [] := by
  rw [← List.isEmpty_iff]
  exact iff_of_eq (congrArg (· = true) Std.TreeMap.isEmpty_toList.symm)

/-! A change keeps the order, and so what is known of it. -/

instance (order : κ → κ → Ordering) [h : Std.TransCmp order] :
    Std.TransCmp (empty order : SortedTable κ α).order := h

instance (t : SortedTable κ α) [h : Std.TransCmp t.order] (key : κ) (value : α) :
    Std.TransCmp (t.insert key value).2.order := h

instance (t : SortedTable κ α) [h : Std.TransCmp t.order] (key : κ) :
    Std.TransCmp (t.erase key).2.order := h

/-! ## Look-ups -/

section

variable (t : SortedTable κ α) [Std.TransCmp t.order]

@[simp] theorem get?_empty (order : κ → κ → Ordering) [Std.TransCmp order] (key : κ) :
    (empty order : SortedTable κ α).get? key = none :=
  Std.TreeMap.getElem?_emptyc

@[simp] theorem key?_empty (order : κ → κ → Ordering) [Std.TransCmp order] (key : κ) :
    (empty order : SortedTable κ α).key? key = none :=
  Std.TreeMap.getKey?_emptyc

/-- Keys that compare equal are looked up alike. -/
theorem get?_congr {key other : κ} (same : t.order key other = .eq) :
    t.get? key = t.get? other :=
  Std.TreeMap.getElem?_congr same

theorem key?_congr {key other : κ} (same : t.order key other = .eq) :
    t.key? key = t.key? other :=
  Std.TreeMap.getKey?_congr same

/-- The kept spelling is one of the same key. -/
theorem order_of_key? {key kept : κ} (h : t.key? key = some kept) : t.order kept key = .eq := by
  have := Std.TreeMap.compare_getKey?_self (t := t.tree) (k := key)
  rw [key?] at h
  simpa [h] using this

/-- A table has a spelling for exactly the keys it has values for. -/
theorem isSome_key? (key : κ) : (t.key? key).isSome = (t.get? key).isSome := by
  rw [key?, get?, ← Std.TreeMap.contains_eq_isSome_getKey?,
    ← Std.TreeMap.contains_eq_isSome_getElem?]

theorem key?_eq_none_iff (key : κ) : t.key? key = none ↔ t.get? key = none := by
  rw [← Option.not_isSome_iff_eq_none, isSome_key?, Option.not_isSome_iff_eq_none]

/-- A key that the table does not have is kept as it comes. -/
theorem keptKey_of_none {key : κ} (absent : t.get? key = none) : t.keptKey key = key :=
  congrArg (Option.getD · key) ((key?_eq_none_iff t key).2 absent)

/-- The kept spelling is the table's, if it has one for an equal key. -/
theorem keptKey_eq_getD {key other : κ} (same : t.order key other = .eq) :
    t.keptKey key = (t.key? other).getD key := by
  rw [← key?_congr t same]
  rfl

/-- A replaced entry keeps the spelling of the entry it replaces. -/
theorem key?_insert (key other : κ) (value : α) :
    (t.insert key value).2.key? other =
      if t.order key other = .eq then some (t.keptKey key) else t.key? other := by
  show (t.tree.insert (t.keptKey key) value).getKey? other = _
  rw [Std.TreeMap.getKey?_insert, order_keptKey, key?]

theorem key?_erase (key other : κ) :
    (t.erase key).2.key? other = if t.order key other = .eq then none else t.key? other := by
  show (t.tree.erase key).getKey? other = _
  rw [Std.TreeMap.getKey?_erase, key?]

/-- An entry of the list is a key in its own spelling with its value. -/
theorem mem_toList {key : κ} {value : α} :
    (key, value) ∈ t.toList ↔ t.key? key = some key ∧ t.get? key = some value :=
  Std.TreeMap.mem_toList_iff_getKey?_eq_some_and_getElem?_eq_some

/-- No two entries have equal keys. -/
theorem eq_of_mem_toList {a b : κ × α} (mem : a ∈ t.toList) (mem' : b ∈ t.toList)
    (same : t.order a.1 b.1 = .eq) : a = b := by
  obtain ⟨spelled, found⟩ := (mem_toList t).1 mem
  obtain ⟨spelled', found'⟩ := (mem_toList t).1 mem'
  rw [key?_congr t same, spelled'] at spelled
  rw [get?_congr t same, found'] at found
  exact Prod.ext (Option.some.inj spelled).symm (Option.some.inj found).symm

/-- A look-up finds the entry of the list whose key compares equal. -/
theorem get?_eq_some_iff {key : κ} {value : α} :
    t.get? key = some value ↔ ∃ kept, t.order key kept = .eq ∧ (kept, value) ∈ t.toList :=
  Std.TreeMap.getElem?_eq_some_iff_exists_compare_eq_eq_and_mem_toList

/-- The entry of a key is the one that a search of the list finds. -/
theorem find?_toList {key kept : κ} {value : α} :
    t.toList.find? (t.order ·.1 key == .eq) = some (kept, value) ↔
      t.key? key = some kept ∧ t.get? key = some value :=
  Std.TreeMap.find?_toList_eq_some_iff_getKey?_eq_some_and_getElem?_eq_some

end

/-! ## Tables with the same entries -/

/-- The tables have the same order and list the same entries. -/
structure Same (t u : SortedTable κ α) : Prop where
  order : t.order = u.order
  toList : t.toList = u.toList

namespace Same

variable {t u v : SortedTable κ α}

theorem refl (t : SortedTable κ α) : Same t t := ⟨rfl, rfl⟩

theorem symm (h : Same t u) : Same u t := ⟨h.order.symm, h.toList.symm⟩

theorem trans (h : Same t u) (h' : Same u v) : Same t v :=
  ⟨h.order.trans h'.order, h.toList.trans h'.toList⟩

end Same

/-- Tables list the same entries if and only if they answer every look-up
alike, in the spelling too. -/
theorem same_iff {t u : SortedTable κ α} [Std.TransCmp t.order] (order : t.order = u.order) :
    Same t u ↔ (∀ key, t.key? key = u.key? key) ∧ ∀ key, t.get? key = u.get? key := by
  obtain ⟨o, t⟩ := t
  obtain ⟨o', u⟩ := u
  cases order
  have lawful : Std.TransCmp o := ‹_›
  constructor
  · intro h
    have equiv : t.Equiv u := Std.TreeMap.equiv_iff_toList_eq.2 h.toList
    exact ⟨fun _ => equiv.getKey?_eq, fun _ => equiv.getElem?_eq⟩
  · rintro ⟨keys, values⟩
    have equiv : t.Equiv u := by
      refine .of_forall_getKey_eq_of_forall_constGet?_eq (fun key mem mem' => ?_) values
      have spelling : t.getKey? key = u.getKey? key := keys key
      simpa [Std.TreeMap.getKey?_eq_some_getKey, mem, mem'] using spelling
    exact ⟨rfl, Std.TreeMap.equiv_iff_toList_eq.1 equiv⟩

variable {t u : SortedTable κ α} [Std.TransCmp t.order]

theorem Same.get? (h : Same t u) (key : κ) : t.get? key = u.get? key :=
  ((same_iff h.order).1 h).2 key

theorem Same.key? (h : Same t u) (key : κ) : t.key? key = u.key? key :=
  ((same_iff h.order).1 h).1 key

theorem Same.keptKey (h : Same t u) (key : κ) : t.keptKey key = u.keptKey key :=
  congrArg (Option.getD · key) (h.key? key)

/-- Putting the same entry into tables with the same entries. -/
theorem same_insert (h : Same t u) (key : κ) (value : α) :
    Same (t.insert key value).2 (u.insert key value).2 := by
  have : Std.TransCmp u.order := h.order ▸ inferInstance
  have order : (t.insert key value).2.order = (u.insert key value).2.order := h.order
  refine (same_iff order).2 ⟨fun other => ?_, fun other => ?_⟩
  · rw [key?_insert, key?_insert, ← h.order, h.keptKey, h.key?]
  · rw [get?_insert, get?_insert, ← h.order, h.get?]

/-- Taking the same key out of tables with the same entries. -/
theorem same_erase (h : Same t u) (key : κ) : Same (t.erase key).2 (u.erase key).2 := by
  have : Std.TransCmp u.order := h.order ▸ inferInstance
  have order : (t.erase key).2.order = (u.erase key).2.order := h.order
  refine (same_iff order).2 ⟨fun other => ?_, fun other => ?_⟩
  · rw [key?_erase, key?_erase, ← h.order, h.key?]
  · rw [get?_erase, get?_erase, ← h.order, h.get?]

/-! ## Tables and lists -/

/-- Puts the entries into the table from left to right. -/
def insertAll (t : SortedTable κ α) (entries : List (κ × α)) : SortedTable κ α :=
  entries.foldl (fun t entry => (t.insert entry.1 entry.2).2) t

@[simp] theorem order_insertAll (t : SortedTable κ α) (entries : List (κ × α)) :
    (t.insertAll entries).order = t.order := by
  induction entries generalizing t with
  | nil => rfl
  | cons entry rest ih => exact ih _

@[simp] theorem order_ofList (order : κ → κ → Ordering) (entries : List (κ × α)) :
    (ofList order entries).order = order := order_insertAll _ _

/-! ## Ascending lists -/

section

variable {order : κ → κ → Ordering}

/-- In an ascending list no later key is the first key. -/
theorem ne_head {a b : κ × α} {rest : List (κ × α)}
    (ascending : (a :: rest).Pairwise fun a b => order a.1 b.1 = .lt) (mem : b ∈ rest) :
    order a.1 b.1 ≠ .eq := by
  simp [(List.pairwise_cons.1 ascending).1 b mem]

/-- Whether an ascending list has a value for a key. -/
def Lists (order : κ → κ → Ordering) (l : List (κ × α)) (key : κ) (value : α) : Prop :=
  ∃ kept, order key kept = .eq ∧ (kept, value) ∈ l

/-- What a list says of a key other than its first, its tail says too. -/
theorem lists_tail {a : κ × α} {rest : List (κ × α)} {key : κ} {value : α}
    (other : order key a.1 ≠ .eq) :
    Lists order (a :: rest) key value ↔ Lists order rest key value := by
  constructor
  · rintro ⟨kept, same, mem⟩
    rcases List.mem_cons.1 mem with rfl | mem
    · exact absurd same other
    · exact ⟨kept, same, mem⟩
  · rintro ⟨kept, same, mem⟩
    exact ⟨kept, same, List.mem_cons_of_mem _ mem⟩

variable [Std.TransCmp order]

/-- The first entries of two ascending lists that say the same of every key. -/
theorem head_alike {a b : κ × α} {l l' : List (κ × α)}
    (ascending : (a :: l).Pairwise fun a b => order a.1 b.1 = .lt)
    (ascending' : (b :: l').Pairwise fun a b => order a.1 b.1 = .lt)
    (agree : ∀ key value, Lists order (a :: l) key value ↔ Lists order (b :: l') key value) :
    order a.1 b.1 = .eq ∧ a.2 = b.2 := by
  obtain ⟨kept, same, mem⟩ := (agree a.1 a.2).1 ⟨a.1, Std.ReflCmp.compare_self, by simp⟩
  obtain ⟨kept', same', mem'⟩ := (agree b.1 b.2).2 ⟨b.1, Std.ReflCmp.compare_self, by simp⟩
  rcases List.mem_cons.1 mem with rfl | later
  · exact ⟨same, rfl⟩
  · rcases List.mem_cons.1 mem' with rfl | later'
    · have less : order b.1 kept = .lt := (List.pairwise_cons.1 ascending').1 _ later
      have : order b.1 kept = .eq := Std.TransCmp.eq_trans same' same
      simp [less] at this
    · -- each first key would come before the other
      have less : order b.1 a.1 = .lt := by
        rw [Std.TransCmp.congr_right same]
        exact (List.pairwise_cons.1 ascending').1 _ later
      have less' : order a.1 b.1 = .lt := by
        rw [Std.TransCmp.congr_right same']
        exact (List.pairwise_cons.1 ascending).1 _ later'
      exact absurd less' (Std.OrientedCmp.not_lt_of_lt less)

/-- Ascending lists that say the same of every key have the same keys, up to
spelling, with the same values. -/
theorem forall₂_of_lists {l l' : List (κ × α)}
    (ascending : l.Pairwise fun a b => order a.1 b.1 = .lt)
    (ascending' : l'.Pairwise fun a b => order a.1 b.1 = .lt)
    (agree : ∀ key value, Lists order l key value ↔ Lists order l' key value) :
    List.Forall₂ (fun a b => order a.1 b.1 = .eq ∧ a.2 = b.2) l l' := by
  induction l generalizing l' with
  | nil =>
    cases l' with
    | nil => exact .nil
    | cons b l' =>
      obtain ⟨_, _, mem⟩ := (agree b.1 b.2).2 ⟨b.1, Std.ReflCmp.compare_self, by simp⟩
      simp at mem
  | cons a l ih =>
    cases l' with
    | nil =>
      obtain ⟨_, _, mem⟩ := (agree a.1 a.2).1 ⟨a.1, Std.ReflCmp.compare_self, by simp⟩
      simp at mem
    | cons b l' =>
      have first := head_alike ascending ascending' agree
      refine .cons first (ih ascending.of_cons ascending'.of_cons fun key value => ?_)
      by_cases head : order key a.1 = .eq
      · have head' : order key b.1 = .eq := Std.TransCmp.eq_trans head first.1
        constructor
        · rintro ⟨kept, same, mem⟩
          exact absurd (Std.TransCmp.eq_trans (Std.OrientedCmp.eq_symm head) same)
            (ne_head ascending mem)
        · rintro ⟨kept, same, mem⟩
          exact absurd (Std.TransCmp.eq_trans (Std.OrientedCmp.eq_symm head') same)
            (ne_head ascending' mem)
      · have head' : order key b.1 ≠ .eq := fun h =>
          head (Std.TransCmp.eq_trans h (Std.OrientedCmp.eq_symm first.1))
        exact (lists_tail head).symm.trans ((agree key value).trans (lists_tail head'))

end

/-- Tables that answer every look-up alike list the same keys, up to spelling,
with the same values. -/
theorem entries_alike {t u : SortedTable κ α} [Std.TransCmp t.order] (order : t.order = u.order)
    (agree : ∀ key, t.get? key = u.get? key) :
    List.Forall₂ (fun a b => t.order a.1 b.1 = .eq ∧ a.2 = b.2) t.toList u.toList := by
  have lawful : Std.TransCmp u.order := order ▸ inferInstance
  have ascending : u.toList.Pairwise fun a b => t.order a.1 b.1 = .lt := by
    rw [order]; exact pairwise_toList u
  refine forall₂_of_lists (pairwise_toList t) ascending fun key value => ?_
  have left : t.get? key = some value ↔ Lists t.order t.toList key value := get?_eq_some_iff t
  have right : u.get? key = some value ↔ Lists u.order u.toList key value := get?_eq_some_iff u
  rw [← left, order, ← right, agree]

/-- Tables that answer every look-up alike, so that their lists differ at most
in the spelling of keys that compare equal. -/
structure Alike (t u : SortedTable κ α) : Prop where
  get? : ∀ key, t.get? key = u.get? key
  toList : List.Forall₂ (fun a b => t.order a.1 b.1 = .eq ∧ a.2 = b.2) t.toList u.toList

theorem Alike.of_get? {t u : SortedTable κ α} [Std.TransCmp t.order] (order : t.order = u.order)
    (agree : ∀ key, t.get? key = u.get? key) : t.Alike u :=
  ⟨agree, entries_alike order agree⟩

/-- An entry is not before itself. -/
theorem ne_of_lt {order : κ → κ → Ordering} [Std.ReflCmp order] {a b : κ × α}
    (less : order a.1 b.1 = .lt) : a ≠ b := by
  rintro rfl
  simp [Std.ReflCmp.compare_self] at less

/-- Taking out a key leaves the rest of the list. -/
theorem toList_erase_of_eq (t : SortedTable κ α) [Std.TransCmp t.order] {key : κ} {value : α}
    {first rest : List (κ × α)} (h : t.toList = first ++ (key, value) :: rest) :
    (t.erase key).2.toList = first ++ rest := by
  have ascending := pairwise_toList t
  rw [h, List.pairwise_append, List.pairwise_cons] at ascending
  obtain ⟨before, ⟨later, after⟩, across⟩ := ascending
  have mem : ∀ entry, entry ∈ (t.erase key).2.toList ↔ entry ∈ first ++ rest := by
    rintro ⟨k, v⟩
    rw [mem_toList, key?_erase, get?_erase]
    have inside : (k, v) ∈ t.toList ↔ _ := mem_toList t
    rw [h, List.mem_append, List.mem_cons] at inside
    rw [List.mem_append]
    by_cases same : t.order key k = .eq
    · have absent : (k, v) ∉ first := by
        intro mem
        have less := across _ mem _ List.mem_cons_self
        simp [Std.OrientedCmp.eq_symm same] at less
      have absent' : (k, v) ∉ rest := by
        intro mem
        simp [later _ mem] at same
      simp [same, absent, absent']
    · have other : (k, v) ≠ (key, value) := by
        intro eq
        obtain ⟨rfl, rfl⟩ := Prod.mk.inj eq
        exact same Std.ReflCmp.compare_self
      simpa [same, other] using inside.symm
  have ordered : (first ++ rest).Pairwise fun a b => t.order a.1 b.1 = .lt :=
    List.pairwise_append.2
      ⟨before, after, fun a ha b hb => across a ha b (List.mem_cons_of_mem _ hb)⟩
  have perm : (t.erase key).2.toList.Perm (first ++ rest) := by
    refine (List.perm_ext_iff_of_nodup ?_ ?_).2 mem
    · exact (pairwise_toList (t.erase key).2).imp ne_of_lt
    · exact ordered.imp ne_of_lt
  refine perm.eq_of_pairwise ?_ (pairwise_toList (t.erase key).2) ordered
  intro a b _ _ less greater
  rw [order_erase] at less
  exact absurd greater (Std.OrientedCmp.not_lt_of_lt less)

/-- Taking out the first key leaves the others. -/
theorem toList_erase_head (t : SortedTable κ α) [Std.TransCmp t.order] {key : κ} {value : α}
    {rest : List (κ × α)} (h : t.toList = (key, value) :: rest) :
    (t.erase key).2.toList = rest := by
  have split : t.toList = [] ++ (key, value) :: rest := h
  simpa using toList_erase_of_eq t split

/-- A table without entries finds nothing, and only such a table. -/
theorem toList_eq_nil_iff (t : SortedTable κ α) [Std.TransCmp t.order] :
    t.toList = [] ↔ ∀ key, t.get? key = none := by
  constructor
  · intro h key
    rw [Option.eq_none_iff_forall_ne_some]
    intro value found
    obtain ⟨_, _, mem⟩ := (get?_eq_some_iff t).1 found
    simp [h] at mem
  · intro h
    rw [List.eq_nil_iff_forall_not_mem]
    rintro ⟨key, value⟩ mem
    exact absurd ((mem_toList t).1 mem).2 (by simp [h key])

/-! ## The last entry of a key -/

/-- The value of the last of the entries that are of `key`. -/
def last? (order : κ → κ → Ordering) (entries : List (κ × α)) (key : κ) : Option α :=
  (entries.reverse.find? (order ·.1 key == .eq)).map (·.2)

@[simp] theorem last?_nil (order : κ → κ → Ordering) (key : κ) :
    last? order ([] : List (κ × α)) key = none := rfl

theorem last?_append (order : κ → κ → Ordering) (first rest : List (κ × α)) (key : κ) :
    last? order (first ++ rest) key = (last? order rest key).or (last? order first key) := by
  simp only [last?, List.reverse_append, List.find?_append]
  cases List.find? _ rest.reverse <;> rfl

theorem last?_singleton (order : κ → κ → Ordering) (entry : κ × α) (key : κ) :
    last? order [entry] key = if order entry.1 key = .eq then some entry.2 else none := by
  by_cases h : order entry.1 key = .eq <;> simp [last?, h]

theorem last?_cons (order : κ → κ → Ordering) (entry : κ × α) (rest : List (κ × α)) (key : κ) :
    last? order (entry :: rest) key =
      (last? order rest key).or (if order entry.1 key = .eq then some entry.2 else none) := by
  rw [← List.singleton_append, last?_append, last?_singleton]

theorem last?_map {β : Type} (order : κ → κ → Ordering) (f : α → β) (entries : List (κ × α))
    (key : κ) :
    last? order (entries.map fun e => (e.1, f e.2)) key = (last? order entries key).map f := by
  induction entries with
  | nil => rfl
  | cons entry rest ih =>
    rw [List.map_cons, last?_cons, ih, last?_cons]
    cases last? order rest key with
    | some value => rfl
    | none => by_cases h : order entry.1 key = .eq <;> simp [h]

/-- No entry is of the key. -/
theorem last?_eq_none_iff {order : κ → κ → Ordering} {entries : List (κ × α)} {key : κ} :
    last? order entries key = none ↔ ∀ entry ∈ entries, order entry.1 key ≠ .eq := by
  simp [last?, List.find?_eq_none]

/-- Keys that compare equal have the same last entry. -/
theorem last?_congr {order : κ → κ → Ordering} [Std.TransCmp order] (entries : List (κ × α))
    {key other : κ} (same : order key other = .eq) :
    last? order entries key = last? order entries other := by
  induction entries with
  | nil => rfl
  | cons entry rest ih => rw [last?_cons, ih, last?_cons, Std.TransCmp.congr_right same]

/-- In the list of a table the last entry of a key is its only one. -/
theorem last?_toList (t : SortedTable κ α) [Std.TransCmp t.order] (key : κ) :
    last? t.order t.toList key = t.get? key := by
  cases found : t.get? key with
  | none =>
    refine last?_eq_none_iff.2 fun entry mem same => ?_
    rw [(get?_eq_some_iff t).2 ⟨entry.1, Std.OrientedCmp.eq_symm same, mem⟩] at found
    cases found
  | some value =>
    cases last : t.toList.reverse.find? (t.order ·.1 key == .eq) with
    | none =>
      obtain ⟨kept, same, mem⟩ := (get?_eq_some_iff t).1 found
      exact absurd (List.find?_eq_none.1 last _ (List.mem_reverse.2 mem))
        (by simp [Std.OrientedCmp.eq_symm same])
    | some entry =>
      have mem := List.mem_reverse.1 (List.mem_of_find?_eq_some last)
      have same : t.order entry.1 key = .eq := by simpa using List.find?_some last
      rw [(get?_eq_some_iff t).2 ⟨entry.1, Std.OrientedCmp.eq_symm same, mem⟩] at found
      rw [last?, last]
      exact found

/-! ## Tables made from lists -/

/-- The first spelling of `key` among the entries. -/
def firstKey? (order : κ → κ → Ordering) (entries : List (κ × α)) (key : κ) : Option κ :=
  (entries.find? (order ·.1 key == .eq)).map (·.1)

@[simp] theorem firstKey?_nil (order : κ → κ → Ordering) (key : κ) :
    firstKey? order ([] : List (κ × α)) key = none := rfl

theorem firstKey?_cons (order : κ → κ → Ordering) (entry : κ × α) (rest : List (κ × α))
    (key : κ) :
    firstKey? order (entry :: rest) key =
      if order entry.1 key = .eq then some entry.1 else firstKey? order rest key := by
  by_cases h : order entry.1 key = .eq <;> simp [firstKey?, h]

/-- In the list of a table the first entry of a key is its only one. -/
theorem firstKey?_toList (t : SortedTable κ α) [Std.TransCmp t.order] (key : κ) :
    firstKey? t.order t.toList key = t.key? key := by
  cases found : t.toList.find? (t.order ·.1 key == .eq) with
  | some entry =>
    have spelled := ((find?_toList t).1 found).1
    simp [firstKey?, found, spelled]
  | none =>
    have absent : t.key? key = none := by
      rw [key?_eq_none_iff, ← last?_toList, last?_eq_none_iff]
      simpa [List.find?_eq_none] using found
    simp [firstKey?, found, absent]

/-- The last of the entries of a key gives it its value. -/
theorem get?_insertAll (t : SortedTable κ α) [Std.TransCmp t.order]
    (entries : List (κ × α)) (key : κ) :
    (t.insertAll entries).get? key = (last? t.order entries key).or (t.get? key) := by
  induction entries generalizing t with
  | nil => rfl
  | cons entry rest ih =>
    have step := ih (t.insert entry.1 entry.2).2
    rw [order_insert, get?_insert] at step
    rw [last?_cons, Option.or_assoc]
    show ((t.insert entry.1 entry.2).2.insertAll rest).get? key = _
    rw [step]
    by_cases same : t.order entry.1 key = .eq <;> simp [same]

/-- The first of the entries of a key spells it, unless the table has it. -/
theorem key?_insertAll (t : SortedTable κ α) [Std.TransCmp t.order]
    (entries : List (κ × α)) (key : κ) :
    (t.insertAll entries).key? key = (t.key? key).or (firstKey? t.order entries key) := by
  induction entries generalizing t with
  | nil => simp [insertAll]
  | cons entry rest ih =>
    have step := ih (t.insert entry.1 entry.2).2
    rw [order_insert, key?_insert] at step
    rw [firstKey?_cons]
    show ((t.insert entry.1 entry.2).2.insertAll rest).key? key = _
    rw [step]
    by_cases same : t.order entry.1 key = .eq
    · have kept := t.keptKey_eq_getD same
      cases h : t.key? key <;> simp [same, kept, h]
    · simp [same]

section

variable (order : κ → κ → Ordering) [lawful : Std.TransCmp order] (entries : List (κ × α))

instance : Std.TransCmp (ofList order entries).order := by
  rw [order_ofList]
  exact lawful

/-- A table made from entries has the last value of each key. -/
theorem get?_ofList (key : κ) : (ofList order entries).get? key = last? order entries key := by
  have all := get?_insertAll (empty order) entries key
  rwa [get?_empty, Option.or_none] at all

/-- A table made from entries has each key as it was spelled first. -/
theorem key?_ofList (key : κ) : (ofList order entries).key? key = firstKey? order entries key := by
  have all := key?_insertAll (empty order) entries key
  rwa [key?_empty, Option.none_or] at all

theorem mem_toList_ofList {key : κ} {value : α} :
    (key, value) ∈ (ofList order entries).toList ↔
      firstKey? order entries key = some key ∧ last? order entries key = some value := by
  rw [mem_toList, key?_ofList, get?_ofList]

end

/-- The table made from the list of a table has the same entries. -/
theorem same_ofList_toList (t : SortedTable κ α) [Std.TransCmp t.order] :
    Same (ofList t.order t.toList) t := by
  refine (same_iff (order_ofList ..)).2 ⟨?_, ?_⟩
  · intro key
    rw [key?_ofList, firstKey?_toList]
  · intro key
    rw [get?_ofList, last?_toList]

/-! ## Entries after a change -/

/-- The value of a key is listed under the kept spelling. -/
theorem mem_keptKey (t : SortedTable κ α) [Std.TransCmp t.order] {key : κ} {value : α}
    (found : t.get? key = some value) : (t.keptKey key, value) ∈ t.toList := by
  have some : (t.key? key).isSome := by rw [isSome_key?, found]; rfl
  obtain ⟨kept, spelled⟩ := Option.isSome_iff_exists.1 some
  have eq : t.keptKey key = kept := congrArg (Option.getD · key) spelled
  have same := order_of_key? t spelled
  refine (mem_toList t).2 ⟨?_, ?_⟩
  · rw [eq, key?_congr t same, spelled]
  · rw [eq, get?_congr t same, found]

/-- A put does not change how its key is spelled. -/
theorem keptKey_insert (t : SortedTable κ α) [Std.TransCmp t.order] (key : κ) (value : α) :
    (t.insert key value).2.keptKey key = t.keptKey key := by
  have spelled := t.key?_insert key key value
  rw [if_pos Std.ReflCmp.compare_self] at spelled
  show ((t.insert key value).2.key? key).getD key = _
  rw [spelled, Option.getD_some]

/-- Taking out a key or an equal one is the same. -/
theorem same_erase_congr (t : SortedTable κ α) [Std.TransCmp t.order] {key other : κ}
    (same : t.order key other = .eq) : Same (t.erase key).2 (t.erase other).2 := by
  have order : (t.erase key).2.order = (t.erase other).2.order := rfl
  refine (same_iff order).2 ⟨?_, ?_⟩
  · intro k
    rw [key?_erase, key?_erase, Std.TransCmp.congr_left same]
  · intro k
    rw [get?_erase, get?_erase, Std.TransCmp.congr_left same]

/-- Taking out a key that is not there changes nothing. -/
theorem same_erase_of_none (t : SortedTable κ α) [Std.TransCmp t.order] {key : κ}
    (absent : t.get? key = none) : Same (t.erase key).2 t := by
  refine (same_iff (t.order_erase key)).2 ⟨?_, ?_⟩
  · intro other
    rw [key?_erase]
    split
    · rename_i same
      rw [← key?_congr t same, (key?_eq_none_iff t key).2 absent]
    · rfl
  · intro other
    rw [get?_erase]
    split
    · rename_i same
      rw [← get?_congr t same, absent]
    · rfl

/-- Taking out a key forgets what was put under it. -/
theorem same_erase_insert (t : SortedTable κ α) [Std.TransCmp t.order] (key : κ) (value : α) :
    Same ((t.insert key value).2.erase key).2 (t.erase key).2 := by
  have order : ((t.insert key value).2.erase key).2.order = (t.erase key).2.order := rfl
  refine (same_iff order).2 ⟨?_, ?_⟩
  · intro other
    rw [key?_erase, key?_erase, key?_insert, order_insert]
    split <;> rfl
  · intro other
    rw [get?_erase, get?_erase, get?_insert, order_insert]
    split <;> rfl

/-- The entries are that of a key and what is left when it is taken out. -/
theorem toList_perm_erase (t : SortedTable κ α) [Std.TransCmp t.order] {key : κ} {value : α}
    (found : t.get? key = some value) :
    t.toList.Perm ((t.keptKey key, value) :: (t.erase key).2.toList) := by
  have same : t.order (t.keptKey key) key = .eq := by
    rw [order_keptKey]
    exact Std.ReflCmp.compare_self
  obtain ⟨first, rest, split⟩ := List.append_of_mem (t.mem_keptKey found)
  rw [← (t.same_erase_congr same).toList, toList_erase_of_eq t split, split]
  exact List.perm_middle

/-- After a put the entries are the new one and those of the other keys. -/
theorem toList_insert_perm (t : SortedTable κ α) [Std.TransCmp t.order] (key : κ) (value : α) :
    (t.insert key value).2.toList.Perm ((t.keptKey key, value) :: (t.erase key).2.toList) := by
  have there : (t.insert key value).2.get? key = some value := by
    rw [get?_insert, if_pos Std.ReflCmp.compare_self]
  have perm := toList_perm_erase _ there
  rwa [keptKey_insert, (t.same_erase_insert key value).toList] at perm

/-- After a put the list has the new entry and otherwise only old ones. -/
theorem mem_toList_insert (t : SortedTable κ α) [Std.TransCmp t.order] {key : κ} {value : α}
    {entry : κ × α} (h : entry ∈ (t.insert key value).2.toList) :
    entry ∈ t.toList ∨ entry = (t.keptKey key, value) := by
  obtain ⟨spelled, found⟩ := (mem_toList _).1 h
  rw [key?_insert] at spelled
  rw [get?_insert] at found
  split at found
  · rename_i same
    rw [if_pos same] at spelled
    exact .inr (Prod.ext (Option.some.inj spelled).symm (Option.some.inj found).symm)
  · rename_i other
    rw [if_neg other] at spelled
    exact .inl ((mem_toList t).2 ⟨spelled, found⟩)

/-- After a removal the list has only old entries. -/
theorem mem_toList_erase (t : SortedTable κ α) [Std.TransCmp t.order] {key : κ}
    {entry : κ × α} (h : entry ∈ (t.erase key).2.toList) : entry ∈ t.toList := by
  obtain ⟨spelled, found⟩ := (mem_toList _).1 h
  rw [key?_erase] at spelled
  rw [get?_erase] at found
  split at found
  · cases found
  · rename_i other
    rw [if_neg other] at spelled
    exact (mem_toList t).2 ⟨spelled, found⟩

/-- The only entry of a table that was empty. -/
theorem toList_insert_of_nil (t : SortedTable κ α) [Std.TransCmp t.order] (h : t.toList = [])
    (key : κ) (value : α) : (t.insert key value).2.toList = [(key, value)] := by
  have absent := t.toList_eq_nil_iff.1 h key
  have perm := t.toList_insert_perm key value
  rwa [t.keptKey_of_none absent, (t.same_erase_of_none absent).toList, h,
    List.perm_singleton] at perm

/-- Where equal keys have the same bytes, the list has just what look-ups
find. -/
theorem mem_toList_iff (t : SortedTable κ α) [Std.TransCmp t.order] [Std.LawfulEqCmp t.order]
    {key : κ} {value : α} : (key, value) ∈ t.toList ↔ t.get? key = some value := by
  rw [get?_eq_some_iff]
  constructor
  · exact fun mem => ⟨key, Std.ReflCmp.compare_self, mem⟩
  · rintro ⟨kept, same, mem⟩
    rwa [Std.LawfulEqCmp.eq_of_compare same]

end MapStore.SortedTable
