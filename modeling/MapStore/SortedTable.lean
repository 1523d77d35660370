/-
MapStore.SortedTable — entries in key order.

A table maps keys to values under an order of its own. Two keys that compare
equal are one key: a table holds at most one of them, and replacing its value
keeps the key that was inserted first, however the later one is spelled. The
entries are kept in a balanced tree, so an operation on one key looks at few
of the others; `toList` is the view of the contents in order.

`get?`, `insert` and `erase` are the map operations; the latter two also
answer the value the key had. `ofList` builds a table from entries in any
order, a later entry winning over an earlier one with an equal key. For an
order that is transitive and consistent, `get?_insert` and `get?_erase` say
what the two changes do to every key, and `pairwise_toList` that the contents
are strictly ascending.
-/
import Std.Data.TreeMap.Lemmas

namespace MapStore

/-- A finite map from keys to values with its entries in key order. -/
structure SortedTable (κ α : Type) where
  /-- The order of keys; equal keys are one key. -/
  order : κ → κ → Ordering
  /-- The entries. -/
  tree : Std.TreeMap κ α order

namespace SortedTable

variable {κ α : Type}

/-! ## Operations -/

/-- The table without entries. -/
def empty (order : κ → κ → Ordering) : SortedTable κ α := ⟨order, ∅⟩

/-- The value of `key`. -/
def get? (t : SortedTable κ α) (key : κ) : Option α := t.tree[key]?

/-- Whether the table has `key`. -/
def contains (t : SortedTable κ α) (key : κ) : Bool := (t.get? key).isSome

/-- The key equal to `key` that the table has, or else `key`. -/
def keptKey (t : SortedTable κ α) (key : κ) : κ := (t.tree.getKey? key).getD key

/-- Puts `value` under `key`; answers the value it replaces. -/
def insert (t : SortedTable κ α) (key : κ) (value : α) : Option α × SortedTable κ α :=
  (t.get? key, ⟨t.order, t.tree.insert (t.keptKey key) value⟩)

/-- Takes `key` out; answers the value it had. -/
def erase (t : SortedTable κ α) (key : κ) : Option α × SortedTable κ α :=
  (t.get? key, ⟨t.order, t.tree.erase key⟩)

/-- Takes `key` out if its value passes the test. -/
def eraseIf (t : SortedTable κ α) (key : κ) (test : α → Bool) : Option α × SortedTable κ α :=
  match t.get? key with
  | some value => if test value then t.erase key else (none, t)
  | none => (none, t)

/-- The entries that pass the test. -/
def filter (t : SortedTable κ α) (test : κ → α → Bool) : SortedTable κ α :=
  ⟨t.order, t.tree.filter test⟩

/-- The number of entries. -/
def size (t : SortedTable κ α) : Nat := t.tree.size

/-- Whether there is no entry. -/
def isEmpty (t : SortedTable κ α) : Bool := t.tree.isEmpty

/-- The entries in key order. -/
def toList (t : SortedTable κ α) : List (κ × α) := t.tree.toList

/-- The keys in order. -/
def keys (t : SortedTable κ α) : List κ := t.toList.map (·.1)

/-- The values in the order of their keys. -/
def values (t : SortedTable κ α) : List α := t.toList.map (·.2)

/-- The table of the entries, inserted from left to right. -/
def ofList (order : κ → κ → Ordering) (entries : List (κ × α)) : SortedTable κ α :=
  entries.foldl (fun t entry => (t.insert entry.1 entry.2).2) (empty order)

/-- The table without its entries. -/
def clear (t : SortedTable κ α) : SortedTable κ α := empty t.order

/-! ## What the changes do to each key -/

variable (t : SortedTable κ α) [Std.TransCmp t.order]

/-- The kept key is the same key as the one asked for. -/
theorem order_keptKey (key other : κ) : t.order (t.keptKey key) other = t.order key other := by
  unfold keptKey
  cases h : t.tree.getKey? key with
  | none => rfl
  | some kept =>
    have same : t.order kept key = .eq := by
      simpa [h] using Std.TreeMap.compare_getKey?_self (t := t.tree) (k := key)
    exact Std.TransCmp.congr_left same

/-- A key that was put has the new value, and every other key what it had. -/
theorem get?_insert (key other : κ) (value : α) :
    (t.insert key value).2.get? other =
      if t.order key other = .eq then some value else t.get? other := by
  show (t.tree.insert (t.keptKey key) value)[other]? = _
  rw [Std.TreeMap.getElem?_insert, order_keptKey, get?]

/-- A key that was taken out has no value, and every other key what it had. -/
theorem get?_erase (key other : κ) :
    (t.erase key).2.get? other = if t.order key other = .eq then none else t.get? other := by
  show (t.tree.erase key)[other]? = _
  rw [Std.TreeMap.getElem?_erase, get?]

/-- The contents are in strictly ascending order. -/
theorem pairwise_toList : t.toList.Pairwise fun a b => t.order a.1 b.1 = .lt :=
  Std.TreeMap.ordered_keys_toList

end SortedTable

end MapStore
