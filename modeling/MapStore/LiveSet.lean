/-
MapStore.LiveSet — the members a background tick visits.

A live-set lists its members in the order they were added, each once. A tick
walks the members as they were when its phase began; what is added or removed
meanwhile counts for the next phase.
-/
namespace MapStore

/-- Members in the order they were added, each once. -/
structure LiveSet (α : Type) where
  members : List α
  nodup : members.Nodup
  deriving DecidableEq, Repr

namespace LiveSet

variable {α : Type}

/-- The set without members. -/
def empty : LiveSet α := ⟨[], .nil⟩

/-- The number of members. -/
def size (s : LiveSet α) : Nat := s.members.length

/-- Whether there is no member. -/
def isEmpty (s : LiveSet α) : Bool := s.members.isEmpty

/-- What is new can be added. -/
theorem nodup_add {members : List α} {a : α} (nodup : members.Nodup) (new : a ∉ members) :
    (members ++ [a]).Nodup := by
  refine List.nodup_append.2 ⟨nodup, by simp, fun b hb c hc eq => new ?_⟩
  rwa [← List.mem_singleton.1 hc, ← eq]

variable [DecidableEq α]

/-- Whether `a` is a member. -/
def contains (s : LiveSet α) (a : α) : Bool := s.members.contains a

/-- Adds `a`; answers whether it was no member yet. -/
def insert (s : LiveSet α) (a : α) : Bool × LiveSet α :=
  if h : s.contains a then (false, s)
  else (true, ⟨s.members ++ [a], nodup_add s.nodup (by simpa [contains] using h)⟩)

/-- Takes `a` out; answers whether it was a member. -/
def erase (s : LiveSet α) (a : α) : Bool × LiveSet α :=
  if s.contains a then (true, ⟨s.members.filter (· != a), s.nodup.filter _⟩) else (false, s)

end LiveSet

end MapStore
