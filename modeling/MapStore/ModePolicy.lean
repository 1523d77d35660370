/-
MapStore.ModePolicy — which mode an adaptive map should be in.

An adaptive map writes either straight into its backing or into a buffer that
is merged later. The policy asks for direct mode if the share of reads exceeds
its threshold, otherwise for buffered mode if the share of writes does, and
otherwise for no change. It has no memory, so a map whose shares move around
the threshold may change its mode on every tick.
-/
namespace MapStore

/-- The two ways an adaptive map writes. -/
inductive MapMode where
  /-- Straight into the backing. -/
  | direct
  /-- Into a buffer. -/
  | buffered
  deriving DecidableEq, Repr

/-- A threshold on the shares of reads and writes, in percent. -/
structure ModePolicy where
  threshold : Nat
  deriving DecidableEq, Repr

namespace ModePolicy

/-- The threshold unless another is set. -/
def defaultThreshold : Nat := 50

/-- The mode for these shares, or none to leave the map as it is. -/
def modeFor (p : ModePolicy) (readPercent writePercent : Nat) : Option MapMode :=
  if p.threshold < readPercent then some .direct
  else if p.threshold < writePercent then some .buffered
  else none

end ModePolicy

end MapStore
