/-
MapStore.AccessMeter — how much a map is read and how much it is written.

An adaptive map tells its meter of every read and write, and a background tick
asks the meter for the two shares in percent and starts a new window. The
usual meter counts (`AccessWindow`); both its shares are of the same total and
rounded down, and an idle window has shares of 0. A `FixedMeter` reports given
shares, which need not add up to anything, and counts the calls it gets; it
stands for a caller's own meter. It can be made to panic when it is asked for
the share of reads. That such a meter panics in another call, for the share of
writes, a new window or the count of a read or write, is left out.
-/
import MapStore.Error

namespace MapStore

/-- The reads and writes since the window began. -/
structure AccessWindow where
  reads : Nat
  writes : Nat
  deriving DecidableEq, Repr

namespace AccessWindow

/-- The window in which nothing happened yet. -/
def idle : AccessWindow := ⟨0, 0⟩

/-- The share of `part` in `part + other` in percent, rounded down. -/
def percent (part other : Nat) : Nat :=
  if part + other = 0 then 0 else part * 100 / (part + other)

/-- The share of reads in percent. -/
def readPercent (w : AccessWindow) : Nat := percent w.reads w.writes

/-- The share of writes in percent. -/
def writePercent (w : AccessWindow) : Nat := percent w.writes w.reads

end AccessWindow

/-- A meter that reports what it was told to. -/
structure FixedMeter where
  read : Nat
  write : Nat
  /-- The panic with which it answers when asked for the share of reads. -/
  panic : Option String
  reads : Nat
  writes : Nat
  resets : Nat
  deriving DecidableEq, Repr

/-- A meter of reads and writes. -/
inductive AccessMeter where
  | window (w : AccessWindow)
  | fixed (f : FixedMeter)
  deriving DecidableEq, Repr

namespace AccessMeter

/-- A counting meter with an idle window. -/
def idle : AccessMeter := .window .idle

/-- Counts a read. -/
def recordRead : AccessMeter → AccessMeter
  | window w => .window { w with reads := w.reads + 1 }
  | fixed f => .fixed { f with reads := f.reads + 1 }

/-- Counts a write. -/
def recordWrite : AccessMeter → AccessMeter
  | window w => .window { w with writes := w.writes + 1 }
  | fixed f => .fixed { f with writes := f.writes + 1 }

/-- The share of reads in percent. -/
def readPercent : AccessMeter → Except Fault Nat
  | window w => .ok w.readPercent
  | fixed f =>
    match f.panic with
    | some message => .error (.panic (some message))
    | none => .ok f.read

/-- The share of writes in percent. -/
def writePercent : AccessMeter → Nat
  | window w => w.writePercent
  | fixed f => f.write

/-- Starts a new window. -/
def reset : AccessMeter → AccessMeter
  | window _ => .window .idle
  | fixed f => .fixed { f with resets := f.resets + 1 }

end AccessMeter

end MapStore
