/-
MapStore.Proofs.Shares — the two shares that a counting meter reports.

A counting meter knows the reads and the writes that it was told of since it was
last reset, and reports either as a share of both in percent. Each share is at most
100, and as long as the meter was told of nothing both are 0.

Either share is rounded down for itself. So they add up to 100 only if nothing is
lost, which is to say if the number of reads and writes divides a hundred times the
reads. Otherwise something is lost of both, which is one percent together, and they
add up to 99.

The counts have no bound here. A meter that counts with 64 bits reports the same
as long as a hundred times the number of reads and writes has no more.
-/
import Mathlib.Algebra.Group.Nat.Defs
import Mathlib.Data.List.DropRight
import Mathlib.Data.List.Induction
import MapStore.AccessMeter

namespace MapStore

/-! ## Rounding -/

namespace AccessWindow

theorem percent_eq (part other : Nat) : percent part other = 100 * part / (part + other) := by
  unfold percent
  split
  · rename_i none
    rw [none, Nat.div_zero]
  · rw [Nat.mul_comm]

theorem percent_le (part other : Nat) : percent part other ≤ 100 := by
  rw [percent_eq]
  refine Nat.div_le_of_le_mul ?_
  rw [Nat.mul_comm]
  exact Nat.mul_le_mul_right 100 (Nat.le_add_right part other)

/-- What two shares of the same whole lose by rounding is less than two percent. -/
theorem percent_add (part other : Nat) :
    percent part other + percent other part =
      if part + other = 0 then 0 else if part + other ∣ 100 * part then 100 else 99 := by
  rw [percent_eq, percent_eq, Nat.add_comm other part]
  generalize whole : part + other = total
  split
  · rename_i none
    simp [none]
  · rename_i some
    have positive : 0 < total := Nat.pos_of_ne_zero some
    have lost : 100 * part % total < total := Nat.mod_lt _ positive
    have lost' : 100 * other % total < total := Nat.mod_lt _ positive
    have kept : total * (100 * part / total + 100 * other / total) +
        (100 * part % total + 100 * other % total) = total * 100 := by
      have := Nat.div_add_mod (100 * part) total
      have := Nat.div_add_mod (100 * other) total
      rw [Nat.mul_add]
      omega
    generalize 100 * part / total + 100 * other / total = sum at kept ⊢
    have above : 100 < sum + 2 := by
      apply Nat.lt_of_mul_lt_mul_left (a := total)
      rw [Nat.mul_add]
      omega
    split
    · rename_i exact
      have none := Nat.mod_eq_zero_of_dvd exact
      have upper : sum ≤ 100 := by
        refine Nat.le_of_mul_le_mul_left ?_ positive
        omega
      have lower : 100 < sum + 1 := by
        apply Nat.lt_of_mul_lt_mul_left (a := total)
        rw [Nat.mul_add]
        omega
      omega
    · rename_i inexact
      -- what is lost of the one share makes the sum fall short
      have some : 100 * part % total ≠ 0 := by
        rwa [ne_eq, ← Nat.dvd_iff_mod_eq_zero]
      have upper : sum < 100 := by
        apply Nat.lt_of_mul_lt_mul_left (a := total)
        omega
      omega

end AccessWindow

/-! ## What a meter is told -/

/-- What a meter can be told. -/
inductive MeterCall where
  | read
  | write
  | reset
  deriving DecidableEq, Repr

namespace MeterCall

variable {calls : List MeterCall}

/-- The meter after it was told. -/
def tell : MeterCall → AccessMeter → AccessMeter
  | read, meter => meter.recordRead
  | write, meter => meter.recordWrite
  | reset, meter => meter.reset

/-- The meter after it was told all this. -/
def tellAll (calls : List MeterCall) (meter : AccessMeter) : AccessMeter :=
  calls.foldl (fun meter call => call.tell meter) meter

/-- The reads and writes since the last reset. -/
def recent (calls : List MeterCall) : List MeterCall := calls.rtakeWhile (· ≠ reset)

@[simp] theorem tellAll_concat (calls : List MeterCall) (call : MeterCall) (meter : AccessMeter) :
    tellAll (calls ++ [call]) meter = call.tell (tellAll calls meter) := by
  simp [tellAll]

@[simp] theorem recent_concat (calls : List MeterCall) (call : MeterCall) :
    recent (calls ++ [call]) = if call = reset then [] else recent calls ++ [call] := by
  rw [recent, List.rtakeWhile_concat]
  cases call <;> rfl

/-- A counting meter knows what it was told since the last reset. -/
theorem tellAll_idle (calls : List MeterCall) :
    tellAll calls .idle = .window ⟨(recent calls).count read, (recent calls).count write⟩ := by
  induction calls using List.reverseRecOn with
  | nil => rfl
  | append_singleton calls call ih =>
    rw [tellAll_concat, ih, recent_concat]
    cases call with
    | read => simp [tell, AccessMeter.recordRead]
    | write => simp [tell, AccessMeter.recordWrite]
    | reset => rfl

/-- Nothing else was told since then. -/
theorem count_recent (calls : List MeterCall) :
    (recent calls).count read + (recent calls).count write = (recent calls).length := by
  induction calls using List.reverseRecOn with
  | nil => rfl
  | append_singleton calls call ih =>
    rw [recent_concat]
    cases call with
    | read =>
      simp
      omega
    | write =>
      simp
      omega
    | reset => rfl

/-- **Shares are rounded down.** Whatever a counting meter was told, it reports both
shares, and each is at most 100. Their sum is 0 if nothing was told since the last
reset; else it is 100 if the number of reads and writes since then divides a hundred
times the reads, and 99 if not. -/
theorem shares_round_down (calls : List MeterCall) :
    ∃ share, (tellAll calls .idle).readPercent = .ok share ∧ share ≤ 100 ∧
      (tellAll calls .idle).writePercent ≤ 100 ∧
      share + (tellAll calls .idle).writePercent =
        if recent calls = [] then 0
        else if (recent calls).length ∣ 100 * (recent calls).count read then 100 else 99 := by
  rw [tellAll_idle]
  refine ⟨_, rfl, AccessWindow.percent_le .., AccessWindow.percent_le .., ?_⟩
  simp only [AccessMeter.writePercent, AccessWindow.readPercent, AccessWindow.writePercent]
  rw [AccessWindow.percent_add, count_recent]
  simp only [List.length_eq_zero_iff]

/-- One read and two writes are 33 and 66 percent. -/
theorem thirds_lose_a_percent :
    100 * (recent [read, write, write]).length < 2 ^ 64 ∧
      recent [read, write, write] ≠ [] ∧
      (tellAll [read, write, write] .idle).readPercent = .ok 33 ∧
      (tellAll [read, write, write] .idle).writePercent = 66 ∧
      ¬ ∃ share, (tellAll [read, write, write] .idle).readPercent = .ok share ∧
        share + (tellAll [read, write, write] .idle).writePercent = 100 := by
  refine ⟨by decide, by decide, rfl, rfl, ?_⟩
  rintro ⟨share, reported, sum⟩
  have third : share = 33 := (Except.ok.inj reported).symm
  subst third
  exact absurd sum (by decide)

end MeterCall

end MapStore
