/-
**Restart arithmetic** (`domain/restart.rs`).

The backoff before a relaunch doubles with every failure up to a cap, and a run that has proved
stable starts the count of failures again.  Durations are counted in nanoseconds.  The shift, the
product and the conversion back into a duration saturate, each at the width of its type.

Main definitions:

* `BackoffSchedule.delayFor` — the delay before the `n`-th consecutive relaunch;
* `Restart.nextConsecutiveFailures` — the count of failures after one more;
* `BackoffSchedule.ideal` — the delay as the schedule means it, without machine integers.

Main results:

* `delayFor_mono` — the delay never falls, whatever the schedule;
* `delayFor_le_cap` — and never passes the cap;
* `Sane.delayFor_eq` — for a schedule in range it is the intended one;
* `delayFor_wrap_iff` — when an index that was cut down to a word still gives the delay.
-/

import Hekma.Domain.Cost

set_option relaxedAutoImplicit false
set_option autoImplicit false

namespace Hekma

/-- The largest word. -/
def u32Max : ℕ := 2 ^ 32 - 1

/-- The longest duration that is built from nanoseconds. -/
def maxNanos : ℕ := 2 ^ 64 - 1

/-- One second. -/
def second : ℕ := 10 ^ 9

/-! ### The backoff -/

/-- The exponential backoff: its first delay and its cap. -/
structure BackoffSchedule where
  base : ℕ
  cap : ℕ
  deriving DecidableEq, Repr

namespace BackoffSchedule

/-- The schedule the engine runs with. -/
def production : BackoffSchedule := ⟨second, 60 * second⟩

/-- The delay before the `n`-th consecutive relaunch. -/
def delayFor (b : BackoffSchedule) (consecutiveFailures : ℕ) : ℕ :=
  let n := max consecutiveFailures 1
  let shift := n - 1
  if 63 ≤ shift then b.cap
  else
    let scaled := min (b.base * 2 ^ shift) u128Max
    let clamped := min scaled b.cap
    min clamped maxNanos

/-- The base doubled with every failure but the first, up to the cap. -/
def ideal (b : BackoffSchedule) (n : ℕ) : ℕ := min (b.base * 2 ^ (n - 1)) b.cap

/-- The cap is a duration of the machine, and 63 doublings of the base reach it. -/
structure Sane (b : BackoffSchedule) : Prop where
  cap_le : b.cap ≤ maxNanos
  reaches : b.cap ≤ b.base * 2 ^ 63

theorem production_sane : production.Sane := by
  constructor <;> decide

theorem delayFor_le_cap (b : BackoffSchedule) (n : ℕ) : b.delayFor n ≤ b.cap := by
  unfold delayFor
  dsimp only
  split <;> omega

/-- The delay never falls. -/
theorem delayFor_mono (b : BackoffSchedule) {n m : ℕ} (h : n ≤ m) :
    b.delayFor n ≤ b.delayFor m := by
  by_cases hm : 63 ≤ max m 1 - 1
  · have : b.delayFor m = b.cap := by simp [delayFor, hm]
    rw [this]
    exact b.delayFor_le_cap n
  · have hn : ¬ 63 ≤ max n 1 - 1 := by omega
    have hpow : b.base * 2 ^ (max n 1 - 1) ≤ b.base * 2 ^ (max m 1 - 1) :=
      Nat.mul_le_mul_left _ (Nat.pow_le_pow_right (by decide) (by omega))
    simp only [delayFor, if_neg hm, if_neg hn]
    omega

/-- In range the saturating arithmetic is exact. -/
theorem Sane.delayFor_eq {b : BackoffSchedule} (h : b.Sane) (n : ℕ) :
    b.delayFor n = b.ideal n := by
  have hshift : max n 1 - 1 = n - 1 := by omega
  obtain ⟨hcap, hreach⟩ := h
  unfold delayFor ideal
  simp only [hshift]
  by_cases hn : 63 ≤ n - 1
  · have hpow : b.base * 2 ^ 63 ≤ b.base * 2 ^ (n - 1) :=
      Nat.mul_le_mul_left _ (Nat.pow_le_pow_right (by decide) hn)
    rw [if_pos hn, min_eq_right (hreach.trans hpow)]
  · have hmax : b.cap ≤ u128Max := hcap.trans (by decide)
    rw [if_neg hn]
    omega

/-- Of the production schedule, every index from the seventh on waits the cap, and no other. -/
theorem production_delayFor_eq_cap (n : ℕ) :
    production.delayFor n = production.cap ↔ 7 ≤ n := by
  constructor
  · intro h
    by_contra hn
    have hn : n ≤ 6 := by omega
    have hmono := production.delayFor_mono hn
    have h6 : production.delayFor 6 < production.cap := by decide
    omega
  · intro hn
    have hmono := production.delayFor_mono hn
    have h7 : production.delayFor 7 = production.cap := by decide
    have := production.delayFor_le_cap n
    omega

/-- An index cut down to a word gives the delay exactly if nothing was cut, or what is left still
waits the cap. -/
theorem delayFor_wrap_iff (n : ℕ) :
    production.delayFor (n % 2 ^ 32) = production.ideal n ↔ n < 2 ^ 32 ∨ 7 ≤ n % 2 ^ 32 := by
  rw [← production_sane.delayFor_eq]
  by_cases hn : n < 2 ^ 32
  · exact iff_of_true (by rw [Nat.mod_eq_of_lt hn]) (.inl hn)
  · have hcap : production.delayFor n = production.cap :=
      (production_delayFor_eq_cap n).2 (by omega)
    rw [hcap, production_delayFor_eq_cap]
    exact (or_iff_right hn).symm

end BackoffSchedule

/-! ### The count of failures -/

namespace Restart

/-- The failures in a row after one more, and whether a stable run has started the count again. -/
def nextConsecutiveFailures (current : ℕ) (stableRun : Option ℕ) (window : ℕ) : ℕ × Bool :=
  match stableRun with
  | some run => if window ≤ run then (1, true) else (min (current + 1) u32Max, false)
  | none => (min (current + 1) u32Max, false)

/-- The run outlived the window. -/
def stable (stableRun : Option ℕ) (window : ℕ) : Bool := stableRun.any fun run => window ≤ run

/-- Below the largest count, a failure counts one or starts the count again. -/
theorem nextConsecutiveFailures_eq {current : ℕ} (h : current < u32Max)
    (stableRun : Option ℕ) (window : ℕ) :
    nextConsecutiveFailures current stableRun window =
      (if stable stableRun window then 1 else current + 1, stable stableRun window) := by
  have hmin : min (current + 1) u32Max = current + 1 := min_eq_left h
  cases stableRun with
  | none => simp [nextConsecutiveFailures, stable, hmin]
  | some run =>
      by_cases hrun : window ≤ run
      · simp [nextConsecutiveFailures, stable, hrun]
      · simp [nextConsecutiveFailures, stable, hrun, hmin]

end Restart

end Hekma
