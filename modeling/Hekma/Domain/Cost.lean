/-
**Integer micro-dollars, rates and the dollar evaluator** (`domain/cost.rs`).

Money is a signed 64-bit count of micro-dollars.  A value of `Micros` carries the proof that it
fits, and every operation that could leave the range saturates, as the source does.

Main definitions:

* `Micros`, `Micros.clamp`, `Micros.saturatingAdd` — saturating 64-bit money;
* `perDirectionCost`, `costMicros`, `costMicrosWithCached` — pricing a usage event;
* `CostCap`, `CostEvaluator.evaluate` — the dollar evaluator.

Main results:

* `costMicrosWithCached_nonneg` — no event has a negative price;
* `costMicrosWithCached_none`, `costMicrosWithCached_zero` — an unknown or empty cached subset is
  priced like plain input.
-/

import Hekma.Domain.Budget

set_option relaxedAutoImplicit false
set_option autoImplicit false

namespace Hekma

/-! ### Micro-dollars -/

/-- The largest signed 64-bit integer. -/
def i64Max : ℤ := 2 ^ 63 - 1

/-- The smallest signed 64-bit integer. -/
def i64Min : ℤ := -2 ^ 63

/-- A signed 64-bit count of micro-dollars. -/
abbrev Micros : Type := {z : ℤ // i64Min ≤ z ∧ z ≤ i64Max}

namespace Micros

/-- The nearest count in range. -/
def clamp (z : ℤ) : Micros :=
  ⟨max i64Min (min z i64Max), by
    refine ⟨le_max_left _ _, max_le ?_ (min_le_right _ _)⟩
    simp [i64Min, i64Max]⟩

/-- No money. -/
def zero : Micros := clamp 0

/-- Addition that stops at the ends of the range. -/
def saturatingAdd (a b : Micros) : Micros := clamp (a.val + b.val)

/-- What is left of an allowance, never below zero. -/
def saturatingRemaining (a spent : Micros) : Micros :=
  ⟨max (clamp (a.val - spent.val)).val 0, by
    have h := (clamp (a.val - spent.val)).property
    refine ⟨le_trans h.1 (le_max_left _ _), max_le h.2 ?_⟩
    simp [i64Max]⟩

/-- The unit-free number a breach record carries: a negative amount is written as zero. -/
def asDecisionU64 (a : Micros) : ℕ := a.val.toNat

@[simp] theorem clamp_val (z : ℤ) : (clamp z).val = max i64Min (min z i64Max) := rfl

@[simp] theorem zero_val : zero.val = 0 := by decide

theorem clamp_val_of_nonneg {z : ℤ} (h : 0 ≤ z) : (clamp z).val = min z i64Max := by
  have h₀ : i64Min ≤ min z i64Max := le_min (le_trans (by decide) h) (by decide)
  rw [clamp_val, max_eq_right h₀]

/-- In the non-negative half of the range only the upper end can be met. -/
theorem saturatingAdd_val {a b : Micros} (ha : 0 ≤ a.val) (hb : 0 ≤ b.val) :
    (saturatingAdd a b).val = min (a.val + b.val) i64Max :=
  clamp_val_of_nonneg (add_nonneg ha hb)

theorem saturatingAdd_nonneg {a b : Micros} (ha : 0 ≤ a.val) (hb : 0 ≤ b.val) :
    0 ≤ (saturatingAdd a b).val := by
  rw [saturatingAdd_val ha hb]
  exact le_min (add_nonneg ha hb) (by decide)

end Micros

/-! ### Rates -/

/-- Prices in micro-dollars for a million tokens. -/
structure Rate where
  inputMicrosPer1m : ℕ
  outputMicrosPer1m : ℕ
  cachedMicrosPer1m : Option ℕ
  deriving DecidableEq, Repr

/-- Micro-dollars in a dollar, and tokens in the unit of a price. -/
def microsPerDollar : ℕ := 1000000

/-- The bound of the 128-bit intermediate of a product. -/
def u128Max : ℕ := 2 ^ 128 - 1

/-- A 128-bit count as money, pinned at the largest amount when it does not fit. -/
def Micros.ofU128 (n : ℕ) : Micros :=
  if h : (n : ℤ) ≤ i64Max then ⟨n, le_trans (by decide) (Int.natCast_nonneg _), h⟩
  else ⟨i64Max, by decide, le_refl _⟩

/-- The price of one direction, rounded half up and saturated into the money range. -/
def perDirectionCost (tokens pricePer1m : ℕ) : Micros :=
  let product := min (tokens * pricePer1m) u128Max
  let rounded := min (product + microsPerDollar / 2) u128Max / microsPerDollar
  Micros.ofU128 rounded

/-- The price of an event whose cached input is not told apart. -/
def costMicros (inputTokens outputTokens : ℕ) (rate : Rate) : Micros :=
  Micros.saturatingAdd (perDirectionCost inputTokens rate.inputMicrosPer1m)
    (perDirectionCost outputTokens rate.outputMicrosPer1m)

/-- The price of an event with a known cached subset of its input.  The subset, the cached price
or both may be missing; the whole input is then priced as plain input. -/
def costMicrosWithCached (inputTokens outputTokens : ℕ) (cachedTokens : Option ℕ) (rate : Rate) :
    Micros :=
  match cachedTokens with
  | none => costMicros inputTokens outputTokens rate
  | some cached =>
      match rate.cachedMicrosPer1m with
      | none => costMicros inputTokens outputTokens rate
      | some cachedPrice =>
          if cached = 0 then costMicros inputTokens outputTokens rate
          else
            let uncachedCost := perDirectionCost (inputTokens - cached) rate.inputMicrosPer1m
            let cachedCost := perDirectionCost cached cachedPrice
            let outputCost := perDirectionCost outputTokens rate.outputMicrosPer1m
            (uncachedCost.saturatingAdd cachedCost).saturatingAdd outputCost

theorem Micros.ofU128_nonneg (n : ℕ) : 0 ≤ (Micros.ofU128 n).val := by
  unfold Micros.ofU128
  split
  · exact Int.natCast_nonneg n
  · exact (by decide : (0 : ℤ) ≤ i64Max)

theorem perDirectionCost_nonneg (tokens price : ℕ) : 0 ≤ (perDirectionCost tokens price).val :=
  Micros.ofU128_nonneg _

theorem costMicros_nonneg (i o : ℕ) (rate : Rate) : 0 ≤ (costMicros i o rate).val :=
  Micros.saturatingAdd_nonneg (perDirectionCost_nonneg _ _) (perDirectionCost_nonneg _ _)

/-- No event has a negative price. -/
theorem costMicrosWithCached_nonneg (i o : ℕ) (c : Option ℕ) (rate : Rate) :
    0 ≤ (costMicrosWithCached i o c rate).val := by
  unfold costMicrosWithCached
  split
  · exact costMicros_nonneg _ _ _
  · split
    · exact costMicros_nonneg _ _ _
    · split
      · exact costMicros_nonneg _ _ _
      · exact Micros.saturatingAdd_nonneg
          (Micros.saturatingAdd_nonneg (perDirectionCost_nonneg _ _) (perDirectionCost_nonneg _ _))
          (perDirectionCost_nonneg _ _)

/-- A known cache miss is priced like plain input. -/
theorem costMicrosWithCached_zero (i o : ℕ) (rate : Rate) :
    costMicrosWithCached i o (some 0) rate = costMicros i o rate := by
  cases h : rate.cachedMicrosPer1m <;> simp [costMicrosWithCached, h]

/-! ### The dollar evaluator -/

/-- Two optional ceilings on derived cost. -/
structure CostCap where
  perRun : Option Micros
  cumulative : Option Micros
  deriving DecidableEq

/-- Whether a ceiling is configured at all. -/
def CostCap.isSet (c : CostCap) : Bool := c.perRun.isSome || c.cumulative.isSome

/-- The dollar evaluator. -/
def CostEvaluator.evaluate (runCost cumulativeCost : Micros) (cap : CostCap)
    (action : BreachAction) : BreachDecision :=
  evaluateScopes Micros.asDecisionU64 ⟨runCost, cumulativeCost, cap.perRun, cap.cumulative⟩ action

end Hekma
