/-
**Prices and the exact fractions they stand for** (`domain/cost.rs`, `domain/governance.rs`).

A direction of an event is some tokens and their price for a million of them; its exact charge is a
fraction of a micro-dollar.  The derivation rounds each direction half up on its own, adds, and
saturates.  So an event is never charged a negative amount, more tokens and higher rates never cost
less, and below saturation the charge is off by at most half a micro-dollar for each direction.

The cached subset is the exception: it moves tokens from one direction to another, and the two are
rounded apart, so a larger subset may cost more or less.

Main definitions:

* `exactCharge` — the exact charge of a direction;
* `plainDirections`, `directions` — the directions an event is priced in;
* `exactTotal`, `roundedTotal` — the exact charge of an event, and the sum of its rounded parts;
* `DerivationSpec`, `runDerivation` — the derivations of the published vectors.

Main results:

* `perDirectionCost_val`, `costMicros_val` — the price of a direction and of an event;
* `costMicros_round`, `costMicrosWithCached_round` — the price is the saturated sum of the rounded
  directions;
* `cost_exact` — **the arithmetic of prices**;
* `cached_not_monotone` — the cached subset moves the price both ways.
-/

import Hekma.Lib.Rounding
import Hekma.Domain.Cost

set_option relaxedAutoImplicit false
set_option autoImplicit false

namespace Hekma

open Rounding

/-! ### Prices in whole micro-dollars -/

theorem Micros.ofU128_val (n : ℕ) : (Micros.ofU128 n).val = min (n : ℤ) i64Max := by
  unfold Micros.ofU128
  split
  · rename_i h
    exact (min_eq_left h).symm
  · rename_i h
    exact (min_eq_right (not_le.1 h).le).symm

theorem microsPerDollar_pos : (0 : ℤ) < microsPerDollar := by decide

/-- The 128-bit intermediates saturate past the largest amount only. -/
theorem rounded_saturated {product half bound amount unit : ℕ} (hbound : amount ≤ bound / unit) :
    min (min (min product bound + half) bound / unit) amount =
      min ((product + half) / unit) amount := by
  rcases Nat.le_total (product + half) bound with hle | hge
  · rw [min_eq_left (show product ≤ bound by omega), min_eq_left hle]
  · have hmin : min (min product bound + half) bound = bound := by omega
    have hmore : bound / unit ≤ (product + half) / unit := Nat.div_le_div_right hge
    rw [hmin, min_eq_right hbound, min_eq_right (hbound.trans hmore)]

/-- The price of a direction is the rounded product, up to the largest amount. -/
theorem perDirectionCost_val (tokens price : ℕ) :
    (perDirectionCost tokens price).val =
      min (halfUp microsPerDollar ((tokens * price : ℕ) : ℤ)) i64Max := by
  have hmax : i64Max = ((2 ^ 63 - 1 : ℕ) : ℤ) := by decide
  have hsaturated : min (min (min (tokens * price) u128Max + microsPerDollar / 2) u128Max /
      microsPerDollar) (2 ^ 63 - 1) =
        min ((tokens * price + microsPerDollar / 2) / microsPerDollar) (2 ^ 63 - 1) :=
    rounded_saturated (by decide)
  calc (perDirectionCost tokens price).val
      = min ((min (min (tokens * price) u128Max + microsPerDollar / 2) u128Max /
          microsPerDollar : ℕ) : ℤ) i64Max := Micros.ofU128_val _
    _ = ((min ((tokens * price + microsPerDollar / 2) / microsPerDollar) (2 ^ 63 - 1) : ℕ) : ℤ) := by
        rw [hmax, ← Nat.cast_min, hsaturated]
    _ = min (halfUp microsPerDollar ((tokens * price : ℕ) : ℤ)) i64Max := by
        rw [hmax, Nat.cast_min]
        rfl

theorem halfUp_nonneg (n : ℕ) : 0 ≤ halfUp microsPerDollar (n : ℤ) := by
  unfold halfUp microsPerDollar
  omega

theorem i64Max_nonneg : 0 ≤ i64Max := by decide

/-- The price of an event. -/
theorem costMicros_val (i o : ℕ) (rate : Rate) :
    (costMicros i o rate).val =
      min (halfUp microsPerDollar ((i * rate.inputMicrosPer1m : ℕ) : ℤ) +
        halfUp microsPerDollar ((o * rate.outputMicrosPer1m : ℕ) : ℤ)) i64Max := by
  unfold costMicros
  rw [Micros.saturatingAdd_val (perDirectionCost_nonneg _ _) (perDirectionCost_nonneg _ _),
    perDirectionCost_val, perDirectionCost_val]
  have hi := halfUp_nonneg (i * rate.inputMicrosPer1m)
  have ho := halfUp_nonneg (o * rate.outputMicrosPer1m)
  have hmax := i64Max_nonneg
  omega

/-! ### Exact charges -/

/-- The exact charge of some tokens at a price for a million, in micro-dollars. -/
def exactCharge (d : ℕ × ℕ) : ℚ := (d.1 : ℚ) * d.2 / (microsPerDollar : ℕ)

/-- The directions of an event whose cached input is not told apart. -/
def plainDirections (i o : ℕ) (rate : Rate) : List (ℕ × ℕ) :=
  [(i, rate.inputMicrosPer1m), (o, rate.outputMicrosPer1m)]

/-- The directions of an event with a known cached subset of its input. -/
def directions (i o : ℕ) (c : Option ℕ) (rate : Rate) : List (ℕ × ℕ) :=
  match c, rate.cachedMicrosPer1m with
  | some cached, some price =>
      if cached = 0 then plainDirections i o rate
      else [(i - cached, rate.inputMicrosPer1m), (cached, price), (o, rate.outputMicrosPer1m)]
  | _, _ => plainDirections i o rate

/-- The exact charge of an event. -/
def exactTotal (ds : List (ℕ × ℕ)) : ℚ := (ds.map exactCharge).sum

/-- The directions of an event, each rounded half up. -/
def roundedTotal (ds : List (ℕ × ℕ)) : ℤ := (ds.map fun d => round (exactCharge d)).sum

theorem exactCharge_nonneg (d : ℕ × ℕ) : 0 ≤ exactCharge d := by
  unfold exactCharge
  positivity

theorem exactCharge_zero (price : ℕ) : exactCharge (0, price) = 0 := by simp [exactCharge]

/-- More tokens at a higher price are charged more. -/
theorem exactCharge_le {d d' : ℕ × ℕ} (ht : d.1 ≤ d'.1) (hp : d.2 ≤ d'.2) :
    exactCharge d ≤ exactCharge d' := by
  unfold exactCharge
  have hmul : (d.1 : ℚ) * d.2 ≤ d'.1 * d'.2 := by exact_mod_cast Nat.mul_le_mul ht hp
  exact div_le_div_of_nonneg_right hmul (Nat.cast_nonneg _)

/-- Tokens at one price are charged together as they are apart. -/
theorem exactCharge_add (t u price : ℕ) :
    exactCharge (t + u, price) = exactCharge (t, price) + exactCharge (u, price) := by
  unfold exactCharge
  push_cast
  ring

theorem round_exactCharge_nonneg (d : ℕ × ℕ) : 0 ≤ round (exactCharge d) := by
  have h := round_le_round (exactCharge_nonneg d)
  rwa [round_zero] at h

/-- The price of a direction is its exact charge, rounded half up and saturated. -/
theorem perDirectionCost_round (tokens price : ℕ) :
    (perDirectionCost tokens price).val = min (round (exactCharge (tokens, price))) i64Max := by
  have hround : halfUp microsPerDollar ((tokens * price : ℕ) : ℤ) =
      round (exactCharge (tokens, price)) := by
    have hunit : microsPerDollar = 2 * 500000 := rfl
    rw [exactCharge, hunit, halfUp_eq_round (by decide)]
    push_cast
    rfl
  rw [perDirectionCost_val, hround]

/-- **The price of an event** is the saturated sum of its rounded directions. -/
theorem costMicros_round (i o : ℕ) (rate : Rate) :
    (costMicros i o rate).val = min (roundedTotal (plainDirections i o rate)) i64Max := by
  have hi := round_exactCharge_nonneg (i, rate.inputMicrosPer1m)
  have ho := round_exactCharge_nonneg (o, rate.outputMicrosPer1m)
  have hmax := i64Max_nonneg
  have htotal : roundedTotal (plainDirections i o rate) =
      round (exactCharge (i, rate.inputMicrosPer1m)) +
        round (exactCharge (o, rate.outputMicrosPer1m)) := by
    simp [roundedTotal, plainDirections]
  rw [costMicros, Micros.saturatingAdd_val (perDirectionCost_nonneg _ _)
    (perDirectionCost_nonneg _ _), perDirectionCost_round, perDirectionCost_round, htotal]
  omega

/-- The same, with the cached subset of the input told apart. -/
theorem costMicrosWithCached_round (i o : ℕ) (c : Option ℕ) (rate : Rate) :
    (costMicrosWithCached i o c rate).val = min (roundedTotal (directions i o c rate)) i64Max := by
  unfold costMicrosWithCached directions
  cases c with
  | none => exact costMicros_round i o rate
  | some cached =>
      cases rate.cachedMicrosPer1m with
      | none => exact costMicros_round i o rate
      | some price =>
          dsimp only
          by_cases hcached : cached = 0
          · rw [if_pos hcached, if_pos hcached]
            exact costMicros_round i o rate
          · rw [if_neg hcached, if_neg hcached]
            have hu := round_exactCharge_nonneg (i - cached, rate.inputMicrosPer1m)
            have hc := round_exactCharge_nonneg (cached, price)
            have ho := round_exactCharge_nonneg (o, rate.outputMicrosPer1m)
            have hmax := i64Max_nonneg
            have htotal : roundedTotal [(i - cached, rate.inputMicrosPer1m), (cached, price),
                (o, rate.outputMicrosPer1m)] =
                round (exactCharge (i - cached, rate.inputMicrosPer1m)) +
                  (round (exactCharge (cached, price)) +
                    round (exactCharge (o, rate.outputMicrosPer1m))) := by
              simp [roundedTotal]
            rw [Micros.saturatingAdd_val (Micros.saturatingAdd_nonneg (perDirectionCost_nonneg _ _)
                (perDirectionCost_nonneg _ _)) (perDirectionCost_nonneg _ _),
              Micros.saturatingAdd_val (perDirectionCost_nonneg _ _) (perDirectionCost_nonneg _ _),
              perDirectionCost_round, perDirectionCost_round, perDirectionCost_round, htotal]
            omega

/-- The rounded directions of an event are at most half a micro-dollar each away from its exact
charge. -/
theorem roundedTotal_near (ds : List (ℕ × ℕ)) :
    |(roundedTotal ds : ℚ) - exactTotal ds| ≤ ds.length / 2 := by
  have h := abs_sum_sub_sum_round_le (ds.map exactCharge)
  rwa [List.map_map, List.length_map] at h

/-! ### More tokens and higher rates -/

/-- No price of `r` is above that of `r'`, and both or neither have one for cached tokens. -/
structure Rate.NotAbove (r r' : Rate) : Prop where
  input : r.inputMicrosPer1m ≤ r'.inputMicrosPer1m
  output : r.outputMicrosPer1m ≤ r'.outputMicrosPer1m
  cached : Option.Rel (· ≤ ·) r.cachedMicrosPer1m r'.cachedMicrosPer1m

/-- The tokens and the price of a direction are both at most those of another one. -/
def Below (d d' : ℕ × ℕ) : Prop := d.1 ≤ d'.1 ∧ d.2 ≤ d'.2

theorem roundedTotal_le {ds ds' : List (ℕ × ℕ)} (h : List.Forall₂ Below ds ds') :
    roundedTotal ds ≤ roundedTotal ds' := by
  induction h with
  | nil => exact le_refl _
  | cons hd _ ih =>
      simp only [roundedTotal, List.map_cons, List.sum_cons] at ih ⊢
      exact add_le_add (round_le_round (exactCharge_le hd.1 hd.2)) ih

variable {i i' o o' : ℕ} {c c' price : ℕ} {rate rate' : Rate}

theorem plainDirections_below (hi : i ≤ i') (ho : o ≤ o') (hrate : rate.NotAbove rate') :
    List.Forall₂ Below (plainDirections i o rate) (plainDirections i' o' rate') :=
  .cons ⟨hi, hrate.input⟩ (.cons ⟨ho, hrate.output⟩ .nil)

theorem directions_below (hi : i ≤ i') (ho : o ≤ o') (c : Option ℕ)
    (hrate : rate.NotAbove rate') :
    List.Forall₂ Below (directions i o c rate) (directions i' o' c rate') := by
  have hplain := plainDirections_below hi ho hrate
  have hcached := hrate.cached
  unfold directions
  cases c with
  | none => exact hplain
  | some cached =>
      cases hr : rate.cachedMicrosPer1m with
      | none =>
          rw [hr] at hcached
          cases hr' : rate'.cachedMicrosPer1m with
          | none => exact hplain
          | some price' =>
              rw [hr'] at hcached
              cases hcached
      | some price =>
          rw [hr] at hcached
          cases hr' : rate'.cachedMicrosPer1m with
          | none =>
              rw [hr'] at hcached
              cases hcached
          | some price' =>
              rw [hr'] at hcached
              dsimp only
              split
              · exact hplain
              · cases hcached with
                | some hprice =>
                    exact .cons ⟨Nat.sub_le_sub_right hi cached, hrate.input⟩
                      (.cons ⟨le_refl cached, hprice⟩ (.cons ⟨ho, hrate.output⟩ .nil))

/-- More tokens and higher prices never cost less. -/
theorem costMicrosWithCached_le (hi : i ≤ i') (ho : o ≤ o') (c : Option ℕ)
    (hrate : rate.NotAbove rate') :
    (costMicrosWithCached i o c rate).val ≤ (costMicrosWithCached i' o' c rate').val := by
  rw [costMicrosWithCached_round, costMicrosWithCached_round]
  exact min_le_min_right _ (roundedTotal_le (directions_below hi ho c hrate))

/-! ### The cached subset -/

/-- A known cached subset makes three directions; an empty one is charged nothing. -/
theorem roundedTotal_cached (hprice : rate.cachedMicrosPer1m = some price) :
    roundedTotal (directions i o (some c) rate) =
      round (exactCharge (i - c, rate.inputMicrosPer1m)) + round (exactCharge (c, price)) +
        round (exactCharge (o, rate.outputMicrosPer1m)) := by
  unfold directions
  rw [hprice]
  dsimp only
  split
  · rename_i hc
    rw [hc, exactCharge_zero, round_zero, Nat.sub_zero]
    simp [roundedTotal, plainDirections]
  · simp only [roundedTotal, List.map_cons, List.map_nil, List.sum_cons, List.sum_nil]
    ring

/-- The exact charge of the input, when more of it is cached at a price that is not above the plain
one. -/
theorem exact_cached_le {input : ℕ} (hc : c ≤ c') (hi : c' ≤ i) (hprice : price ≤ input) :
    exactCharge (i - c', input) + exactCharge (c', price) ≤
      exactCharge (i - c, input) + exactCharge (c, price) := by
  have hplain : i - c = i - c' + (c' - c) := by omega
  have hmore : c' = c + (c' - c) := by omega
  have hmoved : exactCharge (c' - c, price) ≤ exactCharge (c' - c, input) :=
    exactCharge_le (le_refl _) hprice
  rw [hplain, exactCharge_add]
  conv_lhs => rw [hmore, exactCharge_add, ← hmore]
  linarith

/-- The same, at a price that is not below the plain one. -/
theorem exact_cached_ge {input : ℕ} (hc : c ≤ c') (hi : c' ≤ i) (hprice : input ≤ price) :
    exactCharge (i - c, input) + exactCharge (c, price) ≤
      exactCharge (i - c', input) + exactCharge (c', price) := by
  have hplain : i - c = i - c' + (c' - c) := by omega
  have hmore : c' = c + (c' - c) := by omega
  have hmoved : exactCharge (c' - c, input) ≤ exactCharge (c' - c, price) :=
    exactCharge_le (le_refl _) hprice
  rw [hplain, exactCharge_add]
  conv_rhs => rw [hmore, exactCharge_add, ← hmore]
  linarith

/-- A larger cached subset at a price that is not above the plain one costs at most a micro-dollar
more. -/
theorem costMicrosWithCached_cached_le (o : ℕ) (hc : c ≤ c') (hi : c' ≤ i)
    (hcached : rate.cachedMicrosPer1m = some price) (hprice : price ≤ rate.inputMicrosPer1m) :
    (costMicrosWithCached i o (some c') rate).val ≤
      (costMicrosWithCached i o (some c) rate).val + 1 := by
  have hexact := round_exchange (exact_cached_le hc hi hprice)
  rw [costMicrosWithCached_round, costMicrosWithCached_round, roundedTotal_cached hcached,
    roundedTotal_cached hcached]
  omega

/-- A larger cached subset at a price that is not below the plain one costs at most a micro-dollar
less. -/
theorem costMicrosWithCached_cached_ge (o : ℕ) (hc : c ≤ c') (hi : c' ≤ i)
    (hcached : rate.cachedMicrosPer1m = some price) (hprice : rate.inputMicrosPer1m ≤ price) :
    (costMicrosWithCached i o (some c) rate).val ≤
      (costMicrosWithCached i o (some c') rate).val + 1 := by
  have hexact := round_exchange (exact_cached_ge hc hi hprice)
  rw [costMicrosWithCached_round, costMicrosWithCached_round, roundedTotal_cached hcached,
    roundedTotal_cached hcached]
  omega

/-! ### The published derivations -/

/-- A ledger row with the rate that was stored with it. -/
structure RowPricing where
  inputTokens : ℕ
  outputTokens : ℕ
  cachedTokens : Option ℕ
  rate : Rate

/-- Which derivation a vector is about. -/
inductive DerivationSpec where
  | costMicros (inputTokens outputTokens : ℕ) (rate : Rate)
  | costMicrosWithCached (inputTokens outputTokens : ℕ) (cachedTokens : Option ℕ) (rate : Rate)
  | twoRowOwnRateSum (rows : List RowPricing) (atLatestRate : ℤ)

/-- Run a derivation. -/
def runDerivation : DerivationSpec → ℤ
  | .costMicros i o rate => (costMicros i o rate).val
  | .costMicrosWithCached i o c rate => (costMicrosWithCached i o c rate).val
  | .twoRowOwnRateSum rows _ =>
      ((rows.map fun row => costMicrosWithCached row.inputTokens row.outputTokens row.cachedTokens
        row.rate).foldl Micros.saturatingAdd Micros.zero).val

/-- The directions of a row. -/
def RowPricing.directions (row : RowPricing) : List (ℕ × ℕ) :=
  Hekma.directions row.inputTokens row.outputTokens row.cachedTokens row.rate

/-- The directions a derivation prices. -/
def DerivationSpec.directions : DerivationSpec → List (ℕ × ℕ)
  | .costMicros i o rate => plainDirections i o rate
  | .costMicrosWithCached i o c rate => Hekma.directions i o c rate
  | .twoRowOwnRateSum rows _ => rows.flatMap RowPricing.directions

theorem roundedTotal_nonneg (ds : List (ℕ × ℕ)) : 0 ≤ roundedTotal ds := by
  refine List.sum_nonneg fun n hn => ?_
  obtain ⟨d, -, rfl⟩ := List.mem_map.1 hn
  exact round_exactCharge_nonneg d

theorem roundedTotal_append (ds ds' : List (ℕ × ℕ)) :
    roundedTotal (ds ++ ds') = roundedTotal ds + roundedTotal ds' := by
  simp [roundedTotal]

/-- Rows added up one after the other, from an amount that is not negative. -/
theorem foldl_rows_val (rows : List RowPricing) {m : Micros} (hm : 0 ≤ m.val) :
    ((rows.map fun row => costMicrosWithCached row.inputTokens row.outputTokens row.cachedTokens
      row.rate).foldl Micros.saturatingAdd m).val =
      min (m.val + roundedTotal (rows.flatMap RowPricing.directions)) i64Max := by
  induction rows generalizing m with
  | nil =>
      have h := m.property.2
      simp only [List.map_nil, List.foldl_nil, List.flatMap_nil, roundedTotal, List.sum_nil]
      omega
  | cons row rows ih =>
      have hrow := costMicrosWithCached_nonneg row.inputTokens row.outputTokens row.cachedTokens
        row.rate
      have hrest := roundedTotal_nonneg (rows.flatMap RowPricing.directions)
      rw [List.map_cons, List.foldl_cons, ih (Micros.saturatingAdd_nonneg hm hrow),
        Micros.saturatingAdd_val hm hrow, costMicrosWithCached_round, List.flatMap_cons,
        roundedTotal_append]
      change min (min (m.val + min (roundedTotal row.directions) i64Max) i64Max + _) i64Max = _
      omega

/-- A derivation is the saturated sum of the rounded directions it prices. -/
theorem runDerivation_round (spec : DerivationSpec) :
    runDerivation spec = min (roundedTotal spec.directions) i64Max := by
  cases spec with
  | costMicros i o rate => exact costMicros_round i o rate
  | costMicrosWithCached i o c rate => exact costMicrosWithCached_round i o c rate
  | twoRowOwnRateSum rows atLatestRate =>
      have h := foldl_rows_val rows (m := Micros.zero) (by decide)
      rwa [Micros.zero_val, zero_add] at h

/-! ### The arithmetic of prices -/

/-- Below saturation a price is off by at most half a micro-dollar for each direction. -/
theorem saturated_near {ds : List (ℕ × ℕ)} (h : roundedTotal ds ≤ i64Max) :
    |((min (roundedTotal ds) i64Max : ℤ) : ℚ) - exactTotal ds| ≤ ds.length / 2 := by
  rw [min_eq_left h]
  exact roundedTotal_near ds

/-- **The arithmetic of prices.**  Every derivation is the saturated sum of its exact charges, each
rounded half up, and lies between zero and the largest amount.  It never falls when the input, the
output or a rate grows, and below saturation it is off by at most half a micro-dollar for each
direction.  Moving input into the cached subset follows the cheaper rate up to one micro-dollar, and
so the cached form is at most a micro-dollar above the plain one. -/
theorem cost_exact :
    (∀ i o rate, (costMicros i o rate).val =
      min (roundedTotal (plainDirections i o rate)) i64Max) ∧
    (∀ i o c rate, (costMicrosWithCached i o c rate).val =
      min (roundedTotal (directions i o c rate)) i64Max) ∧
    (∀ spec, runDerivation spec = min (roundedTotal spec.directions) i64Max) ∧
    (∀ i o c rate, (0 ≤ (costMicros i o rate).val ∧ (costMicros i o rate).val ≤ i64Max) ∧
      0 ≤ (costMicrosWithCached i o c rate).val ∧
        (costMicrosWithCached i o c rate).val ≤ i64Max) ∧
    (∀ i i' o o' c rate rate', i ≤ i' → o ≤ o' → rate.NotAbove rate' →
      (costMicros i o rate).val ≤ (costMicros i' o' rate').val ∧
      (costMicrosWithCached i o c rate).val ≤ (costMicrosWithCached i' o' c rate').val) ∧
    (∀ i o c c' rate price, c ≤ c' → c' ≤ i → rate.cachedMicrosPer1m = some price →
      (price ≤ rate.inputMicrosPer1m → (costMicrosWithCached i o (some c') rate).val ≤
        (costMicrosWithCached i o (some c) rate).val + 1) ∧
      (rate.inputMicrosPer1m ≤ price → (costMicrosWithCached i o (some c) rate).val ≤
        (costMicrosWithCached i o (some c') rate).val + 1)) ∧
    (∀ i o c rate,
      (roundedTotal (plainDirections i o rate) ≤ i64Max →
        |((costMicros i o rate).val : ℚ) - exactTotal (plainDirections i o rate)| ≤
          (plainDirections i o rate).length / 2) ∧
      (roundedTotal (directions i o c rate) ≤ i64Max →
        |((costMicrosWithCached i o c rate).val : ℚ) - exactTotal (directions i o c rate)| ≤
          (directions i o c rate).length / 2)) ∧
    ∀ i o c rate price, c ≤ i → rate.cachedMicrosPer1m = some price →
      price ≤ rate.inputMicrosPer1m →
      (costMicrosWithCached i o (some c) rate).val ≤ (costMicros i o rate).val + 1 := by
  refine ⟨costMicros_round, costMicrosWithCached_round, runDerivation_round, ?_, ?_, ?_, ?_, ?_⟩
  · intro i o c rate
    exact ⟨⟨costMicros_nonneg i o rate, (costMicros i o rate).property.2⟩,
      costMicrosWithCached_nonneg i o c rate, (costMicrosWithCached i o c rate).property.2⟩
  · intro i i' o o' c rate rate' hi ho hrate
    exact ⟨costMicrosWithCached_le hi ho none hrate, costMicrosWithCached_le hi ho c hrate⟩
  · intro i o c c' rate price hc hi hcached
    exact ⟨costMicrosWithCached_cached_le o hc hi hcached,
      costMicrosWithCached_cached_ge o hc hi hcached⟩
  · intro i o c rate
    rw [costMicros_round, costMicrosWithCached_round]
    exact ⟨saturated_near, saturated_near⟩
  · intro i o c rate price hc hcached hprice
    have h := costMicrosWithCached_cached_le o (Nat.zero_le c) hc hcached hprice
    rwa [costMicrosWithCached_zero] at h

/-- The bounds hold of an event at the limits of its counts, whose price saturates. -/
theorem cost_exact_saturated :
    (costMicros (2 ^ 64 - 1) (2 ^ 64 - 1) ⟨2 ^ 64 - 1, 1, none⟩).val ≤
        (costMicros (2 ^ 64 - 1) (2 ^ 64 - 1) ⟨2 ^ 64 - 1, 2, none⟩).val ∧
      (costMicros (2 ^ 64 - 1) (2 ^ 64 - 1) ⟨2 ^ 64 - 1, 1, none⟩).val = i64Max := by
  obtain ⟨-, -, -, -, hmono, -⟩ := cost_exact
  refine ⟨(hmono _ _ _ _ none _ _ (le_refl _) (le_refl _) ⟨le_refl _, by decide, .none⟩).1, ?_⟩
  decide +kernel

/-- **The cached subset moves the price both ways**: of four tokens at half a micro-dollar each, none
cached cost 2, one cached 3, and two cached 2 again. -/
theorem cached_not_monotone :
    (¬ ∀ i o c c' rate, c ≤ c' → c' < i → (costMicrosWithCached i o (some c) rate).val ≤
      (costMicrosWithCached i o (some c') rate).val) ∧
    ¬ ∀ i o c c' rate, c ≤ c' → c' < i → (costMicrosWithCached i o (some c') rate).val ≤
      (costMicrosWithCached i o (some c) rate).val := by
  constructor
  · intro h
    exact absurd (h 4 0 1 2 ⟨500000, 0, some 500000⟩ (by decide) (by decide)) (by decide +kernel)
  · intro h
    exact absurd (h 4 0 0 1 ⟨500000, 0, some 500000⟩ (by decide) (by decide)) (by decide +kernel)

end Hekma
