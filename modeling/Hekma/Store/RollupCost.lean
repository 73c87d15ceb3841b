/-
**The cost of a rollup** (`store/run_store_sqlite.rs`, `store/sqlite.rs`, `domain/cost.rs`).

A rollup adds up the prices of its rows, each rounded half up to whole micro-dollars.  The store
promises that this is never below the price of the tokens taken together.  A row may be rounded
down, and then it can be.

Main definitions:

* `StoredUsage.PricedAt` — a row priced by one pair of direction rates;
* `dropped` — what rounding the rows of a direction leaves out.

Main results:

* `costMicros_val`, `rollup_val` — the price of an event and of a rollup.
-/

import Hekma.Lib.Rounding
import Hekma.Store.UsageLedger

set_option relaxedAutoImplicit false
set_option autoImplicit false

namespace Hekma

open Rounding

/-! ### Rows under one pair of rates -/

/-- A row under one pair of direction rates whose cached input, if any, has no price of its own. -/
structure StoredUsage.PricedAt (ri ro : ℤ) (u : StoredUsage) : Prop where
  input : u.rateInput = some ri
  output : u.rateOutput = some ro
  plain : u.rateCached = none ∨ u.cached.getD 0 = 0

/-- The pair of rates. -/
def ratePair (ri ro : ℤ) : Rate := ⟨ri.toNat, ro.toNat, none⟩

/-- The rollup of some rows. -/
def rollupOf (rows : List StoredUsage) : RollupRow := rows.foldl RollupRow.add RollupRow.zero

/-- The price of one direction of each row, in millionths of a micro-dollar. -/
def charges (counts : List ℕ) (price : ℕ) : List ℤ := counts.map fun t => ((t * price : ℕ) : ℤ)

/-- What rounding the rows of a direction leaves out, less the price of the tokens that their sum
does not count because it saturates. -/
def dropped (counts : List ℕ) (price : ℕ) : ℤ :=
  ((charges counts price).map (rest microsPerDollar)).sum -
    (((counts.sum - u64Max) * price : ℕ) : ℤ)

/-- What the rows of a direction are charged after rounding, in millionths of a micro-dollar. -/
def charged (counts : List ℕ) (price : ℕ) : ℤ :=
  (charges counts price).sum - ((charges counts price).map (rest microsPerDollar)).sum

variable {ri ro : ℤ} {rows : List StoredUsage} {u : StoredUsage}

/-- Such a row is priced without regard to its cached input. -/
theorem StoredUsage.PricedAt.cost (h : u.PricedAt ri ro) :
    u.cost = costMicros u.input u.output (ratePair ri ro) := by
  unfold StoredUsage.cost
  rw [h.input, h.output]
  dsimp only
  cases hcached : u.cached with
  | none => rfl
  | some cached =>
      rcases h.plain with hrate | hzero
      · rw [hrate]
        rfl
      · rw [hcached, Option.getD_some] at hzero
        rw [hzero, costMicrosWithCached_zero]
        rfl

/-! ### Prices -/

/-- The sum of the rounded charges of a direction. -/
def roundedSum (counts : List ℕ) (price : ℕ) : ℤ :=
  ((charges counts price).map (halfUp microsPerDollar)).sum

theorem roundedSum_cons (t : ℕ) (counts : List ℕ) (price : ℕ) :
    roundedSum (t :: counts) price =
      halfUp microsPerDollar ((t * price : ℕ) : ℤ) + roundedSum counts price := rfl

theorem roundedSum_nonneg (counts : List ℕ) (price : ℕ) : 0 ≤ roundedSum counts price := by
  refine List.sum_nonneg fun n hn => ?_
  obtain ⟨m, hm, rfl⟩ := List.mem_map.1 hn
  obtain ⟨t, -, rfl⟩ := List.mem_map.1 hm
  exact halfUp_nonneg _

/-- A row under the pair of rates adds its two rounded charges. -/
theorem add_cost_val {r : RollupRow} (hr : 0 ≤ r.cost.val) (hu : u.PricedAt ri ro) :
    (r.add u).cost.val = min (r.cost.val +
      (halfUp microsPerDollar ((u.input * ri.toNat : ℕ) : ℤ) +
        halfUp microsPerDollar ((u.output * ro.toNat : ℕ) : ℤ))) i64Max := by
  change (r.cost.saturatingAdd u.cost).val = _
  rw [Micros.saturatingAdd_val hr u.cost_nonneg, hu.cost, costMicros_val]
  have hmax := i64Max_nonneg
  simp only [ratePair]
  omega

/-- The rows added to a rollup: their tokens, and their rounded charges. -/
theorem foldl_add_val (h : ∀ u ∈ rows, u.PricedAt ri ro) (r : RollupRow) (hr : 0 ≤ r.cost.val) :
    (rows.foldl RollupRow.add r).input.val =
        min (r.input.val + (rows.map StoredUsage.input).sum) u64Max ∧
      (rows.foldl RollupRow.add r).output.val =
        min (r.output.val + (rows.map StoredUsage.output).sum) u64Max ∧
      (rows.foldl RollupRow.add r).cost.val =
        min (r.cost.val + (roundedSum (rows.map StoredUsage.input) ri.toNat +
          roundedSum (rows.map StoredUsage.output) ro.toNat)) i64Max := by
  induction rows generalizing r with
  | nil =>
      have hi := r.input.property
      have ho := r.output.property
      have hc := r.cost.property.2
      simp only [List.foldl_nil, List.map_nil, List.sum_nil, roundedSum, charges]
      omega
  | cons u rows ih =>
      have hcost := add_cost_val hr (h u List.mem_cons_self)
      obtain ⟨hi, ho, hc⟩ := ih (fun v hv => h v (List.mem_cons_of_mem _ hv)) (r.add u)
        (Micros.saturatingAdd_nonneg hr u.cost_nonneg)
      have hinput : (r.add u).input.val = min (r.input.val + u.input) u64Max := rfl
      have houtput : (r.add u).output.val = min (r.output.val + u.output) u64Max := rfl
      have hpos := roundedSum_nonneg (rows.map StoredUsage.input) ri.toNat
      have hpos' := roundedSum_nonneg (rows.map StoredUsage.output) ro.toNat
      simp only [List.foldl_cons, List.map_cons, List.sum_cons, roundedSum_cons]
      -- a sum that is cut at each row is the sum cut once, as nothing added is negative
      refine ⟨?_, ?_, ?_⟩
      · rw [hi, hinput]
        omega
      · rw [ho, houtput]
        omega
      · rw [hc, hcost]
        generalize roundedSum (rows.map StoredUsage.input) ri.toNat = sums at hpos ⊢
        generalize roundedSum (rows.map StoredUsage.output) ro.toNat = sums' at hpos' ⊢
        clear hi ho hc hcost hinput houtput
        omega

/-- A rollup: the sums of the tokens, and of the rounded charges. -/
theorem rollup_val (h : ∀ u ∈ rows, u.PricedAt ri ro) :
    (rollupOf rows).input.val = min (rows.map StoredUsage.input).sum u64Max ∧
    (rollupOf rows).output.val = min (rows.map StoredUsage.output).sum u64Max ∧
    (rollupOf rows).cost.val =
      min (roundedSum (rows.map StoredUsage.input) ri.toNat +
        roundedSum (rows.map StoredUsage.output) ro.toNat) i64Max := by
  have hzero := foldl_add_val h RollupRow.zero (Micros.ofU128_nonneg 0)
  have hcost : RollupRow.zero.cost.val = 0 := by decide
  have hinput : RollupRow.zero.input.val = 0 := by decide
  have houtput : RollupRow.zero.output.val = 0 := by decide
  rw [hcost, hinput, houtput, zero_add, zero_add, zero_add] at hzero
  exact hzero

/-! ### Rows together and rows apart -/

theorem charges_sum (counts : List ℕ) (price : ℕ) :
    (charges counts price).sum = ((counts.sum * price : ℕ) : ℤ) := by
  induction counts with
  | nil => simp [charges]
  | cons t counts ih =>
      unfold charges at ih ⊢
      rw [List.map_cons, List.sum_cons, ih, List.sum_cons]
      push_cast
      ring

/-- The tokens of a direction taken together are priced as its rows, and what rounding the rows
has left out. -/
theorem halfUp_together (counts : List ℕ) (price : ℕ) :
    halfUp microsPerDollar ((min counts.sum u64Max * price : ℕ) : ℤ) =
      roundedSum counts price + halfUp microsPerDollar (dropped counts price) := by
  have hlost : (charges counts price).sum - ((min counts.sum u64Max * price : ℕ) : ℤ) =
      (((counts.sum - u64Max) * price : ℕ) : ℤ) := by
    have hsplit : counts.sum * price =
        (counts.sum - u64Max) * price + min counts.sum u64Max * price := by
      rw [← Nat.add_mul]
      congr 1
      omega
    rw [charges_sum, hsplit, Nat.cast_add]
    exact add_sub_cancel_right _ _
  rw [halfUp_eq_sum microsPerDollar_pos (charges counts price), hlost]
  rfl

/-- The charges of a direction are the whole micro-dollars of its rows. -/
theorem charged_eq (counts : List ℕ) (price : ℕ) :
    charged counts price = microsPerDollar * roundedSum counts price := by
  have hsum : (charges counts price).sum =
      microsPerDollar * ((charges counts price).map (halfUp microsPerDollar)).sum +
        ((charges counts price).map (rest microsPerDollar)).sum := sum_eq _
  unfold charged roundedSum
  linarith

/-- **A rollup is not below the price of its tokens together** just when what rounding its rows has
left out is no whole micro-dollar over the two directions, or the rows reach the largest amount. -/
theorem rollup_cost_ge_iff (h : ∀ u ∈ rows, u.PricedAt ri ro) :
    (costMicros (rollupOf rows).input.val (rollupOf rows).output.val (ratePair ri ro)).val ≤
        (rollupOf rows).cost.val ↔
      halfUp microsPerDollar (dropped (rows.map StoredUsage.input) ri.toNat) +
          halfUp microsPerDollar (dropped (rows.map StoredUsage.output) ro.toNat) ≤ 0 ∨
        microsPerDollar * i64Max ≤ charged (rows.map StoredUsage.input) ri.toNat +
          charged (rows.map StoredUsage.output) ro.toNat := by
  obtain ⟨hi, ho, hc⟩ := rollup_val h
  have hpinned : microsPerDollar * i64Max ≤ charged (rows.map StoredUsage.input) ri.toNat +
      charged (rows.map StoredUsage.output) ro.toNat ↔
      i64Max ≤ roundedSum (rows.map StoredUsage.input) ri.toNat +
        roundedSum (rows.map StoredUsage.output) ro.toNat := by
    rw [charged_eq, charged_eq, ← mul_add]
    exact mul_le_mul_iff_of_pos_left microsPerDollar_pos
  rw [hpinned, costMicros_val, hi, ho, hc]
  simp only [ratePair]
  rw [halfUp_together, halfUp_together]
  omega

/-- The hypotheses hold of two rows that are rounded up, and the rollup is above the price of their
tokens together. -/
theorem rollup_cost_ge_up :
    (costMicros (rollupOf [⟨1, 0, some 1500000, some 0, none, none⟩,
        ⟨1, 0, some 1500000, some 0, none, none⟩]).input.val
      (rollupOf [⟨1, 0, some 1500000, some 0, none, none⟩,
        ⟨1, 0, some 1500000, some 0, none, none⟩]).output.val (ratePair 1500000 0)).val ≤
      (rollupOf [⟨1, 0, some 1500000, some 0, none, none⟩,
        ⟨1, 0, some 1500000, some 0, none, none⟩]).cost.val :=
  (rollup_cost_ge_iff fun u hu => by
    simp only [List.mem_cons, List.not_mem_nil, or_false, or_self] at hu
    exact hu ▸ ⟨rfl, rfl, .inl rfl⟩).2 (.inl (by decide +kernel))

/-- **Two rows that are rounded down** cost nothing, and their tokens together a micro-dollar. -/
theorem rollup_cost_down :
    (rollupOf [⟨1, 0, some 400000, some 0, none, none⟩,
        ⟨1, 0, some 400000, some 0, none, none⟩]).cost.val = 0 ∧
      (costMicros (rollupOf [⟨1, 0, some 400000, some 0, none, none⟩,
          ⟨1, 0, some 400000, some 0, none, none⟩]).input.val
        (rollupOf [⟨1, 0, some 400000, some 0, none, none⟩,
          ⟨1, 0, some 400000, some 0, none, none⟩]).output.val (ratePair 400000 0)).val = 1 := by
  decide +kernel

end Hekma
