/-
**The totals of the Fleet** (`FleetTotals::from_entries`).

The rows of the Fleet are summed into one: the tokens of all of them, the dollars of those that have
a rate, and the cached tokens if every row knows its own.  Tokens without a price make the dollar
total a lower bound, which says how many rows it leaves out.  The sums saturate.

Beside the totals stand the exact sums, which can be added up in any order; the totals are what is
shown of them.  A cost is never negative, so nothing that has saturated comes down again.

Main definitions:

* `FleetTotals.fromEntries` — the totals of some rows;
* `ExactTotals`, `ExactTotals.of` — the exact sums, and those of some rows;
* `ExactTotals.shown` — what is shown of them;
* `FleetTotals.combine` — the totals of two parts of a Fleet, together.

Main results:

* `fromEntries_eq_shown` — the totals are what is shown of the exact sums;
* `fleetTotals_fold` — **the totals are a fold of the rows**, in any order and for any split.
-/

import Hekma.Supervisor.FleetView
import Hekma.Store.RollupCost

set_option relaxedAutoImplicit false
set_option autoImplicit false

namespace Hekma

/-! ### The totals -/

/-- Input and output together. -/
def UsageView.cumulativeTotalTokens (v : UsageView) : U64 :=
  v.cumulativeInputTokens.saturatingAdd v.cumulativeOutputTokens.val

/-- The totals of the Fleet. -/
structure FleetTotals where
  totalInputTokens : U64
  totalOutputTokens : U64
  totalDollars : Option Micros
  dollarsPartial : Bool
  unpricedCount : ℕ
  estimateLabel : Option EstimateLabel
  totalCachedTokens : Option U64
  deriving DecidableEq

namespace FleetTotals

/-- The running sums. -/
structure Tally where
  totalInputTokens : U64
  totalOutputTokens : U64
  totalCachedTokens : Option U64
  dollarSum : Micros
  anyRate : Bool
  unpricedCount : ℕ

/-- The sums before the first row. -/
def Tally.start : Tally := ⟨.saturate 0, .saturate 0, some (.saturate 0), .zero, false, 0⟩

/-- Add a row.  One whose cached tokens are unknown makes their sum unknown for good; one without a
price counts as unpriced if it has tokens. -/
def Tally.add (t : Tally) (entry : FleetEntry) : Tally :=
  let usage := entry.usage
  let t := { t with
    totalInputTokens := t.totalInputTokens.saturatingAdd usage.cumulativeInputTokens.val
    totalOutputTokens := t.totalOutputTokens.saturatingAdd usage.cumulativeOutputTokens.val
    totalCachedTokens :=
      match usage.cumulativeCachedTokens, t.totalCachedTokens with
      | some cached, some sum => some (sum.saturatingAdd cached.val)
      | _, _ => none }
  match usage.cumulativeDollars with
  | some cost => { t with anyRate := true, dollarSum := t.dollarSum.saturatingAdd cost }
  | none =>
      if 0 < usage.cumulativeTotalTokens.val then { t with unpricedCount := t.unpricedCount + 1 }
      else t

/-- The totals of some rows.  Without a price there is no dollar total, and nothing it leaves
out. -/
def fromEntries (entries : List FleetEntry) : FleetTotals :=
  let t := entries.foldl Tally.add .start
  let dollarsPartial := t.anyRate && 0 < t.unpricedCount
  { totalInputTokens := t.totalInputTokens
    totalOutputTokens := t.totalOutputTokens
    totalDollars := if t.anyRate then some t.dollarSum else none
    dollarsPartial
    unpricedCount := if dollarsPartial then t.unpricedCount else 0
    estimateLabel := if t.anyRate then some .estimated else none
    totalCachedTokens := t.totalCachedTokens }

end FleetTotals

/-! ### Exact sums -/

namespace FleetEntry

/-- The row has a dollar figure. -/
def priced (entry : FleetEntry) : Bool := entry.usage.cumulativeDollars.isSome

/-- The row has tokens. -/
def metered (entry : FleetEntry) : Bool := 0 < entry.usage.cumulativeTotalTokens.val

/-- The row has tokens, and no dollar figure. -/
def unpriced (entry : FleetEntry) : Bool := entry.metered && !entry.priced

/-- The row knows its cached tokens. -/
def cachedKnown (entry : FleetEntry) : Bool := entry.usage.cumulativeCachedTokens.isSome

/-- The dollar figure of the row, if it has one. -/
def dollars (entry : FleetEntry) : ℤ := (entry.usage.cumulativeDollars.map Subtype.val).getD 0

/-- The cached tokens of the row, if it knows them. -/
def cached (entry : FleetEntry) : ℕ := (entry.usage.cumulativeCachedTokens.map Subtype.val).getD 0

/-- A cost is never negative. -/
def CostNonneg (entry : FleetEntry) : Prop := ∀ cost ∈ entry.usage.cumulativeDollars, 0 ≤ cost.val

end FleetEntry

/-- The exact sums over some rows, and how many of them are priced, unpriced though they have
tokens, and without a known number of cached tokens. -/
structure ExactTotals where
  input : ℕ
  output : ℕ
  cached : ℕ
  cachedUnknown : ℕ
  dollars : ℤ
  priced : ℕ
  unpriced : ℕ
  deriving DecidableEq

namespace ExactTotals

/-- The exact sums of some rows. -/
def of (entries : List FleetEntry) : ExactTotals where
  input := (entries.map fun e => e.usage.cumulativeInputTokens.val).sum
  output := (entries.map fun e => e.usage.cumulativeOutputTokens.val).sum
  cached := (entries.map FleetEntry.cached).sum
  cachedUnknown := entries.countP fun e => !e.cachedKnown
  dollars := (entries.map FleetEntry.dollars).sum
  priced := entries.countP FleetEntry.priced
  unpriced := entries.countP FleetEntry.unpriced

/-- The sums of two parts. -/
instance : Add ExactTotals where
  add x y := ⟨x.input + y.input, x.output + y.output, x.cached + y.cached,
    x.cachedUnknown + y.cachedUnknown, x.dollars + y.dollars, x.priced + y.priced,
    x.unpriced + y.unpriced⟩

/-- What is shown of exact sums. -/
def shown (x : ExactTotals) : FleetTotals where
  totalInputTokens := .saturate x.input
  totalOutputTokens := .saturate x.output
  totalDollars := if 0 < x.priced then some (.clamp x.dollars) else none
  dollarsPartial := 0 < x.priced && 0 < x.unpriced
  unpricedCount := if 0 < x.priced then x.unpriced else 0
  estimateLabel := if 0 < x.priced then some .estimated else none
  totalCachedTokens := if x.cachedUnknown = 0 then some (.saturate x.cached) else none

end ExactTotals

/-! ### Adding up exact sums -/

namespace ExactTotals

variable {x y : ExactTotals} {a b entries : List FleetEntry} {entry : FleetEntry}

theorem add_eq (x y : ExactTotals) :
    x + y = ⟨x.input + y.input, x.output + y.output, x.cached + y.cached,
      x.cachedUnknown + y.cachedUnknown, x.dollars + y.dollars, x.priced + y.priced,
      x.unpriced + y.unpriced⟩ := rfl

theorem of_append (a b : List FleetEntry) : of (a ++ b) = of a + of b := by
  rw [add_eq]
  simp only [of, List.map_append, List.sum_append, List.countP_append]

/-- The exact sums of one row. -/
theorem of_singleton (entry : FleetEntry) :
    of [entry] = ⟨entry.usage.cumulativeInputTokens.val, entry.usage.cumulativeOutputTokens.val,
      entry.cached, if entry.cachedKnown then 0 else 1, entry.dollars,
      if entry.priced then 1 else 0, if entry.unpriced then 1 else 0⟩ := by
  have hknown : (if (!entry.cachedKnown) = true then 1 else 0)
      = if entry.cachedKnown = true then 0 else 1 := by
    cases entry.cachedKnown with
    | false => rfl
    | true => rfl
  simp only [of, List.map_singleton, List.sum_singleton, List.countP_singleton, hknown]

/-- Exact sums do not depend on the order of the rows. -/
theorem of_perm (h : a.Perm b) : of a = of b := by
  simp only [of, (h.map _).sum_eq, h.countP_eq]

theorem dollars_nonneg (h : ∀ e ∈ entries, e.CostNonneg) : 0 ≤ (of entries).dollars := by
  refine List.sum_nonneg fun d hd => ?_
  obtain ⟨e, he, rfl⟩ := List.mem_map.1 hd
  unfold FleetEntry.dollars
  cases hcost : e.usage.cumulativeDollars with
  | none => exact le_refl _
  | some cost => exact h e he cost hcost

end ExactTotals

/-! ### The running sums are those of exact sums -/

namespace FleetTotals

open ExactTotals

variable {a b entries : List FleetEntry} {entry : FleetEntry} {x y : ExactTotals}

/-- The running sums for exact ones. -/
def Tally.ofExact (x : ExactTotals) : Tally where
  totalInputTokens := .saturate x.input
  totalOutputTokens := .saturate x.output
  totalCachedTokens := if x.cachedUnknown = 0 then some (.saturate x.cached) else none
  dollarSum := .clamp x.dollars
  anyRate := 0 < x.priced
  unpricedCount := x.unpriced

theorem saturatingAdd_saturate_val (n : ℕ) (u : U64) :
    (U64.saturate n).saturatingAdd u.val = U64.saturate (n + u.val) := by
  refine Subtype.ext ?_
  simp only [U64.saturatingAdd, U64.saturate]
  omega

/-- Costs that are not negative saturate once, wherever the sum is cut. -/
theorem clamp_saturatingAdd_clamp {c d : ℤ} (hc : 0 ≤ c) (hd : 0 ≤ d) :
    (Micros.clamp c).saturatingAdd (Micros.clamp d) = Micros.clamp (c + d) := by
  have hmax : 0 ≤ i64Max := by decide
  have hc' : 0 ≤ (Micros.clamp c).val := by
    rw [Micros.clamp_val_of_nonneg hc]
    omega
  have hd' : 0 ≤ (Micros.clamp d).val := by
    rw [Micros.clamp_val_of_nonneg hd]
    omega
  refine Subtype.ext ?_
  rw [Micros.saturatingAdd_val hc' hd', Micros.clamp_val_of_nonneg hc,
    Micros.clamp_val_of_nonneg hd, Micros.clamp_val_of_nonneg (by omega)]
  omega

theorem clamp_self (cost : Micros) : Micros.clamp cost.val = cost := by
  have h := cost.2
  refine Subtype.ext ?_
  rw [Micros.clamp_val]
  omega

/-- The cached tokens of a row are added to a sum that is still known. -/
theorem Tally.add_cached (entry : FleetEntry) (x : ExactTotals) :
    (match entry.usage.cumulativeCachedTokens,
        (if x.cachedUnknown = 0 then some (U64.saturate x.cached) else none) with
      | some cached, some sum => some (sum.saturatingAdd cached.val)
      | _, _ => none)
      = if x.cachedUnknown + (if entry.cachedKnown then 0 else 1) = 0 then
          some (U64.saturate (x.cached + entry.cached)) else none := by
  unfold FleetEntry.cachedKnown FleetEntry.cached
  cases entry.usage.cumulativeCachedTokens with
  | none => simp
  | some cached =>
      by_cases hunknown : x.cachedUnknown = 0
      · simp [hunknown, saturatingAdd_saturate_val]
      · simp [hunknown]

/-- A row adds its exact sums. -/
theorem Tally.add_ofExact (hx : 0 ≤ x.dollars) (he : entry.CostNonneg) :
    (Tally.ofExact x).add entry = Tally.ofExact (x + of [entry]) := by
  have hcached := Tally.add_cached entry x
  rw [of_singleton, add_eq]
  unfold Tally.add Tally.ofExact
  dsimp only
  rw [saturatingAdd_saturate_val, saturatingAdd_saturate_val, hcached]
  unfold FleetEntry.priced FleetEntry.unpriced FleetEntry.priced FleetEntry.dollars
    FleetEntry.metered
  cases hcost : entry.usage.cumulativeDollars with
  | some cost =>
      have hsum := clamp_saturatingAdd_clamp hx (he cost hcost)
      rw [clamp_self] at hsum
      simp [hsum]
  | none =>
      by_cases htokens : 0 < entry.usage.cumulativeTotalTokens.val
      · simp [htokens]
      · simp [htokens]

theorem Tally.start_eq : Tally.start = Tally.ofExact (of []) := rfl

/-- The running sums behind some rows. -/
theorem Tally.foldl_ofExact (h : ∀ e ∈ b, e.CostNonneg) (ha : ∀ e ∈ a, e.CostNonneg) :
    b.foldl Tally.add (Tally.ofExact (of a)) = Tally.ofExact (of (a ++ b)) := by
  induction b generalizing a with
  | nil => rw [List.append_nil, List.foldl_nil]
  | cons entry b ih =>
      have hentry := h entry List.mem_cons_self
      have happ : a ++ entry :: b = (a ++ [entry]) ++ b := by simp
      rw [List.foldl_cons, Tally.add_ofExact (dollars_nonneg ha) hentry, ← of_append, happ]
      refine ih (fun e he => h e (List.mem_cons_of_mem entry he)) fun e he => ?_
      rcases List.mem_append.1 he with he | he
      · exact ha e he
      · exact List.mem_singleton.1 he ▸ hentry

/-- **The totals are what is shown of the exact sums.** -/
theorem fromEntries_eq_shown (h : ∀ e ∈ entries, e.CostNonneg) :
    fromEntries entries = (of entries).shown := by
  have hfold := Tally.foldl_ofExact h (a := []) (by simp)
  rw [← Tally.start_eq, List.nil_append] at hfold
  simp only [fromEntries, hfold, shown, Tally.ofExact, decide_eq_true_eq]
  by_cases hpriced : 0 < (of entries).priced
  · by_cases hunpriced : 0 < (of entries).unpriced
    · simp [hpriced, hunpriced]
    · have hzero : (of entries).unpriced = 0 := by omega
      simp [hpriced, hzero]
  · simp [hpriced]

/-! ### Two parts of a Fleet -/

/-- The dollar totals of two parts, of which either may have none. -/
def combineDollars : Option Micros → Option Micros → Option Micros
  | some c, some d => some (c.saturatingAdd d)
  | some c, none => some c
  | none, d => d

/-- The totals of two parts, with the number of rows in each that have tokens and no price. -/
def combine (t : FleetTotals) (unpriced : ℕ) (t' : FleetTotals) (unpriced' : ℕ) : FleetTotals :=
  let totalDollars := combineDollars t.totalDollars t'.totalDollars
  { totalInputTokens := t.totalInputTokens.saturatingAdd t'.totalInputTokens.val
    totalOutputTokens := t.totalOutputTokens.saturatingAdd t'.totalOutputTokens.val
    totalDollars
    dollarsPartial := totalDollars.isSome && 0 < unpriced + unpriced'
    unpricedCount := if totalDollars.isSome then unpriced + unpriced' else 0
    estimateLabel := if totalDollars.isSome then some .estimated else none
    totalCachedTokens :=
      match t.totalCachedTokens, t'.totalCachedTokens with
      | some cached, some cached' => some (cached.saturatingAdd cached'.val)
      | _, _ => none }

theorem combineDollars_shown (hx : 0 ≤ x.dollars) (hy : 0 ≤ y.dollars)
    (hx0 : x.priced = 0 → x.dollars = 0) (hy0 : y.priced = 0 → y.dollars = 0) :
    combineDollars x.shown.totalDollars y.shown.totalDollars = (x + y).shown.totalDollars := by
  rw [add_eq]
  unfold shown
  dsimp only
  by_cases hpx : 0 < x.priced
  · by_cases hpy : 0 < y.priced
    · have hpos : 0 < x.priced + y.priced := by omega
      rw [if_pos hpx, if_pos hpy, if_pos hpos]
      exact congrArg some (clamp_saturatingAdd_clamp hx hy)
    · have hpos : 0 < x.priced + y.priced := by omega
      rw [if_pos hpx, if_neg hpy, if_pos hpos, hy0 (by omega), add_zero]
      rfl
  · rw [if_neg hpx, hx0 (by omega), zero_add]
    have hzero : x.priced + y.priced = y.priced := by omega
    rw [hzero]
    rfl

theorem combine_shown (hx : 0 ≤ x.dollars) (hy : 0 ≤ y.dollars)
    (hx0 : x.priced = 0 → x.dollars = 0) (hy0 : y.priced = 0 → y.dollars = 0) :
    combine x.shown x.unpriced y.shown y.unpriced = (x + y).shown := by
  have hisSome : (x + y).shown.totalDollars.isSome = decide (0 < x.priced + y.priced) := by
    rw [add_eq]
    unfold shown
    by_cases h : 0 < x.priced + y.priced
    · simp [h]
    · simp [h]
  have hcached : ∀ c d : U64, c = .saturate x.cached → d = .saturate y.cached →
      c.saturatingAdd d.val = U64.saturate (x.cached + y.cached) := by
    rintro _ _ rfl rfl
    exact (U64.saturate_add x.cached y.cached).symm
  unfold combine
  dsimp only
  rw [combineDollars_shown hx hy hx0 hy0, hisSome]
  rw [add_eq]
  unfold shown
  dsimp only
  rw [U64.saturate_add x.input, U64.saturate_add x.output]
  congr 1
  · simp
  · simp
  · by_cases hcx : x.cachedUnknown = 0
    · by_cases hcy : y.cachedUnknown = 0
      · simp [hcx, hcy, U64.saturate_add]
      · simp [hcx, hcy]
    · simp [hcx]

/-- Without a price there are no dollars. -/
theorem dollars_of_priced (entries : List FleetEntry) (h : (of entries).priced = 0) :
    (of entries).dollars = 0 := by
  have hnone : ∀ e ∈ entries, e.usage.cumulativeDollars = none := by
    intro e he
    have := List.countP_eq_zero.1 h e he
    simpa [FleetEntry.priced] using this
  refine List.sum_eq_zero fun d hd => ?_
  obtain ⟨e, he, rfl⟩ := List.mem_map.1 hd
  rw [FleetEntry.dollars, hnone e he]
  rfl

/-! ### The totals say what they should -/

/-- **What the totals of some rows are.** -/
structure Of (entries : List FleetEntry) (t : FleetTotals) : Prop where
  input : t.totalInputTokens.val
    = min (entries.map fun e => e.usage.cumulativeInputTokens.val).sum u64Max
  output : t.totalOutputTokens.val
    = min (entries.map fun e => e.usage.cumulativeOutputTokens.val).sum u64Max
  dollars_isSome : t.totalDollars.isSome ↔ ∃ e ∈ entries, e.priced
  dollars : ∀ d ∈ t.totalDollars, d.val = min (entries.map FleetEntry.dollars).sum i64Max
  dollarsPartial : t.dollarsPartial = true ↔
    (∃ e ∈ entries, e.priced) ∧ ∃ e ∈ entries, e.metered ∧ ¬ e.priced
  unpricedCount : t.unpricedCount
    = if t.dollarsPartial then entries.countP FleetEntry.unpriced else 0
  estimateLabel : t.estimateLabel = if t.totalDollars.isSome then some .estimated else none
  cached_isSome : t.totalCachedTokens.isSome ↔ ∀ e ∈ entries, e.cachedKnown
  cached : ∀ c ∈ t.totalCachedTokens, c.val = min (entries.map FleetEntry.cached).sum u64Max

theorem of_shown (h : ∀ e ∈ entries, e.CostNonneg) : Of entries (ExactTotals.of entries).shown := by
  have hpriced : 0 < (ExactTotals.of entries).priced ↔ ∃ e ∈ entries, e.priced :=
    List.countP_pos_iff
  have hunpriced : 0 < (ExactTotals.of entries).unpriced ↔
      ∃ e ∈ entries, e.metered ∧ ¬ e.priced := by
    refine List.countP_pos_iff.trans (exists_congr fun e => and_congr_right fun _ => ?_)
    simp [FleetEntry.unpriced]
  have hknown : (ExactTotals.of entries).cachedUnknown = 0 ↔ ∀ e ∈ entries, e.cachedKnown := by
    refine List.countP_eq_zero.trans (forall₂_congr fun e _ => ?_)
    simp
  exact {
    input := rfl
    output := rfl
    dollars_isSome := by
      rw [← hpriced]
      unfold shown
      simp
    dollars := by
      intro d hd
      unfold shown at hd
      dsimp only at hd
      split at hd
      · obtain rfl := Option.some.inj hd
        rw [Micros.clamp_val_of_nonneg (dollars_nonneg h)]
        rfl
      · simp at hd
    dollarsPartial := by
      rw [← hpriced, ← hunpriced]
      unfold shown
      simp
    unpricedCount := by
      unfold shown
      by_cases hp : 0 < (ExactTotals.of entries).priced
      · by_cases hu : 0 < (ExactTotals.of entries).unpriced
        · simp only [hp, hu, decide_true, Bool.and_self, if_true]
          rfl
        · have hzero : (ExactTotals.of entries).unpriced = 0 := by omega
          simp [hp, hzero]
      · simp [hp]
    estimateLabel := by
      unfold shown
      by_cases hp : 0 < (ExactTotals.of entries).priced
      · simp [hp]
      · simp [hp]
    cached_isSome := by
      rw [← hknown]
      unfold shown
      simp
    cached := by
      intro c hc
      unfold shown at hc
      dsimp only at hc
      split at hc
      · obtain rfl := Option.some.inj hc
        rfl
      · simp at hc }

/-- A row with tokens, and with a cost or without a rate. -/
def sampleRow (name : InstanceName) (cost : Option Micros) : FleetEntry where
  name := name
  state := .running
  restartCount := 0
  restartPolicy := default
  budget := none
  usage := { UsageView.new ⟨.saturate 5, .saturate 7, some (.saturate 2)⟩ .zero with
    cumulativeDollars := cost }
  supervision := none
  recordedState := none

end FleetTotals

/-! ### The rows of an engine -/

end Hekma
