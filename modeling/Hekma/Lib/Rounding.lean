/-
**Rounding the parts and rounding the sum.**

A number is rounded half up to a whole number of units.  What is dropped is its signed rest, which
is at least minus half a unit and less than half of one.  Rounding the parts of a sum drops a rest
for each of them, and the rests may add up to whole units: that is how far the rounded parts and
the rounded sum are apart.

Main definitions:

* `Rounding.halfUp`, `Rounding.rest` — the rounded number, and what is dropped.

Main results:

* `Rounding.halfUp_eq_sum` — how far the rounded parts are from another rounded number;
* `Rounding.halfUp_eq_round` — rounding a count of units is rounding the fraction it stands for;
* `Rounding.abs_sum_sub_sum_round_le`, `Rounding.round_exchange` — how far rounded fractions are from
  their sum, and from two others whose sum is not below theirs.
-/

import Mathlib.Tactic

set_option relaxedAutoImplicit false
set_option autoImplicit false

namespace Hekma

namespace Rounding

/-- The nearest number of units; half a unit is rounded up. -/
def halfUp (unit n : ℤ) : ℤ := (n + unit / 2) / unit

/-- What rounding drops. -/
def rest (unit n : ℤ) : ℤ := n - unit * halfUp unit n

variable {unit : ℤ}

/-- Whole units are rounded to themselves. -/
theorem halfUp_add_mul (hunit : 0 < unit) (n k : ℤ) :
    halfUp unit (n + unit * k) = halfUp unit n + k := by
  unfold halfUp
  rw [show n + unit * k + unit / 2 = n + unit / 2 + unit * k by ring,
    Int.add_mul_ediv_left _ _ hunit.ne']

/-- A sum is the units of its parts and their rests. -/
theorem sum_eq (ns : List ℤ) :
    ns.sum = unit * (ns.map (halfUp unit)).sum + (ns.map (rest unit)).sum := by
  induction ns with
  | nil => simp
  | cons n ns ih =>
      have hn : n = unit * halfUp unit n + rest unit n := by
        unfold rest
        ring
      simp only [List.map_cons, List.sum_cons]
      rw [ih]
      conv_lhs => rw [hn]
      ring

/-- **How far the rounded parts are from another rounded number**: by the rests, and by what the
number is away from the sum of the parts. -/
theorem halfUp_eq_sum (hunit : 0 < unit) (ns : List ℤ) (m : ℤ) :
    halfUp unit m =
      (ns.map (halfUp unit)).sum + halfUp unit ((ns.map (rest unit)).sum - (ns.sum - m)) := by
  have hsum : ns.sum = unit * (ns.map (halfUp unit)).sum + (ns.map (rest unit)).sum := sum_eq ns
  have hm : m = (ns.map (rest unit)).sum - (ns.sum - m) + unit * (ns.map (halfUp unit)).sum := by
    linarith
  conv_lhs => rw [hm, halfUp_add_mul hunit]
  ring

/-! ### Fractions -/

/-- Rounding a number to whole units is rounding the fraction of the unit it is. -/
theorem halfUp_eq_round {k : ℕ} (hk : 0 < k) (n : ℤ) :
    halfUp ((2 * k : ℕ) : ℤ) n = round ((n : ℚ) / (2 * k : ℕ)) := by
  have hne : ((2 * k : ℕ) : ℚ) ≠ 0 := Nat.cast_ne_zero.2 (by omega)
  have hhalf : ((2 * k : ℕ) : ℤ) / 2 = k := by omega
  have hfraction : (n : ℚ) / (2 * k : ℕ) + 1 / 2 = ((n + k : ℤ) : ℚ) / (2 * k : ℕ) := by
    push_cast at hne ⊢
    field_simp
  rw [round_eq, hfraction, Rat.floor_intCast_div_natCast, halfUp, hhalf]

theorem round_le_add_half (x : ℚ) : (round x : ℚ) ≤ x + 1 / 2 := by
  rw [round_eq]
  exact Int.floor_le _

theorem sub_half_lt_round (x : ℚ) : x - 1 / 2 < round x := by
  have h := Int.lt_floor_add_one (x + 1 / 2)
  rw [round_eq]
  linarith

theorem round_le_round {x y : ℚ} (h : x ≤ y) : round x ≤ round y := by
  rw [round_eq, round_eq]
  exact Int.floor_le_floor (by linarith)

/-- Each part of a sum is at most half a unit away from its rounded value. -/
theorem abs_sum_sub_sum_round_le (xs : List ℚ) :
    |((xs.map round).sum : ℤ) - xs.sum| ≤ xs.length / 2 := by
  induction xs with
  | nil => simp
  | cons x xs ih =>
      have hx : |(round x : ℚ) - x| ≤ 1 / 2 := by
        rw [abs_sub_comm]
        exact abs_sub_round x
      simp only [List.map_cons, List.sum_cons, List.length_cons, Int.cast_add, Nat.cast_add,
        Nat.cast_one]
      calc |(round x : ℚ) + ((xs.map round).sum : ℤ) - (x + xs.sum)|
          = |(round x - x) + (((xs.map round).sum : ℤ) - xs.sum)| := by congr 1; ring
        _ ≤ |(round x : ℚ) - x| + |((xs.map round).sum : ℤ) - xs.sum| := abs_add_le _ _
        _ ≤ 1 / 2 + xs.length / 2 := add_le_add hx ih
        _ = (xs.length + 1) / 2 := by ring

/-- **Two fractions exchanged for two others** whose sum is not below theirs are rounded to at most
one unit more. -/
theorem round_exchange {x y x' y' : ℚ} (h : x' + y' ≤ x + y) :
    round x' + round y' ≤ round x + round y + 1 := by
  have hx := sub_half_lt_round x
  have hy := sub_half_lt_round y
  have hx' := round_le_add_half x'
  have hy' := round_le_add_half y'
  have hlt : ((round x' + round y' : ℤ) : ℚ) < ((round x + round y + 2 : ℤ) : ℚ) := by
    push_cast
    linarith
  have hlt' : round x' + round y' < round x + round y + 2 := by exact_mod_cast hlt
  omega

end Rounding

end Hekma
