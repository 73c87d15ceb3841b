/-
**Forests given by a parent function.**

A forest is a partial function that sends a node to its parent.  This module develops the walk
upward: the ancestor at a given distance, the bound on the length of every walk, the root a walk
ends in, and what happens to all of these when a fresh leaf is attached.

Main definitions:

* `Forest.up` — the ancestor at distance `k`;
* `Forest.Height` — every walk has left the forest after `n` steps;
* `Forest.Under` — one node is at or above another;
* `Forest.IsRoot` — the walk from a node ends in a given node.

Main results:

* `Forest.Height.exists_root`, `Forest.IsRoot.unique` — every walk ends, in one root;
* `Forest.up_attach_of_ne`, `Forest.up_attach_self` — attaching a fresh leaf changes no walk but
  its own;
* `Forest.Height.attach` — the height after attaching a leaf is bounded by the depth of its parent.
-/

import Mathlib.Tactic

set_option relaxedAutoImplicit false
set_option autoImplicit false

namespace Forest

variable {ι : Type} {parent parent' : ι → Option ι} {n a b p r : ι} {j k N : ℕ}

/-- The ancestor of a node at distance `k`. -/
def up (parent : ι → Option ι) : ℕ → ι → Option ι
  | 0, n => some n
  | k + 1, n => (parent n).bind (up parent k)

@[simp] theorem up_zero : up parent 0 n = some n := rfl

theorem up_succ : up parent (k + 1) n = (parent n).bind (up parent k) := rfl

theorem up_succ_of_parent (h : parent n = some p) : up parent (k + 1) n = up parent k p := by
  rw [up_succ, h, Option.bind_some]

theorem up_succ_of_root (h : parent n = none) : up parent (k + 1) n = none := by
  rw [up_succ, h, Option.bind_none]

theorem up_add : up parent (j + k) n = (up parent j n).bind (up parent k) := by
  induction j generalizing n with
  | zero => rw [Nat.zero_add, up_zero, Option.bind_some]
  | succ j ih =>
      rw [Nat.succ_add, up_succ, up_succ, Option.bind_assoc]
      congr 1
      funext m
      exact ih

/-- One more step, taken at the far end of the walk. -/
theorem up_succ' : up parent (k + 1) n = (up parent k n).bind parent := by
  rw [up_add]
  congr 1
  funext m
  rw [up_succ]
  cases parent m <;> rfl

/-- A walk that has left the forest stays outside. -/
theorem up_eq_none_of_le (hk : up parent j n = none) (hle : j ≤ k) : up parent k n = none := by
  obtain ⟨i, rfl⟩ := Nat.exists_eq_add_of_le hle
  rw [up_add, hk, Option.bind_none]

/-- Two parent functions that agree along a walk give the same walk. -/
theorem up_congr {S : ι → Prop} (hS : ∀ m, S m → parent m = parent' m)
    (hclosed : ∀ m p, S m → parent m = some p → S p) (hn : S n) :
    up parent k n = up parent' k n := by
  induction k generalizing n with
  | zero => rfl
  | succ k ih =>
      rw [up_succ, up_succ, ← hS n hn]
      cases hp : parent n with
      | none => rfl
      | some p => exact ih (hclosed n p hn hp)

/-! ### Being at or above a node -/

/-- `a` is at or above `n`. -/
def Under (parent : ι → Option ι) (a n : ι) : Prop := ∃ k, up parent k n = some a

theorem Under.refl : Under parent n n := ⟨0, rfl⟩

theorem Under.step (h : parent n = some p) (ha : Under parent a p) : Under parent a n := by
  obtain ⟨k, hk⟩ := ha
  exact ⟨k + 1, by rw [up_succ_of_parent h, hk]⟩

/-! ### Roots and height -/

/-- The walk from `n` ends in `r`. -/
def IsRoot (parent : ι → Option ι) (n r : ι) : Prop := Under parent r n ∧ parent r = none

theorem IsRoot.self (h : parent n = none) : IsRoot parent n n := ⟨Under.refl, h⟩

theorem IsRoot.step (h : parent n = some p) (hr : IsRoot parent p r) : IsRoot parent n r :=
  ⟨hr.1.step h, hr.2⟩

theorem IsRoot.unique (h₁ : IsRoot parent n a) (h₂ : IsRoot parent n b) : a = b := by
  obtain ⟨⟨j, hj⟩, ha⟩ := h₁
  obtain ⟨⟨k, hk⟩, hb⟩ := h₂
  -- the longer of the two walks would have to leave the root it passes through
  have hpast : ∀ {x y : ι} {i d : ℕ}, parent x = none → up parent i n = some x →
      up parent (i + d) n = some y → d = 0 := by
    intro x y i d hx hi hy
    cases d with
    | zero => rfl
    | succ d =>
        rw [up_add, hi, Option.bind_some, up_succ_of_root hx] at hy
        exact absurd hy (by simp)
  rcases Nat.le_total j k with hle | hle
  · obtain ⟨d, rfl⟩ := Nat.exists_eq_add_of_le hle
    have hd := hpast ha hj hk
    subst hd
    rw [Nat.add_zero, hj, Option.some.injEq] at hk
    exact hk
  · obtain ⟨d, rfl⟩ := Nat.exists_eq_add_of_le hle
    have hd := hpast hb hk hj
    subst hd
    rw [Nat.add_zero, hk, Option.some.injEq] at hj
    exact hj.symm

/-- Every walk has left the forest after `N` steps: a walk visits at most `N` nodes. -/
def Height (parent : ι → Option ι) (N : ℕ) : Prop := ∀ n, up parent N n = none

/-- Under a height bound every distance is below the bound. -/
theorem Height.lt (h : Height parent N) (hk : up parent k n = some a) : k < N := by
  by_contra hle
  rw [up_eq_none_of_le (h n) (Nat.not_lt.1 hle)] at hk
  exact absurd hk (by simp)

/-- Under a height bound every walk ends in a root. -/
theorem Height.exists_root (h : Height parent N) (n : ι) : ∃ r, IsRoot parent n r := by
  have hall : ∀ k n, up parent k n = none → ∃ r, IsRoot parent n r := by
    intro k
    induction k with
    | zero => intro n hn; exact absurd hn (by simp)
    | succ k ih =>
        intro n hn
        cases hp : parent n with
        | none => exact ⟨n, IsRoot.self hp⟩
        | some p =>
            rw [up_succ_of_parent hp] at hn
            obtain ⟨r, hr⟩ := ih p hn
            exact ⟨r, hr.step hp⟩
  exact hall N n (h n)

/-- Under a height bound no node is strictly above itself. -/
theorem Height.irrefl (h : Height parent N) (hk : up parent (k + 1) n = some n) : False := by
  have hloop : ∀ i, up parent (i * (k + 1)) n = some n := by
    intro i
    induction i with
    | zero => simp
    | succ i ih => rw [Nat.succ_mul, up_add, ih, Option.bind_some, hk]
  have hlt := h.lt (hloop N)
  nlinarith

/-! ### Attaching a fresh leaf -/

section Attach

variable [DecidableEq ι] {c : ι} {q : Option ι}

/-- The parent function with the parent of `c` set to `q`. -/
def attach (parent : ι → Option ι) (c : ι) (q : Option ι) : ι → Option ι :=
  Function.update parent c q

@[simp] theorem attach_self : attach parent c q c = q := Function.update_self ..

theorem attach_of_ne (h : n ≠ c) : attach parent c q n = parent n := Function.update_of_ne h ..

/-- The walks of the other nodes stay. -/
theorem up_attach_of_ne (hc : ∀ m, parent m ≠ some c) (hn : n ≠ c) :
    up (attach parent c q) k n = up parent k n := by
  symm
  refine up_congr (S := fun m => m ≠ c) (fun m hm => (attach_of_ne hm).symm) ?_ hn
  rintro m p - hp rfl
  exact hc m hp

/-- The walk of the new leaf goes through its parent. -/
theorem up_attach_self (hc : ∀ m, parent m ≠ some c) (hq : q ≠ some c) :
    up (attach parent c q) (k + 1) c = q.bind (up parent k) := by
  rw [up_succ, attach_self]
  cases q with
  | none => rfl
  | some p => exact up_attach_of_ne hc (by rintro rfl; exact hq rfl)

theorem Under.attach (hc : ∀ m, parent m ≠ some c) (hn : n ≠ c) (h : Under parent a n) :
    Under (attach parent c q) a n := by
  obtain ⟨k, hk⟩ := h
  exact ⟨k, by rw [up_attach_of_ne hc hn, hk]⟩

theorem Under.of_attach (hc : ∀ m, parent m ≠ some c) (hn : n ≠ c)
    (h : Under (Forest.attach parent c q) a n) : Under parent a n := by
  obtain ⟨k, hk⟩ := h
  exact ⟨k, by rw [← up_attach_of_ne hc hn, hk]⟩

omit [DecidableEq ι] in
/-- A leaf is above itself only. -/
theorem Under.eq_of_leaf (hc : ∀ m, parent m ≠ some c) (h : Under parent c n) : n = c := by
  obtain ⟨k, hk⟩ := h
  cases k with
  | zero => exact Option.some.inj hk
  | succ k =>
      rw [up_succ'] at hk
      obtain ⟨m, -, hm⟩ := Option.bind_eq_some_iff.1 hk
      exact absurd hm (hc m)

/-- The roots of the other nodes stay. -/
theorem isRoot_attach (hc : ∀ m, parent m ≠ some c) (hn : n ≠ c) :
    IsRoot (attach parent c q) n r ↔ IsRoot parent n r := by
  constructor
  · rintro ⟨hu, hr⟩
    have hu' := hu.of_attach hc hn
    have hne : r ≠ c := by
      rintro rfl
      exact hn (hu'.eq_of_leaf hc)
    exact ⟨hu', by rwa [attach_of_ne hne] at hr⟩
  · rintro ⟨hu, hr⟩
    have hne : r ≠ c := by
      rintro rfl
      exact hn (hu.eq_of_leaf hc)
    exact ⟨hu.attach hc hn, by rwa [attach_of_ne hne]⟩

/-- A leaf attached below a node of depth under `N` keeps the height. -/
theorem Height.attach (h : Height parent (N + 1)) (hc : ∀ m, parent m ≠ some c)
    (hq : q ≠ some c) (hdepth : ∀ p, q = some p → up parent N p = none) :
    Height (attach parent c q) (N + 1) := by
  intro m
  by_cases hm : m = c
  · subst hm
    rw [up_attach_self hc hq]
    cases q with
    | none => rfl
    | some p => exact hdepth p rfl
  · rw [up_attach_of_ne hc hm]
    exact h m

end Attach

end Forest
