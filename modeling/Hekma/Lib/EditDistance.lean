/-
**The edit distance of two lists.**

An edit inserts an element, deletes one, or puts another in its place.  The distance of two lists is
the least number of edits that turn the one into the other.  It is computed by recursion on the
first elements, and the table of the distances of all the beginnings of two lists can be filled row
by row.

Main definitions:

* `EditDistance.Edits` — so many edits turn a list into another;
* `EditDistance.distance` — the recursion;
* `EditDistance.row` — a row of the table: the distances of a list to the beginnings of another.

Main results:

* `EditDistance.distance_isLeast` — **the recursion is the least number of edits**;
* `EditDistance.distance_comm`, `distance_eq_zero`, `distance_triangle` — it is a metric;
* `EditDistance.distance_reverse` — it may be computed from the last elements.
-/

import Mathlib.Order.Bounds.Basic
import Mathlib.Tactic

set_option relaxedAutoImplicit false
set_option autoImplicit false

namespace EditDistance

variable {α : Type}

/-! ### Edits -/

/-- One element is inserted, deleted, or replaced by another. -/
inductive Edit : List α → List α → Prop where
  | insert (l r : List α) (x : α) : Edit (l ++ r) (l ++ x :: r)
  | delete (l r : List α) (x : α) : Edit (l ++ x :: r) (l ++ r)
  | substitute (l r : List α) (x y : α) : Edit (l ++ x :: r) (l ++ y :: r)

/-- So many edits turn a list into another. -/
inductive Edits : ℕ → List α → List α → Prop where
  | refl (a : List α) : Edits 0 a a
  | step {n : ℕ} {a b c : List α} (h : Edit a b) (hs : Edits n b c) : Edits (n + 1) a c

variable {a b c : List α} {m n : ℕ}

theorem Edit.symm (h : Edit a b) : Edit b a := by
  cases h with
  | insert l r x => exact .delete l r x
  | delete l r x => exact .insert l r x
  | substitute l r x y => exact .substitute l r y x

theorem Edit.cons (h : Edit a b) (z : α) : Edit (z :: a) (z :: b) := by
  cases h with
  | insert l r x => exact .insert (z :: l) r x
  | delete l r x => exact .delete (z :: l) r x
  | substitute l r x y => exact .substitute (z :: l) r x y

theorem Edit.reverse (h : Edit a b) : Edit a.reverse b.reverse := by
  cases h with
  | insert l r x =>
      rw [List.reverse_append, List.reverse_append, List.reverse_cons, List.append_assoc]
      exact .insert r.reverse l.reverse x
  | delete l r x =>
      rw [List.reverse_append, List.reverse_append, List.reverse_cons, List.append_assoc]
      exact .delete r.reverse l.reverse x
  | substitute l r x y =>
      rw [List.reverse_append, List.reverse_append, List.reverse_cons, List.reverse_cons,
        List.append_assoc, List.append_assoc]
      exact .substitute r.reverse l.reverse x y

theorem Edits.single (h : Edit a b) : Edits 1 a b := .step h (.refl b)

theorem Edits.trans (h : Edits m a b) (h' : Edits n b c) : Edits (m + n) a c := by
  induction h with
  | refl a => rwa [Nat.zero_add]
  | step hedit _ ih =>
      rw [Nat.add_right_comm]
      exact .step hedit (ih h')

theorem Edits.symm (h : Edits n a b) : Edits n b a := by
  induction h with
  | refl a => exact .refl a
  | step hedit _ ih => exact ih.trans (.single hedit.symm)

theorem Edits.cons (h : Edits n a b) (z : α) : Edits n (z :: a) (z :: b) := by
  induction h with
  | refl a => exact .refl _
  | step hedit _ ih => exact .step (hedit.cons z) ih

theorem Edits.reverse (h : Edits n a b) : Edits n a.reverse b.reverse := by
  induction h with
  | refl a => exact .refl _
  | step hedit _ ih => exact .step hedit.reverse ih

/-! ### The recursion -/

variable [DecidableEq α]

/-- The distance of two lists, by their first elements. -/
def distance : List α → List α → ℕ
  | [], b => b.length
  | x :: a, [] => (x :: a).length
  | x :: a, y :: b =>
      min (min (distance a (y :: b) + 1) (distance (x :: a) b + 1))
        (distance a b + if x ≠ y then 1 else 0)

@[simp] theorem distance_nil_left (b : List α) : distance [] b = b.length := by rw [distance]

@[simp] theorem distance_nil_right (a : List α) : distance a [] = a.length := by
  cases a <;> rw [distance]

theorem distance_cons (x y : α) (a b : List α) :
    distance (x :: a) (y :: b) = min (min (distance a (y :: b) + 1) (distance (x :: a) b + 1))
      (distance a b + if x ≠ y then 1 else 0) := by rw [distance]

theorem distance_cons_left_le (x : α) (a c : List α) :
    distance (x :: a) c ≤ distance a c + 1 := by
  cases c with
  | nil => simp
  | cons y c =>
      rw [distance_cons]
      omega

theorem distance_cons_right_le (a : List α) (y : α) (c : List α) :
    distance a (y :: c) ≤ distance a c + 1 := by
  cases a with
  | nil => simp
  | cons x a =>
      rw [distance_cons]
      omega

/-- As many edits as the recursion says turn the one list into the other. -/
theorem edits_distance (a b : List α) : Edits (distance a b) a b := by
  induction a generalizing b with
  | nil =>
      rw [distance_nil_left]
      induction b with
      | nil => exact .refl []
      | cons y b ih => exact ih.trans (.single (.insert [] b y))
  | cons x a iha =>
      induction b with
      | nil =>
          have hdelete := Edits.step (.delete [] a x) (iha [])
          rwa [distance_nil_right] at hdelete ⊢
      | cons y b ihb =>
          have hdelete : Edits (distance a (y :: b) + 1) (x :: a) (y :: b) :=
            .step (.delete [] a x) (iha (y :: b))
          have hinsert : Edits (distance (x :: a) b + 1) (x :: a) (y :: b) :=
            ihb.trans (.single (.insert [] b y))
          have hboth : Edits (distance a b + if x ≠ y then 1 else 0) (x :: a) (y :: b) := by
            split
            · exact ((iha b).cons x).trans (.single (.substitute [] b x y))
            · rename_i hxy
              rw [← not_not.1 hxy]
              exact (iha b).cons x
          rw [distance_cons]
          rcases min_choice (distance a (y :: b) + 1) (distance (x :: a) b + 1) with h | h <;>
            rw [h]
          · rcases min_choice (distance a (y :: b) + 1)
              (distance a b + if x ≠ y then 1 else 0) with h | h <;> rw [h]
            · exact hdelete
            · exact hboth
          · rcases min_choice (distance (x :: a) b + 1)
              (distance a b + if x ≠ y then 1 else 0) with h | h <;> rw [h]
            · exact hinsert
            · exact hboth

/-! ### One edit is one step of the distance -/

theorem distance_insert_le (y : α) (r c : List α) :
    distance r c ≤ distance (y :: r) c + 1 := by
  induction c with
  | nil =>
      simp only [distance_nil_right, List.length_cons]
      omega
  | cons z c ih =>
      have hright := distance_cons_right_le r z c
      rw [distance_cons]
      omega

theorem distance_substitute_le (y z : α) (r c : List α) :
    distance (y :: r) c ≤ distance (z :: r) c + 1 := by
  induction c with
  | nil => simp
  | cons w c ih =>
      rw [distance_cons, distance_cons]
      split <;> split <;> omega

/-- What holds of two lists holds with an element before each. -/
theorem distance_cons_le (x : α) (h : ∀ c, distance a c ≤ distance b c + 1) (c : List α) :
    distance (x :: a) c ≤ distance (x :: b) c + 1 := by
  induction c with
  | nil =>
      have hnil := h []
      simp only [distance_nil_right, List.length_cons] at hnil ⊢
      omega
  | cons y c ih =>
      have hboth := h c
      have hleft := h (y :: c)
      rw [distance_cons, distance_cons]
      omega

theorem distance_append_le (l : List α) (h : ∀ c, distance a c ≤ distance b c + 1) (c : List α) :
    distance (l ++ a) c ≤ distance (l ++ b) c + 1 := by
  induction l generalizing c with
  | nil => exact h c
  | cons x l ih => exact distance_cons_le x ih c

theorem Edit.distance_le (h : Edit a b) (c : List α) : distance a c ≤ distance b c + 1 := by
  cases h with
  | insert l r x => exact distance_append_le l (distance_insert_le x r) c
  | delete l r x => exact distance_append_le l (distance_cons_left_le x r) c
  | substitute l r x y => exact distance_append_le l (distance_substitute_le x y r) c

theorem distance_self (a : List α) : distance a a = 0 := by
  induction a with
  | nil => simp
  | cons x a ih =>
      rw [distance_cons, ih]
      simp

theorem Edits.distance_le (h : Edits n a b) : distance a b ≤ n := by
  induction h with
  | refl a => exact (distance_self a).le
  | step hedit _ ih => exact (hedit.distance_le _).trans (Nat.succ_le_succ ih)

/-- **The recursion is the least number of edits.** -/
theorem distance_isLeast (a b : List α) : IsLeast {n | Edits n a b} (distance a b) :=
  ⟨edits_distance a b, fun _ h => h.distance_le⟩

/-! ### A metric -/

theorem distance_comm (a b : List α) : distance a b = distance b a :=
  le_antisymm (edits_distance b a).symm.distance_le (edits_distance a b).symm.distance_le

theorem distance_eq_zero : distance a b = 0 ↔ a = b := by
  constructor
  · intro h
    have hedits := edits_distance a b
    rw [h] at hedits
    cases hedits
    rfl
  · rintro rfl
    exact distance_self a

theorem distance_triangle (a b c : List α) : distance a c ≤ distance a b + distance b c :=
  ((edits_distance a b).trans (edits_distance b c)).distance_le

theorem distance_reverse (a b : List α) : distance a.reverse b.reverse = distance a b := by
  refine le_antisymm (edits_distance a b).reverse.distance_le ?_
  have hback := (edits_distance a.reverse b.reverse).reverse
  rw [List.reverse_reverse, List.reverse_reverse] at hback
  exact hback.distance_le

/-! ### Rows of the table -/

/-- The distances of a list to `q` and to `q` with more and more of another list before it. -/
def row (p : List α) : List α → List α → List ℕ
  | q, [] => [distance p q]
  | q, y :: b => distance p q :: row p (y :: q) b

theorem head_row (p q b : List α) : ∃ rest, row p q b = distance p q :: rest := by
  cases b with
  | nil => exact ⟨[], rfl⟩
  | cons y b => exact ⟨row p (y :: q) b, rfl⟩

theorem getLastD_row (p q b : List α) (d : ℕ) :
    (row p q b).getLastD d = distance p (b.reverse ++ q) := by
  induction b generalizing q d with
  | nil => rfl
  | cons y b ih =>
      rw [row, List.getLastD_cons, ih, List.reverse_cons, List.append_assoc]
      rfl

theorem row_nil (q b : List α) :
    row [] q b = (List.range (b.length + 1)).map fun k => q.length + k := by
  induction b generalizing q with
  | nil => simp [row]
  | cons y b ih =>
      have hrange : List.range ((y :: b).length + 1) =
          0 :: (List.range (b.length + 1)).map Nat.succ := List.range_succ_eq_map
      rw [row, ih, distance_nil_left, hrange, List.map_cons, List.map_map]
      refine congrArg₂ _ rfl (List.map_congr_left fun k _ => ?_)
      simp only [List.length_cons, Function.comp_apply]
      omega

end EditDistance
