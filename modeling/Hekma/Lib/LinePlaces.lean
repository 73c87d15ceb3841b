/-
**Lines and where they begin.**

A stream that only grows is read in pieces, by readers that come and go.  Which of its lines a
reader owes is said by the places where they begin.  What stands between two places of the stream
holds the lines that begin there, however the stream goes on.

Main definitions:

* `Lines.placed` — the lines that have ended, each with the place where it begins;
* `Lines.between` — those that begin between two places.

Main results:

* `Lines.placed_append` — reading on from the end of a line;
* `Lines.sublist_placed` — the lines that begin behind a place are lines of what stands behind it;
* `Lines.between_sublist` — **the lines between two places** are lines of what stands between them;
* `Lines.between_whole` — the whole lines behind a place.
-/

import Hekma.Lib.Lines
import Mathlib.Data.List.Perm.Subperm

set_option relaxedAutoImplicit false
set_option autoImplicit false

namespace Lines

variable {α : Type} [DecidableEq α] (sep : α)

/-- A line is one element longer, and begins at `k`. -/
def extend (k : ℕ) (a : α) : List (ℕ × List α) → List (ℕ × List α)
  | [] => []
  | p :: rest => (k, a :: p.2) :: rest

/-- The lines that have ended, each with the place where it begins. -/
def placed : ℕ → List α → List (ℕ × List α)
  | _, [] => []
  | k, a :: l => if a = sep then (k, []) :: placed (k + 1) l else extend k a (placed (k + 1) l)

/-- The lines that have ended and begin between two places. -/
def between (lo hi : ℕ) (l : List α) : List (ℕ × List α) :=
  (placed sep 0 l).filter fun p => lo ≤ p.1 ∧ p.1 < hi

variable {sep} {l w s t : List α} {a : α} {k lo mid hi : ℕ}

omit [DecidableEq α] in
theorem snd_extend (k : ℕ) (a : α) (lines : List (ℕ × List α)) :
    (extend k a lines).map Prod.snd = (lines.map Prod.snd).modifyHead (a :: ·) := by
  cases lines <;> rfl

/-- The lines are those that have ended. -/
theorem snd_placed (k : ℕ) (l : List α) : (placed sep k l).map Prod.snd = complete sep l := by
  induction l generalizing k with
  | nil => rfl
  | cons a l ih =>
      rw [placed, complete]
      split
      · rw [List.map_cons, ih]
      · rw [snd_extend, ih]

theorem placed_eq_nil : placed sep k l = [] ↔ complete sep l = [] := by
  rw [← snd_placed k l, List.map_eq_nil_iff]

omit [DecidableEq α] in
theorem mem_extend {p : ℕ × List α} {lines : List (ℕ × List α)} (h : p ∈ extend k a lines) :
    p.1 = k ∨ p ∈ lines := by
  cases lines with
  | nil => simp [extend] at h
  | cons q rest =>
      rcases List.mem_cons.1 h with rfl | h
      · exact .inl rfl
      · exact .inr (List.mem_cons_of_mem _ h)

/-- A line begins inside the list. -/
theorem place_mem {p : ℕ × List α} (h : p ∈ placed sep k l) : k ≤ p.1 ∧ p.1 < k + l.length := by
  induction l generalizing k with
  | nil => simp [placed] at h
  | cons a l ih =>
      rw [placed] at h
      rw [List.length_cons]
      have hcases : p.1 = k ∨ p ∈ placed sep (k + 1) l := by
        split at h
        · rcases List.mem_cons.1 h with rfl | h
          · exact .inl rfl
          · exact .inr h
        · exact mem_extend h
      rcases hcases with hk | h
      · omega
      · have := ih h
        omega

/-- **Reading on** from the end of a line. -/
theorem placed_append (h : Closed sep w) (k : ℕ) (t : List α) :
    placed sep k (w ++ t) = placed sep k w ++ placed sep (k + w.length) t := by
  induction w generalizing k with
  | nil => rfl
  | cons a w ih =>
      have hlen : k + (a :: w).length = k + 1 + w.length := by
        rw [List.length_cons]
        omega
      rw [List.cons_append, placed, placed, hlen]
      by_cases hw : w = []
      · subst hw
        have ha : a = sep := by
          rcases h with h | h
          · exact absurd h (by simp)
          · simpa using h
        rw [if_pos ha, if_pos ha]
        rfl
      · have hw' := h.tail hw
        rw [ih hw']
        split
        · rfl
        · cases hc : placed sep (k + 1) w with
          | nil => exact absurd (placed_eq_nil.1 hc) (complete_ne_nil hw' hw)
          | cons x xs => rfl

/-- **The lines that begin behind a place** are lines of what stands behind it. -/
theorem sublist_placed (sep : α) (k : ℕ) (w t : List α) :
    ((placed sep k (w ++ t)).filter fun p => k + w.length ≤ p.1).Sublist
      (placed sep (k + w.length) t) := by
  induction w generalizing k with
  | nil => exact List.filter_sublist
  | cons a w ih =>
      have hlen : k + (a :: w).length = k + 1 + w.length := by
        rw [List.length_cons]
        omega
      have hhead : ∀ (line : List α) (lines : List (ℕ × List α)),
          ((k, line) :: lines).filter (fun p => k + 1 + w.length ≤ p.1) =
            lines.filter fun p => k + 1 + w.length ≤ p.1 := by
        intro line lines
        rw [List.filter_cons_of_neg]
        simp only [decide_eq_true_eq]
        omega
      rw [List.cons_append, placed, hlen]
      split
      · rw [hhead]
        exact ih (k + 1)
      · cases hc : placed sep (k + 1) (w ++ t) with
        | nil => exact List.nil_sublist _
        | cons x xs =>
            have hrest := ih (k + 1)
            rw [hc] at hrest
            rw [extend, hhead]
            refine List.Sublist.trans ?_ hrest
            exact List.Sublist.filter _ (List.sublist_cons_self x xs)

/-- **The lines between two places** are lines of what stands between them. -/
theorem between_sublist (hs : Closed sep s) (hlo : lo = w.length)
    (hhi : hi = w.length + s.length) :
    ((between sep lo hi (w ++ (s ++ t))).map Prod.snd).Sublist (complete sep s) := by
  subst hlo hhi
  have hbehind := sublist_placed sep 0 w (s ++ t)
  rw [Nat.zero_add, placed_append hs] at hbehind
  have hfront : (placed sep w.length s ++ placed sep (w.length + s.length) t).filter
      (fun p => p.1 < w.length + s.length) = placed sep w.length s := by
    rw [List.filter_append, List.filter_eq_self.2, List.filter_eq_nil_iff.2, List.append_nil]
    · intro p hp
      have := place_mem hp
      simp only [decide_eq_true_eq]
      omega
    · intro p hp
      exact decide_eq_true (place_mem hp).2
  have hboth := hbehind.filter fun p => p.1 < w.length + s.length
  rw [hfront, List.filter_filter] at hboth
  have hsame : between sep w.length (w.length + s.length) (w ++ (s ++ t)) =
      (placed sep 0 (w ++ (s ++ t))).filter
        (fun p => decide (p.1 < w.length + s.length) && decide (w.length ≤ p.1)) := by
    refine List.filter_congr fun p _ => ?_
    rw [Bool.decide_and, Bool.and_comm]
  rw [← snd_placed w.length s, hsame]
  exact hboth.map _

/-- The whole lines behind a place begin between it and the last separator. -/
theorem between_whole (hlo : lo ≤ l.length) (t : List α) :
    ((between sep lo (lo + whole sep (l.drop lo)) (l ++ t)).map Prod.snd).Sublist
      (complete sep (l.drop lo)) := by
  have hle : whole sep (l.drop lo) ≤ (l.drop lo).length := by
    rw [whole_eq]
    exact bounded_le _ _ _
  have hclosed : Closed sep ((l.drop lo).take (whole sep (l.drop lo))) := by
    rw [whole_eq]
    exact closed_take_bounded _ _ _
  have hsplit : l ++ t = l.take lo ++ ((l.drop lo).take (whole sep (l.drop lo)) ++
      ((l.drop lo).drop (whole sep (l.drop lo)) ++ t)) := by
    rw [← List.append_assoc ((l.drop lo).take _), List.take_append_drop, ← List.append_assoc,
      List.take_append_drop]
  have hfront : lo = (l.take lo).length := by rw [List.length_take, Nat.min_eq_left hlo]
  have hback : lo + whole sep (l.drop lo) =
      (l.take lo).length + ((l.drop lo).take (whole sep (l.drop lo))).length := by
    rw [← hfront, List.length_take, Nat.min_eq_left hle]
  have hbetween := between_sublist (t := (l.drop lo).drop (whole sep (l.drop lo)) ++ t) hclosed
    hfront hback
  rwa [← hsplit, complete_window (Nat.le_refl _)] at hbetween

/-- No line begins between two places that are not apart. -/
theorem between_of_le (h : hi ≤ lo) : between sep lo hi l = [] := by
  refine List.filter_eq_nil_iff.2 fun p _ => ?_
  simp only [decide_eq_true_eq]
  omega

/-- The lines between two places, cut at a third. -/
theorem between_perm (sep : α) (l : List α) (hlo : lo ≤ mid) (hhi : mid ≤ hi) :
    (between sep lo hi l).Perm (between sep lo mid l ++ between sep mid hi l) := by
  refine List.Perm.trans (List.filter_append_perm (fun p => decide (p.1 < mid)) _).symm ?_
  unfold between
  rw [List.filter_filter, List.filter_filter]
  refine List.Perm.of_eq (congrArg₂ _ ?_ ?_)
  · refine List.filter_congr fun p _ => ?_
    rw [← Bool.decide_and, decide_eq_decide]
    omega
  · refine List.filter_congr fun p _ => ?_
    rw [← decide_not, ← Bool.decide_and, decide_eq_decide]
    omega

/-- Behind a place without a whole line, none begins. -/
theorem between_all (h : complete sep (l.drop mid) = []) (hmid : mid ≤ l.length) :
    (placed sep 0 l).Perm (between sep 0 mid l) := by
  have hbehind := sublist_placed sep 0 (l.take mid) (l.drop mid)
  rw [List.take_append_drop, placed_eq_nil.2 h, List.length_take, Nat.min_eq_left hmid,
    Nat.zero_add] at hbehind
  have hnone := List.sublist_nil.1 hbehind
  unfold between
  rw [List.filter_eq_self.2]
  intro p hp
  have hp' := List.filter_eq_nil_iff.1 hnone p hp
  simp only [decide_eq_true_eq] at hp' ⊢
  omega

end Lines
