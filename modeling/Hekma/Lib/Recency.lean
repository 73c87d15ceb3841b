/-
**Recency.**

The elements of a history, the most recent one first and each one once, and the window of the `n`
most recent ones.  The window can be kept without the history: it moves the new element to its
front and drops what is behind its bound.

Main definitions:

* `Recency.recent` — the elements of a history by recency;
* `Recency.window` — the `n` most recent ones.

Main results:

* `Recency.window_append` — the window is kept step by step;
* `Recency.filter_notMem_drop` — leaving out what is behind the bound leaves the window.
-/

import Mathlib.Data.List.Induction
import Mathlib.Data.List.Perm.Basic
import Mathlib.Order.Lattice
import Mathlib.Tactic.Common

set_option relaxedAutoImplicit false
set_option autoImplicit false

namespace Recency

variable {α : Type} [DecidableEq α]

/-- The elements of a history, oldest first, by recency: the most recent one first. -/
def recent (history : List α) : List α := history.foldl (fun l a => a :: l.erase a) []

/-- The `n` most recent elements of a history. -/
def window (n : ℕ) (history : List α) : List α := (recent history).take n

theorem recent_append (history : List α) (a : α) :
    recent (history ++ [a]) = a :: (recent history).erase a := by
  rw [recent, List.foldl_append]
  rfl

/-- Bounding a list before its front is renewed makes no difference to the bounded list. -/
theorem take_cons_erase_take (l : List α) (a : α) (n : ℕ) :
    (a :: (l.take n).erase a).take n = (a :: l.erase a).take n := by
  induction l generalizing n with
  | nil => simp
  | cons b l ih =>
      cases n with
      | zero => rfl
      | succ n =>
          by_cases hab : b = a
          · subst hab
            simp only [List.take_succ_cons, List.erase_cons_head]
            rw [List.take_take, min_self]
          · have hne : ¬ (b == a) = true := by simpa using hab
            cases n with
            | zero => rfl
            | succ n =>
                have hrec := ih (n + 1)
                simp only [List.take_succ_cons, List.cons.injEq, true_and] at hrec
                simp only [List.take_succ_cons, List.erase_cons_tail hne, hrec]

/-- **The window is kept step by step.** -/
theorem window_append (n : ℕ) (history : List α) (a : α) :
    window n (history ++ [a]) = (a :: (window n history).erase a).take n := by
  rw [window, recent_append, window, take_cons_erase_take]

/-- Leaving out what is behind the bound leaves the window. -/
theorem filter_notMem_drop {l : List α} (hl : l.Nodup) (n : ℕ) :
    l.filter (fun a => a ∉ l.drop n) = l.take n := by
  have hsplit := List.take_append_drop n l
  rw [← hsplit] at hl
  obtain ⟨-, -, hdisjoint⟩ := List.nodup_append.1 hl
  conv_lhs => rw [← hsplit]
  rw [List.filter_append, hsplit]
  have hfront : (l.take n).filter (fun a => a ∉ l.drop n) = l.take n := by
    rw [List.filter_eq_self]
    intro a ha
    exact decide_eq_true fun hb => hdisjoint a ha a hb rfl
  have hback : (l.drop n).filter (fun a => a ∉ l.drop n) = [] := by
    rw [List.filter_eq_nil_iff]
    intro a ha
    simp [ha]
  rw [hfront, hback, List.append_nil]

end Recency
