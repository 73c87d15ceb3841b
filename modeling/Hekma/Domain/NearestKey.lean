/-
**The nearest known key** (`domain/config.rs`).

The distance of two keys is computed with two rows of a table: each row holds the distances of one
beginning of the first key to all the beginnings of the second, and is computed from the row before
it.  The beginnings grow at their ends, so a row holds the distances of reversed texts.

Main results:

* `nextRow_row`, `lastRow_row` — what a row holds, and what the last row holds;
* `levenshtein_eq_distance` — the table computes the distance;
* `levenshtein_metric` — **the distance of two keys is the least number of edits**, and a metric.
-/

import Hekma.Domain.ConfigWrite
import Hekma.Lib.EditDistance

set_option relaxedAutoImplicit false
set_option autoImplicit false

namespace Hekma

open EditDistance (Edits distance row)

/-! ### The rows of the table -/

/-- A row is computed from the row before it, for one more character of the first key. -/
theorem nextRow_row (ca : Char) (p q b : List Char) :
    distance (ca :: p) q :: nextRow ca b (row p q b) (distance (ca :: p) q) =
      row (ca :: p) q b := by
  induction b generalizing q with
  | nil => rfl
  | cons cb b ih =>
      obtain ⟨rest, hrest⟩ := EditDistance.head_row p (cb :: q) b
      have hih := ih (cb :: q)
      rw [hrest] at hih
      rw [row, row, hrest, nextRow, ← EditDistance.distance_cons, hih]

/-- The last row holds the distances of the whole first key, after the characters already read. -/
theorem lastRow_row (b a p : List Char) :
    lastRow b a p.length (row p [] b) = row (a.reverse ++ p) [] b := by
  induction a generalizing p with
  | nil => rfl
  | cons ca a ih =>
      -- a row starts with the distance to the empty key: the number of the characters read
      have hrow := nextRow_row ca p [] b
      rw [EditDistance.distance_nil_right, List.length_cons] at hrow
      rw [lastRow, hrow, List.reverse_cons, List.append_assoc]
      exact ih (ca :: p)

/-! ### The distance of two keys -/

/-- **The table computes the distance of the two keys.** -/
theorem levenshtein_eq_distance (a b : String) :
    levenshtein a b = distance a.toList b.toList := by
  unfold levenshtein
  split
  · rename_i ha
    rw [String.isEmpty_iff.1 ha]
    exact (EditDistance.distance_nil_left b.toList).symm
  split
  · rename_i hb
    rw [String.isEmpty_iff.1 hb]
    exact (EditDistance.distance_nil_right a.toList).symm
  have hfirst : List.range (b.length + 1) = row [] [] b.toList := by
    rw [EditDistance.row_nil, String.length_toList]
    simp
  rw [hfirst, show (0 : ℕ) = ([] : List Char).length from rfl, lastRow_row,
    EditDistance.getLastD_row, List.append_nil, List.append_nil, EditDistance.distance_reverse]

/-- **The distance of two keys** is the least number of insertions, deletions and substitutions of
one character that turn the one into the other, and a metric. -/
theorem levenshtein_metric (a b c : String) :
    IsLeast {n | Edits n a.toList b.toList} (levenshtein a b) ∧
      levenshtein a b = distance a.toList b.toList ∧
      levenshtein a b = levenshtein b a ∧
      (levenshtein a b = 0 ↔ a = b) ∧
      levenshtein a c ≤ levenshtein a b + levenshtein b c := by
  simp only [levenshtein_eq_distance]
  refine ⟨EditDistance.distance_isLeast _ _, trivial, EditDistance.distance_comm _ _, ?_,
    EditDistance.distance_triangle _ _ _⟩
  rw [EditDistance.distance_eq_zero, String.toList_inj]

end Hekma
