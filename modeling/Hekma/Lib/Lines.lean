/-
**Separated lines.**

A log is written in pieces of any length and read in windows of any length, while its lines end at a
separator.  A reader that consumes only up to a separator never splits a line: what it has consumed
and what is left are both read off the lines of the whole.

Main definitions:

* `Lines.ends`, `Lines.whole` — the positions after the separators, and after the last one;
* `Lines.complete` — the lines that have ended;
* `Lines.bounded` — how much a reader consumes that takes a bounded number of lines;
* `Lines.Closed` — a text without an unfinished line;
* `Lines.pieces` — the lines with their separators, the unfinished one among them.

Main results:

* `Lines.complete_append` — reading on from the end of a line;
* `Lines.complete_bounded` — **what a bounded reader consumes**;
* `Lines.complete_window` — a window that holds every separator holds every line;
* `Lines.complete_window_ne_nil` — a window holds a line exactly if it holds the first one;
* `Lines.complete_terminated` — the lines of a text that was written line by line;
* `Lines.closed_append_line` — a last line can be told from what stands before it.
-/

import Mathlib.Data.List.Basic

set_option relaxedAutoImplicit false
set_option autoImplicit false

namespace Lines

variable {α : Type} [DecidableEq α] (sep : α)

/-- The positions after the separators. -/
def ends : List α → List ℕ
  | [] => []
  | a :: l => if a = sep then 1 :: (ends l).map (· + 1) else (ends l).map (· + 1)

/-- The lines that have ended, without their separators. -/
def complete : List α → List (List α)
  | [] => []
  | a :: l => if a = sep then [] :: complete l else (complete l).modifyHead (a :: ·)

/-- The position after the last separator of the first `n` lines. -/
def bounded (n : ℕ) (l : List α) : ℕ := ((ends sep l).take n).getLast?.getD 0

/-- The position after the last separator. -/
def whole (l : List α) : ℕ := (ends sep l).getLast?.getD 0

/-- No line is unfinished. -/
def Closed (l : List α) : Prop := l = [] ∨ l.getLast? = some sep

variable {sep} {l w t : List α} {a : α} {n : ℕ}

theorem length_ends (l : List α) : (ends sep l).length = (complete sep l).length := by
  induction l with
  | nil => rfl
  | cons a l ih =>
      rw [ends, complete]
      split
      · rw [List.length_cons, List.length_cons, List.length_map, ih]
      · rw [List.length_map, List.length_modifyHead, ih]

theorem whole_eq (l : List α) : whole sep l = bounded sep (complete sep l).length l := by
  rw [whole, bounded, List.take_of_length_le (Nat.le_of_eq (length_ends l))]

omit [DecidableEq α] in
theorem Closed.tail (h : Closed sep (a :: l)) (hne : l ≠ []) : Closed sep l := by
  rcases h with h | h
  · exact absurd h (by simp)
  · rw [List.getLast?_cons_of_ne_nil hne] at h
    exact .inr h

theorem complete_ne_nil (h : Closed sep l) (hne : l ≠ []) : complete sep l ≠ [] := by
  induction l with
  | nil => exact absurd rfl hne
  | cons a l ih =>
      rw [complete]
      split
      · simp
      · rename_i ha
        have hl : l ≠ [] := by
          rintro rfl
          rcases h with h | h
          · exact absurd h (by simp)
          · exact ha (by simpa using h)
        have := ih (h.tail hl) hl
        cases hc : complete sep l with
        | nil => exact absurd hc this
        | cons x xs => simp

/-- **Reading on** from the end of a line. -/
theorem complete_append (h : Closed sep w) (t : List α) :
    complete sep (w ++ t) = complete sep w ++ complete sep t := by
  induction w with
  | nil => rfl
  | cons a w ih =>
      rw [List.cons_append, complete, complete]
      by_cases hw : w = []
      · subst hw
        have ha : a = sep := by
          rcases h with h | h
          · exact absurd h (by simp)
          · simpa using h
        rw [if_pos ha, if_pos ha]
        rfl
      · have hw' := h.tail hw
        rw [ih hw']
        split
        · rfl
        · cases hc : complete sep w with
          | nil => exact absurd hc (complete_ne_nil hw' hw)
          | cons x xs => rfl

omit [DecidableEq α] in
theorem Closed.append (h : Closed sep w) (ht : Closed sep t) : Closed sep (w ++ t) := by
  rcases ht with rfl | ht
  · rwa [List.append_nil]
  · refine .inr ?_
    rw [List.getLast?_append, ht, Option.some_or]

/-! ### Bounded readers -/

theorem bounded_cons_sep (n : ℕ) (l : List α) :
    bounded sep (n + 1) (sep :: l) = bounded sep n l + 1 := by
  rw [bounded, ends, if_pos rfl, List.take_succ_cons, ← List.map_take, bounded]
  rw [List.getLast?_cons, List.getLast?_map]
  cases ((ends sep l).take n).getLast? <;> rfl

theorem bounded_cons (ha : a ≠ sep) (h : (ends sep l).take n ≠ []) :
    bounded sep n (a :: l) = bounded sep n l + 1 := by
  rw [bounded, ends, if_neg ha, ← List.map_take, bounded, List.getLast?_map]
  cases hlast : ((ends sep l).take n).getLast? with
  | none => exact absurd (List.getLast?_eq_none_iff.1 hlast) h
  | some x => rfl

/-- **What a bounded reader consumes**: the first `n` lines, whole. -/
theorem complete_bounded (sep : α) (n : ℕ) (l : List α) :
    Closed sep (l.take (bounded sep n l)) ∧
      complete sep (l.take (bounded sep n l)) = (complete sep l).take n := by
  induction l generalizing n with
  | nil => exact ⟨.inl (by simp), by simp [complete]⟩
  | cons a l ih =>
      by_cases ha : a = sep
      · subst ha
        cases n with
        | zero => exact ⟨.inl (by simp [bounded]), by simp [bounded, complete]⟩
        | succ n =>
            obtain ⟨hclosed, hlines⟩ := ih n
            rw [bounded_cons_sep, List.take_succ_cons, complete, if_pos rfl, complete,
              if_pos rfl, List.take_succ_cons, hlines]
            refine ⟨?_, rfl⟩
            have hone : Closed a [a] := .inr rfl
            exact hone.append hclosed
      · -- an element inside a line: the first line gets it, if there is one to read
        by_cases hnone : (ends sep l).take n = []
        · have hzero : bounded sep n (a :: l) = 0 := by
            rw [bounded, ends, if_neg ha, ← List.map_take, hnone]
            rfl
          have hcomplete : ((complete sep l).modifyHead (a :: ·)).take n = [] := by
            have hlen := congrArg List.length hnone
            rw [List.length_take, length_ends] at hlen
            refine List.eq_nil_of_length_eq_zero ?_
            rw [List.length_take, List.length_modifyHead]
            exact hlen
          rw [hzero, complete, if_neg ha, hcomplete]
          exact ⟨.inl rfl, rfl⟩
        · obtain ⟨hclosed, hlines⟩ := ih n
          rw [bounded_cons ha hnone, List.take_succ_cons]
          have hne : (complete sep l).take n ≠ [] := by
            intro h
            have hlen := congrArg List.length h
            rw [List.length_take, ← length_ends, ← List.length_take] at hlen
            exact hnone (List.eq_nil_of_length_eq_zero hlen)
          rw [← hlines] at hne
          constructor
          · rcases hclosed with h | h
            · rw [h] at hne
              exact absurd rfl hne
            · refine .inr ?_
              rw [List.getLast?_cons, h]
              rfl
          · rw [complete, if_neg ha, hlines, complete, if_neg ha]
            cases n with
            | zero => rfl
            | succ n => cases complete sep l <;> rfl

theorem ends_le {k : ℕ} (hk : k ∈ ends sep l) : k ≤ l.length := by
  induction l generalizing k with
  | nil => exact absurd hk List.not_mem_nil
  | cons a l ih =>
      have hrest : ∀ k ∈ (ends sep l).map (· + 1), k ≤ (a :: l).length := by
        intro k hk
        obtain ⟨j, hj, rfl⟩ := List.mem_map.1 hk
        exact Nat.succ_le_succ (ih hj)
      rw [ends] at hk
      split at hk
      · rcases List.mem_cons.1 hk with rfl | hk
        · exact Nat.succ_le_succ (Nat.zero_le _)
        · exact hrest k hk
      · exact hrest k hk

theorem bounded_le (sep : α) (n : ℕ) (l : List α) : bounded sep n l ≤ l.length := by
  unfold bounded
  cases h : ((ends sep l).take n).getLast? with
  | none => exact Nat.zero_le _
  | some k => exact ends_le (List.mem_of_mem_take (List.mem_of_getLast? h))

/-- A reader that may take a line takes one. -/
theorem bounded_pos (hn : 0 < n) (h : complete sep l ≠ []) : 0 < bounded sep n l := by
  refine Nat.pos_of_ne_zero fun hzero => ?_
  have hlines := (complete_bounded sep n l).2
  rw [hzero, List.take_zero, complete] at hlines
  cases n with
  | zero => omega
  | succ n =>
      cases hc : complete sep l with
      | nil => exact h hc
      | cons x xs => simp [hc] at hlines

/-- What is left to read. -/
theorem complete_drop (n : ℕ) (l : List α) :
    complete sep (l.drop (bounded sep n l)) = (complete sep l).drop n := by
  obtain ⟨hclosed, hlines⟩ := complete_bounded sep n l
  have hall := complete_append hclosed (l.drop (bounded sep n l))
  rw [List.take_append_drop, hlines] at hall
  have hboth := hall.symm.trans (List.take_append_drop n (complete sep l)).symm
  exact List.append_cancel_left hboth

theorem length_ends_eq_count (l : List α) : (ends sep l).length = l.count sep := by
  induction l with
  | nil => rfl
  | cons a l ih =>
      rw [ends, List.count_cons]
      split
      · rename_i ha
        rw [List.length_cons, List.length_map, ih, if_pos (beq_iff_eq.2 ha)]
      · rename_i ha
        rw [List.length_map, ih, if_neg (by simpa using ha), Nat.add_zero]

/-- There are as many lines as separators. -/
theorem length_complete (l : List α) : (complete sep l).length = l.count sep := by
  rw [← length_ends, length_ends_eq_count]

/-- Behind a bounded reader stands a separator, if it consumed anything. -/
theorem closed_take_bounded (sep : α) (n : ℕ) (l : List α) :
    Closed sep (l.take (bounded sep n l)) := (complete_bounded sep n l).1

/-! ### Windows -/

theorem complete_eq_nil : complete sep l = [] ↔ sep ∉ l := by
  induction l with
  | nil => simp [complete]
  | cons a l ih =>
      rw [complete, List.mem_cons, not_or]
      split
      · rename_i ha
        simp [ha]
      · rename_i ha
        rw [List.modifyHead_eq_nil_iff, ih]
        exact ⟨fun h => ⟨Ne.symm ha, h⟩, fun h => h.2⟩

theorem notMem_of_mem_complete {line : List α} (h : line ∈ complete sep l) : sep ∉ line := by
  induction l generalizing line with
  | nil => exact absurd h List.not_mem_nil
  | cons a l ih =>
      rw [complete] at h
      split at h
      · rcases List.mem_cons.1 h with rfl | h
        · exact List.not_mem_nil
        · exact ih h
      · rename_i ha
        cases hc : complete sep l with
        | nil => rw [hc] at h; exact absurd h List.not_mem_nil
        | cons x xs =>
            rw [hc, List.modifyHead_cons] at h
            rcases List.mem_cons.1 h with rfl | h
            · rw [List.mem_cons, not_or]
              exact ⟨Ne.symm ha, ih (hc ▸ List.mem_cons_self)⟩
            · exact ih (hc ▸ List.mem_cons_of_mem x h)

theorem complete_drop_whole (sep : α) (l : List α) : complete sep (l.drop (whole sep l)) = [] := by
  rw [whole_eq, complete_drop, List.drop_length]

/-- A window that holds every separator holds every line. -/
theorem complete_window (h : whole sep l ≤ n) : complete sep (l.take n) = complete sep l := by
  have hbounded := complete_bounded sep (complete sep l).length l
  rw [← whole_eq, List.take_length] at hbounded
  have hwindow : l.take n =
      l.take (whole sep l) ++ (l.drop (whole sep l)).take (n - whole sep l) := by
    rw [← List.take_add, Nat.add_sub_cancel' h]
  have hnone : complete sep ((l.drop (whole sep l)).take (n - whole sep l)) = [] := by
    have hdrop := complete_eq_nil.1 (complete_drop_whole sep l)
    exact complete_eq_nil.2 fun hmem => hdrop (List.mem_of_mem_take hmem)
  rw [hwindow, complete_append hbounded.1, hbounded.2, hnone, List.append_nil]

/-- A window holds a line exactly if it holds the first one and its separator. -/
theorem complete_window_ne_nil :
    complete sep (l.take n) ≠ [] ↔ ∃ line ∈ (complete sep l).head?, line.length < n := by
  induction l generalizing n with
  | nil => simp [complete]
  | cons a l ih =>
      cases n with
      | zero => simp [complete]
      | succ n =>
          rw [List.take_succ_cons, complete, complete]
          split
          · simp
          · rw [Ne, List.modifyHead_eq_nil_iff, ← Ne, ih, List.head?_modifyHead]
            simp

/-- A text without an unfinished line is whole. -/
theorem whole_of_closed (h : Closed sep l) : whole sep l = l.length := by
  have hle : whole sep l ≤ l.length := whole_eq l ▸ bounded_le sep _ l
  refine Nat.le_antisymm hle (Nat.le_of_not_lt fun hlt => ?_)
  have hnone := complete_eq_nil.1 (complete_drop_whole sep l)
  rcases h with rfl | h
  · exact absurd hlt (Nat.not_lt_zero _)
  · refine hnone (List.mem_of_getLast? ?_)
    rw [List.getLast?_drop, if_neg (by omega), h]

/-! ### Written line by line -/

/-- The text of a list of lines. -/
def terminated (sep : α) (lines : List (List α)) : List α := lines.flatMap (· ++ [sep])

omit [DecidableEq α] in
theorem closed_terminated (lines : List (List α)) : Closed sep (terminated sep lines) := by
  induction lines with
  | nil => exact .inl rfl
  | cons line lines ih =>
      have hone : Closed sep (line ++ [sep]) := .inr List.getLast?_concat
      exact hone.append ih

omit [DecidableEq α] in
theorem terminated_append (lines lines' : List (List α)) :
    terminated sep (lines ++ lines') = terminated sep lines ++ terminated sep lines' :=
  List.flatMap_append

/-- The lines of a text that was written line by line. -/
theorem complete_terminated {lines : List (List α)} (h : ∀ line ∈ lines, sep ∉ line) :
    complete sep (terminated sep lines) = lines := by
  induction lines with
  | nil => rfl
  | cons line lines ih =>
      have hone : ∀ line : List α, sep ∉ line → complete sep (line ++ [sep]) = [line] := by
        intro line
        induction line with
        | nil => intro; simp [complete]
        | cons a line ih =>
            intro hsep
            rw [List.mem_cons, not_or] at hsep
            rw [List.cons_append, complete, if_neg (Ne.symm hsep.1), ih hsep.2]
            rfl
      have hclosed : Closed sep (line ++ [sep]) := .inr List.getLast?_concat
      have htext : terminated sep (line :: lines) = (line ++ [sep]) ++ terminated sep lines := rfl
      rw [htext, complete_append hclosed, hone line (h line List.mem_cons_self),
        ih fun other hother => h other (List.mem_cons_of_mem line hother)]
      rfl

theorem terminated_complete (h : Closed sep l) : terminated sep (complete sep l) = l := by
  induction l with
  | nil => rfl
  | cons a l ih =>
      rw [complete]
      by_cases ha : a = sep
      · rw [if_pos ha, terminated, List.flatMap_cons, ← terminated, List.nil_append, ha]
        refine congrArg (sep :: ·) (ih ?_)
        by_cases hl : l = []
        · exact .inl hl
        · exact h.tail hl
      · have hl : l ≠ [] := by
          rintro rfl
          rcases h with h | h
          · exact absurd h (by simp)
          · exact ha (by simpa using h)
        have hclosed := h.tail hl
        have hrest := ih hclosed
        rw [if_neg ha]
        cases hc : complete sep l with
        | nil => exact absurd hc (complete_ne_nil hclosed hl)
        | cons x xs =>
            rw [hc, terminated, List.flatMap_cons] at hrest
            rw [List.modifyHead_cons, terminated, List.flatMap_cons, List.cons_append,
              List.cons_append, hrest]

theorem complete_line (h : sep ∉ l) : complete sep (l ++ [sep]) = [l] := by
  have hone : complete sep (terminated sep [l]) = [l] := complete_terminated (by simpa using h)
  rwa [terminated, List.flatMap_singleton] at hone

/-- **A last line can be told** from the lines before it. -/
theorem closed_append_line {w' l' : List α} (hw : Closed sep w) (hw' : Closed sep w')
    (hl : sep ∉ l) (hl' : sep ∉ l') (h : w ++ (l ++ [sep]) = w' ++ (l' ++ [sep])) :
    w = w' ∧ l = l' := by
  have hlines := congrArg (complete sep) h
  rw [complete_append hw, complete_append hw', complete_line hl, complete_line hl'] at hlines
  obtain ⟨hcomplete, hlast⟩ := List.append_inj' hlines rfl
  refine ⟨?_, List.head_eq_of_cons_eq hlast⟩
  rw [← terminated_complete hw, ← terminated_complete hw', hcomplete]

/-! ### Lines with their separators -/

/-- The lines with their separators, and the unfinished line behind them. -/
def pieces (sep : α) : List α → List (List α)
  | [] => []
  | a :: l =>
      if a = sep then [a] :: pieces sep l
      else
        match pieces sep l with
        | [] => [[a]]
        | line :: rest => (a :: line) :: rest

theorem flatten_pieces (sep : α) (l : List α) : (pieces sep l).flatten = l := by
  induction l with
  | nil => rfl
  | cons a l ih =>
      rw [pieces]
      split
      · rw [List.flatten_cons, ih, List.singleton_append]
      · cases hp : pieces sep l with
        | nil =>
            rw [hp] at ih
            simp [← ih]
        | cons line rest =>
            rw [hp, List.flatten_cons] at ih
            rw [List.flatten_cons, List.cons_append, ih]

theorem flatten_take_pieces (sep : α) (k : ℕ) (l : List α) :
    ((pieces sep l).take k).flatten <+: l := by
  refine ⟨((pieces sep l).drop k).flatten, ?_⟩
  rw [← List.flatten_append, List.take_append_drop, flatten_pieces]

theorem pieces_eq_nil : pieces sep l = [] ↔ l = [] := by
  refine ⟨fun h => ?_, fun h => h ▸ rfl⟩
  have hflat := flatten_pieces sep l
  rw [h] at hflat
  exact hflat.symm

theorem nil_notMem_pieces (sep : α) (l : List α) : [] ∉ pieces sep l := by
  induction l with
  | nil => exact List.not_mem_nil
  | cons a l ih =>
      rw [pieces]
      split
      · simpa using ih
      · cases hp : pieces sep l with
        | nil => simp
        | cons line rest =>
            rw [hp] at ih
            simpa using fun h => ih (List.mem_cons_of_mem _ h)

/-- The pieces before the last one are lines. -/
theorem closed_flatten_take {k : ℕ} (hk : k < (pieces sep l).length) :
    Closed sep ((pieces sep l).take k).flatten := by
  induction l generalizing k with
  | nil => exact absurd hk (Nat.not_lt_zero _)
  | cons a l ih =>
      cases k with
      | zero => exact .inl rfl
      | succ k =>
          rw [pieces] at hk ⊢
          split
          · rename_i ha
            rw [if_pos ha, List.length_cons] at hk
            rw [List.take_succ_cons, List.flatten_cons]
            have hone : Closed sep [a] := .inr (by rw [ha]; rfl)
            exact hone.append (ih (by omega))
          · rename_i ha
            rw [if_neg ha] at hk
            cases hp : pieces sep l with
            | nil => rw [hp] at hk; simp at hk
            | cons line rest =>
                rw [hp] at hk
                have hclosed := @ih (k + 1) (by rw [hp]; simpa using hk)
                rw [hp, List.take_succ_cons, List.flatten_cons] at hclosed
                rw [List.take_succ_cons, List.flatten_cons, List.cons_append]
                rcases hclosed with h | h
                · have hline : line = [] := (List.append_eq_nil_iff.1 h).1
                  rw [hline] at hp
                  exact absurd (hp ▸ List.mem_cons_self) (nil_notMem_pieces sep l)
                · refine .inr ?_
                  rw [List.getLast?_cons, h]
                  rfl

/-- Reading on from the end of a line. -/
theorem pieces_append (h : Closed sep w) (t : List α) :
    pieces sep (w ++ t) = pieces sep w ++ pieces sep t := by
  induction w with
  | nil => rfl
  | cons a w ih =>
      rw [List.cons_append, pieces, pieces]
      by_cases hw : w = []
      · subst hw
        have ha : a = sep := by
          rcases h with h | h
          · exact absurd h (by simp)
          · simpa using h
        rw [if_pos ha, if_pos ha]
        rfl
      · have hw' := h.tail hw
        rw [ih hw']
        split
        · rfl
        · cases hp : pieces sep w with
          | nil => exact absurd (pieces_eq_nil.1 hp) hw
          | cons line rest => rfl

/-- The first piece holds everything before the first separator. -/
theorem isPrefix_pieces_head (h : sep ∉ w) (ht : w ++ t ≠ []) :
    ∃ line rest, pieces sep (w ++ t) = line :: rest ∧ w <+: line := by
  induction w with
  | nil =>
      cases hp : pieces sep ([] ++ t) with
      | nil => exact absurd (pieces_eq_nil.1 hp) ht
      | cons line rest => exact ⟨line, rest, rfl, List.nil_prefix⟩
  | cons a w ih =>
      rw [List.mem_cons, not_or] at h
      rw [List.cons_append, pieces, if_neg (Ne.symm h.1)]
      by_cases hnil : w ++ t = []
      · rw [hnil]
        have hw : w = [] := List.append_eq_nil_iff.1 hnil |>.1
        exact ⟨[a], [], rfl, by simp [hw]⟩
      · obtain ⟨line, rest, hp, hpre⟩ := ih h.2 hnil
        rw [hp]
        exact ⟨a :: line, rest, rfl, List.cons_prefix_cons.2 ⟨rfl, hpre⟩⟩

end Lines
