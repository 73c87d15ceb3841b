/-
**Texts as characters.**

The operations of a standard library on texts: the white space at the ends of a text, a prefix, and
the lines of a text, each with its separator or without.  A carriage return before a newline
belongs to the separator, so a reader that does not look at the white space around a line cannot
tell how the line ends.

Main definitions:

* `Text.isWhitespace`, `Text.trim` — white space, and a text without it at its ends;
* `Text.stripPrefix`, `Text.stripSuffix` — a text without its beginning, or its last character;
* `Text.splitOnce`, `Text.rsplitOnce` — a text cut at the first, or the last, of a character;
* `Text.splitInclusive`, `Text.lines` — the lines of a text;
* `Text.EndsLine`, `Text.BeginsLine` — the texts a line can stand after, and before.

Main results:

* `Text.lines_append` — the lines after the end of a line;
* `Text.lines_line` — a text without a separator is one line;
* `Text.filterMap_lines_newline` — the end of the last line does not matter to such a reader.
-/

import Mathlib.Data.List.Basic
import Mathlib.Data.List.DropRight
import Mathlib.Tactic.Common

set_option relaxedAutoImplicit false
set_option autoImplicit false

namespace Text

/-! ### White space -/

/-- The characters with the property `White_Space`. -/
def isWhitespace (c : Char) : Bool :=
  let n := c.toNat
  (9 ≤ n && n ≤ 13) || n = 0x20 || n = 0x85 || n = 0xA0 || n = 0x1680 ||
    (0x2000 ≤ n && n ≤ 0x200A) || n = 0x2028 || n = 0x2029 || n = 0x202F || n = 0x205F ||
    n = 0x3000

/-- A text without the white space at its ends. -/
def trim (s : List Char) : List Char := (s.dropWhile isWhitespace).rdropWhile isWhitespace

/-- A text without a beginning it has. -/
def stripPrefix : List Char → List Char → Option (List Char)
  | [], s => some s
  | _ :: _, [] => none
  | c :: pre, d :: s => if c = d then stripPrefix pre s else none

/-- A text without a last character it has. -/
def stripSuffix (c : Char) (s : List Char) : Option (List Char) :=
  if s.getLast? = some c then some s.dropLast else none

variable {s t : List Char} {c : Char}

theorem trim_cons_of_isWhitespace (h : isWhitespace c) : trim (c :: s) = trim s := by
  rw [trim, List.dropWhile_cons_of_pos h, trim]

theorem trim_append_of_isWhitespace (h : isWhitespace c) : trim (s ++ [c]) = trim s := by
  induction s with
  | nil => rw [List.nil_append, trim_cons_of_isWhitespace h]
  | cons d s ih =>
      by_cases hd : isWhitespace d
      · rw [List.cons_append, trim_cons_of_isWhitespace hd, ih, trim_cons_of_isWhitespace hd]
      · rw [trim, trim, List.cons_append, List.dropWhile_cons_of_neg hd,
          List.dropWhile_cons_of_neg hd, ← List.cons_append,
          List.rdropWhile_concat_pos _ _ _ h]

/-- A text that neither begins nor ends with white space is trimmed. -/
theorem trim_eq_self (hhead : ∀ c ∈ s.head?, ¬ isWhitespace c)
    (hlast : ∀ c ∈ s.getLast?, ¬ isWhitespace c) : trim s = s := by
  have hdrop : s.dropWhile isWhitespace = s := by
    cases s with
    | nil => rfl
    | cons d s => exact List.dropWhile_cons_of_neg (hhead d rfl)
  rw [trim, hdrop]
  refine List.rdropWhile_eq_self_iff.2 fun hne => ?_
  exact hlast _ (List.getLast?_eq_some_getLast hne)

theorem stripPrefix_append (pre s : List Char) : stripPrefix pre (pre ++ s) = some s := by
  induction pre with
  | nil => rfl
  | cons c pre ih => rw [List.cons_append, stripPrefix, if_pos rfl, ih]

theorem stripPrefix_eq_some {pre rest : List Char} :
    stripPrefix pre s = some rest ↔ s = pre ++ rest := by
  induction pre generalizing s with
  | nil => simp [stripPrefix, eq_comm]
  | cons c pre ih =>
      cases s with
      | nil => simp [stripPrefix]
      | cons d s =>
          rw [stripPrefix]
          split
          · rename_i hc
            rw [ih, hc, List.cons_append, List.cons.injEq, eq_self_iff_true, true_and]
          · rename_i hc
            simp [Ne.symm hc]

/-! ### Cutting at a character -/

/-- What stands before and behind the first of a character. -/
def splitOnce (c : Char) : List Char → Option (List Char × List Char)
  | [] => none
  | d :: s => if d = c then some ([], s) else (splitOnce c s).map fun p => (d :: p.1, p.2)

/-- What stands before and behind the last of a character. -/
def rsplitOnce (c : Char) (s : List Char) : Option (List Char × List Char) :=
  (splitOnce c s.reverse).map fun p => (p.2.reverse, p.1.reverse)

theorem splitOnce_eq_some {a b : List Char} :
    splitOnce c s = some (a, b) ↔ s = a ++ c :: b ∧ c ∉ a := by
  induction s generalizing a b with
  | nil => simp [splitOnce]
  | cons d s ih =>
      rw [splitOnce]
      split
      · rename_i hd
        subst hd
        cases a with
        | nil => simp
        | cons x a => simp_all
      · rename_i hd
        cases a with
        | nil => simp [hd]
        | cons x a =>
            rw [Option.map_eq_some_iff]
            constructor
            · rintro ⟨p, hp, heq⟩
              obtain ⟨hs, hnone⟩ := ih.1 hp
              obtain ⟨hx, hb⟩ := Prod.mk.inj heq
              obtain ⟨rfl, rfl⟩ := List.cons.inj hx
              subst hb
              rw [hs, List.cons_append, List.mem_cons, not_or]
              exact ⟨rfl, Ne.symm hd, hnone⟩
            · rintro ⟨hs, hnone⟩
              rw [List.cons_append, List.cons.injEq] at hs
              rw [List.mem_cons, not_or] at hnone
              exact ⟨(a, b), ih.2 ⟨hs.2, hnone.2⟩, by rw [hs.1]⟩

theorem splitOnce_eq_none : splitOnce c s = none ↔ c ∉ s := by
  induction s with
  | nil => simp [splitOnce]
  | cons d s ih =>
      rw [splitOnce, List.mem_cons, not_or]
      split
      · rename_i hd
        simp [hd]
      · rename_i hd
        rw [Option.map_eq_none_iff, ih]
        exact ⟨fun h => ⟨Ne.symm hd, h⟩, fun h => h.2⟩

theorem rsplitOnce_eq_some {a b : List Char} :
    rsplitOnce c s = some (a, b) ↔ s = a ++ c :: b ∧ c ∉ b := by
  rw [rsplitOnce, Option.map_eq_some_iff]
  constructor
  · rintro ⟨p, hp, heq⟩
    obtain ⟨hs, hnone⟩ := splitOnce_eq_some.1 hp
    obtain ⟨rfl, rfl⟩ := Prod.mk.inj heq
    refine ⟨?_, fun hmem => hnone (List.mem_reverse.1 hmem)⟩
    rw [← List.reverse_reverse s, hs, List.reverse_append, List.reverse_cons, List.append_assoc,
      List.singleton_append]
  · rintro ⟨rfl, hnone⟩
    refine ⟨(b.reverse, a.reverse), splitOnce_eq_some.2 ⟨?_, ?_⟩, ?_⟩
    · simp
    · exact fun hmem => hnone (List.mem_reverse.1 hmem)
    · simp

theorem rsplitOnce_eq_none : rsplitOnce c s = none ↔ c ∉ s := by
  rw [rsplitOnce, Option.map_eq_none_iff, splitOnce_eq_none, List.mem_reverse]

/-! ### Lines -/

/-- The lines of a text, each with the newline that ends it. -/
def splitInclusive : List Char → List (List Char)
  | [] => []
  | c :: s =>
      if c = '\n' then ['\n'] :: splitInclusive s
      else
        match splitInclusive s with
        | [] => [[c]]
        | line :: rest => (c :: line) :: rest

/-- A line without what ends it: a newline, and a carriage return before the newline. -/
def stripEnding (line : List Char) : List Char :=
  match stripSuffix '\n' line with
  | none => line
  | some line =>
      match stripSuffix '\r' line with
      | none => line
      | some line => line

/-- The lines of a text. -/
def lines (s : List Char) : List (List Char) := (splitInclusive s).map stripEnding

/-- A line can stand after the text. -/
def EndsLine (s : List Char) : Prop := s = [] ∨ s.getLast? = some '\n'

/-- A line can stand before the text. -/
def BeginsLine (s : List Char) : Prop := s = [] ∨ ['\n'] <+: s ∨ ['\r', '\n'] <+: s

theorem splitInclusive_newline_cons (s : List Char) :
    splitInclusive ('\n' :: s) = ['\n'] :: splitInclusive s := by
  rw [splitInclusive, if_pos rfl]

theorem splitInclusive_append_newline (s t : List Char) :
    splitInclusive (s ++ '\n' :: t) = splitInclusive (s ++ ['\n']) ++ splitInclusive t := by
  induction s with
  | nil =>
      rw [List.nil_append, List.nil_append, splitInclusive_newline_cons,
        splitInclusive_newline_cons]
      rfl
  | cons c s ih =>
      rw [List.cons_append, List.cons_append, splitInclusive, splitInclusive, ih]
      split
      · rfl
      · -- the line before the newline is not empty
        cases hs : splitInclusive (s ++ ['\n']) with
        | nil =>
            cases s with
            | nil => simp [splitInclusive_newline_cons] at hs
            | cons d s =>
                rw [List.cons_append, splitInclusive] at hs
                split at hs
                · simp at hs
                · split at hs <;> simp at hs
        | cons line rest => rfl

/-- **The lines after the end of a line.** -/
theorem lines_append_newline (s t : List Char) :
    lines (s ++ '\n' :: t) = lines (s ++ ['\n']) ++ lines t := by
  rw [lines, splitInclusive_append_newline, List.map_append, lines, lines]

theorem lines_append (h : EndsLine s) (t : List Char) : lines (s ++ t) = lines s ++ lines t := by
  rcases h with rfl | h
  · rfl
  · obtain ⟨s, rfl⟩ := List.getLast?_eq_some_iff.1 h
    rw [List.append_assoc, List.singleton_append, lines_append_newline]

theorem splitInclusive_line (h : '\n' ∉ s) (hne : s ≠ []) : splitInclusive s = [s] := by
  induction s with
  | nil => exact absurd rfl hne
  | cons c s ih =>
      rw [List.mem_cons, not_or] at h
      rw [splitInclusive, if_neg (Ne.symm h.1)]
      by_cases hs : s = []
      · rw [hs]
        rfl
      · rw [ih h.2 hs]

theorem splitInclusive_line_newline (h : '\n' ∉ s) :
    splitInclusive (s ++ ['\n']) = [s ++ ['\n']] := by
  induction s with
  | nil => rfl
  | cons c s ih =>
      rw [List.mem_cons, not_or] at h
      rw [List.cons_append, splitInclusive, if_neg (Ne.symm h.1), ih h.2]

theorem stripEnding_of_not_mem (h : '\n' ∉ s) : stripEnding s = s := by
  have hlast : s.getLast? ≠ some '\n' := fun hlast => h (List.mem_of_getLast? hlast)
  rw [stripEnding, stripSuffix, if_neg hlast]

/-- A text without a newline is one line, or none. -/
theorem lines_line (h : '\n' ∉ s) (hne : s ≠ []) : lines s = [s] := by
  rw [lines, splitInclusive_line h hne, List.map_singleton, stripEnding_of_not_mem h]

theorem stripEnding_newline (s : List Char) :
    stripEnding (s ++ ['\n']) = s ∨ s = stripEnding (s ++ ['\n']) ++ ['\r'] := by
  rw [stripEnding, stripSuffix, if_pos List.getLast?_concat, List.dropLast_concat]
  dsimp only
  rw [stripSuffix]
  split_ifs with h
  · obtain ⟨s, rfl⟩ := List.getLast?_eq_some_iff.1 h
    exact .inr (by rw [List.dropLast_concat])
  · exact .inl rfl

theorem lines_line_newline (h : '\n' ∉ s) : lines (s ++ ['\n']) = [stripEnding (s ++ ['\n'])] := by
  rw [lines, splitInclusive_line_newline h, List.map_singleton]

/-- A text ends with a line that is not finished, or with nothing. -/
theorem exists_lastLine (s : List Char) :
    ∃ pre line, s = pre ++ line ∧ EndsLine pre ∧ '\n' ∉ line := by
  induction s with
  | nil => exact ⟨[], [], rfl, .inl rfl, List.not_mem_nil⟩
  | cons c s ih =>
      obtain ⟨pre, line, rfl, hpre, hline⟩ := ih
      by_cases hne : pre = []
      · subst hne
        by_cases hc : c = '\n'
        · exact ⟨[c], line, rfl, .inr (by rw [hc]; rfl), hline⟩
        · exact ⟨[], c :: line, rfl, .inl rfl, by
            rw [List.mem_cons, not_or]
            exact ⟨Ne.symm hc, hline⟩⟩
      · refine ⟨c :: pre, line, rfl, .inr ?_, hline⟩
        rcases hpre with hpre | hpre
        · exact absurd hpre hne
        · rw [List.getLast?_cons_of_ne_nil hne, hpre]

/-! ### Readers of lines -/

section Readers

variable {α : Type} {read : List Char → Option α}

/-- A reader that does not look at a carriage return behind a line, and finds nothing in an empty
one, reads the same whether the last line is finished or not. -/
theorem filterMap_lines_newline (hnil : read [] = none)
    (hcr : ∀ line, read (line ++ ['\r']) = read line) (s : List Char) :
    (lines (s ++ ['\n'])).filterMap read = (lines s).filterMap read := by
  obtain ⟨pre, line, rfl, hpre, hline⟩ := exists_lastLine s
  rw [List.append_assoc, lines_append hpre, lines_append hpre, List.filterMap_append,
    List.filterMap_append, lines_line_newline hline]
  have hread : read (stripEnding (line ++ ['\n'])) = read line := by
    rcases stripEnding_newline line with h | h
    · rw [h]
    · conv_rhs => rw [h]
      exact (hcr _).symm
  by_cases hne : line = []
  · subst hne
    have hempty : lines [] = [] := rfl
    rw [List.filterMap_cons, hread, hnil, hempty]
  · rw [lines_line hline hne, List.filterMap_cons, hread, List.filterMap_cons]

/-- The lines of two texts with a newline between them. -/
theorem filterMap_lines_between (hnil : read [] = none)
    (hcr : ∀ line, read (line ++ ['\r']) = read line) (s t : List Char) :
    (lines (s ++ '\n' :: t)).filterMap read
      = (lines s).filterMap read ++ (lines t).filterMap read := by
  rw [lines_append_newline, List.filterMap_append, filterMap_lines_newline hnil hcr]

end Readers

end Text
