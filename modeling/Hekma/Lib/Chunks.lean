/-
**Texts read in chunks.**

A reader gets a text in chunks whose lengths it does not choose, up to its end or to a failure.  A
search keeps the end of what it has read, one element shorter than what it looks for: an occurrence
that is not over yet begins there, and no other does.

Main definitions:

* `Chunks.Reads` — the reads of a text;
* `Chunks.hasWindow` — one of the windows of a text is the one looked for;
* `Chunks.search` — the search through the chunks.

Main results:

* `Chunks.hasWindow_iff` — a window is an infix;
* `Chunks.isInfix_append` — an occurrence that is new after a chunk;
* `Chunks.search_iff` — **the search finds what the whole text holds**.
-/

import Mathlib.Data.List.Infix

set_option relaxedAutoImplicit false
set_option autoImplicit false

namespace Chunks

variable {α : Type}

/-- The reads of a text: none is empty or longer than the buffer, and together they are the text, or
its beginning if a read fails. -/
structure Reads (ε : Type) (text : List α) (capacity : ℕ) where
  chunks : List (List α)
  failure : Option ε
  nonempty : [] ∉ chunks
  fits : ∀ chunk ∈ chunks, chunk.length ≤ capacity
  beginning : chunks.flatten <+: text
  whole : failure = none → chunks.flatten = text

theorem flatten_map_singleton (text : List α) : (text.map fun a => [a]).flatten = text := by
  rw [← List.flatMap_def, List.flatMap_singleton']

/-- The reads of a text, one element at a time. -/
def Reads.bytewise {ε : Type} (text : List α) (capacity : ℕ) : Reads ε text (capacity + 1) where
  chunks := text.map fun a => [a]
  failure := none
  nonempty := by simp
  fits := by simp
  beginning := by rw [flatten_map_singleton]
  whole _ := flatten_map_singleton text

variable [DecidableEq α]

/-- One of the windows of a text is the needle. -/
def hasWindow (needle text : List α) : Bool :=
  (List.range (text.length + 1 - needle.length)).any fun i =>
    (text.drop i).take needle.length = needle

/-- Search the chunks: what was kept of the earlier ones stands before the next. -/
def search (needle : List α) : List α → List (List α) → Bool
  | _, [] => false
  | carry, chunk :: chunks =>
      let window := carry ++ chunk
      if hasWindow needle window then true
      else
        let keep := min (needle.length - 1) window.length
        search needle (window.drop (window.length - keep)) chunks

variable {needle text seen carry chunk : List α}

theorem hasWindow_iff : hasWindow needle text = true ↔ needle <:+: text := by
  rw [hasWindow, List.any_eq_true]
  constructor
  · rintro ⟨i, -, h⟩
    rw [← of_decide_eq_true h]
    exact (List.take_prefix _ _).isInfix.trans (List.drop_suffix _ _).isInfix
  · rintro ⟨before, after, rfl⟩
    refine ⟨before.length, List.mem_range.2 ?_, decide_eq_true ?_⟩
    · simp only [List.length_append]
      omega
    · rw [List.append_assoc, List.drop_left, List.take_left]

omit [DecidableEq α] in
/-- **An occurrence that is new** after a chunk begins in what is kept. -/
theorem isInfix_append (hnew : ¬ needle <:+: seen) (hcarry : carry <:+ seen)
    (hlong : needle.length - 1 ≤ carry.length ∨ carry = seen) :
    needle <:+: seen ++ chunk ↔ needle <:+: carry ++ chunk := by
  obtain ⟨old, rfl⟩ := hcarry
  constructor
  · rintro ⟨before, after, heq⟩
    have hlen := congrArg List.length heq
    simp only [List.length_append] at hlen
    by_cases hafter : chunk.length ≤ after.length
    · -- the chunk stands behind the occurrence, so it was seen already
      have hsuffix : chunk <:+ after := by
        have hall : chunk <:+ before ++ needle ++ after := ⟨old ++ carry, heq.symm⟩
        exact List.suffix_of_suffix_length_le hall (List.suffix_append _ _) hafter
      obtain ⟨rest, rfl⟩ := hsuffix
      rw [← List.append_assoc] at heq
      exact absurd ⟨before, rest, List.append_cancel_right heq⟩ hnew
    · have hbefore : old <+: before := by
        refine List.prefix_of_prefix_length_le ⟨carry ++ chunk, rfl⟩ ?_ ?_
        · exact ⟨needle ++ after, by rw [← List.append_assoc, heq, List.append_assoc]⟩
        · rcases hlong with hlong | hlong
          · omega
          · rw [List.self_eq_append_left.1 hlong]
            exact Nat.zero_le _
      obtain ⟨rest, rfl⟩ := hbefore
      refine ⟨rest, after, List.append_cancel_left (?_ : old ++ _ = old ++ _)⟩
      simpa only [List.append_assoc] using heq
  · intro h
    rw [List.append_assoc]
    exact h.trans (List.suffix_append _ _).isInfix

/-- **The search finds what the whole text holds.** -/
theorem search_iff (chunks : List (List α)) (hnew : ¬ needle <:+: seen) (hcarry : carry <:+ seen)
    (hlong : needle.length - 1 ≤ carry.length ∨ carry = seen) :
    search needle carry chunks = true ↔ needle <:+: seen ++ chunks.flatten := by
  induction chunks generalizing seen carry with
  | nil =>
      rw [search, List.flatten_nil, List.append_nil]
      exact iff_of_false Bool.false_ne_true hnew
  | cons chunk chunks ih =>
      have hnext : needle <:+: seen ++ chunk ↔ needle <:+: carry ++ chunk :=
        isInfix_append hnew hcarry hlong
      rw [search, List.flatten_cons, ← List.append_assoc]
      dsimp only
      split
      · rename_i hfound
        refine iff_of_true rfl ?_
        exact (hnext.2 (hasWindow_iff.1 hfound)).trans (List.prefix_append _ _).isInfix
      · rename_i hnone
        rw [hasWindow_iff, ← hnext] at hnone
        obtain ⟨old, rfl⟩ := hcarry
        have hwindow : carry ++ chunk <:+ old ++ carry ++ chunk :=
          ⟨old, by rw [List.append_assoc]⟩
        refine ih hnone ((List.drop_suffix _ _).trans hwindow) ?_
        -- either the window is longer than what is kept, or it is kept whole
        rw [List.length_drop]
        rcases hlong with hlong | hlong
        · refine .inl ?_
          rw [List.length_append]
          omega
        · rcases Nat.le_total (needle.length - 1) (carry ++ chunk).length with hle | hle
          · exact .inl (by omega)
          · refine .inr ?_
            rw [Nat.min_eq_right hle, Nat.sub_self, List.drop_zero, ← hlong]

/-- The search of a text from its beginning. -/
theorem search_nil_iff (hneedle : needle ≠ []) (chunks : List (List α)) :
    search needle [] chunks = true ↔ needle <:+: chunks.flatten := by
  have hnew : ¬ needle <:+: [] := fun h => hneedle (List.infix_nil.1 h)
  exact search_iff chunks hnew List.suffix_rfl (.inr rfl)

-- the needle lies in three chunks
example : search [1, 2, 3, 4] [] [[0, 1], [2, 3], [4]] = true := by decide

end Chunks
