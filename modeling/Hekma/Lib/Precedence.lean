/-
**Precedence reporting behind a latch.**

A detector watches several keys in a fixed order of precedence and reports the first one that
trips.  Behind it stands a latch: a reported key fires once and is remembered, and a key that is
already remembered is not fired again.  The two filters do not commute.  This module says what
their composition does when the latch is fed back into itself with the same readings.

Main definitions:

* `Precedence.report` — the first key of the list that trips;
* `Precedence.latch` — the remembered keys after one report;
* `Precedence.latchN` — the remembered keys after `n` reports of the same readings.

Main results:

* `Precedence.mem_latchN_succ` — after one report or more, the remembered keys are the initial
  ones and the reported one;
* `Precedence.fires_iff`, `Precedence.latchN_complete_iff` — **masking**: an unlatched tripping
  key leads to a firing exactly when the reported key is itself unlatched, and all tripping keys
  end up latched exactly when every tripping key that is not the reported one was so before.
-/

import Mathlib.Data.List.Basic
import Mathlib.Tactic.Common

set_option relaxedAutoImplicit false
set_option autoImplicit false

namespace Precedence

variable {κ : Type} [DecidableEq κ] {trips : κ → Bool} {ks latched : List κ} {k : κ}

/-- The first key of the list that trips. -/
def report (trips : κ → Bool) (ks : List κ) : Option κ := ks.find? trips

/-- The remembered keys after one report: a fresh report is appended. -/
def latch (latched : List κ) : Option κ → List κ
  | none => latched
  | some k => if k ∈ latched then latched else latched ++ [k]

/-- The remembered keys after `n` reports of the same readings. -/
def latchN (r : Option κ) : ℕ → List κ → List κ
  | 0, latched => latched
  | n + 1, latched => latchN r n (latch latched r)

@[simp] theorem latch_none : latch latched none = latched := rfl

@[simp] theorem mem_latch {r : Option κ} {k' : κ} :
    k' ∈ latch latched r ↔ k' ∈ latched ∨ r = some k' := by
  cases r with
  | none => simp
  | some k =>
      by_cases h : k ∈ latched
      · simp only [latch, if_pos h, Option.some.injEq]
        exact ⟨Or.inl, fun h' => h'.elim id fun he => he ▸ h⟩
      · simp [latch, h, eq_comm]

/-- After one report or more, the remembered keys are the initial ones and the reported one. -/
theorem mem_latchN_succ {r : Option κ} {k' : κ} (n : ℕ) :
    k' ∈ latchN r (n + 1) latched ↔ k' ∈ latched ∨ r = some k' := by
  induction n generalizing latched with
  | zero => simp [latchN]
  | succ n ih => rw [latchN, ih, mem_latch]; tauto

omit [DecidableEq κ] in
theorem trips_of_report (h : report trips ks = some k) : trips k = true := List.find?_some h

omit [DecidableEq κ] in
/-- Something trips exactly when something is reported. -/
theorem exists_report (hk : k ∈ ks) (ht : trips k = true) : ∃ k', report trips ks = some k' := by
  cases h : report trips ks with
  | some k' => exact ⟨k', rfl⟩
  | none => exact absurd ht (List.find?_eq_none.1 h k hk)

omit [DecidableEq κ] in
/-- On **one report**, an unlatched tripping key always leads to a fresh report exactly when no
latched report hides an unlatched tripping key. -/
theorem fires_iff :
    ((∃ k ∈ ks, trips k = true ∧ k ∉ latched) → ∃ k, report trips ks = some k ∧ k ∉ latched) ↔
      ¬ ∃ k, report trips ks = some k ∧ k ∈ latched ∧
        ∃ k' ∈ ks, trips k' = true ∧ k' ∉ latched := by
  constructor
  · rintro h ⟨k, hr, hk, hk'⟩
    obtain ⟨k₀, hr₀, hk₀⟩ := h hk'
    rw [hr, Option.some.injEq] at hr₀
    exact hk₀ (hr₀ ▸ hk)
  · rintro h ⟨k', hk', ht, hl⟩
    obtain ⟨k, hr⟩ := exists_report hk' ht
    exact ⟨k, hr, fun hk => h ⟨k, hr, hk, k', hk', ht, hl⟩⟩

/-- After **any number of reports**, all tripping keys are latched after one report or more exactly
when no report hides an unlatched tripping key other than itself. -/
theorem latchN_complete_iff (n : ℕ) :
    (∀ k ∈ ks, trips k = true → k ∈ latchN (report trips ks) (n + 1) latched) ↔
      ¬ ∃ k, report trips ks = some k ∧ ∃ k' ∈ ks, k' ≠ k ∧ trips k' = true ∧ k' ∉ latched := by
  constructor
  · rintro h ⟨k, hr, k', hk', hne, ht, hl⟩
    rcases (mem_latchN_succ n).1 (h k' hk' ht) with hin | hrep
    · exact hl hin
    · rw [hr, Option.some.injEq] at hrep
      exact hne hrep.symm
  · intro h k' hk' ht
    obtain ⟨k, hr⟩ := exists_report hk' ht
    by_cases hne : k' = k
    · exact (mem_latchN_succ n).2 (Or.inr (hne ▸ hr))
    · by_contra hl
      rw [mem_latchN_succ] at hl
      exact h ⟨k, hr, k', hk', hne, ht, fun hin => hl (Or.inl hin)⟩

end Precedence
