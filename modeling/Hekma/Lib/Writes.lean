/-
**Runs of writes.**

A run of steps writes into a store, each step under one name or none.  If every step changes what
is looked up under its own name only, then at the end of the run the last value written under a
name is found there, and a name under which nothing is written keeps what it had.

Main definitions:

* `Writes.Writing` — a step writes its value under its name.

Main results:

* `Writes.Writing.found` — what is written under a name by agreeing steps is found there;
* `Writes.Writing.kept` — what is not written stays.
-/

import Mathlib.Tactic.Common

set_option relaxedAutoImplicit false
set_option autoImplicit false

namespace Writes

variable {σ ι ν β : Type*} [DecidableEq ν] {step : σ → ι → σ} {look : σ → ν → Option β}
  {name : ι → Option ν} {value : ι → β}

/-- Each step writes its value under its name, if it has one, and nothing else. -/
def Writing (step : σ → ι → σ) (look : σ → ν → Option β) (name : ι → Option ν) (value : ι → β) :
    Prop :=
  ∀ s x n, look (step s x) n = if name x = some n then some (value x) else look s n

/-- A name under which nothing is written keeps what it had. -/
theorem Writing.kept (h : Writing step look name value) {l : List ι} {n : ν}
    (hnone : ∀ x ∈ l, name x ≠ some n) (s : σ) : look (l.foldl step s) n = look s n := by
  induction l generalizing s with
  | nil => rfl
  | cons x l ih =>
      rw [List.foldl_cons, ih (fun y hy => hnone y (List.mem_cons_of_mem _ hy)), h,
        if_neg (hnone x List.mem_cons_self)]

/-- A run that writes under a name leaves one of the values there. -/
theorem Writing.exists_of_mem (h : Writing step look name value) {l : List ι} {n : ν}
    (hmem : ∃ x ∈ l, name x = some n) (s : σ) :
    ∃ x ∈ l, name x = some n ∧ look (l.foldl step s) n = some (value x) := by
  induction l generalizing s with
  | nil =>
      obtain ⟨x, hx, -⟩ := hmem
      cases hx
  | cons z l ih =>
      rw [List.foldl_cons]
      by_cases hlater : ∃ x ∈ l, name x = some n
      · obtain ⟨x, hx, hname, hlook⟩ := ih hlater (step s z)
        exact ⟨x, List.mem_cons_of_mem _ hx, hname, hlook⟩
      · -- the first step is the last to write here
        push Not at hlater
        obtain ⟨x, hx, hname⟩ := hmem
        rcases List.mem_cons.1 hx with rfl | hx
        · refine ⟨x, List.mem_cons_self, hname, ?_⟩
          rw [h.kept hlater, h, if_pos hname]
        · exact absurd hname (hlater x hx)

/-- What steps that agree write under a name is found there. -/
theorem Writing.found (h : Writing step look name value) {l : List ι} {x : ι} {n : ν}
    (hx : x ∈ l) (hname : name x = some n)
    (hagree : ∀ y ∈ l, name y = some n → value y = value x) (s : σ) :
    look (l.foldl step s) n = some (value x) := by
  obtain ⟨y, hy, hyname, hlook⟩ := h.exists_of_mem ⟨x, hx, hname⟩ s
  rw [hlook, hagree y hy hyname]

end Writes
