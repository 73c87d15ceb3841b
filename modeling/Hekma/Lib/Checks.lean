/-
**Chains of checks.**

A validation is a chain of checks, each with the error it refuses with.  It accepts exactly what
passes every check.

Main definitions:

* `Checks.refuse` — one check;
* `Checks.each` — a check of every element of a list.

Main results:

* `Checks.bind_eq_ok`, `Checks.each_eq_ok` — what a chain accepts.
-/

import Mathlib.Tactic.Common

set_option relaxedAutoImplicit false
set_option autoImplicit false

namespace Checks

variable {ε α β : Type}

/-- Refuse with an error if something is wrong. -/
def refuse (wrong : Bool) (e : ε) : Except ε Unit := if wrong then .error e else .ok ()

@[simp] theorem refuse_eq_ok {wrong : Bool} {e : ε} {u : Unit} :
    refuse wrong e = .ok u ↔ wrong = false := by
  cases wrong <;> simp [refuse]

/-- A chain accepts what its first check and the rest accept. -/
theorem bind_eq_ok {x : Except ε α} {f : α → Except ε β} {b : β} :
    (x >>= f) = .ok b ↔ ∃ a, x = .ok a ∧ f a = .ok b := by
  cases x with
  | error e =>
      constructor
      · intro h
        cases h
      · rintro ⟨a, h, -⟩
        cases h
  | ok a =>
      constructor
      · exact fun h => ⟨a, rfl, h⟩
      · rintro ⟨a, h, hf⟩
        cases h
        exact hf

/-- A check of every element, in order. -/
def each (check : α → Except ε Unit) : List α → Except ε Unit
  | [] => .ok ()
  | a :: l => do
      check a
      each check l

theorem each_eq_ok {check : α → Except ε Unit} {l : List α} {u : Unit} :
    each check l = .ok u ↔ ∀ a ∈ l, check a = .ok () := by
  induction l with
  | nil => simp [each]
  | cons a l ih =>
      rw [each, bind_eq_ok]
      constructor
      · rintro ⟨v, ha, hl⟩ b hb
        rcases List.mem_cons.1 hb with rfl | hb
        · exact ha
        · exact ih.1 hl b hb
      · intro h
        exact ⟨(), h a List.mem_cons_self, ih.2 fun b hb => h b (List.mem_cons_of_mem _ hb)⟩

end Checks
