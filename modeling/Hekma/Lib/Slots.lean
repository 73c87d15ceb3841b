/-
**Slots.**

The parties of a system are the entries of a list: a new one is appended, and a step of one party
sets its entry.

Main definitions:

* `Slots.All` — something holds of every entry, at its place.

Main results:

* `Slots.All.set`, `Slots.All.append` — after a step of one party, and with a new party.
-/

import Mathlib.Tactic

set_option relaxedAutoImplicit false
set_option autoImplicit false

namespace Hekma

namespace Slots

variable {α : Type} {P Q : ℕ → α → Prop} {l : List α} {i : ℕ} {x : α}

/-- Something holds of every entry, at its place. -/
def All (P : ℕ → α → Prop) (l : List α) : Prop :=
  ∀ i a, l[i]? = some a → P i a

theorem All.nil : All P [] := by
  intro i a h
  cases h

theorem All.imp (h : All P l) (himp : ∀ i a, l[i]? = some a → P i a → Q i a) : All Q l := by
  intro i a ha
  exact himp i a ha (h i a ha)

/-- One party has gone on; of the others something may have been learnt. -/
theorem All.set (hothers : ∀ j a, l[j]? = some a → j ≠ i → P j a) (hx : P i x) :
    All P (l.set i x) := by
  intro j a ha
  by_cases hij : i = j
  · subst hij
    have hlt : i < l.length := by
      have := (List.getElem?_eq_some_iff.1 ha).1
      rwa [List.length_set] at this
    rw [List.getElem?_set_self hlt] at ha
    exact Option.some.inj ha ▸ hx
  · rw [List.getElem?_set_ne hij] at ha
    exact hothers j a ha fun hji => hij hji.symm

/-- A new party. -/
theorem All.append (h : All P l) (hx : P l.length x) : All P (l ++ [x]) := by
  intro j a ha
  rw [List.getElem?_append] at ha
  split at ha
  · exact h j a ha
  · next hge =>
      have hlt := (List.getElem?_eq_some_iff.1 ha).1
      rw [List.length_singleton] at hlt
      obtain rfl : j = l.length := by omega
      rw [Nat.sub_self] at ha
      exact Option.some.inj ha ▸ hx

end Slots

end Hekma
