/-
**Calls among other changes.**

A system answers calls, each of a type of its own, and between two calls its world may change for
other reasons.  A call that leaves every world as it is can be taken out of a history: the others
are answered as before, and the same world is left.

Main definitions:

* `Observe.Step`, `Observe.run` — a history, and what its calls are answered;
* `Observe.keeping` — a history without some of its calls;
* `Observe.outside` — the world after everything in a history that is no call.

Main results:

* `Observe.run_keeping` — **calls that leave the world alone leave the other answers alone**;
* `Observe.run_world` — if no call changes anything, only the outside does.
-/

import Mathlib.Tactic.Common

set_option relaxedAutoImplicit false
set_option autoImplicit false

namespace Observe

/-- A call, or a change that is no call. -/
inductive Step (W C : Type) where
  | call (c : C)
  | outside (f : W → W)

variable {W C : Type} {A : C → Type} (perform : (c : C) → W → A c × W)

/-- The calls of a history with their answers, and the world that is left. -/
def run : List (Step W C) → W → List ((c : C) × A c) × W
  | [], w => ([], w)
  | .call c :: steps, w =>
      (⟨c, (perform c w).1⟩ :: (run steps (perform c w).2).1, (run steps (perform c w).2).2)
  | .outside f :: steps, w => run steps (f w)

/-- The world after what is no call. -/
def outside : List (Step W C) → W → W
  | [], w => w
  | .call _ :: steps, w => outside steps w
  | .outside f :: steps, w => outside steps (f w)

/-- The history without the calls that are not kept. -/
def keeping (keep : C → Bool) : List (Step W C) → List (Step W C)
  | [] => []
  | .call c :: steps => if keep c then .call c :: keeping keep steps else keeping keep steps
  | .outside f :: steps => .outside f :: keeping keep steps

variable {perform}

/-- **Calls that leave the world alone leave the other answers alone.** -/
theorem run_keeping {keep : C → Bool} (h : ∀ c, keep c = false → ∀ w, (perform c w).2 = w)
    (steps : List (Step W C)) (w : W) :
    run perform (keeping keep steps) w =
      ((run perform steps w).1.filter fun x => keep x.1, (run perform steps w).2) := by
  induction steps generalizing w with
  | nil => rfl
  | cons step steps ih =>
      cases step with
      | outside f => exact ih (f w)
      | call c =>
          cases hc : keep c with
          | false =>
              simp only [keeping, hc, Bool.false_eq_true, if_false, run, h c hc w, ih w,
                List.filter_cons]
          | true =>
              simp only [keeping, hc, if_true, run, ih, List.filter_cons]

/-- If no call changes the world, only the outside does. -/
theorem run_world (h : ∀ c w, (perform c w).2 = w) (steps : List (Step W C)) (w : W) :
    (run perform steps w).2 = outside steps w := by
  induction steps generalizing w with
  | nil => rfl
  | cons step steps ih =>
      cases step with
      | outside f => exact ih (f w)
      | call c =>
          change (run perform steps (perform c w).2).2 = outside steps w
          rw [h c w, ih w]

end Observe
