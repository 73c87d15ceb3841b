/-
**Guarded runs.**

A run is a list of inputs that a step function consumes from a state.  What a step keeps under a
guard, a run keeps whose steps all meet the guard.

Main definitions:

* `Guarded.states` — the states a run passes through;
* `Guarded.Meets` — every step of a run meets a guard.

Main results:

* `Guarded.invariant` — an invariant of guarded steps holds in every state of a guarded run;
* `Guarded.Meets.imp` — a run that meets a guard meets what the guard implies;
* `Guarded.last_mem_states` — the last state of a run is one of its states.
-/

import Mathlib.Tactic

set_option relaxedAutoImplicit false
set_option autoImplicit false

namespace Hekma

namespace Guarded

variable {σ α : Type} (step : σ → α → σ)

/-- The states of a run, the first one included. -/
def states : σ → List α → List σ
  | s, [] => [s]
  | s, a :: as => s :: states (step s a) as

/-- Every step of the run meets the guard, in the state it is taken in. -/
def Meets (guard : σ → α → Prop) : σ → List α → Prop
  | _, [] => True
  | s, a :: as => guard s a ∧ Meets guard (step s a) as

variable {step} {guard : σ → α → Prop} {P : σ → Prop} {s t : σ} {as : List α}

/-- Whether a run is guarded can be computed. -/
instance decidableMeets [∀ s a, Decidable (guard s a)] :
    (s : σ) → (as : List α) → Decidable (Meets step guard s as)
  | _, [] => .isTrue trivial
  | s, a :: as =>
      have : Decidable (Meets step guard (step s a) as) := decidableMeets (step s a) as
      inferInstanceAs (Decidable (_ ∧ _))

/-- What guarded steps keep holds in every state of a guarded run. -/
theorem invariant (hstep : ∀ s a, P s → guard s a → P (step s a)) (h : P s)
    (hmeets : Meets step guard s as) (ht : t ∈ states step s as) : P t := by
  induction as generalizing s with
  | nil =>
      obtain rfl : t = s := by simpa [states] using ht
      exact h
  | cons a as ih =>
      rcases List.mem_cons.1 ht with rfl | ht
      · exact h
      · exact ih (hstep s a h hmeets.1) hmeets.2 ht

/-- Without a guard every run is guarded. -/
theorem meets_true (as : List α) : Meets step (fun _ _ => True) s as := by
  induction as generalizing s with
  | nil => trivial
  | cons a as ih => exact ⟨trivial, ih⟩

/-- Steps that meet one guard meet another, under what they keep. -/
theorem Meets.imp {guard' : σ → α → Prop} (hstep : ∀ s a, P s → guard s a → P (step s a))
    (himp : ∀ s a, P s → guard s a → guard' s a) (h : P s) (hmeets : Meets step guard s as) :
    Meets step guard' s as := by
  induction as generalizing s with
  | nil => trivial
  | cons a as ih => exact ⟨himp s a h hmeets.1, ih (hstep s a h hmeets.1) hmeets.2⟩

/-- The last state of a run. -/
theorem last_mem_states : as.foldl step s ∈ states step s as := by
  induction as generalizing s with
  | nil => simp [states]
  | cons a as ih => exact List.mem_cons_of_mem _ ih

end Guarded

end Hekma
