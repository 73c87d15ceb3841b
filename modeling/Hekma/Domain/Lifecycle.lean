/-
**The lifecycle states and the transition table** (`domain/lifecycle.rs`, `domain/transition.rs`).

Main definitions:

* `LifecycleState`, `LifecycleCommand` — the states of an instance and the operator's verbs;
* `nextState` — the gate: the target of an accepted verb, or a refusal.

Main results:

* `nextState_start`, `nextState_stop` — from which states a verb is accepted.
-/

import Mathlib.Tactic

set_option relaxedAutoImplicit false
set_option autoImplicit false

namespace Hekma

/-- The name of an Agent Instance. -/
abbrev InstanceName : Type := String

/-- The state of an instance's row. -/
inductive LifecycleState where
  | registered
  | starting
  | running
  | paused
  | stopping
  | stopped
  | failed
  deriving DecidableEq, Repr

/-- The operator's lifecycle verbs. -/
inductive LifecycleCommand where
  | start
  | stop
  | pause
  | resume
  deriving DecidableEq, Repr

/-- The state a verb leads to, or `none` for an invalid transition.  A start and a stop lead to
the transient states; what follows them is the supervisor's. -/
def nextState : LifecycleState → LifecycleCommand → Option LifecycleState
  | .registered, .start | .stopped, .start | .failed, .start => some .starting
  | .running, .stop | .paused, .stop => some .stopping
  | .running, .pause => some .paused
  | .paused, .resume => some .running
  | _, _ => none

/-- A start is accepted exactly from the states without a process. -/
theorem nextState_start (s : LifecycleState) :
    (nextState s .start).isSome ↔ s = .registered ∨ s = .stopped ∨ s = .failed := by
  cases s <;> simp [nextState]

/-- A stop is accepted exactly from running and paused. -/
theorem nextState_stop (s : LifecycleState) :
    (nextState s .stop).isSome ↔ s = .running ∨ s = .paused := by
  cases s <;> simp [nextState]

/-- A stop that is accepted leads to stopping. -/
theorem nextState_stop_eq {s new : LifecycleState} (h : nextState s .stop = some new) :
    (s = .running ∨ s = .paused) ∧ new = .stopping := by
  have hprior := (nextState_stop s).1 (by rw [h]; rfl)
  refine ⟨hprior, ?_⟩
  rcases hprior with rfl | rfl <;> simpa [nextState] using h.symm

end Hekma
