/-
**Replaying a stream of events.**

A subscriber keeps a view and applies the events of a stream to it, one after the other.  A stream
leads from one view to another if every event fits the view it is applied to and the last view is
the other one.

Main definitions:

* `Replay.Leads` — a stream that leads from one view to another.

Main results:

* `Replay.Leads.append` — streams follow one another;
* `Replay.Leads.foldl_eq`, `Replay.Leads.fits` — what a subscriber ends with, and that every event
  fits what the events before it have left.
-/

import Mathlib.Tactic

set_option relaxedAutoImplicit false
set_option autoImplicit false

namespace Hekma

namespace Replay

variable {V E : Type*} {apply : V → E → V} {Fits : V → E → Prop}

/-- The events lead from one view to another, and each fits the view it is applied to. -/
def Leads (apply : V → E → V) (Fits : V → E → Prop) : V → List E → V → Prop
  | v, [], v' => v = v'
  | v, e :: es, v' => Fits v e ∧ Leads apply Fits (apply v e) es v'

variable {v v' v'' : V} {es es' : List E}

theorem Leads.refl : Leads apply Fits v [] v := rfl

/-- One event. -/
theorem Leads.single {e : E} (hfits : Fits v e) (hv : apply v e = v') :
    Leads apply Fits v [e] v' := ⟨hfits, hv⟩

/-- Streams follow one another. -/
theorem Leads.append (h : Leads apply Fits v es v') (h' : Leads apply Fits v' es' v'') :
    Leads apply Fits v (es ++ es') v'' := by
  induction es generalizing v with
  | nil =>
      obtain rfl := h
      exact h'
  | cons e es ih => exact ⟨h.1, ih h.2⟩

/-- What a subscriber ends with. -/
theorem Leads.foldl_eq (h : Leads apply Fits v es v') : es.foldl apply v = v' := by
  induction es generalizing v with
  | nil => exact h
  | cons e es ih => exact ih h.2

/-- Every event fits what the events before it have left. -/
theorem Leads.fits (h : Leads apply Fits v es v') {earlier later : List E} {e : E}
    (hsplit : es = earlier ++ e :: later) : Fits (earlier.foldl apply v) e := by
  induction earlier generalizing v es with
  | nil =>
      subst hsplit
      exact h.1
  | cons first earlier ih =>
      subst hsplit
      exact ih h.2 rfl

end Replay

end Hekma
