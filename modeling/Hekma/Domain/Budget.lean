/-
**Token budgets and the budget evaluator** (`domain/budget.rs`).

A token budget bounds two totals: the one of the current Run and the one of the instance's whole
life.  The evaluator compares both with their ceilings, the Run first, and reports the first one
that is reached.  The dollar evaluator of `domain/cost.rs` has the same shape over another order,
so the comparison is written once, over an arbitrary linear order, and both evaluators are it.

Main definitions:

* `BreachAction`, `BreachScope`, `BreachDecision` — what a breach is and does;
* `evaluateScopes` — the two-scope comparison, per-run first;
* `TokenBudget`, `BudgetEvaluator.evaluate` — the token evaluator.

Main results:

* `ScopeReading.trips` and `evaluateScopes_eq_report` — the evaluator reports the first tripping
  scope in the order per-run, cumulative.
-/

import Mathlib.Tactic
import Hekma.Lib.Precedence

set_option relaxedAutoImplicit false
set_option autoImplicit false

namespace Hekma

/-- What the supervisor does on a breach. -/
inductive BreachAction where
  | pause
  | stop
  | warn
  | block
  deriving DecidableEq, Repr

namespace BreachAction

/-- The configured default. -/
instance : Inhabited BreachAction := ⟨pause⟩

/-- The wire label. -/
def asStr : BreachAction → String
  | pause => "pause"
  | stop => "stop"
  | warn => "warn"
  | block => "block"

/-- Parsing a configured action: the exact label, or the rejected value. -/
def fromStr (s : String) : Except String BreachAction :=
  if s = "pause" then .ok pause
  else if s = "stop" then .ok stop
  else if s = "warn" then .ok warn
  else if s = "block" then .ok block
  else .error s

/-- What is written for an action is read back as that action. -/
theorem fromStr_asStr (a : BreachAction) : fromStr a.asStr = .ok a := by
  cases a <;> rfl

end BreachAction

/-- Which ceiling tripped. -/
inductive BreachScope where
  | perRun
  | cumulative
  deriving DecidableEq, Repr

/-- The evaluator's verdict: nothing reached, or the scope that was, with its ceiling and the
total that reached it. -/
inductive BreachDecision where
  | withinBudget
  | breached (scope : BreachScope) (action : BreachAction) (limit observed : ℕ)
  deriving DecidableEq, Repr

/-- The order in which the scopes are compared. -/
def BreachScope.order : List BreachScope := [.perRun, .cumulative]

theorem BreachScope.mem_order (s : BreachScope) : s ∈ BreachScope.order := by
  cases s <;> simp [BreachScope.order]

/-! ### The two-scope comparison -/

section Scopes

variable {α : Type} [LinearOrder α]

/-- The totals of one dimension against its optional ceilings. -/
structure ScopeReading (α : Type) where
  runTotal : α
  cumulativeTotal : α
  perRun : Option α
  cumulative : Option α

/-- The total a scope is compared with. -/
def ScopeReading.observed (r : ScopeReading α) : BreachScope → α
  | .perRun => r.runTotal
  | .cumulative => r.cumulativeTotal

/-- The ceiling of a scope, if one is configured. -/
def ScopeReading.limit (r : ScopeReading α) : BreachScope → Option α
  | .perRun => r.perRun
  | .cumulative => r.cumulative

/-- A scope trips when it has a ceiling and its total is at or over it. -/
def ScopeReading.trips (r : ScopeReading α) (s : BreachScope) : Bool :=
  match r.limit s with
  | none => false
  | some limit => decide (limit ≤ r.observed s)

/-- Compare the per-run scope first, then the cumulative one.  `asU64` writes a total into the
unit-free fields of the verdict. -/
def evaluateScopes (asU64 : α → ℕ) (r : ScopeReading α) (action : BreachAction) :
    BreachDecision :=
  match r.perRun with
  | some limit =>
      if limit ≤ r.runTotal then .breached .perRun action (asU64 limit) (asU64 r.runTotal)
      else cumulativeOnly r
  | none => cumulativeOnly r
where
  cumulativeOnly (r : ScopeReading α) : BreachDecision :=
    match r.cumulative with
    | some limit =>
        if limit ≤ r.cumulativeTotal then
          .breached .cumulative action (asU64 limit) (asU64 r.cumulativeTotal)
        else .withinBudget
    | none => .withinBudget

/-- The scope of a verdict. -/
def BreachDecision.scope? : BreachDecision → Option BreachScope
  | .withinBudget => none
  | .breached s _ _ _ => some s

/-- The evaluator reports **the first tripping scope**, per-run before cumulative. -/
theorem evaluateScopes_eq_report (asU64 : α → ℕ) (r : ScopeReading α) (action : BreachAction) :
    (evaluateScopes asU64 r action).scope? = Precedence.report r.trips BreachScope.order := by
  obtain ⟨rt, ct, pr, cu⟩ := r
  have hcum : (evaluateScopes.cumulativeOnly asU64 action ⟨rt, ct, pr, cu⟩).scope? =
      Precedence.report (ScopeReading.mk rt ct pr cu).trips [.cumulative] := by
    cases cu with
    | none => rfl
    | some limit =>
        by_cases h : limit ≤ ct <;>
          simp [evaluateScopes.cumulativeOnly, BreachDecision.scope?, Precedence.report,
            ScopeReading.trips, ScopeReading.limit, ScopeReading.observed, h]
  cases pr with
  | none => exact hcum
  | some limit =>
      by_cases h : limit ≤ rt
      · simp [evaluateScopes, BreachDecision.scope?, Precedence.report, BreachScope.order,
          ScopeReading.trips, ScopeReading.limit, ScopeReading.observed, h]
      · have htrips : ¬ (ScopeReading.mk rt ct (some limit) cu).trips .perRun = true :=
          fun ht => h (of_decide_eq_true ht)
        simp only [evaluateScopes, if_neg h, hcum, Precedence.report, BreachScope.order]
        exact (List.find?_cons_of_neg htrips).symm

end Scopes

/-! ### Token budgets -/

/-- Two optional ceilings on token totals. -/
structure TokenBudget where
  perRun : Option ℕ
  cumulative : Option ℕ
  deriving DecidableEq, Repr

/-- Whether a ceiling is configured at all. -/
def TokenBudget.isSet (b : TokenBudget) : Bool := b.perRun.isSome || b.cumulative.isSome

/-- The token evaluator. -/
def BudgetEvaluator.evaluate (runTotal cumulativeTotal : ℕ) (budget : TokenBudget)
    (action : BreachAction) : BreachDecision :=
  evaluateScopes id ⟨runTotal, cumulativeTotal, budget.perRun, budget.cumulative⟩ action

end Hekma
