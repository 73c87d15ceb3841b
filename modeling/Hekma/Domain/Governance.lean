/-
**The pure governance decision** (`domain/governance.rs`).

`decide` compares the totals of each armed dimension with its ceilings, the token dimension
before the dollar one, and passes each verdict through the latch of the Run: a pair of a dimension
and a scope fires once.  The evaluator of a dimension reports at most one scope, the per-run one
when it trips, and the latch is asked afterwards.  So a latched per-run scope hides a cumulative
scope that trips beside it, which the documentation of the latch excludes; this module says
exactly when that happens.

Main definitions:

* `TokenArm`, `DollarArm`, `LatchKey`, `GovernanceInput`, `GovernanceOutcome` — the data;
* `normalizeLatched`, `fireUnlessLatched`, `evaluateArm`, `decide`, `decideChain` — the code;
* `GovernanceInput.trips` — a scope of an armed dimension is at or over its ceiling;
* `GovernanceInput.refeed` — the next evaluation, over the same totals and the new latch.

Main results:

* `mem_latchedAfter`, `decisions_iff` — what one evaluation latches and what it fires;
* `decisions_eq` — an evaluation fires at most one decision for a dimension;
* `scopeUnmasked_iff` — **masking**: when a tripping scope is hidden by the other one's latch.
-/

import Hekma.Domain.Cost

set_option relaxedAutoImplicit false
set_option autoImplicit false

namespace Hekma

namespace Governance

/-! ### The data of a decision -/

/-- Which resource a ceiling bounds. -/
inductive BreachDimension where
  | tokens
  | dollars
  deriving DecidableEq, Repr

/-- The token half of an input. -/
structure TokenArm where
  runTotal : ℕ
  cumulativeTotal : ℕ
  budget : TokenBudget
  action : BreachAction
  deriving DecidableEq

/-- The dollar half of an input. -/
structure DollarArm where
  runCost : Micros
  cumulativeCost : Micros
  cap : CostCap
  action : BreachAction
  deriving DecidableEq

/-- A pair that fires once in a Run. -/
structure LatchKey where
  dimension : BreachDimension
  scope : BreachScope
  deriving DecidableEq, Repr

/-- At most one arm for each dimension, and the pairs that have fired already. -/
structure GovernanceInput where
  token : Option TokenArm
  dollar : Option DollarArm
  latched : List LatchKey
  deriving DecidableEq

/-- One fired decision. -/
structure GovernanceDecision where
  dimension : BreachDimension
  scope : BreachScope
  action : BreachAction
  limit : ℕ
  observed : ℕ
  deriving DecidableEq, Repr

/-- The decisions in the order in which they fire, and the latch after them. -/
structure GovernanceOutcome where
  decisions : List GovernanceDecision
  latchedAfter : List LatchKey
  deriving DecidableEq, Repr

/-! ### The decision -/

/-- Drop repeated pairs, keeping the first of each. -/
def normalizeLatched (keys : List LatchKey) : List LatchKey :=
  keys.foldl (fun seen key => if key ∈ seen then seen else seen ++ [key]) []

/-- The latch filter: a latched pair is dropped, any other one fires and is latched. -/
def fireUnlessLatched (out : GovernanceOutcome) (dimension : BreachDimension)
    (scope : BreachScope) (action : BreachAction) (limit observed : ℕ) : GovernanceOutcome :=
  let key : LatchKey := ⟨dimension, scope⟩
  if key ∈ out.latchedAfter then out
  else
    { decisions := out.decisions ++ [⟨dimension, scope, action, limit, observed⟩]
      latchedAfter := out.latchedAfter ++ [key] }

/-- Pass the verdict of one dimension through the latch. -/
def applyVerdict (out : GovernanceOutcome) (dimension : BreachDimension) :
    BreachDecision → GovernanceOutcome
  | .withinBudget => out
  | .breached scope action limit observed =>
      fireUnlessLatched out dimension scope action limit observed

/-- The token dimension of a decision. -/
def decideToken (input : GovernanceInput) (out : GovernanceOutcome) : GovernanceOutcome :=
  match input.token with
  | none => out
  | some arm =>
      applyVerdict out .tokens
        (BudgetEvaluator.evaluate arm.runTotal arm.cumulativeTotal arm.budget arm.action)

/-- The dollar dimension of a decision. -/
def decideDollar (input : GovernanceInput) (out : GovernanceOutcome) : GovernanceOutcome :=
  match input.dollar with
  | none => out
  | some arm =>
      applyVerdict out .dollars
        (CostEvaluator.evaluate arm.runCost arm.cumulativeCost arm.cap arm.action)

/-- **The decision**: tokens first, then dollars, each through the latch. -/
def decide (input : GovernanceInput) : GovernanceOutcome :=
  decideDollar input (decideToken input ⟨[], normalizeLatched input.latched⟩)

/-- A decision for every level of an ancestor chain. -/
def decideChain (levels : List GovernanceInput) : List GovernanceOutcome := levels.map decide

/-! ### Tripping scopes -/

/-- The totals of the token arm against its ceilings. -/
def TokenArm.reading (arm : TokenArm) : ScopeReading ℕ :=
  ⟨arm.runTotal, arm.cumulativeTotal, arm.budget.perRun, arm.budget.cumulative⟩

/-- The totals of the dollar arm against its ceilings. -/
def DollarArm.reading (arm : DollarArm) : ScopeReading Micros :=
  ⟨arm.runCost, arm.cumulativeCost, arm.cap.perRun, arm.cap.cumulative⟩

/-- The scope belongs to an armed dimension, has a ceiling, and its total is at or over it. -/
def GovernanceInput.trips (input : GovernanceInput) (dimension : BreachDimension)
    (scope : BreachScope) : Bool :=
  match dimension with
  | .tokens => input.token.any fun arm => arm.reading.trips scope
  | .dollars => input.dollar.any fun arm => arm.reading.trips scope

/-- What the evaluator of a dimension says; an unarmed dimension is within budget. -/
def GovernanceInput.verdict (input : GovernanceInput) : BreachDimension → BreachDecision
  | .tokens =>
      input.token.elim .withinBudget fun arm =>
        BudgetEvaluator.evaluate arm.runTotal arm.cumulativeTotal arm.budget arm.action
  | .dollars =>
      input.dollar.elim .withinBudget fun arm =>
        CostEvaluator.evaluate arm.runCost arm.cumulativeCost arm.cap arm.action

theorem decideToken_eq (input : GovernanceInput) (out : GovernanceOutcome) :
    decideToken input out = applyVerdict out .tokens (input.verdict .tokens) := by
  unfold decideToken GovernanceInput.verdict
  cases input.token <;> rfl

theorem decideDollar_eq (input : GovernanceInput) (out : GovernanceOutcome) :
    decideDollar input out = applyVerdict out .dollars (input.verdict .dollars) := by
  unfold decideDollar GovernanceInput.verdict
  cases input.dollar <;> rfl

/-- The verdict of a dimension names its first tripping scope. -/
theorem verdict_scope (input : GovernanceInput) (d : BreachDimension) :
    (input.verdict d).scope? = Precedence.report (input.trips d) BreachScope.order := by
  obtain ⟨token, dollar, latched⟩ := input
  cases d with
  | tokens =>
      cases token with
      | none => rfl
      | some arm => exact evaluateScopes_eq_report id arm.reading arm.action
  | dollars =>
      cases dollar with
      | none => rfl
      | some arm => exact evaluateScopes_eq_report Micros.asDecisionU64 arm.reading arm.action

/-! ### The latch after a decision -/

theorem mem_normalize_foldl (keys seen : List LatchKey) (key : LatchKey) :
    key ∈ keys.foldl (fun seen key => if key ∈ seen then seen else seen ++ [key]) seen ↔
      key ∈ seen ∨ key ∈ keys := by
  induction keys generalizing seen with
  | nil => simp
  | cons k keys ih =>
      rw [List.foldl_cons, ih]
      by_cases hk : k ∈ seen
      · rw [if_pos hk, List.mem_cons]
        exact ⟨fun h => h.imp_right Or.inr,
          fun h => h.elim Or.inl fun h => h.elim (fun he => Or.inl (he ▸ hk)) Or.inr⟩
      · rw [if_neg hk, List.mem_append, List.mem_singleton, List.mem_cons, or_assoc]

@[simp] theorem mem_normalizeLatched (keys : List LatchKey) (key : LatchKey) :
    key ∈ normalizeLatched keys ↔ key ∈ keys := by
  simp [normalizeLatched, mem_normalize_foldl]

/-- A verdict latches the pair it names. -/
theorem mem_applyVerdict (out : GovernanceOutcome) (d : BreachDimension) (v : BreachDecision)
    (key : LatchKey) :
    key ∈ (applyVerdict out d v).latchedAfter ↔
      key ∈ out.latchedAfter ∨ key.dimension = d ∧ v.scope? = some key.scope := by
  obtain ⟨kd, ks⟩ := key
  cases v with
  | withinBudget => simp [applyVerdict, BreachDecision.scope?]
  | breached s a l o =>
      by_cases h : (⟨d, s⟩ : LatchKey) ∈ out.latchedAfter
      · simp only [applyVerdict, fireUnlessLatched, if_pos h, BreachDecision.scope?,
          Option.some.injEq]
        refine ⟨Or.inl, fun h' => h'.elim id ?_⟩
        rintro ⟨rfl, rfl⟩
        exact h
      · simp [applyVerdict, fireUnlessLatched, h, BreachDecision.scope?, LatchKey.mk.injEq,
          eq_comm]

/-- A verdict fires exactly when the pair it names is not latched. -/
theorem fired_applyVerdict (out : GovernanceOutcome) (d : BreachDimension) (v : BreachDecision)
    (key : LatchKey) :
    (∃ dec ∈ (applyVerdict out d v).decisions, dec.dimension = key.dimension ∧
        dec.scope = key.scope) ↔
      (∃ dec ∈ out.decisions, dec.dimension = key.dimension ∧ dec.scope = key.scope) ∨
        key.dimension = d ∧ v.scope? = some key.scope ∧ key ∉ out.latchedAfter := by
  obtain ⟨kd, ks⟩ := key
  cases v with
  | withinBudget => simp [applyVerdict, BreachDecision.scope?]
  | breached s a l o =>
      by_cases h : (⟨d, s⟩ : LatchKey) ∈ out.latchedAfter
      · simp only [applyVerdict, fireUnlessLatched, if_pos h, BreachDecision.scope?,
          Option.some.injEq]
        refine ⟨Or.inl, fun h' => h'.elim id ?_⟩
        rintro ⟨rfl, rfl, hn⟩
        exact absurd h hn
      · simp only [applyVerdict, fireUnlessLatched, if_neg h, BreachDecision.scope?,
          Option.some.injEq, List.mem_append, List.mem_singleton, or_and_right, exists_or,
          exists_eq_left]
        refine or_congr Iff.rfl ⟨?_, ?_⟩
        · rintro ⟨rfl, rfl⟩
          exact ⟨rfl, rfl, h⟩
        · rintro ⟨rfl, rfl, -⟩
          exact ⟨rfl, rfl⟩

theorem decide_eq (input : GovernanceInput) :
    decide input = applyVerdict (applyVerdict ⟨[], normalizeLatched input.latched⟩ .tokens
      (input.verdict .tokens)) .dollars (input.verdict .dollars) := by
  rw [decide, decideToken_eq, decideDollar_eq]

/-- One decision latches, for each dimension, the scope its verdict names. -/
theorem mem_latchedAfter (input : GovernanceInput) (key : LatchKey) :
    key ∈ (decide input).latchedAfter ↔
      key ∈ input.latched ∨ (input.verdict key.dimension).scope? = some key.scope := by
  rw [decide_eq, mem_applyVerdict, mem_applyVerdict, mem_normalizeLatched]
  obtain ⟨d, s⟩ := key
  cases d <;> simp

/-- One decision fires, for each dimension, the scope its verdict names unless it is latched. -/
theorem decisions_iff (input : GovernanceInput) (key : LatchKey) :
    (∃ dec ∈ (decide input).decisions, dec.dimension = key.dimension ∧ dec.scope = key.scope) ↔
      (input.verdict key.dimension).scope? = some key.scope ∧ key ∉ input.latched := by
  rw [decide_eq, fired_applyVerdict, fired_applyVerdict, mem_applyVerdict, mem_normalizeLatched]
  obtain ⟨d, s⟩ := key
  cases d <;> simp

/-- What one dimension fires: what its verdict names, unless it is latched. -/
def GovernanceInput.decisionOf (input : GovernanceInput) (d : BreachDimension) :
    Option GovernanceDecision :=
  match input.verdict d with
  | .withinBudget => none
  | .breached scope action limit observed =>
      if (⟨d, scope⟩ : LatchKey) ∈ input.latched then none
      else some ⟨d, scope, action, limit, observed⟩

/-- What a verdict appends to the decisions, if the latch of its dimension is that of the input. -/
theorem decisions_applyVerdict (input : GovernanceInput) (out : GovernanceOutcome)
    (d : BreachDimension)
    (hl : ∀ scope, (⟨d, scope⟩ : LatchKey) ∈ out.latchedAfter ↔ ⟨d, scope⟩ ∈ input.latched) :
    (applyVerdict out d (input.verdict d)).decisions =
      out.decisions ++ (input.decisionOf d).toList := by
  unfold GovernanceInput.decisionOf
  cases input.verdict d with
  | withinBudget => simp [applyVerdict]
  | breached scope action limit observed =>
      by_cases h : (⟨d, scope⟩ : LatchKey) ∈ input.latched
      · simp [applyVerdict, fireUnlessLatched, hl, h]
      · simp [applyVerdict, fireUnlessLatched, hl, h]

/-- An evaluation fires at most one decision for a dimension. -/
theorem decisions_eq (input : GovernanceInput) :
    (decide input).decisions =
      (input.decisionOf .tokens).toList ++ (input.decisionOf .dollars).toList := by
  rw [decide_eq, decisions_applyVerdict, decisions_applyVerdict, List.nil_append]
  · intro scope
    exact mem_normalizeLatched _ _
  · -- the token dimension latches no pair of the dollar one
    intro scope
    rw [mem_applyVerdict, mem_normalizeLatched]
    simp

theorem mem_decisions (input : GovernanceInput) (dec : GovernanceDecision) :
    dec ∈ (decide input).decisions ↔ ∃ d, input.decisionOf d = some dec := by
  rw [decisions_eq, List.mem_append, Option.mem_toList, Option.mem_toList]
  constructor
  · rintro (h | h)
    · exact ⟨_, h⟩
    · exact ⟨_, h⟩
  · rintro ⟨d, h⟩
    cases d with
    | tokens => exact .inl h
    | dollars => exact .inr h

theorem decisionOf_dimension {input : GovernanceInput} {d : BreachDimension}
    {dec : GovernanceDecision} (h : input.decisionOf d = some dec) : dec.dimension = d := by
  unfold GovernanceInput.decisionOf at h
  split at h
  · simp at h
  · split at h
    · simp at h
    · rw [← Option.some.inj h]

/-- The action a dimension is armed with. -/
def GovernanceInput.actionOf (input : GovernanceInput) : BreachDimension → Option BreachAction
  | .tokens => input.token.map TokenArm.action
  | .dollars => input.dollar.map DollarArm.action

theorem verdict_action {input : GovernanceInput} {d : BreachDimension} {scope : BreachScope}
    {action : BreachAction} {limit observed : ℕ}
    (h : input.verdict d = .breached scope action limit observed) :
    input.actionOf d = some action := by
  have hscopes : ∀ {α : Type} [LinearOrder α] (asU64 : α → ℕ) (r : ScopeReading α)
      (action' : BreachAction), evaluateScopes asU64 r action' =
        .breached scope action limit observed → action' = action := by
    intro α _ asU64 r action' h
    unfold evaluateScopes evaluateScopes.cumulativeOnly at h
    repeat' split at h
    all_goals first | exact (BreachDecision.breached.inj h).2.1 | simp at h
  cases d with
  | tokens =>
      unfold GovernanceInput.verdict at h
      cases ht : input.token with
      | none => simp [ht] at h
      | some arm =>
          rw [ht] at h
          rw [GovernanceInput.actionOf, ht, ← hscopes _ _ _ h]
          rfl
  | dollars =>
      unfold GovernanceInput.verdict at h
      cases ht : input.dollar with
      | none => simp [ht] at h
      | some arm =>
          rw [ht] at h
          rw [GovernanceInput.actionOf, ht, ← hscopes _ _ _ h]
          rfl

/-- What a decision says: its scope trips, it was not latched, and its action is the configured
one. -/
theorem decisionOf_spec {input : GovernanceInput} {d : BreachDimension} {dec : GovernanceDecision}
    (h : input.decisionOf d = some dec) :
    input.trips d dec.scope = true ∧ (⟨d, dec.scope⟩ : LatchKey) ∉ input.latched ∧
      input.actionOf d = some dec.action := by
  unfold GovernanceInput.decisionOf at h
  split at h
  · simp at h
  · rename_i scope action limit observed hv
    split at h
    · simp at h
    · rename_i hl
      obtain rfl := Option.some.inj h
      have hscope := verdict_scope input d
      rw [hv] at hscope
      exact ⟨Precedence.trips_of_report hscope.symm, hl, verdict_action hv⟩

/-! ### Feeding the latch back -/

/-- The next evaluation: the same totals, and the latch the last one left. -/
def GovernanceInput.refeed (input : GovernanceInput) : GovernanceInput :=
  { input with latched := (decide input).latchedAfter }

@[simp] theorem trips_refeed (input : GovernanceInput) : input.refeed.trips = input.trips := rfl

@[simp] theorem verdict_refeed (input : GovernanceInput) :
    input.refeed.verdict = input.verdict := rfl

/-- The latched scopes of one dimension. -/
def GovernanceInput.latchedScopes (input : GovernanceInput) (d : BreachDimension) :
    List BreachScope :=
  BreachScope.order.filter fun s => (⟨d, s⟩ : LatchKey) ∈ input.latched

@[simp] theorem mem_latchedScopes (input : GovernanceInput) (d : BreachDimension)
    (s : BreachScope) : s ∈ input.latchedScopes d ↔ (⟨d, s⟩ : LatchKey) ∈ input.latched := by
  simp [GovernanceInput.latchedScopes, BreachScope.mem_order]

/-- The latch after `n` further evaluations is the precedence latch of each dimension. -/
theorem mem_latched_refeed (input : GovernanceInput) (d : BreachDimension) (s : BreachScope)
    (n : ℕ) :
    (⟨d, s⟩ : LatchKey) ∈ (decide (GovernanceInput.refeed^[n] input)).latchedAfter ↔
      s ∈ Precedence.latchN (Precedence.report (input.trips d) BreachScope.order) (n + 1)
        (input.latchedScopes d) := by
  rw [Precedence.mem_latchN_succ, mem_latchedScopes]
  induction n generalizing input with
  | zero => rw [Function.iterate_zero_apply, mem_latchedAfter, verdict_scope]
  | succ n ih =>
      rw [Function.iterate_succ_apply, ih input.refeed, trips_refeed]
      simp only [GovernanceInput.refeed]
      rw [mem_latchedAfter, verdict_scope]
      tauto

/-! ### Masking -/

/-- An unlatched scope at or over its ceiling makes its dimension fire such a scope. -/
def ScopeUnmasked (input : GovernanceInput) : Prop :=
  ∀ d : BreachDimension, (∃ s, input.trips d s = true ∧ (⟨d, s⟩ : LatchKey) ∉ input.latched) →
    ∃ dec ∈ (decide input).decisions, dec.dimension = d ∧
      input.trips d dec.scope = true ∧ (⟨d, dec.scope⟩ : LatchKey) ∉ input.latched

/-- At most two further evaluations of the same totals leave every tripping scope latched. -/
def LatchesAll (input : GovernanceInput) : Prop :=
  ∃ n ≤ 2, ∀ d s, input.trips d s = true →
    (⟨d, s⟩ : LatchKey) ∈ (decide (GovernanceInput.refeed^[n] input)).latchedAfter

/-- Both scopes of the dimension trip and the cumulative one is not latched. -/
def GovernanceInput.bothTripOpen (input : GovernanceInput) (d : BreachDimension) : Prop :=
  input.trips d .perRun = true ∧ input.trips d .cumulative = true ∧
    (⟨d, .cumulative⟩ : LatchKey) ∉ input.latched

theorem report_perRun {trips : BreachScope → Bool} (h : trips .perRun = true) :
    Precedence.report trips BreachScope.order = some .perRun :=
  List.find?_cons_of_pos h

theorem report_cumulative {trips : BreachScope → Bool}
    (h : Precedence.report trips BreachScope.order = some .cumulative) :
    ¬ trips .perRun = true := by
  intro hp
  rw [report_perRun hp] at h
  exact absurd h (by simp)

/-- A report hides an unlatched tripping scope other than itself exactly when both scopes trip and
the cumulative one is unlatched. -/
theorem hides_iff (input : GovernanceInput) (d : BreachDimension) :
    (∃ k, Precedence.report (input.trips d) BreachScope.order = some k ∧
      ∃ k' ∈ BreachScope.order, k' ≠ k ∧ input.trips d k' = true ∧
        k' ∉ input.latchedScopes d) ↔ input.bothTripOpen d := by
  constructor
  · rintro ⟨k, hr, k', -, hne, ht, hl⟩
    rw [mem_latchedScopes] at hl
    cases k with
    | perRun =>
        cases k' with
        | perRun => exact absurd rfl hne
        | cumulative => exact ⟨Precedence.trips_of_report hr, ht, hl⟩
    | cumulative =>
        cases k' with
        | perRun => exact absurd ht (report_cumulative hr)
        | cumulative => exact absurd rfl hne
  · rintro ⟨hp, hc, hl⟩
    exact ⟨.perRun, report_perRun hp, .cumulative, BreachScope.mem_order _, by simp, hc,
      by rwa [mem_latchedScopes]⟩

/-- A dimension fires an unlatched tripping scope exactly when its first tripping scope is not
latched. -/
theorem fires_report (input : GovernanceInput) (d : BreachDimension) :
    (∃ dec ∈ (decide input).decisions, dec.dimension = d ∧
      input.trips d dec.scope = true ∧ (⟨d, dec.scope⟩ : LatchKey) ∉ input.latched) ↔
      ∃ k, Precedence.report (input.trips d) BreachScope.order = some k ∧
        k ∉ input.latchedScopes d := by
  simp only [mem_latchedScopes]
  constructor
  · rintro ⟨dec, hmem, rfl, -, -⟩
    have h := (decisions_iff input ⟨dec.dimension, dec.scope⟩).1 ⟨dec, hmem, rfl, rfl⟩
    exact ⟨dec.scope, verdict_scope input _ ▸ h.1, h.2⟩
  · rintro ⟨k, hr, hl⟩
    obtain ⟨dec, hmem, hd, hs⟩ :=
      (decisions_iff input ⟨d, k⟩).2 ⟨(verdict_scope input d).trans hr, hl⟩
    exact ⟨dec, hmem, hd, hs ▸ Precedence.trips_of_report hr, hs ▸ hl⟩

/-- One evaluation masks a scope of a dimension exactly when both scopes trip, the per-run one is
latched and the cumulative one is not. -/
theorem scopeUnmasked_dimension_iff (input : GovernanceInput) :
    ScopeUnmasked input ↔
      ∀ d, ¬ (input.bothTripOpen d ∧ (⟨d, .perRun⟩ : LatchKey) ∈ input.latched) := by
  refine forall_congr' fun d => ?_
  have hex : (∃ s, input.trips d s = true ∧ (⟨d, s⟩ : LatchKey) ∉ input.latched) ↔
      ∃ s ∈ BreachScope.order, input.trips d s = true ∧ s ∉ input.latchedScopes d := by
    simp [BreachScope.mem_order]
  rw [hex, fires_report, Precedence.fires_iff, not_iff_not]
  constructor
  · rintro ⟨k, hr, hk, k', hk', ht, hl⟩
    have hne : k' ≠ k := fun he => hl (he ▸ hk)
    have hboth := (hides_iff input d).1 ⟨k, hr, k', hk', hne, ht, hl⟩
    rw [report_perRun hboth.1, Option.some.injEq] at hr
    exact ⟨hboth, by simpa [← hr] using hk⟩
  · rintro ⟨⟨hp, hc, hl⟩, hlat⟩
    exact ⟨.perRun, report_perRun hp, by simpa using hlat, .cumulative, BreachScope.mem_order _,
      hc, by simpa using hl⟩

/-- Any number of evaluations leaves a tripping scope unlatched exactly when both scopes of a
dimension trip and the cumulative one is not latched from the start. -/
theorem latchesAll_iff (input : GovernanceInput) :
    LatchesAll input ↔ ∀ d, ¬ input.bothTripOpen d := by
  have hn : ∀ n, (∀ d s, input.trips d s = true → (⟨d, s⟩ : LatchKey) ∈
      (decide (GovernanceInput.refeed^[n] input)).latchedAfter) ↔
      ∀ d, ¬ input.bothTripOpen d := by
    intro n
    refine forall_congr' fun d => ?_
    rw [← hides_iff, ← Precedence.latchN_complete_iff n]
    simp only [mem_latched_refeed, BreachScope.mem_order, true_implies]
  constructor
  · rintro ⟨n, -, h⟩
    exact (hn n).1 h
  · exact fun h => ⟨0, by omega, (hn 0).2 h⟩

/-- **Masking.**  One evaluation hides no scope exactly when no dimension has both scopes
tripping with only the per-run one latched; and the latch also catches up with every tripping
scope exactly when no dimension has both scopes tripping with the cumulative one unlatched. -/
theorem scopeUnmasked_iff (input : GovernanceInput) :
    (ScopeUnmasked input ↔
      ∀ d, ¬ (input.bothTripOpen d ∧ (⟨d, .perRun⟩ : LatchKey) ∈ input.latched)) ∧
    (ScopeUnmasked input ∧ LatchesAll input ↔ ∀ d, ¬ input.bothTripOpen d) := by
  refine ⟨scopeUnmasked_dimension_iff input, fun h => (latchesAll_iff input).1 h.2, fun h => ?_⟩
  exact ⟨(scopeUnmasked_dimension_iff input).2 fun d hd => h d hd.1, (latchesAll_iff input).2 h⟩

/-- A Run past its own ceiling of 100, which fired before, on an instance that has now also
reached its lifetime ceiling of 1000. -/
def lifetimeReached : GovernanceInput where
  token := some ⟨150, 1000, ⟨some 100, some 1000⟩, .pause⟩
  dollar := none
  latched := [⟨.tokens, .perRun⟩]

/-- The lifetime ceiling never fires there: neither now nor at any later evaluation. -/
theorem lifetimeReached_masked :
    ¬ ScopeUnmasked lifetimeReached ∧ ¬ LatchesAll lifetimeReached := by
  have hboth : lifetimeReached.bothTripOpen .tokens := ⟨by decide, by decide, by decide⟩
  constructor
  · intro h
    exact (scopeUnmasked_dimension_iff _).1 h .tokens ⟨hboth, by decide⟩
  · intro h
    exact (latchesAll_iff _).1 h .tokens hboth

end Governance

end Hekma
