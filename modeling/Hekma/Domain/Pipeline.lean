/-
**The accounting pipeline** (`domain/pipeline.rs`).

One store job commits a usage event, folds it into the rollups and evaluates the budgets on the
new totals, for every Run from the event's own up to the process-owning one.  Each level decides
on its own totals with its own latch; what fires is recorded, latched under its action and marked
on the Run of its level.  A replayed event evaluates nothing.

Main definitions:

* `Books` — the ledger with the breaches and the latches beside it;
* `EvalInput`, `Level`, `Evaluation` — what an evaluation reads and what it commits;
* `Books.evaluate`, `Books.commitUsage` — the code;
* `Books.fired`, `Books.Recorded` — what the levels decide, and that it was recorded.

Main results:

* `evaluate_spec` — an evaluation records what its levels decide, and nothing else;
* `commitUsage_spec` — a commit replays an event, or inserts it and evaluates.
-/

import Hekma.Domain.Governance
import Hekma.Store.Rollups

set_option relaxedAutoImplicit false
set_option autoImplicit false

namespace Hekma

open Governance

/-! ### The data of the pipeline -/

/-- A recorded breach. -/
structure BudgetBreachEvent where
  instanceName : InstanceName
  runId : RunId
  dimension : BreachDimension
  scope : BreachScope
  limit : ℕ
  observed : ℕ
  action : BreachAction
  meteringSource : String
  at_ : Timestamp
  deriving DecidableEq, Repr

/-- A latched pair of a Run, under the action that fired it. -/
structure Latch where
  runId : RunId
  key : LatchKey
  action : BreachAction
  deriving DecidableEq, Repr

/-- The ledger with its Run tables, the latches and the breaches, oldest first. -/
structure Books where
  ledger : Ledger
  latches : List Latch
  breaches : List BudgetBreachEvent

/-- What an evaluation needs, resolved by its caller. -/
structure EvalInput where
  name : InstanceName
  runId : RunId
  meteringSource : String
  tokenBudget : TokenBudget
  tokenAction : BreachAction
  rate : Option Rate
  costCap : CostCap
  costAction : BreachAction
  supervised : Bool
  fence : Bool

/-- One breach a job committed, with the decision that fired it. -/
structure CommittedBreach where
  event : BudgetBreachEvent
  decision : GovernanceDecision
  processLevel : Bool
  deriving DecidableEq, Repr

/-- What an evaluation committed, and the fence reasons it raises after the commit. -/
structure Evaluation where
  breaches : List CommittedBreach
  raised : List LatchKey
  deriving DecidableEq, Repr

/-- Nothing fired. -/
def Evaluation.empty : Evaluation := ⟨[], []⟩

/-- One level of the chain of a Run.  Only the open process-owning Run's breach acts on the
process. -/
structure Level where
  runId : RunId
  process : Bool
  acts : Bool
  limits : RunLimits
  childAction : BreachAction
  deriving DecidableEq

/-- A level takes part if it is the process level or has a ceiling of its own. -/
def Level.isArmed (level : Level) : Bool := level.process || level.limits.isArmed

/-- The action a dimension of the instance is configured with. -/
def EvalInput.configured (input : EvalInput) : BreachDimension → BreachAction
  | .tokens => input.tokenAction
  | .dollars => input.costAction

/-- The action a dimension has at a level. -/
def EvalInput.actionAt (input : EvalInput) (level : Level) (d : BreachDimension) : BreachAction :=
  if level.process then input.configured d else level.childAction

namespace Books

/-- The books before anything was committed. -/
def empty : Books := ⟨Ledger.empty, [], []⟩

/-- The books with other Run tables. -/
def setRuns (b : Books) (runs : RunStore) : Books := { b with ledger := { b.ledger with runs := runs } }

@[simp] theorem setRuns_usage (b : Books) (runs : RunStore) :
    (b.setRuns runs).ledger.usage = b.ledger.usage := rfl

@[simp] theorem setRuns_runs (b : Books) (runs : RunStore) : (b.setRuns runs).ledger.runs = runs :=
  rfl

@[simp] theorem setRuns_latches (b : Books) (runs : RunStore) :
    (b.setRuns runs).latches = b.latches := rfl

@[simp] theorem setRuns_breaches (b : Books) (runs : RunStore) :
    (b.setRuns runs).breaches = b.breaches := rfl

/-- Latch a pair under an action, unless it is latched under it already. -/
def latch (b : Books) (runId : RunId) (key : LatchKey) (action : BreachAction) : Books :=
  if ⟨runId, key, action⟩ ∈ b.latches then b
  else { b with latches := b.latches ++ [⟨runId, key, action⟩] }

/-- The recorded breaches of a Run, oldest first. -/
def runBreaches (b : Books) (name : InstanceName) (runId : RunId) : List BudgetBreachEvent :=
  b.breaches.filter fun e => e.instanceName = name && e.runId = runId

/-! ### Evaluation -/

/-- The level of a Run below the process-owning one.  An action that cannot be executed on the
Run by itself is a warning. -/
def childLevel (s : RunStore) (record : RunRecord) : Level :=
  let limits := s.runLimits record.runId
  { runId := record.runId
    process := false
    acts := false
    limits := limits
    childAction :=
      if (actionRefusal limits.action record.controlDepth record.wirePath).isSome then .warn
      else limits.action }

/-- The level of a process-owning Run. -/
def processLevel (runId : RunId) (acts : Bool) : Level := ⟨runId, true, acts, RunLimits.empty, .warn⟩

/-- The levels of a chain, up to the first process-owning Run. -/
def levelsOf (s : RunStore) : List RunRecord → List Level
  | [] => []
  | record :: chain =>
      if record.processOwner then [processLevel record.runId (!record.isEnded)]
      else childLevel s record :: levelsOf s chain

/-- The levels of the attributed Run.  An unknown Run id gets a row and is one process level. -/
def levelsFor (b : Books) (input : EvalInput) (at_ : Timestamp) : List Level × Books :=
  match b.ledger.runs.runChain input.runId with
  | [] =>
      ([processLevel input.runId true],
        b.setRuns (b.ledger.runs.ensureRunRow input.runId input.name at_))
  | record :: chain => (levelsOf b.ledger.runs (record :: chain), b)

/-- The total tokens of a rollup. -/
def totalTokens (r : RollupRow) : ℕ := (r.input.saturatingAdd r.output.val).val

/-- The pairs of a Run that are latched under the given actions. -/
def latchedUnder (b : Books) (runId : RunId) (action : BreachDimension → BreachAction) :
    List LatchKey :=
  (b.latches.filter fun l => l.runId = runId && l.action = action l.key.dimension).map Latch.key

/-- What the decision of a level reads.  A Run below the process-owning one has no lifetime
ceiling, and a dollar ceiling without a rate is not armed. -/
def levelInput (b : Books) (input : EvalInput) (level : Level) : GovernanceInput :=
  let budget : TokenBudget :=
    if level.process then input.tokenBudget else ⟨level.limits.tokenPerRun, none⟩
  let cap : CostCap :=
    if level.process then input.costCap else ⟨level.limits.dollarPerRunMicros, none⟩
  let run := b.ledger.runRollup (input.name, level.runId)
  let cumulative := if level.process then b.ledger.instanceRollup input.name else RollupRow.zero
  { token :=
      if budget.isSet then
        some ⟨totalTokens run, totalTokens cumulative, budget, input.actionAt level .tokens⟩
      else none
    dollar :=
      if input.rate.isSome && cap.isSet then
        some ⟨run.cost, cumulative.cost, cap, input.actionAt level .dollars⟩
      else none
    latched := b.latchedUnder level.runId (input.actionAt level) }

/-- The recorded event of a decision. -/
def breachEvent (input : EvalInput) (runId : RunId) (at_ : Timestamp) (d : GovernanceDecision) :
    BudgetBreachEvent where
  instanceName := input.name
  runId := runId
  dimension := d.dimension
  scope := d.scope
  limit := d.limit
  observed := d.observed
  action := d.action
  meteringSource := input.meteringSource
  at_ := at_

/-- Commit one decision: the breach, the latch, and the fence reason of an acting block. -/
def commitDecision (input : EvalInput) (level : Level) (at_ : Timestamp)
    (acc : Evaluation × Books) (d : GovernanceDecision) : Evaluation × Books :=
  let event := breachEvent input level.runId at_ d
  let key : LatchKey := ⟨d.dimension, d.scope⟩
  let books := { acc.2 with breaches := acc.2.breaches ++ [event] }
  let raised := if level.acts && d.action = .block && input.fence then [key] else []
  (⟨acc.1.breaches ++ [⟨event, d, level.acts⟩], acc.1.raised ++ raised⟩,
    books.latch level.runId key d.action)

/-- Commit the decisions of one level and mark its Run. -/
def commitLevel (input : EvalInput) (at_ : Timestamp) (acc : Evaluation × Books)
    (level : Level × GovernanceOutcome) : Except StoreError (Evaluation × Books) :=
  let acc := level.2.decisions.foldl (commitDecision input level.1 at_) acc
  if acc.1.breaches.any fun breach => breach.event.runId = level.1.runId then
    (Runs.markBreach acc.2.ledger.runs level.1.runId at_).map fun job =>
      (acc.1, acc.2.setRuns job.1)
  else .ok acc

/-- Evaluate the ceilings of the attributed Run and of its ancestors.  Nothing is evaluated
without a supervised process.  Every level is read before any of them is committed. -/
def evaluate (b : Books) (input : EvalInput) (at_ : Timestamp) :
    Except StoreError (Evaluation × Books) :=
  if !input.supervised then .ok (.empty, b)
  else
    let levels := (levelsFor b input at_).1.filter Level.isArmed
    let b := (levelsFor b input at_).2
    let outcomes := decideChain (levels.map (levelInput b input))
    (levels.zip outcomes).foldlM (commitLevel input at_) (.empty, b)

/-- Commit a usage event and evaluate on the totals it makes.  A replay evaluates nothing. -/
def commitUsage (b : Books) (event : UsageEvent) (generation : ℕ) (input : EvalInput)
    (at_ : Timestamp) : Except StoreError (RecordOutcome × Evaluation × Books) :=
  match b.ledger.insertUsage event input.rate generation with
  | .error err => .error err
  | .ok (.duplicateReplay, _) => .ok (.duplicateReplay, .empty, b)
  | .ok (.inserted, ledger) =>
      (evaluate { b with ledger := ledger } input at_).map fun r => (.inserted, r)

/-! ### What a job writes -/

section Records

variable {b b' : Books} {input : EvalInput} {at_ : Timestamp}

/-- What the levels decide, each for itself and on the same books. -/
def fired (b : Books) (input : EvalInput) (levels : List Level) :
    List (Level × GovernanceDecision) :=
  levels.flatMap fun level => (decide (levelInput b input level)).decisions.map fun d => (level, d)

/-- The record of a decision of a level. -/
def committed (input : EvalInput) (at_ : Timestamp) (x : Level × GovernanceDecision) :
    CommittedBreach :=
  ⟨breachEvent input x.1.runId at_ x.2, x.2, x.1.acts⟩

/-- The latch of a decision of a level. -/
def latchAt (x : Level × GovernanceDecision) : Latch :=
  ⟨x.1.runId, ⟨x.2.dimension, x.2.scope⟩, x.2.action⟩

/-- The fence reason a decision of a level raises. -/
def raisedBy (input : EvalInput) (x : Level × GovernanceDecision) : List LatchKey :=
  if x.1.acts && x.2.action = .block && input.fence then [⟨x.2.dimension, x.2.scope⟩] else []

/-- The decisions `xs` were recorded: a breach row and a latch for each, and the fence reasons.
Besides, anomalies of Runs may have been marked. -/
structure Recorded (input : EvalInput) (at_ : Timestamp) (acc : Evaluation × Books)
    (xs : List (Level × GovernanceDecision)) (acc' : Evaluation × Books) : Prop where
  breaches : acc'.1.breaches = acc.1.breaches ++ xs.map (committed input at_)
  raised : acc'.1.raised = acc.1.raised ++ xs.flatMap (raisedBy input)
  rows : acc'.2.breaches =
    acc.2.breaches ++ xs.map fun x => breachEvent input x.1.runId at_ x.2
  latches : (acc.2.latches ++ xs.map latchAt).Nodup →
    acc'.2.latches = acc.2.latches ++ xs.map latchAt
  ledger : ∃ runs, acc'.2.ledger = { acc.2.ledger with runs := runs } ∧
    Runs.Restatus (fun _ => none) acc.2.ledger.runs runs

theorem Recorded.refl (acc : Evaluation × Books) : Recorded input at_ acc [] acc where
  breaches := (List.append_nil _).symm
  raised := (List.append_nil _).symm
  rows := (List.append_nil _).symm
  latches := fun _ => (List.append_nil _).symm
  ledger := ⟨_, rfl, .refl fun _ _ _ => rfl⟩

theorem Recorded.trans {acc acc' acc'' : Evaluation × Books}
    {xs ys : List (Level × GovernanceDecision)} (h : Recorded input at_ acc xs acc')
    (h' : Recorded input at_ acc' ys acc'') : Recorded input at_ acc (xs ++ ys) acc'' where
  breaches := by rw [h'.breaches, h.breaches, List.map_append, List.append_assoc]
  raised := by rw [h'.raised, h.raised, List.flatMap_append, List.append_assoc]
  rows := by rw [h'.rows, h.rows, List.map_append, List.append_assoc]
  latches := by
    rw [List.map_append, ← List.append_assoc]
    intro hn
    have hfirst := h.latches hn.of_append_left
    rw [h'.latches (by rwa [hfirst]), hfirst]
  ledger := by
    obtain ⟨runs, hl, hr⟩ := h.ledger
    obtain ⟨runs', hl', hr'⟩ := h'.ledger
    refine ⟨runs', by rw [hl', hl], hr.trans (ρ := fun _ => none) ?_ fun _ _ _ => rfl⟩
    rwa [hl] at hr'

theorem commitDecision_recorded (acc : Evaluation × Books) (level : Level)
    (d : GovernanceDecision) :
    Recorded input at_ acc [(level, d)] (commitDecision input level at_ acc d) where
  breaches := rfl
  raised := by
    rw [List.flatMap_singleton]
    rfl
  rows := by
    unfold commitDecision latch
    dsimp only
    split <;> rfl
  latches := by
    intro hn
    have hnew : (⟨level.runId, ⟨d.dimension, d.scope⟩, d.action⟩ : Latch) ∉ acc.2.latches := by
      intro hmem
      exact List.disjoint_of_nodup_append hn hmem List.mem_cons_self
    unfold commitDecision latch
    dsimp only
    rw [if_neg hnew]
    rfl
  ledger := by
    refine ⟨acc.2.ledger.runs, ?_, .refl fun _ _ _ => rfl⟩
    unfold commitDecision latch
    dsimp only
    split <;> rfl

theorem commitDecisions_recorded (level : Level) (ds : List GovernanceDecision)
    (acc : Evaluation × Books) :
    Recorded input at_ acc (ds.map fun d => (level, d))
      (ds.foldl (commitDecision input level at_) acc) := by
  induction ds generalizing acc with
  | nil => exact .refl acc
  | cons d ds ih => exact (commitDecision_recorded acc level d).trans (ih _)

theorem commitLevel_recorded {acc acc' : Evaluation × Books} {level : Level}
    {outcome : GovernanceOutcome} (h : commitLevel input at_ acc (level, outcome) = .ok acc') :
    Recorded input at_ acc (outcome.decisions.map fun d => (level, d)) acc' := by
  have hds : Recorded input at_ acc _ _ := commitDecisions_recorded level outcome.decisions acc
  unfold commitLevel at h
  dsimp only at h
  split at h
  · cases hjob : Runs.markBreach
      (outcome.decisions.foldl (commitDecision input level at_) acc).2.ledger.runs level.runId
      at_ with
    | error err =>
        rw [hjob] at h
        simp [Except.map] at h
    | ok job =>
        rw [hjob] at h
        obtain rfl := Except.ok.inj h
        obtain ⟨runs, hl, hr⟩ := hds.ledger
        have hmark := Runs.markBreach_restatus hjob
        refine ⟨hds.breaches, hds.raised, hds.rows, hds.latches, job.1, ?_, ?_⟩
        · exact congrArg (fun l : Ledger => { l with runs := job.1 }) hl
        · rw [hl] at hmark
          exact hr.trans hmark fun _ _ _ => rfl
  · obtain rfl := Except.ok.inj h
    exact hds

theorem commitLevels_recorded (books : Books) (levels : List Level) {acc acc' : Evaluation × Books}
    (h : (levels.zip (decideChain (levels.map (levelInput books input)))).foldlM
      (commitLevel input at_) acc = .ok acc') :
    Recorded input at_ acc (fired books input levels) acc' := by
  induction levels generalizing acc with
  | nil =>
      obtain rfl := Except.ok.inj h
      exact .refl acc
  | cons level levels ih =>
      rw [List.map_cons, decideChain, List.map_cons, List.zip_cons_cons, List.foldlM_cons] at h
      cases hlevel : commitLevel input at_ acc (level, decide (levelInput books input level)) with
      | error err =>
          rw [hlevel] at h
          simp [bind, Except.bind] at h
      | ok mid =>
          rw [hlevel] at h
          exact (commitLevel_recorded hlevel).trans (ih h)

/-- **What an evaluation writes.**  Nothing without a supervised process; else the decisions of the
armed levels, each taken on the books before any of them. -/
theorem evaluate_spec {ev : Evaluation} (h : evaluate b input at_ = .ok (ev, b')) :
    (input.supervised = false ∧ ev = .empty ∧ b' = b) ∨
    (input.supervised = true ∧
      Recorded input at_ (.empty, (levelsFor b input at_).2)
        (fired (levelsFor b input at_).2 input ((levelsFor b input at_).1.filter Level.isArmed))
        (ev, b')) := by
  unfold evaluate at h
  split at h
  · rename_i hs
    obtain ⟨rfl, rfl⟩ := Prod.mk.inj (Except.ok.inj h)
    exact .inl ⟨by simpa using hs, rfl, rfl⟩
  · rename_i hs
    exact .inr ⟨by simpa using hs, commitLevels_recorded _ _ h⟩

/-- **What a commit writes.**  A replay writes nothing; else the event is in the ledger and the
budgets are evaluated on it. -/
theorem commitUsage_spec {event : UsageEvent} {generation : ℕ} {outcome : RecordOutcome}
    {ev : Evaluation}
    (h : commitUsage b event generation input at_ = .ok (outcome, ev, b')) :
    (outcome = .duplicateReplay ∧ ev = .empty ∧ b' = b) ∨
    (outcome = .inserted ∧ ∃ ledger,
      b.ledger.insertUsage event input.rate generation = .ok (.inserted, ledger) ∧
      evaluate { b with ledger := ledger } input at_ = .ok (ev, b')) := by
  unfold commitUsage at h
  split at h
  · simp at h
  · obtain ⟨rfl, hrest⟩ := Prod.mk.inj (Except.ok.inj h)
    obtain ⟨rfl, rfl⟩ := Prod.mk.inj hrest
    exact .inl ⟨rfl, rfl, rfl⟩
  · rename_i ledger hins
    cases hev : evaluate { b with ledger := ledger } input at_ with
    | error err =>
        rw [hev] at h
        simp [Except.map] at h
    | ok r =>
        rw [hev] at h
        obtain ⟨rfl, rfl⟩ := Prod.mk.inj (Except.ok.inj h)
        exact .inr ⟨rfl, ledger, hins, hev⟩

end Records

end Books

end Hekma
