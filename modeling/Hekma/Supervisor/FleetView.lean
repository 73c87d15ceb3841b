/-
**The Fleet view** (`engine.rs`, `domain/fleet.rs`).

The engine that owns an instance and an engine that only reads its store build the same Fleet row
with one function.  They differ in the current Run: the owner takes it from its handle, the reader
from the spawn record, if the row says that there is a process.

Main definitions:

* `UsageView`, `BudgetView`, `FleetEntry` — the row;
* `Supervisor.currentRunId`, `Supervisor.fleetEntryFor` — the Run it counts, and its construction;
* `Supervisor.HistoryStep` — operations, the end and the opening of the engine, and its death
  after any write of an operation;
* `Supervisor.Consistent` — what both views rest on.

Main results:

* `consistent_states` — every history whose steps are orderly keeps it;
* `runs_agree` — the owner and the reader then count the same Run.
-/

import Hekma.Supervisor.SpawnRun

set_option relaxedAutoImplicit false
set_option autoImplicit false

namespace Hekma

/-! ### The row -/

/-- The token totals of an instance or of a Run.  One row with an unknown cached subset makes the
cached total unknown. -/
structure UsageTotals where
  inputTokens : U64
  outputTokens : U64
  cachedTokens : Option U64
  deriving DecidableEq

namespace UsageTotals

/-- The totals of no rows. -/
def zero : UsageTotals := ⟨.saturate 0, .saturate 0, some (.saturate 0)⟩

/-- Input and output together. -/
def totalTokens (t : UsageTotals) : ℕ := (t.inputTokens.saturatingAdd t.outputTokens.val).val

end UsageTotals

/-- The totals a rollup reads as. -/
def RollupRow.totals (r : RollupRow) : UsageTotals where
  inputTokens := r.input
  outputTokens := r.output
  cachedTokens := if r.cachedUnknown.val = 0 then some r.cached else none

/-- Whether a dollar figure is derived or confirmed. -/
inductive EstimateLabel where
  | estimated
  | reconciled
  deriving DecidableEq, Repr

/-- The totals of a Fleet row. -/
structure UsageView where
  cumulativeInputTokens : U64
  cumulativeOutputTokens : U64
  currentRunInputTokens : U64
  currentRunOutputTokens : U64
  cumulativeDollars : Option Micros
  currentRunDollars : Option Micros
  estimateLabel : Option EstimateLabel
  cumulativeCachedTokens : Option U64
  currentRunCachedTokens : Option U64
  deriving DecidableEq

namespace UsageView

/-- The totals without a dollar figure. -/
def new (cumulative currentRun : UsageTotals) : UsageView where
  cumulativeInputTokens := cumulative.inputTokens
  cumulativeOutputTokens := cumulative.outputTokens
  currentRunInputTokens := currentRun.inputTokens
  currentRunOutputTokens := currentRun.outputTokens
  cumulativeDollars := none
  currentRunDollars := none
  estimateLabel := none
  cumulativeCachedTokens := cumulative.cachedTokens
  currentRunCachedTokens := currentRun.cachedTokens

/-- The totals with the derived cost. -/
def withDollars (v : UsageView) (cumulative currentRun : Micros) (label : EstimateLabel) :
    UsageView :=
  { v with
    cumulativeDollars := some cumulative
    currentRunDollars := some currentRun
    estimateLabel := some label }

end UsageView

/-- The ceilings of a Fleet row, with what is left of each. -/
structure BudgetView where
  perRunLimit : Option ℕ
  perRunRemaining : Option ℕ
  cumulativeLimit : Option ℕ
  cumulativeRemaining : Option ℕ
  perRunCostCap : Option Micros
  perRunDollarsRemaining : Option Micros
  cumulativeCostCap : Option Micros
  cumulativeDollarsRemaining : Option Micros
  estimateLabel : Option EstimateLabel
  breachAction : BreachAction
  deriving DecidableEq

/-- The ceilings against the totals.  A dollar ceiling without a rate is not shown, and a row
without a ceiling has no budget. -/
def BudgetView.fromBudgetAndCost (budget : TokenBudget) (costCap : CostCap) (action : BreachAction)
    (currentRunTotal cumulativeTotal : ℕ) (hasRate : Bool) (currentRunCost cumulativeCost : Micros)
    (label : EstimateLabel) : Option BudgetView :=
  let dollarActive := hasRate && costCap.isSet
  if !budget.isSet && !dollarActive then none
  else
    let whenActive : Option Micros → Option Micros := fun value =>
      if dollarActive then value else none
    some
      { perRunLimit := budget.perRun
        perRunRemaining := budget.perRun.map fun limit => limit - currentRunTotal
        cumulativeLimit := budget.cumulative
        cumulativeRemaining := budget.cumulative.map fun limit => limit - cumulativeTotal
        perRunCostCap := whenActive costCap.perRun
        perRunDollarsRemaining :=
          whenActive (costCap.perRun.map fun cap => cap.saturatingRemaining currentRunCost)
        cumulativeCostCap := whenActive costCap.cumulative
        cumulativeDollarsRemaining :=
          whenActive (costCap.cumulative.map fun cap => cap.saturatingRemaining cumulativeCost)
        estimateLabel := if dollarActive then some label else none
        breachAction := action }

/-- How a live process is supervised. -/
inductive Supervision where
  | detached
  | session
  deriving DecidableEq, Repr

/-- The Fleet row of an instance. -/
structure FleetEntry where
  name : InstanceName
  state : LifecycleState
  restartCount : ℕ
  restartPolicy : RestartPolicy
  budget : Option BudgetView
  usage : UsageView
  supervision : Option Supervision
  recordedState : Option LifecycleState
  deriving DecidableEq

/-- The policy of an instance without a record. -/
instance : Inhabited RestartPolicy := ⟨.onFailure⟩

/-- The process of the record is provably gone.  A probe that cannot tell proves nothing. -/
def recordProcessGone (probeAlive : SpawnRecord → Option Bool) (record : SpawnRecord) : Bool :=
  record.pid ≠ 0 && probeAlive record = some false

/-- The operation removes the instance. -/
def EngineOp.removes : EngineOp → Bool
  | .remove _ => true
  | _ => false

namespace Supervisor

/-- A read-only engine finds a live row whose process is gone. -/
def shownGone (s : Supervisor) (probeAlive : SpawnRecord → Option Bool) (readOnly : Bool)
    (state : LifecycleState) : Bool :=
  readOnly && (state = .running || state = .paused) &&
    s.disk.record.any (recordProcessGone probeAlive)

/-- The Run of the held handle. -/
def currentRunId (s : Supervisor) : Option RunId := s.running.map Supervised.runId

/-- The Run of the spawn record, for a read-only engine and a row that has a process. -/
def persistedRunId (s : Supervisor) (readOnly : Bool) (state : LifecycleState) : Option RunId :=
  if readOnly &&
      (state = .starting || state = .running || state = .paused || state = .stopping) then
    s.disk.record.bind fun _ => s.disk.spawnRun s.name
  else none

/-- The Run a Fleet row counts, over the state it shows. -/
def fleetRun (s : Supervisor) (readOnly : Bool) (state : LifecycleState) : Option RunId :=
  s.currentRunId.or (s.persistedRunId readOnly state)

/-- The totals and the ceilings, for a current Run. -/
def fleetUsage (s : Supervisor) (currentRun : Option RunId) : UsageView × Option BudgetView :=
  let ledger := s.disk.books.ledger
  let config := s.disk.config
  let cumulative := (ledger.instanceRollup s.name).totals
  let run := match currentRun with
    | some runId => (ledger.runRollup (s.name, runId)).totals
    | none => .zero
  let cumulativeCost := if config.rate.isSome then (ledger.instanceRollup s.name).cost else .zero
  let runCost :=
    if config.rate.isSome then
      match currentRun with
      | some runId => (ledger.runRollup (s.name, runId)).cost
      | none => .zero
    else .zero
  let base := UsageView.new cumulative run
  (if config.rate.isSome then base.withDollars cumulativeCost runCost .estimated else base,
    BudgetView.fromBudgetAndCost config.tokenBudget config.costCap config.tokenAction run.totalTokens
      cumulative.totalTokens config.rate.isSome runCost cumulativeCost .estimated)

/-- The Fleet row of the instance. -/
def fleetEntryFor (s : Supervisor) (probeAlive : SpawnRecord → Option Bool) (readOnly : Bool) :
    Option FleetEntry :=
  s.disk.state.map fun recorded =>
    let gone := s.shownGone probeAlive readOnly recorded
    let state := if gone then .failed else recorded
    let shown := s.fleetUsage (s.fleetRun readOnly state)
    { name := s.name
      state := state
      restartCount := (s.disk.record.map SpawnRecord.restartCount).getD 0
      restartPolicy := (s.disk.record.map SpawnRecord.restartPolicy).getD default
      budget := shown.2
      usage := shown.1
      supervision := (s.disk.record.filter fun r => !gone && r.pid ≠ 0).map fun r =>
        if r.detach then .detached else .session
      recordedState := if gone then some recorded else none }

/-! ### Histories of the owning engine -/

/-- What happens to the owning engine.  `closing` is how it ends, if it ends cleanly. -/
inductive HistoryStep where
  | operation (x : Step)
  | reopen (closing : Option Env) (opening : Env)
  | crash (x : Step) (write : ℕ) (opening : Env)

/-- The engine dies in a step, right after one of its writes.  A step without that many writes is
complete. -/
def diedIn (s : Supervisor) (x : Step) (write : ℕ) : Supervisor :=
  let trace := (s.step x).trace.take (s.trace.length + write + 1)
  { s.step x with
    disk := (trace.drop s.trace.length).getLast?.getD (s.step x).disk
    trace := trace }

/-- The state that is left when the engine has closed, or was killed between two operations. -/
def closedBy (s : Supervisor) : Option Env → Supervisor
  | some env => s.step (.close, env)
  | none => s

/-- The state after a step of a history. -/
def historyStep (s : Supervisor) : HistoryStep → Supervisor
  | .operation x => s.step x
  | .reopen closing opening => (s.closedBy closing).step (.openEngine, opening)
  | .crash x write opening => (s.diedIn x write).step (.openEngine, opening)

/-- A step as the environment can take it: a spawned process has an id, and the operations of
other instances leave the Run of this record alone. -/
structure Lawful (s : Supervisor) (x : Step) : Prop where
  pid : ∀ n, (x.2 n).pid ≠ 0
  others : ∀ books, x.1 = .others books →
    books.ledger.runs.spawnRunId s.name = s.disk.spawnRun s.name

/-- The engine that is opened owns the instance. -/
structure OpensOwned (s : Supervisor) (env : Env) : Prop extends s.OpensOrderly env where
  own : ∀ n, (env n).ownedElsewhere = false

/-- A step of a history in which no row is left behind. -/
def Owned (s : Supervisor) : HistoryStep → Prop
  | .operation x => s.Orderly x ∧ s.Lawful x
  | .reopen closing opening => (s.closedBy closing).OpensOwned opening
  | .crash x write opening =>
      x.1.removes = false ∧ s.Lawful x ∧ (s.diedIn x write).OpensOwned opening

/-- What both views rest on: a held handle has its row and the Run of its record, and a live row
without a handle has no process. -/
structure Consistent (s : Supervisor) : Prop where
  wf : s.control.Wf
  agrees : s.control.Agrees
  sound : s.Sound
  vacant : s.running = none → s.control.Live → s.disk.live = false

variable {s s' t : Supervisor} {env : Env}

/-! ### What an operation keeps -/

/-- A launch over a row without a process, and over any other row nothing at all. -/
theorem spent_or_launched (hpid : ∀ n, (env n).pid ≠ 0) (restart : Option ℕ) (detach : Bool) :
    Spent s (s.startInner env restart detach).2 ∨
      ¬ s.control.Live ∧ (s.Sound → s.control.Agrees → (s.startInner env restart detach).2.Sound) := by
  by_cases hlive : s.control.Live
  · left
    have hkept : (s.startInner env restart detach).2 = s := by
      unfold startInner
      rcases hlive with hrow | hrow | hrow | hrow <;>
        simp only [state_control] at hrow <;> simp [hrow, nextState]
    rw [hkept]
    exact .refl s
  · refine .inr ⟨hlive, fun hs hagrees => sound_startInner hs (fun prior hrow hnext => ?_) hpid _ _⟩
    have hheld : s.control.held = none := hagrees.free_of_start hrow hnext
    simpa [control] using hheld

theorem sound_register (h : s.Sound) (hagrees : s.control.Agrees) (config : Config) :
    (s.register env config).2.Sound := by
  unfold register
  cases hrow : s.disk.state with
  | some state => exact h
  | none =>
      have hrecord := h.1.1.rowless hrow
      have hspawn : s.disk.spawnRun s.name = none := by
        have hdead : s.disk.live = false := by simp [Disk.live, hrecord]
        rw [← Option.not_isSome_iff_eq_none, h.1.1.run, hdead]
        simp
      have hfree : s.running = none := by
        have hheld := hagrees.free (by simp [Control.Live, state_control, hrow])
        simpa [control] using hheld
      dsimp only
      rcases job_cases s env
        { state := some .registered
          events := []
          record := none
          generation := 0
          config := config
          books := s.disk.books.setRuns
            ((Runs.RunOp.register s.name).apply s.disk.books.ledger.runs (s.now env).time) } with
        heq | ⟨-, err, heq⟩
      · rw [heq]
        refine sound_of_free (Recorded.commit (s := s.tick) h.1 ⟨?_, fun _ => rfl⟩) hfree
        change (s.disk.spawnRun s.name).isSome ↔ _
        rw [hspawn]
        simp [Disk.live, commit]
      · rw [heq]
        exact sound_of_free (s := s.tick) h.1 hfree

/-- **An operation** brings no process back, or launches one over a row that had none. -/
theorem spent_or_starts {x : Step} (hops : x.1.supervises = true) (h : s.Lawful x) :
    Spent s (s.step x) ∨
      ¬ s.control.Live ∧ (s.Sound → s.control.Agrees → (s.step x).Sound) := by
  obtain ⟨op, env⟩ := x
  have hc := spent_conduct env
  have hclock : Spent s { s with clock := 0 } := ⟨rfl, id, fun _ => id, id⟩
  cases op with
  | register config =>
      -- a registration gives a row to an instance that had none
      by_cases hrow : s.disk.state = none
      · refine .inr ⟨?_, fun hs hagrees => ?_⟩
        · simp [Control.Live, state_control, hrow]
        · exact sound_register (s := { s with clock := 0 }) hs hagrees config
      · obtain ⟨state, hrow⟩ := Option.ne_none_iff_exists'.1 hrow
        left
        change Spent s (register { s with clock := 0 } env config).2
        unfold register
        simp only [hrow]
        exact hclock
  | remove force => exact absurd hops (by simp [EngineOp.supervises])
  | configure config =>
      exact .inl (hclock.trans (Spent.job (s := { s with clock := 0 }) env ⟨rfl, rfl, id⟩))
  | others books =>
      have hcarries : s.disk.Carries s.name { s.disk with books := books } :=
        ⟨rfl, h.others books rfl, id⟩
      refine .inl ⟨rfl, fun hr => ?_, fun _ hh y hy => hcarries.run.trans (hh y hy), id⟩
      exact Recorded.commit (s := { s with clock := 0 }) hr (hcarries.named hr.1)
  | start detach =>
      exact (spent_or_launched (s := { s with clock := 0 }) h.pid none detach).imp
        (hclock.trans ·) id
  | stop => exact .inl (hclock.trans (hc.stopInner stopDepth _ none none))
  | pause => exact .inl (hclock.trans (hc.suspendOrResume _ .pause none))
  | resume => exact .inl (hclock.trans (hc.suspendOrResume _ .resume none))
  | drain => exact .inl (hclock.trans (hc.drain _))
  | poll => exact .inl (hclock.trans (hc.pollOnce _))
  | fire i =>
      change Spent s (fire { s with clock := 0 } env i).2 ∨
        _ ∧ (_ → _ → (fire { s with clock := 0 } env i).2.Sound)
      unfold fire
      split
      · exact .inl hclock
      · rename_i plan _
        have hplan : Spent s { s with clock := 0, plans := s.plans.eraseIdx i } :=
          ⟨rfl, id, fun _ => id, id⟩
        exact (spent_or_launched (s := { s with clock := 0, plans := s.plans.eraseIdx i }) h.pid
          (some plan.attempt) s.detached).imp (fun hspent => hplan.trans hspent) id
  | close => exact absurd hops (by simp [EngineOp.supervises])
  | openEngine => exact absurd hops (by simp [EngineOp.supervises])

theorem Recorded.settle (h : s.Recorded) : (s.settleSpawnRecord env).2.Recorded := by
  unfold settleSpawnRecord
  rcases job_cases s env (s.settledDisk (s.now env).time) with heq | ⟨-, err, heq⟩
  · rw [heq]
    exact Recorded.commit (s := s.tick) h (named_settledDisk h.1 _)
  · rw [heq]
    exact h

/-- An engine that closes leaves the record to the next one. -/
theorem Recorded.close (h : s.Recorded) : (s.close env).Recorded := by
  have hmoved : ∀ (s : Supervisor) prior new cause, s.Recorded →
      (s.transition env prior new cause).2.Recorded :=
    fun s prior new cause => (Spent.transitionWith s env .terminal prior new cause).recorded
  change (s.releaseDetachedPaused env).Recorded
  unfold releaseDetachedPaused
  split
  · split
    · exact (hmoved s.tick _ _ _ h).settle
    · split
      · have htick := hmoved s.tick .paused .running .detachedResumed h
        generalize s.tick.transition env .paused .running .detachedResumed = r at htick ⊢
        obtain ⟨_ | err, s'⟩ := r
        · exact ((spent_conduct env).handle s' _ fun _ => ⟨rfl, rfl⟩).recorded htick
        · exact htick
      · exact h
  · exact h

/-! ### Histories -/

/-- An engine that is opened over recorded rows is consistent. -/
theorem consistent_open (h : s.Recorded) (hopen : s.OpensOwned env) :
    (s.step (.openEngine, env)).Consistent := by
  have hopen' : ({ s with clock := 0 } : Supervisor).OpensOrderly env :=
    ⟨hopen.committed, hopen.stops, hopen.found⟩
  exact
    { wf := wf_openEngine { s with clock := 0 } env
      agrees := agrees_openEngine hopen'
      sound := sound_openEngine (s := { s with clock := 0 }) h
      vacant := vacant_openEngine (s := { s with clock := 0 }) h hopen' hopen.own }

/-- **An orderly operation keeps the consistency.** -/
theorem Consistent.step (h : s.Consistent) {x : Step} (hx : s.Orderly x) (hl : s.Lawful x) :
    (s.step x).Consistent := by
  have htidy := tidy_step h.wf h.agrees hx
  have hmove := spent_or_starts hx.supervises hl
  refine ⟨h.wf.step (step_move h.wf x), htidy.agrees, ?_, fun hfree hlive => ?_⟩
  · rcases hmove with hspent | ⟨-, hsound⟩
    · exact hspent.sound h.sound
    · exact hsound h.sound h.agrees
  · -- a live row without a handle was one before, and the operation started nothing
    obtain ⟨hheld, hlive'⟩ := htidy.vacant (by simp [control, hfree]) hlive
    rcases hmove with hspent | ⟨hdead, -⟩
    · rw [← Bool.not_eq_true]
      intro hrecord
      have hbefore := h.vacant (by simpa [control] using hheld) hlive'
      rw [hspent.live hrecord] at hbefore
      exact absurd hbefore (by simp)
    · exact absurd hlive' hdead

/-- A step that removes nothing keeps the record and its Run. -/
theorem Consistent.recorded_step (h : s.Consistent) {x : Step} (hx : x.1.removes = false)
    (hl : s.Lawful x) : (s.step x).Recorded := by
  by_cases hops : x.1.supervises = true
  · rcases spent_or_starts hops hl with hspent | ⟨-, hsound⟩
    · exact hspent.recorded h.sound.1
    · exact (hsound h.sound h.agrees).1
  · obtain ⟨op, env⟩ := x
    cases op with
    | close => exact Recorded.close (s := { s with clock := 0 }) h.sound.1
    | openEngine => exact (sound_openEngine (s := { s with clock := 0 }) h.sound.1).1
    | remove force => exact absurd hx (by simp [EngineOp.removes])
    | _ => exact absurd rfl hops

/-- The rows a killed engine leaves are rows that were written. -/
theorem Recorded.diedIn {x : Step} (h : (s.step x).Recorded) (write : ℕ) :
    (s.diedIn x write).Recorded := by
  have htrace : ∀ d ∈ (s.step x).trace.take (s.trace.length + write + 1),
      d.Named (s.step x).name := fun d hd => h.2 d (List.mem_of_mem_take hd)
  refine ⟨?_, htrace⟩
  change Disk.Named (s.step x).name (Option.getD _ _)
  cases hlast : (((s.step x).trace.take (s.trace.length + write + 1)).drop
      s.trace.length).getLast? with
  | none =>
      rw [Option.getD_none]
      exact h.1
  | some d =>
      rw [Option.getD_some]
      exact htrace d (List.mem_of_mem_drop (List.mem_of_getLast? hlast))

theorem Consistent.closedBy (h : s.Consistent) (closing : Option Env) :
    (s.closedBy closing).Recorded := by
  cases closing with
  | none => exact h.sound.1
  | some env => exact Recorded.close (s := { s with clock := 0 }) h.sound.1

/-- **Every step of a history in which no row is left behind keeps the consistency.** -/
theorem consistent_historyStep (h : s.Consistent) {x : HistoryStep} (hx : s.Owned x) :
    (s.historyStep x).Consistent := by
  cases x with
  | operation x => exact h.step hx.1 hx.2
  | reopen closing opening => exact consistent_open (h.closedBy closing) hx
  | crash x write opening =>
      exact consistent_open (Recorded.diedIn (h.recorded_step hx.1 hx.2.1) write) hx.2.2

theorem consistent_fresh (name : InstanceName) : (fresh name).Consistent where
  wf := wf_fresh name
  agrees := Control.agrees_of_free rfl
  sound := by
    have hnamed : (fresh name).disk.Named name :=
      ⟨by simp [Disk.spawnRun, Disk.live, fresh, Books.empty, Ledger.empty, RunStore.empty],
        fun _ => rfl⟩
    exact sound_of_free ⟨hnamed, fun d hd => absurd hd (by simp [fresh])⟩ rfl
  vacant _ _ := rfl

theorem consistent_states {name : InstanceName} {history : List HistoryStep}
    (hguard : Guarded.Meets historyStep Owned (fresh name) history)
    (ht : t ∈ Guarded.states historyStep (fresh name) history) : t.Consistent :=
  Guarded.invariant (fun _ _ h hx => consistent_historyStep h hx) (consistent_fresh name) hguard ht

/-! ### Two views -/

/-- **The Run of the record is the Run of the handle**, in the states that are shown with one. -/
theorem runs_agree (h : s.Consistent) {state : LifecycleState} (hrow : s.disk.state = some state) :
    s.ended.fleetRun true state = s.fleetRun false state := by
  have hreader : s.ended.fleetRun true state = s.persistedRunId true state := rfl
  have howner : s.fleetRun false state = s.currentRunId := by
    simp [fleetRun, persistedRunId]
  have hlive : s.control.Live ↔ state = .starting ∨ state = .running ∨ state = .paused ∨
      state = .stopping := by simp [Control.Live, state_control, hrow]
  have hrecord : ∀ run, s.disk.spawnRun s.name = run →
      (s.disk.record.bind fun _ => s.disk.spawnRun s.name) = run := by
    rintro run rfl
    cases hrec : s.disk.record with
    | some r => rfl
    | none =>
        have hnone : s.disk.spawnRun s.name = none := by
          rw [← Option.not_isSome_iff_eq_none, h.sound.1.1.run]
          simp [Disk.live, hrec]
        exact hnone.symm
  rw [hreader, howner]
  unfold persistedRunId currentRunId
  cases hrun : s.running with
  | some x =>
      -- the row of a held handle is one of those the reader shows with a Run
      have hshown : state = .starting ∨ state = .running ∨ state = .paused ∨ state = .stopping := by
        refine hlive.1 (by_contra fun hdead => ?_)
        have hfree := h.agrees.free hdead
        simp [control, hrun] at hfree
      rw [Option.map_some, hrecord _ (h.sound.2 x hrun), if_pos (by simpa [or_assoc] using hshown)]
  | none =>
      rw [Option.map_none]
      split
      · rename_i hshown
        have hdead := h.vacant hrun (hlive.2 (by simpa [or_assoc] using hshown))
        refine hrecord none ?_
        rw [← Option.not_isSome_iff_eq_none, h.sound.1.1.run, hdead]
        simp
      · rfl

/-- **The reader's Fleet row is the owner's**, in every state of every history in which no row is
left behind, unless the recorded process is provably gone; and they count the same Run. -/
theorem fleetView_agrees (name : InstanceName) (history : List HistoryStep)
    (hguard : Guarded.Meets historyStep Owned (fresh name) history) (t : Supervisor)
    (ht : t ∈ Guarded.states historyStep (fresh name) history)
    (probeAlive : SpawnRecord → Option Bool)
    (hgone : ∀ r, t.disk.record = some r → recordProcessGone probeAlive r = false) :
    t.ended.fleetEntryFor probeAlive true = t.fleetEntryFor probeAlive false ∧
      ∀ state, t.disk.state = some state →
        t.ended.persistedRunId true state = t.currentRunId := by
  have hc := consistent_states hguard ht
  have hshown : ∀ state, t.ended.shownGone probeAlive true state = false := by
    intro state
    have hany : t.disk.record.any (recordProcessGone probeAlive) = false := by
      cases hrec : t.disk.record with
      | none => rfl
      | some r => exact hgone r hrec
    unfold shownGone
    rw [show t.ended.disk = t.disk from rfl, hany, Bool.and_false]
  refine ⟨?_, fun state hrow => ?_⟩
  · unfold fleetEntryFor
    rw [show t.ended.disk = t.disk from rfl]
    refine Option.map_congr fun state hrow => ?_
    have howner : t.shownGone probeAlive false state = false := by simp [shownGone]
    simp only [hshown, howner, Bool.false_eq_true, if_false, runs_agree hc hrow]
    rfl
  · have hrun := runs_agree hc hrow
    have howner : t.fleetRun false state = t.currentRunId := by simp [fleetRun, persistedRunId]
    rw [howner] at hrun
    exact hrun

/-- A detached launch, the death of the engine between the row and the signal of a pause, and the
exit of the process that the next engine has adopted. -/
def ownedHistory : List HistoryStep :=
  [.reopen none fun _ => { adopt := .gone },
    .operation (.register plainConfig, fun _ => {}),
    .operation (.start true, fun _ => {}),
    .crash (.pause, fun _ => {}) 0 fun _ => {},
    .operation (.resume, fun _ => {}),
    .operation (.poll, fun _ => { poll := .exited none })]

theorem fleetView_agrees_owned :
    (ownedHistory.foldl historyStep (fresh "a")).ended.fleetEntryFor (fun _ => none) true =
      (ownedHistory.foldl historyStep (fresh "a")).fleetEntryFor (fun _ => none) false := by
  have hrow : (((ownedHistory.take 3).foldl historyStep (fresh "a")).diedIn
      (.pause, fun _ => {}) 0).disk.state = some .paused := by decide +kernel
  have hpoll : (pollProcess { (ownedHistory.take 5).foldl historyStep (fresh "a") with clock := 0 }
      fun _ => { poll := .exited none }).expiryActs (fun _ => { poll := .exited none }) = false := by
    decide +kernel
  refine (fleetView_agrees "a" ownedHistory
    ⟨⟨⟨fun _ => rfl, fun _ => by simp, fun _ h => by simp at h⟩, fun _ => rfl⟩,
      ⟨⟨rfl, fun _ => rfl, fun _ => by simp, by simp⟩, fun _ => by simp, by simp⟩,
      ⟨⟨rfl, fun _ => rfl, fun _ => by simp, by simp⟩, fun _ => by simp, by simp⟩,
      ⟨rfl, ⟨fun _ => by simp, by simp⟩,
        ⟨⟨fun _ => rfl, fun _ => by simp, fun _ _ => .inr hrow⟩, fun _ => rfl⟩⟩,
      ⟨⟨rfl, fun _ => rfl, fun _ => by simp, by simp⟩, fun _ => by simp, by simp⟩,
      ⟨⟨rfl, fun _ => rfl, fun _ => by simp, fun _ => hpoll⟩, fun _ => by simp, by simp⟩, trivial⟩
    _ Guarded.last_mem_states (fun _ => none) fun r _ => by simp [recordProcessGone]).1

/-- A Run that uses 20 tokens, a stop that ends in an error of the backend, and polls that fail
until the engine gives the process up. -/
def givenUpRun : List Step :=
  let unreadable : Step := (.poll, fun _ => { poll := .errored })
  (.register plainConfig, fun _ => {}) :: (.start true, fun _ => {}) ::
    (.poll, fun _ => { appended := fun | .stdout => [some ⟨20, 0, 0, 1⟩] | .stderr => [] }) ::
    (.stop, fun _ => { stop := .failed }) :: List.replicate maxConsecutivePollErrors unreadable

/-- **A stopping row without a handle is read with a Run its owner does not have**: the process
lives, the reader counts its 20 tokens, and the owner counts none. -/
theorem fleetView_apart :
    (opened.runSteps givenUpRun).disk.state = some .stopping ∧
      (opened.runSteps givenUpRun).currentRunId = none ∧
      (opened.runSteps givenUpRun).ended.persistedRunId true .stopping = some 0 ∧
      ((opened.runSteps givenUpRun).fleetEntryFor (fun _ => some true) false).map
        (fun entry => entry.usage.currentRunInputTokens.val) = some 0 ∧
      ((opened.runSteps givenUpRun).ended.fleetEntryFor (fun _ => some true) true).map
        (fun entry => entry.usage.currentRunInputTokens.val) = some 20 := by
  decide +kernel

end Supervisor

end Hekma
