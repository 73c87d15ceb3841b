/-
**The store behind an exit** (`domain/supervisor/reaper.rs`, `domain/supervisor/commit.rs`).

The handling of an exit reads the row and the spawn record, writes the record and the count of the
failures, and records one transition whose projection on the Run has a savepoint of its own.  Any of
these can fail alone.  The handle is dropped before the transition is asked for, and whether it
commits decides the rest: it commits and the exit is recorded, or it does not and the row is left as
it was, for the reconcile of a later open.

Main definitions:

* `ReadAnswer`, `ExitAnswers` — what an exit is answered besides its writes;
* `concludeWith`, `pollExitWith` — the handling of an exit under these answers;
* `exitPlan` — the relaunch that is decided;
* `ExitRecorded`, `ExitLeft`, `ExitHandled` — what becomes of an exit.

Main results:

* `concludeWith_clear` — with every read answered it is the exit of a supervision pass;
* `stored_conduct` — the operations keep the tables of the Runs well formed;
* `concludeWith_handled`, `exit_handled` — what becomes of an exit, whatever its store answers.
-/

import Hekma.Domain.Runs.Stream
import Hekma.Supervisor.ExitClass

set_option relaxedAutoImplicit false
set_option autoImplicit false

namespace Hekma

open Governance

/-! ### The answers -/

/-- How a store read ends. -/
inductive ReadAnswer where
  | answered
  | busy
  | refused
  deriving DecidableEq, Repr

/-- What a read finds that takes its failure for an absent row. -/
def ReadAnswer.found {α : Type} (answer : ReadAnswer) (row : Option α) : Option α :=
  match answer with
  | .answered => row
  | .busy | .refused => none

theorem ReadAnswer.found_cases {α : Type} (answer : ReadAnswer) (row : Option α) :
    answer.found row = row ∨ answer.found row = none := by
  cases answer with
  | answered => exact .inl rfl
  | busy => exact .inr rfl
  | refused => exact .inr rfl

/-- What an exit is answered besides its writes: to the lookup of the row, to the read of the spawn
record, and what goes wrong in the savepoint of its projection. -/
structure ExitAnswers where
  lookup : ReadAnswer
  record : ReadAnswer
  projection : Option Runs.ProjectionFault
  deriving DecidableEq, Repr

/-- Every read is answered, and nothing goes wrong. -/
def ExitAnswers.clear : ExitAnswers := ⟨.answered, .answered, none⟩

namespace Supervisor

/-! ### The exit under its answers -/

/-- Plan the relaunch of a failed process by the record that was read. -/
def planRestartBy (s : Supervisor) (env : Env) (record : Option SpawnRecord) (stableRun : Bool) :
    Option ℕ × Supervisor :=
  let policy := record.elim .onFailure SpawnRecord.restartPolicy
  let current := record.elim 0 SpawnRecord.restartCount
  let next := nextConsecutiveFailures current stableRun
  if policy = .never then (none, s.settleTerminalRecord env policy)
  else if isCrashLoop next then (none, s.settleTerminalRecord env policy)
  else (some next, (s.setRestartCount env next).2)

/-- Plan the relaunch an exit code asks for by the record that was read. -/
def planRequestedRestartBy (s : Supervisor) (env : Env) (record : Option SpawnRecord) :
    Option ℕ × Supervisor :=
  let policy := record.elim .onFailure SpawnRecord.restartPolicy
  if policy = .never then (none, s.settleTerminalRecord env policy)
  else (some (record.elim 0 SpawnRecord.restartCount), s)

/-- The plan and the cause of a failure by the record that was read. -/
def planFailureBy (s : Supervisor) (env : Env) (record : Option SpawnRecord) (stableRun : Bool)
    (classified : Option (ExitClass × ℕ)) : TransitionCause × Option ℕ × Supervisor :=
  match classified with
  | some (.restartRequested, code) =>
      (.restartRequested code, s.planRequestedRestartBy env record)
  | _ => (.crashed, s.planRestartBy env record stableRun)

/-- Record a transition whose projection may fail in its savepoint. -/
def transitionProjected (s : Supervisor) (env : Env) (fault : Option Runs.ProjectionFault)
    (fate : Runs.RunFate) (prior new : LifecycleState) (cause : TransitionCause) : Outcome :=
  match s.disk.state with
  | none => (some .notFound, s)
  | some _ =>
      andThen
        (s.job env { s.disk with
          state := some new
          events := s.disk.events ++ [⟨prior, new, cause⟩]
          books := s.disk.books.setRuns
            (Runs.projectInSavepoint s.disk.books.ledger.runs s.name new fate cause.text
              (s.now env).time fault).1 })
        fun s => (none, { s with episode := s.episode + 1 })

/-- The process of a stop that could not be confirmed has ended after all. -/
def finishUnconfirmedStopWith (s : Supervisor) (env : Env) (answers : ExitAnswers) : Supervisor :=
  match s.dropHandle.settleSpawnRecord env with
  | (none, s) =>
      (s.transitionProjected env answers.projection .terminal .stopping .stopped .stopForced).2
  | (some _, s) => s

/-- A running instance has ended as it declared. -/
def finishCleanExitWith (s : Supervisor) (env : Env) (answers : ExitAnswers) (code : ℕ) :
    Supervisor :=
  let s := (s.dropHandle.settleSpawnRecord env).2
  let s := (s.ensureLogDir env).2
  (s.transitionProjected env answers.projection .terminal .running .stopped (.cleanExit code)).2

/-- The process has failed. -/
def finishCrashWith (s : Supervisor) (env : Env) (answers : ExitAnswers) (state : LifecycleState)
    (classified : Option (ExitClass × ℕ)) : Supervisor :=
  let record := answers.record.found s.disk.record
  let r := s.dropHandle.planFailureBy env record (state = .running && (s.now env).stableRun)
    classified
  let s := (r.2.2.ensureLogDir env).2
  match s.transitionProjected env answers.projection (fateOf r.2.1) state .failed r.1 with
  -- the record is left for a later reconcile
  | (some _, s) => s
  | (none, s) => s.pushPlan r.2.1

/-- What an exit does once its last drains are done. -/
def concludeWith (d : Supervisor) (env : Env) (answers : ExitAnswers) (crash : CrashInput) :
    Supervisor :=
  match answers.lookup.found d.disk.state with
  | none => d.dropHandle
  | some state =>
      if state = .running ∨ state = .paused then
        match classifyExit (d.running.elim [] Supervised.exitCodes) crash state with
        | some (.clean, code) => d.finishCleanExitWith env answers code
        | classified => d.finishCrashWith env answers state classified
      else if state = .stopping ∧ d.running.any Supervised.stopUnconfirmed then
        d.finishUnconfirmedStopWith env answers
      else d.dropHandle

/-- The exit of a held process: its last drains, and what it does after them. -/
def pollExitWith (s : Supervisor) (env : Env) (answers : ExitAnswers) (crash : CrashInput) :
    Supervisor :=
  (s.lastDrained env).concludeWith env answers crash

/-! ### With every read answered -/

variable {s : Supervisor} {env : Env}

theorem transitionProjected_clear (fate : Runs.RunFate) (prior new : LifecycleState)
    (cause : TransitionCause) :
    s.transitionProjected env none fate prior new cause =
      s.transitionWith env fate prior new cause := by
  have hbooks : s.disk.books.setRuns
      (Runs.projectInSavepoint s.disk.books.ledger.runs s.name new fate cause.text
        (s.now env).time none).1 = s.projected (s.now env).time new fate cause := by
    change _ = s.disk.books.setRuns (Runs.commitJob s.disk.books.ledger.runs
      (Runs.projectTransition s.disk.books.ledger.runs s.name new fate cause.text
        (s.now env).time))
    unfold Runs.projectInSavepoint
    cases Runs.projectTransition s.disk.books.ledger.runs s.name new fate cause.text
      (s.now env).time <;> rfl
  unfold transitionProjected transitionWith
  cases s.disk.state with
  | none => rfl
  | some state =>
      dsimp only
      rw [hbooks]

/-- **With every read answered** an exit is the one of a supervision pass. -/
theorem concludeWith_clear (d : Supervisor) (env : Env) (crash : CrashInput) :
    d.concludeWith env .clear crash = d.conclude env crash := by
  have hstop : d.finishUnconfirmedStopWith env .clear = d.finishUnconfirmedStop env := by
    unfold finishUnconfirmedStopWith finishUnconfirmedStop transition
    rcases d.dropHandle.settleSpawnRecord env with ⟨_ | err, e⟩
    · exact congrArg Prod.snd (transitionProjected_clear _ _ _ _)
    · rfl
  have hclean : ∀ code, d.finishCleanExitWith env .clear code = d.finishCleanExit env code := by
    intro code
    unfold finishCleanExitWith finishCleanExit transition
    simp only [ExitAnswers.clear, transitionProjected_clear]
  have hcrash : ∀ state classified,
      d.finishCrashWith env .clear state classified = d.finishCrash env state classified := by
    intro state classified
    unfold finishCrashWith finishCrash
    simp only [ExitAnswers.clear, transitionProjected_clear]
    rfl
  unfold concludeWith conclude
  simp only [hstop, hclean, hcrash]
  rfl

theorem pollExitWith_clear {h : Supervised} {code : Option ℕ} (hheld : s.running = some h)
    (hpoll : (s.now env).poll = .exited code) :
    s.pollExitWith env .clear (.exited code) = s.pollExits env := by
  rw [pollExits_exited hheld hpoll]
  exact concludeWith_clear _ env _

/-! ### The relaunch that is decided -/

/-- The declared class of an exit from a row. -/
def exitClass (d : Supervisor) (crash : CrashInput) (state : LifecycleState) :
    Option (ExitClass × ℕ) :=
  classifyExit (d.running.elim [] Supervised.exitCodes) crash state

/-- The exit is the clean end a running instance has declared. -/
def exitsClean (d : Supervisor) (crash : CrashInput) : Bool :=
  d.disk.state.any fun state => (d.exitClass crash state).any (·.1 = .clean)

/-- The relaunch an exit is given, by the record that was read. -/
def exitPlan (d : Supervisor) (env : Env) (record : Option SpawnRecord) (crash : CrashInput) :
    Option ℕ :=
  match d.disk.state with
  | none => none
  | some state =>
      match d.exitClass crash state with
      | some (.clean, _) => none
      | some (.restartRequested, _) =>
          if record.elim .onFailure SpawnRecord.restartPolicy = .never then none
          else some (failureCount record)
      | none => failurePlan record (state = .running && (d.now env).stableRun)

/-! ### What becomes of an exit -/

/-- The open Run of the instance is ended unless a relaunch is planned, and then it keeps its
status. -/
def RunFated (d : Supervisor) (plan : Option ℕ) (out : Supervisor) : Prop :=
  ∀ run, d.disk.books.ledger.runs.openProcessRun d.name = some run →
    ∃ q, out.disk.books.ledger.runs.runRecord run.runId = some q ∧
      q.status = if plan.isSome then run.status else .ended

/-- The rows of the Runs are as they were. -/
def RunRowsKept (d out : Supervisor) : Prop :=
  out.disk.books.ledger.runs.runs = d.disk.books.ledger.runs.runs

/-- The tables of the Runs refuse the projection of a transition. -/
def ProjectionRefused (d : Supervisor) (event : TransitionEvent) (plan : Option ℕ) : Prop :=
  ∃ runs at_ err, runs.runs = d.disk.books.ledger.runs.runs ∧
    Runs.projectTransition runs d.name event.newState (fateOf plan) event.cause.text at_ =
      .error err

/-- The exit is recorded: its row is terminal, its plan is returned, and the Run is ended just when
there is none, unless the savepoint of the projection was rolled back. -/
structure ExitRecorded (d : Supervisor) (answers : ExitAnswers) (crash : CrashInput)
    (plan : Option ℕ) (out : Supervisor) : Prop where
  row : out.disk.state = some (if d.exitsClean crash then .stopped else .failed)
  plans : out.plans.map RestartPlan.attempt = d.plans.map RestartPlan.attempt ++ plan.toList
  run : ∃ event, out.disk.events = d.disk.events ++ [event] ∧
    out.disk.state = some event.newState ∧
    (d.RunFated plan out ∨
      (answers.projection.isSome ∨ d.ProjectionRefused event plan) ∧ d.RunRowsKept out)

/-- The exit is not recorded: the row and the Runs are as they were and nothing is planned.  If a
relaunch had been decided the record still names its process, for the reconcile of a later open. -/
structure ExitLeft (d : Supervisor) (plan : Option ℕ) (out : Supervisor) : Prop where
  row : out.disk.state = d.disk.state
  history : out.disk.events = d.disk.events
  plans : out.plans = d.plans
  run : d.RunRowsKept out
  process : plan.isSome →
    out.disk.record.map SpawnRecord.pid = d.disk.record.map SpawnRecord.pid

/-- What becomes of an exit that was polled in `s`, by the row its last drains leave in `d`. -/
structure ExitHandled (env : Env) (answers : ExitAnswers) (crash : CrashInput)
    (s d out : Supervisor) : Prop where
  released : out.running = none
  charged : failureCount out.disk.record ≤ failureCount s.disk.record + 1
  drained : d.plans = s.plans
  settled : d.control.Active → ∃ moment, d.clock ≤ moment ∧
    if env.commits moment then
      ExitRecorded d answers crash (d.exitPlan env (answers.record.found d.disk.record) crash) out
    else ExitLeft d (d.exitPlan env (answers.record.found d.disk.record) crash) out
  passed : ¬ d.control.Active → ¬ out.control.Active ∧ out.plans = d.plans

end Supervisor

/-! ### The Run of an exit -/

namespace Runs

variable {s : RunStore} {run : RunRecord} {name : InstanceName}

/-- A projection moves the open Run of its instance to the status it asks for. -/
theorem projectTransition_fate (hst : Stored s) (hrun : s.openProcessRun name = some run)
    {newState : LifecycleState} {fate : RunFate} {cause : String} {at_ : Timestamp}
    {status : RunStatus} {anomalies : List Anomaly} {endCause : Option String}
    (hmove : projectedMove run newState fate cause = some (status, anomalies, endCause))
    {job : Job} (h : projectTransition s name newState fate cause at_ = .ok job) :
    ∃ q, job.1.runRecord run.runId = some q ∧ q.status = status := by
  have hrow := row_of_openProcessRun hst hrun
  unfold projectTransition at h
  rw [hrun] at h
  dsimp only at h
  rw [hmove] at h
  rcases moveOwner_stirs hst hrow (owner_of_openProcessRun hrun).1 h with
    ⟨rfl, hsame⟩ | ⟨q, hq, -, hstatus, -⟩
  · exact ⟨run, hrow, hsame⟩
  · exact ⟨q, hq, hstatus⟩

/-- A projection in its savepoint moves the open Run, or it fails and leaves the tables. -/
theorem projectInSavepoint_fate (hst : Stored s) (name : InstanceName) (newState : LifecycleState) (fate : RunFate)
    (cause : String) (at_ : Timestamp) (fault : Option ProjectionFault) :
    (∀ run status anomalies endCause, s.openProcessRun name = some run →
      projectedMove run newState fate cause = some (status, anomalies, endCause) →
      ∃ q, (projectInSavepoint s name newState fate cause at_ fault).1.runRecord run.runId =
        some q ∧ q.status = status) ∨
    ((fault.isSome ∨ ∃ err, projectTransition s name newState fate cause at_ = .error err) ∧
      (projectInSavepoint s name newState fate cause at_ fault).1 = s) := by
  unfold projectInSavepoint
  cases hjob : projectTransition s name newState fate cause at_ with
  | error err => exact .inr ⟨.inr ⟨err, rfl⟩, rfl⟩
  | ok job =>
      cases fault with
      | none =>
          refine .inl ?_
          intro run status anomalies endCause hrun hmove
          exact projectTransition_fate hst hrun hmove hjob
      | some fault => cases fault <;> exact .inr ⟨.inl rfl, rfl⟩

end Runs

/-! ### What keeps the tables of the Runs -/

namespace Books

variable {b b' : Books} {input : EvalInput} {at_ : Timestamp} {evaluation : Evaluation}

theorem stored_evaluate (h : b.evaluate input at_ = .ok (evaluation, b'))
    (hst : Runs.Stored b.ledger.runs) : Runs.Stored b'.ledger.runs := by
  obtain ⟨placeholder, ids, job, hjob, hruns⟩ := RunRegistry.evaluate_usage h
  rw [hruns]
  exact (Runs.markBreaches_noted hjob).stored
    ((RunRegistry.withPlaceholder_shows _ at_ placeholder).stored hst)

theorem Charged.stored (h : b.Charged b') (hst : Runs.Stored b.ledger.runs) :
    Runs.Stored b'.ledger.runs := by
  cases h with
  | usage event generation input at_ evaluation _ h =>
      rcases commitUsage_spec h with ⟨-, -, rfl⟩ | ⟨-, ledger, hins, hev⟩
      · exact hst
      · refine stored_evaluate hev ?_
        change Runs.Stored ledger.runs
        rw [Ledger.insertUsage_runs hins]
        exact hst
  | evaluated input at_ evaluation _ h => exact stored_evaluate h hst

end Books

namespace Supervisor

variable {s s' : Supervisor} {env : Env}

/-- An operation keeps the tables of the Runs well formed. -/
def KeepsStored (s s' : Supervisor) : Prop :=
  Runs.Stored s.disk.books.ledger.runs → Runs.Stored s'.disk.books.ledger.runs

theorem keepsStored_job (env : Env) {disk : Disk}
    (h : Runs.Stored s.disk.books.ledger.runs → Runs.Stored disk.books.ledger.runs) :
    KeepsStored s (s.job env disk).2 := by
  rcases job_cases s env disk with heq | ⟨-, err, heq⟩
  · rw [heq]
    exact h
  · rw [heq]
    exact id

theorem keepsStored_transitionWith (s : Supervisor) (env : Env) (fate : Runs.RunFate)
    (prior new : LifecycleState) (cause : TransitionCause) :
    KeepsStored s (s.transitionWith env fate prior new cause).2 := by
  unfold transitionWith
  split
  · exact id
  · have hprojected : Runs.Stored s.disk.books.ledger.runs →
        Runs.Stored (s.projected (s.now env).time new fate cause).ledger.runs :=
      (Runs.apply_shows (.transition s.name new fate cause.text) _ _).stored
    have hjob : KeepsStored s (s.job env { s.disk with
        state := some new
        events := s.disk.events ++ [⟨prior, new, cause⟩]
        books := s.projected (s.now env).time new fate cause }).2 :=
      keepsStored_job env hprojected
    generalize s.job env _ = r at hjob ⊢
    obtain ⟨_ | err, s'⟩ := r <;> exact hjob

theorem keepsStored_settleSpawnRecord (s : Supervisor) (env : Env) :
    KeepsStored s (s.settleSpawnRecord env).2 := by
  refine keepsStored_job env fun hst => ?_
  unfold settledDisk
  split
  · exact hst
  · exact ⟨hst.keys, hst.sets⟩

theorem keepsStored_reacquire (s : Supervisor) (env : Env) : KeepsStored s (s.reacquire env) := by
  unfold reacquire
  split
  · split <;> exact id
  · exact id

/-- **The operations keep the tables of the Runs.** -/
theorem stored_conduct (env : Env) : Conduct env KeepsStored where
  refl _ := id
  trans h h' := h' ∘ h
  tick _ := id
  handle _ _ _ := id
  drop _ := id
  notes _ _ _ _ _ := id
  transition s fate prior new cause := keepsStored_transitionWith s env fate prior new cause
  settle s _ := keepsStored_settleSpawnRecord s env
  policy s policy := by
    unfold Supervisor.setRestartPolicy
    split
    · exact id
    · exact keepsStored_job env id
  count _ _ := keepsStored_job env id
  charge _ _ h := h.stored
  reacquire s := keepsStored_reacquire s env

/-- The drains of a pass and of an exit keep them too. -/
theorem keepsStored_polled (env : Env) : KeepsStored s (s.polled env) := by
  have hmeters := (stored_conduct env).meters (stored_conduct env).stopWithCause
  exact (stored_conduct env).trans
    (hmeters.drainSelfReportedFor ({ s with clock := 0 } : Supervisor) .midRun)
    (hmeters.drainObservedFor _ .midRun)

theorem keepsStored_lastDrained (env : Env) : KeepsStored s (s.lastDrained env) :=
  (stored_conduct env).drainTerminal (stored_conduct env).stopWithCause
    { s.tick with pollErrorStreak := 0 }

end Supervisor

namespace Supervisor

/-! ### Before the transition -/

variable {s s' e : Supervisor} {env : Env} {plan : Option ℕ}

/-- The name and the rows of the Runs are as they were. -/
def Kept (s e : Supervisor) : Prop := e.name = s.name ∧ s.RunRowsKept e

theorem Kept.trans (h : s.Kept s') (h' : s'.Kept e) : s.Kept e :=
  ⟨h'.1.trans h.1, h'.2.trans h.2⟩

theorem kept_job (env : Env) {disk : Disk}
    (h : disk.books.ledger.runs.runs = s.disk.books.ledger.runs.runs) :
    s.Kept (s.job env disk).2 := by
  rcases job_cases s env disk with heq | ⟨-, err, heq⟩
  · rw [heq]
    exact ⟨rfl, h⟩
  · rw [heq]
    exact ⟨rfl, rfl⟩

theorem kept_settleSpawnRecord (s : Supervisor) (env : Env) :
    s.Kept (s.settleSpawnRecord env).2 := by
  refine kept_job env ?_
  unfold settledDisk
  split <;> rfl

theorem kept_settleTerminalRecord (s : Supervisor) (env : Env) (policy : RestartPolicy) :
    s.Kept (s.settleTerminalRecord env policy) := by
  refine (kept_settleSpawnRecord s env).trans ?_
  unfold settleTerminalRecord setRestartPolicy
  split
  · exact ⟨rfl, rfl⟩
  · exact kept_job env rfl

/-- What an exit does before its transition: of the durable rows only the spawn record is written,
and one that is to be relaunched keeps its process. -/
structure Prepared (s : Supervisor) (plan : Option ℕ) (e : Supervisor) : Prop where
  kept : s.Kept e
  clock : s.clock ≤ e.clock
  record : ∃ record, e.control = s.control.withRecord record ∧
    failureCount record ≤ failureCount s.disk.record + 1 ∧
    (plan.isSome → record.map SpawnRecord.pid = s.disk.record.map SpawnRecord.pid)

theorem Prepared.ensureLogDir (h : s.Prepared plan e) (env : Env) :
    s.Prepared plan (e.ensureLogDir env).2 := by
  obtain ⟨record, hcontrol, hrecord⟩ := h.record
  refine ⟨h.kept.trans ?_, ?_, record, ?_, hrecord⟩
  · rcases ensureLogDir_cases e env with heq | heq <;> rw [heq] <;> exact ⟨rfl, rfl⟩
  · rw [clock_ensureLogDir]
    exact h.clock.trans (Nat.le_succ _)
  · rw [ensureLogDir_control, hcontrol]

theorem prepared_settleSpawnRecord (s : Supervisor) (env : Env) :
    s.Prepared none (s.settleSpawnRecord env).2 := by
  have hsettle : Wrote env s (s.control.withRecord (settledRecord s.disk.record))
    (s.settleSpawnRecord env) := wrote_settleSpawnRecord env
  obtain ⟨record, hcontrol, hrecord⟩ := hsettle.withRecord
  refine ⟨kept_settleSpawnRecord s env, ?_, record, hcontrol, ?_, fun hplan => by simp at hplan⟩
  · rw [hsettle.clock]
    omega
  · have hsettled := failureCount_settledRecord s.disk.record
    rcases hrecord with rfl | rfl
    · omega
    · omega

theorem prepared_settleTerminalRecord (env : Env) (hrow : s.disk.state ≠ none)
    (policy : RestartPolicy) : s.Prepared none (s.settleTerminalRecord env policy) := by
  obtain ⟨record, hcontrol, hcount, hclock⟩ := settleTerminalRecord_exact env hrow policy
  exact ⟨kept_settleTerminalRecord s env policy, by omega, record, hcontrol, by omega,
    fun hplan => by simp at hplan⟩

/-- The failures in a row grow by one at most, whatever was read of them. -/
theorem nextConsecutiveFailures_le {record read : Option SpawnRecord}
    (hread : read = record ∨ read = none) (stableRun : Bool) :
    nextConsecutiveFailures (read.elim 0 SpawnRecord.restartCount) stableRun ≤
      failureCount record + 1 := by
  unfold nextConsecutiveFailures
  split
  · omega
  · rcases hread with rfl | rfl
    · exact le_rfl
    · change 0 + 1 ≤ _
      omega

/-- A failure of which the record could not be read is charged as a first one. -/
theorem prepared_planRestartBy (env : Env) (hrow : s.disk.state ≠ none)
    {read : Option SpawnRecord} (hread : read = s.disk.record ∨ read = none) (stableRun : Bool) :
    s.Prepared (failurePlan read stableRun) (s.planRestartBy env read stableRun).2 ∧
      (s.planRestartBy env read stableRun).1 = failurePlan read stableRun := by
  have hnext := nextConsecutiveFailures_le hread stableRun
  unfold planRestartBy failurePlan
  dsimp only
  generalize nextConsecutiveFailures (read.elim 0 SpawnRecord.restartCount) stableRun = next at *
  split
  · exact ⟨prepared_settleTerminalRecord env hrow _, rfl⟩
  split
  · exact ⟨prepared_settleTerminalRecord env hrow _, rfl⟩
  · have hwrote : Wrote env s (s.control.withRecord (counted s.disk.record next))
      (s.setRestartCount env next) := wrote_writeRecord _
    obtain ⟨record, hcontrol, hrecord⟩ := hwrote.withRecord
    have hclock : s.clock ≤ (s.setRestartCount env next).2.clock := by
      rw [hwrote.clock]
      exact Nat.le_succ _
    refine ⟨⟨kept_job env rfl, hclock, record, hcontrol, ?_, fun _ => ?_⟩, rfl⟩
    · rcases hrecord with rfl | rfl
      · cases hr : s.disk.record with
        | none => exact Nat.zero_le _
        | some r =>
            rw [hr] at hnext
            exact hnext
      · omega
    · rcases hrecord with rfl | rfl
      · unfold counted
        cases s.disk.record <;> rfl
      · rfl

/-- A relaunch that is asked for writes nothing. -/
theorem prepared_planRequestedRestartBy (env : Env) (hrow : s.disk.state ≠ none)
    (read : Option SpawnRecord) :
    s.Prepared (s.planRequestedRestartBy env read).1 (s.planRequestedRestartBy env read).2 := by
  unfold planRequestedRestartBy
  dsimp only
  split
  · exact prepared_settleTerminalRecord env hrow _
  · exact ⟨⟨rfl, rfl⟩, le_rfl, s.disk.record, rfl, by omega, fun _ => rfl⟩

/-! ### The transition -/

/-- A transition commits with its projection in a savepoint, or it changes nothing. -/
theorem transitionProjected_cases (env : Env) (hrow : e.disk.state ≠ none)
    (fault : Option Runs.ProjectionFault) (fate : Runs.RunFate) (prior new : LifecycleState)
    (cause : TransitionCause) :
    (env.commits e.clock = true ∧ ∃ out,
      e.transitionProjected env fault fate prior new cause = (none, out) ∧
      out.control = e.control.moved prior new cause ∧
      out.disk.books.ledger.runs = (Runs.projectInSavepoint e.disk.books.ledger.runs e.name new
        fate cause.text (e.now env).time fault).1) ∨
    (env.commits e.clock = false ∧ ∃ err,
      e.transitionProjected env fault fate prior new cause = (some err, e.tick)) := by
  obtain ⟨state, hstate⟩ := Option.ne_none_iff_exists'.1 hrow
  unfold transitionProjected job Env.commits
  rw [hstate]
  dsimp only
  cases hwrite : (e.now env).write with
  | committed => exact .inl ⟨by simpa [now] using hwrite, _, rfl, rfl, rfl⟩
  | busy =>
      rw [now] at hwrite
      exact .inr ⟨by simp [hwrite], _, rfl⟩
  | refused =>
      rw [now] at hwrite
      exact .inr ⟨by simp [hwrite], _, rfl⟩

/-- A transition that ends a process ends the Run unless a relaunch is planned. -/
theorem projectedMove_ended (run : RunRecord) {new : LifecycleState} (cause : String)
    (hnew : new = .stopped ∧ plan = none ∨ new = .failed) :
    ∃ anomalies endCause, Runs.projectedMove run new (fateOf plan) cause =
      some (if plan.isSome then run.status else .ended, anomalies, endCause) := by
  rcases hnew with ⟨rfl, rfl⟩ | rfl
  · exact ⟨_, _, rfl⟩
  · cases plan with
    | none => exact ⟨_, _, rfl⟩
    | some n => exact ⟨_, _, rfl⟩

/-- The transition is asked for, and the plan is returned if it commits. -/
def settleExit (e : Supervisor) (env : Env) (fault : Option Runs.ProjectionFault)
    (plan : Option ℕ) (prior new : LifecycleState) (cause : TransitionCause) : Supervisor :=
  match e.transitionProjected env fault (fateOf plan) prior new cause with
  | (some _, s) => s
  | (none, s) => s.pushPlan plan

variable {d out : Supervisor} {answers : ExitAnswers} {crash : CrashInput}
  {prior new : LifecycleState} {cause : TransitionCause}

/-- The handle is dropped and the failure charged at most once before the transition, which does
not touch the record. -/
theorem Prepared.released (h : d.dropHandle.Prepared plan e) (out : Supervisor)
    (hheld : out.control.held = e.control.held) (hrecord : out.control.record = e.control.record) :
    out.running = none ∧ failureCount out.disk.record ≤ failureCount d.disk.record + 1 := by
  obtain ⟨record, hcontrol, hcount, -⟩ := h.record
  rw [hcontrol] at hheld hrecord
  refine ⟨?_, ?_⟩
  · have hnone : out.running.map Supervised.held = none := hheld
    simpa using hnone
  · change failureCount out.control.record ≤ _
    rw [hrecord]
    exact hcount

/-- The Run of an exit is moved by the projection of its transition, or the projection fails. -/
theorem Prepared.fated (h : d.dropHandle.Prepared plan e)
    (hst : Runs.Stored d.disk.books.ledger.runs)
    (hnew : new = .stopped ∧ plan = none ∨ new = .failed)
    (hout : out.disk.books.ledger.runs = (Runs.projectInSavepoint e.disk.books.ledger.runs e.name
      new (fateOf plan) cause.text (e.now env).time answers.projection).1) :
    d.RunFated plan out ∨
      (answers.projection.isSome ∨ d.ProjectionRefused ⟨prior, new, cause⟩ plan) ∧
        d.RunRowsKept out := by
  obtain ⟨hname, hruns⟩ := h.kept
  change e.name = d.name at hname
  change e.disk.books.ledger.runs.runs = d.disk.books.ledger.runs.runs at hruns
  -- the projection finds the rows the exit has found
  have hopen : e.disk.books.ledger.runs.openProcessRun e.name =
      d.disk.books.ledger.runs.openProcessRun d.name := by
    unfold RunStore.openProcessRun
    rw [hruns, hname]
  have hstored : Runs.Stored e.disk.books.ledger.runs := by
    refine ⟨?_, ?_⟩
    · unfold RunStore.KeyUnique
      rw [hruns]
      exact hst.keys
    · rw [hruns]
      exact hst.sets
  rcases Runs.projectInSavepoint_fate hstored e.name new (fateOf plan) cause.text
    (e.now env).time answers.projection with hfate | ⟨hfault, hsame⟩
  · refine .inl ?_
    intro run hrun
    obtain ⟨anomalies, endCause, hmove⟩ := projectedMove_ended run cause.text hnew
    rw [← hopen] at hrun
    rw [hout]
    exact hfate run _ anomalies endCause hrun hmove
  · refine .inr ⟨hfault.imp_right ?_, ?_⟩
    · rintro ⟨err, herr⟩
      rw [hname] at herr
      exact ⟨_, _, err, hruns, herr⟩
    · unfold RunRowsKept
      rw [hout, hsame]
      exact hruns

/-- A transition that does not commit leaves the exit. -/
theorem Prepared.left (h : d.dropHandle.Prepared plan e) : ExitLeft d plan e.tick := by
  obtain ⟨record, hcontrol, -, hprocess⟩ := h.record
  refine ⟨?_, ?_, ?_, h.kept.2, ?_⟩
  · exact congrArg Control.state hcontrol
  · exact congrArg Control.events hcontrol
  · exact congrArg Control.plans hcontrol
  · intro hplan
    have hrecord : e.disk.record = record := congrArg Control.record hcontrol
    change e.disk.record.map SpawnRecord.pid = _
    rw [hrecord]
    exact hprocess hplan

/-- **The transition decides an exit**: it commits and the exit is recorded, or the exit is left. -/
theorem settleExit_settled (env : Env) (hst : Runs.Stored d.disk.books.ledger.runs)
    (hrow : d.disk.state = some prior) (hprep : d.dropHandle.Prepared plan e)
    (hnew : new = .stopped ∧ plan = none ∨ new = .failed)
    (hclean : new = if d.exitsClean crash then .stopped else .failed) (cause : TransitionCause) :
    (e.settleExit env answers.projection plan prior new cause).running = none ∧
      failureCount (e.settleExit env answers.projection plan prior new cause).disk.record ≤
        failureCount d.disk.record + 1 ∧
      ∃ moment, d.clock ≤ moment ∧
        if env.commits moment then
          ExitRecorded d answers crash plan
            (e.settleExit env answers.projection plan prior new cause)
        else ExitLeft d plan (e.settleExit env answers.projection plan prior new cause) := by
  obtain ⟨record, hcontrol, -⟩ := hprep.record
  have hreg : e.disk.state ≠ none := by
    rw [← state_control, hcontrol]
    change d.disk.state ≠ none
    rw [hrow]
    simp
  unfold settleExit
  rcases transitionProjected_cases env hreg answers.projection (fateOf plan) prior new cause with
    ⟨hcommit, out, heq, hmoved, hout⟩ | ⟨hlost, err, heq⟩
  · rw [heq]
    dsimp only
    obtain ⟨hheld, hcount⟩ := hprep.released out (congrArg Control.held hmoved :)
      (congrArg Control.record hmoved :)
    have hstate : out.disk.state = some new := congrArg Control.state hmoved
    have hevents : out.disk.events = d.disk.events ++ [⟨prior, new, cause⟩] := by
      have h : out.control.events = e.control.events ++ [⟨prior, new, cause⟩] :=
        congrArg Control.events hmoved
      rw [hcontrol] at h
      exact h
    have hplans : out.plans = d.plans := by
      have h : out.control.plans = e.control.plans := (congrArg Control.plans hmoved :)
      rw [hcontrol] at h
      exact h
    -- the transition is in the store: the plan goes with it
    refine ⟨hheld, hcount, e.clock, hprep.clock, ?_⟩
    rw [if_pos hcommit]
    refine ⟨?_, ?_, ⟨prior, new, cause⟩, hevents, hstate, hprep.fated hst hnew hout⟩
    · rw [← hclean]
      exact hstate
    · rw [pushPlan, List.map_append, hplans, List.map_map]
      congr 1
      exact List.map_id _
  · rw [heq]
    dsimp only
    -- it is not: the row stays active and no plan is pushed
    obtain ⟨hheld, hcount⟩ := hprep.released e.tick rfl rfl
    refine ⟨hheld, hcount, e.clock, hprep.clock, ?_⟩
    rw [hlost, if_neg (by simp)]
    exact hprep.left

/-! ### The exit -/

/-- A clean exit plans nothing. -/
theorem finishCleanExitWith_eq (d : Supervisor) (env : Env) (answers : ExitAnswers) (code : ℕ) :
    d.finishCleanExitWith env answers code =
      ((d.dropHandle.settleSpawnRecord env).2.ensureLogDir env).2.settleExit env
        answers.projection none .running .stopped (.cleanExit code) := by
  unfold finishCleanExitWith settleExit
  dsimp only [fateOf, Option.isSome_none]
  rw [if_neg (by simp)]
  generalize transitionProjected _ _ _ _ _ _ _ = r
  obtain ⟨_ | err, s⟩ := r
  · simp [pushPlan]
  · rfl

/-- The plan of a failure is the one of the record that was read. -/
theorem prepared_planFailureBy (env : Env) (hrow : d.disk.state = some prior)
    {read : Option SpawnRecord} (hread : read = d.disk.record ∨ read = none)
    (crash : CrashInput) (hclean : ∀ code, d.exitClass crash prior ≠ some (.clean, code)) :
    d.dropHandle.Prepared (d.exitPlan env read crash)
        (d.dropHandle.planFailureBy env read (prior = .running && (d.now env).stableRun)
          (d.exitClass crash prior)).2.2 ∧
      (d.dropHandle.planFailureBy env read (prior = .running && (d.now env).stableRun)
        (d.exitClass crash prior)).2.1 = d.exitPlan env read crash := by
  have hreg : d.dropHandle.disk.state ≠ none := by
    change d.disk.state ≠ none
    rw [hrow]
    simp
  unfold exitPlan planFailureBy
  rw [hrow]
  dsimp only
  generalize d.exitClass crash prior = classified at *
  match classified with
  | none => exact prepared_planRestartBy env hreg hread _
  | some (.clean, code) => exact absurd rfl (hclean code)
  | some (.restartRequested, code) =>
      have hplan : (d.dropHandle.planRequestedRestartBy env read).1 =
          if read.elim .onFailure SpawnRecord.restartPolicy = .never then none
          else some (failureCount read) := by
        unfold planRequestedRestartBy failureCount
        dsimp only
        split <;> rfl
      have hprep := prepared_planRequestedRestartBy (s := d.dropHandle) env hreg read
      rw [hplan] at hprep
      exact ⟨hprep, hplan⟩

/-- Once the row has been read an exit is clean or a failure. -/
theorem concludeWith_of_row (env : Env) (hrow : d.disk.state = some prior)
    (hstate : prior = .running ∨ prior = .paused) (hlookup : answers.lookup = .answered)
    (crash : CrashInput) :
    (∃ code, d.exitClass crash prior = some (.clean, code) ∧
      d.concludeWith env answers crash = d.finishCleanExitWith env answers code) ∨
    ((∀ code, d.exitClass crash prior ≠ some (.clean, code)) ∧
      d.concludeWith env answers crash =
        d.finishCrashWith env answers prior (d.exitClass crash prior)) := by
  unfold concludeWith
  rw [hlookup, ReadAnswer.found, hrow]
  dsimp only
  rw [if_pos hstate]
  unfold exitClass
  match classifyExit (d.running.elim [] Supervised.exitCodes) crash prior with
  | none => exact .inr ⟨by simp, rfl⟩
  | some (.clean, code) => exact .inl ⟨code, rfl, rfl⟩
  | some (.restartRequested, code) => exact .inr ⟨by simp, rfl⟩

/-- The exit of an instance that is running or paused, whatever its store answers. -/
theorem concludeWith_active (env : Env) (hst : Runs.Stored d.disk.books.ledger.runs)
    (hrow : d.disk.state = some prior) (hstate : prior = .running ∨ prior = .paused)
    (hlookup : answers.lookup = .answered) (crash : CrashInput) :
    (d.concludeWith env answers crash).running = none ∧
      failureCount (d.concludeWith env answers crash).disk.record ≤
        failureCount d.disk.record + 1 ∧
      ∃ moment, d.clock ≤ moment ∧
        if env.commits moment then
          ExitRecorded d answers crash (d.exitPlan env (answers.record.found d.disk.record) crash)
            (d.concludeWith env answers crash)
        else
          ExitLeft d (d.exitPlan env (answers.record.found d.disk.record) crash)
            (d.concludeWith env answers crash) := by
  have hread := answers.record.found_cases d.disk.record
  have hany : d.exitsClean crash = (d.exitClass crash prior).any (·.1 = .clean) := by
    unfold exitsClean
    rw [hrow]
    rfl
  rcases concludeWith_of_row env hrow hstate hlookup crash with ⟨code, hclass, heq⟩ | ⟨hclass, heq⟩
  · -- a clean exit is that of a running instance, and plans nothing
    have hrunning : prior = .running := by
      unfold exitClass classifyExit at hclass
      split at hclass
      · rfl
      · simp at hclass
    subst hrunning
    have hplan : d.exitPlan env (answers.record.found d.disk.record) crash = none := by
      unfold exitPlan
      rw [hrow]
      dsimp only
      rw [hclass]
    rw [heq, hplan, finishCleanExitWith_eq]
    refine settleExit_settled env hst hrow
      ((prepared_settleSpawnRecord d.dropHandle env).ensureLogDir env) (.inl ⟨rfl, rfl⟩) ?_ _
    rw [hany, hclass]
    rfl
  · -- any other exit plans what the record it read allows
    obtain ⟨hprep, hplan⟩ := prepared_planFailureBy env hrow hread crash hclass
    have hfailed : d.finishCrashWith env answers prior (d.exitClass crash prior) =
        ((d.dropHandle.planFailureBy env (answers.record.found d.disk.record)
          (prior = .running && (d.now env).stableRun)
          (d.exitClass crash prior)).2.2.ensureLogDir env).2.settleExit env answers.projection
            (d.exitPlan env (answers.record.found d.disk.record) crash) prior .failed
            (d.dropHandle.planFailureBy env (answers.record.found d.disk.record)
              (prior = .running && (d.now env).stableRun) (d.exitClass crash prior)).1 := by
      unfold finishCrashWith settleExit
      dsimp only
      rw [hplan]
    rw [heq, hfailed]
    refine settleExit_settled env hst hrow (hprep.ensureLogDir env) (.inr rfl) ?_ _
    rw [hany]
    match hfound : d.exitClass crash prior with
    | none => rfl
    | some (.clean, code) => exact absurd hfound (hclass code)
    | some (.restartRequested, code) => rfl

/-- A stop that could not be confirmed is finished, or its row is left stopping. -/
theorem finishUnconfirmedStopWith_passed (env : Env) (hrow : d.disk.state = some .stopping)
    (answers : ExitAnswers) :
    (d.finishUnconfirmedStopWith env answers).running = none ∧
      failureCount (d.finishUnconfirmedStopWith env answers).disk.record ≤
        failureCount d.disk.record ∧
      ¬ (d.finishUnconfirmedStopWith env answers).control.Active ∧
      (d.finishUnconfirmedStopWith env answers).plans = d.plans := by
  have hsettle : Wrote env d.dropHandle (d.dropHandle.control.withRecord
    (settledRecord d.disk.record)) (d.dropHandle.settleSpawnRecord env) :=
      wrote_settleSpawnRecord env
  obtain ⟨record, hcontrol, hrecord⟩ := hsettle.withRecord
  have hcount : failureCount record ≤ failureCount d.disk.record := by
    rcases hrecord with rfl | rfl
    · exact failureCount_settledRecord _
    · exact le_rfl
  unfold finishUnconfirmedStopWith
  generalize d.dropHandle.settleSpawnRecord env = r at hcontrol
  -- the row is stopping until the transition commits, and stopped from then on
  have hend : ∀ out : Supervisor, (out.control = r.2.control ∨
      out.control = r.2.control.moved .stopping .stopped .stopForced) → out.running = none ∧
        failureCount out.disk.record ≤ failureCount d.disk.record ∧ ¬ out.control.Active ∧
        out.plans = d.plans := by
    intro out hout
    rw [hcontrol] at hout
    have hheld : out.control.held = none := by rcases hout with h | h <;> rw [h] <;> rfl
    have hkept : out.control.record = record := by rcases hout with h | h <;> rw [h] <;> rfl
    have hplans : out.control.plans = d.plans := by rcases hout with h | h <;> rw [h] <;> rfl
    refine ⟨by simpa [control] using hheld, ?_, ?_, hplans⟩
    · change failureCount out.control.record ≤ _
      rw [hkept]
      exact hcount
    · rcases hout with h | h
      · have hstate : out.control.state = some .stopping := by
          rw [h]
          exact hrow
        simp [Control.Active, hstate]
      · simp [Control.Active, h]
  obtain ⟨_ | err, e⟩ := r
  · dsimp only
    have hreg : e.disk.state ≠ none := by
      have hstate : e.control.state = d.disk.state := congrArg Control.state hcontrol
      rw [← state_control, hstate, hrow]
      simp
    rcases transitionProjected_cases env hreg answers.projection .terminal .stopping .stopped
      .stopForced with ⟨-, out, heq, hmoved, -⟩ | ⟨-, err, heq⟩
    · rw [heq]
      exact hend out (.inr hmoved)
    · rw [heq]
      exact hend e.tick (.inl rfl)
  · exact hend e (.inl rfl)

/-- An exit whose row the last drains have left neither running nor paused. -/
theorem concludeWith_passed (env : Env) (hrow : ¬ d.control.Active) (answers : ExitAnswers)
    (crash : CrashInput) :
    (d.concludeWith env answers crash).running = none ∧
      failureCount (d.concludeWith env answers crash).disk.record ≤ failureCount d.disk.record ∧
      ¬ (d.concludeWith env answers crash).control.Active ∧
      (d.concludeWith env answers crash).plans = d.plans := by
  have hdrop : d.dropHandle.running = none ∧
      failureCount d.dropHandle.disk.record ≤ failureCount d.disk.record ∧
      ¬ d.dropHandle.control.Active ∧ d.dropHandle.plans = d.plans := ⟨rfl, le_rfl, hrow, rfl⟩
  unfold concludeWith
  rcases answers.lookup.found_cases d.disk.state with hfound | hfound
  · rw [hfound]
    cases hstate : d.disk.state with
    | none => exact hdrop
    | some state =>
        dsimp only
        rw [if_neg (by simpa [Control.Active, state_control, hstate] using hrow)]
        split
        · rename_i hstuck
          obtain ⟨rfl, -⟩ := hstuck
          exact finishUnconfirmedStopWith_passed env hstate answers
        · exact hdrop
  · rw [hfound]
    exact hdrop

/-- **What becomes of an exit, whatever its store answers**: the handle is dropped and the failure
charged at most once; a row that is running or paused is recorded as ended, with the plan and the
fate of its Run, exactly when the transition commits, and else it is left with its Runs as it was; a
row that a Breach Action of the last drains has moved on stays so. -/
theorem exit_handled {name : InstanceName} {steps : List Step} {m : Supervisor}
    (hm : m ∈ Guarded.states step (fresh name) steps)
    (hst : Runs.Stored m.disk.books.ledger.runs) (env : Env) (answers : ExitAnswers)
    (hlookup : answers.lookup = .answered) (crash : CrashInput) :
    ExitHandled env answers crash (m.polled env) ((m.polled env).lastDrained env)
      ((m.polled env).pollExitWith env answers crash) := by
  have hstart : ({ m with clock := 0 } : Supervisor).control.Wf := wf_states (t := m) hm
  have hwf : (m.polled env).control.Wf := (drainMidRun_governed env _ hstart).wf hstart
  obtain ⟨henforced, -⟩ := (codes_conduct env).drainTerminal
    { (m.polled env).tick with pollErrorStreak := 0 } hwf
  have hstored : Runs.Stored ((m.polled env).lastDrained env).disk.books.ledger.runs :=
    keepsStored_lastDrained env (keepsStored_polled env hst)
  have hfailures : failureCount ((m.polled env).lastDrained env).disk.record ≤
      failureCount (m.polled env).disk.record := henforced.uncharged.failures
  have hplans : ((m.polled env).lastDrained env).plans = (m.polled env).plans :=
    henforced.frame.plans
  unfold pollExitWith
  generalize (m.polled env).lastDrained env = d at hstored hfailures hplans ⊢
  by_cases hactive : d.control.Active
  · obtain ⟨prior, hrow, hprior⟩ :
        ∃ prior, d.disk.state = some prior ∧ (prior = .running ∨ prior = .paused) := by
      rcases hactive with hrow | hrow
      · exact ⟨_, hrow, .inl rfl⟩
      · exact ⟨_, hrow, .inr rfl⟩
    obtain ⟨hheld, hcount, hsettled⟩ := concludeWith_active env hstored hrow hprior hlookup crash
    exact ⟨hheld, by omega, hplans, fun _ => hsettled, fun h => absurd hactive h⟩
  · obtain ⟨hheld, hcount, hpassed⟩ := concludeWith_passed env hactive answers crash
    exact ⟨hheld, by omega, hplans, fun h => absurd h hactive, fun _ => hpassed⟩

/-- An instance whose agent is running. -/
def launchedSteps : List Step :=
  [(.register plainConfig, fun _ => {}), (.start false, fun _ => {})]

/-- The process has exited with code 1. -/
def exited (write : WriteAnswer) : Env := fun _ => { poll := .exited (some 1), write := write }

/-- The store commits, but the spawn record cannot be read and the projection is rolled back. -/
theorem exit_handled_unread :
    ExitHandled (exited .committed) ⟨.answered, .busy, some .statement⟩ (.exited (some 1))
      ((runSteps (fresh "a") launchedSteps).polled (exited .committed))
      (((runSteps (fresh "a") launchedSteps).polled (exited .committed)).lastDrained
        (exited .committed))
      (((runSteps (fresh "a") launchedSteps).polled (exited .committed)).pollExitWith
        (exited .committed) ⟨.answered, .busy, some .statement⟩ (.exited (some 1))) := by
  have hm : runSteps (fresh "a") launchedSteps ∈
    Guarded.states step (fresh "a") launchedSteps := Guarded.last_mem_states
  refine exit_handled hm ⟨?_, ?_⟩ (exited .committed) ⟨.answered, .busy, some .statement⟩ rfl _
  · unfold RunStore.KeyUnique
    decide +kernel
  · decide +kernel

/-- **A crash that is lost to its store**: the transition is busy, and the pass ends with the handle
dropped and the row still running. -/
theorem crash_left_running :
    (runSteps (fresh "a") launchedSteps).running.isSome ∧
      (runSteps (fresh "a") launchedSteps).disk.state = some .running ∧
      ({ runSteps (fresh "a") launchedSteps with clock := 0 }.pollProcess
        (exited .busy)).running.isSome = false ∧
      ({ runSteps (fresh "a") launchedSteps with clock := 0 }.pollProcess
        (exited .busy)).disk.state = some .running ∧
      ({ runSteps (fresh "a") launchedSteps with clock := 0 }.pollProcess
        (exited .busy)).plans = [] := by
  decide +kernel

end Supervisor

end Hekma
