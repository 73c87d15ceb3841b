/-
**Supervision and adoption** (`domain/supervisor/reaper.rs`, `domain/supervisor/lifecycle.rs`).

A supervision pass drains the usage, polls the process and checks its liveness.  A process that
has ended gets its last drains before its row is read; a process that has stopped responding gets
them after its row was found running.  Opening the engine adopts the process a record names, or
reconciles the row of one that is gone.

Main definitions:

* `Supervisor.handleExit`, `Supervisor.expire`, `Supervisor.pollOnce` — a supervision pass;
* `Supervisor.releaseDetachedPaused` — what a clean end of the engine does first;
* `Supervisor.adoptOrphans` — what opening the engine does.

Main results:

* `ExitEnd`, `ExpireEnd`, `pollProcess_move`, `checkLiveness_move` — all a supervision pass can do;
* `AdoptMove`, `adoptOrphans_move` — all an adoption can do.
-/

import Hekma.Supervisor.Spawn

set_option relaxedAutoImplicit false
set_option autoImplicit false

namespace Hekma

open Governance

/-- Why a held process counts as ended. -/
inductive CrashInput where
  | exited (code : Option ℕ)
  | persistentPollFailure
  deriving DecidableEq, Repr

/-- How many polls in a row may fail. -/
def maxConsecutivePollErrors : ℕ := 10

/-- The declared class of an exit.  Only a running instance can choose its own. -/
def classifyExit (exitCodes : List (ℕ × ExitClass)) (crash : CrashInput)
    (state : LifecycleState) : Option (ExitClass × ℕ) :=
  match state, crash with
  | .running, .exited (some code) =>
      (exitCodes.find? fun e => e.1 = code).map fun e => (e.2, code)
  | _, _ => none

namespace Supervisor

/-! ### The end of a process -/

/-- Plan the relaunch an exit code asks for.  It does not count as a failure. -/
def planRequestedRestart (s : Supervisor) (env : Env) : Option ℕ × Supervisor :=
  let policy := s.disk.record.elim .onFailure SpawnRecord.restartPolicy
  if policy = .never then (none, s.settleTerminalRecord env policy)
  else (some (s.disk.record.elim 0 SpawnRecord.restartCount), s)

/-- The plans of this pass. -/
def pushPlan (s : Supervisor) (plan : Option ℕ) : Supervisor :=
  { s with plans := s.plans ++ plan.toList.map fun attempt => ⟨attempt, s.episode⟩ }

/-- The process of a stop that could not be confirmed has ended after all. -/
def finishUnconfirmedStop (s : Supervisor) (env : Env) : Supervisor :=
  match s.dropHandle.settleSpawnRecord env with
  | (none, s) => (s.transition env .stopping .stopped .stopForced).2
  | (some _, s) => s

/-- A running instance has ended as it declared. -/
def finishCleanExit (s : Supervisor) (env : Env) (code : ℕ) : Supervisor :=
  let s := (s.dropHandle.settleSpawnRecord env).2
  let s := (s.ensureLogDir env).2
  (s.transition env .running .stopped (.cleanExit code)).2

/-- The plan and the cause of a failure. -/
def planFailure (s : Supervisor) (env : Env) (stableRun : Bool)
    (classified : Option (ExitClass × ℕ)) : TransitionCause × Option ℕ × Supervisor :=
  match classified with
  | some (.restartRequested, code) => (.restartRequested code, s.planRequestedRestart env)
  | _ => (.crashed, s.planRestart env stableRun)

/-- The process has failed. -/
def finishCrash (s : Supervisor) (env : Env) (state : LifecycleState)
    (classified : Option (ExitClass × ℕ)) : Supervisor :=
  let r := s.dropHandle.planFailure env (state = .running && (s.now env).stableRun) classified
  let s := (r.2.2.ensureLogDir env).2
  match s.transitionWith env (fateOf r.2.1) state .failed r.1 with
  | (some _, s) => s
  | (none, s) => s.pushPlan r.2.1

/-- A held process has ended: the last drains, and then what its row says. -/
def handleExit (s : Supervisor) (env : Env) (crash : CrashInput) : Supervisor :=
  let s := drainTerminal env (stopWithCause env) { s with pollErrorStreak := 0 }
  match s.disk.state with
  | none => s.dropHandle
  | some state =>
      if state = .running ∨ state = .paused then
        match classifyExit (s.running.elim [] Supervised.exitCodes) crash state with
        | some (.clean, code) => s.finishCleanExit env code
        | classified => s.finishCrash env state classified
      else if state = .stopping ∧ s.running.any Supervised.stopUnconfirmed then
        s.finishUnconfirmedStop env
      else s.dropHandle

/-- Poll the held process.  Errors are tolerated for a while. -/
def pollExits (s : Supervisor) (env : Env) : Supervisor :=
  match s.running with
  | none => s
  | some _ =>
      match (s.now env).poll with
      | .alive => { s.tick with pollErrorStreak := 0 }
      | .exited code => s.tick.handleExit env (.exited code)
      | .errored =>
          if (s.now env).environmental then s.tick
          else if s.pollErrorStreak + 1 < maxConsecutivePollErrors then
            { s.tick with pollErrorStreak := s.pollErrorStreak + 1 }
          else s.tick.handleExit env .persistentPollFailure

/-! ### Liveness -/

/-- The liveness window of a held process has expired: the last drains, the end of a detached
process, and the failure of the row if it is still running. -/
def expire (s : Supervisor) (env : Env) : Supervisor :=
  let s := drainTerminal env (stopWithCause env) s
  let stableRun := s.running.isSome && (s.now env).stableRun
  let r := s.tick.dropHandle.planRestart env stableRun
  let s := (r.2.ensureLogDir env).2
  match s.transitionIfPrior env (fateOf r.1) .running .failed .unresponsive with
  | (some _, s) => s
  | (none, s) => s.pushPlan r.1

/-- The declared liveness check of a running instance has failed for its whole window. -/
def expiring (s : Supervisor) (env : Env) : Bool :=
  s.running.any Supervised.livenessCheck && s.disk.state = some .running &&
    (s.now env).livenessExpired

/-- Check the liveness of a running instance that declares how. -/
def checkLiveness (s : Supervisor) (env : Env) : Supervisor :=
  if s.expiring env then s.tick.expire env else s.tick

/-! ### A supervision pass -/

/-- The drains a pass begins with. -/
def drainMidRun (s : Supervisor) (env : Env) : Supervisor :=
  drainObservedFor env (stopWithCause env)
    (drainSelfReportedFor env (stopWithCause env) s .midRun) .midRun

/-- The restarts that launches have queued are returned by the next pass. -/
def collectPending (s : Supervisor) : Supervisor :=
  { s with
    plans := s.plans ++ s.pendingRestarts
    pendingRestarts := [] }

/-- A pass before its liveness checks. -/
def pollProcess (s : Supervisor) (env : Env) : Supervisor :=
  (s.drainMidRun env).collectPending.pollExits env

/-- A supervision pass. -/
def pollOnce (s : Supervisor) (env : Env) : Supervisor := (s.pollProcess env).checkLiveness env

/-! ### The end of the engine -/

/-- A detached process that was paused has ended already. -/
def reconcileReleasedExit (s : Supervisor) (env : Env) : Supervisor :=
  ((s.transition env .paused .failed .crashed).2.settleSpawnRecord env).2

/-- A detached process is not left suspended, unless a breach or its own command holds it. -/
def releaseDetachedPaused (s : Supervisor) (env : Env) : Supervisor :=
  if s.running.isSome && s.detached && s.disk.state = some .paused then
    match (s.now env).poll with
    | .exited _ => s.tick.reconcileReleasedExit env
    | _ =>
        if classifyPauseKind s.disk.events = .operator && (s.now env).signal then
          match s.tick.transition env .paused .running .detachedResumed with
          | (none, s) => s.noteCommittedResumeEdge
          | (some _, s) => s
        else s.tick
  else s

/-- The engine is gone, and with it the handles and the planned restarts. -/
def ended (s : Supervisor) : Supervisor :=
  { s with
    running := none
    pendingRestarts := []
    plans := []
    pollErrorStreak := 0 }

/-! ### Adoption -/

/-- The row of a process that is gone. -/
def reconcileOrphanFailed (s : Supervisor) (env : Env) : Supervisor :=
  match s.disk.state with
  | some state =>
      let s :=
        if state = .running ∨ state = .paused then
          ((s.ensureLogDir env).2.transition env state .failed .crashed).2
        else s
      (s.settleSpawnRecord env).2
  | none => (s.writeRecord env none).2

/-- The Run of an adopted process: the one of its record, or a new one. -/
def adoptedRun (s : Supervisor) (env : Env) : RunId × Supervisor :=
  match s.books.ledger.runs.spawnRunId s.name with
  | some id => (id, s)
  | none =>
      let minted := (s.now env).mintedRun
      (minted, (s.job env { s.disk with
        books := s.disk.books.setRuns (Runs.setSpawnRunId s.disk.books.ledger.runs s.name minted)
        }).2)

/-- The reasons the fence of a Run was raised for, as its breaches tell. -/
def fenceReasons (s : Supervisor) (runId : RunId) : List LatchKey :=
  ((s.books.runBreaches s.name runId).filter fun event =>
    event.action = s.configuredAction event.dimension && event.action = .block).map
      fun event => ⟨event.dimension, event.scope⟩

/-- The next launch generation, if it can be written. -/
def bumpLaunchGeneration (s : Supervisor) (env : Env) : Supervisor :=
  (s.job env { s.disk with generation := s.disk.generation + 1 }).2

/-- The listener of an adopted process is bound again only on a fixed port. -/
def adoptedListener (s : Supervisor) (env : Env) (fence : List LatchKey) :
    Option ObservedListener :=
  if s.disk.config.observed && s.disk.config.fixedPort && (s.now env).listener then some ⟨[], fence⟩
  else none

/-- The handle of an adopted process.  The mark of a cooperative pause is derived from the
history. -/
def adoptedHandle (s : Supervisor) (env : Env) (runId : RunId) (fence : List LatchKey) :
    Supervised where
  runId := runId
  meteringSource := s.disk.config.meteringSource
  usageCursor := fun channel => (s.logs channel).size
  usagePark := fun _ => none
  isAcp := s.disk.config.isAcp
  observedPark := none
  launchGeneration := s.disk.generation
  observedListener := s.adoptedListener env fence
  observedSource := (s.adoptedListener env fence).map fun _ => 0
  stopUnconfirmed := false
  adopted := true
  livenessCheck := s.disk.config.livenessCheck
  exitCodes := s.disk.config.exitCodes
  cooperativelyPaused := classifyPauseKind s.disk.events = .cooperative

/-- The Run of an adopted process is brought up to date, if that works. -/
def syncAdoptedRun (s : Supervisor) (env : Env) (runId : RunId) : Supervisor :=
  match Runs.ensureSupervised s.books.ledger.runs
      ⟨s.name, runId, s.disk.config.observed, s.disk.config.labels, false⟩ (s.now env).time with
  | .error _ => s.tick
  | .ok job => (s.job env { s.disk with books := s.disk.books.setRuns job.1 }).2

/-- Hold the process of the spawn record. -/
def adopt (s : Supervisor) (env : Env) : Supervisor :=
  let r := s.adoptedRun env
  let fence := r.2.fenceReasons r.1
  let s := r.2.bumpLaunchGeneration env
  let s := { s.tick with running := some (s.adoptedHandle env r.1 fence) }
  let s := s.syncAdoptedRun env r.1
  enforceBudget env (stopWithCause env) s r.1 s.disk.config.meteringSource

/-- End the Runs whose instance holds no process.  The Runs of other instances are theirs. -/
def endRunsWithoutAProcess (s : Supervisor) (env : Env) : Supervisor :=
  match Runs.endRunsWithoutAProcess s.books.ledger.runs
      (fun name => if name = s.name then s.disk.state.getD .registered else .running)
      (s.now env).time with
  | .error _ => s.tick
  | .ok job => (s.job env { s.disk with books := s.disk.books.setRuns job.1 }).2

/-- The process of the record belongs to another engine, or the claim on it was lost. -/
def foreign (s : Supervisor) (env : Env) : Bool :=
  (s.now env).ownedElsewhere || (s.now env).write ≠ .committed

/-- Adopt the process a record names, or reconcile the row of one that is gone. -/
def adoptOrphan (s : Supervisor) (env : Env) : Supervisor :=
  match s.liveRecord with
  | none => s
  | some _ =>
      if s.foreign env then s.tick
      else
        match (s.now env).adopt with
        | .held => s.tick.adopt env
        | _ => s.tick.reconcileOrphanFailed env

/-- What opening the engine does. -/
def adoptOrphans (s : Supervisor) (env : Env) : Supervisor :=
  (s.adoptOrphan env).endRunsWithoutAProcess env

end Supervisor

/-! ### What a supervision pass does -/

/-- How the exit of a process ends, after its last drains. -/
inductive ExitEnd (f : Faults) (m : Control) : Control → Prop where
  | gone (hrow : m.state ≠ some .running ∧ m.state ≠ some .paused)
      (hflag : m.state = some .stopping → ∀ h, m.held = some h → h.stopUnconfirmed = false) :
      ExitEnd f m m.dropped
  | healed (h : Held) (c' : Control) (hrow : m.state = some .stopping) (hheld : m.held = some h)
      (hflag : h.stopUnconfirmed = true)
      (hend : Control.StopEnd f.settling m c') : ExitEnd f m c'
  | clean (r : Option SpawnRecord) (cause : TransitionCause) (hrow : m.state = some .running) :
      ExitEnd f m ((m.dropped.withRecord r).moved .running .stopped cause)
  | failed (prior : LifecycleState) (r : Option SpawnRecord) (cause : TransitionCause)
      (plan : Option ℕ) (hrow : m.state = some prior)
      (hprior : prior = .running ∨ prior = .paused) :
      ExitEnd f m (((m.dropped.withRecord r).moved prior .failed cause).planned plan)
  | unrecorded (hf : f.write) (r : Option SpawnRecord) : ExitEnd f m (m.dropped.withRecord r)

/-- How an expired liveness window ends, after the last drains. -/
inductive ExpireEnd (f : Faults) (m : Control) : Control → Prop where
  | failed (r : Option SpawnRecord) (plan : Option ℕ) (hrow : m.state = some .running) :
      ExpireEnd f m (((m.dropped.withRecord r).moved .running .failed .unresponsive).planned
        plan)
  | unrecorded (hf : f.write ∨ m.state ≠ some .running) (r : Option SpawnRecord) :
      ExpireEnd f m (m.dropped.withRecord r)

/-- All the first half of a pass can do: Breach Actions, and the end of a held process. -/
inductive ProcessMove (f : Faults) (c : Control) : Control → Prop where
  | alive (m : Control) (h : Enforced f c m) : ProcessMove f c m.collected
  | ended (m m' c' : Control) (h : Enforced f c m) (hheld : m.held ≠ none)
      (h' : Enforced f m.collected m') (hend : ExitEnd f m' c') : ProcessMove f c c'

/-- All a liveness check can do. -/
inductive LivenessMove (f : Faults) (c : Control) : Control → Prop where
  | kept : LivenessMove f c c
  | expired (m c' : Control) (hheld : c.held ≠ none) (hrow : c.state = some .running)
      (h : Enforced f c m) (hend : ExpireEnd f m c') : LivenessMove f c c'

namespace Supervisor

variable {s : Supervisor} {env : Env}

theorem control_pushPlan (plan : Option ℕ) :
    (s.pushPlan plan).control = s.control.planned plan := rfl

theorem control_collectPending : s.collectPending.control = s.control.collected := rfl

theorem planFailure_control (s : Supervisor) (env : Env) (stableRun : Bool)
    (classified : Option (ExitClass × ℕ)) :
    ∃ r, (s.planFailure env stableRun classified).2.2.control = s.control.withRecord r := by
  unfold planFailure
  split
  · unfold planRequestedRestart
    dsimp only
    split
    · exact settleTerminalRecord_control s env _
    · exact ⟨s.disk.record, rfl⟩
  · exact planRestart_control s env stableRun

theorem finishUnconfirmedStop_end (hrow : s.disk.state = some .stopping) :
    Control.StopEnd env.faults.settling s.control
      (s.finishUnconfirmedStop env).control := by
  have h := settle_end (s := s) env (f := env.faults.settling)
    .stopForced id (by rw [hrow]; simp)
  unfold finishUnconfirmedStop
  rcases hs : s.dropHandle.settleSpawnRecord env with ⟨_ | err, s'⟩
  · rw [hs] at h
    exact h
  · rw [hs] at h
    exact h

theorem finishCleanExit_end (hrow : s.disk.state = some .running) (code : ℕ) :
    ExitEnd env.faults s.control (s.finishCleanExit env code).control := by
  obtain ⟨r, hr⟩ := settleSpawnRecord_control s.dropHandle env
  have hlog : ((s.dropHandle.settleSpawnRecord env).2.ensureLogDir env).2.control =
      s.control.dropped.withRecord r := by
    rw [ensureLogDir_control, hr, control_dropHandle]
  have hreg : ((s.dropHandle.settleSpawnRecord env).2.ensureLogDir env).2.disk.state ≠ none := by
    rw [← state_control, hlog]
    change s.disk.state ≠ none
    rw [hrow]
    simp
  unfold finishCleanExit
  dsimp only
  rcases transition_cases hreg env .running .stopped (.cleanExit code) with
    ⟨s', h, hs⟩ | ⟨hw, err, s', h, hs⟩
  · rw [h, hs, hlog]
    exact .clean r _ hrow
  · rw [h, hs, hlog]
    exact .unrecorded hw r

theorem finishCrash_end {state : LifecycleState} (hrow : s.disk.state = some state)
    (hprior : state = .running ∨ state = .paused) (classified : Option (ExitClass × ℕ)) :
    ExitEnd env.faults s.control (s.finishCrash env state classified).control := by
  obtain ⟨r, hr⟩ := planFailure_control s.dropHandle env
    (state = .running && (s.now env).stableRun) classified
  unfold finishCrash
  dsimp only
  generalize s.dropHandle.planFailure env (state = .running && (s.now env).stableRun) classified
    = planned at hr ⊢
  have hlog : (planned.2.2.ensureLogDir env).2.control = s.control.dropped.withRecord r := by
    rw [ensureLogDir_control, hr, control_dropHandle]
  have hreg : (planned.2.2.ensureLogDir env).2.disk.state ≠ none := by
    rw [← state_control, hlog]
    change s.disk.state ≠ none
    rw [hrow]
    simp
  rcases transitionWith_cases hreg env (fateOf planned.2.1) state .failed planned.1 with
    ⟨s', h, hs⟩ | ⟨hw, err, s', h, hs⟩
  · rw [h]
    dsimp only
    rw [control_pushPlan, hs, hlog]
    exact .failed state r _ _ hrow hprior
  · rw [h]
    dsimp only
    rw [hs, hlog]
    exact .unrecorded hw r

/-- What an expiry does after its last drains. -/
theorem expire_end (s : Supervisor) (env : Env) :
    ExpireEnd env.faults (drainTerminal env (stopWithCause env) s).control
      (s.expire env).control := by
  unfold expire
  dsimp only
  generalize drainTerminal env (stopWithCause env) s = d
  obtain ⟨r, hr⟩ := planRestart_control d.tick.dropHandle env
    (d.running.isSome && (d.now env).stableRun)
  generalize d.tick.dropHandle.planRestart env (d.running.isSome && (d.now env).stableRun)
    = planned at hr ⊢
  have hlog : (planned.2.ensureLogDir env).2.control = d.control.dropped.withRecord r := by
    rw [ensureLogDir_control, hr, control_dropHandle, control_tick]
  have hstate : (planned.2.ensureLogDir env).2.disk.state = d.disk.state := by
    rw [← state_control, hlog]
    rfl
  unfold transitionIfPrior
  rw [hstate]
  by_cases hrow : d.disk.state = some .running
  · rw [if_pos hrow]
    have hreg : (planned.2.ensureLogDir env).2.disk.state ≠ none := by
      rw [hstate, hrow]
      simp
    rcases transitionWith_cases hreg env (fateOf planned.1) .running .failed .unresponsive with
      ⟨s', h, hs⟩ | ⟨hw, err, s', h, hs⟩
    · rw [h]
      dsimp only
      rw [control_pushPlan, hs, hlog]
      exact .failed r _ hrow
    · rw [h]
      dsimp only
      rw [hs, hlog]
      exact .unrecorded (.inl hw) r
  · rw [if_neg hrow]
    dsimp only
    rw [hlog]
    exact .unrecorded (.inr hrow) r

/-- The exit of a held process: its last drains, and an end. -/
theorem handleExit_end (hwf : s.control.Wf) (crash : CrashInput) :
    ∃ m, Enforced env.faults s.control m ∧
      ExitEnd env.faults m (s.handleExit env crash).control := by
  have hdrain := drainTerminal_governed env (stopWithCause_stops env)
    { s with pollErrorStreak := 0 } hwf
  unfold handleExit
  dsimp only at hdrain ⊢
  generalize drainTerminal env (stopWithCause env) { s with pollErrorStreak := 0 } = d at hdrain ⊢
  refine ⟨d.control, hdrain, ?_⟩
  cases hrow : d.disk.state with
  | none =>
      have hstate : d.control.state = none := hrow
      exact .gone (by simp [hstate]) (by simp [hstate])
  | some state =>
      have hstate : d.control.state = some state := hrow
      dsimp only
      split
      · rename_i hprior
        split
        · rename_i code hclass
          have hrunning : state = .running := by
            cases state <;> simp_all [classifyExit]
          exact finishCleanExit_end (hrunning ▸ hrow) code
        · exact finishCrash_end hrow hprior _
      · rename_i hother
        rw [not_or] at hother
        split
        · rename_i hstuck
          obtain ⟨rfl, hflag⟩ := hstuck
          obtain ⟨h, hrun, hset⟩ := (Option.any_eq_true _ _).1 hflag
          exact .healed h.held _ hrow (by simp [control, hrun]) hset (finishUnconfirmedStop_end hrow)
        · rename_i hfree
          rw [control_dropHandle]
          refine .gone (by simp [hstate, hother]) ?_
          intro hstopping h hheld
          rw [hstate] at hstopping
          obtain ⟨x, hx, rfl⟩ := Option.map_eq_some_iff.1 hheld
          by_contra hne
          refine hfree ⟨Option.some.inj hstopping, (Option.any_eq_true _ _).2 ⟨x, hx, ?_⟩⟩
          simpa [Supervised.held] using hne

theorem pollExits_move (env : Env) (hwf : s.control.Wf) :
    s.control = (s.pollExits env).control ∨
      s.control.held ≠ none ∧ ∃ m, Enforced env.faults s.control m ∧
        ExitEnd env.faults m (s.pollExits env).control := by
  unfold pollExits
  cases hrun : s.running with
  | none => exact .inl rfl
  | some h =>
      dsimp only
      have hexit : ∀ crash, ∃ m, Enforced env.faults s.control m ∧
          ExitEnd env.faults m (s.tick.handleExit env crash).control :=
        fun crash => handleExit_end (s := s.tick) hwf crash
      cases (s.now env).poll with
      | alive => exact .inl rfl
      | exited code => exact .inr ⟨held_of_running hrun, hexit _⟩
      | errored =>
          dsimp only
          split
          · exact .inl rfl
          split
          · exact .inl rfl
          · exact .inr ⟨held_of_running hrun, hexit _⟩

theorem drainMidRun_governed (env : Env) :
    Governed env.faults fun s => s.drainMidRun env :=
  (drainSelfReportedFor_governed env (stopWithCause_stops env) .midRun).comp
    (drainObservedFor_governed env (stopWithCause_stops env) .midRun)

/-- **All the first half of a pass can do.** -/
theorem pollProcess_move (env : Env) (hwf : s.control.Wf) :
    ProcessMove env.faults s.control (s.pollProcess env).control := by
  have hdrain := drainMidRun_governed env s hwf
  dsimp only at hdrain
  have hwf' : (s.drainMidRun env).collectPending.control.Wf := hdrain.wf hwf
  unfold pollProcess
  rcases pollExits_move env hwf' with h | ⟨hheld, m, h, hend⟩
  · rw [← h, control_collectPending]
    exact .alive _ hdrain
  · exact .ended _ m _ hdrain hheld h hend

/-- **All a liveness check can do.** -/
theorem checkLiveness_move (env : Env) (hwf : s.control.Wf) :
    LivenessMove env.faults s.control (s.checkLiveness env).control := by
  unfold checkLiveness
  split
  · rename_i hexp
    simp only [expiring, Bool.and_eq_true, decide_eq_true_eq] at hexp
    obtain ⟨⟨hcheck, hrow⟩, -⟩ := hexp
    obtain ⟨h, hrun, -⟩ := (Option.any_eq_true _ _).1 hcheck
    have hdrain := drainTerminal_governed env (stopWithCause_stops env) s.tick hwf
    exact .expired _ _ (held_of_running hrun) hrow hdrain (expire_end s.tick env)
  · exact .kept

end Supervisor

/-! ### What an adoption does -/

/-- All an adoption can do to a row without a handle. -/
inductive AdoptMove (f : Faults) (c : Control) : Control → Prop where
  | kept : AdoptMove f c c
  | adopted (runId : RunId) (generation : ℕ) (c' : Control)
      (hrecord : c.record.any fun r => r.pid ≠ 0) (hf : f.found)
      (h : Enforced f (c.holding ⟨runId, generation, false, true,
        classifyPauseKind c.events = .cooperative⟩) c') : AdoptMove f c c'
  | failed (prior : LifecycleState) (r : Option SpawnRecord) (hrow : c.state = some prior)
      (hprior : prior = .running ∨ prior = .paused) :
      AdoptMove f c ((c.moved prior .failed .crashed).withRecord r)
  | recorded (r : Option SpawnRecord)
      (h : f.write ∨ c.state ≠ some .running ∧ c.state ≠ some .paused) :
      AdoptMove f c (c.withRecord r)

/-- All the release of a paused process can do. -/
inductive ReleaseMove (c : Control) : Control → Prop where
  | kept : ReleaseMove c c
  | recorded (r : Option SpawnRecord) : ReleaseMove c (c.withRecord r)
  | failed (r : Option SpawnRecord) (hrow : c.state = some .paused) :
      ReleaseMove c ((c.moved .paused .failed .crashed).withRecord r)
  | resumed (hrow : c.state = some .paused) :
      ReleaseMove c ((c.moved .paused .running .detachedResumed).marked false)

namespace Supervisor

variable {s : Supervisor} {env : Env}

/-- A job that writes books or the launch generation leaves the control state alone. -/
theorem control_job_of_keep {disk : Disk} (hstate : disk.state = s.disk.state)
    (hevents : disk.events = s.disk.events) (hrecord : disk.record = s.disk.record) :
    (s.job env disk).2.control = s.control := by
  rcases job_cases s env disk with h | ⟨-, err, h⟩
  · rw [h]
    simp [control, commit, tick, hstate, hevents, hrecord]
  · rw [h, control_tick]

theorem control_adoptedRun : (s.adoptedRun env).2.control = s.control := by
  unfold adoptedRun
  split
  · rfl
  · exact control_job_of_keep rfl rfl rfl

theorem control_bumpLaunchGeneration : (s.bumpLaunchGeneration env).control = s.control :=
  control_job_of_keep rfl rfl rfl

theorem control_syncAdoptedRun (runId : RunId) :
    (s.syncAdoptedRun env runId).control = s.control := by
  unfold syncAdoptedRun
  split
  · rfl
  · exact control_job_of_keep rfl rfl rfl

theorem control_endRunsWithoutAProcess : (s.endRunsWithoutAProcess env).control = s.control := by
  unfold endRunsWithoutAProcess
  split
  · rfl
  · exact control_job_of_keep rfl rfl rfl

/-- An adoption holds the process, and then its budget is enforced. -/
theorem adopt_enforced (s : Supervisor) (env : Env) :
    ∃ runId generation, Enforced env.faults
      (s.control.holding ⟨runId, generation, false, true,
        classifyPauseKind s.control.events = .cooperative⟩) (s.adopt env).control := by
  unfold adopt
  dsimp only
  generalize hbump : (s.adoptedRun env).2.bumpLaunchGeneration env = b
  have hcontrol : b.control = s.control := by
    rw [← hbump, control_bumpLaunchGeneration, control_adoptedRun]
  have hevents : b.disk.events = s.control.events := by rw [← hcontrol]; rfl
  generalize hheld : ({ b.tick with
      running := some (b.adoptedHandle env (s.adoptedRun env).1
        ((s.adoptedRun env).2.fenceReasons (s.adoptedRun env).1)) } : Supervisor) = held
  have hc : held.control = s.control.holding ⟨(s.adoptedRun env).1, b.disk.generation, false, true,
      classifyPauseKind s.control.events = .cooperative⟩ := by
    rw [← hheld, ← hevents, ← hcontrol]
    rfl
  have hwf : (held.syncAdoptedRun env (s.adoptedRun env).1).control.Wf := by
    rw [control_syncAdoptedRun, hc]
    refine Control.wf_of_unflagged fun x hx => ?_
    obtain rfl := Option.some.inj hx
    rfl
  have hbudget := enforceBudget_governed env (stopWithCause_stops env)
    (s.adoptedRun env).1
    (held.syncAdoptedRun env (s.adoptedRun env).1).disk.config.meteringSource _ hwf
  rw [control_syncAdoptedRun, hc] at hbudget
  exact ⟨_, _, hbudget⟩

theorem adopt_move (hrecord : s.control.record.any fun r => r.pid ≠ 0) (hf : env.faults.found) :
    AdoptMove env.faults s.control (s.adopt env).control := by
  obtain ⟨runId, generation, h⟩ := adopt_enforced s env
  exact .adopted runId generation _ hrecord hf h

theorem reconcileOrphanFailed_move :
    AdoptMove env.faults s.control (s.reconcileOrphanFailed env).control := by
  unfold reconcileOrphanFailed
  cases hrow : s.disk.state with
  | none =>
      obtain ⟨r, hr⟩ := writeRecord_control s env none
      dsimp only
      rw [hr]
      exact .recorded r (.inr (by simp [control, hrow]))
  | some state =>
      dsimp only
      split
      · rename_i hprior
        have hreg : (s.ensureLogDir env).2.disk.state ≠ none := by
          rw [← state_control, ensureLogDir_control, state_control, hrow]
          simp
        rcases transition_cases hreg env state .failed .crashed with
          ⟨s', h, hs⟩ | ⟨hw, err, s', h, hs⟩
        · rw [h]
          obtain ⟨r, hr⟩ := settleSpawnRecord_control s' env
          dsimp only
          rw [hr, hs, ensureLogDir_control]
          exact .failed state r hrow hprior
        · rw [h]
          obtain ⟨r, hr⟩ := settleSpawnRecord_control s' env
          dsimp only
          rw [hr, hs, ensureLogDir_control]
          exact .recorded r (.inl hw)
      · rename_i hother
        rw [not_or] at hother
        obtain ⟨r, hr⟩ := settleSpawnRecord_control s env
        rw [hr]
        exact .recorded r (.inr (by simp [control, hrow, hother]))

/-- **All opening the engine can do.** -/
theorem adoptOrphans_move : AdoptMove env.faults s.control (s.adoptOrphans env).control := by
  unfold adoptOrphans
  rw [control_endRunsWithoutAProcess]
  unfold adoptOrphan
  split
  · exact .kept
  · rename_i r hrec
    split
    · exact .kept
    · split
      · rename_i hfound
        refine adopt_move (s := s.tick) ?_ ⟨s.clock, hfound⟩
        simp only [liveRecord, Option.filter_eq_some_iff, decide_eq_true_eq] at hrec
        simp [control, hrec.1, hrec.2]
      · exact reconcileOrphanFailed_move (s := s.tick)

theorem reconcileReleasedExit_move (hrow : s.disk.state = some .paused) :
    ReleaseMove s.control (s.reconcileReleasedExit env).control := by
  unfold reconcileReleasedExit
  rcases transition_cases (s := s) (by rw [hrow]; simp) env .paused .failed .crashed with
    ⟨s', h, hs⟩ | ⟨-, err, s', h, hs⟩
  · rw [h]
    obtain ⟨r, hr⟩ := settleSpawnRecord_control s' env
    dsimp only
    rw [hr, hs]
    exact .failed r hrow
  · rw [h]
    obtain ⟨r, hr⟩ := settleSpawnRecord_control s' env
    dsimp only
    rw [hr, hs]
    exact .recorded r

/-- **All the release of a paused process can do.** -/
theorem releaseDetachedPaused_move :
    ReleaseMove s.control (s.releaseDetachedPaused env).control := by
  unfold releaseDetachedPaused
  split
  · rename_i hpaused
    simp only [Bool.and_eq_true, decide_eq_true_eq] at hpaused
    have hrow : s.tick.disk.state = some .paused := hpaused.2
    split
    · exact reconcileReleasedExit_move (s := s.tick) hrow
    · split
      · rcases transition_cases (s := s.tick) (by rw [hrow]; simp) env .paused .running
            .detachedResumed with ⟨s', h, hs⟩ | ⟨-, err, s', h, hs⟩
        · rw [h]
          dsimp only
          rw [control_noteCommittedResumeEdge, hs]
          exact .resumed hpaused.2
        · rw [h]
          dsimp only
          rw [hs]
          exact .kept
      · exact .kept
  · exact .kept

end Supervisor

end Hekma
