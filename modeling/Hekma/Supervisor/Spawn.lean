/-
**Launches** (`domain/supervisor/spawn.rs`, `domain/supervisor/reaper.rs`).

A launch resolves everything that can fail before it touches the row.  Then the row is starting,
the process is spawned, its record and its Run are written in one job, and the row is running once
the process is ready.  A relaunch by the Restart Policy keeps the Run of the record: the fence of
its ceilings is raised before the process runs, and the pause or the stop it had fired is executed
again after.

Main definitions:

* `Supervisor.planRestart` — whether a failed process is launched again;
* `Supervisor.runStartFence`, `Supervisor.reapplyLatchedActions` — enforcement around a launch;
* `Supervisor.startInner`, `Supervisor.start`, `Supervisor.restart` — the launch and its callers.

Main results:

* `StartMove`, `startInner_move` — all a launch can do to the control state.
-/

import Hekma.Supervisor.Stop

set_option relaxedAutoImplicit false
set_option autoImplicit false

namespace Hekma

open Governance

/-- How many failures in a row are a crash loop. -/
def maxConsecutiveFailures : ℕ := 5

/-- The failures in a row after one more.  A run that was stable starts the count again. -/
def nextConsecutiveFailures (current : ℕ) (stableRun : Bool) : ℕ :=
  if stableRun then 1 else current + 1

/-- The failures in a row are a crash loop. -/
def isCrashLoop (failures : ℕ) : Bool := maxConsecutiveFailures ≤ failures

namespace Supervisor

/-! ### Restarts -/

/-- A process that is not launched again leaves its policy on the record. -/
def settleTerminalRecord (s : Supervisor) (env : Env) (policy : RestartPolicy) : Supervisor :=
  ((s.settleSpawnRecord env).2.setRestartPolicy env policy).2

/-- Plan the relaunch of a failed process: the number of the attempt, if there is one. -/
def planRestart (s : Supervisor) (env : Env) (stableRun : Bool) : Option ℕ × Supervisor :=
  let policy := s.disk.record.elim .onFailure SpawnRecord.restartPolicy
  let current := s.disk.record.elim 0 SpawnRecord.restartCount
  let next := nextConsecutiveFailures current stableRun
  if policy = .never then (none, s.settleTerminalRecord env policy)
  else if isCrashLoop next then (none, s.settleTerminalRecord env policy)
  else (some next, (s.setRestartCount env next).2)

/-- A Run whose process is launched again goes on. -/
def fateOf (plan : Option ℕ) : Runs.RunFate := if plan.isSome then .relaunching else .terminal

/-! ### Enforcement around a launch -/

/-- The arms of a decision on the totals of a Run.  A Run that does not exist yet has none. -/
def governanceArms (s : Supervisor) (runId : Option RunId) : Option TokenArm × Option DollarArm :=
  let c := s.disk.config
  let run := runId.elim RollupRow.zero fun id => s.books.ledger.runRollup (s.name, id)
  let cumulative := s.books.ledger.instanceRollup s.name
  (if c.tokenBudget.isSet then
      some ⟨Books.totalTokens run, Books.totalTokens cumulative, c.tokenBudget, c.tokenAction⟩
    else none,
    if c.rate.isSome && c.costCap.isSet then
      some ⟨run.cost, cumulative.cost, c.costCap, c.costAction⟩
    else none)

/-- Some dimension is configured to block. -/
def blockConfigured (s : Supervisor) : Bool :=
  s.disk.config.tokenAction = .block || s.disk.config.costAction = .block

/-- The reasons to start a Run behind a raised fence: what would fire `block` on its totals if
nothing were latched. -/
def runStartFence (s : Supervisor) (keptRun : Option RunId) : List LatchKey :=
  if s.blockConfigured then
    let arms := s.governanceArms keptRun
    ((decide ⟨arms.1, arms.2, []⟩).decisions.filter fun d => d.action = .block).map
      fun d => ⟨d.dimension, d.scope⟩
  else []

/-- The action a dimension is configured with. -/
def configuredAction (s : Supervisor) : BreachDimension → BreachAction
  | .tokens => s.disk.config.tokenAction
  | .dollars => s.disk.config.costAction

/-- The newest breach of a Run whose action is still the configured one and stops or pauses. -/
def latchedAction (s : Supervisor) (runId : RunId) : Option BudgetBreachEvent :=
  (s.books.runBreaches s.name runId).reverse.find? fun event =>
    event.action = s.configuredAction event.dimension &&
      (event.action = .pause || event.action = .stop)

/-- Execute the pause or the stop again that the Run of a relaunch had fired. -/
def reapplyLatchedActions (env : Env) (stop : StopWith) (s : Supervisor) (runId : RunId) :
    Supervisor :=
  match s.latchedAction runId with
  | none => s
  | some event =>
      enforce env stop s
        ⟨event.dimension, event.scope, event.action, event.limit, event.observed⟩

/-! ### The launch -/

/-- The launch has failed: so has the instance. -/
def failLaunch (s : Supervisor) (env : Env) (cause : TransitionCause) : Outcome :=
  andThen (s.transition env .starting .failed cause) fun s => (some .launchFailed, s)

/-- The write-ahead record, the next launch generation and the Run, in one job. -/
def writeSpawnRecordNewLaunch (s : Supervisor) (env : Env) (detach : Bool) (restartCount : ℕ)
    (runId : RunId) (fresh : Bool) : Outcome :=
  let config := s.disk.config
  match Runs.ensureSupervised (Runs.setSpawnRunId s.books.ledger.runs s.name runId)
      ⟨s.name, runId, config.observed, config.labels, fresh⟩ (s.now env).time with
  | .error _ => (some (.store .refused), s.tick)
  | .ok job =>
      s.job env { s.disk with
        record := some ⟨(s.now env).pid, detach, config.restartPolicy, restartCount, false⟩
        generation := s.disk.generation + 1
        books := s.disk.books.setRuns job.1 }

/-- The session of an agent that keeps one is written on the record, if that works. -/
def setAcpSession (s : Supervisor) (env : Env) : Supervisor :=
  (s.writeRecord env (s.disk.record.map fun r => { r with acpSession := true })).2

/-- The handle of a fresh launch. -/
def launchedHandle (s : Supervisor) (runId : RunId) (fence : List LatchKey)
    (cursor : UsageChannel → ℕ) : Supervised where
  runId := runId
  meteringSource := s.disk.config.meteringSource
  usageCursor := cursor
  usagePark := fun _ => none
  isAcp := s.disk.config.isAcp
  observedPark := none
  launchGeneration := s.disk.generation
  observedListener := if s.disk.config.observed then some ⟨[], fence⟩ else none
  observedSource := if s.disk.config.observed then some 0 else none
  stopUnconfirmed := false
  adopted := false
  livenessCheck := s.disk.config.livenessCheck
  exitCodes := s.disk.config.exitCodes
  cooperativelyPaused := false

/-- The enforcement a launch ends with: an evaluation if the Run starts behind its fence or may
block, and what a kept Run had fired. -/
def enforceLaunch (env : Env) (s : Supervisor) (restart : Option ℕ) (kept : Option RunId)
    (runId : RunId) (fence : List LatchKey) : Supervisor :=
  let s :=
    if !fence.isEmpty || s.blockConfigured then
      enforceBudget env (stopWithCause env) s runId s.disk.config.meteringSource
    else s
  if restart.isSome && kept.isSome then reapplyLatchedActions env (stopWithCause env) s runId
  else s

/-- The process is ready: the row runs, the handle is held, and what its ceilings ask for is
executed. -/
def becomeRunning (s : Supervisor) (env : Env) (restart : Option ℕ) (kept : Option RunId)
    (runId : RunId) (fence : List LatchKey) (cursor : UsageChannel → ℕ) : Outcome :=
  andThen (s.transition env .starting .running (restart.elim .adapterReady .restarted)) fun s =>
    let s := { s with
      pollErrorStreak := 0
      running := some (s.launchedHandle runId fence cursor) }
    (none, enforceLaunch env s restart kept runId fence)

/-- The process has died while it was getting ready: a relaunch is queued, whether or not the
failure could be recorded. -/
def exitDuringProbe (s : Supervisor) (env : Env) : Outcome :=
  let r := s.planRestart env false
  let s := (r.2.transitionWith env (fateOf r.1) .starting .failed .crashed).2
  (some .launchFailed,
    { s with
      pendingRestarts := s.pendingRestarts ++
        r.1.toList.map fun attempt => ⟨attempt, s.episode⟩ })

/-- The row is starting. -/
def launch (s : Supervisor) (env : Env) (restart : Option ℕ) (detach : Bool)
    (kept : Option RunId) (fence : List LatchKey) : Outcome :=
  let m := s.now env
  let cursor := fun channel => (s.logs channel).size
  let runId := kept.getD m.mintedRun
  if !m.spawn || m.startupExit then s.tick.failLaunch env .launchError
  else
    match s.tick.writeSpawnRecordNewLaunch env detach (restart.getD 0) runId kept.isNone with
    | (some _, s) => s.failLaunch env .launchError
    | (none, s) =>
        if s.disk.config.isAcp && !m.handshake then s.failLaunch env .launchError
        else
          let s := if s.disk.config.isAcp then s.setAcpSession env else s
          if s.disk.config.readinessProbe then
            match m.probe with
            | .timedOut => s.failLaunch env .readinessTimeout
            | .processExited => s.exitDuringProbe env
            | .ready => s.becomeRunning env restart kept runId fence cursor
          else s.becomeRunning env restart kept runId fence cursor

/-- Launch the instance: for the first time, or again as the attempt of a restart. -/
def startInner (s : Supervisor) (env : Env) (restart : Option ℕ) (detach : Bool) : Outcome :=
  match s.disk.state with
  | none => (some .notFound, s)
  | some state =>
      match nextState state .start with
      | none => (some .invalidTransition, s)
      | some new =>
          if !(s.now env).preflight then (some .adapterUnresolved, s.tick)
          else if detach && s.disk.config.observed then (some .detachRefused, s.tick)
          else if s.disk.config.observed && !(s.now env).listener then
            (some .adapterUnresolved, s.tick)
          else
            let kept := if restart.isSome then s.books.ledger.runs.spawnRunId s.name else none
            let fence := if s.disk.config.observed then s.runStartFence kept else []
            andThen (s.tick.ensureLogDir env) fun s =>
              andThen (s.transition env state new (.command "start")) fun s =>
                s.launch env restart detach kept fence

/-- The operator's start. -/
def start (s : Supervisor) (env : Env) (detach : Bool) : Outcome := s.startInner env none detach

/-- A restart.  A detached process stays detached. -/
def restart (s : Supervisor) (env : Env) (attempt : ℕ) : Outcome :=
  s.startInner env (some attempt) s.detached

end Supervisor

/-! ### What a launch does -/

/-- How a launch ends once its row is starting. -/
inductive LaunchEnd (f : Faults) (b : Control) : Control → Prop where
  | failed (r : Option SpawnRecord) (cause : TransitionCause) :
      LaunchEnd f b ((b.withRecord r).moved .starting .failed cause)
  | stranded (hf : f.write) (r : Option SpawnRecord) : LaunchEnd f b (b.withRecord r)
  | crashed (r : Option SpawnRecord) (plan : Option ℕ) :
      LaunchEnd f b (((b.withRecord r).moved .starting .failed .crashed).queued plan)
  | crashedStranded (hf : f.write) (r : Option SpawnRecord) (plan : Option ℕ) :
      LaunchEnd f b ((b.withRecord r).queued plan)
  | launched (r : Option SpawnRecord) (cause : TransitionCause) (runId : RunId) (generation : ℕ)
      (c' : Control)
      (h : Enforced f (((b.withRecord r).moved .starting .running cause).holding
        ⟨runId, generation, false, false, false⟩) c') : LaunchEnd f b c'

/-- All a launch can do. -/
inductive StartMove (f : Faults) (c : Control) : Control → Prop where
  | kept : StartMove f c c
  | started (prior : LifecycleState) (cause : TransitionCause) (c' : Control)
      (hrow : c.state = some prior) (hprior : (nextState prior .start).isSome)
      (h : LaunchEnd f (c.moved prior .starting cause) c') : StartMove f c c'

namespace Control

variable {f : Faults} {c c' b : Control}

theorem Wf.launch (hrow : b.state = some .starting) (h : LaunchEnd f b c') : c'.Wf := by
  have hstarting : b.state ≠ some .running ∧ b.state ≠ some .paused := by
    rw [hrow]
    simp
  cases h with
  | failed r cause => exact wf_of_row (by simp)
  | stranded _ r => exact wf_of_row hstarting
  | crashed r plan => exact wf_of_row (by simp [queued])
  | crashedStranded _ r plan => exact wf_of_row hstarting
  | launched r cause runId generation _ h =>
      refine h.wf (wf_of_unflagged fun x hx => ?_)
      obtain rfl := Option.some.inj hx
      rfl

theorem Wf.start (h : c.Wf) (hm : StartMove f c c') : c'.Wf := by
  cases hm with
  | kept => exact h
  | started prior cause _ hrow hprior hend => exact Wf.launch rfl hend

end Control

namespace Supervisor

variable {s : Supervisor} {env : Env}

theorem settleTerminalRecord_control (s : Supervisor) (env : Env) (policy : RestartPolicy) :
    ∃ r, (s.settleTerminalRecord env policy).control = s.control.withRecord r := by
  obtain ⟨r, hr⟩ := settleSpawnRecord_control s env
  obtain ⟨r', hr'⟩ := setRestartPolicy_control (s.settleSpawnRecord env).2 env policy
  refine ⟨r', ?_⟩
  unfold settleTerminalRecord
  rw [hr', hr]
  rfl

/-- Planning a restart writes the record only. -/
theorem planRestart_control (s : Supervisor) (env : Env) (stableRun : Bool) :
    ∃ r, (s.planRestart env stableRun).2.control = s.control.withRecord r := by
  unfold planRestart
  dsimp only
  split
  · exact settleTerminalRecord_control s env _
  split
  · exact settleTerminalRecord_control s env _
  · exact writeRecord_control s env _

theorem failLaunch_end {r : Option SpawnRecord} {b : Control} {cause : TransitionCause}
    (hrow : b.state = some .starting) (hc : s.control = b.withRecord r) :
    LaunchEnd env.faults b (s.failLaunch env cause).2.control := by
  have hreg : s.disk.state ≠ none := by
    rw [← state_control, hc]
    change b.state ≠ none
    rw [hrow]
    simp
  unfold failLaunch
  rcases transition_cases hreg env .starting .failed cause with
    ⟨s', h, hs⟩ | ⟨hw, err, s', h, hs⟩
  · rw [h, andThen_none, hs, hc]
    exact .failed r cause
  · rw [h, andThen_some, hs, hc]
    exact .stranded hw r

theorem exitDuringProbe_end {r : Option SpawnRecord} {b : Control}
    (hrow : b.state = some .starting) (hc : s.control = b.withRecord r) :
    LaunchEnd env.faults b (s.exitDuringProbe env).2.control := by
  obtain ⟨r', hplan⟩ := planRestart_control s env false
  rw [hc] at hplan
  have hreg : (s.planRestart env false).2.disk.state ≠ none := by
    rw [← state_control, hplan]
    change b.state ≠ none
    rw [hrow]
    simp
  have hqueue : ∀ s' : Supervisor, ({ s' with
      pendingRestarts := s'.pendingRestarts ++
        (s.planRestart env false).1.toList.map fun attempt => ⟨attempt, s'.episode⟩ } :
          Supervisor).control = s'.control.queued (s.planRestart env false).1 :=
    fun _ => rfl
  unfold exitDuringProbe
  dsimp only
  rw [hqueue]
  rcases transitionWith_cases hreg env (fateOf (s.planRestart env false).1) .starting .failed
      .crashed with ⟨s', h, hs⟩ | ⟨hw, err, s', h, hs⟩
  · rw [h, hs, hplan]
    exact .crashed r' _
  · rw [h, hs, hplan]
    exact .crashedStranded hw r' _

theorem writeSpawnRecord_control (s : Supervisor) (env : Env) (detach : Bool) (count : ℕ)
    (runId : RunId) (fresh : Bool) :
    ∃ r, (s.writeSpawnRecordNewLaunch env detach count runId fresh).2.control =
      s.control.withRecord r := by
  unfold writeSpawnRecordNewLaunch
  dsimp only
  split
  · exact ⟨s.disk.record, rfl⟩
  · rename_i job _
    rcases job_cases s env { s.disk with
        record := some ⟨(s.now env).pid, detach, s.disk.config.restartPolicy, count, false⟩
        generation := s.disk.generation + 1
        books := s.disk.books.setRuns job.1 } with h | ⟨-, err, h⟩
    · rw [h]
      exact ⟨_, rfl⟩
    · rw [h]
      exact ⟨s.disk.record, rfl⟩

theorem reapplyLatchedActions_governed (env : Env) (runId : RunId) :
    Governed env.faults fun s => reapplyLatchedActions env (stopWithCause env) s runId := by
  intro s hwf
  dsimp only
  unfold reapplyLatchedActions
  split
  · exact .refl
  · exact enforce_governed env (stopWithCause_stops env) _ s hwf

theorem enforceLaunch_governed (env : Env) (restart : Option ℕ) (kept : Option RunId)
    (runId : RunId) (fence : List LatchKey) :
    Governed env.faults fun s => enforceLaunch env s restart kept runId fence := by
  refine Governed.comp (g := fun s => if !fence.isEmpty || s.blockConfigured then
      enforceBudget env (stopWithCause env) s runId s.disk.config.meteringSource else s)
    (k := fun s => if restart.isSome && kept.isSome then
      reapplyLatchedActions env (stopWithCause env) s runId else s) ?_ ?_
  · intro s hwf
    dsimp only
    split
    · exact enforceBudget_governed env (stopWithCause_stops env) runId _ s hwf
    · exact .refl
  · intro s hwf
    dsimp only
    split
    · exact reapplyLatchedActions_governed env runId s hwf
    · exact .refl

theorem becomeRunning_end {r : Option SpawnRecord} {b : Control} {restart : Option ℕ}
    {kept : Option RunId} {runId : RunId} {fence : List LatchKey} {cursor : UsageChannel → ℕ}
    (hrow : b.state = some .starting) (hc : s.control = b.withRecord r) :
    LaunchEnd env.faults b
      (s.becomeRunning env restart kept runId fence cursor).2.control := by
  have hreg : s.disk.state ≠ none := by
    rw [← state_control, hc]
    change b.state ≠ none
    rw [hrow]
    simp
  unfold becomeRunning
  rcases transition_cases hreg env .starting .running
      (restart.elim .adapterReady .restarted) with ⟨s', h, hs⟩ | ⟨hw, err, s', h, hs⟩
  · rw [h, andThen_none]
    dsimp only
    generalize hheld : ({ s' with
      pollErrorStreak := 0
      running := some (s'.launchedHandle runId fence cursor) } : Supervisor) = held
    have hcontrol : held.control = ((b.withRecord r).moved .starting .running
        (restart.elim .adapterReady .restarted)).holding
          ⟨runId, s'.disk.generation, false, false, false⟩ := by
      rw [← hc, ← hs, ← hheld]
      rfl
    have hwf : held.control.Wf := by
      rw [hcontrol]
      refine Control.wf_of_unflagged fun x hx => ?_
      obtain rfl := Option.some.inj hx
      rfl
    refine .launched r (restart.elim .adapterReady .restarted) runId s'.disk.generation _ ?_
    rw [← hcontrol]
    exact enforceLaunch_governed env restart kept runId fence held hwf
  · rw [h, andThen_some, hs, hc]
    exact .stranded hw r

theorem launch_end {b : Control} {restart : Option ℕ} {detach : Bool} {kept : Option RunId}
    {fence : List LatchKey} (hrow : b.state = some .starting) (hc : s.control = b) :
    LaunchEnd env.faults b (s.launch env restart detach kept fence).2.control := by
  unfold launch
  dsimp only
  split
  · exact failLaunch_end (s := s.tick) (r := b.record) hrow hc
  obtain ⟨r, hr⟩ := writeSpawnRecord_control s.tick env detach (restart.getD 0)
    (kept.getD (s.now env).mintedRun) kept.isNone
  rw [control_tick, hc] at hr
  rcases hjob : s.tick.writeSpawnRecordNewLaunch env detach (restart.getD 0)
    (kept.getD (s.now env).mintedRun) kept.isNone with ⟨_ | err, s₁⟩
  · rw [hjob] at hr
    dsimp only at hr ⊢
    split
    · exact failLaunch_end hrow hr
    obtain ⟨r', hr'⟩ : ∃ r', (if s₁.disk.config.isAcp then s₁.setAcpSession env else s₁).control =
        b.withRecord r' := by
      split
      · obtain ⟨r', hr'⟩ := writeRecord_control s₁ env
          (s₁.disk.record.map fun r => { r with acpSession := true })
        exact ⟨r', hr'.trans (by rw [hr]; rfl)⟩
      · exact ⟨r, hr⟩
    generalize (if s₁.disk.config.isAcp then s₁.setAcpSession env else s₁) = s₂ at hr' ⊢
    split
    · split
      · exact failLaunch_end hrow hr'
      · exact exitDuringProbe_end hrow hr'
      · exact becomeRunning_end hrow hr'
    · exact becomeRunning_end hrow hr'
  · rw [hjob] at hr
    exact failLaunch_end hrow hr

/-- **All a launch can do.** -/
theorem startInner_move (restart : Option ℕ) (detach : Bool) :
    StartMove env.faults s.control (s.startInner env restart detach).2.control := by
  unfold startInner
  cases hrow : s.disk.state with
  | none => exact .kept
  | some state =>
      dsimp only
      cases hnext : nextState state .start with
      | none => exact .kept
      | some new =>
          dsimp only
          split
          · exact .kept
          split
          · exact .kept
          split
          · exact .kept
          have hnew : new = .starting := by
            cases state <;> simp [nextState] at hnext <;> exact hnext.symm
          subst hnew
          refine control_recorded (s := s.tick) (P := StartMove env.faults s.control) hrow .kept ?_
          intro s' hc
          refine .started state (.command "start") _ hrow (by rw [hnext]; rfl) ?_
          exact launch_end rfl hc

theorem start_move (detach : Bool) :
    StartMove env.faults s.control (s.start env detach).2.control := startInner_move none detach

theorem restart_move (attempt : ℕ) :
    StartMove env.faults s.control (s.restart env attempt).2.control :=
  startInner_move (some attempt) s.detached

end Supervisor

end Hekma
