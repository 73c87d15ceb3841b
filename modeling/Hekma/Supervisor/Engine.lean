/-
**The engine** (`engine.rs`).

The verbs of the operator, the supervision ticks, the restarts that come due, and the end and the
opening of the engine, in any order.  Each step brings its own environment.

Main definitions:

* `EngineOp`, `EngineOp.run` — the operations on one instance;
* `Supervisor.step`, `Supervisor.runSteps` — a step, and a run of them;
* `Books.deleteInstance` — what removing an instance deletes with it.

Main results:

* `StepMove`, `step_move` — all a step can do to the control state;
* `wf_states` — a stop that could not be confirmed leaves its row neither running nor paused.
-/

import Hekma.Lib.Guarded
import Hekma.Supervisor.Reaper

set_option relaxedAutoImplicit false
set_option autoImplicit false

namespace Hekma

/-! ### Registration -/

/-- The Run tables without an instance: its Runs go with it, and what hung below them is a root. -/
def RunStore.deleteInstance (s : RunStore) (name : InstanceName) : RunStore :=
  let gone := (s.runs.filter fun r => r.instanceName = some name).map RunRecord.runId
  { s with
    instances := s.instances.filter (· ≠ name)
    spawnRunId := Function.update s.spawnRunId name none
    runs := (s.runs.filter fun r => r.runId ∉ gone).map fun r =>
      { r with parentRunId := r.parentRunId.filter (· ∉ gone) }
    labels := s.labels.filter fun l => l.1 ∉ gone
    limits := s.limits.filter fun l => l.runId ∉ gone
    identities := s.identities.filter fun i => i.2 ∉ gone }

/-- The books without an instance. -/
def Books.deleteInstance (b : Books) (name : InstanceName) : Books :=
  let gone := (b.ledger.runs.runs.filter fun r => r.instanceName = some name).map RunRecord.runId
  { ledger :=
      { b.ledger with
        runs := b.ledger.runs.deleteInstance name
        usage := b.ledger.usage.filter fun e => e.instanceName ≠ some name
        instanceRollup := Function.update b.ledger.instanceRollup name RollupRow.zero
        runRollup := fun key => if key.1 = name then RollupRow.zero else b.ledger.runRollup key }
    latches := b.latches.filter fun l => l.runId ∉ gone
    breaches := b.breaches.filter fun e => e.instanceName ≠ name }

namespace Supervisor

/-- Register the instance. -/
def register (s : Supervisor) (env : Env) (config : Config) : Outcome :=
  match s.disk.state with
  | some _ => (some .alreadyExists, s)
  | none =>
      andThen
        (s.job env
          { state := some .registered
            events := []
            record := none
            generation := 0
            config := config
            books := s.disk.books.setRuns
              ((Runs.RunOp.register s.name).apply s.disk.books.ledger.runs (s.now env).time) })
        fun s => (none, { s with episode := s.episode + 1 })

/-- The states an instance is removed from without force. -/
def removable (state : LifecycleState) : Bool := state ≠ .running

/-- Delete the row of the instance. -/
def deleteRow (s : Supervisor) (env : Env) (force : Bool) : Outcome :=
  match s.disk.state with
  | none => (some .notFound, s)
  | some state =>
      if !force && !removable state then (some .runningRequiresForce, s)
      else
        andThen
          (s.job env { s.disk with
            state := none
            events := []
            record := none
            generation := 0
            books := s.disk.books.deleteInstance s.name })
          fun s => (none, { s with episode := s.episode + 1 })

/-- Remove the instance.  One that is live and will be deleted is stopped first. -/
def remove (s : Supervisor) (env : Env) (force : Bool) : Outcome :=
  match s.disk.state with
  | none => (some .notFound, s)
  | some state =>
      if (state = .running ∨ state = .paused) ∧ (force || removable state) then
        andThen (s.stop env) fun s => s.deleteRow env force
      else s.deleteRow env force

/-- Change the configuration. -/
def configure (s : Supervisor) (env : Env) (config : Config) : Outcome :=
  s.job env { s.disk with config := config }

/-- A planned restart comes due. -/
def fire (s : Supervisor) (env : Env) (i : ℕ) : Outcome :=
  match s.plans[i]? with
  | none => (none, s)
  | some plan => { s with plans := s.plans.eraseIdx i }.restart env plan.attempt

/-- The engine ends cleanly. -/
def close (s : Supervisor) (env : Env) : Supervisor := (s.releaseDetachedPaused env).ended

/-- An engine is opened over the durable rows; the one before it is gone. -/
def openEngine (s : Supervisor) (env : Env) : Supervisor := s.ended.adoptOrphans env

end Supervisor

/-- The operations on one instance.  Those of other instances change the books they share. -/
inductive EngineOp where
  | register (config : Config)
  | remove (force : Bool)
  | configure (config : Config)
  | others (books : Books)
  | start (detach : Bool)
  | stop
  | pause
  | resume
  | drain
  | poll
  | fire (i : ℕ)
  | close
  | openEngine

/-- The effect of an operation. -/
def EngineOp.run (s : Supervisor) (env : Env) : EngineOp → Outcome
  | .register config => s.register env config
  | .remove force => s.remove env force
  | .configure config => s.configure env config
  | .others books => (none, s.commit { s.disk with books := books })
  | .start detach => s.start env detach
  | .stop => s.stop env
  | .pause => s.pause env
  | .resume => s.resume env
  | .drain => s.drain env
  | .poll => (none, s.pollOnce env)
  | .fire i => s.fire env i
  | .close => (none, s.close env)
  | .openEngine => (none, s.openEngine env)

namespace Supervisor

/-- A step: an operation and the environment it meets. -/
abbrev Step : Type := EngineOp × Env

/-- The state after a step. -/
def step (s : Supervisor) (x : Step) : Supervisor := (x.1.run { s with clock := 0 } x.2).2

/-- The state after a run. -/
def runSteps (s : Supervisor) (steps : List Step) : Supervisor := steps.foldl step s

/-- A configuration without a ceiling, of an adapter that declares nothing. -/
def plainConfig : Config where
  tokenBudget := ⟨none, none⟩
  tokenAction := .pause
  rate := none
  costCap := ⟨none, none⟩
  costAction := .pause
  restartPolicy := .onFailure
  meteringSource := "self-reported"
  isAcp := false
  pauseLevel := .guaranteed
  pauseCommand := false
  resumeCommand := false
  idleFile := false
  readinessProbe := false
  livenessCheck := false
  exitCodes := []
  labels := []
  fixedPort := false

/-- The engine before the instance is registered. -/
def fresh (name : InstanceName) : Supervisor where
  name := name
  disk := ⟨none, [], none, 0, plainConfig, Books.empty⟩
  running := none
  pendingRestarts := []
  plans := []
  logs := fun _ => AgentLog.empty
  pollErrorStreak := 0
  clock := 0
  episode := 0
  trace := []

end Supervisor

/-! ### What a step does to the control state -/

/-- All a registration can do. -/
inductive RegisterMove (c : Control) : Control → Prop where
  | kept : RegisterMove c c
  | registered (hrow : c.state = none) :
      RegisterMove c { c with
        state := some .registered, events := [], record := none, episode := c.episode + 1 }

/-- All the deletion of a row can do. -/
inductive DeleteMove (c : Control) : Control → Prop where
  | kept : DeleteMove c c
  | deleted (prior : LifecycleState) (hrow : c.state = some prior) :
      DeleteMove c { c with
        state := none, events := [], record := none, episode := c.episode + 1 }

/-- All a removal can do: the deletion of a row without a process, or of one whose process it has
stopped. -/
inductive RemoveMove (f : Faults) (force : Bool) (c : Control) : Control → Prop where
  | kept : RemoveMove f force c c
  | deleted (c' : Control) (hrow : c.state ≠ some .running ∧ c.state ≠ some .paused)
      (h : DeleteMove c c') : RemoveMove f force c c'
  | refused (m : Control) (hforce : force = true ∨ c.state = some .paused)
      (h : Control.StopMove f c m) : RemoveMove f force c m
  | stopped (m c' : Control) (hforce : force = true ∨ c.state = some .paused)
      (h : Control.StopMove f c m) (hheld : m.held = none) (h' : DeleteMove m c') :
      RemoveMove f force c c'

namespace Control

variable {f : Faults} {c c' m : Control}

theorem Wf.collected (h : c.Wf) : c.collected.Wf := h

theorem Wf.exitEnd (hend : ExitEnd f m c') : c'.Wf := by
  cases hend with
  | gone _ _ => exact wf_of_free rfl
  | healed _ _ hrow _ _ hend => exact Wf.stopEnd hrow hend
  | clean r cause hrow => exact wf_of_free rfl
  | failed prior r cause plan hrow hprior => exact wf_of_free rfl
  | unrecorded hf r => exact wf_of_free rfl

theorem Wf.process (h : c.Wf) (hm : ProcessMove f c c') : c'.Wf := by
  cases hm with
  | alive m henf => exact (henf.wf h).collected
  | ended m m' _ henf _ henf' hend => exact Wf.exitEnd hend

theorem Wf.liveness (h : c.Wf) (hm : LivenessMove f c c') : c'.Wf := by
  cases hm with
  | kept => exact h
  | expired m _ _ _ _ hend =>
      cases hend with
      | failed r plan hrow => exact wf_of_free rfl
      | unrecorded hf r => exact wf_of_free rfl

theorem Wf.adopt (hheld : c.held = none) (hm : AdoptMove f c c') : c'.Wf := by
  cases hm with
  | kept => exact wf_of_free hheld
  | adopted runId generation _ hrecord _ h =>
      refine h.wf (wf_of_unflagged fun x hx => ?_)
      obtain rfl := Option.some.inj hx
      rfl
  | failed prior r hrow hprior => exact wf_of_free hheld
  | recorded r h => exact wf_of_free hheld

theorem Wf.register (h : c.Wf) (hm : RegisterMove c c') : c'.Wf := by
  cases hm with
  | kept => exact h
  | registered hrow => exact wf_of_row (by simp)

theorem Wf.delete (h : c.Wf) (hm : DeleteMove c c') : c'.Wf := by
  cases hm with
  | kept => exact h
  | deleted prior hrow => exact wf_of_row (by simp)

theorem Wf.remove {force : Bool} (h : c.Wf) (hm : RemoveMove f force c c') : c'.Wf := by
  cases hm with
  | kept => exact h
  | deleted _ _ hm => exact h.delete hm
  | refused _ _ hm => exact h.stop hm
  | stopped m _ _ hm _ hm' => exact (h.stop hm).delete hm'

theorem Wf.drain {direct command : Bool} (h : c.Wf)
    (hm : Supervisor.DrainMove f direct command c c') : c'.Wf := by
  cases hm with
  | kept hc => exact hc ▸ h
  | direct _ _ hm => exact h.stop hm
  | cooperated _ hrow hm => exact (h.suspend (.cooperated rfl rfl hrow)).stop hm

end Control

namespace Supervisor

variable {s : Supervisor} {env : Env}

theorem register_move (config : Config) :
    RegisterMove s.control (s.register env config).2.control := by
  unfold register
  cases hrow : s.disk.state with
  | some state => exact .kept
  | none =>
      dsimp only
      rcases job_cases s env
        { state := some .registered
          events := []
          record := none
          generation := 0
          config := config
          books := s.disk.books.setRuns
            ((Runs.RunOp.register s.name).apply s.disk.books.ledger.runs (s.now env).time) } with
        h | ⟨-, err, h⟩
      · rw [h]
        exact .registered hrow
      · rw [h]
        exact .kept

theorem deleteRow_move (force : Bool) :
    DeleteMove s.control (s.deleteRow env force).2.control := by
  unfold deleteRow
  cases hrow : s.disk.state with
  | none => exact .kept
  | some state =>
      dsimp only
      split
      · exact .kept
      · rcases job_cases s env { s.disk with
            state := none
            events := []
            record := none
            generation := 0
            books := s.disk.books.deleteInstance s.name } with h | ⟨-, err, h⟩
        · rw [h]
          exact .deleted state hrow
        · rw [h]
          exact .kept

theorem remove_move (env : Env) (hwf : s.control.Wf) (force : Bool) :
    RemoveMove env.faults force s.control (s.remove env force).2.control := by
  unfold remove
  cases hrow : s.disk.state with
  | none => exact .kept
  | some state =>
      dsimp only
      split
      · rename_i hlive
        have hforce : force = true ∨ s.control.state = some .paused := by
          rw [state_control, hrow]
          obtain ⟨rfl | rfl, hforce⟩ := hlive
          · exact .inl (by simpa [removable] using hforce)
          · exact .inr rfl
        have hstop := stop_move env hwf
        rcases hs : s.stop env with ⟨_ | err, s'⟩
        · rw [hs] at hstop
          have hheld : s'.control.held = none := by
            simp [control, running_of_stopInner env stopDepth s s' none none hs]
          exact .stopped s'.control _ hforce hstop hheld (deleteRow_move force)
        · rw [hs] at hstop
          exact .refused s'.control hforce hstop
      · rename_i hlive
        by_cases hprior : state = .running ∨ state = .paused
        · -- a live row is not deleted without force
          have hkept : s.deleteRow env force = (some .runningRequiresForce, s) := by
            rcases hprior with rfl | rfl
            · have hforce : force = false := by simpa [removable] using hlive
              simp [deleteRow, hrow, hforce, removable]
            · exact absurd hlive (by simp [removable])
          rw [hkept]
          exact .kept
        · rw [not_or] at hprior
          refine .deleted _ ?_ (deleteRow_move force)
          rw [state_control, hrow]
          simpa using hprior

theorem configure_control (env : Env) (config : Config) :
    (s.configure env config).2.control = s.control := control_job_of_keep rfl rfl rfl

/-- A due restart is taken off the plans, and launched. -/
theorem fire_move (env : Env) (i : ℕ) :
    (s.plans[i]? = none ∧ (s.fire env i).2 = s) ∨
      ∃ plan, s.plans[i]? = some plan ∧
        StartMove env.faults { s.control with plans := s.plans.eraseIdx i }
          (s.fire env i).2.control := by
  unfold fire
  cases hplan : s.plans[i]? with
  | none => exact .inl ⟨rfl, rfl⟩
  | some plan =>
      exact .inr ⟨plan, rfl, restart_move (s := { s with plans := s.plans.eraseIdx i }) plan.attempt⟩

theorem close_move (env : Env) : ∃ m, ReleaseMove s.control m ∧ (s.close env).control = m.ended :=
  ⟨(s.releaseDetachedPaused env).control, releaseDetachedPaused_move, rfl⟩

theorem openEngine_move :
    AdoptMove env.faults s.control.ended (s.openEngine env).control :=
  adoptOrphans_move (s := s.ended)

end Supervisor

/-! ### What a step does -/

/-- All a step can do. -/
inductive StepMove (f : Faults) (c : Control) : EngineOp → Control → Prop where
  | register (config : Config) (c' : Control) (h : RegisterMove c c') :
      StepMove f c (.register config) c'
  | remove (force : Bool) (c' : Control) (h : RemoveMove f force c c') :
      StepMove f c (.remove force) c'
  | configure (config : Config) : StepMove f c (.configure config) c
  | others (books : Books) : StepMove f c (.others books) c
  | start (detach : Bool) (c' : Control) (h : StartMove f c c') : StepMove f c (.start detach) c'
  | stop (c' : Control) (h : Control.StopMove f c c') : StepMove f c .stop c'
  | pause (c' : Control) (h : SuspendMove .pause true c c') : StepMove f c .pause c'
  | resume (c' : Control) (h : SuspendMove .resume true c c') : StepMove f c .resume c'
  | drain (direct command : Bool) (c' : Control)
      (h : Supervisor.DrainMove f direct command c c') : StepMove f c .drain c'
  | poll (m c' : Control) (h : ProcessMove f c m) (h' : LivenessMove f m c') :
      StepMove f c .poll c'
  | unplanned (i : ℕ) (hplan : c.plans[i]? = none) : StepMove f c (.fire i) c
  | fire (i : ℕ) (plan : RestartPlan) (c' : Control) (hplan : c.plans[i]? = some plan)
      (h : StartMove f { c with plans := c.plans.eraseIdx i } c') : StepMove f c (.fire i) c'
  | close (m : Control) (h : ReleaseMove c m) : StepMove f c .close m.ended
  | openEngine (c' : Control) (h : AdoptMove f c.ended c') : StepMove f c .openEngine c'

/-- No step leaves a running or paused row with an unconfirmed stop. -/
theorem Control.Wf.step {f : Faults} {c c' : Control} {op : EngineOp} (h : c.Wf)
    (hm : StepMove f c op c') : c'.Wf := by
  cases hm with
  | register config _ hm => exact h.register hm
  | remove force _ hm => exact h.remove hm
  | configure config => exact h
  | others books => exact h
  | start detach _ hm => exact h.start hm
  | stop _ hm => exact h.stop hm
  | pause _ hm => exact h.suspend hm
  | resume _ hm => exact h.suspend hm
  | drain _ _ _ hm => exact h.drain hm
  | poll m _ hm hm' => exact (h.process hm).liveness hm'
  | unplanned i hplan => exact h
  | fire i plan _ hplan hm => exact Wf.start (c := { c with plans := c.plans.eraseIdx i }) h hm
  | close m hm => exact wf_of_free rfl
  | openEngine _ hm => exact Wf.adopt (c := c.ended) rfl hm

namespace Supervisor

variable {s t : Supervisor}

theorem run_move (env : Env) (hwf : s.control.Wf) (op : EngineOp) :
    StepMove env.faults s.control op (op.run s env).2.control := by
  cases op with
  | register config => exact .register config _ (register_move config)
  | remove force => exact .remove force _ (remove_move env hwf force)
  | configure config =>
      change StepMove env.faults s.control _ (s.configure env config).2.control
      rw [configure_control]
      exact .configure config
  | others books => exact .others books
  | start detach => exact .start detach _ (start_move detach)
  | stop => exact .stop _ (stop_move env hwf)
  | pause => exact .pause _ (pause_move env)
  | resume => exact .resume _ (resume_move env)
  | drain => exact .drain _ _ _ (drain_move env hwf)
  | poll =>
      have hprocess := pollProcess_move env hwf
      exact .poll _ _ hprocess (checkLiveness_move env (hwf.process hprocess))
  | fire i =>
      rcases fire_move (s := s) env i with ⟨hplan, h⟩ | ⟨plan, hplan, h⟩
      · change StepMove env.faults s.control _ (s.fire env i).2.control
        rw [h]
        exact .unplanned i hplan
      · exact .fire i plan _ hplan h
  | close =>
      obtain ⟨m, hm, h⟩ := close_move (s := s) env
      change StepMove env.faults s.control _ (s.close env).control
      rw [h]
      exact .close m hm
  | openEngine => exact .openEngine _ openEngine_move

/-- **All a step can do.** -/
theorem step_move (hwf : s.control.Wf) (x : Step) :
    StepMove x.2.faults s.control x.1 (s.step x).control :=
  run_move (s := { s with clock := 0 }) x.2 hwf x.1

theorem wf_fresh (name : InstanceName) : (fresh name).control.Wf := Control.wf_of_free rfl

/-- Every state of a run is well formed. -/
theorem wf_states {name : InstanceName} {steps : List Step}
    (ht : t ∈ Guarded.states step (fresh name) steps) : t.control.Wf := by
  refine Guarded.invariant (P := fun s => s.control.Wf) (fun s x h _ => ?_) (wf_fresh name)
    (Guarded.meets_true steps) ht
  exact h.step (step_move h x)

end Supervisor

end Hekma
