/-
**What every operation keeps** (`domain/supervisor/`).

The operations of the supervisor are long, but all of them are put together from a few primitives:
a consultation of the environment, a change of the handle that keeps its Run, a dropped handle, a
recorded transition, a settled or a changed record, a commit of usage.  A relation that is reflexive
and transitive and holds across the primitives holds across the operations.

Main definitions:

* `Conduct` — a relation between states that holds across the primitives.

Main results:

* `Conduct.suspendOrResume`, `Conduct.stopInner`, `Conduct.drain` — it holds across the verbs;
* `Conduct.drainTerminal`, `Conduct.enforceBudget` — across metering and enforcement;
* `Conduct.pollOnce` — across a supervision pass.
-/

import Hekma.Supervisor.Reaper

set_option relaxedAutoImplicit false
set_option autoImplicit false

namespace Hekma

open Governance

/-- A change of a handle that keeps its Run and its launch. -/
def Supervised.Keeps (f : Supervised → Supervised) : Prop :=
  ∀ h, (f h).runId = h.runId ∧ (f h).launchGeneration = h.launchGeneration

namespace Supervisor

/-- A relation that holds across the primitives of the supervisor. -/
structure Conduct (env : Env) (R : Supervisor → Supervisor → Prop) : Prop where
  refl : ∀ s, R s s
  trans : ∀ {a b c}, R a b → R b c → R a c
  tick : ∀ s, R s s.tick
  handle : ∀ s f, Supervised.Keeps f → R s (s.onHandle f)
  drop : ∀ s, R s s.dropHandle
  notes : ∀ s streak plans pending logs, R s
    { s with pollErrorStreak := streak, plans := plans, pendingRestarts := pending, logs := logs }
  transition : ∀ s fate prior new cause, R s (s.transitionWith env fate prior new cause).2
  settle : ∀ s, s.running = none → R s (s.settleSpawnRecord env).2
  policy : ∀ s policy, R s (s.setRestartPolicy env policy).2
  count : ∀ s count, R s (s.setRestartCount env count).2
  charge : ∀ s books, s.books.Charged books → R s (s.tick.commit { s.disk with books := books })
  reacquire : ∀ s, R s (s.reacquire env)

namespace Conduct

variable {env : Env} {R : Supervisor → Supervisor → Prop} {s : Supervisor}

theorem andThen (h : Conduct env R) {r : Outcome} {f : Supervisor → Outcome} (hr : R s r.2)
    (hf : ∀ s', R s' (f s').2) : R s (andThen r f).2 := by
  obtain ⟨_ | err, s'⟩ := r
  · exact h.trans hr (hf s')
  · exact hr

theorem ensureLogDir (h : Conduct env R) (s : Supervisor) : R s (s.ensureLogDir env).2 := by
  rcases ensureLogDir_cases s env with heq | heq <;> rw [heq] <;> exact h.tick s

theorem settled (h : Conduct env R) (s : Supervisor) :
    R s (s.dropHandle.settleSpawnRecord env).2 := h.trans (h.drop s) (h.settle _ rfl)

/-! ### Pause and resume -/

theorem noteResume (h : Conduct env R) (s : Supervisor) (command : LifecycleCommand) :
    R s (s.noteResume command) := by
  unfold Supervisor.noteResume
  split
  · exact h.handle s _ fun _ => ⟨rfl, rfl⟩
  · exact h.refl s

theorem signalBackend (h : Conduct env R) (s : Supervisor) : R s (s.signalBackend env).2 := by
  unfold Supervisor.signalBackend
  cases s.running with
  | none => exact h.refl s
  | some x =>
      dsimp only
      split <;> exact h.tick s

theorem runCooperativeLifecycleCommand (h : Conduct env R) (s : Supervisor)
    (command : LifecycleCommand) (prior new : LifecycleState) :
    R s (s.runCooperativeLifecycleCommand env command prior new).2 := by
  unfold Supervisor.runCooperativeLifecycleCommand
  cases (s.now env).command with
  | failed => exact h.tick s
  | overran => exact h.tick s
  | exited0 =>
      refine h.andThen (h.trans (h.tick s) (h.ensureLogDir _)) fun s => ?_
      refine h.andThen (h.transition s .terminal _ _ _) fun s => ?_
      split <;> exact h.handle s _ fun _ => ⟨rfl, rfl⟩

theorem suspendOrResume (h : Conduct env R) (s : Supervisor) (command : LifecycleCommand)
    (override : Option TransitionCause) : R s (s.suspendOrResume env command override).2 := by
  unfold Supervisor.suspendOrResume
  split
  · exact h.refl s
  split
  · exact h.refl s
  split
  · exact h.tick s
  split
  · exact h.trans (h.tick s) (h.runCooperativeLifecycleCommand _ _ _ _)
  split
  · exact h.refl s
  · refine h.andThen (h.ensureLogDir s) fun s => ?_
    refine h.andThen (h.transition s .terminal _ _ _) fun s => ?_
    exact h.trans (h.noteResume s command) (h.signalBackend _)
  · refine h.andThen (h.ensureLogDir s) fun s => ?_
    exact h.andThen (h.transition s .terminal _ _ _) fun s => h.noteResume s command

/-! ### Metering and enforcement -/

variable {stop : StopWith}

/-- It holds across the primitives of metering, if it does across the stop. -/
theorem meters (h : Conduct env R) (hstop : ∀ cause s, R s (stop cause s).2) :
    MeterConduct env stop R where
  refl := h.refl
  trans := h.trans
  tick := h.tick
  handle := fun s f hf => h.handle s f fun x =>
    ⟨congrArg Held.runId (hf x).1, congrArg Held.launchGeneration (hf x).1⟩
  logs := fun s _ => h.notes s _ _ _ _
  charge := h.charge
  pause := fun s _ => h.suspendOrResume s .pause _
  stop := fun s cause => hstop cause s

theorem enforceBudget (h : Conduct env R) (hstop : ∀ cause s, R s (stop cause s).2)
    (s : Supervisor) (runId : RunId) (source : String) :
    R s (enforceBudget env stop s runId source) := (h.meters hstop).enforceBudget s runId source

theorem drainTerminal (h : Conduct env R) (hstop : ∀ cause s, R s (stop cause s).2)
    (s : Supervisor) : R s (drainTerminal env stop s) := (h.meters hstop).drainTerminal s

/-! ### Stop and drain -/

theorem settle_end (h : Conduct env R) (s : Supervisor) (cause : TransitionCause) :
    R s (Hekma.andThen (s.dropHandle.settleSpawnRecord env) fun s =>
      s.transition env .stopping .stopped cause).2 :=
  h.andThen (h.settled s) fun s => h.transition s .terminal _ _ _

theorem retryStop (h : Conduct env R) (s : Supervisor) : R s (s.retryStop env).2 := by
  unfold Supervisor.retryStop
  cases (s.now env).poll with
  | errored => exact h.tick s
  | alive => exact h.tick s
  | exited code => exact h.trans (h.tick s) (h.settle_end _ _)

theorem finishStop (h : Conduct env R) (hstop : ∀ cause s, R s (stop cause s).2)
    (s : Supervisor) (forced : Bool) (terminalDrain : Option Bool) :
    R s (finishStop env stop s forced terminalDrain).2 :=
  h.trans ((h.meters hstop).drainSelfReportedFor s .terminal) (h.settle_end _ _)

theorem stopLadder (h : Conduct env R) (hstop : ∀ cause s, R s (stop cause s).2)
    (s : Supervisor) (terminalDrain : Option Bool) :
    R s (stopLadder env stop s terminalDrain).2 := by
  unfold Supervisor.stopLadder
  cases s.running with
  | none => exact h.finishStop hstop s false terminalDrain
  | some x =>
      dsimp only
      cases (s.now env).stop with
      | unconfirmed =>
          exact h.trans (h.tick s) (h.handle _ (fun x => { x with stopUnconfirmed := true })
            fun _ => ⟨rfl, rfl⟩)
      | failed => exact h.tick s
      | stopped forced => exact h.trans (h.tick s) (h.finishStop hstop _ forced _)

theorem stopStep (h : Conduct env R) (hstop : ∀ cause s, R s (stop cause s).2)
    (s : Supervisor) (override : Option TransitionCause) (terminalDrain : Option Bool) :
    R s (stopStep env stop s override terminalDrain).2 := by
  unfold Supervisor.stopStep
  split
  · exact h.refl s
  split
  · exact h.retryStop s
  split
  · exact h.refl s
  · refine h.andThen (h.trans (h.reacquire s) (h.ensureLogDir _)) fun s => ?_
    refine h.andThen (h.transition s .terminal _ _ _) fun s => ?_
    refine h.trans ?_ (h.stopLadder hstop _ terminalDrain)
    refine h.trans ?_ (h.drainTerminal hstop _)
    unfold resumeBeforeStop
    split
    · exact h.tick s
    · exact h.refl s

/-- **It holds across a stop**, at any depth. -/
theorem stopInner (h : Conduct env R) (depth : ℕ) (s : Supervisor)
    (override : Option TransitionCause) (terminalDrain : Option Bool) :
    R s (stopInner env depth s override terminalDrain).2 := by
  induction depth generalizing s override terminalDrain with
  | zero => exact h.refl s
  | succ depth ih => exact h.stopStep (fun cause s => ih s (some cause) none) s _ _

theorem stopWithCause (h : Conduct env R) (cause : TransitionCause) (s : Supervisor) :
    R s (stopWithCause env cause s).2 := h.stopInner stopDepth s (some cause) none

theorem drain (h : Conduct env R) (s : Supervisor) : R s (s.drain env).2 := by
  have hstop : ∀ (s : Supervisor) override terminalDrain,
      R s (Supervisor.stopInner env stopDepth s.tick override terminalDrain).2 :=
    fun s _ _ => h.trans (h.tick s) (h.stopInner stopDepth _ _ _)
  unfold Supervisor.drain
  split
  · exact h.refl s
  split
  · exact h.refl s
  split
  · exact h.tick s
  split
  · exact hstop s _ _
  split
  · cases (s.now env).command with
    | failed => exact h.tick s
    | overran => exact hstop s _ _
    | exited0 =>
        refine h.andThen (h.trans (h.tick s) (h.ensureLogDir _)) fun s => ?_
        refine h.andThen (h.transition s .terminal _ _ _) fun s => ?_
        exact h.trans (h.handle s (fun x => { x with cooperativelyPaused := true })
          fun _ => ⟨rfl, rfl⟩) (hstop _ _ _)
  · exact hstop s _ _

/-! ### Enforcement around a launch -/

theorem reapplyLatchedActions (h : Conduct env R) (hstop : ∀ cause s, R s (stop cause s).2)
    (s : Supervisor) (runId : RunId) : R s (reapplyLatchedActions env stop s runId) := by
  unfold Supervisor.reapplyLatchedActions
  split
  · exact h.refl s
  · exact (h.meters hstop).enforce s _

theorem enforceLaunch (h : Conduct env R) (s : Supervisor) (restart : Option ℕ)
    (kept : Option RunId) (runId : RunId) (fence : List LatchKey) :
    R s (enforceLaunch env s restart kept runId fence) := by
  have hevaluated : ∀ b : Bool, R s (if b then Supervisor.enforceBudget env
      (Supervisor.stopWithCause env) s runId s.disk.config.meteringSource else s) := by
    intro b
    cases b with
    | false => exact h.refl s
    | true => exact h.enforceBudget h.stopWithCause s _ _
  unfold Supervisor.enforceLaunch
  dsimp only
  split
  · exact h.trans (hevaluated _) (h.reapplyLatchedActions h.stopWithCause _ runId)
  · exact hevaluated _

/-! ### The end of a process -/

theorem settleTerminalRecord (h : Conduct env R) (hfree : s.running = none)
    (policy : RestartPolicy) : R s (s.settleTerminalRecord env policy) :=
  h.trans (h.settle s hfree) (h.policy _ _)

theorem planRestart (h : Conduct env R) (hfree : s.running = none) (stableRun : Bool) :
    R s (s.planRestart env stableRun).2 := by
  unfold Supervisor.planRestart
  dsimp only
  split
  · exact h.settleTerminalRecord hfree _
  split
  · exact h.settleTerminalRecord hfree _
  · exact h.count s _

theorem planFailure (h : Conduct env R) (hfree : s.running = none) (stableRun : Bool)
    (classified : Option (ExitClass × ℕ)) : R s (s.planFailure env stableRun classified).2.2 := by
  unfold Supervisor.planFailure
  split
  · unfold planRequestedRestart
    dsimp only
    split
    · exact h.settleTerminalRecord hfree _
    · exact h.refl s
  · exact h.planRestart hfree stableRun

theorem pushPlan (h : Conduct env R) (s : Supervisor) (plan : Option ℕ) : R s (s.pushPlan plan) :=
  h.notes s _ _ _ _

theorem finishUnconfirmedStop (h : Conduct env R) (s : Supervisor) :
    R s (s.finishUnconfirmedStop env) := by
  have hsettled := h.settled s
  unfold Supervisor.finishUnconfirmedStop
  rcases hs : s.dropHandle.settleSpawnRecord env with ⟨_ | err, s'⟩
  · rw [hs] at hsettled
    exact h.trans hsettled (h.transition s' .terminal _ _ _)
  · rw [hs] at hsettled
    exact hsettled

theorem finishCleanExit (h : Conduct env R) (s : Supervisor) (code : ℕ) :
    R s (s.finishCleanExit env code) :=
  h.trans (h.settled s) (h.trans (h.ensureLogDir _) (h.transition _ .terminal _ _ _))

theorem finishCrash (h : Conduct env R) (s : Supervisor) (state : LifecycleState)
    (classified : Option (ExitClass × ℕ)) : R s (s.finishCrash env state classified) := by
  unfold Supervisor.finishCrash
  dsimp only
  have hplanned := h.trans (h.drop s) (h.planFailure (s := s.dropHandle) rfl
    (state = .running && (s.now env).stableRun) classified)
  generalize s.dropHandle.planFailure env (state = .running && (s.now env).stableRun) classified
    = planned at hplanned ⊢
  have hmoved := h.trans (h.trans hplanned (h.ensureLogDir _))
    (h.transition _ (fateOf planned.2.1) state .failed planned.1)
  rcases hm : (planned.2.2.ensureLogDir env).2.transitionWith env (fateOf planned.2.1) state .failed
    planned.1 with ⟨_ | err, s'⟩
  · rw [hm] at hmoved
    exact h.trans hmoved (h.pushPlan s' _)
  · rw [hm] at hmoved
    exact hmoved

theorem handleExit (h : Conduct env R) (s : Supervisor) (crash : CrashInput) :
    R s (s.handleExit env crash) := by
  have hdrain := h.trans (h.notes s 0 s.plans s.pendingRestarts s.logs)
    (h.drainTerminal h.stopWithCause _)
  unfold Supervisor.handleExit
  dsimp only
  refine h.trans hdrain ?_
  split
  · exact h.drop _
  split
  · split
    · exact h.finishCleanExit _ _
    · exact h.finishCrash _ _ _
  split
  · exact h.finishUnconfirmedStop _
  · exact h.drop _

theorem expire (h : Conduct env R) (s : Supervisor) : R s (s.expire env) := by
  unfold Supervisor.expire
  dsimp only
  refine h.trans (h.drainTerminal h.stopWithCause s) ?_
  generalize Supervisor.drainTerminal env (Supervisor.stopWithCause env) s = d
  have hplanned := h.trans (h.trans (h.tick d) (h.drop _))
    (h.planRestart (s := d.tick.dropHandle) rfl (d.running.isSome && (d.now env).stableRun))
  generalize d.tick.dropHandle.planRestart env (d.running.isSome && (d.now env).stableRun)
    = planned at hplanned ⊢
  have hlog := h.trans hplanned (h.ensureLogDir _)
  unfold transitionIfPrior
  by_cases hrow : (planned.2.ensureLogDir env).2.disk.state = some .running
  · rw [if_pos hrow]
    have hmoved := h.trans hlog (h.transition _ (fateOf planned.1) .running .failed .unresponsive)
    rcases hm : (planned.2.ensureLogDir env).2.transitionWith env (fateOf planned.1) .running
      .failed .unresponsive with ⟨_ | err, s'⟩
    · rw [hm] at hmoved
      exact h.trans hmoved (h.pushPlan s' _)
    · rw [hm] at hmoved
      exact hmoved
  · rw [if_neg hrow]
    exact hlog

/-! ### A supervision pass -/

theorem pollExits (h : Conduct env R) (s : Supervisor) : R s (s.pollExits env) := by
  have hexit : ∀ crash, R s (s.tick.handleExit env crash) :=
    fun crash => h.trans (h.tick s) (h.handleExit _ crash)
  unfold Supervisor.pollExits
  split
  · exact h.refl s
  split
  · exact h.trans (h.tick s) (h.notes _ _ _ _ _)
  · exact hexit _
  · split
    · exact h.tick s
    split
    · exact h.trans (h.tick s) (h.notes _ _ _ _ _)
    · exact hexit _

theorem pollProcess (h : Conduct env R) (s : Supervisor) : R s (s.pollProcess env) :=
  h.trans ((h.meters h.stopWithCause).drainSelfReportedFor s .midRun)
    (h.trans ((h.meters h.stopWithCause).drainObservedFor _ .midRun)
      (h.trans (h.notes _ _ _ _ _) (h.pollExits _)))

theorem checkLiveness (h : Conduct env R) (s : Supervisor) : R s (s.checkLiveness env) := by
  unfold Supervisor.checkLiveness
  split
  · exact h.trans (h.tick s) (h.expire _)
  · exact h.tick s

/-- **It holds across a supervision pass.** -/
theorem pollOnce (h : Conduct env R) (s : Supervisor) : R s (s.pollOnce env) :=
  h.trans (h.pollProcess s) (h.checkLiveness _)

end Conduct

end Supervisor

end Hekma
