/-
**The removal of an instance** (`engine.rs`, `domain/registry.rs`).

A removal stops a running or paused instance that it will delete, deletes the row, and then
handles the home.  Whether the process lives is not something the engine knows: a world says so for
every moment, and its answers to the engine are true.

Main definitions:

* `World` — the answers of the environment, and whether the process lives;
* `Site`, `Site.remove` — the engine and the home, and a removal;
* `Clean` — what a removal promises;
* `Reaches` — the states in which a removal reaches the process, if there is one.

Main results:

* `clock_conduct` — time only advances;
* `stop_ends` — a stop that succeeds with a handle has seen the process end;
* `restart_refused` — once the row is gone, no planned restart launches anything;
* `remove_clean_iff` — a removal keeps its promise in every world just when it reaches the process.
-/

import Hekma.Supervisor.Conduct
import Hekma.Supervisor.Engine

set_option relaxedAutoImplicit false
set_option autoImplicit false

namespace Hekma

open Governance

/-! ### Worlds -/

/-- The answers of the environment, and whether the process lives when it is asked for the `k`-th
time.  Nothing launches a process here, a confirmed stop has ended it, and what is reported to have
exited or to be gone is dead. -/
structure World where
  env : Env
  live : ℕ → Prop
  dead_stays : ∀ k, live (k + 1) → live k
  stopped : ∀ k forced, (env k).stop = .stopped forced → ¬ live (k + 1)
  exited : ∀ k code, (env k).poll = .exited code → ¬ live k
  gone : ∀ k, (env k).adopt = .gone → ¬ live k

theorem World.live_of_le (w : World) {j k : ℕ} (hle : j ≤ k) (h : w.live k) : w.live j := by
  induction k, hle using Nat.le_induction with
  | base => exact h
  | succ k _ ih => exact ih (w.dead_stays k h)

/-! ### The removal -/

/-- What becomes of the home of a removed instance. -/
inductive RemoveDisposition where
  | retain
  | delete
  deriving DecidableEq, Repr

/-- Why a removal failed. -/
inductive RemoveError where
  | engine (err : EngineError)
  | removeLeftoverHome
  deriving DecidableEq, Repr

/-- The engine, and whether the home of the instance is in place. -/
structure Site where
  engine : Supervisor
  home : Bool

/-- Remove the instance.  The home goes only after the row, and may fail to go. -/
def Site.remove (p : Site) (env : Env) (disposition : RemoveDisposition) (force treeGone : Bool) :
    Option RemoveError × Site :=
  match p.engine.remove env force with
  | (some err, s) => (some (.engine err), ⟨s, p.home⟩)
  | (none, s) =>
      match disposition with
      | .retain => (none, ⟨s, p.home⟩)
      | .delete => if treeGone then (none, ⟨s, false⟩) else (some .removeLeftoverHome, ⟨s, p.home⟩)

namespace Supervisor

/-- The step registers an instance. -/
def registers : Step → Bool
  | (.register _, _) => true
  | _ => false

/-- No restart that is still planned launches anything, until an instance is registered again. -/
def Unlaunchable (s : Supervisor) : Prop :=
  ∀ steps, (∀ x ∈ steps, registers x = false) → ∀ env attempt,
    (s.runSteps steps).restart env attempt = (some .notFound, s.runSteps steps)

/-- A removal stops the process first. -/
def tearsDown (s : Supervisor) (force : Bool) : Bool :=
  s.disk.state.any fun state =>
    (state = .running || state = .paused) && (force || removable state)

end Supervisor

/-- What a removal promises: when it succeeds no process lives at the moment the row is deleted and
none is launched any more; a failed teardown deletes nothing; and when it fails over a row that is
still there, the home is in place and a living process is still held. -/
structure Clean (w : World) (p : Site) (disposition : RemoveDisposition) (force treeGone : Bool) :
    Prop where
  dead : (p.remove w.env disposition force treeGone).1 = none →
    ∀ k, k + 1 = (p.remove w.env disposition force treeGone).2.engine.clock → ¬ w.live k
  unlaunchable : (p.remove w.env disposition force treeGone).1 = none →
    (p.remove w.env disposition force treeGone).2.engine.Unlaunchable
  torn : p.engine.tearsDown force → (p.engine.stop w.env).1 ≠ none →
    (p.remove w.env disposition force treeGone).2.engine.disk.state ≠ none
  failed : (p.remove w.env disposition force treeGone).1 ≠ none →
    (p.remove w.env disposition force treeGone).2.engine.disk.state ≠ none →
      (p.remove w.env disposition force treeGone).2.home = p.home ∧
      (p.engine.running.isSome →
        w.live (p.remove w.env disposition force treeGone).2.engine.clock →
          (p.remove w.env disposition force treeGone).2.engine.running.isSome)

/-- A removal reaches the process, if there is one: no process lives, or it is held over a running
or paused row, or nothing is removed. -/
def Supervisor.Reaches (s : Supervisor) (force alive : Bool) : Bool :=
  match s.disk.state with
  | none => true
  | some .running => !force || !alive || s.running.isSome
  | some .paused => !alive || s.running.isSome
  | some _ => !alive

/-! ### Time -/

namespace Supervisor

variable {s : Supervisor} {env : Env} {stop : StopWith}

/-- A stop in which time only advances. -/
def Advances (stop : StopWith) : Prop := ∀ cause s, s.clock ≤ (stop cause s).2.clock

theorem clock_job (s : Supervisor) (env : Env) (disk : Disk) :
    s.clock ≤ (s.job env disk).2.clock := by
  unfold job
  cases (s.now env).write <;> exact Nat.le_succ _

theorem clock_transitionWith (s : Supervisor) (env : Env) (fate : Runs.RunFate)
    (prior new : LifecycleState) (cause : TransitionCause) :
    s.clock ≤ (s.transitionWith env fate prior new cause).2.clock := by
  unfold transitionWith
  cases s.disk.state with
  | none => exact le_rfl
  | some state =>
      dsimp only
      rcases job_cases s env { s.disk with
          state := some new
          events := s.disk.events ++ [⟨prior, new, cause⟩]
          books := s.projected (s.now env).time new fate cause } with h | ⟨-, err, h⟩ <;>
        rw [h] <;> exact Nat.le_succ _

theorem clock_setRestartPolicy (s : Supervisor) (env : Env) (policy : RestartPolicy) :
    s.clock ≤ (s.setRestartPolicy env policy).2.clock := by
  unfold setRestartPolicy
  cases s.disk.state with
  | none => exact le_rfl
  | some state => exact clock_job s env _

theorem clock_reacquire (s : Supervisor) (env : Env) : s.clock ≤ (s.reacquire env).clock := by
  unfold reacquire
  split
  · split <;> exact Nat.le_succ _
  · exact le_rfl

/-- **Time only advances.** -/
theorem clock_conduct (env : Env) : Conduct env fun s s' => s.clock ≤ s'.clock where
  refl _ := le_rfl
  trans := le_trans
  tick _ := Nat.le_succ _
  handle _ _ _ := le_rfl
  drop _ := le_rfl
  notes _ _ _ _ _ := le_rfl
  transition s fate prior new cause := clock_transitionWith s env fate prior new cause
  settle s _ := clock_job s env _
  policy s policy := clock_setRestartPolicy s env policy
  count s _ := clock_job s env _
  charge _ _ _ := Nat.le_succ _
  reacquire s := clock_reacquire s env

end Supervisor

/-! ### A row that is gone -/

namespace Control

variable {f : Faults} {c c' : Control} {op : EngineOp}

theorem idle_of_gone (hgone : c.state = none) : c.Idle := by
  simp [Idle, hgone]

/-- A row that is gone stays gone, until it is registered. -/
theorem gone_step (hgone : c.state = none) (hop : ∀ config, op ≠ .register config)
    (hm : StepMove f c op c') : c'.state = none := by
  -- a row that is gone is idle: a stop or a pause finds nothing to do
  have hidle := idle_of_gone hgone
  cases hm with
  | register config _ _ => exact absurd rfl (hop config)
  | remove force _ hm =>
      have hdelete : ∀ {m m' : Control}, m.state = none → DeleteMove m m' → m'.state = none := by
        intro m m' hm hdelete
        cases hdelete with
        | kept => exact hm
        | deleted prior _ => rfl
      cases hm with
      | kept => exact hgone
      | deleted _ _ hm => exact hdelete hgone hm
      | refused _ _ hm => rw [hidle.stop hm, hgone]
      -- a forced removal stops first, and a stop does not bring the row back
      | stopped m _ _ hm _ hm' => exact hdelete (by rw [hidle.stop hm, hgone]) hm'
  | configure config => exact hgone
  | others books => exact hgone
  | start detach _ hm =>
      cases hm with
      | kept => exact hgone
      | started prior cause _ hrow _ _ => simp [hgone] at hrow
  | stop _ hm => rw [hidle.stop hm, hgone]
  | pause _ hm => rw [hidle.suspend hm, hgone]
  | resume _ hm =>
      cases hm with
      | kept => exact hgone
      | suspended _ hcmd _ _ => exact nomatch hcmd
      | cooperated hcmd _ _ => exact nomatch hcmd
      | resumed _ _ hrow => simp [hgone] at hrow
  | drain _ _ _ hm =>
      cases hm with
      | kept hkept => rw [hkept, hgone]
      | direct _ hrow _ => simp [hgone] at hrow
      | cooperated _ hrow _ => simp [hgone] at hrow
  | poll m _ hm hm' =>
      have hprocess : m.state = none := by
        cases hm with
        | alive m henf => rw [henf.idle hidle]; exact hgone
        | ended m m' _ henf _ henf' hend =>
            -- nor does the enforcement before or after the collection
            have hfirst : m.collected.state = none := by rw [henf.idle hidle]; exact hgone
            have hlast : m'.state = none := by rw [henf'.idle (idle_of_gone hfirst), hfirst]
            cases hend with
            | gone _ _ => exact hlast
            | healed _ _ hrow _ _ _ => simp [hlast] at hrow
            | clean r cause hrow => simp [hlast] at hrow
            | failed prior r cause plan hrow _ => simp [hlast] at hrow
            | unrecorded _ r => exact hlast
      cases hm' with
      | kept => exact hprocess
      | expired _ _ _ hrow _ _ => simp [hprocess] at hrow
  | unplanned i _ => exact hgone
  | fire i plan _ _ hm =>
      cases hm with
      | kept => exact hgone
      | started prior cause _ hrow _ _ => simp [hgone] at hrow
  | close m hm =>
      cases hm with
      | kept => exact hgone
      | recorded r => exact hgone
      | failed r hrow => simp [hgone] at hrow
      | resumed hrow => simp [hgone] at hrow
  | openEngine _ hm =>
      have hended : c.ended.state = none := hgone
      cases hm with
      | kept => exact hgone
      | adopted runId generation _ _ _ h =>
          rw [h.idle (idle_of_gone (c := c.ended.holding _) hended)]
          exact hgone
      | failed prior r hrow _ => simp [hended] at hrow
      | recorded r _ => exact hgone

end Control

namespace Supervisor

variable {s : Supervisor} {env : Env} {force : Bool}

/-- Once the row is gone, no planned restart launches anything. -/
theorem restart_refused (hwf : s.control.Wf) (hgone : s.disk.state = none) : s.Unlaunchable := by
  intro steps hsteps env attempt
  have hrow : (s.runSteps steps).disk.state = none := by
    suffices h : ∀ steps (s : Supervisor), s.control.Wf → s.disk.state = none →
        (∀ x ∈ steps, registers x = false) → (s.runSteps steps).disk.state = none from
      h steps s hwf hgone hsteps
    intro steps
    induction steps with
    | nil => exact fun s _ hgone _ => hgone
    | cons x steps ih =>
        intro s hwf hgone hsteps
        have hx := hsteps x List.mem_cons_self
        have hop : ∀ config, x.1 ≠ .register config := by
          intro config hop
          obtain ⟨op, env⟩ := x
          obtain rfl : op = .register config := hop
          exact nomatch hx
        exact ih (s.step x) (hwf.step (step_move hwf x))
          (Control.gone_step hgone hop (step_move hwf x))
          fun y hy => hsteps y (List.mem_cons_of_mem _ hy)
  unfold restart startInner
  rw [hrow]

/-! ### The teardown -/

/-- The backend has confirmed that the process ended, before the engine reached this state. -/
def Ended (env : Env) (s : Supervisor) : Prop :=
  ∃ j forced, (env j).stop = .stopped forced ∧ j < s.clock

theorem Ended.dead {w : World} (h : s.Ended w.env) {k : ℕ} (hk : s.clock ≤ k) : ¬ w.live k := by
  obtain ⟨j, forced, hstop, hj⟩ := h
  exact fun hlive => w.stopped j forced hstop (w.live_of_le (hj.trans_le hk) hlive)

theorem isSome_running_iff : s.running.isSome ↔ s.control.held.isSome := by
  simp [control]

/-- A stop ladder over a held process keeps the handle, or has seen the process end. -/
theorem stopLadder_ends {inner : StopWith} (hinner : Advances inner) (hheld : s.running.isSome)
    (terminalDrain : Option Bool) :
    (stopLadder env inner s terminalDrain).2.running.isSome ∨
      (stopLadder env inner s terminalDrain).2.Ended env := by
  obtain ⟨h, hrun⟩ := Option.isSome_iff_exists.1 hheld
  unfold stopLadder
  simp only [hrun]
  cases hanswer : (s.now env).stop with
  | unconfirmed => exact .inl (by simp [onHandle, hrun])
  | failed => exact .inl (by simp [hrun])
  | stopped forced =>
      refine .inr ⟨s.clock, forced, hanswer, ?_⟩
      exact (clock_conduct env).finishStop hinner s.tick forced terminalDrain

variable (env) in
/-- A stop of a held process keeps the handle, or has seen the process end. -/
theorem stop_ends (hwf : s.control.Wf) (hheld : s.running.isSome)
    (hrow : s.disk.state = some .running ∨ s.disk.state = some .paused) :
    (s.stop env).2.running.isSome ∨ (s.stop env).2.Ended env := by
  obtain ⟨state, hstate, hprior⟩ : ∃ state, s.disk.state = some state ∧
      (state = .running ∨ state = .paused) := by
    rcases hrow with hrow | hrow <;> exact ⟨_, hrow, by simp⟩
  have hstop : Advances fun cause s => stopInner env 1 s (some cause) none :=
    fun cause s => (clock_conduct env).stopInner 1 s _ _
  have hstops : Stops env.faults fun cause s => stopInner env 1 s (some cause) none :=
    fun cause s hwf => stopInner_move env 1 s _ _ hwf
  change (stopStep env (fun cause s => stopInner env 1 s (some cause) none) s none none
    ).2.running.isSome ∨ (stopStep env _ s none none).2.Ended env
  have hreacquire : s.reacquire env = s := by
    obtain ⟨h, hrun⟩ := Option.isSome_iff_exists.1 hheld
    simp [reacquire, hrun]
  have hgate : ¬ (state = .stopping ∧ s.running.any Supervised.stopUnconfirmed) := by
    rintro ⟨rfl, -⟩
    simp at hprior
  have hnext : nextState state .stop = some .stopping := by
    rcases hprior with rfl | rfl <;> rfl
  unfold stopStep
  simp only [hstate, if_neg hgate, hnext, hreacquire]
  rcases ensureLogDir_cases s env with hlog | hlog
  · rw [hlog, andThen_none]
    rcases transition_cases (s := s.tick) (by rw [disk_tick, hstate]; simp) env state .stopping
        (.command "stop") with ⟨s₁, h₁, hc₁⟩ | ⟨-, err, s₁, h₁, hc₁⟩
    · rw [Option.getD_none, h₁, andThen_none]
      refine stopLadder_ends hstop ?_ none
      have hq : (s₁.resumeBeforeStop state).control.Quiet := by
        rw [control_resumeBeforeStop, hc₁]
        exact hwf.quiet hstate hprior _
      have hkept := (drainTerminal_governed env hstops _ hq.wf).quiet hq
      rw [isSome_running_iff, hkept, control_resumeBeforeStop, hc₁]
      exact isSome_running_iff.1 hheld
    · rw [Option.getD_none, h₁, andThen_some]
      refine .inl ?_
      rw [isSome_running_iff, hc₁]
      exact isSome_running_iff.1 hheld
  · rw [hlog, andThen_some]
    exact .inl hheld

variable (env) in
/-- A stop leaves the row where there was one. -/
theorem state_stop (hwf : s.control.Wf) (hrow : s.disk.state ≠ none) :
    (s.stop env).2.disk.state ≠ none := by
  have hm := stop_move env hwf
  rw [← state_control] at hrow ⊢
  generalize (s.stop env).2.control = c' at hm ⊢
  have hend : ∀ {f : Faults} {b c' : Control}, b.state ≠ none → Control.StopEnd f b c' →
      c'.state ≠ none := by
    intro f b c' hb hend
    cases hend with
    | unconfirmed _ _ => exact hb
    | failed _ _ => exact hb
    | unsettled _ => exact hb
    | unrecorded _ => exact hb
    | ended cause => simp
  cases hm with
  | kept => exact hrow
  | refused _ _ _ _ he => rw [he.state]; exact hrow
  | stopped e prior cause _ _ _ _ hm => exact hend (by simp) hm
  | healed _ _ _ _ _ hm => exact hend hrow hm

/-- The deletion of a row: it is gone, or nothing has changed. -/
theorem deleteRow_cases (s : Supervisor) (env : Env) (force : Bool) :
    ((s.deleteRow env force).1 = none ∧ (s.deleteRow env force).2.disk.state = none ∧
        (s.deleteRow env force).2.clock = s.clock + 1) ∨
      ((s.deleteRow env force).1 ≠ none ∧ s.clock ≤ (s.deleteRow env force).2.clock ∧
        (s.deleteRow env force).2.disk = s.disk ∧
        (s.deleteRow env force).2.running = s.running) := by
  unfold deleteRow
  cases hrow : s.disk.state with
  | none => exact .inr ⟨by simp, le_rfl, rfl, rfl⟩
  | some state =>
      dsimp only
      split
      · exact .inr ⟨by simp, le_rfl, rfl, rfl⟩
      · rcases job_cases s env { s.disk with
            state := none
            events := []
            record := none
            generation := 0
            books := s.disk.books.deleteInstance s.name } with h | ⟨-, err, h⟩
        · rw [h]
          exact .inl ⟨rfl, rfl, rfl⟩
        · rw [h]
          exact .inr ⟨by simp, Nat.le_succ _, rfl, rfl⟩

/-- What a removal is made of. -/
theorem remove_eq (s : Supervisor) (env : Env) (force : Bool) :
    s.remove env force = if s.tearsDown force then
        andThen (s.stop env) fun s => s.deleteRow env force
      else s.deleteRow env force := by
  unfold remove tearsDown
  cases hrow : s.disk.state with
  | none => simp [deleteRow, hrow]
  | some state => simp

/-- The row of a torn instance is running or paused. -/
theorem row_of_tearsDown (h : s.tearsDown force = true) :
    s.disk.state = some .running ∨ s.disk.state = some .paused := by
  obtain ⟨state, hrow, hlive⟩ := (Option.any_eq_true _ _).1 h
  rw [hrow]
  simp only [Bool.and_eq_true, Bool.or_eq_true, decide_eq_true_eq] at hlive
  exact hlive.1.imp (congrArg some) (congrArg some)

/-- A row that is deleted without a teardown stands over no process, if the removal reaches it. -/
theorem dead_of_untorn {alive : Bool} (hreaches : s.Reaches force alive = true)
    (htorn : ¬ s.tearsDown force = true) (hok : (s.deleteRow env force).1 = none) :
    alive = false := by
  unfold Reaches at hreaches
  unfold tearsDown at htorn
  cases hrow : s.disk.state with
  | none => simp [deleteRow, hrow] at hok
  | some state =>
      simp only [hrow] at hreaches htorn
      cases state with
      | running =>
          cases force with
          | true => exact absurd rfl htorn
          | false => simp [deleteRow, hrow, removable] at hok
      | paused => exact absurd (by simp [removable]) htorn
      | registered => simpa using hreaches
      | starting => simpa using hreaches
      | stopping => simpa using hreaches
      | stopped => simpa using hreaches
      | failed => simpa using hreaches

/-- A torn instance without a handle has no process, if the removal reaches it. -/
theorem held_of_torn (hreaches : s.Reaches force true = true) (htorn : s.tearsDown force = true) :
    s.running.isSome := by
  unfold Reaches at hreaches
  rcases row_of_tearsDown htorn with hrow | hrow
  · have hforce : force = true := by
      cases force with
      | true => rfl
      | false => simp [tearsDown, hrow, removable] at htorn
    simpa [hrow, hforce] using hreaches
  · simpa [hrow] using hreaches

/-- **A removal that reaches the process deletes the row over none.** -/
theorem remove_dead {w : World} {alive : Bool} (hwf : s.control.Wf)
    (hreaches : s.Reaches force alive = true) (halive : w.live s.clock → alive = true)
    (hok : (s.remove w.env force).1 = none) {k : ℕ}
    (hk : k + 1 = (s.remove w.env force).2.clock) : ¬ w.live k := by
  intro hlive
  rw [remove_eq] at hok hk
  by_cases htorn : s.tearsDown force = true
  · rw [if_pos htorn] at hok hk
    have hclock := (clock_conduct w.env).stopInner stopDepth s none none
    rcases hs : s.stop w.env with ⟨_ | err, s₁⟩
    · rw [hs, andThen_none] at hok hk
      have hle : s.clock ≤ s₁.clock := by
        change s.clock ≤ (s.stop w.env).2.clock at hclock
        rwa [hs] at hclock
      obtain ⟨-, -, hclock₁⟩ :=
        (deleteRow_cases s₁ w.env force).resolve_right fun hfail => hfail.1 hok
      obtain rfl : k = s₁.clock := by omega
      obtain rfl : alive = true := halive (w.live_of_le hle hlive)
      have hends := stop_ends w.env hwf (held_of_torn hreaches htorn)
        (row_of_tearsDown htorn)
      have hfree : s₁.running = none := running_of_stopInner w.env stopDepth s s₁ none none hs
      rw [hs] at hends
      rcases hends with hheld | hended
      · simp [hfree] at hheld
      · exact hended.dead le_rfl hlive
    · rw [hs, andThen_some] at hok
      exact nomatch hok
  · rw [if_neg htorn] at hok hk
    obtain ⟨-, -, hclock⟩ :=
      (deleteRow_cases s w.env force).resolve_right fun hfail => hfail.1 hok
    obtain rfl : k = s.clock := by omega
    have hdead := dead_of_untorn hreaches htorn hok
    rw [halive hlive] at hdead
    exact nomatch hdead

/-- A removal that succeeds leaves no row, and its last moment is the deletion. -/
theorem remove_deleted (hok : (s.remove env force).1 = none) :
    (s.remove env force).2.disk.state = none ∧ ∃ k, k + 1 = (s.remove env force).2.clock := by
  rw [remove_eq] at hok ⊢
  have hdelete : ∀ s : Supervisor, (s.deleteRow env force).1 = none →
      (s.deleteRow env force).2.disk.state = none ∧
        ∃ k, k + 1 = (s.deleteRow env force).2.clock := by
    intro s hok
    obtain ⟨-, hgone, hclock⟩ :=
      (deleteRow_cases s env force).resolve_right fun hfail => hfail.1 hok
    exact ⟨hgone, s.clock, hclock.symm⟩
  split at hok
  · rename_i htorn
    rw [if_pos htorn]
    rcases hs : s.stop env with ⟨_ | err, s₁⟩
    · rw [hs, andThen_none] at hok
      exact hdelete s₁ hok
    · rw [hs, andThen_some] at hok
      exact nomatch hok
  · rename_i htorn
    rw [if_neg htorn]
    exact hdelete s hok

/-- A removal that fails over a row that is still there holds what it held, or has seen the process
end. -/
theorem remove_failed (hwf : s.control.Wf) (hheld : s.running.isSome)
    (hfail : (s.remove env force).1 ≠ none) :
    (s.remove env force).2.running.isSome ∨ (s.remove env force).2.Ended env := by
  rw [remove_eq] at hfail ⊢
  split at hfail
  · rename_i htorn
    rw [if_pos htorn]
    have hends := stop_ends env hwf hheld (row_of_tearsDown htorn)
    rcases hs : s.stop env with ⟨_ | err, s₁⟩
    · rw [hs, andThen_none] at hfail
      rw [hs] at hends
      rw [andThen_none]
      obtain ⟨-, hle, -, hrun⟩ :=
        (deleteRow_cases s₁ env force).resolve_left fun hok => hfail hok.1
      rcases hends with hheld₁ | ⟨j, forced, hanswer, hj⟩
      · exact .inl (hrun ▸ hheld₁)
      · exact .inr ⟨j, forced, hanswer, hj.trans_le hle⟩
    · rw [hs] at hends
      exact hends
  · rename_i htorn
    rw [if_neg htorn]
    obtain ⟨-, -, -, hrun⟩ := (deleteRow_cases s env force).resolve_left fun hok => hfail hok.1
    exact .inl (hrun ▸ hheld)

/-- A teardown that fails deletes nothing. -/
theorem remove_torn (hwf : s.control.Wf) (htorn : s.tearsDown force = true)
    (hfail : (s.stop env).1 ≠ none) : (s.remove env force).2.disk.state ≠ none := by
  have hrow : s.disk.state ≠ none := by
    rcases row_of_tearsDown htorn with hrow | hrow <;> simp [hrow]
  have hstate := state_stop env hwf hrow
  rw [remove_eq, if_pos htorn]
  rcases hs : s.stop env with ⟨_ | err, s₁⟩
  · rw [hs] at hfail
    exact absurd rfl hfail
  · rw [hs] at hstate
    exact hstate

/-! ### A process that is not reached -/

theorem drainSelfReportedFor_free {inner : StopWith} (hfree : s.running = none)
    (mode : DrainMode) : drainSelfReportedFor env inner s mode = s := by
  simp [drainSelfReportedFor, drainChannelUsageFor, hfree]

theorem drainTerminal_free {inner : StopWith} (hfree : s.running = none) :
    drainTerminal env inner s = s := by
  rw [drainTerminal, drainSelfReportedFor_free hfree]
  simp [drainObservedFor, hfree]

/-- The store writes, the log directory is there, and no process is found again. -/
structure Blind (env : Env) : Prop where
  writes : ¬ env.faults.write
  logDir : ∀ k, (env k).logDir = true
  unfound : ∀ k, (env k).adopt ≠ .held

/-- Without a process to find, a stop settles the row without reaching one. -/
theorem stop_unheld (hblind : Blind env) (hfree : s.running = none)
    (hrow : s.disk.state = some .running ∨ s.disk.state = some .paused) :
    ∃ s', s.stop env = (none, s') ∧ s'.disk.state = some .stopped := by
  obtain ⟨state, hstate, hprior⟩ : ∃ state, s.disk.state = some state ∧
      (state = .running ∨ state = .paused) := by
    rcases hrow with hrow | hrow <;> exact ⟨_, hrow, by simp⟩
  have hgate : ¬ (state = .stopping ∧ s.running.any Supervised.stopUnconfirmed) := by
    rintro ⟨rfl, -⟩
    simp at hprior
  have hnext : nextState state .stop = some .stopping := by
    rcases hprior with rfl | rfl <;> rfl
  -- nothing is found to hold, so the stop has no process to reach
  have hreacquire : (s.reacquire env).running = none ∧
      (s.reacquire env).disk.state = some state := by
    unfold reacquire
    split
    · split
      · rename_i hfound
        exact absurd hfound (hblind.unfound s.clock)
      · exact ⟨hfree, hstate⟩
    · exact ⟨hfree, hstate⟩
  have hlog : ∀ t : Supervisor, t.ensureLogDir env = (none, t.tick) := fun t =>
    if_pos (hblind.logDir t.clock)
  change ∃ s', stopStep env (fun cause s => stopInner env 1 s (some cause) none) s none none
    = (none, s') ∧ _
  unfold stopStep
  simp only [hstate, if_neg hgate, hnext, hlog, andThen_none]
  obtain ⟨hfree₁, hrow₁⟩ := hreacquire
  rcases transition_cases (s := (s.reacquire env).tick) (by rw [disk_tick, hrow₁]; simp) env state
      .stopping (.command "stop") with ⟨s₁, h₁, hc₁⟩ | ⟨hw, -⟩
  · rw [Option.getD_none, h₁, andThen_none]
    have hfree₂ : s₁.running = none := by
      have hkept := congrArg Control.held hc₁
      simpa [control, hfree₁] using hkept
    have hresume : s₁.resumeBeforeStop state = s₁ := by
      simp [resumeBeforeStop, resumesBeforeStop, hfree₂]
    rw [hresume, drainTerminal_free hfree₂, stopLadder, hfree₂]
    dsimp only
    rw [finishStop, drainSelfReportedFor_free hfree₂]
    rcases settleSpawnRecord_cases s₁.dropHandle env with ⟨s₂, h₂, hc₂⟩ | ⟨hw, -⟩
    · rw [h₂, andThen_none]
      have hrow₂ : s₂.disk.state ≠ none := by
        rw [← state_control, hc₂, Control.state_settled, control_dropHandle, hc₁]
        simp
      rcases transition_cases hrow₂ env .stopping .stopped (stopCause false none) with
        ⟨s₃, h₃, hc₃⟩ | ⟨hw, -⟩
      · refine ⟨s₃, h₃, ?_⟩
        rw [← state_control, hc₃, Control.state_moved]
      · exact absurd hw hblind.writes
    · exact absurd hw hblind.writes
  · exact absurd hw hblind.writes

/-- With a store that writes, a row that may go goes. -/
theorem deleteRow_goes (hblind : Blind env) {state : LifecycleState}
    (hrow : s.disk.state = some state) (hgoes : force = true ∨ removable state = true) :
    (s.deleteRow env force).1 = none := by
  unfold deleteRow
  simp only [hrow]
  have hguard : ¬ (!force && !removable state) = true := by
    rcases hgoes with hgoes | hgoes <;> simp [hgoes]
  rw [if_neg hguard]
  rcases job_cases s env { s.disk with
      state := none
      events := []
      record := none
      generation := 0
      books := s.disk.books.deleteInstance s.name } with h | ⟨hw, -⟩
  · rw [h]
    rfl
  · exact absurd hw hblind.writes

/-- A removal that does not reach the process may still succeed. -/
theorem remove_unreached (force : Bool) (hblind : Blind env)
    (hreaches : s.Reaches force true ≠ true) :
    (s.remove env force).1 = none := by
  rw [remove_eq]
  have hgoes : ∀ s : Supervisor, s.disk.state = some .stopped →
      (s.deleteRow env force).1 = none := fun s hrow =>
    deleteRow_goes hblind hrow (.inr rfl)
  unfold Reaches at hreaches
  cases hrow : s.disk.state with
  | none => simp [hrow] at hreaches
  | some state =>
      by_cases hprior : state = .running ∨ state = .paused
      · have hfree : s.running = none := by
          rcases hprior with rfl | rfl <;> simp_all
        have hforce : force = true ∨ state = .paused := by
          rcases hprior with rfl | rfl
          · exact .inl (by simp_all)
          · exact .inr rfl
        have htorn : s.tearsDown force = true := by
          rcases hprior with rfl | rfl
          · have hforce := hforce.resolve_right (by simp)
            simp [tearsDown, hrow, hforce]
          · simp [tearsDown, hrow, removable]
        obtain ⟨s', hs, hstopped⟩ := stop_unheld hblind hfree
          (by rw [hrow]; exact hprior.imp (congrArg some) (congrArg some))
        rw [if_pos htorn, hs, andThen_none]
        exact hgoes s' hstopped
      · have htorn : ¬ s.tearsDown force = true := by
          intro htorn
          have hlive := row_of_tearsDown htorn
          rw [hrow] at hlive
          exact hprior (hlive.imp Option.some.inj Option.some.inj)
        rw [if_neg htorn]
        refine deleteRow_goes hblind hrow (.inr ?_)
        simp only [removable, ne_eq, decide_eq_true_eq]
        exact fun h => hprior (.inl h)

end Supervisor

/-! ### What a removal promises -/

variable {p : Site} {w : World} {disposition : RemoveDisposition} {force treeGone : Bool}

theorem Site.engine_remove (p : Site) (env : Env) (disposition : RemoveDisposition)
    (force treeGone : Bool) :
    (p.remove env disposition force treeGone).2.engine = (p.engine.remove env force).2 := by
  unfold Site.remove
  rcases p.engine.remove env force with ⟨_ | err, s⟩
  · cases disposition with
    | retain => rfl
    | delete => cases treeGone <;> rfl
  · rfl

theorem Site.remove_succeeds {env : Env}
    (h : (p.remove env disposition force treeGone).1 = none) :
    (p.engine.remove env force).1 = none := by
  unfold Site.remove at h
  rcases hr : p.engine.remove env force with ⟨_ | err, s⟩
  · rfl
  · rw [hr] at h
    exact nomatch h

/-- A removal that deletes no row does not touch the home. -/
theorem Site.home_remove {env : Env} (h : (p.engine.remove env force).1 ≠ none) :
    (p.remove env disposition force treeGone).2.home = p.home := by
  unfold Site.remove
  rcases hr : p.engine.remove env force with ⟨_ | err, s⟩
  · rw [hr] at h
    exact absurd rfl h
  · rfl

/-- A removal that reaches the process keeps its promise. -/
theorem clean_of_reaches {alive : Bool} (hwf : p.engine.control.Wf)
    (hreaches : p.engine.Reaches force alive = true)
    (halive : w.live p.engine.clock → alive = true) : Clean w p disposition force treeGone where
  dead := by
    intro hok k hk
    rw [Site.engine_remove] at hk
    exact Supervisor.remove_dead hwf hreaches halive (Site.remove_succeeds hok) hk
  unlaunchable := by
    intro hok
    rw [Site.engine_remove]
    exact Supervisor.restart_refused (hwf.remove (Supervisor.remove_move w.env hwf force))
      (Supervisor.remove_deleted (Site.remove_succeeds hok)).1
  torn := by
    intro htorn hfail
    rw [Site.engine_remove]
    exact Supervisor.remove_torn hwf htorn hfail
  failed := by
    intro _ hrow
    rw [Site.engine_remove] at hrow ⊢
    have hfail : (p.engine.remove w.env force).1 ≠ none := fun hok =>
      hrow (Supervisor.remove_deleted hok).1
    refine ⟨Site.home_remove hfail, fun hheld hlive => ?_⟩
    exact (Supervisor.remove_failed hwf hheld hfail).resolve_right fun hended =>
      hended.dead le_rfl hlive

/-- A world in which the process outlives every stop. -/
def World.immortal : World where
  env := fun _ => { stop := .unconfirmed, adopt := .unreadable }
  live := fun _ => True
  dead_stays := fun _ _ => trivial
  stopped := fun _ _ h => nomatch h
  exited := fun _ _ h => nomatch h
  gone := fun _ h => nomatch h

theorem blind_immortal : Supervisor.Blind World.immortal.env :=
  ⟨fun ⟨_, h⟩ => h rfl, fun _ => rfl, fun _ h => nomatch h⟩

/-- **A removal keeps its promise in every world just when it reaches the process**, from every
state of every run. -/
theorem remove_clean_iff (name : InstanceName) (steps : List Supervisor.Step) (t : Supervisor)
    (ht : t ∈ Guarded.states Supervisor.step (Supervisor.fresh name) steps) (home : Bool)
    (force alive : Bool) :
    (∀ (w : World) (disposition : RemoveDisposition) (treeGone : Bool),
      (w.live t.clock → alive = true) → Clean w ⟨t, home⟩ disposition force treeGone) ↔
    t.Reaches force alive = true := by
  have hwf := Supervisor.wf_states ht
  constructor
  · intro hclean
    by_contra hreaches
    have halive : alive = true := by
      by_contra halive
      refine hreaches ?_
      simp only [Bool.not_eq_true] at halive
      subst halive
      unfold Supervisor.Reaches
      split <;> simp
    subst halive
    have hok := Supervisor.remove_unreached force blind_immortal hreaches
    obtain ⟨-, k, hk⟩ := Supervisor.remove_deleted hok
    have hsite : (Site.remove ⟨t, home⟩ World.immortal.env .retain force true).1 = none := by
      unfold Site.remove
      rcases hr : t.remove World.immortal.env force with ⟨_ | err, s⟩
      · rfl
      · rw [hr] at hok
        exact nomatch hok
    refine (hclean World.immortal .retain true fun _ => rfl).dead hsite k ?_ trivial
    rw [Site.engine_remove]
    exact hk
  · intro hreaches w disposition treeGone halive
    exact clean_of_reaches hwf hreaches halive

/-- A launch, and a stop that could not be confirmed. -/
def stuckRun : List Supervisor.Step :=
  [(.register Supervisor.plainConfig, fun _ => {}), (.start false, fun _ => {}),
    (.stop, fun _ => { stop := .unconfirmed })]

/-- A launch. -/
def launchedRun : List Supervisor.Step :=
  [(.register Supervisor.plainConfig, fun _ => {}), (.start false, fun _ => {})]

theorem remove_clean_iff_running :
    Clean World.immortal ⟨(Supervisor.fresh "a").runSteps launchedRun, true⟩ .delete true true := by
  have h := remove_clean_iff "a" launchedRun _ Guarded.last_mem_states true true true
  exact h.2 (by decide +kernel) World.immortal .delete true fun _ => rfl

/-- **The row of a stop that could not be confirmed is deleted over the living process**, whose
handle the engine still holds. -/
theorem remove_stuck :
    ∃ w : World, w.live ((Supervisor.fresh "a").runSteps stuckRun).clock ∧
      ¬ Clean w ⟨(Supervisor.fresh "a").runSteps stuckRun, true⟩ .retain false true ∧
      (Site.remove ⟨(Supervisor.fresh "a").runSteps stuckRun, true⟩ w.env .retain false true
        ).2.engine.running.isSome := by
  refine ⟨World.immortal, trivial, fun h => ?_, by decide +kernel⟩
  have hclock : (Site.remove ⟨(Supervisor.fresh "a").runSteps stuckRun, true⟩ World.immortal.env
      .retain false true).2.engine.clock
    = ((Supervisor.fresh "a").runSteps stuckRun).clock + 1 := by decide +kernel
  exact h.dead (by decide +kernel) _ hclock.symm trivial

end Hekma
