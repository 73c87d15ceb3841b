/-
**The handle and the row** (`domain/supervisor/reaper.rs`, `domain/supervisor/lifecycle.rs`).

The engine holds a handle exactly while it supervises a process, and the row of the instance says
what it holds.  Two state machines write that row inside one call: the end of a process, and the
Breach Actions of the usage that is drained at that end.  They leave the row behind in two cases
only: the last drains of an expired liveness window pause the instance, or a stop ends in an error
of the backend, which marks nothing.

Main definitions:

* `Control.Agrees` — the row of a held handle is running, paused, or stopping unconfirmed;
* `Control.Tidy` — what an operation leaves: agreement, and no live row without a handle;
* `Supervisor.expiryActs`, `Supervisor.Orderly` — the expiry that goes wrong, and the steps without.

Main results:

* `Control.Tidy.enforced`, `tidy_step` — Breach Actions are tidy, and so is every orderly step;
* `agrees_openEngine`, `agrees_states` — handle and row agree in every orderly run of one engine.
-/

import Hekma.Supervisor.Engine

set_option relaxedAutoImplicit false
set_option autoImplicit false

namespace Hekma

namespace Control

/-- The row of a held handle is running, paused, or stopping with an unconfirmed stop. -/
def Agrees (c : Control) : Prop :=
  ∀ h, c.held = some h → c.state = some .running ∨ c.state = some .paused ∨
    c.state = some .stopping ∧ h.stopUnconfirmed = true

/-- The row says that there is a process. -/
def Live (c : Control) : Prop :=
  c.state = some .starting ∨ c.state = some .running ∨ c.state = some .paused ∨
    c.state = some .stopping

/-- The instance has never been started. -/
def Unstarted (c : Control) : Prop := c.state = none ∨ c.state = some .registered

/-- What an operation leaves behind.  A live row without a handle was one before. -/
structure Tidy (c c' : Control) : Prop where
  agrees : c'.Agrees
  vacant : c'.held = none → c'.Live → c.held = none ∧ c.Live
  unstarted : c'.Unstarted → c.Unstarted

variable {f : Faults} {b c c' c'' m : Control}

theorem agrees_of_free (h : c.held = none) : c.Agrees := by
  intro x hx
  rw [h] at hx
  exact absurd hx (by simp)

theorem agrees_of_running (h : c.state = some .running ∨ c.state = some .paused) : c.Agrees :=
  fun _ _ => h.imp id .inl

/-- A row without a process has no handle. -/
theorem Agrees.free (h : c.Agrees) (hrow : ¬ c.Live) : c.held = none := by
  rw [Option.eq_none_iff_forall_ne_some]
  intro x hx
  refine hrow ?_
  rcases h x hx with hrow | hrow | ⟨hrow, -⟩ <;> simp [Live, hrow]

theorem Agrees.free_of_starting (h : c.Agrees) (hrow : c.state = some .starting) :
    c.held = none := by
  rw [Option.eq_none_iff_forall_ne_some]
  intro x hx
  have hx := h x hx
  simp [hrow] at hx

/-- A process that could be launched is not there yet. -/
theorem Agrees.free_of_start {prior : LifecycleState} (h : c.Agrees) (hrow : c.state = some prior)
    (hprior : (nextState prior .start).isSome) : c.held = none := by
  refine h.free ?_
  rcases (nextState_start prior).1 hprior with rfl | rfl | rfl <;> simp [Live, hrow]

theorem Tidy.refl (h : c.Agrees) : Tidy c c := ⟨h, fun hheld hlive => ⟨hheld, hlive⟩, id⟩

theorem Tidy.trans (h : Tidy c c') (h' : Tidy c' c'') : Tidy c c'' where
  agrees := h'.agrees
  vacant hheld hlive := h.vacant (h'.vacant hheld hlive).1 (h'.vacant hheld hlive).2
  unstarted hrow := h.unstarted (h'.unstarted hrow)

/-- An operation that ends with a handle, or with a row that has no process. -/
theorem Tidy.of_settled (h : c'.Agrees) (hend : c'.held ≠ none ∨ ¬ c'.Live)
    (hstarted : ¬ c'.Unstarted) : Tidy c c' where
  agrees := h
  vacant hheld hlive := by rcases hend with hend | hend <;> contradiction
  unstarted hrow := absurd hrow hstarted

/-- An operation that ends in a terminal row without a handle. -/
theorem Tidy.of_terminal (hheld : c'.held = none)
    (hrow : c'.state = some .stopped ∨ c'.state = some .failed) : Tidy c c' := by
  refine .of_settled (agrees_of_free hheld) (.inr ?_) ?_ <;>
    rcases hrow with hrow | hrow <;> simp [Live, Unstarted, hrow]

/-- Nothing but the record, the plans and the mark of a pause has changed. -/
theorem Tidy.congr (h : Tidy c c') (hstate : c''.state = c'.state)
    (hheld : c''.held.map Held.stopUnconfirmed = c'.held.map Held.stopUnconfirmed) :
    Tidy c c'' := by
  refine ⟨?_, ?_, ?_⟩
  · intro x hx
    rw [hx, Option.map_some, eq_comm, Option.map_eq_some_iff] at hheld
    obtain ⟨y, hy, hflag⟩ := hheld
    rw [hstate, ← hflag]
    exact h.agrees y hy
  · intro hfree hlive
    rw [hfree, Option.map_none, eq_comm, Option.map_eq_none_iff] at hheld
    refine h.vacant hheld ?_
    simpa only [Live, hstate] using hlive
  · intro hrow
    refine h.unstarted ?_
    simpa only [Unstarted, hstate] using hrow

/-- **A dropped handle leaves a terminal row.** -/
theorem Tidy.terminal (h : Tidy c c') (hagrees : c.Agrees) (hheld : c.held ≠ none)
    (hfree : c'.held = none) : c'.state = some .stopped ∨ c'.state = some .failed := by
  have hlive : ¬ c'.Live := fun hlive => hheld (h.vacant hfree hlive).1
  have hstarted : ¬ c'.Unstarted := by
    intro hrow
    refine hheld (hagrees.free ?_)
    rcases h.unstarted hrow with hrow | hrow <;> simp [Live, hrow]
  simp only [Live, Unstarted, not_or] at hlive hstarted
  cases hstate : c'.state with
  | none => exact absurd hstate hstarted.1
  | some state => cases state <;> simp_all

/-! ### Breach Actions -/

/-- A pause or a resume moves the row between two states of a process. -/
theorem Tidy.suspend {command : LifecycleCommand} {verb : Bool} (h : c.Agrees)
    (hm : SuspendMove command verb c c') : Tidy c c' := by
  have hbetween : ∀ {prior new : LifecycleState} (cause : TransitionCause),
      c.state = some prior → prior = .running ∨ prior = .paused → new = .running ∨ new = .paused →
      Tidy c (c.moved prior new cause) := by
    intro prior new cause hrow hprior hnew
    refine ⟨agrees_of_running (by simpa using hnew), fun hheld _ => ⟨hheld, ?_⟩, fun hrow' => ?_⟩
    · rcases hprior with rfl | rfl <;> simp [Live, hrow]
    · rcases hnew with rfl | rfl <;> simp [Unstarted] at hrow'
  cases hm with
  | kept => exact .refl h
  | suspended cause _ hrow _ => exact hbetween cause hrow (.inl rfl) (.inr rfl)
  | cooperated _ _ hrow =>
      refine (hbetween .pauseCooperative hrow (.inl rfl) (.inr rfl)).congr rfl ?_
      simp [marked, Function.comp_def]
  | resumed cause _ hrow =>
      refine (hbetween cause hrow (.inr rfl) (.inl rfl)).congr rfl ?_
      simp [marked, Function.comp_def]

/-- A stop that does not fail ends the process, or marks its handle. -/
theorem Tidy.stopEnd (hw : ¬ f.write) (hf : ¬ f.stopFailed) (hrow : b.state = some .stopping)
    (h : StopEnd f b c') : Tidy c c' := by
  cases h with
  | unconfirmed _ hheld =>
      refine .of_settled ?_ (.inl (by simpa [stuck] using hheld)) (by simp [Unstarted, stuck, hrow])
      intro x hx
      obtain ⟨y, hy, rfl⟩ := Option.map_eq_some_iff.1 hx
      exact .inr (.inr ⟨hrow, rfl⟩)
  | failed hf' _ => exact absurd hf' hf
  | unsettled hw' => exact absurd hw' hw
  | unrecorded hw' => exact absurd hw' hw
  | ended cause => exact .of_terminal rfl (.inl rfl)

theorem Tidy.stop (hw : ¬ f.write) (hf : ¬ f.stopFailed) (h : c.Agrees) (hm : StopMove f c c') :
    Tidy c c' := by
  cases hm with
  | kept => exact .refl h
  | refused _ prior hrow hprior he =>
      cases he with
      | same => exact .refl h
      | reacquired runId generation _ _ _ =>
          have hrunning : c.state = some .running ∨ c.state = some .paused := by
            rcases hprior with rfl | rfl <;> simp [hrow]
          refine .of_settled (agrees_of_running hrunning) (.inl (by simp [reacquired])) ?_
          rcases hrunning with hrow | hrow <;> simp [Unstarted, hrow]
  | stopped e prior cause _ _ _ _ hend => exact Tidy.stopEnd hw hf rfl hend
  | healed x _ hrow _ _ hend => exact Tidy.stopEnd (f := f.settling) hw id hrow hend

/-- Whatever Breach Actions a drain executes, they are tidy. -/
theorem Tidy.enforced (hw : ¬ f.write) (hf : ¬ f.stopFailed) (h : c.Agrees)
    (he : Enforced f c c') : Tidy c c' := by
  induction he with
  | refl => exact .refl h
  | tail _ hstep ih =>
      cases hstep with
      | pause hm => exact ih.trans (Tidy.suspend ih.agrees hm)
      | stop hm => exact ih.trans (Tidy.stop hw hf ih.agrees hm)

/-! ### The operations -/

theorem Tidy.launch (hw : ¬ f.write) (hf : ¬ f.stopFailed) (hfree : b.held = none)
    (h : LaunchEnd f b c') : Tidy c c' := by
  cases h with
  | failed r cause => exact .of_terminal hfree (.inr rfl)
  | stranded hw' r => exact absurd hw' hw
  | crashed r plan => exact .of_terminal hfree (.inr rfl)
  | crashedStranded hw' r plan => exact absurd hw' hw
  | launched r cause runId generation _ h =>
      have hrunning : Agrees (((b.withRecord r).moved .starting .running cause).holding
          ⟨runId, generation, false, false, false⟩) := agrees_of_running (.inl rfl)
      refine Tidy.trans ?_ (Tidy.enforced hw hf hrunning h)
      exact .of_settled hrunning (.inl (by simp [holding])) (by simp [Unstarted, holding])

theorem Tidy.start (hw : ¬ f.write) (hf : ¬ f.stopFailed) (h : c.Agrees)
    (hm : StartMove f c c') : Tidy c c' := by
  cases hm with
  | kept => exact .refl h
  | started prior cause _ hrow hprior hend =>
      exact Tidy.launch hw hf (b := c.moved prior .starting cause) (h.free_of_start hrow hprior) hend

/-- The end of a process, after its last drains. -/
theorem Tidy.exitEnd (hw : ¬ f.write) (h : m.Agrees) (hend : ExitEnd f m c') : Tidy m c' := by
  cases hend with
  | gone hrow hflag =>
      refine ⟨agrees_of_free rfl, fun _ hlive => ⟨?_, hlive⟩, id⟩
      -- a stopping row with a handle is flagged, and this one is not
      rw [Option.eq_none_iff_forall_ne_some]
      intro x hx
      rcases h x hx with hrunning | hpaused | ⟨hstopping, hset⟩
      · exact hrow.1 hrunning
      · exact hrow.2 hpaused
      · rw [hflag hstopping x hx] at hset
        exact absurd hset (by simp)
  | healed x _ hrow _ _ hend => exact Tidy.stopEnd (f := f.settling) hw id hrow hend
  | clean r cause hrow => exact .of_terminal rfl (.inl rfl)
  | failed prior r cause plan hrow hprior => exact .of_terminal rfl (.inr rfl)
  | unrecorded hw' r => exact absurd hw' hw

theorem Tidy.process (hw : ¬ f.write) (hf : ¬ f.stopFailed) (h : c.Agrees)
    (hm : ProcessMove f c c') : Tidy c c' := by
  cases hm with
  | alive m he => exact (Tidy.enforced hw hf h he).congr rfl rfl
  | ended m m' _ he _ he' hend =>
      have hmid : Tidy c m.collected := (Tidy.enforced hw hf h he).congr rfl rfl
      have hlast := Tidy.enforced hw hf hmid.agrees he'
      exact hmid.trans (hlast.trans (Tidy.exitEnd hw hlast.agrees hend))

/-- An expired window, unless its last drains have left the row paused or stopping. -/
theorem Tidy.expireEnd (hw : ¬ f.write) (h : m.Agrees)
    (hquiet : m.state ≠ some .paused ∧ m.state ≠ some .stopping) (hend : ExpireEnd f m c') :
    Tidy m c' := by
  cases hend with
  | failed r plan hrow => exact .of_terminal rfl (.inr rfl)
  | unrecorded hf r =>
      have hrunning : m.state ≠ some .running := hf.resolve_left hw
      refine ⟨agrees_of_free rfl, fun _ hlive => ⟨?_, hlive⟩, id⟩
      have hstarting : m.state = some .starting := by
        rcases hlive with hrow | hrow | hrow | hrow
        · exact hrow
        · exact absurd hrow hrunning
        · exact absurd hrow hquiet.1
        · exact absurd hrow hquiet.2
      exact h.free_of_starting hstarting

theorem Agrees.adopt (hw : ¬ f.write) (hf : ¬ f.stopFailed) (hheld : c.held = none)
    (hfound : f.found → c.state = some .running ∨ c.state = some .paused)
    (hm : AdoptMove f c c') : c'.Agrees := by
  cases hm with
  | kept => exact agrees_of_free hheld
  | adopted runId generation _ _ hf' h =>
      have hrunning : Agrees (c.holding ⟨runId, generation, false, true,
          classifyPauseKind c.events = .cooperative⟩) := agrees_of_running (hfound hf')
      exact (Tidy.enforced hw hf hrunning h).agrees
  | failed prior r _ _ => exact agrees_of_free hheld
  | recorded r _ => exact agrees_of_free hheld

theorem Tidy.register (h : c.Agrees) (hm : RegisterMove c c') : Tidy c c' := by
  cases hm with
  | kept => exact .refl h
  | registered hrow =>
      have hfree : c.held = none := h.free (by simp [Live, hrow])
      exact ⟨agrees_of_free hfree, fun _ hlive => by simp [Live] at hlive, fun _ => .inl hrow⟩

end Control

/-! ### The steps of one engine -/

/-- The operations of an engine that stays open, on an instance that stays registered. -/
def EngineOp.supervises : EngineOp → Bool
  | .remove _ | .close | .openEngine => false
  | _ => true

namespace Supervisor

variable {s t : Supervisor} {env : Env}

/-- The last drains of an expired liveness window have paused the instance, or have begun a stop
that could not be confirmed. -/
def expiryActs (s : Supervisor) (env : Env) : Bool :=
  s.expiring env &&
    (drainTerminal env (stopWithCause env) s.tick).disk.state.any fun state =>
      state = .paused || state = .stopping

/-- A step of one engine whose writes commit, without the two ends that leave the row behind. -/
structure Orderly (s : Supervisor) (x : Step) : Prop where
  supervises : x.1.supervises = true
  committed : ∀ n, (x.2 n).write = .committed
  stops : ∀ n, (x.2 n).stop ≠ .failed
  expiry : x.1 matches .poll → (pollProcess { s with clock := 0 } x.2).expiryActs x.2 = false

theorem Orderly.write {x : Step} (h : s.Orderly x) : ¬ x.2.faults.write :=
  fun ⟨n, hn⟩ => hn (h.committed n)

theorem Orderly.stopFailed {x : Step} (h : s.Orderly x) : ¬ x.2.faults.stopFailed :=
  fun ⟨n, hn⟩ => h.stops n hn

/-- A liveness check whose expiry does not act is tidy. -/
theorem tidy_checkLiveness (hwf : s.control.Wf) (hagrees : s.control.Agrees)
    (hw : ¬ env.faults.write) (hf : ¬ env.faults.stopFailed) (hquiet : s.expiryActs env = false) :
    s.control.Tidy (s.checkLiveness env).control := by
  unfold checkLiveness
  split
  · rename_i hexp
    have hdrain := Control.Tidy.enforced hw hf hagrees
      (drainTerminal_governed env (stopWithCause_stops env) s.tick hwf)
    refine hdrain.trans (Control.Tidy.expireEnd hw hdrain.agrees ?_ (expire_end s.tick env))
    simp only [expiryActs, hexp, Bool.true_and, Option.any_eq_false] at hquiet
    constructor <;> intro hrow <;> simpa using hquiet _ hrow
  · exact .refl hagrees

/-- **An orderly step is tidy.** -/
theorem tidy_step (hwf : s.control.Wf) (hagrees : s.control.Agrees) {x : Step}
    (hx : s.Orderly x) : s.control.Tidy (s.step x).control := by
  have hw := hx.write
  have hf := hx.stopFailed
  have hops := hx.supervises
  have hexpiry := hx.expiry
  obtain ⟨op, env⟩ := x
  by_cases hpoll : op matches .poll
  · -- the two halves of a pass: the guard is about the second one
    cases op <;> simp at hpoll
    have hprocess := pollProcess_move (s := { s with clock := 0 }) env hwf
    have hfirst : s.control.Tidy (pollProcess { s with clock := 0 } env).control :=
      Control.Tidy.process hw hf hagrees hprocess
    exact hfirst.trans (tidy_checkLiveness (Control.Wf.process hwf hprocess) hfirst.agrees hw hf
      (hexpiry rfl))
  · have hmove := step_move hwf (op, env)
    generalize (s.step (op, env)).control = c' at hmove ⊢
    cases hmove with
    | register config _ hm => exact Control.Tidy.register hagrees hm
    | remove force _ hm => exact absurd hops (by simp [EngineOp.supervises])
    | configure config => exact .refl hagrees
    | others books => exact .refl hagrees
    | start detach _ hm => exact Control.Tidy.start hw hf hagrees hm
    | stop _ hm => exact Control.Tidy.stop hw hf hagrees hm
    | pause _ hm => exact Control.Tidy.suspend hagrees hm
    | resume _ hm => exact Control.Tidy.suspend hagrees hm
    | drain _ _ _ hm =>
        cases hm with
        | kept hkept =>
            rw [hkept]
            exact .refl hagrees
        | direct _ _ hm => exact Control.Tidy.stop hw hf hagrees hm
        | cooperated _ hrow hm =>
            have hsuspend : SuspendMove .pause true s.control _ := .cooperated rfl rfl hrow
            have hpaused := Control.Tidy.suspend hagrees hsuspend
            exact hpaused.trans (Control.Tidy.stop hw hf hpaused.agrees hm)
    | poll m _ hm hm' => exact absurd rfl hpoll
    | unplanned i _ => exact .refl hagrees
    | fire i plan _ _ hm =>
        have h := Control.Tidy.start (c := { s.control with plans := s.control.plans.eraseIdx i })
          hw hf hagrees hm
        exact ⟨h.agrees, h.vacant, h.unstarted⟩
    | close m hm => exact absurd hops (by simp [EngineOp.supervises])
    | openEngine _ hm => exact absurd hops (by simp [EngineOp.supervises])

/-- The engine is opened with committed writes and no failed stop, and what it finds is the process
of a running or a paused row. -/
structure OpensOrderly (s : Supervisor) (env : Env) : Prop where
  committed : ∀ n, (env n).write = .committed
  stops : ∀ n, (env n).stop ≠ .failed
  found : ∀ n, (env n).adopt = .held → s.disk.state = some .running ∨ s.disk.state = some .paused

theorem agrees_openEngine (h : s.OpensOrderly env) : (s.openEngine env).control.Agrees := by
  have hw : ¬ env.faults.write := fun ⟨n, hn⟩ => hn (h.committed n)
  have hf : ¬ env.faults.stopFailed := fun ⟨n, hn⟩ => h.stops n hn
  have hmove : AdoptMove env.faults s.control.ended (s.openEngine env).control := openEngine_move
  exact Control.Agrees.adopt hw hf rfl (fun ⟨n, hn⟩ => h.found n hn) hmove

theorem wf_openEngine (s : Supervisor) (env : Env) : (s.openEngine env).control.Wf :=
  Control.Wf.adopt (c := s.control.ended) rfl openEngine_move

/-- Orderly runs keep the agreement. -/
theorem agrees_states {steps : List Step} (hwf : s.control.Wf) (h : s.control.Agrees)
    (hguard : Guarded.Meets step Orderly s steps) (ht : t ∈ Guarded.states step s steps) :
    t.control.Wf ∧ t.control.Agrees := by
  refine Guarded.invariant (P := fun s => s.control.Wf ∧ s.control.Agrees)
    (fun s x h hx => ?_) ⟨hwf, h⟩ hguard ht
  exact ⟨h.1.step (step_move h.1 x), (tidy_step h.1 h.2 hx).agrees⟩

/-- **Handle and row agree in every run of one engine**, over any store it is opened over: after
every operation a held handle has its row, a handle that an operation dropped has left a terminal
row, and a live row without a handle is one the operation found. -/
theorem handleRow_agree (s : Supervisor) (env : Env) (hopen : s.OpensOrderly env)
    (steps : List Step) (hguard : Guarded.Meets step Orderly (s.openEngine env) steps)
    (t : Supervisor) (ht : t ∈ Guarded.states step (s.openEngine env) steps) :
    t.control.Agrees ∧ ∀ x, t.Orderly x →
      (t.step x).control.Agrees ∧
      (t.running.isSome → (t.step x).running = none →
        (t.step x).disk.state = some .stopped ∨ (t.step x).disk.state = some .failed) ∧
      ((t.step x).running = none → (t.step x).control.Live → t.running = none ∧ t.control.Live) := by
  obtain ⟨hwf, hagrees⟩ := agrees_states (wf_openEngine s env) (agrees_openEngine hopen) hguard ht
  refine ⟨hagrees, fun x hx => ?_⟩
  have htidy := tidy_step hwf hagrees hx
  refine ⟨htidy.agrees, fun hheld hfree => ?_, fun hfree hlive => ?_⟩
  · refine htidy.terminal hagrees ?_ (by simp [control, hfree])
    obtain ⟨h, hrun⟩ := Option.isSome_iff_exists.1 hheld
    exact held_of_running hrun
  · obtain ⟨hheld, hlive'⟩ := htidy.vacant (by simp [control, hfree]) hlive
    exact ⟨by simpa [control] using hheld, hlive'⟩

/-- The engine over an empty store. -/
def opened : Supervisor := (fresh "a").openEngine fun _ => { adopt := .gone }

/-- A launch, an exit, and a relaunch that is stopped. -/
def orderlyRun : List Step :=
  [(.register plainConfig, fun _ => {}), (.start false, fun _ => {}),
    (.poll, fun _ => { poll := .exited none }), (.fire 0, fun _ => {}), (.pause, fun _ => {}),
    (.stop, fun _ => ({} : Moment))]

theorem handleRow_agree_orderly : (opened.runSteps orderlyRun).control.Agrees := by
  have hpoll : (pollProcess { opened.runSteps (orderlyRun.take 2) with clock := 0 }
      fun _ => { poll := .exited none }).expiryActs (fun _ => { poll := .exited none }) = false := by
    decide +kernel
  refine (handleRow_agree (fresh "a") (fun _ => { adopt := .gone })
    ⟨fun _ => rfl, fun _ => by simp, fun _ h => by simp at h⟩ orderlyRun
    ⟨⟨rfl, fun _ => rfl, fun _ => by simp, by simp⟩,
      ⟨rfl, fun _ => rfl, fun _ => by simp, by simp⟩,
      ⟨rfl, fun _ => rfl, fun _ => by simp, fun _ => hpoll⟩,
      ⟨rfl, fun _ => rfl, fun _ => by simp, by simp⟩,
      ⟨rfl, fun _ => rfl, fun _ => by simp, by simp⟩,
      ⟨rfl, fun _ => rfl, fun _ => by simp, by simp⟩, trivial⟩ _ Guarded.last_mem_states).1

/-- A configuration with a token ceiling of 10 for each Run that pauses, and a liveness check. -/
def checkedConfig : Config :=
  { plainConfig with
    tokenBudget := ⟨some 10, none⟩
    livenessCheck := true }

/-- A launch under a liveness check. -/
def checkedRun : List Step :=
  [(.register checkedConfig, fun _ => {}), (.start false, fun _ => ({} : Moment))]

/-- The window expires, and the line that was still being written reports 20 tokens. -/
def expiredPass : Step :=
  (.poll, fun _ =>
    { livenessExpired := true
      partialLine := fun _ => some (some ⟨20, 0, 0, 1⟩) })

/-- A launch, and a stop that ends in an error of the backend. -/
def failedStopRun : List Step :=
  [(.register plainConfig, fun _ => {}), (.start false, fun _ => {}),
    (.stop, fun _ => { stop := .failed })]

/-- The process has exited. -/
def exitedPass : Step := (.poll, fun _ => { poll := .exited none })

/-- **The two rows that are left behind**: an expiry whose last drain pauses the instance drops the
handle over a paused row, and a pass after a failed stop drops it over a stopping one. -/
theorem handleRow_leftBehind :
    ((opened.runSteps checkedRun).running.isSome ∧
      ((opened.runSteps checkedRun).step expiredPass).running.isNone ∧
      ((opened.runSteps checkedRun).step expiredPass).disk.state = some .paused) ∧
    ((opened.runSteps failedStopRun).running.isSome ∧
      ((opened.runSteps failedStopRun).step exitedPass).running.isNone ∧
      ((opened.runSteps failedStopRun).step exitedPass).disk.state = some .stopping) := by
  decide +kernel

end Supervisor

end Hekma
