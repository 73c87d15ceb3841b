/-
**What metering keeps** (`domain/supervisor/usage.rs`).

A drain is put together from a few primitives: a consultation of the environment, a change of the
cursors and the parks of the handle, a commit of usage, and the Breach Actions it executes.  A
relation that is reflexive and transitive and holds across these holds across every drain.

Main definitions:

* `Books.Charged` — what metering and evaluation do to the books;
* `MeterConduct` — a relation between states that holds across the primitives of metering.

Main results:

* `MeterConduct.drainTerminal`, `MeterConduct.enforceBudget` — it holds across metering and
  enforcement;
* `drainTerminal_governed`, `enforceBudget_governed` — which act by Breach Actions only.
-/

import Hekma.Supervisor.Usage

set_option relaxedAutoImplicit false
set_option autoImplicit false

namespace Hekma

open Governance

/-- A report was committed to the books, or they were evaluated. -/
inductive Books.Charged (b : Books) : Books → Prop where
  | usage (event : UsageEvent) (generation : ℕ) (input : EvalInput) (at_ : Timestamp)
      (evaluation : Evaluation) (b' : Books)
      (h : b.commitUsage event generation input at_ = .ok (.inserted, evaluation, b')) :
      Charged b b'
  | evaluated (input : EvalInput) (at_ : Timestamp) (evaluation : Evaluation) (b' : Books)
      (h : b.evaluate input at_ = .ok (evaluation, b')) : Charged b b'

/-- A change of a handle that metering makes: its Run, its flags and its exit codes stay. -/
def Supervised.Carries (f : Supervised → Supervised) : Prop :=
  ∀ h, (f h).held = h.held ∧ (f h).exitCodes = h.exitCodes

namespace Supervisor

/-- A relation that holds across the primitives of metering. -/
structure MeterConduct (env : Env) (stop : StopWith) (R : Supervisor → Supervisor → Prop) :
    Prop where
  refl : ∀ s, R s s
  trans : ∀ {a b c}, R a b → R b c → R a c
  tick : ∀ s, R s s.tick
  handle : ∀ s f, Supervised.Carries f → R s (s.onHandle f)
  logs : ∀ s logs, R s { s with logs := logs }
  charge : ∀ s books, s.books.Charged books → R s (s.tick.commit { s.disk with books := books })
  pause : ∀ s d, R s (s.pauseWithCause env (breachCause d)).2
  stop : ∀ s cause, R s (stop cause s).2

namespace MeterConduct

variable {env : Env} {stop : StopWith} {R : Supervisor → Supervisor → Prop} {s : Supervisor}

theorem raiseFence (h : MeterConduct env stop R) (s : Supervisor) (reasons : List LatchKey) :
    R s (s.raiseFence reasons) := h.handle s _ fun _ => ⟨rfl, rfl⟩

theorem setCursor (h : MeterConduct env stop R) (s : Supervisor) (channel : UsageChannel)
    (cursor : ℕ) : R s (s.setCursor channel cursor) := h.handle s _ fun _ => ⟨rfl, rfl⟩

theorem setPark (h : MeterConduct env stop R) (s : Supervisor) (channel : UsageChannel)
    (park : Option (ℕ × ℕ)) : R s (s.setPark channel park) := h.handle s _ fun _ => ⟨rfl, rfl⟩

theorem takeQueue (h : MeterConduct env stop R) (s : Supervisor) (arrived : List (ℕ × ℕ × ℕ)) :
    R s (s.takeQueue arrived) := h.handle s _ fun _ => ⟨rfl, rfl⟩

theorem setObservedPark (h : MeterConduct env stop R) (s : Supervisor)
    (park : Option (List ParsedUsage × ℕ)) : R s (s.setObservedPark park) :=
  h.handle s _ fun _ => ⟨rfl, rfl⟩

theorem enforce (h : MeterConduct env stop R) (s : Supervisor)
    (d : GovernanceDecision) : R s (enforce env stop s d) := by
  unfold Supervisor.enforce
  cases d.action with
  | block => exact h.raiseFence s _
  | warn => exact h.refl s
  | pause => exact h.pause s _
  | stop => exact h.stop s _

theorem applyEvaluation (h : MeterConduct env stop R)
    (s : Supervisor) (evaluation : Evaluation) :
    R s (applyEvaluation env stop s evaluation) := by
  unfold Supervisor.applyEvaluation
  generalize evaluation.breaches = breaches
  induction breaches generalizing s with
  | nil => exact h.refl s
  | cons breach breaches ih =>
      refine h.trans ?_ (ih _)
      unfold applyBreach
      split
      · exact h.enforce s breach.decision
      · exact h.refl s

/-- The books are charged, the fence is raised, and what fired is executed. -/
theorem charged (h : MeterConduct env stop R) {books : Books}
    (hbooks : s.books.Charged books) (evaluation : Evaluation) :
    R s (Supervisor.applyEvaluation env stop
      ((s.tick.commit { s.disk with books := books }).raiseFence evaluation.raised) evaluation) :=
  h.trans (h.charge s books hbooks)
    (h.trans (h.raiseFence _ _) (h.applyEvaluation _ evaluation))

theorem ingestUsage (h : MeterConduct env stop R)
    (s : Supervisor) (runId : RunId) (source : String) (parsed : ParsedUsage) :
    R s (ingestUsage env stop s runId source parsed).2 := by
  unfold Supervisor.ingestUsage
  split
  · split
    · exact h.tick s
    · exact h.tick s
    · rename_i evaluation books heq
      exact h.charged (.usage _ _ _ _ _ _ heq) evaluation
  · exact h.tick s

theorem ingestAll (h : MeterConduct env stop R) (runId : RunId)
    (source : String) (batch : List ParsedUsage) (s : Supervisor) :
    R s (ingestAll env stop runId source batch s).2.2 := by
  induction batch generalizing s with
  | nil => exact h.refl s
  | cons parsed rest ih =>
      have hone := h.ingestUsage s runId source parsed
      unfold Supervisor.ingestAll
      rcases hr : Supervisor.ingestUsage env stop s runId source parsed with ⟨_ | err, s'⟩
      · rw [hr] at hone
        exact h.trans hone (ih s')
      · rw [hr] at hone
        exact hone

theorem enforceBudget (h : MeterConduct env stop R)
    (s : Supervisor) (runId : RunId) (source : String) :
    R s (enforceBudget env stop s runId source) := by
  unfold Supervisor.enforceBudget
  dsimp only
  split
  · split
    · split
      · exact h.tick s
      · rename_i evaluation books heq
        exact h.charged (.evaluated _ _ _ _ heq) evaluation
    · exact h.tick s
  · exact h.refl s

theorem settleBlock (h : MeterConduct env stop R) (s : Supervisor) (mode : DrainMode)
    (channel : UsageChannel) (cursor consumed : ℕ) (failure : Option EngineError) :
    R s (s.settleBlock mode channel cursor consumed failure) := by
  have hpassed : R s ((s.setCursor channel (cursor + consumed)).setPark channel none) :=
    h.trans (h.setCursor s channel _) (h.setPark _ channel none)
  unfold Supervisor.settleBlock
  split
  · exact hpassed
  · exact h.refl s
  · dsimp only
    split
    · exact hpassed
    · exact h.setPark s channel _

theorem maybeTruncateRawLog (h : MeterConduct env stop R) (s : Supervisor)
    (channel : UsageChannel) : R s (s.maybeTruncateRawLog env channel) := by
  unfold Supervisor.maybeTruncateRawLog
  split
  · refine h.trans (h.trans (h.tick s) (h.setCursor _ channel 0)) ?_
    exact h.logs _ _
  · exact h.tick s

theorem drainChannelUsageFor (h : MeterConduct env stop R)
    (s : Supervisor) (mode : DrainMode) (channel : UsageChannel) :
    R s (drainChannelUsageFor env stop s mode channel) := by
  unfold Supervisor.drainChannelUsageFor
  cases s.running with
  | none => exact h.refl s
  | some x =>
      have hgrown : R s (s.growLog env channel).tick :=
        h.trans (h.logs s _) (h.tick _)
      dsimp only
      split
      · exact hgrown
      split
      · exact h.trans hgrown (h.setCursor _ channel _)
      · refine h.trans ?_ (h.maybeTruncateRawLog _ channel)
        refine h.trans hgrown (h.trans (h.ingestAll x.runId (channel.meteringSource x)
          (parsedOf (((s.growLog env channel).logs channel).tail (x.usageCursor channel) mode))
          _) ?_)
        split
        · exact h.refl _
        · exact h.settleBlock _ _ _ _ _ _

theorem drainSelfReportedFor (h : MeterConduct env stop R)
    (s : Supervisor) (mode : DrainMode) : R s (drainSelfReportedFor env stop s mode) := by
  unfold Supervisor.drainSelfReportedFor
  have hout := h.drainChannelUsageFor s mode .stdout
  dsimp only
  split
  · exact h.trans hout (h.drainChannelUsageFor _ mode .stderr)
  · exact hout

theorem settleObserved (h : MeterConduct env stop R) (s : Supervisor) (mode : DrainMode)
    (rest : List ParsedUsage) (failure : Option EngineError) :
    R s (s.settleObserved mode rest failure) := by
  unfold Supervisor.settleObserved
  split
  · exact h.setObservedPark s none
  · exact h.setObservedPark s none
  · split
    · exact h.setObservedPark s none
    · dsimp only
      split <;> exact h.setObservedPark s _

theorem drainObservedFor (h : MeterConduct env stop R)
    (s : Supervisor) (mode : DrainMode) : R s (drainObservedFor env stop s mode) := by
  unfold Supervisor.drainObservedFor
  split
  · exact h.refl s
  split
  · have htaken : R s (s.takeQueue (s.now env).exchanges).tick :=
      h.trans (h.takeQueue s _) (h.tick _)
    dsimp only
    split
    · exact htaken
    · exact h.trans htaken (h.trans (h.ingestAll _ _ _ _) (h.settleObserved _ _ _ _))
  · exact h.refl s

theorem drainTerminal (h : MeterConduct env stop R)
    (s : Supervisor) : R s (drainTerminal env stop s) :=
  h.trans (h.drainSelfReportedFor s .terminal) (h.drainObservedFor _ .terminal)

end MeterConduct

/-! ### Metering and the control state -/

variable {f : Faults} {stop : StopWith}

/-- Metering acts on the control state by Breach Actions only. -/
theorem governed_conduct (env : Env) (hstop : Stops f stop) :
    MeterConduct env stop fun s s' => s.control.Wf → Enforced f s.control s'.control where
  refl := fun _ _ => .refl
  trans := fun h h' hwf => (h hwf).trans (h' ((h hwf).wf hwf))
  tick := fun _ _ => .refl
  handle := by
    intro s g hg _
    rw [control_onHandle_of_keep fun h => (hg h).1]
  logs := fun _ _ _ => .refl
  charge := fun _ _ _ _ => .refl
  pause := by
    intro s d _
    have hcause : some (breachCause d) ≠ some .pauseCooperative := by simp [breachCause]
    exact .single (.pause (suspendOrResume_move (.inl rfl) hcause))
  stop := fun s cause hwf => .single (.stop (hstop cause s hwf))

theorem enforce_governed (env : Env) (hstop : Stops f stop) (d : GovernanceDecision) :
    Governed f fun s => enforce env stop s d :=
  fun s => (governed_conduct env hstop).enforce s d

theorem ingestUsage_governed (env : Env) (hstop : Stops f stop) (runId : RunId) (source : String)
    (parsed : ParsedUsage) : Governed f fun s => (ingestUsage env stop s runId source parsed).2 :=
  fun s => (governed_conduct env hstop).ingestUsage s runId source parsed

theorem drainChannelUsageFor_governed (env : Env) (hstop : Stops f stop) (mode : DrainMode)
    (channel : UsageChannel) : Governed f fun s => drainChannelUsageFor env stop s mode channel :=
  fun s => (governed_conduct env hstop).drainChannelUsageFor s mode channel

theorem drainSelfReportedFor_governed (env : Env) (hstop : Stops f stop) (mode : DrainMode) :
    Governed f fun s => drainSelfReportedFor env stop s mode :=
  fun s => (governed_conduct env hstop).drainSelfReportedFor s mode

theorem drainObservedFor_governed (env : Env) (hstop : Stops f stop) (mode : DrainMode) :
    Governed f fun s => drainObservedFor env stop s mode :=
  fun s => (governed_conduct env hstop).drainObservedFor s mode

theorem drainTerminal_governed (env : Env) (hstop : Stops f stop) :
    Governed f fun s => drainTerminal env stop s :=
  fun s => (governed_conduct env hstop).drainTerminal s

theorem enforceBudget_governed (env : Env) (hstop : Stops f stop) (runId : RunId)
    (source : String) : Governed f fun s => enforceBudget env stop s runId source :=
  fun s => (governed_conduct env hstop).enforceBudget s runId source

end Supervisor

end Hekma
