/-
**Metering and enforcement** (`domain/supervisor/usage.rs`).

A drain takes a batch of usage reports, from the log of a channel or from the exchanges the
listener has seen, and commits them one after the other.  A commit that fires a breach executes
its action before the next report is committed, and a stop drains the same instance again.  The
cursor, or the parked reports, move only after the whole batch.

The stop is a parameter here: it drains, and a drain may stop.

Main definitions:

* `Supervisor.ingestUsage`, `Supervisor.applyEvaluation` — one report, and what it fires;
* `Supervisor.drainChannelUsageFor`, `Supervisor.drainObservedFor` — the two drains;
* `Supervisor.drainTerminal`, `Supervisor.enforceBudget` — their compositions.

Main results:

* `Enforced` — a sequence of Breach Actions, the only way usage reaches the control state;
* `Governed` — a step that only executes Breach Actions;
* `Enforced.quiet` — while a stop is under way they change nothing.
-/

import Hekma.Supervisor.Suspend

set_option relaxedAutoImplicit false
set_option autoImplicit false

namespace Hekma

open Governance

/-- How a stop with a cause is executed. -/
abbrev StopWith : Type := TransitionCause → Supervisor → Outcome

/-! ### The logs -/

namespace AgentLog

/-- The log is empty. -/
def empty : AgentLog := ⟨[], none⟩

/-- The length of the log, the line that is still being written included. -/
def size (log : AgentLog) : ℕ := log.lines.length + log.partialLine.toList.length

/-- The tail a drain consumes: the complete lines, and on the last drain the unfinished one. -/
def tail (log : AgentLog) (cursor : ℕ) (mode : DrainMode) : List (Option ParsedUsage) :=
  match mode with
  | .midRun => log.lines.drop cursor
  | .terminal => (log.lines ++ log.partialLine.toList).drop cursor

/-- The log after the agent has printed. -/
def grow (log : AgentLog) (appended : List (Option ParsedUsage))
    (unfinished : Option (Option ParsedUsage)) : AgentLog where
  lines := log.lines ++ appended
  partialLine := unfinished.or (if appended.isEmpty then log.partialLine else none)

end AgentLog

/-- How often a block of reports may fail to commit before it is skipped. -/
def usageParkMaxAttempts : ℕ := 3

/-- How many observed reports are kept for another try. -/
def observedParkMaxEvents : ℕ := 1024

/-- The source the reports of a channel are metered under. -/
def UsageChannel.meteringSource (channel : UsageChannel) (h : Supervised) : String :=
  match channel with
  | .stdout => h.meteringSource
  | .stderr => "self-reported"

/-- A refusal that is contention does not count as an attempt. -/
def EngineError.isBusy (err : EngineError) : Bool := err = .store .busy

/-- The attempts at a block, counted while it stays the same. -/
def parkAttempts (previous : Option ℕ) (err : EngineError) : ℕ :=
  match previous with
  | some n => if err.isBusy then n else n + 1
  | none => if err.isBusy then 0 else 1

/-- The ledger event of a report. -/
def assembleUsageEvent (parsed : ParsedUsage) (name : InstanceName) (runId : RunId)
    (source : String) (at_ : Timestamp) : UsageEvent where
  instanceName := name
  runId := runId
  inputTokens := parsed.inputTokens
  outputTokens := parsed.outputTokens
  cachedTokens := some parsed.cachedTokens
  meteringSource := source
  occurredAt := at_
  sequence := parsed.sequence

namespace Supervisor

/-! ### One report -/

/-- What an evaluation reads: the configuration in force now. -/
def evalInput (s : Supervisor) (runId : RunId) (source : String) : EvalInput where
  name := s.name
  runId := runId
  meteringSource := source
  tokenBudget := s.disk.config.tokenBudget
  tokenAction := s.disk.config.tokenAction
  rate := s.disk.config.rate
  costCap := s.disk.config.costCap
  costAction := s.disk.config.costAction
  supervised := s.running.isSome
  fence := s.running.any fun h => h.observedListener.isSome

/-- The cause of the transition a breach drives. -/
def breachCause (d : GovernanceDecision) : TransitionCause :=
  .budgetExceeded d.scope d.dimension d.limit d.observed

/-- Raise the fence of the listener for these reasons, if there is a listener. -/
def raiseFence (s : Supervisor) (reasons : List LatchKey) : Supervisor :=
  s.onHandle fun h =>
    { h with observedListener := h.observedListener.map fun l =>
        { l with fence := l.fence ++ reasons.filter (· ∉ l.fence) } }

/-- Execute the action of a breach.  Its failure is only reported. -/
def enforce (env : Env) (stop : StopWith) (s : Supervisor) (d : GovernanceDecision) : Supervisor :=
  match d.action with
  | .block => s.raiseFence [⟨d.dimension, d.scope⟩]
  | .warn => s
  | .pause => (s.pauseWithCause env (breachCause d)).2
  | .stop => (stop (breachCause d) s).2

/-- Only a breach of the process-owning Run acts on the process. -/
def applyBreach (env : Env) (stop : StopWith) (s : Supervisor) (breach : CommittedBreach) :
    Supervisor :=
  if breach.processLevel then s.enforce env stop breach.decision else s

/-- Execute what an evaluation has committed, in its order. -/
def applyEvaluation (env : Env) (stop : StopWith) (s : Supervisor) (evaluation : Evaluation) :
    Supervisor :=
  evaluation.breaches.foldl (applyBreach env stop) s

/-- The launch generation a report is metered under: the one of the handle, or 0 without one. -/
def generationNow (s : Supervisor) : ℕ := s.running.elim 0 Supervised.launchGeneration

/-- Commit one report and execute what it fires.  The writer raises the fence itself. -/
def ingestUsage (env : Env) (stop : StopWith) (s : Supervisor) (runId : RunId) (source : String)
    (parsed : ParsedUsage) : Outcome :=
  match (s.now env).write with
  | .committed =>
      match s.books.commitUsage
          (assembleUsageEvent parsed s.name runId source (s.now env).time) s.generationNow
          (s.evalInput runId source) (s.now env).time with
      | .error _ => (some (.store .refused), s.tick)
      | .ok (.duplicateReplay, _) => (none, s.tick)
      | .ok (.inserted, evaluation, books) =>
          (none, applyEvaluation env stop
            ((s.tick.commit { s.disk with books := books }).raiseFence evaluation.raised)
            evaluation)
  | answer => (some (.store answer), s.tick)

/-- Commit a batch up to the first failure.  Returns what was not committed, and why. -/
def ingestAll (env : Env) (stop : StopWith) (runId : RunId) (source : String) :
    List ParsedUsage → Supervisor → List ParsedUsage × Option EngineError × Supervisor
  | [], s => ([], none, s)
  | parsed :: rest, s =>
      match ingestUsage env stop s runId source parsed with
      | (none, s) => ingestAll env stop runId source rest s
      | (some err, s) => (parsed :: rest, some err, s)

/-- Evaluate without a new report, if a ceiling is armed. -/
def enforceBudget (env : Env) (stop : StopWith) (s : Supervisor) (runId : RunId)
    (source : String) : Supervisor :=
  let input := s.evalInput runId source
  if input.tokenBudget.isSet || (input.rate.isSome && input.costCap.isSet) then
    match (s.now env).write with
    | .committed =>
        match s.books.evaluate input (s.now env).time with
        | .error _ => s.tick
        | .ok (evaluation, books) =>
            applyEvaluation env stop
              ((s.tick.commit { s.disk with books := books }).raiseFence evaluation.raised)
              evaluation
    | _ => s.tick
  else s

/-! ### The drain of a log -/

/-- What the agent has printed by now. -/
def growLog (s : Supervisor) (env : Env) (channel : UsageChannel) : Supervisor :=
  { s with
    logs := Function.update s.logs channel
      ((s.logs channel).grow ((s.now env).appended channel) ((s.now env).partialLine channel)) }

/-- Set the cursor of a channel. -/
def setCursor (s : Supervisor) (channel : UsageChannel) (cursor : ℕ) : Supervisor :=
  s.onHandle fun h => { h with usageCursor := Function.update h.usageCursor channel cursor }

/-- Set the park of a channel. -/
def setPark (s : Supervisor) (channel : UsageChannel) (park : Option (ℕ × ℕ)) : Supervisor :=
  s.onHandle fun h => { h with usagePark := Function.update h.usagePark channel park }

/-- The attempts at the block that starts at a cursor. -/
def parkedAt (s : Supervisor) (channel : UsageChannel) (cursor : ℕ) : Option ℕ :=
  (s.running.bind fun h => h.usagePark channel).bind fun park =>
    if park.1 = cursor then some park.2 else none

/-- Where the channel stands after its batch: past the block if all of it committed, before it if
it is tried again, and past it if it is given up. -/
def settleBlock (s : Supervisor) (mode : DrainMode) (channel : UsageChannel)
    (cursor consumed : ℕ) (failure : Option EngineError) : Supervisor :=
  match failure, mode with
  | none, _ => (s.setCursor channel (cursor + consumed)).setPark channel none
  | some _, .terminal => s
  | some err, .midRun =>
      let attempts := parkAttempts (s.parkedAt channel cursor) err
      if usageParkMaxAttempts ≤ attempts then
        (s.setCursor channel (cursor + consumed)).setPark channel none
      else s.setPark channel (some (cursor, attempts))

/-- Cut a raw log that is over its bound, if nothing in it is unread. -/
def maybeTruncateRawLog (s : Supervisor) (env : Env) (channel : UsageChannel) : Supervisor :=
  if (s.now env).truncated &&
      s.running.any fun h => (s.logs channel).size ≤ h.usageCursor channel then
    { s.tick.setCursor channel 0 with logs := Function.update s.logs channel AgentLog.empty }
  else s.tick

/-- The reports of a tail. -/
def parsedOf (tail : List (Option ParsedUsage)) : List ParsedUsage := tail.filterMap id

/-- Drain the log of one channel.  A log that is shorter than the cursor was cut by someone else:
the cursor moves to its end and nothing is read. -/
def drainChannelUsageFor (env : Env) (stop : StopWith) (s : Supervisor) (mode : DrainMode)
    (channel : UsageChannel) : Supervisor :=
  match s.running with
  | none => s
  | some h =>
      let cursor := h.usageCursor channel
      let grown := s.growLog env channel
      let log := grown.logs channel
      if !(s.now env).readable then grown.tick
      else if log.size < cursor then
        grown.tick.setCursor channel log.size
      else
        let tail := log.tail cursor mode
        let r := ingestAll env stop h.runId (channel.meteringSource h) (parsedOf tail) grown.tick
        let s := if tail.isEmpty then r.2.2
          else r.2.2.settleBlock mode channel cursor tail.length r.2.1
        s.maybeTruncateRawLog env channel

/-- Drain the self-reported usage of the instance. -/
def drainSelfReportedFor (env : Env) (stop : StopWith) (s : Supervisor) (mode : DrainMode) :
    Supervisor :=
  let s := drainChannelUsageFor env stop s mode .stdout
  if s.running.any Supervised.isAcp then drainChannelUsageFor env stop s mode .stderr else s

/-! ### The drain of the listener -/

/-- Number the exchanges from a sequence on. -/
def mint (sequence : ℕ) : List (ℕ × ℕ × ℕ) → List ParsedUsage
  | [] => []
  | (input, output, cached) :: rest => ⟨input, output, cached, sequence⟩ :: mint (sequence + 1) rest

/-- The parked reports, and behind them the exchanges of the queue. -/
def observedBatch (h : Supervised) (l : ObservedListener) (sequence : ℕ)
    (arrived : List (ℕ × ℕ × ℕ)) : List ParsedUsage :=
  (h.observedPark.elim [] Prod.fst) ++ mint sequence (l.queue ++ arrived)

/-- Take the queue. -/
def takeQueue (s : Supervisor) (arrived : List (ℕ × ℕ × ℕ)) : Supervisor :=
  s.onHandle fun h =>
    { h with
      observedListener := h.observedListener.map fun l => { l with queue := [] }
      observedSource := h.observedSource.map fun n =>
        n + (h.observedListener.elim 0 fun l => (l.queue ++ arrived).length) }

/-- Park reports for another pass. -/
def setObservedPark (s : Supervisor) (park : Option (List ParsedUsage × ℕ)) : Supervisor :=
  s.onHandle fun h => { h with observedPark := park }

/-- The parked reports are capped; the oldest ones go. -/
def capObservedParkBuffer (events : List ParsedUsage) : List ParsedUsage :=
  events.drop (events.length - observedParkMaxEvents)

/-- The attempts at a front report. -/
def observedParkedAt (s : Supervisor) (front : ℕ) : Option ℕ :=
  (s.running.bind Supervised.observedPark).bind fun park =>
    if park.1.head?.any fun e => e.sequence = front then some park.2 else none

/-- What is parked after a batch: nothing if all of it committed or there is no next pass, the
rest of it if its front is tried again, and the rest behind its front if that is given up. -/
def settleObserved (s : Supervisor) (mode : DrainMode) (rest : List ParsedUsage)
    (failure : Option EngineError) : Supervisor :=
  match failure, mode with
  | none, _ => s.setObservedPark none
  | some _, .terminal => s.setObservedPark none
  | some err, .midRun =>
      match capObservedParkBuffer rest with
      | [] => s.setObservedPark none
      | front :: behind =>
          let attempts := parkAttempts (s.observedParkedAt front.sequence) err
          if usageParkMaxAttempts ≤ attempts then
            s.setObservedPark (if behind.isEmpty then none else some (behind, 1))
          else s.setObservedPark (some (front :: behind, attempts))

/-- Drain what the listener has seen. -/
def drainObservedFor (env : Env) (stop : StopWith) (s : Supervisor) (mode : DrainMode) :
    Supervisor :=
  match s.running with
  | none => s
  | some h =>
      match h.observedListener, h.observedSource with
      | some l, some sequence =>
          let arrived := (s.now env).exchanges
          let events := observedBatch h l sequence arrived
          let taken := (s.takeQueue arrived).tick
          if events.isEmpty then taken
          else
            let r := ingestAll env stop h.runId h.meteringSource events taken
            r.2.2.settleObserved mode r.1 r.2.1
      | _, _ => s

/-- The last drains of a Run. -/
def drainTerminal (env : Env) (stop : StopWith) (s : Supervisor) : Supervisor :=
  drainObservedFor env stop (drainSelfReportedFor env stop s .terminal) .terminal

/-! ### What usage does to the control state -/

variable {s : Supervisor} {env : Env} {f : Faults} {stop : StopWith} {channel : UsageChannel}
  {mode : DrainMode}

theorem control_raiseFence (reasons : List LatchKey) :
    (s.raiseFence reasons).control = s.control := control_onHandle_of_keep fun _ => rfl

theorem control_takeQueue (arrived : List (ℕ × ℕ × ℕ)) :
    (s.takeQueue arrived).control = s.control := control_onHandle_of_keep fun _ => rfl

end Supervisor

/-- One Breach Action. -/
inductive BreachMove (f : Faults) (c c' : Control) : Prop where
  | pause (h : SuspendMove .pause false c c')
  | stop (h : Control.StopMove f c c')

/-- A sequence of Breach Actions. -/
abbrev Enforced (f : Faults) : Control → Control → Prop := Relation.ReflTransGen (BreachMove f)

/-- The stop that is executed does what a stop may do. -/
def Stops (f : Faults) (stop : StopWith) : Prop :=
  ∀ cause s, s.control.Wf → Control.StopMove f s.control (stop cause s).2.control

/-- A step only executes Breach Actions. -/
def Governed (f : Faults) (step : Supervisor → Supervisor) : Prop :=
  ∀ s, s.control.Wf → Enforced f s.control (step s).control

variable {c c' : Control} {f : Faults}

theorem Enforced.wf (h : Enforced f c c') (hwf : c.Wf) : c'.Wf := by
  induction h with
  | refl => exact hwf
  | tail _ hstep ih =>
      cases hstep with
      | pause hm => exact ih.suspend hm
      | stop hm => exact ih.stop hm

theorem Enforced.frame (h : Enforced f c c') : c.Frame c' := by
  induction h with
  | refl => exact .refl c
  | tail _ hstep ih =>
      cases hstep with
      | pause hm => exact ih.trans (Control.frame_suspend hm)
      | stop hm => exact ih.trans hm.frame

/-- Without a process no Breach Action does anything. -/
theorem Enforced.idle (h : Enforced f c c') (hidle : c.Idle) : c' = c := by
  induction h with
  | refl => rfl
  | tail _ hstep ih =>
      subst ih
      cases hstep with
      | pause hm => exact hidle.suspend hm
      | stop hm => exact hidle.stop hm

/-- While a stop is under way no Breach Action does anything. -/
theorem Enforced.quiet (h : Enforced f c c') (hq : c.Quiet) : c' = c := by
  induction h with
  | refl => rfl
  | tail _ hstep ih =>
      subst ih
      cases hstep with
      | pause hm => exact hq.pause hm
      | stop hm => exact hq.stop hm

namespace Governed

variable {g k : Supervisor → Supervisor}

theorem comp (h : Governed f g) (h' : Governed f k) : Governed f fun s => k (g s) :=
  fun s hwf => (h s hwf).trans (h' (g s) ((h s hwf).wf hwf))

end Governed

end Hekma
