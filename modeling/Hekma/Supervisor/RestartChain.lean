/-
**Restart chains** (`domain/supervisor/reaper.rs`, `domain/supervisor/spawn.rs`,
`domain/supervisor/lifecycle.rs`).

Two counters pace the relaunches of an instance.  The durable one counts failures: it rides the
spawn record, a charged crash raises it, a stable run starts it again, and a relaunch carries it
into the fresh record.  The other one lives in the engine's memory: it counts the relaunches the
agent itself has asked for, which charge nothing.

This is the part of the supervisor both counters live in, with the delays and the run lengths that
the rest of the model leaves to the environment.  Store writes are answered.  The memory counter is
a word that wraps: unlike the durable one it does not saturate.

Main definitions:

* `RestartChain`, `ChainOp`, `RestartChain.step` — the state, the operations and their effect;
* `Occurrence`, `RestartChain.occurrence` — what an operation means for the chain;
* `History` — what an observer counts: the requested relaunches in a row, and since when the
  instance has been running;
* `RestartChain.Bounded` — what one operation owes to the chain.

Main results:

* `planRestart_attempt`, `planRequestedRestart_attempt` — the supervisor plans the same attempts;
* `Paced.next` — the counters agree with the observer's, up to a word;
* `restartChain_bounded` — after every run, an operation is bounded exactly if the index of a
  requested relaunch fits.
-/

import Hekma.Domain.Restart
import Hekma.Supervisor.Reaper

set_option relaxedAutoImplicit false
set_option autoImplicit false

namespace Hekma

/-! ### The state -/

/-- What the chain needs of a held handle: since when the instance runs, and the declared exit
codes. -/
structure Watched where
  runningSince : ℕ
  exitCodes : List (ℕ × ExitClass)
  stopUnconfirmed : Bool
  deriving DecidableEq, Repr

/-- A planned relaunch, and how long it waits. -/
structure DelayedPlan where
  attempt : ℕ
  delay : ℕ
  deriving DecidableEq, Repr

/-- The part of the supervisor that paces the relaunches of one instance. -/
structure RestartChain where
  clock : ℕ
  state : Option LifecycleState
  record : Option SpawnRecord
  held : Option Watched
  /-- The entry of the instance in the map of requested relaunches. -/
  streak : Option ℕ
  plans : List DelayedPlan
  deriving DecidableEq, Repr

/-- The process of a launch that got as far as its record. -/
structure Spawned where
  pid : ℕ
  detach : Bool
  acpSession : Bool
  exitCodes : List (ℕ × ExitClass)
  deriving DecidableEq, Repr

/-- How a launch ends: before its row moves, before its record is written, as a failure that does
not consult the policy, as an exit during the readiness probe, or running. -/
inductive Launch where
  | refused
  | unrecorded
  | unready (p : Spawned)
  | exited (p : Spawned)
  | ready (p : Spawned)
  deriving DecidableEq, Repr

/-- The operations on one instance. -/
inductive ChainOp where
  | elapse (n : ℕ)
  | register
  | remove
  | setPolicy (policy : RestartPolicy)
  | start (launch : Launch)
  | fire (i : ℕ) (launch : Launch)
  | exit (crash : CrashInput)
  | expire
  | stop (answer : StopAnswer) (reacquired : Bool)
  | pause
  | resume
  | reopen (answer : AdoptAnswer) (foreign : Bool) (exitCodes : List (ℕ × ExitClass))
  deriving DecidableEq, Repr

namespace RestartChain

open BackoffSchedule

/-- Before the instance is registered. -/
def empty : RestartChain := ⟨0, none, none, none, none, []⟩

/-- The policy in force: the one of the record, or the default. -/
def policy (c : RestartChain) : RestartPolicy :=
  c.record.elim .onFailure SpawnRecord.restartPolicy

/-- The durable count of consecutive failures. -/
def count (c : RestartChain) : ℕ := c.record.elim 0 SpawnRecord.restartCount

/-! ### Records and plans -/

def settleSpawnRecord (c : RestartChain) : RestartChain :=
  { c with record := Supervisor.settledRecord c.record }

def setRestartPolicy (c : RestartChain) (policy : RestartPolicy) : RestartChain :=
  { c with record := some (match c.record with
      | some r => { r with restartPolicy := policy }
      | none => ⟨0, false, policy, 0, false⟩) }

def setRestartCount (c : RestartChain) (count : ℕ) : RestartChain :=
  { c with record := c.record.map fun r => { r with restartCount := count } }

/-- A process that is not launched again leaves its policy on the record. -/
def settleTerminalRecord (c : RestartChain) (policy : RestartPolicy) : RestartChain :=
  c.settleSpawnRecord.setRestartPolicy policy

/-- The record of a fresh launch.  A restart keeps its attempt as the count. -/
def writeSpawnRecord (c : RestartChain) (restart : Option ℕ) (p : Spawned) : RestartChain :=
  { c with record := some ⟨p.pid, p.detach, c.policy, restart.getD 0, p.acpSession⟩ }

/-- Decide on the relaunch after a failure.  Whatever is decided, the requested chain is over. -/
def planRestart (c : RestartChain) (window : ℕ) (runningFor : Option ℕ) :
    Option DelayedPlan × RestartChain :=
  let c := { c with streak := none }
  let next := (Restart.nextConsecutiveFailures c.count runningFor window).1
  if c.policy = .never then (none, c.settleTerminalRecord c.policy)
  else if isCrashLoop next then (none, c.settleTerminalRecord c.policy)
  else (some ⟨next, production.delayFor next⟩, c.setRestartCount next)

/-- Decide on the relaunch an exit code asks for: the plan, and its depth in the requested chain.
The index of the delay and the depth are sums of words. -/
def planRequestedRestart (c : RestartChain) : Option (DelayedPlan × ℕ) × RestartChain :=
  if c.policy = .never then (none, { c with streak := none }.settleTerminalRecord c.policy)
  else
    let streak := c.streak.getD 0
    let delay := production.delayFor ((c.count + streak + 1) % 2 ^ 32)
    let depth := (streak + 1) % 2 ^ 32
    (some (⟨c.count, delay⟩, depth), { c with streak := some depth })

/-- A plan that was made waits for its turn. -/
def queue (c : RestartChain) (plan : Option DelayedPlan) : RestartChain :=
  { c with plans := c.plans ++ plan.toList }

/-! ### Launches -/

/-- The launch of an operator, or the attempt of a restart. -/
def startInner (c : RestartChain) (window : ℕ) (restart : Option ℕ) (launch : Launch) :
    Option DelayedPlan × RestartChain :=
  match c.state.bind fun state => nextState state .start with
  | none => (none, c)
  | some _ =>
      match launch with
      | .refused => (none, c)
      | .unrecorded => (none, { c with state := some .failed })
      | .unready p => (none, { c.writeSpawnRecord restart p with state := some .failed })
      | .exited p =>
          let r := (c.writeSpawnRecord restart p).planRestart window none
          (r.1, { r.2 with state := some .failed }.queue r.1)
      | .ready p =>
          let c := c.writeSpawnRecord restart p
          (none, { c with
            state := some .running
            -- A relaunch goes on with the chain it belongs to.
            streak := if restart.isNone then none else c.streak
            held := some ⟨c.clock, p.exitCodes, false⟩ })

/-- A planned relaunch comes due. -/
def fire (c : RestartChain) (window i : ℕ) (launch : Launch) :
    Option DelayedPlan × RestartChain :=
  match c.plans[i]? with
  | none => (none, c)
  | some plan => { c with plans := c.plans.eraseIdx i }.startInner window (some plan.attempt) launch

/-! ### The end of a process -/

/-- The handle goes. -/
def released (c : RestartChain) : RestartChain := { c with held := none }

/-- The handle goes, and the requested chain with it. -/
def dropped (c : RestartChain) : RestartChain := { c with held := none, streak := none }

/-- The process has ended the way a stop ends it. -/
def stopped (c : RestartChain) : RestartChain :=
  { c.dropped.settleSpawnRecord with state := some .stopped }

/-- How long the run lasted, if it was running when it ended. -/
def runningFor (c : RestartChain) (w : Watched) : Option ℕ :=
  if c.state = some .running then some (c.clock - w.runningSince) else none

/-- The plan of a failure. -/
def planFailure (c : RestartChain) (window : ℕ) (runningFor : Option ℕ)
    (classified : Option (ExitClass × ℕ)) : Option DelayedPlan × RestartChain :=
  match classified with
  | some (.restartRequested, _) =>
      (c.planRequestedRestart.1.map Prod.fst, c.planRequestedRestart.2)
  | _ => c.planRestart window runningFor

/-- The process of a held handle was found ended. -/
def handleExit (c : RestartChain) (window : ℕ) (crash : CrashInput) :
    Option DelayedPlan × RestartChain :=
  match c.held with
  | none => (none, c)
  | some w =>
      match c.state with
      | none => (none, c.dropped)
      | some state =>
          if state = .running ∨ state = .paused then
            match classifyExit w.exitCodes crash state with
            | some (.clean, _) => (none, c.stopped)
            | classified =>
                let r := c.released.planFailure window (c.runningFor w) classified
                (r.1, { r.2 with state := some .failed }.queue r.1)
          else if state = .stopping ∧ w.stopUnconfirmed then (none, c.stopped)
          else (none, c.dropped)

/-- The liveness window of a running instance has expired. -/
def expire (c : RestartChain) (window : ℕ) : Option DelayedPlan × RestartChain :=
  match c.held with
  | none => (none, c)
  | some w =>
      if c.state = some .running then
        let r := c.released.planRestart window (some (c.clock - w.runningSince))
        (r.1, { r.2 with state := some .failed }.queue r.1)
      else (none, c)

/-! ### Stops, pauses and adoption -/

/-- The handle a stop works on: the held one, or the one of the record, held for this stop. -/
def stopHandle (c : RestartChain) (reacquired : Bool) : Option Watched :=
  match c.held with
  | some w => some w
  | none =>
      if c.record.any (fun r => r.pid ≠ 0) && reacquired then some ⟨c.clock, [], false⟩ else none

/-- A stop.  One that could not be confirmed, and one that failed, keep the handle. -/
def stop (c : RestartChain) (answer : StopAnswer) (reacquired : Bool) : RestartChain :=
  if c.state = some .stopping ∧ c.held.any Watched.stopUnconfirmed then
    match answer with
    | .stopped _ => c.stopped
    | _ => c
  else
    match c.state.bind fun state => nextState state .stop with
    | none => c
    | some next =>
        let c := { c with state := some next, held := c.stopHandle reacquired }
        match c.held, answer with
        | none, _ => c.stopped
        | some _, .stopped _ => c.stopped
        | some w, .unconfirmed => { c with held := some { w with stopUnconfirmed := true } }
        | some _, .failed => c

def pause (c : RestartChain) : RestartChain :=
  if c.state = some .running then { c with state := some .paused } else c

/-- A resume proves its stability from here on. -/
def resume (c : RestartChain) : RestartChain :=
  if c.state = some .paused then
    { c with
      state := some .running
      held := c.held.map fun w => { w with runningSince := c.clock } }
  else c

/-- A row without a process has failed.  Its record is settled. -/
def reconcileOrphanFailed (c : RestartChain) : RestartChain :=
  { c.settleSpawnRecord with
    state := c.state.map fun state =>
      if state = .running ∨ state = .paused then .failed else state }

/-- The next engine over the durable rows: what the last one held in memory is gone. -/
def reopen (c : RestartChain) (answer : AdoptAnswer) (foreign : Bool)
    (exitCodes : List (ℕ × ExitClass)) : RestartChain :=
  let c := { c with held := none, streak := none, plans := [] }
  if c.record.any (fun r => r.pid ≠ 0) && !foreign then
    match answer with
    | .held => { c with held := some ⟨c.clock, exitCodes, false⟩ }
    | _ => c.reconcileOrphanFailed
  else c

/-! ### Registration -/

def register (c : RestartChain) : RestartChain :=
  if c.state = none then { c with state := some .registered, record := none } else c

/-- Delete the row.  A live instance was stopped before. -/
def remove (c : RestartChain) : RestartChain :=
  if c.state = some .running ∨ c.state = some .paused then c
  else { c with state := none, record := none }

/-- The effect of an operation, and the relaunch it plans. -/
def step (window : ℕ) (c : RestartChain) : ChainOp → Option DelayedPlan × RestartChain
  | .elapse n => (none, { c with clock := c.clock + n })
  | .register => (none, c.register)
  | .remove => (none, c.remove)
  | .setPolicy policy => (none, if c.state = none then c else c.setRestartPolicy policy)
  | .start launch => c.startInner window none launch
  | .fire i launch => c.fire window i launch
  | .exit crash => c.handleExit window crash
  | .expire => c.expire window
  | .stop answer reacquired => (none, c.stop answer reacquired)
  | .pause => (none, c.pause)
  | .resume => (none, c.resume)
  | .reopen answer foreign exitCodes => (none, c.reopen answer foreign exitCodes)

/-- The state after a run. -/
def after (window : ℕ) (c : RestartChain) (ops : List ChainOp) : RestartChain :=
  ops.foldl (fun c op => (c.step window op).2) c

end RestartChain

/-! ### What an observer counts -/

/-- What an operation means for the chain of relaunches.  A charge carries the count it is made
against, and whether the run before it was stable. -/
inductive Occurrence where
  | requested
  | charged (current : ℕ) (stable : Bool)
  | terminalExit
  | cleanExit
  | stopped
  | freshStart
  | relaunched
  | resumed
  | adopted
  | other
  deriving DecidableEq, Repr

/-- What an observer of the operations knows: how many relaunches in a row the agent has asked
for, and since when the instance has been running under this engine's watch. -/
structure History where
  requested : ℕ
  runningSince : ℕ
  deriving DecidableEq, Repr

/-- A requested relaunch is one more.  A charge, a clean or a terminal exit, a stop, a fresh start
and an adoption end the chain. -/
def History.next (h : History) (clock : ℕ) : Occurrence → History
  | .requested => { h with requested := h.requested + 1 }
  | .charged .. | .terminalExit | .cleanExit | .stopped => { h with requested := 0 }
  | .freshStart | .adopted => ⟨0, clock⟩
  | .relaunched | .resumed => { h with runningSince := clock }
  | .other => h

namespace RestartChain

open BackoffSchedule

/-- A failure is charged, unless the policy is never to restart. -/
def failure (c : RestartChain) (current : ℕ) (stable : Bool) : Occurrence :=
  if c.policy = .never then .terminalExit else .charged current stable

/-- The instance has been running for the whole window. -/
def stableRun (c : RestartChain) (h : History) (window : ℕ) : Bool :=
  c.state = some .running && window ≤ c.clock - h.runningSince

/-- What a launch means. -/
def launchOccurrence (c : RestartChain) (restart : Option ℕ) (launch : Launch) : Occurrence :=
  match c.state.bind fun state => nextState state .start, launch with
  | some _, .exited _ => c.failure (restart.getD 0) false
  | some _, .ready _ => if restart.isNone then .freshStart else .relaunched
  | _, _ => .other

/-- What the end of a process means. -/
def exitOccurrence (c : RestartChain) (h : History) (window : ℕ) (crash : CrashInput) :
    Occurrence :=
  match c.held, c.state with
  | none, _ => .other
  | some _, none => .terminalExit
  | some w, some state =>
      if state = .running ∨ state = .paused then
        match classifyExit w.exitCodes crash state with
        | some (.clean, _) => .cleanExit
        | some (.restartRequested, _) =>
            if c.policy = .never then .terminalExit else .requested
        | none => c.failure c.count (c.stableRun h window)
      else .stopped

/-- What the expiry of a liveness window means. -/
def expireOccurrence (c : RestartChain) (h : History) (window : ℕ) : Occurrence :=
  match c.held with
  | none => .other
  | some _ =>
      if c.state = some .running then c.failure c.count (c.stableRun h window) else .other

/-- What an operation means. -/
def occurrence (c : RestartChain) (h : History) (window : ℕ) : ChainOp → Occurrence
  | .start launch => c.launchOccurrence none launch
  | .fire i launch =>
      match c.plans[i]? with
      | none => .other
      | some plan => c.launchOccurrence (some plan.attempt) launch
  | .exit crash => c.exitOccurrence h window crash
  | .expire => c.expireOccurrence h window
  | .stop answer reacquired =>
      -- A stop that left its row stopped was one.
      if c.state ≠ some .stopped ∧ (c.stop answer reacquired).state = some .stopped then .stopped
      else .other
  | .resume => if c.state = some .paused then .resumed else .other
  | .reopen .. => .adopted
  | _ => .other

/-- What one operation owes to the chain. -/
structure Bounded (window : ℕ) (c : RestartChain) (h : History) (op : ChainOp) : Prop where
  /-- A scheduled count is durable, and below the crash loop. -/
  scheduled : ∀ plan, (c.step window op).1 = some plan →
    plan.attempt < maxConsecutiveFailures ∧ (c.step window op).2.count = plan.attempt
  /-- A charge counts one more, or one after a stable run, and waits its backoff.  The one that
  reaches the crash loop is terminal. -/
  charged : ∀ current stable, c.occurrence h window op = .charged current stable →
    let next := if stable then 1 else current + 1
    (c.step window op).2.state = some .failed ∧
      if next < maxConsecutiveFailures then
        (c.step window op).1 = some ⟨next, production.ideal next⟩
      else (c.step window op).1 = none
  /-- A requested relaunch is scheduled with the count as it is, and waits one step longer than
  the one before it. -/
  requested : c.occurrence h window op = .requested →
    (c.step window op).1 = some ⟨c.count, production.ideal (c.count + (h.requested + 1))⟩ ∧
      (c.step window op).2.count = c.count ∧ (c.step window op).2.state = some .failed
  /-- What ends the chain leaves no streak behind. -/
  restarts : (h.next c.clock (c.occurrence h window op)).requested = 0 →
    (c.step window op).2.streak.getD 0 = 0
  /-- Under `never` nothing is scheduled. -/
  never : c.policy = .never → (c.step window op).1 = none

/-! ### The plan of a failure -/

variable {c : RestartChain} {h : History} {window : ℕ}

/-- What the plan of a failure amounts to, charged against the count of `c`. -/
structure Planned (c : RestartChain) (stable : Bool) (r : Option DelayedPlan × RestartChain) :
    Prop where
  frame : r.2 = { c with streak := none, record := r.2.record }
  count_lt : r.2.count < maxConsecutiveFailures
  never : c.policy = .never → r.1 = none
  charged : c.policy ≠ .never →
    let next := if stable then 1 else c.count + 1
    if next < maxConsecutiveFailures then r.1 = some ⟨next, production.ideal next⟩ else r.1 = none
  below : ∀ plan, r.1 = some plan → plan.attempt < maxConsecutiveFailures
  durable : c.record.isSome → ∀ plan, r.1 = some plan → r.2.count = plan.attempt

theorem settleTerminalRecord_count (c : RestartChain) (policy : RestartPolicy) :
    (c.settleTerminalRecord policy).count = 0 ∨
      (c.settleTerminalRecord policy).count = c.count := by
  cases hr : c.record with
  | none => exact .inl (by simp [settleTerminalRecord, settleSpawnRecord, setRestartPolicy, count,
      Supervisor.settledRecord, hr])
  | some r =>
      by_cases hacp : r.acpSession
      · exact .inr (by simp [settleTerminalRecord, settleSpawnRecord, setRestartPolicy, count,
          Supervisor.settledRecord, hr, hacp])
      · exact .inl (by simp [settleTerminalRecord, settleSpawnRecord, setRestartPolicy, count,
          Supervisor.settledRecord, hr, hacp])

theorem settleTerminalRecord_count_lt (hcount : c.count < maxConsecutiveFailures)
    (policy : RestartPolicy) : (c.settleTerminalRecord policy).count < maxConsecutiveFailures := by
  rcases c.settleTerminalRecord_count policy with h | h <;> rw [h]
  · decide
  · exact hcount

theorem planRestart_spec (hcount : c.count < maxConsecutiveFailures) (window : ℕ)
    (runningFor : Option ℕ) :
    Planned c (Restart.stable runningFor window) (c.planRestart window runningFor) := by
  have hmax : maxConsecutiveFailures ≤ u32Max := by decide
  have hnext := Restart.nextConsecutiveFailures_eq (hcount.trans_le hmax) runningFor window
  generalize Restart.stable runningFor window = stable at hnext ⊢
  generalize hn : (if stable then 1 else c.count + 1) = next at hnext
  have hfst : (Restart.nextConsecutiveFailures
      ({ c with streak := none } : RestartChain).count runningFor window).1 = next :=
    congrArg Prod.fst hnext
  have hsettled := settleTerminalRecord_count_lt (c := { c with streak := none }) hcount c.policy
  by_cases hnever : c.policy = .never
  · have hr : c.planRestart window runningFor
        = (none, { c with streak := none }.settleTerminalRecord c.policy) :=
      if_pos hnever
    rw [hr]
    exact ⟨rfl, hsettled, fun _ => rfl, fun h => absurd hnever h, fun _ h => (nomatch h),
      fun _ _ h => nomatch h⟩
  · by_cases hlt : next < maxConsecutiveFailures
    · -- one failure more is allowed, and is planned
      have hloop : isCrashLoop next = false := by simpa [isCrashLoop] using hlt
      have hr : c.planRestart window runningFor
          = (some ⟨next, production.delayFor next⟩,
            { c with streak := none }.setRestartCount next) := by
        refine (if_neg hnever).trans ?_
        simp only [hfst, hloop]
        rfl
      have hset (hsome : c.record.isSome) :
          ({ c with streak := none }.setRestartCount next).count = next := by
        obtain ⟨r, hr⟩ := Option.isSome_iff_exists.1 hsome
        simp [setRestartCount, count, hr]
      rw [hr]
      refine ⟨rfl, ?_, fun h => absurd h hnever, fun _ => ?_, fun plan hplan => ?_,
        fun hsome plan hplan => ?_⟩
      · cases hrec : c.record with
        | none => simp [setRestartCount, count, maxConsecutiveFailures]
        | some r => simpa [setRestartCount, count, hrec] using hlt
      · simp only [hn, if_pos hlt, production_sane.delayFor_eq]
      · obtain rfl := Option.some.inj hplan
        exact hlt
      · obtain rfl := Option.some.inj hplan
        exact hset hsome
    · -- a crash loop: the record is settled and nothing planned
      have hloop : isCrashLoop next = true := by simpa [isCrashLoop] using hlt
      have hr : c.planRestart window runningFor
          = (none, { c with streak := none }.settleTerminalRecord c.policy) := by
        refine (if_neg hnever).trans (if_pos ?_)
        rw [hfst, hloop]
      rw [hr]
      refine ⟨rfl, hsettled, fun _ => rfl, fun _ => ?_, fun _ h => (nomatch h),
        fun _ _ h => nomatch h⟩
      simp only [hn, if_neg hlt]

/-- A requested relaunch leaves the count alone.  Its index and its depth are cut to a word. -/
theorem planRequestedRestart_onFailure (hpolicy : c.policy ≠ .never) :
    c.planRequestedRestart =
      (some (⟨c.count, production.delayFor ((c.count + c.streak.getD 0 + 1) % 2 ^ 32)⟩,
        (c.streak.getD 0 + 1) % 2 ^ 32),
        { c with streak := some ((c.streak.getD 0 + 1) % 2 ^ 32) }) :=
  if_neg hpolicy

theorem planRequestedRestart_never (hpolicy : c.policy = .never) :
    c.planRequestedRestart = (none, { c with streak := none }.settleTerminalRecord c.policy) :=
  if_pos hpolicy

/-- The attempt is the one the supervisor plans, which leaves the delay and the run length out. -/
theorem planRestart_attempt (s : Supervisor) (env : Env) (hrecord : s.disk.record = c.record)
    (hcount : c.count < maxConsecutiveFailures) (window : ℕ) (runningFor : Option ℕ) :
    (s.planRestart env (Restart.stable runningFor window)).1
      = (c.planRestart window runningFor).1.map DelayedPlan.attempt := by
  have hspec := planRestart_spec hcount window runningFor
  generalize Restart.stable runningFor window = stable at hspec ⊢
  have hpolicy : s.disk.record.elim .onFailure SpawnRecord.restartPolicy = c.policy :=
    congrArg (Option.elim · .onFailure SpawnRecord.restartPolicy) hrecord
  have hcurrent : s.disk.record.elim 0 SpawnRecord.restartCount = c.count :=
    congrArg (Option.elim · 0 SpawnRecord.restartCount) hrecord
  have hnext : nextConsecutiveFailures c.count stable = if stable then 1 else c.count + 1 := rfl
  unfold Supervisor.planRestart
  simp only [hpolicy, hcurrent, hnext]
  by_cases hnever : c.policy = .never
  · simp [hnever, hspec.never hnever]
  · have hcharged := hspec.charged hnever
    dsimp only at hcharged
    generalize (if stable then 1 else c.count + 1) = next at hcharged ⊢
    by_cases hlt : next < maxConsecutiveFailures
    · rw [if_pos hlt] at hcharged
      have hloop : isCrashLoop next = false := by simpa [isCrashLoop] using hlt
      simp [hnever, hcharged, hloop]
    · rw [if_neg hlt] at hcharged
      have hloop : isCrashLoop next = true := by simpa [isCrashLoop] using hlt
      simp [hnever, hcharged, hloop]

theorem planRequestedRestart_attempt (s : Supervisor) (env : Env)
    (hrecord : s.disk.record = c.record) :
    (s.planRequestedRestart env).1 = c.planRequestedRestart.1.map fun p => p.1.attempt := by
  have hpolicy : s.disk.record.elim .onFailure SpawnRecord.restartPolicy = c.policy :=
    congrArg (Option.elim · .onFailure SpawnRecord.restartPolicy) hrecord
  have hcurrent : s.disk.record.elim 0 SpawnRecord.restartCount = c.count :=
    congrArg (Option.elim · 0 SpawnRecord.restartCount) hrecord
  unfold Supervisor.planRequestedRestart
  simp only [hpolicy, hcurrent]
  by_cases hnever : c.policy = .never
  · rw [planRequestedRestart_never hnever, if_pos hnever]
    rfl
  · rw [planRequestedRestart_onFailure hnever, if_neg hnever]
    rfl

/-! ### The counters -/

/-- The counters agree with what an observer counts, the memory counter up to a word. -/
structure Paced (c : RestartChain) (h : History) : Prop where
  count_lt : c.count < maxConsecutiveFailures
  plans_lt : ∀ plan ∈ c.plans, plan.attempt < maxConsecutiveFailures
  streak_eq : c.streak.getD 0 = h.requested % 2 ^ 32
  since_eq : c.state = some .running → ∀ w, c.held = some w → w.runningSince = h.runningSince
  recorded : c.state = some .running ∨ c.state = some .paused → c.record.isSome

theorem Paced.empty : Paced empty ⟨0, 0⟩ where
  count_lt := by decide
  plans_lt := by simp [RestartChain.empty]
  streak_eq := rfl
  since_eq := by simp [RestartChain.empty]
  recorded := by simp [RestartChain.empty]

/-- A failed instance with one more plan. -/
theorem Paced.ofFailed {h' : History} {r : Option DelayedPlan × RestartChain}
    (hplans : ∀ plan ∈ r.2.plans, plan.attempt < maxConsecutiveFailures)
    (hplan : ∀ plan, r.1 = some plan → plan.attempt < maxConsecutiveFailures)
    (hcount : r.2.count < maxConsecutiveFailures)
    (hstreak : r.2.streak.getD 0 = h'.requested % 2 ^ 32) :
    Paced ({ r.2 with state := some .failed }.queue r.1) h' where
  count_lt := hcount
  plans_lt := by
    intro plan hmem
    rcases List.mem_append.1 hmem with hmem | hmem
    · exact hplans plan hmem
    · exact hplan plan (by simpa using hmem)
  streak_eq := hstreak
  since_eq := by simp [queue]
  recorded := by simp [queue]

/-- An instance whose chain is over and that neither runs nor is paused. -/
theorem Paced.ofEnded {c' : RestartChain} {h' : History} (hp : Paced c h)
    (hcount : c'.count < maxConsecutiveFailures) (hplans : ∀ plan ∈ c'.plans, plan ∈ c.plans)
    (hstreak : c'.streak.getD 0 = h'.requested % 2 ^ 32)
    (hrow : c'.state ≠ some .running ∧ c'.state ≠ some .paused) : Paced c' h' where
  count_lt := hcount
  plans_lt := fun plan hmem => hp.plans_lt plan (hplans plan hmem)
  streak_eq := hstreak
  since_eq := fun h => absurd h hrow.1
  recorded := fun h => absurd h (not_or.2 hrow)

theorem settleSpawnRecord_count_lt (hcount : c.count < maxConsecutiveFailures) :
    c.settleSpawnRecord.count < maxConsecutiveFailures := by
  cases hr : c.record with
  | none => simp [settleSpawnRecord, count, Supervisor.settledRecord, hr, maxConsecutiveFailures]
  | some r =>
      by_cases hacp : r.acpSession
      · simpa [settleSpawnRecord, count, Supervisor.settledRecord, hr, hacp] using hcount
      · simp [settleSpawnRecord, count, Supervisor.settledRecord, hr, hacp,
          maxConsecutiveFailures]

/-! ### Failures -/

/-- What a failure owes to the chain. -/
structure Answers (policy : RestartPolicy) (o : Occurrence)
    (r : Option DelayedPlan × RestartChain) : Prop where
  scheduled : ∀ plan, r.1 = some plan →
    plan.attempt < maxConsecutiveFailures ∧ r.2.count = plan.attempt
  charged : ∀ current stable, o = .charged current stable →
    let next := if stable then 1 else current + 1
    r.2.state = some .failed ∧
      if next < maxConsecutiveFailures then r.1 = some ⟨next, production.ideal next⟩
      else r.1 = none
  never : policy = .never → r.1 = none

/-- Where nothing is planned and nothing is charged, nothing is owed. -/
theorem Answers.quiet {policy : RestartPolicy} {o : Occurrence} {c' : RestartChain}
    (ho : ∀ current stable, o ≠ .charged current stable) : Answers policy o (none, c') where
  scheduled := fun _ h => nomatch h
  charged := fun current stable h => absurd h (ho current stable)
  never := fun _ => rfl

/-- A failure that is planned for is answered. -/
theorem Planned.answers {stable : Bool} {r : Option DelayedPlan × RestartChain}
    (hr : Planned c stable r) (hrecord : c.record.isSome) :
    Answers c.policy (c.failure c.count stable)
      (r.1, { r.2 with state := some .failed }.queue r.1) where
  scheduled := fun plan hplan => ⟨hr.below plan hplan, hr.durable hrecord plan hplan⟩
  charged := by
    intro current stable' ho
    by_cases hnever : c.policy = .never
    · simp [failure, hnever] at ho
    · obtain ⟨rfl, rfl⟩ : c.count = current ∧ stable = stable' := by
        simpa [failure, hnever] using ho
      exact ⟨rfl, hr.charged hnever⟩
  never := hr.never

/-- A failure ends the requested chain. -/
theorem requested_next_failure (h : History) (clock current : ℕ) (stable : Bool) :
    (h.next clock (c.failure current stable)).requested = 0 := by
  unfold failure
  split <;> rfl

/-- A failure that is planned for leaves the counters in step. -/
theorem Planned.paced {stable : Bool} {r : Option DelayedPlan × RestartChain} {h' : History}
    (hr : Planned c stable r)
    (hplans : ∀ plan ∈ c.plans, plan.attempt < maxConsecutiveFailures) (hh : h'.requested = 0) :
    Paced ({ r.2 with state := some .failed }.queue r.1) h' := by
  refine Paced.ofFailed ?_ hr.below hr.count_lt ?_
  · rw [hr.frame]
    exact hplans
  · rw [hr.frame, hh]
    rfl

/-! ### Launches -/

/-- A launch keeps the counters in step. -/
theorem Paced.startInner (hp : Paced c h) {restart : Option ℕ}
    (hrestart : restart.getD 0 < maxConsecutiveFailures) (window : ℕ) (launch : Launch) :
    Paced (c.startInner window restart launch).2
      (h.next c.clock (c.launchOccurrence restart launch)) := by
  unfold RestartChain.startInner launchOccurrence
  cases hgate : c.state.bind fun state => nextState state .start with
  | none => exact hp
  | some next =>
      cases launch with
      | refused => exact hp
      | unrecorded =>
          exact hp.ofEnded hp.count_lt (fun _ hmem => hmem) hp.streak_eq (by simp)
      | unready p =>
          exact hp.ofEnded hrestart (fun _ hmem => hmem) hp.streak_eq (by simp)
      | exited p =>
          exact (planRestart_spec (c := c.writeSpawnRecord restart p) hrestart window none).paced
            hp.plans_lt (requested_next_failure ..)
      | ready p =>
          refine ⟨hrestart, hp.plans_lt, ?_, ?_, fun _ => rfl⟩
          · cases restart with
            | none => rfl
            | some attempt => exact hp.streak_eq
          · intro _ w hw
            obtain rfl := Option.some.inj hw
            cases restart <;> rfl

/-- A launch that fails under the policy is answered. -/
theorem startInner_answers {restart : Option ℕ}
    (hrestart : restart.getD 0 < maxConsecutiveFailures) (window : ℕ) (launch : Launch) :
    Answers c.policy (c.launchOccurrence restart launch)
      (c.startInner window restart launch) := by
  unfold startInner launchOccurrence
  cases c.state.bind fun state => nextState state .start with
  | none => exact .quiet (by simp)
  | some next =>
      cases launch with
      | refused => exact .quiet (by simp)
      | unrecorded => exact .quiet (by simp)
      | unready p => exact .quiet (by simp)
      | exited p =>
          exact (planRestart_spec (c := c.writeSpawnRecord restart p) hrestart window none).answers
            rfl
      | ready p => exact .quiet (by cases restart <;> simp)

theorem launchOccurrence_ne_requested (c : RestartChain) (restart : Option ℕ) (launch : Launch) :
    c.launchOccurrence restart launch ≠ .requested := by
  unfold launchOccurrence failure
  split
  · split <;> simp
  · split <;> simp
  · simp

/-! ### The end of a process -/

variable {w : Watched} {state : LifecycleState}

/-- The handle measures the run the observer has seen. -/
theorem Paced.stable_eq (hp : Paced c h) (hheld : c.held = some w) (window : ℕ) :
    Restart.stable (c.runningFor w) window = c.stableRun h window := by
  unfold runningFor stableRun
  by_cases hrun : c.state = some .running
  · simp [Restart.stable, hrun, hp.since_eq hrun w hheld]
  · simp [Restart.stable, hrun]

/-- The next index of a requested chain, one cut after the other. -/
theorem Paced.streak_succ (hp : Paced c h) :
    (c.streak.getD 0 + 1) % 2 ^ 32 = (h.requested + 1) % 2 ^ 32 := by
  rw [hp.streak_eq]
  omega

theorem Paced.index_eq (hp : Paced c h) :
    (c.count + c.streak.getD 0 + 1) % 2 ^ 32 = (c.count + (h.requested + 1)) % 2 ^ 32 := by
  rw [hp.streak_eq]
  omega

/-- All the end of a process can do, with what it means. -/
inductive ProcessEnd (c : RestartChain) (h : History) (window : ℕ) :
    Occurrence → Option DelayedPlan × RestartChain → Prop where
  | unseen : ProcessEnd c h window .other (none, c)
  | clean : ProcessEnd c h window .cleanExit (none, c.stopped)
  | healed : ProcessEnd c h window .stopped (none, c.stopped)
  | past (o : Occurrence) (ho : o = .terminalExit ∨ o = .stopped)
      (hrow : c.state ≠ some .running ∧ c.state ≠ some .paused) :
      ProcessEnd c h window o (none, c.dropped)
  | refused (hpolicy : c.policy = .never) :
      ProcessEnd c h window .terminalExit
        (none, { c.dropped.settleTerminalRecord c.policy with state := some .failed }.queue none)
  | requested (plan : DelayedPlan) (hpolicy : c.policy ≠ .never)
      (hplan : plan =
        ⟨c.count, production.delayFor ((c.count + c.streak.getD 0 + 1) % 2 ^ 32)⟩) :
      ProcessEnd c h window .requested (some plan,
        { c.released with
          streak := some ((c.streak.getD 0 + 1) % 2 ^ 32)
          state := some .failed }.queue (some plan))
  | failed (w : Watched) (hheld : c.held = some w)
      (hrow : c.state = some .running ∨ c.state = some .paused)
      (r : Option DelayedPlan × RestartChain)
      (hr : r = c.released.planRestart window (c.runningFor w)) :
      ProcessEnd c h window (c.failure c.count (c.stableRun h window))
        (r.1, { r.2 with state := some .failed }.queue r.1)

theorem handleExit_end (c : RestartChain) (h : History) (window : ℕ) (crash : CrashInput) :
    ProcessEnd c h window (c.exitOccurrence h window crash) (c.handleExit window crash) := by
  unfold handleExit exitOccurrence
  cases hheld : c.held with
  | none => exact .unseen
  | some w =>
      cases hstate : c.state with
      | none => exact .past _ (.inl rfl) (by simp [hstate])
      | some state =>
          by_cases hlive : state = .running ∨ state = .paused
          · simp only [if_pos hlive]
            have hrow : c.state = some .running ∨ c.state = some .paused := by
              simpa [hstate] using hlive
            rcases classifyExit w.exitCodes crash state with _ | ⟨_ | _, code⟩
            · exact .failed w hheld hrow _ rfl
            · exact .clean
            · by_cases hpolicy : c.policy = .never
              · simp only [planFailure, if_pos hpolicy,
                  planRequestedRestart_never (c := c.released) hpolicy]
                exact .refused hpolicy
              · simp only [planFailure, if_neg hpolicy,
                  planRequestedRestart_onFailure (c := c.released) hpolicy]
                exact .requested _ hpolicy rfl
          · simp only [if_neg hlive]
            by_cases hflag : state = .stopping ∧ w.stopUnconfirmed
            · rw [if_pos hflag]
              exact .healed
            · rw [if_neg hflag]
              exact .past _ (.inr rfl) (by simpa [hstate, not_or] using hlive)

theorem Paced.stopped {h' : History} (hp : Paced c h) (hh : h'.requested = 0) :
    Paced c.stopped h' :=
  hp.ofEnded (settleSpawnRecord_count_lt (c := c.dropped) hp.count_lt) (fun _ hmem => hmem)
    (by rw [hh]; rfl) (by simp [RestartChain.stopped])

theorem Paced.dropped {h' : History} (hp : Paced c h) (hh : h'.requested = 0)
    (hrow : c.state ≠ some .running ∧ c.state ≠ some .paused) : Paced c.dropped h' :=
  hp.ofEnded hp.count_lt (fun _ hmem => hmem) (by rw [hh]; rfl) hrow

/-- The end of a process keeps the counters in step. -/
theorem Paced.handleExit (hp : Paced c h) (window : ℕ) (crash : CrashInput) :
    Paced (c.handleExit window crash).2 (h.next c.clock (c.exitOccurrence h window crash)) := by
  have hend := c.handleExit_end h window crash
  generalize c.handleExit window crash = r at hend ⊢
  generalize c.exitOccurrence h window crash = o at hend ⊢
  cases hend with
  | unseen => exact hp
  | clean => exact hp.stopped rfl
  | healed => exact hp.stopped rfl
  | past o ho hrow =>
      refine hp.dropped ?_ hrow
      rcases ho with rfl | rfl <;> rfl
  | refused hpolicy =>
      exact hp.ofEnded (settleTerminalRecord_count_lt (c := c.dropped) hp.count_lt _)
        (by simp [queue, settleTerminalRecord, settleSpawnRecord, setRestartPolicy,
          RestartChain.dropped]) rfl (by simp [queue])
  | requested plan hpolicy hplan =>
      refine Paced.ofFailed (r := (some plan, { c.released with streak := some _ }))
        hp.plans_lt ?_ hp.count_lt hp.streak_succ
      intro plan' hplan'
      obtain rfl := Option.some.inj hplan'
      rw [hplan]
      exact hp.count_lt
  | failed w hheld hrow r hr =>
      subst hr
      exact (planRestart_spec (c := c.released) hp.count_lt window
        (c.runningFor w)).paced hp.plans_lt (requested_next_failure ..)

/-- The expiry of a liveness window: nothing, or a failure of a running instance. -/
theorem expire_cases (c : RestartChain) (h : History) (window : ℕ) :
    (c.expireOccurrence h window = .other ∧ c.expire window = (none, c)) ∨
    ∃ w, c.held = some w ∧ c.state = some .running ∧
      c.expireOccurrence h window = c.failure c.count (c.stableRun h window) ∧
      ∃ r, r = c.released.planRestart window (c.runningFor w) ∧
        c.expire window = (r.1, { r.2 with state := some .failed }.queue r.1) := by
  unfold expire expireOccurrence
  cases hheld : c.held with
  | none => exact .inl ⟨rfl, rfl⟩
  | some w =>
      by_cases hrun : c.state = some .running
      · have hfor : c.runningFor w = some (c.clock - w.runningSince) := if_pos hrun
        exact .inr ⟨w, rfl, hrun, if_pos hrun, _, rfl, by rw [hfor]; exact if_pos hrun⟩
      · exact .inl ⟨if_neg hrun, if_neg hrun⟩

/-- The expiry of a liveness window keeps the counters in step. -/
theorem Paced.expire (hp : Paced c h) (window : ℕ) :
    Paced (c.expire window).2 (h.next c.clock (c.expireOccurrence h window)) := by
  rcases c.expire_cases h window with ⟨ho, hr⟩ | ⟨w, hheld, hrun, ho, r, hplan, hr⟩
  · rw [ho, hr]
    exact hp
  · rw [ho, hr, hplan]
    exact (planRestart_spec (c := c.released) hp.count_lt window (c.runningFor w)).paced
      hp.plans_lt (requested_next_failure ..)

/-- The failure of a held process is answered. -/
theorem Paced.failure_answers (hp : Paced c h) (hheld : c.held = some w)
    (hrow : c.state = some .running ∨ c.state = some .paused) (window : ℕ)
    {r : Option DelayedPlan × RestartChain}
    (hr : r = c.released.planRestart window (c.runningFor w)) :
    Answers c.policy (c.failure c.count (c.stableRun h window))
      (r.1, { r.2 with state := some .failed }.queue r.1) := by
  have hspec := planRestart_spec (c := c.released) hp.count_lt window (c.runningFor w)
  rw [hp.stable_eq hheld, ← hr] at hspec
  exact hspec.answers (hp.recorded hrow)

/-! ### Stops, pauses and adoption -/

/-- All a stop can do: nothing, stop the instance, or leave it stopping with its handle. -/
theorem stop_cases (c : RestartChain) (answer : StopAnswer) (reacquired : Bool) :
    c.stop answer reacquired = c ∨
    (c.state ≠ some .stopped ∧ ∃ w, c.stop answer reacquired
      = { c with state := some .stopping, held := w }.stopped) ∨
    ∃ w, c.stop answer reacquired = { c with state := some .stopping, held := w } := by
  unfold stop
  by_cases hretry : c.state = some .stopping ∧ c.held.any Watched.stopUnconfirmed
  · rw [if_pos hretry]
    cases answer with
    | stopped forced => exact .inr (.inl ⟨by simp [hretry.1], none, rfl⟩)
    | unconfirmed => exact .inl rfl
    | failed => exact .inl rfl
  · rw [if_neg hretry]
    cases hgate : c.state.bind fun state => nextState state .stop with
    | none => exact .inl rfl
    | some next =>
        obtain ⟨state, hstate, hnext⟩ := Option.bind_eq_some_iff.1 hgate
        obtain ⟨rfl, hlive⟩ : next = .stopping ∧ state ≠ .stopped := by
          cases state <;> simp_all [nextState]
        have hrow : c.state ≠ some .stopped := by simpa [hstate] using hlive
        cases hheld : c.stopHandle reacquired with
        | none => exact .inr (.inl ⟨hrow, none, by cases answer <;> rfl⟩)
        | some w =>
            cases answer with
            | stopped forced => exact .inr (.inl ⟨hrow, some w, rfl⟩)
            | unconfirmed => exact .inr (.inr ⟨some { w with stopUnconfirmed := true }, rfl⟩)
            | failed => exact .inr (.inr ⟨some w, rfl⟩)

/-- A stop keeps the counters in step. -/
theorem Paced.stop (hp : Paced c h) (window : ℕ) (answer : StopAnswer) (reacquired : Bool) :
    Paced (c.stop answer reacquired)
      (h.next c.clock (c.occurrence h window (.stop answer reacquired))) := by
  have hstopping (w : Option Watched) :
      Paced { c with state := some .stopping, held := w } h :=
    hp.ofEnded hp.count_lt (fun _ hmem => hmem) hp.streak_eq (by simp)
  unfold occurrence
  rcases c.stop_cases answer reacquired with hr | ⟨hrow, w, hr⟩ | ⟨w, hr⟩
  · simp only [hr]
    rw [if_neg fun h => h.1 h.2]
    exact hp
  · simp only [hr]
    rw [if_pos ⟨hrow, rfl⟩]
    exact (hstopping w).stopped rfl
  · simp only [hr]
    rw [if_neg (by simp)]
    exact hstopping w

/-- A resume keeps the counters in step. -/
theorem Paced.resume (hp : Paced c h) (window : ℕ) :
    Paced c.resume (h.next c.clock (c.occurrence h window .resume)) := by
  unfold RestartChain.resume occurrence
  by_cases hrow : c.state = some .paused
  · simp only [if_pos hrow]
    refine ⟨hp.count_lt, hp.plans_lt, hp.streak_eq, ?_, fun _ => hp.recorded (.inr hrow)⟩
    intro _ w hw
    obtain ⟨w', -, rfl⟩ := Option.map_eq_some_iff.1 hw
    rfl
  · simp only [if_neg hrow]
    exact hp

/-- The next engine starts in step. -/
theorem Paced.reopen (hp : Paced c h) (answer : AdoptAnswer) (foreign : Bool)
    (exitCodes : List (ℕ × ExitClass)) :
    Paced (c.reopen answer foreign exitCodes) ⟨0, c.clock⟩ := by
  have hclosed : Paced { c with held := none, streak := none, plans := [] } ⟨0, c.clock⟩ :=
    ⟨hp.count_lt, by simp, rfl, by simp, hp.recorded⟩
  have hgone : Paced { c with held := none, streak := none, plans := [] }.reconcileOrphanFailed
      ⟨0, c.clock⟩ := by
    refine hclosed.ofEnded (settleSpawnRecord_count_lt hclosed.count_lt) (fun _ hmem => hmem) rfl ?_
    cases hstate : c.state with
    | none => simp [reconcileOrphanFailed]
    | some state => cases state <;> simp [reconcileOrphanFailed]
  unfold RestartChain.reopen
  dsimp only
  split
  · cases answer with
    | held =>
        refine ⟨hp.count_lt, by simp, rfl, ?_, hp.recorded⟩
        intro _ w hw
        obtain rfl := Option.some.inj hw
        rfl
    | gone => exact hgone
    | unreadable => exact hgone
  · exact hclosed

/-! ### Every operation -/

/-- Every operation keeps the counters in step. -/
theorem Paced.next (hp : Paced c h) (window : ℕ) (op : ChainOp) :
    Paced (c.step window op).2 (h.next c.clock (c.occurrence h window op)) := by
  cases op with
  | elapse n => exact ⟨hp.count_lt, hp.plans_lt, hp.streak_eq, hp.since_eq, hp.recorded⟩
  | register =>
      change Paced c.register h
      unfold register
      split
      · exact hp.ofEnded (by simp [count, maxConsecutiveFailures]) (fun _ hmem => hmem)
          hp.streak_eq (by simp)
      · exact hp
  | remove =>
      change Paced c.remove h
      unfold remove
      split
      · exact hp
      · exact hp.ofEnded (by simp [count, maxConsecutiveFailures]) (fun _ hmem => hmem)
          hp.streak_eq (by simp)
  | setPolicy policy =>
      change Paced (if c.state = none then c else c.setRestartPolicy policy) h
      split
      · exact hp
      · refine ⟨?_, hp.plans_lt, hp.streak_eq, hp.since_eq, fun _ => rfl⟩
        have hcount := hp.count_lt
        cases hrec : c.record with
        | none => simp [setRestartPolicy, count, hrec, maxConsecutiveFailures]
        | some r => simpa [setRestartPolicy, count, hrec] using hcount
  | start launch => exact hp.startInner (by decide) window launch
  | fire i launch =>
      change Paced (c.fire window i launch).2 _
      unfold RestartChain.fire occurrence
      cases hplan : c.plans[i]? with
      | none =>
          simp only [hplan]
          exact hp
      | some plan =>
          have herased : Paced { c with plans := c.plans.eraseIdx i } h :=
            ⟨hp.count_lt, fun plan hmem => hp.plans_lt plan (List.mem_of_mem_eraseIdx hmem),
              hp.streak_eq, hp.since_eq, hp.recorded⟩
          have hattempt : (some plan.attempt).getD 0 < maxConsecutiveFailures :=
            hp.plans_lt plan (List.mem_of_getElem? hplan)
          simp only [hplan]
          exact herased.startInner hattempt window launch
  | exit crash => exact hp.handleExit window crash
  | expire => exact hp.expire window
  | stop answer reacquired => exact hp.stop window answer reacquired
  | pause =>
      change Paced c.pause h
      unfold pause
      split
      · next hrow =>
          exact ⟨hp.count_lt, hp.plans_lt, hp.streak_eq, by simp,
            fun _ => hp.recorded (.inl hrow)⟩
      · exact hp
  | resume => exact hp.resume window
  | reopen answer foreign exitCodes => exact hp.reopen answer foreign exitCodes

/-- The failures an operation can mean are answered. -/
theorem Paced.answers (hp : Paced c h) (window : ℕ) (op : ChainOp)
    (ho : c.occurrence h window op ≠ .requested) :
    Answers c.policy (c.occurrence h window op) (c.step window op) := by
  cases op with
  | start launch => exact startInner_answers (by decide) window launch
  | fire i launch =>
      change Answers c.policy _ (c.fire window i launch)
      unfold fire occurrence
      cases hplan : c.plans[i]? with
      | none =>
          simp only [hplan]
          exact .quiet (by simp)
      | some plan =>
          have hattempt : (some plan.attempt).getD 0 < maxConsecutiveFailures :=
            hp.plans_lt plan (List.mem_of_getElem? hplan)
          simp only [hplan]
          exact startInner_answers (c := { c with plans := c.plans.eraseIdx i }) hattempt window
            launch
  | exit crash =>
      have hend := c.handleExit_end h window crash
      change c.exitOccurrence h window crash ≠ .requested at ho
      change Answers c.policy (c.exitOccurrence h window crash) (c.handleExit window crash)
      generalize c.handleExit window crash = r at hend ⊢
      generalize c.exitOccurrence h window crash = o at hend ho ⊢
      cases hend with
      | unseen => exact .quiet (by simp)
      | clean => exact .quiet (by simp)
      | healed => exact .quiet (by simp)
      | past o ho' hrow =>
          refine .quiet fun current stable => ?_
          rcases ho' with rfl | rfl <;> simp
      | refused hpolicy => exact .quiet (by simp)
      | requested plan hpolicy hplan => exact absurd rfl ho
      | failed w hheld hrow r hr => exact hp.failure_answers hheld hrow window hr
  | expire =>
      change Answers c.policy (c.expireOccurrence h window) (c.expire window)
      rcases c.expire_cases h window with ⟨ho', hr⟩ | ⟨w, hheld, hrun, ho', r, hplan, hr⟩
      · rw [ho', hr]
        exact .quiet (by simp)
      · rw [ho', hr]
        exact hp.failure_answers hheld (.inl hrun) window hplan
  | stop answer reacquired =>
      refine .quiet fun current stable => ?_
      unfold occurrence
      dsimp only
      split <;> simp
  | resume =>
      refine .quiet fun current stable => ?_
      unfold occurrence
      dsimp only
      split <;> simp
  | elapse n => exact .quiet (by simp [occurrence])
  | register => exact .quiet (by simp [occurrence])
  | remove => exact .quiet (by simp [occurrence])
  | setPolicy policy => exact .quiet (by simp [occurrence])
  | pause => exact .quiet (by simp [occurrence])
  | reopen answer foreign exitCodes => exact .quiet (by simp [occurrence])

/-- What a requested relaunch does. -/
structure RequestEnd (c : RestartChain) (r : Option DelayedPlan × RestartChain) : Prop where
  policy : c.policy ≠ .never
  plan : r.1
    = some ⟨c.count, production.delayFor ((c.count + c.streak.getD 0 + 1) % 2 ^ 32)⟩
  count : r.2.count = c.count
  state : r.2.state = some .failed

theorem failure_ne_requested (c : RestartChain) (current : ℕ) (stable : Bool) :
    c.failure current stable ≠ .requested := by
  unfold failure
  split <;> simp

/-- Only the exit of a process asks for a relaunch. -/
theorem requestEnd {op : ChainOp} (ho : c.occurrence h window op = .requested) :
    RequestEnd c (c.step window op) := by
  cases op with
  | exit crash =>
      have hend := c.handleExit_end h window crash
      change c.exitOccurrence h window crash = .requested at ho
      change RequestEnd c (c.handleExit window crash)
      rw [ho] at hend
      generalize c.handleExit window crash = r at hend ⊢
      generalize ho' : Occurrence.requested = o at hend
      cases hend with
      | requested plan hpolicy hplan => exact ⟨hpolicy, congrArg some hplan, rfl, rfl⟩
      | past o ho hrow => rcases ho with rfl | rfl <;> simp at ho'
      | failed w hheld hrow r hr => exact absurd ho'.symm (c.failure_ne_requested _ _)
      | unseen => simp at ho'
      | clean => simp at ho'
      | healed => simp at ho'
      | refused hpolicy => simp at ho'
  | start launch => exact absurd ho (c.launchOccurrence_ne_requested none launch)
  | fire i launch =>
      unfold occurrence at ho
      cases hplan : c.plans[i]? with
      | none => simp [hplan] at ho
      | some plan =>
          simp only [hplan] at ho
          exact absurd ho (c.launchOccurrence_ne_requested _ launch)
  | expire =>
      rcases c.expire_cases h window with ⟨ho', -⟩ | ⟨w, -, -, ho', -⟩
      · exact absurd (ho'.symm.trans ho) (by simp)
      · exact absurd (ho'.symm.trans ho) (c.failure_ne_requested _ _)
  | stop answer reacquired =>
      unfold occurrence at ho
      dsimp only at ho
      split at ho <;> simp at ho
  | resume =>
      unfold occurrence at ho
      dsimp only at ho
      split at ho <;> simp at ho
  | elapse n => simp [occurrence] at ho
  | register => simp [occurrence] at ho
  | remove => simp [occurrence] at ho
  | setPolicy policy => simp [occurrence] at ho
  | pause => simp [occurrence] at ho
  | reopen answer foreign exitCodes => simp [occurrence] at ho

/-- The index of a requested relaunch fits: nothing of it is cut off, or the rest waits the cap. -/
def IndexFits (n : ℕ) : Prop := n < 2 ^ 32 ∨ 7 ≤ n % 2 ^ 32

instance (n : ℕ) : Decidable (IndexFits n) := inferInstanceAs (Decidable (_ ∨ _))

/-- An operation is bounded exactly if it does not ask for a relaunch whose index is cut. -/
theorem Paced.bounded_iff (hp : Paced c h) (window : ℕ) (op : ChainOp) :
    Bounded window c h op ↔
      (c.occurrence h window op = .requested → IndexFits (c.count + (h.requested + 1))) := by
  have hstreak := (hp.next window op).streak_eq
  have hrestarts (hh : (h.next c.clock (c.occurrence h window op)).requested = 0) :
      (c.step window op).2.streak.getD 0 = 0 := by
    rw [hstreak, hh]
    rfl
  by_cases ho : c.occurrence h window op = .requested
  · obtain ⟨hpolicy, hplan, hcount, hstate⟩ := requestEnd ho
    rw [hp.index_eq] at hplan
    have hfits : IndexFits (c.count + (h.requested + 1)) ↔
        production.delayFor ((c.count + (h.requested + 1)) % 2 ^ 32)
          = production.ideal (c.count + (h.requested + 1)) :=
      (delayFor_wrap_iff _).symm
    constructor
    · intro hb _
      have hboth := hplan.symm.trans (hb.requested ho).1
      exact hfits.2 (congrArg DelayedPlan.delay (Option.some.inj hboth))
    · intro hfit
      rw [hfits.1 (hfit ho)] at hplan
      refine ⟨fun plan hsome => ?_, fun current stable h => ?_, fun _ => ⟨hplan, hcount, hstate⟩,
        hrestarts, fun h => absurd h hpolicy⟩
      · obtain rfl := Option.some.inj (hplan.symm.trans hsome)
        exact ⟨hp.count_lt, hcount⟩
      · exact absurd (ho.symm.trans h) (by simp)
  · obtain ⟨hscheduled, hcharged, hnever⟩ := hp.answers window op ho
    exact iff_of_true ⟨hscheduled, hcharged, fun h => absurd h ho, hrestarts, hnever⟩
      fun h => absurd h ho

/-! ### Whole runs -/

/-- The state and the history after a run. -/
def observed (window : ℕ) (c : RestartChain) (h : History) (ops : List ChainOp) :
    RestartChain × History :=
  ops.foldl
    (fun p op => ((p.1.step window op).2, p.2.next p.1.clock (p.1.occurrence p.2 window op)))
    (c, h)

/-- The counters stay in step through a whole run. -/
theorem Paced.observed (hp : Paced c h) (window : ℕ) (ops : List ChainOp) :
    Paced (c.observed window h ops).1 (c.observed window h ops).2 := by
  induction ops generalizing c h with
  | nil => exact hp
  | cons op ops ih => exact ih (hp.next window op)

/-- The state and the history after a run of an engine that starts with nothing. -/
def reached (window : ℕ) (ops : List ChainOp) : RestartChain × History :=
  empty.observed window ⟨0, 0⟩ ops

/-- What the delays owe: they are the base doubled up to the cap, they never fall, and they are
durations. -/
structure DelayLaws (b : BackoffSchedule) : Prop where
  doubles : ∀ n, b.delayFor n = min (b.base * 2 ^ (n - 1)) b.cap
  mono : ∀ n m, n ≤ m → b.delayFor n ≤ b.delayFor m
  fits : ∀ n, b.delayFor n ≤ maxNanos

theorem production_delayLaws : DelayLaws production where
  doubles := production_sane.delayFor_eq
  mono := fun _ _ => production.delayFor_mono
  fits := fun n => (production.delayFor_le_cap n).trans production_sane.cap_le

/-- A process whose exit code 75 asks for a relaunch. -/
def recycling : Spawned := ⟨1, false, false, [(75, .restartRequested)]⟩

/-- It asks for a relaunch, and gets it. -/
def recycle : List ChainOp := [.exit (.exited (some 75)), .fire 0 (.ready recycling)]

/-- A fresh start, and `n` relaunches in a row. -/
def recycles (n : ℕ) : List ChainOp :=
  [.register, .start (.ready recycling)] ++ (List.replicate n recycle).flatten

/-- The instance runs after `k` relaunches in a row. -/
def recycled (streak : Option ℕ) (k : ℕ) : RestartChain × History :=
  (⟨0, some .running, some ⟨1, false, .onFailure, 0, false⟩, some ⟨0, recycling.exitCodes, false⟩,
    streak, []⟩, ⟨k, 0⟩)

theorem observed_recycle (window n : ℕ) (streak : Option ℕ) (k : ℕ) :
    ∃ streak', (recycled streak k).1.observed window (recycled streak k).2
      (List.replicate n recycle).flatten = recycled streak' (k + n) := by
  induction n generalizing streak k with
  | zero => exact ⟨streak, rfl⟩
  | succ n ih =>
      obtain ⟨streak', h⟩ := ih (some ((streak.getD 0 + 1) % 2 ^ 32)) (k + 1)
      exact ⟨streak', by rw [show k + (n + 1) = k + 1 + n by omega]; exact h⟩

theorem reached_recycles (window n : ℕ) :
    ∃ streak, reached window (recycles n) = recycled streak n := by
  obtain ⟨streak, h⟩ := observed_recycle window n none 0
  rw [Nat.zero_add] at h
  exact ⟨streak, h⟩

end RestartChain

end Hekma
