/-
**The state of the supervisor** (`domain/supervisor/mod.rs`, `domain/event.rs`,
`domain/restart.rs`).

The slice of the engine that belongs to one Agent Instance: the durable rows of the instance, the
handle the engine holds for its process, the restarts that are planned, and the agent's logs.  The
operations of other instances do not touch it.

Everything the engine does not decide is answered by its environment, one moment after the other:
whether a store write commits, whether the process is alive, how a stop ends, what the agent has
printed.  An operation is a function of the state and of these answers.

Main definitions:

* `Disk`, `Supervised`, `Supervisor` — the durable rows, a held handle, the engine;
* `Moment`, `Env` — the answers of the environment;
* `Outcome`, `andThen` — a fallible operation keeps the state it failed in;
* `Supervisor.commit` — one store write; every write is a point at which the engine may die.
-/

import Hekma.Domain.Lifecycle
import Hekma.Domain.Pipeline

set_option relaxedAutoImplicit false
set_option autoImplicit false

namespace Hekma

open Governance

/-! ### Transitions -/

/-- Why a transition happened.  The texts of the details are left out. -/
inductive TransitionCause where
  | command (verb : String)
  | adapterReady
  | launchError
  | stopGraceful
  | stopForced
  | pauseBestEffort
  | resumeBestEffort
  | detachedResumed
  | crashed
  | restarted (count : ℕ)
  | readinessTimeout
  | unresponsive
  | restartRequested (code : ℕ)
  | cleanExit (code : ℕ)
  | pauseCooperative
  | resumeCooperative
  | drainStopped (completed : Bool)
  | budgetExceeded (scope : BreachScope) (dimension : BreachDimension) (limit observed : ℕ)
  deriving DecidableEq, Repr

/-- The kind of a cause, as the end cause of a Run spells it. -/
def TransitionCause.text : TransitionCause → String
  | .command verb => "command: " ++ verb
  | .adapterReady => "adapter-ready"
  | .launchError => "launch-error"
  | .stopGraceful => "stop-graceful"
  | .stopForced => "stop-forced"
  | .pauseBestEffort => "pause-best-effort"
  | .resumeBestEffort => "resume-best-effort"
  | .detachedResumed => "detached-resumed"
  | .crashed => "crashed"
  | .restarted _ => "restarted"
  | .readinessTimeout => "readiness-timeout"
  | .unresponsive => "unresponsive"
  | .restartRequested _ => "restart-requested"
  | .cleanExit _ => "clean-exit"
  | .pauseCooperative => "pause-cooperative"
  | .resumeCooperative => "resume-cooperative"
  | .drainStopped _ => "drain-stopped"
  | .budgetExceeded .. => "budget-exceeded"

/-- A recorded transition. -/
structure TransitionEvent where
  priorState : LifecycleState
  newState : LifecycleState
  cause : TransitionCause
  deriving DecidableEq, Repr

/-- How an instance was paused. -/
inductive PauseKind where
  | operator
  | breach
  | cooperative
  deriving DecidableEq, Repr

/-- The kind of the latest pause in a history, oldest event first. -/
def classifyPauseKind (events : List TransitionEvent) : PauseKind :=
  match events.reverse.find? fun event => event.newState = .paused with
  | some event =>
      match event.cause with
      | .budgetExceeded .. => .breach
      | .pauseCooperative => .cooperative
      | _ => .operator
  | none => .operator

/-- Whether a crashed instance is launched again. -/
inductive RestartPolicy where
  | never
  | onFailure
  deriving DecidableEq, Repr

/-- A planned relaunch.  `episode` is not in the source: it names the failure that planned it. -/
structure RestartPlan where
  attempt : ℕ
  episode : ℕ
  deriving DecidableEq, Repr

/-! ### The durable rows -/

/-- The write-ahead record of a spawn.  Process id 0 marks a seed without a process.  The Run id
of the record is a column of the Run tables. -/
structure SpawnRecord where
  pid : ℕ
  detach : Bool
  restartPolicy : RestartPolicy
  restartCount : ℕ
  acpSession : Bool
  deriving DecidableEq, Repr

/-- How far a capability is supported on this system. -/
inductive SupportLevel where
  | guaranteed
  | bestEffort
  | unsupported
  deriving DecidableEq, Repr

/-- What a declared exit code means. -/
inductive ExitClass where
  | clean
  | restartRequested
  deriving DecidableEq, Repr

/-- The configuration in force, and what the adapter declares. -/
structure Config where
  tokenBudget : TokenBudget
  tokenAction : BreachAction
  rate : Option Rate
  costCap : CostCap
  costAction : BreachAction
  restartPolicy : RestartPolicy
  meteringSource : String
  isAcp : Bool
  pauseLevel : SupportLevel
  pauseCommand : Bool
  resumeCommand : Bool
  idleFile : Bool
  readinessProbe : Bool
  livenessCheck : Bool
  exitCodes : List (ℕ × ExitClass)
  labels : List Label
  fixedPort : Bool

/-- The instance meters through the engine's own listener. -/
def Config.observed (c : Config) : Bool := c.meteringSource = "engine-observed"

/-- The durable rows of one instance, with the books all instances share. -/
structure Disk where
  state : Option LifecycleState
  events : List TransitionEvent
  record : Option SpawnRecord
  generation : ℕ
  config : Config
  books : Books

/-! ### The handle -/

/-- The two streams self-reported usage is read from. -/
inductive UsageChannel where
  | stdout
  | stderr
  deriving DecidableEq, Repr

/-- One parsed usage report. -/
structure ParsedUsage where
  inputTokens : ℕ
  outputTokens : ℕ
  cachedTokens : ℕ
  sequence : ℕ
  deriving DecidableEq, Repr

/-- A drain while the process lives, or the last one of a Run. -/
inductive DrainMode where
  | midRun
  | terminal
  deriving DecidableEq, Repr

/-- The log of a channel: the report of each complete line, if it is one, and the line that is
still being written.  A cursor counts lines. -/
structure AgentLog where
  lines : List (Option ParsedUsage)
  partialLine : Option (Option ParsedUsage)
  deriving DecidableEq, Repr

/-- The loopback listener of an observed instance: the exchanges it has seen, and the reasons its
fence is raised for. -/
structure ObservedListener where
  queue : List (ℕ × ℕ × ℕ)
  fence : List LatchKey
  deriving DecidableEq, Repr

/-- What the engine holds for a supervised process. -/
structure Supervised where
  runId : RunId
  meteringSource : String
  usageCursor : UsageChannel → ℕ
  usagePark : UsageChannel → Option (ℕ × ℕ)
  isAcp : Bool
  observedPark : Option (List ParsedUsage × ℕ)
  launchGeneration : ℕ
  observedListener : Option ObservedListener
  observedSource : Option ℕ
  stopUnconfirmed : Bool
  adopted : Bool
  livenessCheck : Bool
  exitCodes : List (ℕ × ExitClass)
  cooperativelyPaused : Bool

/-! ### The environment -/

/-- How a store job ends. -/
inductive WriteAnswer where
  | committed
  | busy
  | refused
  deriving DecidableEq, Repr

/-- How the backend's stop ends. -/
inductive StopAnswer where
  | stopped (forced : Bool)
  | unconfirmed
  | failed
  deriving DecidableEq, Repr

/-- What a poll of the process says. -/
inductive PollAnswer where
  | alive
  | exited (code : Option ℕ)
  | errored
  deriving DecidableEq, Repr

/-- What became of a lifecycle command of the adapter. -/
inductive CommandAnswer where
  | exited0
  | failed
  | overran
  deriving DecidableEq, Repr

/-- What the readiness probe of a launch says. -/
inductive ProbeAnswer where
  | ready
  | timedOut
  | processExited
  deriving DecidableEq, Repr

/-- What an adoption finds. -/
inductive AdoptAnswer where
  | held
  | gone
  | unreadable
  deriving DecidableEq, Repr

/-- One consultation of the environment: its answer to every question. -/
structure Moment where
  time : Timestamp := ""
  write : WriteAnswer := .committed
  logDir : Bool := true
  /-- The resume signal or the suspension was delivered. -/
  signal : Bool := true
  stop : StopAnswer := .stopped false
  poll : PollAnswer := .alive
  /-- More than one held handle failed its poll in the same tick. -/
  environmental : Bool := false
  command : CommandAnswer := .exited0
  drainCompleted : Bool := true
  /-- The steps of a launch that fail before anything is written. -/
  preflight : Bool := true
  listener : Bool := true
  pid : ℕ := 1
  mintedRun : RunId := 0
  spawn : Bool := true
  startupExit : Bool := false
  handshake : Bool := true
  probe : ProbeAnswer := .ready
  stableRun : Bool := false
  livenessExpired : Bool := false
  /-- Another live engine holds the process, or has just claimed it. -/
  ownedElsewhere : Bool := false
  adopt : AdoptAnswer := .held
  /-- The log of a channel could be read. -/
  readable : Bool := true
  appended : UsageChannel → List (Option ParsedUsage) := fun _ => []
  partialLine : UsageChannel → Option (Option ParsedUsage) := fun _ => none
  /-- The raw log is over its bound, its other reader is past the cut, and the cut worked. -/
  truncated : Bool := false
  exchanges : List (ℕ × ℕ × ℕ) := []

/-- The answers of the environment, in the order they are asked for. -/
abbrev Env : Type := ℕ → Moment

/-! ### The engine -/

/-- The slice of the engine that belongs to one instance.  `episode` and `trace` are not in the
source: `episode` counts the changes of the lifecycle row, and `trace` lists the durable rows after
each write. -/
structure Supervisor where
  name : InstanceName
  disk : Disk
  running : Option Supervised
  /-- Restarts a launch has queued for the next supervision pass. -/
  pendingRestarts : List RestartPlan
  /-- Restarts a supervision pass has returned, waiting out their delay. -/
  plans : List RestartPlan
  logs : UsageChannel → AgentLog
  pollErrorStreak : ℕ
  clock : ℕ
  episode : ℕ
  trace : List Disk

/-- Why an operation failed. -/
inductive EngineError where
  | notFound
  | invalidTransition
  | store (answer : WriteAnswer)
  | stateConflict
  | log
  | backend
  | stopUnconfirmed
  | capabilityUnsupported
  | resumeUnsupported
  | pauseCommandFailed
  | drainRefused
  | detachRefused
  | adapterUnresolved
  | launchFailed
  | runningRequiresForce
  | alreadyExists
  deriving DecidableEq, Repr

/-- What a fallible operation returns, with the state it ended in. -/
abbrev Outcome : Type := Option EngineError × Supervisor

/-- Go on unless the first step failed. -/
def andThen (r : Outcome) (f : Supervisor → Outcome) : Outcome :=
  match r with
  | (none, s) => f s
  | (some err, s) => (some err, s)

@[simp] theorem andThen_none (s : Supervisor) (f : Supervisor → Outcome) :
    andThen (none, s) f = f s := rfl

@[simp] theorem andThen_some (err : EngineError) (s : Supervisor) (f : Supervisor → Outcome) :
    andThen (some err, s) f = (some err, s) := rfl

theorem andThen_congr {r : Outcome} {f g : Supervisor → Outcome}
    (h : ∀ s, r = (none, s) → f s = g s) : andThen r f = andThen r g := by
  obtain ⟨_ | err, s⟩ := r
  · exact h s rfl
  · rfl

namespace Supervisor

/-- The answer of the environment at this moment. -/
def now (s : Supervisor) (env : Env) : Moment := env s.clock

/-- The next moment. -/
def tick (s : Supervisor) : Supervisor := { s with clock := s.clock + 1 }

/-- One committed store write. -/
def commit (s : Supervisor) (disk : Disk) : Supervisor :=
  { s with disk := disk, trace := s.trace ++ [disk] }

/-- Change the held handle, if there is one. -/
def onHandle (s : Supervisor) (f : Supervised → Supervised) : Supervisor :=
  { s with running := s.running.map f }

/-- Drop the handle. -/
def dropHandle (s : Supervisor) : Supervisor := { s with running := none }

/-- A store job: its write, unless the environment refuses it. -/
def job (s : Supervisor) (env : Env) (disk : Disk) : Outcome :=
  match (s.now env).write with
  | .committed => (none, s.tick.commit disk)
  | answer => (some (.store answer), s.tick)

/-- The directory of the logs is there, or the operation fails. -/
def ensureLogDir (s : Supervisor) (env : Env) : Outcome :=
  if (s.now env).logDir then (none, s.tick) else (some .log, s.tick)

/-- The books as the rest of the engine sees them. -/
def books (s : Supervisor) : Books := s.disk.books

/-- The Run tables after a transition of this instance.  The projection has a savepoint of its
own, so its failure loses the projection only. -/
def projected (s : Supervisor) (at_ : Timestamp) (new : LifecycleState) (fate : Runs.RunFate)
    (cause : TransitionCause) : Books :=
  s.disk.books.setRuns
    ((Runs.RunOp.transition s.name new fate cause.text).apply s.disk.books.ledger.runs at_)

/-- Record a transition: the row, its event and the projection on the Run, in one job. -/
def transitionWith (s : Supervisor) (env : Env) (fate : Runs.RunFate)
    (prior new : LifecycleState) (cause : TransitionCause) : Outcome :=
  match s.disk.state with
  | none => (some .notFound, s)
  | some _ =>
      andThen
        (s.job env { s.disk with
          state := some new
          events := s.disk.events ++ [⟨prior, new, cause⟩]
          books := s.projected (s.now env).time new fate cause })
        fun s => (none, { s with episode := s.episode + 1 })

/-- Record a transition that ends the Run if it ends the process. -/
def transition (s : Supervisor) (env : Env) (prior new : LifecycleState)
    (cause : TransitionCause) : Outcome :=
  s.transitionWith env .terminal prior new cause

/-- Record a transition only if the row is still in its prior state. -/
def transitionIfPrior (s : Supervisor) (env : Env) (fate : Runs.RunFate)
    (prior new : LifecycleState) (cause : TransitionCause) : Outcome :=
  if s.disk.state = some prior then s.transitionWith env fate prior new cause
  else (some .stateConflict, s)

/-- Clear the spawn record.  The session of an agent that keeps one stays on a seed. -/
def settledRecord (record : Option SpawnRecord) : Option SpawnRecord :=
  match record with
  | some r => if r.acpSession then some { r with pid := 0, detach := false } else none
  | none => none

/-- The durable rows with the spawn record settled. -/
def settledDisk (s : Supervisor) (at_ : Timestamp) : Disk :=
  match s.disk.record with
  | none => s.disk
  | some _ =>
      { s.disk with
        record := settledRecord s.disk.record
        books := s.disk.books.setRuns
          ((Runs.RunOp.settle s.name).apply s.disk.books.ledger.runs at_) }

/-- Settle the spawn record. -/
def settleSpawnRecord (s : Supervisor) (env : Env) : Outcome :=
  s.job env (s.settledDisk (s.now env).time)

/-- Write the spawn record. -/
def writeRecord (s : Supervisor) (env : Env) (record : Option SpawnRecord) : Outcome :=
  s.job env { s.disk with record := record }

/-- Write the restart policy on the record, or on a new seed. -/
def setRestartPolicy (s : Supervisor) (env : Env) (policy : RestartPolicy) : Outcome :=
  match s.disk.state with
  | none => (some .notFound, s)
  | some _ =>
      s.writeRecord env (some (match s.disk.record with
        | some r => { r with restartPolicy := policy }
        | none => ⟨0, false, policy, 0, false⟩))

/-- Write the number of consecutive failures on the record. -/
def setRestartCount (s : Supervisor) (env : Env) (count : ℕ) : Outcome :=
  s.writeRecord env (s.disk.record.map fun r => { r with restartCount := count })

/-- The record of a live spawn. -/
def liveRecord (s : Supervisor) : Option SpawnRecord :=
  s.disk.record.filter fun r => r.pid ≠ 0

/-- The process that is supervised was spawned detached. -/
def detached (s : Supervisor) : Bool := s.disk.record.any SpawnRecord.detach

end Supervisor

end Hekma
