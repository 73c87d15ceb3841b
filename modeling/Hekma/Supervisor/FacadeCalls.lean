/-
**The calls of the facade** (`engine.rs`, `shutdown.rs`).

Every call on an engine.  A mutating verb is guarded: an engine that was opened read-only refuses it
before anything is done.  The two operations on child Runs have no guard; they go to the store
writer, which is closed there.  The shutdown stops what the Fleet shows as live.

Main definitions:

* `Facade.fleet`, `Facade.instanceStatus`, … — the reads;
* `Facade.guarded`, `Facade.runJob`, `Facade.shutdown` — the verbs;
* `Facade.Call`, `Facade.perform` — all calls;
* `Facade.openReadOnly` — the opening.
-/

import Hekma.Capture.BacklogPrime
import Hekma.Capture.LogsFollow
import Hekma.Supervisor.Facade

set_option relaxedAutoImplicit false
set_option autoImplicit false

namespace Hekma.Facade

open Backing (MemoryBackingKind)
open Capture (LogLine)
open ControlApi (AdapterRef ChildRunRequest FacadeError RunError)
open Effects (Prog)
open Resync (ResyncBatch ResyncCursor)
open Wire (NameError)

section

variable {δ π ρ ε α : Type} [DecidableEq δ] (parts : Parts δ π ρ) (e : Engine δ ρ)

/-! ### A row of the Fleet -/

/-- A state with a process. -/
def isLive : LifecycleState → Bool
  | .running | .paused => true
  | _ => false

/-- A state in which a Run is under way. -/
def hasRun : LifecycleState → Bool
  | .starting | .running | .paused | .stopping => true
  | _ => false

/-- The process of a record is provably gone.  A record with process id 0 has no process. -/
def recordProcessGone (record : Adoption.SpawnRecord) (w : World δ π) : Bool :=
  record.fingerprint.pid ≠ 0 &&
    parts.probeAlive w.processes record.fingerprint = some false

/-- A read-only engine shows a live row as failed if its process is gone. -/
def gone (state : LifecycleState) (record : Option Adoption.SpawnRecord) :
    Prog (World δ π) ε Bool :=
  .ask fun w => e.readOnly && isLive state && record.any fun record =>
    recordProcessGone parts record w

def shownState (gone : Bool) (state : LifecycleState) : LifecycleState :=
  if gone then .failed else state

def goneCause (pid : ℕ) (lastKnown : Option String) : String :=
  s!"process pid {pid} is gone (not recorded yet: the next hekma write reconciles the row to " ++
    "failed); last known: " ++ lastKnown.getD "no prior cause recorded"

/-- The record of an instance: from the batch that was read, or else from a read of its own. -/
def recordOf (records : Option (List (InstanceName × Adoption.SpawnRecord)))
    (name : InstanceName) : Prog (World δ π) ε (Option Adoption.SpawnRecord) :=
  match records with
  | some records => pure (records.lookup name)
  | none => (spawnRecord parts e name).orElse none

/-- The cause of the last failure in the history. -/
def lastFailure (events : List Resync.Transition) : Option String :=
  (events.reverse.find? fun event => event.event.newState = .failed).bind
    parts.readers.failedCauseDetail

/-- Why an instance is shown as failed: what its record says, or else its history. -/
def failedCause (name : InstanceName) (state : LifecycleState) (gone : Bool)
    (record : Option Adoption.SpawnRecord) : Prog (World δ π) ε (Option String) :=
  let recorded := record.bind Adoption.SpawnRecord.lastKnownCause
  let pid := (record.map fun record => record.fingerprint.pid).getD 0
  match if gone then some (goneCause pid recorded) else recorded with
  | some cause => pure (some cause)
  | none =>
      if state ≠ .failed then pure none
      else do
        let events ← (readEvents parts e name).orElse []
        pure (lastFailure parts events)

/-- How a live process is supervised.  A seed without a process says nothing. -/
def supervisionOf (gone : Bool) (record : Option Adoption.SpawnRecord) : Option Supervision :=
  (record.filter fun record => !gone && record.fingerprint.pid ≠ 0).map fun record =>
    if record.detach then .detached else .session

/-- The Run that is under way: of the held handle, or else of the record. -/
def currentRun (name : InstanceName) (state : LifecycleState)
    (record : Option Adoption.SpawnRecord) : Option RunId :=
  ((e.held name).map Held.runId).or
    (if e.readOnly && hasRun state then record.bind Adoption.SpawnRecord.runId else none)

/-- The totals in place of those that could not be read: how much was cached is unknown. -/
def unknownTotals : UsageTotals := ⟨.saturate 0, .saturate 0, none⟩

/-- The totals of an instance and of the Run that is under way. -/
def fleetTotals (name : InstanceName) (run : Option RunId) :
    Prog (World δ π) ε (UsageTotals × UsageTotals) := do
  let cumulative ← (usageTotals parts e name).orElse unknownTotals
  let current ← match run with
    | some run => (runUsageTotals parts e name run).orElse unknownTotals
    | none => pure .zero
  pure (cumulative, current)

/-- The costs of an instance and of the Run that is under way, if there is a rate. -/
def fleetCosts (name : InstanceName) (run : Option RunId) (rate : Option Rate) :
    Prog (World δ π) ε (Micros × Micros) :=
  if rate.isSome then do
    let cumulative ← (costTotals parts e name).orElse .zero
    let current ← match run with
      | some run => (runCostTotals parts e name run).orElse .zero
      | none => pure .zero
    pure (cumulative, current)
  else pure (.zero, .zero)

def fleetMeteringSource (inst : AgentInstance) (effective : Option (EffectiveConfig Scalar)) :
    Prog (World δ π) ε String :=
  if parts.readers.isAcpKind inst.kind then
    pure ((effective.map parts.readers.resolveAcpMeteringSource).getD "unknown")
  else (registryMeteringSource parts inst.name).orElse "unknown"

/-- The rate and the ceilings that are in force.  A configuration that cannot be read has none. -/
def ceilings (effective : Option (EffectiveConfig Scalar)) :
    Option Rate × TokenBudget × CostCap × BreachAction :=
  match effective with
  | some effective =>
      let (budget, action) := resolveTokenBudget effective
      let (rate, costCap, _) := resolveCost effective
      (rate, budget, costCap, action)
  | none => (none, ⟨none, none⟩, ⟨none, none⟩, default)

def usageView (totals : UsageTotals × UsageTotals) (costs : Micros × Micros)
    (rate : Option Rate) : UsageView :=
  let base := UsageView.new totals.1 totals.2
  if rate.isSome then base.withDollars costs.1 costs.2 .estimated else base

def usageGap (inst : AgentInstance) (cumulative : UsageTotals) (source : String) :
    Option UsageGapNotice :=
  if parts.readers.isAcpKind inst.kind ∧ cumulative.totalTokens = 0 then
    some ⟨source = "engine-observed", (e.held inst.name).any Held.sentinelLinesSeen,
      ((e.held inst.name).bind Held.acpContextUsage).isSome, e.logCapture = .off⟩
  else none

/-- The row of an instance.  A read that fails is shown as what is not known. -/
def fleetEntryFor (records : Option (List (InstanceName × Adoption.SpawnRecord)))
    (inst : AgentInstance) : Prog (World δ π) ε (FleetEntry ρ) := do
  let record ← recordOf parts e records inst.name
  let gone ← gone parts e inst.state record
  let state := shownState gone inst.state
  let cause ← failedCause parts e inst.name state gone record
  let run := currentRun e inst.name state record
  let totals ← fleetTotals parts e inst.name run
  let effective ← (some <$> registryEffectiveConfig parts e inst.name ⟨.nil, trivial⟩).orElse none
  let (rate, budget, costCap, action) := ceilings effective
  let source ← fleetMeteringSource parts inst effective
  let costs ← fleetCosts parts e inst.name run rate
  pure
    { name := inst.name
      kind := inst.kind
      state := state
      restartCount := (record.map Adoption.SpawnRecord.restartCount).getD 0
      restartPolicy := (record.map Adoption.SpawnRecord.restartPolicy).getD default
      failedCause := cause
      budget := BudgetView.fromBudgetAndCost budget costCap action totals.2.totalTokens
        totals.1.totalTokens rate.isSome costs.2 costs.1 .estimated
      usage := usageView totals costs rate
      meteringSource := source
      acpContextUsage := (e.held inst.name).bind Held.acpContextUsage
      usageGap := usageGap parts e inst totals.1 source
      supervision := supervisionOf gone record
      recordedState := if gone then some inst.state else none
      agentHome := inst.agentHome }

/-! ### The reads -/

def list : Prog (World δ π) Wire.RegistryError (List AgentInstance) := registryList parts e

/-- The Fleet.  If the batch of records cannot be read, each row reads its own. -/
def fleet : Prog (World δ π) Wire.RegistryError (List (FleetEntry ρ)) := do
  let instances ← registryList parts e
  let records ← (some <$> listSpawnRecords parts e).orElse none
  instances.mapM (fleetEntryFor parts e records)

def fleetEntry (name : String) : Prog (World δ π) Wire.RegistryError (FleetEntry ρ) := do
  let iname ← validName (.invalidName name) name
  let inst ← lookup parts e iname
  let record ← spawnRecord parts e iname
  fleetEntryFor parts e (some (record.toList.map fun record => (iname, record))) inst

def effectiveCapabilities (name : String) : Prog (World δ π) Wire.RegistryError ρ :=
  registryEffectiveCapabilities parts e name

def instanceStatus (name : String) : Prog (World δ π) Wire.EngineError InstanceStatus := do
  let iname ← validName (.invalidName name) name
  let inst ← engineLookup parts e iname
  let record ← (spawnRecord parts e iname).mapError (registryToEngine parts)
  let gone ← gone parts e inst.state record
  let state := shownState gone inst.state
  let cause ← failedCause parts e iname state gone record
  pure
    { instance_ := { inst with state := state }
      restartPolicy := (record.map Adoption.SpawnRecord.restartPolicy).getD default
      restartCount := (record.map Adoption.SpawnRecord.restartCount).getD 0
      failedCause := cause }

def invalidConfigName (name : String) (reason : NameError) : Wire.ConfigError :=
  .invalidName name (nameRule reason)

def effectiveConfig (name : String) (overrides : ConfigLayer Scalar) :
    Prog (World δ π) Wire.ConfigError (EffectiveConfig Scalar) := do
  let iname ← validName (invalidConfigName name) name
  registryEffectiveConfig parts e iname overrides

def revealSecrets (name : String) (overrides : ConfigLayer Scalar) :
    Prog (World δ π) Wire.ConfigError (List (String × String)) := do
  let iname ← validName (invalidConfigName name) name
  registryRevealSecrets parts e iname overrides

def run (runId : RunId) : Prog (World δ π) RunError ρ := runView parts e runId

def memoryStatus (name : String) :
    Prog (World δ π) Wire.RegistryError (Option MemoryBackingStatus) :=
  registryMemoryStatus parts e name

def transitionEvents (name : String) :
    Prog (World δ π) Wire.EngineError (List Resync.Transition) := readEvents parts e name

def budgetBreachEvents (name : String) :
    Prog (World δ π) Wire.EngineError (List BudgetBreachEvent) := readBreachEvents parts e name

def rejectTruncatedFamily (name : InstanceName) (family : String) (cursor committed : ℕ) :
    Except Wire.EngineError Unit :=
  if committed < cursor then
    .error (.log name (parts.readers.pathText parts.stateDbPath)
      (Resync.truncatedDetail family cursor committed))
  else .ok ()

/-- The committed events behind a cursor, all read in one snapshot. -/
def readCommitted (name : InstanceName) (after : ResyncCursor) :
    Prog (World δ π) Wire.EngineError ResyncBatch := do
  let transitions ← (query parts e (.transitionEvents name)).mapError .store
  let breaches ← (query parts e (.breachEvents name)).mapError .store
  let usage ← (query parts e (.usageEvents name)).mapError .store
  .ofExcept (rejectTruncatedFamily parts name "transition" after.transitions transitions.length)
  .ofExcept (rejectTruncatedFamily parts name "breach" after.breaches breaches.length)
  .ofExcept (rejectTruncatedFamily parts name "usage-ledger" after.usage usage.length)
  pure (Resync.assemble transitions breaches usage after)

def resyncEvents (name : String) (after : ResyncCursor) :
    Prog (World δ π) Wire.EngineError ResyncBatch := do
  let iname ← validName (.invalidName name) name
  let _ ← engineLookup parts e iname
  readCommitted parts e iname after

/-- The engine holds a live capture of the instance. -/
def capturesLive (name : InstanceName) : Bool := (e.held name).any Held.liveCapture

def hasLiveCapture (name : String) : Prog (World δ π) ε Bool :=
  match newInstanceName name with
  | .ok iname => pure (capturesLive e iname)
  | .error _ => pure false

def logCaptureMode : Prog (World δ π) ε LogCaptureMode := pure e.logCapture

def outboxError (detail : String) : Wire.EngineError :=
  .log "<outbox>" (parts.readers.pathText parts.stateDbPath) detail

/-- A batch behind a cursor, or behind the ack mark: bounds and page are read in one snapshot. -/
def exportEvents (after : Option ℕ) (max : ℕ) : Prog (World δ π) Wire.EngineError ExportBatch := do
  let refused := fun err => outboxError parts (parts.texts.store err)
  let bounds ← (query parts e .outboxBounds).mapError refused
  let afterSeq := after.getD (bounds.ack.getD 0)
  let page ← (query parts e (.outboxPage afterSeq (rowLimit max))).mapError refused
  .ofExcept ((selectBatch ⟨page, false, 0, bounds.retainedFrom, bounds.tail⟩ afterSeq
    (rowLimit max)).mapError (outboxError parts))

/-! ### The logs -/

/-- An error of a log. -/
def logError (name : InstanceName) (path : Path) (detail : String) : Wire.EngineError :=
  .log name (parts.readers.pathText path) detail

/-- Why a log cannot be read in a mode of capture. -/
def captureReadRefusal (name : InstanceName) (attributed : Bool) : Option Wire.EngineError :=
  let path := if attributed then parts.attributedOutputLogPath name
    else parts.agentOutputLogPath name
  match e.logCapture, attributed with
  | .off, _ =>
      some (logError parts name path
        ("log capture is off for this engine: no output was ever captured (fleet shows the " ++
          "`capture-off` gap); to capture output, restart `hekma serve` with --log-capture " ++
          "full (or metadata), or set EngineOptions::log_capture in the program that embeds " ++
          "the engine; `hekma agent` commands have no flag for it"))
  | .metadata, true =>
      some (logError parts name path
        ("this engine runs with --log-capture metadata: output.log holds hashed metadata " ++
          "records (timestamp/stream/attribution/byte_len/sha256), not attributable line " ++
          "content, for every Run THIS engine spawned; an ADOPTED instance's output.log was " ++
          "written under its original engine's mode, which this engine does not know, so its " ++
          "shape is not assumed here. Read the raw agent.log while the instance runs, or " ++
          "restart the serve surface with --log-capture full"))
  | _, _ => none

/-- The name of an instance whose log can be read. -/
def readableLog (name : String) (attributed : Bool) :
    Prog (World δ π) Wire.EngineError InstanceName := do
  let iname ← validName (.invalidName name) name
  match captureReadRefusal parts e iname attributed with
  | some err => .fail err
  | none => do
      let _ ← engineLookup parts e iname
      pure iname

/-- The lines of a generation that may not be there. -/
def readLogLines (name : InstanceName) (path : Path) :
    Prog (World δ π) Wire.EngineError (List LogLine) := do
  let text ← orMissing "" (fun err => logError parts name path err.message) (readToString path)
  .ofExcept ((parts.readers.logLines text).mapError (logError parts name path))

/-- All lines, the oldest generation first, and the end of the current one. -/
def readAgentLog (name : String) : Prog (World δ π) Wire.EngineError (List LogLine × ℕ) := do
  let iname ← readableLog parts e name true
  let two ← readLogLines parts iname (parts.attributedOutputLogGenerationPath iname 2)
  let one ← readLogLines parts iname (parts.attributedOutputLogGenerationPath iname 1)
  let path := parts.attributedOutputLogPath iname
  let text ← orMissing "" (fun err => logError parts iname path err.message) (readToString path)
  let current ← .ofExcept ((parts.readers.logLines text).mapError (logError parts iname path))
  pure (two ++ one ++ current, text.utf8ByteSize)

/-- The lines behind a cursor into the current generation. -/
def readAgentLogSince (name : String) (cursor : ℕ) :
    Prog (World δ π) Wire.EngineError (List LogLine × ℕ) := do
  let iname ← readableLog parts e name true
  let path := parts.attributedOutputLogPath iname
  let bytes ← orMissing [] (fun err => logError parts iname path err.message) (readBytes path)
  match Capture.Follow.planFollow bytes cursor with
  | .shrunk newCursor => pure ([], newCursor)
  | .consume start stop newCursor =>
      if start = stop then pure ([], newCursor)
      else do
        let text := String.ofList (Utf8.fromUtf8Lossy ((bytes.take stop).drop start))
        let lines ← .ofExcept ((parts.readers.logLines text).mapError (logError parts iname path))
        pure (lines, newCursor)

/-- The raw lines behind a cursor, as of now. -/
def readRawOutputSince (name : String) (cursor : Option ℕ) :
    Prog (World δ π) Wire.EngineError (List LogLine × ℕ) := do
  let iname ← readableLog parts e name false
  let path := parts.agentOutputLogPath iname
  let bytes ← orMissing [] (fun err => logError parts iname path err.message) (readBytes path)
  let now ← .ask World.now
  let (texts, next) := Logs.readRawOutputSince (capturesLive e iname) bytes cursor
  pure (texts.map fun text => LogLine.new iname .agentOut (String.ofList text) now, next)

/-- Where a follower of the raw log starts, and how many lines lie in front. -/
def primeRawBacklog (name : String) (backlogLines : ℕ) :
    Prog (World δ π) Wire.EngineError (ℕ × ℕ) := do
  let iname ← readableLog parts e name false
  let path := parts.agentOutputLogPath iname
  let bytes ← orMissing [] (fun err => logError parts iname path err.message) (readBytes path)
  if capturesLive e iname then pure (bytes.length, 0)
  else pure (Capture.primeBacklogWindow bytes backlogLines)

def agentHome (name : InstanceName) : Prog (World δ π) ε Path := pure (parts.agentHome name)

/-! ### The guarded verbs -/

def readOnlyRefusal : Wire.StoreError :=
  .backend "this engine was opened read-only (no store writer); the write was not applied"

def refuseIfReadOnly : Prog (World δ π) Wire.StoreError Unit :=
  if e.readOnly then .fail readOnlyRefusal else pure ()

/-- A verb behind the guard. -/
def guarded (asError : Wire.StoreError → ε) (verb : Prog (World δ π) ε α) :
    Prog (World δ π) ε α := do
  (refuseIfReadOnly e).mapError asError
  verb

def registerWithAdapter (name : String) (reference : AdapterRef) :
    Prog (World δ π) Wire.RegistryError AgentInstance :=
  guarded e .store (parts.verbs.registerWithAdapter name reference)

def register (name kind : String) : Prog (World δ π) Wire.RegistryError AgentInstance :=
  guarded e .store (parts.verbs.registerWithAdapter name (.native kind))

def stopErrorToRegistry : Wire.EngineError → Wire.RegistryError
  | .store err => .store err
  | .invalidName name reason => .invalidName name reason
  | .notFound name => .notFound name
  | other => .io "<remove-teardown>" "<process teardown>"
      (.other ("could not stop the live instance before removal: " ++ parts.texts.engine other))

/-- A live instance that will be removed is stopped first. -/
def stopBeforeRemove (name : String) (force : Bool) : Prog (World δ π) Wire.RegistryError Unit :=
  match newInstanceName name with
  | .error _ => pure ()
  | .ok iname => do
      let row ← (some <$> lookup parts e iname).orElse none
      if row.any fun inst => isLive inst.state && (force || inst.state ≠ .running) then do
        let _ ← (parts.verbs.stop name none).mapError (stopErrorToRegistry parts)
        pure ()
      else pure ()

def remove (name : String) (disposition : ControlApi.RemoveDisposition) (force : Bool) :
    Prog (World δ π) Wire.RegistryError Unit :=
  guarded e .store do
    stopBeforeRemove parts e name force
    parts.verbs.remove name disposition force

def start (name : String) : Prog (World δ π) Wire.EngineError AgentInstance :=
  guarded e .store (parts.verbs.start name)

def startDetached (name : String) : Prog (World δ π) Wire.EngineError AgentInstance :=
  guarded e .store (parts.verbs.startDetached name)

def stop (name : String) (window : Option ℕ) : Prog (World δ π) Wire.EngineError AgentInstance :=
  guarded e .store (parts.verbs.stop name window)

def pause (name : String) : Prog (World δ π) Wire.EngineError AgentInstance :=
  guarded e .store (parts.verbs.pause name)

def resume (name : String) : Prog (World δ π) Wire.EngineError AgentInstance :=
  guarded e .store (parts.verbs.resume name)

def drain (name : String) (timeout : Option ℕ) :
    Prog (World δ π) Wire.EngineError (AgentInstance × ρ) :=
  guarded e .store (parts.verbs.drain name timeout)

def sendInput (name text : String) : Prog (World δ π) Wire.EngineError Unit :=
  guarded e .store (parts.verbs.sendInput name text)

def setRestartPolicy (name : String) (policy : RestartPolicy) :
    Prog (World δ π) Wire.EngineError Unit :=
  guarded e .store do
    let iname ← validName (.invalidName name) name
    (parts.verbs.setRestartPolicy iname policy).mapError (registryToEngine parts)

/-- A configuration write.  Labels are bound again to the open Run, and if this fails it is only
noted. -/
def setConfig (name key value : String) : Prog (World δ π) Wire.ConfigError (List String) :=
  guarded e (fun err => .store name (parts.texts.store err)) do
    let iname ← validName (invalidConfigName name) name
    let warnings ← parts.verbs.setConfig iname key value
    if (afterStart labelsNamespace key).isSome then (parts.verbs.syncRunLabels iname).orElse ()
    else pure ()
    pure warnings

def attachMemory (name : String) (kind : MemoryBackingKind) :
    Prog (World δ π) Wire.RegistryError Path :=
  guarded e .store (parts.verbs.attachMemory name kind)

def detachMemory (name : String) : Prog (World δ π) Wire.RegistryError Unit :=
  guarded e .store (parts.verbs.detachMemory name)

def ackExport (seq : ℕ) : Prog (World δ π) Wire.EngineError ℕ :=
  guarded e .store (parts.verbs.ackCore seq)

/-! ### The store writer -/

/-- A job of the store writer: committed, or rolled back if it fails. -/
def callWriter (job : Statement δ Wire.StoreError α) : Prog (World δ π) Wire.StoreError α :=
  fun w =>
    match e.writer with
    | .closed => (.error readOnlyRefusal, w)
    | .spawned =>
        match w.stateDb.map job with
        | none =>
            (.error (.backend "the store writer has stopped; the write was not applied"), w)
        | some (.ok a, db) => (.ok a, { w with stateDb := some db })
        | some (.error err, _) => (.error err, w)

/-- An operation on Runs as a job: a refusal that is no error of the store is its answer. -/
def asJob (op : Statement δ RunError α) : Statement δ Wire.StoreError (Except RunError α) :=
  fun db =>
    match op db with
    | (.ok a, db) => (.ok (.ok a), db)
    | (.error (.store err), db) => (.error err, db)
    | (.error refusal, db) => (.ok (.error refusal), db)

def runJob (op : Statement δ RunError α) : Prog (World δ π) RunError α := do
  let outcome ← (callWriter e (asJob op)).mapError .store
  .ofExcept outcome

def openChildRun (request : ChildRunRequest) : Prog (World δ π) RunError ρ := do
  let now ← .ask World.now
  let opened ← runJob e (parts.statements.openChild request (parts.readers.mint now) now)
  runView parts e opened

def closeRun (runId : RunId) : Prog (World δ π) RunError ρ := do
  let now ← .ask World.now
  runJob e (parts.statements.close runId now)
  runView parts e runId

/-! ### The shutdown -/

/-- The instances that a drain stops. -/
def drainPlan (entries : List (FleetEntry ρ)) : List InstanceName :=
  (entries.filter fun entry => isLive entry.state).map FleetEntry.name

/-- The names that were not attempted before, each of them once. -/
def notAttempted (attempted : List InstanceName) : List InstanceName → List InstanceName
  | [] => []
  | name :: names =>
      if name ∈ attempted then notAttempted attempted names
      else name :: notAttempted (name :: attempted) names

/-- How a stop that succeeded ended, by the history of the instance. -/
def stopResultOf (events : List Resync.Transition) : StopResult :=
  match events.reverse.find? fun event =>
      event.event.cause = .stopGraceful ∨ event.event.cause = .stopForced with
  | some event => if event.event.cause = .stopGraceful then .graceful else .forced
  | none => .unverified "no stop transition found in the instance's event log"

/-- How a stop ended.  One that failed over an instance that has ended was not needed. -/
def classifyStop (name : InstanceName) :
    Except Wire.EngineError AgentInstance → Prog (World δ π) ε StopResult
  | .ok _ => do
      let events ← (transitionEvents parts e name).attempt
      match events with
      | .ok events => pure (stopResultOf events)
      | .error err => pure (.unverified (parts.texts.engine err))
  | .error err => do
      let entries ← (fleet parts e).orElse []
      match (entries.find? fun entry => entry.name = name).map FleetEntry.state with
      | some .stopped => pure (.exitedOnItsOwn .stopped)
      | some .failed => pure (.exitedOnItsOwn .failed)
      | _ => pure (.failed (parts.texts.engine err))

def stopOne (window : ℕ) (name : InstanceName) : Prog (World δ π) ε DrainOutcome := do
  let stopped ← (stop parts e name (some window)).attempt
  let result ← classifyStop parts e name stopped
  pure ⟨name, result⟩

/-- One pass: the outcomes, and what has been attempted so far.  A Fleet that cannot be read is
noted, and nothing is stopped. -/
def stopPass (window : ℕ) (attempted : List InstanceName) :
    Prog (World δ π) ε (List DrainOutcome × List InstanceName) := do
  let entries ← (fleet parts e).orElse []
  let plan := notAttempted attempted (drainPlan entries)
  let outcomes ← plan.mapM (stopOne parts e window)
  pure (outcomes, plan ++ attempted)

/-- Two passes, and a last read that only leads to a note. -/
def shutdown (window : ℕ) : Prog (World δ π) ε (List DrainOutcome) := do
  let first ← stopPass parts e window []
  let second ← stopPass parts e window first.2
  let _ ← (fleet parts e).orElse []
  pure (first.1 ++ second.1)

end

/-! ### All calls -/

inductive Call where
  | list
  | fleet
  | fleetEntry (name : String)
  | effectiveCapabilities (name : String)
  | instanceStatus (name : String)
  | effectiveConfig (name : String) (overrides : ConfigLayer Scalar)
  | revealSecrets (name : String) (overrides : ConfigLayer Scalar)
  | run (runId : RunId)
  | memoryStatus (name : String)
  | transitionEvents (name : String)
  | budgetBreachEvents (name : String)
  | resyncEvents (name : String) (after : ResyncCursor)
  | hasLiveCapture (name : String)
  | logCaptureMode
  | exportEvents (after : Option ℕ) (max : ℕ)
  | readAgentLog (name : String)
  | readAgentLogSince (name : String) (cursor : ℕ)
  | readRawOutputSince (name : String) (cursor : Option ℕ)
  | primeRawBacklog (name : String) (backlogLines : ℕ)
  | agentHome (name : InstanceName)
  | register (name kind : String)
  | registerWithAdapter (name : String) (reference : AdapterRef)
  | remove (name : String) (disposition : ControlApi.RemoveDisposition) (force : Bool)
  | start (name : String)
  | startDetached (name : String)
  | stop (name : String) (window : Option ℕ)
  | pause (name : String)
  | resume (name : String)
  | drain (name : String) (timeout : Option ℕ)
  | sendInput (name text : String)
  | setRestartPolicy (name : String) (policy : RestartPolicy)
  | setConfig (name key value : String)
  | attachMemory (name : String) (kind : MemoryBackingKind)
  | detachMemory (name : String)
  | ackExport (seq : ℕ)
  | openChildRun (request : ChildRunRequest)
  | closeRun (runId : RunId)
  | shutdown (window : ℕ)

def Call.Answer (ρ : Type) : Call → Type
  | list => List AgentInstance
  | fleet => List (FleetEntry ρ)
  | fleetEntry _ => FleetEntry ρ
  | effectiveCapabilities _ => ρ
  | instanceStatus _ => InstanceStatus
  | effectiveConfig .. => EffectiveConfig Scalar
  | revealSecrets .. => List (String × String)
  | memoryStatus _ => Option MemoryBackingStatus
  | transitionEvents _ => List Resync.Transition
  | budgetBreachEvents _ => List BudgetBreachEvent
  | resyncEvents .. => ResyncBatch
  | hasLiveCapture _ => Bool
  | logCaptureMode => LogCaptureMode
  | exportEvents .. => ExportBatch
  | readAgentLog _ | readAgentLogSince .. | readRawOutputSince .. => List LogLine × ℕ
  | primeRawBacklog .. => ℕ × ℕ
  | agentHome _ | attachMemory .. => Path
  | register .. | registerWithAdapter .. | start _ | startDetached _ | stop .. => AgentInstance
  | pause _ | resume _ => AgentInstance
  | drain .. => AgentInstance × ρ
  | remove .. | sendInput .. | setRestartPolicy .. | detachMemory _ => Unit
  | setConfig .. => List String
  | ackExport _ => ℕ
  | run _ | openChildRun _ | closeRun _ => ρ
  | shutdown _ => List DrainOutcome

/-- A call on an engine. -/
def perform {δ π ρ : Type} [DecidableEq δ] (parts : Parts δ π ρ) (e : Engine δ ρ) :
    (c : Call) → Prog (World δ π) FacadeError (c.Answer ρ)
  | .list => (list parts e).mapError .registry
  | .fleet => (fleet parts e).mapError .registry
  | .fleetEntry name => (fleetEntry parts e name).mapError .registry
  | .effectiveCapabilities name => (effectiveCapabilities parts e name).mapError .registry
  | .instanceStatus name => (instanceStatus parts e name).mapError .engine
  | .effectiveConfig name overrides => (effectiveConfig parts e name overrides).mapError .config
  | .revealSecrets name overrides => (revealSecrets parts e name overrides).mapError .config
  | .run runId => (run parts e runId).mapError .run
  | .memoryStatus name => (memoryStatus parts e name).mapError .registry
  | .transitionEvents name => (transitionEvents parts e name).mapError .engine
  | .budgetBreachEvents name => (budgetBreachEvents parts e name).mapError .engine
  | .resyncEvents name after => (resyncEvents parts e name after).mapError .engine
  | .hasLiveCapture name => hasLiveCapture e name
  | .logCaptureMode => logCaptureMode e
  | .exportEvents after max => (exportEvents parts e after max).mapError .engine
  | .readAgentLog name => (readAgentLog parts e name).mapError .engine
  | .readAgentLogSince name cursor => (readAgentLogSince parts e name cursor).mapError .engine
  | .readRawOutputSince name cursor => (readRawOutputSince parts e name cursor).mapError .engine
  | .primeRawBacklog name lines => (primeRawBacklog parts e name lines).mapError .engine
  | .agentHome name => agentHome parts name
  | .register name kind => (register parts e name kind).mapError .registry
  | .registerWithAdapter name reference =>
      (registerWithAdapter parts e name reference).mapError .registry
  | .remove name disposition force => (remove parts e name disposition force).mapError .registry
  | .start name => (start parts e name).mapError .engine
  | .startDetached name => (startDetached parts e name).mapError .engine
  | .stop name window => (stop parts e name window).mapError .engine
  | .pause name => (pause parts e name).mapError .engine
  | .resume name => (resume parts e name).mapError .engine
  | .drain name timeout => (drain parts e name timeout).mapError .engine
  | .sendInput name text => (sendInput parts e name text).mapError .engine
  | .setRestartPolicy name policy => (setRestartPolicy parts e name policy).mapError .engine
  | .setConfig name key value => (setConfig parts e name key value).mapError .config
  | .attachMemory name kind => (attachMemory parts e name kind).mapError .registry
  | .detachMemory name => (detachMemory parts e name).mapError .registry
  | .ackExport seq => (ackExport parts e seq).mapError .engine
  | .openChildRun request => (openChildRun parts e request).mapError .run
  | .closeRun runId => (closeRun parts e runId).mapError .run
  | .shutdown window => shutdown parts e window

/-! ### The opening -/

/-- The version of the schema. -/
def schemaVersion : Signed64 := ⟨13, by decide⟩

/-- Open an engine read-only: the schema is checked and never migrated, a database that is not
there is read as an empty one, the writer is closed, and no process is held. -/
def openReadOnly {δ π ρ : Type} (parts : Parts δ π ρ) :
    Prog (World δ π) Wire.RegistryError (Engine δ ρ) := do
  let db ← .ask World.stateDb
  let reader ← match db with
    | none => pure (.memory parts.statements.migrated)
    | some db =>
        let version := parts.statements.userVersion db
        if schemaVersion.1 < version.1 then
          .fail (.store (.schemaTooNew version schemaVersion))
        else if version.1 < schemaVersion.1 then
          .fail (.store (.needsMigration version schemaVersion))
        else pure .stateDb
  pure ⟨true, reader, .closed, fun _ => none, .full⟩

end Hekma.Facade
