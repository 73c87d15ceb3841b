/-
**The Run registry operations** (`domain/runs/ops.rs`).

Every operation runs inside one writer job over the Run tables: it reads and writes rows and
collects the events and snapshot entries of what it changed.  A job whose operation fails is
rolled back, so an operation either returns the new tables or leaves them as they were.

Main definitions:

* `moveTo`, `cascade` — one status change, and its image on the Runs that share the process;
* `projectTransition`, `ensureSupervised`, `syncDepth`, `syncBoundLabels`, `markBreach`,
  `openChild`, `close`, `endRunsWithoutAProcess` — the operations.
-/

import Hekma.Store.Runs

set_option relaxedAutoImplicit false
set_option autoImplicit false

namespace Hekma

namespace Runs

/-- What becomes of a Run when its process crashes. -/
inductive RunFate where
  | relaunching
  | terminal
  deriving DecidableEq, Repr

/-- Why an operation of the registry was refused. -/
inductive RunError where
  | notFound (id : RunId)
  | noOpenRun (name : InstanceName)
  | parentEnded (id : RunId)
  | nestingTooDeep (parent : RunId) (depth max : ℕ)
  | actionUnavailable (action depth meteringSource reason : String)
  | ownsProcess (id : RunId) (name : InstanceName)
  | invalid (field reason : String)
  | store (err : StoreError)
  deriving DecidableEq, Repr

/-- The tables inside a job, and the changes collected so far. -/
abbrev Job : Type := RunStore × RunChanges

/-- Collect the event and the snapshot entry of a changed row. -/
def note (s : RunStore) (changes : RunChanges) (record : RunRecord) (kind : RunEventKind)
    (prior : Prior) (cause : Option String) : RunChanges :=
  let labels := s.runLabels record.runId
  { events := changes.events ++
      [{ change := kind
         runId := record.runId
         parentRunId := record.parentRunId
         instanceName := record.instanceName
         controlDepth := record.controlDepth
         wirePath := record.wirePath
         status := record.status
         prior := prior
         anomalies := record.anomalies
         labels := labels.filter fun l => l.source = .bound
         cause := cause
         at_ := record.updatedAt }]
    entries := changes.entries ++ [⟨record, labels, s.runLimits record.runId⟩] }

/-- What kind of change a move is. -/
def moveKind (prior status : RunStatus) : RunEventKind :=
  if status = .ended ∧ prior ≠ .ended then .ended
  else if status ≠ prior then .statusChanged
  else .anomaliesChanged

/-- The row a move writes. -/
def movedRecord (record : RunRecord) (status : RunStatus) (anomalies : List Anomaly)
    (cause : Option String) (at_ : Timestamp) : RunRecord :=
  let record :=
    if status = .ended ∧ record.status ≠ .ended then
      { record with endCause := cause, endedAt := some at_ }
    else record
  { record with status := status, anomalies := anomalies, updatedAt := at_ }

/-- Move a Run to a status and a set of anomalies, unless it is there already. -/
def moveTo (job : Job) (record : RunRecord) (status : RunStatus) (anomalies : List Anomaly)
    (cause : Option String) (at_ : Timestamp) : Except StoreError Job := do
  let anomalies := Anomaly.normalize anomalies
  if record.status = status ∧ record.anomalies = anomalies then
    return job
  let prior := record.status
  let kind := moveKind prior status
  let record := movedRecord record status anomalies cause at_
  let s ← job.1.saveRun record
  let prior : Prior :=
    if kind = .anomaliesChanged then Prior.none else { Prior.none with status := some prior }
  return (s, note s job.2 record kind prior cause)

/-- The image of an owner's move on one Run that shares its process. -/
def cascadeChild (to_ : RunStatus) (stopped : Bool) (at_ : Timestamp) (job : Job)
    (child : RunRecord) : Except StoreError Job :=
  if to_ = .held ∧ child.status = .active then
    moveTo job child .held child.anomalies (some "parent-paused") at_
  else if to_ = .active ∧ child.status = .held then
    moveTo job child .active child.anomalies (some "parent-resumed") at_
  else if to_ = .ended then
    moveTo job child .ended child.anomalies
      (some (if stopped then "parent-stopped" else "parent-ended")) at_
  else return job

/-- Carry an owner's move over to the open Runs that share its process. -/
def cascade (job : Job) (owner : RunId) (from_ to_ : RunStatus) (stopped : Bool)
    (at_ : Timestamp) : Except StoreError Job :=
  if from_ = to_ then return job
  else (job.1.openInProcessDescendants owner).foldlM (cascadeChild to_ stopped at_) job

/-- Move an owner, and with it the Runs that share its process. -/
def moveOwner (job : Job) (run : RunRecord) (status : RunStatus) (anomalies : List Anomaly)
    (cause : Option String) (stopped : Bool) (at_ : Timestamp) : Except StoreError Job := do
  let job ← moveTo job run status anomalies cause at_
  cascade job run.runId run.status status stopped at_

/-- Where a new lifecycle state moves the open owner of an instance: its status, its anomalies
and its end cause.  The transient states and `registered` move nothing. -/
def projectedMove (run : RunRecord) (newState : LifecycleState) (fate : RunFate)
    (cause : String) : Option (RunStatus × List Anomaly × Option String) :=
  match newState with
  | .running => some (.active, run.anomalies.filter (· ≠ .failed), none)
  | .failed =>
      -- a crash that is relaunched only raises the mark: it is not a resume
      match fate with
      | .relaunching => some (run.status, run.anomalies ++ [.failed], none)
      | .terminal => some (.ended, run.anomalies ++ [.failed], some cause)
  | .stopped => some (.ended, run.anomalies, some cause)
  | .paused => some (.held, run.anomalies, none)
  | .starting | .stopping | .registered => none

/-- Project a lifecycle transition of an instance on its open Run. -/
def projectTransition (s : RunStore) (name : InstanceName) (newState : LifecycleState)
    (fate : RunFate) (cause : String) (at_ : Timestamp) : Except StoreError Job :=
  match s.openProcessRun name with
  | none => return (s, RunChanges.empty)
  | some run =>
      match projectedMove run newState fate cause with
      | none => return (s, RunChanges.empty)
      | some (status, anomalies, endCause) =>
          moveOwner (s, RunChanges.empty) run status anomalies endCause
            (newState = .stopped) at_

/-- Keep the depth and the wire path of a Run in step with the process it runs in. -/
def syncDepth (job : Job) (record : RunRecord) (depth : ControlDepth) (wirePath : Bool)
    (at_ : Timestamp) : Except StoreError Job := do
  if record.controlDepth = depth ∧ record.wirePath = wirePath then
    return job
  let prior : Prior := ⟨none, some record.controlDepth, some record.wirePath⟩
  let record := { record with controlDepth := depth, wirePath := wirePath, updatedAt := at_ }
  let limits := job.1.runLimits record.runId
  let record :=
    if limits.isArmed && limits.action ≠ .warn && !record.processOwner then
      let kept := record.anomalies.filter (· ≠ .depthFallback)
      { record with
        anomalies :=
          if (actionRefusal limits.action depth wirePath).isSome then
            Anomaly.normalize (kept ++ [.depthFallback])
          else kept }
    else record
  let s ← job.1.saveRun record
  return (s, note s job.2 record .depthChanged prior none)

/-- Keep the bound labels of a Run in step with its instance's configuration. -/
def syncBoundLabels (job : Job) (id : RunId) (labels : List Label) (at_ : Timestamp) :
    Except StoreError Job := do
  let current := (job.1.runLabels id).filter fun l => l.source = .bound
  let wanted := labels.insertionSort fun a b => a.key ≤ b.key
  if current = wanted then
    return job
  match job.1.runRecord id with
  | none => return job
  | some record =>
      let s := job.1.replaceLabels id .bound wanted
      let record := { record with updatedAt := at_ }
      let s ← s.saveRun record
      return (s, note s job.2 record .labelsChanged Prior.none none)

/-- What a launch or an adoption asks of the registry. -/
structure SupervisedRun where
  instanceName : InstanceName
  runId : RunId
  wirePath : Bool
  labels : List Label
  fresh : Bool

/-- The row of a fresh supervised Run. -/
def supervisedRecord (run : SupervisedRun) (at_ : Timestamp) : RunRecord where
  runId := run.runId
  controlDepth := .supervised
  wirePath := run.wirePath
  status := .active
  anomalies := []
  parentRunId := none
  instanceName := some run.instanceName
  processOwner := true
  endCause := none
  createdAt := at_
  updatedAt := at_
  endedAt := none

/-- End the open Run of an instance when another one takes its place. -/
def replaceOpen (s : RunStore) (run : SupervisedRun) (at_ : Timestamp) : Except StoreError Job :=
  match s.openProcessRun run.instanceName with
  | none => return (s, RunChanges.empty)
  | some open_ =>
      if open_.runId = run.runId then return (s, RunChanges.empty)
      else
        moveOwner (s, RunChanges.empty) open_ .ended open_.anomalies (some "replaced") false at_

/-- A kept Run that had ended is running again. -/
def reopen (job : Job) (existing : RunRecord) (at_ : Timestamp) :
    Except StoreError (Job × RunRecord) := do
  if existing.isEnded then
    let reopened :=
      { existing with status := .active, endCause := none, endedAt := none, updatedAt := at_ }
    let s ← job.1.saveRun reopened
    let prior : Prior := { Prior.none with status := some .ended }
    return ((s, note s job.2 reopened .statusChanged prior (some "relaunched")), reopened)
  else
    return (job, existing)

/-- Create the Run of a fresh start, or keep the Run of a relaunch or an adoption. -/
def ensureSupervised (s : RunStore) (run : SupervisedRun) (at_ : Timestamp) :
    Except StoreError Job := do
  let job ← replaceOpen s run at_
  match job.1.runRecord run.runId, run.fresh with
  | some existing, false =>
      let (job, existing) ← reopen job existing at_
      let job ← syncDepth job existing .supervised run.wirePath at_
      syncBoundLabels job run.runId run.labels at_
  | _, _ =>
      let record := supervisedRecord run at_
      let s ← job.1.insertRun ⟨record, run.labels, RunLimits.empty, none⟩
      return (s, note s job.2 record .created Prior.none none)

/-- Raise the breach mark on a Run. -/
def markBreach (s : RunStore) (id : RunId) (at_ : Timestamp) : Except StoreError Job :=
  match s.runRecord id with
  | none => return (s, RunChanges.empty)
  | some record =>
      if .breach ∈ record.anomalies then return (s, RunChanges.empty)
      else
        moveTo (s, RunChanges.empty) record record.status (record.anomalies ++ [.breach]) none at_

/-- What a child Run is opened under. -/
inductive RunParent where
  | run (id : RunId)
  | ofInstance (name : InstanceName)

/-- What a host asks for a child Run. -/
structure ChildRunRequest where
  parent : RunParent
  labels : List (String × String)
  limits : RunLimits
  externalId : Option String

/-- The binding of a host's external ids. -/
def hostIdentityBinding : String := "host"

/-- The Run a child is opened under. -/
def resolveParent (s : RunStore) : RunParent → Except RunError RunRecord
  | .run id =>
      match s.runRecord id with
      | none => throw (.notFound id)
      | some record => return record
  | .ofInstance name =>
      match s.openProcessRun name with
      | none => throw (.noOpenRun name)
      | some record => return record

/-- The labels of a child: valid, each key once, in order. -/
def childLabels : List (String × String) → List Label → Except RunError (List Label)
  | [], labels => return labels.insertionSort fun a b => a.key ≤ b.key
  | (key, value) :: rest, labels =>
      match (validateLabelKey key).or (validateLabelValue value) with
      | some reason => throw (.invalid "label" reason)
      | none =>
          if labels.any fun l => l.key = key then
            throw (.invalid "label" ("label key `" ++ key ++ "` is given twice"))
          else childLabels rest (labels ++ [⟨key, value, .caller⟩])

/-- The row of a child Run.  A child of a held parent starts held, as the cascade would have left
it. -/
def childRecord (parent : RunRecord) (id : RunId) (at_ : Timestamp) : RunRecord where
  runId := id
  controlDepth := .announced
  wirePath := parent.wirePath
  status := if parent.status = .held then .held else .active
  anomalies := []
  parentRunId := some parent.runId
  instanceName := parent.instanceName
  processOwner := false
  endCause := none
  createdAt := at_
  updatedAt := at_
  endedAt := none

/-- The checks on the parent and the ceilings of a child. -/
def checkChild (s : RunStore) (request : ChildRunRequest) (parent : RunRecord) :
    Except RunError Unit :=
  let level := (s.runChain parent.runId).length + 1
  if parent.isEnded then throw (.parentEnded parent.runId)
  else if maxRunNesting < level then
    throw (.nestingTooDeep parent.runId level maxRunNesting)
  else
    match request.limits.breachAction with
    | none => return ()
    | some action =>
        match actionRefusal action .announced parent.wirePath with
        | none => return ()
        | some reason =>
            throw (.actionUnavailable action.asStr ControlDepth.announced.asStr
              (if parent.wirePath then "engine-observed" else "self-reported") reason)

/-- Open a child Run, or return the one its external id was opened for. -/
def openChild (s : RunStore) (request : ChildRunRequest) (id : RunId) (at_ : Timestamp) :
    Except RunError (RunId × Job) :=
  match request.externalId.bind fun e => s.identityRun (hostIdentityBinding, e) with
  | some existing => return (existing, s, RunChanges.empty)
  | none => do
      let parent ← resolveParent s request.parent
      checkChild s request parent
      let labels ← childLabels request.labels []
      let record := childRecord parent id at_
      let s ← (s.insertRun ⟨record, labels, request.limits,
        request.externalId.map fun e => (hostIdentityBinding, e)⟩).mapError RunError.store
      let cause := if parent.status = .held then some "parent-paused" else none
      return (id, s, note s RunChanges.empty record .created Prior.none cause)

/-- Close a child Run.  Its own children stay open. -/
def close (s : RunStore) (id : RunId) (at_ : Timestamp) : Except RunError Job :=
  match s.runRecord id with
  | none => throw (.notFound id)
  | some record =>
      if record.processOwner && !record.isEnded then
        throw (.ownsProcess id (record.instanceName.getD ""))
      else if record.isEnded then return (s, RunChanges.empty)
      else
        (moveTo (s, RunChanges.empty) record .ended record.anomalies (some "closed") at_).mapError
          RunError.store

/-- The open owners whose instance is in a state without a process. -/
def openOwnersWithoutAProcess (s : RunStore) (state : InstanceName → LifecycleState) :
    List RunRecord :=
  (s.runs.filter fun r =>
    r.processOwner && !r.isEnded && r.instanceName.any fun name =>
      state name ∈ [.failed, .stopped, .registered]).insertionSort fun a b => a.runId ≤ b.runId

/-- End the open owners whose instance holds no process: a planned relaunch that never ran. -/
def endRunsWithoutAProcess (s : RunStore) (state : InstanceName → LifecycleState)
    (at_ : Timestamp) : Except StoreError Job :=
  (openOwnersWithoutAProcess s state).foldlM
    (fun job record =>
      moveOwner job record .ended record.anomalies (some "relaunch-not-run") false at_)
    (s, RunChanges.empty)

end Runs

end Hekma
