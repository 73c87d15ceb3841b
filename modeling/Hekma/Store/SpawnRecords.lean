/-
**The spawn record of an instance** (`store/sqlite.rs`, `ports/state_store.rs`).

The write-ahead record names the process of an instance by its id and its start time, the engine
process that spawned it and, while it is adopted, the engine process that holds the adoption lease.
The record is keyed by the row of the instance and goes with it.

Main definitions:

* `SpawnRecord`, `Store` — the record and the row it belongs to;
* `setSpawnRunId`, `tryAcquireAdoptionLease`, `settleSpawnRecord` — the writes of an adoption.

Main results:

* `setSpawnRunId_replaced` — a Run id is not written to a record of another process;
* `tryAcquire_won`, `tryAcquire_lost` — what a compare-and-set of the lease finds and leaves;
* `session_setSpawnRunId`, `session_settleSpawnRecord` — neither write drops a session id.
-/

import Hekma.Supervisor.State

set_option relaxedAutoImplicit false
set_option autoImplicit false

namespace Hekma

namespace Adoption

/-- A process: its id, and the start time that tells it from every other with that id. -/
structure ProcessFingerprint where
  pid : ℕ
  startTime : ℕ
  deriving DecidableEq, Repr

/-- The write-ahead record of a spawn. -/
structure SpawnRecord where
  fingerprint : ProcessFingerprint
  restartPolicy : RestartPolicy
  restartCount : ℕ
  lastKnownCause : Option String
  detach : Bool
  acpSessionId : Option String
  runId : Option RunId
  owner : Option ProcessFingerprint
  lease : Option ProcessFingerprint
  deriving DecidableEq, Repr

/-- The row of one instance and its record.  The record refers to the row. -/
structure Store where
  name : InstanceName
  row : Option LifecycleState
  record : Option SpawnRecord
  owned : row = none → record = none
  deriving DecidableEq

inductive StoreError where
  | notFound (name : InstanceName)
  | backend (detail : String)
  deriving DecidableEq, Repr

namespace Store

/-- The record is replaced or deleted; without a row there is none. -/
def write (db : Store) (record : Option SpawnRecord) : Store where
  name := db.name
  row := db.row
  record := if db.row = none then none else record
  owned h := if_pos h

def setState (db : Store) (state : LifecycleState) : Store where
  name := db.name
  row := db.row.map fun _ => state
  record := db.record
  owned h := db.owned (Option.map_eq_none_iff.1 h)

def upsertSpawnRecord (record : SpawnRecord) (db : Store) : Except StoreError Store :=
  match db.row with
  | none => .error (.notFound db.name)
  | some _ => .ok (db.write (some record))

def setAcpSessionId (sessionId : Option String) (db : Store) : Except StoreError Store :=
  match db.record with
  | none => .error (.notFound db.name)
  | some record => .ok (db.write (some { record with acpSessionId := sessionId }))

/-- The Run id, written under the fingerprint that the caller has read the record under. -/
def setSpawnRunId (runId : RunId) (fingerprint : ProcessFingerprint) (db : Store) :
    Except StoreError Store :=
  match db.record with
  | none => .error (.notFound db.name)
  | some record =>
      if record.fingerprint = fingerprint then
        .ok (db.write (some { record with runId := some runId }))
      else
        .error (.backend (s!"the spawn record for '{db.name}' changed while its Run id was " ++
          "being persisted (a concurrent stop→start won the race) — the fresh record's own " ++
          "Run id stands; the stale mint was not written"))

/-- The lease, written if it still is the one that the caller has read. -/
def tryAcquireAdoptionLease (expected : Option ProcessFingerprint)
    (leaseholder : ProcessFingerprint) (db : Store) : Bool × Store :=
  match db.record with
  | none => (false, db)
  | some record =>
      if record.lease = expected then
        (true, db.write (some { record with lease := some leaseholder }))
      else (false, db)

/-- The record without a process that a settled one leaves, to keep its session id. -/
def settledSeed (record : SpawnRecord) (sessionId : String) : SpawnRecord where
  fingerprint := ⟨0, 0⟩
  restartPolicy := record.restartPolicy
  restartCount := record.restartCount
  lastKnownCause := none
  detach := false
  acpSessionId := some sessionId
  runId := none
  owner := none
  lease := none

def settleSpawnRecord (db : Store) : Bool × Store :=
  match db.record with
  | none => (false, db)
  | some record =>
      match record.acpSessionId with
      | some sessionId => (true, db.write (some (settledSeed record sessionId)))
      | none => (false, db.write none)

def clearSpawnRecord (db : Store) : Store := db.write none

/-- The session id that is recorded. -/
def session (db : Store) : Option String := db.record.bind SpawnRecord.acpSessionId

/-! ### What the writes find and leave -/

variable {db after : Store} {record : SpawnRecord}

theorem write_record (record' : Option SpawnRecord) (h : db.record = some record) :
    (db.write record').record = record' := by
  rw [write]
  exact if_neg fun hrow => Option.some_ne_none _ (h.symm.trans (db.owned hrow))

theorem write_none : (db.write none).record = none := by
  rw [write]
  exact ite_self none

theorem upsertSpawnRecord_ok (h : upsertSpawnRecord record db = .ok after) :
    after.record = some record := by
  rw [upsertSpawnRecord] at h
  split at h
  · cases h
  · next state hrow =>
      cases h
      exact if_neg fun hnone => Option.some_ne_none _ (hrow.symm.trans hnone)

theorem setAcpSessionId_ok {sessionId : Option String}
    (h : setAcpSessionId sessionId db = .ok after) :
    ∃ record, db.record = some record ∧
      after.record = some { record with acpSessionId := sessionId } := by
  rw [setAcpSessionId] at h
  split at h
  · cases h
  · next record hrecord =>
      cases h
      exact ⟨record, hrecord, write_record _ hrecord⟩

/-- **A Run id is not written to a record of another process.** -/
theorem setSpawnRunId_replaced {runId : RunId} {fingerprint : ProcessFingerprint}
    (h : db.record = some record) (hne : record.fingerprint ≠ fingerprint) :
    ∃ e, setSpawnRunId runId fingerprint db = .error e := by
  rw [setSpawnRunId, h]
  exact ⟨_, if_neg hne⟩

/-- A Run id that is written changes nothing else. -/
theorem setSpawnRunId_ok {runId : RunId} {fingerprint : ProcessFingerprint}
    (h : setSpawnRunId runId fingerprint db = .ok after) :
    ∃ record, db.record = some record ∧ after.row = db.row ∧
      after.record = some { record with runId := some runId } := by
  rw [setSpawnRunId] at h
  split at h
  · cases h
  · next record hrecord =>
      split_ifs at h
      cases h
      exact ⟨record, hrecord, rfl, write_record _ hrecord⟩

theorem session_setSpawnRunId {runId : RunId} {fingerprint : ProcessFingerprint}
    (h : setSpawnRunId runId fingerprint db = .ok after) : after.session = db.session := by
  obtain ⟨record, hrecord, -, hafter⟩ := setSpawnRunId_ok h
  rw [session, session, hrecord, hafter]
  rfl

/-- A settled record is gone, or it is a seed that keeps the session id. -/
theorem session_settleSpawnRecord : (settleSpawnRecord db).2.session = db.session := by
  rw [settleSpawnRecord]
  split
  · rfl
  · next record hrecord =>
      split
      · next sessionId hsession =>
          rw [session, session, hrecord, write_record _ hrecord]
          exact hsession.symm
      · next hsession =>
          rw [session, session, hrecord, write_none]
          exact hsession.symm

theorem settleSpawnRecord_lease {held : Option ProcessFingerprint}
    (h : (settleSpawnRecord db).2.record = some record) (hheld : record.lease = held) :
    held = none := by
  subst hheld
  rw [settleSpawnRecord] at h
  split at h
  · next hnone =>
      rw [hnone] at h
      cases h
  · next record' hrecord =>
      split at h
      · rw [write_record _ hrecord] at h
        cases h
        rfl
      · rw [write_none] at h
        cases h

/-- A compare-and-set that wins has found the lease it expected. -/
theorem tryAcquire_won {expected : Option ProcessFingerprint} {leaseholder : ProcessFingerprint}
    (h : tryAcquireAdoptionLease expected leaseholder db = (true, after)) :
    ∃ record, db.record = some record ∧ record.lease = expected ∧
      after.record = some { record with lease := some leaseholder } := by
  rw [tryAcquireAdoptionLease] at h
  split at h
  · cases h
  · next record hrecord =>
      split_ifs at h with hlease
      · cases h
        exact ⟨record, hrecord, hlease, write_record _ hrecord⟩
      · cases h

/-- A compare-and-set that loses leaves everything as it is. -/
theorem tryAcquire_lost {expected : Option ProcessFingerprint} {leaseholder : ProcessFingerprint}
    (h : tryAcquireAdoptionLease expected leaseholder db = (false, after)) : after = db := by
  rw [tryAcquireAdoptionLease] at h
  split at h
  · cases h
    rfl
  · split_ifs at h
    · cases h
    · cases h
      rfl

end Store

end Adoption

end Hekma
