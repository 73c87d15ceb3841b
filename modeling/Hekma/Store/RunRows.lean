/-
**The rows of a Run** (`store/runs_sqlite.rs`, `domain/runs/mod.rs`).

A Run is stored in the columns of four tables: texts for the enumerations, integers for the flags, a
comma list for the anomalies, and a row for each ceiling it has.  The column of a ceiling is a
signed integer, and the action stands in the rows of the ceilings.  So a token ceiling is read back
capped, a negative dollar ceiling as zero, and an action only with a ceiling.

Main definitions:

* `RunTables` — the tables, with the keys and references they have;
* `RunTables.insertRun` — what an insertion writes;
* `RunTables.runRecord`, `RunTables.runLabels`, `RunTables.runLimits`, `RunTables.identityRun` — what
  is read;
* `RunLimits.stored` — the ceilings as they are read back.

Main results:

* `Anomaly.decode_encode` — a set of anomalies survives its column;
* `RunTables.runLimits_insertRun` — the ceilings that are read back;
* `RunTables.insertRun_reads_back` — **what is read of a Run that was inserted**;
* `RunTables.reads_as_runStore` — the store of the registry reads the same.
-/

import Hekma.Store.Runs

set_option relaxedAutoImplicit false
set_option autoImplicit false

namespace Hekma

open Runs (bind_ok)

/-! ### The columns -/

/-- The wire form of a depth, read. -/
def ControlDepth.fromWire (raw : String) : Option ControlDepth :=
  [observed, wire, announced, supervised].find? fun depth => depth.asStr = raw

/-- The wire form of a status. -/
def RunStatus.asStr : RunStatus → String
  | active => "active"
  | held => "held"
  | silent => "silent"
  | stale => "stale"
  | ended => "ended"

/-- The wire form of a status, read. -/
def RunStatus.fromWire (raw : String) : Option RunStatus :=
  [active, held, silent, stale, ended].find? fun status => status.asStr = raw

/-- The wire form of a source. -/
def LabelSource.asStr : LabelSource → String
  | bound => "bound"
  | caller => "caller"

/-- The wire form of a source, read. -/
def LabelSource.fromWire (raw : String) : Option LabelSource :=
  if raw = "bound" then some bound else if raw = "caller" then some caller else none

/-- The wire form of an anomaly. -/
def Anomaly.asStr : Anomaly → String
  | breach => "breach"
  | failed => "failed"
  | depthFallback => "depth-fallback"

/-- The wire form of an anomaly, read. -/
def Anomaly.fromWire (raw : String) : Option Anomaly :=
  Anomaly.all.find? fun anomaly => anomaly.asStr = raw

/-- A set of anomalies as a comma list. -/
def Anomaly.encode (set : List Anomaly) : String :=
  String.intercalate "," ((Anomaly.normalize set).map asStr)

/-- A comma list as a set of anomalies.  A name that is not known is skipped. -/
def Anomaly.decode (raw : String) : List Anomaly :=
  Anomaly.normalize ((raw.toList.splitOn ',').filterMap fun part => fromWire (String.ofList part))

theorem ControlDepth.fromWire_asStr (depth : ControlDepth) : fromWire depth.asStr = some depth := by
  cases depth <;> decide

theorem RunStatus.fromWire_asStr (status : RunStatus) : fromWire status.asStr = some status := by
  cases status <;> decide

theorem LabelSource.fromWire_asStr (source : LabelSource) :
    fromWire source.asStr = some source := by
  cases source <;> decide

/-- **A set of anomalies survives its column**, sorted. -/
theorem Anomaly.decode_encode (set : List Anomaly) : decode (encode set) = normalize set := by
  have hcases : ∀ b f d : Bool,
      decode (String.intercalate "," ((all.filter fun a =>
        match a with
        | breach => b
        | failed => f
        | depthFallback => d).map asStr)) = all.filter fun a =>
          match a with
          | breach => b
          | failed => f
          | depthFallback => d := by
    decide +kernel
  have hfilter : normalize set = all.filter fun a =>
      match a with
      | breach => decide (breach ∈ set)
      | failed => decide (failed ∈ set)
      | depthFallback => decide (depthFallback ∈ set) :=
    List.filter_congr fun a _ => by cases a <;> rfl
  rw [encode, hfilter]
  exact hcases _ _ _

/-! ### The tables -/

/-- A row of `runs`. -/
structure RunRow where
  runId : RunId
  controlDepth : String
  wirePath : ℤ
  status : String
  anomalies : String
  parentRunId : Option RunId
  instanceId : Option ℕ
  processOwner : ℤ
  endCause : Option String
  createdAt : Timestamp
  updatedAt : Timestamp
  endedAt : Option Timestamp
  deriving DecidableEq, Repr

/-- A row of `run_labels`. -/
structure RunLabelRow where
  runId : RunId
  key : String
  value : String
  source : String
  deriving DecidableEq, Repr

/-- A row of `run_limits`. -/
structure RunLimitRow where
  runId : RunId
  dimension : String
  scope : String
  limitValue : ℤ
  action : String
  source : String
  setAt : Timestamp
  deriving DecidableEq, Repr

/-- A row of `run_identities`. -/
structure RunIdentityRow where
  binding : String
  externalId : String
  runId : RunId
  createdAt : Timestamp
  deriving DecidableEq, Repr

/-- Why an access to the tables failed. -/
inductive RowError where
  | notFound (name : String)
  | constraint
  | corruptRow (name : String) (runId : RunId) (what raw : String)
  deriving DecidableEq, Repr

/-- The tables.  Instances have a numeric id. -/
structure RunTables where
  agentInstances : List (ℕ × InstanceName)
  runs : List RunRow
  labels : List RunLabelRow
  limits : List RunLimitRow
  identities : List RunIdentityRow
  deriving DecidableEq, Repr

/-- The ceilings of a Run as they are read back: capped, not negative, and an action only with a
ceiling. -/
def RunLimits.stored (limits : RunLimits) : RunLimits where
  tokenPerRun := limits.tokenPerRun.map fun t => min t (2 ^ 63 - 1)
  dollarPerRunMicros := limits.dollarPerRunMicros.map fun m => Micros.clamp (max m.val 0)
  breachAction := if limits.isArmed then some limits.action else none

namespace RunTables

/-- The keys of the instances, and the references to the Runs. -/
structure Sound (t : RunTables) : Prop where
  ids : (t.agentInstances.map Prod.fst).Nodup
  labels : ∀ row ∈ t.labels, ∃ r ∈ t.runs, r.runId = row.runId
  limits : ∀ row ∈ t.limits, ∃ r ∈ t.runs, r.runId = row.runId
  identities : ∀ row ∈ t.identities, ∃ r ∈ t.runs, r.runId = row.runId

/-! ### Writing -/

/-- The id of the instance of a Run that has one. -/
def optionalInstanceId (t : RunTables) : Option InstanceName → Except RowError (Option ℕ)
  | none => return none
  | some name =>
      match t.agentInstances.find? fun p => p.2 = name with
      | some p => return some p.1
      | none => throw (.notFound name)

/-- Another row owns the process of the instance of this open owner. -/
def ownerConflict (t : RunTables) (row : RunRow) : Bool :=
  row.processOwner = 1 && row.status ≠ "ended" && row.instanceId.isSome &&
    t.runs.any fun r => r.processOwner = 1 && r.status ≠ "ended" && r.instanceId = row.instanceId

/-- Insert into `runs`. -/
def insertRunRow (t : RunTables) (row : RunRow) : Except RowError RunTables :=
  if t.runs.any fun r => r.runId = row.runId then throw .constraint
  else if !(row.parentRunId.all fun p => (row :: t.runs).any fun r => r.runId = p) then
    throw .constraint
  else if t.ownerConflict row then throw .constraint
  else return { t with runs := t.runs ++ [row] }

/-- Insert into `run_labels`. -/
def insertLabel (t : RunTables) (row : RunLabelRow) : Except RowError RunTables :=
  if t.labels.any fun r => r.runId = row.runId && r.key = row.key then throw .constraint
  else return { t with labels := t.labels ++ [row] }

/-- Insert into `run_limits`. -/
def insertLimit (t : RunTables) (row : RunLimitRow) : Except RowError RunTables :=
  if t.limits.any fun r =>
      r.runId = row.runId && r.dimension = row.dimension && r.scope = row.scope then
    throw .constraint
  else return { t with limits := t.limits ++ [row] }

/-- Insert into `run_identities`. -/
def insertIdentity (t : RunTables) (row : RunIdentityRow) : Except RowError RunTables :=
  if t.identities.any fun r => r.binding = row.binding && r.externalId = row.externalId then
    throw .constraint
  else return { t with identities := t.identities ++ [row] }

/-- The columns of a record. -/
def rowOf (record : RunRecord) (instanceId : Option ℕ) : RunRow where
  runId := record.runId
  controlDepth := record.controlDepth.asStr
  wirePath := if record.wirePath then 1 else 0
  status := record.status.asStr
  anomalies := Anomaly.encode record.anomalies
  parentRunId := record.parentRunId
  instanceId := instanceId
  processOwner := if record.processOwner then 1 else 0
  endCause := record.endCause
  createdAt := record.createdAt
  updatedAt := record.updatedAt
  endedAt := record.endedAt

/-- The columns of a label. -/
def labelRow (id : RunId) (label : Label) : RunLabelRow :=
  ⟨id, label.key, label.value, label.source.asStr⟩

/-- The ceilings of a Run, each with its dimension.  A token ceiling is capped. -/
def ceilings (limits : RunLimits) : List (String × ℤ) :=
  (limits.tokenPerRun.toList.map fun t => ("tokens", min (t : ℤ) i64Max)) ++
    limits.dollarPerRunMicros.toList.map fun m => ("dollars", m.val)

/-- The columns of a ceiling. -/
def limitRow (record : RunRecord) (action : BreachAction) (ceiling : String × ℤ) : RunLimitRow :=
  ⟨record.runId, ceiling.1, "per-run", ceiling.2, action.asStr, "host", record.createdAt⟩

/-- The columns of an identity. -/
def identityRow (record : RunRecord) (identity : String × String) : RunIdentityRow :=
  ⟨identity.1, identity.2, record.runId, record.createdAt⟩

/-- Insert a Run with its labels, ceilings and identity. -/
def insertRun (t : RunTables) (run : NewRun) : Except RowError RunTables := do
  let instanceId ← t.optionalInstanceId run.record.instanceName
  let t ← t.insertRunRow (rowOf run.record instanceId)
  let t ← (run.labels.map (labelRow run.record.runId)).foldlM insertLabel t
  let rows := (ceilings run.limits).map (limitRow run.record run.limits.action)
  let t ← rows.foldlM insertLimit t
  (run.identity.toList.map (identityRow run.record)).foldlM insertIdentity t

/-! ### Reading -/

/-- A column that holds the wire form of something. -/
def column {α : Type} (id : RunId) (table what raw : String) (value : Option α) :
    Except RowError α :=
  match value with
  | some a => return a
  | none => throw (.corruptRow table id what raw)

/-- The record of a row. -/
def readRecord (t : RunTables) (row : RunRow) : Except RowError RunRecord := do
  let controlDepth ← column row.runId "runs" "control depth" row.controlDepth
    (ControlDepth.fromWire row.controlDepth)
  let status ← column row.runId "runs" "status" row.status (RunStatus.fromWire row.status)
  return {
    runId := row.runId
    controlDepth
    wirePath := row.wirePath ≠ 0
    status
    anomalies := Anomaly.decode row.anomalies
    parentRunId := row.parentRunId
    instanceName := row.instanceId.bind fun id =>
      (t.agentInstances.find? fun p => p.1 = id).map Prod.snd
    processOwner := row.processOwner ≠ 0
    endCause := row.endCause
    createdAt := row.createdAt
    updatedAt := row.updatedAt
    endedAt := row.endedAt }

/-- The record of a Run. -/
def runRecord (t : RunTables) (id : RunId) : Except RowError (Option RunRecord) :=
  match t.runs.find? fun r => r.runId = id with
  | none => return none
  | some row => some <$> t.readRecord row

/-- The label of a row. -/
def readLabel (row : RunLabelRow) : Except RowError Label := do
  let source ← column row.runId "run_labels" row.key row.source (LabelSource.fromWire row.source)
  return ⟨row.key, row.value, source⟩

/-- The labels of a Run, by key. -/
def runLabels (t : RunTables) (id : RunId) : Except RowError (List Label) :=
  ((t.labels.filter fun r => r.runId = id).insertionSort fun a b => a.key ≤ b.key).mapM readLabel

/-- Take in a row of a ceiling. -/
def readLimit (limits : RunLimits) (row : RunLimitRow) : Except RowError RunLimits := do
  let action ← column row.runId "run_limits" "Breach Action" row.action
    (BreachAction.fromStr row.action).toOption
  let limits := { limits with breachAction := some action }
  if row.dimension = "tokens" then
    return { limits with tokenPerRun := some (max row.limitValue 0).toNat }
  else if row.dimension = "dollars" then
    return { limits with dollarPerRunMicros := some (Micros.clamp (max row.limitValue 0)) }
  else throw (.corruptRow "run_limits" row.runId "dimension" row.dimension)

/-- The ceilings of a Run. -/
def runLimits (t : RunTables) (id : RunId) : Except RowError RunLimits :=
  (t.limits.filter fun r => r.runId = id && r.scope = "per-run").foldlM readLimit RunLimits.empty

/-- The Run an identity was bound to. -/
def identityRun (t : RunTables) (identity : String × String) : Option RunId :=
  (t.identities.find? fun r =>
    r.binding = identity.1 && r.externalId = identity.2).map RunIdentityRow.runId

/-! ### What an insertion writes -/

variable {t t' : RunTables} {run : NewRun} {id : RunId} {row : RunRow}

theorem insertRunRow_ok (h : t.insertRunRow row = .ok t') :
    (∀ r ∈ t.runs, r.runId ≠ row.runId) ∧ t' = { t with runs := t.runs ++ [row] } := by
  unfold insertRunRow at h
  split at h
  · exact absurd h (by simp [throw, throwThe, MonadExceptOf.throw])
  · rename_i hfresh
    split at h
    · exact absurd h (by simp [throw, throwThe, MonadExceptOf.throw])
    · split at h
      · exact absurd h (by simp [throw, throwThe, MonadExceptOf.throw])
      · exact ⟨by simpa using hfresh, (Except.ok.inj h).symm⟩

/-- Rows that are inserted one after the other are appended. -/
theorem foldlM_insert_ok {ρ : Type} {insert : RunTables → ρ → Except RowError RunTables}
    (P : RunTables → List ρ → RunTables) (hnone : ∀ t, P t [] = t)
    (hput : ∀ t rows rows', P (P t rows) rows' = P t (rows ++ rows'))
    (hone : ∀ t row t', insert t row = .ok t' → t' = P t [row]) {rows : List ρ}
    (h : rows.foldlM insert t = .ok t') : t' = P t rows := by
  induction rows generalizing t with
  | nil =>
      rw [hnone]
      exact (Except.ok.inj h).symm
  | cons row rows ih =>
      rw [List.foldlM_cons] at h
      obtain ⟨mid, hmid, hrest⟩ := bind_ok h
      rw [ih hrest, hone _ _ _ hmid, hput]
      rfl

theorem insertLabels_ok {rows : List RunLabelRow} (h : rows.foldlM insertLabel t = .ok t') :
    t' = { t with labels := t.labels ++ rows } := by
  refine foldlM_insert_ok (fun t rows => { t with labels := t.labels ++ rows })
    (fun t => by simp) (fun t rows rows' => by simp) (fun t row t' h => ?_) h
  unfold insertLabel at h
  split at h
  · exact absurd h (by simp [throw, throwThe, MonadExceptOf.throw])
  · exact (Except.ok.inj h).symm

theorem insertLimits_ok {rows : List RunLimitRow} (h : rows.foldlM insertLimit t = .ok t') :
    t' = { t with limits := t.limits ++ rows } := by
  refine foldlM_insert_ok (fun t rows => { t with limits := t.limits ++ rows })
    (fun t => by simp) (fun t rows rows' => by simp) (fun t row t' h => ?_) h
  unfold insertLimit at h
  split at h
  · exact absurd h (by simp [throw, throwThe, MonadExceptOf.throw])
  · exact (Except.ok.inj h).symm

theorem insertIdentities_ok {rows : List RunIdentityRow}
    (h : rows.foldlM insertIdentity t = .ok t') :
    t' = { t with identities := t.identities ++ rows } ∧ ∀ row ∈ rows, ∀ r ∈ t.identities,
      ¬ (r.binding = row.binding ∧ r.externalId = row.externalId) := by
  induction rows generalizing t with
  | nil =>
      rw [← Except.ok.inj h, List.append_nil]
      exact ⟨rfl, by simp⟩
  | cons row rows ih =>
      rw [List.foldlM_cons] at h
      obtain ⟨mid, hmid, hrest⟩ := bind_ok h
      unfold insertIdentity at hmid
      split at hmid
      · exact absurd hmid (by simp [throw, throwThe, MonadExceptOf.throw])
      · rename_i hfresh
        obtain rfl := Except.ok.inj hmid
        obtain ⟨heq, hothers⟩ := ih hrest
        refine ⟨by rw [heq, List.append_assoc]; rfl, fun other hother r hr => ?_⟩
        rcases List.mem_cons.1 hother with rfl | hother
        · have hnone : ∀ r ∈ t.identities,
              ¬ (r.binding = other.binding ∧ r.externalId = other.externalId) := by
            simpa using hfresh
          exact hnone r hr
        · exact hothers other hother r (List.mem_append_left _ hr)

/-- What an insertion that is accepted writes. -/
theorem insertRun_ok (h : t.insertRun run = .ok t') :
    ∃ instanceId, t.optionalInstanceId run.record.instanceName = .ok instanceId ∧
      (∀ r ∈ t.runs, r.runId ≠ run.record.runId) ∧
      (∀ key ∈ run.identity, ∀ r ∈ t.identities, ¬ (r.binding = key.1 ∧ r.externalId = key.2)) ∧
      t' = { t with
        runs := t.runs ++ [rowOf run.record instanceId]
        labels := t.labels ++ run.labels.map (labelRow run.record.runId)
        limits := t.limits ++
          (ceilings run.limits).map (limitRow run.record run.limits.action)
        identities := t.identities ++ run.identity.toList.map (identityRow run.record) } := by
  unfold insertRun at h
  obtain ⟨instanceId, hinstance, h⟩ := bind_ok h
  obtain ⟨t₁, hrow, h⟩ := bind_ok h
  obtain ⟨t₂, hlabels, h⟩ := bind_ok h
  obtain ⟨t₃, hlimits, hidentity⟩ := bind_ok h
  obtain ⟨hfresh, rfl⟩ := insertRunRow_ok hrow
  obtain rfl := insertLabels_ok hlabels
  obtain rfl := insertLimits_ok hlimits
  obtain ⟨rfl, hkeys⟩ := insertIdentities_ok hidentity
  refine ⟨instanceId, hinstance, hfresh, fun key hkey r hr => ?_, rfl⟩
  exact hkeys (identityRow run.record key)
    (List.mem_map_of_mem (Option.mem_toList.2 hkey)) r hr

/-! ### What is read back -/

theorem find?_instance_of_optionalInstanceId (ht : t.Sound) {name : Option InstanceName}
    {instanceId : Option ℕ} (h : t.optionalInstanceId name = .ok instanceId) :
    (instanceId.bind fun id => (t.agentInstances.find? fun p => p.1 = id).map Prod.snd) = name := by
  cases name with
  | none =>
      obtain rfl := Except.ok.inj h
      rfl
  | some name =>
      unfold optionalInstanceId at h
      dsimp only at h
      split at h
      · rename_i p hp
        obtain rfl := Except.ok.inj h
        have hmem := List.mem_of_find?_eq_some hp
        have hname : p.2 = name := by simpa using List.find?_some hp
        -- the id finds the row it was read from
        obtain ⟨q, hq⟩ : ∃ q, t.agentInstances.find? (fun q => q.1 = p.1) = some q :=
          Option.isSome_iff_exists.1 (List.find?_isSome.2 ⟨p, hmem, by simp⟩)
        have hid : q.1 = p.1 := by simpa using List.find?_some hq
        have heq : q = p :=
          List.inj_on_of_nodup_map ht.ids (List.mem_of_find?_eq_some hq) hmem hid
        rw [Option.bind_some, hq, heq, Option.map_some, hname]
      · exact absurd h (by simp [throw, throwThe, MonadExceptOf.throw])

/-- A record is read from its columns. -/
theorem readRecord_rowOf {record : RunRecord} {instanceId : Option ℕ}
    (h : (instanceId.bind fun id => (t.agentInstances.find? fun p => p.1 = id).map Prod.snd)
      = record.instanceName) :
    t.readRecord (rowOf record instanceId)
      = .ok { record with anomalies := Anomaly.normalize record.anomalies } := by
  simp only [readRecord, rowOf, column, ControlDepth.fromWire_asStr, RunStatus.fromWire_asStr,
    Anomaly.decode_encode, h]
  obtain ⟨_, _, wirePath, _, _, _, _, processOwner, _, _, _, _⟩ := record
  cases wirePath <;> cases processOwner <;> rfl

/-- The labels of a Run are read from their columns. -/
theorem mapM_readLabel (labels : List Label) :
    (labels.map (labelRow id)).mapM readLabel = .ok labels := by
  induction labels with
  | nil => rfl
  | cons label labels ih =>
      have hone : readLabel (labelRow id label) = .ok label := by
        simp only [readLabel, labelRow, column, LabelSource.fromWire_asStr]
        rfl
      rw [List.map_cons, List.mapM_cons, hone, ih]
      rfl

theorem readLimit_tokens {record : RunRecord} {action : BreachAction} (limits : RunLimits) (n : ℤ) :
    readLimit limits (limitRow record action ("tokens", n)) = .ok
      { limits with breachAction := some action, tokenPerRun := some (max n 0).toNat } := by
  simp only [readLimit, limitRow, column, BreachAction.fromStr_asStr]
  rfl

theorem readLimit_dollars {record : RunRecord} {action : BreachAction} (limits : RunLimits)
    (n : ℤ) :
    readLimit limits (limitRow record action ("dollars", n)) = .ok
      { limits with
        breachAction := some action
        dollarPerRunMicros := some (Micros.clamp (max n 0)) } := by
  simp only [readLimit, limitRow, column, BreachAction.fromStr_asStr]
  rfl

/-- **The ceilings that are read back.** -/
theorem readLimits_ceilings (record : RunRecord) (limits : RunLimits) :
    ((ceilings limits).map (limitRow record limits.action)).foldlM readLimit RunLimits.empty
      = .ok limits.stored := by
  have hcap : ∀ t : ℕ, (max (min (t : ℤ) i64Max) 0).toNat = min t (2 ^ 63 - 1) := by
    intro t
    simp only [i64Max]
    omega
  obtain ⟨tokens, dollars, action⟩ := limits
  cases tokens <;> cases dollars <;>
    simp [ceilings, readLimit_tokens, readLimit_dollars, RunLimits.stored, RunLimits.isArmed,
      RunLimits.empty, hcap, bind, Except.bind, pure, Except.pure]

theorem runRecord_insertRun (ht : t.Sound) (h : t.insertRun run = .ok t') :
    t'.runRecord run.record.runId = .ok
      (some { run.record with anomalies := Anomaly.normalize run.record.anomalies }) := by
  obtain ⟨instanceId, hinstance, hfresh, -, rfl⟩ := insertRun_ok h
  have hfind : (t.runs ++ [rowOf run.record instanceId]).find?
      (fun r => decide (r.runId = run.record.runId)) = some (rowOf run.record instanceId) := by
    rw [List.find?_append, List.find?_eq_none.2 (by simpa using hfresh)]
    simp [rowOf]
  unfold runRecord
  dsimp only
  rw [hfind]
  exact congrArg (some <$> ·) (readRecord_rowOf (find?_instance_of_optionalInstanceId ht hinstance))

theorem runLabels_insertRun (ht : t.Sound) (h : t.insertRun run = .ok t') :
    t'.runLabels run.record.runId
      = .ok (run.labels.insertionSort fun a b => a.key ≤ b.key) := by
  obtain ⟨instanceId, -, hfresh, -, rfl⟩ := insertRun_ok h
  have hold : t.labels.filter (fun r => decide (r.runId = run.record.runId)) = [] := by
    refine List.filter_eq_nil_iff.2 fun row hrow => ?_
    obtain ⟨r, hr, hid⟩ := ht.labels row hrow
    simpa [← hid] using hfresh r hr
  have hnew : (run.labels.map (labelRow run.record.runId)).filter
      (fun r => decide (r.runId = run.record.runId)) = run.labels.map (labelRow run.record.runId) :=
    List.filter_eq_self.2 fun row hrow => by
      obtain ⟨label, -, rfl⟩ := List.mem_map.1 hrow
      simp [labelRow]
  have hsort : (run.labels.insertionSort fun a b => a.key ≤ b.key).map
      (labelRow run.record.runId) = (run.labels.map (labelRow run.record.runId)).insertionSort
        fun a b => a.key ≤ b.key :=
    List.map_insertionSort _ _ _ _ fun _ _ _ _ => Iff.rfl
  unfold runLabels
  dsimp only
  rw [List.filter_append, hold, hnew, List.nil_append, ← hsort, mapM_readLabel]

theorem runLimits_insertRun (ht : t.Sound) (h : t.insertRun run = .ok t') :
    t'.runLimits run.record.runId = .ok run.limits.stored := by
  obtain ⟨instanceId, -, hfresh, -, rfl⟩ := insertRun_ok h
  have hold : t.limits.filter
      (fun r => decide (r.runId = run.record.runId) && decide (r.scope = "per-run")) = [] := by
    refine List.filter_eq_nil_iff.2 fun row hrow => ?_
    obtain ⟨r, hr, hid⟩ := ht.limits row hrow
    simp [← hid, hfresh r hr]
  have hnew : ((ceilings run.limits).map (limitRow run.record run.limits.action)).filter
      (fun r => decide (r.runId = run.record.runId) && decide (r.scope = "per-run"))
        = (ceilings run.limits).map (limitRow run.record run.limits.action) :=
    List.filter_eq_self.2 fun row hrow => by
      obtain ⟨ceiling, -, rfl⟩ := List.mem_map.1 hrow
      simp [limitRow]
  unfold runLimits
  dsimp only
  rw [List.filter_append, hold, hnew, List.nil_append, readLimits_ceilings]

theorem identityRun_insertRun (h : t.insertRun run = .ok t') {key : String × String}
    (hkey : key ∈ run.identity) : t'.identityRun key = some run.record.runId := by
  obtain ⟨instanceId, -, -, hkeys, rfl⟩ := insertRun_ok h
  have hold : t.identities.find?
      (fun r => decide (r.binding = key.1) && decide (r.externalId = key.2)) = none := by
    refine List.find?_eq_none.2 fun r hr => ?_
    simpa using hkeys key hkey r hr
  rw [Option.mem_def] at hkey
  unfold identityRun
  dsimp only
  rw [List.find?_append, hold, hkey]
  simp [identityRow]

/-! ### The ceilings that are read back -/

theorem isArmed_stored (limits : RunLimits) : limits.stored.isArmed = limits.isArmed := by
  simp [RunLimits.stored, RunLimits.isArmed]

/-- The effective action of a ceiling survives. -/
theorem action_stored {limits : RunLimits} (h : limits.isArmed = true) :
    limits.stored.action = limits.action := by
  rw [RunLimits.action, RunLimits.stored, if_pos h]
  rfl

/-- Ceilings that fit their columns survive. -/
theorem stored_eq {limits : RunLimits} (harmed : limits.isArmed = true)
    (htokens : ∀ t ∈ limits.tokenPerRun, (t : ℤ) ≤ i64Max)
    (hdollars : ∀ m ∈ limits.dollarPerRunMicros, 0 ≤ m.val) :
    limits.stored = { limits with breachAction := some limits.action } := by
  have htoken : limits.tokenPerRun.map (fun t => min t (2 ^ 63 - 1)) = limits.tokenPerRun := by
    cases h : limits.tokenPerRun with
    | none => rfl
    | some t =>
        have hle := htokens t h
        simp only [i64Max] at hle
        rw [Option.map_some, Nat.min_eq_left (by omega)]
  have hdollar : limits.dollarPerRunMicros.map (fun m => Micros.clamp (max m.val 0))
      = limits.dollarPerRunMicros := by
    cases h : limits.dollarPerRunMicros with
    | none => rfl
    | some m =>
        have hclamp : Micros.clamp m.val = m := Subtype.ext (by
          rw [Micros.clamp_val, min_eq_left m.2.2, max_eq_right m.2.1])
        rw [Option.map_some, max_eq_left (hdollars m h), hclamp]
  rw [RunLimits.stored, if_pos harmed, htoken, hdollar]

/-- **What is read of a Run that was inserted**: its record with the anomalies as a sorted set, its
labels by key, its identity, and its ceilings, which are armed if they were and have the action they
had; and ceilings that fit their columns are the ceilings they were. -/
theorem insertRun_reads_back (t t' : RunTables) (run : NewRun) (ht : t.Sound)
    (h : t.insertRun run = .ok t') :
    t'.runRecord run.record.runId = .ok
        (some { run.record with anomalies := Anomaly.normalize run.record.anomalies }) ∧
      t'.runLabels run.record.runId
        = .ok (run.labels.insertionSort fun a b => a.key ≤ b.key) ∧
      (∀ key ∈ run.identity, t'.identityRun key = some run.record.runId) ∧
      t'.runLimits run.record.runId = .ok run.limits.stored ∧
      run.limits.stored.isArmed = run.limits.isArmed ∧
      (run.limits.isArmed = true → run.limits.stored.action = run.limits.action) ∧
      (run.limits.isArmed = true → (∀ n ∈ run.limits.tokenPerRun, (n : ℤ) ≤ i64Max) →
        (∀ m ∈ run.limits.dollarPerRunMicros, 0 ≤ m.val) →
          run.limits.stored = { run.limits with breachAction := some run.limits.action }) :=
  ⟨runRecord_insertRun ht h, runLabels_insertRun ht h, fun _ => identityRun_insertRun h,
    runLimits_insertRun ht h, isArmed_stored run.limits, action_stored, stored_eq⟩

/-! ### The store of the registry -/

/-- The store of the registry reads the ceilings the same. -/
theorem runLimits_runStore {s s' : RunStore} (h : s.insertRun run = .ok s')
    (hnone : ∀ l ∈ s.limits, l.runId ≠ run.record.runId) :
    s'.runLimits run.record.runId = run.limits.stored := by
  have hrows := (RunStore.insertRun_tables h).2.1
  have hold : s.limits.filter (fun l => decide (l.runId = run.record.runId)) = [] :=
    List.filter_eq_nil_iff.2 fun l hl => by simpa using hnone l hl
  have hcap : ∀ t : ℕ, (min (t : ℤ) i64Max).toNat = min t (2 ^ 63 - 1) := by
    intro t
    simp only [i64Max]
    omega
  rw [RunStore.runLimits, hrows, List.filter_append, hold, List.nil_append]
  obtain ⟨record, labels, ⟨tokens, dollars, action⟩, identity⟩ := run
  cases tokens <;> cases dollars <;>
    simp [RunStore.limitRows, RunLimits.stored, RunLimits.isArmed, RunLimits.empty, hcap]

/-- **The store of the registry reads the same** of a Run that was inserted into both. -/
theorem reads_as_runStore (ht : t.Sound) (h : t.insertRun run = .ok t') {s s' : RunStore}
    (hs : s.insertRun run = .ok s') (hlabels : ∀ l ∈ s.labels, l.1 ≠ run.record.runId)
    (hlimits : ∀ l ∈ s.limits, l.runId ≠ run.record.runId) :
    t'.runRecord run.record.runId = .ok (s'.runRecord run.record.runId) ∧
      t'.runLabels run.record.runId = .ok (s'.runLabels run.record.runId) ∧
      t'.runLimits run.record.runId = .ok (s'.runLimits run.record.runId) := by
  refine ⟨?_, ?_, ?_⟩
  · rw [runRecord_insertRun ht h, RunStore.runRecord_insertRun hs, if_pos rfl]
  · have hrows := (RunStore.insertRun_tables hs).1
    have hold : s.labels.filter (fun l => decide (l.1 = run.record.runId)) = [] :=
      List.filter_eq_nil_iff.2 fun l hl => by simpa using hlabels l hl
    have hnew : ((run.labels.map fun l => (run.record.runId, l)).filter
        fun l => decide (l.1 = run.record.runId)).map Prod.snd = run.labels := by
      have hall : ∀ l ∈ run.labels.map fun l => (run.record.runId, l),
          decide (l.1 = run.record.runId) = true := by
        intro l hl
        obtain ⟨label, -, rfl⟩ := List.mem_map.1 hl
        exact decide_eq_true rfl
      rw [List.filter_eq_self.2 hall, List.map_map]
      exact List.map_id _
    rw [runLabels_insertRun ht h, RunStore.runLabels, hrows, List.filter_append, hold,
      List.nil_append, hnew]
  · rw [runLimits_insertRun ht h, runLimits_runStore hs hlimits]

/-! ### Ceilings that do not survive -/

/-- Tables with one instance. -/
def oneInstance : RunTables := ⟨[(1, "agent")], [], [], [], []⟩

/-- A Run of the instance with some ceilings. -/
def runWith (limits : RunLimits) : NewRun where
  record :=
    { runId := 7
      controlDepth := .announced
      wirePath := true
      status := .active
      anomalies := [.failed, .breach, .failed]
      parentRunId := none
      instanceName := some "agent"
      processOwner := false
      endCause := none
      createdAt := "t"
      updatedAt := "t"
      endedAt := none }
  labels := [⟨"team", "a", .bound⟩, ⟨"env", "b", .caller⟩]
  limits := limits
  identity := some ("host", "x")

/-- Two ceilings that fit their columns. -/
theorem insertRun_reads_back_fitting :
    ∃ t', oneInstance.insertRun (runWith ⟨some 100, some ⟨5, by decide⟩, none⟩) = .ok t' ∧
      t'.runLimits 7 = .ok ⟨some 100, some ⟨5, by decide⟩, some .warn⟩ ∧
      t'.identityRun ("host", "x") = some 7 := by
  have hsound : oneInstance.Sound := ⟨by decide, by decide, by decide, by decide⟩
  obtain ⟨t', h⟩ : ∃ t', oneInstance.insertRun (runWith ⟨some 100, some ⟨5, by decide⟩, none⟩)
      = .ok t' := ⟨_, rfl⟩
  obtain ⟨-, -, hidentity, hlimits, -, -, hfit⟩ := insertRun_reads_back _ t' _ hsound h
  refine ⟨t', h, ?_, hidentity _ rfl⟩
  rw [hfit rfl (by decide) (by decide)] at hlimits
  exact hlimits

/-- **Ceilings that do not survive**: a token ceiling beyond the signed integers, and an action
without a ceiling. -/
theorem ceilings_not_read_back :
    ((oneInstance.insertRun (runWith ⟨some (2 ^ 64 - 1), none, some .stop⟩)).bind fun t =>
        t.runLimits 7) = .ok ⟨some (2 ^ 63 - 1), none, some .stop⟩ ∧
      ((oneInstance.insertRun (runWith ⟨none, none, some .stop⟩)).bind fun t =>
        t.runLimits 7) = .ok ⟨none, none, none⟩ ∧
      RunLimits.action ⟨none, none, some .stop⟩ ≠ RunLimits.action ⟨none, none, none⟩ := by
  decide +kernel

end RunTables

end Hekma
