/-
**The Run tables** (`store/runs_sqlite.rs`).

The store keeps one row for each Run, with its labels, its ceilings and the external identities
it was opened under.  The constraints of the schema are part of the model: a row is refused when
its key is taken, when its parent or its instance is missing, and when its instance would have a
second open process-owning Run.

Main definitions:

* `RunStore`, `NewRun` — the tables, and what is inserted into them;
* `RunStore.insertRun`, `RunStore.saveRun`, `RunStore.replaceLabels` — the writes;
* `RunStore.runRecord`, `RunStore.runChain`, `RunStore.openProcessRun`,
  `RunStore.openInProcessDescendants` — the reads.

Main results:

* `RunStore.runRecord_saveRun`, `RunStore.runRecord_insertRun` — what a write changes;
* `RunStore.mem_treeLevel` — a level of the recursive query is a distance upward;
* `RunStore.mem_openInProcessDescendants` — what the recursive query selects.
-/

import Hekma.Lib.Forest
import Hekma.Domain.Runs.Record

set_option relaxedAutoImplicit false
set_option autoImplicit false

namespace Hekma

namespace Runs

/-- A successful bind of two steps. -/
theorem bind_ok {ε α β : Type} {x : Except ε α} {f : α → Except ε β} {b : β}
    (h : x >>= f = .ok b) : ∃ a, x = .ok a ∧ f a = .ok b := by
  cases x with
  | error e => exact absurd h (by simp [bind, Except.bind])
  | ok a => exact ⟨a, rfl, h⟩

/-- A step whose error was renamed succeeded as such. -/
theorem mapError_ok {ε δ α : Type} {x : Except ε α} {f : ε → δ} {a : α}
    (h : x.mapError f = .ok a) : x = .ok a := by
  cases x with
  | error e => exact absurd h (by simp [Except.mapError])
  | ok b => exact congrArg Except.ok (Except.ok.inj h)

end Runs

/-- Why a store operation failed. -/
inductive StoreError where
  | notFound (name : String)
  | constraint
  deriving DecidableEq, Repr

/-- Which resource a stored ceiling bounds. -/
inductive LimitDimension where
  | tokens
  | dollars
  deriving DecidableEq, Repr

/-- A row of the ceilings table. -/
structure LimitRow where
  runId : RunId
  dimension : LimitDimension
  limitValue : ℤ
  action : BreachAction
  deriving DecidableEq, Repr

/-- The Run tables, and the part of the instance tables they read: the registered instances and
the Run id of the last spawn record of each. -/
structure RunStore where
  instances : List InstanceName
  spawnRunId : InstanceName → Option RunId
  runs : List RunRecord
  labels : List (RunId × Label)
  limits : List LimitRow
  identities : List ((String × String) × RunId)

/-- What an insertion writes. -/
structure NewRun where
  record : RunRecord
  labels : List Label
  limits : RunLimits
  identity : Option (String × String)

namespace RunStore

/-- The store before anything was registered. -/
def empty : RunStore := ⟨[], fun _ => none, [], [], [], []⟩

/-! ### Reads -/

/-- The row of a Run. -/
def runRecord (s : RunStore) (id : RunId) : Option RunRecord :=
  s.runs.find? fun r => r.runId = id

/-- The labels of a Run, by key. -/
def runLabels (s : RunStore) (id : RunId) : List Label :=
  ((s.labels.filter fun l => l.1 = id).map Prod.snd).insertionSort fun a b => a.key ≤ b.key

/-- The ceilings of a Run.  The action is read off the rows, so a Run without a ceiling has none. -/
def runLimits (s : RunStore) (id : RunId) : RunLimits :=
  (s.limits.filter fun l => l.runId = id).foldl
    (fun acc row =>
      let acc := { acc with breachAction := some row.action }
      match row.dimension with
      | .tokens => { acc with tokenPerRun := some row.limitValue.toNat }
      | .dollars => { acc with dollarPerRunMicros := some (Micros.clamp (max row.limitValue 0)) })
    RunLimits.empty

/-- The walk from a Run upward, one row at a time; `fuel` is the length at which it is cut. -/
def runChainF (s : RunStore) : ℕ → RunId → List RunRecord
  | 0, _ => []
  | fuel + 1, id =>
      match s.runRecord id with
      | none => []
      | some record =>
          record :: match record.parentRunId with
            | none => []
            | some parent => runChainF s fuel parent

/-- The chain of a Run, cut at twice the nesting bound. -/
def runChain (s : RunStore) (id : RunId) : List RunRecord := s.runChainF (2 * maxRunNesting) id

/-- The Run owns the process of `name` and has not ended. -/
def isOpenOwnerOf (name : InstanceName) (r : RunRecord) : Bool :=
  r.processOwner && !r.isEnded && r.instanceName = some name

/-- The open process-owning Run of an instance. -/
def openProcessRun (s : RunStore) (name : InstanceName) : Option RunRecord :=
  s.runs.find? (isOpenOwnerOf name)

/-- The rows at distance `d` below a Run, one level of the recursive query. -/
def treeLevel (s : RunStore) (id : RunId) : ℕ → List RunId
  | 0 => [id]
  | d + 1 =>
      (s.runs.filter fun r => r.parentRunId.any fun p => p ∈ treeLevel s id d).map RunRecord.runId

/-- The open Runs below a Run that share its process, oldest first. -/
def openInProcessDescendants (s : RunStore) (id : RunId) : List RunRecord :=
  (s.runs.filter fun r =>
    ((List.range 16).any fun d => r.runId ∈ s.treeLevel id (d + 1)) && !r.isEnded &&
      !r.processOwner && r.instanceName.isSome &&
      r.instanceName = (s.runRecord id).bind RunRecord.instanceName).insertionSort
    fun a b => a.createdAt < b.createdAt ∨ a.createdAt = b.createdAt ∧ a.runId ≤ b.runId

/-- The Run an external identity was bound to. -/
def identityRun (s : RunStore) (key : String × String) : Option RunId :=
  (s.identities.find? fun e => e.1 = key).map Prod.snd

/-! ### Writes -/

/-- Another Run already owns the process of the instance of this open owner. -/
def ownerConflict (s : RunStore) (r : RunRecord) : Bool :=
  r.processOwner && !r.isEnded && r.instanceName.isSome &&
    s.runs.any fun q =>
      q.runId ≠ r.runId && q.processOwner && !q.isEnded && q.instanceName = r.instanceName

/-- The ceiling rows of an insertion. -/
def limitRows (run : NewRun) : List LimitRow :=
  (run.limits.tokenPerRun.toList.map fun t =>
    ⟨run.record.runId, .tokens, min (t : ℤ) i64Max, run.limits.action⟩) ++
  (run.limits.dollarPerRunMicros.toList.map fun m =>
    ⟨run.record.runId, .dollars, m.val, run.limits.action⟩)

/-- The foreign keys, the primary keys and the open-owner index an insertion must meet. -/
def insertable (s : RunStore) (run : NewRun) : Bool :=
  (s.runRecord run.record.runId).isNone &&
    (run.record.parentRunId.all fun p => (s.runRecord p).isSome) &&
    !s.ownerConflict run.record &&
    decide (run.labels.map Label.key).Nodup &&
    run.identity.all fun key => (s.identityRun key).isNone

/-- Insert a Run with its labels, ceilings and identity. -/
def insertRun (s : RunStore) (run : NewRun) : Except StoreError RunStore :=
  if run.record.instanceName.all fun name => name ∈ s.instances then
    if s.insertable run then
      .ok { s with
        runs := s.runs ++ [{ run.record with anomalies := Anomaly.normalize run.record.anomalies }]
        labels := s.labels ++ run.labels.map fun l => (run.record.runId, l)
        limits := s.limits ++ limitRows run
        identities := s.identities ++ run.identity.toList.map fun key => (key, run.record.runId) }
    else .error .constraint
  else .error (.notFound (run.record.instanceName.getD ""))

/-- The row of a Run id that was breached before it had one. -/
def placeholderRecord (id : RunId) (name : InstanceName) (at_ : Timestamp) : RunRecord where
  runId := id
  controlDepth := .supervised
  wirePath := false
  status := .ended
  anomalies := []
  parentRunId := none
  instanceName := some name
  processOwner := true
  endCause := some "unregistered"
  createdAt := at_
  updatedAt := at_
  endedAt := some at_

/-- Give a Run id a row, unless it has one.  The instance is registered whenever this is asked. -/
def ensureRunRow (s : RunStore) (id : RunId) (name : InstanceName) (at_ : Timestamp) : RunStore :=
  match s.insertRun ⟨placeholderRecord id name at_, [], RunLimits.empty, none⟩ with
  | .ok s' => s'
  | .error _ => s

/-- The columns an update writes. -/
def overwrite (record old : RunRecord) : RunRecord :=
  { old with
    controlDepth := record.controlDepth
    wirePath := record.wirePath
    status := record.status
    anomalies := Anomaly.normalize record.anomalies
    endCause := record.endCause
    updatedAt := record.updatedAt
    endedAt := record.endedAt }

/-- Update the row of a Run. -/
def saveRun (s : RunStore) (record : RunRecord) : Except StoreError RunStore :=
  match s.runRecord record.runId with
  | none => .error (.notFound "run")
  | some old =>
      if s.ownerConflict (overwrite record old) then .error .constraint
      else
        .ok { s with
          runs := s.runs.map fun r => if r.runId = record.runId then overwrite record r else r }

/-- Replace the labels of one source.  A key set at the other source is taken over. -/
def replaceLabels (s : RunStore) (id : RunId) (source : LabelSource) (labels : List Label) :
    RunStore :=
  let kept := s.labels.filter fun l => !(l.1 = id && l.2.source = source)
  { s with
    labels := labels.foldl
      (fun rows l =>
        rows.filter (fun row => !(row.1 = id && row.2.key = l.key)) ++
          [(id, { l with source := source })])
      kept }

/-! ### What a write changes -/

variable {s s' : RunStore} {record old r : RunRecord} {run : NewRun} {id p : RunId}

/-- A label takes the place of the one that has its key. -/
def putLabel (id : RunId) (source : LabelSource) (rows : List (RunId × Label)) (l : Label) :
    List (RunId × Label) :=
  rows.filter (fun row => !(row.1 = id && row.2.key = l.key)) ++ [(id, { l with source := source })]

/-- The labels of one Run leave those of every other Run alone. -/
theorem putLabel_others {source : LabelSource} {other : RunId} (h : other ≠ id)
    (rows : List (RunId × Label)) (l : Label) :
    ((putLabel id source rows l).filter fun row => row.1 = other) =
      rows.filter fun row => row.1 = other := by
  have hnew : [((id, { l with source := source }) : RunId × Label)].filter
      (fun row => row.1 = other) = [] := by
    simp [Ne.symm h]
  rw [putLabel, List.filter_append, List.filter_filter, hnew, List.append_nil]
  refine List.filter_congr fun row _ => ?_
  by_cases hrow : row.1 = other
  · simp [hrow, h]
  · simp [hrow]

/-- What the labels of the other source have, and each new label keeps, holds of the table after
they are replaced. -/
theorem replaceLabels_keeps {source : LabelSource} {motive : List (RunId × Label) → Prop}
    (labels : List Label)
    (hkept : motive (s.labels.filter fun l => !(l.1 = id && l.2.source = source)))
    (hput : ∀ rows l, motive rows → motive (putLabel id source rows l)) :
    motive (s.replaceLabels id source labels).labels :=
  List.foldlRecOn labels (putLabel id source) hkept fun rows h l _ => hput rows l h

/-- The parent of a Run, the forest the tables hold. -/
def parentOf (s : RunStore) (id : RunId) : Option RunId :=
  (s.runRecord id).bind RunRecord.parentRunId

@[simp] theorem overwrite_runId : (overwrite record old).runId = old.runId := rfl

@[simp] theorem overwrite_parent : (overwrite record old).parentRunId = old.parentRunId := rfl

@[simp] theorem overwrite_instance : (overwrite record old).instanceName = old.instanceName := rfl

@[simp] theorem overwrite_owner : (overwrite record old).processOwner = old.processOwner := rfl

@[simp] theorem overwrite_status : (overwrite record old).status = record.status := rfl

@[simp] theorem overwrite_endedAt : (overwrite record old).endedAt = record.endedAt := rfl

@[simp] theorem overwrite_endCause : (overwrite record old).endCause = record.endCause := rfl

theorem runId_of_runRecord (h : s.runRecord id = some r) : r.runId = id := by
  simpa using List.find?_some h

theorem mem_of_runRecord (h : s.runRecord id = some r) : r ∈ s.runs := List.mem_of_find?_eq_some h

/-- A successful update found the row, met the open-owner index and rewrote that row only. -/
theorem saveRun_ok (h : s.saveRun record = .ok s') :
    ∃ old, s.runRecord record.runId = some old ∧ ¬ s.ownerConflict (overwrite record old) = true ∧
      s' = { s with
        runs := s.runs.map fun r => if r.runId = record.runId then overwrite record r else r } := by
  unfold saveRun at h
  split at h
  · exact absurd h (by simp)
  · rename_i old hold
    split at h
    · exact absurd h (by simp)
    · rename_i hconf
      exact ⟨old, hold, hconf, (Except.ok.inj h).symm⟩

/-- The rows after an update. -/
theorem runRecord_saveRun (h : s.saveRun record = .ok s') (id : RunId) :
    s'.runRecord id =
      (s.runRecord id).map fun r => if r.runId = record.runId then overwrite record r else r := by
  obtain ⟨old, -, -, rfl⟩ := saveRun_ok h
  simp only [runRecord, List.find?_map]
  congr 1
  congr 1
  funext r
  by_cases hr : r.runId = record.runId <;> simp [hr]

theorem runRecord_saveRun_self (h : s.saveRun record = .ok s')
    (hold : s.runRecord record.runId = some old) :
    s'.runRecord record.runId = some (overwrite record old) := by
  rw [runRecord_saveRun h, hold, Option.map_some, if_pos (runId_of_runRecord hold)]

theorem runRecord_saveRun_of_ne (h : s.saveRun record = .ok s') (hne : id ≠ record.runId) :
    s'.runRecord id = s.runRecord id := by
  rw [runRecord_saveRun h]
  cases hr : s.runRecord id with
  | none => rfl
  | some r => rw [Option.map_some, if_neg (by rw [runId_of_runRecord hr]; exact hne)]

/-- A successful insertion met the keys and appended one row. -/
theorem insertRun_ok (h : s.insertRun run = .ok s') :
    s.insertable run = true ∧ s'.instances = s.instances ∧ s'.spawnRunId = s.spawnRunId ∧
      s'.runs = s.runs ++
        [{ run.record with anomalies := Anomaly.normalize run.record.anomalies }] := by
  unfold insertRun at h
  split at h
  · split at h
    · rename_i hins
      obtain rfl := Except.ok.inj h
      exact ⟨hins, rfl, rfl, rfl⟩
    · exact absurd h (by simp)
  · exact absurd h (by simp)

theorem insertRun_fresh (h : s.insertRun run = .ok s') : s.runRecord run.record.runId = none := by
  have hins := (insertRun_ok h).1
  simp only [insertable, Bool.and_eq_true, Option.isNone_iff_eq_none] at hins
  exact hins.1.1.1.1

/-- The tables after an insertion, beside the rows. -/
theorem insertRun_tables (h : s.insertRun run = .ok s') :
    s'.labels = s.labels ++ run.labels.map (fun l => (run.record.runId, l)) ∧
      s'.limits = s.limits ++ limitRows run ∧
      s'.identities = s.identities ++ run.identity.toList.map fun key => (key, run.record.runId) := by
  unfold insertRun at h
  split at h
  · split at h
    · rw [← Except.ok.inj h]
      exact ⟨rfl, rfl, rfl⟩
    · exact absurd h (by simp)
  · exact absurd h (by simp)

theorem insertRun_parent (h : s.insertRun run = .ok s') (hp : run.record.parentRunId = some p) :
    ∃ r, s.runRecord p = some r := by
  have hins := (insertRun_ok h).1
  simp only [insertable, Bool.and_eq_true, hp, Option.all_some, Option.isSome_iff_exists] at hins
  exact hins.1.1.1.2

theorem insertRun_noConflict (h : s.insertRun run = .ok s') :
    ¬ s.ownerConflict run.record = true := by
  have hins := (insertRun_ok h).1
  simp only [insertable, Bool.and_eq_true, Bool.not_eq_true'] at hins
  simpa using hins.1.1.2

/-- The rows after an insertion. -/
theorem runRecord_insertRun (h : s.insertRun run = .ok s') (id : RunId) :
    s'.runRecord id =
      if id = run.record.runId then
        some { run.record with anomalies := Anomaly.normalize run.record.anomalies }
      else s.runRecord id := by
  have hfresh := insertRun_fresh h
  simp only [runRecord, (insertRun_ok h).2.2.2, List.find?_append]
  by_cases hid : id = run.record.runId
  · subst hid
    rw [if_pos rfl, show s.runs.find? _ = none from hfresh]
    simp
  · rw [if_neg hid]
    cases s.runs.find? fun r => decide (r.runId = id) with
    | some r => rfl
    | none => simp [Ne.symm hid]

/-! ### The recursive query -/

/-- The primary key of the table: a row is the one its id finds. -/
def KeyUnique (s : RunStore) : Prop := (s.runs.map RunRecord.runId).Nodup

theorem KeyUnique.runRecord (h : s.KeyUnique) (hr : r ∈ s.runs) :
    s.runRecord r.runId = some r := by
  cases hf : s.runRecord r.runId with
  | none => exact absurd (List.find?_eq_none.1 hf r hr) (by simp)
  | some q =>
      rw [List.inj_on_of_nodup_map h (mem_of_runRecord hf) hr (runId_of_runRecord hf)]

theorem KeyUnique.saveRun (h : s.KeyUnique) (hs : s.saveRun record = .ok s') : s'.KeyUnique := by
  obtain ⟨old, -, -, rfl⟩ := saveRun_ok hs
  unfold KeyUnique
  rw [List.map_map]
  have hcomp : RunRecord.runId ∘ (fun r => if r.runId = record.runId then overwrite record r else r)
      = RunRecord.runId := by
    funext r
    simp only [Function.comp_apply]
    split <;> rfl
  rw [hcomp]
  exact h

theorem KeyUnique.insertRun (h : s.KeyUnique) (hs : s.insertRun run = .ok s') : s'.KeyUnique := by
  unfold KeyUnique
  rw [(insertRun_ok hs).2.2.2, List.map_append]
  refine List.Nodup.append h (by simp) ?_
  intro id hid hnew
  obtain ⟨r, hr, rfl⟩ := List.mem_map.1 hid
  have hfresh := insertRun_fresh hs
  simp only [List.map_cons, List.map_nil, List.mem_singleton] at hnew
  rw [← hnew, h.runRecord hr] at hfresh
  exact absurd hfresh (by simp)

/-- A level of the recursive query holds the rows at that distance below. -/
theorem mem_treeLevel (h : s.KeyUnique) (d : ℕ) {x : RunId} :
    x ∈ s.treeLevel id (d + 1) ↔ Forest.up s.parentOf (d + 1) x = some id := by
  induction d generalizing x with
  | zero =>
      simp only [treeLevel, List.mem_map, List.mem_filter, Option.any_eq_true,
        List.mem_singleton, decide_eq_true_eq, Nat.zero_add]
      constructor
      · rintro ⟨r, ⟨hr, p, hp, rfl⟩, rfl⟩
        rw [Forest.up_succ_of_parent (by rw [parentOf, h.runRecord hr, Option.bind_some, hp])]
        rfl
      · intro hx
        rw [Forest.up_succ', Forest.up_zero, Option.bind_some] at hx
        obtain ⟨r, hr, hp⟩ := Option.bind_eq_some_iff.1 hx
        exact ⟨r, ⟨mem_of_runRecord hr, id, hp, rfl⟩, runId_of_runRecord hr⟩
  | succ d ih =>
      rw [treeLevel, Forest.up_succ]
      simp only [List.mem_map, List.mem_filter, Option.any_eq_true, decide_eq_true_eq, ih]
      constructor
      · rintro ⟨r, ⟨hr, p, hp, hup⟩, rfl⟩
        rw [parentOf, h.runRecord hr, Option.bind_some, hp, Option.bind_some]
        exact hup
      · intro hx
        obtain ⟨p, hp, hup⟩ := Option.bind_eq_some_iff.1 hx
        obtain ⟨r, hr, hrp⟩ := Option.bind_eq_some_iff.1 hp
        exact ⟨r, ⟨mem_of_runRecord hr, p, hrp, hup⟩, runId_of_runRecord hr⟩

/-- What the recursive query selects: the open Runs of the same instance at most 16 levels below
that do not own a process. -/
theorem mem_openInProcessDescendants (h : s.KeyUnique) :
    r ∈ s.openInProcessDescendants id ↔
      r ∈ s.runs ∧ (∃ d < 16, Forest.up s.parentOf (d + 1) r.runId = some id) ∧
        r.status ≠ .ended ∧ r.processOwner = false ∧ r.instanceName.isSome ∧
        r.instanceName = (s.runRecord id).bind RunRecord.instanceName := by
  simp only [openInProcessDescendants, List.mem_insertionSort, List.mem_filter, Bool.and_eq_true,
    List.any_eq_true, List.mem_range, decide_eq_true_eq, mem_treeLevel h, RunRecord.isEnded,
    Bool.not_eq_true', decide_eq_false_iff_not, and_assoc]

theorem openInProcessDescendants_nodup (h : s.KeyUnique) (id : RunId) :
    ((s.openInProcessDescendants id).map RunRecord.runId).Nodup := by
  have hperm := List.perm_insertionSort (fun a b : RunRecord =>
    a.createdAt < b.createdAt ∨ a.createdAt = b.createdAt ∧ a.runId ≤ b.runId)
    (s.runs.filter fun r =>
      ((List.range 16).any fun d => r.runId ∈ s.treeLevel id (d + 1)) && !r.isEnded &&
        !r.processOwner && r.instanceName.isSome &&
        r.instanceName = (s.runRecord id).bind RunRecord.instanceName)
  exact ((hperm.map RunRecord.runId).nodup_iff).2
    (h.sublist (List.Sublist.map _ List.filter_sublist))

end RunStore

end Hekma
