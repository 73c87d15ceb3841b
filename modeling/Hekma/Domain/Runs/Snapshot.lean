/-
**The published Run snapshot** (`domain/runs/snapshot.rs`, `domain/runs/ops.rs`).

The data path reads an index of the Runs that have not ended.  It is built when the engine opens its
store, and from then on every job that changes a Run publishes the entries it collected, once it has
committed.  The rows of a Run are also deleted with their instance, by a cascade in the store that
collects no entry; and the projection of a transition hands its entries over before its own
savepoint is released.

Main definitions:

* `RunSnapshot`, `RunSnapshot.publish` — the index;
* `RunOp.entries`, `deleteInstance`, `projectInSavepoint`, `markBreaches` — the jobs, and what they
  hand over;
* `RunRegistry`, `RunRegistry.step` — the store with its index;
* `RunStore.openView`, `RunRegistry.Agrees` — the open Runs of the store, and that the index shows
  them.

Main results:

* `noted_conduct` — an operation collects an entry for every Run it changes;
* `agrees_step` — a step that meets `Publishes` keeps the agreement;
* `agrees_remove_iff` — a deletion keeps it exactly when the instance has no open Run;
* `snapshot_agrees` — the index shows the open Runs in every state of a run whose steps meet it;
* `evaluate_usage` — what an evaluation of the budgets does to the Run tables.
-/

import Hekma.Domain.Pipeline
import Hekma.Domain.Runs.Jobs
import Hekma.Lib.Guarded

set_option relaxedAutoImplicit false
set_option autoImplicit false

namespace Hekma

/-! ### The index -/

/-- An index of the Runs that have not ended: every one by its id, and the open process-owning Run of
each instance. -/
structure RunSnapshot where
  generation : ℕ
  runs : RunId → Option RunEntry
  owners : InstanceName → Option RunId

namespace RunSnapshot

/-- The index before anything was published. -/
def empty : RunSnapshot := ⟨0, fun _ => none, fun _ => none⟩

/-- Apply one change: an ended Run leaves the index, any other one replaces its entry. -/
def apply (s : RunSnapshot) (entry : RunEntry) : RunSnapshot :=
  let id := entry.record.runId
  let owner := if entry.record.processOwner then entry.record.instanceName else none
  if entry.record.isEnded then
    { s with
      runs := Function.update s.runs id none
      owners := match owner with
        | some name =>
            if s.owners name = some id then Function.update s.owners name none else s.owners
        | none => s.owners }
  else
    { s with
      owners := match owner with
        | some name => Function.update s.owners name (some id)
        | none => s.owners
      runs := Function.update s.runs id (some entry) }

/-- The next index. -/
def withChanges (s : RunSnapshot) (changes : List RunEntry) : RunSnapshot :=
  changes.foldl apply { s with generation := (s.generation + 1) % 2 ^ 64 }

/-- Publish the changes of a job. -/
def publish (s : RunSnapshot) (changes : List RunEntry) : RunSnapshot :=
  if changes.isEmpty then s else s.withChanges changes

end RunSnapshot

namespace Runs

/-! ### What the jobs hand over -/

/-- Every Run that has not ended, as the initial publication has it. -/
def openEntries (s : RunStore) : List RunEntry :=
  (s.runs.filter fun r => !r.isEnded).map fun r => ⟨r, s.runLabels r.runId, s.runLimits r.runId⟩

/-- The entries of a job; one that was rolled back has none. -/
def jobEntries {ε : Type} : Except ε Job → List RunEntry
  | .ok job => job.2.entries
  | .error _ => []

/-- The entries an operation of the registry hands over. -/
def RunOp.entries (s : RunStore) (at_ : Timestamp) : RunOp → List RunEntry
  | .launch name restart minted wirePath labels =>
      let run := launchRun s name restart minted wirePath labels
      jobEntries (Runs.ensureSupervised (setSpawnRunId s name run.runId) run at_)
  | .adopt name wirePath labels =>
      match s.spawnRunId name with
      | none => []
      | some id => jobEntries (Runs.ensureSupervised s ⟨name, id, wirePath, labels, false⟩ at_)
  | .transition name newState fate cause =>
      jobEntries (Runs.projectTransition s name newState fate cause at_)
  | .openChild request minted => jobEntries ((Runs.openChild s request minted at_).map Prod.snd)
  | .close id => jobEntries (Runs.close s id at_)
  | .syncDepth id depth wirePath =>
      match s.runRecord id with
      | none => []
      | some record => jobEntries (Runs.syncDepth (s, RunChanges.empty) record depth wirePath at_)
  | .syncBoundLabels id labels =>
      jobEntries (Runs.syncBoundLabels (s, RunChanges.empty) id labels at_)
  | .markBreach id => jobEntries (Runs.markBreach s id at_)
  | .endRunsWithoutAProcess state => jobEntries (Runs.endRunsWithoutAProcess s state at_)
  | .register _ | .settle _ | .ensureRunRow _ _ => []

/-- What goes wrong in the savepoint of a projection: one of its statements fails, or its release
does. -/
inductive ProjectionFault where
  | statement
  | release
  deriving DecidableEq, Repr

/-- The projection of a transition in a savepoint of its own.  Its failure never fails the
transition.  The entries are handed over before the savepoint is released. -/
def projectInSavepoint (s : RunStore) (name : InstanceName) (newState : LifecycleState)
    (fate : RunFate) (cause : String) (at_ : Timestamp) (fault : Option ProjectionFault) :
    RunStore × List RunEntry :=
  match Runs.projectTransition s name newState fate cause at_ with
  | .error _ => (s, [])
  | .ok job =>
      match fault with
      | none => (job.1, job.2.entries)
      | some .statement => (s, [])
      | some .release => (s, job.2.entries)

/-- The marks of an evaluation, for the Runs it found in breach. -/
def markBreaches (s : RunStore) (ids : List RunId) (at_ : Timestamp) : Except StoreError Job :=
  ids.foldlM
    (fun job id => (markBreach job.1 id at_).map fun marked =>
      (marked.1, ⟨job.2.events ++ marked.2.events, job.2.entries ++ marked.2.entries⟩))
    (s, RunChanges.empty)

/-- The Runs of an instance. -/
def runsOf (s : RunStore) (name : InstanceName) : List RunId :=
  (s.runs.filter fun r => r.instanceName = some name).map RunRecord.runId

/-- A row after the deletion of some Runs: it keeps no parent among them. -/
def orphaned (gone : List RunId) (r : RunRecord) : RunRecord :=
  if r.parentRunId.any (· ∈ gone) then { r with parentRunId := none } else r

/-- Delete an instance.  The store deletes its Runs with it, and what belongs to them. -/
def deleteInstance (s : RunStore) (name : InstanceName) : Except StoreError RunStore :=
  if name ∈ s.instances then
    .ok
      { instances := s.instances.filter (· ≠ name)
        spawnRunId := Function.update s.spawnRunId name none
        runs := (s.runs.filter fun r => r.instanceName ≠ some name).map (orphaned (runsOf s name))
        labels := s.labels.filter fun l => l.1 ∉ runsOf s name
        limits := s.limits.filter fun l => l.runId ∉ runsOf s name
        identities := s.identities.filter fun e => e.2 ∉ runsOf s name }
  else .error (.notFound name)

end Runs

open Runs

/-- The Run tables and the published index. -/
structure RunRegistry where
  runs : RunStore
  snapshot : RunSnapshot

namespace RunRegistry

/-- What happens to the tables.  A job that does not commit is answered with an error. -/
inductive Op where
  | job (op : RunOp) (at_ : Timestamp) (committed : Bool)
  | transition (name : InstanceName) (newState : LifecycleState) (fate : RunFate) (cause : String)
      (at_ : Timestamp) (fault : Option ProjectionFault) (committed : Bool)
  | usage (placeholder : Option (RunId × InstanceName)) (breached : List RunId) (at_ : Timestamp)
      (committed : Bool)
  | remove (name : InstanceName) (committed : Bool)
  | reopen

/-- A new state directory. -/
def empty : RunRegistry := ⟨RunStore.empty, RunSnapshot.empty⟩

/-- The end of a job: the index is published once the job has committed. -/
def finish (r : RunRegistry) (committed : Bool) (runs : RunStore) (entries : List RunEntry) :
    RunRegistry :=
  if committed then ⟨runs, r.snapshot.publish entries⟩ else r

/-- The row an evaluation gives to a Run id without one. -/
def withPlaceholder (s : RunStore) (at_ : Timestamp) : Option (RunId × InstanceName) → RunStore
  | none => s
  | some (id, name) => s.ensureRunRow id name at_

/-- One step of the registry. -/
def step (r : RunRegistry) : Op → RunRegistry
  | .job op at_ committed =>
      r.finish committed (op.apply r.runs at_) (op.entries r.runs at_)
  | .transition name newState fate cause at_ fault committed =>
      let x := projectInSavepoint r.runs name newState fate cause at_ fault
      r.finish committed x.1 x.2
  | .usage placeholder breached at_ committed =>
      match markBreaches (withPlaceholder r.runs at_ placeholder) breached at_ with
      | .error _ => r
      | .ok job => r.finish committed job.1 job.2.entries
  | .remove name committed =>
      match deleteInstance r.runs name with
      | .error _ => r
      | .ok runs => r.finish committed runs []
  | .reopen => ⟨r.runs, RunSnapshot.empty.publish (openEntries r.runs)⟩

end RunRegistry

/-! ### What the index shows -/

/-- What a reader sees of a Run.  Its anomalies are a set. -/
structure ShownRun where
  status : RunStatus
  depth : ControlDepth
  wirePath : Bool
  anomalies : List Anomaly
  labels : List Label
  limits : RunLimits
  deriving DecidableEq

/-- What an entry shows. -/
def RunEntry.shown (e : RunEntry) : ShownRun :=
  ⟨e.record.status, e.record.controlDepth, e.record.wirePath, Anomaly.normalize e.record.anomalies,
    e.labels, e.limits⟩

/-- The open Runs of the store, as a reader should see them. -/
def RunStore.openView (s : RunStore) (id : RunId) : Option ShownRun :=
  (s.runRecord id).bind fun r =>
    if r.isEnded then none else some (RunEntry.shown ⟨r, s.runLabels id, s.runLimits id⟩)

/-- The Runs of the index, as a reader sees them. -/
def RunSnapshot.view (s : RunSnapshot) (id : RunId) : Option ShownRun :=
  (s.runs id).map RunEntry.shown

/-- The index shows exactly the open Runs of the store. -/
def RunRegistry.Agrees (r : RunRegistry) : Prop := r.snapshot.view = r.runs.openView

/-- A view after one change. -/
def show_ (view : RunId → Option ShownRun) (e : RunEntry) : RunId → Option ShownRun :=
  Function.update view e.record.runId (if e.record.isEnded then none else some e.shown)

/-- The entry of an ended Run changes nothing for a Run that is not shown. -/
theorem show_ended {view : RunId → Option ShownRun} {e : RunEntry} (he : e.record.isEnded = true)
    (hview : view e.record.runId = none) : show_ view e = view := by
  unfold show_
  rw [if_pos he, ← hview, Function.update_eq_self]

theorem view_apply (s : RunSnapshot) (e : RunEntry) : (s.apply e).view = show_ s.view e := by
  funext id
  unfold RunSnapshot.apply show_ RunSnapshot.view
  by_cases he : e.record.isEnded = true
  · rw [if_pos he, if_pos he]
    by_cases hid : id = e.record.runId
    · subst hid
      simp
    · simp [Function.update_of_ne hid]
  · rw [if_neg he, if_neg he]
    by_cases hid : id = e.record.runId
    · subst hid
      simp
    · simp [Function.update_of_ne hid]

theorem view_publish (s : RunSnapshot) (es : List RunEntry) :
    (s.publish es).view = es.foldl show_ s.view := by
  have hfold : ∀ (es : List RunEntry) (s : RunSnapshot),
      (es.foldl RunSnapshot.apply s).view = es.foldl show_ s.view := by
    intro es
    induction es with
    | nil => intro s; rfl
    | cons e es ih =>
        intro s
        rw [List.foldl_cons, List.foldl_cons, ih, view_apply]
  unfold RunSnapshot.publish
  split
  · rename_i hnil
    rw [List.isEmpty_iff.mp hnil]
    rfl
  · exact hfold es _

namespace Runs

variable {s s' : RunStore} {job job' : Job} {record r : RunRecord} {id : RunId}
  {status : RunStatus} {at_ : Timestamp}

/-- The tables as they are kept: the ids are unique and the anomalies are stored as sets. -/
structure Stored (s : RunStore) : Prop where
  keys : s.KeyUnique
  sets : ∀ r ∈ s.runs, Anomaly.normalize r.anomalies = r.anomalies

/-- An operation has collected an entry for every Run it has changed. -/
structure Noted (job job' : Job) : Prop where
  entries : ∃ es, job'.2.entries = job.2.entries ++ es ∧
    es.foldl show_ job.1.openView = job'.1.openView
  stored : Stored job.1 → Stored job'.1

theorem Noted.refl : Noted job job := ⟨⟨[], (List.append_nil _).symm, rfl⟩, id⟩

theorem Noted.trans {job'' : Job} (h : Noted job job') (h' : Noted job' job'') :
    Noted job job'' := by
  obtain ⟨es, he, hv⟩ := h.entries
  obtain ⟨es', he', hv'⟩ := h'.entries
  refine ⟨⟨es ++ es', by rw [he', he, List.append_assoc], ?_⟩, h'.stored ∘ h.stored⟩
  rw [List.foldl_append, hv, hv']

theorem Stored.saveRun (h : Stored s) (hs : s.saveRun record = .ok s') : Stored s' := by
  refine ⟨h.keys.saveRun hs, ?_⟩
  obtain ⟨old, -, -, rfl⟩ := RunStore.saveRun_ok hs
  intro r hr
  obtain ⟨q, hq, rfl⟩ := List.mem_map.mp hr
  split
  · exact Anomaly.normalize_normalize _
  · exact h.sets q hq

theorem Stored.insertRun {run : NewRun} (h : Stored s) (hs : s.insertRun run = .ok s') :
    Stored s' := by
  refine ⟨h.keys.insertRun hs, ?_⟩
  rw [(RunStore.insertRun_ok hs).2.2.2]
  intro r hr
  rcases List.mem_append.mp hr with hr | hr
  · exact h.sets r hr
  · rw [List.mem_singleton.mp hr]
    exact Anomaly.normalize_normalize _

theorem openView_of_none (h : s.runRecord id = none) : s.openView id = none := by
  rw [RunStore.openView, h]
  rfl

theorem openView_of_some (h : s.runRecord id = some r) :
    s.openView id =
      if r.isEnded then none else some (RunEntry.shown ⟨r, s.runLabels id, s.runLimits id⟩) := by
  rw [RunStore.openView, h]
  rfl

/-- A row that is saved is shown as its entry shows it. -/
theorem openView_saveRun (hs : s.saveRun record = .ok s') :
    s'.openView = show_ s.openView
      ⟨record, s'.runLabels record.runId, s'.runLimits record.runId⟩ := by
  funext id
  obtain ⟨old, hold, -, heq⟩ := RunStore.saveRun_ok hs
  have hlabels : s'.runLabels = s.runLabels := by rw [heq]; rfl
  have hlimits : s'.runLimits = s.runLimits := by rw [heq]; rfl
  unfold show_ RunStore.openView
  by_cases hid : id = record.runId
  · subst hid
    rw [RunStore.runRecord_saveRun_self hs hold, Option.bind_some, Function.update_self]
    have hended : (RunStore.overwrite record old).isEnded = record.isEnded := rfl
    rw [hended]
    refine if_congr Iff.rfl rfl (congrArg some ?_)
    simp only [RunEntry.shown, RunStore.overwrite, Anomaly.normalize_normalize]
  · rw [RunStore.runRecord_saveRun_of_ne hs hid, Function.update_of_ne hid, hlabels, hlimits]

/-- Saving a row and collecting its entry. -/
theorem note_noted {kind : RunEventKind} {prior : Prior} {cause : Option String}
    (hs : job.1.saveRun record = .ok s') :
    Noted job (s', note s' job.2 record kind prior cause) :=
  ⟨⟨[_], rfl, (openView_saveRun hs).symm⟩, fun h => h.saveRun hs⟩

/-- The labels of one Run leave those of every other Run alone. -/
theorem runLabels_replaceLabels {source : LabelSource} {labels : List Label} {other : RunId}
    (h : other ≠ id) : (s.replaceLabels id source labels).runLabels other = s.runLabels other := by
  have hsame : ((s.replaceLabels id source labels).labels.filter fun l => l.1 = other) =
      s.labels.filter fun l => l.1 = other := by
    refine RunStore.replaceLabels_keeps (motive := fun rows =>
      (rows.filter fun l => l.1 = other) = s.labels.filter fun l => l.1 = other) labels ?_ ?_
    · rw [List.filter_filter]
      refine List.filter_congr fun row _ => ?_
      by_cases hrow : row.1 = other
      · simp [hrow, h]
      · simp [hrow]
    · intro rows l hrows
      rw [RunStore.putLabel_others h]
      exact hrows
  rw [RunStore.runLabels, RunStore.runLabels, hsame]

/-- An insertion leaves the labels and the ceilings of the other Runs alone. -/
theorem insertRun_others {run : NewRun} (hs : s.insertRun run = .ok s')
    (hid : id ≠ run.record.runId) :
    s'.runLabels id = s.runLabels id ∧ s'.runLimits id = s.runLimits id := by
  unfold RunStore.insertRun at hs
  split at hs
  · split at hs
    · obtain rfl := Except.ok.inj hs
      have hlabels : (run.labels.map fun l => (run.record.runId, l)).filter
          (fun l => l.1 = id) = [] := by
        simp [List.filter_eq_nil_iff, Ne.symm hid]
      have hlimits : (RunStore.limitRows run).filter (fun l => l.runId = id) = [] := by
        rw [List.filter_eq_nil_iff]
        intro l hl
        rcases List.mem_append.mp hl with hl | hl
        · obtain ⟨t, -, rfl⟩ := List.mem_map.mp hl
          simpa using Ne.symm hid
        · obtain ⟨m, -, rfl⟩ := List.mem_map.mp hl
          simpa using Ne.symm hid
      simp only [RunStore.runLabels, RunStore.runLimits, List.filter_append, hlabels, hlimits,
        List.append_nil, and_self]
    · simp at hs
  · simp at hs

/-- A row that is inserted is shown as its entry shows it. -/
theorem openView_insertRun {run : NewRun} (hs : s.insertRun run = .ok s') :
    s'.openView = show_ s.openView
      ⟨run.record, s'.runLabels run.record.runId, s'.runLimits run.record.runId⟩ := by
  funext id
  unfold show_ RunStore.openView
  rw [RunStore.runRecord_insertRun hs]
  by_cases hid : id = run.record.runId
  · subst hid
    rw [if_pos rfl, Option.bind_some, Function.update_self]
    refine if_congr Iff.rfl rfl (congrArg some ?_)
    simp only [RunEntry.shown, Anomaly.normalize_normalize]
  · rw [if_neg hid, Function.update_of_ne hid]
    rw [(insertRun_others hs hid).1, (insertRun_others hs hid).2]

theorem insertRun_noted {run : NewRun} {kind : RunEventKind} {prior : Prior}
    {cause : Option String} (hs : job.1.insertRun run = .ok s') :
    Noted job (s', note s' job.2 run.record kind prior cause) :=
  ⟨⟨[_], rfl, (openView_insertRun hs).symm⟩, fun h => h.insertRun hs⟩

/-- **An operation collects an entry for every Run it changes.** -/
theorem noted_conduct : JobConduct Noted where
  refl _ := .refl
  trans := .trans
  save _ _ _ _ _ _ hs := note_noted hs
  label job record labels _ _ _ _ hs := by
    refine ⟨⟨[_], rfl, ?_⟩, fun hst => ?_⟩
    · refine Eq.trans ?_ (openView_saveRun hs).symm
      change show_ job.1.openView _ = _
      -- the new labels are those of the Run that is saved
      funext other
      unfold show_
      by_cases hother : other = record.runId
      · subst hother
        rw [Function.update_self, Function.update_self]
      · rw [Function.update_of_ne hother, Function.update_of_ne hother]
        unfold RunStore.openView
        rw [runLabels_replaceLabels hother]
        rfl
    · have hlabelled : Stored (job.1.replaceLabels record.runId .bound labels) :=
        ⟨hst.keys, hst.sets⟩
      exact hlabelled.saveRun hs
  insert _ _ _ _ _ _ hs := insertRun_noted hs

theorem markBreaches_noted {ids : List RunId} (h : markBreaches s ids at_ = .ok job) :
    Noted (s, RunChanges.empty) job := by
  refine noted_conduct.foldlM ids ?_ h
  intro id job job' hmark
  cases hm : markBreach job.1 id at_ with
  | error err =>
      rw [hm] at hmark
      simp [Except.map] at hmark
  | ok marked =>
      rw [hm] at hmark
      obtain rfl := Except.ok.inj hmark
      obtain ⟨⟨es, he, hv⟩, hst⟩ := noted_conduct.markBreach hm
      exact ⟨⟨es, congrArg (job.2.entries ++ ·) he, hv⟩, hst⟩

/-! ### Operations -/

/-- The entries `es` lead from the open Runs of `s` to those of `s'`. -/
structure Shows (s s' : RunStore) (es : List RunEntry) : Prop where
  view : es.foldl show_ s.openView = s'.openView
  stored : Stored s → Stored s'

theorem Noted.shows (h : Noted (s, RunChanges.empty) job) : Shows s job.1 job.2.entries := by
  obtain ⟨⟨es, he, hv⟩, hst⟩ := h
  refine ⟨?_, hst⟩
  rw [he]
  exact hv

theorem commitJob_shows {ε : Type} {x : Except ε Job}
    (hok : ∀ job, x = .ok job → Shows s job.1 job.2.entries) :
    Shows s (commitJob s x) (jobEntries x) := by
  cases x with
  | error err => exact ⟨rfl, fun h => h⟩
  | ok job => exact hok job rfl

/-- A spawn record is no part of what is shown. -/
theorem Shows.spawn {name : InstanceName} {run : RunId} {es : List RunEntry}
    (h : Shows (setSpawnRunId s name run) s' es) : Shows s s' es :=
  ⟨h.view, fun hst => h.stored ⟨hst.keys, hst.sets⟩⟩

/-- A placeholder row is an ended one. -/
theorem ensureRunRow_shows {name : InstanceName} :
    Shows s (s.ensureRunRow id name at_) [] := by
  unfold RunStore.ensureRunRow
  cases hins : s.insertRun ⟨RunStore.placeholderRecord id name at_, [], RunLimits.empty, none⟩ with
  | error err => exact ⟨rfl, fun h => h⟩
  | ok s' =>
      refine ⟨?_, fun h => h.insertRun hins⟩
      rw [openView_insertRun hins, List.foldl_nil]
      refine (show_ended rfl ?_).symm
      exact openView_of_none (RunStore.insertRun_fresh hins)

/-- **Every operation of the registry** hands over what it has changed. -/
theorem apply_shows (op : RunOp) (s : RunStore) (at_ : Timestamp) :
    Shows s (op.apply s at_) (op.entries s at_) := by
  cases op with
  | register name => exact ⟨rfl, fun h => ⟨h.keys, h.sets⟩⟩
  | launch name restart minted wirePath labels =>
      exact commitJob_shows fun job hok => ((noted_conduct.ensureSupervised hok).shows).spawn
  | adopt name wirePath labels =>
      simp only [RunOp.apply, RunOp.entries]
      cases s.spawnRunId name with
      | none => exact ⟨rfl, fun h => h⟩
      | some id => exact commitJob_shows fun job hok => (noted_conduct.ensureSupervised hok).shows
  | transition name newState fate cause =>
      exact commitJob_shows fun job hok => (noted_conduct.projectTransition hok).shows
  | openChild request minted =>
      refine commitJob_shows fun job hok => ?_
      cases hc : openChild s request minted at_ with
      | error err =>
          rw [hc] at hok
          simp [Except.map] at hok
      | ok opened =>
          rw [hc] at hok
          obtain rfl := Except.ok.inj hok
          exact (noted_conduct.openChild hc).shows
  | close id => exact commitJob_shows fun job hok => (noted_conduct.close hok).shows
  | syncDepth id depth wirePath =>
      simp only [RunOp.apply, RunOp.entries]
      cases s.runRecord id with
      | none => exact ⟨rfl, fun h => h⟩
      | some record => exact commitJob_shows fun job hok => (noted_conduct.syncDepth hok).shows
  | syncBoundLabels id labels =>
      exact commitJob_shows fun job hok => (noted_conduct.syncBoundLabels hok).shows
  | markBreach id => exact commitJob_shows fun job hok => (noted_conduct.markBreach hok).shows
  | endRunsWithoutAProcess state =>
      exact commitJob_shows fun job hok => (noted_conduct.endRunsWithoutAProcess hok).shows
  | settle name => exact ⟨rfl, fun h => ⟨h.keys, h.sets⟩⟩
  | ensureRunRow id name => exact ensureRunRow_shows

/-! ### The deletion of an instance -/

/-- The Run belongs to the instance. -/
def OfInstance (s : RunStore) (name : InstanceName) (id : RunId) : Prop :=
  ∃ r, s.runRecord id = some r ∧ r.instanceName = some name

/-- The instance has a Run that has not ended. -/
def HasOpenRun (s : RunStore) (name : InstanceName) : Prop :=
  ∃ r ∈ s.runs, r.instanceName = some name ∧ r.status ≠ .ended

theorem mem_runsOf (h : s.KeyUnique) {name : InstanceName} (id : RunId) :
    id ∈ runsOf s name ↔ OfInstance s name id := by
  rw [runsOf, List.mem_map]
  constructor
  · rintro ⟨r, hr, rfl⟩
    obtain ⟨hmem, hname⟩ := List.mem_filter.mp hr
    exact ⟨r, h.runRecord hmem, by simpa using hname⟩
  · rintro ⟨r, hr, hname⟩
    refine ⟨r, List.mem_filter.mpr ⟨RunStore.mem_of_runRecord hr, by simpa using hname⟩, ?_⟩
    exact RunStore.runId_of_runRecord hr

@[simp] theorem orphaned_runId (gone : List RunId) (r : RunRecord) :
    (orphaned gone r).runId = r.runId := by
  unfold orphaned
  split <;> rfl

/-- Without its parent a Run shows the same. -/
theorem orphaned_shown (gone : List RunId) (r : RunRecord) (labels : List Label)
    (limits : RunLimits) :
    (orphaned gone r).isEnded = r.isEnded ∧
      RunEntry.shown ⟨orphaned gone r, labels, limits⟩ = RunEntry.shown ⟨r, labels, limits⟩ := by
  unfold orphaned
  split <;> exact ⟨rfl, rfl⟩

theorem deleteInstance_ok {name : InstanceName} (hd : deleteInstance s name = .ok s') :
    s'.runs = (s.runs.filter fun r => r.instanceName ≠ some name).map (orphaned (runsOf s name)) ∧
      s'.labels = s.labels.filter (fun l => l.1 ∉ runsOf s name) ∧
      s'.limits = s.limits.filter fun l => l.runId ∉ runsOf s name := by
  unfold deleteInstance at hd
  split at hd
  · obtain rfl := Except.ok.inj hd
    exact ⟨rfl, rfl, rfl⟩
  · simp at hd

theorem keyUnique_deleteInstance (h : s.KeyUnique) {name : InstanceName}
    (hd : deleteInstance s name = .ok s') : s'.KeyUnique := by
  have hid : RunRecord.runId ∘ orphaned (runsOf s name) = RunRecord.runId := by
    funext r
    exact orphaned_runId _ r
  unfold RunStore.KeyUnique
  rw [(deleteInstance_ok hd).1, List.map_map, hid]
  exact List.Nodup.sublist (List.filter_sublist.map _) h

theorem Stored.deleteInstance (h : Stored s) {name : InstanceName}
    (hd : deleteInstance s name = .ok s') : Stored s' := by
  refine ⟨keyUnique_deleteInstance h.keys hd, ?_⟩
  rw [(deleteInstance_ok hd).1]
  intro r hr
  obtain ⟨q, hq, rfl⟩ := List.mem_map.mp hr
  have hset := h.sets q (List.mem_filter.mp hq).1
  unfold orphaned
  split <;> exact hset

/-- The rows after a deletion. -/
theorem runRecord_deleteInstance (h : s.KeyUnique) {name : InstanceName}
    (hd : deleteInstance s name = .ok s') (id : RunId) :
    s'.runRecord id =
      if id ∈ runsOf s name then none else (s.runRecord id).map (orphaned (runsOf s name)) := by
  obtain ⟨hruns, -, -⟩ := deleteInstance_ok hd
  -- a row that is left is one of another instance
  have hkept : ∀ q, s'.runRecord id = some q →
      ∃ r, s.runRecord id = some r ∧ r.instanceName ≠ some name := by
    intro q hq
    have hmem := RunStore.mem_of_runRecord hq
    rw [hruns] at hmem
    obtain ⟨r, hr, rfl⟩ := List.mem_map.mp hmem
    obtain ⟨hrow, hname⟩ := List.mem_filter.mp hr
    have hid := RunStore.runId_of_runRecord hq
    rw [orphaned_runId] at hid
    refine ⟨r, ?_, by simpa using hname⟩
    rw [← hid]
    exact h.runRecord hrow
  split
  · rename_i hgone
    obtain ⟨r, hr, hname⟩ := (mem_runsOf h id).mp hgone
    cases hq : s'.runRecord id with
    | none => rfl
    | some q =>
        obtain ⟨r', hr', hne⟩ := hkept q hq
        rw [hr, Option.some.injEq] at hr'
        exact absurd hname (hr' ▸ hne)
  · rename_i hgone
    cases hr : s.runRecord id with
    | none =>
        cases hq : s'.runRecord id with
        | none => rfl
        | some q =>
            obtain ⟨r', hr', -⟩ := hkept q hq
            rw [hr] at hr'
            simp at hr'
    | some r =>
        have hname : r.instanceName ≠ some name := by
          intro hname
          exact hgone ((mem_runsOf h id).mpr ⟨r, hr, hname⟩)
        have hmem : orphaned (runsOf s name) r ∈ s'.runs := by
          rw [hruns]
          refine List.mem_map_of_mem (List.mem_filter.mpr ⟨RunStore.mem_of_runRecord hr, ?_⟩)
          simpa using hname
        have hrow := (keyUnique_deleteInstance h hd).runRecord hmem
        rwa [orphaned_runId, RunStore.runId_of_runRecord hr] at hrow

/-- A deletion hides the Runs of its instance and shows every other one as before. -/
theorem openView_deleteInstance (h : Stored s) {name : InstanceName}
    (hd : deleteInstance s name = .ok s') (id : RunId) :
    s'.openView id = if id ∈ runsOf s name then none else s.openView id := by
  have hrow := runRecord_deleteInstance h.keys hd id
  obtain ⟨-, hlabels, hlimits⟩ := deleteInstance_ok hd
  split
  · rename_i hgone
    rw [if_pos hgone] at hrow
    exact openView_of_none hrow
  · rename_i hgone
    rw [if_neg hgone] at hrow
    have hl : s'.runLabels id = s.runLabels id := by
      unfold RunStore.runLabels
      rw [hlabels, List.filter_filter]
      congr 2
      refine List.filter_congr fun l _ => ?_
      by_cases hid : l.1 = id <;> simp [hid, hgone]
    have hm : s'.runLimits id = s.runLimits id := by
      unfold RunStore.runLimits
      rw [hlimits, List.filter_filter]
      congr 1
      refine List.filter_congr fun l _ => ?_
      by_cases hid : l.runId = id <;> simp [hid, hgone]
    cases hr : s.runRecord id with
    | none =>
        rw [hr] at hrow
        rw [openView_of_none hrow, openView_of_none hr]
    | some r =>
        rw [hr] at hrow
        obtain ⟨hended, hshown⟩ := orphaned_shown (runsOf s name) r (s.runLabels id)
          (s.runLimits id)
        rw [openView_of_some hrow, openView_of_some hr, hended, hl, hm, hshown]

/-- A deletion without an entry changes what should be shown exactly if it deletes an open Run. -/
theorem openView_deleteInstance_iff (h : Stored s) {name : InstanceName}
    (hd : deleteInstance s name = .ok s') : s'.openView = s.openView ↔ ¬ HasOpenRun s name := by
  constructor
  · rintro heq ⟨r, hr, hname, hopen⟩
    have hrow := h.keys.runRecord hr
    have hview := openView_deleteInstance h hd r.runId
    rw [if_pos ((mem_runsOf h.keys r.runId).mpr ⟨r, hrow, hname⟩), heq, openView_of_some hrow] at hview
    have hended : ¬ r.isEnded = true := by simpa [RunRecord.isEnded] using hopen
    rw [if_neg hended] at hview
    simp at hview
  · intro hclosed
    funext id
    rw [openView_deleteInstance h hd id]
    split
    · rename_i hgone
      obtain ⟨r, hr, hname⟩ := (mem_runsOf h.keys id).mp hgone
      have hended : r.isEnded = true := by
        by_contra hopen
        refine hclosed ⟨r, RunStore.mem_of_runRecord hr, hname, ?_⟩
        simpa [RunRecord.isEnded] using hopen
      rw [openView_of_some hr, if_pos hended]
    · rfl

/-! ### The publication at open -/

/-- The entry of a row. -/
def entryOf (s : RunStore) (r : RunRecord) : RunEntry :=
  ⟨r, s.runLabels r.runId, s.runLimits r.runId⟩

theorem foldl_show_entries (l : List RunRecord) (hn : (l.map RunRecord.runId).Nodup)
    (hopen : ∀ r ∈ l, ¬ r.isEnded = true) (view : RunId → Option ShownRun) :
    (∀ r ∈ l, (l.map (entryOf s)).foldl show_ view r.runId = some (entryOf s r).shown) ∧
      ∀ id, id ∉ l.map RunRecord.runId → (l.map (entryOf s)).foldl show_ view id = view id := by
  induction l generalizing view with
  | nil => exact ⟨by simp, fun _ _ => rfl⟩
  | cons r l ih =>
      rw [List.map_cons, List.nodup_cons] at hn
      obtain ⟨hin, hout⟩ := ih hn.2 (fun q hq => hopen q (List.mem_cons_of_mem _ hq))
        (show_ view (entryOf s r))
      have hr : ¬ (entryOf s r).record.isEnded = true := hopen r List.mem_cons_self
      constructor
      · intro q hq
        rcases List.mem_cons.mp hq with rfl | hq
        · rw [List.map_cons, List.foldl_cons, hout _ hn.1, show_, if_neg hr]
          exact Function.update_self _ _ _
        · exact hin q hq
      · intro id hid
        rw [List.map_cons, List.mem_cons, not_or] at hid
        rw [List.map_cons, List.foldl_cons, hout id hid.2, show_]
        exact Function.update_of_ne hid.1 _ _

/-- The publication at open shows the open Runs. -/
theorem view_openEntries (h : Stored s) :
    (RunSnapshot.empty.publish (openEntries s)).view = s.openView := by
  rw [view_publish]
  have hn : ((s.runs.filter fun r => !r.isEnded).map RunRecord.runId).Nodup :=
    List.Nodup.sublist (List.filter_sublist.map _) h.keys
  have hopen : ∀ r ∈ s.runs.filter fun r => !r.isEnded, ¬ r.isEnded = true := by
    intro r hr
    simpa using (List.mem_filter.mp hr).2
  obtain ⟨hin, hout⟩ := foldl_show_entries (s := s) _ hn hopen RunSnapshot.empty.view
  funext id
  change ((s.runs.filter fun r => !r.isEnded).map (entryOf s)).foldl show_ _ id = _
  cases hr : s.runRecord id with
  | none =>
      rw [openView_of_none hr, hout]
      · rfl
      · intro hmem
        obtain ⟨r, hrow, rfl⟩ := List.mem_map.mp hmem
        rw [h.keys.runRecord (List.mem_filter.mp hrow).1] at hr
        simp at hr
  | some r =>
      have hid := RunStore.runId_of_runRecord hr
      rw [openView_of_some hr]
      by_cases hended : r.isEnded = true
      · rw [if_pos hended, hout]
        · rfl
        · intro hmem
          obtain ⟨q, hrow, hq⟩ := List.mem_map.mp hmem
          have hq' := h.keys.runRecord (List.mem_filter.mp hrow).1
          rw [hq, hr, Option.some.injEq] at hq'
          exact hopen q hrow (hq' ▸ hended)
      · have hmem : r ∈ s.runs.filter fun r => !r.isEnded :=
          List.mem_filter.mpr ⟨RunStore.mem_of_runRecord hr, by simpa using hended⟩
        have hview := hin r hmem
        rw [hid] at hview
        rw [if_neg hended, hview]
        unfold entryOf
        rw [hid]

/-! ### A projection whose savepoint is not released -/

/-- The projection of a transition changes the open Run of the instance. -/
def ProjectionMoves (s : RunStore) (name : InstanceName) (newState : LifecycleState)
    (fate : RunFate) (cause : String) : Prop :=
  ∃ run move, s.openProcessRun name = some run ∧
    projectedMove run newState fate cause = some move ∧
    ¬ (run.status = move.1 ∧ run.anomalies = Anomaly.normalize move.2.1)

/-- A projection that changes nothing has nothing to hand over. -/
theorem projectTransition_still {name : InstanceName} {newState : LifecycleState} {fate : RunFate}
    {cause : String} (h : ¬ ProjectionMoves s name newState fate cause) :
    projectTransition s name newState fate cause at_ = .ok (s, RunChanges.empty) := by
  unfold projectTransition
  cases hrun : s.openProcessRun name with
  | none => rfl
  | some run =>
      dsimp only
      cases hmove : projectedMove run newState fate cause with
      | none => rfl
      | some move =>
          obtain ⟨status, anomalies, endCause⟩ := move
          have hsame : run.status = status ∧ run.anomalies = Anomaly.normalize anomalies := by
            by_contra hne
            exact h ⟨run, _, hrun, hmove, hne⟩
          have hstay : moveTo (s, RunChanges.empty) run status anomalies endCause at_ =
              .ok (s, RunChanges.empty) := by
            unfold moveTo
            exact if_pos hsame
          unfold moveOwner
          dsimp only
          rw [hstay]
          unfold cascade
          exact if_pos hsame.1

end Runs

namespace RunRegistry

variable {r : RunRegistry}

/-- What a step must meet for the index to follow it: a deletion deletes no open Run, and a
projection whose savepoint is not released changes none. -/
def Publishes (r : RunRegistry) : Op → Prop
  | .remove name true => name ∈ r.runs.instances → ¬ HasOpenRun r.runs name
  | .transition name newState fate cause _ (some .release) true =>
      ¬ ProjectionMoves r.runs name newState fate cause
  | _ => True

theorem Agrees.finish (h : r.Agrees) {runs : RunStore} {es : List RunEntry} (committed : Bool)
    (hs : Shows r.runs runs es) : (r.finish committed runs es).Agrees := by
  cases committed with
  | false => exact h
  | true =>
      change (r.snapshot.publish es).view = runs.openView
      rw [view_publish, h, hs.view]

theorem stored_finish (h : Stored r.runs) {runs : RunStore} {es : List RunEntry}
    (committed : Bool) (hs : Stored runs) : Stored (r.finish committed runs es).runs := by
  cases committed with
  | false => exact h
  | true => exact hs

theorem withPlaceholder_shows (s : RunStore) (at_ : Timestamp)
    (placeholder : Option (RunId × InstanceName)) : Shows s (withPlaceholder s at_ placeholder) [] := by
  cases placeholder with
  | none => exact ⟨rfl, fun h => h⟩
  | some x => exact ensureRunRow_shows

theorem Shows.append {s s' s'' : RunStore} {es es' : List RunEntry} (h : Shows s s' es)
    (h' : Shows s' s'' es') : Shows s s'' (es ++ es') :=
  ⟨by rw [List.foldl_append, h.view, h'.view], h'.stored ∘ h.stored⟩

/-- The projection of a transition hands over what it changes, if its savepoint is released. -/
theorem projectInSavepoint_shows (s : RunStore) (name : InstanceName) (newState : LifecycleState)
    (fate : RunFate) (cause : String) (at_ : Timestamp) (fault : Option ProjectionFault)
    (h : fault = some .release → ¬ ProjectionMoves s name newState fate cause) :
    Shows s (projectInSavepoint s name newState fate cause at_ fault).1
      (projectInSavepoint s name newState fate cause at_ fault).2 := by
  unfold projectInSavepoint
  cases hjob : projectTransition s name newState fate cause at_ with
  | error err => exact ⟨rfl, fun h => h⟩
  | ok job =>
      cases fault with
      | none => exact (noted_conduct.projectTransition hjob).shows
      | some fault =>
          cases fault with
          | statement => exact ⟨rfl, fun h => h⟩
          | release =>
              rw [projectTransition_still (h rfl)] at hjob
              obtain rfl := Except.ok.inj hjob
              exact ⟨rfl, fun h => h⟩

theorem stored_projectInSavepoint {s : RunStore} (hs : Stored s) (name : InstanceName)
    (newState : LifecycleState) (fate : RunFate) (cause : String) (at_ : Timestamp)
    (fault : Option ProjectionFault) :
    Stored (projectInSavepoint s name newState fate cause at_ fault).1 := by
  unfold projectInSavepoint
  cases hjob : projectTransition s name newState fate cause at_ with
  | error err => exact hs
  | ok job =>
      cases fault with
      | none => exact (noted_conduct.projectTransition hjob).stored hs
      | some fault => cases fault <;> exact hs

/-- Every step keeps the tables. -/
theorem stored_step (h : Stored r.runs) (op : Op) : Stored (r.step op).runs := by
  cases op with
  | job op at_ committed => exact stored_finish h committed ((apply_shows op r.runs at_).stored h)
  | transition name newState fate cause at_ fault committed =>
      exact stored_finish h committed (stored_projectInSavepoint h name newState fate cause at_ fault)
  | usage placeholder breached at_ committed =>
      have hplace := (withPlaceholder_shows r.runs at_ placeholder).stored h
      simp only [step]
      cases hjob : markBreaches (withPlaceholder r.runs at_ placeholder) breached at_ with
      | error err => exact h
      | ok job => exact stored_finish h committed ((markBreaches_noted hjob).stored hplace)
  | remove name committed =>
      simp only [step]
      cases hd : deleteInstance r.runs name with
      | error err => exact h
      | ok runs => exact stored_finish h committed (h.deleteInstance hd)
  | reopen => exact h

/-- **A step** that meets `Publishes` keeps the index in step with the store. -/
theorem agrees_step (hs : Stored r.runs) (h : r.Agrees) (op : Op) (hp : r.Publishes op) :
    (r.step op).Agrees := by
  cases op with
  | job op at_ committed => exact h.finish committed (apply_shows op r.runs at_)
  | transition name newState fate cause at_ fault committed =>
      cases committed with
      | false => exact h
      | true =>
          refine h.finish true (projectInSavepoint_shows r.runs name newState fate cause at_ fault ?_)
          rintro rfl
          exact hp
  | usage placeholder breached at_ committed =>
      simp only [step]
      cases hjob : markBreaches (withPlaceholder r.runs at_ placeholder) breached at_ with
      | error err => exact h
      | ok job =>
          have hshows := Shows.append (withPlaceholder_shows r.runs at_ placeholder)
            (markBreaches_noted hjob).shows
          exact h.finish committed hshows
  | remove name committed =>
      simp only [step]
      cases hd : deleteInstance r.runs name with
      | error err => exact h
      | ok runs =>
          cases committed with
          | false => exact h
          | true =>
              have hname : name ∈ r.runs.instances := by
                unfold deleteInstance at hd
                split at hd
                · assumption
                · simp at hd
              have hview := (openView_deleteInstance_iff hs hd).mpr (hp hname)
              exact h.finish true ⟨hview.symm, fun hst => hst.deleteInstance hd⟩
  | reopen => exact view_openEntries hs

/-- A deletion of an open Run always leaves it in the index. -/
theorem agrees_remove_iff (hs : Stored r.runs) (h : r.Agrees) (name : InstanceName) :
    (r.step (.remove name true)).Agrees ↔ r.Publishes (.remove name true) := by
  refine ⟨?_, agrees_step hs h _⟩
  intro hagrees hname
  have hd : ∃ runs, deleteInstance r.runs name = .ok runs := by
    unfold deleteInstance
    rw [if_pos hname]
    exact ⟨_, rfl⟩
  obtain ⟨runs, hd⟩ := hd
  simp only [step, hd] at hagrees
  have hview : r.snapshot.view = runs.openView := hagrees
  exact (openView_deleteInstance_iff hs hd).mp (hview.symm.trans h)

theorem stored_empty : Stored empty.runs := ⟨List.nodup_nil, by simp [empty, RunStore.empty]⟩

/-- **The index follows the store.**  In a run of the registry in which no deletion deletes an open
Run, and no projection that moves a Run fails to release its savepoint, the index shows exactly the
open Runs of the store in every state, with their status, depth, labels, anomalies and ceilings; a
job that does not commit changes neither.  In each of these states a deletion keeps the agreement
exactly if the instance has no open Run. -/
theorem snapshot_agrees (ops : List Op) (h : Guarded.Meets step Publishes empty ops) :
    ∀ r ∈ Guarded.states step empty ops, r.Agrees ∧
      ∀ name, (r.step (.remove name true)).Agrees ↔
        (name ∈ r.runs.instances → ¬ HasOpenRun r.runs name) := by
  intro r hr
  have hinv : Stored r.runs ∧ r.Agrees := by
    refine Guarded.invariant (P := fun r => Stored r.runs ∧ r.Agrees) ?_ ⟨stored_empty, rfl⟩ h hr
    intro r op hr hp
    exact ⟨stored_step hr.1 op, agrees_step hr.1 hr.2 op hp⟩
  exact ⟨hinv.2, fun name => agrees_remove_iff hinv.1 hinv.2 name⟩

/-- An instance that crashed, waits out its backoff with its Run kept, and is removed. -/
def removedInBackoff : List Op :=
  [.job (.register "a") "1" true, .job (.launch "a" false 7 true []) "2" true,
   .transition "a" .running .terminal "launched" "3" none true,
   .transition "a" .failed .relaunching "crashed" "4" none true, .remove "a" true]

/-- Its Run stays in the index although the store has no Run any more. -/
theorem removedInBackoff_disagrees :
    ¬ ∀ ops, ∀ r ∈ Guarded.states step empty ops, r.Agrees := by
  intro h
  have hagrees := h removedInBackoff _ Guarded.last_mem_states
  have hview : ((removedInBackoff.foldl step empty).snapshot.view 7).isSome = true ∧
      (removedInBackoff.foldl step empty).runs.openView 7 = none := by decide +kernel
  rw [hagrees, hview.2] at hview
  simp at hview

/-- An instance that is stopped before it is removed. -/
def removedStopped : List Op :=
  [.job (.register "a") "1" true, .job (.launch "a" false 7 true []) "2" true,
   .transition "a" .running .terminal "launched" "3" none true,
   .transition "a" .stopped .terminal "stopped" "4" none true, .remove "a" true]

/-- The index follows the store there. -/
theorem snapshot_agrees_stopped : (removedStopped.foldl step empty).Agrees := by
  have hclosed : ∀ r ∈ ((removedStopped.take 4).foldl step empty).runs.runs,
      ¬ (r.instanceName = some "a" ∧ r.status ≠ .ended) := by decide +kernel
  have hmeets : Guarded.Meets step Publishes empty removedStopped := by
    refine ⟨trivial, trivial, trivial, trivial, ?_, trivial⟩
    rintro - ⟨r, hr, hopen⟩
    exact hclosed r hr hopen
  exact (snapshot_agrees removedStopped hmeets _ Guarded.last_mem_states).1

/-! ### The evaluation of the budgets -/

section Evaluation

variable {s s' : RunStore} {at_ : Timestamp}

/-- Some breaches were marked. -/
def Marked (at_ : Timestamp) (s s' : RunStore) : Prop :=
  ∃ ids job, markBreaches s ids at_ = .ok job ∧ job.1 = s'

theorem Marked.refl : Marked at_ s s := ⟨[], _, rfl, rfl⟩

/-- What a job has collected so far does not matter to its marks. -/
theorem markBreaches_changes (ids : List RunId) {changes changes' : RunChanges} {job : Job}
    (h : ids.foldlM (fun job id => (markBreach job.1 id at_).map fun marked =>
      ((marked.1, ⟨job.2.events ++ marked.2.events, job.2.entries ++ marked.2.entries⟩) : Job))
      (s, changes) = .ok job) :
    ∃ job', ids.foldlM (fun job id => (markBreach job.1 id at_).map fun marked =>
      ((marked.1, ⟨job.2.events ++ marked.2.events, job.2.entries ++ marked.2.entries⟩) : Job))
      (s, changes') = .ok job' ∧ job'.1 = job.1 := by
  induction ids generalizing s changes changes' with
  | nil =>
      obtain rfl := Except.ok.inj h
      exact ⟨_, rfl, rfl⟩
  | cons id ids ih =>
      rw [List.foldlM_cons] at h ⊢
      obtain ⟨mid, hmid, hrest⟩ := bind_ok h
      cases hm : markBreach s id at_ with
      | error err => simp [hm, Except.map] at hmid
      | ok marked =>
          simp only [hm, Except.map] at hmid ⊢
          obtain rfl := Except.ok.inj hmid
          exact ih hrest

theorem Marked.trans {s'' : RunStore} (h : Marked at_ s s') (h' : Marked at_ s' s'') :
    Marked at_ s s'' := by
  obtain ⟨ids, job, hjob, rfl⟩ := h
  obtain ⟨ids', job', hjob', rfl⟩ := h'
  obtain ⟨job'', hjob'', heq⟩ := markBreaches_changes ids' hjob'
  refine ⟨ids ++ ids', job'', ?_, heq⟩
  rw [markBreaches, List.foldlM_append]
  rw [markBreaches] at hjob
  rw [hjob]
  exact hjob''

theorem Marked.of_markBreach {id : RunId} {job : Job} (h : markBreach s id at_ = .ok job) :
    Marked at_ s job.1 := by
  refine ⟨[id], _, ?_, rfl⟩
  rw [markBreaches, List.foldlM_cons, h]
  rfl

theorem commitLevel_marked {input : EvalInput} {acc acc' : Evaluation × Books}
    {level : Level × Governance.GovernanceOutcome}
    (h : Books.commitLevel input at_ acc level = .ok acc') :
    Marked at_ acc.2.ledger.runs acc'.2.ledger.runs := by
  have hledger : ∀ (ds : List Governance.GovernanceDecision) (acc : Evaluation × Books),
      (ds.foldl (Books.commitDecision input level.1 at_) acc).2.ledger = acc.2.ledger := by
    intro ds
    induction ds with
    | nil => intro acc; rfl
    | cons d ds ih =>
        intro acc
        rw [List.foldl_cons, ih]
        unfold Books.commitDecision Books.latch
        dsimp only
        split <;> rfl
  unfold Books.commitLevel at h
  dsimp only at h
  rw [← hledger level.2.decisions acc]
  split at h
  · cases hjob : markBreach
      (level.2.decisions.foldl (Books.commitDecision input level.1 at_) acc).2.ledger.runs
      level.1.runId at_ with
    | error err =>
        rw [hjob] at h
        simp [Except.map] at h
    | ok job =>
        rw [hjob] at h
        obtain rfl := Except.ok.inj h
        exact .of_markBreach hjob
  · obtain rfl := Except.ok.inj h
    exact .refl

/-- An evaluation changes the Run tables as `Op.usage` does. -/
theorem evaluate_usage {b b' : Books} {input : EvalInput} {ev : Evaluation}
    (h : b.evaluate input at_ = .ok (ev, b')) :
    ∃ placeholder ids job,
      markBreaches (withPlaceholder b.ledger.runs at_ placeholder) ids at_ = .ok job ∧
        b'.ledger.runs = job.1 := by
  have hlevels : ∃ placeholder, (Books.levelsFor b input at_).2.ledger.runs =
      withPlaceholder b.ledger.runs at_ placeholder := by
    unfold Books.levelsFor
    split
    · exact ⟨some (input.runId, input.name), rfl⟩
    · exact ⟨none, rfl⟩
  have hfold : ∀ (l : List (Level × Governance.GovernanceOutcome)) (acc acc' : Evaluation × Books),
      l.foldlM (Books.commitLevel input at_) acc = .ok acc' →
        Marked at_ acc.2.ledger.runs acc'.2.ledger.runs := by
    intro l
    induction l with
    | nil =>
        intro acc acc' h
        obtain rfl := Except.ok.inj h
        exact .refl
    | cons level l ih =>
        intro acc acc' h
        rw [List.foldlM_cons] at h
        obtain ⟨mid, hmid, hrest⟩ := bind_ok h
        exact (commitLevel_marked hmid).trans (ih mid acc' hrest)
  unfold Books.evaluate at h
  split at h
  · obtain ⟨-, rfl⟩ := Prod.mk.inj (Except.ok.inj h)
    exact ⟨none, [], _, rfl, rfl⟩
  · obtain ⟨placeholder, hplace⟩ := hlevels
    obtain ⟨ids, job, hjob, heq⟩ := hfold _ _ _ h
    exact ⟨placeholder, ids, job, by rw [← hplace]; exact hjob, heq.symm⟩

end Evaluation

end RunRegistry

end Hekma
