/-
**The stream of Run events** (`domain/runs/ops.rs`).

Every change of a Run is announced by an event, in the order of the changes.  A subscriber that
applies the events to what it has, each by its kind, has what is stored.  The operations write only
rows they have read in the same job, so an event differs from the row before it in what its kind
says, and what it names as replaced is what was there.

Main definitions:

* `RunView`, `storedView` — what an event says of a Run, and what is stored of it;
* `applyEvent`, `replay` — a subscriber;
* `InStep` — an event fits the view it is applied to;
* `RunStream` — the tables and the events so far.

Main results:

* `told_moveTo`, `told_moveOwner`, `told_ensureSupervised` and the others — the events of an
  operation lead from the stored views before it to those after it;
* `RunOp.told`, `RunOp.quiet` — so do those of every operation, and one without an effect has none.
-/

import Hekma.Domain.Runs.Snapshot
import Hekma.Lib.Replay

set_option relaxedAutoImplicit false
set_option autoImplicit false

namespace Hekma

open Replay

/-! ### Views -/

/-- What an event says of a Run. -/
structure RunView where
  parentRunId : Option RunId
  instanceName : Option InstanceName
  controlDepth : ControlDepth
  wirePath : Bool
  status : RunStatus
  labels : List Label
  anomalies : List Anomaly
  deriving DecidableEq, Repr

/-- What an event says of its Run. -/
def RunEvent.view (e : RunEvent) : RunView :=
  ⟨e.parentRunId, e.instanceName, e.controlDepth, e.wirePath, e.status, e.labels, e.anomalies⟩

/-- A view after an event on its Run: the kind of the event says which columns it replaces. -/
def RunView.after (w : RunView) (e : RunEvent) : RunView :=
  match e.change with
  | .created => e.view
  | .statusChanged | .ended => { w with status := e.status, anomalies := e.anomalies }
  | .anomaliesChanged => { w with anomalies := e.anomalies }
  | .depthChanged =>
      { w with controlDepth := e.controlDepth, wirePath := e.wirePath, anomalies := e.anomalies }
  | .labelsChanged => { w with labels := e.labels }

namespace Runs

/-- The Runs as a subscriber sees them. -/
abbrev Views : Type := RunId → Option RunView

/-- Apply an event: a created Run appears, and any other event changes the view there is. -/
def applyEvent (v : Views) (e : RunEvent) : Views :=
  Function.update v e.runId
    (if e.change = .created then some e.view else (v e.runId).map fun w => w.after e)

/-- Apply the events of a stream from the start. -/
def replay (events : List RunEvent) : Views := events.foldl applyEvent fun _ => none

/-- The bound labels of a Run. -/
def boundLabels (s : RunStore) (id : RunId) : List Label :=
  (s.runLabels id).filter fun l => l.source = .bound

/-- What is stored of a row. -/
def rowView (s : RunStore) (r : RunRecord) : RunView :=
  ⟨r.parentRunId, r.instanceName, r.controlDepth, r.wirePath, r.status, boundLabels s r.runId,
    r.anomalies⟩

/-- What is stored of the Runs. -/
def storedView (s : RunStore) : Views := fun id => (s.runRecord id).map (rowView s)

/-- An event fits the views it is applied to.  Only a Run that is not there is created; every other
event leads to just what it says of its Run; the status it replaces is the one that was there, and
an event that replaces none leaves the status as it was; and so for the depth and the wire path. -/
structure InStep (v : Views) (e : RunEvent) : Prop where
  created : e.change = .created → v e.runId = none
  whole : applyEvent v e e.runId = some e.view
  status : ∀ p, e.prior.status = some p → (v e.runId).map RunView.status = some p
  kept : e.prior.status = none → e.change ≠ .created →
    (v e.runId).map RunView.status = some e.status
  depth : ∀ p, e.prior.depth = some p → (v e.runId).map RunView.controlDepth = some p
  wirePath : ∀ p, e.prior.wirePath = some p → (v e.runId).map RunView.wirePath = some p

/-- The events `es` lead from one state of the tables to another. -/
def Streams (s s' : RunStore) (es : List RunEvent) : Prop :=
  Leads applyEvent InStep (storedView s) es (storedView s')

/-- The events a job has collected lead from the tables it started with to those it has. -/
def Told (job job' : Job) : Prop :=
  ∃ es, job'.2.events = job.2.events ++ es ∧ Streams job.1 job'.1 es

variable {s s' : RunStore} {job job' : Job} {record r q old : RunRecord} {id : RunId}
  {status : RunStatus} {at_ : Timestamp}

theorem Told.refl : Told job job := ⟨[], (List.append_nil _).symm, Leads.refl⟩

theorem Told.trans {job'' : Job} (h : Told job job') (h' : Told job' job'') : Told job job'' := by
  obtain ⟨es, he, hs⟩ := h
  obtain ⟨es', he', hs'⟩ := h'
  exact ⟨es ++ es', by rw [he', he, List.append_assoc], hs.append hs'⟩

/-! ### One write -/

theorem storedView_some (h : s.runRecord id = some r) : storedView s id = some (rowView s r) := by
  rw [storedView, h, Option.map_some]

/-- Tables with the rows of other ones and, but for one Run, their bound labels. -/
structure Relabelled (s s₁ : RunStore) (id : RunId) : Prop where
  rows : s₁.runs = s.runs
  labels : ∀ other, other ≠ id → boundLabels s₁ other = boundLabels s other

theorem Relabelled.refl : Relabelled s s id := ⟨rfl, fun _ _ => rfl⟩

theorem Relabelled.runRecord {s₁ : RunStore} (h : Relabelled s s₁ id) :
    s₁.runRecord = s.runRecord := by
  funext other
  unfold RunStore.runRecord
  rw [h.rows]

theorem relabelled_replaceLabels {labels : List Label} :
    Relabelled s (s.replaceLabels id .bound labels) id :=
  ⟨rfl, fun _ hne => congrArg _ (runLabels_replaceLabels hne)⟩

/-- The stored views after a row was saved. -/
theorem storedView_saveRun {s₁ : RunStore} (h : Relabelled s s₁ record.runId)
    (hs : s₁.saveRun record = .ok s') (hold : s.runRecord record.runId = some old) :
    storedView s' = Function.update (storedView s) record.runId
      (some (rowView s' (RunStore.overwrite record old))) := by
  funext id
  obtain ⟨-, -, -, heq⟩ := RunStore.saveRun_ok hs
  have hlabels : boundLabels s' = boundLabels s₁ := by rw [heq]; rfl
  have hold₁ : s₁.runRecord record.runId = some old := by rw [h.runRecord, hold]
  by_cases hid : id = record.runId
  · subst hid
    rw [storedView, RunStore.runRecord_saveRun_self hs hold₁, Function.update_self,
      Option.map_some]
  · rw [Function.update_of_ne hid, storedView, storedView, RunStore.runRecord_saveRun_of_ne hs hid,
      h.runRecord]
    refine Option.map_congr fun r hr => ?_
    have hne : r.runId ≠ record.runId := by
      rw [RunStore.runId_of_runRecord hr]
      exact hid
    unfold rowView
    rw [hlabels, h.labels _ hne]

/-- **Saving a row that keeps its place**, and collecting its event. -/
theorem told_save {s₁ : RunStore} {kind : RunEventKind} {prior : Prior} {cause : Option String}
    (h : Relabelled job.1 s₁ record.runId)
    (hs : s₁.saveRun record = .ok s') (hold : job.1.runRecord record.runId = some old)
    (hparent : record.parentRunId = old.parentRunId)
    (hname : record.instanceName = old.instanceName)
    (hset : Anomaly.normalize record.anomalies = record.anomalies)
    (hkind : kind ≠ .created)
    (hafter : ∀ e : RunEvent, e.change = kind → e.view = rowView s' record →
      (rowView job.1 old).after e = rowView s' record)
    (hstatus : prior.status = some old.status ∨ prior.status = none ∧ old.status = record.status)
    (hdepth : ∀ p, prior.depth = some p → old.controlDepth = p)
    (hwire : ∀ p, prior.wirePath = some p → old.wirePath = p) :
    Told job (s', note s' job.2 record kind prior cause) := by
  -- a save writes the named columns over those of the old row
  have hview : rowView s' (RunStore.overwrite record old) = rowView s' record := by
    have hid := RunStore.runId_of_runRecord hold
    unfold rowView RunStore.overwrite
    simp only [hid, hset, hparent, hname]
  have hbefore := storedView_some hold
  refine ⟨_, rfl, Leads.single ?_ ?_⟩
  · refine ⟨fun h => absurd h hkind, ?_, ?_, ?_, ?_, ?_⟩
    · simp only [applyEvent, Function.update_self, if_neg hkind]
      rw [hbefore, Option.map_some]
      exact congrArg some (hafter _ rfl rfl)
    · intro p hp
      rw [hbefore]
      rcases hstatus with h | ⟨h, -⟩
      · exact h.symm.trans hp
      · exact absurd (h.symm.trans hp) (by simp)
    · intro hnone _
      rw [hbefore]
      rcases hstatus with h | ⟨-, h⟩
      · exact absurd (h.symm.trans hnone) (by simp)
      · exact congrArg some h
    · intro p hp
      rw [hbefore]
      exact congrArg some (hdepth p hp)
    · intro p hp
      rw [hbefore]
      exact congrArg some (hwire p hp)
  · rw [storedView_saveRun h hs hold, hview, applyEvent]
    dsimp only
    rw [if_neg hkind, hbefore, Option.map_some]
    exact congrArg (fun w => Function.update (storedView job.1) record.runId (some w))
      (hafter _ rfl rfl)

/-- Inserting a row and collecting its event. -/
theorem told_insert {run : NewRun} {prior : Prior} {cause : Option String}
    (hs : job.1.insertRun run = .ok s')
    (hset : Anomaly.normalize run.record.anomalies = run.record.anomalies)
    (hprior : prior = Prior.none) :
    Told job (s', note s' job.2 run.record .created prior cause) := by
  subst hprior
  have hfresh : storedView job.1 run.record.runId = none := by
    rw [storedView, RunStore.insertRun_fresh hs]
    rfl
  have hview : storedView s' = Function.update (storedView job.1) run.record.runId
      (some (rowView s' run.record)) := by
    funext id
    by_cases hid : id = run.record.runId
    · subst hid
      rw [storedView, RunStore.runRecord_insertRun hs, if_pos rfl, Function.update_self,
        Option.map_some, hset]
    · rw [Function.update_of_ne hid, storedView, storedView, RunStore.runRecord_insertRun hs,
        if_neg hid]
      refine Option.map_congr fun r hr => ?_
      have hne : r.runId ≠ run.record.runId := by
        rw [RunStore.runId_of_runRecord hr]
        exact hid
      unfold rowView boundLabels
      rw [(insertRun_others hs hne).1]
  refine ⟨_, rfl, Leads.single ?_ ?_⟩
  · refine ⟨fun _ => hfresh, ?_, ?_, ?_, ?_, ?_⟩
    · simp [applyEvent]
    · intro p hp
      cases hp
    · intro _ hne
      exact absurd rfl hne
    · intro p hp
      cases hp
    · intro p hp
      cases hp
  · rw [hview, applyEvent]
    rfl

/-! ### Moves -/

/-- What the kind of a move says. -/
theorem moveKind_cases (prior status : RunStatus) :
    (status ≠ prior ∧ (moveKind prior status = .ended ∨ moveKind prior status = .statusChanged)) ∨
      (status = prior ∧ moveKind prior status = .anomaliesChanged) := by
  unfold moveKind
  by_cases hsame : status = prior
  · subst hsame
    refine .inr ⟨rfl, ?_⟩
    simp
  · refine .inl ⟨hsame, ?_⟩
    split
    · exact .inl rfl
    · exact .inr rfl

/-- The columns of a moved row. -/
theorem movedRecord_columns (record : RunRecord) (status : RunStatus) (anomalies : List Anomaly)
    (cause : Option String) (at_ : Timestamp) :
    (movedRecord record status anomalies cause at_).parentRunId = record.parentRunId ∧
      (movedRecord record status anomalies cause at_).instanceName = record.instanceName ∧
      (movedRecord record status anomalies cause at_).controlDepth = record.controlDepth ∧
      (movedRecord record status anomalies cause at_).wirePath = record.wirePath ∧
      (movedRecord record status anomalies cause at_).status = status ∧
      (movedRecord record status anomalies cause at_).anomalies = anomalies := by
  unfold movedRecord
  split <;> exact ⟨rfl, rfl, rfl, rfl, rfl, rfl⟩

theorem boundLabels_saveRun (hs : s.saveRun record = .ok s') : boundLabels s' = boundLabels s := by
  obtain ⟨-, -, -, heq⟩ := RunStore.saveRun_ok hs
  rw [heq]
  rfl

/-- **A move tells what it changes.** -/
theorem told_moveTo {anomalies : List Anomaly} {cause : Option String}
    (hrow : job.1.runRecord record.runId = some record)
    (h : moveTo job record status anomalies cause at_ = .ok job') : Told job job' := by
  unfold moveTo at h
  dsimp only at h
  split at h
  · obtain rfl := Except.ok.inj h
    exact .refl
  · obtain ⟨s', hs, hret⟩ := bind_ok h
    obtain rfl := Except.ok.inj hret
    obtain ⟨hparent, hname, hdepth, hwire, hstatus, hanomalies⟩ :=
      movedRecord_columns record status (Anomaly.normalize anomalies) cause at_
    have hid : (movedRecord record status (Anomaly.normalize anomalies) cause at_).runId =
        record.runId := movedRecord_runId
    have hlabels := boundLabels_saveRun hs
    refine told_save .refl hs (hid ▸ hrow) hparent hname (by rw [hanomalies,
      Anomaly.normalize_normalize]) ?_ ?_ ?_ ?_ ?_
    · rcases moveKind_cases record.status status with ⟨-, hk | hk⟩ | ⟨-, hk⟩ <;> rw [hk] <;> simp
    · intro e hchange hview
      have hestatus := congrArg RunView.status hview
      have heanomalies := congrArg RunView.anomalies hview
      simp only [rowView, RunEvent.view] at hestatus heanomalies
      rcases moveKind_cases record.status status with ⟨-, hk | hk⟩ | ⟨hsame, hk⟩ <;>
        rw [hk] at hchange <;>
        simp only [RunView.after, hchange, rowView, hparent, hname, hdepth, hwire, hestatus,
          heanomalies, hlabels, hid]
      rw [hstatus, hsame]
    · rcases moveKind_cases record.status status with ⟨-, hk | hk⟩ | ⟨hsame, hk⟩ <;> rw [hk]
      · exact .inl rfl
      · exact .inl rfl
      · exact .inr ⟨rfl, by rw [hstatus, hsame]⟩
    · intro p hp
      split at hp <;> cases hp
    · intro p hp
      split at hp <;> cases hp

theorem told_cascadeChild {to_ : RunStatus} {stopped : Bool}
    (hrow : job.1.runRecord record.runId = some record)
    (h : cascadeChild to_ stopped at_ job record = .ok job') : Told job job' := by
  unfold cascadeChild at h
  split at h
  · exact told_moveTo hrow h
  · split at h
    · exact told_moveTo hrow h
    · split at h
      · exact told_moveTo hrow h
      · obtain rfl := Except.ok.inj h
        exact .refl

/-- A cascade tells what it changes.  The Runs still to come have other ids, so their rows are the
ones that were read. -/
theorem told_cascade_fold {to_ : RunStatus} {stopped : Bool} (l : List RunRecord) {job job' : Job}
    (h : l.foldlM (cascadeChild to_ stopped at_) job = .ok job')
    (hnd : (l.map RunRecord.runId).Nodup)
    (hrows : ∀ r ∈ l, job.1.runRecord r.runId = some r) : Told job job' := by
  induction l generalizing job with
  | nil =>
      obtain rfl := Except.ok.inj h
      exact .refl
  | cons c l ih =>
      rw [List.foldlM_cons] at h
      obtain ⟨job₁, h₁, h₂⟩ := bind_ok h
      rw [List.map_cons, List.nodup_cons] at hnd
      refine (told_cascadeChild (hrows c List.mem_cons_self) h₁).trans (ih h₂ hnd.2 ?_)
      intro r hr
      have hid : r.runId ≠ c.runId := fun he => hnd.1 (he ▸ List.mem_map_of_mem hr)
      rw [cascadeChild_frame h₁ hid]
      exact hrows r (List.mem_cons_of_mem _ hr)

/-- **Moving an owner** tells its move and those of the Runs that share its process. -/
theorem told_moveOwner {anomalies : List Anomaly} {cause : Option String} {stopped : Bool}
    (hst : Stored job.1) (hrow : job.1.runRecord record.runId = some record)
    (h : moveOwner job record status anomalies cause stopped at_ = .ok job') : Told job job' := by
  obtain ⟨mid, hmid, hrest⟩ := bind_ok h
  have hkeys := ((noted_conduct.moveTo hmid).stored hst).keys
  refine (told_moveTo hrow hmid).trans ?_
  unfold cascade at hrest
  split at hrest
  · obtain rfl := Except.ok.inj hrest
    exact .refl
  · refine told_cascade_fold _ hrest (RunStore.openInProcessDescendants_nodup hkeys _) ?_
    intro r hr
    exact hkeys.runRecord ((RunStore.mem_openInProcessDescendants hkeys).1 hr).1

theorem row_of_openProcessRun {name : InstanceName} (hst : Stored s)
    (h : s.openProcessRun name = some r) : s.runRecord r.runId = some r :=
  hst.keys.runRecord (List.mem_of_find?_eq_some h)

theorem told_projectTransition {name : InstanceName} {newState : LifecycleState} {fate : RunFate}
    {cause : String} (hst : Stored s)
    (h : projectTransition s name newState fate cause at_ = .ok job) :
    Told (s, RunChanges.empty) job := by
  unfold projectTransition at h
  split at h
  · obtain rfl := Except.ok.inj h
    exact .refl
  · rename_i run hrun
    split at h
    · obtain rfl := Except.ok.inj h
      exact .refl
    · exact told_moveOwner hst (row_of_openProcessRun hst hrun) h

theorem told_markBreach (h : markBreach s id at_ = .ok job) : Told (s, RunChanges.empty) job := by
  unfold markBreach at h
  split at h
  · obtain rfl := Except.ok.inj h
    exact .refl
  · rename_i record hrec
    split at h
    · obtain rfl := Except.ok.inj h
      exact .refl
    · refine told_moveTo ?_ h
      rw [RunStore.runId_of_runRecord hrec]
      exact hrec

theorem told_close (h : close s id at_ = .ok job) : Told (s, RunChanges.empty) job := by
  unfold close at h
  split at h
  · simp [throw, throwThe, MonadExceptOf.throw] at h
  · rename_i record hrec
    split at h
    · simp [throw, throwThe, MonadExceptOf.throw] at h
    · split at h
      · obtain rfl := Except.ok.inj h
        exact .refl
      · refine told_moveTo ?_ (mapError_ok h)
        rw [RunStore.runId_of_runRecord hrec]
        exact hrec

/-- Ending some open owners one after the other tells what it changes. -/
theorem told_endOwners (l : List RunRecord) {job job' : Job} (hst : Stored job.1)
    (h : l.foldlM (fun job record =>
      moveOwner job record .ended record.anomalies (some "relaunch-not-run") false at_) job =
        .ok job')
    (hnd : (l.map RunRecord.runId).Nodup)
    (hrows : ∀ r ∈ l, job.1.runRecord r.runId = some r ∧ r.processOwner = true) :
    Told job job' := by
  induction l generalizing job with
  | nil =>
      obtain rfl := Except.ok.inj h
      exact .refl
  | cons c l ih =>
      rw [List.foldlM_cons] at h
      obtain ⟨job₁, h₁, h₂⟩ := bind_ok h
      rw [List.map_cons, List.nodup_cons] at hnd
      refine (told_moveOwner hst (hrows c List.mem_cons_self).1 h₁).trans
        (ih ((noted_conduct.moveOwner h₁).stored hst) h₂ hnd.2 fun r hr => ?_)
      obtain ⟨hrow, hown⟩ := hrows r (List.mem_cons_of_mem _ hr)
      have hne : r.runId ≠ c.runId := fun he => hnd.1 (he ▸ List.mem_map_of_mem hr)
      exact ⟨moveOwner_frame h₁ (fun ht => ((noted_conduct.moveTo ht).stored hst).keys) hne hrow
        hown, hown⟩

theorem openOwners_rows (hst : Stored s) (state : InstanceName → LifecycleState) :
    ((openOwnersWithoutAProcess s state).map RunRecord.runId).Nodup ∧
      ∀ r ∈ openOwnersWithoutAProcess s state,
        s.runRecord r.runId = some r ∧ r.processOwner = true ∧ r.status ≠ .ended := by
  constructor
  · have hperm := List.perm_insertionSort (fun a b : RunRecord => a.runId ≤ b.runId)
      (s.runs.filter fun r =>
        r.processOwner && !r.isEnded && r.instanceName.any fun name =>
          state name ∈ [.failed, .stopped, .registered])
    exact ((hperm.map RunRecord.runId).nodup_iff).2
      (hst.keys.sublist (List.Sublist.map _ List.filter_sublist))
  · intro r hr
    simp only [openOwnersWithoutAProcess, List.mem_insertionSort, List.mem_filter,
      Bool.and_eq_true, RunRecord.isEnded, Bool.not_eq_true', decide_eq_false_iff_not] at hr
    exact ⟨hst.keys.runRecord hr.1, hr.2.1.1, hr.2.1.2⟩

theorem told_endRunsWithoutAProcess {state : InstanceName → LifecycleState} (hst : Stored s)
    (h : endRunsWithoutAProcess s state at_ = .ok job) : Told (s, RunChanges.empty) job := by
  obtain ⟨hnd, hrows⟩ := openOwners_rows hst state
  exact told_endOwners _ hst h hnd fun r hr => ⟨(hrows r hr).1, (hrows r hr).2.1⟩

/-! ### Launches and children -/

/-- A stored set without some of its elements is a stored set. -/
theorem normalize_filter {set : List Anomaly} (h : Anomaly.normalize set = set)
    (p : Anomaly → Bool) : Anomaly.normalize (set.filter p) = set.filter p := by
  have hall : Anomaly.normalize (set.filter p) = (Anomaly.normalize set).filter p := by
    unfold Anomaly.normalize
    rw [List.filter_filter]
    refine List.filter_congr fun a _ => ?_
    simp [List.mem_filter, and_comm]
  rw [hall, h]

theorem set_of_row (hst : Stored s) (hrow : s.runRecord id = some r) :
    Anomaly.normalize r.anomalies = r.anomalies :=
  hst.sets r (RunStore.mem_of_runRecord hrow)

/-- The row a change of the depth writes: the marks may change with the depth. -/
theorem syncDepth_cases {depth : ControlDepth} {wirePath : Bool}
    (h : syncDepth job record depth wirePath at_ = .ok job') :
    (job' = job ∧ record.controlDepth = depth ∧ record.wirePath = wirePath) ∨
    (¬ (record.controlDepth = depth ∧ record.wirePath = wirePath) ∧ ∃ anomalies s',
      (Anomaly.normalize record.anomalies = record.anomalies →
        Anomaly.normalize anomalies = anomalies) ∧
      job.1.saveRun { record with
        controlDepth := depth, wirePath := wirePath, updatedAt := at_, anomalies := anomalies } =
          .ok s' ∧
      job' = (s', note s' job.2 { record with
        controlDepth := depth, wirePath := wirePath, updatedAt := at_, anomalies := anomalies }
          .depthChanged ⟨none, some record.controlDepth, some record.wirePath⟩ none)) := by
  unfold syncDepth at h
  split at h
  · rename_i hsame
    exact .inl ⟨(Except.ok.inj h).symm, hsame⟩
  · rename_i hdiff
    refine .inr ⟨hdiff, ?_⟩
    dsimp only at h
    split at h
    · obtain ⟨s', hs, hret⟩ := bind_ok h
      refine ⟨_, s', fun hset => ?_, hs, (Except.ok.inj hret).symm⟩
      split
      · exact Anomaly.normalize_normalize _
      · exact normalize_filter hset _
    · obtain ⟨s', hs, hret⟩ := bind_ok h
      exact ⟨record.anomalies, s', id, hs, (Except.ok.inj hret).symm⟩

theorem told_syncDepth {depth : ControlDepth} {wirePath : Bool} (hst : Stored job.1)
    (hrow : job.1.runRecord record.runId = some record)
    (h : syncDepth job record depth wirePath at_ = .ok job') : Told job job' := by
  rcases syncDepth_cases h with ⟨rfl, -⟩ | ⟨-, anomalies, s', hset, hs, rfl⟩
  · exact .refl
  · refine told_save .refl hs hrow rfl rfl (hset (set_of_row hst hrow)) (by simp) ?_
      (.inr ⟨rfl, rfl⟩) (fun p hp => Option.some.inj hp) (fun p hp => Option.some.inj hp)
    intro e hchange hview
    have hdepth := congrArg RunView.controlDepth hview
    have hwire := congrArg RunView.wirePath hview
    have hanomalies := congrArg RunView.anomalies hview
    simp only [rowView, RunEvent.view] at hdepth hwire hanomalies
    simp only [RunView.after, hchange, rowView, hdepth, hwire, hanomalies, boundLabels_saveRun hs]

theorem told_syncBoundLabels {labels : List Label} (hst : Stored job.1)
    (h : syncBoundLabels job id labels at_ = .ok job') : Told job job' := by
  unfold syncBoundLabels at h
  dsimp only at h
  split at h
  · obtain rfl := Except.ok.inj h
    exact .refl
  · split at h
    · obtain rfl := Except.ok.inj h
      exact .refl
    · rename_i record hrec
      obtain ⟨s', hs, hret⟩ := bind_ok h
      obtain rfl := Except.ok.inj hret
      obtain rfl := RunStore.runId_of_runRecord hrec
      have hrelabelled : Relabelled job.1 (job.1.replaceLabels record.runId .bound
          (labels.insertionSort fun a b => a.key ≤ b.key))
          ({ record with updatedAt := at_ } : RunRecord).runId := relabelled_replaceLabels
      refine told_save hrelabelled hs hrec rfl rfl (set_of_row (r := record) hst hrec) (by simp) ?_ (.inr ⟨rfl, rfl⟩)
        (by simp [Prior.none]) (by simp [Prior.none])
      intro e hchange hview
      have hlabels := congrArg RunView.labels hview
      simp only [rowView, RunEvent.view] at hlabels
      simp only [RunView.after, hchange, rowView, hlabels]

theorem told_replaceOpen {run : SupervisedRun} (hst : Stored s)
    (h : replaceOpen s run at_ = .ok job) : Told (s, RunChanges.empty) job := by
  unfold replaceOpen at h
  split at h
  · obtain rfl := Except.ok.inj h
    exact .refl
  · rename_i open_ hopen
    split at h
    · obtain rfl := Except.ok.inj h
      exact .refl
    · exact told_moveOwner hst (row_of_openProcessRun hst hopen) h

/-- A reopened Run: its row is the one that was written. -/
theorem told_reopen {existing : RunRecord} (hst : Stored job.1)
    (hrow : job.1.runRecord existing.runId = some existing)
    (h : reopen job existing at_ = .ok (job', r)) :
    Told job job' ∧ r.runId = existing.runId ∧ job'.1.runRecord r.runId = some r := by
  unfold reopen at h
  split at h
  · rename_i hended
    dsimp only at h
    obtain ⟨s', hs, hret⟩ := bind_ok h
    obtain ⟨rfl, rfl⟩ := Prod.mk.inj (Except.ok.inj hret)
    have hset := set_of_row hst hrow
    have hended : existing.status = .ended := by simpa [RunRecord.isEnded] using hended
    refine ⟨?_, rfl, ?_⟩
    · refine told_save .refl hs hrow rfl rfl hset (by simp) ?_ (.inl (by rw [hended]))
        (by simp [Prior.none]) (by simp [Prior.none])
      intro e hchange hview
      have hstatus := congrArg RunView.status hview
      have hanomalies := congrArg RunView.anomalies hview
      simp only [rowView, RunEvent.view] at hstatus hanomalies
      simp only [RunView.after, hchange, rowView, hstatus, hanomalies, boundLabels_saveRun hs]
    · rw [RunStore.runRecord_saveRun_self hs hrow]
      simp only [RunStore.overwrite, hset]
  · obtain ⟨rfl, rfl⟩ := Prod.mk.inj (Except.ok.inj h)
    exact ⟨.refl, rfl, hrow⟩

/-- **A launch or an adoption** tells what it changes. -/
theorem told_ensureSupervised {run : SupervisedRun} (hst : Stored s)
    (h : ensureSupervised s run at_ = .ok job) : Told (s, RunChanges.empty) job := by
  obtain ⟨mid, hmid, hrest⟩ := bind_ok h
  have hst₁ : Stored mid.1 := (noted_conduct.replaceOpen hmid).stored hst
  refine (told_replaceOpen hst hmid).trans ?_
  split at hrest
  · rename_i existing hrec _
    have hrow : mid.1.runRecord existing.runId = some existing := by
      rw [RunStore.runId_of_runRecord hrec]
      exact hrec
    obtain ⟨⟨opened, kept⟩, hopen, hrest⟩ := bind_ok hrest
    obtain ⟨synced, hsync, hlabels⟩ := bind_ok hrest
    obtain ⟨htold, -, hrow'⟩ := told_reopen hst₁ hrow hopen
    have hst₂ := (noted_conduct.reopen hopen).stored hst₁
    have hst₃ := (noted_conduct.syncDepth hsync).stored hst₂
    exact (htold.trans (told_syncDepth hst₂ hrow' hsync)).trans
      (told_syncBoundLabels hst₃ hlabels)
  · dsimp only at hrest
    obtain ⟨s', hs, hret⟩ := bind_ok hrest
    obtain rfl := Except.ok.inj hret
    have hset : Anomaly.normalize (NewRun.mk (supervisedRecord run at_) run.labels
        RunLimits.empty none).record.anomalies = [] := rfl
    exact told_insert hs hset rfl

theorem told_openChild {request : ChildRunRequest} {opened : RunId}
    (h : openChild s request id at_ = .ok (opened, job)) : Told (s, RunChanges.empty) job := by
  unfold openChild at h
  split at h
  · obtain ⟨-, rfl⟩ := Prod.mk.inj (Except.ok.inj h)
    exact .refl
  · obtain ⟨parent, -, h⟩ := bind_ok h
    obtain ⟨⟨⟩, -, h⟩ := bind_ok h
    obtain ⟨labels, -, h⟩ := bind_ok h
    obtain ⟨s', hs, h⟩ := bind_ok h
    obtain ⟨-, rfl⟩ := Prod.mk.inj (Except.ok.inj h)
    have hins : ((s, RunChanges.empty) : Job).1.insertRun _ = .ok s' := mapError_ok hs
    exact told_insert hins rfl rfl

/-! ### Every operation -/

/-- The events of a job; one that was rolled back has none. -/
def jobEvents {ε : Type} : Except ε Job → List RunEvent
  | .ok job => job.2.events
  | .error _ => []

/-- The events an operation of the registry hands over. -/
def RunOp.events (s : RunStore) (at_ : Timestamp) : RunOp → List RunEvent
  | .launch name restart minted wirePath labels =>
      let run := launchRun s name restart minted wirePath labels
      jobEvents (Runs.ensureSupervised (setSpawnRunId s name run.runId) run at_)
  | .adopt name wirePath labels =>
      match s.spawnRunId name with
      | none => []
      | some id => jobEvents (Runs.ensureSupervised s ⟨name, id, wirePath, labels, false⟩ at_)
  | .transition name newState fate cause =>
      jobEvents (Runs.projectTransition s name newState fate cause at_)
  | .openChild request minted => jobEvents ((Runs.openChild s request minted at_).map Prod.snd)
  | .close id => jobEvents (Runs.close s id at_)
  | .syncDepth id depth wirePath =>
      match s.runRecord id with
      | none => []
      | some record => jobEvents (Runs.syncDepth (s, RunChanges.empty) record depth wirePath at_)
  | .syncBoundLabels id labels =>
      jobEvents (Runs.syncBoundLabels (s, RunChanges.empty) id labels at_)
  | .markBreach id => jobEvents (Runs.markBreach s id at_)
  | .endRunsWithoutAProcess state => jobEvents (Runs.endRunsWithoutAProcess s state at_)
  | .register _ | .settle _ | .ensureRunRow _ _ => []

/-- The bound labels of an instance: one for each key. -/
structure BoundLabels (labels : List Label) : Prop where
  keys : (labels.map Label.key).Nodup
  bound : ∀ l ∈ labels, l.source = .bound

/-- An operation on registered Runs: the labels it binds are bound labels of an instance, and it
gives no row to a Run id that has none. -/
def RunOp.Registered (s : RunStore) : RunOp → Prop
  | .launch _ _ _ _ labels => BoundLabels labels
  | .adopt _ _ labels => BoundLabels labels
  | .syncBoundLabels _ labels => BoundLabels labels
  | .ensureRunRow id _ => (s.runRecord id).isSome
  | _ => True

theorem Told.streams (h : Told (s, RunChanges.empty) job) : Streams s job.1 job.2.events := by
  obtain ⟨es, he, hs⟩ := h
  rw [he]
  exact hs

theorem commitJob_streams {ε : Type} {x : Except ε Job}
    (hok : ∀ job, x = .ok job → Streams s job.1 job.2.events) :
    Streams s (commitJob s x) (jobEvents x) := by
  cases x with
  | error err => exact Leads.refl
  | ok job => exact hok job rfl

/-- A row is not given to an id that has one. -/
theorem ensureRunRow_of_row {name : InstanceName} (h : (s.runRecord id).isSome) :
    s.ensureRunRow id name at_ = s := by
  unfold RunStore.ensureRunRow
  split
  · rename_i s' hins
    have hfresh := RunStore.insertRun_fresh hins
    change s.runRecord id = none at hfresh
    rw [hfresh] at h
    cases h
  · rfl

/-- **Every operation on registered Runs tells what it changes.** -/
theorem RunOp.told (op : RunOp) (hst : Stored s) (hop : op.Registered s) (at_ : Timestamp) :
    Streams s (op.apply s at_) (op.events s at_) := by
  cases op with
  | register name => exact Leads.refl
  | launch name restart minted wirePath labels =>
      refine commitJob_streams fun job hok => ?_
      exact (told_ensureSupervised (s := setSpawnRunId s name _) ⟨hst.keys, hst.sets⟩ hok).streams
  | adopt name wirePath labels =>
      simp only [RunOp.apply, RunOp.events]
      cases s.spawnRunId name with
      | none => exact Leads.refl
      | some id => exact commitJob_streams fun job hok => (told_ensureSupervised hst hok).streams
  | transition name newState fate cause =>
      exact commitJob_streams fun job hok => (told_projectTransition hst hok).streams
  | openChild request minted =>
      refine commitJob_streams fun job hok => ?_
      cases hc : Runs.openChild s request minted at_ with
      | error err =>
          rw [hc] at hok
          simp [Except.map] at hok
      | ok opened =>
          rw [hc] at hok
          obtain rfl := Except.ok.inj hok
          exact (told_openChild hc).streams
  | close id => exact commitJob_streams fun job hok => (told_close hok).streams
  | syncDepth id depth wirePath =>
      simp only [RunOp.apply, RunOp.events]
      cases hrec : s.runRecord id with
      | none => exact Leads.refl
      | some record =>
          obtain rfl := RunStore.runId_of_runRecord hrec
          have hst₀ : Stored ((s, RunChanges.empty) : Job).1 := hst
          exact commitJob_streams fun job hok => (told_syncDepth hst₀ hrec hok).streams
  | syncBoundLabels id labels =>
      have hst₀ : Stored ((s, RunChanges.empty) : Job).1 := hst
      exact commitJob_streams fun job hok => (told_syncBoundLabels hst₀ hok).streams
  | markBreach id => exact commitJob_streams fun job hok => (told_markBreach hok).streams
  | endRunsWithoutAProcess state =>
      exact commitJob_streams fun job hok => (told_endRunsWithoutAProcess hst hok).streams
  | settle name => exact Leads.refl
  | ensureRunRow id name =>
      simp only [RunOp.apply, RunOp.events, ensureRunRow_of_row hop]
      exact Leads.refl

/-! ### Operations without an effect -/

/-- A row that differs is seen to differ. -/
theorem storedView_ne (hr : s.runRecord id = some r) (hq : s'.runRecord id = some q)
    (hne : q.status ≠ r.status ∨ q.anomalies ≠ r.anomalies ∨
      ¬ (q.controlDepth = r.controlDepth ∧ q.wirePath = r.wirePath)) :
    storedView s' ≠ storedView s := by
  intro h
  have hview := congrFun h id
  rw [storedView_some hr, storedView_some hq, Option.some.injEq] at hview
  simp only [rowView, RunView.mk.injEq] at hview
  tauto

theorem storedView_ne_labels (hr : s.runRecord id = some r) (hq : s'.runRecord id = some q)
    (hne : boundLabels s' id ≠ boundLabels s id) : storedView s' ≠ storedView s := by
  intro h
  have hview := congrFun h id
  rw [storedView_some hr, storedView_some hq, Option.some.injEq] at hview
  have hlabels := congrArg RunView.labels hview
  simp only [rowView, RunStore.runId_of_runRecord hr, RunStore.runId_of_runRecord hq] at hlabels
  exact hne hlabels

/-- A move that writes is seen in the row of its Run. -/
theorem moveTo_stirs {anomalies : List Anomaly} {cause : Option String}
    (hrow : job.1.runRecord record.runId = some record)
    (h : moveTo job record status anomalies cause at_ = .ok job') :
    (job' = job ∧ record.status = status) ∨
    ∃ q, job'.1.runRecord record.runId = some q ∧ q.processOwner = record.processOwner ∧
      q.status = status ∧ (q.status ≠ record.status ∨ q.anomalies ≠ record.anomalies) := by
  unfold moveTo at h
  dsimp only at h
  split at h
  · rename_i hsame
    exact .inl ⟨(Except.ok.inj h).symm, hsame.1⟩
  · rename_i hdiff
    obtain ⟨s', hs, hret⟩ := bind_ok h
    obtain rfl := Except.ok.inj hret
    obtain ⟨-, -, -, -, hstatus, hanomalies⟩ :=
      movedRecord_columns record status (Anomaly.normalize anomalies) cause at_
    have hid : (movedRecord record status (Anomaly.normalize anomalies) cause at_).runId =
        record.runId := movedRecord_runId
    have hself := RunStore.runRecord_saveRun_self hs (hid ▸ hrow)
    rw [hid] at hself
    refine .inr ⟨_, hself, rfl, hstatus, ?_⟩
    by_contra hsame
    rw [not_or, not_not, not_not] at hsame
    refine hdiff ⟨(hstatus.symm.trans hsame.1).symm, ?_⟩
    have hset : (RunStore.overwrite
        (movedRecord record status (Anomaly.normalize anomalies) cause at_) record).anomalies =
          Anomaly.normalize anomalies := by
      simp only [RunStore.overwrite, hanomalies, Anomaly.normalize_normalize]
    rw [← hset]
    exact hsame.2.symm

/-- Moving an owner is seen in its row, whatever the Runs that share its process do. -/
theorem moveOwner_stirs {anomalies : List Anomaly} {cause : Option String} {stopped : Bool}
    (hst : Stored job.1) (hrow : job.1.runRecord record.runId = some record)
    (hown : record.processOwner = true)
    (h : moveOwner job record status anomalies cause stopped at_ = .ok job') :
    (job' = job ∧ record.status = status) ∨
    ∃ q, job'.1.runRecord record.runId = some q ∧ q.processOwner = record.processOwner ∧
      q.status = status ∧ (q.status ≠ record.status ∨ q.anomalies ≠ record.anomalies) := by
  obtain ⟨mid, hmid, hrest⟩ := bind_ok h
  have hkeys := ((noted_conduct.moveTo hmid).stored hst).keys
  unfold cascade at hrest
  rcases moveTo_stirs hrow hmid with ⟨rfl, hsame⟩ | ⟨q, hq, hqown, hstatus, hne⟩
  · rw [if_pos hsame] at hrest
    exact .inl ⟨(Except.ok.inj hrest).symm, hsame⟩
  · refine .inr ⟨q, ?_, hqown, hstatus, hne⟩
    split at hrest
    · obtain rfl := Except.ok.inj hrest
      exact hq
    · rw [cascade_fold_frame _ hrest, hq]
      intro hmem
      obtain ⟨c, hc, hcid⟩ := List.mem_map.1 hmem
      obtain ⟨hin, -, -, hno, -, -⟩ := (RunStore.mem_openInProcessDescendants hkeys).1 hc
      have hrow' := hkeys.runRecord hin
      rw [hcid, hq, Option.some.injEq] at hrow'
      rw [← hrow', hqown, hown] at hno
      cases hno

/-- A job that has events is seen to have changed a Run. -/
def Stirs (job job' : Job) : Prop := job' = job ∨ storedView job'.1 ≠ storedView job.1

theorem stirs_moveTo {anomalies : List Anomaly} {cause : Option String}
    (hrow : job.1.runRecord record.runId = some record)
    (h : moveTo job record status anomalies cause at_ = .ok job') : Stirs job job' := by
  rcases moveTo_stirs hrow h with ⟨rfl, -⟩ | ⟨q, hq, -, -, hne⟩
  · exact .inl rfl
  · exact .inr (storedView_ne hrow hq (by tauto))

theorem stirs_moveOwner {anomalies : List Anomaly} {cause : Option String} {stopped : Bool}
    (hst : Stored job.1) (hrow : job.1.runRecord record.runId = some record)
    (hown : record.processOwner = true)
    (h : moveOwner job record status anomalies cause stopped at_ = .ok job') : Stirs job job' := by
  rcases moveOwner_stirs hst hrow hown h with ⟨rfl, -⟩ | ⟨q, hq, -, -, hne⟩
  · exact .inl rfl
  · exact .inr (storedView_ne hrow hq (by tauto))

theorem owner_of_openProcessRun {name : InstanceName} (h : s.openProcessRun name = some r) :
    r.processOwner = true ∧ r.status ≠ .ended := by
  have hopen := List.find?_some h
  simp only [RunStore.isOpenOwnerOf, RunRecord.isEnded, Bool.and_eq_true, Bool.not_eq_true',
    decide_eq_false_iff_not] at hopen
  exact hopen.1

theorem stirs_projectTransition {name : InstanceName} {newState : LifecycleState} {fate : RunFate}
    {cause : String} (hst : Stored s)
    (h : projectTransition s name newState fate cause at_ = .ok job) :
    Stirs (s, RunChanges.empty) job := by
  unfold projectTransition at h
  split at h
  · exact .inl (Except.ok.inj h).symm
  · rename_i run hrun
    split at h
    · exact .inl (Except.ok.inj h).symm
    · exact stirs_moveOwner hst (row_of_openProcessRun hst hrun) (owner_of_openProcessRun hrun).1 h

theorem stirs_markBreach (h : markBreach s id at_ = .ok job) :
    Stirs (s, RunChanges.empty) job := by
  unfold markBreach at h
  split at h
  · exact .inl (Except.ok.inj h).symm
  · rename_i record hrec
    split at h
    · exact .inl (Except.ok.inj h).symm
    · refine stirs_moveTo ?_ h
      rw [RunStore.runId_of_runRecord hrec]
      exact hrec

theorem stirs_close (h : close s id at_ = .ok job) : Stirs (s, RunChanges.empty) job := by
  unfold close at h
  split at h
  · simp [throw, throwThe, MonadExceptOf.throw] at h
  · rename_i record hrec
    split at h
    · simp [throw, throwThe, MonadExceptOf.throw] at h
    · split at h
      · exact .inl (Except.ok.inj h).symm
      · refine stirs_moveTo ?_ (mapError_ok h)
        rw [RunStore.runId_of_runRecord hrec]
        exact hrec

/-- Ending owners is seen in the row of the first, which no later one touches. -/
theorem endOwners_frame (l : List RunRecord) {job job' : Job} (hst : Stored job.1)
    (h : l.foldlM (fun job record =>
      moveOwner job record .ended record.anomalies (some "relaunch-not-run") false at_) job =
        .ok job')
    (hid : id ∉ l.map RunRecord.runId) (hr : job.1.runRecord id = some r)
    (hown : r.processOwner = true) : job'.1.runRecord id = some r := by
  induction l generalizing job with
  | nil =>
      obtain rfl := Except.ok.inj h
      exact hr
  | cons c l ih =>
      rw [List.foldlM_cons] at h
      obtain ⟨job₁, h₁, h₂⟩ := bind_ok h
      rw [List.map_cons, List.mem_cons, not_or] at hid
      refine ih ((noted_conduct.moveOwner h₁).stored hst) h₂ hid.2 ?_
      exact moveOwner_frame h₁ (fun ht => ((noted_conduct.moveTo ht).stored hst).keys) hid.1 hr
        hown

theorem stirs_endRunsWithoutAProcess {state : InstanceName → LifecycleState} (hst : Stored s)
    (h : endRunsWithoutAProcess s state at_ = .ok job) : Stirs (s, RunChanges.empty) job := by
  obtain ⟨hnd, hrows⟩ := openOwners_rows hst state
  unfold endRunsWithoutAProcess at h
  generalize openOwnersWithoutAProcess s state = l at h hnd hrows
  cases l with
  | nil => exact .inl (Except.ok.inj h).symm
  | cons c l =>
      rw [List.foldlM_cons] at h
      obtain ⟨job₁, h₁, h₂⟩ := bind_ok h
      rw [List.map_cons, List.nodup_cons] at hnd
      obtain ⟨hrow, hown, hopen⟩ := hrows c List.mem_cons_self
      have hst₀ : Stored ((s, RunChanges.empty) : Job).1 := hst
      rcases moveOwner_stirs hst₀ hrow hown h₁ with ⟨-, hsame⟩ | ⟨q, hq, hqown, -, hne⟩
      · exact absurd hsame hopen
      · have hst₁ : Stored job₁.1 := (noted_conduct.moveOwner h₁).stored hst
        have hlast := endOwners_frame l hst₁ h₂ hnd.1 hq (hqown.trans hown)
        exact .inr (storedView_ne hrow hlast (by tauto))

/-! ### Launches without an effect -/

theorem stirs_syncDepth {depth : ControlDepth} {wirePath : Bool}
    (hrow : job.1.runRecord record.runId = some record)
    (h : syncDepth job record depth wirePath at_ = .ok job') :
    job' = job ∨ ∃ q, job'.1.runRecord record.runId = some q ∧
      ¬ (q.controlDepth = record.controlDepth ∧ q.wirePath = record.wirePath) := by
  rcases syncDepth_cases h with ⟨rfl, -⟩ | ⟨hdiff, anomalies, s', -, hs, rfl⟩
  · exact .inl rfl
  · have hself := RunStore.runRecord_saveRun_self hs hrow
    refine .inr ⟨_, hself, fun hsame => hdiff ?_⟩
    exact ⟨hsame.1.symm, hsame.2.symm⟩

/-- Bound labels that are put one after another stay, in their order. -/
theorem boundRows_foldl (done rest : List Label) {rows : List (RunId × Label)}
    (hbound : BoundLabels (done ++ rest))
    (hrows : (rows.filter fun l => l.1 = id && l.2.source = .bound) =
      done.map (fun l => (id, l))) :
    ((rest.foldl (RunStore.putLabel id .bound) rows).filter
      fun l => l.1 = id && l.2.source = .bound) = (done ++ rest).map fun l => (id, l) := by
  induction rest generalizing done rows with
  | nil =>
      rw [List.append_nil]
      exact hrows
  | cons l rest ih =>
      have hsource : l.source = .bound := hbound.bound l (by simp)
      have hkeys := hbound.keys
      rw [List.map_append, List.map_cons, List.nodup_append] at hkeys
      rw [List.foldl_cons, List.append_cons done l rest]
      refine ih (done ++ [l]) (by simpa using hbound) ?_
      have hl : ({ l with source := .bound } : Label) = l := by rw [← hsource]
      rw [RunStore.putLabel, hl, List.filter_append, List.filter_filter, List.map_append]
      congr 1
      · -- the keys are distinct, so no earlier label makes room for this one
        rw [← hrows, ← List.filter_filter]
        have hall : ∀ row ∈ done.map (fun l => (id, l)),
            (!(decide (row.1 = id) && decide (row.2.key = l.key))) = true := by
          intro row hrow
          obtain ⟨d, hd, rfl⟩ := List.mem_map.1 hrow
          have hne : d.key ≠ l.key :=
            hkeys.2.2 _ (List.mem_map_of_mem hd) _ List.mem_cons_self
          simp [hne]
        rw [List.filter_comm, hrows]
        exact List.filter_eq_self.2 hall
      · simp [hsource]

/-- The rows of the bound labels of a Run after they are replaced. -/
theorem boundRows_replaceLabels {labels : List Label} (h : BoundLabels labels) :
    ((s.replaceLabels id .bound labels).labels.filter
      fun l => l.1 = id && l.2.source = .bound) = labels.map fun l => (id, l) := by
  refine boundRows_foldl [] labels h ?_
  rw [List.filter_filter, List.map_nil, List.filter_eq_nil_iff]
  intro l _ hl
  simp only [Bool.and_eq_true, Bool.not_eq_true', decide_eq_true_eq] at hl
  simp [hl.1] at hl

/-- Replacing the bound labels of a Run leaves just the new ones. -/
theorem boundLabels_replaceLabels {labels : List Label} (h : BoundLabels labels)
    (hsorted : labels.Pairwise fun a b => a.key ≤ b.key) :
    boundLabels (s.replaceLabels id .bound labels) id = labels := by
  have hrows : ((s.replaceLabels id .bound labels).labels.filter
      fun l => l.1 = id && l.2.source = .bound) = labels.map fun l => (id, l) :=
    boundRows_replaceLabels h
  have hperm : (boundLabels (s.replaceLabels id .bound labels) id).Perm labels := by
    unfold boundLabels RunStore.runLabels
    refine ((List.perm_insertionSort _ _).filter _).trans ?_
    have hmap : ((((s.replaceLabels id .bound labels).labels.filter fun l => l.1 = id).map
        Prod.snd).filter fun l => l.source = .bound) = labels := by
      rw [List.filter_map, List.filter_filter]
      have hlabels := congrArg (List.map Prod.snd) hrows
      rw [List.map_map] at hlabels
      simp only [Function.comp_def, List.map_id'] at hlabels
      refine Eq.trans (congrArg _ ?_) hlabels
      refine List.filter_congr fun l _ => ?_
      exact Bool.and_comm _ _
    rw [hmap]
  have hleft : (boundLabels (s.replaceLabels id .bound labels) id).Pairwise
      fun a b => a.key ≤ b.key := (List.pairwise_insertionSort _ _).filter _
  refine hperm.eq_of_pairwise ?_ hleft hsorted
  · intro a b ha hb hab hba
    exact List.inj_on_of_nodup_map h.keys (hperm.subset ha) hb (String.le_antisymm hab hba)

theorem BoundLabels.sorted {labels : List Label} (h : BoundLabels labels) :
    BoundLabels (labels.insertionSort fun a b => a.key ≤ b.key) := by
  have hperm := List.perm_insertionSort (fun a b : Label => a.key ≤ b.key) labels
  exact ⟨((hperm.map Label.key).nodup_iff).2 h.keys, fun l hl => h.bound l (hperm.subset hl)⟩

/-- Binding labels is seen in them; the other columns stay. -/
theorem stirs_syncBoundLabels {labels : List Label} (hl : BoundLabels labels)
    (h : syncBoundLabels job id labels at_ = .ok job') :
    (job' = job ∨ ∃ r q, job.1.runRecord id = some r ∧ job'.1.runRecord id = some q ∧
      boundLabels job'.1 id ≠ boundLabels job.1 id) ∧
    ∀ i r, job.1.runRecord i = some r → ∃ q, job'.1.runRecord i = some q ∧
      q.status = r.status ∧ q.controlDepth = r.controlDepth ∧ q.wirePath = r.wirePath := by
  unfold syncBoundLabels at h
  dsimp only at h
  split at h
  · obtain rfl := Except.ok.inj h
    exact ⟨.inl rfl, fun i r hr => ⟨r, hr, rfl, rfl, rfl⟩⟩
  · rename_i hne
    split at h
    · obtain rfl := Except.ok.inj h
      exact ⟨.inl rfl, fun i r hr => ⟨r, hr, rfl, rfl, rfl⟩⟩
    · rename_i record hrec
      obtain ⟨s', hs, hret⟩ := bind_ok h
      obtain rfl := Except.ok.inj hret
      obtain rfl := RunStore.runId_of_runRecord hrec
      have hself := RunStore.runRecord_saveRun_self hs hrec
      refine ⟨.inr ⟨record, _, hrec, hself, ?_⟩, fun i r hr => ?_⟩
      · rw [boundLabels_saveRun hs,
          boundLabels_replaceLabels hl.sorted (List.pairwise_insertionSort _ _)]
        exact fun hsame => hne hsame.symm
      · by_cases hi : i = record.runId
        · subst hi
          rw [hrec, Option.some.injEq] at hr
          subst hr
          exact ⟨_, hself, rfl, rfl, rfl⟩
        · exact ⟨r, (RunStore.runRecord_saveRun_of_ne hs hi).trans hr, rfl, rfl, rfl⟩

/-- A Run that had ended is open again, and no other row is touched. -/
theorem reopen_cases {existing : RunRecord} (hrow : job.1.runRecord existing.runId = some existing)
    (h : reopen job existing at_ = .ok (job', r)) :
    (existing.status ≠ .ended ∧ job' = job ∧ r = existing) ∨
    (existing.status = .ended ∧ (∃ q, job'.1.runRecord existing.runId = some q ∧
      q.status = .active) ∧
      ∀ i, i ≠ existing.runId → job'.1.runRecord i = job.1.runRecord i) := by
  unfold reopen at h
  split at h
  · rename_i hended
    dsimp only at h
    obtain ⟨s', hs, hret⟩ := bind_ok h
    obtain ⟨rfl, rfl⟩ := Prod.mk.inj (Except.ok.inj hret)
    have hself := RunStore.runRecord_saveRun_self hs hrow
    exact .inr ⟨by simpa [RunRecord.isEnded] using hended, ⟨_, hself, rfl⟩,
      fun i hi => RunStore.runRecord_saveRun_of_ne hs hi⟩
  · rename_i hopen
    obtain ⟨rfl, rfl⟩ := Prod.mk.inj (Except.ok.inj h)
    exact .inl ⟨by simpa [RunRecord.isEnded] using hopen, rfl, rfl⟩

/-- Keeping a Run is seen in it, and the status of no other Run changes. -/
theorem stirs_keep {existing : RunRecord} {run : SupervisedRun} {opened synced : Job}
    (hst : Stored job.1) (hl : BoundLabels run.labels)
    (hrow : job.1.runRecord existing.runId = some existing) (hid : existing.runId = run.runId)
    (hopen : reopen job existing at_ = .ok (opened, r))
    (hsync : syncDepth opened r .supervised run.wirePath at_ = .ok synced)
    (hlabels : syncBoundLabels synced run.runId run.labels at_ = .ok job') :
    Stirs job job' ∧ ∀ i q, i ≠ run.runId → job.1.runRecord i = some q →
      ∃ q', job'.1.runRecord i = some q' ∧ q'.status = q.status := by
  obtain ⟨-, hrid, hrow'⟩ := told_reopen hst hrow hopen
  have hdepth := syncDepth_restatus hsync hrow' rfl rfl rfl
  obtain ⟨hbound, hcolumns⟩ := stirs_syncBoundLabels hl hlabels
  have hstatus : ∀ i q, opened.1.runRecord i = some q →
      ∃ q', job'.1.runRecord i = some q' ∧ q'.status = q.status := by
    intro i q hq
    obtain ⟨q₁, hq₁, hmoved⟩ := hdepth.row hq
    obtain ⟨q₂, hq₂, hsame, -⟩ := hcolumns i q₁ hq₁
    exact ⟨q₂, hq₂, hsame.trans hmoved.status⟩
  rcases reopen_cases hrow hopen with ⟨-, rfl, rfl⟩ | ⟨hended, ⟨q, hq, hactive⟩, hframe⟩
  · refine ⟨?_, fun i q _ hq => hstatus i q hq⟩
    rcases stirs_syncDepth hrow hsync with rfl | ⟨q, hq, hne⟩
    · rcases hbound with rfl | ⟨x, y, hx, hy, hne⟩
      · exact .inl rfl
      · exact .inr (storedView_ne_labels hx hy hne)
    · obtain ⟨q', hq', -, hdepth', hwire'⟩ := hcolumns _ q hq
      refine .inr (storedView_ne hrow hq' (.inr (.inr ?_)))
      rwa [hdepth', hwire']
  · obtain ⟨q', hq', hsame⟩ := hstatus _ q hq
    refine ⟨.inr (storedView_ne hrow hq' (.inl ?_)), fun i p hi hp => ?_⟩
    · rw [hsame, hactive, hended]
      decide
    · exact hstatus i p ((hframe i (hid ▸ hi)).trans hp)

theorem stirs_insert {run : NewRun} (hs : s.insertRun run = .ok s') :
    storedView s' ≠ storedView s := by
  intro hsame
  have hview := congrFun hsame run.record.runId
  rw [storedView, storedView, RunStore.insertRun_fresh hs, RunStore.runRecord_insertRun hs,
    if_pos rfl] at hview
  cases hview

/-- **A launch or an adoption that has events changes a Run.** -/
theorem stirs_ensureSupervised {run : SupervisedRun} (hst : Stored s)
    (hl : BoundLabels run.labels) (h : ensureSupervised s run at_ = .ok job) :
    Stirs (s, RunChanges.empty) job := by
  obtain ⟨mid, hmid, hrest⟩ := bind_ok h
  have hst₁ : Stored mid.1 := (noted_conduct.replaceOpen hmid).stored hst
  -- what the second half does: it is seen in the Run, and keeps the status of the others
  have hhalf : Stirs mid job ∧ ∀ i q, i ≠ run.runId → mid.1.runRecord i = some q →
      ∃ q', job.1.runRecord i = some q' ∧ q'.status = q.status := by
    split at hrest
    · rename_i existing hrec _
      obtain ⟨⟨opened, kept⟩, hopen, hrest⟩ := bind_ok hrest
      obtain ⟨synced, hsync, hlabels⟩ := bind_ok hrest
      have hid := RunStore.runId_of_runRecord hrec
      exact stirs_keep hst₁ hl (hid ▸ hrec) hid hopen hsync hlabels
    · dsimp only at hrest
      obtain ⟨s', hs, hret⟩ := bind_ok hrest
      obtain rfl := Except.ok.inj hret
      refine ⟨.inr (stirs_insert hs), fun i q hi hq => ⟨q, ?_, rfl⟩⟩
      have hother : ¬ i = (supervisedRecord run at_).runId := hi
      rw [RunStore.runRecord_insertRun hs, if_neg hother]
      exact hq
  unfold replaceOpen at hmid
  split at hmid
  · obtain rfl := Except.ok.inj hmid
    exact hhalf.1
  · rename_i open_ hopen
    split at hmid
    · obtain rfl := Except.ok.inj hmid
      exact hhalf.1
    · rename_i hne
      obtain ⟨hown, hstatus⟩ := owner_of_openProcessRun hopen
      have hrow := row_of_openProcessRun hst hopen
      have hst₀ : Stored ((s, RunChanges.empty) : Job).1 := hst
      rcases moveOwner_stirs hst₀ hrow hown hmid with
        ⟨-, hsame⟩ | ⟨q, hq, -, hended, -⟩
      · exact absurd hsame hstatus
      · obtain ⟨q', hq', hsame⟩ := hhalf.2 _ q hne hq
        refine .inr (storedView_ne hrow hq' (.inl ?_))
        rw [hsame, hended]
        exact hstatus.symm

theorem stirs_openChild {request : ChildRunRequest} {opened : RunId}
    (h : openChild s request id at_ = .ok (opened, job)) : Stirs (s, RunChanges.empty) job := by
  unfold openChild at h
  split at h
  · obtain ⟨-, rfl⟩ := Prod.mk.inj (Except.ok.inj h)
    exact .inl rfl
  · obtain ⟨parent, -, h⟩ := bind_ok h
    obtain ⟨⟨⟩, -, h⟩ := bind_ok h
    obtain ⟨labels, -, h⟩ := bind_ok h
    obtain ⟨s', hs, h⟩ := bind_ok h
    obtain ⟨-, rfl⟩ := Prod.mk.inj (Except.ok.inj h)
    exact .inr (stirs_insert (mapError_ok hs))

theorem commitJob_quiet {ε : Type} {x : Except ε Job}
    (hok : ∀ job, x = .ok job → Stirs (s, RunChanges.empty) job)
    (hsame : storedView (commitJob s x) = storedView s) : jobEvents x = [] := by
  cases x with
  | error err => rfl
  | ok job =>
      rcases hok job rfl with rfl | hne
      · rfl
      · exact absurd hsame hne

/-- **An operation that changes no Run has no event.** -/
theorem RunOp.quiet (op : RunOp) (hst : Stored s) (hop : op.Registered s) (at_ : Timestamp)
    (hsame : storedView (op.apply s at_) = storedView s) : op.events s at_ = [] := by
  -- a job that writes stirs the view, so where the view stays the job was none
  cases op with
  | register name => rfl
  | launch name restart minted wirePath labels =>
      have hbound : BoundLabels (launchRun s name restart minted wirePath labels).labels := hop
      have hstirs : ∀ job, Runs.ensureSupervised (setSpawnRunId s name
          (launchRun s name restart minted wirePath labels).runId)
          (launchRun s name restart minted wirePath labels) at_ = .ok job →
          Stirs (setSpawnRunId s name (launchRun s name restart minted wirePath labels).runId,
            RunChanges.empty) job :=
        fun job hok => stirs_ensureSupervised ⟨hst.keys, hst.sets⟩ hbound hok
      simp only [RunOp.apply, RunOp.events] at hsame ⊢
      generalize hx : Runs.ensureSupervised (setSpawnRunId s name
        (launchRun s name restart minted wirePath labels).runId)
        (launchRun s name restart minted wirePath labels) at_ = x at hsame hstirs ⊢
      cases x with
      | error err => rfl
      | ok job =>
          rcases hstirs job rfl with rfl | hne
          · rfl
          · exact absurd hsame hne
  | adopt name wirePath labels =>
      simp only [RunOp.apply, RunOp.events] at hsame ⊢
      cases hspawn : s.spawnRunId name with
      | none => rfl
      | some id =>
          rw [hspawn] at hsame
          have hbound : BoundLabels (SupervisedRun.mk name id wirePath labels false).labels := hop
          exact commitJob_quiet (fun job hok => stirs_ensureSupervised hst hbound hok) hsame
  | transition name newState fate cause =>
      exact commitJob_quiet (fun job hok => stirs_projectTransition hst hok) hsame
  | openChild request minted =>
      refine commitJob_quiet (fun job hok => ?_) hsame
      cases hc : Runs.openChild s request minted at_ with
      | error err =>
          rw [hc] at hok
          simp [Except.map] at hok
      | ok opened =>
          rw [hc] at hok
          obtain rfl := Except.ok.inj hok
          exact stirs_openChild hc
  | close id => exact commitJob_quiet (fun job hok => stirs_close hok) hsame
  | syncDepth id depth wirePath =>
      simp only [RunOp.apply, RunOp.events] at hsame ⊢
      cases hrec : s.runRecord id with
      | none => rfl
      | some record =>
          rw [hrec] at hsame
          obtain rfl := RunStore.runId_of_runRecord hrec
          refine commitJob_quiet (fun job hok => ?_) hsame
          have hrow : ((s, RunChanges.empty) : Job).1.runRecord record.runId = some record := hrec
          rcases stirs_syncDepth hrow hok with rfl | ⟨q, hq, hne⟩
          · exact .inl rfl
          · exact .inr (storedView_ne hrec hq (.inr (.inr hne)))
  | syncBoundLabels id labels =>
      refine commitJob_quiet (fun job hok => ?_) hsame
      rcases (stirs_syncBoundLabels hop hok).1 with rfl | ⟨r, q, hr, hq, hne⟩
      · exact .inl rfl
      · exact .inr (storedView_ne_labels hr hq hne)
  | markBreach id => exact commitJob_quiet (fun job hok => stirs_markBreach hok) hsame
  | endRunsWithoutAProcess state =>
      exact commitJob_quiet (fun job hok => stirs_endRunsWithoutAProcess hst hok) hsame
  | settle name => rfl
  | ensureRunRow id name => rfl

end Runs

open Runs

/-! ### The stream -/

/-- The Run tables and the events so far. -/
structure RunStream where
  runs : RunStore
  events : List RunEvent

namespace RunStream

/-- An empty store, before any event. -/
def start : RunStream := ⟨RunStore.empty, []⟩

/-- One operation at its time. -/
def step (r : RunStream) (op : Timestamp × RunOp) : RunStream :=
  ⟨op.2.apply r.runs op.1, r.events ++ op.2.events r.runs op.1⟩

/-- The operation is one on registered Runs. -/
def OnRegistered (r : RunStream) (op : Timestamp × RunOp) : Prop := op.2.Registered r.runs

/-- The events so far lead to what is stored. -/
structure Tells (r : RunStream) : Prop where
  stored : Stored r.runs
  leads : Leads applyEvent InStep (fun _ => none) r.events (storedView r.runs)

theorem tells_start : start.Tells where
  stored := RunRegistry.stored_empty
  leads := Leads.refl

theorem Tells.step {r : RunStream} (h : r.Tells) {op : Timestamp × RunOp}
    (hop : r.OnRegistered op) : (r.step op).Tells where
  stored := (apply_shows op.2 r.runs op.1).stored h.stored
  leads := h.leads.append (op.2.told h.stored hop op.1)

/-- **The stream of events replays to what is stored**, after every sequence of operations on
registered Runs: applied in their order, the events give what the tables hold of every Run; every
event fits what the events before it have left, and names the status it replaces; and an operation
that changes no Run has no event. -/
theorem runStream_replays (ops : List (Timestamp × RunOp))
    (h : Guarded.Meets step OnRegistered start ops) :
    replay (ops.foldl step start).events = storedView (ops.foldl step start).runs ∧
    (∀ earlier e later, (ops.foldl step start).events = earlier ++ e :: later →
      InStep (replay earlier) e) ∧
    ∀ (op : RunOp) at_, op.Registered (ops.foldl step start).runs →
      storedView (op.apply (ops.foldl step start).runs at_) =
        storedView (ops.foldl step start).runs →
      op.events (ops.foldl step start).runs at_ = [] := by
  have hall : (ops.foldl step start).Tells :=
    Guarded.invariant (fun _ _ ht hop => ht.step hop) tells_start h Guarded.last_mem_states
  refine ⟨hall.leads.foldl_eq, fun earlier e later hsplit => ?_, fun op at_ hop hsame => ?_⟩
  · exact hall.leads.fits hsplit
  · exact op.quiet hall.stored hop at_ hsame

/-- The operations of an agent that is started, paused with a child, resumed and stopped. -/
def pausedWithChild : List (Timestamp × RunOp) :=
  [("1", .register "a"), ("2", .launch "a" false 1 false [⟨"team", "x", .bound⟩]),
    ("3", .openChild ⟨.run 1, [("task", "t")], RunLimits.empty, none⟩ 2),
    ("4", .transition "a" .paused .terminal "pause"),
    ("5", .transition "a" .running .terminal "resume"), ("6", .syncBoundLabels 1 []),
    ("7", .transition "a" .stopped .terminal "stop")]

theorem runStream_replays_paused :
    replay (pausedWithChild.foldl step start).events =
      storedView (pausedWithChild.foldl step start).runs :=
  (runStream_replays pausedWithChild
    ⟨trivial, ⟨by simp, by simp⟩, trivial, trivial, trivial, ⟨by simp, by simp⟩, trivial,
      trivial⟩).1

end RunStream

end Hekma
