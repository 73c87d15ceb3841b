/-
**What every job of the registry keeps** (`domain/runs/ops.rs`).

An operation of the registry saves, inserts or labels rows, and collects an event and an entry for
each.  A relation between jobs that is reflexive and transitive and holds across these three writes
holds across every operation.

Main definitions:

* `JobConduct` — a relation between jobs that holds across the writes.

Main results:

* `JobConduct.projectTransition`, `JobConduct.ensureSupervised`, `JobConduct.openChild` and the
  others — it holds across the operations;
* `spawn_conduct` — no operation changes the Run of a spawn record.
-/

import Hekma.Domain.Runs.Tree

set_option relaxedAutoImplicit false
set_option autoImplicit false

namespace Hekma

namespace Runs

/-- A relation that holds across the writes of the registry. -/
structure JobConduct (R : Job → Job → Prop) : Prop where
  refl : ∀ job, R job job
  trans : ∀ {a b c}, R a b → R b c → R a c
  save : ∀ job record s' kind prior cause, job.1.saveRun record = .ok s' →
    R job (s', note s' job.2 record kind prior cause)
  label : ∀ job record labels s' kind prior cause,
    (job.1.replaceLabels record.runId .bound labels).saveRun record = .ok s' →
    R job (s', note s' job.2 record kind prior cause)
  insert : ∀ job run s' kind prior cause, job.1.insertRun run = .ok s' →
    R job (s', note s' job.2 run.record kind prior cause)

namespace JobConduct

variable {R : Job → Job → Prop} {s : RunStore} {job job' : Job} {record r : RunRecord}
  {id : RunId} {status : RunStatus} {at_ : Timestamp}

theorem foldlM {α : Type} {f : Job → α → Except StoreError Job} (hR : JobConduct R) (l : List α)
    (hf : ∀ a job job', f job a = .ok job' → R job job') {job job' : Job}
    (h : l.foldlM f job = .ok job') : R job job' := by
  induction l generalizing job with
  | nil =>
      obtain rfl := Except.ok.inj h
      exact hR.refl job
  | cons a l ih =>
      rw [List.foldlM_cons] at h
      obtain ⟨mid, hmid, hrest⟩ := bind_ok h
      exact hR.trans (hf a job mid hmid) (ih hrest)

theorem moveTo (hR : JobConduct R) {anomalies : List Anomaly} {cause : Option String}
    (h : moveTo job record status anomalies cause at_ = .ok job') : R job job' := by
  unfold Runs.moveTo at h
  dsimp only at h
  split at h
  · obtain rfl := Except.ok.inj h
    exact hR.refl job
  · obtain ⟨s', hs, hret⟩ := bind_ok h
    obtain rfl := Except.ok.inj hret
    exact hR.save _ _ _ _ _ _ hs

theorem cascadeChild (hR : JobConduct R) {to_ : RunStatus} {stopped : Bool}
    (h : cascadeChild to_ stopped at_ job record = .ok job') : R job job' := by
  unfold Runs.cascadeChild at h
  split at h
  · exact hR.moveTo h
  · split at h
    · exact hR.moveTo h
    · split at h
      · exact hR.moveTo h
      · obtain rfl := Except.ok.inj h
        exact hR.refl job

theorem moveOwner (hR : JobConduct R) {anomalies : List Anomaly} {cause : Option String}
    {stopped : Bool} (h : moveOwner job record status anomalies cause stopped at_ = .ok job') :
    R job job' := by
  obtain ⟨mid, hmid, hrest⟩ := bind_ok h
  refine hR.trans (hR.moveTo hmid) ?_
  unfold cascade at hrest
  split at hrest
  · obtain rfl := Except.ok.inj hrest
    exact hR.refl mid
  · exact hR.foldlM _ (fun _ _ _ h => hR.cascadeChild h) hrest

theorem projectTransition (hR : JobConduct R) {name : InstanceName} {newState : LifecycleState}
    {fate : RunFate} {cause : String}
    (h : projectTransition s name newState fate cause at_ = .ok job) :
    R (s, RunChanges.empty) job := by
  unfold Runs.projectTransition at h
  split at h
  · obtain rfl := Except.ok.inj h
    exact hR.refl _
  · split at h
    · obtain rfl := Except.ok.inj h
      exact hR.refl _
    · exact hR.moveOwner h

theorem syncDepth (hR : JobConduct R) {depth : ControlDepth} {wirePath : Bool}
    (h : syncDepth job record depth wirePath at_ = .ok job') : R job job' := by
  unfold Runs.syncDepth at h
  split at h
  · obtain rfl := Except.ok.inj h
    exact hR.refl job
  · dsimp only at h
    obtain ⟨s', hs, hret⟩ := bind_ok h
    obtain rfl := Except.ok.inj hret
    exact hR.save _ _ _ _ _ _ hs

theorem syncBoundLabels (hR : JobConduct R) {labels : List Label}
    (h : syncBoundLabels job id labels at_ = .ok job') : R job job' := by
  unfold Runs.syncBoundLabels at h
  dsimp only at h
  split at h
  · obtain rfl := Except.ok.inj h
    exact hR.refl job
  · split at h
    · obtain rfl := Except.ok.inj h
      exact hR.refl job
    · rename_i record hrec
      obtain ⟨s', hs, hret⟩ := bind_ok h
      obtain rfl := Except.ok.inj hret
      rw [← RunStore.runId_of_runRecord hrec] at hs
      exact hR.label job { record with updatedAt := at_ } _ _ _ _ _ hs

theorem replaceOpen (hR : JobConduct R) {run : SupervisedRun}
    (h : replaceOpen s run at_ = .ok job) : R (s, RunChanges.empty) job := by
  unfold Runs.replaceOpen at h
  split at h
  · obtain rfl := Except.ok.inj h
    exact hR.refl _
  · split at h
    · obtain rfl := Except.ok.inj h
      exact hR.refl _
    · exact hR.moveOwner h

theorem reopen (hR : JobConduct R) {existing : RunRecord}
    (h : reopen job existing at_ = .ok (job', r)) : R job job' := by
  unfold Runs.reopen at h
  split at h
  · dsimp only at h
    obtain ⟨s', hs, hret⟩ := bind_ok h
    obtain ⟨rfl, -⟩ := Prod.mk.inj (Except.ok.inj hret)
    exact hR.save _ _ _ _ _ _ hs
  · obtain ⟨rfl, -⟩ := Prod.mk.inj (Except.ok.inj h)
    exact hR.refl job

theorem ensureSupervised (hR : JobConduct R) {run : SupervisedRun}
    (h : ensureSupervised s run at_ = .ok job) : R (s, RunChanges.empty) job := by
  obtain ⟨mid, hmid, hrest⟩ := bind_ok h
  refine hR.trans (hR.replaceOpen hmid) ?_
  split at hrest
  · obtain ⟨⟨opened, existing⟩, hopen, hrest⟩ := bind_ok hrest
    obtain ⟨synced, hsync, hlabels⟩ := bind_ok hrest
    exact hR.trans (hR.trans (hR.reopen hopen) (hR.syncDepth hsync)) (hR.syncBoundLabels hlabels)
  · dsimp only at hrest
    obtain ⟨s', hs, hret⟩ := bind_ok hrest
    obtain rfl := Except.ok.inj hret
    exact hR.insert _ _ _ _ _ _ hs

theorem markBreach (hR : JobConduct R) (h : markBreach s id at_ = .ok job) :
    R (s, RunChanges.empty) job := by
  unfold Runs.markBreach at h
  split at h
  · obtain rfl := Except.ok.inj h
    exact hR.refl _
  · split at h
    · obtain rfl := Except.ok.inj h
      exact hR.refl _
    · exact hR.moveTo h

theorem openChild (hR : JobConduct R) {request : ChildRunRequest} {opened : RunId}
    (h : openChild s request id at_ = .ok (opened, job)) : R (s, RunChanges.empty) job := by
  unfold Runs.openChild at h
  split at h
  · obtain ⟨-, rfl⟩ := Prod.mk.inj (Except.ok.inj h)
    exact hR.refl _
  · obtain ⟨parent, -, h⟩ := bind_ok h
    obtain ⟨⟨⟩, -, h⟩ := bind_ok h
    obtain ⟨labels, -, h⟩ := bind_ok h
    obtain ⟨s', hs, h⟩ := bind_ok h
    obtain ⟨-, rfl⟩ := Prod.mk.inj (Except.ok.inj h)
    have hins : ((s, RunChanges.empty) : Job).1.insertRun _ = .ok s' := mapError_ok hs
    exact hR.insert _ _ _ _ _ _ hins

theorem close (hR : JobConduct R) (h : close s id at_ = .ok job) :
    R (s, RunChanges.empty) job := by
  unfold Runs.close at h
  split at h
  · simp [throw, throwThe, MonadExceptOf.throw] at h
  · split at h
    · simp [throw, throwThe, MonadExceptOf.throw] at h
    · split at h
      · obtain rfl := Except.ok.inj h
        exact hR.refl _
      · exact hR.moveTo (mapError_ok h)

theorem endRunsWithoutAProcess (hR : JobConduct R) {state : InstanceName → LifecycleState}
    (h : endRunsWithoutAProcess s state at_ = .ok job) : R (s, RunChanges.empty) job :=
  hR.foldlM _ (fun _ _ _ h => hR.moveOwner h) h

end JobConduct

/-! ### The Run of a spawn record -/

/-- **No operation of the registry changes the Run of a spawn record.** -/
theorem spawn_conduct : JobConduct fun job job' => job'.1.spawnRunId = job.1.spawnRunId where
  refl _ := rfl
  trans h h' := h'.trans h
  save _ _ _ _ _ _ hs := by
    obtain ⟨old, -, -, rfl⟩ := RunStore.saveRun_ok hs
    rfl
  label _ _ _ _ _ _ _ hs := by
    obtain ⟨old, -, -, rfl⟩ := RunStore.saveRun_ok hs
    rfl
  insert _ _ _ _ _ _ hs := (RunStore.insertRun_ok hs).2.2.1

theorem spawn_ensureRunRow (s : RunStore) (id : RunId) (name : InstanceName) (at_ : Timestamp) :
    (s.ensureRunRow id name at_).spawnRunId = s.spawnRunId := by
  unfold RunStore.ensureRunRow
  split
  · rename_i s' hins
    exact (RunStore.insertRun_ok hins).2.2.1
  · rfl

end Runs

end Hekma
