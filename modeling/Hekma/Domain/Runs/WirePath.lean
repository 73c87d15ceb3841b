/-
**The wire path of the Runs that share a process** (`domain/runs/ops.rs`).

A child Run is opened with the wire path of its parent, since the traffic of both crosses the same
listener or none.  A relaunch or an adoption whose process is metered the other way writes the new
path to the owner of the process, and to no other Run: an open child keeps the old one.  So the
paths agree for as long as no kept owner changes its path above an open child.

Main definitions:

* `PathKept` — no row changes its path, and no Run is reopened;
* `Follows` — every open Run has the path of its root;
* `RunOp.KeepsPaths` — the operation changes the path of no owner above an open child.

Main results:

* `moveOwner_pathKept`, `endOwners_pathKept` — the moves change no path;
* `Follows.saveRun`, `Follows.insertRun` — what the writes keep;
* `Follows.apply` — **one operation**;
* `wirePath_follows` — **the path of every open child is its owner's**, in every run of such
  operations;
* `relaunched_elsewhere` — a relaunch that leaves an open child behind.
-/

import Hekma.Lib.Guarded
import Hekma.Domain.Runs.Jobs

set_option relaxedAutoImplicit false
set_option autoImplicit false

namespace Hekma

namespace Runs

variable {s s' s'' : RunStore} {job job' : Job} {record r q : RunRecord} {id o : RunId}
  {status : RunStatus} {at_ : Timestamp}

/-! ### Moves change no path -/

/-- Every row keeps its place and its path, and an ended Run stays ended. -/
structure RowKept (r r' : RunRecord) : Prop where
  parent : r'.parentRunId = r.parentRunId
  path : r'.wirePath = r.wirePath
  ended : r.status = .ended → r'.status = .ended

/-- No row changes its path, and no Run is reopened. -/
def PathKept (s s' : RunStore) : Prop :=
  ∀ id, Option.Rel RowKept (s.runRecord id) (s'.runRecord id)

theorem PathKept.refl (s : RunStore) : PathKept s s := by
  intro id
  cases s.runRecord id with
  | none => exact .none
  | some r => exact .some ⟨rfl, rfl, fun h => h⟩

theorem PathKept.trans (h : PathKept s s') (h' : PathKept s' s'') : PathKept s s'' := by
  intro id
  have hrow := h id
  have hrow' := h' id
  revert hrow hrow'
  generalize s.runRecord id = x
  generalize s'.runRecord id = y
  generalize s''.runRecord id = z
  rintro (hab | _) (hbc | _)
  · exact .some ⟨hbc.parent.trans hab.parent, hbc.path.trans hab.path, hbc.ended ∘ hab.ended⟩
  · exact .none

/-- The row of a Run before a change that keeps the paths. -/
theorem PathKept.row_of (h : PathKept s s') (hr : s'.runRecord id = some r) :
    ∃ r₀, s.runRecord id = some r₀ ∧ RowKept r₀ r := by
  have hrow := h id
  rw [hr] at hrow
  generalize s.runRecord id = x at hrow
  obtain hm | _ := hrow
  exact ⟨_, rfl, hm⟩

theorem PathKept.row (h : PathKept s s') (hr : s.runRecord id = some r) :
    ∃ r', s'.runRecord id = some r' ∧ RowKept r r' := by
  have hrow := h id
  rw [hr] at hrow
  generalize s'.runRecord id = x at hrow
  obtain hm | _ := hrow
  exact ⟨_, rfl, hm⟩

theorem PathKept.parentOf (h : PathKept s s') : s'.parentOf = s.parentOf := by
  funext id
  unfold RunStore.parentOf
  have hrow := h id
  revert hrow
  generalize s.runRecord id = x
  generalize s'.runRecord id = y
  rintro (hm | _)
  · exact hm.parent
  · rfl

/-- The keys of the rows stay unique across every job. -/
theorem keys_conduct : JobConduct fun job job' => job.1.KeyUnique → job'.1.KeyUnique where
  refl _ h := h
  trans h h' := h' ∘ h
  save _ _ _ _ _ _ hs hk := hk.saveRun hs
  label job record labels _ _ _ _ hs hk := by
    have hk' : (job.1.replaceLabels record.runId .bound labels).KeyUnique := hk
    exact hk'.saveRun hs
  insert _ _ _ _ _ _ hs hk := hk.insertRun hs

/-- Rewriting a row with its own path, not reopening it. -/
theorem saveRun_pathKept (h : s.saveRun record = .ok s')
    (hold : s.runRecord record.runId = some r) (hpath : record.wirePath = r.wirePath)
    (hended : r.status = .ended → record.status = .ended) : PathKept s s' := by
  intro id
  by_cases hid : id = record.runId
  · subst hid
    rw [RunStore.runRecord_saveRun_self h hold, hold]
    exact .some ⟨rfl, hpath, hended⟩
  · rw [RunStore.runRecord_saveRun_of_ne h hid]
    exact PathKept.refl s id

@[simp] theorem movedRecord_wirePath {anomalies : List Anomaly} {cause : Option String} :
    (movedRecord record status anomalies cause at_).wirePath = record.wirePath := by
  unfold movedRecord
  split <;> rfl

@[simp] theorem movedRecord_status {anomalies : List Anomaly} {cause : Option String} :
    (movedRecord record status anomalies cause at_).status = status := by
  unfold movedRecord
  split <;> rfl

theorem moveTo_pathKept {anomalies : List Anomaly} {cause : Option String}
    (h : moveTo job record status anomalies cause at_ = .ok job')
    (hrec : job.1.runRecord record.runId = some record)
    (hended : record.status = .ended → status = .ended) : PathKept job.1 job'.1 := by
  unfold moveTo at h
  dsimp only at h
  split at h
  · obtain rfl := Except.ok.inj h
    exact .refl _
  · obtain ⟨s', hs', hret⟩ := bind_ok h
    obtain rfl := Except.ok.inj hret
    refine saveRun_pathKept hs' (by rw [movedRecord_runId]; exact hrec) movedRecord_wirePath ?_
    rw [movedRecord_status]
    exact hended

theorem cascadeChild_pathKept {to_ : RunStatus} {stopped : Bool}
    (h : cascadeChild to_ stopped at_ job record = .ok job')
    (hrec : job.1.runRecord record.runId = some record) (hopen : record.status ≠ .ended) :
    PathKept job.1 job'.1 := by
  unfold cascadeChild at h
  split at h
  · exact moveTo_pathKept h hrec fun he => absurd he hopen
  · split at h
    · exact moveTo_pathKept h hrec fun he => absurd he hopen
    · split at h
      · exact moveTo_pathKept h hrec fun _ => rfl
      · obtain rfl := Except.ok.inj h
        exact .refl _

/-- Moving a list of distinct open Runs one after the other. -/
theorem cascade_fold_pathKept {to_ : RunStatus} {stopped : Bool} (l : List RunRecord)
    {job job' : Job} (h : l.foldlM (cascadeChild to_ stopped at_) job = .ok job')
    (hnd : (l.map RunRecord.runId).Nodup)
    (hrec : ∀ r ∈ l, job.1.runRecord r.runId = some r ∧ r.status ≠ .ended) :
    PathKept job.1 job'.1 := by
  induction l generalizing job with
  | nil =>
      obtain rfl := Except.ok.inj h
      exact .refl _
  | cons c l ih =>
      rw [List.foldlM_cons] at h
      obtain ⟨mid, hmid, hrest⟩ := bind_ok h
      obtain ⟨hc, hopen⟩ := hrec c List.mem_cons_self
      rw [List.map_cons, List.nodup_cons] at hnd
      refine (cascadeChild_pathKept hmid hc hopen).trans (ih hrest hnd.2 fun r hr => ?_)
      -- the Runs still to come have other ids
      have hid : r.runId ≠ c.runId := fun he => hnd.1 (he ▸ List.mem_map_of_mem hr)
      rw [cascadeChild_frame hmid hid]
      exact hrec r (List.mem_cons_of_mem _ hr)

/-- Moving an owner and the Runs that share its process changes no path. -/
theorem moveOwner_pathKept {anomalies : List Anomaly} {cause : Option String} {stopped : Bool}
    (h : moveOwner job q status anomalies cause stopped at_ = .ok job') (hk : job.1.KeyUnique)
    (hq : job.1.runRecord q.runId = some q) (hended : q.status = .ended → status = .ended) :
    PathKept job.1 job'.1 := by
  obtain ⟨mid, hmid, hrest⟩ := bind_ok h
  have hmove := moveTo_pathKept hmid hq hended
  have hkeys : mid.1.KeyUnique := keys_conduct.moveTo hmid hk
  unfold cascade at hrest
  split at hrest
  · obtain rfl := Except.ok.inj hrest
    exact hmove
  · refine hmove.trans (cascade_fold_pathKept _ hrest
      (RunStore.openInProcessDescendants_nodup hkeys _) fun r hr => ?_)
    obtain ⟨hmem, -, hopen, -⟩ := (RunStore.mem_openInProcessDescendants hkeys).1 hr
    exact ⟨hkeys.runRecord hmem, hopen⟩

/-- Ending a list of open owners one after the other changes no path. -/
theorem endOwners_pathKept (l : List RunRecord) {job job' : Job} (hk : job.1.KeyUnique)
    (h : l.foldlM (fun job record =>
      moveOwner job record .ended record.anomalies (some "relaunch-not-run") false at_) job =
        .ok job')
    (hnd : (l.map RunRecord.runId).Nodup)
    (hrec : ∀ r ∈ l, job.1.runRecord r.runId = some r ∧ r.processOwner = true) :
    PathKept job.1 job'.1 := by
  induction l generalizing job with
  | nil =>
      obtain rfl := Except.ok.inj h
      exact .refl _
  | cons c l ih =>
      rw [List.foldlM_cons] at h
      obtain ⟨mid, hmid, hrest⟩ := bind_ok h
      obtain ⟨hc, -⟩ := hrec c List.mem_cons_self
      rw [List.map_cons, List.nodup_cons] at hnd
      refine (moveOwner_pathKept hmid hk hc fun _ => rfl).trans
        (ih (keys_conduct.moveOwner hmid hk) hrest hnd.2 fun r hr => ?_)
      obtain ⟨hrow, hown⟩ := hrec r (List.mem_cons_of_mem _ hr)
      have hne : r.runId ≠ c.runId := fun he => hnd.1 (he ▸ List.mem_map_of_mem hr)
      exact ⟨moveOwner_frame hmid (fun ht => keys_conduct.moveTo ht hk) hne hrow hown, hown⟩

/-! ### The operations that move -/

theorem projectTransition_pathKept {name : InstanceName} {newState : LifecycleState}
    {fate : RunFate} {cause : String} (hinv : TreeInv s)
    (h : projectTransition s name newState fate cause at_ = .ok job) : PathKept s job.1 := by
  unfold projectTransition at h
  split at h
  · obtain rfl := Except.ok.inj h
    exact .refl _
  · rename_i run hrun
    obtain ⟨hr, -, hopen, -⟩ := hinv.openProcessRun hrun
    split at h
    · obtain rfl := Except.ok.inj h
      exact .refl _
    · exact moveOwner_pathKept h hinv.keys hr fun he => absurd he hopen

theorem replaceOpen_pathKept {run : SupervisedRun} (hinv : TreeInv s)
    (h : replaceOpen s run at_ = .ok job) : PathKept s job.1 := by
  unfold replaceOpen at h
  split at h
  · obtain rfl := Except.ok.inj h
    exact .refl _
  · rename_i open_ hopen
    split at h
    · obtain rfl := Except.ok.inj h
      exact .refl _
    · obtain ⟨hr, -, -, -⟩ := hinv.openProcessRun hopen
      exact moveOwner_pathKept h hinv.keys hr fun _ => rfl

theorem markBreach_pathKept (h : markBreach s id at_ = .ok job) : PathKept s job.1 := by
  unfold markBreach at h
  split at h
  · obtain rfl := Except.ok.inj h
    exact .refl _
  · rename_i record hrec
    split at h
    · obtain rfl := Except.ok.inj h
      exact .refl _
    · refine moveTo_pathKept h ?_ fun he => he
      rw [RunStore.runId_of_runRecord hrec]
      exact hrec

theorem close_pathKept (h : close s id at_ = .ok job) : PathKept s job.1 := by
  unfold close at h
  split at h
  · exact absurd h (by simp [throw, throwThe, MonadExceptOf.throw])
  · rename_i record hrec
    split at h
    · exact absurd h (by simp [throw, throwThe, MonadExceptOf.throw])
    · split at h
      · obtain rfl := Except.ok.inj h
        exact .refl _
      · refine moveTo_pathKept (mapError_ok h) ?_ fun _ => rfl
        rw [RunStore.runId_of_runRecord hrec]
        exact hrec

theorem endRunsWithoutAProcess_pathKept {state : InstanceName → LifecycleState} (hinv : TreeInv s)
    (h : endRunsWithoutAProcess s state at_ = .ok job) : PathKept s job.1 := by
  refine endOwners_pathKept _ hinv.keys h ?_ fun r hr => ?_
  · have hperm := List.perm_insertionSort (fun a b : RunRecord => a.runId ≤ b.runId)
      (s.runs.filter fun r =>
        r.processOwner && !r.isEnded && r.instanceName.any fun name =>
          state name ∈ [.failed, .stopped, .registered])
    exact ((hperm.map RunRecord.runId).nodup_iff).2
      (hinv.keys.sublist (List.Sublist.map _ List.filter_sublist))
  · simp only [openOwnersWithoutAProcess, List.mem_insertionSort, List.mem_filter,
      Bool.and_eq_true] at hr
    exact ⟨hinv.keys.runRecord hr.1, hr.2.1.1⟩

theorem syncBoundLabels_pathKept {labels : List Label}
    (h : syncBoundLabels job id labels at_ = .ok job') : PathKept job.1 job'.1 := by
  unfold syncBoundLabels at h
  dsimp only at h
  split at h
  · obtain rfl := Except.ok.inj h
    exact .refl _
  · split at h
    · obtain rfl := Except.ok.inj h
      exact .refl _
    · rename_i record hrec
      obtain ⟨s', hs', hret⟩ := bind_ok h
      obtain rfl := Except.ok.inj hret
      -- the labels are another table: the rows are the same
      have hrow : (job.1.replaceLabels id .bound
          (labels.insertionSort fun a b => a.key ≤ b.key)).runRecord record.runId =
            some record := by
        rw [RunStore.runId_of_runRecord hrec]
        exact hrec
      have hkept := saveRun_pathKept hs' hrow rfl fun he => he
      exact fun i => hkept i

/-! ### Every open Run has the path of its root -/

/-- Every open Run has the path of its root. -/
structure Follows (s : RunStore) : Prop where
  path : ∀ {id o r q}, s.runRecord id = some r → r.status ≠ .ended →
    Forest.IsRoot s.parentOf id o → s.runRecord o = some q → r.wirePath = q.wirePath

/-- No open Run other than itself has the root `o`. -/
structure Alone (s : RunStore) (o : RunId) : Prop where
  own : ∀ {id r}, s.runRecord id = some r → r.status ≠ .ended → Forest.IsRoot s.parentOf id o →
    id = o

theorem Follows.pathKept (h : Follows s) (hs : PathKept s s') : Follows s' := by
  refine ⟨fun {id o r q} hr hopen hroot hq => ?_⟩
  obtain ⟨r₀, hr₀, hm⟩ := hs.row_of hr
  obtain ⟨q₀, hq₀, hmq⟩ := hs.row_of hq
  rw [hs.parentOf] at hroot
  rw [hm.path, hmq.path]
  exact h.path hr₀ (fun he => hopen (hm.ended he)) hroot hq₀

theorem Alone.pathKept (h : Alone s o) (hs : PathKept s s') : Alone s' o := by
  refine ⟨fun {id r} hr hopen hroot => ?_⟩
  obtain ⟨r₀, hr₀, hm⟩ := hs.row_of hr
  rw [hs.parentOf] at hroot
  exact h.own hr₀ (fun he => hopen (hm.ended he)) hroot

theorem parentOf_saveRun (h : s.saveRun record = .ok s') : s'.parentOf = s.parentOf := by
  funext id
  unfold RunStore.parentOf
  rw [RunStore.runRecord_saveRun h]
  cases s.runRecord id with
  | none => rfl
  | some r =>
      rw [Option.map_some, Option.bind_some, Option.bind_some]
      split <;> rfl

/-- Rewriting the row of an owner keeps the paths together, if it keeps its path or no open child
hangs below it. -/
theorem Follows.saveRun (h : Follows s) (hshape : TreeShape s) (hs : s.saveRun record = .ok s')
    (hold : s.runRecord record.runId = some r) (hown : r.processOwner = true)
    (hpath : record.wirePath = r.wirePath ∨ Alone s record.runId) : Follows s' := by
  refine ⟨fun {id o a q} ha hopen hroot hq => ?_⟩
  rw [parentOf_saveRun hs] at hroot
  by_cases hid : id = record.runId
  · -- the owner is its own root
    subst hid
    obtain rfl := hshape.owner_root hold hown hroot
    rw [ha, Option.some.injEq] at hq
    rw [hq]
  · rw [RunStore.runRecord_saveRun_of_ne hs hid] at ha
    by_cases ho : o = record.runId
    · subst ho
      rcases hpath with hpath | halone
      · rw [RunStore.runRecord_saveRun_self hs hold, Option.some.injEq] at hq
        rw [← hq]
        exact (h.path ha hopen hroot hold).trans hpath.symm
      · exact absurd (halone.own ha hopen hroot) hid
    · rw [RunStore.runRecord_saveRun_of_ne hs ho] at hq
      exact h.path ha hopen hroot hq

/-- Rewriting a child changes no path but its own. -/
theorem Follows.saveChild (h : Follows s) (hshape : TreeShape s) (hs : s.saveRun record = .ok s')
    (hold : s.runRecord record.runId = some r) (hown : r.processOwner = false)
    (hended : record.status = .ended) : Follows s' := by
  refine ⟨fun {id o a q} ha hopen hroot hq => ?_⟩
  rw [parentOf_saveRun hs] at hroot
  have hid : id ≠ record.runId := by
    rintro rfl
    rw [RunStore.runRecord_saveRun_self hs hold, Option.some.injEq] at ha
    rw [← ha] at hopen
    exact hopen hended
  have ho : o ≠ record.runId := by
    rintro rfl
    have hnone := hroot.2
    rw [RunStore.parentOf, hold, Option.bind_some, ← hshape.roots hold, hown] at hnone
    exact absurd hnone (by simp)
  rw [RunStore.runRecord_saveRun_of_ne hs hid] at ha
  rw [RunStore.runRecord_saveRun_of_ne hs ho] at hq
  exact h.path ha hopen hroot hq

/-- A new Run keeps the paths together if it is a root or has the path of its root. -/
theorem Follows.insertRun {run : NewRun} (h : Follows s) (hshape : TreeShape s)
    (hs : s.insertRun run = .ok s')
    (hroot : ∀ p o q, run.record.parentRunId = some p → Forest.IsRoot s.parentOf p o →
      s.runRecord o = some q → run.record.wirePath = q.wirePath) : Follows s' := by
  have hfresh := RunStore.insertRun_fresh hs
  have hleaf := hshape.not_parent hfresh
  refine ⟨fun {id o r q} hr hopen hrt hq => ?_⟩
  rw [parentOf_insertRun hs] at hrt
  rcases insertRun_cases hs hr with ⟨rfl, rfl⟩ | ⟨hi, hr₀⟩
  · cases hp : run.record.parentRunId with
    | none =>
        rw [← (Forest.IsRoot.self (by rw [Forest.attach_self, hp])).unique hrt, hr,
          Option.some.injEq] at hq
        rw [← hq]
    | some p =>
        -- the new Run hangs below the root of its parent
        obtain ⟨qp, hqp⟩ := RunStore.insertRun_parent hs hp
        have hpne : p ≠ run.record.runId := by
          rintro rfl
          rw [hfresh] at hqp
          exact absurd hqp (by simp)
        obtain ⟨o', ho'⟩ := hshape.height.exists_root p
        have hpar : Forest.attach s.parentOf run.record.runId run.record.parentRunId
            run.record.runId = some p := by rw [Forest.attach_self, hp]
        obtain rfl := (((Forest.isRoot_attach hleaf hpne).2 ho').step hpar).unique hrt
        obtain ⟨q', hq', -, -⟩ := hshape.root_row hqp ho'
        rw [runRecord_of_insertRun hs hq', Option.some.injEq] at hq
        rw [← hq]
        exact hroot p o' q' hp ho' hq'
  · have hrt₀ := (Forest.isRoot_attach hleaf hi).1 hrt
    obtain ⟨q', hq', -, -⟩ := hshape.root_row hr₀ hrt₀
    rw [runRecord_of_insertRun hs hq', Option.some.injEq] at hq
    rw [← hq]
    exact h.path hr₀ hopen hrt₀ hq'

theorem Alone.saveRun (h : Alone s record.runId) (hs : s.saveRun record = .ok s') :
    Alone s' record.runId := by
  refine ⟨fun {id a} ha hopen hroot => ?_⟩
  rw [parentOf_saveRun hs] at hroot
  by_contra hid
  rw [RunStore.runRecord_saveRun_of_ne hs hid] at ha
  exact hid (h.own ha hopen hroot)

/-- The recursive query finds nothing exactly below an owner that shares its process with nobody. -/
theorem alone_of_descendants (hshape : TreeShape s) (hq : s.runRecord o = some q)
    (hown : q.processOwner = true) (hnone : s.openInProcessDescendants o = []) : Alone s o := by
  refine ⟨fun {id r} hr hopen hroot => ?_⟩
  by_contra hid
  have hchild : r.processOwner = false := by
    cases hro : r.processOwner with
    | false => rfl
    | true => exact absurd (hshape.owner_root hr hro hroot).symm hid
  have hrid := RunStore.runId_of_runRecord hr
  have hmem : r ∈ s.openInProcessDescendants o := by
    refine (hshape.mem_descendants hq hown).2 ⟨by rw [hrid]; exact hr, r, ?_, hopen, hchild, ?_⟩
    · rw [hrid]
      exact hr
    · rw [hrid]
      exact hroot
  rw [hnone] at hmem
  exact absurd hmem List.not_mem_nil

/-- No open Run hangs below an ended owner. -/
theorem alone_of_ended (hinv : TreeInv s) (hq : s.runRecord o = some q)
    (hended : q.status = .ended) : Alone s o := by
  refine ⟨fun {id r} hr hopen hroot => ?_⟩
  have hstatus := hinv.follows hr hopen hroot hq
  rw [hended] at hstatus
  exact absurd hstatus.symm hopen

/-! ### The operations that write a path -/

/-- What following the process of a Run writes. -/
theorem syncDepth_saves {depth : ControlDepth} {wirePath : Bool}
    (h : syncDepth job record depth wirePath at_ = .ok job') :
    job'.1 = job.1 ∨ ∃ written : RunRecord, written.runId = record.runId ∧
      written.wirePath = wirePath ∧ written.status = record.status ∧
      job.1.saveRun written = .ok job'.1 := by
  unfold syncDepth at h
  split at h
  · obtain rfl := Except.ok.inj h
    exact .inl rfl
  · dsimp only at h
    split at h
    · obtain ⟨s', hs', hret⟩ := bind_ok h
      obtain rfl := Except.ok.inj hret
      refine .inr ⟨_, ?_, ?_, ?_, hs'⟩ <;> rfl
    · obtain ⟨s', hs', hret⟩ := bind_ok h
      obtain rfl := Except.ok.inj hret
      refine .inr ⟨_, ?_, ?_, ?_, hs'⟩ <;> rfl

/-- An owner follows its process, if that changes no path or nobody shares the process. -/
theorem Follows.syncOwner {depth : ControlDepth} {wirePath : Bool} (hf : Follows job.1)
    (hshape : TreeShape job.1) (h : syncDepth job record depth wirePath at_ = .ok job')
    (hold : job.1.runRecord record.runId = some r) (hown : r.processOwner = true)
    (hpath : r.wirePath = wirePath ∨ Alone job.1 record.runId) : Follows job'.1 := by
  rcases syncDepth_saves h with heq | ⟨written, hid, hwire, -, hs⟩
  · rw [heq]
    exact hf
  · rw [← hid] at hold hpath
    refine hf.saveRun hshape hs hold hown (hpath.imp_left fun hr => ?_)
    rw [hwire, hr]

/-- A kept Run that had ended is running again, with its own path. -/
theorem Follows.reopen (hf : Follows job.1) (hshape : TreeShape job.1)
    (hold : job.1.runRecord record.runId = some record) (hown : record.processOwner = true)
    (h : reopen job record at_ = .ok (job', r)) :
    Follows job'.1 ∧ r.runId = record.runId ∧
      (∃ row, job'.1.runRecord record.runId = some row ∧ row.processOwner = true ∧
        row.wirePath = record.wirePath) ∧
      (Alone job.1 record.runId → Alone job'.1 record.runId) := by
  unfold Runs.reopen at h
  split at h
  · dsimp only at h
    obtain ⟨s', hs', hret⟩ := bind_ok h
    obtain ⟨rfl, rfl⟩ := Prod.mk.inj (Except.ok.inj hret)
    have hrow := RunStore.runRecord_saveRun_self hs' hold
    refine ⟨hf.saveRun hshape hs' hold hown (.inl rfl), rfl, ⟨_, hrow, hown, rfl⟩, fun ha => ?_⟩
    have halone : Alone job.1 ({ record with
      status := .active, endCause := none, endedAt := none, updatedAt := at_ } : RunRecord).runId := ha
    exact halone.saveRun hs'
  · obtain ⟨rfl, rfl⟩ := Prod.mk.inj (Except.ok.inj h)
    exact ⟨hf, rfl, ⟨_, hold, hown, rfl⟩, fun ha => ha⟩

/-- The path of a kept owner may be written: it is its own, or no open child hangs below it. -/
def SyncsSafely (s : RunStore) (id : RunId) (wirePath : Bool) : Prop :=
  ∀ r, s.runRecord id = some r → r.wirePath = wirePath ∨ r.status = .ended ∨
    r.processOwner = true ∧ s.openInProcessDescendants id = []

/-- Creating or keeping a supervised Run keeps the paths together, if the path of a kept one may be
written. -/
theorem Follows.ensureSupervised {run : SupervisedRun} (hf : Follows s) (hinv : TreeInv s)
    (h : ensureSupervised s run at_ = .ok job)
    (hkept : ∀ r, run.fresh = false → s.runRecord run.runId = some r → r.processOwner = true)
    (hsafe : run.fresh = false → SyncsSafely s run.runId run.wirePath) : Follows job.1 := by
  obtain ⟨job₁, h₁, h₂⟩ := bind_ok h
  have hpaths := replaceOpen_pathKept hinv h₁
  have hinv₁ := (hinv.replaceOpen h₁).2
  have hf₁ : Follows job₁.1 := hf.pathKept hpaths
  split at h₂
  · -- the Run is kept
    rename_i existing hex hfresh
    obtain ⟨⟨job₂, reopened⟩, h₃, h₄⟩ := bind_ok h₂
    obtain ⟨job₃, h₅, h₆⟩ := bind_ok h₄
    obtain ⟨r₀, hr₀, hm⟩ := hpaths.row_of hex
    have hid := RunStore.runId_of_runRecord hex
    have hown₀ := hkept r₀ hfresh hr₀
    have hown : existing.processOwner = true := by
      rw [hinv₁.roots hex, hm.parent]
      exact (hinv.roots hr₀).1 hown₀
    have hcond : existing.wirePath = run.wirePath ∨ Alone job₁.1 existing.runId := by
      rw [hid, hm.path]
      rcases hsafe hfresh r₀ hr₀ with hsame | hended | ⟨-, hnone⟩
      · exact .inl hsame
      · have halone : Alone s run.runId := alone_of_ended hinv hr₀ hended
        exact .inr (halone.pathKept hpaths)
      · have halone : Alone s run.runId := alone_of_descendants hinv.toTreeShape hr₀ hown₀ hnone
        exact .inr (halone.pathKept hpaths)
    rw [← hid] at hex
    obtain ⟨hf₂, hrid, ⟨row, hrow, hrown, hrpath⟩, halone⟩ :=
      hf₁.reopen hinv₁.toTreeShape hex hown h₃
    have hinv₂ := (hinv₁.reopen h₃ hex hown).2.1
    refine Follows.pathKept ?_ (syncBoundLabels_pathKept h₆)
    rw [← hrid] at hrow
    refine hf₂.syncOwner hinv₂.toTreeShape h₅ hrow hrown ?_
    rw [hrpath, hrid]
    exact hcond.imp_right halone
  · -- the Run is created
    obtain ⟨t, ht, hret⟩ := bind_ok h₂
    obtain rfl := Except.ok.inj hret
    exact hf₁.insertRun hinv₁.toTreeShape ht fun p o q hp => absurd hp (by simp [supervisedRecord])

/-- A child is opened with the path of its parent. -/
theorem Follows.openChild {request : ChildRunRequest} {result : RunId × Job} (hf : Follows s)
    (hinv : TreeInv s) (h : openChild s request id at_ = .ok result) : Follows result.2.1 := by
  rcases openChild_ok h with heq | ⟨parent, labels, identity, hp, hc, hins⟩
  · rw [heq]
    exact hf
  · have hrow := hinv.resolveParent hp
    obtain ⟨hopen, -⟩ := checkChild_ok hc
    refine hf.insertRun hinv.toTreeShape hins fun p o q hpar hroot hq => ?_
    obtain rfl := Option.some.inj hpar
    have hpath := hf.path hrow hopen hroot hq
    exact hpath

/-! ### Runs of operations -/

/-- The operation changes the path of no owner above an open child, and of no open child. -/
def RunOp.KeepsPaths (s : RunStore) : RunOp → Prop
  | .launch name restart minted wirePath labels =>
      let run := launchRun s name restart minted wirePath labels
      run.fresh = false → SyncsSafely s run.runId wirePath
  | .adopt name wirePath _ => ∀ id, s.spawnRunId name = some id → SyncsSafely s id wirePath
  | .syncDepth id _ wirePath => SyncsSafely s id wirePath
  | _ => True

theorem Follows.commitJob {ε : Type} {x : Except ε Job} (hf : Follows s)
    (hok : ∀ job, x = .ok job → Follows job.1) : Follows (commitJob s x) := by
  cases x with
  | error e => exact hf
  | ok job => exact hok job rfl

/-- The depth and the path of a Run that is written as `SyncsSafely` allows. -/
theorem Follows.syncDepth {depth : ControlDepth} {wirePath : Bool} (hf : Follows s)
    (hinv : TreeInv s) (hrow : s.runRecord record.runId = some record)
    (hop : SyncsSafely s record.runId wirePath)
    (hok : Runs.syncDepth (s, RunChanges.empty) record depth wirePath at_ = .ok job) :
    Follows job.1 := by
  have hshape := hinv.toTreeShape
  by_cases hown : record.processOwner = true
  · refine Follows.syncOwner hf hshape hok hrow hown ?_
    rcases hop record hrow with hsame | hended | ⟨-, hnone⟩
    · exact .inl hsame
    · exact .inr (alone_of_ended hinv hrow hended)
    · exact .inr (alone_of_descendants hshape hrow hown hnone)
  · -- a Run that shares a process: its path stays, or it has ended
    rcases syncDepth_saves hok with heq | ⟨written, hwid, hwire, hstatus, hs⟩
    · rw [heq]
      exact hf
    · have hrow' := hrow
      rw [← hwid] at hrow'
      rcases hop record hrow with hsame | hended | ⟨howner, -⟩
      · refine hf.pathKept (saveRun_pathKept hs hrow' (hwire.trans hsame.symm) ?_)
        exact fun he => hstatus.trans he
      · refine hf.saveChild hshape hs hrow' ?_ (hstatus.trans hended)
        exact Bool.not_eq_true _ ▸ hown
      · exact absurd howner hown

/-- A Run that a launch keeps is the one of the spawn record, which owns its process. -/
theorem owner_of_kept (hinv : RegistryInv s) {name : InstanceName} {restart : Bool}
    {minted : RunId} {wirePath : Bool} {labels : List Label}
    (hfresh : (launchRun s name restart minted wirePath labels).fresh = false)
    (hr : s.runRecord (launchRun s name restart minted wirePath labels).runId = some r) :
    r.processOwner = true := by
  have hkept : (if restart then s.spawnRunId name else none) =
      some (launchRun s name restart minted wirePath labels).runId := by
    simp only [launchRun, Option.isNone_eq_false_iff] at hfresh ⊢
    obtain ⟨id, hid⟩ := Option.isSome_iff_exists.1 hfresh
    rw [hid, Option.getD_some]
  split at hkept
  · obtain ⟨r', hr', hown, -⟩ := hinv.2 name _ hkept
    rw [hr, Option.some.injEq] at hr'
    rw [hr', hown]
  · exact absurd hkept (by simp)

/-- **One operation** keeps the paths together, if it changes none above an open child. -/
theorem Follows.apply (hf : Follows s) (hinv : RegistryInv s) {op : RunOp}
    (hop : op.KeepsPaths s) : Follows (op.apply s at_) := by
  cases op with
  | register name => exact ⟨hf.path⟩
  | settle name => exact ⟨hf.path⟩
  | launch name restart minted wirePath labels =>
      refine hf.commitJob fun job hok => ?_
      have hf' : Follows (setSpawnRunId s name
          (launchRun s name restart minted wirePath labels).runId) := ⟨hf.path⟩
      exact hf'.ensureSupervised (hinv.1.setSpawnRunId name _) hok
        (fun r hfresh hr => owner_of_kept hinv hfresh hr) hop
  | adopt name wirePath labels =>
      simp only [RunOp.apply]
      split
      · exact hf
      · rename_i id hid
        refine hf.commitJob fun job hok => ?_
        refine hf.ensureSupervised hinv.1 hok (fun r _ hr => ?_) fun _ => hop id hid
        obtain ⟨r', hr', hown, -⟩ := hinv.2 name id hid
        rw [hr', Option.some.injEq] at hr
        rw [← hr, hown]
  | transition name newState fate cause =>
      exact hf.commitJob fun job hok => hf.pathKept (projectTransition_pathKept hinv.1 hok)
  | openChild request minted =>
      refine hf.commitJob fun job hok => ?_
      cases hopen : Runs.openChild s request minted at_ with
      | error e => rw [hopen] at hok; exact absurd hok (by simp [Except.map])
      | ok result =>
          rw [hopen] at hok
          obtain rfl : result.2 = job := Except.ok.inj hok
          exact hf.openChild hinv.1 hopen
  | close id => exact hf.commitJob fun job hok => hf.pathKept (close_pathKept hok)
  | syncDepth id depth wirePath =>
      simp only [RunOp.apply]
      split
      · exact hf
      · rename_i record hrec
        refine hf.commitJob fun job hok => ?_
        obtain rfl := RunStore.runId_of_runRecord hrec
        exact hf.syncDepth hinv.1 hrec hop hok
  | syncBoundLabels id labels =>
      exact hf.commitJob fun job hok => hf.pathKept (syncBoundLabels_pathKept hok)
  | markBreach id => exact hf.commitJob fun job hok => hf.pathKept (markBreach_pathKept hok)
  | endRunsWithoutAProcess state =>
      exact hf.commitJob fun job hok => hf.pathKept (endRunsWithoutAProcess_pathKept hinv.1 hok)
  | ensureRunRow id name =>
      simp only [RunOp.apply, RunStore.ensureRunRow]
      split
      · rename_i s' hins
        exact hf.insertRun hinv.1.toTreeShape hins fun p o q hp =>
          absurd hp (by simp [RunStore.placeholderRecord])
      · exact hf

/-- One operation of a sequence, at its time. -/
def stepOp (s : RunStore) (op : Timestamp × RunOp) : RunStore := op.2.apply s op.1

/-- **The path of every open child is its owner's**, in every state of every sequence of operations
none of which changes the path of a kept owner above an open child. -/
theorem wirePath_follows (ops : List (Timestamp × RunOp))
    (hops : Guarded.Meets stepOp (fun s op => op.2.KeepsPaths s) RunStore.empty ops) :
    ∀ s ∈ Guarded.states stepOp RunStore.empty ops, ∀ r ∈ s.runs, ∀ o ∈ s.runs,
      r.status ≠ .ended → r.processOwner = false → o.processOwner = true →
      (∃ k, Forest.up s.parentOf (k + 1) r.runId = some o.runId) → r.wirePath = o.wirePath := by
  intro s hs r hr o ho hopen hchild hown hup
  have hempty : RegistryInv RunStore.empty ∧ Follows RunStore.empty := by
    refine ⟨⟨treeInv_empty, fun _ _ h => absurd h (by simp [RunStore.empty])⟩, ?_⟩
    refine ⟨fun {id o r q} hr => ?_⟩
    exact absurd hr (by simp [RunStore.empty, RunStore.runRecord])
  obtain ⟨hinv, hf⟩ : RegistryInv s ∧ Follows s :=
    Guarded.invariant (P := fun s => RegistryInv s ∧ Follows s)
      (fun s op h hop => ⟨(h.1.apply op.2).1, Follows.apply h.2 h.1 hop⟩) hempty hops hs
  have hro := hinv.1.keys.runRecord ho
  obtain ⟨k, hk⟩ := hup
  refine hf.path (hinv.1.keys.runRecord hr) hopen ⟨⟨k + 1, hk⟩, ?_⟩ hro
  rw [RunStore.parentOf, hro, Option.bind_some]
  exact (hinv.1.roots hro).1 hown

/-- A launch whose traffic crosses the proxy, a child, a crash, and a relaunch. -/
def relaunch (wirePath : Bool) : List (Timestamp × RunOp) :=
  [("1", .register "a"), ("2", .launch "a" false 1 true []),
    ("3", .openChild ⟨.run 1, [], RunLimits.empty, none⟩ 2),
    ("4", .transition "a" .failed .relaunching "crashed"), ("5", .launch "a" true 3 wirePath [])]

/-- The path of a Run after the relaunch. -/
def pathAfter (wirePath : Bool) (id : RunId) : Option Bool :=
  (((relaunch wirePath).foldl stepOp RunStore.empty).runRecord id).map RunRecord.wirePath

/-- A relaunch on the same path keeps the child with its owner. -/
theorem wirePath_follows_same : pathAfter true 2 = pathAfter true 1 := by
  have hmeets : Guarded.Meets stepOp (fun s op => op.2.KeepsPaths s) RunStore.empty
      (relaunch true) := by
    refine ⟨trivial, fun hfresh => absurd hfresh (by decide), trivial, trivial, fun _ r hr => ?_,
      trivial⟩
    have hpath : (((relaunch true).take 4).foldl stepOp RunStore.empty).runRecord 1 =
      some r := hr
    have hsame : ((((relaunch true).take 4).foldl stepOp RunStore.empty).runRecord 1).map
        RunRecord.wirePath = some true := by decide +kernel
    rw [hpath] at hsame
    exact .inl (Option.some.inj hsame)
  obtain ⟨r, hr⟩ : ∃ r, ((relaunch true).foldl stepOp RunStore.empty).runRecord 2 = some r :=
    Option.isSome_iff_exists.1 (by decide +kernel)
  obtain ⟨o, ho⟩ : ∃ o, ((relaunch true).foldl stepOp RunStore.empty).runRecord 1 = some o :=
    Option.isSome_iff_exists.1 (by decide +kernel)
  have hchild : (((relaunch true).foldl stepOp RunStore.empty).runRecord 2).map
      (fun r => (r.runId, r.status, r.processOwner)) = some (2, .active, false) := by decide +kernel
  have hown : (((relaunch true).foldl stepOp RunStore.empty).runRecord 1).map
      (fun r => (r.runId, r.processOwner)) = some (1, true) := by decide +kernel
  rw [hr, Option.map_some, Option.some.injEq, Prod.mk.injEq, Prod.mk.injEq] at hchild
  rw [ho, Option.map_some, Option.some.injEq, Prod.mk.injEq] at hown
  rw [pathAfter, pathAfter, hr, ho, Option.map_some, Option.map_some, Option.some.injEq]
  refine wirePath_follows (relaunch true) hmeets _ Guarded.last_mem_states r
    (RunStore.mem_of_runRecord hr) o (RunStore.mem_of_runRecord ho) ?_ hchild.2.2 hown.2 ⟨0, ?_⟩
  · rw [hchild.2.1]
    decide
  · rw [hchild.1, hown.1]
    decide +kernel

/-- **A child is left behind**: relaunched off the proxy, the owner has another path than its open
child. -/
theorem relaunched_elsewhere :
    ¬ ∀ ops : List (Timestamp × RunOp), ∀ s ∈ Guarded.states stepOp RunStore.empty ops,
      ∀ r ∈ s.runs, ∀ o ∈ s.runs, r.status ≠ .ended → r.processOwner = false →
        o.processOwner = true → (∃ k, Forest.up s.parentOf (k + 1) r.runId = some o.runId) →
        r.wirePath = o.wirePath := by
  intro h
  have hlast := h (relaunch false) _ Guarded.last_mem_states
  have hrows : ∃ r ∈ ((relaunch false).foldl stepOp RunStore.empty).runs,
      ∃ o ∈ ((relaunch false).foldl stepOp RunStore.empty).runs, r.status ≠ .ended ∧
        r.processOwner = false ∧ o.processOwner = true ∧
        Forest.up ((relaunch false).foldl stepOp RunStore.empty).parentOf 1 r.runId =
          some o.runId ∧ r.wirePath ≠ o.wirePath := by decide +kernel
  obtain ⟨r, hr, o, ho, hopen, hchild, hown, hup, hne⟩ := hrows
  exact hne (hlast r hr o ho hopen hchild hown ⟨0, hup⟩)

end Runs

end Hekma
