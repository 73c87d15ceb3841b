/-
**Opening a child Run, and binding labels** (`domain/runs/ops.rs`, `store/runs_sqlite.rs`).

A child Run is opened whole or not at all: its row, its labels, its ceilings and the external id it
is known by are written in one job.  An external id that is known is answered with its Run, whatever
else is asked, for as long as the instance of the Run is not removed.  Binding labels a second time
changes nothing and tells nothing.

Main definitions:

* `RunStore.Keyed` — the keys of the tables and the references to the Runs;
* `openChildRun` — a request for a child, with the index and the events;
* `OpenedChild` — what the tables hold of a child that was opened;
* `Known` — an external id is bound to a Run of an instance.

Main results:

* `RunRegistry.step_keeps` — what the writes and the deletion of an instance keep, every step keeps;
* `keyed_step` — the keys and the references are kept;
* `known_step` — no operation but the removal of its instance unbinds an external id;
* `openChild_opened` — a child is known already, or opened as requested;
* `syncBoundLabels_twice` — **binding labels twice is binding them once**;
* `openChild_atomic` — **a child is opened whole or not at all, and an external id once**.
-/

import Hekma.Domain.Runs.Stream
import Hekma.Store.RunRows

set_option relaxedAutoImplicit false
set_option autoImplicit false

namespace Hekma

/-- The keys of the tables, and the references to the Runs. -/
structure RunStore.Keyed (s : RunStore) : Prop where
  ids : s.KeyUnique
  labels : ∀ l ∈ s.labels, (s.runRecord l.1).isSome = true
  limits : ∀ l ∈ s.limits, (s.runRecord l.runId).isSome = true
  identities : ∀ e ∈ s.identities, (s.runRecord e.2).isSome = true
  keys : ∀ id, ((s.labels.filter fun l => l.1 = id).map fun l => l.2.key).Nodup

open Runs

namespace RunStore

variable {s s' : RunStore} {record r : RunRecord} {id : RunId}

/-! ### The keys and the references -/

theorem runRecord_isSome_saveRun (h : s.saveRun record = .ok s') (id : RunId) :
    (s'.runRecord id).isSome = (s.runRecord id).isSome := by
  rw [runRecord_saveRun h, Option.isSome_map]

theorem runRecord_isSome_insertRun {run : NewRun} (h : s.insertRun run = .ok s')
    (hid : id = run.record.runId ∨ (s.runRecord id).isSome = true) :
    (s'.runRecord id).isSome = true := by
  rw [runRecord_insertRun h]
  split
  · rfl
  · rename_i hne
    exact hid.resolve_left hne

theorem Keyed.saveRun (hk : s.Keyed) (h : s.saveRun record = .ok s') : s'.Keyed := by
  have hsome := runRecord_isSome_saveRun h
  obtain ⟨old, -, -, heq⟩ := saveRun_ok h
  have hlabels : s'.labels = s.labels := by rw [heq]
  have hlimits : s'.limits = s.limits := by rw [heq]
  have hidentities : s'.identities = s.identities := by rw [heq]
  exact
    { ids := hk.ids.saveRun h
      labels := fun l hl => by
        rw [hsome]
        exact hk.labels l (hlabels ▸ hl)
      limits := fun l hl => by
        rw [hsome]
        exact hk.limits l (hlimits ▸ hl)
      identities := fun e he => by
        rw [hsome]
        exact hk.identities e (hidentities ▸ he)
      keys := fun id => by
        rw [hlabels]
        exact hk.keys id }

/-- A label that is put keeps one label for each key: it takes the place of the one that has its
key. -/
theorem putLabel_keys {rows : List (RunId × Label)} {other : RunId}
    (h : ((rows.filter fun row => row.1 = other).map fun row => row.2.key).Nodup)
    (source : LabelSource) (l : Label) :
    (((putLabel id source rows l).filter fun row => row.1 = other).map
      fun row => row.2.key).Nodup := by
  by_cases hother : other = id
  · subst hother
    have hkept : (((rows.filter fun row => !(row.1 = other && row.2.key = l.key)).filter
        fun row => row.1 = other).map fun row => row.2.key).Nodup :=
      h.sublist ((List.filter_sublist.filter _).map _)
    rw [putLabel, List.filter_append, List.map_append, List.filter_cons_of_pos (by simp)]
    refine List.nodup_append.2 ⟨hkept, by simp, ?_⟩
    -- the row that had the key was filtered out
    intro key hkey key' hkey' hsame
    obtain ⟨row, hrow, rfl⟩ := List.mem_map.1 hkey
    rw [List.mem_filter, List.mem_filter] at hrow
    simp only [List.filter_nil, List.map_cons, List.map_nil, List.mem_singleton] at hkey'
    simp [hsame.trans hkey', of_decide_eq_true hrow.2] at hrow
  · rw [putLabel_others hother]
    exact h

/-- Labels that are replaced keep one label for each key. -/
theorem replaceLabels_keys (source : LabelSource) (labels : List Label)
    (hkeys : ∀ other, ((s.labels.filter fun l => l.1 = other).map fun l => l.2.key).Nodup) :
    (∀ l ∈ (s.replaceLabels id source labels).labels, l.1 = id ∨ l ∈ s.labels) ∧
      ∀ other, (((s.replaceLabels id source labels).labels.filter fun l => l.1 = other).map
        fun l => l.2.key).Nodup := by
  refine replaceLabels_keeps (motive := fun rows => (∀ l ∈ rows, l.1 = id ∨ l ∈ s.labels) ∧
    ∀ other, ((rows.filter fun l => l.1 = other).map fun l => l.2.key).Nodup) labels ?_ ?_
  · refine ⟨fun l hl => .inr (List.mem_of_mem_filter hl), fun other => ?_⟩
    exact (hkeys other).sublist ((List.filter_sublist.filter _).map _)
  · rintro rows l ⟨hmem, hnodup⟩
    refine ⟨fun row hrow => ?_, fun other => putLabel_keys (hnodup other) source l⟩
    rcases List.mem_append.1 hrow with hrow | hrow
    · exact hmem row (List.mem_of_mem_filter hrow)
    · rw [List.mem_singleton.1 hrow]
      exact .inl rfl

theorem Keyed.replaceLabels {source : LabelSource} {labels : List Label} (hk : s.Keyed)
    (hid : (s.runRecord id).isSome = true) : (s.replaceLabels id source labels).Keyed := by
  obtain ⟨hmem, hkeys⟩ := replaceLabels_keys source labels hk.keys
  refine ⟨hk.ids, fun l hl => ?_, hk.limits, hk.identities, hkeys⟩
  rcases hmem l hl with hl | hl
  · rw [hl]
    exact hid
  · exact hk.labels l hl

/-- A Run that is inserted had no label, ceiling or identity before. -/
theorem Keyed.of_fresh (hk : s.Keyed) (hfresh : s.runRecord id = none) :
    s.labels.filter (fun l => l.1 = id) = [] ∧ ∀ l ∈ s.limits, l.runId ≠ id := by
  refine ⟨List.filter_eq_nil_iff.2 fun l hl hid => ?_, fun l hl hid => ?_⟩
  · have hsome := hk.labels l hl
    rw [of_decide_eq_true hid, hfresh] at hsome
    cases hsome
  · have hsome := hk.limits l hl
    rw [hid, hfresh] at hsome
    cases hsome

theorem Keyed.insertRun {run : NewRun} (hk : s.Keyed) (h : s.insertRun run = .ok s') :
    s'.Keyed := by
  obtain ⟨hlabels, hlimits, hidentities⟩ := insertRun_tables h
  have hsome {id : RunId} (hid : id = run.record.runId ∨ (s.runRecord id).isSome = true) :
      (s'.runRecord id).isSome = true := runRecord_isSome_insertRun h hid
  refine ⟨hk.ids.insertRun h, fun l hl => ?_, fun l hl => ?_, fun e he => ?_, fun id => ?_⟩
  · rw [hlabels] at hl
    rcases List.mem_append.1 hl with hl | hl
    · exact hsome (.inr (hk.labels l hl))
    · obtain ⟨label, -, rfl⟩ := List.mem_map.1 hl
      exact hsome (.inl rfl)
  · rw [hlimits] at hl
    rcases List.mem_append.1 hl with hl | hl
    · exact hsome (.inr (hk.limits l hl))
    · refine hsome (.inl ?_)
      rcases List.mem_append.1 hl with hl | hl
      · obtain ⟨t, -, rfl⟩ := List.mem_map.1 hl
        rfl
      · obtain ⟨m, -, rfl⟩ := List.mem_map.1 hl
        rfl
  · rw [hidentities] at he
    rcases List.mem_append.1 he with he | he
    · exact hsome (.inr (hk.identities e he))
    · obtain ⟨key, -, rfl⟩ := List.mem_map.1 he
      exact hsome (.inl rfl)
  · rw [hlabels, List.filter_append, List.map_append]
    -- the new Run has the labels it came with, every other Run its own
    by_cases hid : id = run.record.runId
    · subst hid
      rw [(hk.of_fresh (insertRun_fresh h)).1, List.map_nil, List.nil_append]
      have hnew : ((run.labels.map fun l => (run.record.runId, l)).filter fun l =>
          decide (l.1 = run.record.runId)) = run.labels.map fun l => (run.record.runId, l) :=
        List.filter_eq_self.2 fun l hl => by
          obtain ⟨label, -, rfl⟩ := List.mem_map.1 hl
          simp
      have hins := (insertRun_ok h).1
      simp only [insertable, Bool.and_eq_true, decide_eq_true_eq] at hins
      rw [hnew, List.map_map]
      exact hins.1.2
    · have hnew : (run.labels.map fun l => (run.record.runId, l)).filter
          (fun l => decide (l.1 = id)) = [] :=
        List.filter_eq_nil_iff.2 fun l hl => by
          obtain ⟨label, -, rfl⟩ := List.mem_map.1 hl
          simpa using Ne.symm hid
      rw [hnew, List.map_nil, List.append_nil]
      exact hk.keys id

theorem deleteInstance_identities {name : InstanceName} (hd : deleteInstance s name = .ok s') :
    s'.identities = s.identities.filter fun e => e.2 ∉ runsOf s name := by
  unfold Runs.deleteInstance at hd
  split at hd
  · rw [← Except.ok.inj hd]
  · exact absurd hd (by simp)

/-- A deletion takes with its Runs all that belongs to them. -/
theorem Keyed.deleteInstance (hk : s.Keyed) {name : InstanceName}
    (hd : deleteInstance s name = .ok s') : s'.Keyed := by
  obtain ⟨-, hlabels, hlimits⟩ := deleteInstance_ok hd
  have hsome {id : RunId} (hid : id ∉ runsOf s name) (h : (s.runRecord id).isSome = true) :
      (s'.runRecord id).isSome = true := by
    rw [runRecord_deleteInstance hk.ids hd, if_neg hid, Option.isSome_map]
    exact h
  refine ⟨keyUnique_deleteInstance hk.ids hd, fun l hl => ?_, fun l hl => ?_, fun e he => ?_,
    fun id => ?_⟩
  · rw [hlabels, List.mem_filter] at hl
    exact hsome (of_decide_eq_true hl.2) (hk.labels l hl.1)
  · rw [hlimits, List.mem_filter] at hl
    exact hsome (of_decide_eq_true hl.2) (hk.limits l hl.1)
  · rw [deleteInstance_identities hd, List.mem_filter] at he
    exact hsome (of_decide_eq_true he.2) (hk.identities e he.1)
  · rw [hlabels]
    exact (hk.keys id).sublist ((List.filter_sublist.filter _).map _)

end RunStore

namespace Runs

variable {s s' : RunStore} {job job' : Job} {record r : RunRecord} {id opened : RunId}
  {at_ : Timestamp} {request : ChildRunRequest}

/-! ### What every operation keeps -/

/-- A property of the tables that every operation of the registry keeps: the writes keep it, and it
reads neither the instances nor the spawn records. -/
structure TableConduct (P : RunStore → Prop) : Prop where
  writes : JobConduct fun job job' => P job.1 → P job'.1
  elsewhere : ∀ s instances spawnRunId, P s →
    P { s with instances := instances, spawnRunId := spawnRunId }

namespace TableConduct

variable {P : RunStore → Prop}

theorem commitJob {ε : Type} {x : Except ε Job} (h : P s)
    (hok : ∀ job, x = .ok job → P job.1) : P (commitJob s x) := by
  cases x with
  | error err => exact h
  | ok job => exact hok job rfl

theorem ensureRunRow (hP : TableConduct P) (h : P s) (id : RunId) (name : InstanceName)
    (at_ : Timestamp) : P (s.ensureRunRow id name at_) := by
  unfold RunStore.ensureRunRow
  split
  · rename_i s' hins
    exact hP.writes.insert (s, RunChanges.empty) _ s' .created Prior.none none hins h
  · exact h

/-- **An operation keeps what its writes keep.** -/
theorem apply (hP : TableConduct P) (op : RunOp) (h : P s) (at_ : Timestamp) :
    P (op.apply s at_) := by
  cases op with
  | register name => exact hP.elsewhere s _ _ h
  | launch name restart minted wirePath labels =>
      refine commitJob h fun job hok => ?_
      exact hP.writes.ensureSupervised hok (hP.elsewhere s _ _ h)
  | adopt name wirePath labels =>
      simp only [RunOp.apply]
      cases s.spawnRunId name with
      | none => exact h
      | some id => exact commitJob h fun job hok => hP.writes.ensureSupervised hok h
  | transition name newState fate cause =>
      exact commitJob h fun job hok => hP.writes.projectTransition hok h
  | openChild request minted =>
      refine commitJob h fun job hok => ?_
      cases hc : Runs.openChild s request minted at_ with
      | error err =>
          rw [hc] at hok
          simp [Except.map] at hok
      | ok opened =>
          rw [hc] at hok
          obtain rfl := Except.ok.inj hok
          exact hP.writes.openChild hc h
  | close id => exact commitJob h fun job hok => hP.writes.close hok h
  | syncDepth id depth wirePath =>
      simp only [RunOp.apply]
      cases s.runRecord id with
      | none => exact h
      | some record => exact commitJob h fun job hok => hP.writes.syncDepth hok h
  | syncBoundLabels id labels =>
      exact commitJob h fun job hok => hP.writes.syncBoundLabels hok h
  | markBreach id => exact commitJob h fun job hok => hP.writes.markBreach hok h
  | endRunsWithoutAProcess state =>
      exact commitJob h fun job hok => hP.writes.endRunsWithoutAProcess hok h
  | settle name => exact hP.elsewhere s _ _ h
  | ensureRunRow id name => exact hP.ensureRunRow h id name at_

theorem projectInSavepoint (hP : TableConduct P) (h : P s) {name : InstanceName}
    {newState : LifecycleState} {fate : RunFate} {cause : String} {fault : Option ProjectionFault} :
    P (projectInSavepoint s name newState fate cause at_ fault).1 := by
  unfold Runs.projectInSavepoint
  split
  · exact h
  · rename_i job hok
    split
    · exact hP.writes.projectTransition hok h
    · exact h
    · exact h

theorem markBreaches (hP : TableConduct P) (ids : List RunId) (h : P s)
    (hok : markBreaches s ids at_ = .ok job) : P job.1 := by
  have hfold : ∀ (ids : List RunId) (job job' : Job), P job.1 →
      ids.foldlM (fun job id => (markBreach job.1 id at_).map fun marked =>
        ((marked.1, ⟨job.2.events ++ marked.2.events, job.2.entries ++ marked.2.entries⟩) : Job))
        job = .ok job' → P job'.1 := by
    intro ids
    induction ids with
    | nil =>
        intro job job' h hok
        obtain rfl := Except.ok.inj hok
        exact h
    | cons id ids ih =>
        intro job job' h hok
        rw [List.foldlM_cons] at hok
        obtain ⟨mid, hmid, hrest⟩ := bind_ok hok
        refine ih mid job' ?_ hrest
        cases hm : markBreach job.1 id at_ with
        | error err => simp [hm, Except.map] at hmid
        | ok marked =>
            simp only [hm, Except.map] at hmid
            obtain rfl := Except.ok.inj hmid
            have hmarked : P marked.1 := hP.writes.markBreach hm h
            exact hmarked
  exact hfold ids _ job h hok

end TableConduct

end Runs

/-- **A step of the registry keeps what the writes keep**, unless it deletes an instance. -/
theorem RunRegistry.step_keeps {P : RunStore → Prop} (hP : TableConduct P) {reg : RunRegistry}
    (h : P reg.runs) (op : RunRegistry.Op)
    (hremove : ∀ name s', op = .remove name true → deleteInstance reg.runs name = .ok s' → P s') :
    P (reg.step op).runs := by
  cases op with
  | job op at_ committed =>
      cases committed with
      | false => exact h
      | true => exact hP.apply op h at_
  | transition name newState fate cause at_ fault committed =>
      cases committed with
      | false => exact h
      | true => exact hP.projectInSavepoint h
  | usage placeholder breached at_ committed =>
      have hplace : P (RunRegistry.withPlaceholder reg.runs at_ placeholder) := by
        cases placeholder with
        | none => exact h
        | some p => exact hP.ensureRunRow h p.1 p.2 at_
      simp only [RunRegistry.step]
      split
      · exact h
      · rename_i job hok
        cases committed with
        | false => exact h
        | true => exact hP.markBreaches breached hplace hok
  | remove name committed =>
      simp only [RunRegistry.step]
      split
      · exact h
      · rename_i s' hok
        cases committed with
        | false => exact h
        | true => exact hremove name s' rfl hok
  | reopen => exact h

namespace Runs

variable {s s' : RunStore} {job job' : Job} {record r : RunRecord} {id opened : RunId}
  {at_ : Timestamp} {request : ChildRunRequest}

theorem keyed_conduct : TableConduct RunStore.Keyed where
  writes :=
    { refl := fun _ h => h
      trans := fun h h' hk => h' (h hk)
      save := fun _ _ _ _ _ _ hs hk => RunStore.Keyed.saveRun hk hs
      label := fun job record labels s' _ _ _ hs hk => by
        refine RunStore.Keyed.saveRun (RunStore.Keyed.replaceLabels hk ?_) hs
        obtain ⟨old, hold, -, -⟩ := RunStore.saveRun_ok hs
        exact Option.isSome_iff_exists.2 ⟨old, hold⟩
      insert := fun _ _ _ _ _ _ hs hk => RunStore.Keyed.insertRun hk hs }
  elsewhere _ _ _ hk := ⟨hk.ids, hk.labels, hk.limits, hk.identities, hk.keys⟩

/-! ### A child that is opened -/

/-- A label of a child. -/
def callerLabel (p : String × String) : Label := ⟨p.1, p.2, .caller⟩

/-- What the tables hold of a child that was opened: the row under its parent, with the status and
the wire path of the parent, the labels and the ceilings of the request, and its external id.
Nothing else has changed. -/
structure OpenedChild (s s' : RunStore) (request : ChildRunRequest) (parent : RunRecord)
    (id : RunId) (at_ : Timestamp) : Prop where
  resolved : resolveParent s request.parent = .ok parent
  isOpen : parent.status ≠ .ended
  nesting : (s.runChain parent.runId).length + 1 ≤ maxRunNesting
  fresh : s.runRecord id = none
  runs : s'.runs = s.runs ++ [childRecord parent id at_]
  record : s'.runRecord id = some (childRecord parent id at_)
  held : (childRecord parent id at_).status = .held ↔ parent.status = .held
  labels : s'.runLabels id = (request.labels.map callerLabel).insertionSort fun a b => a.key ≤ b.key
  limits : s'.runLimits id = request.limits.stored
  identity : ∀ e ∈ request.externalId, s'.identityRun (hostIdentityBinding, e) = some id
  identities : s'.identities =
    s.identities ++ request.externalId.toList.map fun e => ((hostIdentityBinding, e), id)
  elsewhere : s'.instances = s.instances ∧ s'.spawnRunId = s.spawnRunId
  others : ∀ other, other ≠ id → s'.runLabels other = s.runLabels other ∧
    s'.runLimits other = s.runLimits other

theorem childLabels_ok {pairs : List (String × String)} {labels result : List Label}
    (h : childLabels pairs labels = .ok result) :
    result = (labels ++ pairs.map callerLabel).insertionSort fun a b => a.key ≤ b.key := by
  induction pairs generalizing labels with
  | nil =>
      rw [List.map_nil, List.append_nil]
      exact (Except.ok.inj h).symm
  | cons p pairs ih =>
      unfold childLabels at h
      split at h
      · exact absurd h (by simp [throw, throwThe, MonadExceptOf.throw])
      · split at h
        · exact absurd h (by simp [throw, throwThe, MonadExceptOf.throw])
        · rw [ih h, List.append_assoc]
          rfl

theorem insertRun_identity {run : NewRun} (h : s.insertRun run = .ok s') {key : String × String}
    (hkey : run.identity = some key) : s'.identityRun key = some run.record.runId := by
  have hins := (RunStore.insertRun_ok h).1
  simp only [RunStore.insertable, Bool.and_eq_true, hkey, Option.all_some,
    Option.isNone_iff_eq_none] at hins
  have hnone : (s.identities.find? fun e => e.1 = key) = none := Option.map_eq_none_iff.1 hins.2
  rw [RunStore.identityRun, (RunStore.insertRun_tables h).2.2, List.find?_append, hnone, hkey]
  simp

/-- The labels that are read of a Run that was inserted. -/
theorem runLabels_insertRun {run : NewRun} (hkeyed : s.Keyed) (h : s.insertRun run = .ok s') :
    s'.runLabels run.record.runId = run.labels.insertionSort fun a b => a.key ≤ b.key := by
  have hmine : (run.labels.map fun l => (run.record.runId, l)).filter
      (fun l => decide (l.1 = run.record.runId)) = run.labels.map fun l => (run.record.runId, l) :=
    List.filter_eq_self.2 fun l hl => by
      obtain ⟨label, -, rfl⟩ := List.mem_map.1 hl
      simp
  have hnone := (hkeyed.of_fresh (RunStore.insertRun_fresh h)).1
  rw [RunStore.runLabels, (RunStore.insertRun_tables h).1, List.filter_append, hnone, hmine,
    List.nil_append, List.map_map]
  simp only [Function.comp_def, List.map_id']

/-- **A child is known already, or opened as requested**, with one event and one entry. -/
theorem openChild_opened (hkeyed : s.Keyed)
    (h : openChild s request id at_ = .ok (opened, job)) :
    (∃ e ∈ request.externalId, s.identityRun (hostIdentityBinding, e) = some opened ∧
      job = (s, RunChanges.empty)) ∨
    (opened = id ∧ ∃ parent, OpenedChild s job.1 request parent id at_ ∧
      job.2 = note job.1 RunChanges.empty (childRecord parent id at_) .created Prior.none
        (if parent.status = .held then some "parent-paused" else none)) := by
  unfold openChild at h
  split at h
  · rename_i existing hknown
    obtain ⟨e, he, hrun⟩ := Option.bind_eq_some_iff.1 hknown
    obtain ⟨rfl, rfl⟩ := Prod.mk.inj (Except.ok.inj h)
    exact .inl ⟨e, he, hrun, rfl⟩
  · obtain ⟨parent, hparent, h⟩ := bind_ok h
    obtain ⟨⟨⟩, hcheck, h⟩ := bind_ok h
    obtain ⟨labels, hlabels, h⟩ := bind_ok h
    obtain ⟨s', hins, h⟩ := bind_ok h
    obtain ⟨rfl, rfl⟩ := Prod.mk.inj (Except.ok.inj h)
    have hins := mapError_ok hins
    have hfresh := RunStore.insertRun_fresh hins
    obtain ⟨hopen, hnesting⟩ := checkChild_ok hcheck
    obtain rfl := childLabels_ok hlabels
    obtain ⟨hnolabel, hnolimit⟩ := hkeyed.of_fresh hfresh
    refine .inr ⟨rfl, parent, ?_, rfl⟩
    exact
      { resolved := hparent
        isOpen := hopen
        nesting := hnesting
        fresh := hfresh
        runs := (RunStore.insertRun_ok hins).2.2.2
        record := by
          rw [RunStore.runRecord_insertRun hins]
          exact if_pos rfl
        held := by
          simp only [childRecord]
          split <;> simp [*]
        labels := (runLabels_insertRun hkeyed hins).trans
          (List.pairwise_insertionSort _ _).insertionSort_eq
        limits := RunTables.runLimits_runStore hins hnolimit
        identity := fun e he => insertRun_identity hins (by
          rw [Option.mem_def.1 he]
          rfl)
        identities := by
          rw [(RunStore.insertRun_tables hins).2.2]
          cases request.externalId <;> rfl
        elsewhere := ⟨(RunStore.insertRun_ok hins).2.1, (RunStore.insertRun_ok hins).2.2.1⟩
        others := fun other hne => insertRun_others hins hne }

/-! ### An external id that is known -/

/-- An external id is bound to a Run of a hosting instance. -/
structure Known (key : String × String) (id : RunId) (host : Option InstanceName) (s : RunStore) :
    Prop where
  keyed : s.Keyed
  bound : s.identityRun key = some id
  row : ∃ r, s.runRecord id = some r ∧ r.instanceName = host

variable {key : String × String} {host : Option InstanceName}

/-- The references of the external ids are to Runs. -/
theorem known_of_identityRun (hk : s.Keyed) (h : s.identityRun key = some id) :
    Known key id ((s.runRecord id).bind RunRecord.instanceName) s := by
  obtain ⟨e, he, hid⟩ := Option.map_eq_some_iff.1 h
  obtain ⟨r, hr⟩ := Option.isSome_iff_exists.1 (hk.identities e (List.mem_of_find?_eq_some he))
  rw [hid] at hr
  exact ⟨hk, h, r, hr, by rw [hr, Option.bind_some]⟩

theorem Known.saveRun (h : Known key id host s) (hs : s.saveRun record = .ok s') :
    Known key id host s' := by
  obtain ⟨r, hr, hhost⟩ := h.row
  refine ⟨h.keyed.saveRun hs, ?_, ?_⟩
  · obtain ⟨old, -, -, heq⟩ := RunStore.saveRun_ok hs
    have hidentities : s'.identityRun = s.identityRun := by rw [heq]; rfl
    rw [hidentities]
    exact h.bound
  · rw [RunStore.runRecord_saveRun hs, hr, Option.map_some]
    refine ⟨_, rfl, ?_⟩
    split
    · exact hhost
    · exact hhost

theorem Known.insertRun {run : NewRun} (h : Known key id host s) (hs : s.insertRun run = .ok s') :
    Known key id host s' := by
  obtain ⟨r, hr, hhost⟩ := h.row
  refine ⟨h.keyed.insertRun hs, ?_, r, ?_, hhost⟩
  · obtain ⟨e, he, hid⟩ := Option.map_eq_some_iff.1 h.bound
    rw [RunStore.identityRun, (RunStore.insertRun_tables hs).2.2, List.find?_append, he]
    exact congrArg some hid
  · rw [RunStore.runRecord_insertRun hs, if_neg, hr]
    intro hid
    rw [hid, RunStore.insertRun_fresh hs] at hr
    cases hr

theorem known_conduct : TableConduct (Known key id host) where
  writes :=
    { refl := fun _ h => h
      trans := fun h h' hk => h' (h hk)
      save := fun _ _ _ _ _ _ hs h => h.saveRun hs
      label := fun job record labels s' _ _ _ hs h => by
        obtain ⟨old, hold, -, -⟩ := RunStore.saveRun_ok hs
        have hsome : (job.1.runRecord record.runId).isSome = true :=
          Option.isSome_iff_exists.2 ⟨old, hold⟩
        have hknown : Known key id host (job.1.replaceLabels record.runId .bound labels) :=
          ⟨h.keyed.replaceLabels hsome, h.bound, h.row⟩
        exact hknown.saveRun hs
      insert := fun _ _ _ _ _ _ hs h => h.insertRun hs }
  elsewhere _ _ _ h := ⟨keyed_conduct.elsewhere _ _ _ h.keyed, h.bound, h.row⟩

/-- Deleting another instance does not touch the Run, so its external id stays bound to it. -/
theorem Known.deleteInstance {name : InstanceName} (h : Known key id host s)
    (hd : deleteInstance s name = .ok s') (hname : host ≠ some name) : Known key id host s' := by
  obtain ⟨r, hr, hhost⟩ := h.row
  have hkept : id ∉ runsOf s name := by
    rw [mem_runsOf h.keyed.ids]
    rintro ⟨q, hq, hqname⟩
    rw [hr, Option.some.injEq] at hq
    rw [← hq, hhost] at hqname
    exact hname hqname
  refine ⟨h.keyed.deleteInstance hd, ?_, ?_⟩
  · obtain ⟨e, he, hid⟩ := Option.map_eq_some_iff.1 h.bound
    -- the entry is the first one of its key, and the deletion keeps it
    obtain ⟨hkey, before, after, hsplit, hbefore⟩ := List.find?_eq_some_iff_append.1 he
    rw [RunStore.identityRun, RunStore.deleteInstance_identities hd, List.find?_filter,
      Option.map_eq_some_iff]
    refine ⟨e, List.find?_eq_some_iff_append.2 ⟨?_, before, after, hsplit, ?_⟩, hid⟩
    · rw [← hid] at hkept
      simp [hkept, of_decide_eq_true hkey]
    · intro d hd
      have hother := hbefore d hd
      simp only [Bool.not_eq_true', decide_eq_false_iff_not] at hother
      simp [hother]
  · rw [runRecord_deleteInstance h.keyed.ids hd, if_neg hkept, hr, Option.map_some]
    refine ⟨_, rfl, ?_⟩
    unfold orphaned
    split
    · exact hhost
    · exact hhost

/-! ### Binding labels -/

/-- What is bound after a Run's labels were bound. -/
theorem boundLabels_syncBoundLabels {labels : List Label} (hl : BoundLabels labels)
    (hrow : (job.1.runRecord id).isSome = true)
    (h : syncBoundLabels job id labels at_ = .ok job') :
    boundLabels job'.1 id = labels.insertionSort fun a b => a.key ≤ b.key := by
  unfold syncBoundLabels at h
  dsimp only at h
  split at h
  · rename_i hsame
    obtain rfl := Except.ok.inj h
    exact hsame
  · split at h
    · rename_i hnone
      rw [hnone] at hrow
      cases hrow
    · obtain ⟨s', hs, hret⟩ := bind_ok h
      obtain rfl := Except.ok.inj hret
      rw [boundLabels_saveRun hs]
      exact boundLabels_replaceLabels hl.sorted (List.pairwise_insertionSort _ _)

/-- **Binding labels twice is binding them once**: the second time nothing is written and nothing is
told. -/
theorem syncBoundLabels_twice {labels : List Label} (hl : BoundLabels labels)
    (h : syncBoundLabels job id labels at_ = .ok job') (changes : RunChanges) (again : Timestamp) :
    syncBoundLabels (job'.1, changes) id labels again = .ok (job'.1, changes) := by
  cases hrow : (job.1.runRecord id).isSome with
  | true =>
      have hbound := boundLabels_syncBoundLabels hl hrow h
      unfold syncBoundLabels
      exact if_pos hbound
  | false =>
      have hnone : job.1.runRecord id = none := by simpa using hrow
      have hsame : job' = job := by
        unfold syncBoundLabels at h
        dsimp only at h
        rw [hnone] at h
        split at h
        · exact (Except.ok.inj h).symm
        · exact (Except.ok.inj h).symm
      subst hsame
      unfold syncBoundLabels
      dsimp only
      rw [hnone]
      split <;> rfl

/-- **A bound label takes the place of a caller's**: the label of its key is the bound one. -/
theorem boundLabel_replaces {labels : List Label} (hk : job.1.Keyed) (hl : BoundLabels labels)
    (hrow : (job.1.runRecord id).isSome = true)
    (h : syncBoundLabels job id labels at_ = .ok job') {l : Label} (hmem : l ∈ labels) (m : Label) :
    (m ∈ job'.1.runLabels id ∧ m.key = l.key) ↔ m = l := by
  have hk' : job'.1.Keyed := keyed_conduct.writes.syncBoundLabels h hk
  have hread : l ∈ job'.1.runLabels id := by
    have hbound : l ∈ boundLabels job'.1 id := by
      rw [boundLabels_syncBoundLabels hl hrow h]
      exact (List.mem_insertionSort _).2 hmem
    exact List.mem_of_mem_filter hbound
  have hunique : ∀ a ∈ job'.1.runLabels id, ∀ b ∈ job'.1.runLabels id, a.key = b.key → a = b := by
    intro a ha b hb hkey
    obtain ⟨row, hrow, rfl⟩ := List.mem_map.1 ((List.mem_insertionSort _).1 ha)
    obtain ⟨row', hrow', rfl⟩ := List.mem_map.1 ((List.mem_insertionSort _).1 hb)
    exact congrArg Prod.snd (List.inj_on_of_nodup_map (hk'.keys id) hrow hrow' hkey)
  constructor
  · rintro ⟨hm, hkey⟩
    exact hunique m hm l hread hkey
  · rintro rfl
    exact ⟨hread, rfl⟩

end Runs

namespace RunRegistry

variable {reg : RunRegistry} {told : List RunEvent} {request : ChildRunRequest} {minted : RunId}
  {at_ : Timestamp} {fault : Option RunError} {key : String × String} {id : RunId}
  {host : Option InstanceName}

/-! ### Requests to the registry -/

/-- A request for a child.  Its rows, its entry of the index and its event are there once the job has
committed; `fault` is the error of a job that does not commit. -/
def openChildRun (reg : RunRegistry) (told : List RunEvent) (request : ChildRunRequest)
    (minted : RunId) (at_ : Timestamp) (fault : Option RunError) :
    Except RunError RunId × RunRegistry × List RunEvent :=
  match openChild reg.runs request minted at_ with
  | .error err => (.error err, reg, told)
  | .ok (opened, job) =>
      match fault with
      | some err => (.error err, reg, told)
      | none => (.ok opened, ⟨job.1, reg.snapshot.publish job.2.entries⟩, told ++ job.2.events)

/-- A request fails and changes nothing, or its job has committed. -/
theorem openChildRun_cases (reg : RunRegistry) (told : List RunEvent) (request : ChildRunRequest)
    (minted : RunId) (at_ : Timestamp) (fault : Option RunError) :
    (∃ err, openChildRun reg told request minted at_ fault = (.error err, reg, told)) ∨
    ∃ opened job, openChild reg.runs request minted at_ = .ok (opened, job) ∧
      openChildRun reg told request minted at_ fault =
        (.ok opened, ⟨job.1, reg.snapshot.publish job.2.entries⟩, told ++ job.2.events) := by
  unfold openChildRun
  cases openChild reg.runs request minted at_ with
  | error err => exact .inl ⟨err, rfl⟩
  | ok answer =>
      cases fault with
      | some err => exact .inl ⟨err, rfl⟩
      | none => exact .inr ⟨answer.1, answer.2, rfl, rfl⟩

/-- **Every step keeps the keys and the references.** -/
theorem keyed_step (hk : reg.runs.Keyed) (op : Op) : (reg.step op).runs.Keyed :=
  step_keeps keyed_conduct hk op fun _ _ _ hd => hk.deleteInstance hd

theorem keyed_empty : empty.runs.Keyed where
  ids := List.nodup_nil
  labels := by simp [empty, RunStore.empty]
  limits := by simp [empty, RunStore.empty]
  identities := by simp [empty, RunStore.empty]
  keys := by simp [empty, RunStore.empty]

theorem keyed_run (hk : reg.runs.Keyed) (ops : List Op) : (ops.foldl step reg).runs.Keyed := by
  induction ops generalizing reg with
  | nil => exact hk
  | cons op ops ih =>
      rw [List.foldl_cons]
      exact ih (keyed_step hk op)

/-- The operation does not delete the instance. -/
def Spares (host : Option InstanceName) : Op → Prop
  | .remove name true => host ≠ some name
  | _ => True

/-- **Only the removal of its instance unbinds an external id.** -/
theorem known_step (h : Known key id host reg.runs) (op : Op) (hop : Spares host op) :
    Known key id host (reg.step op).runs := by
  refine step_keeps known_conduct h op fun name s' heq hd => ?_
  subst heq
  exact h.deleteInstance hd hop

theorem known_run (h : Known key id host reg.runs) (ops : List Op)
    (hops : ∀ op ∈ ops, Spares host op) : Known key id host (ops.foldl step reg).runs := by
  induction ops generalizing reg with
  | nil => exact h
  | cons op ops ih =>
      rw [List.foldl_cons]
      refine ih (known_step h op (hops op List.mem_cons_self)) fun op' hop' => ?_
      exact hops op' (List.mem_cons_of_mem _ hop')

/-- A request for an external id that is known is answered with its Run. -/
theorem openChildRun_known {e : String} (h : Known (hostIdentityBinding, e) id host reg.runs)
    (he : request.externalId = some e) :
    openChildRun reg told request minted at_ fault =
      (fault.elim (.ok id) .error, reg, told) := by
  have hopen : openChild reg.runs request minted at_ = .ok (id, reg.runs, RunChanges.empty) := by
    unfold openChild
    rw [he, Option.bind_some, h.bound]
    rfl
  unfold openChildRun
  rw [hopen]
  cases fault with
  | none => simp [RunChanges.empty, RunSnapshot.publish]
  | some err => rfl

/-- **A child is opened whole or not at all, and an external id once.**  A request that fails leaves
the tables, the index and the events as they were.  One that succeeds is answered with the Run its
external id was bound to, and changes nothing, or opens one Run as requested, with its event and its
entry.  Whatever happens then, every later request with that external id is answered with this Run
and changes nothing, for as long as the instance that hosts it is not removed.  And binding labels a
second time changes nothing and tells nothing, and a bound label takes the place of a caller's. -/
theorem openChild_atomic (hkeyed : reg.runs.Keyed)
    {x : Except RunError RunId × RunRegistry × List RunEvent}
    (hx : openChildRun reg told request minted at_ fault = x) :
    (∀ err, x.1 = .error err → x.2 = (reg, told)) ∧
    (∀ opened, x.1 = .ok opened →
      ((∃ e ∈ request.externalId, reg.runs.identityRun (hostIdentityBinding, e) = some opened) ∧
        x.2 = (reg, told)) ∨
      (opened = minted ∧ ∃ parent, OpenedChild reg.runs x.2.1.runs request parent minted at_ ∧
        ∃ changes, changes = note x.2.1.runs RunChanges.empty (childRecord parent minted at_)
            .created Prior.none (if parent.status = .held then some "parent-paused" else none) ∧
          x.2.1.snapshot = reg.snapshot.publish changes.entries ∧
          x.2.2 = told ++ changes.events)) ∧
    (∀ opened e, x.1 = .ok opened → request.externalId = some e → ∀ ops : List Op,
      (∀ op ∈ ops, Spares ((x.2.1.runs.runRecord opened).bind RunRecord.instanceName) op) →
      ∀ told₂ request₂ minted₂ at₂ fault₂, request₂.externalId = some e →
        openChildRun (ops.foldl step x.2.1) told₂ request₂ minted₂ at₂ fault₂ =
          (fault₂.elim (.ok opened) .error, ops.foldl step x.2.1, told₂)) ∧
    (∀ id labels at_ job, BoundLabels labels →
      syncBoundLabels (reg.runs, RunChanges.empty) id labels at_ = .ok job →
      (∀ again, syncBoundLabels (job.1, RunChanges.empty) id labels again =
        .ok (job.1, RunChanges.empty)) ∧
      ((reg.runs.runRecord id).isSome = true → ∀ l ∈ labels, ∀ m,
        (m ∈ job.1.runLabels id ∧ m.key = l.key) ↔ m = l)) := by
  have hbinds : ∀ id labels at_ job, BoundLabels labels →
      syncBoundLabels (reg.runs, RunChanges.empty) id labels at_ = .ok job →
      (∀ again, syncBoundLabels (job.1, RunChanges.empty) id labels again =
        .ok (job.1, RunChanges.empty)) ∧
      ((reg.runs.runRecord id).isSome = true → ∀ l ∈ labels, ∀ m,
        (m ∈ job.1.runLabels id ∧ m.key = l.key) ↔ m = l) := by
    intro id labels at_ job hl hsync
    have hk : ((reg.runs, RunChanges.empty) : Job).1.Keyed := hkeyed
    refine ⟨fun again => syncBoundLabels_twice hl hsync _ again, fun hrow l hmem m => ?_⟩
    exact boundLabel_replaces hk hl hrow hsync hmem m
  subst hx
  rcases openChildRun_cases reg told request minted at_ fault with
    ⟨err, hx⟩ | ⟨opened, job, hopen, hx⟩
  · rw [hx]
    refine ⟨fun _ _ => rfl, fun opened hok => ?_, fun opened e hok => ?_, hbinds⟩
    · cases hok
    · cases hok
  · rw [hx]
    refine ⟨fun err herr => ?_, fun answer hok => ?_, fun answer e hok he ops hops => ?_, hbinds⟩
    · cases herr
    · obtain rfl := Except.ok.inj hok
      rcases openChild_opened hkeyed hopen with ⟨e, he, hrun, rfl⟩ | ⟨hid, parent, hnew, hnote⟩
      · refine .inl ⟨⟨e, he, hrun⟩, ?_⟩
        simp [RunChanges.empty, RunSnapshot.publish]
      · exact .inr ⟨hid, parent, hnew, job.2, hnote, rfl, rfl⟩
    · obtain rfl := Except.ok.inj hok
      -- the id was known before, or this request has bound it
      have hbound : job.1.identityRun (hostIdentityBinding, e) = some opened := by
        rcases openChild_opened hkeyed hopen with ⟨e', he', hrun, rfl⟩ | ⟨rfl, parent, hnew, -⟩
        · rw [he, Option.mem_some_iff] at he'
          rw [he']
          exact hrun
        · exact hnew.identity e he
      have hk : job.1.Keyed := keyed_conduct.writes.openChild hopen hkeyed
      intro told₂ request₂ minted₂ at₂ fault₂ he₂
      exact openChildRun_known (known_run (known_of_identityRun hk hbound) ops hops) he₂

/-- An agent that was started. -/
def hosting : RunRegistry :=
  [Op.job (.register "a") "1" true, .job (.launch "a" false 1 true []) "2" true,
    .transition "a" .running .terminal "launched" "3" none true].foldl step empty

/-- A task of a host under the agent, with more tokens than a column holds. -/
def hostedTask : ChildRunRequest :=
  ⟨.ofInstance "a", [("task", "t")], ⟨some (2 ^ 64 - 1), none, some .warn⟩, some "x"⟩

/-- The agent is stopped, and the host asks for the same task under a Run there is not. -/
theorem openChild_atomic_stopped :
    (openChildRun ([Op.transition "a" .stopped .terminal "stop" "5" none true].foldl step
        (openChildRun hosting [] hostedTask 2 "4" none).2.1) []
      ⟨.run 9, [], RunLimits.empty, some "x"⟩ 3 "6" none).1 = .ok 2 := by
  have hkeyed : hosting.runs.Keyed := keyed_run keyed_empty _
  have hok : (openChildRun hosting [] hostedTask 2 "4" none).1 = .ok 2 := by decide +kernel
  have hlater := (openChild_atomic hkeyed (Eq.refl (openChildRun hosting [] hostedTask 2 "4" none))
    ).2.2.1 2 "x" hok rfl [Op.transition "a" .stopped .terminal "stop" "5" none true]
    (fun op hop => by
      rw [List.mem_singleton.1 hop]
      trivial) [] ⟨.run 9, [], RunLimits.empty, some "x"⟩ 3 "6" none rfl
  rw [hlater]
  rfl

/-- The agent is stopped and removed, and another one is started. -/
def rehosting : List Op :=
  [.transition "a" .stopped .terminal "stop" "5" none true, .remove "a" true,
    .job (.register "b") "6" true, .job (.launch "b" false 3 true []) "7" true]

/-- A token ceiling that does not fit its column is not kept as requested; and once the instance that
hosts its Run is removed, an external id is given a second Run. -/
theorem child_capped_and_reopened :
    (¬ ∀ (reg : RunRegistry) (told : List RunEvent) (request : ChildRunRequest) (minted : RunId)
      (at_ : Timestamp), reg.runs.Keyed →
        (openChildRun reg told request minted at_ none).1 = .ok minted →
        (openChildRun reg told request minted at_ none).2.1.runs.runLimits minted =
          request.limits) ∧
    ¬ ∀ (reg : RunRegistry) (told : List RunEvent) (request request₂ : ChildRunRequest)
      (minted minted₂ opened opened₂ : RunId) (at_ at₂ : Timestamp) (ops : List Op),
        reg.runs.Keyed → request.externalId.isSome → request₂.externalId = request.externalId →
        (openChildRun reg told request minted at_ none).1 = .ok opened →
        (openChildRun (ops.foldl step (openChildRun reg told request minted at_ none).2.1) told
          request₂ minted₂ at₂ none).1 = .ok opened₂ → opened₂ = opened := by
  have hkeyed : hosting.runs.Keyed := keyed_run keyed_empty _
  constructor
  · intro h
    have hcapped := h hosting [] hostedTask 2 "4" hkeyed (by decide +kernel)
    exact absurd hcapped (by decide +kernel)
  · intro h
    have hsame := h hosting [] hostedTask ⟨.ofInstance "b", [], RunLimits.empty, some "x"⟩ 2 4 2 4
      "4" "8" rehosting hkeyed rfl rfl (by decide +kernel) (by decide +kernel)
    exact absurd hsame (by decide)

end RunRegistry

end Hekma
