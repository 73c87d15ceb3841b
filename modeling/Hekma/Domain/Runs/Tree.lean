/-
**The Run tree stays consistent.**

Every operation of the registry moves part of a tree: a status change of an owner is carried over
to the Runs that share its process, an ended Run may be reopened, a launch may replace the open
Run of its instance.  The invariant behind them is one about roots: the root of every Run owns the
process, and an open Run always has the status of its root.

Main definitions:

* `Restatus` — the tables changed in statuses and end columns only, as a partial map says;
* `TreeInv` — the invariant;
* `RunOp`, `RunOp.apply`, `runOps` — the operations as their callers issue them.

Main results:

* `moveTo_restatus`, `cascade_restatus`, `moveOwner_restatus` — what the moves change;
* `TreeInv.restatus`, `TreeInv.insertOwner`, `TreeInv.insertChild` — what keeps the invariant;
* `runOps_inv` — it holds after every sequence of operations;
* `runTree_consistent` — **the statuses of the tree** in the words of the registry.
-/

import Hekma.Domain.Runs.Ops

set_option relaxedAutoImplicit false
set_option autoImplicit false

namespace Hekma

namespace Runs

variable {s s' s'' : RunStore} {job job' : Job} {record r q : RunRecord} {id o p : RunId}
  {status : RunStatus} {at_ : Timestamp}

/-! ### Changes of status -/

/-- A row after a change that may set its status and keeps its place in the tree. -/
structure RowMoved (σ : Option RunStatus) (r r' : RunRecord) : Prop where
  parent : r'.parentRunId = r.parentRunId
  named : r'.instanceName = r.instanceName
  owner : r'.processOwner = r.processOwner
  status : r'.status = σ.getD r.status
  marked : r.EndMarked → r'.EndMarked

/-- The tables after a change of statuses: `σ` gives the new status of the Runs it moves. -/
structure Restatus (σ : RunId → Option RunStatus) (s s' : RunStore) : Prop where
  spawn : s'.spawnRunId = s.spawnRunId
  keys : s.KeyUnique → s'.KeyUnique
  rows : ∀ id, Option.Rel (RowMoved (σ id)) (s.runRecord id) (s'.runRecord id)

/-- Only `id` is moved. -/
def only (id : RunId) (status : RunStatus) : RunId → Option RunStatus :=
  fun i => if i = id then some status else none

theorem RowMoved.refl {σ : Option RunStatus} (h : σ.getD r.status = r.status) : RowMoved σ r r :=
  ⟨rfl, rfl, rfl, h.symm, id⟩

theorem Restatus.refl {σ : RunId → Option RunStatus}
    (h : ∀ id r, s.runRecord id = some r → (σ id).getD r.status = r.status) : Restatus σ s s := by
  refine ⟨rfl, id, fun id => ?_⟩
  cases hr : s.runRecord id with
  | none => exact .none
  | some r => exact .some (.refl (h id r hr))

theorem Restatus.trans {σ τ ρ : RunId → Option RunStatus} (h₁ : Restatus σ s s')
    (h₂ : Restatus τ s' s'')
    (h : ∀ id r, s.runRecord id = some r →
      (ρ id).getD r.status = (τ id).getD ((σ id).getD r.status)) : Restatus ρ s s'' := by
  refine ⟨h₂.spawn.trans h₁.spawn, h₂.keys ∘ h₁.keys, fun id => ?_⟩
  have hrow₁ := h₁.rows id
  have hrow₂ := h₂.rows id
  have hid := h id
  revert hrow₁ hrow₂ hid
  generalize s.runRecord id = x
  generalize s'.runRecord id = y
  generalize s''.runRecord id = z
  rintro (hab | _) (hbc | _) hid
  · refine .some ⟨hbc.parent.trans hab.parent, hbc.named.trans hab.named,
      hbc.owner.trans hab.owner, ?_, hbc.marked ∘ hab.marked⟩
    rw [hbc.status, hab.status, hid _ rfl]
  · exact .none

/-- The row of a Run after a change. -/
theorem Restatus.row {σ : RunId → Option RunStatus} (h : Restatus σ s s')
    (hr : s.runRecord id = some r) : ∃ r', s'.runRecord id = some r' ∧ RowMoved (σ id) r r' := by
  have hrow := h.rows id
  rw [hr] at hrow
  generalize hx : s'.runRecord id = x at hrow
  obtain hm | _ := hrow
  exact ⟨_, rfl, hm⟩

/-- The row of a Run before a change. -/
theorem Restatus.row_of {σ : RunId → Option RunStatus} (h : Restatus σ s s')
    (hr : s'.runRecord id = some r) : ∃ r₀, s.runRecord id = some r₀ ∧ RowMoved (σ id) r₀ r := by
  have hrow := h.rows id
  rw [hr] at hrow
  generalize hx : s.runRecord id = x at hrow
  obtain hm | _ := hrow
  exact ⟨_, rfl, hm⟩

/-- A change of status keeps the forest. -/
theorem Restatus.parentOf {σ : RunId → Option RunStatus} (h : Restatus σ s s') :
    s'.parentOf = s.parentOf := by
  funext id
  unfold RunStore.parentOf
  cases hr : s.runRecord id with
  | some r =>
      obtain ⟨r', hr', hm⟩ := h.row hr
      rw [hr', Option.bind_some, Option.bind_some, hm.parent]
  | none =>
      cases hr' : s'.runRecord id with
      | none => rfl
      | some r' =>
          obtain ⟨r₀, hr₀, -⟩ := h.row_of hr'
          rw [hr] at hr₀
          exact absurd hr₀ (by simp)

/-- The tables grew: every row keeps its place in the tree, and only `fresh` may have a new row. -/
structure Grown (fresh : Option RunId) (s s' : RunStore) : Prop where
  rows : ∀ {id r}, s.runRecord id = some r → ∃ r', s'.runRecord id = some r' ∧
    r'.parentRunId = r.parentRunId ∧ r'.processOwner = r.processOwner ∧
    r'.instanceName = r.instanceName
  news : ∀ {id}, s.runRecord id = none → fresh ≠ some id → s'.runRecord id = none

theorem Grown.refl {fresh : Option RunId} : Grown fresh s s :=
  ⟨fun {_ r} hr => ⟨r, hr, rfl, rfl, rfl⟩, fun hid _ => hid⟩

theorem Grown.trans {fresh : Option RunId} (h₁ : Grown fresh s s') (h₂ : Grown fresh s' s'') :
    Grown fresh s s'' := by
  refine ⟨fun hr => ?_, fun hid hne => h₂.news (h₁.news hid hne) hne⟩
  obtain ⟨r₁, hr₁, hp₁, ho₁, hn₁⟩ := h₁.rows hr
  obtain ⟨r₂, hr₂, hp₂, ho₂, hn₂⟩ := h₂.rows hr₁
  exact ⟨r₂, hr₂, hp₂.trans hp₁, ho₂.trans ho₁, hn₂.trans hn₁⟩

/-- A change of statuses adds no row. -/
theorem Restatus.grown {σ : RunId → Option RunStatus} {fresh : Option RunId}
    (h : Restatus σ s s') : Grown fresh s s' := by
  refine ⟨fun hr => ?_, fun {id} hid _ => ?_⟩
  · obtain ⟨r', hr', hm⟩ := h.row hr
    exact ⟨r', hr', hm.parent, hm.owner, hm.named⟩
  · cases hr : s'.runRecord id with
    | none => rfl
    | some r =>
        obtain ⟨r₀, hr₀, -⟩ := h.row_of hr
        rw [hid] at hr₀
        exact absurd hr₀ (by simp)

/-- Nothing is new if the fresh id had a row. -/
theorem Grown.of_row {fresh : Option RunId} (h : Grown (some id) s s')
    (hr : s.runRecord id = some r) : Grown fresh s s' := by
  refine ⟨h.rows, fun {i} hi _ => h.news hi fun he => ?_⟩
  obtain rfl := Option.some.inj he
  rw [hr] at hi
  exact absurd hi (by simp)

/-- Writing a row moves that row to its status. -/
theorem saveRun_restatus (h : s.saveRun record = .ok s')
    (hmark : ∀ old, s.runRecord record.runId = some old → old.EndMarked → record.EndMarked) :
    Restatus (only record.runId record.status) s s' := by
  obtain ⟨old, hold, -, hs⟩ := RunStore.saveRun_ok h
  refine ⟨by rw [hs], fun hk => hk.saveRun h, fun id => ?_⟩
  by_cases hid : id = record.runId
  · subst hid
    rw [RunStore.runRecord_saveRun_self h hold, hold]
    refine .some ⟨rfl, rfl, rfl, by simp [only], fun hm => ?_⟩
    exact hmark old hold hm
  · rw [RunStore.runRecord_saveRun_of_ne h hid]
    cases s.runRecord id with
    | none => exact .none
    | some r => exact .some (.refl (by simp [only, hid]))

/-! ### The moves -/

/-- A move writes a row whose end columns are marked, if the cause of an end is given and no ended
Run is moved back. -/
theorem movedRecord_marked {anomalies : List Anomaly} {cause : Option String}
    (hcause : status = .ended → record.status ≠ .ended → cause.isSome)
    (hopen : record.status = .ended → status = .ended) (h : record.EndMarked) :
    (movedRecord record status anomalies cause at_).EndMarked := by
  unfold movedRecord
  by_cases hend : status = .ended ∧ record.status ≠ .ended
  · have hc := hcause hend.1 hend.2
    rw [if_pos hend]
    exact ⟨by simp [hend.1], by simp [hend.1, hc]⟩
  · rw [if_neg hend]
    have hiff : status = .ended ↔ record.status = .ended := by
      refine ⟨fun hs => ?_, hopen⟩
      by_contra hne
      exact hend ⟨hs, hne⟩
    exact ⟨hiff.trans h.1, hiff.trans h.2⟩

@[simp] theorem movedRecord_runId {anomalies : List Anomaly} {cause : Option String} :
    (movedRecord record status anomalies cause at_).runId = record.runId := by
  unfold movedRecord
  split <;> rfl

/-- A move leaves the rows of the other Runs alone. -/
theorem moveTo_frame {anomalies : List Anomaly} {cause : Option String}
    (h : moveTo job record status anomalies cause at_ = .ok job') (hid : id ≠ record.runId) :
    job'.1.runRecord id = job.1.runRecord id := by
  unfold moveTo at h
  dsimp only at h
  split at h
  · rw [Except.ok.inj h]
  · obtain ⟨s', hs', hret⟩ := bind_ok h
    obtain rfl := Except.ok.inj hret
    exact RunStore.runRecord_saveRun_of_ne hs' (by rwa [movedRecord_runId])

/-- A move sets the status of its Run and of no other one. -/
theorem moveTo_restatus {anomalies : List Anomaly} {cause : Option String}
    (h : moveTo job record status anomalies cause at_ = .ok job')
    (hrec : job.1.runRecord record.runId = some record)
    (hcause : status = .ended → record.status ≠ .ended → cause.isSome)
    (hopen : record.status = .ended → status = .ended) :
    Restatus (only record.runId status) job.1 job'.1 := by
  unfold moveTo at h
  dsimp only at h
  split at h
  · rename_i hsame
    obtain rfl := Except.ok.inj h
    refine Restatus.refl fun id r hr => ?_
    by_cases hid : id = record.runId
    · subst hid
      rw [hrec, Option.some.injEq] at hr
      simp [only, ← hr, hsame.1]
    · simp [only, hid]
  · obtain ⟨s', hs', hret⟩ := bind_ok h
    obtain rfl := Except.ok.inj hret
    have hmoved := saveRun_restatus hs' fun old hold hm => by
      rw [movedRecord_runId, hrec, Option.some.injEq] at hold
      exact movedRecord_marked hcause hopen (hold ▸ hm)
    rwa [movedRecord_runId] at hmoved

/-- Moving one Run that shares the process moves it as the owner moved, from the status the owner
had. -/
theorem cascadeChild_restatus {from_ to_ : RunStatus} {stopped : Bool}
    (h : cascadeChild to_ stopped at_ job record = .ok job')
    (hrec : job.1.runRecord record.runId = some record) (hfrom : record.status = from_)
    (hne : from_ ≠ to_) (hknown : from_ = .active ∨ from_ = .held)
    (hto : to_ = .active ∨ to_ = .held ∨ to_ = .ended) :
    Restatus (only record.runId to_) job.1 job'.1 := by
  have hopen : record.status ≠ .ended := by
    rw [hfrom]
    rcases hknown with rfl | rfl <;> simp
  unfold cascadeChild at h
  split at h
  · rename_i hc
    rw [hc.1]
    exact moveTo_restatus h hrec (by simp) fun he => absurd he hopen
  · split at h
    · rename_i hc
      rw [hc.1]
      exact moveTo_restatus h hrec (by simp) fun he => absurd he hopen
    · split at h
      · rename_i hc
        rw [hc]
        exact moveTo_restatus h hrec (by simp) fun _ => rfl
      · -- no other pair of statuses is left
        rename_i h₁ h₂ h₃
        rw [hfrom] at h₁ h₂
        rcases hknown with rfl | rfl <;> rcases hto with rfl | rfl | rfl <;> simp_all

theorem cascadeChild_frame {to_ : RunStatus} {stopped : Bool}
    (h : cascadeChild to_ stopped at_ job record = .ok job') (hid : id ≠ record.runId) :
    job'.1.runRecord id = job.1.runRecord id := by
  unfold cascadeChild at h
  split at h
  · exact moveTo_frame h hid
  · split at h
    · exact moveTo_frame h hid
    · split at h
      · exact moveTo_frame h hid
      · rw [Except.ok.inj h]

/-- The Runs of a list moved to one status. -/
def those (l : List RunRecord) (status : RunStatus) : RunId → Option RunStatus :=
  fun id => if id ∈ l.map RunRecord.runId then some status else none

/-- Moving a list of distinct Runs one after the other moves each of them. -/
theorem cascade_fold_restatus {from_ to_ : RunStatus} {stopped : Bool} (hne : from_ ≠ to_)
    (hknown : from_ = .active ∨ from_ = .held)
    (hto : to_ = .active ∨ to_ = .held ∨ to_ = .ended) (l : List RunRecord) {job job' : Job}
    (h : l.foldlM (cascadeChild to_ stopped at_) job = .ok job')
    (hnd : (l.map RunRecord.runId).Nodup)
    (hrec : ∀ r ∈ l, job.1.runRecord r.runId = some r ∧ r.status = from_) :
    Restatus (those l to_) job.1 job'.1 := by
  induction l generalizing job with
  | nil =>
      obtain rfl := Except.ok.inj h
      exact Restatus.refl fun id r _ => by simp [those]
  | cons c l ih =>
      rw [List.foldlM_cons] at h
      obtain ⟨job₁, h₁, h₂⟩ := bind_ok h
      have hc := hrec c List.mem_cons_self
      have hmove := cascadeChild_restatus h₁ hc.1 hc.2 hne hknown hto
      rw [List.map_cons, List.nodup_cons] at hnd
      -- the Runs still to come have other ids, so their rows are the ones that were read
      have hrest : ∀ r ∈ l, job₁.1.runRecord r.runId = some r ∧ r.status = from_ := by
        intro r hr
        have hid : r.runId ≠ c.runId := fun he => hnd.1 (he ▸ List.mem_map_of_mem hr)
        rw [cascadeChild_frame h₁ hid]
        exact hrec r (List.mem_cons_of_mem _ hr)
      refine hmove.trans (ih h₂ hnd.2 hrest) fun id r _ => ?_
      by_cases hid : id = c.runId
      · subst hid
        simp [those, only, hnd.1]
      · by_cases hl : id ∈ l.map RunRecord.runId
        · simp only [those, List.map_cons, List.mem_cons, hl, or_true, if_true]; rfl
        · simp only [those, only, List.map_cons, List.mem_cons, hl, hid, or_false, if_false]; rfl

/-! ### The invariant -/

/-- The shape of the Run tree: the rows have distinct ids, a Run and its parent run in one
instance, exactly the roots own a process, and no walk upward visits more than the nesting
bound. -/
structure TreeShape (s : RunStore) : Prop where
  keys : s.KeyUnique
  parents : ∀ {id r p}, s.runRecord id = some r → r.parentRunId = some p →
    ∃ q, s.runRecord p = some q ∧ q.instanceName = r.instanceName
  roots : ∀ {id r}, s.runRecord id = some r → (r.processOwner = true ↔ r.parentRunId = none)
  named : ∀ {id r}, s.runRecord id = some r → r.instanceName.isSome
  height : Forest.Height s.parentOf maxRunNesting

/-- The Run tree is consistent: it has its shape, the end columns are marked, no instance has two
open owners, and every open Run has the status of its root. -/
structure TreeInv (s : RunStore) : Prop extends TreeShape s where
  known : ∀ {id r}, s.runRecord id = some r →
    r.status = .active ∨ r.status = .held ∨ r.status = .ended
  marked : ∀ {id r}, s.runRecord id = some r → r.EndMarked
  oneOwner : ∀ {i j r q}, s.runRecord i = some r → s.runRecord j = some q →
    r.processOwner = true → q.processOwner = true → r.status ≠ .ended → q.status ≠ .ended →
    r.instanceName = q.instanceName → i = j
  follows : ∀ {id o r q}, s.runRecord id = some r → r.status ≠ .ended →
    Forest.IsRoot s.parentOf id o → s.runRecord o = some q → q.status = r.status

/-- The spawn record of an instance names a process-owning Run of it. -/
def SpawnNamed (s : RunStore) : Prop :=
  ∀ name id, s.spawnRunId name = some id →
    ∃ r, s.runRecord id = some r ∧ r.processOwner = true ∧ r.instanceName = some name

theorem treeInv_empty : TreeInv RunStore.empty := by
  have hnone : ∀ {id r}, ¬ RunStore.empty.runRecord id = some r := by
    intro id r hr
    exact absurd hr (by simp [RunStore.empty, RunStore.runRecord])
  refine ⟨⟨List.nodup_nil, fun h => absurd h hnone, fun h => absurd h hnone,
    fun h => absurd h hnone, fun n => Forest.up_succ_of_root rfl⟩, fun h => absurd h hnone,
    fun h => absurd h hnone, fun h => absurd h hnone, fun h => absurd h hnone⟩

/-- The root of a Run has a row, in the same instance. -/
theorem TreeShape.root_row (h : TreeShape s) (hr : s.runRecord id = some r)
    (hroot : Forest.IsRoot s.parentOf id o) :
    ∃ q, s.runRecord o = some q ∧ q.processOwner = true ∧ q.instanceName = r.instanceName := by
  obtain ⟨⟨k, hk⟩, ho⟩ := hroot
  -- by induction on the length of the walk
  induction k generalizing id r with
  | zero =>
      rw [Forest.up_zero, Option.some.injEq] at hk
      subst hk
      rw [RunStore.parentOf, hr, Option.bind_some] at ho
      exact ⟨r, hr, (h.roots hr).2 ho, rfl⟩
  | succ k ih =>
      rw [Forest.up_succ] at hk
      obtain ⟨p, hp, hk⟩ := Option.bind_eq_some_iff.1 hk
      rw [RunStore.parentOf, hr, Option.bind_some] at hp
      obtain ⟨q, hq, hname⟩ := h.parents hr hp
      obtain ⟨q', hq', hown, hname'⟩ := ih hq hk
      exact ⟨q', hq', hown, hname'.trans hname⟩

/-- A root owns its process, and is its own root only. -/
theorem TreeShape.owner_root (h : TreeShape s) (hr : s.runRecord id = some r)
    (hown : r.processOwner = true) (hroot : Forest.IsRoot s.parentOf id o) : o = id := by
  have hp : s.parentOf id = none := by
    rw [RunStore.parentOf, hr, Option.bind_some]
    exact (h.roots hr).1 hown
  exact hroot.unique (.self hp)

/-- A change of statuses keeps the shape. -/
theorem TreeShape.restatus {σ : RunId → Option RunStatus} (h : TreeShape s)
    (hs : Restatus σ s s') : TreeShape s' where
  keys := hs.keys h.keys
  parents := by
    intro id r p hr hp
    obtain ⟨r₀, hr₀, hm⟩ := hs.row_of hr
    obtain ⟨q₀, hq₀, hname⟩ := h.parents hr₀ (hm.parent ▸ hp)
    obtain ⟨q, hq, hmq⟩ := hs.row hq₀
    exact ⟨q, hq, by rw [hmq.named, hname, hm.named]⟩
  roots := by
    intro id r hr
    obtain ⟨r₀, hr₀, hm⟩ := hs.row_of hr
    rw [hm.owner, hm.parent]
    exact h.roots hr₀
  named := by
    intro id r hr
    obtain ⟨r₀, hr₀, hm⟩ := hs.row_of hr
    rw [hm.named]
    exact h.named hr₀
  height := by
    rw [hs.parentOf]
    exact h.height

/-- A change of statuses keeps the invariant if it moves every Run with its root, to a known
status, and reopens none. -/
theorem TreeInv.restatus {σ : RunId → Option RunStatus} (h : TreeInv s) (hs : Restatus σ s s')
    (hknown : ∀ id st, σ id = some st → st = .active ∨ st = .held ∨ st = .ended)
    (hopen : ∀ id r, s.runRecord id = some r → (σ id).getD r.status ≠ .ended →
      r.status ≠ .ended)
    (hfollow : ∀ id r o q, s.runRecord id = some r → (σ id).getD r.status ≠ .ended →
      Forest.IsRoot s.parentOf id o → s.runRecord o = some q →
      (σ o).getD q.status = (σ id).getD r.status) : TreeInv s' where
  toTreeShape := h.toTreeShape.restatus hs
  known := by
    intro id r hr
    obtain ⟨r₀, hr₀, hm⟩ := hs.row_of hr
    rw [hm.status]
    cases hσ : σ id with
    | none => exact h.known hr₀
    | some st => exact hknown id st hσ
  marked := by
    intro id r hr
    obtain ⟨r₀, hr₀, hm⟩ := hs.row_of hr
    exact hm.marked (h.marked hr₀)
  oneOwner := by
    intro i j r q hr hq hro hqo hre hqe hname
    obtain ⟨r₀, hr₀, hm⟩ := hs.row_of hr
    obtain ⟨q₀, hq₀, hmq⟩ := hs.row_of hq
    refine h.oneOwner hr₀ hq₀ (hm.owner ▸ hro) (hmq.owner ▸ hqo)
      (hopen i r₀ hr₀ (hm.status ▸ hre)) (hopen j q₀ hq₀ (hmq.status ▸ hqe)) ?_
    rw [← hm.named, ← hmq.named, hname]
  follows := by
    intro id o r q hr hre hroot hq
    obtain ⟨r₀, hr₀, hm⟩ := hs.row_of hr
    obtain ⟨q₀, hq₀, hmq⟩ := hs.row_of hq
    rw [hs.parentOf] at hroot
    rw [hm.status, hmq.status]
    exact hfollow id r₀ o q₀ hr₀ (hm.status ▸ hre) hroot hq₀

/-- A change that moves no Run keeps the invariant. -/
theorem TreeInv.restatus_none (h : TreeInv s) (hs : Restatus (fun _ => none) s s') :
    TreeInv s' :=
  h.restatus hs (by simp) (fun _ _ _ he => he)
    fun _ _ _ _ hr he hroot hq => h.follows hr he hroot hq

theorem SpawnNamed.restatus {σ : RunId → Option RunStatus} (h : SpawnNamed s)
    (hs : Restatus σ s s') : SpawnNamed s' := by
  intro name id hid
  rw [hs.spawn] at hid
  obtain ⟨r, hr, hown, hname⟩ := h name id hid
  obtain ⟨r', hr', hm⟩ := hs.row hr
  exact ⟨r', hr', hm.owner.trans hown, hm.named.trans hname⟩

/-! ### Moving an owner -/

/-- The Run shares the process of the owner `o`: it is open, owns no process, and its root is
`o`. -/
def Shares (s : RunStore) (o id : RunId) : Prop :=
  ∃ r, s.runRecord id = some r ∧ r.status ≠ .ended ∧ r.processOwner = false ∧
    Forest.IsRoot s.parentOf id o

/-- An owner and the Runs that share its process, moved to one status. -/
noncomputable def family (s : RunStore) (o : RunId) (status : RunStatus) :
    RunId → Option RunStatus :=
  open Classical in fun id => if id = o ∨ Shares s o id then some status else none

/-- The recursive query finds the Runs that share the process of an owner. -/
theorem TreeShape.mem_descendants (h : TreeShape s) (hq : s.runRecord o = some q)
    (hown : q.processOwner = true) :
    r ∈ s.openInProcessDescendants o ↔ s.runRecord r.runId = some r ∧ Shares s o r.runId := by
  rw [RunStore.mem_openInProcessDescendants h.keys]
  constructor
  · rintro ⟨hmem, ⟨d, -, hup⟩, hopen, hown', -, -⟩
    have hr := h.keys.runRecord hmem
    refine ⟨hr, r, hr, hopen, hown', ⟨⟨d + 1, hup⟩, ?_⟩⟩
    rw [RunStore.parentOf, hq, Option.bind_some]
    exact (h.roots hq).1 hown
  · rintro ⟨hr, r', hr', hopen, hown', hroot⟩
    rw [hr, Option.some.injEq] at hr'
    subst hr'
    obtain ⟨q', hq', -, hname⟩ := h.root_row hr hroot
    rw [hq, Option.some.injEq] at hq'
    subst hq'
    obtain ⟨⟨k, hk⟩, hnone⟩ := hroot
    refine ⟨RunStore.mem_of_runRecord hr, ?_, hopen, hown', h.named hr, ?_⟩
    · cases k with
      | zero =>
          rw [Forest.up_zero, Option.some.injEq] at hk
          rw [hk, hq, Option.some.injEq] at hr
          rw [← hr, hown] at hown'
          exact absurd hown' (by simp)
      | succ d =>
          have hlt := h.height.lt hk
          exact ⟨d, by unfold maxRunNesting at hlt; omega, hk⟩
    · rw [hq, Option.bind_some, hname]

theorem Shares.ne (h : Shares s o id) (hq : s.runRecord o = some q)
    (hown : q.processOwner = true) : id ≠ o := by
  rintro rfl
  obtain ⟨r, hr, -, hno, -⟩ := h
  rw [hq, Option.some.injEq] at hr
  rw [← hr, hown] at hno
  exact absurd hno (by simp)

/-- The Runs that share a process stay the same when only the row of its owner changes. -/
theorem shares_frame (hframe : ∀ id, id ≠ o → s'.runRecord id = s.runRecord id)
    (hparent : s'.parentOf = s.parentOf) (hne : id ≠ o) : Shares s' o id ↔ Shares s o id := by
  unfold Shares
  rw [hframe id hne, hparent]

/-- Moving an owner moves the Runs that share its process with it. -/
theorem moveOwner_restatus {anomalies : List Anomaly} {cause : Option String} {stopped : Bool}
    (h : moveOwner job q status anomalies cause stopped at_ = .ok job') (hinv : TreeInv job.1)
    (hq : job.1.runRecord q.runId = some q) (hown : q.processOwner = true)
    (hopen : q.status ≠ .ended) (hcause : status = .ended → cause.isSome)
    (hto : status = .active ∨ status = .held ∨ status = .ended) :
    Restatus (family job.1 q.runId status) job.1 job'.1 := by
  obtain ⟨job₁, h₁, h₂⟩ := bind_ok h
  have hmove := moveTo_restatus h₁ hq (fun he _ => hcause he) fun he => absurd he hopen
  have hknown : q.status = .active ∨ q.status = .held := by
    rcases hinv.known hq with ha | hh | he
    · exact .inl ha
    · exact .inr hh
    · exact absurd he hopen
  -- a Run that shares the process has the status the owner had
  have hshare : ∀ id r, Shares job.1 q.runId id → job.1.runRecord id = some r →
      r.status = q.status := by
    rintro id r ⟨r', hr', he, -, hroot⟩ hr
    rw [hr, Option.some.injEq] at hr'
    subst hr'
    exact (hinv.follows hr he hroot hq).symm
  unfold cascade at h₂
  split at h₂
  · -- the owner keeps its status, so nothing has to follow it
    rename_i hsame
    obtain rfl := Except.ok.inj h₂
    refine hmove.trans (Restatus.refl (σ := fun _ => none) fun _ _ _ => rfl) fun id r hr => ?_
    by_cases hid : id = q.runId
    · simp [family, only, hid]
    · by_cases hs : Shares job.1 q.runId id
      · simp [family, only, hid, hs, hshare id r hs hr, hsame]
      · simp [family, only, hid, hs]
  · rename_i hne
    have hshape := hinv.toTreeShape.restatus hmove
    obtain ⟨q₁, hq₁, hmq⟩ := hmove.row hq
    have hown₁ := hmq.owner.trans hown
    have hframe : ∀ id, id ≠ q.runId → job₁.1.runRecord id = job.1.runRecord id :=
      fun id hid => moveTo_frame h₁ hid
    -- the recursive query runs after the owner has moved, and finds the same Runs
    have hmem : ∀ r, r ∈ job₁.1.openInProcessDescendants q.runId ↔
        job.1.runRecord r.runId = some r ∧ Shares job.1 q.runId r.runId := by
      intro r
      rw [hshape.mem_descendants hq₁ hown₁]
      constructor
      · rintro ⟨hr, hs⟩
        have hid := hs.ne hq₁ hown₁
        exact ⟨hframe _ hid ▸ hr, (shares_frame hframe hmove.parentOf hid).1 hs⟩
      · rintro ⟨hr, hs⟩
        have hid := hs.ne hq hown
        exact ⟨(hframe _ hid).trans hr, (shares_frame hframe hmove.parentOf hid).2 hs⟩
    have hfold := cascade_fold_restatus hne hknown hto _ h₂
      (RunStore.openInProcessDescendants_nodup hshape.keys _) fun r hr => by
        obtain ⟨hr₀, hs⟩ := (hmem r).1 hr
        exact ⟨(hframe _ (hs.ne hq hown)).trans hr₀, hshare _ r hs hr₀⟩
    refine hmove.trans hfold fun id r hr => ?_
    have hin : id ∈ (job₁.1.openInProcessDescendants q.runId).map RunRecord.runId ↔
        Shares job.1 q.runId id := by
      rw [List.mem_map]
      constructor
      · rintro ⟨r', hr', rfl⟩
        exact ((hmem r').1 hr').2
      · intro hs
        have hrid := RunStore.runId_of_runRecord hr
        exact ⟨r, (hmem r).2 ⟨by rw [hrid]; exact hr, by rw [hrid]; exact hs⟩, hrid⟩
    by_cases hs : Shares job.1 q.runId id
    · simp [family, those, hin, hs]
    · by_cases hid : id = q.runId
      · subst hid
        simp [family, those, only, hin, hs]
      · simp [family, those, only, hin, hs, hid]

/-- Moving a family keeps the invariant. -/
theorem TreeInv.family (h : TreeInv s) (hs : Restatus (family s o status) s s')
    (hq : s.runRecord o = some q) (hown : q.processOwner = true) (hopen : q.status ≠ .ended)
    (hto : status = .active ∨ status = .held ∨ status = .ended) : TreeInv s' := by
  have hself : ∀ id, Forest.IsRoot s.parentOf o id → id = o := fun id hid =>
    h.toTreeShape.owner_root hq hown hid
  refine h.restatus hs ?_ ?_ ?_
  · intro id st hst
    unfold Runs.family at hst
    split at hst
    · rw [← Option.some.inj hst]
      exact hto
    · exact absurd hst (by simp)
  · intro id r hr hne
    unfold Runs.family at hne
    split at hne
    · rename_i hmem
      rcases hmem with rfl | ⟨r', hr', he, -, -⟩
      · rw [hq, Option.some.injEq] at hr
        rwa [← hr]
      · rw [hr, Option.some.injEq] at hr'
        rwa [hr']
    · exact hne
  · intro id r o' q' hr hne hroot hq'
    by_cases ho : o' = o
    · -- the Run hangs below the moved owner: it is the owner or was moved with it
      subst ho
      have hmem : id = o' ∨ Shares s o' id := by
        by_contra hout
        rw [Runs.family, if_neg hout, Option.getD_none] at hne
        have hno : r.processOwner = false := by
          by_contra hro
          rw [Bool.not_eq_false] at hro
          exact hout (.inl (h.toTreeShape.owner_root hr hro hroot).symm)
        exact hout (.inr ⟨r, hr, hne, hno, hroot⟩)
      rw [Runs.family, if_pos (.inl rfl), Runs.family, if_pos hmem]
      rfl
    · -- neither the Run nor its root was moved
      have hid : ¬ (id = o ∨ Shares s o id) := by
        rintro (rfl | ⟨_, _, _, _, hr'⟩)
        · exact ho (hself o' hroot)
        · exact ho (hroot.unique hr')
      have ho' : ¬ (o' = o ∨ Shares s o o') := by
        rintro (he | ⟨_, _, _, _, hr'⟩)
        · exact ho he
        · exact ho ((Forest.IsRoot.self hroot.2).unique hr')
      rw [Runs.family, if_neg hid, Option.getD_none] at hne
      rw [Runs.family, if_neg ho', Runs.family, if_neg hid]
      exact h.follows hr hne hroot hq'

/-- Moving an owner keeps the invariant. -/
theorem TreeInv.moveOwner {anomalies : List Anomaly} {cause : Option String} {stopped : Bool}
    (hinv : TreeInv job.1) (h : moveOwner job q status anomalies cause stopped at_ = .ok job')
    (hq : job.1.runRecord q.runId = some q) (hown : q.processOwner = true)
    (hopen : q.status ≠ .ended) (hcause : status = .ended → cause.isSome)
    (hto : status = .active ∨ status = .held ∨ status = .ended) : TreeInv job'.1 :=
  hinv.family (moveOwner_restatus h hinv hq hown hopen hcause hto) hq hown hopen hto

/-! ### The operations -/

theorem TreeInv.openProcessRun {name : InstanceName} (h : TreeInv s)
    (hq : s.openProcessRun name = some q) : s.runRecord q.runId = some q ∧
      q.processOwner = true ∧ q.status ≠ .ended ∧ q.instanceName = some name := by
  have hp := List.find?_some hq
  simp only [RunStore.isOpenOwnerOf, RunRecord.isEnded, Bool.and_eq_true, Bool.not_eq_true',
    decide_eq_false_iff_not, decide_eq_true_eq] at hp
  exact ⟨h.keys.runRecord (List.mem_of_find?_eq_some hq), hp.1.1, hp.1.2, hp.2⟩

theorem TreeInv.projectTransition {name : InstanceName} {newState : LifecycleState}
    {fate : RunFate} {cause : String} (hinv : TreeInv s)
    (h : projectTransition s name newState fate cause at_ = .ok job) :
    ∃ σ, Restatus σ s job.1 ∧ TreeInv job.1 := by
  unfold Runs.projectTransition at h
  split at h
  · obtain rfl := Except.ok.inj h
    exact ⟨fun _ => none, Restatus.refl fun _ _ _ => rfl, hinv⟩
  · rename_i run hrun
    obtain ⟨hr, hown, hopen, -⟩ := hinv.openProcessRun hrun
    split at h
    · obtain rfl := Except.ok.inj h
      exact ⟨fun _ => none, Restatus.refl fun _ _ _ => rfl, hinv⟩
    · rename_i status anomalies endCause hmove
      have hto : (status = .active ∨ status = .held ∨ status = .ended) ∧
          (status = .ended → endCause.isSome) := by
        unfold projectedMove at hmove
        have hknown := hinv.known hr
        cases newState <;> cases fate <;> simp at hmove <;>
          obtain ⟨rfl, rfl, rfl⟩ := hmove <;> simp_all
      exact ⟨_, moveOwner_restatus h hinv hr hown hopen hto.2 hto.1,
        hinv.moveOwner h hr hown hopen hto.2 hto.1⟩

/-- Rewriting the row of a Run with its status and end columns as they were moves no Run. -/
theorem saveRun_keeps (h : s.saveRun record = .ok s') (hold : s.runRecord record.runId = some r)
    (hst : record.status = r.status) (hat : record.endedAt = r.endedAt)
    (hcause : record.endCause = r.endCause) : Restatus (fun _ => none) s s' := by
  have hmark : ∀ old, s.runRecord record.runId = some old → old.EndMarked →
      record.EndMarked := by
    intro old ho hm
    rw [hold, Option.some.injEq] at ho
    subst ho
    exact ⟨by rw [hst, hat]; exact hm.1, by rw [hst, hcause]; exact hm.2⟩
  refine (saveRun_restatus h hmark).trans (Restatus.refl (σ := fun _ => none) fun _ _ _ => rfl) ?_
  intro id q hq
  by_cases hid : id = record.runId
  · subst hid
    rw [hold, Option.some.injEq] at hq
    simp [only, hst, hq]
  · simp [only, hid]

theorem syncDepth_restatus {depth : ControlDepth} {wirePath : Bool}
    (h : syncDepth job record depth wirePath at_ = .ok job')
    (hold : job.1.runRecord record.runId = some r) (hst : record.status = r.status)
    (hat : record.endedAt = r.endedAt) (hcause : record.endCause = r.endCause) :
    Restatus (fun _ => none) job.1 job'.1 := by
  unfold syncDepth at h
  split at h
  · obtain rfl := Except.ok.inj h
    exact Restatus.refl fun _ _ _ => rfl
  · dsimp only at h
    split at h
    · obtain ⟨s', hs', hret⟩ := bind_ok h
      obtain rfl := Except.ok.inj hret
      exact saveRun_keeps hs' hold hst hat hcause
    · obtain ⟨s', hs', hret⟩ := bind_ok h
      obtain rfl := Except.ok.inj hret
      exact saveRun_keeps hs' hold hst hat hcause

theorem syncBoundLabels_restatus {labels : List Label}
    (h : syncBoundLabels job id labels at_ = .ok job') :
    Restatus (fun _ => none) job.1 job'.1 := by
  unfold syncBoundLabels at h
  dsimp only at h
  split at h
  · obtain rfl := Except.ok.inj h
    exact Restatus.refl fun _ _ _ => rfl
  · split at h
    · obtain rfl := Except.ok.inj h
      exact Restatus.refl fun _ _ _ => rfl
    · rename_i record hrec
      obtain ⟨s', hs', hret⟩ := bind_ok h
      obtain rfl := Except.ok.inj hret
      -- the labels are another table: the rows and their constraints are the same
      have hrow : (job.1.replaceLabels id .bound
          (labels.insertionSort fun a b => a.key ≤ b.key)).runRecord record.runId = some record := by
        rw [RunStore.runId_of_runRecord hrec]
        exact hrec
      have hkeep := saveRun_keeps hs' hrow rfl rfl rfl
      exact ⟨hkeep.spawn, hkeep.keys, hkeep.rows⟩

theorem markBreach_restatus (h : markBreach s id at_ = .ok job) :
    Restatus (fun _ => none) s job.1 := by
  unfold markBreach at h
  split at h
  · obtain rfl := Except.ok.inj h
    exact Restatus.refl fun _ _ _ => rfl
  · rename_i record hrec
    split at h
    · obtain rfl := Except.ok.inj h
      exact Restatus.refl fun _ _ _ => rfl
    · have hrow : s.runRecord record.runId = some record := by
        rw [RunStore.runId_of_runRecord hrec]
        exact hrec
      have hmove := moveTo_restatus h hrow (fun he hne => absurd he hne) (fun he => he)
      refine hmove.trans (Restatus.refl (σ := fun _ => none) fun _ _ _ => rfl) fun i q hq => ?_
      by_cases hid : i = record.runId
      · subst hid
        rw [hrow, Option.some.injEq] at hq
        simp [only, hq]
      · simp [only, hid]

/-- Closing a child ends that Run only. -/
theorem TreeInv.close (hinv : TreeInv s) (h : close s id at_ = .ok job) :
    ∃ σ, Restatus σ s job.1 ∧ TreeInv job.1 := by
  unfold Runs.close at h
  split at h
  · exact absurd h (by simp [throw, throwThe, MonadExceptOf.throw])
  · rename_i record hrec
    have hrow : s.runRecord record.runId = some record := by
      rw [RunStore.runId_of_runRecord hrec]
      exact hrec
    split at h
    · exact absurd h (by simp [throw, throwThe, MonadExceptOf.throw])
    · rename_i hguard
      split at h
      · obtain rfl := Except.ok.inj h
        exact ⟨fun _ => none, Restatus.refl fun _ _ _ => rfl, hinv⟩
      · rename_i hopen
        have hchild : record.processOwner = false := by
          cases hown : record.processOwner <;> simp_all
        have hmove := moveTo_restatus (mapError_ok h) hrow (fun _ _ => rfl) (fun _ => rfl)
        refine ⟨_, hmove, hinv.restatus hmove ?_ ?_ ?_⟩
        · intro i st hst
          unfold only at hst
          split at hst
          · exact .inr (.inr (Option.some.inj hst).symm)
          · exact absurd hst (by simp)
        · intro i r hr hne
          unfold only at hne
          split at hne
          · exact absurd rfl hne
          · exact hne
        · intro i r o q hr hne hroot hq
          -- a child is nobody's root
          have ho : o ≠ record.runId := by
            rintro rfl
            rw [hrow, Option.some.injEq] at hq
            have hnone := hroot.2
            rw [RunStore.parentOf, hrow, Option.bind_some] at hnone
            rw [(hinv.roots hrow).2 hnone] at hchild
            exact absurd hchild (by simp)
          by_cases hi : i = record.runId
          · rw [only, if_pos hi] at hne
            exact absurd rfl hne
          · rw [only, if_neg hi] at hne
            rw [only, if_neg ho, only, if_neg hi]
            exact hinv.follows hr hne hroot hq

/-- A row that meets the open-owner index is the only open owner of its instance. -/
theorem not_ownerConflict (h : ¬ s.ownerConflict record = true) (hown : record.processOwner = true)
    (hopen : record.status ≠ .ended) (hname : record.instanceName.isSome)
    (hq : s.runRecord o = some q) (hqo : q.processOwner = true) (hqe : q.status ≠ .ended)
    (heq : q.instanceName = record.instanceName) : o = record.runId := by
  by_contra hne
  refine h ?_
  simp only [RunStore.ownerConflict, hown, RunRecord.isEnded, hopen, hname, Bool.true_and,
    decide_false, Bool.not_false, List.any_eq_true]
  refine ⟨q, RunStore.mem_of_runRecord hq, ?_⟩
  rw [RunStore.runId_of_runRecord hq]
  simp [hne, hqo, hqe, heq]

/-- Reopening an ended owner keeps the invariant: an open Run below it would have ended with it. -/
theorem TreeInv.reopened (hinv : TreeInv s) (hs : s.saveRun record = .ok s')
    (hold : s.runRecord record.runId = some r) (hown : r.processOwner = true)
    (hended : r.status = .ended) (hst : record.status = .active) (hat : record.endedAt = none)
    (hcause : record.endCause = none) : TreeInv s' := by
  have hmoved := saveRun_restatus hs fun old _ _ => ⟨by simp [hst, hat], by simp [hst, hcause]⟩
  have hconf : ¬ s.ownerConflict (RunStore.overwrite record r) = true := by
    obtain ⟨old, hold', hconf, -⟩ := RunStore.saveRun_ok hs
    rw [hold, Option.some.injEq] at hold'
    rwa [hold']
  have hid := RunStore.runId_of_runRecord hold
  -- an open owner of the same instance would have met the index
  have halone : ∀ {j q}, s.runRecord j = some q → q.processOwner = true → q.status ≠ .ended →
      q.instanceName = r.instanceName → j = record.runId := by
    intro j q hq hqo hqe hname
    have hnamed := hinv.named hold
    have hj : j = (RunStore.overwrite record r).runId :=
      not_ownerConflict hconf hown (by simp [hst]) hnamed hq hqo hqe hname
    exact hj.trans hid
  refine ⟨hinv.toTreeShape.restatus hmoved, ?_, ?_, ?_, ?_⟩
  · intro i q hq
    obtain ⟨q₀, hq₀, hm⟩ := hmoved.row_of hq
    rw [hm.status]
    unfold only
    split
    · exact .inl hst
    · exact hinv.known hq₀
  · intro i q hq
    obtain ⟨q₀, hq₀, hm⟩ := hmoved.row_of hq
    exact hm.marked (hinv.marked hq₀)
  · intro i j q₁ q₂ hq₁ hq₂ ho₁ ho₂ he₁ he₂ hname
    obtain ⟨p₁, hp₁, hm₁⟩ := hmoved.row_of hq₁
    obtain ⟨p₂, hp₂, hm₂⟩ := hmoved.row_of hq₂
    rw [hm₁.status] at he₁
    rw [hm₂.status] at he₂
    rw [hm₁.named, hm₂.named] at hname
    rw [hm₁.owner] at ho₁
    rw [hm₂.owner] at ho₂
    by_cases hi : i = record.runId
    · subst hi
      rw [hold, Option.some.injEq] at hp₁
      subst hp₁
      by_contra hj
      rw [only, if_neg (Ne.symm hj)] at he₂
      exact hj (halone hp₂ ho₂ he₂ hname.symm).symm
    · rw [only, if_neg hi] at he₁
      by_cases hj : j = record.runId
      · subst hj
        rw [hold, Option.some.injEq] at hp₂
        subst hp₂
        exact halone hp₁ ho₁ he₁ hname
      · rw [only, if_neg hj] at he₂
        exact hinv.oneOwner hp₁ hp₂ ho₁ ho₂ he₁ he₂ hname
  · intro i o q₁ q₂ hq₁ he hroot hq₂
    obtain ⟨p₁, hp₁, hm₁⟩ := hmoved.row_of hq₁
    obtain ⟨p₂, hp₂, hm₂⟩ := hmoved.row_of hq₂
    rw [hmoved.parentOf] at hroot
    by_cases hi : i = record.runId
    · subst hi
      rw [hold, Option.some.injEq] at hp₁
      subst hp₁
      have ho := hinv.toTreeShape.owner_root hold hown hroot
      rw [ho, hq₁, Option.some.injEq] at hq₂
      rw [hq₂]
    · rw [hm₁.status, only, if_neg hi, Option.getD_none] at he ⊢
      have hfollow := hinv.follows hp₁ he hroot hp₂
      have ho : o ≠ record.runId := by
        rintro rfl
        rw [hold, Option.some.injEq] at hp₂
        subst hp₂
        exact he (hfollow ▸ hended)
      rw [hm₂.status, only, if_neg ho, Option.getD_none, hfollow]

/-- A kept Run is open afterwards, reopened if it had ended. -/
theorem TreeInv.reopen {existing : RunRecord} (hinv : TreeInv job.1)
    (h : reopen job existing at_ = .ok (job', record))
    (hold : job.1.runRecord existing.runId = some existing)
    (hown : existing.processOwner = true) :
    (∃ σ, Restatus σ job.1 job'.1) ∧ TreeInv job'.1 ∧
      ∃ r, job'.1.runRecord record.runId = some r ∧ record.status = r.status ∧
        record.endedAt = r.endedAt ∧ record.endCause = r.endCause := by
  unfold Runs.reopen at h
  split at h
  · rename_i hended
    obtain ⟨s', hs', hret⟩ := bind_ok h
    obtain ⟨rfl, rfl⟩ := Prod.mk.inj (Except.ok.inj hret)
    have hmoved := saveRun_restatus hs' fun old _ _ => ⟨by simp, by simp⟩
    refine ⟨⟨_, hmoved⟩, ?_, _, RunStore.runRecord_saveRun_self hs' hold, rfl, rfl, rfl⟩
    exact hinv.reopened hs' hold hown (by simpa [RunRecord.isEnded] using hended) rfl rfl rfl
  · obtain ⟨rfl, rfl⟩ := Prod.mk.inj (Except.ok.inj h)
    exact ⟨⟨fun _ => none, Restatus.refl fun _ _ _ => rfl⟩, hinv, _, hold, rfl, rfl, rfl⟩

/-! ### Inserting a Run -/

/-- No Run hangs below an id without a row. -/
theorem TreeShape.not_parent (h : TreeShape s) (hid : s.runRecord id = none) (n : RunId) :
    s.parentOf n ≠ some id := by
  intro hp
  obtain ⟨r, hr, hp⟩ := Option.bind_eq_some_iff.1 hp
  obtain ⟨q, hq, -⟩ := h.parents hr hp
  rw [hid] at hq
  exact absurd hq (by simp)

theorem parentOf_insertRun {run : NewRun} (h : s.insertRun run = .ok s') :
    s'.parentOf = Forest.attach s.parentOf run.record.runId run.record.parentRunId := by
  funext id
  unfold RunStore.parentOf
  rw [RunStore.runRecord_insertRun h]
  by_cases hid : id = run.record.runId
  · subst hid
    rw [if_pos rfl, Forest.attach_self, Option.bind_some]
  · rw [if_neg hid, Forest.attach_of_ne hid]

/-- The row found after an insertion is the inserted one or an old one. -/
theorem insertRun_cases {run : NewRun} (h : s.insertRun run = .ok s')
    (hr : s'.runRecord id = some r) :
    (id = run.record.runId ∧
      r = { run.record with anomalies := Anomaly.normalize run.record.anomalies }) ∨
    (id ≠ run.record.runId ∧ s.runRecord id = some r) := by
  rw [RunStore.runRecord_insertRun h] at hr
  split at hr
  · rename_i hid
    exact .inl ⟨hid, (Option.some.inj hr).symm⟩
  · rename_i hid
    exact .inr ⟨hid, hr⟩

theorem runRecord_of_insertRun {run : NewRun} (h : s.insertRun run = .ok s')
    (hr : s.runRecord id = some r) : s'.runRecord id = some r := by
  have hne : id ≠ run.record.runId := by
    rintro rfl
    rw [RunStore.insertRun_fresh h] at hr
    exact absurd hr (by simp)
  rw [RunStore.runRecord_insertRun h, if_neg hne, hr]

theorem insertRun_grown {run : NewRun} (h : s.insertRun run = .ok s') :
    Grown (some run.record.runId) s s' := by
  refine ⟨fun {_ r} hr => ⟨r, runRecord_of_insertRun h hr, rfl, rfl, rfl⟩, fun {id} hid hne => ?_⟩
  rw [RunStore.runRecord_insertRun h, if_neg fun he => hne (by rw [he]), hid]

/-- Inserting a Run keeps the shape, when it owns its process exactly if it has no parent, names
an instance, its parent's if there is one, and its parent is not at the last level. -/
theorem TreeShape.insertRun {run : NewRun} (h : TreeShape s) (hs : s.insertRun run = .ok s')
    (hroot : run.record.processOwner = true ↔ run.record.parentRunId = none)
    (hname : run.record.instanceName.isSome)
    (hparent : ∀ p q, run.record.parentRunId = some p → s.runRecord p = some q →
      q.instanceName = run.record.instanceName)
    (hdepth : ∀ p, run.record.parentRunId = some p →
      Forest.up s.parentOf (maxRunNesting - 1) p = none) : TreeShape s' where
  keys := h.keys.insertRun hs
  parents := by
    intro id r p hr hp
    rcases insertRun_cases hs hr with ⟨-, rfl⟩ | ⟨-, hr₀⟩
    · obtain ⟨q, hq⟩ := RunStore.insertRun_parent hs hp
      exact ⟨q, runRecord_of_insertRun hs hq, hparent p q hp hq⟩
    · obtain ⟨q, hq, hn⟩ := h.parents hr₀ hp
      exact ⟨q, runRecord_of_insertRun hs hq, hn⟩
  roots := by
    intro id r hr
    rcases insertRun_cases hs hr with ⟨-, rfl⟩ | ⟨-, hr₀⟩
    · exact hroot
    · exact h.roots hr₀
  named := by
    intro id r hr
    rcases insertRun_cases hs hr with ⟨-, rfl⟩ | ⟨-, hr₀⟩
    · exact hname
    · exact h.named hr₀
  height := by
    have hfresh := RunStore.insertRun_fresh hs
    rw [parentOf_insertRun hs]
    refine Forest.Height.attach h.height (h.not_parent hfresh) ?_ hdepth
    intro hself
    obtain ⟨q, hq⟩ := RunStore.insertRun_parent hs hself
    rw [hfresh] at hq
    exact absurd hq (by simp)

/-- Inserting a Run keeps the invariant if it is marked as its status says and, when it is open,
has the status of its root. -/
theorem TreeInv.insertRun {run : NewRun} (h : TreeInv s) (hs : s.insertRun run = .ok s')
    (hshape : TreeShape s')
    (hknown : run.record.status = .active ∨ run.record.status = .held ∨
      run.record.status = .ended) (hmarked : run.record.EndMarked)
    (hroot : run.record.status ≠ .ended → ∀ p o q, run.record.parentRunId = some p →
      Forest.IsRoot s.parentOf p o → s.runRecord o = some q → q.status = run.record.status) :
    TreeInv s' := by
  have hfresh := RunStore.insertRun_fresh hs
  have hleaf := h.toTreeShape.not_parent hfresh
  refine ⟨hshape, ?_, ?_, ?_, ?_⟩
  · intro id r hr
    rcases insertRun_cases hs hr with ⟨-, rfl⟩ | ⟨-, hr₀⟩
    · exact hknown
    · exact h.known hr₀
  · intro id r hr
    rcases insertRun_cases hs hr with ⟨-, rfl⟩ | ⟨-, hr₀⟩
    · exact hmarked
    · exact h.marked hr₀
  · intro i j r q hr hq hro hqo hre hqe hname
    have hconf := RunStore.insertRun_noConflict hs
    have hnamed := hshape.named hr
    have hnamed' := hshape.named hq
    rcases insertRun_cases hs hr with ⟨rfl, rfl⟩ | ⟨hi, hr₀⟩
    · rcases insertRun_cases hs hq with ⟨rfl, -⟩ | ⟨hj, hq₀⟩
      · rfl
      · exact (not_ownerConflict hconf hro hre hnamed hq₀ hqo hqe hname.symm).symm
    · rcases insertRun_cases hs hq with ⟨rfl, rfl⟩ | ⟨hj, hq₀⟩
      · exact not_ownerConflict hconf hqo hqe hnamed' hr₀ hro hre hname
      · exact h.oneOwner hr₀ hq₀ hro hqo hre hqe hname
  · intro id o r q hr hre hrt hq
    rw [parentOf_insertRun hs] at hrt
    rcases insertRun_cases hs hr with ⟨rfl, rfl⟩ | ⟨hi, hr₀⟩
    · cases hp : run.record.parentRunId with
      | none =>
          -- the new Run is a root
          rw [← (Forest.IsRoot.self (by rw [Forest.attach_self, hp])).unique hrt, hr,
            Option.some.injEq] at hq
          rw [← hq]
      | some p =>
          -- the new Run hangs below the root of its parent
          obtain ⟨qp, hqp⟩ := RunStore.insertRun_parent hs hp
          have hpne : p ≠ run.record.runId := by
            rintro rfl
            rw [hfresh] at hqp
            exact absurd hqp (by simp)
          obtain ⟨o', ho'⟩ := h.height.exists_root p
          have hpar : Forest.attach s.parentOf run.record.runId run.record.parentRunId
              run.record.runId = some p := by rw [Forest.attach_self, hp]
          obtain rfl := (((Forest.isRoot_attach hleaf hpne).2 ho').step hpar).unique hrt
          obtain ⟨q', hq', -, -⟩ := h.toTreeShape.root_row hqp ho'
          rw [runRecord_of_insertRun hs hq', Option.some.injEq] at hq
          rw [← hq]
          exact hroot hre p o' q' hp ho' hq'
    · have hrt₀ := (Forest.isRoot_attach hleaf hi).1 hrt
      obtain ⟨q', hq', -, -⟩ := h.toTreeShape.root_row hr₀ hrt₀
      rw [runRecord_of_insertRun hs hq', Option.some.injEq] at hq
      rw [← hq]
      exact h.follows hr₀ hre hrt₀ hq'

/-! ### Launches, adoptions and children -/

/-- Ending the open Run that another one replaces keeps the invariant. -/
theorem TreeInv.replaceOpen {run : SupervisedRun} (hinv : TreeInv s)
    (h : replaceOpen s run at_ = .ok job) : (∃ σ, Restatus σ s job.1) ∧ TreeInv job.1 := by
  have hstay : (∃ σ, Restatus σ s s) ∧ TreeInv s :=
    ⟨⟨fun _ => none, Restatus.refl fun _ _ _ => rfl⟩, hinv⟩
  unfold Runs.replaceOpen at h
  split at h
  · obtain rfl := Except.ok.inj h
    exact hstay
  · rename_i open_ hopen
    split at h
    · obtain rfl := Except.ok.inj h
      exact hstay
    · obtain ⟨hr, hown, hne, -⟩ := hinv.openProcessRun hopen
      have hto : RunStatus.ended = .active ∨ RunStatus.ended = .held ∨ RunStatus.ended = .ended :=
        .inr (.inr rfl)
      exact ⟨⟨_, moveOwner_restatus h hinv hr hown hne (fun _ => rfl) hto⟩,
        hinv.moveOwner h hr hown hne (fun _ => rfl) hto⟩

/-- Creating or keeping a supervised Run keeps the invariant, if a kept id names no child.  The
rows keep their places, and the Run has one. -/
theorem TreeInv.ensureSupervised {run : SupervisedRun} (hinv : TreeInv s)
    (h : ensureSupervised s run at_ = .ok job)
    (hkept : ∀ r, run.fresh = false → s.runRecord run.runId = some r → r.processOwner = true) :
    TreeInv job.1 ∧ job.1.spawnRunId = s.spawnRunId ∧ Grown (some run.runId) s job.1 ∧
      (run.fresh = true ∨ s.runRecord run.runId = none →
        ∃ r, job.1.runRecord run.runId = some r ∧ r.processOwner = true ∧
          r.instanceName = some run.instanceName) := by
  obtain ⟨job₁, h₁, h₂⟩ := bind_ok h
  obtain ⟨⟨σ, hσ⟩, hinv₁⟩ := hinv.replaceOpen h₁
  split at h₂
  · -- the Run is kept
    rename_i existing hex hfresh
    obtain ⟨⟨job₂, existing₂⟩, h₃, h₄⟩ := bind_ok h₂
    obtain ⟨job₃, h₅, h₆⟩ := bind_ok h₄
    obtain ⟨r₀, hr₀, hm₀⟩ := hσ.row_of hex
    have hrow : job₁.1.runRecord existing.runId = some existing := by
      rw [RunStore.runId_of_runRecord hex]
      exact hex
    obtain ⟨⟨τ, hτ⟩, hinv₂, r₂, hr₂, hst, hat, hcause⟩ :=
      hinv₁.reopen h₃ hrow (hm₀.owner.trans (hkept r₀ hfresh hr₀))
    have hdepth := syncDepth_restatus h₅ hr₂ hst hat hcause
    have hlabels := syncBoundLabels_restatus h₆
    have hall := ((hσ.trans (ρ := fun id => (τ id).or (σ id)) hτ ?_).trans hdepth
      (ρ := fun id => (τ id).or (σ id)) ?_).trans hlabels (ρ := fun id => (τ id).or (σ id)) ?_
    · refine ⟨(hinv₂.restatus_none hdepth).restatus_none hlabels, hall.spawn, hall.grown, ?_⟩
      rintro (hf | hn)
      · rw [hfresh] at hf
        exact absurd hf (by simp)
      · rw [hn] at hr₀
        exact absurd hr₀ (by simp)
    · intro id r _
      cases τ id <;> simp
    · intro id r _
      simp
    · intro id r _
      simp
  · -- the Run is created
    obtain ⟨t, ht, hret⟩ := bind_ok h₂
    obtain rfl := Except.ok.inj hret
    have hshape := hinv₁.toTreeShape.insertRun ht (by simp [supervisedRecord])
      (by simp [supervisedRecord]) (by simp [supervisedRecord]) (by simp [supervisedRecord])
    refine ⟨hinv₁.insertRun ht hshape (.inl rfl)
        ⟨by simp [supervisedRecord], by simp [supervisedRecord]⟩ (by simp [supervisedRecord]),
      (RunStore.insertRun_ok ht).2.2.1.trans hσ.spawn, hσ.grown.trans (insertRun_grown ht),
      fun _ => ?_⟩
    exact ⟨_, (RunStore.runRecord_insertRun ht run.runId).trans (if_pos rfl), rfl, rfl⟩

/-- The chain of a Run is as long as its walk upward, below the cut. -/
theorem up_eq_none_of_runChainF (fuel k : ℕ) {id : RunId} (hk : (s.runChainF fuel id).length ≤ k)
    (hcut : k < fuel) (hparents : ∀ i p, s.parentOf i = some p → ∃ q, s.runRecord p = some q)
    (hrow : ∃ r, s.runRecord id = some r) : Forest.up s.parentOf k id = none := by
  induction fuel generalizing k id with
  | zero => omega
  | succ fuel ih =>
      obtain ⟨r, hr⟩ := hrow
      rw [RunStore.runChainF, hr] at hk
      dsimp only at hk
      cases hp : r.parentRunId with
      | none =>
          rw [hp, List.length_cons, List.length_nil] at hk
          obtain ⟨j, rfl⟩ := Nat.exists_eq_add_of_le hk
          rw [Nat.add_comm]
          exact Forest.up_succ_of_root (by rw [RunStore.parentOf, hr, Option.bind_some, hp])
      | some p =>
          have hpar : s.parentOf id = some p := by
            rw [RunStore.parentOf, hr, Option.bind_some, hp]
          rw [hp, List.length_cons] at hk
          dsimp only at hk
          obtain ⟨j, rfl⟩ : ∃ j, k = j + 1 := ⟨k - 1, by omega⟩
          rw [Forest.up_succ_of_parent hpar]
          exact ih j (by omega) (by omega) (hparents id p hpar)

theorem TreeShape.parent_row (h : TreeShape s) (i p : RunId) (hp : s.parentOf i = some p) :
    ∃ q, s.runRecord p = some q := by
  obtain ⟨r, hr, hp⟩ := Option.bind_eq_some_iff.1 hp
  obtain ⟨q, hq, -⟩ := h.parents hr hp
  exact ⟨q, hq⟩

/-- The steps of opening a child that is not known yet. -/
theorem openChild_ok {request : ChildRunRequest} {result : RunId × Job}
    (h : openChild s request id at_ = .ok result) :
    result.2.1 = s ∨ ∃ parent labels identity,
      resolveParent s request.parent = .ok parent ∧ checkChild s request parent = .ok () ∧
      s.insertRun ⟨childRecord parent id at_, labels, request.limits, identity⟩ =
        .ok result.2.1 := by
  unfold openChild at h
  split at h
  · obtain rfl := Except.ok.inj h
    exact .inl rfl
  · obtain ⟨parent, hp, h⟩ := bind_ok h
    obtain ⟨⟨⟩, hc, h⟩ := bind_ok h
    obtain ⟨labels, -, h⟩ := bind_ok h
    obtain ⟨t, ht, h⟩ := bind_ok h
    obtain rfl := Except.ok.inj h
    exact .inr ⟨parent, labels, _, hp, hc, mapError_ok ht⟩

/-- A resolved parent has a row. -/
theorem TreeInv.resolveParent {parent : RunParent} (hinv : TreeInv s)
    (h : resolveParent s parent = .ok r) : s.runRecord r.runId = some r := by
  cases parent with
  | run id =>
      simp only [Runs.resolveParent] at h
      cases hr : s.runRecord id with
      | none => rw [hr] at h; exact absurd h (by simp [throw, throwThe, MonadExceptOf.throw])
      | some r' =>
          rw [hr] at h
          obtain rfl := Except.ok.inj h
          rw [RunStore.runId_of_runRecord hr]
          exact hr
  | ofInstance name =>
      simp only [Runs.resolveParent] at h
      cases hr : s.openProcessRun name with
      | none => rw [hr] at h; exact absurd h (by simp [throw, throwThe, MonadExceptOf.throw])
      | some r' =>
          rw [hr] at h
          obtain rfl := Except.ok.inj h
          exact (hinv.openProcessRun hr).1

/-- An accepted parent is open and not at the last level. -/
theorem checkChild_ok {request : ChildRunRequest} (h : checkChild s request r = .ok ()) :
    r.status ≠ .ended ∧ (s.runChain r.runId).length + 1 ≤ maxRunNesting := by
  unfold checkChild at h
  dsimp only at h
  split at h
  · exact absurd h (by simp [throw, throwThe, MonadExceptOf.throw])
  · rename_i hended
    split at h
    · exact absurd h (by simp [throw, throwThe, MonadExceptOf.throw])
    · rename_i hlevel
      exact ⟨by simpa [RunRecord.isEnded] using hended, Nat.not_lt.1 hlevel⟩

/-- Opening a child keeps the invariant: it starts with the status of its parent, which is the
status of its root. -/
theorem TreeInv.openChild {request : ChildRunRequest} {result : RunId × Job} (hinv : TreeInv s)
    (h : openChild s request id at_ = .ok result) :
    TreeInv result.2.1 ∧ result.2.1.spawnRunId = s.spawnRunId ∧
      Grown (some id) s result.2.1 := by
  rcases openChild_ok h with heq | ⟨parent, labels, identity, hp, hc, hins⟩
  · rw [heq]
    exact ⟨hinv, rfl, Grown.refl⟩
  · have hrow := hinv.resolveParent hp
    obtain ⟨hopen, hlevel⟩ := checkChild_ok hc
    have hdepth : Forest.up s.parentOf (maxRunNesting - 1) parent.runId = none :=
      up_eq_none_of_runChainF (2 * maxRunNesting) (maxRunNesting - 1) (by
        unfold RunStore.runChain at hlevel; omega) (by decide) hinv.toTreeShape.parent_row
        ⟨parent, hrow⟩
    have hnamed := hinv.named hrow
    have hshape := hinv.toTreeShape.insertRun hins (by simp [childRecord]) hnamed (fun p q hpar hq => by
        obtain rfl := Option.some.inj hpar
        rw [hrow, Option.some.injEq] at hq
        rw [← hq]
        rfl) (fun p hpar => by
        obtain rfl := Option.some.inj hpar
        exact hdepth)
    refine ⟨hinv.insertRun hins hshape ?_ ?_ ?_, (RunStore.insertRun_ok hins).2.2.1,
      insertRun_grown hins⟩
    · by_cases hheld : parent.status = .held <;> simp [childRecord, hheld]
    · by_cases hheld : parent.status = .held <;> simp [RunRecord.EndMarked, childRecord, hheld]
    · intro _ p o q hpar hroot hq
      obtain rfl := Option.some.inj hpar
      rw [hinv.follows hrow hopen hroot hq]
      rcases hinv.known hrow with ha | hh | he
      · simp [childRecord, ha]
      · simp [childRecord, hh]
      · exact absurd he hopen

/-! ### Ending the Runs without a process -/

theorem cascade_fold_frame {to_ : RunStatus} {stopped : Bool} (l : List RunRecord)
    {job job' : Job} (h : l.foldlM (cascadeChild to_ stopped at_) job = .ok job')
    (hid : id ∉ l.map RunRecord.runId) : job'.1.runRecord id = job.1.runRecord id := by
  induction l generalizing job with
  | nil => rw [Except.ok.inj h]
  | cons c l ih =>
      rw [List.foldlM_cons] at h
      obtain ⟨job₁, h₁, h₂⟩ := bind_ok h
      rw [List.map_cons, List.mem_cons, not_or] at hid
      rw [ih h₂ hid.2, cascadeChild_frame h₁ hid.1]

/-- Moving an owner leaves the rows of the other owners alone. -/
theorem moveOwner_frame {anomalies : List Anomaly} {cause : Option String} {stopped : Bool}
    (h : moveOwner job q status anomalies cause stopped at_ = .ok job')
    (hk₀ : ∀ {t : Job}, moveTo job q status anomalies cause at_ = .ok t → t.1.KeyUnique)
    (hid : id ≠ q.runId) (hr : job.1.runRecord id = some r) (hown : r.processOwner = true) :
    job'.1.runRecord id = some r := by
  obtain ⟨job₁, h₁, h₂⟩ := bind_ok h
  have hr₁ : job₁.1.runRecord id = some r := (moveTo_frame h₁ hid).trans hr
  unfold cascade at h₂
  split at h₂
  · rw [← Except.ok.inj h₂]
    exact hr₁
  · refine (cascade_fold_frame _ h₂ ?_).trans hr₁
    intro hmem
    obtain ⟨c, hc, rfl⟩ := List.mem_map.1 hmem
    obtain ⟨hin, -, -, hno, -, -⟩ := (RunStore.mem_openInProcessDescendants (hk₀ h₁)).1 hc
    rw [(hk₀ h₁).runRecord hin, Option.some.injEq] at hr₁
    rw [← hr₁, hno] at hown
    exact absurd hown (by simp)

/-- Ending a list of open owners one after the other keeps the invariant. -/
theorem endOwners_inv (l : List RunRecord) {job job' : Job} (hinv : TreeInv job.1)
    (h : l.foldlM (fun job record =>
      moveOwner job record .ended record.anomalies (some "relaunch-not-run") false at_) job =
        .ok job')
    (hnd : (l.map RunRecord.runId).Nodup)
    (hrec : ∀ r ∈ l, job.1.runRecord r.runId = some r ∧ r.processOwner = true ∧
      r.status ≠ .ended) : (∃ σ, Restatus σ job.1 job'.1) ∧ TreeInv job'.1 := by
  induction l generalizing job with
  | nil =>
      obtain rfl := Except.ok.inj h
      exact ⟨⟨fun _ => none, Restatus.refl fun _ _ _ => rfl⟩, hinv⟩
  | cons c l ih =>
      rw [List.foldlM_cons] at h
      obtain ⟨job₁, h₁, h₂⟩ := bind_ok h
      obtain ⟨hc, hown, hopen⟩ := hrec c List.mem_cons_self
      have hto : RunStatus.ended = .active ∨ RunStatus.ended = .held ∨ RunStatus.ended = .ended :=
        .inr (.inr rfl)
      have hmove := moveOwner_restatus h₁ hinv hc hown hopen (fun _ => rfl) hto
      have hinv₁ := hinv.moveOwner h₁ hc hown hopen (fun _ => rfl) hto
      rw [List.map_cons, List.nodup_cons] at hnd
      obtain ⟨⟨τ, hτ⟩, hinv'⟩ := ih hinv₁ h₂ hnd.2 fun r hr => by
        obtain ⟨hrow, hro, hre⟩ := hrec r (List.mem_cons_of_mem _ hr)
        have hne : r.runId ≠ c.runId := fun he => hnd.1 (he ▸ List.mem_map_of_mem hr)
        refine ⟨moveOwner_frame h₁ (fun ht => ?_) hne hrow hro, hro, hre⟩
        exact (moveTo_restatus ht hc (fun _ _ => rfl) (fun _ => rfl)).keys hinv.keys
      refine ⟨⟨fun id => (τ id).or (Runs.family job.1 c.runId .ended id), hmove.trans hτ ?_⟩, hinv'⟩
      intro id r _
      cases τ id <;> simp

theorem TreeInv.endRunsWithoutAProcess {state : InstanceName → LifecycleState}
    (hinv : TreeInv s) (h : endRunsWithoutAProcess s state at_ = .ok job) :
    (∃ σ, Restatus σ s job.1) ∧ TreeInv job.1 := by
  refine endOwners_inv _ hinv h ?_ fun r hr => ?_
  · have hperm := List.perm_insertionSort (fun a b : RunRecord => a.runId ≤ b.runId)
      (s.runs.filter fun r =>
        r.processOwner && !r.isEnded && r.instanceName.any fun name =>
          state name ∈ [.failed, .stopped, .registered])
    exact ((hperm.map RunRecord.runId).nodup_iff).2
      (hinv.keys.sublist (List.Sublist.map _ List.filter_sublist))
  · simp only [openOwnersWithoutAProcess, List.mem_insertionSort, List.mem_filter,
      Bool.and_eq_true, RunRecord.isEnded, Bool.not_eq_true', decide_eq_false_iff_not] at hr
    exact ⟨hinv.keys.runRecord hr.1, hr.2.1.1, hr.2.1.2⟩

/-! ### Sequences of operations -/

/-- The operations of the registry, as their callers issue them.  A launch writes the spawn record
of its instance and creates or keeps the Run in one job: a restart keeps the Run the spawn record
names, every other launch mints an id.  An adoption keeps the Run the spawn record names.  A
settled spawn record names no Run, and a breach of an unknown Run id gives it an ended row. -/
inductive RunOp where
  | register (name : InstanceName)
  | launch (name : InstanceName) (restart : Bool) (minted : RunId) (wirePath : Bool)
      (labels : List Label)
  | adopt (name : InstanceName) (wirePath : Bool) (labels : List Label)
  | transition (name : InstanceName) (newState : LifecycleState) (fate : RunFate)
      (cause : String)
  | openChild (request : ChildRunRequest) (minted : RunId)
  | close (id : RunId)
  | syncDepth (id : RunId) (depth : ControlDepth) (wirePath : Bool)
  | syncBoundLabels (id : RunId) (labels : List Label)
  | markBreach (id : RunId)
  | endRunsWithoutAProcess (state : InstanceName → LifecycleState)
  | settle (name : InstanceName)
  | ensureRunRow (id : RunId) (name : InstanceName)

/-- What a launch asks of the registry, from the spawn record it replaces. -/
def launchRun (s : RunStore) (name : InstanceName) (restart : Bool) (minted : RunId)
    (wirePath : Bool) (labels : List Label) : SupervisedRun :=
  let kept := if restart then s.spawnRunId name else none
  ⟨name, kept.getD minted, wirePath, labels, kept.isNone⟩

/-- Write the Run id of an instance's spawn record. -/
def setSpawnRunId (s : RunStore) (name : InstanceName) (id : RunId) : RunStore :=
  { s with spawnRunId := Function.update s.spawnRunId name (some id) }

/-- The tables after a job: the new ones, or the old ones when it was rolled back. -/
def commitJob {ε : Type} (s : RunStore) : Except ε Job → RunStore
  | .ok job => job.1
  | .error _ => s

/-- The tables after an operation. -/
def RunOp.apply (s : RunStore) (at_ : Timestamp) : RunOp → RunStore
  | .register name => { s with instances := s.instances ++ [name] }
  | .launch name restart minted wirePath labels =>
      let run := launchRun s name restart minted wirePath labels
      commitJob s (Runs.ensureSupervised (setSpawnRunId s name run.runId) run at_)
  | .adopt name wirePath labels =>
      match s.spawnRunId name with
      | none => s
      | some id => commitJob s (Runs.ensureSupervised s ⟨name, id, wirePath, labels, false⟩ at_)
  | .transition name newState fate cause =>
      commitJob s (Runs.projectTransition s name newState fate cause at_)
  | .openChild request minted => commitJob s ((Runs.openChild s request minted at_).map Prod.snd)
  | .close id => commitJob s (Runs.close s id at_)
  | .syncDepth id depth wirePath =>
      match s.runRecord id with
      | none => s
      | some record => commitJob s (Runs.syncDepth (s, RunChanges.empty) record depth wirePath at_)
  | .syncBoundLabels id labels =>
      commitJob s (Runs.syncBoundLabels (s, RunChanges.empty) id labels at_)
  | .markBreach id => commitJob s (Runs.markBreach s id at_)
  | .endRunsWithoutAProcess state => commitJob s (Runs.endRunsWithoutAProcess s state at_)
  | .settle name => { s with spawnRunId := Function.update s.spawnRunId name none }
  | .ensureRunRow id name => s.ensureRunRow id name at_

/-- The id an operation mints. -/
def RunOp.minted : RunOp → Option RunId
  | .launch _ _ minted _ _ => some minted
  | .openChild _ minted => some minted
  | .ensureRunRow id _ => some id
  | _ => none

/-- The tables after a sequence of operations, each at its time. -/
def runOps (ops : List (Timestamp × RunOp)) : RunStore :=
  ops.foldl (fun s op => op.2.apply s op.1) RunStore.empty

/-- What an operation must keep. -/
def RegistryInv (s : RunStore) : Prop := TreeInv s ∧ SpawnNamed s

/-- An operation keeps the invariant and grows the tables if its successful job does. -/
theorem RegistryInv.commitJob {ε : Type} {x : Except ε Job} {fresh : Option RunId}
    (h : RegistryInv s) (hok : ∀ job, x = .ok job → RegistryInv job.1 ∧ Grown fresh s job.1) :
    RegistryInv (commitJob s x) ∧ Grown fresh s (commitJob s x) := by
  cases x with
  | error e => exact ⟨h, Grown.refl⟩
  | ok job => exact hok job rfl

theorem RegistryInv.restatus_none {fresh : Option RunId} (h : RegistryInv s)
    (hs : Restatus (fun _ => none) s s') : RegistryInv s' ∧ Grown fresh s s' :=
  ⟨⟨h.1.restatus_none hs, h.2.restatus hs⟩, hs.grown⟩

/-- A move of statuses keeps the invariant if it keeps the tree consistent. -/
theorem RegistryInv.moved {fresh : Option RunId} {σ : RunId → Option RunStatus}
    (h : RegistryInv s) (hs : Restatus σ s s') (hinv : TreeInv s') :
    RegistryInv s' ∧ Grown fresh s s' :=
  ⟨⟨hinv, h.2.restatus hs⟩, hs.grown⟩

/-- The Runs the spawn records name keep their rows. -/
theorem SpawnNamed.grown {fresh : Option RunId} (h : SpawnNamed s)
    (hspawn : s'.spawnRunId = s.spawnRunId) (hs : Grown fresh s s') : SpawnNamed s' := by
  intro name id hid
  rw [hspawn] at hid
  obtain ⟨r, hr, ho, hn⟩ := h name id hid
  obtain ⟨r', hr', -, ho', hn'⟩ := hs.rows hr
  exact ⟨r', hr', ho'.trans ho, hn'.trans hn⟩

/-- The tables with another spawn record have the same tree. -/
theorem TreeInv.setSpawnRunId (h : TreeInv s) (name : InstanceName) (id : RunId) :
    TreeInv (setSpawnRunId s name id) :=
  ⟨⟨h.keys, h.parents, h.roots, h.named, h.height⟩, h.known, h.marked, h.oneOwner, h.follows⟩

/-- A launch keeps the invariant. -/
theorem RegistryInv.launch {name : InstanceName} {restart wirePath : Bool} {minted : RunId}
    {labels : List Label} (h : RegistryInv s)
    (hok : ensureSupervised
      (setSpawnRunId s name (launchRun s name restart minted wirePath labels).runId)
      (launchRun s name restart minted wirePath labels) at_ = .ok job) :
    RegistryInv job.1 ∧ Grown (some minted) s job.1 := by
  generalize hrun : launchRun s name restart minted wirePath labels = run at hok
  have hname : run.instanceName = name := by rw [← hrun]; rfl
  -- a kept id is the one the spawn record names, so it has a row that owns the process
  have hkept : run.fresh = false → ∃ r, s.runRecord run.runId = some r ∧
      r.processOwner = true ∧ r.instanceName = some name := by
    intro hfresh
    rw [← hrun] at hfresh ⊢
    simp only [launchRun, Option.isNone_eq_false_iff] at hfresh ⊢
    obtain ⟨id, hid⟩ := Option.isSome_iff_exists.1 hfresh
    rw [hid, Option.getD_some]
    split at hid
    · exact h.2 name id hid
    · exact absurd hid (by simp)
  have hfresh : run.fresh = true → run.runId = minted := by
    intro hfresh
    rw [← hrun] at hfresh ⊢
    simp only [launchRun, Option.isNone_iff_eq_none] at hfresh ⊢
    rw [hfresh, Option.getD_none]
  obtain ⟨hinv, hspawn, hgrown, hown⟩ :=
    (h.1.setSpawnRunId name run.runId).ensureSupervised hok fun r hfresh hr => by
      obtain ⟨r', hr', ho, -⟩ := hkept hfresh
      rw [show (setSpawnRunId s name run.runId).runRecord run.runId = s.runRecord run.runId from
        rfl, hr', Option.some.injEq] at hr
      rw [← hr, ho]
  have hgrown' : Grown (some run.runId) s job.1 := ⟨hgrown.rows, hgrown.news⟩
  refine ⟨⟨hinv, fun n id hid => ?_⟩, ?_⟩
  · rw [hspawn] at hid
    by_cases hn : n = name
    · subst hn
      obtain rfl : run.runId = id := by
        simpa [setSpawnRunId] using hid
      cases hfresh : run.fresh with
      | true => rw [← hname]; exact hown (.inl hfresh)
      | false =>
          obtain ⟨r, hr, ho, hi⟩ := hkept hfresh
          obtain ⟨r', hr', -, ho', hi'⟩ := hgrown'.rows hr
          exact ⟨r', hr', ho'.trans ho, hi'.trans hi⟩
    · have hid' : s.spawnRunId n = some id := by
        simpa [setSpawnRunId, hn] using hid
      obtain ⟨r, hr, ho, hi⟩ := h.2 n id hid'
      obtain ⟨r', hr', -, ho', hi'⟩ := hgrown'.rows hr
      exact ⟨r', hr', ho'.trans ho, hi'.trans hi⟩
  · cases hf : run.fresh with
    | true => rw [← hfresh hf]; exact hgrown'
    | false =>
        obtain ⟨r, hr, -⟩ := hkept hf
        exact hgrown'.of_row hr

/-- An adoption keeps the invariant. -/
theorem RegistryInv.adopt {name : InstanceName} {wirePath : Bool} {labels : List Label}
    (h : RegistryInv s) (hid : s.spawnRunId name = some id)
    (hok : ensureSupervised s ⟨name, id, wirePath, labels, false⟩ at_ = .ok job) :
    RegistryInv job.1 ∧ Grown none s job.1 := by
  obtain ⟨r, hr, ho, -⟩ := h.2 name id hid
  obtain ⟨hinv, hspawn, hgrown, -⟩ := h.1.ensureSupervised hok fun r' _ hr' => by
    rw [hr, Option.some.injEq] at hr'
    rw [← hr', ho]
  exact ⟨⟨hinv, h.2.grown hspawn hgrown⟩, hgrown.of_row hr⟩

/-- An ended row for an unknown id keeps the invariant. -/
theorem RegistryInv.ensureRunRow {name : InstanceName} (h : RegistryInv s) :
    RegistryInv (s.ensureRunRow id name at_) ∧ Grown (some id) s (s.ensureRunRow id name at_) := by
  unfold RunStore.ensureRunRow
  split
  · rename_i s' hins
    have hshape := h.1.toTreeShape.insertRun hins (by simp [RunStore.placeholderRecord])
      (by simp [RunStore.placeholderRecord]) (by simp [RunStore.placeholderRecord])
      (by simp [RunStore.placeholderRecord])
    have hgrown : Grown (some id) s s' := insertRun_grown hins
    refine ⟨⟨h.1.insertRun hins hshape (.inr (.inr rfl)) ⟨by simp [RunStore.placeholderRecord],
      by simp [RunStore.placeholderRecord]⟩ fun hne => absurd rfl hne, ?_⟩, hgrown⟩
    exact h.2.grown (RunStore.insertRun_ok hins).2.2.1 hgrown
  · exact ⟨h, Grown.refl⟩

/-- A **single operation** keeps the invariant, and only the Run it mints is new. -/
theorem RegistryInv.apply (h : RegistryInv s) (op : RunOp) :
    RegistryInv (op.apply s at_) ∧ Grown op.minted s (op.apply s at_) := by
  cases op with
  | register name =>
      refine ⟨⟨⟨⟨h.1.keys, h.1.parents, h.1.roots, h.1.named, h.1.height⟩, h.1.known, h.1.marked,
        h.1.oneOwner, h.1.follows⟩, h.2⟩, fun {_ r} hr => ⟨r, hr, rfl, rfl, rfl⟩, fun hid _ => hid⟩
  | launch name restart minted wirePath labels =>
      exact h.commitJob fun job hok => h.launch hok
  | adopt name wirePath labels =>
      simp only [RunOp.apply]
      split
      · exact ⟨h, Grown.refl⟩
      · rename_i id hid
        exact h.commitJob fun job hok => h.adopt hid hok
  | transition name newState fate cause =>
      refine h.commitJob fun job hok => ?_
      obtain ⟨σ, hσ, hinv⟩ := h.1.projectTransition hok
      exact h.moved hσ hinv
  | openChild request minted =>
      refine h.commitJob fun job hok => ?_
      cases hopen : openChild s request minted at_ with
      | error e => rw [hopen] at hok; exact absurd hok (by simp [Except.map])
      | ok result =>
          rw [hopen] at hok
          obtain rfl : result.2 = job := Except.ok.inj hok
          obtain ⟨hinv, hspawn, hgrown⟩ := h.1.openChild hopen
          exact ⟨⟨hinv, h.2.grown hspawn hgrown⟩, hgrown⟩
  | close id =>
      refine h.commitJob fun job hok => ?_
      obtain ⟨σ, hσ, hinv⟩ := h.1.close hok
      exact h.moved hσ hinv
  | syncDepth id depth wirePath =>
      simp only [RunOp.apply]
      split
      · exact ⟨h, Grown.refl⟩
      · rename_i record hrec
        refine h.commitJob fun job hok => h.restatus_none (syncDepth_restatus hok ?_ rfl rfl rfl)
        rw [RunStore.runId_of_runRecord hrec]
        exact hrec
  | syncBoundLabels id labels =>
      exact h.commitJob fun job hok => h.restatus_none (syncBoundLabels_restatus hok)
  | markBreach id =>
      exact h.commitJob fun job hok => h.restatus_none (markBreach_restatus hok)
  | endRunsWithoutAProcess state =>
      refine h.commitJob fun job hok => ?_
      obtain ⟨⟨σ, hσ⟩, hinv⟩ := h.1.endRunsWithoutAProcess hok
      exact h.moved hσ hinv
  | settle name =>
      refine ⟨⟨⟨⟨h.1.keys, h.1.parents, h.1.roots, h.1.named, h.1.height⟩, h.1.known, h.1.marked,
        h.1.oneOwner, h.1.follows⟩, fun n id hid => ?_⟩, fun {_ r} hr => ⟨r, hr, rfl, rfl, rfl⟩,
        fun hid _ => hid⟩
      by_cases hn : n = name
      · subst hn
        exact absurd hid (by simp [RunOp.apply])
      · exact h.2 n id (by simpa [RunOp.apply, hn] using hid)
  | ensureRunRow id name => exact h.ensureRunRow

/-- Every **sequence of operations** keeps the invariant. -/
theorem runOps_inv (ops : List (Timestamp × RunOp)) : RegistryInv (runOps ops) := by
  have hall : ∀ s, RegistryInv s → RegistryInv (ops.foldl (fun s op => op.2.apply s op.1) s) := by
    induction ops with
    | nil => exact fun s h => h
    | cons op ops ih => exact fun s h => ih _ (h.apply op.2).1
  exact hall _ ⟨treeInv_empty, fun _ _ h => absurd h (by simp [RunStore.empty])⟩

/-! ### The Run tree -/

/-- A chain is no longer than the walk upward. -/
theorem length_runChainF_le (fuel k : ℕ) {id : RunId} (h : Forest.up s.parentOf k id = none) :
    (s.runChainF fuel id).length ≤ k := by
  induction fuel generalizing k id with
  | zero => simp [RunStore.runChainF]
  | succ fuel ih =>
      cases k with
      | zero => exact absurd h (by simp)
      | succ k =>
          rw [RunStore.runChainF]
          cases hr : s.runRecord id with
          | none => simp
          | some r =>
              cases hp : r.parentRunId with
              | none => simp [hp]
              | some p =>
                  rw [Forest.up_succ_of_parent (by
                    rw [RunStore.parentOf, hr, Option.bind_some, hp])] at h
                  simpa [hp] using ih k h

/-- **The Run tree** after any operations of the registry: an instance has at most one open
process-owning Run; an open Run that owns no process has an open owner of its instance above it,
with the same status; no chain is longer than the nesting bound; and the end columns are set
exactly on the ended Runs. -/
theorem runTree_consistent (ops : List (Timestamp × RunOp)) :
    (∀ r ∈ (runOps ops).runs, ∀ q ∈ (runOps ops).runs, r.processOwner = true →
      q.processOwner = true → r.status ≠ .ended → q.status ≠ .ended →
      r.instanceName = q.instanceName → r = q) ∧
    (∀ r ∈ (runOps ops).runs, r.status ≠ .ended → r.processOwner = false →
      ∃ o ∈ (runOps ops).runs,
        (∃ k, Forest.up (runOps ops).parentOf (k + 1) r.runId = some o.runId) ∧
        o.processOwner = true ∧ o.instanceName = r.instanceName ∧ o.status = r.status ∧
        (o.status = .active ∨ o.status = .held)) ∧
    (∀ id, Forest.up (runOps ops).parentOf maxRunNesting id = none ∧
      ((runOps ops).runChain id).length ≤ maxRunNesting) ∧
    (∀ r ∈ (runOps ops).runs, (r.status = .ended ↔ r.endedAt.isSome) ∧
      (r.status = .ended ↔ r.endCause.isSome)) := by
  obtain ⟨hinv, -⟩ := runOps_inv ops
  refine ⟨?_, ?_, fun id => ⟨hinv.height id, ?_⟩, fun r hr => ?_⟩
  · intro r hr q hq hro hqo hre hqe hname
    have hr' := hinv.keys.runRecord hr
    have hq' := hinv.keys.runRecord hq
    rw [hinv.oneOwner hr' hq' hro hqo hre hqe hname, hq', Option.some.injEq] at hr'
    exact hr'.symm
  · intro r hr hre hro
    have hr' := hinv.keys.runRecord hr
    obtain ⟨o, hroot⟩ := hinv.height.exists_root r.runId
    obtain ⟨q, hq, hown, hname⟩ := hinv.toTreeShape.root_row hr' hroot
    have hstatus := hinv.follows hr' hre hroot hq
    have hid := RunStore.runId_of_runRecord hq
    refine ⟨q, RunStore.mem_of_runRecord hq, ?_, hown, hname, hstatus, ?_⟩
    · obtain ⟨⟨k, hk⟩, -⟩ := hroot
      cases k with
      | zero =>
          rw [Forest.up_zero, Option.some.injEq] at hk
          rw [← hk, hr', Option.some.injEq] at hq
          rw [hq, hown] at hro
          exact absurd hro (by simp)
      | succ k => exact ⟨k, by rw [hid]; exact hk⟩
    · rcases hinv.known hq with ha | hh | he
      · exact .inl ha
      · exact .inr hh
      · rw [hstatus] at he
        exact absurd he hre
  · exact length_runChainF_le _ _ (hinv.height id)
  · exact hinv.marked (hinv.keys.runRecord hr)

/-- Pausing an instance holds its Run and the child of that Run. -/
example :
    ((runOps [("1", .register "a"), ("2", .launch "a" false 7 true []),
      ("3", .openChild ⟨.ofInstance "a", [], RunLimits.empty, none⟩ 8),
      ("4", .transition "a" .paused .terminal "operator")]).runs.map
        fun r => (r.runId, r.parentRunId, r.status)) = [(7, none, .held), (8, some 7, .held)] := by
  decide

end Runs

end Hekma
