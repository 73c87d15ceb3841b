/-
**The store writer** (`store/writer.rs`, `store/sqlite.rs`).

One thread writes the database.  Senders queue jobs; the writer takes the jobs that are queued as a
batch and runs it in one transaction with a savepoint per job.  A job that fails rolls its savepoint
back and answers its own sender; a batch that does not commit answers all of its senders.  What a
job has registered to run after the commit runs before its sender is answered.

Main definitions:

* `Job`, `WorkEnd` — a job, and how its work ends;
* `runJob`, `runJobs`, `commitBatch`, `nextBatch` — the code;
* `StoreWriter`, `StoreWriter.step` — the queue, the database and what the senders were told;
* `Applied` — the jobs of a list, run one after the other, all succeed.

Main results:

* `runJobs_spec`, `commitBatch_spec` — what a batch applies and answers;
* `storeWriter_protocol` — the database holds exactly the jobs that were answered with success.
-/

import Mathlib.Tactic

set_option relaxedAutoImplicit false
set_option autoImplicit false

namespace Hekma

namespace Writer

/-- Why a write was not applied. -/
inductive WriteError where
  | busy (waitedMs : ℕ)
  | backend (detail : String)
  deriving DecidableEq, Repr

/-- How long a sender waits for its job to be taken. -/
def ackBoundMs : ℕ := 1000

/-- The most events of a batch. -/
def batchMaxEvents : ℕ := 512

/-- How the closure of a job ends. -/
inductive WorkResult where
  | ok
  | failed (err : WriteError)
  | panicked
  deriving DecidableEq, Repr

variable {σ η : Type}

/-- How the work of a job ends: its result, the database as it leaves it inside the transaction, or
nothing if SQLite has rolled the transaction back, and the hooks it has registered. -/
structure WorkEnd (σ η : Type) where
  result : WorkResult
  view : Option σ
  hooks : List η

/-- A job.  `id` and `sender` are not in the source: they name it in the log. -/
structure Job (σ η : Type) where
  id : ℕ
  sender : ℕ
  acked : Bool
  weight : ℕ
  work : σ → WorkEnd σ η

/-- What the environment does to a job: its sender gives up before it is taken, its savepoint cannot
be opened, its savepoint cannot be released. -/
structure JobFaults where
  abandoned : Bool
  savepoint : Option WriteError
  release : Option WriteError

/-- What happens at the end of the channel: a hook runs, a sender is told the result of its job, a
sender is told that there is no writer. -/
inductive Event (η : Type) where
  | hook (id : ℕ) (hook : η)
  | reply (id : ℕ) (result : Option WriteError)
  | refused (sender : ℕ)
  deriving DecidableEq, Repr

/-! ### The code -/

/-- The text of a panic. -/
def panicError : WriteError :=
  .backend "a store writer job panicked; its write was rolled back"

/-- The text for every job of a transaction that SQLite has rolled back. -/
def lostError : WriteError :=
  .backend ("the store writer's batch transaction was rolled back by SQLite (a full disk " ++
    "or an I/O error), so this write was not applied")

/-- A copy of the failure of a batch for each of its jobs. -/
def batchFailure : WriteError → WriteError
  | .busy waitedMs => .busy waitedMs
  | .backend detail =>
      .backend ("the store writer's batch did not commit, so this write was not applied: " ++
        detail)

/-- A job that its sender has given up is never applied.  Only an acked job has a sender that
waits. -/
def Job.isAbandoned (job : Job σ η) (faults : JobFaults) : Bool := job.acked && faults.abandoned

/-- What a job leaves behind: its result, its hooks if it succeeded, and the transaction. -/
structure Ran (σ η : Type) where
  result : Option WriteError
  hooks : List η
  view : Option σ

/-- Run a job in its savepoint.  A failure of the work or of the release rolls the savepoint
back; when the transaction is gone there is nothing to release. -/
def runJob (job : Job σ η) (faults : JobFaults) (view : σ) : Ran σ η :=
  match faults.savepoint with
  | some err => ⟨some err, [], some view⟩
  | none =>
      let done := job.work view
      match done.view, done.result with
      | none, .failed err => ⟨some err, [], none⟩
      | none, .panicked => ⟨some panicError, [], none⟩
      | none, .ok => ⟨some lostError, [], none⟩
      | some _, .failed err => ⟨some err, [], some view⟩
      | some _, .panicked => ⟨some panicError, [], some view⟩
      | some after, .ok =>
          match faults.release with
          | some err => ⟨some err, [], some view⟩
          | none => ⟨none, done.hooks, some after⟩

/-- What a batch has done so far: the senders it has told already, the jobs that ran with their
results and hooks, and the transaction. -/
structure BatchRun (σ η : Type) where
  told : List (Job σ η × WriteError)
  ran : List (Job σ η × Option WriteError × List η)
  view : Option σ

/-- Run the jobs of a batch.  Once the transaction is gone no job runs. -/
def runJobs : List (Job σ η × JobFaults) → Option σ → BatchRun σ η
  | [], view => ⟨[], [], view⟩
  | (job, faults) :: rest, view =>
      if job.isAbandoned faults then
        let r := runJobs rest view
        { r with told := (job, .busy ackBoundMs) :: r.told }
      else
        match view with
        | none =>
            let r := runJobs rest none
            { r with told := (job, lostError) :: r.told }
        | some view =>
            let x := runJob job faults view
            let r := runJobs rest x.view
            { r with ran := (job, x.result, x.hooks) :: r.ran }

/-- The answers to some senders. -/
def replies (told : List (Job σ η × WriteError)) : List (Event η) :=
  told.map fun x => .reply x.1.id (some x.2)

/-- The hooks of a job, and then its answer. -/
def finish (x : Job σ η × Option WriteError × List η) : List (Event η) :=
  x.2.2.map (Event.hook x.1.id) ++ [.reply x.1.id x.2.1]

/-- The same failure for every job. -/
def failAll (err : WriteError) (ran : List (Job σ η × Option WriteError × List η)) :
    List (Event η) :=
  replies (ran.map fun x => (x.1, err))

/-- Run a batch in one transaction and answer every job of it.  Returns what its senders are told
and the database. -/
def commitBatch (db : σ) (batch : List (Job σ η × JobFaults)) (beginErr commitErr : Option WriteError) :
    List (Event η) × σ :=
  match beginErr with
  | some err =>
      (replies (batch.map fun x =>
        (x.1, if x.1.isAbandoned x.2 then .busy ackBoundMs else batchFailure err)), db)
  | none =>
      let r := runJobs batch (some db)
      match r.view with
      | none => (replies r.told ++ failAll lostError r.ran, db)
      | some view =>
          match commitErr with
          | none => (replies r.told ++ r.ran.flatMap finish, view)
          | some err => (replies r.told ++ failAll (batchFailure err) r.ran, db)

/-- Take more jobs while they are there and the batch has room. -/
def takeMore (weight : ℕ) : ℕ → List (Job σ η) → List (Job σ η) × List (Job σ η)
  | 0, queue => ([], queue)
  | _ + 1, [] => ([], [])
  | available + 1, job :: queue =>
      if weight < batchMaxEvents then
        let r := takeMore (weight + job.weight) available queue
        (job :: r.1, r.2)
      else ([], job :: queue)

/-- The next batch: the first job, and of the jobs that are there in time as many as fit. -/
def nextBatch (available : ℕ) : List (Job σ η) → List (Job σ η) × List (Job σ η)
  | [] => ([], [])
  | job :: queue =>
      let r := takeMore job.weight available queue
      (job :: r.1, r.2)

/-! ### What a batch applies -/

/-- The job an event is about. -/
def Event.about (event : Event η) (id : ℕ) : Bool :=
  match event with
  | .hook i _ => i == id
  | .reply i _ => i == id
  | .refused _ => false

/-- `Applied db oks db'`: the work of the jobs `oks`, one after the other, succeeds, registers the
hooks of `oks`, and leads from `db` to `db'`. -/
inductive Applied : σ → List (Job σ η × List η) → σ → Prop
  | nil (db : σ) : Applied db [] db
  | cons {db mid db' : σ} {job : Job σ η} {hooks : List η} {oks : List (Job σ η × List η)}
      (work : job.work db = ⟨.ok, some mid, hooks⟩) (rest : Applied mid oks db') :
      Applied db ((job, hooks) :: oks) db'

theorem Applied.append {db mid db' : σ} {oks oks' : List (Job σ η × List η)}
    (h : Applied db oks mid) (h' : Applied mid oks' db') : Applied db (oks ++ oks') db' := by
  induction h with
  | nil db => exact h'
  | cons work _ ih => exact .cons work (ih h')

/-- A job that was applied did its work on what the jobs before it had left. -/
theorem Applied.split {db db' : σ} {oks : List (Job σ η × List η)} (h : Applied db oks db')
    {job : Job σ η} {hooks : List η} (hmem : (job, hooks) ∈ oks) :
    ∃ pre mid mid' post, oks = pre ++ (job, hooks) :: post ∧ Applied db pre mid ∧
      job.work mid = ⟨.ok, some mid', hooks⟩ ∧ Applied mid' post db' := by
  induction h with
  | nil db => simp at hmem
  | cons work rest ih =>
      rcases List.mem_cons.mp hmem with heq | hmem
      · obtain ⟨rfl, rfl⟩ := Prod.mk.inj heq
        exact ⟨[], _, _, _, rfl, .nil _, work, rest⟩
      · obtain ⟨pre, mid, mid', post, rfl, hpre, hwork, hpost⟩ := ih hmem
        exact ⟨_ :: pre, mid, mid', post, rfl, .cons work hpre, hwork, hpost⟩

/-- The jobs that were answered with success, with their hooks. -/
def applied (ran : List (Job σ η × Option WriteError × List η)) : List (Job σ η × List η) :=
  ran.filterMap fun x => if x.2.1 = none then some (x.1, x.2.2) else none

theorem applied_append (ran ran' : List (Job σ η × Option WriteError × List η)) :
    applied (ran ++ ran') = applied ran ++ applied ran' := by
  simp [applied]

/-- A sender that is told of a failure alone, as a job that has run. -/
def failed (told : List (Job σ η × WriteError)) :
    List (Job σ η × Option WriteError × List η) :=
  told.map fun x => (x.1, some x.2, [])

theorem applied_failed (told : List (Job σ η × WriteError)) : applied (failed told) = [] := by
  simp [applied, failed]

theorem map_failed (told : List (Job σ η × WriteError)) :
    (failed told).map Prod.fst = told.map Prod.fst := by
  simp [failed]

theorem replies_eq (told : List (Job σ η × WriteError)) :
    replies told = (failed told).flatMap finish := by
  induction told with
  | nil => rfl
  | cons x told ih =>
      have h : replies (x :: told) = .reply x.1.id (some x.2) :: replies told := rfl
      rw [h, ih]
      simp [failed, finish]

theorem mem_applied {ran : List (Job σ η × Option WriteError × List η)} {job : Job σ η}
    {hooks : List η} : (job, hooks) ∈ applied ran ↔ (job, none, hooks) ∈ ran := by
  constructor
  · intro h
    obtain ⟨⟨job', result, hooks'⟩, hx, he⟩ := List.mem_filterMap.mp h
    cases result with
    | none =>
        simp only [if_true, Option.some.injEq, Prod.mk.injEq] at he
        obtain ⟨rfl, rfl⟩ := he
        exact hx
    | some err => simp at he
  · intro h
    exact List.mem_filterMap.mpr ⟨_, h, by simp⟩

theorem applied_sublist (ran : List (Job σ η × Option WriteError × List η)) :
    ((applied ran).map Prod.fst).Sublist (ran.map Prod.fst) := by
  induction ran with
  | nil => exact List.Sublist.refl _
  | cons x ran ih =>
      obtain ⟨job, result, hooks⟩ := x
      cases result with
      | none => simpa [applied] using ih
      | some err =>
          have h : applied ((job, some err, hooks) :: ran) = applied ran := by simp [applied]
          rw [h]
          exact ih.trans (List.sublist_cons_self _ _)

/-- Only the jobs with an answer of their own are heard of, each as a block. -/
theorem filter_finish_self (x : Job σ η × Option WriteError × List η) :
    (finish x).filter (·.about x.1.id) = finish x := by
  rw [List.filter_eq_self]
  intro e he
  rcases List.mem_append.mp he with he | he
  · obtain ⟨hook, _, rfl⟩ := List.mem_map.mp he
    simp [Event.about]
  · rw [List.mem_singleton.mp he]
    simp [Event.about]

theorem filter_finish_of_ne {x : Job σ η × Option WriteError × List η} {id : ℕ}
    (h : x.1.id ≠ id) : (finish x).filter (·.about id) = [] := by
  rw [List.filter_eq_nil_iff]
  intro e he
  rcases List.mem_append.mp he with he | he
  · obtain ⟨hook, _, rfl⟩ := List.mem_map.mp he
    simpa [Event.about] using h
  · rw [List.mem_singleton.mp he]
    simpa [Event.about] using h

theorem filter_flatMap_of_not_mem (ran : List (Job σ η × Option WriteError × List η)) {id : ℕ}
    (h : id ∉ ran.map (·.1.id)) : (ran.flatMap finish).filter (·.about id) = [] := by
  induction ran with
  | nil => rfl
  | cons x ran ih =>
      simp only [List.map_cons, List.mem_cons, not_or] at h
      rw [List.flatMap_cons, List.filter_append, filter_finish_of_ne (Ne.symm h.1), ih h.2,
        List.append_nil]

theorem filter_flatMap_finish (ran : List (Job σ η × Option WriteError × List η))
    (hn : (ran.map (·.1.id)).Nodup) {x : Job σ η × Option WriteError × List η} (hx : x ∈ ran) :
    (ran.flatMap finish).filter (·.about x.1.id) = finish x := by
  induction ran with
  | nil => simp at hx
  | cons y ran ih =>
      rw [List.map_cons, List.nodup_cons] at hn
      rw [List.flatMap_cons, List.filter_append]
      rcases List.mem_cons.mp hx with rfl | hx
      · rw [filter_finish_self, filter_flatMap_of_not_mem ran hn.1, List.append_nil]
      · have hne : y.1.id ≠ x.1.id := by
          intro he
          exact hn.1 (List.mem_map.mpr ⟨x, hx, he.symm⟩)
        rw [filter_finish_of_ne hne, ih hn.2 hx, List.nil_append]

/-- A job that succeeds in its savepoint has done its work there; a job that fails leaves the
transaction as it was, unless SQLite has rolled it back. -/
theorem runJob_cases (job : Job σ η) (faults : JobFaults) (view : σ) :
    (∃ after hooks, job.work view = ⟨.ok, some after, hooks⟩ ∧
      runJob job faults view = ⟨none, hooks, some after⟩) ∨
    (∃ err, runJob job faults view = ⟨some err, [], some view⟩) ∨
    (∃ err, runJob job faults view = ⟨some err, [], none⟩ ∧ (job.work view).view = none) := by
  unfold runJob
  cases faults.savepoint with
  | some err => exact .inr (.inl ⟨err, rfl⟩)
  | none =>
      obtain ⟨result, after, hooks⟩ := job.work view
      cases after with
      | none =>
          right; right
          cases result with
          | ok => exact ⟨_, rfl, rfl⟩
          | failed err => exact ⟨_, rfl, rfl⟩
          | panicked => exact ⟨_, rfl, rfl⟩
      | some after =>
          cases result with
          | failed err => exact .inr (.inl ⟨_, rfl⟩)
          | panicked => exact .inr (.inl ⟨_, rfl⟩)
          | ok =>
              cases faults.release with
              | none => exact .inl ⟨_, _, rfl, rfl⟩
              | some err => exact .inr (.inl ⟨_, rfl⟩)

/-- What the jobs of a batch have done: every job was told of a failure or has run, a failure takes
its hooks, and the transaction holds the work of those that succeeded. -/
structure RanBatch (db : σ) (batch : List (Job σ η)) (r : BatchRun σ η) : Prop where
  complete : (r.told.map Prod.fst ++ r.ran.map Prod.fst).Perm batch
  order : (r.ran.map Prod.fst).Sublist batch
  bare : ∀ x ∈ r.ran, x.2.1 ≠ none → x.2.2 = []
  view : ∀ db', r.view = some db' → Applied db (applied r.ran) db'

theorem runJobs_gone (batch : List (Job σ η × JobFaults)) :
    (runJobs batch none).told.map Prod.fst = batch.map Prod.fst ∧
      (runJobs batch none).ran = [] ∧ (runJobs batch none).view = none := by
  induction batch with
  | nil => exact ⟨rfl, rfl, rfl⟩
  | cons x rest ih =>
      obtain ⟨told, ran, view⟩ := ih
      rw [runJobs]
      split
      · exact ⟨by rw [List.map_cons, List.map_cons, told], ran, view⟩
      · exact ⟨by rw [List.map_cons, List.map_cons, told], ran, view⟩

theorem RanBatch.gone (db : σ) (batch : List (Job σ η × JobFaults)) :
    RanBatch db (batch.map Prod.fst) (runJobs batch none) := by
  obtain ⟨told, ran, view⟩ := runJobs_gone batch
  refine ⟨?_, ?_, ?_, ?_⟩
  · rw [told, ran, List.map_nil, List.append_nil]
  · rw [ran]
    exact List.nil_sublist _
  · intro x hx
    rw [ran] at hx
    simp at hx
  · intro db' h
    rw [view] at h
    simp at h

/-- One more job that its sender has given up. -/
theorem RanBatch.skip {db : σ} {batch : List (Job σ η)} {r : BatchRun σ η} (h : RanBatch db batch r)
    (job : Job σ η) (err : WriteError) :
    RanBatch db (job :: batch) { r with told := (job, err) :: r.told } :=
  ⟨h.complete.cons job, h.order.trans (List.sublist_cons_self _ _), h.bare, h.view⟩

/-- One more job that has run. -/
theorem RanBatch.run {db db' : σ} {batch : List (Job σ η)} {r : BatchRun σ η} {job : Job σ η}
    {result : Option WriteError} {hooks : List η} (h : RanBatch db' batch r)
    (hb : result ≠ none → hooks = [])
    (hv : ∀ db'' oks, r.view = some db'' → Applied db' oks db'' →
      Applied db (applied [(job, result, hooks)] ++ oks) db'') :
    RanBatch db (job :: batch) { r with ran := (job, result, hooks) :: r.ran } where
  complete := List.perm_middle.trans (h.complete.cons job)
  order := h.order.cons_cons job
  bare := by
    intro x hx
    rcases List.mem_cons.mp hx with rfl | hx
    · exact hb
    · exact h.bare x hx
  view := by
    intro db'' hview
    have happ := applied_append [(job, result, hooks)] r.ran
    rw [List.singleton_append] at happ
    rw [happ]
    exact hv db'' _ hview (h.view db'' hview)

/-- **What a batch does in its transaction.** -/
theorem runJobs_spec (batch : List (Job σ η × JobFaults)) (db : σ) :
    RanBatch db (batch.map Prod.fst) (runJobs batch (some db)) := by
  induction batch generalizing db with
  | nil =>
      refine ⟨.refl _, .refl _, ?_, ?_⟩
      · intro x hx
        simp [runJobs] at hx
      · intro db' h
        obtain rfl : db = db' := by simpa [runJobs] using h
        exact .nil db
  | cons x rest ih =>
      obtain ⟨job, faults⟩ := x
      rw [runJobs]
      split
      · exact (ih db).skip job _
      rcases runJob_cases job faults db with
        ⟨after, hooks, work, hrun⟩ | ⟨err, hrun⟩ | ⟨err, hrun, _⟩
      · simp only [hrun]
        refine (ih after).run (by simp) ?_
        intro db'' oks _ happ
        exact .cons work happ
      · simp only [hrun]
        refine (ih db).run (fun _ => rfl) ?_
        intro db'' oks _ happ
        exact happ
      · simp only [hrun]
        refine (RanBatch.gone db rest).run (fun _ => rfl) ?_
        intro db'' oks hview _
        rw [(runJobs_gone rest).2.2] at hview
        simp at hview

/-- What a batch has told its senders: each job is answered once, and the database holds the work of
those that were answered with success, in their order. -/
structure Answered (db : σ) (batch : List (Job σ η)) (events : List (Event η)) (db' : σ)
    (blocks : List (Job σ η × Option WriteError × List η)) : Prop where
  events : events = blocks.flatMap finish
  complete : (blocks.map Prod.fst).Perm batch
  order : ((applied blocks).map Prod.fst).Sublist batch
  bare : ∀ x ∈ blocks, x.2.1 ≠ none → x.2.2 = []
  applied : Applied db (applied blocks) db'

theorem applied_of_failed (told : List (Job σ η × WriteError)) (x : Job σ η × Option WriteError × List η)
    (hx : x ∈ failed told) (_ : x.2.1 ≠ none) : x.2.2 = [] := by
  obtain ⟨y, _, rfl⟩ := List.mem_map.mp hx
  rfl

/-- A batch of which nothing is applied. -/
theorem Answered.failed (db : σ) {batch : List (Job σ η)} (told : List (Job σ η × WriteError))
    (h : (told.map Prod.fst).Perm batch) :
    Answered db batch (replies told) db (Writer.failed told) where
  events := replies_eq told
  complete := by rwa [map_failed]
  order := by
    rw [applied_failed]
    exact List.nil_sublist _
  bare := applied_of_failed told
  applied := by
    rw [applied_failed]
    exact .nil db

/-- **What a batch applies and answers.** -/
theorem commitBatch_spec (db : σ) (batch : List (Job σ η × JobFaults))
    (beginErr commitErr : Option WriteError) :
    ∃ blocks, Answered db (batch.map Prod.fst) (commitBatch db batch beginErr commitErr).1
      (commitBatch db batch beginErr commitErr).2 blocks := by
  have hrun := runJobs_spec batch db
  -- a batch that is not committed leaves the database, and every job that ran is failed
  have hlost : ∀ err : WriteError, ∃ blocks, Answered db (batch.map Prod.fst)
      (replies (runJobs batch (some db)).told ++ failAll err (runJobs batch (some db)).ran) db
      blocks := by
    intro err
    have hall : (((runJobs batch (some db)).told ++
        (runJobs batch (some db)).ran.map fun x => (x.1, err)).map Prod.fst).Perm
        (batch.map Prod.fst) := by
      rw [List.map_append, List.map_map]
      exact hrun.complete
    have h := Answered.failed db _ hall
    rw [replies, List.map_append] at h
    exact ⟨_, h⟩
  unfold commitBatch
  cases beginErr with
  | some err =>
      refine ⟨_, Answered.failed db _ ?_⟩
      rw [List.map_map]
      exact .refl _
  | none =>
      cases hview : (runJobs batch (some db)).view with
      | none => simpa only [hview] using hlost lostError
      | some view =>
          cases commitErr with
          | some err => simpa only [hview] using hlost (batchFailure err)
          | none =>
              simp only [hview]
              refine ⟨failed (runJobs batch (some db)).told ++ (runJobs batch (some db)).ran,
                ?_, ?_, ?_, ?_, ?_⟩
              · rw [replies_eq, List.flatMap_append]
              · rw [List.map_append, map_failed]
                exact hrun.complete
              · rw [applied_append, applied_failed, List.nil_append]
                exact (applied_sublist _).trans hrun.order
              · intro x hx
                rcases List.mem_append.mp hx with hx | hx
                · exact applied_of_failed _ x hx
                · exact hrun.bare x hx
              · rw [applied_append, applied_failed, List.nil_append]
                exact hrun.view view hview

/-! ### A batch that commits -/

/-- What a job is told when nothing but its own work and its own savepoint can fail. -/
def ownAnswer (job : Job σ η) (faults : JobFaults) (view : σ) : List (Event η) :=
  if job.isAbandoned faults then [.reply job.id (some (.busy ackBoundMs))]
  else finish (job, (runJob job faults view).result, (runJob job faults view).hooks)

/-- The database the jobs of a list leave, each one on what the ones before it have left. -/
def surviving : List (Job σ η × JobFaults) → σ → σ
  | [], view => view
  | (job, faults) :: rest, view =>
      if job.isAbandoned faults then surviving rest view
      else surviving rest ((runJob job faults view).view.getD view)

/-- SQLite does not roll the transaction back under a job. -/
def Job.Keeps (job : Job σ η) : Prop := ∀ view, (job.work view).view ≠ none

theorem Job.Keeps.runJob {job : Job σ η} (h : job.Keeps) (faults : JobFaults) (view : σ) :
    ∃ after, (runJob job faults view).view = some after := by
  rcases runJob_cases job faults view with ⟨after, hooks, _, hrun⟩ | ⟨err, hrun⟩ | ⟨_, _, hnone⟩
  · exact ⟨after, by rw [hrun]⟩
  · exact ⟨view, by rw [hrun]⟩
  · exact absurd hnone (h view)

theorem runJobs_surviving (batch : List (Job σ η × JobFaults)) (hk : ∀ x ∈ batch, x.1.Keeps)
    (db : σ) : (runJobs batch (some db)).view = some (surviving batch db) := by
  induction batch generalizing db with
  | nil => rfl
  | cons x rest ih =>
      obtain ⟨job, faults⟩ := x
      have hrest : ∀ x ∈ rest, x.1.Keeps := fun x hx => hk x (List.mem_cons_of_mem _ hx)
      rw [runJobs, surviving]
      split
      · exact ih hrest db
      · obtain ⟨after, hafter⟩ := (hk _ List.mem_cons_self).runJob faults db
        simp only [hafter, Option.getD_some]
        exact ih hrest after

theorem commitBatch_keeps (batch : List (Job σ η × JobFaults)) (hk : ∀ x ∈ batch, x.1.Keeps)
    (db : σ) :
    commitBatch db batch none none =
      ((failed (runJobs batch (some db)).told ++ (runJobs batch (some db)).ran).flatMap finish,
        surviving batch db) := by
  simp only [commitBatch, runJobs_surviving batch hk db, replies_eq, List.flatMap_append]

/-- The block of a job in a batch that commits. -/
theorem ownAnswer_block (batch : List (Job σ η × JobFaults)) (hk : ∀ x ∈ batch, x.1.Keeps) (db : σ)
    {pre post : List (Job σ η × JobFaults)} {job : Job σ η} {faults : JobFaults}
    (hs : batch = pre ++ (job, faults) :: post) :
    ∃ x ∈ failed (runJobs batch (some db)).told ++ (runJobs batch (some db)).ran,
      x.1 = job ∧ finish x = ownAnswer job faults (surviving pre db) := by
  induction pre generalizing batch db with
  | nil =>
      subst hs
      rw [List.nil_append, runJobs, surviving, ownAnswer]
      split
      · exact ⟨(job, some (.busy ackBoundMs), []), by simp [failed], rfl, rfl⟩
      · exact ⟨_, List.mem_append_right _ List.mem_cons_self, rfl, rfl⟩
  | cons y pre ih =>
      subst hs
      have hrest : ∀ x ∈ pre ++ (job, faults) :: post, x.1.Keeps := by
        intro x hx
        exact hk x (List.mem_cons_of_mem _ hx)
      rw [List.cons_append, runJobs, surviving]
      split
      · obtain ⟨x, hx, hjob, hfin⟩ := ih _ hrest db rfl
        refine ⟨x, ?_, hjob, hfin⟩
        rw [failed, List.map_cons, List.cons_append]
        exact List.mem_cons_of_mem _ hx
      · obtain ⟨after, hafter⟩ := (hk _ List.mem_cons_self).runJob y.2 db
        obtain ⟨x, hx, hjob, hfin⟩ := ih _ hrest after rfl
        simp only [hafter, Option.getD_some]
        refine ⟨x, ?_, hjob, hfin⟩
        rcases List.mem_append.mp hx with hx | hx
        · exact List.mem_append_left _ hx
        · exact List.mem_append_right _ (List.mem_cons_of_mem _ hx)

end Writer

open Writer

/-- The writer: the jobs that are queued, the database, and what has happened.  `sent` is not in
the source: it lists every job that was ever queued. -/
structure StoreWriter (σ η : Type) where
  sent : List (Job σ η)
  queue : List (Job σ η)
  db : σ
  log : List (Event η)
  closed : Bool

namespace StoreWriter

variable {σ η : Type}

/-- What the senders and the environment do. -/
inductive Op (σ η : Type) where
  | send (sender : ℕ) (acked : Bool) (weight : ℕ) (work : σ → WorkEnd σ η)
  | batch (available : ℕ) (faults : ℕ → JobFaults) (beginErr commitErr : Option WriteError)
  | close

/-- Queue a job.  Without a writer the sender is told so. -/
def send (s : StoreWriter σ η) (sender : ℕ) (acked : Bool) (weight : ℕ)
    (work : σ → WorkEnd σ η) : StoreWriter σ η :=
  if s.closed then { s with log := s.log ++ [.refused sender] }
  else
    let job : Job σ η := ⟨s.sent.length, sender, acked, max weight 1, work⟩
    { s with
      sent := s.sent ++ [job]
      queue := s.queue ++ [job] }

/-- Take the next batch and commit it.  The faults are those of each job by its id. -/
def runBatch (s : StoreWriter σ η) (available : ℕ) (faults : ℕ → JobFaults)
    (beginErr commitErr : Option WriteError) : StoreWriter σ η :=
  let r := nextBatch available s.queue
  let out := commitBatch s.db (r.1.map fun job => (job, faults job.id)) beginErr commitErr
  { s with
    queue := r.2
    log := s.log ++ out.1
    db := out.2 }

/-- One step of the senders or of the writer. -/
def step (s : StoreWriter σ η) : Op σ η → StoreWriter σ η
  | .send sender acked weight work => s.send sender acked weight work
  | .batch available faults beginErr commitErr => s.runBatch available faults beginErr commitErr
  | .close => { s with closed := true }

/-- A writer over a database. -/
def start (db : σ) : StoreWriter σ η := ⟨[], [], db, [], false⟩

/-- What is heard of a job. -/
def told (s : StoreWriter σ η) (id : ℕ) : List (Event η) := s.log.filter (·.about id)

/-! ### Every run of the writer -/

theorem takeMore_append (weight available : ℕ) (queue : List (Job σ η)) :
    (takeMore weight available queue).1 ++ (takeMore weight available queue).2 = queue := by
  induction available generalizing weight queue with
  | zero => rfl
  | succ available ih =>
      cases queue with
      | nil => rfl
      | cons job queue =>
          rw [takeMore]
          split
          · rw [List.cons_append, ih]
          · rfl

theorem nextBatch_append (available : ℕ) (queue : List (Job σ η)) :
    (nextBatch available queue).1 ++ (nextBatch available queue).2 = queue := by
  cases queue with
  | nil => rfl
  | cons job queue => rw [nextBatch, List.cons_append, takeMore_append]

/-- The state of the protocol: the jobs are numbered in the order they were sent, those that are no
longer queued were answered once each, and the database holds the work of those that were answered
with success. -/
structure Protocol (db : σ) (s : StoreWriter σ η)
    (blocks : List (Job σ η × Option WriteError × List η)) (finished : List (Job σ η)) : Prop where
  ids : s.sent.map Job.id = List.range s.sent.length
  sent : s.sent = finished ++ s.queue
  complete : (blocks.map Prod.fst).Perm finished
  order : ((applied blocks).map Prod.fst).Sublist finished
  bare : ∀ x ∈ blocks, x.2.1 ≠ none → x.2.2 = []
  applied : Applied db (applied blocks) s.db
  log : ∀ id, s.told id = (blocks.flatMap finish).filter (·.about id)

theorem protocol_start (db : σ) : Protocol db (start (η := η) db) [] [] where
  ids := rfl
  sent := rfl
  complete := .refl _
  order := .refl _
  bare := by simp
  applied := .nil db
  log := fun _ => rfl

theorem Protocol.send {db : σ} {s : StoreWriter σ η}
    {blocks : List (Job σ η × Option WriteError × List η)} {finished : List (Job σ η)}
    (h : Protocol db s blocks finished) (sender : ℕ) (acked : Bool) (weight : ℕ)
    (work : σ → WorkEnd σ η) : Protocol db (s.send sender acked weight work) blocks finished := by
  unfold StoreWriter.send
  split
  · refine { h with log := ?_ }
    intro id
    have hlog := h.log id
    rw [told] at hlog ⊢
    rw [List.filter_append, hlog]
    simp [Event.about]
  · refine { h with ids := ?_, sent := ?_ }
    · rw [List.map_append, h.ids, List.length_append, List.length_singleton, List.range_succ]
      rfl
    · exact (congrArg (· ++ [_]) h.sent).trans (List.append_assoc _ _ _)

theorem Protocol.runBatch {db : σ} {s : StoreWriter σ η}
    {blocks : List (Job σ η × Option WriteError × List η)} {finished : List (Job σ η)}
    (h : Protocol db s blocks finished) (available : ℕ) (faults : ℕ → JobFaults)
    (beginErr commitErr : Option WriteError) :
    ∃ blocks' finished',
      Protocol db (s.runBatch available faults beginErr commitErr) blocks' finished' := by
  obtain ⟨news, hnews⟩ := commitBatch_spec s.db
    ((nextBatch available s.queue).1.map fun job => (job, faults job.id)) beginErr commitErr
  have hjobs : ((nextBatch available s.queue).1.map fun job => (job, faults job.id)).map Prod.fst =
      (nextBatch available s.queue).1 := by
    rw [List.map_map]
    exact List.map_id _
  rw [hjobs] at hnews
  refine ⟨blocks ++ news, finished ++ (nextBatch available s.queue).1, h.ids, ?_, ?_, ?_, ?_, ?_,
    ?_⟩
  · change s.sent = finished ++ (nextBatch available s.queue).1 ++ (nextBatch available s.queue).2
    rw [List.append_assoc, nextBatch_append, ← h.sent]
  · rw [List.map_append]
    exact h.complete.append hnews.complete
  · rw [applied_append, List.map_append]
    exact h.order.append hnews.order
  · intro x hx
    rcases List.mem_append.mp hx with hx | hx
    · exact h.bare x hx
    · exact hnews.bare x hx
  · rw [applied_append]
    exact h.applied.append hnews.applied
  · intro id
    have hlog := h.log id
    rw [told] at hlog ⊢
    change List.filter _ (s.log ++ _) = _
    rw [List.filter_append, hlog, hnews.events, List.flatMap_append, List.filter_append]

theorem Protocol.step {db : σ} {s : StoreWriter σ η}
    {blocks : List (Job σ η × Option WriteError × List η)} {finished : List (Job σ η)}
    (h : Protocol db s blocks finished) (op : Op σ η) :
    ∃ blocks' finished', Protocol db (s.step op) blocks' finished' := by
  cases op with
  | send sender acked weight work => exact ⟨_, _, h.send sender acked weight work⟩
  | batch available faults beginErr commitErr => exact h.runBatch available faults beginErr commitErr
  | close => exact ⟨_, _, h.ids, h.sent, h.complete, h.order, h.bare, h.applied, h.log⟩

theorem protocol_states (db : σ) (steps : List (Op σ η)) :
    ∃ blocks finished, Protocol db (steps.foldl step (start db)) blocks finished := by
  induction steps using List.reverseRecOn with
  | nil => exact ⟨_, _, protocol_start db⟩
  | append_singleton steps op ih =>
      obtain ⟨blocks, finished, h⟩ := ih
      rw [List.foldl_append]
      exact h.step op

/-- A queued job does the work it was sent with. -/
theorem sent_work (db : σ) (steps : List (Op σ η)) :
    ∀ job ∈ (steps.foldl step (start db)).sent,
      ∃ sender acked weight, .send sender acked weight job.work ∈ steps := by
  induction steps using List.reverseRecOn with
  | nil => simp [start]
  | append_singleton steps op ih =>
      intro job hjob
      rw [List.foldl_append] at hjob
      have hold : job ∈ (steps.foldl step (start db)).sent →
          ∃ sender acked weight, .send sender acked weight job.work ∈ steps ++ [op] := by
        intro h
        obtain ⟨sender, acked, weight, hmem⟩ := ih job h
        exact ⟨sender, acked, weight, List.mem_append_left _ hmem⟩
      cases op with
      | batch available faults beginErr commitErr => exact hold hjob
      | close => exact hold hjob
      | send sender acked weight work =>
          change job ∈ (StoreWriter.send _ sender acked weight work).sent at hjob
          unfold StoreWriter.send at hjob
          split at hjob
          · exact hold hjob
          · rcases List.mem_append.mp hjob with hjob | hjob
            · exact hold hjob
            · rw [List.mem_singleton.mp hjob]
              exact ⟨sender, acked, weight, List.mem_append_right _ List.mem_cons_self⟩

theorem Protocol.nodup {db : σ} {s : StoreWriter σ η}
    {blocks : List (Job σ η × Option WriteError × List η)} {finished : List (Job σ η)}
    (h : Protocol db s blocks finished) : (s.sent.map Job.id).Nodup := by
  rw [h.ids]
  exact List.nodup_range

theorem Protocol.blocks_nodup {db : σ} {s : StoreWriter σ η}
    {blocks : List (Job σ η × Option WriteError × List η)} {finished : List (Job σ η)}
    (h : Protocol db s blocks finished) : (blocks.map (·.1.id)).Nodup := by
  have hn := h.nodup
  rw [h.sent, List.map_append] at hn
  have hp := (h.complete.map Job.id).nodup_iff.mpr hn.of_append_left
  rwa [List.map_map] at hp

theorem Protocol.queued {db : σ} {s : StoreWriter σ η}
    {blocks : List (Job σ η × Option WriteError × List η)} {finished : List (Job σ η)}
    (h : Protocol db s blocks finished) {job : Job σ η} (hj : job ∈ s.queue) :
    job ∉ (Writer.applied blocks).map Prod.fst ∧ s.told job.id = [] := by
  have hn := h.nodup
  rw [h.sent, List.map_append] at hn
  have hout : job.id ∉ finished.map Job.id := by
    intro hmem
    exact (List.disjoint_of_nodup_append hn) hmem (List.mem_map_of_mem hj)
  constructor
  · intro hok
    exact hout (List.mem_map_of_mem (h.order.mem hok))
  · refine (h.log _).trans (filter_flatMap_of_not_mem blocks ?_)
    intro hmem
    exact hout ((h.complete.map Job.id).mem_iff.mp (by rwa [List.map_map]))

/-- What has become of a job: it is in the database and its sender knows, or its sender was told of a
failure, or it is queued. -/
inductive Fate (s : StoreWriter σ η) (oks : List (Job σ η × List η)) (job : Job σ η) : Prop
  | durable (hooks : List η) (ok : (job, hooks) ∈ oks)
      (told : s.told job.id = hooks.map (.hook job.id) ++ [.reply job.id none])
  | refused (err : WriteError) (ok : job ∉ oks.map Prod.fst)
      (told : s.told job.id = [.reply job.id (some err)])
  | waiting (queued : job ∈ s.queue) (ok : job ∉ oks.map Prod.fst) (told : s.told job.id = [])

theorem Protocol.fate {db : σ} {s : StoreWriter σ η}
    {blocks : List (Job σ η × Option WriteError × List η)} {finished : List (Job σ η)}
    (h : Protocol db s blocks finished) {job : Job σ η} (hj : job ∈ s.sent) :
    Fate s (Writer.applied blocks) job := by
  have hn := h.blocks_nodup
  rw [h.sent] at hj
  rcases List.mem_append.mp hj with hj | hj
  · obtain ⟨⟨_, result, hooks⟩, hx, rfl⟩ := List.mem_map.mp (h.complete.mem_iff.mpr hj)
    have htold := (h.log _).trans (filter_flatMap_finish blocks hn hx)
    cases result with
    | none => exact .durable hooks (mem_applied.mpr hx) htold
    | some err =>
        obtain rfl : hooks = [] := h.bare _ hx (by simp)
        refine .refused err ?_ htold
        intro hok
        obtain ⟨x, hmem, hjob⟩ := List.mem_map.mp hok
        have hsame := List.inj_on_of_nodup_map hn hx (mem_applied.mp hmem)
          (congrArg Job.id hjob.symm)
        simp at hsame
  · exact .waiting hj (h.queued hj).1 (h.queued hj).2

/-- In a batch that commits, and under whose jobs SQLite keeps the transaction, each job is answered
by what it does itself on what the jobs before it have left. -/
theorem Protocol.own {db : σ} {s : StoreWriter σ η}
    {blocks : List (Job σ η × Option WriteError × List η)} {finished : List (Job σ η)}
    (h : Protocol db s blocks finished) (available : ℕ) (faults : ℕ → JobFaults)
    (hk : ∀ job ∈ (nextBatch available s.queue).1, job.Keeps) {pre post : List (Job σ η)}
    {job : Job σ η} (hs : (nextBatch available s.queue).1 = pre ++ job :: post) :
    (s.runBatch available faults none none).told job.id =
      ownAnswer job (faults job.id)
        (surviving (pre.map fun job => (job, faults job.id)) s.db) := by
  let batch := (nextBatch available s.queue).1.map fun job => (job, faults job.id)
  have hjobs : batch.map Prod.fst = (nextBatch available s.queue).1 := by
    rw [List.map_map]
    exact List.map_id _
  have hkeeps : ∀ x ∈ batch, x.1.Keeps := by
    intro x hx
    obtain ⟨job', hjob', rfl⟩ := List.mem_map.mp hx
    exact hk job' hjob'
  have hsplit : batch = (pre.map fun job => (job, faults job.id)) ++
      (job, faults job.id) :: post.map fun job => (job, faults job.id) := by
    change (nextBatch available s.queue).1.map _ = _
    rw [hs, List.map_append, List.map_cons]
  obtain ⟨x, hx, rfl, hfin⟩ := ownAnswer_block batch hkeeps s.db hsplit
  -- no other job of the batch has the number of this one
  have hqueue := nextBatch_append available s.queue
  have hnodup : ((failed (runJobs batch (some s.db)).told ++ (runJobs batch (some s.db)).ran).map
      (·.1.id)).Nodup := by
    have hn := h.nodup
    rw [h.sent, ← hqueue, List.map_append, List.map_append, ← hjobs] at hn
    have hp := (runJobs_spec batch s.db).complete.map Job.id
    rw [← map_failed, ← List.map_append, List.map_map] at hp
    exact hp.nodup_iff.mpr hn.of_append_right.of_append_left
  have hbefore : s.told x.1.id = [] := by
    refine (h.queued ?_).2
    rw [← hqueue, hs]
    simp
  have hevents : (s.runBatch available faults none none).told x.1.id = s.told x.1.id ++
      ((failed (runJobs batch (some s.db)).told ++ (runJobs batch (some s.db)).ran).flatMap
        finish).filter (·.about x.1.id) := by
    change List.filter _ (s.log ++ (commitBatch s.db batch none none).1) = _
    rw [List.filter_append, commitBatch_keeps batch hkeeps s.db]
    rfl
  rw [hevents, hbefore, List.nil_append, filter_flatMap_finish _ hnodup hx, hfin]

theorem runBatch_db (s : StoreWriter σ η) (available : ℕ) (faults : ℕ → JobFaults)
    (hk : ∀ job ∈ (nextBatch available s.queue).1, job.Keeps) :
    (s.runBatch available faults none none).db =
      surviving ((nextBatch available s.queue).1.map fun job => (job, faults job.id)) s.db := by
  change (commitBatch s.db _ none none).2 = _
  rw [commitBatch_keeps]
  intro x hx
  obtain ⟨job, hjob, rfl⟩ := List.mem_map.mp hx
  exact hk job hjob

/-- **The database holds exactly the jobs that were answered with success.**  In every run of the
writer the jobs whose work is in the database, in the order they were sent, are those whose senders
were told of a success, after the hooks of the job had run and once each; a sender that was told of a
failure was told once, no hook of its job has run, and its job is not in the database; any other job
is queued.  In a batch that commits each job is answered by what it does itself on what the jobs
before it have left, and the database is what they leave. -/
theorem storeWriter_protocol (db : σ) (steps : List (Op σ η)) :
    let s := steps.foldl step (start db)
    (∃ oks, Applied db oks s.db ∧ (oks.map Prod.fst).Sublist s.sent ∧ (oks.map Prod.fst).Nodup ∧
      ∀ job ∈ s.sent, Fate s oks job) ∧
    ∀ available faults, (∀ job ∈ (nextBatch available s.queue).1, job.Keeps) →
      (s.step (.batch available faults none none)).db =
        surviving ((nextBatch available s.queue).1.map fun job => (job, faults job.id)) s.db ∧
      ∀ pre job post, (nextBatch available s.queue).1 = pre ++ job :: post →
        (s.step (.batch available faults none none)).told job.id =
          ownAnswer job (faults job.id)
            (surviving (pre.map fun job => (job, faults job.id)) s.db) := by
  intro s
  obtain ⟨blocks, finished, h⟩ := protocol_states db steps
  refine ⟨⟨Writer.applied blocks, h.applied, ?_, ?_, fun job hj => h.fate hj⟩, ?_⟩
  · refine h.order.trans ?_
    rw [h.sent]
    exact List.sublist_append_left _ _
  · have hn := (List.Nodup.of_map _ h.nodup : s.sent.Nodup)
    rw [h.sent] at hn
    exact h.order.nodup hn.of_append_left
  · intro available faults hk
    exact ⟨runBatch_db s available faults hk, fun pre job post hs => h.own available faults hk hs⟩

/-- Three jobs of two senders; the second one fails after it has written. -/
def neighbours : List (Op ℕ ℕ) :=
  [.send 0 true 1 fun n => ⟨.ok, some (n + 1), [n]⟩,
   .send 1 true 1 fun n => ⟨.failed (.backend "refused"), some (n + 5), [n]⟩,
   .send 0 true 1 fun n => ⟨.ok, some (n + 1), [n]⟩]

/-- The job that fails in the middle of a batch takes nothing of its neighbours with it. -/
theorem storeWriter_protocol_neighbours :
    let s := (neighbours.foldl step (start 0)).step
      (.batch 2 (fun _ => ⟨false, none, none⟩) none none)
    s.db = 2 ∧ s.told 0 = [.hook 0 0, .reply 0 none] ∧
      s.told 1 = [.reply 1 (some (.backend "refused"))] ∧
      s.told 2 = [.hook 2 1, .reply 2 none] := by
  intro s
  have h := (storeWriter_protocol 0 neighbours).2 2 (fun _ => ⟨false, none, none⟩) (by
    intro job hjob view
    rcases List.mem_cons.mp hjob with rfl | hjob
    · exact Option.some_ne_none _
    rcases List.mem_cons.mp hjob with rfl | hjob
    · exact Option.some_ne_none _
    · rw [List.mem_singleton.mp hjob]
      exact Option.some_ne_none _)
  exact ⟨h.1, h.2 [] _ _ rfl, h.2 [_] _ _ rfl, h.2 [_, _] _ _ rfl⟩

end StoreWriter

end Hekma
