/-
**The transactions on the memory backing** (`store/sqlite.rs`).

The row of an instance has its state, and a second table has the memory backing that is attached to
it.  Attaching, detaching, the transition that starts an instance and the guarded write of a state
each read what they depend on and write in one transaction, under the one write lock of the
database.  Any statement may fail, and the transaction may fail to open or to commit; whatever fails
rolls it back.

Main definitions:

* `InstanceRow`, `BackingRow`, `Db` — the two tables;
* `attachInTxn`, `detachInTxn`, `transitionSnapshotInTxn`, `setStateIfPriorInTxn` — the bodies of
  the transactions;
* `bracket`, `writerJob` — a transaction or a savepoint, and the job of the store writer.

Main results:

* `writerJob_atomic`, `writerJob_bracket_atomic` — a job applies all of its work or nothing;
* `attachInTxn_ok`, `detachInTxn_ok`, `commitTransition_ok` — what held when a transaction
  succeeded, and what it wrote.
-/

import Hekma.Domain.Lifecycle

set_option relaxedAutoImplicit false
set_option autoImplicit false

namespace Hekma

/-- The wire form of a state. -/
def LifecycleState.asStr : LifecycleState → String
  | .registered => "registered"
  | .starting => "starting"
  | .running => "running"
  | .paused => "paused"
  | .stopping => "stopping"
  | .stopped => "stopped"
  | .failed => "failed"

def LifecycleState.fromWire (value : String) : Option LifecycleState :=
  [registered, starting, running, paused, stopping, stopped, failed].find? (·.asStr = value)

theorem LifecycleState.asStr_injective : Function.Injective LifecycleState.asStr := by
  intro s t h
  cases s <;> cases t <;> first | rfl | (revert h; decide)

namespace Backing

/-! ### The tables -/

inductive MemoryBackingKind where
  | filesystem
  | native
  deriving DecidableEq, Repr

def MemoryBackingKind.asStr : MemoryBackingKind → String
  | filesystem => "filesystem"
  | native => "native"

def MemoryBackingKind.fromWire (value : String) : Option MemoryBackingKind :=
  if value = "filesystem" then some .filesystem
  else if value = "native" then some .native
  else none

/-- The memory backing of an instance. -/
structure MemoryBacking where
  name : InstanceName
  kind : MemoryBackingKind
  attachedAt : String
  deriving DecidableEq, Repr

/-- A row of the instances. -/
structure InstanceRow where
  id : ℕ
  state : String
  updatedAt : String
  deriving DecidableEq, Repr

/-- A row of the backings. -/
structure BackingRow where
  kind : String
  attachedAt : String
  deriving DecidableEq, Repr

/-- A transition, as the event row and the outbox row record it. -/
structure TransitionEvent where
  name : InstanceName
  priorState : LifecycleState
  newState : LifecycleState
  at_ : String
  deriving DecidableEq, Repr

/-- The instances by their names, the backings by the ids of their instances, and the transitions
that were recorded.  No id is that of two instances. -/
structure Db where
  instances : InstanceName → Option InstanceRow
  backings : ℕ → Option BackingRow
  transitions : List TransitionEvent
  outbox : List TransitionEvent
  idUnique : ∀ n m r r', instances n = some r → instances m = some r' → r.id = r'.id → n = m

/-- The state of an instance, and the time it was written. -/
def Db.setState (db : Db) (name : InstanceName) (state now : String) : Db where
  instances n :=
    if n = name then (db.instances n).map fun r => { r with state := state, updatedAt := now }
    else db.instances n
  backings := db.backings
  transitions := db.transitions
  outbox := db.outbox
  idUnique n m r r' hn hm hid := by
    have hrow {n : InstanceName} {r : InstanceRow}
        (h : (if n = name then (db.instances n).map
          fun r => { r with state := state, updatedAt := now } else db.instances n) = some r) :
        ∃ row, db.instances n = some row ∧ row.id = r.id := by
      split_ifs at h
      · obtain ⟨row, hrow, rfl⟩ := Option.map_eq_some_iff.1 h
        exact ⟨row, hrow, rfl⟩
      · exact ⟨r, h, rfl⟩
    obtain ⟨row, hrow₁, hid₁⟩ := hrow hn
    obtain ⟨row', hrow₂, hid₂⟩ := hrow hm
    exact db.idUnique n m row row' hrow₁ hrow₂ (hid₁.trans (hid.trans hid₂.symm))

/-- The backing of an instance written or cleared. -/
def Db.setBacking (db : Db) (id : ℕ) (row : Option BackingRow) : Db where
  instances := db.instances
  backings i := if i = id then row else db.backings i
  transitions := db.transitions
  outbox := db.outbox
  idUnique := db.idUnique

/-- The backing that is recorded for an instance. -/
def Db.recorded (db : Db) (name : InstanceName) : Option BackingRow :=
  (db.instances name).bind fun row => db.backings row.id

/-! ### The bodies of the transactions -/

inductive StoreError where
  | backend (detail : String)
  | notFound (name : InstanceName)
  | corruptRow (name : InstanceName) (detail : String)
  | memoryBackingHotSwap (name : InstanceName) (state : String)
  | memoryBackingKindConflict (name : InstanceName) (attached requested : String)
  | stateConflict (name : InstanceName) (expected found : String)
  | memoryBackingChangedUnderStart (name : InstanceName) (precheck snapshot : String)
  deriving DecidableEq, Repr

inductive MemoryBackingTxn where
  | attached
  | idempotent
  deriving DecidableEq, Repr

variable {α : Type}

/-- What runs inside a transaction: a result, and the tables as they are left, also by a failure. -/
abbrev Body (α : Type) : Type := ExceptT StoreError (StateM Db) α

/-- The faults that the database reports: one for each statement, by its number. -/
abbrev Faults : Type := ℕ → Option String

/-- A statement that reads. -/
def query (fault : Option String) (read : Db → Except StoreError α) : Body α := fun db =>
  match fault with
  | some detail => (.error (.backend detail), db)
  | none => (read db, db)

/-- A statement that writes. -/
def execute (fault : Option String) (write : Db → Db) : Body Unit := fun db =>
  match fault with
  | some detail => (.error (.backend detail), db)
  | none => (.ok (), write db)

/-- The statement that writes a state. -/
def updateState (fault : Option String) (name : InstanceName) (state : LifecycleState)
    (now : String) : Body Unit := fun db =>
  match fault, db.instances name with
  | some detail, _ => (.error (.backend detail), db)
  | none, none => (.error (.notFound name), db)
  | none, some _ => (.ok (), db.setState name state.asStr now)

def stateInTxn (fault : Option String) (name : InstanceName) : Body String :=
  query fault fun db =>
    match db.instances name with
    | some row => .ok row.state
    | none => .error (.notFound name)

def rowToMemoryBacking (name : InstanceName) (row : BackingRow) : Except StoreError MemoryBacking :=
  match MemoryBackingKind.fromWire row.kind with
  | some kind => .ok ⟨name, kind, row.attachedAt⟩
  | none => .error (.corruptRow name s!"unknown memory backing kind '{row.kind}'")

/-- The backing of an instance, read. -/
def Db.memoryBacking (db : Db) (name : InstanceName) : Except StoreError (Option MemoryBacking) :=
  match db.recorded name with
  | none => .ok none
  | some row =>
      match rowToMemoryBacking name row with
      | .ok backing => .ok (some backing)
      | .error e => .error e

def backingInTxn (fault : Option String) (name : InstanceName) : Body (Option MemoryBacking) :=
  query fault fun db => db.memoryBacking name

def describeBacking : Option MemoryBacking → String
  | none => "none"
  | some backing => s!"kind '{backing.kind.asStr}' attached at {backing.attachedAt}"

/-- The id of the row that the guard has just read.  The source panics where there is none. -/
def guardedId (fault : Option String) (name : InstanceName) : Body ℕ :=
  query fault fun db =>
    match db.instances name with
    | some row => .ok row.id
    | none => .error (.backend "guarded above: row exists")

/-- The guard of attaching and detaching. -/
def ensureTerminal (name : InstanceName) (state : String) (terminalStates : List LifecycleState) :
    Body Unit := fun db =>
  if terminalStates.any fun s => s.asStr = state then (.ok (), db)
  else (.error (.memoryBackingHotSwap name state), db)

/-- What attaching does about the kind that is attached already. -/
def attachKind (fault : Option String) (name : InstanceName) (kind : MemoryBackingKind)
    (now : String) (id : ℕ) : Option String → Body MemoryBackingTxn
  | some attached => fun db =>
      if attached ≠ kind.asStr then
        (.error (.memoryBackingKindConflict name attached kind.asStr), db)
      else (.ok .idempotent, db)
  | none => do
      execute fault fun db => db.setBacking id (some ⟨kind.asStr, now⟩)
      return .attached

def attachInTxn (f : Faults) (name : InstanceName) (kind : MemoryBackingKind)
    (terminalStates : List LifecycleState) (now : String) : Body MemoryBackingTxn := do
  let state ← stateInTxn (f 0) name
  ensureTerminal name state terminalStates
  let id ← guardedId (f 1) name
  let existingKind ← query (f 2) fun db => .ok ((db.backings id).map BackingRow.kind)
  attachKind (f 3) name kind now id existingKind

def detachInTxn (f : Faults) (name : InstanceName) (terminalStates : List LifecycleState) :
    Body Unit := do
  let state ← stateInTxn (f 0) name
  ensureTerminal name state terminalStates
  let id ← guardedId (f 1) name
  execute (f 2) fun db => db.setBacking id none

/-- The guard of a conditional write. -/
def ensurePrior (name : InstanceName) (found : String) (expectedPrior : LifecycleState) :
    Body Unit := fun db =>
  if found ≠ expectedPrior.asStr then
    (.error (.stateConflict name expectedPrior.asStr found), db)
  else (.ok (), db)

/-- The guard of a start on the backing it has read before. -/
def ensureBacking (name : InstanceName) (snapshot expectedBacking : Option MemoryBacking) :
    Body Unit := fun db =>
  if snapshot ≠ expectedBacking then
    (.error (.memoryBackingChangedUnderStart name (describeBacking expectedBacking)
      (describeBacking snapshot)), db)
  else (.ok (), db)

/-- The transition of a start: the state and the backing are those the start has read before. -/
def transitionSnapshotInTxn (f : Faults) (name : InstanceName)
    (expectedPrior newState : LifecycleState) (expectedBacking : Option MemoryBacking)
    (now : String) : Body (Option MemoryBacking) := do
  let found ← stateInTxn (f 0) name
  ensurePrior name found expectedPrior
  let snapshot ← backingInTxn (f 1) name
  ensureBacking name snapshot expectedBacking
  updateState (f 2) name newState now
  return snapshot

def setStateIfPriorInTxn (f : Faults) (name : InstanceName)
    (expectedPrior newState : LifecycleState) (now : String) : Body Unit := do
  let found ← stateInTxn (f 0) name
  ensurePrior name found expectedPrior
  updateState (f 1) name newState now

/-! ### Transactions and jobs -/

/-- The faults at the two ends of a transaction or a savepoint. -/
structure Bounds where
  opened : Option String
  closed : Option String

/-- A body between `BEGIN IMMEDIATE` and `COMMIT`, or between `SAVEPOINT` and `RELEASE`.  A failure
of the body or of the end rolls back to the beginning. -/
def bracket (bounds : Bounds) (body : Body α) : Body α := fun db =>
  match bounds.opened with
  | some detail => (.error (.backend detail), db)
  | none =>
      match body db with
      | (.error e, _) => (.error e, db)
      | (.ok a, after) =>
          match bounds.closed with
          | some detail => (.error (.backend detail), db)
          | none => (.ok a, after)

/-- The faults of a job: of the batch it runs in, of its savepoint and of the one it opens itself,
and of the statements of its body and of those that record a transition. -/
structure JobFaults where
  batch : Bounds
  savepoint : Bounds
  guarded : Bounds
  body : Faults
  record : Faults

/-- A job of the store writer: a savepoint in the transaction of its batch. -/
def writerJob (f : JobFaults) (work : Body α) : Body α := bracket f.batch (bracket f.savepoint work)

/-- The write of the state in the job of a transition. -/
inductive StateWrite where
  | plain
  | ifPrior (prior : LifecycleState)
  | snapshotBacking (expectedPrior : LifecycleState) (expectedBacking : Option MemoryBacking)

/-- The write of the state; the two guarded ones are transactions of their own. -/
def stateWrite (f : JobFaults) (name : InstanceName) (newState : LifecycleState) (now : String) :
    StateWrite → Body (Option MemoryBacking)
  | .plain => do
      updateState (f.body 0) name newState now
      return none
  | .ifPrior prior => do
      bracket f.guarded (setStateIfPriorInTxn f.body name prior newState now)
      return none
  | .snapshotBacking expectedPrior expectedBacking =>
      bracket f.guarded
        (transitionSnapshotInTxn f.body name expectedPrior newState expectedBacking now)

/-- The state, the event row and the outbox row of a transition.  What it projects onto Runs is in
a savepoint of its own and never fails it. -/
def transitionWork (f : JobFaults) (write : StateWrite) (event : TransitionEvent) :
    Body (Option MemoryBacking) := do
  let snapshot ← stateWrite f event.name event.newState event.at_ write
  execute (f.record 0) fun db => { db with transitions := db.transitions ++ [event] }
  execute (f.record 1) fun db => { db with outbox := db.outbox ++ [event] }
  return snapshot

/-- A transition is one job. -/
def commitTransition (f : JobFaults) (write : StateWrite) (event : TransitionEvent) :
    Body (Option MemoryBacking) :=
  writerJob f (transitionWork f write event)

def attachMemoryBackingTxn (f : JobFaults) (name : InstanceName) (kind : MemoryBackingKind)
    (terminalStates : List LifecycleState) (now : String) : Body MemoryBackingTxn :=
  writerJob f (bracket f.guarded (attachInTxn f.body name kind terminalStates now))

def detachMemoryBackingTxn (f : JobFaults) (name : InstanceName)
    (terminalStates : List LifecycleState) : Body Unit :=
  writerJob f (bracket f.guarded (detachInTxn f.body name terminalStates))

/-! ### All or nothing -/

section Atomic

variable {body : Body α} {db after : Db} {a : α} {e : StoreError}

/-- **A transaction applies all of its body or nothing.** -/
theorem bracket_atomic (bounds : Bounds) (body : Body α) (db : Db) :
    (∃ e, bracket bounds body db = (.error e, db)) ∨
      ∃ a after, body db = (.ok a, after) ∧ bracket bounds body db = (.ok a, after) := by
  rw [bracket]
  cases bounds.opened with
  | some detail => exact .inl ⟨_, rfl⟩
  | none =>
      rcases h : body db with ⟨_ | a, after⟩
      · exact .inl ⟨_, rfl⟩
      · cases bounds.closed with
        | some detail => exact .inl ⟨_, rfl⟩
        | none => exact .inr ⟨a, after, rfl, rfl⟩

theorem bracket_ok {bounds : Bounds} (h : bracket bounds body db = (.ok a, after)) :
    body db = (.ok a, after) := by
  rcases bracket_atomic bounds body db with ⟨e, he⟩ | ⟨b, mid, hbody, hok⟩
  · rw [he] at h
    cases h
  · rw [hok] at h
    rw [hbody, h]

/-- A transaction applies all of its body, or it fails and leaves the tables as they are. -/
def Atomic (txn body : Body α) : Prop :=
  ∀ db, (∃ e, txn db = (.error e, db)) ∨
    ∃ a after, body db = (.ok a, after) ∧ txn db = (.ok a, after)

/-- **A job applies all of its work or nothing.** -/
theorem writerJob_atomic (f : JobFaults) (work : Body α) : Atomic (writerJob f work) work := by
  intro db
  rcases bracket_atomic f.batch (bracket f.savepoint work) db with h | ⟨a, after, hwork, hjob⟩
  · exact .inl h
  · exact .inr ⟨a, after, bracket_ok hwork, hjob⟩

/-- A job around a transaction of its own applies all of the body or nothing. -/
theorem writerJob_bracket_atomic (f : JobFaults) (bounds : Bounds) (body : Body α) :
    Atomic (writerJob f (bracket bounds body)) body := by
  intro db
  rcases writerJob_atomic f (bracket bounds body) db with h | ⟨a, after, hwork, hjob⟩
  · exact .inl h
  · exact .inr ⟨a, after, bracket_ok hwork, hjob⟩

/-- What fails has changed nothing. -/
theorem Atomic.error {txn : Body α} (h : Atomic txn body) (he : txn db = (.error e, after)) :
    after = db := by
  rcases h db with ⟨e', h⟩ | ⟨a, mid, -, h⟩
  · rw [h] at he
    cases he
    rfl
  · rw [h] at he
    cases he

theorem Atomic.ok {txn : Body α} (h : Atomic txn body) (ha : txn db = (.ok a, after)) :
    body db = (.ok a, after) := by
  rcases h db with ⟨e', h⟩ | ⟨b, mid, hbody, h⟩
  · rw [h] at ha
    cases ha
  · rw [h] at ha
    rw [hbody, ha]

end Atomic

/-! ### What the bodies read and write -/

section Bodies

variable {β : Type} {f : Faults} {name : InstanceName} {db after : Db}

theorem ok_of_bind {x : Body α} {g : α → Body β} {b : β} (h : (x >>= g) db = (.ok b, after)) :
    ∃ a mid, x db = (.ok a, mid) ∧ g a mid = (.ok b, after) := by
  have hbind : (x >>= g) db = match x db with
      | (.ok a, mid) => g a mid
      | (.error e, mid) => (.error e, mid) := by
    show ExceptT.bindCont g (x db).1 (x db).2 = _
    rcases x db with ⟨_ | a, mid⟩ <;> rfl
  rw [hbind] at h
  split at h
  · next a mid hx => exact ⟨a, mid, hx, h⟩
  · cases h

theorem query_ok {fault : Option String} {read : Db → Except StoreError α} {a : α}
    (h : query fault read db = (.ok a, after)) : read db = .ok a ∧ after = db := by
  simp only [query] at h
  split at h
  · cases h
  · rw [Prod.mk.injEq] at h
    exact ⟨h.1, h.2.symm⟩

theorem execute_ok {fault : Option String} {write : Db → Db} {a : Unit}
    (h : execute fault write db = (.ok a, after)) : after = write db := by
  simp only [execute] at h
  split at h
  · cases h
  · cases h
    rfl

theorem updateState_ok {fault : Option String} {state : LifecycleState} {now : String} {a : Unit}
    (h : updateState fault name state now db = (.ok a, after)) :
    after = db.setState name state.asStr now := by
  simp only [updateState] at h
  split at h <;> cases h
  rfl

theorem stateInTxn_ok {fault : Option String} {state : String}
    (h : stateInTxn fault name db = (.ok state, after)) :
    after = db ∧ ∃ row, db.instances name = some row ∧ row.state = state := by
  obtain ⟨hread, hafter⟩ := query_ok h
  split at hread
  · next row hrow =>
      cases hread
      exact ⟨hafter, row, hrow, rfl⟩
  · cases hread

theorem guardedId_ok {fault : Option String} {id : ℕ}
    (h : guardedId fault name db = (.ok id, after)) :
    after = db ∧ ∃ row, db.instances name = some row ∧ row.id = id := by
  obtain ⟨hread, hafter⟩ := query_ok h
  split at hread
  · next row hrow =>
      cases hread
      exact ⟨hafter, row, hrow, rfl⟩
  · cases hread

theorem ensureTerminal_ok {state : String} {terminalStates : List LifecycleState} {a : Unit}
    (h : ensureTerminal name state terminalStates db = (.ok a, after)) :
    after = db ∧ ∃ s ∈ terminalStates, s.asStr = state := by
  simp only [ensureTerminal] at h
  split_ifs at h with hany
  · cases h
    obtain ⟨s, hs, heq⟩ := List.any_eq_true.1 hany
    exact ⟨rfl, s, hs, of_decide_eq_true heq⟩
  · cases h

theorem ensurePrior_ok {found : String} {expectedPrior : LifecycleState} {a : Unit}
    (h : ensurePrior name found expectedPrior db = (.ok a, after)) :
    after = db ∧ found = expectedPrior.asStr := by
  simp only [ensurePrior] at h
  split_ifs at h with hfound
  · cases h
  · cases h
    exact ⟨rfl, not_not.1 hfound⟩

theorem ensureBacking_ok {snapshot expectedBacking : Option MemoryBacking} {a : Unit}
    (h : ensureBacking name snapshot expectedBacking db = (.ok a, after)) :
    after = db ∧ snapshot = expectedBacking := by
  simp only [ensureBacking] at h
  split_ifs at h with hsame
  · cases h
  · cases h
    exact ⟨rfl, not_not.1 hsame⟩

/-- The state of an instance is one of those given. -/
def Db.In (db : Db) (name : InstanceName) (states : List LifecycleState) : Prop :=
  ∃ row, db.instances name = some row ∧ ∃ s ∈ states, s.asStr = row.state

theorem attachInTxn_ok {kind : MemoryBackingKind} {terminalStates : List LifecycleState}
    {now : String} {result : MemoryBackingTxn}
    (h : attachInTxn f name kind terminalStates now db = (.ok result, after)) :
    db.In name terminalStates ∧ ∃ row, db.instances name = some row ∧
      (after = db ∨ after = db.setBacking row.id (some ⟨kind.asStr, now⟩)) := by
  obtain ⟨state, _, hstate, h₁⟩ := ok_of_bind h
  obtain ⟨rfl, row, hrow, rfl⟩ := stateInTxn_ok hstate
  obtain ⟨_, _, hterminal, h₂⟩ := ok_of_bind h₁
  obtain ⟨rfl, hin⟩ := ensureTerminal_ok hterminal
  obtain ⟨id, _, hid, h₃⟩ := ok_of_bind h₂
  obtain ⟨rfl, row', hrow', rfl⟩ := guardedId_ok hid
  obtain ⟨existing, _, hexisting, h₄⟩ := ok_of_bind h₃
  obtain ⟨-, rfl⟩ := query_ok hexisting
  refine ⟨⟨row, hrow, hin⟩, row', hrow', ?_⟩
  cases existing with
  | some attached =>
      simp only [attachKind] at h₄
      split_ifs at h₄
      · cases h₄
      · cases h₄
        exact .inl rfl
  | none =>
      obtain ⟨_, _, hwrite, h₅⟩ := ok_of_bind h₄
      cases h₅
      exact .inr (execute_ok hwrite)

theorem detachInTxn_ok {terminalStates : List LifecycleState} {a : Unit}
    (h : detachInTxn f name terminalStates db = (.ok a, after)) :
    db.In name terminalStates ∧ ∃ row, db.instances name = some row ∧
      after = db.setBacking row.id none := by
  obtain ⟨state, _, hstate, h₁⟩ := ok_of_bind h
  obtain ⟨rfl, row, hrow, rfl⟩ := stateInTxn_ok hstate
  obtain ⟨_, _, hterminal, h₂⟩ := ok_of_bind h₁
  obtain ⟨rfl, hin⟩ := ensureTerminal_ok hterminal
  obtain ⟨id, _, hid, h₃⟩ := ok_of_bind h₂
  obtain ⟨rfl, row', hrow', rfl⟩ := guardedId_ok hid
  exact ⟨⟨row, hrow, hin⟩, row', hrow', execute_ok h₃⟩

theorem transitionSnapshotInTxn_ok {expectedPrior newState : LifecycleState}
    {expectedBacking result : Option MemoryBacking} {now : String}
    (h : transitionSnapshotInTxn f name expectedPrior newState expectedBacking now db =
      (.ok result, after)) :
    db.In name [expectedPrior] ∧ db.memoryBacking name = .ok expectedBacking ∧
      result = expectedBacking ∧ after = db.setState name newState.asStr now := by
  obtain ⟨found, _, hread, h₁⟩ := ok_of_bind h
  obtain ⟨rfl, row, hrow, rfl⟩ := stateInTxn_ok hread
  obtain ⟨_, _, hprior, h₂⟩ := ok_of_bind h₁
  obtain ⟨rfl, hfound⟩ := ensurePrior_ok hprior
  obtain ⟨snapshot, _, hsnapshot, h₃⟩ := ok_of_bind h₂
  obtain ⟨hbacking, rfl⟩ := query_ok hsnapshot
  obtain ⟨_, _, hsame, h₄⟩ := ok_of_bind h₃
  obtain ⟨rfl, rfl⟩ := ensureBacking_ok hsame
  obtain ⟨_, _, hwrite, h₅⟩ := ok_of_bind h₄
  cases h₅
  exact ⟨⟨row, hrow, expectedPrior, List.mem_singleton_self _, hfound.symm⟩, hbacking, rfl,
    updateState_ok hwrite⟩

theorem setStateIfPriorInTxn_ok {expectedPrior newState : LifecycleState} {now : String} {a : Unit}
    (h : setStateIfPriorInTxn f name expectedPrior newState now db = (.ok a, after)) :
    db.In name [expectedPrior] ∧ after = db.setState name newState.asStr now := by
  obtain ⟨found, _, hread, h₁⟩ := ok_of_bind h
  obtain ⟨rfl, row, hrow, rfl⟩ := stateInTxn_ok hread
  obtain ⟨_, _, hprior, h₂⟩ := ok_of_bind h₁
  obtain ⟨rfl, hfound⟩ := ensurePrior_ok hprior
  exact ⟨⟨row, hrow, expectedPrior, List.mem_singleton_self _, hfound.symm⟩, updateState_ok h₂⟩

/-- The tables after the rows of a transition are added. -/
def Db.record (db : Db) (event : TransitionEvent) : Db :=
  { db with transitions := db.transitions ++ [event], outbox := db.outbox ++ [event] }

/-- A transition that is recorded has written its state and both of its rows. -/
theorem transitionWork_ok {f : JobFaults} {write : StateWrite} {event : TransitionEvent}
    {result : Option MemoryBacking}
    (h : transitionWork f write event db = (.ok result, after)) :
    ∃ mid, stateWrite f event.name event.newState event.at_ write db = (.ok result, mid) ∧
      after = mid.record event := by
  obtain ⟨snapshot, mid, hstate, h₁⟩ := ok_of_bind h
  obtain ⟨_, _, hevent, h₂⟩ := ok_of_bind h₁
  obtain ⟨_, _, houtbox, h₃⟩ := ok_of_bind h₂
  cases h₃
  refine ⟨mid, hstate, ?_⟩
  rw [execute_ok houtbox, execute_ok hevent]
  rfl

/-- What a transition writes, and what held of the row and the backing before it. -/
theorem commitTransition_ok {f : JobFaults} {write : StateWrite} {event : TransitionEvent}
    {result : Option MemoryBacking}
    (h : commitTransition f write event db = (.ok result, after)) :
    after = (db.setState event.name event.newState.asStr event.at_).record event ∧
      match write with
      | .plain => True
      | .ifPrior prior => db.In event.name [prior]
      | .snapshotBacking prior backing =>
          db.In event.name [prior] ∧ db.memoryBacking event.name = .ok backing := by
  obtain ⟨mid, hstate, rfl⟩ := transitionWork_ok ((writerJob_atomic f _).ok h)
  cases write with
  | plain =>
      obtain ⟨_, _, hwrite, hret⟩ := ok_of_bind hstate
      cases hret
      exact ⟨by rw [updateState_ok hwrite], trivial⟩
  | ifPrior prior =>
      obtain ⟨_, _, hwrite, hret⟩ := ok_of_bind hstate
      cases hret
      obtain ⟨hin, rfl⟩ := setStateIfPriorInTxn_ok (bracket_ok hwrite)
      exact ⟨rfl, hin⟩
  | snapshotBacking prior backing =>
      obtain ⟨hin, hbacking, -, rfl⟩ := transitionSnapshotInTxn_ok (bracket_ok hstate)
      exact ⟨rfl, hin, hbacking⟩

end Bodies

end Backing

end Hekma
