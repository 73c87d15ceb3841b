/-
**The memory backing of a live instance** (`domain/registry.rs`, `domain/supervisor/spawn.rs`).

Any number of clients work on one store.  Attaching and detaching look at the state first and again
in their transaction; a start looks at the state, reads the backing it launches with, and compares
both in the transaction that writes `starting`; the launch is settled by a later, unconditional
write.  Between any two of these the others may do anything.

Main definitions:

* `Flight` — an operation that has looked and not yet committed;
* `System.step` — one read or one transaction of one client;
* `Db.Matches` — the live rows have the backings they were launched with.

Main results:

* `Db.Matches.setState`, `Db.Matches.setBacking` — what the two kinds of writes keep;
* `Sound.step` — every step keeps the invariant;
* `backing_runs` — the backing never changes under a live instance.
-/

import Hekma.Lib.Guarded
import Hekma.Store.MemoryBacking

set_option relaxedAutoImplicit false
set_option autoImplicit false

namespace Hekma

namespace Backing

/-! ### The clients -/

/-- The states in which a backing may be attached and detached. -/
def terminalMemoryBackingStates : List LifecycleState := [.registered, .stopped, .failed]

/-- A start that the transition table has accepted. -/
structure StartGate where
  prior : LifecycleState
  starting : LifecycleState
  accepted : nextState prior .start = some starting

/-- A guarded write that makes no row live that is not, and that is not one of a row whose launch is
under way. -/
structure GuardedWrite where
  prior : LifecycleState
  new : LifecycleState
  notStarting : prior ≠ .starting
  keeps : new ∈ terminalMemoryBackingStates ∨ prior ∉ terminalMemoryBackingStates

/-- The only guarded write of the supervisor, of a process that is no longer alive. -/
def GuardedWrite.livenessExpiry : GuardedWrite := ⟨.running, .failed, by decide, by decide⟩

/-- How a launch ends. -/
inductive LaunchOutcome where
  | adapterReady
  | launchFailed
  deriving DecidableEq, Repr

def LaunchOutcome.state : LaunchOutcome → LifecycleState
  | adapterReady => .running
  | launchFailed => .failed

/-- An operation that has looked at the store and has not yet committed. -/
inductive Flight where
  | attaching (name : InstanceName) (kind : MemoryBackingKind)
  | detaching (name : InstanceName)
  | starting (name : InstanceName) (gate : StartGate)
  | launching (name : InstanceName) (gate : StartGate) (memoryBacking : Option MemoryBacking)

/-- A transaction that has committed, with the tables as it left them. -/
inductive Committed where
  | attached (name : InstanceName) (db : Db)
  | detached (name : InstanceName) (db : Db)
  | launched (name : InstanceName) (memoryBacking : Option MemoryBacking) (db : Db)

/-- The store and the clients.  What the instances were launched with is in no table. -/
structure System where
  db : Db
  launched : InstanceName → Option MemoryBacking
  flights : List Flight
  spawned : List InstanceName
  log : List Committed

/-- A store that is opened by its first client. -/
def System.opened (db : Db) (launched : InstanceName → Option MemoryBacking) : System :=
  ⟨db, launched, [], [], []⟩

/-! ### The steps -/

/-- The state of an instance, looked up. -/
def Db.lookup (db : Db) (name : InstanceName) : Option LifecycleState :=
  (db.instances name).bind fun row => LifecycleState.fromWire row.state

def ensureTerminalForMemoryBacking (state : Option LifecycleState) : Bool :=
  state.any (terminalMemoryBackingStates.contains ·)

/-- The gate of a start on the state it has looked up. -/
def startGate (state : Option LifecycleState) : Option StartGate :=
  state.bind fun prior =>
    match h : nextState prior .start with
    | some target => some ⟨prior, target, h⟩
    | none => none

namespace System

def enter (s : System) (flight : Option Flight) : System :=
  { s with flights := s.flights ++ flight.toList }

def leave (s : System) (i : ℕ) : System :=
  { s with flights := s.flights.eraseIdx i }

def attachMemory (s : System) (f : JobFaults) (name : InstanceName) (kind : MemoryBackingKind)
    (now : String) : System :=
  match attachMemoryBackingTxn f name kind terminalMemoryBackingStates now s.db with
  | (.ok _, after) => { s with db := after, log := s.log ++ [.attached name after] }
  | (.error _, after) => { s with db := after }

def detachMemory (s : System) (f : JobFaults) (name : InstanceName) : System :=
  match detachMemoryBackingTxn f name terminalMemoryBackingStates s.db with
  | (.ok _, after) => { s with db := after, log := s.log ++ [.detached name after] }
  | (.error _, after) => { s with db := after }

/-- The transition to `starting`, and the launch with the backing that was read before it. -/
def launch (s : System) (f : JobFaults) (name : InstanceName) (gate : StartGate)
    (memoryBacking : Option MemoryBacking) (now : String) : System :=
  match commitTransition f (.snapshotBacking gate.prior memoryBacking)
      ⟨name, gate.prior, gate.starting, now⟩ s.db with
  | (.ok _, after) =>
      { s with
        db := after
        launched := Function.update s.launched name memoryBacking
        spawned := s.spawned ++ [name]
        log := s.log ++ [.launched name memoryBacking after] }
  | (.error _, after) => { s with db := after }

/-- A transition that writes a state only. -/
def transition (s : System) (f : JobFaults) (write : StateWrite) (event : TransitionEvent) :
    System :=
  { s with db := (commitTransition f write event s.db).2 }

/-- A client goes on with its operation. -/
def advance (s : System) (i : ℕ) (f : JobFaults) (now : String) : System :=
  match s.flights[i]? with
  | none => s
  | some (.attaching name kind) => (s.leave i).attachMemory f name kind now
  | some (.detaching name) => (s.leave i).detachMemory f name
  | some (.starting name gate) =>
      match backingInTxn (f.body 0) name s.db with
      | (.ok memoryBacking, _) => (s.leave i).enter (some (.launching name gate memoryBacking))
      | (.error _, _) => s.leave i
  | some (.launching name gate memoryBacking) => (s.leave i).launch f name gate memoryBacking now

/-- The end of a launch, written without a condition. -/
def settle (s : System) (i : ℕ) (outcome : LaunchOutcome) (f : JobFaults) (now : String) : System :=
  match s.spawned[i]? with
  | none => s
  | some name =>
      { s with spawned := s.spawned.eraseIdx i }.transition f .plain
        ⟨name, .starting, outcome.state, now⟩

end System

/-- One read or one transaction of one client, and what fails in it. -/
inductive Act where
  | attach (name : InstanceName) (kind : MemoryBackingKind)
  | detach (name : InstanceName)
  | start (name : InstanceName)
  | advance (i : ℕ) (f : JobFaults) (now : String)
  | guarded (name : InstanceName) (write : GuardedWrite) (f : JobFaults) (now : String)
  | settle (i : ℕ) (outcome : LaunchOutcome) (f : JobFaults) (now : String)

/-- A lookup that fails ends its operation as a refusal does, and is not a step. -/
def System.step (s : System) : Act → System
  | .attach name kind =>
      s.enter (if ensureTerminalForMemoryBacking (s.db.lookup name) then
        some (.attaching name kind) else none)
  | .detach name =>
      s.enter (if ensureTerminalForMemoryBacking (s.db.lookup name) then
        some (.detaching name) else none)
  | .start name => s.enter ((startGate (s.db.lookup name)).map (.starting name))
  | .advance i f now => s.advance i f now
  | .guarded name write f now =>
      s.transition f (.ifPrior write.prior) ⟨name, write.prior, write.new, now⟩
  | .settle i outcome f now => s.settle i outcome f now

/-! ### What the writes keep -/

section Writes

variable {db after : Db} {name n : InstanceName} {states : List LifecycleState}
  {launched : InstanceName → Option MemoryBacking} {memoryBacking : Option MemoryBacking}

/-- The live rows have the backings they were launched with. -/
def Db.Matches (db : Db) (launched : InstanceName → Option MemoryBacking) : Prop :=
  ∀ name row, db.instances name = some row → ¬ db.In name terminalMemoryBackingStates →
    db.memoryBacking name = .ok (launched name)

theorem in_singleton {s : LifecycleState} (h : db.In name [s]) :
    db.In name states ↔ s ∈ states := by
  obtain ⟨row, hrow, s', hs', hwire⟩ := h
  obtain rfl := List.mem_singleton.1 hs'
  constructor
  · rintro ⟨row', hrow', t, ht, hwire'⟩
    have hsame : row' = row := Option.some.inj (hrow'.symm.trans hrow)
    rw [hsame, ← hwire] at hwire'
    exact LifecycleState.asStr_injective hwire' ▸ ht
  · intro hs
    exact ⟨row, hrow, s', hs, hwire⟩

/-- A state is written to one row, and to no backing. -/
theorem recorded_setState (state now : String) :
    (db.setState name state now).recorded n = db.recorded n := by
  simp only [Db.recorded, Db.setState]
  split_ifs
  · cases db.instances n <;> rfl
  · rfl

theorem memoryBacking_setState (state now : String) :
    (db.setState name state now).memoryBacking n = db.memoryBacking n := by
  rw [Db.memoryBacking, Db.memoryBacking, recorded_setState]

theorem in_setState_ne {state now : String} (hne : n ≠ name) :
    (db.setState name state now).In n states ↔ db.In n states := by
  simp only [Db.In, Db.setState, if_neg hne]

theorem in_setState_self {state : LifecycleState} {now : String} {row : InstanceRow}
    (hrow : db.instances name = some row) :
    (db.setState name state.asStr now).In name [state] := by
  refine ⟨{ row with state := state.asStr, updatedAt := now }, ?_, state, ?_, rfl⟩
  · simp only [Db.setState, if_true, hrow, Option.map_some]
  · exact List.mem_singleton_self _

/-- A row that is written keeps what it was launched with, or it is no longer live. -/
theorem Db.Matches.setState {state : LifecycleState} {now : String} (h : db.Matches launched)
    (hwrite : state ∈ terminalMemoryBackingStates ∨ db.memoryBacking name = .ok memoryBacking) :
    (db.setState name state.asStr now).Matches
      (Function.update launched name memoryBacking) := by
  intro n row hrow hlive
  rw [memoryBacking_setState]
  by_cases hn : n = name
  · subst hn
    rw [Function.update_self]
    obtain ⟨row', hrow', -⟩ : ∃ row', db.instances n = some row' ∧
        { row' with state := state.asStr, updatedAt := now } = row := by
      simpa only [Db.setState, if_true, Option.map_eq_some_iff] using hrow
    rcases hwrite with hterminal | hsame
    · exact absurd ((in_singleton (in_setState_self hrow')).2 hterminal) hlive
    · exact hsame
  · rw [Function.update_of_ne hn]
    simp only [Db.setState, if_neg hn] at hrow
    exact h n row hrow fun hin => hlive ((in_setState_ne hn).2 hin)

/-- The backing of a row that is not live is written, and of no other row. -/
theorem Db.Matches.setBacking {row : InstanceRow} {backing : Option BackingRow}
    (h : db.Matches launched) (hrow : db.instances name = some row)
    (hterminal : db.In name terminalMemoryBackingStates) :
    (db.setBacking row.id backing).Matches launched := by
  intro n row' hrow' hlive
  have hne : n ≠ name := by
    rintro rfl
    exact hlive hterminal
  have hid : row'.id ≠ row.id := fun hid => hne (db.idUnique n name row' row hrow' hrow hid)
  have hrecorded : (db.setBacking row.id backing).recorded n = db.recorded n := by
    change db.instances n = some row' at hrow'
    simp only [Db.recorded, Db.setBacking, hrow', Option.bind_some, if_neg hid]
  rw [Db.memoryBacking, hrecorded]
  exact h n row' hrow' hlive

end Writes

/-! ### What every step keeps -/

/-- What was attached or detached was not live, and what was launched was launched with the backing
that was recorded when its transition committed. -/
def Committed.Sound : Committed → Prop
  | .attached name db | .detached name db => db.In name terminalMemoryBackingStates
  | .launched name memoryBacking db => db.memoryBacking name = .ok memoryBacking

/-- The invariant: a launch that is under way has its row to itself. -/
structure Sound (s : System) : Prop where
  matches_ : s.db.Matches s.launched
  committed : ∀ c ∈ s.log, c.Sound
  nodup : s.spawned.Nodup
  starting : ∀ name ∈ s.spawned, s.db.In name [.starting]

theorem StartGate.prior_mem (gate : StartGate) : gate.prior ∈ terminalMemoryBackingStates := by
  obtain ⟨prior, target, haccepted⟩ := gate
  change prior ∈ terminalMemoryBackingStates
  cases prior <;> first | decide | cases haccepted

theorem StartGate.starting_eq (gate : StartGate) : gate.starting = .starting := by
  obtain ⟨prior, target, haccepted⟩ := gate
  cases prior <;> cases haccepted <;> rfl

namespace Sound

variable {s : System} {f : JobFaults} {name : InstanceName} {now : String}

/-- Looking changes nothing that the invariant is about. -/
theorem enter (h : Sound s) (flight : Option Flight) : Sound (s.enter flight) :=
  ⟨h.matches_, h.committed, h.nodup, h.starting⟩

theorem leave (h : Sound s) (i : ℕ) : Sound (s.leave i) :=
  ⟨h.matches_, h.committed, h.nodup, h.starting⟩

/-- A transaction that is logged. -/
theorem forall_append {log : List Committed} {added : Committed} (h : ∀ c ∈ log, c.Sound)
    (hadded : added.Sound) : ∀ c ∈ log ++ [added], c.Sound := by
  intro c hc
  rcases List.mem_append.1 hc with hold | hnew
  · exact h c hold
  · rw [List.mem_singleton.1 hnew]
    exact hadded

theorem attachMemory (h : Sound s) (kind : MemoryBackingKind) :
    Sound (s.attachMemory f name kind now) := by
  have hatomic : Atomic (attachMemoryBackingTxn f name kind terminalMemoryBackingStates now) _ :=
    writerJob_bracket_atomic f f.guarded _
  rw [System.attachMemory]
  rcases htxn : attachMemoryBackingTxn f name kind terminalMemoryBackingStates now s.db with
    ⟨_ | result, after⟩
  · obtain rfl := hatomic.error htxn
    exact ⟨h.matches_, h.committed, h.nodup, h.starting⟩
  · obtain ⟨hterminal, row, hrow, hafter⟩ := attachInTxn_ok (hatomic.ok htxn)
    have hlog : (Committed.attached name after).Sound := by
      rcases hafter with rfl | rfl <;> exact hterminal
    rcases hafter with rfl | rfl
    · exact ⟨h.matches_, forall_append h.committed hlog, h.nodup, h.starting⟩
    · exact ⟨h.matches_.setBacking hrow hterminal, forall_append h.committed hlog, h.nodup,
        h.starting⟩

theorem detachMemory (h : Sound s) : Sound (s.detachMemory f name) := by
  have hatomic : Atomic (detachMemoryBackingTxn f name terminalMemoryBackingStates) _ :=
    writerJob_bracket_atomic f f.guarded _
  rw [System.detachMemory]
  rcases htxn : detachMemoryBackingTxn f name terminalMemoryBackingStates s.db with
    ⟨_ | result, after⟩
  · obtain rfl := hatomic.error htxn
    exact ⟨h.matches_, h.committed, h.nodup, h.starting⟩
  · obtain ⟨hterminal, row, hrow, rfl⟩ := detachInTxn_ok (hatomic.ok htxn)
    have hlog : (Committed.detached name (s.db.setBacking row.id none)).Sound := hterminal
    exact ⟨h.matches_.setBacking hrow hterminal, forall_append h.committed hlog, h.nodup,
      h.starting⟩

/-- A write to a row that is not starting leaves the launches under way alone. -/
theorem starting_setState (h : Sound s) {state : String} (hname : name ∉ s.spawned) :
    ∀ n ∈ s.spawned, (s.db.setState name state now).In n [.starting] := by
  intro n hn
  have hne : n ≠ name := by
    rintro rfl
    exact hname hn
  exact (in_setState_ne hne).2 (h.starting n hn)

/-- A row in another state has no launch under way. -/
theorem not_spawned (h : Sound s) {prior : LifecycleState} (hin : s.db.In name [prior])
    (hprior : prior ≠ .starting) : name ∉ s.spawned := by
  intro hname
  have hmem := (in_singleton hin).1 (h.starting name hname)
  exact hprior (List.mem_singleton.1 hmem)

theorem launch (h : Sound s) (gate : StartGate) (memoryBacking : Option MemoryBacking) :
    Sound (s.launch f name gate memoryBacking now) := by
  rw [System.launch]
  rcases htxn : commitTransition f (.snapshotBacking gate.prior memoryBacking)
    ⟨name, gate.prior, gate.starting, now⟩ s.db with ⟨_ | result, after⟩
  · obtain rfl := (writerJob_atomic f _).error htxn
    exact ⟨h.matches_, h.committed, h.nodup, h.starting⟩
  · obtain ⟨rfl, hin, hbacking⟩ := commitTransition_ok htxn
    have hne : gate.prior ≠ .starting := by
      intro heq
      exact absurd (heq ▸ gate.prior_mem) (by decide)
    have hname : name ∉ s.spawned := h.not_spawned hin hne
    refine ⟨h.matches_.setState (.inr hbacking), forall_append h.committed ?_, ?_, ?_⟩
    · exact (memoryBacking_setState _ _).trans hbacking
    · exact List.nodup_append.2 ⟨h.nodup, List.nodup_singleton _, by
        intro a ha b hb
        rintro rfl
        exact hname (List.mem_singleton.1 hb ▸ ha)⟩
    · intro n hn
      rcases List.mem_append.1 hn with hold | hnew
      · exact h.starting_setState hname n hold
      · obtain rfl := List.mem_singleton.1 hnew
        obtain ⟨row, hrow, -⟩ := hin
        rw [gate.starting_eq]
        exact in_setState_self hrow

/-- A transition that only writes a state: it is refused, or the state is written. -/
theorem transition_cases (s : System) (f : JobFaults) (write : StateWrite)
    (event : TransitionEvent) :
    s.transition f write event = s ∨ ∃ result after,
      commitTransition f write event s.db = (.ok result, after) ∧
        s.transition f write event = { s with db := after } := by
  rw [System.transition]
  rcases htxn : commitTransition f write event s.db with ⟨_ | result, after⟩
  · obtain rfl := (writerJob_atomic f _).error htxn
    exact .inl rfl
  · exact .inr ⟨result, after, rfl, rfl⟩

theorem guarded (h : Sound s) (write : GuardedWrite) :
    Sound (s.transition f (.ifPrior write.prior) ⟨name, write.prior, write.new, now⟩) := by
  rcases transition_cases s f (.ifPrior write.prior) ⟨name, write.prior, write.new, now⟩ with
    hskip | ⟨result, after, hcommit, hwrite⟩
  · rw [hskip]
    exact h
  · obtain ⟨rfl, hin⟩ := commitTransition_ok hcommit
    rw [hwrite]
    refine ⟨?_, h.committed, h.nodup, h.starting_setState (h.not_spawned hin write.notStarting)⟩
    have hkeeps : write.new ∈ terminalMemoryBackingStates ∨
        s.db.memoryBacking name = .ok (s.launched name) := by
      refine write.keeps.imp_right fun hprior => ?_
      obtain ⟨row, hrow, hwire⟩ := hin
      exact h.matches_ name row hrow fun hterminal =>
        hprior ((in_singleton ⟨row, hrow, hwire⟩).1 hterminal)
    have hmatches : (s.db.setState name write.new.asStr now).Matches
        (Function.update s.launched name (s.launched name)) := h.matches_.setState hkeeps
    rwa [Function.update_eq_self] at hmatches

theorem settle (h : Sound s) (i : ℕ) (outcome : LaunchOutcome) :
    Sound (s.settle i outcome f now) := by
  rw [System.settle]
  split
  · exact h
  · next name hname =>
      have hmem : name ∈ s.spawned := List.mem_of_getElem? hname
      have hrest : Sound { s with spawned := s.spawned.eraseIdx i } :=
        ⟨h.matches_, h.committed, h.nodup.eraseIdx i, fun n hn =>
          h.starting n (List.mem_of_mem_eraseIdx hn)⟩
      rcases transition_cases { s with spawned := s.spawned.eraseIdx i } f .plain
        ⟨name, .starting, outcome.state, now⟩ with hskip | ⟨result, after, hcommit, hwrite⟩
      · rw [hskip]
        exact hrest
      · obtain ⟨rfl, -⟩ := commitTransition_ok hcommit
        rw [hwrite]
        have hin := h.starting name hmem
        have hgone : name ∉ s.spawned.eraseIdx i := by
          intro hn
          obtain ⟨j, hj, hagain⟩ := List.mem_eraseIdx_iff_getElem?.1 hn
          have hlt : j < s.spawned.length := (List.getElem?_eq_some_iff.1 hagain).1
          exact hj ((List.getElem?_inj hlt h.nodup).1 (hagain.trans hname.symm))
        have hbacking : s.db.memoryBacking name = .ok (s.launched name) := by
          obtain ⟨row, hrow, hwire⟩ := hin
          exact h.matches_ name row hrow fun hterminal =>
            absurd ((in_singleton ⟨row, hrow, hwire⟩).1 hterminal) (by decide)
        have hmatches : (s.db.setState name outcome.state.asStr now).Matches
            (Function.update s.launched name (s.launched name)) :=
          h.matches_.setState (.inr hbacking)
        rw [Function.update_eq_self] at hmatches
        exact ⟨hmatches, h.committed, hrest.nodup, hrest.starting_setState hgone⟩

/-- **Every step of every client keeps the invariant.** -/
theorem step (h : Sound s) (a : Act) : Sound (s.step a) := by
  cases a with
  | attach name kind => exact h.enter _
  | detach name => exact h.enter _
  | start name => exact h.enter _
  | advance i f now =>
      rw [System.step, System.advance]
      split
      · exact h
      · exact (h.leave i).attachMemory _
      · exact (h.leave i).detachMemory
      · split
        · exact (h.leave i).enter _
        · exact h.leave i
      · exact (h.leave i).launch _ _
  | guarded name write f now => exact h.guarded write
  | settle i outcome f now => exact h.settle i outcome

end Sound

/-! ### Runs -/

/-- **The memory backing never changes under a live instance.**  Each of the four transactions
applies all of its work or nothing; whatever the clients do in whatever order, what was attached or
detached was not live when that committed, every launch is with the backing that was recorded when
its transition committed, and no live row has another backing than it was launched with. -/
theorem backing_runs (db : Db) (launched : InstanceName → Option MemoryBacking)
    (h : db.Matches launched) (acts : List Act) :
    (∀ (f : JobFaults) name kind now,
        Atomic (attachMemoryBackingTxn f name kind terminalMemoryBackingStates now)
          (attachInTxn f.body name kind terminalMemoryBackingStates now)) ∧
      (∀ (f : JobFaults) name,
        Atomic (detachMemoryBackingTxn f name terminalMemoryBackingStates)
          (detachInTxn f.body name terminalMemoryBackingStates)) ∧
      (∀ f write event, Atomic (commitTransition f write event) (transitionWork f write event)) ∧
      ∀ s ∈ Guarded.states System.step (System.opened db launched) acts,
        (∀ c ∈ s.log, c.Sound) ∧ s.db.Matches s.launched := by
  refine ⟨?_, ?_, fun f write event => writerJob_atomic f _, ?_⟩
  · intro f name kind now
    exact writerJob_bracket_atomic f f.guarded _
  · intro f name
    exact writerJob_bracket_atomic f f.guarded _
  · intro s hs
    have hopened : Sound (System.opened db launched) :=
      ⟨h, List.forall_mem_nil _, List.nodup_nil, List.forall_mem_nil _⟩
    have hsound : Sound s :=
      Guarded.invariant (fun _ a hs _ => hs.step a) hopened (Guarded.meets_true acts) hs
    exact ⟨hsound.committed, hsound.matches_⟩

/-- A store with one instance that was never started. -/
def registeredDb : Db where
  instances n := if n = "alma" then some ⟨1, "registered", "t0"⟩ else none
  backings _ := none
  transitions := []
  outbox := []
  idUnique n m r r' hn hm _ := by
    split_ifs at hn hm with h₁ h₂
    exact h₁.trans h₂.symm

def JobFaults.none : JobFaults :=
  ⟨⟨.none, .none⟩, ⟨.none, .none⟩, ⟨.none, .none⟩, fun _ => .none, fun _ => .none⟩

/-- Two attach while a third starts; the second one comes to its transaction after the start. -/
def attachAroundStart : List Act :=
  [.attach "alma" .filesystem, .attach "alma" .native, .start "alma", .advance 0 .none "t1",
    .advance 1 .none "t2", .advance 1 .none "t3", .advance 0 .none "t4",
    .settle 0 .adapterReady .none "t5"]

theorem backing_runs_attachAroundStart :
    (∀ s ∈ Guarded.states System.step (System.opened registeredDb fun _ => none) attachAroundStart,
        (∀ c ∈ s.log, c.Sound) ∧ s.db.Matches s.launched) ∧
      let s := attachAroundStart.foldl System.step (System.opened registeredDb fun _ => none)
      s.log.length = 2 ∧ s.db.instances "alma" = some ⟨1, "running", "t5"⟩ ∧
        s.launched "alma" = some ⟨"alma", .filesystem, "t1"⟩ := by
  have hmatches : registeredDb.Matches fun _ => none := by
    intro n row hrow _
    simp only [Db.memoryBacking, Db.recorded, hrow]
    rfl
  refine ⟨(backing_runs registeredDb _ hmatches attachAroundStart).2.2.2, ?_⟩
  decide +kernel

end Backing

end Hekma
