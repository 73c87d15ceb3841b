/-
**The adoption of orphans by several engines** (`domain/supervisor/reaper.rs`).

An engine that opens reads the spawn record, leaves it to a living owner and to a living holder of
the lease, takes the lease by a compare-and-set under the value it has read, and only then looks for
the process: a live one is held again, for another one the row is reconciled to failed and the
record settled.  Between any two of these steps other engines take theirs, processes start and end,
and the record may be replaced.

Main definitions:

* `Engine.next` — the next step of an engine that is adopting;
* `System.step` — one step of one engine, or a change around them;
* `Sound` — which leases are spent, and who has cleared the gates.

Main results:

* `Sound.step` — every step keeps the invariant;
* `adoption_runs` — who wins a lease, who goes on, and what a loser leaves alone.
-/

import Hekma.Lib.Guarded
import Hekma.Lib.Slots
import Hekma.Store.SpawnRecords

set_option relaxedAutoImplicit false
set_option autoImplicit false

namespace Hekma

namespace Adoption

/-! ### The engines -/

/-- How far an engine has come with the record it has read. -/
inductive Phase where
  | listed
  | ownerless
  | claiming (me : ProcessFingerprint)
  | cleared
  | reacquired
  | adopted
  | lost
  | clearing
  | failing
  | settling
  | skipped
  | done
  deriving DecidableEq, Repr

/-- The engine has not cleared the gates yet. -/
def Phase.Before : Phase → Prop
  | .listed | .ownerless | .claiming _ => True
  | _ => False

/-- The engine has gone on to the process. -/
def Phase.Past (phase : Phase) : Prop := ¬ phase.Before ∧ phase ≠ .skipped

/-- An engine: its process, its own fingerprint as far as it could read it, and the record as it has
read it.  `touched` says whether it has changed the record or the row. -/
structure Engine where
  process : ProcessFingerprint
  me : Option ProcessFingerprint
  record : SpawnRecord
  phase : Phase
  touched : Bool
  deriving DecidableEq

/-- What a step of an engine meets: a fault of the store or the backend, and a minted Run id. -/
structure Env where
  fault : Bool
  minted : RunId
  deriving DecidableEq

/-- What a step of an engine does: the record may be replaced, and a claim may be won or lost. -/
structure Move where
  phase : Phase
  db : Store
  replaced : Bool
  claim : Option (ProcessFingerprint × Bool)

/-- A step that changes nothing in the store. -/
def Move.look (phase : Phase) (db : Store) : Move := ⟨phase, db, false, none⟩

/-- The gate of the owner.  A record without a process is a seed. -/
def ownerGate (alive : ProcessFingerprint → Bool) (me : Option ProcessFingerprint)
    (record : SpawnRecord) : Phase :=
  if record.fingerprint.pid = 0 then .skipped
  else if record.detach then .cleared
  else
    match record.owner with
    | some owner => if me ≠ some owner ∧ alive owner then .skipped else .ownerless
    | none => .ownerless

/-- The gate of the lease.  An engine that cannot read its own fingerprint takes none. -/
def leaseGate (alive : ProcessFingerprint → Bool) (me : Option ProcessFingerprint)
    (record : SpawnRecord) : Phase :=
  match me with
  | none => .cleared
  | some me =>
      if record.lease = some me then .cleared
      else
        match record.lease with
        | some held => if alive held then .skipped else .claiming me
        | none => .claiming me

/-- The claim: a compare-and-set under the lease that was read. -/
def claim (env : Env) (me : ProcessFingerprint) (record : SpawnRecord) (db : Store) : Move :=
  if env.fault then ⟨.skipped, db, false, some (me, false)⟩
  else
    match db.tryAcquireAdoptionLease record.lease me with
    | (true, after) => ⟨.cleared, after, false, some (me, true)⟩
    | (false, after) => ⟨.skipped, after, false, some (me, false)⟩

/-- The Run id is taken from the record, or minted and written back; a failure is only noted. -/
def resumeRunId (env : Env) (record : SpawnRecord) (db : Store) : Store :=
  match record.runId with
  | some _ => db
  | none =>
      match db.setSpawnRunId env.minted record.fingerprint with
      | .ok after => if env.fault then db else after
      | .error _ => db

/-- Without a process the row is reconciled, if it can be read. -/
def reconcileLookup (env : Env) (db : Store) : Phase :=
  match db.row with
  | some state =>
      if env.fault then .clearing
      else if state = .running ∨ state = .paused then .failing else .settling
  | none => .clearing

/-- The next step of an engine.  Probes answer correctly. -/
def Engine.next (alive : ProcessFingerprint → Bool) (env : Env) (e : Engine) (db : Store) : Move :=
  match e.phase with
  | .listed => .look (ownerGate alive e.me e.record) db
  | .ownerless => .look (leaseGate alive e.me e.record) db
  | .claiming me => claim env me e.record db
  | .cleared =>
      .look (if !env.fault && alive e.record.fingerprint then .reacquired else .lost) db
  | .reacquired => ⟨.adopted, resumeRunId env e.record db, false, none⟩
  | .lost => .look (reconcileLookup env db) db
  | .clearing =>
      if env.fault then .look .done db else ⟨.done, db.clearSpawnRecord, true, none⟩
  | .failing =>
      ⟨.settling, if env.fault then db else db.setState .failed, false, none⟩
  | .settling =>
      if env.fault then .look .done db else ⟨.done, db.settleSpawnRecord.2, true, none⟩
  | .adopted | .skipped | .done => .look e.phase db

/-! ### The system -/

/-- A fingerprint names one process, which is not started yet, lives, or has ended. -/
inductive Status where
  | unborn
  | live
  | ended
  deriving DecidableEq, Repr

/-- A claim, with the record it was made on: `generation` counts the records. -/
structure Claim where
  engine : ℕ
  me : ProcessFingerprint
  generation : ℕ
  expected : Option ProcessFingerprint
  won : Bool
  deriving DecidableEq, Repr

structure System where
  status : ProcessFingerprint → Status
  db : Store
  generation : ℕ
  engines : List Engine
  claims : List Claim

/-- A state root on which nothing has happened yet. -/
def System.fresh (name : InstanceName) : System :=
  ⟨fun _ => .unborn, ⟨name, none, none, fun _ => rfl⟩, 0, [], []⟩

namespace System

def alive (s : System) (fingerprint : ProcessFingerprint) : Bool := s.status fingerprint = .live

def setStatus (s : System) (process : ProcessFingerprint) (status : Status) : System :=
  { s with status := Function.update s.status process status }

/-- The record is replaced by another one, or deleted. -/
def replace (s : System) (db : Store) : System :=
  { s with db := db, generation := s.generation + 1 }

/-- An engine opens: it reads its own fingerprint, if it can, and the record. -/
def openEngine (s : System) (process : ProcessFingerprint) (readable : Bool) : System :=
  match s.db.record with
  | some record =>
      if s.alive process then
        { s with
          engines := s.engines ++
            [⟨process, if readable then some process else none, record, .listed, false⟩] }
      else s
  | none => s

/-- The claims after a step of the engine `i`. -/
def claimsAfter (s : System) (i : ℕ) (e : Engine) :
    Option (ProcessFingerprint × Bool) → List Claim
  | some (me, won) => s.claims ++ [⟨i, me, s.generation, e.record.lease, won⟩]
  | none => s.claims

/-- What a step of an engine leaves. -/
def apply (s : System) (i : ℕ) (e : Engine) (m : Move) : System where
  status := s.status
  db := m.db
  generation := if m.replaced then s.generation + 1 else s.generation
  engines := s.engines.set i
    { e with phase := m.phase, touched := e.touched || decide (m.db ≠ s.db) }
  claims := s.claimsAfter i e m.claim

/-- An engine goes on, while its process lives. -/
def advance (s : System) (i : ℕ) (env : Env) : System :=
  match s.engines[i]? with
  | some e => if s.alive e.process then s.apply i e (e.next s.alive env s.db) else s
  | none => s

end System

/-- One step of one engine, or a change around them: processes start and end, and whoever supervises
the instance registers and removes it, writes its state, its record and its session id. -/
inductive Act where
  | boot (process : ProcessFingerprint)
  | die (process : ProcessFingerprint)
  | register
  | remove
  | setState (state : LifecycleState)
  | spawn (record : SpawnRecord)
  | setAcpSessionId (sessionId : Option String)
  | settle
  | openEngine (process : ProcessFingerprint) (readable : Bool)
  | advance (i : ℕ) (env : Env)

/-- A process starts once, and every spawn writes a record without a lease. -/
def System.step (s : System) : Act → System
  | .boot process => if s.status process = .unborn then s.setStatus process .live else s
  | .die process => if s.status process = .live then s.setStatus process .ended else s
  | .register =>
      if s.db.row = none then { s with db := ⟨s.db.name, some .registered, s.db.record, nofun⟩ }
      else s
  | .remove => s.replace ⟨s.db.name, none, none, fun _ => rfl⟩
  | .setState state => { s with db := s.db.setState state }
  | .spawn record =>
      match s.db.upsertSpawnRecord { record with lease := none } with
      | .ok db => s.replace db
      | .error _ => s
  | .setAcpSessionId sessionId =>
      match s.db.setAcpSessionId sessionId with
      | .ok db => { s with db := db }
      | .error _ => s
  | .settle => s.replace s.db.settleSpawnRecord.2
  | .openEngine process readable => s.openEngine process readable
  | .advance i env => s.advance i env

/-! ### The invariant -/

namespace System

/-- The claims that were won. -/
def wins (s : System) : List Claim := s.claims.filter (·.won)

/-- Processes only go from not started to living to ended. -/
def Older (s t : System) : Prop :=
  ∀ fp, (s.status fp ≠ .unborn → t.status fp ≠ .unborn) ∧
    (s.status fp = .ended → t.status fp = .ended)

end System

/-- The engine has a right to the process: the lease that it has read names it, or it has won the
claim under that lease. -/
def Entitled (s : System) (i : ℕ) (e : Engine) : Prop :=
  ∀ me, e.me = some me → e.record.lease = some me ∨
    ∃ c ∈ s.wins, c.engine = i ∧ c.me = me ∧ c.expected = e.record.lease

/-- What holds of every engine: the lease it has read is of a process that was started, it claims
only under the lease of one that has ended, and it has gone on only if it was entitled to. -/
structure EngineSound (s : System) (i : ℕ) (e : Engine) : Prop where
  me_eq : ∀ me, e.me = some me → me = e.process
  born : ∀ held, e.record.lease = some held → s.status held ≠ .unborn
  claiming : ∀ me, e.phase = .claiming me →
    e.me = some me ∧ ∀ held, e.record.lease = some held → s.status held = .ended
  untouched : ¬ e.phase.Past → e.touched = false
  entitled : e.phase.Past → e.record.detach = false → Entitled s i e

/-- The invariant: a lease value that was won on the record that is there is no longer its lease,
and no living engine has it. -/
structure Sound (s : System) : Prop where
  born : ∀ r held, s.db.record = some r → r.lease = some held → s.status held ≠ .unborn
  spent : ∀ c ∈ s.wins, ∀ held, c.expected = some held → s.status held = .ended
  past : ∀ c ∈ s.claims, c.generation ≤ s.generation
  moved : ∀ c ∈ s.wins, c.generation = s.generation →
    ∀ r, s.db.record = some r → r.lease ≠ c.expected
  distinct : (s.wins.map fun c => (c.generation, c.expected)).Nodup
  engines : ∀ i e, s.engines[i]? = some e → EngineSound s i e
  losers : ∀ c ∈ s.claims, c.won = false →
    ∃ e, s.engines[c.engine]? = some e ∧ e.phase = .skipped

section Invariant

variable {s t : System} {i : ℕ} {e : Engine}

theorem System.wins_subset (s : System) : ∀ c ∈ s.wins, c ∈ s.claims := by
  intro c hc
  exact (List.mem_filter.1 hc).1

theorem System.older_refl (s : System) : s.Older s := fun _ => ⟨id, id⟩

/-- What holds of an engine goes on to hold while it waits. -/
theorem EngineSound.older (h : EngineSound s i e) (hold : s.Older t)
    (hwins : ∀ c ∈ s.wins, c ∈ t.wins) : EngineSound t i e where
  me_eq := h.me_eq
  born held hheld := (hold held).1 (h.born held hheld)
  claiming me hme := by
    obtain ⟨hself, hended⟩ := h.claiming me hme
    exact ⟨hself, fun held hheld => (hold held).2 (hended held hheld)⟩
  untouched := h.untouched
  entitled hpast hdetach me hme := by
    refine (h.entitled hpast hdetach me hme).imp_right ?_
    rintro ⟨c, hc, hclaim⟩
    exact ⟨c, hwins c hc, hclaim⟩

/-- The lease of the record is as it was, or the record is a new one and has no lease. -/
def LeaseKept (s t : System) : Prop :=
  (t.generation = s.generation ∧ ∀ r, t.db.record = some r →
      ∃ r', s.db.record = some r' ∧ r'.lease = r.lease) ∨
    (s.generation < t.generation ∧ ∀ r, t.db.record = some r → r.lease = none)

/-- Nothing that happens around the engines takes anything from the invariant. -/
theorem Sound.around (h : Sound s) (hold : s.Older t) (hlease : LeaseKept s t)
    (hclaims : t.claims = s.claims) (hengines : t.engines = s.engines) : Sound t := by
  have hwins : t.wins = s.wins := by rw [System.wins, System.wins, hclaims]
  refine ⟨?_, ?_, ?_, ?_, ?_, ?_, ?_⟩
  · intro r held hr hheld
    rcases hlease with ⟨-, hkept⟩ | ⟨-, hnone⟩
    · obtain ⟨r', hr', hsame⟩ := hkept r hr
      exact (hold held).1 (h.born r' held hr' (hsame.trans hheld))
    · rw [hnone r hr] at hheld
      cases hheld
  · intro c hc held hheld
    rw [hwins] at hc
    exact (hold held).2 (h.spent c hc held hheld)
  · intro c hc
    rw [hclaims] at hc
    have hpast := h.past c hc
    rcases hlease with ⟨hgeneration, -⟩ | ⟨hgeneration, -⟩ <;> omega
  · intro c hc hgeneration r hr
    rw [hwins] at hc
    have hpast := h.past c (s.wins_subset c hc)
    rcases hlease with ⟨hsame, hkept⟩ | ⟨hlater, -⟩
    · obtain ⟨r', hr', hlease'⟩ := hkept r hr
      rw [← hlease']
      exact h.moved c hc (hgeneration.trans hsame) r' hr'
    · omega
  · rw [hwins]
    exact h.distinct
  · intro i e he
    rw [hengines] at he
    exact (h.engines i e he).older hold fun c hc => hwins ▸ hc
  · intro c hc hlost
    rw [hclaims] at hc
    rw [hengines]
    exact h.losers c hc hlost

/-- A new engine has only read. -/
theorem Sound.openEngine (h : Sound s) (process : ProcessFingerprint) (readable : Bool) :
    Sound (s.openEngine process readable) := by
  rw [System.openEngine]
  split
  · next record hrecord =>
      by_cases halive : s.alive process = true
      · rw [if_pos halive]
        refine ⟨h.born, h.spent, h.past, h.moved, h.distinct, ?_, ?_⟩
        · refine Slots.All.append (fun i e he => ?_) ?_
          · exact (h.engines i e he).older s.older_refl fun _ hc => hc
          refine ⟨?_, fun held => h.born record held hrecord, nofun, fun _ => rfl, ?_⟩
          · intro me hme
            cases readable <;> cases hme
            rfl
          · intro hpast
            exact absurd trivial hpast.1
        · intro c hc hlost
          obtain ⟨e, he, hskipped⟩ := h.losers c hc hlost
          refine ⟨e, ?_, hskipped⟩
          exact (List.getElem?_append_left (List.getElem?_eq_some_iff.1 he).1).trans he
      · rw [if_neg halive]
        exact h
  · exact h

/-! ### The steps of an engine -/

/-- One engine has gone on; one that is skipped stays so. -/
theorem Sound.setEngine {e' : Engine} (h : Sound s) (he : s.engines[i]? = some e)
    (hsound : EngineSound s i e') (hskipped : e.phase = .skipped → e'.phase = .skipped) :
    Sound { s with engines := s.engines.set i e' } := by
  have hlt : i < s.engines.length := (List.getElem?_eq_some_iff.1 he).1
  refine ⟨h.born, h.spent, h.past, h.moved, h.distinct, ?_, ?_⟩
  · refine Slots.All.set (fun j d hd _ => ?_) (hsound.older s.older_refl fun _ hc => hc)
    exact (h.engines j d hd).older s.older_refl fun _ hc => hc
  · intro c hc hlost
    obtain ⟨d, hd, hd'⟩ := h.losers c hc hlost
    by_cases hij : i = c.engine
    · subst hij
      obtain rfl : e = d := Option.some.inj (he.symm.trans hd)
      exact ⟨e', List.getElem?_set_self hlt, hskipped hd'⟩
    · exact ⟨d, (List.getElem?_set_ne hij).trans hd, hd'⟩

/-- A step without a claim. -/
theorem Sound.move {m : Move} (h : Sound s) (he : s.engines[i]? = some e) (hclaim : m.claim = none)
    (hlease : LeaseKept s (s.apply i e m))
    (hsound : EngineSound s i
      { e with phase := m.phase, touched := e.touched || decide (m.db ≠ s.db) })
    (hskipped : e.phase = .skipped → m.phase = .skipped) : Sound (s.apply i e m) := by
  refine (h.setEngine he hsound hskipped).around s.older_refl hlease ?_ rfl
  rw [System.apply, hclaim]
  rfl

/-- A step that leaves the store alone keeps the lease. -/
theorem leaseKept_look (s : System) (i : ℕ) (e : Engine) (phase : Phase) :
    LeaseKept s (s.apply i e (.look phase s.db)) :=
  .inl ⟨rfl, fun r hr => ⟨r, hr, rfl⟩⟩

/-- An engine that has only looked is as it was but for its phase. -/
theorem Sound.look {phase : Phase} (h : Sound s) (he : s.engines[i]? = some e)
    (hsound : EngineSound s i { e with phase := phase })
    (hskipped : e.phase = .skipped → phase = .skipped) :
    Sound (s.apply i e (.look phase s.db)) := by
  refine h.move he rfl (leaseKept_look s i e phase) ?_ hskipped
  simpa [Move.look] using hsound

/-- Past the gates every further step is as entitled as the one before. -/
theorem EngineSound.onward {phase : Phase} (h : EngineSound s i e) (hpast : e.phase.Past)
    (hpast' : phase.Past) (touched : Bool) :
    EngineSound s i { e with phase := phase, touched := touched } where
  me_eq := h.me_eq
  born := h.born
  claiming me hme := by
    subst hme
    exact absurd trivial hpast'.1
  untouched hnot := absurd hpast' hnot
  entitled _ := h.entitled hpast

theorem ownerGate_cases (alive : ProcessFingerprint → Bool) (me : Option ProcessFingerprint)
    (record : SpawnRecord) :
    ownerGate alive me record = .skipped ∨ ownerGate alive me record = .ownerless ∨
      ownerGate alive me record = .cleared ∧ record.detach = true := by
  rw [ownerGate]
  split_ifs with hpid hdetach
  · exact .inl rfl
  · exact .inr (.inr ⟨rfl, hdetach⟩)
  · split
    · split_ifs
      · exact .inl rfl
      · exact .inr (.inl rfl)
    · exact .inr (.inl rfl)

/-- A claim is made only under the lease of a process that no longer lives. -/
theorem leaseGate_cases (alive : ProcessFingerprint → Bool) (me : Option ProcessFingerprint)
    (record : SpawnRecord) :
    leaseGate alive me record = .skipped ∨
      (leaseGate alive me record = .cleared ∧ ∀ fp, me = some fp → record.lease = some fp) ∨
        ∃ fp, me = some fp ∧ leaseGate alive me record = .claiming fp ∧
          ∀ held, record.lease = some held → ¬ alive held := by
  cases me with
  | none => exact .inr (.inl ⟨rfl, nofun⟩)
  | some fp =>
      simp only [leaseGate]
      split_ifs with hself
      · refine .inr (.inl ⟨rfl, fun fp' hfp' => ?_⟩)
        cases hfp'
        exact hself
      · split
        · next held hheld =>
            split_ifs with halive
            · exact .inl rfl
            · refine .inr (.inr ⟨fp, rfl, rfl, fun held' hheld' => ?_⟩)
              obtain rfl : held = held' := Option.some.inj (hheld.symm.trans hheld')
              exact halive
        · next hnone =>
            refine .inr (.inr ⟨fp, rfl, rfl, fun held hheld => ?_⟩)
            exact absurd (hnone.symm.trans hheld) nofun

/-- An engine that is skipped has changed nothing. -/
theorem EngineSound.skip (h : EngineSound s i e) (hbefore : ¬ e.phase.Past) :
    EngineSound s i { e with phase := .skipped } where
  me_eq := h.me_eq
  born := h.born
  claiming := nofun
  untouched _ := h.untouched hbefore
  entitled hpast := absurd rfl hpast.2

/-! ### Claims -/

/-- A claim that is lost belongs to an engine that is skipped. -/
theorem Sound.addLost {c : Claim} (h : Sound s) (hlost : c.won = false)
    (hgeneration : c.generation ≤ s.generation)
    (hskipped : ∃ e, s.engines[c.engine]? = some e ∧ e.phase = .skipped) :
    Sound { s with claims := s.claims ++ [c] } := by
  have hwins : ({ s with claims := s.claims ++ [c] } : System).wins = s.wins := by
    simp [System.wins, List.filter_append, hlost]
  refine ⟨h.born, ?_, ?_, ?_, ?_, ?_, ?_⟩
  · rw [hwins]
    exact h.spent
  · intro d hd
    rcases List.mem_append.1 hd with hold | hnew
    · exact h.past d hold
    · rw [List.mem_singleton.1 hnew]
      exact hgeneration
  · rw [hwins]
    exact h.moved
  · rw [hwins]
    exact h.distinct
  · intro j d hd
    exact (h.engines j d hd).older s.older_refl fun _ hc => hwins.symm ▸ hc
  · intro d hd hd'
    rcases List.mem_append.1 hd with hold | hnew
    · exact h.losers d hold hd'
    · rw [List.mem_singleton.1 hnew]
      exact hskipped

/-- A claim that is won spends a lease of a process that has ended, and puts one there of a process
that lives.  No claim on this record has spent either of them before. -/
theorem Sound.addWon {c : Claim} {r : SpawnRecord} {after : Store} (h : Sound s)
    (hwon : c.won = true) (hgeneration : c.generation = s.generation)
    (hr : s.db.record = some r) (hexpected : r.lease = c.expected)
    (hended : ∀ held, c.expected = some held → s.status held = .ended)
    (hlive : s.status c.me = .live) (hafter : after.record = some { r with lease := some c.me }) :
    Sound { s with db := after, claims := s.claims ++ [c] } := by
  have hwins : ({ s with db := after, claims := s.claims ++ [c] } : System).wins =
      s.wins ++ [c] := by
    simp [System.wins, List.filter_append, hwon]
  have hspent : ∀ d ∈ s.wins ++ [c], ∀ held, d.expected = some held → s.status held = .ended := by
    intro d hd
    rcases List.mem_append.1 hd with hold | hnew
    · exact h.spent d hold
    · rw [List.mem_singleton.1 hnew]
      exact hended
  refine ⟨?_, ?_, ?_, ?_, ?_, ?_, ?_⟩
  · intro r' held hr' hheld
    change after.record = some r' at hr'
    rw [hafter] at hr'
    cases hr'
    cases hheld
    change s.status c.me ≠ .unborn
    rw [hlive]
    exact nofun
  · rw [hwins]
    exact hspent
  · intro d hd
    rcases List.mem_append.1 hd with hold | hnew
    · exact h.past d hold
    · rw [List.mem_singleton.1 hnew]
      exact hgeneration.le
  · intro d hd _ r' hr' heq
    rw [hwins] at hd
    change after.record = some r' at hr'
    rw [hafter] at hr'
    cases hr'
    -- the new lease is of a living process, every spent one of a process that has ended
    have hdead : s.status c.me = .ended := hspent d hd c.me heq.symm
    rw [hlive] at hdead
    cases hdead
  · rw [hwins, List.map_append, List.nodup_append]
    refine ⟨h.distinct, List.nodup_singleton _, ?_⟩
    intro key hkey key' hkey' heq
    obtain ⟨d, hd, rfl⟩ := List.mem_map.1 hkey
    rw [List.map_singleton, List.mem_singleton] at hkey'
    rw [hkey'] at heq
    obtain ⟨hsame, hlease⟩ := Prod.mk.inj heq
    exact h.moved d hd (hsame.trans hgeneration) r hr (hexpected.trans hlease.symm)
  · intro j d hd
    refine (h.engines j d hd).older s.older_refl fun d hd => ?_
    rw [hwins]
    exact List.mem_append_left _ hd
  · intro d hd hd'
    rcases List.mem_append.1 hd with hold | hnew
    · exact h.losers d hold hd'
    · rw [List.mem_singleton.1 hnew, hwon] at hd'
      cases hd'

/-- **A claim is won by an engine that lives, or the engine is skipped.** -/
theorem Sound.claim {env : Env} {me : ProcessFingerprint} (h : Sound s)
    (he : s.engines[i]? = some e) (hphase : e.phase = .claiming me)
    (hlive : s.status e.process = .live) :
    Sound (s.apply i e (Adoption.claim env me e.record s.db)) := by
  have hengine := h.engines i e he
  have hlt : i < s.engines.length := (List.getElem?_eq_some_iff.1 he).1
  have hbefore : ¬ e.phase.Past := fun hpast => hpast.1 (hphase ▸ trivial)
  have hlose : Sound (s.apply i e ⟨.skipped, s.db, false, some (me, false)⟩) := by
    have hset := h.setEngine he (hengine.skip hbefore) fun _ => rfl
    have hadd := hset.addLost (c := ⟨i, me, s.generation, e.record.lease, false⟩) rfl le_rfl
      ⟨_, List.getElem?_set_self hlt, rfl⟩
    simpa [System.apply, System.claimsAfter, hengine.untouched hbefore] using hadd
  rw [Adoption.claim]
  split
  · exact hlose
  · split
    · next after hwon =>
        obtain ⟨r, hr, hlease, hafter⟩ := Store.tryAcquire_won hwon
        obtain ⟨hme, hended⟩ := hengine.claiming me hphase
        have hself : s.status me = .live := hengine.me_eq me hme ▸ hlive
        have hadd := h.addWon (c := ⟨i, me, s.generation, e.record.lease, true⟩) rfl rfl hr hlease
          hended hself hafter
        have hcleared : EngineSound
            { s with
              db := after
              claims := s.claims ++ [⟨i, me, s.generation, e.record.lease, true⟩] }
            i { e with phase := .cleared, touched := e.touched || decide (after ≠ s.db) } := by
          refine ⟨hengine.me_eq, hengine.born, nofun, fun hnot => absurd ?_ hnot, ?_⟩
          · exact ⟨id, nofun⟩
          · intro _ _ me' hme'
            obtain rfl : me = me' := Option.some.inj (hme.symm.trans hme')
            refine .inr ⟨⟨i, me, s.generation, e.record.lease, true⟩, ?_, rfl, rfl, rfl⟩
            exact List.mem_filter.2 ⟨List.mem_append_right _ (List.mem_singleton_self _), rfl⟩
        have hskipped : e.phase = .skipped → Phase.cleared = .skipped := by
          intro hskip
          rw [hphase] at hskip
          cases hskip
        exact hadd.setEngine he hcleared hskipped
    · next after hlost =>
        rw [Store.tryAcquire_lost hlost]
        exact hlose

/-! ### Every step -/

theorem leaseKept_of_record {db : Store} (hrecord : ∀ r, db.record = some r →
    ∃ r', s.db.record = some r' ∧ r'.lease = r.lease) (phase : Phase) :
    LeaseKept s (s.apply i e ⟨phase, db, false, none⟩) :=
  .inl ⟨rfl, hrecord⟩

theorem resumeRunId_lease (env : Env) (record : SpawnRecord) (db : Store) (r : SpawnRecord)
    (hr : (resumeRunId env record db).record = some r) :
    ∃ r', db.record = some r' ∧ r'.lease = r.lease := by
  rw [resumeRunId] at hr
  split at hr
  · exact ⟨r, hr, rfl⟩
  · split at hr
    · next after hset =>
        split_ifs at hr
        · exact ⟨r, hr, rfl⟩
        · obtain ⟨r', hr', -, hafter⟩ := Store.setSpawnRunId_ok hset
          rw [hafter] at hr
          cases hr
          exact ⟨r', hr', rfl⟩
    · exact ⟨r, hr, rfl⟩

/-- The gate of the owner only looks: it skips, sends on to the lease, or clears a detached
process. -/
theorem Sound.ownerGate (h : Sound s) (he : s.engines[i]? = some e) (hphase : e.phase = .listed) :
    Sound (s.apply i e (.look (ownerGate s.alive e.me e.record) s.db)) := by
  have hengine := h.engines i e he
  have hbefore : ¬ e.phase.Past := fun hpast => hpast.1 (hphase ▸ trivial)
  refine h.look he ?_ fun hskip => absurd (hphase.symm.trans hskip) nofun
  rcases ownerGate_cases s.alive e.me e.record with hgate | hgate | ⟨hgate, hdetach⟩
  · rw [hgate]
    exact hengine.skip hbefore
  · rw [hgate]
    exact ⟨hengine.me_eq, hengine.born, nofun, fun _ => hengine.untouched hbefore,
      fun hpast => absurd trivial hpast.1⟩
  · rw [hgate]
    refine ⟨hengine.me_eq, hengine.born, nofun, fun _ => hengine.untouched hbefore, ?_⟩
    intro _ hattached
    exact absurd (hattached.symm.trans hdetach) nofun

/-- The gate of the lease looks too: an engine that goes on to claim has found the holder ended. -/
theorem Sound.leaseGate (h : Sound s) (he : s.engines[i]? = some e)
    (hphase : e.phase = .ownerless) :
    Sound (s.apply i e (.look (leaseGate s.alive e.me e.record) s.db)) := by
  have hengine := h.engines i e he
  have hbefore : ¬ e.phase.Past := fun hpast => hpast.1 (hphase ▸ trivial)
  refine h.look he ?_ fun hskip => absurd (hphase.symm.trans hskip) nofun
  rcases leaseGate_cases s.alive e.me e.record with hgate | ⟨hgate, hself⟩ |
    ⟨fp, hme, hgate, hdead⟩
  · rw [hgate]
    exact hengine.skip hbefore
  · rw [hgate]
    exact ⟨hengine.me_eq, hengine.born, nofun, fun _ => hengine.untouched hbefore,
      fun _ _ me hme => .inl (hself me hme)⟩
  · rw [hgate]
    refine ⟨hengine.me_eq, hengine.born, ?_, fun _ => hengine.untouched hbefore,
      fun hpast => absurd trivial hpast.1⟩
    intro me hclaiming
    cases hclaiming
    refine ⟨hme, fun held hheld => ?_⟩
    have hborn := hengine.born held hheld
    have hnot : s.status held ≠ .live := fun halive => hdead held hheld (decide_eq_true halive)
    -- who holds a lease was born, and is not alive: it has ended
    cases hstatus : s.status held with
    | unborn => exact absurd hstatus hborn
    | live => exact absurd hstatus hnot
    | ended => rfl

/-- A step of a living engine. -/
theorem Sound.next {env : Env} (h : Sound s) (he : s.engines[i]? = some e)
    (hlive : s.status e.process = .live) : Sound (s.apply i e (e.next s.alive env s.db)) := by
  have hengine := h.engines i e he
  have onward {m : Move} (hpast : e.phase.Past) (hpast' : m.phase.Past) (hclaim : m.claim = none)
      (hlease : LeaseKept s (s.apply i e m)) : Sound (s.apply i e m) :=
    h.move he hclaim hlease (hengine.onward hpast hpast' _) fun hskip => absurd hskip hpast.2
  rw [Engine.next]
  split
  · next hphase => exact h.ownerGate he hphase
  · next hphase => exact h.leaseGate he hphase
  · next me hphase => exact h.claim he hphase hlive
  -- past the gates each step keeps the lease, or replaces the record of its own process
  · next hphase =>
      have hpast : e.phase.Past := hphase ▸ ⟨id, nofun⟩
      refine onward hpast ?_ rfl (leaseKept_look s i e _)
      change Phase.Past (if _ then _ else _)
      split_ifs <;> exact ⟨id, nofun⟩
  · next hphase =>
      have hpast : e.phase.Past := hphase ▸ ⟨id, nofun⟩
      exact onward hpast ⟨id, nofun⟩ rfl
        (leaseKept_of_record (resumeRunId_lease env e.record s.db) _)
  · next hphase =>
      have hpast : e.phase.Past := hphase ▸ ⟨id, nofun⟩
      refine onward hpast ?_ rfl (leaseKept_look s i e _)
      change Phase.Past (reconcileLookup env s.db)
      rw [reconcileLookup]
      split
      · split_ifs <;> exact ⟨id, nofun⟩
      · exact ⟨id, nofun⟩
  · next hphase =>
      have hpast : e.phase.Past := hphase ▸ ⟨id, nofun⟩
      split
      · exact onward hpast ⟨id, nofun⟩ rfl (leaseKept_look s i e _)
      · refine onward hpast ⟨id, nofun⟩ rfl (.inr ⟨Nat.lt_succ_self _, ?_⟩)
        intro r hr
        exact absurd (hr.symm.trans Store.write_none) nofun
  · next hphase =>
      have hpast : e.phase.Past := hphase ▸ ⟨id, nofun⟩
      refine onward hpast ⟨id, nofun⟩ rfl (leaseKept_of_record ?_ _)
      intro r hr
      split at hr <;> exact ⟨r, hr, rfl⟩
  · next hphase =>
      have hpast : e.phase.Past := hphase ▸ ⟨id, nofun⟩
      split
      · exact onward hpast ⟨id, nofun⟩ rfl (leaseKept_look s i e _)
      · refine onward hpast ⟨id, nofun⟩ rfl (.inr ⟨Nat.lt_succ_self _, ?_⟩)
        intro r hr
        exact Store.settleSpawnRecord_lease hr rfl
  -- an engine that is through stays where it is
  all_goals exact h.look he hengine id

/-- **Every step keeps the invariant.** -/
theorem Sound.step (h : Sound s) (a : Act) : Sound (s.step a) := by
  -- around the engines the lease stays, or the record is replaced, or a process ages
  have kept {db : Store} (hrecord : ∀ r, db.record = some r →
      ∃ r', s.db.record = some r' ∧ r'.lease = r.lease) : Sound { s with db := db } :=
    h.around s.older_refl (.inl ⟨rfl, hrecord⟩) rfl rfl
  have replaced {db : Store} (hrecord : ∀ r, db.record = some r → r.lease = none) :
      Sound (s.replace db) :=
    h.around s.older_refl (.inr ⟨Nat.lt_succ_self _, hrecord⟩) rfl rfl
  have aged {process : ProcessFingerprint} {status : Status} (hunborn : status ≠ .unborn)
      (hended : s.status process ≠ .ended) : Sound (s.setStatus process status) := by
    refine h.around (fun fp => ?_) (.inl ⟨rfl, fun r hr => ⟨r, hr, rfl⟩⟩) rfl rfl
    by_cases hfp : fp = process
    · subst hfp
      simp only [System.setStatus, Function.update_self]
      exact ⟨fun _ => hunborn, fun hwas => absurd hwas hended⟩
    · simp only [System.setStatus, Function.update_of_ne hfp]
      exact ⟨id, id⟩
  cases a with
  | boot process =>
      rw [System.step]
      split_ifs with hstatus
      · exact aged nofun (hstatus ▸ nofun)
      · exact h
  | die process =>
      rw [System.step]
      split_ifs with hstatus
      · exact aged nofun (hstatus ▸ nofun)
      · exact h
  | register =>
      rw [System.step]
      split_ifs
      · exact kept fun r hr => ⟨r, hr, rfl⟩
      · exact h
  | remove => exact replaced nofun
  | setState state => exact kept fun r hr => ⟨r, hr, rfl⟩
  | spawn record =>
      rw [System.step]
      split
      · next db hdb =>
          refine replaced fun r hr => ?_
          rw [Store.upsertSpawnRecord_ok hdb] at hr
          cases hr
          rfl
      · exact h
  | setAcpSessionId sessionId =>
      rw [System.step]
      split
      · next db hdb =>
          refine kept fun r hr => ?_
          obtain ⟨record, hrecord, hafter⟩ := Store.setAcpSessionId_ok hdb
          rw [hafter] at hr
          cases hr
          exact ⟨record, hrecord, rfl⟩
      · exact h
  | settle => exact replaced fun r hr => Store.settleSpawnRecord_lease hr rfl
  | openEngine process readable => exact h.openEngine process readable
  | advance i env =>
      rw [System.step, System.advance]
      split
      · next e he =>
          split_ifs with halive
          · exact h.next he (of_decide_eq_true halive)
          · exact h
      · exact h

end Invariant

/-! ### Runs -/

theorem sound_fresh (name : InstanceName) : Sound (System.fresh name) where
  born := nofun
  spent := List.forall_mem_nil _
  past := List.forall_mem_nil _
  moved := List.forall_mem_nil _
  distinct := List.nodup_nil
  engines _ _ he := absurd he (by simp [System.fresh])
  losers := List.forall_mem_nil _

/-- **Who wins a lease, who goes on, and what a loser leaves alone.**  On every record each lease
value is won at most once; an engine that can read its own fingerprint goes on to the process of a
record that is not detached only under a lease it has won or that names it; an engine whose claim is
lost has changed nothing; and of the two later writes, the Run id is not written to a record of
another process, and neither drops a session id. -/
theorem adoption_runs (name : InstanceName) (acts : List Act) :
    ∀ s ∈ Guarded.states System.step (System.fresh name) acts,
      (s.wins.map fun c => (c.generation, c.expected)).Nodup ∧
        (∀ i e, s.engines[i]? = some e → e.phase.Past → e.record.detach = false →
          Entitled s i e) ∧
        (∀ i e, s.engines[i]? = some e → (∃ c ∈ s.claims, c.engine = i ∧ c.won = false) →
          e.touched = false) ∧
        (∀ runId fingerprint record, s.db.record = some record →
          record.fingerprint ≠ fingerprint →
            ∃ e, s.db.setSpawnRunId runId fingerprint = .error e) ∧
        (∀ runId fingerprint after, s.db.setSpawnRunId runId fingerprint = .ok after →
          after.session = s.db.session) ∧
        s.db.settleSpawnRecord.2.session = s.db.session := by
  intro s hs
  have hsound : Sound s :=
    Guarded.invariant (fun _ a h _ => h.step a) (sound_fresh name) (Guarded.meets_true acts) hs
  refine ⟨hsound.distinct, ?_, ?_, ?_, ?_, Store.session_settleSpawnRecord⟩
  · intro i e he hpast hdetach
    exact (hsound.engines i e he).entitled hpast hdetach
  · rintro i e he ⟨c, hc, rfl, hlost⟩
    obtain ⟨e', he', hskipped⟩ := hsound.losers c hc hlost
    obtain rfl : e = e' := Option.some.inj (he.symm.trans he')
    exact (hsound.engines c.engine e he).untouched fun hpast => hpast.2 hskipped
  · intro runId fingerprint record hrecord hne
    exact Store.setSpawnRunId_replaced hrecord hne
  · intro runId fingerprint after hset
    exact Store.session_setSpawnRunId hset

/-- A record of a process of its own, with a session. -/
def attachedRecord (process owner : ProcessFingerprint) : SpawnRecord :=
  ⟨process, .never, 0, none, false, some "session", some 7, some owner, none⟩

/-- An instance that was spawned by the engine process 1 as the process 10; process 1 has ended. -/
def orphaned : List Act :=
  [.register, .boot ⟨1, 1⟩, .boot ⟨10, 1⟩, .setState .running,
    .spawn (attachedRecord ⟨10, 1⟩ ⟨1, 1⟩), .die ⟨1, 1⟩, .boot ⟨2, 2⟩]

/-- The steps of the engine `i` when nothing fails. -/
def goOn (i n : ℕ) : List Act := List.replicate n (.advance i ⟨false, 0⟩)

/-- Two engines have read the same record; the second one claims after the first. -/
def raced : List Act :=
  orphaned ++ [.boot ⟨3, 3⟩, .openEngine ⟨2, 2⟩ true, .openEngine ⟨3, 3⟩ true] ++ goOn 0 2 ++
    goOn 1 2 ++ goOn 0 2 ++ goOn 1 2

def racedRun : System := raced.foldl System.step (System.fresh "alma")

theorem adoption_runs_raced :
    (racedRun.claims.map fun c => (c.engine, c.won)) = [(0, true), (1, false)] ∧
      racedRun.engines.map Engine.phase = [.reacquired, .skipped] ∧
      ∀ i e, racedRun.engines[i]? = some e → e.phase.Past → e.record.detach = false →
        Entitled racedRun i e :=
  ⟨by decide +kernel, by decide +kernel,
    (adoption_runs "alma" raced racedRun Guarded.last_mem_states).2.1⟩

/-- An engine that cannot read its own fingerprint adopts the orphan. -/
def unclaimedRun : System :=
  (orphaned ++ .openEngine ⟨2, 2⟩ false :: goOn 0 3).foldl System.step (System.fresh "alma")

/-- An engine reads the record, the process ends, and a new engine spawns again. -/
def respawned : List Act :=
  [.openEngine ⟨2, 2⟩ true, .die ⟨10, 1⟩, .boot ⟨3, 3⟩, .boot ⟨11, 3⟩,
    .spawn (attachedRecord ⟨11, 3⟩ ⟨3, 3⟩)]

def replacedRun : System :=
  (orphaned ++ respawned).foldl System.step (System.fresh "alma")

/-- An engine that cannot read its own fingerprint holds an orphan again without any claim.  And an
engine whose record is replaced before it goes on wins the lease of the new one, finds the old
process gone, and settles the new record, whose process lives. -/
theorem adoption_unclaimed_and_settled :
    (unclaimedRun.claims = [] ∧
        unclaimedRun.engines.map (fun e => (e.phase, e.record.detach, e.record.lease)) =
          [(.reacquired, false, none)]) ∧
      replacedRun.db.record = some (attachedRecord ⟨11, 3⟩ ⟨3, 3⟩) ∧
      ((goOn 0 7).foldl System.step replacedRun).alive ⟨11, 3⟩ = true ∧
      ((goOn 0 7).foldl System.step replacedRun).db.row = some .failed ∧
      ((goOn 0 7).foldl System.step replacedRun).db.record.map SpawnRecord.fingerprint =
        some ⟨0, 0⟩ := by
  decide +kernel

end Adoption

end Hekma
