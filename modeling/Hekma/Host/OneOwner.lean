/-
**The one owner of a state root, and the writes of the CLI** (`hekma-host/src/lib.rs`,
`hekma-host/src/local.rs`, `cli/host_client.rs`, `cli/agent.rs`).

A host takes the lock of its state root, opens the engine, binds a local endpoint, records it in
`control.json`, and serves; when it ends it stops accepting, removes its record, drains and drops
the engine, and the lock goes last.  It may crash at any step.  A write of the CLI reads the record,
probes the host it names, starts a host where there is none, and makes one call; a call that was
never sent is made a second time, from the beginning.

Main definitions:

* `Host`, `Client` — how far a host and a write of the CLI have come;
* `System.hostStep`, `System.clientStep`, `System.handle` — their steps, and a host at a request;
* `Sound` — the invariant.

Main results:

* `Sound.step` — every step keeps the invariant;
* `one_owner` — one owner, its record, and writes that are executed at most once.
-/

import Hekma.Lib.Guarded
import Hekma.Lib.Slots

set_option relaxedAutoImplicit false
set_option autoImplicit false

namespace Hekma

namespace OneOwner

/-! ### The parties -/

/-- The discovery file's schema version. -/
def discoverySchemaVersion : ℕ := 1

/-- The document of `control.json`. -/
structure Discovery where
  schemaVersion : ℕ
  pid : ℕ
  addr : ℕ
  token : String
  hekmaVersion : String
  autostarted : Bool
  deriving DecidableEq, Repr

/-- The file, with the host that wrote it. -/
structure ControlFile where
  doc : Discovery
  writer : ℕ
  deriving DecidableEq, Repr

/-- How far a host has come. -/
inductive HostPhase where
  | booted
  | locked
  | opened
  | bound
  | published
  | serving
  | closing
  | removing
  | draining
  | dropped
  | gone
  deriving DecidableEq, Repr

namespace HostPhase

def holdsLock : HostPhase → Bool
  | booted | gone => false
  | _ => true

/-- The engine is open: a connection that outlives the API keeps it until the runtime goes, which is
before the unlock. -/
def engineOpen : HostPhase → Bool
  | opened | bound | published | serving | closing | removing | draining | dropped => true
  | _ => false

/-- A connection is accepted, or waits in the accept queue. -/
def listening : HostPhase → Bool
  | bound | published | serving => true
  | _ => false

/-- A request that was received may still be handled, also by a connection that outlives the API. -/
def handles : HostPhase → Bool
  | serving | closing | removing | draining | dropped => true
  | _ => false

/-- The record of the host has been written and not been removed yet. -/
def recorded : HostPhase → Bool
  | published | serving | closing | removing => true
  | _ => false

end HostPhase

/-- A process that serves a state root: its token is minted, its address chosen by the system. -/
structure Host where
  pid : ℕ
  addr : ℕ
  token : String
  hekmaVersion : String
  autostarted : Bool
  phase : HostPhase
  deriving DecidableEq, Repr

/-- How far a write of the CLI has come.  `spawned` is set while it waits for a host that it has
started. -/
inductive ClientPhase where
  | connecting (spawned : Bool)
  | probing (spawned : Bool) (doc : Discovery)
  | starting
  | found (doc : Discovery)
  | waiting (request : ℕ)
  | succeeded
  | failed
  deriving DecidableEq, Repr

structure Client where
  phase : ClientPhase
  retried : Bool
  deriving DecidableEq, Repr

/-- A request that has reached a host. -/
structure Request where
  client : ℕ
  host : ℕ
  token : String
  deriving DecidableEq, Repr

/-- What became of a request: a token that does not resolve is answered before any handler. -/
inductive Outcome where
  | unauthorized
  | engineError
  | success
  deriving DecidableEq, Repr

/-- A request that was handled, with the holder of the lock at that moment. -/
structure Handled where
  request : ℕ
  client : ℕ
  host : ℕ
  holder : Option ℕ
  outcome : Outcome
  deriving DecidableEq, Repr

/-- What happened to `control.json`, with the holder of the lock at that moment. -/
inductive FileEvent where
  | wrote (host : ℕ) (holder : Option ℕ)
  | removed (host : ℕ) (writer : ℕ) (holder : Option ℕ)
  deriving DecidableEq, Repr

/-- One state root, its hosts and the writes of the CLI. -/
structure System where
  lock : Option ℕ
  control : Option ControlFile
  hosts : List Host
  clients : List Client
  requests : List Request
  handled : List Handled
  files : List FileEvent
  deriving DecidableEq

/-- A state root that nobody has served yet. -/
def System.fresh : System := ⟨none, none, [], [], [], [], []⟩

/-! ### Hosts -/

/-- Whether a step fails, and which address the system chooses. -/
structure HostEnv where
  fault : Bool
  addr : ℕ

/-- The record as it can be read. -/
def readDiscovery (fault : Bool) (control : Option ControlFile) : Option Discovery :=
  match control with
  | some file =>
      if fault || file.doc.schemaVersion ≠ discoverySchemaVersion then none else some file.doc
  | none => none

def Host.discovery (h : Host) : Discovery where
  schemaVersion := discoverySchemaVersion
  pid := h.pid
  addr := h.addr
  token := h.token
  hekmaVersion := h.hekmaVersion
  autostarted := h.autostarted

namespace System

def setPhase (s : System) (i : ℕ) (h : Host) (phase : HostPhase) : System :=
  { s with hosts := s.hosts.set i { h with phase := phase } }

/-- A host ends, or is ended: the lock is released with it. -/
def leave (s : System) (i : ℕ) (h : Host) : System :=
  { s.setPhase i h .gone with lock := if s.lock = some i then none else s.lock }

/-- The host that listens on an address. -/
def hostAt (s : System) (addr : ℕ) : Option ℕ :=
  s.hosts.findIdx? fun h => h.phase.listening && h.addr == addr

/-- The lock of the state root, or a refusal. -/
def acquireLock (s : System) (i : ℕ) (h : Host) (env : HostEnv) : System :=
  if s.lock = none ∧ ¬ env.fault then { s.setPhase i h .locked with lock := some i }
  else s.setPhase i h .gone

/-- The local endpoint is bound; where that fails, the engine that has adopted is drained. -/
def bind (s : System) (i : ℕ) (h : Host) (env : HostEnv) : System :=
  if env.fault || (s.hostAt env.addr).isSome then s.setPhase i h .draining
  else s.setPhase i { h with addr := env.addr } .bound

/-- The record is written to a temporary file and renamed over `control.json`. -/
def writeDiscovery (s : System) (i : ℕ) (h : Host) (env : HostEnv) : System :=
  if env.fault then s.setPhase i h .draining
  else
    { s.setPhase i h .published with
      control := some ⟨h.discovery, i⟩
      files := s.files ++ [.wrote i s.lock] }

/-- The first half of the removal: the record is removed only if it is of this process. -/
def checkDiscovery (s : System) (i : ℕ) (h : Host) (env : HostEnv) : System :=
  match readDiscovery env.fault s.control with
  | some doc => if doc.pid = h.pid then s.setPhase i h .removing else s.setPhase i h .draining
  | none => s.setPhase i h .draining

def removeFile (s : System) (i : ℕ) (h : Host) (env : HostEnv) : System :=
  match s.control with
  | some file =>
      if env.fault then s.setPhase i h .draining
      else
        { s.setPhase i h .draining with
          control := none
          files := s.files ++ [.removed i file.writer s.lock] }
  | none => s.setPhase i h .draining

/-- The next step of a host, from the lock to the unlock. -/
def hostStep (s : System) (i : ℕ) (env : HostEnv) : System :=
  match s.hosts[i]? with
  | none => s
  | some h =>
      match h.phase with
      | .booted => s.acquireLock i h env
      | .locked => if env.fault then s.leave i h else s.setPhase i h .opened
      | .opened => s.bind i h env
      | .bound => s.writeDiscovery i h env
      | .published => s.setPhase i h (if env.fault then .closing else .serving)
      | .serving => s.setPhase i h .closing
      | .closing => s.checkDiscovery i h env
      | .removing => s.removeFile i h env
      | .draining => s.setPhase i h .dropped
      | .dropped => s.leave i h
      | .gone => s

/-- A host dies: the system releases its lock and its sockets, and the record stays. -/
def crash (s : System) (i : ℕ) : System :=
  match s.hosts[i]? with
  | none => s
  | some h => s.leave i h

/-- A host at a request that has reached it and that it has not handled yet. -/
def handle (s : System) (j : ℕ) (ok : Bool) : System :=
  match s.requests[j]? with
  | none => s
  | some r =>
      match s.hosts[r.host]? with
      | none => s
      | some h =>
          if h.phase.handles ∧ ∀ a ∈ s.handled, a.request ≠ j then
            { s with
              handled := s.handled ++ [⟨j, r.client, r.host, s.lock,
                if r.token = h.token then if ok then .success else .engineError
                else .unauthorized⟩] }
          else s

/-! ### Writes of the CLI -/

end System

/-- What a step of a client meets: a read, a spawn or a connection that fails, an answer that does
not come in time, a deadline that has passed, and the host that it starts. -/
structure ClientEnv where
  fault : Bool
  timeout : Bool
  deadline : Bool
  host : Host

namespace System

def setClient (s : System) (c : ℕ) (client : Client) : System :=
  { s with clients := s.clients.set c client }

def setClientPhase (s : System) (c : ℕ) (client : Client) (phase : ClientPhase) : System :=
  s.setClient c { client with phase := phase }

/-- No host was found: one is started, or waited for until the deadline. -/
def absent (s : System) (c : ℕ) (client : Client) (spawned : Bool) (env : ClientEnv) : System :=
  if spawned then
    s.setClientPhase c client (if env.deadline then .failed else .connecting true)
  else s.setClientPhase c client .starting

/-- A host was found if it answers for the token of its record, and also if it has accepted the
connection and does not answer in time. -/
def probe (s : System) (doc : Discovery) (timeout : Bool) : Bool :=
  match (s.hostAt doc.addr).bind fun j => s.hosts[j]? with
  | some h => timeout || (h.phase = .serving && h.token = doc.token)
  | none => false

/-- A call that was never sent is made once more. -/
def notSent (s : System) (c : ℕ) (client : Client) : System :=
  if client.retried then s.setClientPhase c client .failed
  else s.setClient c ⟨.connecting false, true⟩

/-- The call: it reaches the host that listens there, or it was never sent. -/
def call (s : System) (c : ℕ) (client : Client) (doc : Discovery) (env : ClientEnv) : System :=
  match s.hostAt doc.addr with
  | some j =>
      if env.timeout then s.notSent c client
      else
        { s.setClientPhase c client (.waiting s.requests.length) with
          requests := s.requests ++ [⟨c, j, doc.token⟩] }
  | none => s.notSent c client

/-- The answer to a request, or the loss of the connection. -/
def await (s : System) (c : ℕ) (client : Client) (request : ℕ) (env : ClientEnv) : System :=
  if env.fault then s.setClientPhase c client .failed
  else
    match s.handled.find? (·.request = request) with
    | some a =>
        s.setClientPhase c client (if a.outcome = .success then .succeeded else .failed)
    | none => s

/-- The next step of a write. -/
def clientStep (s : System) (c : ℕ) (env : ClientEnv) : System :=
  match s.clients[c]? with
  | none => s
  | some client =>
      match client.phase with
      | .connecting spawned =>
          match readDiscovery env.fault s.control with
          | some doc => s.setClientPhase c client (.probing spawned doc)
          | none => s.absent c client spawned env
      | .probing spawned doc =>
          if s.probe doc env.timeout then s.setClientPhase c client (.found doc)
          else s.absent c client spawned env
      | .starting =>
          if env.fault then s.setClientPhase c client .failed
          else
            { s.setClientPhase c client (.connecting true) with
              hosts := s.hosts ++ [{ env.host with autostarted := true, phase := .booted }] }
      | .found doc => s.call c client doc env
      | .waiting request => s.await c client request env
      | .succeeded | .failed => s

end System

/-- A new write, a new host, one step of one of them, a crash, or a host at a request. -/
inductive Act where
  | write
  | serve (host : Host)
  | host (i : ℕ) (env : HostEnv)
  | crash (i : ℕ)
  | client (c : ℕ) (env : ClientEnv)
  | handle (j : ℕ) (ok : Bool)

def System.step (s : System) : Act → System
  | .write => { s with clients := s.clients ++ [⟨.connecting false, false⟩] }
  | .serve host => { s with hosts := s.hosts ++ [{ host with phase := .booted }] }
  | .host i env => s.hostStep i env
  | .crash i => s.crash i
  | .client c env => s.clientStep c env
  | .handle j ok => s.handle j ok

/-! ### The invariant -/

/-- The call of the write has not been made, or it was never sent. -/
def ClientPhase.Unsent : ClientPhase → Prop
  | .connecting _ | .probing _ _ | .starting | .found _ => True
  | _ => False

/-- The file is written by the holder of the lock, and removed by its writer while it holds it. -/
def FileEvent.Sound : FileEvent → Prop
  | .wrote host holder => holder = some host
  | .removed host writer holder => holder = some host ∧ writer = host

/-- A host past the lock holds it, and a record that is there while the host has one is its own. -/
structure HostSound (lock : Option ℕ) (control : Option ControlFile) (i : ℕ) (h : Host) : Prop where
  lock : h.phase.holdsLock → lock = some i
  record : h.phase.recorded → ∀ file, control = some file → file.writer = i

/-- A write whose call is still to come has no request anywhere, and a write that waits or has
succeeded has its own. -/
structure ClientSound (requests : List Request) (handled : List Handled) (c : ℕ)
    (client : Client) : Prop where
  unsent : client.phase.Unsent → c ∉ requests.map Request.client
  waiting : ∀ r, client.phase = .waiting r → ∃ req, requests[r]? = some req ∧ req.client = c
  succeeded : client.phase = .succeeded → ∃ a ∈ handled, a.client = c ∧ a.outcome = .success

/-- The invariant. -/
structure Sound (s : System) : Prop where
  hosts : Slots.All (HostSound s.lock s.control) s.hosts
  clients : Slots.All (ClientSound s.requests s.handled) s.clients
  files : ∀ e ∈ s.files, e.Sound
  once : (s.requests.map Request.client).Nodup
  known : ∀ r ∈ s.requests, r.client < s.clients.length
  handledOnce : (s.handled.map Handled.request).Nodup
  handled : ∀ a ∈ s.handled, (∃ r, s.requests[a.request]? = some r ∧ r.client = a.client) ∧
    a.holder = some a.host

theorem HostPhase.holdsLock_of_recorded {phase : HostPhase} (h : phase.recorded = true) :
    phase.holdsLock = true := by
  cases phase <;> first | rfl | cases h

theorem HostPhase.holdsLock_of_handles {phase : HostPhase} (h : phase.handles = true) :
    phase.holdsLock = true := by
  cases phase <;> first | rfl | cases h

theorem HostPhase.holdsLock_of_engineOpen {phase : HostPhase} (h : phase.engineOpen = true) :
    phase.holdsLock = true := by
  cases phase <;> first | rfl | cases h

/-! ### The steps of a host -/

section Hosts

variable {s : System} {i : ℕ} {host host' : Host} {env : HostEnv}

/-- A host goes on; whoever else holds the lock keeps it, and with it the record. -/
theorem Sound.setHost {lock : Option ℕ} {control : Option ControlFile} {files : List FileEvent}
    (h : Sound s) (hlock : ∀ j, j ≠ i → s.lock = some j → lock = some j ∧ control = s.control)
    (hhost : HostSound lock control i host') (hfiles : ∀ e ∈ files, e.Sound) :
    Sound { s with
      hosts := s.hosts.set i host', lock := lock, control := control, files := files } := by
  refine ⟨Slots.All.set ?_ hhost, h.clients, hfiles, h.once, h.known, h.handledOnce, h.handled⟩
  intro j other hother hne
  obtain ⟨hheld, hrecord⟩ := h.hosts j other hother
  refine ⟨fun hholds => (hlock j hne (hheld hholds)).1, fun hrecorded file hfile => ?_⟩
  have hsame := (hlock j hne (hheld (HostPhase.holdsLock_of_recorded hrecorded))).2
  exact hrecord hrecorded file (hsame ▸ hfile)

/-- A step that touches neither the lock nor the file. -/
theorem Sound.setPhase {phase : HostPhase} (h : Sound s) (hi : s.hosts[i]? = some host)
    (hholds : phase.holdsLock = true → host.phase.holdsLock = true)
    (hrecorded : phase.recorded = true → host.phase.recorded = true) :
    Sound (s.setPhase i host' phase) := by
  obtain ⟨hlock, hrecord⟩ := h.hosts i host hi
  exact h.setHost (fun _ _ hj => ⟨hj, rfl⟩)
    ⟨fun hnew => hlock (hholds hnew), fun hnew => hrecord (hrecorded hnew)⟩ h.files

/-- A host that is gone holds nothing. -/
theorem Sound.leave (h : Sound s) : Sound (s.leave i host) := by
  refine h.setHost (fun j hne hj => ⟨?_, rfl⟩) ⟨nofun, nofun⟩ h.files
  rw [hj, if_neg fun heq => hne (Option.some.inj heq)]

theorem Sound.acquireLock (h : Sound s) (hi : s.hosts[i]? = some host) :
    Sound (s.acquireLock i host env) := by
  rw [System.acquireLock]
  split_ifs with hfree
  · refine h.setHost (fun j _ hj => ?_) ⟨fun _ => rfl, nofun⟩ h.files
    rw [hfree.1] at hj
    cases hj
  · exact h.setPhase hi nofun nofun

theorem Sound.bind (h : Sound s) (hi : s.hosts[i]? = some host) (hphase : host.phase = .opened) :
    Sound (s.bind i host env) := by
  rw [System.bind]
  split_ifs
  · exact h.setPhase hi (fun _ => hphase ▸ rfl) nofun
  · exact h.setPhase hi (fun _ => hphase ▸ rfl) nofun

theorem Sound.writeDiscovery (h : Sound s) (hi : s.hosts[i]? = some host)
    (hphase : host.phase = .bound) : Sound (s.writeDiscovery i host env) := by
  have hlock : s.lock = some i := (h.hosts i host hi).lock (hphase ▸ rfl)
  rw [System.writeDiscovery]
  split_ifs
  · exact h.setPhase hi (fun _ => hphase ▸ rfl) nofun
  · refine h.setHost (fun j hne hj => ?_) ⟨fun _ => hlock, fun _ file hfile => ?_⟩ ?_
    · exact absurd (Option.some.inj (hj.symm.trans hlock)) hne
    · obtain rfl := Option.some.inj hfile
      rfl
    · intro e he
      rcases List.mem_append.1 he with hold | hnew
      · exact h.files e hold
      · rw [List.mem_singleton.1 hnew]
        exact hlock

theorem Sound.checkDiscovery (h : Sound s) (hi : s.hosts[i]? = some host)
    (hphase : host.phase = .closing) : Sound (s.checkDiscovery i host env) := by
  have hholds : host.phase.holdsLock = true := hphase ▸ rfl
  have hrecorded : host.phase.recorded = true := hphase ▸ rfl
  rw [System.checkDiscovery]
  split
  · split_ifs
    · exact h.setPhase hi (fun _ => hholds) fun _ => hrecorded
    · exact h.setPhase hi (fun _ => hholds) nofun
  · exact h.setPhase hi (fun _ => hholds) nofun

/-- Between the check and the removal the lock is held, so the file is still the one checked. -/
theorem Sound.removeFile (h : Sound s) (hi : s.hosts[i]? = some host)
    (hphase : host.phase = .removing) : Sound (s.removeFile i host env) := by
  obtain ⟨hlock, hrecord⟩ := h.hosts i host hi
  have hheld : s.lock = some i := hlock (hphase ▸ rfl)
  rw [System.removeFile]
  split
  · next file hfile =>
      split_ifs
      · exact h.setPhase hi (fun _ => hphase ▸ rfl) nofun
      · refine h.setHost (fun j hne hj => ?_) ⟨fun _ => hheld, nofun⟩ ?_
        · exact absurd (Option.some.inj (hj.symm.trans hheld)) hne
        · intro e he
          rcases List.mem_append.1 he with hold | hnew
          · exact h.files e hold
          · rw [List.mem_singleton.1 hnew]
            exact ⟨hheld, hrecord (hphase ▸ rfl) file hfile⟩
  · exact h.setPhase hi (fun _ => hphase ▸ rfl) nofun

theorem Sound.hostStep (h : Sound s) (i : ℕ) (env : HostEnv) : Sound (s.hostStep i env) := by
  rw [System.hostStep]
  split
  · exact h
  · next host hi =>
      split
      · exact h.acquireLock hi
      · next hphase =>
          split_ifs
          · exact h.leave
          · exact h.setPhase hi (fun _ => hphase ▸ rfl) nofun
      · next hphase => exact h.bind hi hphase
      · next hphase => exact h.writeDiscovery hi hphase
      · next hphase => exact h.setPhase hi (fun _ => hphase ▸ rfl) fun _ => hphase ▸ rfl
      · next hphase => exact h.setPhase hi (fun _ => hphase ▸ rfl) fun _ => hphase ▸ rfl
      · next hphase => exact h.checkDiscovery hi hphase
      · next hphase => exact h.removeFile hi hphase
      · next hphase => exact h.setPhase hi (fun _ => hphase ▸ rfl) nofun
      · exact h.leave
      · exact h

theorem Sound.crash (h : Sound s) (i : ℕ) : Sound (s.crash i) := by
  rw [System.crash]
  split
  · exact h
  · exact h.leave

/-- A process that has just started holds nothing. -/
theorem Sound.addHost (h : Sound s) (hphase : host.phase = .booted) :
    Sound { s with hosts := s.hosts ++ [host] } := by
  refine ⟨h.hosts.append ⟨?_, ?_⟩, h.clients, h.files, h.once, h.known, h.handledOnce, h.handled⟩
  · rw [hphase]
    exact nofun
  · rw [hphase]
    exact nofun

end Hosts

/-! ### The steps of a write -/

section Clients

variable {s : System} {c : ℕ} {client : Client} {env : ClientEnv}

/-- A write goes on without a call. -/
theorem Sound.setClient {client' : Client} (h : Sound s)
    (hclient : ClientSound s.requests s.handled c client') : Sound (s.setClient c client') := by
  refine ⟨h.hosts, Slots.All.set (fun j other hother _ => h.clients j other hother) hclient,
    h.files, h.once, ?_, h.handledOnce, h.handled⟩
  intro r hr
  rw [System.setClient, List.length_set]
  exact h.known r hr

theorem clientSound_failed {requests : List Request} {handled : List Handled} (retried : Bool) :
    ClientSound requests handled c ⟨.failed, retried⟩ :=
  ⟨nofun, nofun, nofun⟩

/-- Looking for a host leaves a call unsent that was unsent. -/
theorem ClientSound.look {requests : List Request} {handled : List Handled} {phase : ClientPhase}
    {retried : Bool} (h : ClientSound requests handled c client) (hunsent : client.phase.Unsent)
    (hphase : phase.Unsent) : ClientSound requests handled c ⟨phase, retried⟩ := by
  refine ⟨fun _ => h.unsent hunsent, fun r hr => ?_, fun hr => ?_⟩
  · subst hr
    cases hphase
  · subst hr
    cases hphase

theorem Sound.look {phase : ClientPhase} (h : Sound s) (hc : s.clients[c]? = some client)
    (hunsent : client.phase.Unsent) (hphase : phase.Unsent) :
    Sound (s.setClientPhase c client phase) :=
  h.setClient ((h.clients c client hc).look hunsent hphase)

theorem Sound.absent {spawned : Bool} (h : Sound s) (hc : s.clients[c]? = some client)
    (hunsent : client.phase.Unsent) : Sound (s.absent c client spawned env) := by
  rw [System.absent]
  split_ifs
  · exact h.setClient (clientSound_failed _)
  · exact h.look hc hunsent trivial
  · exact h.look hc hunsent trivial

theorem Sound.notSent (h : Sound s) (hc : s.clients[c]? = some client)
    (hunsent : client.phase.Unsent) : Sound (s.notSent c client) := by
  rw [System.notSent]
  split_ifs
  · exact h.setClient (clientSound_failed _)
  · exact h.setClient ((h.clients c client hc).look hunsent trivial)

/-- The one request of a write: no other one of it is anywhere. -/
theorem Sound.call {doc : Discovery} (h : Sound s) (hc : s.clients[c]? = some client)
    (hunsent : client.phase.Unsent) : Sound (s.call c client doc env) := by
  rw [System.call]
  split
  · next j hj =>
      split_ifs
      · exact h.notSent hc hunsent
      · have hnone := (h.clients c client hc).unsent hunsent
        refine ⟨h.hosts, Slots.All.set ?_ ⟨nofun, ?_, nofun⟩, h.files, ?_, ?_, h.handledOnce, ?_⟩
        · intro d other hother hne
          obtain ⟨hd, hwaiting, hsucceeded⟩ := h.clients d other hother
          refine ⟨fun hother' hmem => ?_, fun r hr => ?_, hsucceeded⟩
          · rw [List.map_append, List.mem_append] at hmem
            rcases hmem with hold | hnew
            · exact hd hother' hold
            · exact hne (List.mem_singleton.1 hnew)
          · obtain ⟨req, hreq, hreq'⟩ := hwaiting r hr
            refine ⟨req, ?_, hreq'⟩
            exact (List.getElem?_append_left (List.getElem?_eq_some_iff.1 hreq).1).trans hreq
        · intro r hr
          cases hr
          exact ⟨_, List.getElem?_concat_length, rfl⟩
        · rw [List.map_append, List.map_singleton]
          refine List.nodup_append.2 ⟨h.once, List.nodup_singleton _, ?_⟩
          intro a ha b hb heq
          rw [heq, List.mem_singleton.1 hb] at ha
          exact hnone ha
        · intro r hr
          rw [System.setClientPhase, System.setClient, List.length_set]
          rcases List.mem_append.1 hr with hold | hnew
          · exact h.known r hold
          · rw [List.mem_singleton.1 hnew]
            exact (List.getElem?_eq_some_iff.1 hc).1
        · intro a ha
          obtain ⟨⟨r, hr, hclient⟩, hholder⟩ := h.handled a ha
          refine ⟨⟨r, ?_, hclient⟩, hholder⟩
          exact (List.getElem?_append_left (List.getElem?_eq_some_iff.1 hr).1).trans hr
  · exact h.notSent hc hunsent

/-- The answer that is awaited is to the write's own request. -/
theorem Sound.await {request : ℕ} (h : Sound s) (hc : s.clients[c]? = some client)
    (hphase : client.phase = .waiting request) : Sound (s.await c client request env) := by
  rw [System.await]
  split_ifs
  · exact h.setClient (clientSound_failed _)
  · split
    · next a ha =>
        split_ifs with hsuccess
        · have hmem := List.mem_of_find?_eq_some ha
          refine h.setClient ⟨nofun, nofun, fun _ => ⟨a, hmem, ?_, hsuccess⟩⟩
          obtain ⟨req, hreq, hown⟩ := (h.clients c client hc).waiting request hphase
          obtain ⟨⟨r, hr, hclient⟩, -⟩ := h.handled a hmem
          have hrequest : a.request = request := by simpa using List.find?_some ha
          rw [hrequest, hreq] at hr
          rw [← hclient, ← Option.some.inj hr]
          exact hown
        · exact h.setClient (clientSound_failed _)
    · exact h

theorem Sound.clientStep (h : Sound s) (c : ℕ) (env : ClientEnv) : Sound (s.clientStep c env) := by
  rw [System.clientStep]
  split
  · exact h
  · next client hc =>
      split
      · next spawned hphase =>
          have hunsent : client.phase.Unsent := hphase ▸ trivial
          split
          · exact h.look hc hunsent trivial
          · exact h.absent hc hunsent
      · next spawned doc hphase =>
          have hunsent : client.phase.Unsent := hphase ▸ trivial
          split_ifs
          · exact h.look hc hunsent trivial
          · exact h.absent hc hunsent
      · next hphase =>
          split_ifs
          · exact h.setClient (clientSound_failed _)
          · have hlook : Sound (s.setClientPhase c client (.connecting true)) :=
              h.look hc (hphase ▸ trivial) trivial
            exact hlook.addHost rfl
      · next doc hphase => exact h.call hc (hphase ▸ trivial)
      · next request hphase => exact h.await hc hphase
      · exact h
      · exact h

end Clients

/-! ### Every step -/

section Steps

variable {s : System}

/-- A request is handled once, by a host that holds the lock. -/
theorem Sound.addHandled {j : ℕ} {r : Request} {host : Host} (h : Sound s) (outcome : Outcome)
    (hr : s.requests[j]? = some r) (hhost : s.hosts[r.host]? = some host)
    (hphase : host.phase.handles = true) (hfresh : ∀ a ∈ s.handled, a.request ≠ j) :
    Sound { s with handled := s.handled ++ [⟨j, r.client, r.host, s.lock, outcome⟩] } := by
  refine ⟨h.hosts, h.clients.imp fun c client _ hclient => ?_, h.files, h.once, h.known, ?_, ?_⟩
  · refine ⟨hclient.unsent, hclient.waiting, fun hsucceeded => ?_⟩
    obtain ⟨a, ha, hown⟩ := hclient.succeeded hsucceeded
    exact ⟨a, List.mem_append_left _ ha, hown⟩
  · rw [List.map_append, List.map_singleton]
    refine List.nodup_append.2 ⟨h.handledOnce, List.nodup_singleton _, ?_⟩
    intro a ha b hb heq
    obtain ⟨d, hd, rfl⟩ := List.mem_map.1 ha
    exact hfresh d hd (heq.trans (List.mem_singleton.1 hb))
  · intro a ha
    rcases List.mem_append.1 ha with hold | hnew
    · exact h.handled a hold
    · rw [List.mem_singleton.1 hnew]
      exact ⟨⟨r, hr, rfl⟩, (h.hosts r.host host hhost).lock (HostPhase.holdsLock_of_handles hphase)⟩

theorem Sound.handle (h : Sound s) (j : ℕ) (ok : Bool) : Sound (s.handle j ok) := by
  rw [System.handle]
  split
  · exact h
  · next r hr =>
      split
      · exact h
      · next host hhost =>
          split
          · next hhandles => exact h.addHandled _ hr hhost hhandles.1 hhandles.2
          · exact h

/-- A new write has sent nothing. -/
theorem Sound.write (h : Sound s) :
    Sound { s with clients := s.clients ++ [⟨.connecting false, false⟩] } := by
  refine ⟨h.hosts, h.clients.append ⟨fun _ hmem => ?_, nofun, nofun⟩, h.files, h.once, ?_,
    h.handledOnce, h.handled⟩
  · obtain ⟨r, hr, hclient⟩ := List.mem_map.1 hmem
    exact absurd (h.known r hr) (by omega)
  · intro r hr
    have hlt := h.known r hr
    rw [List.length_append, List.length_singleton]
    omega

/-- **Every step keeps the invariant.** -/
theorem Sound.step (h : Sound s) (a : Act) : Sound (s.step a) := by
  cases a with
  | write => exact h.write
  | serve host => exact h.addHost rfl
  | host i env => exact h.hostStep i env
  | crash i => exact h.crash i
  | client c env => exact h.clientStep c env
  | handle j ok => exact h.handle j ok

theorem sound_fresh : Sound System.fresh :=
  ⟨.nil, .nil, List.forall_mem_nil _, List.nodup_nil, List.forall_mem_nil _, List.nodup_nil,
    List.forall_mem_nil _⟩

end Steps

/-! ### Runs -/

/-- The executions of a write: the times that a host handled a request of it past its token. -/
def System.executions (s : System) (c : ℕ) : List Handled :=
  s.handled.filter fun a => a.client = c ∧ a.outcome ≠ .unauthorized

/-- Two handlings of one write are of its one request, and so they are one. -/
theorem Sound.handled_unique {s : System} (h : Sound s) {a b : Handled} (ha : a ∈ s.handled)
    (hb : b ∈ s.handled) (hclient : a.client = b.client) : a = b := by
  obtain ⟨⟨r, hr, hra⟩, -⟩ := h.handled a ha
  obtain ⟨⟨r', hr', hrb⟩, -⟩ := h.handled b hb
  have hrequest : a.request = b.request := by
    have hlt : a.request < (s.requests.map Request.client).length := by
      rw [List.length_map]
      exact (List.getElem?_eq_some_iff.1 hr).1
    refine (List.getElem?_inj hlt h.once).1 ?_
    rw [List.getElem?_map, List.getElem?_map, hr, hr', Option.map_some, Option.map_some, hra, hrb,
      hclient]
  exact List.inj_on_of_nodup_map h.handledOnce ha hb hrequest

theorem Sound.executions_le {s : System} (h : Sound s) (c : ℕ) : (s.executions c).length ≤ 1 := by
  have hnodup : (s.executions c).Nodup := (List.Nodup.of_map _ h.handledOnce).filter _
  have hsame : ∀ a ∈ s.executions c, ∀ b ∈ s.executions c, a = b := by
    intro a ha b hb
    obtain ⟨ha, hac⟩ := List.mem_filter.1 ha
    obtain ⟨hb, hbc⟩ := List.mem_filter.1 hb
    exact h.handled_unique ha hb
      ((of_decide_eq_true hac).1.trans (of_decide_eq_true hbc).1.symm)
  rcases hl : s.executions c with _ | ⟨a, _ | ⟨b, l⟩⟩
  · simp
  · simp
  · rw [hl] at hnodup hsame
    have hab : a = b := hsame a (by simp) b (by simp)
    exact absurd (hab ▸ List.mem_cons_self) (List.nodup_cons.1 hnodup).1

/-- **One owner, its record, and writes that are executed at most once.**  Whatever hosts and writes
do in whatever order, and wherever a host crashes: two hosts with an open engine are one, and it
holds the lock; `control.json` is written by the holder of the lock and removed by its writer while
it holds it; and a write is executed at most once, by the holder of the lock, and exactly once if it
was reported as successful. -/
theorem one_owner (acts : List Act) :
    ∀ s ∈ Guarded.states System.step System.fresh acts,
      (∀ i j h h', s.hosts[i]? = some h → s.hosts[j]? = some h' → h.phase.engineOpen = true →
        h'.phase.engineOpen = true → i = j ∧ s.lock = some i) ∧
        (∀ e ∈ s.files, e.Sound) ∧
        (∀ c, (s.executions c).length ≤ 1 ∧ ∀ a ∈ s.executions c, a.holder = some a.host) ∧
        ∀ c client, s.clients[c]? = some client → client.phase = .succeeded →
          (s.executions c).length = 1 := by
  intro s hs
  have h : Sound s :=
    Guarded.invariant (fun _ a h _ => h.step a) sound_fresh (Guarded.meets_true acts) hs
  have hatMost (c : ℕ) : (s.executions c).length ≤ 1 := h.executions_le c
  refine ⟨?_, h.files, fun c => ⟨hatMost c, fun a ha => ?_⟩, ?_⟩
  · intro i j host host' hi hj hopen hopen'
    have hlock := (h.hosts i host hi).lock (HostPhase.holdsLock_of_engineOpen hopen)
    have hlock' := (h.hosts j host' hj).lock (HostPhase.holdsLock_of_engineOpen hopen')
    exact ⟨Option.some.inj (hlock.symm.trans hlock'), hlock⟩
  · exact (h.handled a (List.mem_filter.1 ha).1).2
  · intro c client hc hsucceeded
    obtain ⟨a, ha, hown, hsuccess⟩ := (h.clients c client hc).succeeded hsucceeded
    have hmem : a ∈ s.executions c := by
      refine List.mem_filter.2 ⟨ha, decide_eq_true ⟨hown, ?_⟩⟩
      rw [hsuccess]
      exact nofun
    have hpos := List.length_pos_of_mem hmem
    have := hatMost c
    omega

/-- A process of the host, with its token. -/
def process (pid : ℕ) (token : String) : Host := ⟨pid, 0, token, "0.1.0", false, .booted⟩

/-- The steps of a host up to serving, on an address. -/
def served (i addr : ℕ) : List Act := List.replicate 5 (.host i ⟨false, addr⟩)

/-- A step of a write when nothing fails; a host that it starts has this token. -/
def goOn (c : ℕ) (token : String) : Act := .client c ⟨false, false, false, process 20 token⟩

/-- A write finds a host that crashes before the call; it and another write both start a host, and
the call is made to the one that gets the lock. -/
def crashedBetween : List Act :=
  [.serve (process 10 "first")] ++ served 0 5000 ++ [.write, goOn 0 "", goOn 0 "", .crash 0,
    goOn 0 "", .write, goOn 1 "", goOn 1 "", goOn 1 "second", goOn 0 "", goOn 0 "",
    goOn 0 "third"] ++ served 1 6000 ++ served 2 7000 ++
    [goOn 0 "", goOn 0 "", goOn 0 "", .handle 0 true, goOn 0 ""]

def crashedBetweenRun : System := crashedBetween.foldl System.step System.fresh

theorem one_owner_crashedBetween :
    crashedBetweenRun.hosts.map Host.phase = [.gone, .serving, .gone] ∧
      crashedBetweenRun.clients[0]? = some ⟨.succeeded, true⟩ ∧
      (crashedBetweenRun.executions 0).length = 1 := by
  have hsucceeded : crashedBetweenRun.clients[0]? = some ⟨.succeeded, true⟩ := by decide +kernel
  refine ⟨by decide +kernel, hsucceeded, ?_⟩
  have hrun := one_owner crashedBetween crashedBetweenRun Guarded.last_mem_states
  exact hrun.2.2.2 0 _ hsucceeded rfl

end OneOwner

end Hekma
