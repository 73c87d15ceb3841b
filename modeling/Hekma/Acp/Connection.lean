/-
**The turns of an ACP connection** (`acp/connection.rs`).

One connection talks to one agent.  The threads of the engine send prompts through it; a reader
thread takes the lines of the agent and routes its responses, and tears the connection down when the
stream ends.  The one turn that may be in flight is a shared cell, which a sender holds from its
check until its prompt is written, and which the reader takes when a response has no waiter.  A
response with a foreign id empties this cell too, and the teardown empties it before it closes the
pipe.

Main definitions:

* `Acp.Conn`, `Acp.Step`, `Acp.step` — the connection and the locked steps of its threads;
* `Acp.openTurn` — the turn that is in flight, as the outcomes of prompts and responses tell it;
* `Acp.Serialized` — the turns are serialized;
* `Acp.InTurn` — no response with a foreign id is routed during a turn, and no prompt is written
  once the teardown has emptied the cell.

Main results:

* `Acp.inv_step` — what every step keeps;
* `Acp.turns_serialized` — in a run whose steps are all in turn, the turns are serialized.
-/

import Hekma.Lib.Guarded
import Hekma.Lib.Json

set_option relaxedAutoImplicit false
set_option autoImplicit false

namespace Hekma

namespace Acp

/-! ### Prompts and responses -/

/-- The child's input. -/
inductive StdinState where
  | noPipe
  | live
  | timedOut
  deriving DecidableEq, Repr

/-- What became of a write that had a live pipe. -/
inductive WriteOutcome where
  | done
  | timedOut
  | failed (detail : String)
  deriving DecidableEq, Repr

/-- Why a line was not written. -/
inductive WriteError where
  | timedOut
  | failed (detail : String)
  deriving DecidableEq, Repr

/-- Why a prompt was not sent. -/
inductive PromptError where
  | noSession
  | inFlight
  | timedOut
  | write (detail : String)
  deriving DecidableEq, Repr

def noPipeDetail : String :=
  "process control operation 'stdin' failed: no stdin pipe held for this handle"

/-- Write one line, bounded in time.  A pipe that timed out is never written to again. -/
def StdinState.writeLine (outcome : WriteOutcome) : StdinState → Except WriteError Unit × StdinState
  | .live =>
      match outcome with
      | .done => (.ok (), .live)
      | .timedOut => (.error .timedOut, .timedOut)
      | .failed detail => (.error (.failed detail), .live)
  | other => (.error (.failed noPipeDetail), other)

def WriteError.toPromptError : WriteError → PromptError
  | .timedOut => .timedOut
  | .failed detail => .write detail

/-- What a response carries: a result, or the text of its error code. -/
abbrev Outcome : Type := Except String Json

/-- The stop reason of a response to a prompt. -/
def stopReason (outcome : Outcome) : String :=
  (outcome.toOption.bind fun result =>
    (result.asObject.bind fun fields => fields.lookup "stopReason").bind Json.asStr).getD
    "<missing>"

/-- What the update of a session turned out to be. -/
inductive SessionUpdate where
  | unhandled (discriminator : String)
  | usageUpdate (used size : Option ℕ) (cost : Option (String × String))
  | content
  deriving DecidableEq, Repr

/-- A decoded message of the agent.  A permission request carries how it is denied. -/
inductive Inbound where
  | response (id : ℕ) (result : Json)
  | responseError (id : ℕ) (code : ℤ)
  | agentRequest (method denial : String)
  | notification (method : String) (update : SessionUpdate)

/-- What a line of the agent decodes to. -/
inductive Line where
  | blank
  | message (inbound : Inbound)
  | malformed (detail : String)

/-- What the reader tells the supervisor. -/
inductive AcpNotice where
  | malformedLine (lineNumber total : ℕ) (detail : String)
  | unhandledUpdate (discriminator : String) (total : ℕ)
  | unhandledAgentRequest (method : String)
  | permissionDenied (outcome : String)
  | usageUpdate (used size : Option ℕ) (cost : Option (String × String))
  | unexpectedResponse (id : ℕ)
  | ended (detail : String)
  deriving DecidableEq, Repr

def maxQueuedNotices : ℕ := 64

/-- The queue of the notices, and how many it has lost. -/
structure Notices where
  queued : List AcpNotice
  dropped : ℕ
  deriving DecidableEq, Repr

/-- Queue a notice; a full queue loses its oldest one. -/
def Notices.push (n : Notices) (notice : AcpNotice) : Notices :=
  if maxQueuedNotices ≤ n.queued.length then ⟨n.queued.tail ++ [notice], n.dropped + 1⟩
  else ⟨n.queued ++ [notice], n.dropped⟩

/-! ### The connection -/

/-- How far the reader is: at the head of its loop, in the read of a line, with a response that has
no waiter, or in the teardown. -/
inductive Phase where
  | head
  | reading
  | routing (id : ℕ) (outcome : Outcome)
  | ended
  | pendingTaken
  | cleared
  | finished

/-- What the reader counts. -/
structure Counts where
  lineNumber : ℕ
  malformedTotal : ℕ
  unhandledTotal : ℕ
  deriving DecidableEq, Repr

/-- A prompt whose sender holds the cell of the turn. -/
structure Prompt where
  id : ℕ
  text : String
  written : Bool
  deriving DecidableEq, Repr

/-- What senders and responses come to, in the order of their locked steps. -/
inductive Event where
  | accepted (id : ℕ)
  | refused (error : PromptError)
  | answered (id : ℕ)
  | completed (id : ℕ) (stopReason : String)
  | unexpected (id : ℕ)
  | ended
  | finished
  deriving DecidableEq, Repr

/-- The connection, with the events so far. -/
structure Conn where
  stdin : StdinState
  pending : List ℕ
  nextId : ℕ
  sessionId : Option String
  promptId : Option ℕ
  shutdown : Bool
  notices : Notices
  contextUsage : Option (Option ℕ × Option ℕ × Option (String × String))
  capture : Bool
  /-- The lines of the engine in the attributed output. -/
  lines : List String
  /-- Who holds the cell of the turn, between its check and its end. -/
  sender : Option Prompt
  phase : Phase
  counts : Counts
  log : List Event

def start (capture : Bool) : Conn where
  stdin := .live
  pending := []
  nextId := 1
  sessionId := none
  promptId := none
  shutdown := false
  notices := ⟨[], 0⟩
  contextUsage := none
  capture := capture
  lines := []
  sender := none
  phase := .head
  counts := ⟨0, 0, 0⟩
  log := []

namespace Conn

def note (c : Conn) (event : Event) : Conn := { c with log := c.log ++ [event] }

def pushNotice (c : Conn) (notice : AcpNotice) : Conn :=
  { c with notices := c.notices.push notice }

/-- Write a line and forget what became of it. -/
def writeLine (c : Conn) (outcome : WriteOutcome) : Conn :=
  { c with stdin := (c.stdin.writeLine outcome).2 }

/-- Mint a request id. -/
def mint (c : Conn) : Conn := { c with nextId := c.nextId + 1 }

/-! #### Senders -/

/-- A sender takes the cell of the turn and checks it; it keeps it for an empty cell. -/
def sendPrompt (c : Conn) (text : String) : Conn :=
  match c.sessionId with
  | none => c.note (.refused .noSession)
  | some _ =>
      match c.promptId with
      | some _ => c.note (.refused .inFlight)
      | none => { c.mint with sender := some ⟨c.nextId, text, false⟩ }

/-- The sender that holds the cell writes its prompt. -/
def writePrompt (c : Conn) (prompt : Prompt) (outcome : WriteOutcome) : Conn :=
  match (c.stdin.writeLine outcome).1 with
  | .ok () => { c.writeLine outcome with sender := some { prompt with written := true } }
  | .error e => { (c.writeLine outcome).note (.refused e.toPromptError) with sender := none }

/-- The sender fills the cell and lets go of it. -/
def acceptPrompt (c : Conn) (prompt : Prompt) : Conn :=
  { c.note (.accepted prompt.id) with promptId := some prompt.id, sender := none }

/-! #### The reader -/

/-- A response goes to the waiter of its id; without one it is routed on. -/
def takeResponse (c : Conn) (id : ℕ) (outcome : Outcome) : Conn :=
  if id ∈ c.pending then { c.note (.answered id) with pending := c.pending.filter (· ≠ id) }
  else { c with phase := .routing id outcome }

/-- Route one message of the agent, up to the cell of the turn. -/
def routeInbound (c : Conn) (outcome : WriteOutcome) : Inbound → Conn
  | .response id result => c.takeResponse id (.ok result)
  | .responseError id code =>
      c.takeResponse id (.error ("error response (code " ++ toString code ++ ")"))
  | .agentRequest method denial =>
      if method = "session/request_permission" then
        (c.writeLine outcome).pushNotice (.permissionDenied denial)
      else (c.writeLine outcome).pushNotice (.unhandledAgentRequest method)
  | .notification method update =>
      let unhandled (discriminator : String) : Conn :=
        { c.pushNotice (.unhandledUpdate discriminator (c.counts.unhandledTotal + 1)) with
          counts := { c.counts with unhandledTotal := c.counts.unhandledTotal + 1 } }
      if method = "session/update" then
        match update with
        | .unhandled discriminator => unhandled discriminator
        | .usageUpdate used size cost =>
            { c.pushNotice (.usageUpdate used size cost) with
              contextUsage := some (used, size, cost) }
        | .content => c
      else unhandled ("<notification:" ++ method ++ ">")

/-- Take one line of the agent. -/
def inbound (c : Conn) (line : Line) (outcome : WriteOutcome) : Conn :=
  let counts := { c.counts with lineNumber := c.counts.lineNumber + 1 }
  let c := { c with counts := counts, phase := .head }
  match line with
  | .blank => c
  | .message message => c.routeInbound outcome message
  | .malformed detail =>
      { c.pushNotice (.malformedLine counts.lineNumber (counts.malformedTotal + 1) detail) with
        counts := { counts with malformedTotal := counts.malformedTotal + 1 } }

/-- Empty the cell of the turn for a response: it completes the turn of its id. -/
def routeResponse (c : Conn) (id : ℕ) (outcome : Outcome) : Conn :=
  let taken := { c with promptId := none, phase := .head }
  if c.promptId = some id then
    { taken.note (.completed id (stopReason outcome)) with
      lines := if c.capture then
        c.lines ++ ["acp: turn complete (stopReason: " ++ stopReason outcome ++ ")"] else c.lines }
  else (taken.note (.unexpected id)).pushNotice (.unexpectedResponse id)

end Conn

/-- Look at the shutdown flag, at the head of the loop. -/
def Conn.checkShutdown (c : Conn) : Conn :=
  if c.shutdown then { c.note .ended with phase := .ended } else { c with phase := .reading }

/-- The read of a line finds the end of the stream, or fails. -/
def Conn.endStream (c : Conn) (readError : Option String) : Conn :=
  let detail := readError.elim "end of stream (the agent closed stdout or exited)"
    fun error => "stdout read failed: " ++ error
  { (c.pushNotice (.ended detail)).note .ended with phase := .ended }

/-- Dropping a handle of the connection closes the pipe. -/
def Conn.drop (c : Conn) : Conn := { c with shutdown := true, stdin := .noPipe }

/-- The locked steps of the threads.  Those that need the cell of the turn wait for its holder. -/
inductive Step where
  | sendPrompt (text : String)
  | writePrompt (outcome : WriteOutcome)
  | acceptPrompt
  | handshake
  | setSession (sessionId : String)
  | writeLine (outcome : WriteOutcome)
  | dropHandle
  | drainNotices
  | inbound (line : Line) (outcome : WriteOutcome)
  | routeResponse
  | checkShutdown
  | endStream (readError : Option String)
  | takePending
  | clearPrompt
  | close

/-- One locked step.  A step that is not enabled does nothing. -/
def step (c : Conn) : Step → Conn
  | .sendPrompt text => if c.sender = none then c.sendPrompt text else c
  | .writePrompt outcome =>
      match c.sender with
      | some prompt => if prompt.written then c else c.writePrompt prompt outcome
      | none => c
  | .acceptPrompt =>
      match c.sender with
      | some prompt => if prompt.written then c.acceptPrompt prompt else c
      | none => c
  | .handshake => { c.mint with pending := c.nextId :: c.pending }
  | .setSession sessionId => { c with sessionId := some sessionId }
  | .writeLine outcome => c.writeLine outcome
  | .dropHandle => c.drop
  | .drainNotices => { c with notices := ⟨[], 0⟩ }
  | .inbound line outcome =>
      match c.phase with
      | .reading => c.inbound line outcome
      | _ => c
  | .routeResponse =>
      match c.phase with
      | .routing id outcome => if c.sender = none then c.routeResponse id outcome else c
      | _ => c
  | .checkShutdown =>
      match c.phase with
      | .head => c.checkShutdown
      | _ => c
  | .endStream readError =>
      match c.phase with
      | .reading => c.endStream readError
      | _ => c
  | .takePending =>
      match c.phase with
      | .ended => { c with pending := [], phase := .pendingTaken }
      | _ => c
  | .clearPrompt =>
      match c.phase with
      | .pendingTaken =>
          if c.sender = none then { c with promptId := none, phase := .cleared } else c
      | _ => c
  | .close =>
      match c.phase with
      | .cleared => { c.drop.note .finished with phase := .finished }
      | _ => c

/-! ### What is promised -/

/-- What an event makes of the turn in flight: an accepted prompt begins one, its response ends
it. -/
def turnAfter (turn : Option ℕ) : Event → Option ℕ
  | .accepted id => some id
  | .completed id _ => if turn = some id then none else turn
  | _ => turn

/-- The turn in flight after some events; there is none after the end of the stream. -/
def openTurn (log : List Event) : Option ℕ :=
  if .ended ∈ log then none else log.foldl turnAfter none

/-- The event is what a call of `send_prompt` comes to. -/
def Event.isPrompt : Event → Bool
  | .accepted _ => true
  | .refused _ => true
  | _ => false

/-- The id of the response the event is about. -/
def Event.response : Event → Option ℕ
  | .answered id => some id
  | .completed id _ => some id
  | .unexpected id => some id
  | _ => none

/-- The line of the output that records the end of a turn. -/
def Event.turnLine : Event → Option String
  | .completed _ stopReason => some ("acp: turn complete (stopReason: " ++ stopReason ++ ")")
  | _ => none

/-- The turns are serialized. -/
structure Serialized (c : Conn) : Prop where
  /-- While a turn is in flight, every prompt is refused. -/
  refused : ∀ before e after id, c.log = before ++ e :: after → openTurn before = some id →
    e.isPrompt → e = .refused .inFlight
  /-- The first response with the id of the turn completes it. -/
  completes : ∀ before e after id, c.log = before ++ e :: after → openTurn before = some id →
    e.response = some id → ∃ stopReason, e = .completed id stopReason
  /-- No turn is completed by a response with another id, or twice. -/
  others : ∀ before after id stopReason, c.log = before ++ .completed id stopReason :: after →
    openTurn before = some id ∧ ∀ stopReason', .completed id stopReason' ∉ after
  /-- The stop reasons are recorded. -/
  recorded : c.lines = if c.capture then c.log.filterMap Event.turnLine else []
  /-- Until the stream has ended, the cell holds the turn in flight. -/
  cell : .ended ∉ c.log → c.promptId = openTurn c.log
  /-- Once the teardown has finished, no turn is in flight, and none becomes so. -/
  dead : ∀ before after, c.log = before ++ .finished :: after →
    c.promptId = none ∧ ∀ id, .accepted id ∉ after

/-- The step routes no response with a foreign id during a turn, and it writes no prompt between the
emptying of the cell and the closing of the pipe. -/
def InTurn (c : Conn) : Step → Prop
  | .routeResponse =>
      ∀ id outcome turn, c.phase = .routing id outcome → c.promptId = some turn → id = turn
  | .writePrompt outcome => c.phase = .cleared → (c.stdin.writeLine outcome).1 ≠ .ok ()
  | _ => True

/-! ### Traces -/

variable {log : List Event} {e : Event} {c c' : Conn}

/-- The next event fits what came before. -/
structure Fits (log : List Event) (e : Event) : Prop where
  refused : ∀ id, openTurn log = some id → e.isPrompt → e = .refused .inFlight
  completes : ∀ id, openTurn log = some id → e.response = some id →
    ∃ stopReason, e = .completed id stopReason
  others : ∀ id stopReason, e = .completed id stopReason →
    openTurn log = some id ∧ ∀ stopReason', .completed id stopReason' ∉ log
  dead : .finished ∈ log → ∀ id, e ≠ .accepted id

/-- Every event fits what came before it. -/
def Good (log : List Event) : Prop :=
  ∀ before e after, log = before ++ e :: after → Fits before e

theorem good_nil : Good [] := by
  intro before e after h
  simp at h

theorem Good.snoc (h : Good log) (he : Fits log e) : Good (log ++ [e]) := by
  intro before e' after hsplit
  rcases List.eq_nil_or_concat after with rfl | ⟨after, last, rfl⟩
  · obtain ⟨rfl, hlast⟩ := List.append_inj' hsplit rfl
    obtain rfl := List.singleton_inj.1 hlast
    exact he
  · have hsplit' : log ++ [e] = (before ++ e' :: after) ++ [last] := by
      rw [hsplit, List.concat_eq_append, List.append_assoc, List.cons_append]
    exact h before e' after (List.append_inj' hsplit' rfl).1

theorem openTurn_snoc (hlog : .ended ∉ log ++ [e]) :
    openTurn (log ++ [e]) = turnAfter (openTurn log) e := by
  have hold : .ended ∉ log := fun h => hlog (List.mem_append_left _ h)
  rw [openTurn, openTurn, if_neg hlog, if_neg hold, List.foldl_append]
  rfl

/-- While a turn is in flight, the stream has not ended. -/
theorem notMem_of_openTurn {id : ℕ} (h : openTurn log = some id) : .ended ∉ log := by
  intro hmem
  rw [openTurn, if_pos hmem] at h
  cases h

/-! ### The invariant -/

/-- The teardown has begun. -/
def Phase.teardown : Phase → Bool
  | .head | .reading | .routing _ _ => false
  | .ended | .pendingTaken | .cleared | .finished => true

/-- The id of the turn an event is about. -/
def Event.turnId : Event → Option ℕ
  | .accepted id => some id
  | .completed id _ => some id
  | _ => none

/-- The id is that of a prompt: it was minted, and it has no waiter. -/
structure Minted (c : Conn) (id : ℕ) : Prop where
  lt : id < c.nextId
  waiter : id ∉ c.pending

/-- What holds of the books of the connection: its events, and the ids it has given out. -/
structure Booked (c : Conn) : Prop where
  good : Good c.log
  recorded : c.lines = if c.capture then c.log.filterMap Event.turnLine else []
  pending : ∀ id ∈ c.pending, id < c.nextId
  logged : ∀ e ∈ c.log, ∀ id, e.turnId = some id → id < c.nextId
  prompt : ∀ id, c.promptId = some id →
    Minted c id ∧ (∀ stopReason, .completed id stopReason ∉ c.log) ∧ c.sessionId ≠ none
  sender : ∀ p, c.sender = some p →
    c.promptId = none ∧ Minted c p.id ∧ (∀ e ∈ c.log, e.turnId ≠ some p.id) ∧ c.sessionId ≠ none

/-- What holds of the connection between two steps. -/
structure Inv (c : Conn) : Prop extends Booked c where
  cell : .ended ∉ c.log → c.promptId = openTurn c.log
  ended : .ended ∈ c.log ↔ c.phase.teardown
  finished : .finished ∈ c.log ↔ c.phase = .finished
  cleared : c.phase = .cleared ∨ c.phase = .finished →
    c.promptId = none ∧ ∀ p, c.sender = some p → p.written = false
  closed : c.phase = .finished → c.stdin = .noPipe

theorem inv_start (capture : Bool) : Inv (start capture) where
  good := good_nil
  recorded := by cases capture <;> rfl
  cell := fun _ => rfl
  ended := by simp [start, Phase.teardown]
  finished := by simp [start]
  cleared := by simp [start]
  closed := by simp [start]
  pending := by simp [start]
  logged := by simp [start]
  prompt := by simp [start]
  sender := by simp [start]

/-- The step leaves alone what the invariant is about. -/
structure Quiet (c c' : Conn) : Prop where
  log : c'.log = c.log
  lines : c'.lines = c.lines ∧ c'.capture = c.capture
  promptId : c'.promptId = c.promptId
  sender : c'.sender = c.sender
  ids : c'.pending = c.pending ∧ c'.nextId = c.nextId
  session : c.sessionId ≠ none → c'.sessionId ≠ none
  stdin : c.stdin = .noPipe → c'.stdin = .noPipe
  phase : c'.phase = c.phase ∨ c.phase.teardown = false ∧ c'.phase.teardown = false

theorem Quiet.trans {c'' : Conn} (h : Quiet c c') (h' : Quiet c' c'') : Quiet c c'' where
  log := h'.log.trans h.log
  lines := ⟨h'.lines.1.trans h.lines.1, h'.lines.2.trans h.lines.2⟩
  promptId := h'.promptId.trans h.promptId
  sender := h'.sender.trans h.sender
  ids := ⟨h'.ids.1.trans h.ids.1, h'.ids.2.trans h.ids.2⟩
  session := fun hs => h'.session (h.session hs)
  stdin := fun hs => h'.stdin (h.stdin hs)
  phase := by
    rcases h.phase with hp | ⟨hp, hp'⟩ <;> rcases h'.phase with hq | ⟨hq, hq'⟩
    · exact .inl (hq.trans hp)
    · exact .inr ⟨by rw [← hp]; exact hq, hq'⟩
    · exact .inr ⟨hp, by rw [hq]; exact hp'⟩
    · exact .inr ⟨hp, hq'⟩

theorem Inv.quiet (h : Inv c) (hq : Quiet c c') : Inv c' := by
  have hover : c'.phase.teardown = c.phase.teardown := by
    rcases hq.phase with hp | ⟨hp, hp'⟩
    · rw [hp]
    · rw [hp, hp']
  have hphase : ∀ q : Phase, q.teardown = true → (c'.phase = q ↔ c.phase = q) := by
    intro q hover
    rcases hq.phase with hp | ⟨hp, hp'⟩
    · rw [hp]
    · constructor <;> rintro rfl <;> simp_all
  have hminted : ∀ id, Minted c id → Minted c' id := fun id hid =>
    ⟨by rw [hq.ids.2]; exact hid.lt, by rw [hq.ids.1]; exact hid.waiter⟩
  exact
    { good := by rw [hq.log]; exact h.good
      recorded := by rw [hq.log, hq.lines.1, hq.lines.2]; exact h.recorded
      cell := by rw [hq.log, hq.promptId]; exact h.cell
      ended := by rw [hq.log, hover]; exact h.ended
      finished := by rw [hq.log, hphase .finished rfl]; exact h.finished
      cleared := by
        rw [hphase .cleared rfl, hphase .finished rfl, hq.promptId, hq.sender]
        exact h.cleared
      closed := by
        rw [hphase .finished rfl]
        exact fun hf => hq.stdin (h.closed hf)
      pending := by rw [hq.ids.1, hq.ids.2]; exact h.pending
      logged := by rw [hq.log, hq.ids.2]; exact h.logged
      prompt := by
        intro id hid
        rw [hq.promptId] at hid
        obtain ⟨hm, hlog, hs⟩ := h.prompt id hid
        exact ⟨hminted id hm, by rw [hq.log]; exact hlog, hq.session hs⟩
      sender := by
        intro p hp
        rw [hq.sender] at hp
        obtain ⟨hn, hm, hlog, hs⟩ := h.sender p hp
        exact ⟨hq.promptId.trans hn, hminted _ hm, by rw [hq.log]; exact hlog, hq.session hs⟩ }

/-! ### The steps -/

/-- The turn in flight is the one in the cell. -/
theorem Inv.promptId_of_open (h : Inv c) {id : ℕ} (hopen : openTurn c.log = some id) :
    c.promptId = some id :=
  (h.cell (notMem_of_openTurn hopen)).trans hopen

/-- An event that is not about a turn leaves the books in order. -/
theorem Booked.note (h : Booked c) (hfits : Fits c.log e) (hid : e.turnId = none) :
    Booked (c.note e) := by
  have hmem : ∀ x ∈ c.log ++ [e], ∀ id, x.turnId = some id → x ∈ c.log := by
    intro x hx id hxid
    rcases List.mem_append.1 hx with hx | hx
    · exact hx
    · rw [List.mem_singleton.1 hx, hid] at hxid
      cases hxid
  have hlines : (c.log ++ [e]).filterMap Event.turnLine = c.log.filterMap Event.turnLine := by
    have hline : e.turnLine = none := by
      cases e <;> first | rfl | cases hid
    simp [List.filterMap_append, hline]
  exact
    { good := h.good.snoc hfits
      recorded := h.recorded.trans (by rw [← hlines]; rfl)
      pending := h.pending
      logged := fun x hx id hxid => h.logged x (hmem x hx id hxid) id hxid
      prompt := fun id hp => by
        obtain ⟨hm, hlog, hs⟩ := h.prompt id hp
        exact ⟨⟨hm.lt, hm.waiter⟩, fun reason hx => hlog reason (hmem _ hx id rfl), hs⟩
      sender := fun p hp => by
        obtain ⟨hn, hm, hlog, hs⟩ := h.sender p hp
        exact ⟨hn, ⟨hm.lt, hm.waiter⟩, fun x hx hxid => hlog x (hmem x hx _ hxid) hxid, hs⟩ }

/-- An event that is about neither a turn nor the stream. -/
theorem Inv.note (h : Inv c) (hfits : Fits c.log e)
    (he : (∃ error, e = .refused error) ∨ (∃ id, e = .answered id) ∨ ∃ id, e = .unexpected id) :
    Inv (c.note e) := by
  have hplain : e.turnId = none ∧ e ≠ .ended ∧ e ≠ .finished ∧
      ∀ turn, turnAfter turn e = turn := by
    rcases he with ⟨error, rfl⟩ | ⟨id, rfl⟩ | ⟨id, rfl⟩ <;> exact ⟨rfl, nofun, nofun, fun _ => rfl⟩
  obtain ⟨hid, hended, hfinished, hturn⟩ := hplain
  exact
    { h.toBooked.note hfits hid with
      cell := fun hlog => by
        have hold := h.cell fun hm => hlog (List.mem_append_left _ hm)
        exact hold.trans ((openTurn_snoc hlog).trans (hturn _)).symm
      ended := by
        refine Iff.trans ?_ h.ended
        simp [Conn.note, hended.symm]
      finished := by
        refine Iff.trans ?_ h.finished
        simp [Conn.note, hfinished.symm]
      cleared := h.cleared
      closed := h.closed }

/-- A prompt is refused while a turn is in flight, and only then for being so. -/
theorem Inv.refuse (h : Inv c) {error : PromptError}
    (herror : c.promptId = none ∨ error = .inFlight) : Inv (c.note (.refused error)) := by
  refine h.note ⟨fun id hopen _ => ?_, fun id _ hr => ?_, fun id reason he => ?_,
    fun _ id he => ?_⟩ (.inl ⟨error, rfl⟩)
  · rcases herror with hnone | rfl
    · rw [h.promptId_of_open hopen] at hnone
      cases hnone
    · rfl
  · cases hr
  · cases he
  · cases he

/-- The holder of the cell lets go of it. -/
theorem Inv.release (h : Inv c) : Inv { c with sender := none } :=
  { h with
    cleared := fun hphase => ⟨(h.cleared hphase).1, fun p hp => by cases hp⟩
    prompt := fun id hid => by
      obtain ⟨hm, hrest⟩ := h.prompt id hid
      exact ⟨⟨hm.lt, hm.waiter⟩, hrest⟩
    sender := fun p hp => by cases hp }

theorem quiet_writeLine (c : Conn) (outcome : WriteOutcome) : Quiet c (c.writeLine outcome) := by
  refine ⟨rfl, ⟨rfl, rfl⟩, rfl, rfl, ⟨rfl, rfl⟩, id, fun hs => ?_, .inl rfl⟩
  simp [Conn.writeLine, hs, StdinState.writeLine]

/-- An id that is minted anew is that of no prompt, waiter or event. -/
theorem Inv.mint (h : Inv c) : Inv c.mint :=
  { h with
    pending := fun id hid => Nat.lt_succ_of_lt (h.pending id hid)
    logged := fun e he id hid => Nat.lt_succ_of_lt (h.logged e he id hid)
    prompt := fun id hid => by
      obtain ⟨hm, hrest⟩ := h.prompt id hid
      exact ⟨⟨Nat.lt_succ_of_lt hm.lt, hm.waiter⟩, hrest⟩
    sender := fun p hp => by
      obtain ⟨hn, hm, hrest⟩ := h.sender p hp
      exact ⟨hn, ⟨Nat.lt_succ_of_lt hm.lt, hm.waiter⟩, hrest⟩ }

theorem Inv.sendPrompt (h : Inv c) (text : String) : Inv (c.sendPrompt text) := by
  unfold Conn.sendPrompt
  cases hsession : c.sessionId with
  | none =>
      refine h.refuse (.inl ?_)
      cases hp : c.promptId with
      | none => rfl
      | some id => exact absurd hsession (h.prompt id hp).2.2
  | some sessionId =>
      cases hp : c.promptId with
      | some id => exact h.refuse (.inr rfl)
      | none =>
          have hmint := h.mint
          exact
            { hmint with
              cleared := fun hphase => ⟨(h.cleared hphase).1, fun p hsender => by
                obtain rfl := Option.some.inj hsender
                rfl⟩
              prompt := fun id hid => by
                obtain ⟨hm, hrest⟩ := hmint.prompt id hid
                exact ⟨⟨hm.lt, hm.waiter⟩, hrest⟩
              sender := fun p hsender => by
                obtain rfl := Option.some.inj hsender
                refine ⟨hp, ⟨Nat.lt_succ_self _, fun hmem => ?_⟩, fun e he hid => ?_, ?_⟩
                · exact lt_irrefl _ (h.pending _ hmem)
                · exact lt_irrefl _ (h.logged e he _ hid)
                · exact fun hnone => by simp [Conn.mint, hsession] at hnone }

/-- A prompt is written by the holder of the cell, not after the teardown has emptied it. -/
theorem Inv.writePrompt (h : Inv c) {prompt : Prompt} (hsender : c.sender = some prompt)
    {outcome : WriteOutcome} (hturn : InTurn c (.writePrompt outcome)) :
    Inv (c.writePrompt prompt outcome) := by
  have hquiet := h.quiet (quiet_writeLine c outcome)
  unfold Conn.writePrompt
  cases hwrite : (c.stdin.writeLine outcome).1 with
  | error error =>
      exact (hquiet.refuse (.inl (h.sender prompt hsender).1)).release
  | ok _ =>
      have hphase : ¬ (c.phase = .cleared ∨ c.phase = .finished) := by
        rintro (hcleared | hfinished)
        · exact hturn hcleared hwrite
        · rw [h.closed hfinished] at hwrite
          cases hwrite
      exact
        { hquiet with
          cleared := fun hp => absurd hp hphase
          prompt := fun id hid => by
            obtain ⟨hm, hrest⟩ := hquiet.prompt id hid
            exact ⟨⟨hm.lt, hm.waiter⟩, hrest⟩
          sender := fun p hp => by
            obtain rfl := Option.some.inj hp
            obtain ⟨hn, hm, hrest⟩ := hquiet.sender prompt hsender
            exact ⟨hn, ⟨hm.lt, hm.waiter⟩, hrest⟩ }

/-- The holder of the cell fills it: no turn is in flight, and the teardown has not emptied it. -/
theorem Inv.acceptPrompt (h : Inv c) {prompt : Prompt} (hsender : c.sender = some prompt)
    (hwritten : prompt.written = true) : Inv (c.acceptPrompt prompt) := by
  obtain ⟨hnone, hminted, hnew, hsession⟩ := h.sender prompt hsender
  have hphase : ¬ (c.phase = .cleared ∨ c.phase = .finished) := by
    intro hphase
    rw [(h.cleared hphase).2 prompt hsender] at hwritten
    cases hwritten
  have hopen : ∀ id, openTurn c.log ≠ some id := by
    intro id hopen
    rw [h.promptId_of_open hopen] at hnone
    cases hnone
  have hfits : Fits c.log (.accepted prompt.id) :=
    ⟨fun id ho _ => absurd ho (hopen id), fun id ho _ => absurd ho (hopen id), nofun,
      fun hfinished _ _ => hphase (.inr (h.finished.1 hfinished))⟩
  have hmem : ∀ x ∈ c.log ++ [Event.accepted prompt.id],
      x ∈ c.log ∨ x = .accepted prompt.id := by
    intro x hx
    simpa using hx
  exact
    { good := h.good.snoc hfits
      recorded := by
        refine h.recorded.trans ?_
        simp [Conn.acceptPrompt, Conn.note, List.filterMap_append, List.filterMap_cons,
          Event.turnLine]
      cell := fun hlog => (openTurn_snoc hlog).symm
      ended := by
        refine Iff.trans ?_ h.ended
        simp [Conn.acceptPrompt, Conn.note]
      finished := by
        refine Iff.trans ?_ h.finished
        simp [Conn.acceptPrompt, Conn.note]
      cleared := fun hp => absurd hp hphase
      closed := h.closed
      pending := h.pending
      logged := by
        intro x hx id hid
        rcases hmem x hx with hx | rfl
        · exact h.logged x hx id hid
        · obtain rfl := Option.some.inj hid
          exact hminted.lt
      prompt := by
        intro id hid
        obtain rfl := Option.some.inj hid
        refine ⟨⟨hminted.lt, hminted.waiter⟩, fun reason hx => ?_, hsession⟩
        rcases hmem _ hx with hx | hx
        · exact hnew _ hx rfl
        · cases hx
      sender := fun p hp => by cases hp }

/-- A response with a waiter is not that of the turn in flight. -/
theorem Inv.takeResponse (h : Inv c) (hphase : c.phase.teardown = false) (id : ℕ)
    (outcome : Outcome) : Inv (c.takeResponse id outcome) := by
  unfold Conn.takeResponse
  split
  · rename_i hwaiter
    have hfits : Fits c.log (.answered id) := by
      refine ⟨fun _ _ => nofun, fun turn hopen hid => ?_, nofun, fun _ _ => nofun⟩
      obtain rfl := Option.some.inj hid
      exact absurd hwaiter (h.prompt _ (h.promptId_of_open hopen)).1.waiter
    have hnoted := h.note hfits (.inr (.inl ⟨id, rfl⟩))
    exact
      { hnoted with
        pending := fun i hi => h.pending i (List.mem_filter.1 hi).1
        prompt := fun i hi => by
          obtain ⟨hm, hrest⟩ := hnoted.prompt i hi
          exact ⟨⟨hm.lt, fun hmem => hm.waiter (List.mem_filter.1 hmem).1⟩, hrest⟩
        sender := fun p hp => by
          obtain ⟨hn, hm, hrest⟩ := hnoted.sender p hp
          exact ⟨hn, ⟨hm.lt, fun hmem => hm.waiter (List.mem_filter.1 hmem).1⟩, hrest⟩ }
  · exact h.quiet ⟨rfl, ⟨rfl, rfl⟩, rfl, rfl, ⟨rfl, rfl⟩, fun hs => hs, fun hs => hs,
      .inr ⟨hphase, rfl⟩⟩

/-- A message of the agent reaches the turn at most as a response that has no waiter. -/
theorem Inv.routeInbound (h : Inv c) (hphase : c.phase.teardown = false) (outcome : WriteOutcome)
    (message : Inbound) : Inv (c.routeInbound outcome message) := by
  cases message with
  | response id result => exact h.takeResponse hphase id _
  | responseError id code => exact h.takeResponse hphase id _
  | agentRequest method denial =>
      have hwrite := quiet_writeLine c outcome
      rw [Conn.routeInbound]
      split
      · exact h.quiet (hwrite.trans ⟨rfl, ⟨rfl, rfl⟩, rfl, rfl, ⟨rfl, rfl⟩, id, id, .inl rfl⟩)
      · exact h.quiet (hwrite.trans ⟨rfl, ⟨rfl, rfl⟩, rfl, rfl, ⟨rfl, rfl⟩, id, id, .inl rfl⟩)
  | notification method update =>
      simp only [Conn.routeInbound]
      split
      · cases update with
        | unhandled _ => exact h.quiet ⟨rfl, ⟨rfl, rfl⟩, rfl, rfl, ⟨rfl, rfl⟩, id, id, .inl rfl⟩
        | usageUpdate _ _ _ =>
            exact h.quiet ⟨rfl, ⟨rfl, rfl⟩, rfl, rfl, ⟨rfl, rfl⟩, id, id, .inl rfl⟩
        | content => exact h
      · exact h.quiet ⟨rfl, ⟨rfl, rfl⟩, rfl, rfl, ⟨rfl, rfl⟩, id, id, .inl rfl⟩

theorem Inv.inbound (h : Inv c) (hphase : c.phase = .reading) (line : Line)
    (outcome : WriteOutcome) : Inv (c.inbound line outcome) := by
  have hhead : ∀ counts, Inv { c with counts := counts, phase := .head } := fun counts =>
    h.quiet ⟨rfl, ⟨rfl, rfl⟩, rfl, rfl, ⟨rfl, rfl⟩, id, id, .inr ⟨by rw [hphase]; rfl, rfl⟩⟩
  cases line with
  | blank => exact hhead _
  | message message => exact (hhead _).routeInbound rfl outcome message
  | malformed detail =>
      exact h.quiet ⟨rfl, ⟨rfl, rfl⟩, rfl, rfl, ⟨rfl, rfl⟩, id, id, .inr ⟨by rw [hphase]; rfl, rfl⟩⟩

/-- While a response is routed the stream has not ended. -/
theorem Inv.notMem_of_routing (h : Inv c) {id : ℕ} {outcome : Outcome}
    (hphase : c.phase = .routing id outcome) : .ended ∉ c.log ∧ .finished ∉ c.log := by
  refine ⟨fun hmem => ?_, fun hmem => ?_⟩
  · have hend := h.ended.1 hmem
    rw [hphase] at hend
    cases hend
  · rw [h.finished.1 hmem] at hphase
    cases hphase

/-- A response with the id of the turn in flight completes it. -/
theorem Inv.completeTurn (h : Inv c) {id : ℕ} {outcome : Outcome}
    (hphase : c.phase = .routing id outcome) (hid : c.promptId = some id) :
    Inv (c.routeResponse id outcome) := by
  obtain ⟨hlog, hnf⟩ := h.notMem_of_routing hphase
  have hopen := h.cell hlog
  obtain ⟨hminted, hnew, -⟩ := h.prompt id hid
  have hfits : Fits c.log (.completed id (stopReason outcome)) := by
    refine ⟨fun _ _ => nofun, fun turn ho hr => ?_, fun i reason he => ?_, fun _ _ => nofun⟩
    · obtain rfl := Option.some.inj hr
      exact ⟨_, rfl⟩
    · cases he
      exact ⟨hopen.symm.trans hid, hnew⟩
  have hmem : ∀ x ∈ c.log ++ [Event.completed id (stopReason outcome)],
      x ∈ c.log ∨ x = .completed id (stopReason outcome) := by
    intro x hx
    simpa using hx
  have hsender : ∀ p, c.sender ≠ some p := by
    intro p hp
    rw [(h.sender p hp).1] at hid
    cases hid
  unfold Conn.routeResponse
  dsimp only
  rw [if_pos hid]
  exact
    { good := h.good.snoc hfits
      recorded := by
        simp only [Conn.note, h.recorded, List.filterMap_append]
        split <;> rfl
      cell := by
        intro hlog'
        refine Eq.trans ?_ (openTurn_snoc hlog').symm
        rw [← hopen, hid]
        exact (if_pos rfl).symm
      ended := by simp [Conn.note, hlog, Phase.teardown]
      finished := by simp [Conn.note, hnf]
      cleared := by simp [Conn.note]
      closed := by simp [Conn.note]
      pending := h.pending
      logged := by
        intro x hx i hi
        rcases hmem x hx with hx | rfl
        · exact h.logged x hx i hi
        · obtain rfl := Option.some.inj hi
          exact hminted.lt
      prompt := fun i hi => by cases hi
      sender := fun p hp => absurd hp (hsender p) }

/-- The cell is emptied for a response: it held the turn of this response, or nothing. -/
theorem Inv.routeResponse (h : Inv c) {id : ℕ} {outcome : Outcome}
    (hphase : c.phase = .routing id outcome) (hturn : InTurn c .routeResponse) :
    Inv (c.routeResponse id outcome) := by
  by_cases hid : c.promptId = some id
  · exact h.completeTurn hphase hid
  -- the guard leaves no turn in flight that this response could have emptied the cell of
  have hnone : c.promptId = none := by
    cases hp : c.promptId with
    | none => rfl
    | some turn =>
        have heq := hturn id outcome turn hphase hp
        exact absurd (hp.trans (congrArg some heq.symm)) hid
  have htaken : Inv { c with promptId := none, phase := .head } :=
    h.quiet ⟨rfl, ⟨rfl, rfl⟩, hnone.symm, rfl, ⟨rfl, rfl⟩, fun hs => hs, fun hs => hs,
      .inr ⟨by rw [hphase]; rfl, rfl⟩⟩
  have hfits : Fits c.log (.unexpected id) := by
    refine ⟨fun _ _ => nofun, fun turn ho _ => ?_, nofun, fun _ _ => nofun⟩
    rw [← h.cell (h.notMem_of_routing hphase).1, hnone] at ho
    cases ho
  have hnoted := htaken.note hfits (.inr (.inr ⟨id, rfl⟩))
  unfold Conn.routeResponse
  dsimp only
  rw [if_neg hid]
  exact hnoted.quiet ⟨rfl, ⟨rfl, rfl⟩, rfl, rfl, ⟨rfl, rfl⟩, fun hs => hs, fun hs => hs, .inl rfl⟩

/-- The reader leaves its loop. -/
theorem Inv.leave (h : Inv c) (hphase : c.phase.teardown = false) :
    Inv { c.note .ended with phase := .ended } := by
  have hfits : Fits c.log .ended := ⟨fun _ _ => nofun, fun _ _ => nofun, nofun, fun _ _ => nofun⟩
  have hnotFinished : .finished ∉ c.log := by
    intro hmem
    rw [h.finished.1 hmem] at hphase
    cases hphase
  have hbooked := h.toBooked.note hfits rfl
  exact
    { good := hbooked.good
      recorded := hbooked.recorded
      pending := hbooked.pending
      logged := hbooked.logged
      prompt := fun id hp => by
        obtain ⟨hm, hrest⟩ := hbooked.prompt id hp
        exact ⟨⟨hm.lt, hm.waiter⟩, hrest⟩
      sender := fun p hp => by
        obtain ⟨hn, hm, hrest⟩ := hbooked.sender p hp
        exact ⟨hn, ⟨hm.lt, hm.waiter⟩, hrest⟩
      cell := fun hn => absurd (List.mem_append_right _ (List.mem_singleton_self _)) hn
      ended := by simp [Conn.note, Phase.teardown]
      finished := by simp [Conn.note, hnotFinished]
      cleared := by simp
      closed := by simp }

/-- The waiters are failed. -/
theorem Inv.takePending (h : Inv c) (hphase : c.phase = .ended) :
    Inv { c with pending := [], phase := .pendingTaken } :=
  { h with
    pending := fun id hid => by cases hid
    prompt := fun id hp => by
      obtain ⟨hm, hrest⟩ := h.prompt id hp
      exact ⟨⟨hm.lt, List.not_mem_nil⟩, hrest⟩
    sender := fun p hp => by
      obtain ⟨hn, hm, hrest⟩ := h.sender p hp
      exact ⟨hn, ⟨hm.lt, List.not_mem_nil⟩, hrest⟩
    ended := h.ended.trans (by rw [hphase]; rfl)
    finished := h.finished.trans (by simp [hphase])
    cleared := by simp
    closed := by simp }

/-- The teardown empties the cell; no sender holds it. -/
theorem Inv.clearPrompt (h : Inv c) (hphase : c.phase = .pendingTaken) (hfree : c.sender = none) :
    Inv { c with promptId := none, phase := .cleared } :=
  { h with
    prompt := fun id hp => by cases hp
    sender := fun p hp => by
      rw [hfree] at hp
      cases hp
    cell := fun hn => absurd (h.ended.2 (by rw [hphase]; rfl)) hn
    ended := h.ended.trans (by rw [hphase]; rfl)
    finished := h.finished.trans (by simp [hphase])
    cleared := fun _ => ⟨rfl, fun p hp => by
      rw [hfree] at hp
      cases hp⟩
    closed := by simp }

/-- The teardown closes the pipe. -/
theorem Inv.close (h : Inv c) (hphase : c.phase = .cleared) :
    Inv { c.drop.note .finished with phase := .finished } := by
  have hfits : Fits c.log .finished :=
    ⟨fun _ _ => nofun, fun _ _ => nofun, nofun, fun _ _ => nofun⟩
  have hended : .ended ∈ c.log := h.ended.2 (by rw [hphase]; rfl)
  have hbooked := h.toBooked.note hfits rfl
  exact
    { good := hbooked.good
      recorded := hbooked.recorded
      pending := hbooked.pending
      logged := hbooked.logged
      prompt := fun id hp => by
        obtain ⟨hm, hrest⟩ := hbooked.prompt id hp
        exact ⟨⟨hm.lt, hm.waiter⟩, hrest⟩
      sender := fun p hp => by
        obtain ⟨hn, hm, hrest⟩ := hbooked.sender p hp
        exact ⟨hn, ⟨hm.lt, hm.waiter⟩, hrest⟩
      cell := fun hn => absurd (List.mem_append_left _ hended) hn
      ended := by simp [Conn.note, Conn.drop, hended, Phase.teardown]
      finished := by simp [Conn.note]
      cleared := fun _ => h.cleared (.inl hphase)
      closed := fun _ => rfl }

theorem Inv.handshake (h : Inv c) : Inv { c.mint with pending := c.nextId :: c.pending } := by
  have hmint := h.mint
  exact
    { hmint with
      pending := fun id hid => by
        rcases List.mem_cons.1 hid with rfl | hid
        · exact Nat.lt_succ_self _
        · exact hmint.pending id hid
      prompt := fun id hp => by
        obtain ⟨hm, hrest⟩ := h.prompt id hp
        refine ⟨⟨Nat.lt_succ_of_lt hm.lt, fun hmem => ?_⟩, hrest⟩
        rcases List.mem_cons.1 hmem with rfl | hmem
        · exact lt_irrefl _ hm.lt
        · exact hm.waiter hmem
      sender := fun p hp => by
        obtain ⟨hn, hm, hrest⟩ := h.sender p hp
        refine ⟨hn, ⟨Nat.lt_succ_of_lt hm.lt, fun hmem => ?_⟩, hrest⟩
        rcases List.mem_cons.1 hmem with heq | hmem
        · exact lt_irrefl _ (heq ▸ hm.lt)
        · exact hm.waiter hmem }

/-- **Every step that is in turn keeps the invariant.** -/
theorem inv_step (c : Conn) (a : Step) (h : Inv c) (hturn : InTurn c a) : Inv (step c a) := by
  -- a step that finds the connection in another phase changes nothing
  cases a with
  | sendPrompt text =>
      simp only [step]
      split
      · exact h.sendPrompt text
      · exact h
  | writePrompt outcome =>
      simp only [step]
      cases hsender : c.sender with
      | none => exact h
      | some prompt =>
          dsimp only
          split
          · exact h
          · exact h.writePrompt hsender hturn
  | acceptPrompt =>
      simp only [step]
      cases hsender : c.sender with
      | none => exact h
      | some prompt =>
          dsimp only
          split
          · rename_i hwritten
            exact h.acceptPrompt hsender hwritten
          · exact h
  | handshake => exact h.handshake
  | setSession sessionId =>
      exact h.quiet ⟨rfl, ⟨rfl, rfl⟩, rfl, rfl, ⟨rfl, rfl⟩, fun _ => nofun, id, .inl rfl⟩
  | writeLine outcome => exact h.quiet (quiet_writeLine c outcome)
  | dropHandle =>
      exact h.quiet ⟨rfl, ⟨rfl, rfl⟩, rfl, rfl, ⟨rfl, rfl⟩, id, fun _ => rfl, .inl rfl⟩
  | drainNotices => exact h.quiet ⟨rfl, ⟨rfl, rfl⟩, rfl, rfl, ⟨rfl, rfl⟩, id, id, .inl rfl⟩
  | inbound line outcome =>
      simp only [step]
      split
      · rename_i hphase
        exact h.inbound hphase line outcome
      · exact h
  | routeResponse =>
      simp only [step]
      split
      · rename_i id outcome hphase
        split
        · exact h.routeResponse hphase hturn
        · exact h
      · exact h
  | checkShutdown =>
      simp only [step]
      split
      · rename_i hphase
        have hhead : c.phase.teardown = false := by rw [hphase]; rfl
        unfold Conn.checkShutdown
        split
        · exact h.leave hhead
        · exact h.quiet ⟨rfl, ⟨rfl, rfl⟩, rfl, rfl, ⟨rfl, rfl⟩, id, id, .inr ⟨hhead, rfl⟩⟩
      · exact h
  | endStream readError =>
      simp only [step]
      split
      · rename_i hphase
        have hnoticed : Inv (c.pushNotice (.ended (readError.elim
            "end of stream (the agent closed stdout or exited)"
            fun error => "stdout read failed: " ++ error))) :=
          h.quiet ⟨rfl, ⟨rfl, rfl⟩, rfl, rfl, ⟨rfl, rfl⟩, id, id, .inl rfl⟩
        exact hnoticed.leave (by rw [Conn.pushNotice, hphase]; rfl)
      · exact h
  | takePending =>
      simp only [step]
      split
      · rename_i hphase
        exact h.takePending hphase
      · exact h
  | clearPrompt =>
      simp only [step]
      split
      · rename_i hphase
        split
        · rename_i hfree
          exact h.clearPrompt hphase hfree
        · exact h
      · exact h
  | close =>
      simp only [step]
      split
      · rename_i hphase
        exact h.close hphase
      · exact h

/-! ### Runs -/

/-- What the invariant says about the turns. -/
theorem Inv.serialized (h : Inv c) : Serialized c where
  refused := fun before e after id hlog => (h.good before e after hlog).refused id
  completes := fun before e after id hlog => (h.good before e after hlog).completes id
  others := by
    intro before after id reason hlog
    refine ⟨((h.good _ _ _ hlog).others id reason rfl).1, fun reason' hmem => ?_⟩
    -- A later completion would find the first one before it.
    obtain ⟨mid, rest, rfl⟩ := List.append_of_mem hmem
    have hsplit : c.log = (before ++ .completed id reason :: mid) ++
        .completed id reason' :: rest := by
      rw [hlog, List.append_assoc, List.cons_append]
    exact ((h.good _ _ _ hsplit).others id reason' rfl).2 reason (by simp)
  recorded := h.recorded
  cell := h.cell
  dead := by
    intro before after hlog
    have hfinished : .finished ∈ c.log := by
      rw [hlog]
      simp
    refine ⟨(h.cleared (.inr (h.finished.1 hfinished))).1, fun id hmem => ?_⟩
    obtain ⟨mid, rest, rfl⟩ := List.append_of_mem hmem
    have hsplit : c.log = (before ++ .finished :: mid) ++ .accepted id :: rest := by
      rw [hlog, List.append_assoc, List.cons_append]
    exact (h.good _ _ _ hsplit).dead (by simp) id rfl

/-- **The turns of a connection are serialized** in every state of a run in which no response with a
foreign id is routed during a turn, and no prompt is written after the teardown has emptied the
cell. -/
theorem turns_serialized (capture : Bool) (steps : List Step)
    (hturn : Guarded.Meets step InTurn (start capture) steps) {c : Conn}
    (hc : c ∈ Guarded.states step (start capture) steps) : Serialized c :=
  (Guarded.invariant inv_step (inv_start capture) hturn hc).serialized

/-- A prompt is sent, and its response arrives. -/
def oneTurn : List Step :=
  [.setSession "s", .sendPrompt "a", .writePrompt .done, .acceptPrompt, .checkShutdown,
    .inbound (.message (.response 1 .null)) .done, .routeResponse]

theorem turns_serialized_once : Serialized (oneTurn.foldl step (start true)) := by
  refine turns_serialized true oneTurn ⟨trivial, trivial, nofun, trivial, trivial, trivial, ?_,
    trivial⟩ Guarded.last_mem_states
  intro id outcome turn hphase hturn
  cases hphase
  cases hturn
  rfl

/-! ### A foreign response during a turn -/

/-- A prompt is sent and, before its response, one with another id and a second prompt. -/
def foreignResponse : List Step :=
  [.setSession "s", .sendPrompt "a", .writePrompt .done, .acceptPrompt, .checkShutdown,
    .inbound (.message (.response 7 .null)) .done, .routeResponse, .sendPrompt "b",
    .writePrompt .done, .acceptPrompt]

theorem foreign_response_ends_turn : ¬ Serialized (foreignResponse.foldl step (start true)) := by
  intro h
  have hrefused := h.refused [.accepted 1, .unexpected 7] (.accepted 2) [] 1 rfl rfl rfl
  cases hrefused

/-- The stream ends, and a prompt is written between the emptying of the cell and the closing of the
pipe. -/
def promptInTeardown : List Step :=
  [.setSession "s", .checkShutdown, .endStream none, .takePending, .clearPrompt, .sendPrompt "a",
    .writePrompt .done, .close, .acceptPrompt]

example : (promptInTeardown.foldl step (start true)).log = [.ended, .finished, .accepted 1] ∧
    (promptInTeardown.foldl step (start true)).promptId = some 1 :=
  ⟨rfl, rfl⟩

end Acp

end Hekma
