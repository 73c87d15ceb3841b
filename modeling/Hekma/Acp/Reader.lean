/-
**The reader of an ACP connection** (`acp/connection.rs`).

The reader takes the lines of the agent one by one.  A line that is no message is counted and
skipped; a line that is not UTF-8 ends the stream.  The other threads of the engine take their steps
in between.  Every request before the end of the stream is to be answered, once; it is not where its
id is no unsigned integer, or where an earlier line is not UTF-8.

Main definitions:

* `Acp.Session`, `Acp.Move`, `Acp.Session.step` — the connection with the stream of the agent;
* `Acp.AnswersAll` — every request is answered, in every run whose writes succeed;
* `Acp.Answerable` — every request has a usable id, comes before the first line that is not UTF-8,
  and is deniable if it asks for a permission.

Main results:

* `Acp.Session.inv_step`, `Acp.Session.run_ended` — what is written once the stream has ended;
* `Acp.Session.exists_ended` — the reader gets to the end;
* `Acp.answersAll_iff` — every request is answered where the stream is answerable.
-/

import Hekma.Acp.Codec
import Hekma.Lib.Utf8

set_option relaxedAutoImplicit false
set_option autoImplicit false

namespace Hekma

namespace Acp

open Codec

/-! ### Lines -/

/-- The next line of a stream, with the newline that ends it, and what comes after it. -/
def readLine : List UInt8 → List UInt8 × List UInt8
  | [] => ([], [])
  | b :: rest => if b = 0x0A then ([b], rest) else (b :: (readLine rest).1, (readLine rest).2)

/-- The lines of a stream, each with the newline that ends it. -/
def frames : List UInt8 → List (List UInt8)
  | [] => []
  | b :: rest =>
      if b = 0x0A then [b] :: frames rest
      else
        match frames rest with
        | [] => [[b]]
        | line :: lines => (b :: line) :: lines

/-- A line without the newline and the carriage returns at its end. -/
def trimmed (line : List Char) : List Char := line.rdropWhile fun c => c = '\n' ∨ c = '\r'

theorem frames_readLine {stream : List UInt8} (h : stream ≠ []) :
    frames stream = (readLine stream).1 :: frames (readLine stream).2 := by
  induction stream with
  | nil => exact absurd rfl h
  | cons b rest ih =>
      rw [frames, readLine]
      split
      · rfl
      · cases rest with
        | nil => rfl
        | cons c rest => rw [ih (List.cons_ne_nil c rest)]

theorem readLine_ne_nil {stream : List UInt8} (h : stream ≠ []) : (readLine stream).1 ≠ [] := by
  cases stream with
  | nil => exact absurd rfl h
  | cons b rest =>
      unfold readLine
      split
      · exact List.cons_ne_nil _ _
      · exact List.cons_ne_nil _ _

theorem readLine_length {stream : List UInt8} (h : stream ≠ []) :
    (readLine stream).2.length < stream.length := by
  induction stream with
  | nil => exact absurd rfl h
  | cons b rest ih =>
      unfold readLine
      split
      · exact Nat.lt_succ_self _
      · cases rest with
        | nil => exact Nat.lt_succ_self _
        | cons c rest => exact Nat.lt_succ_of_lt (ih (List.cons_ne_nil c rest))

/-! ### The reader among the other threads -/

/-- The connection, what the agent has written that is not read yet, and the lines it has been
answered. -/
structure Session where
  conn : Conn
  unread : List UInt8
  written : List Json

/-- One step of a session: the reader reads a line, or a thread takes a step. -/
inductive Move where
  | read (outcome : WriteOutcome)
  | other (a : Step)

/-- The step is one of the read of a line. -/
def Step.ofReading : Step → Bool
  | .inbound _ _ | .endStream _ => true
  | _ => false

/-- What is written, if the write succeeds. -/
def StdinState.accepts (stdin : StdinState) (outcome : WriteOutcome) (reply : Option Json) :
    List Json :=
  match (stdin.writeLine outcome).1 with
  | .ok () => reply.toList
  | .error _ => []

def notUtf8 : String := "stream did not contain valid UTF-8"

section

variable (read : List Char → Option Json) (print : Json → String)

/-- The reader reads a line and routes it. -/
def Session.readLine (s : Session) (outcome : WriteOutcome) : Session :=
  let next := Acp.readLine s.unread
  if next.1 = [] then { s with conn := Acp.step s.conn (.endStream none) }
  else
    match Utf8.fromUtf8 next.1 with
    | none => { s with conn := Acp.step s.conn (.endStream (some notUtf8)), unread := next.2 }
    | some text =>
        let parsed := parseLine read (trimmed text)
        { conn := Acp.step s.conn (.inbound (routedLine print parsed) outcome)
          unread := next.2
          written := s.written ++ s.conn.stdin.accepts outcome (replyTo parsed) }

/-- One step.  A step that is not enabled does nothing. -/
def Session.step (s : Session) : Move → Session
  | .read outcome =>
      match s.conn.phase with
      | .reading => s.readLine read print outcome
      | _ => s
  | .other a => if a.ofReading then s else { s with conn := Acp.step s.conn a }

/-- A session before its first step. -/
def Session.start (capture : Bool) (stream : List UInt8) : Session :=
  ⟨Acp.start capture, stream, []⟩

def Session.run (capture : Bool) (stream : List UInt8) (moves : List Move) : Session :=
  moves.foldl (Session.step read print) (Session.start capture stream)

end

/-! ### What is promised -/

/-- The write succeeds, and the pipe is not closed. -/
def Step.Succeeds : Step → Prop
  | .writePrompt outcome | .writeLine outcome => outcome = .done
  | .dropHandle => False
  | _ => True

def Move.Succeeds : Move → Prop
  | .read outcome => outcome = .done
  | .other a => a.Succeeds

/-- The request that a line of the stream is. -/
def requestIn (read : List Char → Option Json) (line : List UInt8) : Option Request :=
  (Utf8.fromUtf8 line).bind fun text => request read (trimmed text)

/-- The requests of a stream. -/
def requests (read : List Char → Option Json) (stream : List UInt8) : List Request :=
  (frames stream).filterMap (requestIn read)

/-- Every request is answered with one line, in every run whose writes succeed, and every such run
can be carried on to its end. -/
structure AnswersAll (read : List Char → Option Json) (print : Json → String) (capture : Bool)
    (stream : List UInt8) : Prop where
  answered : ∀ moves : List Move, (∀ m ∈ moves, m.Succeeds) →
    (Session.run read print capture stream moves).conn.phase.teardown →
      List.Forall₂ Request.AnsweredBy (requests read stream)
        (Session.run read print capture stream moves).written
  ends : ∀ moves : List Move, (∀ m ∈ moves, m.Succeeds) →
    ∃ more : List Move, (∀ m ∈ more, m.Succeeds) ∧
      (Session.run read print capture stream (moves ++ more)).conn.phase.teardown

/-- Every request has an id that is an unsigned integer, no line before it fails to be UTF-8, and it
is deniable if it asks for a permission. -/
def Answerable (read : List Char → Option Json) (lines : List (List UInt8)) : Prop :=
  ∀ before line after, lines = before ++ line :: after → ∀ r, requestIn read line = some r →
    r.id.asU64.isSome ∧ (∀ l ∈ before, (Utf8.fromUtf8 l).isSome) ∧
      (r.method = requestPermission → Deniable r.params)

/-! ### The invariant -/

/-- The lines the reader gets to, as it parses them. -/
def heard : List (List UInt8) → List (List Char)
  | [] => []
  | line :: lines =>
      match Utf8.fromUtf8 line with
      | none => []
      | some text => trimmed text :: heard lines

/-- What the reader answers to so many lines. -/
def replies (read : List Char → Option Json) (lines : List (List UInt8)) : List Json :=
  (heard lines).filterMap fun line => replyTo (parseLine read line)

variable {read : List Char → Option Json} {print : Json → String} {capture : Bool}
  {stream : List UInt8} {c : Conn} {s : Session} {a : Step}

/-- The reader is in its loop, and the pipe is open. -/
structure Open (c : Conn) : Prop where
  phase : c.phase.teardown = false
  stdin : c.stdin = .live
  shutdown : c.shutdown = false

/-- What holds of a session between two steps. -/
structure Session.Inv (read : List Char → Option Json) (stream : List UInt8) (s : Session) :
    Prop where
  reading : s.conn.phase.teardown = false → Open s.conn ∧
    s.written ++ replies read (frames s.unread) = replies read (frames stream)
  ended : s.conn.phase.teardown = true → s.written = replies read (frames stream)

theorem Open.step (h : Open c) (ha : a.ofReading = false) (hs : a.Succeeds) :
    Open (Acp.step c a) := by
  obtain ⟨hphase, hstdin, hshutdown⟩ := h
  cases a with
  | inbound line outcome => cases ha
  | endStream e => cases ha
  | dropHandle => exact hs.elim
  | handshake | setSession | drainNotices => exact ⟨hphase, hstdin, hshutdown⟩
  | writeLine outcome =>
      obtain rfl : outcome = .done := hs
      exact ⟨hphase, by simp [Acp.step, Conn.writeLine, StdinState.writeLine, hstdin], hshutdown⟩
  | sendPrompt text =>
      simp only [Acp.step, Conn.sendPrompt]
      repeat' split
      all_goals exact ⟨hphase, hstdin, hshutdown⟩
  | writePrompt outcome =>
      obtain rfl : outcome = .done := hs
      simp only [Acp.step, Conn.writePrompt, hstdin, StdinState.writeLine, Conn.writeLine]
      repeat' split
      all_goals exact ⟨hphase, by simp [hstdin], hshutdown⟩
  | acceptPrompt =>
      simp only [Acp.step, Conn.acceptPrompt]
      repeat' split
      all_goals exact ⟨hphase, hstdin, hshutdown⟩
  | routeResponse =>
      simp only [Acp.step]
      split
      · split
        · unfold Conn.routeResponse
          dsimp only
          split
          · exact ⟨rfl, hstdin, hshutdown⟩
          · exact ⟨rfl, hstdin, hshutdown⟩
        · exact ⟨hphase, hstdin, hshutdown⟩
      · exact ⟨hphase, hstdin, hshutdown⟩
  | checkShutdown =>
      simp only [Acp.step, Conn.checkShutdown, hshutdown, Bool.false_eq_true, if_false]
      split
      · exact ⟨rfl, hstdin, rfl⟩
      · exact ⟨hphase, hstdin, hshutdown⟩
  | takePending | clearPrompt | close =>
      -- the steps of the teardown
      simp only [Acp.step]
      split
      · rename_i heq
        rw [heq] at hphase
        cases hphase
      · exact ⟨hphase, hstdin, hshutdown⟩

/-- A teardown that has begun goes on. -/
theorem teardown_step (h : c.phase.teardown = true) : (Acp.step c a).phase.teardown = true := by
  cases a with
  | handshake | setSession | drainNotices | dropHandle | writeLine => exact h
  | sendPrompt | writePrompt | acceptPrompt =>
      simp only [Acp.step, Conn.sendPrompt, Conn.writePrompt]
      repeat' split
      all_goals exact h
  | inbound | routeResponse | checkShutdown | endStream =>
      -- the steps of the loop
      simp only [Acp.step]
      split
      · rename_i heq
        rw [heq] at h
        cases h
      · exact h
  | takePending | clearPrompt | close =>
      simp only [Acp.step]
      repeat' split
      all_goals first | rfl | exact h

/-- Routing a line leaves the reader in its loop. -/
theorem Open.inbound (h : Open c) (line : Line) : Open (Acp.step c (.inbound line .done)) := by
  obtain ⟨hphase, hstdin, hshutdown⟩ := h
  have hwrite : ∀ c : Conn, c.stdin = .live → (c.writeLine .done).stdin = .live := by
    intro c hc
    simp [Conn.writeLine, StdinState.writeLine, hc]
  simp only [Acp.step]
  split
  · cases line with
    | blank => exact ⟨rfl, hstdin, hshutdown⟩
    | malformed detail => exact ⟨rfl, hstdin, hshutdown⟩
    | message message =>
        simp only [Conn.inbound, Conn.routeInbound, Conn.takeResponse]
        repeat' split
        all_goals first
          | exact ⟨rfl, hstdin, hshutdown⟩
          | exact ⟨rfl, hwrite _ hstdin, hshutdown⟩
  · exact ⟨hphase, hstdin, hshutdown⟩

/-- The end of the stream begins the teardown. -/
theorem teardown_endStream (hphase : c.phase = .reading) (e : Option String) :
    (Acp.step c (.endStream e)).phase.teardown = true := by
  simp only [Acp.step, hphase]
  rfl

theorem replies_cons (line : List UInt8) (lines : List (List UInt8)) :
    replies read (line :: lines) =
      match Utf8.fromUtf8 line with
      | none => []
      | some text => (replyTo (parseLine read (trimmed text))).toList ++ replies read lines := by
  rw [replies, heard]
  cases Utf8.fromUtf8 line with
  | none => rfl
  | some text =>
      dsimp only
      rw [List.filterMap_cons]
      cases replyTo (parseLine read (trimmed text)) with
      | none => rfl
      | some reply => rfl

namespace Session

theorem inv_start (capture : Bool) : Inv read stream (start capture stream) where
  reading := fun _ => ⟨⟨rfl, rfl, rfl⟩, rfl⟩
  ended := fun h => by cases h

theorem Inv.readLine (h : Inv read stream s) (hphase : s.conn.phase = .reading) :
    Inv read stream (s.readLine read print .done) := by
  obtain ⟨hopen, hwritten⟩ := h.reading (by rw [hphase]; rfl)
  unfold Session.readLine
  by_cases hend : s.unread = []
  · have hnil : (Acp.readLine s.unread).1 = [] := by rw [hend]; rfl
    dsimp only
    rw [if_pos hnil]
    have hover := teardown_endStream hphase none
    refine ⟨fun hno => ?_, fun _ => ?_⟩
    · rw [hover] at hno
      cases hno
    · rw [hend] at hwritten
      exact (List.append_nil _).symm.trans hwritten
  · dsimp only
    rw [if_neg (readLine_ne_nil hend)]
    rw [frames_readLine hend, replies_cons] at hwritten
    cases htext : Utf8.fromUtf8 (Acp.readLine s.unread).1 with
    | none =>
        rw [htext] at hwritten
        have hover := teardown_endStream hphase (some notUtf8)
        refine ⟨fun hno => ?_, fun _ => ?_⟩
        · rw [hover] at hno
          cases hno
        · exact (List.append_nil _).symm.trans hwritten
    | some text =>
        rw [htext] at hwritten
        have hopen' := hopen.inbound (routedLine print (parseLine read (trimmed text)))
        refine ⟨fun _ => ⟨hopen', ?_⟩, fun hover => ?_⟩
        · dsimp only
          rw [StdinState.accepts, hopen.stdin, StdinState.writeLine, List.append_assoc]
          exact hwritten
        · rw [hopen'.phase] at hover
          cases hover

/-- **What every step keeps.** -/
theorem inv_step (h : Inv read stream s) {m : Move} (hm : m.Succeeds) :
    Inv read stream (s.step read print m) := by
  cases m with
  | read outcome =>
      obtain rfl : outcome = .done := hm
      unfold Session.step
      dsimp only
      split
      · rename_i hphase
        exact h.readLine hphase
      · exact h
  | other a =>
      unfold Session.step
      dsimp only
      split
      · exact h
      · rename_i ha
        rw [Bool.not_eq_true] at ha
        refine ⟨fun hno => ?_, fun hover => ?_⟩
        · cases hphase : s.conn.phase.teardown with
          | false =>
              obtain ⟨hopen, hwritten⟩ := h.reading hphase
              exact ⟨hopen.step ha hm, hwritten⟩
          | true =>
              rw [teardown_step hphase] at hno
              cases hno
        · cases hphase : s.conn.phase.teardown with
          | false =>
              rw [((h.reading hphase).1.step ha hm).phase] at hover
              cases hover
          | true => exact h.ended hphase

theorem Inv.foldl (h : Inv read stream s) (print : Json → String) {moves : List Move}
    (hm : ∀ m ∈ moves, m.Succeeds) :
    Inv read stream (moves.foldl (step read print) s) := by
  induction moves generalizing s with
  | nil => exact h
  | cons m moves ih =>
      have htail : ∀ m' ∈ moves, m'.Succeeds := fun m' hm' => hm m' (List.mem_cons_of_mem m hm')
      exact ih (inv_step h (hm m List.mem_cons_self)) htail

/-- **What is written once the stream has ended.** -/
theorem run_ended {moves : List Move} (h : ∀ m ∈ moves, m.Succeeds)
    (hover : (run read print capture stream moves).conn.phase.teardown = true) :
    (run read print capture stream moves).written = replies read (frames stream) :=
  ((inv_start capture).foldl print h).ended hover

end Session

/-! ### The end of the stream -/

/-- The steps that bring the reader to its next read: the sender that holds the cell of the turn
lets go of it, and the reader returns to the head of its loop. -/
def settle : List Step := [.writePrompt .done, .acceptPrompt, .routeResponse, .checkShutdown]

/-- The steps up to the next read, and the read. -/
def round : List Move := settle.map Move.other ++ [.read .done]

theorem settle_ofReading : ∀ a ∈ settle, a.ofReading = false := by
  simp [settle, Step.ofReading]

theorem round_succeeds : ∀ m ∈ round, m.Succeeds := by
  simp [round, settle, Move.Succeeds, Step.Succeeds]

theorem written_writePrompt (h : Open c) :
    ∀ p, (Acp.step c (.writePrompt .done)).sender = some p → p.written := by
  intro p hp
  simp only [Acp.step, Conn.writePrompt, h.stdin, StdinState.writeLine] at hp
  split at hp
  · split at hp
    · rename_i hsender hwritten
      rw [hsender] at hp
      exact Option.some.inj hp ▸ hwritten
    · rw [← Option.some.inj hp]
  · rename_i hsender
    rw [hsender] at hp
    cases hp

theorem sender_acceptPrompt (h : ∀ p, c.sender = some p → p.written) :
    (Acp.step c .acceptPrompt).sender = none := by
  simp only [Acp.step]
  split
  · rename_i p hp
    rw [if_pos (h p hp)]
    rfl
  · rename_i hnone
    exact hnone

theorem phase_routeResponse (h : Open c) (hsender : c.sender = none) :
    (Acp.step c .routeResponse).phase = .head ∨ (Acp.step c .routeResponse).phase = .reading := by
  have hphase := h.phase
  simp only [Acp.step]
  cases hp : c.phase with
  | head => exact .inl hp
  | reading => exact .inr hp
  | routing id outcome =>
      dsimp only
      rw [if_pos hsender]
      unfold Conn.routeResponse
      dsimp only
      split
      · exact .inl rfl
      · exact .inl rfl
  | ended | pendingTaken | cleared | finished =>
      rw [hp] at hphase
      cases hphase

theorem phase_checkShutdown (h : Open c) (hphase : c.phase = .head ∨ c.phase = .reading) :
    (Acp.step c .checkShutdown).phase = .reading := by
  simp only [Acp.step]
  rcases hphase with hp | hp
  · simp [hp, Conn.checkShutdown, h.shutdown]
  · simp [hp]

theorem phase_settle (h : Open c) : (settle.foldl Acp.step c).phase = .reading := by
  have h₁ := h.step (a := .writePrompt .done) rfl rfl
  have h₂ := h₁.step (a := .acceptPrompt) rfl trivial
  have h₃ := h₂.step (a := .routeResponse) rfl trivial
  have hsender := sender_acceptPrompt (written_writePrompt h)
  exact phase_checkShutdown h₃ (phase_routeResponse h₂ hsender)

namespace Session

theorem foldl_other {steps : List Step} (h : ∀ a ∈ steps, a.ofReading = false) :
    (steps.map Move.other).foldl (step read print) s =
      { s with conn := steps.foldl Acp.step s.conn } := by
  induction steps generalizing s with
  | nil => rfl
  | cons a steps ih =>
      have ha : s.step read print (.other a) = { s with conn := Acp.step s.conn a } := by
        simp [Session.step, h a List.mem_cons_self]
      rw [List.map_cons, List.foldl_cons, ha, ih fun b hb => h b (List.mem_cons_of_mem a hb),
        List.foldl_cons]

/-- A read ends the stream or leaves less of it. -/
theorem readLine_progress (read : List Char → Option Json) (print : Json → String)
    (hphase : s.conn.phase = .reading) :
    (s.readLine read print .done).conn.phase.teardown = true ∨
      (s.readLine read print .done).unread.length < s.unread.length := by
  unfold Session.readLine
  dsimp only
  split
  · exact .inl (teardown_endStream hphase none)
  · rename_i hline
    have hne : s.unread ≠ [] := by
      intro heq
      rw [heq] at hline
      exact hline rfl
    split
    · exact .inr (readLine_length hne)
    · exact .inr (readLine_length hne)

theorem foldl_round (read : List Char → Option Json) (print : Json → String) (h : Open s.conn) :
    ∃ t : Session, t.unread = s.unread ∧ t.conn.phase = .reading ∧
      round.foldl (step read print) s = t.readLine read print .done := by
  refine ⟨{ s with conn := settle.foldl Acp.step s.conn }, rfl, phase_settle h, ?_⟩
  rw [round, List.foldl_append, foldl_other settle_ofReading, List.foldl_cons, List.foldl_nil]
  simp only [Session.step, phase_settle h]

/-- **The reader gets to the end.** -/
theorem exists_ended (h : Inv read stream s) (print : Json → String) :
    ∃ more : List Move, (∀ m ∈ more, m.Succeeds) ∧
      (more.foldl (step read print) s).conn.phase.teardown = true := by
  -- by induction on how much is unread
  induction hn : s.unread.length using Nat.strong_induction_on generalizing s with
  | _ n ih =>
      cases hphase : s.conn.phase.teardown with
      | true => exact ⟨[], by simp, hphase⟩
      | false =>
          obtain ⟨t, hunread, hreading, hround⟩ :=
            foldl_round read print (h.reading hphase).1
          have hinv := h.foldl print round_succeeds
          rw [hround] at hinv
          rcases readLine_progress read print hreading with hover | hless
          · exact ⟨round, round_succeeds, by rw [hround]; exact hover⟩
          · rw [hunread, hn] at hless
            obtain ⟨more, hmore, hend⟩ := ih _ hless hinv rfl
            refine ⟨round ++ more, fun m hm => ?_, ?_⟩
            · exact (List.mem_append.1 hm).elim (round_succeeds m) (hmore m)
            · rw [List.foldl_append, hround]
              exact hend

end Session

/-! ### What is answered -/

theorem requestIn_eq {line : List UInt8} {text : List Char} (h : Utf8.fromUtf8 line = some text) :
    requestIn read line = request read (trimmed text) := by
  rw [requestIn, h, Option.bind_some]

theorem requestIn_of_none {line : List UInt8} (h : Utf8.fromUtf8 line = none) :
    requestIn read line = none := by
  rw [requestIn, h, Option.bind_none]

/-- No line is answered that is no request. -/
theorem length_replies (hblank : ∀ line, Text.trim line = [] → read line = none)
    (lines : List (List UInt8)) :
    (replies read lines).length ≤ (lines.filterMap (requestIn read)).length := by
  induction lines with
  | nil => exact Nat.le_refl 0
  | cons line lines ih =>
      rw [replies_cons, List.filterMap_cons]
      cases htext : Utf8.fromUtf8 line with
      | none => exact Nat.zero_le _
      | some text =>
          dsimp only
          rw [reply_eq hblank, requestIn_eq htext]
          cases request read (trimmed text) with
          | none => exact ih
          | some r =>
              rw [Option.bind_some, List.length_cons, List.length_append]
              have hone : r.reply.toList.length ≤ 1 := by cases r.reply <;> simp
              omega

theorem answerable_nil : Answerable read [] := by
  intro before line after h
  simp at h

/-- Behind a line that is not UTF-8 there may be no request. -/
theorem answerable_cons {line : List UInt8} {lines : List (List UInt8)} :
    Answerable read (line :: lines) ↔
      (∀ r, requestIn read line = some r →
        r.id.asU64.isSome ∧ (r.method = requestPermission → Deniable r.params)) ∧
      ((Utf8.fromUtf8 line).isSome → Answerable read lines) ∧
      (Utf8.fromUtf8 line = none → lines.filterMap (requestIn read) = []) := by
  constructor
  · intro h
    refine ⟨fun r hr => ?_, fun _ before l after hsplit r hr => ?_, fun hnone => ?_⟩
    · obtain ⟨hid, -, hdenial⟩ := h [] line lines rfl r hr
      exact ⟨hid, hdenial⟩
    · obtain ⟨hid, hvalid, hdenial⟩ := h (line :: before) l after (by rw [hsplit]; rfl) r hr
      exact ⟨hid, fun l' hl' => hvalid l' (List.mem_cons_of_mem line hl'), hdenial⟩
    · refine List.filterMap_eq_nil_iff.2 fun l hl => ?_
      obtain ⟨before, after, rfl⟩ := List.append_of_mem hl
      refine Option.eq_none_iff_forall_ne_some.2 fun r hr => ?_
      have hvalid := (h (line :: before) l after rfl r hr).2.1 line List.mem_cons_self
      rw [hnone] at hvalid
      cases hvalid
  · rintro ⟨hline, hrest, hnone⟩ before l after hsplit r hr
    cases before with
    | nil =>
        obtain ⟨rfl, -⟩ := List.cons_eq_cons.1 hsplit
        exact ⟨(hline r hr).1, by simp, (hline r hr).2⟩
    | cons l' before =>
        obtain ⟨rfl, rfl⟩ := List.cons_eq_cons.1 hsplit
        cases htext : Utf8.fromUtf8 line with
        | none =>
            have hmem : l ∈ before ++ l :: after := by simp
            rw [List.filterMap_eq_nil_iff.1 (hnone htext) l hmem] at hr
            cases hr
        | some text =>
            have hsome : (Utf8.fromUtf8 line).isSome := by rw [htext]; rfl
            obtain ⟨hid, hvalid, hdenial⟩ := hrest hsome before l after rfl r hr
            refine ⟨hid, fun x hx => ?_, hdenial⟩
            rcases List.mem_cons.1 hx with rfl | hx
            · exact hsome
            · exact hvalid x hx

/-- The requests are answered one by one where they are answerable. -/
theorem forall₂_answeredBy (hblank : ∀ line, Text.trim line = [] → read line = none)
    (lines : List (List UInt8)) :
    List.Forall₂ Request.AnsweredBy (lines.filterMap (requestIn read)) (replies read lines) ↔
      Answerable read lines := by
  induction lines with
  | nil => exact iff_of_true .nil answerable_nil
  | cons line lines ih =>
      rw [answerable_cons, replies_cons, List.filterMap_cons]
      cases htext : Utf8.fromUtf8 line with
      | none => simp [requestIn_of_none htext]
      | some text =>
          dsimp only
          rw [reply_eq hblank, requestIn_eq htext]
          cases hrequest : request read (trimmed text) with
          | none => simpa using ih
          | some r =>
              obtain ⟨id, method, params⟩ := r
              cases hid : id.asU64 with
              | none =>
                  -- the request has no answer, and there is no other one
                  refine iff_of_false (fun h => ?_) fun h => ?_
                  · have hlen := h.length_eq
                    have hle := length_replies hblank lines
                    simp [Request.reply, hid] at hlen
                    omega
                  · have hsome := (h.1 _ rfl).1
                    rw [hid] at hsome
                    cases hsome
              | some n =>
                  obtain rfl := Json.asU64_eq_some.1 hid
                  simp [Request.reply, hid, Request.answeredBy_iff, ih]

theorem exists_end (read : List Char → Option Json) (print : Json → String) (capture : Bool)
    (stream : List UInt8) {moves : List Move}
    (hmoves : ∀ m ∈ moves, m.Succeeds) :
    ∃ more : List Move, (∀ m ∈ more, m.Succeeds) ∧
      (Session.run read print capture stream (moves ++ more)).conn.phase.teardown := by
  obtain ⟨more, hmore, hover⟩ :=
    Session.exists_ended ((Session.inv_start capture).foldl print hmoves) print
  refine ⟨more, hmore, ?_⟩
  rw [Session.run, List.foldl_append]
  exact hover

theorem AnswersAll.answerable (hblank : ∀ line, Text.trim line = [] → read line = none)
    (h : AnswersAll read print capture stream) : Answerable read (frames stream) := by
  have hnone : ∀ m ∈ ([] : List Move), m.Succeeds := by simp
  obtain ⟨more, hmore, hover⟩ := exists_end read print capture stream hnone
  have hanswered := h.answered _ hmore hover
  rw [Session.run_ended hmore hover] at hanswered
  exact (forall₂_answeredBy hblank _).1 hanswered

/-- **Every request is answered where the stream is answerable.** -/
theorem answersAll_iff (hblank : ∀ line, Text.trim line = [] → read line = none)
    (print : Json → String) (capture : Bool) (stream : List UInt8) :
    AnswersAll read print capture stream ↔ Answerable read (frames stream) := by
  refine ⟨fun h => h.answerable hblank, fun h => ⟨fun moves hmoves hover => ?_, ?_⟩⟩
  · rw [Session.run_ended hmoves hover]
    exact (forall₂_answeredBy hblank _).2 h
  · exact fun _ hmoves => exists_end read print capture stream hmoves

/-! ### An id that is a text -/

/-- A reader of one text. -/
def readOne (text : List Char) (value : Json) (line : List Char) : Option Json :=
  if line = text then some value else none

/-- The text of a request that asks for a permission. -/
def permissionText (id : String) : List Char :=
  "\x7b\x22id\x22:".toList ++ id.toList ++
    ",\x22method\x22:\x22session/request_permission\x22\x7d".toList

def permissionRequest (id : Json) : Json :=
  .object [("id", id), ("method", .string requestPermission)]

theorem trimmed_newline (text : List Char)
    (h : text.getLast? ≠ some '\n' ∧ text.getLast? ≠ some '\r') :
    trimmed (text ++ ['\n']) = text := by
  rw [trimmed, List.rdropWhile_concat_pos _ _ _ (by simp), List.rdropWhile_eq_self_iff]
  intro hne
  rw [List.getLast?_eq_some_getLast hne] at h
  simpa using h

theorem requestIn_readOne (text : List Char) (value : Json)
    (h : text.getLast? ≠ some '\n' ∧ text.getLast? ≠ some '\r') :
    requestIn (readOne text value) (Utf8.encode (text ++ ['\n'])) = requestOf value := by
  rw [requestIn_eq (Utf8.fromUtf8_encode _), trimmed_newline text h, request, readOne, if_pos rfl]
  rfl

theorem blank_readOne {text : List Char} (value : Json) (h : Text.trim text ≠ []) :
    ∀ line, Text.trim line = [] → readOne text value line = none := by
  intro line hline
  refine if_neg fun heq => ?_
  rw [heq] at hline
  exact h hline

theorem answersAll_numberId :
    AnswersAll (readOne (permissionText "7") (permissionRequest (.number (.ofU64 ⟨7, by decide⟩))))
      (fun _ => "") true (Utf8.encode (permissionText "7" ++ ['\n'])) := by
  refine (answersAll_iff (blank_readOne _ (by decide +kernel)) _ _ _).2 ?_
  have hframes : frames (Utf8.encode (permissionText "7" ++ ['\n'])) =
      [Utf8.encode (permissionText "7" ++ ['\n'])] := by decide +kernel
  rw [hframes, answerable_cons, requestIn_readOne _ _ (by decide +kernel)]
  refine ⟨fun r hr => ?_, fun _ => answerable_nil, fun _ => rfl⟩
  obtain rfl := Option.some.inj hr
  refine ⟨rfl, fun _ option hfind => ?_⟩
  cases hfind

theorem not_answersAll_textId :
    ¬ AnswersAll (readOne (permissionText "\x22a\x22") (permissionRequest (.string "a")))
      (fun _ => "") true (Utf8.encode (permissionText "\x22a\x22" ++ ['\n'])) := by
  intro h
  have hframes : frames (Utf8.encode (permissionText "\x22a\x22" ++ ['\n'])) =
      [Utf8.encode (permissionText "\x22a\x22" ++ ['\n'])] := by decide +kernel
  have hanswerable := h.answerable (blank_readOne _ (by decide +kernel))
  rw [hframes, answerable_cons, requestIn_readOne _ _ (by decide +kernel)] at hanswerable
  have hid := (hanswerable.1 _ rfl).1
  cases hid

-- no line behind one that is not UTF-8 is heard
example : heard [[0xFF, 0x0A], [0x61, 0x0A]] = [] ∧ heard [[0x61, 0x0A]] = [['a']] := by decide

end Acp

end Hekma
