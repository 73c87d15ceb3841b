/-
**Following the attributed capture** (`domain/supervisor/interaction.rs`,
`domain/supervisor/mod.rs`).

A follower reads the generations of the capture once, oldest first, and then polls the current file
from a byte cursor.  The only sign of a rotation is a file that is shorter than the cursor: the
cursor then snaps to its end, and the caller announces a gap.  A fresh file that has grown past the
cursor before the next poll gives no sign: its first lines are passed over in silence, and the
cursor may fall inside a line.

Main definitions:

* `Format` — the text of a line, and what reads it back;
* `planFollow`, `readAgentLogSince` — the code of a poll;
* `Session`, `Action`, `step` — the writers of a capture and one follower;
* `Steady` — the conditions on a step.

Main results:

* `parseLogLines_text` — what the engine wrote is read back;
* `readAgentLogSince_text` — a poll from the end of a line;
* `Inv.step` — what a step keeps;
* `follow_exact` — **the lines a follower delivers** in a run whose steps are steady.
-/

import Hekma.Capture.AttributedLog
import Hekma.Lib.Guarded

set_option relaxedAutoImplicit false
set_option autoImplicit false

namespace Hekma

namespace Capture

namespace Follow

/-! ### Reading lines back -/

/-- How lines are written and read: the JSON text of a line has no newline, does not end with a
carriage return, is not blank, and is read back as the line. -/
structure Format (α : Type) where
  encode : α → List UInt8
  parse : List UInt8 → Except String α
  blank : List UInt8 → Bool
  parse_encode : ∀ line, parse (encode line) = .ok line
  newline_not_mem : ∀ line, newline ∉ encode line
  no_carriage_return : ∀ line, (encode line).getLast? ≠ some 13
  not_blank : ∀ line, blank (encode line) = false

variable {α : Type}

/-- The bytes of a file. -/
def text (f : Format α) (lines : List α) : List UInt8 :=
  Lines.terminated newline (lines.map f.encode)

/-- Parse lines, from the line numbered `idx`; a blank one is skipped. -/
def parseFrom (f : Format α) (idx : ℕ) : List (List UInt8) → Except String (List α)
  | [] => .ok []
  | line :: lines =>
      if f.blank line then parseFrom f (idx + 1) lines
      else
        match f.parse line with
        | .error e => .error s!"corrupt output-log line {idx + 1}: {e}"
        | .ok parsed => (parseFrom f (idx + 1) lines).map (parsed :: ·)

def parseLogLines (f : Format α) (bytes : List UInt8) : Except String (List α) :=
  parseFrom f 0 (textLines bytes)

/-! ### A poll -/

inductive FollowPlan where
  | shrunk (newCursor : ℕ)
  | consume (start stop newCursor : ℕ)
  deriving DecidableEq, Repr

/-- What one poll reads: nothing of a file that is shorter than the cursor, and whole lines only. -/
def planFollow (bytes : List UInt8) (cursor : ℕ) : FollowPlan :=
  let len := bytes.length
  if len < cursor then .shrunk len
  else
    let consumable := Lines.whole newline (bytes.drop cursor)
    .consume cursor (cursor + consumable) (cursor + consumable)

/-- One poll: the new lines and the next cursor. -/
def readAgentLogSince (f : Format α) (bytes : List UInt8) (cursor : ℕ) :
    Except String (List α × ℕ) :=
  match planFollow bytes cursor with
  | .shrunk newCursor => .ok ([], newCursor)
  | .consume start stop newCursor =>
      if start = stop then .ok ([], newCursor)
      else (parseLogLines f ((bytes.take stop).drop start)).map fun lines => (lines, newCursor)

/-! ### Writers and a follower -/

/-- What the follower does next: one of the three reads of the whole capture, or a poll. -/
inductive Stage where
  | readTwo
  | readOne
  | readCurrent
  | following
  | failed (detail : String)
  deriving DecidableEq, Repr

/-- The capture, the batches whose writer has checked for rotation, and the follower: its cursor,
the lines it has delivered, whether a poll has returned a smaller cursor than it was given, whether
the current file was rotated since its last read, and what rotation had discarded before that. -/
structure Session (α : Type) where
  log : AttributedLog α
  pending : List (List α)
  stage : Stage
  cursor : ℕ
  delivered : List α
  gap : Bool
  rotated : Bool
  lost : List α

inductive Action (α : Type) where
  /-- A writer checks for rotation before its batch. -/
  | check (batch : List α)
  /-- The writer of a pending batch writes it. -/
  | write (i : ℕ)
  /-- The next read of `read_agent_log`. -/
  | read
  /-- `read_agent_log_since`. -/
  | poll

def size (f : Format α) (line : α) : ℕ := (f.encode line).length

/-- The check of a batch rotates the file. -/
def rotates (f : Format α) (s : Session α) : Bool := shouldRotate (s.log.currentLen (size f))

/-- One read of a file of the capture, and what the follower does after it. -/
def readFile (f : Format α) (s : Session α) (lines : List α) (next : Stage) (cursor : ℕ) :
    Session α :=
  match parseLogLines f (text f lines) with
  | .error detail => { s with stage := .failed detail }
  | .ok parsed =>
      { s with
        stage := next
        delivered := s.delivered ++ parsed
        cursor := cursor
        rotated := false
        lost := s.log.discarded }

def step (f : Format α) (s : Session α) : Action α → Session α
  | .check batch =>
      if batch.isEmpty then s
      else
        { s with
          log := s.log.prepare (size f)
          pending := s.pending ++ [batch]
          rotated := s.rotated || rotates f s }
  | .write i =>
      match s.pending[i]? with
      | none => s
      | some batch => { s with log := s.log.write batch, pending := s.pending.eraseIdx i }
  | .read =>
      match s.stage with
      | .readTwo => readFile f s s.log.two .readOne 0
      | .readOne => readFile f s s.log.one .readCurrent 0
      | .readCurrent => readFile f s s.log.current .following (text f s.log.current).length
      | _ => s
  | .poll =>
      match s.stage with
      | .following =>
          match readAgentLogSince f (text f s.log.current) s.cursor with
          | .error detail => { s with stage := .failed detail }
          | .ok (lines, cursor) =>
              { s with
                cursor := cursor
                delivered := s.delivered ++ lines
                gap := s.gap || cursor < s.cursor
                rotated := false }
      | _ => s

/-- A follower of a capture that has not read anything. -/
def Session.fresh (log : AttributedLog α) : Session α where
  log := log
  pending := []
  stage := .readTwo
  cursor := 0
  delivered := []
  gap := false
  rotated := false
  lost := []

/-- The conditions on a step: the file is not rotated between the reads of the whole capture, and
at the first poll after a rotation it is still shorter than the cursor. -/
def Steady (f : Format α) (s : Session α) : Action α → Prop
  | .check batch => batch ≠ [] → s.stage = .readOne ∨ s.stage = .readCurrent → rotates f s = false
  | .poll => s.stage = .following → s.rotated = true → (text f s.log.current).length < s.cursor
  | _ => True

/-! ### What is read back -/

variable {f : Format α} {s : Session α} {lines seen unseen : List α}

theorem text_append (f : Format α) (lines more : List α) :
    text f (lines ++ more) = text f lines ++ text f more := by
  rw [text, List.map_append, Lines.terminated_append]
  rfl

theorem closed_text (f : Format α) (lines : List α) : Lines.Closed newline (text f lines) :=
  Lines.closed_terminated _

theorem text_eq_nil (h : (text f lines).length = 0) : lines = [] := by
  cases lines with
  | nil => rfl
  | cons line lines =>
      have hnil := List.eq_nil_of_length_eq_zero h
      simp [text, Lines.terminated] at hnil

theorem stripCr_encode (f : Format α) (line : α) : stripCr (f.encode line) = f.encode line :=
  if_neg (f.no_carriage_return line)

/-- **What the engine wrote is read back.** -/
theorem parseLogLines_text (f : Format α) (lines : List α) :
    parseLogLines f (text f lines) = .ok lines := by
  have hlines : textLines (text f lines) = lines.map f.encode := by
    rw [textLines_of_closed (closed_text f lines), text, Lines.complete_terminated, List.map_map]
    · exact List.map_congr_left fun line _ => stripCr_encode f line
    · intro line hline
      obtain ⟨a, -, rfl⟩ := List.mem_map.1 hline
      exact f.newline_not_mem a
  have hparse : ∀ idx, parseFrom f idx (lines.map f.encode) = .ok lines := by
    clear hlines
    induction lines with
    | nil => exact fun idx => rfl
    | cons line lines ih =>
        intro idx
        rw [List.map_cons, parseFrom, f.not_blank, f.parse_encode]
        simp only [Bool.false_eq_true, if_false, ih]
        rfl
  rw [parseLogLines, hlines, hparse]

/-- **A poll from the end of a line** delivers what follows. -/
theorem readAgentLogSince_text (f : Format α) (seen unseen : List α) :
    readAgentLogSince f (text f (seen ++ unseen)) (text f seen).length =
      .ok (unseen, (text f (seen ++ unseen)).length) := by
  have hplan : planFollow (text f (seen ++ unseen)) (text f seen).length =
      .consume (text f seen).length (text f (seen ++ unseen)).length
        (text f (seen ++ unseen)).length := by
    rw [text_append]
    unfold planFollow
    dsimp only
    rw [if_neg (by rw [List.length_append]; omega), List.drop_left,
      Lines.whole_of_closed (closed_text f unseen), List.length_append]
  rw [readAgentLogSince, hplan]
  dsimp only
  split
  · rename_i hsame
    have hnone : unseen = [] := by
      rw [text_append, List.length_append] at hsame
      exact text_eq_nil (f := f) (by omega)
    rw [hnone]
  · rw [List.take_length, text_append, List.drop_left, parseLogLines_text]
    rfl

/-- A poll of a file that is shorter than the cursor. -/
theorem readAgentLogSince_shrunk {bytes : List UInt8} {cursor : ℕ} (h : bytes.length < cursor) :
    readAgentLogSince f bytes cursor = .ok ([], bytes.length) := by
  rw [readAgentLogSince, planFollow, if_pos h]

/-! ### What a step keeps -/

/-- The records that are not in the current file. -/
def older (log : AttributedLog α) : List α := log.discarded ++ log.two ++ log.one

theorem all_eq (log : AttributedLog α) : log.all = older log ++ log.current := rfl

/-- A follower that polls: after a rotation it has delivered nothing of the current file; before
one its cursor is at the end of a line, and without a gap it has delivered what it was to. -/
structure Following (f : Format α) (s : Session α) : Prop where
  stale : s.rotated = true → s.delivered.Sublist (older s.log)
  fresh : s.rotated = false → ∃ seen unseen, s.log.current = seen ++ unseen ∧
    s.cursor = (text f seen).length ∧ s.delivered.Sublist (older s.log ++ seen) ∧
    (s.gap = false → older s.log ++ seen = s.lost ++ s.delivered)

/-- What holds at each stage of a follower. -/
def Inv (f : Format α) (s : Session α) : Prop :=
  match s.stage with
  | .readTwo => s.delivered = []
  | .readOne => s.delivered = s.log.two ∧ s.lost = s.log.discarded
  | .readCurrent => s.delivered = s.log.two ++ s.log.one ∧ s.lost = s.log.discarded
  | .following => Following f s
  | .failed _ => False

theorem Following.sublist (h : Following f s) : s.delivered.Sublist s.log.all := by
  rw [all_eq]
  cases hrotated : s.rotated with
  | true => exact (h.stale hrotated).trans (List.sublist_append_left _ _)
  | false =>
      obtain ⟨seen, unseen, hcurrent, -, hsub, -⟩ := h.fresh hrotated
      rw [hcurrent, ← List.append_assoc]
      exact hsub.trans (List.sublist_append_left _ _)

theorem Inv.sublist (h : Inv f s) : s.delivered.Sublist s.log.all := by
  unfold Inv at h
  split at h
  · rw [h]
    exact List.nil_sublist _
  · rw [h.1, AttributedLog.all, List.append_assoc, List.append_assoc]
    exact (List.sublist_append_left _ _).trans (List.sublist_append_right _ _)
  · rw [h.1, AttributedLog.all, List.append_assoc, List.append_assoc, ← List.append_assoc s.log.two]
    exact (List.sublist_append_left _ _).trans (List.sublist_append_right _ _)
  · exact h.sublist
  · exact absurd h not_false

/-- A batch of the writer is left to deliver. -/
theorem Inv.write (h : Inv f s) (batch : List α) (pending : List (List α)) :
    Inv f { s with log := s.log.write batch, pending := pending } := by
  unfold Inv at h ⊢
  cases hstage : s.stage with
  | following =>
      rw [hstage] at h
      refine ⟨h.stale, fun hrotated => ?_⟩
      obtain ⟨seen, unseen, hcurrent, hcursor, hsub, hgap⟩ := h.fresh hrotated
      refine ⟨seen, unseen ++ batch, ?_, hcursor, hsub, hgap⟩
      change s.log.current ++ batch = _
      rw [hcurrent, List.append_assoc]
  | _ =>
      rw [hstage] at h
      exact h

/-- A rotation moves the current file to the older ones, the lines it has not delivered too. -/
theorem Inv.check (h : Inv f s) {batch : List α} (hne : batch ≠ [])
    (hsteady : Steady f s (.check batch)) :
    Inv f { s with
      log := s.log.prepare (size f)
      pending := s.pending ++ [batch]
      rotated := s.rotated || rotates f s } := by
  cases hrot : rotates f s with
  | false =>
      have hlog : s.log.prepare (size f) = s.log := by
        rw [AttributedLog.prepare, if_neg]
        exact fun hrotate => absurd (hrotate.symm.trans hrot) (by decide)
      rw [hlog, Bool.or_false]
      unfold Inv at h ⊢
      cases hstage : s.stage with
      | following =>
          rw [hstage] at h
          exact ⟨h.stale, h.fresh⟩
      | _ =>
          rw [hstage] at h
          exact h
  | true =>
      have hlog : s.log.prepare (size f) = s.log.rotateGenerations := if_pos hrot
      rw [hlog, Bool.or_true]
      -- the file is not rotated between the reads of the whole capture
      have hreading : s.stage ≠ .readOne ∧ s.stage ≠ .readCurrent := by
        constructor
        · exact fun hstage => absurd (hrot.symm.trans (hsteady hne (.inl hstage))) (by decide)
        · exact fun hstage => absurd (hrot.symm.trans (hsteady hne (.inr hstage))) (by decide)
      have hsub := h.sublist
      unfold Inv at h ⊢
      cases hstage : s.stage with
      | readTwo =>
          rw [hstage] at h
          exact h
      | readOne => exact absurd hstage hreading.1
      | readCurrent => exact absurd hstage hreading.2
      | following =>
          refine ⟨fun _ => ?_, fun hrotated => absurd hrotated (by simp)⟩
          exact hsub
      | failed detail =>
          rw [hstage] at h
          exact h

/-- The reads of the whole capture deliver the generations in order. -/
theorem Inv.read (h : Inv f s) : Inv f (step f s .read) := by
  unfold Inv at h
  cases hstage : s.stage with
  | readTwo =>
      rw [hstage] at h
      simp only [step, hstage, readFile, parseLogLines_text]
      exact ⟨by rw [h]; rfl, rfl⟩
  | readOne =>
      rw [hstage] at h
      simp only [step, hstage, readFile, parseLogLines_text]
      exact ⟨by rw [h.1], rfl⟩
  | readCurrent =>
      rw [hstage] at h
      simp only [step, hstage, readFile, parseLogLines_text]
      have hall : older s.log ++ s.log.current =
          s.log.discarded ++ (s.delivered ++ s.log.current) := by
        rw [h.1, older]
        simp only [List.append_assoc]
      refine ⟨fun hrotated => absurd hrotated (by simp), fun _ => ⟨s.log.current, [], ?_, rfl, ?_,
        fun _ => hall⟩⟩
      · exact (List.append_nil _).symm
      · change (s.delivered ++ s.log.current).Sublist (older s.log ++ s.log.current)
        rw [hall]
        exact List.sublist_append_right _ _
  | following =>
      simp only [step, hstage]
      unfold Inv
      rw [hstage] at h ⊢
      exact h
  | failed detail =>
      rw [hstage] at h
      exact absurd h not_false

/-- **A steady poll** delivers what follows, or announces a gap. -/
theorem Inv.poll (h : Inv f s) (hsteady : Steady f s .poll) :
    Inv f (step f s .poll) ∧ (s.stage = .following → (step f s .poll).gap = false →
      (step f s .poll).log.all = (step f s .poll).lost ++ (step f s .poll).delivered) := by
  unfold Inv at h
  cases hstage : s.stage with
  | following =>
      rw [hstage] at h
      cases hrotated : s.rotated with
      | true =>
          -- the log rotated under the cursor: the poll starts over and says so
          have hshort := hsteady hstage hrotated
          simp only [step, hstage, readAgentLogSince_shrunk hshort, List.append_nil, hshort,
            decide_true, Bool.or_true]
          refine ⟨⟨fun hr => absurd hr (by simp),
            fun _ => ⟨s.log.current, [], ?_, rfl, ?_, ?_⟩⟩, ?_⟩
          · exact (List.append_nil _).symm
          · exact (h.stale hrotated).trans (List.sublist_append_left _ _)
          · exact fun hgap => absurd hgap (by simp)
          · exact fun _ hgap => absurd hgap (by simp)
      | false =>
          -- the cursor stands at the end of what was seen
          obtain ⟨seen, unseen, hcurrent, hcursor, hsub, hgap⟩ := h.fresh hrotated
          have hnotless : ¬ (text f (seen ++ unseen)).length < (text f seen).length := by
            rw [text_append, List.length_append]
            omega
          simp only [step, hstage, hcurrent, hcursor, readAgentLogSince_text, hnotless,
            decide_false, Bool.or_false]
          have hall : older s.log ++ s.log.current = older s.log ++ seen ++ unseen := by
            rw [hcurrent, List.append_assoc]
          have hdone : s.gap = false →
              older s.log ++ s.log.current = s.lost ++ (s.delivered ++ unseen) := by
            intro hg
            rw [hall, hgap hg, List.append_assoc]
          refine ⟨⟨fun hr => absurd hr (by simp), fun _ => ⟨s.log.current, [], ?_, ?_, ?_, hdone⟩⟩,
            fun _ => hdone⟩
          · exact (List.append_nil _).symm
          · rw [hcurrent]
          · rw [hall]
            exact hsub.append_right unseen
  | failed detail =>
      rw [hstage] at h
      exact absurd h not_false
  | _ =>
      simp only [step, hstage]
      unfold Inv
      rw [hstage] at h ⊢
      exact ⟨h, fun hf => absurd hf (by simp)⟩

/-- **What a steady step keeps.** -/
theorem Inv.step {a : Action α} (h : Inv f s) (hsteady : Steady f s a) : Inv f (step f s a) := by
  cases a with
  | check batch =>
      simp only [Follow.step]
      split
      · exact h
      · rename_i hne
        exact h.check (by simpa using hne) hsteady
  | write i =>
      simp only [Follow.step]
      split
      · exact h
      · rename_i batch hbatch
        exact h.write batch (s.pending.eraseIdx i)
  | read => exact h.read
  | poll => exact (h.poll hsteady).1

/-- **The lines a follower delivers** in a run whose steps are steady: they are lines of the capture
in order, none twice; no read and no poll fails; and after a poll, if none has returned a smaller
cursor than it was given, nothing is missing but what had been discarded before the reads. -/
theorem follow_exact (f : Format α) (log : AttributedLog α) (as : List (Action α))
    (hmeets : Guarded.Meets (Follow.step f) (Steady f) (Session.fresh log) as) :
    ∀ t ∈ Guarded.states (Follow.step f) (Session.fresh log) as,
      t.delivered.Sublist t.log.all ∧ (∀ detail, t.stage ≠ .failed detail) ∧
      (Steady f t .poll → t.stage = .following → (Follow.step f t .poll).gap = false →
        (Follow.step f t .poll).log.all =
          (Follow.step f t .poll).lost ++ (Follow.step f t .poll).delivered) := by
  intro t ht
  have hfresh : Inv f (Session.fresh log) := rfl
  have hinv : Inv f t :=
    Guarded.invariant (fun _ _ h hsteady => h.step hsteady) hfresh hmeets ht
  refine ⟨hinv.sublist, fun detail hfailed => ?_, fun hsteady => (hinv.poll hsteady).2⟩
  unfold Inv at hinv
  rw [hfailed] at hinv
  exact hinv

/-! ### A silent gap -/

/-- The bytes of a text in ASCII. -/
def ascii (s : String) : List UInt8 := s.toList.map fun c => UInt8.ofNat c.toNat

/-- The text of a line of the engine up to its own text. -/
def rowHead : List UInt8 :=
  ascii ("\x7b\"schema_version\":1,\"instance\":\"a\",\"stream\":\"engine\",\"at\":\"1\"," ++
    "\"text\":\"")

def rowTail : List UInt8 := ascii "\"\x7d"

/-- The text of a line whose own text is `n` times the letter x. -/
def rowText (n : ℕ) : List UInt8 := rowHead ++ List.replicate n 120 ++ rowTail

theorem length_rowText (n : ℕ) : (rowText n).length = n + 72 := by
  have hhead : rowHead.length = 70 := by decide +kernel
  have htail : rowTail.length = 2 := by decide +kernel
  rw [rowText, List.length_append, List.length_append, List.length_replicate, hhead, htail]
  omega

/-- Lines whose text is a row of the letter x, each as the length of its row. -/
def rows : Format ℕ where
  encode := rowText
  parse bytes :=
    if bytes = rowText (bytes.length - 72) then .ok (bytes.length - 72)
    else .error "expected a line"
  blank bytes := bytes.all fun b => b = 32 || (9 ≤ b && b ≤ 13)
  parse_encode n := by
    rw [length_rowText, Nat.add_sub_cancel, if_pos rfl]
  newline_not_mem n := by
    have hhead : newline ∉ rowHead := by decide +kernel
    have htail : newline ∉ rowTail := by decide +kernel
    have hrow : newline ∉ List.replicate n 120 :=
      fun hmem => absurd (List.eq_of_mem_replicate hmem) (by decide)
    simp only [rowText, List.mem_append, hhead, hrow, htail, or_self, not_false_eq_true]
  no_carriage_return n := by
    have htail : rowTail.getLast? = some 125 := by decide +kernel
    rw [rowText, List.getLast?_append, htail, Option.some_or]
    decide
  not_blank n := by
    have hhead : (rowHead.all fun b => b = 32 || (9 ≤ b && b ≤ 13)) = false := by decide +kernel
    rw [rowText, List.all_append, List.all_append, hhead]
    rfl

/-- The session of a follower that has read an empty capture, while the current file has grown. -/
def grown (current : List ℕ) : Session ℕ :=
  { Session.fresh ⟨current, [], [], []⟩ with stage := .following }

/-- The current file grows as long as it has not reached its size. -/
theorem grown_append (current : List ℕ) (n : ℕ)
    (hsmall : (⟨current, [], [], []⟩ : AttributedLog ℕ).currentLen (size rows) <
      logRotateMaxBytes) :
    [Action.check [n], .write 0].foldl (step rows) (grown current) = grown (current ++ [n]) := by
  have hrot : shouldRotate ((⟨current, [], [], []⟩ : AttributedLog ℕ).currentLen (size rows)) =
      false := decide_eq_false (Nat.not_le_of_lt hsmall)
  simp [step, grown, Session.fresh, AttributedLog.prepare, AttributedLog.write, rotates, hrot]

/-- Three lines of four million letters, and a line that finds the file rotated. -/
def silentGap : List (Action ℕ) :=
  [.read, .read, .read, .check [4000000], .write 0, .check [4000000], .write 0, .check [4000000],
    .write 0, .check [0], .write 0]

theorem currentLen_rows (current : List ℕ) :
    (⟨current, [], [], []⟩ : AttributedLog ℕ).currentLen (size rows) =
      (current.map fun n => n + 73).sum := by
  have hsize : ∀ n, size rows n + 1 = n + 73 := fun n => congrArg (· + 1) (length_rowText n)
  simp only [AttributedLog.currentLen, hsize]

theorem silentGap_eq : silentGap.foldl (step rows) (Session.fresh .empty) =
    { grown [] with log := ⟨[0], [4000000, 4000000, 4000000], [], []⟩, rotated := true } := by
  have hreads : [Action.read, .read, .read].foldl (step rows) (Session.fresh .empty) = grown [] :=
    rfl
  have hfirst := grown_append [] 4000000 (by rw [currentLen_rows]; decide)
  have hsecond := grown_append [4000000] 4000000 (by rw [currentLen_rows]; decide)
  have hthird := grown_append [4000000, 4000000] 4000000 (by rw [currentLen_rows]; decide)
  have hrot : shouldRotate ((⟨[4000000, 4000000, 4000000], [], [], []⟩ :
      AttributedLog ℕ).currentLen (size rows)) = true := by
    rw [currentLen_rows]
    decide
  have hlast : [Action.check [0], .write 0].foldl (step rows)
      (grown [4000000, 4000000, 4000000]) =
        { grown [] with log := ⟨[0], [4000000, 4000000, 4000000], [], []⟩, rotated := true } := by
    simp [step, grown, Session.fresh, AttributedLog.prepare, AttributedLog.write,
      AttributedLog.rotateGenerations, rotates, hrot]
  have hsplit : silentGap = [.read, .read, .read] ++ ([.check [4000000], .write 0] ++
      ([.check [4000000], .write 0] ++ ([.check [4000000], .write 0] ++
        [.check [0], .write 0]))) := rfl
  rw [hsplit, List.foldl_append, hreads, List.foldl_append, hfirst, List.foldl_append,
    List.nil_append, hsecond, List.foldl_append, List.singleton_append, hthird]
  exact hlast

/-- **A silent gap**: the file was rotated and no poll has seen it shorter than the cursor.  The
follower delivers the line of the fresh file, no poll has returned a smaller cursor, and the three
lines before it are never delivered. -/
theorem silent_gap : ¬ ∀ as, ∀ t ∈ Guarded.states (step rows) (Session.fresh .empty) as,
    t.delivered.Sublist t.log.all ∧ (∀ detail, t.stage ≠ .failed detail) ∧
    (t.stage = .following → (step rows t .poll).gap = false →
      (step rows t .poll).log.all =
        (step rows t .poll).lost ++ (step rows t .poll).delivered) := by
  intro hall
  have hlast := (hall silentGap _ Guarded.last_mem_states).2.2
  rw [silentGap_eq] at hlast
  have hpoll : readAgentLogSince rows (text rows [0]) 0 = .ok ([0], (text rows [0]).length) :=
    readAgentLogSince_text rows [] [0]
  have hmissing := hlast rfl
  simp only [step, grown, Session.fresh, hpoll, Nat.not_lt_zero, decide_false, Bool.or_false,
    true_implies] at hmissing
  exact absurd hmissing (by decide)

/-- A follower that reads an empty capture and polls after a line was appended. -/
def oneLine : List (Action ℕ) := [.read, .read, .read, .check [0], .write 0, .poll]

/-- It has delivered the line. -/
theorem follow_exact_once :
    (oneLine.foldl (step rows) (Session.fresh .empty)).delivered.Sublist
      (oneLine.foldl (step rows) (Session.fresh .empty)).log.all := by
  refine (follow_exact rows .empty oneLine ⟨trivial, trivial, trivial, ?_, trivial, ?_, trivial⟩ _
    Guarded.last_mem_states).1
  · exact fun _ hreading => by rcases hreading with h | h <;> exact absurd h (by decide)
  · exact fun _ hrotated => absurd hrotated (by decide)

end Follow

end Capture

end Hekma
