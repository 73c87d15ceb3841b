/-
**The drain of the observed exchanges** (`drain_observed_for`, `cap_observed_park_buffer`).

A pass takes the exchanges the listener has seen, numbers them, and commits them behind those that
an earlier pass has parked.  The first commit that fails ends the pass: what is left is parked with
a count of the failures at its front, and a front that has failed three times is skipped.  The park
is bounded, and its oldest reports go first.

The model keeps, beside the state of the source, every commit that was tried and what became of each
report, in order.  A commit has its answer as an input, and no answer acts on the process.

Main definitions:

* `Observed` — the queue, the counter and the park of an instance, with its history;
* `Observed.drain` — one pass;
* `Observed.Accounted` — every exchange is waiting, parked, or settled in order, and announced;
* `Observed.SkipsEarned` — a report is skipped after three failures of its own;
* `Observed.Alone` — no report is parked under a count that is not its own.

Main results:

* `Observed.drain_accounted` — every pass keeps the account;
* `Observed.drain_counter` — a pass that parks nothing under a foreign count keeps the counter true;
* `Observed.drain_sound` — every run is accounted for, and its skips are earned while every pass
  meets the condition;
* `Observed.park_settleObserved` — the park is the one of the supervisor.
-/

import Hekma.Lib.Guarded
import Hekma.Supervisor.Usage

set_option relaxedAutoImplicit false
set_option autoImplicit false

namespace Hekma

open Supervisor (mint capObservedParkBuffer)

/-! ### Answers, fates and announcements -/

/-- How the commit of a report ends. -/
inductive CommitAnswer where
  | inserted
  | duplicateReplay
  | busy
  | failed
  deriving DecidableEq, Repr

/-- The error of a commit: a report that is in the ledger already is no error. -/
def CommitAnswer.error : CommitAnswer → Option EngineError
  | .inserted | .duplicateReplay => none
  | .busy => some (.store .busy)
  | .failed => some (.store .refused)

/-- What became of a report. -/
inductive Fate where
  | counted
  | skipped
  | dropped
  | lost
  deriving DecidableEq, Repr

/-- What the drain announces of the reports that are given up. -/
inductive DrainNote where
  | skip (sequence attempts : ℕ)
  | overflow (count first last : ℕ)
  | lost (count : ℕ)
  deriving DecidableEq, Repr

namespace DrainNote

/-- The text of an announcement. -/
def text (name : String) : DrainNote → String
  | skip sequence attempts =>
      s!"{name}: an observed usage event (sequence {sequence}) failed to " ++
        s!"commit on {attempts} consecutive drains and is SKIPPED (not " ++
        "counted) — the rest of the Run's observed usage keeps counting; " ++
        "investigate the Usage Ledger store"
  | overflow count first last =>
      s!"{name}: {count} parked observed usage event(s) (sequences {first}..{last}) " ++
        "were DROPPED and are NOT counted — the pending buffer is capped at " ++
        s!"{observedParkMaxEvents} events while the Usage Ledger store keeps " ++
        "failing, so the oldest un-committed events had to go; investigate the store outage"
  | lost count =>
      s!"{name}: {count} observed usage event(s) could not be committed to the Usage " ++
        "Ledger and are LOST — this is the terminal drain (the process is dead or " ++
        "the handle is being removed, and any parked buffer is dropped with it), " ++
        "so they cannot be retried"

/-- The sequences an announcement names as skipped. -/
def skips : DrainNote → List ℕ
  | skip sequence _ => [sequence]
  | _ => []

/-- The sequences an announcement names as dropped. -/
def drops : DrainNote → List ℕ
  | overflow _ first last => List.range' first (last + 1 - first)
  | _ => []

/-- The number of reports an announcement names as lost. -/
def losses : DrainNote → ℕ
  | lost count => count
  | _ => 0

end DrainNote

/-! ### The source of an instance -/

/-- The observed source of an instance, with its history. -/
structure Observed where
  /-- What the listener has seen since the last pass. -/
  queue : List (ℕ × ℕ × ℕ)
  /-- The number of the next exchange. -/
  nextSequence : ℕ
  /-- The parked reports, and the failures counted at the first. -/
  park : Option (List ParsedUsage × ℕ)
  /-- What was announced. -/
  notes : List DrainNote
  /-- Every exchange the listener has seen. -/
  pushed : List (ℕ × ℕ × ℕ)
  /-- Every commit that was tried. -/
  tries : List (ParsedUsage × CommitAnswer)
  /-- What became of the reports that are neither queued nor parked. -/
  settled : List (ParsedUsage × Fate)
  deriving DecidableEq, Repr

namespace Observed

/-- A source at the start of a Run. -/
def fresh : Observed := ⟨[], 0, none, [], [], [], []⟩

/-- The parked reports. -/
def parked (o : Observed) : List ParsedUsage := o.park.elim [] Prod.fst

/-- The failures counted at the first parked report. -/
def attempts (o : Observed) : ℕ := o.park.elim 0 Prod.snd

/-- The failures counted, if the first parked report is the one of the sequence. -/
def parkedAt (o : Observed) (front : ℕ) : Option ℕ :=
  o.park.bind fun park => if park.1.head?.any fun e => e.sequence = front then some park.2 else none

/-- The listener has seen an exchange. -/
def push (o : Observed) (exchange : ℕ × ℕ × ℕ) : Observed :=
  { o with queue := o.queue ++ [exchange], pushed := o.pushed ++ [exchange] }

def announce (o : Observed) (notes : List DrainNote) : Observed :=
  { o with notes := o.notes ++ notes }

/-- Settle reports with one fate. -/
def close (o : Observed) (events : List ParsedUsage) (fate : Fate) : Observed :=
  { o with settled := o.settled ++ events.map fun e => (e, fate) }

end Observed

/-- One pass: its mode, whether the queue could be locked, and how the commits end. -/
structure DrainPass where
  mode : DrainMode
  lockable : Bool
  answers : ℕ → CommitAnswer

/-- The commits of a batch, up to the first that fails.  Returns those that were tried, what is left
from the failed one on, and the error. -/
def commitBatch (answers : ℕ → CommitAnswer) :
    List ParsedUsage → List (ParsedUsage × CommitAnswer) × List ParsedUsage × Option EngineError
  | [] => ([], [], none)
  | e :: rest =>
      match (answers 0).error with
      | some err => ([(e, answers 0)], e :: rest, some err)
      | none =>
          let (tries, left, err) := commitBatch (fun i => answers (i + 1)) rest
          ((e, answers 0) :: tries, left, err)

/-- The announcement of what the cap drops. -/
def overflowNotes (events : List ParsedUsage) : List DrainNote :=
  let overflow := events.length - observedParkMaxEvents
  if 0 < overflow then
    let dropped := events.take overflow
    [.overflow overflow ((dropped.head?.map ParsedUsage.sequence).getD 0)
      ((dropped.getLast?.map ParsedUsage.sequence).getD 0)]
  else []

namespace Observed

/-- The reports of a pass: the parked ones, and behind them the queue. -/
def batch (o : Observed) (p : DrainPass) : List ParsedUsage :=
  o.parked ++ mint o.nextSequence (if p.lockable then o.queue else [])

/-- The queue, taken if it could be locked. -/
def takeQueue (o : Observed) (p : DrainPass) : Observed :=
  if p.lockable then { o with queue := [], nextSequence := o.nextSequence + o.queue.length } else o

/-- The oldest reports go if there are too many to park. -/
def dropOverflow (o : Observed) (rest : List ParsedUsage) : Observed :=
  (o.announce (overflowNotes rest)).close
    (rest.take (rest.length - observedParkMaxEvents)) .dropped

/-- The park after a failed commit of a pass that is not the last: the oldest reports go if there
are too many, and the front goes if it has failed too often. -/
def repark (o : Observed) (rest : List ParsedUsage) (err : EngineError) : Observed :=
  let remaining := capObservedParkBuffer rest
  let o := o.dropOverflow rest
  match remaining with
  | [] => { o with park := none }
  | front :: behind =>
      let attempts := parkAttempts (o.parkedAt front.sequence) err
      if usageParkMaxAttempts ≤ attempts then
        { (o.announce [.skip front.sequence attempts]).close [front] .skipped with
          park := if behind.isEmpty then none else some (behind, 1) }
      else { o with park := some (front :: behind, attempts) }

/-- What a pass does with the reports it has not committed. -/
def settle (o : Observed) (mode : DrainMode) (rest : List ParsedUsage) :
    Option EngineError → Observed
  | none => { o with park := none }
  | some err =>
      match mode with
      | .terminal => { (o.announce [.lost rest.length]).close rest .lost with park := none }
      | .midRun => o.repark rest err

/-- The commits of a pass, and the reports that are in the ledger by them. -/
def commitAll (o : Observed) (tries : List (ParsedUsage × CommitAnswer)) : Observed :=
  Observed.close { o with tries := o.tries ++ tries }
    ((tries.filter (·.2.error.isNone)).map Prod.fst) .counted

/-- One pass. -/
def drain (o : Observed) (p : DrainPass) : Observed :=
  let events := o.batch p
  let taken := o.takeQueue p
  if events.isEmpty then taken
  else
    let (tries, rest, err) := commitBatch p.answers events
    (taken.commitAll tries).settle p.mode rest err

end Observed

/-- What happens to a source. -/
inductive ObservedStep where
  | push (exchange : ℕ × ℕ × ℕ)
  | drain (p : DrainPass)

def Observed.step (o : Observed) : ObservedStep → Observed
  | .push exchange => o.push exchange
  | .drain p => o.drain p

/-! ### What is promised -/

namespace Observed

/-- The reports with a fate. -/
def settledAs (o : Observed) (fate : Fate) : List ParsedUsage :=
  (o.settled.filter (·.2 = fate)).map Prod.fst

/-- The reports that are in the ledger. -/
def committed (o : Observed) : List ParsedUsage :=
  (o.tries.filter (·.2.error.isNone)).map Prod.fst

/-- Every exchange is settled, pending or waiting, in order and under its number; the reports that
count are those whose commit succeeded, and every other one is announced. -/
structure Account (o : Observed) (pending : List ParsedUsage) : Prop where
  ordered : mint 0 o.pushed = o.settled.map Prod.fst ++ pending ++ mint o.nextSequence o.queue
  numbered : o.nextSequence = o.settled.length + pending.length
  counted : o.committed = o.settledAs .counted
  skips : o.notes.flatMap DrainNote.skips = (o.settledAs .skipped).map ParsedUsage.sequence
  drops : o.notes.flatMap DrainNote.drops = (o.settledAs .dropped).map ParsedUsage.sequence
  losses : (o.notes.map DrainNote.losses).sum = (o.settledAs .lost).length

/-- The account of a source, whose park is bounded. -/
structure Accounted (o : Observed) : Prop where
  account : o.Account o.parked
  capped : o.parked.length ≤ observedParkMaxEvents

/-- The commits that were tried and did not meet contention. -/
def spent (o : Observed) : List (ParsedUsage × CommitAnswer) := o.tries.filter (·.2 ≠ .busy)

/-- A skipped report has failed three times in a row.  A commit is tried on the first pending report
only, so it was the first each time. -/
def SkipsEarned (o : Observed) : Prop :=
  ∀ e, (e, Fate.skipped) ∈ o.settled →
    List.replicate usageParkMaxAttempts (e, CommitAnswer.failed) <:+: o.spent

/-- The failures counted at the first parked report are its own, and the last ones. -/
def CountsOwn (o : Observed) : Prop :=
  ∀ events n, o.park = some (events, n) → ∃ front behind, events = front :: behind ∧
    n < usageParkMaxAttempts ∧ List.replicate n (front, CommitAnswer.failed) <:+ o.spent

/-- The pass parks no report under a count that is not its own: when the commit of the `i`-th report
of the batch fails for good, the rest of the batch fits the park, and nothing is behind a report
that fails for the third time. -/
def Alone (o : Observed) : ObservedStep → Prop
  | .push _ => True
  | .drain p => p.mode = .midRun → ∀ i < (o.batch p).length,
      (∀ j < i, (p.answers j).error = none) → p.answers i = .failed →
        (o.batch p).length - i ≤ observedParkMaxEvents ∧
          (i = 0 → usageParkMaxAttempts ≤ o.attempts + 1 → (o.batch p).length = 1)

end Observed

/-! ### Numbers -/

section Mint

variable {n k : ℕ} {xs ys : List (ℕ × ℕ × ℕ)}

@[simp] theorem length_mint : (mint n xs).length = xs.length := by
  induction xs generalizing n with
  | nil => rfl
  | cons x xs ih => rw [mint, List.length_cons, ih, List.length_cons]

theorem mint_append : mint n (xs ++ ys) = mint n xs ++ mint (n + xs.length) ys := by
  induction xs generalizing n with
  | nil => rfl
  | cons x xs ih =>
      rw [List.cons_append, mint, mint, ih, List.cons_append, List.length_cons,
        show n + 1 + xs.length = n + (xs.length + 1) by omega]

theorem map_sequence_mint : (mint n xs).map ParsedUsage.sequence = List.range' n xs.length := by
  induction xs generalizing n with
  | nil => rfl
  | cons x xs ih => rw [mint, List.map_cons, ih, List.length_cons, List.range'_succ]

theorem drop_mint : (mint n xs).drop k = mint (n + k) (xs.drop k) := by
  induction k generalizing n xs with
  | zero => rfl
  | succ k ih =>
      cases xs with
      | nil => rfl
      | cons x xs =>
          rw [mint, List.drop_succ_cons, List.drop_succ_cons, ih,
            show n + 1 + k = n + (k + 1) by omega]

theorem take_mint : (mint n xs).take k = mint n (xs.take k) := by
  induction k generalizing n xs with
  | zero => simp [mint]
  | succ k ih =>
      cases xs with
      | nil => rfl
      | cons x xs => rw [mint, List.take_succ_cons, List.take_succ_cons, mint, ih]

/-- What stands between two parts of numbered reports is numbered. -/
theorem mint_infix {l₁ l₂ l₃ : List ParsedUsage} (h : mint n xs = l₁ ++ l₂ ++ l₃) :
    ∃ zs, l₂ = mint (n + l₁.length) zs := by
  refine ⟨(xs.drop l₁.length).take l₂.length, ?_⟩
  rw [← take_mint, ← drop_mint, h, List.append_assoc, List.drop_left, List.take_left]

end Mint

/-! ### One batch -/

/-- How the commits of a batch end: all of them succeed, or one fails and what is left starts with
its report. -/
theorem commitBatch_cases (answers : ℕ → CommitAnswer) (events : List ParsedUsage) :
    (∃ done, commitBatch answers events = (done, [], none) ∧ done.map Prod.fst = events ∧
      ∀ t ∈ done, t.2.error = none) ∨
    ∃ done front behind err, events = done.map Prod.fst ++ front :: behind ∧
      (∀ t ∈ done, t.2.error = none) ∧ (∀ j < done.length, (answers j).error = none) ∧
      (answers done.length).error = some err ∧
      commitBatch answers events =
        (done ++ [(front, answers done.length)], front :: behind, some err) := by
  induction events generalizing answers with
  | nil => exact .inl ⟨[], rfl, rfl, by simp⟩
  | cons e rest ih =>
      rw [commitBatch]
      cases herr : (answers 0).error with
      | some err => exact .inr ⟨[], e, rest, err, rfl, by simp, by simp, herr, rfl⟩
      | none =>
          rcases ih fun i => answers (i + 1) with
            ⟨done, heq, hmap, hdone⟩ | ⟨done, front, behind, err, hrest, hdone, hearlier, hfails, heq⟩
          · refine .inl ⟨(e, answers 0) :: done, by simp [heq], by simp [hmap], ?_⟩
            intro t ht
            rcases List.mem_cons.1 ht with rfl | ht
            · exact herr
            · exact hdone t ht
          · refine .inr ⟨(e, answers 0) :: done, front, behind, err, by simp [hrest], ?_, ?_,
              by simpa using hfails, by simp [heq]⟩
            · intro t ht
              rcases List.mem_cons.1 ht with rfl | ht
              · exact herr
              · exact hdone t ht
            · intro j hj
              cases j with
              | zero => exact herr
              | succ j => exact hearlier j (by simpa using hj)

/-! ### The account -/

namespace Observed

variable {o o' : Observed} {p : DrainPass} {pending rest l : List ParsedUsage} {fate : Fate}
  {tries : List (ParsedUsage × CommitAnswer)} {notes : List DrainNote}

theorem map_fst_close (l : List ParsedUsage) (fate : Fate) :
    (l.map fun e => (e, fate)).map Prod.fst = l := by
  rw [List.map_map]
  exact List.map_id' l

theorem settledAs_append {f : Fate} (h : o'.settled = o.settled ++ l.map fun e => (e, fate)) :
    o'.settledAs f = o.settledAs f ++ if fate = f then l else [] := by
  rw [settledAs, h, List.filter_append, List.map_append, ← settledAs]
  congr 1
  by_cases hf : fate = f
  · subst hf
    rw [if_pos rfl, List.filter_eq_self.2 (by simp), map_fst_close]
  · rw [if_neg hf, List.filter_eq_nil_iff.2 (by simp [hf])]
    rfl

/-- Settling the first of the pending reports, with the announcements that go with their fate. -/
theorem Account.settle (h : o.Account (l ++ rest)) (fate : Fate) (notes : List DrainNote)
    (hpushed : o'.pushed = o.pushed) (hqueue : o'.queue = o.queue)
    (hnext : o'.nextSequence = o.nextSequence)
    (hsettled : o'.settled = o.settled ++ l.map fun e => (e, fate))
    (htries : o'.committed = o.committed ++ if fate = .counted then l else [])
    (hnotes : o'.notes = o.notes ++ notes)
    (hskips : notes.flatMap DrainNote.skips =
      (if fate = .skipped then l else []).map ParsedUsage.sequence)
    (hdrops : notes.flatMap DrainNote.drops =
      (if fate = .dropped then l else []).map ParsedUsage.sequence)
    (hlosses : (notes.map DrainNote.losses).sum = (if fate = .lost then l else []).length) :
    o'.Account rest where
  ordered := by
    rw [hpushed, h.ordered, hsettled, hqueue, hnext, List.map_append, map_fst_close,
      List.append_assoc (o.settled.map Prod.fst) l rest]
  numbered := by
    have hnumbered := h.numbered
    rw [hnext, hnumbered, hsettled, List.length_append, List.length_append, List.length_map]
    omega
  counted := by rw [htries, settledAs_append hsettled, h.counted]
  skips := by
    rw [hnotes, List.flatMap_append, h.skips, hskips, settledAs_append hsettled, List.map_append]
  drops := by
    rw [hnotes, List.flatMap_append, h.drops, hdrops, settledAs_append hsettled, List.map_append]
  losses := by
    rw [hnotes, List.map_append, List.sum_append, h.losses, hlosses, settledAs_append hsettled,
      List.length_append]

/-- The account does not depend on what is kept of the pending reports. -/
theorem Account.congr (h : o.Account pending) (hpushed : o'.pushed = o.pushed)
    (hqueue : o'.queue = o.queue) (hnext : o'.nextSequence = o.nextSequence)
    (hsettled : o'.settled = o.settled) (htries : o'.tries = o.tries) (hnotes : o'.notes = o.notes) :
    o'.Account pending :=
  Account.settle (l := []) h .counted [] hpushed hqueue hnext
    (by rw [hsettled, List.map_nil, List.append_nil])
    (by rw [committed, htries, ← committed, if_pos rfl, List.append_nil])
    (by rw [hnotes, List.append_nil]) rfl rfl rfl

theorem account_push (h : o.Account o.parked) (exchange : ℕ × ℕ × ℕ) :
    (o.push exchange).Account o.parked where
  ordered := by
    have hlen : (mint 0 o.pushed).length = o.nextSequence + o.queue.length := by
      rw [h.ordered, h.numbered]
      simp only [List.length_append, List.length_map, length_mint]
    rw [length_mint] at hlen
    change mint 0 (o.pushed ++ [exchange]) =
      o.settled.map Prod.fst ++ o.parked ++ mint o.nextSequence (o.queue ++ [exchange])
    rw [mint_append, mint_append, h.ordered, Nat.zero_add, hlen]
    simp only [List.append_assoc]
  numbered := h.numbered
  counted := h.counted
  skips := h.skips
  drops := h.drops
  losses := h.losses

theorem park_takeQueue : (o.takeQueue p).park = o.park := by
  rw [takeQueue]
  split <;> rfl

/-- Taking the queue makes the batch pending. -/
theorem account_takeQueue (h : o.Account o.parked) : (o.takeQueue p).Account (o.batch p) := by
  rw [takeQueue, batch]
  cases p.lockable with
  | false =>
      rw [if_neg Bool.false_ne_true, if_neg Bool.false_ne_true, mint, List.append_nil]
      exact h
  | true =>
      rw [if_pos rfl, if_pos rfl]
      refine ⟨?_, ?_, h.counted, h.skips, h.drops, h.losses⟩
      · rw [h.ordered]
        simp [mint, List.append_assoc]
      · have hnumbered := h.numbered
        simp only [List.length_append, length_mint]
        omega

/-- The pending reports carry consecutive numbers. -/
theorem Account.exists_mint (h : o.Account pending) :
    ∃ zs, pending = mint o.settled.length zs := by
  obtain ⟨zs, hzs⟩ := mint_infix h.ordered
  exact ⟨zs, by rw [hzs, List.length_map, Nat.zero_add]⟩

/-- What the cap drops is announced by its numbers. -/
theorem drops_overflowNotes {n : ℕ} {zs : List (ℕ × ℕ × ℕ)} (h : rest = mint n zs) :
    (overflowNotes rest).flatMap DrainNote.drops =
      (rest.take (rest.length - observedParkMaxEvents)).map ParsedUsage.sequence := by
  have hle : rest.length - observedParkMaxEvents ≤ zs.length := by
    rw [h, length_mint]
    omega
  rw [overflowNotes]
  generalize rest.length - observedParkMaxEvents = k at hle ⊢
  have hblock : (rest.take k).map ParsedUsage.sequence = List.range' n k := by
    rw [h, take_mint, map_sequence_mint, List.length_take, Nat.min_eq_left hle]
  cases k with
  | zero => rfl
  | succ k =>
      have hfirst : ((rest.take (k + 1)).head?.map ParsedUsage.sequence).getD 0 = n := by
        rw [← List.head?_map, hblock, List.head?_range', if_neg (Nat.succ_ne_zero k)]
        rfl
      have hlast : ((rest.take (k + 1)).getLast?.map ParsedUsage.sequence).getD 0 = n + k := by
        rw [← List.getLast?_map, hblock, List.getLast?_range', if_neg (Nat.succ_ne_zero k)]
        simp
      have hcount : n + k + 1 - n = k + 1 := by omega
      simp only [if_pos (Nat.succ_pos k), hfirst, hlast, List.flatMap_cons, List.flatMap_nil,
        DrainNote.drops, hcount, List.append_nil, hblock]

theorem skips_overflowNotes : (overflowNotes rest).flatMap DrainNote.skips = [] := by
  simp only [overflowNotes]
  split <;> rfl

theorem losses_overflowNotes : ((overflowNotes rest).map DrainNote.losses).sum = 0 := by
  simp only [overflowNotes]
  split <;> rfl

/-- The cap settles the oldest of the pending reports. -/
theorem account_capped (h : o.Account rest) :
    (o.dropOverflow rest).Account (capObservedParkBuffer rest) := by
  obtain ⟨zs, hzs⟩ := h.exists_mint
  have hsplit : o.Account (rest.take (rest.length - observedParkMaxEvents) ++
      capObservedParkBuffer rest) := by
    rw [capObservedParkBuffer, List.take_append_drop]
    exact h
  refine hsplit.settle .dropped _ rfl rfl rfl rfl ?_ rfl ?_ ?_ ?_
  · exact (List.append_nil _).symm
  · rw [skips_overflowNotes]
    rfl
  · rw [drops_overflowNotes hzs, if_pos rfl]
  · rw [losses_overflowNotes]
    rfl

theorem length_capObservedParkBuffer (rest : List ParsedUsage) :
    (capObservedParkBuffer rest).length ≤ observedParkMaxEvents := by
  rw [capObservedParkBuffer, List.length_drop]
  omega

theorem Account.clear (h : o.Account []) : ({ o with park := none } : Observed).Accounted where
  account := h.congr rfl rfl rfl rfl rfl rfl
  capped := by
    rw [parked]
    exact Nat.zero_le observedParkMaxEvents

theorem Account.parkAs (h : o.Account l) (hlength : l.length ≤ observedParkMaxEvents) (n : ℕ) :
    ({ o with park := some (l, n) } : Observed).Accounted where
  account := h.congr rfl rfl rfl rfl rfl rfl
  capped := hlength

/-- What is parked: nothing, the rest without a front that has failed too often, or the rest. -/
theorem repark_cases (o : Observed) (rest : List ParsedUsage) (err : EngineError) :
    (capObservedParkBuffer rest = [] ∧
      o.repark rest err = { o.dropOverflow rest with park := none }) ∨
    ∃ front behind attempts, capObservedParkBuffer rest = front :: behind ∧
      attempts = parkAttempts (o.parkedAt front.sequence) err ∧
      ((usageParkMaxAttempts ≤ attempts ∧ o.repark rest err =
        { ((o.dropOverflow rest).announce [.skip front.sequence attempts]).close [front]
            .skipped with park := if behind.isEmpty then none else some (behind, 1) }) ∨
      (attempts < usageParkMaxAttempts ∧ o.repark rest err =
        { o.dropOverflow rest with park := some (front :: behind, attempts) })) := by
  unfold repark
  cases hremaining : capObservedParkBuffer rest with
  | nil => exact .inl ⟨rfl, rfl⟩
  | cons front behind =>
      refine .inr ⟨front, behind, _, rfl, rfl, ?_⟩
      by_cases hskip : usageParkMaxAttempts ≤ parkAttempts (o.parkedAt front.sequence) err
      · exact .inl ⟨hskip, if_pos hskip⟩
      · exact .inr ⟨Nat.lt_of_not_le hskip, if_neg hskip⟩

/-- Parking what is left keeps the account, and the park is bounded. -/
theorem accounted_repark (h : o.Account rest) (err : EngineError) :
    (o.repark rest err).Accounted := by
  have hcapped := account_capped h
  have hlength := length_capObservedParkBuffer rest
  rcases repark_cases o rest err with
    ⟨hremaining, heq⟩ | ⟨front, behind, attempts, hremaining, -, ⟨-, heq⟩ | ⟨-, heq⟩⟩ <;>
    rw [hremaining] at hcapped hlength <;> rw [heq]
  · exact hcapped.clear
  · have hskipped : (((o.dropOverflow rest).announce [.skip front.sequence attempts]).close [front]
        .skipped).Account behind :=
      Account.settle (l := [front]) hcapped .skipped _ rfl rfl rfl rfl (List.append_nil _).symm rfl
        rfl rfl rfl
    cases behind with
    | nil => exact hskipped.clear
    | cons next behind =>
        have hbehind : (next :: behind).length ≤ observedParkMaxEvents := by
          rw [List.length_cons] at hlength
          omega
        exact hskipped.parkAs hbehind 1
  · exact hcapped.parkAs hlength attempts

/-- What a pass does with the reports it has not committed keeps the account. -/
theorem accounted_settle {err : Option EngineError} {mode : DrainMode} (h : o.Account rest)
    (hnone : err = none → rest = []) : (o.settle mode rest err).Accounted := by
  cases err with
  | none =>
      rw [hnone rfl] at h
      exact h.clear
  | some err =>
      cases mode with
      | midRun => exact accounted_repark h err
      | terminal =>
          have hlost : ((o.announce [.lost rest.length]).close rest .lost).Account [] := by
            rw [← List.append_nil rest] at h
            exact h.settle .lost _ rfl rfl rfl rfl (List.append_nil _).symm rfl rfl rfl rfl
          exact hlost.clear

/-- The reports of the commits that succeeded. -/
theorem succeeded_of_all {done : List (ParsedUsage × CommitAnswer)}
    (h : ∀ t ∈ done, t.2.error = none) :
    done.filter (fun t => t.2.error.isNone) = done :=
  List.filter_eq_self.2 fun t ht => by rw [h t ht]; rfl

/-- Committing a batch settles what was committed. -/
theorem account_commitBatch (answers : ℕ → CommitAnswer) (h : o.Account pending) :
    (o.commitAll (commitBatch answers pending).1).Account (commitBatch answers pending).2.1 ∧
      ((commitBatch answers pending).2.2 = none → (commitBatch answers pending).2.1 = []) := by
  constructor
  · refine Account.settle (o := o) ?_ .counted [] rfl rfl rfl rfl ?_
      (List.append_nil _).symm rfl rfl rfl
    · rcases commitBatch_cases answers pending with
        ⟨done, heq, hmap, hdone⟩ | ⟨done, front, behind, err, hpending, hdone, -, hfails, heq⟩
      · rw [heq, succeeded_of_all hdone, hmap, List.append_nil]
        exact h
      · have hlast : (answers done.length).error.isNone = false := by rw [hfails]; rfl
        rw [heq, List.filter_append, succeeded_of_all hdone]
        rw [List.filter_cons_of_neg (by rw [hlast]; exact Bool.false_ne_true), List.filter_nil,
          List.append_nil, ← hpending]
        exact h
    · rw [if_pos rfl]
      change (List.filter _ (o.tries ++ _)).map Prod.fst = _
      rw [List.filter_append, List.map_append]
      rfl
  · intro hnone
    rcases commitBatch_cases answers pending with
      ⟨done, heq, -, -⟩ | ⟨done, front, behind, err, -, -, -, -, heq⟩
    · rw [heq]
    · rw [heq] at hnone
      cases hnone

/-- **Every pass keeps the account.** -/
theorem drain_accounted (h : o.Accounted) (p : DrainPass) : (o.drain p).Accounted := by
  have htaken := account_takeQueue (p := p) h.account
  rw [drain]
  dsimp only
  split
  · next hempty =>
      have hbatch : o.batch p = [] := by simpa using hempty
      have hparked : o.parked = [] := (List.append_eq_nil_iff.1 hbatch).1
      have hsame : (o.takeQueue p).parked = [] := by rw [parked, park_takeQueue, ← parked, hparked]
      rw [hbatch, ← hsame] at htaken
      exact ⟨htaken, by rw [hsame]; exact Nat.zero_le observedParkMaxEvents⟩
  · obtain ⟨hclosed, hnone⟩ := account_commitBatch p.answers htaken
    exact accounted_settle hclosed hnone

/-! ### The count of the failures -/

theorem sequence_mint {n : ℕ} {xs : List (ℕ × ℕ × ℕ)} {earlier later : List ParsedUsage}
    {e : ParsedUsage} (h : mint n xs = earlier ++ e :: later) : e.sequence = n + earlier.length := by
  induction earlier generalizing n xs with
  | nil =>
      cases xs with
      | nil => cases h
      | cons x xs =>
          cases h
          rfl
  | cons d earlier ih =>
      cases xs with
      | nil => cases h
      | cons x xs =>
          rw [mint, List.cons_append, List.cons.injEq] at h
          rw [ih h.2, List.length_cons]
          omega

theorem spent_commitAll : (o.commitAll tries).spent = o.spent ++ tries.filter (·.2 ≠ .busy) :=
  List.filter_append ..

theorem spent_takeQueue : (o.takeQueue p).spent = o.spent := by
  rw [takeQueue]
  split <;> rfl

theorem settled_takeQueue : (o.takeQueue p).settled = o.settled := by
  rw [takeQueue]
  split <;> rfl

/-- How a pass ends. -/
theorem drain_cases (o : Observed) (p : DrainPass) :
    o.drain p = o.takeQueue p ∨
    (∃ done, (∀ t ∈ done, t.2.error = none) ∧
      o.drain p = { (o.takeQueue p).commitAll done with park := none }) ∨
    ∃ done front behind err, o.batch p = done.map Prod.fst ++ front :: behind ∧
      (∀ t ∈ done, t.2.error = none) ∧ (∀ j < done.length, (p.answers j).error = none) ∧
      (p.answers done.length).error = some err ∧
      o.drain p = ((o.takeQueue p).commitAll (done ++ [(front, p.answers done.length)])).settle
        p.mode (front :: behind) (some err) := by
  rw [drain]
  dsimp only
  split
  · exact .inl rfl
  · rcases commitBatch_cases p.answers (o.batch p) with
      ⟨done, heq, -, hdone⟩ | ⟨done, front, behind, err, hbatch, hdone, hearlier, hfails, heq⟩
    · rw [heq]
      exact .inr (.inl ⟨done, hdone, rfl⟩)
    · rw [heq]
      exact .inr (.inr ⟨done, front, behind, err, hbatch, hdone, hearlier, hfails, rfl⟩)

/-- Commits and settlements that skip nothing earn what was earned. -/
theorem SkipsEarned.grow (h : o.SkipsEarned)
    (hsettled : ∀ e, (e, Fate.skipped) ∈ o'.settled → (e, Fate.skipped) ∈ o.settled)
    (hspent : o.spent <+: o'.spent) : o'.SkipsEarned :=
  fun e he => (h e (hsettled e he)).trans hspent.isInfix

theorem skipped_of_close (hfate : fate ≠ .skipped) {e : ParsedUsage}
    (h : (e, Fate.skipped) ∈ (o.close l fate).settled) : (e, Fate.skipped) ∈ o.settled := by
  rcases List.mem_append.1 h with h | h
  · exact h
  · obtain ⟨d, -, hd⟩ := List.mem_map.1 h
    exact absurd (Prod.ext_iff.1 hd).2 hfate

/-- The commits of a pass skip nothing. -/
theorem SkipsEarned.commitAll (h : o.SkipsEarned) : (o.commitAll tries).SkipsEarned :=
  h.grow (fun _ he => skipped_of_close (by decide) he) (spent_commitAll ▸ List.prefix_append _ _)

theorem SkipsEarned.takeQueue (h : o.SkipsEarned) : (o.takeQueue p).SkipsEarned :=
  h.grow (fun e he => by rwa [settled_takeQueue] at he) (spent_takeQueue ▸ List.prefix_rfl)

theorem settle_midRun (err : EngineError) :
    o.settle .midRun rest (some err) = o.repark rest err := rfl

/-- A park under a count of its own, and a skip that leaves nothing behind. -/
theorem counter_repark {err : EngineError} (hearned : o.SkipsEarned)
    (hown : ∀ front behind, capObservedParkBuffer rest = front :: behind →
      List.replicate (parkAttempts (o.parkedAt front.sequence) err)
        (front, CommitAnswer.failed) <:+ o.spent ∧
      (usageParkMaxAttempts ≤ parkAttempts (o.parkedAt front.sequence) err → behind = [])) :
    (o.repark rest err).CountsOwn ∧ (o.repark rest err).SkipsEarned := by
  have hdropped : (o.dropOverflow rest).SkipsEarned :=
    hearned.grow (fun _ he => skipped_of_close (by decide) he) List.prefix_rfl
  rcases repark_cases o rest err with
    ⟨-, heq⟩ | ⟨front, behind, attempts, hremaining, hattempts, ⟨hskip, heq⟩ | ⟨hkeep, heq⟩⟩ <;>
    rw [heq]
  · exact ⟨fun _ _ hpark => (by cases hpark), hdropped⟩
  · obtain ⟨hcount, hlone⟩ := hown front behind hremaining
    rw [← hattempts] at hcount hlone
    obtain rfl : behind = [] := hlone hskip
    refine ⟨fun _ _ hpark => (by cases hpark), fun e he => ?_⟩
    rcases List.mem_append.1 he with he | he
    · exact hdropped e he
    · obtain rfl : e = front := by simpa using he
      obtain ⟨k, rfl⟩ := Nat.exists_eq_add_of_le' hskip
      rw [List.replicate_add] at hcount
      exact ((List.suffix_append _ _).trans hcount).isInfix
  · obtain ⟨hcount, -⟩ := hown front behind hremaining
    rw [← hattempts] at hcount
    refine ⟨fun events n hpark => ?_, hdropped⟩
    cases hpark
    exact ⟨front, behind, rfl, hkeep, hcount⟩

/-- A park whose first report is the one of a sequence. -/
theorem parkedAt_eq_some {front n : ℕ} (h : o.parkedAt front = some n) :
    ∃ e behind, o.park = some (e :: behind, n) ∧ e.sequence = front := by
  rw [parkedAt] at h
  obtain ⟨⟨events, attempts⟩, hpark, h⟩ := Option.bind_eq_some_iff.1 h
  cases events with
  | nil => cases h
  | cons e behind =>
      split_ifs at h with hfront
      cases h
      exact ⟨e, behind, hpark, by simpa using hfront⟩

/-- An error of a commit is contention, or spends an attempt. -/
theorem error_cases {answer : CommitAnswer} {err : EngineError} (h : answer.error = some err) :
    (answer = .busy ∧ err.isBusy = true) ∨ (answer = .failed ∧ err.isBusy = false) := by
  cases answer with
  | inserted => cases h
  | duplicateReplay => cases h
  | busy =>
      cases h
      exact .inl ⟨rfl, rfl⟩
  | failed =>
      cases h
      exact .inr ⟨rfl, rfl⟩

/-- The failed report is the parked one if what is left to park starts with the same number. -/
theorem front_of_sequence {done : List (ParsedUsage × CommitAnswer)} {k n : ℕ}
    {e f : ParsedUsage} {behind later : List ParsedUsage} (hbatch : ∃ zs, o.batch p = mint n zs)
    (hrest : o.batch p = done.map Prod.fst ++ rest) (hkept : rest.drop k = f :: later)
    (hpark : o.parked = e :: behind) (hsequence : e.sequence = f.sequence) :
    e = f ∧ done = [] ∧ rest = f :: later := by
  obtain ⟨zs, hzs⟩ := hbatch
  have hfront : o.batch p = [] ++ e :: (behind ++ mint o.nextSequence
      (if p.lockable then o.queue else [])) := by rw [batch, hpark]; rfl
  have hlater : o.batch p = (done.map Prod.fst ++ rest.take k) ++ f :: later := by
    rw [List.append_assoc, ← hkept, List.take_append_drop, hrest]
  have he : e.sequence = n := sequence_mint (hzs.symm.trans hfront)
  have hf := sequence_mint (hzs.symm.trans hlater)
  have hnil : done.map Prod.fst ++ rest.take k = [] := List.length_eq_zero_iff.1 (by omega)
  rw [hnil] at hlater
  obtain ⟨hdone, htake⟩ := List.append_eq_nil_iff.1 hnil
  refine ⟨(List.cons.inj (hfront.symm.trans hlater)).1, List.map_eq_nil_iff.1 hdone, ?_⟩
  rw [← List.take_append_drop k rest, htake, hkept]
  rfl

/-- **A pass that parks nothing under a foreign count keeps the counts true**, and what it skips
has earned it. -/
theorem drain_counter (h : o.Accounted) (hown : o.CountsOwn) (hearned : o.SkipsEarned)
    (halone : o.Alone (.drain p)) : (o.drain p).CountsOwn ∧ (o.drain p).SkipsEarned := by
  rcases drain_cases o p with
    heq | ⟨done, -, heq⟩ | ⟨done, front, behind, err, hbatch, hdone, hearlier, hfails, heq⟩ <;>
    rw [heq]
  · refine ⟨fun events n hpark => ?_, hearned.takeQueue⟩
    rw [spent_takeQueue]
    exact hown events n (park_takeQueue ▸ hpark)
  · exact ⟨fun _ _ hpark => (by cases hpark), hearned.takeQueue.commitAll⟩
  · have hcommitted : ((o.takeQueue p).commitAll
        (done ++ [(front, p.answers done.length)])).SkipsEarned := hearned.takeQueue.commitAll
    cases hmode : p.mode with
    | terminal =>
        exact ⟨fun _ _ hpark => (by cases hpark),
          hcommitted.grow (fun _ he => skipped_of_close (by decide) he) List.prefix_rfl⟩
    | midRun =>
        rw [settle_midRun]
        refine counter_repark hcommitted fun f later hkept => ?_
        have hpark : ((o.takeQueue p).commitAll (done ++ [(front, p.answers done.length)])).park =
            o.park := park_takeQueue
        have hparkedAt : ((o.takeQueue p).commitAll
            (done ++ [(front, p.answers done.length)])).parkedAt f.sequence =
              o.parkedAt f.sequence := by
          rw [parkedAt, hpark, ← parkedAt]
        have hnumbered := (account_takeQueue (p := p) h.account).exists_mint
        rw [hparkedAt, spent_commitAll, spent_takeQueue, List.filter_append]
        cases hcount : o.parkedAt f.sequence with
        | some n =>
            -- the report that failed is the one the count was kept for
            obtain ⟨e, eBehind, hpark, hsequence⟩ := parkedAt_eq_some hcount
            have hparked : o.parked = e :: eBehind := by rw [parked, hpark]; rfl
            obtain ⟨rfl, rfl, hrest⟩ := front_of_sequence hnumbered hbatch hkept hparked hsequence
            obtain ⟨rfl, rfl⟩ := List.cons.inj hrest
            obtain ⟨_, _, hcons, hfew, hfailed⟩ := hown _ _ hpark
            obtain ⟨rfl, rfl⟩ := List.cons.inj hcons
            rcases error_cases hfails with ⟨hanswer, hbusy⟩ | ⟨hanswer, hbusy⟩
            · have hattempts : parkAttempts (some n) err = n := if_pos hbusy
              rw [hattempts]
              refine ⟨?_, fun hskip => absurd hfew (Nat.not_lt.2 hskip)⟩
              rw [hanswer]
              simpa using hfailed
            · have hattempts : parkAttempts (some n) err = n + 1 := if_neg (by simp [hbusy])
              rw [hattempts]
              refine ⟨?_, fun hskip => ?_⟩
              · obtain ⟨older, holder⟩ := hfailed
                rw [hanswer, List.replicate_succ', ← holder]
                exact ⟨older, by simp⟩
              · have hcounted : o.attempts = n := by rw [attempts, hpark]; rfl
                have hlone := (halone hmode 0 (by rw [hbatch]; simp) (by simp) hanswer).2 rfl
                  (by rw [hcounted]; exact hskip)
                rw [hbatch] at hlone
                simpa using hlone
        | none =>
            rcases error_cases hfails with ⟨hanswer, hbusy⟩ | ⟨hanswer, hbusy⟩
            · have hattempts : parkAttempts none err = 0 := if_pos hbusy
              rw [hattempts]
              exact ⟨List.nil_suffix, fun hskip => absurd hskip (by decide)⟩
            · have hattempts : parkAttempts none err = 1 := if_neg (by simp [hbusy])
              rw [hattempts]
              refine ⟨?_, fun hskip => absurd hskip (by decide)⟩
              -- the rest fits the park, so its front is the report that failed
              have hfits := (halone hmode done.length (by rw [hbatch]; simp) hearlier hanswer).1
              have hwhole : (front :: behind).length - observedParkMaxEvents = 0 := by
                rw [hbatch, List.length_append, List.length_map, Nat.add_sub_cancel_left] at hfits
                omega
              rw [capObservedParkBuffer, hwhole, List.drop_zero] at hkept
              obtain ⟨rfl, rfl⟩ := List.cons.inj hkept
              rw [hanswer]
              exact (List.suffix_append _ _).trans (List.suffix_append _ _)

/-! ### Runs -/

theorem accounted_fresh : fresh.Accounted :=
  ⟨⟨rfl, rfl, rfl, rfl, rfl, rfl⟩, Nat.zero_le observedParkMaxEvents⟩

theorem step_accounted (h : o.Accounted) (a : ObservedStep) : (o.step a).Accounted := by
  cases a with
  | push exchange => exact ⟨account_push h.account exchange, h.capped⟩
  | drain p => exact drain_accounted h p

theorem step_counter (h : o.Accounted ∧ o.CountsOwn ∧ o.SkipsEarned) (a : ObservedStep)
    (halone : o.Alone a) :
    (o.step a).Accounted ∧ (o.step a).CountsOwn ∧ (o.step a).SkipsEarned := by
  obtain ⟨haccounted, hown, hearned⟩ := h
  refine ⟨step_accounted haccounted a, ?_⟩
  cases a with
  | push exchange => exact ⟨hown, hearned⟩
  | drain p => exact drain_counter haccounted hown hearned halone

/-- **Every run is accounted for**: the exchanges are settled in the order and under the numbers they
were minted with, what does not count is announced, and the park is bounded.  A run whose passes
park nothing under a foreign count skips only what has failed three times in a row. -/
theorem drain_sound (steps : List ObservedStep) :
    (∀ o ∈ Guarded.states step fresh steps, o.Accounted) ∧
      (Guarded.Meets step Alone fresh steps →
        ∀ o ∈ Guarded.states step fresh steps, o.SkipsEarned) := by
  refine ⟨fun o ho => ?_, fun hmeets o ho => ?_⟩
  · exact Guarded.invariant (fun s a h _ => step_accounted h a) accounted_fresh
      (Guarded.meets_true steps) ho
  · have hfresh : fresh.Accounted ∧ fresh.CountsOwn ∧ fresh.SkipsEarned :=
      ⟨accounted_fresh, fun _ _ hpark => (by cases hpark), fun e he => absurd he List.not_mem_nil⟩
    have hall := Guarded.invariant
      (P := fun o => o.Accounted ∧ o.CountsOwn ∧ o.SkipsEarned)
      (fun s a h halone => step_counter h a halone) hfresh hmeets ho
    exact hall.2.2

/-- A pass whose commits all fail. -/
def failingPass : ObservedStep := .drain ⟨.midRun, true, fun _ => .failed⟩

/-- A pass over one report parks nothing behind it. -/
theorem alone_of_length (h : (o.batch p).length = 1) : o.Alone (.drain p) := by
  intro _ i _ _ _
  rw [h]
  exact ⟨(Nat.sub_le 1 i).trans (by decide), fun _ _ => rfl⟩

/-- An exchange that cannot be committed is skipped at the third pass. -/
def loneRun : List ObservedStep := [.push (1, 1, 0), failingPass, failingPass, failingPass]

theorem drain_sound_lone :
    (loneRun.foldl step fresh).settled = [(⟨1, 1, 0, 0⟩, .skipped)] ∧
      (loneRun.foldl step fresh).SkipsEarned := by
  refine ⟨by decide +kernel, (drain_sound loneRun).2 ?_ _ Guarded.last_mem_states⟩
  exact ⟨trivial, alone_of_length (by decide +kernel), alone_of_length (by decide +kernel),
    alone_of_length (by decide +kernel), trivial⟩

/-- Two exchanges that cannot be committed: the second is skipped two passes after the first. -/
def twoRun : List ObservedStep :=
  [.push (1, 1, 0), .push (2, 2, 0), failingPass, failingPass, failingPass, failingPass, failingPass]

theorem skipped_early :
    (⟨2, 2, 0, 1⟩, Fate.skipped) ∈ (twoRun.foldl step fresh).settled ∧
      (twoRun.foldl step fresh).tries.count (⟨2, 2, 0, 1⟩, .failed) = 2 ∧
      ¬ (twoRun.foldl step fresh).SkipsEarned := by
  have hskipped : (⟨2, 2, 0, 1⟩, Fate.skipped) ∈ (twoRun.foldl step fresh).settled := by
    decide +kernel
  refine ⟨hskipped, by decide +kernel, fun hearned => ?_⟩
  have hinfix := hearned _ hskipped
  revert hinfix
  decide +kernel

/-! ### The park of the supervisor -/

/-- **The park is the one of the supervisor** after the same failure. -/
theorem park_settleObserved {s : Supervisor} {h : Supervised} (hrunning : s.running = some h)
    (hpark : h.observedPark = o.park) (mode : DrainMode) (rest : List ParsedUsage)
    (failure : Option EngineError) :
    (s.settleObserved mode rest failure).running.bind Supervised.observedPark =
      (o.settle mode rest failure).park := by
  have hset : ∀ park, (s.setObservedPark park).running.bind Supervised.observedPark = park := by
    intro park
    rw [Supervisor.setObservedPark, Supervisor.onHandle, hrunning]
    rfl
  have hat : ∀ front, s.observedParkedAt front = o.parkedAt front := by
    intro front
    rw [Supervisor.observedParkedAt, parkedAt, hrunning, Option.bind_some, hpark]
  cases failure with
  | none => exact hset none
  | some err =>
      cases mode with
      | terminal => exact hset none
      | midRun =>
          unfold Supervisor.settleObserved
          simp only [settle_midRun, hat]
          rcases repark_cases o rest err with ⟨hremaining, heq⟩ |
            ⟨front, behind, attempts, hremaining, rfl, ⟨hskip, heq⟩ | ⟨hkeep, heq⟩⟩
          · simp only [heq, hremaining, hset]
          · simp only [heq, hremaining, if_pos hskip, hset]
          · simp only [heq, hremaining, if_neg (Nat.not_le.2 hkeep), hset]

end Observed

end Hekma
