/-
**The import of the outbox** (`store/run_store_sqlite.rs`, `domain/outbox.rs`).

Before the outbox was a table it was a journal of lines, with the ack mark in a file of its own.
The import reads the journal, refuses it if the sequence numbers do not increase, and writes its
entries into the empty table under their own numbers.  The next key is then above the last entry
and above the ack mark.

Main definitions:

* `LegacyOutbox` — a journal with increasing sequence numbers, and an ack mark;
* `readEntries`, `migrateOutbox` — the code.

Main results:

* `readEntries_ok` — what is read has increasing sequence numbers;
* `LegacyOutbox.migrated` — the table after an import.
-/

import Hekma.Store.OutboxExport

set_option relaxedAutoImplicit false
set_option autoImplicit false

namespace Hekma

/-! ### The code -/

/-- The refusal of a journal that two engines have written. -/
def notIncreasingDetail (line seq prev : ℕ) : String :=
  s!"corrupt outbox journal: line {line} carries seq {seq} after seq {prev} — a duplicate or " ++
  "decreasing sequence, which one engine process cannot produce (two engines wrote this journal " ++
  "concurrently); quarantine the journal by renaming it (the next open re-derives the sequence " ++
  "from its absence) and re-sync the families with resync_events — see " ++
  "https://hekma.ktesio.dev/docs/control-api/"

/-- The entries of a journal whose lines have been parsed, each with the index of its line. -/
def readEntries (prev : Option ℕ) : List (ℕ × OutboxEntry) → Except String (List OutboxEntry)
  | [] => .ok []
  | (idx, entry) :: lines =>
      match prev with
      | none => (readEntries (some entry.seq) lines).map (entry :: ·)
      | some prev =>
          if entry.seq ≤ prev then .error (notIncreasingDetail (idx + 1) entry.seq prev)
          else (readEntries (some entry.seq) lines).map (entry :: ·)

/-- An outbox from before the table. -/
structure LegacyOutbox where
  entries : List OutboxEntry
  ack : Option ℕ
  increasing : (entries.map OutboxEntry.seq).Pairwise (· < ·)

/-- The key of the last entry. -/
def LegacyOutbox.last (legacy : LegacyOutbox) : ℕ :=
  (legacy.entries.getLast?.map OutboxEntry.seq).getD 0

/-- The key that the next one has to exceed. -/
def LegacyOutbox.floor (legacy : LegacyOutbox) : ℕ := max legacy.last (legacy.ack.getD 0)

/-- An entry as it is stored. -/
def OutboxEntry.row (entry : OutboxEntry) : OutboxRow :=
  ⟨Outbox.clampTokens entry.seq, entry.event, entry.event.utf8ByteSize⟩

namespace Outbox

/-- Insert an entry under its own key.  A key that is taken fails the import. -/
def insertLegacy (s : Outbox) (entry : OutboxEntry) : Option Outbox :=
  if (s.rows.any fun row => row.seq = clampTokens entry.seq) then none
  else some
    { s with
      rows := s.rows ++ [entry.row]
      sequence := max s.sequence (clampTokens entry.seq)
      totalBytes := clampTokens (s.totalBytes + entry.event.utf8ByteSize) }

/-- Import an outbox into the empty table. -/
def migrateOutbox (legacy : LegacyOutbox) : Option Outbox :=
  (legacy.entries.foldlM insertLegacy empty).map fun s =>
    { s with
      sequence := max s.sequence (clampTokens legacy.floor)
      ack := legacy.ack.map clampTokens }

/-! ### What is read -/

/-- **What is read has increasing sequence numbers**, and nothing is left out. -/
theorem readEntries_ok {prev : Option ℕ} {lines : List (ℕ × OutboxEntry)}
    {entries : List OutboxEntry} (hok : readEntries prev lines = .ok entries) :
    entries = lines.map Prod.snd ∧ (entries.map OutboxEntry.seq).Pairwise (· < ·) ∧
      ∀ last ∈ prev, ∀ entry ∈ entries, last < entry.seq := by
  induction lines generalizing prev entries with
  | nil =>
      cases hok
      exact ⟨rfl, List.Pairwise.nil, by simp⟩
  | cons line lines ih =>
      obtain ⟨idx, entry⟩ := line
      have hrest : (∀ last ∈ prev, last < entry.seq) ∧
          (readEntries (some entry.seq) lines).map (entry :: ·) = .ok entries := by
        cases prev with
        | none => exact ⟨by simp, hok⟩
        | some last =>
            rw [readEntries] at hok
            by_cases hle : entry.seq ≤ last
            · rw [if_pos hle] at hok
              cases hok
            · rw [if_neg hle] at hok
              exact ⟨by simpa using hle, hok⟩
      obtain ⟨hprev, hmap⟩ := hrest
      cases hread : readEntries (some entry.seq) lines with
      | error detail =>
          rw [hread] at hmap
          cases hmap
      | ok rest =>
          rw [hread] at hmap
          obtain rfl := Except.ok.inj hmap
          obtain ⟨hall, hincr, hfirst⟩ := ih hread
          have hlt : ∀ other ∈ rest, entry.seq < other.seq := hfirst _ rfl
          refine ⟨by rw [hall]; rfl, ?_, ?_⟩
          · rw [List.map_cons, List.pairwise_cons]
            exact ⟨by simpa using hlt, hincr⟩
          · intro last hlast other hother
            rcases List.mem_cons.1 hother with rfl | hother
            · exact hprev last hlast
            · exact (hprev last hlast).trans (hlt other hother)

end Outbox

/-- The outbox of a journal that is read without a refusal. -/
def LegacyOutbox.ofLines {lines : List (ℕ × OutboxEntry)} {entries : List OutboxEntry}
    (hok : readEntries none lines = .ok entries) (ack : Option ℕ) : LegacyOutbox :=
  ⟨entries, ack, (Outbox.readEntries_ok hok).2.1⟩

namespace Outbox

variable {s box : Outbox} {legacy : LegacyOutbox} {rows : List OutboxRow}

/-! ### The table after the import -/

theorem maxSeq_le {n : ℕ} (h : ∀ row ∈ rows, row.seq ≤ n) : maxSeq rows ≤ n := by
  induction rows with
  | nil => exact Nat.zero_le n
  | cons row rows ih =>
      have hrow := h row List.mem_cons_self
      have hrows := ih fun other hother => h other (List.mem_cons_of_mem _ hother)
      exact max_le hrow hrows

theorem le_maxSeq {row : OutboxRow} (hrow : row ∈ rows) : row.seq ≤ maxSeq rows := by
  induction rows with
  | nil => exact absurd hrow List.not_mem_nil
  | cons first rows ih =>
      rcases List.mem_cons.1 hrow with rfl | hrow
      · exact le_max_left _ _
      · exact (ih hrow).trans (le_max_right _ _)

/-- No number of an increasing list is above the last. -/
theorem le_last {seqs : List ℕ} (h : seqs.Pairwise (· < ·)) {n : ℕ} (hn : n ∈ seqs) :
    n ≤ seqs.getLast?.getD 0 := by
  induction seqs with
  | nil => exact absurd hn List.not_mem_nil
  | cons first seqs ih =>
      rw [List.pairwise_cons] at h
      cases hlast : seqs.getLast? with
      | none =>
          obtain rfl := List.getLast?_eq_none_iff.1 hlast
          simp only [List.mem_singleton] at hn
          simp [hn]
      | some last =>
          have hfirst := h.1 last (List.mem_of_getLast? hlast)
          simp only [List.getLast?_cons, hlast, Option.getD_some] at ih ⊢
          rcases List.mem_cons.1 hn with rfl | hn
          · exact hfirst.le
          · exact ih h.2 hn

/-- The highest of increasing keys is the last. -/
theorem maxSeq_of_increasing (h : (rows.map OutboxRow.seq).Pairwise (· < ·)) :
    maxSeq rows = (rows.getLast?.map OutboxRow.seq).getD 0 := by
  rw [← List.getLast?_map]
  refine le_antisymm (maxSeq_le fun row hrow => le_last h (List.mem_map_of_mem hrow)) ?_
  cases hlast : (rows.map OutboxRow.seq).getLast? with
  | none => exact Nat.zero_le _
  | some last =>
      obtain ⟨row, hrow, rfl⟩ := List.mem_map.1 (List.mem_of_getLast? hlast)
      exact le_maxSeq hrow

theorem clampTokens_of_le {n : ℕ} (h : n ≤ maxColumn) : clampTokens n = n := min_eq_left h

/-- An entry whose key fits and is above those of the table is inserted. -/
theorem insertLegacy_ok {entry : OutboxEntry} (hfits : entry.seq ≤ maxColumn)
    (habove : ∀ row ∈ s.rows, row.seq < entry.seq) :
    s.insertLegacy entry = some
      { s with
        rows := s.rows ++ [entry.row]
        sequence := max s.sequence entry.seq
        totalBytes := clampTokens (s.totalBytes + entry.event.utf8ByteSize) } := by
  have hfree : ¬ (s.rows.any fun row => row.seq = clampTokens entry.seq) := by
    rw [clampTokens_of_le hfits, List.any_eq_true]
    rintro ⟨row, hrow, heq⟩
    exact absurd (of_decide_eq_true heq) (habove row hrow).ne
  rw [insertLegacy, if_neg hfree, clampTokens_of_le hfits]

/-- Entries with increasing keys above those of the table are all inserted. -/
theorem foldlM_insertLegacy {entries : List OutboxEntry}
    (hincr : (entries.map OutboxEntry.seq).Pairwise (· < ·))
    (hfits : ∀ entry ∈ entries, entry.seq ≤ maxColumn)
    (habove : ∀ row ∈ s.rows, ∀ entry ∈ entries, row.seq < entry.seq) :
    ∃ s', entries.foldlM insertLegacy s = some s' ∧
      s'.rows = s.rows ++ entries.map OutboxEntry.row ∧ s'.ack = s.ack ∧
      ∀ n, s'.sequence ≤ n ↔ s.sequence ≤ n ∧ ∀ entry ∈ entries, entry.seq ≤ n := by
  induction entries generalizing s with
  | nil => exact ⟨s, rfl, by simp, rfl, by simp⟩
  | cons entry entries ih =>
      rw [List.map_cons, List.pairwise_cons] at hincr
      have hfit := hfits entry List.mem_cons_self
      have hinsert := insertLegacy_ok hfit fun row hrow => habove row hrow entry List.mem_cons_self
      obtain ⟨s', hfold, hrows, hack, hsequence⟩ := ih hincr.2
        (fun other hother => hfits other (List.mem_cons_of_mem _ hother))
        (s := { s with
          rows := s.rows ++ [entry.row]
          sequence := max s.sequence entry.seq
          totalBytes := clampTokens (s.totalBytes + entry.event.utf8ByteSize) }) (by
          intro row hrow other hother
          rcases List.mem_append.1 hrow with hrow | hrow
          · exact habove row hrow other (List.mem_cons_of_mem _ hother)
          · obtain rfl := List.mem_singleton.1 hrow
            change clampTokens entry.seq < other.seq
            rw [clampTokens_of_le hfit]
            exact hincr.1 _ (List.mem_map_of_mem hother))
      refine ⟨s', ?_, ?_, hack, fun n => ?_⟩
      · rw [List.foldlM_cons, hinsert]
        exact hfold
      · rw [hrows, List.map_cons, List.append_assoc]
        rfl
      · rw [hsequence n]
        simp only [max_le_iff, List.forall_mem_cons]
        tauto

/-- No entry is above the floor. -/
theorem le_floor {entry : OutboxEntry} (hentry : entry ∈ legacy.entries) :
    entry.seq ≤ legacy.floor := by
  have hlast := le_last legacy.increasing (List.mem_map_of_mem hentry)
  rw [List.getLast?_map] at hlast
  exact hlast.trans (le_max_left _ _)

/-- **The table after an import** whose keys fit their column. -/
theorem migrated (hfits : ∀ entry ∈ legacy.entries, entry.seq ≤ maxColumn) :
    ∃ box, migrateOutbox legacy = some box ∧ box.rows = legacy.entries.map OutboxEntry.row ∧
      box.ack = legacy.ack.map clampTokens ∧ box.sequence = clampTokens legacy.floor := by
  obtain ⟨s, hfold, hrows, -, hsequence⟩ :=
    foldlM_insertLegacy (s := empty) legacy.increasing hfits (by simp [empty])
  have hle : s.sequence ≤ clampTokens legacy.floor :=
    (hsequence _).2 ⟨Nat.zero_le _, fun entry hentry =>
      le_min (le_floor hentry) (hfits entry hentry)⟩
  refine ⟨{ s with
    sequence := max s.sequence (clampTokens legacy.floor)
    ack := legacy.ack.map clampTokens }, ?_, ?_, rfl, max_eq_right hle⟩
  · rw [migrateOutbox, hfold]
    rfl
  · rw [hrows]
    rfl

/-- The bounds of the table are the first and the last entry. -/
theorem bounds_migrated (hfits : ∀ entry ∈ legacy.entries, entry.seq ≤ maxColumn)
    (hrows : box.rows = legacy.entries.map OutboxEntry.row) :
    maxSeq box.rows = legacy.last ∧
      box.outboxBounds.retainedFrom = (legacy.entries.head?.map OutboxEntry.seq).getD 1 := by
  have hkeys : box.rows.map OutboxRow.seq = legacy.entries.map OutboxEntry.seq := by
    rw [hrows, List.map_map]
    exact List.map_congr_left fun entry hentry => clampTokens_of_le (hfits entry hentry)
  constructor
  · rw [maxSeq_of_increasing (hkeys ▸ legacy.increasing), ← List.getLast?_map, hkeys,
      List.getLast?_map]
    rfl
  · rw [outboxBounds, ← List.head?_map, hkeys, List.head?_map]

/-- The last key fits its column, as all of them do. -/
theorem last_le (hfits : ∀ entry ∈ legacy.entries, entry.seq ≤ maxColumn) :
    legacy.last ≤ maxColumn := by
  unfold LegacyOutbox.last
  cases hlast : legacy.entries.getLast? with
  | none => exact Nat.zero_le _
  | some entry => exact hfits entry (List.mem_of_getLast? hlast)

/-- An ack mark that fits the column is stored as it is. -/
theorem ack_migrated {ack : Option ℕ} (hle : ack.getD 0 ≤ maxColumn) :
    ack.map clampTokens = ack := by
  cases ack with
  | none => rfl
  | some mark => exact congrArg some (clampTokens_of_le hle)

/-- What an append adds has a key above the highest one ever given. -/
theorem tryAppend_cases (s : Outbox) (event : String) (cap : ℕ) :
    (∃ r, s.tryAppend event cap = some r ∧ s.sequence < r.1.seq) ∨
      (s.tryAppend event cap = none ∧ maxColumn ≤ max s.sequence (maxSeq s.rows)) := by
  have hkept : (s.makeRoom event.utf8ByteSize cap).2.sequence = s.sequence ∧
      ∀ row ∈ (s.makeRoom event.utf8ByteSize cap).2.rows, row ∈ s.rows := by
    unfold makeRoom
    split
    · dsimp only
      cases (scan s.ack (s.rows.filter fun row => row.seq < maxSeq s.rows)
        ⟨s.totalBytes + event.utf8ByteSize - cap, 0, 0, none⟩).through with
      | none => exact ⟨rfl, fun row hrow => hrow⟩
      | some through => exact ⟨rfl, fun row hrow => (List.mem_filter.1 hrow).1⟩
    · exact ⟨rfl, fun row hrow => hrow⟩
  obtain ⟨hsequence, hsub⟩ := hkept
  have hmax : maxSeq (s.makeRoom event.utf8ByteSize cap).2.rows ≤ maxSeq s.rows :=
    maxSeq_le fun row hrow => le_maxSeq (hsub row hrow)
  have hseq : (s.appendOutbox event cap).1.seq =
      max s.sequence (maxSeq (s.makeRoom event.utf8ByteSize cap).2.rows) + 1 := by
    rw [← hsequence]
    rfl
  unfold tryAppend
  by_cases hroom : (s.appendOutbox event cap).1.seq ≤ maxColumn
  · refine .inl ⟨_, if_pos hroom, ?_⟩
    rw [hseq]
    omega
  · exact .inr ⟨if_neg hroom, by omega⟩

/-- What is appended fits its column. -/
theorem fits_of_tryAppend {event : String} {cap : ℕ} {r : OutboxAppend × Outbox}
    (happend : s.tryAppend event cap = some r) : r.1.seq ≤ maxColumn := by
  unfold tryAppend at happend
  by_cases hroom : (s.appendOutbox event cap).1.seq ≤ maxColumn
  · rw [if_pos hroom] at happend
    obtain rfl := Option.some.inj happend
    exact hroom
  · rw [if_neg hroom] at happend
    cases happend

/-- An append after the import goes above the floor, until the keys run out. -/
theorem tryAppend_migrated (htail : maxSeq box.rows = legacy.last)
    (hsequence : box.sequence = clampTokens legacy.floor) (event : String) (cap : ℕ) :
    (∃ r, box.tryAppend event cap = some r ∧ legacy.floor < r.1.seq) ∨
      (box.tryAppend event cap = none ∧ maxColumn ≤ legacy.floor) := by
  rcases tryAppend_cases box event cap with ⟨r, happend, hlt⟩ | ⟨hnone, hfull⟩
  · have hroom := fits_of_tryAppend happend
    rw [hsequence, clampTokens] at hlt
    exact .inl ⟨r, happend, by omega⟩
  · have hlast : legacy.last ≤ legacy.floor := le_max_left _ _
    rw [hsequence, htail, clampTokens] at hfull
    exact .inr ⟨hnone, by omega⟩

/-- An export after the import, from the mark it brought. -/
theorem exportCore_migrated (htail : maxSeq box.rows = legacy.last)
    (hfirst : box.outboxBounds.retainedFrom = (legacy.entries.head?.map OutboxEntry.seq).getD 1)
    (hack : box.ack = legacy.ack) (hle : legacy.ack.getD 0 ≤ legacy.last) (max : ℕ) :
    if (legacy.entries.head?.map OutboxEntry.seq).getD 1 ≤ legacy.ack.getD 0 + 1 then
      ∃ batch, box.exportCore none max = .ok batch
    else box.exportCore none max = .error (belowFloorDetail (legacy.ack.getD 0)
      ((legacy.entries.head?.map OutboxEntry.seq).getD 1)) := by
  have hcore : box.exportCore none max = selectBatch
      { entries := box.outboxPage (legacy.ack.getD 0) (rowLimit max)
        tornTailSkipped := false
        blankLinesSkipped := 0
        retainedFrom := (legacy.entries.head?.map OutboxEntry.seq).getD 1
        tail := legacy.last } (legacy.ack.getD 0) (rowLimit max) := by
    rw [← htail, ← hfirst, ← hack]
    rfl
  rw [hcore]
  split
  · rename_i hfloor
    exact ⟨_, Exporter.selectBatch_ok.2 ⟨⟨hle, hfloor⟩, rfl⟩⟩
  · rename_i hfloor
    rw [selectBatch, if_neg (not_lt.2 hle), if_pos (not_le.1 hfloor)]

/-- **An imported outbox is usable.**  Its rows are the entries; an append gets a key above the ack
mark and all of them, until the keys run out; and while the mark is not past the last entry, an
export behind it is served unless the journal had already lost what follows it, and a mark that
repeats or goes back is accepted and changes nothing. -/
theorem migrated_usable (legacy : LegacyOutbox)
    (hfits : ∀ entry ∈ legacy.entries, entry.seq ≤ maxColumn) :
    ∃ box, migrateOutbox legacy = some box ∧
      (box.rows.map fun row => (row.seq, row.event)) =
        (legacy.entries.map fun entry => (entry.seq, entry.event)) ∧
      (∀ event cap, (∃ r, box.tryAppend event cap = some r ∧ legacy.ack.getD 0 < r.1.seq ∧
          ∀ entry ∈ legacy.entries, entry.seq < r.1.seq) ∨
        (box.tryAppend event cap = none ∧ maxColumn ≤ legacy.floor)) ∧
      (legacy.ack.getD 0 ≤ legacy.last →
        (∀ max, if (legacy.entries.head?.map OutboxEntry.seq).getD 1 ≤ legacy.ack.getD 0 + 1 then
            ∃ batch, box.exportCore none max = .ok batch
          else box.exportCore none max = .error (belowFloorDetail (legacy.ack.getD 0)
            ((legacy.entries.head?.map OutboxEntry.seq).getD 1))) ∧
        ∀ given, given ≤ legacy.ack.getD 0 →
          box.ackCore given = (some (legacy.ack.getD 0), box)) := by
  obtain ⟨box, hbox, hrows, hack, hsequence⟩ := migrated hfits
  obtain ⟨htail, hfirst⟩ := bounds_migrated hfits hrows
  refine ⟨box, hbox, ?_, fun event cap => ?_, fun hle => ⟨fun max => ?_, fun given hgiven => ?_⟩⟩
  · rw [hrows, List.map_map]
    refine List.map_congr_left fun entry hentry => ?_
    exact congrArg (·, entry.event) (clampTokens_of_le (hfits entry hentry))
  · rcases tryAppend_migrated htail hsequence event cap with ⟨r, happend, hlt⟩ | hnone
    · exact .inl ⟨r, happend, (le_max_right _ _).trans_lt hlt,
        fun entry hentry => (le_floor hentry).trans_lt hlt⟩
    · exact .inr hnone
  · rw [ack_migrated (hle.trans (last_le hfits))] at hack
    exact exportCore_migrated htail hfirst hack hle max
  · rw [ack_migrated (hle.trans (last_le hfits))] at hack
    rw [ackCore, hack, htail, max_eq_left hgiven, if_neg (not_lt.2 hle), if_neg (lt_irrefl _)]

/-- The hypothesis holds of a journal whose front was compacted away, with the mark inside it. -/
theorem migrated_usable_compacted :
    ∃ box, migrateOutbox ⟨[⟨1, 5, "a"⟩, ⟨1, 7, "b"⟩], some 5, by decide⟩ = some box ∧
      (box.rows.map fun row => (row.seq, row.event)) = [(5, "a"), (7, "b")] := by
  obtain ⟨box, hbox, hrows, -⟩ :=
    migrated_usable ⟨[⟨1, 5, "a"⟩, ⟨1, 7, "b"⟩], some 5, by decide⟩ (by decide)
  exact ⟨box, hbox, hrows⟩

/-- **A journal that lost its front before anything was acknowledged is not served by default**,
and a sequence number beyond the column is stored as the largest that fits. -/
theorem migrated_floor :
    (∃ box, migrateOutbox ⟨[⟨1, 3, "a"⟩], none, by decide⟩ = some box ∧
      box.exportCore none 0 = .error (belowFloorDetail 0 3)) ∧
    ∃ box, migrateOutbox ⟨[⟨1, 2 ^ 63, "a"⟩], none, by decide⟩ = some box ∧
      box.rows = [⟨2 ^ 63 - 1, "a", 1⟩] :=
  ⟨⟨_, rfl, by rfl⟩, ⟨_, rfl, by decide +kernel⟩⟩

end Outbox

end Hekma
