/-
**The journal of the outbox** (`domain/outbox.rs`).

Before the outbox was a table it was a file of lines, one record a line.  A crash may tear the last
append; a record that is torn has no newline.  So the last line of the journal is passed over if it
is no record, no JSON value, and the file does not end with a newline.  Any other line that is no
record is refused, and blank lines are counted and passed over.

The writer and the readers of JSON texts are parameters.

Main definitions:

* `Journal.readJournalTolerant` — the code;
* `Journal.complete`, `Journal.fragment` — what a tear at a byte leaves of a journal;
* `Journal.ReadsRight` — a torn journal is read, and a malformed line that ended is refused;
* `Journal.Trailing` — the last line that is not blank is malformed and ended, and white space
  follows it that does not end;
* `Journal.Readable` — no tear inside a character, and no trailing white space of this kind.

Main results:

* `Journal.readText_ok` — what is read without an error;
* `Journal.cut` — what a tear leaves;
* `Journal.readsRight_iff` — the journal is read right where it is readable.
-/

import Hekma.Lib.Text
import Hekma.Lib.Utf8
import Hekma.Store.OutboxMigration
import Mathlib.Data.List.Chain

set_option relaxedAutoImplicit false
set_option autoImplicit false

namespace Hekma

namespace Journal

/-! ### The code -/

/-- How records are written, and how texts are read as records and as JSON values. -/
structure Serde where
  write : OutboxEntry → List Char
  readEntry : List Char → Except String OutboxEntry
  isValue : List Char → Bool

/-- A file as it is read. -/
inductive JournalFile where
  | absent
  | unreadable (detail : String)
  | content (bytes : List UInt8)
  deriving DecidableEq, Repr

def notUtf8Detail : String := "stream did not contain valid UTF-8"

/-- The refusal of a last line that is a JSON value but no record. -/
def wrongFileDetail (line : ℕ) : String :=
  s!"corrupt outbox journal: line {line} is valid JSON but not an outbox record — the wrong file?"

/-- The refusal of a last line that is no JSON value but ended. -/
def notTornDetail (line : ℕ) : String :=
  s!"corrupt outbox journal: trailing line {line} is unparseable and newline-terminated — not a " ++
  "torn append (corruption, or a fused line a post-crash append left); to recover: stop the " ++
  "engine (or host), quarantine the journal by renaming the file (the next open re-derives its " ++
  "event sequence from the journal's absence), and re-sync the families with resync_events — " ++
  "see https://hekma.ktesio.dev/docs/control-api/"

/-- The refusal of any other line. -/
def lineDetail (line : ℕ) (detail : String) : String :=
  s!"corrupt outbox journal line {line}: {detail}"

/-- The records of some lines with increasing sequence numbers, each line with its index. -/
def parseEntries (serde : Serde) (prev : Option ℕ) :
    List (List Char × ℕ) → Except String (List OutboxEntry)
  | [] => .ok []
  | (line, idx) :: lines =>
      match serde.readEntry line with
      | .error detail => .error (lineDetail (idx + 1) detail)
      | .ok entry =>
          match prev with
          | none => (parseEntries serde (some entry.seq) lines).map (entry :: ·)
          | some prev =>
              if entry.seq ≤ prev then .error (notIncreasingDetail (idx + 1) entry.seq prev)
              else (parseEntries serde (some entry.seq) lines).map (entry :: ·)

/-- The lines without a torn last one, and whether there was one. -/
def popTorn (serde : Serde) (newlineTerminated : Bool) (lines : List (List Char × ℕ)) :
    Except String (List (List Char × ℕ) × Bool) :=
  match lines.getLast? with
  | none => .ok (lines, false)
  | some (last, idx) =>
      match serde.readEntry last with
      | .ok _ => .ok (lines, false)
      | .error _ =>
          if serde.isValue last then .error (wrongFileDetail (idx + 1))
          else if newlineTerminated then .error (notTornDetail (idx + 1))
          else .ok (lines.dropLast, true)

/-- The view of some records. -/
def view (entries : List OutboxEntry) (torn : Bool) (blank : ℕ) : JournalView where
  entries := entries
  tornTailSkipped := torn
  blankLinesSkipped := blank
  retainedFrom := (entries.head?.map OutboxEntry.seq).getD 1
  tail := (entries.getLast?.map OutboxEntry.seq).getD 0

/-- The line is white space only. -/
def isBlank (line : List Char) : Bool := Text.trim line = []

/-- Read the text of a journal. -/
def readText (serde : Serde) (text : List Char) : Except String JournalView := do
  let numbered := (Text.lines text).zipIdx
  let lines := numbered.filter fun p => !isBlank p.1
  let (lines, torn) ← popTorn serde (text.getLast? = some '\n') lines
  let entries ← parseEntries serde none lines
  .ok (view entries torn (numbered.countP fun p => isBlank p.1))

/-- Read a journal.  One that is absent is empty. -/
def readJournalTolerant (serde : Serde) : JournalFile → Except String JournalView
  | .absent => .ok (view [] false 0)
  | .unreadable detail => .error detail
  | .content bytes =>
      match Utf8.fromUtf8 bytes with
      | none => .error notUtf8Detail
      | some text => readText serde text

/-! ### What is promised -/

/-- What is known of the texts of the records the engine writes. -/
structure Serde.Lawful (serde : Serde) (IsRecord : OutboxEntry → Prop) : Prop where
  /-- A record reads back. -/
  reads : ∀ e, IsRecord e → serde.readEntry (serde.write e) = .ok e
  /-- It is written on one line. -/
  line : ∀ e, IsRecord e → '\n' ∉ serde.write e
  /-- It is an object. -/
  object : ∀ e, IsRecord e → ∃ fields, serde.write e = '\x7b' :: fields ++ ['\x7d']
  /-- A piece of it is neither a record nor a value. -/
  piece : ∀ e, IsRecord e → ∀ p, p <+: serde.write e → p ≠ serde.write e →
    (∀ e', serde.readEntry p ≠ .ok e') ∧ serde.isValue p = false

/-- The sequence numbers increase. -/
def Increasing (entries : List OutboxEntry) : Prop :=
  (entries.map OutboxEntry.seq).IsChain (· < ·)

/-- A journal the engine can have written. -/
structure Written (IsRecord : OutboxEntry → Prop) (journal : List OutboxEntry) : Prop where
  records : ∀ e ∈ journal, IsRecord e
  increasing : Increasing journal

/-- The text of a journal: one line a record. -/
def journalText (serde : Serde) (journal : List OutboxEntry) : List Char :=
  journal.flatMap fun e => serde.write e ++ ['\n']

/-- The number of bytes of a record. -/
def size (serde : Serde) (e : OutboxEntry) : ℕ := (Utf8.encode (serde.write e)).length

/-- The records that are completely in the first bytes of a journal. -/
def complete (serde : Serde) : List OutboxEntry → ℕ → List OutboxEntry
  | [], _ => []
  | e :: journal, n =>
      if n < size serde e then [] else e :: complete serde journal (n - (size serde e + 1))

/-- A record is in the first bytes of a journal, but not completely. -/
def fragment (serde : Serde) : List OutboxEntry → ℕ → Bool
  | [], _ => false
  | e :: journal, n =>
      if n < size serde e then 0 < n else fragment serde journal (n - (size serde e + 1))

/-- The line is neither blank nor a record. -/
def Malformed (serde : Serde) (line : List Char) : Prop :=
  isBlank line = false ∧ ∀ e, serde.readEntry line ≠ .ok e

/-- A torn journal is read up to the tear, and a malformed line that ended is refused. -/
structure ReadsRight (serde : Serde) (IsRecord : OutboxEntry → Prop) (bytes : List UInt8) :
    Prop where
  survives : ∀ journal n, Written IsRecord journal →
    bytes = (Utf8.encode (journalText serde journal)).take n →
      readJournalTolerant serde (.content bytes) =
        .ok (view (complete serde journal n) (fragment serde journal n) 0)
  loud : ∀ pre line rest, Utf8.fromUtf8 bytes = some (pre ++ line ++ '\n' :: rest) →
    Text.EndsLine pre → '\n' ∉ line → Malformed serde (Text.stripEnding (line ++ ['\n'])) →
      ∃ detail, readJournalTolerant serde (.content bytes) = .error detail

/-- The lines that are not blank. -/
def kept (text : List Char) : List (List Char) := (Text.lines text).filter fun l => !isBlank l

/-- The lines are records with increasing sequence numbers. -/
def Records (serde : Serde) (lines : List (List Char)) (entries : List OutboxEntry) : Prop :=
  List.Forall₂ (fun line e => serde.readEntry line = .ok e) lines entries ∧ Increasing entries

/-- The last line that is not blank is malformed and no value, and it ended; the lines before it are
records; what follows it is white space that does not end with a newline. -/
def Trailing (serde : Serde) (text : List Char) : Prop :=
  ∃ pre line rest, text = pre ++ line ++ '\n' :: rest ∧ Text.EndsLine pre ∧ '\n' ∉ line ∧
    Malformed serde (Text.stripEnding (line ++ ['\n'])) ∧
    serde.isValue (Text.stripEnding (line ++ ['\n'])) = false ∧
    kept rest = [] ∧ text.getLast? ≠ some '\n' ∧ ∃ entries, Records serde (kept pre) entries

/-- The content is no journal torn inside a character, and it does not end with a malformed line and
unended white space. -/
def Readable (serde : Serde) (IsRecord : OutboxEntry → Prop) (bytes : List UInt8) : Prop :=
  (∀ journal n, Written IsRecord journal →
    bytes = (Utf8.encode (journalText serde journal)).take n → (Utf8.fromUtf8 bytes).isSome) ∧
  ∀ text, Utf8.fromUtf8 bytes = some text → ¬ Trailing serde text

/-! ### What is read -/

variable {serde : Serde} {IsRecord : OutboxEntry → Prop} {text : List Char}

/-- The entries of some lines, behind a sequence number. -/
def EntriesAfter (serde : Serde) (prev : Option ℕ) (lines : List (List Char × ℕ))
    (entries : List OutboxEntry) : Prop :=
  List.Forall₂ (fun p e => serde.readEntry p.1 = .ok e) lines entries ∧
    (prev.toList ++ entries.map OutboxEntry.seq).IsChain (· < ·)

theorem entriesAfter_cons {prev : Option ℕ} {line : List Char × ℕ}
    {lines : List (List Char × ℕ)} {entry : OutboxEntry} {entries : List OutboxEntry}
    (hread : serde.readEntry line.1 = .ok entry) :
    EntriesAfter serde prev (line :: lines) entries ↔ (∀ last ∈ prev, last < entry.seq) ∧
      ∃ rest, entries = entry :: rest ∧ EntriesAfter serde (some entry.seq) lines rest := by
  constructor
  · rintro ⟨hall, hchain⟩
    obtain ⟨e, rest, he, hrest, rfl⟩ := List.forall₂_cons_left_iff.1 hall
    obtain rfl : entry = e := Except.ok.inj (hread.symm.trans he)
    cases prev with
    | none => exact ⟨by simp, rest, rfl, hrest, hchain⟩
    | some last =>
        obtain ⟨hlt, hchain⟩ := List.isChain_cons_cons.1 hchain
        exact ⟨by simpa using hlt, rest, rfl, hrest, hchain⟩
  · rintro ⟨hprev, rest, rfl, hrest, hchain⟩
    refine ⟨.cons hread hrest, ?_⟩
    cases prev with
    | none => exact hchain
    | some last => exact List.isChain_cons_cons.2 ⟨hprev last rfl, hchain⟩

theorem parseEntries_ok {prev : Option ℕ} {lines : List (List Char × ℕ)}
    {entries : List OutboxEntry} :
    parseEntries serde prev lines = .ok entries ↔ EntriesAfter serde prev lines entries := by
  induction lines generalizing prev entries with
  | nil =>
      rw [parseEntries, EntriesAfter, List.forall₂_nil_left_iff, Except.ok.injEq]
      refine ⟨fun h => ⟨h.symm, ?_⟩, fun h => h.1.symm⟩
      subst h
      cases prev <;> simp
  | cons line lines ih =>
      obtain ⟨line, idx⟩ := line
      have hmap : ∀ entry : OutboxEntry,
          (parseEntries serde (some entry.seq) lines).map (entry :: ·) = .ok entries ↔
            ∃ rest, entries = entry :: rest ∧ EntriesAfter serde (some entry.seq) lines rest := by
        intro entry
        simp only [← ih]
        cases parseEntries serde (some entry.seq) lines with
        | error detail => simp [Except.map]
        | ok rest => simp [Except.map, eq_comm]
      rw [parseEntries]
      cases hread : serde.readEntry line with
      | error detail =>
          refine iff_of_false (by simp) fun h => ?_
          obtain ⟨e, rest, he, -, rfl⟩ := List.forall₂_cons_left_iff.1 h.1
          rw [hread] at he
          cases he
      | ok entry =>
          rw [entriesAfter_cons hread]
          cases prev with
          | none => simp [hmap]
          | some last =>
              dsimp only
              split
              · rename_i hle
                refine iff_of_false (by simp) fun h => ?_
                exact absurd (h.1 last rfl) (Nat.not_lt.2 hle)
              · rename_i hlt
                simp [hmap, Nat.not_le.1 hlt]

theorem popTorn_ok {newlineTerminated torn : Bool} {lines rest : List (List Char × ℕ)} :
    popTorn serde newlineTerminated lines = .ok (rest, torn) ↔
      (torn = false ∧ rest = lines ∧
        ∀ last ∈ lines.getLast?, ∃ e, serde.readEntry last.1 = .ok e) ∨
      (torn = true ∧ newlineTerminated = false ∧ ∃ last, lines = rest ++ [last] ∧
        (∀ e, serde.readEntry last.1 ≠ .ok e) ∧ serde.isValue last.1 = false) := by
  unfold popTorn
  rcases List.eq_nil_or_concat lines with rfl | ⟨init, ⟨last, idx⟩, rfl⟩
  · constructor
    · intro h
      cases h
      exact .inl ⟨rfl, rfl, by simp⟩
    · rintro (⟨rfl, rfl, -⟩ | ⟨-, -, last, hlast, -⟩)
      · rfl
      · simp at hlast
  · rw [List.concat_eq_append, List.getLast?_concat]
    have hlast : ∀ {last' : List Char × ℕ}, init ++ [(last, idx)] = rest ++ [last'] →
        init = rest ∧ (last, idx) = last' := by
      intro last' h
      obtain ⟨hinit, hlast⟩ := List.append_inj' h rfl
      exact ⟨hinit, List.singleton_inj.1 hlast⟩
    dsimp only
    cases hread : serde.readEntry last with
    | ok e =>
        dsimp only
        constructor
        · intro h
          cases h
          exact .inl ⟨rfl, rfl, by simp [hread]⟩
        · rintro (⟨rfl, rfl, -⟩ | ⟨-, -, last', heq, hnone, -⟩)
          · rfl
          · obtain ⟨-, rfl⟩ := hlast heq
            exact absurd hread (hnone e)
    | error detail =>
        have hsome : ¬ ∀ last' ∈ some (last, idx), ∃ e, serde.readEntry last'.1 = .ok e := by
          intro h
          obtain ⟨e, he⟩ := h _ rfl
          rw [hread] at he
          cases he
        dsimp only
        cases hvalue : serde.isValue last with
        | true =>
            refine iff_of_false (by simp) ?_
            rintro (⟨-, -, h⟩ | ⟨-, -, last', heq, -, hno⟩)
            · exact hsome h
            · obtain ⟨-, rfl⟩ := hlast heq
              rw [hvalue] at hno
              cases hno
        | false =>
            cases newlineTerminated with
            | true =>
                refine iff_of_false (by simp) ?_
                rintro (⟨-, -, h⟩ | ⟨-, hno, -⟩)
                · exact hsome h
                · cases hno
            | false =>
                rw [if_neg Bool.false_ne_true, if_neg Bool.false_ne_true, List.dropLast_concat]
                constructor
                · intro h
                  cases h
                  exact .inr ⟨rfl, rfl, (last, idx), rfl, by simp [hread], hvalue⟩
                · rintro (⟨-, -, h⟩ | ⟨rfl, -, last', heq, -⟩)
                  · exact absurd h hsome
                  · rw [(hlast heq).1]

theorem Records.exists_of_mem {lines : List (List Char)} {entries : List OutboxEntry}
    (h : Records serde lines entries) {line : List Char} (hline : line ∈ lines) :
    ∃ e, serde.readEntry line = .ok e := by
  obtain ⟨hall, -⟩ := h
  induction hall with
  | nil => cases hline
  | cons hread _ ih =>
      rcases List.mem_cons.1 hline with rfl | hline
      · exact ⟨_, hread⟩
      · exact ih hline

/-- Numbering the lines changes neither the blank ones nor the others. -/
theorem countP_zipIdx_isBlank (lines : List (List Char)) :
    lines.zipIdx.countP (fun p => isBlank p.1) = lines.countP isBlank := by
  conv_rhs => rw [← List.zipIdx_map_fst 0 lines, List.countP_map]
  rfl

theorem kept_eq (text : List Char) :
    kept text = ((Text.lines text).zipIdx.filter fun p => !isBlank p.1).map Prod.fst := by
  conv_lhs => rw [kept, ← List.zipIdx_map_fst 0 (Text.lines text), List.filter_map]
  rfl

theorem parseEntries_records {lines : List (List Char × ℕ)} {entries : List OutboxEntry} :
    parseEntries serde none lines = .ok entries ↔ Records serde (lines.map Prod.fst) entries := by
  rw [parseEntries_ok, EntriesAfter, Records, List.forall₂_map_left_iff]
  rfl

/-- The torn line is taken off, and the others are parsed. -/
theorem readText_eq_ok {v : JournalView} :
    readText serde text = .ok v ↔ ∃ rest torn entries,
      popTorn serde (text.getLast? = some '\n')
        ((Text.lines text).zipIdx.filter fun p => !isBlank p.1) = .ok (rest, torn) ∧
      parseEntries serde none rest = .ok entries ∧
      v = view entries torn ((Text.lines text).countP isBlank) := by
  rw [readText, ← countP_zipIdx_isBlank]
  constructor
  · intro h
    simp only [bind, Except.bind] at h
    split at h
    · cases h
    · rename_i p hpop
      split at h
      · cases h
      · rename_i entries hparse
        exact ⟨p.1, p.2, entries, hpop, hparse, (Except.ok.inj h).symm⟩
  · rintro ⟨rest, torn, entries, hpop, hparse, rfl⟩
    simp only [hpop, hparse, bind, Except.bind]

/-- **What is read without an error**: records, and perhaps a torn line behind them. -/
theorem readText_ok {v : JournalView} :
    readText serde text = .ok v ↔
      ∃ entries torn, v = view entries torn ((Text.lines text).countP isBlank) ∧
        (torn = false ∧ Records serde (kept text) entries ∨
          torn = true ∧ text.getLast? ≠ some '\n' ∧ ∃ lines last, kept text = lines ++ [last] ∧
            (∀ e, serde.readEntry last ≠ .ok e) ∧ serde.isValue last = false ∧
            Records serde lines entries) := by
  rw [readText_eq_ok, kept_eq]
  constructor
  · rintro ⟨rest, torn, entries, hpop, hparse, rfl⟩
    rw [parseEntries_records] at hparse
    refine ⟨entries, torn, rfl, ?_⟩
    rcases popTorn_ok.1 hpop with ⟨rfl, rfl, -⟩ | ⟨rfl, hterminated, last, hlast, hread, hvalue⟩
    · exact .inl ⟨rfl, hparse⟩
    · refine .inr ⟨rfl, of_decide_eq_false hterminated, rest.map Prod.fst, last.1, ?_, hread,
        hvalue, hparse⟩
      rw [hlast, List.map_append, List.map_singleton]
  · rintro ⟨entries, torn, rfl, h⟩
    rcases h with ⟨rfl, hread⟩ | ⟨rfl, hterminated, lines, last, hlines, hnone, hvalue, hread⟩
    · refine ⟨_, false, entries, popTorn_ok.2 (.inl ⟨rfl, rfl, fun last hlast => ?_⟩),
        parseEntries_records.2 hread, rfl⟩
      exact hread.exists_of_mem (List.mem_map_of_mem (List.mem_of_getLast? hlast))
    · obtain ⟨rest, tail, heq, rfl, htail⟩ := List.map_eq_append_iff.1 hlines
      obtain ⟨p, rfl, rfl⟩ := List.map_eq_singleton_iff.1 htail
      exact ⟨rest, true, entries, popTorn_ok.2 (.inr ⟨rfl, decide_eq_false hterminated, p, heq,
        hnone, hvalue⟩), parseEntries_records.2 hread, rfl⟩

/-! ### What a tear leaves -/

theorem isBlank_object (fields : List Char) : isBlank ('\x7b' :: fields) = false := by
  refine decide_eq_false fun h => ?_
  rw [Text.trim, List.dropWhile_cons_of_neg (by decide), List.rdropWhile_eq_nil_iff] at h
  exact absurd (h '\x7b' List.mem_cons_self) (by decide)

namespace Serde.Lawful

variable (h : serde.Lawful IsRecord) {e : OutboxEntry} (he : IsRecord e)

include h he

theorem isBlank_piece {p : List Char} (hp : p <+: serde.write e) (hne : p ≠ []) :
    isBlank p = false := by
  obtain ⟨fields, hfields⟩ := h.object e he
  cases p with
  | nil => exact absurd rfl hne
  | cons c p =>
      rw [hfields, List.cons_append, List.cons_prefix_cons] at hp
      rw [hp.1]
      exact isBlank_object p

theorem write_ne_nil : serde.write e ≠ [] := by
  obtain ⟨fields, hfields⟩ := h.object e he
  rw [hfields]
  exact List.cons_ne_nil _ _

theorem size_pos : 0 < size serde e := by
  rw [size, List.length_pos_iff]
  intro hnil
  exact h.write_ne_nil he (Utf8.encode_injective (hnil.trans Utf8.encode_nil.symm))

/-- No carriage return stands before the newline of a record. -/
theorem stripEnding_write : Text.stripEnding (serde.write e ++ ['\n']) = serde.write e := by
  rcases Text.stripEnding_newline (serde.write e) with heq | heq
  · exact heq
  · obtain ⟨fields, hfields⟩ := h.object e he
    rw [hfields] at heq
    have hlast := congrArg List.getLast? heq
    rw [List.getLast?_concat, List.getLast?_concat] at hlast
    exact absurd (Option.some.inj hlast) (by decide)

end Serde.Lawful

theorem journalText_cons (serde : Serde) (e : OutboxEntry) (journal : List OutboxEntry)
    (t : List Char) : journalText serde (e :: journal) ++ t =
      serde.write e ++ '\n' :: (journalText serde journal ++ t) := by
  simp [journalText]

/-- The lines of a journal are its records. -/
theorem lines_journalText (h : serde.Lawful IsRecord) {journal : List OutboxEntry}
    (hrecords : ∀ e ∈ journal, IsRecord e) (t : List Char) :
    Text.lines (journalText serde journal ++ t) = journal.map serde.write ++ Text.lines t := by
  induction journal with
  | nil => rfl
  | cons e journal ih =>
      have he := hrecords e List.mem_cons_self
      rw [journalText_cons, Text.lines_append_newline, Text.lines_line_newline (h.line e he),
        h.stripEnding_write he, ih fun e' he' => hrecords e' (List.mem_cons_of_mem e he')]
      rfl

/-- What stands behind the ended records of a torn journal: nothing, a record without its newline,
or a piece of one. -/
inductive Tail (serde : Serde) (IsRecord : OutboxEntry → Prop) :
    List Char → List OutboxEntry → Bool → Prop
  | none : Tail serde IsRecord [] [] false
  | record {e : OutboxEntry} (he : IsRecord e) : Tail serde IsRecord (serde.write e) [e] false
  | piece {e : OutboxEntry} {p : List Char} (he : IsRecord e) (hp : p <+: serde.write e)
      (hne : p ≠ serde.write e) (hnil : p ≠ []) : Tail serde IsRecord p [] true

theorem encode_journalText_cons (serde : Serde) (e : OutboxEntry) (journal : List OutboxEntry) :
    Utf8.encode (journalText serde (e :: journal)) = Utf8.encode (serde.write e) ++
      10 :: Utf8.encode (journalText serde journal) := by
  have hcons := journalText_cons serde e journal []
  rw [List.append_nil, List.append_nil] at hcons
  rw [hcons, Utf8.encode_append]
  rfl

/-- A journal torn before its first byte has nothing left. -/
theorem cut_zero (h : serde.Lawful IsRecord) {journal : List OutboxEntry}
    (hrecords : ∀ e ∈ journal, IsRecord e) :
    complete serde journal 0 = [] ∧ fragment serde journal 0 = false := by
  cases journal with
  | nil => exact ⟨rfl, rfl⟩
  | cons e journal =>
      have hpos := h.size_pos (hrecords e List.mem_cons_self)
      rw [complete, fragment, if_pos hpos, if_pos hpos]
      exact ⟨rfl, rfl⟩

/-- What a tear inside a record leaves of it. -/
theorem tail_of_cut {e : OutboxEntry} {n : ℕ} (he : IsRecord e) (hless : n < size serde e)
    (htext : Utf8.encode text = (Utf8.encode (serde.write e)).take n) :
    Tail serde IsRecord text [] (decide (0 < n)) := by
  have hsize : (Utf8.encode (serde.write e)).length = size serde e := rfl
  have hlen := congrArg List.length htext
  rw [List.length_take, hsize, Nat.min_eq_left (Nat.le_of_lt hless)] at hlen
  have hrest : Utf8.encode text ++ (Utf8.encode (serde.write e)).drop n =
      Utf8.encode (serde.write e) := by
    rw [htext, List.take_append_drop]
  have hne : text ≠ serde.write e := by
    intro heq
    rw [heq] at hlen
    exact absurd hlen (Nat.ne_of_gt hless)
  by_cases hnil : text = []
  · subst hnil
    obtain rfl : 0 = n := hlen
    exact .none
  · have hpos : 0 < n := by
      rcases Nat.eq_zero_or_pos n with rfl | hpos
      · exact absurd (Utf8.encode_injective (List.length_eq_zero_iff.1 hlen)) hnil
      · exact hpos
    rw [decide_eq_true hpos]
    exact .piece he (Utf8.isPrefix_of_encode hrest) hne hnil

/-- **What a tear leaves**, if it is not inside a character. -/
theorem cut (h : serde.Lawful IsRecord) {journal : List OutboxEntry} {n : ℕ}
    (hrecords : ∀ e ∈ journal, IsRecord e)
    (htext : Utf8.encode text = (Utf8.encode (journalText serde journal)).take n) :
    ∃ ended tail last, text = journalText serde ended ++ tail ∧
      Tail serde IsRecord tail last (fragment serde journal n) ∧
      complete serde journal n = ended ++ last ∧ ∀ e ∈ ended, IsRecord e := by
  induction journal generalizing n text with
  | nil =>
      have hnil : text = [] := Utf8.encode_injective (htext.trans (by simp [journalText]))
      subst hnil
      exact ⟨[], [], [], rfl, .none, rfl, by simp⟩
  | cons e journal ih =>
      have he := hrecords e List.mem_cons_self
      have htail : ∀ e ∈ journal, IsRecord e := fun e' he' =>
        hrecords e' (List.mem_cons_of_mem e he')
      have hsize : (Utf8.encode (serde.write e)).length = size serde e := rfl
      rw [encode_journalText_cons, List.take_append, hsize] at htext
      rw [complete, fragment]
      by_cases hless : n < size serde e
      · -- the tear is in the first record
        rw [Nat.sub_eq_zero_of_le (Nat.le_of_lt hless), List.take_zero, List.append_nil] at htext
        rw [if_pos hless, if_pos hless]
        exact ⟨[], text, [], rfl, tail_of_cut he hless htext, rfl, by simp⟩
      · rw [Nat.not_lt] at hless
        rw [if_neg (Nat.not_lt.2 hless), if_neg (Nat.not_lt.2 hless)]
        rw [List.take_of_length_le hless] at htext
        cases hm : n - size serde e with
        | zero =>
            -- the tear is between the first record and its newline
            rw [hm, List.take_zero, List.append_nil] at htext
            obtain rfl := Utf8.encode_injective htext
            have hzero : n - (size serde e + 1) = 0 := by omega
            obtain ⟨hcomplete, hfragment⟩ := cut_zero h htail
            rw [hzero, hcomplete, hfragment]
            exact ⟨[], _, [e], rfl, .record he, rfl, by simp⟩
        | succ m =>
            rw [hm, List.take_succ_cons] at htext
            have hm' : n - (size serde e + 1) = m := by omega
            have hline : Utf8.encode (serde.write e ++ ['\n']) ++
                (Utf8.encode (journalText serde journal)).take m = Utf8.encode text := by
              rw [htext, Utf8.encode_append, List.append_assoc]
              rfl
            obtain ⟨rest, rfl⟩ := Utf8.isPrefix_of_encode hline
            rw [Utf8.encode_append _ rest] at hline
            obtain ⟨ended, tail, last, rfl, htails, hcomplete, hended⟩ :=
              ih htail (List.append_cancel_left hline).symm
            rw [hm', hcomplete]
            refine ⟨e :: ended, tail, last, ?_, htails, rfl, ?_⟩
            · rw [journalText_cons, List.append_assoc]
              rfl
            · intro e' he'
              rcases List.mem_cons.1 he' with rfl | he'
              · exact he
              · exact hended e' he'

theorem complete_isPrefix (serde : Serde) (journal : List OutboxEntry) (n : ℕ) :
    complete serde journal n <+: journal := by
  induction journal generalizing n with
  | nil => exact List.prefix_rfl
  | cons e journal ih =>
      rw [complete]
      split
      · exact List.nil_prefix
      · exact List.cons_prefix_cons.2 ⟨rfl, ih _⟩

theorem Records.of_written (h : serde.Lawful IsRecord) {entries : List OutboxEntry}
    (hrecords : ∀ e ∈ entries, IsRecord e) (hincreasing : Increasing entries) :
    Records serde (entries.map serde.write) entries := by
  refine ⟨?_, hincreasing⟩
  rw [List.forall₂_map_left_iff, List.forall₂_same]
  exact fun e he => h.reads e (hrecords e he)

/-- The text has no blank line. -/
theorem kept_of_notBlank (h : ∀ l ∈ Text.lines text, isBlank l = false) :
    kept text = Text.lines text ∧ (Text.lines text).countP isBlank = 0 := by
  refine ⟨List.filter_eq_self.2 fun l hl => ?_, List.countP_eq_zero.2 fun l hl => ?_⟩
  · rw [h l hl]
    rfl
  · rw [h l hl]
    exact Bool.false_ne_true

theorem readText_tail (h : serde.Lawful IsRecord) {ended last : List OutboxEntry}
    {tail : List Char} {torn : Bool} (hended : ∀ e ∈ ended, IsRecord e)
    (htail : Tail serde IsRecord tail last torn) (hincreasing : Increasing (ended ++ last)) :
    readText serde (journalText serde ended ++ tail) = .ok (view (ended ++ last) torn 0) := by
  have hlines := lines_journalText h hended tail
  have hwrite : ∀ e, IsRecord e → isBlank (serde.write e) = false := fun e he =>
    h.isBlank_piece he List.prefix_rfl (h.write_ne_nil he)
  have hmap : ∀ entries : List OutboxEntry, (∀ e ∈ entries, IsRecord e) →
      ∀ l ∈ entries.map serde.write, isBlank l = false := by
    intro entries hentries l hl
    obtain ⟨e, he, rfl⟩ := List.mem_map.1 hl
    exact hwrite e (hentries e he)
  -- without a piece, the lines are the texts of all the records
  have hwhole : ∀ entries : List OutboxEntry, (∀ e ∈ entries, IsRecord e) → Increasing entries →
      Text.lines (journalText serde ended ++ tail) = entries.map serde.write →
        readText serde (journalText serde ended ++ tail) = .ok (view entries false 0) := by
    intro entries hentries hincr heq
    obtain ⟨hkept, hblank⟩ := kept_of_notBlank (heq ▸ hmap entries hentries)
    refine readText_ok.2 ⟨entries, false, by rw [hblank], .inl ⟨rfl, ?_⟩⟩
    rw [hkept, heq]
    exact Records.of_written h hentries hincr
  cases htail with
  | none =>
      rw [List.append_nil] at hincreasing
      rw [List.append_nil ended]
      exact hwhole ended hended hincreasing (by rw [hlines]; simp [Text.lines, Text.splitInclusive])
  | record he =>
      refine hwhole _ (fun e' he' => ?_) hincreasing ?_
      · rcases List.mem_append.1 he' with he' | he'
        · exact hended e' he'
        · rw [List.mem_singleton.1 he']
          exact he
      · rw [hlines, Text.lines_line (h.line _ he) (h.write_ne_nil he), List.map_append,
          List.map_singleton]
  | piece he hp hne hnil =>
      rw [List.append_nil] at hincreasing ⊢
      have hline : '\n' ∉ tail := fun hmem => h.line _ he (hp.subset hmem)
      rw [Text.lines_line hline hnil] at hlines
      have hnotBlank : ∀ l ∈ Text.lines (journalText serde ended ++ tail), isBlank l = false := by
        intro l hl
        rw [hlines] at hl
        rcases List.mem_append.1 hl with hl | hl
        · exact hmap ended hended l hl
        · rw [List.mem_singleton.1 hl]
          exact h.isBlank_piece he hp hnil
      obtain ⟨hkept, hblank⟩ := kept_of_notBlank hnotBlank
      obtain ⟨hread, hvalue⟩ := h.piece _ he _ hp hne
      refine readText_ok.2 ⟨ended, true, by rw [hblank], .inr ⟨rfl, ?_, _, tail, ?_, hread, hvalue,
        Records.of_written h hended hincreasing⟩⟩
      · intro hlast
        rw [List.getLast?_append_of_ne_nil _ hnil] at hlast
        exact hline (List.mem_of_getLast? hlast)
      · rw [hkept, hlines]

/-- **A torn journal is read up to the tear.** -/
theorem readText_torn (h : serde.Lawful IsRecord) {journal : List OutboxEntry} {n : ℕ}
    (hwritten : Written IsRecord journal)
    (htext : Utf8.encode text = (Utf8.encode (journalText serde journal)).take n) :
    readText serde text =
      .ok (view (complete serde journal n) (fragment serde journal n) 0) := by
  obtain ⟨ended, tail, last, rfl, htail, hcomplete, hended⟩ := cut h hwritten.records htext
  have hincreasing : Increasing (ended ++ last) := by
    rw [← hcomplete]
    exact hwritten.increasing.prefix ((complete_isPrefix serde journal n).map OutboxEntry.seq)
  rw [hcomplete]
  exact readText_tail h hended htail hincreasing

/-! ### What is refused -/

/-- The lines around a line that ended. -/
theorem kept_line {pre line rest : List Char} (hpre : Text.EndsLine pre) (hline : '\n' ∉ line)
    (hblank : isBlank (Text.stripEnding (line ++ ['\n'])) = false) :
    kept (pre ++ line ++ '\n' :: rest) =
      kept pre ++ Text.stripEnding (line ++ ['\n']) :: kept rest := by
  have hlines : Text.lines (pre ++ line ++ '\n' :: rest) =
      Text.lines pre ++ Text.stripEnding (line ++ ['\n']) :: Text.lines rest := by
    rw [List.append_assoc, Text.lines_append hpre, Text.lines_append_newline,
      Text.lines_line_newline hline]
    rfl
  rw [kept, hlines, List.filter_append, List.filter_cons, hblank]
  rfl

/-- **A malformed line that ended is passed over only before trailing white space.** -/
theorem trailing_of_ok {v : JournalView} {pre line rest : List Char}
    (htext : text = pre ++ line ++ '\n' :: rest) (hpre : Text.EndsLine pre) (hline : '\n' ∉ line)
    (hmalformed : Malformed serde (Text.stripEnding (line ++ ['\n'])))
    (hok : readText serde text = .ok v) : Trailing serde text := by
  obtain ⟨entries, torn, -, hread⟩ := readText_ok.1 hok
  have hkept : kept text = kept pre ++ Text.stripEnding (line ++ ['\n']) :: kept rest := by
    rw [htext, kept_line hpre hline hmalformed.1]
  have hnot : ∀ lines, Records serde lines entries → Text.stripEnding (line ++ ['\n']) ∉ lines := by
    intro lines hrecords hmem
    obtain ⟨e, he⟩ := hrecords.exists_of_mem hmem
    exact hmalformed.2 e he
  rcases hread with ⟨-, hrecords⟩ | ⟨-, hterminated, lines, last, heq, -, hvalue, hrecords⟩
  · refine absurd ?_ (hnot _ hrecords)
    rw [hkept]
    simp
  · rw [hkept] at heq
    rcases List.eq_nil_or_concat (kept rest) with hrest | ⟨init, last', hrest⟩
    · -- the line is the last one that is not blank
      rw [hrest] at heq
      obtain ⟨rfl, hlast⟩ := List.append_inj' heq rfl
      obtain rfl := List.singleton_inj.1 hlast
      exact ⟨pre, line, rest, htext, hpre, hline, hmalformed, hvalue, hrest, hterminated, entries,
        hrecords⟩
    · rw [hrest, List.concat_eq_append, ← List.cons_append, ← List.append_assoc] at heq
      obtain ⟨rfl, -⟩ := List.append_inj' heq rfl
      exact absurd (by simp) (hnot _ hrecords)

/-- Trailing white space hides a malformed line. -/
theorem ok_of_trailing (h : Trailing serde text) : ∃ v, readText serde text = .ok v := by
  obtain ⟨pre, line, rest, htext, hpre, hline, hmalformed, hvalue, hrest, hterminated, entries,
    hrecords⟩ := h
  refine ⟨_, readText_ok.2 ⟨entries, true, rfl, .inr ⟨rfl, hterminated, kept pre, _, ?_,
    hmalformed.2, hvalue, hrecords⟩⟩⟩
  rw [htext, kept_line hpre hline hmalformed.1, hrest]

/-! ### Reading a journal -/

/-- **The journal is read right where it is readable.** -/
theorem readsRight_iff (h : serde.Lawful IsRecord) (bytes : List UInt8) :
    ReadsRight serde IsRecord bytes ↔ Readable serde IsRecord bytes := by
  constructor
  · intro hright
    refine ⟨fun journal n hwritten hbytes => ?_, fun text htext htrailing => ?_⟩
    · have hok := hright.survives journal n hwritten hbytes
      rw [readJournalTolerant] at hok
      cases htext : Utf8.fromUtf8 bytes with
      | none =>
          rw [htext] at hok
          cases hok
      | some text => rfl
    · obtain ⟨v, hok⟩ := ok_of_trailing htrailing
      obtain ⟨pre, line, rest, heq, hpre, hline, hmalformed, -⟩ := htrailing
      obtain ⟨detail, herror⟩ :=
        hright.loud pre line rest (by rw [htext, heq]) hpre hline hmalformed
      rw [readJournalTolerant, htext] at herror
      cases hok.symm.trans herror
  · rintro ⟨hwhole, hnone⟩
    refine ⟨fun journal n hwritten hbytes => ?_,
      fun pre line rest htext hpre hline hmalformed => ?_⟩
    · obtain ⟨text, htext⟩ := Option.isSome_iff_exists.1 (hwhole journal n hwritten hbytes)
      rw [readJournalTolerant, htext]
      exact readText_torn h hwritten ((Utf8.fromUtf8_eq_some.1 htext).symm.trans hbytes)
    · rw [readJournalTolerant, htext]
      cases hok : readText serde (pre ++ line ++ '\n' :: rest) with
      | error detail => exact ⟨detail, hok⟩
      | ok v => exact absurd (trailing_of_ok rfl hpre hline hmalformed hok) (hnone _ htext)

/-! ### A tear inside a character -/

/-- The texts of one record: what is before its one character that is not ASCII, and what is after
it. -/
def eventBefore : List Char :=
  "\x7b\x22kind\x22:\x22transition\x22,\x22schema_version\x22:1,".toList ++
  "\x22instance\x22:\x22a\x22,\x22prior_state\x22:\x22starting\x22,".toList ++
  "\x22new_state\x22:\x22failed\x22,\x22cause\x22:".toList ++
  "\x7b\x22kind\x22:\x22launch-error\x22,\x22detail\x22:\x22no launcher ".toList

def eventAfter : List Char := "\x22\x7d,\x22at\x22:\x222026-10-19T00:00:00Z\x22\x7d".toList

def failedLaunch : OutboxEntry := ⟨1, 1, String.ofList (eventBefore ++ '—' :: eventAfter)⟩

def recordBefore : List Char :=
  "\x7b\x22schema_version\x22:1,\x22seq\x22:1,\x22event\x22:".toList ++ eventBefore

/-- The writer and the readers of one record. -/
def oneRecord : Serde where
  write := fun _ => recordBefore ++ '—' :: (eventAfter ++ ['\x7d'])
  readEntry := fun line =>
    if line = recordBefore ++ '—' :: (eventAfter ++ ['\x7d']) then .ok failedLaunch
    else .error "EOF while parsing a value"
  isValue := fun line => line = recordBefore ++ '—' :: (eventAfter ++ ['\x7d'])

theorem lawful_oneRecord : oneRecord.Lawful (· = failedLaunch) where
  reads := by
    rintro _ rfl
    simp [oneRecord]
  line := by
    rintro _ rfl
    decide +kernel
  object := by
    rintro _ rfl
    exact ⟨recordBefore.tail ++ '—' :: eventAfter, by decide +kernel⟩
  piece := by
    rintro _ rfl p - hne
    refine ⟨fun e' h => ?_, decide_eq_false hne⟩
    have hread : oneRecord.readEntry p = .error "EOF while parsing a value" := if_neg hne
    rw [hread] at h
    cases h

theorem written_failedLaunch : Written (· = failedLaunch) [failedLaunch] where
  records := by simp
  increasing := List.isChain_singleton _

theorem readsRight_beforeCharacter :
    ReadsRight oneRecord (· = failedLaunch) (Utf8.encode recordBefore) := by
  refine (readsRight_iff lawful_oneRecord _).2 ⟨fun _ _ _ _ => ?_, fun text htext htrailing => ?_⟩
  · rw [Utf8.fromUtf8_encode]
    rfl
  · rw [Utf8.fromUtf8_encode] at htext
    obtain ⟨pre, line, rest, heq, -⟩ := htrailing
    have hnewline : '\n' ∉ recordBefore := by decide +kernel
    rw [Option.some.inj htext, heq] at hnewline
    simp at hnewline

theorem not_readsRight_insideCharacter :
    ¬ ReadsRight oneRecord (· = failedLaunch) (Utf8.encode recordBefore ++ [0xE2]) := by
  intro h
  have hnone : Utf8.fromUtf8 (Utf8.encode recordBefore ++ [0xE2]) = none :=
    Utf8.fromUtf8_encode_append (by decide)
  have hcut : Utf8.encode recordBefore ++ [0xE2] =
      (Utf8.encode (journalText oneRecord [failedLaunch])).take
        ((Utf8.encode recordBefore).length + 1) := by
    have htext : journalText oneRecord [failedLaunch] =
        recordBefore ++ '—' :: (eventAfter ++ ['\x7d', '\n']) := by
      simp [journalText, oneRecord]
    rw [htext, Utf8.encode_append, List.take_append, List.take_of_length_le (Nat.le_succ _),
      Nat.add_sub_cancel_left]
    rfl
  have hok := h.survives _ _ written_failedLaunch hcut
  rw [readJournalTolerant, hnone] at hok
  cases hok

-- a malformed line that ended, and a space behind it
example : readText oneRecord ['x', '\n', ' '] = .ok (view [] true 1) := by rfl

end Journal

end Hekma
