/-
**The usage channel, read in pieces** (`domain/supervisor/usage.rs`, `domain/supervisor/mod.rs`,
`ports/usage_source.rs`).

The agent writes its channel in pieces of any length; a piece can end within a line, and within a
character.  A pass decodes what lies behind the cursor, up to the last newline while the agent
lives and to the end once it is dead, and parses its lines.  Whatever the pieces are, the reports of
all passes are those of one pass over everything that was written.

Main definitions:

* `Channel`, `Channel.read` — the log with its cursor and the reports so far, and one pass;
* `Channel.readAll` — passes while the agent lives.

Main results:

* `usageOf_eq_parseUsageBlock` — the reader of lines that `usageOf` is used with;
* `Channel.read_eq` — what a pass reads;
* `readAll_eq_whole` — **the pieces do not matter**.
-/

import Hekma.Lib.Utf8
import Hekma.Ports.UsageLine
import Hekma.Supervisor.UsageDrain

set_option relaxedAutoImplicit false
set_option autoImplicit false

namespace Hekma

namespace UsageDrain

open Utf8 (fromUtf8Lossy)
open Drainer (chunk isPrefix_chunk planDrain_zero)

/-! ### Passes -/

/-- A channel: its log, the cursor, and the reports of the passes so far. -/
structure Channel where
  log : List UInt8
  cursor : ℕ
  reports : List ParsedUsage
  deriving DecidableEq, Repr

section

variable (fromStr : List Char → Option Json)

/-- A pass, after the agent has written on. -/
def Channel.read (mode : DrainMode) (c : Channel) (appended : List UInt8) : Channel :=
  let log := c.log ++ appended
  match readUsageTail (some log) c.cursor with
  | .unavailable => { c with log }
  | .shrunk newCursor => { c with log, cursor := newCursor }
  | .tail bytes =>
      match planDrain bytes 0 mode with
      | .consume start stop consumed =>
          let block := fromUtf8Lossy (bytes.extract start stop)
          { log
            cursor := c.cursor + consumed
            reports := c.reports ++ parseUsageBlock fromStr block }
      | .nothing | .shrunk _ => { c with log }

/-- A pass after each piece. -/
def Channel.readAll (c : Channel) (pieces : List (List UInt8)) : Channel :=
  pieces.foldl (Channel.read fromStr .midRun) c

/-- A channel at the start of a launch: the cursor is behind what the log holds. -/
def Channel.start (older : List UInt8) : Channel := ⟨older, older.length, []⟩

end

/-! ### Lines of bytes -/

variable {fromStr : List Char → Option Json}

theorem newline_ascii : newline < 0x80 := by decide

theorem lines_of_not_mem {bs : List UInt8} (h : newline ∉ bs) (hne : bs ≠ []) :
    lines bs = [bs] := by
  induction bs with
  | nil => exact absurd rfl hne
  | cons b bs ih =>
      rw [List.mem_cons, not_or] at h
      rw [lines, if_neg (Ne.symm h.1)]
      by_cases hbs : bs = []
      · rw [hbs]
        rfl
      · rw [ih h.2 hbs]

theorem lines_append_newline {bs : List UInt8} (h : newline ∉ bs) (t : List UInt8) :
    lines (bs ++ newline :: t) = bs :: lines t := by
  induction bs with
  | nil => rw [List.nil_append, lines, if_pos rfl]
  | cons b bs ih =>
      rw [List.mem_cons, not_or] at h
      rw [List.cons_append, lines, if_neg (Ne.symm h.1), ih h.2]

/-- A line of bytes is a line of characters. -/
theorem newline_not_mem_decoded {bs : List UInt8} (h : newline ∉ bs) :
    '\n' ∉ fromUtf8Lossy bs := by
  intro hmem
  obtain ⟨b, hb, heq⟩ := Utf8.mem_fromUtf8Lossy_ascii (by decide) (by decide) hmem
  obtain rfl : b = newline := UInt8.toNat_inj.1 heq
  exact h hb

/-- **The reader of lines**: decoding a text and reading its lines is decoding and reading each of
the lines of its bytes. -/
theorem usageOf_eq_parseUsageBlock (bs : List UInt8) :
    usageOf (fun line => parseUsageLine fromStr (fromUtf8Lossy line)) bs
      = parseUsageBlock fromStr (fromUtf8Lossy bs) := by
  induction hn : bs.length using Nat.strong_induction_on generalizing bs with
  | _ n ih =>
      by_cases hmem : newline ∈ bs
      · -- the first line, and the rest by induction
        obtain ⟨line, t, rfl, hline⟩ := List.eq_append_cons_of_mem hmem
        have hlt : t.length < n := by
          rw [← hn, List.length_append, List.length_cons]
          omega
        rw [Utf8.fromUtf8Lossy_append_ascii newline_ascii]
        change _ = parseUsageBlock fromStr (fromUtf8Lossy line ++ '\n' :: fromUtf8Lossy t)
        rw [parseUsageBlock_between, parseUsageBlock_line (newline_not_mem_decoded hline),
          ← ih _ hlt t rfl, usageOf, lines_append_newline hline]
        cases hparse : parseUsageLine fromStr (fromUtf8Lossy line) <;> simp [hparse, usageOf]
      · by_cases hne : bs = []
        · rw [hne]
          rfl
        · rw [parseUsageBlock_line (newline_not_mem_decoded hmem), usageOf,
            lines_of_not_mem hmem hne]
          cases hparse : parseUsageLine fromStr (fromUtf8Lossy bs) <;> simp [hparse]

/-- What follows a finished line is read by itself. -/
theorem parseUsageBlock_decoded_append {xs : List UInt8} (h : EndsLine xs) (ys : List UInt8) :
    parseUsageBlock fromStr (fromUtf8Lossy (xs ++ ys))
      = parseUsageBlock fromStr (fromUtf8Lossy xs) ++ parseUsageBlock fromStr (fromUtf8Lossy ys) := by
  rw [← usageOf_eq_parseUsageBlock, usageOf_append _ h, usageOf_eq_parseUsageBlock,
    usageOf_eq_parseUsageBlock]

/-! ### What a pass reads -/

namespace Channel

variable {c : Channel} {older written : List UInt8}

/-- **What a pass reads**: of what lies behind the cursor, the lines that are finished, or all. -/
theorem read_eq (mode : DrainMode) (appended : List UInt8) (h : c.cursor ≤ c.log.length) :
    c.read fromStr mode appended =
      { log := c.log ++ appended
        cursor := c.cursor + (chunk mode ((c.log ++ appended).drop c.cursor)).length
        reports := c.reports ++ parseUsageBlock fromStr
          (fromUtf8Lossy (chunk mode ((c.log ++ appended).drop c.cursor))) } := by
  have hle : ¬ (c.log ++ appended).length < c.cursor := by
    rw [List.length_append]
    omega
  unfold read
  dsimp only
  rw [readUsageTail, if_neg hle]
  dsimp only
  rw [planDrain_zero]
  generalize hbytes : (c.log ++ appended).drop c.cursor = bytes
  by_cases hchunk : chunk mode bytes = []
  · rw [if_pos hchunk, hchunk]
    change _ = Channel.mk _ _ (c.reports ++ [])
    rw [List.append_nil]
    rfl
  · have hextract : bytes.extract 0 (chunk mode bytes).length = chunk mode bytes := by
      rw [List.extract_eq_take_drop, Nat.sub_zero, List.drop_zero]
      exact (List.prefix_iff_eq_take.1 (isPrefix_chunk mode bytes)).symm
    rw [if_neg hchunk]
    dsimp only
    rw [hextract]

/-- The passes so far have read the finished lines of what was written up to the cursor. -/
def Caught (fromStr : List Char → Option Json) (older written : List UInt8) (c : Channel) : Prop :=
  ∃ done rest, written = done ++ rest ∧ EndsLine done ∧ c.log = older ++ written ∧
    c.cursor = older.length + done.length ∧
    c.reports = parseUsageBlock fromStr (fromUtf8Lossy done)

theorem caught_start (older : List UInt8) : (start older).Caught fromStr older [] :=
  ⟨[], [], rfl, endsLine_nil, (List.append_nil older).symm, rfl, rfl⟩

theorem Caught.cursor_le (h : c.Caught fromStr older written) : c.cursor ≤ c.log.length := by
  obtain ⟨done, rest, rfl, -, hlog, hcursor, -⟩ := h
  rw [hlog, hcursor, List.length_append, List.length_append]
  omega

/-- A pass takes the finished lines, or all, of what the passes before it left. -/
theorem Caught.read (h : c.Caught fromStr older written) (mode : DrainMode)
    (appended : List UInt8) :
    ∃ done rest, written = done ++ rest ∧ EndsLine done ∧
      c.read fromStr mode appended =
        { log := older ++ (written ++ appended)
          cursor := older.length + (done ++ chunk mode (rest ++ appended)).length
          reports := parseUsageBlock fromStr
            (fromUtf8Lossy (done ++ chunk mode (rest ++ appended))) } := by
  have hle := h.cursor_le
  obtain ⟨done, rest, rfl, hdone, hlog, hcursor, hreports⟩ := h
  refine ⟨done, rest, rfl, hdone, ?_⟩
  have hunread : (c.log ++ appended).drop c.cursor = rest ++ appended := by
    rw [hlog, hcursor, List.append_assoc, List.append_assoc, List.drop_append, List.drop_append]
    simp
  rw [read_eq mode appended hle, hunread, hcursor, hreports, hlog,
    parseUsageBlock_decoded_append hdone, List.length_append, Nat.add_assoc, List.append_assoc]

theorem Caught.midRun (h : c.Caught fromStr older written) (appended : List UInt8) :
    (c.read fromStr .midRun appended).Caught fromStr older (written ++ appended) := by
  obtain ⟨done, rest, rfl, hdone, hread⟩ := h.read .midRun appended
  obtain ⟨left, hleft⟩ := isPrefix_completeLines (rest ++ appended)
  rw [hread]
  refine ⟨done ++ completeLines (rest ++ appended), left, ?_, ?_, rfl, rfl, rfl⟩
  · rw [List.append_assoc, List.append_assoc, hleft]
  · exact hdone.append (completeLines_endsLine _)

theorem Caught.readAll (h : c.Caught fromStr older written) (pieces : List (List UInt8)) :
    (c.readAll fromStr pieces).Caught fromStr older (written ++ pieces.flatten) := by
  induction pieces generalizing c written with
  | nil => simpa [Channel.readAll] using h
  | cons piece pieces ih =>
      have hrest := ih (h.midRun piece)
      rw [List.append_assoc] at hrest
      exact hrest

theorem Caught.terminal (h : c.Caught fromStr older written) (appended : List UInt8) :
    c.read fromStr .terminal appended =
      { log := older ++ (written ++ appended)
        cursor := older.length + (written ++ appended).length
        reports := parseUsageBlock fromStr (fromUtf8Lossy (written ++ appended)) } := by
  obtain ⟨done, rest, rfl, -, hread⟩ := h.read .terminal appended
  rw [hread, List.append_assoc]
  rfl

end Channel

/-- **The pieces do not matter**: passes after any pieces and a last pass find the reports one last
pass finds in everything that was written, no cursor is ever beyond what could be read, and the
last one is behind all of it. -/
theorem readAll_eq_whole (fromStr : List Char → Option Json) (older : List UInt8)
    (pieces : List (List UInt8)) (last : List UInt8) :
    let passes := (Channel.start older).readAll fromStr pieces
    let whole := pieces.flatten ++ last
    ((passes.read fromStr .terminal last).reports
        = ((Channel.start older).read fromStr .terminal whole).reports) ∧
      ((passes.read fromStr .terminal last).reports
        = parseUsageBlock fromStr (fromUtf8Lossy whole)) ∧
      (∀ k, ((Channel.start older).readAll fromStr (pieces.take k)).cursor
        ≤ older.length + (pieces.take k).flatten.length) ∧
      (passes.read fromStr .terminal last).cursor = older.length + whole.length := by
  intro passes whole
  have hstart : (Channel.start older).Caught fromStr older [] := Channel.caught_start older
  have hall := (hstart.readAll pieces).terminal last
  have hwhole := hstart.terminal whole
  rw [List.nil_append] at hall hwhole
  refine ⟨by rw [hall, hwhole], by rw [hall], fun k => ?_, by rw [hall]⟩
  obtain ⟨done, rest, hwritten, -, -, hcursor, -⟩ := hstart.readAll (pieces.take k)
  rw [List.nil_append] at hwritten
  rw [hcursor, hwritten, List.length_append]
  omega

end UsageDrain

end Hekma
