/-
**The engine's notes on the wire** (`hekma-host/src/control/notes.rs`).

A tap stands in front of the host's diagnostic sink.  It copies what the engine writes into the
capture of every write request that is running, and until the first such request into the startup
notes, which that request takes.  A response carries the notes of its request in a header: whole
lines, percent-encoded, up to a bound, and a last line that says how many bytes did not fit.

The bound on a capture has no such line.  What is written after 16 KiB is not recorded and not
counted either.

Main definitions:

* `Notes.encode`, `Notes.decode`, `Notes.boundedHeader` — the header and its reader;
* `Notes.Tap`, `Notes.step` — the captures, and what happens to them;
* `Notes.Intact` — a whole-line beginning of what was written, and what is missing.

Main results:

* `Notes.boundedHeader_spec` — what the reader of a header gets;
* `Notes.answer_run` — what a request is answered with in a run;
* `Notes.intact_iff` — **when the notes arrive intact**.
-/

import Hekma.Lib.Lines
import Hekma.Lib.Percent
import Hekma.Lib.Utf8

set_option relaxedAutoImplicit false
set_option autoImplicit false

namespace Hekma

namespace Notes

abbrev Bytes := List UInt8

def newline : UInt8 := 0x0A

/-! ### The header -/

/-- The most bytes of notes one capture keeps. -/
def maxNoteBytes : ℕ := 16 * 1024

/-- The most bytes of notes one header carries, encoded. -/
def maxHeaderBytes : ℕ := 16 * 1024

/-- The bytes a header carries as they are: letters, digits, and `-_.~` and the blank. -/
def unreserved (b : UInt8) : Bool :=
  (0x30 ≤ b ∧ b ≤ 0x39) || (0x41 ≤ b ∧ b ≤ 0x5A) || (0x61 ≤ b ∧ b ≤ 0x7A) ||
    b = 0x2D || b = 0x5F || b = 0x2E || b = 0x7E || b = 0x20

def encode (bytes : Bytes) : Bytes := Percent.encode unreserved bytes

def decode (text : Bytes) : Bytes := Percent.decode text

def omittedHead : List Char := "[hekma] ".toList

def omittedTail : List Char := " more bytes of engine notes are in the Service Host's log".toList

/-- The last line of a header, without its newline. -/
def omittedText (n : ℕ) : List Char := omittedHead ++ (Nat.toDigits 10 n ++ omittedTail)

/-- The line that stands for bytes that did not fit. -/
def omitted (n : ℕ) : Bytes := Utf8.encode (omittedText n) ++ [newline]

/-- Take lines while they fit: the text, and how many bytes it stands for. -/
def fill (out : Bytes) (taken : ℕ) : List Bytes → Bytes × ℕ
  | [] => (out, taken)
  | line :: lines =>
      let encoded := encode line
      if out.length + encoded.length > maxHeaderBytes then (out, taken)
      else fill (out ++ encoded) (taken + line.length) lines

def boundedHeader (bytes : Bytes) : Bytes :=
  let (out, taken) := fill [] 0 (Lines.pieces newline bytes)
  if taken < bytes.length then out ++ encode (omitted (bytes.length - taken)) else out

/-! ### The tap -/

/-- A write request that is running: the startup notes it took, and its capture. -/
structure Request where
  id : ℕ
  bytes : Bytes
  buffer : Bytes
  deriving DecidableEq, Repr

/-- The tap: the startup notes as long as they are kept, and the open captures. -/
structure Tap where
  startup : Option Bytes
  opened : List Request
  deriving DecidableEq, Repr

/-- The tap of a host that was started by a command, or of one that was not. -/
def Tap.new (keepingStartupNotes : Bool) : Tap :=
  ⟨if keepingStartupNotes then some [] else none, []⟩

/-- Add to a buffer that is not full. -/
def extend (buffer bytes : Bytes) : Bytes :=
  if buffer.length < maxNoteBytes then buffer ++ bytes else buffer

def Tap.record (t : Tap) (bytes : Bytes) : Tap where
  startup := t.startup.map (extend · bytes)
  opened := t.opened.map fun r => { r with buffer := extend r.buffer bytes }

/-- A write request begins: it takes the startup notes and opens a capture. -/
def Tap.begin (t : Tap) (id : ℕ) : Tap where
  startup := none
  opened := t.opened ++ [⟨id, t.startup.getD [], []⟩]

/-- The header of a response, if there are notes. -/
def Request.header (r : Request) : Option Bytes :=
  let bytes := r.bytes ++ r.buffer
  if bytes = [] then none else some (boundedHeader bytes)

/-- The header a request that ends now is answered with. -/
def Tap.answer (t : Tap) (id : ℕ) : Option Bytes :=
  (t.opened.find? (·.id = id)).bind Request.header

/-- A write request ends. -/
def Tap.finish (t : Tap) (id : ℕ) : Tap :=
  { t with opened := t.opened.filter (·.id ≠ id) }

/-- What the client writes to its standard error. -/
def received (header : Option Bytes) : Bytes := (header.map decode).getD []

inductive Action where
  | write (bytes : Bytes)
  | begin (id : ℕ)
  | finish (id : ℕ)
  deriving DecidableEq, Repr

def step (t : Tap) : Action → Tap
  | .write bytes => t.record bytes
  | .begin id => t.begin id
  | .finish id => t.finish id

def run (t : Tap) (actions : List Action) : Tap := actions.foldl step t

/-! ### The reader of a header -/

theorem decode_encode (bytes : Bytes) : decode (encode bytes) = bytes :=
  Percent.decode_encode (by decide) bytes

theorem encode_append (l t : Bytes) : encode (l ++ t) = encode l ++ encode t :=
  Percent.encode_append l t

theorem length_encode_le {l t : Bytes} (h : l <+: t) : (encode l).length ≤ (encode t).length :=
  Percent.length_encode_le h

/-- What the loop takes: lines that fit, and not the line behind them. -/
theorem fill_spec (lines : List Bytes) (out : Bytes) (taken : ℕ)
    (hout : out.length ≤ maxHeaderBytes) :
    ∃ k, k ≤ lines.length ∧
      fill out taken lines =
        (out ++ encode (lines.take k).flatten, taken + (lines.take k).flatten.length) ∧
      out.length + (encode (lines.take k).flatten).length ≤ maxHeaderBytes ∧
      (k < lines.length →
        maxHeaderBytes < out.length + (encode (lines.take (k + 1)).flatten).length) := by
  induction lines generalizing out taken with
  | nil => exact ⟨0, Nat.le_refl _, by simp [fill, encode], by simpa [encode] using hout, by simp⟩
  | cons line lines ih =>
      rw [fill]
      split
      · rename_i hfull
        refine ⟨0, Nat.zero_le _, by simp [encode], by simpa [encode] using hout, fun _ => ?_⟩
        rw [List.take_succ_cons, List.flatten_cons, List.take_zero, List.flatten_nil,
          List.append_nil]
        exact hfull
      · rename_i hfits
        have hnext : (out ++ encode line).length ≤ maxHeaderBytes := by
          rw [List.length_append]
          omega
        obtain ⟨k, hk, heq, hle, hlast⟩ := ih (out ++ encode line) (taken + line.length) hnext
        rw [List.length_append] at hle hlast
        refine ⟨k + 1, Nat.succ_le_succ hk, ?_, ?_, fun h => ?_⟩
        · rw [heq, List.take_succ_cons, List.flatten_cons, encode_append, List.append_assoc,
            List.length_append, Nat.add_assoc]
        · rw [List.take_succ_cons, List.flatten_cons, encode_append, List.length_append]
          omega
        · have := hlast (Nat.lt_of_succ_lt_succ h)
          rw [List.take_succ_cons, List.flatten_cons, encode_append, List.length_append]
          omega

/-- **What the reader of a header gets**: as many whole lines as fit, and the number of bytes that
are left. -/
theorem boundedHeader_spec (bytes : Bytes) :
    ∃ k, let p := ((Lines.pieces newline bytes).take k).flatten
      (encode p).length ≤ maxHeaderBytes ∧
      (p = bytes ∧ decode (boundedHeader bytes) = bytes ∨
        k < (Lines.pieces newline bytes).length ∧ p ≠ bytes ∧
          decode (boundedHeader bytes) = p ++ omitted (bytes.length - p.length) ∧
          maxHeaderBytes <
            (encode ((Lines.pieces newline bytes).take (k + 1)).flatten).length) := by
  obtain ⟨k, hk, heq, hle, hlast⟩ :=
    fill_spec (Lines.pieces newline bytes) [] 0 (Nat.zero_le _)
  have hflat := Lines.flatten_pieces newline bytes
  refine ⟨k, ?_⟩
  intro p
  have hp : p <+: bytes := Lines.flatten_take_pieces newline k bytes
  rw [List.nil_append, Nat.zero_add] at heq
  simp only [List.length_nil, Nat.zero_add] at hle hlast
  refine ⟨hle, ?_⟩
  rw [boundedHeader, heq]
  dsimp only
  by_cases hall : p = bytes
  · refine .inl ⟨hall, ?_⟩
    rw [if_neg (Nat.not_lt.2 (Nat.le_of_eq (congrArg List.length hall).symm))]
    exact (decode_encode p).trans hall
  · have hklt : k < (Lines.pieces newline bytes).length := by
      refine Nat.lt_of_le_of_ne hk fun h => hall ?_
      rw [← hflat, ← List.take_length (l := Lines.pieces newline bytes), ← h]
    have hlt : p.length < bytes.length :=
      Nat.lt_of_le_of_ne hp.length_le fun h => hall (hp.eq_of_length h)
    refine .inr ⟨hklt, hall, ?_, hlast hklt⟩
    rw [if_pos hlt, ← encode_append, decode_encode]

/-! ### The last line -/

theorem newline_notMem_omittedText (n : ℕ) : newline ∉ Utf8.encode (omittedText n) := by
  intro hmem
  have hascii : newline < 0x80 := by decide
  have hchar := Utf8.mem_of_mem_encode hascii hmem
  have hhead : Char.ofNat newline.toNat ∉ omittedHead := by decide +kernel
  have htail : Char.ofNat newline.toNat ∉ omittedTail := by decide +kernel
  rw [omittedText, List.mem_append, List.mem_append] at hchar
  rcases hchar with h | h | h
  · exact hhead h
  · exact absurd (Nat.isDigit_of_mem_toDigits (by omega) (by omega) h) (by decide)
  · exact htail h

theorem omittedText_injective {n m : ℕ} (h : omittedText n = omittedText m) : n = m := by
  have hdigits : Nat.toDigits 10 n = Nat.toDigits 10 m :=
    List.append_cancel_right (List.append_cancel_left h)
  rw [← Nat.ofDigitChars_ten_toDigits (n := n), hdigits, Nat.ofDigitChars_ten_toDigits]

/-- The number of missing bytes can be read off, and so can what was taken. -/
theorem closed_append_omitted {p q : Bytes} {n m : ℕ} (hp : Lines.Closed newline p)
    (hq : Lines.Closed newline q) (h : p ++ omitted n = q ++ omitted m) : p = q ∧ n = m := by
  obtain ⟨hpq, htext⟩ := Lines.closed_append_line hp hq (newline_notMem_omittedText n)
    (newline_notMem_omittedText m) h
  exact ⟨hpq, omittedText_injective (Utf8.encode_injective htext)⟩

/-- A piece of the last line has no newline. -/
theorem newline_notMem_of_isPrefix {s : Bytes} {n : ℕ} (h : s <+: omitted n)
    (hlt : s.length < (omitted n).length) : newline ∉ s := by
  have hcut : s <+: Utf8.encode (omittedText n) := by
    refine List.prefix_of_prefix_length_le h ⟨_, rfl⟩ ?_
    rw [omitted, List.length_append, List.length_singleton] at hlt
    omega
  exact fun hmem => newline_notMem_omittedText n (hcut.subset hmem)

/-! ### What was written and what was kept -/

/-- A whole-line beginning of what was written, and a line for what is missing. -/
def Intact (written decoded : Bytes) : Prop :=
  ∃ p, p <+: written ∧ (p = written ∨ Lines.Closed newline p) ∧
    decoded = p ++ if p = written then [] else omitted (written.length - p.length)

/-- The notes that are written before the first of them are too many. -/
def onTime (n : ℕ) : List Bytes → List Bytes
  | [] => []
  | w :: ws => if n < maxNoteBytes then w :: onTime (n + w.length) ws else []

/-- The last line of what was written reads as the line that stands for it. -/
def SaysItself (kept written : Bytes) : Prop :=
  ∃ p n, Lines.Closed newline p ∧ (encode p).length ≤ maxHeaderBytes ∧
    kept.length = p.length + n ∧ written = p ++ omitted n

/-- Notes were lost behind a beginning that alone fills a header. -/
def Cut (kept written : Bytes) : Prop :=
  kept.length < written.length ∧
    ∃ c, c <+: kept ∧ c <+: written ∧ maxNoteBytes ≤ c.length

theorem foldl_extend (ws : List Bytes) (buffer : Bytes) :
    ws.foldl extend buffer = buffer ++ (onTime buffer.length ws).flatten := by
  induction ws generalizing buffer with
  | nil => simp [onTime]
  | cons w ws ih =>
      rw [List.foldl_cons, ih, extend, onTime]
      split
      · rw [List.length_append, List.flatten_cons, List.append_assoc]
      · rename_i hfull
        cases ws with
        | nil => rfl
        | cons w' ws => rw [onTime, if_neg hfull]

theorem onTime_cut (ws : List Bytes) (n : ℕ) :
    ∃ rest, ws.flatten = (onTime n ws).flatten ++ rest ∧
      (rest ≠ [] → maxNoteBytes ≤ n + (onTime n ws).flatten.length) := by
  induction ws generalizing n with
  | nil => exact ⟨[], rfl, fun h => absurd rfl h⟩
  | cons w ws ih =>
      rw [onTime]
      split
      · obtain ⟨rest, heq, hlong⟩ := ih (n + w.length)
        refine ⟨rest, ?_, fun h => ?_⟩
        · rw [List.flatten_cons, List.flatten_cons, heq, List.append_assoc]
        · have := hlong h
          rw [List.flatten_cons, List.length_append]
          omega
      · exact ⟨(w :: ws).flatten, rfl, fun _ => by simp; omega⟩

/-- Either everything was kept, or so much of the beginning that a header is full. -/
theorem kept_or_cut (startup during : List Bytes) :
    let kept := (onTime 0 startup).flatten ++ (onTime 0 during).flatten
    let written := (startup ++ during).flatten
    kept = written ∨ Cut kept written := by
  intro kept written
  obtain ⟨rest, hstartup, hlong⟩ := onTime_cut startup 0
  obtain ⟨rest', hduring, hlong'⟩ := onTime_cut during 0
  rw [Nat.zero_add] at hlong hlong'
  have hwritten : written = (onTime 0 startup).flatten ++ (rest ++
      ((onTime 0 during).flatten ++ rest')) := by
    rw [← hduring, ← List.append_assoc, ← hstartup, ← List.flatten_append]
  by_cases hrest : rest = []
  · by_cases hrest' : rest' = []
    · refine .inl ?_
      rw [hwritten, hrest, hrest', List.nil_append, List.append_nil]
    · refine .inr ⟨?_, kept, List.prefix_rfl, ⟨rest', ?_⟩, ?_⟩
      · have := List.length_pos_of_ne_nil hrest'
        simp only [hwritten, kept, List.length_append]
        omega
      · rw [hwritten, hrest, List.nil_append, List.append_assoc]
      · have := hlong' hrest'
        simp only [kept, List.length_append]
        omega
  · refine .inr ⟨?_, (onTime 0 startup).flatten, ⟨_, rfl⟩, ⟨_, hwritten.symm⟩, hlong hrest⟩
    have := List.length_pos_of_ne_nil hrest
    simp only [hwritten, kept, List.length_append]
    omega

/-- What was kept whole arrives intact. -/
theorem intact_of_kept (bytes : Bytes) : Intact bytes (decode (boundedHeader bytes)) := by
  obtain ⟨k, -, ⟨-, heq⟩ | ⟨hk, hne, heq, -⟩⟩ := boundedHeader_spec bytes
  · exact ⟨bytes, List.prefix_rfl, .inl rfl, by rw [heq, if_pos rfl, List.append_nil]⟩
  · exact ⟨_, Lines.flatten_take_pieces newline k bytes, .inr (Lines.closed_flatten_take hk),
      by rw [heq, if_neg hne]⟩

variable {kept written p s : Bytes} {n : ℕ}

/-- A beginning that fills a header does not fit in it when a byte of it is escaped. -/
theorem header_full (hlong : maxNoteBytes ≤ p.length) {b : UInt8} (hmem : b ∈ p)
    (hb : unreserved b = false) : maxHeaderBytes < (encode p).length :=
  Nat.lt_of_le_of_lt hlong (Percent.length_lt_encode hmem hb)

/-- Of what was cut, the notes are intact only by accident. -/
theorem saysItself_of_intact (hcut : Cut kept written)
    (h : Intact written (decode (boundedHeader kept))) : SaysItself kept written := by
  obtain ⟨hlt, c, hckept, hcwritten, hlong⟩ := hcut
  obtain ⟨q, hq, hclosed, hread⟩ := h
  obtain ⟨k, hle, ⟨hall, heq⟩ | ⟨hk, -, heq, -⟩⟩ := boundedHeader_spec kept
  · -- a header that holds all of it holds no newline
    have hnone : newline ∉ kept := by
      intro hmem
      have hfull := header_full (Nat.le_trans hlong hckept.length_le) hmem (by decide)
      rw [hall] at hle
      omega
    rw [heq] at hread
    by_cases hqw : q = written
    · rw [if_pos hqw, List.append_nil, hqw] at hread
      rw [hread] at hlt
      exact absurd hlt (Nat.lt_irrefl _)
    · rw [if_neg hqw] at hread
      refine absurd ?_ hnone
      rw [hread, omitted]
      simp
  · rw [heq] at hread
    have hp := Lines.closed_flatten_take hk
    by_cases hqw : q = written
    · rw [if_pos hqw, List.append_nil, hqw] at hread
      have hle' := (Lines.flatten_take_pieces newline k kept).length_le
      exact ⟨_, _, hp, hle, by omega, hread.symm⟩
    · rw [if_neg hqw] at hread
      obtain ⟨hpq, hn⟩ := closed_append_omitted hp (hclosed.resolve_left hqw) hread
      have hqle := hq.length_le
      have hne : q.length ≠ written.length := fun h => hqw (hq.eq_of_length h)
      have hlen := congrArg List.length hpq
      omega

/-- A beginning of the last line begins with a byte that is escaped. -/
theorem mem_of_isPrefix_omitted (h : s <+: omitted n) (hne : s ≠ []) : 0x5B ∈ s := by
  obtain ⟨rest, hrest⟩ := h
  have homitted : (omitted n).head? = some 0x5B := rfl
  rw [← hrest, List.head?_append_of_ne_nil s hne] at homitted
  exact List.mem_of_head? homitted

/-- The line for what was not kept stands where the notes have that line themselves. -/
theorem intact_of_saysItself (hcut : Cut kept written) (h : SaysItself kept written) :
    Intact written (decode (boundedHeader kept)) := by
  obtain ⟨hlt, c, ⟨t, hkept⟩, hcwritten, hlong⟩ := hcut
  obtain ⟨p, n, hp, hle, hlen, hwritten⟩ := h
  -- the kept beginning is `p` and a piece of the last line
  have hpc : p <+: c := by
    refine List.prefix_of_prefix_length_le ⟨_, hwritten.symm⟩ hcwritten ?_
    exact Nat.le_trans (Nat.le_trans (Percent.length_le_encode unreserved p) hle) hlong
  obtain ⟨s, rfl⟩ := hpc
  have hs : s <+: omitted n := by
    rw [hwritten] at hcwritten
    exact (List.prefix_append_right_inj p).1 hcwritten
  rw [List.append_assoc] at hkept
  have hslen : s.length + t.length = n := by
    have := congrArg List.length hkept
    rw [List.length_append, List.length_append] at this
    omega
  have hsnone : newline ∉ s := by
    refine newline_notMem_of_isPrefix hs ?_
    rw [hwritten, List.length_append] at hlt
    omega
  have hfull : maxHeaderBytes < (encode (p ++ s)).length := by
    by_cases hsnil : s = []
    · rcases hp with rfl | hlast
      · rw [hsnil] at hlong
        exact absurd hlong (by decide)
      · refine header_full hlong (b := newline) ?_ (by decide)
        exact List.mem_append_left s (List.mem_of_getLast? hlast)
    · exact header_full hlong (List.mem_append_right p (mem_of_isPrefix_omitted hs hsnil))
        (by decide)
  have hrest : s ++ t ≠ [] := by
    intro hnil
    rw [(List.append_eq_nil_iff.1 hnil).1, List.append_nil] at hfull
    omega
  obtain ⟨line, rest, hpieces, hsline⟩ := Lines.isPrefix_pieces_head hsnone hrest
  have hall : Lines.pieces newline kept = Lines.pieces newline p ++ line :: rest := by
    rw [← hkept, Lines.pieces_append hp, hpieces]
  obtain ⟨k, hfits, hread⟩ := boundedHeader_spec kept
  have hk : k = (Lines.pieces newline p).length := by
    refine Nat.le_antisymm (Nat.le_of_not_lt fun hgt => ?_) (Nat.le_of_not_lt fun hless => ?_)
    · -- the piece behind `p` does not fit
      have hbig : p ++ s <+: ((Lines.pieces newline kept).take k).flatten := by
        obtain ⟨j, rfl⟩ : ∃ j, k = (Lines.pieces newline p).length + (j + 1) :=
          ⟨k - (Lines.pieces newline p).length - 1, by omega⟩
        rw [hall, List.take_length_add_append, List.take_succ_cons, List.flatten_append,
          Lines.flatten_pieces, List.flatten_cons]
        exact (List.prefix_append_right_inj p).2 (hsline.trans (List.prefix_append _ _))
      have := length_encode_le hbig
      exact absurd (Nat.lt_of_lt_of_le hfull this) (Nat.not_lt.2 hfits)
    · rcases hread with ⟨hkeptall, -⟩ | ⟨-, -, -, hnext⟩
      · have hbig : p ++ s <+: kept := ⟨t, by rw [List.append_assoc, hkept]⟩
        rw [← hkeptall] at hbig
        have := length_encode_le hbig
        exact absurd (Nat.lt_of_lt_of_le hfull this) (Nat.not_lt.2 hfits)
      · rw [hall, List.take_append_of_le_length hless] at hnext
        have hsmall := Lines.flatten_take_pieces newline (k + 1) p
        have := length_encode_le hsmall
        exact absurd (Nat.lt_of_lt_of_le hnext this) (Nat.not_lt.2 hle)
  have htaken : ((Lines.pieces newline kept).take k).flatten = p := by
    rw [hall, hk, List.take_left, Lines.flatten_pieces]
  rw [htaken] at hread
  have hpart : p ≠ kept := by
    intro h
    rw [← hkept] at h
    exact hrest (List.self_eq_append_right.1 h)
  obtain ⟨-, -, heq, -⟩ := hread.resolve_left fun h => hpart h.1
  refine ⟨written, List.prefix_rfl, .inl rfl, ?_⟩
  rw [if_pos rfl, List.append_nil, heq, hlen, Nat.add_sub_cancel_left, hwritten]

theorem intact_header_iff (h : kept = written ∨ Cut kept written) :
    Intact written (decode (boundedHeader kept)) ↔ kept = written ∨ SaysItself kept written := by
  rcases h with rfl | hcut
  · exact iff_of_true (intact_of_kept kept) (.inl rfl)
  · have hne : kept ≠ written := by
      rintro rfl
      exact absurd hcut.1 (Nat.lt_irrefl _)
    rw [or_iff_right hne]
    exact ⟨saysItself_of_intact hcut, intact_of_saysItself hcut⟩

/-! ### Runs -/

/-- The notes that are written in a run. -/
def writes (actions : List Action) : List Bytes :=
  actions.filterMap fun action =>
    match action with
    | .write bytes => some bytes
    | .begin _ => none
    | .finish _ => none

def Action.begins : Action → Bool
  | .begin _ => true
  | .write _ => false
  | .finish _ => false

/-- The notes a request takes over that begins after a run. -/
def startupWrites (keepingStartupNotes : Bool) (past : List Action) : List Bytes :=
  if keepingStartupNotes && !past.any Action.begins then writes past else []

variable {t : Tap} {r : Request} {id : ℕ} {actions : List Action}

theorem startup_run (t : Tap) (actions : List Action) :
    (run t actions).startup =
      if actions.any Action.begins then none
      else t.startup.map fun buffer => (writes actions).foldl extend buffer := by
  induction actions generalizing t with
  | nil => simp [run, writes]
  | cons action actions ih =>
      rw [run, List.foldl_cons, ← run, ih, List.any_cons]
      cases action with
      | write bytes =>
          have hwrites : writes (.write bytes :: actions) = bytes :: writes actions := rfl
          rw [hwrites]
          simp [step, Tap.record, Action.begins, Function.comp_def]
      | begin id => simp [step, Tap.begin, Action.begins]
      | finish id =>
          have hwrites : writes (.finish id :: actions) = writes actions := rfl
          rw [hwrites]
          simp [step, Tap.finish, Action.begins]

/-- A capture that is open records the notes until its request ends. -/
theorem find_run (ht : t.opened.find? (·.id = id) = some r) (hopen : .finish id ∉ actions) :
    (run t actions).opened.find? (·.id = id) =
      some { r with buffer := (writes actions).foldl extend r.buffer } := by
  induction actions generalizing t r with
  | nil => exact ht
  | cons action actions ih =>
      rw [List.mem_cons, not_or] at hopen
      rw [run, List.foldl_cons, ← run]
      cases action with
      | write bytes =>
          refine (ih (r := { r with buffer := extend r.buffer bytes }) ?_ hopen.2).trans rfl
          rw [step, Tap.record, List.find?_map]
          have hsame : ((fun r : Request => decide (r.id = id)) ∘ fun r : Request =>
              { r with buffer := extend r.buffer bytes }) = fun r => decide (r.id = id) := rfl
          rw [hsame, ht, Option.map_some]
      | begin other =>
          refine (ih ?_ hopen.2).trans rfl
          rw [step, Tap.begin, List.find?_append, ht, Option.some_or]
      | finish other =>
          refine (ih ?_ hopen.2).trans rfl
          have hother : other ≠ id := fun h => hopen.1 (by rw [h])
          rw [step, Tap.finish, List.find?_filter]
          have hsame : (fun r : Request => decide (decide (r.id ≠ other) = true ∧
              decide (r.id = id) = true)) = fun r => decide (r.id = id) := by
            funext r
            by_cases hr : r.id = id
            · simp [hr, Ne.symm hother]
            · simp [hr]
          rw [hsame, ht]

/-- A request that has not begun has no capture. -/
theorem find_run_eq_none (ht : t.opened.find? (·.id = id) = none)
    (hnew : .begin id ∉ actions) : (run t actions).opened.find? (·.id = id) = none := by
  induction actions generalizing t with
  | nil => exact ht
  | cons action actions ih =>
      rw [List.mem_cons, not_or] at hnew
      rw [run, List.foldl_cons, ← run]
      refine ih ?_ hnew.2
      rw [List.find?_eq_none] at ht ⊢
      intro r hr
      cases action with
      | write bytes =>
          obtain ⟨r, hmem, rfl⟩ := List.mem_map.1 hr
          exact ht r hmem
      | begin other =>
          rcases List.mem_append.1 hr with hmem | hmem
          · exact ht r hmem
          · rw [List.mem_singleton.1 hmem]
            have hother : other ≠ id := fun h => hnew.1 (by rw [h])
            simpa using hother
      | finish other => exact ht r (List.mem_of_mem_filter hr)

/-- **What a request is answered with.** -/
theorem answer_run (keepingStartupNotes : Bool) {past mid : List Action}
    (hnew : .begin id ∉ past) (hopen : .finish id ∉ mid) :
    received ((run (Tap.new keepingStartupNotes) (past ++ .begin id :: mid)).answer id) =
      decode (boundedHeader
        ((onTime 0 (startupWrites keepingStartupNotes past)).flatten ++
          (onTime 0 (writes mid)).flatten)) := by
  have hnone := find_run_eq_none (t := Tap.new keepingStartupNotes) rfl hnew
  have hstartup : (run (Tap.new keepingStartupNotes) past).startup.getD [] =
      (onTime 0 (startupWrites keepingStartupNotes past)).flatten := by
    rw [startup_run, startupWrites]
    cases keepingStartupNotes with
    | false => simp [Tap.new, onTime]
    | true =>
        cases past.any Action.begins with
        | true => simp [onTime]
        | false => simp [Tap.new, foldl_extend]
  have hfind : ((run (Tap.new keepingStartupNotes) past).begin id).opened.find? (·.id = id) =
      some ⟨id, (onTime 0 (startupWrites keepingStartupNotes past)).flatten, []⟩ := by
    rw [Tap.begin, List.find?_append, hnone, hstartup]
    simp
  have hrun : run (Tap.new keepingStartupNotes) (past ++ .begin id :: mid) =
      run ((run (Tap.new keepingStartupNotes) past).begin id) mid := by
    rw [run, List.foldl_append, List.foldl_cons]
    rfl
  rw [hrun, Tap.answer, find_run hfind hopen, Option.bind_some, Request.header, foldl_extend,
    List.nil_append, List.length_nil]
  dsimp only
  split
  · rename_i hnil
    rw [hnil]
    rfl
  · rfl

/-- **When the notes arrive intact.** -/
theorem intact_iff (keepingStartupNotes : Bool) (past mid : List Action) (id : ℕ)
    (hnew : .begin id ∉ past) (hopen : .finish id ∉ mid) :
    (∀ bytes, decode (encode bytes) = bytes) ∧
      let startup := startupWrites keepingStartupNotes past
      let during := writes mid
      let written := (startup ++ during).flatten
      let kept := (onTime 0 startup).flatten ++ (onTime 0 during).flatten
      let tap := run (Tap.new keepingStartupNotes) (past ++ .begin id :: mid)
      (Intact written (received (tap.answer id)) ↔ kept = written ∨ SaysItself kept written) := by
  refine ⟨decode_encode, ?_⟩
  intro startup during written kept tap
  have hreceived : received (tap.answer id) = decode (boundedHeader kept) :=
    answer_run keepingStartupNotes hnew hopen
  rw [hreceived]
  exact intact_header_iff (kept_or_cut startup during)

theorem intact_iff_small :
    Intact [0x78, newline] (received
      ((run (Tap.new true) ([.write [0x78]] ++ .begin 0 :: [.write [newline]])).answer 0)) :=
  (intact_iff true [.write [0x78]] [.write [newline]] 0 (by decide) (by decide)).2.2 (.inl rfl)

/-- A note behind 16 KiB of notes is neither taken nor counted. -/
theorem not_intact_of_full {note : Bytes} (hlen : note.length = maxNoteBytes)
    (hclosed : Lines.Closed newline note) :
    ¬ Intact (note ++ [0x78, newline]) (received
      ((run (Tap.new false) [.begin 0, .write note, .write [0x78, newline]]).answer 0)) := by
  have hlate : onTime 0 [note, [0x78, newline]] = [note] := by
    have hfirst : 0 < maxNoteBytes := by decide
    rw [onTime, if_pos hfirst, onTime, Nat.zero_add, hlen, if_neg (Nat.lt_irrefl _)]
  have hopen : Action.finish 0 ∉ [Action.write note, .write [0x78, newline]] := by simp
  have hanswer := answer_run false (List.not_mem_nil (a := Action.begin 0)) hopen
  have hwrites : writes [.write note, .write [0x78, newline]] = [note, [0x78, newline]] := rfl
  have hstartup : startupWrites false [] = [] := rfl
  have hkept : ([] : Bytes) ++ [note].flatten = note := by
    rw [List.nil_append, List.flatten_singleton]
  rw [hwrites, hlate, hstartup, onTime, List.flatten_nil, hkept, List.nil_append] at hanswer
  have hcut : Cut note (note ++ [0x78, newline]) := by
    refine ⟨?_, note, List.prefix_rfl, List.prefix_append _ _, Nat.le_of_eq hlen.symm⟩
    rw [List.length_append]
    exact Nat.lt_add_of_pos_right (by decide)
  rw [hanswer]
  intro hintact
  obtain ⟨p, n, hp, -, -, hlast⟩ := saysItself_of_intact hcut hintact
  have hnone : newline ∉ [(0x78 : UInt8)] := by decide
  have hlast' : note ++ ([0x78] ++ [newline]) = p ++ (Utf8.encode (omittedText n) ++ [newline]) :=
    hlast
  obtain ⟨-, htext⟩ := Lines.closed_append_line hclosed hp hnone (newline_notMem_omittedText n)
    hlast'
  have hhead : (Utf8.encode (omittedText n)).head? = some 0x5B := rfl
  rw [← htext] at hhead
  exact absurd hhead (by decide)

theorem later_note_lost :
    let note : Bytes := List.replicate 16383 0x78 ++ [newline]
    ¬ Intact (note ++ [0x78, newline]) (received
      ((run (Tap.new false) [.begin 0, .write note, .write [0x78, newline]]).answer 0)) := by
  intro note
  have hlen : note.length = maxNoteBytes := by
    rw [List.length_append, List.length_replicate]
    rfl
  exact not_intact_of_full hlen (.inr List.getLast?_concat)

end Notes

end Hekma
