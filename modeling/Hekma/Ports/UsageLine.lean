/-
**The usage line** (`ports/usage_source.rs`).

An agent reports its usage in lines of its output: a prefix and a JSON object with the sequence, the
input and the output tokens, and the cached tokens unless there are none.  The parser takes the
fields in any order, takes them as an array too, and refuses a field it does not know, a field that
stands twice, and more cached tokens than input tokens.

The reader of JSON texts is a parameter.  All the parser needs of it is that it reads the compact
text of a flat object of numbers.

Main definitions:

* `UsageLine.deserialize` — what a JSON value has to look like;
* `parseUsageLine`, `parseUsageBlock` — the report of a line, and the reports of a text;
* `formatUsageLine` — the line of a report;
* `ParsedUsage.Valid` — the reports there can be.

Main results:

* `formatUsageLine_eq` — the line is the prefix and the compact text of its fields;
* `parseUsageLine_valid` — a line that is accepted carries a valid report;
* `usageLine_roundTrip` — parsing undoes formatting, whatever stands around the line.
-/

import Hekma.Lib.JsonText
import Hekma.Lib.Text
import Hekma.Supervisor.State

set_option relaxedAutoImplicit false
set_option autoImplicit false

namespace Hekma

/-! ### The shape of a report -/

/-- What the JSON value of a line holds. -/
structure UsageLine where
  sequence : Unsigned64
  inputTokens : Unsigned64
  outputTokens : Unsigned64
  cachedTokens : Option Unsigned64
  deriving DecidableEq

namespace UsageLine

/-- The fields that have been visited. -/
structure Visited where
  sequence : Option Unsigned64 := none
  inputTokens : Option Unsigned64 := none
  outputTokens : Option Unsigned64 := none
  cachedTokens : Option (Option Unsigned64) := none
  deriving DecidableEq

/-- An optional number.  `null` is no number. -/
def optionU64 : Json → Option (Option Unsigned64)
  | .null => some none
  | v => v.asU64.map some

/-- Take in a field.  One that is unknown or stands twice is refused. -/
def visitField (seen : Visited) (field : String × Json) : Option Visited :=
  if field.1 = "sequence" then
    if seen.sequence.isSome then none
    else field.2.asU64.map fun n => { seen with sequence := some n }
  else if field.1 = "input_tokens" then
    if seen.inputTokens.isSome then none
    else field.2.asU64.map fun n => { seen with inputTokens := some n }
  else if field.1 = "output_tokens" then
    if seen.outputTokens.isSome then none
    else field.2.asU64.map fun n => { seen with outputTokens := some n }
  else if field.1 = "cached_tokens" then
    if seen.cachedTokens.isSome then none
    else (optionU64 field.2).map fun n => { seen with cachedTokens := some n }
  else none

/-- Read an object.  Only the cached tokens may be missing. -/
def visitMap (fields : Json.Fields) : Option UsageLine := do
  let seen ← fields.foldlM visitField {}
  let sequence ← seen.sequence
  let inputTokens ← seen.inputTokens
  let outputTokens ← seen.outputTokens
  return ⟨sequence, inputTokens, outputTokens, seen.cachedTokens.getD none⟩

/-- Read an array: the fields in the order of their declaration, none missing. -/
def visitSeq : List Json → Option UsageLine
  | [sequence, inputTokens, outputTokens, cachedTokens] => do
      let sequence ← sequence.asU64
      let inputTokens ← inputTokens.asU64
      let outputTokens ← outputTokens.asU64
      let cachedTokens ← optionU64 cachedTokens
      return ⟨sequence, inputTokens, outputTokens, cachedTokens⟩
  | _ => none

/-- Read the value of a line. -/
def deserialize : Json → Option UsageLine
  | .object fields => visitMap fields
  | .array items => visitSeq items
  | _ => none

end UsageLine

/-! ### Lines -/

/-- What a usage line begins with. -/
def usageSentinelPrefix : List Char := "KTESIO_USAGE ".toList

section Parser

variable (fromStr : List Char → Option Json)

/-- The report of a line, if it is a usage line and well formed. -/
def parseUsageLine (line : List Char) : Option ParsedUsage := do
  let body ← Text.stripPrefix usageSentinelPrefix (Text.trim line)
  let value ← fromStr (Text.trim body)
  let parsed ← UsageLine.deserialize value
  let cachedTokens := (parsed.cachedTokens.map Subtype.val).getD 0
  if parsed.inputTokens.1 < cachedTokens then none
  else
    return {
      inputTokens := parsed.inputTokens.1
      outputTokens := parsed.outputTokens.1
      cachedTokens
      sequence := parsed.sequence.1 }

/-- The reports of a text, in their order. -/
def parseUsageBlock (block : List Char) : List ParsedUsage :=
  (Text.lines block).filterMap (parseUsageLine fromStr)

end Parser

/-- The line of a report. -/
def formatUsageLine (usage : ParsedUsage) : List Char :=
  if 0 < usage.cachedTokens then
    usageSentinelPrefix ++ "\x7b\x22sequence\x22:".toList ++ Nat.toDigits 10 usage.sequence ++
      ",\x22input_tokens\x22:".toList ++ Nat.toDigits 10 usage.inputTokens ++
      ",\x22output_tokens\x22:".toList ++ Nat.toDigits 10 usage.outputTokens ++
      ",\x22cached_tokens\x22:".toList ++ Nat.toDigits 10 usage.cachedTokens ++ "\x7d".toList
  else
    usageSentinelPrefix ++ "\x7b\x22sequence\x22:".toList ++ Nat.toDigits 10 usage.sequence ++
      ",\x22input_tokens\x22:".toList ++ Nat.toDigits 10 usage.inputTokens ++
      ",\x22output_tokens\x22:".toList ++ Nat.toDigits 10 usage.outputTokens ++ "\x7d".toList

/-- The counts are machine integers, and the cached tokens are some of the input tokens. -/
structure ParsedUsage.Valid (usage : ParsedUsage) : Prop where
  sequence : usage.sequence < 2 ^ 64
  inputTokens : usage.inputTokens < 2 ^ 64
  outputTokens : usage.outputTokens < 2 ^ 64
  cachedTokens : usage.cachedTokens ≤ usage.inputTokens

/-! ### The line of a report -/

namespace ParsedUsage

/-- The fields of the line of a report. -/
def fields (usage : ParsedUsage) (h : usage.Valid) : Json.Flat :=
  [("sequence", ⟨usage.sequence, h.sequence⟩), ("input_tokens", ⟨usage.inputTokens, h.inputTokens⟩),
    ("output_tokens", ⟨usage.outputTokens, h.outputTokens⟩)] ++
  if 0 < usage.cachedTokens then
    [("cached_tokens", ⟨usage.cachedTokens, h.cachedTokens.trans_lt h.inputTokens⟩)]
  else []

variable {usage : ParsedUsage}

theorem plainKey_fields (h : usage.Valid) : ∀ p ∈ usage.fields h, Json.PlainKey p.1 := by
  intro p hp
  have hkey : p.1 ∈ ["sequence", "input_tokens", "output_tokens", "cached_tokens"] := by
    unfold fields at hp
    split at hp
    · simp only [List.cons_append, List.nil_append, List.mem_cons, List.not_mem_nil,
        or_false] at hp
      rcases hp with rfl | rfl | rfl | rfl <;> simp
    · simp only [List.append_nil, List.mem_cons, List.not_mem_nil, or_false] at hp
      rcases hp with rfl | rfl | rfl <;> simp
  revert hkey
  generalize p.1 = key
  revert key
  simp [Json.PlainKey]

/-- **The line of a report** is the prefix and the compact text of its fields. -/
theorem formatUsageLine_eq (h : usage.Valid) :
    formatUsageLine usage = usageSentinelPrefix ++ Json.compact (usage.fields h) := by
  unfold formatUsageLine fields
  split <;> simp [Json.compact, Json.compactFields, Json.compactField]

/-- The line of a report is one line. -/
theorem newline_not_mem_formatUsageLine (h : usage.Valid) : '\n' ∉ formatUsageLine usage := by
  rw [formatUsageLine_eq h, List.mem_append, not_or]
  exact ⟨by decide, Json.newline_not_mem_compact (plainKey_fields h)⟩

/-- What the fields of a report are read as. -/
theorem deserialize_fields (h : usage.Valid) :
    UsageLine.deserialize (usage.fields h).value = some
      { sequence := ⟨usage.sequence, h.sequence⟩
        inputTokens := ⟨usage.inputTokens, h.inputTokens⟩
        outputTokens := ⟨usage.outputTokens, h.outputTokens⟩
        cachedTokens :=
          if 0 < usage.cachedTokens then
            some ⟨usage.cachedTokens, h.cachedTokens.trans_lt h.inputTokens⟩
          else none } := by
  have hnumber : ∀ n : Unsigned64, (Json.number (.ofU64 n)).asU64 = some n := fun n =>
    Json.asU64_eq_some.2 rfl
  by_cases hcached : 0 < usage.cachedTokens
  · simp [fields, hcached, Json.Flat.value, UsageLine.deserialize, UsageLine.visitMap,
      UsageLine.visitField, UsageLine.optionU64, hnumber]
  · simp [fields, hcached, Json.Flat.value, UsageLine.deserialize, UsageLine.visitMap,
      UsageLine.visitField, hnumber]

end ParsedUsage

/-! ### Parsing -/

section

variable {fromStr : List Char → Option Json} {usage : ParsedUsage} {line : List Char}

theorem parseUsageLine_nil : parseUsageLine fromStr [] = none := rfl

/-- A carriage return behind a line is no part of it. -/
theorem parseUsageLine_carriageReturn (line : List Char) :
    parseUsageLine fromStr (line ++ ['\r']) = parseUsageLine fromStr line := by
  rw [parseUsageLine, Text.trim_append_of_isWhitespace (by decide), parseUsageLine]

/-- **A line that is accepted** carries a valid report. -/
theorem parseUsageLine_valid (h : parseUsageLine fromStr line = some usage) : usage.Valid := by
  unfold parseUsageLine at h
  simp only [Option.bind_eq_bind, Option.bind_eq_some_iff] at h
  obtain ⟨body, -, value, -, parsed, -, h⟩ := h
  split at h
  · exact absurd h (by simp)
  · rename_i hle
    obtain rfl := Option.some.inj h
    exact ⟨parsed.sequence.2, parsed.inputTokens.2, parsed.outputTokens.2, not_lt.1 hle⟩

theorem trim_compact (fields : Json.Flat) :
    Text.trim (Json.compact fields) = Json.compact fields := by
  refine Text.trim_eq_self (fun c hc => ?_) fun c hc => ?_
  · obtain rfl : c = '\x7b' := by simpa [Json.compact] using hc.symm
    decide
  · rw [Json.compact, List.getLast?_concat, Option.mem_some_iff] at hc
    subst hc
    decide

theorem head?_usageSentinelPrefix (s : List Char) :
    (usageSentinelPrefix ++ s).head? = some 'K' := rfl

theorem trim_formatUsageLine (h : usage.Valid) :
    Text.trim (formatUsageLine usage) = formatUsageLine usage := by
  rw [ParsedUsage.formatUsageLine_eq h]
  refine Text.trim_eq_self (fun c hc => ?_) fun c hc => ?_
  · rw [head?_usageSentinelPrefix, Option.mem_some_iff] at hc
    subst hc
    decide
  · rw [Json.compact, ← List.append_assoc, List.getLast?_concat, Option.mem_some_iff] at hc
    subst hc
    decide

/-- The report of its line. -/
theorem parseUsageLine_formatUsageLine (hread : Json.ReadsCompact fromStr) (h : usage.Valid) :
    parseUsageLine fromStr (formatUsageLine usage) = some usage := by
  have hfields := hread (usage.fields h) (ParsedUsage.plainKey_fields h)
  have hcached : ((if 0 < usage.cachedTokens then
        some (⟨usage.cachedTokens, h.cachedTokens.trans_lt h.inputTokens⟩ : Unsigned64)
      else none).map Subtype.val).getD 0 = usage.cachedTokens := by
    split
    · rfl
    · rename_i hzero
      exact (Nat.eq_zero_of_not_pos hzero).symm
  rw [parseUsageLine, trim_formatUsageLine h, ParsedUsage.formatUsageLine_eq h,
    Text.stripPrefix_append, Option.bind_eq_bind, Option.bind_some, trim_compact, hfields,
    Option.bind_eq_bind, Option.bind_some, ParsedUsage.deserialize_fields h,
    Option.bind_eq_bind, Option.bind_some]
  dsimp only
  rw [hcached, if_neg (not_lt.2 h.cachedTokens)]
  rfl

/-! ### Lines in a text -/

theorem parseUsageBlock_append {before : List Char} (h : Text.EndsLine before) (s : List Char) :
    parseUsageBlock fromStr (before ++ s)
      = parseUsageBlock fromStr before ++ parseUsageBlock fromStr s := by
  rw [parseUsageBlock, Text.lines_append h, List.filterMap_append, parseUsageBlock,
    parseUsageBlock]

theorem parseUsageBlock_between (s t : List Char) :
    parseUsageBlock fromStr (s ++ '\n' :: t)
      = parseUsageBlock fromStr s ++ parseUsageBlock fromStr t :=
  Text.filterMap_lines_between parseUsageLine_nil parseUsageLine_carriageReturn s t

/-- A text without a newline is read as a line. -/
theorem parseUsageBlock_line (h : '\n' ∉ line) :
    parseUsageBlock fromStr line = (parseUsageLine fromStr line).toList := by
  by_cases hne : line = []
  · subst hne
    rfl
  · rw [parseUsageBlock, Text.lines_line h hne]
    cases hparse : parseUsageLine fromStr line <;> simp [hparse]

/-- A line that something follows on the next line. -/
theorem parseUsageBlock_line_append (hline : '\n' ∉ line) {after : List Char}
    (h : Text.BeginsLine after) :
    parseUsageBlock fromStr (line ++ after)
      = (parseUsageLine fromStr line).toList ++ parseUsageBlock fromStr after := by
  rcases h with rfl | ⟨t, rfl⟩ | ⟨t, rfl⟩
  · rw [List.append_nil, parseUsageBlock_line hline]
    exact (List.append_nil _).symm
  · have hempty : parseUsageBlock fromStr (['\n'] ++ t) = parseUsageBlock fromStr t :=
      parseUsageBlock_between [] t
    rw [hempty, List.singleton_append, parseUsageBlock_between, parseUsageBlock_line hline]
  · -- the carriage return is read with the line, and by itself it is an empty line
    have hcr : '\n' ∉ line ++ ['\r'] := by simpa using hline
    have htext : line ++ (['\r', '\n'] ++ t) = (line ++ ['\r']) ++ '\n' :: t := by simp
    have hempty : parseUsageBlock fromStr (['\r', '\n'] ++ t) = parseUsageBlock fromStr t :=
      parseUsageBlock_between ['\r'] t
    rw [hempty, htext, parseUsageBlock_between, parseUsageBlock_line hcr,
      parseUsageLine_carriageReturn]

end

/-- **Parsing undoes formatting**, whatever stands around the line, and what a line is accepted for
can be written again. -/
theorem usageLine_roundTrip (fromStr : List Char → Option Json)
    (hread : Json.ReadsCompact fromStr) :
    (∀ usage : ParsedUsage, usage.Valid →
      parseUsageLine fromStr (formatUsageLine usage) = some usage ∧
      ∀ before after : List Char, Text.EndsLine before → Text.BeginsLine after →
        parseUsageBlock fromStr (before ++ formatUsageLine usage ++ after)
          = parseUsageBlock fromStr before ++ usage :: parseUsageBlock fromStr after) ∧
    ∀ (line : List Char) (usage : ParsedUsage), parseUsageLine fromStr line = some usage →
      usage.Valid ∧ parseUsageLine fromStr (formatUsageLine usage) = some usage := by
  refine ⟨fun usage h => ?_, fun line usage hline => ?_⟩
  · have hparse := parseUsageLine_formatUsageLine hread h
    refine ⟨hparse, fun before after hbefore hafter => ?_⟩
    have hone := ParsedUsage.newline_not_mem_formatUsageLine h
    rw [List.append_assoc, parseUsageBlock_append hbefore, parseUsageBlock_line_append hone hafter,
      hparse]
    rfl
  · have h := parseUsageLine_valid hline
    exact ⟨h, parseUsageLine_formatUsageLine hread h⟩

/-- Two reports among other output, one of them without cached tokens. -/
theorem usageLine_roundTrip_read :
    Json.ReadsCompact Json.readCompact ∧
      parseUsageBlock Json.readCompact
          ("ready\n".toList ++ formatUsageLine ⟨1200, 340, 800, 7⟩ ++ "\r\nbye".toList)
        = [⟨1200, 340, 800, 7⟩] ∧
      parseUsageLine Json.readCompact (formatUsageLine ⟨0, 2 ^ 64 - 1, 0, 2 ^ 64 - 1⟩)
        = some ⟨0, 2 ^ 64 - 1, 0, 2 ^ 64 - 1⟩ := by
  have hround := usageLine_roundTrip Json.readCompact Json.readsCompact_readCompact
  have hsome : ParsedUsage.Valid ⟨1200, 340, 800, 7⟩ := ⟨by decide, by decide, by decide, by decide⟩
  have hnone : ParsedUsage.Valid ⟨0, 2 ^ 64 - 1, 0, 2 ^ 64 - 1⟩ :=
    ⟨by decide, by decide, by decide, by decide⟩
  refine ⟨Json.readsCompact_readCompact, ?_, (hround.1 _ hnone).1⟩
  exact (hround.1 _ hsome).2 _ _ (.inr (by decide)) (.inr (.inr ⟨_, rfl⟩))

end Hekma
