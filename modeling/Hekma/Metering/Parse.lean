/-
**The usage of a response** (`metering/parse.rs`).

A provider reports the usage of a call in its response: in the body, or in a frame of a stream of
events.  A body may have the shape of either provider, a frame that of one.  The counts include the
cached tokens among the input tokens.  A stream is scanned line by line, and a frame that carries no
usable usage is passed over.

The reader of JSON texts is a parameter.

Main definitions:

* `Metering.parseOpenaiUsage`, `Metering.parseOpenaiSseUsage` — the usage of a body, of a stream;
* `Metering.dataPayloads` — the payloads of the frames of a stream;
* `Metering.Reports`, `Metering.Carries` — the usage an object reports, and a frame carries;
* `Metering.LastOf` — the usage of the last frame that carries one.

Main results:

* `Metering.readOpenaiShape_eq_some`, `Metering.readAnthropicShape_le` — what a usage object gives;
* `Metering.scan_eq` — **the scan keeps the last usable frame**;
* `Metering.usage_extracted` — the cached tokens are input tokens, and a stream has the usage of its
  last usable frame.
-/

import Hekma.Lib.Json

set_option relaxedAutoImplicit false
set_option autoImplicit false

namespace Hekma

namespace Metering

/-! ### Usage objects -/

/-- The counts of a response.  The cached tokens are some of the input tokens. -/
structure UsageCounts where
  input : Unsigned64
  output : Unsigned64
  cached : Unsigned64
  deriving DecidableEq, Repr

/-- A count that has to be there. -/
def usageField (usage : Json) (key : String) : Option Unsigned64 := do
  let field ← usage.get key
  field.asU64

/-- A count that may be missing.  It is zero then. -/
def optionalUsageField (usage : Json) (key : String) : Option Unsigned64 :=
  match usage.get key with
  | none => some ⟨0, by decide⟩
  | some field => field.asU64

/-- The cached tokens in the shape of OpenAI.  They may be missing. -/
def openaiCachedTokens (usage : Json) : Option Unsigned64 :=
  match usage.get "prompt_tokens_details" with
  | none => some ⟨0, by decide⟩
  | some details =>
      match details.get "cached_tokens" with
      | none => some ⟨0, by decide⟩
      | some value => value.asU64

/-- Read the shape of OpenAI.  More cached tokens than input tokens are refused. -/
def readOpenaiShape (usage : Json) : Option UsageCounts := do
  let input ← usageField usage "prompt_tokens"
  let output ← usageField usage "completion_tokens"
  let cached ← openaiCachedTokens usage
  if input.1 < cached.1 then none else some ⟨input, output, cached⟩

/-- Read the shape of Anthropic.  Its input tokens are without those of the cache, so they are
added. -/
def readAnthropicShape (usage : Json) : Option UsageCounts := do
  let base ← usageField usage "input_tokens"
  let output ← usageField usage "output_tokens"
  let creation ← optionalUsageField usage "cache_creation_input_tokens"
  let read ← optionalUsageField usage "cache_read_input_tokens"
  some ⟨(base.saturatingAdd creation).saturatingAdd read, output, read⟩

/-! ### Bodies and streams -/

/-- The bytes of a body. -/
abbrev Bytes : Type := List UInt8

/-- Drop a carriage return at the end of a line. -/
def stripCr (line : Bytes) : Bytes := if line.getLast? = some 0x0D then line.dropLast else line

/-- What the line of a frame begins with: `data:`. -/
def dataPrefix : Bytes := [0x64, 0x61, 0x74, 0x61, 0x3A]

section Reader

variable (fromSlice : Bytes → Option Json)

/-- The usage of a body.  The shape of OpenAI goes first. -/
def parseOpenaiUsage (body : Bytes) : Option UsageCounts := do
  let value ← fromSlice body
  let usage ← value.get "usage"
  if (usage.get "prompt_tokens").isSome then readOpenaiShape usage else readAnthropicShape usage

/-- Take in the payload of a frame, behind the usage of an earlier one. -/
def ingestDataPayload (payload : Bytes) (last : Option UsageCounts) : Option UsageCounts :=
  match fromSlice payload with
  | none => last
  | some value =>
      match value.get "usage" with
      | none => last
      | some usage =>
          match readOpenaiShape usage with
          | none => last
          | some counts => some counts

/-- Take in a line of a stream. -/
def scanLine (last : Option UsageCounts) (rawLine : Bytes) : Option UsageCounts :=
  match dataPrefix.isPrefixOf? (stripCr rawLine) with
  | none => last
  | some rest => ingestDataPayload fromSlice (([0x20].isPrefixOf? rest).getD rest) last

/-- The usage of a stream of events. -/
def parseOpenaiSseUsage (body : Bytes) : Option UsageCounts :=
  (body.splitOn 0x0A).foldl (scanLine fromSlice) none

/-! ### What a stream carries -/

/-- The payload of a line, if it is the line of a frame: what stands behind the prefix and a
space. -/
def dataPayload (rawLine : Bytes) : Option Bytes :=
  (dataPrefix.isPrefixOf? (stripCr rawLine)).map fun rest => ([0x20].isPrefixOf? rest).getD rest

/-- The payloads of the frames of a stream, in their order. -/
def dataPayloads (body : Bytes) : List Bytes := (body.splitOn 0x0A).filterMap dataPayload

/-- The cached tokens a usage object reports: those of its details, or none. -/
def ReportsCached (usage : Json) (cached : Unsigned64) : Prop :=
  match (usage.get "prompt_tokens_details").bind fun details => details.get "cached_tokens" with
  | none => cached.1 = 0
  | some value => value = .number (.ofU64 cached)

/-- **The usage an object reports**: whole numbers, and no more cached tokens than input tokens. -/
structure Reports (usage : Json) (counts : UsageCounts) : Prop where
  input : usage.get "prompt_tokens" = some (.number (.ofU64 counts.input))
  output : usage.get "completion_tokens" = some (.number (.ofU64 counts.output))
  cached : ReportsCached usage counts.cached
  cached_le : counts.cached.1 ≤ counts.input.1

/-- The usage a frame carries: its payload is JSON, and has a usage object that reports it. -/
def Carries (payload : Bytes) (counts : UsageCounts) : Prop :=
  ∃ value usage, fromSlice payload = some value ∧ value.get "usage" = some usage ∧
    Reports usage counts

/-- The usage of the last of some frames that carries one. -/
def LastOf (payloads : List Bytes) (counts : UsageCounts) : Prop :=
  ∃ before payload after, payloads = before ++ payload :: after ∧
    Carries fromSlice payload counts ∧ ∀ later ∈ after, ∀ other, ¬ Carries fromSlice later other

/-! ### Reading a usage object -/

variable {fromSlice} {usage : Json} {key : String} {counts : UsageCounts} {n : Unsigned64}

theorem usageField_eq_some :
    usageField usage key = some n ↔ usage.get key = some (.number (.ofU64 n)) := by
  unfold usageField
  cases usage.get key with
  | none => simp
  | some field =>
      rw [Option.bind_eq_bind, Option.bind_some, Json.asU64_eq_some, Option.some.injEq]

theorem openaiCachedTokens_eq_some : openaiCachedTokens usage = some n ↔ ReportsCached usage n := by
  have hzero : some (⟨0, by decide⟩ : Unsigned64) = some n ↔ n.1 = 0 := by
    rw [Option.some.injEq, eq_comm, Subtype.ext_iff]
  unfold openaiCachedTokens ReportsCached
  cases usage.get "prompt_tokens_details" with
  | none => exact hzero
  | some details =>
      dsimp only [Option.bind_some]
      cases details.get "cached_tokens" with
      | none => exact hzero
      | some value => exact Json.asU64_eq_some

/-- Reading the shape of OpenAI gives what the object reports. -/
theorem readOpenaiShape_eq_some : readOpenaiShape usage = some counts ↔ Reports usage counts := by
  simp only [readOpenaiShape, Option.bind_eq_bind, Option.bind_eq_some_iff, usageField_eq_some,
    openaiCachedTokens_eq_some]
  constructor
  · rintro ⟨input, hinput, output, houtput, cached, hcached, h⟩
    split at h
    · exact absurd h (by simp)
    · rename_i hle
      obtain rfl := Option.some.inj h
      exact ⟨hinput, houtput, hcached, Nat.le_of_not_lt hle⟩
  · intro h
    refine ⟨_, h.input, _, h.output, _, h.cached, ?_⟩
    rw [if_neg (Nat.not_lt.2 h.cached_le)]

/-- The cached tokens are added to the input tokens, and the sum does not go below them. -/
theorem readAnthropicShape_le (h : readAnthropicShape usage = some counts) :
    counts.cached.1 ≤ counts.input.1 := by
  simp only [readAnthropicShape, Option.bind_eq_bind, Option.bind_eq_some_iff] at h
  obtain ⟨base, -, output, -, creation, -, read, -, h⟩ := h
  obtain rfl := Option.some.inj h
  have hread := read.2
  simp only [Unsigned64.saturatingAdd_val]
  omega

theorem parseOpenaiUsage_le {body : Bytes} (h : parseOpenaiUsage fromSlice body = some counts) :
    counts.cached.1 ≤ counts.input.1 := by
  simp only [parseOpenaiUsage, Option.bind_eq_bind, Option.bind_eq_some_iff] at h
  obtain ⟨value, -, usage, -, h⟩ := h
  split at h
  · exact (readOpenaiShape_eq_some.1 h).cached_le
  · exact readAnthropicShape_le h

/-! ### Scanning a stream -/

variable {payload : Bytes} {payloads after : List Bytes} {last : Option UsageCounts}

/-- A frame that carries a usage supersedes what was there. -/
theorem ingestDataPayload_of_carries (h : Carries fromSlice payload counts) :
    ingestDataPayload fromSlice payload last = some counts := by
  obtain ⟨value, usage, hvalue, husage, hreports⟩ := h
  simp only [ingestDataPayload, hvalue, husage, readOpenaiShape_eq_some.2 hreports]

/-- A frame that carries none changes nothing. -/
theorem ingestDataPayload_of_not_carries (h : ∀ counts, ¬ Carries fromSlice payload counts) :
    ingestDataPayload fromSlice payload last = last := by
  unfold ingestDataPayload
  cases hvalue : fromSlice payload with
  | none => rfl
  | some value =>
      dsimp only
      cases husage : value.get "usage" with
      | none => rfl
      | some usage =>
          dsimp only
          cases hread : readOpenaiShape usage with
          | none => rfl
          | some counts =>
              exact absurd ⟨value, usage, hvalue, husage, readOpenaiShape_eq_some.1 hread⟩
                (h counts)

/-- Take in the payloads of some frames. -/
def ingestAll (fromSlice : Bytes → Option Json) (payloads : List Bytes)
    (last : Option UsageCounts) : Option UsageCounts :=
  payloads.foldl (fun last payload => ingestDataPayload fromSlice payload last) last

/-- The lines that are no frames are passed over. -/
theorem parseOpenaiSseUsage_eq (body : Bytes) :
    parseOpenaiSseUsage fromSlice body = ingestAll fromSlice (dataPayloads body) none := by
  rw [parseOpenaiSseUsage, ingestAll, dataPayloads, List.foldl_filterMap]
  congr 1
  funext last rawLine
  rw [scanLine, dataPayload]
  cases dataPrefix.isPrefixOf? (stripCr rawLine) with
  | none => rfl
  | some rest => rfl

/-- Frames that carry nothing change nothing. -/
theorem ingestAll_of_not_carries (h : ∀ later ∈ after, ∀ other, ¬ Carries fromSlice later other) :
    ingestAll fromSlice after last = last := by
  induction after generalizing last with
  | nil => rfl
  | cons later after ih =>
      rw [ingestAll, List.foldl_cons,
        ingestDataPayload_of_not_carries (h later List.mem_cons_self)]
      exact ih fun q hq => h q (List.mem_cons_of_mem later hq)

theorem ingestAll_append (payloads after : List Bytes) (last : Option UsageCounts) :
    ingestAll fromSlice (payloads ++ after) last
      = ingestAll fromSlice after (ingestAll fromSlice payloads last) :=
  List.foldl_append

variable (fromSlice) in
/-- Some frame carries a usage, and then one of them is the last, or none does. -/
theorem lastOf_or (payloads : List Bytes) :
    (∃ counts, LastOf fromSlice payloads counts) ∨
      ∀ payload ∈ payloads, ∀ counts, ¬ Carries fromSlice payload counts := by
  induction payloads with
  | nil => exact .inr fun payload h => absurd h List.not_mem_nil
  | cons payload payloads ih =>
      rcases ih with ⟨counts, before, last, after, rfl, hlast, hafter⟩ | hnone
      · exact .inl ⟨counts, payload :: before, last, after, rfl, hlast, hafter⟩
      · by_cases h : ∃ counts, Carries fromSlice payload counts
        · obtain ⟨counts, h⟩ := h
          exact .inl ⟨counts, [], payload, payloads, rfl, h, hnone⟩
        · refine .inr fun q hq => ?_
          rcases List.mem_cons.1 hq with rfl | hq
          · exact not_exists.1 h
          · exact hnone q hq

theorem ingestAll_of_lastOf (h : LastOf fromSlice payloads counts) :
    ingestAll fromSlice payloads last = some counts := by
  obtain ⟨before, payload, after, rfl, hcarries, hafter⟩ := h
  rw [ingestAll_append, ingestAll, List.foldl_cons, ingestDataPayload_of_carries hcarries]
  exact ingestAll_of_not_carries hafter

/-- **The scan keeps the last usable frame.** -/
theorem scan_eq (body : Bytes) :
    parseOpenaiSseUsage fromSlice body = some counts ↔
      LastOf fromSlice (dataPayloads body) counts := by
  rw [parseOpenaiSseUsage_eq]
  refine ⟨fun h => ?_, ingestAll_of_lastOf⟩
  rcases lastOf_or fromSlice (dataPayloads body) with ⟨other, hlast⟩ | hnone
  · rw [ingestAll_of_lastOf hlast] at h
    exact Option.some.inj h ▸ hlast
  · rw [ingestAll_of_not_carries hnone] at h
    exact absurd h (by simp)

theorem LastOf.le (h : LastOf fromSlice payloads counts) : counts.cached.1 ≤ counts.input.1 := by
  obtain ⟨-, -, -, -, ⟨_, _, -, -, hreports⟩, -⟩ := h
  exact hreports.cached_le

/-- The frames of a stream that goes on are those of its parts. -/
theorem dataPayloads_append (body tail : Bytes) :
    dataPayloads (body ++ 0x0A :: tail) = dataPayloads body ++ dataPayloads tail := by
  rw [dataPayloads, List.splitOn_append_cons_self, List.filterMap_append, dataPayloads,
    dataPayloads]

/-- Frames without a usable usage do not change the usage of the stream before them. -/
theorem parseOpenaiSseUsage_append {body tail : Bytes}
    (h : ∀ payload ∈ dataPayloads tail, ∀ counts, ¬ Carries fromSlice payload counts) :
    parseOpenaiSseUsage fromSlice (body ++ 0x0A :: tail) = parseOpenaiSseUsage fromSlice body := by
  rw [parseOpenaiSseUsage_eq, parseOpenaiSseUsage_eq, dataPayloads_append, ingestAll_append,
    ingestAll_of_not_carries h]

/-! ### The usage that is extracted -/

variable (fromSlice)

/-- **The usage of a response.**  The cached tokens of a body or a stream are some of its input
tokens; a stream has the usage of its last frame that carries one, and a frame behind it that
carries none changes nothing. -/
theorem usage_extracted :
    (∀ body counts, parseOpenaiUsage fromSlice body = some counts →
      counts.cached.1 ≤ counts.input.1) ∧
    (∀ body counts, parseOpenaiSseUsage fromSlice body = some counts →
      counts.cached.1 ≤ counts.input.1 ∧ LastOf fromSlice (dataPayloads body) counts) ∧
    (∀ body, parseOpenaiSseUsage fromSlice body = none ↔
      ∀ payload ∈ dataPayloads body, ∀ counts, ¬ Carries fromSlice payload counts) ∧
    ∀ body tail, (∀ payload ∈ dataPayloads tail, ∀ counts, ¬ Carries fromSlice payload counts) →
      parseOpenaiSseUsage fromSlice (body ++ 0x0A :: tail)
        = parseOpenaiSseUsage fromSlice body := by
  refine ⟨fun body counts h => parseOpenaiUsage_le h, fun body counts h => ?_, fun body => ?_,
    fun body tail h => parseOpenaiSseUsage_append h⟩
  · have hlast := scan_eq body |>.1 h
    exact ⟨hlast.le, hlast⟩
  · constructor
    · intro h payload hpayload counts hcarries
      rcases lastOf_or fromSlice (dataPayloads body) with ⟨other, hlast⟩ | hnone
      · rw [(scan_eq body).2 hlast] at h
        exact absurd h (by simp)
      · exact hnone payload hpayload counts hcarries
    · intro h
      rw [parseOpenaiSseUsage_eq, ingestAll_of_not_carries h]

-- two frames with usage, one with none, one that is no JSON; the second usage stays
example :
    let frame (prompt : ℕ) (h : prompt < 2 ^ 64) : Json := .object [("usage", .object
      [("prompt_tokens", .number (.ofU64 ⟨prompt, h⟩)),
        ("completion_tokens", .number (.ofU64 ⟨1, by decide⟩))])]
    let read (payload : Bytes) : Option Json :=
      if payload = [0x31] then some (frame 5 (by decide))
      else if payload = [0x32] then some (frame 7 (by decide))
      else if payload = [0x33] then some (.object [("usage", .null)])
      else none
    parseOpenaiSseUsage read
        (dataPrefix ++ [0x31, 0x0A] ++ dataPrefix ++ [0x20, 0x32, 0x0D, 0x0A] ++
          dataPrefix ++ [0x33, 0x0A] ++ dataPrefix ++ [0x5B])
      = some ⟨⟨7, by decide⟩, ⟨1, by decide⟩, ⟨0, by decide⟩⟩ := by
  decide

end Reader

end Metering

end Hekma
