/-
**The metering channels of one launch** (`ports/usage_source.rs`, `domain/supervisor/usage.rs`,
`store/run_store_sqlite.rs`).

An observed instance has up to three channels: the exchanges its listener has seen, which the
engine numbers 0, 1, 2, …, and the usage lines of its captured logs, whose numbers the agent
writes.  All of them are committed under one launch, and so share one index.

The store answers here; what a refused commit does is the subject of the drain.

Main definitions:

* `LaunchStore` — the ledger before a launch, whose rows stand under earlier generations;
* `Metering`, `Step`, `Metering.run` — the channels of a launch and what happens to them;
* `Unshadowed` — every exchange is committed once, and no channel shadows another;
* `Apart` — the numbers of different channels are different.

Main results:

* `Metering.commit_insertUsage` — the index is the one the ledger deduplicates by;
* `Tracked.step` — the events in the ledger are those the drains have taken;
* `usageChannels_unshadowed_iff` — no channel shadows another just when their numbers are apart.
-/

import Hekma.Lib.Dedup
import Hekma.Supervisor.UsageDrain

set_option relaxedAutoImplicit false
set_option autoImplicit false

namespace Hekma

namespace UsageChannels

open UsageDrain (Identity Metered identitiesOf)

/-! ### Channels -/

/-- Where an event comes from. -/
inductive Source where
  | log (channel : UsageChannel)
  | observed
  deriving DecidableEq, Repr

/-- The `index`-th event of a source. -/
structure Event where
  source : Source
  index : ℕ
  parsed : ParsedUsage
  deriving DecidableEq, Repr

/-- The first number that does not fit the counter of the observed source. -/
def sequenceEnd : ℕ := 2 ^ 64

/-- Mint the reports of exchanges, numbered from a count on.  The counter wraps. -/
def mintAll : ℕ → List (ℕ × ℕ × ℕ) → List ParsedUsage
  | _, [] => []
  | n, (input, output, cached) :: rest =>
      ⟨input, output, cached, n % sequenceEnd⟩ :: mintAll (n + 1) rest

/-- The reports of a source as its events, from the `i`-th on. -/
def number (source : Source) : ℕ → List ParsedUsage → List Event
  | _, [] => []
  | i, parsed :: rest => ⟨source, i, parsed⟩ :: number source (i + 1) rest

/-- The logs that are drained: the second one only of an ACP agent. -/
def drainsLog (isAcp : Bool) : UsageChannel → Bool
  | .stdout => true
  | .stderr => isAcp

/-- The ledger and the launch generation of an instance, before a launch. -/
structure LaunchStore where
  name : InstanceName
  rows : List Identity
  generation : ℕ
  bounded : ∀ i ∈ rows, i.instanceName = name → i.launchGeneration ≤ generation
  fits : (generation : ℤ) < i64Max

/-- The channels of a launch: the usage lines written and drained, the exchanges that wait and the
number of those taken, and the ledger. -/
structure Metering where
  metered : Metered
  isAcp : Bool
  written : UsageChannel → List ParsedUsage
  cursor : UsageChannel → ℕ
  queue : List (ℕ × ℕ × ℕ)
  minted : ℕ
  ledger : Dedup.Log Event Identity

namespace Metering

/-- The key of an event. -/
def key (m : Metered) (e : Event) : Identity := m.identity e.parsed

/-- A launch bumps the generation, and its source counts from zero. -/
def launch (store : LaunchStore) (runId : RunId) (isAcp : Bool) : Metering where
  metered := ⟨store.name, runId, store.generation + 1⟩
  isAcp := isAcp
  written := fun _ => []
  cursor := fun _ => 0
  queue := []
  minted := 0
  ledger := .ofRows store.rows

/-- Commit the events of a drain. -/
def ingest (s : Metering) (events : List Event) : Metering :=
  { s with ledger := s.ledger.commitAll (key s.metered) events }

/-- Whether the lines of a log are drained. -/
def drains (s : Metering) : UsageChannel → Bool := drainsLog s.isAcp

/-- Drain the lines of a log. -/
def drainLog (s : Metering) (channel : UsageChannel) : Metering :=
  if s.drains channel then
    { s.ingest (number (.log channel) (s.cursor channel)
        ((s.written channel).drop (s.cursor channel))) with
      cursor := Function.update s.cursor channel (s.written channel).length }
  else s

/-- Drain the exchanges. -/
def drainObserved (s : Metering) : Metering :=
  { s.ingest (number .observed s.minted (mintAll s.minted s.queue)) with
    queue := []
    minted := s.minted + s.queue.length }

end Metering

/-- What happens to the channels: the agent writes a usage line, the listener sees an exchange, or
one of them is drained. -/
inductive Step where
  | print (channel : UsageChannel) (parsed : ParsedUsage)
  | exchange (input output cached : ℕ)
  | drainLog (channel : UsageChannel)
  | drainObserved
  deriving DecidableEq, Repr

namespace Metering

/-- One step. -/
def step (s : Metering) : Step → Metering
  | .print channel parsed =>
      { s with written := Function.update s.written channel (s.written channel ++ [parsed]) }
  | .exchange input output cached => { s with queue := s.queue ++ [(input, output, cached)] }
  | .drainLog channel => s.drainLog channel
  | .drainObserved => s.drainObserved

/-- The steps of a launch. -/
def run (s : Metering) (steps : List Step) : Metering := steps.foldl step s

/-- Drain every channel. -/
def drainAll (s : Metering) : Metering :=
  ((s.drainLog .stdout).drainLog .stderr).drainObserved

/-- The lines of a log that were drained. -/
def drained (s : Metering) (channel : UsageChannel) : List ParsedUsage :=
  (s.written channel).take (s.cursor channel)

end Metering

/-! ### What is promised -/

/-- Every exchange the drains have taken was inserted once, and what is classified as a replay is
one of an event of its own channel. -/
structure Unshadowed (s : Metering) : Prop where
  once : ∀ j < s.minted, ∃ e : Event,
    e.source = .observed ∧ e.index = j ∧ s.ledger.inserted.count e = 1
  own : ∀ e first, (e, .replayOf first) ∈ s.ledger.verdicts →
    ∃ e', first = some e' ∧ e'.source = e.source

/-- The numbers of the lines differ between the logs and from those of `n` exchanges, as the
column stores them, and the numbers of the exchanges differ from each other. -/
structure Apart (lines : UsageChannel → List ParsedUsage) (n : ℕ) : Prop where
  logs : ∀ c c', c ≠ c' → ∀ a ∈ lines c, ∀ b ∈ lines c',
    clampTokens a.sequence ≠ clampTokens b.sequence
  observed : ∀ c, ∀ a ∈ lines c, ∀ j < n,
    clampTokens a.sequence ≠ clampTokens (j % sequenceEnd)
  few : n ≤ 2 ^ 63

/-- The usage lines the agent writes into a log. -/
def printed (steps : List Step) (channel : UsageChannel) : List ParsedUsage :=
  steps.filterMap fun
    | .print c parsed => if c = channel then some parsed else none
    | _ => none

/-- The usage lines the agent writes into the logs that are drained. -/
def linesOf (isAcp : Bool) (steps : List Step) (channel : UsageChannel) : List ParsedUsage :=
  if drainsLog isAcp channel then printed steps channel else []

/-- The number of exchanges. -/
def exchangesOf (steps : List Step) : ℕ :=
  steps.countP fun
    | .exchange .. => true
    | _ => false

/-! ### The events of a source -/

/-- What tells an event from every other one. -/
def Event.origin (e : Event) : Source × ℕ := (e.source, e.index)

theorem mem_number {source : Source} {i : ℕ} {reports : List ParsedUsage} {e : Event} :
    e ∈ number source i reports ↔
      e.source = source ∧ i ≤ e.index ∧ reports[e.index - i]? = some e.parsed := by
  induction reports generalizing i with
  | nil => simp [number]
  | cons parsed rest ih =>
      rw [number, List.mem_cons, ih]
      constructor
      · rintro (rfl | ⟨hsource, hle, hget⟩)
        · simp
        · refine ⟨hsource, by omega, ?_⟩
          rwa [show e.index - i = e.index - (i + 1) + 1 by omega, List.getElem?_cons_succ]
      · rintro ⟨rfl, hle, hget⟩
        by_cases heq : e.index = i
        · obtain rfl : parsed = e.parsed := by simpa [heq] using hget
          subst heq
          exact .inl rfl
        · refine .inr ⟨rfl, by omega, ?_⟩
          rwa [show e.index - i = e.index - (i + 1) + 1 by omega, List.getElem?_cons_succ] at hget

theorem origin_number (source : Source) (i : ℕ) (reports : List ParsedUsage) :
    (number source i reports).map Event.origin
      = (List.range' i reports.length).map fun j => (source, j) := by
  induction reports generalizing i with
  | nil => rfl
  | cons parsed rest ih =>
      rw [number, List.map_cons, ih, List.length_cons, List.range'_succ, List.map_cons]
      rfl

/-- Events of a source that come after those there are have origins of their own. -/
theorem origins_append {events : List Event} {source : Source} {i : ℕ}
    (hnodup : (events.map Event.origin).Nodup)
    (hlt : ∀ e ∈ events, e.source = source → e.index < i) (reports : List ParsedUsage) :
    ((events ++ number source i reports).map Event.origin).Nodup := by
  rw [List.map_append]
  refine hnodup.append ?_ ?_
  · rw [origin_number]
    exact (List.nodup_range' ..).map fun j j' h => congrArg Prod.snd h
  · intro o ho ho'
    obtain ⟨e, he, rfl⟩ := List.mem_map.1 ho
    obtain ⟨e', he', horigin⟩ := List.mem_map.1 ho'
    obtain ⟨hsource, hle, -⟩ := mem_number.1 he'
    obtain ⟨hs, hi⟩ := Prod.mk.inj horigin
    have hlt := hlt e he (hs.symm.trans hsource)
    omega

theorem length_mintAll (n : ℕ) (queue : List (ℕ × ℕ × ℕ)) :
    (mintAll n queue).length = queue.length := by
  induction queue generalizing n with
  | nil => rfl
  | cons x rest ih => simp [mintAll, ih]

theorem sequence_mintAll {n i : ℕ} {queue : List (ℕ × ℕ × ℕ)} {parsed : ParsedUsage}
    (h : (mintAll n queue)[i]? = some parsed) : parsed.sequence = (n + i) % sequenceEnd := by
  induction queue generalizing n i with
  | nil => simp [mintAll] at h
  | cons x rest ih =>
      cases i with
      | zero =>
          obtain rfl := Option.some.inj h
          rfl
      | succ i =>
          rw [ih h]
          congr 1
          omega

/-- Within the range of the counter these are the reports a drain mints. -/
theorem mintAll_eq_mint {n : ℕ} {queue : List (ℕ × ℕ × ℕ)}
    (h : n + queue.length ≤ sequenceEnd) : mintAll n queue = Supervisor.mint n queue := by
  induction queue generalizing n with
  | nil => rfl
  | cons x rest ih =>
      rw [List.length_cons] at h
      rw [mintAll, Supervisor.mint, ih (by omega), Nat.mod_eq_of_lt (by omega)]

/-! ### The index -/

theorem key_eq_iff {m : Metered} {e e' : Event} :
    Metering.key m e = Metering.key m e' ↔
      clampTokens e.parsed.sequence = clampTokens e'.parsed.sequence := by
  simp [Metering.key, Metered.identity]

namespace Metering

variable {s : Metering}

/-- A commit does what an insertion into the ledger does. -/
theorem commit_insertUsage (m : Metered) (log : Dedup.Log Event Identity) (l : Ledger) (e : Event)
    (source : String) (at_ : Timestamp) (rate : Option Rate) (hreg : m.name ∈ l.runs.instances)
    (hrows : identitiesOf l = log.rows.map Prod.fst) :
    ∃ outcome l', l.insertUsage (assembleUsageEvent e.parsed m.name m.runId source at_) rate
        m.generation = .ok (outcome, l') ∧
      identitiesOf l' = (log.commit (key m) e).rows.map Prod.fst ∧
      (outcome = .inserted ↔
        (log.commit (key m) e).verdicts = log.verdicts ++ [(e, .inserted)]) := by
  obtain ⟨l', hok, hids⟩ := m.insertUsage l e.parsed source at_ rate hreg
  refine ⟨_, l', hok, ?_⟩
  rw [hids, hrows]
  rcases Dedup.Log.commit_cases (key m) log e with ⟨r, hr, hkey, hlog⟩ | ⟨hnone, hlog⟩
  · have hmem : m.identity e.parsed ∈ log.rows.map Prod.fst :=
      List.mem_map.2 ⟨r, hr, hkey⟩
    rw [hlog, if_pos hmem, if_pos hmem]
    simp
  · have hmem : m.identity e.parsed ∉ log.rows.map Prod.fst := by
      intro hmem
      obtain ⟨r, hr, hkey⟩ := List.mem_map.1 hmem
      exact hnone r hr hkey
    rw [hlog, if_neg hmem, if_neg hmem]
    simp [key]

/-! ### What the drains have taken -/

/-- An event that a drain has taken from its source. -/
def Taken (s : Metering) (e : Event) : Prop :=
  match e.source with
  | .log c => e.index < s.cursor c ∧ (s.written c)[e.index]? = some e.parsed
  | .observed => e.index < s.minted ∧ e.parsed.sequence = e.index % sequenceEnd

/-- The events in the ledger are those the drains have taken, each of them once. -/
structure Tracked (s : Metering) : Prop where
  sound : Dedup.Sound (key s.metered) s.ledger
  origins : (s.ledger.events.map Event.origin).Nodup
  taken : ∀ e ∈ s.ledger.events, s.Taken e
  logs : ∀ c, ∀ i < s.cursor c, ∃ parsed, ⟨.log c, i, parsed⟩ ∈ s.ledger.events
  observed : ∀ j < s.minted, ∃ parsed, ⟨.observed, j, parsed⟩ ∈ s.ledger.events
  cursor_le : ∀ c, s.cursor c ≤ (s.written c).length

/-- The bumped generation stands under no row. -/
theorem tracked_launch (store : LaunchStore) (runId : RunId) (isAcp : Bool) :
    Tracked (launch store runId isAcp) where
  sound := by
    refine Dedup.Sound.ofRows fun e hmem => ?_
    have hle := store.bounded _ hmem rfl
    have hfits := store.fits
    change min ((store.generation + 1 : ℕ) : ℤ) i64Max ≤ store.generation at hle
    omega
  origins := by simp [launch, Dedup.Log.ofRows, Dedup.Log.events]
  taken := by simp [launch, Dedup.Log.ofRows, Dedup.Log.events]
  logs := by simp [launch]
  observed := by simp [launch]
  cursor_le := by simp [launch]

theorem events_ingest (s : Metering) (events : List Event) :
    (s.ingest events).ledger.events = s.ledger.events ++ events :=
  Dedup.Log.events_commitAll ..

/-- What was taken stays taken. -/
theorem Taken.mono {s' : Metering} {e : Event} (h : s.Taken e)
    (hwritten : ∀ c, s.written c <+: s'.written c) (hcursor : ∀ c, s.cursor c ≤ s'.cursor c)
    (hminted : s.minted ≤ s'.minted) : s'.Taken e := by
  unfold Taken at h ⊢
  cases hsource : e.source with
  | log c =>
      rw [hsource] at h
      obtain ⟨rest, hrest⟩ := hwritten c
      refine ⟨h.1.trans_le (hcursor c), ?_⟩
      have hlt : e.index < (s.written c).length := (List.getElem?_eq_some_iff.1 h.2).1
      rw [← hrest, List.getElem?_append_left hlt]
      exact h.2
  | observed =>
      rw [hsource] at h
      exact ⟨h.1.trans_le hminted, h.2⟩

/-- A drained log adds the events behind its cursor. -/
theorem Tracked.drainLog (h : Tracked s) (c : UsageChannel) : Tracked (s.drainLog c) := by
  unfold Metering.drainLog
  by_cases hdrains : s.drains c
  · rw [if_pos hdrains]
    have hcursor := h.cursor_le c
    have hevents := events_ingest s (number (.log c) (s.cursor c)
      ((s.written c).drop (s.cursor c)))
    -- the cursor of this log goes to its end, the others stay
    have hgrow : ∀ c', s.cursor c' ≤
        Function.update s.cursor c (s.written c).length c' := by
      intro c'
      by_cases hc : c' = c
      · subst hc
        simpa using hcursor
      · simp [hc]
    refine ⟨h.sound.commitAll _, ?_, ?_, ?_, ?_, ?_⟩
    · refine hevents ▸ origins_append h.origins (fun e he hsource => ?_) _
      have htaken := h.taken e he
      rw [Taken, hsource] at htaken
      exact htaken.1
    · intro e he
      rcases List.mem_append.1 (hevents ▸ he) with he | he
      · exact (h.taken e he).mono (fun _ => List.prefix_rfl) hgrow le_rfl
      · obtain ⟨hsource, hle, hget⟩ := mem_number.1 he
        rw [List.getElem?_drop, Nat.add_sub_cancel' hle] at hget
        rw [Taken, hsource]
        refine ⟨?_, hget⟩
        simpa using (List.getElem?_eq_some_iff.1 hget).1
    · intro c' i hi
      by_cases hold : i < s.cursor c'
      · obtain ⟨parsed, hmem⟩ := h.logs c' i hold
        exact ⟨parsed, hevents ▸ List.mem_append_left _ hmem⟩
      · by_cases hc : c' = c
        · subst hc
          have hi : i < (s.written c').length := by simpa using hi
          refine ⟨(s.written c')[i], hevents ▸ List.mem_append_right _ ?_⟩
          refine mem_number.2 ⟨rfl, not_lt.1 hold, ?_⟩
          rw [List.getElem?_drop, Nat.add_sub_cancel' (not_lt.1 hold)]
          exact List.getElem?_eq_getElem hi
        · exact absurd (by simpa [hc] using hi) hold
    · intro j hj
      obtain ⟨parsed, hmem⟩ := h.observed j hj
      exact ⟨parsed, hevents ▸ List.mem_append_left _ hmem⟩
    · intro c'
      by_cases hc : c' = c
      · subst hc
        simp [ingest]
      · simpa [hc, ingest] using h.cursor_le c'
  · rw [if_neg hdrains]
    exact h

/-- A drain of the exchanges adds those that wait. -/
theorem Tracked.drainObserved (h : Tracked s) : Tracked s.drainObserved := by
  unfold Metering.drainObserved
  have hevents := events_ingest s (number .observed s.minted (mintAll s.minted s.queue))
  refine ⟨h.sound.commitAll _, ?_, ?_, ?_, ?_, h.cursor_le⟩
  · refine hevents ▸ origins_append h.origins (fun e he hsource => ?_) _
    have htaken := h.taken e he
    rw [Taken, hsource] at htaken
    exact htaken.1
  · intro e he
    rcases List.mem_append.1 (hevents ▸ he) with he | he
    · exact (h.taken e he).mono (fun _ => List.prefix_rfl) (fun _ => le_rfl)
        (Nat.le_add_right _ _)
    · obtain ⟨hsource, hle, hget⟩ := mem_number.1 he
      have hlt := (List.getElem?_eq_some_iff.1 hget).1
      rw [length_mintAll] at hlt
      have hsequence := sequence_mintAll hget
      rw [Nat.add_sub_cancel' hle] at hsequence
      rw [Taken, hsource]
      exact ⟨by dsimp only; omega, hsequence⟩
  · intro c i hi
    obtain ⟨parsed, hmem⟩ := h.logs c i hi
    exact ⟨parsed, hevents ▸ List.mem_append_left _ hmem⟩
  · intro j hj
    by_cases hold : j < s.minted
    · obtain ⟨parsed, hmem⟩ := h.observed j hold
      exact ⟨parsed, hevents ▸ List.mem_append_left _ hmem⟩
    · have hlt : j - s.minted < (mintAll s.minted s.queue).length := by
        rw [length_mintAll]
        dsimp only at hj
        omega
      refine ⟨(mintAll s.minted s.queue)[j - s.minted], hevents ▸ List.mem_append_right _ ?_⟩
      exact mem_number.2 ⟨rfl, not_lt.1 hold, List.getElem?_eq_getElem hlt⟩

/-- Every step keeps track. -/
theorem Tracked.step (h : Tracked s) (x : Step) : Tracked (s.step x) := by
  cases x with
  | print c parsed =>
      have hgrows : ∀ c', s.written c' <+:
          Function.update s.written c (s.written c ++ [parsed]) c' := by
        intro c'
        by_cases hc : c' = c
        · subst hc
          simp
        · simp [hc]
      exact ⟨h.sound, h.origins,
        fun e he => (h.taken e he).mono hgrows (fun _ => le_rfl) le_rfl, h.logs, h.observed,
        fun c' => (h.cursor_le c').trans (hgrows c').length_le⟩
  | exchange input output cached =>
      exact ⟨h.sound, h.origins, h.taken, h.logs, h.observed, h.cursor_le⟩
  | drainLog c => exact h.drainLog c
  | drainObserved => exact h.drainObserved

theorem Tracked.run (h : Tracked s) (steps : List Step) : Tracked (s.run steps) := by
  induction steps generalizing s with
  | nil => exact h
  | cons x steps ih => exact ih (h.step x)

theorem Tracked.drainAll (h : Tracked s) : Tracked s.drainAll :=
  ((h.drainLog .stdout).drainLog .stderr).drainObserved

/-! ### What tells the channels apart -/

/-- The number of an exchange fits the column, while there are not too many of them. -/
theorem clampTokens_index_inj {i j : ℕ} (hi : i < 2 ^ 63) (hj : j < 2 ^ 63)
    (h : clampTokens (i % sequenceEnd) = clampTokens (j % sequenceEnd)) : i = j := by
  have hmax : i64Max = 2 ^ 63 - 1 := rfl
  rw [sequenceEnd, Nat.mod_eq_of_lt (by omega), Nat.mod_eq_of_lt (by omega)] at h
  simp only [clampTokens, hmax] at h
  omega

/-- An event in the ledger is known by its origin. -/
theorem Tracked.eq_of_origin (h : Tracked s) {e e' : Event} (he : e ∈ s.ledger.events)
    (he' : e' ∈ s.ledger.events) (horigin : e.origin = e'.origin) : e = e' :=
  List.inj_on_of_nodup_map h.origins he he' horigin

theorem Tracked.drained_of_event (h : Tracked s) {e : Event} (he : e ∈ s.ledger.events)
    {c : UsageChannel} (hsource : e.source = .log c) : e.parsed ∈ s.drained c := by
  have htaken := h.taken e he
  rw [Taken, hsource] at htaken
  refine List.mem_of_getElem? (i := e.index) ?_
  rw [drained, List.getElem?_take_of_lt htaken.1]
  exact htaken.2

theorem Tracked.event_of_drained (h : Tracked s) {c : UsageChannel} {parsed : ParsedUsage}
    (hmem : parsed ∈ s.drained c) :
    ∃ e ∈ s.ledger.events, e.source = .log c ∧ e.parsed = parsed := by
  obtain ⟨i, hget⟩ := List.mem_iff_getElem?.1 hmem
  have hlt : i < s.cursor c := by
    have hlen := (List.getElem?_eq_some_iff.1 hget).1
    exact hlen.trans_le (List.length_take_le ..)
  rw [drained, List.getElem?_take_of_lt hlt] at hget
  obtain ⟨parsed', hevent⟩ := h.logs c i hlt
  have htaken := (h.taken _ hevent).2
  exact ⟨_, hevent, rfl, Option.some.inj (htaken.symm.trans hget)⟩

theorem Tracked.event_of_exchange (h : Tracked s) {j : ℕ} (hj : j < s.minted) :
    ∃ e ∈ s.ledger.events,
      e.source = .observed ∧ e.index = j ∧ e.parsed.sequence = j % sequenceEnd := by
  obtain ⟨parsed, hevent⟩ := h.observed j hj
  exact ⟨_, hevent, rfl, rfl, (h.taken _ hevent).2⟩

theorem Tracked.exchange_of_event (h : Tracked s) {e : Event} (he : e ∈ s.ledger.events)
    (hsource : e.source = .observed) :
    e.index < s.minted ∧ e.parsed.sequence = e.index % sequenceEnd := by
  have htaken := h.taken e he
  rw [Taken, hsource] at htaken
  exact htaken

/-- Where the events of the ledger are apart, the lines and exchanges they stand for are. -/
theorem Tracked.apart_of_events (h : Tracked s)
    (hapart : ∀ e ∈ s.ledger.events, ∀ e' ∈ s.ledger.events, e ≠ e' →
      e.source = .observed ∨ e.source ≠ e'.source → key s.metered e ≠ key s.metered e') :
    Apart s.drained s.minted := by
  have hsources : ∀ e ∈ s.ledger.events, ∀ e' ∈ s.ledger.events, e.source ≠ e'.source →
      clampTokens e.parsed.sequence ≠ clampTokens e'.parsed.sequence := by
    intro e he e' he' hne hkey
    exact hapart e he e' he' (fun heq => hne (heq ▸ rfl)) (.inr hne) (key_eq_iff.2 hkey)
  refine ⟨fun c c' hc a ha b hb => ?_, fun c a ha j hj => ?_, ?_⟩
  · obtain ⟨e, he, hsource, rfl⟩ := h.event_of_drained ha
    obtain ⟨e', he', hsource', rfl⟩ := h.event_of_drained hb
    exact hsources e he e' he' (by simpa [hsource, hsource'] using hc)
  · obtain ⟨e, he, hsource, rfl⟩ := h.event_of_drained ha
    obtain ⟨e', he', hsource', -, hsequence⟩ := h.event_of_exchange hj
    rw [← hsequence]
    exact hsources e he e' he' (by simp [hsource, hsource'])
  · by_contra hmany
    obtain ⟨e, he, hsource, hindex, hsequence⟩ :=
      h.event_of_exchange (show 2 ^ 63 - 1 < s.minted by omega)
    obtain ⟨e', he', -, hindex', hsequence'⟩ :=
      h.event_of_exchange (show 2 ^ 63 < s.minted by omega)
    have hne : e ≠ e' := by
      rintro rfl
      omega
    refine hapart e he e' he' hne (.inl hsource) (key_eq_iff.2 ?_)
    rw [hsequence, hsequence']
    decide

/-- Where the lines and exchanges are apart, the events that stand for them are. -/
theorem Tracked.events_of_apart (h : Tracked s) (hapart : Apart s.drained s.minted) {e e' : Event}
    (he : e ∈ s.ledger.events) (he' : e' ∈ s.ledger.events) (hne : e ≠ e')
    (hkind : e.source = .observed ∨ e.source ≠ e'.source) :
    key s.metered e ≠ key s.metered e' := by
  intro hkey
  have hstored := key_eq_iff.1 hkey
  cases hsource : e.source with
  | log c =>
      have hmem := h.drained_of_event he hsource
      cases hsource' : e'.source with
      | log c' =>
          have hmem' := h.drained_of_event he' hsource'
          have hc : c ≠ c' := by simpa [hsource, hsource'] using hkind
          exact hapart.logs c c' hc _ hmem _ hmem' hstored
      | observed =>
          obtain ⟨hlt, hsequence⟩ := h.exchange_of_event he' hsource'
          exact hapart.observed c _ hmem _ hlt (hsequence ▸ hstored)
  | observed =>
      obtain ⟨hlt, hsequence⟩ := h.exchange_of_event he hsource
      cases hsource' : e'.source with
      | log c' =>
          have hmem' := h.drained_of_event he' hsource'
          exact hapart.observed c' _ hmem' _ hlt (hsequence ▸ hstored.symm)
      | observed =>
          obtain ⟨hlt', hsequence'⟩ := h.exchange_of_event he' hsource'
          rw [hsequence, hsequence'] at hstored
          have hindex := clampTokens_index_inj (hlt.trans_le hapart.few)
            (hlt'.trans_le hapart.few) hstored
          have horigin : e.origin = e'.origin :=
            Prod.ext (hsource.trans hsource'.symm) hindex
          exact hne (h.eq_of_origin he he' horigin)

/-- The events of the ledger are apart just when the lines and exchanges they stand for are. -/
theorem Tracked.apart_iff (h : Tracked s) :
    (∀ e ∈ s.ledger.events, ∀ e' ∈ s.ledger.events, e ≠ e' →
      e.source = .observed ∨ e.source ≠ e'.source → key s.metered e ≠ key s.metered e') ↔
    Apart s.drained s.minted :=
  ⟨h.apart_of_events, fun hapart _ he _ he' => h.events_of_apart hapart he he'⟩

/-- No channel shadows another just when the lines and exchanges that were taken are apart. -/
theorem Tracked.unshadowed_iff (h : Tracked s) : Unshadowed s ↔ Apart s.drained s.minted := by
  have hnodup : s.ledger.events.Nodup := h.origins.of_map _
  rw [← h.apart_iff, ← h.sound.apart_iff hnodup Event.source (· = .observed)]
  constructor
  · rintro ⟨honce, hown⟩
    refine ⟨fun e he hsource => ?_, fun e first hv => ?_⟩
    · obtain ⟨hlt, -⟩ := h.exchange_of_event he hsource
      obtain ⟨e', hsource', hindex, hcount⟩ := honce e.index hlt
      have hins := (h.sound.count_eq_one hnodup e').1 hcount
      have horigin : e.origin = e'.origin :=
        Prod.ext (hsource.trans hsource'.symm) hindex.symm
      rw [h.eq_of_origin he (Dedup.mem_events.2 ⟨_, hins⟩) horigin]
      exact hins
    · obtain ⟨e', hfirst, hsource⟩ := hown e _ hv
      obtain rfl := Option.some.inj hfirst
      exact hsource
  · rintro ⟨hsole, hown⟩
    refine ⟨fun j hj => ?_, fun e first hv => ?_⟩
    · obtain ⟨e, he, hsource, hindex, -⟩ := h.event_of_exchange hj
      exact ⟨e, hsource, hindex, (h.sound.count_eq_one hnodup e).2 (hsole e he hsource)⟩
    · obtain ⟨e', rfl, -, -⟩ := h.sound.replay e first hv
      exact ⟨e', rfl, hown e e' hv⟩

/-! ### The steps -/

/-- What the steps have brought: the lines written, and the exchanges taken or waiting. -/
structure Fed (s : Metering) (steps : List Step) : Prop where
  written : ∀ c, s.written c = printed steps c
  undrained : ∀ c, s.drains c = false → s.cursor c = 0
  exchanges : s.minted + s.queue.length = exchangesOf steps

/-- What a drain of a log leaves, and where its cursor goes. -/
theorem drainLog_eq (s : Metering) (c : UsageChannel) :
    (s.drainLog c).written = s.written ∧ (s.drainLog c).queue = s.queue ∧
      (s.drainLog c).minted = s.minted ∧ (s.drainLog c).isAcp = s.isAcp ∧
      (s.drainLog c).cursor
        = if s.drains c then Function.update s.cursor c (s.written c).length else s.cursor := by
  unfold drainLog
  by_cases hdrains : s.drains c
  · rw [if_pos hdrains, if_pos hdrains]
    exact ⟨rfl, rfl, rfl, rfl, rfl⟩
  · rw [if_neg hdrains, if_neg hdrains]
    exact ⟨rfl, rfl, rfl, rfl, rfl⟩

theorem isAcp_step (s : Metering) (x : Step) : (s.step x).isAcp = s.isAcp := by
  cases x with
  | drainLog c => exact (s.drainLog_eq c).2.2.2.1
  | print c parsed => rfl
  | exchange input output cached => rfl
  | drainObserved => rfl

theorem isAcp_run (s : Metering) (steps : List Step) : (s.run steps).isAcp = s.isAcp := by
  induction steps generalizing s with
  | nil => rfl
  | cons x steps ih => exact (ih (s.step x)).trans (s.isAcp_step x)

theorem Fed.step {steps : List Step} (h : Fed s steps) (x : Step) :
    Fed (s.step x) (steps ++ [x]) := by
  have hdrains : (s.step x).drains = s.drains := congrArg drainsLog (s.isAcp_step x)
  cases x with
  | print c parsed =>
      refine ⟨fun c' => ?_, fun c' hc' => h.undrained c' (hdrains ▸ hc'), ?_⟩
      · by_cases hc : c = c'
        · subst hc
          simp [Metering.step, printed, h.written c]
        · have hc' : c' ≠ c := fun heq => hc heq.symm
          simp [Metering.step, printed, hc, hc', h.written c']
      · simpa [exchangesOf, Metering.step] using h.exchanges
  | exchange input output cached =>
      refine ⟨fun c' => ?_, fun c' hc' => h.undrained c' (hdrains ▸ hc'), ?_⟩
      · simpa [printed, Metering.step] using h.written c'
      · have hsum := h.exchanges
        simp only [exchangesOf, Metering.step, List.length_append, List.length_singleton,
          List.countP_append, List.countP_singleton, if_true] at hsum ⊢
        omega
  | drainLog c =>
      obtain ⟨hwritten, hqueue, hminted, -, hcursor⟩ := s.drainLog_eq c
      refine ⟨fun c' => ?_, fun c' hc' => ?_, ?_⟩
      · rw [Metering.step, hwritten, h.written c']
        simp [printed]
      · have hzero := h.undrained c' (hdrains ▸ hc')
        rw [Metering.step, hcursor]
        by_cases hd : s.drains c
        · have hne : c' ≠ c := by
            rintro rfl
            rw [hdrains, hd] at hc'
            exact nomatch hc'
          rw [if_pos hd, Function.update_of_ne hne]
          exact hzero
        · rw [if_neg hd]
          exact hzero
      · rw [Metering.step, hqueue, hminted, h.exchanges]
        simp [exchangesOf]
  | drainObserved =>
      refine ⟨fun c' => ?_, fun c' hc' => h.undrained c' (hdrains ▸ hc'), ?_⟩
      · simpa [printed, Metering.step, drainObserved, ingest] using h.written c'
      · simpa [exchangesOf, Metering.step, drainObserved] using h.exchanges

theorem Fed.run {before : List Step} (h : Fed s before) (steps : List Step) :
    Fed (s.run steps) (before ++ steps) := by
  induction steps generalizing s before with
  | nil => simpa [Metering.run] using h
  | cons x steps ih => simpa [Metering.run] using ih (h.step x)

theorem fed_launch (store : LaunchStore) (runId : RunId) (isAcp : Bool) :
    Fed (launch store runId isAcp) [] :=
  ⟨fun _ => rfl, fun _ _ => rfl, rfl⟩

/-- What was drained of a log is a part of what was written. -/
theorem Fed.drained_subset {steps : List Step} (h : Fed s steps) (c : UsageChannel) :
    s.drained c ⊆ linesOf s.isAcp steps c := by
  intro parsed hmem
  unfold linesOf
  by_cases hd : drainsLog s.isAcp c
  · rw [if_pos hd, ← h.written c]
    exact List.mem_of_mem_take hmem
  · have hzero := h.undrained c (by simpa [drains] using hd)
    rw [drained, hzero] at hmem
    exact absurd hmem List.not_mem_nil

/-- After all channels were drained, all of it was. -/
theorem Fed.drainAll {steps : List Step} (h : Fed s steps) :
    s.drainAll.drained = linesOf s.isAcp steps ∧ s.drainAll.minted = exchangesOf steps := by
  obtain ⟨hwritten, hqueue, hminted, hacp, hcursor⟩ := s.drainLog_eq .stdout
  obtain ⟨hwritten', hqueue', hminted', -, hcursor'⟩ := (s.drainLog .stdout).drainLog_eq .stderr
  have hdrains : (s.drainLog .stdout).drains = s.drains := congrArg drainsLog hacp
  have hout : s.drains .stdout = true := rfl
  constructor
  · funext c
    change (((s.drainLog .stdout).drainLog .stderr).written c).take
      (((s.drainLog .stdout).drainLog .stderr).cursor c) = if s.drains c then _ else _
    rw [hwritten', hcursor', hdrains, hwritten, hcursor, if_pos hout, ← h.written c]
    cases c with
    | stdout =>
        rw [if_pos hout]
        by_cases hd : s.drains .stderr <;> simp [hd]
    | stderr =>
        by_cases hd : s.drains .stderr
        · simp [hd]
        · have hzero := h.undrained .stderr (by simpa using hd)
          simp [hd, hzero]
  · change ((s.drainLog .stdout).drainLog .stderr).minted
      + ((s.drainLog .stdout).drainLog .stderr).queue.length = _
    rw [hminted', hqueue', hminted, hqueue]
    exact h.exchanges

/-! ### The next launch -/

/-- The rows of the instance stand under generations up to the one of the launch. -/
def Bounded (s : Metering) : Prop :=
  ∀ r ∈ s.ledger.rows, r.1.instanceName = s.metered.name →
    r.1.launchGeneration ≤ s.metered.generation

theorem Bounded.ingest (h : Bounded s) (events : List Event) : Bounded (s.ingest events) := by
  intro r hr hname
  rcases Dedup.Log.mem_rows_commitAll hr with hold | ⟨e, -, hkey⟩
  · exact h r hold hname
  · rw [hkey]
    exact min_le_left _ _

theorem Bounded.step (h : Bounded s) (x : Step) : Bounded (s.step x) := by
  cases x with
  | print c parsed => exact h
  | exchange input output cached => exact h
  | drainLog c =>
      change Bounded (s.drainLog c)
      unfold drainLog
      by_cases hd : s.drains c
      · rw [if_pos hd]
        exact h.ingest _
      · rw [if_neg hd]
        exact h
  | drainObserved => exact h.ingest _

theorem Bounded.run (h : Bounded s) (steps : List Step) : Bounded (s.run steps) := by
  induction steps generalizing s with
  | nil => exact h
  | cons x steps ih => exact ih (h.step x)

theorem bounded_launch (store : LaunchStore) (runId : RunId) (isAcp : Bool) :
    Bounded (launch store runId isAcp) := by
  intro r hr hname
  obtain ⟨i, hi, rfl⟩ := List.mem_map.1 hr
  have hle := store.bounded i hi hname
  change i.launchGeneration ≤ ((store.generation + 1 : ℕ) : ℤ)
  omega

theorem metered_step (s : Metering) (x : Step) : (s.step x).metered = s.metered := by
  cases x with
  | print c parsed => rfl
  | exchange input output cached => rfl
  | drainLog c =>
      change (s.drainLog c).metered = _
      unfold drainLog
      split <;> rfl
  | drainObserved => rfl

theorem metered_run (s : Metering) (steps : List Step) : (s.run steps).metered = s.metered := by
  induction steps generalizing s with
  | nil => rfl
  | cons x steps ih => exact (ih (s.step x)).trans (s.metered_step x)

end Metering

/-- The store a launch leaves to the next one. -/
def LaunchStore.after (store : LaunchStore) (runId : RunId) (isAcp : Bool) (steps : List Step)
    (hfits : ((store.generation + 1 : ℕ) : ℤ) < i64Max) : LaunchStore where
  name := store.name
  rows := ((Metering.launch store runId isAcp).run steps).ledger.rows.map Prod.fst
  generation := store.generation + 1
  bounded := by
    intro i hi hname
    obtain ⟨r, hr, rfl⟩ := List.mem_map.1 hi
    have hmetered := (Metering.launch store runId isAcp).metered_run steps
    have h := (Metering.bounded_launch store runId isAcp).run steps r hr
    rw [hmetered] at h
    exact h hname
  fits := hfits

/-! ### No channel shadows another -/

/-- Fewer lines and exchanges are apart too. -/
theorem Apart.mono {lines lines' : UsageChannel → List ParsedUsage} {n n' : ℕ}
    (h : Apart lines n) (hlines : ∀ c, lines' c ⊆ lines c) (hn : n' ≤ n) : Apart lines' n' :=
  ⟨fun c c' hc a ha b hb => h.logs c c' hc a (hlines c ha) b (hlines c' hb),
    fun c a ha j hj => h.observed c a (hlines c ha) j (hj.trans_le hn), hn.trans h.few⟩

/-- While the numbers of the lines and exchanges are apart no channel shadows another; and once
every channel was drained, none does just when they are. -/
theorem usageChannels_unshadowed_iff (store : LaunchStore) (runId : RunId) (isAcp : Bool)
    (steps : List Step) :
    (Apart (linesOf isAcp steps) (exchangesOf steps) →
      Unshadowed ((Metering.launch store runId isAcp).run steps)) ∧
    ((Metering.launch store runId isAcp).run steps).drainAll.minted = exchangesOf steps ∧
    (Unshadowed ((Metering.launch store runId isAcp).run steps).drainAll ↔
      Apart (linesOf isAcp steps) (exchangesOf steps)) := by
  have htracked := (Metering.tracked_launch store runId isAcp).run steps
  have hfed := (Metering.fed_launch store runId isAcp).run steps
  have hacp : ((Metering.launch store runId isAcp).run steps).isAcp = isAcp :=
    Metering.isAcp_run _ steps
  obtain ⟨hlines, hminted⟩ := hfed.drainAll
  rw [hacp, List.nil_append] at hlines
  refine ⟨fun hapart => ?_, hminted, ?_⟩
  · refine htracked.unshadowed_iff.2 (hapart.mono (fun c => ?_) ?_)
    · have hsub := hfed.drained_subset c
      rwa [hacp] at hsub
    · have hsum := hfed.exchanges
      rw [List.nil_append] at hsum
      omega
  · rw [htracked.drainAll.unshadowed_iff, hlines, hminted]
    rfl

/-- An instance that was never launched. -/
def LaunchStore.fresh (name : InstanceName) : LaunchStore := ⟨name, [], 0, by simp, by decide⟩

/-- A usage line that takes the number of the first exchange. -/
def shadowingSteps : List Step :=
  [.print .stdout ⟨1, 1, 0, 0⟩, .drainLog .stdout, .exchange 5 7 0, .drainObserved]

/-- The exchange is classified as a replay of the line, and no row is inserted for it. -/
theorem exchange_shadowed :
    ¬ Unshadowed ((Metering.launch (.fresh "a") 1 false).run shadowingSteps) := by
  intro h
  obtain ⟨e, hsource, -, hcount⟩ := h.once 0 (by decide)
  have honly : ∀ x ∈ ((Metering.launch (.fresh "a") 1 false).run
      shadowingSteps).ledger.inserted, x.source = .log .stdout := by decide +kernel
  rw [honly e (List.count_pos_iff.1 (by omega))] at hsource
  exact nomatch hsource

end UsageChannels

end Hekma
