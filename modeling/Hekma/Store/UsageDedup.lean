/-
**Which events the ledger takes for replays** (`store/run_store_sqlite.rs`, `store/sqlite.rs`).

The ledger keeps one row for each instance, Run, launch generation and sequence, and takes a later
event with the key of a row for a replay of it.  Generation and sequence are unsigned and go into
signed columns: a number that does not fit is stored as the largest that does, and then two events
of different numbers may have one key.

Main definitions:

* `UsageCall`, `recordAll` — a call that inserts an event, and a sequence of them;
* `NothingLost` — what the outcomes promise;
* `TellApart` — when the stored keys tell the events of some calls apart.

Main results:

* `insertUsage_keys` — all an insertion can do;
* `keys_recordAll` — the rows are those of the inserted events.
-/

import Hekma.Store.UsageLedger

set_option relaxedAutoImplicit false
set_option autoImplicit false

namespace Hekma

/-- A call that inserts an event. -/
structure UsageCall where
  event : UsageEvent
  rate : Option Rate
  generation : ℕ
  deriving DecidableEq, Repr

/-- What a ledger key is made of. -/
structure UsageKey (N : Type) where
  instanceName : Option InstanceName
  runId : RunId
  launchGeneration : N
  sequence : N
  deriving DecidableEq, Repr

/-- The event that is meant. -/
def UsageCall.key (call : UsageCall) : UsageKey ℕ :=
  ⟨some call.event.instanceName, call.event.runId, call.generation, call.event.sequence⟩

/-- A key in the columns of the table. -/
def UsageKey.clamp (k : UsageKey ℕ) : UsageKey ℤ :=
  ⟨k.instanceName, k.runId, clampTokens k.launchGeneration, clampTokens k.sequence⟩

/-- The key of a row. -/
def UsageRow.key (row : UsageRow) : UsageKey ℤ :=
  ⟨row.instanceName, row.runId, row.launchGeneration, row.sequence⟩

namespace Ledger

/-- A ledger without rows beside some Run tables. -/
def ofRuns (runs : RunStore) : Ledger := { empty with runs := runs }

/-- Make some calls in their order.  Each stands with what it was answered. -/
def recordAll (l : Ledger) :
    List UsageCall → List (UsageCall × Except StoreError RecordOutcome) × Ledger
  | [] => ([], l)
  | call :: calls =>
      match l.insertUsage call.event call.rate call.generation with
      | .ok (outcome, l') =>
          ((call, .ok outcome) :: (l'.recordAll calls).1, (l'.recordAll calls).2)
      | .error e => ((call, .error e) :: (l.recordAll calls).1, (l.recordAll calls).2)

/-- The keys of the rows. -/
def keys (l : Ledger) : List (UsageKey ℤ) := l.usage.map UsageRow.key

/-- The calls whose events were inserted. -/
def inserted (answers : List (UsageCall × Except StoreError RecordOutcome)) : List UsageCall :=
  answers.filterMap fun answer =>
    match answer.2 with
    | .ok .inserted => some answer.1
    | _ => none

/-! ### What is promised -/

/-- No event is lost to deduplication: every event that was not refused is in the ledger, inserted
by a call for this very event, and a replay is one of an event that was inserted before. -/
structure NothingLost (answers : List (UsageCall × Except StoreError RecordOutcome)) : Prop where
  stored : ∀ call outcome, (call, .ok outcome) ∈ answers →
    ∃ first, (first, .ok .inserted) ∈ answers ∧ first.key = call.key
  replay : ∀ earlier call later, answers = earlier ++ (call, .ok .duplicateReplay) :: later →
    ∃ first, (first, .ok .inserted) ∈ earlier ∧ first.key = call.key

/-- Two numbers are the same or both past what a column tells apart. -/
def SameColumn (a b : ℕ) : Prop := a = b ∨ i64Max ≤ a ∧ i64Max ≤ b

/-- No two calls on one Run of a registered instance have different numbers that a column does not
tell apart. -/
def TellApart (runs : RunStore) (calls : List UsageCall) : Prop :=
  ∀ call ∈ calls, ∀ other ∈ calls, call.event.instanceName ∈ runs.instances →
    call.event.instanceName = other.event.instanceName → call.event.runId = other.event.runId →
    SameColumn call.generation other.generation →
    SameColumn call.event.sequence other.event.sequence →
    call.generation = other.generation ∧ call.event.sequence = other.event.sequence

variable {l l' : Ledger} {call : UsageCall} {calls : List UsageCall}

theorem clampTokens_eq_iff (a b : ℕ) : clampTokens a = clampTokens b ↔ SameColumn a b := by
  unfold clampTokens SameColumn
  omega

/-- The calls that a column does not tell apart are those with one stored key. -/
theorem tellApart_iff (runs : RunStore) :
    TellApart runs calls ↔ ∀ call ∈ calls, ∀ other ∈ calls,
      call.event.instanceName ∈ runs.instances → call.key.clamp = other.key.clamp →
      call.key = other.key := by
  have hclamp : ∀ call other : UsageCall, call.key.clamp = other.key.clamp ↔
      call.event.instanceName = other.event.instanceName ∧
      call.event.runId = other.event.runId ∧ SameColumn call.generation other.generation ∧
      SameColumn call.event.sequence other.event.sequence := by
    intro call other
    simp [UsageKey.clamp, UsageCall.key, clampTokens_eq_iff]
  have hkey : ∀ call other : UsageCall, call.key = other.key ↔
      call.event.instanceName = other.event.instanceName ∧
      call.event.runId = other.event.runId ∧ call.generation = other.generation ∧
      call.event.sequence = other.event.sequence := by
    intro call other
    simp [UsageCall.key]
  constructor
  · intro h call hcall other hother hreg hsame
    obtain ⟨hname, hrun, hgen, hseq⟩ := (hclamp call other).1 hsame
    exact (hkey call other).2 ⟨hname, hrun, h call hcall other hother hreg hname hrun hgen hseq⟩
  · intro h call hcall other hother hreg hname hrun hgen hseq
    have hsame := h call hcall other hother hreg ((hclamp call other).2 ⟨hname, hrun, hgen, hseq⟩)
    exact ((hkey call other).1 hsame).2.2

/-! ### One call -/

theorem sameKey_iff (e f : UsageRow) : sameKey e f = true ↔ e.key = f.key := by
  simp [sameKey, UsageRow.key, and_assoc]

/-- The row of an event has the key of its call. -/
theorem key_rowOf (l : Ledger) (call : UsageCall) :
    (l.rowOf call.event call.rate call.generation).key = call.key.clamp := rfl

/-- **All an insertion can do**: refuse an instance that is not there, take the event for a replay
of the row with its key, or add a row. -/
theorem insertUsage_keys (l : Ledger) (call : UsageCall) :
    (call.event.instanceName ∉ l.runs.instances ∧
      l.insertUsage call.event call.rate call.generation =
        .error (.notFound call.event.instanceName)) ∨
    (call.event.instanceName ∈ l.runs.instances ∧ call.key.clamp ∈ l.keys ∧
      l.insertUsage call.event call.rate call.generation = .ok (.duplicateReplay, l)) ∨
    (call.event.instanceName ∈ l.runs.instances ∧ call.key.clamp ∉ l.keys ∧
      ∃ l', l.insertUsage call.event call.rate call.generation = .ok (.inserted, l') ∧
        l'.keys = l.keys ++ [call.key.clamp] ∧ l'.runs = l.runs) := by
  have hany : l.usage.any (sameKey (l.rowOf call.event call.rate call.generation)) = true ↔
      call.key.clamp ∈ l.keys := by
    rw [List.any_eq_true, keys, List.mem_map]
    simp only [sameKey_iff, key_rowOf, eq_comm (a := call.key.clamp)]
  unfold insertUsage
  by_cases hreg : call.event.instanceName ∈ l.runs.instances
  · rw [if_pos hreg]
    dsimp only
    by_cases hmem : call.key.clamp ∈ l.keys
    · rw [if_pos (hany.2 hmem)]
      exact .inr (.inl ⟨hreg, hmem, rfl⟩)
    · rw [if_neg fun h => hmem (hany.1 h)]
      refine .inr (.inr ⟨hreg, hmem, _, rfl, ?_, rfl⟩)
      exact List.map_append
  · rw [if_neg hreg]
    exact .inl ⟨hreg, rfl⟩

/-! ### Many calls -/

/-- **The rows are those of the inserted events**, behind the rows from before. -/
theorem keys_recordAll (l : Ledger) (calls : List UsageCall) :
    (l.recordAll calls).2.keys =
        l.keys ++ (inserted (l.recordAll calls).1).map fun call => call.key.clamp := by
  induction calls generalizing l with
  | nil => simp [recordAll, inserted]
  | cons call calls ih =>
      rcases insertUsage_keys l call with ⟨-, heq⟩ | ⟨-, -, heq⟩ | ⟨-, -, l', heq, hkeys, -⟩
      · simp only [recordAll, heq, inserted, List.filterMap_cons]
        exact ih l
      · simp only [recordAll, heq, inserted, List.filterMap_cons]
        exact ih l
      · simp only [recordAll, heq, inserted, List.filterMap_cons]
        have hrest := ih l'
        rw [hrest, hkeys, List.map_cons, List.append_assoc]
        rfl

theorem nodup_recordAll (h : l.keys.Nodup) : (l.recordAll calls).2.keys.Nodup := by
  induction calls generalizing l with
  | nil => exact h
  | cons call calls ih =>
      rcases insertUsage_keys l call with ⟨-, heq⟩ | ⟨-, -, heq⟩ | ⟨-, hnew, l', heq, hkeys, -⟩
      · simp only [recordAll, heq]
        exact ih h
      · simp only [recordAll, heq]
        exact ih h
      · simp only [recordAll, heq]
        refine ih ?_
        rw [hkeys]
        exact h.append (List.nodup_singleton _) (by simpa using hnew)

/-- A call is not refused just if its instance is registered. -/
theorem answered_recordAll (l : Ledger) (calls : List UsageCall) :
    (∃ outcome, (call, .ok outcome) ∈ (l.recordAll calls).1) ↔
      call ∈ calls ∧ call.event.instanceName ∈ l.runs.instances := by
  induction calls generalizing l with
  | nil => simp [recordAll]
  | cons first calls ih =>
      rcases insertUsage_keys l first with ⟨hreg, heq⟩ | ⟨hreg, -, heq⟩ |
        ⟨hreg, -, l', heq, -, hruns⟩
      · simp only [recordAll, heq, List.mem_cons, Prod.mk.injEq, reduceCtorEq, and_false, false_or]
        rw [ih l]
        constructor
        · rintro ⟨hcall, hname⟩
          exact ⟨.inr hcall, hname⟩
        · rintro ⟨rfl | hcall, hname⟩
          · exact absurd hname hreg
          · exact ⟨hcall, hname⟩
      · simp only [recordAll, heq, List.mem_cons, Prod.mk.injEq, exists_or, ih l]
        constructor
        · rintro (⟨outcome, rfl, -⟩ | ⟨hcall, hname⟩)
          · exact ⟨.inl rfl, hreg⟩
          · exact ⟨.inr hcall, hname⟩
        · rintro ⟨rfl | hcall, hname⟩
          · exact .inl ⟨_, rfl, rfl⟩
          · exact .inr ⟨hcall, hname⟩
      · simp only [recordAll, heq, List.mem_cons, Prod.mk.injEq, exists_or, ih l', hruns]
        constructor
        · rintro (⟨outcome, rfl, -⟩ | ⟨hcall, hname⟩)
          · exact ⟨.inl rfl, hreg⟩
          · exact ⟨.inr hcall, hname⟩
        · rintro ⟨rfl | hcall, hname⟩
          · exact .inl ⟨_, rfl, rfl⟩
          · exact .inr ⟨hcall, hname⟩

theorem mem_inserted {answers : List (UsageCall × Except StoreError RecordOutcome)} :
    call ∈ inserted answers ↔ (call, .ok .inserted) ∈ answers := by
  unfold inserted
  rw [List.mem_filterMap]
  constructor
  · rintro ⟨⟨first, outcome⟩, hmem, hsome⟩
    split at hsome
    · rename_i hok
      obtain rfl := Option.some.inj hsome
      dsimp only at hok
      exact hok ▸ hmem
    · cases hsome
  · exact fun hmem => ⟨_, hmem, rfl⟩

/-- A replay has the key of a row from before. -/
theorem key_of_replay {earlier later : List (UsageCall × Except StoreError RecordOutcome)}
    (h : (l.recordAll calls).1 = earlier ++ (call, .ok .duplicateReplay) :: later) :
    call.key.clamp ∈ l.keys ++ (inserted earlier).map fun call => call.key.clamp := by
  induction calls generalizing l earlier with
  | nil => simp [recordAll] at h
  | cons first calls ih =>
      rcases insertUsage_keys l first with ⟨-, heq⟩ | ⟨-, hold, heq⟩ | ⟨-, -, l', heq, hkeys, -⟩
      · simp only [recordAll, heq] at h
        cases earlier with
        | nil => simp at h
        | cons answer earlier =>
            rw [List.cons_append, List.cons.injEq] at h
            obtain ⟨rfl, hrest⟩ := h
            have hmem := ih hrest
            exact hmem
      · simp only [recordAll, heq] at h
        cases earlier with
        | nil =>
            obtain ⟨hfirst, -⟩ := List.cons.inj h
            obtain rfl := congrArg Prod.fst hfirst
            exact List.mem_append_left _ hold
        | cons answer earlier =>
            rw [List.cons_append, List.cons.injEq] at h
            obtain ⟨rfl, hrest⟩ := h
            have hmem := ih hrest
            exact hmem
      · simp only [recordAll, heq] at h
        cases earlier with
        | nil => simp at h
        | cons answer earlier =>
            rw [List.cons_append, List.cons.injEq] at h
            obtain ⟨rfl, hrest⟩ := h
            have hmem := ih hrest
            rw [hkeys, List.append_assoc] at hmem
            exact hmem

/-! ### The promise -/

theorem recordAll_ofRuns (runs : RunStore) (calls : List UsageCall) :
    (ofRuns runs).keys = [] ∧ ((inserted ((ofRuns runs).recordAll calls).1).map
      fun call => call.key.clamp).Nodup := by
  have hkeys : (ofRuns runs).keys = [] := rfl
  have hempty : (ofRuns runs).keys.Nodup := by
    rw [hkeys]
    exact List.nodup_nil
  have hnodup : ((ofRuns runs).recordAll calls).2.keys.Nodup := nodup_recordAll hempty
  rw [keys_recordAll, hkeys, List.nil_append] at hnodup
  exact ⟨hkeys, hnodup⟩

/-- Every event that was not refused has an inserted one with its stored key. -/
theorem exists_inserted (runs : RunStore) {outcome : RecordOutcome}
    (h : (call, .ok outcome) ∈ ((ofRuns runs).recordAll calls).1) :
    ∃ first, (first, .ok .inserted) ∈ ((ofRuns runs).recordAll calls).1 ∧
      first.key.clamp = call.key.clamp := by
  cases outcome with
  | inserted => exact ⟨call, h, rfl⟩
  | duplicateReplay =>
      obtain ⟨earlier, later, hsplit⟩ := List.append_of_mem h
      have hmem := key_of_replay hsplit
      rw [(recordAll_ofRuns runs calls).1, List.nil_append, List.mem_map] at hmem
      obtain ⟨first, hfirst, hkey⟩ := hmem
      rw [mem_inserted] at hfirst
      exact ⟨first, hsplit ▸ List.mem_append_left _ hfirst, hkey⟩

/-- **No event is lost to deduplication** just when the columns tell the calls apart. -/
theorem nothingLost_iff (runs : RunStore) (calls : List UsageCall) :
    NothingLost ((ofRuns runs).recordAll calls).1 ↔ TellApart runs calls := by
  rw [tellApart_iff]
  have hanswered : ∀ call outcome, (call, .ok outcome) ∈ ((ofRuns runs).recordAll calls).1 →
      call ∈ calls ∧ call.event.instanceName ∈ runs.instances := fun call outcome hmem =>
    (answered_recordAll (ofRuns runs) calls).1 ⟨outcome, hmem⟩
  constructor
  · intro h call hcall other hother hreg hsame
    have hreg' : other.event.instanceName ∈ runs.instances := by
      have hname : some call.event.instanceName = some other.event.instanceName :=
        congrArg UsageKey.instanceName hsame
      exact Option.some.inj hname ▸ hreg
    obtain ⟨outcome, hok⟩ := (answered_recordAll (ofRuns runs) calls).2 ⟨hcall, hreg⟩
    obtain ⟨outcome', hok'⟩ := (answered_recordAll (ofRuns runs) calls).2 ⟨hother, hreg'⟩
    obtain ⟨first, hfirst, hkey⟩ := h.stored call outcome hok
    obtain ⟨first', hfirst', hkey'⟩ := h.stored other outcome' hok'
    -- two inserted events with one stored key are one
    have hone : first = first' := by
      refine List.inj_on_of_nodup_map (recordAll_ofRuns runs calls).2 (mem_inserted.2 hfirst)
        (mem_inserted.2 hfirst') ?_
      rw [hkey, hkey', hsame]
    rw [← hkey, ← hkey', hone]
  · intro h
    refine ⟨fun call outcome hmem => ?_, fun earlier call later hsplit => ?_⟩
    · obtain ⟨first, hfirst, hkey⟩ := exists_inserted runs hmem
      obtain ⟨hmem₁, hreg⟩ := hanswered first _ hfirst
      exact ⟨first, hfirst, h first hmem₁ call (hanswered call _ hmem).1 hreg hkey⟩
    · have hmem := key_of_replay hsplit
      rw [(recordAll_ofRuns runs calls).1, List.nil_append, List.mem_map] at hmem
      obtain ⟨first, hfirst, hkey⟩ := hmem
      rw [mem_inserted] at hfirst
      have hfirst' : (first, .ok .inserted) ∈ ((ofRuns runs).recordAll calls).1 :=
        hsplit ▸ List.mem_append_left _ hfirst
      have hcall : call ∈ calls :=
        (hanswered call .duplicateReplay (hsplit ▸ List.mem_append_right _ List.mem_cons_self)).1
      obtain ⟨hmem₁, hreg⟩ := hanswered first _ hfirst'
      exact ⟨first, hfirst, h first hmem₁ call hcall hreg hkey⟩

/-- **Two numbers past the column**: the second event is taken for a replay of the first, and only
the first is in the ledger. -/
theorem recordAll_past_column :
    ((ofRuns { RunStore.empty with instances := ["a"] }).recordAll
      [⟨⟨"a", 7, 1, 0, none, "m", "t", 2 ^ 63⟩, none, 0⟩,
        ⟨⟨"a", 7, 1, 0, none, "m", "t", 2 ^ 63 + 1⟩, none, 0⟩]).1.map (fun answer =>
          (answer.1.event.sequence, answer.2.toOption)) =
      [(2 ^ 63, some .inserted), (2 ^ 63 + 1, some .duplicateReplay)] ∧
    ((ofRuns { RunStore.empty with instances := ["a"] }).recordAll
      [⟨⟨"a", 7, 1, 0, none, "m", "t", 2 ^ 63⟩, none, 0⟩,
        ⟨⟨"a", 7, 1, 0, none, "m", "t", 2 ^ 63 + 1⟩, none, 0⟩]).2.keys =
      [⟨some "a", 7, 0, 2 ^ 63 - 1⟩] := by
  decide +kernel

end Ledger

end Hekma
