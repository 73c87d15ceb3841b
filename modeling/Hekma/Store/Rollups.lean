/-
**The rollups are exact over the Run tree.**

A rollup is never recomputed: it is whatever the folds of the past have left in it.  This module
proves that the folds leave the saturating sum of the rows below the watermark: of an instance,
and of the subtree of a Run.  The parent of a Run never changes and a new Run is a leaf that no
row names yet, so an amount that was folded into the ancestors of its Run was folded into all the
Runs that ever have it in their subtree.

Main definitions:

* `sumOf` — the exact sums of the rows that satisfy a condition;
* `LedgerInv` — every rollup is the saturated sum of its rows below the watermark;
* `Reachable` — the ledgers reached by registry operations, commits and rows of another writer.

Main results:

* `spread_count` — a row is folded once into each Run above it;
* `LedgerInv.foldRows`, `LedgerInv.registry` — what keeps the invariant;
* `rollups_exact` — **the rollups** of every reachable ledger;
* `canonical_of_folded` — the rows determine the rollups, however they were batched.
-/

import Hekma.Domain.Runs.Tree
import Hekma.Store.UsageLedger

set_option relaxedAutoImplicit false
set_option autoImplicit false

namespace Hekma

open Accumulate

variable {s s' : RunStore} {l l' : Ledger} {e : UsageRow} {name : InstanceName} {id o : RunId}

/-! ### The ancestors a row is folded into -/

/-- The ancestors of a fold are the Runs strictly above, each with its instance. -/
theorem mem_ancestorsF (h : Runs.TreeShape s) (fuel : ℕ) {a : Option InstanceName × RunId} :
    a ∈ ancestorsF s fuel id ↔ ∃ k < fuel, Forest.up s.parentOf (k + 1) id = some a.2 ∧
      ∃ r, s.runRecord a.2 = some r ∧ r.instanceName = a.1 := by
  induction fuel generalizing id with
  | zero => simp [ancestorsF]
  | succ fuel ih =>
      rw [ancestorsF]
      cases hp : s.parentOf id with
      | none =>
          simp only [List.not_mem_nil, false_iff]
          rintro ⟨k, -, hk, -⟩
          rw [Forest.up_succ_of_root hp] at hk
          exact absurd hk (by simp)
      | some p =>
          obtain ⟨q, hq⟩ := h.parent_row id p hp
          simp only [hq, List.mem_cons, ih]
          constructor
          · rintro (rfl | ⟨k, hk, hup, hr⟩)
            · exact ⟨0, by omega, by rw [Forest.up_succ_of_parent hp, Forest.up_zero], q, hq, rfl⟩
            · exact ⟨k + 1, by omega, by rw [Forest.up_succ_of_parent hp, hup], hr⟩
          · rintro ⟨k, hk, hup, r, hr, hname⟩
            rw [Forest.up_succ_of_parent hp] at hup
            cases k with
            | zero =>
                rw [Forest.up_zero, Option.some.injEq] at hup
                rw [← hup, hq, Option.some.injEq] at hr
                exact .inl (Prod.ext (by rw [← hname, hr]) hup.symm)
            | succ k => exact .inr ⟨k, by omega, hup, r, hr, hname⟩

/-- No Run is an ancestor twice. -/
theorem ancestorsF_nodup (h : Runs.TreeShape s) (fuel : ℕ) :
    ((ancestorsF s fuel id).map Prod.snd).Nodup := by
  induction fuel generalizing id with
  | zero => simp [ancestorsF]
  | succ fuel ih =>
      rw [ancestorsF]
      cases hp : s.parentOf id with
      | none => simp
      | some p =>
          obtain ⟨q, hq⟩ := h.parent_row id p hp
          simp only [hq, List.map_cons, List.nodup_cons]
          refine ⟨fun hmem => ?_, ih⟩
          obtain ⟨a, ha, hap⟩ := List.mem_map.1 hmem
          obtain ⟨k, -, hup, -⟩ := (mem_ancestorsF h fuel).1 ha
          rw [hap] at hup
          exact h.height.irrefl hup

/-- The rollups an amount of the Run `key.2` of the instance `key.1` is folded into. -/
def spread (s : RunStore) (key : InstanceName × RunId) : List (InstanceName × RunId) :=
  ((ancestorsForFold s key.2).filterMap fun a => a.1.map fun name => (name, a.2)) ++ [key]

theorem mem_spread (h : Runs.TreeShape s) {key target : InstanceName × RunId} :
    target ∈ spread s key ↔ target = key ∨
      ∃ k, Forest.up s.parentOf (k + 1) key.2 = some target.2 ∧
        ∃ r, s.runRecord target.2 = some r ∧ r.instanceName = some target.1 := by
  simp only [spread, List.mem_append, List.mem_filterMap, List.mem_singleton, ancestorsForFold,
    mem_ancestorsF h, Option.map_eq_some_iff]
  constructor
  · rintro (⟨a, ⟨k, -, hup, r, hr, hname⟩, n, hn, rfl⟩ | rfl)
    · exact .inr ⟨k, hup, r, hr, hname.trans hn⟩
    · exact .inl rfl
  · rintro (rfl | ⟨k, hup, r, hr, hname⟩)
    · exact .inr rfl
    · have hlt := h.height.lt hup
      unfold maxRunNesting at hlt
      exact .inl ⟨(some target.1, target.2), ⟨k, by omega, hup, r, hr, hname⟩, target.1, rfl, rfl⟩

theorem spread_nodup (h : Runs.TreeShape s) (key : InstanceName × RunId) :
    (spread s key).Nodup := by
  refine List.Nodup.append ?_ (by simp) ?_
  · refine List.Nodup.filterMap ?_ (List.Nodup.of_map Prod.snd (ancestorsF_nodup h 16))
    rintro ⟨n, i⟩ ⟨n', i'⟩ b hb hb'
    simp only [Option.mem_def, Option.map_eq_some_iff] at hb hb'
    obtain ⟨x, rfl, rfl⟩ := hb
    obtain ⟨y, rfl, hy⟩ := hb'
    simp only [Prod.mk.injEq] at hy
    rw [hy.1, hy.2]
  · intro target htarget hkey
    rw [List.mem_singleton] at hkey
    subst hkey
    simp only [List.mem_filterMap, Option.map_eq_some_iff] at htarget
    obtain ⟨a, ha, n, -, rfl⟩ := htarget
    obtain ⟨k, -, hup, -⟩ := (mem_ancestorsF h 16).1 ha
    exact h.height.irrefl hup

/-- A list without repetitions names a key once or not at all. -/
theorem sum_single {κ : Type} [DecidableEq κ] {ks : List κ} (hnd : ks.Nodup) (k : κ) :
    (ks.map (single k)).sum = if k ∈ ks then 1 else 0 := by
  induction ks with
  | nil => rfl
  | cons k' ks ih =>
      rw [List.nodup_cons] at hnd
      rw [List.map_cons, List.sum_cons, ih hnd.2]
      by_cases h : k' = k
      · subst h
        rw [if_neg hnd.1, if_pos List.mem_cons_self]
        simp [single]
      · have hmem : k ∈ k' :: ks ↔ k ∈ ks := by simp [Ne.symm h]
        simp only [single, if_neg h, Nat.zero_add, hmem]

/-- An amount is **folded once** into the rollup of its own Run and of every Run above it. -/
theorem spread_count (h : Runs.TreeShape s) (key target : InstanceName × RunId) :
    ((spread s key).map (single target)).sum = if target ∈ spread s key then 1 else 0 := by
  rw [sum_single (spread_nodup h key)]
  congr

/-! ### What a fold adds -/

/-- The exact sums of the rows that satisfy a condition. -/
noncomputable def sumOf (rows : List UsageRow) (P : UsageRow → Prop) : Amounts :=
  open Classical in (rows.map fun e => if P e then e.stored.amounts else 0).sum

@[simp] theorem sumOf_nil (P : UsageRow → Prop) : sumOf [] P = 0 := rfl

theorem sumOf_cons (e : UsageRow) (rows : List UsageRow) (P : UsageRow → Prop) [Decidable (P e)] :
    sumOf (e :: rows) P = (if P e then e.stored.amounts else 0) + sumOf rows P := by
  simp only [sumOf, List.map_cons, List.sum_cons]
  congr

theorem sumOf_congr {rows : List UsageRow} {P Q : UsageRow → Prop}
    (h : ∀ e ∈ rows, P e ↔ Q e) : sumOf rows P = sumOf rows Q := by
  classical
  unfold sumOf
  congr 1
  refine List.map_congr_left fun e he => ?_
  simp only [h e he]

/-- The rows up to a watermark and the rows above it are all rows. -/
theorem sumOf_split (rows : List UsageRow) (w : ℕ) (P : UsageRow → Prop) :
    sumOf (rows.filter fun e => e.id ≤ w) P + sumOf (rows.filter fun e => w < e.id) P =
      sumOf rows P := by
  classical
  induction rows with
  | nil => simp
  | cons e rows ih =>
      rw [sumOf_cons e rows, ← ih]
      by_cases h : e.id ≤ w
      · have h' : ¬ w < e.id := by omega
        simp only [List.filter_cons, h, h', decide_true, decide_false, if_true,
          Bool.false_eq_true, if_false, sumOf_cons]
        abel
      · have h' : w < e.id := by omega
        simp only [List.filter_cons, h, h', decide_true, decide_false, if_true,
          Bool.false_eq_true, if_false, sumOf_cons]
        abel

/-- A full rescan: the rows that satisfy a condition, added one after the other. -/
noncomputable def rescan (rows : List UsageRow) (P : UsageRow → Prop) : RollupRow :=
  open Classical in
  (rows.filter fun e => P e).foldl (fun r e => r.add e.stored) RollupRow.zero

/-- A rescan is the saturated exact sum. -/
theorem rescan_eq (rows : List UsageRow) (P : UsageRow → Prop) :
    rescan rows P = RollupRow.saturate (sumOf rows P) := by
  classical
  have hall : ∀ w : Amounts, (rows.filter fun e => P e).foldl (fun r e => r.add e.stored)
      (RollupRow.saturate w) = RollupRow.saturate (w + sumOf rows P) := by
    induction rows with
    | nil => intro w; rw [sumOf_nil, add_zero]; rfl
    | cons e rows ih =>
        intro w
        rw [List.filter_cons, sumOf_cons]
        by_cases h : P e
        · rw [if_pos h, if_pos (by simpa using h), List.foldl_cons, RollupRow.add_eq_merge,
            ← RollupRow.isImage.map_add, ih, add_assoc]
        · rw [if_neg h, if_neg (by simpa using h), ih, zero_add]
  have h := hall 0
  rw [zero_add] at h
  rw [← h]
  unfold rescan
  congr

/-- The weighted total of the hosted rows above the watermark. -/
theorem total_hosted {κ : Type} (rows : List UsageRow) (key : InstanceName × UsageRow → κ)
    (c : κ → ℕ) (P : UsageRow → Prop)
    (hsome : ∀ e ∈ rows, ∀ n, e.instanceName = some n →
      c (key (n, e)) • e.stored.amounts = sumOf [e] P)
    (hnone : ∀ e ∈ rows, e.instanceName = none → ¬ P e) :
    total ((rows.filterMap fun e => e.instanceName.map fun n => (n, e)).map fun x =>
      (key x, x.2.stored.amounts)) c = sumOf rows P := by
  classical
  induction rows with
  | nil => rfl
  | cons e rows ih =>
      have hrest := ih (fun f hf => hsome f (List.mem_cons_of_mem _ hf))
        (fun f hf => hnone f (List.mem_cons_of_mem _ hf))
      rw [sumOf_cons]
      cases hn : e.instanceName with
      | none =>
          rw [if_neg (hnone e List.mem_cons_self hn), zero_add, ← hrest]
          simp [hn]
      | some n =>
          have he := hsome e List.mem_cons_self n hn
          rw [sumOf_cons, sumOf_nil, add_zero] at he
          rw [← he, ← hrest]
          simp [hn]

namespace Ledger

theorem byInstance_eq (l : Ledger) :
    l.byInstance = collect RollupRow.zero RollupRow.merge []
      (image RollupRow.saturate (l.hosted.map fun x => (x.1, x.2.stored.amounts))) := by
  simp only [byInstance, collect, image, List.map_map, List.foldl_map, RollupRow.add_eq_merge]
  rfl

theorem byRun_eq (l : Ledger) :
    l.byRun = collect RollupRow.zero RollupRow.merge []
      (image RollupRow.saturate
        (l.hosted.map fun x => ((x.1, x.2.runId), x.2.stored.amounts))) := by
  simp only [byRun, collect, image, List.map_map, List.foldl_map, RollupRow.add_eq_merge]
  rfl

theorem withAncestors_eq (l : Ledger) :
    l.withAncestors true = collect RollupRow.zero RollupRow.merge []
      (l.byRun.flatMap fun e => (spread l.runs e.1).map fun k => (k, e.2)) := by
  simp only [withAncestors, collect, List.foldl_flatMap, if_true]
  congr 1
  funext m e
  simp only [spread, List.map_append, List.foldl_append, List.map_cons, List.map_nil,
    List.foldl_cons, List.foldl_nil]
  congr 1
  generalize ancestorsForFold l.runs e.1.2 = chain
  induction chain generalizing m with
  | nil => rfl
  | cons a chain ih =>
      rw [List.foldl_cons, ih]
      obtain ⟨n, i⟩ := a
      cases n <;> rfl

/-- A row is folded into a rollup if the rollup is one its Run spreads to. -/
def Counts (s : RunStore) (target : InstanceName × RunId) (e : UsageRow) : Prop :=
  ∃ n, e.instanceName = some n ∧ target ∈ spread s (n, e.runId)

/-- What a fold adds to the rollup of an instance. -/
theorem foldRows_instance {W : InstanceName → Amounts}
    (hl : l.instanceRollup = fun name => RollupRow.saturate (W name)) (name : InstanceName) :
    (l.foldRows true).instanceRollup name =
      RollupRow.saturate (W name + sumOf l.unfolded fun e => e.instanceName = some name) := by
  have hfold : (l.foldRows true).instanceRollup name =
      addTo RollupRow.merge l.instanceRollup l.byInstance name := rfl
  rw [hfold, hl, byInstance_eq, addTo_collect RollupRow.isImage]
  congr 2
  refine total_hosted l.unfolded (fun x => x.1) _ _ (fun e _ n hn => ?_) fun e _ hn => by simp [hn]
  rw [sumOf_cons, sumOf_nil, add_zero, hn]
  by_cases h : n = name
  · simp [single, h]
  · simp [single, h]

/-- What a fold adds to the rollup of a Run. -/
theorem foldRows_run {W : InstanceName × RunId → Amounts} (h : Runs.TreeShape l.runs)
    (hl : l.runRollup = fun key => RollupRow.saturate (W key)) (key : InstanceName × RunId) :
    (l.foldRows true).runRollup key =
      RollupRow.saturate (W key + sumOf l.unfolded (Counts l.runs key)) := by
  classical
  have hfold : (l.foldRows true).runRollup key =
      addTo RollupRow.merge l.runRollup (l.withAncestors true) key := rfl
  rw [hfold, hl, withAncestors_eq, byRun_eq, addTo_spread RollupRow.isImage]
  congr 2
  refine total_hosted l.unfolded (fun x => (x.1, x.2.runId)) _ _ (fun e _ n hn => ?_)
    fun e _ hn hcounts => ?_
  · have hiff : Counts l.runs key e ↔ key ∈ spread l.runs (n, e.runId) := by
      constructor
      · rintro ⟨n', hn', hmem⟩
        rw [hn, Option.some.injEq] at hn'
        rwa [← hn'] at hmem
      · exact fun hmem => ⟨n, hn, hmem⟩
    rw [sumOf_cons, sumOf_nil, add_zero, spread_count h, ite_smul, one_smul, zero_smul]
    simp only [hiff]
  · obtain ⟨n, hn', -⟩ := hcounts
    rw [hn] at hn'
    exact absurd hn' (by simp)

/-! ### The watermark -/

theorem foldl_max_id (rows : List UsageRow) (h : ℕ) :
    rows.foldl (fun h e => max h e.id) h = max h (rows.foldl (fun h e => max h e.id) 0) := by
  induction rows generalizing h with
  | nil => simp
  | cons e rows ih =>
      rw [List.foldl_cons, List.foldl_cons, ih, ih (max 0 e.id)]
      omega

/-- Ids are below the next one. -/
theorem id_lt_nextId (he : e ∈ l.usage) : e.id < l.nextId := by
  unfold nextId
  revert he
  induction l.usage with
  | nil => simp
  | cons f rows ih =>
      intro he
      rw [List.foldl_cons, foldl_max_id]
      rcases List.mem_cons.1 he with rfl | he
      · omega
      · have := ih he
        omega

/-- The watermark after a fold is at the last row. -/
theorem foldRows_foldedThrough (hlt : l.foldedThrough < l.nextId) (ancestors : Bool) :
    (l.foldRows ancestors).foldedThrough + 1 = l.nextId := by
  have hfilter : ∀ rows : List UsageRow, max l.foldedThrough
      ((rows.filter fun e => l.foldedThrough < e.id).foldl (fun h e => max h e.id) 0) =
        max l.foldedThrough (rows.foldl (fun h e => max h e.id) 0) := by
    intro rows
    induction rows with
    | nil => rfl
    | cons e rows ih =>
        rw [List.foldl_cons, foldl_max_id rows (max 0 e.id), List.filter_cons]
        split
        · rw [List.foldl_cons, foldl_max_id _ (max 0 e.id)]
          omega
        · rename_i he
          have he' : ¬ l.foldedThrough < e.id := by simpa using he
          omega
  have hmark : (l.foldRows ancestors).foldedThrough =
      l.unfolded.foldl (fun h e => max h e.id) l.foldedThrough := rfl
  unfold nextId at hlt ⊢
  rw [hmark, foldl_max_id, unfolded, hfilter]
  omega

/-- The rows up to the watermark. -/
def folded (l : Ledger) : List UsageRow := l.usage.filter fun e => e.id ≤ l.foldedThrough

/-- Every row is folded when the watermark is at the last one. -/
theorem folded_eq (h : l.foldedThrough + 1 = l.nextId) : l.folded = l.usage := by
  refine List.filter_eq_self.2 fun e he => ?_
  have := id_lt_nextId he
  simp only [decide_eq_true_eq]
  omega

/-! ### The invariant -/

/-- Every rollup is the saturated sum of its rows up to the watermark; a row names an instance,
and if its Run is known it is a Run of that instance. -/
structure LedgerInv (l : Ledger) : Prop where
  registry : Runs.RegistryInv l.runs
  watermark : l.foldedThrough < l.nextId
  attributed : ∀ {e r}, e ∈ l.usage → l.runs.runRecord e.runId = some r →
    r.instanceName = e.instanceName
  perInstance : l.instanceRollup = fun name =>
    RollupRow.saturate (sumOf l.folded fun e => e.instanceName = some name)
  perRun : l.runRollup = fun key => RollupRow.saturate (sumOf l.folded (Counts l.runs key))

theorem ledgerInv_empty : LedgerInv empty where
  registry := ⟨Runs.treeInv_empty, fun _ _ h => absurd h (by simp [empty, RunStore.empty])⟩
  watermark := by decide
  attributed := fun he => absurd he (by simp [empty])
  perInstance := rfl
  perRun := rfl

/-- A fold keeps the invariant and leaves no row unfolded. -/
theorem LedgerInv.foldRows (h : LedgerInv l) :
    LedgerInv (l.foldRows true) ∧ (l.foldRows true).folded = l.usage := by
  have hmark := foldRows_foldedThrough h.watermark true
  have hall : (l.foldRows true).folded = l.usage := folded_eq (l := l.foldRows true) hmark
  refine ⟨⟨h.registry, ?_, h.attributed, ?_, ?_⟩, hall⟩
  · have hnext : (l.foldRows true).nextId = l.nextId := rfl
    omega
  · funext name
    rw [foldRows_instance h.perInstance, hall, folded, unfolded, sumOf_split]
  · funext key
    rw [foldRows_run h.registry.1.toTreeShape h.perRun, hall, folded, unfolded, sumOf_split]
    rfl

/-- A row of another writer, above the watermark. -/
def append (l : Ledger) (e : UsageRow) : Ledger :=
  { l with usage := l.usage ++ [{ e with id := l.nextId }] }

theorem nextId_append (l : Ledger) (e : UsageRow) : (l.append e).nextId = l.nextId + 1 := by
  simp only [append, nextId, List.foldl_append, List.foldl_cons, List.foldl_nil]
  omega

theorem folded_append (hlt : l.foldedThrough < l.nextId) (e : UsageRow) :
    (l.append e).folded = l.folded := by
  have hnot : ¬ l.nextId ≤ l.foldedThrough := by omega
  simp only [folded, append, List.filter_append, List.filter_cons, List.filter_nil, hnot,
    decide_false, Bool.false_eq_true, if_false, List.append_nil]
  rfl

/-- A row that is not folded yet changes no rollup. -/
theorem LedgerInv.append (h : LedgerInv l)
    (he : ∀ r, l.runs.runRecord e.runId = some r → r.instanceName = e.instanceName) :
    LedgerInv (l.append e) := by
  have hfolded := folded_append h.watermark e
  refine ⟨h.registry, ?_, ?_, ?_, ?_⟩
  · have hlt := h.watermark
    have hmark : (l.append e).foldedThrough = l.foldedThrough := rfl
    rw [nextId_append, hmark]
    omega
  · intro f r hf hr
    rcases List.mem_append.1 hf with hf | hf
    · exact h.attributed hf hr
    · rw [List.mem_singleton] at hf
      subst hf
      exact he r hr
  · rw [hfolded]
    exact h.perInstance
  · rw [hfolded]
    exact h.perRun

/-- The forest above a Run that is not the minted one is the same after an operation. -/
theorem up_grown {fresh : Option RunId} (h : Runs.TreeShape s) (hs : Runs.Grown fresh s s')
    (hne : fresh ≠ some id) (k : ℕ) : Forest.up s'.parentOf k id = Forest.up s.parentOf k id := by
  refine (Forest.up_congr (S := fun m => fresh ≠ some m ∨ ∃ r, s.runRecord m = some r) ?_ ?_
    (.inl hne)).symm
  · intro m hm
    unfold RunStore.parentOf
    cases hr : s.runRecord m with
    | some r =>
        obtain ⟨r', hr', hp, -⟩ := hs.rows hr
        rw [hr', Option.bind_some, Option.bind_some, hp]
    | none =>
        rcases hm with hm | ⟨r, hr'⟩
        · rw [hs.news hr hm]
        · rw [hr] at hr'
          exact absurd hr' (by simp)
  · intro m p _ hp
    exact .inr (h.parent_row m p hp)

/-- A row counts for the same rollups after an operation that does not mint its Run. -/
theorem counts_grown {fresh : Option RunId} (h : Runs.TreeShape s) (h' : Runs.TreeShape s')
    (hs : Runs.Grown fresh s s') (hne : fresh ≠ some e.runId) (key : InstanceName × RunId) :
    Counts s' key e ↔ Counts s key e := by
  unfold Counts
  refine exists_congr fun n => and_congr_right fun _ => ?_
  rw [mem_spread h, mem_spread h']
  refine or_congr_right (exists_congr fun k => ?_)
  rw [up_grown h hs hne]
  refine and_congr_right fun hup => ?_
  -- an ancestor had a row before, so its instance is the same
  rw [Forest.up_succ'] at hup
  obtain ⟨m, -, hm⟩ := Option.bind_eq_some_iff.1 hup
  obtain ⟨q, hq⟩ := h.parent_row m key.2 hm
  obtain ⟨q', hq', -, -, hn⟩ := hs.rows hq
  simp only [hq, hq', Option.some.injEq, exists_eq_left', hn]

/-- The rollups stay exact while the Run tables grow, if every row counts for the same rollups and
is attributed to the instance of its Run. -/
theorem LedgerInv.grown {fresh : Option RunId} (h : LedgerInv l) (hreg : Runs.RegistryInv s')
    (hs : Runs.Grown fresh l.runs s')
    (hfresh : ∀ e ∈ l.usage, fresh = some e.runId → l.runs.runRecord e.runId = none →
      s'.parentOf e.runId = none ∧
        ∀ r, s'.runRecord e.runId = some r → r.instanceName = e.instanceName) :
    LedgerInv { l with runs := s' } := by
  refine ⟨hreg, h.watermark, ?_, h.perInstance, ?_⟩
  · intro e r he hr
    cases hr₀ : l.runs.runRecord e.runId with
    | none =>
        by_cases hf : fresh = some e.runId
        · exact (hfresh e he hf hr₀).2 r hr
        · rw [hs.news hr₀ hf] at hr
          exact absurd hr (by simp)
    | some r₀ =>
        obtain ⟨r', hr', -, -, hn⟩ := hs.rows hr₀
        rw [hr', Option.some.injEq] at hr
        rw [← hr, hn, h.attributed he hr₀]
  · show l.runRollup = _
    rw [h.perRun]
    funext key
    congr 1
    refine sumOf_congr fun e he => ?_
    have he' := (List.mem_filter.1 he).1
    symm
    by_cases hf : fresh = some e.runId
    · subst hf
      cases hr₀ : l.runs.runRecord e.runId with
      | some r₀ =>
          have hs' : Runs.Grown none l.runs s' := hs.of_row hr₀
          exact counts_grown h.registry.1.toTreeShape hreg.1.toTreeShape hs' (by simp) key
      | none =>
          -- a Run without a row before, and a root now, has no ancestor before or now
          have hroot : l.runs.parentOf e.runId = none := by rw [RunStore.parentOf, hr₀]; rfl
          have hroot' := (hfresh e he' rfl hr₀).1
          unfold Counts
          refine exists_congr fun n => and_congr_right fun _ => ?_
          rw [mem_spread h.registry.1.toTreeShape, mem_spread hreg.1.toTreeShape]
          simp only [Forest.up_succ_of_root hroot, Forest.up_succ_of_root hroot', reduceCtorEq,
            false_and, exists_false, or_false]
    · exact counts_grown h.registry.1.toTreeShape hreg.1.toTreeShape hs hf key

/-- An **operation of the registry** changes no rollup, and the rollups stay exact. -/
theorem LedgerInv.registry_op (h : LedgerInv l) (op : Runs.RunOp) (at_ : Timestamp)
    (hmint : ∀ e ∈ l.usage, op.minted ≠ some e.runId) :
    LedgerInv { l with runs := op.apply l.runs at_ } := by
  obtain ⟨hreg, hgrown⟩ : Runs.RegistryInv (op.apply l.runs at_) ∧
      Runs.Grown op.minted l.runs (op.apply l.runs at_) := h.registry.apply op
  exact h.grown hreg hgrown fun e he hf => absurd hf (hmint e he)

/-- A row for a Run id that was unknown keeps the rollups exact, if its rows are of the
instance. -/
theorem LedgerInv.ensureRunRow (h : LedgerInv l) (at_ : Timestamp)
    (hosted : ∀ e ∈ l.usage, e.runId = id → e.instanceName = some name) :
    LedgerInv { l with runs := l.runs.ensureRunRow id name at_ } := by
  obtain ⟨hreg, hgrown⟩ : Runs.RegistryInv (l.runs.ensureRunRow id name at_) ∧
      Runs.Grown (some id) l.runs (l.runs.ensureRunRow id name at_) := h.registry.ensureRunRow
  refine h.grown hreg hgrown fun e he hf hr₀ => ?_
  obtain rfl := Option.some.inj hf
  have hrow : ∀ r, (l.runs.ensureRunRow e.runId name at_).runRecord e.runId = some r →
      r = RunStore.placeholderRecord e.runId name at_ := by
    intro r hr
    unfold RunStore.ensureRunRow at hr
    split at hr
    · rename_i s' hins
      rw [RunStore.runRecord_insertRun hins] at hr
      simpa [RunStore.placeholderRecord, Anomaly.normalize] using hr.symm
    · rw [hr₀] at hr
      exact absurd hr (by simp)
  constructor
  · unfold RunStore.parentOf
    cases hr : (l.runs.ensureRunRow e.runId name at_).runRecord e.runId with
    | none => rfl
    | some r => rw [hrow r hr]; rfl
  · intro r hr
    rw [hrow r hr, hosted e he rfl]
    rfl

/-! ### Commits -/

/-- What an insertion does: it replays, or it appends one row and folds. -/
theorem insertUsage_cases {event : UsageEvent} {rate : Option Rate} {generation : ℕ}
    {outcome : RecordOutcome} (h : l.insertUsage event rate generation = .ok (outcome, l')) :
    (outcome = .duplicateReplay ∧ l' = l ∧
      ∃ e ∈ l.usage, sameKey (l.rowOf event rate generation) e = true) ∨
    (outcome = .inserted ∧ l' = (l.append (l.rowOf event rate generation)).foldRows true ∧
      ∀ e ∈ l.usage, sameKey (l.rowOf event rate generation) e = false) := by
  unfold insertUsage at h
  split at h
  · dsimp only at h
    split at h
    · rename_i hany
      obtain ⟨rfl, rfl⟩ := Prod.mk.inj (Except.ok.inj h)
      exact .inl ⟨rfl, rfl, List.any_eq_true.1 hany⟩
    · rename_i hany
      obtain ⟨rfl, rfl⟩ := Prod.mk.inj (Except.ok.inj h)
      refine .inr ⟨rfl, rfl, fun e he => ?_⟩
      cases hkey : sameKey (l.rowOf event rate generation) e with
      | false => rfl
      | true => exact absurd (List.any_eq_true.2 ⟨e, he, hkey⟩) hany
  · exact absurd h (by simp)

/-- A **commit** keeps the rollups exact: what it inserts it folds. -/
theorem LedgerInv.insertUsage {event : UsageEvent} {rate : Option Rate} {generation : ℕ}
    {outcome : RecordOutcome} (h : LedgerInv l)
    (hosted : ∀ r, l.runs.runRecord event.runId = some r →
      r.instanceName = some event.instanceName)
    (hok : l.insertUsage event rate generation = .ok (outcome, l')) : LedgerInv l' := by
  rcases insertUsage_cases hok with ⟨-, rfl, -⟩ | ⟨-, rfl, -⟩
  · exact h
  · exact (h.append (e := l.rowOf event rate generation) hosted).foldRows.1

/-- Rows of other writers, one after the other. -/
def appendAll (l : Ledger) (es : List UsageRow) : Ledger := es.foldl append l

theorem appendAll_runs (es : List UsageRow) (l : Ledger) : (l.appendAll es).runs = l.runs := by
  induction es generalizing l with
  | nil => rfl
  | cons e es ih => exact ih (l.append e)

theorem appendAll_usage (es : List UsageRow) {l l' : Ledger} (h : l.usage = l'.usage) :
    (l.appendAll es).usage = (l'.appendAll es).usage := by
  induction es generalizing l l' with
  | nil => exact h
  | cons e es ih =>
      have hnext : l.nextId = l'.nextId := by rw [nextId, nextId, h]
      exact ih (by rw [append, append, h, hnext])

theorem LedgerInv.appendAll (es : List UsageRow) (h : LedgerInv l)
    (hes : ∀ e ∈ es, ∀ r, l.runs.runRecord e.runId = some r → r.instanceName = e.instanceName) :
    LedgerInv (l.appendAll es) := by
  induction es generalizing l with
  | nil => exact h
  | cons e es ih =>
      exact ih (h.append (hes e List.mem_cons_self)) fun f hf => hes f (List.mem_cons_of_mem _ hf)

/-- The rows, the tree and the watermark determine the rollups. -/
theorem LedgerInv.canonical (h : LedgerInv l) (h' : LedgerInv l') (hruns : l.runs = l'.runs)
    (husage : l.usage = l'.usage) (hmark : l.foldedThrough = l'.foldedThrough) : l = l' := by
  have hfolded : l.folded = l'.folded := by rw [folded, folded, husage, hmark]
  have hinstance := h.perInstance
  have hrun := h.perRun
  rw [hfolded, ← h'.perInstance] at hinstance
  rw [hfolded, hruns, ← h'.perRun] at hrun
  cases l
  cases l'
  simp only [mk.injEq]
  exact ⟨hruns, husage, hmark, hinstance, hrun⟩

/-- A fold before further rows makes no difference to the fold after them. -/
theorem foldRows_appendAll (es : List UsageRow) (h : LedgerInv l)
    (hes : ∀ e ∈ es, ∀ r, l.runs.runRecord e.runId = some r → r.instanceName = e.instanceName) :
    ((l.foldRows true).appendAll es).foldRows true = (l.appendAll es).foldRows true := by
  have hleft := h.foldRows.1.appendAll es hes
  have hright := h.appendAll es hes
  have husage : ((l.foldRows true).appendAll es).usage = (l.appendAll es).usage :=
    appendAll_usage es rfl
  have hnext : ((l.foldRows true).appendAll es).nextId = (l.appendAll es).nextId := by
    rw [nextId, nextId, husage]
  refine hleft.foldRows.1.canonical hright.foldRows.1 ?_ husage ?_
  · exact (appendAll_runs es (l.foldRows true)).trans (appendAll_runs es l).symm
  · have hmark := foldRows_foldedThrough hleft.watermark true
    have hmark' := foldRows_foldedThrough hright.watermark true
    omega

/-- Folding **after every row or once** for all rows gives the same ledger. -/
theorem foldRows_batched (es : List UsageRow) (hne : es ≠ []) (h : LedgerInv l)
    (hes : ∀ e ∈ es, ∀ r, l.runs.runRecord e.runId = some r → r.instanceName = e.instanceName) :
    es.foldl (fun l e => (l.append e).foldRows true) l = (l.appendAll es).foldRows true := by
  induction es generalizing l with
  | nil => exact absurd rfl hne
  | cons e es ih =>
      have he := h.append (hes e List.mem_cons_self)
      have hrest := fun f hf => hes f (List.mem_cons_of_mem e hf)
      rw [List.foldl_cons]
      cases es with
      | nil => rfl
      | cons f es =>
          rw [ih (by simp) he.foldRows.1 hrest, foldRows_appendAll _ he hrest]
          rfl

/-! ### The ledgers reached -/

/-- The ledgers reached by registry operations, commits and, if `foreign`, rows that another
writer left unfolded.  An id is minted once, so no row names it before; a Run id that had no row
gets one in the instance of its events; a writer attributes an event to a Run of its own
instance. -/
inductive Reachable (foreign : Bool) : Ledger → Prop where
  | empty : Reachable foreign empty
  | registry {l : Ledger} (op : Runs.RunOp) (at_ : Timestamp) (h : Reachable foreign l)
      (hmint : ∀ e ∈ l.usage, op.minted ≠ some e.runId) :
      Reachable foreign { l with runs := op.apply l.runs at_ }
  | ensureRunRow {l : Ledger} (id : RunId) (name : InstanceName) (at_ : Timestamp)
      (h : Reachable foreign l)
      (hosted : ∀ e ∈ l.usage, e.runId = id → e.instanceName = some name) :
      Reachable foreign { l with runs := l.runs.ensureRunRow id name at_ }
  | commit {l l' : Ledger} (event : UsageEvent) (rate : Option Rate) (generation : ℕ)
      (outcome : RecordOutcome) (h : Reachable foreign l)
      (hosted : ∀ r, l.runs.runRecord event.runId = some r →
        r.instanceName = some event.instanceName)
      (hok : l.insertUsage event rate generation = .ok (outcome, l')) : Reachable foreign l'
  | foreignRow {l : Ledger} (e : UsageRow) (hforeign : foreign = true) (h : Reachable foreign l)
      (hosted : ∀ r, l.runs.runRecord e.runId = some r → r.instanceName = e.instanceName) :
      Reachable foreign (l.append e)

/-- The rollups of every reachable ledger are exact up to the watermark. -/
theorem Reachable.inv {foreign : Bool} (h : Reachable foreign l) : LedgerInv l := by
  induction h with
  | empty => exact ledgerInv_empty
  | registry op at_ _ hmint ih => exact ih.registry_op op at_ hmint
  | ensureRunRow id name at_ _ hosted ih => exact ih.ensureRunRow at_ hosted
  | commit event rate generation outcome _ hosted hok ih => exact ih.insertUsage hosted hok
  | foreignRow e _ _ hosted ih => exact ih.append hosted

/-- An insertion leaves no row unfolded. -/
theorem LedgerInv.folded_insertUsage {event : UsageEvent} {rate : Option Rate} {generation : ℕ}
    (h : LedgerInv l)
    (hosted : ∀ r, l.runs.runRecord event.runId = some r →
      r.instanceName = some event.instanceName)
    (hok : l.insertUsage event rate generation = .ok (.inserted, l')) : l'.folded = l'.usage := by
  rcases insertUsage_cases hok with ⟨hdup, -⟩ | ⟨-, rfl, -⟩
  · exact absurd hdup (by simp)
  · exact (h.append (e := l.rowOf event rate generation) hosted).foldRows.2

/-- Without another writer no row is left unfolded. -/
theorem Reachable.folded {l : Ledger} (h : Reachable false l) : l.folded = l.usage := by
  induction h with
  | empty => rfl
  | registry op at_ _ _ ih => exact ih
  | ensureRunRow id name at_ _ _ ih => exact ih
  | commit event rate generation outcome h hosted hok ih =>
      cases outcome with
      | inserted => exact h.inv.folded_insertUsage hosted hok
      | duplicateReplay =>
          rcases insertUsage_cases hok with ⟨-, rfl, -⟩ | ⟨hins, -⟩
          · exact ih
          · exact absurd hins (by simp)
  | foreignRow e hforeign => exact absurd hforeign (by simp)

/-- The rollup of a hosted Run counts the rows of its subtree. -/
theorem LedgerInv.counts_iff (h : LedgerInv l) {r : RunRecord}
    (hr : l.runs.runRecord id = some r) (hname : r.instanceName = some name)
    (he : e ∈ l.usage) :
    Counts l.runs (name, id) e ↔ Forest.Under l.runs.parentOf id e.runId := by
  have hshape := h.registry.1.toTreeShape
  unfold Counts
  constructor
  · rintro ⟨n, -, hmem⟩
    rcases (mem_spread hshape).1 hmem with heq | ⟨k, hup, -⟩
    · exact ⟨0, by rw [Forest.up_zero, (Prod.mk.inj heq).2]⟩
    · exact ⟨k + 1, hup⟩
  · rintro ⟨k, hup⟩
    cases k with
    | zero =>
        obtain rfl := Option.some.inj hup
        have hn := h.attributed he hr
        exact ⟨name, by rw [← hn, hname], (mem_spread hshape).2 (.inl rfl)⟩
    | succ k =>
        -- a Run below another one has a row, so the event belongs to its instance
        cases hq : l.runs.runRecord e.runId with
        | none =>
            rw [Forest.up_succ_of_root (by rw [RunStore.parentOf, hq]; rfl)] at hup
            exact absurd hup (by simp)
        | some q =>
            obtain ⟨n, hn⟩ := Option.isSome_iff_exists.1 (hshape.named hq)
            refine ⟨n, by rw [← h.attributed he hq, hn], ?_⟩
            exact (mem_spread hshape).2 (.inr ⟨k, hup, r, hr, hname⟩)

/-- The rollup of a hosted Run is the rescan of its subtree. -/
theorem LedgerInv.runRollup_eq (h : LedgerInv l) {r : RunRecord}
    (hr : l.runs.runRecord id = some r) (hname : r.instanceName = some name) :
    l.runRollup (name, id) =
      rescan l.folded fun e => Forest.Under l.runs.parentOf id e.runId := by
  rw [rescan_eq, h.perRun]
  exact congrArg RollupRow.saturate
    (sumOf_congr fun e he => h.counts_iff hr hname (List.mem_filter.1 he).1)

theorem LedgerInv.instanceRollup_eq (h : LedgerInv l) (name : InstanceName) :
    l.instanceRollup name = rescan l.folded fun e => e.instanceName = some name := by
  rw [rescan_eq, h.perInstance]

/-- **The rollups** of a reachable ledger.  The rollup of a hosted Run is the rescan of the rows of
its subtree, that of an instance the rescan of its rows, over all rows if there is no other writer
and after every insertion; a replay changes nothing; and the rows of another writer may be folded
one at a time or all at once. -/
theorem rollups_exact {foreign : Bool} (h : Reachable foreign l) :
    (∀ id r name, l.runs.runRecord id = some r → r.instanceName = some name →
      l.runRollup (name, id) =
        rescan l.folded fun e => Forest.Under l.runs.parentOf id e.runId) ∧
    (∀ name, l.instanceRollup name = rescan l.folded fun e => e.instanceName = some name) ∧
    (foreign = false → l.folded = l.usage) ∧
    (∀ event rate generation outcome l',
      (∀ r, l.runs.runRecord event.runId = some r → r.instanceName = some event.instanceName) →
      l.insertUsage event rate generation = .ok (outcome, l') →
        (outcome = .duplicateReplay → l' = l) ∧
        (outcome = .inserted → l'.folded = l'.usage)) ∧
    (∀ es, es ≠ [] →
      (∀ e ∈ es, ∀ r, l.runs.runRecord e.runId = some r → r.instanceName = e.instanceName) →
      es.foldl (fun l e => (l.append e).foldRows true) l = (l.appendAll es).foldRows true) := by
  have hinv := h.inv
  refine ⟨fun id r name hr hname => hinv.runRollup_eq hr hname, hinv.instanceRollup_eq, ?_, ?_, ?_⟩
  · rintro rfl
    exact h.folded
  · intro event rate generation outcome l' hosted hok
    constructor
    · rintro rfl
      rcases insertUsage_cases hok with ⟨-, rfl, -⟩ | ⟨hins, -⟩
      · rfl
      · exact absurd hins (by simp)
    · rintro rfl
      exact hinv.folded_insertUsage hosted hok
  · exact fun es hne hes => foldRows_batched es hne hinv hes

/-- The tables of an instance with a supervised Run and a child of it. -/
def parentAndChild : RunStore :=
  Runs.runOps [("1", .register "a"), ("2", .launch "a" false 7 true []),
    ("3", .openChild ⟨.ofInstance "a", [], RunLimits.empty, none⟩ 8)]

/-- An event of the child is in the rollup of its parent. -/
theorem rollups_exact_parent : ∃ l : Ledger, Reachable false l ∧ l.usage.length = 1 ∧
    l.runRollup ("a", 7) = rescan l.usage fun e => Forest.Under l.runs.parentOf 7 e.runId := by
  have h₀ : Reachable false { Ledger.empty with runs := parentAndChild } :=
    ((Reachable.empty.registry (.register "a") "1" (by simp [Ledger.empty])).registry
      (.launch "a" false 7 true []) "2" (by simp [Ledger.empty])).registry
      (.openChild ⟨.ofInstance "a", [], RunLimits.empty, none⟩ 8) "3" (by simp [Ledger.empty])
  have hname : "a" ∈ parentAndChild.instances := by decide
  have hok : insertUsage { Ledger.empty with runs := parentAndChild }
      ⟨"a", 8, 10, 20, none, "self-reported", "4", 1⟩ none 1 = .ok (.inserted, _) :=
    if_pos hname
  have hone := h₀.commit _ none 1 .inserted (by decide) hok
  obtain ⟨r, hr, hinst⟩ : ∃ r, parentAndChild.runRecord 7 = some r ∧
      r.instanceName = some "a" := by decide
  refine ⟨_, hone, rfl, ?_⟩
  obtain ⟨hrun, -, hall, -⟩ := rollups_exact hone
  rw [hrun 7 r "a" hr hinst, hall rfl]

end Ledger

end Hekma
