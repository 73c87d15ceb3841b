/-
**Chained evaluations and the latch** (`domain/governance.rs`).

An evaluation hands back the latch it leaves, and a consumer feeds it to the next one.  The latch
after an evaluation is the latch before it, each pair once and in order, followed by the pairs that
the evaluation fired.  So over a chain of evaluations a pair fires at most once, whatever the
totals, the ceilings and the actions of the single evaluations are.

Main definitions:

* `GovernanceDecision.key` — the pair a decision spends;
* `Fired` — an outcome that was continued by some decisions;
* `Chained` — evaluations each of which is given the latch of the one before.

Main results:

* `fired_decide` — what an evaluation appends, to its decisions and to the latch alike;
* `chained_fresh` — a chain fires no pair that is latched at its start, and no pair twice;
* `latch_chain` — the three laws of the latch together.
-/

import Hekma.Domain.Governance

set_option relaxedAutoImplicit false
set_option autoImplicit false

namespace Hekma

namespace Governance

/-- The pair a decision spends. -/
def GovernanceDecision.key (dec : GovernanceDecision) : LatchKey := ⟨dec.dimension, dec.scope⟩

/-! ### Normalizing a latch -/

/-- One step of the scan keeps the order of what it has seen and of what it reads. -/
theorem normalize_foldl_sublist (keys seen : List LatchKey) :
    (keys.foldl (fun seen key => if key ∈ seen then seen else seen ++ [key]) seen).Sublist
      (seen ++ keys) := by
  induction keys generalizing seen with
  | nil => rw [List.foldl_nil, List.append_nil]
  | cons k keys ih =>
      rw [List.foldl_cons]
      by_cases hk : k ∈ seen
      · rw [if_pos hk]
        exact (ih seen).trans (List.Sublist.append_left (List.sublist_cons_self k keys) seen)
      · rw [if_neg hk]
        have h := ih (seen ++ [k])
        rwa [List.append_assoc, List.singleton_append] at h

theorem normalize_foldl_nodup (keys : List LatchKey) {seen : List LatchKey} (h : seen.Nodup) :
    (keys.foldl (fun seen key => if key ∈ seen then seen else seen ++ [key]) seen).Nodup := by
  induction keys generalizing seen with
  | nil => exact h
  | cons k keys ih =>
      rw [List.foldl_cons]
      by_cases hk : k ∈ seen
      · rw [if_pos hk]
        exact ih h
      · rw [if_neg hk]
        refine ih (h.append (List.nodup_singleton k) ?_)
        intro x hx hxk
        rw [List.mem_singleton] at hxk
        exact hk (hxk ▸ hx)

/-- A scan that meets no pair again keeps everything. -/
theorem normalize_foldl_eq (keys : List LatchKey) {seen : List LatchKey}
    (h : (seen ++ keys).Nodup) :
    keys.foldl (fun seen key => if key ∈ seen then seen else seen ++ [key]) seen =
      seen ++ keys := by
  induction keys generalizing seen with
  | nil => rw [List.foldl_nil, List.append_nil]
  | cons k keys ih =>
      have hk : k ∉ seen := fun hk => List.disjoint_of_nodup_append h hk List.mem_cons_self
      have hassoc : seen ++ k :: keys = seen ++ [k] ++ keys := by simp
      rw [List.foldl_cons, if_neg hk, hassoc]
      exact ih (hassoc ▸ h)

theorem normalizeLatched_sublist (keys : List LatchKey) :
    (normalizeLatched keys).Sublist keys :=
  normalize_foldl_sublist keys []

theorem normalizeLatched_nodup (keys : List LatchKey) : (normalizeLatched keys).Nodup :=
  normalize_foldl_nodup keys List.nodup_nil

/-- A latch without repetitions is kept as it is. -/
theorem normalizeLatched_eq {keys : List LatchKey} (h : keys.Nodup) :
    normalizeLatched keys = keys :=
  normalize_foldl_eq keys h

/-! ### What an evaluation appends -/

/-- `decs` were appended to the decisions, and their pairs, new and each once, to the latch. -/
structure Fired (out : GovernanceOutcome) (decs : List GovernanceDecision)
    (out' : GovernanceOutcome) : Prop where
  decisions : out'.decisions = out.decisions ++ decs
  latched : out'.latchedAfter = out.latchedAfter ++ decs.map GovernanceDecision.key
  nodup : out.latchedAfter.Nodup → out'.latchedAfter.Nodup

theorem Fired.trans {out out' out'' : GovernanceOutcome} {decs decs' : List GovernanceDecision}
    (h : Fired out decs out') (h' : Fired out' decs' out'') : Fired out (decs ++ decs') out'' where
  decisions := by rw [h'.decisions, h.decisions, List.append_assoc]
  latched := by rw [h'.latched, h.latched, List.map_append, List.append_assoc]
  nodup := fun hn => h'.nodup (h.nodup hn)

/-- A verdict fires at most one decision, of its own dimension. -/
theorem fired_applyVerdict_exists (out : GovernanceOutcome) (d : BreachDimension)
    (v : BreachDecision) :
    ∃ decs, Fired out decs (applyVerdict out d v) ∧
      (decs.map GovernanceDecision.dimension).Sublist [d] := by
  cases v with
  | withinBudget =>
      refine ⟨[], ⟨(List.append_nil _).symm, (List.append_nil _).symm, id⟩, ?_⟩
      exact List.nil_sublist _
  | breached scope action limit observed =>
      rw [applyVerdict, fireUnlessLatched]
      split
      · refine ⟨[], ⟨(List.append_nil _).symm, (List.append_nil _).symm, id⟩, ?_⟩
        exact List.nil_sublist _
      · rename_i hnew
        refine ⟨[⟨d, scope, action, limit, observed⟩], ⟨rfl, rfl, fun hn => ?_⟩, ?_⟩
        · refine hn.append (List.nodup_singleton _) ?_
          intro x hx hxk
          rw [List.mem_singleton] at hxk
          exact hnew (hxk ▸ hx)
        · exact List.Sublist.refl _

/-- **What an evaluation appends**: at most one decision for each dimension, the token one first,
to the latch of its input with each pair once. -/
theorem fired_decide (input : GovernanceInput) :
    Fired ⟨[], normalizeLatched input.latched⟩ (decide input).decisions (decide input) ∧
      ((decide input).decisions.map GovernanceDecision.dimension).Sublist [.tokens, .dollars] := by
  obtain ⟨ts, ht, hts⟩ :=
    fired_applyVerdict_exists ⟨[], normalizeLatched input.latched⟩ .tokens (input.verdict .tokens)
  obtain ⟨ds, hd, hds⟩ := fired_applyVerdict_exists
    (applyVerdict ⟨[], normalizeLatched input.latched⟩ .tokens (input.verdict .tokens)) .dollars
    (input.verdict .dollars)
  have hall := ht.trans hd
  rw [← decide_eq] at hall
  have hdecs : (decide input).decisions = ts ++ ds := by
    rw [hall.decisions, List.nil_append]
  rw [hdecs]
  refine ⟨hall, ?_⟩
  rw [List.map_append]
  exact hts.append hds

/-- The latch an evaluation leaves. -/
theorem latchedAfter_eq (input : GovernanceInput) :
    (decide input).latchedAfter =
      normalizeLatched input.latched ++ (decide input).decisions.map GovernanceDecision.key :=
  (fired_decide input).1.latched

theorem latchedAfter_nodup (input : GovernanceInput) : (decide input).latchedAfter.Nodup :=
  (fired_decide input).1.nodup (normalizeLatched_nodup _)

/-! ### Chains of evaluations -/

/-- Each evaluation is given the latch the one before it left. -/
def Chained (inputs : List GovernanceInput) : Prop :=
  inputs.IsChain fun prev next => next.latched = (decide prev).latchedAfter

/-- The pairs fired by some evaluations, in order. -/
def firedKeys (inputs : List GovernanceInput) : List LatchKey :=
  inputs.flatMap fun input => (decide input).decisions.map GovernanceDecision.key

/-- An evaluation fires no pair twice, and none that its input has latched. -/
theorem decide_fresh (input : GovernanceInput) :
    ((decide input).decisions.map GovernanceDecision.key).Nodup ∧
      ∀ key ∈ (decide input).decisions.map GovernanceDecision.key, key ∉ input.latched := by
  have hnodup := latchedAfter_nodup input
  rw [latchedAfter_eq] at hnodup
  refine ⟨hnodup.of_append_right, fun key hkey hold => ?_⟩
  exact List.disjoint_of_nodup_append hnodup ((mem_normalizeLatched _ _).2 hold) hkey

/-- **A chain of evaluations** fires no pair twice, and none that is latched at its start.  The
induction is on the chain: what fires first is latched for everything that follows. -/
theorem chained_fresh (inputs : List GovernanceInput) (h : Chained inputs) :
    (firedKeys inputs).Nodup ∧
      ∀ first ∈ inputs.head?, ∀ key ∈ firedKeys inputs, key ∉ first.latched := by
  induction inputs with
  | nil => exact ⟨List.nodup_nil, fun first hfirst => absurd hfirst (by simp)⟩
  | cons input rest ih =>
      obtain ⟨hnodup, hlater⟩ := ih (List.IsChain.tail h)
      obtain ⟨hown, hfresh⟩ := decide_fresh input
      -- what fires later is outside the latch that this evaluation leaves
      have hafter : ∀ key ∈ firedKeys rest, key ∉ (decide input).latchedAfter := by
        intro key hkey
        cases rest with
        | nil => exact absurd hkey List.not_mem_nil
        | cons next rest =>
            have hnext : next.latched = (decide input).latchedAfter :=
              (List.isChain_cons_cons.1 h).1
            rw [← hnext]
            exact hlater next rfl key hkey
      have hkeys : firedKeys (input :: rest) =
          (decide input).decisions.map GovernanceDecision.key ++ firedKeys rest :=
        List.flatMap_cons
      rw [hkeys]
      constructor
      · refine hown.append hnodup fun key hkey hrest => hafter key hrest ?_
        rw [latchedAfter_eq]
        exact List.mem_append_right _ hkey
      · intro first hfirst key hkey
        obtain rfl : input = first := by simpa using hfirst
        rcases List.mem_append.1 hkey with hkey | hkey
        · exact hfresh key hkey
        · intro hold
          refine hafter key hkey ?_
          rw [latchedAfter_eq]
          exact List.mem_append_left _ ((mem_normalizeLatched _ _).2 hold)

/-- **The laws of the latch.**  An evaluation leaves every pair of its latch, in order and each
once, followed by the pairs of its decisions in their order; it fires at most one decision for a
dimension, tokens before dollars; and a chain of evaluations fires each pair at most once. -/
theorem latch_chain :
    (∀ input : GovernanceInput, ∃ kept : List LatchKey,
      (decide input).latchedAfter =
          kept ++ (decide input).decisions.map GovernanceDecision.key ∧
        kept.Sublist input.latched ∧ (∀ key ∈ input.latched, key ∈ kept) ∧
        (input.latched.Nodup → kept = input.latched) ∧ (decide input).latchedAfter.Nodup) ∧
    (∀ input : GovernanceInput,
      ((decide input).decisions.map GovernanceDecision.dimension).Sublist [.tokens, .dollars]) ∧
    ∀ inputs : List GovernanceInput, Chained inputs →
      ((inputs.flatMap fun input => (decide input).decisions).map
        GovernanceDecision.key).Nodup := by
  refine ⟨fun input => ?_, fun input => (fired_decide input).2, fun inputs h => ?_⟩
  · refine ⟨normalizeLatched input.latched, latchedAfter_eq input, normalizeLatched_sublist _,
      fun key hkey => (mem_normalizeLatched _ _).2 hkey, normalizeLatched_eq,
      latchedAfter_nodup input⟩
  · rw [List.map_flatMap]
    exact (chained_fresh inputs h).1

/-- Totals that reach both ceilings one after the other, with the ceilings and the action changed
in between. -/
def risingTotals : List GovernanceInput :=
  [{ token := some ⟨120, 120, ⟨some 100, some 1000⟩, .pause⟩, dollar := none, latched := [] },
    { token := some ⟨90, 1200, ⟨some 100, some 1000⟩, .stop⟩, dollar := none
      latched := [⟨.tokens, .perRun⟩] },
    { token := some ⟨150, 1500, ⟨some 50, some 60⟩, .block⟩, dollar := none
      latched := [⟨.tokens, .perRun⟩, ⟨.tokens, .cumulative⟩] }]

/-- They fire two pairs, once each. -/
theorem latch_chain_rising :
    ((risingTotals.flatMap fun input => (decide input).decisions).map
        GovernanceDecision.key).Nodup ∧
      firedKeys risingTotals = [⟨.tokens, .perRun⟩, ⟨.tokens, .cumulative⟩] := by
  refine ⟨latch_chain.2.2 risingTotals ?_, by decide⟩
  exact List.isChain_cons_cons.2 ⟨by decide, List.isChain_cons_cons.2 ⟨by decide, by simp⟩⟩

end Governance

end Hekma
