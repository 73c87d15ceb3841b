/-
**The wire fence** (`metering/fence.rs`, `domain/governance.rs`).

A breach of a ceiling whose action is to block raises the fence of the Run, and the proxy refuses
every call from then on.  The fence is one word with a bit for each reason, which the pipeline sets
and the proxy loads, both without a lock.  What it refuses with is decided by a function on the
reasons that have been raised, which a host's guard shares.

Main definitions:

* `Metering.fenceReasonOrder`, `Metering.fenceRefusal` — the decision;
* `Metering.WireFence.raise`, `Metering.WireFence.refusal` — the word.

Main results:

* `Metering.WireFence.mem_reasons_raiseAll` — the bits are the reasons that have been raised;
* `Metering.fenceRefusal_eq_none` — the decision refuses nothing while no reason is raised;
* `Metering.WireFence.refusal_raiseAll` — **the word decides as the reasons do**, whatever the
  order they were raised in and however often.
-/

import Hekma.Domain.Governance

set_option relaxedAutoImplicit false
set_option autoImplicit false

namespace Hekma

namespace Metering

open Governance (BreachDimension LatchKey)

/-! ### The decision -/

/-- Tokens before dollars, and a Run before the lifetime. -/
def fenceReasonOrder : List LatchKey :=
  [⟨.tokens, .perRun⟩, ⟨.tokens, .cumulative⟩, ⟨.dollars, .perRun⟩, ⟨.dollars, .cumulative⟩]

def fenceCode : LatchKey → String
  | ⟨.tokens, .perRun⟩ => "tokens_per_run"
  | ⟨.tokens, .cumulative⟩ => "tokens_cumulative"
  | ⟨.dollars, .perRun⟩ => "dollars_per_run"
  | ⟨.dollars, .cumulative⟩ => "dollars_cumulative"

structure FenceRefusal where
  status : ℕ
  errorType : String
  code : String
  dimension : BreachDimension
  scope : BreachScope
  deriving DecidableEq

/-- The refusal for the reasons that have been raised: the first one in the order is reported. -/
def fenceRefusal (reasons : List LatchKey) : Option FenceRefusal :=
  (fenceReasonOrder.find? fun candidate => candidate ∈ reasons).map fun reason =>
    ⟨402, "hekma_budget_block", fenceCode reason, reason.dimension, reason.scope⟩

/-! ### The word -/

/-- The place of a reason in the order. -/
def reasonIndex (reason : LatchKey) : ℕ := fenceReasonOrder.idxOf reason

def reasonBit (reason : LatchKey) : BitVec 8 := 1#8 <<< reasonIndex reason

def reasonsFromBits (bits : BitVec 8) : List LatchKey :=
  (fenceReasonOrder.zipIdx.filter fun p => bits &&& 1#8 <<< p.2 ≠ 0#8).map Prod.fst

structure WireFence where
  bits : BitVec 8

namespace WireFence

/-- The fence of a new Run. -/
def default : WireFence := ⟨0#8⟩

def raise (fence : WireFence) (reason : LatchKey) : WireFence := ⟨fence.bits ||| reasonBit reason⟩

def reasons (fence : WireFence) : List LatchKey := reasonsFromBits fence.bits

def refusal (fence : WireFence) : Option FenceRefusal :=
  if fence.bits = 0#8 then none else fenceRefusal fence.reasons

end WireFence

/-! ### The answer of a refused call -/

/-- How a scope and a dimension are written on the wire. -/
def scopeStr : BreachScope → String
  | .perRun => "per-run"
  | .cumulative => "cumulative"

def dimensionStr : BreachDimension → String
  | .tokens => "tokens"
  | .dollars => "dollars"

/-- The message of a refusal.  Nothing of the traffic is in it. -/
def refusalMessage (refusal : FenceRefusal) : String :=
  let dimension := match refusal.dimension with
    | .tokens => "token"
    | .dollars => "dollar"
  "Hekma budget fence: this agent's " ++ scopeStr refusal.scope ++ " " ++ dimension ++
    " ceiling is reached, so further model calls are refused. This is not retryable; the " ++
    "operator raises the ceiling or starts a new Run."

/-- A member of a compact object whose value needs no escape. -/
def member (key value : String) : String := "\x22" ++ key ++ "\x22:\x22" ++ value ++ "\x22"

def refusalBody (refusal : FenceRefusal) : String :=
  "\x7b" ++ member "type" "error" ++ ",\x22error\x22:\x7b" ++
    member "type" refusal.errorType ++ "," ++ member "code" refusal.code ++ "," ++
    member "message" (refusalMessage refusal) ++ ",\x22param\x22:null," ++
    member "dimension" (dimensionStr refusal.dimension) ++ "," ++
    member "scope" (scopeStr refusal.scope) ++ "," ++ member "proxy_wire" "v1" ++ "\x7d\x7d"

/-! ### What the decision reports -/

theorem mem_fenceReasonOrder (reason : LatchKey) : reason ∈ fenceReasonOrder := by
  rcases reason with ⟨_ | _, _ | _⟩ <;> decide

variable {reasons others : List LatchKey} {reason : LatchKey}

theorem fenceRefusal_eq_none : fenceRefusal reasons = none ↔ reasons = [] := by
  rw [fenceRefusal, Option.map_eq_none_iff, List.find?_eq_none]
  constructor
  · intro h
    rw [List.eq_nil_iff_forall_not_mem]
    intro reason hmem
    exact h reason (mem_fenceReasonOrder reason) (decide_eq_true hmem)
  · rintro rfl reason -
    simp

/-- The decision does not look at the order of the reasons, nor at how often one is there. -/
theorem fenceRefusal_congr (h : ∀ reason, reason ∈ reasons ↔ reason ∈ others) :
    fenceRefusal reasons = fenceRefusal others := by
  unfold fenceRefusal
  simp only [h]

/-! ### The bits of the word -/

theorem mem_zipIdx {reason : LatchKey} {i : ℕ} :
    (reason, i) ∈ fenceReasonOrder.zipIdx ↔ i = reasonIndex reason := by
  rcases reason with ⟨_ | _, _ | _⟩ <;> simp [fenceReasonOrder] <;> exact Iff.rfl

theorem reasonIndex_lt (reason : LatchKey) : reasonIndex reason < 8 := by
  rcases reason with ⟨_ | _, _ | _⟩ <;> decide

theorem reasonIndex_inj {reason other : LatchKey} :
    reasonIndex reason = reasonIndex other ↔ reason = other := by
  rcases reason with ⟨_ | _, _ | _⟩ <;> rcases other with ⟨_ | _, _ | _⟩ <;> decide

theorem getLsbD_bit {i j : ℕ} (hi : i < 8) :
    (1#8 <<< i).getLsbD j = decide (i = j) := by
  have hbit : (1#8 <<< i) = BitVec.twoPow 8 i := (BitVec.twoPow_eq 8 i).symm
  rw [hbit, BitVec.getLsbD_twoPow, decide_eq_true hi, Bool.true_and]

theorem and_bit_ne_zero (bits : BitVec 8) {i : ℕ} (hi : i < 8) :
    bits &&& 1#8 <<< i ≠ 0#8 ↔ bits.getLsbD i = true := by
  have hand : ∀ j, (bits &&& 1#8 <<< i).getLsbD j = (bits.getLsbD j && decide (i = j)) := by
    intro j
    rw [BitVec.getLsbD_and, getLsbD_bit hi]
  constructor
  · intro hne
    by_contra hbit
    refine hne (BitVec.eq_of_getLsbD_eq fun j _ => ?_)
    rw [hand, BitVec.getLsbD_zero]
    by_cases hij : i = j
    · subst hij
      rw [Bool.eq_false_iff.2 hbit, Bool.false_and]
    · rw [decide_eq_false hij, Bool.and_false]
  · intro hbit hzero
    have h := hand i
    rw [hzero, hbit, BitVec.getLsbD_zero] at h
    simp at h

namespace WireFence

variable {fence : WireFence}

theorem mem_reasons :
    reason ∈ fence.reasons ↔ fence.bits.getLsbD (reasonIndex reason) = true := by
  rw [reasons, reasonsFromBits, List.mem_map, ← and_bit_ne_zero _ (reasonIndex_lt reason)]
  constructor
  · rintro ⟨⟨found, i⟩, hin, rfl⟩
    obtain ⟨hzip, hbit⟩ := List.mem_filter.1 hin
    obtain rfl := mem_zipIdx.1 hzip
    exact of_decide_eq_true hbit
  · intro hbit
    exact ⟨(reason, reasonIndex reason),
      List.mem_filter.2 ⟨mem_zipIdx.2 rfl, decide_eq_true hbit⟩, rfl⟩

theorem mem_reasons_raise (added : LatchKey) :
    reason ∈ (fence.raise added).reasons ↔ reason ∈ fence.reasons ∨ reason = added := by
  rw [mem_reasons, mem_reasons, raise, BitVec.getLsbD_or, reasonBit,
    getLsbD_bit (reasonIndex_lt added), Bool.or_eq_true, decide_eq_true_iff, reasonIndex_inj,
    eq_comm (a := added)]

/-- The bits are the reasons that have been raised. -/
theorem mem_reasons_raiseAll (raised : List LatchKey) :
    reason ∈ (raised.foldl raise fence).reasons ↔ reason ∈ fence.reasons ∨ reason ∈ raised := by
  induction raised generalizing fence with
  | nil => simp
  | cons added raised ih =>
      rw [List.foldl_cons, ih, mem_reasons_raise, List.mem_cons, or_assoc]

theorem refusal_eq (fence : WireFence) : fence.refusal = fenceRefusal fence.reasons := by
  unfold refusal
  split
  · next hzero =>
      refine (fenceRefusal_eq_none.2 (List.eq_nil_iff_forall_not_mem.2 fun reason hin => ?_)).symm
      rw [mem_reasons, hzero, BitVec.getLsbD_zero] at hin
      cases hin
  · rfl

/-- **The word decides as the reasons do**, whatever the order they were raised in. -/
theorem refusal_raiseAll (raised : List LatchKey) :
    (raised.foldl raise default).refusal = fenceRefusal raised := by
  rw [refusal_eq]
  refine fenceRefusal_congr fun reason => ?_
  rw [mem_reasons_raiseAll, mem_reasons]
  exact or_iff_right (by simp [default])

end WireFence

end Metering

end Hekma
