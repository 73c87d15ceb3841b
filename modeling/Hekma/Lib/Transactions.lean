/-
**Transactions that a crash may cut.**

A program is a list of transactions.  Each looks at the state when it begins, and may step aside;
otherwise its statements work on a copy of the state, and the commit makes the copy durable.  A
statement that fails rolls its transaction back, and the program ends there.  A crash keeps what is
durable.

Main definitions:

* `Txn`, `Txn.run`, `Txn.runAll` — transactions, and what they do when nothing cuts them;
* `Txn.Conn`, `Txn.play` — the operations of a program one by one.

Main results:

* `Txn.play_ops` — a transaction that is not cut;
* `Txn.durable_cut` — a program that is cut anywhere has done its first transactions.
-/

import Mathlib.Data.List.Basic

set_option relaxedAutoImplicit false
set_option autoImplicit false

namespace Hekma

/-- A transaction: when it steps aside, and its statements. -/
structure Txn (σ : Type) where
  aside : σ → Bool
  body : List (σ → Option σ)

namespace Txn

variable {σ : Type}

/-- The statements, one after the other. -/
def exec (body : List (σ → Option σ)) (s : σ) : Option σ := body.foldlM (fun s f => f s) s

/-- A transaction that is not cut; `none` if a statement fails. -/
def run (t : Txn σ) (s : σ) : Option σ := if t.aside s then some s else exec t.body s

/-- The transactions, one after the other. -/
def runAll (ts : List (Txn σ)) (s : σ) : Option σ := ts.foldlM (fun s t => t.run s) s

/-! ### Operations -/

/-- Where a connection is in its program. -/
inductive Mode (σ : Type) where
  | idle
  | working (copy : σ)
  | aside
  | failed

/-- The durable state and the mode. -/
structure Conn (σ : Type) where
  durable : σ
  mode : Mode σ

inductive Op (σ : Type) where
  | begin (aside : σ → Bool)
  | exec (statement : σ → Option σ)
  | commit

/-- One operation. -/
def step (c : Conn σ) : Op σ → Conn σ
  | .begin aside =>
      match c.mode with
      | .idle => ⟨c.durable, if aside c.durable then .aside else .working c.durable⟩
      | _ => c
  | .exec statement =>
      match c.mode with
      | .working copy =>
          match statement copy with
          | some copy' => ⟨c.durable, .working copy'⟩
          | none => ⟨c.durable, .failed⟩
      | _ => c
  | .commit =>
      match c.mode with
      | .working copy => ⟨copy, .idle⟩
      | .aside => ⟨c.durable, .idle⟩
      | _ => c

def play (ops : List (Op σ)) (c : Conn σ) : Conn σ := ops.foldl step c

/-- The operations of a transaction. -/
def ops (t : Txn σ) : List (Op σ) := (.begin t.aside :: t.body.map .exec) ++ [.commit]

/-- What is durable when a program is cut after `n` operations. -/
def durableAfter (ts : List (Txn σ)) (n : ℕ) (s : σ) : σ :=
  (play ((ts.flatMap ops).take n) ⟨s, .idle⟩).durable

/-! ### One transaction -/

variable {s s' : σ} {t : Txn σ} {ts : List (Txn σ)}

theorem play_failed (ops : List (Op σ)) (s : σ) : play ops ⟨s, .failed⟩ = ⟨s, .failed⟩ := by
  induction ops with
  | nil => rfl
  | cons op ops ih => cases op <;> exact ih

theorem play_aside (body : List (σ → Option σ)) (s : σ) :
    play (body.map .exec) ⟨s, .aside⟩ = ⟨s, .aside⟩ := by
  induction body with
  | nil => rfl
  | cons f body ih => exact ih

theorem play_exec (body : List (σ → Option σ)) (s copy : σ) :
    play (body.map .exec) ⟨s, .working copy⟩ =
      ⟨s, (exec body copy).elim .failed .working⟩ := by
  induction body generalizing copy with
  | nil => rfl
  | cons f body ih =>
      cases hf : f copy with
      | none =>
          have hexec : exec (f :: body) copy = none := by simp [exec, hf]
          rw [hexec]
          change play (body.map .exec) (step ⟨s, .working copy⟩ (.exec f)) = _
          simp only [step, hf]
          exact play_failed _ _
      | some copy' =>
          have hexec : exec (f :: body) copy = exec body copy' := by simp [exec, hf]
          rw [hexec, ← ih]
          change play (body.map .exec) (step ⟨s, .working copy⟩ (.exec f)) = _
          simp only [step, hf]

theorem play_append (ops more : List (Op σ)) (c : Conn σ) :
    play (ops ++ more) c = play more (play ops c) :=
  List.foldl_append

/-- **A transaction that is not cut** is committed, or it has failed. -/
theorem play_ops (t : Txn σ) (s : σ) :
    play t.ops ⟨s, .idle⟩ = (t.run s).elim ⟨s, .failed⟩ fun s' => ⟨s', .idle⟩ := by
  have hbegin : play (.begin t.aside :: t.body.map .exec) ⟨s, .idle⟩ =
      play (t.body.map .exec) ⟨s, if t.aside s then .aside else .working s⟩ := rfl
  unfold run
  rw [ops, play_append, hbegin]
  split
  · rw [play_aside]
    rfl
  · rw [play_exec]
    cases exec t.body s <;> rfl

/-- Before its commit a transaction has made nothing durable. -/
theorem durable_exec (body : List (σ → Option σ)) (c : Conn σ) :
    (play (body.map .exec) c).durable = c.durable := by
  induction body generalizing c with
  | nil => rfl
  | cons f body ih =>
      refine (ih (step c (.exec f))).trans ?_
      simp only [step]
      cases c.mode with
      | working copy =>
          dsimp only
          cases f copy <;> rfl
      | _ => rfl

theorem durable_partial (t : Txn σ) (s : σ) {n : ℕ} (hn : n < t.ops.length) :
    (play (t.ops.take n) ⟨s, .idle⟩).durable = s := by
  cases n with
  | zero => rfl
  | succ n =>
      rw [ops, List.length_append, List.length_cons, List.length_map, List.length_singleton] at hn
      rw [ops, List.take_append_of_le_length (by simp; omega), List.take_succ_cons,
        ← List.map_take]
      refine (durable_exec (t.body.take n) (step ⟨s, .idle⟩ (.begin t.aside))).trans rfl

/-! ### Programs -/

/-- **A program that is cut anywhere** has done its first transactions, and nothing else. -/
theorem durable_cut (ts : List (Txn σ)) (n : ℕ) (s : σ) :
    ∃ k ≤ ts.length, runAll (ts.take k) s = some (durableAfter ts n s) := by
  induction ts generalizing n s with
  | nil =>
      refine ⟨0, Nat.le_refl _, ?_⟩
      simp [runAll, durableAfter, play]
  | cons t ts ih =>
      rcases Nat.lt_or_ge n t.ops.length with hn | hn
      · refine ⟨0, Nat.zero_le _, ?_⟩
        have hsame : durableAfter (t :: ts) n s = s := by
          unfold durableAfter
          rw [List.flatMap_cons, List.take_append_of_le_length (Nat.le_of_lt hn)]
          exact durable_partial t s hn
        rw [hsame]
        rfl
      · have htake : durableAfter (t :: ts) n s =
            (play ((ts.flatMap ops).take (n - t.ops.length))
              ((t.run s).elim ⟨s, .failed⟩ fun s' => ⟨s', .idle⟩)).durable := by
          unfold durableAfter
          rw [List.flatMap_cons, List.take_append, List.take_of_length_le hn, play_append,
            play_ops]
        cases hrun : t.run s with
        | none =>
            refine ⟨0, Nat.zero_le _, ?_⟩
            rw [htake, hrun]
            exact congrArg some (congrArg Conn.durable (play_failed _ s)).symm
        | some s' =>
            obtain ⟨k, hk, hdone⟩ := ih (n - t.ops.length) s'
            refine ⟨k + 1, Nat.succ_le_succ hk, ?_⟩
            rw [htake, hrun]
            have hcons : runAll ((t :: ts).take (k + 1)) s = runAll (ts.take k) s' := by
              simp [runAll, hrun]
            rw [hcons, hdone]
            rfl

theorem runAll_append (ts ts' : List (Txn σ)) (s : σ) :
    runAll (ts ++ ts') s = (runAll ts s).bind (runAll ts') :=
  List.foldlM_append

end Txn

end Hekma
