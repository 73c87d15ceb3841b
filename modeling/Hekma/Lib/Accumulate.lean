/-
**Accumulating by key.**

A batch of amounts is often folded into a table in two stages: the amounts of one key are first
collected in a small map, and the map is then spread over further keys and added to the table.
When adding is lossy at the top of a range, it is not obvious that the stages give what adding the
amounts one by one would give.  It is so as soon as adding is the image of an exact sum: this
module carries the exact sums along.

Main definitions:

* `Accumulate.upsert`, `Accumulate.collect` — updating the entry of a key, and collecting amounts;
* `Accumulate.addTo` — adding a map to a table;
* `Accumulate.total` — the exact weighted sum of a map;
* `Accumulate.IsImage` — adding is the image of an exact sum.

Main results:

* `Accumulate.total_collect` — collecting keeps every weighted sum;
* `Accumulate.collect_map`, `Accumulate.addTo_map` — the lossy computation is the image of the
  exact one;
* `Accumulate.addTo_spread` — **two stages**: collect, spread, collect and add.
-/

import Mathlib.Tactic

set_option relaxedAutoImplicit false
set_option autoImplicit false

namespace Accumulate

variable {κ κ' M N : Type} [DecidableEq κ]

/-- Update the entry of a key, starting from `d` when it has none. -/
def upsert (m : List (κ × N)) (k : κ) (d : N) (f : N → N) : List (κ × N) :=
  match m with
  | [] => [(k, f d)]
  | (k', n) :: m => if k' = k then (k', f n) :: m else (k', n) :: upsert m k d f

/-- Collect a list of amounts by key. -/
def collect (zero : N) (add : N → N → N) (m es : List (κ × N)) : List (κ × N) :=
  es.foldl (fun m e => upsert m e.1 zero fun n => add n e.2) m

/-- Add a map to a table. -/
def addTo (add : N → N → N) (table : κ → N) (m : List (κ × N)) : κ → N :=
  m.foldl (fun table e => Function.update table e.1 (add (table e.1) e.2)) table

/-! ### Exact sums -/

section Exact

variable [AddCommMonoid M]

omit [DecidableEq κ] in
/-- The sum of a map in which the key `k` counts `c k` times. -/
def total (m : List (κ × M)) (c : κ → ℕ) : M := (m.map fun e => c e.1 • e.2).sum

omit [DecidableEq κ] in
@[simp] theorem total_nil (c : κ → ℕ) : total ([] : List (κ × M)) c = 0 := rfl

omit [DecidableEq κ] in
@[simp] theorem total_cons (e : κ × M) (m : List (κ × M)) (c : κ → ℕ) :
    total (e :: m) c = c e.1 • e.2 + total m c := by
  simp [total]

omit [DecidableEq κ] in
@[simp] theorem total_append (m m' : List (κ × M)) (c : κ → ℕ) :
    total (m ++ m') c = total m c + total m' c := by
  simp [total]

theorem total_upsert (m : List (κ × M)) (k : κ) (x : M) (c : κ → ℕ) :
    total (upsert m k 0 (· + x)) c = total m c + c k • x := by
  induction m with
  | nil => simp [upsert]
  | cons e m ih =>
      obtain ⟨k', n⟩ := e
      by_cases h : k' = k
      · subst h
        simp only [upsert, if_pos, total_cons, smul_add]
        abel
      · simp only [upsert, if_neg h, total_cons, ih]
        abel

/-- Collecting keeps every weighted sum. -/
theorem total_collect (m es : List (κ × M)) (c : κ → ℕ) :
    total (collect 0 (· + ·) m es) c = total m c + total es c := by
  induction es generalizing m with
  | nil => simp [collect]
  | cons e es ih =>
      have hstep : collect 0 (· + ·) m (e :: es) =
          collect 0 (· + ·) (upsert m e.1 0 (· + e.2)) es := rfl
      rw [hstep, ih, total_upsert, total_cons]
      abel

omit [DecidableEq κ] in
/-- A map spread over other keys: every key contributes its amount to each key of a list. -/
theorem total_spread (m : List (κ × M)) (spread : κ → List κ') (c : κ' → ℕ) :
    total (m.flatMap fun e => (spread e.1).map fun k => (k, e.2)) c =
      total m fun k => ((spread k).map c).sum := by
  have hone : ∀ (ks : List κ') (x : M),
      total (ks.map fun k => (k, x)) c = (ks.map c).sum • x := by
    intro ks x
    induction ks with
    | nil => simp
    | cons k ks ih => simp only [List.map_cons, total_cons, ih, List.sum_cons, add_smul]
  induction m with
  | nil => rfl
  | cons e m ih => rw [List.flatMap_cons, total_append, ih, hone, total_cons]

/-- How often a key is itself. -/
def single (k : κ) : κ → ℕ := fun k' => if k' = k then 1 else 0

/-- The table after a map was added to it. -/
theorem addTo_total (table : κ → M) (m : List (κ × M)) (k : κ) :
    addTo (· + ·) table m k = table k + total m (single k) := by
  induction m generalizing table with
  | nil => simp [addTo]
  | cons e m ih =>
      have hstep : addTo (· + ·) table (e :: m) =
          addTo (· + ·) (Function.update table e.1 (table e.1 + e.2)) m := rfl
      rw [hstep, ih, total_cons, ← add_assoc]
      congr 1
      by_cases h : k = e.1
      · subst h
        simp [single]
      · rw [Function.update_of_ne h]
        simp [single, Ne.symm h]

end Exact

/-! ### Lossy sums -/

/-- Adding is the image of an exact sum under `φ`. -/
structure IsImage [AddCommMonoid M] (φ : M → N) (zero : N) (add : N → N → N) : Prop where
  map_zero : φ 0 = zero
  map_add : ∀ x y, φ (x + y) = add (φ x) (φ y)

section Lossy

variable [AddCommMonoid M] {φ : M → N} {zero : N} {add : N → N → N}

/-- The image of an exact map. -/
def image (φ : M → N) (m : List (κ × M)) : List (κ × N) := m.map fun e => (e.1, φ e.2)

theorem upsert_map (h : IsImage φ zero add) (m : List (κ × M)) (k : κ) (x : M) :
    upsert (image φ m) k zero (add · (φ x)) = image φ (upsert m k 0 (· + x)) := by
  induction m with
  | nil =>
      have hx : add zero (φ x) = φ (0 + x) := by rw [h.map_add, h.map_zero]
      simp only [upsert, image, List.map_nil, List.map_cons, hx]
  | cons e m ih =>
      obtain ⟨k', n⟩ := e
      by_cases hk : k' = k
      · simp [upsert, image, hk, h.map_add]
      · simp only [image] at ih
        simp [upsert, image, hk, ih]

/-- Collecting the images is the image of collecting. -/
theorem collect_map (h : IsImage φ zero add) (m es : List (κ × M)) :
    collect zero add (image φ m) (image φ es) = image φ (collect 0 (· + ·) m es) := by
  induction es generalizing m with
  | nil => rfl
  | cons e es ih =>
      have hstep : collect zero add (image φ m) (image φ (e :: es)) =
          collect zero add (upsert (image φ m) e.1 zero (add · (φ e.2))) (image φ es) := rfl
      rw [hstep, upsert_map h, ih]
      rfl

/-- Adding the image of a map to the image of a table. -/
theorem addTo_map (h : IsImage φ zero add) (table : κ → M) (m : List (κ × M)) :
    addTo add (fun k => φ (table k)) (image φ m) = fun k => φ (addTo (· + ·) table m k) := by
  induction m generalizing table with
  | nil => rfl
  | cons e m ih =>
      have hupdate : Function.update (fun k => φ (table k)) e.1 (add (φ (table e.1)) (φ e.2)) =
          fun k => φ (Function.update table e.1 (table e.1 + e.2) k) := by
        funext k
        by_cases hk : k = e.1
        · subst hk
          simp [h.map_add]
        · simp [Function.update_of_ne hk]
      have hstep : addTo add (fun k => φ (table k)) (image φ (e :: m)) =
          addTo add (Function.update (fun k => φ (table k)) e.1 (add (φ (table e.1)) (φ e.2)))
            (image φ m) := rfl
      rw [hstep, hupdate, ih]
      rfl

/-- In **two stages**, amounts collected by key, spread over further keys, collected again and added
to a table give the image of the exact sum: a key receives an amount as often as the amount's own
key spreads to it. -/
theorem addTo_spread [DecidableEq κ'] (h : IsImage φ zero add) (table : κ' → M)
    (es : List (κ × M)) (spread : κ → List κ') (k : κ') :
    addTo add (fun k => φ (table k))
      (collect zero add [] ((collect zero add [] (image φ es)).flatMap fun e =>
        (spread e.1).map fun k => (k, e.2))) k =
      φ (table k + total es fun k' => ((spread k').map (single k)).sum) := by
  have hfirst : collect zero add [] (image φ es) = image φ (collect 0 (· + ·) [] es) :=
    collect_map h [] es
  have hspread : ((image φ (collect 0 (· + ·) [] es)).flatMap fun e =>
      (spread e.1).map fun k => (k, e.2)) =
      image φ ((collect 0 (· + ·) [] es).flatMap fun e =>
        (spread e.1).map fun k => (k, e.2)) := by
    simp only [image, List.flatMap_map, List.map_flatMap, List.map_map]
    rfl
  rw [hfirst, hspread]
  rw [show collect zero add [] (image φ _) = image φ (collect 0 (· + ·) [] _) from
    collect_map h [] _, addTo_map h]
  dsimp only
  rw [addTo_total, total_collect, total_spread, total_collect]
  simp

/-- One stage: amounts collected by key and added to a table. -/
theorem addTo_collect (h : IsImage φ zero add) (table : κ → M) (es : List (κ × M)) (k : κ) :
    addTo add (fun k => φ (table k)) (collect zero add [] (image φ es)) k =
      φ (table k + total es (single k)) := by
  rw [show collect zero add [] (image φ es) = image φ (collect 0 (· + ·) [] es) from
    collect_map h [] es, addTo_map h]
  dsimp only
  rw [addTo_total, total_collect]
  simp

end Lossy

end Accumulate
