/-
**Counting in a row.**

A counter goes up on some observations and back to zero on others.  What it shows is read off the
observations alone: it has reached a number if so many observations have put it up since the last
one that put it back.

Main definitions:

* `Streak.InARow` — so many observations went up since the last one that put the counter back;
* `Streak.tally` — the counter;
* `Streak.noted` — the first mark of the row there is.

Main results:

* `Streak.inARow_iff` — **the counter shows how many there are in a row**;
* `Streak.noted_eq_some`, `Streak.noted_eq_none` — since when the row goes on.
-/

import Mathlib.Tactic

set_option relaxedAutoImplicit false
set_option autoImplicit false

namespace Hekma

namespace Streak

variable {α : Type} (up back : α → Bool)

/-- The last observations, none of which puts the counter back, put it up at least `n` times. -/
def InARow (n : ℕ) (l : List α) : Prop :=
  ∃ earlier later, l = earlier ++ later ∧ (∀ a ∈ later, back a = false) ∧ n ≤ later.countP up

/-- One observation. -/
def count (n : ℕ) (a : α) : ℕ :=
  if back a then 0 else if up a then n + 1 else n

/-- The counter after some observations. -/
def tally (l : List α) : ℕ := l.foldl (count up back) 0

variable {up back} {n : ℕ} {l : List α} {a : α}

theorem count_of_back (h : back a = true) : count up back n a = 0 := if_pos h

/-- An observation that does neither. -/
theorem count_of_neither (hup : up a = false) (hback : back a = false) :
    count up back n a = n := by
  rw [count, hback, hup]
  rfl

@[simp] theorem tally_nil : tally up back [] = 0 := rfl

@[simp] theorem tally_append_singleton :
    tally up back (l ++ [a]) = count up back (tally up back l) a := by
  rw [tally, List.foldl_append]
  rfl

theorem inARow_zero : InARow up back 0 l :=
  ⟨l, [], by simp, by simp, Nat.zero_le _⟩

/-- An observation that puts the counter back ends the row. -/
theorem inARow_back (h : back a = true) : InARow up back n (l ++ [a]) ↔ n = 0 := by
  constructor
  · rintro ⟨earlier, later, hsplit, hnone, hcount⟩
    cases later using List.reverseRec with
    | nil => simpa using hcount
    | append_singleton later b =>
        rw [← List.append_assoc] at hsplit
        have hlast := List.append_inj_right' hsplit rfl
        have hb := hnone b (by simp)
        rw [← List.cons.inj hlast |>.1, h] at hb
        cases hb
  · rintro rfl
    exact inARow_zero

/-- Any other one extends it. -/
theorem inARow_extend (h : back a = false) :
    InARow up back n (l ++ [a]) ↔ InARow up back (n - if up a then 1 else 0) l := by
  constructor
  · rintro ⟨earlier, later, hsplit, hnone, hcount⟩
    cases later using List.reverseRec with
    | nil =>
        obtain rfl : n = 0 := by simpa using hcount
        simpa using inARow_zero
    | append_singleton later b =>
        rw [← List.append_assoc] at hsplit
        obtain ⟨hl, hlast⟩ := List.append_inj' hsplit rfl
        obtain rfl := (List.cons.inj hlast).1
        refine ⟨earlier, later, hl, fun x hx => hnone x (by simp [hx]), ?_⟩
        rw [List.countP_append, List.countP_singleton] at hcount
        omega
  · rintro ⟨earlier, later, rfl, hnone, hcount⟩
    refine ⟨earlier, later ++ [a], by simp, fun x hx => ?_, ?_⟩
    · rcases List.mem_append.1 hx with hx | hx
      · exact hnone x hx
      · rw [List.mem_singleton.1 hx]
        exact h
    · rw [List.countP_append, List.countP_singleton]
      omega

/-- **The counter shows how many there are in a row.** -/
theorem inARow_iff : InARow up back n l ↔ n ≤ tally up back l := by
  induction l using List.reverseRec generalizing n with
  | nil =>
      rw [tally_nil, Nat.le_zero]
      constructor
      · rintro ⟨earlier, later, hsplit, -, hcount⟩
        obtain ⟨-, rfl⟩ := List.append_eq_nil_iff.1 hsplit.symm
        simpa using hcount
      · rintro rfl
        exact inARow_zero
  | append_singleton l a ih =>
      rw [tally_append_singleton, count]
      cases hback : back a with
      | true =>
          rw [inARow_back hback, if_pos rfl, Nat.le_zero]
      | false =>
          rw [inARow_extend hback, ih]
          cases up a with
          | true => simp
          | false => simp

/-! ### Since when -/

section Since

variable {β : Type} (mark : α → Option β) (back : α → Bool)

/-- One observation, for a time that is noted when there is none, and forgotten when an observation
puts it back. -/
def note (noted : Option β) (a : α) : Option β :=
  if back a then none else noted.or (mark a)

/-- What is noted after some observations. -/
def noted (l : List α) : Option β := l.foldl (note mark back) none

variable {mark back} {b : β}

@[simp] theorem noted_nil : noted mark back [] = none := rfl

@[simp] theorem noted_append_singleton :
    noted mark back (l ++ [a]) = note mark back (noted mark back l) a := by
  rw [noted, List.foldl_append]
  rfl

/-- **What is noted is the first mark since the last observation that put it back.** -/
theorem noted_eq_some : noted mark back l = some b ↔
    ∃ earlier first later, l = earlier ++ first :: later ∧ noted mark back earlier = none ∧
      mark first = some b ∧ ∀ a ∈ first :: later, back a = false := by
  induction l using List.reverseRec with
  | nil => simp
  | append_singleton l a ih =>
      rw [noted_append_singleton, note]
      constructor
      · intro h
        split at h
        · cases h
        · next hback =>
            replace hback := Bool.eq_false_iff.2 hback
            cases hnoted : noted mark back l with
            | none =>
                rw [hnoted, Option.none_or] at h
                exact ⟨l, a, [], rfl, hnoted, h, by simpa using hback⟩
            | some b' =>
                rw [hnoted, Option.some_or] at h
                obtain rfl := Option.some.inj h
                obtain ⟨earlier, first, later, rfl, hnone, hmark, hall⟩ := ih.1 hnoted
                refine ⟨earlier, first, later ++ [a], by simp, hnone, hmark, ?_⟩
                intro x hx
                rcases List.mem_append.1 (List.cons_append ▸ hx) with hx | hx
                · exact hall x hx
                · exact List.mem_singleton.1 hx ▸ hback
      · rintro ⟨earlier, first, later, hsplit, hnone, hmark, hall⟩
        have hback : back a = false := by
          refine hall a (List.mem_of_getLast? ?_)
          have hlast := congrArg List.getLast? hsplit
          rw [List.getLast?_append_of_ne_nil _ (List.cons_ne_nil _ _),
            List.getLast?_append_of_ne_nil _ (List.cons_ne_nil _ _)] at hlast
          exact hlast.symm
        rw [hback, if_neg Bool.false_ne_true]
        cases later using List.reverseRec with
        | nil =>
            obtain ⟨rfl, hlast⟩ := List.append_inj' hsplit rfl
            rw [hnone, Option.none_or, (List.cons.inj hlast).1, hmark]
        | append_singleton later x =>
            rw [← List.cons_append, ← List.append_assoc] at hsplit
            obtain ⟨rfl, -⟩ := List.append_inj' hsplit rfl
            rw [ih.2 ⟨earlier, first, later, rfl, hnone, hmark, fun y hy => hall y (by
              rw [← List.cons_append]
              exact List.mem_append_left _ hy)⟩, Option.some_or]

/-- **Nothing is noted when every mark has been put back.** -/
theorem noted_eq_none : noted mark back l = none ↔
    ∀ earlier first later, l = earlier ++ first :: later → mark first ≠ none →
      ∃ a ∈ first :: later, back a = true := by
  induction l using List.reverseRec with
  | nil => simp
  | append_singleton l a ih =>
      rw [noted_append_singleton, note]
      constructor
      · intro h earlier first later hsplit hmark
        cases later using List.reverseRec with
        | nil =>
            obtain ⟨rfl, hlast⟩ := List.append_inj' hsplit rfl
            obtain rfl := (List.cons.inj hlast).1
            refine ⟨a, List.mem_singleton_self a, ?_⟩
            by_contra hback
            rw [if_neg hback] at h
            exact hmark (Option.or_eq_none_iff.1 h).2
        | append_singleton later x =>
            rw [← List.cons_append, ← List.append_assoc] at hsplit
            obtain ⟨rfl, hlast⟩ := List.append_inj' hsplit rfl
            obtain rfl := (List.cons.inj hlast).1
            rw [← List.cons_append]
            by_cases hback : back a = true
            · exact ⟨a, List.mem_append_right _ (List.mem_singleton_self a), hback⟩
            · rw [if_neg hback] at h
              obtain ⟨y, hy, hyback⟩ :=
                ih.1 (Option.or_eq_none_iff.1 h).1 earlier first later rfl hmark
              exact ⟨y, List.mem_append_left _ hy, hyback⟩
      · intro h
        split
        · rfl
        · next hback =>
            refine Option.or_eq_none_iff.2 ⟨ih.2 fun earlier first later hsplit hmark => ?_, ?_⟩
            · obtain ⟨y, hy, hyback⟩ := h earlier first (later ++ [a]) (by simp [hsplit]) hmark
              rw [← List.cons_append] at hy
              rcases List.mem_append.1 hy with hy | hy
              · exact ⟨y, hy, hyback⟩
              · exact absurd (List.mem_singleton.1 hy ▸ hyback) hback
            · by_contra hmark
              obtain ⟨y, hy, hyback⟩ := h l a [] rfl hmark
              exact hback (List.mem_singleton.1 hy ▸ hyback)

end Since

end Streak

end Hekma
