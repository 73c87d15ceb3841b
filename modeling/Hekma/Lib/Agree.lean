/-
**Programs that cannot tell two worlds apart.**

Two programs agree if, started in worlds that are related, they fail with the same error, or answer
with related answers, and leave the worlds related.  A program that agrees with itself does not show
in what it answers how two related worlds differ.

Main definitions:

* `Effects.SameOutcome` — the same error, or answers that are related;
* `Effects.Prog.Agree` — two programs agree.

Main results:

* `Effects.Prog.Agree.bind`, `Effects.Prog.agree_mapM` — **sequences of programs that agree
  agree**.
-/

import Hekma.Lib.Effects

set_option relaxedAutoImplicit false
set_option autoImplicit false

namespace Effects

variable {ω ω' ε ε' α α' β β' : Type}

/-- The same error, or answers that are related. -/
inductive SameOutcome (V : α → α' → Prop) : Except ε α → Except ε α' → Prop
  | ok {a : α} {b : α'} (h : V a b) : SameOutcome V (.ok a) (.ok b)
  | error (e : ε) : SameOutcome V (.error e) (.error e)

variable {V V' : α → α' → Prop} {U : β → β' → Prop}

theorem SameOutcome.map {x : Except ε α} {y : Except ε α'} (h : SameOutcome V x y) {f : α → β}
    {g : α' → β'} (hfg : ∀ a b, V a b → U (f a) (g b)) : SameOutcome U (x.map f) (y.map g) := by
  cases h with
  | ok h => exact .ok (hfg _ _ h)
  | error e => exact .error e

theorem SameOutcome.mapError {x : Except ε α} {y : Except ε α'} (h : SameOutcome V x y)
    (g : ε → ε') : SameOutcome V (x.mapError g) (y.mapError g) := by
  cases h with
  | ok h => exact .ok h
  | error e => exact .error (g e)

namespace Prog

/-- The programs cannot tell related worlds apart. -/
def Agree (R : ω → ω' → Prop) (V : α → α' → Prop) (p : Prog ω ε α) (q : Prog ω' ε α') : Prop :=
  ∀ w w', R w w' → SameOutcome V (p w).1 (q w').1 ∧ R (p w).2 (q w').2

variable {R : ω → ω' → Prop} {p : Prog ω ε α} {q : Prog ω' ε α'}

theorem agree_pure {a : α} {b : α'} (h : V a b) :
    Agree R V (pure a : Prog ω ε α) (pure b : Prog ω' ε α') :=
  fun _ _ hw => ⟨.ok h, hw⟩

theorem agree_ask {f : ω → α} {g : ω' → α'} (h : ∀ w w', R w w' → V (f w) (g w')) :
    Agree R V (ask f : Prog ω ε α) (ask g : Prog ω' ε α') :=
  fun w w' hw => ⟨.ok (h w w' hw), hw⟩

theorem agree_ofOption (e : ε) {x : Option α} {y : Option α'} (h : Option.Rel V x y) :
    Agree R V (ofOption e x : Prog ω ε α) (ofOption e y : Prog ω' ε α') := by
  intro w w' hw
  cases h with
  | some h => exact ⟨.ok h, hw⟩
  | none => exact ⟨.error e, hw⟩

/-- **A sequence of programs that agree agrees.** -/
theorem Agree.bind {f : α → Prog ω ε β} {g : α' → Prog ω' ε β'} (hp : Agree R V p q)
    (hf : ∀ a b, V a b → Agree R U (f a) (g b)) : Agree R U (p >>= f) (q >>= g) := by
  intro w w' hw
  obtain ⟨hout, hworld⟩ := hp w w' hw
  rw [bind_apply, bind_apply]
  rcases hpw : p w with ⟨a | e, v⟩ <;> rcases hqw : q w' with ⟨b | e', v'⟩ <;>
    rw [hpw, hqw] at hout hworld <;> cases hout
  · exact ⟨.error _, hworld⟩
  · exact hf _ _ ‹_› _ _ hworld

/-- **Programs that agree on each element agree on a list.** -/
theorem agree_mapM {γ : Type} {f : γ → Prog ω ε α} {g : γ → Prog ω' ε α'} {l : List γ}
    (h : ∀ c ∈ l, Agree R V (f c) (g c)) :
    Agree R (List.Forall₂ V) (l.mapM f) (l.mapM g) := by
  induction l with
  | nil =>
      rw [List.mapM_nil, List.mapM_nil]
      exact agree_pure .nil
  | cons c l ih =>
      rw [List.mapM_cons, List.mapM_cons]
      refine (h c List.mem_cons_self).bind fun a b hab => ?_
      exact (ih fun d hd => h d (List.mem_cons_of_mem c hd)).bind fun as bs habs =>
        agree_pure (.cons hab habs)

/-- Programs that leave the worlds alone agree in worlds that are known better. -/
theorem Agree.restrict {R' : ω → ω' → Prop} (h : Agree R V p q) (hp : Frames p) (hq : Frames q)
    (hle : ∀ w w', R' w w' → R w w') : Agree R' V p q := by
  intro w w' hw
  rw [hp w, hq w']
  exact ⟨(h w w' (hle w w' hw)).1, hw⟩

/-- What is known of the answers. -/
theorem Agree.answers (h : Agree R V p q)
    (hV : ∀ w w' a b, R w w' → (p w).1 = .ok a → (q w').1 = .ok b → V a b → V' a b) :
    Agree R V' p q := by
  intro w w' hw
  obtain ⟨hout, hworld⟩ := h w w' hw
  refine ⟨?_, hworld⟩
  cases hp : (p w).1 <;> cases hq : (q w').1 <;> rw [hp, hq] at hout <;> cases hout
  · exact .error _
  · exact .ok (hV w w' _ _ hw hp hq ‹_›)

end Prog

end Effects
