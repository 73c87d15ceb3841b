/-
**Programs over a world.**

A program looks at a world and may change it; it ends with an answer or with an error, and the
world stays as it was left in either case.  Three facts about a program are followed through its
parts: that it leaves the world alone, and of what kinds its errors and its answers are.

Main definitions:

* `Effects.Prog` — the programs, as a monad;
* `Effects.Prog.Frames` — the program leaves every world as it is;
* `Effects.Prog.FailsOnly`, `Effects.Prog.AnswersOnly` — the errors and the answers of the program
  are of a kind.

Main results:

* `Effects.Prog.Frames.bind`, `Effects.Prog.Frames.attempt`, `Effects.Prog.frames_mapM` — **programs
  made of parts that leave the world alone leave it alone**;
* `Effects.Prog.FailsOnly.bind`, `Effects.Prog.AnswersOnly.bind` — **the errors of a sequence are
  those of its parts, and its answers those of its end**.
-/

import Mathlib.Tactic.Common

set_option relaxedAutoImplicit false
set_option autoImplicit false

namespace Effects

/-- A program over a world. -/
def Prog (ω ε α : Type) : Type := ω → Except ε α × ω

namespace Prog

variable {ω ε ε' α β : Type}

instance : Monad (Prog ω ε) where
  pure a := fun w => (.ok a, w)
  bind p f := fun w =>
    match p w with
    | (.ok a, w) => f a w
    | (.error e, w) => (.error e, w)

/-- Look at the world. -/
def ask (f : ω → α) : Prog ω ε α := fun w => (.ok (f w), w)

def fail (e : ε) : Prog ω ε α := fun w => (.error e, w)

/-- A computation that does not look at the world. -/
def ofExcept (x : Except ε α) : Prog ω ε α := fun w => (x, w)

/-- A value, or the error that it is missing. -/
def ofOption (e : ε) (x : Option α) : Prog ω ε α := fun w => (x.elim (.error e) .ok, w)

/-- The program with its errors read as others. -/
def mapError (f : ε → ε') (p : Prog ω ε α) : Prog ω ε' α := fun w => ((p w).1.mapError f, (p w).2)

/-- The program with its error as an answer. -/
def attempt (p : Prog ω ε α) : Prog ω ε' (Except ε α) := fun w => (.ok (p w).1, (p w).2)

/-- The answer of the program, or a value in place of its error. -/
def orElse (a : α) (p : Prog ω ε α) : Prog ω ε' α :=
  fun w => (.ok ((p w).1.toOption.getD a), (p w).2)

variable {p : Prog ω ε α} {f : α → Prog ω ε β}

theorem bind_apply (p : Prog ω ε α) (f : α → Prog ω ε β) (w : ω) :
    (p >>= f) w =
      match p w with
      | (.ok a, w) => f a w
      | (.error e, w) => (.error e, w) := rfl

theorem pure_apply (a : α) (w : ω) : (pure a : Prog ω ε α) w = (.ok a, w) := rfl

instance : LawfulMonad (Prog ω ε) := by
  refine LawfulMonad.mk' _ ?_ ?_ ?_
  · intro α p
    funext w
    change (match p w with
      | (.ok a, w) => (Except.ok (id a), w)
      | (.error e, w) => (.error e, w)) = p w
    rcases p w with ⟨_ | _, _⟩ <;> rfl
  · exact fun _ _ => rfl
  · intro α β γ p f g
    funext w
    simp only [bind_apply]
    rcases p w with ⟨_ | _, _⟩ <;> rfl

/-! ### Programs that leave the world alone -/

def Frames (p : Prog ω ε α) : Prop := ∀ w, (p w).2 = w

theorem frames_pure (a : α) : Frames (pure a : Prog ω ε α) := fun _ => rfl

theorem frames_ask (f : ω → α) : Frames (ask f : Prog ω ε α) := fun _ => rfl

theorem frames_fail (e : ε) : Frames (fail e : Prog ω ε α) := fun _ => rfl

theorem frames_ofExcept (x : Except ε α) : Frames (ofExcept x : Prog ω ε α) := fun _ => rfl

theorem frames_ofOption (e : ε) (x : Option α) : Frames (ofOption e x : Prog ω ε α) := fun _ => rfl

theorem Frames.bind (hp : Frames p) (hf : ∀ a, Frames (f a)) : Frames (p >>= f) := by
  intro w
  have hw := hp w
  rw [bind_apply]
  split
  · next a w' h =>
      rw [h] at hw
      exact (hf a w').trans hw
  · next e w' h =>
      rw [h] at hw
      exact hw

theorem Frames.map (hp : Frames p) (g : α → β) : Frames (g <$> p) :=
  hp.bind fun a => frames_pure (g a)

theorem Frames.mapError (hp : Frames p) (g : ε → ε') : Frames (p.mapError g) := fun w => hp w

theorem Frames.attempt (hp : Frames p) : Frames (p.attempt : Prog ω ε' (Except ε α)) :=
  fun w => hp w

theorem Frames.orElse (hp : Frames p) (a : α) : Frames (p.orElse a : Prog ω ε' α) := fun w => hp w

theorem Frames.ite {c : Prop} [Decidable c] {q : Prog ω ε α} (hp : Frames p) (hq : Frames q) :
    Frames (if c then p else q) := by
  split
  · exact hp
  · exact hq

theorem frames_mapM {g : α → Prog ω ε β} (hg : ∀ a, Frames (g a)) (l : List α) :
    Frames (l.mapM g) := by
  induction l with
  | nil =>
      rw [List.mapM_nil]
      exact frames_pure []
  | cons a l ih =>
      rw [List.mapM_cons]
      exact (hg a).bind fun b => ih.bind fun bs => frames_pure (b :: bs)

/-! ### The errors of a program -/

/-- The errors of the program are of a kind. -/
def FailsOnly (E : ε → Prop) (p : Prog ω ε α) : Prop := ∀ w e, (p w).1 = .error e → E e

variable {E : ε → Prop}

theorem failsOnly_pure (a : α) : FailsOnly E (pure a : Prog ω ε α) := by
  intro w e h
  cases h

theorem failsOnly_fail {e : ε} (h : E e) : FailsOnly E (fail e : Prog ω ε α) := by
  intro w e' he
  cases he
  exact h

/-- **The errors of a sequence are those of its parts.** -/
theorem FailsOnly.bind (hp : FailsOnly E p) (hf : ∀ a, FailsOnly E (f a)) :
    FailsOnly E (p >>= f) := by
  intro w e h
  rw [bind_apply] at h
  split at h
  · next a w' _ => exact hf a w' e h
  · next e' w' hpw =>
      cases h
      exact hp w e (by rw [hpw])

theorem failsOnly_mapError {E' : ε' → Prop} {g : ε → ε'} (h : ∀ e, E' (g e)) (p : Prog ω ε α) :
    FailsOnly E' (p.mapError g) := by
  intro w e he
  unfold mapError at he
  cases hp : (p w).1 with
  | ok a =>
      rw [hp] at he
      cases he
  | error e₀ =>
      rw [hp] at he
      cases he
      exact h e₀

theorem failsOnly_attempt {E' : ε' → Prop} (p : Prog ω ε α) :
    FailsOnly E' (p.attempt : Prog ω ε' (Except ε α)) := by
  intro w e h
  cases h

/-! ### The answers of a program -/

/-- The answers of the program are of a kind. -/
def AnswersOnly (A : α → Prop) (p : Prog ω ε α) : Prop := ∀ w a, (p w).1 = .ok a → A a

variable {A : α → Prop} {B : β → Prop}

theorem answersOnly_pure {a : α} (h : A a) : AnswersOnly A (pure a : Prog ω ε α) := by
  intro w a' ha
  cases ha
  exact h

theorem answersOnly_fail (e : ε) : AnswersOnly A (fail e : Prog ω ε α) := by
  intro w a h
  cases h

/-- **The answers of a sequence are those of its end.** -/
theorem AnswersOnly.bind (hp : AnswersOnly A p) (hf : ∀ a, A a → AnswersOnly B (f a)) :
    AnswersOnly B (p >>= f) := by
  intro w b h
  rw [bind_apply] at h
  split at h
  · next a w' hpw => exact hf a (hp w a (by rw [hpw])) w' b h
  · cases h

/-- A sequence whose beginning does not matter. -/
theorem answersOnly_after (hf : ∀ a, AnswersOnly B (f a)) : AnswersOnly B (p >>= f) :=
  AnswersOnly.bind (fun _ _ _ => trivial) fun a (_ : True) => hf a

theorem AnswersOnly.ite {c : Prop} [Decidable c] {q : Prog ω ε α} (hp : AnswersOnly A p)
    (hq : AnswersOnly A q) : AnswersOnly A (if c then p else q) := by
  split
  · exact hp
  · exact hq

/-- The answers to the elements of a list, each of the kind that belongs to its element. -/
theorem answersOnly_mapM {R : α → β → Prop} {g : α → Prog ω ε β} (hg : ∀ a, AnswersOnly (R a) (g a))
    (l : List α) : AnswersOnly (List.Forall₂ R l) (l.mapM g) := by
  induction l with
  | nil =>
      rw [List.mapM_nil]
      exact answersOnly_pure .nil
  | cons a l ih =>
      rw [List.mapM_cons]
      exact (hg a).bind fun b hb => ih.bind fun bs hbs => answersOnly_pure (.cons hb hbs)

/-! ### Programs that answer in one world -/

theorem bind_of_ok {w : ω} {a : α} (h : p w = (.ok a, w)) : (p >>= f) w = f a w := by
  rw [bind_apply, h]

/-- If each element is answered in a world, and the world left alone, so is the list. -/
theorem mapM_of_ok {g : α → Prog ω ε β} {h : α → β} {w : ω} {l : List α}
    (hg : ∀ a ∈ l, g a w = (.ok (h a), w)) : l.mapM g w = (.ok (l.map h), w) := by
  induction l with
  | nil =>
      rw [List.mapM_nil]
      rfl
  | cons a l ih =>
      rw [List.mapM_cons, bind_of_ok (hg a List.mem_cons_self),
        bind_of_ok (ih fun b hb => hg b (List.mem_cons_of_mem a hb))]
      rfl

end Prog

end Effects
