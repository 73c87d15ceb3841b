/-
**A directory and the calls made on it.**

What a program leaves in a directory is one thing, what it did there another: a file that is
written and removed again leaves nothing behind.  A drive holds both, the files and the calls.  A
call that fails is a call too; a rename fails when there is nothing to rename.

Main definitions:

* `Staging.Drive` — the files of a directory and the calls made so far;
* `Staging.Drive.write`, `Staging.Drive.remove`, `Staging.Drive.rename` — the calls.

Main results:

* `Staging.Drive.files_removeAll` — what is left when a list of files is removed;
* `Staging.Drive.rename_cases` — a rename moves the file or changes nothing.
-/

import Mathlib.Data.List.Count
import Mathlib.Logic.Function.Basic
import Mathlib.Tactic.Common

set_option relaxedAutoImplicit false
set_option autoImplicit false

namespace Staging

/-- A call, with the file it is about and whether it succeeded. -/
inductive Call (π : Type*) where
  | write (path : π) (ok : Bool)
  | remove (path : π)
  | rename (target : π) (ok : Bool)
  deriving DecidableEq

namespace Call

variable {π : Type*} [DecidableEq π]

def writes (path : π) : Call π → Bool
  | write p _ => p = path
  | _ => false

def renames (target : π) : Call π → Bool
  | rename t _ => t = target
  | _ => false

def isRename : Call π → Bool
  | rename _ _ => true
  | _ => false

end Call

structure Drive (π β : Type*) where
  files : π → Option β
  calls : List (Call π)

namespace Drive

variable {π β ε : Type*} [DecidableEq π]

/-- How often a file has been written, whether or not that succeeded. -/
def writes (d : Drive π β) (path : π) : ℕ := d.calls.countP (Call.writes path)

/-- How often a rename over a file has been tried. -/
def renames (d : Drive π β) (target : π) : ℕ := d.calls.countP (Call.renames target)

/-- A write, with what it leaves at the path. -/
def write (d : Drive π β) (path : π) (left : Option β) (ok : Bool) : Drive π β :=
  ⟨Function.update d.files path left, d.calls ++ [.write path ok]⟩

def remove (d : Drive π β) (path : π) : Drive π β :=
  ⟨Function.update d.files path none, d.calls ++ [.remove path]⟩

def removeAll (d : Drive π β) (paths : List π) : Drive π β := paths.foldl remove d

/-- The file is moved over the target. -/
def moved (d : Drive π β) (source target : π) (b : β) : Drive π β :=
  ⟨Function.update (Function.update d.files target (some b)) source none,
    d.calls ++ [.rename target true]⟩

/-- A rename that fails leaves the files as they are. -/
def notMoved (d : Drive π β) (target : π) : Drive π β :=
  ⟨d.files, d.calls ++ [.rename target false]⟩

/-- A rename over a target.  It fails if there is no file, and otherwise as the fault says. -/
def rename (d : Drive π β) (source target : π) (fault : Option ε) (notFound : ε) :
    Option ε × Drive π β :=
  match d.files source, fault with
  | some b, none => (none, d.moved source target b)
  | some _, some e => (some e, d.notMoved target)
  | none, fault => (some (fault.getD notFound), d.notMoved target)

variable (d : Drive π β) (path target : π)

/-! ### Writing and removing -/

@[simp] theorem files_write_self (left : Option β) (ok : Bool) :
    (d.write path left ok).files path = left := Function.update_self ..

theorem files_write_of_ne {p : π} (h : p ≠ path) (left : Option β) (ok : Bool) :
    (d.write path left ok).files p = d.files p := Function.update_of_ne h ..

@[simp] theorem calls_write (left : Option β) (ok : Bool) :
    (d.write path left ok).calls = d.calls ++ [.write path ok] := rfl

@[simp] theorem calls_remove : (d.remove path).calls = d.calls ++ [.remove path] := rfl

theorem files_remove (p : π) :
    (d.remove path).files p = if p = path then none else d.files p := Function.update_apply ..

theorem files_removeAll (paths : List π) (p : π) :
    (d.removeAll paths).files p = if p ∈ paths then none else d.files p := by
  induction paths generalizing d with
  | nil => simp [removeAll]
  | cons q paths ih =>
      rw [removeAll, List.foldl_cons, ← removeAll, ih, files_remove]
      by_cases hp : p ∈ paths
      · simp [hp]
      · simp [hp]

/-- Removing files is no write and no rename. -/
theorem calls_removeAll (paths : List π) :
    (d.removeAll paths).calls = d.calls ++ paths.map .remove := by
  induction paths generalizing d with
  | nil => simp [removeAll]
  | cons q paths ih =>
      rw [removeAll, List.foldl_cons, ← removeAll, ih, calls_remove, List.append_assoc]
      rfl

@[simp] theorem writes_write (p : π) (left : Option β) (ok : Bool) :
    (d.write path left ok).writes p = d.writes p + if path = p then 1 else 0 := by
  simp [writes, Call.writes]

/-! ### Renaming -/

theorem files_moved {source : π} {b : β} {p : π} :
    (d.moved source target b).files p =
      if p = source then none else if p = target then some b else d.files p := by
  simp only [moved, Function.update_apply]

variable {target} {d d' : Drive π β} {source : π} {fault error : Option ε} {notFound : ε}

/-- A rename moves the file, or fails for want of one or by its fault. -/
theorem rename_cases (h : d.rename source target fault notFound = (error, d')) :
    (error = none ∧ fault = none ∧ ∃ b, d.files source = some b ∧
      d' = d.moved source target b) ∨
    (∃ e, error = some e ∧ (d.files source = none ∨ fault ≠ none) ∧ d' = d.notMoved target) := by
  unfold rename at h
  split at h
  · next b hb =>
      obtain ⟨rfl, rfl⟩ := Prod.mk.inj h
      exact .inl ⟨rfl, rfl, b, hb, rfl⟩
  · next e hb =>
      obtain ⟨rfl, rfl⟩ := Prod.mk.inj h
      exact .inr ⟨e, rfl, .inr (by simp), rfl⟩
  · next hnone =>
      obtain ⟨rfl, rfl⟩ := Prod.mk.inj h
      exact .inr ⟨_, rfl, .inl hnone, rfl⟩

end Drive

end Staging
