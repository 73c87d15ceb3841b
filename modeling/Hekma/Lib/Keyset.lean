/-
**Keyset pagination over a growing table.**

A reader takes the rows of a table in the order of their keys, a page at a time: a page has the rows
behind the last key, up to a limit, and a page that is not full is the last one.  The table may grow
at its end from one page to the next.

Main definitions:

* `Keyset.Page.fromRows`, `Keyset.read` — a page, and the page behind a key;
* `Keyset.collect` — all pages, one behind the other;
* `Keyset.HasRead` — how far a reader has come.

Main results:

* `Keyset.HasRead.full`, `Keyset.HasRead.last` — what has been read after a full page and the last;
* `Keyset.collect_spec` — the pages end, and they are the whole table as the last one saw it.
-/

import Mathlib.Data.List.Basic
import Mathlib.Data.List.Infix
import Mathlib.Data.List.Pairwise

set_option relaxedAutoImplicit false
set_option autoImplicit false

namespace Hekma

namespace Keyset

variable {α : Type}

/-- One page, with the key to read on behind; a page without one is the last. -/
structure Page (α : Type) where
  items : List α
  next : Option ℕ
  deriving DecidableEq, Repr

/-- A page of rows that were read up to a limit: it is the last one unless it is full. -/
def Page.fromRows (rows : List (ℕ × α)) (limit : ℕ) : Page α where
  items := rows.map Prod.snd
  next := if rows.length = limit then rows.getLast?.map Prod.fst else none

/-- The rows behind a key, up to a limit. -/
def rowsAfter (rows : List (ℕ × α)) (after limit : ℕ) : List (ℕ × α) :=
  (rows.filter fun r => after < r.1).take limit

/-- The page behind a key. -/
def read (rows : List (ℕ × α)) (after limit : ℕ) : Page α :=
  Page.fromRows (rowsAfter rows after limit) limit

/-- Read page after page, the first one behind `after`. -/
def collect (page : ℕ → ℕ → Page α) : ℕ → ℕ → ℕ → List α → Option (List α)
  | 0, _, _, _ => none
  | fuel + 1, k, after, items =>
      match (page k after).next with
      | some next => collect page fuel (k + 1) next (items ++ (page k after).items)
      | none => some (items ++ (page k after).items)

/-- The keys of a table rise. -/
def Rising (rows : List (ℕ × α)) : Prop := rows.Pairwise fun r r' => r.1 < r'.1

/-- A reader that goes on behind `after` has read the first rows of a table. -/
structure HasRead (rows : List (ℕ × α)) (after : ℕ) (done rest : List (ℕ × α)) : Prop where
  split : rows = done ++ rest
  done_le : ∀ r ∈ done, r.1 ≤ after
  lt_rest : ∀ r ∈ rest, after < r.1
  start : after = 0 ∨ ∃ r ∈ done, r.1 = after

variable {rows more done rest : List (ℕ × α)} {after limit : ℕ}

/-- Nothing is read behind the key zero. -/
theorem HasRead.zero (hpos : ∀ r ∈ rows, 0 < r.1) : HasRead rows 0 [] rows :=
  ⟨rfl, fun _ hr => absurd hr List.not_mem_nil, hpos, .inl rfl⟩

/-- What has been read stays read when the table grows. -/
theorem HasRead.grow (h : HasRead rows after done rest) (hgrown : rows <+: more)
    (hrising : Rising more) (hpos : ∀ r ∈ more, 0 < r.1) :
    ∃ rest', HasRead more after done rest' := by
  obtain ⟨new, rfl⟩ := hgrown
  refine ⟨rest ++ new, ⟨by rw [h.split, List.append_assoc], h.done_le, fun r hr => ?_, h.start⟩⟩
  rcases List.mem_append.1 hr with hr | hr
  · exact h.lt_rest r hr
  · rcases h.start with rfl | ⟨last, hlast, rfl⟩
    · exact hpos r (List.mem_append_right _ hr)
    · refine (List.pairwise_append.1 hrising).2.2 last ?_ r hr
      rw [h.split]
      exact List.mem_append_left _ hlast

theorem HasRead.rowsAfter_eq (h : HasRead rows after done rest) (limit : ℕ) :
    rowsAfter rows after limit = rest.take limit := by
  have hdone : done.filter (fun r => after < r.1) = [] := by
    refine List.filter_eq_nil_iff.2 fun r hr => ?_
    have hle := h.done_le r hr
    simp only [decide_eq_true_eq]
    omega
  have hrest : rest.filter (fun r => after < r.1) = rest :=
    List.filter_eq_self.2 fun r hr => decide_eq_true (h.lt_rest r hr)
  rw [rowsAfter, h.split, List.filter_append, hdone, hrest, List.nil_append]

/-- **A page that is not full** is all there is to read. -/
theorem HasRead.last (h : HasRead rows after done rest)
    (hnext : (read rows after limit).next = none) (hlimit : 0 < limit) :
    done ++ rowsAfter rows after limit = rows := by
  unfold read Page.fromRows at hnext
  have htake := h.rowsAfter_eq limit
  split at hnext
  · rename_i hfull
    rw [Option.map_eq_none_iff, List.getLast?_eq_none_iff] at hnext
    rw [hnext, List.length_nil] at hfull
    omega
  · rename_i hshort
    rw [htake, List.length_take] at hshort
    rw [htake, List.take_of_length_le (by omega), h.split]

/-- **A full page** is read up to its last key, and it has a row. -/
theorem HasRead.full (h : HasRead rows after done rest) (hrising : Rising rows) {next : ℕ}
    (hnext : (read rows after limit).next = some next) :
    HasRead rows next (done ++ rowsAfter rows after limit) (rest.drop limit) ∧
      rowsAfter rows after limit ≠ [] := by
  unfold read Page.fromRows at hnext
  have htake := h.rowsAfter_eq limit
  split at hnext
  · obtain ⟨last, hlast, rfl⟩ := Option.map_eq_some_iff.1 hnext
    obtain ⟨init, hinit⟩ := List.getLast?_eq_some_iff.1 hlast
    have hsplit : rows = (done ++ init) ++ last :: rest.drop limit := by
      have hrest := List.take_append_drop limit rest
      rw [← htake, hinit, List.append_assoc, List.singleton_append] at hrest
      rw [h.split, List.append_assoc, hrest]
    unfold Rising at hrising
    rw [hsplit] at hrising
    obtain ⟨-, hlater, hearlier⟩ := List.pairwise_append.1 hrising
    refine ⟨⟨?_, fun r hr => ?_, (List.pairwise_cons.1 hlater).1, .inr ⟨last, ?_, rfl⟩⟩, ?_⟩
    · rw [hinit, hsplit]
      simp
    · rw [hinit, ← List.append_assoc] at hr
      rcases List.mem_append.1 hr with hr | hr
      · exact (hearlier r hr last List.mem_cons_self).le
      · rw [List.mem_singleton.1 hr]
    · rw [hinit]
      simp
    · rw [hinit]
      simp
  · cases hnext

/-- The pages end from any page on: each full one has a row that was not read before. -/
theorem collect_from {views : ℕ → List (ℕ × α)} (hgrow : ∀ k, views k <+: views (k + 1))
    (hrising : ∀ k, Rising (views k)) (hpos : ∀ k, ∀ r ∈ views k, 0 < r.1) (hlimit : 0 < limit)
    {n : ℕ} (hbound : ∀ k, (views k).length ≤ n) (fuel k : ℕ)
    (h : HasRead (views k) after done rest) (hfuel : n < fuel + done.length) :
    ∃ m, collect (fun k after => read (views k) after limit) fuel k after (done.map Prod.snd) =
      some ((views m).map Prod.snd) := by
  induction fuel generalizing k after done rest with
  | zero =>
      have hlen := congrArg List.length h.split
      have hle := hbound k
      rw [List.length_append] at hlen
      omega
  | succ fuel ih =>
      have hitems : done.map Prod.snd ++ (read (views k) after limit).items =
          (done ++ rowsAfter (views k) after limit).map Prod.snd := by
        rw [List.map_append]
        rfl
      cases hnext : (read (views k) after limit).next with
      | none =>
          refine ⟨k, ?_⟩
          simp only [collect, hnext, hitems, h.last hnext hlimit]
      | some next =>
          obtain ⟨hread, hne⟩ := h.full (hrising k) hnext
          obtain ⟨rest', hread'⟩ := hread.grow (hgrow k) (hrising (k + 1)) (hpos (k + 1))
          have hlen := List.length_pos_iff.2 hne
          obtain ⟨m, hm⟩ := ih (k + 1) hread' (by rw [List.length_append]; omega)
          refine ⟨m, ?_⟩
          simp only [collect, hnext, hitems]
          exact hm

/-- **All rows are read.**  However the table grows at its end between the pages, the pages end, and
they are the table as the last page saw it. -/
theorem collect_spec {views : ℕ → List (ℕ × α)} (hgrow : ∀ k, views k <+: views (k + 1))
    (hrising : ∀ k, Rising (views k)) (hpos : ∀ k, ∀ r ∈ views k, 0 < r.1) (hlimit : 0 < limit)
    {n : ℕ} (hbound : ∀ k, (views k).length ≤ n) {fuel : ℕ} (hfuel : n < fuel) :
    ∃ m, collect (fun k after => read (views k) after limit) fuel 0 0 [] =
      some ((views m).map Prod.snd) :=
  collect_from hgrow hrising hpos hlimit hbound fuel 0 (.zero (hpos 0)) hfuel

end Keyset

end Hekma
