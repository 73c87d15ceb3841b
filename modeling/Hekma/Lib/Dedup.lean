/-
**A log with a unique index.**

Events are committed one after the other under a key.  The first event with a key is inserted, and
every later one is a replay of the row that holds the key.  Rows from before the log name no event.

Main definitions:

* `Dedup.Log`, `Dedup.Log.commit` — the rows, the verdicts, and one more event;
* `Dedup.Sound` — what holds of rows and verdicts.

Main results:

* `Dedup.Sound.commitAll` — commits keep this;
* `Dedup.Sound.exists_first` — every event has a first one with its key, which was inserted;
* `Dedup.Sound.apart_iff` — the events of a class are all inserted, and no event is a replay of one
  of another class, just when their keys are apart.
-/

import Mathlib.Tactic

set_option relaxedAutoImplicit false
set_option autoImplicit false

namespace Hekma

namespace Dedup

/-- What became of an event: it was inserted, or it is a replay of the event of a row. -/
inductive Verdict (E : Type*) where
  | inserted
  | replayOf (first : Option E)
  deriving DecidableEq, Repr

/-- The rows by key, with the event each was inserted for, and the verdicts in their order. -/
structure Log (E K : Type*) where
  rows : List (K × Option E)
  verdicts : List (E × Verdict E)

variable {E K C : Type*} {key : E → K} {l : Log E K}

namespace Log

variable [DecidableEq K]

/-- A log over rows from before it. -/
def ofRows (older : List K) : Log E K := ⟨older.map fun k => (k, none), []⟩

/-- Commit an event under its key. -/
def commit (key : E → K) (l : Log E K) (e : E) : Log E K :=
  match l.rows.find? fun r => r.1 = key e with
  | some r => ⟨l.rows, l.verdicts ++ [(e, .replayOf r.2)]⟩
  | none => ⟨l.rows ++ [(key e, some e)], l.verdicts ++ [(e, .inserted)]⟩

/-- The events rows were inserted for. -/
def inserted (l : Log E K) : List E := l.rows.filterMap Prod.snd

/-- Commit events in their order. -/
def commitAll (key : E → K) (l : Log E K) (es : List E) : Log E K := es.foldl (commit key) l

/-- The events that were committed, in their order. -/
def events (l : Log E K) : List E := l.verdicts.map Prod.fst

/-- All a commit can do. -/
theorem commit_cases (key : E → K) (l : Log E K) (e : E) :
    (∃ r ∈ l.rows, r.1 = key e ∧
      l.commit key e = ⟨l.rows, l.verdicts ++ [(e, .replayOf r.2)]⟩) ∨
    ((∀ r ∈ l.rows, r.1 ≠ key e) ∧
      l.commit key e = ⟨l.rows ++ [(key e, some e)], l.verdicts ++ [(e, .inserted)]⟩) := by
  unfold commit
  cases hfind : l.rows.find? fun r => r.1 = key e with
  | some r =>
      have hkey := List.find?_some hfind
      exact .inl ⟨r, List.mem_of_find?_eq_some hfind, by simpa using hkey, rfl⟩
  | none =>
      refine .inr ⟨fun r hr => ?_, rfl⟩
      simpa using List.find?_eq_none.1 hfind r hr

theorem events_commit (l : Log E K) (e : E) : (l.commit key e).events = l.events ++ [e] := by
  rcases commit_cases key l e with ⟨r, -, -, hl⟩ | ⟨-, hl⟩ <;> simp [hl, events]

/-- Every row of the log is an old one, or has the key of an event that was committed. -/
theorem mem_rows_commitAll {es : List E} {r : K × Option E}
    (hr : r ∈ (l.commitAll key es).rows) : r ∈ l.rows ∨ ∃ e ∈ es, r.1 = key e := by
  induction es generalizing l with
  | nil => exact .inl hr
  | cons e es ih =>
      rcases ih (l := l.commit key e) hr with hold | ⟨e', he', hkey⟩
      · rcases commit_cases key l e with ⟨r', -, -, hcommit⟩ | ⟨-, hcommit⟩ <;>
          rw [hcommit] at hold
        · exact .inl hold
        · rcases List.mem_append.1 hold with hold | hnew
          · exact .inl hold
          · obtain rfl : r = (key e, some e) := by simpa using hnew
            exact .inr ⟨e, List.mem_cons_self, rfl⟩
      · exact .inr ⟨e', List.mem_cons_of_mem _ he', hkey⟩

theorem events_commitAll (l : Log E K) (es : List E) :
    (l.commitAll key es).events = l.events ++ es := by
  induction es generalizing l with
  | nil => exact (List.append_nil _).symm
  | cons e es ih =>
      change ((l.commit key e).commitAll key es).events = _
      rw [ih, events_commit, List.append_assoc]
      rfl

end Log

/-- The rows are the first events of their keys, and every other event is a replay of one. -/
structure Sound (key : E → K) (l : Log E K) : Prop where
  older : ∀ r ∈ l.rows, r.2 = none → ∀ e, r.1 ≠ key e
  sublist : l.inserted.Sublist l.events
  row : ∀ r ∈ l.rows, ∀ e, r.2 = some e → r.1 = key e ∧ (e, .inserted) ∈ l.verdicts
  inserted : ∀ e, (e, .inserted) ∈ l.verdicts → (key e, some e) ∈ l.rows
  replay : ∀ e first, (e, .replayOf first) ∈ l.verdicts →
    ∃ e', first = some e' ∧ (e', .inserted) ∈ l.verdicts ∧ key e' = key e
  unique : ∀ e e', (e, .inserted) ∈ l.verdicts → (e', .inserted) ∈ l.verdicts →
    key e = key e' → e = e'

theorem Sound.ofRows {older : List K} (h : ∀ e, key e ∉ older) : Sound key (Log.ofRows older) where
  older := by
    intro r hr _ e hkey
    obtain ⟨k, hk, rfl⟩ := List.mem_map.1 hr
    exact h e (hkey ▸ hk)
  sublist := by simp [Log.ofRows, Log.inserted]
  row := by
    rintro r hr e hre
    obtain ⟨k, -, rfl⟩ := List.mem_map.1 hr
    simp at hre
  inserted := by simp [Log.ofRows]
  replay := by simp [Log.ofRows]
  unique := by simp [Log.ofRows]

section

variable [DecidableEq K]

/-- A commit keeps the rows and verdicts sound. -/
theorem Sound.commit (h : Sound key l) (e : E) : Sound key (l.commit key e) := by
  rcases Log.commit_cases key l e with ⟨r, hr, hkey, hl⟩ | ⟨hnone, hl⟩ <;> rw [hl]
  · -- a replay: the row that has the key names the event it was inserted for
    obtain ⟨first, hfirst⟩ : ∃ first, r.2 = some first := by
      cases hr2 : r.2 with
      | none => exact absurd hkey (h.older r hr hr2 e)
      | some first => exact ⟨first, rfl⟩
    obtain ⟨hrow, hins⟩ := h.row r hr first hfirst
    have hold : ∀ e', (e', .inserted) ∈ l.verdicts ++ [(e, Verdict.replayOf r.2)] →
        (e', .inserted) ∈ l.verdicts := by
      intro e' he'
      simpa using he'
    refine ⟨h.older, ?_, fun r' hr' e' he' => ?_, fun e' he' => h.inserted e' (hold e' he'), ?_,
      fun e₁ e₂ h₁ h₂ => h.unique e₁ e₂ (hold e₁ h₁) (hold e₂ h₂)⟩
    · exact h.sublist.trans (by simp [Log.events])
    · obtain ⟨hk, hmem⟩ := h.row r' hr' e' he'
      exact ⟨hk, List.mem_append_left _ hmem⟩
    · intro e' first' he'
      rcases List.mem_append.1 he' with he' | he'
      · obtain ⟨e'', hf, hmem, hk⟩ := h.replay e' first' he'
        exact ⟨e'', hf, List.mem_append_left _ hmem, hk⟩
      · obtain ⟨rfl, rfl⟩ : e' = e ∧ first' = r.2 := by simpa using he'
        exact ⟨first, hfirst, List.mem_append_left _ hins, hrow.symm.trans hkey⟩
  · -- a new key: no event inserted before has it
    have hcases : ∀ e', (e', .inserted) ∈ l.verdicts ++ [(e, Verdict.inserted)] →
        (e', .inserted) ∈ l.verdicts ∨ e' = e := by
      intro e' he'
      simpa using he'
    have hnew : ∀ e', (e', .inserted) ∈ l.verdicts → key e' ≠ key e := fun e' he' =>
      hnone _ (h.inserted e' he')
    refine ⟨?_, ?_, ?_, ?_, ?_, ?_⟩
    · rintro r hr hr2
      rcases List.mem_append.1 hr with hr | hr
      · exact h.older r hr hr2
      · obtain rfl : r = (key e, some e) := by simpa using hr
        exact nomatch hr2
    · have hsub := h.sublist.append (List.Sublist.refl [e])
      simpa [Log.inserted, Log.events] using hsub
    · rintro r hr e' he'
      rcases List.mem_append.1 hr with hr | hr
      · obtain ⟨hk, hmem⟩ := h.row r hr e' he'
        exact ⟨hk, List.mem_append_left _ hmem⟩
      · obtain rfl : r = (key e, some e) := by simpa using hr
        obtain rfl : e = e' := by simpa using he'
        exact ⟨rfl, by simp⟩
    · intro e' he'
      rcases hcases e' he' with he' | rfl
      · exact List.mem_append_left _ (h.inserted e' he')
      · simp
    · intro e' first he'
      have he' : (e', .replayOf first) ∈ l.verdicts := by simpa using he'
      obtain ⟨e'', hf, hmem, hk⟩ := h.replay e' first he'
      exact ⟨e'', hf, List.mem_append_left _ hmem, hk⟩
    · intro e₁ e₂ h₁ h₂ hk
      rcases hcases e₁ h₁ with hold₁ | hnew₁ <;> rcases hcases e₂ h₂ with hold₂ | hnew₂
      · exact h.unique e₁ e₂ hold₁ hold₂ hk
      · exact absurd (hnew₂ ▸ hk) (hnew e₁ hold₁)
      · exact absurd (hnew₁ ▸ hk).symm (hnew e₂ hold₂)
      · rw [hnew₁, hnew₂]

theorem Sound.commitAll (h : Sound key l) (es : List E) : Sound key (l.commitAll key es) := by
  induction es generalizing l with
  | nil => exact h
  | cons e es ih => exact ih (h.commit e)

end

theorem mem_events {e : E} : e ∈ l.events ↔ ∃ v, (e, v) ∈ l.verdicts := by
  simp [Log.events]

/-- Every event is the first one with its key, or a replay of it. -/
theorem Sound.exists_first (h : Sound key l) {e : E} (he : e ∈ l.events) :
    ∃ first, (first, .inserted) ∈ l.verdicts ∧ key first = key e ∧
      (e = first ∨ (e, .replayOf (some first)) ∈ l.verdicts) := by
  obtain ⟨v, hv⟩ := mem_events.1 he
  cases v with
  | inserted => exact ⟨e, hv, rfl, .inl rfl⟩
  | replayOf first =>
      obtain ⟨first, rfl, hins, hkey⟩ := h.replay e first hv
      exact ⟨first, hins, hkey, .inr hv⟩

/-- An event that was committed once has one verdict. -/
theorem verdict_unique (hnodup : l.events.Nodup) {e : E} {v v' : Verdict E}
    (hv : (e, v) ∈ l.verdicts) (hv' : (e, v') ∈ l.verdicts) : v = v' := by
  have h := List.inj_on_of_nodup_map hnodup hv hv' rfl
  exact congrArg Prod.snd h

/-- An event was inserted just if one row was inserted for it. -/
theorem Sound.count_eq_one [DecidableEq E] (h : Sound key l) (hnodup : l.events.Nodup) (e : E) :
    l.inserted.count e = 1 ↔ (e, .inserted) ∈ l.verdicts := by
  have hrows : e ∈ l.inserted ↔ (e, .inserted) ∈ l.verdicts := by
    rw [Log.inserted, List.mem_filterMap]
    constructor
    · rintro ⟨r, hr, hre⟩
      exact (h.row r hr e hre).2
    · intro hv
      exact ⟨_, h.inserted e hv, rfl⟩
  rw [← hrows]
  constructor
  · intro hcount
    exact List.count_pos_iff.1 (by omega)
  · exact List.count_eq_one_of_mem (h.sublist.nodup hnodup)

/-- The events of the sole classes are all inserted, and no event is a replay of one of another class, just
when the keys of any two events of one sole class, or of different classes, are different. -/
theorem Sound.apart_iff (h : Sound key l) (hnodup : l.events.Nodup) (cls : E → C)
    (sole : C → Prop) :
    ((∀ e ∈ l.events, sole (cls e) → (e, .inserted) ∈ l.verdicts) ∧
      ∀ e first, (e, .replayOf (some first)) ∈ l.verdicts → cls first = cls e) ↔
    ∀ e ∈ l.events, ∀ e' ∈ l.events, e ≠ e' →
      sole (cls e) ∨ cls e ≠ cls e' → key e ≠ key e' := by
  constructor
  · rintro ⟨hsole, hcls⟩ e he e' he' hne hkind hkey
    obtain ⟨first, hins, hfirst, hcase⟩ := h.exists_first he
    obtain ⟨first', hins', hfirst', hcase'⟩ := h.exists_first he'
    obtain rfl : first = first' :=
      h.unique first first' hins hins' ((hfirst.trans hkey).trans hfirst'.symm)
    have hclass : ∀ x, (x = first ∨ (x, .replayOf (some first)) ∈ l.verdicts) →
        cls first = cls x := by
      rintro x (rfl | hx)
      · rfl
      · exact hcls x first hx
    have hsame : cls e = cls e' := (hclass e hcase).symm.trans (hclass e' hcase')
    rcases hkind with hkind | hdiff
    · exact hne (h.unique e e' (hsole e he hkind) (hsole e' he' (hsame ▸ hkind)) hkey)
    · exact hdiff hsame
  · intro hapart
    have hdiff : ∀ e first, (e, .replayOf (some first)) ∈ l.verdicts →
        first ∈ l.events ∧ e ∈ l.events ∧ first ≠ e ∧ key first = key e := by
      intro e first hv
      obtain ⟨first', hf, hins, hkey⟩ := h.replay e (some first) hv
      obtain rfl : first = first' := Option.some.inj hf
      refine ⟨mem_events.2 ⟨_, hins⟩, mem_events.2 ⟨_, hv⟩, ?_, hkey⟩
      rintro rfl
      exact nomatch verdict_unique hnodup hv hins
    have hcls : ∀ e first, (e, .replayOf (some first)) ∈ l.verdicts → cls first = cls e := by
      intro e first hv
      obtain ⟨hfirst, he, hne, hkey⟩ := hdiff e first hv
      by_contra hcls
      exact hapart first hfirst e he hne (.inr hcls) hkey
    refine ⟨fun e he hsole => ?_, hcls⟩
    obtain ⟨first, hins, hkey, rfl | hv⟩ := h.exists_first he
    · exact hins
    · obtain ⟨hfirst, -, hne, -⟩ := hdiff e first hv
      have hsole' : sole (cls first) := hcls e first hv ▸ hsole
      exact absurd hkey (hapart first hfirst e he hne (.inl hsole'))

end Dedup

end Hekma
