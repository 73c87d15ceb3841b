/-
**Concurrent writes of the configuration** (`registry.rs`, `set_config` and
`acquire_config_write_lock`).

A write of a key reads the file of the instance, changes the table and replaces the file.  Any
number of processes do so at once; a lock beside the file is held from the reading to the
replacement, and the system gives it back when its holder dies.

Main definitions:

* `Writers.check`, `Writers.load` — what a call does before it has the lock, and with it;
* `Writers.step`, `Writers.run` — the calls, each in its steps, in any order;
* `Writers.replay` — the calls one after the other, each alone;
* `Writers.put` — a write, of a configuration that is nothing but its leaves.

Main results:

* `Writers.linear_run` — **the file is what the calls leave that have replaced it, one after the
  other**; the others leave nothing, and each answer is that of the call alone;
* `Writers.refines_run` — the leaves of the file are those of the writes one after the other;
* `Writers.kept_run` — a value that has been accepted is in the file.
-/

import Hekma.Lib.Slots
import Hekma.Domain.ConfigWrite

set_option relaxedAutoImplicit false
set_option autoImplicit false

namespace Hekma

namespace Writers

/-! ### A call -/

/-- A call: what it is given, and what it finds out about the instance. -/
structure Call where
  key : String
  value : String
  registered : Except String Bool
  meteringSource : Except String String

/-- The file of the configuration. -/
abbrev File := Option (Except String String)

section Call

variable (toml : TomlCrate) (w : ConfigWorld) (c : Call)

/-- What a call finds: the instance, the file, the lock and whether the file can be replaced. -/
def Call.world (file : File) (lock writable : Except String Unit) : ConfigWorld :=
  { w with
    registered := c.registered
    meteringSource := c.meteringSource
    lock := lock
    file := file
    writable := writable }

/-- What is checked before the lock is taken. -/
def check : Except ConfigError Unit := do
  let found := c.world w none (.ok ()) (.ok ())
  found.requireInstance
  validateWrite c.key c.value
  found.refuseBlockWithoutListener c.key c.value

/-- The text that replaces the file. -/
def load (file : File) : Except ConfigError String := do
  let found := c.world w file (.ok ()) (.ok ())
  let layer ← found.instanceConfigLayer toml
  let table ← setDotted c.key (.string c.value) (segments c.key) "" layer.table
  found.serialize toml table

/-- A call alone, of which its steps are parts. -/
def alone (file : File) (lock writable : Except String Unit) :
    Except ConfigError (ConfigWorld × List String) :=
  (c.world w file lock writable).setConfig toml c.key c.value

/-- The steps of a call make up the call. -/
theorem alone_eq (file : File) (lock writable : Except String Unit) :
    alone toml w c file lock writable = (do
      check w c
      (c.world w file lock writable).acquireConfigWriteLock
      let text ← load toml w c file
      let written ← (c.world w file lock writable).writeAtomically text
      return (written, w.secretFlagSteering c.key c.value)) := by
  rw [alone, ConfigWorld.setConfig, check, load]
  simp only [bind_assoc]
  rfl

end Call

/-! ### The calls, at the same time -/

/-- How far a call has come. -/
inductive Phase where
  /-- It has passed the checks, and tries to take the lock. -/
  | waiting
  | holding
  /-- It has read the file, and has the text that is to replace it. -/
  | printed (text : String)
  | answered (answer : Except ConfigError (List String))
  /-- Its process has died. -/
  | killed

/-- The lock is held. -/
def Phase.owns : Phase → Bool
  | .holding | .printed _ => true
  | .waiting | .answered _ | .killed => false

structure Writer where
  call : Call
  phase : Phase

/-- The file and the lock of an instance, and the calls. -/
structure Shared where
  file : File
  holder : Option ℕ
  writers : List Writer
  /-- The calls whose text has replaced the file, as they have come. -/
  landed : List (ℕ × Call)

inductive Event where
  | call (c : Call)
  | tryLock (i : ℕ)
  /-- The lock cannot be taken: its file cannot be opened, or too much time has passed. -/
  | giveUp (i : ℕ) (detail : String)
  | load (i : ℕ)
  | write (i : ℕ) (writable : Except String Unit)
  /-- The process of the call dies, perhaps between the replacement of the file and the answer. -/
  | kill (i : ℕ) (replaced : Bool)

variable (toml : TomlCrate) (w : ConfigWorld)

/-- Where a call stands after the checks. -/
def opening (c : Call) : Phase :=
  match check w c with
  | .ok () => .waiting
  | .error e => .answered (.error e)

namespace Shared

def start (file : File) : Shared := ⟨file, none, [], []⟩

/-- The call goes on, and keeps or takes the lock, or gives it back. -/
def goOn (s : Shared) (i : ℕ) (c : Call) (phase : Phase) (holder : Option ℕ) : Shared :=
  { s with holder := holder, writers := s.writers.set i ⟨c, phase⟩ }

/-- The text of the call replaces the file, and the lock is given back. -/
def land (s : Shared) (i : ℕ) (c : Call) (phase : Phase) (file : File) : Shared :=
  ⟨file, none, s.writers.set i ⟨c, phase⟩, s.landed ++ [(i, c)]⟩

def step (s : Shared) : Event → Shared
  | .call c => { s with writers := s.writers ++ [⟨c, opening w c⟩] }
  | .tryLock i =>
      match s.writers[i]? with
      | some ⟨c, .waiting⟩ => if s.holder.isNone then s.goOn i c .holding (some i) else s
      | _ => s
  | .giveUp i detail =>
      match s.writers[i]? with
      | some ⟨c, .waiting⟩ => s.goOn i c (.answered (.error (.store w.name detail))) s.holder
      | _ => s
  | .load i =>
      match s.writers[i]? with
      | some ⟨c, .holding⟩ =>
          match load toml w c s.file with
          | .ok text => s.goOn i c (.printed text) s.holder
          | .error e => s.goOn i c (.answered (.error e)) none
      | _ => s
  | .write i writable =>
      match s.writers[i]? with
      | some ⟨c, .printed text⟩ =>
          match (c.world w s.file (.ok ()) writable).writeAtomically text with
          | .ok written => s.land i c (.answered (.ok (w.secretFlagSteering c.key c.value)))
              written.file
          | .error e => s.goOn i c (.answered (.error e)) none
      | _ => s
  | .kill i replaced =>
      match s.writers[i]? with
      | some ⟨c, .printed text⟩ =>
          if replaced then s.land i c .killed (some (.ok text)) else s.goOn i c .killed none
      | some ⟨c, .holding⟩ => s.goOn i c .killed none
      | some ⟨c, .waiting⟩ => s.goOn i c .killed s.holder
      | _ => s

end Shared

def run (file : File) (events : List Event) : Shared :=
  events.foldl (Shared.step toml w) (.start file)

/-- The file after the calls, one after the other, each alone. -/
def replay : File → List Call → Option File
  | file, [] => some file
  | file, c :: calls =>
      match alone toml w c file (.ok ()) (.ok ()) with
      | .ok (written, _) => replay written.file calls
      | .error _ => none

/-! ### What holds of a call -/

/-- The answer of a call that has failed is that of the call alone, at some point in the order of
those that have replaced the file. -/
def FailsAlone (first : File) (landed : List (ℕ × Call)) (c : Call) (e : ConfigError) : Prop :=
  ∃ before file lock writable, before <+: landed ∧
    replay toml w first (before.map Prod.snd) = some file ∧
    alone toml w c file lock writable = .error e

/-- How a call stands to the file. -/
def Explained (first : File) (file : File) (landed : List (ℕ × Call)) (i : ℕ) (x : Writer) : Prop :=
  match x.phase with
  | .waiting | .holding => check w x.call = .ok () ∧ (landed.map Prod.fst).count i = 0
  | .printed text => check w x.call = .ok () ∧ load toml w x.call file = .ok text ∧
      (landed.map Prod.fst).count i = 0
  | .answered (.ok warnings) => (landed.map Prod.fst).count i = 1 ∧
      warnings = w.secretFlagSteering x.call.key x.call.value
  | .answered (.error e) => (landed.map Prod.fst).count i = 0 ∧
      FailsAlone toml w first landed x.call e
  | .killed => (landed.map Prod.fst).count i ≤ 1

/-- The calls that have replaced the file, one after the other and each alone, leave the file as it
is; at most one call holds the lock; and each call has the answer it has alone. -/
structure Linear (first : File) (s : Shared) : Prop where
  file : replay toml w first (s.landed.map Prod.snd) = some s.file
  holder : Slots.All (fun i x => x.phase.owns = true ↔ s.holder = some i) s.writers
  landed : ∀ i c, (i, c) ∈ s.landed → ∃ phase, s.writers[i]? = some ⟨c, phase⟩
  each : Slots.All (Explained toml w first s.file s.landed) s.writers
  absent : ∀ i, s.holder = some i → i < s.writers.length

section

variable {toml : TomlCrate} {w : ConfigWorld} {first : File} {s : Shared} {i : ℕ} {c : Call}

theorem replay_append (file : File) (calls more : List Call) :
    replay toml w file (calls ++ more) =
      (replay toml w file calls).bind fun file => replay toml w file more := by
  induction calls generalizing file with
  | nil => rfl
  | cons c calls ih =>
      rw [List.cons_append, replay, replay]
      cases alone toml w c file (.ok ()) (.ok ()) with
      | error e => rfl
      | ok answer => exact ih _

/-- A call that gets through its checks and has a text to replace the file with. -/
theorem alone_of_load {file : File} {text : String} (hcheck : check w c = .ok ())
    (hload : load toml w c file = .ok text) :
    alone toml w c file (.ok ()) (.ok ()) =
      .ok (c.world w (some (.ok text)) (.ok ()) (.ok ()), w.secretFlagSteering c.key c.value) := by
  rw [alone_eq, hcheck, hload]
  rfl

theorem FailsAlone.mono {landed more : List (ℕ × Call)} {e : ConfigError}
    (h : FailsAlone toml w first landed c e) (hmore : landed <+: more) :
    FailsAlone toml w first more c e := by
  obtain ⟨before, file, lock, writable, hbefore, hreplay, halone⟩ := h
  exact ⟨before, file, lock, writable, hbefore.trans hmore, hreplay, halone⟩

/-- What holds of a call that goes on while another one does nothing to the file. -/
theorem Linear.goOn {old phase : Phase} {holder : Option ℕ} (h : Linear toml w first s)
    (hx : s.writers[i]? = some ⟨c, old⟩)
    (hself : phase.owns = true ↔ holder = some i)
    (hothers : ∀ j, j ≠ i → (holder = some j ↔ s.holder = some j))
    (hexplained : Explained toml w first s.file s.landed i ⟨c, phase⟩) :
    Linear toml w first (s.goOn i c phase holder) := by
  have hlt : i < s.writers.length := (List.getElem?_eq_some_iff.1 hx).1
  refine ⟨h.file, ?_, ?_, ?_, ?_⟩
  · exact Slots.All.set
      (fun j y hy hji => (h.holder j y hy).trans (hothers j hji).symm) hself
  · intro j d hd
    obtain ⟨before, hbefore⟩ := h.landed j d hd
    by_cases hji : j = i
    · subst hji
      obtain rfl : c = d := by
        rw [hx] at hbefore
        exact (Writer.mk.inj (Option.some.inj hbefore)).1
      exact ⟨phase, List.getElem?_set_self hlt⟩
    · exact ⟨before, by rw [Shared.goOn, List.getElem?_set_ne (Ne.symm hji), hbefore]⟩
  · exact Slots.All.set (fun j y hy _ => h.each j y hy) hexplained
  · intro j hj
    rw [Shared.goOn, List.length_set]
    by_cases hji : j = i
    · exact hji ▸ hlt
    · exact h.absent j ((hothers j hji).1 hj)

/-- A call that does not hold the lock, after another one has replaced the file. -/
theorem Explained.land {j : ℕ} {y : Writer} {file : File}
    (h : Explained toml w first s.file s.landed j y) (hji : j ≠ i) (howns : y.phase.owns = false) :
    Explained toml w first file (s.landed ++ [(i, c)]) j y := by
  have hcount : ((s.landed ++ [(i, c)]).map Prod.fst).count j =
      (s.landed.map Prod.fst).count j := by
    rw [List.map_append, List.count_append, List.map_singleton,
      List.count_singleton, if_neg (by simpa using Ne.symm hji), Nat.add_zero]
  rw [Explained] at h ⊢
  rw [hcount]
  cases hphase : y.phase with
  | waiting =>
      rw [hphase] at h
      exact h
  | holding =>
      rw [hphase] at howns
      cases howns
  | printed text =>
      rw [hphase] at howns
      cases howns
  | answered answer =>
      rw [hphase] at h
      cases answer with
      | ok warnings => exact h
      | error e => exact ⟨h.1, h.2.mono (List.prefix_append _ _)⟩
  | killed =>
      rw [hphase] at h
      exact h

/-- What holds when a text replaces the file. -/
theorem Linear.land {text : String} {phase : Phase} (h : Linear toml w first s)
    (hx : s.writers[i]? = some ⟨c, .printed text⟩) (hphase : phase.owns = false)
    (hexplained : (s.landed.map Prod.fst).count i = 0 →
      Explained toml w first (some (.ok text)) (s.landed ++ [(i, c)]) i ⟨c, phase⟩) :
    Linear toml w first (s.land i c phase (some (.ok text))) := by
  have hlt : i < s.writers.length := (List.getElem?_eq_some_iff.1 hx).1
  have hholder : s.holder = some i := (h.holder i _ hx).1 rfl
  have hfree : ∀ j y, s.writers[j]? = some y → j ≠ i → y.phase.owns = false := by
    intro j y hy hji
    refine Bool.eq_false_iff.2 fun howns => hji ?_
    exact (Option.some.inj (hholder.symm.trans ((h.holder j y hy).1 howns))).symm
  obtain ⟨hcheck, hload, hcount⟩ := h.each i _ hx
  refine ⟨?_, ?_, ?_, ?_, ?_⟩
  · rw [Shared.land, List.map_append, replay_append, h.file, Option.bind_some, List.map_singleton]
    simp only [replay, alone_of_load hcheck hload]
    rfl
  · refine Slots.All.set (fun j y hy hji => ?_) ?_
    · rw [hfree j y hy hji]
      exact ⟨fun hfalse => absurd hfalse Bool.false_ne_true, fun hnone => by cases hnone⟩
    · rw [hphase]
      exact ⟨fun hfalse => absurd hfalse Bool.false_ne_true, fun hnone => by cases hnone⟩
  · intro j d hd
    rcases List.mem_append.1 hd with hd | hd
    · obtain ⟨old, hold⟩ := h.landed j d hd
      by_cases hji : j = i
      · subst hji
        obtain rfl : c = d := by
          rw [hx] at hold
          exact (Writer.mk.inj (Option.some.inj hold)).1
        exact ⟨phase, List.getElem?_set_self hlt⟩
      · exact ⟨old, by rw [Shared.land, List.getElem?_set_ne (Ne.symm hji), hold]⟩
    · obtain ⟨rfl, rfl⟩ := Prod.mk.inj (List.mem_singleton.1 hd)
      exact ⟨phase, List.getElem?_set_self hlt⟩
  · exact Slots.All.set (fun j y hy hji => (h.each j y hy).land hji (hfree j y hy hji))
      (hexplained hcount)
  · intro j hj
    cases hj

theorem count_landed (hcount : (s.landed.map Prod.fst).count i = 0) :
    ((s.landed ++ [(i, c)]).map Prod.fst).count i = 1 := by
  rw [List.map_append, List.count_append, hcount, List.map_singleton, List.count_singleton_self]

/-- The answer of the call alone, where a step of it fails. -/
theorem alone_of_error {e : ConfigError} (hcheck : check w c = .error e) (file : File)
    (lock writable : Except String Unit) : alone toml w c file lock writable = .error e := by
  rw [alone_eq, hcheck]
  rfl

theorem alone_of_locked (hcheck : check w c = .ok ()) (file : File) (detail : String)
    (writable : Except String Unit) :
    alone toml w c file (.error detail) writable = .error (.store w.name detail) := by
  rw [alone_eq, hcheck]
  rfl

theorem alone_of_load_error {file : File} {e : ConfigError} (hcheck : check w c = .ok ())
    (hload : load toml w c file = .error e) (writable : Except String Unit) :
    alone toml w c file (.ok ()) writable = .error e := by
  rw [alone_eq, hcheck, hload]
  rfl

theorem alone_of_unwritable {file : File} {text : String} {e : ConfigError}
    {writable : Except String Unit} (hcheck : check w c = .ok ())
    (hload : load toml w c file = .ok text)
    (hwrite : (c.world w file (.ok ()) writable).writeAtomically text = .error e) :
    alone toml w c file (.ok ()) writable = .error e := by
  rw [alone_eq, hcheck, hload]
  change ((c.world w file (.ok ()) writable).writeAtomically text >>= fun written =>
    pure (written, w.secretFlagSteering c.key c.value)) = .error e
  rw [hwrite]
  rfl

/-- A call fails on the file as it is. -/
theorem Linear.failsAlone {e : ConfigError} {lock writable : Except String Unit}
    (h : Linear toml w first s) (halone : alone toml w c s.file lock writable = .error e) :
    FailsAlone toml w first s.landed c e :=
  ⟨s.landed, s.file, lock, writable, List.prefix_rfl, h.file, halone⟩

theorem written_file {file : File} {text : String} {writable : Except String Unit}
    {written : ConfigWorld}
    (h : (c.world w file (.ok ()) writable).writeAtomically text = .ok written) :
    written.file = some (.ok text) := by
  rw [ConfigWorld.writeAtomically] at h
  split at h
  · cases h
    rfl
  · cases h

theorem not_owns_iff {phase : Phase} {holder : Option ℕ} (hphase : phase.owns = false)
    (hholder : holder ≠ some i) : phase.owns = true ↔ holder = some i := by
  rw [hphase]
  exact ⟨fun hfalse => absurd hfalse Bool.false_ne_true, fun hself => absurd hself hholder⟩

/-- The lock is given back. -/
theorem Linear.release {old phase : Phase} (h : Linear toml w first s)
    (hx : s.writers[i]? = some ⟨c, old⟩) (howns : old.owns = true)
    (hphase : phase.owns = false)
    (hexplained : Explained toml w first s.file s.landed i ⟨c, phase⟩) :
    Linear toml w first (s.goOn i c phase none) := by
  have hholder : s.holder = some i := (h.holder i _ hx).1 howns
  refine h.goOn hx (not_owns_iff hphase fun hnone => by cases hnone) (fun j hji => ?_) hexplained
  rw [hholder]
  exact ⟨fun hnone => absurd hnone (Option.some_ne_none j).symm,
    fun hj => absurd (Option.some.inj hj).symm hji⟩

theorem linear_call (h : Linear toml w first s) (c : Call) :
    Linear toml w first { s with writers := s.writers ++ [⟨c, opening w c⟩] } := by
  have hnew : ∀ d, (s.writers.length, d) ∉ s.landed := by
    intro d hd
    obtain ⟨phase, hphase⟩ := h.landed _ d hd
    exact absurd (List.getElem?_eq_some_iff.1 hphase).1 (Nat.lt_irrefl _)
  have hcount : (s.landed.map Prod.fst).count s.writers.length = 0 := by
    refine List.count_eq_zero.2 fun hmem => ?_
    obtain ⟨⟨j, d⟩, hd, rfl⟩ := List.mem_map.1 hmem
    exact hnew d hd
  refine ⟨h.file, h.holder.append ?_, ?_, h.each.append ?_, ?_⟩
  · have hopening : (opening w c).owns = false := by
      rw [opening]
      split <;> rfl
    exact not_owns_iff hopening fun hself => absurd (h.absent _ hself) (Nat.lt_irrefl _)
  · intro j d hd
    obtain ⟨phase, hphase⟩ := h.landed j d hd
    exact ⟨phase, List.getElem?_append_left (List.getElem?_eq_some_iff.1 hphase).1 ▸ hphase⟩
  · cases hcheck : check w c with
    | ok =>
        have hopening : opening w c = .waiting := by rw [opening, hcheck]
        rw [hopening]
        exact ⟨hcheck, hcount⟩
    | error e =>
        have hopening : opening w c = .answered (.error e) := by rw [opening, hcheck]
        rw [hopening]
        exact ⟨hcount, h.failsAlone (alone_of_error hcheck _ (.ok ()) (.ok ()))⟩
  · intro j hj
    rw [List.length_append]
    exact Nat.lt_add_right _ (h.absent j hj)

theorem linear_step (h : Linear toml w first s) (event : Event) :
    Linear toml w first (s.step toml w event) := by
  cases event with
  | call c => exact linear_call h c
  | tryLock i =>
      rw [Shared.step]
      split
      · next c hx =>
          split
          · next hfree =>
              have hnone := Option.isNone_iff_eq_none.1 hfree
              have hexplained := h.each i _ hx
              refine h.goOn hx ⟨fun _ => rfl, fun _ => rfl⟩ (fun j hji => ?_) hexplained
              rw [hnone]
              exact ⟨fun hj => absurd (Option.some.inj hj).symm hji,
                fun hj => absurd hj (Option.some_ne_none j).symm⟩
          · exact h
      · exact h
  | giveUp i detail =>
      rw [Shared.step]
      split
      · next c hx =>
          have hheld : s.holder ≠ some i :=
            fun hself => Bool.false_ne_true ((h.holder i _ hx).2 hself)
          obtain ⟨hcheck, hcount⟩ := h.each i _ hx
          exact h.goOn hx (not_owns_iff rfl hheld) (fun j _ => Iff.rfl)
            ⟨hcount, h.failsAlone (alone_of_locked hcheck _ detail (.ok ()))⟩
      · exact h
  | load i =>
      rw [Shared.step]
      split
      · next c hx =>
          obtain ⟨hcheck, hcount⟩ := h.each i _ hx
          split
          · next text hload =>
              exact h.goOn hx (h.holder i _ hx) (fun j _ => Iff.rfl) ⟨hcheck, hload, hcount⟩
          · next e hload =>
              exact h.release hx rfl rfl
                ⟨hcount, h.failsAlone (alone_of_load_error hcheck hload (.ok ()))⟩
      · exact h
  | write i writable =>
      rw [Shared.step]
      split
      · next c text hx =>
          obtain ⟨hcheck, hload, hcount⟩ := h.each i _ hx
          split
          · next written hwrite =>
              rw [written_file hwrite]
              exact h.land hx rfl fun hcount => ⟨count_landed hcount, rfl⟩
          · next e hwrite =>
              exact h.release hx rfl rfl
                ⟨hcount, h.failsAlone (alone_of_unwritable hcheck hload hwrite)⟩
      · exact h
  | kill i replaced =>
      rw [Shared.step]
      split
      · next c text hx =>
          obtain ⟨-, -, hcount⟩ := h.each i _ hx
          split
          · exact h.land hx rfl fun hcount => (count_landed hcount).le
          · exact h.release hx rfl rfl (hcount.le.trans zero_le_one)
      · next c hx => exact h.release hx rfl rfl ((h.each i _ hx).2.le.trans zero_le_one)
      · next c hx =>
          have hheld : s.holder ≠ some i :=
            fun hself => Bool.false_ne_true ((h.holder i _ hx).2 hself)
          exact h.goOn hx (not_owns_iff rfl hheld) (fun j _ => Iff.rfl)
            ((h.each i _ hx).2.le.trans zero_le_one)
      · exact h

theorem linear_start (file : File) : Linear toml w file (.start file) :=
  ⟨rfl, .nil, fun _ _ h => absurd h List.not_mem_nil, .nil, fun _ h => by cases h⟩

theorem linear_foldl (h : Linear toml w first s) (events : List Event) :
    Linear toml w first (events.foldl (Shared.step toml w) s) := by
  induction events generalizing s with
  | nil => exact h
  | cons event events ih => exact ih (linear_step h event)

/-- **The file is what the calls that have replaced it leave, one after the other**, whatever the
calls do at the same time, and wherever their processes die.  A call that was answered without an
error is one of them, exactly once; one that failed is none of them. -/
theorem linear_run (toml : TomlCrate) (w : ConfigWorld) (file : File) (events : List Event) :
    Linear toml w file (run toml w file events) := linear_foldl (linear_start file) events

end

/-! ### The leaves -/

instance decidableUnrelated (path path' : List String) : Decidable (Unrelated path path') :=
  inferInstanceAs (Decidable (¬ path <+: path' ∧ ¬ path' <+: path))

/-- A write, of a configuration that is nothing but its leaves: it changes one leaf, and what stands
above or below it goes. -/
def put (leaves : List String → Option Scalar) (c : Call) (path : List String) : Option Scalar :=
  if path = segments c.key then some (.string c.value)
  else if Unrelated path (segments c.key) then leaves path
  else none

/-- The layer of the instance with the given file. -/
def layerOf (toml : TomlCrate) (w : ConfigWorld) (file : File) :
    Except ConfigError (ConfigLayer Scalar) :=
  ({ w with file := file } : ConfigWorld).instanceConfigLayer toml

section Leaves

variable {toml : TomlCrate} {w : ConfigWorld} {c : Call}

theorem not_unrelated_self (path : List String) : ¬ Unrelated path path :=
  fun h => h.1 List.prefix_rfl

theorem leafAt_eq_put {table written : KeyTree String Scalar}
    (h : setDotted c.key (.string c.value) (segments c.key) "" table = .ok written) :
    written.leafAt = put table.leafAt c := by
  funext path
  refine Option.ext fun v => (leafAt_setDotted h (segments_ne_nil c.key)).trans ?_
  rw [put]
  split_ifs with hpath hrelated
  · rw [Option.some.injEq, hpath]
    exact ⟨fun hv => hv.elim (fun hv => hv.2.symm) fun hv => absurd hv.1 (not_unrelated_self _),
      fun hv => .inl ⟨rfl, hv.symm⟩⟩
  · exact ⟨fun hv => hv.elim (fun hv => absurd hv.1 hpath) fun hv => hv.2,
      fun hv => .inr ⟨hrelated, hv⟩⟩
  · exact ⟨fun hv => hv.elim (fun hv => absurd hv.1 hpath) fun hv => absurd hv.1 hrelated,
      fun hv => by cases hv⟩

/-- One call alone. -/
theorem alone_put (hround : toml.RoundTrips) {file : File} {written : ConfigWorld}
    {warnings : List String}
    (h : alone toml w c file (.ok ()) (.ok ()) = .ok (written, warnings)) :
    ∃ layer last, layerOf toml w file = .ok layer ∧ layerOf toml w written.file = .ok last ∧
      last.table.leafAt = put layer.table.leafAt c := by
  obtain ⟨-, -, layer, table, text, hlayer, htable, htext, rfl⟩ := setConfig_ok h
  obtain ⟨last, hparse, hleaves⟩ :=
    hround table text (distinct_setDotted htable layer.distinct) htext
  refine ⟨layer, last, hlayer, ?_, ?_⟩
  · simp only [layerOf, ConfigWorld.instanceConfigLayer, hparse]
  · rw [← leafAt_eq_put htable]
    exact funext hleaves

theorem replay_put (hround : toml.RoundTrips) {calls : List Call} {file file' : File}
    {layer : ConfigLayer Scalar} (hlayer : layerOf toml w file = .ok layer)
    (h : replay toml w file calls = some file') :
    ∃ last, layerOf toml w file' = .ok last ∧
      last.table.leafAt = calls.foldl put layer.table.leafAt := by
  induction calls generalizing file layer with
  | nil =>
      obtain rfl := Option.some.inj h
      exact ⟨layer, hlayer, rfl⟩
  | cons c calls ih =>
      rw [replay] at h
      split at h
      · next written warnings halone =>
          obtain ⟨layer', next, hlayer', hnext, hput⟩ := alone_put hround halone
          obtain rfl := Except.ok.inj (hlayer.symm.trans hlayer')
          rw [List.foldl_cons, ← hput]
          exact ih hnext h
      · cases h

/-- **The leaves of the file are those of the writes that have replaced it**, one after the
other. -/
theorem refines_run (hround : toml.RoundTrips) {file : File} {layer : ConfigLayer Scalar}
    (hlayer : layerOf toml w file = .ok layer) (events : List Event) :
    ∃ last, layerOf toml w (run toml w file events).file = .ok last ∧
      last.table.leafAt =
        ((run toml w file events).landed.map Prod.snd).foldl put layer.table.leafAt :=
  replay_put hround hlayer (linear_foldl (linear_start file) events).file

/-- Writes of other keys leave the leaf. -/
theorem foldl_put {leaves : List String → Option Scalar} {calls : List Call} {path : List String}
    (h : ∀ c ∈ calls, Unrelated path (segments c.key)) :
    calls.foldl put leaves path = leaves path := by
  induction calls generalizing leaves with
  | nil => rfl
  | cons c calls ih =>
      have hc := h c List.mem_cons_self
      rw [List.foldl_cons, ih fun d hd => h d (List.mem_cons_of_mem c hd), put, if_neg, if_pos hc]
      rintro rfl
      exact not_unrelated_self _ hc

/-- **A value that has been accepted is in the file**, as long as the other calls that replace the
file are about keys that are neither above nor below. -/
theorem kept_run (hround : toml.RoundTrips) {file : File} {events : List Event} {i : ℕ}
    {warnings : List String}
    (hx : (run toml w file events).writers[i]? = some ⟨c, .answered (.ok warnings)⟩)
    (hothers : ∀ j d, (j, d) ∈ (run toml w file events).landed → j ≠ i →
      Unrelated (segments c.key) (segments d.key)) :
    ∃ last, layerOf toml w (run toml w file events).file = .ok last ∧
      last.table.leafAt (segments c.key) = some (.string c.value) := by
  have hlinear : Linear toml w file (run toml w file events) :=
    linear_foldl (linear_start file) events
  obtain ⟨hcount, -⟩ := hlinear.each i _ hx
  have hmem : i ∈ ((run toml w file events).landed.map Prod.fst) :=
    List.count_pos_iff.1 (hcount ▸ Nat.one_pos)
  obtain ⟨⟨j, d⟩, hd, rfl⟩ := List.mem_map.1 hmem
  obtain ⟨phase, hphase⟩ := hlinear.landed j d hd
  obtain rfl : c = d := (Writer.mk.inj (Option.some.inj (hx.symm.trans hphase))).1
  obtain ⟨before, after, hsplit⟩ := List.append_of_mem hd
  have hfile := hlinear.file
  rw [hsplit, List.map_append, List.map_cons, replay_append] at hfile
  obtain ⟨met, -, hrest⟩ := Option.bind_eq_some_iff.1 hfile
  have hafter : ∀ d ∈ after.map Prod.snd, Unrelated (segments c.key) (segments d.key) := by
    intro d hd
    obtain ⟨⟨k, d⟩, hk, rfl⟩ := List.mem_map.1 hd
    refine hothers k d (by rw [hsplit]; simp [hk]) ?_
    rintro rfl
    rw [hsplit, List.map_append, List.count_append, List.map_cons] at hcount
    dsimp only at hcount
    rw [List.count_cons_self] at hcount
    have hpos : 0 < (after.map Prod.fst).count k :=
      List.count_pos_iff.2 (List.mem_map.2 ⟨(k, d), hk, rfl⟩)
    omega
  rw [replay] at hrest
  split at hrest
  · next written warnings halone =>
      obtain ⟨layer, next, -, hnext, hput⟩ := alone_put hround halone
      obtain ⟨last, hlast, hleaves⟩ := replay_put hround hnext hrest
      refine ⟨last, hlast, ?_⟩
      rw [hleaves, foldl_put hafter, hput, put, if_pos rfl]
  · cases hrest

end Leaves

/-! ### Two calls at once -/

/-- A printer of two tables, and its parser. -/
def printsTwo (first second : ConfigLayer Scalar) : TomlCrate where
  parse text :=
    if text = "first" then .ok first
    else if text = "second" then .ok second
    else .error "another text"
  toStringPretty table :=
    if table = first.table then .ok "first"
    else if table = second.table then .ok "second"
    else .error "another table"

theorem roundTrips_printsTwo (first second : ConfigLayer Scalar) :
    (printsTwo first second).RoundTrips := by
  intro table text _ h
  rw [printsTwo] at h
  dsimp only at h
  split_ifs at h with hfirst hsecond
  · cases h
    exact ⟨first, rfl, fun path => by rw [hfirst]⟩
  · cases h
    exact ⟨second, rfl, fun path => by rw [hsecond]⟩

theorem model_ne_agent : "model" ≠ "agent" := by decide

/-- The table of one key, and that of two. -/
def modelLayer : ConfigLayer Scalar :=
  ⟨.leaf "model" (.string "small") .nil, ⟨trivial, trivial⟩⟩

def modeLayer : ConfigLayer Scalar :=
  ⟨.leaf "model" (.string "small") (.sub "agent" (.leaf "mode" (.string "fast") .nil) .nil),
    ⟨⟨model_ne_agent, trivial⟩, trivial, trivial, trivial, trivial⟩⟩

def setModel : Call := ⟨"model", "small", .ok true, .ok "self-report"⟩
def setMode : Call := ⟨"agent.mode", "fast", .ok true, .ok "self-report"⟩

/-- The second call waits for the lock until the first one has replaced the file. -/
def twoAtOnce : List Event :=
  [.call setModel, .call setMode, .tryLock 0, .tryLock 1, .load 0, .load 1, .write 0 (.ok ()),
    .tryLock 1, .load 1, .write 1 (.ok ())]

/-- The first of two calls at once is in the file. -/
theorem kept_twoAtOnce : ∃ last,
    layerOf (printsTwo modelLayer modeLayer) Setting.freshWorld
        (run (printsTwo modelLayer modeLayer) Setting.freshWorld none twoAtOnce).file = .ok last ∧
      last.table.leafAt (segments "model") = some (.string "small") := by
  have hx : (run (printsTwo modelLayer modeLayer) Setting.freshWorld none
      twoAtOnce).writers[0]? = some ⟨setModel, .answered (.ok [])⟩ := rfl
  have hlanded : (run (printsTwo modelLayer modeLayer) Setting.freshWorld none
      twoAtOnce).landed = [(0, setModel), (1, setMode)] := rfl
  refine kept_run (roundTrips_printsTwo _ _) hx fun j d hd hj => ?_
  rw [hlanded, List.mem_cons, List.mem_singleton] at hd
  rcases hd with hd | hd
  · exact absurd (Prod.mk.inj hd).1 hj
  · rw [(Prod.mk.inj hd).2]
    decide

end Writers

end Hekma
