/-
**Replacing the installed binaries** (`cli/self_update.rs`, `FileBinaryInstaller`).

The binaries are written to temporary files first, all of them, and only then renamed over the
installed ones, the running executable last.  When a write fails the temporary files are removed and
nothing has been replaced.  When a rename fails the others are still tried, and the error names what
was replaced.  That list is made from the staged files and not from the renames that succeeded.

Main definitions:

* `SelfUpdate.Host` — the pattern of write and rename failures, and what the texts show;
* `SelfUpdate.stage`, `SelfUpdate.replaceStaged`, `SelfUpdate.replaceCurrentBinaries` — the code.

Main results:

* `SelfUpdate.stage_ok_iff` — staging succeeds if no write of a binary fails;
* `SelfUpdate.Staged`, `SelfUpdate.Unstaged` — what it leaves in either case;
* `SelfUpdate.Renaming.replaceStaged` — which renames succeed, and what they leave.
-/

import Hekma.Lib.Staging
import Mathlib.Data.List.Sort

set_option relaxedAutoImplicit false
set_option autoImplicit false

namespace Hekma.SelfUpdate

open Staging (Call Drive)

abbrev Bytes := List UInt8

/-- How the write of a temporary file fails.  A write that fails may leave a part of the file. -/
inductive WriteFault where
  | write (error : String) (left : Option Bytes)
  | metadata (error : String)
  | permissions (error : String)

/-- What the calls to the file system answer: for each file, its first write or rename, its second
and so on.  Further what the texts show. -/
structure Host where
  writeFault : String → ℕ → Option WriteFault
  renameFault : String → ℕ → Option String
  notFound : String
  pid : ℕ
  /-- The path of a file of the installation directory, as it is shown. -/
  display : String → String

/-- The executable that runs: its directory, its name if that is a text, and whether it is there. -/
structure CurrentExe where
  parent : Option String
  fileName : Option String
  isFile : Bool
  display : String

/-- A failure, with the list of what was replaced where there is one. -/
inductive SelfUpdateFailed where
  | other (message : String)
  | partlyReplaced (replaced failures : List String)
  deriving DecidableEq

def SelfUpdateFailed.message : SelfUpdateFailed → String
  | other message => message
  | partlyReplaced replaced failures =>
      "self-update partially failed (replaced: [" ++ ", ".intercalate replaced ++ "]): " ++
        "; ".intercalate failures

section

variable (host : Host)

def tempName (name : String) : String :=
  "." ++ name ++ ".self-update-" ++ toString host.pid ++ ".tmp"

def WriteFault.left (binary : Bytes) : WriteFault → Option Bytes
  | write _ left => left
  | metadata _ | permissions _ => some binary

def WriteFault.message (path : String) : WriteFault → String
  | write error _ => s!"Could not write {path}: {error}"
  | metadata error => s!"Could not read permissions for {path}: {error}"
  | permissions error => s!"Could not set permissions for {path}: {error}"

def writeReplacement (tempPath : String) (binary : Bytes) (d : Drive String Bytes) :
    Except String Unit × Drive String Bytes :=
  match host.writeFault tempPath (d.writes tempPath) with
  | none => (.ok (), d.write tempPath (some binary) true)
  | some fault =>
      (.error (fault.message (host.display tempPath)), d.write tempPath (fault.left binary) false)

/-- The first phase: every binary to its temporary file.  The first failure removes them all. -/
def stage : List (String × Bytes) → List (String × String) → Drive String Bytes →
    Except String (List (String × String)) × Drive String Bytes
  | [], staged, d => (.ok staged, d)
  | (name, binary) :: binaries, staged, d =>
      match writeReplacement host (tempName host name) binary d with
      | (.ok _, d) => stage binaries (staged ++ [(name, tempName host name)]) d
      | (.error error, d) =>
          (.error error, (d.remove (tempName host name)).removeAll (staged.map Prod.snd))

/-- The binaries other than the running one first. -/
def sortStaged (exe : CurrentExe) (staged : List (String × String)) : List (String × String) :=
  staged.insertionSort fun a b =>
    decide (some a.1 = exe.fileName) ≤ decide (some b.1 = exe.fileName)

/-- The second phase: every rename is tried. -/
def replaceStaged : List (String × String) → List String → Drive String Bytes →
    List String × Drive String Bytes
  | [], failures, d => (failures, d)
  | (name, tempPath) :: staged, failures, d =>
      match d.rename tempPath name (host.renameFault name (d.renames name)) host.notFound with
      | (none, d) => replaceStaged staged failures d
      | (some error, d) =>
          let target := host.display name
          replaceStaged staged (failures ++ [s!"could not replace {target}: {error}"])
            (d.remove tempPath)

def replaceCurrentBinaries (exe : CurrentExe) (binaries : List (String × Bytes))
    (d : Drive String Bytes) : Except SelfUpdateFailed Unit × Drive String Bytes :=
  match exe.parent with
  | none => (.error (.other "Could not find current executable directory."), d)
  | some _ =>
      let shown := exe.display
      if !exe.isFile then
        (.error (.other s!"Refusing to replace missing hekma executable at {shown}."), d)
      else
        match stage host binaries [] d with
        | (.error error, d) => (.error (.other error), d)
        | (.ok staged, d) =>
            let staged := sortStaged exe staged
            let (failures, d) := replaceStaged host staged [] d
            if failures.isEmpty then (.ok (), d)
            else (.error (.partlyReplaced (staged.map Prod.fst) failures), d)

end

variable {host : Host}

/-! ### The names of the temporary files -/

theorem tempName_injective {a b : String} (h : tempName host a = tempName host b) : a = b := by
  unfold tempName at h
  rw [String.append_left_inj, String.append_left_inj, String.append_left_inj,
    String.append_right_inj] at h
  exact h

/-- The names of binaries do not begin like those of temporary files. -/
def NotDotted (name : String) : Prop := name.toList.head? ≠ some '.'

instance (name : String) : Decidable (NotDotted name) :=
  inferInstanceAs (Decidable (name.toList.head? ≠ some '.'))

theorem NotDotted.ne_tempName {name : String} (h : NotDotted name) (other : String) :
    name ≠ tempName host other := by
  rintro rfl
  apply h
  simp [tempName]

/-! ### Staging -/

section

variable {binaries : List (String × Bytes)} {staged s : List (String × String)}
  {d d' : Drive String Bytes} {error : String}

/-- A write, with the next answer for its file. -/
theorem writeReplacement_cases (host : Host) (path : String) (binary : Bytes)
    (d : Drive String Bytes) :
    (host.writeFault path (d.writes path) = none ∧
      writeReplacement host path binary d = (.ok (), d.write path (some binary) true)) ∨
    ∃ fault e left, host.writeFault path (d.writes path) = some fault ∧
      writeReplacement host path binary d = (.error e, d.write path left false) := by
  cases hfault : host.writeFault path (d.writes path) with
  | none =>
      left
      refine ⟨rfl, ?_⟩
      simp only [writeReplacement, hfault]
  | some fault =>
      right
      refine ⟨fault, fault.message (host.display path), fault.left binary, rfl, ?_⟩
      simp only [writeReplacement, hfault]

/-- **Staging succeeds if no write of a binary fails**, none of as many as there are. -/
theorem stage_ok_iff (host : Host) (binaries : List (String × Bytes))
    (staged : List (String × String)) (d : Drive String Bytes) :
    (∃ s, (stage host binaries staged d).1 = .ok s) ↔
      ∀ name k, d.writes (tempName host name) ≤ k →
        k < d.writes (tempName host name) + (binaries.map Prod.fst).count name →
        host.writeFault (tempName host name) k = none := by
  induction binaries generalizing staged d with
  | nil =>
      simp only [stage, Except.ok.injEq, exists_eq', List.map_nil, List.count_nil, true_iff]
      intro name k hle hlt
      omega
  | cons x binaries ih =>
      obtain ⟨name, binary⟩ := x
      rcases writeReplacement_cases host (tempName host name) binary d with
        ⟨hfault, hwrite⟩ | ⟨fault, e, left, hfault, hwrite⟩
      · simp only [stage, hwrite, ih]
        refine forall_congr' fun other => ?_
        by_cases hname : name = other
        · subst hname
          simp only [Drive.writes_write, if_true, List.map_cons, List.count_cons_self]
          refine ⟨fun h k hle hlt => ?_, fun h k hle hlt => h k (by omega) (by omega)⟩
          by_cases hk : k = d.writes (tempName host name)
          · rw [hk, hfault]
          · exact h k (by omega) (by omega)
        · have hne : tempName host name ≠ tempName host other :=
            fun h => hname (tempName_injective h)
          simp [Drive.writes_write, hne, hname]
      · simp only [stage, hwrite, reduceCtorEq, exists_false, false_iff]
        intro h
        have hnone := h name _ le_rfl (by simp)
        rw [hfault] at hnone
        cases hnone

/-- What staging leaves when it succeeds. -/
structure Staged (host : Host) (binaries : List (String × Bytes)) (d d' : Drive String Bytes) :
    Prop where
  calls : ∃ l, d'.calls = d.calls ++ l ∧ ∀ c ∈ l, c.isRename = false
  others : ∀ p, (∀ x ∈ binaries, p ≠ tempName host x.1) → d'.files p = d.files p
  temps : ∀ name ∈ binaries.map Prod.fst, ∃ b, (name, b) ∈ binaries ∧
    d'.files (tempName host name) = some b

theorem staged_of_stage (h : stage host binaries staged d = (.ok s, d')) :
    s = staged ++ binaries.map (fun x => (x.1, tempName host x.1)) ∧ Staged host binaries d d' := by
  induction binaries generalizing staged d with
  | nil =>
      obtain ⟨hs, rfl⟩ := Prod.mk.inj h
      refine ⟨by simpa using (Except.ok.inj hs).symm, ⟨[], by simp⟩, fun p _ => rfl, ?_⟩
      simp
  | cons x binaries ih =>
      obtain ⟨name, binary⟩ := x
      rcases writeReplacement_cases host (tempName host name) binary d with
        ⟨-, hwrite⟩ | ⟨fault, e, left, -, hwrite⟩
      · simp only [stage, hwrite] at h
        obtain ⟨rfl, ⟨l, hl, hcalls⟩, hothers, htemps⟩ := ih h
        refine ⟨by simp, ⟨.write (tempName host name) true :: l, by simp [hl], ?_⟩, ?_, ?_⟩
        · intro c hc
          rcases List.mem_cons.1 hc with rfl | hc
          · rfl
          · exact hcalls c hc
        · intro p hp
          rw [hothers p fun x hx => hp x (List.mem_cons_of_mem _ hx)]
          exact Drive.files_write_of_ne d _ (hp _ List.mem_cons_self) _ _
        · intro other hother
          by_cases hlater : other ∈ binaries.map Prod.fst
          · obtain ⟨b, hb, hfile⟩ := htemps other hlater
            exact ⟨b, List.mem_cons_of_mem _ hb, hfile⟩
          · -- the head is the last to write this file
            have hname : other = name := by
              simpa [hlater] using hother
            subst hname
            refine ⟨binary, List.mem_cons_self, ?_⟩
            rw [hothers _ fun x hx heq => hlater ?_, Drive.files_write_self]
            rw [tempName_injective heq]
            exact List.mem_map_of_mem hx
      · simp [stage, hwrite] at h

/-- Staging renames nothing. -/
theorem Staged.not_renames (h : Staged host binaries d d') (n : String) :
    d'.renames n = d.renames n ∧ (Call.rename n true ∈ d'.calls ↔ .rename n true ∈ d.calls) := by
  obtain ⟨l, hl, hcalls⟩ := h.calls
  constructor
  · rw [Drive.renames, hl, List.countP_append, Drive.renames, Nat.add_eq_left,
      List.countP_eq_zero]
    intro c hc hn
    have hnot := hcalls c hc
    cases c with
    | rename target ok => cases hnot
    | write path ok => cases hn
    | remove path => cases hn
  · rw [hl, List.mem_append]
    refine ⟨fun hmem => hmem.resolve_right fun hc => ?_, .inl⟩
    cases hcalls _ hc

/-- What staging leaves when it fails: what it wrote, all temporary files, is gone. -/
def Unstaged (host : Host) (d d' : Drive String Bytes) (paths : List String) : Prop :=
  ∃ l, d'.calls = d.calls ++ l ∧ (∀ c ∈ l, c.isRename = false) ∧
    (∀ p ok, .write p ok ∈ l → ∃ name, p = tempName host name) ∧
    ∀ p, d'.files p = if p ∈ paths ∨ (∃ ok, .write p ok ∈ l) then none else d.files p

theorem unstaged_of_stage (h : stage host binaries staged d = (.error error, d')) :
    Unstaged host d d' (staged.map Prod.snd) := by
  induction binaries generalizing staged d with
  | nil => simp [stage] at h
  | cons x binaries ih =>
      obtain ⟨name, binary⟩ := x
      rcases writeReplacement_cases host (tempName host name) binary d with
        ⟨-, hwrite⟩ | ⟨fault, e, left, -, hwrite⟩
      · simp only [stage, hwrite] at h
        obtain ⟨l, hl, hcalls, htemp, hfiles⟩ := ih h
        refine ⟨.write (tempName host name) true :: l, by simp [hl], ?_, fun p ok hp => ?_,
          fun p => ?_⟩
        · intro c hc
          rcases List.mem_cons.1 hc with rfl | hc
          · rfl
          · exact hcalls c hc
        · rcases List.mem_cons.1 hp with heq | hp
          · exact ⟨name, by cases heq; rfl⟩
          · exact htemp p ok hp
        · rw [hfiles p]
          by_cases hp : p = tempName host name
          · simp [hp]
          · rw [Drive.files_write_of_ne d _ hp]
            refine if_congr (or_congr ?_ ?_) rfl rfl
            · simp [hp]
            · simp [hp]
      · simp only [stage, hwrite, Prod.mk.injEq] at h
        obtain ⟨-, rfl⟩ := h
        refine ⟨[.write (tempName host name) false, .remove (tempName host name)] ++
          (staged.map Prod.snd).map .remove, ?_, ?_, fun p ok hp => ⟨name, ?_⟩, fun p => ?_⟩
        · simp [Drive.calls_removeAll]
        · simp only [List.mem_append, List.mem_cons, List.mem_map]
          rintro c ((rfl | rfl | hnil) | ⟨p, -, rfl⟩)
          · rfl
          · rfl
          · cases hnil
          · rfl
        · simp only [List.mem_append, List.mem_cons, List.mem_map, Call.write.injEq, reduceCtorEq,
            List.not_mem_nil, or_false, and_false, exists_const] at hp
          exact hp.1
        · rw [Drive.files_removeAll, Drive.files_remove]
          by_cases hp : p = tempName host name
          · simp [hp]
          · have hwritten : ¬ ∃ ok, Call.write p ok ∈
                [.write (tempName host name) false, .remove (tempName host name)] ++
                  (staged.map Prod.snd).map .remove := by
              simp [hp]
            simp only [hwritten, or_false, if_neg hp, Drive.files_write_of_ne d _ hp]

end

/-! ### Renaming -/

section

variable {names : List String} {n : String} {failures : List String} {d d' : Drive String Bytes}

/-- The temporary files of the names whose rename has not been tried are there, the others gone. -/
structure Renaming (host : Host) (names : List String) (d : Drive String Bytes) : Prop where
  notDotted : ∀ n ∈ names, NotDotted n
  fresh : ∀ n ∈ names, d.renames n = 0 → ∃ b, d.files (tempName host n) = some b
  tried : ∀ n ∈ names, d.renames n ≠ 0 → d.files (tempName host n) = none

/-- The first rename of this name, if it is still to come, succeeds. -/
def Succeeds (host : Host) (d : Drive String Bytes) (n : String) : Prop :=
  d.renames n = 0 ∧ host.renameFault n 0 = none

/-- One turn of the second phase, for one name. -/
structure Attempt (host : Host) (n : String) (error : Option String) (d d' : Drive String Bytes) :
    Prop where
  succeeds : error = none ↔ Succeeds host d n
  renames : ∀ m, d'.renames m = d.renames m + if n = m then 1 else 0
  renamed : ∀ m, .rename m true ∈ d'.calls ↔
    .rename m true ∈ d.calls ∨ m = n ∧ Succeeds host d n
  temp : d'.files (tempName host n) = none
  others : ∀ p, p ≠ n → p ≠ tempName host n → d'.files p = d.files p
  target : d'.files n = if error = none then d.files (tempName host n) else d.files n

/-- The pair that is staged for a name. -/
def pair (host : Host) (n : String) : String × String := (n, tempName host n)

theorem Renaming.attempt (h : Renaming host (n :: names) d) (failures : List String)
    (staged : List (String × String)) : ∃ error d', Attempt host n error d d' ∧
      replaceStaged host (pair host n :: staged) failures d =
        replaceStaged host staged (failures ++ error.toList.map fun e =>
          let target := host.display n
          s!"could not replace {target}: {e}") d' := by
  have hne : n ≠ tempName host n := (h.notDotted n List.mem_cons_self).ne_tempName n
  obtain ⟨error, d', hrename⟩ : ∃ error d', d.rename (tempName host n) n
      (host.renameFault n (d.renames n)) host.notFound = (error, d') := ⟨_, _, rfl⟩
  rcases Drive.rename_cases hrename with
    ⟨rfl, hfault, b, hfile, rfl⟩ | ⟨e, rfl, hcause, rfl⟩
  · have hzero : d.renames n = 0 := by
      by_contra hne
      rw [h.tried n List.mem_cons_self hne] at hfile
      cases hfile
    have hok : Succeeds host d n := ⟨hzero, hzero ▸ hfault⟩
    refine ⟨none, d.moved (tempName host n) n b, ⟨by simp [hok], ?_, ?_, ?_, ?_, ?_⟩, ?_⟩
    · intro m
      simp [Drive.renames, Drive.moved, Call.renames]
    · intro m
      simp [Drive.moved, hok]
    · rw [Drive.files_moved, if_pos rfl]
    · intro p hp htemp
      rw [Drive.files_moved, if_neg htemp, if_neg hp]
    · rw [Drive.files_moved, if_neg hne, if_pos rfl, if_pos rfl, hfile]
    · simp [pair, replaceStaged, hrename]
  · have hfails : ¬ Succeeds host d n := by
      rintro ⟨hzero, hnone⟩
      obtain ⟨b, hb⟩ := h.fresh n List.mem_cons_self hzero
      rcases hcause with hmissing | hfault
      · rw [hb] at hmissing
        cases hmissing
      · exact hfault (hzero ▸ hnone)
    refine ⟨some e, (d.notMoved n).remove (tempName host n),
      ⟨by simp [hfails], ?_, ?_, ?_, ?_, ?_⟩, ?_⟩
    · intro m
      simp [Drive.renames, Drive.notMoved, List.countP_cons, Call.renames]
    · intro m
      simp [Drive.notMoved, hfails]
    · rw [Drive.files_remove, if_pos rfl]
    · intro p hp htemp
      rw [Drive.files_remove, if_neg htemp]
      rfl
    · rw [Drive.files_remove, if_neg hne]
      rfl
    · simp [pair, replaceStaged, hrename]

/-- What remains is still in order after a turn. -/
theorem Attempt.renaming {error : Option String} (ha : Attempt host n error d d')
    (h : Renaming host (n :: names) d) : Renaming host names d' where
  notDotted m hm := h.notDotted m (List.mem_cons_of_mem _ hm)
  fresh m hm hzero := by
    have hcount := ha.renames m
    have hmn : n ≠ m := by
      rintro rfl
      rw [if_pos rfl] at hcount
      omega
    rw [if_neg hmn] at hcount
    obtain ⟨b, hb⟩ := h.fresh m (List.mem_cons_of_mem _ hm) (by omega)
    refine ⟨b, ?_⟩
    rw [ha.others _ ((h.notDotted n List.mem_cons_self).ne_tempName m).symm
      fun heq => hmn (tempName_injective heq).symm, hb]
  tried m hm htried := by
    by_cases hmn : n = m
    · exact hmn ▸ ha.temp
    · have hcount := ha.renames m
      rw [if_neg hmn] at hcount
      rw [ha.others _ ((h.notDotted n List.mem_cons_self).ne_tempName m).symm
        fun heq => hmn (tempName_injective heq).symm]
      exact h.tried m (List.mem_cons_of_mem _ hm) (by omega)

/-- A turn leaves the prospects of the other names alone. -/
theorem Attempt.succeeds_iff {error : Option String} (ha : Attempt host n error d d') (m : String) :
    Succeeds host d' m ↔ m ≠ n ∧ Succeeds host d m := by
  have hcount := ha.renames m
  unfold Succeeds
  by_cases hmn : n = m
  · subst hmn
    rw [if_pos rfl] at hcount
    simp [hcount]
  · rw [if_neg hmn] at hcount
    simp [hcount, Ne.symm hmn]

/-- What the second phase leaves. -/
structure Renamed (host : Host) (names : List String) (failures failures' : List String)
    (d d' : Drive String Bytes) : Prop where
  failures : failures' = [] ↔ failures = [] ∧ names.Nodup ∧ ∀ n ∈ names, Succeeds host d n
  renames : ∀ m, d'.renames m = d.renames m + names.count m
  renamed : ∀ m, .rename m true ∈ d'.calls ↔
    .rename m true ∈ d.calls ∨ m ∈ names ∧ Succeeds host d m
  targets : ∀ m ∈ names, Succeeds host d m → d'.files m = d.files (tempName host m)
  others : ∀ m, NotDotted m → ¬ (m ∈ names ∧ Succeeds host d m) → d'.files m = d.files m

/-- **Which renames succeed, and what they leave.** -/
theorem Renaming.replaceStaged (h : Renaming host names d) {failures' : List String}
    (hrun : replaceStaged host (names.map (pair host)) failures d = (failures', d')) :
    Renamed host names failures failures' d d' := by
  induction names generalizing failures d with
  | nil =>
      obtain ⟨rfl, rfl⟩ := Prod.mk.inj hrun
      exact ⟨by simp, by simp, by simp, by simp, fun _ _ _ => rfl⟩
  | cons n names ih =>
      have hdot := h.notDotted n List.mem_cons_self
      obtain ⟨error, d₁, ha, hstep⟩ := h.attempt failures (names.map (pair host))
      rw [List.map_cons, hstep] at hrun
      obtain ⟨hfailures, hrenames, hrenamed, htargets, hothers⟩ := ih (ha.renaming h) hrun
      refine ⟨?_, fun m => ?_, fun m => ?_, fun m hm hok => ?_, fun m hm hnot => ?_⟩
      · rw [hfailures]
        constructor
        · rintro ⟨hnil, hnodup, hall⟩
          obtain ⟨hold, herror⟩ := List.append_eq_nil_iff.1 hnil
          have hnone : error = none := by simpa using herror
          have hmem : n ∉ names := fun hn => ((ha.succeeds_iff n).1 (hall n hn)).1 rfl
          refine ⟨hold, List.nodup_cons.2 ⟨hmem, hnodup⟩, fun m hm => ?_⟩
          rcases List.mem_cons.1 hm with rfl | hm
          · exact ha.succeeds.1 hnone
          · exact ((ha.succeeds_iff m).1 (hall m hm)).2
        · rintro ⟨hold, hnodup, hall⟩
          obtain ⟨hmem, hnodup⟩ := List.nodup_cons.1 hnodup
          have hnone : error = none := ha.succeeds.2 (hall n List.mem_cons_self)
          refine ⟨by simp [hold, hnone], hnodup, fun m hm => ?_⟩
          exact (ha.succeeds_iff m).2
            ⟨fun heq => hmem (heq ▸ hm), hall m (List.mem_cons_of_mem _ hm)⟩
      · rw [hrenames, ha.renames, List.count_cons, Nat.add_assoc, Nat.add_comm (names.count m)]
        simp
      · rw [hrenamed, ha.renamed, ha.succeeds_iff, List.mem_cons]
        by_cases hmn : m = n
        · simp [hmn]
        · simp [hmn]
      · by_cases hmn : m = n
        · subst hmn
          -- a later turn of this name finds no file any more
          rw [hothers m hdot fun hlater => ((ha.succeeds_iff m).1 hlater.2).1 rfl, ha.target,
            if_pos (ha.succeeds.2 hok)]
        · have hm' : m ∈ names := (List.mem_cons.1 hm).resolve_left hmn
          rw [htargets m hm' ((ha.succeeds_iff m).2 ⟨hmn, hok⟩)]
          exact ha.others _ (hdot.ne_tempName m).symm fun heq => hmn (tempName_injective heq)
      · rw [hothers m hm fun hlater => hnot
          ⟨List.mem_cons_of_mem _ hlater.1, ((ha.succeeds_iff m).1 hlater.2).2⟩]
        by_cases hmn : m = n
        · subst hmn
          have hfailed : error ≠ none := fun hnone =>
            hnot ⟨List.mem_cons_self, ha.succeeds.1 hnone⟩
          rw [ha.target, if_neg hfailed]
        · exact ha.others m hmn (hm.ne_tempName n)

end

/-! ### The installer -/

section

variable {exe : CurrentExe} {binaries : List (String × Bytes)} {d' : Drive String Bytes}
  {r : Except SelfUpdateFailed Unit}

/-- The installer comes to its renames: the executable is there, and no write fails. -/
def Renames (host : Host) (exe : CurrentExe) (names : List String) : Prop :=
  exe.parent ≠ none ∧ exe.isFile = true ∧
    ∀ name k, k < names.count name → host.writeFault (tempName host name) k = none

/-- The staged files in the order of their renames. -/
theorem exists_order (host : Host) (exe : CurrentExe) (names : List String) :
    ∃ order : List String, order.Perm names ∧
      sortStaged exe (names.map (pair host)) = order.map (pair host) := by
  have hperm : (sortStaged exe (names.map (pair host))).Perm (names.map (pair host)) :=
    List.perm_insertionSort _ _
  refine ⟨(sortStaged exe (names.map (pair host))).map Prod.fst, ?_, ?_⟩
  · have hfst := hperm.map Prod.fst
    simpa [Function.comp_def, pair] using hfst
  · rw [List.map_map]
    conv_lhs => rw [← List.map_id (sortStaged exe (names.map (pair host)))]
    refine List.map_congr_left fun x hx => ?_
    obtain ⟨n, -, rfl⟩ := List.mem_map.1 (hperm.mem_iff.1 hx)
    rfl

/-- Before the renames: a failure, and what was written is gone. -/
def StoppedEarly (host : Host) (files : String → Option Bytes)
    (r : Except SelfUpdateFailed Unit) (d' : Drive String Bytes) : Prop :=
  (∃ message, r = .error (.other message)) ∧ Unstaged host ⟨files, []⟩ d' []

/-- A rename that was tried stands among the calls. -/
theorem Renamed.exists_isRename {names failures failures' : List String} {d : Drive String Bytes}
    (h : Renamed host names failures failures' d d') {n : String} (hn : n ∈ names) :
    ∃ c ∈ d'.calls, c.isRename = true := by
  have hpos : 0 < d'.renames n := by
    rw [h.renames n]
    exact Nat.add_pos_right _ (List.count_pos_iff.2 hn)
  obtain ⟨c, hc, hrename⟩ := List.countP_pos_iff.1 hpos
  refine ⟨c, hc, ?_⟩
  cases c with
  | rename target ok => rfl
  | write path ok => cases hrename
  | remove path => cases hrename

/-- The renames have been tried: what failed decides, and the list names whatever was staged. -/
def Tried (host : Host) (binaries : List (String × Bytes)) (files : String → Option Bytes)
    (r : Except SelfUpdateFailed Unit) (d' : Drive String Bytes) : Prop :=
  ∃ order failures d, order.Perm (binaries.map Prod.fst) ∧
    Staged host binaries ⟨files, []⟩ d ∧ Renamed host order [] failures d d' ∧
    r = if failures = [] then .ok () else .error (.partlyReplaced order failures)

/-- Once all is staged, the renames are tried. -/
theorem tried_of_stage (hdot : ∀ x ∈ binaries, NotDotted x.1) {files : String → Option Bytes}
    {staged : List (String × String)} {d : Drive String Bytes}
    (hstage : stage host binaries [] ⟨files, []⟩ = (.ok staged, d)) {failures : List String}
    (hrun : replaceStaged host (sortStaged exe staged) [] d = (failures, d')) :
    Tried host binaries files
      (if failures = [] then .ok ()
        else .error (.partlyReplaced ((sortStaged exe staged).map Prod.fst) failures)) d' := by
  obtain ⟨rfl, hstaged⟩ := staged_of_stage hstage
  obtain ⟨order, hperm, hsort⟩ := exists_order host exe (binaries.map Prod.fst)
  have hpairs : [] ++ binaries.map (fun x => (x.1, tempName host x.1)) =
      (binaries.map Prod.fst).map (pair host) := by
    simp [Function.comp_def, pair]
  rw [hpairs, hsort] at hrun ⊢
  have hzero : ∀ n, d.renames n = 0 := fun n => (hstaged.not_renames n).1
  have hrenaming : Renaming host order d := by
    refine ⟨fun n hn => ?_, fun n hn _ => ?_, fun n _ hne => absurd (hzero n) hne⟩
    · obtain ⟨x, hx, rfl⟩ := List.mem_map.1 (hperm.mem_iff.1 hn)
      exact hdot x hx
    · obtain ⟨b, -, hb⟩ := hstaged.temps n (hperm.mem_iff.1 hn)
      exact ⟨b, hb⟩
  have hfst : (order.map (pair host)).map Prod.fst = order := by
    simp [Function.comp_def, pair]
  exact ⟨order, failures, d, hperm, hstaged, hrenaming.replaceStaged hrun, by rw [hfst]⟩

theorem replaceCurrentBinaries_cases (hdot : ∀ x ∈ binaries, NotDotted x.1)
    (files : String → Option Bytes)
    (h : replaceCurrentBinaries host exe binaries ⟨files, []⟩ = (r, d')) :
    (¬ Renames host exe (binaries.map Prod.fst) ∧ StoppedEarly host files r d') ∨
    Renames host exe (binaries.map Prod.fst) ∧ Tried host binaries files r d' := by
  have hnothing : Unstaged host ⟨files, []⟩ ⟨files, []⟩ [] := ⟨[], by simp⟩
  unfold replaceCurrentBinaries at h
  cases hparent : exe.parent with
  | none =>
      simp only [hparent] at h
      obtain ⟨rfl, rfl⟩ := Prod.mk.inj h
      exact .inl ⟨fun hrenames => hrenames.1 hparent, ⟨_, rfl⟩, hnothing⟩
  | some dir =>
      simp only [hparent] at h
      by_cases hfile : exe.isFile = true
      · rw [hfile, Bool.not_true, if_neg Bool.false_ne_true] at h
        have hok := stage_ok_iff host binaries [] ⟨files, []⟩
        obtain ⟨q, d, hstage⟩ : ∃ q d, stage host binaries [] ⟨files, []⟩ = (q, d) := ⟨_, _, rfl⟩
        rw [hstage] at h hok
        cases q with
        | error e =>
            obtain ⟨rfl, rfl⟩ := Prod.mk.inj h
            refine .inl ⟨fun hrenames => ?_, ⟨_, rfl⟩, unstaged_of_stage hstage⟩
            obtain ⟨s, hs⟩ := hok.2 fun name k _ hk =>
              hrenames.2.2 name k (by simpa [Drive.writes] using hk)
            cases hs
        | ok staged =>
            have hwrites := hok.1 ⟨_, rfl⟩
            refine .inr ⟨⟨by simp [hparent], hfile, fun name k hk =>
              hwrites name k (Nat.zero_le k) (by simpa [Drive.writes] using hk)⟩, ?_⟩
            obtain ⟨failures, d₁, hrun⟩ : ∃ failures d₁,
                replaceStaged host (sortStaged exe staged) [] d = (failures, d₁) := ⟨_, _, rfl⟩
            have htried := tried_of_stage hdot hstage hrun
            simp only [hrun, List.isEmpty_iff] at h
            by_cases hnil : failures = []
            · rw [if_pos hnil] at h htried
              obtain ⟨rfl, rfl⟩ := Prod.mk.inj h
              exact htried
            · rw [if_neg hnil] at h htried
              obtain ⟨rfl, rfl⟩ := Prod.mk.inj h
              exact htried
      · rw [Bool.eq_false_iff.2 hfile] at h
        obtain ⟨rfl, rfl⟩ := Prod.mk.inj h
        exact .inl ⟨fun hrenames => hfile hrenames.2.1, ⟨_, rfl⟩, hnothing⟩

end

end Hekma.SelfUpdate
