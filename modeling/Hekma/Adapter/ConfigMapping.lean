/-
**The config mapping of an adapter** (`hekma-adapter-api/src/config.rs`).

An adapter maps documented config keys to what its agent reads: an environment variable, a flag, or
a key of a file in the agent's home.  The path of a file is checked when the mapping is registered,
segment by segment, with both separators on every host.

Main definitions:

* `ConfigTarget`, `ConfigMapping` — the mapping;
* `ConfigMapping.validate` — its check.

Main results:

* `inside_of_isSafeRelativePath` — **a path that passes the check leads strictly inside a home**;
* `eq_of_resolve_slashes` — on a host with slashes, two such paths lead to two files.
-/

import Std.Data.TreeMap
import Hekma.Lib.Checks
import Hekma.Lib.LexPath
import Hekma.Lib.Text

set_option relaxedAutoImplicit false
set_option autoImplicit false

namespace Hekma

namespace Adapter

open Checks (refuse bind_eq_ok refuse_eq_ok each each_eq_ok)

/-- A key of a file in the agent's home. -/
structure FilePlacement where
  path : String
  key : String
  deriving DecidableEq, Repr

/-- Where an agent reads a value. -/
inductive ConfigTarget where
  | env (env : String)
  | flag (flag : String)
  | file (file : FilePlacement)
  deriving DecidableEq, Repr

/-- The targets of the documented keys. -/
structure ConfigMapping where
  rules : Std.TreeMap String ConfigTarget

def ConfigMapping.target (mapping : ConfigMapping) (key : String) : Option ConfigTarget :=
  mapping.rules[key]?

/-! ### Paths in the home -/

/-- A separator of some host. -/
def isSeparator (c : Char) : Bool := c = '/' || c = '\\'

def isAsciiAlphabetic (c : Char) : Bool := ('a' ≤ c && c ≤ 'z') || ('A' ≤ c && c ≤ 'Z')

/-- The text begins with a letter and a colon. -/
def namesDrive (s : List Char) : Bool :=
  match s with
  | c :: d :: _ => isAsciiAlphabetic c && d = ':'
  | _ => false

def isSafeRelativePath (path : List Char) : Bool :=
  let segments := path.splitOnP isSeparator
  !path.isEmpty && !path.head?.any isSeparator && !segments.head?.any namesDrive &&
    !segments.any fun s => s.isEmpty || s = ['.'] || s = ['.', '.']

/-- A rule of the mapping is well formed. -/
def checkRule (rule : String × ConfigTarget) : Except (String × String) Unit := do
  let (key, target) := rule
  let blank (s : String) : Bool := (Text.trim s.toList).isEmpty
  refuse (blank key) (key, "the unified config key is empty")
  match target with
  | .env env => refuse (blank env) (key, "the `env` var name is empty")
  | .flag flag => refuse (blank flag) (key, "the `flag` is empty")
  | .file placement => do
      let path := placement.path
      refuse (blank path) (key, "the `file.path` is empty")
      refuse (blank placement.key) (key, "the `file.key` is empty")
      refuse (!isSafeRelativePath path.toList)
        (key, s!"the `file.path` '{path}' must be RELATIVE to the Agent Home (no leading '/', " ++
          "no '..' segment)")

def ConfigMapping.validate (mapping : ConfigMapping) : Except (String × String) Unit :=
  each checkRule mapping.rules.toList

/-- The files of a mapping that is well formed have safe paths. -/
theorem isSafeRelativePath_of_validate {mapping : ConfigMapping} (h : mapping.validate = .ok ())
    {key : String} {placement : FilePlacement}
    (hrule : mapping.target key = some (.file placement)) :
    isSafeRelativePath placement.path.toList = true := by
  have hmem : (key, ConfigTarget.file placement) ∈ mapping.rules.toList :=
    Std.TreeMap.mem_toList_iff_getElem?_eq_some.2 hrule
  have hcheck := each_eq_ok.1 h _ hmem
  simp only [checkRule, bind_eq_ok, refuse_eq_ok, exists_and_left, exists_const] at hcheck
  simpa using hcheck.2.2.2

/-! ### Where a safe path leads -/

/-- The drive that a letter and a colon name. -/
def takeDriveLetter (s : List Char) : Option (LexPath.Drive × List Char) :=
  match s with
  | c :: d :: rest => if isAsciiAlphabetic c && d = ':' then some (⟨[c, d], false⟩, rest) else none
  | _ => none

/-- The rules that all hosts obey together. -/
def everyHost : LexPath.PathRules where
  isSep := isSeparator
  takeDrive := takeDriveLetter
  absoluteNeedsDrive := true

theorem takeDriveLetter_eq_none {s : List Char} (h : namesDrive s = false) :
    takeDriveLetter s = none := by
  match s with
  | [] => rfl
  | [c] => rfl
  | c :: d :: rest =>
      rw [namesDrive] at h
      rw [takeDriveLetter, if_neg (by rw [h]; exact Bool.false_ne_true)]

/-- A path names a drive if its first segment does. -/
theorem namesDrive_head {path s : List Char} (h : (path.splitOnP isSeparator).head? = some s)
    (hpath : namesDrive path = true) : namesDrive s = true := by
  match path with
  | [] => cases hpath
  | [c] => cases hpath
  | c :: d :: rest =>
      rw [namesDrive, Bool.and_eq_true, decide_eq_true_eq] at hpath
      obtain ⟨hletter, rfl⟩ := hpath
      have hc : isSeparator c = false := by
        refine Bool.eq_false_iff.2 fun hsep => ?_
        rcases (by simpa [isSeparator] using hsep : c = '/' ∨ c = '\\') with rfl | rfl
        · exact absurd hletter (by decide)
        · exact absurd hletter (by decide)
      rw [List.splitOnP_cons_eq_if_modifyHead, if_neg (by rw [hc]; exact Bool.false_ne_true),
        List.splitOnP_cons_eq_if_modifyHead, if_neg (by decide)] at h
      cases hrest : rest.splitOnP isSeparator with
      | nil => exact absurd hrest (List.splitOnP_ne_nil _ _)
      | cons t ts =>
          rw [hrest] at h
          cases h
          rw [namesDrive, hletter]
          rfl

/-- **A path that passes the check leads strictly inside a home.** -/
theorem inside_of_isSafeRelativePath {path : List Char} (h : isSafeRelativePath path = true)
    (home : LexPath.Home) :
    LexPath.Inside home (LexPath.resolve home (LexPath.components everyHost path)) := by
  simp only [isSafeRelativePath, Bool.and_eq_true, Bool.not_eq_true', List.any_eq_false,
    Bool.or_eq_true, List.isEmpty_iff, decide_eq_true_eq, not_or] at h
  obtain ⟨⟨⟨-, hroot⟩, hdrive⟩, hsegments⟩ := h
  have hletter : namesDrive path = false := by
    refine Bool.eq_false_iff.2 fun hpath => ?_
    cases hhead : (path.splitOnP isSeparator).head? with
    | none => exact List.splitOnP_ne_nil _ _ (List.head?_eq_none_iff.1 hhead)
    | some s =>
        rw [hhead, Option.any_some, namesDrive_head hhead hpath] at hdrive
        cases hdrive
  obtain ⟨hcomponents, hsegs⟩ := LexPath.components_of_relative (r := everyHost)
    (takeDriveLetter_eq_none hletter) hroot
  have hsegment : ∀ s ∈ path.splitOnP isSeparator, LexPath.segment s = some (.normal s) :=
    fun s hs => LexPath.segment_eq_normal (hsegments s hs).1.1 (hsegments s hs).1.2
      (hsegments s hs).2
  rw [hcomponents]
  refine (LexPath.inside_iff fun c hc => ?_).2 ?_
  · rcases List.mem_append.1 hc with hc | hc
    · split_ifs at hc
      · exact .inl (List.mem_singleton.1 hc)
      · cases hc
    · obtain ⟨s, hs, hc⟩ := List.mem_filterMap.1 hc
      rw [hsegs] at hs
      rw [hsegment s hs] at hc
      exact .inr ⟨s, (Option.some.inj hc).symm⟩
  · -- a path has a segment
    obtain ⟨s, rest, hsome⟩ := List.exists_cons_of_ne_nil (List.splitOnP_ne_nil isSeparator path)
    have hs : s ∈ path.splitOnP isSeparator := by
      rw [hsome]
      exact List.mem_cons_self
    refine ⟨s, List.mem_append_right _ (List.mem_filterMap.2 ⟨s, ?_, hsegment s hs⟩)⟩
    rw [hsegs]
    exact hs

/-! ### Hosts with slashes -/

/-- The rules of a host with slashes. -/
def slashes : LexPath.PathRules where
  isSep c := c == '/'
  takeDrive _ := none
  absoluteNeedsDrive := false

/-- The components of a safe path on a host with slashes: its segments. -/
theorem components_slashes {path : List Char} (h : isSafeRelativePath path = true) :
    LexPath.components slashes path = (path.splitOn '/').map .normal := by
  simp only [isSafeRelativePath, Bool.and_eq_true, Bool.not_eq_true', List.any_eq_false,
    Bool.or_eq_true, List.isEmpty_iff, decide_eq_true_eq, not_or] at h
  obtain ⟨⟨⟨-, hroot⟩, -⟩, hsegments⟩ := h
  have hslash : path.head?.any slashes.isSep = false := by
    cases hhead : path.head? with
    | none => rfl
    | some c =>
        rw [hhead, Option.any_some] at hroot
        refine Bool.eq_false_iff.2 fun hc => ?_
        obtain rfl : c = '/' := by simpa [slashes] using hc
        cases hroot
  obtain ⟨hcomponents, hsegs⟩ := LexPath.components_of_relative (r := slashes) rfl hslash
  have hseparator : ∀ c, slashes.isSep c = true → isSeparator c = true := by
    intro c hc
    obtain rfl : c = '/' := by simpa [slashes] using hc
    rfl
  have hplain : ∀ s ∈ path.splitOnP slashes.isSep, LexPath.segment s = some (.normal s) := by
    intro s hs
    have hmem (hfree : ∀ c ∈ s, isSeparator c = false) :=
      hsegments s (LexPath.mem_splitOnP_of_coarser hseparator hs hfree)
    refine LexPath.segment_eq_normal ?_ ?_ ?_
    · rintro rfl
      exact (hmem (List.forall_mem_nil _)).1.1 rfl
    · rintro rfl
      exact (hmem (by simp [isSeparator])).1.2 rfl
    · rintro rfl
      exact (hmem (by simp [isSeparator])).2 rfl
  have hhere : ¬ (LexPath.hasRoot slashes path = false ∧
      (LexPath.segments slashes path).head? = some ['.']) := by
    rintro ⟨-, hhead⟩
    rw [hsegs] at hhead
    have hdot := hplain _ (List.mem_of_mem_head? hhead)
    cases hdot
  rw [hcomponents, LexPath.body, if_neg hhere, List.nil_append, hsegs,
    List.filterMap_congr hplain, List.filterMap_eq_map', List.splitOn_eq_splitOnP]
  rfl

/-- On a host with slashes, safe paths that lead to one place are the same. -/
theorem eq_of_resolve_slashes {path path' : List Char} (h : isSafeRelativePath path = true)
    (h' : isSafeRelativePath path' = true) {home : LexPath.Home}
    (hplace : LexPath.resolve home (LexPath.components slashes path) =
      LexPath.resolve home (LexPath.components slashes path')) : path = path' := by
  rw [components_slashes h, components_slashes h', LexPath.resolve, LexPath.resolve,
    LexPath.foldl_normal, LexPath.foldl_normal, List.append_cancel_left_eq] at hplace
  have hsegments :=
    List.map_injective_iff.2 (fun _ _ heq => LexPath.Component.normal.inj heq) hplace
  calc path = ['/'].intercalate (path.splitOn '/') := (List.intercalate_splitOn '/').symm
    _ = ['/'].intercalate (path'.splitOn '/') := by rw [hsegments]
    _ = path' := List.intercalate_splitOn '/'

end Adapter

end Hekma
