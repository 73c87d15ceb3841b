/-
**Lexical paths.**

A path is read as a list of components and resolved against a home without looking at the file
system.  Different spellings resolve alike: with segments for the directory itself, by way of the
parent of a directory, or from the root.  These rules are all there are.

Main definitions:

* `PathRules`, `components` — the components of a path;
* `Home`, `resolve` — where a path leads from a home;
* `Inside` — what stands strictly inside a home;
* `Respelled` — one path is another spelling of the other.

Main results:

* `resolve_of_plain`, `inside_iff` — where a path without parents and root leads;
* `respelled_iff` — **paths are spellings of each other if they resolve alike**.
-/

import Mathlib.Logic.Relation
import Mathlib.Tactic.Common
import Mathlib.Tactic.SplitIfs

set_option relaxedAutoImplicit false
set_option autoImplicit false

namespace LexPath

/-! ### Components -/

/-- What may stand before the root of a path, and whether a root follows from it. -/
structure Drive where
  text : List Char
  impliesRoot : Bool
  deriving DecidableEq

inductive Component where
  | drive (d : Drive)
  | rootDir
  | curDir
  | parentDir
  | normal (name : List Char)
  deriving DecidableEq

/-- The rules of a platform. -/
structure PathRules where
  isSep : Char → Bool
  takeDrive : List Char → Option (Drive × List Char)
  absoluteNeedsDrive : Bool

/-- The component of a segment: an empty one and a dot have none. -/
def segment (s : List Char) : Option Component :=
  if s = [] ∨ s = ['.'] then none
  else if s = ['.', '.'] then some .parentDir
  else some (.normal s)

section

variable (r : PathRules) (path : List Char)

/-- The drive of a path and what stands behind it. -/
def driveAndRest : Option Drive × List Char :=
  match r.takeDrive path with
  | some (d, rest) => (some d, rest)
  | none => (none, path)

/-- The path begins at a root. -/
def hasRoot : Bool :=
  (driveAndRest r path).2.head?.any r.isSep || (driveAndRest r path).1.any (·.impliesRoot)

/-- The segments behind the drive. -/
def segments : List (List Char) := (driveAndRest r path).2.splitOnP r.isSep

/-- The drive and the root of a path. -/
def lead : List Component :=
  (driveAndRest r path).1.toList.map .drive ++ if hasRoot r path then [.rootDir] else []

/-- What stands behind them: of the dots, only one at the beginning of a path is kept. -/
def body : List Component :=
  (if hasRoot r path = false ∧ (segments r path).head? = some ['.'] then [.curDir] else []) ++
    (segments r path).filterMap segment

def components : List Component := lead r path ++ body r path

/-- The path does not depend on where it is read. -/
def isAbsolute : Bool :=
  hasRoot r path && (!r.absoluteNeedsDrive || (driveAndRest r path).1.isSome)

end

/-- A component behind the root. -/
inductive Component.Body : Component → Prop
  | curDir : Body .curDir
  | parentDir : Body .parentDir
  | normal (name : List Char) : Body (.normal name)

/-- A list of components that a path can have. -/
inductive Spelling : List Component → Prop
  | relative {l : List Component} (h : ∀ c ∈ l, c.Body) : Spelling l
  | rooted {l : List Component} (h : ∀ c ∈ l, c.Body) : Spelling (.rootDir :: l)
  | driven {l : List Component} (d : Drive) (h : ∀ c ∈ l, c.Body) : Spelling (.drive d :: l)
  | absolute {l : List Component} (d : Drive) (h : ∀ c ∈ l, c.Body) :
      Spelling (.drive d :: .rootDir :: l)

theorem body_of_segment {s : List Char} {c : Component} (h : segment s = some c) : c.Body := by
  unfold segment at h
  split_ifs at h
  · cases h
    exact .parentDir
  · cases h
    exact .normal s

theorem body_of_mem_body {r : PathRules} {path : List Char} {c : Component}
    (h : c ∈ body r path) : c.Body := by
  rcases List.mem_append.1 h with hc | hc
  · split_ifs at hc
    · rw [List.mem_singleton.1 hc]
      exact .curDir
    · cases hc
  · obtain ⟨s, -, hs⟩ := List.mem_filterMap.1 hc
    exact body_of_segment hs

theorem spelling_components (r : PathRules) (path : List Char) : Spelling (components r path) := by
  have hbody : ∀ c ∈ body r path, c.Body := fun c hc => body_of_mem_body hc
  unfold components lead
  cases (driveAndRest r path).1 with
  | none =>
      by_cases hroot : hasRoot r path = true
      · rw [if_pos hroot]
        exact .rooted hbody
      · rw [if_neg hroot]
        exact .relative hbody
  | some d =>
      by_cases hroot : hasRoot r path = true
      · rw [if_pos hroot]
        exact .absolute d hbody
      · rw [if_neg hroot]
        exact .driven d hbody

/-- The components of a path that begins neither at a drive nor at a root. -/
theorem components_of_relative {r : PathRules} {path : List Char} (hdrive : r.takeDrive path = none)
    (hroot : path.head?.any r.isSep = false) :
    components r path = body r path ∧ segments r path = path.splitOnP r.isSep := by
  have hrest : driveAndRest r path = (none, path) := by rw [driveAndRest, hdrive]
  have hnot : hasRoot r path = false := by rw [hasRoot, hrest, hroot]; rfl
  refine ⟨?_, by rw [segments, hrest]⟩
  rw [components, lead, hrest, hnot]
  rfl

theorem segment_eq_normal {s : List Char} (hne : s ≠ []) (hdot : s ≠ ['.'])
    (hdots : s ≠ ['.', '.']) : segment s = some (.normal s) := by
  rw [segment, if_neg (by simp [hne, hdot]), if_neg hdots]

/-- A segment between the separators of some rules that has no separator of coarser rules either is
a segment of those. -/
theorem mem_splitOnP_of_coarser {p q : Char → Bool} (hpq : ∀ c, p c = true → q c = true)
    {s path : List Char} (hs : s ∈ path.splitOnP p) (hfree : ∀ c ∈ s, q c = false) :
    s ∈ path.splitOnP q := by
  -- the first segment and the others are followed apart
  suffices hboth : (∀ h t, path.splitOnP p = h :: t → (∀ c ∈ h, q c = false) →
      (path.splitOnP q).head? = some h) ∧
      ∀ s ∈ (path.splitOnP p).tail, (∀ c ∈ s, q c = false) → s ∈ (path.splitOnP q).tail by
    cases hcut : path.splitOnP p with
    | nil => exact absurd hcut (List.splitOnP_ne_nil _ _)
    | cons h t =>
        rw [hcut] at hs hboth
        rcases List.mem_cons.1 hs with rfl | hs
        · exact List.mem_of_mem_head? (hboth.1 s t rfl hfree)
        · exact List.mem_of_mem_tail (hboth.2 s hs hfree)
  clear hs hfree
  induction path with
  | nil =>
      refine ⟨fun h t hcut _ => ?_, fun s hs _ => hs⟩
      rw [List.splitOnP_nil] at hcut ⊢
      rw [← (List.cons.inj hcut).1]
      rfl
  | cons x path ih =>
      obtain ⟨ihead, itail⟩ := ih
      rw [List.splitOnP_cons_eq_if_modifyHead, List.splitOnP_cons_eq_if_modifyHead]
      cases hp : path.splitOnP p with
      | nil => exact absurd hp (List.splitOnP_ne_nil _ _)
      | cons h t =>
          rw [hp] at ihead itail
          cases hq : path.splitOnP q with
          | nil => exact absurd hq (List.splitOnP_ne_nil _ _)
          | cons h' t' =>
              rw [hq] at ihead itail
              by_cases hpx : p x = true
              · rw [if_pos hpx, if_pos (hpq x hpx)]
                refine ⟨fun a b hcut _ => ?_, fun s hs hfree => ?_⟩
                · rw [← (List.cons.inj hcut).1]
                  rfl
                · rcases List.mem_cons.1 hs with rfl | hs
                  · exact List.mem_of_mem_head? (ihead s t rfl hfree)
                  · exact List.mem_cons_of_mem _ (itail s hs hfree)
              · rw [if_neg hpx]
                by_cases hqx : q x = true
                · rw [if_pos hqx]
                  refine ⟨fun a b hcut hfree => ?_, fun s hs hfree => ?_⟩
                  · have hx := hfree x (by rw [← (List.cons.inj hcut).1]; exact List.mem_cons_self)
                    rw [hqx] at hx
                    cases hx
                  · exact List.mem_cons_of_mem _ (itail s hs hfree)
                · rw [if_neg hqx]
                  refine ⟨fun a b hcut hfree => ?_, itail⟩
                  rw [← (List.cons.inj hcut).1] at hfree ⊢
                  have hhead := ihead h t rfl fun c hc => hfree c (List.mem_cons_of_mem _ hc)
                  rw [List.head?_cons, Option.some.injEq] at hhead
                  rw [hhead]
                  rfl

/-! ### Resolution -/

/-- A directory that paths are resolved against. -/
structure Home where
  drive : Option Drive
  names : List (List Char)

def Home.top (home : Home) : List Component := home.drive.toList.map .drive ++ [.rootDir]

def Home.place (home : Home) : List Component := home.top ++ home.names.map .normal

def Component.isDrive : Component → Bool
  | .drive _ => true
  | _ => false

/-- Where a component leads. -/
def step (p : List Component) : Component → List Component
  | .drive d => [.drive d]
  | .rootDir => p.takeWhile Component.isDrive ++ [.rootDir]
  | .curDir => p
  | .parentDir =>
      match p.getLast? with
      | some (.normal _) => p.dropLast
      | some .rootDir => p
      | _ => p ++ [.parentDir]
  | .normal name => p ++ [.normal name]

/-- Where a path leads from a home. -/
def resolve (home : Home) (l : List Component) : List Component := l.foldl step home.place

/-- The place is strictly inside the home. -/
def Inside (home : Home) (p : List Component) : Prop :=
  ∃ names, names ≠ [] ∧ p = home.place ++ names.map Component.normal

variable {home : Home} {l a b : List Component}

theorem foldl_normal (p : List Component) (names : List (List Char)) :
    (names.map Component.normal).foldl step p = p ++ names.map .normal := by
  induction names generalizing p with
  | nil => rw [List.map_nil, List.foldl_nil, List.append_nil]
  | cons n names ih =>
      rw [List.map_cons, List.foldl_cons, ih, step, List.append_assoc, List.singleton_append]

/-- The root of a home's drive. -/
theorem step_rootDir_place (home : Home) : step home.place .rootDir = home.top := by
  cases hdrive : home.drive with
  | none => simp [step, Home.place, Home.top, hdrive, Component.isDrive]
  | some d =>
      rw [Home.place, Home.top, hdrive]
      rfl

theorem foldl_top (home : Home) : home.top.foldl step home.place = home.top := by
  cases hdrive : home.drive with
  | none =>
      have htop : home.top = [.rootDir] := by simp [Home.top, hdrive]
      have hroot := step_rootDir_place home
      rw [htop] at hroot ⊢
      exact hroot
  | some d =>
      rw [Home.top, hdrive]
      rfl

theorem foldl_place (home : Home) : home.place.foldl step home.place = home.place := by
  conv_lhs => rw [Home.place, List.foldl_append, ← Home.place, foldl_top, foldl_normal]
  rfl

/-- **A path without parents and root leads inside**, to the names in it. -/
theorem resolve_of_plain (home : Home) (h : ∀ c ∈ l, c = .curDir ∨ ∃ n, c = .normal n) :
    ∃ names : List (List Char), resolve home l = home.place ++ names.map .normal ∧
      ∀ n, n ∈ names ↔ Component.normal n ∈ l := by
  suffices hrun : ∀ p : List Component, ∃ names : List (List Char),
      l.foldl step p = p ++ names.map .normal ∧ ∀ n, n ∈ names ↔ Component.normal n ∈ l from
    hrun home.place
  induction l with
  | nil => exact fun p => ⟨[], by simp, by simp⟩
  | cons c l ih =>
      intro p
      have ih := ih fun c hc => h c (List.mem_cons_of_mem _ hc)
      rcases h c List.mem_cons_self with rfl | ⟨n, rfl⟩
      · obtain ⟨names, hrun, hmem⟩ := ih p
        exact ⟨names, hrun, by simp [hmem]⟩
      · obtain ⟨names, hrun, hmem⟩ := ih (p ++ [.normal n])
        refine ⟨n :: names, ?_, by simp [hmem]⟩
        rw [List.foldl_cons, step, hrun, List.append_assoc, List.map_cons, List.singleton_append]

/-- Such a path leads strictly inside if it names something. -/
theorem inside_iff (h : ∀ c ∈ l, c = .curDir ∨ ∃ n, c = .normal n) :
    Inside home (resolve home l) ↔ ∃ n, Component.normal n ∈ l := by
  obtain ⟨names, hresolve, hmem⟩ := resolve_of_plain home h
  constructor
  · rintro ⟨found, hne, hfound⟩
    rw [hresolve, List.append_cancel_left_eq] at hfound
    cases found with
    | nil => exact absurd rfl hne
    | cons n found =>
        cases names with
        | nil => cases hfound
        | cons m names => exact ⟨m, (hmem m).1 List.mem_cons_self⟩
  · rintro ⟨n, hn⟩
    exact ⟨names, List.ne_nil_of_mem ((hmem n).2 hn), hresolve⟩

/-! ### Spellings -/

/-- The rules of spelling: a dot, a name and back, the parent of the root, the home's own path,
and the root of its drive. -/
inductive Rewrites (home : Home) : List Component → List Component → Prop
  | here (a b : List Component) : Rewrites home (a ++ .curDir :: b) (a ++ b)
  | back (a : List Component) (n : List Char) (b : List Component) :
      Rewrites home (a ++ .normal n :: .parentDir :: b) (a ++ b)
  | top (a b : List Component) :
      Rewrites home (a ++ .rootDir :: .parentDir :: b) (a ++ .rootDir :: b)
  | home (b : List Component) : Rewrites home (home.place ++ b) b
  | root (b : List Component) : Rewrites home (home.top ++ b) (.rootDir :: b)

/-- One path is another spelling of the other. -/
def Respelled (home : Home) : List Component → List Component → Prop :=
  Relation.EqvGen (Rewrites home)

theorem step_parentDir_normal (p : List Component) (n : List Char) :
    step (p ++ [.normal n]) .parentDir = p := by
  rw [step, List.getLast?_concat, List.dropLast_concat]

theorem step_parentDir_rootDir (p : List Component) :
    step (p ++ [.rootDir]) .parentDir = p ++ [.rootDir] := by
  rw [step, List.getLast?_concat]

/-- A parent takes back a name, is lost at the root, or stays. -/
theorem step_parentDir_cases (p : List Component) :
    (∃ q n, p = q ++ [.normal n]) ∨ (∃ q, p = q ++ [.rootDir]) ∨
      step p .parentDir = p ++ [.parentDir] := by
  cases hlast : p.getLast? with
  | none => exact .inr (.inr (by rw [step, hlast]))
  | some c =>
      cases c with
      | normal n =>
          obtain ⟨q, rfl⟩ := List.getLast?_eq_some_iff.1 hlast
          exact .inl ⟨q, n, rfl⟩
      | rootDir =>
          obtain ⟨q, rfl⟩ := List.getLast?_eq_some_iff.1 hlast
          exact .inr (.inl ⟨q, rfl⟩)
      | drive d => exact .inr (.inr (by rw [step, hlast]))
      | curDir => exact .inr (.inr (by rw [step, hlast]))
      | parentDir => exact .inr (.inr (by rw [step, hlast]))

/-- A rule does not change where a path leads. -/
theorem resolve_of_rewrites (h : Rewrites home a b) : resolve home a = resolve home b := by
  cases h with
  | here a b => rw [resolve, List.foldl_append, List.foldl_cons, step, resolve, List.foldl_append]
  | back a n b =>
      have hback (p : List Component) : step (step p (.normal n)) .parentDir = p :=
        step_parentDir_normal p n
      rw [resolve, List.foldl_append, List.foldl_cons, List.foldl_cons, hback, resolve,
        List.foldl_append]
  | top a b =>
      have htop (p : List Component) : step (step p .rootDir) .parentDir = step p .rootDir :=
        step_parentDir_rootDir _
      rw [resolve, List.foldl_append, List.foldl_cons, List.foldl_cons, htop, resolve,
        List.foldl_append, List.foldl_cons]
  | home b => rw [resolve, List.foldl_append, foldl_place, resolve]
  | root b => rw [resolve, List.foldl_append, foldl_top, resolve, List.foldl_cons,
      step_rootDir_place]

theorem resolve_of_respelled (h : Respelled home a b) : resolve home a = resolve home b := by
  induction h with
  | rel a b hab => exact resolve_of_rewrites hab
  | refl a => rfl
  | symm a b _ ih => exact ih.symm
  | trans a b c _ _ ihab ihbc => exact ihab.trans ihbc

/-- A path that goes on from a place is a spelling of where it leads. -/
theorem respelled_foldl (h : ∀ c ∈ l, c.Body) (p : List Component) :
    Respelled home (p ++ l) (l.foldl step p) := by
  induction l generalizing p with
  | nil =>
      rw [List.append_nil]
      exact .refl _
  | cons c l ih =>
      have ih := ih fun c hc => h c (List.mem_cons_of_mem _ hc)
      rw [List.foldl_cons]
      cases h c List.mem_cons_self with
      | curDir => exact .trans _ _ _ (.rel _ _ (.here p l)) (ih p)
      | normal n =>
          have hmove := ih (p ++ [.normal n])
          rwa [List.append_assoc, List.singleton_append] at hmove
      | parentDir =>
          rcases step_parentDir_cases p with ⟨q, n, rfl⟩ | ⟨q, rfl⟩ | hstay
          · rw [step_parentDir_normal, List.append_assoc, List.singleton_append]
            exact .trans _ _ _ (.rel _ _ (.back q n l)) (ih q)
          · have hmove := ih (q ++ [.rootDir])
            rw [step_parentDir_rootDir]
            rw [List.append_assoc, List.singleton_append] at hmove ⊢
            exact .trans _ _ _ (.rel _ _ (.top q l)) hmove
          · have hmove := ih (p ++ [.parentDir])
            rw [hstay]
            rwa [List.append_assoc, List.singleton_append] at hmove

/-- A path is a spelling of where it leads. -/
theorem respelled_resolve (home : Home) (h : Spelling l) : Respelled home l (resolve home l) := by
  cases h with
  | relative h =>
      exact .trans _ _ _ (.symm _ _ (.rel _ _ (.home l))) (respelled_foldl h home.place)
  | @rooted l h =>
      rw [resolve, List.foldl_cons, step_rootDir_place]
      exact .trans _ _ _ (.symm _ _ (.rel _ _ (.root l))) (respelled_foldl h home.top)
  | driven d h => exact respelled_foldl h [.drive d]
  | absolute d h => exact respelled_foldl h [.drive d, .rootDir]

/-- **Paths are spellings of each other if and only if they resolve alike.** -/
theorem respelled_iff (ha : Spelling a) (hb : Spelling b) :
    Respelled home a b ↔ resolve home a = resolve home b := by
  refine ⟨resolve_of_respelled, fun h => ?_⟩
  refine .trans _ _ _ (respelled_resolve home ha) ?_
  rw [h]
  exact .symm _ _ (respelled_resolve home hb)

end LexPath
