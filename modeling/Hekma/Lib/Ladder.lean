/-
**Openers of a store with versions.**

A store carries a version, and a list of steps leads from each version to the next.  Whoever opens
the store reads the version once and takes the steps that are missing, each as a transaction: it
leaves the next store, or it fails and leaves the store as it was.  Openers come at any time, stop
at any time, and their transactions come in any order; an opener does not see what the others do.

How far the store has been built is its height.  A step that is taken again, on a store that is
built further, may step aside, fail, or go through; then it stamps its own version again.

Main definitions:

* `Ladder.Steps`, `Ladder.act` — the store, its openers and what they do;
* `Ladder.Climbs` — what the steps do to a store of a height;
* `Ladder.At` — the version and the height of the store, and where its openers are;
* `Ladder.Lowers` — a step that stamps a lower version.

Main results:

* `Ladder.at_act` — what an event does to version and height;
* `Ladder.built_run` — **the version is the height, as long as no step lowers it**;
* `Ladder.alone_meets`, `Ladder.late_meets` — of openers that come one after the other, and of
  openers of a store that is past the steps that go through again, none lowers it;
* `Ladder.finishes` — an open that is let finish takes the steps that are missing;
* `Ladder.stuck_run` — a store of full height under a lower version is not opened again.
-/

import Hekma.Lib.Guarded
import Hekma.Lib.Slots

set_option relaxedAutoImplicit false
set_option autoImplicit false

namespace Hekma

namespace Ladder

/-! ### Openers -/

/-- A store with a version, and the steps to the top one. -/
structure Steps (δ : Type) where
  version : δ → ℕ
  top : ℕ
  /-- A step to a version, as a transaction. -/
  step : ℕ → δ → Option δ

inductive Opener where
  /-- The next step to take. -/
  | climbing (next : ℕ)
  | done
  /-- The store is above the top. -/
  | tooNew
  | failed
  | crashed
  deriving DecidableEq

/-- The opener is on its way. -/
def Opener.isClimbing : Opener → Bool
  | .climbing _ => true
  | _ => false

inductive Event where
  | opens
  /-- An opener takes its next step. -/
  | go (i : ℕ)
  /-- The transaction of an opener cannot be had. -/
  | refuse (i : ℕ)
  /-- An opener dies; a transaction that is under way is rolled back. -/
  | crash (i : ℕ)

structure World (δ : Type) where
  store : δ
  openers : List Opener
  deriving DecidableEq

section

variable {δ : Type} (s : Steps δ)

/-- An opener has read the version. -/
def Steps.start (version : ℕ) : Opener :=
  if version > s.top then .tooNew
  else if version < s.top then .climbing (version + 1)
  else .done

/-- An opener has taken a step. -/
def Steps.advance (next : ℕ) : Opener := if next < s.top then .climbing (next + 1) else .done

/-- An opener that is on its way ends otherwise. -/
def World.stop (w : World δ) (i : ℕ) (outcome : Opener) : World δ :=
  match w.openers[i]? with
  | some (.climbing _) => { w with openers := w.openers.set i outcome }
  | _ => w

def act (w : World δ) : Event → World δ
  | .opens => { w with openers := w.openers ++ [s.start (s.version w.store)] }
  | .go i =>
      match w.openers[i]? with
      | some (.climbing next) =>
          match s.step next w.store with
          | some store => ⟨store, w.openers.set i (s.advance next)⟩
          | none => w.stop i .failed
      | _ => w
  | .refuse i => w.stop i .failed
  | .crash i => w.stop i .crashed

/-- The store after some events. -/
def run (w : World δ) (events : List Event) : World δ := events.foldl (act s) w

/-- A step that stamps a lower version. -/
def Lowers (again : ℕ → Bool) (w : World δ) : Event → Prop
  | .go i => ∃ next, w.openers[i]? = some (.climbing next) ∧ again next ∧ next < s.version w.store
  | _ => False

/-- Nobody opens the store while another opener is on its way. -/
def Alone (w : World δ) : Event → Prop
  | .opens => ∀ o ∈ w.openers, o.isClimbing = false
  | _ => True

instance decidableAlone (w : World δ) : (event : Event) → Decidable (Alone w event)
  | .opens => List.decidableBAll _ w.openers
  | .go _ | .refuse _ | .crash _ => .isTrue trivial

end

/-! ### Version and height -/

/-- What the steps do to the stores.  A store has a version and a height, which `store` builds; a
step that is taken again goes through, or it fails, or it is held against the version first. -/
structure Climbs {δ : Type} (s : Steps δ) (store : ℕ → ℕ → δ) (again locked : ℕ → Bool) : Prop where
  version : ∀ v h, s.version (store v h) = v
  /-- The first time a step builds the store up. -/
  first : ∀ v h, v ≤ h → h < s.top → s.step (h + 1) (store v h) = some (store (h + 1) (h + 1))
  repeated : ∀ v h k, v ≤ h → 0 < k → k ≤ h → h ≤ s.top → s.step k (store v h) =
    if locked k ∧ k ≤ v then some (store v h) else if again k then some (store k h) else none

variable {δ : Type} {s : Steps δ} {store : ℕ → ℕ → δ} {again locked : ℕ → Bool}

/-- The store has a version and a height, no opener is past its height, and one that is done has
seen it full. -/
structure At (s : Steps δ) (store : ℕ → ℕ → δ) (v h : ℕ) (w : World δ) : Prop where
  store : w.store = store v h
  le : v ≤ h
  top : h ≤ s.top
  next : ∀ next, .climbing next ∈ w.openers → 0 < next ∧ next ≤ h + 1 ∧ next ≤ s.top
  done : .done ∈ w.openers → h = s.top

variable {v h : ℕ} {w : World δ} {i : ℕ}

theorem At.fresh (hle : v ≤ h) (htop : h ≤ s.top) : At s store v h ⟨store v h, []⟩ :=
  ⟨rfl, hle, htop, fun _ hmem => absurd hmem List.not_mem_nil,
    fun hmem => absurd hmem List.not_mem_nil⟩

theorem mem_of_mem_set {o x : Opener} {l : List Opener} (h : o ∈ l.set i x) : o ∈ l ∨ o = x :=
  List.mem_or_eq_of_mem_set h

/-- An opener that ends otherwise changes nothing else. -/
theorem At.stop (hat : At s store v h w) (i : ℕ) {outcome : Opener}
    (hclimbing : ∀ next, outcome ≠ .climbing next) (hdone : outcome ≠ .done) :
    At s store v h (w.stop i outcome) := by
  unfold World.stop
  split
  · refine ⟨hat.store, hat.le, hat.top, fun next hmem => ?_, fun hmem => ?_⟩
    · exact (mem_of_mem_set hmem).elim (hat.next next) fun heq => absurd heq.symm (hclimbing next)
    · exact (mem_of_mem_set hmem).elim hat.done fun heq => absurd heq.symm hdone
  · exact hat

theorem At.opens (hc : Climbs s store again locked) (hat : At s store v h w) :
    At s store v h (act s w .opens) := by
  have hle := hat.le
  have htop := hat.top
  have hstart : s.start (s.version w.store) = s.start v := by rw [hat.store, hc.version]
  refine ⟨hat.store, hat.le, hat.top, fun next hmem => ?_, fun hmem => ?_⟩
  · rcases List.mem_append.1 hmem with hold | hnew
    · exact hat.next next hold
    · rw [List.mem_singleton, hstart, Steps.start, if_neg (by omega)] at hnew
      split at hnew
      · injection hnew with hnext
        omega
      · cases hnew
  · rcases List.mem_append.1 hmem with hold | hnew
    · exact hat.done hold
    · rw [List.mem_singleton, hstart, Steps.start, if_neg (by omega)] at hnew
      split at hnew
      · cases hnew
      · omega

/-- An opener has taken a step and the store has a version and a height again. -/
theorem At.advance {v' h' next : ℕ} (hat : At s store v h w)
    (hclimbing : w.openers[i]? = some (.climbing next)) (hle : v' ≤ h') (hmore : h ≤ h')
    (htop : h' ≤ s.top) (hnext : next ≤ h') :
    At s store v' h' ⟨store v' h', w.openers.set i (s.advance next)⟩ := by
  have hbelow := (hat.next next (List.mem_of_getElem? hclimbing)).2.2
  refine ⟨rfl, hle, htop, fun other hmem => ?_, fun hmem => ?_⟩
  · rcases mem_of_mem_set hmem with hold | hnew
    · have hother := hat.next other hold
      omega
    · unfold Steps.advance at hnew
      split at hnew
      · injection hnew with hother
        omega
      · cases hnew
  · rcases mem_of_mem_set hmem with hold | hnew
    · have hdone := hat.done hold
      omega
    · unfold Steps.advance at hnew
      split at hnew
      · cases hnew
      · omega

/-- What a step does: it builds the store up, it steps aside, it stamps its version, or it fails. -/
theorem act_go (hc : Climbs s store again locked) (hat : At s store v h w) {next : ℕ}
    (hclimbing : w.openers[i]? = some (.climbing next)) :
    next = h + 1 ∧ act s w (.go i) = ⟨store next next, w.openers.set i (s.advance next)⟩ ∨
      next ≤ v ∧ act s w (.go i) = ⟨store v h, w.openers.set i (s.advance next)⟩ ∨
      next ≤ h ∧ again next ∧ act s w (.go i) = ⟨store next h, w.openers.set i (s.advance next)⟩ ∨
      act s w (.go i) = w.stop i .failed := by
  obtain ⟨hpos, hheight, hbelow⟩ := hat.next next (List.mem_of_getElem? hclimbing)
  simp only [act, hclimbing, hat.store]
  rcases Nat.lt_or_ge h next with hlt | hge
  · obtain rfl : next = h + 1 := by omega
    rw [hc.first v h hat.le (by omega)]
    exact .inl ⟨rfl, rfl⟩
  · rw [hc.repeated v h next hat.le hpos hge hat.top]
    by_cases haside : locked next = true ∧ next ≤ v
    · rw [if_pos haside]
      exact .inr (.inl ⟨haside.2, rfl⟩)
    · rw [if_neg haside]
      cases hagain : again next with
      | true => exact .inr (.inr (.inl ⟨hge, rfl, rfl⟩))
      | false => exact .inr (.inr (.inr rfl))

theorem At.fails (hat : At s store v h w) (i : ℕ) : At s store v h (w.stop i .failed) :=
  hat.stop i (fun _ => Opener.noConfusion) Opener.noConfusion

theorem At.crashes (hat : At s store v h w) (i : ℕ) : At s store v h (w.stop i .crashed) :=
  hat.stop i (fun _ => Opener.noConfusion) Opener.noConfusion

/-- An opener that is not on its way does not go on. -/
theorem act_go_of_not_climbing (hnot : ∀ next, w.openers[i]? ≠ some (.climbing next)) :
    act s w (.go i) = w := by
  simp only [act]

/-- What an event does to version and height. -/
theorem at_act (hc : Climbs s store again locked) (hat : At s store v h w) (event : Event) :
    ∃ v' h', At s store v' h' (act s w event) ∧ h ≤ h' ∧
      (¬ Lowers s again w event → v = h → v' = h') := by
  cases event with
  | opens => exact ⟨v, h, hat.opens hc, le_rfl, fun _ heq => heq⟩
  | refuse i => exact ⟨v, h, hat.fails i, le_rfl, fun _ heq => heq⟩
  | crash i => exact ⟨v, h, hat.crashes i, le_rfl, fun _ heq => heq⟩
  | go i =>
      by_cases hopener : ∃ next, w.openers[i]? = some (.climbing next)
      · obtain ⟨next, hopener⟩ := hopener
        have hbelow := (hat.next next (List.mem_of_getElem? hopener)).2.2
        have hle := hat.le
        rcases act_go hc hat hopener with ⟨hfirst, hact⟩ | ⟨haside, hact⟩ |
          ⟨hge, hagain, hact⟩ | hact
        · rw [hact]
          exact ⟨next, next, hat.advance hopener le_rfl (by omega) hbelow le_rfl, by omega,
            fun _ _ => rfl⟩
        · rw [hact]
          exact ⟨v, h, hat.advance hopener hle le_rfl hat.top (by omega), le_rfl,
            fun _ heq => heq⟩
        · rw [hact]
          refine ⟨next, h, hat.advance hopener hge le_rfl hat.top hge, le_rfl,
            fun hlowers heq => ?_⟩
          by_contra hne
          refine hlowers ⟨next, hopener, hagain, ?_⟩
          rw [hat.store, hc.version]
          omega
        · rw [hact]
          exact ⟨v, h, hat.fails i, le_rfl, fun _ heq => heq⟩
      · rw [act_go_of_not_climbing (not_exists.1 hopener)]
        exact ⟨v, h, hat, le_rfl, fun _ heq => heq⟩

/-- There is a version and a height in every run. -/
theorem at_run (hc : Climbs s store again locked) (hat : At s store v h w) (events : List Event) :
    ∃ v' h', At s store v' h' (run s w events) := by
  refine Guarded.invariant (P := fun w => ∃ v h, At s store v h w) ?_ ⟨v, h, hat⟩
    (Guarded.meets_true events) Guarded.last_mem_states
  rintro w e ⟨v, h, hat⟩ -
  obtain ⟨v', h', hat', -⟩ := at_act hc hat e
  exact ⟨v', h', hat'⟩

/-! ### Runs that do not lower the version -/

/-- **The version is the height, as long as no step lowers it.** -/
theorem built_run (hc : Climbs s store again locked) (hat : At s store h h w) {events : List Event}
    (hmeets : Guarded.Meets (act s) (fun w e => ¬ Lowers s again w e) w events) {w' : World δ}
    (hw' : w' ∈ Guarded.states (act s) w events) : ∃ h', h ≤ h' ∧ At s store h' h' w' := by
  refine Guarded.invariant (P := fun w => ∃ h', h ≤ h' ∧ At s store h' h' w) ?_ ⟨h, le_rfl, hat⟩
    hmeets hw'
  rintro w e ⟨h', hle, hat⟩ hlowers
  obtain ⟨v'', h'', hat', hmore, heq⟩ := at_act hc hat e
  obtain rfl := heq hlowers rfl
  exact ⟨v'', by omega, hat'⟩

/-- The only opener on its way is at the next step. -/
structure Single (s : Steps δ) (store : ℕ → ℕ → δ) (h : ℕ) (w : World δ) : Prop where
  built : At s store h h w
  next : ∀ (i next : ℕ), w.openers[i]? = some (Opener.climbing next) → next = h + 1
  one : ∀ (i j a b : ℕ), w.openers[i]? = some (Opener.climbing a) →
    w.openers[j]? = some (Opener.climbing b) → i = j

theorem Single.fresh (htop : h ≤ s.top) : Single s store h ⟨store h h, []⟩ :=
  ⟨.fresh le_rfl htop, fun i _ hi => absurd hi (by simp), fun i _ _ _ hi => absurd hi (by simp)⟩

theorem Single.not_lowers (hc : Climbs s store again locked) (hone : Single s store h w)
    (event : Event) : ¬ Lowers s again w event := by
  cases event with
  | go i =>
      rintro ⟨next, hopener, -, hlt⟩
      rw [hone.built.store, hc.version, hone.next i next hopener] at hlt
      omega
  | _ => exact not_false

theorem getElem?_set_of_ne {l : List Opener} {x o : Opener} {j : ℕ} (h : (l.set i x)[j]? = some o)
    (hne : o ≠ x) : l[j]? = some o := by
  by_cases hij : i = j
  · subst hij
    rw [List.getElem?_set_self'] at h
    cases hl : l[i]? with
    | none => simp [hl] at h
    | some y =>
        rw [hl] at h
        exact absurd (Option.some.inj h).symm hne
  · rwa [List.getElem?_set_ne hij] at h

theorem stop_climbing {outcome : Opener} {j next : ℕ} (hout : ∀ k, outcome ≠ .climbing k)
    (h : (w.stop i outcome).openers[j]? = some (.climbing next)) :
    w.openers[j]? = some (.climbing next) := by
  unfold World.stop at h
  split at h
  · exact getElem?_set_of_ne h (hout next).symm
  · exact h

theorem Single.stop (hone : Single s store h w) (i : ℕ) {outcome : Opener}
    (hout : ∀ k, outcome ≠ .climbing k) (hdone : outcome ≠ .done) :
    Single s store h (w.stop i outcome) :=
  ⟨hone.built.stop i hout hdone,
    fun j next hj => hone.next j next (stop_climbing hout hj),
    fun j k a b hj hk => hone.one j k a b (stop_climbing hout hj) (stop_climbing hout hk)⟩

theorem Single.opens (hc : Climbs s store again locked) (hone : Single s store h w)
    (halone : Alone w .opens) : Single s store h (act s w .opens) := by
  have hnone : ∀ (i next : ℕ), w.openers[i]? ≠ some (.climbing next) := fun i next hi =>
    Bool.false_ne_true (halone _ (List.mem_of_getElem? hi)).symm
  have hlast : ∀ i next, (act s w .opens).openers[i]? = some (.climbing next) →
      i = w.openers.length ∧ next = h + 1 := by
    intro i next hi
    simp only [act, List.getElem?_append] at hi
    split at hi
    · exact absurd hi (hnone i next)
    · rw [hone.built.store, hc.version, List.getElem?_singleton] at hi
      split at hi
      · next hlen =>
          rw [Steps.start] at hi
          split at hi
          · cases hi
          · split at hi
            · injection hi with hi
              injection hi with hi
              exact ⟨by omega, hi.symm⟩
            · cases hi
      · cases hi
  exact ⟨hone.built.opens hc, fun i next hi => (hlast i next hi).2,
    fun i j a b hi hj => (hlast i a hi).1.trans (hlast j b hj).1.symm⟩

theorem Single.act (hc : Climbs s store again locked) (hone : Single s store h w) {event : Event}
    (halone : Alone w event) : ∃ h', Single s store h' (act s w event) := by
  cases event with
  | opens => exact ⟨h, hone.opens hc halone⟩
  | refuse i => exact ⟨h, hone.stop i (fun _ => Opener.noConfusion) Opener.noConfusion⟩
  | crash i => exact ⟨h, hone.stop i (fun _ => Opener.noConfusion) Opener.noConfusion⟩
  | go i =>
      by_cases hopener : ∃ next, w.openers[i]? = some (.climbing next)
      · obtain ⟨next, hopener⟩ := hopener
        obtain rfl := hone.next i next hopener
        have hbelow := (hone.built.next _ (List.mem_of_getElem? hopener)).2.2
        rcases act_go hc hone.built hopener with ⟨-, hact⟩ | ⟨haside, -⟩ | ⟨hge, -⟩ | hact
        · have hclimbing : ∀ (j k : ℕ),
              (w.openers.set i (s.advance (h + 1)))[j]? = some (.climbing k) →
              j = i ∧ k = h + 1 + 1 := by
            intro j k hj
            by_cases hij : i = j
            · subst hij
              rw [List.getElem?_set_self (List.getElem?_eq_some_iff.1 hopener).1,
                Steps.advance] at hj
              split at hj
              · injection hj with hj
                injection hj with hj
                exact ⟨rfl, hj.symm⟩
              · cases hj
            · rw [List.getElem?_set_ne hij] at hj
              exact absurd (hone.one j i k _ hj hopener).symm hij
          rw [hact]
          exact ⟨h + 1, hone.built.advance hopener le_rfl (by omega) hbelow le_rfl,
            fun j k hj => (hclimbing j k hj).2,
            fun j k a b hj hk => (hclimbing j a hj).1.trans (hclimbing k b hk).1.symm⟩
        · omega
        · omega
        · rw [hact]
          exact ⟨h, hone.stop i (fun _ => Opener.noConfusion) Opener.noConfusion⟩
      · rw [act_go_of_not_climbing (not_exists.1 hopener)]
        exact ⟨h, hone⟩

/-- **Of openers that come one after the other none lowers the version.** -/
theorem alone_meets (hc : Climbs s store again locked) (hone : Single s store h w)
    {events : List Event} (halone : Guarded.Meets (act s) Alone w events) :
    Guarded.Meets (act s) (fun w e => ¬ Lowers s again w e) w events :=
  Guarded.Meets.imp (P := fun w => ∃ h, Single s store h w)
    (fun _ _ ⟨_, hone⟩ halone => hone.act hc halone)
    (fun _ e ⟨_, hone⟩ _ => hone.not_lowers hc e) ⟨h, hone⟩ halone

/-- The store and its openers are past a step. -/
structure Past (s : Steps δ) (store : ℕ → ℕ → δ) (b : ℕ) (w : World δ) : Prop where
  built : ∃ h, b ≤ h ∧ At s store h h w
  next : ∀ next, .climbing next ∈ w.openers → b < next

theorem Past.act (hc : Climbs s store again locked) {b : ℕ} (hagain : ∀ k, again k → k ≤ b)
    (hpast : Past s store b w) (event : Event) :
    Past s store b (act s w event) ∧ ¬ Lowers s again w event := by
  obtain ⟨⟨h, hb, hat⟩, hnext⟩ := hpast
  have hlowers : ¬ Lowers s again w event := by
    cases event with
    | go i =>
        rintro ⟨next, hopener, hin, -⟩
        exact absurd (hagain next hin) (by have := hnext next (List.mem_of_getElem? hopener); omega)
    | _ => exact not_false
  refine ⟨⟨?_, ?_⟩, hlowers⟩
  · obtain ⟨v', h', hat', hmore, heq⟩ := at_act hc hat event
    obtain rfl := heq hlowers rfl
    exact ⟨v', by omega, hat'⟩
  · have hstop : ∀ (i : ℕ) (outcome : Opener), (∀ k, outcome ≠ .climbing k) →
        ∀ next, .climbing next ∈ (w.stop i outcome).openers → b < next := by
      intro i outcome hout next hmem
      obtain ⟨j, hj⟩ := List.getElem?_of_mem hmem
      exact hnext next (List.mem_of_getElem? (stop_climbing hout hj))
    intro next hmem
    cases event with
    | refuse i => exact hstop i _ (fun _ => Opener.noConfusion) next hmem
    | crash i => exact hstop i _ (fun _ => Opener.noConfusion) next hmem
    | opens =>
        rcases List.mem_append.1 hmem with hold | hnew
        · exact hnext next hold
        · rw [List.mem_singleton, hat.store, hc.version, Steps.start] at hnew
          split at hnew
          · cases hnew
          · split at hnew
            · injection hnew with hnew
              omega
            · cases hnew
    | go i =>
        by_cases hopener : ∃ k, w.openers[i]? = some (.climbing k)
        · obtain ⟨k, hopener⟩ := hopener
          have hk := hnext k (List.mem_of_getElem? hopener)
          have hset : .climbing next ∈ w.openers.set i (s.advance k) → b < next := by
            intro hin
            rcases mem_of_mem_set hin with hold | hnew
            · exact hnext next hold
            · unfold Steps.advance at hnew
              split at hnew
              · injection hnew with hnew
                omega
              · cases hnew
          rcases act_go hc hat hopener with ⟨-, hact⟩ | ⟨-, hact⟩ | ⟨-, -, hact⟩ | hact
          · rw [hact] at hmem
            exact hset hmem
          · rw [hact] at hmem
            exact hset hmem
          · rw [hact] at hmem
            exact hset hmem
          · rw [hact] at hmem
            exact hstop i _ (fun _ => Opener.noConfusion) next hmem
        · rw [act_go_of_not_climbing (not_exists.1 hopener)] at hmem
          exact hnext next hmem

/-- **Of openers of a store that is past the steps that go through again none lowers the
version.** -/
theorem late_meets (hc : Climbs s store again locked) {b : ℕ} (hagain : ∀ k, again k → k ≤ b)
    (hpast : Past s store b w) (events : List Event) :
    Guarded.Meets (act s) (fun w e => ¬ Lowers s again w e) w events :=
  Guarded.Meets.imp (P := Past s store b) (fun _ e hpast _ => (hpast.act hc hagain e).1)
    (fun _ e hpast _ => (hpast.act hc hagain e).2) hpast (Guarded.meets_true events)

/-! ### An opener that is let finish -/

theorem act_first (hc : Climbs s store again locked) {openers : List Opener} (hlt : h < s.top) :
    act s ⟨store h h, openers ++ [.climbing (h + 1)]⟩ (.go openers.length) =
      ⟨store (h + 1) (h + 1), openers ++ [s.advance (h + 1)]⟩ := by
  simp only [act, List.getElem?_concat_length, hc.first h h le_rfl hlt]
  rw [List.set_append_right _ _ le_rfl, Nat.sub_self]
  rfl

/-- The steps that are missing, one after the other. -/
theorem climbs_up (hc : Climbs s store again locked) {openers : List Opener} (n : ℕ)
    (hn : h + n + 1 = s.top) :
    run s ⟨store h h, openers ++ [.climbing (h + 1)]⟩
        (List.replicate (n + 1) (.go openers.length)) =
      ⟨store s.top s.top, openers ++ [.done]⟩ := by
  induction n generalizing h with
  | zero =>
      rw [run, List.replicate_one, List.foldl_cons, List.foldl_nil, act_first hc (by omega),
        Steps.advance, if_neg (by omega), ← hn]
  | succ n ih =>
      have hnext : s.advance (h + 1) = .climbing (h + 1 + 1) := by
        rw [Steps.advance, if_pos (by omega)]
      rw [List.replicate_succ, run, List.foldl_cons, act_first hc (by omega), hnext]
      exact ih (h := h + 1) (by omega)

/-- **An open that is let finish takes the steps that are missing.** -/
theorem finishes (hc : Climbs s store again locked) (hat : At s store h h w) :
    run s w (.opens :: List.replicate (s.top - h) (.go w.openers.length)) =
      ⟨store s.top s.top, w.openers ++ [.done]⟩ := by
  obtain ⟨_, openers⟩ := w
  obtain rfl := hat.store
  have htop := hat.top
  have hopens : act s ⟨store h h, openers⟩ .opens =
      ⟨store h h, openers ++ [s.start h]⟩ := by rw [act, hc.version]
  rw [run, List.foldl_cons, hopens, Steps.start, if_neg (by omega)]
  rcases Nat.lt_or_ge h s.top with hlt | hge
  · obtain ⟨n, hn⟩ : ∃ n, h + n + 1 = s.top := ⟨s.top - h - 1, by omega⟩
    have hsub : s.top - h = n + 1 := by omega
    rw [if_pos hlt, hsub]
    exact climbs_up hc n hn
  · obtain rfl : h = s.top := by omega
    rw [if_neg (by omega), Nat.sub_self]
    rfl

/-! ### A full store under a lower version -/

/-- A full store under a lower version, and no opener is done that was not. -/
structure Stuck (s : Steps δ) (store : ℕ → ℕ → δ) (before w : World δ) : Prop where
  full : ∃ v, v < s.top ∧ At s store v s.top w
  done : ∀ i : ℕ, w.openers[i]? = some .done → before.openers[i]? = some .done

theorem Stuck.act (hc : Climbs s store again locked) (hagain : ∀ k, again k → k < s.top)
    {before : World δ} (hstuck : Stuck s store before w) (event : Event) :
    Stuck s store before (act s w event) := by
  obtain ⟨⟨v, hv, hat⟩, hdone⟩ := hstuck
  have hstop : ∀ (i : ℕ) (outcome : Opener), outcome ≠ .done →
      ∀ j : ℕ, (w.stop i outcome).openers[j]? = some .done → before.openers[j]? = some .done := by
    intro i outcome hout j hj
    unfold World.stop at hj
    split at hj
    · exact hdone j (getElem?_set_of_ne hj hout.symm)
    · exact hdone j hj
  cases event with
  | refuse i => exact ⟨⟨v, hv, hat.fails i⟩, hstop i _ Opener.noConfusion⟩
  | crash i => exact ⟨⟨v, hv, hat.crashes i⟩, hstop i _ Opener.noConfusion⟩
  | opens =>
      refine ⟨⟨v, hv, hat.opens hc⟩, fun j hj => ?_⟩
      have hstart : s.start (s.version w.store) = .climbing (v + 1) := by
        rw [hat.store, hc.version, Steps.start, if_neg (by omega), if_pos hv]
      simp only [Ladder.act, hstart, List.getElem?_append] at hj
      split at hj
      · exact hdone j hj
      · rw [List.getElem?_singleton] at hj
        split at hj <;> cases hj
  | go i =>
      by_cases hopener : ∃ k, w.openers[i]? = some (.climbing k)
      · obtain ⟨k, hopener⟩ := hopener
        have hbelow := (hat.next k (List.mem_of_getElem? hopener)).2.2
        have hset : k < s.top → ∀ j : ℕ, (w.openers.set i (s.advance k))[j]? = some .done →
            before.openers[j]? = some .done := by
          intro hlt j hj
          rw [Steps.advance, if_pos hlt] at hj
          exact hdone j (getElem?_set_of_ne hj Opener.noConfusion)
        rcases act_go hc hat hopener with ⟨hfirst, -⟩ | ⟨haside, hact⟩ | ⟨hge, hin, hact⟩ | hact
        · omega
        · rw [hact]
          exact ⟨⟨v, hv, hat.advance hopener hat.le le_rfl le_rfl hbelow⟩, hset (by omega)⟩
        · rw [hact]
          exact ⟨⟨k, hagain k hin, hat.advance hopener hge le_rfl le_rfl hbelow⟩,
            hset (hagain k hin)⟩
        · rw [hact]
          exact ⟨⟨v, hv, hat.fails i⟩, hstop i _ Opener.noConfusion⟩
      · rw [act_go_of_not_climbing (not_exists.1 hopener)]
        exact ⟨⟨v, hv, hat⟩, hdone⟩

/-- **A full store under a lower version is not opened again.** -/
theorem stuck_run (hc : Climbs s store again locked) (hagain : ∀ k, again k → k < s.top)
    (hlow : v < s.top) (hat : At s store v s.top w) (events : List Event) :
    Stuck s store w (run s w events) :=
  Guarded.invariant (P := Stuck s store w) (fun _ e hstuck _ => hstuck.act hc hagain e)
    ⟨⟨v, hlow, hat⟩, fun _ h => h⟩ (Guarded.meets_true events) Guarded.last_mem_states

end Ladder

end Hekma
