/-
**Resync: reading the committed events again** (`domain/resync.rs`, `ports/run_store.rs`,
`domain/registry.rs`).

A host that missed events reads the committed ones of an instance from the store: its transitions,
its breaches and its usage, each in the order of their rows.  It keeps how many of each it has had,
and the next call skips these.  The store may take further writes between two calls, and between two
pages of one read.

Main definitions:

* `Resync.Store`, `Resync.Write` — the tables of the events, and what is written to them;
* `Resync.readCommitted` — one call, `Resync.readChain` — calls that feed the cursor back;
* `Resync.transitionEvents`, `Resync.breachEvents` — the paged reads;
* `Resync.Store.records` — the committed events of a family.

Main results:

* `Resync.grows_run` — the records of an instance that is kept only grow at their end;
* `Resync.readCommitted_ok`, `Resync.readCommitted_error` — what one call delivers;
* `Resync.resync_enumerates` — a chain of calls delivers each record once.
-/

import Hekma.Lib.Keyset
import Hekma.Supervisor.State

set_option relaxedAutoImplicit false
set_option autoImplicit false

namespace Hekma

namespace Resync

variable {α : Type}

/-! ### The tables -/

/-- A row of an event table. -/
structure Row (α : Type) where
  id : ℕ
  instanceId : ℕ
  event : α

/-- An event table.  Its ids rise with the rows and are never used again. -/
structure EventTable (α : Type) where
  seq : ℕ
  rows : List (Row α)
  rising : rows.Pairwise fun r r' => r.id < r'.id
  bounded : ∀ r ∈ rows, 0 < r.id ∧ r.id ≤ seq

namespace EventTable

def empty : EventTable α := ⟨0, [], List.Pairwise.nil, fun _ hr => absurd hr List.not_mem_nil⟩

/-- Insert a row. -/
def insert (t : EventTable α) (instanceId : ℕ) (event : α) : EventTable α where
  seq := t.seq + 1
  rows := t.rows ++ [⟨t.seq + 1, instanceId, event⟩]
  rising := by
    refine List.pairwise_append.2 ⟨t.rising, List.pairwise_singleton _ _, fun r hr r' hr' => ?_⟩
    rw [List.mem_singleton.1 hr']
    exact Nat.lt_succ_of_le (t.bounded r hr).2
  bounded := by
    intro r hr
    rcases List.mem_append.1 hr with hr | hr
    · exact ⟨(t.bounded r hr).1, (t.bounded r hr).2.trans (Nat.le_succ _)⟩
    · rw [List.mem_singleton.1 hr]
      exact ⟨Nat.succ_pos _, le_rfl⟩

/-- The rows of an instance go with it. -/
def deleteInstance (t : EventTable α) (instanceId : ℕ) : EventTable α where
  seq := t.seq
  rows := t.rows.filter fun r => r.instanceId ≠ instanceId
  rising := t.rising.sublist List.filter_sublist
  bounded := fun r hr => t.bounded r (List.filter_sublist.subset hr)

/-- The rows of an instance by their ids; an instance that is not registered has none. -/
def keyed (t : EventTable α) : Option ℕ → List (ℕ × α)
  | none => []
  | some instanceId =>
      (t.rows.filter fun r => r.instanceId = instanceId).map fun r => (r.id, r.event)

end EventTable

/-- A transition as its row has it. -/
structure Transition where
  instanceName : InstanceName
  event : TransitionEvent
  at_ : Timestamp
  deriving DecidableEq, Repr

/-- A usage event in the signed columns of the ledger. -/
structure UsageColumns where
  runId : RunId
  inputTokens : ℤ
  outputTokens : ℤ
  meteringSource : String
  occurredAt : Timestamp
  sequence : ℤ
  cachedTokens : Option ℤ
  launchGeneration : ℤ
  deriving DecidableEq, Repr

def UsageColumns.ofEvent (event : UsageEvent) (generation : ℕ) : UsageColumns where
  runId := event.runId
  inputTokens := clampTokens event.inputTokens
  outputTokens := clampTokens event.outputTokens
  meteringSource := event.meteringSource
  occurredAt := event.occurredAt
  sequence := clampTokens event.sequence
  cachedTokens := event.cachedTokens.map clampTokens
  launchGeneration := clampTokens generation

/-- The event of a row. -/
def UsageColumns.toEvent (c : UsageColumns) (name : InstanceName) : UsageEvent where
  instanceName := name
  runId := c.runId
  inputTokens := c.inputTokens.toNat
  outputTokens := c.outputTokens.toNat
  cachedTokens := c.cachedTokens.map Int.toNat
  meteringSource := c.meteringSource
  occurredAt := c.occurredAt
  sequence := c.sequence.toNat

/-- Two rows of one instance have the same deduplication key. -/
def UsageColumns.sameKey (c d : UsageColumns) : Bool :=
  c.runId = d.runId && c.launchGeneration = d.launchGeneration && c.sequence = d.sequence

/-- The instances by their ids, and the three event tables. -/
structure Store where
  instances : List (ℕ × InstanceName)
  transitions : EventTable Transition
  breaches : EventTable BudgetBreachEvent
  usage : EventTable UsageColumns
  nodup : (instances.map Prod.fst).Nodup

namespace Store

def empty : Store := ⟨[], .empty, .empty, .empty, List.nodup_nil⟩

/-- The id of a registered instance. -/
def instanceId (s : Store) (name : InstanceName) : Option ℕ :=
  (s.instances.find? fun i => i.2 = name).map Prod.fst

/-- The id of the next instance.  The id of a removed one may be used again. -/
def nextInstanceId (s : Store) : ℕ := (s.instances.map Prod.fst).foldr max 0 + 1

theorem lt_nextInstanceId (s : Store) {id : ℕ} (hid : id ∈ s.instances.map Prod.fst) :
    id < s.nextInstanceId := by
  have hle : ∀ l : List ℕ, id ∈ l → id ≤ l.foldr max 0 := by
    intro l hl
    induction l with
    | nil => cases hl
    | cons a l ih =>
        rcases List.mem_cons.1 hl with rfl | hl
        · exact le_max_left _ _
        · exact (ih hl).trans (le_max_right _ _)
  exact Nat.lt_succ_of_le (hle _ hid)

def createInstance (s : Store) (name : InstanceName) : Store :=
  { s with
    instances := s.instances ++ [(s.nextInstanceId, name)]
    nodup := by
      rw [List.map_append, List.nodup_append]
      refine ⟨s.nodup, List.nodup_singleton _, fun id hid id' hid' => ?_⟩
      rw [List.mem_singleton.1 hid']
      exact (s.lt_nextInstanceId hid).ne }

/-- Delete an instance with all its rows. -/
def deleteInstance (s : Store) (name : InstanceName) (id : ℕ) : Store where
  instances := s.instances.filter fun i => i.2 ≠ name
  transitions := s.transitions.deleteInstance id
  breaches := s.breaches.deleteInstance id
  usage := s.usage.deleteInstance id
  nodup := s.nodup.sublist (List.filter_sublist.map _)

end Store

/-! ### Writes -/

/-- What is committed to the store. -/
inductive Write where
  | createInstance (name : InstanceName)
  | deleteInstance (name : InstanceName)
  | appendTransition (event : Transition)
  | appendBreach (event : BudgetBreachEvent)
  | insertUsage (event : UsageEvent) (generation : ℕ)
  deriving DecidableEq

namespace Store

/-- Make a write.  One that fails, and a replay of a usage event, leave the store as it is. -/
def apply (s : Store) : Write → Store
  | .createInstance name =>
      match s.instanceId name with
      | some _ => s
      | none => s.createInstance name
  | .deleteInstance name =>
      match s.instanceId name with
      | some id => s.deleteInstance name id
      | none => s
  | .appendTransition event =>
      match s.instanceId event.instanceName with
      | some id => { s with transitions := s.transitions.insert id event }
      | none => s
  | .appendBreach event =>
      match s.instanceId event.instanceName with
      | some id => { s with breaches := s.breaches.insert id event }
      | none => s
  | .insertUsage event generation =>
      match s.instanceId event.instanceName with
      | some id =>
          let row := UsageColumns.ofEvent event generation
          if (s.usage.keyed (some id)).any fun r => row.sameKey r.2 then s
          else { s with usage := s.usage.insert id row }
      | none => s

/-- The store after some writes. -/
def run (s : Store) (writes : List Write) : Store := writes.foldl apply s

end Store

/-! ### Pages -/

/-- The largest page a read returns. -/
def pageMax : ℕ := 1000

/-- The page size that is used for a requested one. -/
def clampPage (limit : ℕ) : ℕ := if limit = 0 then pageMax else min limit pageMax

theorem clampPage_pos (limit : ℕ) : 0 < clampPage limit := by
  unfold clampPage pageMax
  split <;> omega

/-- One page of the rows of an instance. -/
def EventTable.page (t : EventTable α) (id : Option ℕ) (after limit : ℕ) : Keyset.Page α :=
  match id with
  | none => ⟨[], none⟩
  | some id => Keyset.read (t.keyed (some id)) after (clampPage limit)

namespace Store

def transitionsPage (s : Store) (name : InstanceName) (after limit : ℕ) : Keyset.Page Transition :=
  s.transitions.page (s.instanceId name) after limit

def breachesPage (s : Store) (name : InstanceName) (after limit : ℕ) :
    Keyset.Page BudgetBreachEvent :=
  s.breaches.page (s.instanceId name) after limit

def usageEvents (s : Store) (name : InstanceName) : List UsageEvent :=
  (s.usage.keyed (s.instanceId name)).map fun r => r.2.toEvent name

end Store

/-- Every transition of an instance, page after page.  The `k`-th page is read from `views k`. -/
def transitionEvents (fuel limit : ℕ) (views : ℕ → Store) (name : InstanceName) :
    Option (List Transition) :=
  Keyset.collect (fun k after => (views k).transitionsPage name after limit) fuel 0 0 []

/-- Every breach of an instance, page after page. -/
def breachEvents (fuel limit : ℕ) (views : ℕ → Store) (name : InstanceName) :
    Option (List BudgetBreachEvent) :=
  Keyset.collect (fun k after => (views k).breachesPage name after limit) fuel 0 0 []

/-! ### Resync -/

/-- A committed event as it is published. -/
inductive EngineEvent where
  | transition (event : Transition)
  | budgetBreach (event : BudgetBreachEvent)
  | usageUpdate (event : UsageEvent)
  deriving DecidableEq, Repr

/-- How many records of each family have been consumed. -/
structure ResyncCursor where
  transitions : ℕ
  breaches : ℕ
  usage : ℕ
  deriving DecidableEq, Repr

def ResyncCursor.start : ResyncCursor := ⟨0, 0, 0⟩

/-- The events behind a cursor, and the cursor to go on with. -/
structure ResyncBatch where
  events : List EngineEvent
  cursor : ResyncCursor
  tornTailSkipped : Bool
  deriving DecidableEq, Repr

/-- Why a read fails. -/
inductive EngineError where
  | log (name : InstanceName) (path detail : String)
  deriving DecidableEq, Repr

def truncatedDetail (family : String) (cursor committed : ℕ) : String :=
  "the resync cursor's " ++ family ++ " position (" ++ toString cursor ++
    ") is past this family's committed count (" ++ toString committed ++
    ") — the record was truncated or rotated away; resyncing would re-deliver or silently skip " ++
    "records, so this fails instead. Reset the cursor to ResyncCursor::START deliberately if a " ++
    "from-zero backfill is intended"

/-- A cursor past the count of a family is refused. -/
def rejectTruncatedFamily (name : InstanceName) (path family : String) (cursor committed : ℕ) :
    Except EngineError Unit :=
  if committed < cursor then .error (.log name path (truncatedDetail family cursor committed))
  else .ok ()

/-- The events behind a cursor, family by family. -/
def assemble (transitions : List Transition) (breaches : List BudgetBreachEvent)
    (usage : List UsageEvent) (after : ResyncCursor) : ResyncBatch where
  events :=
    (transitions.drop (min after.transitions transitions.length)).map .transition ++
    (breaches.drop (min after.breaches breaches.length)).map .budgetBreach ++
    (usage.drop (min after.usage usage.length)).map .usageUpdate
  cursor := ⟨transitions.length, breaches.length, usage.length⟩
  tornTailSkipped := false

/-- Read the committed events behind a cursor, all from one snapshot of the store.  Its `limit` is
`pageMax`. -/
def readCommitted (fuel limit : ℕ) (path : String) (s : Store) (name : InstanceName)
    (after : ResyncCursor) : Option (Except EngineError ResyncBatch) := do
  let transitions ← transitionEvents fuel limit (fun _ => s) name
  let breaches ← breachEvents fuel limit (fun _ => s) name
  let usage := s.usageEvents name
  return do
    rejectTruncatedFamily name path "transition" after.transitions transitions.length
    rejectTruncatedFamily name path "breach" after.breaches breaches.length
    rejectTruncatedFamily name path "usage-ledger" after.usage usage.length
    return assemble transitions breaches usage after

/-- A chain of calls that feed the cursor back, each after some writes. -/
def readChain (fuel limit : ℕ) (path : String) (name : InstanceName) :
    Store → ResyncCursor → List (List Write) → Option (Except EngineError (List ResyncBatch))
  | _, _, [] => some (.ok [])
  | s, after, writes :: rest =>
      match readCommitted fuel limit path (s.run writes) name after with
      | none => none
      | some (.error e) => some (.error e)
      | some (.ok batch) =>
          (readChain fuel limit path name (s.run writes) batch.cursor rest).map
            fun answer => answer.map (batch :: ·)

/-! ### Records -/

/-- The three families of committed events. -/
inductive Family where
  | transition
  | breach
  | usage
  deriving DecidableEq, Repr

/-- How an error names a family. -/
def Family.text : Family → String
  | .transition => "transition"
  | .breach => "breach"
  | .usage => "usage-ledger"

/-- The position of a cursor in a family. -/
def ResyncCursor.pos (c : ResyncCursor) : Family → ℕ
  | .transition => c.transitions
  | .breach => c.breaches
  | .usage => c.usage

def EngineEvent.family : EngineEvent → Family
  | .transition _ => .transition
  | .budgetBreach _ => .breach
  | .usageUpdate _ => .usage

/-- The events of a batch that belong to a family. -/
def ResyncBatch.part (b : ResyncBatch) (f : Family) : List EngineEvent :=
  b.events.filter fun e => e.family = f

/-- The committed events of an instance, in the order they were committed. -/
def Store.records (s : Store) (name : InstanceName) : Family → List EngineEvent
  | .transition => (s.transitions.keyed (s.instanceId name)).map fun r => .transition r.2
  | .breach => (s.breaches.keyed (s.instanceId name)).map fun r => .budgetBreach r.2
  | .usage => (s.usage.keyed (s.instanceId name)).map fun r => .usageUpdate (r.2.toEvent name)

/-! ### Growth -/

variable {s s' : Store} {name : InstanceName} {id : Option ℕ} {t : EventTable α}

namespace EventTable

theorem rising_keyed (t : EventTable α) (id : Option ℕ) : Keyset.Rising (t.keyed id) := by
  cases id with
  | none => exact List.Pairwise.nil
  | some id => exact List.pairwise_map.2 (t.rising.sublist List.filter_sublist)

theorem keyed_pos (t : EventTable α) (id : Option ℕ) : ∀ r ∈ t.keyed id, 0 < r.1 := by
  intro r hr
  cases id with
  | none => cases hr
  | some id =>
      obtain ⟨row, hrow, rfl⟩ := List.mem_map.1 hr
      exact (t.bounded row (List.filter_sublist.subset hrow)).1

theorem keyed_insert (t : EventTable α) (instanceId : ℕ) (event : α) (id : Option ℕ) :
    t.keyed id <+: (t.insert instanceId event).keyed id := by
  cases id with
  | none => exact List.prefix_rfl
  | some id =>
      refine List.IsPrefix.map _ ?_
      rw [insert, List.filter_append]
      exact List.prefix_append _ _

theorem keyed_deleteInstance (t : EventTable α) {instanceId : ℕ} (hid : id ≠ some instanceId) :
    (t.deleteInstance instanceId).keyed id = t.keyed id := by
  cases id with
  | none => rfl
  | some id =>
      have hne : id ≠ instanceId := fun h => hid (congrArg some h)
      rw [keyed, keyed, deleteInstance, List.filter_filter]
      congr 1
      refine List.filter_congr fun r _ => ?_
      by_cases hr : r.instanceId = id
      · simp [hr, hne]
      · simp [hr]

end EventTable

/-- The records of an instance have grown at their end at most. -/
structure Grows (name : InstanceName) (s s' : Store) : Prop where
  transitions : s.transitions.keyed (s.instanceId name) <+:
    s'.transitions.keyed (s'.instanceId name)
  breaches : s.breaches.keyed (s.instanceId name) <+: s'.breaches.keyed (s'.instanceId name)
  usage : s.usage.keyed (s.instanceId name) <+: s'.usage.keyed (s'.instanceId name)

theorem Grows.refl (name : InstanceName) (s : Store) : Grows name s s :=
  ⟨List.prefix_rfl, List.prefix_rfl, List.prefix_rfl⟩

theorem Grows.trans {s'' : Store} (h : Grows name s s') (h' : Grows name s' s'') :
    Grows name s s'' :=
  ⟨h.transitions.trans h'.transitions, h.breaches.trans h'.breaches, h.usage.trans h'.usage⟩

/-- An instance that is not registered has no records. -/
theorem Grows.of_none (h : s.instanceId name = none) : Grows name s s' := by
  refine ⟨?_, ?_, ?_⟩ <;> rw [h] <;> exact List.nil_prefix

theorem Grows.records (h : Grows name s s') (f : Family) :
    s.records name f <+: s'.records name f := by
  cases f with
  | transition => exact h.transitions.map _
  | breach => exact h.breaches.map _
  | usage => exact h.usage.map _

namespace Store

theorem instanceId_createInstance {id : ℕ} (h : s.instanceId name = some id)
    (other : InstanceName) : (s.createInstance other).instanceId name = some id := by
  obtain ⟨i, hfind, rfl⟩ := Option.map_eq_some_iff.1 h
  rw [instanceId, createInstance, List.find?_append, hfind]
  rfl

theorem instanceId_deleteInstance {other : InstanceName} (hother : name ≠ other) (id : ℕ) :
    (s.deleteInstance other id).instanceId name = s.instanceId name := by
  rw [instanceId, deleteInstance, List.find?_filter, instanceId]
  congr 2
  funext i
  by_cases hi : i.2 = name
  · simp [hi, hother]
  · simp [hi]

/-- Two instances have two ids. -/
theorem instanceId_ne {other : InstanceName} (hother : name ≠ other) {id : ℕ}
    (hid : s.instanceId other = some id) : s.instanceId name ≠ some id := by
  intro hname
  obtain ⟨i, hi, hiid⟩ := Option.map_eq_some_iff.1 hid
  obtain ⟨j, hj, hjid⟩ := Option.map_eq_some_iff.1 hname
  have hsame : j = i := List.inj_on_of_nodup_map s.nodup (List.mem_of_find?_eq_some hj)
    (List.mem_of_find?_eq_some hi) (hjid.trans hiid.symm)
  have hi' := List.find?_some hi
  have hj' := List.find?_some hj
  rw [hsame] at hj'
  simp only [decide_eq_true_eq] at hi' hj'
  exact hother (hj'.symm.trans hi')

end Store

/-- **The records of an instance only grow** while it is not removed, whatever is written. -/
theorem grows_apply (w : Write) (hkept : w ≠ .deleteInstance name) :
    Grows name s (s.apply w) := by
  cases w with
  | createInstance other =>
      simp only [Store.apply]
      cases hother : s.instanceId other with
      | some id => exact .refl name s
      | none =>
          cases hname : s.instanceId name with
          | none => exact .of_none hname
          | some id =>
              have hnow := Store.instanceId_createInstance hname other
              refine ⟨?_, ?_, ?_⟩ <;> rw [hname, hnow] <;> exact List.prefix_rfl
  | deleteInstance other =>
      have hne : name ≠ other := fun h => hkept (congrArg Write.deleteInstance h.symm)
      simp only [Store.apply]
      cases hother : s.instanceId other with
      | none => exact .refl name s
      | some id =>
          have hid := Store.instanceId_ne hne hother
          have hnow := Store.instanceId_deleteInstance (s := s) hne id
          refine ⟨?_, ?_, ?_⟩ <;> rw [hnow]
          · exact (EventTable.keyed_deleteInstance _ hid).symm ▸ List.prefix_rfl
          · exact (EventTable.keyed_deleteInstance _ hid).symm ▸ List.prefix_rfl
          · exact (EventTable.keyed_deleteInstance _ hid).symm ▸ List.prefix_rfl
  | appendTransition event =>
      simp only [Store.apply]
      cases s.instanceId event.instanceName with
      | none => exact .refl name s
      | some id => exact ⟨EventTable.keyed_insert _ _ _ _, List.prefix_rfl, List.prefix_rfl⟩
  | appendBreach event =>
      simp only [Store.apply]
      cases s.instanceId event.instanceName with
      | none => exact .refl name s
      | some id => exact ⟨List.prefix_rfl, EventTable.keyed_insert _ _ _ _, List.prefix_rfl⟩
  | insertUsage event generation =>
      simp only [Store.apply]
      cases s.instanceId event.instanceName with
      | none => exact .refl name s
      | some id =>
          dsimp only
          split
          · exact .refl name s
          · exact ⟨List.prefix_rfl, List.prefix_rfl, EventTable.keyed_insert _ _ _ _⟩

theorem grows_run (writes : List Write) (hkept : Write.deleteInstance name ∉ writes) :
    Grows name s (s.run writes) := by
  induction writes generalizing s with
  | nil => exact .refl name s
  | cons w writes ih =>
      rw [List.mem_cons, not_or] at hkept
      exact (grows_apply w (Ne.symm hkept.1)).trans (ih hkept.2)

/-! ### Paging -/

theorem page_eq (t : EventTable α) (id : Option ℕ) (after limit : ℕ) :
    t.page id after limit = Keyset.read (t.keyed id) after (clampPage limit) := by
  cases id with
  | some id => rfl
  | none =>
      have hpos := clampPage_pos limit
      rw [EventTable.page, EventTable.keyed, Keyset.read, Keyset.rowsAfter, List.filter_nil,
        List.take_nil, Keyset.Page.fromRows, List.length_nil, if_neg (by omega)]
      rfl

/-- The store as each page of a read finds it: before the `k`-th one, `pages k` was written. -/
def views (s : Store) (pages : List (List Write)) (k : ℕ) : Store :=
  s.run (pages.take (k + 1)).flatten

theorem run_append (s : Store) (writes more : List Write) :
    s.run (writes ++ more) = (s.run writes).run more :=
  List.foldl_append

section

variable {pages : List (List Write)} (hkept : Write.deleteInstance name ∉ pages.flatten)

include hkept

theorem grows_views (k : ℕ) : Grows name (views s pages k) (views s pages (k + 1)) := by
  unfold views
  by_cases hk : k + 1 < pages.length
  · rw [List.take_succ_eq_append_getElem hk, List.flatten_append, run_append]
    refine grows_run _ fun hmem => hkept ?_
    rw [List.flatten_singleton] at hmem
    exact List.mem_flatten_of_mem (List.getElem_mem hk) hmem
  · rw [List.take_of_length_le (by omega), List.take_of_length_le (by omega)]
    exact .refl name _

theorem grows_last (k : ℕ) : Grows name (views s pages k) (s.run pages.flatten) := by
  have hsplit : pages.flatten = (pages.take (k + 1)).flatten ++ (pages.drop (k + 1)).flatten := by
    rw [← List.flatten_append, List.take_append_drop]
  rw [hsplit, run_append]
  refine grows_run _ fun hmem => hkept ?_
  rw [hsplit]
  exact List.mem_append_right _ hmem

/-- **A paged read ends** with all rows that the last page saw. -/
theorem collect_pages (table : Store → EventTable α)
    (hgrows : ∀ s s', Grows name s s' →
      (table s).keyed (s.instanceId name) <+: (table s').keyed (s'.instanceId name))
    (limit : ℕ) {fuel : ℕ}
    (hfuel : ((table (s.run pages.flatten)).keyed
      ((s.run pages.flatten).instanceId name)).length < fuel) :
    ∃ m, Keyset.collect (fun k after =>
        (table (views s pages k)).page ((views s pages k).instanceId name) after limit)
        fuel 0 0 [] =
      some (((table (views s pages m)).keyed ((views s pages m).instanceId name)).map
        Prod.snd) := by
  simp only [page_eq]
  have hgrow : ∀ k, (table (views s pages k)).keyed ((views s pages k).instanceId name) <+:
      (table (views s pages (k + 1))).keyed ((views s pages (k + 1)).instanceId name) :=
    fun k => hgrows _ _ (grows_views hkept k)
  exact Keyset.collect_spec hgrow (fun k => EventTable.rising_keyed _ _)
    (fun k => EventTable.keyed_pos _ _) (clampPage_pos limit)
    (fun k => (hgrows _ _ (grows_last hkept k)).length_le) hfuel

end

theorem transitionEvents_eq (s : Store) (pages : List (List Write)) (limit : ℕ) {fuel : ℕ}
    (hkept : Write.deleteInstance name ∉ pages.flatten)
    (hfuel : ((s.run pages.flatten).records name .transition).length < fuel) :
    ∃ m items, transitionEvents fuel limit (views s pages) name = some items ∧
      items.map .transition = (views s pages m).records name .transition := by
  rw [Store.records, List.length_map] at hfuel
  obtain ⟨m, hm⟩ := collect_pages hkept Store.transitions (fun _ _ h => h.transitions) limit hfuel
  exact ⟨m, _, hm, List.map_map⟩

theorem breachEvents_eq (s : Store) (pages : List (List Write)) (limit : ℕ) {fuel : ℕ}
    (hkept : Write.deleteInstance name ∉ pages.flatten)
    (hfuel : ((s.run pages.flatten).records name .breach).length < fuel) :
    ∃ m items, breachEvents fuel limit (views s pages) name = some items ∧
      items.map .budgetBreach = (views s pages m).records name .breach := by
  rw [Store.records, List.length_map] at hfuel
  obtain ⟨m, hm⟩ := collect_pages hkept Store.breaches (fun _ _ h => h.breaches) limit hfuel
  exact ⟨m, _, hm, List.map_map⟩

theorem usageEvents_eq (s : Store) (name : InstanceName) :
    (s.usageEvents name).map .usageUpdate = s.records name .usage :=
  List.map_map

/-! ### One call -/

/-- What a call delivers: the records behind the cursor, family by family. -/
structure Delivered (s : Store) (name : InstanceName) (after : ResyncCursor) (b : ResyncBatch) :
    Prop where
  major : b.events = b.part .transition ++ b.part .breach ++ b.part .usage
  part : ∀ f, b.part f = (s.records name f).drop (after.pos f)
  cursor : ∀ f, b.cursor.pos f = (s.records name f).length

theorem filter_map_family {ε : Type} (wrap : ε → EngineEvent) (f g : Family)
    (hwrap : ∀ e, (wrap e).family = g) (l : List ε) :
    (l.map wrap).filter (fun e => e.family = f) = if g = f then l.map wrap else [] := by
  split
  · rename_i hg
    refine List.filter_eq_self.2 fun e he => ?_
    obtain ⟨x, -, rfl⟩ := List.mem_map.1 he
    exact decide_eq_true ((hwrap x).trans hg)
  · rename_i hg
    refine List.filter_eq_nil_iff.2 fun e he => ?_
    obtain ⟨x, -, rfl⟩ := List.mem_map.1 he
    rw [hwrap, decide_eq_true_eq]
    exact hg

theorem drop_min {β : Type} (l : List β) (n : ℕ) : l.drop (min n l.length) = l.drop n := by
  rcases Nat.le_total n l.length with h | h
  · rw [min_eq_left h]
  · rw [min_eq_right h, List.drop_length, List.drop_eq_nil_of_le h]

theorem delivered_assemble {transitions : List Transition} {breaches : List BudgetBreachEvent}
    (after : ResyncCursor) (htransitions : transitions.map .transition = s.records name .transition)
    (hbreaches : breaches.map .budgetBreach = s.records name .breach) :
    Delivered s name after (assemble transitions breaches (s.usageEvents name) after) := by
  have husage := usageEvents_eq s name
  generalize s.usageEvents name = usage at *
  have hpart : ∀ f, (assemble transitions breaches usage after).part f =
      (s.records name f).drop (after.pos f) := by
    intro f
    simp only [ResyncBatch.part, assemble, drop_min, List.filter_append]
    rw [filter_map_family .transition f .transition (fun _ => rfl),
      filter_map_family .budgetBreach f .breach (fun _ => rfl),
      filter_map_family .usageUpdate f .usage (fun _ => rfl)]
    cases f with
    | transition => simp [← htransitions, ResyncCursor.pos, List.map_drop]
    | breach => simp [← hbreaches, ResyncCursor.pos, List.map_drop]
    | usage => simp [← husage, ResyncCursor.pos, List.map_drop]
  refine ⟨?_, hpart, fun f => ?_⟩
  · rw [hpart, hpart, hpart, ← htransitions, ← hbreaches, ← husage]
    simp only [assemble, drop_min, List.map_drop, ResyncCursor.pos]
  · cases f with
    | transition => rw [← htransitions, List.length_map]; rfl
    | breach => rw [← hbreaches, List.length_map]; rfl
    | usage => rw [← husage, List.length_map]; rfl

/-- The cursor claims no more records than there are. -/
def Within (s : Store) (name : InstanceName) (after : ResyncCursor) : Prop :=
  ∀ f, after.pos f ≤ (s.records name f).length

/-- The guard of one family. -/
def rejectFamily (s : Store) (name : InstanceName) (path : String) (after : ResyncCursor)
    (f : Family) : Except EngineError Unit :=
  rejectTruncatedFamily name path f.text (after.pos f) (s.records name f).length

/-- The three guards of a call, in their order. -/
def rejectPast (s : Store) (name : InstanceName) (path : String) (after : ResyncCursor) :
    Except EngineError Unit := do
  rejectFamily s name path after .transition
  rejectFamily s name path after .breach
  rejectFamily s name path after .usage

/-- A call reads all records of its snapshot, and then it is guarded. -/
theorem readCommitted_eq (limit : ℕ) (path : String) (after : ResyncCursor) {fuel : ℕ}
    (hfuel : ∀ f, (s.records name f).length < fuel) :
    ∃ b, Delivered s name after b ∧ readCommitted fuel limit path s name after =
      some ((rejectPast s name path after).map fun _ => b) := by
  have hviews : views s [] = fun _ => s := rfl
  obtain ⟨m, transitions, hread, htransitions⟩ :=
    transitionEvents_eq s [] limit (by simp) (hfuel .transition)
  obtain ⟨m', breaches, hread', hbreaches⟩ :=
    breachEvents_eq s [] limit (by simp) (hfuel .breach)
  rw [hviews] at hread htransitions hread' hbreaches
  refine ⟨_, delivered_assemble after htransitions hbreaches, ?_⟩
  have hlengths : transitions.length = (s.records name .transition).length ∧
      breaches.length = (s.records name .breach).length ∧
      (s.usageEvents name).length = (s.records name .usage).length := by
    rw [← htransitions, ← hbreaches, ← usageEvents_eq, List.length_map, List.length_map,
      List.length_map]
    exact ⟨rfl, rfl, rfl⟩
  unfold readCommitted rejectPast rejectFamily
  rw [hread, hread']
  simp only [Option.bind_eq_bind, Option.bind_some, hlengths]
  refine congrArg some ?_
  simp only [Family.text, ResyncCursor.pos]
  cases rejectTruncatedFamily name path "transition" _ _ with
  | error e => rfl
  | ok _ =>
      cases rejectTruncatedFamily name path "breach" _ _ with
      | error e => rfl
      | ok _ =>
          cases rejectTruncatedFamily name path "usage-ledger" _ _ with
          | error e => rfl
          | ok _ => rfl

theorem rejectFamily_within (path : String) {after : ResyncCursor} {f : Family}
    (hf : after.pos f ≤ (s.records name f).length) :
    rejectFamily s name path after f = .ok () :=
  if_neg (Nat.not_lt.2 hf)

theorem rejectFamily_past (path : String) {after : ResyncCursor} {f : Family}
    (hf : (s.records name f).length < after.pos f) :
    rejectFamily s name path after f = .error (.log name path
      (truncatedDetail f.text (after.pos f) (s.records name f).length)) :=
  if_pos hf

theorem rejectPast_within (path : String) {after : ResyncCursor} (hwithin : Within s name after) :
    rejectPast s name path after = .ok () := by
  rw [rejectPast, rejectFamily_within path (hwithin .transition),
    rejectFamily_within path (hwithin .breach), rejectFamily_within path (hwithin .usage)]
  rfl

/-- The first family the cursor is past is named. -/
theorem rejectPast_past (path : String) {after : ResyncCursor} (hpast : ¬ Within s name after) :
    ∃ f, (s.records name f).length < after.pos f ∧
      rejectPast s name path after = .error (.log name path
        (truncatedDetail f.text (after.pos f) (s.records name f).length)) := by
  rcases Nat.lt_or_ge (s.records name .transition).length (after.pos .transition) with ht | ht
  · exact ⟨.transition, ht, by rw [rejectPast, rejectFamily_past path ht]; rfl⟩
  rcases Nat.lt_or_ge (s.records name .breach).length (after.pos .breach) with hb | hb
  · refine ⟨.breach, hb, ?_⟩
    rw [rejectPast, rejectFamily_within path ht, rejectFamily_past path hb]
    rfl
  rcases Nat.lt_or_ge (s.records name .usage).length (after.pos .usage) with hu | hu
  · refine ⟨.usage, hu, ?_⟩
    rw [rejectPast, rejectFamily_within path ht, rejectFamily_within path hb,
      rejectFamily_past path hu]
    rfl
  · refine absurd (fun f => ?_) hpast
    cases f with
    | transition => exact ht
    | breach => exact hb
    | usage => exact hu

/-- A call with a cursor that is not past the records delivers what is behind it. -/
theorem readCommitted_ok (limit : ℕ) (path : String) {after : ResyncCursor} {fuel : ℕ}
    (hfuel : ∀ f, (s.records name f).length < fuel) (hwithin : Within s name after) :
    ∃ b, Delivered s name after b ∧ readCommitted fuel limit path s name after = some (.ok b) := by
  obtain ⟨b, hdelivered, hread⟩ := readCommitted_eq limit path after hfuel
  refine ⟨b, hdelivered, ?_⟩
  rw [hread, rejectPast_within path hwithin]
  rfl

/-- A call with a cursor past the records of a family fails, and it names the family. -/
theorem readCommitted_error (limit : ℕ) (path : String) {after : ResyncCursor} {fuel : ℕ}
    (hfuel : ∀ f, (s.records name f).length < fuel) (hpast : ¬ Within s name after) :
    ∃ f, (s.records name f).length < after.pos f ∧
      readCommitted fuel limit path s name after = some (.error (.log name path
        (truncatedDetail f.text (after.pos f) (s.records name f).length))) := by
  obtain ⟨b, -, hread⟩ := readCommitted_eq limit path after hfuel
  obtain ⟨f, hf, herror⟩ := rejectPast_past path hpast
  refine ⟨f, hf, ?_⟩
  rw [hread, herror]
  rfl

/-! ### A chain of calls -/

/-- What a chain of calls delivers: each batch family by family, and in each family the records
behind the first cursor, as the last call found them. -/
structure Enumerated (last : Store) (name : InstanceName) (after : ResyncCursor)
    (batches : List ResyncBatch) : Prop where
  major : ∀ b ∈ batches, b.events = b.part .transition ++ b.part .breach ++ b.part .usage
  records : ∀ f, batches.flatMap (fun b => b.part f) = (last.records name f).drop (after.pos f)

theorem Delivered.enumerated {after : ResyncCursor} {b : ResyncBatch}
    (h : Delivered s name after b) : Enumerated s name after [b] where
  major := by
    intro b' hb'
    rw [List.mem_singleton.1 hb']
    exact h.major
  records := by
    intro f
    rw [List.flatMap_singleton]
    exact h.part f

/-- The later calls go on where a call left off. -/
theorem Delivered.cons {after : ResyncCursor} {b : ResyncBatch} {batches : List ResyncBatch}
    (h : Delivered s name after b) (hwithin : Within s name after) (hgrows : Grows name s s')
    (hlater : Enumerated s' name b.cursor batches) : Enumerated s' name after (b :: batches) where
  major := by
    intro b' hb'
    rcases List.mem_cons.1 hb' with rfl | hb'
    · exact h.major
    · exact hlater.major b' hb'
  records := by
    intro f
    obtain ⟨new, hnew⟩ := hgrows.records f
    rw [List.flatMap_cons, hlater.records, h.part, h.cursor, ← hnew, List.drop_left,
      List.drop_append_of_le_length (hwithin f)]

/-- **A chain of calls**, by induction on the calls that follow: the cursor of a batch is not past
the records that the next call finds. -/
theorem readChain_ok (limit : ℕ) (path : String) {fuel : ℕ} (first : List Write)
    (rest : List (List Write)) {after : ResyncCursor}
    (hkept : Write.deleteInstance name ∉ (first :: rest).flatten)
    (hfuel : ∀ f, ((s.run (first :: rest).flatten).records name f).length < fuel)
    (hwithin : Within (s.run first) name after) :
    ∃ batches, readChain fuel limit path name s after (first :: rest) = some (.ok batches) ∧
      batches.length = rest.length + 1 ∧
      Enumerated (s.run (first :: rest).flatten) name after batches := by
  rw [List.flatten_cons, run_append] at hfuel ⊢
  rw [List.flatten_cons, List.mem_append, not_or] at hkept
  have hgrows : Grows name (s.run first) ((s.run first).run rest.flatten) := grows_run _ hkept.2
  have hfuel' : ∀ f, ((s.run first).records name f).length < fuel := fun f =>
    lt_of_le_of_lt (hgrows.records f).length_le (hfuel f)
  obtain ⟨b, hb, hread⟩ := readCommitted_ok limit path hfuel' hwithin
  induction rest generalizing s first after b with
  | nil =>
      refine ⟨[b], ?_, rfl, hb.enumerated⟩
      rw [readChain, hread]
      rfl
  | cons writes rest ih =>
      have hkept' := hkept.2
      rw [List.flatten_cons, List.mem_append, not_or] at hkept'
      rw [List.flatten_cons, run_append] at hfuel hgrows ⊢
      have hwithin' : Within ((s.run first).run writes) name b.cursor := by
        intro f
        rw [hb.cursor]
        exact ((grows_run writes hkept'.1).records f).length_le
      have hgrows' : Grows name ((s.run first).run writes)
          (((s.run first).run writes).run rest.flatten) := grows_run _ hkept'.2
      have hfuel'' : ∀ f, (((s.run first).run writes).records name f).length < fuel := fun f =>
        lt_of_le_of_lt (hgrows'.records f).length_le (hfuel f)
      obtain ⟨b', hb', hread'⟩ := readCommitted_ok limit path hfuel'' hwithin'
      obtain ⟨batches, hchain, hlength, hlater⟩ :=
        ih writes hkept' hfuel hwithin' hgrows' hfuel'' b' hb' hread'
      refine ⟨b :: batches, ?_, by rw [List.length_cons, hlength, List.length_cons],
        hb.cons hwithin hgrows hlater⟩
      rw [readChain, hread]
      simp only [hchain, Option.map_some]
      rfl

/-- A chain that begins with a cursor past the records of a family fails. -/
theorem readChain_error (limit : ℕ) (path : String) {fuel : ℕ} (first : List Write)
    (rest : List (List Write)) {after : ResyncCursor}
    (hfuel : ∀ f, ((s.run first).records name f).length < fuel)
    (hpast : ¬ Within (s.run first) name after) :
    ∃ f, ((s.run first).records name f).length < after.pos f ∧
      readChain fuel limit path name s after (first :: rest) = some (.error (.log name path
        (truncatedDetail f.text (after.pos f) ((s.run first).records name f).length))) := by
  obtain ⟨f, hf, hread⟩ := readCommitted_error limit path hfuel hpast
  exact ⟨f, hf, by rw [readChain, hread]⟩

/-- **Resync delivers each record once.**  Take any store and any writes to it that do not remove
the instance, some before each call of a chain (or before each page of a paged read), any page size
and any cursor to begin with.

* If the cursor is not past the records, all calls succeed, each batch is family by family, and in
  each family the batches together are the records behind the cursor, in the order they were
  committed: those that were there when the chain began, and those appended up to the last call.
* If it is past the records of a family, the chain fails with an error that names such a family.
* The paged reads end, with all the rows that their last page saw. -/
theorem resync_enumerates (limit : ℕ) (path : String) (name : InstanceName) (s : Store)
    (after : ResyncCursor) (first : List Write) (rest : List (List Write))
    (hkept : Write.deleteInstance name ∉ (first :: rest).flatten) :
    ∃ enough, ∀ fuel, enough ≤ fuel →
      (Within (s.run first) name after →
        ∃ batches, readChain fuel limit path name s after (first :: rest) = some (.ok batches) ∧
          batches.length = rest.length + 1 ∧
          (∀ b ∈ batches, b.events = b.part .transition ++ b.part .breach ++ b.part .usage) ∧
          ∀ f, batches.flatMap (fun b => b.part f) =
              ((s.run (first :: rest).flatten).records name f).drop (after.pos f) ∧
            s.records name f <+: (s.run (first :: rest).flatten).records name f) ∧
      (¬ Within (s.run first) name after →
        ∃ f, ((s.run first).records name f).length < after.pos f ∧
          readChain fuel limit path name s after (first :: rest) = some (.error (.log name path
            (truncatedDetail f.text (after.pos f) ((s.run first).records name f).length)))) ∧
      (∃ m items, transitionEvents fuel limit (views s (first :: rest)) name = some items ∧
        items.map .transition = (views s (first :: rest) m).records name .transition) ∧
      ∃ m items, breachEvents fuel limit (views s (first :: rest)) name = some items ∧
        items.map .budgetBreach = (views s (first :: rest) m).records name .breach := by
  let last := s.run (first :: rest).flatten
  refine ⟨(last.records name .transition).length + (last.records name .breach).length +
    (last.records name .usage).length + 1, fun fuel henough => ?_⟩
  have hfuel : ∀ f, (last.records name f).length < fuel := by
    intro f
    cases f <;> omega
  have hgrows : Grows name (s.run first) last := by
    have hrest : Write.deleteInstance name ∉ rest.flatten := fun hmem =>
      hkept (by rw [List.flatten_cons]; exact List.mem_append_right _ hmem)
    have h := grows_run (s := s.run first) _ hrest
    rwa [← run_append] at h
  refine ⟨fun hwithin => ?_, fun hpast => ?_, ?_, ?_⟩
  · obtain ⟨batches, hchain, hlength, henum⟩ :=
      readChain_ok limit path first rest hkept hfuel hwithin
    exact ⟨batches, hchain, hlength, henum.major,
      fun f => ⟨henum.records f, (grows_run _ hkept).records f⟩⟩
  · exact readChain_error limit path first rest
      (fun f => lt_of_le_of_lt (hgrows.records f).length_le (hfuel f)) hpast
  · exact transitionEvents_eq s _ limit hkept (hfuel .transition)
  · exact breachEvents_eq s _ limit hkept (hfuel .breach)

/-- Two calls with a breach appended before the first and a usage event before the second. -/
theorem resync_enumerates_twice :
    ∃ enough, ∀ fuel, enough ≤ fuel → ∃ batches,
      readChain fuel pageMax "state.db" "a" (Store.empty.createInstance "a") .start
        [[.appendBreach ⟨"a", 1, .tokens, .cumulative, 9, 10, .pause, "self-reported", "now"⟩],
          [.insertUsage ⟨"a", 1, 10, 20, none, "self-reported", "now", 1⟩ 1]] =
        some (.ok batches) ∧ batches.length = 2 := by
  obtain ⟨enough, h⟩ := resync_enumerates pageMax "state.db" "a"
    (Store.empty.createInstance "a") .start
    [.appendBreach ⟨"a", 1, .tokens, .cumulative, 9, 10, .pause, "self-reported", "now"⟩]
    [[.insertUsage ⟨"a", 1, 10, 20, none, "self-reported", "now", 1⟩ 1]] (by decide)
  refine ⟨enough, fun fuel hfuel => ?_⟩
  have hwithin : Within ((Store.empty.createInstance "a").run
      [.appendBreach ⟨"a", 1, .tokens, .cumulative, 9, 10, .pause, "self-reported", "now"⟩])
      "a" .start := by
    intro f
    cases f <;> exact Nat.zero_le _
  obtain ⟨batches, hchain, hlength, -⟩ := (h fuel hfuel).1 hwithin
  exact ⟨batches, hchain, hlength⟩

end Resync

end Hekma
