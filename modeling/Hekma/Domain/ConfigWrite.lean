/-
**Writing a configuration key, and reading it back.**

A value is validated before anything is written: the key by its namespace, and the value of a budget
or cost key by the parser that reads it later.  What is accepted is stored as text in the table of
the instance, and the ceilings and prices are read from the resolved configuration whenever they are
enforced.

Main definitions:

* `validateWrite` — the check of a key and its value;
* `setDotted`, `setConfig` — the value in the instance's table, and the table in its file;
* `effectiveConfig` — the configuration of an instance;
* `resolveTokenBudget`, `resolveCost` — the ceilings, the prices and the Breach Action;
* `Setting` — a budget or cost key, with the quantity that is validated and the one that is read.

Main results:

* `leafAt_setDotted` — a write changes this one leaf and what stands in its way;
* `get_setConfig` — a written value is the resolved value of its key;
* `validated_readBack` — and is read as the quantity that was validated.
-/

import Hekma.Domain.Config
import Hekma.Domain.ConfigValue

set_option relaxedAutoImplicit false
set_option autoImplicit false

namespace Hekma

/-! ### Keys -/

def budgetTokensPerRunKey : String := "budget.tokens.per_run"
def budgetTokensCumulativeKey : String := "budget.tokens.cumulative"
def budgetBreachActionKey : String := "budget.breach_action"
def costRateInputKey : String := "cost.rate.input"
def costRateOutputKey : String := "cost.rate.output"
def costRateCachedKey : String := "cost.rate.cached"
def budgetDollarsPerRunKey : String := "budget.dollars.per_run"
def budgetDollarsCumulativeKey : String := "budget.dollars.cumulative"
def meteringUpstreamBaseUrlKey : String := "metering.upstream_base_url"
def meteringBaseUrlKey : String := "metering.base_url"
def memoryDirKey : String := "memory.dir"
def acpCommandKey : String := "acp.command"
def acpArgsKey : String := "acp.args"

/-- The keys that may be written. -/
def knownKeys : List String :=
  ["model", budgetTokensPerRunKey, budgetTokensCumulativeKey, budgetBreachActionKey,
    costRateInputKey, costRateOutputKey, costRateCachedKey, budgetDollarsPerRunKey,
    budgetDollarsCumulativeKey, meteringUpstreamBaseUrlKey, meteringBaseUrlKey, memoryDirKey,
    acpCommandKey, acpArgsKey]

/-- The namespace that is passed through to the agent. -/
def passThroughNamespace : String := "agent."

/-- The namespace of the labels. -/
def labelsNamespace : String := "labels."

/-- How the value of a secret starts. -/
def secretMark : String := "secret:"

/-- What follows the given start of a text. -/
def afterStart (start s : String) : Option String :=
  if start.toList.isPrefixOf s.toList then
    some (String.ofList (s.toList.drop start.toList.length))
  else none

def isPassThrough (key : String) : Bool :=
  match afterStart passThroughNamespace key with
  | some rest => !rest.isEmpty
  | none => false

def isSecretRef (value : String) : Bool :=
  match afterStart secretMark value with
  | some name => !name.isEmpty
  | none => false

/-- The segments of a dotted key. -/
def segments (key : String) : List String := (key.toList.splitOn '.').map String.ofList

def hasEmptySegment (key : String) : Bool := (segments key).any (·.isEmpty)

/-! ### The nearest known key -/

/-- The largest distance of a key that is suggested. -/
def suggestionMaxDistance : ℕ := 3

/-- The next row of the table of distances, after the entry on its left. -/
def nextRow (ca : Char) : List Char → List ℕ → ℕ → List ℕ
  | cb :: b, diagonal :: above :: row, left =>
      let entry := min (min (above + 1) (left + 1)) (diagonal + if ca ≠ cb then 1 else 0)
      entry :: nextRow ca b (above :: row) entry
  | _, _, _ => []

/-- The rows of the table of distances, from the given one to the last. -/
def lastRow (b : List Char) : List Char → ℕ → List ℕ → List ℕ
  | [], _, row => row
  | ca :: a, i, row => lastRow b a (i + 1) ((i + 1) :: nextRow ca b row (i + 1))

/-- The edit distance of two keys. -/
def levenshtein (a b : String) : ℕ :=
  if a.isEmpty then b.length
  else if b.isEmpty then a.length
  else (lastRow b.toList a.toList 0 (List.range (b.length + 1))).getLastD 0

/-- The first of two candidates by their distances, then by the keys. -/
def nearer (c d : ℕ × String) : ℕ × String :=
  if c.1 < d.1 ∨ (c.1 = d.1 ∧ c.2 ≤ d.2) then c else d

def nearestKnownKey (key : String) : Option String :=
  let near := (knownKeys.map fun c => (levenshtein key c, c)).filter (·.1 ≤ suggestionMaxDistance)
  match near with
  | [] => none
  | c :: cs => some (cs.foldl nearer c).2

/-! ### The check of a write -/

/-- Why an operation on the configuration fails. -/
inductive ConfigError where
  | unknownKey (key : String) (suggestion : Option String)
  | writeShapeConflict (key conflictingAncestor : String)
  | invalidValue (key value reason : String)
  | malformedLayer (layer : SourceLayer) (path detail : String)
  | notFound (name : String)
  | store (name detail : String)
  deriving DecidableEq, Repr

def validateBudgetValue (key value : String) : Except ConfigError Unit :=
  if key = budgetTokensPerRunKey ∨ key = budgetTokensCumulativeKey then
    match parseU64 (trimmed value.toList) with
    | some _ => .ok ()
    | none =>
        .error (.invalidValue key value "expected a non-negative whole number of tokens (u64)")
  else if key = budgetBreachActionKey then
    match BreachAction.fromStr (trim value) with
    | .ok _ => .ok ()
    | .error rejected =>
        .error (.invalidValue key value
          (s!"'{rejected}' is not a valid breach action " ++
            "(expected one of: pause, stop, warn, block)"))
  else .ok ()

/-- The keys whose values are amounts of dollars. -/
def dollarKeys : List String :=
  [costRateInputKey, costRateOutputKey, costRateCachedKey, budgetDollarsPerRunKey,
    budgetDollarsCumulativeKey]

def validateCostValue (key value : String) : Except ConfigError Unit :=
  if key ∈ dollarKeys then
    match parseDollarsToMicros value with
    | .ok _ => .ok ()
    | .error reason => .error (.invalidValue key value reason)
  else .ok ()

/-- Why a label is refused.  The namespace is taken off a second time if it stands there. -/
def validateLabelWrite (labelKey value : String) : Option String :=
  match validateLabelKey ((afterStart labelsNamespace labelKey).getD labelKey) with
  | some reason => some reason
  | none => validateLabelValue value

/-- The check of a key and its value, before anything is written. -/
def validateWrite (key value : String) : Except ConfigError Unit :=
  if hasEmptySegment key then .error (.unknownKey key none)
  else
    match afterStart labelsNamespace key with
    | some labelKey =>
        match validateLabelWrite labelKey value with
        | some reason => .error (.invalidValue key value reason)
        | none => .ok ()
    | none =>
        if key ∈ knownKeys then
          match validateBudgetValue key value with
          | .error e => .error e
          | .ok () => validateCostValue key value
        else if isPassThrough key then .ok ()
        else .error (.unknownKey key (nearestKnownKey key))

/-! ### The value in the table of the instance -/

/-- A value of TOML that is no table: the readers tell text and whole numbers from the rest. -/
inductive Scalar where
  | string (s : String)
  | integer (i : ℤ)
  | other
  deriving DecidableEq, Repr

/-- The value set at the segments of a key.  A leaf on the way is an error: it is not replaced by a
table.  `walked` names the way so far. -/
def setDotted (key : String) (value : Scalar) :
    List String → String → KeyTree String Scalar → Except ConfigError (KeyTree String Scalar)
  | [], _, table => .ok table
  | [segment], _, table => .ok (table.set segment (.leaf value))
  | segment :: rest, walked, table =>
      let walked := if walked.isEmpty then segment else walked ++ "." ++ segment
      match table.get? segment with
      | some (.leaf _) => .error (.writeShapeConflict key walked)
      | _ =>
          match setDotted key value rest walked (slotChildren table segment) with
          | .ok child => .ok (table.set segment (.sub child))
          | .error e => .error e

section SetDotted

variable {key walked : String} {value v : Scalar} {path segs : List String}
  {table written : KeyTree String Scalar}

theorem unrelated_cons {k : String} {p q : List String} :
    Unrelated (k :: p) (k :: q) ↔ Unrelated p q := by
  simp [Unrelated]

theorem unrelated_cons_of_ne {k k' : String} {p q : List String} (h : k ≠ k') :
    Unrelated (k :: p) (k' :: q) :=
  ⟨fun hp => h (List.cons_prefix_cons.1 hp).1, fun hp => h (List.cons_prefix_cons.1 hp).1.symm⟩

/-- What is below a key in a table that has no leaf at the key. -/
theorem leafAt_slot {k : String} (h : ∀ a, table.get? k ≠ some (.leaf a)) :
    table.leafAt (k :: path) = (slotChildren table k).leafAt path := by
  rw [slotChildren]
  cases hget : table.get? k with
  | none =>
      rw [KeyTree.leafAt_cons_of_none hget]
      cases path <;> rfl
  | some e =>
      cases e with
      | leaf a => exact absurd hget (h a)
      | sub child => exact KeyTree.leafAt_cons_of_sub hget

/-- One more segment of a written key. -/
theorem setDotted_cons {segment next : String}
    (h : setDotted key value (segment :: next :: segs) walked table = .ok written) :
    ∃ walked' child, (∀ a, table.get? segment ≠ some (.leaf a)) ∧
      setDotted key value (next :: segs) walked' (slotChildren table segment) = .ok child ∧
      written = table.set segment (.sub child) := by
  rw [setDotted] at h
  · split at h
    · cases h
    · next hleaf =>
        split at h
        · next child hchild =>
            cases h
            exact ⟨_, child, hleaf, hchild, rfl⟩
        · cases h
  · exact fun hnil => by cases hnil

/-- **A write changes this one leaf**, and removes what stands above or below it. -/
theorem leafAt_setDotted (h : setDotted key value segs walked table = .ok written)
    (hne : segs ≠ []) :
    written.leafAt path = some v ↔
      (path = segs ∧ v = value) ∨ (Unrelated path segs ∧ table.leafAt path = some v) := by
  induction segs generalizing walked table written path with
  | nil => exact absurd rfl hne
  | cons segment segs ih =>
      cases path with
      | nil => simp [KeyTree.leafAt]
      | cons k path =>
          cases segs with
          | nil =>
              cases h
              by_cases hkey : segment = k
              · subst hkey
                have hget : (table.set segment (.leaf value)).get? segment = some (.leaf value) := by
                  rw [KeyTree.get?_set, if_pos rfl]
                rw [KeyTree.leafAt_cons_of_leaf hget]
                by_cases hpath : path = []
                · simp [hpath, Unrelated, eq_comm]
                · simp [hpath, Unrelated]
              · have hget : (table.set segment (.leaf value)).get? k = table.get? k := by
                  rw [KeyTree.get?_set, if_neg hkey]
                rw [KeyTree.leafAt_congr hget, or_iff_right fun h => hkey (List.cons.inj h.1).1.symm,
                  and_iff_right (unrelated_cons_of_ne (Ne.symm hkey))]
          | cons next segs =>
              obtain ⟨walked', child, hslot, hchild, rfl⟩ := setDotted_cons h
              by_cases hkey : segment = k
              · subst hkey
                have hget : (table.set segment (.sub child)).get? segment = some (.sub child) := by
                  rw [KeyTree.get?_set, if_pos rfl]
                rw [KeyTree.leafAt_cons_of_sub hget, ih hchild (List.cons_ne_nil _ _),
                  leafAt_slot hslot, unrelated_cons, List.cons.injEq, and_iff_right rfl]
              · have hget : (table.set segment (.sub child)).get? k = table.get? k := by
                  rw [KeyTree.get?_set, if_neg hkey]
                rw [KeyTree.leafAt_congr hget, or_iff_right fun h => hkey (List.cons.inj h.1).1.symm,
                  and_iff_right (unrelated_cons_of_ne (Ne.symm hkey))]

theorem distinct_slotChildren {β : Type*} {t : KeyTree String β} (h : t.Distinct) (k : String) :
    (slotChildren t k).Distinct := by
  rw [slotChildren]
  split
  · next slot hget => exact h.entry hget
  · trivial

theorem distinct_setDotted (h : setDotted key value segs walked table = .ok written)
    (hdistinct : table.Distinct) : written.Distinct := by
  induction segs generalizing walked table written with
  | nil =>
      cases h
      exact hdistinct
  | cons segment segs ih =>
      cases segs with
      | nil =>
          cases h
          exact KeyTree.distinct_set hdistinct trivial
      | cons next segs =>
          obtain ⟨walked', child, -, hchild, rfl⟩ := setDotted_cons h
          exact KeyTree.distinct_set hdistinct (ih hchild (distinct_slotChildren hdistinct segment))

end SetDotted

/-! ### The table in its file -/

/-- The parser and the printer of TOML, which are not part of this program. -/
structure TomlCrate where
  parse : String → Except String (ConfigLayer Scalar)
  toStringPretty : KeyTree String Scalar → Except String String

/-- A printed table is parsed back, in whatever order its entries are printed. -/
def TomlCrate.RoundTrips (toml : TomlCrate) : Prop :=
  ∀ table text, table.Distinct → toml.toStringPretty table = .ok text →
    ∃ layer, toml.parse text = .ok layer ∧ ∀ path, layer.table.leafAt path = table.leafAt path

/-- What the operations on the configuration of an instance find. -/
structure ConfigWorld where
  name : String
  path : String
  /-- Whether the store has the instance, or why it cannot be asked. -/
  registered : Except String Bool
  /-- Where the usage of the instance is metered, or why it cannot be told. -/
  meteringSource : Except String String
  /-- The warnings about a secret that the adapter would pass as a flag. -/
  secretFlagSteering : String → String → List String
  /-- Whether the lock of the file is acquired. -/
  lock : Except String Unit
  /-- The file, if there is one: its text, or why it cannot be read. -/
  file : Option (Except String String)
  /-- Whether the file can be replaced. -/
  writable : Except String Unit

namespace ConfigWorld

variable (toml : TomlCrate) (w : ConfigWorld)

def requireInstance : Except ConfigError Unit :=
  match w.registered with
  | .ok true => .ok ()
  | .ok false => .error (.notFound w.name)
  | .error detail => .error (.store w.name detail)

def instanceConfigLayer : Except ConfigError (ConfigLayer Scalar) :=
  match w.file with
  | none => .ok ⟨.nil, trivial⟩
  | some (.error e) =>
      .error (.malformedLayer .instanceConfig w.path s!"could not read the instance config: {e}")
  | some (.ok text) =>
      match toml.parse text with
      | .ok layer => .ok layer
      | .error detail => .error (.malformedLayer .instanceConfig w.path detail)

/-- The action `block` needs the listener of an instance whose usage the engine observes. -/
def refuseBlockWithoutListener (key value : String) : Except ConfigError Unit :=
  if key ≠ budgetBreachActionKey ∨ BreachAction.fromStr (trim value) ≠ .ok .block then .ok ()
  else
    match w.meteringSource with
    | .ok source =>
        if source = "engine-observed" then .ok ()
        else .error (.invalidValue key value
          ("`block` fences model calls at the engine-observed metering listener, and this " ++
            s!"instance meters via `{source}` (no listener) — choose pause, stop or warn, or " ++
            "move the instance to engine-observed metering (set " ++
            "`metering.upstream_base_url` where the adapter supports it)"))
    | .error err => .error (.invalidValue key value
        ("`block` needs the engine-observed metering listener, and this instance's " ++
          s!"metering source could not be read ({err}) — fix the instance's registration " ++
          "snapshot, or choose pause, stop or warn"))

/-- The lock of the file for the write. -/
def acquireConfigWriteLock : Except ConfigError Unit :=
  match w.lock with
  | .ok () => .ok ()
  | .error detail => .error (.store w.name detail)

/-- The table printed. -/
def serialize (table : KeyTree String Scalar) : Except ConfigError String :=
  match toml.toStringPretty table with
  | .ok text => .ok text
  | .error e => .error (.malformedLayer .instanceConfig w.path
      s!"could not serialize the updated instance config: {e}")

/-- The file replaced as a whole. -/
def writeAtomically (text : String) : Except ConfigError ConfigWorld :=
  match w.writable with
  | .ok () => .ok { w with file := some (.ok text) }
  | .error source => .error (.malformedLayer .instanceConfig w.path
      s!"could not write the instance config: {source}")

/-- A key set in the configuration of the instance; the warnings do not refuse it. -/
def setConfig (key value : String) : Except ConfigError (ConfigWorld × List String) := do
  w.requireInstance
  validateWrite key value
  w.refuseBlockWithoutListener key value
  let warnings := w.secretFlagSteering key value
  w.acquireConfigWriteLock
  let layer ← w.instanceConfigLayer toml
  let table ← setDotted key (.string value) (segments key) "" layer.table
  let text ← w.serialize toml table
  let written ← w.writeAtomically text
  return (written, warnings)

/-- The layers of an instance.  The engine ships no defaults and neither does any kind. -/
def layersOf (inst overrides : ConfigLayer Scalar) : SourceLayer → ConfigLayer Scalar
  | .engineDefault => ⟨.nil, trivial⟩
  | .kindDefault => ⟨.nil, trivial⟩
  | .instanceConfig => inst
  | .invocationOverride => overrides

/-- The key that names the instance in its file. -/
def reservedIdentityKey : String := "name"

/-- The configuration of the instance, without the key that names it. -/
def effectiveConfig (overrides : ConfigLayer Scalar) :
    Except ConfigError (EffectiveConfig Scalar) := do
  w.requireInstance
  let layer ← w.instanceConfigLayer toml
  return ⟨(resolve (layersOf layer overrides)).leaves.erase reservedIdentityKey⟩

end ConfigWorld

/-! ### What is read -/

/-- The winning value of a key. -/
def EffectiveConfig.valueOf {α : Type*} (c : EffectiveConfig α) (key : String) : Option α :=
  (c.get key).map ResolvedValue.value

/-- The ceiling of a leaf: a whole number that is not negative, as a number or as text. -/
def budgetU64 (effective : EffectiveConfig Scalar) (key : String) : Option ℕ :=
  match effective.valueOf key with
  | some (.integer i) => if 0 ≤ i then some i.toNat else none
  | some (.string s) => parseU64 (trimmed s.toList)
  | _ => none

/-- The configured action, or the default. -/
def breachActionOf (effective : EffectiveConfig Scalar) : BreachAction :=
  match effective.valueOf budgetBreachActionKey with
  | some (.string s) =>
      match BreachAction.fromStr (trim s) with
      | .ok action => action
      | .error _ => default
  | _ => default

def resolveTokenBudget (effective : EffectiveConfig Scalar) : TokenBudget × BreachAction :=
  (⟨budgetU64 effective budgetTokensPerRunKey, budgetU64 effective budgetTokensCumulativeKey⟩,
    breachActionOf effective)

/-- The amount of a leaf: text, or a number of whole dollars. -/
def costMicrosLeaf (effective : EffectiveConfig Scalar) (key : String) : Option Micros :=
  match effective.valueOf key with
  | some (.string s) =>
      if isSecretRef s then none
      else
        match parseDollarsToMicros s with
        | .ok m => some m
        | .error _ => none
  | some (.integer i) =>
      if h : 0 ≤ i ∧ i * microsPerDollar ≤ i64Max then
        some ⟨i * microsPerDollar, le_trans (by decide) (mul_nonneg h.1 (by decide)), h.2⟩
      else none
  | _ => none

/-- The amount as a price. -/
def microsToU64 (m : Micros) : ℕ := m.val.toNat

/-- The prices, which need both directions, the ceilings and the action. -/
def resolveCost (effective : EffectiveConfig Scalar) : Option Rate × CostCap × BreachAction :=
  let input := costMicrosLeaf effective costRateInputKey
  let output := costMicrosLeaf effective costRateOutputKey
  let cached := costMicrosLeaf effective costRateCachedKey
  let rate := match input, output with
    | some i, some o => some ⟨microsToU64 i, microsToU64 o, cached.map microsToU64⟩
    | _, _ => none
  (rate, ⟨costMicrosLeaf effective budgetDollarsPerRunKey,
    costMicrosLeaf effective budgetDollarsCumulativeKey⟩, breachActionOf effective)

/-! ### A written value is the resolved value of its key -/

section Written

variable {toml : TomlCrate} {w w' : ConfigWorld} {key value : String} {warnings : List String}

theorem ok_of_bind {ε α β : Type} {x : Except ε α} {f : α → Except ε β} {b : β}
    (h : x >>= f = .ok b) : ∃ a, x = .ok a ∧ f a = .ok b := by
  cases x with
  | error e => cases h
  | ok a => exact ⟨a, rfl, h⟩

theorem not_mem_of_mem_splitOn {cs l : List Char} {c : Char} (h : l ∈ cs.splitOn c) : c ∉ l := by
  induction cs generalizing l with
  | nil =>
      rw [List.splitOn_nil, List.mem_singleton] at h
      rw [h]
      exact List.not_mem_nil
  | cons x cs ih =>
      rw [List.splitOn_cons_eq_if_modifyHead] at h
      split_ifs at h with hx
      · rcases List.mem_cons.1 h with rfl | h
        · exact List.not_mem_nil
        · exact ih h
      · obtain ⟨head, tail, hsplit⟩ := List.exists_cons_of_ne_nil (List.splitOn_ne_nil c cs)
        rw [hsplit, List.modifyHead_cons] at h
        rcases List.mem_cons.1 h with rfl | h
        · have hhead : c ∉ head := ih (hsplit ▸ List.mem_cons_self)
          rw [List.mem_cons, not_or]
          exact ⟨fun heq => hx (by simp [heq]), hhead⟩
        · exact ih (hsplit ▸ List.mem_cons_of_mem head h)

theorem plain_segments (h : hasEmptySegment key = false) : Plain (segments key) := by
  intro s hs
  rw [hasEmptySegment, List.any_eq_false] at h
  refine ⟨fun hempty => h s hs (by simp [hempty]), ?_⟩
  obtain ⟨l, hl, rfl⟩ := List.mem_map.1 hs
  rw [String.toList_ofList]
  exact not_mem_of_mem_splitOn hl

theorem segments_ne_nil (key : String) : segments key ≠ [] := by
  simp [segments]

/-- A key without empty segments is the name of its segments. -/
theorem dottedKey_segments (h : hasEmptySegment key = false) : dottedKey (segments key) = key := by
  have hsplit := splitOn_dottedKey (plain_segments h) (segments_ne_nil key)
  rw [segments, List.map_map] at hsplit
  have hid : String.toList ∘ String.ofList = id := funext fun _ => String.toList_ofList
  rw [hid, List.map_id] at hsplit
  have hjoin := congrArg ['.'].intercalate hsplit
  rw [List.intercalate_splitOn, List.intercalate_splitOn] at hjoin
  exact String.toList_inj.1 hjoin

/-- At most one leaf of the instance's table has the name of the key: no quoted key spells it. -/
def ConfigWorld.SpelledOnce (toml : TomlCrate) (w : ConfigWorld) (key : String) : Prop :=
  ∀ layer, w.instanceConfigLayer toml = .ok layer → ∀ path v, layer.Defines path v →
    dottedKey path = key → path = segments key

/-- What a write leaves in the file. -/
theorem setConfig_ok (h : w.setConfig toml key value = .ok (w', warnings)) :
    validateWrite key value = .ok () ∧ w.requireInstance = .ok () ∧
      ∃ layer table text, w.instanceConfigLayer toml = .ok layer ∧
        setDotted key (.string value) (segments key) "" layer.table = .ok table ∧
        toml.toStringPretty table = .ok text ∧ w' = { w with file := some (.ok text) } := by
  rw [ConfigWorld.setConfig] at h
  obtain ⟨⟨⟩, hrequire, h⟩ := ok_of_bind h
  obtain ⟨⟨⟩, hvalid, h⟩ := ok_of_bind h
  obtain ⟨_, -, h⟩ := ok_of_bind h
  obtain ⟨_, -, h⟩ := ok_of_bind h
  obtain ⟨layer, hlayer, h⟩ := ok_of_bind h
  obtain ⟨table, htable, h⟩ := ok_of_bind h
  obtain ⟨text, htext, h⟩ := ok_of_bind h
  obtain ⟨written, hwritten, h⟩ := ok_of_bind h
  cases h
  refine ⟨hvalid, hrequire, layer, table, text, hlayer, htable, ?_, ?_⟩
  · rw [ConfigWorld.serialize] at htext
    split at htext
    · next hpretty =>
        cases htext
        exact hpretty
    · cases htext
  · rw [ConfigWorld.writeAtomically] at hwritten
    split at hwritten
    · cases hwritten
      rfl
    · cases hwritten

/-- A written value has no empty segments in its key, which is not the reserved one. -/
theorem key_of_validateWrite (h : validateWrite key value = .ok ()) :
    hasEmptySegment key = false ∧ key ≠ ConfigWorld.reservedIdentityKey := by
  constructor
  · rw [validateWrite] at h
    by_contra hempty
    rw [if_pos (by simpa using hempty)] at h
    cases h
  · rintro rfl
    have hname : validateWrite ConfigWorld.reservedIdentityKey value =
        .error (.unknownKey "name" (nearestKnownKey "name")) := rfl
    rw [hname] at h
    cases h

/-- The one leaf of the instance's table with a name is resolved, if there are no overrides. -/
theorem get_layersOf {inst : ConfigLayer Scalar} {path : List String} {v : Scalar}
    (hdefines : inst.Defines path v)
    (honly : ∀ path' v', inst.Defines path' v' → dottedKey path' = dottedKey path → path' = path) :
    (resolve (ConfigWorld.layersOf inst ⟨.nil, trivial⟩)).get (dottedKey path) =
      some ⟨v, .instanceConfig⟩ := by
  refine get_resolve.2 ⟨path, rfl, ⟨hdefines, fun s hs => ?_⟩, fun s later v' hlater hname => ?_⟩
  · obtain ⟨k, rest, rfl⟩ := List.exists_cons_of_ne_nil (KeyTree.ne_nil_of_leafAt hdefines)
    replace hs : SourceLayer.instanceConfig < s := hs
    cases s with
    | invocationOverride => trivial
    | engineDefault | kindDefault | instanceConfig => exact absurd hs (by decide)
  · have hnil {path : List String} : (KeyTree.nil : KeyTree String Scalar).leafAt path = none := by
      cases path <;> rfl
    have hleaf := hlater.1
    cases s with
    | instanceConfig =>
        rw [honly later v' hleaf hname]
        exact lt_irrefl path
    | engineDefault | kindDefault | invocationOverride =>
        rw [ConfigLayer.Defines, ConfigWorld.layersOf, hnil] at hleaf
        cases hleaf

theorem get_erase {c : EffectiveConfig Scalar} {reserved : String} (h : key ≠ reserved) :
    EffectiveConfig.get ⟨c.leaves.erase reserved⟩ key = c.get key := by
  rw [EffectiveConfig.get, EffectiveConfig.get, Std.TreeMap.getElem?_erase, if_neg]
  rw [Std.compare_eq_iff_eq]
  exact Ne.symm h

/-- **A written value is the resolved value of its key**, unless a quoted key spells it as well. -/
theorem get_setConfig (hround : toml.RoundTrips)
    (h : w.setConfig toml key value = .ok (w', warnings)) (honce : w.SpelledOnce toml key) :
    ∃ effective, w'.effectiveConfig toml ⟨.nil, trivial⟩ = .ok effective ∧
      effective.get key = some ⟨.string value, .instanceConfig⟩ := by
  obtain ⟨hvalid, hrequire, layer, table, text, hlayer, htable, htext, rfl⟩ := setConfig_ok h
  obtain ⟨hempty, hname⟩ := key_of_validateWrite hvalid
  obtain ⟨stored, hparse, hleaves⟩ :=
    hround table text (distinct_setDotted htable layer.distinct) htext
  have hwritten {path : List String} {v : Scalar} : stored.Defines path v ↔
      (path = segments key ∧ v = .string value) ∨
        (Unrelated path (segments key) ∧ layer.Defines path v) := by
    rw [ConfigLayer.Defines, hleaves, leafAt_setDotted htable (segments_ne_nil key)]
    rfl
  have hget : (resolve (ConfigWorld.layersOf stored ⟨.nil, trivial⟩)).get key =
      some ⟨.string value, .instanceConfig⟩ := by
    rw [← dottedKey_segments hempty]
    refine get_layersOf (hwritten.2 (.inl ⟨rfl, rfl⟩)) fun path v hv hpath => ?_
    rcases hwritten.1 hv with ⟨heq, -⟩ | ⟨-, hv⟩
    · exact heq
    · exact honce layer hlayer path v hv (hpath.trans (dottedKey_segments hempty))
  refine ⟨⟨(resolve (ConfigWorld.layersOf stored ⟨.nil, trivial⟩)).leaves.erase
    ConfigWorld.reservedIdentityKey⟩, ?_, ?_⟩
  · have hrequire' : ({ w with file := some (.ok text) } : ConfigWorld).requireInstance = .ok () :=
      hrequire
    have hstored : ({ w with file := some (.ok text) } : ConfigWorld).instanceConfigLayer toml =
        .ok stored := by
      simp only [ConfigWorld.instanceConfigLayer, hparse]
    rw [ConfigWorld.effectiveConfig, hrequire', hstored]
    rfl
  · rw [get_erase hname, hget]

end Written

/-! ### The budget and cost keys -/

/-- A budget or cost key. -/
inductive Setting where
  | tokensPerRun | tokensCumulative | breachAction
  | rateInput | rateOutput | rateCached
  | dollarsPerRun | dollarsCumulative
  deriving DecidableEq, Repr

/-- What a setting sets: a number of tokens, micro-dollars, or an action. -/
inductive Quantity where
  | tokens (n : ℕ)
  | micros (z : ℤ)
  | action (a : BreachAction)
  deriving DecidableEq, Repr

namespace Setting

/-- The key of a setting. -/
def key : Setting → String
  | tokensPerRun => budgetTokensPerRunKey
  | tokensCumulative => budgetTokensCumulativeKey
  | breachAction => budgetBreachActionKey
  | rateInput => costRateInputKey
  | rateOutput => costRateOutputKey
  | rateCached => costRateCachedKey
  | dollarsPerRun => budgetDollarsPerRunKey
  | dollarsCumulative => budgetDollarsCumulativeKey

/-- The quantity that the check of a write finds in a text. -/
def validated : Setting → String → Option Quantity
  | tokensPerRun, value | tokensCumulative, value =>
      (parseU64 (trimmed value.toList)).map .tokens
  | breachAction, value =>
      match BreachAction.fromStr (trim value) with
      | .ok a => some (.action a)
      | .error _ => none
  | _, value =>
      match parseDollarsToMicros value with
      | .ok m => some (.micros m.val)
      | .error _ => none

/-- The quantity that the enforcement reads. -/
def readBack (effective : EffectiveConfig Scalar) : Setting → Option Quantity
  | tokensPerRun => (resolveTokenBudget effective).1.perRun.map .tokens
  | tokensCumulative => (resolveTokenBudget effective).1.cumulative.map .tokens
  | breachAction => some (.action (resolveTokenBudget effective).2)
  | rateInput => (resolveCost effective).1.map fun r => .micros r.inputMicrosPer1m
  | rateOutput => (resolveCost effective).1.map fun r => .micros r.outputMicrosPer1m
  | rateCached => (resolveCost effective).1.bind fun r => r.cachedMicrosPer1m.map (.micros ·)
  | dollarsPerRun => (resolveCost effective).2.1.perRun.map (.micros ·.val)
  | dollarsCumulative => (resolveCost effective).2.1.cumulative.map (.micros ·.val)

/-- The prices that a price is read together with. -/
def supplied (effective : EffectiveConfig Scalar) : Setting → Bool
  | rateInput => (costMicrosLeaf effective costRateOutputKey).isSome
  | rateOutput => (costMicrosLeaf effective costRateInputKey).isSome
  | rateCached => (costMicrosLeaf effective costRateInputKey).isSome &&
      (costMicrosLeaf effective costRateOutputKey).isSome
  | _ => true

/-- What is read of a setting that is not set: no ceiling and no price, and the default action. -/
def unset : Setting → Option Quantity
  | breachAction => some (.action default)
  | _ => none

section Reading

variable {effective : EffectiveConfig Scalar} {s : Setting} {value : String} {q : Quantity}

/-- The check of a setting comes down to the check of its value. -/
theorem validateWrite_key : validateWrite s.key value =
    match validateBudgetValue s.key value with
    | .error e => .error e
    | .ok () => validateCostValue s.key value := by
  have hempty : hasEmptySegment s.key = false := by
    cases s <;> decide +kernel
  have hlabels : afterStart labelsNamespace s.key = none := by
    cases s <;> decide +kernel
  have hknown : s.key ∈ knownKeys := by
    cases s <;> decide +kernel
  rw [validateWrite, hempty, hlabels]
  simp only [Bool.false_eq_true, if_false, if_pos hknown]

/-- The settings whose values are amounts of dollars. -/
def isDollars : Setting → Bool
  | tokensPerRun | tokensCumulative | breachAction => false
  | _ => true

theorem validated_of_dollars (h : s.isDollars) : s.validated value =
    match parseDollarsToMicros value with
    | .ok m => some (.micros m.val)
    | .error _ => none := by
  cases s <;> first | rfl | cases h

theorem mem_dollarKeys : s.key ∈ dollarKeys ↔ s.isDollars := by
  cases s <;> decide +kernel

theorem validateBudgetValue_of_dollars (h : s.isDollars) :
    validateBudgetValue s.key value = .ok () := by
  have hne : ¬ (s.key = budgetTokensPerRunKey ∨ s.key = budgetTokensCumulativeKey) ∧
      s.key ≠ budgetBreachActionKey := by
    revert h
    cases s <;> decide +kernel
  rw [validateBudgetValue, if_neg hne.1, if_neg hne.2]

/-- The check of a value accepts what it finds a quantity in. -/
theorem validateWrite_iff : validateWrite s.key value = .ok () ↔ (s.validated value).isSome := by
  rw [validateWrite_key]
  by_cases h : s.isDollars
  · rw [validateBudgetValue_of_dollars h, validated_of_dollars h]
    simp only [validateCostValue, if_pos (mem_dollarKeys.2 h)]
    cases parseDollarsToMicros value <;> simp
  · have hcost : validateCostValue s.key value = .ok () := if_neg (mt mem_dollarKeys.1 h)
    rw [hcost]
    cases s with
    | tokensPerRun =>
        rw [validateBudgetValue, if_pos (.inl rfl), validated]
        cases parseU64 (trimmed value.toList) <;> simp
    | tokensCumulative =>
        rw [validateBudgetValue, if_pos (.inr rfl), validated]
        cases parseU64 (trimmed value.toList) <;> simp
    | breachAction =>
        have hkey : breachAction.key = budgetBreachActionKey := rfl
        rw [validateBudgetValue, if_neg (by decide +kernel), if_pos hkey, validated]
        cases BreachAction.fromStr (trim value) <;> simp
    | _ => exact absurd rfl h

/-- An amount is no reference to a secret. -/
theorem not_isSecretRef {m : Micros} (h : parseDollarsToMicros value = .ok m) :
    isSecretRef value = false := by
  rw [isSecretRef, afterStart]
  split
  · next hstart =>
      split_ifs at hstart with hmark
      obtain ⟨rest, hrest⟩ := List.isPrefixOf_iff_prefix.1 hmark
      have hvalue : value.toList = 's' :: ("ecret:".toList ++ rest) := hrest.symm
      have hdigit := isAsciiDigit_of_parseDollarsToMicros h (by decide) (by decide) hvalue
      cases hdigit
  · rfl

theorem costMicrosLeaf_of_string {k : String} (h : effective.valueOf k = some (.string value)) :
    costMicrosLeaf effective k =
      match parseDollarsToMicros value with
      | .ok m => some m
      | .error _ => none := by
  rw [costMicrosLeaf, h]
  cases hparse : parseDollarsToMicros value with
  | error reason => simp [hparse]
  | ok m => simp [hparse, not_isSecretRef hparse]

theorem budgetU64_of_string {k : String} (h : effective.valueOf k = some (.string value)) :
    budgetU64 effective k = parseU64 (trimmed value.toList) := by
  rw [budgetU64, h]

theorem breachActionOf_of_string
    (h : effective.valueOf budgetBreachActionKey = some (.string value)) :
    breachActionOf effective =
      match BreachAction.fromStr (trim value) with
      | .ok action => action
      | .error _ => default := by
  rw [breachActionOf, h]

theorem rate_resolveCost : (resolveCost effective).1 =
    match costMicrosLeaf effective costRateInputKey, costMicrosLeaf effective costRateOutputKey with
    | some i, some o => some ⟨microsToU64 i, microsToU64 o,
        (costMicrosLeaf effective costRateCachedKey).map microsToU64⟩
    | _, _ => none := rfl

/-- A text is read as the quantity that the check finds in it, a price if the others are set. -/
theorem readBack_of_validated (h : effective.valueOf s.key = some (.string value))
    (hq : s.validated value = some q) :
    s.readBack effective = if s.supplied effective then some q else none := by
  by_cases hs : s.isDollars
  · have hleaf := costMicrosLeaf_of_string h
    rw [validated_of_dollars hs] at hq
    cases hparse : parseDollarsToMicros value with
    | error reason =>
        rw [hparse] at hq
        cases hq
    | ok m =>
        rw [hparse] at hq hleaf
        cases hq
        -- a price that was parsed is not negative, so it is read as it is
        have hprice : ((microsToU64 m : ℕ) : ℤ) = m.val := toNat_parseDollarsToMicros hparse
        cases s with
        | rateInput =>
            replace hleaf : costMicrosLeaf effective costRateInputKey = some m := hleaf
            rw [readBack, rate_resolveCost, hleaf, supplied]
            cases costMicrosLeaf effective costRateOutputKey <;> simp [hprice]
        | rateOutput =>
            replace hleaf : costMicrosLeaf effective costRateOutputKey = some m := hleaf
            rw [readBack, rate_resolveCost, hleaf, supplied]
            cases costMicrosLeaf effective costRateInputKey <;> simp [hprice]
        | rateCached =>
            replace hleaf : costMicrosLeaf effective costRateCachedKey = some m := hleaf
            rw [readBack, rate_resolveCost, hleaf, supplied]
            cases costMicrosLeaf effective costRateInputKey <;>
              cases costMicrosLeaf effective costRateOutputKey <;> simp [hprice]
        | dollarsPerRun | dollarsCumulative => exact congrArg (Option.map _) hleaf
        | tokensPerRun | tokensCumulative | breachAction => cases hs
  · cases s with
    | tokensPerRun | tokensCumulative =>
        rw [← hq]
        refine congrArg (Option.map Quantity.tokens) ?_
        exact budgetU64_of_string h
    | breachAction =>
        rw [validated] at hq
        have hread : breachActionOf effective = _ := breachActionOf_of_string h
        cases hparse : BreachAction.fromStr (trim value) with
        | error rejected =>
            rw [hparse] at hq
            cases hq
        | ok a =>
            rw [hparse] at hq hread
            rw [← hq]
            exact congrArg (fun a => some (Quantity.action a)) hread
    | _ => exact absurd rfl hs

/-- A text without a quantity is read as if the setting were not set. -/
theorem readBack_of_refused (h : effective.valueOf s.key = some (.string value))
    (hq : s.validated value = none) : s.readBack effective = s.unset := by
  by_cases hs : s.isDollars
  · have hleaf : costMicrosLeaf effective s.key = none := by
      rw [validated_of_dollars hs] at hq
      rw [costMicrosLeaf_of_string h]
      cases hparse : parseDollarsToMicros value with
      | error reason => rfl
      | ok m =>
          rw [hparse] at hq
          cases hq
    cases s with
    | rateInput =>
        replace hleaf : costMicrosLeaf effective costRateInputKey = none := hleaf
        rw [readBack, rate_resolveCost, hleaf]
        rfl
    | rateOutput =>
        replace hleaf : costMicrosLeaf effective costRateOutputKey = none := hleaf
        rw [readBack, rate_resolveCost, hleaf]
        cases costMicrosLeaf effective costRateInputKey <;> rfl
    | rateCached =>
        replace hleaf : costMicrosLeaf effective costRateCachedKey = none := hleaf
        rw [readBack, rate_resolveCost, hleaf]
        cases costMicrosLeaf effective costRateInputKey <;>
          cases costMicrosLeaf effective costRateOutputKey <;> rfl
    | dollarsPerRun | dollarsCumulative => exact congrArg (Option.map _) hleaf
    | tokensPerRun | tokensCumulative | breachAction => cases hs
  · cases s with
    | tokensPerRun | tokensCumulative =>
        refine Eq.trans (congrArg (Option.map Quantity.tokens) ?_) hq
        exact budgetU64_of_string h
    | breachAction =>
        rw [validated] at hq
        have hread : breachActionOf effective = _ := breachActionOf_of_string h
        cases hparse : BreachAction.fromStr (trim value) with
        | error rejected =>
            rw [hparse] at hread
            exact congrArg (fun a => some (Quantity.action a)) hread
        | ok a =>
            rw [hparse] at hq
            cases hq
    | _ => exact absurd rfl hs

end Reading

/-- **What is accepted is read as the quantity that was validated, and what is refused would not
have been read.**  A price is read once the prices it goes with are set. -/
theorem validated_readBack (toml : TomlCrate) (hround : toml.RoundTrips) :
    (∀ (s : Setting) (w w' : ConfigWorld) (value : String) (warnings : List String),
      w.setConfig toml s.key value = .ok (w', warnings) → w.SpelledOnce toml s.key →
      ∃ effective q, w'.effectiveConfig toml ⟨.nil, trivial⟩ = .ok effective ∧
        s.validated value = some q ∧
        s.readBack effective = (if s.supplied effective then some q else none) ∧
        (resolveCost effective).2.2 = (resolveTokenBudget effective).2) ∧
    ∀ (s : Setting) (value : String) (e : ConfigError) (effective : EffectiveConfig Scalar),
      validateWrite s.key value = .error e → effective.valueOf s.key = some (.string value) →
      s.readBack effective = s.unset := by
  constructor
  · intro s w w' value warnings h honce
    obtain ⟨effective, heffective, hget⟩ := get_setConfig hround h honce
    have hvalue : effective.valueOf s.key = some (.string value) := by
      rw [EffectiveConfig.valueOf, hget]
      rfl
    obtain ⟨q, hq⟩ := Option.isSome_iff_exists.1 (validateWrite_iff.1 (setConfig_ok h).1)
    exact ⟨effective, q, heffective, hq, readBack_of_validated hvalue hq, rfl⟩
  · intro s value e effective he hvalue
    refine readBack_of_refused hvalue ?_
    rw [← Option.not_isSome_iff_eq_none, ← validateWrite_iff, he]
    exact fun h => by cases h

/-! ### One table -/

/-- A printer that prints one table only, and a parser that parses it. -/
def printsOnly (layer : ConfigLayer Scalar) (printed : String) : TomlCrate where
  parse text := if text = printed then .ok layer else .error "another text"
  toStringPretty table := if table = layer.table then .ok printed else .error "another table"

theorem roundTrips_printsOnly (layer : ConfigLayer Scalar) (printed : String) :
    (printsOnly layer printed).RoundTrips := by
  intro table text _ h
  replace h : (if table = layer.table then Except.ok printed else .error "another table") =
      .ok text := h
  split_ifs at h with htable
  cases h
  exact ⟨layer, if_pos rfl, fun path => by rw [htable]⟩

/-- An instance without a file. -/
def freshWorld : ConfigWorld where
  name := "demo"
  path := "config.toml"
  registered := .ok true
  meteringSource := .ok "engine-observed"
  secretFlagSteering _ _ := []
  lock := .ok ()
  file := none
  writable := .ok ()

/-- The table of the largest ceiling. -/
def ceilingLayer : ConfigLayer Scalar :=
  ⟨.sub "budget" (.sub "tokens" (.leaf "per_run" (.string "18446744073709551615") .nil) .nil) .nil,
    ⟨trivial, trivial, trivial, trivial, trivial, trivial⟩⟩

def ceilingToml : TomlCrate :=
  printsOnly ceilingLayer "[budget.tokens]\nper_run = \"18446744073709551615\"\n"

/-- The table of the price of the input alone. -/
def priceLayer : ConfigLayer Scalar :=
  ⟨.sub "cost" (.sub "rate" (.leaf "input" (.string "3.00") .nil) .nil) .nil,
    ⟨trivial, trivial, trivial, trivial, trivial, trivial⟩⟩

def priceToml : TomlCrate := printsOnly priceLayer "[cost.rate]\ninput = \"3.00\"\n"

/-- A written value is read as the quantity that was validated. -/
def ReadsBack (toml : TomlCrate) (w : ConfigWorld) (s : Setting) (value : String) : Prop :=
  ∀ w' warnings, w.setConfig toml s.key value = .ok (w', warnings) →
    ∃ effective, w'.effectiveConfig toml ⟨.nil, trivial⟩ = .ok effective ∧
      s.readBack effective = s.validated value

/-- The price of the input alone is not read. -/
theorem not_readsBack_rateInput : priceToml.RoundTrips ∧
    ¬ ReadsBack priceToml freshWorld .rateInput "3.00" := by
  refine ⟨roundTrips_printsOnly _ _, fun h => ?_⟩
  have hset : freshWorld.setConfig priceToml costRateInputKey "3.00" =
      .ok ({ freshWorld with file := some (.ok "[cost.rate]\ninput = \"3.00\"\n") }, []) := rfl
  obtain ⟨effective, heffective, hread⟩ := h _ _ hset
  have hunread : (ConfigWorld.effectiveConfig priceToml
      { freshWorld with file := some (.ok "[cost.rate]\ninput = \"3.00\"\n") }
      ⟨.nil, trivial⟩).map (fun e => rateInput.readBack e) = .ok none := by rfl
  have hvalid : rateInput.validated "3.00" = some (.micros 3000000) := by decide +kernel
  rw [heffective, Except.map, hread, hvalid] at hunread
  cases hunread

/-- The largest ceiling is read back. -/
theorem validated_readBack_ceiling : ∃ effective q,
    ConfigWorld.effectiveConfig ceilingToml { freshWorld with
      file := some (.ok "[budget.tokens]\nper_run = \"18446744073709551615\"\n") }
      ⟨.nil, trivial⟩ = .ok effective ∧
    tokensPerRun.validated "18446744073709551615" = some q ∧
    tokensPerRun.readBack effective = (if tokensPerRun.supplied effective then some q else none) ∧
    (resolveCost effective).2.2 = (resolveTokenBudget effective).2 := by
  refine (validated_readBack ceilingToml (roundTrips_printsOnly _ _)).1 tokensPerRun freshWorld _
    "18446744073709551615" [] rfl ?_
  rintro layer hlayer path v hv -
  cases hlayer
  cases path <;> cases hv

end Setting

end Hekma
