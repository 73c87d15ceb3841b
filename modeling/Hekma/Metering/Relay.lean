/-
**The headers of a relayed call** (`metering/listener.rs`).

The proxy relays the headers of a request to the upstream, and those of the response to the agent.
Headers that concern one hop only are left out: those with a fixed set of names, on the request side
`Host`, and on the response side those a `Connection` header nominates.  The map of headers keeps
the values of a name in order; the order of the names is its own.

The map of headers is a parameter.

Main definitions:

* `Metering.Http`, `Metering.Http.Lawful` — names, values and maps, and what is known of them;
* `Metering.requestHeaders`, `Metering.stripHopByHop` — the code;
* `Metering.nominated` — a `Connection` header of the message nominates the name;
* `Metering.RelaysExactly` — the relayed lists are the lists of the messages, without the headers
  that concern one hop.

Main results:

* `Metering.values_requestHeaders`, `Metering.values_stripHopByHop` — the values of every name;
* `Metering.relayed_values` — what is relayed of both messages, name by name.
-/

import Hekma.Lib.Json
import Hekma.Lib.Text
import Mathlib.Data.List.Perm.Basic

set_option relaxedAutoImplicit false
set_option autoImplicit false

namespace Hekma

namespace Metering

/-! ### Headers -/

/-- Header names, header values and maps of headers. -/
structure Http (Name Value Map : Type) where
  /-- The name a text is, whatever its case. -/
  tryFrom : List Char → Option Name
  /-- The text of a name, in lower case. -/
  asStr : Name → List Char
  /-- The text of a value, if all of it is visible ASCII. -/
  toStr : Value → Option (List Char)
  empty : Map
  append : Map → Name → Value → Map
  remove : Map → Name → Map
  getAll : Map → Name → List Value
  iter : Map → List (Name × Value)
  host : Name
  connection : Name
  te : Name
  transferEncoding : Name
  trailer : Name
  upgrade : Name
  proxyAuthenticate : Name
  proxyAuthorization : Name
  contentLength : Name

variable {Name Value Map : Type} [DecidableEq Name]

/-- The values of a name in a list of headers. -/
def values (n : Name) (headers : List (Name × Value)) : List Value :=
  (headers.filter fun p => p.1 = n).map Prod.snd

/-- What is known of the names and the maps. -/
structure Http.Lawful (http : Http Name Value Map) : Prop where
  /-- The case of a name does not matter. -/
  tryFrom_eq_some : ∀ s n, http.tryFrom s = some n ↔ s.map Char.toLower = http.asStr n
  getAll_empty : ∀ n, http.getAll http.empty n = []
  /-- A new value stands behind the values of its name. -/
  getAll_append : ∀ m n v n',
    http.getAll (http.append m n v) n' =
      if n' = n then http.getAll m n' ++ [v] else http.getAll m n'
  getAll_remove : ∀ m n n',
    http.getAll (http.remove m n) n' = if n' = n then [] else http.getAll m n'
  /-- The headers of a map are the values of its names, in some order of the names. -/
  values_iter : ∀ m n, values n (http.iter m) = http.getAll m n

/-! ### The code -/

section

variable (http : Http Name Value Map)

/-- The names that concern one hop. -/
def hopByHopHeaders : List Name :=
  [http.connection, http.te, http.transferEncoding, http.trailer, http.upgrade,
    http.proxyAuthenticate, http.proxyAuthorization, http.contentLength]

def isHopByHop (n : Name) : Bool := n ∈ hopByHopHeaders http

/-- The names the `Connection` headers of a map list. -/
def connectionListed (m : Map) : List Name :=
  (((http.getAll m http.connection).filterMap http.toStr).flatMap fun text =>
    text.splitOn ',').filterMap fun token => http.tryFrom (Text.trim token)

/-- The headers of a response that are relayed. -/
def stripHopByHop (m : Map) : Map :=
  (hopByHopHeaders http).foldl http.remove ((connectionListed http m).foldl http.remove m)

/-- The headers of a request that are relayed. -/
def requestHeaders (m : Map) : Map :=
  (http.iter m).foldl (fun out p =>
    if p.1 = http.host ∨ isHopByHop http p.1 then out else http.append out p.1 p.2) http.empty

/-- The map of the headers of a message. -/
def received (headers : List (Name × Value)) : Map :=
  headers.foldl (fun m p => http.append m p.1 p.2) http.empty

/-! ### What is promised -/

/-- The value of a `Connection` header lists the name. -/
def nominates (v : Value) (n : Name) : Bool :=
  match http.toStr v with
  | none => false
  | some text =>
      (text.splitOn ',').any fun token => (Text.trim token).map Char.toLower = http.asStr n

/-- A `Connection` header of the message nominates the name. -/
def nominated (headers : List (Name × Value)) (n : Name) : Bool :=
  headers.any fun p => p.1 = http.connection && nominates http p.2 n

/-- Both relayed lists are the lists of the messages, without the headers that concern one hop. -/
structure RelaysExactly (headers : List (Name × Value)) : Prop where
  request : http.iter (requestHeaders http (received http headers)) =
    headers.filter fun p =>
      !(decide (p.1 = http.host) || isHopByHop http p.1 || nominated http headers p.1)
  response : http.iter (stripHopByHop http (received http headers)) =
    headers.filter fun p => !(isHopByHop http p.1 || nominated http headers p.1)

end

/-! ### The values of every name -/

section

variable {http : Http Name Value Map} {n : Name}

theorem values_cons (p : Name × Value) (headers : List (Name × Value)) :
    values n (p :: headers) = if p.1 = n then p.2 :: values n headers else values n headers := by
  rw [values, List.filter_cons]
  split <;> rename_i h
  · rw [if_pos (of_decide_eq_true h)]
    rfl
  · rw [if_neg fun heq => h (decide_eq_true heq)]
    rfl

theorem mem_values {v : Value} {headers : List (Name × Value)} :
    v ∈ values n headers ↔ (n, v) ∈ headers := by
  simp [values]

namespace Http.Lawful

variable (h : http.Lawful)

include h

/-- The values of a name in a map that some headers are appended to. -/
theorem getAll_foldl (skip : Name → Bool) (headers : List (Name × Value)) (m : Map) :
    http.getAll (headers.foldl (fun out p => if skip p.1 then out else http.append out p.1 p.2) m) n
      = http.getAll m n ++ if skip n then [] else values n headers := by
  induction headers generalizing m with
  | nil => simp [values]
  | cons p headers ih =>
      rw [List.foldl_cons, ih, values_cons]
      by_cases hn : p.1 = n
      · subst hn
        cases hskip : skip p.1 with
        | true => simp
        | false => simp [h.getAll_append]
      · cases hskip : skip p.1 with
        | true => simp [hn]
        | false => simp [hn, h.getAll_append, Ne.symm hn]

theorem getAll_received (headers : List (Name × Value)) :
    http.getAll (received http headers) n = values n headers := by
  have hfold := h.getAll_foldl (n := n) (fun _ => false) headers http.empty
  rw [h.getAll_empty, List.nil_append] at hfold
  exact hfold

theorem getAll_foldl_remove (names : List Name) (m : Map) :
    http.getAll (names.foldl http.remove m) n = if n ∈ names then [] else http.getAll m n := by
  induction names generalizing m with
  | nil => simp
  | cons name names ih =>
      rw [List.foldl_cons, ih, h.getAll_remove]
      by_cases hn : n = name
      · simp [hn]
      · simp [hn]

/-- The names that are listed are those that are nominated. -/
theorem mem_connectionListed {headers : List (Name × Value)} :
    n ∈ connectionListed http (received http headers) ↔ nominated http headers n = true := by
  simp only [connectionListed, h.getAll_received, List.mem_filterMap, List.mem_flatMap, mem_values,
    h.tryFrom_eq_some, nominated, nominates, List.any_eq_true, Bool.and_eq_true, decide_eq_true_eq]
  constructor
  · rintro ⟨token, ⟨text, ⟨v, hv, htext⟩, htoken⟩, hname⟩
    refine ⟨_, hv, rfl, ?_⟩
    simp only [htext, List.any_eq_true, decide_eq_true_eq]
    exact ⟨token, htoken, hname⟩
  · rintro ⟨⟨name, v⟩, hv, rfl, hnominates⟩
    cases htext : http.toStr v with
    | none => simp [htext] at hnominates
    | some text =>
        simp only [htext, List.any_eq_true, decide_eq_true_eq] at hnominates
        obtain ⟨token, htoken, hname⟩ := hnominates
        exact ⟨token, ⟨text, ⟨v, hv, htext⟩, htoken⟩, hname⟩

end Http.Lawful

/-- **The values of a name in a relayed request.** -/
theorem values_requestHeaders (h : http.Lawful) (headers : List (Name × Value)) (n : Name) :
    values n (http.iter (requestHeaders http (received http headers))) =
      if n = http.host ∨ isHopByHop http n then [] else values n headers := by
  have hfold := h.getAll_foldl (n := n) (fun name => name = http.host ∨ isHopByHop http name)
    (http.iter (received http headers)) http.empty
  rw [h.getAll_empty, List.nil_append, h.values_iter, h.getAll_received] at hfold
  rw [h.values_iter, requestHeaders]
  simpa using hfold

/-- **The values of a name in a relayed response.** -/
theorem values_stripHopByHop (h : http.Lawful) (headers : List (Name × Value)) (n : Name) :
    values n (http.iter (stripHopByHop http (received http headers))) =
      if isHopByHop http n ∨ nominated http headers n then [] else values n headers := by
  rw [h.values_iter, stripHopByHop, h.getAll_foldl_remove, h.getAll_foldl_remove,
    h.getAll_received]
  by_cases hhop : n ∈ hopByHopHeaders http
  · simp [isHopByHop, hhop]
  · simp [isHopByHop, hhop, h.mem_connectionListed]

/-- **What is relayed, name by name.**  A response loses the names that concern one hop and those it
nominates, a request `Host` and the names that concern one hop; every other name that is not
nominated keeps its values, in their order. -/
theorem relayed_values (h : http.Lawful) (headers : List (Name × Value)) (n : Name) :
    (values n (http.iter (stripHopByHop http (received http headers))) =
      if isHopByHop http n ∨ nominated http headers n then [] else values n headers) ∧
    (n = http.host ∨ isHopByHop http n →
      values n (http.iter (requestHeaders http (received http headers))) = []) ∧
    (n ≠ http.host → isHopByHop http n = false → nominated http headers n = false →
      values n (http.iter (requestHeaders http (received http headers))) = values n headers) := by
  refine ⟨values_stripHopByHop h headers n, fun hn => ?_, fun hhost hhop _ => ?_⟩
  · rw [values_requestHeaders h, if_pos hn]
  · rw [values_requestHeaders h, if_neg]
    rintro (hn | hn)
    · exact hhost hn
    · rw [hhop] at hn
      cases hn

end

/-! ### A map of entries -/

/-- A map with an entry for each name, in the order in which the names came.  The place of an entry
that is removed is taken by the last one. -/
structure HeaderMap where
  entries : List (String × List String)
  nodup : (entries.map Prod.fst).Nodup

namespace HeaderMap

variable {l : List (String × List String)} {k : String} {v : String}

/-- Append a value to the entry of its name, or a new entry. -/
def appendEntry (k v : String) : List (String × List String) → List (String × List String)
  | [] => [(k, [v])]
  | e :: rest => if e.1 = k then (k, e.2 ++ [v]) :: rest else e :: appendEntry k v rest

/-- Remove the entry of a name; the last entry takes its place. -/
def swapRemove (k : String) : List (String × List String) → List (String × List String)
  | [] => []
  | e :: rest =>
      if e.1 = k then
        match rest.getLast? with
        | none => []
        | some last => last :: rest.dropLast
      else e :: swapRemove k rest

theorem keys_appendEntry (k v : String) (l : List (String × List String)) :
    (appendEntry k v l).map Prod.fst =
      if k ∈ l.map Prod.fst then l.map Prod.fst else l.map Prod.fst ++ [k] := by
  induction l with
  | nil => rfl
  | cons e rest ih =>
      rw [appendEntry]
      by_cases he : e.1 = k
      · simp [he]
      · rw [if_neg he, List.map_cons, ih]
        by_cases hk : k ∈ rest.map Prod.fst
        · simp [hk]
        · simp [hk, Ne.symm he]

theorem swapRemove_perm (hl : (l.map Prod.fst).Nodup) :
    (swapRemove k l).Perm (l.filter fun e => e.1 ≠ k) := by
  induction l with
  | nil => exact .nil
  | cons e rest ih =>
      rw [List.map_cons, List.nodup_cons] at hl
      rw [swapRemove, List.filter_cons]
      by_cases he : e.1 = k
      · have hrest : rest.filter (fun e => e.1 ≠ k) = rest := by
          refine List.filter_eq_self.2 fun e' he' => decide_eq_true fun heq => ?_
          exact hl.1 (he.trans heq.symm ▸ List.mem_map_of_mem he')
        rw [if_pos he, if_neg (by simp [he]), hrest]
        rcases List.eq_nil_or_concat rest with rfl | ⟨init, last, rfl⟩
        · exact .nil
        · rw [List.concat_eq_append, List.getLast?_concat, List.dropLast_concat]
          exact (List.perm_append_singleton last init).symm
      · rw [if_neg he, if_pos (by simp [he])]
        exact (ih hl.2).cons e

/-- The entry of a name is the one in the list. -/
theorem lookup_eq_some (hl : (l.map Prod.fst).Nodup) {vs : List String} :
    l.lookup k = some vs ↔ (k, vs) ∈ l := by
  refine ⟨fun h => ?_, fun h => Json.lookup_of_mem hl h⟩
  obtain ⟨l₁, l₂, rfl, -⟩ := List.lookup_eq_some_iff.1 h
  simp

theorem keys_swapRemove (hl : (l.map Prod.fst).Nodup) :
    ((swapRemove k l).map Prod.fst).Nodup :=
  ((swapRemove_perm hl).map Prod.fst).nodup_iff.2 (hl.sublist (List.filter_sublist.map Prod.fst))

theorem lookup_swapRemove (hl : (l.map Prod.fst).Nodup) (k' : String) :
    (swapRemove k l).lookup k' = if k' = k then none else l.lookup k' := by
  refine Option.ext fun vs => ?_
  rw [lookup_eq_some (keys_swapRemove hl), (swapRemove_perm hl).mem_iff, List.mem_filter]
  by_cases hk : k' = k
  · simp [hk]
  · rw [if_neg hk, lookup_eq_some hl]
    simp [hk]

theorem lookup_appendEntry (k' : String) :
    (appendEntry k v l).lookup k' =
      if k' = k then some ((l.lookup k).getD [] ++ [v]) else l.lookup k' := by
  induction l with
  | nil =>
      by_cases hk : k' = k
      · simp [appendEntry, hk]
      · simp [appendEntry, hk, List.lookup_cons, beq_eq_false_iff_ne.2 hk]
  | cons e rest ih =>
      obtain ⟨key, vs⟩ := e
      rw [appendEntry]
      by_cases he : key = k
      · subst he
        by_cases hk : k' = key
        · simp [hk]
        · simp [hk, List.lookup_cons, beq_eq_false_iff_ne.2 hk]
      · rw [if_neg he, List.lookup_cons, List.lookup_cons, List.lookup_cons, ih]
        by_cases hk : k' = k
        · subst hk
          simp [beq_eq_false_iff_ne.2 (Ne.symm he)]
        · rw [if_neg hk, if_neg hk]

/-- The values of a name in the headers of some entries. -/
theorem values_entries (hl : (l.map Prod.fst).Nodup) :
    values k (l.flatMap fun e => e.2.map fun v => (e.1, v)) = (l.lookup k).getD [] := by
  have happend : ∀ a b : List (String × String), values k (a ++ b) = values k a ++ values k b := by
    intro a b
    simp [values]
  have hentry : ∀ (key : String) (vs : List String),
      values k (vs.map fun v => (key, v)) = if key = k then vs else [] := by
    intro key vs
    by_cases hk : key = k
    · simp [values, List.filter_map, Function.comp_def, hk]
    · simp [values, List.filter_map, Function.comp_def, hk]
  induction l with
  | nil => rfl
  | cons e rest ih =>
      obtain ⟨key, vs⟩ := e
      rw [List.map_cons, List.nodup_cons] at hl
      rw [List.flatMap_cons, happend, hentry, ih hl.2, List.lookup_cons]
      by_cases hk : key = k
      · subst hk
        have hnone : rest.lookup key = none := by
          refine Option.eq_none_iff_forall_ne_some.2 fun vs' hvs' => hl.1 ?_
          exact List.mem_map.2 ⟨(key, vs'), (lookup_eq_some hl.2).1 hvs', rfl⟩
        simp [hnone]
      · simp [hk, beq_eq_false_iff_ne.2 (Ne.symm hk)]

theorem nodup_appendEntry (hl : (l.map Prod.fst).Nodup) :
    ((appendEntry k v l).map Prod.fst).Nodup := by
  rw [keys_appendEntry]
  split
  · exact hl
  · rename_i hk
    refine List.nodup_append.2 ⟨hl, by simp, fun a ha b hb heq => hk ?_⟩
    rw [← List.mem_singleton.1 hb, ← heq]
    exact ha

/-- The maps of entries.  Every text is a name, and every value is visible ASCII. -/
def entryMap : Http String String HeaderMap where
  tryFrom := fun s => some (String.ofList (s.map Char.toLower))
  asStr := String.toList
  toStr := fun v => some v.toList
  empty := ⟨[], List.nodup_nil⟩
  append := fun m k v => ⟨appendEntry k v m.entries, nodup_appendEntry m.nodup⟩
  remove := fun m k => ⟨swapRemove k m.entries, keys_swapRemove m.nodup⟩
  getAll := fun m k => (m.entries.lookup k).getD []
  iter := fun m => m.entries.flatMap fun e => e.2.map fun v => (e.1, v)
  host := "host"
  connection := "connection"
  te := "te"
  transferEncoding := "transfer-encoding"
  trailer := "trailer"
  upgrade := "upgrade"
  proxyAuthenticate := "proxy-authenticate"
  proxyAuthorization := "proxy-authorization"
  contentLength := "content-length"

theorem lawful : entryMap.Lawful where
  tryFrom_eq_some := by
    intro s n
    have hname : String.ofList (s.map Char.toLower) = n ↔ s.map Char.toLower = n.toList :=
      ⟨fun h => by rw [← h, String.toList_ofList], fun h => by rw [h, String.ofList_toList]⟩
    exact Option.some_inj.trans hname
  getAll_empty := fun _ => rfl
  getAll_append := by
    intro m k v k'
    have hlookup := lookup_appendEntry (k := k) (v := v) (l := m.entries) k'
    simp only [entryMap, hlookup]
    split
    · rename_i hk
      rw [hk]
      rfl
    · rfl
  getAll_remove := by
    intro m k k'
    have hlookup := lookup_swapRemove (k := k) m.nodup k'
    simp only [entryMap, hlookup]
    split <;> rfl
  values_iter := fun m _ => values_entries m.nodup

end HeaderMap

/-- The headers of a response that nominates one of them. -/
def nominating : List (String × String) :=
  [("connection", "Close, X-Trace"), ("accept-ranges", "bytes"), ("x-trace", "7"), ("vary", "a"),
    ("vary", "b")]

theorem relayed_values_nominating :
    values "vary" (HeaderMap.entryMap.iter
      (stripHopByHop HeaderMap.entryMap (received HeaderMap.entryMap nominating))) = ["a", "b"] ∧
    values "x-trace" (HeaderMap.entryMap.iter
      (stripHopByHop HeaderMap.entryMap (received HeaderMap.entryMap nominating))) = [] :=
  ⟨(relayed_values HeaderMap.lawful nominating "vary").1.trans (by decide),
    (relayed_values HeaderMap.lawful nominating "x-trace").1.trans (by decide)⟩

/-- The order of the names is the one the map leaves. -/
theorem relays_in_another_order :
    ¬ RelaysExactly HeaderMap.entryMap [("content-length", "2"), ("content-type", "text/plain"),
      ("x-request-id", "7")] := by
  intro h
  exact absurd h.response (by decide)

end Metering

end Hekma
