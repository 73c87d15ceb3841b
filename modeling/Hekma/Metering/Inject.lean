/-
**Asking for the usage of a stream** (`metering/listener.rs`).

A provider reports the usage of a stream only when it is asked to.  The proxy adds that wish to a
request for a stream that says nothing of it: the body is parsed, a member is added to its object,
and the object is printed again.  The program keeps objects in maps, so the printed members stand
in the order of their keys; the content is to be the same.

The parser and the printer of JSON texts are parameters.

Main definitions:

* `Metering.Serde`, `Metering.Reading` — the parser and the printer, and what a provider reads;
* `Metering.injectIncludeUsage` — the code;
* `Metering.Streaming` — a chat request for a stream that makes no choice of its own;
* `Metering.Reading.meaning`, `Metering.Reading.Held` — what a document says, and the documents
  whose numbers the program holds.

Main results:

* `Metering.injectIncludeUsage_cases` — what the code can do;
* `Metering.injectIncludeUsage_preserves` — only such a request is changed, it gets the wish and
  keeps what it says, and a second pass does nothing.
-/

import Hekma.Lib.JsonTree
import Hekma.Lib.Utf8
import Hekma.Metering.Parse
import Hekma.Metering.Relay
import Mathlib.Data.Rat.Defs

set_option relaxedAutoImplicit false
set_option autoImplicit false

namespace Hekma

namespace Metering

/-! ### The code -/

/-- The methods of a request. -/
inductive Method where
  | options
  | get
  | post
  | put
  | delete
  | head
  | trace
  | connect
  | patch
  | extension (name : String)
  deriving DecidableEq

/-- The parser and the printer of JSON texts.  The numbers are those of the program. -/
structure Serde (Number : Type) where
  fromSlice : Bytes → Option (JsonTree Number)
  toVec : JsonTree Number → Option Bytes

/-- A value that is a boolean. -/
def asBool {N : Type} : JsonTree N → Option Bool
  | .bool b => some b
  | _ => none

/-- The wish that is added. -/
def includeUsage {N : Type} : JsonTree N := .object [("include_usage", .bool true)]

section

variable {Name Value Map Number : Type} (http : Http Name Value Map) (contentType : Name)
  (serde : Serde Number)

/-- The first `Content-Type` header is one of a JSON text. -/
def isJson (headers : Map) : Bool :=
  match (http.getAll headers contentType).head?.bind http.toStr with
  | none => false
  | some text => decide ("application/json".toList <:+: text.map Char.toLower)

/-- Add the wish for the usage to the body of a request. -/
def injectIncludeUsage (method : Method) (path : List Char) (headers : Map) (reqBytes : Bytes) :
    Bytes :=
  if method ≠ .post then reqBytes
  else if ¬ "/chat/completions".toList <:+ path then reqBytes
  else if ¬ isJson http contentType headers then reqBytes
  else
    match serde.fromSlice reqBytes with
    | some (.object obj) =>
        if ¬ ((obj.lookup "stream").bind asBool).getD false then reqBytes
        else if (obj.lookup "stream_options").isSome then reqBytes
        else
          -- A value that cannot be printed leaves the body as it is.
          (serde.toVec (.object (JsonTree.insert "stream_options" includeUsage obj))).getD reqBytes
    | _ => reqBytes

end

/-! ### What a provider reads -/

/-- What a provider reads: the document of a body, with the literals of its numbers as they are
written.  The program has a number for a literal, and prints a number as a literal. -/
structure Reading (Number Lit : Type) where
  document : Bytes → Option (JsonTree Lit)
  number : Lit → Number
  text : Number → Lit
  /-- The value of a literal. -/
  val : Lit → ℚ

section

variable {Name Value Map Number Lit : Type}

/-- What is known of the parser and the printer. -/
structure Serde.Lawful (serde : Serde Number) (reading : Reading Number Lit) : Prop where
  /-- The parser reads documents, and holds objects in maps. -/
  fromSlice_sound : ∀ body v, serde.fromSlice body = some v →
    ∃ d, reading.document body = some d ∧ v = (d.map reading.number).canon
  /-- The printer prints what it is given. -/
  document_toVec : ∀ v body, serde.toVec v = some body →
    reading.document body = some (v.map reading.text)

/-- What a document says: the values of its numbers, and its objects as maps. -/
def Reading.meaning (reading : Reading Number Lit) (d : JsonTree Lit) : JsonTree ℚ :=
  (d.map reading.val).canon

/-- The numbers of a document keep their values in the program. -/
def Reading.Held (reading : Reading Number Lit) (d : JsonTree Lit) : Prop :=
  d.map (reading.val ∘ reading.text ∘ reading.number) = d.map reading.val

/-- **A chat request for a stream** that makes no choice of its own.  Of the members with the same
key the last one counts. -/
structure Streaming (http : Http Name Value Map) (contentType : Name)
    (reading : Reading Number Lit) (method : Method) (path : List Char) (headers : Map)
    (body : Bytes) : Prop where
  method : method = .post
  path : "/chat/completions".toList <:+ path
  json : isJson http contentType headers = true
  document : ∃ members, reading.document body = some (.object members) ∧
    members.reverse.lookup "stream" = some (.bool true) ∧
    "stream_options" ∉ members.map Prod.fst

/-- A request keeps its members, one for one and in their order, and gets the wish. -/
def KeepsMembers (reading : Reading Number Lit) (body body' : Bytes) : Prop :=
  ∀ members, reading.document body = some (.object members) →
    ∃ members', reading.document body' = some (.object members') ∧
      members'.reverse.lookup "stream_options" = some includeUsage ∧
      JsonTree.mapMembers reading.val (members'.filter fun p => p.1 ≠ "stream_options") =
        JsonTree.mapMembers reading.val members

end

/-! ### What the code does -/

section

variable {Name Value Map Number Lit : Type} {http : Http Name Value Map} {contentType : Name}
  {serde : Serde Number} {reading : Reading Number Lit} {method : Method} {path : List Char}
  {headers : Map} {body : Bytes}

variable (http contentType serde method path headers body) in
/-- **What the code can do**: nothing, or it prints the object of a request with one more member. -/
theorem injectIncludeUsage_cases :
    injectIncludeUsage http contentType serde method path headers body = body ∨
    (method = .post ∧ "/chat/completions".toList <:+ path ∧
      isJson http contentType headers = true ∧
      ∃ obj, serde.fromSlice body = some (.object obj) ∧
        (obj.lookup "stream").bind asBool = some true ∧ obj.lookup "stream_options" = none ∧
        serde.toVec (.object (JsonTree.insert "stream_options" includeUsage obj)) =
          some (injectIncludeUsage http contentType serde method path headers body)) := by
  by_cases hmethod : method = .post
  case neg => exact .inl (if_pos hmethod)
  by_cases hpath : "/chat/completions".toList <:+ path
  case neg => exact .inl (by rw [injectIncludeUsage, if_neg (not_not.2 hmethod), if_pos hpath])
  by_cases hjson : isJson http contentType headers = true
  case neg =>
    exact .inl (by
      rw [injectIncludeUsage, if_neg (not_not.2 hmethod), if_neg (not_not.2 hpath), if_pos hjson])
  rw [injectIncludeUsage, if_neg (not_not.2 hmethod), if_neg (not_not.2 hpath),
    if_neg (not_not.2 hjson)]
  split
  · rename_i obj hobj
    by_cases hstream : ((obj.lookup "stream").bind asBool).getD false = true
    case neg => exact .inl (if_pos hstream)
    cases hoptions : obj.lookup "stream_options" with
    | some choice => exact .inl (by simp)
    | none =>
        rw [if_neg (not_not.2 hstream), if_neg (by simp)]
        cases hprint :
          serde.toVec (.object (JsonTree.insert "stream_options" includeUsage obj)) with
        | none => exact .inl rfl
        | some printed =>
            refine .inr ⟨hmethod, hpath, hjson, obj, hobj, ?_, hoptions, hprint⟩
            cases hb : (obj.lookup "stream").bind asBool with
            | none => simp [hb] at hstream
            | some b => simpa [hb] using hstream
  · exact .inl rfl

theorem asBool_eq_some {N : Type} {d : JsonTree N} {b : Bool} :
    asBool d = some b ↔ d = .bool b := by
  cases d <;> simp [asBool]

theorem asBool_canon_map {d : JsonTree Lit} : asBool (d.map reading.number).canon = asBool d := by
  cases d <;> simp [JsonTree.map, JsonTree.canon, asBool]

/-- The object of the program is that of the document, in canonical form. -/
theorem object_of_fromSlice (h : serde.Lawful reading) {obj : List (String × JsonTree Number)}
    (hobj : serde.fromSlice body = some (.object obj)) :
    ∃ members, reading.document body = some (.object members) ∧
      .object obj = ((JsonTree.object members).map reading.number).canon ∧
      ∀ k, obj.lookup k =
        (members.reverse.lookup k).map fun d => (d.map reading.number).canon := by
  obtain ⟨d, hd, hcanon⟩ := h.fromSlice_sound _ _ hobj
  cases d with
  | object members =>
      refine ⟨members, hd, hcanon, fun k => ?_⟩
      rw [JsonTree.map, JsonTree.canon, JsonTree.mapMembers_eq, JsonTree.canonMembers_eq,
        List.map_map] at hcanon
      rw [JsonTree.object.inj hcanon, JsonTree.lookup_collect, ← List.map_reverse]
      exact JsonTree.lookup_map (fun d => (d.map reading.number).canon) members.reverse k
  | _ => simp [JsonTree.map, JsonTree.canon] at hcanon

/-- **Only a chat request for a stream is changed.** -/
theorem streaming_of_changed (h : serde.Lawful reading)
    (hchanged : injectIncludeUsage http contentType serde method path headers body ≠ body) :
    Streaming http contentType reading method path headers body := by
  obtain hsame | ⟨hmethod, hpath, hjson, obj, hobj, hstream, hoptions, -⟩ :=
    injectIncludeUsage_cases http contentType serde method path headers body
  · exact absurd hsame hchanged
  · obtain ⟨members, hdocument, -, hlookup⟩ := object_of_fromSlice h hobj
    refine ⟨hmethod, hpath, hjson, members, hdocument, ?_, ?_⟩
    · rw [hlookup] at hstream
      cases hlast : members.reverse.lookup "stream" with
      | none => simp [hlast] at hstream
      | some d =>
          rw [hlast, Option.map_some, Option.bind_some, asBool_canon_map] at hstream
          rw [asBool_eq_some.1 hstream]
    · intro hmem
      obtain ⟨p, hp, hkey⟩ := List.mem_map.1 hmem
      rw [hlookup, Option.map_eq_none_iff, List.lookup_eq_none_iff] at hoptions
      simpa [hkey] using hoptions p (List.mem_reverse.2 hp)

/-- A body that has the wish is not changed. -/
theorem injectIncludeUsage_of_options (h : serde.Lawful reading)
    {members : List (String × JsonTree Lit)}
    (hdocument : reading.document body = some (.object members))
    (hoptions : "stream_options" ∈ members.map Prod.fst) :
    injectIncludeUsage http contentType serde method path headers body = body := by
  by_contra hchanged
  obtain ⟨members', hdocument', -, hnone⟩ := (streaming_of_changed h hchanged).document
  rw [hdocument] at hdocument'
  cases hdocument'
  exact hnone hoptions

/-- The document of a changed body, and what it says. -/
theorem meaning_of_changed (h : serde.Lawful reading) {d : JsonTree Lit}
    (hd : reading.document body = some d) (hheld : reading.Held d)
    (hchanged : injectIncludeUsage http contentType serde method path headers body ≠ body) :
    ∃ members d', reading.meaning d = .object members ∧ members.lookup "stream_options" = none ∧
      reading.document (injectIncludeUsage http contentType serde method path headers body) =
        some d' ∧
      reading.meaning d' = .object (JsonTree.insert "stream_options" includeUsage members) := by
  obtain hsame | ⟨-, -, -, obj, hobj, -, hoptions, hprint⟩ :=
    injectIncludeUsage_cases http contentType serde method path headers body
  · exact absurd hsame hchanged
  · obtain ⟨members, hdocument, hcanon, -⟩ := object_of_fromSlice h hobj
    rw [hd] at hdocument
    cases hdocument
    have hmeaning : reading.meaning (.object members) =
        .object (obj.map fun p => (p.1, p.2.map (reading.val ∘ reading.text))) := by
      have hmap := congrArg (JsonTree.map (reading.val ∘ reading.text)) hcanon
      rw [← JsonTree.canon_map, JsonTree.map_map, Function.comp_assoc, hheld] at hmap
      rw [Reading.meaning, ← hmap, JsonTree.map, JsonTree.mapMembers_eq]
    refine ⟨_, _, hmeaning, ?_, h.document_toVec _ _ hprint, ?_⟩
    · rw [JsonTree.lookup_map, hoptions]
      rfl
    · have hstays : (reading.meaning (.object members)).canon = reading.meaning (.object members) :=
        JsonTree.canon_canon _
      rw [hmeaning] at hstays
      rw [Reading.meaning, JsonTree.map_map, JsonTree.map, JsonTree.mapMembers_eq,
        JsonTree.map_insert, JsonTree.canon_insert hstays]
      rfl

/-- **The wish is added, and nothing else.**  Only a chat request for a stream that makes no choice
of its own is changed.  What its body says then is what it said before, with the wish.  A second
pass changes nothing. -/
theorem injectIncludeUsage_preserves (h : serde.Lawful reading) (method : Method)
    (path : List Char) (headers : Map) (body : Bytes) :
    (injectIncludeUsage http contentType serde method path headers body ≠ body →
      Streaming http contentType reading method path headers body) ∧
    (∀ d, reading.document body = some d → reading.Held d →
      injectIncludeUsage http contentType serde method path headers body ≠ body →
      ∃ members d', reading.meaning d = .object members ∧
        members.lookup "stream_options" = none ∧
        reading.document (injectIncludeUsage http contentType serde method path headers body) =
          some d' ∧
        reading.meaning d' = .object (JsonTree.insert "stream_options" includeUsage members)) ∧
    injectIncludeUsage http contentType serde method path headers
        (injectIncludeUsage http contentType serde method path headers body) =
      injectIncludeUsage http contentType serde method path headers body := by
  refine ⟨streaming_of_changed h, fun d hd hheld => meaning_of_changed h hd hheld, ?_⟩
  obtain hsame | ⟨-, -, -, obj, -, -, -, hprint⟩ :=
    injectIncludeUsage_cases http contentType serde method path headers body
  · rw [hsame]
    exact hsame
  · refine injectIncludeUsage_of_options h (h.document_toVec _ _ hprint) ?_
    rw [JsonTree.mapMembers_eq, List.map_map]
    exact JsonTree.mem_keys_insert.2 (.inl rfl)

end

/-! ### A request -/

/-- A request for a stream. -/
def streamBody : Bytes := Utf8.encode "\x7b\x22stream\x22:true,\x22n\x22:2\x7d".toList

/-- The request with the wish. -/
def wishBody : Bytes :=
  Utf8.encode ("\x7b\x22n\x22:2,\x22stream\x22:true,".toList ++
    "\x22stream_options\x22:\x7b\x22include_usage\x22:true\x7d\x7d".toList)

/-- The documents of the two bodies.  The program holds their numbers. -/
def twoBodies : Reading ℤ ℤ where
  document := fun body =>
    if body = streamBody then some (.object [("stream", .bool true), ("n", .number 2)])
    else if body = wishBody then
      some (.object [("n", .number 2), ("stream", .bool true), ("stream_options", includeUsage)])
    else none
  number := id
  text := id
  val := Int.cast

/-- A parser of the two bodies and a printer of the second one. -/
def twoBodiesSerde : Serde ℤ where
  fromSlice := fun body => (twoBodies.document body).map fun d => (d.map id).canon
  toVec
    | .object [("n", .number 2), ("stream", .bool true),
        ("stream_options", .object [("include_usage", .bool true)])] => some wishBody
    | _ => none

theorem twoBodiesSerde_lawful : twoBodiesSerde.Lawful twoBodies where
  fromSlice_sound := by
    intro body v h
    obtain ⟨d, hd, rfl⟩ := Option.map_eq_some_iff.1 h
    exact ⟨d, hd, rfl⟩
  document_toVec := by
    intro v body h
    dsimp only [twoBodiesSerde] at h
    split at h
    · cases h
      rfl
    · cases h

/-- The headers of a request with a JSON body. -/
def jsonHeaders : HeaderMap :=
  received HeaderMap.entryMap [("content-type", "application/json; charset=utf-8")]

/-- Add the wish to a chat request with a JSON body. -/
def inject (body : Bytes) : Bytes :=
  injectIncludeUsage HeaderMap.entryMap "content-type" twoBodiesSerde .post
    "/v1/chat/completions".toList jsonHeaders body

theorem inject_streamBody : inject streamBody = wishBody := by
  decide +kernel

theorem injectIncludeUsage_preserves_streamBody :
    ∃ members d', twoBodies.meaning (.object [("stream", .bool true), ("n", .number 2)]) =
        .object members ∧
      members.lookup "stream_options" = none ∧ twoBodies.document (inject streamBody) = some d' ∧
      twoBodies.meaning d' = .object (JsonTree.insert "stream_options" includeUsage members) :=
  (injectIncludeUsage_preserves twoBodiesSerde_lawful .post "/v1/chat/completions".toList
    jsonHeaders streamBody).2.1 _ rfl rfl (by
      change inject streamBody ≠ streamBody
      rw [inject_streamBody]
      decide +kernel)

/-- The members of the new body stand in the order of their keys. -/
theorem not_keepsMembers : ¬ KeepsMembers twoBodies streamBody (inject streamBody) := by
  intro h
  rw [inject_streamBody] at h
  obtain ⟨members', hdocument, -, hsame⟩ := h _ rfl
  have hwish : twoBodies.document wishBody = some (.object [("n", .number 2),
    ("stream", .bool true), ("stream_options", includeUsage)]) := rfl
  rw [hwish] at hdocument
  cases hdocument
  rw [JsonTree.mapMembers_eq, JsonTree.mapMembers_eq] at hsame
  have hkeys := congrArg (List.map Prod.fst) hsame
  simp at hkeys

end Metering

end Hekma
