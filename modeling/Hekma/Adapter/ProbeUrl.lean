/-
**The URL of a probe** (`hekma-adapter-api/src/manifest.rs`, `domain/probe_kinds.rs`).

A manifest may declare an HTTP probe of the agent's own listener.  Its URL is parsed twice.  The
validation takes it only if it names a literal loopback address; the runner splits it again, by
rules of its own, and dials what it finds.

The runner ends the authority at a slash, the validation at a slash or a question mark; and the
runner takes a port without brackets only if it consists of digits, the validation if it can be
parsed, with a sign too.  A URL with such a query or port is admitted and never dialled.

Main definitions:

* `IpSyntax` — the parser of IP addresses;
* `requireLoopbackAuthority`, `admitUrl` — the validation;
* `splitHttpUrl`, `parseAuthority`, `httpTarget` — the runner;
* `Probed` — the runner dials what was validated, and asks for what stands behind it.

Main results:

* `admitUrl_eq_ok` — what the validation admits;
* `httpTarget_loopback` — the runner dials what was validated, or nothing;
* `probed_iff` — **when an admitted URL is probed**.
-/

import Hekma.Adapter.ManifestError

set_option relaxedAutoImplicit false
set_option autoImplicit false

namespace Hekma

namespace Adapter

open Checks (refuse bind_eq_ok refuse_eq_ok)
open Text (stripPrefix splitOnce rsplitOnce splitOnce_eq_some splitOnce_eq_none
  rsplitOnce_eq_some rsplitOnce_eq_none stripPrefix_eq_some)

/-! ### Addresses and ports -/

/-- The characters of a literal address. -/
def isLiteralChar (c : Char) : Bool :=
  c.isDigit || ('a' ≤ c && c ≤ 'f') || ('A' ≤ c && c ≤ 'F') || c = '.' || c = ':'

/-- The parser of IP addresses: it takes nothing that has another character. -/
structure IpSyntax (Ip : Type) where
  parse : List Char → Option Ip
  isLoopback : Ip → Bool
  display : Ip → String
  literal : ∀ s ip, parse s = some ip → s.all isLiteralChar = true

/-- `u16::from_str`: digits behind a sign that may be missing. -/
def parseU16 (s : List Char) : Option ℕ :=
  let digits := (stripPrefix ['+'] s).getD s
  let n := Nat.ofDigitChars 10 digits 0
  if digits ≠ [] ∧ digits.all Char.isDigit ∧ n ≤ 65535 then some n else none

/-! ### The validation -/

/-- The host of an authority and its port, if it has one. -/
def splitHostPort (authority : List Char) : Except String (List Char × Option (List Char)) :=
  match stripPrefix ['['] authority with
  | some rest =>
      match splitOnce ']' rest with
      | some (literal, tail) =>
          match stripPrefix [':'] tail with
          | some p => .ok (literal, some p)
          | none =>
              if tail.isEmpty then .ok (literal, none)
              else .error "has trailing characters after the bracketed host"
      | none => .error "opens a `[` bracket it never closes"
  | none =>
      match rsplitOnce ':' authority with
      | some (h, p) =>
          if h.contains ':' then .error "is a bare IPv6 literal — bracket it: [::1]"
          else .ok (h, some p)
      | none => .ok (authority, none)

section

variable {Ip : Type} (ip : IpSyntax Ip)

/-- The authority is a literal loopback address, with or without a port. -/
def requireLoopbackAuthority (authority url : List Char) (field what : String) :
    Except ManifestError Unit := do
  let shown := String.ofList url
  let refusal (why : String) : ManifestError :=
    .invalidField field (s!"'{shown}' {why} — the {what} URL must target a literal loopback " ++
      "address (e.g. 127.0.0.1 or [::1])")
  refuse (authority.contains '@')
    (refusal "carries userinfo; an authority is host[:port] only")
  let (host, port) ← (splitHostPort authority).mapError refusal
  let named := String.ofList host
  match ip.parse host with
  | none =>
      .error (refusal (s!"names host '{named}', which is not a literal IP address " ++
        "(hostnames — including `localhost` — would consult the machine's resolver)"))
  | some addr => do
      let dialled := ip.display addr
      refuse (!ip.isLoopback addr)
        (refusal s!"targets {dialled}, which is not a loopback address")
      match port with
      | none => .ok ()
      | some p =>
          let carried := String.ofList p
          refuse (!((parseU16 p).any fun n => 0 < n))
            (refusal s!"carries port '{carried}' — the port must be a decimal 1..=65535")

/-- The words of a section in its errors. -/
structure UrlWords where
  field : String
  controlChar : ManifestError
  target : String
  role : String
  action : String
  host : String

/-- The scheme a probe may have. -/
def scheme : List Char := "http://".toList

/-- What stands behind the scheme. -/
def afterScheme (url : List Char) : List Char := (stripPrefix scheme url).getD url

/-- The authority as the validation cuts it. -/
def validatedAuthority (url : List Char) : List Char :=
  (afterScheme url).takeWhile fun c => c ≠ '/' && c ≠ '?'

/-- The checks of a URL that both sections make. -/
def admitUrl (w : UrlWords) (url : List Char) : Except ManifestError Unit := do
  let shown := String.ofList url
  let aim := w.target
  let acts := w.action
  let names := w.host
  refuse (containsControlChar url) w.controlChar
  refuse (!scheme.isPrefixOf url)
    (.invalidField w.field (s!"'{shown}' is not an http:// URL — {aim}"))
  refuse (url.contains '#')
    (.invalidField w.field (s!"'{shown}' carries a `#fragment` — a fragment never reaches the " ++
      s!"wire, so the {acts} would not request the path the URL names; drop it"))
  refuse (validatedAuthority url).isEmpty
    (.invalidField w.field (s!"'{shown}' carries no host — {names}"))
  requireLoopbackAuthority ip (validatedAuthority url) url w.field w.role

/-! ### The runner -/

/-- The authority and the request target of a URL. -/
def splitHttpUrl (url : List Char) : Option (List Char × List Char) :=
  match stripPrefix scheme url with
  | none => none
  | some rest =>
      let authority := rest.takeWhile (· ≠ '/')
      let path := rest.dropWhile (· ≠ '/')
      if authority.isEmpty then none
      else some (authority, if path.isEmpty then ['/'] else path)

/-- The host and the text of the port of an authority. -/
def hostAndPort (authority : List Char) : Option (List Char × List Char) :=
  match stripPrefix ['['] authority with
  | some rest =>
      match splitOnce ']' rest with
      | none => none
      | some (host, rest) =>
          match stripPrefix [':'] rest with
          | some port => some (host, port)
          | none => if rest.isEmpty then some (host, []) else none
  | none =>
      match rsplitOnce ':' authority with
      | some (host, port) =>
          if port ≠ [] ∧ port.all Char.isDigit then some (host, port) else some (authority, [])
      | none => some (authority, [])

/-- The address and the port of an authority. -/
def parseAuthority (authority : List Char) : Option (Ip × ℕ) :=
  match hostAndPort authority with
  | none => none
  | some (host, portStr) =>
      match ip.parse host with
      | none => none
      | some addr =>
          match parseU16 portStr with
          | some port => some (addr, port)
          | none => if portStr.isEmpty then some (addr, 80) else none

/-- What an attempt connects to, and the request it sends. -/
structure HttpTarget (Ip : Type) where
  addr : Ip
  port : ℕ
  authority : List Char
  path : List Char

def HttpTarget.request {Ip : Type} (t : HttpTarget Ip) : List Char :=
  "GET ".toList ++ t.path ++ " HTTP/1.1\r\nHost: ".toList ++ t.authority ++
    "\r\nConnection: close\r\n\r\n".toList

def httpTarget (url : List Char) : Option (HttpTarget Ip) :=
  match splitHttpUrl url with
  | none => none
  | some (authority, path) =>
      (parseAuthority ip authority).map fun p => ⟨p.1, p.2, authority, path⟩

/-! ### What is admitted and what is probed -/

/-- The address and the port that the validation accepts. -/
def validatedEndpoint (authority : List Char) : Option (Ip × ℕ) :=
  match splitHostPort authority with
  | .error _ => none
  | .ok (host, port) => (ip.parse host).map fun addr => (addr, (port.bind parseU16).getD 80)

/-- The runner dials what was validated, and asks for what stands behind the authority, or for the
root if nothing does. -/
def Probed (url : List Char) : Prop :=
  ∃ addr port target, validatedEndpoint ip (validatedAuthority url) = some (addr, port) ∧
    ip.isLoopback addr = true ∧ url = scheme ++ (validatedAuthority url ++ target) ∧
    httpTarget ip url =
      some ⟨addr, port, validatedAuthority url, if target = [] then ['/'] else target⟩

/-- A query stands behind a path. -/
def PathBeforeQuery (url : List Char) : Prop :=
  '?' ∉ (afterScheme url).takeWhile (· ≠ '/')

/-- A port without brackets has no sign. -/
def PlainPort (authority : List Char) : Prop :=
  stripPrefix ['['] authority = none → ∀ host port,
    rsplitOnce ':' authority = some (host, port) → port.head? ≠ some '+'

/-- What the validation finds in an authority it accepts. -/
structure Loopback (authority : List Char) : Prop where
  nonempty : authority ≠ []
  found : ∃ host port addr, splitHostPort authority = .ok (host, port) ∧
    ip.parse host = some addr ∧ ip.isLoopback addr = true ∧
    ∀ p, port = some p → ∃ n, parseU16 p = some n

end

variable {Ip : Type} {ip : IpSyntax Ip} {w : UrlWords} {url authority rest p : List Char} {c : Char}

/-- **What the validation admits**: URLs with the scheme and a loopback address. -/
theorem admitUrl_eq_ok (h : admitUrl ip w url = .ok ()) :
    scheme <+: url ∧ Loopback ip (validatedAuthority url) := by
  simp only [admitUrl, bind_eq_ok, refuse_eq_ok, exists_and_left, exists_const] at h
  obtain ⟨-, hscheme, -, hempty, h⟩ := h
  refine ⟨List.isPrefixOf_iff_prefix.1 (by simpa using hscheme), ?_, ?_⟩
  · intro hnil
    rw [hnil] at hempty
    cases hempty
  · unfold requireLoopbackAuthority at h
    simp only [bind_eq_ok, refuse_eq_ok, exists_and_left, exists_const] at h
    obtain ⟨-, ⟨host, port⟩, hsplit, h⟩ := h
    cases hok : splitHostPort (validatedAuthority url) with
    | error e => rw [hok] at hsplit; cases hsplit
    | ok found =>
        rw [hok] at hsplit
        cases hsplit
        dsimp only at h
        cases haddr : ip.parse host with
        | none => rw [haddr] at h; cases h
        | some addr =>
            rw [haddr] at h
            simp only [bind_eq_ok, refuse_eq_ok, exists_and_left, exists_const] at h
            obtain ⟨hloopback, h⟩ := h
            refine ⟨host, port, addr, rfl, haddr, by simpa using hloopback, ?_⟩
            rintro p rfl
            simp only [refuse_eq_ok] at h
            cases hp : parseU16 p with
            | none => rw [hp] at h; cases h
            | some n => exact ⟨n, rfl⟩

/-! ### Ports -/

/-- A port consists of digits, behind a sign or not. -/
theorem digits_of_parseU16 {n : ℕ} (h : parseU16 p = some n) :
    p ≠ [] ∧ (p.head? = some '+' ∨ p.all Char.isDigit = true) ∧
      ∀ c ∈ p, c = '+' ∨ c.isDigit = true := by
  unfold parseU16 at h
  dsimp only at h
  cases hsign : stripPrefix ['+'] p with
  | none =>
      rw [hsign, Option.getD_none] at h
      split at h
      · rename_i hdigits
        refine ⟨hdigits.1, .inr hdigits.2.1, fun c hc => .inr ?_⟩
        exact List.all_eq_true.1 hdigits.2.1 c hc
      · cases h
  | some digits =>
      rw [hsign, Option.getD_some] at h
      obtain rfl := stripPrefix_eq_some.1 hsign
      split at h
      · rename_i hdigits
        refine ⟨List.cons_ne_nil _ _, .inl rfl, fun c hc => ?_⟩
        rcases List.mem_cons.1 hc with rfl | hc
        · exact .inl rfl
        · exact .inr (List.all_eq_true.1 hdigits.2.1 c hc)
      · cases h

/-! ### The runner and the validation -/

/-- Without a bracket, an authority with a character that belongs to no address is not dialled. -/
theorem parseAuthority_eq_none (hbracket : stripPrefix ['['] authority = none)
    (hc : c ∈ authority) (hcolon : c ≠ ':') (hdigit : c.isDigit = false)
    (hliteral : isLiteralChar c = false) :
    parseAuthority ip authority = none := by
  have hhost : ∀ host, c ∈ host → ip.parse host = none := by
    intro host hmem
    refine Option.eq_none_iff_forall_ne_some.2 fun addr haddr => ?_
    have hall := List.all_eq_true.1 (ip.literal host addr haddr) c hmem
    rw [hliteral] at hall
    cases hall
  unfold parseAuthority hostAndPort
  rw [hbracket]
  dsimp only
  cases hsplit : rsplitOnce ':' authority with
  | none => dsimp only; rw [hhost authority hc]
  | some found =>
      obtain ⟨host, port⟩ := found
      dsimp only
      by_cases hport : port ≠ [] ∧ port.all Char.isDigit = true
      · rw [if_pos hport]
        have hmem : c ∈ host := by
          rw [(rsplitOnce_eq_some.1 hsplit).1, List.mem_append, List.mem_cons] at hc
          rcases hc with hc | hc | hc
          · exact hc
          · exact absurd hc hcolon
          · have hall := List.all_eq_true.1 hport.2 c hc
            rw [hdigit] at hall
            cases hall
        dsimp only
        rw [hhost host hmem]
      · rw [if_neg hport]
        dsimp only
        rw [hhost authority hc]

/-- The port of the validation, and the text of it that the runner parses. -/
theorem parse_port {host : List Char} {port : Option (List Char)} {addr : Ip}
    (hport : ∀ p, port = some p → ∃ n, parseU16 p = some n) (haddr : ip.parse host = some addr)
    (hhost : hostAndPort authority = some (host, port.getD [])) :
    parseAuthority ip authority = some (addr, (port.bind parseU16).getD 80) := by
  rw [parseAuthority, hhost]
  dsimp only
  rw [haddr]
  cases port with
  | none => rfl
  | some p =>
      obtain ⟨n, hn⟩ := hport p rfl
      dsimp only [Option.getD_some, Option.bind_some]
      rw [hn]
      rfl

/-- The runner finds the address and the port that were validated, if the port is plain. -/
theorem parseAuthority_eq_validated (h : Loopback ip authority) (hplain : PlainPort authority) :
    parseAuthority ip authority = validatedEndpoint ip authority := by
  obtain ⟨host, port, addr, hsplit, haddr, -, hport⟩ := h.found
  have hvalidated : validatedEndpoint ip authority =
      some (addr, (port.bind parseU16).getD 80) := by
    rw [validatedEndpoint, hsplit]
    dsimp only
    rw [haddr, Option.map_some]
  rw [hvalidated]
  refine parse_port hport haddr ?_
  unfold splitHostPort at hsplit
  unfold hostAndPort
  cases hbracket : stripPrefix ['['] authority with
  | some rest =>
      rw [hbracket] at hsplit
      dsimp only at hsplit ⊢
      cases hclose : splitOnce ']' rest with
      | none => rw [hclose] at hsplit; cases hsplit
      | some found =>
          obtain ⟨literal, tail⟩ := found
          rw [hclose] at hsplit
          dsimp only at hsplit ⊢
          cases hcolon : stripPrefix [':'] tail with
          | some p => rw [hcolon] at hsplit; cases hsplit; rfl
          | none =>
              rw [hcolon] at hsplit
              dsimp only at hsplit ⊢
              split at hsplit
              · rename_i hempty
                cases hsplit
                rw [if_pos hempty]
                rfl
              · cases hsplit
  | none =>
      rw [hbracket] at hsplit
      dsimp only at hsplit ⊢
      cases hlast : rsplitOnce ':' authority with
      | none => rw [hlast] at hsplit; cases hsplit; rfl
      | some found =>
          obtain ⟨h', p⟩ := found
          rw [hlast] at hsplit
          dsimp only at hsplit ⊢
          split at hsplit
          · cases hsplit
          · cases hsplit
            obtain ⟨n, hn⟩ := hport p rfl
            obtain ⟨hne, hdigits, -⟩ := digits_of_parseU16 hn
            have hall := hdigits.resolve_left (hplain hbracket _ _ hlast)
            rw [if_pos ⟨hne, hall⟩]
            rfl

/-- Behind an authority that was validated, a query spoils it. -/
theorem parseAuthority_query (h : Loopback ip authority) (rest : List Char) :
    parseAuthority ip (authority ++ '?' :: rest) = none := by
  obtain ⟨host, port, addr, hsplit, -, -, hport⟩ := h.found
  cases hbracket : stripPrefix ['['] authority with
  | none =>
      refine parseAuthority_eq_none ?_ (List.mem_append_right _ List.mem_cons_self) (by decide)
        (by decide) (by decide)
      cases hauthority : authority with
      | nil => exact absurd hauthority h.nonempty
      | cons d more =>
          rw [hauthority, stripPrefix] at hbracket
          rw [List.cons_append, stripPrefix]
          split
          · rename_i hd
            rw [if_pos hd] at hbracket
            cases hbracket
          · rfl
  | some inner =>
      obtain rfl := stripPrefix_eq_some.1 hbracket
      unfold splitHostPort at hsplit
      rw [hbracket] at hsplit
      dsimp only at hsplit
      have hopen : stripPrefix ['['] (['['] ++ inner ++ '?' :: rest) =
          some (inner ++ '?' :: rest) := stripPrefix_eq_some.2 (List.append_assoc _ _ _)
      rw [parseAuthority, hostAndPort, hopen]
      dsimp only
      cases hclose : splitOnce ']' inner with
      | none => rw [hclose] at hsplit; cases hsplit
      | some found =>
          obtain ⟨literal, tail⟩ := found
          rw [hclose] at hsplit
          dsimp only at hsplit
          obtain ⟨hinner, hnone⟩ := splitOnce_eq_some.1 hclose
          have hcut : splitOnce ']' (inner ++ '?' :: rest) =
              some (literal, tail ++ '?' :: rest) := by
            refine splitOnce_eq_some.2 ⟨?_, hnone⟩
            rw [hinner, List.append_assoc, List.cons_append]
          rw [hcut]
          dsimp only
          cases hcolon : stripPrefix [':'] tail with
          | some p =>
              rw [hcolon] at hsplit
              cases hsplit
              obtain ⟨n, hn⟩ := hport p rfl
              have hcolon' : stripPrefix [':'] (tail ++ '?' :: rest) = some (p ++ '?' :: rest) := by
                refine stripPrefix_eq_some.2 ?_
                rw [stripPrefix_eq_some.1 hcolon, List.append_assoc]
              -- the query is no part of a port
              have hbad : parseU16 (p ++ '?' :: rest) = none := by
                refine Option.eq_none_iff_forall_ne_some.2 fun m hm => ?_
                have hmem : '?' ∈ p ++ '?' :: rest :=
                  List.mem_append_right _ List.mem_cons_self
                rcases (digits_of_parseU16 hm).2.2 '?' hmem with hq | hq
                · exact absurd hq (by decide)
                · exact absurd hq (by decide)
              rw [hcolon']
              dsimp only
              cases ip.parse host with
              | none => rfl
              | some a =>
                  dsimp only
                  rw [hbad]
                  simp
          | none =>
              rw [hcolon] at hsplit
              dsimp only at hsplit
              split at hsplit
              · rename_i hempty
                rw [List.isEmpty_iff.1 hempty, List.nil_append]
                rfl
              · cases hsplit

/-! ### Where the runner cuts a URL -/

/-- The runner's authority goes on where the authority that was validated ends. -/
theorem validatedAuthority_eq_takeWhile (url : List Char) :
    validatedAuthority url =
      ((afterScheme url).takeWhile (· ≠ '/')).takeWhile (· ≠ '?') := by
  rw [validatedAuthority, List.takeWhile_takeWhile]
  refine congrArg (fun p => (afterScheme url).takeWhile p) (funext fun c => ?_)
  by_cases hslash : c = '/' <;> by_cases hquery : c = '?' <;> simp [hslash, hquery]

/-- With a query behind a path, both cut the authority alike. -/
theorem takeWhile_of_pathBeforeQuery (h : PathBeforeQuery url) :
    (afterScheme url).takeWhile (· ≠ '/') = validatedAuthority url := by
  rw [validatedAuthority_eq_takeWhile]
  refine (List.takeWhile_eq_self_iff.2 fun c hc => ?_).symm
  refine decide_eq_true ?_
  rintro rfl
  exact h hc

/-- Without a path, the runner takes the query for a part of the authority. -/
theorem takeWhile_of_query (h : ¬ PathBeforeQuery url) :
    ∃ query, (afterScheme url).takeWhile (· ≠ '/') = validatedAuthority url ++ '?' :: query := by
  rw [validatedAuthority_eq_takeWhile]
  cases hcut : splitOnce '?' ((afterScheme url).takeWhile (· ≠ '/')) with
  | none => exact absurd (splitOnce_eq_none.1 hcut) h
  | some found =>
      obtain ⟨pre, query⟩ := found
      obtain ⟨heq, hpre⟩ := splitOnce_eq_some.1 hcut
      refine ⟨query, ?_⟩
      have hall : ∀ c ∈ pre, decide (c ≠ '?') = true := by
        intro c hc
        refine decide_eq_true ?_
        rintro rfl
        exact hpre hc
      have hstop : ('?' :: query).takeWhile (· ≠ '?') = [] := rfl
      rw [heq, List.takeWhile_append_of_pos hall, hstop, List.append_nil]

/-- What the runner makes of a URL with the scheme. -/
theorem splitHttpUrl_eq (h : scheme <+: url)
    (hne : (afterScheme url).takeWhile (· ≠ '/') ≠ []) :
    splitHttpUrl url = some ((afterScheme url).takeWhile (· ≠ '/'),
      let path := (afterScheme url).dropWhile (· ≠ '/')
      if path = [] then ['/'] else path) := by
  obtain ⟨rest, rfl⟩ := h
  have hstrip : stripPrefix scheme (scheme ++ rest) = some rest := Text.stripPrefix_append _ _
  rw [afterScheme, hstrip, Option.getD_some] at hne ⊢
  rw [splitHttpUrl, hstrip]
  dsimp only
  rw [if_neg (by simpa using hne)]
  simp only [List.isEmpty_iff]

/-- An admitted URL is the scheme, the authority of the runner and what stands behind it. -/
theorem scheme_append (h : scheme <+: url) :
    url = scheme ++ ((afterScheme url).takeWhile (· ≠ '/') ++
      (afterScheme url).dropWhile (· ≠ '/')) := by
  obtain ⟨rest, rfl⟩ := h
  rw [afterScheme, Text.stripPrefix_append, Option.getD_some, List.takeWhile_append_dropWhile]

/-- A port with a sign, outside brackets, is not dialled. -/
theorem parseAuthority_signed (h : ¬ PlainPort authority) :
    parseAuthority ip authority = none := by
  unfold PlainPort at h
  push Not at h
  obtain ⟨hbracket, host, port, hsplit, hsign⟩ := h
  refine parseAuthority_eq_none (c := '+') hbracket ?_ (by decide) (by decide) (by decide)
  rw [(rsplitOnce_eq_some.1 hsplit).1]
  exact List.mem_append_right _ (List.mem_cons_of_mem _ (List.mem_of_mem_head? hsign))

/-- With a query before any path, or a signed port, the runner finds no address. -/
theorem parseAuthority_refused (h : Loopback ip (validatedAuthority url))
    (hcond : ¬ (PathBeforeQuery url ∧ PlainPort (validatedAuthority url))) :
    parseAuthority ip ((afterScheme url).takeWhile (· ≠ '/')) = none := by
  by_cases hquery : PathBeforeQuery url
  · rw [takeWhile_of_pathBeforeQuery hquery]
    exact parseAuthority_signed fun hplain => hcond ⟨hquery, hplain⟩
  · obtain ⟨query, heq⟩ := takeWhile_of_query hquery
    rw [heq, parseAuthority_query h]

/-- What the runner dials is what it parsed. -/
theorem parseAuthority_of_httpTarget {t : HttpTarget Ip} (hscheme : scheme <+: url)
    (h : httpTarget ip url = some t) :
    parseAuthority ip ((afterScheme url).takeWhile (· ≠ '/')) = some (t.addr, t.port) := by
  unfold httpTarget at h
  by_cases hne : (afterScheme url).takeWhile (· ≠ '/') = []
  · obtain ⟨rest, rfl⟩ := hscheme
    rw [afterScheme, Text.stripPrefix_append, Option.getD_some] at hne
    rw [splitHttpUrl, Text.stripPrefix_append] at h
    dsimp only at h
    rw [hne] at h
    cases h
  · rw [splitHttpUrl_eq hscheme hne] at h
    obtain ⟨found, hfound, rfl⟩ := Option.map_eq_some_iff.1 h
    exact hfound

/-! ### Main results -/

/-- What was validated is a loopback address. -/
theorem validatedEndpoint_loopback (h : Loopback ip authority) :
    ∃ addr port, validatedEndpoint ip authority = some (addr, port) ∧
      ip.isLoopback addr = true := by
  obtain ⟨host, port, addr, hsplit, haddr, hloopback, -⟩ := h.found
  refine ⟨addr, (port.bind parseU16).getD 80, ?_, hloopback⟩
  rw [validatedEndpoint, hsplit]
  dsimp only
  rw [haddr, Option.map_some]

/-- **The runner dials what was validated, or nothing.** -/
theorem httpTarget_loopback (h : admitUrl ip w url = .ok ()) {t : HttpTarget Ip}
    (ht : httpTarget ip url = some t) :
    validatedEndpoint ip (validatedAuthority url) = some (t.addr, t.port) ∧
      ip.isLoopback t.addr = true := by
  obtain ⟨hscheme, hloopback⟩ := admitUrl_eq_ok h
  obtain ⟨addr, port, hvalid, haddr⟩ := validatedEndpoint_loopback hloopback
  have hparse := parseAuthority_of_httpTarget hscheme ht
  by_cases hcond : PathBeforeQuery url ∧ PlainPort (validatedAuthority url)
  · rw [takeWhile_of_pathBeforeQuery hcond.1,
      parseAuthority_eq_validated hloopback hcond.2] at hparse
    rw [hvalid] at hparse ⊢
    obtain ⟨rfl, rfl⟩ := Prod.mk.inj (Option.some.inj hparse)
    exact ⟨rfl, haddr⟩
  · rw [parseAuthority_refused hloopback hcond] at hparse
    cases hparse

/-- **When an admitted URL is probed**: a query stands behind a path, and a port without brackets
has no sign. -/
theorem probed_iff (h : admitUrl ip w url = .ok ()) :
    Probed ip url ↔ PathBeforeQuery url ∧ PlainPort (validatedAuthority url) := by
  obtain ⟨hscheme, hloopback⟩ := admitUrl_eq_ok h
  constructor
  · rintro ⟨addr, port, target, -, -, -, ht⟩
    have hparse := parseAuthority_of_httpTarget hscheme ht
    by_contra hcond
    rw [parseAuthority_refused hloopback hcond] at hparse
    cases hparse
  · intro hcond
    obtain ⟨addr, port, hvalid, haddr⟩ := validatedEndpoint_loopback hloopback
    have hcut := takeWhile_of_pathBeforeQuery hcond.1
    have hparse := parseAuthority_eq_validated hloopback hcond.2
    have hne : (afterScheme url).takeWhile (· ≠ '/') ≠ [] := by
      rw [hcut]
      exact hloopback.nonempty
    have hurl := scheme_append hscheme
    rw [hcut] at hurl
    refine ⟨addr, port, (afterScheme url).dropWhile (· ≠ '/'), hvalid, haddr, hurl, ?_⟩
    unfold httpTarget
    rw [splitHttpUrl_eq hscheme hne]
    dsimp only
    rw [hcut, hparse, hvalid]
    rfl

end Adapter

end Hekma
