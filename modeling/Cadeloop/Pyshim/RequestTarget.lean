import Cadeloop.Core.Http

/-!
# The request target (`crates/pyshim/src/http.rs`)

`build_scope` splits the target of a request into authority, path and query and decodes the path.
The authority of an absolute-form target takes the place of every Host header.  The scope's fields
that are not read off the request (`asgi`, `extensions`, `client`, `server`, `state`) and the
offered subprotocols are left out.
-/

namespace Cadeloop.Pyshim.RequestTarget

open Cadeloop.Reasoning
open Cadeloop.Core
open Cadeloop.Core.Ws (fromUtf8)

/-! ## 1. The source -/

def isAsciiAlphabetic (b : UInt8) : Bool :=
  (65 ≤ b.toNat ∧ b.toNat ≤ 90) ∨ (97 ≤ b.toNat ∧ b.toNat ≤ 122)

def isAsciiAlphanumeric (b : UInt8) : Bool :=
  isAsciiAlphabetic b ∨ (48 ≤ b.toNat ∧ b.toNat ≤ 57)

/-- ALPHA / DIGIT / "+" / "-" / "." -/
def isSchemeByte (b : UInt8) : Bool := isAsciiAlphanumeric b ∨ b = 43 ∨ b = 45 ∨ b = 46

/-- "/" / "?" / "#" -/
def endsAuthority (b : UInt8) : Bool := b = 47 ∨ b = 63 ∨ b = 35

/-- Drop any `userinfo@` prefix from an absolute-form authority. -/
def stripUserinfo (authority : Bytes) : Bytes :=
  match authority.findIdx? (· = 64) with
  | some i => authority.drop (i + 1)
  | none => authority

/-- The authority of an absolute-form target, and the target from its path on. -/
def absoluteFormParts (url : Bytes) : Option Bytes × Bytes :=
  if url.head? = some 47 then (none, url)
  else
    let schemeLen := (url.findIdx? fun b => !isSchemeByte b).getD url.length
    let isAbsolute := 0 < schemeLen ∧ url.head?.any isAsciiAlphabetic ∧
      (url.drop schemeLen).take 3 = ascii "://"
    if ¬ isAbsolute then
      -- asterisk-form keeps its target; authority-form has no path
      if url = ascii "*" then (none, ascii "*") else (none, ascii "/")
    else
      let rest := url.drop (schemeLen + 3)
      let parts :=
        match rest.findIdx? endsAuthority with
        | some i => (rest.take i, rest.drop i)
        | none => (rest, ascii "/")
      (some (stripUserinfo parts.1), parts.2)

/-- The loop of `percent_decode`: an escape that is cut short or has no hexadecimal digits stays. -/
def decodeLoop : Bytes → Bytes
  | 37 :: h :: l :: rest =>
    match digitValue h, digitValue l with
    | some hi, some lo => UInt8.ofNat (hi * 16 + lo) :: decodeLoop rest
    | _, _ => 37 :: decodeLoop (h :: l :: rest)
  | b :: rest => b :: decodeLoop rest
  | [] => []

def percentDecode (path : Bytes) : Bytes := if 37 ∉ path then path else decodeLoop path

/-- As UTF-8 where it is valid, else as latin-1. -/
def pathText (decoded : Bytes) : String :=
  match fromUtf8 decoded with
  | some s => s
  | none => String.ofList (decoded.map fun b => Char.ofNat b.toNat)

structure Scope where
  type : String
  httpVersion : String
  method : Option String
  scheme : String
  path : String
  rawPath : Bytes
  queryString : Bytes
  rootPath : String
  headers : List (Bytes × Bytes)

def scheme (ws tls : Bool) : String :=
  match ws, tls with
  | true, true => "wss"
  | true, false => "ws"
  | false, true => "https"
  | false, false => "http"

/-- The headers of the scope: the authority, if there is one, is the Host. -/
def scopeHeaders (authority : Option Bytes) (headers : List (Bytes × Bytes)) : List (Bytes × Bytes) :=
  match authority with
  | none => headers
  | some a =>
    headers.map (fun h => if h.1 = Http.host then (h.1, a) else h) ++
      if headers.any (·.1 = Http.host) then [] else [(Http.host, a)]

/-- Path and query. -/
def splitQuery (target : Bytes) : Bytes × Bytes :=
  match target.findIdx? (· = 63) with
  | some i => (target.take i, target.drop (i + 1))
  | none => (target, [])

def buildScope (req : Http.Request) (ws tls : Bool) : Scope :=
  let (authority, target) := absoluteFormParts req.url
  let (rawPath, query) := splitQuery target
  -- absolute-form with an empty path means "/"
  let rawPath := if rawPath = [] then ascii "/" else rawPath
  { type := if ws then "websocket" else "http"
    httpVersion := if req.httpMinor = 1 then "1.1" else "1.0"
    method := if ws then none else some req.method
    scheme := scheme ws tls
    path := pathText (percentDecode rawPath)
    rawPath
    queryString := query
    rootPath := ""
    headers := scopeHeaders authority req.headers }

/-! ## 2. Percent-encoding -/

/-- `e` writes `p` with each byte raw or as an escape; "%" and "?" are always escaped. -/
inductive Encodes : Bytes → Bytes → Prop where
  | nil : Encodes [] []
  | raw {b : UInt8} {p e : Bytes} : b ≠ 37 → b ≠ 63 → Encodes p e → Encodes (b :: p) (b :: e)
  | escaped {b h l : UInt8} {hi lo : Nat} {p e : Bytes} : digitValue h = some hi →
      digitValue l = some lo → b.toNat = hi * 16 + lo → Encodes p e →
      Encodes (b :: p) (37 :: h :: l :: e)

theorem decodeLoop_cons {b : UInt8} (hb : b ≠ 37) (rest : Bytes) :
    decodeLoop (b :: rest) = b :: decodeLoop rest := by
  rw [decodeLoop]
  intro h l rest' heq
  exact absurd heq hb

/-- Decoding undoes every encoding. -/
theorem Encodes.decode {p e : Bytes} (henc : Encodes p e) : decodeLoop e = p := by
  induction henc with
  | nil => rfl
  | raw hb _ _ ih => rw [decodeLoop_cons hb, ih]
  | escaped hh hl hb _ ih =>
    rw [decodeLoop, hh, hl]
    dsimp only
    rw [ih, ← hb, UInt8.ofNat_toNat]

/-- Without an escape the loop copies: it agrees with the fast path. -/
theorem decodeLoop_plain {b : Bytes} (hb : 37 ∉ b) : decodeLoop b = b := by
  induction b with
  | nil => rfl
  | cons c b ih =>
    have hc : 37 ≠ c := List.ne_of_not_mem_cons hb
    rw [decodeLoop_cons hc.symm, ih (List.not_mem_of_not_mem_cons hb)]

theorem percentDecode_loop (path : Bytes) : percentDecode path = decodeLoop path := by
  unfold percentDecode
  by_cases hplain : 37 ∉ path
  · rw [if_pos hplain, decodeLoop_plain hplain]
  · rw [if_neg hplain]

/-- A hexadecimal digit is no "?". -/
theorem digitValue_ne {b : UInt8} {d : Nat} (h : digitValue b = some d) : b ≠ 63 := by
  rintro rfl
  have hnone : digitValue 63 = none := by decide
  rw [hnone] at h
  cases h

theorem Encodes.no_query {p e : Bytes} (henc : Encodes p e) : 63 ∉ e := by
  induction henc with
  | nil => exact List.not_mem_nil
  | raw _ hq _ ih => exact List.not_mem_cons_of_ne_of_not_mem (Ne.symm hq) ih
  | escaped hh hl _ _ ih =>
    apply List.not_mem_cons_of_ne_of_not_mem (by decide)
    apply List.not_mem_cons_of_ne_of_not_mem (digitValue_ne hh).symm
    exact List.not_mem_cons_of_ne_of_not_mem (digitValue_ne hl).symm ih

/-! ## 3. Splitting -/

/-- The first byte that meets `p` is the one that was put there. -/
theorem findIdx?_first {p : UInt8 → Bool} {before : Bytes} (hbefore : ∀ b ∈ before, p b = false)
    {b : UInt8} (hb : p b = true) (rest : Bytes) :
    (before ++ b :: rest).findIdx? p = some before.length := by
  induction before with
  | nil => rw [List.nil_append, List.findIdx?_cons, if_pos hb, List.length_nil]
  | cons c before ih =>
    have hc : ¬ p c = true := by
      rw [hbefore c List.mem_cons_self]
      decide
    rw [List.cons_append, List.findIdx?_cons, if_neg hc,
      ih fun b hb => hbefore b (List.mem_cons_of_mem c hb)]
    rfl

theorem findIdx?_absent {p : UInt8 → Bool} {bs : Bytes} (h : ∀ b ∈ bs, p b = false) :
    bs.findIdx? p = none := List.findIdx?_eq_none_iff.mpr h

def queryPart (query : Option Bytes) : Bytes :=
  match query with
  | some q => 63 :: q
  | none => []

/-- A path without "?" and a query part come apart again. -/
theorem splitQuery_queryPart {e : Bytes} (he : 63 ∉ e) (query : Option Bytes) :
    splitQuery (e ++ queryPart query) = (e, query.getD []) := by
  have hbefore : ∀ b ∈ e, decide (b = 63) = false := fun b hb =>
    decide_eq_false fun heq => he (heq ▸ hb)
  unfold splitQuery
  cases query with
  | none =>
    rw [queryPart, List.append_nil, findIdx?_absent hbefore]
    rfl
  | some q =>
    rw [queryPart, findIdx?_first hbefore (decide_eq_true rfl)]
    simp

/-- A scheme: a letter, then letters, digits, "+", "-" and ".". -/
structure Scheme (s : Bytes) : Prop where
  first : s.head?.any isAsciiAlphabetic
  bytes : ∀ b ∈ s, isSchemeByte b = true

/-- Text of an authority without "/", "?", "#" and "@". -/
def Plain (bs : Bytes) : Prop := ∀ b ∈ bs, endsAuthority b = false ∧ b ≠ 64

def userinfoPart (userinfo : Option Bytes) : Bytes :=
  match userinfo with
  | some u => u ++ [64]
  | none => []

/-- scheme "://" [ userinfo "@" ] host -/
def authorityForm (scheme : Bytes) (userinfo : Option Bytes) (a : Bytes) : Bytes :=
  scheme ++ ascii "://" ++ (userinfoPart userinfo ++ a)

theorem stripUserinfo_host {userinfo : Option Bytes} (huserinfo : ∀ u ∈ userinfo, Plain u) {a : Bytes}
    (ha : Plain a) : stripUserinfo (userinfoPart userinfo ++ a) = a := by
  have hnone : ∀ {bs : Bytes}, Plain bs → ∀ b ∈ bs, decide (b = 64) = false := fun hplain b hb =>
    decide_eq_false (hplain b hb).2
  unfold stripUserinfo
  cases userinfo with
  | none => rw [userinfoPart, List.nil_append, findIdx?_absent (hnone ha)]
  | some u =>
    have hsplit : userinfoPart (some u) ++ a = u ++ 64 :: a := by simp [userinfoPart]
    rw [hsplit, findIdx?_first (hnone (huserinfo u rfl)) (decide_eq_true rfl)]
    simp

/-- The parts of an absolute-form target whose path starts with "/". -/
theorem absoluteFormParts_absolute {scheme : Bytes} (hscheme : Scheme scheme) {userinfo : Option Bytes}
    (huserinfo : ∀ u ∈ userinfo, Plain u) {a : Bytes} (ha : Plain a) (target : Bytes) :
    absoluteFormParts (authorityForm scheme userinfo a ++ 47 :: target) = (some a, 47 :: target) := by
  obtain ⟨c, cs, rfl⟩ : ∃ c cs, scheme = c :: cs := by
    cases scheme with
    | nil => exact absurd hscheme.first (by decide)
    | cons c cs => exact ⟨c, cs, rfl⟩
  have hletter : isAsciiAlphabetic c = true := hscheme.first
  have hurl : authorityForm (c :: cs) userinfo a ++ 47 :: target =
      (c :: cs) ++ 58 :: (47 :: 47 :: (userinfoPart userinfo ++ a ++ 47 :: target)) := by
    simp [authorityForm, ascii]
  rw [hurl]
  have hslash : ((c :: cs) ++ 58 :: (47 :: 47 :: (userinfoPart userinfo ++ a ++ 47 :: target))).head? ≠
      some 47 := by
    intro heq
    injection heq with heq
    rw [heq] at hletter
    exact absurd hletter (by decide)
  -- the scheme ends at the colon
  have hlen : ((c :: cs) ++ 58 :: (47 :: 47 :: (userinfoPart userinfo ++ a ++ 47 :: target))).findIdx?
      (fun b => !isSchemeByte b) = some (c :: cs).length := by
    apply findIdx?_first
    · intro b hb
      rw [hscheme.bytes b hb]
      rfl
    · decide
  -- and the authority at the path
  have hplain : ∀ b ∈ userinfoPart userinfo ++ a, endsAuthority b = false := by
    intro b hb
    rcases List.mem_append.mp hb with hb | hb
    · cases userinfo with
      | none => cases hb
      | some u =>
        rcases List.mem_append.mp hb with hb | hb
        · exact (huserinfo u rfl b hb).1
        · rw [List.mem_singleton.mp hb]
          decide
    · exact (ha b hb).1
  unfold absoluteFormParts
  rw [if_neg hslash, hlen]
  have hafter : ((c :: cs) ++ 58 :: (47 :: 47 :: (userinfoPart userinfo ++ a ++ 47 :: target))).drop
      (c :: cs).length = 58 :: (47 :: 47 :: (userinfoPart userinfo ++ a ++ 47 :: target)) :=
    List.drop_left
  have hcolon : ascii "://" = [58, 47, 47] := by decide
  dsimp only [Option.getD_some]
  rw [← List.drop_drop, hafter, if_neg (not_not.mpr ⟨Nat.succ_pos _, hletter, hcolon.symm⟩)]
  have hrest : (58 :: (47 :: 47 :: (userinfoPart userinfo ++ a ++ 47 :: target))).drop 3 =
      userinfoPart userinfo ++ a ++ 47 :: target := rfl
  rw [hrest, findIdx?_first hplain (by decide)]
  dsimp only
  rw [List.take_left, List.drop_left, stripUserinfo_host huserinfo ha]

/-! ## 4. The round trip -/

/-- What the scope says of the target. -/
structure Resolves (scope : Scope) (p e : Bytes) (query : Option Bytes) : Prop where
  path : scope.path = pathText p
  rawPath : scope.rawPath = e
  queryString : scope.queryString = query.getD []

theorem buildScope_resolves (req : Http.Request) (ws tls : Bool) {p e : Bytes} (henc : Encodes p e)
    (hne : e ≠ []) {query : Option Bytes} {authority : Option Bytes}
    (hparts : absoluteFormParts req.url = (authority, e ++ queryPart query)) :
    Resolves (buildScope req ws tls) p e query ∧
      (buildScope req ws tls).headers = scopeHeaders authority req.headers := by
  have hsplit := splitQuery_queryPart henc.no_query query
  have hdecoded : percentDecode e = p := (percentDecode_loop e).trans henc.decode
  unfold buildScope
  rw [hparts]
  dsimp only
  rw [hsplit]
  dsimp only
  rw [if_neg hne, hdecoded]
  exact ⟨⟨rfl, rfl, rfl⟩, rfl⟩

/-- Every Host header is the authority, and there is one. -/
theorem scopeHeaders_host (a : Bytes) (headers : List (Bytes × Bytes)) :
    (∀ h ∈ scopeHeaders (some a) headers, h.1 = Http.host → h.2 = a) ∧
      ∃ h ∈ scopeHeaders (some a) headers, h.1 = Http.host := by
  unfold scopeHeaders
  dsimp only
  constructor
  · intro h hin hhost
    rcases List.mem_append.mp hin with hin | hin
    · obtain ⟨h', -, rfl⟩ := List.mem_map.mp hin
      by_cases hold : h'.1 = Http.host
      · rw [if_pos hold]
      · rw [if_neg hold] at hhost
        exact absurd hhost hold
    · split at hin
      · cases hin
      · rw [List.mem_singleton.mp hin]
  · by_cases hany : headers.any (fun h => decide (h.1 = Http.host)) = true
    · obtain ⟨h, hin, hhost⟩ := List.any_eq_true.mp hany
      have hhost := of_decide_eq_true hhost
      refine ⟨(h.1, a), List.mem_append_left _ (List.mem_map.mpr ⟨h, hin, if_pos hhost⟩), hhost⟩
    · rw [if_neg hany]
      exact ⟨(Http.host, a), List.mem_append_right _ (List.mem_singleton.mpr rfl), rfl⟩

/-- **Request-target round trip**, for a path whose first "/" is written raw: in origin form and in
absolute form the scope has the encoded path, the query and the decoded path; in absolute form its
Host headers are the host; and the decoder's fast path agrees with its loop. -/
theorem request_target_round_trip (req : Http.Request) (ws tls : Bool) {p e : Bytes}
    (henc : Encodes p e) (hroot : e.head? = some 47) (query : Option Bytes) :
    (req.url = e ++ queryPart query → Resolves (buildScope req ws tls) p e query) ∧
      (∀ scheme userinfo a, Scheme scheme → (∀ u ∈ userinfo, Plain u) → Plain a →
        req.url = authorityForm scheme userinfo a ++ (e ++ queryPart query) →
        Resolves (buildScope req ws tls) p e query ∧
          (∀ h ∈ (buildScope req ws tls).headers, h.1 = Http.host → h.2 = a) ∧
          ∃ h ∈ (buildScope req ws tls).headers, h.1 = Http.host) ∧
      ∀ bs : Bytes, 37 ∉ bs → percentDecode bs = decodeLoop bs := by
  obtain ⟨target, rfl⟩ := List.head?_eq_some_iff.mp hroot
  have hne : (47 :: target : Bytes) ≠ [] := List.cons_ne_nil _ _
  refine ⟨fun hurl => ?_, fun scheme userinfo a hscheme huserinfo ha hurl => ?_,
    fun bs _ => percentDecode_loop bs⟩
  · have hparts : absoluteFormParts req.url = (none, 47 :: target ++ queryPart query) := by
      rw [hurl]
      exact if_pos rfl
    exact (buildScope_resolves req ws tls henc hne hparts).1
  · have hparts : absoluteFormParts req.url = (some a, 47 :: target ++ queryPart query) := by
      rw [hurl]
      exact absoluteFormParts_absolute hscheme huserinfo ha (target ++ queryPart query)
    obtain ⟨hresolves, hheaders⟩ := buildScope_resolves req ws tls henc hne hparts
    rw [hheaders]
    exact ⟨hresolves, scopeHeaders_host a req.headers⟩

-- a GET of this target
def get (url : Bytes) : Http.Request :=
  { method := "GET", httpMinor := 1, keepAlive := true, upgrade := false, url
    headers := [(Http.host, ascii "proxy")], body := [] }

/-- Userinfo, an escape at the end of the path, and a Host header that is overridden. -/
theorem request_target_round_trip_userinfo :
    let scope := buildScope (get (ascii "http://u@h:80/%c3%A9?x=1")) false false
    Resolves scope [47, 195, 169] (ascii "/%c3%A9") (some (ascii "x=1")) ∧
      (∀ h ∈ scope.headers, h.1 = Http.host → h.2 = ascii "h:80") ∧
      ∃ h ∈ scope.headers, h.1 = Http.host := by
  have henc : Encodes [47, 195, 169] [47, 37, 99, 51, 37, 65, 57] :=
    .raw (by decide) (by decide)
      (.escaped (show digitValue 99 = some 12 by decide) (show digitValue 51 = some 3 by decide)
        (by decide)
        (.escaped (show digitValue 65 = some 10 by decide) (show digitValue 57 = some 9 by decide)
          (by decide) .nil))
  have hround := request_target_round_trip (get (ascii "http://u@h:80/%c3%A9?x=1")) false false henc rfl
    (some (ascii "x=1"))
  refine hround.2.1 (ascii "http") (some (ascii "u")) (ascii "h:80") ⟨by decide +kernel, by decide +kernel⟩
    ?_ ?_ (by decide +kernel)
  · intro u hu
    injection hu with hu
    subst hu
    unfold Plain
    decide +kernel
  · unfold Plain
    decide +kernel

/-- A path whose first "/" is escaped is no origin-form target, and its path is lost. -/
theorem escaped_root_lost :
    ¬ ∀ (req : Http.Request) (p e : Bytes) (query : Option Bytes), Encodes p e → p.head? = some 47 →
      req.url = e ++ queryPart query → (buildScope req false false).rawPath = e := by
  intro h
  have henc : Encodes [47] [37, 50, 70] :=
    .escaped (show digitValue 50 = some 2 by decide) (show digitValue 70 = some 15 by decide)
      (by decide) .nil
  have hlost : (buildScope (get [37, 50, 70]) false false).rawPath ≠ [37, 50, 70] := by
    decide
  exact hlost (h (get [37, 50, 70]) [47] [37, 50, 70] none henc rfl rfl)

end Cadeloop.Pyshim.RequestTarget
