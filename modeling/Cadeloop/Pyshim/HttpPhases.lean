import Cadeloop.Pyshim.HttpHead
import Cadeloop.Reasoning.Machine

/-!
# The phases of a response

What the messages of one request have put on the wire, phase by phase: a head that a reader frames
in one of four ways, and behind it what is sent of the body and the trailers.  An accepted message
leads from phase to phase.
-/

namespace Cadeloop.Pyshim.Http

open Cadeloop.Reasoning
open Rfc7230 (Field Framing Legal Response crlf chunk fieldLine framing readBody readResponse strip
  values)

/-! ## 1. Sessions -/

-- a message, and the second in which it is sent
abbrev Send := Nat × Message

structure Session where
  conn : HttpConn
  wire : Bytes
  -- the messages that were not rejected
  accepted : List Message

def Session.step (s : Session) (m : Send) : Session :=
  let r := processSend m.1 s.conn m.2
  { conn := r.conn
    wire := s.wire ++ r.enqueued.flatten
    accepted := match r.result with
      | .ok _ => s.accepted ++ [m.2]
      | .error _ => s.accepted }

/-- The messages of one request, on a connection in any state before it. -/
def sessions (c : HttpConn) (keepAlive head : Bool) (minor : Nat) : Machine Session Send :=
  ⟨⟨c.startRequest keepAlive head minor, [], []⟩, Session.step⟩

def Accepted (s : Session) (m : Send) : Prop := (processSend m.1 s.conn m.2).result = .ok ()

-- what the accepted messages say, whatever their order
def statusOf : List Message → Nat
  | .start (some status) _ _ :: _ => status.toNat
  | _ => 0

def bodyOf (ms : List Message) : Bytes :=
  ms.flatMap fun m => match m with | .body body _ => body | _ => []

def trailersOf (ms : List Message) : List Field :=
  ms.flatMap fun m => match m with | .trailers headers _ => headers | _ => []

theorem statusOf_append {ms : List Message} (h : ms ≠ []) (more : List Message) :
    statusOf (ms ++ more) = statusOf ms := by
  cases ms with
  | nil => exact absurd rfl h
  | cons m ms =>
    cases m with
    | start status headers trailers => cases status <;> rfl
    | _ => rfl

theorem bodyOf_append (ms more : List Message) : bodyOf (ms ++ more) = bodyOf ms ++ bodyOf more :=
  List.flatMap_append

theorem trailersOf_append (ms more : List Message) :
    trailersOf (ms ++ more) = trailersOf ms ++ trailersOf more := List.flatMap_append

/-! ## 2. Framings of a head -/

section Framings

variable {head : Bool} {status : Nat} {fields : List Field}

theorem lower_read (fields : List Field) (name : Bytes) :
    values name (fields.map Field.read) = [] ↔ values name fields = [] := by
  rw [Rfc7230.values_read, List.map_eq_nil_iff]

theorem forbids_iff {status : Nat} : statusForbidsBody status = true ↔
    (100 ≤ status ∧ status < 200) ∨ status = 204 ∨ status = 304 := by
  simp only [statusForbidsBody, Bool.or_eq_true, Bool.and_eq_true, decide_eq_true_eq, or_assoc]

theorem framing_empty (h : (head || statusForbidsBody status) = true) :
    framing head status fields = some .empty := by
  rw [Bool.or_eq_true, forbids_iff] at h
  exact if_pos h

variable (h : (head || statusForbidsBody status) = false)

include h

theorem not_selfFramed :
    ¬ (head = true ∨ (100 ≤ status ∧ status < 200) ∨ status = 204 ∨ status = 304) := by
  rw [← forbids_iff, ← Bool.or_eq_true, h]
  exact Bool.false_ne_true

theorem framing_length (huncoded : values transferEncodingName fields = []) {n : Nat}
    (hne : values contentLengthName fields ≠ [])
    (hall : ∀ v ∈ values contentLengthName fields, readNumeral 10 (strip v) = some n) :
    framing head status (fields.map Field.read) = some (.length n) := by
  have hcoding : values (ascii "transfer-encoding") (fields.map Field.read) = [] :=
    (lower_read _ _).mpr huncoded
  have hlength : values (ascii "content-length") (fields.map Field.read) ≠ [] := fun h =>
    hne ((lower_read _ _).mp h)
  rw [framing, if_neg (not_selfFramed h), if_neg (not_not_intro hcoding), if_pos hlength,
    Rfc7230.agreed_of_all hlength]
  · rfl
  · rw [Rfc7230.values_read]
    intro v hv
    obtain ⟨w, hw, rfl⟩ := List.mem_map.mp hv
    exact hall w hw

theorem framing_close (huncoded : values transferEncodingName fields = [])
    (hundeclared : values contentLengthName fields = []) :
    framing head status (fields.map Field.read) = some .close := by
  have hcoding : values (ascii "transfer-encoding") (fields.map Field.read) = [] :=
    (lower_read _ _).mpr huncoded
  have hlength : values (ascii "content-length") (fields.map Field.read) = [] :=
    (lower_read _ _).mpr hundeclared
  rw [framing, if_neg (not_selfFramed h), if_neg (not_not_intro hcoding),
    if_neg (not_not_intro hlength)]

theorem framing_chunked (hcoded : values transferEncodingName fields = [ascii "chunked"]) :
    framing head status (fields.map Field.read) = some .chunked := by
  have hcoding : values (ascii "transfer-encoding") (fields.map Field.read) = [ascii "chunked"] := by
    rw [Rfc7230.values_read]
    change (values transferEncodingName fields).map strip = _
    rw [hcoded]
    decide
  rw [framing, if_neg (not_selfFramed h), if_pos (by rw [hcoding]; simp), hcoding]
  exact if_pos (by decide)

end Framings

/-! ## 3. What is on the wire, phase by phase -/

/-- A head that a reader frames as `f` is on the wire, and after it `payload`. -/
structure Opened (c : HttpConn) (ms : List Message) (wire : Bytes) (f : Framing) (payload : Bytes) :
    Prop where
  begun : ms ≠ []
  low : 200 ≤ statusOf ms
  high : statusOf ms ≤ 999
  bodyless : c.respBodyless = statusForbidsBody (statusOf ms)
  empty : c.respEmpty = statusRequiresEmptyBody (statusOf ms)
  head : ∃ fields, (∀ x ∈ fields, Legal x) ∧
    framing c.activeHead (statusOf ms) (fields.map Field.read) = some f ∧
    wire = headBytes c.activeMinor (statusOf ms) fields ++ crlf ++ payload

/-- `payload` is the chunks of `body`. -/
def Chunked (body payload : Bytes) : Prop :=
  ∃ chunks : List Bytes, (∀ x ∈ chunks, x ≠ []) ∧ chunks.flatten = body ∧
    payload = chunks.flatMap chunk

/-- What is sent of a body before its end. -/
def Flow (c : HttpConn) (body payload : Bytes) : Framing → Prop
  | .empty => c.headReq = true ∧ payload = []
  | .length n =>
    (c.headReq = true ∧ n = 0 ∧ payload = []) ∨
      (c.headReq = false ∧ c.rawStream = true ∧ c.respDeclaredLength = some n ∧ n < 2 ^ 64 ∧
        c.respBodySent = min body.length (2 ^ 64 - 1) ∧ payload = body)
  | .close =>
    c.headReq = false ∧ c.rawStream = true ∧ c.respDeclaredLength = none ∧ c.keepAlive = false ∧
      payload = body
  | .chunked =>
    c.headReq = false ∧ c.rawStream = false ∧ c.respDeclaredLength = none ∧ Chunked body payload

-- the one way for a body to miss its content-length: the counter stopped at its end
def Saturated (c : HttpConn) (body : Bytes) : Prop :=
  c.headReq = false ∧ c.respDeclaredLength = some (2 ^ 64 - 1) ∧ 2 ^ 64 - 1 < body.length

/-- What is sent of a response that is done. -/
def Complete (c : HttpConn) (body payload : Bytes) (trailers : List Field) : Framing → Prop
  | .empty => c.headReq = true ∧ payload = [] ∧ trailers = []
  | .length n => trailers = [] ∧
    ((c.headReq = true ∧ n = 0 ∧ payload = []) ∨
      (c.headReq = false ∧ payload = body ∧ (body.length = n ∨ Saturated c body) ∧
        ∀ declared, c.respDeclaredLength = some declared → n = declared))
  | .close => c.headReq = false ∧ c.respDeclaredLength = none ∧ c.keepAlive = false ∧
    payload = body ∧ trailers = []
  | .chunked => c.headReq = false ∧ c.respDeclaredLength = none ∧ (∀ t ∈ trailers, Legal t) ∧
    ∃ data, Chunked body data ∧
      payload = data ++ (ascii "0\r\n" ++ trailers.flatMap fieldLine ++ crlf)

/-- Where the response stands after the messages `ms`, with `wire` sent. -/
def Phase (c : HttpConn) (ms : List Message) (wire : Bytes) : Prop :=
  match c.resp with
  | .idle => ms = [] ∧ wire = [] ∧ c.trailersStarted = false
  | .started => ms ≠ [] ∧ bodyOf ms = [] ∧ trailersOf ms = [] ∧ wire = [] ∧
    c.trailersStarted = false ∧ ∃ fields, Head c (statusOf ms) fields ∧
      c.respHead = headBytes c.activeMinor (statusOf ms) fields
  | .streaming => trailersOf ms = [] ∧ c.trailersStarted = false ∧
    ∃ f payload, Opened c ms wire f payload ∧ Flow c (bodyOf ms) payload f
  | .awaitingTrailers => c.headReq = false ∧ c.respDeclaredLength = none ∧
    (∀ t ∈ trailersOf ms, Legal t) ∧ (c.trailersStarted = false → trailersOf ms = []) ∧
    ∃ data, Chunked (bodyOf ms) data ∧ Opened c ms wire .chunked
      (if c.trailersStarted then data ++ (ascii "0\r\n" ++ (trailersOf ms).flatMap fieldLine)
        else data)
  | .done => ∃ f payload, Opened c ms wire f payload ∧
    Complete c (bodyOf ms) payload (trailersOf ms) f

/-! ## 4. The first body message -/

theorem headBytes_append (minor status : Nat) (fields more : List Field) :
    headBytes minor status (fields ++ more) =
      headBytes minor status fields ++ more.flatMap fieldLine := by
  rw [headBytes, headBytes, List.flatMap_append, List.append_assoc, List.append_assoc,
    List.append_assoc]

theorem Head.open {c : HttpConn} {status : Nat} {fields more : List Field} {f : Framing}
    (h : Head c status fields) {ms : List Message} (hms : ms ≠ []) (hstatus : statusOf ms = status)
    (hmore : ∀ x ∈ more, Legal x)
    (hf : framing c.activeHead status ((fields ++ more).map Field.read) = some f) (payload : Bytes) :
    Opened c ms (headBytes c.activeMinor status fields ++ more.flatMap fieldLine ++ crlf ++
      payload) f payload := by
  subst hstatus
  refine ⟨hms, h.low, h.high, h.bodyless, h.empty, fields ++ more, fun x hx => ?_, hf,
    by rw [headBytes_append]⟩
  rcases List.mem_append.mp hx with hx | hx
  · exact h.legal x hx
  · exact hmore x hx

-- the fields the first body message may add
def lengthField (n : Nat) : Field := (contentLengthName, numeral 10 n)

def keepAliveField : Field := (ascii "connection", ascii "keep-alive")

def chunkedField : Field := (transferEncodingName, ascii "chunked")

def announced (c : HttpConn) : List Field :=
  if c.activeMinor = 0 ∧ c.keepAlive = true ∧ c.respAppConnection = false then [keepAliveField]
  else []

theorem announceKeepAlive10_eq (c : HttpConn) (out : Bytes) :
    announceKeepAlive10 c out = out ++ (announced c).flatMap fieldLine := by
  unfold announceKeepAlive10 announced
  split
  · rw [List.flatMap_singleton,
      show ascii "connection: keep-alive\r\n" = fieldLine keepAliveField by decide]
  · rw [List.flatMap_nil, List.append_nil]

theorem announced_legal (c : HttpConn) : ∀ x ∈ announced c, Legal x := by
  unfold announced
  split
  · intro x hx
    rw [List.mem_singleton.mp hx]
    exact .of_all (by decide) (by decide) (by decide)
  · intro x hx
    cases hx

theorem lengthField_legal (n : Nat) : Legal (lengthField n) where
  nonempty := (by decide : contentLengthName ≠ [])
  name := List.all_eq_true.mp (by decide : contentLengthName.all Rfc7230.tchar = true)
  value := numeral_valueByte n

theorem chunkedField_legal : Legal chunkedField :=
  .of_all (by decide) (by decide) (by decide)

-- the announcement frames nothing
theorem values_announced {name : Bytes} (hname : ascii "connection" ≠ name) (fields : List Field)
    (c : HttpConn) : values name (fields ++ announced c) = values name fields := by
  unfold announced
  split
  · exact values_concat_of_ne (by
      rw [show lower keepAliveField.1 = ascii "connection" by decide]
      exact hname)
  · rw [List.append_nil]

theorem strip_numeral (n : Nat) : strip (numeral 10 n) = numeral 10 n := by
  have hdigit : ∀ d < 10, ¬ Rfc7230.ows (digitByte d) = true := by decide
  have hnot : ∀ b ∈ numeral 10 n, ¬ Rfc7230.ows b = true := by
    intro b hb
    obtain ⟨d, hd, rfl⟩ := mem_numeral (by decide) hb
    exact hdigit d hd
  have hdrop : (numeral 10 n).dropWhile Rfc7230.ows = numeral 10 n := by
    cases hcase : numeral 10 n with
    | nil => rfl
    | cons b bs =>
      rw [List.dropWhile_cons_of_neg]
      exact hnot b (by rw [hcase]; exact List.mem_cons_self)
  rw [strip, trim, hdrop, List.rdropWhile_eq_self_iff]
  exact fun hne => hnot _ (List.getLast_mem hne)

section FirstBody

variable {c : HttpConn} {status : Nat} {fields : List Field}

theorem Head.headReq_eq (h : Head c status fields) : c.headReq =
    ((c.activeHead || statusForbidsBody status) || statusRequiresEmptyBody status) := by
  rw [HttpConn.headReq, h.bodyless, h.empty]

-- 205 is the one status whose empty body has to be framed
theorem Head.empty_of_headReq (h : Head c status fields) (hreq : c.headReq = true)
    (hself : (c.activeHead || statusForbidsBody status) = false) :
    c.respEmpty = true ∧ c.respBodyless = false ∧ c.respDeclaredLength = none := by
  rw [h.headReq_eq, hself, Bool.false_or] at hreq
  refine ⟨by rw [h.empty, hreq], ?_, ?_⟩
  · rw [h.bodyless]
    exact (Bool.or_eq_false_iff.mp hself).2
  · have hstatus : status = 205 := of_decide_eq_true hreq
    cases hdeclared : c.respDeclaredLength with
    | none => rfl
    | some n =>
      have hpermitted := h.permitted (by rw [hdeclared]; rfl)
      rw [hstatus] at hpermitted
      cases hpermitted

theorem Head.self_of_headReq (h : Head c status fields) (hreq : c.headReq = false) :
    (c.activeHead || statusForbidsBody status) = false := by
  rw [h.headReq_eq] at hreq
  exact (Bool.or_eq_false_iff.mp hreq).1

/-- The fields that frame a body sent in one message. -/
def wholeFields (c : HttpConn) (body : Bytes) : List Field :=
  (if !c.respStartedWithLength && !c.respBodyless then
    [lengthField (if c.respEmpty then 0 else body.length)] else []) ++ announced c

theorem wholeFields_legal (c : HttpConn) (body : Bytes) : ∀ x ∈ wholeFields c body, Legal x := by
  intro x hx
  rcases List.mem_append.mp hx with hx | hx
  · split at hx
    · rw [List.mem_singleton.mp hx]
      exact lengthField_legal _
    · cases hx
  · exact announced_legal c x hx

theorem Head.whole (h : Head c status fields) (body : Bytes) :
    ∃ f, framing c.activeHead status ((fields ++ wholeFields c body).map Field.read) = some f ∧
      ((c.headReq = true ∧ (f = .empty ∨ f = .length 0)) ∨
        (c.headReq = false ∧ ∃ n, f = .length n ∧ (c.respDeclaredLength = some n ∨
          (c.respDeclaredLength = none ∧ n = body.length)))) := by
  cases hself : c.activeHead || statusForbidsBody status with
  | true =>
    refine ⟨.empty, framing_empty hself, .inl ⟨?_, .inl rfl⟩⟩
    rw [h.headReq_eq, hself, Bool.true_or]
  | false =>
    have hnotBodyless : c.respBodyless = false := by
      rw [h.bodyless]
      exact (Bool.or_eq_false_iff.mp hself).2
    have huncoded : values transferEncodingName (fields ++ wholeFields c body) = [] := by
      rw [wholeFields, ← List.append_assoc, values_announced (by decide)]
      split
      · rw [values_concat_of_ne (by dsimp only [lengthField]; decide), h.uncoded]
      · rw [List.append_nil, h.uncoded]
    cases hdeclared : c.respDeclaredLength with
    | some n =>
      have hvalues : values contentLengthName (fields ++ wholeFields c body) =
          values contentLengthName fields := by
        rw [wholeFields, ← List.append_assoc, values_announced (by decide), h.started, hdeclared]
        simp
      obtain ⟨hne, hall⟩ := h.declares.agree n hdeclared
      refine ⟨.length n, framing_length hself huncoded (by rw [hvalues]; exact hne)
        (by rw [hvalues]; exact hall), .inr ⟨?_, n, rfl, .inl rfl⟩⟩
      cases hreq : c.headReq with
      | false => rfl
      | true =>
        obtain ⟨-, -, hnone⟩ := h.empty_of_headReq hreq hself
        rw [hdeclared] at hnone
        cases hnone
    | none =>
      have hvalues : values contentLengthName (fields ++ wholeFields c body) =
          [numeral 10 (if c.respEmpty then 0 else body.length)] := by
        have hgenerated : (!c.respStartedWithLength && !c.respBodyless) = true := by
          rw [h.started, hdeclared, hnotBodyless]
          rfl
        rw [wholeFields, ← List.append_assoc, values_announced (by decide), if_pos hgenerated,
          Rfc7230.values_append, h.declares.undeclared hdeclared, values_singleton,
          if_pos (by dsimp only [lengthField]; decide)]
        rfl
      refine ⟨.length (if c.respEmpty then 0 else body.length), framing_length hself huncoded
        (by rw [hvalues]; simp) ?_, ?_⟩
      · rw [hvalues]
        intro v hv
        rw [List.mem_singleton.mp hv, strip_numeral, readNumeral_numeral (by decide) (by decide)]
      · cases hreq : c.headReq with
        | true =>
          obtain ⟨hempty, -, -⟩ := h.empty_of_headReq hreq hself
          rw [hempty, if_pos rfl]
          exact .inl ⟨rfl, .inr rfl⟩
        | false =>
          have hempty : c.respEmpty = false := by
            unfold HttpConn.headReq at hreq
            exact (Bool.or_eq_false_iff.mp hreq).2
          rw [hempty, if_neg Bool.false_ne_true]
          exact .inr ⟨rfl, _, rfl, .inr ⟨rfl, rfl⟩⟩

/-- A body streamed as it comes: bodyless, under the length declared, or up to the close. -/
theorem Head.raw (h : Head c status fields) (hempty : c.respEmpty = false) (c' : HttpConn) :
    ∃ f, framing c.activeHead status ((fields ++ announced c').map Field.read) = some f ∧
      ((c.headReq = true ∧ f = .empty) ∨
        (c.headReq = false ∧ ∃ n, c.respDeclaredLength = some n ∧ f = .length n) ∨
        (c.headReq = false ∧ c.respDeclaredLength = none ∧ f = .close)) := by
  cases hself : c.activeHead || statusForbidsBody status with
  | true =>
    refine ⟨.empty, framing_empty hself, .inl ⟨?_, rfl⟩⟩
    rw [h.headReq_eq, hself, Bool.true_or]
  | false =>
    have hreq : c.headReq = false := by
      rw [h.headReq_eq, hself, ← h.empty, hempty, Bool.or_false]
    have huncoded : values transferEncodingName (fields ++ announced c') = [] := by
      rw [values_announced (by decide), h.uncoded]
    cases hdeclared : c.respDeclaredLength with
    | some n =>
      obtain ⟨hne, hall⟩ := h.declares.agree n hdeclared
      exact ⟨.length n, framing_length hself huncoded (by rwa [values_announced (by decide)])
        (by rwa [values_announced (by decide)]), .inr (.inl ⟨hreq, n, rfl, rfl⟩)⟩
    | none =>
      refine ⟨.close, framing_close hself huncoded ?_, .inr (.inr ⟨hreq, rfl, rfl⟩)⟩
      rw [values_announced (by decide), h.declares.undeclared hdeclared]

theorem Head.chunked (h : Head c status fields) (hreq : c.headReq = false) :
    framing c.activeHead status ((fields ++ [chunkedField]).map Field.read) = some .chunked := by
  apply framing_chunked (h.self_of_headReq hreq)
  rw [Rfc7230.values_append, h.uncoded, values_singleton,
    if_pos (show lower chunkedField.1 = transferEncodingName by decide)]
  rfl

def payloadOf (c : HttpConn) (body : Bytes) : Bytes := if c.headReq then [] else body

theorem payload_append (c : HttpConn) (out body : Bytes) :
    (if c.headReq then out else out ++ body) = out ++ payloadOf c body := by
  unfold payloadOf
  split
  · rw [List.append_nil]
  · rfl

theorem sendFirstBody_whole {body : Bytes} {more : Bool}
    (h : ((!more && !c.trailers) || c.respEmpty) = true) :
    sendFirstBody c body more =
      checked { c with respHead := [], respBodySent := if c.headReq then 0 else body.length } (!more)
        { c with
          respHead := []
          respBodySent := if c.headReq then 0 else body.length
          rawStream := if more then true else c.rawStream
          resp := if more then .streaming else .done }
        (c.respHead ++ (wholeFields c body).flatMap fieldLine ++ crlf ++ payloadOf c body) := by
  have hfields : announceKeepAlive10 { c with respHead := [] }
      (if !c.respStartedWithLength && !c.respBodyless then
        c.respHead ++ ascii "content-length: " ++
          numeral 10 (if c.respEmpty then 0 else body.length) ++ crlf
      else c.respHead) = c.respHead ++ (wholeFields c body).flatMap fieldLine := by
    rw [announceKeepAlive10_eq, wholeFields, List.flatMap_append, ← List.append_assoc]
    congr 1
    split
    · rw [List.flatMap_singleton, lengthField, fieldLine_eq,
        show ascii "content-length: " = contentLengthName ++ ascii ": " by decide]
      simp only [List.append_assoc]
    · rw [List.flatMap_nil, List.append_nil]
  unfold sendFirstBody
  dsimp only
  rw [if_pos h, hfields]
  change (if more = true then checked _ _ _ (if c.headReq then _ else _ ++ body) else
    checked _ _ _ (if c.headReq then _ else _ ++ body)) = _
  rw [payload_append]
  cases more <;> rfl

theorem sendFirstBody_raw {body : Bytes} {more : Bool}
    (h : ((!more && !c.trailers) || c.respEmpty) = false)
    (hraw : (!c.trailers && (c.respStartedWithLength || c.headReq || c.activeMinor = 0)) = true) :
    let keepAlive := c.keepAlive &&
      !decide (c.activeMinor = 0 ∧ c.respStartedWithLength = false ∧ c.headReq = false)
    sendFirstBody c body more =
      checked { c with respHead := [], keepAlive, respBodySent := body.length } false
        { c with
          respHead := []
          keepAlive
          respBodySent := body.length
          rawStream := true
          resp := .streaming }
        (c.respHead ++ (announced { c with keepAlive }).flatMap fieldLine ++ crlf ++
          payloadOf c body) := by
  intro keepAlive
  have hkeep : (if c.activeMinor = 0 ∧ c.respStartedWithLength = false ∧ c.headReq = false then
      { c with respHead := [], keepAlive := false } else { c with respHead := [] }) =
      { c with respHead := [], keepAlive } := by
    show _ = { c with respHead := [], keepAlive := c.keepAlive && !decide _ }
    split
    · rename_i hclose
      rw [decide_eq_true hclose, Bool.not_true, Bool.and_false]
    · rename_i hclose
      rw [decide_eq_false hclose, Bool.not_false, Bool.and_true]
  unfold sendFirstBody
  dsimp only
  rw [if_neg (Bool.eq_false_iff.mp h), if_pos hraw]
  change checked { (if c.activeMinor = 0 ∧ c.respStartedWithLength = false ∧ c.headReq = false then
    { c with respHead := [], keepAlive := false } else { c with respHead := [] }) with
      respBodySent := body.length } _ _ _ = _
  rw [hkeep, announceKeepAlive10_eq, payload_append]
  rfl

-- a chunk for a body that has bytes
def chunksOf (body : Bytes) : List Bytes := if body = [] then [] else [body]

theorem pushChunk_eq (out body : Bytes) : pushChunk out body = out ++ chunk body := by
  rw [pushChunk, chunk]
  simp only [List.append_assoc]

theorem chunked_chunksOf {body payload : Bytes} (h : Chunked body payload) (more : Bytes) :
    Chunked (body ++ more) (payload ++ (chunksOf more).flatMap chunk) := by
  obtain ⟨chunks, hne, hflat, hpayload⟩ := h
  refine ⟨chunks ++ chunksOf more, fun x hx => ?_, ?_, ?_⟩
  · rcases List.mem_append.mp hx with hx | hx
    · exact hne x hx
    · unfold chunksOf at hx
      split at hx
      · cases hx
      · rename_i hmore
        rw [List.mem_singleton.mp hx]
        exact hmore
  · rw [List.flatten_append, hflat]
    unfold chunksOf
    split
    · rename_i hmore
      rw [hmore]
      rfl
    · rw [List.flatten_singleton]
  · rw [List.flatMap_append, hpayload]

theorem sendFirstBody_chunked {body : Bytes} {more : Bool}
    (h : ((!more && !c.trailers) || c.respEmpty) = false)
    (hraw : (!c.trailers && (c.respStartedWithLength || c.headReq || c.activeMinor = 0)) = false) :
    sendFirstBody c body more =
      enqueue { c with
          respHead := []
          rawStream := false
          respBodySent := body.length
          resp := if more then .streaming else .awaitingTrailers }
        (c.respHead ++ [chunkedField].flatMap fieldLine ++ crlf ++
          (chunksOf body).flatMap chunk) := by
  have hfield : ascii "transfer-encoding: chunked\r\n\r\n" =
      [chunkedField].flatMap fieldLine ++ crlf := by decide
  have hchunks : (if body = [] then c.respHead ++ ascii "transfer-encoding: chunked\r\n\r\n"
      else pushChunk (c.respHead ++ ascii "transfer-encoding: chunked\r\n\r\n") body) =
      c.respHead ++ [chunkedField].flatMap fieldLine ++ crlf ++ (chunksOf body).flatMap chunk := by
    rw [hfield, pushChunk_eq, chunksOf]
    split
    · rw [List.flatMap_nil, List.append_nil, List.append_assoc]
    · rw [List.flatMap_singleton, List.flatMap_singleton, ← List.append_assoc]
  unfold sendFirstBody
  dsimp only
  rw [if_neg (Bool.eq_false_iff.mp h), if_neg (Bool.eq_false_iff.mp hraw), hchunks]

end FirstBody

/-! ## 5. One accepted message -/

theorem checked_ok {c next : HttpConn} {final : Bool} {out : Bytes}
    (h : (checked c final next out).result = .ok ()) :
    lengthMismatch c final = none ∧ checked c final next out = enqueue next out := by
  unfold checked at h ⊢
  split at h
  · cases h
  · rename_i hnone
    exact ⟨hnone, rfl⟩

theorem lengthMismatch_none_iff {c : HttpConn} {final : Bool} {n : Nat} (hreq : c.headReq = false)
    (hdeclared : c.respDeclaredLength = some n) :
    lengthMismatch c final = none ↔ c.respBodySent ≤ n ∧ (final = true → c.respBodySent = n) := by
  have hreq' : (c.activeHead || c.respBodyless || c.respEmpty) = false := hreq
  rw [lengthMismatch, hreq', if_neg Bool.false_ne_true, hdeclared]
  dsimp only
  split
  · rename_i hover
    exact ⟨fun h => (by cases h), fun h => absurd h.1 (Nat.not_le.mpr hover)⟩
  rename_i hover
  split
  · rename_i hshort
    rw [Bool.and_eq_true, decide_eq_true_eq] at hshort
    exact ⟨fun h => (by cases h), fun h => absurd (h.2 hshort.1) (Nat.ne_of_lt hshort.2)⟩
  · rename_i hshort
    refine ⟨fun _ => ⟨Nat.not_lt.mp hover, fun hfinal => ?_⟩, fun _ => rfl⟩
    rw [hfinal, Bool.true_and, decide_eq_true_eq] at hshort
    omega

theorem lengthMismatch_none {c : HttpConn} {final : Bool} (h : lengthMismatch c final = none)
    (hreq : c.headReq = false) {n : Nat} (hdeclared : c.respDeclaredLength = some n) :
    c.respBodySent ≤ n ∧ (final = true → c.respBodySent = n) :=
  (lengthMismatch_none_iff hreq hdeclared).mp h

theorem Opened.congr {c c' : HttpConn} {ms : List Message} {wire payload : Bytes} {f : Framing}
    (h : Opened c ms wire f payload) (hhead : c'.activeHead = c.activeHead)
    (hminor : c'.activeMinor = c.activeMinor) (hbodyless : c'.respBodyless = c.respBodyless)
    (hempty : c'.respEmpty = c.respEmpty) : Opened c' ms wire f payload := by
  obtain ⟨hsome, hlow, hhigh, hb, he, fields, hlegal, hf, hwire⟩ := h
  exact ⟨hsome, hlow, hhigh, by rw [hbodyless, hb], by rw [hempty, he], fields, hlegal,
    by rw [hhead, hf], by rw [hminor, hwire]⟩

/-- More bytes and messages behind an opened response. -/
theorem Opened.append {c : HttpConn} {ms : List Message} {wire payload : Bytes} {f : Framing}
    (h : Opened c ms wire f payload) (more : List Message) (out : Bytes) :
    Opened c (ms ++ more) (wire ++ out) f (payload ++ out) := by
  obtain ⟨hsome, hlow, hhigh, hb, he, fields, hlegal, hf, hwire⟩ := h
  have hstatus := statusOf_append hsome more
  refine ⟨by simp [hsome], by rw [hstatus]; exact hlow, by rw [hstatus]; exact hhigh,
    by rw [hstatus]; exact hb, by rw [hstatus]; exact he, fields, hlegal, by rw [hstatus]; exact hf,
    ?_⟩
  rw [hstatus, hwire, List.append_assoc]

-- waiters are no part of the response
theorem Phase.waiters {c : HttpConn} {ms : List Message} {wire : Bytes} (h : Phase c ms wire)
    (waiters : List Nat) : Phase { c with recvWaiters := waiters } ms wire := by
  unfold Phase at h ⊢
  dsimp only
  cases hresp : c.resp with
  | idle =>
    rw [hresp] at h
    exact h
  | started =>
    rw [hresp] at h
    obtain ⟨hms, hbody, htrailers, hwire, hts, fields, hhead, hrespHead⟩ := h
    exact ⟨hms, hbody, htrailers, hwire, hts, fields,
      ⟨hhead.low, hhead.high, hhead.legal, hhead.uncoded, hhead.declares, hhead.permitted,
        hhead.fits, hhead.started, hhead.bodyless, hhead.empty⟩, hrespHead⟩
  | streaming =>
    rw [hresp] at h
    obtain ⟨htrailers, hts, f, payload, hopened, hflow⟩ := h
    exact ⟨htrailers, hts, f, payload, hopened.congr rfl rfl rfl rfl, hflow⟩
  | awaitingTrailers =>
    rw [hresp] at h
    obtain ⟨hreq, hdeclared, hlegal, hts, data, hdata, hopened⟩ := h
    exact ⟨hreq, hdeclared, hlegal, hts, data, hdata, hopened.congr rfl rfl rfl rfl⟩
  | done =>
    rw [hresp] at h
    obtain ⟨f, payload, hopened, hcomplete⟩ := h
    exact ⟨f, payload, hopened.congr rfl rfl rfl rfl, hcomplete⟩

theorem enqueue_conn (c : HttpConn) (out : Bytes) :
    ∃ waiters, (enqueue c out).conn = { c with recvWaiters := waiters } := by
  unfold enqueue releaseAfterResponse
  dsimp only
  split
  · exact ⟨c.recvWaiters, rfl⟩
  · exact ⟨[], rfl⟩

theorem Phase.enqueue {c : HttpConn} {ms : List Message} {wire out : Bytes} (h : Phase c ms wire) :
    Phase (enqueue c out).conn ms wire := by
  obtain ⟨waiters, hconn⟩ := enqueue_conn c out
  rw [hconn]
  exact h.waiters waiters

theorem enqueue_flatten (c : HttpConn) (out : Bytes) : (enqueue c out).enqueued.flatten = out := by
  rw [Http.enqueue, List.flatten_singleton]

/-- The first body message, accepted. -/
theorem Phase.firstBody {c : HttpConn} {ms : List Message} {wire body : Bytes} {more : Bool}
    (h : Phase c ms wire) (hresp : c.resp = .started)
    (hok : (sendFirstBody c body more).result = .ok ()) :
    Phase (sendFirstBody c body more).conn (ms ++ [.body body more])
      (wire ++ (sendFirstBody c body more).enqueued.flatten) := by
  unfold Phase at h
  rw [hresp] at h
  obtain ⟨hms, hbody, htrailers, rfl, hts, fields, hhead, hrespHead⟩ := h
  have hstatus := statusOf_append hms [.body body more]
  have hms' : ms ++ [.body body more] ≠ [] := by simp
  have hbody' : bodyOf (ms ++ [.body body more]) = body := by
    rw [bodyOf_append, hbody]
    simp [bodyOf]
  have htrailers' : trailersOf (ms ++ [.body body more]) = [] := by
    rw [trailersOf_append, htrailers]
    rfl
  rw [List.nil_append]
  cases hwhole : ((!more && !c.trailers) || c.respEmpty) with
  | true =>
    obtain ⟨f, hf, hcases⟩ := hhead.whole body
    rw [sendFirstBody_whole hwhole] at hok ⊢
    obtain ⟨hlen, heq⟩ := checked_ok hok
    rw [heq, enqueue_flatten, hrespHead]
    apply Phase.enqueue
    unfold Phase
    cases more with
    | true =>
      -- only a 205 streams here, and nothing of it is sent
      have hempty : c.respEmpty = true := by simpa using hwhole
      have hreq : c.headReq = true := by rw [HttpConn.headReq, hempty, Bool.or_true]
      have hpayload : payloadOf c body = [] := if_pos hreq
      dsimp only
      rw [if_pos rfl, hpayload]
      refine ⟨htrailers', hts, f, [], (hhead.open hms' hstatus (wholeFields_legal c body) hf []).congr
        rfl rfl rfl rfl, ?_⟩
      rcases hcases with ⟨-, rfl | rfl⟩ | ⟨hno, -⟩
      · exact ⟨hreq, rfl⟩
      · exact .inl ⟨hreq, rfl, rfl⟩
      · rw [hreq] at hno
        cases hno
    | false =>
      dsimp only
      rw [if_neg Bool.false_ne_true]
      refine ⟨f, payloadOf c body, (hhead.open hms' hstatus (wholeFields_legal c body) hf _).congr
        rfl rfl rfl rfl, ?_⟩
      rw [hbody', htrailers']
      rcases hcases with ⟨hreq, hf⟩ | ⟨hreq, n, rfl, hn⟩
      · have hpayload : payloadOf c body = [] := if_pos hreq
        rw [hpayload]
        rcases hf with rfl | rfl
        · exact ⟨hreq, rfl, rfl⟩
        · exact ⟨rfl, .inl ⟨hreq, rfl, rfl⟩⟩
      · have hpayload : payloadOf c body = body := if_neg (by rw [hreq]; exact Bool.false_ne_true)
        rw [hpayload]
        refine ⟨rfl, .inr ⟨hreq, rfl, .inl ?_, fun declared hdeclared => ?_⟩⟩
        · rcases hn with hn | ⟨-, hn⟩
          · obtain ⟨-, hexact⟩ := lengthMismatch_none hlen hreq hn
            have hexact := hexact rfl
            dsimp only at hexact
            rwa [hreq, if_neg Bool.false_ne_true] at hexact
          · exact hn.symm
        · have hdeclared : c.respDeclaredLength = some declared := hdeclared
          rcases hn with hn | ⟨hn, -⟩
          · rw [hn] at hdeclared
            exact Option.some.inj hdeclared
          · rw [hn] at hdeclared
            cases hdeclared
  | false =>
    obtain ⟨hmore, hempty⟩ := Bool.or_eq_false_iff.mp hwhole
    cases hraw : (!c.trailers && (c.respStartedWithLength || c.headReq || c.activeMinor = 0)) with
    | true =>
      rw [sendFirstBody_raw hwhole hraw] at hok ⊢
      obtain ⟨hlen, heq⟩ := checked_ok hok
      rw [heq, enqueue_flatten, hrespHead]
      apply Phase.enqueue
      generalize hkeep : (c.keepAlive &&
        !decide (c.activeMinor = 0 ∧ c.respStartedWithLength = false ∧ c.headReq = false)) =
          keepAlive at hlen ⊢
      obtain ⟨f, hf, hcases⟩ := hhead.raw hempty { c with keepAlive }
      unfold Phase
      dsimp only
      refine ⟨htrailers', hts, f, payloadOf c body, (hhead.open hms' hstatus
        (announced_legal _) hf _).congr rfl rfl rfl rfl, ?_⟩
      rw [hbody']
      rcases hcases with ⟨hreq, rfl⟩ | ⟨hreq, n, hn, rfl⟩ | ⟨hreq, hn, rfl⟩
      · exact ⟨hreq, if_pos hreq⟩
      · have hpayload : payloadOf c body = body := if_neg (by rw [hreq]; exact Bool.false_ne_true)
        have hlt := hhead.fits n hn
        obtain ⟨hle, -⟩ := lengthMismatch_none hlen hreq hn
        have hle : body.length ≤ n := hle
        refine .inr ⟨hreq, rfl, hn, hlt, ?_, hpayload⟩
        show body.length = min body.length (2 ^ 64 - 1)
        omega
      · have hpayload : payloadOf c body = body := if_neg (by rw [hreq]; exact Bool.false_ne_true)
        refine ⟨hreq, rfl, hn, ?_, hpayload⟩
        have hstarted : c.respStartedWithLength = false := by rw [hhead.started, hn]; rfl
        have hminor : c.activeMinor = 0 := by
          rw [hstarted, hreq] at hraw
          simpa using (Bool.and_eq_true_iff.mp hraw).2
        show keepAlive = false
        rw [← hkeep, decide_eq_true ⟨hminor, hstarted, hreq⟩, Bool.not_true, Bool.and_false]
    | false =>
      -- trailers are promised, or nothing else ends the body
      obtain ⟨hreq, hnone⟩ : c.headReq = false ∧ c.respDeclaredLength = none := by
        have hstarted := hhead.started
        rw [HttpConn.trailers] at hraw
        cases hreq : c.headReq <;> cases hlength : c.respStartedWithLength <;>
          simp_all
      rw [sendFirstBody_chunked hwhole hraw] at hok ⊢
      rw [enqueue_flatten, hrespHead]
      apply Phase.enqueue
      have hf := hhead.chunked hreq
      have hdata : Chunked body ((chunksOf body).flatMap chunk) := by
        have hnew := chunked_chunksOf (⟨[], by simp, rfl, rfl⟩ : Chunked [] []) body
        rwa [List.nil_append, List.nil_append] at hnew
      have hopened := hhead.open hms' hstatus
        (fun x hx => by rw [List.mem_singleton.mp hx]; exact chunkedField_legal) hf
        ((chunksOf body).flatMap chunk)
      unfold Phase
      cases more with
      | true =>
        exact ⟨htrailers', hts, .chunked, _, hopened.congr rfl rfl rfl rfl, hreq, rfl, hnone,
          by rw [hbody']; exact hdata⟩
      | false =>
        refine ⟨hreq, hnone, by rw [htrailers']; simp, fun _ => htrailers', _,
          by rw [hbody']; exact hdata, ?_⟩
        dsimp only
        rw [hts, if_neg Bool.false_ne_true]
        exact hopened.congr rfl rfl rfl rfl

-- what a later body message adds, before any terminator
def nextData (c : HttpConn) (body : Bytes) : Bytes :=
  if c.headReq then [] else if c.rawStream then body else (chunksOf body).flatMap chunk

-- the body is chunked
def HttpConn.chunks (c : HttpConn) : Bool := !c.rawStream && !c.headReq

theorem sendNextBody_eq (c : HttpConn) (body : Bytes) (more : Bool) :
    sendNextBody c body more =
      checked { c with respBodySent := saturatingAdd c.respBodySent body.length } (!more)
        { c with
          respBodySent := saturatingAdd c.respBodySent body.length
          resp := if more then c.resp else if c.chunks && c.respTrailers then .awaitingTrailers
            else .done }
        (nextData c body ++
          if !more && c.chunks && !c.respTrailers then ascii "0\r\n\r\n" else []) := by
  have hdata : (if c.headReq then [] else if c.rawStream then body
      else if body = [] then [] else pushChunk [] body) = nextData c body := by
    unfold nextData chunksOf
    split
    · rfl
    split
    · rfl
    split
    · rfl
    · rw [pushChunk_eq, List.nil_append, List.flatMap_singleton]
  unfold sendNextBody
  dsimp only
  rw [hdata]
  unfold HttpConn.chunks
  cases more <;> cases c.rawStream <;> cases c.headReq <;> cases c.respTrailers <;> simp

theorem saturatingAdd_min (a b : Nat) :
    saturatingAdd (min a (2 ^ 64 - 1)) b = min (a + b) (2 ^ 64 - 1) := by
  unfold saturatingAdd
  omega

section NextBody

variable {c : HttpConn} {sofar payload : Bytes} {f : Framing}

theorem Flow.chunks_iff (h : Flow c sofar payload f) : c.chunks = true ↔ f = .chunked := by
  unfold HttpConn.chunks
  cases f with
  | empty => simp [h.1]
  | length n =>
    rcases h with ⟨hreq, -⟩ | ⟨hreq, hraw, -⟩
    · simp [hreq]
    · simp [hraw]
  | close => simp [h.2.1]
  | chunked => simp [h.1, h.2.1]

/-- More of the body is sent. -/
theorem Flow.next (h : Flow c sofar payload f) (body : Bytes) :
    Flow { c with respBodySent := saturatingAdd c.respBodySent body.length } (sofar ++ body)
      (payload ++ nextData c body) f := by
  cases f with
  | empty =>
    obtain ⟨hreq, rfl⟩ := h
    exact ⟨hreq, if_pos hreq⟩
  | length n =>
    rcases h with ⟨hreq, hn, rfl⟩ | ⟨hreq, hraw, hdeclared, hlt, hsent, rfl⟩
    · exact .inl ⟨hreq, hn, if_pos hreq⟩
    · refine .inr ⟨hreq, hraw, hdeclared, hlt, ?_, ?_⟩
      · show saturatingAdd c.respBodySent body.length = _
        rw [hsent, saturatingAdd_min, List.length_append]
      · rw [nextData, hreq, hraw, if_neg Bool.false_ne_true, if_pos rfl]
  | close =>
    obtain ⟨hreq, hraw, hdeclared, hkeep, rfl⟩ := h
    refine ⟨hreq, hraw, hdeclared, hkeep, ?_⟩
    rw [nextData, hreq, hraw, if_neg Bool.false_ne_true, if_pos rfl]
  | chunked =>
    obtain ⟨hreq, hraw, hdeclared, hchunked⟩ := h
    refine ⟨hreq, hraw, hdeclared, ?_⟩
    rw [nextData, hreq, hraw, if_neg Bool.false_ne_true, if_neg Bool.false_ne_true]
    exact chunked_chunksOf hchunked body

/-- A body that needs no terminator ends here. -/
theorem Flow.complete (h : Flow c sofar payload f) (hchunks : c.chunks = false)
    (hlen : lengthMismatch c true = none) : Complete c sofar payload [] f := by
  cases f with
  | empty => exact ⟨h.1, h.2, rfl⟩
  | length n =>
    refine ⟨rfl, ?_⟩
    rcases h with ⟨hreq, hn, hpayload⟩ | ⟨hreq, hraw, hdeclared, hlt, hsent, hpayload⟩
    · exact .inl ⟨hreq, hn, hpayload⟩
    · have hexact := (lengthMismatch_none hlen hreq hdeclared).2 rfl
      refine .inr ⟨hreq, hpayload, ?_, fun declared hd => ?_⟩
      · by_cases hle : sofar.length ≤ 2 ^ 64 - 1
        · left
          omega
        · right
          have hn : n = 2 ^ 64 - 1 := by omega
          exact ⟨hreq, by rw [hdeclared, hn], by omega⟩
      · rw [hdeclared] at hd
        exact Option.some.inj hd
  | close => exact ⟨h.1, h.2.2.1, h.2.2.2.1, h.2.2.2.2, rfl⟩
  | chunked =>
    rw [h.chunks_iff.mpr rfl] at hchunks
    cases hchunks

/-- A later body message, accepted. -/
theorem Phase.nextBody {ms : List Message} {wire body : Bytes} {more : Bool}
    (h : Phase c ms wire) (hresp : c.resp = .streaming)
    (hok : (sendNextBody c body more).result = .ok ()) :
    Phase (sendNextBody c body more).conn (ms ++ [.body body more])
      (wire ++ (sendNextBody c body more).enqueued.flatten) := by
  unfold Phase at h
  rw [hresp] at h
  obtain ⟨htrailers, hts, f, payload, hopened, hflow⟩ := h
  have hbody' : bodyOf (ms ++ [.body body more]) = bodyOf ms ++ body := by
    rw [bodyOf_append]
    simp [bodyOf]
  have htrailers' : trailersOf (ms ++ [.body body more]) = [] := by
    rw [trailersOf_append, htrailers]
    rfl
  rw [sendNextBody_eq] at hok ⊢
  obtain ⟨hlen, heq⟩ := checked_ok hok
  rw [heq, enqueue_flatten, ← List.append_assoc]
  apply Phase.enqueue
  have hnext := hflow.next body
  have hdata := hopened.append [.body body more] (nextData c body)
  cases more with
  | true =>
    rw [if_pos rfl, Bool.not_true, Bool.false_and, Bool.false_and, if_neg Bool.false_ne_true,
      List.append_nil]
    unfold Phase
    dsimp only
    rw [hresp]
    exact ⟨htrailers', hts, f, _, hdata.congr rfl rfl rfl rfl, by rw [hbody']; exact hnext⟩
  | false =>
    rw [if_neg Bool.false_ne_true, Bool.not_false, Bool.true_and]
    cases hchunks : c.chunks with
    | false =>
      rw [Bool.false_and, Bool.false_and, if_neg Bool.false_ne_true, if_neg Bool.false_ne_true,
        List.append_nil]
      refine ⟨f, _, hdata.congr rfl rfl rfl rfl, ?_⟩
      rw [hbody', htrailers']
      exact hnext.complete hchunks hlen
    | true =>
      obtain rfl := hflow.chunks_iff.mp hchunks
      obtain ⟨hreq, hraw, hdeclared, hchunked⟩ := hnext
      rw [Bool.true_and, Bool.true_and]
      cases hpromised : c.respTrailers with
      | true =>
        -- the terminator is withheld for the trailers
        rw [if_pos rfl, Bool.not_true, if_neg Bool.false_ne_true, List.append_nil]
        refine ⟨hreq, hdeclared, by rw [htrailers']; simp, fun _ => htrailers', _,
          by rw [hbody']; exact hchunked, ?_⟩
        dsimp only
        rw [hts, if_neg Bool.false_ne_true]
        exact hdata.congr rfl rfl rfl rfl
      | false =>
        rw [if_neg Bool.false_ne_true, Bool.not_false, if_pos rfl]
        have hend := hdata.append [] (ascii "0\r\n\r\n")
        rw [List.append_nil] at hend
        refine ⟨.chunked, _, hend.congr rfl rfl rfl rfl, ?_⟩
        rw [hbody', htrailers']
        refine ⟨hreq, hdeclared, by simp, _, hchunked, ?_⟩
        rw [show ascii "0\r\n\r\n" = ascii "0\r\n" ++ [].flatMap fieldLine ++ crlf by decide]

end NextBody

theorem trailerField_ok {acc out : Bytes} {t : Field} (h : trailerField acc t = .ok out) :
    Legal t ∧ out = acc ++ fieldLine t := by
  unfold trailerField at h
  split at h
  · cases h
  rename_i hvalid
  split at h
  · cases h
  injection h with h
  refine ⟨legal_of_valid hvalid, ?_⟩
  rw [← h, fieldLine_eq]
  simp only [List.append_assoc]

theorem trailerFields_ok {headers : List Field} {acc out : Bytes}
    (h : headers.foldlM trailerField acc = .ok out) :
    (∀ t ∈ headers, Legal t) ∧ out = acc ++ headers.flatMap fieldLine := by
  induction headers generalizing acc with
  | nil =>
    injection h with h
    exact ⟨by simp, by rw [← h, List.flatMap_nil, List.append_nil]⟩
  | cons t headers ih =>
    rw [List.foldlM_cons] at h
    cases ht : trailerField acc t with
    | error e =>
      rw [ht] at h
      cases h
    | ok acc' =>
      rw [ht] at h
      obtain ⟨hlegal, hacc⟩ := trailerField_ok ht
      obtain ⟨hrest, hout⟩ := ih h
      refine ⟨fun x hx => ?_, ?_⟩
      · rcases List.mem_cons.mp hx with rfl | hx
        · exact hlegal
        · exact hrest x hx
      · rw [hout, hacc, List.flatMap_cons, List.append_assoc]

/-- A trailers message, accepted. -/
theorem Phase.trailers {c : HttpConn} {ms : List Message} {wire : Bytes} {headers : List Field}
    {more : Bool} (h : Phase c ms wire) (hok : (sendTrailers c headers more).result = .ok ()) :
    Phase (sendTrailers c headers more).conn (ms ++ [.trailers headers more])
      (wire ++ (sendTrailers c headers more).enqueued.flatten) := by
  unfold sendTrailers at hok ⊢
  cases hfields : headers.foldlM trailerField [] with
  | error e =>
    rw [hfields] at hok
    cases hok
  | ok out =>
    rw [hfields] at hok
    dsimp only at hok ⊢
    by_cases hresp : c.resp = .awaitingTrailers
    swap
    · rw [if_pos hresp] at hok
      cases hok
    rw [if_neg (not_not_intro hresp)]
    obtain ⟨hnew, hout⟩ := trailerFields_ok hfields
    rw [List.nil_append] at hout
    subst hout
    unfold Phase at h
    rw [hresp] at h
    obtain ⟨hreq, hdeclared, hlegal, hts, data, hdata, hopened⟩ := h
    have hbody' : bodyOf (ms ++ [.trailers headers more]) = bodyOf ms := by
      rw [bodyOf_append]
      simp [bodyOf]
    have htrailers' : trailersOf (ms ++ [.trailers headers more]) = trailersOf ms ++ headers := by
      rw [trailersOf_append]
      simp [trailersOf]
    have hlegal' : ∀ t ∈ trailersOf ms ++ headers, Legal t := by
      intro t ht
      rcases List.mem_append.mp ht with ht | ht
      · exact hlegal t ht
      · exact hnew t ht
    -- the last chunk goes out with the first trailers message
    have hsent : (if c.trailersStarted then
          data ++ (ascii "0\r\n" ++ (trailersOf ms).flatMap fieldLine) else data) ++
        (if c.trailersStarted then headers.flatMap fieldLine
          else ascii "0\r\n" ++ headers.flatMap fieldLine) =
        data ++ (ascii "0\r\n" ++ (trailersOf ms ++ headers).flatMap fieldLine) := by
      rw [List.flatMap_append]
      split
      · simp only [List.append_assoc]
      · rename_i hnot
        rw [hts (Bool.eq_false_iff.mpr hnot), List.flatMap_nil, List.nil_append]
    have hopened' := hopened.append [.trailers headers more]
      (if c.trailersStarted then headers.flatMap fieldLine
        else ascii "0\r\n" ++ headers.flatMap fieldLine)
    rw [hsent] at hopened'
    cases more with
    | true =>
      rw [if_pos rfl, enqueue_flatten]
      apply Phase.enqueue
      unfold Phase
      dsimp only
      rw [hresp]
      refine ⟨hreq, hdeclared, by rw [htrailers']; exact hlegal', fun h => (by cases h), data,
        by rw [hbody']; exact hdata, ?_⟩
      rw [if_pos rfl, htrailers']
      exact hopened'.congr rfl rfl rfl rfl
    | false =>
      rw [if_neg Bool.false_ne_true, enqueue_flatten, ← List.append_assoc]
      apply Phase.enqueue
      have hend := hopened'.append [] crlf
      rw [List.append_nil] at hend
      refine ⟨.chunked, _, hend.congr rfl rfl rfl rfl, ?_⟩
      rw [hbody', htrailers']
      exact ⟨hreq, hdeclared, hlegal', data, hdata, by simp only [List.append_assoc]⟩

/-- An accepted start. -/
theorem Phase.start {c : HttpConn} {ms : List Message} {wire : Bytes} {unixSecs : Nat}
    {status : Option UInt16} {headers : List Field} {trailers : Bool} (h : Phase c ms wire)
    (hok : (sendStart unixSecs c status headers trailers).result = .ok ()) :
    Phase (sendStart unixSecs c status headers trailers).conn
      (ms ++ [.start status headers trailers])
      (wire ++ (sendStart unixSecs c status headers trailers).enqueued.flatten) := by
  obtain ⟨st, fields, rfl, hidle, hhead, hrespHead, hresp, -, hminor, hts, -, henqueued⟩ :=
    sendStart_ok hok
  unfold Phase at h
  rw [hidle] at h
  obtain ⟨rfl, rfl, htrailersStarted⟩ := h
  unfold Phase
  rw [hresp, henqueued]
  refine ⟨by simp, rfl, rfl, rfl, by rw [hts, htrailersStarted], fields, hhead, ?_⟩
  rw [hrespHead, hminor]
  rfl

/-- **One accepted message.** -/
theorem Phase.step {s : Session} (h : Phase s.conn s.accepted s.wire) {m : Send}
    (hok : Accepted s m) :
    Phase (s.step m).conn (s.step m).accepted (s.step m).wire ∧
      (s.step m).accepted = s.accepted ++ [m.2] := by
  obtain ⟨unixSecs, message⟩ := m
  have haccepted : (s.step (unixSecs, message)).accepted = s.accepted ++ [message] := by
    unfold Accepted at hok
    unfold Session.step
    dsimp only at hok ⊢
    rw [hok]
  refine ⟨?_, haccepted⟩
  rw [haccepted]
  cases message with
  | start status headers trailers => exact h.start hok
  | trailers headers more => exact h.trailers hok
  | other kind => cases hok
  | body body more =>
    unfold Accepted at hok
    unfold Session.step
    dsimp only [processSend] at hok ⊢
    unfold sendBody at hok ⊢
    cases hresp : s.conn.resp with
    | started =>
      rw [hresp] at hok
      exact h.firstBody hresp hok
    | streaming =>
      rw [hresp] at hok
      exact h.nextBody hresp hok
    | idle | awaitingTrailers | done =>
      rw [hresp] at hok
      cases hok

end Cadeloop.Pyshim.Http
