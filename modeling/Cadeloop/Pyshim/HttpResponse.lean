import Cadeloop.Pyshim.HttpPhases

/-!
# Responses

What the messages of one request put on the wire is, once the response is done, read back as
exactly one response: its body the body messages', its trailers the trailer messages'.
-/

namespace Cadeloop.Pyshim.Http

open Cadeloop.Reasoning
open Rfc7230 (Field Framing Legal Response chunk crlf fieldLine readBody readResponse)

/-! ## 1. What is read back -/

/-- The body a client is to see. -/
def HttpConn.visible (c : HttpConn) (body : Bytes) : Bytes := if c.headReq then [] else body

theorem readBody_complete {c : HttpConn} {body payload : Bytes} {trailers : List Field} {f : Framing}
    (h : Complete c body payload trailers f) (hexact : ¬ Saturated c body) (next : Bytes)
    (hnext : f = .close → next = []) :
    readBody f (payload ++ next) =
      some (c.visible body, trailers.map Field.read, next) := by
  cases f with
  | empty =>
    obtain ⟨hreq, rfl, rfl⟩ := h
    rw [HttpConn.visible, if_pos hreq]
    rfl
  | length n =>
    obtain ⟨rfl, ⟨hreq, rfl, rfl⟩ | ⟨hreq, rfl, hn, -⟩⟩ := h
    · rw [HttpConn.visible, if_pos hreq, readBody, if_pos (Nat.zero_le _)]
      rfl
    · have hn := hn.resolve_right hexact
      rw [HttpConn.visible, hreq, if_neg Bool.false_ne_true, readBody, ← hn, List.take_left,
        List.drop_left, if_pos (by rw [List.length_append]; omega)]
      rfl
  | close =>
    obtain ⟨hreq, -, -, rfl, rfl⟩ := h
    rw [hnext rfl, List.append_nil, HttpConn.visible, hreq, if_neg Bool.false_ne_true]
    rfl
  | chunked =>
    obtain ⟨hreq, -, hlegal, data, ⟨chunks, hne, rfl, rfl⟩, rfl⟩ := h
    have hpos : ∀ x : Bytes, 0 < (chunk x).length := fun x => by
      simp [Rfc7230.chunk, Rfc7230.crlf]
    have hfuel : chunks.length < (chunks.flatMap chunk ++
        (ascii "0\r\n" ++ trailers.flatMap fieldLine ++ crlf ++ next)).length + 1 := by
      have hle := Rfc7230.length_le_flatMap hpos chunks
      rw [List.length_append]
      omega
    rw [HttpConn.visible, hreq, if_neg Bool.false_ne_true, readBody, List.append_assoc]
    exact Rfc7230.readChunks_chunks hne hlegal hfuel next

/-- The bytes of a response are read as one response with this body and these trailers; unless it
ends with the connection, whatever comes next is left alone. -/
structure Delivered (head : Bool) (c : HttpConn) (ms : List Message) (wire : Bytes) (r : Response) :
    Prop where
  read : readResponse head wire = some (r, [])
  next : r.framing ≠ .close → ∀ next, readResponse head (wire ++ next) = some (r, next)
  status : r.status = statusOf ms
  body : r.body = if head || statusForbidsBody (statusOf ms) ||
    statusRequiresEmptyBody (statusOf ms) then [] else bodyOf ms
  trailers : r.trailers = (trailersOf ms).map Field.read
  close : r.framing = .close → c.keepAlive = false
  length : ∀ n, c.respDeclaredLength = some n → c.headReq = false → r.body.length = n

/-- A response opened on the wire is read as what follows its head. -/
theorem Opened.read {c : HttpConn} {ms : List Message} {wire payload : Bytes} {f : Framing}
    (h : Opened c ms wire f payload) : ∃ fields, ∀ next body trailers rest,
      readBody f (payload ++ next) = some (body, trailers, rest) →
      readResponse c.activeHead (wire ++ next) =
        some (⟨statusOf ms, fields, f, body, trailers⟩, rest) := by
  obtain ⟨-, hlow, hhigh, -, -, fields, hlegal, hf, hwire⟩ := h
  refine ⟨fields.map Field.read, fun next body trailers rest hbody => ?_⟩
  have hsplit : wire ++ next = statusLine c.activeMinor (statusOf ms) ++ crlf ++
      (fields.flatMap fieldLine ++ crlf ++ (payload ++ next)) := by
    rw [hwire, headBytes]
    simp only [List.append_assoc]
  rw [hsplit]
  exact Rfc7230.readResponse_written (statusLine_no_cr _ _)
    (readStatusLine_statusLine (by omega) hhigh) hlegal hf hbody

theorem Phase.delivered {c : HttpConn} {ms : List Message} {wire : Bytes} (h : Phase c ms wire)
    (hdone : c.resp = .done) (hexact : ¬ Saturated c (bodyOf ms)) :
    ∃ r, Delivered c.activeHead c ms wire r := by
  unfold Phase at h
  rw [hdone] at h
  obtain ⟨f, payload, hopened, hcomplete⟩ := h
  obtain ⟨fields, hopenedRead⟩ := hopened.read
  have hbodyless := hopened.bodyless
  have hempty := hopened.empty
  have hread : ∀ next, (f = .close → next = []) → readResponse c.activeHead (wire ++ next) =
      some (⟨statusOf ms, fields, f, c.visible (bodyOf ms), (trailersOf ms).map Field.read⟩,
        next) :=
    fun next hnext => hopenedRead _ _ _ _ (readBody_complete hcomplete hexact next hnext)
  refine ⟨_, ?_, fun hclose next => hread next fun h => absurd h hclose, rfl, ?_, rfl, ?_, ?_⟩
  · have hnil := hread [] fun _ => rfl
    rwa [List.append_nil] at hnil
  · rw [← hbodyless, ← hempty]
    rfl
  · rintro rfl
    exact hcomplete.2.2.1
  · intro n hn hreq
    have hvisible : c.visible (bodyOf ms) = bodyOf ms := if_neg (by rw [hreq]; exact Bool.false_ne_true)
    show (c.visible (bodyOf ms)).length = n
    rw [hvisible]
    cases f with
    | empty =>
      rw [hcomplete.1] at hreq
      cases hreq
    | length m =>
      obtain ⟨-, ⟨hyes, -⟩ | ⟨-, -, hlen, hsame⟩⟩ := hcomplete
      · rw [hyes] at hreq
        cases hreq
      · rw [hlen.resolve_right hexact, hsame n hn]
    | close =>
      rw [hcomplete.2.1] at hn
      cases hn
    | chunked =>
      rw [hcomplete.2.1] at hn
      cases hn

/-- The bytes past a content-length are not part of the response they were accepted for. -/
theorem Phase.overrun {c : HttpConn} {ms : List Message} {wire : Bytes} (h : Phase c ms wire)
    (hdone : c.resp = .done) (hover : Saturated c (bodyOf ms)) (r : Response) :
    readResponse c.activeHead wire ≠ some (r, []) := by
  unfold Phase at h
  rw [hdone] at h
  obtain ⟨f, payload, hopened, hcomplete⟩ := h
  obtain ⟨hreq, hdeclared, hlen⟩ := hover
  obtain ⟨fields, hread⟩ := hopened.read
  cases f with
  | empty =>
    rw [hcomplete.1] at hreq
    cases hreq
  | length n =>
    obtain ⟨-, ⟨hyes, -⟩ | ⟨-, hpayload, -, hsame⟩⟩ := hcomplete
    · rw [hyes] at hreq
      cases hreq
    have hn : n = 2 ^ 64 - 1 := hsame _ hdeclared
    have hover := hread [] (payload.take n) [] (payload.drop n) (by
      rw [List.append_nil, readBody, if_pos (by rw [hpayload]; omega)])
    rw [List.append_nil] at hover
    rw [hover]
    intro hwhole
    have hwhole := Option.some.inj hwhole
    have hrest : payload.drop n = [] := congrArg Prod.snd hwhole
    rw [List.drop_eq_nil_iff, hpayload] at hrest
    omega
  | close =>
    rw [hcomplete.2.1] at hdeclared
    cases hdeclared
  | chunked =>
    rw [hcomplete.2.1] at hdeclared
    cases hdeclared

/-! ## 2. Every response -/

-- nothing but a start changes what a response is to say
structure SameHead (c c' : HttpConn) : Prop where
  activeHead : c'.activeHead = c.activeHead
  activeMinor : c'.activeMinor = c.activeMinor
  bodyless : c'.respBodyless = c.respBodyless
  empty : c'.respEmpty = c.respEmpty
  declared : c'.respDeclaredLength = c.respDeclaredLength

theorem SameHead.headReq {c c' : HttpConn} (h : SameHead c c') : c'.headReq = c.headReq := by
  rw [HttpConn.headReq, HttpConn.headReq, h.activeHead, h.bodyless, h.empty]

theorem enqueue_sameHead {c next : HttpConn} (h : SameHead c next) (out : Bytes) :
    SameHead c (enqueue next out).conn := by
  obtain ⟨waiters, hconn⟩ := enqueue_conn next out
  rw [hconn]
  exact ⟨h.activeHead, h.activeMinor, h.bodyless, h.empty, h.declared⟩

theorem checked_sameHead {c₀ c next : HttpConn} (h : SameHead c₀ c) (hnext : SameHead c₀ next)
    (final : Bool) (out : Bytes) : SameHead c₀ (checked c final next out).conn := by
  unfold checked
  split
  · exact h
  · exact enqueue_sameHead hnext out

theorem sendFirstBody_sameHead (c : HttpConn) (body : Bytes) (more : Bool) :
    SameHead c (sendFirstBody c body more).conn := by
  cases hwhole : ((!more && !c.trailers) || c.respEmpty) with
  | true =>
    rw [sendFirstBody_whole hwhole]
    refine checked_sameHead ?_ ?_ _ _ <;> exact ⟨rfl, rfl, rfl, rfl, rfl⟩
  | false =>
    cases hraw : (!c.trailers && (c.respStartedWithLength || c.headReq || c.activeMinor = 0)) with
    | true =>
      rw [sendFirstBody_raw hwhole hraw]
      refine checked_sameHead ?_ ?_ _ _ <;> exact ⟨rfl, rfl, rfl, rfl, rfl⟩
    | false =>
      rw [sendFirstBody_chunked hwhole hraw]
      refine enqueue_sameHead ?_ _
      exact ⟨rfl, rfl, rfl, rfl, rfl⟩

theorem sendBody_sameHead (c : HttpConn) (body : Bytes) (more : Bool) :
    SameHead c (sendBody c body more).conn := by
  unfold sendBody
  split
  · exact ⟨rfl, rfl, rfl, rfl, rfl⟩
  · exact ⟨rfl, rfl, rfl, rfl, rfl⟩
  · exact ⟨rfl, rfl, rfl, rfl, rfl⟩
  · exact sendFirstBody_sameHead c body more
  · rw [sendNextBody_eq]
    refine checked_sameHead ?_ ?_ _ _ <;> exact ⟨rfl, rfl, rfl, rfl, rfl⟩

theorem sendTrailers_sameHead (c : HttpConn) (headers : List Field) (more : Bool) :
    SameHead c (sendTrailers c headers more).conn := by
  unfold sendTrailers
  split
  · exact ⟨rfl, rfl, rfl, rfl, rfl⟩
  split
  · exact ⟨rfl, rfl, rfl, rfl, rfl⟩
  dsimp only
  split <;> refine enqueue_sameHead ?_ _ <;> exact ⟨rfl, rfl, rfl, rfl, rfl⟩

/-- A start that is rejected leaves the connection as it is. -/
theorem sendStart_rejected {unixSecs : Nat} {c : HttpConn} {status : Option UInt16}
    {headers : List Field} {trailers : Bool} {e : SendErr}
    (h : (sendStart unixSecs c status headers trailers).result = .error e) :
    sendStart unixSecs c status headers trailers = ⟨.error e, c, [], []⟩ := by
  cases status with
  | none =>
    cases h
    rfl
  | some status =>
    unfold sendStart at h ⊢
    dsimp only [reject] at h ⊢
    by_cases hrange : 100 ≤ status.toNat ∧ status.toNat ≤ 999
    swap
    · rw [if_pos hrange] at h ⊢
      cases h
      rfl
    rw [if_neg (not_not_intro hrange)] at h ⊢
    by_cases hinterim : status.toNat < 200
    · rw [if_pos hinterim] at h ⊢
      cases h
      rfl
    rw [if_neg hinterim] at h ⊢
    cases hscan : headers.foldlM (startHeader status.toNat)
        ⟨statusLine c.activeMinor status.toNat ++ crlf, none, false, false⟩ with
    | error e' =>
      rw [hscan] at h
      cases h
      rfl
    | ok a =>
      rw [hscan] at h
      dsimp only at h ⊢
      by_cases hidle : c.resp = .idle
      · rw [if_neg (not_not_intro hidle)] at h
        cases h
      · rw [if_pos hidle] at h ⊢
        cases h
        rfl

-- the request does not change under its response
theorem processSend_activeHead (unixSecs : Nat) (c : HttpConn) (m : Message) :
    (processSend unixSecs c m).conn.activeHead = c.activeHead := by
  cases m with
  | start status headers trailers =>
    change (sendStart unixSecs c status headers trailers).conn.activeHead = _
    cases h : (sendStart unixSecs c status headers trailers).result with
    | ok =>
      obtain ⟨-, -, -, -, -, -, -, hhead, -⟩ := sendStart_ok h
      exact hhead
    | error e => rw [sendStart_rejected h]
  | trailers headers more => exact (sendTrailers_sameHead c headers more).activeHead
  | body body more => exact (sendBody_sameHead c body more).activeHead
  | other kind => rfl

section Runs

variable {c : HttpConn} {keepAlive head : Bool} {minor : Nat}

theorem run_context (sends : List Send) :
    ((sessions c keepAlive head minor).run sends).conn.activeHead = head := by
  refine (sessions c keepAlive head minor).run_invariant
    (I := fun s => s.conn.activeHead = head) rfl (fun s m h => ?_) sends
  exact (processSend_activeHead m.1 s.conn m.2).trans h

theorem run_phase {sends : List Send} (h : (sessions c keepAlive head minor).Along Accepted sends) :
    let s := (sessions c keepAlive head minor).run sends
    Phase s.conn s.accepted s.wire :=
  (sessions c keepAlive head minor).run_invariant_along
    (I := fun s => Phase s.conn s.accepted s.wire) ⟨rfl, rfl, rfl⟩
    (fun _ _ hphase hok => (hphase.step hok).1) sends h

theorem run_accepted {sends : List Send}
    (h : (sessions c keepAlive head minor).Along Accepted sends) :
    ((sessions c keepAlive head minor).run sends).accepted = sends.map Prod.snd := by
  revert h
  refine (sessions c keepAlive head minor).run_induction
    (motive := fun sends s => (sessions c keepAlive head minor).Along Accepted sends →
      s.accepted = sends.map Prod.snd) (fun _ => rfl) ?_ sends
  intro sends m ih h
  have hphase := run_phase h.of_append
  have hok := h sends m (List.prefix_refl _)
  have hstep := (hphase.step hok).2
  rw [ih h.of_append] at hstep
  rw [List.map_append]
  exact hstep

end Runs

/-- **The response encoder is sound**, short of a counter at its end: the bytes of every response
accepted from start to end are read back as that one response. -/
theorem encoder_sound (c : HttpConn) (keepAlive head : Bool) (minor : Nat) (sends : List Send)
    (haccepted : (sessions c keepAlive head minor).Along Accepted sends)
    (hdone : ((sessions c keepAlive head minor).run sends).conn.resp = .done)
    (hexact : ¬ Saturated ((sessions c keepAlive head minor).run sends).conn
      (bodyOf (sends.map Prod.snd))) :
    ∃ r, Delivered head ((sessions c keepAlive head minor).run sends).conn (sends.map Prod.snd)
      ((sessions c keepAlive head minor).run sends).wire r := by
  have hphase := run_phase haccepted
  have hms := run_accepted haccepted
  rw [← hms] at hexact ⊢
  have hdelivered := hphase.delivered hdone hexact
  rwa [run_context] at hdelivered

/-- Trailers behind a body sent in one message. -/
def withTrailers : List Send :=
  [(0, .start (some 200) [(ascii "x", ascii "1")] true)] ++ [(0, .body (ascii "hello") false)] ++
    [(60, .trailers [(ascii "t", ascii "end ")] false)]

theorem withTrailers_accepted :
    (sessions HttpConn.new true false 1).Along Accepted withTrailers := by
  refine (Machine.along_concat _).mpr ⟨(Machine.along_concat _).mpr
    ⟨(Machine.along_singleton _).mpr ?_, ?_⟩, ?_⟩
  all_goals
    change (processSend _ _ _).result = _
    decide +kernel

theorem encoder_sound_trailers :
    let s := (sessions HttpConn.new true false 1).run withTrailers
    s.conn.resp = .done ∧ ¬ Saturated s.conn (bodyOf (withTrailers.map Prod.snd)) ∧
      ∃ r, Delivered false s.conn (withTrailers.map Prod.snd) s.wire r := by
  have hdone : ((sessions HttpConn.new true false 1).run withTrailers).conn.resp = .done := by
    decide +kernel
  have hexact : ¬ Saturated ((sessions HttpConn.new true false 1).run withTrailers).conn
      (bodyOf (withTrailers.map Prod.snd)) := by
    rintro ⟨-, hdeclared, -⟩
    revert hdeclared
    decide +kernel
  exact ⟨hdone, hexact, encoder_sound _ _ _ _ _ withTrailers_accepted hdone hexact⟩

/-! ## 3. Bodies under a content-length -/

/-- A response that shows its body under a content-length. -/
structure Declared (c : HttpConn) (n : Nat) : Prop where
  shown : c.headReq = false
  declared : c.respDeclaredLength = some n
  started : c.resp = .started → c.respStartedWithLength = true
  raw : c.resp = .streaming → c.rawStream = true

def HttpConn.sentAfter (c : HttpConn) (body : Bytes) : Nat :=
  if c.resp = .started then body.length else saturatingAdd c.respBodySent body.length

-- the connection whose length is checked
def HttpConn.counted (c : HttpConn) (body : Bytes) : HttpConn :=
  { c with
    respHead := if c.resp = .started then [] else c.respHead
    respBodySent := c.sentAfter body }

section Declared

variable {c : HttpConn} {n : Nat}

theorem Declared.firstBody (h : Declared c n) (hresp : c.resp = .started) (body : Bytes)
    (more : Bool) :
    ∃ out, sendFirstBody c body more = checked (c.counted body) (!more)
      { c.counted body with
        rawStream := c.rawStream || more, resp := if more then .streaming else .done } out := by
  have hcounted : c.counted body = { c with respHead := [], respBodySent := body.length } := by
    rw [HttpConn.counted, HttpConn.sentAfter, if_pos hresp, if_pos hresp]
  have hstarted := h.started hresp
  have htrailers : c.trailers = false := by
    rw [HttpConn.trailers, hstarted, Bool.not_true, Bool.and_false]
  have hempty : c.respEmpty = false := (Bool.or_eq_false_iff.mp h.shown).2
  rw [hcounted]
  cases more with
  | true =>
    have hwhole : ((!true && !c.trailers) || c.respEmpty) = false := by rw [hempty]; rfl
    have hraw : (!c.trailers && (c.respStartedWithLength || c.headReq || c.activeMinor = 0)) =
        true := by
      rw [htrailers, hstarted]
      rfl
    have hkeep : (c.keepAlive && !decide (c.activeMinor = 0 ∧ c.respStartedWithLength = false ∧
        c.headReq = false)) = c.keepAlive := by
      rw [hstarted, decide_eq_false fun h => Bool.noConfusion h.2.1, Bool.not_false, Bool.and_true]
    rw [sendFirstBody_raw hwhole hraw, hkeep, Bool.or_true]
    exact ⟨_, rfl⟩
  | false =>
    have hwhole : ((!false && !c.trailers) || c.respEmpty) = true := by rw [htrailers]; rfl
    rw [sendFirstBody_whole hwhole, h.shown, Bool.or_false]
    exact ⟨_, rfl⟩

theorem Declared.nextBody (h : Declared c n) (hresp : c.resp = .streaming) (body : Bytes)
    (more : Bool) :
    ∃ out, sendNextBody c body more = checked (c.counted body) (!more)
      { c.counted body with
        rawStream := c.rawStream || more, resp := if more then .streaming else .done } out := by
  have hnot : ¬ c.resp = .started := by rw [hresp]; decide
  have hcounted : c.counted body =
      { c with respBodySent := saturatingAdd c.respBodySent body.length } := by
    rw [HttpConn.counted, HttpConn.sentAfter, if_neg hnot, if_neg hnot]
  have hraw := h.raw hresp
  have hchunks : c.chunks = false := by rw [HttpConn.chunks, hraw]; rfl
  rw [hcounted, sendNextBody_eq, hchunks, hraw, hresp]
  exact ⟨_, rfl⟩

/-- What a body message does under a content-length hangs on the count after it. -/
theorem Declared.send (h : Declared c n) (hresp : c.resp = .started ∨ c.resp = .streaming)
    (body : Bytes) (more : Bool) :
    ∃ out, sendBody c body more = checked (c.counted body) (!more)
      { c.counted body with
        rawStream := c.rawStream || more, resp := if more then .streaming else .done } out := by
  rcases hresp with hresp | hresp
  · rw [sendBody, hresp]
    exact h.firstBody hresp body more
  · rw [sendBody, hresp]
    exact h.nextBody hresp body more

theorem Declared.accept (h : Declared c n) (hresp : c.resp = .started ∨ c.resp = .streaming)
    {body : Bytes} {more : Bool} (hle : c.sentAfter body ≤ n) (hend : more = false → c.sentAfter body = n) :
    (sendBody c body more).result = .ok () ∧ Declared (sendBody c body more).conn n ∧
      (sendBody c body more).conn.resp = (if more then .streaming else .done) ∧
      (sendBody c body more).conn.respBodySent = c.sentAfter body := by
  obtain ⟨out, hsend⟩ := h.send hresp body more
  have hlen : lengthMismatch (c.counted body) (!more) = none :=
    (lengthMismatch_none_iff (c := c.counted body) h.shown h.declared).mpr
      ⟨hle, fun hfinal => hend (by rwa [Bool.not_eq_true'] at hfinal)⟩
  rw [hsend, checked, hlen]
  obtain ⟨waiters, hconn⟩ := enqueue_conn { c.counted body with
    rawStream := c.rawStream || more, resp := if more then .streaming else .done } out
  dsimp only
  rw [hconn]
  refine ⟨rfl, ⟨h.shown, h.declared, fun hresp => ?_, fun hresp => ?_⟩, rfl, rfl⟩
  · cases more <;> cases hresp
  · cases more with
    | true => exact Bool.or_true _
    | false => cases hresp

theorem Declared.reject (h : Declared c n) (hresp : c.resp = .started ∨ c.resp = .streaming)
    {body : Bytes} {more : Bool}
    (hbad : ¬ (c.sentAfter body ≤ n ∧ (more = false → c.sentAfter body = n))) :
    ∃ e, sendBody c body more = ⟨.error e, c.counted body, [], []⟩ := by
  obtain ⟨out, hsend⟩ := h.send hresp body more
  rw [hsend, checked]
  cases hlen : lengthMismatch (c.counted body) (!more) with
  | some e => exact ⟨e, rfl⟩
  | none =>
    obtain ⟨hle, hend⟩ := (lengthMismatch_none_iff (c := c.counted body) h.shown h.declared).mp hlen
    exact absurd ⟨hle, fun hmore => hend (by rw [hmore]; rfl)⟩ hbad

end Declared


theorem sentAfter_first {c : HttpConn} (h : c.resp = .started) (body : Bytes) :
    c.sentAfter body = body.length := if_pos h

theorem sentAfter_next {c : HttpConn} (h : c.resp = .streaming) (body : Bytes) :
    c.sentAfter body = saturatingAdd c.respBodySent body.length :=
  if_neg (by rw [h]; decide)

/-- One more body message, as the content-length has it. -/
theorem Declared.concat {c : HttpConn} {keepAlive head : Bool} {minor n : Nat} {sends : List Send}
    (h : Declared ((sessions c keepAlive head minor).run sends).conn n)
    (hrun : (sessions c keepAlive head minor).Along Accepted sends)
    (hresp : ((sessions c keepAlive head minor).run sends).conn.resp = .started ∨
      ((sessions c keepAlive head minor).run sends).conn.resp = .streaming)
    (body : Bytes) (more : Bool)
    (hle : ((sessions c keepAlive head minor).run sends).conn.sentAfter body ≤ n)
    (hend : more = false → ((sessions c keepAlive head minor).run sends).conn.sentAfter body = n) :
    let sends' := sends ++ [(0, .body body more)]
    let c' := ((sessions c keepAlive head minor).run sends').conn
    (sessions c keepAlive head minor).Along Accepted sends' ∧ Declared c' n ∧
      c'.resp = (if more then .streaming else .done) ∧
      c'.respBodySent = ((sessions c keepAlive head minor).run sends).conn.sentAfter body := by
  intro sends' c'
  have haccept := h.accept hresp hle hend
  have hconn : c' = (sendBody ((sessions c keepAlive head minor).run sends).conn body more).conn := by
    show ((sessions c keepAlive head minor).run (sends ++ [(0, .body body more)])).conn = _
    rw [Machine.run_concat]
    rfl
  rw [hconn]
  exact ⟨(Machine.along_concat _).mpr ⟨hrun, haccept.1⟩, haccept.2⟩

/-! ## 4. A counter at its end -/

-- 2^64 - 1 bytes are declared, and `n + n + m` sent
def overrunStart : List Send :=
  [(0, .start (some 200) [(ascii "content-length", ascii "18446744073709551615")] false)]

def overrun (n m : Nat) : List Send :=
  overrunStart ++ [(0, .body (List.replicate n 0) true)] ++ [(0, .body (List.replicate n 0) true)] ++
    [(0, .body (List.replicate m 0) false)]

theorem overrun_bodyOf (n m : Nat) :
    (bodyOf ((overrun n m).map Prod.snd)).length = n + (n + m) := by
  simp [overrun, overrunStart, bodyOf]

theorem overrunStart_declared :
    let s := (sessions HttpConn.new true false 1).run overrunStart
    (sessions HttpConn.new true false 1).Along Accepted overrunStart ∧ s.conn.resp = .started ∧
      Declared s.conn (2 ^ 64 - 1) := by
  have haccepted : (processSend 0 (HttpConn.new.startRequest true false 1) (.start (some 200)
      [(ascii "content-length", ascii "18446744073709551615")] false)).result = .ok () := by
    decide +kernel
  have hresp : ((sessions HttpConn.new true false 1).run overrunStart).conn.resp = .started := by
    decide +kernel
  exact ⟨(Machine.along_singleton _).mpr haccepted, hresp, by decide +kernel, by decide +kernel,
    fun _ => by decide +kernel, fun h => by rw [hresp] at h; cases h⟩

theorem overrun_accepted {n m : Nat} (hn : n + n ≤ 2 ^ 64 - 1) (hm : 2 ^ 64 - 1 ≤ n + n + m) :
    (sessions HttpConn.new true false 1).Along Accepted (overrun n m) ∧
      ((sessions HttpConn.new true false 1).run (overrun n m)).conn.resp = .done ∧
      Declared ((sessions HttpConn.new true false 1).run (overrun n m)).conn (2 ^ 64 - 1) := by
  obtain ⟨h₀, hresp₀, hdeclared₀⟩ := overrunStart_declared
  have hlen : ∀ k, (List.replicate k (0 : UInt8)).length = k := fun k => List.length_replicate
  obtain ⟨h₁, hdeclared₁, hresp₁, hsent₁⟩ := hdeclared₀.concat h₀ (.inl hresp₀)
    (List.replicate n 0) true (by rw [sentAfter_first hresp₀, hlen]; omega) (fun h => (by cases h))
  rw [sentAfter_first hresp₀, hlen] at hsent₁
  obtain ⟨h₂, hdeclared₂, hresp₂, hsent₂⟩ := hdeclared₁.concat h₁ (.inr hresp₁)
    (List.replicate n 0) true (by rw [sentAfter_next hresp₁]; exact Nat.min_le_right _ _)
    (fun h => (by cases h))
  rw [sentAfter_next hresp₁, hsent₁, hlen] at hsent₂
  have hend : ((sessions HttpConn.new true false 1).run (overrunStart ++
      [(0, .body (List.replicate n 0) true)] ++ [(0, .body (List.replicate n 0) true)])).conn.sentAfter
        (List.replicate m 0) = 2 ^ 64 - 1 := by
    rw [sentAfter_next hresp₂, hsent₂, hlen, saturatingAdd, saturatingAdd]
    omega
  obtain ⟨h₃, hdeclared₃, hresp₃, -⟩ := hdeclared₂.concat h₂ (.inr hresp₂) (List.replicate m 0) false
    (Nat.le_of_eq hend) (fun _ => hend)
  exact ⟨h₃, hresp₃, hdeclared₃⟩

theorem overrun_unread {n m : Nat} (hn : n + n ≤ 2 ^ 64 - 1) (hm : 2 ^ 64 - 1 < n + n + m)
    (r : Response) :
    readResponse false ((sessions HttpConn.new true false 1).run (overrun n m)).wire ≠
      some (r, []) := by
  obtain ⟨haccepted, hdone, hdeclared⟩ := overrun_accepted hn (Nat.le_of_lt hm)
  have hphase := run_phase haccepted
  have hlen := overrun_bodyOf n m
  rw [← run_accepted haccepted] at hlen
  have hover := hphase.overrun hdone ⟨hdeclared.shown, hdeclared.declared, by omega⟩ r
  rwa [run_context] at hover

/-- The counter of a body stops at 2^64 - 1: of a body longer than its content-length of as many
bytes the end is accepted, and is not read as part of it.  And a blank at the end of a trailer is
not read. -/
theorem encoder_not_sound_past_u64 :
    (∃ sends, (sessions HttpConn.new true false 1).Along Accepted sends ∧
      ((sessions HttpConn.new true false 1).run sends).conn.resp = .done ∧
      ∀ r, readResponse false ((sessions HttpConn.new true false 1).run sends).wire ≠
        some (r, [])) ∧
    ∃ sends, (sessions HttpConn.new true false 1).Along Accepted sends ∧
      ((sessions HttpConn.new true false 1).run sends).conn.resp = .done ∧
      (readResponse false ((sessions HttpConn.new true false 1).run sends).wire).map
        (fun r => r.1.trailers) ≠ some (trailersOf (sends.map Prod.snd)) := by
  refine ⟨⟨overrun (2 ^ 63 - 1) 2, ?_⟩, withTrailers, withTrailers_accepted, ?_⟩
  · obtain ⟨n, hn⟩ : ∃ n, n = 2 ^ 63 - 1 := ⟨_, rfl⟩
    rw [← hn]
    obtain ⟨haccepted, hdone, -⟩ := overrun_accepted (n := n) (m := 2) (by omega) (by omega)
    exact ⟨haccepted, hdone, overrun_unread (by omega) (by omega)⟩
  · decide +kernel

end Cadeloop.Pyshim.Http
