import Cadeloop.Pyshim.HttpResponse

/-!
# Rejected messages

A message that is rejected is to leave no trace.  Only a length check can: it comes after the
buffered head has been taken and the body counted.
-/

namespace Cadeloop.Pyshim.Http

open Cadeloop.Reasoning
open Rfc7230 (Field Framing Response readResponse)

/-! ## 1. Rejections -/

def Rejected (s : Session) (m : Send) : Prop :=
  ∃ e, (processSend m.1 s.conn m.2).result = .error e

/-- The state of the response is what it was. -/
structure Unchanged (c c' : HttpConn) : Prop where
  resp : c'.resp = c.resp
  respHead : c'.respHead = c.respHead
  respBodySent : c'.respBodySent = c.respBodySent
  respDeclaredLength : c'.respDeclaredLength = c.respDeclaredLength
  rawStream : c'.rawStream = c.rawStream
  keepAlive : c'.keepAlive = c.keepAlive
  trailersStarted : c'.trailersStarted = c.trailersStarted

def Atomic (s : Session) (m : Send) : Prop :=
  (processSend m.1 s.conn m.2).enqueued = [] ∧
    Unchanged s.conn (processSend m.1 s.conn m.2).conn

/-- A body message neither takes a shown body over its content-length nor ends it short of it;
an end of no bytes may come early, behind a part of the body. -/
def InLength (c : HttpConn) : Message → Prop
  | .body body more => c.headReq = false → ∀ n ∈ c.respDeclaredLength,
    (c.resp = .started → body.length ≤ n ∧ (more = false → body.length = n)) ∧
    (c.resp = .streaming → c.respBodySent + body.length ≤ n ∧
      (more = false → c.respBodySent + body.length = n ∨ body = []))
  | _ => True

instance (c : HttpConn) : (m : Message) → Decidable (InLength c m)
  | .body _ _ => by unfold InLength; infer_instance
  | .start _ _ _ | .trailers _ _ | .other _ => instDecidableTrue

theorem lengthMismatch_free {c : HttpConn} (h : c.headReq = true ∨ c.respDeclaredLength = none)
    (final : Bool) : lengthMismatch c final = none := by
  unfold lengthMismatch
  split
  · rfl
  rename_i hreq
  rcases h with h | h
  · exact absurd h hreq
  · rw [h]

theorem checked_free {c next : HttpConn} {out : Bytes}
    (h : c.headReq = true ∨ c.respDeclaredLength = none) (final : Bool) :
    (checked c final next out).result = .ok () := by
  rw [checked, lengthMismatch_free h]
  rfl

-- without a content-length there is nothing to miss
theorem sendFirstBody_free {c : HttpConn} (h : c.headReq = true ∨ c.respDeclaredLength = none)
    (body : Bytes) (more : Bool) : (sendFirstBody c body more).result = .ok () := by
  cases hwhole : ((!more && !c.trailers) || c.respEmpty) with
  | true =>
    rw [sendFirstBody_whole hwhole]
    refine checked_free ?_ _
    exact h
  | false =>
    cases hraw : (!c.trailers && (c.respStartedWithLength || c.headReq || c.activeMinor = 0)) with
    | true =>
      rw [sendFirstBody_raw hwhole hraw]
      refine checked_free ?_ _
      exact h
    | false =>
      rw [sendFirstBody_chunked hwhole hraw]
      rfl

theorem sendNextBody_free {c : HttpConn} (h : c.headReq = true ∨ c.respDeclaredLength = none)
    (body : Bytes) (more : Bool) : (sendNextBody c body more).result = .ok () := by
  rw [sendNextBody_eq]
  refine checked_free ?_ _
  exact h

theorem declared_or_free (c : HttpConn) : (c.headReq = true ∨ c.respDeclaredLength = none) ∨
    c.headReq = false ∧ ∃ n, c.respDeclaredLength = some n := by
  cases c.headReq with
  | true => exact .inl (.inl rfl)
  | false =>
    cases c.respDeclaredLength with
    | none => exact .inl (.inr rfl)
    | some n => exact .inr ⟨rfl, n, rfl⟩

theorem Phase.declares {c : HttpConn} {ms : List Message} {wire : Bytes} (h : Phase c ms wire)
    (hresp : c.resp = .started ∨ c.resp = .streaming) (hreq : c.headReq = false) {n : Nat}
    (hdeclared : c.respDeclaredLength = some n) : Declared c n ∧ n < 2 ^ 64 := by
  unfold Phase at h
  rcases hresp with hresp | hresp
  · rw [hresp] at h
    obtain ⟨-, -, -, -, -, fields, hhead, -⟩ := h
    refine ⟨⟨hreq, hdeclared, fun _ => ?_, fun hraw => ?_⟩, hhead.fits n hdeclared⟩
    · rw [hhead.started, hdeclared]
      rfl
    · rw [hresp] at hraw
      cases hraw
  · rw [hresp] at h
    obtain ⟨-, -, f, payload, -, hflow⟩ := h
    cases f with
    | empty =>
      rw [hflow.1] at hreq
      cases hreq
    | length m =>
      rcases hflow with ⟨hyes, -⟩ | ⟨-, hraw, hsome, hlt, -⟩
      · rw [hyes] at hreq
        cases hreq
      · rw [hdeclared] at hsome
        obtain rfl := Option.some.inj hsome
        refine ⟨⟨hreq, hdeclared, fun hstarted => ?_, fun _ => hraw⟩, hlt⟩
        rw [hresp] at hstarted
        cases hstarted
    | close =>
      rw [hflow.2.2.1] at hdeclared
      cases hdeclared
    | chunked =>
      rw [hflow.2.2.1] at hdeclared
      cases hdeclared

/-- All that a rejection can do. -/
theorem processSend_rejected {unixSecs : Nat} {c : HttpConn} {m : Message} {ms : List Message}
    {wire : Bytes} (h : Phase c ms wire) {e : SendErr}
    (hrejected : (processSend unixSecs c m).result = .error e) :
    (processSend unixSecs c m = ⟨.error e, c, [], []⟩ ∧ InLength c m) ∨
      ∃ body more n, m = .body body more ∧ (c.resp = .started ∨ c.resp = .streaming) ∧
        Declared c n ∧ n < 2 ^ 64 ∧
        ¬ (c.sentAfter body ≤ n ∧ (more = false → c.sentAfter body = n)) ∧
        processSend unixSecs c m = ⟨.error e, c.counted body, [], []⟩ := by
  cases m with
  | start status headers trailers => exact .inl ⟨sendStart_rejected hrejected, trivial⟩
  | trailers headers more =>
    left
    refine ⟨?_, trivial⟩
    change (sendTrailers c headers more).result = _ at hrejected
    change sendTrailers c headers more = _
    unfold sendTrailers at hrejected ⊢
    cases hfields : headers.foldlM trailerField [] with
    | error e' =>
      rw [hfields] at hrejected
      cases hrejected
      rfl
    | ok fields =>
      rw [hfields] at hrejected
      dsimp only [reject] at hrejected ⊢
      by_cases hresp : c.resp ≠ .awaitingTrailers
      · rw [if_pos hresp] at hrejected ⊢
        cases hrejected
        rfl
      · rw [if_neg hresp] at hrejected
        split at hrejected <;> cases hrejected
  | other kind =>
    cases hrejected
    exact .inl ⟨rfl, trivial⟩
  | body body more =>
    change (sendBody c body more).result = _ at hrejected
    change (sendBody c body more = _ ∧ _) ∨ _
    by_cases hresp : c.resp = .started ∨ c.resp = .streaming
    · right
      have hdeclared : c.headReq = false ∧ ∃ n, c.respDeclaredLength = some n := by
        refine (declared_or_free c).resolve_left fun hfree => ?_
        have hok : (sendBody c body more).result = .ok () := by
          unfold sendBody
          rcases hresp with hresp | hresp
          · rw [hresp]
            exact sendFirstBody_free hfree body more
          · rw [hresp]
            exact sendNextBody_free hfree body more
        rw [hok] at hrejected
        cases hrejected
      obtain ⟨hreq, n, hn⟩ := hdeclared
      obtain ⟨hdeclares, hlt⟩ := h.declares hresp hreq hn
      have hbad : ¬ (c.sentAfter body ≤ n ∧ (more = false → c.sentAfter body = n)) := by
        rintro ⟨hle, hend⟩
        rw [(hdeclares.accept hresp hle hend).1] at hrejected
        cases hrejected
      obtain ⟨e', he'⟩ := hdeclares.reject hresp hbad
      rw [he'] at hrejected
      cases hrejected
      exact ⟨body, more, n, rfl, hresp, hdeclares, hlt, hbad, he'⟩
    · left
      unfold InLength
      unfold sendBody at hrejected ⊢
      cases hphase : c.resp with
      | started => exact absurd (.inl hphase) hresp
      | streaming => exact absurd (.inr hphase) hresp
      | idle | awaitingTrailers | done =>
        rw [hphase] at hrejected
        cases hrejected
        exact ⟨rfl, fun _ _ _ => ⟨fun h => (by cases h), fun h => (by cases h)⟩⟩

theorem headBytes_ne_nil (minor status : Nat) (fields : List Field) :
    headBytes minor status fields ≠ [] := by
  simp [headBytes, Rfc7230.crlf]

/-! ## 2. One message -/

/-- A session in which no body has gone over its content-length. -/
structure Kept (s : Session) : Prop where
  phase : Phase s.conn s.accepted s.wire
  fits : ∀ n, s.conn.headReq = false → s.conn.respDeclaredLength = some n →
    (bodyOf s.accepted).length ≤ n

section Step

variable {s : Session} {m : Send}

-- short of its end, the counter is the length of the body
theorem Kept.sent (h : Kept s) (hresp : s.conn.resp = .streaming) {n : Nat}
    (hreq : s.conn.headReq = false) (hdeclared : s.conn.respDeclaredLength = some n) :
    s.conn.respBodySent = (bodyOf s.accepted).length := by
  have hfits := h.fits n hreq hdeclared
  have hlt := (h.phase.declares (.inr hresp) hreq hdeclared).2
  have hphase := h.phase
  unfold Phase at hphase
  rw [hresp] at hphase
  obtain ⟨-, -, f, payload, -, hflow⟩ := hphase
  cases f with
  | empty =>
    rw [hflow.1] at hreq
    cases hreq
  | length k =>
    rcases hflow with ⟨hyes, -⟩ | ⟨-, -, -, -, hsent, -⟩
    · rw [hyes] at hreq
      cases hreq
    · omega
  | close =>
    rw [hflow.2.2.1] at hdeclared
    cases hdeclared
  | chunked =>
    rw [hflow.2.2.1] at hdeclared
    cases hdeclared

/-- A rejection that overstepped no length has changed nothing at all. -/
theorem Kept.rejected (h : Kept s) {e : SendErr}
    (hrejected : (processSend m.1 s.conn m.2).result = .error e) (hlength : InLength s.conn m.2) :
    processSend m.1 s.conn m.2 = ⟨.error e, s.conn, [], []⟩ := by
  rcases processSend_rejected h.phase hrejected with
    ⟨hnone, -⟩ | ⟨body, more, n, hm, hresp, hdeclares, hlt, hbad, hreply⟩
  · exact hnone
  rw [hreply]
  rw [hm] at hlength
  obtain ⟨hfirst, hnext⟩ := hlength hdeclares.shown n hdeclares.declared
  rcases hresp with hresp | hresp
  · rw [sentAfter_first hresp] at hbad
    exact absurd (hfirst hresp) hbad
  · obtain ⟨hle, hend⟩ := hnext hresp
    rw [sentAfter_next hresp, saturatingAdd, Nat.min_eq_left (by omega)] at hbad
    have hempty : body = [] := by
      by_contra hbody
      exact hbad ⟨hle, fun hmore => (hend hmore).resolve_right hbody⟩
    have hcounted : s.conn.counted body = s.conn := by
      have hnot : ¬ s.conn.resp = .started := by rw [hresp]; decide
      have hsent : s.conn.sentAfter body = s.conn.respBodySent := by
        rw [sentAfter_next hresp, hempty, saturatingAdd, List.length_nil]
        omega
      rw [HttpConn.counted, hsent, if_neg hnot]
    rw [hcounted]

theorem Kept.atomic_iff (h : Kept s) (hrejected : Rejected s m) :
    Atomic s m ↔ InLength s.conn m.2 := by
  obtain ⟨e, he⟩ := hrejected
  refine ⟨fun hatomic => ?_, fun hlength => ?_⟩
  · rcases processSend_rejected h.phase he with
      ⟨-, hlength⟩ | ⟨body, more, n, hm, hresp, hdeclares, hlt, hbad, hreply⟩
    · exact hlength
    obtain ⟨-, hsame⟩ := hatomic
    rw [hreply] at hsame
    rcases hresp with hresp | hresp
    · -- the head is gone
      have hhead : s.conn.respHead = [] := by
        rw [← hsame.respHead]
        exact if_pos hresp
      have hphase := h.phase
      unfold Phase at hphase
      rw [hresp] at hphase
      obtain ⟨-, -, -, -, -, fields, -, hrespHead⟩ := hphase
      rw [hhead] at hrespHead
      exact absurd hrespHead.symm (headBytes_ne_nil _ _ _)
    · have hsent : saturatingAdd s.conn.respBodySent body.length = s.conn.respBodySent := by
        rw [← sentAfter_next hresp]
        exact hsame.respBodySent
      have hfits := h.fits n hdeclares.shown hdeclares.declared
      rw [← h.sent hresp hdeclares.shown hdeclares.declared] at hfits
      rw [sentAfter_next hresp, hsent] at hbad
      have hempty : body = [] := by
        refine List.eq_nil_of_length_eq_zero (by_contra fun hbody => ?_)
        have hend : s.conn.respBodySent = n := by
          unfold saturatingAdd at hsent
          omega
        exact hbad ⟨hfits, fun _ => hend⟩
      rw [hm]
      intro hreq k hk
      rw [hdeclares.declared, Option.mem_some] at hk
      subst hk
      refine ⟨fun hstarted => ?_, fun _ => ?_⟩
      · rw [hresp] at hstarted
        cases hstarted
      · rw [hempty]
        exact ⟨by rw [List.length_nil]; omega, fun _ => .inr rfl⟩
  · rw [Atomic, h.rejected he hlength]
    exact ⟨rfl, rfl, rfl, rfl, rfl, rfl, rfl, rfl⟩

/-- Messages that keep to the content-length keep the session so. -/
theorem Kept.step (h : Kept s) (hlength : InLength s.conn m.2) : Kept (s.step m) := by
  cases hresult : (processSend m.1 s.conn m.2).result with
  | error e =>
    have hreply := h.rejected hresult hlength
    have hsame : s.step m = s := by
      unfold Session.step
      rw [hreply]
      dsimp only
      rw [List.flatten_nil, List.append_nil]
    rw [hsame]
    exact h
  | ok =>
    obtain ⟨hphase, haccepted⟩ := h.phase.step (m := m) hresult
    refine ⟨hphase, fun n hreq hdeclared => ?_⟩
    rw [haccepted, bodyOf_append]
    obtain ⟨unixSecs, message⟩ := m
    cases message with
    | start status headers trailers =>
      obtain ⟨-, -, -, hidle, -⟩ := sendStart_ok hresult
      have hnone := h.phase
      unfold Phase at hnone
      rw [hidle] at hnone
      rw [hnone.1]
      exact Nat.zero_le _
    | trailers headers more =>
      have hsame := sendTrailers_sameHead s.conn headers more
      have hreq : (sendTrailers s.conn headers more).conn.headReq = false := hreq
      have hdeclared : (sendTrailers s.conn headers more).conn.respDeclaredLength = some n :=
        hdeclared
      rw [hsame.headReq] at hreq
      rw [hsame.declared] at hdeclared
      have hfits := h.fits n hreq hdeclared
      simpa [bodyOf] using hfits
    | other kind => cases hresult
    | body body more =>
      have hsame := sendBody_sameHead s.conn body more
      have hreq : (sendBody s.conn body more).conn.headReq = false := hreq
      have hdeclared : (sendBody s.conn body more).conn.respDeclaredLength = some n := hdeclared
      rw [hsame.headReq] at hreq
      rw [hsame.declared] at hdeclared
      obtain ⟨hfirst, hnext⟩ := hlength hreq n hdeclared
      have hone : bodyOf [.body body more] = body := by simp [bodyOf]
      rw [List.length_append, hone]
      cases hresp : s.conn.resp with
      | started =>
        have hnone := h.phase
        unfold Phase at hnone
        rw [hresp] at hnone
        rw [hnone.2.1, List.length_nil, Nat.zero_add]
        exact (hfirst hresp).1
      | streaming =>
        have hsent := h.sent hresp hreq hdeclared
        have hle := (hnext hresp).1
        omega
      | idle | awaitingTrailers | done =>
        change (sendBody s.conn body more).result = _ at hresult
        unfold sendBody at hresult
        rw [hresp] at hresult
        cases hresult

end Step

/-! ## 3. Every run -/

theorem run_kept {c : HttpConn} {keepAlive head : Bool} {minor : Nat} {sends : List Send}
    (h : (sessions c keepAlive head minor).Along (fun s m => InLength s.conn m.2) sends) :
    Kept ((sessions c keepAlive head minor).run sends) :=
  (sessions c keepAlive head minor).run_invariant_along
    ⟨⟨rfl, rfl, rfl⟩, fun _ _ hdeclared => (by cases hdeclared)⟩
    (fun _ _ hkept hlength => hkept.step hlength) sends h

/-- **A rejection is atomic** as long as no body message oversteps its content-length: then every
rejected message leaves no trace, and a response that gets done is read as what was accepted of
it.  A rejected body message that does overstep it is never atomic. -/
theorem rejections_atomic (c : HttpConn) (keepAlive head : Bool) (minor : Nat) (sends : List Send)
    (hlength : (sessions c keepAlive head minor).Along (fun s m => InLength s.conn m.2) sends) :
    let s := (sessions c keepAlive head minor).run sends
    (sessions c keepAlive head minor).Along (fun s m => Rejected s m → Atomic s m) sends ∧
      (∀ m, Rejected s m → (Atomic s m ↔ InLength s.conn m.2)) ∧
      (s.conn.resp = .done → ∃ r, Delivered head s.conn s.accepted s.wire r) := by
  intro s
  have hkept := run_kept hlength
  refine ⟨fun pre m hpre hrejected => ?_, fun m => hkept.atomic_iff, fun hdone => ?_⟩
  · have hpre' := hpre
    obtain ⟨later, rfl⟩ := hpre
    have hsofar := (hlength.of_append).of_append
    exact ((run_kept hsofar).atomic_iff hrejected).mpr (hlength pre m hpre')
  · have hexact : ¬ Saturated s.conn (bodyOf s.accepted) := by
      rintro ⟨hreq, hdeclared, hover⟩
      exact absurd (hkept.fits _ hreq hdeclared) (Nat.not_le.mpr hover)
    have hdelivered := hkept.phase.delivered hdone hexact
    rwa [run_context] at hdelivered

/-! ## 4. A rejection that is not atomic -/

-- a start that declares five bytes
def declaring : Send := (0, .start (some 200) [(ascii "content-length", ascii "5")] false)

-- a second start and an early end, both rejected
def patient : List Send :=
  [declaring] ++ [declaring] ++ [(0, .body (ascii "hel") true)] ++ [(0, .body [] false)] ++
    [(0, .body (ascii "lo") false)]

theorem rejections_atomic_patient :
    let s := (sessions HttpConn.new true false 1).run patient
    (sessions HttpConn.new true false 1).Along (fun s m => Rejected s m → Atomic s m) patient ∧
      s.conn.resp = .done ∧ ∃ r, Delivered false s.conn s.accepted s.wire r := by
  have hlength : (sessions HttpConn.new true false 1).Along (fun s m => InLength s.conn m.2)
      patient := by
    refine (Machine.along_concat _).mpr ⟨(Machine.along_concat _).mpr ⟨(Machine.along_concat _).mpr
      ⟨(Machine.along_concat _).mpr ⟨(Machine.along_singleton _).mpr ?_, ?_⟩, ?_⟩, ?_⟩, ?_⟩
    all_goals decide +kernel
  have hdone : ((sessions HttpConn.new true false 1).run patient).conn.resp = .done := by
    decide +kernel
  obtain ⟨hatomic, -, hdelivered⟩ := rejections_atomic HttpConn.new true false 1 patient hlength
  exact ⟨hatomic, hdone, hdelivered hdone⟩

/-- Ten bytes are rejected where five are declared, and the head is gone with them: the five bytes
accepted next are sent without a status line. -/
theorem rejection_drops_head :
    (¬ ∀ (c : HttpConn) (keepAlive head : Bool) (minor : Nat) (sends : List Send) (m : Send),
      let s := (sessions c keepAlive head minor).run sends
      Rejected s m → Atomic s m) ∧
    let s := (sessions HttpConn.new true false 1).run
      [declaring, (0, .body (ascii "0123456789") false), (0, .body (ascii "01234") false)]
    s.conn.resp = .done ∧ s.wire = ascii "\r\n01234" ∧ readResponse false s.wire = none := by
  refine ⟨fun h => ?_, by decide +kernel, by decide +kernel, by decide +kernel⟩
  have hatomic := h HttpConn.new true false 1 [declaring] (0, .body (ascii "0123456789") false)
    ⟨.proto "response body exceeded the declared content-length", by decide +kernel⟩
  have hhead := hatomic.2.respHead
  revert hhead
  decide +kernel

end Cadeloop.Pyshim.Http
