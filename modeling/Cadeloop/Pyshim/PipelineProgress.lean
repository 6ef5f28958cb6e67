import Cadeloop.Pyshim.PipelineContinue

/-!
# How far a request has come

What a sweep remembers only a sweep changes.  While no request completes, the one under way only moves on:
from no byte at all to the line before a head, the head, and its body.
-/

namespace Cadeloop.Pyshim.Pipeline

open Cadeloop.Reasoning
open Core.Http (Acc Execution HttpParser Request)
open Net (Backend NetState TransportEntry)

variable {backend : Backend} {s s' : Conn}

/-! ## 1. What only a sweep changes -/

structure Clock where
  disconnected : Bool
  headTimeoutNs : Nat
  idleTimeoutNs : Nat
  sweepPhase : SweepPhase
  sweepSeen : UInt32
  sweepAnchorNs : Nat

def HttpConn.clock (c : HttpConn) : Clock where
  disconnected := c.disconnected
  headTimeoutNs := c.headTimeoutNs
  idleTimeoutNs := c.idleTimeoutNs
  sweepPhase := c.sweepPhase
  sweepSeen := c.sweepSeen
  sweepAnchorNs := c.sweepAnchorNs

def Conn.clock (s : Conn) : Clock := s.http.clock

theorem Outward.clock (h : Outward s s') : s'.clock = s.clock := by rw [Conn.clock, h.http, Conn.clock]

theorem httpEnqueue_clock (origin : Origin) (data : Bytes) (s : Conn) :
    (httpEnqueue backend origin data s).clock = s.clock := by
  rw [Conn.clock, httpEnqueue_http, Conn.clock]

theorem frames_clock (origin : Conn → Origin) (frames : List Bytes) (s : Conn) :
    (frames.foldl (fun s frame => httpEnqueue backend (origin s) frame s) s).clock = s.clock := by
  induction frames generalizing s with
  | nil => rfl
  | cons frame frames ih => exact (ih _).trans (httpEnqueue_clock (origin s) frame s)

theorem queuePump_clock (due : Bool) (s : Conn) : (queuePump due s).clock = s.clock := by
  unfold queuePump
  split <;> rfl

theorem ingest_clock (chunk : Chunk) (alive : s.http.deferredError = none) :
    (ingest backend chunk s).2.clock = s.clock := by
  have hfed : (s.http.fedBy chunk.data chunk.run).clock = s.http.clock := by
    rw [(HttpConn.fedBy_feeds chunk.data chunk.run s.http).rest]
    rfl
  have h := @ingest_ingested backend s chunk alive
  generalize (ingest backend chunk s).2 = s' at h ⊢
  cases h with
  | dropped trailing => exact teardown_outward.clock.trans hfed
  | answered e => exact (httpCloseAfterWrite_outward.clock.trans (httpEnqueue_clock _ _ _)).trans hfed
  | parked resp behind => exact hfed
  | took trailing ok owes => exact hfed
  | deferred trailing ok owes behind => exact hfed
  | continued trailing ok owes idle empty now => exact (httpEnqueue_clock _ _ _).trans hfed

theorem wsIngest_clock (chunk : Chunk) (s : Conn) : (wsIngest backend chunk s).clock = s.clock := by
  unfold wsIngest
  split
  · rfl
  split
  · split
    · exact httpCloseAfterWrite_outward.clock.trans (httpEnqueue_clock _ _ _)
    · rfl
  · extract_lets t
    have hframes : t.clock = s.clock := frames_clock Conn.current chunk.frames _
    split
    · exact httpCloseAfterWrite_outward.clock.trans hframes
    · exact hframes

theorem routePlaintext_clock (chunk : Chunk) (s : Conn) : (routePlaintext backend chunk s).2.clock = s.clock := by
  unfold routePlaintext
  split
  · exact wsIngest_clock chunk s
  split
  · rfl
  · rename_i halive
    exact ingest_clock chunk (by simpa using halive)

/-- Of what a receive brings only the peer's EOF counts. -/
theorem onRecvDone_clock {received : Received} (h : received ≠ .eof) (postOk : Bool) (s : Conn) :
    (onRecvDone backend received postOk s).clock = s.clock := by
  have hoff : Conn.clock { s with recvOp := false } = s.clock := rfl
  unfold onRecvDone
  dsimp only
  split
  · rfl
  · split
    · cases received with
      | failed => exact teardown_outward.clock.trans hoff
      | eof => exact absurd rfl h
      | bytes chunk => exact (postRecv_outward postOk).clock.trans hoff
    split
    · rfl
    cases received with
    | failed => exact teardown_outward.clock.trans hoff
    | eof => exact absurd rfl h
    | bytes chunk =>
      dsimp only
      split
      · exact (postRecv_outward postOk).clock
      · exact (postRecv_outward postOk).clock.trans
          ((queuePump_clock _ _).trans ((routePlaintext_clock chunk _).trans hoff))

theorem start_clock (req : Request) (rest : List Request) (c : HttpConn) :
    (c.start req rest).2.clock = c.clock := rfl

theorem pumpRequests_clock (ran : Nat) (s : Conn) : (pumpRequests backend ran s).clock = s.clock := by
  unfold pumpRequests
  dsimp only
  split
  · rfl
  split
  · exact queuePump_clock _ _
  split
  · rfl
  split
  · rfl
  · split
    · exact httpCloseAfterWrite_outward.clock.trans (httpEnqueue_clock _ _ _)
    · rfl

theorem httpResumeReading_clock (postOk : Bool) (s : Conn) : (httpResumeReading postOk s).clock = s.clock := by
  unfold httpResumeReading
  split
  · exact (postRecv_outward postOk).clock
  · rfl

theorem finishRequest_clock (postOk : Bool) (s : Conn) : (finishRequest backend postOk s).clock = s.clock := by
  cases here : s.net.entry with
  | none =>
    unfold finishRequest
    rw [here]
  | some entry =>
    have h := @finishRequest_finishing backend s postOk (Option.isSome_of_eq_some here)
    generalize finishRequest backend postOk s = s' at h ⊢
    cases h with
    | closed delivered closes => exact httpCloseAfterWrite_outward.clock
    | refused delivered resp closes empty parked =>
      exact httpCloseAfterWrite_outward.clock.trans (httpEnqueue_clock _ _ _)
    | kept delivered closes owed clean => exact httpResumeReading_clock _ _
    | continued delivered closes owed clean =>
      exact (httpResumeReading_clock _ _).trans (httpEnqueue_clock _ _ _)

theorem wsEnd_clock (status : Nat) (reason : String) (code : Nat) (why : String) (s : Conn) :
    (wsEnd backend status reason code why s).clock = s.clock := by
  unfold wsEnd
  split
  · exact httpCloseAfterWrite_outward.clock.trans (httpEnqueue_clock _ _ _)
  · rfl

theorem failRequest_clock (k : Nat) (postOk : Bool) (s : Conn) :
    (failRequest backend k postOk s).clock = s.clock := by
  unfold failRequest
  split
  · rfl
  split
  · exact (finishRequest_clock _ _).trans (wsEnd_clock _ _ _ _ _)
  · split
    · exact finishRequest_clock _ _
    · have hanswered := @httpCloseAfterWrite_outward (releaseAfterResponse (httpEnqueue backend s.current
        (Http.errorResponse 500 "internal server error" s.http.response.activeMinor) { s with
          http := { s.http with
            response := { s.http.response with resp := .done, keepAlive := false, logStatus := 500 } } }))
      exact hanswered.clock.trans (httpEnqueue_clock _ _ _)
    · exact teardown_outward.clock

theorem onCoroFinished_clock (k : Nat) (postOk : Bool) (s : Conn) :
    (onCoroFinished backend k postOk s).clock = s.clock := by
  unfold onCoroFinished
  split
  · rfl
  split
  · exact (finishRequest_clock _ _).trans (wsEnd_clock _ _ _ _ _)
  split
  · exact finishRequest_clock _ _
  · exact failRequest_clock _ _ _

theorem settle_clock (k : Nat) (outcome : Outcome) (postOk : Bool) (s : Conn) :
    (settle backend k outcome postOk s).clock = s.clock := by
  unfold settle
  split
  · split
    · exact finishRequest_clock _ _
    · rfl
  · exact onCoroFinished_clock k postOk (ended k s)
  · exact failRequest_clock k postOk (ended k s)

theorem stepped_clock (outcome : Outcome) (postOk : Bool) (ran : Nat) (s : Conn) :
    (stepped backend outcome postOk ran s).clock = s.clock := by
  have hsettled := @settle_clock backend s.http.started outcome postOk s
  unfold stepped
  extract_lets stays t
  split
  · split
    · exact hsettled
    · exact (pumpRequests_clock ran t).trans hsettled
  · exact hsettled
  · exact (pumpRequests_clock ran t).trans hsettled

theorem tlsIngest_clock (unsealed : Unsealed) (sealing : Sealed) (s : Conn) :
    (tlsIngest backend unsealed sealing s).clock = s.clock := by
  unfold tlsIngest
  split
  · split
    · exact (enqueueRaw_outward _).clock
    · extract_lets t₁ t₂ t₃ t₄
      have h₁ : t₁.clock = s.clock := rfl
      have h₂ : t₂.clock = t₁.clock := by
        dsimp only [t₂]
        split
        · exact httpCloseAfterWrite_outward.clock
        · rfl
      have h₃ : t₃.clock = t₂.clock := (enqueueRaw_outward _).clock
      have h₄ : t₄.clock = t₃.clock := by
        dsimp only [t₄]
        split
        · rfl
        · exact (tlsFlushConn_outward sealing).clock
      have hall : t₄.clock = s.clock := h₄.trans (h₃.trans (h₂.trans h₁))
      split
      · exact hall
      · have hrouted := (@routePlaintext_clock backend unsealed.chunk t₄).trans hall
        split
        rename_i pump routed hroute
        rw [hroute] at hrouted
        split
        · exact (pumpRequests_clock 0 routed).trans hrouted
        · exact hrouted
  · rfl

theorem HttpConn.receive_clock (k : Nat) (c : HttpConn) : (c.receive k).2.clock = c.clock := by
  unfold HttpConn.receive
  split
  · rfl
  split <;> rfl

theorem onReceive_clock (k : Nat) (s : Conn) : (onReceive k s).clock = s.clock := by
  have hclock := HttpConn.receive_clock k s.http
  unfold onReceive
  split
  · rename_i delivery c heq
    rw [heq] at hclock
    exact hclock
  · rename_i c heq
    rw [heq] at hclock
    exact hclock

theorem HttpConn.putBack_clock (body : Bytes) (c : HttpConn) : (c.putBack body).2.clock = c.clock := by
  unfold HttpConn.putBack
  split
  · rfl
  · dsimp only
    split <;> rfl

theorem onPutBack_clock (body : Bytes) (s : Conn) : (onPutBack body s).clock = s.clock := by
  have hclock := HttpConn.putBack_clock body s.http
  unfold onPutBack
  split
  · rename_i waiter c heq
    rw [heq] at hclock
    exact hclock
  · rename_i c heq
    rw [heq] at hclock
    exact hclock

theorem httpSend_clock (k unixSecs : Nat) (msg : Http.Message) (s : Conn) :
    (httpSend backend k unixSecs msg s).clock = s.clock := by
  unfold httpSend
  extract_lets reply c t t'
  have ht : t'.clock = s.clock := frames_clock (fun _ => .request k) reply.enqueued t
  split
  · exact ht
  · exact ht

theorem wsSend_clock (msg : WsMessage) (s : Conn) : (wsSend backend msg s).clock = s.clock := by
  unfold wsSend
  split
  · rfl
  split
  · split
    · rfl
    · extract_lets early c t t'
      have ht : t'.clock = s.clock := httpEnqueue_clock _ _ t
      split
      · exact ht
      · exact (wsIngest_clock _ t').trans ht
  · split
    · rfl
    · exact httpEnqueue_clock _ _ s
  · exact wsEnd_clock _ _ _ _ s

theorem httpBeginShutdown_clock (parked : Bool) (s : Conn) :
    (httpBeginShutdown backend parked s).clock = s.clock := by
  unfold httpBeginShutdown
  split
  · rfl
  split
  · rfl
  · extract_lets busy c r t t₁ t₂
    have ht : t.clock = s.clock := rfl
    split
    · split
      · have ht₂ : t₂.clock = s.clock := (httpEnqueue_clock _ _ t).trans ht
        split
        · exact ht₂
        · exact httpCloseAfterWrite_outward.clock.trans ht₂
      · exact ht
    · split
      · exact ht
      · exact teardown_outward.clock.trans ht

def Event.isSweep : Event → Bool
  | .sweep _ => true
  | _ => false

/-- The peer's EOF comes in. -/
def Event.isEof : Event → Bool
  | .recvDone .eof _ => true
  | _ => false

theorem handle_clock {event : Event} (hsweep : event.isSweep = false) (heof : event.isEof = false) (s : Conn) :
    (handle backend s event).clock = s.clock := by
  unfold handle
  cases event with
  | recvDone received postOk =>
    dsimp only
    split
    · apply onRecvDone_clock
      rintro rfl
      cases heof
    · rfl
  | sendDone => exact (onNet_outward Net.onSendDone_onwards).clock
  | flushCorked => exact (onNet_outward Net.flushCorked_grows.onwards).clock
  | tick nowNs flushImmediately => exact (tick_outward nowNs flushImmediately).clock
  | teardown => exact teardown_outward.clock
  | readPause paused postOk =>
    dsimp only
    split
    · rfl
    split
    · rfl
    · exact (unheld_outward postOk).clock
  | tlsData unsealed sealing =>
    dsimp only
    split
    · exact tlsIngest_clock _ _ _
    · rfl
  | tlsFlush sealing =>
    dsimp only
    split
    · exact (tlsFlushConn_outward sealing).clock
    · rfl
  | pump =>
    dsimp only
    split
    · exact pumpRequests_clock _ _
    · rfl
  | release postOk =>
    dsimp only
    split
    · rfl
    · unfold releaseRequest
      split
      · exact (pumpRequests_clock _ _).trans (finishRequest_clock _ _)
      · rfl
  | stepped outcome postOk =>
    dsimp only
    split
    · rfl
    split
    · exact stepped_clock _ _ _ s
    · rfl
  | spawned ok postOk =>
    dsimp only
    split
    · unfold spawned
      dsimp only
      split
      · rfl
      · exact failRequest_clock _ _ _
    · rfl
  | woken k outcome postOk =>
    dsimp only
    split
    · unfold woken
      extract_lets stays t
      have ht : t.clock = s.clock := settle_clock k outcome postOk s
      split
      · exact ht
      · exact (queuePump_clock _ t).trans ht
    · rfl
  | taskDone k failed postOk =>
    dsimp only
    split
    · exact (pumpRequests_clock _ _).trans (settle_clock _ _ _ _)
    · rfl
  | receive k =>
    dsimp only
    split
    · exact onReceive_clock k s
    · rfl
  | abandon k => rfl
  | putBack k body =>
    dsimp only
    split
    · exact onPutBack_clock body s
    · rfl
  | send k unixSecs msg =>
    dsimp only
    split
    · exact httpSend_clock _ _ _ s
    · rfl
  | wsSend k msg =>
    dsimp only
    split
    · exact wsSend_clock _ s
    · rfl
  | sweep nowNs => cases hsweep
  | shutdown parked => exact httpBeginShutdown_clock _ s

/-- Only a sweep moves what it remembers. -/
theorem connStep_clock {event : Event} (hsweep : event.isSweep = false) (heof : event.isEof = false)
    (s : Conn) : (connStep backend s event).clock = s.clock := by
  unfold connStep
  split
  · rfl
  · exact handle_clock hsweep heof s

/-! ## 2. Open connections -/

/-- While the connection is open nothing is late. -/
theorem Move.unshut {late late' : Prop} (h : Move backend late s s') (hopen : s.shut = false) :
    Move backend late' s s' := by
  cases h with
  | outward h => exact .outward h
  | wrote origin data h => exact .wrote origin data h
  | quiet c tlsData pumps releases pumping delivered h =>
    exact .quiet c tlsData pumps releases pumping delivered h
  | fed chunk here follows noSession alive unshut due =>
    exact .fed chunk here follows noSession alive unshut fun hshut => by simp [hopen] at hshut
  | started pumping here idle queued good => exact .started pumping here idle queued good
  | refused here idle queued bad => exact .refused here idle queued bad
  | finished postOk here active answered due =>
    exact .finished postOk here active answered fun _ hshut => by simp [hopen] at hshut
  | failed here active noSession unanswered => exact .failed here active noSession unanswered

theorem Moves.lasting {late : Prop} (h : Moves backend late s s') : Lasting s s' := by
  induction h with
  | refl => exact ⟨id, id, id⟩
  | tail _ hmove ih => exact ih.trans hmove.lasting

/-- What each move keeps between two open connections, a chain of them keeps that ends in one. -/
theorem Moves.keeps_open {late : Prop} {P : Conn → Prop} (h : Moves backend late s s')
    (hkeeps : ∀ {a b : Conn}, Move backend False a b → a.shut = false → b.shut = false → P a → P b)
    (hopen : s'.shut = false) (hs : P s) : P s' := by
  induction h with
  | refl => exact hs
  | tail _ hmove ih =>
    have hbefore := hmove.lasting.open hopen
    exact hkeeps (hmove.unshut hbefore) hbefore hopen (ih hbefore)

/-- The requests of an open connection are in order, whatever comes late on one that is shut. -/
structure Sound (s : Conn) : Prop where
  session : s.http.Session
  interims : s.shut = false → Interims s

theorem connStep_sound (event : Event) (h : Sound s) : Sound (connStep backend s event) := by
  have hkeeps : ∀ {a b : Conn}, Move backend (s.late event = true) a b → (a.shut = false → Interims a) →
      b.shut = false → Interims b := by
    intro a b hmove ha hopen
    have hbefore := hmove.lasting.open hopen
    exact (hmove.unshut hbefore).interims id (ha hbefore)
  have hoff : s.shut = false → Interims { s with recvOp := false } := by
    intro hopen
    have hinterims := h.interims hopen
    exact ⟨hinterims.inPlace, hinterims.once, hinterims.answering⟩
  obtain ⟨hsession, hinterims⟩ := connStep_keeps (P := fun s => s.shut = false → Interims s) event h.session
    (fun hmove _ => hkeeps hmove) (fun _ => hoff) h.interims
  exact ⟨hsession, hinterims⟩

theorem run_sound (a : Accepted) (events : List Event) : Sound ((connection backend a).run events) :=
  (connection backend a).run_invariant ⟨fun hws => absurd hws Bool.false_ne_true, fun _ => newConn_interims a⟩
    (fun _ event h => connStep_sound event h) events

/-- The timeouts are the listener's. -/
theorem Turn.timeouts {c c' : HttpConn} (h : Turn c c') :
    c'.headTimeoutNs = c.headTimeoutNs ∧ c'.idleTimeoutNs = c.idleTimeoutNs := by
  cases h with
  | quiet h =>
    rw [h.rest]
    exact ⟨rfl, rfl⟩
  | fed noSession h rest =>
    rw [rest, h.rest]
    exact ⟨rfl, rfl⟩
  | started idle queued good => exact ⟨rfl, rfl⟩
  | refused idle queued bad => exact ⟨rfl, rfl⟩
  | finished active rest =>
    rw [rest]
    exact ⟨rfl, rfl⟩
  | failed active keepAlive answered => exact ⟨rfl, rfl⟩

/-- What is left of a connection whose peer has gone: work, or its end. -/
def Conn.Working (s : Conn) : Prop := s.http.active = true ∨ s.http.pending ≠ [] ∨ s.shut = true

theorem Move.working {late : Prop} (h : Move backend late s s') (hgone : s.http.disconnected = true)
    (hworking : s.Working) : s'.http.disconnected = true ∧ s'.Working := by
  have hshut : s.shut = true → s'.shut = true := h.lasting.shut
  have hsame : s'.http.disconnected = s.http.disconnected → s'.http.active = s.http.active →
      (s.http.pending ≠ [] → s'.http.pending ≠ []) → s'.http.disconnected = true ∧ s'.Working := by
    intro hdisconnected hactive hpending
    refine ⟨hdisconnected.trans hgone, ?_⟩
    rcases hworking with hrunning | hqueued | hclosed
    · exact .inl (hactive.trans hrunning)
    · exact .inr (.inl (hpending hqueued))
    · exact .inr (.inr (hshut hclosed))
  cases h with
  | outward h => exact hsame (by rw [h.http]) (by rw [h.http]) (by rw [h.http]; exact id)
  | wrote origin data h =>
    exact hsame (by rw [httpEnqueue_http]) (by rw [httpEnqueue_http]) (by rw [httpEnqueue_http]; exact id)
  | quiet c tlsData pumps releases pumping delivered h =>
    refine ⟨h.disconnected hgone, ?_⟩
    show c.active = true ∨ c.pending ≠ [] ∨ _
    rw [h.rest]
    exact hworking
  | fed chunk here follows noSession alive unshut due =>
    have hfeeds := HttpConn.fedBy_feeds chunk.data chunk.run s.http
    have h := @ingest_ingested backend s chunk alive
    have hfed : (s.http.fedBy chunk.data chunk.run).disconnected = s.http.disconnected ∧
        (s.http.fedBy chunk.data chunk.run).active = s.http.active ∧
        (s.http.pending ≠ [] → (s.http.fedBy chunk.data chunk.run).pending ≠ []) := by
      rw [hfeeds.rest]
      exact ⟨rfl, rfl, fun hqueued hempty => hqueued (List.append_eq_nil_iff.mp hempty).1⟩
    obtain ⟨hdisconnected, hactive, hpending⟩ := hfed
    generalize (ingest backend chunk s).2 = s' at h hsame ⊢
    cases h with
    | dropped trailing => exact ⟨hdisconnected.trans hgone, .inr (.inr (teardown_shut _))⟩
    | answered e =>
      refine ⟨?_, .inr (.inr (httpCloseAfterWrite_shut _))⟩
      rw [httpCloseAfterWrite_outward.http, httpEnqueue_http]
      exact hdisconnected.trans hgone
    | parked resp behind => exact hsame hdisconnected hactive hpending
    | took trailing ok owes => exact hsame hdisconnected hactive hpending
    | deferred trailing ok owes behind => exact hsame hdisconnected hactive hpending
    | continued trailing ok owes idle empty now =>
      apply hsame
      · rw [sendContinue_http]
        exact hdisconnected
      · rw [sendContinue_http]
        exact hactive
      · rw [sendContinue_http]
        exact hpending
  | started pumping here idle queued good => exact ⟨hgone, .inl rfl⟩
  | refused here idle queued bad =>
    refine ⟨?_, .inr (.inr (refuseUpgrade_shut _ _))⟩
    rw [refuseUpgrade_http]
    exact hgone
  | finished postOk here active answered due =>
    -- it closes behind a peer that has gone
    have hcloses : s.http.closes = true := by simp [HttpConn.closes, hgone]
    have h := @finishRequest_finishing backend s postOk here
    generalize finishRequest backend postOk s = s' at h ⊢
    cases h with
    | closed delivered closes =>
      refine ⟨?_, .inr (.inr (httpCloseAfterWrite_shut _))⟩
      rw [httpCloseAfterWrite_outward.http]
      exact hgone
    | refused delivered resp closes empty parked => simp [hcloses] at closes
    | kept delivered closes owed clean => simp [hcloses] at closes
    | continued delivered closes owed clean => simp [hcloses] at closes
  | failed here active noSession unanswered =>
    obtain ⟨response, -, -, hhttp⟩ := @answerFailure_http backend s
    refine ⟨?_, .inr (.inr (answerFailure_shut s))⟩
    rw [hhttp]
    exact hgone

/-- The connection of a peer that has gone is kept for its work. -/
def Conn.Attended (s : Conn) : Prop := s.http.disconnected = true → s.Working

theorem expire_http (phase : SweepPhase) (elapsed : Nat) (s : Conn) :
    (expire backend phase elapsed s).http = s.http := by
  unfold expire
  cases phase with
  | busy => rfl
  | head =>
    dsimp only
    split
    · split
      · rw [teardown_outward.http]
      · rw [httpCloseAfterWrite_outward.http, httpEnqueue_http]
    · rfl
  | idle =>
    dsimp only
    split
    · rw [teardown_outward.http]
    · rfl
  | dead =>
    dsimp only
    generalize (if 0 < s.http.idleTimeoutNs then s.http.idleTimeoutNs
      else disconnectedReclaimFallbackNs) = deadline
    split
    · rw [teardown_outward.http]
    · rfl

theorem httpSweep_disconnected (nowNs : Nat) (s : Conn) :
    (httpSweep backend nowNs s).http.disconnected = s.http.disconnected := by
  unfold httpSweep
  split
  · rfl
  split
  · rw [teardown_outward.http]
  split
  · rfl
  dsimp only
  split
  · rfl
  · rw [expire_http]

/-- The peer's EOF leaves a connection with work, or ends it. -/
theorem eof_attended (postOk : Bool) (h : s.Attended) :
    (onRecvDone backend .eof postOk s).Attended := by
  have hoff : Conn.Attended { s with recvOp := false } := h
  unfold onRecvDone
  dsimp only
  split
  · exact hoff
  split
  · have hdone := onNet_outward (s := { s with recvOp := false }) (f := Net.lingerDone)
      Net.lingerDone_grows.onwards
    intro hgone
    rw [hdone.http] at hgone
    rcases h hgone with hrunning | hqueued | hclosed
    · exact .inl (by rw [hdone.http]; exact hrunning)
    · exact .inr (.inl (by rw [hdone.http]; exact hqueued))
    · exact .inr (.inr (hdone.shut hclosed))
  split
  · exact hoff
  · unfold peerGone
    extract_lets idle c r t
    split
    · exact fun _ => .inr (.inr (teardown_shut t))
    · rename_i hbusy
      intro _
      by_cases hactive : s.http.active = true
      · exact .inl hactive
      · right
        left
        intro hempty
        have hidle : idle = true := decide_eq_true ⟨hactive, hempty⟩
        exact hbusy hidle

theorem connStep_attended (event : Event) (hsession : s.http.Session) (h : s.Attended) :
    (connStep backend s event).Attended := by
  by_cases heof : event.isEof = true
  · unfold connStep
    split
    · exact h
    · cases event with
      | recvDone received postOk =>
        cases received with
        | failed => cases heof
        | eof =>
          unfold handle
          dsimp only
          split
          · exact eof_attended postOk h
          · exact h
        | bytes chunk => cases heof
      | _ => cases heof
  · have hsame : (connStep backend s event).http.disconnected = s.http.disconnected := by
      by_cases hsweep : event.isSweep = true
      · cases event <;> simp only [Event.isSweep, Bool.false_eq_true] at hsweep
        unfold connStep
        split
        · rfl
        · exact httpSweep_disconnected _ s
      · have hclock := @connStep_clock backend event (by simpa using hsweep) (by simpa using heof) s
        exact congrArg Clock.disconnected hclock
    intro hgone
    rw [hsame] at hgone
    exact (connStep_keeps (P := fun s => s.http.disconnected = true ∧ s.Working) event hsession
      (fun hmove _ ha => hmove.working ha.1 ha.2) id ⟨hgone, h hgone⟩).2.2

/-! ## 3. How far the next request has come -/

def Stage.rank : Stage → Nat
  | between => 1
  | head => 2
  | body => 3

/-- No byte at all, the line before a head, the head, the body. -/
def HttpConn.progress (c : HttpConn) : Nat := if c.sawBytes then c.stage.rank else 0

/-- Callbacks that complete no request only move on. -/
theorem drive_forward {cs : List Core.Http.Callback} {stage stage' : Stage} {a : Acc} (h : Acc.Staged stage a)
    (hafter : stage.after cs = some stage') (hok : (a.drive cs).2 = 0)
    (hnone : (a.drive cs).1.completed = a.completed) : stage.rank ≤ stage'.rank := by
  induction cs generalizing a stage with
  | nil =>
    obtain rfl : stage = stage' := Option.some.inj hafter
    exact Nat.le_refl _
  | cons c cs ih =>
    rw [Stage.after] at hafter
    rw [Acc.drive] at hok hnone
    cases hnext : stage.next c with
    | none => simp [hnext] at hafter
    | some next =>
      rw [hnext, Option.bind_some] at hafter
      by_cases hc : (a.callback c).2 = 0
      · rw [if_pos hc] at hok hnone
        obtain ⟨hstaged, reqs, hfed⟩ := Acc.callback_staged h hnext hc
        obtain ⟨-, reqs', hfed'⟩ := Acc.drive_staged hstaged hafter hok
        have hempty : reqs = [] ∧ reqs' = [] := by
          rw [hfed'.completed, hfed.completed, List.append_assoc, List.append_right_eq_self] at hnone
          exact List.append_eq_nil_iff.mp hnone
        have hfirst : (a.callback c).1.completed = a.completed := by
          rw [hfed.completed, hempty.1, List.append_nil]
        apply Nat.le_trans _ (ih hstaged hafter hok (hnone.trans hfirst.symm))
        cases c <;> cases stage <;>
          simp only [Stage.next, reduceCtorEq, Option.some.injEq] at hnext <;> subst hnext
        case messageComplete => simp [Acc.callback, Acc.onMessageComplete] at hfirst
        all_goals decide
      · rw [if_neg hc] at hok
        exact absurd hok hc

/-- A chunk that completes no request moves on with the one under way. -/
theorem HttpConn.fedBy_forward {c : HttpConn} {data : Bytes} {run : Execution} (h : c.Tidy)
    (hfollows : c.follows run) {offset : Option Nat} (hok : (c.parser.feed data.length run).2 = .ok offset)
    (hnone : (c.parser.feed data.length run).1.acc.completed = []) :
    c.progress ≤ (c.fedBy data run).progress := by
  have hsaw : (c.fedBy data run).sawBytes = true := by rw [(fedBy_feeds data run c).rest]
  have hstage := fedBy_stage data run c
  have hrank : c.stage.rank ≤ (c.fedBy data run).stage.rank := by
    cases hup : c.parser.upgraded with
    | true =>
      rw [hup, Bool.true_or, if_pos rfl] at hstage
      rw [hstage]
    | false =>
      obtain ⟨hfailed, hrc, hacc⟩ := feed_ok hup hok
      obtain ⟨stage', hafter⟩ : ∃ stage', c.stage.after run.callbacks = some stage' := by
        rw [follows, hup, hfailed, Bool.false_or, Bool.false_or] at hfollows
        exact Option.isSome_iff_exists.mp hfollows
      rw [hup, hfailed, Bool.false_or, if_neg Bool.false_ne_true, hafter, Option.getD_some] at hstage
      rw [hstage]
      apply drive_forward h.staged hafter hrc
      rw [← hacc, hnone, h.completed]
  unfold HttpConn.progress
  rw [hsaw, if_pos rfl]
  split
  · exact hrank
  · exact Nat.zero_le _

/-- Between two requests, none of which completed meanwhile. -/
structure HttpConn.Advances (c c' : HttpConn) : Prop where
  idle : c'.active = false
  empty : c'.pending = []
  activity : c'.activity = c.activity
  forward : c.progress ≤ c'.progress

theorem HttpConn.Advances.refl {c : HttpConn} (idle : c.active = false) (empty : c.pending = []) :
    c.Advances c := ⟨idle, empty, rfl, Nat.le_refl _⟩

theorem HttpConn.Advances.trans {c c' c'' : HttpConn} (h : c.Advances c') (h' : c'.Advances c'') :
    c.Advances c'' := ⟨h'.idle, h'.empty, h'.activity.trans h.activity, h.forward.trans h'.forward⟩

theorem Turn.parsed {c c' : HttpConn} (h : Turn c c') : c.parsed ≤ c'.parsed := by
  cases h with
  | quiet h =>
    rw [h.rest]
  | fed noSession h rest =>
    rw [rest, h.rest]
    exact Nat.le_add_right _ _
  | started idle queued good => exact Nat.le_refl _
  | refused idle queued bad => exact Nat.le_refl _
  | finished active rest =>
    rw [rest]
    exact Nat.le_refl _
  | failed active keepAlive answered => exact Nat.le_refl _

theorem Move.advances {late : Prop} (h : Move backend late s s') (hs : Interims s) (hopen : s.shut = false)
    (hopen' : s'.shut = false) (idle : s.http.active = false) (empty : s.http.pending = [])
    (hparsed : s'.http.parsed = s.http.parsed) : s.http.Advances s'.http := by
  have hnot : ∀ {p : Prop}, s.http.active = true → p := fun hactive => by simp [idle] at hactive
  cases h with
  | outward h =>
    rw [h.http]
    exact .refl idle empty
  | wrote origin data h =>
    rw [httpEnqueue_http]
    exact .refl idle empty
  | quiet c tlsData pumps releases pumping delivered h =>
    show s.http.Advances c
    rw [h.rest]
    exact ⟨idle, empty, rfl, Nat.le_refl _⟩
  | fed chunk here follows noSession alive unshut due =>
    have htidy := (hs.answering hopen).tidy alive
    have hfeeds := HttpConn.fedBy_feeds chunk.data chunk.run s.http
    have hfed : (s.http.fedBy chunk.data chunk.run).parsed = s.http.parsed →
        (s.http.parser.feed chunk.data.length chunk.run).1.acc.completed = [] := by
      intro hsame
      rw [hfeeds.rest] at hsame
      exact List.eq_nil_of_length_eq_zero (Nat.add_left_cancel (hsame.trans (Nat.add_zero _).symm))
    have htook : ∀ {offset : Option Nat} {c : HttpConn},
        (s.http.parser.feed chunk.data.length chunk.run).2 = .ok offset →
        (s.http.fedBy chunk.data chunk.run).parsed = s.http.parsed →
        c.active = (s.http.fedBy chunk.data chunk.run).active →
        c.pending = (s.http.fedBy chunk.data chunk.run).pending →
        c.activity = (s.http.fedBy chunk.data chunk.run).activity →
        c.progress = (s.http.fedBy chunk.data chunk.run).progress → s.http.Advances c := by
      intro offset c ok hsame hactive hpending hactivity hprogress
      have hnone := hfed hsame
      have hforward := HttpConn.fedBy_forward htidy follows ok hnone
      rw [hfeeds.rest, hnone] at hactive hpending hactivity
      refine ⟨hactive.trans idle, ?_, hactivity, ?_⟩
      · rw [hpending]
        show s.http.pending ++ [] = []
        rw [empty, List.append_nil]
      · rw [hprogress]
        exact hforward
    have h := @ingest_ingested backend s chunk alive
    generalize (ingest backend chunk s).2 = s' at h hopen' hparsed ⊢
    cases h with
    | dropped trailing => simp [teardown_shut] at hopen'
    | answered e => simp [httpCloseAfterWrite_shut] at hopen'
    | parked resp behind =>
      -- a request came in with what could not be read
      exfalso
      have hnone := hfed hparsed
      rcases behind with hactive | hqueued
      · exact hnot hactive
      · apply hqueued
        rw [hfeeds.rest, hnone]
        show s.http.pending ++ [] = []
        rw [empty, List.append_nil]
    | took trailing ok owes => exact htook ok hparsed rfl rfl rfl rfl
    | deferred trailing ok owes behind => exact htook ok hparsed rfl rfl rfl rfl
    | continued trailing ok owes idle empty now =>
      rw [sendContinue_http] at hparsed ⊢
      exact htook ok hparsed rfl rfl rfl rfl
  | started pumping here idle' queued good => simp [empty] at queued
  | refused here idle' queued bad => simp [empty] at queued
  | finished postOk here active answered due => exact hnot active
  | failed here active noSession unanswered => exact hnot active

theorem Moves.advances {late : Prop} (h : Moves backend late s s') (hs : Interims s) (hopen : s'.shut = false)
    (idle : s.http.active = false) (empty : s.http.pending = []) (hparsed : s'.http.parsed = s.http.parsed) :
    s.http.Advances s'.http := by
  have hkept := h.keeps_open (P := fun x => Interims x ∧ s.http.parsed ≤ x.http.parsed ∧
      (x.http.parsed = s.http.parsed → s.http.Advances x.http)) ?_ hopen
    ⟨hs, Nat.le_refl _, fun _ => .refl idle empty⟩
  · exact hkept.2.2 hparsed
  · rintro a b hmove ha hb ⟨hinterims, hbefore, hadvances⟩
    have hmore := hmove.turn.parsed
    refine ⟨hmove.interims id hinterims, hbefore.trans hmore, fun hsame => ?_⟩
    have hstill : a.http.parsed = s.http.parsed := Nat.le_antisymm (hsame ▸ hmore) hbefore
    have hfirst := hadvances hstill
    exact hfirst.trans (hmove.advances hinterims ha hb hfirst.idle hfirst.empty (hsame.trans hstill.symm))

theorem connStep_advances (event : Event) (hs : Sound s) (hopen : (connStep backend s event).shut = false)
    (idle : s.http.active = false) (empty : s.http.pending = [])
    (hparsed : (connStep backend s event).http.parsed = s.http.parsed) :
    s.shut = false ∧ s.http.Advances (connStep backend s event).http := by
  rcases @connStep_moves backend s event hs.session with hmoves | ⟨hmoves, -⟩
  · have hbefore := hmoves.lasting.open hopen
    exact ⟨hbefore, hmoves.advances (hs.interims hbefore) hopen idle empty hparsed⟩
  · have hbefore : s.shut = false := hmoves.lasting.open hopen
    have hinterims := hs.interims hbefore
    exact ⟨hbefore, hmoves.advances ⟨hinterims.inPlace, hinterims.once, hinterims.answering⟩ hopen idle empty
      hparsed⟩

end Cadeloop.Pyshim.Pipeline
