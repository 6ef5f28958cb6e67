import Cadeloop.Pyshim.PipelineProgress
import Cadeloop.Pyshim.WriteQueueRuns

/-!
# The write queue below a pipelined connection

Whatever the connection does, it drives its write queue by the queue's own operations.  So what a
transport keeps of its queue the connection keeps.
-/

namespace Cadeloop.Pyshim.Pipeline

open Cadeloop.Reasoning
open Net (Backend NetState TransportEntry)

variable {backend : Backend} {net net' : NetState} {s : Conn}

/-! ## 1. What drives the queue -/

variable (backend) in
inductive Drive (net : NetState) : NetState → Prop where
  | enqueued (data : Bytes) : Drive net (Net.httpEnqueueRaw backend data net)
  | marked (linger : Bool) : Drive net (Net.closeAfterWrite linger net)
  | lingered : Drive net (Net.lingerDone net)
  | sent : Drive net (Net.onSendDone backend net)
  | flushed : Drive net (Net.flushCorked backend net)
  | torn : Drive net (Net.teardown net .failed)
  | ticked (nowNs : Nat) (flushImmediately : Bool) : Drive net { net with nowNs, flushImmediately }

variable (backend) in
def Driven : NetState → NetState → Prop := Relation.ReflTransGen (Drive backend)

theorem Driven.refl (net : NetState) : Driven backend net net := Relation.ReflTransGen.refl

theorem Driven.by {net'' : NetState} (h : Driven backend net net') (hdrive : Drive backend net' net'') :
    Driven backend net net'' := Relation.ReflTransGen.tail h hdrive

theorem Drive.core (h : Drive backend net net') (hcore : Net.Core true net) : Net.Core true net' := by
  cases h with
  | enqueued data => exact Net.httpEnqueueRaw_core data hcore
  | marked linger => exact Net.closeAfterWrite_core linger hcore
  | lingered => exact Net.lingerDone_core hcore
  | sent => exact Net.onSendDone_core hcore
  | flushed => exact Net.flushCorked_core hcore
  | torn => exact Net.teardown_core hcore fun hend => absurd hend (by simp)
  | ticked nowNs flushImmediately => exact hcore.congr rfl ⟨rfl, rfl, rfl⟩ ⟨rfl, rfl⟩

theorem Driven.core (h : Driven backend net net') (hcore : Net.Core true net) : Net.Core true net' := by
  induction h with
  | refl => exact hcore
  | tail _ hdrive ih => exact hdrive.core ih

/-! ## 2. The operations -/

theorem teardown_driven (h : Driven backend net s.net) : Driven backend net (teardown s).net := h.by .torn

theorem httpEnqueue_driven (origin : Origin) (data : Bytes) (h : Driven backend net s.net) :
    Driven backend net (httpEnqueue backend origin data s).net := by
  unfold httpEnqueue
  split
  · exact h
  split
  · exact h
  split
  · exact h
  split
  · exact h
  · exact h.by (.enqueued data)

theorem markClosing_driven (h : Driven backend net s.net) : Driven backend net (markClosing s).net := by
  unfold markClosing
  split
  · exact h
  split
  · exact h
  · exact h.by (.marked _)

theorem httpCloseAfterWrite_driven (h : Driven backend net s.net) :
    Driven backend net (httpCloseAfterWrite s).net := by
  unfold httpCloseAfterWrite
  split
  · exact h
  split
  · exact markClosing_driven h
  split
  · exact h
  split
  · exact h
  · exact markClosing_driven h

theorem postRecv_driven (ok : Bool) (h : Driven backend net s.net) :
    Driven backend net (postRecv ok s).net := by
  unfold postRecv
  split
  · exact h
  split
  · exact h
  split
  · exact h
  split
  · exact h
  · exact teardown_driven h

theorem httpResumeReading_driven (postOk : Bool) (h : Driven backend net s.net) :
    Driven backend net (httpResumeReading postOk s).net := by
  unfold httpResumeReading
  split
  · exact postRecv_driven postOk h
  · exact h

theorem frames_driven (origin : Conn → Origin) (frames : List Bytes) (h : Driven backend net s.net) :
    Driven backend net
      (frames.foldl (fun s frame => httpEnqueue backend (origin s) frame s) s).net := by
  induction frames generalizing s with
  | nil => exact h
  | cons frame frames ih => exact ih (httpEnqueue_driven (origin s) frame h)

theorem queuePump_driven (due : Bool) (h : Driven backend net s.net) :
    Driven backend net (queuePump due s).net := by
  unfold queuePump
  split
  · exact h
  · exact h

theorem connParseFailed_driven (e : Core.Http.ParseError) (h : Driven backend net s.net) :
    Driven backend net (connParseFailed backend e s).2.net := by
  unfold connParseFailed
  split
  · exact h
  dsimp only
  split
  · exact h
  · exact httpCloseAfterWrite_driven (httpEnqueue_driven _ _ h)

theorem ingest_driven (chunk : Chunk) (h : Driven backend net s.net) :
    Driven backend net (ingest backend chunk s).2.net := by
  unfold ingest
  split
  · dsimp only
    split
    · exact teardown_driven h
    split
    · dsimp only
      split
      · exact httpEnqueue_driven _ _ h
      · exact h
    · exact h
  · exact connParseFailed_driven _ h

theorem wsIngest_driven (chunk : Chunk) (h : Driven backend net s.net) :
    Driven backend net (wsIngest backend chunk s).net := by
  unfold wsIngest
  split
  · exact h
  split
  · split
    · exact httpCloseAfterWrite_driven (httpEnqueue_driven _ _ h)
    · exact h
  · extract_lets t
    have hframes : Driven backend net t.net := frames_driven Conn.current chunk.frames h
    split
    · exact httpCloseAfterWrite_driven hframes
    · exact hframes

theorem routePlaintext_driven (chunk : Chunk) (h : Driven backend net s.net) :
    Driven backend net (routePlaintext backend chunk s).2.net := by
  unfold routePlaintext
  split
  · exact wsIngest_driven chunk h
  split
  · exact h
  · exact ingest_driven chunk h

theorem peerGone_driven (h : Driven backend net s.net) : Driven backend net (peerGone s).net := by
  unfold peerGone
  dsimp only
  split
  · exact teardown_driven h
  · exact h

theorem onRecvDone_driven (received : Received) (postOk : Bool) (h : Driven backend net s.net) :
    Driven backend net (onRecvDone backend received postOk s).net := by
  unfold onRecvDone
  dsimp only
  split
  · exact h
  split
  · cases received with
    | failed => exact teardown_driven h
    | eof => exact h.by .lingered
    | bytes chunk => exact postRecv_driven postOk h
  split
  · exact h
  cases received with
  | failed => exact teardown_driven h
  | eof => exact peerGone_driven h
  | bytes chunk =>
    dsimp only
    split
    · exact postRecv_driven postOk h
    · exact postRecv_driven postOk (queuePump_driven _ (routePlaintext_driven chunk h))

theorem pumpRequests_driven (ran : Nat) (h : Driven backend net s.net) :
    Driven backend net (pumpRequests backend ran s).net := by
  unfold pumpRequests
  dsimp only
  split
  · exact h
  split
  · exact queuePump_driven _ h
  split
  · exact h
  split
  · exact h
  split
  · exact httpCloseAfterWrite_driven (httpEnqueue_driven _ _ h)
  · exact h

theorem finishRequest_driven (postOk : Bool) (h : Driven backend net s.net) :
    Driven backend net (finishRequest backend postOk s).net := by
  cases here : s.net.entry with
  | none =>
    unfold finishRequest
    rw [here]
    exact h
  | some entry =>
    have hfinishing := @finishRequest_finishing backend s postOk (Option.isSome_of_eq_some here)
    generalize finishRequest backend postOk s = s' at hfinishing ⊢
    cases hfinishing with
    | closed delivered closes => exact httpCloseAfterWrite_driven h
    | refused delivered resp closes empty parked =>
      exact httpCloseAfterWrite_driven (httpEnqueue_driven _ _ h)
    | kept delivered closes owed clean => exact httpResumeReading_driven postOk h
    | continued delivered closes owed clean =>
      exact httpResumeReading_driven postOk (httpEnqueue_driven _ _ h)

theorem wsEnd_driven (status : Nat) (reason : String) (code : Nat) (why : String)
    (h : Driven backend net s.net) :
    Driven backend net (wsEnd backend status reason code why s).net := by
  unfold wsEnd
  split
  · exact httpCloseAfterWrite_driven (httpEnqueue_driven _ _ h)
  · exact h

theorem failRequest_driven (k : Nat) (postOk : Bool) (h : Driven backend net s.net) :
    Driven backend net (failRequest backend k postOk s).net := by
  unfold failRequest
  split
  · exact h
  split
  · exact finishRequest_driven postOk (wsEnd_driven _ _ _ _ h)
  split
  · exact finishRequest_driven postOk h
  · have hanswered : Driven backend net (releaseAfterResponse (httpEnqueue backend s.current
        (Http.errorResponse 500 "internal server error" s.http.response.activeMinor) { s with
          http := { s.http with
            response := { s.http.response with
              resp := .done, keepAlive := false, logStatus := 500 } } })).net :=
      httpEnqueue_driven _ _ h
    exact httpCloseAfterWrite_driven hanswered
  · exact teardown_driven h

theorem onCoroFinished_driven (k : Nat) (postOk : Bool) (h : Driven backend net s.net) :
    Driven backend net (onCoroFinished backend k postOk s).net := by
  unfold onCoroFinished
  split
  · exact h
  split
  · exact finishRequest_driven postOk (wsEnd_driven _ _ _ _ h)
  split
  · exact finishRequest_driven postOk h
  · exact failRequest_driven k postOk h

theorem settle_driven (k : Nat) (outcome : Outcome) (postOk : Bool) (h : Driven backend net s.net) :
    Driven backend net (settle backend k outcome postOk s).net := by
  unfold settle
  split
  · split
    · exact finishRequest_driven postOk h
    · exact h
  · exact onCoroFinished_driven k postOk h
  · exact failRequest_driven k postOk h

theorem stepped_driven (outcome : Outcome) (postOk : Bool) (ran : Nat) (h : Driven backend net s.net) :
    Driven backend net (stepped backend outcome postOk ran s).net := by
  have hsettled := settle_driven s.http.started outcome postOk h
  unfold stepped
  extract_lets stays t
  split
  · split
    · exact hsettled
    · exact pumpRequests_driven ran hsettled
  · exact hsettled
  · exact pumpRequests_driven ran hsettled

theorem woken_driven (k : Nat) (outcome : Outcome) (postOk : Bool) (h : Driven backend net s.net) :
    Driven backend net (woken backend k outcome postOk s).net := by
  have hsettled := settle_driven k outcome postOk h
  unfold woken
  extract_lets stays t
  split
  · exact hsettled
  · exact queuePump_driven _ hsettled

theorem httpSend_driven (k unixSecs : Nat) (msg : Http.Message) (h : Driven backend net s.net) :
    Driven backend net (httpSend backend k unixSecs msg s).net := by
  unfold httpSend
  extract_lets reply c t t'
  have ht : Driven backend net t'.net := frames_driven (fun _ => .request k) reply.enqueued h
  split
  · exact ht
  · exact ht

theorem wsSend_driven (msg : WsMessage) (h : Driven backend net s.net) :
    Driven backend net (wsSend backend msg s).net := by
  unfold wsSend
  split
  · exact h
  split
  · split
    · exact h
    · extract_lets early c t t'
      have ht : Driven backend net t'.net := httpEnqueue_driven _ _ h
      split
      · exact ht
      · exact wsIngest_driven _ ht
  · split
    · exact h
    · exact httpEnqueue_driven _ _ h
  · exact wsEnd_driven _ _ _ _ h

theorem tlsFlushConn_driven (sealing : Sealed) (h : Driven backend net s.net) :
    Driven backend net (tlsFlushConn backend sealing s).net := by
  unfold tlsFlushConn
  split
  · split
    · exact h
    extract_lets rest t t' t''
    have ht : Driven backend net t'.net := h.by (.enqueued sealing.records)
    split
    · exact ht
    · have ht' : Driven backend net t''.net := by
        dsimp only [t'']
        split
        · exact ht
        · exact ht.by (.enqueued sealing.alert)
      exact httpCloseAfterWrite_driven ht'
  · exact h

theorem tlsIngest_driven (unsealed : Unsealed) (sealing : Sealed) (h : Driven backend net s.net) :
    Driven backend net (tlsIngest backend unsealed sealing s).net := by
  unfold tlsIngest
  split
  · split
    · exact h.by (.enqueued unsealed.records)
    · extract_lets t₁ t₂ t₃ t₄
      have h₂ : Driven backend net t₂.net := by
        dsimp only [t₂]
        split
        · exact httpCloseAfterWrite_driven h
        · exact h
      have h₃ : Driven backend net t₃.net := h₂.by (.enqueued unsealed.records)
      have h₄ : Driven backend net t₄.net := by
        dsimp only [t₄]
        split
        · exact h₃
        · exact tlsFlushConn_driven sealing h₃
      split
      · exact h₄
      · have hrouted := routePlaintext_driven unsealed.chunk h₄
        split
        rename_i pump routed hroute
        rw [hroute] at hrouted
        split
        · exact pumpRequests_driven 0 hrouted
        · exact hrouted
  · exact h

theorem expire_driven (phase : SweepPhase) (elapsed : Nat) (h : Driven backend net s.net) :
    Driven backend net (expire backend phase elapsed s).net := by
  unfold expire
  split
  · split
    · split
      · exact teardown_driven h
      · exact httpCloseAfterWrite_driven (httpEnqueue_driven _ _ h)
    · exact h
  · split
    · exact teardown_driven h
    · exact h
  · extract_lets deadline
    split
    · exact teardown_driven h
    · exact h
  · exact h

theorem httpSweep_driven (nowNs : Nat) (h : Driven backend net s.net) :
    Driven backend net (httpSweep backend nowNs s).net := by
  unfold httpSweep
  split
  · exact h
  split
  · exact teardown_driven h
  split
  · exact h
  dsimp only
  split
  · exact h
  · exact expire_driven _ _ h

theorem httpBeginShutdown_driven (parked : Bool) (h : Driven backend net s.net) :
    Driven backend net (httpBeginShutdown backend parked s).net := by
  unfold httpBeginShutdown
  split
  · exact h
  split
  · exact h
  · extract_lets busy c r t t₁ t₂
    split
    · split
      · have ht₂ : Driven backend net t₂.net := httpEnqueue_driven _ _ h
        split
        · exact ht₂
        · exact httpCloseAfterWrite_driven ht₂
      · exact h
    · split
      · exact h
      · exact teardown_driven h

/-! ## 3. An event -/

theorem handle_driven (event : Event) (h : Driven backend net s.net) :
    Driven backend net (handle backend s event).net := by
  unfold handle
  cases event with
  | recvDone received postOk =>
    dsimp only
    split
    · exact onRecvDone_driven received postOk h
    · exact h
  | sendDone => exact h.by .sent
  | flushCorked => exact h.by .flushed
  | tick nowNs flushImmediately => exact h.by (.ticked nowNs flushImmediately)
  | teardown => exact teardown_driven h
  | readPause paused postOk =>
    dsimp only
    split
    · exact h
    split
    · exact h
    · exact postRecv_driven postOk h
  | tlsData unsealed sealing =>
    dsimp only
    split
    · exact tlsIngest_driven unsealed sealing h
    · exact h
  | tlsFlush sealing =>
    dsimp only
    split
    · exact tlsFlushConn_driven sealing h
    · exact h
  | pump =>
    dsimp only
    split
    · exact pumpRequests_driven 0 h
    · exact h
  | release postOk =>
    dsimp only
    split
    · exact h
    · unfold releaseRequest
      split
      · exact pumpRequests_driven 0 (finishRequest_driven postOk h)
      · exact h
  | stepped outcome postOk =>
    dsimp only
    split
    · exact h
    split
    · exact stepped_driven outcome postOk _ h
    · exact h
  | spawned ok postOk =>
    dsimp only
    split
    · unfold spawned
      dsimp only
      split
      · exact h
      · exact failRequest_driven _ postOk h
    · exact h
  | woken k outcome postOk =>
    dsimp only
    split
    · exact woken_driven k outcome postOk h
    · exact h
  | taskDone k failed postOk =>
    dsimp only
    split
    · unfold taskDone
      exact pumpRequests_driven 0 (settle_driven k _ postOk h)
    · exact h
  | receive k =>
    dsimp only
    split
    · unfold onReceive
      split
      · exact h
      · exact h
    · exact h
  | abandon k => exact h
  | putBack k body =>
    dsimp only
    split
    · unfold onPutBack
      split
      · exact h
      · exact h
    · exact h
  | send k unixSecs msg =>
    dsimp only
    split
    · exact httpSend_driven k unixSecs msg h
    · exact h
  | wsSend k msg =>
    dsimp only
    split
    · exact wsSend_driven msg h
    · exact h
  | sweep nowNs => exact httpSweep_driven nowNs h
  | shutdown parked => exact httpBeginShutdown_driven parked h

theorem connStep_driven (event : Event) (s : Conn) :
    Driven backend s.net (connStep backend s event).net := by
  unfold connStep
  split
  · exact .refl s.net
  · exact handle_driven event (.refl s.net)

/-- The connection's queue is kept as a transport's is. -/
theorem run_core (a : Accepted) (events : List Event) :
    Net.Core true ((connection backend a).run events).net :=
  (connection backend a).run_invariant (I := fun s => Net.Core true s.net)
    (Net.stream_sound backend true a.highWater a.lowWater []).1
    (fun s event h => (connStep_driven event s).core h) events

end Cadeloop.Pyshim.Pipeline
