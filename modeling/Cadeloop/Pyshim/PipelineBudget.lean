import Cadeloop.Pyshim.PipelineTurns

/-!
# The budget of the pipeline

What a connection retains of requests that wait is counted, reading stops where it is too much, and
goes on where it no longer is.  Behind a parse error nothing is parsed any more, and reading goes on
for the peer's EOF.
-/

namespace Cadeloop.Pyshim.Pipeline

open Cadeloop.Reasoning
open Core.Http (Callback Execution Llhttp Request)
open Net (Backend NetState TransportEntry)

variable {backend : Backend} {s s' : Conn} {late : Prop}

/-! ## 1. The invariant -/

/-- Reading is suspended over a full queue, and over none that has drained between two requests. -/
structure HttpConn.Paced (c : HttpConn) : Prop where
  full : c.pipelineFull = true → c.pipelinePaused = true ∨ c.deferredError.isSome = true
  drained : c.pipelinePaused = true → c.pipelineDrained = true → c.active = true

structure Regular (s : Conn) : Prop where
  session : s.http.Session
  budgeted : s.http.Budgeted
  lingers : s.Lingers
  paced : s.shut = false → s.http.Paced

/-- A queue that is full has not drained. -/
theorem HttpConn.full_not_drained {c : HttpConn} (h : c.pipelineFull = true) :
    c.pipelineDrained = false := by
  unfold pipelineFull pipelineDrained maxPipelineDepth maxPipelineBytes at *
  simp only [decide_eq_true_eq, decide_eq_false_iff_not] at h ⊢
  omega

/-- Fewer requests fill no queue. -/
theorem HttpConn.full_of_fewer {c c' : HttpConn} (hlength : c'.pending.length ≤ c.pending.length)
    (hbytes : c'.pendingBytes ≤ c.pendingBytes) (h : c'.pipelineFull = true) :
    c.pipelineFull = true := by
  unfold pipelineFull maxPipelineDepth maxPipelineBytes at *
  simp only [decide_eq_true_eq] at h ⊢
  omega

theorem HttpConn.Paced.quiet {c c' : HttpConn} (h : c.Paced) (hquiet : c.Quiet c') : c'.Paced := by
  rw [hquiet.rest]
  exact ⟨h.full, h.drained⟩

theorem HttpConn.Paced.started {c : HttpConn} {req : Request} {rest : List Request} (h : c.Paced)
    (queued : c.pending = req :: rest) (handed coros : List Nat) :
    HttpConn.Paced { (c.start req rest).2 with handed, coros } where
  full := by
    intro hfull
    apply h.full
    apply full_of_fewer _ _ hfull
    · rw [queued]
      exact Nat.le_succ _
    · exact Nat.sub_le _ _
  drained := fun _ _ => rfl

/-- More requests have not drained where fewer had not. -/
theorem HttpConn.drained_of_fed {data : Bytes} {run : Execution} {c : HttpConn}
    (h : (c.fedBy data run).pipelineDrained = true) : c.pipelineDrained = true := by
  rw [(fedBy_feeds data run c).rest] at h
  unfold pipelineDrained at h ⊢
  simp only [List.length_append, decide_eq_true_eq] at h ⊢
  omega

/-- A chunk that fills the queue pauses reading. -/
theorem HttpConn.Paced.took {c : HttpConn} (h : c.Paced) (data : Bytes) (run : Execution)
    (trailing : Bytes) : (c.took data run trailing).Paced where
  full := by
    intro hfull
    left
    show (c.pipelinePaused || (c.fedBy data run).pipelineFull) = true
    rw [show (c.fedBy data run).pipelineFull = true from hfull, Bool.or_true]
  drained := by
    intro hpaused hdrained
    have hactive : (c.took data run trailing).active = c.active :=
      (fedBy_rest data run c).1
    rw [hactive]
    rcases Bool.or_eq_true_iff.mp hpaused with hpaused | hfull
    · exact h.drained hpaused (drained_of_fed hdrained)
    · have hnot := full_not_drained hfull
      exact absurd (hnot.symm.trans hdrained) (by decide)

theorem HttpConn.Paced.kept {c : HttpConn} (h : c.Paced) : c.kept.resumed.Paced where
  full := by
    intro hfull
    have hnot : c.pipelineDrained = false := full_not_drained (c := c) hfull
    show (c.pipelinePaused && !c.pipelineDrained) = true ∨ _
    rw [hnot, Bool.not_false, Bool.and_true]
    exact h.full hfull
  drained := by
    intro hpaused hdrained
    have hdrained : c.pipelineDrained = true := hdrained
    have hpaused : (c.pipelinePaused && !c.pipelineDrained) = true := hpaused
    rw [hdrained, Bool.not_true, Bool.and_false] at hpaused
    exact absurd hpaused (by decide)

/-- A chunk leaves the requests paced, a parse error in it or not. -/
theorem ingest_paced (chunk : Chunk) (alive : s.http.deferredError = none) (h : s.http.Paced)
    (hopen : (ingest backend chunk s).2.shut = false) : (ingest backend chunk s).2.http.Paced := by
  have hfed := @ingest_ingested backend s chunk alive
  generalize (ingest backend chunk s).2 = s' at hfed hopen ⊢
  obtain ⟨hactive, -, hpaused⟩ := HttpConn.fedBy_rest chunk.data chunk.run s.http
  cases hfed with
  | dropped trailing => exact absurd (hopen.symm.trans (teardown_shut _)) (by decide)
  | answered e => exact absurd (hopen.symm.trans (httpCloseAfterWrite_shut _)) (by decide)
  | parked resp behind =>
    refine ⟨fun _ => .inr rfl, fun held hdrained => ?_⟩
    show (s.http.fedBy chunk.data chunk.run).active = true
    rw [hactive]
    exact h.drained (hpaused ▸ held) (HttpConn.drained_of_fed hdrained)
  | took trailing ok owes => exact h.took _ _ _
  | deferred trailing ok owes behind =>
    have htook := h.took chunk.data chunk.run trailing
    exact ⟨htook.full, htook.drained⟩
  | continued trailing ok owes idle empty now =>
    rw [sendContinue_http]
    exact h.took _ _ _

/-- A request that ends has reading go on once the queue has drained. -/
theorem finishRequest_paced (postOk : Bool) (here : s.net.entry.isSome = true) (h : s.http.Paced)
    (hopen : (finishRequest backend postOk s).shut = false) :
    (finishRequest backend postOk s).http.Paced := by
  have hfinished := @finishRequest_finishing backend s postOk here
  generalize finishRequest backend postOk s = s' at hfinished hopen ⊢
  cases hfinished with
  | closed delivered closes => exact absurd (hopen.symm.trans (httpCloseAfterWrite_shut _)) (by decide)
  | refused delivered resp closes empty parked =>
    exact absurd (hopen.symm.trans (httpCloseAfterWrite_shut _)) (by decide)
  | kept delivered closes owed clean =>
    rw [(httpResumeReading_outward postOk).http]
    exact h.kept
  | continued delivered closes owed clean =>
    rw [(httpResumeReading_outward postOk).http]
    show HttpConn.Paced (sendContinue backend _).http.resumed
    rw [sendContinue_http]
    exact h.kept

theorem Move.paced (h : Move backend late s s') (hpaced : s.shut = false → s.http.Paced)
    (hopen : s'.shut = false) : s'.http.Paced := by
  have h' := hpaced (h.lasting.open hopen)
  cases h with
  | outward h =>
    rw [h.http]
    exact h'
  | wrote origin data h =>
    rw [httpEnqueue_http]
    exact h'
  | quiet c tlsData pumps releases pumping delivered h => exact h'.quiet h
  | fed chunk here follows noSession alive unshut due => exact ingest_paced chunk alive h' hopen
  | started pumping here idle queued good => exact h'.started queued _ _
  | refused here idle queued bad => exact absurd (hopen.symm.trans (refuseUpgrade_shut _ _)) (by decide)
  | finished postOk here active answered due => exact finishRequest_paced postOk here h' hopen
  | failed here active noSession unanswered =>
    exact absurd (hopen.symm.trans (answerFailure_shut s)) (by decide)

theorem Move.regular (h : Move backend late s s') (hs : Regular s) : Regular s' where
  session := session_keeps h.turn hs.session
  budgeted := budgeted_keeps h.turn hs.budgeted
  lingers := h.lasting.lingers hs.lingers
  paced := h.paced hs.paced

/-! ## 2. Runs -/

theorem connStep_regular (event : Event) (h : Regular s ∧ s.Reads) :
    Regular (connStep backend s event) ∧ (connStep backend s event).Reads := by
  obtain ⟨hs, hreads⟩ := h
  rcases @connStep_moves backend s event hs.session with hmoves | ⟨hmoves, hreads⟩
  · exact ⟨hmoves.keeps Move.regular hs, hmoves.keeps (fun h => h.lasting.reads) hreads⟩
  · have hs' : Regular { s with recvOp := false } := ⟨hs.session, hs.budgeted, hs.lingers, hs.paced⟩
    exact ⟨hmoves.keeps Move.regular hs', hreads hs.lingers⟩

theorem newConn_regular (a : Accepted) : Regular (connection backend a).init where
  session := fun hws => absurd hws Bool.false_ne_true
  budgeted := rfl
  lingers := by
    intro entry he hlingering
    obtain rfl := Option.some.inj he
    exact absurd hlingering Bool.false_ne_true
  paced := by
    intro _
    constructor
    · intro hfull
      have hnot : HttpConn.pipelineFull (HttpConn.new a.limits a.eager a.headTimeoutNs
          a.idleTimeoutNs) = false := rfl
      exact absurd (hnot.symm.trans hfull) (by decide)
    · exact fun hpaused => absurd hpaused Bool.false_ne_true

theorem run_regular (a : Accepted) (events : List Event) :
    Regular ((connection backend a).run events) ∧ ((connection backend a).run events).Reads := by
  apply (connection backend a).run_invariant (I := fun s => Regular s ∧ s.Reads)
  · exact ⟨newConn_regular a, fun _ _ _ _ => rfl⟩
  · exact fun s event => connStep_regular event

/-- Over a full queue no receive is posted. -/
theorem postRecv_paused (hlingers : s.Lingers) (hopen : s.shut = false)
    (hpaused : s.http.pipelinePaused = true) (ok : Bool) : postRecv ok s = s := by
  obtain ⟨entry, he, hclosing⟩ := Conn.open_entry hopen
  have hlingering : entry.lingering = false := by
    by_contra hlingering
    exact absurd (hclosing.symm.trans (hlingers entry he (by simpa using hlingering))) (by decide)
  unfold postRecv
  rw [he]
  dsimp only
  split
  · rfl
  · rw [if_pos ⟨by simp [hlingering], hpaused⟩]

/-- An eager plaintext listener without a body limit. -/
def uploads : Accepted where
  highWater := 65536
  lowWater := 16384
  tls := false
  eager := true
  limits := { maxBody := none }
  headTimeoutNs := 0
  idleTimeoutNs := 0

def zeros (n : Nat) : Bytes := List.replicate n 0

def Chunk.request (data : Bytes) (callbacks : List Callback) : Chunk where
  data := data
  run := ⟨callbacks, (1, 0), .ok⟩
  frames := []
  ended := false

def uploadLine : Llhttp := ⟨"POST", 1, 0, false, true⟩

/-- Its head, which keeps the connection alive. -/
def uploadHead : Event := .recvDone (.bytes (.request
  (ascii "POST / HTTP/1.0\r\nConnection: keep-alive\r\nContent-Length: 1048576\r\n\r\n")
  [.messageBegin, .url (ascii "/"), .headerField (ascii "Connection"), .headerValue (ascii "keep-alive"),
    .headerField (ascii "Content-Length"), .headerValue (ascii "1048576"),
    .headersComplete uploadLine])) true

def uploadPiece : Event := .recvDone (.bytes (.request (zeros 4096) [.body (zeros 4096)])) true

def uploadEnd : Event :=
  .recvDone (.bytes (.request (zeros 4096) [.body (zeros 4096), .messageComplete uploadLine])) true

/-- The connection with `n` bytes of the body in. -/
def uploading (n : Nat) : Conn :=
  let conn := (connection Net.Backend.failing uploads).init
  { conn with http := { conn.http with
      sawBytes := true
      stage := .body
      parser := {
        acc := {
          limits := uploads.limits
          url := ascii "/"
          headers := [(ascii "connection", ascii "keep-alive"), (ascii "content-length", ascii "1048576")]
          headerBytes := 41
          body := zeros n }
        version := (1, 0) } } }

theorem uploading_head :
    connStep Net.Backend.failing (connection Net.Backend.failing uploads).init uploadHead = uploading 0 := by
  rfl

theorem zeros_add (n m : Nat) : zeros n ++ zeros m = zeros (n + m) := by
  simp [zeros]

theorem uploading_piece (n : Nat) :
    connStep Net.Backend.failing (uploading n) uploadPiece = uploading (n + 4096) := by
  unfold uploading
  rw [← zeros_add]
  rfl

theorem uploading_pieces (pieces : Nat) : (connection Net.Backend.failing uploads).run
    (uploadHead :: List.replicate pieces uploadPiece) = uploading (pieces * 4096) := by
  induction pieces with
  | zero => exact uploading_head
  | succ pieces ih =>
    rw [List.replicate_succ', ← List.cons_append, Machine.run_concat, ih, Nat.succ_mul]
    exact uploading_piece _

/-- The request as the parser completes it. -/
def uploaded (n : Nat) : Request where
  method := "POST"
  httpMinor := 0
  keepAlive := true
  upgrade := false
  url := ascii "/"
  headers := [(ascii "connection", ascii "keep-alive"), (ascii "content-length", ascii "1048576")]
  body := zeros n

/-- The connection behind the last piece, before it reads on. -/
def waiting (n : Nat) (paused : Bool) : Conn :=
  let conn := (connection Net.Backend.failing uploads).init
  { conn with
    recvOp := false
    pumps := 1
    http := { conn.http with
      sawBytes := true
      parser := { acc := { limits := uploads.limits, inHead := false }, version := (1, 0) }
      pending := [uploaded n]
      pendingBytes := 0 + (uploaded n).queuedSize
      pipelinePaused := paused
      parsed := 1 } }

theorem uploading_end (n : Nat) : connStep Net.Backend.failing (uploading n) uploadEnd =
    postRecv true (waiting (n + 4096) (waiting (n + 4096) false).http.pipelineFull) := by
  unfold uploading waiting uploaded
  rw [← zeros_add]
  rfl

/-- What is left once the pump has taken the request. -/
def running (n : Nat) : Conn :=
  let s := waiting n true
  { s with
    pumps := 0
    pumping := some 1
    http := { (s.http.start (uploaded n) []).2 with handed := [1], coros := [1] } }

theorem waiting_pump (n : Nat) :
    connStep Net.Backend.failing (postRecv true (waiting n true)) .pump = running n := rfl

theorem waiting_full {n : Nat} (h : maxPipelineBytes ≤ n) :
    (waiting n false).http.pipelineFull = true := by
  apply decide_eq_true
  right
  show maxPipelineBytes ≤ 0 + (uploaded n).queuedSize
  have hbody : (uploaded n).body.length = n := by simp [uploaded, zeros]
  unfold Request.queuedSize
  omega

theorem running_paused (n : Nat) : (running n).shut = false ∧
    (running n).http.pipelinePaused = true ∧ (running n).http.pipelineDrained = true ∧
      (running n).recvOp = false := by
  refine ⟨rfl, rfl, decide_eq_true ⟨?_, ?_⟩, rfl⟩
  · show 0 * 2 < maxPipelineDepth
    decide
  · show (0 + (uploaded n).queuedSize - (uploaded n).queuedSize) * 2 < maxPipelineBytes
    rw [Nat.zero_add, Nat.sub_self]
    decide

/-- The body comes in `pieces` of 4096 bytes and a last one. -/
def upload (pieces : Nat) : List Event :=
  uploadHead :: List.replicate pieces uploadPiece ++ [uploadEnd] ++ [.pump]

theorem upload_running {pieces : Nat} (h : maxPipelineBytes ≤ pieces * 4096 + 4096) :
    (connection Net.Backend.failing uploads).run (upload pieces) = running (pieces * 4096 + 4096) := by
  have hstep : (connection Net.Backend.failing uploads).step = connStep Net.Backend.failing := rfl
  rw [upload, Machine.run_concat, Machine.run_concat, uploading_pieces, hstep, uploading_end,
    waiting_full h, waiting_pump]

end Cadeloop.Pyshim.Pipeline
