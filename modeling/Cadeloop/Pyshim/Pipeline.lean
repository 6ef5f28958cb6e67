import Cadeloop.Pyshim.HttpFeed
import Cadeloop.Pyshim.WsConn

/-!
# A pipelined HTTP connection (`crates/pyshim/src/http.rs`, `net.rs`)

One connection of the native HTTP engine, plaintext or TLS, from its accept on: chunks arrive, the pump
hands the requests in them to the application one at a time, responses and errors go out, the sweep and
the shutdown look at it, and it closes.

What comes with an event: what llhttp does with a chunk, what the frames in it have a WebSocket answer,
what the TLS session makes of the bytes, and whether a receive is posted.  The inbox of a WebSocket is
`Pyshim.WsConn`'s; here it is a flag that holds back reading.  A TLS error is a teardown, and what a
teardown tells the `receive()` calls still parked is left out.
-/

namespace Cadeloop.Pyshim.Pipeline

open Cadeloop.Reasoning
open Core.Http (Execution Limits ParseError Request)
open Http (closeFrame errorResponse processSend)
open Net (Backend NetState TransportEntry)

/-! ## 1. The state -/

structure Tls where
  handshaking : Bool
  staged : Bytes
  closeAfter : Bool
  shutdownSent : Bool

/-- What bytes handed to `http_enqueue` are part of. -/
inductive Origin where
  -- the response to a request, or the WebSocket it became
  | request (k : Nat)
  | interim
  -- to a parse error
  | refusal
  -- the sweep's 408
  | timeout
  deriving DecidableEq

/-- Bytes queued or staged, and the connection as it was then. -/
structure Written where
  origin : Origin
  data : Bytes
  shut : Bool
  parsed : Nat
  answered : Nat
  active : Bool
  expectingBody : Bool
  resp : Http.RespPhase

structure Conn where
  net : NetState
  recvOp : Bool
  -- the inbox of the WebSocket is over its budget
  readingPaused : Bool
  tls : Option Tls
  http : HttpConn
  -- the events not dispatched yet
  tlsData : Nat
  tlsFlushes : Nat
  pumps : Nat
  releases : List Nat
  -- the pump that runs: how many requests it started
  pumping : Option Nat
  -- what was written, and what the `receive()` calls of a request gave
  out : List Written
  delivered : List (Nat × HttpConn.Delivery)

namespace Conn

def staged (s : Conn) : Bytes := (s.tls.map Tls.staged).getD []

/-- Gone, or close-marked: closing, or on TLS to close behind what is staged. -/
def shut (s : Conn) : Bool := s.net.entry.all (·.closing) || s.tls.any (·.closeAfter)

/-- An operation of the writing side; the FIN of a lingering close is followed by a receive. -/
def onNet (f : NetState → NetState) (s : Conn) : Conn :=
  let net := f s.net
  let lingers := fun entry : TransportEntry => entry.lingerUntilNs != 0
  { s with
    net := net
    recvOp := s.recvOp || (net.entry.any lingers && !s.net.entry.any lingers && !s.readingPaused) }

def written (origin : Origin) (data : Bytes) (s : Conn) : Written where
  origin := origin
  data := data
  shut := s.shut
  parsed := s.http.parsed
  answered := s.http.answered
  active := s.http.active
  expectingBody := s.http.parser.expectingBody
  resp := s.http.response.resp

end Conn

/-! ## 2. Writing and closing -/

variable (backend : Backend)

/-- `http_enqueue`. -/
def httpEnqueue (origin : Origin) (data : Bytes) (s : Conn) : Conn :=
  match s.net.entry with
  | none => s
  | some entry =>
    if data = [] then s
    else
      match s.tls with
      | some tls =>
        { s with
          tls := some { tls with staged := tls.staged ++ data }
          tlsFlushes := if tls.staged = [] then s.tlsFlushes + 1 else s.tlsFlushes
          out := s.out ++ [s.written origin data] }
      | none =>
        if entry.closing then s
        else { s with out := s.out ++ [s.written origin data] }.onNet (Net.httpEnqueueRaw backend data)

/-- Unless the peer has finished sending, the connection lingers where a sweep runs. -/
def HttpConn.lingers (c : HttpConn) : Bool :=
  !c.disconnected && (0 < c.idleTimeoutNs || 0 < c.headTimeoutNs)

/-- The part of `http_close_after_write` that marks the entry. -/
def markClosing (s : Conn) : Conn :=
  match s.net.entry with
  | none => s
  | some entry =>
    if entry.closing then s
    else
      { s with recvOp := s.recvOp && s.http.lingers }.onNet (Net.closeAfterWrite s.http.lingers)

def httpCloseAfterWrite (s : Conn) : Conn :=
  match s.net.entry with
  | none => s
  | some entry =>
    match s.tls with
    | none => markClosing s
    | some tls =>
      -- the staged plaintext and the session's close_notify go first
      if tls.staged ≠ [] then { s with tls := some { tls with closeAfter := true } }
      else if ¬ entry.closing ∧ ¬ tls.shutdownSent then
        { s with tls := some { tls with closeAfter := true }, tlsFlushes := s.tlsFlushes + 1 }
      else markClosing s

def teardown (s : Conn) : Conn := s.onNet (Net.teardown · .failed)

/-! ## 3. Reading -/

def postRecv (ok : Bool) (s : Conn) : Conn :=
  match s.net.entry with
  | none => s
  | some entry =>
    if s.recvOp ∨ s.readingPaused ∨ entry.closing ∧ ¬ entry.lingering then s
    else if ¬ entry.lingering ∧ s.http.pipelinePaused then s
    else if ok then { s with recvOp := true }
    else teardown s

/-- `http_resume_reading`. -/
def httpResumeReading (postOk : Bool) (s : Conn) : Conn :=
  if s.http.pipelinePaused ∧ s.http.pipelineDrained then
    postRecv postOk { s with http := { s.http with pipelinePaused := false } }
  else s

def continueResponse : Bytes := ascii "HTTP/1.1 100 Continue\r\n\r\n"

def sendContinue (s : Conn) : Conn := httpEnqueue backend .interim continueResponse s

def errorBytes (e : ParseError) (minor : Nat) : Bytes := errorResponse e.status e.reason minor

/-- The minor version the parser has seen, which answers what it could not read. -/
def HttpConn.seenMinor (c : HttpConn) : Nat := (c.parser.httpVersion.map fun v => v.2.toNat).getD 1

/-- `conn_parse_failed`: whether a pump is due. -/
def connParseFailed (e : ParseError) (s : Conn) : Bool × Conn :=
  if s.http.deferredError.isSome then (false, s)
  else
    let resp := errorBytes e s.http.seenMinor
    if s.http.active ∨ s.http.pending ≠ [] then
      (!s.http.active, { s with http := { s.http with deferredError := some resp } })
    else (false, httpCloseAfterWrite (httpEnqueue backend .refusal resp s))

/-- A chunk of plaintext: what llhttp does with it, or, in a WebSocket, the frames that answer it and
whether one of its frames ends the session. -/
structure Chunk where
  data : Bytes
  run : Execution
  frames : List Bytes
  ended : Bool

/-- What either ingest path does with a chunk of requests; whether a pump is due. -/
def ingest (chunk : Chunk) (s : Conn) : Bool × Conn :=
  match s.http.connFeed chunk.data chunk.run with
  | (.ok outcome, c) =>
    let s := { s with http := c }
    if outcome.oversizeWsTrailing then (false, teardown s)
    else
      let s := { s with http := { c with
        pipelinePaused := c.pipelinePaused || outcome.pauseReading } }
      let (now, c) := if outcome.owesContinue then s.http.continueNowOrLater else (false, s.http)
      let s := { s with http := c }
      (outcome.pump, if now then sendContinue backend s else s)
  | (.error e, c) => connParseFailed backend e { s with http := c }

def setSession (accepted closing : Bool) (s : Conn) : Conn :=
  { s with http := { s.http with ws := some { accepted, closing } } }

/-- The request that runs, or ran last, as bytes of its response are marked. -/
def Conn.current (s : Conn) : Origin := .request s.http.started

/-- `ws_ingest`. -/
def wsIngest (chunk : Chunk) (s : Conn) : Conn :=
  match s.http.ws with
  | none => s
  | some ws =>
    if ¬ ws.accepted then
      if s.http.wsTrailing.length + chunk.data.length > wsMaxMessage then
        let resp := errorResponse 413 "payload too large" s.http.response.activeMinor
        httpCloseAfterWrite
          (httpEnqueue backend s.current resp { s with http := { s.http with wsTrailing := [] } })
      else { s with http := { s.http with wsTrailing := s.http.wsTrailing ++ chunk.data } }
    else
      let s := chunk.frames.foldl (fun s frame => httpEnqueue backend s.current frame s)
        (setSession true (ws.closing || chunk.ended) s)
      if chunk.ended then httpCloseAfterWrite s else s

inductive Received where
  | failed
  | eof
  | bytes (chunk : Chunk)

def queuePump (due : Bool) (s : Conn) : Conn := if due then { s with pumps := s.pumps + 1 } else s

/-- The peer's EOF; mid-request the response is still written. -/
def peerGone (s : Conn) : Conn :=
  let idle : Bool := ¬ s.http.active ∧ s.http.pending = []
  let s := { s with
    delivered := s.delivered ++ s.http.response.recvWaiters.map fun k => (k, .disconnect)
    http := { s.http with
      disconnected := true
      response := { s.http.response with recvWaiters := [] } } }
  if idle then teardown s else s

/-- Plaintext that arrived: for the WebSocket, or for the parser while it lives. -/
def routePlaintext (chunk : Chunk) (s : Conn) : Bool × Conn :=
  if s.http.ws.isSome then (false, wsIngest backend chunk s)
  else if s.http.deferredError.isSome then (false, s)
  else ingest backend chunk s

/-- The receive in flight completes. -/
def onRecvDone (received : Received) (postOk : Bool) (s : Conn) : Conn :=
  let s := { s with recvOp := false }
  match s.net.entry with
  | none => s
  | some entry =>
    if entry.lingering then
      match received with
      | .failed => teardown s
      | .eof => s.onNet Net.lingerDone
      | .bytes _ => postRecv postOk s
    else if entry.closing then s
    else
      match received with
      | .failed => teardown s
      | .eof => peerGone s
      | .bytes chunk =>
        if s.tls.isSome then postRecv postOk { s with tlsData := s.tlsData + 1 }
        else
          let (pump, s) := routePlaintext backend chunk s
          postRecv postOk (queuePump pump s)

/-! ## 4. The pump -/

def pumpQuantum : Nat := 16

/-- One turn of the loop in `pump_requests`, up to the application's code. -/
def pumpRequests (ran : Nat) (s : Conn) : Conn :=
  let s := { s with pumping := none }
  match s.net.entry with
  | none => s
  | some _ =>
    if ran = pumpQuantum then queuePump (!s.http.active && !s.http.pending.isEmpty) s
    else if s.http.active then s
    else
      match s.http.pending with
      | [] => s
      | req :: rest =>
        let (bad, c) := s.http.start req rest
        let s := { s with http := c }
        if bad then
          let resp := errorResponse 400 "bad websocket upgrade" req.httpMinor.toNat
          let c := { c with active := false, response := { c.response with keepAlive := false } }
          httpCloseAfterWrite (httpEnqueue backend s.current resp { s with http := c })
        else
          { s with
            pumping := some (ran + 1)
            http := { c with handed := c.handed ++ [c.started], coros := c.coros ++ [c.started] } }

/-- `finish_request`. -/
def finishRequest (postOk : Bool) (s : Conn) : Conn :=
  match s.net.entry with
  | none => s
  | some _ =>
    let closes := s.http.closes
    let (parked, c) := s.http.finish
    let s := { s with
      delivered := s.delivered ++ s.http.response.recvWaiters.map fun k => (k, .disconnect)
      http := c }
    if closes then httpCloseAfterWrite s
    else
      match parked with
      | some resp => httpCloseAfterWrite (httpEnqueue backend .refusal resp s)
      | none =>
        let owed : Bool := c.continueDeferred ∧ c.pending = [] ∧ c.parser.expectingBody
        let s := if c.pending = [] then { s with http := { c with continueDeferred := false } } else s
        let s := if owed then sendContinue backend s else s
        httpResumeReading postOk s

/-- What a WebSocket session ends with: the rejection of a handshake not accepted, or a close
frame. -/
def wsEnd (status : Nat) (reason : String) (code : Nat) (why : String) (s : Conn) : Conn :=
  match s.net.entry, s.http.ws with
  | some _, some ws =>
    let bytes :=
      if ¬ ws.accepted then errorResponse status reason s.http.response.activeMinor
      else if ws.closing then []
      else closeFrame code why
    httpCloseAfterWrite (httpEnqueue backend s.current bytes (setSession true true s))
  | _, _ => s

/-- The waiters that a complete response releases. -/
def releaseAfterResponse (s : Conn) : Conn :=
  let released := (Http.releaseAfterResponse s.http.response).2
  { s with
    delivered := s.delivered ++ released.map fun k => (k, .disconnect)
    http := { s.http with response := (Http.releaseAfterResponse s.http.response).1 } }

/-- `fail_request`: the coroutine of a request raised. -/
def failRequest (k : Nat) (postOk : Bool) (s : Conn) : Conn :=
  if s.net.entry.isNone ∨ ¬ s.http.owns k then s
  else if s.http.ws.isSome then
    finishRequest backend postOk (wsEnd backend 500 "internal server error" 1011 "" s)
  else
    match s.http.response.resp with
    | .done => finishRequest backend postOk s
    | .idle =>
      let resp := errorResponse 500 "internal server error" s.http.response.activeMinor
      let s := { s with http := { s.http with
        response := { s.http.response with resp := .done, keepAlive := false, logStatus := 500 } } }
      httpCloseAfterWrite (releaseAfterResponse (httpEnqueue backend s.current resp s))
    | _ => teardown s

/-- `on_coro_finished`: the coroutine of a request returned. -/
def onCoroFinished (k : Nat) (postOk : Bool) (s : Conn) : Conn :=
  if s.net.entry.isNone ∨ ¬ s.http.owns k then s
  else if s.http.ws.isSome then
    finishRequest backend postOk (wsEnd backend 403 "forbidden" 1000 "" s)
  else if s.http.response.resp = .done ∨ s.http.disconnected then finishRequest backend postOk s
  else failRequest backend k postOk s

/-- A request still on its connection whose response is complete. -/
def HttpConn.releasable (k : Nat) (c : HttpConn) : Bool :=
  c.owns k && c.response.resp = .done && c.ws.isNone

inductive Outcome where
  | suspended
  | returned
  | raised
  -- what it raised goes on out of the loop
  | exited
  deriving DecidableEq

def ended (k : Nat) (s : Conn) : Conn :=
  { s with http := { s.http with coros := s.http.coros.erase k } }

/-- A step of a request's coroutine is over: it suspended, which releases a request whose response is
complete, or it ended. -/
def settle (k : Nat) (outcome : Outcome) (postOk : Bool) (s : Conn) : Conn :=
  match outcome with
  | .suspended =>
    if s.net.entry.isSome ∧ s.http.releasable k then finishRequest backend postOk s else s
  | .returned => onCoroFinished backend k postOk (ended k s)
  | _ => failRequest backend k postOk (ended k s)

/-- The first step of the request that the pump started: it goes on with the next one, unless this
one stays or its exception goes on out. -/
def stepped (outcome : Outcome) (postOk : Bool) (ran : Nat) (s : Conn) : Conn :=
  let stays : Bool := s.net.entry.isNone ∨ ¬ s.http.releasable s.http.started
  let s' := settle backend s.http.started outcome postOk s
  match outcome with
  | .suspended => if stays then { s' with pumping := none } else pumpRequests backend ran s'
  | .exited => { s' with pumping := none }
  | _ => pumpRequests backend ran s'

/-- The request's coroutine became a Task, or could not. -/
def spawned (ok postOk : Bool) (s : Conn) : Conn :=
  let s := { s with pumping := none }
  let k := s.http.started
  if ok then { s with http := { s.http with task := some k } }
  else failRequest backend k postOk (ended k s)

/-- A later step of an eager request; what it raises out of the loop queues no pump. -/
def woken (k : Nat) (outcome : Outcome) (postOk : Bool) (s : Conn) : Conn :=
  let stays : Bool := s.net.entry.isNone ∨ ¬ s.http.releasable k
  let s := settle backend k outcome postOk s
  if outcome = .exited ∨ outcome = .suspended ∧ stays then s
  else queuePump (s.net.entry.isSome && !s.http.active && !s.http.pending.isEmpty) s

/-- `release_request`. -/
def releaseRequest (k : Nat) (postOk : Bool) (s : Conn) : Conn :=
  if s.net.entry.isSome ∧ s.http.releasable k then
    pumpRequests backend 0
      (finishRequest backend postOk { s with http := { s.http with task := none } })
  else s

/-- `HttpTaskDone::__call__`. -/
def taskDone (k : Nat) (failed postOk : Bool) (s : Conn) : Conn :=
  let s := { s with http := { s.http with
    task := if s.http.task = some k then none else s.http.task } }
  pumpRequests backend 0
    (settle backend k (if failed then .raised else .returned) postOk s)

/-! ## 5. The application -/

def onReceive (k : Nat) (s : Conn) : Conn :=
  match s.http.receive k with
  | (some delivery, c) => { s with http := c, delivered := s.delivered ++ [(k, delivery)] }
  | (none, c) => { s with http := c }

def onPutBack (body : Bytes) (s : Conn) : Conn :=
  match s.http.putBack body with
  | (some waiter, c) => { s with http := c, delivered := s.delivered ++ [(waiter, .body body)] }
  | (none, c) => { s with http := c }

/-- `HttpSend::__call__` of the request that runs: the message, and the release of a Task whose
response it completed. -/
def httpSend (k unixSecs : Nat) (msg : Http.Message) (s : Conn) : Conn :=
  let reply := processSend unixSecs s.http.response msg
  let s := { s with
    delivered := s.delivered ++ reply.released.map fun k => (k, .disconnect)
    http := { s.http with response := reply.conn } }
  let s := reply.enqueued.foldl (fun s data => httpEnqueue backend (.request k) data s) s
  if s.net.entry.isSome ∧ reply.result.toBool ∧ ¬ s.http.eager ∧ s.http.task.isSome ∧
      s.http.releasable k then
    { s with releases := s.releases ++ [k] }
  else s

inductive WsMessage where
  -- the 101, and what the bytes that came early have the session do
  | accept (head : Bytes) (chunk : Chunk)
  | send (frame : Bytes)
  | close (code : Nat) (reason : String)

/-- `ws_send`, of a message it takes. -/
def wsSend (msg : WsMessage) (s : Conn) : Conn :=
  match s.http.ws with
  | none => s
  | some ws =>
    match msg with
    | .accept head chunk =>
      if ws.accepted then s
      else
        let early := s.http.wsTrailing
        let s := setSession true ws.closing { s with http := { s.http with wsTrailing := [] } }
        let s := httpEnqueue backend s.current head s
        if early = [] then s else wsIngest backend { chunk with data := early } s
    | .send frame =>
      if ¬ ws.accepted ∨ ws.closing then s else httpEnqueue backend s.current frame s
    | .close code reason => wsEnd backend 403 "forbidden" code reason s

/-! ## 6. TLS -/

/-- What the session makes of the staged plaintext: how much it consumes, the records it puts out for
that, and the alert of its shutdown. -/
structure Sealed where
  consumed : Nat
  records : Bytes
  alert : Bytes

/-- It consumes what is staged, and puts out records for what it consumes. -/
def Sealed.Valid (sealing : Sealed) (s : Conn) : Prop :=
  sealing.consumed ≤ s.staged.length ∧ sealing.consumed ≤ sealing.records.length

instance (sealing : Sealed) (s : Conn) : Decidable (sealing.Valid s) :=
  inferInstanceAs (Decidable (_ ∧ _))

/-- `tls_flush_conn`. -/
def tlsFlushConn (sealing : Sealed) (s : Conn) : Conn :=
  match s.net.entry, s.tls with
  | some _, some tls =>
    if tls.handshaking then s
    else
      let rest := tls.staged.drop sealing.consumed
      let s := { s with tls := some { tls with staged := rest } }
      let s := s.onNet (Net.httpEnqueueRaw backend sealing.records)
      if rest ≠ [] ∨ ¬ tls.closeAfter then s
      else
        let s := if tls.shutdownSent then s else s.onNet (Net.httpEnqueueRaw backend sealing.alert)
        httpCloseAfterWrite
          { s with tls := some { tls with staged := rest, closeAfter := false, shutdownSent := true } }
  | _, _ => s

/-- What the session makes of the next chunk: whether the handshake is through with it, the records it
answers with, whether it holds the peer's close_notify, and its plaintext. -/
structure Unsealed where
  handshaken : Bool
  records : Bytes
  closeNotify : Bool
  chunk : Chunk

/-- `tls_ingest`. -/
def tlsIngest (unsealed : Unsealed) (sealing : Sealed) (s : Conn) : Conn :=
  match s.net.entry, s.tls with
  | some _, some tls =>
    if tls.handshaking ∧ ¬ unsealed.handshaken then
      s.onNet (Net.httpEnqueueRaw backend unsealed.records)
    else
      let s := { s with tls := some { tls with handshaking := false } }
      let s := if unsealed.closeNotify then httpCloseAfterWrite s else s
      let s := s.onNet (Net.httpEnqueueRaw backend unsealed.records)
      let s := if s.staged = [] then s else tlsFlushConn backend sealing s
      if unsealed.chunk.data = [] ∨ s.net.entry.isNone then s
      else
        let (pump, s) := routePlaintext backend unsealed.chunk s
        if pump then pumpRequests backend 0 s else s
  | _, _ => s

/-! ## 7. The sweep and the shutdown -/

/-- `http_conn_busy`: work that neither may interrupt. -/
def httpConnBusy (entry : TransportEntry) (c : HttpConn) : Bool :=
  entry.wq ≠ [] ∨ entry.sendOp.isSome ∨ c.active ∨ c.pending ≠ [] ∨ c.response.resp = .started ∨
    c.response.resp = .streaming

def disconnectedReclaimFallbackNs : Nat := 60 * 1000000000

def sweepPhase (entry : TransportEntry) (c : HttpConn) : SweepPhase :=
  if c.disconnected ∧ entry.wq = [] ∧ entry.sendOp.isNone then .dead
  else if httpConnBusy entry c then .busy
  else if c.parser.inHead ∨ ¬ c.sawBytes then .head
  else .idle

/-- What a deadline that passed does. -/
def expire (phase : SweepPhase) (elapsed : Nat) (s : Conn) : Conn :=
  match phase with
  | .head =>
    if 0 < s.http.headTimeoutNs ∧ s.http.headTimeoutNs ≤ elapsed then
      -- a session in its handshake can send no 408
      if s.tls.any (·.handshaking) then teardown s
      else
        httpCloseAfterWrite (httpEnqueue backend .timeout
          (errorResponse 408 "Request Timeout" s.http.seenMinor) s)
    else s
  | .idle => if 0 < s.http.idleTimeoutNs ∧ s.http.idleTimeoutNs ≤ elapsed then teardown s else s
  | .dead =>
    let deadline :=
      if 0 < s.http.idleTimeoutNs then s.http.idleTimeoutNs else disconnectedReclaimFallbackNs
    if deadline ≤ elapsed then teardown s else s
  | .busy => s

/-- `http_sweep`. -/
def httpSweep (nowNs : Nat) (s : Conn) : Conn :=
  match s.net.entry with
  | none => s
  | some entry =>
    if entry.lingering ∧ entry.lingerUntilNs ≠ 0 ∧ entry.lingerUntilNs ≤ nowNs then teardown s
    else if entry.closing then s
    else
      let phase := sweepPhase entry s.http
      let moved : Bool := s.http.activity ≠ s.http.sweepSeen
      let s := { s with http := { s.http with sweepSeen := s.http.activity } }
      if phase ≠ s.http.sweepPhase ∨ s.http.sweepAnchorNs = 0 ∨ phase = .busy ∨
          phase = .idle ∧ moved then
        { s with http := { s.http with sweepPhase := phase, sweepAnchorNs := nowNs } }
      else expire backend phase (nowNs - s.http.sweepAnchorNs) s

/-- `http_begin_shutdown`; `parked` when the application waits in a WebSocket's `receive()`. -/
def httpBeginShutdown (parked : Bool) (s : Conn) : Conn :=
  match s.net.entry with
  | none => s
  | some entry =>
    if entry.closing then s
    else
      let busy := httpConnBusy entry s.http
      let s := { s with http := { s.http with
        response := { s.http.response with keepAlive := false } } }
      match s.http.ws with
      | some ws =>
        if ws.accepted ∧ ¬ ws.closing then
          let s := httpEnqueue backend s.current (closeFrame 1012 "server shutdown") s
          let s := setSession true true s
          if parked then s else httpCloseAfterWrite s
        else s
      | none => if busy then s else teardown s

/-! ## 8. Runs -/

inductive Event where
  | recvDone (received : Received) (postOk : Bool)
  | sendDone
  | flushCorked
  | tick (nowNs : Nat) (flushImmediately : Bool)
  -- a TLS error, the loop's close
  | teardown
  -- the inbox of the WebSocket went over its budget, or came back below it
  | readPause (paused postOk : Bool)
  -- the dispatch of queued events
  | tlsData (unsealed : Unsealed) (sealing : Sealed)
  | tlsFlush (sealing : Sealed)
  | pump
  | release (postOk : Bool)
  -- the request that the pump started
  | stepped (outcome : Outcome) (postOk : Bool)
  | spawned (ok postOk : Bool)
  -- the coroutine of a request, later
  | woken (k : Nat) (outcome : Outcome) (postOk : Bool)
  | taskDone (k : Nat) (failed postOk : Bool)
  -- calls on what a request was handed
  | receive (k : Nat)
  | abandon (k : Nat)
  | putBack (k : Nat) (body : Bytes)
  | send (k unixSecs : Nat) (msg : Http.Message)
  | wsSend (k : Nat) (msg : WsMessage)
  | sweep (nowNs : Nat)
  | shutdown (parked : Bool)

/-- While a pump runs the application, only its code runs. -/
def Event.inStep : Event → Bool
  | .stepped _ _ => true
  | .spawned _ _ => true
  | .receive _ => true
  | .abandon _ => true
  | .putBack _ _ => true
  | .send _ _ _ => true
  | .wsSend _ _ => true
  | _ => false

/-- llhttp can do with a chunk what comes with it. -/
def Chunk.follows (chunk : Chunk) (s : Conn) : Bool := s.http.follows chunk.run

/-- No bytes come behind the peer's EOF. -/
def Received.follows (received : Received) (s : Conn) : Bool :=
  match received with
  | .bytes chunk => chunk.follows s && !s.http.disconnected
  | _ => true

/-- A call on what request `k` was handed, which is the connection's still. -/
def Conn.calls (k : Nat) (s : Conn) : Bool :=
  s.net.entry.isSome && s.http.handed.contains k && s.http.reqEpoch == HttpConn.epoch k

/-- What an event does where it can come. -/
def handle (s : Conn) : Event → Conn
  | .recvDone received postOk =>
    if s.recvOp ∧ received.follows s then onRecvDone backend received postOk s else s
  | .sendDone => s.onNet (Net.onSendDone backend)
  | .flushCorked => s.onNet (Net.flushCorked backend)
  | .tick nowNs flushImmediately =>
    s.onNet fun net => { net with nowNs := nowNs, flushImmediately := flushImmediately }
  | .teardown => teardown s
  | .readPause paused postOk =>
    if s.http.ws.isNone then s
    else if paused then { s with readingPaused := true }
    else postRecv postOk { s with readingPaused := false }
  | .tlsData unsealed sealing =>
    if 0 < s.tlsData ∧ sealing.Valid s ∧ unsealed.chunk.follows s then
      tlsIngest backend unsealed sealing { s with tlsData := s.tlsData - 1 }
    else s
  | .tlsFlush sealing =>
    if 0 < s.tlsFlushes ∧ sealing.Valid s then
      tlsFlushConn backend sealing { s with tlsFlushes := s.tlsFlushes - 1 }
    else s
  | .pump => if 0 < s.pumps then pumpRequests backend 0 { s with pumps := s.pumps - 1 } else s
  | .release postOk =>
    match s.releases with
    | [] => s
    | k :: rest => releaseRequest backend k postOk { s with releases := rest }
  | .stepped outcome postOk =>
    match s.pumping with
    | none => s
    | some ran =>
      -- a call that raises is all the pump sees of a request that is to become a Task
      if s.http.eager ∨ outcome = .raised ∨ outcome = .exited then
        stepped backend outcome postOk ran s
      else s
  | .spawned ok postOk =>
    if s.pumping.isSome ∧ ¬ s.http.eager then spawned backend ok postOk s else s
  | .woken k outcome postOk =>
    if s.http.eager ∧ k ∈ s.http.coros then woken backend k outcome postOk s else s
  | .taskDone k failed postOk =>
    if ¬ s.http.eager ∧ k ∈ s.http.coros then taskDone backend k failed postOk s else s
  | .receive k => if s.calls k ∧ s.http.ws.isNone then onReceive k s else s
  | .abandon k => { s with http := s.http.abandon k }
  | .putBack k body => if s.calls k ∧ s.http.ws.isNone then onPutBack body s else s
  | .send k unixSecs msg =>
    if s.calls k ∧ s.http.ws.isNone then httpSend backend k unixSecs msg s else s
  | .wsSend k msg => if s.calls k then wsSend backend msg s else s
  | .sweep nowNs => httpSweep backend nowNs s
  | .shutdown parked => httpBeginShutdown backend parked s

def connStep (s : Conn) (event : Event) : Conn :=
  if s.pumping.isSome ∧ ¬ event.inStep then s else handle backend s event

def newConn (highWater lowWater : Nat) (tls eager : Bool) (limits : Limits)
    (headTimeoutNs idleTimeoutNs : Nat) : Conn where
  net := Net.initNet true highWater lowWater
  recvOp := true
  readingPaused := false
  tls :=
    if tls then
      some { handshaking := true, staged := [], closeAfter := false, shutdownSent := false }
    else none
  http := HttpConn.new limits eager headTimeoutNs idleTimeoutNs
  tlsData := 0
  tlsFlushes := 0
  pumps := 0
  releases := []
  pumping := none
  out := []
  delivered := []

/-- What a connection is accepted with. -/
structure Accepted where
  highWater : Nat
  lowWater : Nat
  tls : Bool
  eager : Bool
  limits : Limits
  headTimeoutNs : Nat
  idleTimeoutNs : Nat

def connection (a : Accepted) : Reasoning.Machine Conn Event where
  init := newConn a.highWater a.lowWater a.tls a.eager a.limits a.headTimeoutNs a.idleTimeoutNs
  step := connStep backend

end Cadeloop.Pyshim.Pipeline
