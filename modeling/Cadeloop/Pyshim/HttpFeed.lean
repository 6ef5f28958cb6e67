import Cadeloop.Core.Http
import Cadeloop.Pyshim.HttpSend

/-!
# The requests of a connection (`crates/pyshim/src/http.rs`)

`HttpConn` as far as requests go: what the parser is fed, the queue of the requests it completed, the
request that runs and its response.  What writes, closes or reads is in `Pyshim.Pipeline`.

llhttp is a parameter still: a chunk comes with what one call of it does.  What the connection relies
on is the order of its callbacks, a message after the other.
-/

namespace Cadeloop.Pyshim.Pipeline

open Cadeloop.Reasoning
open Core.Http (Callback Execution HttpParser Limits ParseError Request)
open Http (eqIgnoreAsciiCase isAsciiAlphanumeric)

/-! ## 1. The order of the callbacks -/

/-- Where in a message llhttp is. -/
inductive Stage where
  | between
  | head
  | body
  deriving DecidableEq

/-- The stage behind a callback, if it can come there; trailers come with the body. -/
def Stage.next : Stage → Callback → Option Stage
  | .between, .messageBegin => some .head
  | .head, .url _ => some .head
  | .head, .headerField _ => some .head
  | .head, .headerValue _ => some .head
  | .head, .headersComplete _ => some .body
  | .body, .body _ => some .body
  | .body, .headerField _ => some .body
  | .body, .headerValue _ => some .body
  | .body, .messageComplete _ => some .between
  | _, _ => none

def Stage.after : Stage → List Callback → Option Stage
  | stage, [] => some stage
  | stage, c :: cs => (stage.next c).bind fun stage => stage.after cs

/-! ## 2. The handshake of a WebSocket -/

/-- `is_ws_key`. -/
def isWsKey (k : Bytes) : Bool :=
  k.length == 24 && k.drop 22 == ascii "==" &&
    (k.take 22).all fun b => isAsciiAlphanumeric b || (ascii "+/").contains b

structure Verdict where
  upgradeWs : Bool := false
  version13 : Bool := false
  key : Option Bytes := none

def Verdict.header (v : Verdict) (h : Bytes × Bytes) : Verdict :=
  if h.1 = ascii "upgrade" then
    { v with
      upgradeWs := v.upgradeWs || (h.2.splitOn 0x2C).any fun token =>
        eqIgnoreAsciiCase (trim (fun b => b == 0x20 || b == 0x09) token) (ascii "websocket") }
  else if h.1 = ascii "sec-websocket-version" then { v with version13 := h.2 == ascii "13" }
  else if h.1 = ascii "sec-websocket-key" then { v with key := some h.2 }
  else v

/-- `ws_validate`: whether the connection can take the upgrade. -/
def wsValidate (req : Request) : Bool :=
  let v := req.headers.foldl Verdict.header {}
  v.upgradeWs && v.version13 && v.key.any isWsKey && req.method == "GET"

/-! ## 3. The connection -/

def maxPipelineDepth : Nat := 64

def maxPipelineBytes : Nat := 2 ^ 20

def wsMaxMessage : Nat := 2 ^ 20

inductive SweepPhase where
  | idle
  | head
  | busy
  | dead
  deriving DecidableEq

/-- The WebSocket a connection became, without its inbox. -/
structure Session where
  accepted : Bool
  closing : Bool

structure HttpConn where
  parser : HttpParser
  -- parsed and not dispatched
  pending : List Request
  pendingBytes : Nat
  pipelinePaused : Bool
  continueDeferred : Bool
  deferredError : Option Bytes
  active : Bool
  disconnected : Bool
  -- `keep_alive`, the response and the parked `receive()` calls; these by their request
  response : Http.HttpConn
  reqBody : Option Bytes
  reqEpoch : UInt64
  eager : Bool
  -- the request whose Task is on the connection
  task : Option Nat
  ws : Option Session
  wsTrailing : Bytes
  headTimeoutNs : Nat
  idleTimeoutNs : Nat
  activity : UInt32
  sweepPhase : SweepPhase
  sweepSeen : UInt32
  sweepAnchorNs : Nat
  sawBytes : Bool
  -- where llhttp is, how many requests were parsed, dispatched and finished, the ones handed to the
  -- application, and those of them whose coroutine has not ended
  stage : Stage
  parsed : Nat
  started : Nat
  answered : Nat
  handed : List Nat
  coros : List Nat

namespace HttpConn

def new (limits : Limits) (eager : Bool) (headTimeoutNs idleTimeoutNs : Nat) : HttpConn where
  parser := HttpParser.new limits
  pending := []
  pendingBytes := 0
  pipelinePaused := false
  continueDeferred := false
  deferredError := none
  active := false
  disconnected := false
  response := Http.HttpConn.new
  reqBody := none
  reqEpoch := 0
  eager := eager
  task := none
  ws := none
  wsTrailing := []
  headTimeoutNs := headTimeoutNs
  idleTimeoutNs := idleTimeoutNs
  activity := 0
  sweepPhase := .idle
  sweepSeen := 0
  sweepAnchorNs := 0
  sawBytes := false
  stage := .between
  parsed := 0
  started := 0
  answered := 0
  handed := []
  coros := []

/-- The queue is at its depth or byte budget. -/
def pipelineFull (c : HttpConn) : Bool :=
  maxPipelineDepth ≤ c.pending.length ∨ maxPipelineBytes ≤ c.pendingBytes

/-- Drained far enough below the budget to start reading again. -/
def pipelineDrained (c : HttpConn) : Bool :=
  c.pending.length * 2 < maxPipelineDepth ∧ c.pendingBytes * 2 < maxPipelineBytes

/-! ## 4. Feeding -/

structure FeedOutcome where
  pump : Bool
  pauseReading : Bool
  owesContinue : Bool
  oversizeWsTrailing : Bool

/-- llhttp runs on the next chunk, and reports what can come next. -/
def follows (run : Execution) (c : HttpConn) : Bool :=
  c.parser.upgraded || c.parser.failed || (c.stage.after run.callbacks).isSome

/-- The requests the parser completed are drained, an error or not. -/
def takeRequests : Nat → HttpConn → HttpConn
  | 0, c => c
  | n + 1, c =>
    match c.parser.nextRequest with
    | (none, _) => c
    | (some req, parser) =>
      takeRequests n { c with
        parser
        pendingBytes := c.pendingBytes + req.queuedSize
        pending := c.pending ++ [req]
        parsed := c.parsed + 1 }

/-- `HttpParser::feed` on the connection's parser. -/
def fedParser (len : Nat) (run : Execution) (c : HttpConn) :
    Except ParseError (Option Nat) × HttpConn :=
  let (parser, fed) := c.parser.feed len run
  let stage :=
    if c.parser.upgraded || c.parser.failed then c.stage
    else (c.stage.after run.callbacks).getD c.stage
  (fed, { c with parser, stage })

/-- The interim response is owed no more once the body came without it. -/
def dropContinue (c : HttpConn) : HttpConn :=
  if c.continueDeferred ∧ ¬ c.parser.expectingBody then { c with continueDeferred := false } else c

/-- Bytes behind an upgrade head wait for the session, up to a whole message of them. -/
def keepTrailing (data : Bytes) (offset : Option Nat) (c : HttpConn) : Bool × HttpConn :=
  match offset with
  | none => (false, c)
  | some offset =>
    let trailing := data.drop offset
    if c.wsTrailing.length + trailing.length > wsMaxMessage then (true, { c with wsTrailing := [] })
    else (false, { c with wsTrailing := c.wsTrailing ++ trailing })

/-- `conn_feed`. -/
def connFeed (data : Bytes) (run : Execution) (c : HttpConn) :
    Except ParseError FeedOutcome × HttpConn :=
  let (fed, c) := fedParser data.length run { c with sawBytes := true }
  let c := dropContinue (takeRequests c.parser.acc.completed.length c)
  match fed with
  | .error e => (.error e, c)
  | .ok offset =>
    let (oversize, c) := keepTrailing data offset c
    let (owes, parser) := c.parser.takeOwesContinue
    (.ok
      { pump := !c.pending.isEmpty && !c.active
        pauseReading := c.pipelineFull
        owesContinue := owes
        oversizeWsTrailing := oversize }, { c with parser })

/-- `continue_now_or_later`: whether the interim response goes out at once. -/
def continueNowOrLater (c : HttpConn) : Bool × HttpConn :=
  if ¬ c.active ∧ c.pending = [] then (true, c) else (false, { c with continueDeferred := true })

/-! ## 5. A request's turn -/

/-- What the callables of the request started as the `k`-th hold. -/
def epoch (k : Nat) : UInt64 := UInt64.ofNat k

/-- `owns`. -/
def owns (k : Nat) (c : HttpConn) : Bool := c.active && c.reqEpoch == epoch k

/-- The part of `pump_requests` that starts a request; whether it is an upgrade the connection
cannot take. -/
def start (req : Request) (rest : List Request) (c : HttpConn) : Bool × HttpConn :=
  let ws := req.upgrade && wsValidate req
  (req.upgrade && !ws,
    { c with
      pending := rest
      pendingBytes := c.pendingBytes - req.queuedSize
      active := true
      reqEpoch := c.reqEpoch + 1
      response := c.response.startRequest (req.keepAlive && !ws) (req.method == "HEAD")
        req.httpMinor.toNat
      ws := if ws then some { accepted := false, closing := false } else c.ws
      reqBody := some req.body
      started := c.started + 1 })

/-- The connection ends with the request that finishes. -/
def closes (c : HttpConn) : Bool := !c.response.keepAlive || c.disconnected

/-- The reset of `finish_request`, and the parse error that goes out behind the request. -/
def finish (c : HttpConn) : Option Bytes × HttpConn :=
  (if c.pending = [] then c.deferredError else none,
    { c with
      active := false
      reqBody := none
      activity := c.activity + 1
      deferredError := if c.pending = [] then none else c.deferredError
      pending := if c.closes then [] else c.pending
      pendingBytes := if c.closes then 0 else c.pendingBytes
      response := { c.response with recvWaiters := [] }
      answered := c.answered + 1 })

/-- What a `receive()` gives. -/
inductive Delivery where
  | body (body : Bytes)
  | disconnect
  deriving DecidableEq

/-- `HttpReceive::__call__` of the request that runs, a WebSocket's apart. -/
def receive (k : Nat) (c : HttpConn) : Option Delivery × HttpConn :=
  match c.reqBody with
  | some body => (some (.body body), { c with reqBody := none })
  | none =>
    if c.disconnected ∨ c.response.resp = .done then (some .disconnect, c)
    else
      (none, { c with
        response := { c.response with recvWaiters := c.response.recvWaiters ++ [k] } })

/-- A parked `receive()` is cancelled. -/
def abandon (k : Nat) (c : HttpConn) : HttpConn :=
  { c with response := { c.response with recvWaiters := c.response.recvWaiters.erase k } }

/-- `Taken::put_back` of a body: the waiter it goes to instead. -/
def putBack (body : Bytes) (c : HttpConn) : Option Nat × HttpConn :=
  match c.response.recvWaiters with
  | waiter :: rest => (some waiter, { c with response := { c.response with recvWaiters := rest } })
  | [] => (none, if c.reqBody = none then { c with reqBody := some body } else c)

end HttpConn

end Cadeloop.Pyshim.Pipeline
