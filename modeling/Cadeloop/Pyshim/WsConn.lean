import Cadeloop.Pyshim.HttpSend
import Cadeloop.Pyshim.WriteQueue
import Cadeloop.Pyshim.WsInbox

/-!
# The connection of a WebSocket (`crates/pyshim/src/http.rs`, `net.rs`)

One connection from its first byte on: pipelined requests, the upgrade request behind them, its
dispatch, the handshake, the session and its end.  The inbox of `Pyshim.WsInbox` stands between the
frame parser that fills it and the write queue its connection drains.

What comes with an event: what the TLS session (its handshake done) makes of a chunk, whether a
receive is posted, whether the requests queued spend the pipeline budget, and the bytes that answer
the requests before the upgrade.  The stream is well formed up to the end of the upgrade head.
-/

namespace Cadeloop.Pyshim.Http

open Core.Ws Cadeloop.Reasoning
open Net (Backend NetState TransportEntry)

/-! ## 1. The head parser -/

/-- What of the stream llhttp took, and whether it paused behind an upgrade head. -/
structure HttpParser where
  fed : Bytes
  upgraded : Bool

/-- `HttpParser::feed` where the upgrade head ends at `headLen`. -/
def HttpParser.feed (headLen : Nat) (data : Bytes) (p : HttpParser) : Option Nat × HttpParser :=
  if p.upgraded then (some 0, p)
  else
    let consumed := headLen - p.fed.length
    if consumed ≤ data.length then
      (some consumed, { fed := p.fed ++ data.take consumed, upgraded := true })
    else (none, { p with fed := p.fed ++ data })

/-! ## 2. The state -/

def wsMaxMessage : Nat := 2 ^ 20

def wsMaxInbox : Nat := 4 * 2 ^ 20

structure Tls where
  staged : Bytes
  closeAfter : Bool
  shutdownSent : Bool

structure WsConn where
  net : NetState
  recvOp : Bool
  readingPaused : Bool
  tls : Option Tls
  -- the `TlsData` and `TlsFlush` events not dispatched yet
  tlsData : Nat
  tlsFlushes : Nat
  parser : HttpParser
  pipelinePaused : Bool
  -- a head or idle timeout is set, so that a sweep runs
  sweeps : Bool
  activeMinor : Nat
  -- the upgrade request was dispatched
  ws : Bool
  accepted : Bool
  -- `ws_trailing`
  trailing : Bytes
  rx : WsRx
  closing : Bool
  inboxPaused : Bool
  recv : Receiving
  -- the plaintext that came in, and the slices of it pushed into `rx`
  received : Bytes
  pushed : Bytes

namespace WsConn

def staged (s : WsConn) : Nat := (s.tls.map fun tls => tls.staged.length).getD 0

/-- `write_pressure`. -/
def pressure (s : WsConn) (entry : TransportEntry) : Nat := entry.queuedBytes + s.staged

/-- An operation of the writing side; an entry it removes takes the inbox along, and the FIN of a
lingering close is followed by a receive. -/
def onNet (f : NetState → NetState) (s : WsConn) : WsConn :=
  let net := f s.net
  let lingers := fun entry : TransportEntry => entry.lingerUntilNs != 0
  { s with
    net := net
    recvOp := s.recvOp || (net.entry.any lingers && !s.net.entry.any lingers && !s.readingPaused)
    recv := if net.entry.isNone then tornDown s.recv else s.recv }

end WsConn

/-! ## 3. Writing and closing -/

variable (backend : Backend)

def httpEnqueue (data : Bytes) (s : WsConn) : WsConn :=
  if data = [] ∨ s.net.entry.isNone then s
  else
    match s.tls with
    | some tls =>
      { s with
        tls := some { tls with staged := tls.staged ++ data }
        tlsFlushes := if tls.staged = [] then s.tlsFlushes + 1 else s.tlsFlushes }
    | none => s.onNet (Net.httpEnqueueRaw backend data)

/-- The part of `http_close_after_write` that marks the entry. -/
def markClosing (s : WsConn) : WsConn :=
  match s.net.entry with
  | none => s
  | some entry =>
    if entry.closing then s
    else
      let linger : Bool := s.recv.peer = .here ∧ s.sweeps
      { s with recvOp := s.recvOp && linger }.onNet (Net.closeAfterWrite linger)

def httpCloseAfterWrite (s : WsConn) : WsConn :=
  match s.net.entry with
  | none => s
  | some entry =>
    match s.tls with
    | none => markClosing s
    | some tls =>
      -- the staged plaintext and the session's close_notify go first
      if tls.staged ≠ [] then { s with tls := some { tls with closeAfter := true } }
      else if ¬ entry.closing ∧ ¬ tls.shutdownSent then
        { s with tls := some { tls with closeAfter := true }, tlsFlushes := s.tlsFlushes + 1 }
      else markClosing s

/-! ## 4. Reading -/

def postRecv (ok : Bool) (s : WsConn) : WsConn :=
  match s.net.entry with
  | none => s
  | some entry =>
    if s.recvOp ∨ s.readingPaused ∨ entry.closing ∧ ¬ entry.lingering then s
    else if ¬ entry.lingering ∧ (s.pipelinePaused ∨ s.inboxPaused) then s
    else if ok then { s with recvOp := true }
    else s.onNet (Net.teardown · .failed)

/-- `conn_feed`, as far as the bytes go; whether those behind the upgrade head are too many. -/
def connFeed (headLen : Nat) (data : Bytes) (s : WsConn) : Bool × WsConn :=
  match s.parser.feed headLen data with
  | (none, parser) => (false, { s with parser := parser })
  | (some offset, parser) =>
    let trailing := data.drop offset
    if s.trailing.length + trailing.length > wsMaxMessage then
      (true, { s with parser := parser, trailing := [] })
    else (false, { s with parser := parser, trailing := s.trailing ++ trailing })

/-- Bytes before the upgrade is dispatched. -/
def httpIngest (headLen : Nat) (pause : Bool) (data : Bytes) (s : WsConn) : WsConn :=
  let (oversize, s) := connFeed headLen data s
  if oversize then s.onNet (Net.teardown · .failed)
  else { s with pipelinePaused := s.pipelinePaused || pause }

/-- Whether this WebSocket should stop reading, from every reason at once. -/
def WsConn.wantPause (s : WsConn) (entry : TransportEntry) : Bool :=
  if s.inboxPaused then
    s.recv.inboxBytes * 2 ≥ wsMaxInbox ∨ s.pressure entry > entry.lowWater
  else s.recv.inboxBytes ≥ wsMaxInbox ∨ s.pressure entry > entry.highWater

def wsSyncReadPause (postOk : Bool) (s : WsConn) : WsConn :=
  match s.net.entry with
  | none => s
  | some entry =>
    if ¬ s.ws ∨ s.wantPause entry = s.inboxPaused then s
    else if s.wantPause entry then { s with inboxPaused := true, readingPaused := true }
    else if ¬ s.readingPaused then { s with inboxPaused := false }
    else postRecv postOk { s with inboxPaused := false, readingPaused := false }

/-- The longest prefix of at most `max` bytes that splits no character. -/
def truncateOnCharBoundary : Nat → List Char → List Char
  | _, [] => []
  | max, c :: cs =>
    if c.utf8Size ≤ max then c :: truncateOnCharBoundary (max - c.utf8Size) cs else []

def closeFrame (code : Nat) (reason : String) : Bytes :=
  frame opClose
    (beBytes 2 code ++ asBytes (String.ofList (truncateOnCharBoundary 123 reason.toList)))

/-- The control frames owed for the events of a read. -/
def replies (closing : Bool) : List WsEvent → List Bytes
  | [] => []
  | .ping payload :: evs => frame opPong payload :: replies closing evs
  | .close code _ :: evs =>
    (if closing then [] else [if code = 1005 then frame opClose [] else closeFrame code ""]) ++
      replies true evs
  | .fail code why :: evs => (if closing then [] else [closeFrame code why]) ++ replies true evs
  | _ :: evs => replies closing evs

/-- The frames owed go out, and behind those of a Close or a failure the connection closes. -/
def answer (frames : List Bytes) (ended : Bool) (s : WsConn) : WsConn :=
  let s := frames.foldl (fun s frame => httpEnqueue backend frame s) s
  if ended then httpCloseAfterWrite s else s

/-- The part of `ws_ingest` behind the handshake. -/
def wsIngestAccepted (postOk : Bool) (data : Bytes) (s : WsConn) : WsConn :=
  let evs := (s.rx.push data).1
  let ended := evs.any WsEvent.last
  let s := answer backend (replies s.closing evs) ended { s with
    rx := (s.rx.push data).2
    closing := s.closing || ended
    recv := evs.foldl pushEvent s.recv
    pushed := s.pushed ++ data }
  let s := if wakes evs then { s with recv := wakeWaiters s.recv } else s
  wsSyncReadPause postOk s

/-- Inbound bytes of a WebSocket; those that come before the application accepts wait, up to a
whole message of them. -/
def wsIngest (postOk : Bool) (data : Bytes) (s : WsConn) : WsConn :=
  if s.net.entry.isNone then s
  else if ¬ s.accepted then
    if s.trailing.length + data.length > wsMaxMessage then
      httpCloseAfterWrite (httpEnqueue backend (errorResponse 413 "payload too large" s.activeMinor)
        { s with trailing := [] })
    else { s with trailing := s.trailing ++ data }
  else wsIngestAccepted backend postOk data s

/-- The receive in flight completes: an error, the peer's EOF (no bytes; the teardown of an idle
connection follows), or bytes. -/
def onRecvDone (headLen : Nat) (result : Option Bytes) (pause postOk : Bool) (s : WsConn) : WsConn :=
  let s := { s with recvOp := false }
  match s.net.entry with
  | none => s
  | some entry =>
    let plaintext := if s.tls.isSome then [] else result.getD []
    let s := { s with received := s.received ++ plaintext }
    if entry.lingering then
      match result with
      | none => s.onNet (Net.teardown · .failed)
      | some [] => s.onNet Net.lingerDone
      | some _ => postRecv postOk s
    else if entry.closing then s
    else
      match result with
      | none => s.onNet (Net.teardown · .failed)
      | some [] => { s with recv := peerGone s.recv }
      | some data =>
        if s.tls.isSome then postRecv postOk { s with tlsData := s.tlsData + 1 }
        else if s.ws then postRecv postOk (wsIngest backend postOk data s)
        else postRecv postOk (httpIngest headLen pause data s)

/-- `http_resume_reading`, where the budget allows it. -/
def httpResumeReading (postOk : Bool) (s : WsConn) : WsConn :=
  if s.pipelinePaused then postRecv postOk { s with pipelinePaused := false } else s

/-! ## 5. TLS -/

/-- What the session makes of the staged plaintext: how much it consumes, the records it puts out for
that, and the alert of its shutdown. -/
structure Sealed where
  consumed : Nat
  records : Bytes
  alert : Bytes

/-- Encryption adds to what it takes. -/
def Sealed.Valid (sealing : Sealed) (s : WsConn) : Prop :=
  sealing.consumed ≤ s.staged ∧ sealing.consumed ≤ sealing.records.length

instance (sealing : Sealed) (s : WsConn) : Decidable (sealing.Valid s) :=
  inferInstanceAs (Decidable (_ ∧ _))

/-- `tls_flush_conn`. -/
def tlsFlushConn (sealing : Sealed) (s : WsConn) : WsConn :=
  match s.net.entry, s.tls with
  | some _, some tls =>
    let rest := tls.staged.drop sealing.consumed
    let s := { s with tls := some { tls with staged := rest } }
    let s := s.onNet (Net.httpEnqueueRaw backend sealing.records)
    if rest ≠ [] ∨ ¬ tls.closeAfter then s
    else
      let s := if tls.shutdownSent then s else s.onNet (Net.httpEnqueueRaw backend sealing.alert)
      httpCloseAfterWrite
        { s with tls := some { staged := rest, closeAfter := false, shutdownSent := true } }
  | _, _ => s

/-- What the session makes of the next chunk: its plaintext, the records it answers with, and whether
it holds the peer's close_notify. -/
structure Unsealed where
  plaintext : Bytes
  records : Bytes
  closeNotify : Bool

/-- `tls_ingest`. -/
def tlsIngest (headLen : Nat) (unsealed : Unsealed) (sealing : Sealed) (pause postOk : Bool)
    (s : WsConn) : WsConn :=
  if s.net.entry.isNone then s
  else
    let s := { s with received := s.received ++ unsealed.plaintext }
    let s := if unsealed.closeNotify then httpCloseAfterWrite s else s
    let s := s.onNet (Net.httpEnqueueRaw backend unsealed.records)
    let s := if s.staged = 0 then s else tlsFlushConn backend sealing s
    if unsealed.plaintext = [] ∨ s.net.entry.isNone then s
    else if s.ws then wsIngest backend postOk unsealed.plaintext s
    else httpIngest headLen pause unsealed.plaintext s

/-! ## 6. The application and the shutdown -/

/-- `websocket.accept`, with the 101 it makes. -/
def wsAccept (head : Bytes) (postOk : Bool) (s : WsConn) : WsConn :=
  if s.net.entry.isNone ∨ s.accepted then s
  else
    let trailing := s.trailing
    let s := httpEnqueue backend head { s with accepted := true, trailing := [] }
    if trailing = [] then s else wsIngest backend postOk trailing s

/-- `websocket.send`. -/
def wsSend (frame : Bytes) (s : WsConn) : WsConn :=
  if ¬ s.accepted ∨ s.closing then s else httpEnqueue backend frame s

/-- The end of a session, or the rejection of a handshake not accepted. -/
def wsEnd (status : Nat) (reason : String) (code : Nat) (why : String) (s : WsConn) : WsConn :=
  if s.net.entry.isNone then s
  else
    let bytes :=
      if ¬ s.accepted then errorResponse status reason s.activeMinor
      else if s.closing then []
      else closeFrame code why
    httpCloseAfterWrite (httpEnqueue backend bytes { s with accepted := true, closing := true })

/-- `websocket.close`. -/
def wsClose (code : Nat) (reason : String) (s : WsConn) : WsConn :=
  wsEnd backend 403 "forbidden" code reason s

/-- `finish_request`: an upgraded connection is not kept alive. -/
def finishRequest (s : WsConn) : WsConn :=
  let waiters := s.recv.recvWaiters
  let s := httpCloseAfterWrite { s with recv := { s.recv with recvWaiters := [] } }
  let told := waiters.filter s.recv.pending
  { s with recv := { s.recv with
      futs := told.foldl (fun futs fut => futs.set fut .final) s.recv.futs
      told := s.recv.told || !told.isEmpty } }

/-- The application's coroutine returned. -/
def wsAppDone (s : WsConn) : WsConn :=
  finishRequest (wsEnd backend 403 "forbidden" 1000 "" s)

/-- The application's coroutine raised. -/
def failRequest (s : WsConn) : WsConn :=
  finishRequest (wsEnd backend 500 "internal server error" 1011 "" s)

/-- `http_begin_shutdown`. -/
def httpBeginShutdown (s : WsConn) : WsConn :=
  if s.net.entry.all (·.closing) ∨ ¬ s.accepted ∨ s.closing then s
  else
    let s := httpEnqueue backend (closeFrame 1012 "server shutdown") s
    if s.net.entry.isNone then s
    else
      let waiters := s.recv.recvWaiters
      let s := { s with
        closing := true
        recv := pushMsg true (.disconnect 1012) { s.recv with recvWaiters := [] } }
      if waiters = [] then httpCloseAfterWrite s
      else { s with recv := { s.recv with wakes := s.recv.wakes ++ waiters } }

/-- A step of the `receive()` calls; a message that left the inbox, or came back, has the read pause
decided again. -/
def onReceive (postOk : Bool) (event : ReceiveEvent) (s : WsConn) : WsConn :=
  let recv := receiveStep s.recv event
  if recv.inbox.length = s.recv.inbox.length then { s with recv := recv }
  else wsSyncReadPause postOk { s with recv := recv }

/-! ## 7. Runs -/

inductive ConnEvent where
  | recvDone (result : Option Bytes) (pause postOk : Bool)
  | tlsData (unsealed : Unsealed) (sealing : Sealed) (pause postOk : Bool)
  | tlsFlush (sealing : Sealed)
  | sendDone (postOk : Bool)
  | flushCorked
  | lingerExpired
  -- a receive that failed, a sweep, a TLS error, an idle connection's EOF, the loop's close
  | teardown
  | tick (nowNs : Nat) (flushImmediately : Bool)
  -- what is served before the upgrade: bytes that answer, the close behind them, the budget
  | respond (data : Bytes)
  | closeAfterWrite
  | resumeReading (postOk : Bool)
  -- the pump starts the upgrade request
  | dispatch (minor : Nat)
  | accept (head : Bytes) (postOk : Bool)
  | send (frame : Bytes)
  | close (code : Nat) (reason : String)
  | appDone
  | fail
  | receive (event : ReceiveEvent) (postOk : Bool)
  | hangup
  | shutdown

/-- Whether it is not a step of the engine's own. -/
def ReceiveEvent.called : ReceiveEvent → Bool
  | .arrive _ => false
  | _ => true

/-- No bytes come behind the peer's EOF. -/
def WsConn.may (s : WsConn) (result : Option Bytes) : Bool :=
  s.recv.peer == .here || (result.getD []).isEmpty

def connStep (headLen : Nat) (s : WsConn) : ConnEvent → WsConn
  | .recvDone result pause postOk =>
    if s.recvOp ∧ s.may result then onRecvDone backend headLen result pause postOk s else s
  | .tlsData unsealed sealing pause postOk =>
    if 0 < s.tlsData ∧ sealing.Valid s then
      tlsIngest backend headLen unsealed sealing pause postOk { s with tlsData := s.tlsData - 1 }
    else s
  | .tlsFlush sealing =>
    if 0 < s.tlsFlushes ∧ sealing.Valid s then
      tlsFlushConn backend sealing { s with tlsFlushes := s.tlsFlushes - 1 }
    else s
  | .sendDone postOk => wsSyncReadPause postOk (s.onNet (Net.onSendDone backend))
  | .flushCorked => s.onNet (Net.flushCorked backend)
  | .lingerExpired => s.onNet Net.lingerExpired
  | .teardown => s.onNet (Net.teardown · .failed)
  | .tick nowNs flushImmediately =>
    s.onNet fun net => { net with nowNs := nowNs, flushImmediately := flushImmediately }
  | .respond data => if s.ws then s else httpEnqueue backend data s
  | .closeAfterWrite => if s.ws then s else httpCloseAfterWrite s
  | .resumeReading postOk => if s.ws then s else httpResumeReading postOk s
  | .dispatch minor =>
    if s.parser.upgraded ∧ s.net.entry.isSome ∧ ¬ s.ws then
      { s with ws := true, activeMinor := minor }
    else s
  | .accept head postOk => if s.ws then wsAccept backend head postOk s else s
  | .send frame => if s.ws then wsSend backend frame s else s
  | .close code reason => if s.ws then wsClose backend code reason s else s
  | .appDone => if s.ws then wsAppDone backend s else s
  | .fail => if s.ws then failRequest backend s else s
  | .receive event postOk => if s.ws ∧ event.called then onReceive postOk event s else s
  | .hangup => { s with recv := hangup s.recv }
  | .shutdown => if s.ws then httpBeginShutdown backend s else s

/-- Between its look at the inbox and its park a `receive()` runs Python, and that only
destructors. -/
def ConnEvent.midReceive : ConnEvent → Bool
  | .receive .parkWaiter _ => true
  | .receive (.dropResult _) _ => true
  | _ => false

def wsStep (headLen : Nat) (s : WsConn) (event : ConnEvent) : WsConn :=
  if s.recv.parking.isSome ∧ ¬ event.midReceive then s else connStep backend headLen s event

def newWsConn (highWater lowWater : Nat) (tls sweeps : Bool) : WsConn where
  net := Net.initNet true highWater lowWater
  recvOp := true
  readingPaused := false
  tls := if tls then some { staged := [], closeAfter := false, shutdownSent := false } else none
  tlsData := 0
  tlsFlushes := 0
  parser := { fed := [], upgraded := false }
  pipelinePaused := false
  sweeps := sweeps
  activeMinor := 1
  ws := false
  accepted := false
  trailing := []
  rx := WsRx.new wsMaxMessage
  closing := false
  inboxPaused := false
  recv := newReceiving false
  received := []
  pushed := []

def websocket (headLen highWater lowWater : Nat) (tls sweeps : Bool) :
    Reasoning.Machine WsConn ConnEvent where
  init := newWsConn highWater lowWater tls sweeps
  step := wsStep backend headLen

end Cadeloop.Pyshim.Http
