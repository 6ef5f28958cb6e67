import Cadeloop.Pyshim.TlsStage
import Cadeloop.Pyshim.WriteQueueRuns

/-!
# Producers parked on a connection's write pressure (`http.rs`, `net.rs`)

`send()` queues its bytes, staged for encryption or ready for the wire, and parks while more than
the high-water mark waits; a send's completion and the teardown release what is parked.  The write
queue is the one of `WriteQueue` and the stage the one of `TlsStage`.  A future is the number
`create_future` gave it, so futures grow in the order they are made; `parked` and `released` are a
record of the run, which no operation reads.
-/

namespace Cadeloop.Pyshim.Drain

open Cadeloop.Reasoning
open Net (Backend NetState TransportEntry)

/-! ## 1. The connection -/

/-- The configured marks; `Config.__post_init__` refuses others. -/
structure Marks where
  high : Nat
  low : Nat
  ordered : low ≤ high

/-- `SSLObject.write`, and the ciphertext the outgoing BIO holds behind it. -/
inductive Answer where
  | wrote (n : Nat) (cipher : List UInt8)
  -- want-read or want-write
  | wants (cipher : List UInt8)
  | failed

/-- The answers call by call; ciphertext is no shorter than the plaintext it carries. -/
structure SslObject where
  write : Nat → List UInt8 → Answer
  expands : ∀ call data n cipher, write call data = .wrote n cipher →
    min n data.length ≤ cipher.length

structure State where
  net : NetState
  -- `None` on a plaintext connection
  tls : Option (TlsStage.State UInt8)
  -- the calls of `SSLObject.write`
  writes : Nat
  -- `drain_waiters`
  waiters : List Nat
  -- the futures of the `HttpDrained` events to dispatch
  drained : List Nat
  -- the futures made, and those done
  futures : Nat
  done : List Nat
  parked : List Nat
  released : List Nat

def init (marks : Marks) (secure : Bool) : State where
  net := Net.initNet true marks.high marks.low
  tls := if secure then some TlsStage.init else none
  writes := 0
  waiters := []
  drained := []
  futures := 0
  done := []
  parked := []
  released := []

namespace State

def staged (s : State) : Nat := (s.tls.map fun t => t.staged.length).getD 0

/-- The plaintext a `tls_flush_conn` has outside the cell. -/
def inHand (s : State) : Nat := (s.tls.map fun t => t.inHand.length).getD 0

/-- `write_pressure`, of the marks only the sum -/
def writePressure (s : State) (entry : TransportEntry) : Nat := entry.queuedBytes + s.staged

/-- `take_drain_waiters`, and an `HttpDrained` event for each. -/
def release (s : State) : State :=
  { s with
    waiters := []
    drained := s.drained ++ s.waiters
    released := s.released ++ s.waiters }

/-- What an operation left of the write queue; `teardown_lost` releases every producer. -/
def withNet (s : State) (net : NetState) : State :=
  if net.entry.isNone then { s with net }.release else { s with net }

end State

/-! ## 2. Sends -/

variable (backend : Backend) (ssl : SslObject)

/-- `http_enqueue` -/
def httpEnqueue (data : List UInt8) (s : State) : State :=
  if s.net.entry.isNone then s
  else
    match s.tls with
    | some t => { s with tls := some (TlsStage.step t (.enqueue data)) }
    | none => s.withNet (Net.httpEnqueueRaw backend data s.net)

def setResult (done : List Nat) (fut : Nat) : List Nat := if fut ∈ done then done else fut :: done

/-- `set_result` on each, at once. -/
def letGo (futs : List Nat) (s : State) : State :=
  { s with done := futs.foldl setResult s.done, released := s.released ++ futs }

/-- The Python calls of `HttpSend::__call__` in which the connection may go. -/
inductive Window where
  | createFuture
  | done

/-- The end of `HttpSend::__call__`: park while the pressure is over the high-water mark. -/
def backpressure (gone : Option Window) (s : State) : State :=
  match s.net.entry with
  | none => s
  | some entry =>
    if s.writePressure entry ≤ entry.highWater then s
    else
      let fut := s.futures
      let live := s.waiters.filter fun w => decide (w ∉ s.done)
      let s := { s with futures := fut + 1 }
      match gone with
      | none => { s with waiters := live ++ [fut], parked := s.parked ++ [fut] }
      | some .createFuture => letGo [fut] (s.withNet (Net.teardown s.net .failed))
      -- the waiters were taken out of the connection already
      | some .done =>
        letGo (live ++ [fut]) ({ s with waiters := [] }.withNet (Net.teardown s.net .failed))

/-- The dispatch of an `HttpDrained` event. -/
def dispatchDrained (s : State) : State :=
  match s.drained with
  | [] => s
  | fut :: rest => { s with drained := rest, done := setResult s.done fut }

def cancel (fut : Nat) (s : State) : State :=
  if fut < s.futures then { s with done := setResult s.done fut } else s

/-! ## 3. The write queue -/

/-- `on_send_done`: the producers are released before anything more is posted. -/
def onSendDone (s : State) : State :=
  match s.net.entry with
  | none => s
  | some entry =>
    match entry.sendOp with
    | none => s
    | some op =>
      match backend.reports op (s.net.posted.flatMap Net.WriteBuf.slice).length with
      | none => s.withNet (Net.onSendDone backend s.net)
      | some bytes =>
        let s := if s.writePressure (entry.retire bytes) ≤ entry.lowWater then s.release else s
        s.withNet (Net.onSendDone backend s.net)

/-- Part of `tls_flush_conn`, `tls_ingest` or the end of the handshake. -/
def tlsStep (i : TlsStage.Input UInt8) (s : State) : State :=
  if s.net.entry.isNone then s else { s with tls := s.tls.map (TlsStage.step · i) }

/-- `http_close_after_write`, also as the end of a flush that took a close. -/
def closeAfterWrite (i : TlsStage.Input UInt8) (linger : Bool) (s : State) : State :=
  let s := tlsStep i s
  if s.tls.all (·.closing) then s.withNet (Net.closeAfterWrite linger s.net) else s

/-- One round of `tls_flush_conn`'s loop, with the pump behind it. -/
def sslWrite (s : State) : State :=
  match s.tls.bind (·.flight) with
  | some (.writing remaining _) =>
    if s.net.entry.isNone ∨ remaining.isEmpty then s
    else
      let answer :=
        -- nothing can be written behind the `close_notify`
        if s.tls.any (·.shutdownSent) then .failed else ssl.write s.writes remaining
      let s := { s with writes := s.writes + 1 }
      match answer with
      | .wrote n cipher =>
        (tlsStep (if n = 0 then .wants else .wrote n) s).withNet
          (Net.httpEnqueueRaw backend cipher s.net)
      | .wants cipher => (tlsStep .wants s).withNet (Net.httpEnqueueRaw backend cipher s.net)
      | .failed => s.withNet (Net.teardown s.net .failed)
  | _ => s

/-! ## 4. The machine -/

inductive Input where
  -- a `send()` that queued `data`
  | send (data : List UInt8) (gone : Option Window)
  -- what the engine writes itself
  | enqueue (data : List UInt8)
  -- records of the handshake, alerts
  | enqueueRaw (data : List UInt8)
  | cancel (fut : Nat)
  | dispatchDrained
  | onSendDone
  | flushCorked
  | close (linger : Bool)
  | lingerDone
  | lingerExpired
  | teardown
  | tick (nowNs : Nat) (flushImmediately : Bool)
  -- a `TlsFlush` is dispatched, ciphertext came, the handshake is over
  | flush
  | ingest
  | handshakeDone
  -- the rest of a flush: each write, and once nothing is in hand
  | sslWrite
  | written
  | closed (linger : Bool)

def step (s : State) : Input → State
  | .send data gone => backpressure gone (httpEnqueue backend data s)
  | .enqueue data => httpEnqueue backend data s
  | .enqueueRaw data => s.withNet (Net.httpEnqueueRaw backend data s.net)
  | .cancel fut => cancel fut s
  | .dispatchDrained => dispatchDrained s
  | .onSendDone => onSendDone backend s
  | .flushCorked => s.withNet (Net.flushCorked backend s.net)
  | .close linger => closeAfterWrite .close linger s
  | .lingerDone => s.withNet (Net.lingerDone s.net)
  | .lingerExpired => s.withNet (Net.lingerExpired s.net)
  | .teardown => s.withNet (Net.teardown s.net .failed)
  | .tick nowNs flushImmediately => { s with net := { s.net with nowNs, flushImmediately } }
  | .flush => tlsStep .flush s
  | .ingest => tlsStep .ingest s
  | .handshakeDone => tlsStep .handshakeDone s
  | .sslWrite => sslWrite backend ssl s
  | .written => tlsStep .written s
  | .closed linger => if s.tls.isSome then closeAfterWrite .closed linger s else s

def machine (marks : Marks) (secure : Bool) : Machine State Input where
  init := init marks secure
  step := step backend ssl

end Cadeloop.Pyshim.Drain
