import Cadeloop.Pyshim.WriteQueue

/-!
# What arrives on a stream transport (`crates/pyshim/src/net.rs`)

The reading side of a transport with a Python protocol, over the writing side of
`Pyshim.WriteQueue`.  Received bytes wait in an event of the loop's queue or, while the protocol has
paused reading, with the transport.  `events` is what the queue and the batch being dispatched hold
of this transport, in order.  The callbacks are steps of the environment between two of the loop's,
and so is each receive completion an inline settle applies.
-/

namespace Cadeloop.Pyshim.Net

/-! ## 1. The state -/

/-- What one receive completion brought, numbered. -/
structure Piece where
  seq : Nat
  data : List UInt8
  deriving DecidableEq

/-- The bytes of several pieces stand for the one vector the code extends. -/
inductive NetEvent where
  | data (piece : Piece)
  | bufData (piece : Piece)
  | heldData (pieces : List Piece)
  | eof
  | recvFailed
  deriving DecidableEq

def NetEvent.pieces : NetEvent → List Piece
  | data piece => [piece]
  | bufData piece => [piece]
  | heldData pieces => pieces
  | eof => []
  | recvFailed => []

structure Stream where
  net : NetState
  recvOp : Bool
  readingPaused : Bool
  pausedRecv : Option (List Piece)
  pausedEof : Bool
  -- a `BufferedProtocol`
  buffered : Bool
  events : List NetEvent
  -- what the kernel delivered and what the protocol got, and who ended it
  received : List Piece
  delivered : List Piece
  peerEof : Bool
  eofReceived : Bool
  connectionLost : Bool
  released : Bool

/-- Neither gone nor closing. -/
def NetState.live (net : NetState) : Bool := net.entry.any fun entry => !entry.closing

def Stream.held (s : Stream) : List Piece := s.pausedRecv.getD []

def Stream.waiting (s : Stream) : List Piece := s.events.flatMap NetEvent.pieces

/-! ## 2. Receiving -/

def postRecv (ok : Bool) (s : Stream) : Stream :=
  if s.recvOp ∨ s.readingPaused ∨ ¬ s.net.live then s
  else if ok then { s with recvOp := true }
  -- behind the completions still queued for dispatch
  else { s with events := s.events ++ [.recvFailed] }

/-- The receive in flight completes: an error, the peer's EOF (no bytes), or bytes. -/
def onRecvDone (result : Option (List UInt8)) (postOk : Bool) (s : Stream) : Stream :=
  let s := { s with recvOp := false }
  -- inbound data after `close()` is discarded
  if ¬ s.net.live then s
  else
    match result with
    | none => { s with net := teardown s.net .failed }
    | some [] =>
      if s.readingPaused then { s with pausedEof := true, peerEof := true }
      else { s with events := s.events ++ [.eof], peerEof := true }
    | some data =>
      let piece := { seq := s.received.length, data := data }
      let s := { s with received := s.received ++ [piece] }
      if s.readingPaused then { s with pausedRecv := some (s.held ++ [piece]) }
      else
        postRecv postOk { s with
          events := s.events ++ [if s.buffered then .bufData piece else .data piece] }

def pauseReading (s : Stream) : Stream := if s.net.live then { s with readingPaused := true } else s

/-- `flush_paused_recv` of a transport that reads. -/
def flushPausedRecv (s : Stream) : Stream :=
  { s with
    events := s.events ++ (s.pausedRecv.map NetEvent.heldData).toList ++
      if s.pausedEof then [.eof] else []
    pausedRecv := none
    pausedEof := false }

def resumeReading (postOk : Bool) (s : Stream) : Stream :=
  if s.net.live ∧ s.readingPaused then
    let eof := s.pausedEof
    let s := flushPausedRecv { s with readingPaused := false }
    if ¬ eof ∧ ¬ s.recvOp then postRecv postOk s else s
  else s

/-! ## 3. Dispatch -/

def routeInbound (pieces : List Piece) (s : Stream) : Stream :=
  if ¬ s.net.live then s
  else if s.readingPaused then { s with pausedRecv := some (s.held ++ pieces) }
  else { s with delivered := s.delivered ++ pieces }

def routeEof (s : Stream) : Stream :=
  if ¬ s.net.live then s
  else if s.readingPaused then { s with pausedEof := true }
  else { s with eofReceived := true }

def dispatchOneEvent (event : NetEvent) (s : Stream) : Stream :=
  match event with
  | .data piece => routeInbound [piece] s
  | .bufData piece => routeInbound [piece] s
  | .heldData pieces => routeInbound pieces s
  | .eof => routeEof s
  | .recvFailed => { s with net := teardown s.net .failed }

def dispatchNext (s : Stream) : Stream :=
  match s.events with
  | [] => s
  | event :: rest => dispatchOneEvent event { s with events := rest }

/-! ## 4. Runs -/

/-- The calls that end a transport at the application's wish, or the loop's. -/
def NetOp.releases : NetOp → Bool
  | close _ => true
  | abort => true
  | teardown => true
  | _ => false

inductive StreamEvent where
  -- the writing side, with what its backend makes of this one operation
  | writing (backend : Backend) (op : NetOp)
  | recvDone (result : Option (List UInt8)) (postOk : Bool)
  | pauseReading
  | resumeReading (postOk : Bool)
  | setProtocol (buffered : Bool)
  | dispatch
  -- `connection_lost`, now or by a later tick
  | connectionLost

def streamStep (s : Stream) : StreamEvent → Stream
  | .writing backend op =>
    { s with
      net := netStep backend s.net op
      recvOp := s.recvOp && !op.releases
      released := s.released || op.releases }
  | .recvDone result postOk =>
    -- the kernel has a receive, and after the EOF it reports nothing else than that or an error
    if s.recvOp ∧ (s.peerEof → result.all (·.isEmpty)) then onRecvDone result postOk s else s
  | .pauseReading => pauseReading s
  | .resumeReading postOk => resumeReading postOk s
  | .setProtocol buffered => { s with net := s.net.on false setProtocol, buffered := buffered }
  | .dispatch => dispatchNext s
  | .connectionLost => if s.net.entry.isNone then { s with connectionLost := true } else s

def newStream (buffered : Bool) (highWater lowWater : Nat) : Stream where
  net := initNet false highWater lowWater
  recvOp := false
  readingPaused := false
  pausedRecv := none
  pausedEof := false
  buffered := buffered
  events := []
  received := []
  delivered := []
  peerEof := false
  eofReceived := false
  connectionLost := false
  released := false

def inbound (buffered postOk : Bool) (highWater lowWater : Nat) :
    Reasoning.Machine Stream StreamEvent where
  init := postRecv postOk (newStream buffered highWater lowWater)
  step := streamStep

end Cadeloop.Pyshim.Net
