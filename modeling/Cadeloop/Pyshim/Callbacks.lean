import Cadeloop.Pyshim.Inbound

/-!
# The calls a stream transport makes to its protocol (`crates/pyshim/src/net.rs`)

Over the writing and the reading side, the events that end in a call of the protocol: received data
in the rounds of a buffered protocol, `pause_writing` out of a write and `resume_writing` by an event,
`connection_lost` directly or through `call_soon`.  While a data callback or `resume_writing` runs,
the loop dispatches nothing else, but the protocol may use the transport.  The events of this
transport other than its inbound ones are in `queue`, and in `hand` once a tick has taken them.
Whether a teardown delivers `connection_lost` directly is a parameter.
-/

namespace Cadeloop.Pyshim.Net

/-! ## 1. Calls -/

inductive Call where
  | connectionMade
  | dataReceived (data : List UInt8)
  | getBuffer
  | bufferUpdated (data : List UInt8)
  | eofReceived
  | pauseWriting
  | resumeWriting
  | connectionLost
  deriving DecidableEq

def Call.isData : Call → Bool
  | dataReceived _ => true
  | getBuffer => true
  | bufferUpdated _ => true
  | _ => false

def Call.isFlow : Call → Bool
  | pauseWriting => true
  | resumeWriting => true
  | _ => false

/-- A call, the `set_protocol()` whose protocol it is made to, and how things stand when it starts. -/
structure Called where
  install : Nat
  call : Call
  -- the protocol of the transport, whether it reads, and whether it is neither gone nor closing
  current : Nat
  paused : Bool
  live : Bool
  deriving DecidableEq

/-- Events other than the inbound ones. -/
inductive Pending where
  -- with the bound method of one `set_protocol()`, compared by identity
  | resumeWriting (install : Nat)
  | lost (immediate : Bool)
  deriving DecidableEq

/-- The callback that runs. -/
inductive Running where
  | dataReceived
  | getBuffer
  | bufferUpdated
  deriving DecidableEq

/-- The inbound event whose callbacks are under way, and what of it is not copied yet. -/
structure Chunk where
  install : Nat
  rest : List UInt8
  running : Running
  deriving DecidableEq

/-- How a callback returns; `get_buffer` with a buffer of some size. -/
inductive Outcome where
  | ok (size : Nat)
  | raised
  -- KeyboardInterrupt or SystemExit
  | fatal
  deriving DecidableEq

/-! ## 2. The transport -/

structure Transport where
  stream : Stream
  made : Bool
  -- how often `set_protocol()` ran
  install : Nat
  queue : List Pending
  hand : List Pending
  -- handed to `call_soon`, and not run yet
  lostCalls : Nat
  chunk : Option Chunk
  -- `resume_writing` runs, its `finish_after_resume` is to come
  resuming : Bool
  -- the bytes given to a protocol
  handed : List UInt8
  calls : List Called
  -- `set_write_buffer_limits()` ran since a send last completed
  limitsMoved : Bool

def NetEvent.bytes (event : NetEvent) : List UInt8 := event.pieces.flatMap Piece.data

def NetState.paused (net : NetState) : Bool := net.entry.any (·.protoPaused)

namespace Transport

/-- The loop waits for a callback of this transport. -/
def busy (t : Transport) : Bool := t.chunk.isSome || t.resuming

def calledOn (t : Transport) (install : Nat) (call : Call) : Transport :=
  { t with calls := t.calls ++
      [{ install, call, current := t.install, paused := t.stream.readingPaused,
         live := t.stream.net.live }] }

def called (t : Transport) (call : Call) : Transport := t.calledOn t.install call

/-- The events that a step of the transport pushes. -/
def noticed (immediate : Bool) (stream : Stream) (t : Transport) : Transport :=
  { t with
    stream
    queue := t.queue ++
      List.replicate (stream.net.resumeWriting - t.stream.net.resumeWriting)
        (.resumeWriting t.install) ++
      if t.stream.net.entry.isSome && stream.net.entry.isNone then [.lost immediate] else []
    limitsMoved := t.limitsMoved && decide (stream.net.sent = t.stream.net.sent) }

/-- An operation of the writing side, and the `pause_writing` it may end in. -/
def wrote (backend : Backend) (op : NetOp) (immediate : Bool) (t : Transport) : Transport :=
  let t' := t.noticed immediate (streamStep t.stream (.writing backend op))
  if !t.stream.net.paused && t'.stream.net.paused then t'.called .pauseWriting else t'

def writing (backend : Backend) (op : NetOp) (immediate : Bool) (t : Transport) : Transport :=
  match op with
  -- steps of their own
  | .setProtocol | .finishAfterResume | .writelines _ => t
  | .setWriteBufferLimits high low _ =>
    if high < low then t
    else { t.wrote backend op immediate with limitsMoved := true }
  | op => t.wrote backend op immediate

def setProtocol (buffered : Bool) (t : Transport) : Transport :=
  { t with
    stream := streamStep t.stream (.setProtocol buffered)
    install := if t.stream.net.entry.isSome then t.install + 1 else t.install }

/-- A data callback failed: the transport is gone, and `connection_lost` scheduled. -/
def failed (t : Transport) : Transport :=
  { t.noticed false { t.stream with
      net := teardown t.stream.net .failed, recvOp := false, released := true } with chunk := none }

/-- Hand routed bytes to the protocol. -/
def deliver (data : List UInt8) (t : Transport) : Transport :=
  if !t.stream.buffered then
    { t.called (.dataReceived data) with
      handed := t.handed ++ data
      chunk := some { install := t.install, rest := [], running := .dataReceived } }
  else if data = [] then t
  else
    { t.called .getBuffer with
      chunk := some { install := t.install, rest := data, running := .getBuffer } }

/-- The next inbound event. -/
def dispatchInbound (t : Transport) : Transport :=
  match t.stream.events with
  | [] => t
  | event :: _ =>
    let t' := t.noticed false (streamStep t.stream .dispatch)
    if !t.stream.net.live || t.stream.readingPaused then t'
    else
      match event with
      | .recvFailed => t'
      | .eof => t'.called .eofReceived
      | event => t'.deliver event.bytes

/-- A round of `copy_into_app_buffer`, from the return of one callback to the next. -/
def returned (outcome : Outcome) (t : Transport) : Transport :=
  match t.chunk with
  | none => t
  | some c =>
    match outcome with
    | .fatal => { t with chunk := none }
    | .raised => t.failed
    | .ok size =>
      match c.running with
      | .dataReceived => { t with chunk := none }
      | .getBuffer =>
        let n := min size c.rest.length
        -- an empty buffer
        if n = 0 then t.failed
        else
          { t.calledOn c.install (.bufferUpdated (c.rest.take n)) with
            handed := t.handed ++ c.rest.take n
            chunk := some { c with rest := c.rest.drop n, running := .bufferUpdated } }
      | .bufferUpdated =>
        if c.rest = [] then { t with chunk := none }
        else { t.calledOn c.install .getBuffer with chunk := some { c with running := .getBuffer } }

def connectionLost (t : Transport) : Transport :=
  { t.called .connectionLost with stream := streamStep t.stream .connectionLost }

/-- The next of the events in hand. -/
def dispatchPending (t : Transport) : Transport :=
  match t.hand with
  | [] => t
  | .resumeWriting install :: rest =>
    let t := { t with hand := rest, resuming := true }
    if t.stream.net.entry.isSome ∧ install = t.install then t.called .resumeWriting else t
  | .lost true :: rest => connectionLost { t with hand := rest }
  | .lost false :: rest => { t with hand := rest, lostCalls := t.lostCalls + 1 }

/-- What `schedule_pending_lost` takes out of the queue. -/
def schedulePendingLost (t : Transport) : Transport :=
  { t with
    queue := t.queue.filter (· ≠ .lost false)
    lostCalls := t.lostCalls + (t.queue.filter (· = .lost false)).length }

/-! ## 3. Runs -/

inductive TransportEvent where
  | connectionMade
  -- `wire_stream` posts the first receive
  | postRecv (ok : Bool)
  | writing (backend : Backend) (op : NetOp) (immediate : Bool)
  | recvDone (result : Option (List UInt8)) (postOk : Bool)
  | pauseReading
  | resumeReading (postOk : Bool)
  | setProtocol (buffered : Bool)
  | schedulePendingLost
  -- the callback that runs returns
  | returned (outcome : Outcome)
  | finishAfterResume (backend : Backend) (immediate : Bool)
  -- the loop's own
  | takeEvents
  | requeueEvents
  | dispatchInbound
  | dispatchPending
  | lostCall

/-- Only with no callback of this transport under way. -/
def free (f : Transport → Transport) (t : Transport) : Transport := if t.busy then t else f t

/-- What happens behind `connection_made`. -/
def moves (t : Transport) : TransportEvent → Transport
  | .connectionMade => t
  | .postRecv ok => { t with stream := Net.postRecv ok t.stream }
  | .writing backend op immediate => t.writing backend op immediate
  | .recvDone result postOk => t.noticed false (streamStep t.stream (.recvDone result postOk))
  | .pauseReading => t.noticed false (streamStep t.stream .pauseReading)
  | .resumeReading postOk => t.noticed false (streamStep t.stream (.resumeReading postOk))
  | .setProtocol buffered => t.setProtocol buffered
  | .schedulePendingLost => t.schedulePendingLost
  | .returned outcome => t.returned outcome
  | .finishAfterResume backend immediate =>
    if t.resuming then
      { t.noticed immediate (streamStep t.stream (.writing backend .finishAfterResume)) with
        resuming := false }
    else t
  | .takeEvents => t.free fun t => if t.hand = [] then { t with hand := t.queue, queue := [] } else t
  | .requeueEvents => t.free fun t => { t with queue := t.hand ++ t.queue, hand := [] }
  | .dispatchInbound => t.free dispatchInbound
  | .dispatchPending => t.free dispatchPending
  | .lostCall =>
    t.free fun t =>
      if t.lostCalls = 0 then t else connectionLost { t with lostCalls := t.lostCalls - 1 }

def step (t : Transport) (event : TransportEvent) : Transport :=
  if t.made then t.moves event
  else
    match event with
    | .connectionMade => { t.called .connectionMade with made := true }
    | _ => t

def new (buffered : Bool) (highWater lowWater : Nat) : Transport where
  stream := newStream buffered highWater lowWater
  made := false
  install := 0
  queue := []
  hand := []
  lostCalls := 0
  chunk := none
  resuming := false
  handed := []
  calls := []
  limitsMoved := false

end Transport

def transport (buffered : Bool) (highWater lowWater : Nat) :
    Reasoning.Machine Transport Transport.TransportEvent where
  init := .new buffered highWater lowWater
  step := Transport.step

end Cadeloop.Pyshim.Net
