import Cadeloop.Reasoning.Machine

/-!
# A datagram endpoint (`crates/pyshim/src/net.rs`)

What one endpoint does with the datagrams sent through it: one is with the kernel, the others queue
behind it.  What the backend answers to each post is a parameter.  The receive buffer, the socket
and the other endpoints are left out, and so is the loop's own close, which clears the events of all
of them.  Beside the entry stands a record of the run, which no operation reads but to number its
posts.
-/

namespace Cadeloop.Pyshim.Udp

open Cadeloop.Reasoning

def dgramSendQueueMax : Nat := 2 ^ 20

def dgramPerPacket : Nat := 128

def enobufs : Nat := 105

-- ECANCELED
def isCancelledError (code : Nat) : Bool := code == 125

variable {α : Type*}

/-! ## 1. The endpoint -/

structure Datagram (α : Type*) where
  data : List UInt8
  addr : Option α
  deriving DecidableEq

/-- What a queued datagram costs. -/
def Datagram.charge (d : Datagram α) : Nat := d.data.length + dgramPerPacket

def charges (queue : List (Datagram α)) : Nat := (queue.map Datagram.charge).sum

structure DatagramEntry (α : Type*) where
  recvOp : Bool
  sendOp : Option Nat
  sendQueue : List (Datagram α)
  queuedBytes : Nat
  recvStarved : Bool
  closing : Bool
  connLost : Bool

inductive NetEvent (α : Type*) where
  | dgramData (payload : List UInt8) (addr : Option α)
  | dgramError (err : Nat)
  | dgramLost (immediate : Bool)
  deriving DecidableEq

/-- A call of the protocol. -/
inductive Call (α : Type*) where
  | datagramReceived (payload : List UInt8) (addr : Option α)
  | errorReceived (err : Nat)
  | connectionLost
  deriving DecidableEq

structure NetState (α : Type*) where
  entry : Option (DatagramEntry α)
  events : List (NetEvent α)
  -- the calls of `connection_lost` handed to `call_soon`
  scheduled : Nat
  -- the record: what `sendto` took, what was posted, and what the protocol saw
  accepted : List (Datagram α)
  posted : List (Datagram α)
  lost : Nat
  calls : List (Call α)

/-- The operation the backend starts for each post, or the error it refuses it with. -/
structure Backend where
  postSendTo : Nat → Except Nat Nat

variable (backend : Backend)

/-! ## 2. Receiving -/

def dgramPostRecv (ok : Bool) (entry : DatagramEntry α) : Except Unit (DatagramEntry α) :=
  if entry.closing ∨ entry.connLost ∨ entry.recvOp then .ok entry
  else if ok then .ok { entry with recvOp := true }
  else .error ()

/-- The receive in flight completes, with a datagram or an error: the entry, what is reported, and
whether it starves. -/
def DatagramEntry.received (result : Except Nat (Datagram α)) (postOk : Bool)
    (entry : DatagramEntry α) : DatagramEntry α × List (NetEvent α) × Bool :=
  let entry := { entry with recvOp := false }
  let report (events : List (NetEvent α)) : DatagramEntry α × List (NetEvent α) × Bool :=
    match dgramPostRecv postOk entry with
    | .ok entry => (entry, events, false)
    -- no completion will ever retry this, so the tick does
    | .error () => ({ entry with recvStarved := true }, events, true)
  if entry.closing ∨ entry.connLost then (entry, [], false)
  else
    match result with
    | .ok d => report [.dgramData d.data d.addr]
    | .error err =>
      if isCancelledError err then (entry, [], false) else report [.dgramError err]

def onDgramRecvDone (result : Except Nat (Datagram α)) (postOk : Bool) (net : NetState α) :
    NetState α :=
  match net.entry with
  | none => net
  | some entry =>
    let (entry, events, _) := entry.received result postOk
    { net with entry := some entry, events := net.events ++ events }

def DatagramEntry.deaf (entry : DatagramEntry α) : Bool :=
  entry.recvStarved && !entry.closing && !entry.connLost

/-- The tick's retry of a receive the backend refused, and whether it is refused again. -/
def DatagramEntry.retried (postOk : Bool) (entry : DatagramEntry α) : DatagramEntry α × Bool :=
  if entry.deaf then
    match dgramPostRecv postOk entry with
    | .ok entry => ({ entry with recvStarved := false }, false)
    | .error () => (entry, true)
  else (entry, false)

def retryStarved (postOk : Bool) (net : NetState α) : NetState α :=
  { net with entry := net.entry.map fun entry => (entry.retried postOk).1 }

/-! ## 3. Sending and closing -/

/-- The entry leaves the map, its operations cancelled. -/
def udpTeardown (immediate : Bool) (net : NetState α) : NetState α :=
  match net.entry with
  | none => net
  | some entry =>
    if entry.connLost then { net with entry := none }
    else
      { net with
        entry := none
        events := net.events ++ [.dgramLost immediate]
        lost := net.lost + 1 }

def dgramSendNow (d : Datagram α) (net : NetState α) : NetState α :=
  match net.entry with
  | none => net
  | some entry =>
    match backend.postSendTo net.posted.length with
    | .ok op =>
      { net with
        entry := some { entry with sendOp := some op }
        posted := net.posted ++ [d] }
    | .error err =>
      { net with
        events := net.events ++ [.dgramError err]
        posted := net.posted ++ [d] }

/-- The loop of `dgram_pump_send`, over what is queued. -/
def pumpQueue : List (Datagram α) → NetState α → NetState α
  | [], net => net
  | d :: rest, net =>
    match net.entry with
    | none => net
    | some entry =>
      -- a send is in flight; its completion comes back here
      if entry.sendOp.isSome then net
      else
        let entry := { entry with
          sendQueue := rest
          queuedBytes := entry.queuedBytes - d.charge }
        pumpQueue rest (dgramSendNow backend d { net with entry := some entry })

def finishClose (net : NetState α) : NetState α :=
  match net.entry with
  | none => net
  | some entry =>
    if entry.closing ∧ ¬ entry.connLost ∧ entry.sendOp.isNone then udpTeardown true net else net

def dgramPumpSend (net : NetState α) : NetState α :=
  match net.entry with
  | none => net
  | some entry => finishClose (pumpQueue backend entry.sendQueue net)

def onDgramSendDone (osError : Nat) (net : NetState α) : NetState α :=
  match net.entry with
  | none => net
  | some entry =>
    let net := { net with entry := some { entry with sendOp := none } }
    let net :=
      if osError ≠ 0 ∧ ¬ isCancelledError osError then
        { net with events := net.events ++ [.dgramError osError] }
      else net
    dgramPumpSend backend net

def udpSendto (d : Datagram α) (net : NetState α) : Except String (NetState α) :=
  match net.entry with
  | none => .error "datagram endpoint closed"
  | some entry =>
    if entry.closing ∨ entry.connLost then .error "datagram endpoint closing"
    else if entry.sendOp.isSome then
      if entry.queuedBytes + d.data.length + dgramPerPacket > dgramSendQueueMax then
        .ok { net with events := net.events ++ [.dgramError enobufs] }
      else
        .ok { net with
          entry := some { entry with
            queuedBytes := entry.queuedBytes + (d.data.length + dgramPerPacket)
            sendQueue := entry.sendQueue ++ [d] }
          accepted := net.accepted ++ [d] }
    else .ok (dgramSendNow backend d { net with accepted := net.accepted ++ [d] })

def udpQueuedBytes (net : NetState α) : Nat := (net.entry.map (·.queuedBytes)).getD 0

def udpClose (abort : Bool) (net : NetState α) : NetState α :=
  match net.entry with
  | none => net
  | some entry =>
    if entry.connLost then net
    else
      let entry := { entry with closing := true }
      let entry := if abort then { entry with sendQueue := [] } else entry
      let net := { net with entry := some entry }
      if entry.sendOp.isNone ∧ entry.sendQueue = [] then udpTeardown false net else net

/-! ## 4. The protocol -/

def NetEvent.deferred : NetEvent α → Bool
  | .dgramLost immediate => !immediate
  | _ => false

def schedulePendingLost (net : NetState α) : NetState α :=
  { net with
    events := net.events.filter (!·.deferred)
    scheduled := net.scheduled + net.events.countP NetEvent.deferred }

/-- The dispatch of one event; what the protocol does in its callback comes after. -/
def handle (net : NetState α) : NetEvent α → NetState α
  | .dgramData payload addr =>
    if net.entry.any fun entry => !entry.closing && !entry.connLost then
      { net with calls := net.calls ++ [.datagramReceived payload addr] }
    else net
  | .dgramError err =>
    if net.entry.any fun entry => !entry.connLost then
      { net with calls := net.calls ++ [.errorReceived err] }
    else net
  | .dgramLost immediate =>
    if immediate then { net with calls := net.calls ++ [.connectionLost] }
    else { net with scheduled := net.scheduled + 1 }

def dispatch (net : NetState α) : NetState α :=
  match net.events with
  | [] => net
  | event :: events => handle { net with events := events } event

/-- A callback handed to `call_soon` runs. -/
def lostCall (net : NetState α) : NetState α :=
  if net.scheduled = 0 then net
  else { net with scheduled := net.scheduled - 1, calls := net.calls ++ [.connectionLost] }

/-! ## 5. Runs -/

inductive NetOp (α : Type*) where
  | udpSendto (data : List UInt8) (addr : Option α)
  | udpClose (abort : Bool)
  | sendDone (osError : Nat)
  | recvDone (result : Except Nat (Datagram α)) (postOk : Bool)
  | retryStarved (postOk : Bool)
  | dispatch
  | lostCall

def netStep (net : NetState α) : NetOp α → NetState α
  | .udpSendto data addr =>
    match udpSendto backend ⟨data, addr⟩ net with
    | .ok net => net
    | .error _ => net
  | .udpClose abort => schedulePendingLost (udpClose abort net)
  | .sendDone osError => onDgramSendDone backend osError net
  | .recvDone result postOk => onDgramRecvDone result postOk net
  | .retryStarved postOk => retryStarved postOk net
  | .dispatch => dispatch net
  | .lostCall => lostCall net

/-- What `udp_wire` inserts, its first receive posted. -/
def udpWire : NetState α where
  entry := some {
    recvOp := true
    sendOp := none
    sendQueue := []
    queuedBytes := 0
    recvStarved := false
    closing := false
    connLost := false }
  events := []
  scheduled := 0
  accepted := []
  posted := []
  lost := 0
  calls := []

def endpoint : Machine (NetState α) (NetOp α) where
  init := udpWire
  step := netStep backend

end Cadeloop.Pyshim.Udp
