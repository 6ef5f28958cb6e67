import Cadeloop.Core.BufferCounts
import Cadeloop.Pyshim.Datagram
import Cadeloop.Reasoning.Tally

/-!
# Receive slots (`crates/pyshim/src/net.rs`)

A slot of the buffer pool is held by the transport or datagram endpoint it was acquired for, by the
receive the kernel writes it for, by a queued `BufData` event and by the reap guard of a cancelled
datagram receive.  Everything on which these references are taken and dropped is here; of the rest
(bytes, callbacks, sockets, the write queue's contents) only what decides a branch.
-/

namespace Cadeloop.Pyshim.RecvSlots

open Cadeloop.Core.Buffers
open Cadeloop.Reasoning (Table Machine)

/-! ## 1. The state -/

-- `RECV_CLASS_FIRST`
def recvClassFirst : SizeClass := .s4k

-- `LINGER_NS`
def lingerNs : Nat := 5000000000

/-- `SizeClass::after_read`: the class of the next receive. -/
def afterRead (c : SizeClass) (bytes : Nat) (followsFull : Bool) : SizeClass :=
  if c.size ≤ bytes then
    match c with
    | .s4k => .s16k
    | _ => .s64k
  else if followsFull then c
  else if bytes ≤ 1024 then .s4k
  else if c = .s64k ∧ bytes ≤ 4096 then .s16k
  else c

structure TlsState where
  -- bytes of plaintext staged
  staged : Nat
  closeAfter : Bool
  shutdownSent : Bool

structure HttpConn where
  tls : Option TlsState
  -- a WebSocket's `inbox_paused`
  ws : Option Bool
  pipelinePaused : Bool
  disconnected : Bool
  active : Bool
  -- requests parsed and not dispatched
  pending : Nat
  headTimeoutNs : Nat
  idleTimeoutNs : Nat

inductive ProtoKind where
  -- whether the protocol has `data_received`; a buffered one has not
  | py (dataReceived : Bool)
  | http (conn : HttpConn)

structure TransportEntry where
  proto : ProtoKind
  recvSlot : Option SlotId
  recvClass : SizeClass
  recvLastFull : Bool
  recvOp : Option Nat
  sendOp : Option Nat
  -- buffers in the write queue
  wq : Nat
  readingPaused : Bool
  pausedEof : Bool
  closing : Bool
  lingering : Bool
  lingerUntilNs : Nat

/-- A transport as `wire_stream` and `wire_http` enter it. -/
def TransportEntry.wired (proto : ProtoKind) : TransportEntry :=
  { proto, recvSlot := none, recvClass := recvClassFirst, recvLastFull := false, recvOp := none,
    sendOp := none, wq := 0, readingPaused := false, pausedEof := false, closing := false,
    lingering := false, lingerUntilNs := 0 }

structure DatagramEntry where
  recvOp : Option Nat
  recvSlot : Option SlotId
  sendOp : Option Nat
  -- datagrams queued behind the one in flight
  sendQueue : Nat
  recvStarved : Bool
  closing : Bool

/-- An endpoint as `udp_wire` enters it. -/
def DatagramEntry.wired : DatagramEntry :=
  { recvOp := none, recvSlot := none, sendOp := none, sendQueue := 0, recvStarved := false,
    closing := false }

inductive OpTarget where
  | recv (tid : Nat) (slot : SlotId)
  | send (tid : Nat)
  | dgramRecv (did : Nat)
  | dgramSend (did : Nat)
  -- accepts, connects and pipes
  | other

inductive ReapGuard where
  | slot (slot : SlotId)
  | writes

/-- A `BufData` event; no other carries a slot. -/
structure BufData where
  tid : Nat
  slot : SlotId
  deriving DecidableEq

/-- `on_recv_done` of a native HTTP connection while the engine has the bytes. -/
structure Parsing where
  tid : Nat
  slot : SlotId
  bytes : Nat

/-- `NetState`, with what the backend has outstanding.  An entry leaves its table before its
`conn_lost` is set, so those of the tables never have it. -/
structure Net where
  -- `PAGES_OUT`
  pagesOut : Bool
  buffers : BufferPool
  transports : Table Nat TransportEntry
  datagrams : Table Nat DatagramEntry
  ops : Table Nat OpTarget
  reapGuards : Table Nat ReapGuard
  events : List BufData
  -- the last id `next_id` gave
  nextId : Nat
  nowNs : Nat
  -- operations posted whose completion is not reported, and the slot each may write
  posted : Table Nat (Option SlotId)
  parsing : Option Parsing
  -- the event being dispatched
  delivering : Option BufData

/-- What the OS and the backend answer in the course of one call. -/
structure Answers where
  region : Region
  pageOut : Bool
  -- the operation a receive is posted as, unless posting it fails
  recv : Option Nat
  send : Option Nat
  -- the same of each datagram that a pump tries
  sends : List (Option Nat)

/-- A completion.  Of a send, also the buffers it emptied and whether `resume_writing` is owed. -/
structure Completion where
  op : Nat
  bytes : Nat
  osError : Nat
  popped : Nat
  resuming : Bool

namespace Net

def new (pagesOut : Bool) : Net :=
  { pagesOut, buffers := .new, transports := ∅, datagrams := ∅, ops := ∅, reapGuards := ∅,
    events := [], nextId := 0, nowNs := 0, posted := ∅, parsing := none, delivering := none }

def setTransport (tid : Nat) (entry : TransportEntry) (net : Net) : Net :=
  { net with transports := net.transports.insert tid entry }

def setDatagram (did : Nat) (entry : DatagramEntry) (net : Net) : Net :=
  { net with datagrams := net.datagrams.insert did entry }

/-- An operation handed to the backend, its target recorded. -/
def post (op : Nat) (target : OpTarget) (slot : Option SlotId) (net : Net) : Net :=
  { net with ops := net.ops.insert op target, posted := net.posted.insert op slot }

def unmap (op : Nat) (net : Net) : Net := { net with ops := net.ops.erase op }

def release (a : Answers) (slot : SlotId) (net : Net) : Net :=
  { net with buffers := (net.buffers.release net.pagesOut a.pageOut slot).2 }

def retain (slot : SlotId) (net : Net) : Net := { net with buffers := net.buffers.retain slot }

-- `if let Some(slot) = entry.recv_slot.take()`
def dropSlot (a : Answers) (slot : Option SlotId) (net : Net) : Net :=
  match slot with
  | some slot => net.release a slot
  | none => net

end Net

/-! ## 2. Transports -/

/-- The receive's mapping stays; the write queue outlives the entry while a send reads it. -/
def cancelTransportOps (entry : TransportEntry) (net : Net) : Net :=
  match entry.sendOp with
  | some op =>
    if entry.wq = 0 then net else { net with reapGuards := net.reapGuards.insert op .writes }
  | none => net

/-- What `teardown_lost` and the loop's `teardown` do to an entry. -/
def retire (a : Answers) (tid : Nat) (net : Net) : Net :=
  match net.transports.lookup tid with
  | none => net
  | some entry =>
    (cancelTransportOps entry { net with transports := net.transports.erase tid }).dropSlot a
      entry.recvSlot

def teardownLost (a : Answers) (tid : Nat) (net : Net) : Net := retire a tid net

def teardown (a : Answers) (tid : Nat) (net : Net) : Net := retire a tid net

/-- `post_recv` declines: a receive is posted, or nothing is to be read. -/
def TransportEntry.declines (entry : TransportEntry) : Bool :=
  entry.recvOp.isSome || entry.readingPaused || (entry.closing && !entry.lingering) ||
    match entry.proto with
    | .http conn => !entry.lingering && (conn.pipelinePaused || conn.ws == some true)
    | .py _ => false

/-- The entry's slot, or a new one; `none` where `acquire` would panic. -/
def recvSlotOf (a : Answers) (tid : Nat) (entry : TransportEntry) (net : Net) :
    Option (SlotId × Net) :=
  match entry.recvSlot with
  | some slot => some (slot, net)
  | none =>
    match net.buffers.acquire entry.recvClass a.region with
    | none => none
    | some (slot, buffers) =>
      some (slot, { net with buffers }.setTransport tid { entry with recvSlot := some slot })

def postRecv (a : Answers) (tid : Nat) (net : Net) : Net :=
  match net.transports.lookup tid with
  | none => net
  | some entry =>
    if entry.declines then net
    else
      match recvSlotOf a tid entry net with
      | none => net
      | some (slot, net) =>
        match a.recv, entry.proto with
        | some op, _ =>
          ((net.retain slot).setTransport tid
            { entry with recvSlot := some slot, recvOp := some op }).post op (.recv tid slot) slot
        -- `RecvFailed` is queued
        | none, .py _ => net
        | none, .http _ => teardownLost a tid net

def maybeFinishShutdown (a : Answers) (tid : Nat) (net : Net) : Net :=
  match net.transports.lookup tid with
  | none => net
  | some entry =>
    if entry.sendOp.isSome ∨ entry.wq ≠ 0 ∨ entry.closing = false then net
    else if entry.lingering then
      if entry.lingerUntilNs = 0 then
        postRecv a tid (net.setTransport tid
          { entry with lingerUntilNs := max (min (net.nowNs + lingerNs) (2 ^ 64 - 1)) 1 })
      else net
    else teardownLost a tid net

def flushPending (a : Answers) (tid : Nat) (net : Net) : Net :=
  match net.transports.lookup tid with
  | none => net
  | some entry =>
    if entry.sendOp.isSome then net
    else if entry.wq = 0 then maybeFinishShutdown a tid net
    else
      match a.send with
      | some op => (net.setTransport tid { entry with sendOp := some op }).post op (.send tid) none
      | none => teardownLost a tid net

def sendCorked (a : Answers) (tid : Nat) (net : Net) : Net :=
  match net.transports.lookup tid with
  | none => net
  | some entry => if entry.sendOp.isSome ∨ entry.wq = 0 then net else flushPending a tid net

/-- A TLS connection's shutdown waits: for staged plaintext, then for the close_notify, both of
which a `TlsFlush` sees to. -/
def ProtoKind.closesLater (healthy : Bool) : ProtoKind → Option HttpConn
  | .py _ => none
  | .http conn =>
    match conn.tls with
    | none => none
    | some tls =>
      if tls.staged ≠ 0 || (healthy && !tls.shutdownSent) then
        some { conn with tls := some { tls with closeAfter := true } }
      else none

/-- The connection reads on past its end: the peer may be sending, and a sweep will end it. -/
def ProtoKind.lingers : ProtoKind → Bool
  | .py _ => false
  | .http conn =>
    !conn.disconnected && (decide (conn.idleTimeoutNs > 0) || decide (conn.headTimeoutNs > 0))

def httpCloseAfterWrite (a : Answers) (tid : Nat) (net : Net) : Net :=
  match net.transports.lookup tid with
  | none => net
  | some entry =>
    match entry.proto.closesLater (!entry.closing) with
    | some conn => net.setTransport tid { entry with proto := .http conn }
    | none =>
      if entry.closing then net
      else if entry.proto.lingers then
        maybeFinishShutdown a tid (net.setTransport tid
          { entry with closing := true, lingering := true })
      else
        -- the mapping stays
        maybeFinishShutdown a tid (net.setTransport tid
          { entry with closing := true, recvOp := none })

/-- `Transport.close()` as far as the completions it settles; `maybe_finish_shutdown` follows. -/
def close (a : Answers) (tid : Nat) (net : Net) : Net :=
  match net.transports.lookup tid with
  | none => net
  | some entry =>
    if entry.closing then net
    else sendCorked a tid (net.setTransport tid { entry with closing := true, recvOp := none })

def forceClose (a : Answers) (tid : Nat) (net : Net) : Net :=
  teardownLost a tid (sendCorked a tid net)

def pauseReading (tid : Nat) (net : Net) : Net :=
  match net.transports.lookup tid with
  | none => net
  | some entry =>
    if entry.closing then net else net.setTransport tid { entry with readingPaused := true }

def resumeReading (a : Answers) (tid : Nat) (net : Net) : Net :=
  match net.transports.lookup tid with
  | none => net
  | some entry =>
    if entry.closing || !entry.readingPaused then net
    else
      -- what was held goes out first; after an EOF nothing is left to read
      let net := net.setTransport tid { entry with readingPaused := false, pausedEof := false }
      if entry.pausedEof then net else postRecv a tid net

/-- The next read is sized by this one; a slot of another class goes, unless a receive is posted
into it again. -/
def sizeNext (a : Answers) (tid : Nat) (slot : SlotId) (bytes : Nat) (net : Net) : Net :=
  match net.transports.lookup tid with
  | none => net
  | some entry =>
    let next := afterRead slot.sizeClass bytes entry.recvLastFull
    let sized := { entry with
      recvLastFull := decide (slot.sizeClass.size ≤ bytes), recvClass := next }
    if next ≠ slot.sizeClass ∧ entry.recvSlot = some slot ∧ entry.recvOp = none then
      (net.setTransport tid { sized with recvSlot := none }).release a slot
    else net.setTransport tid sized

/-- The tail of `on_recv_done`. -/
def sizeAndRepost (a : Answers) (tid : Nat) (slot : SlotId) (bytes : Nat) (pipelinePause : Bool)
    (net : Net) : Net :=
  if pipelinePause then sizeNext a tid slot bytes net
  else postRecv a tid (sizeNext a tid slot bytes net)

/-- The peer's EOF. -/
def recvEof (a : Answers) (tid : Nat) (entry : TransportEntry) (net : Net) : Net :=
  match entry.proto with
  | .py _ => if entry.readingPaused then net.setTransport tid { entry with pausedEof := true } else net
  | .http conn =>
    let net := net.setTransport tid { entry with proto := .http { conn with disconnected := true } }
    if conn.active = false ∧ conn.pending = 0 then teardownLost a tid net else net

/-- Bytes for an open transport.  Those of a native HTTP connection go to the engine. -/
def recvData (a : Answers) (tid : Nat) (entry : TransportEntry) (slot : SlotId) (bytes : Nat)
    (net : Net) : Net :=
  match entry.proto with
  | .http _ => { net with parsing := some ⟨tid, slot, bytes⟩ }
  | .py dataReceived =>
    -- held, or handed over with the slot, the bytes leave the transport without one
    if entry.readingPaused then (net.setTransport tid { entry with recvSlot := none }).release a slot
    else if dataReceived then sizeAndRepost a tid slot bytes false net
    else
      sizeAndRepost a tid slot bytes false
        { net.setTransport tid { entry with recvSlot := none } with
          events := net.events ++ [⟨tid, slot⟩] }

/-- A receive's completion, the transport's record of it cleared. -/
def recvRouted (a : Answers) (tid : Nat) (slot : SlotId) (c : Completion) (entry : TransportEntry)
    (net : Net) : Net :=
  if entry.lingering then
    -- bytes are discarded unread
    if c.osError ≠ 0 then teardownLost a tid net
    else if c.bytes = 0 then
      maybeFinishShutdown a tid (net.setTransport tid { entry with lingering := false })
    else postRecv a tid net
  else if entry.closing then net
  else if c.osError ≠ 0 then teardownLost a tid net
  else if c.bytes = 0 then recvEof a tid entry net
  else recvData a tid entry slot c.bytes net

def onRecvDone (a : Answers) (tid : Nat) (slot : SlotId) (c : Completion) (net : Net) : Net :=
  match net.transports.lookup tid with
  | none => net
  | some entry =>
    let entry := { entry with recvOp := if entry.recvOp = some c.op then none else entry.recvOp }
    recvRouted a tid slot c entry (net.setTransport tid entry)

def sendRouted (a : Answers) (tid : Nat) (c : Completion) (entry : TransportEntry) (net : Net) : Net :=
  if c.osError ≠ 0 then teardownLost a tid net
  else
    let net := net.setTransport tid { entry with wq := entry.wq - c.popped }
    if entry.wq - c.popped ≠ 0 then flushPending a tid net
    else if c.resuming then net
    else maybeFinishShutdown a tid net

def onSendDone (a : Answers) (tid : Nat) (c : Completion) (net : Net) : Net :=
  match net.transports.lookup tid with
  | none => net
  | some entry =>
    let entry := { entry with sendOp := if entry.sendOp = some c.op then none else entry.sendOp }
    sendRouted a tid c entry (net.setTransport tid entry)

/-! ## 3. Datagram endpoints -/

/-- The slot the entry is left with: a posted receive's goes to its reap guard. -/
def cancelDgramOps (entry : DatagramEntry) (net : Net) : Option SlotId × Net :=
  match entry.recvOp, entry.recvSlot with
  | some op, some slot => (none, { net with reapGuards := net.reapGuards.insert op (.slot slot) })
  | _, slot => (slot, net)

/-- What `udp_teardown`, `udp_teardown_at_close` and a failed `udp_wire` do to an entry. -/
def retireDgram (a : Answers) (did : Nat) (net : Net) : Net :=
  match net.datagrams.lookup did with
  | none => net
  | some entry =>
    let cancelled := cancelDgramOps entry { net with datagrams := net.datagrams.erase did }
    cancelled.2.dropSlot a cancelled.1

def udpTeardown (a : Answers) (did : Nat) (net : Net) : Net := retireDgram a did net

def udpTeardownAtClose (a : Answers) (did : Nat) (net : Net) : Net := retireDgram a did net

/-- The endpoint's slot, or a new one; `none` where `acquire` would panic. -/
def dgramSlotOf (a : Answers) (entry : DatagramEntry) (net : Net) : Option (SlotId × Net) :=
  match entry.recvSlot with
  | some slot => some (slot, net)
  | none =>
    match net.buffers.acquire .s64k a.region with
    | none => none
    | some (slot, buffers) => some (slot, { net with buffers })

/-- Also whether the receive could be posted. -/
def dgramPostRecv (a : Answers) (did : Nat) (net : Net) : Bool × Net :=
  match net.datagrams.lookup did with
  | none => (true, net)
  | some entry =>
    if entry.closing || entry.recvOp.isSome then (true, net)
    else
      match dgramSlotOf a entry net with
      | none => (true, net)
      | some (slot, net) =>
        match a.recv with
        | some op =>
          (true, (net.setDatagram did { entry with recvSlot := some slot, recvOp := some op }).post
            op (.dgramRecv did) slot)
        | none => (false, (net.release a slot).setDatagram did { entry with recvSlot := none })

def udpWire (a : Answers) (net : Net) : Net :=
  let did := net.nextId + 1
  let wired := dgramPostRecv a did ({ net with nextId := did }.setDatagram did .wired)
  if wired.1 then wired.2 else retireDgram a did wired.2

def dgramStarve (did : Nat) (net : Net) : Net :=
  match net.datagrams.lookup did with
  | none => net
  | some entry => net.setDatagram did { entry with recvStarved := true }

def dgramRouted (a : Answers) (did : Nat) (c : Completion) (entry : DatagramEntry) (net : Net) : Net :=
  if entry.closing then net
  else if c.osError ≠ 0 ∧ Udp.isCancelledError c.osError = true then net
  else
    let reposted := dgramPostRecv a did net
    if reposted.1 then reposted.2 else dgramStarve did reposted.2

def onDgramRecvDone (a : Answers) (did : Nat) (c : Completion) (net : Net) : Net :=
  match net.datagrams.lookup did with
  | none => net
  | some entry =>
    let entry := { entry with recvOp := none }
    dgramRouted a did c entry (net.setDatagram did entry)

/-- One endpoint of `retry_starved_listeners`. -/
def retryStarved (a : Answers) (did : Nat) (net : Net) : Net :=
  match net.datagrams.lookup did with
  | none => net
  | some entry =>
    if entry.recvStarved && !entry.closing then
      let reposted := dgramPostRecv a did net
      match reposted.1, reposted.2.datagrams.lookup did with
      | true, some entry => reposted.2.setDatagram did { entry with recvStarved := false }
      | _, _ => reposted.2
    else net

def dgramSendNow (send : Option Nat) (did : Nat) (net : Net) : Net :=
  match net.datagrams.lookup did, send with
  | some entry, some op =>
    (net.setDatagram did { entry with sendOp := some op }).post op (.dgramSend did) none
  | _, _ => net

/-- The loop of `dgram_pump_send`, on the datagrams queued: until one is in flight. -/
def pumpQueue (did : Nat) : Nat → List (Option Nat) → Net → Net
  | 0, _, net => net
  | queued + 1, sends, net =>
    match net.datagrams.lookup did with
    | none => net
    | some entry =>
      if entry.sendOp.isSome then net
      else pumpQueue did queued sends.tail (dgramSendNow (sends.headD none) did
        (net.setDatagram did { entry with sendQueue := queued }))

def dgramPumpSend (a : Answers) (did : Nat) (net : Net) : Net :=
  match net.datagrams.lookup did with
  | none => net
  | some entry =>
    let net := pumpQueue did entry.sendQueue a.sends net
    match net.datagrams.lookup did with
    | none => net
    | some entry =>
      -- a send in flight resumes the close
      if entry.closing && entry.sendOp.isNone then udpTeardown a did net else net

def onDgramSendDone (a : Answers) (did : Nat) (net : Net) : Net :=
  match net.datagrams.lookup did with
  | none => net
  | some entry => dgramPumpSend a did (net.setDatagram did { entry with sendOp := none })

/-- `fits`: the queue has room for one more. -/
def udpSendto (a : Answers) (did : Nat) (fits : Bool) (net : Net) : Net :=
  match net.datagrams.lookup did with
  | none => net
  | some entry =>
    if entry.closing then net
    else if entry.sendOp.isSome then
      if fits then net.setDatagram did { entry with sendQueue := entry.sendQueue + 1 } else net
    else dgramSendNow a.send did net

def udpClose (a : Answers) (did : Nat) (abort : Bool) (net : Net) : Net :=
  match net.datagrams.lookup did with
  | none => net
  | some entry =>
    let queue := if abort then 0 else entry.sendQueue
    let net := net.setDatagram did { entry with closing := true, sendQueue := queue }
    if entry.sendOp.isNone ∧ queue = 0 then udpTeardown a did net else net

/-! ## 4. Completions, events and the loop's end -/

/-- The kernel is done with an operation: what was held back for it is freed. -/
def reapGuard (a : Answers) (op : Nat) (net : Net) : Net :=
  let reaped := { net with
    posted := net.posted.erase op, reapGuards := net.reapGuards.erase op }
  match net.reapGuards.lookup op with
  | some (.slot slot) => reaped.release a slot
  | _ => reaped

/-- One completion of `translate`; they are translated one at a time. -/
def translate (a : Answers) (c : Completion) (net : Net) : Net :=
  if net.parsing.isSome then net
  else
    let net := reapGuard a c.op net
    match net.ops.lookup c.op with
    | none => net
    | some target =>
      let net := net.unmap c.op
      match target with
      | .recv tid slot =>
        let done := onRecvDone a tid slot c net
        -- the operation's own reference, once the engine is through with the bytes
        if done.parsing.isSome then done else done.release a slot
      | .send tid => onSendDone a tid c net
      | .dgramRecv did => onDgramRecvDone a did c net
      | .dgramSend did => onDgramSendDone a did net
      | .other => net

/-- The engine is through with the bytes: `on_recv_done` goes on, and `translate` after it.
`oversize`: what precedes a WebSocket's upgrade is too long. -/
def parsed (a : Answers) (oversize pipelinePause : Bool) (net : Net) : Net :=
  match net.parsing with
  | none => net
  | some p =>
    let net := { net with parsing := none }
    let net :=
      if oversize then teardownLost a p.tid net
      else sizeAndRepost a p.tid p.slot p.bytes pipelinePause net
    net.release a p.slot

/-- The next `BufData` event is taken off the queue; its slot stays put across the protocol calls. -/
def dispatch (net : Net) : Net :=
  match net.delivering, net.events with
  | none, event :: rest => { net with events := rest, delivering := some event }
  | _, _ => net

def delivered (a : Answers) (net : Net) : Net :=
  match net.delivering with
  | none => net
  | some event => { net with delivering := none }.release a event.slot

/-- `CoreLoop.close()`, with the completions that `reap_at_close` collects. -/
def loopClose (a : Answers) (reaped : List Completion) (net : Net) : Net :=
  -- a running loop refuses
  if net.parsing.isSome ∨ net.delivering.isSome then net
  else
    let net := net.transports.keys.foldl (fun net tid => teardown a tid net) net
    let net := net.datagrams.keys.foldl (fun net did => udpTeardownAtClose a did net) net
    let net := reaped.foldl (fun net c => translate a c net) net
    { net with events := [] }

/-! ## 5. Runs -/

inductive Event where
  -- `wire_stream`, `wire_http`: a transport enters the table
  | wire (proto : ProtoKind)
  -- `post_recv`, whoever calls it
  | postRecv (tid : Nat) (a : Answers)
  | pauseReading (tid : Nat)
  | resumeReading (tid : Nat) (a : Answers)
  | setProtocol (tid : Nat) (dataReceived : Bool)
  -- the HTTP layer writes its own state
  | conn (tid : Nat) (conn : HttpConn)
  -- output queued
  | enqueue (tid : Nat) (buffers : Nat)
  | flushPending (tid : Nat) (a : Answers)
  | maybeFinishShutdown (tid : Nat) (a : Answers)
  | httpCloseAfterWrite (tid : Nat) (a : Answers)
  | close (tid : Nat) (a : Answers)
  | forceClose (tid : Nat) (a : Answers)
  | teardown (tid : Nat) (a : Answers)
  | udpWire (a : Answers)
  | udpSendto (did : Nat) (fits : Bool) (a : Answers)
  | udpClose (did : Nat) (abort : Bool) (a : Answers)
  | retryStarved (did : Nat) (a : Answers)
  -- an accept, connect or pipe operation is posted
  | other (op : Nat)
  | tick (nowNs : Nat)
  | translate (c : Completion) (a : Answers)
  | parsed (oversize pipelinePause : Bool) (a : Answers)
  | dispatch
  | delivered (a : Answers)
  | loopClose (reaped : List Completion) (a : Answers)

def wire (proto : ProtoKind) (net : Net) : Net :=
  { net with nextId := net.nextId + 1 }.setTransport (net.nextId + 1) (.wired proto)

/-- An entry written without a look at its receive. -/
def amend (tid : Nat) (f : TransportEntry → TransportEntry) (net : Net) : Net :=
  match net.transports.lookup tid with
  | none => net
  | some entry => net.setTransport tid (f entry)

def setProtocol (tid : Nat) (dataReceived : Bool) (net : Net) : Net :=
  amend tid (fun entry => { entry with proto := .py dataReceived }) net

def setConn (tid : Nat) (conn : HttpConn) (net : Net) : Net :=
  amend tid (fun entry => { entry with proto := .http conn }) net

def enqueue (tid : Nat) (buffers : Nat) (net : Net) : Net :=
  amend tid (fun entry => { entry with wq := entry.wq + buffers }) net

def step (net : Net) : Event → Net
  | .wire proto => wire proto net
  | .postRecv tid a => postRecv a tid net
  | .pauseReading tid => pauseReading tid net
  | .resumeReading tid a => resumeReading a tid net
  | .setProtocol tid dataReceived => setProtocol tid dataReceived net
  | .conn tid conn => setConn tid conn net
  | .enqueue tid buffers => enqueue tid buffers net
  | .flushPending tid a => flushPending a tid net
  | .maybeFinishShutdown tid a => maybeFinishShutdown a tid net
  | .httpCloseAfterWrite tid a => httpCloseAfterWrite a tid net
  | .close tid a => close a tid net
  | .forceClose tid a => forceClose a tid net
  | .teardown tid a => teardownLost a tid net
  | .udpWire a => udpWire a net
  | .udpSendto did fits a => udpSendto a did fits net
  | .udpClose did abort a => udpClose a did abort net
  | .retryStarved did a => retryStarved a did net
  | .other op => net.post op .other none
  | .tick nowNs => { net with nowNs }
  | .translate c a => translate a c net
  | .parsed oversize pipelinePause a => parsed a oversize pipelinePause net
  | .dispatch => dispatch net
  | .delivered a => delivered a net
  | .loopClose reaped a => loopClose a reaped net

def runs (pagesOut : Bool) : Machine Net Event := ⟨.new pagesOut, step⟩

end Cadeloop.Pyshim.RecvSlots
