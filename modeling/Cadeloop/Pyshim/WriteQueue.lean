import Cadeloop.Reasoning.Machine

/-!
# A stream transport's write queue (`crates/pyshim/src/net.rs`)

What one transport does with the bytes written to it: it queues them, posts gathers of them to the
backend, retires what a completion reports, and shuts down or closes once all are out.  The reading
side, the Python objects and the other transports are left out; what the backend does with the sends
is a parameter.  Beside the entry stands a record of the run, read only where a completion says how
much of its post went out.
-/

namespace Cadeloop.Pyshim.Net

/-! ## 1. The backend -/

/-- Whether the backend takes the send of an operation, and what the completion reports for a post
of that many bytes: a count, or an error. -/
structure Backend where
  postSend : Nat → Bool
  reports : Nat → Nat → Option Nat
  -- a send that completes without an error made progress
  count : ∀ op len bytes, 0 < len → reports op len = some bytes → 1 ≤ bytes ∧ bytes ≤ len

def maxSendBytes : Nat := 2 ^ 30

def ioLen (len : Nat) : Nat := min len maxSendBytes

/-! ## 2. The queue -/

def corkFlushBytes : Nat := 64 * 1024

def coalesceMax : Nat := 4096

def lingerNs : Nat := 5000000000

inductive WriteBuf where
  -- `bytes`, retained without a copy
  | bytes (data : List UInt8) (off : Nat)
  | owned (data : List UInt8) (off : Nat)
  deriving DecidableEq

namespace WriteBuf

def unsent : WriteBuf → List UInt8
  | bytes data off => data.drop off
  | owned data off => data.drop off

def remaining : WriteBuf → Nat
  | bytes data off => data.length - off
  | owned data off => data.length - off

/-- What the kernel is pointed at. -/
def slice (b : WriteBuf) : List UInt8 := b.unsent.take (ioLen b.remaining)

def advance (n : Nat) : WriteBuf → WriteBuf
  | bytes data off => bytes data (off + n)
  | owned data off => owned data (off + n)

end WriteBuf

structure TransportEntry where
  -- the native HTTP engine consumes what arrives, not a Python protocol
  http : Bool
  sendOp : Option Nat
  -- how many buffers at the front of `wq` the send in flight points the kernel at
  inflight : Nat
  wq : List WriteBuf
  queuedBytes : Nat
  highWater : Nat
  lowWater : Nat
  protoPaused : Bool
  closing : Bool
  eofWanted : Bool
  eofSent : Bool
  lingering : Bool
  lingerUntilNs : Nat
  flushScheduled : Bool

/-- Append to the last queued buffer if no send in flight points at it. -/
def coalesceTail (entry : TransportEntry) (data : List UInt8) : Option TransportEntry :=
  if data.length > coalesceMax ∨ entry.wq.length ≤ entry.inflight then none
  else
    match entry.wq.getLast? with
    | some (.owned tail off) =>
      if tail.length - off + data.length ≤ corkFlushBytes then
        some { entry with wq := entry.wq.dropLast ++ [.owned (tail ++ data) off] }
      else none
    | _ => none

/-- What one `write()` call queues. -/
inductive Queued where
  | small (data : List UInt8)
  | buf (buf : WriteBuf)

def Queued.of (exact : Bool) (data : List UInt8) : Queued :=
  if exact then if data.length ≤ coalesceMax then .small data else .buf (.bytes data 0)
  else .buf (.owned data 0)

def TransportEntry.queueOwned (entry : TransportEntry) (data : List UInt8) : TransportEntry :=
  (coalesceTail entry data).getD { entry with wq := entry.wq ++ [.owned data 0] }

def TransportEntry.queue (entry : TransportEntry) : Queued → TransportEntry
  | .small data => { entry with queuedBytes := entry.queuedBytes + data.length }.queueOwned data
  | .buf (.owned data off) =>
    let entry := { entry with queuedBytes := entry.queuedBytes + (data.length - off) }
    (coalesceTail entry data).getD { entry with wq := entry.wq ++ [.owned data off] }
  | .buf buf =>
    { entry with queuedBytes := entry.queuedBytes + buf.remaining, wq := entry.wq ++ [buf] }

/-- The buffers of the next post, `n` of them and `total` bytes counted already. -/
def gather : Nat → Nat → List WriteBuf → List WriteBuf
  | _, _, [] => []
  | n, total, buf :: rest =>
    if n = 16 ∨ 0 < n ∧ total + buf.slice.length > maxSendBytes then []
    else buf :: gather (n + 1) (total + buf.slice.length) rest

/-- Pop what a completion consumed. -/
def consume : Nat → List WriteBuf → List WriteBuf
  | _, [] => []
  | consumed, front :: rest =>
    if consumed = 0 then front :: rest
    else if consumed ≥ front.remaining then consume (consumed - front.remaining) rest
    else front.advance consumed :: rest

/-! ## 3. The transport -/

inductive Ending where
  -- `maybe_finish_shutdown`: everything was sent
  | closed
  | failed
  | aborted
  deriving DecidableEq

structure NetState where
  entry : Option TransportEntry
  -- how often the transport is in `flush_list`
  flushList : Nat
  nextOp : Nat
  nowNs : Nat
  flushImmediately : Bool
  -- the `ResumeWriting` events not dispatched yet
  resumeWriting : Nat
  -- the facade's flags
  eof : Bool
  sendfile : Bool
  -- the bytes taken for writing, the bytes completions reported, and the buffers of every post as
  -- they were when it was made, the newest first
  accepted : List UInt8
  sent : List UInt8
  posts : List (List WriteBuf)
  ending : Option Ending

def NetState.posted (net : NetState) : List WriteBuf := net.posts.headD []

def teardown (net : NetState) (ending : Ending) : NetState :=
  match net.entry with
  | none => net
  | some _ => { net with entry := none, ending := some ending }

def maybeFinishShutdown (net : NetState) : NetState :=
  match net.entry with
  | none => net
  | some entry =>
    if entry.sendOp.isSome ∨ entry.wq ≠ [] then net
    else
      let entry := if entry.eofWanted then { entry with eofSent := true } else entry
      if ¬ entry.closing then { net with entry := some entry }
      else if entry.lingering then
        if entry.lingerUntilNs = 0 then
          -- FIN behind the response; the receive it posts belongs to the reading side
          { net with entry := some { entry with
              eofSent := true
              lingerUntilNs := max (min (net.nowNs + lingerNs) (2 ^ 64 - 1)) 1 } }
        else { net with entry := some entry }
      else teardown net .closed

variable (backend : Backend)

def flushPending (net : NetState) : NetState :=
  match net.entry with
  | none => net
  | some entry =>
    let entry := { entry with flushScheduled := false }
    if entry.sendOp.isSome then { net with entry := some entry }
    else if entry.wq = [] then maybeFinishShutdown { net with entry := some entry }
    else
      let slices := gather 0 0 entry.wq
      let op := net.nextOp
      let net := { net with nextOp := op + 1, posts := slices :: net.posts }
      if backend.postSend op then
        { net with entry := some { entry with sendOp := some op, inflight := slices.length } }
      else teardown { net with entry := some entry } .failed

/-- What a completion that reported `bytes` leaves of the entry. -/
def TransportEntry.retire (bytes : Nat) (entry : TransportEntry) : TransportEntry :=
  let queuedBytes := entry.queuedBytes - min bytes entry.queuedBytes
  { entry with
    sendOp := none
    inflight := 0
    queuedBytes := queuedBytes
    wq := consume bytes entry.wq
    protoPaused := entry.protoPaused && decide (entry.lowWater < queuedBytes) }

/-- The send in flight completes. -/
def onSendDone (net : NetState) : NetState :=
  match net.entry with
  | none => net
  | some entry =>
    match entry.sendOp with
    | none => net
    | some op =>
      match backend.reports op (net.posted.flatMap WriteBuf.slice).length with
      | none =>
        teardown { net with entry := some { entry with sendOp := none, inflight := 0 } } .failed
      | some bytes =>
        let resuming := entry.protoPaused && !(entry.retire bytes).protoPaused && !entry.http
        let net := { net with
          entry := some (entry.retire bytes)
          sent := net.sent ++ (net.posted.flatMap WriteBuf.slice).take bytes
          resumeWriting := net.resumeWriting + resuming.toNat }
        if (entry.retire bytes).wq ≠ [] then flushPending backend net
        -- what `resume_writing` writes still goes out ahead of a pending close
        else if resuming then net
        else maybeFinishShutdown net

/-- The completions the backend holds in user space: `staged` of this transport's in at most eight
rounds, each of which holds one at most. -/
def settleInline : Nat → NetState → NetState
  | 0, net => net
  | staged + 1, net => settleInline staged (onSendDone backend net)

def settleRounds : Nat := 8

def maybePause (staged : Nat) (net : NetState) : NetState :=
  match net.entry with
  | none => net
  | some entry =>
    if entry.protoPaused ∨ entry.queuedBytes ≤ entry.highWater then net
    else
      let net := if entry.sendOp.isNone then flushPending backend net else net
      let net := settleInline backend (min staged settleRounds) net
      match net.entry with
      | none => net
      | some entry =>
        if entry.protoPaused ∨ entry.queuedBytes ≤ entry.highWater then net
        else { net with entry := some { entry with protoPaused := true } }

/-- A queue that just grew is flushed at once, at the end of the tick, or by the completion of the
send in flight. -/
def afterQueue (early : Bool) (net : NetState) : NetState :=
  match net.entry with
  | none => net
  | some entry =>
    if entry.sendOp.isSome then net
    else if entry.queuedBytes ≥ corkFlushBytes ∨ early then flushPending backend net
    else if entry.flushScheduled then net
    else
      { net with
        entry := some { entry with flushScheduled := true }
        flushList := net.flushList + 1 }

/-- `Transport.write()`; `exact` for a `bytes` object. -/
def write (exact : Bool) (data : List UInt8) (staged : Nat) (net : NetState) : NetState :=
  if net.eof ∨ net.sendfile ∨ data = [] then net
  else
    match net.entry with
    | none => net
    | some entry =>
      maybePause backend staged (afterQueue backend false { net with
        entry := some (entry.queue (.of exact data))
        accepted := net.accepted ++ data })

def writelines (items : List (Bool × List UInt8 × Nat)) (net : NetState) : NetState :=
  items.foldl (fun net item => write backend item.1 item.2.1 item.2.2 net) net

/-- Wire-ready bytes of an HTTP connection. -/
def httpEnqueueRaw (data : List UInt8) (net : NetState) : NetState :=
  if data = [] then net
  else
    match net.entry with
    | none => net
    | some entry =>
      if entry.closing then net
      else
        afterQueue backend net.flushImmediately { net with
          entry := some
            ({ entry with queuedBytes := entry.queuedBytes + data.length }.queueOwned data)
          accepted := net.accepted ++ data }

/-- The tick's flush phase. -/
def flushCorked (net : NetState) : NetState :=
  Nat.repeat (flushPending backend) net.flushList { net with flushList := 0 }

def setWriteBufferLimits (high low staged : Nat) (net : NetState) : NetState :=
  match net.entry with
  | none => net
  | some entry =>
    maybePause backend staged
      { net with entry := some { entry with highWater := high, lowWater := low } }

def writeEof (net : NetState) : NetState :=
  match net.entry with
  | none => net
  | some entry =>
    if entry.closing then net
    else
      maybeFinishShutdown { net with
        entry := some { entry with eofWanted := true }
        eof := true }

/-- Give corked output the send it would already have had. -/
def sendCorked (net : NetState) : NetState :=
  match net.entry with
  | none => net
  | some entry => if entry.sendOp.isSome ∨ entry.wq = [] then net else flushPending backend net

def close (staged : Nat) (net : NetState) : NetState :=
  match net.entry with
  | none => net
  | some entry =>
    if entry.closing then net
    else
      let net := { net with entry := some { entry with closing := true } }
      let net :=
        if entry.sendOp.isSome ∨ entry.wq = [] then net
        else settleInline backend (min staged settleRounds) (sendCorked backend net)
      maybeFinishShutdown net

def abort (net : NetState) : NetState := teardown (sendCorked backend net) .aborted

/-- The tail of `http_close_after_write`. -/
def closeAfterWrite (linger : Bool) (net : NetState) : NetState :=
  match net.entry with
  | none => net
  | some entry =>
    if entry.closing then net
    else
      maybeFinishShutdown { net with
        entry := some { entry with closing := true, lingering := linger } }

/-- The peer's EOF on a lingering connection. -/
def lingerDone (net : NetState) : NetState :=
  match net.entry with
  | none => net
  | some entry =>
    if entry.lingering then
      maybeFinishShutdown { net with entry := some { entry with lingering := false } }
    else net

/-- The sweep, for a peer that never finished sending after the FIN. -/
def lingerExpired (net : NetState) : NetState :=
  match net.entry with
  | none => net
  | some entry =>
    if entry.lingering ∧ entry.lingerUntilNs ≠ 0 ∧ net.nowNs ≥ entry.lingerUntilNs then
      teardown net .closed
    else net

/-- `set_protocol()`: the new protocol starts unpaused. -/
def setProtocol (net : NetState) : NetState :=
  match net.entry with
  | none => net
  | some entry => { net with entry := some { entry with protoPaused := false } }

/-- The dispatch of a `ResumeWriting` event, behind the callback. -/
def finishAfterResume (net : NetState) : NetState :=
  let net := { net with resumeWriting := net.resumeWriting - 1 }
  match net.entry with
  | none => net
  | some entry =>
    if entry.wq = [] ∧ entry.sendOp.isNone then maybeFinishShutdown net else net

/-! ## 4. Runs -/

/-- What can happen to a transport: the facade's calls and the events of a Python protocol, those of
the native HTTP engine, and what happens to either. -/
inductive NetOp where
  | write (exact : Bool) (data : List UInt8) (staged : Nat)
  | writelines (items : List (Bool × List UInt8 × Nat))
  | setWriteBufferLimits (high low staged : Nat)
  | writeEof
  | close (staged : Nat)
  | abort
  | setProtocol
  | finishAfterResume
  | sendfile (running : Bool)
  | httpEnqueueRaw (data : List UInt8)
  | closeAfterWrite (linger : Bool)
  | lingerDone
  | lingerExpired
  | flushCorked
  | onSendDone
  | settleInline (staged : Nat)
  -- a receive that failed, a sweep, the loop's close
  | teardown
  | tick (nowNs : Nat) (flushImmediately : Bool)

/-- Only a transport of that kind is driven this way. -/
def NetState.on (http : Bool) (f : NetState → NetState) (net : NetState) : NetState :=
  if net.entry.any (·.http == http) then f net else net

def netStep (net : NetState) : NetOp → NetState
  | .write exact data staged => net.on false (write backend exact data staged)
  | .writelines items => net.on false (writelines backend items)
  | .setWriteBufferLimits high low staged =>
    net.on false (setWriteBufferLimits backend high low staged)
  | .writeEof => net.on false writeEof
  | .close staged => net.on false (close backend staged)
  | .abort => net.on false (abort backend)
  | .setProtocol => net.on false setProtocol
  | .finishAfterResume => net.on false finishAfterResume
  | .sendfile running => net.on false fun net => { net with sendfile := running }
  | .httpEnqueueRaw data => net.on true (httpEnqueueRaw backend data)
  | .closeAfterWrite linger => net.on true (closeAfterWrite linger)
  | .lingerDone => net.on true lingerDone
  | .lingerExpired => net.on true lingerExpired
  | .flushCorked => flushCorked backend net
  | .onSendDone => onSendDone backend net
  | .settleInline staged => settleInline backend staged net
  | .teardown => teardown net .failed
  | .tick nowNs flushImmediately =>
    { net with nowNs := nowNs, flushImmediately := flushImmediately }

def newEntry (http : Bool) (highWater lowWater : Nat) : TransportEntry where
  http := http
  sendOp := none
  inflight := 0
  wq := []
  queuedBytes := 0
  highWater := highWater
  lowWater := lowWater
  protoPaused := false
  closing := false
  eofWanted := false
  eofSent := false
  lingering := false
  lingerUntilNs := 0
  flushScheduled := false

def initNet (http : Bool) (highWater lowWater : Nat) : NetState where
  entry := some (newEntry http highWater lowWater)
  flushList := 0
  nextOp := 0
  nowNs := 0
  flushImmediately := false
  resumeWriting := 0
  eof := false
  sendfile := false
  accepted := []
  sent := []
  posts := []
  ending := none

def stream (http : Bool) (highWater lowWater : Nat) : Reasoning.Machine NetState NetOp where
  init := initNet http highWater lowWater
  step := netStep backend

end Cadeloop.Pyshim.Net
