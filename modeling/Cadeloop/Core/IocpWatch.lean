import Cadeloop.Core.OpSlabLookups

/-!
# Readiness watches over AFD (`crates/core/src/backend/iocp.rs`, `iocp_util.rs`)

On Windows a socket is watched by a poll that names it and answers once; its completion reports what
is ready and queues the next poll.  Interest may change, and a socket's number be given to another
socket, while a poll is in flight.  What the kernel answers comes with the calls; of the operations
that are not polls, there is what they do to the slab.
-/

namespace Cadeloop.Core.IocpWatch

open Cadeloop.Reasoning
open Ops (OpId OpKind OpState)

/-! ## 1. AFD polls -/

def afdPollReceive : UInt32 := 0x0001

def afdPollSend : UInt32 := 0x0004

def afdPollDisconnect : UInt32 := 0x0008

def afdPollAbort : UInt32 := 0x0010

def afdPollLocalClose : UInt32 := 0x0020

def afdPollAccept : UInt32 := 0x0080

def afdPollConnectFail : UInt32 := 0x0100

def afdRead : UInt32 :=
  afdPollReceive ||| afdPollDisconnect ||| afdPollAccept ||| afdPollAbort ||| afdPollConnectFail

def afdWrite : UInt32 := afdPollSend ||| afdPollAbort ||| afdPollConnectFail

def afdPollEvents (read write : Bool) : UInt32 :=
  let ev := afdPollLocalClose
  let ev := if read then ev ||| afdRead else ev
  if write then ev ||| afdWrite else ev

/-- Where no handle is reported, the buffer still holds what was asked for. -/
def afdReportedEvents (numberOfHandles events : UInt32) : UInt32 :=
  if numberOfHandles = 0 then 0 else events

inductive PollOutcome where
  | ready (readable writable : Bool)
  | cancelled
  | failed
  | closed

-- an NTSTATUS by its bits
def statusCancelled : UInt32 := 0xC0000120

def ntSuccess (status : UInt32) : Bool := status < 0x80000000

def afdOutcome (status events : UInt32) (read write : Bool) : PollOutcome :=
  if status = statusCancelled then .cancelled
  else if ¬ntSuccess status then .failed
  else if events &&& afdPollLocalClose ≠ 0 then .closed
  else .ready (read && events &&& afdRead ≠ 0) (write && events &&& afdWrite ≠ 0)

/-! ## 2. The backend -/

abbrev Socket := Nat

structure IocpOp where
  socket : Socket
  -- a poll's request: the handle it names, and what it asks for
  handle : Nat
  events : UInt32

structure Watch where
  read : Bool
  write : Bool
  -- the base handle, which a poll names
  base : Nat
  poll : Option OpId
  polled : UInt32
  queued : Bool
  dead : Bool

def Watch.want (readable writable : Bool) (w : Watch) : Watch :=
  { w with read := readable, write := writable }

/-- Its poll is in flight. -/
def Watch.fly (id : OpId) (w : Watch) : Watch :=
  { w with poll := some id, polled := afdPollEvents w.read w.write }

/-- It is never polled again. -/
def Watch.refuse (w : Watch) : Watch := { w with dead := true }

def Watch.queue (queued : Bool) (w : Watch) : Watch := { w with queued }

/-- Its poll was reaped. -/
def Watch.land (dead : Bool) (w : Watch) : Watch := { w with poll := none, dead }

inductive Completion where
  | io (op : OpId)
  | ready (socket : Socket) (readable writable : Bool)

/-- What the loop is told. -/
def PollOutcome.report (socket : Socket) (w : Watch) : PollOutcome → List Completion
  | .ready readable writable =>
    if readable ∨ writable then [.ready socket readable writable] else []
  | .cancelled => []
  | .failed => if w.read ∨ w.write then [.ready socket w.read w.write] else []
  | .closed => []

/-- Whether it leaves the watch never to be polled again. -/
def PollOutcome.dead (w : Watch) : PollOutcome → Bool
  | .failed | .closed => true
  | _ => w.dead

/-- What one submission meets: the allocator, and whether AFD refuses the poll. -/
structure Submission where
  alloc : Nat
  refused : Bool

/-- What `set_watch` meets: whether a helper can be made, and the base handle it finds. -/
structure Lookup where
  helper : Bool
  base : Option Nat

structure IocpBackend where
  slab : Ops.Run IocpOp
  -- there is an AFD helper
  afd : Bool
  watches : Socket → Option Watch
  watchRearm : List Socket
  inlineCompletions : List Completion
  wakeOnly : Option Socket
  -- a record of what was handed out
  delivered : List Completion

namespace IocpBackend

def new : IocpBackend where
  slab := .new ⟨0, 0, 0⟩
  afd := false
  watches := fun _ => none
  watchRearm := []
  inlineCompletions := []
  wakeOnly := none
  delivered := []

def setEntry (socket : Socket) (w : Option Watch) (s : IocpBackend) : IocpBackend :=
  { s with watches := Function.update s.watches socket w }

def stage (c : Completion) (s : IocpBackend) : IocpBackend :=
  { s with inlineCompletions := s.inlineCompletions ++ [c] }

def queueRearm (socket : Socket) (s : IocpBackend) : IocpBackend :=
  match s.watches socket with
  | none => s
  | some w =>
    if w.queued then s
    else
      { s.setEntry socket (some (w.queue true)) with watchRearm := s.watchRearm ++ [socket] }

/-- A slot whose operation ended without a packet; it is released once the port was drained. -/
def retireUnreaped (id : OpId) (s : IocpBackend) : IocpBackend :=
  { s with slab := s.slab.step (.complete id) }

/-- `new_op`: the slot, and the socket it is for. -/
def newOp (alloc : Nat) (kind : OpKind) (socket : Socket) (s : IocpBackend) :
    Option (OpId × IocpBackend) :=
  (s.slab.slab.post alloc kind).map fun r =>
    (r.1, { s with
      slab := (s.slab.step (.post alloc kind)).step (.getMut r.1 fun slot =>
        (slot.1, { slot.2 with socket })) })

/-- The request of a poll. -/
def request (id : OpId) (handle : Nat) (events : UInt32) (s : IocpBackend) : IocpBackend :=
  { s with slab := s.slab.step (.getMut id fun slot => (slot.1, { slot.2 with handle, events })) }

def submitPoll (sys : Submission) (socket : Socket) (s : IocpBackend) : IocpBackend :=
  match s.watches socket with
  | none => s
  | some w =>
    if w.dead ∨ w.poll.isSome ∨ ¬(w.read ∨ w.write) then s
    else if ¬s.afd then s
    else
      match s.newOp sys.alloc .poll socket with
      | none => s
      | some (id, s) =>
        let s := s.request id w.base (afdPollEvents w.read w.write)
        if sys.refused then
          ((s.retireUnreaped id).setEntry socket (some w.refuse)).stage
            (.ready socket w.read w.write)
        else
          -- pending or done, its packet comes through the port
          s.setEntry socket (some (w.fly id))

def rearmWatch (sys : Socket → Submission) (s : IocpBackend) (socket : Socket) : IocpBackend :=
  let s :=
    match s.watches socket with
    | none => s
    | some w => s.setEntry socket (some (w.queue false))
  s.submitPoll (sys socket) socket

/-- The polls of every watch queued for one. -/
def rearmWatches (sys : Socket → Submission) (s : IocpBackend) : IocpBackend :=
  { s.watchRearm.foldl (rearmWatch sys) { s with watchRearm := [] } with watchRearm := [] }

-- it marks, and then asks the kernel, which answers through the port
def cancelPoll (id : OpId) (s : IocpBackend) : IocpBackend :=
  { s with slab := s.slab.step (.markCancelled id) }

def onPollDone (socket : Socket) (id : OpId) (status events : UInt32) (cancelled : Bool)
    (s : IocpBackend) : IocpBackend :=
  match s.watches socket with
  | none => s
  | some w =>
    if w.poll ≠ some id then s
    else
      let outcome := if cancelled then PollOutcome.cancelled else afdOutcome status events w.read w.write
      let dead := outcome.dead w
      let s :=
        { s.setEntry socket (some (w.land dead)) with
          delivered := s.delivered ++ outcome.report socket w }
      if ¬(w.read ∨ w.write) then s.setEntry socket none
      else if dead then s
      else s.queueRearm socket

/-! ## 3. The backend's calls -/

/-- The watch for a socket wanted again, its base handle learnt afresh. -/
def restart (found : Option Nat) (socket : Socket) (s : IocpBackend) : Option Watch :=
  match s.watches socket with
  | none =>
    found.map fun base =>
      { read := false, write := false, base, poll := none, polled := 0, queued := false
        dead := false }
  | some w =>
    if w.dead ∨ ¬(w.read ∨ w.write) then found.map fun base => { w with base, dead := false }
    else some w

/-- `set_watch`, and whether it succeeded. -/
def setWatch (sys : Lookup) (socket : Socket) (readable writable : Bool) (s : IocpBackend) :
    Bool × IocpBackend :=
  if ¬(readable ∨ writable) then
    match s.watches socket with
    | none => (true, s)
    | some w =>
      match w.poll with
      -- the entry goes when the cancelled poll is reaped
      | some id =>
        (true, (s.setEntry socket (some (w.want false false))).cancelPoll id)
      | none => (true, s.setEntry socket none)
  else if ¬s.afd ∧ ¬sys.helper then (false, s)
  else
    let s := { s with afd := true }
    match s.restart sys.base socket with
    | none => (false, s)
    | some w =>
      let s := s.setEntry socket (some (w.want readable writable))
      let want := afdPollEvents readable writable
      match w.poll with
      | some id => if w.polled &&& want = want then (true, s) else (true, s.cancelPoll id)
      | none => (true, s.queueRearm socket)

def detachSocket (socket : Socket) (s : IocpBackend) : IocpBackend :=
  (s.setWatch ⟨false, none⟩ socket false false).2

/-- A packet off the port that carries a slot of ours. -/
def translateEntry (id : OpId) (status events : UInt32) (s : IocpBackend) : IocpBackend :=
  match s.slab.slab.get id with
  | none => s
  | some slot =>
    -- an operation retired without a packet
    if ¬slot.inFlight then s
    else
      let s := { s with slab := s.slab.step (.complete id) }
      if slot.kind = .poll then
        { s with slab := s.slab.step (.release id) }.onPollDone slot.data.socket id status events
          (decide (slot.state = OpState.cancelled))
      else { s with delivered := s.delivered ++ [.io id] }

/-- Another operation's slot. -/
def postOther (alloc : Nat) (kind : OpKind) (socket : Socket) (s : IocpBackend) : IocpBackend :=
  if kind = .poll then s else ((s.newOp alloc kind socket).map Prod.snd).getD s

/-- It ended at once, its result staged. -/
def completeInline (id : OpId) (s : IocpBackend) : IocpBackend :=
  match s.slab.slab.get id with
  | none => s
  | some slot =>
    if slot.kind = .poll then s
    else (s.retireUnreaped id).stage (.io id)

def takeStaged (s : IocpBackend) : IocpBackend :=
  { s with delivered := s.delivered ++ s.inlineCompletions, inlineCompletions := [] }

def wakePolls (s : IocpBackend) : Nat :=
  match s.wakeOnly.bind s.watches with
  | none => 0
  | some w => w.poll.isSome.toNat

def hasIoInterest (s : IocpBackend) : Bool :=
  if s.inlineCompletions ≠ [] ∨ s.watchRearm ≠ [] then true
  else s.slab.slab.inFlight > s.wakePolls

end IocpBackend

inductive Event where
  | setWatch (sys : Lookup) (socket : Socket) (readable writable : Bool)
  | detachSocket (socket : Socket)
  -- the start of a poll, and of each wait
  | rearm (sys : Socket → Submission)
  | takeStaged
  | packet (id : OpId) (status numberOfHandles events : UInt32)
  | cancel (id : OpId)
  | setWakeOnly (fd : Option Socket)
  -- the other operations: posted, ended inline, recycled
  | post (alloc : Nat) (kind : OpKind) (socket : Socket)
  | completeInline (id : OpId)
  | release (id : OpId)

def IocpBackend.step (s : IocpBackend) : Event → IocpBackend
  | .setWatch sys socket readable writable => (s.setWatch sys socket readable writable).2
  | .detachSocket socket => s.detachSocket socket
  | .rearm sys => s.rearmWatches sys
  | .takeStaged => s.takeStaged
  | .packet id status numberOfHandles events =>
    s.translateEntry id status (afdReportedEvents numberOfHandles events)
  | .cancel id => s.cancelPoll id
  | .setWakeOnly fd => { s with wakeOnly := fd }
  | .post alloc kind socket => s.postOther alloc kind socket
  | .completeInline id => s.completeInline id
  | .release id => { s with slab := s.slab.step (.release id) }

def backend : Machine IocpBackend Event := ⟨.new, IocpBackend.step⟩

end Cadeloop.Core.IocpWatch
