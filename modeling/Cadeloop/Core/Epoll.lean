import Cadeloop.Core.OpSlabRuns

/-!
# The epoll backend (`crates/core/src/backend/epoll.rs`)

Operations over readiness: a post tries its syscall at once, and parks where it would block; `poll`
tries again what is parked on the descriptors reported ready.  What the system answers comes with
the inputs: of a syscall retried after EINTR (or, for `accept4`, a transient error), the answer that
ends the loop.  The last fields of the backend are a record of the run, which no operation reads.
-/

namespace Cadeloop.Core.Epoll

open Cadeloop.Reasoning
open Ops (OpId OpKind OpState)

/-! ## 1. What the system answers -/

-- descriptors are not negative; `-1` is `none`
abbrev RawFd := Nat

structure Errno where
  code : Nat
  pos : 0 < code
  deriving DecidableEq

def enoent : Errno := ⟨2, by decide⟩

def ebadf : Errno := ⟨9, by decide⟩

def eexist : Errno := ⟨17, by decide⟩

def ealready : Errno := ⟨114, by decide⟩

def einprogress : Errno := ⟨115, by decide⟩

def ecanceled : Errno := ⟨125, by decide⟩

inductive Answer where
  -- the count or descriptor returned (of `getsockopt`, the SO_ERROR), and a datagram's sender
  | done (n : Nat) (addr : List UInt8)
  -- EAGAIN
  | again
  | failed (e : Errno)

/-- The answers of at most two `epoll_ctl` calls. -/
structure Ctl where
  first : Option Errno
  second : Option Errno

/-- What one post meets: the allocator, its syscall, and the `epoll_ctl` calls of a park. -/
structure Sys where
  alloc : Nat
  answer : Answer
  ctl : Ctl

/-! ## 2. Operations and descriptors -/

structure IoSlice where
  ptr : Nat
  len : Nat

def maxGather : Nat := 16

inductive Pending where
  | accept
  | recv (buf len : Nat)
  | send (bufs : List IoSlice) (done : Nat)
  | connect
  | recvFrom (buf len : Nat) (src : List UInt8)
  | sendTo (data dst : List UInt8)

def Pending.writeSide : Pending → Bool
  | accept => false
  | recv _ _ => false
  | send _ _ => true
  | connect => true
  | recvFrom _ _ _ => false
  | sendTo _ _ => true

def Pending.recvLen : Pending → Option Nat
  | recv _ len => some len
  | _ => none

structure EpollOp where
  fd : Option RawFd
  pending : Pending
  -- an accept's result, until `take_accept_socket`
  accepted : Option RawFd

def emptyOp : EpollOp := ⟨none, .accept, none⟩

structure Mask where
  r : Bool
  w : Bool
  deriving DecidableEq

def Mask.none : Mask := ⟨false, false⟩

def Mask.within (m m' : Mask) : Bool := (!m.r || m'.r) && (!m.w || m'.w)

structure FdEntry where
  readOp : Option OpId
  writeOp : Option OpId
  watchR : Bool
  watchW : Bool
  registered : Bool
  -- the mask installed, possibly more than `interest`
  kernel : Mask
  drained : Bool

namespace FdEntry

def default : FdEntry := ⟨none, none, false, false, false, .none, false⟩

def interest (e : FdEntry) : Mask := ⟨e.readOp.isSome || e.watchR, e.writeOp.isSome || e.watchW⟩

def op (e : FdEntry) (writeSide : Bool) : Option OpId := if writeSide then e.writeOp else e.readOp

def setOp (e : FdEntry) (writeSide : Bool) (op : Option OpId) : FdEntry :=
  if writeSide then { e with writeOp := op } else { e with readOp := op }

end FdEntry

/-- An `epoll_ctl` call, with its answer where it is read. -/
inductive CtlCall where
  | add (fd : RawFd) (events : Mask) (answer : Option Errno)
  | mod (fd : RawFd) (events : Mask) (answer : Option Errno)
  | del (fd : RawFd) (answer : Option Errno)
  -- a DEL whose answer nobody reads
  | forget (fd : RawFd)

structure FdTable where
  -- the present ones, and how many they are
  slots : RawFd → Option FdEntry
  live : Nat
  -- the signal-wakeup descriptor, and whether it is present
  wakeFd : Option RawFd
  wakePresent : Bool
  -- a record of the `epoll_ctl` calls made
  ctls : List CtlCall

namespace FdTable

def empty : FdTable := ⟨fun _ => none, 0, none, false, []⟩

def get (t : FdTable) (fd : RawFd) : Option FdEntry := t.slots fd

def called (calls : List CtlCall) (t : FdTable) : FdTable := { t with ctls := t.ctls ++ calls }

def put (t : FdTable) (fd : RawFd) (e : FdEntry) : FdTable :=
  { t with slots := Function.update t.slots fd (some e) }

/-- The entry for `fd`, created if absent. -/
def entry (t : FdTable) (fd : RawFd) : FdEntry × FdTable :=
  match t.slots fd with
  | some e => (e, t)
  | none =>
    (.default, { t.put fd .default with
      live := t.live + 1, wakePresent := t.wakePresent || t.wakeFd = some fd })

def remove (t : FdTable) (fd : RawFd) : FdTable :=
  match t.slots fd with
  | some _ =>
    { t with
      slots := Function.update t.slots fd none
      live := t.live - 1
      wakePresent := if t.wakeFd = some fd then false else t.wakePresent }
  | none => t

/-- Remove the entry for `fd`, and the registration it says there is. -/
def forget (t : FdTable) (fd : RawFd) : FdTable :=
  if (t.get fd).any (·.registered) then (t.remove fd).called [.forget fd] else t.remove fd

def setWakeFd (fd : Option RawFd) (t : FdTable) : FdTable :=
  { t with wakeFd := fd, wakePresent := fd.any fun fd => (t.get fd).isSome }

/-- Present entries other than the signal-wakeup descriptor. -/
def interestLen (t : FdTable) : Nat := t.live - t.wakePresent.toNat

def isEmpty (t : FdTable) : Bool := t.live = 0

end FdTable

/-- Bring the kernel's mask in line with `interest()`; lazily, one that covers it is left. -/
def syncInterest (lazily : Bool) (ctl : Ctl) (fd : RawFd) (fds : FdTable) : Option Errno × FdTable :=
  match fds.get fd with
  | none => (none, fds)
  | some entry =>
    let interest := entry.interest
    if interest = entry.kernel then (none, fds)
    else if lazily ∧ interest.within entry.kernel then (none, fds)
    else if entry.registered ∧ interest = .none then
      -- ENOENT, EBADF: the kernel forgot the descriptor already
      (if ctl.first = some enoent ∨ ctl.first = some ebadf then none else ctl.first,
        (fds.remove fd).called [.del fd ctl.first])
    else if interest = .none then (none, fds.remove fd)
    else
      let rc :=
        if entry.registered then
          -- MOD, and ADD where the registration is gone
          if ctl.first = some enoent then ctl.second else ctl.first
        else
          -- ADD, and MOD where it is there already
          if ctl.first = some eexist then ctl.second else ctl.first
      let fds := fds.called (
        if entry.registered then
          if ctl.first = some enoent then [.mod fd interest ctl.first, .add fd interest ctl.second]
          else [.mod fd interest ctl.first]
        else
          if ctl.first = some eexist then [.add fd interest ctl.first, .mod fd interest ctl.second]
          else [.add fd interest ctl.first])
      match rc with
      | none => (none, fds.put fd { entry with registered := true, kernel := interest })
      | some e =>
        (some e,
          if e = ebadf then fds.put fd { entry with registered := false, kernel := .none } else fds)

/-! ## 3. The backend -/

inductive Completion where
  | io (op : OpId) (bytes osError : Nat)
  | ready (socket : RawFd) (readable writable : Bool)
  | wakeup
  deriving DecidableEq

inductive PostError where
  | wouldBlock
  | os (e : Nat)
  -- an `expect` failed
  | panicked
  deriving DecidableEq

structure EpollBackend where
  slab : Ops.Run EpollOp
  fds : FdTable
  inlineCompletions : List Completion
  -- an eventfd tick not consumed
  armed : Bool
  -- the record: the ids posts returned, those parked by a post that failed, what `poll` and
  -- `take_staged` handed out, the descriptors of accepts, handed out, and closed here
  returned : List OpId
  orphans : List OpId
  delivered : List Completion
  accepts : List (OpId × RawFd)
  handed : List (OpId × RawFd)
  closed : List RawFd

namespace EpollBackend

def new : EpollBackend where
  slab := .new emptyOp
  fds := .empty
  inlineCompletions := []
  armed := false
  returned := []
  orphans := []
  delivered := []
  accepts := []
  handed := []
  closed := []

def setData (id : OpId) (data : EpollOp) (s : EpollBackend) : EpollBackend :=
  { s with slab := s.slab.step (.getMut id fun slot => (slot.1, data)) }

def complete (id : OpId) (s : EpollBackend) : EpollBackend :=
  { s with slab := s.slab.step (.complete id) }

def release (id : OpId) (s : EpollBackend) : EpollBackend :=
  { s with slab := s.slab.step (.release id) }

def markCancelled (id : OpId) (s : EpollBackend) : EpollBackend :=
  { s with slab := s.slab.step (.markCancelled id) }

def stage (c : Completion) (s : EpollBackend) : EpollBackend :=
  { s with inlineCompletions := s.inlineCompletions ++ [c] }

/-- The last lines of an operation that ends inline. -/
def finishInline (id : OpId) (bytes osError : Nat) (s : EpollBackend) : EpollBackend :=
  ((s.complete id).release id).stage (.io id bytes osError)

end EpollBackend

open EpollBackend

/-- The slices of a gather that are not sent whole. -/
def unsent : Nat → List IoSlice → List IoSlice
  | _, [] => []
  | skip, b :: rest =>
    if skip ≥ b.len then unsent (skip - b.len) rest
    else ⟨b.ptr + skip, b.len - skip⟩ :: unsent 0 rest

/-- The syscall of an operation: count and error if it finished, nothing to stay parked. -/
def EpollOp.attempt (answer : Answer) (op : EpollOp) : Option (Nat × Nat) × EpollOp :=
  match op.pending with
  | .recv _ _ =>
    match answer with
    | .done n _ => (some (n, 0), op)
    | .again => (none, op)
    | .failed e => (some (0, e.code), op)
  | .send bufs done =>
    if (unsent done bufs).isEmpty then (some (done, 0), op)
    else
      match answer with
      | .done n _ =>
        -- any progress ends it, a short count included
        (if done + n > 0 then some (done + n, 0) else none,
          { op with pending := .send bufs (done + n) })
      | .again => (none, op)
      | .failed e => (some (done, e.code), op)
  | .accept =>
    match answer with
    | .done n _ => (some (0, 0), { op with accepted := some n })
    | .again => (none, op)
    | .failed e => (some (0, e.code), op)
  | .connect =>
    match answer with
    | .done n _ =>
      if n = 0 then (some (0, 0), op)
      else if n = einprogress.code ∨ n = ealready.code then (none, op)
      else (some (0, n), op)
    | .again => (none, op)
    | .failed e => (some (0, e.code), op)
  | .recvFrom buf len _ =>
    match answer with
    | .done n addr => (some (n, 0), { op with pending := .recvFrom buf len addr })
    | .again => (none, op)
    | .failed e => (some (0, e.code), op)
  | .sendTo _ _ =>
    match answer with
    | .done n _ => (some (n, 0), op)
    | .again => (none, op)
    | .failed e => (some (0, e.code), op)

def attempt (answer : Answer) (id : OpId) (s : EpollBackend) : Option (Nat × Nat) × EpollBackend :=
  match s.slab.slab.get id with
  | none => (none, s)
  | some slot =>
    let r := slot.data.attempt answer
    let s := s.setData id r.2
    -- an accept that succeeds holds its descriptor now
    match slot.data.pending, r.2.accepted, r.1 with
    | .accept, some n, some _ => (r.1, { s with accepts := s.accepts ++ [(id, n)] })
    | _, _, _ => (r.1, s)

/-! ## 4. Posts -/

def launch (sys : Sys) (kind : OpKind) (fd : RawFd) (pending : Pending) (s : EpollBackend) :
    Option (OpId × EpollBackend) :=
  match s.slab.slab.post sys.alloc kind with
  | none => none
  | some (id, _) =>
    some (id, { s with slab := s.slab.step (.post sys.alloc kind) }.setData id ⟨some fd, pending, none⟩)

/-- Park on the read or write side, of which there is one place each. -/
def park (ctl : Ctl) (id : OpId) (fd : RawFd) (writeSide : Bool) (s : EpollBackend) :
    Except PostError OpId × EpollBackend :=
  let r := s.fds.entry fd
  let s := { s with fds := r.2 }
  if (r.1.op writeSide).isSome then (.error .wouldBlock, (s.complete id).release id)
  else
    let sync := syncInterest false ctl fd (r.2.put fd (r.1.setOp writeSide (some id)))
    let s := { s with fds := sync.2 }
    match sync.1 with
    | none => (.ok id, s)
    | some e => (.error (.os e.code), { s with orphans := s.orphans ++ [id] })

def closeAccepted (id : OpId) (s : EpollBackend) : EpollBackend :=
  match (s.slab.slab.get id).bind (·.data.accepted) with
  | some n => { s with closed := s.closed ++ [n] }
  | none => s

def completeNowKeepingAccept (id : OpId) (bytes osError : Nat) (s : EpollBackend) : EpollBackend :=
  let s := s.complete id
  let s := if osError ≠ 0 then (closeAccepted id s).release id else s
  s.stage (.io id bytes osError)

def postAccept (sys : Sys) (listener : RawFd) (s : EpollBackend) :
    Except PostError OpId × EpollBackend :=
  -- a second one could only be refused
  if (s.fds.get listener).any (·.readOp.isSome) then (.error .wouldBlock, s)
  else
    match launch sys .accept listener .accept s with
    | none => (.error .panicked, s)
    | some (id, s) =>
      match attempt sys.answer id s with
      | (some (bytes, 0), s) => (.ok id, completeNowKeepingAccept id bytes 0 s)
      -- a synchronous failure is the post failing
      | (some (_, err), s) => (.error (.os err), (s.complete id).release id)
      | (none, s) => park sys.ctl id listener false s

def postRecv (sys : Sys) (socket : RawFd) (buf len : Nat) (s : EpollBackend) :
    Except PostError OpId × EpollBackend :=
  match launch sys .recv socket (.recv buf len) s with
  | none => (.error .panicked, s)
  | some (id, s) =>
    -- the last receive came up short, so this one would block
    if (s.fds.get socket).any (·.drained) then park sys.ctl id socket false s
    else
      match attempt sys.answer id s with
      | (some (bytes, err), s) =>
        let s :=
          if err = 0 then
            let r := s.fds.entry socket
            { s with fds := r.2.put socket { r.1 with drained := bytes < len } }
          else s
        (.ok id, s.finishInline id bytes err)
      | (none, s) => park sys.ctl id socket false s

/-- A post on the write side that is tried first. -/
def postWrite (sys : Sys) (kind : OpKind) (socket : RawFd) (pending : Pending) (s : EpollBackend) :
    Except PostError OpId × EpollBackend :=
  match launch sys kind socket pending s with
  | none => (.error .panicked, s)
  | some (id, s) =>
    match attempt sys.answer id s with
    | (some (bytes, err), s) => (.ok id, s.finishInline id bytes err)
    | (none, s) => park sys.ctl id socket true s

def postSend (sys : Sys) (socket : RawFd) (bufs : List IoSlice) (s : EpollBackend) :
    Except PostError OpId × EpollBackend :=
  postWrite sys .send socket (.send (bufs.take maxGather) 0) s

def postSendTo (sys : Sys) (socket : RawFd) (data dst : List UInt8) (s : EpollBackend) :
    Except PostError OpId × EpollBackend :=
  postWrite sys .sendTo socket (.sendTo data dst) s

def postRecvFrom (sys : Sys) (socket : RawFd) (buf len : Nat) (s : EpollBackend) :
    Except PostError OpId × EpollBackend :=
  match launch sys .recvFrom socket (.recvFrom buf len []) s with
  | none => (.error .panicked, s)
  | some (id, s) =>
    match attempt sys.answer id s with
    | (some (bytes, err), s) =>
      let s := s.complete id
      let s := if err ≠ 0 then s.release id else s
      (.ok id, s.stage (.io id bytes err))
    | (none, s) => park sys.ctl id socket false s

/-- `connect` is called before the operation is posted. -/
def postConnect (sys : Sys) (socket : RawFd) (s : EpollBackend) :
    Except PostError OpId × EpollBackend :=
  match launch sys .connect socket .connect s with
  | none => (.error .panicked, s)
  | some (id, s) =>
    match sys.answer with
    | .done _ _ => (.ok id, s.finishInline id 0 0)
    | .again => (.ok id, s.finishInline id 0 11)
    | .failed e =>
      if e = einprogress then park sys.ctl id socket true s
      else (.ok id, s.finishInline id 0 e.code)

/-! ## 5. The other calls -/

def registerSocket (fd : RawFd) (s : EpollBackend) : EpollBackend := { s with fds := s.fds.forget fd }

def takeAcceptSocket (op : OpId) (s : EpollBackend) : Option RawFd × EpollBackend :=
  match s.slab.slab.get op with
  | none => (none, s)
  | some slot => (slot.data.accepted, (s.setData op { slot.data with accepted := none }).release op)

def takeRecvFromAddr (op : OpId) (s : EpollBackend) : Option (List UInt8) × EpollBackend :=
  match s.slab.slab.get op with
  | none => (none, s)
  | some slot =>
    (match slot.data.pending with
      | .recvFrom _ _ src => some src
      | _ => none, s.release op)

def cancel (ctl : Ctl) (op : OpId) (s : EpollBackend) : EpollBackend :=
  if (s.slab.slab.markCancelled op).1 = false then s
  else
    let s := s.markCancelled op
    match s.slab.slab.get op with
    -- `expect("cancelled op is live")`
    | none => s
    | some slot =>
      let s :=
        match slot.data.fd with
        | none => s
        | some fd =>
          match s.fds.get fd with
          | none => s
          | some entry =>
            if entry.op slot.data.pending.writeSide = some op then
              { s with
                fds := (syncInterest true ctl fd
                  (s.fds.put fd (entry.setOp slot.data.pending.writeSide none))).2 }
            else s
      let s :=
        match slot.data.pending with
        | .accept => closeAccepted op s
        | _ => s
      s.finishInline op 0 ecanceled.code

def detachSocket (fd : RawFd) (s : EpollBackend) : EpollBackend :=
  match s.fds.get fd with
  | none => s
  | some entry =>
    (entry.readOp.toList ++ entry.writeOp.toList).foldl
      (fun s id => (s.markCancelled id).finishInline id 0 ecanceled.code)
      { s with fds := s.fds.forget fd }

def setWatch (ctl : Ctl) (fd : RawFd) (readable writable : Bool) (s : EpollBackend) : EpollBackend :=
  if ¬ readable ∧ ¬ writable ∧ (s.fds.get fd).isNone then s
  else
    let r := s.fds.entry fd
    let entry := r.1
    let prevR := entry.watchR
    let prevW := entry.watchW
    -- a watch added again: the registration is not trusted
    let kernel := if readable ∧ prevR ∨ writable ∧ prevW then .none else entry.kernel
    let sync := syncInterest false ctl fd
      (r.2.put fd { entry with kernel, watchR := readable, watchW := writable })
    match sync.1 with
    | none => { s with fds := sync.2 }
    | some _ =>
      match sync.2.get fd with
      | none => { s with fds := sync.2 }
      | some entry =>
        let entry := { entry with watchR := prevR, watchW := prevW }
        let fds := sync.2.put fd entry
        { s with
          fds := if entry.interest = .none ∧ ¬ entry.registered then fds.remove fd else fds }

/-- What `set_watch` returns. -/
def setWatchError (ctl : Ctl) (fd : RawFd) (readable writable : Bool) (s : EpollBackend) : Option Errno :=
  if ¬ readable ∧ ¬ writable ∧ (s.fds.get fd).isNone then none
  else
    let r := s.fds.entry fd
    let entry := r.1
    let kernel := if readable ∧ entry.watchR ∨ writable ∧ entry.watchW then .none else entry.kernel
    (syncInterest false ctl fd
      (r.2.put fd { entry with kernel, watchR := readable, watchW := writable })).1

def takeStaged (s : EpollBackend) : EpollBackend :=
  { s with delivered := s.delivered ++ s.inlineCompletions, inlineCompletions := [] }

/-- Run the operation parked on one side of a ready descriptor, if there is one. -/
def driveSide (answer : Answer) (ctl : Ctl) (fd : RawFd) (writeSide : Bool) (s : EpollBackend) :
    Bool × EpollBackend :=
  match (s.fds.get fd).bind (·.op writeSide) with
  | none => (false, s)
  | some id =>
    let recvLen := (s.slab.slab.get id).bind fun slot => slot.data.pending.recvLen
    match attempt answer id s with
    | (none, s) => (true, s)
    | (some (bytes, osError), s) =>
      let fds :=
        match s.fds.get fd with
        | none => s.fds
        | some entry =>
          let entry := entry.setOp writeSide none
          s.fds.put fd
            (match recvLen with
            | some len => { entry with drained := osError = 0 ∧ bytes < len }
            | none => entry)
      let s := { s with fds := (syncInterest true ctl fd fds).2 }
      let kind : Option OpKind := (s.slab.slab.get id).map (·.kind)
      let s := s.complete id
      let s :=
        match kind with
        -- kept until `take_accept_socket`, `take_recv_from_addr`
        | some .accept => if osError = 0 then s else s.release id
        | some .recvFrom => if osError = 0 then s else s.release id
        | _ => s.release id
      (true, { s with delivered := s.delivered ++ [.io id bytes osError] })

/-- An event of `epoll_wait`, and what the calls it leads to answer. -/
inductive Event where
  | wake
  | fd (fd : RawFd) (readReady writeReady : Bool) (read write : Answer) (readCtl writeCtl tail : Ctl)

def handle (s : EpollBackend) : Event → EpollBackend
  | .wake => { s with armed := false, delivered := s.delivered ++ [.wakeup] }
  | .fd fd readReady writeReady read write readCtl writeCtl tail =>
    let r := if readReady then driveSide read readCtl fd false s else (false, s)
    let w := if writeReady then driveSide write writeCtl fd true r.2 else (false, r.2)
    let s := w.2
    let wr := (s.fds.get fd).any (·.watchR) && readReady
    let ww := (s.fds.get fd).any (·.watchW) && writeReady
    let s := if wr || ww then { s with delivered := s.delivered ++ [.ready fd wr ww] } else s
    -- a side that fired for nobody is stale
    if (readReady && !(r.1 || wr)) || (writeReady && !(w.1 || ww)) then
      { s with fds := (syncInterest false tail fd s.fds).2 }
    else s

inductive Wait where
  | events (es : List Event)
  -- EINTR while parked
  | interrupted
  | failed (e : Errno)

def poll (timeout : Nat) (wait : Wait) (s : EpollBackend) : EpollBackend :=
  let timeout := if s.inlineCompletions.isEmpty then timeout else 0
  let s := takeStaged s
  if timeout = 0 ∧ s.fds.isEmpty ∧ ¬ s.armed then s
  else
    match wait with
    | .events es => es.foldl handle s
    | .interrupted => s
    | .failed _ => s

/-! ## 6. Runs -/

inductive Input where
  | registerSocket (fd : RawFd)
  | postAccept (sys : Sys) (listener : RawFd)
  | postRecv (sys : Sys) (socket : RawFd) (buf len : Nat)
  | postSend (sys : Sys) (socket : RawFd) (bufs : List IoSlice)
  | postConnect (sys : Sys) (socket : RawFd)
  | postRecvFrom (sys : Sys) (socket : RawFd) (buf len : Nat)
  | postSendTo (sys : Sys) (socket : RawFd) (data dst : List UInt8)
  | cancel (ctl : Ctl) (op : OpId)
  | detachSocket (fd : RawFd)
  | setWatch (ctl : Ctl) (fd : RawFd) (readable writable : Bool)
  | takeStaged
  | poll (timeout : Nat) (wait : Wait)
  | takeAcceptSocket (op : OpId)
  | takeRecvFromAddr (op : OpId)
  -- another thread's `wake()`
  | wake

/-- What a post returned. -/
def posted (r : Except PostError OpId × EpollBackend) : EpollBackend :=
  match r.1 with
  | .ok id => { r.2 with returned := r.2.returned ++ [id] }
  | .error _ => r.2

def post (s : EpollBackend) : Input → Option (Except PostError OpId × EpollBackend)
  | .postAccept sys listener => some (postAccept sys listener s)
  | .postRecv sys socket buf len => some (postRecv sys socket buf len s)
  | .postSend sys socket bufs => some (postSend sys socket bufs s)
  | .postConnect sys socket => some (postConnect sys socket s)
  | .postRecvFrom sys socket buf len => some (postRecvFrom sys socket buf len s)
  | .postSendTo sys socket data dst => some (postSendTo sys socket data dst s)
  | _ => none

def step (s : EpollBackend) (i : Input) : EpollBackend :=
  match post s i with
  | some r => posted r
  | none =>
    match i with
    | .registerSocket fd => registerSocket fd s
    | .cancel ctl op => cancel ctl op s
    | .detachSocket fd => detachSocket fd s
    | .setWatch ctl fd readable writable => setWatch ctl fd readable writable s
    | .takeStaged => takeStaged s
    | .poll timeout wait => poll timeout wait s
    | .takeAcceptSocket op =>
      let r := takeAcceptSocket op s
      { r.2 with handed := r.2.handed ++ (r.1.map fun n => (op, n)).toList }
    | .takeRecvFromAddr op => (takeRecvFromAddr op s).2
    | .wake => { s with armed := true }
    | _ => s

def backend : Machine EpollBackend Input where
  init := .new
  step := step

end Cadeloop.Core.Epoll
