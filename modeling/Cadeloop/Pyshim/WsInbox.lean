import Cadeloop.Core.Ws
import Cadeloop.Reasoning.Machine

/-!
# A WebSocket's inbox and its `receive()` calls (`crates/pyshim/src/http.rs`)

A message is in the inbox, with a result object nobody has awaited, or returned.  A call that finds
the inbox empty parks a future; a wake resolves it, and its task takes the message once it resumes.
What the engine does around the inbox (reading, writing, tearing down) is in the modules over this
one; the record of the run, which no function reads, is the last group of fields.
-/

namespace Cadeloop.Pyshim.Http

open Core.Ws Cadeloop.Reasoning

/-! ## 1. Messages -/

inductive WsMsg where
  | text (s : String)
  | binary (payload : Bytes)
  | disconnect (code : Nat)
  deriving DecidableEq

namespace WsMsg

def payload : WsMsg → Nat
  | text s => (asBytes s).length
  | binary payload => payload.length
  | disconnect _ => 0

/-- What a message costs against the inbox budget. -/
def charge (m : WsMsg) : Nat := m.payload + 256

def isDisconnect : WsMsg → Bool
  | disconnect _ => true
  | _ => false

end WsMsg

/-- A message and when it came. -/
structure Arrival where
  seq : Nat
  msg : WsMsg
  deriving DecidableEq

/-- What a `receive()` took off the connection, restorable until it is awaited. -/
inductive TakenMsg where
  | connect
  | ws (m : Arrival)
  deriving DecidableEq

def TakenMsg.arrival : TakenMsg → Option Arrival
  | connect => none
  | ws m => some m

/-! ## 2. The state -/

inductive FutState where
  | pending
  -- resolved with None: a message is queued
  | woken
  -- resolved with a message of its own
  | final
  | cancelled
  deriving DecidableEq

structure WsRecv where
  fut : Option Nat
  parkedPending : Bool
  deriving DecidableEq

inductive Peer where
  | here
  | disconnected
  -- the connection's entry was removed
  | gone
  deriving DecidableEq

/-- A message given to a `receive()`, and where the others were at that moment. -/
structure Handover where
  msg : Arrival
  inbox : List Arrival
  unawaited : List Arrival
  returned : List Arrival
  deriving DecidableEq

structure Receiving where
  peer : Peer
  connectSent : Bool
  inbox : List Arrival
  inboxBytes : Nat
  recvWaiters : List Nat
  -- the futures of the `WsWake` and of the `HttpDisconnect` events not dispatched yet
  wakes : List Nat
  hangups : List Nat
  futs : List FutState
  receivers : List WsRecv
  -- a call that found nothing and has not parked yet, with its `WsRecv` if it has one already
  parking : Option (Option Nat)
  -- the results not awaited
  results : List TakenMsg
  arrived : List Arrival
  handed : List Handover
  returned : List Arrival
  -- some receive() was answered with websocket.disconnect
  told : Bool
  deriving DecidableEq

def Receiving.unawaited (s : Receiving) : List Arrival := s.results.filterMap TakenMsg.arrival

def Receiving.pending (s : Receiving) (fut : Nat) : Bool := s.futs[fut]? == some .pending

/-! ## 3. Arrivals and wakes -/

/-- Append to the inbox. -/
def pushMsg (charged : Bool) (msg : WsMsg) (s : Receiving) : Receiving :=
  let m := { seq := s.arrived.length, msg := msg }
  { s with
    inbox := s.inbox ++ [m]
    inboxBytes := if charged then s.inboxBytes + msg.charge else s.inboxBytes
    arrived := s.arrived ++ [m] }

/-- One `WsWake` per parked receive(). -/
def wakeWaiters (s : Receiving) : Receiving :=
  { s with wakes := s.wakes ++ s.recvWaiters, recvWaiters := [] }

def WsMsg.ofEvent : WsEvent → Option WsMsg
  | .text s => some (.text s)
  | .binary payload => some (.binary payload)
  | .ping _ => none
  | .pong => none
  | .close code _ => some (.disconnect code)
  | .fail code _ => some (.disconnect code)

/-- The messages of one read; a Close or a failure is queued without its charge. -/
def pushEvent (s : Receiving) (ev : WsEvent) : Receiving :=
  match WsMsg.ofEvent ev with
  | none => s
  | some msg => pushMsg (!ev.last) msg s

/-- Whether one of them is a message. -/
def wakes (evs : List WsEvent) : Bool := evs.any fun ev => (WsMsg.ofEvent ev).isSome

def arrive (evs : List WsEvent) (s : Receiving) : Receiving :=
  let s := evs.foldl pushEvent s
  if wakes evs then wakeWaiters s else s

/-- The dispatch of the first `WsWake`. -/
def wsWake (s : Receiving) : Receiving :=
  match s.wakes with
  | [] => s
  | fut :: rest =>
    let s := { s with wakes := rest }
    if ¬ s.pending fut then s
    else if s.inbox ≠ [] then { s with futs := s.futs.set fut .woken }
    else if s.peer = .here then { s with recvWaiters := s.recvWaiters ++ [fut] }
    else { s with futs := s.futs.set fut .final, told := true }

/-- The dispatch of the first `HttpDisconnect`. -/
def hangup (s : Receiving) : Receiving :=
  match s.hangups with
  | [] => s
  | fut :: rest =>
    let s := { s with hangups := rest }
    if s.pending fut then { s with futs := s.futs.set fut .final, told := true } else s

/-! ## 4. Receiving -/

/-- Hand over the front message. -/
def popFront (m : Arrival) (rest : List Arrival) (s : Receiving) : Receiving :=
  { s with
    inbox := rest
    inboxBytes := s.inboxBytes - m.msg.charge
    handed := s.handed ++
      [{ msg := m, inbox := rest, unawaited := s.unawaited, returned := s.returned }]
    told := s.told || m.msg.isDisconnect }

/-- `HttpReceive.__call__` up to the park. -/
def receive (s : Receiving) : Receiving :=
  if s.peer = .gone then { s with told := true }
  else if ¬ s.connectSent then
    { s with connectSent := true, results := s.results ++ [.connect] }
  else
    match s.inbox with
    | m :: rest => { popFront m rest s with results := s.results ++ [.ws m] }
    | [] => if s.peer = .disconnected then { s with told := true } else { s with parking := some none }

/-- `park_recv_waiter_pending`, the waiters of cancelled calls pruned. -/
def parkWaiter (s : Receiving) : Receiving :=
  match s.parking with
  | none => s
  | some who =>
    let fut := s.futs.length
    let recv := { fut := some fut, parkedPending := s.peer ≠ .gone }
    let s := { s with
      parking := none
      receivers := match who with
        | none => s.receivers ++ [recv]
        | some r => s.receivers.set r recv }
    if s.peer = .gone then { s with futs := s.futs ++ [.final], told := true }
    else
      { s with
        futs := s.futs ++ [.pending]
        recvWaiters := s.recvWaiters.filter s.pending ++ [fut] }

/-- `WsRecv::take` for a receiver that was woken. -/
def take (r : Nat) (s : Receiving) : Receiving :=
  let finished := { s with receivers := s.receivers.set r { fut := none, parkedPending := false } }
  if s.peer = .gone then { finished with told := true }
  else
    match s.inbox with
    | m :: rest => { popFront m rest finished with returned := s.returned ++ [m] }
    | [] =>
      if s.peer = .disconnected then { finished with told := true }
      else { s with parking := some (some r) }

/-- `WsRecv::resume` up to the park; the future stays with the receiver until it is replaced. -/
def resume (r : Nat) (s : Receiving) : Receiving :=
  match s.receivers[r]? with
  | some { fut := some fut, parkedPending := true } =>
    { s with receivers := s.receivers.set r { fut := some fut, parkedPending := false } }
  | some { fut := some fut, parkedPending := false } =>
    match s.futs[fut]? with
    | some .woken => take r s
    | some .final =>
      { s with receivers := s.receivers.set r { fut := none, parkedPending := false } }
    | some .cancelled =>
      { s with receivers := s.receivers.set r { fut := none, parkedPending := false } }
    | _ => s
  | _ => s

/-- The task that awaits the receiver is cancelled: asyncio cancels the future. -/
def cancelWaiter (r : Nat) (s : Receiving) : Receiving :=
  match s.receivers[r]? with
  | some { fut := some fut, .. } =>
    if s.pending fut then { s with futs := s.futs.set fut .cancelled } else s
  | _ => s

/-- `WsRecv::abandon`: a wake it will not use goes to whoever else is parked. -/
def abandon (r : Nat) (s : Receiving) : Receiving :=
  match s.receivers[r]? with
  | some { fut := some fut, parkedPending } =>
    let s : Receiving := { s with receivers := s.receivers.set r { fut := none, parkedPending } }
    match s.futs[fut]? with
    | some .pending => { s with futs := s.futs.set fut .cancelled }
    | some .woken => if s.peer ≠ .gone ∧ s.inbox ≠ [] then wakeWaiters s else s
    | _ => s
  | _ => s

def awaitResult (i : Nat) (s : Receiving) : Receiving :=
  match s.results[i]? with
  | some taken =>
    { s with
      results := s.results.eraseIdx i
      returned := s.returned ++ taken.arrival.toList }
  | none => s

/-- `Taken::put_back` of a connect: to a receive() parked since, or as not sent. -/
def putBackConnect (s : Receiving) : Receiving :=
  match s.recvWaiters.dropWhile (fun fut => !s.pending fut) with
  | [] => { s with recvWaiters := [], connectSent := false }
  | fut :: rest => { s with recvWaiters := rest, futs := s.futs.set fut .final }

/-- `Taken::put_back` of a message: to the front of the inbox. -/
def putBackMsg (m : Arrival) (s : Receiving) : Receiving :=
  wakeWaiters { s with inbox := m :: s.inbox, inboxBytes := s.inboxBytes + m.msg.charge }

/-- The destructor of a result nobody awaited. -/
def dropResult (i : Nat) (s : Receiving) : Receiving :=
  match s.results[i]? with
  | none => s
  | some taken =>
    let s := { s with results := s.results.eraseIdx i }
    if s.peer = .gone then s
    else
      match taken with
      | .connect => putBackConnect s
      | .ws m => putBackMsg m s

/-! ## 5. The end of the connection -/

/-- The peer's EOF. -/
def peerGone (s : Receiving) : Receiving :=
  if s.peer = .here then
    { s with peer := .disconnected, hangups := s.hangups ++ s.recvWaiters, recvWaiters := [] }
  else s

/-- The entry is removed, and the inbox with it. -/
def tornDown (s : Receiving) : Receiving :=
  if s.peer = .gone then s
  else
    { s with
      peer := .gone
      inbox := []
      inboxBytes := 0
      hangups := s.hangups ++ s.recvWaiters
      recvWaiters := [] }

def newReceiving (connectSent : Bool) : Receiving where
  peer := .here
  connectSent := connectSent
  inbox := []
  inboxBytes := 0
  recvWaiters := []
  wakes := []
  hangups := []
  futs := []
  receivers := []
  parking := none
  results := []
  arrived := []
  handed := []
  returned := []
  told := false

/-! ## 6. Runs of a connection that stays alive -/

inductive ReceiveEvent where
  | arrive (evs : List WsEvent)
  | wsWake
  | receive
  | parkWaiter
  | resume (r : Nat)
  | cancelWaiter (r : Nat)
  | abandon (r : Nat)
  | awaitResult (i : Nat)
  | dropResult (i : Nat)

/-- Between its look at the inbox and its park a call runs Python, and that only destructors. -/
def receiveStep (s : Receiving) (event : ReceiveEvent) : Receiving :=
  match event, s.parking.isSome with
  | .parkWaiter, _ => parkWaiter s
  | .dropResult i, _ => dropResult i s
  | .arrive evs, false => arrive evs s
  | .wsWake, false => wsWake s
  | .receive, false => receive s
  | .resume r, false => resume r s
  | .cancelWaiter r, false => cancelWaiter r s
  | .abandon r, false => abandon r s
  | .awaitResult i, false => awaitResult i s
  | _, true => s

def receiving (connectSent : Bool) : Reasoning.Machine Receiving ReceiveEvent where
  init := newReceiving connectSent
  step := receiveStep

end Cadeloop.Pyshim.Http
