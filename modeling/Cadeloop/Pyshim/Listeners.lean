import Cadeloop.Pyshim.Datagram

/-!
# Listeners and their retry (`crates/pyshim/src/net.rs`)

Each listener keeps a pool of accepts with the backend, each datagram endpoint one receive.  When a
post is refused and nothing is outstanding, no completion can try again, so the tick does: one flag
of the loop says that somebody waits for it.  What the backend answers to each post is a parameter.
Who is accepted, and the sockets, are left out.
-/

namespace Cadeloop.Pyshim.Listening

open Cadeloop.Reasoning

/-! ## 1. The entries -/

-- all times in nanoseconds
def starvedRetryInterval : Nat := 50000000

def acceptRetryDelay : Nat := 1000000000

def saturatingAdd (a b : Nat) : Nat := min (a + b) (2 ^ 64 - 1)

/-- ECONNABORTED, EPROTO, ECONNRESET, ENETDOWN, ENOPROTOOPT, EHOSTDOWN, ENONET, EHOSTUNREACH,
EOPNOTSUPP, ENETUNREACH, EINTR. -/
def acceptErrorIsTransient (code : Nat) : Bool :=
  code ∈ [103, 71, 104, 100, 92, 112, 64, 113, 95, 101, 4]

structure ListenerEntry where
  acceptOps : List Nat
  target : Nat
  closing : Bool
  starved : Bool
  retryAt : Nat
  -- the record: whether a start succeeded, when it starved last, and how many posts were tried
  started : Bool
  starvedAt : Nat
  asked : Nat
  -- the pool is never empty by design
  room : 1 ≤ target

/-- Why an accept was not posted: the pool is full, or it failed, with an OS code or without. -/
inductive PostError where
  | wouldBlock
  | failed (rawOsError : Option Nat)

inductive NetEvent where
  | accepted (lid : Nat) (sock : Nat)
  | acceptError (err : Nat)
  deriving DecidableEq

structure Backend where
  postAccept : Nat → Except PostError Nat

variable {α : Type*}

structure NetState (α : Type*) where
  listeners : List (Option ListenerEntry)
  datagrams : List (Udp.NetState α)
  anyStarvedListener : Bool
  nowNs : Nat
  events : List NetEvent
  -- how many accepts were posted or refused
  posts : Nat

namespace NetState

def listener (net : NetState α) (lid : Nat) : Option ListenerEntry := net.listeners.getD lid none

def setListener (lid : Nat) (l : Option ListenerEntry) (net : NetState α) : NetState α :=
  { net with listeners := net.listeners.set lid l }

end NetState

variable (backend : Backend) (udp : Udp.Backend)

/-! ## 2. Accepting -/

/-- A listener without a single accept outstanding waits for the tick. -/
def starve (delay : Nat) (lid : Nat) (l : ListenerEntry) (net : NetState α) : NetState α :=
  { net.setListener lid (some { l with
      starved := true
      retryAt := saturatingAdd net.nowNs delay
      starvedAt := net.nowNs }) with
    anyStarvedListener := true }

def acceptRefused (report : Bool) (lid : Nat) (l : ListenerEntry) (error : PostError)
    (net : NetState α) : NetState α :=
  -- with an accept outstanding its completion tries again
  if l.acceptOps ≠ [] then net.setListener lid (some l)
  else
    match error with
    | .wouldBlock => starve starvedRetryInterval lid l net
    | .failed rawOsError =>
      let net := starve acceptRetryDelay lid l net
      if report then { net with events := net.events ++ [.acceptError (rawOsError.getD 5)] } else net

/-- The loop of `post_accepts_inner`, with that much room left in the pool. -/
def postAcceptsLoop (report : Bool) (lid : Nat) : Nat → NetState α → NetState α
  | 0, net => net.setListener lid ((net.listener lid).map fun l => { l with starved := false })
  | room + 1, net =>
    match net.listener lid with
    | none => net
    | some l =>
      if l.closing then net.setListener lid (some { l with starved := false })
      else
        let asked := { l with asked := l.asked + 1 }
        match backend.postAccept net.posts with
        | .ok op =>
          postAcceptsLoop report lid room { net.setListener lid (some { asked with
            acceptOps := asked.acceptOps ++ [op]
            starved := false }) with posts := net.posts + 1 }
        | .error error => acceptRefused report lid asked error { net with posts := net.posts + 1 }

def postAcceptsInner (report : Bool) (lid : Nat) (net : NetState α) : NetState α :=
  match net.listener lid with
  | none => net
  | some l => postAcceptsLoop backend report lid (l.target - l.acceptOps.length) net

def postAccepts (lid : Nat) (net : NetState α) : NetState α := postAcceptsInner backend true lid net

def listenerCreate (target : Nat) (net : NetState α) : NetState α :=
  { net with listeners := net.listeners ++ [some {
      acceptOps := []
      target := max target 1
      closing := false
      starved := false
      retryAt := 0
      started := false
      starvedAt := 0
      asked := 0
      room := le_max_right _ _ }] }

/-- Whether a start failed: not a single accept is outstanding. -/
def startFails (lid : Nat) (net : NetState α) : Bool :=
  (net.listener lid).any fun l => l.acceptOps.isEmpty

def listenerStart (lid : Nat) (net : NetState α) : NetState α :=
  let net := postAcceptsInner backend false lid net
  if startFails lid net then net
  else net.setListener lid ((net.listener lid).map fun l => { l with started := true })

/-- The entry leaves the map, its accepts cancelled. -/
def listenerRemove (lid : Nat) (net : NetState α) : NetState α := net.setListener lid none

/-- `tcp_listen` and `http_listen`, which undo what they cannot start. -/
def listen (target : Nat) (start : Bool) (net : NetState α) : NetState α :=
  let lid := net.listeners.length
  let net := listenerCreate target net
  if start then
    let net := listenerStart backend lid net
    if startFails lid net then listenerRemove lid net else net
  else net

/-- An accept completes, with a socket to take or with an error. -/
def onAcceptDone (lid op osError : Nat) (sock : Option Nat) (net : NetState α) : NetState α :=
  match net.listener lid with
  | none => net
  | some l =>
    let l := { l with acceptOps := l.acceptOps.filter (· != op) }
    let net := net.setListener lid (some l)
    if osError ≠ 0 then
      if l.closing then net
      else if Udp.isCancelledError osError ∨ acceptErrorIsTransient osError then
        postAccepts backend lid net
      else
        let net := { net with events := net.events ++ [.acceptError osError] }
        if l.acceptOps = [] then starve acceptRetryDelay lid l net else net
    else
      let net :=
        match sock with
        | some sock => { net with events := net.events ++ [.accepted lid sock] }
        | none => net
      postAccepts backend lid net

/-! ## 3. The retry -/

/-- The listeners that wait, due or not. -/
def waiting (net : NetState α) : List Nat :=
  (List.range net.listeners.length).filter fun lid =>
    (net.listener lid).any fun l => l.starved && !l.closing

def due (nowNs : Nat) (net : NetState α) (lid : Nat) : Bool :=
  (net.listener lid).any fun l => l.retryAt ≤ nowNs

def retryListener (net : NetState α) (lid : Nat) : NetState α :=
  postAccepts backend lid
    (net.setListener lid ((net.listener lid).map fun l => { l with starved := false }))

def retryDatagram (postOk : Nat → Bool) (net : NetState α) (did : Nat) : NetState α :=
  match net.datagrams[did]? with
  | none => net
  | some endpoint =>
    { net with
      datagrams := net.datagrams.set did (Udp.retryStarved (postOk did) endpoint)
      anyStarvedListener := net.anyStarvedListener ||
        endpoint.entry.any fun entry => (entry.retried (postOk did)).2 }

def retryStarvedListeners (nowNs : Nat) (postOk : Nat → Bool) (net : NetState α) : NetState α :=
  if ¬ net.anyStarvedListener then net
  else
    let starved := waiting net
    -- who is not due yet keeps the flag up
    let kept := { net with anyStarvedListener := starved.any fun lid => !due nowNs net lid }
    let posted := (starved.filter (due nowNs net)).foldl (retryListener backend) kept
    (List.range net.datagrams.length).foldl (retryDatagram postOk) posted

/-- How long the tick may park. -/
def starvedRetryIn (nowNs : Nat) (net : NetState α) : Nat :=
  let soonest := ((waiting net).filterMap fun lid =>
    (net.listener lid).map fun l => l.retryAt - nowNs).min?.getD 0
  let anyDgram := net.datagrams.any fun endpoint => endpoint.entry.any (·.deaf)
  let listenerWait := min soonest acceptRetryDelay
  let wait := if anyDgram then min listenerWait starvedRetryInterval else listenerWait
  max wait 1000000

/-! ## 4. Runs -/

inductive NetOp (α : Type*) where
  | listen (target : Nat) (start : Bool)
  | start (lid : Nat)
  | remove (lid : Nat)
  | acceptDone (lid op osError : Nat) (sock : Option Nat)
  | udpWire
  -- the endpoint's own operations, without the tick's retry
  | datagram (did : Nat) (op : Udp.NetOp α)
  | tick (nowNs : Nat)
  | retry (nowNs : Nat) (postOk : Nat → Bool)

/-- Whether an endpoint's operation raises the flag. -/
def starves (endpoint : Udp.NetState α) : Udp.NetOp α → Bool
  | .recvDone result postOk =>
    endpoint.entry.any fun entry => (entry.received result postOk).2.2
  | _ => false

def isRetry : Udp.NetOp α → Bool
  | .retryStarved _ => true
  | _ => false

def onDatagram (did : Nat) (op : Udp.NetOp α) (net : NetState α) : NetState α :=
  match net.datagrams[did]? with
  | none => net
  | some endpoint =>
    if isRetry op then net
    else
      { net with
        datagrams := net.datagrams.set did (Udp.netStep udp endpoint op)
        anyStarvedListener := net.anyStarvedListener || starves endpoint op }

def netStep (net : NetState α) : NetOp α → NetState α
  | .listen target start => listen backend target start net
  | .start lid => listenerStart backend lid net
  | .remove lid => listenerRemove lid net
  | .acceptDone lid op osError sock => onAcceptDone backend lid op osError sock net
  | .udpWire => { net with datagrams := net.datagrams ++ [Udp.udpWire] }
  | .datagram did op => onDatagram udp did op net
  | .tick nowNs => { net with nowNs := nowNs }
  | .retry nowNs postOk => retryStarvedListeners backend nowNs postOk { net with nowNs := nowNs }

def loop : Machine (NetState α) (NetOp α) where
  init := ⟨[], [], false, 0, [], 0⟩
  step := netStep backend udp

end Cadeloop.Pyshim.Listening
