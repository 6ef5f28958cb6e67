import Cadeloop.Reasoning.Machine

/-!
# The quarantine of retired operations (`crates/core/src/backend/iocp_util.rs`)

An operation that ended without a port completion may still have a packet on the port; its id is
held until that packet has been seen.  A dequeue that comes back short of a full batch has seen all
that was queued before it, and a drain sentinel that comes back off the port has seen all that was
queued before the sentinel.  Both release the oldest held ids, by count.
-/

namespace Cadeloop.Core.Iocp

open Cadeloop.Reasoning

variable {T : Type*}

/-! ## 1. The quarantine -/

structure Quarantine (T : Type*) where
  held : List T
  -- the sentinel on the port: its generation, and how many of the oldest held ids it covers
  sentinel : Option (UInt32 × Nat)
  nextSentinel : UInt32

namespace Quarantine

def new : Quarantine T := { held := [], sentinel := none, nextSentinel := 0 }

def hold (q : Quarantine T) (id : T) : Quarantine T := { q with held := q.held ++ [id] }

/-- Taken before a dequeue. -/
def mark (q : Quarantine T) : Nat := q.held.length

/-- The ids now safe to recycle, given a dequeue that started with `mark` ids held and returned
`dequeued` of a possible `batch`. -/
def drained (q : Quarantine T) (mark dequeued batch : Nat) : List T × Quarantine T :=
  let n := if dequeued < batch then min mark q.held.length else 0
  (q.held.take n,
    { q with
      held := q.held.drop n
      -- released from the front: the sentinel covers that many fewer
      sentinel := q.sentinel.map fun s => (s.1, s.2 - n) })

/-- The generation of a drain sentinel to post after the dequeue, if one is needed. -/
def sentinelWanted (q : Quarantine T) (dequeued batch : Nat) : Option UInt32 × Quarantine T :=
  if dequeued < batch ∨ q.sentinel.isSome ∨ q.held.isEmpty then (none, q)
  else (some (q.nextSentinel + 1), { q with nextSentinel := q.nextSentinel + 1 })

def sentinelPosted (q : Quarantine T) (generation : UInt32) : Quarantine T :=
  { q with sentinel := some (generation, q.held.length) }

/-- How many ids the sentinel of this generation releases. -/
def covers (q : Quarantine T) (generation : UInt32) : Nat :=
  match q.sentinel with
  | some (g, covered) => if g = generation then min covered q.held.length else 0
  | none => 0

/-- A drain sentinel came back off the port; one from before `drain_all` covers nothing. -/
def sentinelArrived (q : Quarantine T) (generation : UInt32) : List T × Quarantine T :=
  let current := q.sentinel.any fun s => s.1 = generation
  (q.held.take (q.covers generation),
    { q with
      held := q.held.drop (q.covers generation)
      sentinel := if current then none else q.sentinel })

/-- Everything (teardown, once nothing can arrive). -/
def drainAll (q : Quarantine T) : List T × Quarantine T :=
  (q.held, { q with held := [], sentinel := none })

end Quarantine

/-! ## 2. The port -/

inductive Packet (T : Type*) where
  -- the packet of an operation
  | io (id : T)
  | sentinel (generation : UInt32)
  deriving DecidableEq

/-- A poll between its dequeue and its end. -/
structure Poll (T : Type*) where
  mark : Nat
  dequeued : Nat
  -- dequeued and not yet translated
  entries : List (Packet T)
  -- how many ids its sentinels have released so far
  arrived : Nat

structure IocpBackend (T : Type*) where
  quarantine : Quarantine T
  port : List (Packet T)
  poll : Option (Poll T)
  -- every id that was held, and every id that was released, in order
  everHeld : List T
  released : List T

def IocpBackend.new : IocpBackend T :=
  { quarantine := .new, port := [], poll := none, everHeld := [], released := [] }

inductive Step (T : Type*) where
  /-- the system queues the packet of an operation -/
  | queue (id : T)
  | hold (id : T)
  | dequeue
  /-- the next entry of the dequeue is translated -/
  | translate
  /-- the poll ends; whether a sentinel it wants gets posted -/
  | finish (posts : Bool)
  | drainAll

/-- `port_drained`. -/
def portDrained (q : Quarantine T) (mark dequeued batch : Nat) (posts : Bool) :
    List T × Quarantine T × List (Packet T) :=
  if q.held.isEmpty then ([], q, [])
  else
    let d := q.drained mark dequeued batch
    let w := d.2.sentinelWanted dequeued batch
    match w.1 with
    | some generation =>
      if posts then (d.1, w.2.sentinelPosted generation, [.sentinel generation]) else (d.1, w.2, [])
    | none => (d.1, w.2, [])

section Steps

variable [DecidableEq T] (batch : Nat)

/-- A step that is not possible changes nothing: an id is held once, its packets are queued before
it is held, one poll runs at a time and ends when its entries are translated. -/
def IocpBackend.step (s : IocpBackend T) : Step T → IocpBackend T
  | .queue id => if id ∈ s.everHeld then s else { s with port := s.port ++ [.io id] }
  | .hold id =>
    if id ∈ s.everHeld then s
    else { s with quarantine := s.quarantine.hold id, everHeld := s.everHeld ++ [id] }
  | .dequeue =>
    match s.poll with
    | some _ => s
    | none =>
      let n := min s.port.length batch
      { s with
        poll := some
          { mark := s.quarantine.mark, dequeued := n, entries := s.port.take n, arrived := 0 }
        port := s.port.drop n }
  | .translate =>
    match s.poll with
    | some ⟨mark, dequeued, .io _ :: entries, arrived⟩ =>
      { s with poll := some ⟨mark, dequeued, entries, arrived⟩ }
    | some ⟨mark, dequeued, .sentinel generation :: entries, arrived⟩ =>
      let r := s.quarantine.sentinelArrived generation
      { s with
        quarantine := r.2
        poll := some ⟨mark, dequeued, entries, arrived + r.1.length⟩
        released := s.released ++ r.1 }
    | _ => s
  | .finish posts =>
    match s.poll with
    | some ⟨mark, dequeued, [], _⟩ =>
      let r := portDrained s.quarantine mark dequeued batch posts
      { s with
        quarantine := r.2.1
        port := s.port ++ r.2.2
        poll := none
        released := s.released ++ r.1 }
    | _ => s
  | .drainAll =>
    match s.poll with
    | some _ => s
    | none =>
      let r := s.quarantine.drainAll
      { s with quarantine := r.2, released := s.released ++ r.1 }

def iocp : Machine (IocpBackend T) (Step T) := ⟨.new, IocpBackend.step batch⟩

end Steps

/-- The ids a step has `drained` or `sentinel_arrived` release. -/
def IocpBackend.recycles (batch : Nat) (s : IocpBackend T) : Step T → List T
  | .translate =>
    match s.poll with
    | some ⟨_, _, .sentinel generation :: _, _⟩ => (s.quarantine.sentinelArrived generation).1
    | _ => []
  | .finish posts =>
    match s.poll with
    | some ⟨mark, dequeued, [], _⟩ => (portDrained s.quarantine mark dequeued batch posts).1
    | _ => []
  | _ => []

/-- What has been queued and not been translated, in order. -/
def IocpBackend.pending (s : IocpBackend T) : List (Packet T) := (s.poll.elim [] Poll.entries) ++ s.port

end Cadeloop.Core.Iocp
