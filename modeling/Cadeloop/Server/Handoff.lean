import Cadeloop.Reasoning.Fleet
import Cadeloop.Reasoning.Machine

/-!
# Handing connections to workers (`python/cadeloop/server.py`)

The supervisor of a spawned pool accepts every connection and hands it to one worker.  Its accept
thread queues the connection, the worker's own writer thread sends it over the worker's channel, and
the worker's pump thread queues its adoption for the loop.  Any thread may run between two steps of
another; here a step is what no other thread can come into.
-/

namespace Cadeloop.Server.Handoff

open Cadeloop.Reasoning (Machine)

/-! ## 1. The threads' states -/

-- connections are numbered as they are accepted
abbrev Conn := Nat

-- `_HANDOFF_QUEUE`
def handoffQueue : Nat := 256

-- `_MAX_PENDING_ADOPTIONS`
def maxPendingAdoptions : Nat := 1024

inductive Frame where
  | conn (c : Conn)
  | stop
  deriving DecidableEq

def Frame.conn? : Frame → Option Conn
  | .conn c => some c
  | .stop => none

/-- Where `_write_loop` is. -/
inductive Writer where
  | getting
  -- an item is taken, `_closing` not yet looked at
  | took (item : Option Conn)
  | sending (c : Conn)
  -- sent, or not; this process's copy is still open
  | sent (c : Conn) (failed : Bool)
  | checking
  | stopping
  -- `_drop_queued`
  | dropping
  | returned
  deriving DecidableEq

/-- The worker's process: its pump thread, and the adoptions queued for its loop. -/
structure Process where
  -- frames taken off the channel
  read : Nat
  pumping : Bool
  slots : Nat
  queued : List Conn
  loopClosed : Bool
  adopted : List Conn
  -- connections it does not serve
  shut : List Conn

/-- `_SpawnWorker`, with what its channel carried and the process at its other end. -/
structure Worker where
  outq : List (Option Conn)
  broken : Bool
  stopRequested : Bool
  -- `request_stop` has returned
  stopAsked : Bool
  closing : Bool
  writer : Writer
  frames : List Frame
  process : Process

def Process.new : Process :=
  { read := 0, pumping := true, slots := maxPendingAdoptions, queued := [], loopClosed := false,
    adopted := [], shut := [] }

def Worker.new : Worker :=
  { outq := [], broken := false, stopRequested := false, stopAsked := false, closing := false,
    writer := .getting, frames := [], process := .new }

/-- Where the accept thread is.  `live` is its snapshot of the workers. -/
inductive Accepter where
  | accepting
  -- `for _ in range(len(live))`, with so many rounds to go
  | holding (c : Conn) (live : List Nat) (rounds : Nat)
  -- inside `offer`: the flags are read, the put is next
  | offering (c : Conn) (live : List Nat) (rounds : Nat) (w : Nat)
  -- every queue was full
  | waiting (c : Conn) (live : List Nat)
  | waitOffering (c : Conn) (live : List Nat) (w : Nat)

structure Pool where
  accepted : Nat
  turn : Nat
  accepter : Accepter
  workers : List Worker
  -- connections whose copy in this process was closed
  closed : List Conn
  -- let go without a `close()`
  abandoned : List Conn

def Pool.new : Pool :=
  { accepted := 0, turn := 0, accepter := .accepting, workers := [], closed := [], abandoned := [] }

/-! ## 2. The supervisor's end of a channel -/

/-- What a step of a worker's threads let go of in the supervisor. -/
structure Dropped where
  closed : List Conn
  abandoned : List Conn

def Dropped.none : Dropped := ⟨[], []⟩

namespace Worker

/-- `offer`, as far as the flags. -/
def offers (w : Worker) : Bool := !w.broken && !w.stopRequested

/-- A put that does not wait. -/
def put (item : Option Conn) (w : Worker) : Option Worker :=
  if w.outq.length < handoffQueue then some { w with outq := w.outq ++ [item] } else none

def requestStop (w : Worker) : Worker := { w with stopRequested := true }

/-- `put_nowait(None)`; a full queue wakes the writer as well. -/
def wake (w : Worker) : Worker :=
  { (w.put none).getD w with stopAsked := w.stopAsked || w.stopRequested }

def close (w : Worker) : Worker := { w with closing := true }

/-- `_drop_queued`, one item. -/
def dropQueued (w : Worker) : Option (Worker × Dropped) :=
  match w.outq with
  | [] => none
  | item :: rest => some ({ w with outq := rest }, ⟨item.toList, []⟩)

/-! ### The writer -/

def get (w : Worker) : Option Worker :=
  match w.writer, w.outq with
  | .getting, item :: rest => some { w with outq := rest, writer := .took item }
  | _, _ => none

/-- A writer that finds the worker closing returns, with what it took. -/
def look (w : Worker) : Option (Worker × Dropped) :=
  match w.writer with
  | .took item =>
    if w.closing then some ({ w with writer := .dropping }, ⟨[], item.toList⟩)
    else
      match item with
      | some c => some ({ w with writer := .sending c }, .none)
      | none => some ({ w with writer := .checking }, .none)
  | _ => none

def send (ok : Bool) (w : Worker) : Option Worker :=
  match w.writer with
  | .sending c =>
    if ok then some { w with frames := w.frames ++ [.conn c], writer := .sent c false }
    else some { w with writer := .sent c true }
  | _ => none

/-- `finally: conn.close()`; then the loop goes on, or the failure ends it. -/
def closeConn (w : Worker) : Option (Worker × Dropped) :=
  match w.writer with
  | .sent c failed =>
    if failed then some ({ w with broken := true, writer := .dropping }, ⟨[c], []⟩)
    else some ({ w with writer := .checking }, ⟨[c], []⟩)
  | _ => none

-- the flag is never taken back, so that reading it and the queue is one step
def check (w : Worker) : Option Worker :=
  match w.writer with
  | .checking =>
    if w.stopRequested && w.outq.isEmpty then some { w with writer := .stopping }
    else some { w with writer := .getting }
  | _ => none

def sendStop (ok : Bool) (w : Worker) : Option Worker :=
  match w.writer with
  | .stopping =>
    if ok then some { w with frames := w.frames ++ [.stop], writer := .dropping }
    else some { w with broken := true, writer := .dropping }
  | _ => none

def drop (w : Worker) : Option (Worker × Dropped) :=
  match w.writer with
  | .dropping =>
    match w.outq with
    | [] => some ({ w with writer := .returned }, .none)
    | item :: rest => some ({ w with outq := rest }, ⟨item.toList, []⟩)
  | _ => none

end Worker

/-! ## 3. The worker's process -/

namespace Process

/-- `_channel_pump`, one frame.  `made`: the descriptor became a socket. -/
def recv (frames : List Frame) (made : Bool) (p : Process) : Option Process :=
  if p.pumping = false then none
  else
    match frames[p.read]? with
    | none => none
    | some .stop => some { p with read := p.read + 1, pumping := false }
    | some (.conn c) =>
      if made = false ∨ p.slots = 0 then some { p with read := p.read + 1, shut := p.shut ++ [c] }
      else if p.loopClosed then
        -- the slot taken is given back
        some { p with read := p.read + 1, shut := p.shut ++ [c], pumping := false }
      else some { p with read := p.read + 1, slots := p.slots - 1, queued := p.queued ++ [c] }

/-- EOF: the supervisor is gone. -/
def eof (p : Process) : Process := { p with pumping := false }

/-- `adopt_and_release` on the loop's thread; what the engine does not take is closed. -/
def adopt (ok : Bool) (p : Process) : Option Process :=
  match p.queued with
  | [] => none
  | c :: rest =>
    if ok then some { p with queued := rest, slots := p.slots + 1, adopted := p.adopted ++ [c] }
    else some { p with queued := rest, slots := p.slots + 1, shut := p.shut ++ [c] }

/-- The loop's end drops what is queued. -/
def closeLoop (p : Process) : Process :=
  { p with loopClosed := true, queued := [], shut := p.shut ++ p.queued }

end Process

/-! ## 4. The pool -/

inductive WorkerEvent where
  | requestStop
  | wake
  | close
  | dropQueued
  | get
  | look
  | send (ok : Bool)
  | closeConn
  | check
  | sendStop (ok : Bool)
  | drop
  | recv (made : Bool)
  | eof
  | adopt (ok : Bool)
  | closeLoop

def Worker.kept (w : Worker) : Worker × Dropped := (w, .none)

def Worker.step (w : Worker) : WorkerEvent → Option (Worker × Dropped)
  | .requestStop => some w.requestStop.kept
  | .wake => some w.wake.kept
  | .close => some w.close.kept
  -- by `close()`
  | .dropQueued => if w.closing then w.dropQueued else none
  | .get => w.get.map Worker.kept
  | .look => w.look
  | .send ok => (w.send ok).map Worker.kept
  | .closeConn => w.closeConn
  | .check => w.check.map Worker.kept
  | .sendStop ok => (w.sendStop ok).map Worker.kept
  | .drop => w.drop
  | .recv made => (w.process.recv w.frames made).map fun p => { w with process := p }.kept
  | .eof => some { w with process := w.process.eof }.kept
  | .adopt ok => (w.process.adopt ok).map fun p => { w with process := p }.kept
  | .closeLoop => some { w with process := w.process.closeLoop }.kept

inductive Event where
  | spawn
  | worker (w : Nat) (event : WorkerEvent)
  -- `accept()` returned, and the live workers were listed
  | accept (live : List Nat)
  -- the accept thread goes on with the connection it has
  | distribute
  -- no worker took it in time
  | giveUp

namespace Pool

/-- The next worker in turn. -/
def pick (live : List Nat) (s : Pool) : Nat := live.getD (s.turn % live.length) 0

def offers (w : Nat) (s : Pool) : Bool := (s.workers[w]?).any Worker.offers

/-- The put of `offer`: the connection is the queue's, or still the accept thread's. -/
def put (c : Conn) (w : Nat) (refused : Accepter) (s : Pool) : Pool :=
  match s.workers[w]? with
  | none => { s with accepter := refused }
  | some worker =>
    match worker.put (some c) with
    | none => { s with accepter := refused }
    | some worker => { s with workers := s.workers.set w worker, accepter := .accepting }

def distribute (s : Pool) : Option Pool :=
  match s.accepter with
  | .accepting => none
  | .holding c live 0 => if live = [] then none else some { s with accepter := .waiting c live }
  | .holding c live (rounds + 1) =>
    let w := s.pick live
    if s.offers w then some { s with turn := s.turn + 1, accepter := .offering c live rounds w }
    else some { s with turn := s.turn + 1, accepter := .holding c live rounds }
  | .offering c live rounds w => some (s.put c w (.holding c live rounds))
  | .waiting c live =>
    let w := s.pick live
    if s.offers w then some { s with turn := s.turn + 1, accepter := .waitOffering c live w }
    else some { s with turn := s.turn + 1 }
  -- room within the timeout, or none
  | .waitOffering c live w => some (s.put c w (.waiting c live))

def giveUp (s : Pool) : Option Pool :=
  match s.accepter with
  | .holding c [] 0 => some { s with accepter := .accepting, closed := s.closed ++ [c] }
  | .waiting c _ => some { s with accepter := .accepting, closed := s.closed ++ [c] }
  | _ => none

def step (s : Pool) : Event → Option Pool
  | .spawn => some { s with workers := s.workers ++ [.new] }
  | .worker w event =>
    match s.workers[w]? with
    | none => none
    | some worker =>
      (worker.step event).map fun r =>
        { s with
          workers := s.workers.set w r.1
          closed := s.closed ++ r.2.closed
          abandoned := s.abandoned ++ r.2.abandoned }
  | .accept live =>
    match s.accepter with
    | .accepting =>
      some { s with accepter := .holding s.accepted live live.length, accepted := s.accepted + 1 }
    | _ => none
  | .distribute => s.distribute
  | .giveUp => s.giveUp

end Pool

/-- A step that no thread can take now is skipped. -/
def pool : Machine Pool Event := ⟨.new, fun s event => (s.step event).getD s⟩

end Cadeloop.Server.Handoff
