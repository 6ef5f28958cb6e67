import Mathlib.Data.List.AList
import Cadeloop.Core.ReactorOrder

/-!
# Handles and watches (`crates/pyshim/src/handles.rs`, `coreloop.rs`, `net.rs`)

A handle references its callback, its arguments and its context for as long as the loop has it: its
dispatch, its cancellation, the removal of its watch and the loop's close each release them.  The
queues are the reactor's.  Every call holds the GIL, so that a push from another thread and the flag
behind it are one step here; while the loop is parked in its poll such a push is all the other threads
can do to its state.  A callback's own calls come between its start and its return.
-/

namespace Cadeloop.Pyshim.Handles

open Cadeloop.Reasoning

abbrev Socket := Nat

/-- The handles are numbered as they are made. -/
abbrev HandleRef := Nat

abbrev Reactor := Core.Tick.Reactor HandleRef

abbrev Table := AList fun _ : Socket => HandleRef

structure Handle where
  -- it holds its callback, arguments and context
  refs : Bool
  -- a watch's, dispatched again and again
  persistent : Bool

inductive Side where
  | reader
  | writer
  deriving DecidableEq

def Side.other : Side → Side
  | .reader => .writer
  | .writer => .reader

structure CoreLoop where
  -- the reactor and the dispatch buffer; `cancelled` are the handles' flags
  tick : Core.Tick.Loop HandleRef
  handles : List Handle
  readers : Table
  writers : Table
  readyScratch : List HandleRef
  graveyardHandles : List HandleRef
  -- the handle whose dispatch has not ended
  running : Option HandleRef
  claimed : Bool
  closed : Bool
  -- the sides of a socket the backend last agreed to watch
  watched : Side → Socket → Bool
  -- a record of the callbacks called
  calls : List HandleRef

namespace CoreLoop

def new : CoreLoop where
  tick := .new
  handles := []
  readers := ∅
  writers := ∅
  readyScratch := []
  graveyardHandles := []
  running := none
  claimed := false
  closed := false
  watched := fun _ _ => false
  calls := []

def refs (s : CoreLoop) (h : HandleRef) : Bool := (s.handles[h]?).any Handle.refs

def persistent (s : CoreLoop) (h : HandleRef) : Bool := (s.handles[h]?).any Handle.persistent

def table (s : CoreLoop) : Side → Table
  | .reader => s.readers
  | .writer => s.writers

def setTable (side : Side) (t : Table) (s : CoreLoop) : CoreLoop :=
  match side with
  | .reader => { s with readers := t }
  | .writer => { s with writers := t }

def reactor (e : Core.Tick.Event HandleRef) (s : CoreLoop) : Option CoreLoop :=
  (s.tick.step e).map fun tick => { s with tick }

/-- The loop's thread is inside a borrow of its state. -/
def inCell (s : CoreLoop) : Bool :=
  s.tick.phase = .prepared ∨ s.tick.phase = .polled ∨ s.tick.phase = .taken

/-! ## 1. Handles -/

def make (persistent : Bool) (s : CoreLoop) : HandleRef × CoreLoop :=
  (s.handles.length, { s with handles := s.handles ++ [⟨true, persistent⟩] })

def release (h : HandleRef) (s : CoreLoop) : CoreLoop :=
  { s with handles := s.handles.modify h fun x => { x with refs := false } }

def releaseAfterDispatch (h : HandleRef) (s : CoreLoop) : CoreLoop :=
  if s.persistent h then s else s.release h

/-- `do_cancel`; the reactor reads the same flag. -/
def doCancel (h : HandleRef) (s : CoreLoop) : CoreLoop :=
  { s with tick := { s.tick with cancelled := fun t => decide (t = h) || s.tick.cancelled t } }

/-- The timer heap has yet to part with it, or to be given it. -/
def isScheduled (s : CoreLoop) (h : HandleRef) : Bool :=
  h ∈ s.tick.reactor.timers.payloads ∨ h ∈ s.tick.reactor.xthread.timers.map Prod.snd

/-- `cancel`, of a `Handle` and of a `TimerHandle`. -/
def cancel (h : HandleRef) (s : CoreLoop) : Option CoreLoop :=
  if s.handles.length ≤ h ∨ s.tick.phase = .polled ∨ s.tick.phase = .taken then none
  else if s.tick.cancelled h then some s
  else
    let s := s.doCancel h
    (if s.isScheduled h then s.reactor .countCancelled else some s).map (release h)

/-- The watch handles the loop gave up are cancelled and released. -/
def drainGraveyards (s : CoreLoop) : Option CoreLoop :=
  (s.reactor .takeGraveyard).map fun s =>
    s.graveyardHandles.foldl (fun s h => (s.doCancel h).release h) { s with graveyardHandles := [] }

/-! ## 2. Scheduling -/

/-- `call_soon`, and `call_soon_threadsafe`. -/
def callSoon (s : CoreLoop) : Option CoreLoop :=
  if s.closed then none
  else
    let (h, s) := s.make false
    if ¬s.inCell then s.reactor (.pushReady h)
    -- only the poll gives up the GIL in there
    else if s.tick.phase = .prepared then
      (s.reactor (.foreign (.push h))).bind (reactor (.foreign .swapFlag))
    else none

/-- `call_later`, and `call_at`. -/
def callAt (deadline : Nat) (s : CoreLoop) : Option CoreLoop :=
  if s.closed then none
  else
    let (h, s) := s.make false
    if ¬s.inCell then s.reactor (.scheduleTimer deadline h)
    else if s.tick.phase = .prepared then
      (s.reactor (.foreign (.pushTimer deadline h))).bind (reactor (.foreign .swapFlag))
    else none

/-! ## 3. Watches -/

/-- `set_watch`, when the backend agrees. -/
def setWatch (socket : Socket) (readable writable : Bool) (s : CoreLoop) : CoreLoop :=
  { s with watched := fun side fd =>
      if fd = socket then (match side with | .reader => readable | .writer => writable)
      else s.watched side fd }

/-- The backend is to watch a socket for what its tables have. -/
def syncWatch (socket : Socket) (s : CoreLoop) : CoreLoop :=
  s.setWatch socket (s.readers.lookup socket).isSome (s.writers.lookup socket).isSome

/-- A watch is put into a table, and out of it again where the backend refuses. -/
def addWatch (side : Side) (socket : Socket) (agreed : Bool) (s : CoreLoop) : Option CoreLoop :=
  if s.closed ∨ s.inCell then none
  else
    let (h, s) := s.make true
    let displaced := (s.table side).lookup socket
    if agreed then
      let s := (s.setTable side ((s.table side).insert socket h)).syncWatch socket
      { s with graveyardHandles := s.graveyardHandles ++ displaced.toList }.drainGraveyards
    -- the error leaves before the graveyard is drained
    else some { s with graveyardHandles := s.graveyardHandles ++ [h] }

def addReader (socket : Socket) (agreed : Bool) (s : CoreLoop) : Option CoreLoop :=
  s.addWatch .reader socket agreed

def addWriter (socket : Socket) (agreed : Bool) (s : CoreLoop) : Option CoreLoop :=
  s.addWatch .writer socket agreed

def removeWatch (side : Side) (socket : Socket) (agreed : Bool) (s : CoreLoop) : Option CoreLoop :=
  if s.inCell then none
  else
    let removed := (s.table side).lookup socket
    if removed.isSome ∨ ((s.table side.other).lookup socket).isSome then
      if agreed then
        let s := (s.setTable side ((s.table side).erase socket)).syncWatch socket
        { s with graveyardHandles := s.graveyardHandles ++ removed.toList }.drainGraveyards
      else some s
    else s.drainGraveyards

def removeReader (socket : Socket) (agreed : Bool) (s : CoreLoop) : Option CoreLoop :=
  s.removeWatch .reader socket agreed

def removeWriter (socket : Socket) (agreed : Bool) (s : CoreLoop) : Option CoreLoop :=
  s.removeWatch .writer socket agreed

/-- The watches of a socket are taken out of the tables, on some sides. -/
def unwatch (socket : Socket) (r w : Bool) (s : CoreLoop) : CoreLoop :=
  let s := if r then s.setTable .reader (s.readers.erase socket) else s
  let s := if w then s.setTable .writer (s.writers.erase socket) else s
  s.syncWatch socket

def unwatchCancelled (socket : Socket) (r w agreed : Bool) (s : CoreLoop) : CoreLoop :=
  if ¬agreed then s
  else
    let oldR := if r then s.readers.lookup socket else none
    let oldW := if w then s.writers.lookup socket else none
    { s.unwatch socket r w with
      graveyardHandles := s.graveyardHandles ++ oldR.toList ++ oldW.toList }

/-- `translate`, of a readiness completion. -/
def translateReady (socket : Socket) (readable writable agreed : Bool) (s : CoreLoop) :
    Option CoreLoop :=
  if s.tick.phase ≠ .polled then none
  else
    let dropR := readable && (s.readers.lookup socket).any s.tick.cancelled
    let dropW := writable && (s.writers.lookup socket).any s.tick.cancelled
    let s := if dropR ∨ dropW then s.unwatchCancelled socket dropR dropW agreed else s
    let fired := (if readable ∧ ¬dropR then (s.readers.lookup socket).toList else []) ++
      if writable ∧ ¬dropW then (s.writers.lookup socket).toList else []
    some { s with readyScratch := s.readyScratch ++ fired }

/-! ## 4. The tick -/

def runForever (s : CoreLoop) : Option CoreLoop :=
  if s.closed ∨ s.claimed then none else some { s with claimed := true }

def leave (s : CoreLoop) : Option CoreLoop :=
  if s.claimed ∧ s.tick.phase = .idle then some { s with claimed := false } else none

def prepareTick (now : Nat) (s : CoreLoop) : Option CoreLoop :=
  if s.claimed then s.reactor (.prepareTick now [] []) else none

def pushScratch (s : CoreLoop) : Option CoreLoop :=
  s.readyScratch.foldlM (fun s h => s.reactor (.pushReady h)) { s with readyScratch := [] }

/-- The rest of the tick's one entry into the state: what fired, the batch, the timers, the graveyard. -/
def take (s : CoreLoop) : Option CoreLoop := do
  let mut s := s
  if s.readyScratch ≠ [] then
    s ← s.pushScratch
    s ← s.reactor .absorbIntoBatch
  s ← s.reactor .takeBatch
  s ← s.reactor .takeExpired
  s.reactor .takeGraveyard

/-- `run_handle`, up to the call. -/
def runHandle (s : CoreLoop) : Option CoreLoop :=
  if s.running.isSome then none
  else
    match s.tick.batch with
    | [] => none
    | h :: _ =>
      let calls := if ¬s.tick.cancelled h ∧ s.refs h then s.calls ++ [h] else s.calls
      { s with running := some h, calls }.reactor .dispatch

/-- The callback returns, or raises, and the handle is released. -/
def returned (s : CoreLoop) : Option CoreLoop :=
  s.running.map fun h => { s.releaseAfterDispatch h with running := none }

def handBack (s : CoreLoop) : Option CoreLoop :=
  if s.running.isSome then none else s.reactor .handBack

def endTick (s : CoreLoop) : Option CoreLoop :=
  if s.running.isSome then none else s.reactor .endTick

/-! ## 5. The end -/

/-- `Reactor::clear_pending`. -/
def clearPending (r : Reactor) : List HandleRef × Reactor :=
  let (callbacks, timers, xthread) := r.xthread.drainInto [] []
  let heap := (timers.foldl (fun h timer => h.schedule timer.1 timer.2) r.timers).drainAll
  (r.ready ++ r.expired ++ callbacks ++ heap.1,
    { r with ready := [], expired := [], xthread, timers := heap.2.1 })

/-- The backend's side of the watches goes too, where it agrees. -/
def unwatchAll (agreed : Side → Socket → Bool) (s : CoreLoop) : CoreLoop :=
  let s := s.readers.keys.foldl (fun s fd => if agreed .reader fd then s.setWatch fd false false else s) s
  s.writers.keys.foldl (fun s fd => if agreed .writer fd then s.setWatch fd false false else s) s

/-- What the close releases: the pending callbacks, and the watches. -/
def dropped (s : CoreLoop) : List HandleRef :=
  (clearPending s.tick.reactor).1 ++ s.readyScratch ++ s.readers.entries.map Sigma.snd ++
    s.writers.entries.map Sigma.snd

def cleared (s : CoreLoop) : CoreLoop :=
  { s with
    tick := { s.tick with reactor := (clearPending s.tick.reactor).2 }
    closed := true
    readers := ∅
    writers := ∅
    readyScratch := [] }

def close (agreed : Side → Socket → Bool) (s : CoreLoop) : Option CoreLoop :=
  if s.claimed then none
  else if s.closed then some s
  else (s.dropped.foldl (fun s h => s.release h) (s.unwatchAll agreed).cleared).drainGraveyards

end CoreLoop

inductive Step where
  | callSoon
  | callAt (deadline : Nat)
  | cancel (h : HandleRef)
  | addReader (socket : Socket) (agreed : Bool)
  | removeReader (socket : Socket) (agreed : Bool)
  | addWriter (socket : Socket) (agreed : Bool)
  | removeWriter (socket : Socket) (agreed : Bool)
  | runForever
  | leave
  | prepareTick (now : Nat)
  | pollTimeout (now : Nat)
  | pollFailed
  | finishPoll (parked : Bool) (now : Nat)
  | translateReady (socket : Socket) (readable writable agreed : Bool)
  | take
  | runHandle
  | returned
  | drainGraveyards
  | handBack
  | endTick
  | close (agreed : Side → Socket → Bool)

def CoreLoop.step (s : CoreLoop) : Step → Option CoreLoop
  | .callSoon => s.callSoon
  | .callAt deadline => s.callAt deadline
  | .cancel h => s.cancel h
  | .addReader socket agreed => s.addReader socket agreed
  | .removeReader socket agreed => s.removeReader socket agreed
  | .addWriter socket agreed => s.addWriter socket agreed
  | .removeWriter socket agreed => s.removeWriter socket agreed
  | .runForever => s.runForever
  | .leave => s.leave
  | .prepareTick now => s.prepareTick now
  | .pollTimeout now => s.reactor (.pollTimeout now)
  | .pollFailed => s.reactor .pollFailed
  | .finishPoll parked now => s.reactor (.finishPoll parked now [] [])
  | .translateReady socket readable writable agreed => s.translateReady socket readable writable agreed
  | .take => s.take
  | .runHandle => s.runHandle
  | .returned => s.returned
  | .drainGraveyards => if s.inCell then none else s.drainGraveyards
  | .handBack => s.handBack
  | .endTick => s.endTick
  | .close agreed => s.close agreed

-- a step that cannot be taken leaves the state as it is
def loop : Machine CoreLoop Step := ⟨.new, fun s step => (s.step step).getD s⟩

end Cadeloop.Pyshim.Handles
