import Cadeloop.Core.ReactorOrder

/-!
# The loop's tick (`crates/pyshim/src/coreloop.rs`)

`CoreLoop::tick` over the reactor: reap, take the batch, the timers due and the transport events, check
the signals, run the batch, dispatch the events, run the timers, flush what they corked and dispatch
the events of that.  A callback runs between its start and its return; meanwhile it, the completions
and other threads push tokens, timers and events, and a fatal return unwinds the tick.  Which events
are deferred `connection_lost` calls is a parameter, as is the handle that `call_soon` makes of one.
A signal may be found at any check: the ticks that skip theirs find none.
-/

namespace Cadeloop.Pyshim.Tick

open Cadeloop.Reasoning
open Cadeloop.Core.Tick

variable {T E : Type*}

/-! ## 1. The tick -/

/-- Where a tick stands. -/
inductive Stage where
  -- up to the completions; the reactor's own phase says where
  | reap
  | signals
  | batch
  | events
  | timers
  -- the flush of what the tick corked comes next
  | corked
  -- and the events of that flush
  | again
  deriving DecidableEq

structure CoreLoop (T E : Type*) where
  -- the reactor, the dispatch buffer and the count of timers in it
  loop : Loop T
  -- `net.events`
  events : List E
  -- those this tick took
  hand : List E
  stage : Stage
  hadEvents : Bool
  -- a callback has started and not returned
  running : Bool
  -- every event pushed, the events started, and those scheduled out of the queue
  produced : List E
  dispatched : List E
  scheduled : List E
  -- the ticks that ran to their end
  ended : Nat

inductive Step (T E : Type*) where
  | reactor (e : Event T)
  | produce (e : E)
  | schedulePendingLost
  | take
  | checkSignals (interrupted : Bool)
  | runHandle
  | dispatchEvent
  | returned (fatal : Bool)
  | next

/-- What callbacks, completions and other threads do to the reactor at any time. -/
def external : Event T → Bool
  | .pushReady _ | .foreign _ | .scheduleTimer _ _ | .cancel _ | .countCancelled
  | .takeGraveyard => true
  | _ => false

/-- What the tick does to it before it takes the batch. -/
def reaps : Event T → Bool
  | .prepareTick _ _ _ | .pollTimeout _ | .pollFailed | .finishPoll _ _ _ _
  | .absorbIntoBatch => true
  | _ => false

namespace CoreLoop

def new : CoreLoop T E where
  loop := .new
  events := []
  hand := []
  stage := .reap
  hadEvents := false
  running := false
  produced := []
  dispatched := []
  scheduled := []
  ended := 0

/-- Give back what an unwind left in the batch, `timers` of it timers. -/
def handBack (s : CoreLoop T E) (timers : Nat) : CoreLoop T E :=
  { s with loop := { s.loop with
      reactor := Core.Tick.handBack s.loop.reactor s.loop.batch timers
      batch := []
      phase := .idle } }

/-- Put the events the tick still holds back at the front. -/
def requeueEvents (s : CoreLoop T E) : CoreLoop T E :=
  { s with events := s.hand ++ s.events, hand := [] }

/-- The tick returns to `run_forever`. -/
def leave (s : CoreLoop T E) : CoreLoop T E :=
  { s with loop := { s.loop with phase := .idle }, stage := .reap, running := false }

/-- A fatal error leaves the tick. -/
def unwind (s : CoreLoop T E) : Option (CoreLoop T E) :=
  match s.stage with
  | .signals | .batch => some ((s.handBack s.loop.timers).requeueEvents).leave
  -- `dispatch_events` has put its own rest back
  | .events => some ((s.requeueEvents).handBack s.loop.timers).leave
  | .timers => some (s.handBack s.loop.batch.length).leave
  | .again => some (s.requeueEvents).leave
  | .reap | .corked => none

/-- Move the deferred `connection_lost` calls out of the queue, into the ready queue. -/
def schedulePendingLost (deferred : E → Bool) (lostCall : E → T) (s : CoreLoop T E) :
    CoreLoop T E :=
  let lost := s.events.filter deferred
  { s with
    events := s.events.filter fun e => !deferred e
    scheduled := s.scheduled ++ lost
    loop := { s.loop with
      reactor := lost.foldl (fun r e => r.pushReady (lostCall e)) s.loop.reactor
      pushed := s.loop.pushed ++ lost.map lostCall
      entered := s.loop.entered ++ lost.map lostCall } }

section Step

variable [DecidableEq T] (deferred : E → Bool) (lostCall : E → T)

/-- Start the next event; a deferred `connection_lost` is scheduled by its dispatch. -/
def startEvent (s : CoreLoop T E) : Option (CoreLoop T E) :=
  match s.hand with
  | [] => none
  | e :: rest =>
    let s := { s with hand := rest, dispatched := s.dispatched ++ [e], running := true }
    if deferred e then
      (s.loop.step (.pushReady (lostCall e))).map fun loop => { s with loop }
    else some s

def step (s : CoreLoop T E) : Step T E → Option (CoreLoop T E)
  | .reactor e =>
    if external e ∨ (s.stage = .reap ∧ reaps e) then
      (s.loop.step e).map fun loop => { s with loop }
    else none
  | .produce e => some { s with events := s.events ++ [e], produced := s.produced ++ [e] }
  | .schedulePendingLost => some (s.schedulePendingLost deferred lostCall)
  | .take =>
    if s.stage = .reap then
      -- the queue trades buffers with the tick's own
      ((s.loop.step .takeBatch).bind fun loop => loop.step .takeExpired).map fun loop =>
        { s with loop, events := s.hand, hand := s.events, stage := .signals }
    else none
  | .checkSignals interrupted =>
    if s.stage = .signals then
      if interrupted then s.unwind else some { s with stage := .batch }
    else none
  | .runHandle =>
    if s.running then none
    else if s.stage = .timers ∨ (s.stage = .batch ∧ s.loop.timers < s.loop.batch.length) then
      (s.loop.step .dispatch).map fun loop => { s with loop, running := true }
    else none
  | .dispatchEvent =>
    if s.running then none
    else if s.stage = .events ∨ s.stage = .again then s.startEvent deferred lostCall
    else none
  | .returned fatal =>
    if s.running then if fatal then s.unwind else some { s with running := false }
    else none
  | .next =>
    if s.running then none
    else
      match s.stage with
      | .batch =>
        if s.loop.batch.length ≤ s.loop.timers then
          some { s with
            hadEvents := !s.hand.isEmpty
            stage := if s.hand.isEmpty then .timers else .events }
        else none
      | .events => if s.hand.isEmpty then some { s with stage := .timers } else none
      | .timers =>
        if s.loop.batch.isEmpty then
          if s.hadEvents then some { s with stage := .corked }
          else some { s.leave with ended := s.ended + 1 }
        else none
      | .corked => some { s with events := s.hand, hand := s.events, stage := .again }
      | .again => if s.hand.isEmpty then some { s.leave with ended := s.ended + 1 } else none
      | .reap | .signals => none

def ticks : System (CoreLoop T E) (Step T E) := ⟨.new, step deferred lostCall⟩

end Step

/-- Between two ticks, `run_forever` running or not. -/
def Idle (s : CoreLoop T E) : Prop := s.stage = .reap ∧ s.loop.phase = .idle

end CoreLoop

end Cadeloop.Pyshim.Tick
