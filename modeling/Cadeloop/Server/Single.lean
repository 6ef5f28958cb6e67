import Cadeloop.Reasoning.Machine

/-!
# The life of one worker (`python/cadeloop/server.py`)

`_serve_single` runs the loop for one thing after another: the lifespan startup of the application,
serving, the drain, the cancelled requests, the lifespan shutdown and the loop's finalization.  In each of
these runs the lifespan task goes on, stop requests come in through `_Shutdown`, and the application may
stop the loop.  What the drain, the requests and the other tasks do is the environment's.
-/

namespace Cadeloop.Server.Single

open Cadeloop.Reasoning (Machine)

/-! ## 1. The state -/

/-- What `_serve_single` returns. -/
inductive Reason where
  | signal
  | supervisor
  | lifespan
  | app
  deriving DecidableEq

-- `lifespan.startup`, `lifespan.shutdown`
inductive Message where
  | startup
  | shutdown
  deriving DecidableEq

inductive Reply where
  | startupComplete
  | startupFailed
  | shutdownComplete
  | shutdownFailed

/-- The future `_startup`; `failed` is `_startup_failed` too. -/
inductive Startup where
  | pending
  | complete
  | failed
  deriving DecidableEq

structure Lifespan where
  enabled : Bool
  queue : List Message
  -- taken off the queue, by the application's `receive()`
  received : List Message
  startup : Startup
  -- the future `_shutdown` is done
  shutdown : Bool
  -- the task is not done
  running : Bool
  crashed : Bool
  shutdownRequested : Bool
  abandoned : Bool

/-- Which run of the loop is under way. -/
inductive Stage where
  | starting
  | serving
  -- `_drain_connections`, `_cancel_requests`
  | draining
  | cancelling
  -- `_Lifespan.shutdown`
  | closing
  -- `_finalize_loop`
  | tasks
  | asyncgens
  | executor
  | ended
  deriving DecidableEq

-- `_Shutdown.phase`
inductive Phase where
  | starting
  | serving
  | draining
  | closing
  | closed
  deriving DecidableEq

def Stage.phase : Stage → Phase
  | .starting => .starting
  | .serving => .serving
  | .draining | .cancelling => .draining
  | .closing | .tasks | .asyncgens | .executor => .closing
  | .ended => .closed

/-- How the `try` block ends; `exited` by a `SystemExit` or `KeyboardInterrupt`. -/
inductive Outcome where
  | returned (reason : Option Reason)
  | error
  | exited
  deriving DecidableEq

structure State where
  interactive : Bool
  stage : Stage
  reason : Option Reason
  hurry : Bool
  abandoned : Bool
  served : Bool
  lifespan : Lifespan
  -- the loop's `stopping`
  stopping : Bool
  -- the future `run_until_complete` waits for is not done
  awaiting : Bool
  -- `_run_until_complete_cb`s on the ready queue
  callbacks : Nat
  outcome : Option Outcome
  -- for the record: the reasons given, in order
  requests : List Reason

/-- What the calls between two runs find. -/
structure Answers where
  -- `_listen_all` succeeded
  bound : Bool
  -- `_drain_budget` is positive
  grace : Bool
  -- `http_begin_shutdown` left connections busy
  busy : Bool
  -- `http_request_drivers` lists some
  drivers : Bool
  -- tasks or drivers other than the lifespan task are left
  tasks : Bool

namespace State

/-! ## 2. Stop requests -/

def phase (s : State) : Phase := s.stage.phase

def stop (s : State) : State := { s with stopping := true }

-- both in one: `abandoned = True` and `loop.stop()`
def abandon (s : State) : State := { s with abandoned := true, stopping := true }

/-- `_Shutdown.request` -/
def request (reason : Reason) (s : State) : State :=
  let s := { s with requests := s.requests ++ [reason] }
  let s := if reason = .supervisor ∧ s.phase = .starting ∧ ¬ s.abandoned then s.abandon else s
  if s.reason.isSome then s
  else
    let s := { s with reason := some reason }
    if s.phase = .serving then s.stop else s

/-- `_Shutdown.on_signal`; `interrupt` for SIGINT and SIGBREAK. -/
def onSignal (interrupt : Bool) (s : State) : State :=
  if s.reason.isNone then s.request .signal
  else if s.interactive && interrupt then
    match s.phase with
    | .starting => s.abandon
    | .serving | .draining => { s with hurry := true }
    | .closing => s.stop
    | .closed => s
  else s

/-! ## 3. The lifespan task -/

/-- `_startup` is done; the run that waits for it will see its callback. -/
def resolve (startup : Startup) (s : State) : State :=
  let s := { s with lifespan := { s.lifespan with startup } }
  if s.stage = .starting then { s with awaiting := false, callbacks := s.callbacks + 1 } else s

/-- No lifespan support, as far as the server can tell. -/
def disable (s : State) : State :=
  { s with lifespan := { s.lifespan with enabled := false } }.resolve .complete

def crash (s : State) : State :=
  { s with lifespan := { s.lifespan with crashed := true } }.request .lifespan

/-- `_receive`, once there is a message. -/
def receive (s : State) : State :=
  match s.lifespan.queue with
  | [] => s
  | message :: queue =>
    { s with lifespan := { s.lifespan with queue, received := s.lifespan.received ++ [message] } }

/-- `_send` -/
def send (reply : Reply) (s : State) : State :=
  match reply with
  | .startupComplete => if s.lifespan.startup = .pending then s.resolve .complete else s
  | .startupFailed => if s.lifespan.startup = .pending then s.resolve .failed else s
  | .shutdownComplete | .shutdownFailed =>
    { s with lifespan := { s.lifespan with shutdown := true } }

/-- What `_run` does about an exception of the application; `cancelled` for a `CancelledError`. -/
def raised (cancelled : Bool) (s : State) : State :=
  if cancelled ∧ (s.lifespan.shutdownRequested ∨ s.lifespan.abandoned) then s
  else if s.lifespan.shutdownRequested then s
  else if s.lifespan.startup = .failed then s
  else if s.lifespan.startup = .pending then s.disable
  else s.crash

/-- The rest of `_run`. -/
def returned (s : State) : State :=
  let s :=
    if s.lifespan.startup = .pending then s.disable
    else if s.lifespan.enabled ∧ ¬ s.lifespan.crashed ∧ ¬ s.lifespan.shutdownRequested ∧
        s.lifespan.startup ≠ .failed then s.crash
    else s
  { s with lifespan := { s.lifespan with shutdown := true, running := false } }

/-! ## 4. From one run to the next -/

def runForever (stage : Stage) (s : State) : State := { s with stage, awaiting := false }

def runUntilComplete (stage : Stage) (s : State) : State := { s with stage, awaiting := true }

def close (s : State) : State := { s with stage := .ended }

/-- `_finalize_loop`; the lifespan task is among those it cancels. -/
def finalizeLoop (a : Answers) (s : State) : State :=
  if s.lifespan.running || a.tasks then s.runUntilComplete .tasks else s.runUntilComplete .asyncgens

/-- `_Lifespan.shutdown`, unless the startup was abandoned. -/
def lifespanShutdown (a : Answers) (s : State) : State :=
  if s.abandoned then s.finalizeLoop a
  else
    let s := { s with lifespan := { s.lifespan with shutdownRequested := true } }
    if ¬ s.lifespan.enabled ∨ s.lifespan.startup = .failed ∨ ¬ s.lifespan.running then
      s.finalizeLoop a
    else
      { s with lifespan := { s.lifespan with queue := s.lifespan.queue ++ [Message.shutdown] } }.runUntilComplete
        .closing

/-- `_cancel_requests` -/
def cancelRequests (a : Answers) (s : State) : State :=
  if s.served && a.drivers then s.runUntilComplete .cancelling else s.lifespanShutdown a

/-- `_drain_connections` -/
def drainConnections (a : Answers) (s : State) : State :=
  if s.served && a.grace && !s.hurry && a.busy then s.runForever .draining else s.cancelRequests a

/-- The `try` block is left, for its `finally`. -/
def leave (outcome : Outcome) (a : Answers) (s : State) : State :=
  { s with outcome := some outcome }.drainConnections a

def conclude (a : Answers) (s : State) : State :=
  if s.lifespan.crashed then s.leave .error a else s.leave (.returned s.reason) a

/-- Behind the run that waits for `_startup`: stopped before it was done, or it raises, or the task
crashed behind it; `_serve_single` goes on where the startup was abandoned. -/
def startupEnded (a : Answers) (s : State) : State :=
  let failed := s.awaiting || s.lifespan.startup == .failed || s.lifespan.crashed
  if failed && !s.abandoned then s.leave .error a
  else
    let s := if failed then { s with lifespan := { s.lifespan with abandoned := true } } else s
    if s.reason.isNone then
      if a.bound then { s with served := true }.runForever .serving else s.leave .error a
    else s.conclude a

/-- Behind the run that serves. -/
def servingEnded (a : Answers) (s : State) : State :=
  if s.reason.isNone then
    -- the application stopped the loop
    { s with reason := some .app, requests := s.requests ++ [Reason.app] }.conclude a
  else s.conclude a

/-- A run ends. -/
def ranOut (a : Answers) (s : State) : State :=
  match s.stage with
  | .starting => s.startupEnded a
  | .serving => s.servingEnded a
  | .draining => s.cancelRequests a
  | .cancelling => s.lifespanShutdown a
  | .closing => s.finalizeLoop a
  -- stopped before its future was done, it raises, and the rest is cut short
  | .tasks => if s.awaiting then s.close else s.runUntilComplete .asyncgens
  | .asyncgens => if s.awaiting then s.close else s.runUntilComplete .executor
  | .executor | .ended => s.close

/-- A `SystemExit`, or a `KeyboardInterrupt`, comes out of a run. -/
def exits (interrupt : Bool) (a : Answers) (s : State) : State :=
  match s.stage with
  | .starting => s.leave .exited a
  | .serving => if interrupt then (s.request .signal).servingEnded a else s.leave .exited a
  | .draining =>
    if interrupt then s.cancelRequests a else { s with outcome := some .exited }.close
  | _ => { s with outcome := some .exited }.close

end State

/-! ## 5. What happens during a run -/

inductive Ending where
  | returned
  | raised (cancelled : Bool)

inductive Event where
  | receive
  | send (reply : Reply)
  | taskEnds (ending : Ending)
  | signal (interrupt : Bool)
  -- STOP, or EOF on the control channel or the lifeline
  | supervisor
  -- the application calls `loop.stop()`
  | appStop
  -- the future that the run waits for is done; `_startup` is the task's
  | complete
  | callback
  -- the drain looks: no connection is left or the deadline passed, or not
  | poll (drained : Bool)
  -- of the lifespan task, or another
  | exit (ofTask interrupt : Bool) (a : Answers)
  -- the loop's tick is over
  | endRun (a : Answers)

namespace State

def taskEnds (s : State) : Ending → State
  | .returned => s.returned
  | .raised cancelled => (s.raised cancelled).returned

def step (s : State) (event : Event) : State :=
  if s.stage = .ended then s
  else
    match event with
    | .receive => s.receive
    | .send reply => s.send reply
    | .taskEnds ending => if s.lifespan.running then s.taskEnds ending else s
    | .signal interrupt => s.onSignal interrupt
    | .supervisor => s.request .supervisor
    | .appStop => s.stop
    | .complete =>
      if s.awaiting ∧ s.stage ≠ .starting then
        { s with awaiting := false, callbacks := s.callbacks + 1 }
      else s
    | .callback =>
      if s.callbacks = 0 then s else { s with callbacks := s.callbacks - 1 }.stop
    | .poll drained => if s.stage = .draining ∧ (drained ∨ s.hurry) then s.stop else s
    | .exit ofTask interrupt a =>
      if ofTask ∧ ¬ s.lifespan.running then s
      else
        let s := { s with lifespan := { s.lifespan with running := s.lifespan.running && !ofTask } }
        { s with stopping := false }.exits interrupt a
    | .endRun a => if s.stopping then { s with stopping := false }.ranOut a else s

end State

/-- `_serve_single` in its first run; `interactive` unless it is a worker of a pool. -/
def newWorker (interactive : Bool) : State where
  interactive := interactive
  stage := .starting
  reason := none
  hurry := false
  abandoned := false
  served := false
  lifespan :=
    { enabled := true, queue := [.startup], received := [], startup := .pending, shutdown := false,
      running := true, crashed := false, shutdownRequested := false, abandoned := false }
  stopping := false
  awaiting := true
  callbacks := 0
  outcome := none
  requests := []

def worker (interactive : Bool) : Machine State Event := ⟨newWorker interactive, State.step⟩

end Cadeloop.Server.Single
