import Cadeloop.Reasoning.Machine

/-!
# The driver of an application coroutine (`AppTask`, `crates/pyshim/src/http.rs`)

The coroutine and everything it calls are the environment: while it runs it may cancel its own task,
finish futures and register callbacks, and it leaves by a yield, a return or an exception.  What it
awaits keeps asyncio's future protocol and is otherwise free: a future asked to cancel may finish at
once, finish later in any way, or refuse.  The last fields of the state are a record of the run,
which no operation reads.
-/

namespace Cadeloop.Pyshim.AppTask

open Cadeloop.Reasoning

-- messages of cancellations, exceptions of the application, callbacks
variable {M E F : Type*}

/-! ## 1. Futures -/

inductive Exc (M E : Type*) where
  | cancelled (msg : Option M)
  | raised (e : E)
  deriving DecidableEq

def Exc.isCancelled : Exc M E → Bool
  | .cancelled _ => true
  | .raised _ => false

/-- A future: how it finished, if it has (`result()` then raises, or does not), and how many times
    the task's `_wake` is among its callbacks. -/
structure Fut (M E : Type*) where
  outcome : Option (Option (Exc M E))
  wakes : Nat

/-- What a pending future does when it is asked to cancel. -/
inductive Answer where
  -- it is cancelled there and then
  | finishes
  -- `True`, and it ends later, in whatever way
  | agrees
  -- `False`
  | refuses
  deriving DecidableEq

/-- What waits on the loop's ready queue. -/
inductive Entry where
  | wake (fut : Nat)
  | resumeBare
  -- a done callback of the task, by the number of its registration
  | callback (id : Nat)
  deriving DecidableEq

def Entry.resumes : Entry → Bool
  | .callback _ => false
  | _ => true

inductive Coro where
  | running
  | suspended
  -- it returned or raised; the task may not know yet
  | ended
  deriving DecidableEq

/-- One resumption of the coroutine: what the wake brought, and what was thrown into it. -/
structure Resume (M E : Type*) where
  incoming : Option (Exc M E)
  throw : Option (Exc M E)

/-- A call of `cancel` that returned `True`: its message, how many times the coroutine had been
    resumed, and the future it was forwarded to, with the message that future was given. -/
structure Request (M : Type*) where
  msg : Option M
  step : Nat
  forwarded : Option (Nat × Option M)

structure State (M E F : Type*) where
  finished : Bool
  mustCancel : Bool
  cancelMsg : Option M
  cancelsRequested : Nat
  waitingOn : Option Nat
  callbacks : List (Nat × F)
  -- the environment's
  coro : Coro
  futs : Nat → Fut M E
  ready : List Entry
  -- the record: the resumptions, the requests, what the futures agreed to, the callbacks' fates
  resumes : List (Resume M E)
  requests : List (Request M)
  agreed : List (Nat × Option M)
  registered : Nat
  removed : List Nat
  called : List Nat

/-- A task spawned, its first step begun (`pump_requests` takes it at once). -/
def init : State M E F where
  finished := false
  mustCancel := false
  cancelMsg := none
  cancelsRequested := 0
  waitingOn := none
  callbacks := []
  coro := .running
  futs := fun _ => { outcome := none, wakes := 0 }
  ready := []
  resumes := [{ incoming := none, throw := none }]
  requests := []
  agreed := []
  registered := 0
  removed := []
  called := []

/-- A future finishes, and the loop is handed its callbacks. -/
def complete (f : Nat) (throw : Option (Exc M E)) (s : State M E F) : State M E F :=
  match (s.futs f).outcome with
  | some _ => s
  | none =>
    { s with
      futs := Function.update s.futs f { outcome := some throw, wakes := 0 }
      ready := s.ready ++ List.replicate (s.futs f).wakes (.wake f) }

/-- `add_done_callback(_wake)`: kept, or queued at once where the future is done. -/
def addWake (f : Nat) (s : State M E F) : State M E F :=
  match (s.futs f).outcome with
  | some _ => { s with ready := s.ready ++ [.wake f] }
  | none =>
    { s with futs := Function.update s.futs f { outcome := none, wakes := (s.futs f).wakes + 1 } }

/-- `fut.cancel(msg)` -/
def futCancel (answer : Answer) (msg : Option M) (f : Nat) (s : State M E F) :
    Bool × State M E F :=
  match (s.futs f).outcome, answer with
  | none, .finishes =>
    (true, { complete f (some (.cancelled msg)) s with agreed := s.agreed ++ [(f, msg)] })
  | none, .agrees => (true, { s with agreed := s.agreed ++ [(f, msg)] })
  | _, _ => (false, s)

/-! ## 2. The task -/

/-- The request is kept for the next step. -/
def latch (msg : Option M) (s : State M E F) : State M E F :=
  { s with
    mustCancel := true
    cancelMsg := msg
    requests := s.requests ++ [{ msg := msg, step := s.resumes.length, forwarded := none }] }

/-- `AppTask::cancel` -/
def cancel (msg : Option M) (answer : Answer) (s : State M E F) : Bool × State M E F :=
  if s.finished then (false, s)
  else
    let s := { s with cancelsRequested := s.cancelsRequested + 1 }
    match s.waitingOn with
    | none => (true, latch msg s)
    | some f =>
      match futCancel answer msg f s with
      | (true, s) =>
        (true, { s with
                 requests := s.requests ++
                   [{ msg := msg, step := s.resumes.length, forwarded := some (f, msg) }] })
      | (false, s) => (true, latch msg s)

/-- `uncancel` -/
def uncancel (s : State M E F) : State M E F :=
  { s with cancelsRequested := s.cancelsRequested - 1 }

/-- `step` and `step_body`, to where the coroutine runs: a latched request goes in as its own
    `CancelledError`, unless one is on its way in already. -/
def begin (incoming : Option (Exc M E)) (s : State M E F) : State M E F :=
  let throw :=
    if s.mustCancel ∧ incoming.all (fun e => !e.isCancelled) then some (.cancelled s.cancelMsg)
    else incoming
  { s with
    waitingOn := none
    mustCancel := false
    cancelMsg := if s.mustCancel then none else s.cancelMsg
    coro := .running
    resumes := s.resumes ++ [{ incoming := incoming, throw := throw }] }

/-- The loop runs an entry of its queue: `_wake`, `_resume_bare`, or a callback. -/
def dispatch (i : Nat) (s : State M E F) : State M E F :=
  match s.coro, s.ready[i]? with
  | .running, _ | _, none => s
  | _, some entry =>
    let s := { s with ready := s.ready.eraseIdx i }
    match entry with
    | .wake f => begin ((s.futs f).outcome.getD none) s
    | .resumeBare => begin none s
    | .callback _ => s

/-- How the coroutine leaves. -/
inductive Yield where
  | bare
  | future (f : Nat) (answer : Answer)
  | bad
  | returns
  | raises

def Request.forward (step : Nat) (d : Nat × Option M) (r : Request M) : Request M :=
  if r.step = step ∧ r.forwarded.isNone then { r with forwarded := some d } else r

/-- The requests latched in this step went to a future together, under the last one's message. -/
def State.forwardAll (f : Nat) (s : State M E F) : State M E F :=
  { s with
    mustCancel := false
    cancelMsg := none
    requests := s.requests.map (Request.forward s.resumes.length (f, s.cancelMsg)) }

/-- The awaiting of a future of this loop. -/
def await (f : Nat) (answer : Answer) (s : State M E F) : State M E F :=
  let s := { addWake f s with waitingOn := some f, coro := .suspended }
  if s.mustCancel then
    match futCancel answer s.cancelMsg f s with
    | (true, s) => s.forwardAll f
    | (false, s) => s
  else s

variable (foreign : Nat → Bool)

/-- The rest of `step_body`.  A bad yield, or a future of another loop, is answered by a
    `RuntimeError` thrown in at once: the coroutine still runs. -/
def yields (s : State M E F) (y : Yield) : State M E F :=
  if s.coro ≠ .running then s
  else
    match y with
    | .bare => { s with ready := s.ready ++ [.resumeBare], coro := .suspended }
    | .future f answer => if foreign f then s else await f answer s
    | .bad => s
    | .returns | .raises => { s with coro := .ended }

/-- `schedule_callback` -/
def scheduleCallback (id : Nat) (s : State M E F) : State M E F :=
  { s with ready := s.ready ++ [.callback id], called := s.called ++ [id] }

/-- `fire_done_callbacks` -/
def fireDoneCallbacks (s : State M E F) : State M E F :=
  s.callbacks.foldl (fun s entry => scheduleCallback entry.1 s) { s with callbacks := [] }

/-- The end of `step`, once the coroutine ended and its failure was reported. -/
def settle (s : State M E F) : State M E F :=
  if s.coro = .ended ∧ s.finished = false then fireDoneCallbacks { s with finished := true } else s

/-- `add_done_callback` -/
def addDoneCallback (fn : F) (s : State M E F) : State M E F :=
  let id := s.registered
  let s := { s with registered := id + 1 }
  if s.finished then scheduleCallback id s
  else { s with callbacks := s.callbacks ++ [(id, fn)] }

/-- `remove_done_callback`: every registration of an equal function. -/
def removeDoneCallback [DecidableEq F] (fn : F) (s : State M E F) : State M E F :=
  { s with
    callbacks := s.callbacks.filter fun entry => entry.2 ≠ fn
    removed := s.removed ++ (s.callbacks.filter fun entry => entry.2 = fn).map Prod.fst }

/-! ## 3. The machine -/

inductive Input (M E F : Type*) where
  | dispatch (i : Nat)
  | yields (y : Yield)
  | settle
  | complete (f : Nat) (throw : Option (Exc M E))
  | cancel (msg : Option M) (answer : Answer)
  | uncancel
  | addDoneCallback (fn : F)
  | removeDoneCallback (fn : F)

def step [DecidableEq F] (s : State M E F) : Input M E F → State M E F
  | .dispatch i => dispatch i s
  | .yields y => yields foreign s y
  | .settle => settle s
  | .complete f throw => complete f throw s
  | .cancel msg answer => (cancel msg answer s).2
  | .uncancel => uncancel s
  | .addDoneCallback fn => addDoneCallback fn s
  | .removeDoneCallback fn => removeDoneCallback fn s

def machine [DecidableEq F] : Machine (State M E F) (Input M E F) where
  init := init
  step := step foreign

end Cadeloop.Pyshim.AppTask
