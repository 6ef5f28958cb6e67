import Cadeloop.Reasoning.Machine
import Cadeloop.Reasoning.Waiters

/-!
# The native queue (`crates/pyshim/src/fastqueue.rs`, `python/cadeloop/queues.py`)

A queue of items and three lists of futures: the tasks that wait to get, to put and to join.  A wake
resolves the first future still pending and hands nothing over; the task looks again once it runs.
The tasks of one event loop are the environment: they call, they are cancelled, and they resume in
any order.  The last fields are a record of the run, which no operation reads.
-/

namespace Cadeloop.Pyshim.FastQueue

open Cadeloop.Reasoning Waiters

variable {α : Type*}

/-! ## 1. The queue -/

/-- What a waiting task will go on with. -/
inductive Await (α : Type*) where
  | get
  | put (item : α)
  | join

/-- A task parked on a future. -/
structure Waiting (α : Type*) where
  call : Await α
  fut : Nat

/-- The arithmetic of an `i64`. -/
def i64 (n : Int) : Int := n.bmod (2 ^ 64)

structure Queue (α : Type*) where
  maxsize : Int
  items : List α
  getters : List Nat
  putters : List Nat
  unfinished : Int
  joinWaiters : List Nat
  -- the event loop's: the futures, and the tasks waiting on them
  futs : Nat → FutState
  nextFut : Nat
  waits : List (Waiting α)
  -- the record: what was put and got, the calls of `task_done`, the futures in their wakes' order
  putItems : List α
  gotItems : List α
  done : Nat
  wakes : List Nat

def new (maxsize : Int) : Queue α where
  maxsize := maxsize
  items := []
  getters := []
  putters := []
  unfinished := 0
  joinWaiters := []
  futs := fun _ => .pending
  nextFut := 0
  waits := []
  putItems := []
  gotItems := []
  done := 0
  wakes := []

def isFull (q : Queue α) : Bool := 0 < q.maxsize ∧ q.maxsize ≤ q.items.length

/-! ## 2. Waking -/

def wakeGetter (q : Queue α) : Queue α :=
  let (woken, waiters) := nextWaiter q.futs q.getters
  { q with
    getters := waiters
    futs := setResult q.futs woken
    wakes := q.wakes ++ woken.toList }

def wakePutter (q : Queue α) : Queue α :=
  let (woken, waiters) := nextWaiter q.futs q.putters
  { q with
    putters := waiters
    futs := setResult q.futs woken
    wakes := q.wakes ++ woken.toList }

/-! ## 3. Putting and getting -/

def putNow (item : α) (q : Queue α) : Queue α :=
  wakeGetter { q with
    items := q.items ++ [item]
    unfinished := i64 (q.unfinished + 1)
    putItems := q.putItems ++ [item] }

def getNow (q : Queue α) : Option (α × Queue α) :=
  match q.items with
  | [] => none
  | item :: items =>
    some (item, wakePutter { q with items := items, gotItems := q.gotItems ++ [item] })

def putNowait (item : α) (q : Queue α) : Except String (Queue α) :=
  if isFull q then .error "QueueFull" else .ok (putNow item q)

def getNowait (q : Queue α) : Except String (α × Queue α) :=
  match getNow q with
  | some got => .ok got
  | none => .error "QueueEmpty"

/-- `await fut`, on a future of its own. -/
def park (call : Await α) (q : Queue α) : Queue α :=
  let fut := q.nextFut
  let w : Waiting α := ⟨call, fut⟩
  let q := { q with
    futs := Function.update q.futs fut .pending
    nextFut := fut + 1
    waits := q.waits ++ [w] }
  match call with
  | .get => { q with getters := q.getters ++ [fut] }
  | .put _ => { q with putters := q.putters ++ [fut] }
  | .join => { q with joinWaiters := q.joinWaiters ++ [fut] }

/-- One round of the loop of `get()`. -/
def get (q : Queue α) : Queue α :=
  match getNow q with
  | some (_, q) => q
  | none => park .get q

def put (item : α) (q : Queue α) : Queue α :=
  if isFull q then park (.put item) q else putNow item q

def join (q : Queue α) : Queue α := if q.unfinished = 0 then q else park .join q

/-- Resolves the futures that are still pending, in their order. -/
def releaseJoiners (q : Queue α) : Queue α :=
  let pending := q.joinWaiters.filter fun fut => q.futs fut = .pending
  { q with
    joinWaiters := []
    futs := fun fut => if fut ∈ pending then .resolved else q.futs fut
    wakes := q.wakes ++ pending }

def taskDone (q : Queue α) : Except String (Queue α) :=
  if q.unfinished ≤ 0 then .error "task_done() called too many times"
  else
    let n := q.unfinished
    let q := { q with unfinished := n - 1, done := q.done + 1 }
    .ok (if n = 1 then releaseJoiners q else q)

/-! ## 4. Cancellation -/

def getterRecovery (fut : Nat) (q : Queue α) : Queue α :=
  let q := { q with futs := cancelFut fut q.futs, getters := q.getters.erase fut }
  if q.items ≠ [] ∧ q.futs fut ≠ .cancelled then wakeGetter q else q

def putterRecovery (fut : Nat) (q : Queue α) : Queue α :=
  let q := { q with futs := cancelFut fut q.futs, putters := q.putters.erase fut }
  if isFull q = false ∧ q.futs fut ≠ .cancelled then wakePutter q else q

def unjoin (fut : Nat) (q : Queue α) : Queue α :=
  { q with joinWaiters := q.joinWaiters.erase fut }

/-- What a task does with an exception at its `await`. -/
def recover (w : Waiting α) (q : Queue α) : Queue α :=
  match w.call with
  | .get => getterRecovery w.fut q
  | .put _ => putterRecovery w.fut q
  | .join => unjoin w.fut q

/-- What a task does once its future is resolved. -/
def goOn (w : Waiting α) (q : Queue α) : Queue α :=
  match w.call with
  | .get => get q
  | .put item => put item q
  | .join => unjoin w.fut q

/-- `task.cancel()`, which cancels the future the task waits on; a task that is woken already finds
the exception when it resumes. -/
def cancel (i : Nat) (q : Queue α) : Queue α :=
  match q.waits[i]? with
  | none => q
  | some w => { q with futs := cancelFut w.fut q.futs }

/-- A task resumes.  It is `thrown` an exception where it was cancelled after its wake, or where its
coroutine is closed, which needs no wake. -/
def resume (i : Nat) (thrown : Bool) (q : Queue α) : Queue α :=
  match q.waits[i]? with
  | none => q
  | some w =>
    let left := { q with waits := q.waits.eraseIdx i }
    if thrown ∨ q.futs w.fut = .cancelled then recover w left
    else if q.futs w.fut = .resolved then goOn w left
    else q

/-! ## 5. Runs -/

inductive Op (α : Type*) where
  | put (item : α)
  | get
  | putNowait (item : α)
  | getNowait
  | taskDone
  | join
  | cancel (i : Nat)
  | resume (i : Nat) (thrown : Bool)

def step (q : Queue α) : Op α → Queue α
  | .put item => put item q
  | .get => get q
  | .putNowait item =>
    match putNowait item q with
    | .ok q => q
    | .error _ => q
  | .getNowait =>
    match getNowait q with
    | .ok (_, q) => q
    | .error _ => q
  | .taskDone =>
    match taskDone q with
    | .ok q => q
    | .error _ => q
  | .join => join q
  | .cancel i => cancel i q
  | .resume i thrown => resume i thrown q

def queue (maxsize : Int) : Machine (Queue α) (Op α) where
  init := new maxsize
  step := step

end Cadeloop.Pyshim.FastQueue
