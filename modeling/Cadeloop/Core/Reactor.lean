import Cadeloop.Core.TimerRuns

/-!
# The reactor's tick (`crates/core/src/reactor.rs`, `ready.rs`, `time.rs`)

The ready queue, the cross-thread queue, the timer heap and the expired timers, and the functions
that move tokens between them once a tick.  The backend, the statistics and the allocations that
`take_batch` saves carry no token and are left out.  What the program does not settle is a
parameter: the flag of each token, a reading of the clock, and what other threads do while a drain
is at work.
-/

namespace Cadeloop.Core.Tick

open Cadeloop.Reasoning
open Cadeloop.Core.Timer (TimerHeap Entry)

variable {T : Type*}

/-! ## 1. The clock -/

structure Clock where
  reading : Nat
  -- the tick moved on since `reading` was taken
  stale : Bool

def Clock.invalidate (c : Clock) : Clock := { c with stale := true }

/-- The tick's time, which is `now` if it has to be read. -/
def Clock.cached (c : Clock) (now : Nat) : Nat × Clock :=
  if c.stale then (now, ⟨now, false⟩) else (c.reading, c)

/-! ## 2. The cross-thread queue -/

structure CrossThreadQueue (T : Type*) where
  queue : List T
  timers : List (Nat × T)
  wakePending : Bool

/-- A step of another thread: its item gets into a queue, and later it swaps the flag. -/
inductive Foreign (T : Type*) where
  | push (item : T)
  | pushTimer (deadline : Nat) (item : T)
  | swapFlag

def CrossThreadQueue.foreign (x : CrossThreadQueue T) : Foreign T → CrossThreadQueue T
  | .push item => { x with queue := x.queue ++ [item] }
  | .pushTimer deadline item => { x with timers := x.timers ++ [(deadline, item)] }
  | .swapFlag => { x with wakePending := true }

/-- The callbacks and the timers drained.  Other threads take the steps `raced` before the length
of the queue is read, and `raced'` before that of the timers; what they push while the items are
popped lands behind them and is a later step. -/
def CrossThreadQueue.drainInto (x : CrossThreadQueue T) (raced raced' : List (Foreign T)) :
    List T × List (Nat × T) × CrossThreadQueue T :=
  if x.wakePending = false then ([], [], (raced ++ raced').foldl foreign x)
  else
    let x := raced.foldl foreign { x with wakePending := false }
    let callbacks := x.queue
    let x := raced'.foldl foreign { x with queue := [] }
    (callbacks, x.timers, { x with timers := [] })

/-! ## 3. The reactor -/

structure Reactor (T : Type*) where
  clock : Clock
  timers : TimerHeap T
  ready : List T
  xthread : CrossThreadQueue T
  -- shared with `TimerHandle.cancel()`
  cancelledTimers : Nat
  batchLeft : Nat
  readySnapshot : Nat
  expired : List T
  deadlineBound : Bool

namespace Reactor

def new : Reactor T where
  clock := ⟨0, false⟩
  timers := .new
  ready := []
  xthread := ⟨[], [], false⟩
  cancelledTimers := 0
  batchLeft := 0
  readySnapshot := 0
  expired := []
  deadlineBound := false

def pushReady (r : Reactor T) (token : T) : Reactor T := { r with ready := r.ready ++ [token] }

/-- Undo a `pop_ready_batched`. -/
def unpopReady (r : Reactor T) (token : T) : Reactor T :=
  { r with ready := token :: r.ready, batchLeft := r.batchLeft + 1 }

/-- Undo a `take_expired` for a timer that was not dispatched. -/
def unpopExpired (r : Reactor T) (token : T) : Reactor T :=
  { r with expired := token :: r.expired }

def scheduleTimer (r : Reactor T) (deadline : Nat) (token : T) : Reactor T :=
  { r with timers := r.timers.schedule deadline token }

def takeGraveyard (r : Reactor T) : List T × Reactor T :=
  (r.timers.takeGraveyard.1, { r with timers := r.timers.takeGraveyard.2 })

/-- Make everything queued right now the dispatch batch. -/
def snapshotBatch (r : Reactor T) : Reactor T :=
  { r with readySnapshot := r.ready.length, batchLeft := r.ready.length }

/-- Fold the readiness watches of a poll into the batch. -/
def absorbIntoBatch (r : Reactor T) : Reactor T := r.snapshotBatch

def absorbCancellations (r : Reactor T) (cancelled : T → Bool) : Reactor T :=
  if r.cancelledTimers = 0 then r
  else
    { r with
      timers := (r.timers.noteCancelled cancelled r.cancelledTimers).1
      cancelledTimers := 0 }

def drainXthread (r : Reactor T) (raced raced' : List (Foreign T)) : Reactor T :=
  let (callbacks, timers, xthread) := r.xthread.drainInto raced raced'
  { r with
    xthread
    ready := r.ready ++ callbacks
    timers := timers.foldl (fun h timer => h.schedule timer.1 timer.2) r.timers }

end Reactor

/-- `pop_expired` leaves a smaller heap when it hands out a token. -/
theorem popExpired_size {cancelled : T → Bool} {h : TimerHeap T} {now : Nat} {token : T}
    (hr : (h.popExpired cancelled now).1 = some token) :
    (h.popExpired cancelled now).2.1.entries.size < h.entries.size := by
  obtain ⟨h₁, marks, hb, hcases⟩ := (TimerHeap.popExpired_expires cancelled h now).cases
  rcases hcases with ⟨hnone, -⟩ | ⟨first, hf, -, -, -, hh, -⟩
  · rw [hr] at hnone
    cases hnone
  obtain ⟨dead, hperm, -, -⟩ := hb.entries
  have hlen := hperm.length_eq
  have hpop := (TimerHeap.popTop_perm hf).length_eq
  simp only [List.length_append, List.length_cons, Array.length_toList] at hlen hpop
  rw [hh]
  omega

/-- The loop of `fire_expired_timers`: the tokens fired, in order. -/
def popAllExpired (cancelled : T → Bool) (now : Nat) (h : TimerHeap T) : List T × TimerHeap T :=
  match _hr : (h.popExpired cancelled now).1 with
  | none => ([], (h.popExpired cancelled now).2.1)
  | some token =>
    let rest := popAllExpired cancelled now (h.popExpired cancelled now).2.1
    (token :: rest.1, rest.2)
termination_by h.entries.size
decreasing_by exact popExpired_size _hr

/-- The loop of `take_batch`: what is queued behind the snapshot goes back to the front. -/
def giveBack (n : Nat) (out ready : List T) : List T × List T :=
  if h : n < out.length then
    giveBack n out.dropLast (out.getLast (List.ne_nil_of_length_pos (by omega)) :: ready)
  else (out, ready)
termination_by out.length
decreasing_by
  rw [List.length_dropLast]
  omega

-- 100 ms
def maxPark : Nat := 100000000

namespace Reactor

/-- Move the timers due behind those collected earlier. -/
def fireExpiredTimers (r : Reactor T) (cancelled : T → Bool) (now : Nat) : Reactor T :=
  match r.timers.entries[0]? with
  | none => r
  | some top =>
    let (time, clock) := r.clock.cached now
    if top.deadline > time then { r with clock }
    else
      let (fired, timers) := popAllExpired cancelled time r.timers
      { r with clock, timers, expired := r.expired ++ fired }

/-- The bookkeeping shared by the start of a tick and the end of a park. -/
def collect (r : Reactor T) (cancelled : T → Bool) (now : Nat) (raced raced' : List (Foreign T)) :
    Reactor T :=
  (((({ r with clock := r.clock.invalidate } : Reactor T).absorbCancellations cancelled).drainXthread
    raced raced').fireExpiredTimers cancelled now).snapshotBatch

def prepareTick (r : Reactor T) (cancelled : T → Bool) (now : Nat) (raced raced' : List (Foreign T)) :
    Reactor T := r.collect cancelled now raced raced'

/-- The timeout in nanoseconds. -/
def pollTimeout (r : Reactor T) (cancelled : T → Bool) (now : Nat) : Nat × Reactor T :=
  let r := { r with deadlineBound := false }
  if ¬ r.ready = [] ∨ ¬ r.expired = [] then (0, r)
  else
    let (deadline, timers, _) := r.timers.nextDeadline cancelled
    let r := { r with timers }
    match deadline with
    | none => (maxPark, r)
    | some deadline =>
      let (time, clock) := r.clock.cached now
      let r := { r with clock }
      if deadline ≤ time then (0, r)
      else (min (deadline - time) maxPark, { r with deadlineBound := deadline - time ≤ maxPark })

def finishPollAfter (r : Reactor T) (parked : Bool) (cancelled : T → Bool) (now : Nat)
    (raced raced' : List (Foreign T)) : Reactor T :=
  if parked then r.collect cancelled now raced raced' else r

/-- The whole dispatch batch, into `out`. -/
def takeBatch (r : Reactor T) (out : List T) : List T × Reactor T :=
  let n := r.batchLeft
  let r := { r with batchLeft := 0 }
  if n = 0 then (out, r)
  else
    -- the queue and `out` trade places
    let (out, ready) := giveBack n r.ready out
    (out, { r with ready })

/-- One token of the dispatch batch. -/
def popReadyBatched (r : Reactor T) : Option T × Reactor T :=
  if r.batchLeft = 0 then (none, r)
  else
    let r := { r with batchLeft := r.batchLeft - 1 }
    match r.ready with
    | [] => (none, r)
    | token :: ready => (some token, { r with ready })

/-- The number of timers appended, and the batch with them at its tail. -/
def takeExpired (r : Reactor T) (out : List T) : Nat × List T × Reactor T :=
  (r.expired.length, out ++ r.expired, { r with expired := [] })

end Reactor

/-! ## 4. `take_batch` -/

theorem giveBack_eq (n : Nat) (out ready : List T) :
    giveBack n out ready = (out.take n, out.drop n ++ ready) := by
  induction out, ready using giveBack.induct n with
  | case1 out ready h ih =>
    have hne : out ≠ [] := List.ne_nil_of_length_pos (by omega)
    have hsplit : out.dropLast ++ [out.getLast hne] = out := List.dropLast_append_getLast hne
    have hle : n ≤ out.dropLast.length := by
      rw [List.length_dropLast]
      omega
    rw [giveBack, dif_pos h, ih]
    have htake : out.take n = out.dropLast.take n := by
      conv_lhs => rw [← hsplit]
      exact List.take_append_of_le_length hle
    have hdrop : out.drop n = out.dropLast.drop n ++ [out.getLast hne] := by
      conv_lhs => rw [← hsplit]
      exact List.drop_append_of_le_length hle
    rw [htake, hdrop, List.append_assoc]
    rfl
  | case2 out ready h =>
    rw [giveBack, dif_neg h, List.take_of_length_le (by omega), List.drop_eq_nil_of_le (by omega)]
    rfl

theorem takeBatch_eq (r : Reactor T) : r.takeBatch [] = (r.ready.take r.batchLeft,
    { r with batchLeft := 0, ready := r.ready.drop r.batchLeft }) := by
  unfold Reactor.takeBatch
  dsimp only
  split
  · rename_i hn
    rw [hn]
    rfl
  · rw [giveBack_eq, List.append_nil]

/-- `pop_ready_batched` until it answers `None`, at most `n` times. -/
def popAll : Nat → Reactor T → List T × Reactor T
  | 0, r => ([], r)
  | n + 1, r =>
    match r.popReadyBatched with
    | (none, r) => ([], r)
    | (some token, r) => (token :: (popAll n r).1, (popAll n r).2)

/-- The batch taken at once is the batch taken one by one: the same tokens in the same order, and
the same tokens are left. -/
theorem popAll_eq_takeBatch (r : Reactor T) {n : Nat} (hn : r.batchLeft ≤ n) :
    (popAll n r).1 = (r.takeBatch []).1 ∧ (popAll n r).2.ready = (r.takeBatch []).2.ready := by
  rw [takeBatch_eq]
  induction n generalizing r with
  | zero =>
    rw [Nat.le_zero.mp hn]
    exact ⟨rfl, rfl⟩
  | succ n ih =>
    unfold popAll Reactor.popReadyBatched
    by_cases hleft : r.batchLeft = 0
    · rw [if_pos hleft, hleft]
      exact ⟨rfl, rfl⟩
    rw [if_neg hleft]
    cases hready : r.ready with
    | nil =>
      rw [List.take_nil, List.drop_nil]
      exact ⟨rfl, rfl⟩
    | cons token ready =>
      obtain ⟨left, hleft⟩ := Nat.exists_eq_succ_of_ne_zero hleft
      have hih := ih { r with ready, batchLeft := left } (by
        show left ≤ n
        omega)
      rw [hleft, Nat.succ_eq_add_one, List.take_succ_cons, List.drop_succ_cons]
      exact ⟨congrArg (token :: ·) hih.1, hih.2⟩

end Cadeloop.Core.Tick
