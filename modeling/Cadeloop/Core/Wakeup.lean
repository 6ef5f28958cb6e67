import Cadeloop.Reasoning.Machine

/-!
# Cross-thread wakeups (`crates/core/src/ready.rs`, `backend/epoll.rs`, `reactor.rs`)

Any number of threads hand items to the loop thread, which may be blocked in `epoll_wait`.  Two
flags save kernel calls: `wake_pending` says that somebody has seen to the wakeup, `armed` that
the eventfd has a tick the loop did not consume.  One step here is one access to what the threads
share, and the steps interleave in any order.
-/

namespace Cadeloop.Core.Wakeup

open Cadeloop.Reasoning

/-! ## 1. What the threads share -/

structure Shared (α : Type*) where
  queue : List α
  -- with their deadlines
  timers : List (Nat × α)
  wakePending : Bool
  armed : Bool
  eventfd : Nat
  -- everything pushed, and everything the drains handed on, since the start
  pushed : List α
  pushedTimers : List (Nat × α)
  drained : List α
  scheduled : List (Nat × α)

variable {ι α : Type*}

def Shared.new : Shared α :=
  { queue := [], timers := [], wakePending := false, armed := false, eventfd := 0, pushed := [],
    pushedTimers := [], drained := [], scheduled := [] }

/-! ## 2. The producers -/

inductive Producer where
  | idle
  -- the item is in the queue: about to swap `wake_pending`
  | enqueued
  -- told to wake the backend: about to swap `armed`
  | waking
  -- about to write the eventfd
  | writing
  deriving DecidableEq

inductive Call (α : Type*) where
  | push (item : α)
  | pushTimer (deadline : Nat) (item : α)
  -- `wake` alone, as `stop` calls it
  | wake

/-- The first step of a call. -/
def Producer.start (m : Shared α) : Call α → Shared α × Producer
  | .push item => ({ m with queue := m.queue ++ [item], pushed := m.pushed ++ [item] }, .enqueued)
  | .pushTimer deadline item =>
    ({ m with
        timers := m.timers ++ [(deadline, item)]
        pushedTimers := m.pushedTimers ++ [(deadline, item)] }, .enqueued)
  | .wake => (m, .waking)

-- a write that would overflow the counter is refused with EAGAIN
def eventfdWrite (n : Nat) : Nat := if n + 1 ≤ 2 ^ 64 - 2 then n + 1 else n

/-- The other steps of `push` and `wake`. -/
def Producer.step (m : Shared α) : Producer → Option (Shared α × Producer)
  | .idle => none
  | .enqueued =>
    some ({ m with wakePending := true }, if m.wakePending then .idle else .waking)
  | .waking => some ({ m with armed := true }, if m.armed then .idle else .writing)
  | .writing => some ({ m with eventfd := eventfdWrite m.eventfd }, .idle)

/-! ## 3. The loop thread -/

-- where `drain_into` is
inductive Drain where
  | test
  | clear
  | bound
  | pop (left : Nat)
  | timersEmpty
  | timersLen
  | popTimer (left : Nat)

/-- One step of `drain_into`; `none` when it returns. -/
def Drain.step (m : Shared α) : Drain → Shared α × Option Drain
  | .test => (m, if m.wakePending then some .clear else none)
  | .clear => ({ m with wakePending := false }, some .bound)
  | .bound => (m, some (.pop m.queue.length))
  | .pop 0 => (m, some .timersEmpty)
  | .pop (left + 1) =>
    match m.queue with
    | [] => (m, some .timersEmpty)
    | item :: queue => ({ m with queue, drained := m.drained ++ [item] }, some (.pop left))
  | .timersEmpty => (m, if m.timers.isEmpty then none else some .timersLen)
  | .timersLen => (m, some (.popTimer m.timers.length))
  | .popTimer 0 => (m, none)
  | .popTimer (left + 1) =>
    match m.timers with
    | [] => (m, none)
    | timer :: timers =>
      ({ m with timers, scheduled := m.scheduled ++ [timer] }, some (.popTimer left))

inductive Loop where
  -- `drain_xthread`, in `prepare_tick` or in `finish_poll_after(true)`
  | drain (d : Drain) (finish : Bool)
  -- `poll`, before any kernel call
  | poll
  -- blocked in `epoll_wait` with a timeout
  | parked
  -- the eventfd was among the events; `after` is whether a drain follows the poll
  | read (after : Bool)
  | disarm (after : Bool)
  | polled (after : Bool)
  -- the rest of the tick
  | dispatch

-- what the program alone does not settle: which poll is made, and what the kernel answers
inductive Turn where
  | next
  -- a zero timeout: no kernel call, or one that does not block
  | elide
  | look (seen : Bool)
  -- the spin before parking looked and found something
  | spin (seen : Bool)
  | park
  -- the park ends by the eventfd, or by another descriptor, the timeout or a signal
  | woken
  | unrelated
  -- `epoll_wait` failed: the tick ends there
  | fail

-- a poll that reports the eventfd found it readable
def Loop.looked (m : Shared α) (seen after : Bool) : Option (Shared α × Loop) :=
  if seen then if 0 < m.eventfd then some (m, .read after) else none else some (m, .polled after)

def Loop.after (finish : Bool) : Option Drain → Loop
  | some d => .drain d finish
  | none => if finish then .dispatch else .poll

def Loop.step (m : Shared α) : Loop → Turn → Option (Shared α × Loop)
  | .drain d finish, .next =>
    let r := d.step m
    some (r.1, Loop.after finish r.2)
  | .poll, .elide => some (m, .polled false)
  | .poll, .look seen => Loop.looked m seen false
  | .poll, .spin seen => Loop.looked m seen true
  | .poll, .park => some (m, .parked)
  | .poll, .fail => some (m, .dispatch)
  | .parked, .woken => Loop.looked m true true
  | .parked, .unrelated => Loop.looked m false true
  | .parked, .fail => some (m, .dispatch)
  | .read after, .next => some ({ m with eventfd := 0 }, .disarm after)
  | .disarm after, .next => some ({ m with armed := false }, .polled after)
  | .polled after, .next => some (m, if after then .drain .test true else .dispatch)
  | .dispatch, .next => some (m, .drain .test false)
  | _, _ => none

/-! ## 4. The system -/

structure State (ι α : Type*) where
  shared : Shared α
  producers : ι → Producer
  loop : Loop

inductive Event (ι α : Type*) where
  | call (i : ι) (c : Call α)
  | producer (i : ι)
  | loop (turn : Turn)

def State.new : State ι α := { shared := .new, producers := fun _ => .idle, loop := .dispatch }

def State.step [DecidableEq ι] (s : State ι α) : Event ι α → Option (State ι α)
  | .call i c =>
    if s.producers i = .idle then
      let r := Producer.start s.shared c
      some { s with shared := r.1, producers := Function.update s.producers i r.2 }
    else none
  | .producer i =>
    match (s.producers i).step s.shared with
    | none => none
    | some (shared, p) => some { s with shared, producers := Function.update s.producers i p }
  | .loop turn =>
    match s.loop.step s.shared turn with
    | none => none
    | some (shared, loop) => some { s with shared, loop }

variable (ι α) in
def system [DecidableEq ι] : System (State ι α) (Event ι α) := ⟨.new, State.step⟩

/-! ## 5. The invariant -/

-- how many of the queued callbacks the drain under way is going to take
def Drain.takes (m : Shared α) : Drain → Nat
  | .bound => m.queue.length
  | .pop left => left
  | _ => 0

def Drain.takesTimers (m : Shared α) : Drain → Nat
  | .bound | .pop _ | .timersEmpty | .timersLen => m.timers.length
  | .popTimer left => left
  | _ => 0

def Drain.cleared : Drain → Bool
  | .test | .clear => false
  | _ => true

def Loop.takes (m : Shared α) : Loop → Nat
  | .drain d _ => d.takes m
  | _ => 0

def Loop.takesTimers (m : Shared α) : Loop → Nat
  | .drain d _ => d.takesTimers m
  | _ => 0

theorem Loop.takes_congr {m m' : Shared α} (h : m'.queue = m.queue) {l : Loop} :
    l.takes m' = l.takes m := by
  cases l with
  | drain d finish => cases d <;> simp only [Loop.takes, Drain.takes, h]
  | _ => rfl

theorem Loop.takesTimers_congr {m m' : Shared α} (h : m'.timers = m.timers) {l : Loop} :
    l.takesTimers m' = l.takesTimers m := by
  cases l with
  | drain d finish => cases d <;> simp only [Loop.takesTimers, Drain.takesTimers, h]
  | _ => rfl

/-- The loop may block before it clears `wake_pending` again. -/
def Loop.mayPark : Loop → Bool
  | .drain d finish => !finish && d.cleared
  | .poll | .parked => true
  | _ => false

/-- Some thread is at this point. -/
def State.at (s : State ι α) (p : Producer) : Prop := ∃ i, s.producers i = p

/-- Whoever is responsible for the next wakeup: items beyond the drain have a raised flag or a
producer about to raise it; a raised flag has an armed backend or a producer about to arm it; an
armed backend has a readable eventfd or a producer about to write it. -/
structure Inv (s : State ι α) : Prop where
  queue : s.shared.wakePending = false → s.loop.takes s.shared < s.shared.queue.length →
    s.at .enqueued
  timers : s.shared.wakePending = false → s.loop.takesTimers s.shared < s.shared.timers.length →
    s.at .enqueued
  pending : s.loop.mayPark = true → s.shared.wakePending = true →
    s.shared.armed = true ∨ s.at .waking
  armed : s.shared.armed = true → (∀ after, s.loop ≠ .disarm after) →
    0 < s.shared.eventfd ∨ s.at .writing
  pushed : s.shared.pushed = s.shared.drained ++ s.shared.queue
  pushedTimers : s.shared.pushedTimers = s.shared.scheduled ++ s.shared.timers

theorem Inv.new : Inv (.new : State ι α) where
  queue _ h := absurd h (Nat.lt_irrefl 0)
  timers _ h := absurd h (Nat.lt_irrefl 0)
  pending h := by cases h
  armed h := by cases h
  pushed := rfl
  pushedTimers := rfl

section Producers

variable [DecidableEq ι] {s : State ι α} {i : ι}

-- a thread that leaves one point leaves the others to those who are there
theorem State.at_of_ne {m : Shared α} {l : Loop} {p q : Producer} (h : s.at p)
    (hne : s.producers i ≠ p) :
    State.at (⟨m, Function.update s.producers i q, l⟩ : State ι α) p := by
  obtain ⟨j, hj⟩ := h
  have hji : j ≠ i := by
    rintro rfl
    exact hne hj
  exact ⟨j, (Function.update_of_ne hji _ _).trans hj⟩

theorem State.at_self {m : Shared α} {l : Loop} {p : Producer} :
    State.at (⟨m, Function.update s.producers i p, l⟩ : State ι α) p :=
  ⟨i, Function.update_self _ _ _⟩

theorem eventfdWrite_pos (n : Nat) : 0 < eventfdWrite n := by
  unfold eventfdWrite
  split <;> omega

theorem Inv.call (h : Inv s) (c : Call α) (hidle : s.producers i = .idle) :
    Inv { s with
      shared := (Producer.start s.shared c).1
      producers := Function.update s.producers i (Producer.start s.shared c).2 } := by
  have hne : ∀ p, p ≠ Producer.idle → s.producers i ≠ p := by
    rintro p hp heq
    exact hp (heq.symm.trans hidle)
  have henqueued := hne .enqueued (by decide)
  have hwaking := hne .waking (by decide)
  have hwriting := hne .writing (by decide)
  cases c with
  | push item =>
    refine ⟨fun _ _ => State.at_self, fun hp hlt => State.at_of_ne (h.timers hp ?_) henqueued,
      fun hl hp => ?_, fun ha hl => ?_, ?_, h.pushedTimers⟩
    · rwa [Loop.takesTimers_congr rfl] at hlt
    · exact (h.pending hl hp).imp_right fun hat => State.at_of_ne hat hwaking
    · exact (h.armed ha hl).imp_right fun hat => State.at_of_ne hat hwriting
    · show s.shared.pushed ++ [item] = s.shared.drained ++ (s.shared.queue ++ [item])
      rw [h.pushed, List.append_assoc]
  | pushTimer deadline item =>
    refine ⟨fun hp hlt => State.at_of_ne (h.queue hp ?_) henqueued, fun _ _ => State.at_self,
      fun hl hp => ?_, fun ha hl => ?_, h.pushed, ?_⟩
    · rwa [Loop.takes_congr rfl] at hlt
    · exact (h.pending hl hp).imp_right fun hat => State.at_of_ne hat hwaking
    · exact (h.armed ha hl).imp_right fun hat => State.at_of_ne hat hwriting
    · show s.shared.pushedTimers ++ [_] = s.shared.scheduled ++ (s.shared.timers ++ [_])
      rw [h.pushedTimers, List.append_assoc]
  | wake =>
    exact ⟨fun hp hlt => State.at_of_ne (h.queue hp hlt) henqueued,
      fun hp hlt => State.at_of_ne (h.timers hp hlt) henqueued, fun _ _ => .inr State.at_self,
      fun ha hl => (h.armed ha hl).imp_right fun hat => State.at_of_ne hat hwriting, h.pushed,
      h.pushedTimers⟩

theorem Inv.producer (h : Inv s) {m : Shared α} {p : Producer}
    (hstep : (s.producers i).step s.shared = some (m, p)) :
    Inv { s with shared := m, producers := Function.update s.producers i p } := by
  cases hpc : s.producers i with
  | idle =>
    rw [hpc] at hstep
    cases hstep
  | enqueued =>
    rw [hpc] at hstep
    injection hstep with hstep
    injection hstep with hm hp
    subst hm hp
    -- whatever was owed by this thread is now owed by the flag it raised
    refine ⟨fun hp => (by cases hp), fun hp => (by cases hp), fun hl _ => ?_, fun ha hl => ?_,
      h.pushed, h.pushedTimers⟩
    · cases hw : s.shared.wakePending with
      | true =>
        exact (h.pending hl hw).imp_right fun hat => State.at_of_ne hat (by rw [hpc]; decide)
      | false => exact .inr State.at_self
    · exact (h.armed ha hl).imp_right fun hat => State.at_of_ne hat (by rw [hpc]; decide)
  | waking =>
    rw [hpc] at hstep
    injection hstep with hstep
    injection hstep with hm hp
    subst hm hp
    have henqueued : s.producers i ≠ .enqueued := by rw [hpc]; decide
    refine ⟨fun hp hlt => State.at_of_ne (h.queue hp ?_) henqueued,
      fun hp hlt => State.at_of_ne (h.timers hp ?_) henqueued, fun _ _ => .inl rfl, fun _ hl => ?_,
      h.pushed, h.pushedTimers⟩
    · rwa [Loop.takes_congr rfl] at hlt
    · rwa [Loop.takesTimers_congr rfl] at hlt
    · cases ha : s.shared.armed with
      | true => exact (h.armed ha hl).imp_right fun hat => State.at_of_ne hat (by rw [hpc]; decide)
      | false => exact .inr State.at_self
  | writing =>
    rw [hpc] at hstep
    injection hstep with hstep
    injection hstep with hm hp
    subst hm hp
    have henqueued : s.producers i ≠ .enqueued := by rw [hpc]; decide
    refine ⟨fun hp hlt => State.at_of_ne (h.queue hp ?_) henqueued,
      fun hp hlt => State.at_of_ne (h.timers hp ?_) henqueued, fun hl hp => ?_,
      fun _ _ => .inl (eventfdWrite_pos _), h.pushed, h.pushedTimers⟩
    · rwa [Loop.takes_congr rfl] at hlt
    · rwa [Loop.takesTimers_congr rfl] at hlt
    · exact (h.pending hl hp).imp_right fun hat => State.at_of_ne hat (by rw [hpc]; decide)

end Producers

section LoopThread

variable {s : State ι α}

/-- A step of the loop that only moves it on, past no item it was to take. -/
theorem Inv.move (h : Inv s) {l : Loop}
    (htakes : l.takes s.shared < s.shared.queue.length →
      s.loop.takes s.shared < s.shared.queue.length)
    (htimers : l.takesTimers s.shared < s.shared.timers.length →
      s.loop.takesTimers s.shared < s.shared.timers.length)
    (hpark : l.mayPark = true → s.loop.mayPark = true ∨ s.shared.wakePending = false)
    (harm : ∀ after, s.loop ≠ .disarm after) : Inv { s with loop := l } where
  queue hp hlt := h.queue hp (htakes hlt)
  timers hp hlt := h.timers hp (htimers hlt)
  pending hl hp := by
    rcases hpark hl with hmay | hclear
    · exact h.pending hmay hp
    · have hp : s.shared.wakePending = true := hp
      rw [hclear] at hp
      cases hp
  armed ha _ := h.armed ha harm
  pushed := h.pushed
  pushedTimers := h.pushedTimers

-- a drain that is over takes nothing
theorem Loop.after_takes {m : Shared α} {finish : Bool} {n : Nat}
    (h : (Loop.after finish none).takes m < n) : 0 < n := by
  cases finish <;> exact h

theorem Loop.after_takesTimers {m : Shared α} {finish : Bool} {n : Nat}
    (h : (Loop.after finish none).takesTimers m < n) : 0 < n := by
  cases finish <;> exact h

theorem Inv.drain (h : Inv s) {d : Drain} {finish : Bool} (hloop : s.loop = .drain d finish) :
    Inv { s with
      shared := (d.step s.shared).1
      loop := Loop.after finish (d.step s.shared).2 } := by
  have harm : ∀ after, s.loop ≠ .disarm after := by
    intro after
    rw [hloop]
    simp
  -- once cleared, the flag is watched by `pending` also when the drain is over
  have hpark : d.cleared = true → ∀ d', (Loop.after finish d').mayPark = true →
      s.loop.mayPark = true := by
    intro hd d' hmay
    rw [hloop, Loop.mayPark, hd]
    cases finish with
    | false => rfl
    | true => cases d' <;> cases hmay
  cases d with
  | test =>
    rw [Drain.step]
    cases hp : s.shared.wakePending with
    | false =>
      exact h.move (by rw [hloop]; exact Loop.after_takes)
        (by rw [hloop]; exact Loop.after_takesTimers) (fun _ => .inr hp) harm
    | true =>
      refine h.move (by rw [hloop]; exact id) (by rw [hloop]; exact id) (fun hmay => ?_) harm
      cases finish <;> cases hmay
  | clear =>
    refine ⟨fun _ hlt => absurd hlt (Nat.lt_irrefl _), fun _ hlt => absurd hlt (Nat.lt_irrefl _),
      fun _ hp => (by cases hp), fun ha _ => h.armed ha harm, h.pushed, h.pushedTimers⟩
  | bound =>
    exact h.move (by rw [hloop]; exact id) (by rw [hloop]; exact id)
      (fun hmay => .inl (hpark rfl _ hmay)) harm
  | pop left =>
    cases left with
    | zero =>
      exact h.move (by rw [hloop]; exact id) (by rw [hloop]; exact id)
        (fun hmay => .inl (hpark rfl _ hmay)) harm
    | succ left =>
      rw [Drain.step]
      cases hq : s.shared.queue with
      | nil =>
        exact h.move (by rw [hq]; exact fun hlt => absurd hlt (Nat.not_lt_zero _))
          (by rw [hloop]; exact id) (fun hmay => .inl (hpark rfl _ hmay)) harm
      | cons item queue =>
        refine ⟨fun hp hlt => h.queue hp ?_, fun hp hlt => h.timers hp ?_,
          fun hl hp => h.pending (hpark rfl (some (.pop left)) hl) hp, fun ha _ => h.armed ha harm, ?_,
          h.pushedTimers⟩
        · rw [hloop, hq]
          exact Nat.succ_lt_succ hlt
        · rw [hloop]
          exact hlt
        · show s.shared.pushed = s.shared.drained ++ [item] ++ queue
          rw [h.pushed, hq, List.append_assoc]
          rfl
  | timersEmpty =>
    rw [Drain.step]
    cases ht : s.shared.timers with
    | nil =>
      exact h.move (by rw [hloop]; exact Loop.after_takes)
        (by rw [ht]; exact fun hlt => absurd hlt (Nat.not_lt_zero _))
        (fun hmay => .inl (hpark rfl _ hmay)) harm
    | cons timer timers =>
      exact h.move (by rw [hloop]; exact id) (by rw [hloop]; exact id)
        (fun hmay => .inl (hpark rfl _ hmay)) harm
  | timersLen =>
    exact h.move (by rw [hloop]; exact id) (by rw [hloop]; exact id)
      (fun hmay => .inl (hpark rfl _ hmay)) harm
  | popTimer left =>
    cases left with
    | zero =>
      exact h.move (by rw [hloop]; exact Loop.after_takes)
        (by rw [hloop]; exact Loop.after_takesTimers)
        (fun hmay => .inl (hpark rfl _ hmay)) harm
    | succ left =>
      rw [Drain.step]
      cases ht : s.shared.timers with
      | nil =>
        exact h.move (by rw [hloop]; exact Loop.after_takes)
          (by rw [ht]; exact fun hlt => absurd hlt (Nat.not_lt_zero _))
          (fun hmay => .inl (hpark rfl _ hmay)) harm
      | cons timer timers =>
        refine ⟨fun hp hlt => h.queue hp ?_, fun hp hlt => h.timers hp ?_,
          fun hl hp => h.pending (hpark rfl (some (.popTimer left)) hl) hp, fun ha _ => h.armed ha harm, h.pushed, ?_⟩
        · rw [hloop]
          exact hlt
        · rw [hloop, ht]
          exact Nat.succ_lt_succ hlt
        · show s.shared.pushedTimers = s.shared.scheduled ++ [timer] ++ timers
          rw [h.pushedTimers, ht, List.append_assoc]
          rfl

-- outside the drains nothing is being taken
theorem Inv.move_outside (h : Inv s) {l : Loop} (htakes : s.loop.takes s.shared = 0)
    (htimers : s.loop.takesTimers s.shared = 0)
    (hpark : l.mayPark = true → s.loop.mayPark = true) (harm : ∀ after, s.loop ≠ .disarm after) :
    Inv { s with loop := l } :=
  h.move (fun hlt => htakes ▸ Nat.zero_lt_of_lt hlt)
    (fun hlt => htimers ▸ Nat.zero_lt_of_lt hlt) (fun hmay => .inl (hpark hmay)) harm

theorem Inv.looked (h : Inv s) (hloop : s.loop = .poll ∨ s.loop = .parked) {seen after : Bool}
    {m : Shared α} {l : Loop} (hstep : Loop.looked s.shared seen after = some (m, l)) :
    Inv { s with shared := m, loop := l } := by
  have hmove : ∀ l : Loop, l.mayPark = false → Inv { s with loop := l } := by
    intro l hl
    apply h.move_outside
    · rcases hloop with hloop | hloop <;> rw [hloop] <;> rfl
    · rcases hloop with hloop | hloop <;> rw [hloop] <;> rfl
    · intro hmay
      rw [hl] at hmay
      cases hmay
    · rcases hloop with hloop | hloop <;> rw [hloop] <;> simp
  rw [Loop.looked] at hstep
  split at hstep
  · split at hstep
    · injection hstep with hstep
      injection hstep with hm hl
      subst hm hl
      exact hmove (.read after) rfl
    · cases hstep
  · injection hstep with hstep
    injection hstep with hm hl
    subst hm hl
    exact hmove (.polled after) rfl

theorem Inv.loop (h : Inv s) {turn : Turn} {m : Shared α} {l : Loop}
    (hstep : s.loop.step s.shared turn = some (m, l)) : Inv { s with shared := m, loop := l } := by
  cases hloop : s.loop with
  | drain d finish =>
    cases turn <;> rw [hloop] at hstep <;> try cases hstep
    exact h.drain hloop
  | poll =>
    rw [hloop] at hstep
    cases turn with
    | look seen => exact h.looked (.inl hloop) hstep
    | spin seen => exact h.looked (.inl hloop) hstep
    | elide | park | fail =>
      injection hstep with hstep
      injection hstep with hm hl
      subst hm hl
      exact h.move_outside (by rw [hloop]; rfl) (by rw [hloop]; rfl) (fun _ => by rw [hloop]; rfl)
        (by rw [hloop]; simp)
    | next | woken | unrelated => cases hstep
  | parked =>
    rw [hloop] at hstep
    cases turn with
    | woken => exact h.looked (.inr hloop) hstep
    | unrelated => exact h.looked (.inr hloop) hstep
    | fail =>
      injection hstep with hstep
      injection hstep with hm hl
      subst hm hl
      exact h.move_outside (by rw [hloop]; rfl) (by rw [hloop]; rfl) (fun _ => by rw [hloop]; rfl)
        (by rw [hloop]; simp)
    | next | elide | look _ | spin _ | park => cases hstep
  | read after =>
    cases turn <;> rw [hloop] at hstep <;> try cases hstep
    -- the tick consumed here is accounted for by the store to come
    refine ⟨fun hp hlt => h.queue hp ?_, fun hp hlt => h.timers hp ?_, fun hl => (by cases hl),
      fun _ hne => absurd rfl (hne after), h.pushed, h.pushedTimers⟩
    · rw [hloop]
      exact hlt
    · rw [hloop]
      exact hlt
  | disarm after =>
    cases turn <;> rw [hloop] at hstep <;> try cases hstep
    refine ⟨fun hp hlt => h.queue hp ?_, fun hp hlt => h.timers hp ?_, fun hl => (by cases hl),
      fun ha => (by cases ha), h.pushed, h.pushedTimers⟩
    · rw [hloop]
      exact hlt
    · rw [hloop]
      exact hlt
  | polled after =>
    cases turn <;> rw [hloop] at hstep <;> try cases hstep
    apply h.move_outside
    · rw [hloop]
      rfl
    · rw [hloop]
      rfl
    · cases after <;> exact fun hmay => (by cases hmay)
    · rw [hloop]
      simp
  | dispatch =>
    cases turn <;> rw [hloop] at hstep <;> try cases hstep
    exact h.move_outside (by rw [hloop]; rfl) (by rw [hloop]; rfl) (fun hmay => (by cases hmay))
      (by rw [hloop]; simp)

end LoopThread

/-! ## 6. Every interleaving -/

theorem Inv.step [DecidableEq ι] {s s' : State ι α} {e : Event ι α} (hstep : s.step e = some s')
    (h : Inv s) : Inv s' := by
  cases e with
  | call i c =>
    rw [State.step] at hstep
    split at hstep
    · rename_i hidle
      injection hstep with hstep
      subst hstep
      exact h.call c hidle
    · cases hstep
  | producer i =>
    rw [State.step] at hstep
    split at hstep
    · cases hstep
    · rename_i hp
      injection hstep with hstep
      subst hstep
      exact h.producer hp
  | loop turn =>
    rw [State.step] at hstep
    split at hstep
    · cases hstep
    · rename_i hl
      injection hstep with hstep
      subst hstep
      exact h.loop hl

/-- **No wakeup is lost**: where the loop is blocked and every producer is done, nothing is queued
or the eventfd is readable.  And items leave the queues once each, in the order of the pushes: what
was drained is a prefix of what was pushed, what is queued the rest. -/
theorem no_lost_wakeup [DecidableEq ι] {s : State ι α} (h : (system ι α).Reachable s) :
    (s.loop = .parked → (∀ i, s.producers i = .idle) →
      (s.shared.queue = [] ∧ s.shared.timers = []) ∨ 0 < s.shared.eventfd) ∧
      s.shared.pushed = s.shared.drained ++ s.shared.queue ∧
      s.shared.pushedTimers = s.shared.scheduled ++ s.shared.timers := by
  have hinv : Inv s := (system ι α).invariant Inv.new (fun _ _ _ hstep h => h.step hstep) h
  refine ⟨fun hparked hidle => ?_, hinv.pushed, hinv.pushedTimers⟩
  have hnobody : ∀ p, p ≠ Producer.idle → ¬ s.at p := by
    rintro p hp ⟨i, hi⟩
    exact hp (hi.symm.trans (hidle i))
  cases hw : s.shared.wakePending with
  | false =>
    left
    constructor
    · by_contra hne
      refine hnobody .enqueued (by decide) (hinv.queue hw ?_)
      rw [hparked]
      exact List.length_pos_iff.mpr hne
    · by_contra hne
      refine hnobody .enqueued (by decide) (hinv.timers hw ?_)
      rw [hparked]
      exact List.length_pos_iff.mpr hne
  | true =>
    right
    have harmed : s.shared.armed = true :=
      (hinv.pending (by rw [hparked]; rfl) hw).resolve_right (hnobody .waking (by decide))
    exact (hinv.armed harmed (by rw [hparked]; simp)).resolve_right
      (hnobody .writing (by decide))

def twoPushes : List (Event Bool Nat) :=
  [.loop .next, .loop .next, .call false (.push 7), .loop .park, .producer false,
    .call true (.push 8), .producer true, .producer false, .producer false]

/-- Two threads push to a loop that parks meanwhile; the second leaves the wakeup to the first. -/
theorem no_lost_wakeup_two : ∃ s, (system Bool Nat).replay twoPushes = some s ∧
    s.loop = .parked ∧ s.shared.queue = [7, 8] ∧ 0 < s.shared.eventfd := by
  obtain ⟨s, hs, hparked, hidle, hqueue⟩ : ∃ s, (system Bool Nat).replay twoPushes = some s ∧
      s.loop = .parked ∧ (∀ i, s.producers i = .idle) ∧ s.shared.queue = [7, 8] :=
    ⟨_, rfl, rfl, by decide, rfl⟩
  refine ⟨s, hs, hparked, hqueue, ?_⟩
  refine ((no_lost_wakeup ⟨twoPushes, hs⟩).1 hparked hidle).resolve_left fun h => ?_
  rw [hqueue] at h
  cases h.1

end Cadeloop.Core.Wakeup
