import Cadeloop.Core.Reactor

/-!
# Runs of ticks

The reactor under a loop that keeps to the tick: prepare, poll, finish, fold readiness watches in,
take the batch and the expired timers, dispatch them one by one or hand back what an unwind left.
Callbacks and other threads push, schedule and cancel at any point in between.
-/

namespace Cadeloop.Core.Tick

open Cadeloop.Reasoning
open Cadeloop.Core.Timer (TimerHeap Entry Timers Agenda Refines Before)

variable {T : Type*}

/-! ## 1. The loop -/

inductive Phase where
  | idle
  | prepared
  | polled
  -- the batch is taken
  | taken
  | dispatching
  deriving DecidableEq

structure Loop (T : Type*) where
  reactor : Reactor T
  cancelled : T → Bool
  phase : Phase
  -- the dispatch buffer, `timers` expired timers at its tail
  batch : List T
  timers : Nat
  -- everything pushed, through any door
  pushed : List T
  -- what got into the ready queue, and what was dispatched of it
  entered : List T
  ran : List T
  -- what other threads pushed for the ready queue, and what was drained of it
  posted : List T
  drained : List T
  -- (deadline, token), as the heap was given them
  scheduled : List (Nat × T)
  -- what each collection fired, and what was dispatched of it
  collections : List (List T)
  ranTimers : List T
  discarded : List T
  -- the ready queue at the last snapshot, the timers this tick took, what it dispatched so far
  snapshot : List T
  due : List T
  tick : List T

def Loop.new : Loop T where
  reactor := .new
  cancelled := fun _ => false
  phase := .idle
  batch := []
  timers := 0
  pushed := []
  entered := []
  ran := []
  posted := []
  drained := []
  scheduled := []
  collections := []
  ranTimers := []
  discarded := []
  snapshot := []
  due := []
  tick := []

inductive Event (T : Type*) where
  | pushReady (token : T)
  | foreign (step : Foreign T)
  | scheduleTimer (deadline : Nat) (token : T)
  -- the two halves of `TimerHandle.cancel()`: the flag, and the count
  | cancel (token : T)
  | countCancelled
  | takeGraveyard
  | prepareTick (now : Nat) (raced raced' : List (Foreign T))
  | pollTimeout (now : Nat)
  | pollFailed
  | finishPoll (parked : Bool) (now : Nat) (raced raced' : List (Foreign T))
  | absorbIntoBatch
  | takeBatch
  | takeExpired
  | dispatch
  | handBack
  | endTick

-- what a step of another thread pushes, and where
def Foreign.posted : Foreign T → List T
  | .push item => [item]
  | _ => []

def Foreign.timed : Foreign T → List (Nat × T)
  | .pushTimer deadline item => [(deadline, item)]
  | _ => []

def Foreign.pushed (step : Foreign T) : List T := step.posted ++ step.timed.map Prod.snd

/-- What an unwind left of the dispatch buffer goes back. -/
def handBack (r : Reactor T) (batch : List T) (timers : Nat) : Reactor T :=
  if batch = [] then r
  else
    let split := batch.length - min timers batch.length
    let r := (batch.drop split).reverse.foldl Reactor.unpopExpired r
    (batch.take split).reverse.foldl Reactor.unpopReady r

/-- The records of a collection: what it drained, scheduled and fired, and the new snapshot. -/
def Loop.collected (s : Loop T) (reactor : Reactor T) (raced raced' : List (Foreign T)) : Loop T :=
  { s with
    reactor
    pushed := s.pushed ++ (raced ++ raced').flatMap Foreign.pushed
    entered := s.entered ++ (s.reactor.xthread.drainInto raced raced').1
    posted := s.posted ++ (raced ++ raced').flatMap Foreign.posted
    drained := s.drained ++ (s.reactor.xthread.drainInto raced raced').1
    scheduled := s.scheduled ++ (s.reactor.xthread.drainInto raced raced').2.1
    collections := s.collections ++ [reactor.expired.drop s.reactor.expired.length]
    snapshot := reactor.ready }

section Step

variable [DecidableEq T]

def Loop.step (s : Loop T) : Event T → Option (Loop T)
  | .pushReady token =>
    some { s with
      reactor := s.reactor.pushReady token
      pushed := s.pushed ++ [token]
      entered := s.entered ++ [token] }
  | .foreign step =>
    some { s with
      reactor := { s.reactor with xthread := s.reactor.xthread.foreign step }
      pushed := s.pushed ++ step.pushed
      posted := s.posted ++ step.posted }
  | .scheduleTimer deadline token =>
    some { s with
      reactor := s.reactor.scheduleTimer deadline token
      pushed := s.pushed ++ [token]
      scheduled := s.scheduled ++ [(deadline, token)] }
  | .cancel token =>
    some { s with cancelled := fun t => decide (t = token) || s.cancelled t }
  | .countCancelled =>
    some { s with
      reactor := { s.reactor with
        cancelledTimers := (s.reactor.cancelledTimers + 1) % 2 ^ 64 } }
  | .takeGraveyard =>
    some { s with
      reactor := s.reactor.takeGraveyard.2
      discarded := s.discarded ++ s.reactor.takeGraveyard.1 }
  | .prepareTick now raced raced' =>
    if s.phase = .idle then
      some { s.collected (s.reactor.prepareTick s.cancelled now raced raced') raced raced' with
        phase := .prepared, due := [], tick := [] }
    else none
  | .pollTimeout now =>
    if s.phase = .prepared then
      some { s with reactor := (s.reactor.pollTimeout s.cancelled now).2 }
    else none
  | .pollFailed => if s.phase = .prepared then some { s with phase := .idle } else none
  | .finishPoll parked now raced raced' =>
    if s.phase = .prepared then
      let reactor := s.reactor.finishPollAfter parked s.cancelled now raced raced'
      some { (if parked then s.collected reactor raced raced' else { s with reactor }) with
        phase := .polled }
    else none
  | .absorbIntoBatch =>
    if s.phase = .polled then
      some { s with reactor := s.reactor.absorbIntoBatch, snapshot := s.reactor.ready }
    else none
  | .takeBatch =>
    if s.phase = .polled then
      some { s with
        reactor := (s.reactor.takeBatch s.batch).2
        batch := (s.reactor.takeBatch s.batch).1
        phase := .taken }
    else none
  | .takeExpired =>
    if s.phase = .taken then
      some { s with
        reactor := (s.reactor.takeExpired s.batch).2.2
        batch := (s.reactor.takeExpired s.batch).2.1
        timers := (s.reactor.takeExpired s.batch).1
        due := s.reactor.expired
        phase := .dispatching }
    else none
  | .dispatch =>
    if s.phase = .dispatching then
      match s.batch with
      | [] => none
      | token :: batch =>
        -- the ready batch first, then the timers at its tail
        if s.timers < s.batch.length then
          some { s with batch, ran := s.ran ++ [token], tick := s.tick ++ [token] }
        else
          some { s with batch, ranTimers := s.ranTimers ++ [token], tick := s.tick ++ [token] }
    else none
  | .handBack =>
    if s.phase = .dispatching then
      some { s with
        reactor := handBack s.reactor s.batch s.timers, batch := [], phase := .idle }
    else none
  | .endTick =>
    if s.phase = .dispatching ∧ s.batch = [] then some { s with phase := .idle } else none

def loops : System (Loop T) (Event T) := ⟨.new, Loop.step⟩

end Step

-- the two parts of the dispatch buffer
def Loop.readyInHand (s : Loop T) : List T :=
  if s.phase = .dispatching then s.batch.take (s.batch.length - s.timers) else s.batch

def Loop.timersInHand (s : Loop T) : List T :=
  if s.phase = .dispatching then s.batch.drop (s.batch.length - s.timers) else []

/-- A list of tokens in (deadline, scheduling) order. -/
def InOrder (scheduled : List (Nat × T)) (fired : List T) : Prop :=
  ∃ entries : List (Entry T), fired = entries.map Entry.payload ∧ entries.Pairwise Before ∧
    ∀ e ∈ entries, scheduled[e.seq]? = some (e.deadline, e.payload)

/-! ## 2. What leaves the heap -/

/-- `out` left the heap, the rest is in it or in its graveyard. -/
def Leaves (h h' : TimerHeap T) (out : List T) : Prop :=
  (h.payloads ++ h.graveyard).Perm (h'.payloads ++ h'.graveyard ++ out)

theorem Leaves.refl (h : TimerHeap T) : Leaves h h [] := by
  rw [Leaves, List.append_nil]

theorem popAllExpired_none {cancelled : T → Bool} {now : Nat} {h : TimerHeap T}
    (hr : (h.popExpired cancelled now).1 = none) :
    popAllExpired cancelled now h = ([], (h.popExpired cancelled now).2.1) := by
  rw [popAllExpired]
  split
  · rfl
  · rename_i token hsome
    rw [hr] at hsome
    cases hsome

theorem popAllExpired_some {cancelled : T → Bool} {now : Nat} {h : TimerHeap T} (token : T)
    (hr : (h.popExpired cancelled now).1 = some token) :
    popAllExpired cancelled now h =
      (token :: (popAllExpired cancelled now (h.popExpired cancelled now).2.1).1,
        (popAllExpired cancelled now (h.popExpired cancelled now).2.1).2) := by
  rw [popAllExpired]
  split
  · rename_i hnone
    rw [hr] at hnone
    cases hnone
  · rename_i token' hsome
    rw [hr] at hsome
    injection hsome with hsome
    rw [hsome]

section Leaves

variable [DecidableEq T]

theorem Leaves.trans {h h' h'' : TimerHeap T} {out out' : List T} (h₁ : Leaves h h' out)
    (h₂ : Leaves h' h'' out') : Leaves h h'' (out ++ out') := by
  apply List.perm_iff_count.mpr
  intro t
  have hc₁ := h₁.count_eq t
  have hc₂ := h₂.count_eq t
  simp only [List.count_append] at hc₁ hc₂ ⊢
  omega

theorem Leaves.buries {cancelled : T → Bool} {h h' : TimerHeap T} {marks : List T}
    (hb : TimerHeap.Buries cancelled h h' marks) : Leaves h h' [] := by
  apply List.perm_iff_count.mpr
  intro t
  have hc := hb.payloads.1.count_eq t
  simp only [hb.graveyard, List.count_append, List.count_nil] at hc ⊢
  omega

theorem Leaves.popTop {h : TimerHeap T} {first : Entry T} (hf : h.entries[0]? = some first) :
    Leaves h h.popTop [first.payload] := by
  have hgrave : h.popTop.graveyard = h.graveyard := rfl
  apply List.perm_iff_count.mpr
  intro t
  have hc := (TimerHeap.popTop_payloads hf).count_eq t
  simp only [hgrave, List.count_append, List.count_cons, List.count_nil] at hc ⊢
  omega

theorem popExpired_leaves (cancelled : T → Bool) (h : TimerHeap T) (now : Nat) :
    Leaves h (h.popExpired cancelled now).2.1 (h.popExpired cancelled now).1.toList := by
  obtain ⟨h₁, marks, hb, hcases⟩ := (TimerHeap.popExpired_expires cancelled h now).cases
  rcases hcases with ⟨hr, hh, -, -⟩ | ⟨first, hf, -, -, hr, hh, -⟩
  · rw [hr, hh]
    exact .buries hb
  · rw [hr, hh]
    exact (Leaves.buries hb).trans (.popTop hf)

theorem popAllExpired_leaves (cancelled : T → Bool) (now : Nat) (h : TimerHeap T) :
    Leaves h (popAllExpired cancelled now h).2 (popAllExpired cancelled now h).1 := by
  induction h using popAllExpired.induct cancelled now with
  | case1 h hr =>
    have hone := popExpired_leaves cancelled h now
    rw [hr] at hone
    rw [popAllExpired_none hr]
    exact hone
  | case2 h token hr ih =>
    have hone := popExpired_leaves cancelled h now
    rw [hr] at hone
    rw [popAllExpired_some _ hr]
    exact hone.trans ih

theorem schedule_leaves {h h' : TimerHeap T} {out : List T} (hout : Leaves h h' out) (deadline : Nat)
    (token : T) : (token :: (h.payloads ++ h.graveyard)).Perm
      ((h'.schedule deadline token).payloads ++ h'.graveyard ++ out) := by
  apply List.perm_iff_count.mpr
  intro t
  have hc := hout.count_eq t
  have hs := ((h'.schedule_perm deadline token).map Entry.payload).count_eq t
  change (h'.schedule deadline token).payloads.count t = (token :: h'.payloads).count t at hs
  simp only [List.count_append, List.count_cons] at hc hs ⊢
  omega

theorem foldl_schedule_leaves (timers : List (Nat × T)) (h : TimerHeap T) :
    let h' := timers.foldl (fun h timer => h.schedule timer.1 timer.2) h
    (timers.map Prod.snd ++ (h.payloads ++ h.graveyard)).Perm (h'.payloads ++ h'.graveyard) := by
  induction timers generalizing h with
  | nil => exact List.Perm.refl _
  | cons timer timers ih =>
    have hone := schedule_leaves (.refl h) timer.1 timer.2
    rw [List.append_nil] at hone
    have hrest := ih (h.schedule timer.1 timer.2)
    rw [List.map_cons, List.foldl_cons]
    refine List.Perm.trans ?_ hrest
    have hswap : (timer.2 :: (timers.map Prod.snd ++ (h.payloads ++ h.graveyard))).Perm
        (timers.map Prod.snd ++ (timer.2 :: (h.payloads ++ h.graveyard))) :=
      List.perm_middle.symm
    exact hswap.trans (hone.append_left _)

end Leaves

/-! ## 3. What the functions of a tick do -/

theorem foldl_foreign (steps : List (Foreign T)) (x : CrossThreadQueue T) :
    (steps.foldl CrossThreadQueue.foreign x).queue = x.queue ++ steps.flatMap Foreign.posted ∧
      (steps.foldl CrossThreadQueue.foreign x).timers =
        x.timers ++ steps.flatMap Foreign.timed := by
  induction steps generalizing x with
  | nil => exact ⟨(List.append_nil _).symm, (List.append_nil _).symm⟩
  | cons step steps ih =>
    obtain ⟨hqueue, htimers⟩ := ih (x.foreign step)
    have hstep : (x.foreign step).queue = x.queue ++ step.posted ∧
        (x.foreign step).timers = x.timers ++ step.timed := by
      cases step <;> simp [CrossThreadQueue.foreign, Foreign.posted, Foreign.timed]
    rw [List.foldl_cons, List.flatMap_cons, List.flatMap_cons, hqueue, htimers, hstep.1, hstep.2,
      List.append_assoc, List.append_assoc]
    exact ⟨rfl, rfl⟩

theorem count_pushed [DecidableEq T] (steps : List (Foreign T)) (t : T) :
    (steps.flatMap Foreign.pushed).count t = (steps.flatMap Foreign.posted).count t +
      ((steps.flatMap Foreign.timed).map Prod.snd).count t := by
  induction steps with
  | nil => rfl
  | cons step steps ih =>
    simp only [List.flatMap_cons, List.map_append, List.count_append, Foreign.pushed] at ih ⊢
    omega

/-- The tokens of the cross-thread queue, old and new, are drained or still in it, the callbacks
in the order of their pushes. -/
theorem drainInto_eq (x : CrossThreadQueue T) (raced raced' : List (Foreign T)) :
    let d := x.drainInto raced raced'
    x.queue ++ (raced ++ raced').flatMap Foreign.posted = d.1 ++ d.2.2.queue ∧
      x.timers ++ (raced ++ raced').flatMap Foreign.timed = d.2.1 ++ d.2.2.timers := by
  intro d
  by_cases hflag : x.wakePending = false
  · have hd : d = ([], [], (raced ++ raced').foldl CrossThreadQueue.foreign x) := if_pos hflag
    obtain ⟨hqueue, htimers⟩ := foldl_foreign (raced ++ raced') x
    rw [hd]
    exact ⟨hqueue.symm, htimers.symm⟩
  · have hd : d = _ := if_neg hflag
    obtain ⟨hqueue, htimers⟩ := foldl_foreign raced { x with wakePending := false }
    obtain ⟨hqueue', htimers'⟩ := foldl_foreign raced'
      { raced.foldl CrossThreadQueue.foreign { x with wakePending := false } with queue := [] }
    rw [hd]
    dsimp only at hqueue htimers hqueue' htimers' ⊢
    rw [hqueue', htimers', hqueue, htimers]
    simp only [List.flatMap_append, List.append_assoc, List.nil_append, List.append_nil, and_self]

theorem handBack_eq (r : Reactor T) (batch : List T) (timers : Nat) :
    handBack r batch timers =
      { r with
        expired := batch.drop (batch.length - timers) ++ r.expired
        ready := batch.take (batch.length - timers) ++ r.ready
        batchLeft := r.batchLeft + (batch.take (batch.length - timers)).length } := by
  have hexpired : ∀ (l : List T) (r : Reactor T),
      l.reverse.foldl Reactor.unpopExpired r = { r with expired := l ++ r.expired } := by
    intro l r
    induction l with
    | nil => rfl
    | cons t l ih =>
      rw [List.reverse_cons, List.foldl_append, ih]
      rfl
  have hready : ∀ (l : List T) (r : Reactor T), l.reverse.foldl Reactor.unpopReady r =
      { r with ready := l ++ r.ready, batchLeft := r.batchLeft + l.length } := by
    intro l r
    induction l with
    | nil => rfl
    | cons t l ih =>
      rw [List.reverse_cons, List.foldl_append, ih]
      rfl
  have hsplit : batch.length - min timers batch.length = batch.length - timers := by omega
  unfold handBack
  split
  · rename_i hnil
    rw [hnil, List.take_nil, List.drop_nil]
    rfl
  · dsimp only
    rw [hsplit, hexpired, hready]

section Fires

variable [DecidableEq T]

/-- A step of the reactor that fires `fired` and takes `timers` into the heap. -/
structure Fires (r r' : Reactor T) (timers : List (Nat × T)) (fired : List T) : Prop where
  expired : r'.expired = r.expired ++ fired
  heap : (timers.map Prod.snd ++ (r.timers.payloads ++ r.timers.graveyard)).Perm
    (r'.timers.payloads ++ r'.timers.graveyard ++ fired)

theorem fireExpiredTimers_fires (r : Reactor T) (cancelled : T → Bool) (now : Nat) :
    ∃ fired, Fires r (r.fireExpiredTimers cancelled now) [] fired ∧
      (r.fireExpiredTimers cancelled now).ready = r.ready ∧
      (r.fireExpiredTimers cancelled now).xthread = r.xthread := by
  have hnone : ∀ clock, Fires r { r with clock } [] [] := fun clock =>
    ⟨(List.append_nil _).symm, by rw [List.append_nil]; exact List.Perm.refl _⟩
  unfold Reactor.fireExpiredTimers
  split
  · exact ⟨[], hnone _, rfl, rfl⟩
  dsimp only
  split
  · exact ⟨[], hnone _, rfl, rfl⟩
  · exact ⟨_, ⟨rfl, popAllExpired_leaves cancelled _ r.timers⟩, rfl, rfl⟩

theorem absorbCancellations_fires (r : Reactor T) (cancelled : T → Bool) :
    Fires r (r.absorbCancellations cancelled) [] [] ∧
      (r.absorbCancellations cancelled).ready = r.ready ∧
      (r.absorbCancellations cancelled).xthread = r.xthread := by
  unfold Reactor.absorbCancellations
  split
  · exact ⟨⟨(List.append_nil _).symm, Leaves.refl r.timers⟩, rfl, rfl⟩
  · have hb := @TimerHeap.Buries.noteCancelled _ cancelled r.timers r.cancelledTimers
    exact ⟨⟨(List.append_nil _).symm, Leaves.buries hb⟩, rfl, rfl⟩

/-- What the start of a tick and the end of a park do. -/
theorem collect_spec (r : Reactor T) (cancelled : T → Bool) (now : Nat)
    (raced raced' : List (Foreign T)) :
    let d := r.xthread.drainInto raced raced'
    let r' := r.collect cancelled now raced raced'
    (∃ fired, Fires r r' d.2.1 fired) ∧ r'.ready = r.ready ++ d.1 ∧ r'.xthread = d.2.2 ∧
      r'.readySnapshot = r'.ready.length ∧ r'.batchLeft = r'.ready.length := by
  intro d r'
  have hcancel := absorbCancellations_fires { r with clock := r.clock.invalidate } cancelled
  generalize hr₁ : ({ r with clock := r.clock.invalidate } : Reactor T).absorbCancellations
    cancelled = r₁ at hcancel
  obtain ⟨hbury, hready₁, hxthread₁⟩ := hcancel
  have hready₁ : r₁.ready = r.ready := hready₁
  have hxthread₁ : r₁.xthread = r.xthread := hxthread₁
  obtain ⟨fired, hfires, hready₂, hxthread₂⟩ :=
    fireExpiredTimers_fires (r₁.drainXthread raced raced') cancelled now
  have hr' : r' = ((r₁.drainXthread raced raced').fireExpiredTimers cancelled now).snapshotBatch :=
    by rw [← hr₁]; rfl
  have hdrain : r₁.xthread.drainInto raced raced' = d := by rw [hxthread₁]
  have hready : (r₁.drainXthread raced raced').ready = r.ready ++ d.1 := by
    rw [← hready₁, ← hdrain]
    rfl
  refine ⟨⟨fired, ?_, ?_⟩, ?_, ?_, ?_, ?_⟩
  · rw [hr']
    show ((r₁.drainXthread raced raced').fireExpiredTimers cancelled now).expired = _
    rw [hfires.expired]
    show r₁.expired ++ fired = _
    rw [hbury.expired, List.append_nil]
  · have hschedule := foldl_schedule_leaves d.2.1 r₁.timers
    have hheap : (r₁.drainXthread raced raced').timers =
        d.2.1.foldl (fun h timer => h.schedule timer.1 timer.2) r₁.timers := by
      rw [← hdrain]
      rfl
    have hfire := hfires.heap
    rw [hheap] at hfire
    rw [hr']
    refine List.Perm.trans ?_ hfire
    refine List.Perm.trans (List.Perm.append_left _ ?_) hschedule
    have hb := hbury.heap
    rwa [List.append_nil] at hb
  · rw [hr', ← hready, ← hready₂]
    rfl
  · rw [hr', ← hdrain]
    exact hxthread₂
  · rw [hr']
    rfl
  · rw [hr']
    rfl

end Fires

/-! ## 4. The order of the timers -/

theorem InOrder.append {scheduled : List (Nat × T)} {fired : List T} (h : InOrder scheduled fired)
    (more : List (Nat × T)) : InOrder (scheduled ++ more) fired := by
  obtain ⟨entries, hfired, hsorted, hentries⟩ := h
  refine ⟨entries, hfired, hsorted, fun e he => ?_⟩
  have hlt := (List.getElem?_eq_some_iff.mp (hentries e he)).1
  rw [List.getElem?_append_left hlt]
  exact hentries e he

/-- The heap follows an agenda made of what was scheduled. -/
def Follows (cancelled : T → Bool) (h : TimerHeap T) (scheduled : List (Nat × T)) : Prop :=
  ∃ a : Agenda T, Refines ⟨h, cancelled, [], [], []⟩ a ∧ a.count = scheduled.length ∧
    ∀ e ∈ a.pending, scheduled[e.seq]? = some (e.deadline, e.payload)

namespace Follows

variable {cancelled : T → Bool} {h h' : TimerHeap T} {scheduled : List (Nat × T)}

theorem new : Follows cancelled (.new : TimerHeap T) [] :=
  ⟨⟨[], 0, cancelled⟩, ⟨rfl, TimerHeap.ordered_empty rfl, List.Perm.refl _, rfl,
    (fun e he => by cases he), List.Pairwise.nil⟩, rfl, fun e he => by cases he⟩

theorem buries {marks : List T} (hf : Follows cancelled h scheduled)
    (hb : TimerHeap.Buries cancelled h h' marks) : Follows cancelled h' scheduled := by
  obtain ⟨a, href, hcount, hpending⟩ := hf
  exact ⟨a, href.buries hb, hcount, hpending⟩

theorem takeGraveyard (hf : Follows cancelled h scheduled) :
    Follows cancelled h.takeGraveyard.2 scheduled := by
  obtain ⟨a, href, hcount, hpending⟩ := hf
  exact ⟨a, ⟨href.cancelled, href.ordered, href.live, href.seq, href.fresh, href.sorted⟩, hcount,
    hpending⟩

theorem cancel [DecidableEq T] (hf : Follows cancelled h scheduled) (token : T) :
    Follows (fun t => decide (t = token) || cancelled t) h scheduled := by
  obtain ⟨a, href, hcount, hpending⟩ := hf
  exact ⟨_, href.step (.cancel token) (fun hno => absurd rfl hno), hcount, hpending⟩

theorem schedule (hf : Follows cancelled h scheduled) (hlen : scheduled.length < 2 ^ 64)
    (deadline : Nat) (token : T) :
    Follows cancelled (h.schedule deadline token) (scheduled ++ [(deadline, token)]) := by
  obtain ⟨a, href, hcount, hpending⟩ := hf
  refine ⟨_, href.schedule (by rw [hcount]; exact hlen) deadline token, ?_, fun e he => ?_⟩
  · rw [List.length_append, ← hcount]
    rfl
  rcases (List.mem_orderedInsert _).mp he with rfl | he
  · rw [List.getElem?_append_right (by rw [hcount]), hcount, Nat.sub_self]
    rfl
  · have hlt := href.fresh e he
    rw [List.getElem?_append_left (by omega)]
    exact hpending e he

theorem foldl_schedule {timers : List (Nat × T)} (hf : Follows cancelled h scheduled)
    (hlen : (scheduled ++ timers).length ≤ 2 ^ 64) :
    Follows cancelled (timers.foldl (fun h timer => h.schedule timer.1 timer.2) h)
      (scheduled ++ timers) := by
  induction timers generalizing h scheduled with
  | nil =>
    rw [List.append_nil]
    exact hf
  | cons timer timers ih =>
    have happend : scheduled ++ timer :: timers = scheduled ++ [timer] ++ timers := by
      rw [List.append_assoc]
      rfl
    rw [happend] at hlen ⊢
    rw [List.foldl_cons]
    have hlt : scheduled.length < 2 ^ 64 := by
      simp only [List.length_append, List.length_singleton] at hlen
      omega
    exact ih (hf.schedule hlt timer.1 timer.2) hlen

/-- A collection fires what is due, in the order of the agenda. -/
theorem popAllExpired [DecidableEq T] (now : Nat) (hf : Follows cancelled h scheduled) :
    Follows cancelled (Tick.popAllExpired cancelled now h).2 scheduled ∧
      InOrder scheduled (Tick.popAllExpired cancelled now h).1 := by
  obtain ⟨a, href, hcount, hpending⟩ := hf
  suffices hsuff : Follows cancelled (Tick.popAllExpired cancelled now h).2 scheduled ∧
      (Tick.popAllExpired cancelled now h).1 = (a.due now).map Entry.payload by
    refine ⟨hsuff.1, a.due now, hsuff.2, href.live_sorted.filter _, fun e he => ?_⟩
    exact hpending e (List.mem_filter.mp (List.mem_filter.mp he).1).1
  induction h using popAllExpired.induct cancelled now generalizing a with
  | case1 h hr =>
    have hans := href.answers.popExpired now
    have hnext := href.step (.popExpired now) (fun hno => absurd rfl hno)
    dsimp only at hans
    rw [hr] at hans
    rw [popAllExpired_none hr, hans]
    refine ⟨⟨_, ⟨hnext.cancelled, hnext.ordered, hnext.live, hnext.seq, hnext.fresh,
      hnext.sorted⟩, ?_, ?_⟩, rfl⟩
    all_goals
      simp only [Agenda.step, hans]
      assumption
  | case2 h token hr ih =>
    have hans := href.answers.popExpired now
    have hnext := href.step (.popExpired now) (fun hno => absurd rfl hno)
    dsimp only at hans
    rw [hr] at hans
    obtain ⟨first, hleast, hpayload⟩ := hans
    obtain ⟨rest, hdue⟩ := Timer.head_of_least (href.live_sorted.filter _) hleast
    have hdue : a.due now = first :: rest := hdue
    have hstep : a.step (.popExpired now) =
        { a with pending := a.pending.filter fun x => decide (x.key ≠ first.key) } := by
      simp only [Agenda.step, hdue]
    have hsorted : (first :: rest).Pairwise Before := hdue ▸ href.live_sorted.filter _
    have hrest : (a.step (.popExpired now)).due now = rest := by
      have hcomm : (a.step (.popExpired now)).due now =
          (a.due now).filter fun x => decide (x.key ≠ first.key) := by
        rw [hstep]
        simp only [Agenda.due, Agenda.live, List.filter_filter]
        congr 1
        funext x
        ac_rfl
      rw [hcomm, hdue, Timer.filter_ne_head hsorted]
    have hih := ih (a.step (.popExpired now))
      ⟨hnext.cancelled, hnext.ordered, hnext.live, hnext.seq, hnext.fresh, hnext.sorted⟩
      (by rw [hstep]; exact hcount)
      (fun e he => hpending e (by rw [hstep] at he; exact (List.mem_filter.mp he).1))
    rw [popAllExpired_some _ hr]
    refine ⟨hih.1, ?_⟩
    rw [hih.2, hrest, hdue, ← hpayload]
    rfl

/-- The heap after a collection, and what the collection fired. -/
theorem collect [DecidableEq T] {r : Reactor T} (now : Nat) (raced raced' : List (Foreign T))
    (hf : Follows cancelled r.timers scheduled)
    (hlen : (scheduled ++ (r.xthread.drainInto raced raced').2.1).length ≤ 2 ^ 64) :
    let r' := r.collect cancelled now raced raced'
    let scheduled' := scheduled ++ (r.xthread.drainInto raced raced').2.1
    Follows cancelled r'.timers scheduled' ∧
      InOrder scheduled' (r'.expired.drop r.expired.length) := by
  intro r' scheduled'
  have hcancel : ∃ r₁ : Reactor T, ({ r with clock := r.clock.invalidate } :
      Reactor T).absorbCancellations cancelled = r₁ ∧ r₁.xthread = r.xthread ∧
      r₁.expired = r.expired ∧ Follows cancelled r₁.timers scheduled := by
    refine ⟨_, rfl, (absorbCancellations_fires _ cancelled).2.2, ?_, ?_⟩
    · rw [(absorbCancellations_fires _ cancelled).1.expired, List.append_nil]
    · unfold Reactor.absorbCancellations
      split
      · exact hf
      · exact hf.buries (TimerHeap.Buries.noteCancelled r.timers r.cancelledTimers)
  obtain ⟨r₁, hr₁, hxthread, hexpired, hf₁⟩ := hcancel
  have hr' : r' = ((r₁.drainXthread raced raced').fireExpiredTimers cancelled now).snapshotBatch :=
    by rw [← hr₁]; rfl
  have hf₂ : Follows cancelled (r₁.drainXthread raced raced').timers scheduled' := by
    have hfold := hf₁.foldl_schedule hlen
    rw [← hxthread] at hfold
    have hs : scheduled' = scheduled ++ (r₁.xthread.drainInto raced raced').2.1 := by rw [hxthread]
    rw [hs]
    exact hfold
  have hexpired₂ : (r₁.drainXthread raced raced').expired = r.expired := hexpired
  generalize r₁.drainXthread raced raced' = r₂ at hr' hf₂ hexpired₂
  have hnil : InOrder scheduled' (r₂.expired.drop r.expired.length) := by
    rw [hexpired₂, List.drop_length]
    exact ⟨[], rfl, List.Pairwise.nil, fun e he => by cases he⟩
  rw [hr']
  show Follows cancelled (r₂.fireExpiredTimers cancelled now).timers scheduled' ∧
    InOrder scheduled' ((r₂.fireExpiredTimers cancelled now).expired.drop r.expired.length)
  unfold Reactor.fireExpiredTimers
  split
  · exact ⟨hf₂, hnil⟩
  dsimp only
  split
  · exact ⟨hf₂, hnil⟩
  · rw [hexpired₂, List.drop_left]
    exact hf₂.popAllExpired _

end Follows

end Cadeloop.Core.Tick
