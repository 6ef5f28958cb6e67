import Cadeloop.Pyshim.Handles

/-!
# Where a pushed handle can be

What a tick keeps besides its order: only cancelled timers are buried, and the items of other threads
are flagged.  What the steps of the loop do to the tokens pushed and dispatched.
-/

namespace Cadeloop.Pyshim.Handles

open Cadeloop.Reasoning
open Cadeloop.Core.Timer (TimerHeap)

/-! ## 1. The heap -/

/-- Only cancelled payloads are in the heap's graveyard. -/
def Dead (cancelled : HandleRef → Bool) (heap : TimerHeap HandleRef) : Prop :=
  ∀ h ∈ heap.graveyard, cancelled h = true

section Heap

variable {cancelled : HandleRef → Bool} {heap heap' : TimerHeap HandleRef}

theorem Dead.buries {marks : List HandleRef} (h : Dead cancelled heap)
    (hb : TimerHeap.Buries cancelled heap heap' marks) : Dead cancelled heap' := by
  intro p hp
  rw [hb.graveyard] at hp
  exact (List.mem_append.mp hp).elim (h p) (hb.payloads.2 p)

theorem Dead.foldl_schedule (h : Dead cancelled heap) (timers : List (Nat × HandleRef)) :
    Dead cancelled (timers.foldl (fun heap timer => heap.schedule timer.1 timer.2) heap) := by
  induction timers generalizing heap with
  | nil => exact h
  | cons timer timers ih => exact ih h

theorem Dead.popExpired (h : Dead cancelled heap) (now : Nat) :
    Dead cancelled (heap.popExpired cancelled now).2.1 := by
  obtain ⟨heap₁, marks, hb, hcases⟩ := (TimerHeap.popExpired_expires cancelled heap now).cases
  have hmid := h.buries hb
  rcases hcases with ⟨-, hh, -, -⟩ | ⟨first, -, -, -, -, hh, -⟩
  · rw [hh]
    exact hmid
  · rw [hh]
    exact hmid

theorem Dead.popAllExpired (h : Dead cancelled heap) (now : Nat) :
    Dead cancelled (Core.Tick.popAllExpired cancelled now heap).2 := by
  induction heap using Core.Tick.popAllExpired.induct cancelled now with
  | case1 heap hr =>
    rw [Core.Tick.popAllExpired_none hr]
    exact h.popExpired now
  | case2 heap token hr ih =>
    rw [Core.Tick.popAllExpired_some _ hr]
    exact ih (h.popExpired now)

end Heap

/-- What the reactor's queues keep: no token is lost, the buried are cancelled, and what waits in the
cross-thread queue is flagged. -/
structure Queues (l : Core.Tick.Loop HandleRef) : Prop where
  kept : Core.Tick.Kept l
  dead : Dead l.cancelled l.reactor.timers
  discarded : ∀ h ∈ l.discarded, l.cancelled h = true
  flagged : l.reactor.xthread.wakePending = false →
    l.reactor.xthread.queue = [] ∧ l.reactor.xthread.timers = []

/-- The tick goes on without a push, a dispatch or a cancellation. -/
structure Same (l l' : Core.Tick.Loop HandleRef) : Prop where
  pushed : l'.pushed = l.pushed
  ran : l'.ran = l.ran
  ranTimers : l'.ranTimers = l.ranTimers
  cancelled : l'.cancelled = l.cancelled

/-- The tick's own steps: other threads push only what the loop takes, not while it does. -/
inductive Internal : Core.Tick.Event HandleRef → Prop where
  | prepareTick (now : Nat) : Internal (.prepareTick now [] [])
  | pollTimeout (now : Nat) : Internal (.pollTimeout now)
  | pollFailed : Internal .pollFailed
  | finishPoll (parked : Bool) (now : Nat) : Internal (.finishPoll parked now [] [])
  | absorbIntoBatch : Internal .absorbIntoBatch
  | takeBatch : Internal .takeBatch
  | takeExpired : Internal .takeExpired
  | takeGraveyard : Internal .takeGraveyard
  | handBack : Internal .handBack
  | endTick : Internal .endTick
  | countCancelled : Internal .countCancelled

section Queues

variable {l l' : Core.Tick.Loop HandleRef}

theorem drained_flagged {x : Core.Tick.CrossThreadQueue HandleRef}
    (h : x.wakePending = false → x.queue = [] ∧ x.timers = []) :
    (x.drainInto [] []).2.2.queue = [] ∧ (x.drainInto [] []).2.2.timers = [] := by
  unfold Core.Tick.CrossThreadQueue.drainInto
  split
  · rename_i hflag
    exact h hflag
  · exact ⟨rfl, rfl⟩

theorem Dead.collect {r : Reactor} {cancelled : HandleRef → Bool} (h : Dead cancelled r.timers)
    (now : Nat) : Dead cancelled (r.collect cancelled now [] []).timers := by
  have habsorbed : ∀ r' : Reactor, r'.timers = r.timers →
      Dead cancelled (r'.absorbCancellations cancelled).timers := by
    intro r' hr'
    unfold Core.Tick.Reactor.absorbCancellations
    split
    · rw [hr']
      exact h
    · rw [hr']
      exact h.buries (.noteCancelled r.timers _)
  have hdrained : ∀ r' : Reactor, Dead cancelled r'.timers →
      Dead cancelled (r'.drainXthread [] []).timers := by
    intro r' hr'
    exact hr'.foldl_schedule _
  have hfired : ∀ r' : Reactor, Dead cancelled r'.timers →
      Dead cancelled (r'.fireExpiredTimers cancelled now).timers := by
    intro r' hr'
    unfold Core.Tick.Reactor.fireExpiredTimers
    split
    · exact hr'
    dsimp only
    split
    · exact hr'
    · exact hr'.popAllExpired _
  exact hfired _ (hdrained _ (habsorbed { r with clock := r.clock.invalidate } rfl))

theorem Queues.collected (h : Queues l) (now : Nat) {phase : Core.Tick.Phase} {due tick : List HandleRef}
    (hkept : Core.Tick.Kept { l.collected (l.reactor.collect l.cancelled now [] []) [] [] with
      phase, due, tick }) :
    Queues { l.collected (l.reactor.collect l.cancelled now [] []) [] [] with phase, due, tick } where
  kept := hkept
  dead := h.dead.collect now
  discarded := h.discarded
  flagged _ := by
    show (l.reactor.collect l.cancelled now [] []).xthread.queue = [] ∧
      (l.reactor.collect l.cancelled now [] []).xthread.timers = []
    rw [(Core.Tick.collect_spec l.reactor l.cancelled now [] []).2.2.1]
    exact drained_flagged h.flagged

theorem Queues.internal (h : Queues l) {e : Core.Tick.Event HandleRef} (he : Internal e)
    (hstep : l.step e = some l') : Queues l' ∧ Same l l' := by
  have hkept := h.kept.step e hstep
  cases he with
  | prepareTick now =>
    simp only [Core.Tick.Loop.step, Option.ite_none_right_eq_some, Option.some.injEq] at hstep
    obtain ⟨-, rfl⟩ := hstep
    exact ⟨h.collected now hkept, List.append_nil _, rfl, rfl, rfl⟩
  | pollTimeout now =>
    simp only [Core.Tick.Loop.step, Option.ite_none_right_eq_some, Option.some.injEq] at hstep
    obtain ⟨-, rfl⟩ := hstep
    obtain ⟨-, -, hxthread, -, marks, hb⟩ := Core.Tick.pollTimeout_leaves l.reactor l.cancelled now
    refine ⟨⟨hkept, h.dead.buries hb, h.discarded, ?_⟩, rfl, rfl, rfl, rfl⟩
    dsimp only
    rw [hxthread]
    exact h.flagged
  | finishPoll parked now =>
    simp only [Core.Tick.Loop.step, Option.ite_none_right_eq_some, Option.some.injEq] at hstep
    obtain ⟨-, rfl⟩ := hstep
    cases parked with
    | true => exact ⟨h.collected now hkept, List.append_nil _, rfl, rfl, rfl⟩
    | false => exact ⟨⟨hkept, h.dead, h.discarded, h.flagged⟩, rfl, rfl, rfl, rfl⟩
  | takeBatch =>
    simp only [Core.Tick.Loop.step, Option.ite_none_right_eq_some, Option.some.injEq] at hstep
    obtain ⟨-, rfl⟩ := hstep
    have hrest : (l.reactor.takeBatch l.batch).2.timers = l.reactor.timers ∧
        (l.reactor.takeBatch l.batch).2.xthread = l.reactor.xthread := by
      unfold Core.Tick.Reactor.takeBatch
      dsimp only
      split <;> exact ⟨rfl, rfl⟩
    refine ⟨⟨hkept, ?_, h.discarded, ?_⟩, rfl, rfl, rfl, rfl⟩
    · show Dead l.cancelled (l.reactor.takeBatch l.batch).2.timers
      rw [hrest.1]
      exact h.dead
    · dsimp only
      rw [hrest.2]
      exact h.flagged
  | takeGraveyard =>
    injection hstep with hstep
    subst hstep
    refine ⟨⟨hkept, (fun p hp => by cases hp), fun p hp => ?_, h.flagged⟩, rfl, rfl, rfl, rfl⟩
    exact (List.mem_append.mp hp).elim (h.discarded p) (h.dead p)
  | handBack =>
    simp only [Core.Tick.Loop.step, Option.ite_none_right_eq_some, Option.some.injEq] at hstep
    obtain ⟨-, rfl⟩ := hstep
    refine ⟨⟨hkept, ?_, h.discarded, ?_⟩, rfl, rfl, rfl, rfl⟩
    · rw [Core.Tick.handBack_eq]
      exact h.dead
    · rw [Core.Tick.handBack_eq]
      exact h.flagged
  | countCancelled =>
    injection hstep with hstep
    subst hstep
    exact ⟨⟨hkept, h.dead, h.discarded, h.flagged⟩, rfl, rfl, rfl, rfl⟩
  | _ =>
    simp only [Core.Tick.Loop.step, Option.ite_none_right_eq_some, Option.some.injEq] at hstep
    obtain ⟨-, rfl⟩ := hstep
    exact ⟨⟨hkept, h.dead, h.discarded, h.flagged⟩, rfl, rfl, rfl, rfl⟩

theorem Internal.wakes {e : Core.Tick.Event HandleRef} (he : Internal e) (hstep : l.step e = some l')
    (hidle : l.phase = .idle) : l'.phase = .idle ∨ ∃ now, e = .prepareTick now [] [] := by
  cases he with
  | prepareTick now => exact .inr ⟨now, rfl⟩
  | takeGraveyard =>
    injection hstep with hstep
    exact .inl (hstep ▸ hidle)
  | countCancelled =>
    injection hstep with hstep
    exact .inl (hstep ▸ hidle)
  | _ => simp [Core.Tick.Loop.step, hidle] at hstep

theorem Internal.ends {e : Core.Tick.Event HandleRef} (he : Internal e) (hstep : l.step e = some l')
    (hbusy : l.phase = .dispatching) : l'.phase = .dispatching ∨ e = .handBack ∨ e = .endTick := by
  cases he with
  | handBack => exact .inr (.inl rfl)
  | endTick => exact .inr (.inr rfl)
  | takeGraveyard =>
    injection hstep with hstep
    exact .inl (hstep ▸ hbusy)
  | countCancelled =>
    injection hstep with hstep
    exact .inl (hstep ▸ hbusy)
  | _ => simp [Core.Tick.Loop.step, hbusy] at hstep

/-- A token is pushed through one of the doors. -/
structure Pushes (l l' : Core.Tick.Loop HandleRef) (token : HandleRef) : Prop where
  queues : Queues l'
  pushed : l'.pushed = l.pushed ++ [token]
  ran : l'.ran = l.ran
  ranTimers : l'.ranTimers = l.ranTimers
  cancelled : l'.cancelled = l.cancelled
  phase : l'.phase = l.phase

theorem Queues.pushReady (h : Queues l) {token : HandleRef}
    (hstep : l.step (.pushReady token) = some l') : Pushes l l' token := by
  have hkept := h.kept.step _ hstep
  injection hstep with hstep
  subst hstep
  exact ⟨⟨hkept, h.dead, h.discarded, h.flagged⟩, rfl, rfl, rfl, rfl, rfl⟩

theorem Queues.scheduleTimer (h : Queues l) {deadline : Nat} {token : HandleRef}
    (hstep : l.step (.scheduleTimer deadline token) = some l') : Pushes l l' token := by
  have hkept := h.kept.step _ hstep
  injection hstep with hstep
  subst hstep
  exact ⟨⟨hkept, h.dead, h.discarded, h.flagged⟩, rfl, rfl, rfl, rfl, rfl⟩

/-- From another thread, the item and then the flag. -/
theorem Queues.foreign (h : Queues l) {item : Core.Tick.Foreign HandleRef} {token : HandleRef}
    {l₁ : Core.Tick.Loop HandleRef} (hitem : item.pushed = [token])
    (hpush : l.step (.foreign item) = some l₁) (hflag : l₁.step (.foreign .swapFlag) = some l') :
    Pushes l l' token := by
  have hkept := (h.kept.step _ hpush).step _ hflag
  injection hpush with hpush
  subst hpush
  injection hflag with hflag
  subst hflag
  refine ⟨⟨hkept, h.dead, h.discarded, fun hf => by cases hf⟩, ?_, rfl, rfl, rfl, rfl⟩
  show l.pushed ++ item.pushed ++ [] = _
  rw [hitem, List.append_nil]

/-- The front token is dispatched. -/
structure Dispatches (l l' : Core.Tick.Loop HandleRef) (token : HandleRef) : Prop where
  queues : Queues l'
  pushed : l'.pushed = l.pushed
  ran : ∀ h, (l'.ran ++ l'.ranTimers).count h = (l.ran ++ l.ranTimers).count h + [token].count h
  cancelled : l'.cancelled = l.cancelled
  phase : l.phase = .dispatching
  still : l'.phase = .dispatching

theorem Queues.dispatch (h : Queues l) {token : HandleRef} {batch : List HandleRef}
    (hbatch : l.batch = token :: batch) (hstep : l.step .dispatch = some l') : Dispatches l l' token := by
  have hkept := h.kept.step _ hstep
  simp only [Core.Tick.Loop.step, hbatch, Option.ite_none_right_eq_some] at hstep
  obtain ⟨hphase, hstep⟩ := hstep
  split at hstep
  · injection hstep with hstep
    subst hstep
    refine ⟨⟨hkept, h.dead, h.discarded, h.flagged⟩, rfl, fun x => ?_, rfl, hphase, hphase⟩
    simp only [List.count_append]
    omega
  · injection hstep with hstep
    subst hstep
    refine ⟨⟨hkept, h.dead, h.discarded, h.flagged⟩, rfl, fun x => ?_, rfl, hphase, hphase⟩
    simp only [List.count_append]
    omega

/-- The close takes what is in the reactor's queues. -/
theorem Queues.mem_clearPending (h : Queues l) {token : HandleRef}
    (hin : token ∈ l.reactor.ready ∨ token ∈ l.reactor.expired ∨ token ∈ l.reactor.timers.payloads ∨
      token ∈ l.reactor.xthread.queue ∨ token ∈ l.reactor.xthread.timers.map Prod.snd) :
    token ∈ (CoreLoop.clearPending l.reactor).1 := by
  obtain ⟨hqueue, htimers⟩ := Core.Tick.drainInto_eq l.reactor.xthread [] []
  obtain ⟨hemptied, hemptied'⟩ := drained_flagged h.flagged
  rw [hemptied, List.append_nil, List.flatMap_nil, List.append_nil, List.append_nil] at hqueue
  rw [hemptied', List.append_nil, List.flatMap_nil, List.append_nil, List.append_nil] at htimers
  have hheap := Core.Tick.foldl_schedule_leaves (l.reactor.xthread.drainInto [] []).2.1 l.reactor.timers
  have hmem := fun hold => (hheap.mem_iff (a := token)).mp hold
  rw [← htimers] at hmem
  unfold CoreLoop.clearPending
  dsimp only
  rw [← hqueue, ← htimers]
  simp only [List.mem_append] at hmem ⊢
  rcases hin with hin | hin | hin | hin | hin
  · exact .inl (.inl (.inl hin))
  · exact .inl (.inl (.inr hin))
  · exact .inr (List.mem_append.mpr (hmem (.inr (.inl hin))))
  · exact .inl (.inr hin)
  · exact .inr (List.mem_append.mpr (hmem (.inl hin)))

theorem Queues.flag (h : Queues l) {cancelled : HandleRef → Bool}
    (hmore : ∀ x, l.cancelled x = true → cancelled x = true) : Queues { l with cancelled } where
  kept := ⟨h.kept.held, h.kept.order, h.kept.posted, h.kept.fired, h.kept.buffered.empty,
    h.kept.buffered.queued, h.kept.buffered.fresh, h.kept.buffered.taken, h.kept.buffered.dispatching⟩
  dead x hx := hmore x (h.dead x hx)
  discarded x hx := hmore x (h.discarded x hx)
  flagged := h.flagged

end Queues

end Cadeloop.Pyshim.Handles
