import Cadeloop.Pyshim.CoreLoop

/-!
# Runs of the loop across unwinds

The reactor inside the loop runs ticks of its own, so what holds of those holds here (`ticks_keep_order`).
The transport events are followed the same way, and `Since` says what a tick that runs to its end has
done about everything there was when it began.
-/

namespace Cadeloop.Pyshim.Tick

open Cadeloop.Reasoning
open Cadeloop.Core.Tick

variable {T E : Type*}

/-! ## 1. What a step can do -/

/-- What the stage says of the rest of the tick. -/
structure Staged (s : CoreLoop T E) : Prop where
  reap : s.stage = .reap → s.hand = [] ∧ s.running = false ∧ s.loop.phase ≠ .dispatching
  past : s.stage ≠ .reap → s.loop.phase = .dispatching
  timers : s.stage = .events ∨ s.stage = .timers ∨ s.stage = .corked ∨ s.stage = .again →
    s.loop.batch.length ≤ s.loop.timers
  noEvents : s.stage = .timers ∨ s.stage = .corked → s.hand = []
  noBatch : s.stage = .corked ∨ s.stage = .again → s.loop.batch = []

section Moves

variable [DecidableEq T] (deferred : E → Bool) (lostCall : E → T)

/-- The moves of the loop, the reactor's part of each as a step of its own. -/
inductive Moves (s : CoreLoop T E) : CoreLoop T E → Prop
  | work {e : Event T} {l : Loop T} (he : external e = true) (hl : s.loop.step e = some l) :
    Moves s { s with loop := l }
  | reap {e : Event T} {l : Loop T} (hstage : s.stage = .reap) (he : reaps e = true)
      (hl : s.loop.step e = some l) : Moves s { s with loop := l }
  | produce (e : E) :
    Moves s { s with events := s.events ++ [e], produced := s.produced ++ [e] }
  | pending : Moves s (s.schedulePendingLost deferred lostCall)
  | take {l l' : Loop T} (hstage : s.stage = .reap) (hl : s.loop.step .takeBatch = some l)
      (hl' : l.step .takeExpired = some l') :
    Moves s { s with loop := l', events := s.hand, hand := s.events, stage := .signals }
  | signals (hstage : s.stage = .signals) : Moves s { s with stage := .batch }
  | handle {l : Loop T} (hstage : s.stage = .timers ∨ s.stage = .batch)
      (hl : s.loop.step .dispatch = some l) : Moves s { s with loop := l, running := true }
  | event {e : E} {rest : List E} {l : Loop T} (hstage : s.stage = .events ∨ s.stage = .again)
      (hhand : s.hand = e :: rest)
      (hl : (deferred e = false ∧ l = s.loop) ∨
        (deferred e = true ∧ s.loop.step (.pushReady (lostCall e)) = some l)) :
    Moves s { s with
      loop := l, hand := rest, dispatched := s.dispatched ++ [e], running := true }
  | returned (hstage : s.stage ≠ .reap) : Moves s { s with running := false }
  | unwound {l : Loop T} (hstage : s.stage ≠ .reap)
      (hl : s.loop.step .handBack = some l ∨ s.loop.step .endTick = some l) :
    Moves s { s with
      loop := l, events := s.hand ++ s.events, hand := [], stage := .reap, running := false }
  | batchDone (hstage : s.stage = .batch) (hbatch : s.loop.batch.length ≤ s.loop.timers) :
    Moves s { s with
      hadEvents := !s.hand.isEmpty, stage := if s.hand.isEmpty then .timers else .events }
  | eventsDone (hstage : s.stage = .events) (hbatch : s.loop.batch.length ≤ s.loop.timers)
      (hhand : s.hand = []) : Moves s { s with stage := .timers }
  | timersDone (hstage : s.stage = .timers) (hbatch : s.loop.batch = []) :
    Moves s { s with stage := .corked }
  | flushed (hstage : s.stage = .corked) :
    Moves s { s with events := s.hand, hand := s.events, stage := .again }
  | done {l : Loop T} (hstage : s.stage ≠ .reap) (hhand : s.hand = [])
      (hl : s.loop.step .endTick = some l) :
    Moves s { s with loop := l, stage := .reap, running := false, ended := s.ended + 1 }

variable {deferred lostCall}

theorem unwind_moves {s s' : CoreLoop T E} (hs : Staged s) (h : s.unwind = some s') :
    Moves deferred lostCall s s' := by
  have hback : ∀ n, s.loop.phase = .dispatching →
      Core.Tick.handBack s.loop.reactor s.loop.batch n =
        Core.Tick.handBack s.loop.reactor s.loop.batch s.loop.timers →
      s.loop.step .handBack = some (s.handBack n).loop := by
    intro n hphase hn
    rw [Loop.step, if_pos hphase, CoreLoop.handBack, hn]
  rw [CoreLoop.unwind] at h
  split at h
  next hstage =>
    have hne : s.stage ≠ .reap := by simp [hstage]
    injection h with h
    rw [← h]
    exact .unwound hne (.inl (hback _ (hs.past hne) rfl))
  next hstage =>
    have hne : s.stage ≠ .reap := by simp [hstage]
    injection h with h
    rw [← h]
    exact .unwound hne (.inl (hback _ (hs.past hne) rfl))
  next hstage =>
    have hne : s.stage ≠ .reap := by simp [hstage]
    injection h with h
    rw [← h]
    exact .unwound hne (.inl (hback _ (hs.past hne) rfl))
  next hstage =>
    have hne : s.stage ≠ .reap := by simp [hstage]
    have hle := hs.timers (.inr (.inl hstage))
    have hhand := hs.noEvents (.inl hstage)
    have hl := hback s.loop.batch.length (hs.past hne) (by
      rw [handBack_eq, handBack_eq, Nat.sub_self, Nat.sub_eq_zero_of_le hle])
    injection h with h
    have hmove : Moves deferred lostCall s _ := .unwound hne (.inl hl)
    rw [hhand, List.nil_append] at hmove
    rw [← h]
    convert hmove using 1
    simp only [CoreLoop.leave, CoreLoop.handBack, hhand]
  next hstage =>
    have hne : s.stage ≠ .reap := by simp [hstage]
    have hbatch := hs.noBatch (.inr hstage)
    injection h with h
    rw [← h]
    refine .unwound hne (.inr ?_)
    rw [Loop.step, if_pos ⟨hs.past hne, hbatch⟩]
    rfl
  next => cases h
  next => cases h

theorem step_moves {s s' : CoreLoop T E} (hs : Staged s) {st : Step T E}
    (h : s.step deferred lostCall st = some s') : Moves deferred lostCall s s' := by
  have hphase : s.loop.phase = .dispatching → s.loop.batch = [] →
      s.loop.step .endTick = some { s.loop with phase := .idle } := fun hp hb => by
    rw [Loop.step, if_pos ⟨hp, hb⟩]
  cases st with
  | reactor e =>
    rw [CoreLoop.step] at h
    split at h
    · rename_i hallowed
      obtain ⟨l, hl, rfl⟩ := Option.map_eq_some_iff.mp h
      rcases hallowed with he | ⟨hstage, he⟩
      · exact .work he hl
      · exact .reap hstage he hl
    · cases h
  | produce e =>
    injection h with h
    rw [← h]
    exact .produce e
  | schedulePendingLost =>
    injection h with h
    rw [← h]
    exact .pending
  | take =>
    rw [CoreLoop.step] at h
    split at h
    · rename_i hstage
      obtain ⟨l', hl', rfl⟩ := Option.map_eq_some_iff.mp h
      obtain ⟨l, hl, hl'⟩ := Option.bind_eq_some_iff.mp hl'
      exact .take hstage hl hl'
    · cases h
  | checkSignals interrupted =>
    rw [CoreLoop.step] at h
    split at h
    · rename_i hstage
      split at h
      · exact unwind_moves hs h
      · injection h with h
        rw [← h]
        exact .signals hstage
    · cases h
  | runHandle =>
    rw [CoreLoop.step] at h
    split at h
    · cases h
    split at h
    · rename_i hstage
      obtain ⟨l, hl, rfl⟩ := Option.map_eq_some_iff.mp h
      exact .handle (hstage.imp_right And.left) hl
    · cases h
  | dispatchEvent =>
    rw [CoreLoop.step] at h
    split at h
    · cases h
    split at h
    · rename_i hstage
      rw [CoreLoop.startEvent] at h
      split at h
      · cases h
      · rename_i e rest hhand
        dsimp only at h
        split at h
        · rename_i hdeferred
          obtain ⟨l, hl, rfl⟩ := Option.map_eq_some_iff.mp h
          exact .event hstage hhand (.inr ⟨hdeferred, hl⟩)
        · rename_i hdeferred
          injection h with h
          rw [← h]
          exact .event hstage hhand (.inl ⟨Bool.eq_false_iff.mpr hdeferred, rfl⟩)
    · cases h
  | returned fatal =>
    rw [CoreLoop.step] at h
    split at h
    · rename_i hrunning
      split at h
      · exact unwind_moves hs h
      · injection h with h
        rw [← h]
        refine .returned fun hreap => ?_
        rw [(hs.reap hreap).2.1] at hrunning
        cases hrunning
    · cases h
  | next =>
    rw [CoreLoop.step] at h
    split at h
    · cases h
    split at h
    next hstage =>
      split at h
      · rename_i hbatch
        injection h with h
        rw [← h]
        exact .batchDone hstage hbatch
      · cases h
    next hstage =>
      split at h
      · rename_i hhand
        injection h with h
        rw [← h]
        exact .eventsDone hstage (hs.timers (.inl hstage)) (List.isEmpty_iff.mp hhand)
      · cases h
    next hstage =>
      have hne : s.stage ≠ .reap := by simp [hstage]
      split at h
      · rename_i hbatch
        rw [List.isEmpty_iff] at hbatch
        split at h
        · injection h with h
          rw [← h]
          exact .timersDone hstage hbatch
        · injection h with h
          rw [← h]
          exact .done hne (hs.noEvents (.inl hstage)) (hphase (hs.past hne) hbatch)
      · cases h
    next hstage =>
      injection h with h
      rw [← h]
      exact .flushed hstage
    next hstage =>
      have hne : s.stage ≠ .reap := by simp [hstage]
      split at h
      · rename_i hhand
        injection h with h
        rw [← h]
        exact .done hne (List.isEmpty_iff.mp hhand) (hphase (hs.past hne) (hs.noBatch (.inr hstage)))
      · cases h
    next => cases h
    next => cases h

end Moves

/-! ## 2. The reactor inside -/

/-- A step of the reactor that no tick is about. -/
structure Quiet (l l' : Loop T) : Prop where
  phase : l'.phase = l.phase
  batch : l'.batch = l.batch
  timers : l'.timers = l.timers
  ran : l'.ran = l.ran
  ranTimers : l'.ranTimers = l.ranTimers
  snapshot : l'.snapshot = l.snapshot
  entered : l.entered <+: l'.entered
  collections : l'.collections = l.collections

theorem Quiet.refl (l : Loop T) : Quiet l l := ⟨rfl, rfl, rfl, rfl, rfl, rfl, List.prefix_refl _, rfl⟩

/-- `pushReady` of each in turn. -/
def pushAll (l : Loop T) (ts : List T) : Loop T :=
  { l with
      reactor := ts.foldl Reactor.pushReady l.reactor
      pushed := l.pushed ++ ts
      entered := l.entered ++ ts }

theorem pushAll_quiet (l : Loop T) (ts : List T) : Quiet l (pushAll l ts) :=
  ⟨rfl, rfl, rfl, rfl, rfl, rfl, List.prefix_append _ _, rfl⟩

theorem schedulePendingLost_loop (deferred : E → Bool) (lostCall : E → T)
    (s : CoreLoop T E) :
    (s.schedulePendingLost deferred lostCall).loop =
      pushAll s.loop ((s.events.filter deferred).map lostCall) := by
  simp only [CoreLoop.schedulePendingLost, pushAll, List.foldl_map]

/-- What a tick does to the reactor before it takes the batch. -/
structure Reaped (l l' : Loop T) : Prop where
  phase : l'.phase ≠ .dispatching
  batch : l'.batch = l.batch
  ran : l'.ran = l.ran
  ranTimers : l'.ranTimers = l.ranTimers
  entered : l.entered <+: l'.entered
  collections : l.collections.flatten <+: l'.collections.flatten
  -- the batch is all that is queued, or what it was
  snapshot : l'.phase = .prepared ∨ l'.phase = .polled → l'.snapshot = l'.reactor.ready ∨
    (l'.snapshot = l.snapshot ∧ (l.phase = .prepared ∨ l.phase = .polled))

theorem collected_reaped (l : Loop T) (reactor : Reactor T) (raced raced' : List (Foreign T))
    {phase : Core.Tick.Phase} (hphase : phase ≠ .dispatching) (due tick : List T) :
    Reaped l { l.collected reactor raced raced' with phase, due, tick } where
  phase := hphase
  batch := rfl
  ran := rfl
  ranTimers := rfl
  entered := List.prefix_append _ _
  collections := by
    show _ <+: (l.collections ++ [_]).flatten
    rw [List.flatten_append]
    exact List.prefix_append _ _
  snapshot := fun _ => .inl rfl

section Reactor

variable [DecidableEq T]

theorem external_quiet {l l' : Loop T} {e : Event T} (he : external e = true)
    (hl : l.step e = some l') : Quiet l l' := by
  cases e with
  | pushReady token =>
    injection hl with hl
    rw [← hl]
    exact ⟨rfl, rfl, rfl, rfl, rfl, rfl, List.prefix_append _ _, rfl⟩
  | foreign step =>
    injection hl with hl
    rw [← hl]
    exact ⟨rfl, rfl, rfl, rfl, rfl, rfl, List.prefix_refl _, rfl⟩
  | scheduleTimer deadline token =>
    injection hl with hl
    rw [← hl]
    exact ⟨rfl, rfl, rfl, rfl, rfl, rfl, List.prefix_refl _, rfl⟩
  | cancel token =>
    injection hl with hl
    rw [← hl]
    exact ⟨rfl, rfl, rfl, rfl, rfl, rfl, List.prefix_refl _, rfl⟩
  | countCancelled =>
    injection hl with hl
    rw [← hl]
    exact ⟨rfl, rfl, rfl, rfl, rfl, rfl, List.prefix_refl _, rfl⟩
  | takeGraveyard =>
    injection hl with hl
    rw [← hl]
    exact ⟨rfl, rfl, rfl, rfl, rfl, rfl, List.prefix_refl _, rfl⟩
  | _ => cases he

theorem pushAll_reachable {l : Loop T} (h : loops.Reachable l) (ts : List T) :
    loops.Reachable (pushAll l ts) := by
  induction ts generalizing l with
  | nil =>
    have hnil : pushAll l [] = l := by simp [pushAll]
    rw [hnil]
    exact h
  | cons t ts ih =>
    have hone : loops.Reachable (pushAll l [t]) := h.step (e := .pushReady t) rfl
    have hcons : pushAll l (t :: ts) = pushAll (pushAll l [t]) ts := by simp [pushAll]
    rw [hcons]
    exact ih hone

theorem reaps_reaped {l l' : Loop T} {e : Event T} (he : reaps e = true)
    (hl : l.step e = some l') : Reaped l l' := by
  cases e with
  | prepareTick now raced raced' =>
    rw [Loop.step] at hl
    split at hl
    · injection hl with hl
      rw [← hl]
      exact collected_reaped l _ raced raced' (by decide) _ _
    · cases hl
  | pollTimeout now =>
    rw [Loop.step] at hl
    split at hl
    · rename_i hphase
      injection hl with hl
      rw [← hl]
      exact ⟨by simp [hphase], rfl, rfl, rfl, List.prefix_refl _, List.prefix_refl _,
        fun _ => .inr ⟨rfl, .inl hphase⟩⟩
    · cases hl
  | pollFailed =>
    rw [Loop.step] at hl
    split at hl
    · injection hl with hl
      rw [← hl]
      exact ⟨by simp, rfl, rfl, rfl, List.prefix_refl _, List.prefix_refl _, by simp⟩
    · cases hl
  | finishPoll parked now raced raced' =>
    rw [Loop.step] at hl
    split at hl
    · rename_i hphase
      injection hl with hl
      rw [← hl]
      cases parked with
      | true => exact collected_reaped l _ raced raced' (by decide) _ _
      | false =>
        exact ⟨by simp, rfl, rfl, rfl, List.prefix_refl _, List.prefix_refl _,
          fun _ => .inr ⟨rfl, .inl hphase⟩⟩
    · cases hl
  | absorbIntoBatch =>
    rw [Loop.step] at hl
    split at hl
    · rename_i hphase
      injection hl with hl
      rw [← hl]
      exact ⟨by simp [hphase], rfl, rfl, rfl, List.prefix_refl _, List.prefix_refl _,
        fun _ => .inl rfl⟩
    · cases hl
  | _ => cases he

/-- The batch is the last snapshot, the timers behind it all that are due. -/
theorem take_batch {l l' l'' : Loop T} (hreach : loops.Reachable l)
    (hl : l.step .takeBatch = some l') (hl' : l'.step .takeExpired = some l'') :
    l''.phase = .dispatching ∧ l''.entered = l.entered ∧ l''.collections = l.collections ∧
      l''.ran ++ l''.readyInHand = l.ran ++ l.snapshot ∧
      l''.ranTimers ++ l''.timersInHand = l.collections.flatten ∧ l.phase = .polled ∧
      l''.ran = l.ran ∧ l''.ranTimers = l.ranTimers := by
  have hreach' : loops.Reachable l' := hreach.step (e := .takeBatch) hl
  have hkept := kept hreach'
  have hreach'' : loops.Reachable l'' := hreach'.step (e := .takeExpired) hl'
  have hkept' := kept hreach''
  rw [Loop.step] at hl
  rw [Loop.step] at hl'
  split at hl
  · rename_i hpolled
    split at hl'
    · rename_i htaken
      have hbatch := hkept.buffered.taken htaken
      have hbuffer : l''.batch = l'.batch ++ l''.due ∧ l''.timers = l''.due.length := by
        injection hl' with hl'
        rw [← hl']
        exact ⟨rfl, rfl⟩
      have hphase : l''.phase = .dispatching := by
        injection hl' with hl'
        rw [← hl']
      have hfired := hkept'.fired
      have hexpired : l''.reactor.expired = [] := by
        injection hl' with hl'
        rw [← hl']
        rfl
      rw [hexpired, List.append_nil] at hfired
      have hready : l''.readyInHand = l'.batch := by
        rw [Loop.readyInHand, if_pos hphase, hbuffer.1, hbuffer.2, List.length_append,
          Nat.add_sub_cancel, List.take_left]
      have hsame : l''.entered = l.entered ∧ l''.collections = l.collections ∧
          l''.ran = l.ran ∧ l''.ranTimers = l.ranTimers ∧ l'.snapshot = l.snapshot := by
        injection hl with hl
        injection hl' with hl'
        rw [← hl', ← hl]
        exact ⟨rfl, rfl, rfl, rfl, rfl⟩
      obtain ⟨hentered, hcollections, hran, hranTimers, hsnapshot⟩ := hsame
      refine ⟨hphase, hentered, hcollections, ?_, ?_, hpolled, hran, hranTimers⟩
      · rw [hran, hready, hbatch, hsnapshot]
      · rw [← hfired, hcollections]
    · cases hl'
  · cases hl

/-- A token started or handed back: nothing new comes in, and the batch gives up what it runs. -/
theorem dispatch_same {l l' : Loop T} (hreach : loops.Reachable l)
    (hl : l.step .dispatch = some l') : l'.phase = .dispatching ∧ l'.entered = l.entered ∧
      l'.collections = l.collections ∧ l'.timers = l.timers ∧ l'.batch.length ≤ l.batch.length ∧
      l'.ran ++ l'.readyInHand = l.ran ++ l.readyInHand ∧
      l'.ranTimers ++ l'.timersInHand = l.ranTimers ++ l.timersInHand ∧
      l.ran <+: l'.ran ∧ l.ranTimers <+: l'.ranTimers := by
  have horder := (kept hreach).order
  have hfired := (kept hreach).fired
  have hreach' : loops.Reachable l' := hreach.step (e := .dispatch) hl
  have horder' := (kept hreach').order
  have hfired' := (kept hreach').fired
  have hsame : l'.phase = .dispatching ∧ l'.entered = l.entered ∧
      l'.collections = l.collections ∧ l'.timers = l.timers ∧
      l'.batch.length ≤ l.batch.length ∧ l'.reactor = l.reactor ∧
      l.ran <+: l'.ran ∧ l.ranTimers <+: l'.ranTimers := by
    rw [Loop.step] at hl
    split at hl
    · rename_i hphase
      split at hl
      · cases hl
      · rename_i token batch hbatch
        rw [hbatch]
        split at hl
        · injection hl with hl
          rw [← hl]
          exact ⟨hphase, rfl, rfl, rfl, by simp, rfl, List.prefix_append _ _, List.prefix_refl _⟩
        · injection hl with hl
          rw [← hl]
          exact ⟨hphase, rfl, rfl, rfl, by simp, rfl, List.prefix_refl _, List.prefix_append _ _⟩
    · cases hl
  obtain ⟨hphase, hentered, hcollections, htimers, hbatch, hreactor, hruns⟩ := hsame
  refine ⟨hphase, hentered, hcollections, htimers, hbatch, ?_, ?_, hruns⟩
  · rw [hentered, horder, hreactor] at horder'
    exact (List.append_cancel_right horder').symm
  · rw [hcollections, hfired, hreactor] at hfired'
    exact (List.append_cancel_right hfired').symm

/-- The ways out of a tick. -/
theorem leave_same {l l' : Loop T}
    (hl : l.step .handBack = some l' ∨ l.step .endTick = some l') :
    l'.phase = .idle ∧ l'.entered = l.entered ∧ l'.collections = l.collections ∧
      l'.ran = l.ran ∧ l'.ranTimers = l.ranTimers := by
  rcases hl with hl | hl
  · rw [Loop.step] at hl
    split at hl
    · injection hl with hl
      rw [← hl]
      exact ⟨rfl, rfl, rfl, rfl, rfl⟩
    · cases hl
  · rw [Loop.step] at hl
    split at hl
    · injection hl with hl
      rw [← hl]
      exact ⟨rfl, rfl, rfl, rfl, rfl⟩
    · cases hl

theorem endTick_batch {l l' : Loop T} (hl : l.step .endTick = some l') : l.batch = [] := by
  rw [Loop.step] at hl
  split at hl
  · rename_i hend
    exact hend.2
  · cases hl

end Reactor

/-! ## 3. What the loop keeps -/

/-- Every event is somewhere, in order; only deferred `connection_lost` calls leave the order. -/
structure EventsKept (deferred : E → Bool) (s : CoreLoop T E) : Prop where
  order : (s.dispatched ++ s.hand ++ s.events).Sublist s.produced
  held : s.produced.Perm (s.dispatched ++ s.hand ++ s.events ++ s.scheduled)
  scheduled : ∀ e ∈ s.scheduled, deferred e = true

/-- What `call_soon` was given for the deferred calls. -/
def calls (deferred : E → Bool) (lostCall : E → T) (s : CoreLoop T E) : List T :=
  (s.scheduled ++ s.dispatched.filter deferred).map lostCall

/-- A step of the reactor that keeps its phase and its batch. -/
theorem Staged.quiet {s : CoreLoop T E} (h : Staged s) {l : Loop T} (hl : Quiet s.loop l) :
    Staged { s with loop := l } where
  reap hstage := by
    obtain ⟨hhand, hrunning, hphase⟩ := h.reap hstage
    exact ⟨hhand, hrunning, by rw [hl.phase]; exact hphase⟩
  past hstage := hl.phase.trans (h.past hstage)
  timers hstage := by
    rw [hl.batch, hl.timers]
    exact h.timers hstage
  noEvents := h.noEvents
  noBatch hstage := hl.batch.trans (h.noBatch hstage)

/-- The loop and its reactor. -/
structure Sound [DecidableEq T] (deferred : E → Bool) (lostCall : E → T) (s : CoreLoop T E) :
    Prop where
  loop : loops.Reachable s.loop
  staged : Staged s
  events : EventsKept deferred s
  calls : (calls deferred lostCall s).Subperm s.loop.entered

section Sound

variable [DecidableEq T] {deferred : E → Bool} {lostCall : E → T} {s s' : CoreLoop T E}

theorem Moves.reachable (h : Moves deferred lostCall s s') (hs : loops.Reachable s.loop) :
    loops.Reachable s'.loop := by
  cases h with
  | work _ hl => exact hs.step hl
  | reap _ _ hl => exact hs.step hl
  | pending =>
    rw [schedulePendingLost_loop]
    exact pushAll_reachable hs _
  | @take l l' hstage hl hl' =>
    have hmid : loops.Reachable l := hs.step (e := .takeBatch) hl
    exact hmid.step (e := .takeExpired) hl'
  | handle _ hl => exact hs.step (e := .dispatch) hl
  | event _ _ hl =>
    rcases hl with ⟨-, rfl⟩ | ⟨-, hl⟩
    · exact hs
    · exact hs.step (e := .pushReady _) hl
  | unwound _ hl =>
    rcases hl with hl | hl
    · exact hs.step (e := .handBack) hl
    · exact hs.step (e := .endTick) hl
  | done _ _ hl => exact hs.step (e := .endTick) hl
  | _ => exact hs

theorem Moves.staged (h : Moves deferred lostCall s s') (hs : loops.Reachable s.loop)
    (hst : Staged s) : Staged s' := by
  cases h with
  | work he hl => exact hst.quiet (external_quiet he hl)
  | reap hstage he hl =>
    obtain ⟨hhand, hrunning, -⟩ := hst.reap hstage
    have hl' := (reaps_reaped he hl).phase
    exact ⟨fun _ => ⟨hhand, hrunning, hl'⟩, fun h => absurd hstage h, by simp [hstage],
      by simp [hstage], by simp [hstage]⟩
  | produce e => exact ⟨hst.reap, hst.past, hst.timers, hst.noEvents, hst.noBatch⟩
  | pending =>
    have hquiet := hst.quiet (pushAll_quiet s.loop ((s.events.filter deferred).map lostCall))
    rw [← schedulePendingLost_loop] at hquiet
    exact ⟨hquiet.reap, hquiet.past, hquiet.timers, hquiet.noEvents, hquiet.noBatch⟩
  | take hstage hl hl' =>
    have hphase := (take_batch hs hl hl').1
    exact ⟨by simp, fun _ => hphase, by simp, by simp, by simp⟩
  | signals hstage =>
    exact ⟨by simp, fun _ => hst.past (by simp [hstage]), by simp, by simp, by simp⟩
  | handle hstage hl =>
    obtain ⟨hphase, -, -, htimers, hbatch, -⟩ := dispatch_same hs hl
    have hne : s.stage ≠ .reap ∧ s.stage ≠ .events ∧ s.stage ≠ .corked ∧ s.stage ≠ .again := by
      rcases hstage with hstage | hstage <;> simp [hstage]
    refine ⟨fun h => absurd h hne.1, fun _ => hphase, fun h => ?_, hst.noEvents, fun h => ?_⟩
    · exact (hbatch.trans (hst.timers h)).trans_eq htimers.symm
    · exact absurd h (by simp [hne])
  | @event e rest l hstage hhand hl =>
    have hquiet : Quiet s.loop l := by
      rcases hl with ⟨-, rfl⟩ | ⟨-, hl⟩
      · exact .refl s.loop
      · exact external_quiet rfl hl
    have hq := hst.quiet hquiet
    have hne : s.stage ≠ .reap ∧ s.stage ≠ .timers ∧ s.stage ≠ .corked := by
      rcases hstage with hstage | hstage <;> simp [hstage]
    exact ⟨fun h => absurd h hne.1, hq.past, hq.timers, fun h => absurd h (by simp [hne]),
      hq.noBatch⟩
  | returned hstage =>
    exact ⟨fun h => absurd h hstage, hst.past, hst.timers, hst.noEvents, hst.noBatch⟩
  | unwound _ hl =>
    have hphase := (leave_same hl).1
    exact ⟨fun _ => ⟨rfl, rfl, by simp [hphase]⟩, fun h => absurd rfl h, by simp, by simp, by simp⟩
  | batchDone hstage hbatch =>
    have hphase := hst.past (by simp [hstage])
    cases hhand : s.hand with
    | nil => exact ⟨by simp, fun _ => hphase, fun _ => hbatch, fun _ => rfl, by simp⟩
    | cons e rest => exact ⟨by simp, fun _ => hphase, fun _ => hbatch, by simp, by simp⟩
  | eventsDone hstage hbatch hhand =>
    exact ⟨by simp, fun _ => hst.past (by simp [hstage]), fun _ => hbatch, fun _ => hhand,
      by simp⟩
  | timersDone hstage hbatch =>
    exact ⟨by simp, fun _ => hst.past (by simp [hstage]), fun _ => hst.timers (by simp [hstage]),
      fun _ => hst.noEvents (.inl hstage), fun _ => hbatch⟩
  | flushed hstage =>
    exact ⟨by simp, fun _ => hst.past (by simp [hstage]), fun _ => hst.timers (by simp [hstage]),
      by simp, fun _ => hst.noBatch (.inl hstage)⟩
  | done _ hhand hl =>
    have hphase := (leave_same (.inr hl)).1
    exact ⟨fun _ => ⟨hhand, rfl, by simp [hphase]⟩, fun h => absurd rfl h, by simp, by simp,
      by simp⟩

theorem filter_perm (p : E → Bool) (es : List E) :
    es.Perm ((es.filter fun e => !p e) ++ es.filter p) := by
  refine (List.filter_append_perm p es).symm.trans ?_
  exact List.perm_append_comm

theorem Moves.eventsKept (h : Moves deferred lostCall s s') (hst : Staged s)
    (hs : EventsKept deferred s) : EventsKept deferred s' := by
  obtain ⟨horder, hheld, hscheduled⟩ := hs
  cases h with
  | produce e =>
    refine ⟨?_, ?_, hscheduled⟩
    · show (s.dispatched ++ s.hand ++ (s.events ++ [e])).Sublist (s.produced ++ [e])
      rw [← List.append_assoc]
      exact horder.append_right [e]
    · show (s.produced ++ [e]).Perm (s.dispatched ++ s.hand ++ (s.events ++ [e]) ++ s.scheduled)
      refine (hheld.append_right [e]).trans ?_
      simp only [List.append_assoc]
      refine (List.Perm.append_left _ (List.Perm.append_left _ (List.Perm.append_left _ ?_)))
      exact List.perm_append_comm
  | pending =>
    refine ⟨?_, ?_, ?_⟩
    · exact (List.Sublist.append_left List.filter_sublist _).trans horder
    · show s.produced.Perm (s.dispatched ++ s.hand ++ (s.events.filter fun e => !deferred e) ++
        (s.scheduled ++ s.events.filter deferred))
      refine hheld.trans ?_
      simp only [List.append_assoc]
      refine List.Perm.append_left _ (List.Perm.append_left _ ?_)
      refine ((filter_perm deferred s.events).append_right _).trans ?_
      rw [List.append_assoc]
      exact List.Perm.append_left _ List.perm_append_comm
    · intro e he
      rcases List.mem_append.mp he with he | he
      · exact hscheduled e he
      · exact (List.mem_filter.mp he).2
  | take hstage hl hl' =>
    have hhand := (hst.reap hstage).1
    rw [hhand, List.append_nil] at horder hheld
    refine ⟨?_, ?_, hscheduled⟩
    · show (s.dispatched ++ s.events ++ s.hand).Sublist _
      rw [hhand, List.append_nil]
      exact horder
    · show s.produced.Perm (s.dispatched ++ s.events ++ s.hand ++ s.scheduled)
      rw [hhand, List.append_nil]
      exact hheld
  | @event e rest l hstage hhand hl =>
    have hsplit : s.dispatched ++ [e] ++ rest = s.dispatched ++ s.hand := by
      rw [hhand, List.append_assoc, List.singleton_append]
    refine ⟨?_, ?_, hscheduled⟩
    · show (s.dispatched ++ [e] ++ rest ++ s.events).Sublist _
      rw [hsplit]
      exact horder
    · show s.produced.Perm (s.dispatched ++ [e] ++ rest ++ s.events ++ s.scheduled)
      rw [hsplit]
      exact hheld
  | unwound _ hl =>
    have hsplit : s.dispatched ++ [] ++ (s.hand ++ s.events) = s.dispatched ++ s.hand ++ s.events :=
      by rw [List.append_nil, List.append_assoc]
    refine ⟨?_, ?_, hscheduled⟩
    · show (s.dispatched ++ [] ++ (s.hand ++ s.events)).Sublist _
      rw [hsplit]
      exact horder
    · show s.produced.Perm (s.dispatched ++ [] ++ (s.hand ++ s.events) ++ s.scheduled)
      rw [hsplit]
      exact hheld
  | flushed hstage =>
    have hhand := hst.noEvents (.inr hstage)
    rw [hhand, List.append_nil] at horder hheld
    refine ⟨?_, ?_, hscheduled⟩
    · show (s.dispatched ++ s.events ++ s.hand).Sublist _
      rw [hhand, List.append_nil]
      exact horder
    · show s.produced.Perm (s.dispatched ++ s.events ++ s.hand ++ s.scheduled)
      rw [hhand, List.append_nil]
      exact hheld
  | _ => exact ⟨horder, hheld, hscheduled⟩

/-- Each deferred call that left the queue or was started is in the ready queue's history. -/
theorem Moves.calls (h : Moves deferred lostCall s s') (hs : loops.Reachable s.loop)
    (hcalls : (calls deferred lostCall s).Subperm s.loop.entered) :
    (Tick.calls deferred lostCall s').Subperm s'.loop.entered := by
  cases h with
  | work he hl => exact hcalls.trans (external_quiet he hl).entered.sublist.subperm
  | reap _ he hl => exact hcalls.trans (reaps_reaped he hl).entered.sublist.subperm
  | pending =>
    rw [schedulePendingLost_loop]
    show ((s.scheduled ++ s.events.filter deferred ++ s.dispatched.filter deferred).map
      lostCall).Subperm (s.loop.entered ++ (s.events.filter deferred).map lostCall)
    rw [List.map_append, List.map_append, List.append_assoc]
    have hperm : ((s.scheduled.map lostCall) ++ ((s.events.filter deferred).map lostCall ++
        (s.dispatched.filter deferred).map lostCall)).Perm
        (Tick.calls deferred lostCall s ++ (s.events.filter deferred).map lostCall) := by
      rw [Tick.calls, List.map_append, List.append_assoc]
      exact List.Perm.append_left _ List.perm_append_comm
    exact hperm.subperm.trans ((List.subperm_append_right _).mpr hcalls)
  | take _ hl hl' =>
    show List.Subperm _ _
    rw [(take_batch hs hl hl').2.1]
    exact hcalls
  | handle _ hl =>
    show List.Subperm _ _
    rw [(dispatch_same hs hl).2.1]
    exact hcalls
  | @event e rest l hstage hhand hl =>
    rcases hl with ⟨hdeferred, rfl⟩ | ⟨hdeferred, hl⟩
    · show ((s.scheduled ++ (s.dispatched ++ [e]).filter deferred).map lostCall).Subperm _
      rw [List.filter_append, List.filter_singleton, hdeferred]
      simpa [Tick.calls] using hcalls
    · injection hl with hl
      rw [← hl]
      show ((s.scheduled ++ (s.dispatched ++ [e]).filter deferred).map lostCall).Subperm
        (s.loop.entered ++ [lostCall e])
      rw [List.filter_append, List.filter_singleton, hdeferred, ← List.append_assoc,
        List.map_append]
      exact (List.subperm_append_right _).mpr hcalls
  | unwound _ hl =>
    show List.Subperm _ _
    rw [(leave_same hl).2.1]
    exact hcalls
  | done _ _ hl =>
    show List.Subperm _ _
    rw [(leave_same (.inr hl)).2.1]
    exact hcalls
  | _ => exact hcalls

theorem Sound.step {st : Step T E} (h : s.step deferred lostCall st = some s')
    (hs : Sound deferred lostCall s) : Sound deferred lostCall s' := by
  have hmoves := step_moves hs.staged h
  exact ⟨hmoves.reachable hs.loop, hmoves.staged hs.loop hs.staged,
    hmoves.eventsKept hs.staged hs.events, hmoves.calls hs.loop hs.calls⟩

theorem sound (h : (CoreLoop.ticks deferred lostCall).Reachable s) :
    Sound deferred lostCall s := by
  refine System.invariant (I := Sound deferred lostCall) _ ?_ (fun s st s' hstep hs => hs.step hstep) h
  refine ⟨⟨[], rfl⟩, ⟨fun _ => ⟨rfl, rfl, fun h => nomatch h⟩, fun h => absurd rfl h, ?_, ?_, ?_⟩, ?_, ?_⟩
  · rintro (h | h | h | h) <;> cases h
  · rintro (h | h) <;> cases h
  · rintro (h | h) <;> cases h
  · exact ⟨List.Sublist.refl _, List.Perm.refl _, by simp [CoreLoop.ticks, CoreLoop.new]⟩
  · exact List.nil_subperm

end Sound

/-! ## 4. What a whole tick does -/

/-- `s₀` is between two ticks and `s` comes later: where the work there was in `s₀` is by now. -/
structure Since (s₀ s : CoreLoop T E) : Prop where
  entered : s₀.loop.entered <+: s.loop.entered
  collections : s₀.loop.collections.flatten <+: s.loop.collections.flatten
  produced : s₀.produced <+: s.produced
  -- a tick that has begun will take it
  snapshot : s.loop.phase = .prepared ∨ s.loop.phase = .polled →
    s₀.loop.entered <+: s.loop.ran ++ s.loop.snapshot
  -- one that has taken the batch holds it or has run it
  ready : s.stage ≠ .reap → s₀.loop.entered <+: s.loop.ran ++ s.loop.readyInHand
  timers : s.stage ≠ .reap →
    s₀.loop.collections.flatten <+: s.loop.ranTimers ++ s.loop.timersInHand
  events : s.stage ≠ .reap → s₀.produced.Subperm (s.dispatched ++ s.hand ++ s.scheduled)
  -- one that has ended has run it
  done : s₀.ended < s.ended → s₀.loop.entered <+: s.loop.ran ∧
    s₀.loop.collections.flatten <+: s.loop.ranTimers ∧
    s₀.produced.Subperm (s.dispatched ++ s.scheduled)

theorem readyInHand_nil {l : Loop T} (h : l.batch = []) :
    l.readyInHand = [] ∧ l.timersInHand = [] := by
  have happend := readyInHand_append l
  rw [h, List.append_eq_nil_iff] at happend
  exact happend

theorem Since.refl {s : CoreLoop T E} (hidle : s.Idle) : Since s s where
  entered := List.prefix_refl _
  collections := List.prefix_refl _
  produced := List.prefix_refl _
  snapshot h := by
    rw [hidle.2] at h
    rcases h with h | h <;> cases h
  ready h := absurd hidle.1 h
  timers h := absurd hidle.1 h
  events h := absurd hidle.1 h
  done h := absurd h (Nat.lt_irrefl _)

/-- A step of the reactor that no tick is about. -/
theorem Since.quiet {s₀ s : CoreLoop T E} (h : Since s₀ s) {l : Loop T} (hl : Quiet s.loop l) :
    Since s₀ { s with loop := l } where
  entered := h.entered.trans hl.entered
  collections := by
    show _ <+: l.collections.flatten
    rw [hl.collections]
    exact h.collections
  produced := h.produced
  snapshot hphase := by
    show _ <+: l.ran ++ l.snapshot
    rw [hl.ran, hl.snapshot]
    exact h.snapshot (hl.phase ▸ hphase)
  ready hstage := by
    have hready : l.readyInHand = s.loop.readyInHand := by
      rw [Loop.readyInHand, Loop.readyInHand, hl.phase, hl.batch, hl.timers]
    show _ <+: l.ran ++ l.readyInHand
    rw [hl.ran, hready]
    exact h.ready hstage
  timers hstage := by
    have htimers : l.timersInHand = s.loop.timersInHand := by
      rw [Loop.timersInHand, Loop.timersInHand, hl.phase, hl.batch, hl.timers]
    show _ <+: l.ranTimers ++ l.timersInHand
    rw [hl.ranTimers, htimers]
    exact h.timers hstage
  events := h.events
  done hended := by
    show _ <+: l.ran ∧ _ <+: l.ranTimers ∧ _
    rw [hl.ran, hl.ranTimers]
    exact h.done hended

section Since

variable [DecidableEq T] {deferred : E → Bool} {lostCall : E → T} {s₀ s s' : CoreLoop T E}

theorem Since.moves (h : Since s₀ s) (hs : Sound deferred lostCall s)
    (hmoves : Moves deferred lostCall s s') : Since s₀ s' := by
  have hreach' := hmoves.reachable hs.loop
  cases hmoves with
  | work he hl => exact h.quiet (external_quiet he hl)
  | @reap e l hstage he hl =>
    have hl' := reaps_reaped he hl
    refine ⟨h.entered.trans hl'.entered, h.collections.trans hl'.collections, h.produced,
      fun hphase => ?_, fun hne => absurd hstage hne, fun hne => absurd hstage hne,
      fun hne => absurd hstage hne, fun hended => ?_⟩
    · rcases hl'.snapshot hphase with hsnap | ⟨hsnap, hbefore⟩
      · -- nothing is in hand, so what has entered has run or is queued
        have hkept := kept hreach'
        have hbatch := hkept.buffered.empty (.inr hphase)
        have horder := hkept.order
        rw [(readyInHand_nil hbatch).1, List.append_nil] at horder
        show _ <+: l.ran ++ l.snapshot
        rw [hsnap, ← horder]
        exact h.entered.trans hl'.entered
      · show _ <+: l.ran ++ l.snapshot
        rw [hsnap, hl'.ran]
        exact h.snapshot hbefore
    · show _ <+: l.ran ∧ _ <+: l.ranTimers ∧ _
      rw [hl'.ran, hl'.ranTimers]
      exact h.done hended
  | produce e =>
    exact ⟨h.entered, h.collections, h.produced.trans (List.prefix_append _ _), h.snapshot, h.ready,
      h.timers, h.events, h.done⟩
  | pending =>
    have hq := h.quiet (pushAll_quiet s.loop ((s.events.filter deferred).map lostCall))
    rw [← schedulePendingLost_loop] at hq
    have hmore : (s.dispatched ++ s.hand ++ s.scheduled).Sublist
        (s.dispatched ++ s.hand ++ (s.scheduled ++ s.events.filter deferred)) :=
      (List.sublist_append_left _ _).append_left _
    have hmore' : (s.dispatched ++ s.scheduled).Sublist
        (s.dispatched ++ (s.scheduled ++ s.events.filter deferred)) :=
      (List.sublist_append_left _ _).append_left _
    refine ⟨hq.entered, hq.collections, hq.produced, hq.snapshot, hq.ready, hq.timers,
      fun hstage => (h.events hstage).trans hmore.subperm, fun hended => ?_⟩
    obtain ⟨hran, htimers, hevents⟩ := hq.done hended
    exact ⟨hran, htimers, hevents.trans hmore'.subperm⟩
  | @take l l' hstage hl hl' =>
    obtain ⟨hphase, hentered, hcollections, hready, htimers, hpolled, hran, hranTimers⟩ :=
      take_batch hs.loop hl hl'
    have hhand := (hs.staged.reap hstage).1
    refine ⟨?_, ?_, h.produced, fun hne => ?_, fun _ => ?_, fun _ => ?_, fun _ => ?_, ?_⟩
    · show _ <+: l'.entered
      rw [hentered]
      exact h.entered
    · show _ <+: l'.collections.flatten
      rw [hcollections]
      exact h.collections
    · change l'.phase = _ ∨ l'.phase = _ at hne
      rw [hphase] at hne
      rcases hne with hne | hne <;> cases hne
    · show _ <+: l'.ran ++ l'.readyInHand
      rw [hready]
      exact h.snapshot (.inr hpolled)
    · show _ <+: l'.ranTimers ++ l'.timersInHand
      rw [htimers]
      exact h.collections
    · have hheld := hs.events.held
      rw [hhand, List.append_nil] at hheld
      exact h.produced.sublist.subperm.trans hheld.subperm
    · intro hended
      obtain ⟨hr, ht, hevents⟩ := h.done hended
      show _ <+: l'.ran ∧ _ <+: l'.ranTimers ∧ _
      rw [hran, hranTimers]
      exact ⟨hr, ht, hevents⟩
  | signals hstage =>
    have hne : s.stage ≠ .reap := by simp [hstage]
    exact ⟨h.entered, h.collections, h.produced, h.snapshot, fun _ => h.ready hne,
      fun _ => h.timers hne, fun _ => h.events hne, h.done⟩
  | @handle l hstage hl =>
    have hne : s.stage ≠ .reap := by rcases hstage with hstage | hstage <;> simp [hstage]
    obtain ⟨hphase, hentered, hcollections, -, -, hready, htimers, hruns⟩ :=
      dispatch_same hs.loop hl
    refine ⟨?_, ?_, h.produced, fun hp => ?_, fun _ => ?_, fun _ => ?_, fun _ => h.events hne, ?_⟩
    · show _ <+: l.entered
      rw [hentered]
      exact h.entered
    · show _ <+: l.collections.flatten
      rw [hcollections]
      exact h.collections
    · change l.phase = _ ∨ l.phase = _ at hp
      rw [hphase] at hp
      rcases hp with hp | hp <;> cases hp
    · show _ <+: l.ran ++ l.readyInHand
      rw [hready]
      exact h.ready hne
    · show _ <+: l.ranTimers ++ l.timersInHand
      rw [htimers]
      exact h.timers hne
    · intro hended
      obtain ⟨hr, ht, hevents⟩ := h.done hended
      exact ⟨hr.trans hruns.1, ht.trans hruns.2, hevents⟩
  | @event e rest l hstage hhand hl =>
    have hquiet : Quiet s.loop l := by
      rcases hl with ⟨-, rfl⟩ | ⟨-, hl⟩
      · exact .refl s.loop
      · exact external_quiet rfl hl
    have hq := h.quiet hquiet
    have hsplit : s.dispatched ++ [e] ++ rest = s.dispatched ++ s.hand := by
      rw [hhand, List.append_assoc, List.singleton_append]
    refine ⟨hq.entered, hq.collections, hq.produced, hq.snapshot, hq.ready, hq.timers,
      fun hne => ?_, fun hended => ?_⟩
    · show s₀.produced.Subperm (s.dispatched ++ [e] ++ rest ++ s.scheduled)
      rw [hsplit]
      exact h.events hne
    · obtain ⟨hr, ht, hevents⟩ := hq.done hended
      have hmore : (s.dispatched ++ s.scheduled).Sublist (s.dispatched ++ [e] ++ s.scheduled) :=
        (List.sublist_append_left _ _).append_right _
      exact ⟨hr, ht, hevents.trans hmore.subperm⟩
  | returned hstage =>
    exact ⟨h.entered, h.collections, h.produced, h.snapshot, h.ready, h.timers, h.events, h.done⟩
  | @unwound l hstage hl =>
    obtain ⟨hphase, hentered, hcollections, hran, hranTimers⟩ := leave_same hl
    refine ⟨?_, ?_, h.produced, fun hp => ?_, fun hne => absurd rfl hne, fun hne => absurd rfl hne,
      fun hne => absurd rfl hne, fun hended => ?_⟩
    · show _ <+: l.entered
      rw [hentered]
      exact h.entered
    · show _ <+: l.collections.flatten
      rw [hcollections]
      exact h.collections
    · change l.phase = _ ∨ l.phase = _ at hp
      rw [hphase] at hp
      rcases hp with hp | hp <;> cases hp
    · show _ <+: l.ran ∧ _ <+: l.ranTimers ∧ _
      rw [hran, hranTimers]
      exact h.done hended
  | batchDone hstage hbatch =>
    have hne : s.stage ≠ .reap := by simp [hstage]
    exact ⟨h.entered, h.collections, h.produced, h.snapshot, fun _ => h.ready hne,
      fun _ => h.timers hne, fun _ => h.events hne, h.done⟩
  | eventsDone hstage hbatch hhand =>
    have hne : s.stage ≠ .reap := by simp [hstage]
    exact ⟨h.entered, h.collections, h.produced, h.snapshot, fun _ => h.ready hne,
      fun _ => h.timers hne, fun _ => h.events hne, h.done⟩
  | timersDone hstage hbatch =>
    have hne : s.stage ≠ .reap := by simp [hstage]
    exact ⟨h.entered, h.collections, h.produced, h.snapshot, fun _ => h.ready hne,
      fun _ => h.timers hne, fun _ => h.events hne, h.done⟩
  | flushed hstage =>
    have hne : s.stage ≠ .reap := by simp [hstage]
    have hhand := hs.staged.noEvents (.inr hstage)
    have hevents := h.events hne
    rw [hhand, List.append_nil] at hevents
    have hmore : (s.dispatched ++ s.scheduled).Sublist (s.dispatched ++ s.events ++ s.scheduled) :=
      (List.sublist_append_left _ _).append_right _
    exact ⟨h.entered, h.collections, h.produced, h.snapshot, fun _ => h.ready hne,
      fun _ => h.timers hne, fun _ => hevents.trans hmore.subperm, h.done⟩
  | @done l hstage hhand hl =>
    obtain ⟨hphase, hentered, hcollections, hran, hranTimers⟩ := leave_same (.inr hl)
    obtain ⟨hnoReady, hnoTimers⟩ := readyInHand_nil (endTick_batch hl)
    refine ⟨?_, ?_, h.produced, fun hp => ?_, fun hne => absurd rfl hne, fun hne => absurd rfl hne,
      fun hne => absurd rfl hne, fun _ => ?_⟩
    · show _ <+: l.entered
      rw [hentered]
      exact h.entered
    · show _ <+: l.collections.flatten
      rw [hcollections]
      exact h.collections
    · change l.phase = _ ∨ l.phase = _ at hp
      rw [hphase] at hp
      rcases hp with hp | hp <;> cases hp
    · have hr := h.ready hstage
      have ht := h.timers hstage
      have hevents := h.events hstage
      rw [hnoReady, List.append_nil] at hr
      rw [hnoTimers, List.append_nil] at ht
      rw [hhand, List.append_nil] at hevents
      show _ <+: l.ran ∧ _ <+: l.ranTimers ∧ _
      rw [hran, hranTimers]
      exact ⟨hr, ht, hevents⟩

/-- Work is conserved across fatal unwinds: at any time every token pushed is in one place, every event
was started, is held or queued, or was scheduled as a call of its own; tokens, timers and events keep
their order, only deferred `connection_lost` calls leaving theirs; between two ticks nothing is in
hand; and once a later tick has run to its end, all that was there has been started. -/
theorem unwinds_conserve_work (h : (CoreLoop.ticks deferred lostCall).Reachable s) :
    s.loop.pushed.Perm s.loop.places ∧
      s.loop.entered = s.loop.ran ++ s.loop.readyInHand ++ s.loop.reactor.ready ∧
      s.loop.collections.flatten =
        s.loop.ranTimers ++ s.loop.timersInHand ++ s.loop.reactor.expired ∧
      (s.dispatched ++ s.hand ++ s.events).Sublist s.produced ∧
      s.produced.Perm (s.dispatched ++ s.hand ++ s.events ++ s.scheduled) ∧
      (∀ e ∈ s.scheduled, deferred e = true) ∧
      (calls deferred lostCall s).Subperm s.loop.entered ∧
      (s.Idle → s.loop.batch = [] ∧ s.hand = [] ∧
        ∀ s', (CoreLoop.ticks deferred lostCall).After s s' → s.ended < s'.ended →
          s.loop.entered <+: s'.loop.ran ∧
            s.loop.collections.flatten <+: s'.loop.ranTimers ∧
            s.produced.Subperm (s'.dispatched ++ s'.scheduled)) := by
  have hs := sound h
  have hkept := kept hs.loop
  refine ⟨hkept.held, hkept.order, hkept.fired, hs.events.order, hs.events.held,
    hs.events.scheduled, hs.calls, fun hidle => ⟨hkept.buffered.empty (.inl hidle.2),
      (hs.staged.reap hidle.1).1, fun s' hafter hended => ?_⟩⟩
  have hsince : Sound deferred lostCall s' ∧ Since s s' := by
    refine hafter.invariant (I := fun s' => Sound deferred lostCall s' ∧ Since s s')
      ⟨hs, .refl hidle⟩ fun s₁ st s₂ hstep hs₁ => ?_
    exact ⟨hs₁.1.step hstep, hs₁.2.moves hs₁.1 (step_moves hs₁.1.staged hstep)⟩
  exact hsince.2.done hended

end Since

-- two callbacks, a timer, two events, the first of which raises with a new event behind it
def raisingTick : List (Step Nat Nat) :=
  [.reactor (.pushReady 1), .reactor (.pushReady 2), .reactor (.scheduleTimer 5 9), .produce 10,
    .produce 11, .reactor (.prepareTick 7 [] []), .reactor (.finishPoll false 7 [] []), .take,
    .checkSignals false, .runHandle, .returned false, .runHandle, .returned false, .next,
    .dispatchEvent, .produce 12, .returned true]

-- the tick after it
def wholeTick : List (Step Nat Nat) :=
  [.reactor (.prepareTick 8 [] []), .reactor (.finishPoll false 8 [] []), .take,
    .checkSignals false, .next, .dispatchEvent, .returned false, .dispatchEvent, .returned false,
    .next, .runHandle, .returned false, .next, .next, .next]

-- the calls from 100 on are deferred
def demo : System (CoreLoop Nat Nat) (Step Nat Nat) := CoreLoop.ticks (100 ≤ ·) id

def raised : CoreLoop Nat Nat := (demo.replay raisingTick).getD .new

def caughtUp : CoreLoop Nat Nat := (wholeTick.foldlM demo.step raised).getD .new

theorem unwinds_conserve_work_raised :
    (raised.hand ++ raised.events = [11, 12] ∧ raised.loop.reactor.expired = [9]) ∧
      raised.loop.entered <+: caughtUp.loop.ran ∧
      raised.loop.collections.flatten <+: caughtUp.loop.ranTimers ∧
      raised.produced.Subperm (caughtUp.dispatched ++ caughtUp.scheduled) := by
  have hreach : (CoreLoop.ticks (100 ≤ ·) id).Reachable raised :=
    ⟨raisingTick, by with_unfolding_all rfl⟩
  have hafter : (CoreLoop.ticks (100 ≤ ·) id).After raised caughtUp :=
    ⟨wholeTick, by with_unfolding_all rfl⟩
  have hidle : raised.Idle := ⟨by with_unfolding_all rfl, by with_unfolding_all rfl⟩
  have hended : raised.ended = 0 ∧ caughtUp.ended = 1 :=
    ⟨by with_unfolding_all rfl, by with_unfolding_all rfl⟩
  obtain ⟨-, -, -, -, -, -, -, hlater⟩ := unwinds_conserve_work hreach
  refine ⟨⟨by with_unfolding_all rfl, by with_unfolding_all rfl⟩, ?_⟩
  exact (hlater hidle).2.2 caughtUp hafter (by omega)

end Cadeloop.Pyshim.Tick
