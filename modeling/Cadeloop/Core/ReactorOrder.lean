import Cadeloop.Core.ReactorRuns

/-!
# Tick batching keeps order and loses nothing

The invariant of the ticks: where every pushed token is, in what order the ready tokens and the
timers leave, and what the dispatch buffer holds in each phase.
-/

namespace Cadeloop.Core.Tick

open Cadeloop.Reasoning
open Cadeloop.Core.Timer (TimerHeap Entry)

variable {T : Type*}

/-! ## 1. The invariant -/

/-- Every place a token can be in. -/
def Loop.places (s : Loop T) : List T :=
  s.ran ++ s.ranTimers ++ s.discarded ++ s.batch ++ s.reactor.ready ++ s.reactor.expired ++
    s.reactor.timers.payloads ++ s.reactor.timers.graveyard ++ s.reactor.xthread.queue ++
    s.reactor.xthread.timers.map Prod.snd

/-- What the dispatch buffer holds. -/
structure Buffered (s : Loop T) : Prop where
  empty : s.phase = .idle ∨ s.phase = .prepared ∨ s.phase = .polled → s.batch = []
  queued : s.phase = .prepared ∨ s.phase = .polled →
    s.reactor.batchLeft = s.snapshot.length ∧ s.snapshot <+: s.reactor.ready
  fresh : s.phase = .prepared ∨ s.phase = .polled ∨ s.phase = .taken → s.tick = []
  taken : s.phase = .taken → s.batch = s.snapshot
  dispatching : s.phase = .dispatching → s.tick ++ s.batch = s.snapshot ++ s.due

/-- What a run of ticks keeps. -/
structure Kept (s : Loop T) : Prop where
  held : s.pushed.Perm s.places
  order : s.entered = s.ran ++ s.readyInHand ++ s.reactor.ready
  posted : s.posted = s.drained ++ s.reactor.xthread.queue
  fired : s.collections.flatten = s.ranTimers ++ s.timersInHand ++ s.reactor.expired
  buffered : Buffered s

theorem readyInHand_append (s : Loop T) : s.readyInHand ++ s.timersInHand = s.batch := by
  unfold Loop.readyInHand Loop.timersInHand
  split
  · exact List.take_append_drop _ _
  · exact List.append_nil _

section Steps

variable [DecidableEq T] {s : Loop T}

/-- A new reactor that differs only in what it keeps of the heap, and in its clock. -/
theorem Kept.heap (h : Kept s) {reactor : Reactor T} (hready : reactor.ready = s.reactor.ready)
    (hexpired : reactor.expired = s.reactor.expired)
    (hxthread : reactor.xthread = s.reactor.xthread)
    (hleft : reactor.batchLeft = s.reactor.batchLeft)
    (hleaves : Leaves s.reactor.timers reactor.timers []) : Kept { s with reactor } := by
  refine ⟨List.perm_iff_count.mpr fun t => ?_, ?_, ?_, ?_, ?_⟩
  · have hheld := h.held.count_eq t
    have hc := hleaves.count_eq t
    simp only [Loop.places, hready, hexpired, hxthread, List.count_append, List.count_nil]
      at hheld hc ⊢
    omega
  · show s.entered = s.ran ++ s.readyInHand ++ reactor.ready
    rw [hready]
    exact h.order
  · show s.posted = s.drained ++ reactor.xthread.queue
    rw [hxthread]
    exact h.posted
  · show s.collections.flatten = s.ranTimers ++ s.timersInHand ++ reactor.expired
    rw [hexpired]
    exact h.fired
  · refine ⟨h.buffered.empty, fun hp => ?_, h.buffered.fresh, h.buffered.taken,
      h.buffered.dispatching⟩
    show reactor.batchLeft = _ ∧ _ <+: reactor.ready
    rw [hleft, hready]
    exact h.buffered.queued hp

/-- A collection, which leaves the dispatch buffer alone. -/
theorem Kept.collected (h : Kept s) (now : Nat) (raced raced' : List (Foreign T))
    (hbatch : s.batch = []) (hphase : s.phase ≠ .dispatching) :
    let s' := s.collected (s.reactor.collect s.cancelled now raced raced') raced raced'
    s'.pushed.Perm s'.places ∧ s'.entered = s'.ran ++ s'.reactor.ready ∧
      s'.posted = s'.drained ++ s'.reactor.xthread.queue ∧
      s'.collections.flatten = s'.ranTimers ++ s'.reactor.expired ∧
      s'.reactor.batchLeft = s'.snapshot.length ∧ s'.snapshot = s'.reactor.ready := by
  intro s'
  obtain ⟨⟨fired, hexpired, hheap⟩, hready, hxthread, -, hleft⟩ :=
    collect_spec s.reactor s.cancelled now raced raced'
  obtain ⟨hqueue, htimers⟩ := drainInto_eq s.reactor.xthread raced raced'
  have hhand : s.readyInHand = [] ∧ s.timersInHand = [] := by
    rw [Loop.readyInHand, Loop.timersInHand, if_neg hphase, if_neg hphase]
    exact ⟨hbatch, rfl⟩
  refine ⟨List.perm_iff_count.mpr fun t => ?_, ?_, ?_, ?_, hleft, rfl⟩
  · have hheld := h.held.count_eq t
    have hc := hheap.count_eq t
    have hq := congrArg (List.count t) hqueue
    have ht := congrArg (fun l => (l.map Prod.snd).count t) htimers
    have hp := count_pushed (raced ++ raced') t
    simp only [s', Loop.collected, Loop.places, hready, hexpired, hxthread, List.count_append,
      List.map_append] at hheld hc hq ht hp ⊢
    omega
  · have horder := h.order
    rw [hhand.1, List.append_nil] at horder
    show s.entered ++ _ = s.ran ++ (s.reactor.collect s.cancelled now raced raced').ready
    rw [horder, hready, List.append_assoc]
  · show s.posted ++ _ = _ ++ _ ++ (s.reactor.collect s.cancelled now raced raced').xthread.queue
    rw [h.posted, hxthread, List.append_assoc, hqueue, List.append_assoc]
  · have hf := h.fired
    rw [hhand.2, List.append_nil] at hf
    show (s.collections ++ [_]).flatten =
      s.ranTimers ++ (s.reactor.collect s.cancelled now raced raced').expired
    rw [List.flatten_append, hf, hexpired, List.drop_left]
    simp only [List.flatten_cons, List.flatten_nil, List.append_nil, List.append_assoc]

theorem Kept.takeBatch (h : Kept s) (hphase : s.phase = .polled) :
    Kept { s with
      reactor := (s.reactor.takeBatch s.batch).2
      batch := (s.reactor.takeBatch s.batch).1
      phase := .taken } := by
  have hbatch := h.buffered.empty (.inr (.inr hphase))
  obtain ⟨hleft, later, hready⟩ := h.buffered.queued (.inr hphase)
  have htake : s.reactor.takeBatch s.batch =
      (s.snapshot, { s.reactor with batchLeft := 0, ready := later }) := by
    rw [hbatch, takeBatch_eq, hleft, ← hready, List.take_left, List.drop_left]
  have hne : s.phase ≠ .dispatching := by
    rw [hphase]
    decide
  rw [htake]
  refine ⟨List.perm_iff_count.mpr fun t => ?_, ?_, h.posted, ?_, ?_, ?_, ?_, ?_, ?_⟩
  · have hheld := h.held.count_eq t
    simp only [Loop.places, hbatch, ← hready, List.count_append, List.count_nil] at hheld ⊢
    omega
  · have horder := h.order
    rw [Loop.readyInHand, if_neg hne, hbatch, List.append_nil, ← hready] at horder
    show s.entered = s.ran ++ s.snapshot ++ later
    rw [horder, List.append_assoc]
  · have hf := h.fired
    rw [Loop.timersInHand, if_neg hne] at hf
    exact hf
  · intro hp
    simp at hp
  · intro hp
    simp at hp
  · exact fun _ => h.buffered.fresh (.inr (.inl hphase))
  · exact fun _ => rfl
  · intro hp
    cases hp

theorem Kept.takeExpired (h : Kept s) (hphase : s.phase = .taken) :
    Kept { s with
      reactor := (s.reactor.takeExpired s.batch).2.2
      batch := (s.reactor.takeExpired s.batch).2.1
      timers := (s.reactor.takeExpired s.batch).1
      due := s.reactor.expired
      phase := .dispatching } := by
  have hne : s.phase ≠ .dispatching := by
    rw [hphase]
    decide
  have hlen : (s.batch ++ s.reactor.expired).length - s.reactor.expired.length =
      s.batch.length := by
    rw [List.length_append]
    omega
  refine ⟨List.perm_iff_count.mpr fun t => ?_, ?_, h.posted, ?_, ?_, ?_, ?_, ?_, ?_⟩
  · have hheld := h.held.count_eq t
    simp only [Loop.places, Reactor.takeExpired, List.count_append, List.count_nil] at hheld ⊢
    omega
  · have horder := h.order
    rw [Loop.readyInHand, if_neg hne] at horder
    show s.entered = s.ran ++ (s.batch ++ s.reactor.expired).take _ ++ s.reactor.ready
    rw [Reactor.takeExpired, hlen, List.take_left]
    exact horder
  · have hf := h.fired
    rw [Loop.timersInHand, if_neg hne, List.append_nil] at hf
    show s.collections.flatten = s.ranTimers ++ (s.batch ++ s.reactor.expired).drop _ ++ []
    rw [Reactor.takeExpired, hlen, List.drop_left, List.append_nil]
    exact hf
  · intro hp
    simp at hp
  · intro hp
    simp at hp
  · intro hp
    simp at hp
  · intro hp
    cases hp
  · intro _
    show s.tick ++ (s.batch ++ s.reactor.expired) = s.snapshot ++ s.reactor.expired
    rw [h.buffered.fresh (.inr (.inr hphase)), h.buffered.taken hphase]
    rfl

/-- A dispatch of the front token: of the ready batch while there is one, then of the timers. -/
theorem Kept.dispatch (h : Kept s) (hphase : s.phase = .dispatching) {token : T} {batch : List T}
    (hbatch : s.batch = token :: batch) :
    if s.timers < s.batch.length then
      Kept { s with batch, ran := s.ran ++ [token], tick := s.tick ++ [token] }
    else Kept { s with batch, ranTimers := s.ranTimers ++ [token], tick := s.tick ++ [token] } := by
  have hheld := fun t => h.held.count_eq t
  have horder := h.order
  have hfired := h.fired
  have htick := h.buffered.dispatching hphase
  rw [Loop.readyInHand, if_pos hphase, hbatch, List.length_cons] at horder
  rw [Loop.timersInHand, if_pos hphase, hbatch, List.length_cons] at hfired
  rw [hbatch, List.append_cons] at htick
  rw [hbatch, List.length_cons]
  have hbuffered : ∀ ran ranTimers : List T,
      Buffered { s with batch, ran, ranTimers, tick := s.tick ++ [token] } := by
    intro ran ranTimers
    refine ⟨fun hp => ?_, fun hp => ?_, fun hp => ?_, fun hp => ?_, fun _ => htick⟩
    all_goals
      simp [hphase] at hp
  split
  · rename_i hlt
    have hsplit : batch.length + 1 - s.timers = (batch.length - s.timers) + 1 := by omega
    rw [hsplit, List.take_succ_cons, List.append_cons] at horder
    rw [hsplit, List.drop_succ_cons] at hfired
    refine ⟨List.perm_iff_count.mpr fun t => ?_, ?_, h.posted, ?_, hbuffered _ _⟩
    · have hheld := hheld t
      simp only [Loop.places, hbatch, List.count_append, List.count_cons, List.count_nil]
        at hheld ⊢
      omega
    · rw [Loop.readyInHand, if_pos hphase]
      exact horder
    · rw [Loop.timersInHand, if_pos hphase]
      exact hfired
  · rename_i hge
    have hzero : batch.length + 1 - s.timers = 0 ∧ batch.length - s.timers = 0 := by omega
    rw [hzero.1, List.take_zero] at horder
    rw [hzero.1, List.drop_zero, List.append_cons] at hfired
    refine ⟨List.perm_iff_count.mpr fun t => ?_, ?_, h.posted, ?_, hbuffered _ _⟩
    · have hheld := hheld t
      simp only [Loop.places, hbatch, List.count_append, List.count_cons, List.count_nil]
        at hheld ⊢
      omega
    · rw [Loop.readyInHand, if_pos hphase]
      show s.entered = s.ran ++ batch.take (batch.length - s.timers) ++ s.reactor.ready
      rw [hzero.2, List.take_zero]
      exact horder
    · rw [Loop.timersInHand, if_pos hphase]
      show s.collections.flatten =
        s.ranTimers ++ [token] ++ batch.drop (batch.length - s.timers) ++ s.reactor.expired
      rw [hzero.2, List.drop_zero]
      exact hfired

theorem Kept.handBack (h : Kept s) (hphase : s.phase = .dispatching) :
    Kept { s with
      reactor := handBack s.reactor s.batch s.timers, batch := [], phase := .idle } := by
  have horder := h.order
  have hfired := h.fired
  rw [Loop.readyInHand, if_pos hphase] at horder
  rw [Loop.timersInHand, if_pos hphase] at hfired
  rw [handBack_eq]
  refine ⟨List.perm_iff_count.mpr fun t => ?_, ?_, h.posted, ?_, fun _ => rfl, ?_, ?_, ?_, ?_⟩
  · have hheld := h.held.count_eq t
    have hsplit := congrArg (List.count t)
      (List.take_append_drop (s.batch.length - s.timers) s.batch)
    simp only [Loop.places, List.count_append, List.count_nil] at hheld hsplit ⊢
    omega
  · show s.entered = s.ran ++ [] ++ (_ ++ s.reactor.ready)
    rw [List.append_nil, ← List.append_assoc]
    exact horder
  · show s.collections.flatten = s.ranTimers ++ [] ++ (_ ++ s.reactor.expired)
    rw [List.append_nil, ← List.append_assoc]
    exact hfired
  · intro hp
    simp at hp
  · intro hp
    simp at hp
  · intro hp
    cases hp
  · intro hp
    cases hp

omit [DecidableEq T] in
theorem pollTimeout_leaves (r : Reactor T) (cancelled : T → Bool) (now : Nat) :
    let r' := (r.pollTimeout cancelled now).2
    r'.ready = r.ready ∧ r'.expired = r.expired ∧ r'.xthread = r.xthread ∧
      r'.batchLeft = r.batchLeft ∧
      ∃ marks, TimerHeap.Buries cancelled r.timers r'.timers marks := by
  have hdrop := (@TimerHeap.Buries.dropCancelledTop _ cancelled r.timers).1
  unfold Reactor.pollTimeout
  dsimp only
  split
  · exact ⟨rfl, rfl, rfl, rfl, [], .none r.timers⟩
  · split
    · exact ⟨rfl, rfl, rfl, rfl, _, hdrop⟩
    · split
      · exact ⟨rfl, rfl, rfl, rfl, _, hdrop⟩
      · exact ⟨rfl, rfl, rfl, rfl, _, hdrop⟩

theorem Kept.step {s' : Loop T} (e : Event T) (hstep : s.step e = some s') (h : Kept s) :
    Kept s' := by
  have hcount := fun t => h.held.count_eq t
  cases e with
  | pushReady token =>
    injection hstep with hstep
    subst hstep
    refine ⟨List.perm_iff_count.mpr fun t => ?_, ?_, h.posted, h.fired,
      ⟨h.buffered.empty, fun hp => ?_, h.buffered.fresh, h.buffered.taken,
        h.buffered.dispatching⟩⟩
    · have hc := hcount t
      simp only [Loop.places, Reactor.pushReady, List.count_append] at hc ⊢
      omega
    · show s.entered ++ [token] = s.ran ++ s.readyInHand ++ (s.reactor.ready ++ [token])
      rw [h.order, List.append_assoc]
    · obtain ⟨hleft, hprefix⟩ := h.buffered.queued hp
      exact ⟨hleft, hprefix.trans (List.prefix_append _ _)⟩
  | foreign step =>
    injection hstep with hstep
    subst hstep
    obtain ⟨hqueue, htimers⟩ := foldl_foreign [step] s.reactor.xthread
    simp only [List.foldl_cons, List.foldl_nil, List.flatMap_cons, List.flatMap_nil,
      List.append_nil] at hqueue htimers
    refine ⟨List.perm_iff_count.mpr fun t => ?_, h.order, ?_, h.fired,
      ⟨h.buffered.empty, h.buffered.queued, h.buffered.fresh, h.buffered.taken,
        h.buffered.dispatching⟩⟩
    · have hc := hcount t
      simp only [Loop.places, hqueue, htimers, Foreign.pushed, List.map_append, List.count_append]
        at hc ⊢
      omega
    · show s.posted ++ step.posted = s.drained ++ (s.reactor.xthread.foreign step).queue
      rw [h.posted, hqueue, List.append_assoc]
  | scheduleTimer deadline token =>
    injection hstep with hstep
    subst hstep
    have hleaves := schedule_leaves (.refl s.reactor.timers) deadline token
    refine ⟨List.perm_iff_count.mpr fun t => ?_, h.order, h.posted, h.fired,
      ⟨h.buffered.empty, h.buffered.queued, h.buffered.fresh, h.buffered.taken,
        h.buffered.dispatching⟩⟩
    have hc := hcount t
    have hl := hleaves.count_eq t
    have hgrave : (s.reactor.timers.schedule deadline token).graveyard =
        s.reactor.timers.graveyard := rfl
    simp only [Loop.places, Reactor.scheduleTimer, hgrave, List.count_append, List.count_cons,
      List.count_nil] at hc hl ⊢
    omega
  | cancel token =>
    injection hstep with hstep
    subst hstep
    exact ⟨h.held, h.order, h.posted, h.fired, ⟨h.buffered.empty, h.buffered.queued,
      h.buffered.fresh, h.buffered.taken, h.buffered.dispatching⟩⟩
  | countCancelled =>
    injection hstep with hstep
    subst hstep
    exact h.heap rfl rfl rfl rfl (.refl _)
  | takeGraveyard =>
    injection hstep with hstep
    subst hstep
    refine ⟨List.perm_iff_count.mpr fun t => ?_, h.order, h.posted, h.fired,
      ⟨h.buffered.empty, h.buffered.queued, h.buffered.fresh, h.buffered.taken,
        h.buffered.dispatching⟩⟩
    have hc := hcount t
    simp only [Loop.places, Reactor.takeGraveyard, TimerHeap.takeGraveyard, TimerHeap.payloads,
      List.count_append, List.count_nil] at hc ⊢
    omega
  | prepareTick now raced raced' =>
    simp only [Loop.step, Option.ite_none_right_eq_some, Option.some.injEq] at hstep
    obtain ⟨hphase, rfl⟩ := hstep
    have hbatch := h.buffered.empty (.inl hphase)
    obtain ⟨hheld, horder, hposted, hfired, hleft, hsnapshot⟩ :=
      h.collected now raced raced' hbatch (by rw [hphase]; decide)
    refine ⟨hheld, ?_, hposted, ?_, fun _ => hbatch, fun _ => ⟨hleft, hsnapshot ▸ List.prefix_refl _⟩,
      fun _ => rfl, fun hp => ?_, fun hp => ?_⟩
    · show _ = s.ran ++ s.batch ++ _
      rw [hbatch, List.append_nil]
      exact horder
    · show _ = s.ranTimers ++ [] ++ _
      rw [List.append_nil]
      exact hfired
    · cases hp
    · cases hp
  | pollTimeout now =>
    simp only [Loop.step, Option.ite_none_right_eq_some, Option.some.injEq] at hstep
    obtain ⟨-, rfl⟩ := hstep
    obtain ⟨hready, hexpired, hxthread, hleft, marks, hburies⟩ :=
      pollTimeout_leaves s.reactor s.cancelled now
    exact h.heap hready hexpired hxthread hleft (.buries hburies)
  | pollFailed =>
    simp only [Loop.step, Option.ite_none_right_eq_some, Option.some.injEq] at hstep
    obtain ⟨hphase, rfl⟩ := hstep
    have hbatch := h.buffered.empty (.inr (.inl hphase))
    have hne : s.phase ≠ .dispatching := by
      rw [hphase]
      decide
    have horder := h.order
    have hfired := h.fired
    rw [Loop.readyInHand, if_neg hne] at horder
    rw [Loop.timersInHand, if_neg hne] at hfired
    refine ⟨h.held, horder, h.posted, hfired, fun _ => hbatch, fun hp => ?_, fun hp => ?_,
      fun hp => ?_, fun hp => ?_⟩
    all_goals
      simp at hp
  | finishPoll parked now raced raced' =>
    simp only [Loop.step, Option.ite_none_right_eq_some, Option.some.injEq] at hstep
    obtain ⟨hphase, rfl⟩ := hstep
    have hbatch := h.buffered.empty (.inr (.inl hphase))
    have hne : s.phase ≠ .dispatching := by
      rw [hphase]
      decide
    have htick := h.buffered.fresh (.inl hphase)
    cases parked with
    | true =>
      obtain ⟨hheld, horder, hposted, hfired, hleft, hsnapshot⟩ :=
        h.collected now raced raced' hbatch hne
      refine ⟨hheld, ?_, hposted, ?_, fun _ => hbatch,
        fun _ => ⟨hleft, hsnapshot ▸ List.prefix_refl _⟩, fun _ => htick, fun hp => ?_,
        fun hp => ?_⟩
      · show _ = s.ran ++ s.batch ++ _
        rw [hbatch, List.append_nil]
        exact horder
      · show _ = s.ranTimers ++ [] ++ _
        rw [List.append_nil]
        exact hfired
      · cases hp
      · cases hp
    | false =>
      have horder := h.order
      have hfired := h.fired
      rw [Loop.readyInHand, if_neg hne] at horder
      rw [Loop.timersInHand, if_neg hne] at hfired
      refine ⟨h.held, horder, h.posted, hfired, fun _ => hbatch,
        fun _ => h.buffered.queued (.inl hphase), fun _ => htick, fun hp => ?_, fun hp => ?_⟩
      · cases hp
      · cases hp
  | absorbIntoBatch =>
    simp only [Loop.step, Option.ite_none_right_eq_some, Option.some.injEq] at hstep
    obtain ⟨hphase, rfl⟩ := hstep
    refine ⟨h.held, h.order, h.posted, h.fired, h.buffered.empty,
      fun _ => ⟨rfl, List.prefix_refl _⟩, h.buffered.fresh, fun hp => ?_, fun hp => ?_⟩
    all_goals
      have hp : s.phase = _ := hp
      rw [hphase] at hp
      cases hp
  | takeBatch =>
    simp only [Loop.step, Option.ite_none_right_eq_some, Option.some.injEq] at hstep
    obtain ⟨hphase, rfl⟩ := hstep
    exact h.takeBatch hphase
  | takeExpired =>
    simp only [Loop.step, Option.ite_none_right_eq_some, Option.some.injEq] at hstep
    obtain ⟨hphase, rfl⟩ := hstep
    exact h.takeExpired hphase
  | dispatch =>
    simp only [Loop.step, Option.ite_none_right_eq_some] at hstep
    obtain ⟨hphase, hstep⟩ := hstep
    cases hbatch : s.batch with
    | nil =>
      rw [hbatch] at hstep
      cases hstep
    | cons token batch =>
      have hkept := h.dispatch hphase hbatch
      rw [hbatch] at hstep hkept
      dsimp only at hstep
      split at hstep
      · rename_i hlt
        rw [if_pos hlt] at hkept
        injection hstep with hstep
        rw [← hstep]
        exact hkept
      · rename_i hge
        rw [if_neg hge] at hkept
        injection hstep with hstep
        rw [← hstep]
        exact hkept
  | handBack =>
    simp only [Loop.step, Option.ite_none_right_eq_some, Option.some.injEq] at hstep
    obtain ⟨hphase, rfl⟩ := hstep
    exact h.handBack hphase
  | endTick =>
    simp only [Loop.step, Option.ite_none_right_eq_some, Option.some.injEq] at hstep
    obtain ⟨⟨hphase, hbatch⟩, rfl⟩ := hstep
    have hkept := h.handBack hphase
    rw [Tick.handBack, if_pos hbatch, ← hbatch] at hkept
    exact hkept

theorem kept {s : Loop T} (hs : loops.Reachable s) : Kept s := by
  refine loops.invariant (I := Kept) ?_ (fun s e s' hstep h => h.step e hstep) hs
  exact ⟨List.Perm.refl _, rfl, rfl, rfl, ⟨fun _ => rfl, fun _ => ⟨rfl, List.prefix_refl _⟩,
    fun _ => rfl, (fun hp => by cases hp), (fun hp => by cases hp)⟩⟩

/-! ## 2. The order of the timers -/

/-- The heap and the collections, while the sequence numbers have not wrapped. -/
structure Timed (s : Loop T) : Prop where
  follows : Follows s.cancelled s.reactor.timers s.scheduled
  inOrder : ∀ c ∈ s.collections, InOrder s.scheduled c

theorem Timed.collected (h : Timed s) (now : Nat) (raced raced' : List (Foreign T)) :
    let s' := s.collected (s.reactor.collect s.cancelled now raced raced') raced raced'
    s'.scheduled.length ≤ 2 ^ 64 → Timed s' := by
  intro s' hlen
  obtain ⟨hfollows, hfired⟩ := h.follows.collect now raced raced' hlen
  refine ⟨hfollows, fun c hc => ?_⟩
  rcases List.mem_append.mp hc with hc | hc
  · exact (h.inOrder c hc).append _
  · rw [List.mem_singleton.mp hc]
    exact hfired

theorem step_scheduled {s' : Loop T} {e : Event T} (hstep : s.step e = some s') :
    s.scheduled <+: s'.scheduled := by
  cases e with
  | finishPoll parked now raced raced' =>
    simp only [Loop.step, Option.ite_none_right_eq_some, Option.some.injEq] at hstep
    obtain ⟨-, rfl⟩ := hstep
    cases parked with
    | true => exact List.prefix_append _ _
    | false => exact List.prefix_refl _
  | dispatch =>
    simp only [Loop.step, Option.ite_none_right_eq_some] at hstep
    obtain ⟨-, hstep⟩ := hstep
    split at hstep
    · cases hstep
    · split at hstep <;>
      · injection hstep with hstep
        rw [← hstep]
  | _ =>
    simp only [Loop.step, Option.ite_none_right_eq_some, Option.some.injEq] at hstep
    obtain ⟨-, rfl⟩ := hstep
    first
    | exact List.prefix_refl _
    | exact List.prefix_append _ _

theorem Timed.step {s' : Loop T} {e : Event T} (hstep : s.step e = some s')
    (hlen : s'.scheduled.length ≤ 2 ^ 64) (h : Timed s) : Timed s' := by
  cases e with
  | pushReady token =>
    injection hstep with hstep
    rw [← hstep]
    exact ⟨h.follows, h.inOrder⟩
  | foreign step =>
    injection hstep with hstep
    rw [← hstep]
    exact ⟨h.follows, h.inOrder⟩
  | scheduleTimer deadline token =>
    injection hstep with hstep
    rw [← hstep, List.length_append, List.length_singleton] at hlen
    rw [← hstep]
    exact ⟨h.follows.schedule (by omega) deadline token, fun c hc => (h.inOrder c hc).append _⟩
  | cancel token =>
    injection hstep with hstep
    rw [← hstep]
    exact ⟨h.follows.cancel token, h.inOrder⟩
  | countCancelled =>
    injection hstep with hstep
    rw [← hstep]
    exact ⟨h.follows, h.inOrder⟩
  | takeGraveyard =>
    injection hstep with hstep
    rw [← hstep]
    exact ⟨h.follows.takeGraveyard, h.inOrder⟩
  | prepareTick now raced raced' =>
    simp only [Loop.step, Option.ite_none_right_eq_some, Option.some.injEq] at hstep
    obtain ⟨-, rfl⟩ := hstep
    have ht := h.collected now raced raced' hlen
    exact ⟨ht.follows, ht.inOrder⟩
  | pollTimeout now =>
    simp only [Loop.step, Option.ite_none_right_eq_some, Option.some.injEq] at hstep
    obtain ⟨-, rfl⟩ := hstep
    obtain ⟨-, -, -, -, marks, hburies⟩ := pollTimeout_leaves s.reactor s.cancelled now
    exact ⟨h.follows.buries hburies, h.inOrder⟩
  | finishPoll parked now raced raced' =>
    simp only [Loop.step, Option.ite_none_right_eq_some, Option.some.injEq] at hstep
    obtain ⟨-, rfl⟩ := hstep
    cases parked with
    | true =>
      have ht := h.collected now raced raced' hlen
      exact ⟨ht.follows, ht.inOrder⟩
    | false => exact ⟨h.follows, h.inOrder⟩
  | takeBatch =>
    simp only [Loop.step, Option.ite_none_right_eq_some, Option.some.injEq] at hstep
    obtain ⟨-, rfl⟩ := hstep
    have htimers : (s.reactor.takeBatch s.batch).2.timers = s.reactor.timers := by
      unfold Reactor.takeBatch
      dsimp only
      split <;> rfl
    refine ⟨?_, h.inOrder⟩
    show Follows s.cancelled (s.reactor.takeBatch s.batch).2.timers s.scheduled
    rw [htimers]
    exact h.follows
  | dispatch =>
    simp only [Loop.step, Option.ite_none_right_eq_some] at hstep
    obtain ⟨-, hstep⟩ := hstep
    split at hstep
    · cases hstep
    · split at hstep <;>
      · injection hstep with hstep
        rw [← hstep]
        exact ⟨h.follows, h.inOrder⟩
  | handBack =>
    simp only [Loop.step, Option.ite_none_right_eq_some, Option.some.injEq] at hstep
    obtain ⟨-, rfl⟩ := hstep
    rw [handBack_eq]
    exact ⟨h.follows, h.inOrder⟩
  | _ =>
    simp only [Loop.step, Option.ite_none_right_eq_some, Option.some.injEq] at hstep
    obtain ⟨-, rfl⟩ := hstep
    exact ⟨h.follows, h.inOrder⟩

theorem timed {s : Loop T} (hs : loops.Reachable s) (hlen : s.scheduled.length ≤ 2 ^ 64) :
    Timed s := by
  refine loops.invariant (I := fun s => s.scheduled.length ≤ 2 ^ 64 → Timed s) ?_ ?_ hs hlen
  · intro _
    exact ⟨.new, fun c hc => by cases hc⟩
  · intro s e s' hstep h hlen
    exact .step hstep hlen (h ((step_scheduled hstep).length_le.trans hlen))

/-! ## 3. What a tick promises -/

/-- **Tick batching keeps order and loses nothing.**  In every state a loop that follows the tick
comes to: each token pushed is in exactly one place, dispatched once at most; ready tokens leave in
the order they entered the queue, those of other threads in the order of their pushes; a tick
dispatches the ready queue of its last snapshot and then its timers, and no other token; timers
leave collection by collection, and each collection fires in (deadline, scheduling) order as long
as the sequence numbers of the heap have not wrapped; and the batch taken at once is the batch
popped one by one. -/
theorem ticks_keep_order {s : Loop T} (hs : loops.Reachable s) :
    s.pushed.Perm s.places ∧
      s.entered = s.ran ++ s.readyInHand ++ s.reactor.ready ∧
      s.posted = s.drained ++ s.reactor.xthread.queue ∧
      (s.phase = .taken → s.batch = s.snapshot) ∧
      (s.phase = .dispatching → s.tick ++ s.batch = s.snapshot ++ s.due) ∧
      s.readyInHand ++ s.timersInHand = s.batch ∧
      s.collections.flatten = s.ranTimers ++ s.timersInHand ++ s.reactor.expired ∧
      (s.scheduled.length ≤ 2 ^ 64 → ∀ c ∈ s.collections, InOrder s.scheduled c) ∧
      ∀ n, s.reactor.batchLeft ≤ n →
        (popAll n s.reactor).1 = (s.reactor.takeBatch []).1 ∧
        (popAll n s.reactor).2.ready = (s.reactor.takeBatch []).2.ready := by
  have h := kept hs
  exact ⟨h.held, h.order, h.posted, h.buffered.taken, h.buffered.dispatching,
    readyInHand_append s, h.fired, fun hlen => (timed hs hlen).inOrder,
    fun n hn => popAll_eq_takeBatch s.reactor hn⟩

end Steps

-- a batch cut by an unwind, a push from another thread and one from a callback, and a timer
def unwound : List (Event Nat) :=
  [.pushReady 1, .pushReady 2, .scheduleTimer 5 9, .foreign (.push 3), .foreign .swapFlag,
    .prepareTick 7 [] [], .finishPoll false 7 [] [], .takeBatch, .takeExpired, .dispatch,
    .pushReady 4, .handBack, .prepareTick 8 [] [], .finishPoll true 8 [.push 6] [], .takeBatch,
    .takeExpired, .dispatch, .dispatch]

def unwoundEnd : Loop Nat where
  reactor := {
    clock := ⟨7, true⟩
    timers := ⟨#[], 1, 0, []⟩
    ready := []
    xthread := ⟨[6], [], false⟩
    cancelledTimers := 0
    batchLeft := 0
    readySnapshot := 3
    expired := []
    deadlineBound := false }
  cancelled := fun _ => false
  phase := .dispatching
  batch := [4, 9]
  timers := 1
  pushed := [1, 2, 9, 3, 4, 6]
  entered := [1, 2, 3, 4]
  ran := [1, 2, 3]
  posted := [3, 6]
  drained := [3]
  scheduled := [(5, 9)]
  collections := [[9], [], []]
  ranTimers := []
  discarded := []
  snapshot := [2, 3, 4]
  due := [9]
  tick := [2, 3]

theorem ticks_keep_order_unwound :
    loops.Reachable unwoundEnd ∧ unwoundEnd.pushed.Perm unwoundEnd.places ∧
      unwoundEnd.tick ++ unwoundEnd.batch = unwoundEnd.snapshot ++ unwoundEnd.due ∧
      ∀ c ∈ unwoundEnd.collections, InOrder unwoundEnd.scheduled c := by
  have hs : loops.Reachable unwoundEnd := ⟨unwound, by with_unfolding_all rfl⟩
  obtain ⟨hheld, -, -, -, htick, -, -, horder, -⟩ := ticks_keep_order hs
  exact ⟨hs, hheld, htick rfl, horder (by decide)⟩

/-! ## 4. When the sequence number wraps -/

theorem popAllExpired_single (k n : Nat) (t : Nat) :
    popAllExpired (fun _ => false) 0 ⟨#[⟨0, k, t⟩], n, 0, []⟩ =
      ([t], (⟨#[], n, 0, []⟩ : TimerHeap Nat)) := by
  have hone : TimerHeap.popExpired (fun _ => false) ⟨#[⟨0, k, t⟩], n, 0, []⟩ 0 =
      (some t, ⟨#[], n, 0, []⟩, [t]) := by
    rw [TimerHeap.popExpired]
    rfl
  have hnone : (TimerHeap.popExpired (fun _ => false) (⟨#[], n, 0, []⟩ : TimerHeap Nat) 0).1 =
      none := by
    rw [TimerHeap.popExpired]
    rfl
  have hempty : (TimerHeap.popExpired (fun _ => false) (⟨#[], n, 0, []⟩ : TimerHeap Nat) 0).2.1 =
      ⟨#[], n, 0, []⟩ := by
    rw [TimerHeap.popExpired]
    rfl
  rw [popAllExpired_some t (by rw [hone]), hone, popAllExpired_none hnone, hempty]

/-- Between ticks, after `n` timers that went one a tick. -/
structure Idle (n : Nat) (s : Loop Nat) : Prop where
  reachable : loops.Reachable s
  phase : s.phase = .idle
  batch : s.batch = []
  cancelled : s.cancelled = fun _ => false
  heap : s.reactor.timers = ⟨#[], n % 2 ^ 64, 0, []⟩
  flags : s.reactor.cancelledTimers = 0 ∧ s.reactor.xthread = ⟨[], [], false⟩
  queues : s.reactor.ready = [] ∧ s.reactor.expired = []
  scheduled : s.scheduled = List.replicate n (0, 0)

/-- A collection at time 0 in a reactor where nothing but the heap has something to fire. -/
theorem collect_heap {r : Reactor Nat} {fired : List Nat} {heap : TimerHeap Nat} {top : Entry Nat}
    (hflags : r.cancelledTimers = 0 ∧ r.xthread = ⟨[], [], false⟩)
    (hqueues : r.ready = [] ∧ r.expired = []) (htop : r.timers.entries[0]? = some top)
    (hdue : top.deadline = 0)
    (hfire : popAllExpired (fun _ => false) 0 r.timers = (fired, heap)) :
    let r' := r.collect (fun _ => false) 0 [] []
    r'.timers = heap ∧ r'.expired = fired ∧ r'.ready = [] ∧ r'.batchLeft = 0 ∧
      r'.cancelledTimers = 0 ∧ r'.xthread = ⟨[], [], false⟩ := by
  obtain ⟨clock, timers, ready, xthread, cancelledTimers, left, snap, expired, bound⟩ := r
  obtain ⟨rfl, rfl⟩ := hflags
  obtain ⟨rfl, rfl⟩ := hqueues
  dsimp only at htop hfire
  have hlate : ¬ top.deadline > 0 := by omega
  simp only [Reactor.collect, Reactor.absorbCancellations, Reactor.drainXthread,
    CrossThreadQueue.drainInto, Reactor.fireExpiredTimers, Clock.invalidate, Clock.cached,
    Reactor.snapshotBatch, List.foldl_nil, List.append_nil, if_true, htop, if_neg hlate, hfire,
    List.nil_append, List.length_nil, and_self]

/-- What such a tick makes of the loop. -/
theorem tick_of_collect {s : Loop Nat} {t : Nat} {heap : TimerHeap Nat}
    (hs : loops.Reachable s) (hphase : s.phase = .idle) (hbatch : s.batch = [])
    (hcollect : let r' := s.reactor.collect s.cancelled 0 [] []
      r'.timers = heap ∧ r'.expired = [t] ∧ r'.ready = [] ∧ r'.batchLeft = 0 ∧
        r'.cancelledTimers = 0 ∧ r'.xthread = ⟨[], [], false⟩)
    (hxthread : s.reactor.xthread = ⟨[], [], false⟩) :
    ∃ s', loops.Reachable s' ∧ s'.phase = .idle ∧ s'.batch = [] ∧ s'.cancelled = s.cancelled ∧
      s'.reactor.timers = heap ∧
      (s'.reactor.cancelledTimers = 0 ∧ s'.reactor.xthread = ⟨[], [], false⟩) ∧
      (s'.reactor.ready = [] ∧ s'.reactor.expired = []) ∧ s'.scheduled = s.scheduled := by
  obtain ⟨reactor, cancelled, phase, batch, timers, pushed, entered, ran, posted, drained,
    scheduled, collections, ranTimers, discarded, snapshot, due, tick⟩ := s
  dsimp only at hphase hbatch hcollect hxthread ⊢
  subst hphase hbatch
  have hdrain : (reactor.xthread.drainInto [] []).2.1 = [] := by
    rw [hxthread]
    rfl
  have h₁ := hs.step (e := Event.prepareTick 0 [] []) rfl
  simp only [Loop.collected, hdrain, List.append_nil, Reactor.prepareTick] at h₁
  generalize reactor.collect cancelled 0 [] [] = r' at hcollect h₁
  obtain ⟨clock, heap', ready, xthread, flags, left, snap, expired, bound⟩ := r'
  dsimp only at hcollect
  obtain ⟨rfl, rfl, rfl, rfl, rfl, rfl⟩ := hcollect
  have h₂ := h₁.step (e := Event.finishPoll false 0 [] []) rfl
  have h₃ := h₂.step (e := Event.takeBatch) rfl
  have h₄ := h₃.step (e := Event.takeExpired) rfl
  have h₅ := h₄.step (e := Event.dispatch) rfl
  have h₆ := h₅.step (e := Event.endTick) rfl
  exact ⟨_, h₆, rfl, rfl, rfl, rfl, ⟨rfl, rfl⟩, ⟨rfl, rfl⟩, rfl⟩

theorem Idle.round {n : Nat} {s : Loop Nat} (h : Idle n s) : ∃ s', Idle (n + 1) s' := by
  have hr := h.reachable.step (e := Event.scheduleTimer 0 0) rfl
  have htimers : (s.reactor.scheduleTimer 0 0).timers =
      ⟨#[⟨0, n % 2 ^ 64, 0⟩], (n + 1) % 2 ^ 64, 0, []⟩ := by
    show s.reactor.timers.schedule 0 0 = _
    rw [h.heap, Timer.schedule_empty, Nat.mod_add_mod]
  have hfire : popAllExpired (fun _ => false) 0 (s.reactor.scheduleTimer 0 0).timers =
      ([0], ⟨#[], (n + 1) % 2 ^ 64, 0, []⟩) := by
    rw [htimers]
    exact popAllExpired_single _ _ _
  have hcollect := collect_heap (r := s.reactor.scheduleTimer 0 0) h.flags h.queues
    (by rw [htimers]; rfl) rfl hfire
  dsimp only at hcollect
  rw [← h.cancelled] at hcollect
  obtain ⟨s', hr', hphase, hbatch, hcancelled, hheap, hflags, hqueues, hscheduled⟩ :=
    tick_of_collect hr h.phase h.batch hcollect h.flags.2
  refine ⟨s', hr', hphase, hbatch, hcancelled.trans h.cancelled, hheap, hflags, hqueues, ?_⟩
  rw [hscheduled, List.replicate_succ', ← h.scheduled]

theorem idle_after (n : Nat) : ∃ s, Idle n s := by
  induction n with
  | zero => exact ⟨.new, ⟨[], rfl⟩, rfl, rfl, rfl, rfl, ⟨rfl, rfl⟩, ⟨rfl, rfl⟩, rfl⟩
  | succ n ih =>
    obtain ⟨s, hs⟩ := ih
    exact hs.round

theorem popAllExpired_wrapped (k : Nat) :
    popAllExpired (fun _ => false) 0 ⟨#[⟨0, 0, 2⟩, ⟨0, k, 1⟩], 1, 0, []⟩ =
      ([2, 1], (⟨#[], 1, 0, []⟩ : TimerHeap Nat)) := by
  have htwo : TimerHeap.popExpired (fun _ => false) ⟨#[⟨0, 0, 2⟩, ⟨0, k, 1⟩], 1, 0, []⟩ 0 =
      (some 2, ⟨#[⟨0, k, 1⟩], 1, 0, []⟩, [2]) := by
    rw [TimerHeap.popExpired]
    rfl
  rw [popAllExpired_some 2 (by rw [htwo]), htwo, popAllExpired_single]

theorem not_inOrder_swapped (n : Nat) :
    ¬ InOrder (List.replicate n (0, 0) ++ [(0, 1), (0, 2)]) [2, 1] := by
  rintro ⟨entries, hfired, hsorted, hentries⟩
  have hat : ∀ e ∈ entries, e.payload ≠ 0 → e.deadline = 0 ∧ e.seq + 1 = n + e.payload := by
    intro e he hpayload
    have hget := hentries e he
    rcases Nat.lt_or_ge e.seq n with hlt | hge
    · rw [List.getElem?_append_left (by rwa [List.length_replicate]),
        List.getElem?_replicate, if_pos hlt] at hget
      injection hget with hget
      exact absurd (Prod.ext_iff.mp hget).2.symm hpayload
    · rw [List.getElem?_append_right (by rwa [List.length_replicate]),
        List.length_replicate] at hget
      rcases hk : e.seq - n with _ | _ | k
      · rw [hk] at hget
        injection hget with hget
        obtain ⟨hdeadline, htoken⟩ := Prod.ext_iff.mp hget
        dsimp only at hdeadline htoken
        exact ⟨hdeadline.symm, by omega⟩
      · rw [hk] at hget
        injection hget with hget
        obtain ⟨hdeadline, htoken⟩ := Prod.ext_iff.mp hget
        dsimp only at hdeadline htoken
        exact ⟨hdeadline.symm, by omega⟩
      · rw [hk] at hget
        cases hget
  obtain ⟨second, first, rfl⟩ : ∃ second first, entries = [second, first] := by
    have hlen := congrArg List.length hfired
    rw [List.length_map] at hlen
    exact List.length_eq_two.mp hlen.symm
  have hpayload : second.payload = 2 ∧ first.payload = 1 := by
    simp only [List.map_cons, List.map_nil, List.cons.injEq, and_true] at hfired
    exact ⟨hfired.1.symm, hfired.2.symm⟩
  have hlt : second.key < first.key :=
    (List.pairwise_cons.mp hsorted).1 first List.mem_cons_self
  have hsecond := hat second List.mem_cons_self (by omega)
  have hfirst := hat first (List.mem_cons_of_mem _ List.mem_cons_self) (by omega)
  rcases Prod.Lex.toLex_lt_toLex.mp hlt with hlt | ⟨-, hlt⟩
  · have hlt : second.deadline < first.deadline := hlt
    omega
  · have hlt : second.seq < first.seq := hlt
    omega

/-- Past 2^64 timers a tie is broken the other way: the second of two timers with equal deadlines
gets sequence number 0. -/
theorem ticks_not_in_order_after_wrap :
    ¬ ∀ s : Loop Nat, loops.Reachable s → ∀ c ∈ s.collections, InOrder s.scheduled c := by
  intro hall
  obtain ⟨s, hs⟩ := idle_after (2 ^ 64 - 1)
  have hr₁ := hs.reachable.step (e := Event.scheduleTimer 0 1) rfl
  have hr₂ := hr₁.step (e := Event.scheduleTimer 0 2) rfl
  have htimers : ((s.reactor.scheduleTimer 0 1).scheduleTimer 0 2).timers =
      ⟨#[⟨0, 0, 2⟩, ⟨0, 2 ^ 64 - 1, 1⟩], 1, 0, []⟩ := by
    show (s.reactor.timers.schedule 0 1).schedule 0 2 = _
    rw [hs.heap, Timer.schedule_empty]
    exact Timer.schedule_wrapped _ (by decide)
  have hfire : popAllExpired (fun _ => false) 0
      ((s.reactor.scheduleTimer 0 1).scheduleTimer 0 2).timers = ([2, 1], ⟨#[], 1, 0, []⟩) := by
    rw [htimers]
    exact popAllExpired_wrapped _
  obtain ⟨-, hexpired, -⟩ := collect_heap
    (r := (s.reactor.scheduleTimer 0 1).scheduleTimer 0 2) hs.flags hs.queues
    (by rw [htimers]; rfl) rfl hfire
  rw [← hs.cancelled] at hexpired
  have hr₃ := hr₂.step (e := Event.prepareTick 0 [] []) (if_pos hs.phase)
  have horder := hall _ hr₃ [2, 1] (by
    refine List.mem_append_right _ (List.mem_singleton.mpr ?_)
    show _ = (((s.reactor.scheduleTimer 0 1).scheduleTimer 0 2).collect s.cancelled 0 [] []).expired.drop
      s.reactor.expired.length
    rw [hexpired, hs.queues.2]
    rfl)
  have hscheduled : InOrder (List.replicate (2 ^ 64 - 1) (0, 0) ++ [(0, 1), (0, 2)]) [2, 1] := by
    have hdrain : (s.reactor.xthread.drainInto [] []).2.1 = [] := by
      rw [hs.flags.2]
      rfl
    change InOrder (s.scheduled ++ [(0, 1)] ++ [(0, 2)] ++
      (s.reactor.xthread.drainInto [] []).2.1) [2, 1] at horder
    rwa [hdrain, hs.scheduled, List.append_nil, List.append_assoc] at horder
  exact not_inOrder_swapped _ hscheduled

end Cadeloop.Core.Tick
