import Cadeloop.Pyshim.HandlesSteps

/-!
# What the loop holds, it calls

A handle that still references anything is one the loop has; a callback that is not cancelled is waiting
in one queue or was called, once; the watch tables say what the backend watches.
-/

namespace Cadeloop.Pyshim.Handles

open Cadeloop.Reasoning

variable {s s' : CoreLoop}

/-! ## 1. The closed loop -/

structure Ended (s : CoreLoop) : Prop where
  closed : s.closed = true
  released : ∀ h, s.refs h = false
  readers : s.readers = ∅
  writers : s.writers = ∅
  graveyard : s.graveyardHandles = []
  scratch : s.readyScratch = []
  idle : s.tick.phase = .idle
  empty : s.tick.batch = []
  running : s.running = none
  claimed : s.claimed = false
  once : ∀ h, s.persistent h = false → s.calls.count h ≤ 1

theorem foldl_unwatch (agreed : Socket → Bool) (fds : List Socket) (s : CoreLoop) :
    ∃ watched, fds.foldl (fun s fd => if agreed fd then s.setWatch fd false false else s) s =
      { s with watched } := by
  induction fds generalizing s with
  | nil => exact ⟨s.watched, rfl⟩
  | cons fd fds ih =>
    rw [List.foldl_cons]
    obtain ⟨watched, hrest⟩ := ih (if agreed fd then s.setWatch fd false false else s)
    refine ⟨watched, hrest.trans ?_⟩
    split <;> rfl

theorem unwatchAll_same (agreed : Side → Socket → Bool) (s : CoreLoop) :
    ∃ watched, s.unwatchAll agreed = { s with watched } := by
  obtain ⟨watched, hreaders⟩ := foldl_unwatch (agreed .reader) s.readers.keys s
  obtain ⟨watched', hwriters⟩ := foldl_unwatch (agreed .writer) s.writers.keys { s with watched }
  refine ⟨watched', ?_⟩
  unfold CoreLoop.unwatchAll
  dsimp only
  rw [hreaders]
  exact hwriters

/-- The graveyard is emptied, and the rest of the loop stays. -/
structure Drains (s s' : CoreLoop) : Prop where
  refs : ∀ h, s'.refs h = (!decide (h ∈ s.graveyardHandles) && s.refs h)
  persistent : ∀ h, s'.persistent h = s.persistent h
  cancelled : ∀ h, s'.tick.cancelled h = (decide (h ∈ s.graveyardHandles) || s.tick.cancelled h)
  graveyard : s'.graveyardHandles = []
  readers : s'.readers = s.readers
  writers : s'.writers = s.writers
  scratch : s'.readyScratch = s.readyScratch
  phase : s'.tick.phase = s.tick.phase
  batch : s'.tick.batch = s.tick.batch
  running : s'.running = s.running
  claimed : s'.claimed = s.claimed
  closed : s'.closed = s.closed
  calls : s'.calls = s.calls

theorem drainGraveyards_drains (hstep : s.drainGraveyards = some s') : Drains s s' := by
  obtain ⟨s₁, hs₁, rfl⟩ := Option.map_eq_some_iff.mp hstep
  obtain ⟨l, hl, rfl⟩ := Option.map_eq_some_iff.mp hs₁
  have hr := foldl_retires s.graveyardHandles { s with tick := l, graveyardHandles := [] }
  injection hl with hl
  have hphase : l.phase = s.tick.phase := by rw [← hl]
  have hbatch : l.batch = s.tick.batch := by rw [← hl]
  have hcancelled : l.cancelled = s.tick.cancelled := by rw [← hl]
  refine ⟨hr.refs, hr.persistent, fun h => ?_, ?_, ?_, ?_, ?_, ?_, ?_, ?_, ?_, ?_, ?_⟩
  · exact (hr.cancelled h).trans (by rw [← hcancelled])
  · rw [hr.same]
  · rw [hr.same]
  · rw [hr.same]
  · rw [hr.same]
  · rw [hr.same]
    exact hphase
  · rw [hr.same]
    exact hbatch
  · rw [hr.same]
  · rw [hr.same]
  · rw [hr.same]
  · rw [hr.same]

theorem Open.waiting_dropped (ho : Open s) (hempty : s.tick.batch = []) {h : HandleRef}
    (hwait : h ∈ s.waiting) : h ∈ s.dropped := by
  have hin : h ∈ (CoreLoop.clearPending s.tick.reactor).1 := by
    refine ho.calls.queues.mem_clearPending ?_
    simp only [CoreLoop.waiting, hempty, List.nil_append, List.mem_append, or_assoc] at hwait
    exact hwait
  unfold CoreLoop.dropped
  simp only [List.mem_append]
  exact .inl (.inl (.inl hin))

theorem watched_dropped {h : HandleRef} (hwatch : s.Watched h) : h ∈ s.dropped := by
  unfold CoreLoop.dropped
  simp only [List.mem_append]
  obtain ⟨side, fd, hwatch⟩ := hwatch
  cases side with
  | reader => exact .inl (.inr (List.mem_map.mpr ⟨⟨fd, h⟩, AList.mem_lookup_iff.mp hwatch, rfl⟩))
  | writer => exact .inr (List.mem_map.mpr ⟨⟨fd, h⟩, AList.mem_lookup_iff.mp hwatch, rfl⟩)

theorem Open.close (ho : Open s) {agreed : Side → Socket → Bool} (hstep : s.close agreed = some s') :
    Ended s' ∧ Quiet s s' := by
  unfold CoreLoop.close at hstep
  split at hstep
  · cases hstep
  rename_i hfree
  rw [if_neg (by rw [ho.closed]; decide)] at hstep
  have hidle : s.tick.phase = .idle := by
    by_contra hbusy
    exact hfree (ho.turns.claimed hbusy)
  have hempty : s.tick.batch = [] := ho.calls.queues.kept.buffered.empty (.inl hidle)
  have hrunning : s.running = none := by
    rw [Option.eq_none_iff_forall_ne_some]
    intro h hrun
    have hbusy := ho.turns.running h hrun
    rw [hidle] at hbusy
    cases hbusy
  obtain ⟨watched, hwatched⟩ := unwatchAll_same agreed s
  rw [hwatched] at hstep
  have hr := foldl_releases s.dropped ({ s with watched } : CoreLoop).cleared
  have hd := drainGraveyards_drains hstep
  have hcalls : s'.calls = s.calls := by
    rw [hd.calls, hr.same]
    rfl
  have hpersistent : ∀ h, s'.persistent h = s.persistent h := fun h =>
    (hd.persistent h).trans (hr.persistent h)
  refine ⟨⟨?_, fun h => ?_, ?_, ?_, hd.graveyard, ?_, ?_, ?_, ?_, ?_, fun h hp => ?_⟩, hcalls,
    fun h hh => ?_⟩
  · rw [hd.closed, hr.same]
    rfl
  · rw [hd.refs, hr.refs, hr.same]
    show (!decide (h ∈ s.graveyardHandles) && (!decide (h ∈ s.dropped) && s.refs h)) = false
    cases hrefs : s.refs h with
    | false => simp
    | true =>
      rcases ho.owned hrefs with hwait | hrun | hwatch | hgrave
      · rw [decide_eq_true (ho.waiting_dropped hempty hwait)]
        simp
      · rw [hrunning] at hrun
        cases hrun
      · rw [decide_eq_true (watched_dropped hwatch)]
        simp
      · rw [decide_eq_true hgrave]
        simp
  · rw [hd.readers, hr.same]
    rfl
  · rw [hd.writers, hr.same]
    rfl
  · rw [hd.scratch, hr.same]
    rfl
  · rw [hd.phase, hr.same]
    exact hidle
  · rw [hd.batch, hr.same]
    exact hempty
  · rw [hd.running, hr.same]
    exact hrunning
  · rw [hd.claimed, hr.same]
    exact Bool.eq_false_of_not_eq_true hfree
  · rw [hcalls]
    exact ho.calls.count_calls_le ((hpersistent h).symm.trans hp)
  · rw [hd.cancelled, hr.same]
    exact Bool.or_eq_true_iff.mpr (.inr hh)

namespace Ended

theorem drain (he : Ended s) (hstep : s.drainGraveyards = some s') : Ended s' ∧ Quiet s s' := by
  have hd := drainGraveyards_drains hstep
  refine ⟨⟨hd.closed.trans he.closed, fun h => ?_, hd.readers.trans he.readers, hd.writers.trans he.writers,
    hd.graveyard, hd.scratch.trans he.scratch, hd.phase.trans he.idle, hd.batch.trans he.empty,
    hd.running.trans he.running, hd.claimed.trans he.claimed, fun h hp => ?_⟩, hd.calls, fun h hh => ?_⟩
  · rw [hd.refs, he.released, Bool.and_false]
  · rw [hd.calls]
    exact he.once h ((hd.persistent h).symm.trans hp)
  · rw [hd.cancelled]
    exact Bool.or_eq_true_iff.mpr (.inr hh)

theorem cancel (he : Ended s) {h : HandleRef} (hstep : s.cancel h = some s') :
    Ended s' ∧ Quiet s s' := by
  have hflagged : ∀ l : Core.Tick.Loop HandleRef, l.phase = s.tick.phase → l.batch = s.tick.batch →
      l.cancelled = (s.doCancel h).tick.cancelled →
      Ended ({ s with tick := l }.release h) ∧ Quiet s ({ s with tick := l }.release h) := by
    intro l hphase hbatch hcancelled
    refine ⟨⟨he.closed, fun x => ?_, he.readers, he.writers, he.graveyard, he.scratch,
      hphase.trans he.idle, hbatch.trans he.empty, he.running, he.claimed, fun x hp => ?_⟩, rfl,
      fun x hx => ?_⟩
    · refine (refs_release { s with tick := l } h x).trans ?_
      rw [show ({ s with tick := l } : CoreLoop).refs x = false from he.released x, Bool.and_false]
    · exact he.once x ((persistent_release { s with tick := l } h x).symm.trans hp)
    · show l.cancelled x = true
      rw [hcancelled]
      exact Bool.or_eq_true_iff.mpr (.inr hx)
  unfold CoreLoop.cancel at hstep
  split at hstep
  · cases hstep
  split at hstep
  · injection hstep with hstep
    exact hstep ▸ ⟨he, .refl s⟩
  dsimp only at hstep
  split at hstep
  · obtain ⟨s₁, hs₁, rfl⟩ := Option.map_eq_some_iff.mp hstep
    obtain ⟨l, hl, rfl⟩ := Option.map_eq_some_iff.mp hs₁
    injection hl with hl
    exact hflagged l (by rw [← hl]; rfl) (by rw [← hl]; rfl) (by rw [← hl])
  · injection hstep with hstep
    exact hstep ▸ hflagged (s.doCancel h).tick rfl rfl rfl

theorem removeWatch (he : Ended s) {side : Side} {socket : Socket} {agreed : Bool}
    (hstep : s.removeWatch side socket agreed = some s') : Ended s' ∧ Quiet s s' := by
  have hnone : ∀ side, (s.table side).lookup socket = none := by
    intro side
    cases side with
    | reader => exact (congrArg (AList.lookup socket) he.readers).trans (AList.lookup_empty socket)
    | writer => exact (congrArg (AList.lookup socket) he.writers).trans (AList.lookup_empty socket)
  unfold CoreLoop.removeWatch at hstep
  split at hstep
  · cases hstep
  simp only [hnone, Option.isSome_none, Bool.false_eq_true, or_self, if_false] at hstep
  exact he.drain hstep

/-- Nothing is called any more. -/
theorem step (he : Ended s) {i : Step} (hstep : s.step i = some s') : Ended s' ∧ Quiet s s' := by
  have hidle := he.idle
  have hcell : s.inCell = false := by simp [CoreLoop.inCell, hidle]
  cases i with
  | callSoon => simp [CoreLoop.step, CoreLoop.callSoon, he.closed] at hstep
  | callAt deadline => simp [CoreLoop.step, CoreLoop.callAt, he.closed] at hstep
  | cancel h => exact he.cancel hstep
  | addReader socket agreed =>
    simp [CoreLoop.step, CoreLoop.addReader, CoreLoop.addWatch, he.closed] at hstep
  | addWriter socket agreed =>
    simp [CoreLoop.step, CoreLoop.addWriter, CoreLoop.addWatch, he.closed] at hstep
  | removeReader socket agreed => exact he.removeWatch hstep
  | removeWriter socket agreed => exact he.removeWatch hstep
  | runForever => simp [CoreLoop.step, CoreLoop.runForever, he.closed] at hstep
  | leave => simp [CoreLoop.step, CoreLoop.leave, he.claimed] at hstep
  | prepareTick now => simp [CoreLoop.step, CoreLoop.prepareTick, he.claimed] at hstep
  | pollTimeout now => simp [CoreLoop.step, CoreLoop.reactor, Core.Tick.Loop.step, hidle] at hstep
  | pollFailed => simp [CoreLoop.step, CoreLoop.reactor, Core.Tick.Loop.step, hidle] at hstep
  | finishPoll parked now => simp [CoreLoop.step, CoreLoop.reactor, Core.Tick.Loop.step, hidle] at hstep
  | translateReady socket readable writable agreed =>
    simp [CoreLoop.step, CoreLoop.translateReady, hidle] at hstep
  | take =>
    simp [CoreLoop.step, CoreLoop.take, he.scratch, CoreLoop.reactor, Core.Tick.Loop.step, hidle] at hstep
  | runHandle => simp [CoreLoop.step, CoreLoop.runHandle, he.running, he.empty] at hstep
  | returned => simp [CoreLoop.step, CoreLoop.returned, he.running] at hstep
  | drainGraveyards =>
    simp only [CoreLoop.step, hcell] at hstep
    exact he.drain hstep
  | handBack =>
    simp [CoreLoop.step, CoreLoop.handBack, CoreLoop.reactor, Core.Tick.Loop.step, hidle] at hstep
  | endTick =>
    simp [CoreLoop.step, CoreLoop.endTick, CoreLoop.reactor, Core.Tick.Loop.step, hidle] at hstep
  | close agreed =>
    simp only [CoreLoop.step, CoreLoop.close, he.claimed, he.closed, if_true, Bool.false_eq_true, if_false,
      Option.some.injEq] at hstep
    exact hstep ▸ ⟨he, .refl s⟩

end Ended

/-- One step of a run, from either kind of state. -/
theorem Open.step (ho : Open s) {i : Step} (hstep : s.step i = some s') :
    (Open s' ∨ Ended s') ∧ ∀ h, s.tick.cancelled h = true →
      s'.calls.count h = s.calls.count h ∧ s'.tick.cancelled h = true := by
  have hquiet : Quiet s s' → ∀ h, s.tick.cancelled h = true →
      s'.calls.count h = s.calls.count h ∧ s'.tick.cancelled h = true :=
    fun hq h hh => ⟨by rw [hq.calls], hq.cancelled h hh⟩
  have hstill : Open s' ∧ Quiet s s' → (Open s' ∨ Ended s') ∧ ∀ h, s.tick.cancelled h = true →
      s'.calls.count h = s.calls.count h ∧ s'.tick.cancelled h = true :=
    fun hs' => ⟨.inl hs'.1, hquiet hs'.2⟩
  cases i with
  | callSoon => exact hstill (ho.callSoon hstep)
  | callAt deadline => exact hstill (ho.callAt hstep)
  | cancel h => exact hstill (ho.cancel hstep)
  | addReader socket agreed => exact hstill (ho.addWatch hstep)
  | addWriter socket agreed => exact hstill (ho.addWatch hstep)
  | removeReader socket agreed => exact hstill (ho.removeWatch hstep)
  | removeWriter socket agreed => exact hstill (ho.removeWatch hstep)
  | runForever => exact hstill (ho.runForever hstep)
  | leave => exact hstill (ho.leave hstep)
  | prepareTick now =>
    simp only [CoreLoop.step, CoreLoop.prepareTick, Option.ite_none_right_eq_some] at hstep
    exact hstill (ho.internal (.prepareTick now) (fun _ _ => hstep.1)
      (fun hh => by rcases hh with hh | hh <;> cases hh) hstep.2)
  | pollTimeout now =>
    exact hstill (ho.internal (.pollTimeout now) (fun now hh => by cases hh)
      (fun hh => by rcases hh with hh | hh <;> cases hh) hstep)
  | pollFailed =>
    exact hstill (ho.internal .pollFailed (fun now hh => by cases hh)
      (fun hh => by rcases hh with hh | hh <;> cases hh) hstep)
  | finishPoll parked now =>
    exact hstill (ho.internal (.finishPoll parked now) (fun now hh => by cases hh)
      (fun hh => by rcases hh with hh | hh <;> cases hh) hstep)
  | translateReady socket readable writable agreed => exact hstill (ho.translateReady hstep)
  | take => exact hstill (ho.take hstep)
  | runHandle =>
    obtain ⟨ho', hcalls, hcancelled⟩ := ho.runHandle hstep
    exact ⟨.inl ho', fun h hh => ⟨hcalls h hh, hcancelled ▸ hh⟩⟩
  | returned => exact hstill (ho.returned hstep)
  | drainGraveyards =>
    simp only [CoreLoop.step, Option.ite_none_left_eq_some] at hstep
    exact hstill (ho.drain hstep.2)
  | handBack =>
    simp only [CoreLoop.step, CoreLoop.handBack, Option.ite_none_left_eq_some] at hstep
    exact hstill (ho.internal .handBack (fun now hh => by cases hh) (fun _ => by simpa using hstep.1)
      hstep.2)
  | endTick =>
    simp only [CoreLoop.step, CoreLoop.endTick, Option.ite_none_left_eq_some] at hstep
    exact hstill (ho.internal .endTick (fun now hh => by cases hh) (fun _ => by simpa using hstep.1)
      hstep.2)
  | close agreed =>
    obtain ⟨he, hq⟩ := ho.close hstep
    exact ⟨.inr he, hquiet hq⟩

/-! ## 2. The runs -/

theorem sound (steps : List Step) : Open (loop.run steps) ∨ Ended (loop.run steps) := by
  refine loop.run_invariant (I := fun s => Open s ∨ Ended s) (.inl .new) (fun s i hs => ?_) steps
  show Open ((s.step i).getD s) ∨ Ended ((s.step i).getD s)
  cases hstep : s.step i with
  | none => exact hs
  | some s' =>
    rcases hs with ho | he
    · exact (ho.step hstep).1
    · exact .inr (he.step hstep).1

/-- What still references a callback is in the loop's hands. -/
theorem handles_owned (steps : List Step) (h : HandleRef) (hrefs : (loop.run steps).refs h = true) :
    let s := loop.run steps
    s.closed = false ∧
      (h ∈ s.waiting ∨ s.running = some h ∨ s.Watched h ∨ h ∈ s.graveyardHandles) := by
  rcases sound steps with ho | he
  · exact ⟨ho.closed, ho.owned hrefs⟩
  · rw [he.released h] at hrefs
    cases hrefs

theorem handles_owned_scheduled :
    (loop.run [.callSoon]).closed = false ∧
      (0 ∈ (loop.run [.callSoon]).waiting ∨ (loop.run [.callSoon]).running = some 0 ∨
        (loop.run [.callSoon]).Watched 0 ∨ 0 ∈ (loop.run [.callSoon]).graveyardHandles) :=
  handles_owned [.callSoon] 0 (by decide)

/-- What becomes of a callback that was scheduled. -/
inductive Fate (s : CoreLoop) (h : HandleRef) : Prop where
  | waits (live : s.tick.cancelled h = false) (held : s.refs h = true) (once : s.waiting.count h = 1)
      (uncalled : s.calls.count h = 0) : Fate s h
  | runs (now : s.running = some h) (gone : s.waiting.count h = 0) (called : s.calls.count h = 1) : Fate s h
  | ran (free : s.refs h = false) (gone : s.waiting.count h = 0) (called : s.calls.count h = 1) : Fate s h
  | cancelled (flag : s.tick.cancelled h = true) (free : s.refs h = false)
      (called : s.calls.count h ≤ 1) : Fate s h
  | closed (closed : s.closed = true) (free : s.refs h = false) (called : s.calls.count h ≤ 1) : Fate s h

/-- Nothing will come of a callback that has yet to be called. -/
def Gone (s : CoreLoop) (h : HandleRef) : Prop := s.tick.cancelled h = true ∨ s.closed = true

theorem Gone.step (hs : Open s ∨ Ended s) {h : HandleRef} (hgone : Gone s h) (i : Step) :
    (loop.step s i).calls.count h = s.calls.count h ∧ Gone (loop.step s i) h := by
  show ((s.step i).getD s).calls.count h = _ ∧ Gone ((s.step i).getD s) h
  cases hstep : s.step i with
  | none => exact ⟨rfl, hgone⟩
  | some s' =>
    rcases hs with ho | he
    · have hflag := hgone.resolve_right (by rw [ho.closed]; decide)
      obtain ⟨hsame, hstill⟩ := (ho.step hstep).2 h hflag
      exact ⟨hsame, .inl hstill⟩
    · obtain ⟨he', hq⟩ := he.step hstep
      exact ⟨congrArg (List.count h) hq.calls, .inr he'.closed⟩

theorem Gone.run {steps : List Step} {h : HandleRef} (hgone : Gone (loop.run steps) h) (more : List Step) :
    (loop.run (steps ++ more)).calls.count h = (loop.run steps).calls.count h ∧
      Gone (loop.run (steps ++ more)) h := by
  induction more using List.reverseRecOn with
  | nil =>
    rw [List.append_nil]
    exact ⟨rfl, hgone⟩
  | append_singleton more i ih =>
    obtain ⟨hsame, hstill⟩ := ih
    rw [← List.append_assoc, loop.run_concat]
    obtain ⟨hnow, hgone⟩ := hstill.step (sound _) i
    exact ⟨hnow.trans hsame, hgone⟩

/-- What is cancelled, or left in a closed loop, is not called any more. -/
theorem gone_silent (steps more : List Step) (h : HandleRef) (hgone : Gone (loop.run steps) h) :
    (loop.run (steps ++ more)).calls.count h = (loop.run steps).calls.count h := (hgone.run more).1

-- it was in the batch by then
theorem gone_silent_taken :
    (loop.run ([.callSoon, .runForever, .prepareTick 0, .finishPoll false 0, .take, .cancel 0] ++
      [.runHandle, .returned])).calls.count 0 =
      (loop.run [.callSoon, .runForever, .prepareTick 0, .finishPoll false 0, .take, .cancel 0]).calls.count
        0 :=
  gone_silent [.callSoon, .runForever, .prepareTick 0, .finishPoll false 0, .take, .cancel 0]
    [.runHandle, .returned] 0 (.inl (by decide))

def Side.add : Side → Socket → Bool → Step
  | .reader => .addReader
  | .writer => .addWriter

def Side.remove : Side → Socket → Bool → Step
  | .reader => .removeReader
  | .writer => .removeWriter

theorem addWatch_drains (hopen : s.closed = false) (hcell : s.inCell = false) {side : Side}
    {socket : Socket} {h : HandleRef} (hwatch : (s.table side).lookup socket = some h) :
    ∃ s₁ : CoreLoop, h ∈ s₁.graveyardHandles ∧ s.addWatch side socket true = s₁.drainGraveyards := by
  unfold CoreLoop.addWatch
  rw [if_neg (by simp [hopen, hcell])]
  refine ⟨_, ?_, rfl⟩
  refine List.mem_append_right _ (Option.mem_toList.mpr ?_)
  cases side <;> exact hwatch

theorem removeWatch_drains (hcell : s.inCell = false) {side : Side} {socket : Socket} {h : HandleRef}
    (hwatch : (s.table side).lookup socket = some h) :
    ∃ s₁ : CoreLoop, h ∈ s₁.graveyardHandles ∧ s.removeWatch side socket true = s₁.drainGraveyards := by
  unfold CoreLoop.removeWatch
  rw [if_neg (by simp [hcell])]
  dsimp only
  rw [if_pos (.inl (by rw [hwatch]; rfl))]
  exact ⟨_, List.mem_append_right _ (Option.mem_toList.mpr hwatch), rfl⟩

/-- A handle that leaves its table is cancelled and released in the same call. -/
theorem retired (ho : Open s) (hcell : s.inCell = false) {side : Side} {socket : Socket} {h : HandleRef}
    (hwatch : (s.table side).lookup socket = some h) {i : Step}
    (hi : i = side.add socket true ∨ i = side.remove socket true) :
    Open (loop.step s i) ∧ (loop.step s i).tick.cancelled h = true ∧ (loop.step s i).calls = s.calls := by
  have hdrains : ∃ s₁ : CoreLoop, h ∈ s₁.graveyardHandles ∧ s.step i = s₁.drainGraveyards := by
    rcases hi with rfl | rfl
    · cases side <;> exact addWatch_drains ho.closed hcell hwatch
    · cases side <;> exact removeWatch_drains hcell hwatch
  obtain ⟨s₁, hin, hdrain⟩ := hdrains
  have hstep : s.step i = some (loop.step s i) := by
    show s.step i = some ((s.step i).getD s)
    rw [hdrain]
    rfl
  have hquiet : Open (loop.step s i) ∧ Quiet s (loop.step s i) := by
    rcases hi with rfl | rfl
    · cases side <;> exact ho.addWatch hstep
    · cases side <;> exact ho.removeWatch hstep
  refine ⟨hquiet.1, ?_, hquiet.2.calls⟩
  rw [(drainGraveyards_drains (hdrain.symm.trans hstep)).cancelled, decide_eq_true hin, Bool.true_or]

/-- A reader that fired, and is in the batch. -/
def fired : List Step :=
  [.addReader 3 true, .runForever, .prepareTick 0, .finishPoll false 0, .translateReady 3 true false true,
    .take]

/-- The tables are what the backend watches, whichever of the calls it refuses. -/
theorem watches_agree (steps : List Step) (hopen : (loop.run steps).closed = false) :
    let s := loop.run steps
    (∀ side fd, s.watched side fd = ((s.table side).lookup fd).isSome) ∧
      (∀ side fd h, (s.table side).lookup fd = some h → s.persistent h = true) ∧
      ∀ h, s.persistent h = true →
        h ∈ s.graveyardHandles ∨ s.Watched h ∨ s.tick.cancelled h = true ∧ s.refs h = false := by
  rcases sound steps with ho | he
  · refine ⟨ho.watches.synced, fun side fd h hh => ho.watches.kinds h (.inr (.inl ⟨side, fd, hh⟩)),
      fun h hp => (ho.watches.covered h hp).imp_right (Or.imp_right fun hflag => ?_)⟩
    exact ⟨hflag, (ho.calls.flagged h hflag).2⟩
  · rw [he.closed] at hopen
    cases hopen

theorem watches_agree_refused :
    let s := loop.run [.addReader 3 true, .removeReader 3 false, .addReader 4 false]
    (∀ side fd, s.watched side fd = ((s.table side).lookup fd).isSome) ∧
      (∀ side fd h, (s.table side).lookup fd = some h → s.persistent h = true) ∧
      ∀ h, s.persistent h = true →
        h ∈ s.graveyardHandles ∨ s.Watched h ∨ s.tick.cancelled h = true ∧ s.refs h = false :=
  watches_agree [.addReader 3 true, .removeReader 3 false, .addReader 4 false] rfl

end Cadeloop.Pyshim.Handles
