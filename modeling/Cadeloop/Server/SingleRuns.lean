import Cadeloop.Server.Single

/-!
# From the lifespan startup to the loop's end

What the application is asked and when, which request the worker stops for, and what a lifespan task that
ends while the worker serves leads to.
-/

namespace Cadeloop.Server.Single

open Cadeloop.Reasoning

/-! ## 1. The invariant -/

/-- The messages put on the queue, taken or not. -/
def State.asked (s : State) : List Message := s.lifespan.received ++ s.lifespan.queue

/-- Before `_Lifespan.shutdown`. -/
def Stage.early : Stage → Bool
  | .starting | .serving | .draining | .cancelling => true
  | _ => false

/-- The `try` block did not end in a `return`. -/
def State.failed (s : State) : Prop := s.outcome = some .error ∨ s.outcome = some .exited

structure Core (s : State) : Prop where
  first : s.reason = s.requests.head?
  abandoned : s.abandoned → s.reason.isSome
  crashed : s.lifespan.crashed → s.reason.isSome
  given_up : s.lifespan.abandoned → s.abandoned
  enabled : s.lifespan.running → s.lifespan.enabled

structure Unasked (s : State) : Prop where
  asked : s.asked = [.startup]
  requested : s.lifespan.shutdownRequested = false

/-- The `try` block has ended. -/
structure Over (s : State) : Prop where
  ended : s.outcome.isSome
  returned : ∀ r, s.outcome = some (.returned r) → r = s.requests.head? ∧ r.isSome
  startup : s.lifespan.startup = .pending → s.abandoned ∨ s.failed

structure Sound (s : State) : Prop extends Core s where
  starting : s.stage = .starting →
    s.outcome = none ∧ (s.awaiting ↔ s.lifespan.startup = .pending) ∧
      (s.lifespan.enabled → s.lifespan.running ∨ s.lifespan.crashed ∨ s.lifespan.startup = .failed)
  serving : s.stage = .serving →
    s.outcome = none ∧ s.lifespan.startup = .complete ∧ s.lifespan.abandoned = false ∧
      (s.lifespan.enabled → s.lifespan.running ∨ s.lifespan.crashed) ∧
      (s.reason.isSome → s.stopping)
  after : s.stage ≠ .starting → s.stage ≠ .serving → Over s
  early : s.stage.early → Unasked s
  asked : s.asked = [.startup] ∨ s.asked = [.startup, .shutdown] ∧ s.abandoned = false ∧
    (s.lifespan.startup = .complete ∨ s.failed)
  owed : s.stage.early = false → (s.stage = .ended → s.outcome ≠ some .exited) →
    s.lifespan.running → s.asked = [.startup] → s.abandoned ∨ s.lifespan.startup = .failed

theorem new_sound (interactive : Bool) : Sound (newWorker interactive) where
  first := rfl
  abandoned h := by cases h
  crashed h := by cases h
  given_up h := by cases h
  enabled _ := rfl
  starting _ := ⟨rfl, by simp [newWorker], fun _ => .inl rfl⟩
  serving h := by cases h
  after h := absurd rfl h
  early _ := ⟨rfl, rfl⟩
  asked := .inl rfl
  owed h := by cases h

/-! ## 2. From one run to the next -/

variable {s : State} {a : Answers}

/-- What is left of the invariant once the `try` block has ended. -/
theorem Over.sound (ho : Over s) (h : Core s) (hstarting : s.stage ≠ .starting)
    (hserving : s.stage ≠ .serving) (hearly : s.stage.early → Unasked s)
    (hasked : s.asked = [.startup] ∨ s.asked = [.startup, .shutdown] ∧ s.abandoned = false ∧
      (s.lifespan.startup = .complete ∨ s.failed))
    (howed : s.stage.early = false → (s.stage = .ended → s.outcome ≠ some .exited) →
      s.lifespan.running → s.asked = [.startup] → s.abandoned ∨ s.lifespan.startup = .failed) :
    Sound s where
  toCore := h
  starting hs := absurd hs hstarting
  serving hs := absurd hs hserving
  after _ _ := ho
  early := hearly
  asked := hasked
  owed := howed

theorem finalizeLoop_sound (h : Core s) (ho : Over s)
    (hasked : s.asked = [.startup] ∨ s.asked = [.startup, .shutdown] ∧ s.abandoned = false ∧
      (s.lifespan.startup = .complete ∨ s.failed))
    (howed : s.lifespan.running → s.asked = [.startup] →
      s.abandoned ∨ s.lifespan.startup = .failed) :
    Sound (s.finalizeLoop a) := by
  have hto : ∀ stage : Stage, stage.early = false → Sound (s.runUntilComplete stage) := by
    intro stage hlate
    have hcore : Core (s.runUntilComplete stage) :=
      ⟨h.first, h.abandoned, h.crashed, h.given_up, h.enabled⟩
    have hover : Over (s.runUntilComplete stage) := ⟨ho.ended, ho.returned, ho.startup⟩
    refine hover.sound hcore ?_ ?_ ?_ hasked fun _ _ => howed
    · rintro rfl; cases hlate
    · rintro rfl; cases hlate
    · intro hearly
      rw [show (s.runUntilComplete stage).stage = stage from rfl, hlate] at hearly
      cases hearly
  unfold State.finalizeLoop
  split
  · exact hto .tasks rfl
  · exact hto .asyncgens rfl

theorem lifespanShutdown_sound (h : Core s) (ho : Over s) (hu : Unasked s) :
    Sound (s.lifespanShutdown a) := by
  unfold State.lifespanShutdown
  split
  · rename_i habandoned
    exact finalizeLoop_sound h ho (.inl hu.asked) fun _ _ => .inl habandoned
  rename_i habandoned
  have hkept : s.abandoned = false := Bool.not_eq_true _ ▸ habandoned
  dsimp only
  split
  · rename_i hdone
    refine finalizeLoop_sound ⟨h.first, h.abandoned, h.crashed, h.given_up, h.enabled⟩
      ⟨ho.ended, ho.returned, ho.startup⟩ (.inl hu.asked) fun hrunning _ => .inr ?_
    rcases hdone with hoff | hfailed | hover
    · exact absurd (h.enabled hrunning) hoff
    · exact hfailed
    · exact absurd hrunning hover
  · rename_i hgoes
    simp only [not_or, not_not] at hgoes
    have htwo : s.lifespan.received ++ (s.lifespan.queue ++ [Message.shutdown]) =
        [.startup, .shutdown] := by
      rw [← List.append_assoc, show s.lifespan.received ++ s.lifespan.queue = _ from hu.asked]
      rfl
    refine Over.sound ⟨ho.ended, ho.returned, ho.startup⟩
      ⟨h.first, h.abandoned, h.crashed, h.given_up, h.enabled⟩ Stage.noConfusion Stage.noConfusion
      (fun hearly => by cases hearly) (.inr ⟨htwo, hkept, ?_⟩) fun _ _ _ hone => ?_
    · change s.lifespan.startup = .complete ∨ s.failed
      cases hstartup : s.lifespan.startup with
      | pending => exact .inr ((ho.startup hstartup).resolve_left habandoned)
      | complete => exact .inl rfl
      | failed => exact absurd hstartup hgoes.2.1
    · cases htwo.symm.trans hone

theorem cancelRequests_sound (h : Core s) (ho : Over s) (hu : Unasked s) :
    Sound (s.cancelRequests a) := by
  unfold State.cancelRequests
  split
  · exact Over.sound ⟨ho.ended, ho.returned, ho.startup⟩
      ⟨h.first, h.abandoned, h.crashed, h.given_up, h.enabled⟩ Stage.noConfusion Stage.noConfusion
      (fun _ => ⟨hu.asked, hu.requested⟩) (.inl hu.asked) (fun hlate => by cases hlate)
  · exact lifespanShutdown_sound h ho hu

theorem drainConnections_sound (h : Core s) (ho : Over s) (hu : Unasked s) :
    Sound (s.drainConnections a) := by
  unfold State.drainConnections
  split
  · exact Over.sound ⟨ho.ended, ho.returned, ho.startup⟩
      ⟨h.first, h.abandoned, h.crashed, h.given_up, h.enabled⟩ Stage.noConfusion Stage.noConfusion
      (fun _ => ⟨hu.asked, hu.requested⟩) (.inl hu.asked) (fun hlate => by cases hlate)
  · exact cancelRequests_sound h ho hu

/-- The `try` block ends in an exception. -/
theorem leave_failed_sound (h : Core s) (hu : Unasked s) {outcome : Outcome}
    (hfailed : outcome = .error ∨ outcome = .exited) : Sound (s.leave outcome a) := by
  refine drainConnections_sound ⟨h.first, h.abandoned, h.crashed, h.given_up, h.enabled⟩
    ⟨rfl, fun r hr => ?_, fun _ => .inr ?_⟩ ⟨hu.asked, hu.requested⟩
  · rcases hfailed with rfl | rfl <;> cases hr
  · rcases hfailed with rfl | rfl
    · exact .inl rfl
    · exact .inr rfl

theorem conclude_sound (h : Core s) (hu : Unasked s) (hreason : s.reason.isSome)
    (hstartup : s.lifespan.startup = .pending → s.abandoned) : Sound (s.conclude a) := by
  unfold State.conclude
  split
  · exact leave_failed_sound h hu (.inl rfl)
  · refine drainConnections_sound ⟨h.first, h.abandoned, h.crashed, h.given_up, h.enabled⟩
      ⟨rfl, fun r hr => ?_, fun hp => .inl (hstartup hp)⟩ ⟨hu.asked, hu.requested⟩
    injection hr with hr
    injection hr with hr
    rw [← hr]
    exact ⟨h.first, hreason⟩

/-! ## 3. Requests -/

/-- A request is the first, or the first stays; only in the first run does it give up the startup, and
only in the run that serves does it stop the loop otherwise. -/
theorem request_eq (s : State) (reason : Reason) :
    s.request reason =
      { s with
        requests := s.requests ++ [reason]
        reason := s.reason.or (some reason)
        abandoned := s.abandoned || (reason == .supervisor && s.stage == .starting)
        stopping := s.stopping || (reason == .supervisor && s.stage == .starting && !s.abandoned) ||
          (s.reason.isNone && s.stage == .serving) } := by
  obtain ⟨interactive, stage, first, hurry, abandoned, served, lifespan, stopping, awaiting, callbacks,
    outcome, requests⟩ := s
  cases stage <;> cases first <;> cases abandoned <;> cases stopping <;> cases reason <;> rfl

theorem request_core (h : Core s) (reason : Reason) : Core (s.request reason) := by
  rw [request_eq]
  have hsome : (s.reason.or (some reason)).isSome := by cases s.reason <;> rfl
  refine ⟨?_, fun _ => hsome, fun _ => hsome, fun hup => ?_, h.enabled⟩
  · rw [List.head?_append, ← h.first]
    rfl
  · exact Bool.or_eq_true_iff.mpr (.inl (h.given_up hup))

theorem Sound.unasked_of_starting (h : Sound s) (hs : s.stage = .starting) : Unasked s :=
  h.early (by rw [hs]; rfl)

/-- Once the shutdown is asked for, the first run is long over. -/
theorem Sound.asked_late (h : Sound s) (hasked : s.asked = [.startup, .shutdown]) :
    s.stage.early = false := by
  by_contra hearly
  have hone := (h.early (by simpa using hearly)).asked
  rw [hasked] at hone
  cases hone

theorem Sound.stops (h : Sound s) (hs : s.stage = .serving) : s.reason.isSome → s.stopping :=
  (h.serving hs).2.2.2.2

theorem request_sound (h : Sound s) (reason : Reason) : Sound (s.request reason) := by
  have hcore := request_core h.toCore reason
  rw [request_eq] at hcore ⊢
  refine ⟨hcore, h.starting, fun hs => ?_, fun hs hv => ?_,
    fun he => ⟨(h.early he).asked, (h.early he).requested⟩, ?_, fun hl ho hr ha => ?_⟩
  · obtain ⟨hout, hstartup, habandoned, hup, hstop⟩ := h.serving hs
    refine ⟨hout, hstartup, habandoned, hup, fun _ => ?_⟩
    change s.stage = .serving at hs
    cases hreason : s.reason with
    | none => simp [hs]
    | some first => simp [hstop (by rw [hreason]; rfl)]
  · have hover := h.after hs hv
    refine ⟨hover.ended, fun r hr => ?_, fun hp => ?_⟩
    · obtain ⟨hfirst, hsome⟩ := hover.returned r hr
      refine ⟨?_, hsome⟩
      rw [List.head?_append, ← hfirst, Option.or_of_isSome hsome]
    · exact (hover.startup hp).imp (fun hab => Bool.or_eq_true_iff.mpr (.inl hab)) id
  · rcases h.asked with hone | ⟨htwo, hkept, hdone⟩
    · exact .inl hone
    · refine .inr ⟨htwo, ?_, hdone⟩
      have hlate := h.asked_late htwo
      have hstage : (s.stage == .starting) = false := by
        rw [beq_eq_false_iff_ne]
        intro hs
        rw [hs] at hlate
        cases hlate
      simp [hkept, hstage]
  · exact (h.owed hl ho hr ha).imp (fun hab => Bool.or_eq_true_iff.mpr (.inl hab)) id

/-- The loop's stop flag and the callbacks on their way may be anything, but for a request to stop
serving. -/
theorem Sound.flags (h : Sound s) (hurry stopping : Bool) (callbacks : Nat)
    (hstop : s.stage = .serving → s.reason.isSome → stopping) :
    Sound { s with hurry, stopping, callbacks } :=
  { first := h.first
    abandoned := h.abandoned
    crashed := h.crashed
    given_up := h.given_up
    enabled := h.enabled
    starting := h.starting
    serving := fun hs =>
      let ⟨hout, hstartup, habandoned, hup, _⟩ := h.serving hs
      ⟨hout, hstartup, habandoned, hup, hstop hs⟩
    after := fun hs hv => ⟨(h.after hs hv).ended, (h.after hs hv).returned, (h.after hs hv).startup⟩
    early := fun he => ⟨(h.early he).asked, (h.early he).requested⟩
    asked := h.asked
    owed := h.owed }

theorem abandon_sound (h : Sound s) (hs : s.stage = .starting) (hreason : s.reason.isSome) :
    Sound s.abandon where
  first := h.first
  abandoned _ := hreason
  crashed := h.crashed
  given_up _ := rfl
  enabled := h.enabled
  starting := h.starting
  serving hv := by rw [show s.stage = .serving from hv] at hs; cases hs
  after hn := absurd hs hn
  early he := ⟨(h.early he).asked, (h.early he).requested⟩
  asked := .inl (h.unasked_of_starting hs).asked
  owed hl := by rw [show s.abandon.stage = .starting from hs] at hl; cases hl

theorem onSignal_sound (h : Sound s) (interrupt : Bool) : Sound (s.onSignal interrupt) := by
  unfold State.onSignal
  split
  · exact request_sound h .signal
  rename_i hreason
  have hsome : s.reason.isSome := by
    rwa [Option.isNone_iff_eq_none, ← ne_eq, ← Option.isSome_iff_ne_none] at hreason
  split
  · split
    · rename_i hphase
      have hs : s.stage = .starting := by
        revert hphase
        unfold State.phase
        cases s.stage <;> decide
      exact abandon_sound h hs hsome
    · exact h.flags true s.stopping s.callbacks h.stops
    · exact h.flags true s.stopping s.callbacks h.stops
    · exact h.flags s.hurry true s.callbacks fun _ _ => rfl
    · exact h
  · exact h

/-! ## 4. The lifespan task -/

/-- What the lifespan task may change before and after its end, `_startup` apart. -/
theorem Sound.relife (h : Sound s) {l : Lifespan} (hasked : l.received ++ l.queue = s.asked)
    (hstartup : l.startup = s.lifespan.startup)
    (hrequested : l.shutdownRequested = s.lifespan.shutdownRequested)
    (habandoned : l.abandoned = s.lifespan.abandoned) (henabled : l.running → l.enabled)
    (hcrashed : l.crashed → s.reason.isSome) (hrunning : l.running → s.lifespan.running)
    (hup : s.stage = .starting ∨ s.stage = .serving →
      l.enabled → l.running ∨ l.crashed ∨ s.lifespan.startup = .failed) :
    Sound { s with lifespan := l } where
  first := h.first
  abandoned := h.abandoned
  crashed := hcrashed
  given_up hl := h.given_up (habandoned ▸ hl)
  enabled := henabled
  starting hs := by
    obtain ⟨hout, hawaiting, -⟩ := h.starting hs
    refine ⟨hout, ?_, fun he => ?_⟩
    · change _ ↔ l.startup = .pending
      rw [hstartup]
      exact hawaiting
    · change _ ∨ _ ∨ l.startup = .failed
      rw [hstartup]
      exact hup (.inl hs) he
  serving hs := by
    obtain ⟨hout, hcomplete, hkept, -, hstopping⟩ := h.serving hs
    refine ⟨hout, hstartup.trans hcomplete, habandoned.trans hkept, fun he => ?_, hstopping⟩
    refine (hup (.inr hs) he).imp_right fun hc => hc.resolve_right fun hf => ?_
    rw [hcomplete] at hf
    cases hf
  after hs hv :=
    ⟨(h.after hs hv).ended, (h.after hs hv).returned, fun hp =>
      (h.after hs hv).startup (hstartup.symm.trans hp)⟩
  early he := ⟨hasked.trans (h.early he).asked, hrequested.trans (h.early he).requested⟩
  asked := by
    change l.received ++ l.queue = _ ∨ l.received ++ l.queue = _ ∧ _ ∧ (l.startup = _ ∨ s.failed)
    rw [hasked, hstartup]
    exact h.asked
  owed hl ho hr ha := by
    change s.abandoned ∨ l.startup = .failed
    rw [hstartup]
    exact h.owed hl ho (hrunning hr) (hasked.symm.trans ha)

/-- The task as the stage has it. -/
theorem Sound.up (h : Sound s) (hs : s.stage = .starting ∨ s.stage = .serving)
    (he : s.lifespan.enabled) :
    s.lifespan.running ∨ s.lifespan.crashed ∨ s.lifespan.startup = .failed := by
  rcases hs with hs | hs
  · exact (h.starting hs).2.2 he
  · exact ((h.serving hs).2.2.2.1 he).imp_right .inl

theorem receive_sound (h : Sound s) : Sound s.receive := by
  unfold State.receive
  split
  · exact h
  rename_i message queue hqueue
  have hasked : s.lifespan.received ++ [message] ++ queue = s.asked := by
    simp [State.asked, hqueue]
  exact h.relife hasked rfl rfl rfl h.enabled h.crashed id h.up

/-- `_startup` is done, by the application. -/
theorem resolve_sound (h : Sound s) (hp : s.lifespan.startup = .pending) {startup : Startup}
    (hdone : startup ≠ .pending) : Sound (s.resolve startup) := by
  have hvs : s.stage ≠ .serving := by
    intro hs
    rw [(h.serving hs).2.1] at hp
    cases hp
  unfold State.resolve
  dsimp only
  split
  · rename_i hs
    change s.stage = .starting at hs
    obtain ⟨hout, -, hup⟩ := h.starting hs
    have hu := h.unasked_of_starting hs
    exact
      { first := h.first
        abandoned := h.abandoned
        crashed := h.crashed
        given_up := h.given_up
        enabled := h.enabled
        starting := fun _ => ⟨hout, ⟨(by cases ·), (absurd · hdone)⟩, fun he =>
          (hup he).imp_right (Or.imp_right fun hf => by rw [hf] at hp; cases hp)⟩
        serving := fun hv => absurd hv hvs
        after := fun hn => absurd hs hn
        early := fun _ => ⟨hu.asked, hu.requested⟩
        asked := .inl hu.asked
        owed := fun hl => by rw [show s.stage = .starting from hs] at hl; cases hl }
  · rename_i hs
    change s.stage ≠ .starting at hs
    have hover := h.after hs hvs
    refine Over.sound ⟨hover.ended, hover.returned, fun he => absurd he hdone⟩
      ⟨h.first, h.abandoned, h.crashed, h.given_up, h.enabled⟩ hs hvs
      (fun he => ⟨(h.early he).asked, (h.early he).requested⟩) ?_ fun hl ho hr ha => ?_
    · rcases h.asked with hone | ⟨htwo, hkept, hcomplete | hfailed⟩
      · exact .inl hone
      · rw [hp] at hcomplete
        cases hcomplete
      · exact .inr ⟨htwo, hkept, .inr hfailed⟩
    · refine .inl ((h.owed hl ho hr ha).resolve_right fun hf => ?_)
      rw [hp] at hf
      cases hf

theorem send_sound (h : Sound s) (reply : Reply) : Sound (s.send reply) := by
  have hshut : Sound { s with lifespan := { s.lifespan with shutdown := true } } :=
    h.relife rfl rfl rfl rfl h.enabled h.crashed id h.up
  cases reply with
  | startupComplete =>
    simp only [State.send]
    split
    · rename_i hp
      exact resolve_sound h hp Startup.noConfusion
    · exact h
  | startupFailed =>
    simp only [State.send]
    split
    · rename_i hp
      exact resolve_sound h hp Startup.noConfusion
    · exact h
  | shutdownComplete => exact hshut
  | shutdownFailed => exact hshut

/-- The task is over, with its futures done. -/
def State.over (s : State) : State :=
  { s with lifespan := { s.lifespan with shutdown := true, running := false } }

@[simp] theorem resolve_lifespan (s : State) (startup : Startup) :
    (s.resolve startup).lifespan = { s.lifespan with startup } := by
  unfold State.resolve
  dsimp only
  split <;> rfl

@[simp] theorem crash_lifespan (s : State) :
    s.crash.lifespan = { s.lifespan with crashed := true } := by
  rw [State.crash, request_eq]

theorem returned_eq (s : State) :
    s.returned =
      (if s.lifespan.startup = .pending then s.disable
        else if s.lifespan.enabled ∧ ¬ s.lifespan.crashed ∧ ¬ s.lifespan.shutdownRequested ∧
          s.lifespan.startup ≠ .failed then s.crash
        else s).over := rfl

/-- How the task can end: without a startup, with nothing left that it owes, or as a crash. -/
theorem taskEnds_cases (s : State) (ending : Ending) :
    s.lifespan.startup = .pending ∧ s.taskEnds ending = s.disable.over ∨
      s.lifespan.startup ≠ .pending ∧ s.taskEnds ending = s.over ∧
        (s.lifespan.enabled → s.lifespan.crashed ∨ s.lifespan.shutdownRequested ∨
          s.lifespan.startup = .failed) ∨
      s.lifespan.startup = .complete ∧ s.taskEnds ending = s.crash.over := by
  have hreturned : s.lifespan.startup = .pending ∧ s.returned = s.disable.over ∨
      s.lifespan.startup ≠ .pending ∧ s.returned = s.over ∧
        (s.lifespan.enabled → s.lifespan.crashed ∨ s.lifespan.shutdownRequested ∨
          s.lifespan.startup = .failed) ∨
      s.lifespan.startup = .complete ∧ s.returned = s.crash.over := by
    rw [returned_eq]
    split
    · rename_i hp
      exact .inl ⟨hp, rfl⟩
    rename_i hp
    split
    · rename_i hloses
      refine .inr (.inr ⟨?_, rfl⟩)
      cases hs : s.lifespan.startup with
      | pending => exact absurd hs hp
      | complete => rfl
      | failed => exact absurd hs hloses.2.2.2
    · rename_i hkeeps
      refine .inr (.inl ⟨hp, rfl, fun he => ?_⟩)
      by_contra hnone
      simp only [not_or] at hnone
      exact hkeeps ⟨he, hnone⟩
  cases ending with
  | returned => exact hreturned
  | raised cancelled =>
    change _ ∧ (s.raised cancelled).returned = _ ∨ _ ∧ (s.raised cancelled).returned = _ ∧ _ ∨
      _ ∧ (s.raised cancelled).returned = _
    unfold State.raised
    split_ifs with hcancelled hrequested hfailed hp
    · exact hreturned
    · exact hreturned
    · exact hreturned
    · exact .inl ⟨hp, by rw [returned_eq]; simp [State.disable]⟩
    · refine .inr (.inr ⟨?_, by rw [returned_eq]; simp [hp]⟩)
      cases hs : s.lifespan.startup with
      | pending => exact absurd hs hp
      | complete => rfl
      | failed => exact absurd hs hfailed

theorem over_sound (h : Sound s)
    (hup : s.stage = .starting ∨ s.stage = .serving → s.lifespan.enabled →
      s.lifespan.crashed ∨ s.lifespan.startup = .failed) : Sound s.over :=
  h.relife rfl rfl rfl rfl (fun hr => by cases hr) h.crashed (fun hr => by cases hr)
    fun hs he => .inr (hup hs he)

theorem crash_over_sound (h : Sound s) : Sound s.crash.over := by
  have hrequest := request_sound h .lifespan
  have hreason : (s.request .lifespan).reason.isSome := by
    rw [request_eq]
    cases s.reason <;> rfl
  have heq : s.crash.over =
      { s.request .lifespan with
        lifespan := { s.lifespan with crashed := true, shutdown := true, running := false } } := by
    simp only [State.crash, State.over, request_eq]
  rw [heq]
  have hlife : (s.request .lifespan).lifespan = s.lifespan := by rw [request_eq]
  refine hrequest.relife ?_ ?_ ?_ ?_ (fun hr => by cases hr) (fun _ => hreason)
    (fun hr => by cases hr) fun _ _ => .inr (.inl rfl)
  · rw [State.asked, hlife]
  all_goals rw [hlife]

/-- The application has no lifespan. -/
theorem disable_over_sound (h : Sound s) (hp : s.lifespan.startup = .pending) :
    Sound s.disable.over := by
  let t : State :=
    { s with lifespan := { s.lifespan with enabled := false, shutdown := true, running := false } }
  have hover : Sound t :=
    h.relife rfl rfl rfl rfl (fun hr => by cases hr) h.crashed (fun hr => by cases hr)
      fun _ he => by cases he
  have heq : s.disable.over = t.resolve .complete := by
    unfold State.disable State.resolve State.over
    dsimp only [t]
    split_ifs <;> rfl
  rw [heq]
  exact resolve_sound hover hp Startup.noConfusion

theorem taskEnds_sound (h : Sound s) (ending : Ending) : Sound (s.taskEnds ending) := by
  rcases taskEnds_cases s ending with ⟨hp, heq⟩ | ⟨hp, heq, hkept⟩ | ⟨-, heq⟩
  · rw [heq]
    exact disable_over_sound h hp
  · rw [heq]
    refine over_sound h fun hs he => ?_
    have hu : Unasked s := h.early (by rcases hs with hs | hs <;> rw [hs] <;> rfl)
    rcases hkept he with hcrashed | hrequested | hfailed
    · exact .inl hcrashed
    · rw [hu.requested] at hrequested
      cases hrequested
    · exact .inr hfailed
  · rw [heq]
    exact crash_over_sound h

/-! ## 5. Steps and runs -/

theorem Sound.undecided (h : Sound s) (hs : s.stage = .starting ∨ s.stage = .serving) :
    s.outcome = none :=
  hs.elim (fun hs => (h.starting hs).1) fun hs => (h.serving hs).1

theorem Sound.over_of (h : Sound s) (hs : s.stage ≠ .starting ∧ s.stage ≠ .serving) : Over s :=
  h.after hs.1 hs.2

/-- The run that waits for `_startup` raises, or the task crashed behind it. -/
def State.startupFails (s : State) : Bool :=
  s.awaiting || s.lifespan.startup == .failed || s.lifespan.crashed

def State.giveUp (failed : Bool) (s : State) : State :=
  if failed then { s with lifespan := { s.lifespan with abandoned := true } } else s

/-- The worker serves, unless it has been asked to stop. -/
def State.goOn (a : Answers) (s : State) : State :=
  if s.reason.isNone then
    if a.bound then { s with served := true }.runForever .serving else s.leave .error a
  else s.conclude a

theorem startupEnded_eq (s : State) (a : Answers) :
    s.startupEnded a =
      if s.startupFails && !s.abandoned then s.leave .error a
      else (s.giveUp s.startupFails).goOn a := rfl

/-- The startup's run did not fail: it was answered, and the task did not crash behind it. -/
theorem startupFails_eq_false (h : Sound s) (hs : s.stage = .starting)
    (hfails : s.startupFails = false) : s.lifespan.startup = .complete := by
  obtain ⟨-, hawaiting, -⟩ := h.starting hs
  simp only [State.startupFails, Bool.or_eq_false_iff, beq_eq_false_iff_ne] at hfails
  obtain ⟨⟨hdone, hnot⟩, -⟩ := hfails
  cases hstartup : s.lifespan.startup with
  | pending =>
    rw [hawaiting.mpr hstartup] at hdone
    cases hdone
  | complete => rfl
  | failed => exact absurd hstartup hnot

/-- The worker starts to serve. -/
theorem serve_sound (h : Sound s) (hs : s.stage = .starting)
    (hcomplete : s.lifespan.startup = .complete) (hnone : s.reason = none) :
    Sound ({ s with served := true }.runForever .serving) := by
  have hu := h.unasked_of_starting hs
  obtain ⟨hout, -, hup⟩ := h.starting hs
  have hkept : s.lifespan.abandoned = false := by
    by_contra hgiven
    have hsome := h.abandoned (h.given_up (by simpa using hgiven))
    rw [hnone] at hsome
    cases hsome
  have hstops : s.reason.isSome → s.stopping := fun hsome => by
    rw [hnone] at hsome
    cases hsome
  have hruns : s.lifespan.enabled → s.lifespan.running ∨ s.lifespan.crashed := fun he =>
    (hup he).imp_right fun hc => hc.resolve_right fun hfailed => by
      rw [hcomplete] at hfailed
      cases hfailed
  exact
    { first := h.first
      abandoned := h.abandoned
      crashed := h.crashed
      given_up := h.given_up
      enabled := h.enabled
      starting := fun hs => by cases hs
      serving := fun _ => ⟨hout, hcomplete, hkept, hruns, hstops⟩
      after := fun _ hv => absurd rfl hv
      early := fun _ => ⟨hu.asked, hu.requested⟩
      asked := .inl hu.asked
      owed := fun hl => by cases hl }

theorem startupEnded_sound (h : Sound s) (hs : s.stage = .starting) : Sound (s.startupEnded a) := by
  have hu := h.unasked_of_starting hs
  rw [startupEnded_eq]
  split
  · exact leave_failed_sound h.toCore hu (.inl rfl)
  rename_i hon
  cases hfails : s.startupFails with
  | true =>
    -- the failure is the abandonment's
    have habandoned : s.abandoned := by simpa [hfails] using hon
    have hsome := h.abandoned habandoned
    have hnone : s.reason.isNone = false := by simpa using hsome
    simp only [State.goOn, State.giveUp, if_true, hnone, Bool.false_eq_true, if_false]
    exact conclude_sound ⟨h.first, h.abandoned, h.crashed, fun _ => habandoned, h.enabled⟩
      ⟨hu.asked, hu.requested⟩ hsome fun _ => habandoned
  | false =>
    have hcomplete := startupFails_eq_false h hs hfails
    simp only [State.goOn, State.giveUp, Bool.false_eq_true, if_false]
    split
    · rename_i hnone
      split
      · exact serve_sound h hs hcomplete (Option.isNone_iff_eq_none.mp hnone)
      · exact leave_failed_sound h.toCore hu (.inl rfl)
    · rename_i hsome
      refine conclude_sound h.toCore hu ?_ fun hp => ?_
      · rwa [Option.isNone_iff_eq_none, ← ne_eq, ← Option.isSome_iff_ne_none] at hsome
      · rw [hcomplete] at hp
        cases hp

theorem servingEnded_sound (h : Core s) (hu : Unasked s) (hstartup : s.lifespan.startup = .complete) :
    Sound (s.servingEnded a) := by
  have hpending : s.lifespan.startup = .pending → s.abandoned := fun hp => by
    rw [hstartup] at hp
    cases hp
  unfold State.servingEnded
  split
  · rename_i hreason
    have hnone := Option.isNone_iff_eq_none.mp hreason
    refine conclude_sound ⟨?_, fun _ => rfl, fun _ => rfl, h.given_up, h.enabled⟩
      ⟨hu.asked, hu.requested⟩ rfl hpending
    rw [List.head?_append, ← h.first, hnone]
    rfl
  · rename_i hreason
    refine conclude_sound h hu ?_ hpending
    rwa [Option.isNone_iff_eq_none, ← ne_eq, ← Option.isSome_iff_ne_none] at hreason

theorem close_sound (h : Sound s) (hlate : s.stage.early = false) : Sound s.close := by
  have hover := h.over_of (by cases hs : s.stage <;> simp_all [Stage.early])
  exact Over.sound ⟨hover.ended, hover.returned, hover.startup⟩
    ⟨h.first, h.abandoned, h.crashed, h.given_up, h.enabled⟩ Stage.noConfusion Stage.noConfusion
    (fun he => by cases he) h.asked fun _ hne => h.owed hlate fun _ => hne rfl

theorem exited_sound (h : Core s)
    (hasked : s.asked = [.startup] ∨ s.asked = [.startup, .shutdown] ∧ s.abandoned = false) :
    Sound { s with outcome := some .exited }.close := by
  refine Over.sound ⟨rfl, (fun r hr => by cases hr), fun _ => .inr (.inr rfl)⟩
    ⟨h.first, h.abandoned, h.crashed, h.given_up, h.enabled⟩ Stage.noConfusion Stage.noConfusion
    (fun he => by cases he) ?_ fun _ hne => absurd rfl (hne rfl)
  exact hasked.imp_right fun ⟨htwo, hkept⟩ => ⟨htwo, hkept, .inr (.inr rfl)⟩

/-- The next run of the finalization. -/
theorem runUntilComplete_sound (h : Sound s) (hlate : s.stage.early = false) (hopen : s.stage ≠ .ended)
    {stage : Stage} (hstage : stage.early = false) : Sound (s.runUntilComplete stage) := by
  have hover := h.over_of (by cases hs : s.stage <;> simp_all [Stage.early])
  refine Over.sound ⟨hover.ended, hover.returned, hover.startup⟩
    ⟨h.first, h.abandoned, h.crashed, h.given_up, h.enabled⟩ ?_ ?_ (fun he => ?_) h.asked
    fun _ _ => h.owed hlate fun hs => absurd hs hopen
  · rintro rfl; cases hstage
  · rintro rfl; cases hstage
  · rw [show (s.runUntilComplete stage).stage = stage from rfl, hstage] at he
    cases he

theorem ranOut_sound (h : Sound s) : Sound (s.ranOut a) := by
  unfold State.ranOut
  split
  · rename_i hs
    exact startupEnded_sound h hs
  · rename_i hs
    exact servingEnded_sound h.toCore (h.early (by rw [hs]; rfl)) (h.serving hs).2.1
  · rename_i hs
    exact cancelRequests_sound h.toCore (h.over_of (by simp [hs])) (h.early (by rw [hs]; rfl))
  · rename_i hs
    exact lifespanShutdown_sound h.toCore (h.over_of (by simp [hs])) (h.early (by rw [hs]; rfl))
  · rename_i hs
    exact finalizeLoop_sound h.toCore (h.over_of (by simp [hs])) h.asked
      (h.owed (by rw [hs]; rfl) (by simp [hs]))
  · rename_i hs
    split
    · exact close_sound h (by rw [hs]; rfl)
    · exact runUntilComplete_sound h (by rw [hs]; rfl) (by simp [hs]) rfl
  · rename_i hs
    split
    · exact close_sound h (by rw [hs]; rfl)
    · exact runUntilComplete_sound h (by rw [hs]; rfl) (by simp [hs]) rfl
  · rename_i hs
    exact close_sound h (by rw [hs]; rfl)
  · rename_i hs
    exact close_sound h (by rw [hs]; rfl)

theorem exits_sound (h : Core s) (hearly : s.stage.early → Unasked s)
    (hserving : s.stage = .serving → s.lifespan.startup = .complete)
    (hdraining : s.stage = .draining → Over s)
    (hasked : s.asked = [.startup] ∨ s.asked = [.startup, .shutdown] ∧ s.abandoned = false)
    (interrupt : Bool) : Sound (s.exits interrupt a) := by
  unfold State.exits
  split
  · rename_i hs
    exact leave_failed_sound h (hearly (by rw [hs]; rfl)) (.inr rfl)
  · rename_i hs
    have hu : Unasked s := hearly (by rw [hs]; rfl)
    split
    · refine servingEnded_sound (request_core h .signal) ?_ ?_
      · rw [request_eq]
        exact ⟨hu.asked, hu.requested⟩
      · rw [request_eq]
        exact hserving hs
    · exact leave_failed_sound h hu (.inr rfl)
  · rename_i hs
    split
    · exact cancelRequests_sound h (hdraining hs) (hearly (by rw [hs]; rfl))
    · exact exited_sound h hasked
  · exact exited_sound h hasked

theorem endRun_sound (h : Sound s) : Sound ({ s with stopping := false }.ranOut a) := by
  by_cases hs : s.stage = .serving
  · have hu : Unasked s := h.early (by rw [hs]; rfl)
    simp only [State.ranOut, hs]
    exact servingEnded_sound ⟨h.first, h.abandoned, h.crashed, h.given_up, h.enabled⟩
      ⟨hu.asked, hu.requested⟩ (h.serving hs).2.1
  · exact ranOut_sound (h.flags s.hurry false s.callbacks fun hv => absurd hv hs)

theorem exit_sound (h : Sound s) (running interrupt : Bool) (hrunning : running → s.lifespan.running) :
    Sound ({ s with lifespan := { s.lifespan with running }, stopping := false }.exits interrupt a) := by
  refine exits_sound ?_ ?_ ?_ ?_ ?_ interrupt
  · exact ⟨h.first, h.abandoned, h.crashed, h.given_up, fun hr => h.enabled (hrunning hr)⟩
  · exact fun he => ⟨(h.early he).asked, (h.early he).requested⟩
  · exact fun hs => (h.serving hs).2.1
  · intro hs
    have hover := h.over_of (by rw [show s.stage = .draining from hs]; decide)
    exact ⟨hover.ended, hover.returned, hover.startup⟩
  · exact h.asked.imp_right fun htwo => ⟨htwo.1, htwo.2.1⟩

/-- The future of a run is done, `_startup` apart. -/
theorem complete_sound (h : Sound s) (hs : s.stage ≠ .starting) (callbacks : Nat) :
    Sound { s with awaiting := false, callbacks } where
  first := h.first
  abandoned := h.abandoned
  crashed := h.crashed
  given_up := h.given_up
  enabled := h.enabled
  starting hn := absurd hn hs
  serving := h.serving
  after hn hv := ⟨(h.after hn hv).ended, (h.after hn hv).returned, (h.after hn hv).startup⟩
  early he := ⟨(h.early he).asked, (h.early he).requested⟩
  asked := h.asked
  owed := h.owed

theorem step_sound (h : Sound s) (event : Event) : Sound (s.step event) := by
  have hstop : ∀ callbacks, Sound { s with stopping := true, callbacks } := fun callbacks =>
    h.flags s.hurry true callbacks fun _ _ => rfl
  unfold State.step
  split
  · exact h
  cases event with
  | receive => exact receive_sound h
  | send reply => exact send_sound h reply
  | taskEnds ending =>
    dsimp only
    split
    · exact taskEnds_sound h ending
    · exact h
  | signal interrupt => exact onSignal_sound h interrupt
  | supervisor => exact request_sound h .supervisor
  | appStop => exact hstop s.callbacks
  | complete =>
    dsimp only
    split
    · rename_i hwaits
      exact complete_sound h hwaits.2 _
    · exact h
  | callback =>
    dsimp only
    split
    · exact h
    · exact hstop _
  | poll drained =>
    dsimp only
    split
    · exact hstop s.callbacks
    · exact h
  | exit ofTask interrupt a =>
    dsimp only
    split
    · exact h
    · exact exit_sound h _ interrupt fun hr => (Bool.and_eq_true_iff.mp hr).1
  | endRun a =>
    dsimp only
    split
    · exact endRun_sound h
    · exact h

theorem run_sound (interactive : Bool) (events : List Event) : Sound ((worker interactive).run events) :=
  (worker interactive).run_invariant (new_sound interactive) (fun _ event h => step_sound h event) events

/-! ## 6. What the application is asked -/

/-- **A worker asks its application to start up and, once the startup completed and the worker is past
its drain and its cancelled requests, to shut down, and asks for neither twice; and no lifespan task that
still runs when the loop is finalized was left unasked, unless its startup had failed or was given up.** -/
theorem asked_once (interactive : Bool) (events : List Event) :
    let s := (worker interactive).run events
    (s.asked = [.startup] ∨
        s.asked = [.startup, .shutdown] ∧ s.stage.early = false ∧ s.abandoned = false ∧
          (s.lifespan.startup = .complete ∨ s.outcome = some .error ∨ s.outcome = some .exited)) ∧
      (s.stage.early = false → (s.stage = .ended → s.outcome ≠ some .exited) →
        s.lifespan.running → s.asked = [.startup] → s.abandoned ∨ s.lifespan.startup = .failed) := by
  intro s
  have h : Sound s := run_sound interactive events
  refine ⟨h.asked.imp_right fun ⟨htwo, hkept, hdone⟩ => ⟨htwo, h.asked_late htwo, hkept, hdone⟩, h.owed⟩

/-! ## 7. What no step takes back -/

structure Onward (s t : State) : Prop where
  interactive : t.interactive = s.interactive
  reason : s.reason.isSome → t.reason = s.reason
  crashed : s.lifespan.crashed → t.lifespan.crashed
  started : s.stage ≠ .starting → t.stage ≠ .starting

theorem Onward.refl (s : State) : Onward s s := ⟨rfl, fun _ => rfl, id, id⟩

theorem Onward.trans {s t u : State} (h : Onward s t) (h' : Onward t u) : Onward s u where
  interactive := h'.interactive.trans h.interactive
  reason hs := (h'.reason (by rw [h.reason hs]; exact hs)).trans (h.reason hs)
  crashed hs := h'.crashed (h.crashed hs)
  started hs := h'.started (h.started hs)

variable {t : State}

/-- What leaves the reason and a crash alone. -/
theorem Onward.kept {u : State} (h : Onward s t) (hinteractive : u.interactive = t.interactive)
    (hreason : u.reason = t.reason) (hcrashed : u.lifespan.crashed = t.lifespan.crashed)
    (hstage : t.stage ≠ .starting → u.stage ≠ .starting) : Onward s u :=
  h.trans ⟨hinteractive, fun _ => hreason, fun h => hcrashed.trans h, hstage⟩

theorem request_onward (h : Onward s t) (reason : Reason) : Onward s (t.request reason) := by
  rw [request_eq]
  exact h.trans ⟨rfl, fun hs => Option.or_of_isSome hs, id, id⟩

theorem finalizeLoop_onward (h : Onward s t) (a : Answers) : Onward s (t.finalizeLoop a) := by
  unfold State.finalizeLoop
  split <;> exact h.kept rfl rfl rfl fun _ => Stage.noConfusion

theorem lifespanShutdown_onward (h : Onward s t) (a : Answers) : Onward s (t.lifespanShutdown a) := by
  unfold State.lifespanShutdown
  dsimp only
  split_ifs
  · exact finalizeLoop_onward h a
  · refine finalizeLoop_onward ?_ a
    exact h.kept rfl rfl rfl id
  · exact h.kept rfl rfl rfl fun _ => Stage.noConfusion

theorem cancelRequests_onward (h : Onward s t) (a : Answers) : Onward s (t.cancelRequests a) := by
  unfold State.cancelRequests
  split
  · exact h.kept rfl rfl rfl fun _ => Stage.noConfusion
  · exact lifespanShutdown_onward h a

theorem drainConnections_onward (h : Onward s t) (a : Answers) : Onward s (t.drainConnections a) := by
  unfold State.drainConnections
  split
  · exact h.kept rfl rfl rfl fun _ => Stage.noConfusion
  · exact cancelRequests_onward h a

theorem leave_onward (h : Onward s t) (outcome : Outcome) (a : Answers) : Onward s (t.leave outcome a) := by
  refine drainConnections_onward ?_ a
  exact h.kept rfl rfl rfl id

theorem conclude_onward (h : Onward s t) (a : Answers) : Onward s (t.conclude a) := by
  unfold State.conclude
  split <;> exact leave_onward h _ a

theorem startupEnded_onward (h : Onward s t) (a : Answers) : Onward s (t.startupEnded a) := by
  rw [startupEnded_eq]
  split
  · exact leave_onward h _ a
  have hgiven : Onward s (t.giveUp t.startupFails) := by
    unfold State.giveUp
    split
    · exact h.kept rfl rfl rfl id
    · exact h
  unfold State.goOn
  split
  · split
    · exact hgiven.kept rfl rfl rfl fun _ => Stage.noConfusion
    · exact leave_onward hgiven _ a
  · exact conclude_onward hgiven a

theorem servingEnded_onward (h : Onward s t) (a : Answers) : Onward s (t.servingEnded a) := by
  unfold State.servingEnded
  split
  · rename_i hnone
    refine conclude_onward ?_ a
    refine h.trans ⟨rfl, fun hs => ?_, id, id⟩
    rw [Option.isNone_iff_eq_none.mp hnone] at hs
    cases hs
  · exact conclude_onward h a

theorem ranOut_onward (h : Onward s t) (a : Answers) : Onward s (t.ranOut a) := by
  have hclose : Onward s t.close := h.kept rfl rfl rfl fun _ => Stage.noConfusion
  unfold State.ranOut
  split
  · exact startupEnded_onward h a
  · exact servingEnded_onward h a
  · exact cancelRequests_onward h a
  · exact lifespanShutdown_onward h a
  · exact finalizeLoop_onward h a
  · split
    · exact hclose
    · exact h.kept rfl rfl rfl fun _ => Stage.noConfusion
  · split
    · exact hclose
    · exact h.kept rfl rfl rfl fun _ => Stage.noConfusion
  · exact hclose
  · exact hclose

theorem exits_onward (h : Onward s t) (interrupt : Bool) (a : Answers) :
    Onward s (t.exits interrupt a) := by
  have hclose : Onward s { t with outcome := some .exited }.close :=
    h.kept rfl rfl rfl fun _ => Stage.noConfusion
  unfold State.exits
  split
  · exact leave_onward h _ a
  · split
    · exact servingEnded_onward (request_onward h .signal) a
    · exact leave_onward h _ a
  · split
    · exact cancelRequests_onward h a
    · exact hclose
  · exact hclose

theorem resolve_onward (h : Onward s t) (startup : Startup) : Onward s (t.resolve startup) := by
  unfold State.resolve
  dsimp only
  split <;> exact h.kept rfl rfl rfl id

theorem taskEnds_onward (h : Onward s t) (ending : Ending) : Onward s (t.taskEnds ending) := by
  have hover : ∀ u : State, Onward s u → Onward s u.over := fun u hu => hu.kept rfl rfl rfl id
  rcases taskEnds_cases t ending with ⟨-, heq⟩ | ⟨-, heq, -⟩ | ⟨-, heq⟩
  · rw [heq]
    refine hover _ (resolve_onward ?_ .complete)
    exact h.kept rfl rfl rfl id
  · rw [heq]
    exact hover t h
  · rw [heq]
    refine hover _ (request_onward ?_ .lifespan)
    exact h.trans ⟨rfl, fun _ => rfl, fun _ => rfl, id⟩

theorem step_onward (s : State) (event : Event) : Onward s (s.step event) := by
  have h := Onward.refl s
  unfold State.step
  split
  · exact h
  cases event with
  | receive =>
    unfold State.receive
    dsimp only
    split
    · exact h
    · exact h.kept rfl rfl rfl id
  | send reply =>
    cases reply <;> unfold State.send <;> dsimp only <;>
      first
      | exact h.kept rfl rfl rfl id
      | split
        · exact resolve_onward h _
        · exact h
  | taskEnds ending =>
    dsimp only
    split
    · exact taskEnds_onward h ending
    · exact h
  | signal interrupt =>
    unfold State.onSignal
    dsimp only
    split
    · exact request_onward h .signal
    split
    · split <;> exact h.kept rfl rfl rfl id
    · exact h
  | supervisor => exact request_onward h .supervisor
  | appStop => exact h.kept rfl rfl rfl id
  | complete =>
    dsimp only
    split
    · exact h.kept rfl rfl rfl id
    · exact h
  | callback =>
    dsimp only
    split
    · exact h
    · exact h.kept rfl rfl rfl id
  | poll drained =>
    dsimp only
    split
    · exact h.kept rfl rfl rfl id
    · exact h
  | exit ofTask interrupt a =>
    dsimp only
    split
    · exact h
    · refine exits_onward ?_ interrupt a
      exact h.kept rfl rfl rfl id
  | endRun a =>
    dsimp only
    split
    · refine ranOut_onward ?_ a
      exact h.kept rfl rfl rfl id
    · exact h

/-! ## 8. A lifespan that is lost -/

theorem finalizeLoop_outcome (s : State) (a : Answers) : (s.finalizeLoop a).outcome = s.outcome := by
  unfold State.finalizeLoop
  split <;> rfl

theorem lifespanShutdown_outcome (s : State) (a : Answers) :
    (s.lifespanShutdown a).outcome = s.outcome := by
  unfold State.lifespanShutdown
  dsimp only
  split_ifs
  · exact finalizeLoop_outcome s a
  · exact finalizeLoop_outcome _ a
  · rfl

theorem cancelRequests_outcome (s : State) (a : Answers) :
    (s.cancelRequests a).outcome = s.outcome := by
  unfold State.cancelRequests
  split
  · rfl
  · exact lifespanShutdown_outcome s a

theorem leave_outcome (s : State) (outcome : Outcome) (a : Answers) :
    (s.leave outcome a).outcome = some outcome := by
  unfold State.leave State.drainConnections
  split
  · rfl
  · exact cancelRequests_outcome _ a

theorem conclude_crashed {s : State} (h : s.lifespan.crashed) (a : Answers) :
    (s.conclude a).outcome = some .error := by
  rw [State.conclude, if_pos h]
  exact leave_outcome s .error a

theorem servingEnded_crashed {s : State} (h : s.lifespan.crashed) (a : Answers) :
    (s.servingEnded a).outcome = some .error := by
  unfold State.servingEnded
  split
  · refine conclude_crashed ?_ a
    exact h
  · exact conclude_crashed h a

/-- Only the end of a run, and an exit, end the `try` block. -/
theorem step_outcome (s : State) {event : Event} (hrun : ∀ a, event ≠ .endRun a)
    (hexit : ∀ ofTask interrupt a, event ≠ .exit ofTask interrupt a) :
    (s.step event).outcome = s.outcome ∧ (s.step event).stage = s.stage := by
  have hrequest : ∀ (u : State) reason,
      (u.request reason).outcome = u.outcome ∧ (u.request reason).stage = u.stage := by
    intro u reason
    rw [request_eq]
    exact ⟨rfl, rfl⟩
  have hresolve : ∀ (u : State) startup,
      (u.resolve startup).outcome = u.outcome ∧ (u.resolve startup).stage = u.stage := by
    intro u startup
    unfold State.resolve
    dsimp only
    split <;> exact ⟨rfl, rfl⟩
  unfold State.step
  split
  · exact ⟨rfl, rfl⟩
  cases event with
  | receive =>
    unfold State.receive
    dsimp only
    split <;> exact ⟨rfl, rfl⟩
  | send reply =>
    cases reply <;> unfold State.send <;> dsimp only <;>
      first
      | exact ⟨rfl, rfl⟩
      | split
        · exact hresolve s _
        · exact ⟨rfl, rfl⟩
  | taskEnds ending =>
    dsimp only
    split
    · rcases taskEnds_cases s ending with ⟨-, heq⟩ | ⟨-, heq, -⟩ | ⟨-, heq⟩
      · rw [heq]
        exact hresolve _ .complete
      · rw [heq]
        exact ⟨rfl, rfl⟩
      · rw [heq]
        exact hrequest _ .lifespan
    · exact ⟨rfl, rfl⟩
  | signal interrupt =>
    unfold State.onSignal
    dsimp only
    split
    · exact hrequest s .signal
    split
    · split <;> exact ⟨rfl, rfl⟩
    · exact ⟨rfl, rfl⟩
  | supervisor => exact hrequest s .supervisor
  | appStop => exact ⟨rfl, rfl⟩
  | complete =>
    dsimp only
    split <;> exact ⟨rfl, rfl⟩
  | callback =>
    dsimp only
    split <;> exact ⟨rfl, rfl⟩
  | poll drained =>
    dsimp only
    split <;> exact ⟨rfl, rfl⟩
  | exit ofTask interrupt a => exact absurd rfl (hexit ofTask interrupt a)
  | endRun a => exact absurd rfl (hrun a)

/-- The lifespan was lost before the drain. -/
structure Lost (s : State) : Prop where
  crashed : s.lifespan.crashed
  reported : s.outcome = none ∧ (s.stage = .starting ∨ s.stage = .serving) ∨ s.failed

theorem startupEnded_lost {s : State} (h : s.lifespan.crashed) (hout : s.outcome = none) (a : Answers) :
    Lost (s.startupEnded a) := by
  refine ⟨(startupEnded_onward (Onward.refl s) a).crashed h, ?_⟩
  unfold State.startupEnded
  simp only [h, Bool.or_true, Bool.true_and, if_true]
  split
  · exact .inr (.inl (leave_outcome s .error a))
  split
  · split
    · exact .inl ⟨hout, .inr rfl⟩
    · exact .inr (.inl (leave_outcome _ .error a))
  · exact .inr (.inl (conclude_crashed rfl a))

theorem ranOut_outcome {s : State} (hs : s.stage ≠ .starting) (hv : s.stage ≠ .serving) (a : Answers) :
    (s.ranOut a).outcome = s.outcome := by
  unfold State.ranOut
  split
  · exact absurd ‹_› hs
  · exact absurd ‹_› hv
  · exact cancelRequests_outcome s a
  · exact lifespanShutdown_outcome s a
  · exact finalizeLoop_outcome s a
  · split <;> rfl
  · split <;> rfl
  · rfl
  · rfl

theorem ranOut_lost {s : State} (h : Lost s) (hlate : s.failed → s.stage ≠ .starting ∧ s.stage ≠ .serving)
    (a : Answers) : Lost (s.ranOut a) := by
  have hcrashed := (ranOut_onward (Onward.refl s) a).crashed h.crashed
  rcases h.reported with ⟨hout, hs | hs⟩ | hfailed
  · have hlost := startupEnded_lost h.crashed hout a
    rwa [show s.ranOut a = s.startupEnded a by rw [State.ranOut, hs]]
  · refine ⟨hcrashed, .inr (.inl ?_)⟩
    rw [State.ranOut, hs]
    exact servingEnded_crashed h.crashed a
  · refine ⟨hcrashed, .inr ?_⟩
    have heq := ranOut_outcome (hlate hfailed).1 (hlate hfailed).2 a
    rwa [State.failed, heq]

theorem exits_lost {s : State} (h : s.lifespan.crashed)
    (hlate : s.stage ≠ .starting → s.stage ≠ .serving → s.failed) (interrupt : Bool) (a : Answers) :
    Lost (s.exits interrupt a) := by
  refine ⟨(exits_onward (Onward.refl s) interrupt a).crashed h, .inr ?_⟩
  unfold State.exits
  split
  · exact .inr (leave_outcome s .exited a)
  · split
    · refine .inl (servingEnded_crashed ?_ a)
      rw [request_eq]
      exact h
    · exact .inr (leave_outcome s .exited a)
  · rename_i hs
    split
    · rw [State.failed, cancelRequests_outcome]
      exact hlate (by rw [hs]; decide) (by rw [hs]; decide)
    · exact .inr rfl
  · exact .inr rfl

theorem step_lost {s : State} (h : Sound s) (hl : Lost s) (event : Event) : Lost (s.step event) := by
  have hlate : s.failed → s.stage ≠ .starting ∧ s.stage ≠ .serving := by
    intro hfailed
    refine not_or.mp fun hs => ?_
    rcases hfailed with hf | hf <;> rw [h.undecided hs] at hf <;> cases hf
  by_cases hrun : (∀ a, event ≠ .endRun a) ∧ ∀ ofTask interrupt a, event ≠ .exit ofTask interrupt a
  · obtain ⟨hout, hstage⟩ := step_outcome s hrun.1 hrun.2
    refine ⟨(step_onward s event).crashed hl.crashed, ?_⟩
    rw [hout, hstage, State.failed, hout]
    exact hl.reported
  cases event with
  | exit ofTask interrupt a =>
    unfold State.step
    split
    · exact hl
    dsimp only
    split
    · exact hl
    · refine exits_lost ?_ (fun hs hv => ?_) interrupt a
      · exact hl.crashed
      · exact hl.reported.resolve_left fun ⟨_, hearly⟩ => hearly.elim hs hv
  | endRun a =>
    unfold State.step
    split
    · exact hl
    dsimp only
    split
    · refine ranOut_lost ?_ ?_ a
      · exact ⟨hl.crashed, hl.reported⟩
      · exact hlate
    · exact hl
  | _ => exact absurd ⟨fun _ => Event.noConfusion, fun _ _ _ => Event.noConfusion⟩ hrun

/-- **A worker that serves has its lifespan task, or no lifespan, or is about to stop; what it returns is
the first reason it was given to stop; and one whose lifespan was lost before its drain never returns.** -/
theorem returns_in_order (interactive : Bool) (events later : List Event) :
    let s := (worker interactive).run events
    (s.stage = .serving → s.lifespan.startup = .complete ∧
        (s.lifespan.enabled → s.lifespan.running ∨ s.lifespan.crashed ∧ s.stopping)) ∧
      (∀ reason, s.outcome = some (.returned reason) → reason = s.requests.head? ∧ reason.isSome) ∧
      (s.lifespan.crashed → s.stage = .starting ∨ s.stage = .serving →
        ∀ reason, ((worker interactive).run (events ++ later)).outcome ≠ some (.returned reason)) := by
  intro s
  have h : Sound s := run_sound interactive events
  refine ⟨fun hs => ?_, fun reason hreason => ?_, fun hcrashed hs reason => ?_⟩
  · obtain ⟨-, hstartup, -, hup, hstops⟩ := h.serving hs
    exact ⟨hstartup, fun he => (hup he).imp_right fun hc => ⟨hc, hstops (h.crashed hc)⟩⟩
  · have hlate : s.stage ≠ .starting ∧ s.stage ≠ .serving := not_or.mp fun hs => by
      rw [h.undecided hs] at hreason
      cases hreason
    exact (h.over_of hlate).returned reason hreason
  · have hlater : Sound ((worker interactive).run (events ++ later)) ∧
        Lost ((worker interactive).run (events ++ later)) := by
      rw [Machine.run, List.foldl_append]
      exact foldl_keeps (I := fun s => Sound s ∧ Lost s)
        (fun s event hs => ⟨step_sound hs.1 event, step_lost hs.1 hs.2 event⟩) later
        ⟨h, hcrashed, .inl ⟨h.undecided hs, hs⟩⟩
    rcases hlater.2.reported with ⟨hout, -⟩ | hout | hout <;> rw [hout] <;> simp

/-! ## 9. Later requests -/

/-- Two workers whose records differ, and nothing else. -/
inductive Same (s : State) : State → Prop where
  | mk (requests : List Reason) : Same s { s with requests }

theorem Same.refl (s : State) : Same s s := .mk s.requests

theorem Same.stage {s t : State} (h : Same s t) : t.stage = s.stage := by
  cases h
  rfl

theorem Same.symm {s t : State} (h : Same s t) : Same t s := by
  cases h with
  | mk l => exact .mk s.requests

theorem Same.trans {s t u : State} (h : Same s t) (h' : Same t u) : Same s u := by
  cases h with
  | mk l =>
    cases h' with
    | mk l' => exact .mk l'

section

variable {s t : State} (h : Same s t)

include h

theorem request_same (reason : Reason) : Same (s.request reason) (t.request reason) := by
  cases h with
  | mk l =>
    rw [request_eq, request_eq]
    exact .mk (l ++ [reason])

theorem onSignal_same (interrupt : Bool) : Same (s.onSignal interrupt) (t.onSignal interrupt) := by
  have hrequest := request_same h .signal
  cases h with
  | mk l =>
    have hphase : State.phase { s with requests := l } = s.phase := rfl
    unfold State.onSignal
    rw [hphase]
    dsimp only
    split_ifs
    · exact hrequest
    · cases s.phase <;> exact .mk l
    · exact .mk l

theorem resolve_same (startup : Startup) : Same (s.resolve startup) (t.resolve startup) := by
  cases h with
  | mk l =>
    unfold State.resolve
    dsimp only
    split_ifs <;> exact .mk l

theorem disable_same : Same s.disable t.disable := by
  cases h with
  | mk l => exact resolve_same (.mk l) .complete

theorem crash_same : Same s.crash t.crash := by
  cases h with
  | mk l => exact request_same (.mk l) .lifespan

theorem receive_same : Same s.receive t.receive := by
  cases h with
  | mk l =>
    unfold State.receive
    dsimp only
    cases s.lifespan.queue <;> exact .mk l

theorem send_same (reply : Reply) : Same (s.send reply) (t.send reply) := by
  have hresolve := resolve_same h
  cases h with
  | mk l =>
    cases reply <;> unfold State.send <;> dsimp only
    · split_ifs
      · exact hresolve .complete
      · exact .mk l
    · split_ifs
      · exact hresolve .failed
      · exact .mk l
    · exact .mk l
    · exact .mk l

theorem returned_same : Same s.returned t.returned := by
  have hover : ∀ {u v : State}, Same u v → Same u.over v.over := by
    intro u v huv
    cases huv with
    | mk l => exact .mk l
  have hdisable := disable_same h
  have hcrash := crash_same h
  cases h with
  | mk l =>
    rw [returned_eq, returned_eq]
    dsimp only
    split_ifs
    · exact hover hdisable
    · exact hover hcrash
    · exact hover (.mk l)

theorem taskEnds_same (ending : Ending) : Same (s.taskEnds ending) (t.taskEnds ending) := by
  have hdisable := disable_same h
  have hcrash := crash_same h
  cases ending with
  | returned => exact returned_same h
  | raised cancelled =>
    refine returned_same ?_
    cases h with
    | mk l =>
      unfold State.raised
      dsimp only
      split_ifs
      · exact .mk l
      · exact .mk l
      · exact .mk l
      · exact hdisable
      · exact hcrash

theorem finalizeLoop_same (a : Answers) : Same (s.finalizeLoop a) (t.finalizeLoop a) := by
  cases h with
  | mk l =>
    unfold State.finalizeLoop
    dsimp only
    split_ifs <;> exact .mk l

theorem lifespanShutdown_same (a : Answers) : Same (s.lifespanShutdown a) (t.lifespanShutdown a) := by
  cases h with
  | mk l =>
    unfold State.lifespanShutdown
    dsimp only
    split_ifs
    · exact finalizeLoop_same (.mk l) a
    · exact finalizeLoop_same (.mk l) a
    · exact .mk l

theorem cancelRequests_same (a : Answers) : Same (s.cancelRequests a) (t.cancelRequests a) := by
  have hshutdown := lifespanShutdown_same h a
  cases h with
  | mk l =>
    unfold State.cancelRequests
    dsimp only
    split_ifs
    · exact .mk l
    · exact hshutdown

theorem leave_same (outcome : Outcome) (a : Answers) :
    Same (s.leave outcome a) (t.leave outcome a) := by
  cases h with
  | mk l =>
    unfold State.leave State.drainConnections
    dsimp only
    split_ifs
    · exact .mk l
    · exact cancelRequests_same (.mk l) a

theorem conclude_same (a : Answers) : Same (s.conclude a) (t.conclude a) := by
  have hleave := fun outcome => leave_same h outcome a
  cases h with
  | mk l =>
    unfold State.conclude
    dsimp only
    split_ifs
    · exact hleave .error
    · exact hleave (.returned s.reason)

theorem goOn_same (a : Answers) : Same (s.goOn a) (t.goOn a) := by
  have hleave := leave_same h .error a
  have hconclude := conclude_same h a
  cases h with
  | mk l =>
    unfold State.goOn
    dsimp only
    split_ifs
    · exact .mk l
    · exact hleave
    · exact hconclude

theorem startupEnded_same (a : Answers) : Same (s.startupEnded a) (t.startupEnded a) := by
  have hgiven : Same (s.giveUp s.startupFails) (t.giveUp t.startupFails) := by
    cases h with
    | mk l =>
      change Same (s.giveUp s.startupFails) (State.giveUp s.startupFails { s with requests := l })
      cases s.startupFails <;> exact .mk l
  have hif : t.startupFails = s.startupFails ∧ t.abandoned = s.abandoned := by
    cases h
    exact ⟨rfl, rfl⟩
  rw [startupEnded_eq, startupEnded_eq, hif.1, hif.2]
  rw [hif.1] at hgiven
  split
  · exact leave_same h .error a
  · exact goOn_same hgiven a

theorem servingEnded_same (a : Answers) : Same (s.servingEnded a) (t.servingEnded a) := by
  have hstopped : Same { s with reason := some .app, requests := s.requests ++ [Reason.app] }
      { t with reason := some .app, requests := t.requests ++ [Reason.app] } := by
    cases h with
    | mk l => exact .mk (l ++ [.app])
  have hreason : t.reason = s.reason := by
    cases h
    rfl
  unfold State.servingEnded
  rw [hreason]
  split
  · exact conclude_same hstopped a
  · exact conclude_same h a

theorem ranOut_same (a : Answers) : Same (s.ranOut a) (t.ranOut a) := by
  have hclose : Same s.close t.close := by
    cases h with
    | mk l => exact .mk l
  have hnext : ∀ stage, Same (if s.awaiting then s.close else s.runUntilComplete stage)
      (if t.awaiting then t.close else t.runUntilComplete stage) := by
    intro stage
    cases h with
    | mk l =>
      dsimp only
      split_ifs <;> exact .mk l
  unfold State.ranOut
  rw [h.stage]
  cases s.stage with
  | starting => exact startupEnded_same h a
  | serving => exact servingEnded_same h a
  | draining => exact cancelRequests_same h a
  | cancelling => exact lifespanShutdown_same h a
  | closing => exact finalizeLoop_same h a
  | tasks => exact hnext .asyncgens
  | asyncgens => exact hnext .executor
  | executor => exact hclose
  | ended => exact hclose

theorem exits_same (interrupt : Bool) (a : Answers) :
    Same (s.exits interrupt a) (t.exits interrupt a) := by
  have hleave := leave_same h .exited a
  have hclose : Same (State.close { s with outcome := some .exited })
      (State.close { t with outcome := some .exited }) := by
    cases h with
    | mk l => exact .mk l
  unfold State.exits
  rw [h.stage]
  cases s.stage with
  | starting => exact hleave
  | serving =>
    dsimp only
    split
    · exact servingEnded_same (request_same h .signal) a
    · exact hleave
  | draining =>
    dsimp only
    split
    · exact cancelRequests_same h a
    · exact hclose
  | _ => exact hclose

/-- Nothing that the worker does depends on the record. -/
theorem step_same (event : Event) : Same (s.step event) (t.step event) := by
  unfold State.step
  rw [h.stage]
  by_cases hended : s.stage = .ended
  · rw [if_pos hended, if_pos hended]
    exact h
  rw [if_neg hended, if_neg hended]
  cases event with
  | receive => exact receive_same h
  | send reply => exact send_same h reply
  | taskEnds ending =>
    have htask := taskEnds_same h ending
    cases h with
    | mk l =>
      dsimp only
      split_ifs
      · exact htask
      · exact .mk l
  | signal interrupt => exact onSignal_same h interrupt
  | supervisor => exact request_same h .supervisor
  | exit ofTask interrupt a =>
    cases h with
    | mk l =>
      dsimp only
      split_ifs
      · exact .mk l
      · exact exits_same (.mk l) interrupt a
  | endRun a =>
    cases h with
    | mk l =>
      dsimp only
      split_ifs
      · exact ranOut_same (.mk l) a
      · exact .mk l
  | appStop =>
    cases h with
    | mk l => exact .mk l
  | _ =>
    cases h with
    | mk l =>
      dsimp only
      split_ifs <;> exact .mk l

end

/-- A request to a worker of a pool that stops already. -/
def Ignored (s : State) (event : Event) : Prop :=
  (∃ interrupt, event = .signal interrupt) ∨ event = .supervisor ∧ s.stage ≠ .starting

theorem step_ignored {s : State} (hpool : s.interactive = false) (hreason : s.reason.isSome)
    {event : Event} (h : Ignored s event) : Same s (s.step event) := by
  have hnone : s.reason.isNone = false := by simpa using hreason
  unfold State.step
  split
  · exact .refl s
  rcases h with ⟨interrupt, rfl⟩ | ⟨rfl, hs⟩
  · simp only [State.onSignal, hnone, hpool, Bool.false_and, Bool.false_eq_true, if_false]
    exact .refl s
  · have hstage : (s.stage == .starting) = false := beq_eq_false_iff_ne.mpr hs
    dsimp only
    rw [request_eq, hstage, hnone, Option.or_of_isSome hreason]
    simp only [Bool.and_false, Bool.false_and, Bool.or_false]
    exact .mk _

theorem foldl_ignored {drop : Event → Bool} (later : List Event) :
    ∀ {s t : State}, Same s t → s.interactive = false → s.reason.isSome →
      (∀ event, drop event → Ignored s event) →
      Same (later.foldl State.step s)
        ((later.filter fun event => !drop event).foldl State.step t) := by
  induction later with
  | nil => exact fun h _ _ _ => h
  | cons event later ih =>
    intro s t h hpool hreason hdrop
    have honward := step_onward s event
    have hpool' := honward.interactive.trans hpool
    have hreason' : (s.step event).reason.isSome := by
      rw [honward.reason hreason]
      exact hreason
    have hdrop' : ∀ event', drop event' → Ignored (s.step event) event' := fun event' he =>
      (hdrop event' he).imp_right fun ⟨heq, hs⟩ => ⟨heq, honward.started hs⟩
    cases hd : drop event with
    | true =>
      rw [List.foldl_cons, List.filter_cons_of_neg (by simp [hd])]
      have hignored := step_ignored hpool hreason (hdrop event hd)
      exact ih (hignored.symm.trans h) hpool' hreason' hdrop'
    | false =>
      rw [List.foldl_cons, List.filter_cons_of_pos (by simp [hd]), List.foldl_cons]
      exact ih (step_same h event) hpool' hreason' hdrop'

/-- **Once a worker of a pool has a reason to stop, no later signal changes anything it does, nor, past
its startup, does the supervisor: whichever of them are left out, the run is the same.** -/
theorem later_requests_ignored (events later : List Event) (drop : Event → Bool)
    (hreason : ((worker false).run events).reason.isSome)
    (hdrop : ∀ event, drop event → Ignored ((worker false).run events) event) :
    Same ((worker false).run (events ++ later))
      ((worker false).run (events ++ later.filter fun event => !drop event)) := by
  have hpool : ((worker false).run events).interactive = false :=
    (worker false).run_invariant (I := fun s => s.interactive = false) rfl
      (fun s event hs => (step_onward s event).interactive.trans hs) events
  have hsame := foldl_ignored later (Same.refl _) hpool hreason hdrop
  rw [Machine.run, Machine.run, List.foldl_append, List.foldl_append]
  exact hsame

def Event.isRequest : Event → Bool
  | .signal _ | .supervisor => true
  | _ => false

def drainOnly : Answers :=
  { bound := true, grace := true, busy := true, drivers := false, tasks := false }

/-- A worker that served, was told to stop, and drains. -/
def stopped : List Event :=
  [.receive, .send .startupComplete, .callback, .endRun drainOnly, .signal false, .endRun drainOnly]

/-- It is interrupted twice, and its supervisor goes, before the drain is over. -/
theorem later_requests_ignored_draining :
    Same
      ((worker false).run
        (stopped ++ [.signal true, .supervisor, .poll true, .signal true, .endRun drainOnly]))
      ((worker false).run (stopped ++ [.poll true, .endRun drainOnly])) := by
  refine later_requests_ignored stopped
    [.signal true, .supervisor, .poll true, .signal true, .endRun drainOnly] Event.isRequest rfl
    fun event h => ?_
  cases event with
  | signal interrupt => exact .inl ⟨interrupt, rfl⟩
  | supervisor => exact .inr ⟨rfl, by decide⟩
  | _ => cases h

end Cadeloop.Server.Single
