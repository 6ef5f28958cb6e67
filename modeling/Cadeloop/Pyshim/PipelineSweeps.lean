import Cadeloop.Pyshim.FlowControl
import Cadeloop.Pyshim.PipelineProgress

/-!
# The sweep of a connection

A connection on which nothing completes comes from one phase to the next at most three times, and each
deadline passes once.  One with work to do a sweep leaves alone, as long as its peer is there.
-/

namespace Cadeloop.Pyshim.Pipeline

open Cadeloop.Reasoning
open Net (Backend TransportEntry)

variable {backend : Backend} {s s' : Conn}

/-! ## 1. A sweep -/

/-- What a sweep remembers. -/
def HttpConn.marks (c : HttpConn) : SweepPhase × UInt32 × Nat := (c.sweepPhase, c.sweepSeen, c.sweepAnchorNs)

theorem eof_marks (postOk : Bool) (s : Conn) :
    (onRecvDone backend .eof postOk s).http.marks = s.http.marks := by
  unfold onRecvDone
  dsimp only
  split
  · rfl
  split
  · rw [(onNet_outward (s := { s with recvOp := false }) (f := Net.lingerDone) Net.lingerDone_grows.onwards).http]
  split
  · rfl
  · unfold peerGone
    dsimp only
    split
    · rw [teardown_outward.http]
      rfl
    · rfl

theorem connStep_marks {event : Event} (hsweep : event.isSweep = false) (s : Conn) :
    (connStep backend s event).http.marks = s.http.marks := by
  by_cases heof : event.isEof = true
  · unfold connStep
    split
    · rfl
    · cases event with
      | recvDone received postOk =>
        cases received with
        | failed => cases heof
        | eof =>
          unfold handle
          dsimp only
          split
          · exact eof_marks postOk s
          · rfl
        | bytes chunk => cases heof
      | _ => cases heof
  · have hclock := @connStep_clock backend event hsweep (by simpa using heof) s
    exact congrArg (fun k => (k.sweepPhase, k.sweepSeen, k.sweepAnchorNs)) hclock

/-- No request is dispatched or queued, and nothing is on its way out. -/
structure Conn.Resting (s : Conn) : Prop where
  idle : s.http.active = false
  unpumped : s.pumping = none
  empty : s.http.pending = []
  unsent : ∀ entry, s.net.entry = some entry → entry.wq = [] ∧ entry.sendOp = none
  unstaged : s.staged = []

instance (s : Conn) : Decidable s.Resting :=
  decidable_of_iff (s.http.active = false ∧ s.pumping = none ∧ s.http.pending = [] ∧
      (∀ entry ∈ s.net.entry, entry.wq = [] ∧ entry.sendOp = none) ∧ s.staged = [])
    ⟨fun ⟨idle, unpumped, empty, unsent, unstaged⟩ => ⟨idle, unpumped, empty, unsent, unstaged⟩,
      fun h => ⟨h.idle, h.unpumped, h.empty, h.unsent, h.unstaged⟩⟩

/-- The phase a sweep finds a connection in that rests. -/
def phaseOf (progress : Nat) : SweepPhase := if progress = 0 ∨ progress = 2 then .head else .idle

def HttpConn.limit (progress : Nat) (c : HttpConn) : Nat :=
  if progress = 0 ∨ progress = 2 then c.headTimeoutNs else c.idleTimeoutNs

theorem sweepPhase_resting {entry : TransportEntry} (hs : Sound s) (hattended : s.Attended) (hopen : s.shut = false)
    (hrest : s.Resting) (he : s.net.entry = some entry) : sweepPhase entry s.http = phaseOf s.http.progress := by
  have hanswering := (hs.interims hopen).answering hopen
  have hhere : s.http.disconnected = false := by
    by_contra hgone
    rcases hattended (by simpa using hgone) with hactive | hqueued | hshut
    · simp [hrest.idle] at hactive
    · exact hqueued hrest.empty
    · simp [hopen] at hshut
  have halive : s.http.deferredError = none := by
    by_contra hparked
    rcases hanswering.parked (by simpa [Option.isSome_iff_ne_none] using hparked) with hactive | hqueued
    · simp [hrest.idle] at hactive
    · exact hqueued hrest.empty
  obtain ⟨hwq, hsend⟩ := hrest.unsent entry he
  have hbusy : httpConnBusy entry s.http = false := by
    unfold httpConnBusy
    rcases hanswering.between hrest.idle with hdone | ⟨hidle, -⟩
    · simp [hwq, hsend, hrest.idle, hrest.empty, hdone]
    · simp [hwq, hsend, hrest.idle, hrest.empty, hidle]
  have hin : s.http.parser.inHead = decide (s.http.stage = .head) := (hanswering.tidy halive).staged.inHead
  unfold sweepPhase
  rw [if_neg (by simp [hhere]), if_neg (by simp [hbusy]), hin]
  unfold phaseOf HttpConn.progress
  cases s.http.sawBytes <;> cases s.http.stage <;> rfl

theorem expire_shut {phase : SweepPhase} {elapsed limit : Nat} (s : Conn) (hpos : 0 < limit)
    (hphase : phase = .head ∧ limit = s.http.headTimeoutNs ∨ phase = .idle ∧ limit = s.http.idleTimeoutNs)
    (hexpired : limit ≤ elapsed) : (expire backend phase elapsed s).shut = true := by
  unfold expire
  rcases hphase with ⟨rfl, rfl⟩ | ⟨rfl, rfl⟩
  · dsimp only
    rw [if_pos ⟨hpos, hexpired⟩]
    split
    · exact teardown_shut s
    · exact httpCloseAfterWrite_shut _
  · dsimp only
    rw [if_pos ⟨hpos, hexpired⟩]
    exact teardown_shut s

/-- What a sweep leaves that does not close. -/
structure Swept (nowNs : Nat) (c c' : HttpConn) : Prop where
  phase : c'.sweepPhase = phaseOf c.progress
  seen : c'.sweepSeen = c.activity
  anchor : c'.sweepAnchorNs = nowNs ∧
      (phaseOf c.progress ≠ c.sweepPhase ∨ c.sweepAnchorNs = 0 ∨ c.activity ≠ c.sweepSeen) ∨
    c'.sweepAnchorNs = c.sweepAnchorNs ∧ c.sweepAnchorNs ≠ 0 ∧ nowNs < c.sweepAnchorNs + c.limit c.progress

theorem httpSweep_swept {nowNs : Nat} (hs : Sound s) (hattended : s.Attended) (hrest : s.Resting)
    (hhead : 0 < s.http.headTimeoutNs) (hidle : 0 < s.http.idleTimeoutNs) (hopen : s.shut = false)
    (hopen' : (httpSweep backend nowNs s).shut = false) :
    Swept nowNs s.http (httpSweep backend nowNs s).http := by
  obtain ⟨entry, he, hclosing⟩ := Conn.open_entry hopen
  have hphase := sweepPhase_resting hs hattended hopen hrest he
  unfold httpSweep at hopen' ⊢
  rw [he] at hopen' ⊢
  dsimp only at hopen' ⊢
  split at hopen'
  · simp [teardown_shut] at hopen'
  rename_i hlinger
  rw [if_neg hlinger]
  rw [if_neg (by simp [hclosing])] at hopen' ⊢
  rw [hphase] at hopen' ⊢
  have hbusy : phaseOf s.http.progress ≠ .busy := by
    unfold phaseOf
    split <;> decide
  split at hopen'
  · rename_i hmoved
    rw [if_pos hmoved]
    refine ⟨rfl, rfl, .inl ⟨rfl, ?_⟩⟩
    rcases hmoved with hphase | hfirst | hbusy' | ⟨-, hmoved⟩
    · exact .inl hphase
    · exact .inr (.inl hfirst)
    · exact absurd hbusy' hbusy
    · exact .inr (.inr (by simpa using hmoved))
  · rename_i hstill
    rw [if_neg hstill, expire_http]
    rw [not_or, not_or, not_or, not_ne_iff] at hstill
    refine ⟨hstill.1.symm, rfl, .inr ⟨rfl, hstill.2.1, ?_⟩⟩
    by_contra hlate
    have hexpired : s.http.limit s.http.progress ≤ nowNs - s.http.sweepAnchorNs := by omega
    have hshut : (expire backend (phaseOf s.http.progress) (nowNs - s.http.sweepAnchorNs) { s with
        http := { s.http with sweepSeen := s.http.activity } }).shut = true := by
      refine @expire_shut backend _ _ (s.http.limit s.http.progress) _ ?_ ?_ hexpired
      · unfold HttpConn.limit
        split
        · exact hhead
        · exact hidle
      · unfold phaseOf HttpConn.limit
        split
        · exact .inl ⟨rfl, rfl⟩
        · exact .inr ⟨rfl, rfl⟩
    exact absurd (hopen'.symm.trans hshut) (by decide)

/-! ## 2. A window in which nothing completes -/

def Event.sweepNs : Event → Option Nat
  | .sweep nowNs => some nowNs
  | _ => none

/-- The times of the sweeps. -/
def sweeps (events : List Event) : List Nat := events.filterMap Event.sweepNs

/-- From `t` on, one time after the other, at most `gap` apart. -/
def Every (gap : Nat) : Nat → List Nat → Prop
  | _, [] => True
  | t, next :: rest => t < next ∧ next ≤ t + gap ∧ Every gap next rest

theorem Every.concat {gap t last : Nat} {times : List Nat} (h : Every gap t (times ++ [last])) :
    Every gap t times ∧ times.getLastD t < last ∧ last ≤ times.getLastD t + gap := by
  induction times generalizing t with
  | nil => exact ⟨trivial, h.1, h.2.1⟩
  | cons next rest ih =>
    obtain ⟨hafter, hgap, hrest⟩ := h
    obtain ⟨hevery, hlast⟩ := ih hrest
    rw [List.getLastD_cons]
    exact ⟨⟨hafter, hgap, hevery⟩, hlast⟩

theorem sweeps_concat (events : List Event) (event : Event) :
    sweeps (events ++ [event]) = sweeps events ++ event.sweepNs.toList := by
  unfold sweeps
  rw [List.filterMap_append]
  cases h : event.sweepNs <;> simp [h]

/-- By when a sweep first sees the connection that far, if it sees it. -/
def reach (headTimeoutNs idleTimeoutNs gap : Nat) : Nat → Nat
  | 0 => gap
  | n + 1 => reach headTimeoutNs idleTimeoutNs gap n +
      (if n = 0 ∨ n = 2 then headTimeoutNs else idleTimeoutNs) + 2 * gap

theorem reach_mono (h i gap : Nat) {n m : Nat} (hle : n ≤ m) : reach h i gap n ≤ reach h i gap m := by
  induction hle with
  | refl => exact Nat.le_refl _
  | step _ ih =>
    apply Nat.le_trans ih
    rw [reach]
    omega

/-- What holds of an open connection after sweeps up to the time `last`. -/
structure Anchored (gap t₀ last : Nat) (c : HttpConn) (n : Nat) : Prop where
  seen : n ≤ c.progress
  phase : c.sweepPhase = phaseOf n
  counted : c.sweepSeen = c.activity
  nonzero : c.sweepAnchorNs ≠ 0
  anchored : c.sweepAnchorNs ≤ t₀ + reach c.headTimeoutNs c.idleTimeoutNs gap n
  within : last < c.sweepAnchorNs + c.limit n

theorem Anchored.advances {gap t₀ last n : Nat} {c c' : HttpConn} (h : Anchored gap t₀ last c n)
    (hadvances : c.Advances c') (hmarks : c'.marks = c.marks)
    (htimeouts : c'.headTimeoutNs = c.headTimeoutNs ∧ c'.idleTimeoutNs = c.idleTimeoutNs) :
    Anchored gap t₀ last c' n := by
  simp only [HttpConn.marks, Prod.mk.injEq] at hmarks
  obtain ⟨hphase, hseen, hanchor⟩ := hmarks
  constructor
  · exact h.seen.trans hadvances.forward
  · exact hphase.trans h.phase
  · rw [hseen, hadvances.activity]
    exact h.counted
  · rw [hanchor]
    exact h.nonzero
  · rw [hanchor, htimeouts.1, htimeouts.2]
    exact h.anchored
  · rw [hanchor, HttpConn.limit, htimeouts.1, htimeouts.2]
    exact h.within

/-- The first sweep of the window. -/
theorem Swept.first {gap t₀ nowNs : Nat} {c c' : HttpConn} (h : Swept nowNs c c') (hadvances : c.Advances c')
    (htimeouts : c'.headTimeoutNs = c.headTimeoutNs ∧ c'.idleTimeoutNs = c.idleTimeoutNs)
    (hhead : 0 < c.headTimeoutNs) (hidle : 0 < c.idleTimeoutNs) (hbefore : c.sweepAnchorNs ≤ t₀)
    (hafter : t₀ < nowNs) (hsoon : nowNs ≤ t₀ + gap) : Anchored gap t₀ nowNs c' c.progress := by
  have hgap : gap ≤ reach c.headTimeoutNs c.idleTimeoutNs gap c.progress :=
    reach_mono c.headTimeoutNs c.idleTimeoutNs gap (Nat.zero_le c.progress)
  have hlimit : c'.limit c.progress = c.limit c.progress := by
    rw [HttpConn.limit, htimeouts.1, htimeouts.2, HttpConn.limit]
  have hpos : 0 < c.limit c.progress := by
    unfold HttpConn.limit
    split
    · exact hhead
    · exact hidle
  refine ⟨hadvances.forward, h.phase, h.seen.trans hadvances.activity.symm, ?_, ?_, ?_⟩
  · rcases h.anchor with ⟨hnow, -⟩ | ⟨hkept, hnonzero, -⟩
    · omega
    · rw [hkept]
      exact hnonzero
  · rw [htimeouts.1, htimeouts.2]
    rcases h.anchor with ⟨hnow, -⟩ | ⟨hkept, -, -⟩ <;> omega
  · rw [hlimit]
    rcases h.anchor with ⟨hnow, -⟩ | ⟨hkept, -, hlate⟩ <;> omega

/-- A later sweep anchors anew only if the connection has come further, and then no deadline had passed
by the sweep before. -/
theorem Anchored.swept {gap t₀ last nowNs n : Nat} {c c' : HttpConn} (ha : Anchored gap t₀ last c n)
    (h : Swept nowNs c c') (hadvances : c.Advances c')
    (htimeouts : c'.headTimeoutNs = c.headTimeoutNs ∧ c'.idleTimeoutNs = c.idleTimeoutNs)
    (hhead : 0 < c.headTimeoutNs) (hidle : 0 < c.idleTimeoutNs)
    (hafter : last < nowNs) (hsoon : nowNs ≤ last + gap) : Anchored gap t₀ nowNs c' c.progress := by
  have hlimit : c'.limit c.progress = c.limit c.progress := by
    rw [HttpConn.limit, htimeouts.1, htimeouts.2, HttpConn.limit]
  have hpos : 0 < c.limit c.progress := by
    unfold HttpConn.limit
    split
    · exact hhead
    · exact hidle
  have hmono := reach_mono c.headTimeoutNs c.idleTimeoutNs gap ha.seen
  have hanchored := ha.anchored
  have hwithin := ha.within
  have hnonzero := ha.nonzero
  refine ⟨hadvances.forward, h.phase, h.seen.trans hadvances.activity.symm, ?_, ?_, ?_⟩
  · rcases h.anchor with ⟨hnow, -⟩ | ⟨hkept, hnonzero, -⟩
    · omega
    · rw [hkept]
      exact hnonzero
  · rw [htimeouts.1, htimeouts.2]
    rcases h.anchor with ⟨hnow, hwhy⟩ | ⟨hkept, -, -⟩
    · have hfurther : n < c.progress := by
        apply lt_of_le_of_ne ha.seen
        intro hsame
        rcases hwhy with hphase | hzero | hmoved
        · exact hphase (by rw [ha.phase, hsame])
        · exact hnonzero hzero
        · exact hmoved ha.counted.symm
      have hnext : reach c.headTimeoutNs c.idleTimeoutNs gap n + c.limit n + 2 * gap ≤
          reach c.headTimeoutNs c.idleTimeoutNs gap c.progress :=
        reach_mono c.headTimeoutNs c.idleTimeoutNs gap hfurther
      omega
    · omega
  · rw [hlimit]
    rcases h.anchor with ⟨hnow, -⟩ | ⟨hkept, -, hlate⟩ <;> omega

/-! ## 3. Runs -/

theorem httpSweep_anchor (nowNs : Nat) (s : Conn) :
    (httpSweep backend nowNs s).http.sweepAnchorNs = s.http.sweepAnchorNs ∨
      (httpSweep backend nowNs s).http.sweepAnchorNs = nowNs := by
  unfold httpSweep
  split
  · exact .inl rfl
  split
  · rw [teardown_outward.http]
    exact .inl rfl
  split
  · exact .inl rfl
  dsimp only
  split
  · exact .inr rfl
  · rw [expire_http]
    exact .inl rfl

theorem sweep_of_sweepNs {event : Event} {nowNs : Nat} (h : event.sweepNs = some nowNs) :
    event = .sweep nowNs := by
  cases event <;> simp only [Event.sweepNs, Option.some.injEq, reduceCtorEq] at h
  rw [h]

theorem isSweep_of_sweepNs {event : Event} (h : event.sweepNs = none) : event.isSweep = false := by
  cases event <;> first | rfl | cases h

/-- The clock of a connection is not ahead of its sweeps. -/
theorem run_anchor (a : Accepted) {t₀ : Nat} (events : List Event) (h : ∀ t ∈ sweeps events, t ≤ t₀) :
    ((connection backend a).run events).http.sweepAnchorNs ≤ t₀ := by
  revert h
  refine (connection backend a).run_induction
    (motive := fun events s => (∀ t ∈ sweeps events, t ≤ t₀) → s.http.sweepAnchorNs ≤ t₀)
    (fun _ => Nat.zero_le t₀) ?_ events
  intro events event ih h
  generalize (connection backend a).run events = s at ih ⊢
  rw [sweeps_concat] at h
  have hbefore := ih fun t ht => h t (List.mem_append_left _ ht)
  show (connStep backend s event).http.sweepAnchorNs ≤ t₀
  cases hns : event.sweepNs with
  | none =>
    have hmarks := @connStep_marks backend event (isSweep_of_sweepNs hns) s
    simp only [HttpConn.marks, Prod.mk.injEq] at hmarks
    rw [hmarks.2.2]
    exact hbefore
  | some nowNs =>
    have hnow : nowNs ≤ t₀ := h nowNs (List.mem_append_right _ (by simp [hns]))
    obtain rfl := sweep_of_sweepNs hns
    unfold connStep
    split
    · exact hbefore
    · rcases @httpSweep_anchor backend nowNs s with hkept | hset
      · exact hkept.le.trans hbefore
      · exact hset.le.trans hnow

theorem connStep_timeouts (event : Event) (hsession : s.http.Session) :
    (connStep backend s event).http.headTimeoutNs = s.http.headTimeoutNs ∧
      (connStep backend s event).http.idleTimeoutNs = s.http.idleTimeoutNs :=
  (connStep_keeps (P := fun x => x.http.headTimeoutNs = s.http.headTimeoutNs ∧
      x.http.idleTimeoutNs = s.http.idleTimeoutNs) event hsession
    (fun hmove _ hb => ⟨hmove.turn.timeouts.1.trans hb.1, hmove.turn.timeouts.2.trans hb.2⟩) id ⟨rfl, rfl⟩).2

theorem connStep_open (event : Event) (hsession : s.http.Session)
    (hopen : (connStep backend s event).shut = false) : s.shut = false := by
  rcases @connStep_moves backend s event hsession with hmoves | ⟨hmoves, -⟩
  · exact hmoves.lasting.open hopen
  · exact hmoves.lasting.open hopen

/-- What holds of the connections of a listener at any time. -/
structure Steady (a : Accepted) (s : Conn) : Prop where
  sound : Sound s
  attended : s.Attended
  headTimeoutNs : s.http.headTimeoutNs = a.headTimeoutNs
  idleTimeoutNs : s.http.idleTimeoutNs = a.idleTimeoutNs

theorem run_steady (a : Accepted) (events : List Event) : Steady a ((connection backend a).run events) := by
  refine (connection backend a).run_invariant ?_ ?_ events
  · exact ⟨@run_sound backend a [], fun hgone => absurd hgone Bool.false_ne_true, rfl, rfl⟩
  · intro s event h
    have htimeouts := @connStep_timeouts backend s event h.sound.session
    exact ⟨connStep_sound event h.sound, connStep_attended event h.sound.session h.attended,
      htimeouts.1.trans h.headTimeoutNs, htimeouts.2.trans h.idleTimeoutNs⟩

/-- Behind `pre` nothing completes, is dispatched or goes out, as long as the connection is open. -/
def Stalled (backend : Backend) (a : Accepted) (pre window : List Event) : Prop :=
  ∀ events, events <+: window → ((connection backend a).run (pre ++ events)).shut = false →
    ((connection backend a).run (pre ++ events)).Resting ∧
      ((connection backend a).run (pre ++ events)).http.parsed = ((connection backend a).run pre).http.parsed

theorem Stalled.of_concat {a : Accepted} {pre window : List Event} {event : Event}
    (h : Stalled backend a pre (window ++ [event])) : Stalled backend a pre window :=
  fun events hevents => h events (hevents.trans (List.prefix_append _ _))

/-- Until its first sweep in the window the connection has the anchor it had, and after it one that is
recent for how far it has come. -/
theorem stalled_anchored {a : Accepted} {pre window : List Event} {t₀ gap : Nat} (hhead : 0 < a.headTimeoutNs)
    (hidle : 0 < a.idleTimeoutNs) (hpre : ∀ t ∈ sweeps pre, t ≤ t₀) (hevery : Every gap t₀ (sweeps window))
    (hstalled : Stalled backend a pre window)
    (hopen : ((connection backend a).run (pre ++ window)).shut = false) :
    sweeps window = [] ∧ ((connection backend a).run (pre ++ window)).http.sweepAnchorNs ≤ t₀ ∨
      ∃ n, Anchored gap t₀ ((sweeps window).getLastD t₀) ((connection backend a).run (pre ++ window)).http n := by
  induction window using List.reverseRecOn with
  | nil =>
    left
    rw [List.append_nil]
    exact ⟨rfl, run_anchor a pre hpre⟩
  | append_singleton window event ih =>
    obtain ⟨hrest', hparsed'⟩ := hstalled _ (List.prefix_refl _) hopen
    have hbefore := hstalled window (List.prefix_append _ _)
    have ih := fun hevery => ih hevery hstalled.of_concat
    have hsteady := @run_steady backend a (pre ++ window)
    rw [← List.append_assoc, Machine.run_concat] at hopen hrest' hparsed' ⊢
    generalize (connection backend a).run (pre ++ window) = s at *
    change (connStep backend s event).shut = false at hopen
    change (connStep backend s event).http.parsed = _ at hparsed'
    show _ ∧ (connStep backend s event).http.sweepAnchorNs ≤ t₀ ∨ ∃ n, Anchored gap t₀ _
      (connStep backend s event).http n
    have hopenBefore := connStep_open event hsteady.sound.session hopen
    obtain ⟨hrest, hparsed⟩ := hbefore hopenBefore
    have hadvances := (connStep_advances event hsteady.sound hopen hrest.idle hrest.empty
      (hparsed'.trans hparsed.symm)).2
    have htimeouts := @connStep_timeouts backend s event hsteady.sound.session
    rw [sweeps_concat] at hevery ⊢
    cases hns : event.sweepNs with
    | none =>
      have hmarks := @connStep_marks backend event (isSweep_of_sweepNs hns) s
      rw [hns, Option.toList_none, List.append_nil] at hevery
      rw [Option.toList_none, List.append_nil]
      rcases ih hevery hopenBefore with ⟨hnone, hanchor⟩ | ⟨n, hanchored⟩
      · simp only [HttpConn.marks, Prod.mk.injEq] at hmarks
        exact .inl ⟨hnone, hmarks.2.2.le.trans hanchor⟩
      · exact .inr ⟨n, hanchored.advances hadvances hmarks htimeouts⟩
    | some nowNs =>
      rw [hns, Option.toList_some] at hevery
      rw [Option.toList_some]
      obtain ⟨hevery, hafter, hsoon⟩ := hevery.concat
      obtain rfl := sweep_of_sweepNs hns
      have hstep : connStep backend s (.sweep nowNs) = httpSweep backend nowNs s := by
        unfold connStep
        rw [if_neg (by simp [hrest.unpumped])]
        rfl
      rw [hstep] at hopen hadvances htimeouts ⊢
      rw [← hsteady.headTimeoutNs] at hhead
      rw [← hsteady.idleTimeoutNs] at hidle
      have hswept := httpSweep_swept hsteady.sound hsteady.attended hrest hhead hidle hopenBefore hopen
      right
      rw [List.getLastD_concat]
      refine ⟨s.http.progress, ?_⟩
      rcases ih hevery hopenBefore with ⟨hnone, hanchor⟩ | ⟨n, hanchored⟩
      · rw [hnone] at hafter hsoon
        exact hswept.first hadvances htimeouts hhead hidle hanchor hafter hsoon
      · exact hanchored.swept hswept hadvances htimeouts hhead hidle hafter hsoon

theorem progress_le (c : HttpConn) : c.progress ≤ 3 := by
  unfold HttpConn.progress
  split
  · cases c.stage <;> decide
  · exact Nat.zero_le 3

theorem reach_last (h i gap : Nat) : reach h i gap 3 = 2 * h + i + 7 * gap := by
  simp only [reach, Nat.reduceEqDiff, or_true, true_or, or_self, if_true, if_false]
  omega

/-- The deadline of the last phase. -/
theorem reach_limit {n : Nat} (c : HttpConn) (gap : Nat) (h : n ≤ 3) :
    reach c.headTimeoutNs c.idleTimeoutNs gap n + c.limit n ≤
      2 * (c.headTimeoutNs + c.idleTimeoutNs) + 7 * gap := by
  have hlast := reach_last c.headTimeoutNs c.idleTimeoutNs gap
  obtain rfl | hbefore := Nat.eq_or_lt_of_le h
  · have hlimit : c.limit 3 = c.idleTimeoutNs := if_neg (by decide)
    omega
  · have hnext : reach c.headTimeoutNs c.idleTimeoutNs gap n + c.limit n + 2 * gap ≤
        reach c.headTimeoutNs c.idleTimeoutNs gap 3 :=
      reach_mono c.headTimeoutNs c.idleTimeoutNs gap (Nat.succ_le_of_lt hbefore)
    omega

/-- A connection that only stalls is closed by the deadline of its last phase. -/
theorem stalled_shut {a : Accepted} {pre window : List Event} {t₀ gap : Nat} (hhead : 0 < a.headTimeoutNs)
    (hidle : 0 < a.idleTimeoutNs) (hpre : ∀ t ∈ sweeps pre, t ≤ t₀) (hevery : Every gap t₀ (sweeps window))
    (hstalled : Stalled backend a pre window)
    (hlong : t₀ + 2 * (a.headTimeoutNs + a.idleTimeoutNs) + 8 * gap ≤ (sweeps window).getLastD t₀ + gap) :
    ((connection backend a).run (pre ++ window)).shut = true := by
  by_contra hshut
  have hopen : ((connection backend a).run (pre ++ window)).shut = false := by simpa using hshut
  have hsteady := @run_steady backend a (pre ++ window)
  rcases stalled_anchored hhead hidle hpre hevery hstalled hopen with ⟨hnone, -⟩ | ⟨n, hanchored⟩
  · rw [hnone, List.getLastD_nil] at hlong
    omega
  · have hdeadline := reach_limit ((connection backend a).run (pre ++ window)).http gap
      (hanchored.seen.trans (progress_le _))
    have hanchor := hanchored.anchored
    have hwithin := hanchored.within
    rw [hsteady.headTimeoutNs, hsteady.idleTimeoutNs] at hdeadline hanchor
    omega

/-! ## 4. A connection with work -/

/-- A request is dispatched or queued, or bytes wait to be sent. -/
def Conn.Owing (s : Conn) : Prop :=
  s.http.active = true ∨ s.http.pending ≠ [] ∨ ∃ entry ∈ s.net.entry, entry.wq ≠ []

/-- It lingers behind its FIN, longer than its peer had to finish. -/
def Conn.Overdue (nowNs : Nat) (s : Conn) : Prop :=
  ∃ entry ∈ s.net.entry, entry.lingering ∧ entry.lingerUntilNs ≠ 0 ∧ entry.lingerUntilNs ≤ nowNs

/-- Nothing changes but what the sweep remembers. -/
def Spared (s s' : Conn) : Prop :=
  ∃ phase seen anchor,
    s' = { s with http := { s.http with sweepPhase := phase, sweepSeen := seen, sweepAnchorNs := anchor } }

theorem sweepPhase_owing {entry : TransportEntry} (he : s.net.entry = some entry) (howing : s.Owing)
    (hhere : s.http.disconnected = false) : sweepPhase entry s.http = .busy := by
  have hbusy : httpConnBusy entry s.http = true := by
    unfold httpConnBusy
    rcases howing with hactive | hqueued | ⟨entry', he', hunsent⟩
    · simp [hactive]
    · simp [hqueued]
    · obtain rfl : entry = entry' := Option.some.inj (he.symm.trans he')
      simp [hunsent]
  unfold sweepPhase
  rw [if_neg (by simp [hhere]), if_pos hbusy]

theorem httpSweep_spares {nowNs : Nat} (howing : s.Owing) (hhere : s.http.disconnected = false)
    (hlinger : ¬ s.Overdue nowNs) : Spared s (httpSweep backend nowNs s) := by
  have hrefl : Spared s s := ⟨s.http.sweepPhase, s.http.sweepSeen, s.http.sweepAnchorNs, rfl⟩
  unfold httpSweep
  split
  · exact hrefl
  · rename_i entry he
    rw [if_neg fun hdue => hlinger ⟨entry, he, hdue⟩]
    split
    · exact hrefl
    · rw [sweepPhase_owing he howing hhere]
      dsimp only
      rw [if_pos (.inr (.inr (.inl rfl)))]
      exact ⟨.busy, s.http.activity, nowNs, rfl⟩

theorem sweep_spares {nowNs : Nat} (howing : s.Owing) (hhere : s.http.disconnected = false)
    (hlinger : ¬ s.Overdue nowNs) : Spared s (connStep backend s (.sweep nowNs)) := by
  unfold connStep
  split
  · exact ⟨s.http.sweepPhase, s.http.sweepSeen, s.http.sweepAnchorNs, rfl⟩
  · exact httpSweep_spares howing hhere hlinger

/-- However slowly its peer sends, a connection on which nothing completes is torn down or marked to
close; and a sweep leaves one alone that has work to do, unless its peer has gone or it lingers past its
deadline. -/
theorem slow_peers_closed (backend : Backend) (a : Accepted) :
    (∀ pre window t₀ gap, 0 < a.headTimeoutNs → 0 < a.idleTimeoutNs → (∀ t ∈ sweeps pre, t ≤ t₀) →
      Every gap t₀ (sweeps window) → Stalled backend a pre window →
      -- the next sweep would come too late
      t₀ + 2 * (a.headTimeoutNs + a.idleTimeoutNs) + 8 * gap ≤ (sweeps window).getLastD t₀ + gap →
      ((connection backend a).run (pre ++ window)).shut = true) ∧
    ∀ events nowNs, ((connection backend a).run events).Owing →
      ((connection backend a).run events).http.disconnected = false →
      ¬ ((connection backend a).run events).Overdue nowNs →
      Spared ((connection backend a).run events)
        (connStep backend ((connection backend a).run events) (.sweep nowNs)) :=
  ⟨fun _ _ _ _ hhead hidle hpre hevery hstalled hlong =>
      stalled_shut hhead hidle hpre hevery hstalled hlong,
    fun _ _ howing hhere hlinger => sweep_spares howing hhere hlinger⟩

/-- A plaintext listener with the least deadlines. -/
def impatient : Accepted := { listener false with headTimeoutNs := 1, idleTimeoutNs := 1 }

/-- A blank line, and then nothing. -/
def blankLine : List Event :=
  .recvDone (.bytes ⟨[13, 10], ⟨[], (0, 0), .ok⟩, [], false⟩) true :: (List.range' 1 11).map .sweep

def getRequest : Chunk where
  data := ascii "GET / HTTP/1.1\r\nHost: a\r\n\r\n"
  run := ⟨[.messageBegin, .url (ascii "/"), .headerField (ascii "Host"), .headerValue (ascii "a"),
    .headersComplete ⟨"GET", 1, 1, false, true⟩, .messageComplete ⟨"GET", 1, 1, false, true⟩], (1, 1), .ok⟩
  frames := []
  ended := false

/-- The blank line does not keep its connection; a request in the queue keeps it. -/
theorem slow_peers_closed_blank_line :
    ((connection Net.Backend.taking impatient).run blankLine).shut = true ∧
      Spared ((connection Net.Backend.taking impatient).run [.recvDone (.bytes getRequest) true])
        (connStep Net.Backend.taking
          ((connection Net.Backend.taking impatient).run [.recvDone (.bytes getRequest) true]) (.sweep 9)) := by
  constructor
  · refine (slow_peers_closed Net.Backend.taking impatient).1 [] blankLine 0 1 (by decide) (by decide)
      (by simp [sweeps]) ?_ ?_ (by decide)
    · have htimes : sweeps blankLine = List.range' 1 11 := by decide
      rw [htimes]
      simp [Every, List.range']
    · intro events hevents
      have hall : ∀ events ∈ blankLine.inits,
          ((connection Net.Backend.taking impatient).run ([] ++ events)).shut = false →
          ((connection Net.Backend.taking impatient).run ([] ++ events)).Resting ∧
            ((connection Net.Backend.taking impatient).run ([] ++ events)).http.parsed =
              ((connection Net.Backend.taking impatient).run []).http.parsed := by decide
      exact hall events ((List.mem_inits events blankLine).mpr hevents)
  · refine (slow_peers_closed Net.Backend.taking impatient).2 _ 9 (.inr (.inl (by decide))) (by decide) ?_
    rintro ⟨entry, he, hlinger, -⟩
    have hnone : ∀ entry ∈ ((connection Net.Backend.taking impatient).run
        [.recvDone (.bytes getRequest) true]).net.entry, entry.lingering = false := by decide
    simp [hnone entry he] at hlinger

/-- The application raises before its response, and the connection sends a 500 and its FIN. -/
def raises : List Event :=
  [.recvDone (.bytes getRequest) true, .pump, .stepped .raised true, .flushCorked, .sendDone]

/-- Its peer does not finish, and the sweep past the deadline tears it down, the request dispatched still. -/
theorem lingering_request_closed :
    let s := (connection Net.Backend.taking impatient).run raises
    s.http.active = true ∧ s.http.disconnected = false ∧ s.net.entry.isSome ∧
      (connStep Net.Backend.taking s (.sweep Net.lingerNs)).net.entry = none := by
  decide +kernel

end Cadeloop.Pyshim.Pipeline
