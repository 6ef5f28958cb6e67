import Cadeloop.Pyshim.HandlesQueues

/-!
# A callback is pushed once, and called once

What the steps do to the handles, and what is kept of those that are dispatched once.
-/

namespace Cadeloop.Pyshim.Handles

open Cadeloop.Reasoning
open Cadeloop.Core.Timer (TimerHeap)

variable {s s' : CoreLoop}

/-! ## 1. Releases -/

theorem refs_release (s : CoreLoop) (h h' : HandleRef) :
    (s.release h).refs h' = (!decide (h' = h) && s.refs h') := by
  unfold CoreLoop.release CoreLoop.refs
  dsimp only
  rw [List.getElem?_modify]
  cases s.handles[h']? with
  | none => exact (Bool.and_false _).symm
  | some x => by_cases heq : h = h' <;> simp [heq, Ne.symm]

theorem persistent_release (s : CoreLoop) (h h' : HandleRef) :
    (s.release h).persistent h' = s.persistent h' := by
  unfold CoreLoop.release CoreLoop.persistent
  dsimp only
  rw [List.getElem?_modify]
  cases s.handles[h']? with
  | none => rfl
  | some x => by_cases heq : h = h' <;> simp [heq]

theorem refs_doCancel (s : CoreLoop) (h h' : HandleRef) : (s.doCancel h).refs h' = s.refs h' := rfl

/-- The handles of a list are cancelled and released, and nothing else changes. -/
structure Retires (s s' : CoreLoop) (hs : List HandleRef) : Prop where
  length : s'.handles.length = s.handles.length
  persistent : ∀ h, s'.persistent h = s.persistent h
  refs : ∀ h, s'.refs h = (!decide (h ∈ hs) && s.refs h)
  cancelled : ∀ h, s'.tick.cancelled h = (decide (h ∈ hs) || s.tick.cancelled h)
  same : s' = { s with
    handles := s'.handles
    tick := { s.tick with cancelled := s'.tick.cancelled } }

theorem foldl_retires (hs : List HandleRef) (s : CoreLoop) :
    Retires s (hs.foldl (fun s h => (s.doCancel h).release h) s) hs := by
  induction hs generalizing s with
  | nil => exact ⟨rfl, fun _ => rfl, fun h => by simp, fun h => by simp, rfl⟩
  | cons h hs ih =>
    have hr := ih ((s.doCancel h).release h)
    refine ⟨hr.length.trans (List.length_modify ..), fun h' => ?_, fun h' => ?_, fun h' => ?_, hr.same⟩
    · exact (hr.persistent h').trans (persistent_release (s.doCancel h) h h')
    · refine (hr.refs h').trans ?_
      rw [refs_release, refs_doCancel]
      by_cases heq : h' = h <;> by_cases hmem : h' ∈ hs <;> simp [heq, hmem]
    · refine (hr.cancelled h').trans ?_
      show (_ || (decide (h' = h) || s.tick.cancelled h')) = _
      by_cases heq : h' = h <;> by_cases hmem : h' ∈ hs <;> simp [heq, hmem]

/-- The handles of a list are released, and nothing else changes. -/
structure Releases (s s' : CoreLoop) (hs : List HandleRef) : Prop where
  refs : ∀ h, s'.refs h = (!decide (h ∈ hs) && s.refs h)
  persistent : ∀ h, s'.persistent h = s.persistent h
  same : s' = { s with handles := s'.handles }

theorem foldl_releases (hs : List HandleRef) (s : CoreLoop) :
    Releases s (hs.foldl (fun s h => s.release h) s) hs := by
  induction hs generalizing s with
  | nil => exact ⟨fun h => by simp, fun _ => rfl, rfl⟩
  | cons h hs ih =>
    have hr := ih (s.release h)
    refine ⟨fun h' => ?_, fun h' => ?_, hr.same⟩
    · refine (hr.refs h').trans ?_
      rw [refs_release]
      by_cases heq : h' = h <;> by_cases hmem : h' ∈ hs <;> simp [heq, hmem]
    · exact (hr.persistent h').trans (persistent_release s h h')

theorem refs_make (s : CoreLoop) (persistent : Bool) (h : HandleRef) :
    (s.make persistent).2.refs h = (decide (h = s.handles.length) || s.refs h) := by
  show ((s.handles ++ [(⟨true, persistent⟩ : Handle)])[h]?).any Handle.refs = _
  unfold CoreLoop.refs
  rcases Nat.lt_trichotomy h s.handles.length with hlt | heq | hgt
  · rw [List.getElem?_append_left hlt, decide_eq_false (Nat.ne_of_lt hlt), Bool.false_or]
  · rw [heq, List.getElem?_concat_length, decide_eq_true rfl, Bool.true_or]
    rfl
  · have hout : s.handles.length + 1 ≤ h := hgt
    rw [List.getElem?_eq_none (by rw [List.length_append]; exact hout),
      List.getElem?_eq_none (Nat.le_of_lt hgt), decide_eq_false (Nat.ne_of_gt hgt)]
    rfl

theorem persistent_make (s : CoreLoop) (persistent : Bool) (h : HandleRef) :
    (s.make persistent).2.persistent h =
      (decide (h = s.handles.length) && persistent || s.persistent h) := by
  show ((s.handles ++ [(⟨true, persistent⟩ : Handle)])[h]?).any Handle.persistent = _
  unfold CoreLoop.persistent
  rcases Nat.lt_trichotomy h s.handles.length with hlt | heq | hgt
  · rw [List.getElem?_append_left hlt, decide_eq_false (Nat.ne_of_lt hlt)]
    rfl
  · rw [heq, List.getElem?_concat_length, decide_eq_true rfl, List.getElem?_eq_none (Nat.le_refl _)]
    simp
  · have hout : s.handles.length + 1 ≤ h := hgt
    rw [List.getElem?_eq_none (by rw [List.length_append]; exact hout),
      List.getElem?_eq_none (Nat.le_of_lt hgt), decide_eq_false (Nat.ne_of_gt hgt)]
    rfl

theorem lt_of_refs {h : HandleRef} (hrefs : s.refs h = true) : h < s.handles.length := by
  by_contra hout
  unfold CoreLoop.refs at hrefs
  rw [List.getElem?_eq_none (Nat.le_of_not_lt hout)] at hrefs
  cases hrefs

theorem lt_of_persistent {h : HandleRef} (hp : s.persistent h = true) : h < s.handles.length := by
  by_contra hout
  unfold CoreLoop.persistent at hp
  rw [List.getElem?_eq_none (Nat.le_of_not_lt hout)] at hp
  cases hp

/-! ## 2. Callbacks -/

/-- The handles whose dispatch began. -/
def CoreLoop.dispatched (s : CoreLoop) : List HandleRef := s.tick.ran ++ s.tick.ranTimers

/-- Where a callback can be that the loop has yet to call. -/
def CoreLoop.waiting (s : CoreLoop) : List HandleRef :=
  s.tick.batch ++ s.tick.reactor.ready ++ s.tick.reactor.expired ++ s.tick.reactor.timers.payloads ++
    s.tick.reactor.xthread.queue ++ s.tick.reactor.xthread.timers.map Prod.snd

/-- What is kept of a handle of `call_soon` or `call_later`. -/
structure OneShot (s : CoreLoop) (h : HandleRef) : Prop where
  once : s.tick.pushed.count h = 1
  waits : s.tick.cancelled h = false → h ∉ s.dispatched → s.refs h = true
  ended : h ∈ s.dispatched → s.running = some h ∨ s.refs h = false
  calls : s.calls.count h ≤ s.dispatched.count h
  called : h ∈ s.dispatched → s.tick.cancelled h = true ∨ h ∈ s.calls

structure Calls (s : CoreLoop) : Prop where
  queues : Queues s.tick
  known : ∀ h ∈ s.tick.pushed, h < s.handles.length
  flagged : ∀ h, s.tick.cancelled h = true → h < s.handles.length ∧ s.refs h = false
  oneShot : ∀ h < s.handles.length, s.persistent h = false → OneShot s h
  called : ∀ h ∈ s.calls, h ∈ s.dispatched
  running : ∀ h, s.running = some h → h ∈ s.dispatched

namespace Calls

theorem new : Calls .new where
  queues :=
    ⟨⟨List.Perm.refl _, rfl, rfl, rfl, ⟨fun _ => rfl, fun _ => ⟨rfl, List.prefix_refl _⟩,
      fun _ => rfl, (fun hp => by cases hp), (fun hp => by cases hp)⟩⟩,
      (fun h hh => by cases hh), (fun h hh => by cases hh), fun _ => ⟨rfl, rfl⟩⟩
  known h hh := by cases hh
  flagged h hh := by cases hh
  oneShot h hlt := absurd hlt (Nat.not_lt_zero h)
  called h hh := by cases hh
  running h hh := by cases hh

/-- Every token pushed is dispatched, waits, or was buried. -/
theorem count_places (hc : Calls s) (h : HandleRef) :
    s.tick.pushed.count h = s.dispatched.count h + s.waiting.count h +
      (s.tick.discarded.count h + s.tick.reactor.timers.graveyard.count h) := by
  have hcount := hc.queues.kept.held.count_eq h
  simp only [Core.Tick.Loop.places, CoreLoop.dispatched, CoreLoop.waiting, List.count_append]
    at hcount ⊢
  omega

theorem lt_of_dispatched (hc : Calls s) {h : HandleRef} (hd : h ∈ s.dispatched) :
    h < s.handles.length := by
  refine hc.known h (List.count_pos_iff.mp ?_)
  have hpos := List.count_pos_iff.mpr hd
  rw [hc.count_places h]
  omega

/-- What the queues and the handles are not part of may change. -/
theorem frame (hc : Calls s) (tick : s'.tick = s.tick) (handles : s'.handles = s.handles)
    (running : s'.running = s.running) (calls : s'.calls = s.calls) : Calls s' := by
  obtain ⟨queues, known, flagged, oneShot, called, hrunning⟩ := hc
  cases s
  cases s'
  subst tick handles running calls
  exact ⟨queues, known, flagged, fun h hlt hp =>
    ⟨(oneShot h hlt hp).1, (oneShot h hlt hp).2, (oneShot h hlt hp).3, (oneShot h hlt hp).4,
      (oneShot h hlt hp).5⟩, called, hrunning⟩

/-- The tick goes on. -/
theorem ticks (hc : Calls s) {l : Core.Tick.Loop HandleRef} (hq : Queues l) (hsame : Same s.tick l) :
    Calls { s with tick := l } := by
  have hdispatched : ({ s with tick := l } : CoreLoop).dispatched = s.dispatched := by
    show l.ran ++ l.ranTimers = _
    rw [hsame.ran, hsame.ranTimers]
    rfl
  refine ⟨hq, fun h hh => hc.known h (hsame.pushed ▸ hh), fun h hh => hc.flagged h (hsame.cancelled ▸ hh),
    fun h hlt hp => ?_, fun h hh => hdispatched ▸ hc.called h hh, fun h hh => hdispatched ▸ hc.running h hh⟩
  have hone := hc.oneShot h hlt hp
  refine ⟨hsame.pushed ▸ hone.once, fun hflag hd => ?_, fun hd => ?_, ?_, fun hd => ?_⟩
  · rw [hdispatched] at hd
    exact hone.waits (hsame.cancelled ▸ hflag) hd
  · rw [hdispatched] at hd
    exact hone.ended hd
  · rw [hdispatched]
    exact hone.calls
  · rw [hdispatched] at hd
    exact (hone.called hd).imp_left fun hflag => hsame.cancelled ▸ hflag

/-- A handle is made for one callback, and scheduled. -/
theorem schedule (hc : Calls s) {l : Core.Tick.Loop HandleRef}
    (hp : Pushes s.tick l s.handles.length) : Calls { (s.make false).2 with tick := l } := by
  have hdispatched : ({ (s.make false).2 with tick := l } : CoreLoop).dispatched = s.dispatched := by
    show l.ran ++ l.ranTimers = _
    rw [hp.ran, hp.ranTimers]
    rfl
  have hlength : ({ (s.make false).2 with tick := l } : CoreLoop).handles.length =
      s.handles.length + 1 := List.length_append
  have hrefs : ∀ h, ({ (s.make false).2 with tick := l } : CoreLoop).refs h =
      (decide (h = s.handles.length) || s.refs h) := refs_make s false
  have hpersistent : ∀ h, ({ (s.make false).2 with tick := l } : CoreLoop).persistent h =
      s.persistent h := by
    intro h
    refine (persistent_make s false h).trans ?_
    rw [Bool.and_false, Bool.false_or]
  have hold : ∀ h < s.handles.length, ({ (s.make false).2 with tick := l } : CoreLoop).refs h =
      s.refs h := by
    intro h hlt
    rw [hrefs, decide_eq_false (Nat.ne_of_lt hlt), Bool.false_or]
  refine ⟨hp.queues, fun h hh => ?_, fun h hh => ?_, fun h hlt hh => ?_,
    fun h hh => hdispatched ▸ hc.called h hh, fun h hh => hdispatched ▸ hc.running h hh⟩
  · have hh : h ∈ l.pushed := hh
    rw [hp.pushed] at hh
    rw [hlength]
    rcases List.mem_append.mp hh with hh | hh
    · exact Nat.lt_succ_of_lt (hc.known h hh)
    · rw [List.mem_singleton.mp hh]
      exact Nat.lt_succ_self _
  · have hh : l.cancelled h = true := hh
    rw [hp.cancelled] at hh
    obtain ⟨hlt, hr⟩ := hc.flagged h hh
    rw [hlength, hold h hlt]
    exact ⟨Nat.lt_succ_of_lt hlt, hr⟩
  · rw [hpersistent] at hh
    by_cases hnew : h = s.handles.length
    · have hfresh : s.tick.pushed.count h = 0 :=
        List.count_eq_zero.mpr fun hmem => Nat.ne_of_lt (hc.known h hmem) hnew
      have hout : h ∉ s.dispatched := fun hd => Nat.ne_of_lt (hc.lt_of_dispatched hd) hnew
      refine ⟨?_, fun _ _ => ?_, fun hd => ?_, ?_, fun hd => ?_⟩
      · show l.pushed.count h = 1
        rw [hp.pushed, List.count_append, hfresh, hnew, List.count_singleton_self]
      · rw [hrefs, hnew, decide_eq_true rfl, Bool.true_or]
      · exact absurd (hdispatched ▸ hd) hout
      · show s.calls.count h ≤ _
        rw [List.count_eq_zero.mpr fun hcall => hout (hc.called h hcall)]
        exact Nat.zero_le _
      · exact absurd (hdispatched ▸ hd) hout
    · have hlt : h < s.handles.length := by
        rw [hlength] at hlt
        exact Nat.lt_of_le_of_ne (Nat.le_of_lt_succ hlt) hnew
      have hone := hc.oneShot h hlt hh
      refine ⟨?_, fun hflag hd => ?_, fun hd => ?_, ?_, fun hd => ?_⟩
      · show l.pushed.count h = 1
        rw [hp.pushed, List.count_append, hone.once, List.count_singleton]
        simp [Ne.symm hnew]
      · rw [hdispatched] at hd
        rw [hold h hlt]
        exact hone.waits (hp.cancelled ▸ hflag) hd
      · rw [hdispatched] at hd
        rw [hold h hlt]
        exact hone.ended hd
      · rw [hdispatched]
        exact hone.calls
      · rw [hdispatched] at hd
        exact (hone.called hd).imp_left fun hflag => hp.cancelled ▸ hflag

/-- A handle is made for a watch. -/
theorem make_watch (hc : Calls s) : Calls (s.make true).2 := by
  have hlength : (s.make true).2.handles.length = s.handles.length + 1 := List.length_append
  have hold : ∀ h < s.handles.length, (s.make true).2.refs h = s.refs h := by
    intro h hlt
    rw [refs_make, decide_eq_false (Nat.ne_of_lt hlt), Bool.false_or]
  refine ⟨hc.queues, fun h hh => ?_, fun h hh => ?_, fun h hlt hh => ?_, hc.called, hc.running⟩
  · rw [hlength]
    exact Nat.lt_succ_of_lt (hc.known h hh)
  · obtain ⟨hlt, hr⟩ := hc.flagged h hh
    rw [hlength, hold h hlt]
    exact ⟨Nat.lt_succ_of_lt hlt, hr⟩
  · rw [persistent_make, Bool.and_true, Bool.or_eq_false_iff] at hh
    have hne : h ≠ s.handles.length := of_decide_eq_false hh.1
    have hlt : h < s.handles.length := by
      rw [hlength] at hlt
      exact Nat.lt_of_le_of_ne (Nat.le_of_lt_succ hlt) hne
    have hone := hc.oneShot h hlt hh.2
    refine ⟨hone.once, fun hflag hd => ?_, fun hd => ?_, hone.calls, hone.called⟩
    · rw [hold h hlt]
      exact hone.waits hflag hd
    · rw [hold h hlt]
      exact hone.ended hd

/-- A watch that fired is pushed. -/
theorem push_watch (hc : Calls s) {token : HandleRef} (hwatch : s.persistent token = true)
    {l : Core.Tick.Loop HandleRef} (hp : Pushes s.tick l token) : Calls { s with tick := l } := by
  have hdispatched : ({ s with tick := l } : CoreLoop).dispatched = s.dispatched := by
    show l.ran ++ l.ranTimers = _
    rw [hp.ran, hp.ranTimers]
    rfl
  refine ⟨hp.queues, fun h hh => ?_, fun h hh => hc.flagged h (hp.cancelled ▸ hh),
    fun h hlt hh => ?_, fun h hh => hdispatched ▸ hc.called h hh, fun h hh => hdispatched ▸ hc.running h hh⟩
  · have hh : h ∈ l.pushed := hh
    rw [hp.pushed] at hh
    rcases List.mem_append.mp hh with hh | hh
    · exact hc.known h hh
    · rw [List.mem_singleton.mp hh]
      exact lt_of_persistent hwatch
  · have hne : token ≠ h := by
      rintro rfl
      exact Bool.false_ne_true (hh.symm.trans hwatch)
    have hone := hc.oneShot h hlt hh
    refine ⟨?_, fun hflag hd => ?_, fun hd => ?_, ?_, fun hd => ?_⟩
    · show l.pushed.count h = 1
      rw [hp.pushed, List.count_append, hone.once, List.count_singleton]
      simp [hne]
    · rw [hdispatched] at hd
      exact hone.waits (hp.cancelled ▸ hflag) hd
    · rw [hdispatched] at hd
      exact hone.ended hd
    · rw [hdispatched]
      exact hone.calls
    · rw [hdispatched] at hd
      exact (hone.called hd).imp_left fun hflag => hp.cancelled ▸ hflag

theorem retire (hc : Calls s) {hs : List HandleRef} (hr : Retires s s' hs)
    (hlt : ∀ h ∈ hs, h < s.handles.length) : Calls s' := by
  have htick : s'.tick = { s.tick with cancelled := s'.tick.cancelled } := congrArg CoreLoop.tick hr.same
  have hpushed : s'.tick.pushed = s.tick.pushed := by rw [htick]
  have hdispatched : s'.dispatched = s.dispatched := by
    unfold CoreLoop.dispatched
    rw [htick]
  have hrunning : s'.running = s.running := by rw [hr.same]
  have hcalls : s'.calls = s.calls := by rw [hr.same]
  have hmore : ∀ h, s.tick.cancelled h = true → s'.tick.cancelled h = true := by
    intro h hh
    rw [hr.cancelled, hh, Bool.or_true]
  refine ⟨?_, fun h hh => ?_, fun h hh => ?_, fun h hl hh => ?_, fun h hh => ?_, fun h hh => ?_⟩
  · rw [htick]
    exact hc.queues.flag hmore
  · rw [hr.length]
    exact hc.known h (hpushed ▸ hh)
  · rw [hr.cancelled, Bool.or_eq_true, decide_eq_true_eq] at hh
    rw [hr.length, hr.refs]
    rcases hh with hh | hh
    · rw [decide_eq_true hh]
      exact ⟨hlt h hh, rfl⟩
    · obtain ⟨hl, hrefs⟩ := hc.flagged h hh
      rw [hrefs, Bool.and_false]
      exact ⟨hl, rfl⟩
  · rw [hr.length] at hl
    have hone := hc.oneShot h hl ((hr.persistent h).symm.trans hh)
    refine ⟨hpushed ▸ hone.once, fun hflag hd => ?_, fun hd => ?_, ?_, fun hd => ?_⟩
    · rw [hr.cancelled, Bool.or_eq_false_iff] at hflag
      rw [hr.refs, hflag.1]
      exact hone.waits hflag.2 (hdispatched ▸ hd)
    · rw [hr.refs, hrunning]
      refine (hone.ended (hdispatched ▸ hd)).imp_right fun hrefs => ?_
      rw [hrefs, Bool.and_false]
    · rw [hcalls, hdispatched]
      exact hone.calls
    · rw [hcalls]
      exact (hone.called (hdispatched ▸ hd)).imp_left (hmore h)
  · rw [hdispatched]
    exact hc.called h (hcalls ▸ hh)
  · rw [hdispatched]
    exact hc.running h (hrunning ▸ hh)

theorem count_calls_le (hc : Calls s) {h : HandleRef} (honce : s.persistent h = false) :
    s.calls.count h ≤ 1 := by
  by_cases hlt : h < s.handles.length
  · have hone := hc.oneShot h hlt honce
    have hplaces := hc.count_places h
    have hcalls := hone.calls
    rw [hone.once] at hplaces
    omega
  · rw [List.count_eq_zero.mpr fun hin => hlt (hc.lt_of_dispatched (hc.called h hin))]
    exact Nat.zero_le 1

/-- A callback the loop has yet to let go of waits, or is being called. -/
theorem held (hc : Calls s) {h : HandleRef} (hrefs : s.refs h = true) (honce : s.persistent h = false) :
    h ∈ s.waiting ∨ s.running = some h := by
  have hone := hc.oneShot h (lt_of_refs hrefs) honce
  have hlive : s.tick.cancelled h ≠ true := fun hflag => by
    rw [(hc.flagged h hflag).2] at hrefs
    cases hrefs
  by_cases hd : h ∈ s.dispatched
  · refine .inr ((hone.ended hd).resolve_right fun hfree => ?_)
    rw [hfree] at hrefs
    cases hrefs
  · have hplaces := hc.count_places h
    rw [hone.once, List.count_eq_zero.mpr hd,
      List.count_eq_zero.mpr fun hin => hlive (hc.queues.discarded h hin),
      List.count_eq_zero.mpr fun hin => hlive (hc.queues.dead h hin)] at hplaces
    exact .inl (List.count_pos_iff.mp (by omega))

theorem dispatch (hc : Calls s) {h : HandleRef} {batch : List HandleRef} {l : Core.Tick.Loop HandleRef}
    (hidle : s.running = none) (hbatch : s.tick.batch = h :: batch)
    (hstep : s.tick.step .dispatch = some l) :
    Calls { s with
      tick := l
      running := some h
      calls := if ¬s.tick.cancelled h ∧ s.refs h then s.calls ++ [h] else s.calls } := by
  have hd := hc.queues.dispatch hbatch hstep
  set s' : CoreLoop := { s with
    tick := l
    running := some h
    calls := if ¬s.tick.cancelled h ∧ s.refs h then s.calls ++ [h] else s.calls } with hs'
  have hcount : ∀ x, s'.dispatched.count x = s.dispatched.count x + [h].count x := hd.ran
  have hmore : ∀ x ∈ s.dispatched, x ∈ s'.dispatched := by
    intro x hx
    have hpos := List.count_pos_iff.mpr hx
    have heq := hcount x
    exact List.count_pos_iff.mp (by omega)
  have hnow : h ∈ s'.dispatched := by
    have heq := hcount h
    rw [List.count_singleton_self] at heq
    exact List.count_pos_iff.mp (by omega)
  have hcalls : ∀ x ≠ h, s'.calls.count x = s.calls.count x := by
    intro x hne
    show (if ¬s.tick.cancelled h ∧ s.refs h then s.calls ++ [h] else s.calls).count x = _
    split
    · rw [List.count_append, List.count_singleton, if_neg (by simpa using Ne.symm hne), Nat.add_zero]
    · rfl
  refine ⟨hd.queues, fun x hx => hc.known x (hd.pushed ▸ hx), fun x hx => hc.flagged x (hd.cancelled ▸ hx),
    fun x hlt hp => ?_, fun x hx => ?_, fun x hx => ?_⟩
  · have hone := hc.oneShot x hlt hp
    by_cases hx : x = h
    · subst hx
      -- it was in the batch, and is pushed only once
      have hplaces := hc.count_places x
      have hwaits : 0 < s.waiting.count x := by
        refine List.count_pos_iff.mpr ?_
        simp [CoreLoop.waiting, hbatch]
      rw [hone.once] at hplaces
      have hfresh : s.dispatched.count x = 0 := by omega
      have hcalls₀ := hone.calls
      refine ⟨hd.pushed ▸ hone.once, fun _ hout => absurd hnow hout, fun _ => .inl rfl, ?_, fun _ => ?_⟩
      · rw [hcount, List.count_singleton_self]
        show (if ¬s.tick.cancelled x ∧ s.refs x then s.calls ++ [x] else s.calls).count x ≤ _
        split
        · rw [List.count_append, List.count_singleton_self]
          omega
        · omega
      · show l.cancelled x = true ∨ x ∈ if ¬s.tick.cancelled x ∧ s.refs x then s.calls ++ [x] else s.calls
        rw [hd.cancelled]
        cases hflag : s.tick.cancelled x with
        | true => exact .inl rfl
        | false =>
          have hrefs := hone.waits hflag (List.count_eq_zero.mp hfresh)
          rw [if_pos ⟨by decide, hrefs⟩]
          exact .inr (List.mem_append_right _ (List.mem_singleton_self x))
    · have heq : s'.dispatched.count x = s.dispatched.count x := by
        rw [hcount, List.count_singleton, if_neg (by simpa using Ne.symm hx), Nat.add_zero]
      have hiff : x ∈ s'.dispatched ↔ x ∈ s.dispatched := by
        rw [← List.count_pos_iff, heq, List.count_pos_iff]
      refine ⟨hd.pushed ▸ hone.once, fun hflag hout => ?_, fun hin => ?_, ?_, fun hin => ?_⟩
      · exact hone.waits (hd.cancelled ▸ hflag) fun hin => hout (hmore x hin)
      · refine .inr ((hone.ended (hiff.mp hin)).resolve_left fun hrun => ?_)
        rw [hidle] at hrun
        cases hrun
      · rw [hcalls x hx, heq]
        exact hone.calls
      · refine (hone.called (hiff.mp hin)).imp (fun hflag => hd.cancelled ▸ hflag) fun hcall => ?_
        rw [← List.count_pos_iff, hcalls x hx]
        exact List.count_pos_iff.mpr hcall
  · by_cases heq : x = h
    · exact heq ▸ hnow
    · refine hmore x (hc.called x (List.count_pos_iff.mp ?_))
      rw [← hcalls x heq]
      exact List.count_pos_iff.mpr hx
  · injection hx with hx
    exact hx ▸ hnow

theorem returned (hc : Calls s) {h : HandleRef} (hrun : s.running = some h) :
    Calls { s.releaseAfterDispatch h with running := none } := by
  have hin := hc.running h hrun
  unfold CoreLoop.releaseAfterDispatch
  by_cases hp : s.persistent h
  · rw [if_pos hp]
    refine ⟨hc.queues, hc.known, hc.flagged, fun x hlt hx => ?_, hc.called, fun x hx => by cases hx⟩
    have hone := hc.oneShot x hlt hx
    refine ⟨hone.once, hone.waits, fun hd => .inr ((hone.ended hd).resolve_left fun hx' => ?_), hone.calls,
      hone.called⟩
    rw [hrun] at hx'
    injection hx' with hx'
    exact Bool.false_ne_true (hx.symm.trans (hx' ▸ hp))
  · rw [if_neg hp]
    have hlength : (s.release h).handles.length = s.handles.length := List.length_modify ..
    refine ⟨hc.queues, fun x hx => hlength ▸ hc.known x hx, fun x hx => ?_, fun x hlt hx => ?_, hc.called,
      fun x hx => by cases hx⟩
    · obtain ⟨hlt, hrefs⟩ := hc.flagged x hx
      refine ⟨hlength ▸ hlt, (refs_release s h x).trans ?_⟩
      rw [hrefs, Bool.and_false]
    · have hone := hc.oneShot x (hlength ▸ hlt) ((persistent_release s h x).symm.trans hx)
      refine ⟨hone.once, fun hflag hd => (refs_release s h x).trans ?_, fun hd => .inr ?_, hone.calls,
        hone.called⟩
      · have hne : x ≠ h := fun heq => hd (heq ▸ hin)
        rw [decide_eq_false hne, hone.waits hflag hd]
        rfl
      · refine (refs_release s h x).trans ?_
        rcases hone.ended hd with hx' | hrefs
        · rw [hrun] at hx'
          injection hx' with hx'
          rw [hx', decide_eq_true rfl]
          rfl
        · rw [hrefs, Bool.and_false]

end Calls

end Cadeloop.Pyshim.Handles
