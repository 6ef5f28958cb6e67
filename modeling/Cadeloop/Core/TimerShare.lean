import Cadeloop.Core.TimerRuns

/-!
# The share of cancelled timers in the heap

A cancellation is counted when it is made and reported later, alone or with others, through
`note_cancelled`; by then the payload may have left the heap.  The tombstone counter is lowered for
every tombstone removed, reported or not, stays at zero, and is reset by a compaction; still it
never falls behind: with the cancellations that are yet to be reported it covers those in the heap.
-/

namespace Cadeloop.Core.Timer

open Cadeloop.Reasoning

variable {T : Type*}

/-! ## 1. Runs that report what they cancel -/

/-- The timers, how many cancellations were made, and how many of them were reported. -/
structure Reports (T : Type*) where
  timers : Timers T
  made : Nat
  reported : Nat

def Reports.new : Reports T := { timers := .new, made := 0, reported := 0 }

def Reports.unreported (s : Reports T) : Nat := s.made - s.reported

/-- The cancelled payloads in the heap. -/
def TimerHeap.dead (cancelled : T → Bool) (h : TimerHeap T) : Nat := h.payloads.countP cancelled

def Reports.dead (s : Reports T) : Nat := s.timers.heap.dead s.timers.cancelled

/-- A payload is scheduled once at a time and not after it was cancelled, it is cancelled once and
while it is scheduled, and no more is reported than was cancelled. -/
def Legal (s : Reports T) : Op T → Prop
  | .schedule _ payload =>
    payload ∉ s.timers.heap.payloads ∧ s.timers.cancelled payload = false
  | .cancel payload => payload ∈ s.timers.heap.payloads ∧ s.timers.cancelled payload = false
  | .noteCancelled n => s.reported + n ≤ s.made
  | _ => True

section Runs

variable [DecidableEq T]

def Reports.step (s : Reports T) (op : Op T) : Reports T :=
  { timers := s.timers.step op
    made := match op with
      | .cancel _ => s.made + 1
      | _ => s.made
    reported := match op with
      | .noteCancelled n => s.reported + n
      | _ => s.reported }

def reports : Machine (Reports T) (Op T) := ⟨.new, Reports.step⟩

end Runs

/-! ## 2. What the operations take off the counter -/

namespace TimerHeap

variable {cancelled : T → Bool} {h h' : TimerHeap T} {marks : List T}

theorem Buries.dead (hb : Buries cancelled h h' marks) :
    h.dead cancelled = marks.length + h'.dead cancelled := by
  obtain ⟨hperm, hmarks⟩ := hb.payloads
  unfold TimerHeap.dead
  rw [hperm.countP_eq, List.countP_append, List.countP_eq_length.mpr hmarks]

theorem Buries.nodup (hb : Buries cancelled h h' marks) (hnodup : h.payloads.Nodup) :
    h'.payloads.Nodup := (List.nodup_append.mp (hb.payloads.1.nodup_iff.mp hnodup)).2.1

theorem popTop_dead {first : Entry T} (hf : h.entries[0]? = some first)
    (hlive : cancelled first.payload = false) : h.popTop.dead cancelled = h.dead cancelled := by
  unfold TimerHeap.dead
  rw [(popTop_payloads hf).countP_eq, List.countP_cons_of_neg (by simp [hlive])]

theorem popTop_nodup {first : Entry T} (hf : h.entries[0]? = some first) (hnodup : h.payloads.Nodup) :
    h.popTop.payloads.Nodup :=
  (List.nodup_cons.mp ((popTop_payloads hf).nodup_iff.mp hnodup)).2

theorem dropCancelledTop_tombstones (h : TimerHeap T) :
    (h.dropCancelledTop cancelled).1.tombstones =
      h.tombstones - (h.dropCancelledTop cancelled).2.length := by
  induction h using TimerHeap.dropCancelledTop.induct cancelled with
  | case1 h hf =>
    rw [TimerHeap.dropCancelledTop]
    split <;> simp_all
  | case2 h first hf hc ih =>
    have heq : h.dropCancelledTop cancelled =
        (((h.bury first.payload).dropCancelledTop cancelled).1,
          first.payload :: ((h.bury first.payload).dropCancelledTop cancelled).2) := by
      rw [TimerHeap.dropCancelledTop]
      split <;> simp_all
    rw [heq, List.length_cons]
    dsimp only
    rw [ih, show (h.bury first.payload).tombstones = h.tombstones - 1 from rfl, Nat.sub_sub,
      Nat.add_comm]
  | case3 h first hf hc =>
    rw [TimerHeap.dropCancelledTop]
    split <;> simp_all

/-- Only the tombstones `pop_expired` removes are taken off the counter. -/
theorem popExpired_tombstones (cancelled : T → Bool) (h : TimerHeap T) (now : Nat) :
    (h.popExpired cancelled now).2.1.tombstones =
      h.tombstones - (h.popExpired cancelled now).2.2.countP cancelled := by
  induction h using TimerHeap.popExpired.induct cancelled now with
  | case1 h hf =>
    rw [popExpired]
    split <;> simp_all
  | case2 h first hf hlate =>
    rw [popExpired]
    split <;> simp_all
  | case3 h first hf hdue hlive =>
    have heq : h.popExpired cancelled now = (some first.payload, h.popTop, [first.payload]) := by
      rw [popExpired]
      split <;> simp_all
    rw [heq, List.countP_cons_of_neg (by simpa using hlive)]
    rfl
  | case4 h first hf hdue hlive ih =>
    have heq : h.popExpired cancelled now =
        (((h.bury first.payload).popExpired cancelled now).1,
          ((h.bury first.payload).popExpired cancelled now).2.1,
          first.payload :: ((h.bury first.payload).popExpired cancelled now).2.2) := by
      rw [popExpired]
      split <;> simp_all
    rw [heq, List.countP_cons_of_pos (by simpa using hlive)]
    dsimp only
    rw [ih, show (h.bury first.payload).tombstones = h.tombstones - 1 from rfl, Nat.sub_sub,
      Nat.add_comm]

/-- A compaction leaves no cancelled payload. -/
theorem compact_dead (cancelled : T → Bool) (h : TimerHeap T) : (h.compact cancelled).1.dead cancelled = 0 := by
  have hspec := DaryHeap.partition_spec (fun e : Entry T => !cancelled e.payload) h.entries
  unfold TimerHeap.compact TimerHeap.dead TimerHeap.payloads
  generalize DaryHeap.partition (fun e : Entry T => !cancelled e.payload) h.entries = r at hspec
  obtain ⟨entries, live⟩ := r
  obtain ⟨hlive, -⟩ := hspec
  dsimp only at hlive ⊢
  have hheap := DaryHeap.heapify_perm Entry.key arity (entries.toList.take live).toArray
  rw [hlive] at hheap
  rw [hlive, (hheap.map Entry.payload).countP_eq, List.countP_eq_zero]
  intro p hp
  obtain ⟨e, he, rfl⟩ := List.mem_map.mp hp
  simpa using (List.mem_filter.mp he).2

end TimerHeap

/-! ## 3. The counter covers the cancelled payloads -/

/-- Nothing is counted that was not reported, and what is counted or yet to be reported covers the
cancelled payloads in the heap. -/
structure Covered (s : Reports T) : Prop where
  nodup : s.timers.heap.payloads.Nodup
  reported : s.reported ≤ s.made
  counted : s.timers.heap.tombstones ≤ s.reported
  covered : s.dead ≤ s.timers.heap.tombstones + s.unreported

theorem countP_cancel [DecidableEq T] (cancelled : T → Bool) {p : T} (hlive : cancelled p = false)
    (l : List T) :
    l.countP (fun q => decide (q = p) || cancelled q) = l.count p + l.countP cancelled := by
  induction l with
  | nil => rfl
  | cons q l ih =>
    by_cases hq : q = p
    · subst hq
      rw [List.countP_cons_of_pos (by simp), List.count_cons_self,
        List.countP_cons_of_neg (by simp [hlive]), ih]
      omega
    · rw [List.count_cons_of_ne hq, List.countP_cons, List.countP_cons, ih]
      simp [hq]
      omega

namespace Covered

variable [DecidableEq T] {s : Reports T}

omit [DecidableEq T] in
-- some tombstones are removed, and the counter lowered by as many or to zero
theorem spend (h : Covered s) {heap : TimerHeap T} (spent : Nat)
    (hnodup : heap.payloads.Nodup) (hdead : s.dead = spent + heap.dead s.timers.cancelled)
    (htomb : heap.tombstones = s.timers.heap.tombstones - spent) (handedOut unscheduled : List T) :
    Covered { s with timers := { s.timers with heap, handedOut, unscheduled } } := by
  have hcovered := h.covered
  have hcounted := h.counted
  refine ⟨hnodup, h.reported, ?_, ?_⟩
  · show heap.tombstones ≤ s.reported
    omega
  · show heap.dead s.timers.cancelled ≤ heap.tombstones + s.unreported
    omega

omit [DecidableEq T] in
-- no cancelled payload is left, and the counter starts again
theorem reset (h : Covered s) {heap : TimerHeap T} (hnodup : heap.payloads.Nodup)
    (hdead : heap.dead s.timers.cancelled = 0) (htomb : heap.tombstones = 0)
    (handedOut unscheduled : List T) :
    Covered { s with timers := { s.timers with heap, handedOut, unscheduled } } := by
  refine ⟨hnodup, h.reported, ?_, ?_⟩
  · show heap.tombstones ≤ s.reported
    omega
  · show heap.dead s.timers.cancelled ≤ heap.tombstones + s.unreported
    omega

theorem schedule (h : Covered s) (deadline : Nat) (payload : T)
    (hlegal : Legal s (.schedule deadline payload)) : Covered (s.step (.schedule deadline payload)) := by
  obtain ⟨hfresh, hlive⟩ := hlegal
  have hperm : (s.timers.heap.schedule deadline payload).payloads.Perm
      (payload :: s.timers.heap.payloads) :=
    (s.timers.heap.schedule_perm deadline payload).map Entry.payload
  refine ⟨?_, h.reported, h.counted, ?_⟩
  · exact hperm.nodup_iff.mpr (List.nodup_cons.mpr ⟨hfresh, h.nodup⟩)
  · show List.countP s.timers.cancelled (s.timers.heap.schedule deadline payload).payloads ≤ _
    rw [hperm.countP_eq, List.countP_cons_of_neg (by simp [hlive])]
    exact h.covered

theorem cancel (h : Covered s) (payload : T) (hlegal : Legal s (.cancel payload)) :
    Covered (s.step (.cancel payload)) := by
  obtain ⟨hin, hlive⟩ := hlegal
  have hcovered := h.covered
  refine ⟨h.nodup, Nat.le_succ_of_le h.reported, h.counted, ?_⟩
  show s.timers.heap.payloads.countP (fun q => decide (q = payload) || s.timers.cancelled q) ≤
    s.timers.heap.tombstones + (s.made + 1 - s.reported)
  have hdead : s.timers.heap.payloads.countP s.timers.cancelled ≤
      s.timers.heap.tombstones + (s.made - s.reported) := h.covered
  have hreported := h.reported
  rw [countP_cancel s.timers.cancelled hlive, List.count_eq_one_of_mem h.nodup hin]
  omega

/-- A report: it compacts, or it adds what it reports and leaves at most half cancelled. -/
theorem noteCancelled (h : Covered s) {n : Nat} (hlegal : Legal s (.noteCancelled n))
    (hfew : s.made < 2 ^ 63) :
    Covered (s.step (.noteCancelled n)) ∧
      ((s.step (.noteCancelled n)).unreported = 0 →
        2 * (s.step (.noteCancelled n)).dead ≤
          (s.step (.noteCancelled n)).timers.heap.entries.size) := by
  have hcovered : s.timers.heap.dead s.timers.cancelled ≤
      s.timers.heap.tombstones + (s.made - s.reported) := h.covered
  have hcounted := h.counted
  have hn : s.reported + n ≤ s.made := hlegal
  -- neither the sum saturates nor its double wraps
  have hsum : min (s.timers.heap.tombstones + n) (2 ^ 64 - 1) = s.timers.heap.tombstones + n := by
    omega
  have hdouble : (s.timers.heap.tombstones + n) * 2 % 2 ^ 64 = (s.timers.heap.tombstones + n) * 2 := by
    omega
  have hstep : s.timers.heap.noteCancelled s.timers.cancelled n =
      if (s.timers.heap.tombstones + n) * 2 > s.timers.heap.entries.size then
        { s.timers.heap with tombstones := s.timers.heap.tombstones + n }.compact s.timers.cancelled
      else ({ s.timers.heap with tombstones := s.timers.heap.tombstones + n }, []) := by
    unfold TimerHeap.noteCancelled
    dsimp only
    rw [hsum, hdouble]
  unfold Reports.unreported Reports.dead
  by_cases hover : (s.timers.heap.tombstones + n) * 2 > s.timers.heap.entries.size
  · rw [if_pos hover] at hstep
    have hdead := TimerHeap.compact_dead s.timers.cancelled
      { s.timers.heap with tombstones := s.timers.heap.tombstones + n }
    have hnodup : (s.timers.heap.noteCancelled s.timers.cancelled n).1.payloads.Nodup :=
      (TimerHeap.Buries.noteCancelled s.timers.heap n).nodup h.nodup
    have hheap : (s.step (.noteCancelled n)).timers.heap.dead s.timers.cancelled = 0 := by
      show (s.timers.heap.noteCancelled s.timers.cancelled n).1.dead s.timers.cancelled = 0
      rw [hstep]
      exact hdead
    have htomb : (s.step (.noteCancelled n)).timers.heap.tombstones = 0 := by
      show (s.timers.heap.noteCancelled s.timers.cancelled n).1.tombstones = 0
      rw [hstep]
      rfl
    refine ⟨⟨hnodup, hn, ?_, ?_⟩, fun _ => ?_⟩
    · rw [htomb]
      exact Nat.zero_le _
    · exact hheap.trans_le (Nat.zero_le _)
    · show 2 * (s.step (.noteCancelled n)).timers.heap.dead s.timers.cancelled ≤ _
      rw [hheap]
      exact Nat.zero_le _
  · rw [if_neg hover] at hstep
    have hheap : (s.step (.noteCancelled n)).timers.heap =
        { s.timers.heap with tombstones := s.timers.heap.tombstones + n } := congrArg Prod.fst hstep
    refine ⟨⟨?_, hn, ?_, ?_⟩, fun hnone => ?_⟩
    · rw [hheap]
      exact h.nodup
    · rw [hheap]
      show s.timers.heap.tombstones + n ≤ s.reported + n
      omega
    · unfold Reports.dead Reports.unreported
      rw [hheap]
      show s.timers.heap.dead s.timers.cancelled ≤
        s.timers.heap.tombstones + n + (s.made - (s.reported + n))
      omega
    · rw [hheap]
      show 2 * s.timers.heap.dead s.timers.cancelled ≤ s.timers.heap.entries.size
      have hnone : s.made - (s.reported + n) = 0 := hnone
      omega

theorem step (h : Covered s) (op : Op T) (hlegal : Legal s op) (hfew : s.made < 2 ^ 63) :
    Covered (s.step op) := by
  cases op with
  | schedule deadline payload => exact h.schedule deadline payload hlegal
  | cancel payload => exact h.cancel payload hlegal
  | noteCancelled n => exact (h.noteCancelled hlegal hfew).1
  | nextDeadline =>
    have hb : TimerHeap.Buries s.timers.cancelled s.timers.heap _ _ :=
      (TimerHeap.Buries.dropCancelledTop s.timers.heap).1
    exact h.spend _ (hb.nodup h.nodup) hb.dead (TimerHeap.dropCancelledTop_tombstones _) _ _
  | popExpired now =>
    have htomb := TimerHeap.popExpired_tombstones s.timers.cancelled s.timers.heap now
    obtain ⟨h₁, marks₁, hb, hcases⟩ :=
      (TimerHeap.popExpired_expires s.timers.cancelled s.timers.heap now).cases
    have hmarks : marks₁.countP s.timers.cancelled = marks₁.length :=
      List.countP_eq_length.mpr hb.payloads.2
    rcases hcases with ⟨-, hh, hm, -⟩ | ⟨first, hf, -, hlive, -, hh, hm⟩
    · apply h.spend marks₁.length
      · rw [hh]
        exact hb.nodup h.nodup
      · rw [hh]
        exact hb.dead
      · rw [htomb, hm, hmarks]
    · apply h.spend marks₁.length
      · rw [hh]
        exact TimerHeap.popTop_nodup hf (hb.nodup h.nodup)
      · rw [hh, TimerHeap.popTop_dead hf hlive]
        exact hb.dead
      · rw [htomb, hm, List.countP_append, hmarks, List.countP_singleton, hlive]
        rfl
  | takeGraveyard => exact ⟨h.nodup, h.reported, h.counted, h.covered⟩
  | drainAll =>
    have hnone : s.timers.heap.drainAll.2.1.payloads = [] := rfl
    apply h.reset
    · rw [hnone]
      exact List.nodup_nil
    · exact congrArg (List.countP s.timers.cancelled) hnone
    · rfl

end Covered

section Runs

variable [DecidableEq T]

theorem made_le (s : Reports T) (op : Op T) : s.made ≤ (s.step op).made := by
  cases op <;> simp [Reports.step]

theorem run_covered (ops : List (Op T)) (hlegal : reports.Along Legal ops)
    (hfew : (reports.run ops).made < 2 ^ 63) : Covered (reports.run ops) := by
  revert hlegal hfew
  refine reports.run_induction (motive := fun ops s =>
    reports.Along Legal ops → s.made < 2 ^ 63 → Covered s) ?_ ?_ ops
  · intro _ _
    exact ⟨List.nodup_nil, Nat.le_refl 0, Nat.le_refl 0, Nat.le_refl 0⟩
  · intro ops op ih hlegal hfew
    obtain ⟨hbefore, hop⟩ := reports.along_concat.mp hlegal
    have hmade : (reports.run ops).made < 2 ^ 63 := Nat.lt_of_le_of_lt (made_le _ op) hfew
    exact (ih hbefore hmade).step op hop hmade

/-- The tombstone counter and the cancellations yet to be reported cover the cancelled payloads in
the heap; and a report that leaves none unreported leaves at most half of the heap cancelled. -/
structure Bounded (s : Reports T) : Prop where
  covered : s.dead ≤ s.timers.heap.tombstones + s.unreported
  half : ∀ n, Legal s (.noteCancelled n) → (s.step (.noteCancelled n)).unreported = 0 →
    2 * (s.step (.noteCancelled n)).dead ≤ (s.step (.noteCancelled n)).timers.heap.entries.size

/-- **Cancelled timers stay a bounded share of the heap**, as long as fewer than 2^63 timers are
cancelled. -/
theorem cancelled_bounded (ops : List (Op T)) (hlegal : reports.Along Legal ops)
    (hfew : (reports.run ops).made < 2 ^ 63) : Bounded (reports.run ops) := by
  have hcovered := run_covered ops hlegal hfew
  exact ⟨hcovered.covered, fun n hn hnone => (hcovered.noteCancelled hn hfew).2 hnone⟩

end Runs

/-! ## 4. When the double of the counter wraps -/

-- each of `n` payloads is scheduled, cancelled, and pops as a tombstone, and none is reported
def discards : Nat → List (Op Nat)
  | 0 => []
  | n + 1 => discards n ++ [.schedule 0 n] ++ [.cancel n] ++ [.popExpired 0]

structure Discarded (n : Nat) (s : Reports Nat) : Prop where
  heap : s.timers.heap = ⟨#[], n % 2 ^ 64, 0, List.range n⟩
  cancelled : s.timers.cancelled = fun p => decide (p < n)
  made : s.made = n
  reported : s.reported = 0

theorem schedule_first (seq deadline tombstones : Nat) (payload : T) (graveyard : List T) :
    (TimerHeap.schedule ⟨#[], seq, tombstones, graveyard⟩ deadline payload) =
      ⟨#[⟨deadline, seq, payload⟩], (seq + 1) % 2 ^ 64, tombstones, graveyard⟩ := by
  simp [TimerHeap.schedule, DaryHeap.insert, DaryHeap.siftUp]

theorem popExpired_discards (seq seq' : Nat) (graveyard : List Nat) {cancelled : Nat → Bool} {p : Nat}
    (hp : cancelled p = true) :
    (TimerHeap.popExpired cancelled ⟨#[⟨0, seq, p⟩], seq', 0, graveyard⟩ 0).2.1 =
      ⟨#[], seq', 0, graveyard ++ [p]⟩ := by
  have hempty : ∀ h : TimerHeap Nat, h.entries = #[] → h.popExpired cancelled 0 = (none, h, []) := by
    intro h hnone
    rw [TimerHeap.popExpired]
    split <;> simp_all
  have hbury : TimerHeap.bury ⟨#[⟨0, seq, p⟩], seq', 0, graveyard⟩ p =
      ⟨#[], seq', 0, graveyard ++ [p]⟩ := rfl
  rw [TimerHeap.popExpired]
  split
  · rename_i hf
    cases hf
  · rename_i first hf
    have hfirst : (⟨0, seq, p⟩ : Entry Nat) = first := by
      injection hf
    subst hfirst
    rw [if_neg (by simp), if_neg (by simp [hp]), hbury, hempty _ rfl]

theorem cancel_next (n : Nat) :
    (fun p => decide (p = n) || decide (p < n)) = fun p => decide (p < n + 1) := by
  funext p
  rw [← Bool.decide_or, decide_eq_decide]
  omega

-- the payload is in the heap alone, and cancelled
theorem Discarded.scheduled {n : Nat} {s : Reports Nat} (h : Discarded n s) :
    let s' := (s.step (.schedule 0 n)).step (.cancel n)
    Legal s (.schedule 0 n) ∧ Legal (s.step (.schedule 0 n)) (.cancel n) ∧
      s'.timers.heap = ⟨#[⟨0, n % 2 ^ 64, n⟩], (n + 1) % 2 ^ 64, 0, List.range n⟩ ∧
      s'.timers.cancelled = (fun p => decide (p < n + 1)) ∧ s'.made = n + 1 ∧ s'.reported = 0 := by
  have hlive : s.timers.cancelled n = false := by
    rw [h.cancelled]
    exact decide_eq_false (Nat.lt_irrefl n)
  have hheap : (s.step (.schedule 0 n)).timers.heap =
      ⟨#[⟨0, n % 2 ^ 64, n⟩], (n + 1) % 2 ^ 64, 0, List.range n⟩ := by
    show s.timers.heap.schedule 0 n = _
    rw [h.heap, schedule_first, Nat.mod_add_mod]
  refine ⟨⟨?_, hlive⟩, ⟨?_, hlive⟩, hheap, ?_, congrArg (· + 1) h.made, h.reported⟩
  · rw [h.heap]
    exact List.not_mem_nil
  · rw [hheap]
    exact List.mem_singleton.mpr rfl
  · show (fun p => decide (p = n) || s.timers.cancelled p) = _
    rw [h.cancelled, cancel_next]

theorem run_discards (n : Nat) :
    reports.Along Legal (discards n) ∧ Discarded n (reports.run (discards n)) := by
  induction n with
  | zero => exact ⟨reports.along_nil _, rfl, by funext p; simp [discards]; rfl, rfl, rfl⟩
  | succ n ih =>
    obtain ⟨hlegal, hdiscarded⟩ := ih
    have hscheduled := hdiscarded.scheduled
    dsimp only at hscheduled
    obtain ⟨hschedule, hcancel, hheap, hcancelled, hmade, hreported⟩ := hscheduled
    rw [discards, reports.run_concat, reports.run_concat, reports.run_concat]
    refine ⟨?_, ?_, hcancelled, hmade, hreported⟩
    · rw [reports.along_concat, reports.along_concat, reports.along_concat, reports.run_concat]
      exact ⟨⟨⟨hlegal, hschedule⟩, hcancel⟩, trivial⟩
    · show (TimerHeap.popExpired ((reports.run (discards n)).step (.schedule 0 n)
        |>.step (.cancel n)).timers.cancelled _ 0).2.1 = _
      have hdead : (((reports.run (discards n)).step (.schedule 0 n)).step
          (.cancel n)).timers.cancelled n = true := by
        rw [hcancelled]
        exact decide_eq_true (Nat.lt_succ_self n)
      have hpop := popExpired_discards (n % 2 ^ 64) ((n + 1) % 2 ^ 64) (List.range n) hdead
      rw [List.range_succ, ← hpop, ← hheap]
      rfl

/-- Three timers are cancelled and popped before anything is reported. -/
theorem cancelled_bounded_discarded : Bounded (reports.run (discards 3)) :=
  cancelled_bounded (discards 3) (run_discards 3).1 (by
    rw [(run_discards 3).2.made]
    decide)

-- the double of 2^63 is zero in a `usize`
theorem report_wraps {cancelled : T → Bool} {e : Entry T} {seq n : Nat} {graveyard : List T}
    (hn : n = 2 ^ 63) :
    (TimerHeap.noteCancelled cancelled ⟨#[e], seq, 0, graveyard⟩ n).1 = ⟨#[e], seq, n, graveyard⟩ := by
  have hsum : min (0 + n) (2 ^ 64 - 1) = n := by omega
  have hdouble : n * 2 % 2 ^ 64 = 0 := by omega
  unfold TimerHeap.noteCancelled
  dsimp only
  rw [hsum, hdouble, if_neg (Nat.not_lt_zero _)]

/-- One cancelled payload in the heap, and 2^63 cancellations to report. -/
theorem not_bounded {s : Reports Nat} {e : Entry Nat} {seq n : Nat} {graveyard : List Nat}
    (hn : n = 2 ^ 63) (hheap : s.timers.heap = ⟨#[e], seq, 0, graveyard⟩)
    (hdead : s.timers.cancelled e.payload = true) (hmade : s.made = n) (hreported : s.reported = 0) :
    ¬ Bounded s := by
  intro hbounded
  have hall : s.reported + n = s.made := by omega
  have hhalf := hbounded.half n (Nat.le_of_eq hall) (by
    show s.made - (s.reported + n) = 0
    rw [hall, Nat.sub_self])
  have hreport : (s.step (.noteCancelled n)).timers.heap = ⟨#[e], seq, n, graveyard⟩ := by
    show (s.timers.heap.noteCancelled s.timers.cancelled n).1 = _
    rw [hheap, report_wraps hn]
  have hone : (s.step (.noteCancelled n)).dead = 1 := by
    show TimerHeap.dead s.timers.cancelled (s.step (.noteCancelled n)).timers.heap = 1
    rw [hreport]
    show List.countP s.timers.cancelled [e.payload] = 1
    rw [List.countP_singleton, hdead]
    rfl
  rw [hone, hreport] at hhalf
  have hsize : 2 * 1 ≤ 1 := hhalf
  omega

/-- 2^63 cancellations reported at once: the double of the counter is zero, nothing is compacted,
and the one entry left in the heap is cancelled. -/
theorem cancelled_unbounded_past_usize :
    ¬ ∀ ops : List (Op Nat), reports.Along Legal ops → Bounded (reports.run ops) := by
  intro h
  have hlast : 2 ^ 63 - 1 + 1 = 2 ^ 63 := by omega
  generalize 2 ^ 63 - 1 = last at hlast
  obtain ⟨hlegal, hdiscarded⟩ := run_discards last
  have hscheduled := hdiscarded.scheduled
  dsimp only at hscheduled
  obtain ⟨hschedule, hcancel, hheap, hcancelled, hmade, hreported⟩ := hscheduled
  have hbounded := h (discards last ++ [.schedule 0 last] ++ [.cancel last]) (by
    rw [reports.along_concat, reports.along_concat, reports.run_concat]
    exact ⟨⟨hlegal, hschedule⟩, hcancel⟩)
  rw [reports.run_concat, reports.run_concat] at hbounded
  refine not_bounded hlast hheap ?_ hmade hreported hbounded
  rw [hcancelled]
  exact decide_eq_true (Nat.lt_succ_self last)

end Cadeloop.Core.Timer
