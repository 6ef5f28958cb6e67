import Cadeloop.Core.Timer
import Cadeloop.Reasoning.Machine

/-!
# Runs of the timer heap

The heap with what surrounds it: the cancellation flags the payloads carry, and a record of what
was scheduled, handed out, and told `mark_unscheduled`.  An agenda — a list sorted by deadline,
first scheduled first — says what the heap is for; the heap's answers are the agenda's.
-/

namespace Cadeloop.Core.Timer

open Cadeloop.Reasoning

variable {T : Type*}

/-! ## 1. Runs -/

inductive Op (T : Type*) where
  | schedule (deadline : Nat) (payload : T)
  -- the payload's flag turns true, between two operations
  | cancel (payload : T)
  | noteCancelled (n : Nat)
  | nextDeadline
  | popExpired (now : Nat)
  | takeGraveyard
  | drainAll

/-- The heap, the flags, and the record of a run. -/
structure Timers (T : Type*) where
  heap : TimerHeap T
  cancelled : T → Bool
  scheduled : List T
  handedOut : List T
  -- every `mark_unscheduled` call so far
  unscheduled : List T

def Timers.new : Timers T :=
  { heap := .new, cancelled := fun _ => false, scheduled := [], handedOut := [], unscheduled := [] }

section Runs

variable [DecidableEq T]

def Timers.step (s : Timers T) : Op T → Timers T
  | .schedule deadline payload =>
    { s with heap := s.heap.schedule deadline payload, scheduled := s.scheduled ++ [payload] }
  | .cancel payload =>
    { s with cancelled := fun p => decide (p = payload) || s.cancelled p }
  | .noteCancelled n =>
    let r := s.heap.noteCancelled s.cancelled n
    { s with heap := r.1, unscheduled := s.unscheduled ++ r.2 }
  | .nextDeadline =>
    let r := s.heap.nextDeadline s.cancelled
    { s with heap := r.2.1, unscheduled := s.unscheduled ++ r.2.2 }
  | .popExpired now =>
    let r := s.heap.popExpired s.cancelled now
    { s with
      heap := r.2.1
      handedOut := s.handedOut ++ r.1.toList
      unscheduled := s.unscheduled ++ r.2.2 }
  | .takeGraveyard =>
    let r := s.heap.takeGraveyard
    { s with heap := r.2, handedOut := s.handedOut ++ r.1 }
  | .drainAll =>
    let r := s.heap.drainAll
    { s with
      heap := r.2.1
      handedOut := s.handedOut ++ r.1
      unscheduled := s.unscheduled ++ r.2.2 }

def timers : Machine (Timers T) (Op T) := ⟨.new, Timers.step⟩

/-! ## 2. No payload is lost, duplicated or wrongly discarded -/

/-- The payload an operation puts into the heap. -/
def Op.scheduled : Op T → List T
  | .schedule _ payload => [payload]
  | _ => []

omit [DecidableEq T] in
theorem TimerHeap.Buries.payloads {cancelled : T → Bool} {h h' : TimerHeap T} {marks : List T}
    (hb : Buries cancelled h h' marks) :
    h.payloads.Perm (marks ++ h'.payloads) ∧ ∀ p ∈ marks, cancelled p = true := by
  obtain ⟨dead, hperm, rfl, hdead⟩ := hb.entries
  refine ⟨?_, ?_⟩
  · have hmap := hperm.map Entry.payload
    rwa [List.map_append] at hmap
  · intro p hp
    obtain ⟨e, he, rfl⟩ := List.mem_map.mp hp
    exact hdead e he

omit [DecidableEq T] in
theorem TimerHeap.popTop_payloads {h : TimerHeap T} {first : Entry T}
    (hf : h.entries[0]? = some first) : h.payloads.Perm (first.payload :: h.popTop.payloads) :=
  (popTop_perm hf).map Entry.payload

/-- A step tells `mark_unscheduled` to the payloads that leave the heap in it, and to no other. -/
theorem step_marks (s : Timers T) (op : Op T) :
    ∃ marks, (s.step op).unscheduled = s.unscheduled ++ marks ∧
      (op.scheduled ++ s.heap.payloads).Perm (marks ++ (s.step op).heap.payloads) := by
  cases op with
  | schedule deadline payload =>
    have hperm := (s.heap.schedule_perm deadline payload).map Entry.payload
    exact ⟨[], (List.append_nil _).symm, hperm.symm⟩
  | cancel payload => exact ⟨[], (List.append_nil _).symm, List.Perm.refl _⟩
  | noteCancelled n => exact ⟨_, rfl, (TimerHeap.Buries.noteCancelled s.heap n).payloads.1⟩
  | nextDeadline => exact ⟨_, rfl, (TimerHeap.Buries.dropCancelledTop s.heap).1.payloads.1⟩
  | popExpired now =>
    refine ⟨_, rfl, ?_⟩
    obtain ⟨h₁, marks₁, hb, hcases⟩ :=
      (TimerHeap.popExpired_expires s.cancelled s.heap now).cases
    simp only [Timers.step]
    rcases hcases with ⟨-, hh, hm, -⟩ | ⟨first, hf, -, -, -, hh, hm⟩
    · rw [hh, hm]
      exact hb.payloads.1
    · rw [hh, hm, List.append_assoc]
      exact hb.payloads.1.trans ((TimerHeap.popTop_payloads hf).append_left marks₁)
  | takeGraveyard => exact ⟨[], (List.append_nil _).symm, List.Perm.refl _⟩
  | drainAll =>
    refine ⟨_, rfl, ?_⟩
    have hnone : (s.step .drainAll).heap.payloads = [] := rfl
    rw [hnone, List.append_nil]
    exact List.Perm.refl _

theorem run_marks (ops : List (Op T)) :
    (timers.run ops).scheduled.Perm
      ((timers.run ops).heap.payloads ++ (timers.run ops).unscheduled) := by
  refine timers.run_invariant (I := fun s : Timers T =>
    s.scheduled.Perm (s.heap.payloads ++ s.unscheduled)) (List.Perm.refl _) ?_ ops
  intro s op hs
  obtain ⟨marks, hmarks, hperm⟩ := step_marks s op
  have hscheduled : (s.step op).scheduled = s.scheduled ++ op.scheduled := by
    cases op <;> simp [Timers.step, Op.scheduled]
  apply List.perm_iff_count.mpr
  intro p
  have h₁ := hs.count_eq p
  have h₂ := hperm.count_eq p
  show (s.step op).scheduled.count p = _
  change _ = ((s.step op).heap.payloads ++ (s.step op).unscheduled).count p
  rw [hscheduled, hmarks]
  simp only [List.count_append] at h₁ h₂ ⊢
  omega

/-- Scheduled payloads are in the heap, in the graveyard once cancelled, or handed out. -/
structure Accounted (s : Timers T) : Prop where
  held : s.scheduled.Perm (s.heap.payloads ++ s.heap.graveyard ++ s.handedOut)
  dead : ∀ p ∈ s.heap.graveyard, s.cancelled p = true

theorem Accounted.buries {s : Timers T} (h : Accounted s) {heap : TimerHeap T} {marks : List T}
    (hb : TimerHeap.Buries s.cancelled s.heap heap marks) :
    Accounted { s with heap, unscheduled := s.unscheduled ++ marks } := by
  obtain ⟨hperm, hdead⟩ := hb.payloads
  have hgrave := hb.graveyard
  constructor
  · apply List.perm_iff_count.mpr
    intro p
    have h₁ := h.held.count_eq p
    have h₂ := hperm.count_eq p
    simp only [hgrave, List.count_append] at h₁ h₂ ⊢
    omega
  · intro p hp
    have hp : p ∈ heap.graveyard := hp
    rw [hgrave] at hp
    rcases List.mem_append.mp hp with hp | hp
    · exact h.dead p hp
    · exact hdead p hp

theorem Accounted.pop {s : Timers T} (h : Accounted s) {first : Entry T}
    (hf : s.heap.entries[0]? = some first) :
    Accounted { s with heap := s.heap.popTop, handedOut := s.handedOut ++ [first.payload] } := by
  have hperm := TimerHeap.popTop_payloads hf
  have hgrave : s.heap.popTop.graveyard = s.heap.graveyard := rfl
  refine ⟨List.perm_iff_count.mpr fun p => ?_, h.dead⟩
  have h₁ := h.held.count_eq p
  have h₂ := hperm.count_eq p
  simp only [hgrave, List.count_append, List.count_cons, List.count_nil] at h₁ h₂ ⊢
  omega

theorem Accounted.step {s : Timers T} (h : Accounted s) (op : Op T) : Accounted (s.step op) := by
  cases op with
  | schedule deadline payload =>
    have hperm := (s.heap.schedule_perm deadline payload).map Entry.payload
    have hgrave : (s.heap.schedule deadline payload).graveyard = s.heap.graveyard := rfl
    refine ⟨List.perm_iff_count.mpr fun p => ?_, h.dead⟩
    have h₁ := h.held.count_eq p
    have h₂ := hperm.count_eq p
    simp only [Timers.step, hgrave, TimerHeap.payloads, List.map_cons, List.count_append,
      List.count_cons, List.count_nil] at h₁ h₂ ⊢
    omega
  | cancel payload =>
    refine ⟨h.held, fun p hp => ?_⟩
    show (decide (p = payload) || s.cancelled p) = true
    rw [h.dead p hp, Bool.or_true]
  | noteCancelled n =>
    have hb := h.buries (TimerHeap.Buries.noteCancelled s.heap n)
    exact ⟨hb.held, hb.dead⟩
  | nextDeadline =>
    have hb := h.buries (TimerHeap.Buries.dropCancelledTop s.heap).1
    exact ⟨hb.held, hb.dead⟩
  | popExpired now =>
    obtain ⟨h₁, marks₁, hb, hcases⟩ :=
      (TimerHeap.popExpired_expires s.cancelled s.heap now).cases
    have hburied := h.buries hb
    simp only [Timers.step]
    rcases hcases with ⟨hr, hh, -, -⟩ | ⟨first, hf, -, -, hr, hh, -⟩
    · rw [hr, hh, Option.toList_none, List.append_nil]
      exact ⟨hburied.held, hburied.dead⟩
    · have hpop := hburied.pop hf
      rw [hr, hh, Option.toList_some]
      exact ⟨hpop.held, hpop.dead⟩
  | takeGraveyard =>
    refine ⟨List.perm_iff_count.mpr fun p => ?_, fun p hp => by cases hp⟩
    have h₁ := h.held.count_eq p
    simp only [Timers.step, TimerHeap.takeGraveyard, TimerHeap.payloads, List.count_append,
      List.count_nil] at h₁ ⊢
    omega
  | drainAll =>
    refine ⟨List.perm_iff_count.mpr fun p => ?_, fun p hp => by cases hp⟩
    have h₁ := h.held.count_eq p
    simp only [Timers.step, TimerHeap.drainAll, TimerHeap.payloads, List.map_nil,
      List.count_append, List.count_nil] at h₁ ⊢
    omega

/-- **No timer payload is lost, duplicated or wrongly discarded.**  At every point of every run
the scheduled payloads are, as a multiset, those in the heap, in the graveyard and handed out; the
graveyard holds cancelled ones only; and `mark_unscheduled` was called once for each payload that
is no longer in the heap, in the very step that took it out. -/
theorem payloads_accounted (ops : List (Op T)) :
    let s := timers.run ops
    s.scheduled.Perm (s.heap.payloads ++ s.heap.graveyard ++ s.handedOut) ∧
      (∀ p ∈ s.heap.graveyard, s.cancelled p = true) ∧
      s.scheduled.Perm (s.heap.payloads ++ s.unscheduled) ∧
      ∀ op, ∃ marks, (s.step op).unscheduled = s.unscheduled ++ marks ∧
        (op.scheduled ++ s.heap.payloads).Perm (marks ++ (s.step op).heap.payloads) := by
  dsimp only
  have hacc : Accounted (timers.run ops) :=
    timers.run_invariant ⟨List.Perm.refl _, fun p hp => by cases hp⟩
      (fun s op hs => hs.step op) ops
  exact ⟨hacc.held, hacc.dead, run_marks ops, step_marks _⟩

/-! ## 3. The agenda -/

/-- What the heap stands for: entries sorted by deadline, first scheduled first.  Here the
sequence numbers count without wrapping. -/
structure Agenda (T : Type*) where
  pending : List (Entry T)
  count : Nat
  cancelled : T → Bool

namespace Agenda

omit [DecidableEq T]

def new : Agenda T := { pending := [], count := 0, cancelled := fun _ => false }

def live (a : Agenda T) : List (Entry T) := a.pending.filter fun e => !a.cancelled e.payload

def due (a : Agenda T) (now : Nat) : List (Entry T) :=
  a.live.filter fun e => decide (e.deadline ≤ now)

end Agenda

def Agenda.step (a : Agenda T) : Op T → Agenda T
  | .schedule deadline payload =>
    { a with
      pending := a.pending.orderedInsert (fun x y => x.key ≤ y.key) ⟨deadline, a.count, payload⟩
      count := a.count + 1 }
  | .cancel payload => { a with cancelled := fun p => decide (p = payload) || a.cancelled p }
  | .popExpired now =>
    match a.due now with
    | [] => a
    | e :: _ => { a with pending := a.pending.filter fun x => decide (x.key ≠ e.key) }
  | .drainAll => { a with pending := [] }
  | _ => a

def agenda : Machine (Agenda T) (Op T) := ⟨.new, Agenda.step⟩

/-- The first entry in (deadline, scheduling order). -/
def Least (l : List (Entry T)) (e : Entry T) : Prop := e ∈ l ∧ ∀ e' ∈ l, e.key ≤ e'.key

/-- The heap answers what the agenda says. -/
structure Answers (s : Timers T) (a : Agenda T) : Prop where
  popExpired : ∀ now, match (s.heap.popExpired s.cancelled now).1 with
    | some payload => ∃ e, Least (a.due now) e ∧ e.payload = payload
    | none => a.due now = []
  nextDeadline : match (s.heap.nextDeadline s.cancelled).1 with
    | some deadline => ∃ e, Least a.live e ∧ e.deadline = deadline
    | none => a.live = []

end Runs

/-! ## 4. The heap simulates the agenda -/

def Before (x y : Entry T) : Prop := x.key < y.key

theorem deadline_le {x y : Entry T} (h : x.key ≤ y.key) : x.deadline ≤ y.deadline := by
  rcases Prod.Lex.toLex_le_toLex.mp h with h | h
  · exact h.le
  · exact h.1.le

-- the head of a sorted list is least, and filtering by its key leaves the tail
theorem head_least {e : Entry T} {l : List (Entry T)} (h : (e :: l).Pairwise Before) :
    Least (e :: l) e := by
  refine ⟨List.mem_cons_self, fun e' he' => ?_⟩
  rcases List.mem_cons.mp he' with rfl | he'
  · exact le_rfl
  · exact ((List.pairwise_cons.mp h).1 e' he').le

theorem head_of_least {l : List (Entry T)} (h : l.Pairwise Before) {e : Entry T}
    (he : Least l e) : ∃ rest, l = e :: rest := by
  cases l with
  | nil => cases he.1
  | cons x rest =>
    rcases List.mem_cons.mp he.1 with rfl | hmem
    · exact ⟨rest, rfl⟩
    · have hlt := (List.pairwise_cons.mp h).1 e hmem
      exact absurd (he.2 x List.mem_cons_self) (not_le.mpr hlt)

theorem filter_ne_head {e : Entry T} {l : List (Entry T)} (h : (e :: l).Pairwise Before) :
    (e :: l).filter (fun x => decide (x.key ≠ e.key)) = l := by
  rw [List.filter_cons_of_neg (by simp), List.filter_eq_self]
  intro x hx
  have hlt : e.key < x.key := (List.pairwise_cons.mp h).1 x hx
  simpa using hlt.ne'

theorem orderedInsert_sorted {l : List (Entry T)} {e : Entry T} (h : l.Pairwise Before)
    (hne : ∀ x ∈ l, x.key ≠ e.key) :
    (l.orderedInsert (fun x y => x.key ≤ y.key) e).Pairwise Before := by
  induction l with
  | nil => exact List.pairwise_singleton _ _
  | cons x l ih =>
    obtain ⟨hx, hl⟩ := List.pairwise_cons.mp h
    have hxe := hne x List.mem_cons_self
    rw [List.orderedInsert_cons]
    by_cases hle : e.key ≤ x.key
    · rw [if_pos hle]
      have hlt : e.key < x.key := lt_of_le_of_ne hle (Ne.symm hxe)
      refine List.pairwise_cons.mpr ⟨fun y hy => ?_, h⟩
      rcases List.mem_cons.mp hy with rfl | hy
      · exact hlt
      · exact hlt.trans (hx y hy)
    · rw [if_neg hle]
      refine List.pairwise_cons.mpr ⟨fun y hy => ?_, ih hl fun y hy => hne y (.tail x hy)⟩
      rcases (List.mem_orderedInsert _).mp hy with rfl | hy
      · exact lt_of_not_ge hle
      · exact hx y hy

def TimerHeap.live (h : TimerHeap T) (cancelled : T → Bool) : List (Entry T) :=
  h.entries.toList.filter fun e => !cancelled e.payload

/-- Same flags, same live entries, and sequence numbers that have not wrapped. -/
structure Refines (s : Timers T) (a : Agenda T) : Prop where
  cancelled : a.cancelled = s.cancelled
  ordered : s.heap.Ordered
  live : (s.heap.live s.cancelled).Perm a.live
  seq : s.heap.seq = a.count % 2 ^ 64
  fresh : ∀ e ∈ a.pending, e.seq < a.count
  sorted : a.pending.Pairwise Before

theorem TimerHeap.Buries.live {cancelled : T → Bool} {h h' : TimerHeap T} {marks : List T}
    (hb : Buries cancelled h h' marks) : (h.live cancelled).Perm (h'.live cancelled) := by
  obtain ⟨dead, hperm, -, hdead⟩ := hb.entries
  have hfilter := hperm.filter fun e => !cancelled e.payload
  have hnone : dead.filter (fun e => !cancelled e.payload) = [] :=
    List.filter_eq_nil_iff.mpr fun e he => by rw [hdead e he]; decide
  rwa [List.filter_append, hnone, List.nil_append] at hfilter

namespace Refines

variable {s : Timers T} {a : Agenda T}

theorem buries (h : Refines s a) {heap : TimerHeap T} {marks : List T}
    (hb : TimerHeap.Buries s.cancelled s.heap heap marks) : Refines { s with heap } a where
  cancelled := h.cancelled
  ordered := hb.ordered h.ordered
  live := hb.live.symm.trans h.live
  seq := hb.seq.trans h.seq
  fresh := h.fresh
  sorted := h.sorted

theorem live_sorted (h : Refines s a) : a.live.Pairwise Before := h.sorted.filter _

/-- A live entry at the top of the heap is the head of the agenda. -/
theorem top (h : Refines s a) {first : Entry T} (hf : s.heap.entries[0]? = some first)
    (hl : s.cancelled first.payload = false) : ∃ rest, a.live = first :: rest := by
  apply head_of_least h.live_sorted
  have hmem : first ∈ s.heap.entries.toList := by
    apply List.mem_of_getElem? (i := 0)
    rwa [Array.getElem?_toList]
  refine ⟨h.live.mem_iff.mp (List.mem_filter.mpr ⟨hmem, by rw [hl]; rfl⟩), fun e he => ?_⟩
  exact TimerHeap.top_least h.ordered hf e (List.mem_filter.mp (h.live.mem_iff.mpr he)).1

/-- With nothing due at the top, nothing is due. -/
theorem due_nil (h : Refines s a) {now : Nat}
    (hlate : ∀ first, s.heap.entries[0]? = some first → now < first.deadline) :
    a.due now = [] := by
  refine List.filter_eq_nil_iff.mpr fun e he => ?_
  have hmem := (List.mem_filter.mp (h.live.mem_iff.mpr he)).1
  have hpos : 0 < s.heap.entries.size := by
    rw [← Array.length_toList]
    exact List.length_pos_of_mem hmem
  have hf := Array.getElem?_eq_getElem hpos
  have hle := deadline_le (TimerHeap.top_least h.ordered hf e hmem)
  have hlt := hlate _ hf
  simp only [decide_eq_true_eq]
  omega

theorem due_cons (h : Refines s a) {now : Nat} {first : Entry T}
    (hf : s.heap.entries[0]? = some first) (hl : s.cancelled first.payload = false)
    (hdue : first.deadline ≤ now) : ∃ rest, a.due now = first :: rest := by
  obtain ⟨rest, hrest⟩ := h.top hf hl
  refine ⟨rest.filter fun e => decide (e.deadline ≤ now), ?_⟩
  rw [Agenda.due, hrest, List.filter_cons_of_pos (by simpa using hdue)]

theorem answers (h : Refines s a) : Answers s a := by
  constructor
  · intro now
    obtain ⟨h₁, marks₁, hb, hcases⟩ :=
      (TimerHeap.popExpired_expires s.cancelled s.heap now).cases
    have h₁' := h.buries hb
    rcases hcases with ⟨hr, -, -, hlate⟩ | ⟨first, hf, hdue, hl, hr, -, -⟩
    · rw [hr]
      exact h₁'.due_nil hlate
    · rw [hr]
      obtain ⟨rest, hrest⟩ := h₁'.due_cons hf hl hdue
      have hsorted : (first :: rest).Pairwise Before := hrest ▸ h.live_sorted.filter _
      exact ⟨first, by rw [hrest]; exact head_least hsorted, rfl⟩
  · obtain ⟨hb, htop⟩ := @TimerHeap.Buries.dropCancelledTop _ s.cancelled s.heap
    have h₁ := h.buries hb
    have hnext : (s.heap.nextDeadline s.cancelled).1 =
        (s.heap.dropCancelledTop s.cancelled).1.entries[0]?.map Entry.deadline := rfl
    rw [hnext]
    cases hf : (s.heap.dropCancelledTop s.cancelled).1.entries[0]? with
    | none =>
      have hempty : (s.heap.dropCancelledTop s.cancelled).1.live s.cancelled = [] := by
        have hsize := Array.getElem?_eq_none_iff.mp hf
        rw [TimerHeap.live, Array.eq_empty_of_size_eq_zero (Nat.le_zero.mp hsize)]
        rfl
      have hperm := h₁.live
      rw [hempty] at hperm
      exact hperm.nil_eq.symm
    | some first =>
      obtain ⟨rest, hrest⟩ := h₁.top hf (htop first hf)
      have hsorted : (first :: rest).Pairwise Before := hrest ▸ h.live_sorted
      exact ⟨first, by rw [hrest]; exact head_least hsorted, rfl⟩

theorem schedule (h : Refines s a) (hcount : a.count < 2 ^ 64) (deadline : Nat) (payload : T) :
    Refines { s with heap := s.heap.schedule deadline payload }
      { a with
        pending := a.pending.orderedInsert (fun x y => x.key ≤ y.key) ⟨deadline, a.count, payload⟩
        count := a.count + 1 } := by
  have hseq : s.heap.seq = a.count := by rw [h.seq, Nat.mod_eq_of_lt hcount]
  have hins := List.perm_orderedInsert (fun x y : Entry T => x.key ≤ y.key)
    ⟨deadline, a.count, payload⟩ a.pending
  refine ⟨h.cancelled, TimerHeap.schedule_ordered h.ordered deadline payload, ?_, ?_, ?_, ?_⟩
  · have hheap := (s.heap.schedule_perm deadline payload).filter fun e => !s.cancelled e.payload
    have hagenda := hins.filter fun e => !s.cancelled e.payload
    have hlive := h.live
    rw [hseq] at hheap
    simp only [TimerHeap.live, Agenda.live, h.cancelled] at hlive ⊢
    refine hheap.trans (List.Perm.trans ?_ hagenda.symm)
    by_cases hc : s.cancelled payload = true
    · rw [List.filter_cons_of_neg (by simp [hc]), List.filter_cons_of_neg (by simp [hc])]
      exact hlive
    · rw [List.filter_cons_of_pos (by simpa using hc), List.filter_cons_of_pos (by simpa using hc)]
      exact hlive.cons _
  · show (s.heap.seq + 1) % 2 ^ 64 = (a.count + 1) % 2 ^ 64
    rw [hseq]
  · intro e he
    rcases (List.mem_orderedInsert _).mp he with rfl | he
    · exact Nat.lt_succ_self _
    · exact Nat.lt_succ_of_lt (h.fresh e he)
  · apply orderedInsert_sorted h.sorted
    intro x hx heq
    have hkey := congrArg (fun k => (ofLex k).2) heq
    have hlt := h.fresh x hx
    have hkey : x.seq = a.count := hkey
    omega

end Refines

theorem Refines.step [DecidableEq T] {s : Timers T} {a : Agenda T} (h : Refines s a) (op : Op T)
    (hcount : op.scheduled ≠ [] → a.count < 2 ^ 64) : Refines (s.step op) (a.step op) := by
  cases op with
  | schedule deadline payload =>
    have hs := h.schedule (hcount (by simp [Op.scheduled])) deadline payload
    exact ⟨hs.cancelled, hs.ordered, hs.live, hs.seq, hs.fresh, hs.sorted⟩
  | cancel payload =>
    refine ⟨?_, h.ordered, ?_, h.seq, h.fresh, h.sorted⟩
    · show (fun p => decide (p = payload) || a.cancelled p) = _
      rw [h.cancelled]
      rfl
    · -- more flags: the same entries drop out of both
      have hfilter := h.live.filter fun e => !decide (e.payload = payload)
      simp only [TimerHeap.live, Agenda.live, Timers.step, Agenda.step, List.filter_filter,
        h.cancelled, Bool.not_or] at hfilter ⊢
      exact hfilter
  | noteCancelled n =>
    have hb := h.buries (TimerHeap.Buries.noteCancelled s.heap n)
    exact ⟨hb.cancelled, hb.ordered, hb.live, hb.seq, hb.fresh, hb.sorted⟩
  | nextDeadline =>
    have hb := h.buries (TimerHeap.Buries.dropCancelledTop s.heap).1
    exact ⟨hb.cancelled, hb.ordered, hb.live, hb.seq, hb.fresh, hb.sorted⟩
  | popExpired now =>
    obtain ⟨h₁, marks₁, hb, hcases⟩ :=
      (TimerHeap.popExpired_expires s.cancelled s.heap now).cases
    have h₁' := h.buries hb
    simp only [Timers.step, Agenda.step]
    rcases hcases with ⟨hr, hh, hm, hlate⟩ | ⟨first, hf, hdue, hl, hr, hh, hm⟩
    · rw [h₁'.due_nil hlate, hh]
      exact ⟨h₁'.cancelled, h₁'.ordered, h₁'.live, h₁'.seq, h₁'.fresh, h₁'.sorted⟩
    · obtain ⟨rest, hrest⟩ := h₁'.due_cons hf hl hdue
      obtain ⟨rest', hlive⟩ := h₁'.top hf hl
      rw [hrest, hh]
      refine ⟨h.cancelled, TimerHeap.popTop_ordered h₁'.ordered, ?_, h₁'.seq, ?_, ?_⟩
      · have hsorted : (first :: rest').Pairwise Before := hlive ▸ h.live_sorted
        have hnew : (a.pending.filter fun x => decide (x.key ≠ first.key)).filter
            (fun e => !a.cancelled e.payload) = rest' := by
          have hcomm : (a.pending.filter fun x => decide (x.key ≠ first.key)).filter
              (fun e => !a.cancelled e.payload) =
              a.live.filter fun x => decide (x.key ≠ first.key) := by
            rw [Agenda.live, List.filter_filter, List.filter_filter]
            simp only [Bool.and_comm]
          rw [hcomm, hlive, filter_ne_head hsorted]
        have hpop := (TimerHeap.popTop_perm hf).filter fun e => !s.cancelled e.payload
        rw [List.filter_cons_of_pos (by simpa using hl)] at hpop
        have hperm : (h₁.live s.cancelled).Perm (first :: rest') := hlive ▸ h₁'.live
        show (h₁.popTop.live s.cancelled).Perm ((a.pending.filter _).filter _)
        rw [hnew]
        exact (hpop.symm.trans hperm).cons_inv
      · exact fun e he => h.fresh e (List.mem_filter.mp he).1
      · exact h.sorted.filter _
  | takeGraveyard => exact ⟨h.cancelled, h.ordered, h.live, h.seq, h.fresh, h.sorted⟩
  | drainAll =>
    exact ⟨h.cancelled, TimerHeap.ordered_empty rfl, List.Perm.refl _, h.seq,
      (fun e he => by cases he), List.Pairwise.nil⟩

/-- How many times a run schedules. -/
def schedules (ops : List (Op T)) : Nat := (ops.flatMap Op.scheduled).length

theorem schedules_concat (ops : List (Op T)) (op : Op T) :
    schedules (ops ++ [op]) = schedules ops + op.scheduled.length := by
  simp [schedules]

theorem agenda_count [DecidableEq T] (ops : List (Op T)) :
    (agenda.run ops).count = schedules ops := by
  refine agenda.run_induction (motive := fun ops a => a.count = schedules ops) rfl ?_ ops
  intro ops op ih
  rw [schedules_concat, ← ih]
  cases op with
  | popExpired now =>
    show (Agenda.step _ _).count = _
    unfold Agenda.step
    dsimp only
    split <;> rfl
  | _ => rfl

theorem run_refines [DecidableEq T] (ops : List (Op T)) (hcount : schedules ops ≤ 2 ^ 64) :
    Refines (timers.run ops) (agenda.run ops) := by
  revert hcount
  refine timers.run_induction
    (motive := fun ops s => schedules ops ≤ 2 ^ 64 → Refines s (agenda.run ops)) ?_ ?_ ops
  · intro _
    exact ⟨rfl, TimerHeap.ordered_empty rfl, List.Perm.refl _, rfl,
      (fun e he => by cases he), List.Pairwise.nil⟩
  · intro ops op ih hcount
    rw [schedules_concat] at hcount
    rw [agenda.run_concat]
    apply (ih (by omega)).step op
    intro hop
    have hpos := List.length_pos_iff.mpr hop
    rw [agenda_count]
    omega

/-- **The timer heap refines a sorted list**, as long as no more than 2^64 payloads are
scheduled: at every point of every run, with every cancellation pattern and every clock. -/
theorem heap_answers_agenda [DecidableEq T] (ops : List (Op T)) (hcount : schedules ops ≤ 2 ^ 64) :
    Answers (timers.run ops) (agenda.run ops) := (run_refines ops hcount).answers

/-- Two equal deadlines, the first scheduled is cancelled, the clock goes back: the second pops. -/
theorem heap_answers_agenda_tie :
    schedules [Op.schedule 5 'a', .schedule 5 'b', .popExpired 9, .cancel 'a'] ≤ 2 ^ 64 ∧
      Answers (timers.run [Op.schedule 5 'a', .schedule 5 'b', .popExpired 9, .cancel 'a'])
        (agenda.run [Op.schedule 5 'a', .schedule 5 'b', .popExpired 9, .cancel 'a']) :=
  ⟨by decide, heap_answers_agenda _ (by decide)⟩

/-! ## 5. When the sequence number wraps -/

-- one payload in and out, `n` times
def rounds (n : Nat) : List (Op Nat) :=
  (List.replicate n [Op.schedule 0 0, Op.popExpired 0]).flatten

theorem schedule_empty (seq deadline : Nat) (payload : T) :
    (TimerHeap.schedule ⟨#[], seq, 0, []⟩ deadline payload) =
      ⟨#[⟨deadline, seq, payload⟩], (seq + 1) % 2 ^ 64, 0, []⟩ := by
  simp [TimerHeap.schedule, DaryHeap.insert, DaryHeap.siftUp]

theorem popExpired_single (seq n : Nat) (payload : T) :
    (TimerHeap.popExpired (fun _ => false) ⟨#[⟨0, seq, payload⟩], n, 0, []⟩ 0) =
      (some payload, ⟨#[], n, 0, []⟩, [payload]) := by
  rw [TimerHeap.popExpired]
  rfl

theorem run_rounds (n : Nat) :
    (timers.run (rounds n)).heap = ⟨#[], n % 2 ^ 64, 0, []⟩ ∧
      (timers.run (rounds n)).cancelled = (fun _ => false) ∧
      agenda.run (rounds n) = ⟨[], n, fun _ => false⟩ := by
  induction n with
  | zero => exact ⟨rfl, rfl, rfl⟩
  | succ n ih =>
    obtain ⟨hheap, hcancelled, hagenda⟩ := ih
    have hrounds : rounds (n + 1) = rounds n ++ [.schedule 0 0] ++ [.popExpired 0] := by
      simp [rounds, List.replicate_succ']
    rw [hrounds, timers.run_concat, timers.run_concat, agenda.run_concat, agenda.run_concat,
      hagenda]
    refine ⟨?_, hcancelled, by simp [agenda, Agenda.step, Agenda.due, Agenda.live]⟩
    show (TimerHeap.popExpired (timers.run (rounds n)).cancelled
      ((timers.run (rounds n)).heap.schedule 0 0) 0).2.1 = _
    rw [hheap, hcancelled, schedule_empty, popExpired_single, Nat.mod_add_mod]

theorem schedule_wrapped (k : Nat) (hk : 0 < k) :
    (TimerHeap.schedule ⟨#[⟨0, k, 1⟩], 0, 0, []⟩ 0 2) =
      (⟨#[⟨0, 0, 2⟩, ⟨0, k, 1⟩], 1, 0, []⟩ : TimerHeap Nat) := by
  have hless : DaryHeap.less Entry.key #[⟨0, k, 1⟩, (⟨0, 0, 2⟩ : Entry Nat)] 1 0 = true := by
    simp [DaryHeap.less, Entry.key, Prod.Lex.toLex_lt_toLex, hk]
  have hup : DaryHeap.siftUp Entry.key arity #[⟨0, k, 1⟩, (⟨0, 0, 2⟩ : Entry Nat)] 1 =
      #[⟨0, 0, 2⟩, ⟨0, k, 1⟩] := by
    rw [DaryHeap.siftUp, if_pos ⟨by decide, hless⟩, DaryHeap.siftUp,
      if_neg (fun h => absurd h.1 (by decide))]
    rfl
  have hinsert : DaryHeap.insert Entry.key arity #[(⟨0, k, 1⟩ : Entry Nat)] ⟨0, 0, 2⟩ =
      #[⟨0, 0, 2⟩, ⟨0, k, 1⟩] := hup
  have hseq : (0 + 1) % 2 ^ 64 = 1 := by decide
  simp only [TimerHeap.schedule, hinsert, hseq]

-- the first of the two gets the last sequence number, the second number 0
theorem popExpired_wrapped (s : Timers Nat) (hheap : s.heap = ⟨#[], 2 ^ 64 - 1, 0, []⟩)
    (hcancelled : s.cancelled = fun _ => false) :
    let s₂ := timers.step (timers.step s (.schedule 0 1)) (.schedule 0 2)
    (s₂.heap.popExpired s₂.cancelled 0).1 = some 2 := by
  have hseq : (2 ^ 64 - 1 + 1) % 2 ^ 64 = 0 := by decide
  show (TimerHeap.popExpired s.cancelled ((s.heap.schedule 0 1).schedule 0 2) 0).1 = some 2
  rw [hheap, hcancelled, schedule_empty, hseq, schedule_wrapped _ (by decide),
    TimerHeap.popExpired]
  rfl

theorem least_wrapped {e : Entry Nat}
    (he : Least ((agenda.step (agenda.step ⟨[], 2 ^ 64 - 1, fun _ => false⟩ (.schedule 0 1))
      (.schedule 0 2)).due 0) e) : e.payload = 1 := by
  have hdue : (agenda.step (agenda.step ⟨[], 2 ^ 64 - 1, fun _ => false⟩ (.schedule 0 1))
      (.schedule 0 2)).due 0 = [⟨0, 2 ^ 64 - 1, 1⟩, ⟨0, 2 ^ 64, 2⟩] := by
    simp [agenda, Agenda.step, Agenda.due, Agenda.live, Entry.key, Prod.Lex.toLex_le_toLex]
  rw [hdue] at he
  obtain ⟨hmem, hle⟩ := he
  have hfirst := hle _ List.mem_cons_self
  simp only [List.mem_cons, List.not_mem_nil, or_false] at hmem
  rcases hmem with rfl | rfl
  · rfl
  · simp [Entry.key, Prod.Lex.toLex_le_toLex] at hfirst

/-- Past 2^64 schedules a tie is answered last in, first out: the second of two payloads with
equal deadlines gets sequence number 0. -/
theorem heap_not_fifo_after_wrap :
    ¬ ∀ ops : List (Op Nat), Answers (timers.run ops) (agenda.run ops) := by
  intro h
  have hans := (h (rounds (2 ^ 64 - 1) ++ [.schedule 0 1] ++ [.schedule 0 2])).popExpired 0
  obtain ⟨hheap, hcancelled, hagenda⟩ := run_rounds (2 ^ 64 - 1)
  rw [timers.run_concat, timers.run_concat, agenda.run_concat, agenda.run_concat, hagenda] at hans
  generalize timers.run (rounds (2 ^ 64 - 1)) = s at hans hheap hcancelled
  have hpop := popExpired_wrapped s hheap hcancelled
  dsimp only at hpop
  rw [hpop] at hans
  obtain ⟨e, he, hp⟩ := hans
  rw [least_wrapped he] at hp
  cases hp

end Cadeloop.Core.Timer
