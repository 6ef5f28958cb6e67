import Cadeloop.Reasoning.DaryHeap

/-!
# The timer heap (`crates/core/src/timer.rs`)

A 4-ary min-heap of entries keyed on (deadline, sequence number).  Whether a payload is cancelled
is read off the payload, so the operations take that reading as a parameter, and they return the
payloads they called `mark_unscheduled` on, in order.  `Ticks` are compared and never computed
with; `seq` is the `u64` of the source and wraps.
-/

namespace Cadeloop.Core.Timer

open Cadeloop.Reasoning

variable {T : Type*}

structure Entry (T : Type*) where
  deadline : Nat
  -- tie-breaker: FIFO order among equal deadlines
  seq : Nat
  payload : T

def Entry.key (e : Entry T) : Nat ×ₗ Nat := toLex (e.deadline, e.seq)

def arity : Nat := 4

instance : NeZero arity := ⟨by decide⟩

structure TimerHeap (T : Type*) where
  entries : Array (Entry T)
  seq : Nat
  -- entries believed cancelled, kept lazily
  tombstones : Nat
  -- payloads of removed tombstones
  graveyard : List T

namespace TimerHeap

/-! ## 1. Operations -/

def new : TimerHeap T := { entries := #[], seq := 0, tombstones := 0, graveyard := [] }

def takeGraveyard (h : TimerHeap T) : List T × TimerHeap T :=
  (h.graveyard, { h with graveyard := [] })

def schedule (h : TimerHeap T) (deadline : Nat) (payload : T) : TimerHeap T :=
  { h with
    seq := (h.seq + 1) % 2 ^ 64
    entries := DaryHeap.insert Entry.key arity h.entries ⟨deadline, h.seq, payload⟩ }

-- the entry itself is `entries[0]`, which every caller has read
def popTop (h : TimerHeap T) : TimerHeap T :=
  { h with entries := DaryHeap.popRoot Entry.key arity h.entries }

-- a tombstone leaves the heap: the loop body shared by `pop_expired` and `drop_cancelled_top`
def bury (h : TimerHeap T) (payload : T) : TimerHeap T :=
  { h.popTop with graveyard := h.graveyard ++ [payload], tombstones := h.tombstones - 1 }

theorem bury_size {h : TimerHeap T} {first : Entry T} (hf : h.entries[0]? = some first) (p : T) :
    (h.bury p).entries.size < h.entries.size := by
  have hperm := (DaryHeap.popRoot_perm Entry.key arity hf).length_eq
  rw [List.length_cons, Array.length_toList, Array.length_toList] at hperm
  show (DaryHeap.popRoot Entry.key arity h.entries).size < _
  omega

variable (cancelled : T → Bool)

/-- Rebuild the heap without tombstoned entries. -/
def compact (h : TimerHeap T) : TimerHeap T × List T :=
  let (entries, live) := DaryHeap.partition (fun e => !cancelled e.payload) h.entries
  let dead := (entries.toList.drop live).map Entry.payload
  ({ h with
      entries := DaryHeap.heapify Entry.key arity (entries.toList.take live).toArray
      graveyard := h.graveyard ++ dead
      tombstones := 0 }, dead)

def noteCancelled (h : TimerHeap T) (n : Nat) : TimerHeap T × List T :=
  let h := { h with tombstones := min (h.tombstones + n) (2 ^ 64 - 1) }
  if h.tombstones * 2 % 2 ^ 64 > h.entries.size then h.compact cancelled else (h, [])

def dropCancelledTop (h : TimerHeap T) : TimerHeap T × List T :=
  match _hf : h.entries[0]? with
  | none => (h, [])
  | some first =>
    if cancelled first.payload then
      let r := (h.bury first.payload).dropCancelledTop
      (r.1, first.payload :: r.2)
    else (h, [])
termination_by h.entries.size
decreasing_by exact bury_size _hf _

/-- Deadline of the earliest live entry; pops tombstones from the top. -/
def nextDeadline (h : TimerHeap T) : Option Nat × TimerHeap T × List T :=
  let (h, marks) := h.dropCancelledTop cancelled
  (h.entries[0]?.map Entry.deadline, h, marks)

/-- Pop the earliest live entry if its deadline is at most `now`. -/
def popExpired (h : TimerHeap T) (now : Nat) : Option T × TimerHeap T × List T :=
  match _hf : h.entries[0]? with
  | none => (none, h, [])
  | some first =>
    -- a cancelled entry above `now` is left for later
    if first.deadline > now then (none, h, [])
    else if !cancelled first.payload then (some first.payload, h.popTop, [first.payload])
    else
      let r := (h.bury first.payload).popExpired now
      (r.1, r.2.1, first.payload :: r.2.2)
termination_by h.entries.size
decreasing_by exact bury_size _hf _

/-- Remove every entry, the graveyard behind them. -/
def drainAll (h : TimerHeap T) : List T × TimerHeap T × List T :=
  let out := h.entries.toList.map Entry.payload
  (out ++ h.graveyard, { h with entries := #[], graveyard := [], tombstones := 0 }, out)

/-! ## 2. What the operations do -/

def payloads (h : TimerHeap T) : List T := h.entries.toList.map Entry.payload

def Ordered (h : TimerHeap T) : Prop := DaryHeap.HeapFrom Entry.key arity 0 h.entries

theorem ordered_empty {h : TimerHeap T} (he : h.entries = #[]) : h.Ordered := by
  intro c _ _ x y _ hy
  rw [he] at hy
  cases hy

theorem schedule_perm (h : TimerHeap T) (deadline : Nat) (payload : T) :
    (h.schedule deadline payload).entries.toList.Perm
      (⟨deadline, h.seq, payload⟩ :: h.entries.toList) :=
  DaryHeap.insert_perm Entry.key arity h.entries _

theorem schedule_ordered {h : TimerHeap T} (ho : h.Ordered) (deadline : Nat) (payload : T) :
    (h.schedule deadline payload).Ordered :=
  DaryHeap.insert_heap Entry.key arity ho _

theorem popTop_perm {h : TimerHeap T} {first : Entry T} (hf : h.entries[0]? = some first) :
    h.entries.toList.Perm (first :: h.popTop.entries.toList) :=
  DaryHeap.popRoot_perm Entry.key arity hf

theorem popTop_ordered {h : TimerHeap T} (ho : h.Ordered) : h.popTop.Ordered :=
  DaryHeap.popRoot_heap Entry.key arity ho

theorem top_least {h : TimerHeap T} (ho : h.Ordered) {first : Entry T}
    (hf : h.entries[0]? = some first) : ∀ e ∈ h.entries.toList, first.key ≤ e.key := by
  intro e he
  obtain ⟨i, hi⟩ := List.mem_iff_getElem?.mp he
  rw [Array.getElem?_toList] at hi
  have hib : i < h.entries.size := (Array.getElem?_eq_some_iff.mp hi).1
  exact ho.root_le i hib first e hf hi

/-- `h'` is `h` after some cancelled entries left it for the graveyard, each of them told
`mark_unscheduled`. -/
structure Buries (h h' : TimerHeap T) (marks : List T) : Prop where
  entries : ∃ dead : List (Entry T), h.entries.toList.Perm (dead ++ h'.entries.toList) ∧
    dead.map Entry.payload = marks ∧ ∀ e ∈ dead, cancelled e.payload = true
  graveyard : h'.graveyard = h.graveyard ++ marks
  seq : h'.seq = h.seq
  ordered : h.Ordered → h'.Ordered

namespace Buries

variable {cancelled} {h h' h'' : TimerHeap T} {marks marks' : List T}

theorem none (h : TimerHeap T) : Buries cancelled h h [] :=
  ⟨⟨[], List.Perm.refl _, rfl, by simp⟩, (List.append_nil _).symm, rfl, id⟩

theorem trans (hb : Buries cancelled h h' marks) (hb' : Buries cancelled h' h'' marks') :
    Buries cancelled h h'' (marks ++ marks') := by
  obtain ⟨dead, hperm, hmarks, hdead⟩ := hb.entries
  obtain ⟨dead', hperm', hmarks', hdead'⟩ := hb'.entries
  refine ⟨⟨dead ++ dead', ?_, ?_, ?_⟩, ?_, hb'.seq.trans hb.seq, hb'.ordered ∘ hb.ordered⟩
  · rw [List.append_assoc]
    exact hperm.trans (hperm'.append_left dead)
  · rw [List.map_append, hmarks, hmarks']
  · exact List.forall_mem_append.mpr ⟨hdead, hdead'⟩
  · rw [hb'.graveyard, hb.graveyard, List.append_assoc]

theorem bury {first : Entry T} (hf : h.entries[0]? = some first)
    (hc : cancelled first.payload = true) :
    Buries cancelled h (h.bury first.payload) [first.payload] :=
  ⟨⟨[first], popTop_perm hf, rfl, by simpa using hc⟩, rfl, rfl, popTop_ordered⟩

theorem compact (h : TimerHeap T) :
    Buries cancelled h (h.compact cancelled).1 (h.compact cancelled).2 := by
  have hspec := DaryHeap.partition_spec (fun e : Entry T => !cancelled e.payload) h.entries
  unfold TimerHeap.compact
  generalize DaryHeap.partition (fun e : Entry T => !cancelled e.payload) h.entries = r at hspec
  obtain ⟨entries, live⟩ := r
  obtain ⟨hlive, hdead⟩ := hspec
  dsimp only at hlive hdead ⊢
  refine ⟨⟨entries.toList.drop live, ?_, rfl, ?_⟩, rfl, rfl, fun _ => ?_⟩
  · have hheap := DaryHeap.heapify_perm Entry.key arity (entries.toList.take live).toArray
    rw [hlive] at hheap
    have hsplit := List.filter_append_perm (fun e : Entry T => !cancelled e.payload)
      h.entries.toList
    refine hsplit.symm.trans (List.perm_append_comm.trans ?_)
    rw [hlive]
    exact hdead.symm.append hheap.symm
  · intro e he
    have hmem := hdead.mem_iff.mp he
    simpa using (List.mem_filter.mp hmem).2
  · exact DaryHeap.heapify_heap Entry.key arity _

theorem noteCancelled (h : TimerHeap T) (n : Nat) :
    Buries cancelled h (h.noteCancelled cancelled n).1 (h.noteCancelled cancelled n).2 := by
  have hcount : Buries cancelled h
      { h with tombstones := min (h.tombstones + n) (2 ^ 64 - 1) } [] :=
    ⟨⟨[], List.Perm.refl _, rfl, by simp⟩, (List.append_nil _).symm, rfl, id⟩
  unfold TimerHeap.noteCancelled
  dsimp only
  split
  · exact hcount.trans (compact _)
  · exact hcount

theorem dropCancelledTop (h : TimerHeap T) :
    Buries cancelled h (h.dropCancelledTop cancelled).1 (h.dropCancelledTop cancelled).2 ∧
      ∀ first, (h.dropCancelledTop cancelled).1.entries[0]? = some first →
        cancelled first.payload = false := by
  induction h using TimerHeap.dropCancelledTop.induct cancelled with
  | case1 h hf =>
    have heq : h.dropCancelledTop cancelled = (h, []) := by
      rw [TimerHeap.dropCancelledTop]
      split <;> simp_all
    rw [heq]
    exact ⟨none h, fun first hfirst => by rw [hf] at hfirst; cases hfirst⟩
  | case2 h first hf hc ih =>
    have heq : h.dropCancelledTop cancelled =
        (((h.bury first.payload).dropCancelledTop cancelled).1,
          first.payload :: ((h.bury first.payload).dropCancelledTop cancelled).2) := by
      rw [TimerHeap.dropCancelledTop]
      split <;> simp_all
    rw [heq]
    exact ⟨(bury hf hc).trans ih.1, ih.2⟩
  | case3 h first hf hc =>
    have heq : h.dropCancelledTop cancelled = (h, []) := by
      rw [TimerHeap.dropCancelledTop]
      split <;> simp_all
    rw [heq]
    refine ⟨none h, fun first' hfirst => ?_⟩
    rw [hf] at hfirst
    injection hfirst with hfirst
    rw [← hfirst]
    simpa using hc

end Buries

/-- What `pop_expired` does: it buries, then stops at a top that is not due, or pops a live one
that is. -/
structure Expires (h : TimerHeap T) (now : Nat) (r : Option T) (h' : TimerHeap T)
    (marks : List T) : Prop where
  cases : ∃ h₁ marks₁, Buries cancelled h h₁ marks₁ ∧
    ((r = none ∧ h' = h₁ ∧ marks = marks₁ ∧ ∀ first, h₁.entries[0]? = some first →
        now < first.deadline) ∨
      ∃ first, h₁.entries[0]? = some first ∧ first.deadline ≤ now ∧
        cancelled first.payload = false ∧ r = some first.payload ∧ h' = h₁.popTop ∧
        marks = marks₁ ++ [first.payload])

theorem popExpired_expires (h : TimerHeap T) (now : Nat) :
    Expires cancelled h now (h.popExpired cancelled now).1 (h.popExpired cancelled now).2.1
      (h.popExpired cancelled now).2.2 := by
  induction h using TimerHeap.popExpired.induct cancelled now with
  | case1 h hf =>
    have heq : h.popExpired cancelled now = (none, h, []) := by
      rw [popExpired]
      split <;> simp_all
    rw [heq]
    exact ⟨h, [], Buries.none h, .inl ⟨rfl, rfl, rfl, fun first hfirst => by
      rw [hf] at hfirst; cases hfirst⟩⟩
  | case2 h first hf hlate =>
    have heq : h.popExpired cancelled now = (none, h, []) := by
      rw [popExpired]
      split <;> simp_all
    rw [heq]
    refine ⟨h, [], Buries.none h, .inl ⟨rfl, rfl, rfl, fun first' hfirst => ?_⟩⟩
    rw [hf] at hfirst
    injection hfirst with hfirst
    rw [← hfirst]
    exact hlate
  | case3 h first hf hdue hlive =>
    have heq : h.popExpired cancelled now = (some first.payload, h.popTop, [first.payload]) := by
      rw [popExpired]
      split <;> simp_all
    rw [heq]
    exact ⟨h, [], Buries.none h, .inr ⟨first, hf, by omega, by simpa using hlive, rfl, rfl, rfl⟩⟩
  | case4 h first hf hdue hlive ih =>
    have heq : h.popExpired cancelled now =
        (((h.bury first.payload).popExpired cancelled now).1,
          ((h.bury first.payload).popExpired cancelled now).2.1,
          first.payload :: ((h.bury first.payload).popExpired cancelled now).2.2) := by
      rw [popExpired]
      split <;> simp_all
    have hb : Buries cancelled h (h.bury first.payload) [first.payload] :=
      Buries.bury hf (by simpa using hlive)
    obtain ⟨h₁, marks₁, hb₁, hcases⟩ := ih.cases
    rw [heq]
    refine ⟨h₁, first.payload :: marks₁, hb.trans hb₁, ?_⟩
    rcases hcases with ⟨hr, hh, hm, hlate⟩ | ⟨top, htop, hdl, hl, hr, hh, hm⟩
    · exact .inl ⟨hr, hh, by rw [hm], hlate⟩
    · exact .inr ⟨top, htop, hdl, hl, hr, hh, by rw [hm, List.cons_append]⟩

end TimerHeap

end Cadeloop.Core.Timer
