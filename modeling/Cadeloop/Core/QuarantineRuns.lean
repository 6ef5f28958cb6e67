import Cadeloop.Core.Quarantine

/-!
# Runs of the quarantine

What a sentinel covers has no packet behind it, and what was held when a short dequeue began has
none on the port.  `drained` counts the ids held at its mark from the front, though a sentinel may
have released some of them since: it then releases as many of those held during the poll.
-/

namespace Cadeloop.Core.Iocp

open Cadeloop.Reasoning

variable {T : Type*} {batch : Nat}

/-! ## 1. The invariant -/

/-- No packet of these ids is among the packets. -/
def Clear (ids : List T) (packets : List (Packet T)) : Prop := ∀ id ∈ ids, Packet.io id ∉ packets

/-- Behind a sentinel of this generation there is no packet of these ids. -/
def Behind (generation : UInt32) (ids : List T) (packets : List (Packet T)) : Prop :=
  ∀ pre post, packets = pre ++ .sentinel generation :: post → Clear ids post

/-- Of the ids held when the dequeue began, those still held come first; and if it came back short,
they have no packet on the port. -/
structure Polled (batch : Nat) (s : IocpBackend T) (p : Poll T) : Prop where
  mark_le : p.mark ≤ s.quarantine.held.length + p.arrived
  arrived_le : p.arrived ≤ p.mark
  uncovered : ∀ generation covered, s.quarantine.sentinel = some (generation, covered) →
    p.arrived + covered ≤ p.mark
  short : p.dequeued < batch → Clear (s.quarantine.held.take (p.mark - p.arrived)) s.port

structure Good (batch : Nat) (s : IocpBackend T) : Prop where
  order : s.everHeld = s.released ++ s.quarantine.held
  nodup : s.everHeld.Nodup
  covered_le : ∀ generation covered, s.quarantine.sentinel = some (generation, covered) →
    covered ≤ s.quarantine.held.length
  behind : ∀ generation covered, s.quarantine.sentinel = some (generation, covered) →
    Behind generation (s.quarantine.held.take covered) s.pending
  polled : ∀ p, s.poll = some p → Polled batch s p

theorem Clear.mono {ids ids' : List T} {packets : List (Packet T)} (h : Clear ids packets)
    (hsub : ∀ id ∈ ids', id ∈ ids) : Clear ids' packets := fun id hid => h id (hsub id hid)

theorem Clear.append {ids : List T} {packets packets' : List (Packet T)} :
    Clear ids (packets ++ packets') ↔ Clear ids packets ∧ Clear ids packets' := by
  constructor
  · intro h
    exact ⟨fun id hid hin => h id hid (List.mem_append_left _ hin),
      fun id hid hin => h id hid (List.mem_append_right _ hin)⟩
  · rintro ⟨h, h'⟩ id hid hin
    rcases List.mem_append.mp hin with hin | hin
    · exact h id hid hin
    · exact h' id hid hin

theorem Behind.mono {generation : UInt32} {ids ids' : List T} {packets : List (Packet T)}
    (h : Behind generation ids packets) (hsub : ∀ id ∈ ids', id ∈ ids) :
    Behind generation ids' packets := fun pre post hsplit => (h pre post hsplit).mono hsub

theorem Behind.tail {generation : UInt32} {ids : List T} {p : Packet T} {packets : List (Packet T)}
    (h : Behind generation ids (p :: packets)) : Behind generation ids packets := by
  intro pre post hsplit
  apply h (p :: pre) post
  rw [hsplit, List.cons_append]

theorem Behind.queue {generation : UInt32} {ids : List T} {packets : List (Packet T)} {id : T}
    (h : Behind generation ids packets) (hid : id ∉ ids) :
    Behind generation ids (packets ++ [.io id]) := by
  intro pre post hsplit
  rcases List.eq_nil_or_concat post with rfl | ⟨init, last, rfl⟩
  · -- the last packet is not a sentinel
    have hlast := (List.append_inj' hsplit rfl).2
    injection hlast with hlast
    cases hlast
  · rw [List.concat_eq_append] at hsplit ⊢
    rw [show pre ++ Packet.sentinel generation :: (init ++ [last]) =
      (pre ++ .sentinel generation :: init) ++ [last] by simp] at hsplit
    obtain ⟨hpackets, hlast⟩ := List.append_inj' hsplit rfl
    injection hlast with hlast
    rw [Clear.append]
    refine ⟨h pre init hpackets, fun id' hid' hin => ?_⟩
    rw [← hlast, List.mem_singleton] at hin
    injection hin with hin
    exact hid (hin ▸ hid')

/-- A sentinel at the back has nothing behind it, if no other has its generation. -/
theorem behind_last {generation : UInt32} {packets : List (Packet T)}
    (hfresh : Packet.sentinel generation ∉ packets) (ids : List T) :
    Behind generation ids (packets ++ [.sentinel generation]) := by
  intro pre post hsplit
  rcases List.eq_nil_or_concat post with rfl | ⟨init, last, rfl⟩
  · intro id _
    exact List.not_mem_nil
  · rw [List.concat_eq_append] at hsplit
    rw [show pre ++ Packet.sentinel generation :: (init ++ [last]) =
      (pre ++ .sentinel generation :: init) ++ [last] by simp] at hsplit
    have hpackets := (List.append_inj' hsplit rfl).1
    exact absurd (hpackets ▸ List.mem_append_right pre List.mem_cons_self) hfresh

theorem good_new : Good batch (IocpBackend.new : IocpBackend T) where
  order := rfl
  nodup := List.nodup_nil
  covered_le := fun _ _ h => by cases h
  behind := fun _ _ h => by cases h
  polled := fun _ h => by cases h

/-! ## 2. What may go wrong -/

/-- The ids that `drained` takes for ones held at the mark: a sentinel of the poll released as many
of those. -/
def IocpBackend.miscounted (s : IocpBackend T) (p : Poll T) : List T :=
  (s.quarantine.held.drop (p.mark - p.arrived)).take p.arrived

/-- A short poll ends with no packet of a miscounted id on the port. -/
def Harmless (batch : Nat) (s : IocpBackend T) : Step T → Prop
  | .finish _ => ∀ p, s.poll = some p → p.entries = [] → p.dequeued < batch →
      Clear (s.miscounted p) s.port
  | _ => True

/-- No sentinel of the next generation, from 2^32 sentinels ago, is still on the port. -/
def Fresh (s : IocpBackend T) : Step T → Prop
  | .finish _ => Packet.sentinel (s.quarantine.nextSentinel + 1) ∉ s.port
  | _ => True

/-! ## 3. Entries -/

variable {s : IocpBackend T}

theorem mem_of_mem_take_drop {l : List T} {a : T} {n k : Nat} (h : a ∈ (l.drop n).take k) :
    a ∈ l.take (n + k) := by
  rw [List.take_add]
  exact List.mem_append_right _ h

/-- The sentinel on the port covers as many ids as it says. -/
theorem Good.covers (h : Good batch s) {generation : UInt32} {covered : Nat}
    (hsentinel : s.quarantine.sentinel = some (generation, covered)) :
    s.quarantine.covers generation = covered := by
  unfold Quarantine.covers
  rw [hsentinel]
  dsimp only
  rw [if_pos rfl, Nat.min_eq_left (h.covered_le generation covered hsentinel)]

theorem covers_other {q : Quarantine T} {generation : UInt32}
    (hother : ∀ covered, q.sentinel ≠ some (generation, covered)) : q.covers generation = 0 := by
  unfold Quarantine.covers
  split
  · rename_i g covered hsentinel
    by_cases hg : g = generation
    · subst hg
      exact absurd hsentinel (hother covered)
    · rw [if_neg hg]
  · rfl

theorem sentinelArrived_other {q : Quarantine T} {generation : UInt32}
    (hother : ∀ covered, q.sentinel ≠ some (generation, covered)) :
    q.sentinelArrived generation = ([], q) := by
  have hany : (q.sentinel.any fun s => decide (s.1 = generation)) = false := by
    cases hsentinel : q.sentinel with
    | none => rfl
    | some s =>
      obtain ⟨g, covered⟩ := s
      refine decide_eq_false fun hg => hother covered ?_
      rw [hsentinel]
      exact congrArg (fun g => some (g, covered)) hg
  unfold Quarantine.sentinelArrived
  rw [covers_other hother, hany]
  rfl

theorem sentinelArrived_current {q : Quarantine T} {generation : UInt32} {covered : Nat}
    (hsentinel : q.sentinel = some (generation, covered)) (hcovers : q.covers generation = covered) :
    q.sentinelArrived generation =
      (q.held.take covered, { q with held := q.held.drop covered, sentinel := none }) := by
  unfold Quarantine.sentinelArrived
  rw [hcovers, hsentinel]
  dsimp only [Option.any_some]
  rw [if_pos (decide_eq_true rfl)]

/-- An operation's packet, or a sentinel of another generation, is taken off and that is all. -/
theorem Good.skip (h : Good batch s) {mark dequeued arrived : Nat} {entry : Packet T}
    {entries : List (Packet T)} (hpoll : s.poll = some ⟨mark, dequeued, entry :: entries, arrived⟩) :
    Good batch { s with poll := some ⟨mark, dequeued, entries, arrived⟩ } := by
  have hpolled := h.polled _ hpoll
  have hpending : s.pending = entry :: (entries ++ s.port) := by
    rw [IocpBackend.pending, hpoll]
    rfl
  refine ⟨h.order, h.nodup, h.covered_le, fun generation covered hsentinel => ?_, fun p hp => ?_⟩
  · have hbehind := h.behind generation covered hsentinel
    rw [hpending] at hbehind
    exact hbehind.tail
  · injection hp with hp
    subst hp
    exact ⟨hpolled.mark_le, hpolled.arrived_le, hpolled.uncovered, hpolled.short⟩

/-- The sentinel comes back: what it covers is released, and none of it has a packet left. -/
theorem Good.arrive (h : Good batch s) {mark dequeued arrived covered : Nat} {generation : UInt32}
    {entries : List (Packet T)}
    (hpoll : s.poll = some ⟨mark, dequeued, .sentinel generation :: entries, arrived⟩)
    (hsentinel : s.quarantine.sentinel = some (generation, covered)) :
    Clear (s.quarantine.held.take covered) (entries ++ s.port) ∧
      Good batch { s with
        quarantine := { s.quarantine with held := s.quarantine.held.drop covered, sentinel := none }
        poll := some ⟨mark, dequeued, entries, arrived + (s.quarantine.held.take covered).length⟩
        released := s.released ++ s.quarantine.held.take covered } := by
  have hpolled := h.polled _ hpoll
  have hle := h.covered_le generation covered hsentinel
  have hpending : s.pending = .sentinel generation :: (entries ++ s.port) := by
    rw [IocpBackend.pending, hpoll]
    rfl
  have hlength : (s.quarantine.held.take covered).length = covered := List.length_take_of_le hle
  refine ⟨h.behind generation covered hsentinel [] _ hpending, ?_, h.nodup, ?_, ?_, ?_⟩
  · show s.everHeld = s.released ++ s.quarantine.held.take covered ++ s.quarantine.held.drop covered
    rw [List.append_assoc, List.take_append_drop]
    exact h.order
  · exact fun _ _ hnone => nomatch hnone
  · exact fun _ _ hnone => nomatch hnone
  · intro p hp
    injection hp with hp
    subst hp
    have hmark := hpolled.mark_le
    have hroom := hpolled.uncovered generation covered hsentinel
    dsimp only at hmark hroom
    refine ⟨?_, ?_, (fun _ _ hnone => nomatch hnone), fun hshort => ?_⟩
    · show mark ≤ (s.quarantine.held.drop covered).length +
        (arrived + (s.quarantine.held.take covered).length)
      rw [hlength, List.length_drop]
      omega
    · show arrived + (s.quarantine.held.take covered).length ≤ mark
      rw [hlength]
      exact hroom
    · show Clear ((s.quarantine.held.drop covered).take
        (mark - (arrived + (s.quarantine.held.take covered).length))) s.port
      rw [hlength]
      apply (hpolled.short hshort).mono
      intro id hid
      have hin := mem_of_mem_take_drop hid
      rwa [show covered + (mark - (arrived + covered)) = mark - arrived by omega] at hin

/-- How many ids `drained` releases. -/
def Quarantine.counted (q : Quarantine T) (mark dequeued batch : Nat) : Nat :=
  if dequeued < batch then min mark q.held.length else 0

/-- The oldest `n` ids go; the sentinel on the port covers that many fewer, or one is posted that
covers the ids that stay. -/
structure Drains (q : Quarantine T) (n : Nat) (r : List T × Quarantine T × List (Packet T)) : Prop where
  released : r.1 = q.held.take n
  held : r.2.1.held = q.held.drop n
  sentinel : (r.2.2 = [] ∧ r.2.1.sentinel = q.sentinel.map fun s => (s.1, s.2 - n)) ∨
    (r.2.2 = [.sentinel (q.nextSentinel + 1)] ∧
      r.2.1.sentinel = some (q.nextSentinel + 1, (q.held.drop n).length))

theorem portDrained_drains (q : Quarantine T) (mark dequeued batch : Nat) (posts : Bool) :
    Drains q (q.counted mark dequeued batch) (portDrained q mark dequeued batch posts) := by
  have hdrained : q.drained mark dequeued batch =
      (q.held.take (q.counted mark dequeued batch),
        { q with
          held := q.held.drop (q.counted mark dequeued batch)
          sentinel := q.sentinel.map fun s => (s.1, s.2 - q.counted mark dequeued batch) }) := rfl
  unfold portDrained
  by_cases hempty : q.held.isEmpty
  · rw [if_pos hempty]
    have hnil := List.isEmpty_iff.mp hempty
    have hzero : q.counted mark dequeued batch = 0 := by
      unfold Quarantine.counted
      rw [hnil, List.length_nil, Nat.min_zero, ite_self]
    rw [hzero]
    refine ⟨rfl, rfl, .inl ⟨rfl, ?_⟩⟩
    cases q.sentinel <;> rfl
  rw [if_neg hempty, hdrained]
  generalize q.counted mark dequeued batch = n
  dsimp only [Quarantine.sentinelWanted]
  split
  · rename_i generation hwanted
    split at hwanted
    · cases hwanted
    · rename_i hneeded
      injection hwanted with hwanted
      subst hwanted
      rw [if_neg hneeded]
      cases posts with
      | true => exact ⟨rfl, rfl, .inr ⟨rfl, rfl⟩⟩
      | false => exact ⟨rfl, rfl, .inl ⟨rfl, rfl⟩⟩
  · rename_i hnone
    split at hnone
    · rename_i hunneeded
      rw [if_pos hunneeded]
      exact ⟨rfl, rfl, .inl ⟨rfl, rfl⟩⟩
    · cases hnone

/-- A short dequeue releases ids that are clear, and the miscounted ones. -/
theorem clear_counted {p : Poll T} (hpolled : Polled batch s p) (hshort : p.dequeued < batch) :
    Clear (s.miscounted p) s.port ↔ Clear (s.quarantine.held.take p.mark) s.port := by
  have hsplit : s.quarantine.held.take p.mark =
      s.quarantine.held.take (p.mark - p.arrived) ++ s.miscounted p := by
    unfold IocpBackend.miscounted
    rw [← List.take_add, Nat.sub_add_cancel hpolled.arrived_le]
  rw [hsplit]
  constructor
  · intro hmis id hid
    rcases List.mem_append.mp hid with hid | hid
    · exact hpolled.short hshort id hid
    · exact hmis id hid
  · exact fun hall => hall.mono fun id hid => List.mem_append_right _ hid

theorem Good.drained (h : Good batch s) {mark dequeued arrived n : Nat}
    (hpoll : s.poll = some ⟨mark, dequeued, [], arrived⟩) {released : List T} {q : Quarantine T}
    {posted : List (Packet T)} (hdrains : Drains s.quarantine n (released, q, posted))
    (hfresh : Packet.sentinel (s.quarantine.nextSentinel + 1) ∉ s.port) :
    Good batch { s with
      quarantine := q
      port := s.port ++ posted
      poll := none
      released := s.released ++ released } := by
  have hpending : s.pending = s.port := by
    rw [IocpBackend.pending, hpoll]
    rfl
  have hheld : q.held = s.quarantine.held.drop n := hdrains.held
  have hreleased : released = s.quarantine.held.take n := hdrains.released
  refine ⟨?_, h.nodup, ?_, ?_, fun p hp => nomatch hp⟩
  · show s.everHeld = s.released ++ released ++ q.held
    rw [hreleased, hheld, List.append_assoc, List.take_append_drop]
    exact h.order
  · intro generation covered hsentinel
    have hsentinel : q.sentinel = some (generation, covered) := hsentinel
    show covered ≤ q.held.length
    rw [hheld]
    rcases hdrains.sentinel with ⟨-, hmap⟩ | ⟨-, hnew⟩
    · rw [hmap, Option.map_eq_some_iff] at hsentinel
      obtain ⟨⟨g, c⟩, hold, heq⟩ := hsentinel
      injection heq with hg hc
      have hle := h.covered_le g c hold
      rw [List.length_drop]
      dsimp only at hc
      omega
    · rw [hnew] at hsentinel
      injection hsentinel with heq
      injection heq with hg hc
      exact hc.ge
  · intro generation covered hsentinel
    have hsentinel : q.sentinel = some (generation, covered) := hsentinel
    show Behind generation (q.held.take covered) (s.port ++ posted)
    rw [hheld]
    rcases hdrains.sentinel with ⟨hnone, hmap⟩ | ⟨hone, hnew⟩
    · rw [hmap, Option.map_eq_some_iff] at hsentinel
      obtain ⟨⟨g, c⟩, hold, heq⟩ := hsentinel
      injection heq with hg hc
      have hbehind := h.behind g c hold
      rw [hpending] at hbehind
      have hposted : posted = [] := hnone
      rw [hposted, List.append_nil, ← hg, ← hc]
      apply hbehind.mono
      intro id hid
      rcases Nat.le_total n c with hle | hle
      · have hin := mem_of_mem_take_drop hid
        rwa [Nat.add_sub_cancel' hle] at hin
      · -- the sentinel covers nothing any more
        rw [Nat.sub_eq_zero_of_le hle] at hid
        cases hid
    · rw [hnew] at hsentinel
      injection hsentinel with heq
      injection heq with hg hc
      have hposted : posted = [.sentinel (s.quarantine.nextSentinel + 1)] := hone
      rw [hposted, ← hg]
      exact behind_last hfresh _

/-! ## 4. The steps -/

section Steps

variable [DecidableEq T]

/-- What a step recycles has no packet left. -/
def Safe (batch : Nat) (s : IocpBackend T) (step : Step T) : Prop :=
  Clear (s.recycles batch step) (s.step batch step).pending

theorem Good.queue (h : Good batch s) (id : T) : Good batch (s.step batch (.queue id)) := by
  unfold IocpBackend.step
  dsimp only
  by_cases hever : id ∈ s.everHeld
  · rw [if_pos hever]
    exact h
  rw [if_neg hever]
  have hheld : id ∉ s.quarantine.held := by
    rw [h.order] at hever
    exact fun hin => hever (List.mem_append_right _ hin)
  have hclear : ∀ n, Clear (s.quarantine.held.take n) [Packet.io id] := by
    intro n id' hid' hin
    rw [List.mem_singleton] at hin
    injection hin with hin
    exact hheld (hin ▸ List.mem_of_mem_take hid')
  refine ⟨h.order, h.nodup, h.covered_le, fun generation covered hsentinel => ?_, fun p hp => ?_⟩
  · have hqueued := (h.behind generation covered hsentinel).queue
      (fun hin => hheld (List.mem_of_mem_take hin))
    rw [IocpBackend.pending, List.append_assoc] at hqueued
    exact hqueued
  · have hpolled := h.polled p hp
    exact ⟨hpolled.mark_le, hpolled.arrived_le, hpolled.uncovered,
      fun hshort => Clear.append.mpr ⟨hpolled.short hshort, hclear _⟩⟩

theorem Good.hold (h : Good batch s) (id : T) : Good batch (s.step batch (.hold id)) := by
  unfold IocpBackend.step
  dsimp only
  by_cases hever : id ∈ s.everHeld
  · rw [if_pos hever]
    exact h
  rw [if_neg hever]
  -- the ids counted from the front are the same
  have htake : ∀ n ≤ s.quarantine.held.length,
      (s.quarantine.held ++ [id]).take n = s.quarantine.held.take n :=
    fun n hn => List.take_append_of_le_length hn
  refine ⟨?_, ?_, fun generation covered hsentinel => ?_, fun generation covered hsentinel => ?_,
    fun p hp => ?_⟩
  · show s.everHeld ++ [id] = s.released ++ (s.quarantine.held ++ [id])
    rw [h.order, List.append_assoc]
  · exact List.nodup_append.mpr ⟨h.nodup, List.nodup_singleton id, fun a ha b hb hab =>
      hever (List.mem_singleton.mp hb ▸ hab ▸ ha)⟩
  · have hle := h.covered_le generation covered hsentinel
    show covered ≤ (s.quarantine.held ++ [id]).length
    rw [List.length_append]
    omega
  · show Behind generation ((s.quarantine.held ++ [id]).take covered) s.pending
    rw [htake covered (h.covered_le generation covered hsentinel)]
    exact h.behind generation covered hsentinel
  · have hpolled := h.polled p hp
    have hmark := hpolled.mark_le
    refine ⟨?_, hpolled.arrived_le, hpolled.uncovered, fun hshort => ?_⟩
    · show p.mark ≤ (s.quarantine.held ++ [id]).length + p.arrived
      rw [List.length_append]
      omega
    · show Clear ((s.quarantine.held ++ [id]).take (p.mark - p.arrived)) s.port
      rw [htake _ (by omega)]
      exact hpolled.short hshort

theorem Good.dequeue (h : Good batch s) : Good batch (s.step batch .dequeue) := by
  unfold IocpBackend.step
  dsimp only
  cases hpoll : s.poll with
  | some p => exact h
  | none =>
    have hpending : s.pending = s.port := by
      rw [IocpBackend.pending, hpoll]
      rfl
    refine ⟨h.order, h.nodup, h.covered_le, fun generation covered hsentinel => ?_, fun p hp => ?_⟩
    · have hbehind := h.behind generation covered hsentinel
      rw [hpending] at hbehind
      show Behind generation _ (s.port.take _ ++ s.port.drop _)
      rw [List.take_append_drop]
      exact hbehind
    · injection hp with hp
      subst hp
      refine ⟨Nat.le_refl _, Nat.zero_le _, fun generation covered hsentinel => ?_, fun hshort => ?_⟩
      · rw [Nat.zero_add]
        exact h.covered_le generation covered hsentinel
      · -- a short dequeue empties the port
        have hempty : s.port.drop (min s.port.length batch) = [] := by
          rw [List.drop_eq_nil_iff]
          dsimp only at hshort
          omega
        intro id _
        show Packet.io id ∉ s.port.drop _
        rw [hempty]
        exact List.not_mem_nil

theorem Good.translate (h : Good batch s) :
    Safe batch s .translate ∧ Good batch (s.step batch .translate) := by
  unfold Safe IocpBackend.recycles IocpBackend.step
  dsimp only
  rcases hpoll : s.poll with _ | ⟨mark, dequeued, _ | ⟨entry, entries⟩, arrived⟩
  · exact ⟨(fun id hid => nomatch hid), h⟩
  · exact ⟨(fun id hid => nomatch hid), h⟩
  cases entry with
  | io id => exact ⟨(fun id hid => nomatch hid), h.skip hpoll⟩
  | sentinel generation =>
    dsimp only
    by_cases hcurrent : ∃ covered, s.quarantine.sentinel = some (generation, covered)
    · obtain ⟨covered, hsentinel⟩ := hcurrent
      rw [sentinelArrived_current hsentinel (h.covers hsentinel)]
      exact h.arrive hpoll hsentinel
    · rw [sentinelArrived_other fun covered hsentinel => hcurrent ⟨covered, hsentinel⟩]
      refine ⟨(fun id hid => nomatch hid), ?_⟩
      have hskip := h.skip hpoll
      rw [List.append_nil]
      exact hskip

theorem Good.drainAll (h : Good batch s) : Good batch (s.step batch .drainAll) := by
  unfold IocpBackend.step
  dsimp only
  cases hpoll : s.poll with
  | some p => exact h
  | none =>
    refine ⟨?_, h.nodup, (fun _ _ hnone => nomatch hnone), (fun _ _ hnone => nomatch hnone),
      fun p hp => nomatch hp⟩
    show s.everHeld = s.released ++ s.quarantine.held ++ []
    rw [List.append_nil]
    exact h.order

/-- The poll ends.  What is left of the ids held at the mark is clear of packets; what `drained`
releases besides is what was miscounted. -/
theorem Good.finish (h : Good batch s) (posts : Bool) (hfresh : Fresh s (.finish posts)) :
    (Safe batch s (.finish posts) ↔ Harmless batch s (.finish posts)) ∧
      Good batch (s.step batch (.finish posts)) := by
  unfold Safe Harmless IocpBackend.recycles IocpBackend.step
  dsimp only
  rcases hpoll : s.poll with _ | ⟨mark, dequeued, _ | ⟨entry, entries⟩, arrived⟩
  · exact ⟨⟨(fun _ p hp => nomatch hp), fun _ id hid => nomatch hid⟩, h⟩
  · have hpolled := h.polled _ hpoll
    have hdrains := portDrained_drains s.quarantine mark dequeued batch posts
    dsimp only
    generalize portDrained s.quarantine mark dequeued batch posts = r at hdrains ⊢
    obtain ⟨released, q, posted⟩ := r
    obtain ⟨hreleased, hheld, hsentinel⟩ := hdrains
    dsimp only at hreleased hheld hsentinel ⊢
    have hposted : ∀ ids : List T, Clear ids posted := by
      intro ids id _ hin
      rcases hsentinel with ⟨hnone, -⟩ | ⟨hone, -⟩
      · rw [hnone] at hin
        cases hin
      · rw [hone, List.mem_singleton] at hin
        cases hin
    constructor
    · have hclear : Clear released (s.port ++ posted) ↔ Clear released s.port :=
        Clear.append.trans (and_iff_left (hposted released))
      refine hclear.trans ?_
      rw [hreleased]
      unfold Quarantine.counted
      by_cases hshort : dequeued < batch
      · rw [if_pos hshort, ← List.take_take, List.take_length, ← clear_counted hpolled hshort]
        constructor
        · rintro hmis p hp - -
          injection hp with hp
          subst hp
          exact hmis
        · exact fun hall => hall _ rfl rfl hshort
      · rw [if_neg hshort, List.take_zero]
        refine ⟨fun _ p hp _ hlt => ?_, fun _ id hid => nomatch hid⟩
        injection hp with hp
        subst hp
        exact absurd hlt hshort
    · exact h.drained hpoll ⟨hreleased, hheld, hsentinel⟩ hfresh
  · exact ⟨⟨(fun _ p hp hnil => by injection hp with hp; subst hp; cases hnil),
      fun _ id hid => nomatch hid⟩, h⟩

theorem Good.step (h : Good batch s) (step : Step T) (hfresh : Fresh s step) :
    (Safe batch s step ↔ Harmless batch s step) ∧ Good batch (s.step batch step) := by
  have hnothing : ∀ packets : List (Packet T), Clear ([] : List T) packets :=
    fun _ id hid => nomatch hid
  cases step with
  | queue id => exact ⟨iff_of_true (hnothing _) trivial, h.queue id⟩
  | hold id => exact ⟨iff_of_true (hnothing _) trivial, h.hold id⟩
  | dequeue => exact ⟨iff_of_true (hnothing _) trivial, h.dequeue⟩
  | translate => exact ⟨iff_of_true h.translate.1 trivial, h.translate.2⟩
  | finish posts => exact h.finish posts hfresh
  | drainAll => exact ⟨iff_of_true (hnothing _) trivial, h.drainAll⟩

/-! ## 5. Runs -/

theorem run_good (steps : List (Step T)) (hfresh : (iocp batch).Along Fresh steps) :
    Good batch ((iocp batch).run steps) :=
  (iocp batch).run_invariant_along good_new (fun _ step h hstep => (h.step step hstep).2) steps hfresh

/-- **When the quarantine recycles no id whose packet is still on the port.**  In every run in
which no sentinel is posted while one of its generation is still on the port: whatever `drained`
and `sentinel_arrived` release has no packet left exactly if, in every poll that comes back short,
the ids held since its mark that take the place of those a sentinel released have none.  And held
ids are released at most once, in the order they were held. -/
theorem recycles_safely_iff (batch : Nat) (steps : List (Step T))
    (hfresh : (iocp batch).Along Fresh steps) :
    ((iocp batch).Along (Safe batch) steps ↔ (iocp batch).Along (Harmless batch) steps) ∧
      ((iocp batch).run steps).everHeld.Nodup ∧
      ((iocp batch).run steps).released <+: ((iocp batch).run steps).everHeld := by
  have hgood := run_good steps hfresh
  have hstep : ∀ pre step, pre ++ [step] <+: steps →
      (Safe batch ((iocp batch).run pre) step ↔ Harmless batch ((iocp batch).run pre) step) := by
    intro pre step hpre
    obtain ⟨later, rfl⟩ := hpre
    have hbefore : (iocp batch).Along Fresh pre := by
      rw [List.append_assoc] at hfresh
      exact hfresh.of_append
    exact ((run_good pre hbefore).step step (hfresh pre step (List.prefix_append _ _))).1
  refine ⟨⟨fun hsafe pre step hpre => ?_, fun hharmless pre step hpre => ?_⟩, hgood.nodup, ?_⟩
  · exact (hstep pre step hpre).mp (hsafe pre step hpre)
  · exact (hstep pre step hpre).mpr (hharmless pre step hpre)
  · rw [hgood.order]
    exact List.prefix_append _ _

end Steps

/-- A full batch, after which a sentinel is posted. -/
theorem recycles_safely_iff_full :
    let steps : List (Step Nat) := [.queue 7] ++ [.hold 7] ++ [.dequeue] ++ [.translate] ++ [.finish true]
    ((iocp 1).Along (Safe 1) steps ↔ (iocp 1).Along (Harmless 1) steps) ∧
      ((iocp 1).run steps).everHeld.Nodup ∧ ((iocp 1).run steps).released <+: ((iocp 1).run steps).everHeld :=
  recycles_safely_iff 1 _ (by
    rw [(iocp 1).along_concat, (iocp 1).along_concat, (iocp 1).along_concat, (iocp 1).along_concat,
      (iocp 1).along_singleton]
    refine ⟨⟨⟨⟨trivial, trivial⟩, trivial⟩, trivial⟩, ?_⟩
    show Packet.sentinel 1 ∉ ([] : List (Packet Nat))
    decide)

/-- A full batch of packets is taken while one id is held, so that a sentinel is posted; the next
poll takes the sentinel and nothing else, and one more id is held before it ends, its packet queued
behind. -/
def shortAfterFull : List (Step Nat) :=
  (List.range 256).map .queue ++ [.hold 0, .dequeue] ++ List.replicate 256 .translate ++
    [.finish true, .dequeue, .translate, .queue 256, .hold 256]

/-- The sentinel releases the id held at the mark, and `drained`, which counts one from the front
again, the one held since: its packet is still on the port. -/
theorem recycles_queued :
    ¬ ∀ (batch : Nat) (steps : List (Step Nat)), (iocp batch).Along (Safe batch) steps := by
  intro h
  have hsafe := h 256 (shortAfterFull ++ [.finish true]) shortAfterFull (.finish true)
    (List.prefix_refl _)
  have hrecycled : 256 ∈ ((iocp 256).run shortAfterFull).recycles 256 (.finish true) ∧
      Packet.io 256 ∈ (((iocp 256).run shortAfterFull).step 256 (.finish true)).pending := by
    decide +kernel
  exact hsafe 256 hrecycled.1 hrecycled.2

end Cadeloop.Core.Iocp
