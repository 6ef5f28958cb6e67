import Cadeloop.Pyshim.DrainWaiters

/-!
# Runs of parked producers

Whoever is parked is above the low-water mark, and what is above it has a way out: a send in
flight, a flush, or a TLS record the peer owes.  What falls under the mark falls by a completed
send, which releases; encryption does not shrink what it moves.
-/

namespace Cadeloop.Pyshim.Net

/-! ## 1. What the write queue's operations leave of the entry's gauge -/

/-- Of an entry, what the producers of an HTTP connection depend on. -/
structure Gauge where
  queued : Nat
  high : Nat
  low : Nat
  closing : Bool

def TransportEntry.gauge (entry : TransportEntry) : Gauge :=
  ⟨entry.queuedBytes, entry.highWater, entry.lowWater, entry.closing⟩

/-- The transport is gone, or its gauge reads `g`. -/
def NetState.Reads (net : NetState) (g : Gauge) : Prop :=
  ∀ entry, net.entry = some entry → entry.gauge = g

variable {backend : Backend} {net : NetState} {entry : TransportEntry}

theorem NetState.Reads.gone {g : Gauge} (h : net.entry = none) : net.Reads g := by
  intro entry he
  rw [h] at he
  cases he

theorem NetState.Reads.alive {g : Gauge} (h : net.entry = some entry) (hg : entry.gauge = g) :
    net.Reads g := by
  intro entry' he
  rw [h] at he
  injection he with he
  rw [← he, hg]

theorem teardown_entry (net : NetState) (ending : Ending) : (teardown net ending).entry = none := by
  unfold teardown
  cases he : net.entry with
  | none => exact he
  | some entry => rfl

theorem maybeFinishShutdown_reads {g : Gauge} (h : net.Reads g) : (maybeFinishShutdown net).Reads g := by
  unfold maybeFinishShutdown
  cases he : net.entry with
  | none => exact .gone he
  | some entry =>
    have hg := h entry he
    have hwanted : (if entry.eofWanted then { entry with eofSent := true } else entry).gauge = g := by
      split <;> exact hg
    dsimp only
    split
    · exact h
    generalize (if entry.eofWanted then { entry with eofSent := true } else entry) = entry' at hwanted ⊢
    split
    · exact .alive rfl hwanted
    split
    · split
      · exact .alive rfl hwanted
      · exact .alive rfl hwanted
    · exact .gone (teardown_entry net .closed)

theorem flushPending_reads {g : Gauge} (h : net.Reads g) : (flushPending backend net).Reads g := by
  unfold flushPending
  cases he : net.entry with
  | none => exact .gone he
  | some entry =>
    have hg : ({ entry with flushScheduled := false } : TransportEntry).gauge = g := h entry he
    dsimp only
    split
    · exact .alive rfl hg
    split
    · exact maybeFinishShutdown_reads (.alive rfl hg)
    split
    · exact .alive rfl hg
    · exact .gone (teardown_entry _ .failed)

theorem afterQueue_reads {g : Gauge} (early : Bool) (h : net.Reads g) :
    (afterQueue backend early net).Reads g := by
  unfold afterQueue
  cases he : net.entry with
  | none => exact .gone he
  | some entry =>
    dsimp only
    split
    · exact h
    split
    · exact flushPending_reads h
    split
    · exact h
    · exact .alive rfl (h entry he)

theorem queueOwned_gauge (entry : TransportEntry) (data : List UInt8) :
    (entry.queueOwned data).gauge = entry.gauge := by
  unfold TransportEntry.queueOwned coalesceTail
  split
  · rfl
  split
  · split <;> rfl
  · rfl

theorem httpEnqueueRaw_reads (he : net.entry = some entry) (data : List UInt8)
    (hopen : entry.closing = false) :
    (httpEnqueueRaw backend data net).Reads
      { entry.gauge with queued := entry.queuedBytes + data.length } := by
  unfold httpEnqueueRaw
  split
  · rename_i hnil
    apply NetState.Reads.alive he
    rw [hnil]
    rfl
  · rw [he]
    dsimp only
    rw [if_neg (by simp [hopen])]
    apply afterQueue_reads
    apply NetState.Reads.alive rfl
    exact queueOwned_gauge _ data

theorem httpEnqueueRaw_closing (he : net.entry = some entry) (data : List UInt8)
    (hclosing : entry.closing = true) : httpEnqueueRaw backend data net = net := by
  unfold httpEnqueueRaw
  split
  · rfl
  · rw [he]
    dsimp only
    rw [if_pos hclosing]

theorem onSendDone_reads {op bytes : Nat} (he : net.entry = some entry) (hop : entry.sendOp = some op)
    (hreport : backend.reports op (net.posted.flatMap WriteBuf.slice).length = some bytes) :
    (onSendDone backend net).Reads (entry.retire bytes).gauge := by
  unfold onSendDone
  rw [he]
  dsimp only
  rw [hop]
  dsimp only
  rw [hreport]
  dsimp only
  split
  · exact flushPending_reads (.alive rfl rfl)
  split
  · exact .alive rfl rfl
  · exact maybeFinishShutdown_reads (.alive rfl rfl)

theorem onSendDone_failed {op : Nat} (he : net.entry = some entry) (hop : entry.sendOp = some op)
    (hreport : backend.reports op (net.posted.flatMap WriteBuf.slice).length = none) :
    (onSendDone backend net).entry = none := by
  unfold onSendDone
  rw [he]
  dsimp only
  rw [hop]
  dsimp only
  rw [hreport]
  exact teardown_entry _ .failed

theorem flushCorked_reads {g : Gauge} (h : net.Reads g) : (flushCorked backend net).Reads g := by
  unfold flushCorked
  have hstart : NetState.Reads { net with flushList := 0 } g := h
  generalize net.flushList = n
  induction n with
  | zero => exact hstart
  | succ n ih => exact flushPending_reads ih

theorem closeAfterWrite_reads {linger : Bool} (he : net.entry = some entry) :
    (closeAfterWrite linger net).Reads { entry.gauge with closing := true } := by
  unfold closeAfterWrite
  rw [he]
  dsimp only
  split
  · rename_i hclosing
    apply NetState.Reads.alive he
    simp [TransportEntry.gauge, hclosing]
  · exact maybeFinishShutdown_reads (.alive rfl rfl)

theorem lingerDone_reads {g : Gauge} (h : net.Reads g) : (lingerDone net).Reads g := by
  unfold lingerDone
  cases he : net.entry with
  | none => exact .gone he
  | some entry =>
    dsimp only
    split
    · exact maybeFinishShutdown_reads (.alive rfl (h entry he))
    · exact h

theorem lingerExpired_reads {g : Gauge} (h : net.Reads g) : (lingerExpired net).Reads g := by
  unfold lingerExpired
  cases he : net.entry with
  | none => exact .gone he
  | some entry =>
    dsimp only
    split
    · exact .gone (teardown_entry net .closed)
    · exact h

theorem closeAfterWrite_corked {linger : Bool} (h : Corked net) :
    Corked (closeAfterWrite linger net) := by
  unfold closeAfterWrite
  split
  · exact h
  rename_i entry he
  split
  · exact h
  · exact maybeFinishShutdown_corked (h.entry he rfl rfl rfl)

theorem lingerDone_corked (h : Corked net) : Corked (lingerDone net) := by
  unfold lingerDone
  split
  · exact h
  rename_i entry he
  split
  · exact maybeFinishShutdown_corked (h.entry he rfl rfl rfl)
  · exact h

theorem lingerExpired_corked (h : Corked net) : Corked (lingerExpired net) := by
  unfold lingerExpired
  split
  · exact h
  split
  · exact teardown_corked net .closed
  · exact h

end Cadeloop.Pyshim.Net

namespace Cadeloop.Pyshim.TlsStage

/-! ## 2. Plaintext on its way through the stage -/

variable {t : State UInt8}

/-- What is staged and what a flush has in hand. -/
def State.held (t : State UInt8) : Nat := t.staged.length + t.inHand.length

theorem httpCloseAfterWrite_held (t : State UInt8) : (httpCloseAfterWrite t).held = t.held := by
  unfold httpCloseAfterWrite
  split
  · rfl
  split
  · rfl
  split <;> rfl

theorem takeStage_held (hflight : t.flight = none) : (takeStage t).held = t.held := by
  unfold takeStage
  split
  · rfl
  · simp [State.held, State.inHand, hflight]

theorem step_held_enqueue (t : State UInt8) (data : List UInt8) :
    t.held ≤ (step t (.enqueue data)).held := by
  unfold step
  dsimp only
  unfold httpEnqueue
  split
  · exact le_rfl
  · simp only [State.held, State.inHand, List.length_append]
    omega

theorem step_held_wrote {remaining : List UInt8} {closeAfter : Bool}
    (hflight : t.flight = some (.writing remaining closeAfter)) (n : Nat) :
    t.held ≤ (step t (.wrote n)).held + min n remaining.length := by
  unfold step
  dsimp only
  unfold wrote
  rw [hflight]
  dsimp only
  split
  · omega
  · simp only [State.held, State.inHand, hflight, List.length_drop]
    omega

/-- The inputs that only move plaintext from one place to the other, or none. -/
inductive Still : Input UInt8 → Prop where
  | close : Still .close
  | flush : Still .flush
  | ingest : Still .ingest
  | handshakeDone : Still .handshakeDone
  | wants : Still .wants
  | written : Still .written
  | closed : Still .closed

theorem sendCloseNotify_flight (t : State UInt8) :
    (sendCloseNotify t).flight = t.flight ∧ (sendCloseNotify t).staged = t.staged ∧
      (sendCloseNotify t).closing = t.closing := by
  unfold sendCloseNotify
  split <;> exact ⟨rfl, rfl, rfl⟩

theorem Still.held {i : Input UInt8} (hi : Still i) (t : State UInt8) : (step t i).held = t.held := by
  cases hi with
  | close => exact httpCloseAfterWrite_held _
  | flush =>
    unfold step
    dsimp only
    split
    · rename_i h
      exact takeStage_held (by simpa using h.1)
    · rfl
  | ingest =>
    unfold step
    dsimp only
    split
    · rename_i h
      exact takeStage_held (by simpa using h.1)
    · rfl
  | handshakeDone =>
    unfold step
    dsimp only
    split
    · rename_i h
      split
      · rfl
      · exact takeStage_held (by simpa using h.1)
    · rfl
  | wants =>
    unfold step
    dsimp only
    unfold TlsStage.wants
    cases hflight : t.flight with
    | none => rfl
    | some flight =>
      cases flight with
      | closing => rfl
      | writing remaining closeAfter =>
        dsimp only
        split
        · rfl
        · simp only [State.held, State.inHand, hflight, List.length_append, List.length_nil]
          omega
  | written =>
    unfold step
    dsimp only
    unfold TlsStage.written
    split
    · rename_i closeAfter hflight
      split
      · simp [State.held, State.inHand, hflight, (sendCloseNotify_flight t).2.1]
      · simp [State.held, State.inHand, hflight]
    · rfl
  | closed =>
    unfold step
    dsimp only
    unfold TlsStage.closed
    split
    · rename_i hflight
      rw [httpCloseAfterWrite_held]
      simp [State.held, State.inHand, hflight]
    · rfl

/-- Only the calls to close mark the connection. -/
theorem step_closing (t : State UInt8) {i : Input UInt8} (hclose : i ≠ .close)
    (hclosed : i ≠ .closed) : (step t i).closing = t.closing := by
  have htake : ∀ t : State UInt8, (takeStage t).closing = t.closing := by
    intro t
    unfold takeStage
    split <;> rfl
  cases i with
  | close => exact absurd rfl hclose
  | closed => exact absurd rfl hclosed
  | enqueue data =>
    unfold step
    dsimp only
    unfold httpEnqueue
    split <;> rfl
  | flush =>
    unfold step
    dsimp only
    split
    · exact htake _
    · rfl
  | ingest =>
    unfold step
    dsimp only
    split
    · exact htake _
    · rfl
  | handshakeDone =>
    unfold step
    dsimp only
    split
    · split
      · rfl
      · exact htake _
    · rfl
  | wrote n =>
    unfold step
    dsimp only
    unfold wrote
    split
    · split <;> rfl
    · rfl
  | wants =>
    unfold step
    dsimp only
    unfold wants
    split
    · split <;> rfl
    · rfl
  | written =>
    unfold step
    dsimp only
    unfold written
    split
    · split
      · exact (sendCloseNotify_flight t).2.2
      · rfl
    · rfl

/-- What marked a connection stays marked. -/
theorem step_closing_mono (t : State UInt8) (i : Input UInt8) (h : t.closing = true) :
    (step t i).closing = true := by
  have hafter : ∀ t : State UInt8, t.closing = true → (httpCloseAfterWrite t).closing = true := by
    intro t ht
    unfold httpCloseAfterWrite
    split
    · exact ht
    split
    · exact ht
    · simp [ht]
  by_cases hclose : i = .close
  · rw [hclose]
    exact hafter _ h
  by_cases hclosed : i = .closed
  · rw [hclosed]
    unfold step
    dsimp only
    unfold closed
    split
    · exact hafter _ h
    · exact h
  · rw [step_closing t hclose hclosed]
    exact h

end Cadeloop.Pyshim.TlsStage

namespace Cadeloop.Pyshim.Drain

open Cadeloop.Reasoning
open Net (Backend NetState TransportEntry Gauge)

/-! ## 3. The order of the producers -/

/-- Futures are parked and released in the order of their numbers, and none is lost. -/
structure Orderly (s : State) : Prop where
  order : (s.released ++ s.waiters).Pairwise (· < ·)
  made : ∀ f ∈ s.released ++ s.waiters, f < s.futures
  parked : s.parked.Pairwise (· < ·)
  parked_made : ∀ f ∈ s.parked, f < s.futures
  waiting : ∀ f ∈ s.waiters, f ∈ s.parked
  kept : ∀ f ∈ s.parked, f ∈ s.waiters ∨ f ∈ s.released ∨ f ∈ s.done
  queue : s.drained.Sublist s.released
  settled : ∀ f ∈ s.released, f ∈ s.drained ∨ f ∈ s.done

variable {s : State}

/-- The futures alone decide about the order. -/
theorem Orderly.congr {s' : State} (h : Orderly s) (hwaiters : s'.waiters = s.waiters)
    (hdrained : s'.drained = s.drained) (hfutures : s'.futures = s.futures)
    (hdone : s'.done = s.done) (hparked : s'.parked = s.parked)
    (hreleased : s'.released = s.released) : Orderly s' := by
  constructor
  · rw [hreleased, hwaiters]
    exact h.order
  · rw [hreleased, hwaiters, hfutures]
    exact h.made
  · rw [hparked]
    exact h.parked
  · rw [hparked, hfutures]
    exact h.parked_made
  · rw [hwaiters, hparked]
    exact h.waiting
  · rw [hparked, hwaiters, hreleased, hdone]
    exact h.kept
  · rw [hdrained, hreleased]
    exact h.queue
  · rw [hreleased, hdrained, hdone]
    exact h.settled

theorem Orderly.release (h : Orderly s) : Orderly s.release where
  order := by simpa [State.release] using h.order
  made := by simpa [State.release] using h.made
  parked := h.parked
  parked_made := h.parked_made
  waiting := by simp [State.release]
  kept f hf := by
    rcases h.kept f hf with hw | hr | hd
    · exact .inr (.inl (List.mem_append_right _ hw))
    · exact .inr (.inl (List.mem_append_left _ hr))
    · exact .inr (.inr hd)
  queue := h.queue.append (List.Sublist.refl _)
  settled f hf := by
    rcases List.mem_append.mp hf with hr | hw
    · exact (h.settled f hr).imp_left (List.mem_append_left _)
    · exact .inl (List.mem_append_right _ hw)

theorem Orderly.withNet (h : Orderly s) (net : NetState) : Orderly (s.withNet net) := by
  have hnet : Orderly { s with net } := h.congr rfl rfl rfl rfl rfl rfl
  unfold State.withNet
  split
  · exact hnet.release
  · exact hnet

theorem mem_setResult {done : List Nat} {fut f : Nat} :
    f ∈ setResult done fut ↔ f ∈ done ∨ f = fut := by
  unfold setResult
  split
  · constructor
    · exact .inl
    · rintro (hd | rfl)
      · exact hd
      · assumption
  · simp [or_comm]

theorem mem_foldl_setResult (futs : List Nat) {done : List Nat} {f : Nat} :
    f ∈ futs.foldl setResult done ↔ f ∈ done ∨ f ∈ futs := by
  induction futs generalizing done with
  | nil => simp
  | cons fut futs ih => rw [List.foldl_cons, ih, mem_setResult, List.mem_cons, or_assoc]

/-- What completes futures only. -/
theorem Orderly.setResult (h : Orderly s) (done : List Nat) (hdone : ∀ f ∈ s.done, f ∈ done) :
    Orderly { s with done } where
  order := h.order
  made := h.made
  parked := h.parked
  parked_made := h.parked_made
  waiting := h.waiting
  kept f hf := (h.kept f hf).imp_right (Or.imp_right (hdone f))
  queue := h.queue
  settled f hf := (h.settled f hf).imp_right (hdone f)

theorem dispatchDrained_orderly (h : Orderly s) : Orderly (dispatchDrained s) := by
  unfold dispatchDrained
  split
  · exact h
  · rename_i fut rest hdrained
    have hdone := h.setResult (Drain.setResult s.done fut) fun f hf => mem_setResult.mpr (.inl hf)
    refine ⟨h.order, h.made, h.parked, h.parked_made, h.waiting, hdone.kept, ?_, fun f hf => ?_⟩
    · have hqueue := h.queue
      rw [hdrained] at hqueue
      exact (List.sublist_cons_self fut rest).trans hqueue
    · rcases h.settled f hf with hd | hd
      · rw [hdrained] at hd
        rcases List.mem_cons.mp hd with rfl | hd
        · exact .inr (mem_setResult.mpr (.inr rfl))
        · exact .inl hd
      · exact .inr (mem_setResult.mpr (.inl hd))

theorem cancel_orderly (h : Orderly s) (fut : Nat) : Orderly (cancel fut s) := by
  unfold cancel
  split
  · exact h.setResult _ fun f hf => mem_setResult.mpr (.inl hf)
  · exact h

/-- The waiters that are not done, behind those released. -/
theorem Orderly.live (h : Orderly s) :
    (s.released ++ s.waiters.filter fun w => decide (w ∉ s.done)).Pairwise (· < ·) :=
  h.order.sublist (List.Sublist.append_left List.filter_sublist _)

/-- A new future goes behind all. -/
theorem pairwise_concat {fs : List Nat} {n : Nat} (h : fs.Pairwise (· < ·)) (hlt : ∀ f ∈ fs, f < n) :
    (fs ++ [n]).Pairwise (· < ·) := by
  rw [List.pairwise_append]
  refine ⟨h, List.pairwise_singleton _ _, fun f hf g hg => ?_⟩
  rw [List.mem_singleton.mp hg]
  exact hlt f hf

theorem park_orderly (h : Orderly s) :
    Orderly { s with
      futures := s.futures + 1
      waiters := (s.waiters.filter fun w => decide (w ∉ s.done)) ++ [s.futures]
      parked := s.parked ++ [s.futures] } where
  order := by
    rw [← List.append_assoc]
    apply pairwise_concat h.live
    intro f hf
    apply h.made f
    rcases List.mem_append.mp hf with hr | hw
    · exact List.mem_append_left _ hr
    · exact List.mem_append_right _ (List.mem_of_mem_filter hw)
  made f hf := by
    rw [← List.append_assoc] at hf
    rcases List.mem_append.mp hf with hold | hnew
    · apply Nat.lt_succ_of_lt
      apply h.made f
      rcases List.mem_append.mp hold with hr | hw
      · exact List.mem_append_left _ hr
      · exact List.mem_append_right _ (List.mem_of_mem_filter hw)
    · rw [List.mem_singleton.mp hnew]
      exact Nat.lt_succ_self _
  parked := pairwise_concat h.parked h.parked_made
  parked_made f hf := by
    rcases List.mem_append.mp hf with hold | hnew
    · exact Nat.lt_succ_of_lt (h.parked_made f hold)
    · rw [List.mem_singleton.mp hnew]
      exact Nat.lt_succ_self _
  waiting f hf := by
    rcases List.mem_append.mp hf with hold | hnew
    · exact List.mem_append_left _ (h.waiting f (List.mem_of_mem_filter hold))
    · exact List.mem_append_right _ hnew
  kept f hf := by
    rcases List.mem_append.mp hf with hold | hnew
    · -- a waiter that was pruned is done
      by_cases hdone : f ∈ s.done
      · exact .inr (.inr hdone)
      · refine (h.kept f hold).imp_left fun hw => List.mem_append_left _ ?_
        exact List.mem_filter.mpr ⟨hw, by simpa using hdone⟩
    · exact .inl (List.mem_append_right _ hnew)
  queue := h.queue
  settled := h.settled

/-- Those still waiting are taken out and let go at once, with the future of this send. -/
theorem letGo_orderly {futs : List Nat} {n : Nat} (h : Orderly s) (hn : s.futures ≤ n)
    (hwaiters : ∀ f ∈ s.waiters, f ∈ futs ∨ f ∈ s.done)
    (horder : (s.released ++ futs).Pairwise (· < ·)) (hmade : ∀ f ∈ futs, f < n) :
    Orderly (letGo futs { s with waiters := [], futures := n }) where
  order := by simpa [letGo] using horder
  made f hf := by
    have hf' : f ∈ s.released ++ futs := by simpa [letGo] using hf
    rcases List.mem_append.mp hf' with hr | hnew
    · exact Nat.lt_of_lt_of_le (h.made f (List.mem_append_left _ hr)) hn
    · exact hmade f hnew
  parked := h.parked
  parked_made f hf := Nat.lt_of_lt_of_le (h.parked_made f hf) hn
  waiting := by simp [letGo]
  kept f hf := by
    rcases h.kept f hf with hw | hr | hd
    · rcases hwaiters f hw with hlive | hd
      · exact .inr (.inl (List.mem_append_right _ hlive))
      · exact .inr (.inr ((mem_foldl_setResult futs).mpr (.inl hd)))
    · exact .inr (.inl (List.mem_append_left _ hr))
    · exact .inr (.inr ((mem_foldl_setResult futs).mpr (.inl hd)))
  queue := h.queue.trans (List.sublist_append_left _ _)
  settled f hf := by
    rcases List.mem_append.mp hf with hr | hnew
    · exact (h.settled f hr).imp_right fun hd => (mem_foldl_setResult futs).mpr (.inl hd)
    · exact .inr ((mem_foldl_setResult futs).mpr (.inr hnew))

theorem withNet_gone {net : NetState} (hgone : net.entry = none) :
    s.withNet net = { s with net }.release := by
  unfold State.withNet
  rw [hgone]
  rfl

variable {backend : Backend} {ssl : SslObject}

theorem backpressure_orderly (h : Orderly s) (gone : Option Window) :
    Orderly (backpressure gone s) := by
  unfold backpressure
  split
  · exact h
  split
  · exact h
  dsimp only
  have htorn := Net.teardown_entry s.net .failed
  cases gone with
  | none => exact park_orderly h
  | some window =>
    cases window with
    | createFuture =>
      dsimp only
      rw [withNet_gone htorn]
      have hlast : ((s.released ++ s.waiters) ++ [s.futures]).Pairwise (· < ·) :=
        pairwise_concat h.order h.made
      exact (letGo_orderly h.release (Nat.le_succ s.futures) (by simp [State.release]) hlast
        (by simp)).congr rfl rfl rfl rfl rfl rfl
    | done =>
      dsimp only
      rw [withNet_gone htorn]
      have hlast : (s.released ++
          ((s.waiters.filter fun w => decide (w ∉ s.done)) ++ [s.futures])).Pairwise (· < ·) :=
        (park_orderly h).order
      have hmade : ∀ f ∈ (s.waiters.filter fun w => decide (w ∉ s.done)) ++ [s.futures],
          f < s.futures + 1 := fun f hf =>
        (park_orderly h).made f (List.mem_append_right _ hf)
      have hwaiters : ∀ f ∈ s.waiters,
          f ∈ (s.waiters.filter fun w => decide (w ∉ s.done)) ++ [s.futures] ∨ f ∈ s.done := by
        intro f hf
        by_cases hdone : f ∈ s.done
        · exact .inr hdone
        · exact .inl (List.mem_append_left _ (List.mem_filter.mpr ⟨hf, by simpa using hdone⟩))
      refine (letGo_orderly h (Nat.le_succ _) hwaiters hlast hmade).congr rfl ?_ rfl rfl rfl ?_
      · exact List.append_nil _
      · show (s.released ++ []) ++ _ = s.released ++ _
        rw [List.append_nil]

theorem tlsStep_orderly (h : Orderly s) (i : TlsStage.Input UInt8) : Orderly (tlsStep i s) := by
  unfold tlsStep
  split
  · exact h
  · exact h.congr rfl rfl rfl rfl rfl rfl

theorem httpEnqueue_orderly (h : Orderly s) (data : List UInt8) :
    Orderly (httpEnqueue backend data s) := by
  unfold httpEnqueue
  split
  · exact h
  split
  · exact h.congr rfl rfl rfl rfl rfl rfl
  · exact h.withNet _

theorem onSendDone_orderly (h : Orderly s) : Orderly (onSendDone backend s) := by
  unfold onSendDone
  split
  · exact h
  split
  · exact h
  split
  · exact h.withNet _
  · dsimp only
    split
    · exact h.release.withNet _
    · exact h.withNet _

theorem closeAfterWrite_orderly (h : Orderly s) (i : TlsStage.Input UInt8) (linger : Bool) :
    Orderly (closeAfterWrite i linger s) := by
  have htls := tlsStep_orderly h i
  unfold closeAfterWrite
  dsimp only
  split
  · exact htls.withNet _
  · exact htls

theorem sslWrite_orderly (h : Orderly s) : Orderly (sslWrite backend ssl s) := by
  unfold sslWrite
  split
  · split
    · exact h
    · have hcalled : Orderly { s with writes := s.writes + 1 } := h.congr rfl rfl rfl rfl rfl rfl
      dsimp only
      split
      · exact (tlsStep_orderly hcalled _).withNet _
      · exact (tlsStep_orderly hcalled _).withNet _
      · exact hcalled.withNet _
  · exact h

theorem step_orderly (h : Orderly s) (i : Input) : Orderly (step backend ssl s i) := by
  cases i with
  | send data gone => exact backpressure_orderly (httpEnqueue_orderly h data) gone
  | enqueue data => exact httpEnqueue_orderly h data
  | enqueueRaw data => exact h.withNet _
  | cancel fut => exact cancel_orderly h fut
  | dispatchDrained => exact dispatchDrained_orderly h
  | onSendDone => exact onSendDone_orderly h
  | flushCorked => exact h.withNet _
  | close linger => exact closeAfterWrite_orderly h .close linger
  | lingerDone => exact h.withNet _
  | lingerExpired => exact h.withNet _
  | teardown => exact h.withNet _
  | tick nowNs flushImmediately => exact h.congr rfl rfl rfl rfl rfl rfl
  | flush => exact tlsStep_orderly h .flush
  | ingest => exact tlsStep_orderly h .ingest
  | handshakeDone => exact tlsStep_orderly h .handshakeDone
  | sslWrite => exact sslWrite_orderly h
  | written => exact tlsStep_orderly h .written
  | closed linger =>
    unfold step
    dsimp only
    split
    · exact closeAfterWrite_orderly h .closed linger
    · exact h

/-! ## 4. The pressure over the producers -/

/-- What the producers wait for, of an entry that reads `g`. -/
structure Tended (marks : Marks) (s : State) (g : Gauge) : Prop where
  high : g.high = marks.high
  low : g.low = marks.low
  closing : ∀ t, s.tls = some t → t.closing = g.closing
  above : s.waiters ≠ [] → marks.low < g.queued + s.staged + s.inHand

structure Attended (marks : Marks) (s : State) : Prop where
  core : Net.Core true s.net
  corked : Net.Corked s.net
  stage : ∀ t, s.tls = some t → TlsStage.Sound t
  tended : ∀ entry, s.net.entry = some entry → Tended marks s entry.gauge
  gone : s.net.entry = none → s.waiters = []

variable {marks : Marks}

theorem withNet_attended {net : NetState} {g : Gauge} (hcore : Net.Core true net)
    (hcorked : Net.Corked net) (hstage : ∀ t, s.tls = some t → TlsStage.Sound t)
    (hreads : net.Reads g) (htended : Tended marks s g) : Attended marks (s.withNet net) := by
  unfold State.withNet
  cases he : net.entry with
  | none =>
    refine ⟨hcore, hcorked, hstage, fun entry hsome => ?_, fun _ => rfl⟩
    have hnone : net.entry = some entry := hsome
    rw [he] at hnone
    cases hnone
  | some entry =>
    refine ⟨hcore, hcorked, hstage, fun entry' hsome => ?_, fun hnone => ?_⟩
    · rw [hreads entry' hsome]
      exact ⟨htended.high, htended.low, htended.closing, htended.above⟩
    · have hnone' : net.entry = none := hnone
      rw [he] at hnone'
      cases hnone'

/-- An operation on the write queue that leaves the gauge as it is. -/
theorem Attended.withNet {net : NetState} (h : Attended marks s) (hcore : Net.Core true net)
    (hcorked : Net.Corked net)
    (hreads : ∀ g, s.net.Reads g → net.Reads g) : Attended marks (s.withNet net) := by
  cases he : s.net.entry with
  | none =>
    have hgone : net.entry = none := by
      -- a transport that is gone reads two gauges at once
      cases hnet : net.entry with
      | none => rfl
      | some entry =>
        have hclosing := hreads ⟨0, 0, 0, true⟩ (.gone he) entry hnet
        have hopen := hreads ⟨0, 0, 0, false⟩ (.gone he) entry hnet
        rw [hclosing] at hopen
        cases hopen
    unfold State.withNet
    rw [hgone]
    refine ⟨hcore, hcorked, h.stage, fun entry hsome => ?_, fun _ => rfl⟩
    have hnone : net.entry = some entry := hsome
    rw [hgone] at hnone
    cases hnone
  | some entry =>
    exact withNet_attended hcore hcorked h.stage (hreads _ (.alive he rfl)) (h.tended entry he)

theorem teardown_attended (h : Attended marks s) :
    Attended marks (s.withNet (Net.teardown s.net .failed)) :=
  h.withNet (Net.teardown_core h.core fun hclosed => absurd hclosed (by simp))
    (Net.teardown_corked s.net .failed) fun _ _ => .gone (Net.teardown_entry s.net .failed)

/-- The producers have no part in the write queue. -/
theorem Attended.congr {s' : State} (h : Attended marks s) (hnet : s'.net = s.net)
    (htls : s'.tls = s.tls) (hwaiters : s'.waiters = s.waiters) : Attended marks s' := by
  refine ⟨hnet ▸ h.core, hnet ▸ h.corked, htls ▸ h.stage, fun entry he => ?_, fun hnone => ?_⟩
  · obtain ⟨hhigh, hlow, hclosing, habove⟩ := h.tended entry (hnet ▸ he)
    refine ⟨hhigh, hlow, htls ▸ hclosing, ?_⟩
    rw [hwaiters, State.staged, State.inHand, htls]
    exact habove
  · rw [hwaiters]
    exact h.gone (hnet ▸ hnone)

theorem release_attended (h : Attended marks s) : Attended marks s.release := by
  refine ⟨h.core, h.corked, h.stage, fun entry he => ?_, fun _ => rfl⟩
  obtain ⟨hhigh, hlow, hclosing, -⟩ := h.tended entry he
  exact ⟨hhigh, hlow, hclosing, fun hne => absurd rfl hne⟩

/-- Bytes for the wire, `n` of them no longer held in the stage. -/
theorem enqueueRaw_attended {entry : TransportEntry} (h : Attended marks s)
    (he : s.net.entry = some entry) (data : List UInt8) {r : State} (hnet : r.net = s.net)
    (hwaiters : r.waiters = s.waiters) (hstage : ∀ t, r.tls = some t → TlsStage.Sound t)
    (hclosing : ∀ t, r.tls = some t → t.closing = entry.closing)
    (hheld : s.staged + s.inHand ≤
      r.staged + r.inHand + if entry.closing then 0 else data.length) :
    Attended marks (r.withNet (Net.httpEnqueueRaw backend data r.net)) := by
  obtain ⟨hhigh, hlow, -, habove⟩ := h.tended entry he
  rw [hnet]
  have hcore : Net.Core true (Net.httpEnqueueRaw backend data s.net) :=
    Net.httpEnqueueRaw_core data h.core
  have hcorked : Net.Corked (Net.httpEnqueueRaw backend data s.net) :=
    Net.httpEnqueueRaw_corked data h.core h.corked
  by_cases hclose : entry.closing = true
  · rw [Net.httpEnqueueRaw_closing he data hclose] at hcore hcorked ⊢
    refine withNet_attended hcore hcorked hstage (.alive he rfl) ⟨hhigh, hlow, hclosing, ?_⟩
    intro hne
    rw [hwaiters] at hne
    have := habove hne
    rw [if_pos hclose] at hheld
    omega
  · have hopen : entry.closing = false := by simpa using hclose
    refine withNet_attended hcore hcorked hstage (Net.httpEnqueueRaw_reads he data hopen)
      ⟨hhigh, hlow, hclosing, ?_⟩
    intro hne
    rw [hwaiters] at hne
    have := habove hne
    rw [if_neg hclose] at hheld
    show marks.low < entry.queuedBytes + data.length + r.staged + r.inHand
    have hqueued : entry.gauge.queued = entry.queuedBytes := rfl
    omega

/-- What a TLS step leaves in place of the stage. -/
theorem tlsStep_attended (h : Attended marks s) {i : TlsStage.Input UInt8}
    (hclose : i ≠ .close) (hclosed : i ≠ .closed)
    (hheld : ∀ t, s.tls = some t → t.held ≤ (TlsStage.step t i).held) :
    Attended marks (tlsStep i s) := by
  unfold tlsStep
  split
  · exact h
  have hstage : ∀ t', s.tls.map (TlsStage.step · i) = some t' →
      ∃ t, s.tls = some t ∧ TlsStage.step t i = t' := fun t' ht' => Option.map_eq_some_iff.mp ht'
  refine ⟨h.core, h.corked, fun t' ht' => ?_, fun entry he => ?_, h.gone⟩
  · obtain ⟨t, ht, rfl⟩ := hstage t' ht'
    exact TlsStage.step_sound (h.stage t ht) i
  · obtain ⟨hhigh, hlow, hclosing, habove⟩ := h.tended entry he
    refine ⟨hhigh, hlow, fun t' ht' => ?_, fun hne => ?_⟩
    · obtain ⟨t, ht, rfl⟩ := hstage t' ht'
      rw [TlsStage.step_closing t hclose hclosed]
      exact hclosing t ht
    · have hlt := habove hne
      simp only [State.staged, State.inHand] at hlt ⊢
      cases htls : s.tls with
      | none => simpa [htls] using hlt
      | some t =>
        have hle := hheld t htls
        simp only [TlsStage.State.held] at hle
        simp only [htls, Option.map_some, Option.getD_some] at hlt ⊢
        omega

theorem still_attended {i : TlsStage.Input UInt8} (hi : TlsStage.Still i) (h : Attended marks s)
    (hclose : i ≠ .close) (hclosed : i ≠ .closed) : Attended marks (tlsStep i s) :=
  tlsStep_attended h hclose hclosed fun t _ => (hi.held t).ge

theorem httpEnqueue_attended (h : Attended marks s) (data : List UInt8) :
    Attended marks (httpEnqueue backend data s) := by
  unfold httpEnqueue
  split
  · exact h
  rename_i hmapped
  obtain ⟨entry, he⟩ : ∃ entry, s.net.entry = some entry := by
    cases he : s.net.entry with
    | none => exact absurd (by rw [he]; rfl) hmapped
    | some entry => exact ⟨entry, rfl⟩
  split
  · rename_i t htls
    have hstep := tlsStep_attended (i := .enqueue data) h (by simp) (by simp)
      fun t _ => TlsStage.step_held_enqueue t data
    unfold tlsStep at hstep
    rw [if_neg hmapped, htls] at hstep
    exact hstep
  · rename_i htls
    refine enqueueRaw_attended h he data rfl rfl h.stage (fun t ht => ?_) ?_
    · rw [htls] at ht
      cases ht
    · exact Nat.le_add_right _ _

theorem backpressure_attended (h : Attended marks s) (gone : Option Window) :
    Attended marks (backpressure gone s) := by
  unfold backpressure
  split
  · exact h
  rename_i entry he
  split
  · exact h
  rename_i hover
  dsimp only
  cases gone with
  | none =>
    refine ⟨h.core, h.corked, h.stage, fun entry' he' => ?_, fun hnone => ?_⟩
    · have hsame : some entry = some entry' := he.symm.trans he'
      injection hsame with hsame
      subst hsame
      obtain ⟨hhigh, hlow, hclosing, -⟩ := h.tended entry he
      refine ⟨hhigh, hlow, hclosing, fun _ => ?_⟩
      -- a producer parks over the high-water mark only
      have hmark : entry.highWater = marks.high := hhigh
      have hordered := marks.ordered
      show marks.low < entry.queuedBytes + s.staged + s.inHand
      unfold State.writePressure at hover
      omega
    · have hnone' : s.net.entry = none := hnone
      rw [he] at hnone'
      cases hnone'
  | some window =>
    cases window with
    | createFuture =>
      have hmade : Attended marks { s with futures := s.futures + 1 } := h.congr rfl rfl rfl
      exact (teardown_attended hmade).congr rfl rfl rfl
    | done =>
      have htaken : Attended marks { s with futures := s.futures + 1, waiters := [] } :=
        (release_attended h).congr rfl rfl rfl
      exact (teardown_attended htaken).congr rfl rfl rfl

theorem onSendDone_attended (h : Attended marks s) : Attended marks (onSendDone backend s) := by
  have hcore : Net.Core true (Net.onSendDone backend s.net) := Net.onSendDone_core h.core
  have hcorked : Net.Corked (Net.onSendDone backend s.net) := Net.onSendDone_corked h.corked
  unfold onSendDone
  split
  · exact h
  rename_i entry he
  split
  · exact h
  rename_i op hop
  obtain ⟨hhigh, hlow, hclosing, -⟩ := h.tended entry he
  split
  · rename_i hreport
    exact withNet_attended hcore hcorked h.stage
      (.gone (Net.onSendDone_failed he hop hreport)) (h.tended entry he)
  · rename_i bytes hreport
    have hreads := Net.onSendDone_reads he hop hreport
    dsimp only
    split
    · exact withNet_attended hcore hcorked h.stage hreads
        ⟨hhigh, hlow, hclosing, fun hne => absurd rfl hne⟩
    · rename_i hover
      refine withNet_attended hcore hcorked h.stage hreads ⟨hhigh, hlow, hclosing, fun _ => ?_⟩
      -- not eased, so what is left is over the mark still
      have hmark : entry.lowWater = marks.low := hlow
      show marks.low < (entry.retire bytes).queuedBytes + s.staged + s.inHand
      unfold State.writePressure at hover
      omega

theorem closeAfterWrite_attended {i : TlsStage.Input UInt8} (hi : TlsStage.Still i)
    (linger : Bool) (h : Attended marks s) : Attended marks (closeAfterWrite i linger s) := by
  unfold closeAfterWrite
  cases he : s.net.entry with
  | none =>
    have hstep : tlsStep i s = s := by
      unfold tlsStep
      rw [he]
      rfl
    have hclose : Net.closeAfterWrite linger s.net = s.net := by
      unfold Net.closeAfterWrite
      rw [he]
    dsimp only
    rw [hstep, hclose]
    split
    · exact h.withNet h.core h.corked fun _ hreads => hreads
    · exact h
  | some entry =>
    have hcore : Net.Core true (Net.closeAfterWrite linger s.net) :=
      Net.closeAfterWrite_core linger h.core
    have hcorked : Net.Corked (Net.closeAfterWrite linger s.net) := Net.closeAfterWrite_corked h.corked
    obtain ⟨hhigh, hlow, hclosing, habove⟩ := h.tended entry he
    have hstep : tlsStep i s = { s with tls := s.tls.map (TlsStage.step · i) } := by
      unfold tlsStep
      rw [he]
      rfl
    dsimp only
    rw [hstep]
    cases htls : s.tls with
    | none =>
      have hsame : ({ s with tls := none } : State) = s := by rw [← htls]
      rw [Option.map_none, hsame, htls]
      dsimp only [Option.all_none]
      rw [if_pos rfl]
      exact withNet_attended hcore hcorked h.stage (Net.closeAfterWrite_reads he)
        ⟨hhigh, hlow, fun t ht => absurd (htls.symm.trans ht) (by simp), habove⟩
    | some t =>
      have hstage : ∀ t', some (TlsStage.step t i) = some t' → TlsStage.Sound t' := by
        intro t' ht'
        injection ht' with ht'
        rw [← ht']
        exact TlsStage.step_sound (h.stage t htls) i
      have habove' : s.waiters ≠ [] →
          marks.low < entry.queuedBytes + (TlsStage.step t i).staged.length +
            (TlsStage.step t i).inHand.length := by
        intro hne
        have hheld := hi.held t
        have hlt := habove hne
        simp only [State.staged, State.inHand, htls, Option.map_some, Option.getD_some] at hlt
        simp only [TlsStage.State.held] at hheld
        have hqueued : entry.gauge.queued = entry.queuedBytes := rfl
        omega
      rw [Option.map_some]
      split
      · rename_i hmarked
        refine withNet_attended hcore hcorked hstage (Net.closeAfterWrite_reads he)
          ⟨hhigh, hlow, fun t' ht' => ?_, habove'⟩
        injection ht' with ht'
        rw [← ht']
        exact hmarked
      · rename_i hunmarked
        have hopen : (TlsStage.step t i).closing = false := by simpa using hunmarked
        refine ⟨h.core, h.corked, hstage, fun entry' he' => ?_, h.gone⟩
        have hsame : some entry = some entry' := he.symm.trans he'
        injection hsame with hsame
        subst hsame
        refine ⟨hhigh, hlow, fun t' ht' => ?_, habove'⟩
        injection ht' with ht'
        rw [← ht', hopen, ← hclosing t htls]
        -- what was marked before would be marked still
        cases hbefore : t.closing with
        | false => rfl
        | true =>
          rw [TlsStage.step_closing_mono t i hbefore] at hopen
          cases hopen

/-- A write round: the plaintext the answer takes out of hand comes back as ciphertext. -/
theorem answered_attended {t : TlsStage.State UInt8} {entry : TransportEntry}
    {i : TlsStage.Input UInt8} {cipher : List UInt8} (h : Attended marks s) (htls : s.tls = some t)
    (he : s.net.entry = some entry) (hclose : i ≠ .close) (hclosed : i ≠ .closed)
    (hheld : t.held ≤ (TlsStage.step t i).held + if entry.closing then 0 else cipher.length) :
    Attended marks ((tlsStep i s).withNet (Net.httpEnqueueRaw backend cipher s.net)) := by
  have hstep : tlsStep i s = { s with tls := some (TlsStage.step t i) } := by
    unfold tlsStep
    rw [he, htls]
    rfl
  rw [hstep]
  refine enqueueRaw_attended (r := { s with tls := some (TlsStage.step t i) }) h he cipher rfl rfl
    (fun t' ht' => ?_) (fun t' ht' => ?_) ?_
  · injection ht' with ht'
    rw [← ht']
    exact TlsStage.step_sound (h.stage t htls) i
  · injection ht' with ht'
    rw [← ht', TlsStage.step_closing t hclose hclosed]
    exact (h.tended entry he).closing t htls
  · simp only [TlsStage.State.held] at hheld
    simp only [State.staged, State.inHand, htls, Option.map_some, Option.getD_some]
    omega

theorem sslWrite_attended (h : Attended marks s) : Attended marks (sslWrite backend ssl s) := by
  unfold sslWrite
  split
  · rename_i remaining closeAfter hflight
    split
    · exact h
    rename_i hready
    obtain ⟨t, htls, hwriting⟩ := Option.bind_eq_some_iff.mp hflight
    cases he : s.net.entry with
    | none => exact absurd (.inl (by rw [he]; rfl)) hready
    | some entry =>
      have hcalled : Attended marks { s with writes := s.writes + 1 } := h.congr rfl rfl rfl
      dsimp only
      split
      · rename_i n cipher hanswer
        rw [htls] at hanswer
        -- it was written, so the session is open, and the connection not marked
        have hunshut : t.shutdownSent = false := by
          cases hshut : t.shutdownSent with
          | false => rfl
          | true => simp [hshut] at hanswer
        have hopen : entry.closing = false := by
          rw [← show t.closing = entry.closing from (h.tended entry he).closing t htls]
          cases hclosing : t.closing with
          | false => rfl
          | true =>
            rw [(h.stage t htls).closing hclosing] at hunshut
            cases hunshut
        have hwrote : ssl.write s.writes remaining = .wrote n cipher := by
          simpa [hunshut] using hanswer
        have hlonger := ssl.expands s.writes remaining n cipher hwrote
        by_cases hzero : n = 0
        · rw [if_pos hzero]
          apply answered_attended hcalled htls he (by simp) (by simp)
          rw [TlsStage.Still.wants.held]
          exact Nat.le_add_right _ _
        · rw [if_neg hzero]
          apply answered_attended hcalled htls he (by simp) (by simp)
          have hheld := TlsStage.step_held_wrote hwriting n
          rw [hopen]
          simp only [Bool.false_eq_true, if_false]
          omega
      · apply answered_attended hcalled htls he (by simp) (by simp)
        rw [TlsStage.Still.wants.held]
        exact Nat.le_add_right _ _
      · exact teardown_attended hcalled
  · exact h

theorem step_attended (h : Attended marks s) (i : Input) :
    Attended marks (step backend ssl s i) := by
  cases i with
  | send data gone => exact backpressure_attended (httpEnqueue_attended h data) gone
  | enqueue data => exact httpEnqueue_attended h data
  | enqueueRaw data =>
    cases he : s.net.entry with
    | none =>
      have hsame : Net.httpEnqueueRaw backend data s.net = s.net := by
        unfold Net.httpEnqueueRaw
        rw [he]
        split <;> rfl
      unfold step
      dsimp only
      rw [hsame]
      exact h.withNet h.core h.corked fun _ hreads => hreads
    | some entry =>
      exact enqueueRaw_attended h he data rfl rfl h.stage (h.tended entry he).closing
        (Nat.le_add_right _ _)
  | cancel fut =>
    unfold step cancel
    dsimp only
    split
    · exact h.congr rfl rfl rfl
    · exact h
  | dispatchDrained =>
    unfold step dispatchDrained
    dsimp only
    split
    · exact h
    · exact h.congr rfl rfl rfl
  | onSendDone => exact onSendDone_attended h
  | flushCorked =>
    exact h.withNet (Net.flushCorked_core h.core) (Net.flushCorked_corked h.corked)
      fun _ hreads => Net.flushCorked_reads hreads
  | close linger => exact closeAfterWrite_attended .close linger h
  | lingerDone =>
    exact h.withNet (Net.lingerDone_core h.core) (Net.lingerDone_corked h.corked)
      fun _ hreads => Net.lingerDone_reads hreads
  | lingerExpired =>
    exact h.withNet (Net.lingerExpired_core h.core) (Net.lingerExpired_corked h.corked)
      fun _ hreads => Net.lingerExpired_reads hreads
  | teardown => exact teardown_attended h
  | tick nowNs flushImmediately =>
    exact ⟨h.core.congr rfl ⟨rfl, rfl, rfl⟩ ⟨rfl, rfl⟩, ⟨h.corked.listed, h.corked.waiting⟩, h.stage,
      fun entry he => ⟨(h.tended entry he).high, (h.tended entry he).low,
        (h.tended entry he).closing, (h.tended entry he).above⟩, h.gone⟩
  | flush => exact still_attended .flush h (by simp) (by simp)
  | ingest => exact still_attended .ingest h (by simp) (by simp)
  | handshakeDone => exact still_attended .handshakeDone h (by simp) (by simp)
  | sslWrite => exact sslWrite_attended h
  | written => exact still_attended .written h (by simp) (by simp)
  | closed linger =>
    unfold step
    dsimp only
    split
    · exact closeAfterWrite_attended .closed linger h
    · exact h

theorem init_attended (marks : Marks) (secure : Bool) : Attended marks (init marks secure) where
  core := (Net.stream_sound ⟨fun _ => true, fun _ _ => none, by simp⟩ true marks.high marks.low []).1
  corked := (Net.stream_sound ⟨fun _ => true, fun _ _ => none, by simp⟩ true marks.high marks.low []).2
  stage t ht := by
    cases secure with
    | false => cases ht
    | true =>
      injection ht with ht
      rw [← ht]
      exact TlsStage.init_sound
  tended entry he := by
    injection he with he
    rw [← he]
    refine ⟨rfl, rfl, fun t ht => ?_, fun hne => absurd rfl hne⟩
    cases secure with
    | false => cases ht
    | true =>
      injection ht with ht
      rw [← ht]
      rfl
  gone := by intro hnone; cases hnone

theorem init_orderly (marks : Marks) (secure : Bool) : Orderly (init marks secure) := by
  constructor <;> simp [init]

theorem run_attended (backend : Backend) (ssl : SslObject) (marks : Marks) (secure : Bool)
    (is : List Input) : Attended marks ((machine backend ssl marks secure).run is) ∧
      Orderly ((machine backend ssl marks secure).run is) :=
  (machine backend ssl marks secure).run_invariant (I := fun s => Attended marks s ∧ Orderly s)
    ⟨init_attended marks secure, init_orderly marks secure⟩
    (fun _ i h => ⟨step_attended h.1 i, step_orderly h.2 i⟩) is

/-! ## 5. No producer is left parked -/

/-- What is on its way to bring the pressure down: a send, a flush of the write queue, a `TlsFlush`
(queued or under way), or staged plaintext for which the session waits on the peer. -/
def Outstanding (s : State) (entry : TransportEntry) : Prop :=
  entry.sendOp.isSome ∨ (entry.flushScheduled ∧ 0 < s.net.flushList) ∨
    ∃ t, s.tls = some t ∧
      (0 < t.flushes ∨ t.flight.isSome ∨ t.staged ≠ [] ∧ (t.handshaking ∨ t.asked))

theorem Attended.outstanding (h : Attended marks s) {entry : TransportEntry}
    (he : s.net.entry = some entry) (hne : s.waiters ≠ []) : Outstanding s entry := by
  have habove := (h.tended entry he).above hne
  have hs := h.core.alive entry he
  by_cases hwq : entry.wq = []
  · -- nothing is queued for the wire, so it is the stage that is full
    have hqueued : entry.gauge.queued = 0 := by
      rw [show entry.gauge.queued = entry.queuedBytes from rfl, hs.queued, hwq]
      rfl
    cases htls : s.tls with
    | none => simp [State.staged, State.inHand, htls, hqueued] at habove
    | some t =>
      refine .inr (.inr ⟨t, htls, ?_⟩)
      by_cases hflight : t.flight = none
      · have hstaged : t.staged ≠ [] := by
          intro hnil
          simp [State.staged, State.inHand, TlsStage.State.inHand, htls, hqueued, hnil, hflight]
            at habove
        rcases (h.stage t htls).scheduled hstaged with hshaking | hflush | hasked
        · exact .inr (.inr ⟨hstaged, .inl hshaking⟩)
        · exact .inl hflush
        · exact .inr (.inr ⟨hstaged, .inr hasked.1⟩)
      · exact .inr (.inl (Option.isSome_iff_ne_none.mpr hflight))
  · rcases h.corked.waiting entry he hwq with hop | hscheduled
    · exact .inl hop
    · exact .inr (.inl ⟨hscheduled, h.corked.listed entry he hscheduled⟩)

theorem withNet_parked (net : NetState) : (s.withNet net).parked = s.parked := by
  unfold State.withNet
  split <;> rfl

theorem tlsStep_parked (i : TlsStage.Input UInt8) : (tlsStep i s).parked = s.parked := by
  unfold tlsStep
  split <;> rfl

theorem httpEnqueue_parked (data : List UInt8) : (httpEnqueue backend data s).parked = s.parked := by
  unfold httpEnqueue
  split
  · rfl
  split
  · rfl
  · exact withNet_parked _

theorem closeAfterWrite_parked (i : TlsStage.Input UInt8) (linger : Bool) :
    (closeAfterWrite i linger s).parked = s.parked := by
  unfold closeAfterWrite
  dsimp only
  split
  · rw [withNet_parked, tlsStep_parked]
  · exact tlsStep_parked i

/-- The rest of a `send()` parks over the high-water mark only. -/
theorem backpressure_parked (gone : Option Window) (hparks : (backpressure gone s).parked ≠ s.parked) :
    ∃ entry, s.net.entry = some entry ∧ entry.highWater < s.writePressure entry := by
  unfold backpressure at hparks
  cases he : s.net.entry with
  | none => simp [he] at hparks
  | some entry =>
    refine ⟨entry, rfl, ?_⟩
    by_contra hunder
    simp only [he, if_pos (Nat.le_of_not_lt hunder)] at hparks
    exact hparks rfl

/-- Nothing but a `send()` parks. -/
theorem step_parked (i : Input) (hparks : (step backend ssl s i).parked ≠ s.parked) :
    ∃ data gone entry, i = .send data gone ∧ (httpEnqueue backend data s).net.entry = some entry ∧
      entry.highWater < (httpEnqueue backend data s).writePressure entry := by
  cases i with
  | send data gone =>
    have hparks' : (backpressure gone (httpEnqueue backend data s)).parked ≠
        (httpEnqueue backend data s).parked := by
      rw [httpEnqueue_parked]
      exact hparks
    obtain ⟨entry, he, hover⟩ := backpressure_parked gone hparks'
    exact ⟨data, gone, entry, rfl, he, hover⟩
  | enqueue data => exact absurd (httpEnqueue_parked data) hparks
  | cancel fut =>
    refine absurd ?_ hparks
    unfold step cancel
    dsimp only
    split <;> rfl
  | dispatchDrained =>
    refine absurd ?_ hparks
    unfold step dispatchDrained
    dsimp only
    split <;> rfl
  | onSendDone =>
    refine absurd ?_ hparks
    unfold step onSendDone
    dsimp only
    split
    · rfl
    split
    · rfl
    split
    · exact withNet_parked _
    · rw [withNet_parked]
      split <;> rfl
  | sslWrite =>
    refine absurd ?_ hparks
    unfold step sslWrite
    dsimp only
    split
    · split
      · rfl
      split
      · rw [withNet_parked, tlsStep_parked]
      · rw [withNet_parked, tlsStep_parked]
      · exact withNet_parked _
    · rfl
  | closed linger =>
    refine absurd ?_ hparks
    unfold step
    dsimp only
    split
    · exact closeAfterWrite_parked _ _
    · rfl
  | close linger => exact absurd (closeAfterWrite_parked _ _) hparks
  | enqueueRaw data => exact absurd (withNet_parked _) hparks
  | flushCorked => exact absurd (withNet_parked _) hparks
  | lingerDone => exact absurd (withNet_parked _) hparks
  | lingerExpired => exact absurd (withNet_parked _) hparks
  | teardown => exact absurd (withNet_parked _) hparks
  | tick nowNs flushImmediately => exact absurd rfl hparks
  | flush => exact absurd (tlsStep_parked _) hparks
  | ingest => exact absurd (tlsStep_parked _) hparks
  | handshakeDone => exact absurd (tlsStep_parked _) hparks
  | written => exact absurd (tlsStep_parked _) hparks

end Cadeloop.Pyshim.Drain
