import Cadeloop.Pyshim.WsConnSteps

/-!
# When a WebSocket reads (`crates/pyshim/src/http.rs`)

Reading stops while the inbox or what is owed to the peer is over its budget, and starts again once
both have eased.  The inbox's side of it rests on a counter, which a Close or a failed frame makes
wrong: its disconnect is queued without the charge every other message pays.
-/

namespace Cadeloop.Pyshim.Http

open Core.Ws Cadeloop.Reasoning
open Net (Backend NetState TransportEntry Grows)

/-! ## 1. The counter -/

def Receiving.charge (s : Receiving) : Nat := (s.inbox.map fun m => m.msg.charge).sum

def Charged (s : Receiving) : Prop := s.inboxBytes = s.charge

/-- A step that leaves the inbox alone. -/
theorem Charged.same {s s' : Receiving} (h : Charged s) (hinbox : s'.inbox = s.inbox)
    (hbytes : s'.inboxBytes = s.inboxBytes) : Charged s' := by
  unfold Charged Receiving.charge
  rw [hinbox, hbytes]
  exact h

theorem pushMsg_charged {s : Receiving} (msg : WsMsg) (h : Charged s) :
    Charged (pushMsg true msg s) := by
  show s.inboxBytes + msg.charge = _
  simp only [Receiving.charge, pushMsg, List.map_append, List.sum_append, List.map_cons,
    List.map_nil, List.sum_cons, List.sum_nil]
  have hs : s.inboxBytes = (s.inbox.map fun m => m.msg.charge).sum := h
  omega

theorem foldl_pushEvent_charged {evs : List WsEvent} (hopen : ∀ ev ∈ evs, ev.last = false)
    {s : Receiving} (h : Charged s) : Charged (evs.foldl pushEvent s) := by
  induction evs generalizing s with
  | nil => exact h
  | cons ev evs ih =>
    refine ih (fun ev' hev' => hopen ev' (List.mem_cons_of_mem _ hev')) ?_
    unfold pushEvent
    split
    · exact h
    · rw [hopen ev List.mem_cons_self]
      exact pushMsg_charged _ h

theorem tornDown_charged {s : Receiving} (h : Charged s) : Charged (tornDown s) := by
  unfold tornDown
  split
  · exact h
  · rfl

def ReceiveEvent.restores : ReceiveEvent → Bool
  | .dropResult _ => true
  | _ => false

/-- What one step of the `receive()` calls does to the inbox. -/
inductive Shift (restores : Bool) (s s' : Receiving) : Prop
  | still (peer : s'.peer = s.peer) (inbox : s'.inbox = s.inbox)
      (bytes : s'.inboxBytes = s.inboxBytes)
  | popped (peer : s'.peer = s.peer) (m : Arrival) (rest : List Arrival)
      (was : s.inbox = m :: rest) (inbox : s'.inbox = rest)
      (bytes : s'.inboxBytes = s.inboxBytes - m.msg.charge)
  | back (restored : restores = true) (peer : s'.peer = s.peer) (m : Arrival) (inbox : s'.inbox = m :: s.inbox)
      (bytes : s'.inboxBytes = s.inboxBytes + m.msg.charge)

theorem Shift.peer {restores : Bool} {s s' : Receiving} (h : Shift restores s s') : s'.peer = s.peer := by
  cases h <;> assumption

theorem Shift.charged {restores : Bool} {s s' : Receiving}
    (hshift : Shift restores s s') (h : Charged s) : Charged s' := by
  have hs : s.inboxBytes = (s.inbox.map fun m => m.msg.charge).sum := h
  cases hshift with
  | still _ inbox bytes => exact h.same inbox bytes
  | popped _ m rest was inbox bytes =>
    rw [was, List.map_cons, List.sum_cons] at hs
    show s'.inboxBytes = (s'.inbox.map fun m => m.msg.charge).sum
    rw [inbox, bytes]
    omega
  | back _ _ m inbox bytes =>
    show s'.inboxBytes = (s'.inbox.map fun m => m.msg.charge).sum
    rw [inbox, bytes, List.map_cons, List.sum_cons]
    omega

theorem Shift.bytes_of_length {restores : Bool} {s s' : Receiving}
    (hshift : Shift restores s s')
    (hlength : s'.inbox.length = s.inbox.length) : s'.inboxBytes = s.inboxBytes := by
  cases hshift with
  | still _ _ bytes => exact bytes
  | popped _ m rest was inbox _ =>
    rw [inbox, was, List.length_cons] at hlength
    omega
  | back _ _ m inbox _ =>
    rw [inbox, List.length_cons] at hlength
    omega

theorem wsWake_shift {restores : Bool} (s : Receiving) : Shift restores s (wsWake s) := by
  unfold wsWake
  split
  · exact .still rfl rfl rfl
  dsimp only
  split
  · exact .still rfl rfl rfl
  split
  · exact .still rfl rfl rfl
  split <;> exact .still rfl rfl rfl

theorem hangup_same (s : Receiving) : (hangup s).peer = s.peer ∧ (hangup s).inbox = s.inbox ∧
    (hangup s).inboxBytes = s.inboxBytes := by
  unfold hangup
  split
  · exact ⟨rfl, rfl, rfl⟩
  dsimp only
  split <;> exact ⟨rfl, rfl, rfl⟩

theorem receive_shift {restores : Bool} (s : Receiving) : Shift restores s (receive s) := by
  unfold receive
  split
  · exact .still rfl rfl rfl
  split
  · exact .still rfl rfl rfl
  split
  · rename_i m rest hinbox
    exact .popped rfl m rest hinbox rfl rfl
  · split <;> exact .still rfl rfl rfl

theorem parkWaiter_shift {restores : Bool} (s : Receiving) : Shift restores s (parkWaiter s) := by
  unfold parkWaiter
  split
  · exact .still rfl rfl rfl
  dsimp only
  split <;> exact .still rfl rfl rfl

theorem take_shift {restores : Bool} (r : Nat) (s : Receiving) :
    Shift restores s (take r s) := by
  unfold take
  dsimp only
  split
  · exact .still rfl rfl rfl
  split
  · rename_i m rest hinbox
    exact .popped rfl m rest hinbox rfl rfl
  · split <;> exact .still rfl rfl rfl

theorem resume_shift {restores : Bool} (r : Nat) (s : Receiving) :
    Shift restores s (resume r s) := by
  unfold resume
  split
  · exact .still rfl rfl rfl
  · split
    · exact take_shift r s
    · exact .still rfl rfl rfl
    · exact .still rfl rfl rfl
    · exact .still rfl rfl rfl
  · exact .still rfl rfl rfl

theorem dropResult_shift (i : Nat) (s : Receiving) : Shift true s (dropResult i s) := by
  unfold dropResult
  split
  · exact .still rfl rfl rfl
  dsimp only
  split
  · exact .still rfl rfl rfl
  split
  · unfold putBackConnect
    split <;> exact .still rfl rfl rfl
  · rename_i m _
    exact .back rfl rfl m rfl rfl

theorem receiveStep_shift (s : Receiving) {event : ReceiveEvent} (hcalled : event.called = true) :
    Shift event.restores s (receiveStep s event) := by
  unfold receiveStep
  split
  · exact parkWaiter_shift s
  · exact dropResult_shift _ s
  · exact absurd hcalled (by simp [ReceiveEvent.called])
  · exact wsWake_shift s
  · exact receive_shift s
  · exact resume_shift _ s
  · unfold cancelWaiter
    split
    · split <;> exact .still rfl rfl rfl
    · exact .still rfl rfl rfl
  · unfold abandon
    split
    · dsimp only
      split
      · exact .still rfl rfl rfl
      · split <;> exact .still rfl rfl rfl
      · exact .still rfl rfl rfl
    · exact .still rfl rfl rfl
  · unfold awaitResult
    split <;> exact .still rfl rfl rfl
  · exact .still rfl rfl rfl

/-! ## 2. The pause -/

section Pause

variable {backend : Backend} {headLen highWater lowWater : Nat} {s : WsConn}

structure Paced (highWater lowWater : Nat) (s : WsConn) : Prop where
  charged : Charged s.recv
  paused : s.readingPaused = s.inboxPaused
  marks : ∀ entry, s.net.entry = some entry →
    entry.highWater = highWater ∧ entry.lowWater = lowWater
  lingers : ∀ entry, s.net.entry = some entry → entry.lingering = true → entry.closing = true
  calm : s.ws = false → s.inboxPaused = false
  budget : s.ws = true → s.pipelinePaused = false

/-- A paused connection has a reason to be. -/
def Held (lowWater : Nat) (s : WsConn) : Prop :=
  ∀ entry, s.net.entry = some entry → entry.closing = false → s.inboxPaused = true →
    s.recv.inboxBytes * 2 ≥ wsMaxInbox ∨ s.pressure entry > lowWater

/-- One that is not paused reads. -/
def Reads (s : WsConn) : Prop :=
  ∀ entry, s.net.entry = some entry → entry.closing = false → s.recv.peer = .here →
    s.inboxPaused = false → s.pipelinePaused = false → s.recvOp = true

structure Regular (highWater lowWater : Nat) (s : WsConn) : Prop where
  paced : Paced highWater lowWater s
  held : Held lowWater s
  reads : Reads s

theorem Steady.paced {s' : WsConn} (hsteady : Steady s s') (h : Paced highWater lowWater s) :
    Paced highWater lowWater s' where
  charged := by
    rcases hsteady.recv with ⟨hrecv, -⟩ | ⟨-, hrecv⟩
    · exact hrecv ▸ h.charged
    · exact hrecv ▸ tornDown_charged h.charged
  paused := by
    rw [hsteady.rest]
    exact h.paused
  marks := by
    intro entry' he'
    obtain ⟨entry, he, honward, -⟩ := hsteady.entry entry' he'
    rw [honward.highWater, honward.lowWater]
    exact h.marks entry he
  lingers := by
    intro entry' he' hlingering
    obtain ⟨entry, he, honward, -⟩ := hsteady.entry entry' he'
    rcases honward.lingering hlingering with hlingering | hclosing
    · exact honward.closing (h.lingers entry he hlingering)
    · exact hclosing
  calm := by
    rw [hsteady.rest]
    exact h.calm
  budget := by
    rw [hsteady.rest]
    exact h.budget

theorem Steady.opened {s' : WsConn} (hsteady : Steady s s') {entry' : TransportEntry}
    (he' : s'.net.entry = some entry') (hopen : entry'.closing = false) :
    ∃ entry, s.net.entry = some entry ∧ entry.closing = false ∧
      s.pressure entry ≤ s'.pressure entry' ∧ s'.recv = s.recv := by
  obtain ⟨entry, he, honward, hpressure⟩ := hsteady.entry entry' he'
  refine ⟨entry, he, ?_, hpressure hopen, ?_⟩
  · by_contra hclosing
    exact absurd ((honward.closing (by simpa using hclosing)).symm.trans hopen) (by simp)
  · rcases hsteady.recv with ⟨hrecv, -⟩ | ⟨hnone, -⟩
    · exact hrecv
    · exact absurd (hnone.symm.trans he') (by simp)

theorem Steady.held {s' : WsConn} (hsteady : Steady s s') (h : Held lowWater s) :
    Held lowWater s' := by
  intro entry' he' hopen hpaused
  obtain ⟨entry, he, hopen₀, hpressure, hrecv⟩ := hsteady.opened he' hopen
  rw [hrecv]
  rw [hsteady.rest] at hpaused
  exact (h entry he hopen₀ hpaused).imp_right fun hover => by omega

theorem Steady.reads {s' : WsConn} (hsteady : Steady s s') (h : Reads s) : Reads s' := by
  intro entry' he' hopen hhere hunpaused hbudget
  obtain ⟨entry, he, hopen₀, -, hrecv⟩ := hsteady.opened he' hopen
  rw [hrecv] at hhere
  rw [hsteady.rest] at hunpaused hbudget
  exact hsteady.recvOp entry' he' hopen (h entry he hopen₀ hhere hunpaused hbudget)

theorem Steady.regular {s' : WsConn} (hsteady : Steady s s') (h : Regular highWater lowWater s) :
    Regular highWater lowWater s' :=
  ⟨hsteady.paced h.paced, hsteady.held h.held, hsteady.reads h.reads⟩

/-- Whatever the receive was, this decides it anew. -/
theorem postRecv_reads (ok : Bool) (h : Paced highWater lowWater s) : Reads (postRecv ok s) := by
  unfold postRecv
  cases he : s.net.entry with
  | none => exact fun entry he' => absurd (he.symm.trans he') (by simp)
  | some entry =>
    dsimp only
    split
    · rename_i hheld
      intro entry' he' hopen hhere hunpaused hbudget
      obtain rfl : entry = entry' := Option.some.inj (he.symm.trans he')
      rcases hheld with hrecv | hpaused | ⟨hclosing, -⟩
      · exact hrecv
      · exact absurd (h.paused.symm.trans hpaused) (by simp [hunpaused])
      · exact absurd (hclosing.symm.trans hopen) (by simp)
    split
    · rename_i hpaused
      intro entry' he' hopen hhere hunpaused hbudget
      rcases hpaused.2 with hspent | hinbox
      · exact absurd (hspent.symm.trans hbudget) (by simp)
      · exact absurd (hinbox.symm.trans hunpaused) (by simp)
    split
    · exact fun _ _ _ _ _ _ => rfl
    · intro entry' he'
      exact absurd ((Net.teardown_none s.net .failed).symm.trans he') (by simp)

/-- What a sync does: nothing, stop reading, or start again. -/
theorem wsSyncReadPause_cases (postOk : Bool) (h : Paced highWater lowWater s) :
    (wsSyncReadPause postOk s = s ∧ ∀ entry, s.net.entry = some entry → s.ws = true →
        s.wantPause entry = s.inboxPaused) ∨
      (∃ entry, s.net.entry = some entry ∧ s.wantPause entry = true ∧ s.inboxPaused = false ∧
        s.ws = true ∧
        wsSyncReadPause postOk s = { s with inboxPaused := true, readingPaused := true }) ∨
      (∃ entry, s.net.entry = some entry ∧ s.wantPause entry = false ∧ s.inboxPaused = true ∧
        wsSyncReadPause postOk s =
          postRecv postOk { s with inboxPaused := false, readingPaused := false }) := by
  unfold wsSyncReadPause
  cases he : s.net.entry with
  | none => exact .inl ⟨rfl, fun _ he' => absurd he' (by simp)⟩
  | some entry =>
    dsimp only
    split
    · rename_i hsame
      refine .inl ⟨rfl, fun entry' he' hws => ?_⟩
      obtain rfl := Option.some.inj he'
      exact hsame.resolve_left (by simp [hws])
    rename_i hdiffers
    obtain ⟨hws, hdiffers⟩ := not_or.mp hdiffers
    split
    · rename_i hwant
      refine .inr (.inl ⟨entry, rfl, hwant, ?_, by simpa using hws, rfl⟩)
      simpa [hwant] using hdiffers
    · rename_i hwant
      have hpaused : s.inboxPaused = true := by simpa [hwant] using hdiffers
      rw [if_neg (by simp [h.paused, hpaused])]
      exact .inr (.inr ⟨entry, rfl, by simpa using hwant, hpaused, rfl⟩)

theorem postRecv_alive (ok : Bool) {entry : TransportEntry}
    (he : (postRecv ok s).net.entry = some entry) :
    postRecv ok s = { s with recvOp := (postRecv ok s).recvOp } := by
  have hcases : postRecv ok s = { s with recvOp := (postRecv ok s).recvOp } ∨
      (postRecv ok s).net.entry = none := by
    unfold postRecv
    split
    · exact .inl rfl
    split
    · exact .inl rfl
    split
    · exact .inl rfl
    split
    · exact .inl rfl
    · exact .inr (Net.teardown_none _ .failed)
  exact hcases.resolve_right fun hnone => absurd (hnone.symm.trans he) (by simp)

theorem wsSyncReadPause_paced (postOk : Bool) (h : Paced highWater lowWater s) :
    Paced highWater lowWater (wsSyncReadPause postOk s) := by
  rcases wsSyncReadPause_cases postOk h with ⟨heq, -⟩ | ⟨entry, he, -, -, hws, heq⟩ |
    ⟨entry, -, -, -, heq⟩
  · rw [heq]
    exact h
  · rw [heq]
    exact { h with paused := rfl, calm := fun hfalse => absurd (hws.symm.trans hfalse) (by simp) }
  · rw [heq]
    refine (postRecv_steady postOk).paced ?_
    exact { h with paused := rfl, calm := fun _ => rfl }

theorem wsSyncReadPause_held (hmarks : lowWater ≤ highWater) (postOk : Bool)
    (h : Paced highWater lowWater s) : Held lowWater (wsSyncReadPause postOk s) := by
  rcases wsSyncReadPause_cases postOk h with ⟨heq, hsame⟩ | ⟨entry, he, hwant, hunpaused, -, heq⟩ |
    ⟨entry, -, -, -, heq⟩
  · rw [heq]
    intro entry he hopen hpaused
    have hws : s.ws = true := by
      by_contra hws
      exact absurd ((h.calm (by simpa using hws)).symm.trans hpaused) (by simp)
    have hwant := hsame entry he hws
    rw [WsConn.wantPause, hpaused, if_pos rfl, (h.marks entry he).2] at hwant
    exact of_decide_eq_true hwant
  · rw [heq]
    intro entry' he' hopen hpaused
    obtain rfl : entry = entry' := Option.some.inj (he.symm.trans he')
    rw [WsConn.wantPause, hunpaused, if_neg (by simp), (h.marks entry he).1] at hwant
    show s.recv.inboxBytes * 2 ≥ wsMaxInbox ∨ s.pressure entry > lowWater
    rcases of_decide_eq_true hwant with hfull | hover
    · exact .inl (by omega)
    · exact .inr (by omega)
  · rw [heq]
    refine (postRecv_steady postOk).held ?_
    exact fun _ _ _ hpaused => absurd hpaused (by simp)

theorem wsSyncReadPause_reads (postOk : Bool) (h : Paced highWater lowWater s) (hreads : Reads s) :
    Reads (wsSyncReadPause postOk s) := by
  rcases wsSyncReadPause_cases postOk h with ⟨heq, -⟩ | ⟨entry, he, -, -, -, heq⟩ |
    ⟨entry, -, -, -, heq⟩
  · rw [heq]
    exact hreads
  · rw [heq]
    exact fun _ _ _ _ hunpaused => absurd hunpaused (by simp)
  · rw [heq]
    refine @postRecv_reads highWater lowWater _ postOk ?_
    exact { h with paused := rfl, calm := fun _ => rfl }

/-- **Over its budget, it does not read.** -/
theorem wsSyncReadPause_over (hmarks : lowWater ≤ highWater) (postOk : Bool)
    (h : Paced highWater lowWater s) (hws : s.ws = true) {entry : TransportEntry}
    (he : (wsSyncReadPause postOk s).net.entry = some entry)
    (hover : (wsSyncReadPause postOk s).recv.inboxBytes ≥ wsMaxInbox ∨
      (wsSyncReadPause postOk s).pressure entry > highWater) :
    (wsSyncReadPause postOk s).readingPaused = true := by
  rcases wsSyncReadPause_cases postOk h with ⟨heq, hsame⟩ | ⟨entry', -, -, -, -, heq⟩ |
    ⟨entry', he', hwant, hpaused, heq⟩
  · rw [heq] at he hover ⊢
    rw [h.paused]
    by_contra hunpaused
    have hunpaused : s.inboxPaused = false := by simpa using hunpaused
    have hwant := hsame entry he hws
    rw [WsConn.wantPause, hunpaused, if_neg (by simp), (h.marks entry he).1] at hwant
    exact absurd hover (of_decide_eq_false hwant)
  · rw [heq]
  · exfalso
    rw [heq] at he hover
    have halive := postRecv_alive postOk he
    rw [halive] at he hover
    obtain rfl : entry' = entry := Option.some.inj (he'.symm.trans he)
    rw [WsConn.wantPause, hpaused, if_pos rfl, (h.marks entry' he').2] at hwant
    have hunder := of_decide_eq_false hwant
    have hpressure : ¬ s.pressure entry' > highWater := fun hover => hunder (.inr (by omega))
    rcases hover with hfull | hover
    · exact hunder (.inl (Nat.le_trans hfull (Nat.le_mul_of_pos_right _ (by decide))))
    · exact hpressure hover

/-! ## 3. The steps -/

theorem foldl_pushEvent_peer (evs : List WsEvent) (recv : Receiving) :
    (evs.foldl pushEvent recv).peer = recv.peer := by
  induction evs generalizing recv with
  | nil => rfl
  | cons ev evs ih =>
    rw [List.foldl_cons, ih]
    unfold pushEvent
    split <;> rfl

/-- The state a read leaves, before the pause is decided. -/
theorem wsIngestAccepted_eq (postOk : Bool) {data : Bytes}
    (hopen : ∀ ev ∈ (s.rx.push data).1, ev.last = false) (h : Paced highWater lowWater s) :
    ∃ s', wsIngestAccepted backend postOk data s = wsSyncReadPause postOk s' ∧ s'.ws = s.ws ∧
      Paced highWater lowWater s' ∧ (Reads s → Reads s') := by
  refine ⟨_, rfl, ?_⟩
  generalize hpushed : { s with
      rx := (s.rx.push data).2
      closing := s.closing || (s.rx.push data).1.any WsEvent.last
      recv := (s.rx.push data).1.foldl pushEvent s.recv
      pushed := s.pushed ++ data } = s₁
  have hpaced : Paced highWater lowWater s₁ :=
    hpushed ▸ { h with charged := foldl_pushEvent_charged hopen h.charged }
  have hreads : Reads s → Reads s₁ := by
    rw [← hpushed]
    intro hreads entry he hunclosed hhere
    rw [foldl_pushEvent_peer] at hhere
    exact hreads entry he hunclosed hhere
  have hws : s₁.ws = s.ws := by rw [← hpushed]
  have hsteady := @answer_steady backend s₁ (replies s.closing (s.rx.push data).1)
    ((s.rx.push data).1.any WsEvent.last)
  generalize answer backend _ _ s₁ = s₂ at hsteady ⊢
  have hws₂ : s₂.ws = s.ws := by rw [hsteady.rest, ← hws]
  have hpaced₂ := hsteady.paced hpaced
  split
  · exact ⟨hws₂, { hpaced₂ with charged := hpaced₂.charged.same rfl rfl },
      fun hs => hsteady.reads (hreads hs)⟩
  · exact ⟨hws₂, hpaced₂, fun hs => hsteady.reads (hreads hs)⟩

theorem wsIngest_paced (hmarks : lowWater ≤ highWater) (postOk : Bool) {data : Bytes}
    (hopen : s.accepted = true → ∀ ev ∈ (s.rx.push data).1, ev.last = false)
    (h : Paced highWater lowWater s) (hheld : Held lowWater s) :
    Paced highWater lowWater (wsIngest backend postOk data s) ∧
      Held lowWater (wsIngest backend postOk data s) ∧
      (Reads s → Reads (wsIngest backend postOk data s)) := by
  unfold wsIngest
  split
  · exact ⟨h, hheld, id⟩
  split
  · split
    · have hrejected : Steady { s with trailing := [] } _ :=
        (@httpEnqueue_steady backend _
          (errorResponse 413 "payload too large" s.activeMinor)).trans httpCloseAfterWrite_steady
      exact ⟨hrejected.paced { h with }, hrejected.held hheld, fun hreads => hrejected.reads hreads⟩
    · exact ⟨{ h with }, hheld, id⟩
  · rename_i haccepted
    obtain ⟨s', heq, -, hpaced, hreads⟩ := @wsIngestAccepted_eq backend _ _ _ postOk _
      (hopen (by simpa using haccepted)) h
    rw [heq]
    exact ⟨wsSyncReadPause_paced postOk hpaced, wsSyncReadPause_held hmarks postOk hpaced,
      fun hs => wsSyncReadPause_reads postOk hpaced (hreads hs)⟩

theorem httpIngest_paced (pause : Bool) (data : Bytes) (hws : s.ws = false)
    (h : Paced highWater lowWater s) (hheld : Held lowWater s) :
    Paced highWater lowWater (httpIngest headLen pause data s) ∧
      Held lowWater (httpIngest headLen pause data s) ∧
      (Reads s → Reads (httpIngest headLen pause data s)) := by
  have hnows : ∀ b : Bool, s.ws = true → b = false := fun _ htrue =>
    absurd (htrue.symm.trans hws) (by simp)
  have hfed := connFeed_eq headLen data s
  unfold httpIngest
  generalize connFeed headLen data s = fed at hfed ⊢
  obtain ⟨oversize, s₁⟩ := fed
  dsimp only at hfed ⊢
  generalize s₁.parser = parser, s₁.trailing = trailing at hfed
  subst hfed
  split
  · have hdropped : Steady { s with parser := parser, trailing := trailing } _ :=
      teardown_steady
    exact ⟨hdropped.paced { h with }, hdropped.held hheld, fun hreads => hdropped.reads hreads⟩
  · refine ⟨{ h with budget := hnows _ }, hheld, fun hreads entry he hopen hhere hunpaused hbudget => ?_⟩
    exact hreads entry he hopen hhere hunpaused (Bool.or_eq_false_iff.mp hbudget).1

theorem closed_reads (hclosed : ∀ entry, s.net.entry = some entry → entry.closing = true) : Reads s :=
  fun entry he hopen => absurd ((hclosed entry he).symm.trans hopen) (by simp)

theorem gone_reads (hnone : s.net.entry = none) : Reads s :=
  closed_reads fun entry he => absurd (hnone.symm.trans he) (by simp)

theorem peerGone_shift (recv : Receiving) : (peerGone recv).inbox = recv.inbox ∧
    (peerGone recv).inboxBytes = recv.inboxBytes ∧ (peerGone recv).peer ≠ .here := by
  unfold peerGone
  split
  · exact ⟨rfl, rfl, by simp⟩
  · exact ⟨rfl, rfl, by assumption⟩

theorem onRecvDone_regular (hmarks : lowWater ≤ highWater) {result : Option Bytes}
    (pause postOk : Bool)
    (hopen : s.accepted = true → s.ws = true → s.tls = none → (s.net.entry.any fun e => !e.closing) →
      ∀ data, result = some data → ∀ ev ∈ (s.rx.push data).1, ev.last = false)
    (h : Regular highWater lowWater s) :
    Regular highWater lowWater (onRecvDone backend headLen result pause postOk s) := by
  have hreposted : ∀ s' : WsConn, Paced highWater lowWater s' → Held lowWater s' →
      Regular highWater lowWater (postRecv postOk s') := fun s' hpaced hheld =>
    ⟨(postRecv_steady postOk).paced hpaced, (postRecv_steady postOk).held hheld,
      postRecv_reads postOk hpaced⟩
  unfold onRecvDone
  dsimp only
  cases he : s.net.entry with
  | none => exact ⟨{ h.paced with }, h.held, gone_reads he⟩
  | some entry =>
    dsimp only
    generalize s.received ++ (if s.tls.isSome then [] else result.getD []) = received
    have hpaced : Paced highWater lowWater { s with recvOp := false, received := received } :=
      { h.paced with }
    have hheld : Held lowWater { s with recvOp := false, received := received } := h.held
    have htorn : Regular highWater lowWater
        ({ s with recvOp := false, received := received }.onNet (Net.teardown · .failed)) :=
      ⟨teardown_steady.paced hpaced, teardown_steady.held hheld, gone_reads (Net.teardown_none _ _)⟩
    split
    · rename_i hlingering
      have hclosing := h.paced.lingers entry he hlingering
      split
      · exact htorn
      · have hdone : Steady { s with recvOp := false, received := received } _ :=
          onNet_steady Net.lingerDone_grows
        refine ⟨hdone.paced hpaced, hdone.held hheld, closed_reads fun entry' he' => ?_⟩
        obtain ⟨entry₀, he₀, honward, -⟩ := hdone.entry entry' he'
        obtain rfl : entry = entry₀ := Option.some.inj (he.symm.trans he₀)
        exact honward.closing hclosing
      · exact hreposted _ hpaced hheld
    split
    · rename_i hclosing
      refine ⟨hpaced, hheld, closed_reads fun entry' he' => ?_⟩
      obtain rfl : entry = entry' := Option.some.inj (he.symm.trans he')
      exact hclosing
    rename_i hunclosed
    split
    · exact htorn
    · obtain ⟨hinbox, hbytes, hpeer⟩ := peerGone_shift s.recv
      refine ⟨{ hpaced with charged := h.paced.charged.same hinbox hbytes }, ?_, ?_⟩
      · intro entry' he' hopen' hpaused
        show (peerGone s.recv).inboxBytes * 2 ≥ wsMaxInbox ∨ _
        rw [hbytes]
        exact h.held entry' he' hopen' hpaused
      · exact fun _ _ _ hhere => absurd hhere hpeer
    · rename_i data _
      split
      · exact hreposted _ { hpaced with } hheld
      rename_i htls
      split
      · rename_i hws
        obtain ⟨hpaced', hheld', -⟩ := @wsIngest_paced backend _ _
          { s with recvOp := false, received := received } hmarks postOk data
          (fun haccepted => hopen haccepted hws (by simpa using htls)
            (by simpa [he] using hunclosed) data rfl) hpaced hheld
        exact hreposted _ hpaced' hheld'
      · rename_i hws
        obtain ⟨hpaced', hheld', -⟩ := @httpIngest_paced headLen _ _
          { s with recvOp := false, received := received } pause data (by simpa using hws) hpaced hheld
        exact hreposted _ hpaced' hheld'

theorem tlsIngest_regular (hmarks : lowWater ≤ highWater) {unsealed : Unsealed} {sealing : Sealed}
    (pause postOk : Bool) (hvalid : sealing.Valid s)
    (hopen : s.accepted = true → s.ws = true → s.net.entry.isSome →
      ∀ ev ∈ (s.rx.push unsealed.plaintext).1, ev.last = false)
    (h : Regular highWater lowWater s) :
    Regular highWater lowWater (tlsIngest backend headLen unsealed sealing pause postOk s) := by
  obtain ⟨s', hsteady, ⟨heq, -⟩ | heq⟩ :=
    @tlsIngest_eq backend _ headLen unsealed sealing pause postOk hvalid
  · rw [heq]
    exact h
  have h' : Regular highWater lowWater s' :=
    hsteady.regular ⟨{ h.paced with }, h.held, h.reads⟩
  rw [heq]
  split
  · exact h'
  rename_i hingests
  have hthere : s'.net.entry.isSome := by
    simpa [Option.isSome_iff_ne_none] using (not_or.mp hingests).2
  have hrest := hsteady.rest
  split
  · rename_i hws
    have hnoend : s'.accepted = true → ∀ ev ∈ (s'.rx.push unsealed.plaintext).1, ev.last = false := by
      obtain ⟨entry', he'⟩ := Option.isSome_iff_exists.mp hthere
      obtain ⟨entry, he, -⟩ := hsteady.entry entry' he'
      rw [hrest] at hws ⊢
      exact fun haccepted => hopen haccepted hws (Option.isSome_iff_exists.mpr ⟨entry, he⟩)
    obtain ⟨hpaced, hheld, hreads⟩ := @wsIngest_paced backend _ _ _ hmarks postOk _ hnoend
      h'.paced h'.held
    exact ⟨hpaced, hheld, hreads h'.reads⟩
  · rename_i hws
    obtain ⟨hpaced, hheld, hreads⟩ := @httpIngest_paced headLen _ _ _ pause
      unsealed.plaintext (by simpa using hws) h'.paced h'.held
    exact ⟨hpaced, hheld, hreads h'.reads⟩

theorem wsAccept_regular (hmarks : lowWater ≤ highWater) (head : Bytes) (postOk : Bool)
    (hopen : s.accepted = false → s.net.entry.isSome → s.trailing ≠ [] →
      ∀ ev ∈ (s.rx.push s.trailing).1, ev.last = false)
    (h : Regular highWater lowWater s) :
    Regular highWater lowWater (wsAccept backend head postOk s) := by
  unfold wsAccept
  split
  · exact h
  rename_i hrefused
  obtain ⟨hthere, hnotyet⟩ := not_or.mp hrefused
  have hsteady : Steady { s with accepted := true, trailing := [] }
      (httpEnqueue backend head { s with accepted := true, trailing := [] }) :=
    httpEnqueue_steady head
  have h' := @Steady.regular highWater lowWater _ _ hsteady
    ⟨{ h.paced with }, h.held, h.reads⟩
  dsimp only
  split
  · exact h'
  · rename_i htrailing
    have hrx : (httpEnqueue backend head { s with accepted := true, trailing := [] }).rx = s.rx := by
      rw [hsteady.rest]
    obtain ⟨hpaced, hheld, hreads⟩ := @wsIngest_paced backend _ _ _ hmarks
      postOk s.trailing (fun _ => by
        rw [hrx]
        exact hopen (by simpa using hnotyet)
          (by simpa [Option.isSome_iff_ne_none] using hthere) htrailing)
      h'.paced h'.held
    exact ⟨hpaced, hheld, hreads h'.reads⟩

theorem wsEnd_regular (status : Nat) (reason : String) (code : Nat) (why : String)
    (h : Regular highWater lowWater s) :
    Regular highWater lowWater (wsEnd backend status reason code why s) := by
  unfold wsEnd
  split
  · exact h
  · exact httpCloseAfterWrite_steady.regular ((httpEnqueue_steady _).regular
      ⟨{ h.paced with }, h.held, h.reads⟩)

theorem finishRequest_regular (h : Regular highWater lowWater s) :
    Regular highWater lowWater (finishRequest s) := by
  have hclosed : Regular highWater lowWater
      (httpCloseAfterWrite { s with recv := { s.recv with recvWaiters := [] } }) :=
    httpCloseAfterWrite_steady.regular
      ⟨{ h.paced with charged := h.paced.charged.same rfl rfl }, h.held, h.reads⟩
  exact ⟨{ hclosed.paced with charged := hclosed.paced.charged.same rfl rfl }, hclosed.held,
    hclosed.reads⟩

theorem httpBeginShutdown_regular (h : Regular highWater lowWater s) :
    Regular highWater lowWater (httpBeginShutdown backend s) := by
  unfold httpBeginShutdown
  split
  · exact h
  have h' : Regular highWater lowWater
      (httpEnqueue backend (closeFrame 1012 "server shutdown") s) :=
    (httpEnqueue_steady _).regular h
  generalize httpEnqueue backend (closeFrame 1012 "server shutdown") s = s₁ at h' ⊢
  dsimp only
  split
  · exact h'
  have hpushed : ∀ wakes, Regular highWater lowWater { s₁ with
      closing := true
      recv := { pushMsg true (.disconnect 1012) { s₁.recv with recvWaiters := [] } with
        wakes := wakes } } := by
    intro wakes
    refine ⟨{ h'.paced with
      charged := (pushMsg_charged _ (h'.paced.charged.same rfl rfl)).same rfl rfl }, ?_, h'.reads⟩
    intro entry he hopen hpaused
    refine (h'.held entry he hopen hpaused).imp_left fun hfull => ?_
    show (s₁.recv.inboxBytes + _) * 2 ≥ wsMaxInbox
    omega
  split
  · exact httpCloseAfterWrite_steady.regular (hpushed _)
  · exact hpushed _

theorem onReceive_regular (hmarks : lowWater ≤ highWater) (postOk : Bool) {event : ReceiveEvent}
    (hcalled : event.called = true) (h : Regular highWater lowWater s) :
    Regular highWater lowWater (onReceive postOk event s) := by
  have hshift := receiveStep_shift s.recv hcalled
  have hpaced : Paced highWater lowWater { s with recv := receiveStep s.recv event } :=
    { h.paced with charged := hshift.charged h.paced.charged }
  have hreads : Reads { s with recv := receiveStep s.recv event } := fun entry he hopen hhere =>
    h.reads entry he hopen (hshift.peer.symm.trans hhere)
  unfold onReceive
  dsimp only
  split
  · rename_i hlength
    refine ⟨hpaced, fun entry he hopen hpaused => ?_, hreads⟩
    show (receiveStep s.recv event).inboxBytes * 2 ≥ wsMaxInbox ∨ _
    rw [hshift.bytes_of_length hlength]
    exact h.held entry he hopen hpaused
  · exact ⟨wsSyncReadPause_paced postOk hpaced, wsSyncReadPause_held hmarks postOk hpaced,
      wsSyncReadPause_reads postOk hpaced hreads⟩

theorem onSendDone_paced (h : Paced highWater lowWater s) (hreads : Reads s) :
    Paced highWater lowWater (s.onNet (Net.onSendDone backend)) ∧
      Reads (s.onNet (Net.onSendDone backend)) := by
  have honwards := @Net.onSendDone_onwards backend s.net
  refine ⟨{ h with charged := ?_, marks := ?_, lingers := ?_ }, ?_⟩
  · show Charged (if (Net.onSendDone backend s.net).entry.isNone then tornDown s.recv else s.recv)
    split
    · exact tornDown_charged h.charged
    · exact h.charged
  · intro entry' he'
    obtain ⟨entry, he, honward⟩ := honwards entry' he'
    rw [honward.highWater, honward.lowWater]
    exact h.marks entry he
  · intro entry' he' hlingering
    obtain ⟨entry, he, honward⟩ := honwards entry' he'
    rcases honward.lingering hlingering with hlingering | hclosing
    · exact honward.closing (h.lingers entry he hlingering)
    · exact hclosing
  · intro entry' he' hopen hhere hunpaused hbudget
    obtain ⟨entry, he, honward⟩ := honwards entry' he'
    have hopen₀ : entry.closing = false := by
      by_contra hclosing
      exact absurd ((honward.closing (by simpa using hclosing)).symm.trans hopen) (by simp)
    have hrecv : (s.onNet (Net.onSendDone backend)).recv = s.recv := by
      show (if (Net.onSendDone backend s.net).entry.isNone then tornDown s.recv else s.recv) = s.recv
      have he' : (Net.onSendDone backend s.net).entry = some entry' := he'
      rw [he', if_neg (by simp)]
    show (s.recvOp || _) = true
    rw [hreads entry he hopen₀ (hrecv ▸ hhere) hunpaused hbudget, Bool.true_or]

/-! ## 4. Runs -/

def ConnEvent.dispatches : ConnEvent → Bool
  | .dispatch _ => true
  | _ => false

/-- No chunk ends the session, and the upgrade is not dispatched while the requests before it hold
the reading side. -/
def Unbroken (s : WsConn) (event : ConnEvent) : Prop :=
  (∀ ev ∈ (s.rx.push (s.ingests event)).1, ev.last = false) ∧
    (event.dispatches = true → s.pipelinePaused = false)

instance (s : WsConn) (event : ConnEvent) : Decidable (Unbroken s event) :=
  inferInstanceAs (Decidable (_ ∧ _))

theorem newWsConn_regular (tls sweeps : Bool) :
    Regular highWater lowWater (newWsConn highWater lowWater tls sweeps) := by
  refine ⟨⟨rfl, rfl, ?_, ?_, fun _ => rfl, fun _ => rfl⟩, ?_, fun _ _ _ _ _ _ => rfl⟩
  · intro entry he
    obtain rfl := Option.some.inj he
    exact ⟨rfl, rfl⟩
  · intro entry he hlingering
    obtain rfl := Option.some.inj he
    exact absurd hlingering (by simp [Net.newEntry])
  · exact fun _ _ _ hpaused => absurd hpaused (by simp [newWsConn])

theorem connStep_regular (hmarks : lowWater ≤ highWater) {event : ConnEvent}
    (hparked : s.recv.parking.isNone ∨ event.midReceive = true)
    (hopen : Unbroken s event) (h : Regular highWater lowWater s) :
    Regular highWater lowWater (connStep backend headLen s event) := by
  obtain ⟨hopen, hbudget⟩ := hopen
  cases event with
  | recvDone result pause postOk =>
    unfold connStep
    dsimp only
    split
    · rename_i hposted
      refine onRecvDone_regular hmarks pause postOk (fun haccepted hws htls hlive data hdata => ?_) h
      subst hdata
      have hingests : s.ingests (.recvDone (some data) pause postOk) = data :=
        if_pos ⟨hparked.resolve_right (by simp [ConnEvent.midReceive]), hposted.1, hposted.2,
          by simp [htls], hws, haccepted, hlive⟩
      rw [hingests] at hopen
      exact hopen
    · exact h
  | tlsData unsealed sealing pause postOk =>
    unfold connStep
    dsimp only
    split
    · rename_i hqueued
      refine tlsIngest_regular (s := { s with tlsData := s.tlsData - 1 }) hmarks pause postOk hqueued.2
        (fun haccepted hws hthere => ?_) ⟨{ h.paced with }, h.held, h.reads⟩
      have hingests : s.ingests (.tlsData unsealed sealing pause postOk) = unsealed.plaintext :=
        if_pos ⟨hparked.resolve_right (by simp [ConnEvent.midReceive]), hqueued.1, hqueued.2, hws,
          haccepted, hthere⟩
      rw [hingests] at hopen
      exact hopen
    · exact h
  | tlsFlush sealing =>
    unfold connStep
    dsimp only
    split
    · rename_i hqueued
      exact (tlsFlushConn_steady (s := { s with tlsFlushes := s.tlsFlushes - 1 }) sealing
        hqueued.2).regular ⟨{ h.paced with }, h.held, h.reads⟩
    · exact h
  | sendDone postOk =>
    obtain ⟨hpaced, hreads⟩ := @onSendDone_paced backend _ _ _ h.paced h.reads
    exact ⟨wsSyncReadPause_paced postOk hpaced, wsSyncReadPause_held hmarks postOk hpaced,
      wsSyncReadPause_reads postOk hpaced hreads⟩
  | flushCorked => exact (onNet_steady Net.flushCorked_grows).regular h
  | lingerExpired => exact (onNet_steady Net.lingerExpired_grows).regular h
  | teardown => exact teardown_steady.regular h
  | tick nowNs flushImmediately => exact (tick_steady nowNs flushImmediately).regular h
  | respond data =>
    unfold connStep
    dsimp only
    split
    · exact h
    · exact (httpEnqueue_steady data).regular h
  | closeAfterWrite =>
    unfold connStep
    dsimp only
    split
    · exact h
    · exact httpCloseAfterWrite_steady.regular h
  | resumeReading postOk =>
    unfold connStep httpResumeReading
    dsimp only
    split
    · exact h
    split
    · have hpaced : Paced highWater lowWater { s with pipelinePaused := false } :=
        { h.paced with budget := fun _ => rfl }
      exact ⟨(postRecv_steady postOk).paced hpaced, (postRecv_steady postOk).held h.held,
        postRecv_reads postOk hpaced⟩
    · exact h
  | dispatch minor =>
    unfold connStep
    dsimp only
    split
    · refine ⟨{ h.paced with
        calm := fun hws => absurd hws (by simp)
        budget := fun _ => hbudget rfl }, h.held, h.reads⟩
    · exact h
  | accept head postOk =>
    unfold connStep
    dsimp only
    split
    · rename_i hws
      refine wsAccept_regular hmarks head postOk (fun haccepted hthere htrailing => ?_) h
      have hingests : s.ingests (.accept head postOk) = s.trailing :=
        if_pos ⟨hparked.resolve_right (by simp [ConnEvent.midReceive]), hws, by simp [haccepted],
          hthere⟩
      rw [hingests] at hopen
      exact hopen
    · exact h
  | send frame =>
    unfold connStep wsSend
    dsimp only
    split
    · split
      · exact h
      · exact (httpEnqueue_steady frame).regular h
    · exact h
  | close code reason =>
    unfold connStep
    dsimp only
    split
    · exact wsEnd_regular _ _ _ _ h
    · exact h
  | appDone =>
    unfold connStep
    dsimp only
    split
    · exact finishRequest_regular (wsEnd_regular _ _ _ _ h)
    · exact h
  | fail =>
    unfold connStep
    dsimp only
    split
    · exact finishRequest_regular (wsEnd_regular _ _ _ _ h)
    · exact h
  | receive event postOk =>
    unfold connStep
    dsimp only
    split
    · rename_i hcalled
      exact onReceive_regular hmarks postOk hcalled.2 h
    · exact h
  | hangup =>
    obtain ⟨hpeer, hinbox, hbytes⟩ := hangup_same s.recv
    refine ⟨{ h.paced with charged := h.paced.charged.same hinbox hbytes }, ?_, ?_⟩
    · intro entry he hopen' hpaused
      show (hangup s.recv).inboxBytes * 2 ≥ wsMaxInbox ∨ _
      rw [hbytes]
      exact h.held entry he hopen' hpaused
    · exact fun entry he hopen' hhere => h.reads entry he hopen' (hpeer.symm.trans hhere)
  | shutdown =>
    unfold connStep
    dsimp only
    split
    · exact httpBeginShutdown_regular h
    · exact h

theorem wsStep_regular (hmarks : lowWater ≤ highWater) {event : ConnEvent} (hopen : Unbroken s event)
    (h : Regular highWater lowWater s) :
    Regular highWater lowWater (wsStep backend headLen s event) := by
  unfold wsStep
  split
  · exact h
  · rename_i hparked
    refine connStep_regular hmarks ?_ hopen h
    cases hparking : s.recv.parking with
    | none => exact .inl rfl
    | some _ => exact .inr (by simpa [hparking] using hparked)

theorem wsIngest_over (hmarks : lowWater ≤ highWater) (postOk : Bool) {data : Bytes}
    (hopen : ∀ ev ∈ (s.rx.push data).1, ev.last = false) (haccepted : s.accepted = true)
    (hws : s.ws = true) (h : Paced highWater lowWater s) {entry : TransportEntry}
    (he : (wsIngest backend postOk data s).net.entry = some entry)
    (hover : (wsIngest backend postOk data s).recv.inboxBytes ≥ wsMaxInbox ∨
      (wsIngest backend postOk data s).pressure entry > highWater) :
    (wsIngest backend postOk data s).readingPaused = true := by
  cases hthere : s.net.entry with
  | none =>
    have hsame : wsIngest backend postOk data s = s := if_pos (by simp [hthere])
    rw [hsame, hthere] at he
    exact absurd he (by simp)
  | some entry₀ =>
    have hpushed : wsIngest backend postOk data s = wsIngestAccepted backend postOk data s := by
      unfold wsIngest
      rw [if_neg (by simp [hthere]), if_neg (by simp [haccepted])]
    obtain ⟨s', heq, hws', hpaced, -⟩ :=
      @wsIngestAccepted_eq backend _ _ _ postOk _ hopen h
    rw [hpushed, heq] at he hover ⊢
    exact wsSyncReadPause_over hmarks postOk hpaced (hws'.trans hws) he hover

theorem recvDone_over (hmarks : lowWater ≤ highWater) {data : Bytes} {pause postOk : Bool}
    (hdata : data ≠ []) (htls : s.tls = none) (hws : s.ws = true) (haccepted : s.accepted = true)
    (hlive : s.net.entry.any (fun entry => !entry.closing))
    (hopen : ∀ ev ∈ (s.rx.push data).1, ev.last = false) (h : Regular highWater lowWater s)
    {entry : TransportEntry}
    (he : (onRecvDone backend headLen (some data) pause postOk s).net.entry = some entry)
    (hover : (onRecvDone backend headLen (some data) pause postOk s).recv.inboxBytes ≥ wsMaxInbox ∨
      (onRecvDone backend headLen (some data) pause postOk s).pressure entry > highWater) :
    (onRecvDone backend headLen (some data) pause postOk s).readingPaused = true := by
  obtain ⟨entry₀, he₀, hopen₀⟩ := (Option.any_eq_true _ _).mp hlive
  have hlingers : entry₀.lingering = false := by
    by_contra hlingering
    have hclosing := h.paced.lingers entry₀ he₀ (by simpa using hlingering)
    simp [hclosing] at hopen₀
  have hdone : onRecvDone backend headLen (some data) pause postOk s =
      postRecv postOk (wsIngest backend postOk data
        { s with recvOp := false, received := s.received ++ data }) := by
    unfold onRecvDone
    cases data with
    | nil => exact absurd rfl hdata
    | cons b data => simp_all
  rw [hdone] at he hover ⊢
  have halive := postRecv_alive postOk he
  rw [halive] at he hover ⊢
  exact wsIngest_over (s := { s with recvOp := false, received := s.received ++ data }) hmarks postOk
    hopen haccepted hws { h.paced with } he hover

theorem tlsIngest_over (hmarks : lowWater ≤ highWater) {unsealed : Unsealed} {sealing : Sealed}
    {pause postOk : Bool} (hdata : unsealed.plaintext ≠ []) (hvalid : sealing.Valid s)
    (hws : s.ws = true) (haccepted : s.accepted = true)
    (hopen : ∀ ev ∈ (s.rx.push unsealed.plaintext).1, ev.last = false)
    (h : Regular highWater lowWater s) {entry : TransportEntry}
    (he : (tlsIngest backend headLen unsealed sealing pause postOk s).net.entry = some entry)
    (hover : (tlsIngest backend headLen unsealed sealing pause postOk s).recv.inboxBytes ≥
        wsMaxInbox ∨
      (tlsIngest backend headLen unsealed sealing pause postOk s).pressure entry > highWater) :
    (tlsIngest backend headLen unsealed sealing pause postOk s).readingPaused = true := by
  obtain ⟨s', hsteady, ⟨heq, hnone⟩ | heq⟩ :=
    @tlsIngest_eq backend _ headLen unsealed sealing pause postOk hvalid
  · rw [heq, hnone] at he
    exact absurd he (by simp)
  have hregular : Regular highWater lowWater s' :=
    hsteady.regular ⟨{ h.paced with }, h.held, h.reads⟩
  have hrest := hsteady.rest
  rw [heq] at he hover ⊢
  cases hthere : s'.net.entry with
  | none =>
    rw [if_pos (by simp [hthere]), hthere] at he
    exact absurd he (by simp)
  | some entry' =>
    have hws' : s'.ws = true := by
      rw [hrest]
      exact hws
    rw [if_neg (by simp [hthere, hdata]), if_pos hws'] at he hover ⊢
    refine wsIngest_over hmarks postOk ?_ ?_ hws' hregular.paced he hover
    · rw [hrest]
      exact hopen
    · rw [hrest]
      exact haccepted

theorem wsAccept_over (hmarks : lowWater ≤ highWater) {head : Bytes} {postOk : Bool}
    (hdata : s.trailing ≠ []) (hws : s.ws = true) (hnotyet : ¬ s.accepted = true)
    (hthere : s.net.entry.isSome) (hopen : ∀ ev ∈ (s.rx.push s.trailing).1, ev.last = false)
    (h : Regular highWater lowWater s) {entry : TransportEntry}
    (he : (wsAccept backend head postOk s).net.entry = some entry)
    (hover : (wsAccept backend head postOk s).recv.inboxBytes ≥ wsMaxInbox ∨
      (wsAccept backend head postOk s).pressure entry > highWater) :
    (wsAccept backend head postOk s).readingPaused = true := by
  have hsteady : Steady { s with accepted := true, trailing := [] }
      (httpEnqueue backend head { s with accepted := true, trailing := [] }) :=
    httpEnqueue_steady head
  have hdone : wsAccept backend head postOk s = wsIngest backend postOk s.trailing
      (httpEnqueue backend head { s with accepted := true, trailing := [] }) := by
    have hrefused : ¬ (s.net.entry.isNone = true ∨ s.accepted = true) := by
      rintro (hnone | haccepted)
      · rw [Option.isNone_iff_eq_none.mp hnone] at hthere
        exact absurd hthere (by simp)
      · exact hnotyet haccepted
    unfold wsAccept
    rw [if_neg hrefused]
    exact if_neg hdata
  rw [hdone] at he hover ⊢
  have hregular : Regular highWater lowWater _ :=
    hsteady.regular ⟨{ h.paced with }, h.held, h.reads⟩
  have hrest := hsteady.rest
  generalize httpEnqueue backend head { s with accepted := true, trailing := [] } = s'
    at he hover hregular hrest ⊢
  refine wsIngest_over hmarks postOk ?_ ?_ ?_ hregular.paced he hover
  · rw [hrest]
    exact hopen
  · rw [hrest]
  · rw [hrest]
    exact hws

/-- Every read of an accepted WebSocket ends with the pause decided. -/
theorem wsStep_over (hmarks : lowWater ≤ highWater) {event : ConnEvent} (hopen : Unbroken s event)
    (hingests : s.ingests event ≠ []) (h : Regular highWater lowWater s) {entry : TransportEntry}
    (he : (wsStep backend headLen s event).net.entry = some entry)
    (hover : (wsStep backend headLen s event).recv.inboxBytes ≥ wsMaxInbox ∨
      (wsStep backend headLen s event).pressure entry > highWater) :
    (wsStep backend headLen s event).readingPaused = true := by
  obtain ⟨hopen, -⟩ := hopen
  have hstep : s.recv.parking.isNone → wsStep backend headLen s event =
      connStep backend headLen s event := fun hparking => if_neg (by
    rw [Option.isNone_iff_eq_none.mp hparking]
    simp)
  unfold WsConn.ingests at hingests hopen
  split at hingests
  · rename_i data pause postOk
    dsimp only at hopen
    split at hingests
    · rename_i hguard
      rw [if_pos hguard] at hopen
      obtain ⟨hparking, hposted, hmay, htls, hws, haccepted, hlive⟩ := hguard
      rw [hstep hparking, connStep, if_pos ⟨hposted, hmay⟩] at he hover ⊢
      exact recvDone_over hmarks hingests (Option.isNone_iff_eq_none.mp htls) hws haccepted hlive
        hopen h he hover
    · exact absurd rfl hingests
  · rename_i unsealed sealing pause postOk
    dsimp only at hopen
    split at hingests
    · rename_i hguard
      rw [if_pos hguard] at hopen
      obtain ⟨hparking, hqueued, hvalid, hws, haccepted, -⟩ := hguard
      rw [hstep hparking, connStep, if_pos ⟨hqueued, hvalid⟩] at he hover ⊢
      exact tlsIngest_over (s := { s with tlsData := s.tlsData - 1 }) hmarks hingests hvalid hws
        haccepted hopen ⟨{ h.paced with }, h.held, h.reads⟩ he hover
    · exact absurd rfl hingests
  · rename_i head postOk
    dsimp only at hopen
    split at hingests
    · rename_i hguard
      rw [if_pos hguard] at hopen
      obtain ⟨hparking, hws, hnotyet, hthere⟩ := hguard
      rw [hstep hparking, connStep, if_pos hws] at he hover ⊢
      exact wsAccept_over hmarks hingests hws hnotyet hthere hopen h he hover
    · exact absurd rfl hingests
  · exact absurd rfl hingests

/-- The inbox's counter, and a connection that reads unless it has a reason not to. -/
structure Regulated (lowWater : Nat) (s : WsConn) : Prop where
  charged : s.recv.inboxBytes = s.recv.charge
  reads : ∀ entry, s.net.entry = some entry → s.ws = true → entry.closing = false →
    s.recv.inboxBytes * 2 < wsMaxInbox → s.pressure entry ≤ lowWater →
      s.inboxPaused = false ∧ (s.recv.peer = .here → s.recvOp = true)

theorem Regular.regulated (h : Regular highWater lowWater s) : Regulated lowWater s where
  charged := h.paced.charged
  reads := by
    intro entry he hws hopen hempty heased
    have hunpaused : s.inboxPaused = false := by
      by_contra hpaused
      rcases h.held entry he hopen (by simpa using hpaused) with hfull | hover
      · omega
      · omega
    exact ⟨hunpaused, fun hhere => h.reads entry he hopen hhere hunpaused (h.paced.budget hws)⟩

end Pause

/-- While no chunk ends the session, the counter is what the inbox holds; a read that leaves the
inbox or the output over its budget stops the reading, and once both are under theirs again a
receive is posted. -/
theorem inbox_regulated (backend : Backend) (headLen highWater lowWater : Nat) (tls sweeps : Bool)
    (hmarks : lowWater ≤ highWater) (events : List ConnEvent)
    (h : (websocket backend headLen highWater lowWater tls sweeps).Along Unbroken events) :
    let run := (websocket backend headLen highWater lowWater tls sweeps).run
    Regulated lowWater (run events) ∧
      ∀ pre event entry, events = pre ++ [event] → (run pre).ingests event ≠ [] →
        (run events).net.entry = some entry →
        (run events).recv.inboxBytes ≥ wsMaxInbox ∨ (run events).pressure entry > highWater →
          (run events).readingPaused = true := by
  intro run
  have hregular : ∀ events,
      (websocket backend headLen highWater lowWater tls sweeps).Along Unbroken events →
        Regular highWater lowWater (run events) := fun events h =>
    (websocket backend headLen highWater lowWater tls sweeps).run_invariant_along
      (newWsConn_regular tls sweeps) (fun s event hs hevent => wsStep_regular hmarks hevent hs)
      events h
  refine ⟨(hregular events h).regulated, fun pre event entry hevents hingests he hover => ?_⟩
  subst hevents
  obtain ⟨hpre, hevent⟩ := (Machine.along_concat _).mp h
  have hstep : run (pre ++ [event]) = wsStep backend headLen (run pre) event :=
    (websocket backend headLen highWater lowWater tls sweeps).run_concat pre event
  rw [hstep] at he hover ⊢
  exact wsStep_over hmarks hevent hingests (hregular pre hpre) he hover

/-- A text message, and the `receive()` that takes it. -/
theorem inbox_regulated_text :
    Regulated 16384 ((websocket obliging upgradeRequest.length 65536 16384 false true).run
      (handshake ++ [.recvDone (some [0x81, 0x81, 0, 0, 0, 0, 0x61]) false true,
        .receive .receive true, .receive .receive true])) := by
  refine (inbox_regulated obliging upgradeRequest.length 65536 16384 false true (by decide) _ ?_).1
  rw [show handshake ++ [.recvDone (some [0x81, 0x81, 0, 0, 0, 0, 0x61]) false true,
      .receive .receive true, .receive .receive true] =
    [] ++ [.recvDone (some upgradeRequest) false true] ++ [.dispatch 1] ++
      [.accept switchingProtocols true] ++
      [.recvDone (some [0x81, 0x81, 0, 0, 0, 0, 0x61]) false true] ++ [.receive .receive true] ++
      [.receive .receive true] from rfl]
  simp only [Machine.along_concat]
  refine ⟨⟨⟨⟨⟨⟨Machine.along_nil _ _, ?_⟩, ?_⟩, ?_⟩, ?_⟩, ?_⟩, ?_⟩
  all_goals decide +kernel

/-- The disconnect of a Close frame is queued, and its charge is not. -/
theorem inbox_uncharged :
    let s := (websocket obliging upgradeRequest.length 65536 16384 false true).run
      (handshake ++ [.recvDone (some [0x88, 0x80, 0, 0, 0, 0]) false true])
    s.net.entry.isSome ∧ s.recv.inbox.map (fun m => m.msg) = [.disconnect 1005] ∧
      s.recv.inboxBytes = 0 ∧ s.recv.charge = 256 := by
  decide +kernel

end Cadeloop.Pyshim.Http
