import Cadeloop.Pyshim.CallbackRuns

/-!
# `pause_writing` and `resume_writing`

A queue that grows past the high-water mark pauses the protocol at once; a completion that leaves it at
the low-water mark has `resume_writing` called later.  For each protocol that is installed, the two
alternate, as long as no pause is decided while a resume is on its way.
-/

namespace Cadeloop.Pyshim.Net

open Cadeloop.Reasoning

/-! ## 1. The flag and the queue, over an operation -/

/-- The entry stands on both sides of an operation, or is gone behind it. -/
def Across (R : NetState → NetState → TransportEntry → TransportEntry → Prop)
    (net net' : NetState) : Prop :=
  ∀ e', net'.entry = some e' → ∃ e, net.entry = some e ∧ R net net' e e'

theorem Across.of_gone {R : NetState → NetState → TransportEntry → TransportEntry → Prop}
    {net net' : NetState} (hgone : net'.entry = none) : Across R net net' := by
  intro e' he'
  rw [hgone] at he'
  cases he'

theorem Across.imp {R R' : NetState → NetState → TransportEntry → TransportEntry → Prop}
    {net net' : NetState} (h : Across R net net')
    (himp : ∀ e e', R net net' e e' → R' net net' e e') : Across R' net net' := by
  intro e' he'
  obtain ⟨e, he, hr⟩ := h e' he'
  exact ⟨e, he, himp e e' hr⟩

/-- Nothing goes out, and the flag stays. -/
structure Keeps (net net' : NetState) (e e' : TransportEntry) : Prop where
  http : e'.http = e.http
  low : e'.lowWater = e.lowWater
  high : e'.highWater = e.highWater
  paused : e'.protoPaused = e.protoPaused
  queued : e.queuedBytes ≤ e'.queuedBytes
  sent : net'.sent = net.sent
  resumes : net'.resumeWriting = net.resumeWriting

/-- Sends may complete, and the flag is cleared by the one that has `resume_writing` called. -/
structure Drains (net net' : NetState) (e e' : TransportEntry) : Prop where
  http : e'.http = e.http
  low : e'.lowWater = e.lowWater
  high : e'.highWater = e.highWater
  paused : e'.protoPaused → e.protoPaused
  level : e'.protoPaused →
    e'.lowWater < e'.queuedBytes ∨ net'.sent = net.sent ∧ e.queuedBytes ≤ e'.queuedBytes
  resumes : net'.resumeWriting =
    net.resumeWriting + (e.protoPaused && !e'.protoPaused && !e.http).toNat

/-- The flag is set, over the high-water mark. -/
structure Pauses (net net' : NetState) (e e' : TransportEntry) : Prop where
  http : e'.http = e.http
  low : e'.lowWater = e.lowWater
  high : e'.highWater = e.highWater
  unpaused : e.protoPaused = false
  paused : e'.protoPaused = true
  queued : e'.highWater < e'.queuedBytes
  resumes : net'.resumeWriting = net.resumeWriting

variable {backend : Backend} {net net' net'' : NetState}

theorem Keeps.drains {e e' : TransportEntry} (h : Keeps net net' e e') : Drains net net' e e' where
  http := h.http
  low := h.low
  high := h.high
  paused hpaused := h.paused ▸ hpaused
  level _ := .inr ⟨h.sent, h.queued⟩
  resumes := by
    rw [h.paused, h.resumes]
    cases e.protoPaused <;> rfl

theorem Across.trans_keeps (h : Across Keeps net net') (h' : Across Keeps net' net'') :
    Across Keeps net net'' := by
  intro e'' he''
  obtain ⟨e', he', hg'⟩ := h' e'' he''
  obtain ⟨e, he, hg⟩ := h e' he'
  exact ⟨e, he, hg'.http.trans hg.http, hg'.low.trans hg.low, hg'.high.trans hg.high,
    hg'.paused.trans hg.paused, hg.queued.trans hg'.queued, hg'.sent.trans hg.sent,
    hg'.resumes.trans hg.resumes⟩

theorem Drains.trans {e e' e'' : TransportEntry} (h : Drains net net' e e')
    (h' : Drains net' net'' e' e'') : Drains net net'' e e'' where
  http := h'.http.trans h.http
  low := h'.low.trans h.low
  high := h'.high.trans h.high
  paused hpaused := h.paused (h'.paused hpaused)
  level hpaused := by
    rcases h'.level hpaused with hover | ⟨hsent', hqueued'⟩
    · exact .inl hover
    rcases h.level (h'.paused hpaused) with hover | ⟨hsent, hqueued⟩
    · left
      rw [h'.low]
      omega
    · exact .inr ⟨hsent'.trans hsent, hqueued.trans hqueued'⟩
  resumes := by
    rw [h'.resumes, h.resumes, h.http, Nat.add_assoc]
    have hfirst := h.paused
    have hsecond := h'.paused
    revert hfirst hsecond
    cases e.protoPaused <;> cases e'.protoPaused <;> cases e''.protoPaused <;> cases e.http <;> simp

theorem Across.trans_drains (h : Across Drains net net') (h' : Across Drains net' net'') :
    Across Drains net net'' := by
  intro e'' he''
  obtain ⟨e', he', hd'⟩ := h' e'' he''
  obtain ⟨e, he, hd⟩ := h e' he'
  exact ⟨e, he, hd.trans hd'⟩

theorem keeps_of_entry (hentry : net'.entry = net.entry) (hsent : net'.sent = net.sent)
    (hresumes : net'.resumeWriting = net.resumeWriting) : Across Keeps net net' :=
  fun e he => ⟨e, hentry ▸ he, rfl, rfl, rfl, rfl, Nat.le_refl _, hsent, hresumes⟩

theorem keeps_refl (net : NetState) : Across Keeps net net := keeps_of_entry rfl rfl rfl

/-- The marks, the flag and the count are as they were. -/
def TransportEntry.SameFlow (e e' : TransportEntry) : Prop :=
  e'.http = e.http ∧ e'.lowWater = e.lowWater ∧ e'.highWater = e.highWater ∧
    e'.protoPaused = e.protoPaused ∧ e'.queuedBytes = e.queuedBytes

theorem keeps_of_same {e e' : TransportEntry} (he : net.entry = some e)
    (he' : net'.entry = some e') (hsame : e.SameFlow e') (hsent : net'.sent = net.sent)
    (hresumes : net'.resumeWriting = net.resumeWriting) : Across Keeps net net' := by
  intro e₁ he₁
  rw [he'] at he₁
  obtain rfl := Option.some.inj he₁
  obtain ⟨hhttp, hlow, hhigh, hpaused, hqueued⟩ := hsame
  exact ⟨e, he, hhttp, hlow, hhigh, hpaused, Nat.le_of_eq hqueued.symm, hsent, hresumes⟩

theorem same_flow_refl (e : TransportEntry) : e.SameFlow e := ⟨rfl, rfl, rfl, rfl, rfl⟩

theorem maybeFinishShutdown_keeps : Across Keeps net (maybeFinishShutdown net) := by
  unfold maybeFinishShutdown
  cases he : net.entry with
  | none => exact .of_gone he
  | some entry =>
    dsimp only
    split
    · exact keeps_refl net
    have hsame : entry.SameFlow
        (if entry.eofWanted then { entry with eofSent := true } else entry) := by
      split <;> exact ⟨rfl, rfl, rfl, rfl, rfl⟩
    generalize (if entry.eofWanted then { entry with eofSent := true } else entry) = entry'
      at hsame ⊢
    split
    · exact keeps_of_same he rfl hsame rfl rfl
    split
    · split <;> exact keeps_of_same he rfl hsame rfl rfl
    · exact .of_gone (teardown_gone net .closed)

theorem flushPending_keeps : Across Keeps net (flushPending backend net) := by
  unfold flushPending
  cases he : net.entry with
  | none => exact .of_gone he
  | some entry =>
    dsimp only
    have hunscheduled : Across Keeps net
        { net with entry := some { entry with flushScheduled := false } } :=
      keeps_of_same he rfl ⟨rfl, rfl, rfl, rfl, rfl⟩ rfl rfl
    split
    · exact hunscheduled
    split
    · exact hunscheduled.trans_keeps maybeFinishShutdown_keeps
    split
    · exact keeps_of_same he rfl ⟨rfl, rfl, rfl, rfl, rfl⟩ rfl rfl
    · exact .of_gone (teardown_gone _ .failed)

theorem onSendDone_drains : Across Drains net (onSendDone backend net) := by
  unfold onSendDone
  cases he : net.entry with
  | none => exact .of_gone he
  | some entry =>
    dsimp only
    split
    · exact (keeps_refl net).imp fun _ _ => Keeps.drains
    split
    · exact .of_gone (teardown_gone _ .failed)
    rename_i bytes _
    have hretired : Across Drains net { net with
        entry := some (entry.retire bytes)
        sent := net.sent ++ (net.posted.flatMap WriteBuf.slice).take bytes
        resumeWriting := net.resumeWriting +
          (entry.protoPaused && !(entry.retire bytes).protoPaused && !entry.http).toNat } := by
      intro e' he'
      obtain rfl := Option.some.inj he'
      refine ⟨entry, he, rfl, rfl, rfl, ?_, ?_, rfl⟩
      · intro hpaused
        rw [TransportEntry.retire, Bool.and_eq_true] at hpaused
        exact hpaused.1
      · intro hpaused
        rw [TransportEntry.retire, Bool.and_eq_true, decide_eq_true_eq] at hpaused
        exact .inl hpaused.2
    split
    · exact hretired.trans_drains (flushPending_keeps.imp fun _ _ => Keeps.drains)
    split
    · exact hretired
    · exact hretired.trans_drains (maybeFinishShutdown_keeps.imp fun _ _ => Keeps.drains)

theorem settleInline_drains (staged : Nat) : Across Drains net (settleInline backend staged net) := by
  induction staged generalizing net with
  | zero => exact (keeps_refl net).imp fun _ _ => Keeps.drains
  | succ staged ih => exact onSendDone_drains.trans_drains ih

theorem afterQueue_keeps (early : Bool) : Across Keeps net (afterQueue backend early net) := by
  unfold afterQueue
  cases he : net.entry with
  | none => exact .of_gone he
  | some entry =>
    dsimp only
    split
    · exact keeps_refl net
    split
    · exact flushPending_keeps
    split
    · exact keeps_refl net
    · exact keeps_of_same he rfl ⟨rfl, rfl, rfl, rfl, rfl⟩ rfl rfl

/-- What may pause the protocol, or leaves it as `Drains` does. -/
def Decides (net net' : NetState) (e e' : TransportEntry) : Prop :=
  Drains net net' e e' ∨ Pauses net net' e e'

theorem maybePause_decides (staged : Nat) : Across Decides net (maybePause backend staged net) := by
  unfold maybePause
  cases he : net.entry with
  | none => exact .of_gone he
  | some entry =>
    dsimp only
    split
    · exact (keeps_refl net).imp fun _ _ h => .inl h.drains
    rename_i hover
    rw [not_or, Bool.not_eq_true] at hover
    have hflushed : Across Drains net
        (if entry.sendOp.isNone then flushPending backend net else net) := by
      split
      · exact flushPending_keeps.imp fun _ _ => Keeps.drains
      · exact (keeps_refl net).imp fun _ _ => Keeps.drains
    have hsettled : Across Drains net (settleInline backend (min staged settleRounds)
        (if entry.sendOp.isNone then flushPending backend net else net)) :=
      hflushed.trans_drains (settleInline_drains _)
    generalize settleInline backend (min staged settleRounds)
      (if entry.sendOp.isNone then flushPending backend net else net) = settled at hsettled ⊢
    cases he' : settled.entry with
    | none => exact .of_gone he'
    | some entry' =>
      dsimp only
      split
      · exact hsettled.imp fun _ _ => .inl
      rename_i hover'
      rw [not_or, Bool.not_eq_true, Nat.not_le] at hover'
      obtain ⟨e, he₁, hd⟩ := hsettled entry' he'
      rw [he] at he₁
      obtain rfl := Option.some.inj he₁
      intro e' heq
      obtain rfl := Option.some.inj heq
      refine ⟨entry, he, .inr ⟨hd.http, hd.low, hd.high, hover.1, rfl, hover'.2, ?_⟩⟩
      have hresumes := hd.resumes
      rw [hover.1, Bool.false_and, Bool.false_and] at hresumes
      exact hresumes

theorem Across.trans_decides (h : Across Keeps net net') (h' : Across Decides net' net'') :
    Across Decides net net'' := by
  intro e'' he''
  obtain ⟨e', he', hd'⟩ := h' e'' he''
  obtain ⟨e, he, hg⟩ := h e' he'
  refine ⟨e, he, ?_⟩
  rcases hd' with hdrains | hpauses
  · exact .inl (hg.drains.trans hdrains)
  · exact .inr ⟨hpauses.http.trans hg.http, hpauses.low.trans hg.low, hpauses.high.trans hg.high,
      hg.paused ▸ hpauses.unpaused, hpauses.paused, hpauses.queued,
      hpauses.resumes.trans hg.resumes⟩

theorem coalesceTail_same {entry entry' : TransportEntry} {data : List UInt8}
    (h : coalesceTail entry data = some entry') : entry.SameFlow entry' := by
  unfold coalesceTail at h
  split at h
  · exact absurd h (by simp)
  split at h
  · split at h
    · injection h with h
      rw [← h]
      exact ⟨rfl, rfl, rfl, rfl, rfl⟩
    · exact absurd h (by simp)
  · exact absurd h (by simp)

theorem getD_coalesceTail_same {entry entry' : TransportEntry} (data : List UInt8)
    (h : entry.SameFlow entry') : entry.SameFlow ((coalesceTail entry data).getD entry') := by
  cases hc : coalesceTail entry data with
  | none => exact h
  | some merged => exact coalesceTail_same hc

/-- A write adds to the count, and to nothing else that a pause is decided by. -/
theorem queue_same (entry : TransportEntry) (queued : Queued) :
    ∃ n, { entry with queuedBytes := entry.queuedBytes + n }.SameFlow (entry.queue queued) := by
  cases queued with
  | small data => exact ⟨data.length, getD_coalesceTail_same data ⟨rfl, rfl, rfl, rfl, rfl⟩⟩
  | buf buf =>
    cases buf with
    | bytes data off => exact ⟨data.length - off, rfl, rfl, rfl, rfl, rfl⟩
    | owned data off =>
      exact ⟨data.length - off, getD_coalesceTail_same data ⟨rfl, rfl, rfl, rfl, rfl⟩⟩

theorem write_decides (exact' : Bool) (data : List UInt8) (staged : Nat) :
    Across Decides net (write backend exact' data staged net) := by
  unfold write
  split
  · exact (keeps_refl net).imp fun _ _ h => .inl h.drains
  cases he : net.entry with
  | none => exact .of_gone he
  | some entry =>
    have hqueued : Across Keeps net { net with
        entry := some (entry.queue (.of exact' data)), accepted := net.accepted ++ data } := by
      intro e' he'
      obtain rfl := Option.some.inj he'
      obtain ⟨n, hhttp, hlow, hhigh, hpaused, hcount⟩ := queue_same entry (.of exact' data)
      exact ⟨entry, he, hhttp, hlow, hhigh, hpaused, by rw [hcount]; exact Nat.le_add_right _ _,
        rfl, rfl⟩
    exact (hqueued.trans_keeps (afterQueue_keeps false)).trans_decides (maybePause_decides staged)

theorem sendCorked_keeps : Across Keeps net (sendCorked backend net) := by
  unfold sendCorked
  cases he : net.entry with
  | none => exact .of_gone he
  | some entry =>
    dsimp only
    split
    · exact keeps_refl net
    · exact flushPending_keeps

theorem writeEof_keeps : Across Keeps net (writeEof net) := by
  unfold writeEof
  cases he : net.entry with
  | none => exact .of_gone he
  | some entry =>
    dsimp only
    split
    · exact keeps_refl net
    · have hwanted : Across Keeps net
          { net with entry := some { entry with eofWanted := true }, eof := true } :=
        keeps_of_same he rfl ⟨rfl, rfl, rfl, rfl, rfl⟩ rfl rfl
      exact hwanted.trans_keeps maybeFinishShutdown_keeps

theorem close_drains (staged : Nat) : Across Drains net (close backend staged net) := by
  unfold close
  cases he : net.entry with
  | none => exact .of_gone he
  | some entry =>
    dsimp only
    split
    · exact (keeps_refl net).imp fun _ _ => Keeps.drains
    have hclosing : Across Keeps net { net with entry := some { entry with closing := true } } :=
      keeps_of_same he rfl ⟨rfl, rfl, rfl, rfl, rfl⟩ rfl rfl
    have hfinished : ∀ {net'}, Across Drains net net' → Across Drains net (maybeFinishShutdown net') :=
      fun h => h.trans_drains (maybeFinishShutdown_keeps.imp fun _ _ => Keeps.drains)
    split
    · exact hfinished (hclosing.imp fun _ _ => Keeps.drains)
    · apply hfinished
      exact ((hclosing.trans_keeps sendCorked_keeps).imp fun _ _ => Keeps.drains).trans_drains
        (settleInline_drains _)

theorem flushCorked_keeps : Across Keeps net (flushCorked backend net) := by
  have hcleared : Across Keeps net { net with flushList := 0 } := keeps_of_entry rfl rfl rfl
  unfold flushCorked
  induction net.flushList with
  | zero => exact hcleared
  | succ n ih => exact ih.trans_keeps flushPending_keeps

theorem on_across {R : NetState → NetState → TransportEntry → TransportEntry → Prop} {kind : Bool}
    {f : NetState → NetState} (hrefl : Across R net net) (h : Across R net (f net)) :
    Across R net (net.on kind f) := by
  unfold NetState.on
  split
  · exact h
  · exact hrefl

theorem on_http_same {f : NetState → NetState}
    (h : ∀ entry, net.entry = some entry → entry.http = false) : net.on true f = net := by
  unfold NetState.on
  cases he : net.entry with
  | none => rfl
  | some entry => simp [h entry he]

theorem on_py_same {f : NetState → NetState} {e : TransportEntry} (he : net.entry = some e)
    (hpy : e.http = false) : net.on false f = f net := by
  unfold NetState.on
  rw [he, Option.any_some, hpy]
  rfl

/-- The operations other than these decide no pause. -/
def NetOp.decides : NetOp → Bool
  | write _ _ _ => true
  | writelines _ => true
  | setWriteBufferLimits _ _ _ => true
  | setProtocol => true
  | finishAfterResume => true
  | _ => false

theorem netStep_drains (backend : Backend)
    (hpy : ∀ entry, net.entry = some entry → entry.http = false) {op : NetOp}
    (hop : op.decides = false) : Across Drains net (netStep backend net op) := by
  have hsame : ∀ {net' : NetState}, net'.entry = net.entry → net'.sent = net.sent →
      net'.resumeWriting = net.resumeWriting → Across Drains net net' := fun hentry hsent hresumes =>
    (keeps_of_entry hentry hsent hresumes).imp fun _ _ => Keeps.drains
  have hrefl : Across Drains net net := hsame rfl rfl rfl
  have hhttp : ∀ f : NetState → NetState, Across Drains net (net.on true f) := by
    intro f
    rw [on_http_same hpy]
    exact hrefl
  cases op with
  | write exact' data staged => exact absurd hop (by simp [NetOp.decides])
  | writelines items => exact absurd hop (by simp [NetOp.decides])
  | setWriteBufferLimits high low staged => exact absurd hop (by simp [NetOp.decides])
  | writeEof => exact on_across hrefl (writeEof_keeps.imp fun _ _ => Keeps.drains)
  | close staged => exact on_across hrefl (close_drains staged)
  | abort => exact on_across hrefl (.of_gone (teardown_gone _ _))
  | setProtocol => exact absurd hop (by simp [NetOp.decides])
  | finishAfterResume => exact absurd hop (by simp [NetOp.decides])
  | sendfile running => exact on_across hrefl (hsame rfl rfl rfl)
  | httpEnqueueRaw data => exact hhttp _
  | closeAfterWrite linger => exact hhttp _
  | lingerDone => exact hhttp _
  | lingerExpired => exact hhttp _
  | flushCorked => exact flushCorked_keeps.imp fun _ _ => Keeps.drains
  | onSendDone => exact onSendDone_drains
  | settleInline staged => exact settleInline_drains staged
  | teardown => exact .of_gone (teardown_gone _ _)
  | tick nowNs flushImmediately => exact hsame rfl rfl rfl

/-- A step of the stream that clears the flag has `resume_writing` called. -/
structure Owes (net net' : NetState) (e e' : TransportEntry) : Prop where
  low : e'.lowWater = e.lowWater
  high : e'.highWater = e.highWater
  paused : e'.protoPaused → e.protoPaused
  level : e'.protoPaused →
    e'.lowWater < e'.queuedBytes ∨ net'.sent = net.sent ∧ e.queuedBytes ≤ e'.queuedBytes
  resumes : net'.resumeWriting - net.resumeWriting = (e.protoPaused && !e'.protoPaused).toNat

theorem Drains.owes {net net' : NetState} {e e' : TransportEntry} (h : Drains net net' e e')
    (hpy : e.http = false) : Owes net net' e e' := by
  refine ⟨h.low, h.high, h.paused, h.level, ?_⟩
  rw [h.resumes, hpy, Nat.add_sub_cancel_left, Bool.not_false, Bool.and_true]

theorem owes_of_eq (h : net' = net ∨ net'.entry = none) : Across Owes net net' := by
  rcases h with heq | hgone
  · intro e he
    subst heq
    refine ⟨e, he, rfl, rfl, id, fun _ => .inr ⟨rfl, Nat.le_refl _⟩, ?_⟩
    rw [Nat.sub_self]
    cases e.protoPaused <;> rfl
  · exact .of_gone hgone

/-- What follows `resume_writing` neither pauses nor resumes. -/
theorem finishAfterResume_owes : Across Owes net (net.on false finishAfterResume) := by
  refine on_across (owes_of_eq (.inl rfl)) ?_
  have hfinished : Across Keeps { net with resumeWriting := net.resumeWriting - 1 }
      (finishAfterResume net) := by
    unfold finishAfterResume
    dsimp only
    split
    · rename_i hgone
      exact .of_gone hgone
    split
    · exact maybeFinishShutdown_keeps
    · exact keeps_refl _
  intro e' he'
  obtain ⟨e, he, hg⟩ := hfinished e' he'
  refine ⟨e, he, hg.low, hg.high, fun hpaused => hg.paused ▸ hpaused,
    fun _ => .inr ⟨hg.sent, hg.queued⟩, ?_⟩
  have hresumes := hg.resumes
  rw [hg.paused, hresumes]
  show net.resumeWriting - 1 - net.resumeWriting = _
  cases e.protoPaused <;> simp

/-- The reading side does nothing to the writing side but end it. -/
theorem streamStep_net {s : Stream} {event : StreamEvent}
    (hwriting : ∀ backend op, event ≠ .writing backend op)
    (hset : ∀ buffered, event ≠ .setProtocol buffered) :
    (streamStep s event).net = s.net ∨ (streamStep s event).net.entry = none := by
  have hpost : ∀ ok (s : Stream), (postRecv ok s).net = s.net := by
    intro ok s
    unfold postRecv
    split
    · rfl
    split <;> rfl
  cases event with
  | writing backend op => exact absurd rfl (hwriting backend op)
  | setProtocol buffered => exact absurd rfl (hset buffered)
  | recvDone result postOk =>
    unfold streamStep
    dsimp only
    split
    · unfold onRecvDone
      dsimp only
      split
      · exact .inl rfl
      split
      · exact .inr (teardown_gone _ _)
      · split <;> exact .inl rfl
      · split
        · exact .inl rfl
        · exact .inl (hpost _ _)
    · exact .inl rfl
  | pauseReading =>
    left
    show (pauseReading s).net = s.net
    unfold pauseReading
    split <;> rfl
  | resumeReading postOk =>
    left
    show (resumeReading postOk s).net = s.net
    unfold resumeReading
    dsimp only
    split
    · split
      · exact hpost _ _
      · rfl
    · rfl
  | dispatch =>
    have hroute : ∀ pieces (s : Stream), (routeInbound pieces s).net = s.net := by
      intro pieces s
      unfold routeInbound
      split
      · rfl
      split <;> rfl
    have heof : ∀ s : Stream, (routeEof s).net = s.net := by
      intro s
      unfold routeEof
      split
      · rfl
      split <;> rfl
    show (dispatchNext s).net = s.net ∨ (dispatchNext s).net.entry = none
    unfold dispatchNext
    split
    · exact .inl rfl
    · rename_i event rest _
      cases event with
      | data piece => exact .inl (hroute [piece] { s with events := rest })
      | bufData piece => exact .inl (hroute [piece] { s with events := rest })
      | heldData pieces => exact .inl (hroute pieces { s with events := rest })
      | eof => exact .inl (heof { s with events := rest })
      | recvFailed => exact .inr (teardown_gone _ _)
  | connectionLost =>
    left
    unfold streamStep
    dsimp only
    split <;> rfl

theorem whole_counts (_op len bytes : Nat) (hlen : 0 < len) (hbytes : some len = some bytes) :
    1 ≤ bytes ∧ bytes ≤ len := by
  injection hbytes with hbytes
  omega

/-- Every send is taken, and goes out whole. -/
def Backend.taking : Backend := ⟨fun _ => true, fun _ len => some len, whole_counts⟩

/-! ## 2. What a protocol was told -/

namespace Transport

/-- The flow-control calls to the protocol of one `set_protocol()`. -/
def flowCalls (t : Transport) (install : Nat) : List Call :=
  (t.calls.filter fun c => c.call.isFlow && c.install == install).map Called.call

/-- How many `resume_writing` are on their way to it. -/
def owed (t : Transport) (install : Nat) : Nat := (t.hand ++ t.queue).count (.resumeWriting install)

/-- The protocol of the transport heard `pause_writing` last. -/
def toldPaused (t : Transport) : Bool := (t.flowCalls t.install).getLast? == some .pauseWriting

/-- Each follows the other, `pause_writing` first. -/
def Alternates (calls : List Call) : Prop :=
  calls.IsChain (· ≠ ·) ∧ calls.head? ≠ some .resumeWriting

theorem alternates_nil : Alternates [] := ⟨.nil, by simp⟩

theorem Alternates.concat {calls : List Call} {call : Call} (h : Alternates calls)
    (hlast : calls.getLast? ≠ some call) (hfirst : calls = [] → call ≠ .resumeWriting) :
    Alternates (calls ++ [call]) := by
  refine ⟨h.1.append (.singleton call) ?_, ?_⟩
  · intro x hx y hy heq
    rw [List.head?_cons, Option.mem_some_iff] at hy
    rw [Option.mem_def, heq, ← hy] at hx
    exact hlast hx
  · cases calls with
    | nil =>
      intro heq
      exact hfirst rfl (Option.some.inj heq)
    | cons first rest => exact h.2

theorem flowCalls_calledOn (t : Transport) (install : Nat) (call : Call) (i : Nat) :
    (t.calledOn install call).flowCalls i =
      if call.isFlow ∧ install = i then t.flowCalls i ++ [call] else t.flowCalls i := by
  rw [flowCalls, calledOn, List.filter_append, List.map_append, ← flowCalls, List.filter_singleton]
  by_cases hflow : call.isFlow ∧ install = i
  · rw [if_pos hflow, Bool.cond_eq_ite, if_pos (by simpa using hflow)]
    rfl
  · rw [if_neg hflow, Bool.cond_eq_ite, if_neg (by simpa using hflow), List.map_nil,
      List.append_nil]

theorem owed_noticed (t : Transport) (immediate : Bool) (stream : Stream) (i : Nat) :
    (t.noticed immediate stream).owed i = t.owed i +
      if t.install = i then stream.net.resumeWriting - t.stream.net.resumeWriting else 0 := by
  have hlost : ∀ lost : Bool,
      (if lost then [Pending.lost immediate] else []).count (.resumeWriting i) = 0 := by
    intro lost
    cases lost <;> simp
  show (t.hand ++ (t.queue ++ List.replicate _ _ ++ _)).count _ = (t.hand ++ t.queue).count _ + _
  rw [List.count_append, List.count_append, List.count_append, hlost, List.count_replicate,
    List.count_append]
  by_cases hi : t.install = i
  · rw [if_pos hi, if_pos (by simpa using hi)]
    omega
  · rw [if_neg hi, if_neg (by simpa using hi)]
    omega

/-- A transport that stands: its marks, its queue over the low one while the flag is set, and what
the protocol heard, which is what the flag says or will be put right. -/
structure Flowing (t : Transport) (e : TransportEntry) : Prop where
  marks : e.lowWater ≤ e.highWater
  level : e.protoPaused → t.limitsMoved = false → e.lowWater < e.queuedBytes
  told : t.toldPaused.toNat = e.protoPaused.toNat + t.owed t.install

structure Paired (t : Transport) : Prop where
  alternates : ∀ i, Alternates (t.flowCalls i)
  fresh : ∀ i, t.install < i → t.flowCalls i = [] ∧ t.owed i = 0
  flowing : ∀ e, t.stream.net.entry = some e → Flowing t e

namespace Paired

variable {t : Transport}

theorem noticed (h : Paired t) (immediate : Bool) {stream : Stream}
    (howes : Across Owes t.stream.net stream.net) : Paired (t.noticed immediate stream) where
  alternates := h.alternates
  fresh i hi := by
    refine ⟨(h.fresh i hi).1, ?_⟩
    have hne : t.install ≠ i := Nat.ne_of_lt hi
    rw [owed_noticed, (h.fresh i hi).2, if_neg hne]
  flowing := by
    intro e' he'
    obtain ⟨e, he, ho⟩ := howes e' he'
    have hf := h.flowing e he
    refine ⟨by rw [ho.low, ho.high]; exact hf.marks, ?_, ?_⟩
    · intro hpaused hlimits
      rcases ho.level hpaused with hover | ⟨hsent, hqueued⟩
      · exact hover
      have hmoved : t.limitsMoved = false := by
        change (t.limitsMoved && decide (stream.net.sent = t.stream.net.sent)) = false at hlimits
        rw [hsent, decide_eq_true rfl, Bool.and_true] at hlimits
        exact hlimits
      have hlevel := hf.level (ho.paused hpaused) hmoved
      rw [ho.low]
      omega
    · show t.toldPaused.toNat = e'.protoPaused.toNat + (t.noticed immediate stream).owed t.install
      rw [owed_noticed, if_pos rfl, ho.resumes, hf.told]
      have hcleared := ho.paused
      revert hcleared
      cases e.protoPaused <;> cases e'.protoPaused <;> simp
      omega

/-- A pause that is decided with no resume on its way. -/
theorem paused (h : Paired t) (immediate : Bool) {stream : Stream} {e e' : TransportEntry}
    (he : t.stream.net.entry = some e) (he' : stream.net.entry = some e')
    (hpauses : Pauses t.stream.net stream.net e e') (hspaced : t.owed t.install = 0) :
    Paired ((t.noticed immediate stream).called .pauseWriting) := by
  have hf := h.flowing e he
  have htold : t.toldPaused = false := by
    have hnone := hf.told
    rw [hpauses.unpaused, hspaced] at hnone
    simpa using hnone
  have hlast : (t.flowCalls t.install).getLast? ≠ some .pauseWriting := by
    simpa [toldPaused] using htold
  have hcalls : ∀ i, ((t.noticed immediate stream).called .pauseWriting).flowCalls i =
      if t.install = i then t.flowCalls i ++ [.pauseWriting] else t.flowCalls i := by
    intro i
    rw [called, flowCalls_calledOn]
    by_cases hi : t.install = i
    · rw [if_pos hi, if_pos ⟨rfl, hi⟩]
      rfl
    · rw [if_neg hi, if_neg (fun hflow => hi hflow.2)]
      rfl
  have howed : ∀ i, ((t.noticed immediate stream).called .pauseWriting).owed i = t.owed i := by
    intro i
    show (t.noticed immediate stream).owed i = t.owed i
    rw [owed_noticed, hpauses.resumes, Nat.sub_self, ite_self, Nat.add_zero]
  refine ⟨fun i => ?_, fun i hi => ?_, fun e₁ he₁ => ?_⟩
  · rw [hcalls]
    split
    · rename_i hi
      subst hi
      exact (h.alternates t.install).concat hlast fun _ => by decide
    · exact h.alternates i
  · have hne : t.install ≠ i := Nat.ne_of_lt hi
    rw [hcalls, howed, if_neg hne]
    exact h.fresh i hi
  · obtain rfl : e' = e₁ := Option.some.inj (he'.symm.trans he₁)
    refine ⟨by rw [hpauses.low, hpauses.high]; exact hf.marks, fun _ _ => ?_, ?_⟩
    · have hmarks := hf.marks
      have hover := hpauses.queued
      rw [hpauses.high] at hover
      rw [hpauses.low]
      omega
    · have htold' : ((t.noticed immediate stream).called .pauseWriting).toldPaused = true := by
        show (((t.noticed immediate stream).called .pauseWriting).flowCalls t.install).getLast? ==
          some .pauseWriting
        rw [hcalls, if_pos rfl, List.getLast?_concat]
        rfl
      show _ = e'.protoPaused.toNat +
        ((t.noticed immediate stream).called .pauseWriting).owed t.install
      rw [htold', howed, hspaced, hpauses.paused]
      rfl

/-- A write, or new limits, and the pause that may come of it. -/
theorem decided (h : Paired t) (hpy : ∀ e, t.stream.net.entry = some e → e.http = false)
    (immediate : Bool) (stream : Stream) (hdecides : Across Decides t.stream.net stream.net)
    (hspaced : t.stream.net.paused = false → stream.net.paused → t.owed t.install = 0) :
    Paired (if !t.stream.net.paused && stream.net.paused then
        (t.noticed immediate stream).called .pauseWriting
      else t.noticed immediate stream) := by
  cases he' : stream.net.entry with
  | none =>
    have hunpaused : stream.net.paused = false := by rw [NetState.paused, he']; rfl
    rw [hunpaused, Bool.and_false, if_neg Bool.false_ne_true]
    exact h.noticed immediate (.of_gone he')
  | some e' =>
    obtain ⟨e, he, hdrains | hpauses⟩ := hdecides e' he'
    · have hquiet : (!t.stream.net.paused && stream.net.paused) = false := by
        have hcleared := hdrains.paused
        rw [NetState.paused, NetState.paused, he, he', Option.any_some, Option.any_some]
        revert hcleared
        cases e.protoPaused <;> cases e'.protoPaused <;> simp
      rw [hquiet, if_neg Bool.false_ne_true]
      apply h.noticed immediate
      intro e₁ he₁
      obtain rfl : e' = e₁ := Option.some.inj (he'.symm.trans he₁)
      exact ⟨e, he, hdrains.owes (hpy e he)⟩
    · have hbefore : t.stream.net.paused = false := by
        rw [NetState.paused, he]
        exact hpauses.unpaused
      have hbehind : stream.net.paused = true := by
        rw [NetState.paused, he']
        exact hpauses.paused
      rw [if_pos (by rw [hbefore, hbehind]; rfl)]
      exact h.paused immediate he he' hpauses (hspaced hbefore hbehind)

/-- The flag, the marks, the count and what the protocols heard are as they were. -/
theorem moved (h : Paired t) {t' : Transport} (hnet : t'.stream.net = t.stream.net)
    (hinstall : t'.install = t.install) (hcalls : ∀ i, t'.flowCalls i = t.flowCalls i)
    (howed : ∀ i, t'.owed i = t.owed i)
    (hlimits : t'.limitsMoved = false → t.limitsMoved = false) : Paired t' where
  alternates i := by
    rw [hcalls]
    exact h.alternates i
  fresh i hi := by
    rw [hcalls, howed]
    exact h.fresh i (hinstall ▸ hi)
  flowing := by
    intro e he
    have hf := h.flowing e (hnet ▸ he)
    refine ⟨hf.marks, fun hpaused hmoved => hf.level hpaused (hlimits hmoved), ?_⟩
    rw [toldPaused, hcalls, howed, hinstall]
    exact hf.told

/-- A call that is no flow control. -/
theorem calledOn (h : Paired t) (install : Nat) {call : Call} (hcall : call.isFlow = false) :
    Paired (t.calledOn install call) := by
  refine h.moved rfl rfl (fun i => ?_) (fun _ => rfl) id
  rw [flowCalls_calledOn, if_neg]
  rw [hcall]
  exact fun hflow => Bool.false_ne_true hflow.1

/-- New marks, of which the queue is not yet told. -/
theorem limited (h : Paired t) {e : TransportEntry} (he : t.stream.net.entry = some e)
    {high low : Nat} (hmarks : low ≤ high) :
    Paired { t with
      stream := { t.stream with net := { t.stream.net with
        entry := some { e with highWater := high, lowWater := low } } }
      limitsMoved := true } where
  alternates := h.alternates
  fresh := h.fresh
  flowing := by
    intro e' he'
    obtain rfl := Option.some.inj he'
    exact ⟨hmarks, fun _ hmoved => absurd hmoved (by simp), (h.flowing e he).told⟩

theorem owed_popped {pending : Pending} {rest : List Pending} (hhand : t.hand = pending :: rest)
    (i : Nat) : t.owed i = (rest ++ t.queue).count (.resumeWriting i) +
      if pending = .resumeWriting i then 1 else 0 := by
  rw [owed, hhand, List.cons_append, List.count_cons]
  simp only [beq_iff_eq]

/-- `resume_writing` of the protocol that heard `pause_writing` last. -/
theorem resumed (h : Paired t) {rest : List Pending} {e : TransportEntry}
    (hhand : t.hand = .resumeWriting t.install :: rest) (he : t.stream.net.entry = some e) :
    Paired (called { t with hand := rest, resuming := true } .resumeWriting) := by
  have hf := h.flowing e he
  have hpopped := fun i => owed_popped hhand i
  have hcalls : ∀ i, (called { t with hand := rest, resuming := true } .resumeWriting).flowCalls i =
      if t.install = i then t.flowCalls i ++ [.resumeWriting] else t.flowCalls i := by
    intro i
    rw [called, flowCalls_calledOn]
    by_cases hi : t.install = i
    · rw [if_pos hi, if_pos ⟨rfl, hi⟩]
      rfl
    · rw [if_neg hi, if_neg (fun hflow => hi hflow.2)]
      rfl
  have howed : ∀ i, (called { t with hand := rest, resuming := true } .resumeWriting).owed i =
      (rest ++ t.queue).count (.resumeWriting i) := fun _ => rfl
  have hone := hf.told
  rw [hpopped t.install, if_pos rfl] at hone
  obtain ⟨htold, hunpaused, hnone⟩ : t.toldPaused = true ∧ e.protoPaused = false ∧
      (rest ++ t.queue).count (.resumeWriting t.install) = 0 := by
    cases htold : t.toldPaused <;> cases hpaused : e.protoPaused <;>
      rw [htold, hpaused] at hone <;> simp only [Bool.toNat_true, Bool.toNat_false] at hone <;>
      first
        | exact ⟨rfl, rfl, by omega⟩
        | omega
  have hlast : (t.flowCalls t.install).getLast? = some .pauseWriting := by
    simpa [toldPaused] using htold
  refine ⟨fun i => ?_, fun i hi => ?_, fun e' he' => ?_⟩
  · rw [hcalls]
    split
    · rename_i hi
      subst hi
      refine (h.alternates t.install).concat (by rw [hlast]; decide) fun hnil => ?_
      rw [hnil] at hlast
      cases hlast
    · exact h.alternates i
  · have hne : t.install ≠ i := Nat.ne_of_lt hi
    have hfresh := (h.fresh i hi).2
    rw [hpopped] at hfresh
    rw [hcalls, howed, if_neg hne]
    exact ⟨(h.fresh i hi).1, by omega⟩
  · obtain rfl : e = e' := Option.some.inj (he.symm.trans he')
    refine ⟨hf.marks, fun hpaused => ?_, ?_⟩
    · rw [hunpaused] at hpaused
      cases hpaused
    · have htold' : toldPaused (called { t with hand := rest, resuming := true } .resumeWriting) =
          false := by
        show (((called { t with hand := rest, resuming := true } .resumeWriting).flowCalls
          t.install).getLast? == some .pauseWriting) = false
        rw [hcalls, if_pos rfl, List.getLast?_concat]
        rfl
      rw [htold', howed, hunpaused]
      show 0 = 0 + (rest ++ t.queue).count (.resumeWriting t.install)
      rw [hnone]

/-- A `resume_writing` that is not the protocol's any more. -/
theorem unowed (h : Paired t) {install : Nat} {rest : List Pending}
    (hhand : t.hand = .resumeWriting install :: rest)
    (hunowed : ¬ (t.stream.net.entry.isSome ∧ install = t.install)) :
    Paired { t with hand := rest, resuming := true } where
  alternates := h.alternates
  fresh i hi := by
    have hfresh := (h.fresh i hi).2
    rw [owed_popped hhand] at hfresh
    refine ⟨(h.fresh i hi).1, ?_⟩
    show (rest ++ t.queue).count (.resumeWriting i) = 0
    omega
  flowing := by
    intro e he
    have hne : install ≠ t.install := by
      intro heq
      have hsome : t.stream.net.entry.isSome := Option.isSome_of_eq_some he
      exact hunowed ⟨hsome, heq⟩
    have hf := h.flowing e he
    have htold := hf.told
    rw [owed_popped hhand, if_neg (by simpa using hne)] at htold
    exact ⟨hf.marks, hf.level, htold⟩

theorem connectionLost (h : Paired t) : Paired t.connectionLost := by
  have hlost : Paired (t.called .connectionLost) := h.calledOn t.install rfl
  refine hlost.moved ?_ rfl (fun _ => rfl) (fun _ => rfl) id
  show (streamStep t.stream .connectionLost).net = t.stream.net
  unfold streamStep
  dsimp only
  split <;> rfl

theorem dispatchPending (h : Paired t) : Paired t.dispatchPending := by
  unfold Transport.dispatchPending
  split
  · exact h
  · rename_i install rest hhand
    dsimp only
    split
    · rename_i howed
      obtain ⟨e, he⟩ := Option.isSome_iff_exists.mp howed.1
      rw [howed.2] at hhand
      exact h.resumed hhand he
    · rename_i hunowed
      exact h.unowed hhand hunowed
  · rename_i rest hhand
    apply connectionLost
    exact h.moved rfl rfl (fun _ => rfl) (fun i => (owed_popped hhand i).symm) id
  · rename_i rest hhand
    exact h.moved rfl rfl (fun _ => rfl) (fun i => (owed_popped hhand i).symm) id

theorem read (h : Paired t) (immediate : Bool) {event : StreamEvent}
    (hwriting : ∀ backend op, event ≠ .writing backend op)
    (hset : ∀ buffered, event ≠ .setProtocol buffered) :
    Paired (t.noticed immediate (streamStep t.stream event)) :=
  h.noticed immediate (owes_of_eq (streamStep_net hwriting hset))

theorem failed (h : Paired t) : Paired t.failed := by
  have hnoticed : Paired (t.noticed false { t.stream with
      net := teardown t.stream.net .failed, recvOp := false, released := true }) :=
    h.noticed false (.of_gone (teardown_gone _ _))
  exact hnoticed.moved rfl rfl (fun _ => rfl) (fun _ => rfl) id

/-- A data callback, and the chunk it belongs to. -/
theorem round (h : Paired t) (install : Nat) {call : Call} (hcall : call.isFlow = false)
    (handed : List UInt8) (chunk : Option Chunk) :
    Paired { t.calledOn install call with handed, chunk } :=
  (h.calledOn install hcall).moved rfl rfl (fun _ => rfl) (fun _ => rfl) id

theorem dispatchInbound (h : Paired t) : Paired t.dispatchInbound := by
  have hread : Paired (t.noticed false (streamStep t.stream .dispatch)) :=
    h.read false (by simp) (by simp)
  rcases dispatchInbound_cases t with heq | ⟨-, heq⟩ | ⟨event, -, -, -, -, -, heq⟩
  · rw [heq]
    exact h
  · rw [heq]
    exact hread
  · rw [heq]
    split
    · exact hread.calledOn _ rfl
    · unfold Transport.deliver
      split
      · exact hread.round _ rfl _ _
      split
      · exact hread
      · exact hread.round _ rfl _ _

theorem returned (h : Paired t) (outcome : Outcome) : Paired (t.returned outcome) := by
  have hended : Paired { t with chunk := none } :=
    h.moved rfl rfl (fun _ => rfl) (fun _ => rfl) id
  unfold Transport.returned
  split
  · exact h
  rename_i c hc
  split
  · exact hended
  · exact h.failed
  · split
    · exact hended
    · dsimp only
      split
      · exact h.failed
      · exact h.round _ rfl _ _
    · split
      · exact hended
      · exact h.round _ rfl t.handed _

/-- A new protocol has heard nothing, and starts unpaused. -/
theorem setProtocol (h : Paired t) (hpy : ∀ e, t.stream.net.entry = some e → e.http = false)
    (buffered : Bool) : Paired (t.setProtocol buffered) := by
  unfold Transport.setProtocol
  cases he : t.stream.net.entry with
  | none =>
    refine h.moved ?_ rfl (fun _ => rfl) (fun _ => rfl) id
    show t.stream.net.on false Net.setProtocol = t.stream.net
    rw [NetState.on, he]
    rfl
  | some e =>
    have hnet : t.stream.net.on false Net.setProtocol =
        { t.stream.net with entry := some { e with protoPaused := false } } := by
      rw [on_py_same he (hpy e he), Net.setProtocol, he]
    refine ⟨h.alternates, fun i hi => h.fresh i (Nat.lt_of_succ_lt hi), fun e' he' => ?_⟩
    change (t.stream.net.on false Net.setProtocol).entry = some e' at he'
    rw [hnet] at he'
    obtain rfl := Option.some.inj he'
    refine ⟨(h.flowing e he).marks, fun hpaused => absurd hpaused Bool.false_ne_true, ?_⟩
    obtain ⟨hcalls, howed⟩ := h.fresh (t.install + 1) (Nat.lt_succ_self _)
    show ((t.flowCalls (t.install + 1)).getLast? == some .pauseWriting).toNat =
      false.toNat + t.owed (t.install + 1)
    rw [hcalls, howed]
    rfl

end Paired

/-- No pause is decided while a `resume_writing` is on its way to the protocol. -/
def Spaced (t : Transport) : TransportEvent → Prop
  | .writing backend op immediate => t.stream.net.paused = false →
    (t.writing backend op immediate).stream.net.paused →
      .resumeWriting t.install ∉ t.hand ++ t.queue
  | _ => True

namespace Paired

variable {t : Transport}

theorem wrote (h : Paired t) (hpy : ∀ e, t.stream.net.entry = some e → e.http = false)
    {backend : Backend} {op : NetOp} (immediate : Bool)
    (hdecides : Across Decides t.stream.net (netStep backend t.stream.net op))
    (hspaced : t.stream.net.paused = false → (netStep backend t.stream.net op).paused →
      .resumeWriting t.install ∉ t.hand ++ t.queue) : Paired (t.wrote backend op immediate) :=
  h.decided hpy immediate _ hdecides fun hbefore hbehind =>
    List.count_eq_zero.mpr (hspaced hbefore hbehind)

theorem limits (h : Paired t) (hpy : ∀ e, t.stream.net.entry = some e → e.http = false)
    {backend : Backend} {high low staged : Nat} {immediate : Bool} (hmarks : low ≤ high)
    (hspaced : t.stream.net.paused = false →
      (netStep backend t.stream.net (.setWriteBufferLimits high low staged)).paused →
      .resumeWriting t.install ∉ t.hand ++ t.queue) :
    Paired { t.wrote backend (.setWriteBufferLimits high low staged) immediate with
      limitsMoved := true } := by
  cases he : t.stream.net.entry with
  | none =>
    have hnet : netStep backend t.stream.net (.setWriteBufferLimits high low staged) =
        t.stream.net := by
      show t.stream.net.on false _ = t.stream.net
      rw [NetState.on, he]
      rfl
    have hdecides : Across Decides t.stream.net
        (netStep backend t.stream.net (.setWriteBufferLimits high low staged)) :=
      .of_gone (by rw [hnet, he])
    exact (h.wrote hpy immediate hdecides hspaced).moved rfl rfl (fun _ => rfl) (fun _ => rfl)
      fun hmoved => absurd hmoved (by simp)
  | some e =>
    have hlimited := h.limited he hmarks
    generalize ht₀ : ({ t with
      stream := { t.stream with net := { t.stream.net with
        entry := some { e with highWater := high, lowWater := low } } }
      limitsMoved := true } : Transport) = t₀ at hlimited
    have hnet : netStep backend t.stream.net (.setWriteBufferLimits high low staged) =
        maybePause backend staged t₀.stream.net := by
      show t.stream.net.on false (setWriteBufferLimits backend high low staged) = _
      rw [on_py_same he (hpy e he), setWriteBufferLimits, he, ← ht₀]
    have hpy₀ : ∀ e, t₀.stream.net.entry = some e → e.http = false := by
      rw [← ht₀]
      intro e' he'
      obtain rfl := Option.some.inj he'
      exact hpy e he
    have hpaused : t₀.stream.net.paused = t.stream.net.paused := by
      rw [← ht₀, NetState.paused, NetState.paused, he]
      rfl
    have hdecides : Across Decides t₀.stream.net
        (netStep backend t.stream.net (.setWriteBufferLimits high low staged)) := by
      rw [hnet]
      exact maybePause_decides staged
    have hdecided := hlimited.decided hpy₀ immediate
      (streamStep t.stream (.writing backend (.setWriteBufferLimits high low staged))) hdecides
      (by
        rw [hpaused, ← ht₀]
        exact fun hbefore hbehind => List.count_eq_zero.mpr (hspaced hbefore hbehind))
    rw [hpaused] at hdecided
    -- with the limits as they were, the same calls and the same events
    have hsame : ∀ i, (t₀.noticed immediate (streamStep t.stream
        (.writing backend (.setWriteBufferLimits high low staged)))).owed i =
        (t.noticed immediate (streamStep t.stream
          (.writing backend (.setWriteBufferLimits high low staged)))).owed i := by
      intro i
      rw [owed_noticed, owed_noticed, ← ht₀]
      rfl
    have hwrote : t.wrote backend (.setWriteBufferLimits high low staged) immediate =
        if !t.stream.net.paused && (streamStep t.stream
          (.writing backend (.setWriteBufferLimits high low staged))).net.paused then
          (t.noticed immediate (streamStep t.stream
            (.writing backend (.setWriteBufferLimits high low staged)))).called .pauseWriting
        else t.noticed immediate (streamStep t.stream
          (.writing backend (.setWriteBufferLimits high low staged))) := rfl
    rw [hwrote]
    split at hdecided
    · rename_i hpauses
      rw [if_pos hpauses]
      refine hdecided.moved rfl ?_ (fun i => ?_) (fun i => (hsame i).symm)
        fun hmoved => absurd hmoved (by simp)
      · rw [← ht₀]
        rfl
      · rw [← ht₀]
        rfl
    · rename_i hquiet
      rw [if_neg hquiet]
      refine hdecided.moved rfl ?_ (fun i => ?_) (fun i => (hsame i).symm)
        fun hmoved => absurd hmoved (by simp)
      · rw [← ht₀]
        rfl
      · rw [← ht₀]
        rfl

theorem writing (h : Paired t) (hpy : ∀ e, t.stream.net.entry = some e → e.http = false)
    {backend : Backend} {op : NetOp} {immediate : Bool}
    (hspaced : Spaced t (.writing backend op immediate)) :
    Paired (t.writing backend op immediate) := by
  have hnet : ∀ op, (t.wrote backend op immediate).stream.net = netStep backend t.stream.net op := by
    intro op
    unfold Transport.wrote
    dsimp only
    split <;> rfl
  have hquiet : ∀ {op : NetOp}, op.decides = false →
      (t.stream.net.paused = false → (t.wrote backend op immediate).stream.net.paused →
        .resumeWriting t.install ∉ t.hand ++ t.queue) →
      Paired (t.wrote backend op immediate) := by
    intro op hop hspaced
    rw [hnet] at hspaced
    exact h.wrote hpy immediate ((netStep_drains backend hpy hop).imp fun _ _ => .inl) hspaced
  cases op with
  | write exact' data staged =>
    have hdecides : Across Decides t.stream.net
        (netStep backend t.stream.net (.write exact' data staged)) :=
      on_across ((keeps_refl _).imp fun _ _ hg => .inl hg.drains) (write_decides exact' data staged)
    refine h.wrote hpy immediate hdecides ?_
    rw [← hnet]
    exact hspaced
  | writelines items => exact h
  | setWriteBufferLimits high low staged =>
    unfold Transport.writing
    dsimp only
    split
    · exact h
    · rename_i hmarks
      refine h.limits hpy (Nat.le_of_not_lt hmarks) ?_
      rw [← hnet]
      unfold Spaced Transport.writing at hspaced
      dsimp only at hspaced
      rw [if_neg hmarks] at hspaced
      exact hspaced
  | setProtocol => exact h
  | finishAfterResume => exact h
  | _ => exact hquiet rfl hspaced

theorem free (h : Paired t) {f : Transport → Transport} (hf : Paired (f t)) :
    Paired (t.free f) := by
  unfold Transport.free
  split
  · exact h
  · exact hf

theorem requeued (h : Paired t) {queue hand : List Pending}
    (hperm : (hand ++ queue).Perm (t.hand ++ t.queue)) : Paired { t with queue, hand } := by
  refine h.moved rfl rfl (fun _ => rfl) (fun i => ?_) id
  exact hperm.count_eq _

theorem schedulePendingLost (h : Paired t) : Paired t.schedulePendingLost := by
  refine h.moved rfl rfl (fun _ => rfl) (fun i => ?_) id
  show (t.hand ++ t.queue.filter (· ≠ .lost false)).count (.resumeWriting i) = _
  rw [owed, List.count_append, List.count_append, List.count_filter (by simp)]

theorem made (h : Paired t) : Paired { t.called .connectionMade with made := true } :=
  (h.calledOn t.install rfl).moved rfl rfl (fun _ => rfl) (fun _ => rfl) id

theorem moves (h : Paired t) (hpy : ∀ e, t.stream.net.entry = some e → e.http = false)
    {event : TransportEvent} (hspaced : Spaced t event) : Paired (t.moves event) := by
  cases event with
  | connectionMade => exact h
  | postRecv ok =>
    refine h.moved ?_ rfl (fun _ => rfl) (fun _ => rfl) id
    show (Net.postRecv ok t.stream).net = t.stream.net
    unfold Net.postRecv
    split
    · rfl
    split <;> rfl
  | writing backend op immediate => exact h.writing hpy hspaced
  | recvDone result postOk => exact h.read false (by simp) (by simp)
  | pauseReading => exact h.read false (by simp) (by simp)
  | resumeReading postOk => exact h.read false (by simp) (by simp)
  | setProtocol buffered => exact h.setProtocol hpy buffered
  | schedulePendingLost => exact h.schedulePendingLost
  | returned outcome => exact h.returned outcome
  | finishAfterResume backend immediate =>
    have hfinished : Paired (t.noticed immediate
        (streamStep t.stream (.writing backend .finishAfterResume))) :=
      h.noticed immediate finishAfterResume_owes
    show Paired (if t.resuming then _ else t)
    split
    · exact hfinished.moved rfl rfl (fun _ => rfl) (fun _ => rfl) id
    · exact h
  | takeEvents =>
    apply h.free
    split
    · rename_i hhand
      apply h.requeued
      rw [hhand, List.append_nil, List.nil_append]
    · exact h
  | requeueEvents =>
    apply h.free
    apply h.requeued
    rw [List.nil_append]
  | dispatchInbound => exact h.free h.dispatchInbound
  | dispatchPending => exact h.free h.dispatchPending
  | lostCall =>
    apply h.free
    split
    · exact h
    · apply connectionLost
      exact h.moved rfl rfl (fun _ => rfl) (fun _ => rfl) id

end Paired

theorem new_paired {highWater lowWater : Nat} (buffered : Bool) (hmarks : lowWater ≤ highWater) :
    Paired (.new buffered highWater lowWater) := by
  refine ⟨fun _ => alternates_nil, fun _ _ => ⟨rfl, rfl⟩, fun e he => ?_⟩
  obtain rfl := Option.some.inj he
  exact ⟨hmarks, fun hpaused => absurd hpaused Bool.false_ne_true, rfl⟩

/-! ## 3. A run pairs them -/

/-- For each protocol that is installed, `pause_writing` and `resume_writing` alternate.  One that is
installed and was paused has the queue over the low-water mark or a resume on its way, or the limits
were moved since a send last completed. -/
theorem flow_control_paired (buffered : Bool) (highWater lowWater : Nat)
    (hmarks : lowWater ≤ highWater) (events : List TransportEvent)
    (h : (transport buffered highWater lowWater).Along Spaced events) :
    let t := (transport buffered highWater lowWater).run events
    (∀ install, Alternates (t.flowCalls install)) ∧
      ∀ e, t.stream.net.entry = some e → t.toldPaused →
        e.lowWater < e.queuedBytes ∨ .resumeWriting t.install ∈ t.hand ++ t.queue ∨
          t.limitsMoved := by
  intro t
  have hpaired : Paired t := by
    revert h
    apply (transport buffered highWater lowWater).run_induction
      (motive := fun events t => (transport buffered highWater lowWater).Along Spaced events →
        Paired t) (fun _ => new_paired buffered hmarks)
    intro events event ih h
    have hbefore := ih h.of_append
    have hspaced : Spaced _ event := h events event (List.prefix_refl _)
    rcases transport_disciplined buffered highWater lowWater events with hnew | hd
    · rw [hnew]
      cases event with
      | connectionMade => exact (new_paired buffered hmarks).made
      | _ => exact new_paired buffered hmarks
    · show Paired (step _ event)
      unfold step
      rw [if_pos hd.made]
      exact hbefore.moves hd.conserved.py hspaced
  refine ⟨hpaired.alternates, fun e he htold => ?_⟩
  have hf := hpaired.flowing e he
  by_cases howed : .resumeWriting t.install ∈ t.hand ++ t.queue
  · exact .inr (.inl howed)
  have hnone : t.owed t.install = 0 := List.count_eq_zero.mpr howed
  have hpaused : e.protoPaused = true := by
    have hsum := hf.told
    rw [htold, hnone, Bool.toNat_true] at hsum
    cases hp : e.protoPaused with
    | true => rfl
    | false =>
      rw [hp] at hsum
      cases hsum
  cases hmoved : t.limitsMoved with
  | true => exact .inr (.inr rfl)
  | false => exact .inl (hf.level hpaused hmoved)

/-- A pause over the mark, a completion that takes the queue under it, and the resume. -/
theorem flow_control_paired_resumed :
    Alternates (((transport false 4 2).run
      [.connectionMade, .writing .taking (.write true [1, 2, 3, 4, 5] 0) true,
        .writing .taking .onSendDone true, .takeEvents, .dispatchPending,
        .finishAfterResume .taking true]).flowCalls 0) := by
  refine (flow_control_paired false 4 2 (by decide) _ ?_).1 0
  rw [show [TransportEvent.connectionMade, .writing .taking (.write true [1, 2, 3, 4, 5] 0) true,
      .writing .taking .onSendDone true, .takeEvents, .dispatchPending,
      .finishAfterResume .taking true] =
    [] ++ [.connectionMade] ++ [.writing .taking (.write true [1, 2, 3, 4, 5] 0) true] ++
      [.writing .taking .onSendDone true] ++ [.takeEvents] ++ [.dispatchPending] ++
      [.finishAfterResume .taking true] from rfl]
  simp only [Machine.along_concat]
  refine ⟨⟨⟨⟨⟨⟨Machine.along_nil _ _, trivial⟩, ?_⟩, ?_⟩, trivial⟩, trivial⟩, trivial⟩
  · exact fun _ _ => by decide
  · exact fun hpaused _ => absurd hpaused (by decide +kernel)

/-- Moving the low-water mark over the queue resumes nobody, and a queue that grows over the high
mark ahead of the resume pauses twice. -/
theorem flow_control_unpaired :
    (let t := (transport false 4 2).run
      [.connectionMade, .writing .taking (.write true [1, 2, 3, 4, 5] 0) true,
        .writing .taking (.setWriteBufferLimits 8 6 0) true]
    t.toldPaused ∧ t.stream.net.entry.any (fun e => e.queuedBytes ≤ e.lowWater) ∧
      t.hand ++ t.queue = []) ∧
    ((transport false 4 2).run
      [.connectionMade, .writing .taking (.write true [1, 2, 3, 4, 5] 0) true,
        .writing .taking .onSendDone true,
        .writing .taking (.write true [1, 2, 3, 4, 5] 0) true]).flowCalls 0 =
      [.pauseWriting, .pauseWriting] := by
  decide +kernel

end Transport

end Cadeloop.Pyshim.Net
