import Cadeloop.Pyshim.Inbound
import Cadeloop.Pyshim.WriteQueueRuns

/-!
# Runs of the reading side

What the protocol got against what the kernel delivered.  The order survives as long as nothing
overtakes a byte that waits elsewhere, and nothing is lost as long as no failure ends the connection
ahead of its queued data; each is shown to fail where its condition does.
-/

namespace Cadeloop.Pyshim.Net

open Cadeloop.Reasoning

/-! ## 1. What writing leaves of the entry -/

/-- A backend that takes every send and reports no error. -/
structure Backend.Obliging (backend : Backend) : Prop where
  posts : ∀ op, backend.postSend op = true
  sends : ∀ op len, (backend.reports op len).isSome

/-- Every send is taken, and reported to fail. -/
def Backend.failing : Backend := ⟨fun _ => true, fun _ _ => none, by simp⟩

/-- The entry is there still and closes if it did; or it is gone, because it was to close or because
of the backend. -/
inductive EntryKept (backend : Backend) (net net' : NetState) : Prop where
  | gone (was : net.entry = none) (is : net'.entry = none)
  | kept {entry entry' : TransportEntry} (was : net.entry = some entry)
    (is : net'.entry = some entry') (closing : entry'.closing = entry.closing)
  | ended {entry : TransportEntry} (was : net.entry = some entry) (is : net'.entry = none)
    (why : backend.Obliging → entry.closing = true)

namespace EntryKept

variable {backend : Backend} {net net' net'' : NetState}

theorem of_eq (h : net'.entry = net.entry) : EntryKept backend net net' := by
  cases he : net.entry with
  | none => exact .gone he (h.trans he)
  | some entry => exact .kept he (h.trans he) rfl

theorem refl (backend : Backend) (net : NetState) : EntryKept backend net net := .of_eq rfl

theorem trans (h : EntryKept backend net net') (h' : EntryKept backend net' net'') :
    EntryKept backend net net'' := by
  cases h with
  | gone was gone =>
    cases h' with
    | gone _ gone' => exact .gone was gone'
    | kept was' => exact absurd (gone.symm.trans was') (by simp)
    | ended was' => exact absurd (gone.symm.trans was') (by simp)
  | kept was kept closing =>
    cases h' with
    | gone was' => exact absurd (kept.symm.trans was') (by simp)
    | kept was' kept' closing' =>
      have hsame := Option.some.inj (kept.symm.trans was')
      exact .kept was kept' (closing'.trans (hsame ▸ closing))
    | ended was' gone' why =>
      have hsame := Option.some.inj (kept.symm.trans was')
      exact .ended was gone' fun hgood => (hsame ▸ closing).symm.trans (why hgood)
  | ended was gone why =>
    cases h' with
    | gone _ gone' => exact .ended was gone' why
    | kept was' => exact absurd (gone.symm.trans was') (by simp)
    | ended was' => exact absurd (gone.symm.trans was') (by simp)

/-- After an update of the entry that leaves `closing` alone. -/
theorem of_entry {entry entry' : TransportEntry} (h : EntryKept backend net' net'')
    (was : net.entry = some entry) (is : net'.entry = some entry')
    (closing : entry'.closing = entry.closing) : EntryKept backend net net'' :=
  trans (.kept was is closing) h

end EntryKept

variable {backend : Backend} {net : NetState}

theorem teardown_gone (net : NetState) (ending : Ending) : (teardown net ending).entry = none := by
  unfold teardown
  cases he : net.entry with
  | none => exact he
  | some entry => rfl

theorem maybeFinishShutdown_kept : EntryKept backend net (maybeFinishShutdown net) := by
  unfold maybeFinishShutdown
  cases he : net.entry with
  | none => exact .gone he he
  | some entry =>
    dsimp only
    split
    · exact .refl backend net
    have hclosing : (if entry.eofWanted then { entry with eofSent := true } else entry).closing =
        entry.closing := by split <;> rfl
    generalize (if entry.eofWanted then { entry with eofSent := true } else entry) = entry'
      at hclosing ⊢
    split
    · exact .kept he rfl hclosing
    rename_i hend
    split
    · split <;> exact .kept he rfl hclosing
    · exact .ended he (teardown_gone net .closed) fun _ => hclosing ▸ of_not_not hend

theorem flushPending_kept : EntryKept backend net (flushPending backend net) := by
  unfold flushPending
  cases he : net.entry with
  | none => exact .gone he he
  | some entry =>
    dsimp only
    split
    · exact .kept he rfl rfl
    split
    · exact maybeFinishShutdown_kept.of_entry he rfl rfl
    split
    · exact .kept he rfl rfl
    · rename_i hrefused
      exact .ended he (teardown_gone _ .failed) fun hgood => absurd (hgood.posts _) hrefused

theorem onSendDone_kept : EntryKept backend net (onSendDone backend net) := by
  unfold onSendDone
  cases he : net.entry with
  | none => exact .gone he he
  | some entry =>
    dsimp only
    split
    · exact .refl backend net
    split
    · rename_i hreport
      refine .ended he (teardown_gone _ .failed) fun hgood => ?_
      exact absurd hreport (Option.isSome_iff_ne_none.mp (hgood.sends _ _))
    split
    · exact flushPending_kept.of_entry he rfl rfl
    split
    · exact .kept he rfl rfl
    · exact maybeFinishShutdown_kept.of_entry he rfl rfl

theorem settleInline_kept (staged : Nat) : EntryKept backend net (settleInline backend staged net) := by
  induction staged generalizing net with
  | zero => exact .refl backend net
  | succ staged ih => exact .trans onSendDone_kept ih

theorem maybePause_kept (staged : Nat) : EntryKept backend net (maybePause backend staged net) := by
  unfold maybePause
  cases he : net.entry with
  | none => exact .gone he he
  | some entry =>
    dsimp only
    split
    · exact .refl backend net
    have hflushed : EntryKept backend net
        (if entry.sendOp.isNone then flushPending backend net else net) := by
      split
      · exact flushPending_kept
      · exact .refl backend net
    have hsettled := hflushed.trans (settleInline_kept (min staged settleRounds))
    generalize settleInline backend (min staged settleRounds)
      (if entry.sendOp.isNone then flushPending backend net else net) = net' at hsettled ⊢
    cases he' : net'.entry with
    | none => exact hsettled
    | some entry' =>
      dsimp only
      split
      · exact hsettled
      · exact hsettled.trans (.kept he' rfl rfl)

theorem afterQueue_kept (early : Bool) : EntryKept backend net (afterQueue backend early net) := by
  unfold afterQueue
  cases he : net.entry with
  | none => exact .gone he he
  | some entry =>
    dsimp only
    split
    · exact .refl backend net
    split
    · exact flushPending_kept
    split
    · exact .refl backend net
    · exact .kept he rfl rfl

theorem coalesceTail_closing {entry entry' : TransportEntry} {data : List UInt8}
    (h : coalesceTail entry data = some entry') : entry'.closing = entry.closing := by
  unfold coalesceTail at h
  split at h
  · exact absurd h (by simp)
  split at h
  · split at h
    · injection h with h
      rw [← h]
    · exact absurd h (by simp)
  · exact absurd h (by simp)

theorem getD_coalesceTail_closing (entry : TransportEntry) {entry' : TransportEntry} (data : List UInt8)
    (h : entry'.closing = entry.closing) :
    ((coalesceTail entry data).getD entry').closing = entry.closing := by
  cases hc : coalesceTail entry data with
  | none => exact h
  | some merged => exact coalesceTail_closing hc

theorem queue_closing (entry : TransportEntry) (queued : Queued) :
    (entry.queue queued).closing = entry.closing := by
  cases queued with
  | small data =>
    exact getD_coalesceTail_closing
      { entry with queuedBytes := entry.queuedBytes + data.length } data rfl
  | buf buf =>
    cases buf with
    | bytes data off => rfl
    | owned data off =>
      exact getD_coalesceTail_closing
        { entry with queuedBytes := entry.queuedBytes + (data.length - off) } data rfl

theorem write_kept (exact' : Bool) (data : List UInt8) (staged : Nat) :
    EntryKept backend net (write backend exact' data staged net) := by
  unfold write
  split
  · exact .refl backend net
  cases he : net.entry with
  | none => exact .gone he he
  | some entry =>
    exact ((afterQueue_kept false).trans (maybePause_kept staged)).of_entry he rfl (queue_closing _ _)

theorem writelines_kept (items : List (Bool × List UInt8 × Nat)) :
    EntryKept backend net (writelines backend items net) := by
  unfold writelines
  induction items generalizing net with
  | nil => exact .refl backend net
  | cons item items ih => exact (write_kept _ _ _).trans ih

theorem flushCorked_kept : EntryKept backend net (flushCorked backend net) := by
  have hcleared : EntryKept backend net { net with flushList := 0 } := .of_eq rfl
  unfold flushCorked
  induction net.flushList with
  | zero => exact hcleared
  | succ n ih => exact ih.trans flushPending_kept

theorem sendCorked_kept : EntryKept backend net (sendCorked backend net) := by
  unfold sendCorked
  split
  · exact .refl backend net
  split
  · exact .refl backend net
  · exact flushPending_kept

/-- The native engine's operations do nothing to a transport of a Python protocol. -/
theorem on_http_kept {f : NetState → NetState}
    (h : ∀ entry, net.entry = some entry → entry.http = false) :
    EntryKept backend net (net.on true f) := by
  unfold NetState.on
  split
  · rename_i hkind
    cases he : net.entry with
    | none =>
      rw [he] at hkind
      exact absurd hkind (by simp)
    | some entry =>
      rw [he] at hkind
      exact absurd hkind (by simp [h entry he])
  · exact .refl backend net

theorem on_kept {kind : Bool} {f : NetState → NetState} (h : EntryKept backend net (f net)) :
    EntryKept backend net (net.on kind f) := by
  unfold NetState.on
  split
  · exact h
  · exact .refl backend net

/-- What only writes keeps the entry, and keeps it open. -/
theorem netStep_kept (backend : Backend)
    (hpy : ∀ entry, net.entry = some entry → entry.http = false) (op : NetOp)
    (hop : op.releases = false) : EntryKept backend net (netStep backend net op) := by
  cases op with
  | write exact' data staged => exact on_kept (write_kept _ _ _)
  | writelines items => exact on_kept (writelines_kept items)
  | setWriteBufferLimits high low staged =>
    refine on_kept ?_
    unfold setWriteBufferLimits
    split
    · exact .refl backend net
    · rename_i entry he
      exact (maybePause_kept staged).of_entry he rfl rfl
  | writeEof =>
    refine on_kept ?_
    unfold writeEof
    split
    · exact .refl backend net
    rename_i entry he
    split
    · exact .refl backend net
    · exact maybeFinishShutdown_kept.of_entry he rfl rfl
  | close staged => exact absurd hop (by simp [NetOp.releases])
  | abort => exact absurd hop (by simp [NetOp.releases])
  | setProtocol =>
    refine on_kept ?_
    unfold setProtocol
    split
    · exact .refl backend net
    · rename_i entry he
      exact .kept he rfl rfl
  | finishAfterResume =>
    refine on_kept ?_
    have hdispatched : EntryKept backend net { net with resumeWriting := net.resumeWriting - 1 } :=
      .of_eq rfl
    unfold finishAfterResume
    dsimp only
    split
    · exact hdispatched
    split
    · exact hdispatched.trans maybeFinishShutdown_kept
    · exact hdispatched
  | sendfile running =>
    exact on_kept (f := fun net => { net with sendfile := running }) (.of_eq rfl)
  | httpEnqueueRaw data => exact on_http_kept hpy
  | closeAfterWrite linger => exact on_http_kept hpy
  | lingerDone => exact on_http_kept hpy
  | lingerExpired => exact on_http_kept hpy
  | flushCorked => exact flushCorked_kept
  | onSendDone => exact onSendDone_kept
  | settleInline staged => exact settleInline_kept staged
  | teardown => exact absurd hop (by simp [NetOp.releases])
  | tick nowNs flushImmediately => exact .of_eq rfl

theorem EntryKept.live_before {net' : NetState} (h : EntryKept backend net net')
    (hlive : net'.live) : net.live := by
  unfold NetState.live at *
  cases h with
  | gone was is => exact absurd hlive (by simp [is])
  | kept was is closing =>
    rw [is] at hlive
    rw [was]
    simpa [closing] using hlive
  | ended was is why => exact absurd hlive (by simp [is])

theorem not_live_of_gone (h : net.entry = none) : ¬ net.live := by
  unfold NetState.live
  simp [h]

theorem releases_ends (hpy : ∀ entry, net.entry = some entry → entry.http = false) {op : NetOp}
    (hop : op.releases) : ¬ (netStep backend net op).live := by
  have hon : ∀ {f : NetState → NetState}, (net.entry = none ∨ ¬ (f net).live) →
      ¬ (net.on false f).live := by
    intro f hf
    unfold NetState.on
    cases he : net.entry with
    | none => simpa using not_live_of_gone he
    | some entry =>
      rw [if_pos (by simp [hpy entry he])]
      exact hf.resolve_left (by simp [he])
  cases op with
  | close staged =>
    refine hon ?_
    cases he : net.entry with
    | none => exact .inl rfl
    | some entry =>
      refine .inr fun hlive => ?_
      unfold close at hlive
      rw [he] at hlive
      dsimp only at hlive
      split at hlive
      · rename_i hclosing
        simp [NetState.live, he, hclosing] at hlive
      · have hbefore := (@maybeFinishShutdown_kept backend _).live_before hlive
        split at hbefore
        · simp [NetState.live] at hbefore
        · have hcorked := (sendCorked_kept.trans (settleInline_kept _)).live_before hbefore
          simp [NetState.live] at hcorked
  | abort => exact hon (.inr (not_live_of_gone (teardown_gone _ _)))
  | teardown => exact not_live_of_gone (teardown_gone net .failed)
  | _ => exact absurd hop (by simp [NetOp.releases])

theorem live_before_netStep (hpy : ∀ entry, net.entry = some entry → entry.http = false) {op : NetOp}
    (hlive : (netStep backend net op).live) : net.live := by
  cases hop : op.releases with
  | false => exact (netStep_kept backend hpy op hop).live_before hlive
  | true => exact absurd hlive (releases_ends hpy hop)

/-! ## 2. No byte is lost while the transport lives -/

/-- What the kernel delivered is with the protocol, with the transport or in the queue. -/
structure Conserved (s : Stream) : Prop where
  core : Core false s.net
  numbered : s.received.map Piece.seq = List.range s.received.length
  kept : s.net.live → (s.delivered ++ s.held ++ s.waiting).Perm s.received
  unpaused : s.net.live → s.readingPaused = false → s.pausedRecv = none ∧ s.pausedEof = false

theorem Conserved.py {s : Stream} (h : Conserved s) :
    ∀ entry, s.net.entry = some entry → entry.http = false :=
  fun entry he => (h.core.alive entry he).kind

theorem Stream.held_none {s : Stream} (h : s.pausedRecv = none) : s.held = [] := by
  unfold Stream.held
  rw [h]
  rfl

/-- A step that leaves the entry alone moves bytes, and brings some. -/
theorem Conserved.next {s s' : Stream} (brought : List Piece) (h : Conserved s)
    (hnet : s'.net = s.net) (hreceived : s'.received = s.received ++ brought)
    (hnumbered : brought.map Piece.seq = List.range' s.received.length brought.length)
    (hmoved : s.net.live → (s'.delivered ++ s'.held ++ s'.waiting).Perm
      (s.delivered ++ s.held ++ s.waiting ++ brought))
    (hunpaused : s.net.live → s'.readingPaused = false →
      s'.pausedRecv = none ∧ s'.pausedEof = false) : Conserved s' where
  core := hnet ▸ h.core
  numbered := by
    rw [hreceived, List.map_append, h.numbered, hnumbered, List.length_append,
      List.range_eq_range', List.range_eq_range', ← List.range'_append_1, Nat.zero_add]
  kept := by
    intro hlive
    rw [hnet] at hlive
    rw [hreceived]
    exact (hmoved hlive).trans ((h.kept hlive).append_right brought)
  unpaused := by
    rw [hnet]
    exact hunpaused

/-- A step after which the transport does not live owes no bytes. -/
theorem Conserved.of_dead {s : Stream} (hcore : Core false s.net)
    (hnumbered : s.received.map Piece.seq = List.range s.received.length) (hdead : ¬ s.net.live) :
    Conserved s where
  core := hcore
  numbered := hnumbered
  kept := fun hlive => absurd hlive hdead
  unpaused := fun hlive => absurd hlive hdead

theorem failed_conserved {s : Stream} (h : Conserved s) (recvOp : Bool) (events : List NetEvent) :
    Conserved { s with net := teardown s.net .failed, recvOp := recvOp, events := events } :=
  .of_dead (teardown_core h.core fun hclosed => absurd hclosed (by simp)) h.numbered
    (not_live_of_gone (teardown_gone _ _))

theorem postRecv_conserved {s : Stream} (ok : Bool) (h : Conserved s) :
    Conserved (postRecv ok s) := by
  unfold postRecv
  split
  · exact h
  split
  · exact { h with }
  · refine h.next [] rfl (List.append_nil _).symm rfl (fun _ => ?_) h.unpaused
    simp [Stream.held, Stream.waiting, NetEvent.pieces]

theorem onRecvDone_conserved {s : Stream} (result : Option (List UInt8)) (postOk : Bool)
    (h : Conserved s) : Conserved (onRecvDone result postOk s) := by
  unfold onRecvDone
  dsimp only
  split
  · exact { h with }
  split
  · exact failed_conserved h false s.events
  · split
    · rename_i hpaused
      refine h.next [] rfl (List.append_nil _).symm rfl (fun _ => ?_)
        (fun _ hunpaused => absurd (hpaused.symm.trans hunpaused) (by simp))
      simp [Stream.held, Stream.waiting]
    · refine h.next [] rfl (List.append_nil _).symm rfl (fun _ => ?_) h.unpaused
      simp [Stream.held, Stream.waiting, NetEvent.pieces]
  · rename_i data _
    split
    · rename_i hpaused
      refine h.next [⟨s.received.length, data⟩] rfl rfl rfl (fun _ => ?_)
        (fun _ hunpaused => absurd (hpaused.symm.trans hunpaused) (by simp))
      refine List.perm_iff_count.mpr fun piece => ?_
      simp only [Stream.held, Stream.waiting, Option.getD_some, List.count_append]
      omega
    · refine postRecv_conserved postOk
        (h.next [⟨s.received.length, data⟩] rfl rfl rfl (fun _ => ?_) h.unpaused)
      split <;> simp [Stream.held, Stream.waiting, NetEvent.pieces]

theorem pauseReading_conserved {s : Stream} (h : Conserved s) : Conserved (pauseReading s) := by
  unfold pauseReading
  split
  · exact { h with unpaused := fun _ hunpaused => absurd hunpaused (by simp) }
  · exact h

theorem flushPausedRecv_waiting (s : Stream) :
    (flushPausedRecv s).waiting = s.waiting ++ s.held := by
  have hheld : ((s.pausedRecv.map NetEvent.heldData).toList).flatMap NetEvent.pieces = s.held := by
    unfold Stream.held
    cases s.pausedRecv with
    | none => rfl
    | some pieces => simp [NetEvent.pieces]
  have heof : (if s.pausedEof then [NetEvent.eof] else []).flatMap NetEvent.pieces = [] := by
    split <;> rfl
  show (s.events ++ _ ++ _).flatMap NetEvent.pieces = _
  rw [List.flatMap_append, List.flatMap_append, hheld, heof, List.append_nil]
  rfl

theorem resumeReading_conserved {s : Stream} (postOk : Bool) (h : Conserved s) :
    Conserved (resumeReading postOk s) := by
  have hflushed : Conserved (flushPausedRecv { s with readingPaused := false }) := by
    refine h.next [] rfl (List.append_nil _).symm rfl (fun _ => ?_)
      (fun _ _ => ⟨rfl, rfl⟩)
    rw [flushPausedRecv_waiting]
    refine List.perm_iff_count.mpr fun piece => ?_
    simp only [flushPausedRecv, Stream.held, Stream.waiting, Option.getD_none, List.count_append,
      List.count_nil]
    omega
  unfold resumeReading
  dsimp only
  split
  · split
    · exact postRecv_conserved postOk hflushed
    · exact hflushed
  · exact h

theorem waiting_cons {s : Stream} {event : NetEvent} {rest : List NetEvent}
    (he : s.events = event :: rest) : s.waiting = event.pieces ++ rest.flatMap NetEvent.pieces := by
  rw [Stream.waiting, he, List.flatMap_cons]

theorem routeInbound_conserved {s : Stream} {event : NetEvent} {rest : List NetEvent}
    (h : Conserved s) (he : s.events = event :: rest) :
    Conserved (routeInbound event.pieces { s with events := rest }) := by
  have hwaiting := waiting_cons he
  unfold routeInbound
  split
  · rename_i hdead
    exact .of_dead h.core h.numbered hdead
  split
  · rename_i hpaused
    refine h.next [] rfl (List.append_nil _).symm rfl (fun _ => ?_)
      (fun _ hunpaused => absurd (hpaused.symm.trans hunpaused) (by simp))
    rw [hwaiting]
    simp [Stream.held, Stream.waiting]
  · rename_i hunpaused
    refine h.next [] rfl (List.append_nil _).symm rfl (fun hlive => ?_) h.unpaused
    have hheld := Stream.held_none (h.unpaused hlive (by simpa using hunpaused)).1
    rw [hwaiting, hheld]
    have hheld' : ({ s with
        events := rest, delivered := s.delivered ++ event.pieces } : Stream).held = [] := hheld
    rw [hheld']
    simp [Stream.waiting]

theorem routeEof_conserved {s : Stream} {rest : List NetEvent} (h : Conserved s)
    (he : s.events = .eof :: rest) : Conserved (routeEof { s with events := rest }) := by
  have hwaiting : s.waiting = rest.flatMap NetEvent.pieces := waiting_cons he
  unfold routeEof
  split
  · rename_i hdead
    exact .of_dead h.core h.numbered hdead
  split
  · rename_i hpaused
    refine h.next [] rfl (List.append_nil _).symm rfl (fun _ => ?_)
      (fun _ hunpaused => absurd (hpaused.symm.trans hunpaused) (by simp))
    rw [hwaiting]
    simp [Stream.held, Stream.waiting]
  · refine h.next [] rfl (List.append_nil _).symm rfl (fun _ => ?_) h.unpaused
    rw [hwaiting]
    simp [Stream.held, Stream.waiting]

theorem dispatchNext_conserved {s : Stream} (h : Conserved s) : Conserved (dispatchNext s) := by
  unfold dispatchNext
  split
  · exact h
  rename_i event rest he
  cases event with
  | data piece => exact routeInbound_conserved h he
  | bufData piece => exact routeInbound_conserved h he
  | heldData pieces => exact routeInbound_conserved h he
  | eof => exact routeEof_conserved h he
  | recvFailed => exact failed_conserved h s.recvOp rest

theorem streamStep_conserved {s : Stream} (event : StreamEvent) (h : Conserved s) :
    Conserved (streamStep s event) := by
  cases event with
  | writing backend op =>
    have hcore : Core false (netStep backend s.net op) := netStep_core op h.core
    by_cases hlive : (netStep backend s.net op).live
    · have hbefore := live_before_netStep h.py hlive
      exact ⟨hcore, h.numbered, fun _ => h.kept hbefore, fun _ => h.unpaused hbefore⟩
    · exact .of_dead hcore h.numbered hlive
  | recvDone result postOk =>
    unfold streamStep
    dsimp only
    split
    · exact onRecvDone_conserved result postOk h
    · exact h
  | pauseReading => exact pauseReading_conserved h
  | resumeReading postOk => exact resumeReading_conserved postOk h
  | setProtocol buffered =>
    have hcore : Core false (s.net.on false setProtocol) :=
      on_elim h.core h.core fun _ => setProtocol_core h.core
    have hkept := netStep_kept .failing h.py .setProtocol rfl
    by_cases hlive : (s.net.on false setProtocol).live
    · have hbefore := hkept.live_before hlive
      exact ⟨hcore, h.numbered, fun _ => h.kept hbefore, fun _ => h.unpaused hbefore⟩
    · exact .of_dead hcore h.numbered hlive
  | dispatch => exact dispatchNext_conserved h
  | connectionLost =>
    unfold streamStep
    dsimp only
    split
    · exact { h with }
    · exact h

/-! ## 3. In order, while nothing is overtaken -/

def InSeq (pieces : List Piece) : Prop := pieces.Pairwise fun p q => p.seq < q.seq

/-- The queue and what the transport holds are each in the order of arrival, and the EOF is behind
the bytes. -/
structure InLine (s : Stream) : Prop where
  queued : InSeq s.waiting
  heldBack : InSeq s.held
  eofSeen : s.pausedEof ∨ .eof ∈ s.events → s.peerEof
  eofLast : s.events.Pairwise fun a b => a = .eof → b.pieces = []

theorem InLine.push {s s' : Stream} {event : NetEvent} (h : InLine s)
    (hevents : s'.events = s.events ++ [event]) (hheld : s'.held = s.held)
    (hseq : InSeq (s.waiting ++ event.pieces)) (hlast : .eof ∈ s.events → event.pieces = [])
    (heof : s'.pausedEof ∨ .eof ∈ s'.events → s'.peerEof) : InLine s' where
  queued := by
    rw [Stream.waiting, hevents, List.flatMap_append, List.flatMap_singleton]
    exact hseq
  heldBack := hheld ▸ h.heldBack
  eofSeen := heof
  eofLast := by
    rw [hevents]
    refine List.pairwise_append.mpr ⟨h.eofLast, List.pairwise_singleton _ _, ?_⟩
    intro a ha b hb haeof
    rw [List.mem_singleton.mp hb]
    exact hlast (haeof ▸ ha)

structure Ordered (s : Stream) : Prop where
  inOrder : s.delivered <+: s.received
  eof : s.eofReceived → s.delivered = s.received ∧ s.peerEof
  inLine : s.net.live → InLine s

/-- Nothing waits that a pause or a resume would let newer bytes overtake: an event is dispatched to
a paused transport when all that is held is older, and reading resumes when all that is held is newer
than what the queue still has. -/
def Undisturbed (s : Stream) : StreamEvent → Prop
  | .dispatch => s.net.live → s.readingPaused →
    ∀ event rest, s.events = event :: rest → ∀ p ∈ event.pieces, ∀ q ∈ s.held, q.seq < p.seq
  | .resumeReading _ => s.net.live → s.readingPaused →
    (∀ q ∈ s.held, ∀ p ∈ s.waiting, p.seq < q.seq) ∧ (.eof ∈ s.events → s.held = [])
  | _ => True

theorem Conserved.seq_lt {s : Stream} (h : Conserved s) (hlive : s.net.live) {piece : Piece}
    (hmem : piece ∈ s.held ∨ piece ∈ s.waiting) : piece.seq < s.received.length := by
  have hreceived : piece ∈ s.received := by
    refine (h.kept hlive).subset ?_
    rw [List.append_assoc]
    exact List.mem_append_right _ (List.mem_append.mpr hmem)
  have hseq : piece.seq ∈ s.received.map Piece.seq := List.mem_map_of_mem hreceived
  rw [h.numbered] at hseq
  exact List.mem_range.mp hseq

theorem Conserved.sorted {s : Stream} (h : Conserved s) :
    InSeq s.received := by
  have hrange : (s.received.map Piece.seq).Pairwise (· < ·) := by
    rw [h.numbered]
    exact List.pairwise_lt_range
  exact List.pairwise_map.mp hrange

/-- Bytes that are all there is and are in order are the next ones the protocol should get. -/
theorem Ordered.next_delivered {s : Stream} (h : Ordered s) (hc : Conserved s) (hlive : s.net.live)
    (hheld : s.held = []) : s.delivered ++ s.waiting = s.received := by
  obtain ⟨later, hlater⟩ := h.inOrder
  have hkept := hc.kept hlive
  rw [hheld, List.append_nil, ← hlater, List.perm_append_left_iff] at hkept
  have hsorted := hc.sorted
  rw [← hlater] at hsorted
  have hsame : s.waiting = later :=
    hkept.eq_of_pairwise (fun p q _ _ hlt hlt' => absurd (Nat.lt_trans hlt hlt') (Nat.lt_irrefl _))
      (h.inLine hlive).queued (List.pairwise_append.mp hsorted).2.1
  rw [hsame, hlater]

/-- Once the transport does not live only the record counts. -/
theorem Ordered.of_dead {s : Stream} (horder : s.delivered <+: s.received)
    (heof : s.eofReceived → s.delivered = s.received ∧ s.peerEof) (hdead : ¬ s.net.live) :
    Ordered s := ⟨horder, heof, fun hlive => absurd hlive hdead⟩

theorem postRecv_ordered {s : Stream} (ok : Bool) (h : Ordered s) : Ordered (postRecv ok s) := by
  unfold postRecv
  split
  · exact h
  split
  · exact ⟨h.inOrder, h.eof, fun hlive => { h.inLine hlive with }⟩
  · refine ⟨h.inOrder, h.eof, fun hlive => ?_⟩
    have hline := h.inLine hlive
    refine hline.push rfl rfl ?_ (fun _ => rfl) fun heof => hline.eofSeen (heof.imp_right ?_)
    · rw [show NetEvent.recvFailed.pieces = [] from rfl, List.append_nil]
      exact hline.queued
    · intro hmem
      simpa using hmem

/-- What arrives is newer than all that waits. -/
theorem InSeq.arrived {pieces : List Piece} {n : Nat} {data : List UInt8} (h : InSeq pieces)
    (hlt : ∀ p ∈ pieces, p.seq < n) : InSeq (pieces ++ [{ seq := n, data := data }]) := by
  refine List.pairwise_append.mpr ⟨h, List.pairwise_singleton _ _, fun p hp q hq => ?_⟩
  rw [List.mem_singleton.mp hq]
  exact hlt p hp

theorem onRecvDone_ordered {s : Stream} {result : Option (List UInt8)} (postOk : Bool)
    (hc : Conserved s) (h : Ordered s) (hkernel : s.peerEof → result.all (·.isEmpty)) :
    Ordered (onRecvDone result postOk s) := by
  unfold onRecvDone
  dsimp only
  split
  · rename_i hdead
    exact .of_dead h.inOrder h.eof hdead
  rename_i hnot
  have hlive : s.net.live := of_not_not hnot
  have hline := h.inLine hlive
  split
  · exact .of_dead h.inOrder h.eof (not_live_of_gone (teardown_gone _ _))
  · have heof : s.eofReceived → s.delivered = s.received ∧ (true : Bool) :=
      fun hgot => ⟨(h.eof hgot).1, rfl⟩
    split
    · exact ⟨h.inOrder, heof, fun _ => { hline with eofSeen := fun _ => rfl }⟩
    · refine ⟨h.inOrder, heof, fun _ => hline.push rfl rfl ?_ (fun _ => rfl) fun _ => rfl⟩
      rw [show NetEvent.eof.pieces = [] from rfl, List.append_nil]
      exact hline.queued
  · rename_i data hempty
    -- bytes come before the EOF only
    have hopen : s.peerEof ≠ true := by
      intro hpeer
      have hnil := hkernel hpeer
      simp only [Option.all_some, List.isEmpty_iff] at hnil
      exact hempty (by rw [hnil])
    have horder : s.delivered <+: s.received ++ [{ seq := s.received.length, data := data }] :=
      h.inOrder.trans (List.prefix_append _ _)
    have heof : s.eofReceived → s.delivered = s.received ++
        [{ seq := s.received.length, data := data }] ∧ s.peerEof :=
      fun hgot => absurd (h.eof hgot).2 hopen
    split
    · refine ⟨horder, heof, fun _ => ⟨hline.queued, ?_, hline.eofSeen, hline.eofLast⟩⟩
      exact hline.heldBack.arrived fun p hp => hc.seq_lt hlive (.inl hp)
    · refine postRecv_ordered postOk ⟨horder, heof, fun _ => ?_⟩
      have hpieces : (if s.buffered then NetEvent.bufData { seq := s.received.length, data := data }
          else NetEvent.data { seq := s.received.length, data := data }).pieces =
          [{ seq := s.received.length, data := data }] := by split <;> rfl
      refine hline.push rfl rfl ?_ (fun hmem => absurd (hline.eofSeen (.inr hmem)) hopen) ?_
      · rw [hpieces]
        exact hline.queued.arrived fun p hp => hc.seq_lt hlive (.inr hp)
      · intro heof
        refine hline.eofSeen (heof.imp_right fun hmem => ?_)
        rcases List.mem_append.mp hmem with hmem | hmem
        · exact hmem
        · rw [← List.mem_singleton.mp hmem] at hpieces
          exact absurd hpieces (by simp [NetEvent.pieces])

theorem resumeReading_ordered {s : Stream} (postOk : Bool) (h : Ordered s)
    (hundisturbed : Undisturbed s (.resumeReading postOk)) :
    Ordered (resumeReading postOk s) := by
  unfold resumeReading
  dsimp only
  split
  · rename_i hpaused
    obtain ⟨hlive, hpaused⟩ := hpaused
    have hline := h.inLine hlive
    obtain ⟨hnewer, heofheld⟩ := hundisturbed hlive hpaused
    have hflushed : Ordered (flushPausedRecv { s with readingPaused := false }) := by
      refine ⟨h.inOrder, h.eof, fun _ => ⟨?_, List.Pairwise.nil, ?_, ?_⟩⟩
      · rw [flushPausedRecv_waiting]
        exact List.pairwise_append.mpr ⟨hline.queued, hline.heldBack,
          fun p hp q hq => hnewer q hq p hp⟩
      · rintro (heof | hmem)
        · exact absurd heof (by simp [flushPausedRecv])
        rcases List.mem_append.mp hmem with hmem | hmem
        · rcases List.mem_append.mp hmem with hmem | hmem
          · exact hline.eofSeen (.inr hmem)
          · exact absurd hmem (by simp)
        · refine hline.eofSeen (.inl ?_)
          by_contra hnone
          rw [if_neg hnone] at hmem
          exact absurd hmem List.not_mem_nil
      · refine List.pairwise_append.mpr ⟨List.pairwise_append.mpr ⟨hline.eofLast, ?_, ?_⟩, ?_, ?_⟩
        · cases s.pausedRecv with
          | none => exact List.Pairwise.nil
          | some pieces => exact List.pairwise_singleton _ _
        · intro a ha b hb haeof
          have hnone := heofheld (haeof ▸ ha)
          unfold Stream.held at hnone
          simp only [Option.mem_toList, Option.map_eq_some_iff] at hb
          obtain ⟨pieces, hpieces, rfl⟩ := hb
          rw [hpieces] at hnone
          exact hnone
        · split
          · exact List.pairwise_singleton _ _
          · exact List.Pairwise.nil
        · intro a _ b hb _
          split at hb
          · rw [List.mem_singleton.mp hb]
            rfl
          · exact absurd hb List.not_mem_nil
    split
    · exact postRecv_ordered postOk hflushed
    · exact hflushed
  · exact h

theorem routeInbound_ordered {s : Stream} {event : NetEvent} {rest : List NetEvent}
    (hc : Conserved s) (h : Ordered s) (he : s.events = event :: rest)
    (hundisturbed : Undisturbed s .dispatch) :
    Ordered (routeInbound event.pieces { s with events := rest }) := by
  have hwaiting := waiting_cons he
  unfold routeInbound
  split
  · rename_i hdead
    exact .of_dead h.inOrder h.eof hdead
  rename_i hnot
  have hlive : s.net.live := of_not_not hnot
  have hline := h.inLine hlive
  have hqueued := hline.queued
  have hlast := hline.eofLast
  rw [hwaiting] at hqueued
  rw [he] at hlast
  obtain ⟨hpieces, hrest, hbetween⟩ := List.pairwise_append.mp hqueued
  have hseen : s.pausedEof ∨ .eof ∈ rest → s.peerEof := fun heof =>
    hline.eofSeen (heof.imp_right fun hmem => he ▸ List.mem_cons_of_mem _ hmem)
  split
  · rename_i hpaused
    refine ⟨h.inOrder, h.eof, fun _ => ⟨hrest, ?_, hseen, (List.pairwise_cons.mp hlast).2⟩⟩
    exact List.pairwise_append.mpr ⟨hline.heldBack, hpieces,
      fun q hq p hp => hundisturbed hlive hpaused event rest he p hp q hq⟩
  · rename_i hunpaused
    have hheld := Stream.held_none (hc.unpaused hlive (by simpa using hunpaused)).1
    have hnext := h.next_delivered hc hlive hheld
    rw [hwaiting, ← List.append_assoc] at hnext
    refine ⟨⟨_, hnext⟩, fun hgot => ?_, fun _ =>
      ⟨hrest, hline.heldBack, hseen, (List.pairwise_cons.mp hlast).2⟩⟩
    obtain ⟨hall, hpeer⟩ := h.eof hgot
    have hnone : event.pieces = [] := by
      have hlen := congrArg List.length hnext
      rw [hall, List.length_append, List.length_append] at hlen
      exact List.eq_nil_of_length_eq_zero (by omega)
    exact ⟨by rw [hnone, List.append_nil]; exact hall, hpeer⟩

theorem routeEof_ordered {s : Stream} {rest : List NetEvent} (hc : Conserved s) (h : Ordered s)
    (he : s.events = .eof :: rest) : Ordered (routeEof { s with events := rest }) := by
  have hwaiting : s.waiting = rest.flatMap NetEvent.pieces := waiting_cons he
  unfold routeEof
  split
  · rename_i hdead
    exact .of_dead h.inOrder h.eof hdead
  rename_i hnot
  have hlive : s.net.live := of_not_not hnot
  have hline := h.inLine hlive
  have hpeer := hline.eofSeen (.inr (he ▸ List.mem_cons_self))
  have hlast := hline.eofLast
  rw [he] at hlast
  obtain ⟨hbehind, hlast'⟩ := List.pairwise_cons.mp hlast
  have hqueued : InSeq (rest.flatMap NetEvent.pieces) := hwaiting ▸ hline.queued
  split
  · exact ⟨h.inOrder, h.eof, fun _ => ⟨hqueued, hline.heldBack, fun _ => hpeer, hlast'⟩⟩
  · rename_i hunpaused
    -- no bytes wait behind the EOF, and none are held
    have hnone : s.waiting = [] := by
      rw [hwaiting]
      exact List.flatMap_eq_nil_iff.mpr fun event hmem => hbehind event hmem rfl
    have hheld := Stream.held_none (hc.unpaused hlive (by simpa using hunpaused)).1
    have hall := h.next_delivered hc hlive hheld
    rw [hnone, List.append_nil] at hall
    exact ⟨h.inOrder, fun _ => ⟨hall, hpeer⟩, fun _ =>
      ⟨hqueued, hline.heldBack, fun _ => hpeer, hlast'⟩⟩

theorem streamStep_ordered {s : Stream} (event : StreamEvent) (hc : Conserved s) (h : Ordered s)
    (hundisturbed : Undisturbed s event) : Ordered (streamStep s event) := by
  cases event with
  | writing backend op =>
    refine ⟨h.inOrder, h.eof, fun hlive => ?_⟩
    exact { h.inLine (live_before_netStep hc.py hlive) with }
  | recvDone result postOk =>
    unfold streamStep
    dsimp only
    split
    · rename_i hkernel
      exact onRecvDone_ordered postOk hc h hkernel.2
    · exact h
  | pauseReading =>
    show Ordered (pauseReading s)
    unfold pauseReading
    split
    · exact ⟨h.inOrder, h.eof, fun hlive => { h.inLine hlive with }⟩
    · exact h
  | resumeReading postOk => exact resumeReading_ordered postOk h hundisturbed
  | setProtocol buffered =>
    refine ⟨h.inOrder, h.eof, fun hlive => ?_⟩
    have hkept := netStep_kept .failing hc.py .setProtocol rfl
    exact { h.inLine (hkept.live_before hlive) with }
  | dispatch =>
    show Ordered (dispatchNext s)
    unfold dispatchNext
    split
    · exact h
    rename_i event rest he
    cases event with
    | data piece => exact routeInbound_ordered hc h he hundisturbed
    | bufData piece => exact routeInbound_ordered hc h he hundisturbed
    | heldData pieces => exact routeInbound_ordered hc h he hundisturbed
    | eof => exact routeEof_ordered hc h he
    | recvFailed => exact .of_dead h.inOrder h.eof (not_live_of_gone (teardown_gone _ _))
  | connectionLost =>
    unfold streamStep
    dsimp only
    split
    · exact ⟨h.inOrder, h.eof, fun hlive => { h.inLine hlive with }⟩
    · exact h

theorem newStream_kept (buffered : Bool) (highWater lowWater : Nat) :
    Conserved (newStream buffered highWater lowWater) ∧
      Ordered (newStream buffered highWater lowWater) := by
  have hcore : Core false (initNet false highWater lowWater) :=
    (stream_sound .failing false highWater lowWater []).1
  refine ⟨⟨hcore, rfl, fun _ => List.Perm.refl _, fun _ _ => ⟨rfl, rfl⟩⟩, ?_⟩
  refine ⟨List.prefix_refl _, fun hgot => absurd hgot (by simp [newStream]), fun _ => ?_⟩
  exact ⟨List.Pairwise.nil, List.Pairwise.nil, fun heof => absurd heof (by simp [newStream]),
    List.Pairwise.nil⟩

theorem inbound_init (buffered postOk : Bool) (highWater lowWater : Nat) :
    Conserved (inbound buffered postOk highWater lowWater).init ∧
      Ordered (inbound buffered postOk highWater lowWater).init := by
  obtain ⟨hconserved, hordered⟩ := newStream_kept buffered highWater lowWater
  exact ⟨postRecv_conserved postOk hconserved, postRecv_ordered postOk hordered⟩

def bytes (pieces : List Piece) : List UInt8 := pieces.flatMap Piece.data

/-- While nothing is overtaken, what the protocols got is a prefix of what the kernel delivered, and
the EOF comes behind all of it. -/
theorem inbound_in_order (buffered postOk : Bool) (highWater lowWater : Nat)
    (events : List StreamEvent)
    (h : (inbound buffered postOk highWater lowWater).Along Undisturbed events) :
    let s := (inbound buffered postOk highWater lowWater).run events
    bytes s.delivered <+: bytes s.received ∧
      (s.eofReceived → bytes s.delivered = bytes s.received) ∧
      (s.net.live → (s.delivered ++ s.held ++ s.waiting).Perm s.received) := by
  intro s
  have hrun : Conserved s ∧ Ordered s :=
    (inbound buffered postOk highWater lowWater).run_invariant_along
      (I := fun s => Conserved s ∧ Ordered s) (inbound_init buffered postOk highWater lowWater)
      (fun s event hs hevent =>
        ⟨streamStep_conserved event hs.1, streamStep_ordered event hs.1 hs.2 hevent⟩) events h
  obtain ⟨later, hlater⟩ := hrun.2.inOrder
  refine ⟨⟨bytes later, ?_⟩, fun hgot => by rw [(hrun.2.eof hgot).1], hrun.1.kept⟩
  rw [← hlater, bytes, bytes, bytes, List.flatMap_append]

theorem inbound_in_order_resumed :
    bytes ((inbound false true 65536 16384).run
      [.pauseReading, .recvDone (some [65]) true, .resumeReading true, .dispatch]).delivered <+:
    bytes ((inbound false true 65536 16384).run
      [.pauseReading, .recvDone (some [65]) true, .resumeReading true, .dispatch]).received := by
  refine (inbound_in_order false true 65536 16384 _ ?_).1
  rw [show [StreamEvent.pauseReading, .recvDone (some [65]) true, .resumeReading true, .dispatch] =
    [] ++ [.pauseReading] ++ [.recvDone (some [65]) true] ++ [.resumeReading true] ++ [.dispatch]
    from rfl]
  simp only [Machine.along_concat]
  refine ⟨⟨⟨⟨Machine.along_nil _ _, trivial⟩, trivial⟩, ?_⟩, ?_⟩
  · exact fun _ _ => ⟨fun _ _ p hp => absurd (show p ∈ [] from hp) List.not_mem_nil,
      fun hmem => absurd hmem (by decide)⟩
  · exact fun _ hpaused => absurd hpaused (by decide)

/-- A pause behind a resume lets what is received next overtake what waits to be dispatched, and a
resume between an event's dispatch and the next lets the EOF overtake the bytes. -/
theorem inbound_overtaken :
    (let s := (inbound false true 65536 16384).run
      [.pauseReading, .recvDone (some [65]) true, .resumeReading true, .pauseReading,
        .recvDone (some [66]) true, .dispatch, .resumeReading true, .dispatch]
    s.net.live ∧ ¬ bytes s.delivered <+: bytes s.received) ∧
    (let s := (inbound false true 65536 16384).run
      [.recvDone (some [65]) true, .recvDone (some []) true, .pauseReading, .dispatch,
        .resumeReading true, .dispatch]
    s.net.live ∧ s.eofReceived ∧ bytes s.delivered ≠ bytes s.received) := by
  decide +kernel

/-! ## 4. All of it, before the connection is lost -/

/-- A failure ends the connection only with no received bytes queued for dispatch. -/
def Unhurried (s : Stream) : StreamEvent → Prop
  | .writing backend _ => s.net.live → s.waiting ≠ [] → backend.Obliging
  | .recvDone none _ => s.net.live → s.waiting = []
  | .dispatch => s.net.live → ∀ rest, s.events = .recvFailed :: rest → s.waiting = []
  | _ => True

structure HandedOver (s : Stream) : Prop where
  lost : s.connectionLost → s.net.entry = none
  stays : s.released = false → s.net.entry.isSome → s.net.live
  ended : s.released = false → s.net.entry = none → s.readingPaused = false →
    s.delivered.Perm s.received

theorem handedOver_of_live {s : Stream} (hlost : s.connectionLost → s.net.entry = none)
    (hlive : s.released = false → s.net.live) : HandedOver s where
  lost := hlost
  stays := fun hreleased _ => hlive hreleased
  ended := fun hreleased hgone => absurd (hlive hreleased) (not_live_of_gone hgone)

/-- The connection ends with nothing queued, so the protocol has it all unless it paused. -/
theorem handedOver_of_ended {s s' : Stream} (hc : Conserved s) (hlive : s.net.live)
    (hwaiting : s.waiting = []) (hgone : s'.net.entry = none)
    (hrecord : s'.delivered = s.delivered ∧ s'.received = s.received ∧
      s'.readingPaused = s.readingPaused) : HandedOver s' := by
  obtain ⟨hdelivered, hreceived, hpaused⟩ := hrecord
  refine ⟨fun _ => hgone, fun _ hsome => absurd hgone (Option.isSome_iff_ne_none.mp hsome), ?_⟩
  intro _ _ hunpaused
  have hkept := hc.kept hlive
  rw [Stream.held_none (hc.unpaused hlive (hpaused ▸ hunpaused)).1, hwaiting, List.append_nil,
    List.append_nil] at hkept
  rw [hdelivered, hreceived]
  exact hkept

/-- Whatever leaves the entry alone, and the record once there is none. -/
theorem HandedOver.same_net {s s' : Stream} (h : HandedOver s) (hnet : s'.net = s.net)
    (hlost : s'.connectionLost → s.net.entry = none) (hreleased : s'.released = s.released)
    (hrecord : ¬ s.net.live → s'.delivered = s.delivered ∧ s'.received = s.received ∧
      s'.readingPaused = s.readingPaused) : HandedOver s' := by
  refine ⟨fun hsaid => hnet ▸ hlost hsaid, ?_, fun hrel hgone hunpaused => ?_⟩
  · rw [hreleased, hnet]
    exact h.stays
  · rw [hnet] at hgone
    obtain ⟨hdelivered, hreceived, hpaused⟩ := hrecord (not_live_of_gone hgone)
    rw [hdelivered, hreceived]
    exact h.ended (hreleased ▸ hrel) hgone (hpaused ▸ hunpaused)

theorem netStep_gone (backend : Backend) {net : NetState} (op : NetOp) (h : net.entry = none) :
    (netStep backend net op).entry = none := by
  cases hop : op.releases with
  | false =>
    cases netStep_kept backend (fun entry he => absurd (h.symm.trans he) (by simp)) op hop with
    | gone _ is => exact is
    | kept was => exact absurd (h.symm.trans was) (by simp)
    | ended was => exact absurd (h.symm.trans was) (by simp)
  | true =>
    have hon : ∀ f, (net.on false f).entry = none := by
      intro f
      unfold NetState.on
      rw [if_neg (by simp [h])]
      exact h
    cases op with
    | close staged => exact hon _
    | abort => exact hon _
    | teardown => exact teardown_gone net .failed
    | _ => exact absurd hop (by simp [NetOp.releases])

theorem writing_handedOver {s : Stream} (backend : Backend) (op : NetOp) (hc : Conserved s)
    (h : HandedOver s) (hcalm : Unhurried s (.writing backend op)) :
    HandedOver (streamStep s (.writing backend op)) := by
  cases hgone : s.net.entry with
  | none =>
    have hgone' := netStep_gone backend op hgone
    refine ⟨fun _ => hgone', fun _ hsome => absurd hgone' (Option.isSome_iff_ne_none.mp hsome), ?_⟩
    exact fun hreleased _ => h.ended (Bool.or_eq_false_iff.mp hreleased).1 hgone
  | some entry =>
    have hnotlost : s.connectionLost = false := by
      by_contra hlost
      exact absurd (hgone.symm.trans (h.lost (by simpa using hlost))) (by simp)
    have hlost : s.connectionLost = true → (netStep backend s.net op).entry = none :=
      fun hlost => absurd (hnotlost.symm.trans hlost) (by simp)
    cases hreleased : s.released || op.releases with
    | true =>
      have hfreed : ¬ (s.released || op.releases) = false := by simp [hreleased]
      exact ⟨hlost, fun hrel => absurd hrel hfreed, fun hrel => absurd hrel hfreed⟩
    | false =>
      obtain ⟨hrel, hop⟩ := Bool.or_eq_false_iff.mp hreleased
      have hlive := h.stays hrel (by rw [hgone]; rfl)
      have hopen : entry.closing = false := by simpa [NetState.live, hgone] using hlive
      cases netStep_kept backend hc.py op hop with
      | gone was => exact absurd (hgone.symm.trans was) (by simp)
      | kept was is closing =>
        refine handedOver_of_live hlost fun _ => ?_
        have hsame := Option.some.inj (hgone.symm.trans was)
        show (netStep backend s.net op).live
        simp [NetState.live, is, closing, ← hsame, hopen]
      | ended was is why =>
        have hwaiting : s.waiting = [] := by
          by_contra hwaiting
          have hclosing := why (hcalm hlive hwaiting)
          rw [← Option.some.inj (hgone.symm.trans was), hopen] at hclosing
          exact absurd hclosing (by simp)
        exact handedOver_of_ended hc hlive hwaiting is ⟨rfl, rfl, rfl⟩

theorem postRecv_handedOver {s : Stream} (ok : Bool) (h : HandedOver s) :
    HandedOver (postRecv ok s) := by
  unfold postRecv
  split
  · exact h
  split <;> exact ⟨h.lost, h.stays, h.ended⟩

theorem streamStep_handedOver {s : Stream} (event : StreamEvent) (hc : Conserved s)
    (h : HandedOver s) (hcalm : Unhurried s event) : HandedOver (streamStep s event) := by
  cases event with
  | writing backend op => exact writing_handedOver backend op hc h hcalm
  | recvDone result postOk =>
    unfold streamStep
    dsimp only
    split
    swap
    · exact h
    unfold onRecvDone
    dsimp only
    split
    · exact h.same_net rfl h.lost rfl fun _ => ⟨rfl, rfl, rfl⟩
    rename_i hnot
    have hlive : s.net.live := of_not_not hnot
    split
    · exact handedOver_of_ended hc hlive (hcalm hlive) (teardown_gone _ _) ⟨rfl, rfl, rfl⟩
    · split <;> exact h.same_net rfl h.lost rfl fun _ => ⟨rfl, rfl, rfl⟩
    · split
      · exact h.same_net rfl h.lost rfl fun hdead => absurd hlive hdead
      · exact postRecv_handedOver postOk (h.same_net rfl h.lost rfl fun hdead => absurd hlive hdead)
  | pauseReading =>
    show HandedOver (pauseReading s)
    unfold pauseReading
    split
    · rename_i hlive
      exact h.same_net rfl h.lost rfl fun hdead => absurd hlive hdead
    · exact h
  | resumeReading postOk =>
    show HandedOver (resumeReading postOk s)
    unfold resumeReading
    dsimp only
    split
    · rename_i hpaused
      have hflushed : HandedOver (flushPausedRecv { s with readingPaused := false }) :=
        h.same_net rfl h.lost rfl fun hdead => absurd hpaused.1 hdead
      split
      · exact postRecv_handedOver postOk hflushed
      · exact hflushed
    · exact h
  | setProtocol buffered =>
    have hset := writing_handedOver
      ⟨fun _ => true, fun _ _ => some 1, fun _ _ _ hlen heq => by
        injection heq with heq
        omega⟩ .setProtocol hc h
      (fun _ _ => ⟨fun _ => rfl, fun _ _ => rfl⟩)
    refine ⟨hset.lost, fun hrel => hset.stays ?_, fun hrel => hset.ended ?_⟩
    · exact Bool.or_eq_false_iff.mpr ⟨hrel, rfl⟩
    · exact Bool.or_eq_false_iff.mpr ⟨hrel, rfl⟩
  | dispatch =>
    show HandedOver (dispatchNext s)
    unfold dispatchNext
    split
    · exact h
    rename_i event rest he
    have hroute : ∀ pieces, HandedOver (routeInbound pieces { s with events := rest }) := by
      intro pieces
      unfold routeInbound
      split
      · exact h.same_net rfl h.lost rfl fun _ => ⟨rfl, rfl, rfl⟩
      rename_i hnot
      have hlive : s.net.live := of_not_not hnot
      split <;> exact h.same_net rfl h.lost rfl fun hdead => absurd hlive hdead
    cases event with
    | data piece => exact hroute [piece]
    | bufData piece => exact hroute [piece]
    | heldData pieces => exact hroute pieces
    | eof =>
      show HandedOver (routeEof _)
      unfold routeEof
      split
      · exact h.same_net rfl h.lost rfl fun _ => ⟨rfl, rfl, rfl⟩
      split <;> exact h.same_net rfl h.lost rfl fun _ => ⟨rfl, rfl, rfl⟩
    | recvFailed =>
      by_cases hlive : s.net.live
      · exact handedOver_of_ended hc hlive (hcalm hlive rest he) (teardown_gone _ _) ⟨rfl, rfl, rfl⟩
      · refine ⟨fun _ => teardown_gone _ _, fun _ hsome =>
          absurd (teardown_gone _ _) (Option.isSome_iff_ne_none.mp hsome), fun hrel _ hunpaused => ?_⟩
        refine h.ended hrel ?_ hunpaused
        by_contra hentry
        exact hlive (h.stays hrel (Option.isSome_iff_ne_none.mpr hentry))
  | connectionLost =>
    unfold streamStep
    dsimp only
    split
    · rename_i hgone
      exact h.same_net rfl (fun _ => Option.isNone_iff_eq_none.mp hgone) rfl
        fun _ => ⟨rfl, rfl, rfl⟩
    · exact h

/-- While no failure ends the connection ahead of its queued data, a protocol that has not paused has
every byte the kernel delivered before its `connection_lost` is called. -/
theorem inbound_all_delivered (buffered postOk : Bool) (highWater lowWater : Nat)
    (events : List StreamEvent)
    (h : (inbound buffered postOk highWater lowWater).Along Unhurried events) :
    let s := (inbound buffered postOk highWater lowWater).run events
    s.connectionLost → s.released = false → s.readingPaused = false →
      s.delivered.Perm s.received := by
  intro s hlost hreleased hunpaused
  have hinit : Conserved (inbound buffered postOk highWater lowWater).init ∧
      HandedOver (inbound buffered postOk highWater lowWater).init := by
    have hfresh : HandedOver (newStream buffered highWater lowWater) :=
      handedOver_of_live (fun hlost => absurd hlost (by simp [newStream])) (fun _ => rfl)
    exact ⟨(inbound_init buffered postOk highWater lowWater).1, postRecv_handedOver postOk hfresh⟩
  have hrun : Conserved s ∧ HandedOver s :=
    (inbound buffered postOk highWater lowWater).run_invariant_along
      (I := fun s => Conserved s ∧ HandedOver s) hinit
      (fun s event hs hevent =>
        ⟨streamStep_conserved event hs.1, streamStep_handedOver event hs.1 hs.2 hevent⟩) events h
  exact hrun.2.ended hreleased (hrun.2.lost hlost) hunpaused

/-- A receive that fails once what came before it is dispatched. -/
theorem inbound_all_delivered_reset :
    ((inbound false true 65536 16384).run
      [.recvDone (some [65]) true, .dispatch, .recvDone none true, .connectionLost]).delivered.Perm
    ((inbound false true 65536 16384).run
      [.recvDone (some [65]) true, .dispatch, .recvDone none true, .connectionLost]).received := by
  refine inbound_all_delivered false true 65536 16384 _ ?_ (by decide) (by decide) (by decide)
  rw [show [StreamEvent.recvDone (some [65]) true, .dispatch, .recvDone none true, .connectionLost] =
    [] ++ [.recvDone (some [65]) true] ++ [.dispatch] ++ [.recvDone none true] ++ [.connectionLost]
    from rfl]
  simp only [Machine.along_concat]
  refine ⟨⟨⟨⟨Machine.along_nil _ _, trivial⟩, fun _ rest he => ?_⟩, fun _ => rfl⟩, trivial⟩
  have hdata : [NetEvent.data { seq := 0, data := [65] }] = .recvFailed :: rest := he
  exact absurd hdata (by simp)

/-- A receive error, or a failed post of a send, that is in before the bytes are dispatched. -/
theorem inbound_dropped :
    (let s := (inbound false true 65536 16384).run
      [.recvDone (some [65]) true, .recvDone none true, .dispatch, .connectionLost]
    s.connectionLost ∧ s.released = false ∧ s.readingPaused = false ∧ s.delivered = [] ∧
      bytes s.received = [65]) ∧
    (let s := (inbound false true 65536 16384).run
      [.recvDone (some [65]) true,
        .writing ⟨fun _ => false, fun _ _ => none, by simp⟩ (.write true [1] 0),
        .writing ⟨fun _ => false, fun _ _ => none, by simp⟩ .flushCorked, .dispatch, .connectionLost]
    s.connectionLost ∧ s.released = false ∧ s.readingPaused = false ∧ s.delivered = [] ∧
      bytes s.received = [65]) := by
  decide +kernel

end Cadeloop.Pyshim.Net
