import Cadeloop.Pyshim.WsConn

/-!
# What writing and closing leave of a WebSocket's connection

The engine enqueues, encrypts, flushes, shuts down and closes in many places.  None of these touches
the parser, the inbox (unless the entry goes, and the inbox with it) or the reading side, none takes
a byte back from the peer, and none opens what was closing.
-/

namespace Cadeloop.Pyshim.Net

variable {backend : Backend} {net : NetState}

/-! ## 1. The entry of a transport, later -/

structure TransportEntry.Onward (entry entry' : TransportEntry) : Prop where
  highWater : entry'.highWater = entry.highWater
  lowWater : entry'.lowWater = entry.lowWater
  closing : entry.closing = true → entry'.closing = true
  lingering : entry'.lingering = true → entry.lingering = true ∨ entry'.closing = true

theorem TransportEntry.Onward.refl (entry : TransportEntry) : entry.Onward entry :=
  ⟨rfl, rfl, id, .inl⟩

theorem TransportEntry.Onward.trans {a b c : TransportEntry} (h : a.Onward b) (h' : b.Onward c) :
    a.Onward c where
  highWater := h'.highWater.trans h.highWater
  lowWater := h'.lowWater.trans h.lowWater
  closing := fun hclosing => h'.closing (h.closing hclosing)
  lingering := by
    intro hlingering
    rcases h'.lingering hlingering with hlingering | hclosing
    · exact (h.lingering hlingering).imp_right h'.closing
    · exact .inr hclosing

/-- An entry that is there was there before. -/
def Onwards (net net' : NetState) : Prop :=
  ∀ entry', net'.entry = some entry' → ∃ entry, net.entry = some entry ∧ entry.Onward entry'

/-- And, unless it closes, holds `n` bytes more. -/
def Grows (n : Nat) (net net' : NetState) : Prop :=
  ∀ entry', net'.entry = some entry' → ∃ entry, net.entry = some entry ∧ entry.Onward entry' ∧
    (entry'.closing = false → entry.queuedBytes + n ≤ entry'.queuedBytes)

theorem Grows.onwards {n : Nat} {net' : NetState} (h : Grows n net net') : Onwards net net' := by
  intro entry' he'
  obtain ⟨entry, he, honward, -⟩ := h entry' he'
  exact ⟨entry, he, honward⟩

theorem Onwards.trans {a b c : NetState} (h : Onwards a b) (h' : Onwards b c) : Onwards a c := by
  intro entry'' he''
  obtain ⟨entry', he', honward'⟩ := h' entry'' he''
  obtain ⟨entry, he, honward⟩ := h entry' he'
  exact ⟨entry, he, honward.trans honward'⟩

theorem Grows.trans {m n : Nat} {a b c : NetState} (h : Grows m a b) (h' : Grows n b c) :
    Grows (m + n) a c := by
  intro entry'' he''
  obtain ⟨entry', he', honward', hqueue'⟩ := h' entry'' he''
  obtain ⟨entry, he, honward, hqueue⟩ := h entry' he'
  refine ⟨entry, he, honward.trans honward', fun hopen => ?_⟩
  have hopen' : entry'.closing = false := by
    by_contra hclosing
    exact absurd ((honward'.closing (by simpa using hclosing)).symm.trans hopen) (by simp)
  have h₁ := hqueue hopen'
  have h₂ := hqueue' hopen
  omega

theorem Grows.of_le {m n : Nat} {net' : NetState} (h : Grows n net net') (hle : m ≤ n) :
    Grows m net net' := by
  intro entry' he'
  obtain ⟨entry, he, honward, hqueue⟩ := h entry' he'
  exact ⟨entry, he, honward, fun hopen => by have := hqueue hopen; omega⟩

theorem Grows.of_none {n : Nat} {net' : NetState} (h : net'.entry = none) : Grows n net net' :=
  fun _ he' => absurd (h.symm.trans he') (by simp)

theorem Grows.of_entry {n : Nat} {net' : NetState} {entry entry' : TransportEntry}
    (he : net.entry = some entry) (he' : net'.entry = some entry') (honward : entry.Onward entry')
    (hqueue : entry'.closing = false → entry.queuedBytes + n ≤ entry'.queuedBytes) :
    Grows n net net' := by
  intro entry'' he''
  obtain rfl : entry' = entry'' := Option.some.inj (he'.symm.trans he'')
  exact ⟨entry, he, honward, hqueue⟩

theorem Grows.of_eq {net' : NetState} (h : net'.entry = net.entry) : Grows 0 net net' := by
  intro entry' he'
  exact ⟨entry', h ▸ he', .refl _, fun _ => Nat.le_refl _⟩

/-! ## 2. The operations -/

theorem teardown_none (net : NetState) (ending : Ending) : (teardown net ending).entry = none := by
  unfold teardown
  split
  · assumption
  · rfl

theorem teardown_grows (n : Nat) (ending : Ending) : Grows n net (teardown net ending) :=
  .of_none (teardown_none net ending)

theorem maybeFinishShutdown_grows : Grows 0 net (maybeFinishShutdown net) := by
  unfold maybeFinishShutdown
  cases he : net.entry with
  | none => exact .of_none he
  | some entry =>
    dsimp only
    split
    · exact .of_eq rfl
    have honward : entry.Onward (if entry.eofWanted then { entry with eofSent := true } else entry) := by
      split <;> exact ⟨rfl, rfl, id, .inl⟩
    have hqueue : (if entry.eofWanted then { entry with eofSent := true } else entry).queuedBytes =
        entry.queuedBytes := by split <;> rfl
    generalize (if entry.eofWanted then { entry with eofSent := true } else entry) = entry' at *
    split
    · exact .of_entry he rfl honward fun _ => by omega
    split
    · split
      · exact .of_entry he rfl ⟨honward.highWater, honward.lowWater, honward.closing,
          honward.lingering⟩ fun _ => by simp only; omega
      · exact .of_entry he rfl honward fun _ => by omega
    · exact teardown_grows 0 .closed

theorem flushPending_grows : Grows 0 net (flushPending backend net) := by
  unfold flushPending
  cases he : net.entry with
  | none => exact .of_none he
  | some entry =>
    dsimp only
    split
    · exact .of_entry he rfl ⟨rfl, rfl, id, .inl⟩ fun _ => Nat.le_refl _
    split
    · refine Grows.trans (m := 0) (.of_entry he rfl ?_ ?_) maybeFinishShutdown_grows
      · exact ⟨rfl, rfl, id, .inl⟩
      · exact fun _ => Nat.le_refl _
    split
    · exact .of_entry he rfl ⟨rfl, rfl, id, .inl⟩ fun _ => Nat.le_refl _
    · exact .of_none (teardown_none _ .failed)

theorem flushCorked_grows : Grows 0 net (flushCorked backend net) := by
  unfold flushCorked
  generalize net.flushList = n
  have hstart : Grows 0 net { net with flushList := 0 } := .of_eq rfl
  induction n with
  | zero => exact hstart
  | succ n ih => exact ih.trans flushPending_grows

theorem afterQueue_grows (early : Bool) : Grows 0 net (afterQueue backend early net) := by
  unfold afterQueue
  cases he : net.entry with
  | none => exact .of_none he
  | some entry =>
    dsimp only
    split
    · exact .of_eq rfl
    split
    · exact flushPending_grows
    split
    · exact .of_eq rfl
    · exact .of_entry he rfl ⟨rfl, rfl, id, .inl⟩ fun _ => Nat.le_refl _

theorem queueOwned_eq (entry : TransportEntry) (data : List UInt8) :
    entry.queueOwned data = { entry with wq := (entry.queueOwned data).wq } := by
  unfold TransportEntry.queueOwned coalesceTail
  split
  · rfl
  split
  · split <;> rfl
  · rfl

theorem httpEnqueueRaw_grows (data : List UInt8) :
    Grows data.length net (httpEnqueueRaw backend data net) := by
  unfold httpEnqueueRaw
  split
  · rename_i hempty
    rw [hempty]
    exact .of_eq rfl
  cases he : net.entry with
  | none => exact .of_none he
  | some entry =>
    dsimp only
    split
    · rename_i hclosing
      exact .of_entry he he (.refl _) fun hopen => absurd (hclosing.symm.trans hopen) (by simp)
    · refine Grows.trans (n := 0) (.of_entry he rfl ?_ ?_) (afterQueue_grows _)
      · rw [queueOwned_eq]
        exact ⟨rfl, rfl, id, .inl⟩
      · rw [queueOwned_eq]
        exact fun _ => Nat.le_refl _

theorem closeAfterWrite_grows (linger : Bool) : Grows 0 net (closeAfterWrite linger net) := by
  unfold closeAfterWrite
  cases he : net.entry with
  | none => exact .of_none he
  | some entry =>
    dsimp only
    split
    · exact .of_eq rfl
    · refine Grows.trans (m := 0) (.of_entry he rfl ?_ ?_) maybeFinishShutdown_grows
      · exact ⟨rfl, rfl, fun _ => rfl, fun _ => .inr rfl⟩
      · exact fun hopen => absurd hopen (by simp)

theorem closeAfterWrite_closing (linger : Bool) (entry' : TransportEntry)
    (he' : (closeAfterWrite linger net).entry = some entry') : entry'.closing = true := by
  unfold closeAfterWrite at he'
  cases he : net.entry with
  | none =>
    rw [he] at he'
    exact absurd (he.symm.trans he') (by simp)
  | some entry =>
    rw [he] at he'
    dsimp only at he'
    split at he'
    · rename_i hclosing
      obtain rfl : entry = entry' := Option.some.inj (he.symm.trans he')
      exact hclosing
    · obtain ⟨entry₁, he₁, honward, -⟩ := maybeFinishShutdown_grows entry' he'
      obtain rfl := Option.some.inj he₁
      exact honward.closing rfl

theorem lingerDone_grows : Grows 0 net (lingerDone net) := by
  unfold lingerDone
  cases he : net.entry with
  | none => exact .of_none he
  | some entry =>
    dsimp only
    split
    · refine Grows.trans (m := 0) (.of_entry he rfl ?_ ?_) maybeFinishShutdown_grows
      · exact ⟨rfl, rfl, id, fun hlingering => absurd hlingering (by simp)⟩
      · exact fun _ => Nat.le_refl _
    · exact .of_eq rfl

theorem lingerExpired_grows : Grows 0 net (lingerExpired net) := by
  unfold lingerExpired
  split
  · exact .of_eq rfl
  split
  · exact teardown_grows 0 .closed
  · exact .of_eq rfl

/-- Only a completion takes bytes off the queue. -/
theorem onSendDone_onwards : Onwards net (onSendDone backend net) := by
  unfold onSendDone
  cases he : net.entry with
  | none => exact (Grows.of_none (n := 0) he).onwards
  | some entry =>
    dsimp only
    split
    · exact (Grows.of_eq rfl).onwards
    split
    · exact (Grows.of_none (n := 0) (teardown_none _ _)).onwards
    · rename_i bytes _
      have hretired : ∀ net', net'.entry = some (entry.retire bytes) → Onwards net net' := by
        intro net' hnet' entry' he'
        obtain rfl : entry.retire bytes = entry' := Option.some.inj (hnet'.symm.trans he')
        exact ⟨entry, he, rfl, rfl, id, .inl⟩
      split
      · exact (hretired _ rfl).trans flushPending_grows.onwards
      split
      · exact hretired _ rfl
      · exact (hretired _ rfl).trans maybeFinishShutdown_grows.onwards

end Cadeloop.Pyshim.Net

namespace Cadeloop.Pyshim.Http

open Core.Ws Cadeloop.Reasoning
open Net (Backend NetState TransportEntry Grows)

variable {backend : Backend} {s : WsConn}

/-! ## 3. Steps that only write, shut down or close -/

theorem tornDown_peer (s : Receiving) : (tornDown s).peer = .gone := by
  unfold tornDown
  split
  · assumption
  · rfl

theorem tornDown_of_gone {s : Receiving} (h : s.peer = .gone) : tornDown s = s := if_pos h

structure Steady (s s' : WsConn) : Prop where
  rest : s' = { s with
    net := s'.net, recvOp := s'.recvOp, tls := s'.tls, tlsFlushes := s'.tlsFlushes, recv := s'.recv }
  entry : ∀ entry', s'.net.entry = some entry' → ∃ entry, s.net.entry = some entry ∧
    entry.Onward entry' ∧ (entry'.closing = false → s.pressure entry ≤ s'.pressure entry')
  -- the inbox goes with the entry
  recv : s'.recv = s.recv ∧ (s'.net.entry = none → s.net.entry = none) ∨
    s'.net.entry = none ∧ s'.recv = tornDown s.recv
  recvOp : ∀ entry', s'.net.entry = some entry' → entry'.closing = false → s.recvOp = true →
    s'.recvOp = true
  secure : s'.tls.isSome = s.tls.isSome

theorem Steady.refl (s : WsConn) : Steady s s where
  rest := rfl
  entry := fun entry he => ⟨entry, he, .refl _, fun _ => Nat.le_refl _⟩
  recv := .inl ⟨rfl, id⟩
  recvOp := fun _ _ _ hrecv => hrecv
  secure := rfl

theorem Steady.gone {s s' : WsConn} (h : Steady s s') (hnone : s.net.entry = none) :
    s'.net.entry = none := by
  cases he' : s'.net.entry with
  | none => rfl
  | some entry' =>
    obtain ⟨entry, he, -⟩ := h.entry entry' he'
    exact absurd (hnone.symm.trans he) (by simp)

theorem Steady.trans {a b c : WsConn} (h : Steady a b) (h' : Steady b c) : Steady a c where
  rest := by
    have hb := h.rest
    have hc := h'.rest
    generalize b.net = n, b.recvOp = r, b.tls = t, b.tlsFlushes = f, b.recv = v at hb
    subst hb
    exact hc
  entry := by
    intro entry'' he''
    obtain ⟨entry', he', honward', hpressure'⟩ := h'.entry entry'' he''
    obtain ⟨entry, he, honward, hpressure⟩ := h.entry entry' he'
    refine ⟨entry, he, honward.trans honward', fun hopen => ?_⟩
    have hopen' : entry'.closing = false := by
      by_contra hclosing
      exact absurd ((honward'.closing (by simpa using hclosing)).symm.trans hopen) (by simp)
    exact Nat.le_trans (hpressure hopen') (hpressure' hopen)
  recv := by
    rcases h'.recv with ⟨hrecv', hthere'⟩ | ⟨hnone, hrecv'⟩
    · rw [hrecv']
      exact h.recv.imp (fun hkept => ⟨hkept.1, fun hnone => hkept.2 (hthere' hnone)⟩)
        fun hgone => ⟨h'.gone hgone.1, hgone.2⟩
    · refine .inr ⟨hnone, ?_⟩
      rcases h.recv with ⟨hrecv, -⟩ | ⟨-, hrecv⟩
      · rw [hrecv', hrecv]
      · rw [hrecv', hrecv, tornDown_of_gone (tornDown_peer _)]
  recvOp := by
    intro entry'' he'' hopen hrecv
    obtain ⟨entry', he', honward', -⟩ := h'.entry entry'' he''
    have hopen' : entry'.closing = false := by
      by_contra hclosing
      exact absurd ((honward'.closing (by simpa using hclosing)).symm.trans hopen) (by simp)
    exact h'.recvOp entry'' he'' hopen (h.recvOp entry' he' hopen' hrecv)
  secure := h'.secure.trans h.secure

/-- The same without the output: what a completion, too, leaves alone. -/
structure Outward (s s' : WsConn) : Prop where
  rest : s' = { s with
    net := s'.net, recvOp := s'.recvOp, tls := s'.tls, tlsFlushes := s'.tlsFlushes, recv := s'.recv }
  gone : s.net.entry = none → s'.net.entry = none
  recv : s'.recv = s.recv ∧ (s'.net.entry = none → s.net.entry = none) ∨
    s'.net.entry = none ∧ s'.recv = tornDown s.recv

theorem Steady.outward {s s' : WsConn} (h : Steady s s') : Outward s s' := ⟨h.rest, h.gone, h.recv⟩

theorem onNet_outward {f : NetState → NetState} (h : Net.Onwards s.net (f s.net)) :
    Outward s (s.onNet f) where
  rest := rfl
  gone := by
    intro hnone
    cases he' : (s.onNet f).net.entry with
    | none => rfl
    | some entry' =>
      obtain ⟨entry, he, -⟩ := h entry' he'
      exact absurd (hnone.symm.trans he) (by simp)
  recv := by
    show (if (f s.net).entry.isNone then tornDown s.recv else s.recv) = s.recv ∧
        ((f s.net).entry = none → s.net.entry = none) ∨
      (f s.net).entry = none ∧
        (if (f s.net).entry.isNone then tornDown s.recv else s.recv) = tornDown s.recv
    cases (f s.net).entry with
    | none => exact .inr ⟨rfl, rfl⟩
    | some entry => exact .inl ⟨rfl, fun hnone => absurd hnone (by simp)⟩

theorem onNet_steady {f : NetState → NetState} (h : Grows 0 s.net (f s.net)) :
    Steady s (s.onNet f) where
  rest := rfl
  entry := by
    intro entry' he'
    obtain ⟨entry, he, honward, hqueue⟩ := h entry' he'
    exact ⟨entry, he, honward, fun hopen => Nat.add_le_add_right (hqueue hopen) _⟩
  recv := (onNet_outward h.onwards).recv
  recvOp := by
    intro entry' he' hopen hrecv
    show (s.recvOp || _) = true
    rw [hrecv, Bool.true_or]
  secure := rfl

theorem teardown_steady : Steady s (s.onNet (Net.teardown · .failed)) :=
  onNet_steady (Net.teardown_grows 0 .failed)

theorem tick_steady (nowNs : Nat) (flushImmediately : Bool) : Steady s (s.onNet fun net =>
    { net with nowNs := nowNs, flushImmediately := flushImmediately }) :=
  onNet_steady fun entry he => ⟨entry, he, .refl _, fun _ => Nat.le_refl _⟩

theorem httpEnqueue_steady (data : Bytes) : Steady s (httpEnqueue backend data s) := by
  unfold httpEnqueue
  split
  · exact .refl s
  split
  · rename_i tls htls
    refine ⟨rfl, fun entry he => ⟨entry, he, .refl _, fun _ => ?_⟩, .inl ⟨rfl, id⟩, fun _ _ _ h => h,
      by rw [htls]; rfl⟩
    simp only [WsConn.pressure, WsConn.staged, htls, Option.map_some, Option.getD_some,
      List.length_append]
    omega
  · exact onNet_steady ((Net.httpEnqueueRaw_grows data).of_le (Nat.zero_le _))

theorem markClosing_steady : Steady s (markClosing s) := by
  unfold markClosing
  cases he : s.net.entry with
  | none => exact .refl s
  | some entry =>
    dsimp only
    split
    · exact .refl s
    generalize decide (s.recv.peer = .here ∧ s.sweeps = true) = linger
    have hclosed : Steady { s with recvOp := s.recvOp && linger } _ :=
      onNet_steady (Net.closeAfterWrite_grows linger)
    refine ⟨rfl, hclosed.entry, hclosed.recv, fun entry' he' hopen => ?_, rfl⟩
    exact absurd ((Net.closeAfterWrite_closing linger entry' he').symm.trans hopen) (by simp)

/-- The session's marks are not the connection's. -/
theorem steady_tls {tls : Tls} (htls : s.tls = some tls) (tls' : Tls)
    (hstaged : tls'.staged = tls.staged) (flushes : Nat) : Steady s { s with tls := some tls', tlsFlushes := flushes } where
  rest := rfl
  entry := by
    intro entry he
    refine ⟨entry, he, .refl _, fun _ => ?_⟩
    simp [WsConn.pressure, WsConn.staged, htls, hstaged]
  recv := .inl ⟨rfl, id⟩
  recvOp := fun _ _ _ hrecv => hrecv
  secure := by rw [htls]; rfl

theorem httpCloseAfterWrite_steady : Steady s (httpCloseAfterWrite s) := by
  unfold httpCloseAfterWrite
  split
  · exact .refl s
  split
  · exact markClosing_steady
  rename_i tls htls
  split
  · exact steady_tls htls { tls with closeAfter := true } rfl _
  split
  · exact steady_tls htls { tls with closeAfter := true } rfl _
  · exact markClosing_steady

theorem postRecv_steady (ok : Bool) : Steady s (postRecv ok s) := by
  unfold postRecv
  split
  · exact .refl s
  split
  · exact .refl s
  split
  · exact .refl s
  split
  · exact ⟨rfl, fun entry he => ⟨entry, he, .refl _, fun _ => Nat.le_refl _⟩, .inl ⟨rfl, id⟩,
      fun _ _ _ _ => rfl, rfl⟩
  · exact teardown_steady

/-- Deciding the pause touches its two flags, and may post a receive. -/
theorem wsSyncReadPause_steady (postOk : Bool) (s : WsConn) : ∃ inboxPaused readingPaused,
    Steady { s with inboxPaused := inboxPaused, readingPaused := readingPaused }
      (wsSyncReadPause postOk s) := by
  unfold wsSyncReadPause
  split
  · exact ⟨s.inboxPaused, s.readingPaused, .refl s⟩
  split
  · exact ⟨s.inboxPaused, s.readingPaused, .refl s⟩
  split
  · exact ⟨true, true, .refl _⟩
  split
  · exact ⟨false, s.readingPaused, .refl _⟩
  · exact ⟨false, false, postRecv_steady postOk⟩

theorem answer_steady (frames : List Bytes) (ended : Bool) :
    Steady s (answer backend frames ended s) := by
  have hframes : ∀ s₁ : WsConn,
      Steady s₁ (frames.foldl (fun s frame => httpEnqueue backend frame s) s₁) := by
    induction frames with
    | nil => exact .refl
    | cons frame frames ih => exact fun s₁ => (httpEnqueue_steady frame).trans (ih _)
  unfold answer
  dsimp only
  split
  · exact (hframes s).trans httpCloseAfterWrite_steady
  · exact hframes s

/-- The records weigh at least what the session took. -/
theorem tlsFlushConn_steady (sealing : Sealed) (hvalid : sealing.Valid s) :
    Steady s (tlsFlushConn backend sealing s) := by
  unfold tlsFlushConn
  split
  · rename_i entry tls he htls
    dsimp only
    obtain ⟨hconsumed, hrecords⟩ := hvalid
    have hrest : Steady s ({ s with tls := some { tls with
        staged := tls.staged.drop sealing.consumed } }.onNet
          (Net.httpEnqueueRaw backend sealing.records)) := by
      have hraw : Steady { s with tls := some { tls with
          staged := tls.staged.drop sealing.consumed } } _ :=
        onNet_steady ((@Net.httpEnqueueRaw_grows backend _ sealing.records).of_le
          (Nat.zero_le _))
      refine ⟨rfl, fun entry' he' => ?_, hraw.recv, hraw.recvOp, by rw [htls]; rfl⟩
      obtain ⟨entry, he, honward, hqueue⟩ := Net.httpEnqueueRaw_grows sealing.records entry' he'
      refine ⟨entry, he, honward, fun hopen => ?_⟩
      have hgrown := hqueue hopen
      simp only [WsConn.pressure, WsConn.staged, WsConn.onNet, htls, Option.map_some,
        Option.getD_some, List.length_drop] at hconsumed ⊢
      omega
    have hnotify : ∀ s₁ : WsConn, Steady s₁ (if tls.shutdownSent then s₁ else
        s₁.onNet (Net.httpEnqueueRaw backend sealing.alert)) ∧ (if tls.shutdownSent then s₁ else
        s₁.onNet (Net.httpEnqueueRaw backend sealing.alert)).tls = s₁.tls := by
      intro s₁
      split
      · exact ⟨.refl s₁, rfl⟩
      · exact ⟨onNet_steady ((Net.httpEnqueueRaw_grows sealing.alert).of_le (Nat.zero_le _)), rfl⟩
    have htls₁ : ({ s with tls := some { tls with staged := tls.staged.drop sealing.consumed } }.onNet
        (Net.httpEnqueueRaw backend sealing.records)).tls =
          some { tls with staged := tls.staged.drop sealing.consumed } := rfl
    generalize { s with tls := some { tls with staged := tls.staged.drop sealing.consumed } }.onNet
      (Net.httpEnqueueRaw backend sealing.records) = s₁ at hrest htls₁ ⊢
    split
    · exact hrest
    · obtain ⟨hsteady, hsame⟩ := hnotify s₁
      generalize (if tls.shutdownSent then s₁ else
        s₁.onNet (Net.httpEnqueueRaw backend sealing.alert)) = s₂ at hsteady hsame ⊢
      have hmarked := steady_tls (hsame.trans htls₁) { tls with
        staged := tls.staged.drop sealing.consumed, closeAfter := false, shutdownSent := true } rfl
        s₂.tlsFlushes
      exact ((hrest.trans hsteady).trans hmarked).trans httpCloseAfterWrite_steady
  · exact .refl s

/-- The head parser's side of a read. -/
theorem connFeed_eq (headLen : Nat) (data : Bytes) (s : WsConn) : (connFeed headLen data s).2 = { s with
    parser := (connFeed headLen data s).2.parser, trailing := (connFeed headLen data s).2.trailing } := by
  unfold connFeed
  split
  · rfl
  · dsimp only
    split <;> rfl

theorem httpCloseAfterWrite_staged (s : WsConn) : (httpCloseAfterWrite s).staged = s.staged := by
  have hmarked : (markClosing s).staged = s.staged := by
    unfold markClosing
    split
    · rfl
    · dsimp only
      split <;> rfl
  unfold httpCloseAfterWrite
  split
  · rfl
  split
  · exact hmarked
  rename_i tls htls
  split
  · simp [WsConn.staged, htls]
  split
  · simp [WsConn.staged, htls]
  · exact hmarked

/-- A chunk of ciphertext: the session's own business first, then its plaintext. -/
theorem tlsIngest_eq (headLen : Nat) (unsealed : Unsealed) (sealing : Sealed) (pause postOk : Bool)
    (hvalid : sealing.Valid s) :
    ∃ s', Steady { s with received := s.received ++ unsealed.plaintext } s' ∧
      (tlsIngest backend headLen unsealed sealing pause postOk s = s ∧ s.net.entry = none ∨
        tlsIngest backend headLen unsealed sealing pause postOk s =
          if unsealed.plaintext = [] ∨ s'.net.entry.isNone then s'
          else if s'.ws then wsIngest backend postOk unsealed.plaintext s'
          else httpIngest headLen pause unsealed.plaintext s') := by
  generalize hreceived : { s with received := s.received ++ unsealed.plaintext } = s₁
  have hvalid₁ : sealing.Valid s₁ := hreceived ▸ hvalid
  have hclosed : Steady s₁ (if unsealed.closeNotify then httpCloseAfterWrite s₁ else s₁) ∧
      (if unsealed.closeNotify then httpCloseAfterWrite s₁ else s₁).staged = s₁.staged := by
    split
    · exact ⟨httpCloseAfterWrite_steady, httpCloseAfterWrite_staged s₁⟩
    · exact ⟨.refl s₁, rfl⟩
  generalize hs₂ : (if unsealed.closeNotify then httpCloseAfterWrite s₁ else s₁) = s₂ at hclosed
  have hanswered : Steady s₂ (s₂.onNet (Net.httpEnqueueRaw backend unsealed.records)) :=
    onNet_steady ((Net.httpEnqueueRaw_grows unsealed.records).of_le (Nat.zero_le _))
  have hvalid₃ : sealing.Valid (s₂.onNet (Net.httpEnqueueRaw backend unsealed.records)) := by
    refine ⟨?_, hvalid₁.2⟩
    show sealing.consumed ≤ s₂.staged
    rw [hclosed.2]
    exact hvalid₁.1
  generalize hs₃ : s₂.onNet (Net.httpEnqueueRaw backend unsealed.records) = s₃ at hanswered hvalid₃
  have hflushed : Steady s₃ (if s₃.staged = 0 then s₃ else tlsFlushConn backend sealing s₃) := by
    split
    · exact .refl s₃
    · exact tlsFlushConn_steady sealing hvalid₃
  refine ⟨_, (hclosed.1.trans hanswered).trans hflushed, ?_⟩
  unfold tlsIngest
  cases he : s.net.entry with
  | none => exact .inl ⟨rfl, rfl⟩
  | some entry =>
    rw [if_neg (by simp)]
    dsimp only
    rw [hreceived, hs₂, hs₃]
    exact .inr rfl

/-! ## 4. What a step reads -/

/-- What the step pushes into the frame parser. -/
def WsConn.ingests (s : WsConn) (event : ConnEvent) : Bytes :=
  match event with
  | .recvDone (some data) _ _ =>
    if s.recv.parking.isNone ∧ s.recvOp ∧ s.may (some data) ∧ s.tls.isNone ∧ s.ws ∧ s.accepted ∧
        s.net.entry.any (fun entry => !entry.closing) then data
    else []
  | .tlsData unsealed sealing _ _ =>
    if s.recv.parking.isNone ∧ 0 < s.tlsData ∧ sealing.Valid s ∧ s.ws ∧ s.accepted ∧
        s.net.entry.isSome then unsealed.plaintext
    else []
  | .accept _ _ =>
    if s.recv.parking.isNone ∧ s.ws ∧ ¬ s.accepted ∧ s.net.entry.isSome then s.trailing else []
  | _ => []

/-! ## 5. A handshake -/

def upgradeRequest : Bytes :=
  ascii "GET / HTTP/1.1\r\n" ++ ascii "Host: x\r\n" ++ ascii "Upgrade: websocket\r\n" ++
    ascii "Connection: Upgrade\r\n" ++ ascii "Sec-WebSocket-Version: 13\r\n" ++
    ascii "Sec-WebSocket-Key: " ++ ascii "AAAAAAAAAAAAAAAAAAAAAA==" ++ ascii "\r\n\r\n"

def switchingProtocols : Bytes :=
  ascii "HTTP/1.1 101 " ++ ascii "Switching Protocols\r\n" ++ ascii "upgrade: websocket\r\n" ++
    ascii "connection: Upgrade\r\n" ++ ascii "sec-websocket-accept: " ++
    ascii "ICX+Yqv66kxgM0FcWaLWlFLwTAI=" ++ ascii "\r\n\r\n"

/-- A backend that takes every send, and reports it gone out whole. -/
def obliging : Backend where
  postSend := fun _ => true
  reports := fun _ len => some len
  count := by
    intro op len bytes hlen heq
    injection heq with heq
    omega

def handshake : List ConnEvent :=
  [.recvDone (some upgradeRequest) false true, .dispatch 1, .accept switchingProtocols true]

end Cadeloop.Pyshim.Http
