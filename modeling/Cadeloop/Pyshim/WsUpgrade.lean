import Cadeloop.Pyshim.WsConnSteps

/-!
# What a step does with the stream of a WebSocket's connection

A chunk goes to llhttp up to the end of the upgrade head, waits behind that for the accept, or goes to
the frame parser.  Every other step leaves the bytes where they are, or hands over those that wait.
-/

namespace Cadeloop.Pyshim.Http

open Core.Ws Cadeloop.Reasoning
open Net (Backend NetState TransportEntry)

variable {backend : Backend} {headLen : Nat} {s s' : WsConn}

/-! ## 1. Steps that move no byte -/

/-- Gone, or marked to close: on TLS maybe behind what is staged. -/
def WsConn.shut (s : WsConn) : Bool := s.net.entry.all (·.closing) || s.tls.any (·.closeAfter)

/-- The entry is there, and not to close where that discards what comes. -/
def WsConn.reads (s : WsConn) : Bool := s.net.entry.isSome && (s.tls.isSome || !s.shut)

/-- Where the bytes of the plaintext are. -/
structure ByteStream where
  parser : HttpParser
  trailing : Bytes
  received : Bytes
  pushed : Bytes
  ws : Bool
  accepted : Bool

def WsConn.stream (s : WsConn) : ByteStream where
  parser := s.parser
  trailing := s.trailing
  received := s.received
  pushed := s.pushed
  ws := s.ws
  accepted := s.accepted

theorem onwards_refl (net : NetState) : Net.Onwards net net := fun entry he => ⟨entry, he, .refl entry⟩

/-- What was to close is. -/
structure Lasts (s s' : WsConn) : Prop where
  secure : s'.tls.isSome = s.tls.isSome
  queue : s.tls = none → s'.tlsData = s.tlsData
  onward : Net.Onwards s.net s'.net
  shut : s.shut = true → s'.shut = true

/-- A step of the receiving side alone. -/
theorem Lasts.of_same (hnet : s'.net = s.net) (htls : s'.tls = s.tls) (hdata : s'.tlsData = s.tlsData) :
    Lasts s s' where
  secure := by rw [htls]
  queue := fun _ => hdata
  onward := by
    rw [hnet]
    exact onwards_refl s.net
  shut := by
    rw [WsConn.shut, WsConn.shut, hnet, htls]
    exact id

theorem Lasts.plain (h : Lasts s s') (hplain : s.tls = none) : s'.tls = none := by
  have hsecure := h.secure
  rw [hplain] at hsecure
  simpa using hsecure

theorem Lasts.trans {a b c : WsConn} (h : Lasts a b) (h' : Lasts b c) : Lasts a c where
  secure := h'.secure.trans h.secure
  queue := fun hplain => (h'.queue (h.plain hplain)).trans (h.queue hplain)
  onward := h.onward.trans h'.onward
  shut := fun hshut => h'.shut (h.shut hshut)

theorem Lasts.after {t : WsConn} (h : Lasts t s') (hnet : t.net = s.net) (htls : t.tls = s.tls)
    (hdata : t.tlsData = s.tlsData) : Lasts s s' := (Lasts.of_same hnet htls hdata).trans h

theorem Lasts.gone (h : Lasts s s') (hnone : s.net.entry = none) : s'.net.entry = none := by
  cases he' : s'.net.entry with
  | none => rfl
  | some entry' =>
    obtain ⟨entry, he, -⟩ := h.onward entry' he'
    exact absurd (hnone.symm.trans he) (by simp)

/-- And the bytes are where they were. -/
structure Unmoved (s s' : WsConn) : Prop extends Lasts s s' where
  stream : s'.stream = s.stream

theorem Unmoved.of_same (hnet : s'.net = s.net) (htls : s'.tls = s.tls) (hdata : s'.tlsData = s.tlsData)
    (hstream : s'.stream = s.stream) : Unmoved s s' := ⟨.of_same hnet htls hdata, hstream⟩

theorem Unmoved.refl (s : WsConn) : Unmoved s s := .of_same rfl rfl rfl rfl

theorem Unmoved.trans {a b c : WsConn} (h : Unmoved a b) (h' : Unmoved b c) : Unmoved a c :=
  ⟨h.toLasts.trans h'.toLasts, h'.stream.trans h.stream⟩

theorem Steady.kept (h : Steady s s') (hshut : s.shut = true → s'.shut = true) : Unmoved s s' where
  secure := h.secure
  queue := fun _ => by rw [h.rest]
  onward := by
    intro entry' he'
    obtain ⟨entry, he, honward, -⟩ := h.entry entry' he'
    exact ⟨entry, he, honward⟩
  shut := hshut
  stream := by
    rw [h.rest]
    rfl

theorem shut_of_gone (h : s.net.entry = none) : s.shut = true := by
  rw [WsConn.shut, h]
  rfl

theorem onNet_shut {f : NetState → NetState} (h : Net.Onwards s.net (f s.net)) (hshut : s.shut = true) :
    (s.onNet f).shut = true := by
  rw [WsConn.shut, Bool.or_eq_true] at hshut ⊢
  refine hshut.imp_left fun hclosing => ?_
  cases he' : (s.onNet f).net.entry with
  | none => rfl
  | some entry' =>
    obtain ⟨entry, he, honward⟩ := h entry' he'
    rw [he] at hclosing
    exact honward.closing hclosing

theorem onNet_unmoved {f : NetState → NetState} (h : Net.Onwards s.net (f s.net)) : Unmoved s (s.onNet f) where
  stream := rfl
  secure := rfl
  queue := fun _ => rfl
  onward := h
  shut := onNet_shut h

theorem raw_unmoved (data : Bytes) : Unmoved s (s.onNet (Net.httpEnqueueRaw backend data)) :=
  onNet_unmoved (Net.httpEnqueueRaw_grows data).onwards

theorem teardown_unmoved : Unmoved s (s.onNet (Net.teardown · .failed)) :=
  onNet_unmoved (Net.teardown_grows 0 .failed).onwards

theorem httpEnqueue_unmoved (data : Bytes) (s : WsConn) : Unmoved s (httpEnqueue backend data s) := by
  refine (httpEnqueue_steady data).kept fun hshut => ?_
  unfold httpEnqueue
  split
  · exact hshut
  split
  · rename_i tls htls
    rw [WsConn.shut, htls] at hshut
    exact hshut
  · exact onNet_shut (Net.httpEnqueueRaw_grows data).onwards hshut

theorem markClosing_shut (s : WsConn) : (markClosing s).shut = true := by
  unfold markClosing
  split
  · rename_i hnone
    exact shut_of_gone hnone
  rename_i entry he
  split
  · rename_i hclosing
    rw [WsConn.shut, he, Bool.or_eq_true]
    exact .inl hclosing
  · rw [WsConn.shut, Bool.or_eq_true]
    left
    generalize decide (s.recv.peer = .here ∧ s.sweeps = true) = linger
    cases he' : (WsConn.onNet (Net.closeAfterWrite linger)
        { s with recvOp := s.recvOp && linger }).net.entry with
    | none => rfl
    | some entry' => exact Net.closeAfterWrite_closing linger entry' he'

theorem httpCloseAfterWrite_shut (s : WsConn) : (httpCloseAfterWrite s).shut = true := by
  unfold httpCloseAfterWrite
  split
  · rename_i hnone
    exact shut_of_gone hnone
  split
  · exact markClosing_shut s
  split
  · exact Bool.or_true _
  split
  · exact Bool.or_true _
  · exact markClosing_shut s

theorem httpCloseAfterWrite_unmoved (s : WsConn) : Unmoved s (httpCloseAfterWrite s) :=
  httpCloseAfterWrite_steady.kept fun _ => httpCloseAfterWrite_shut s

theorem postRecv_unmoved (ok : Bool) (s : WsConn) : Unmoved s (postRecv ok s) := by
  refine (postRecv_steady ok).kept fun hshut => ?_
  unfold postRecv
  split
  · exact hshut
  split
  · exact hshut
  split
  · exact hshut
  split
  · exact hshut
  · exact teardown_unmoved.shut hshut

theorem wsSyncReadPause_unmoved (postOk : Bool) (s : WsConn) : Unmoved s (wsSyncReadPause postOk s) := by
  have hflags : ∀ inboxPaused readingPaused,
      Unmoved s { s with inboxPaused := inboxPaused, readingPaused := readingPaused } := fun _ _ =>
    .of_same rfl rfl rfl rfl
  unfold wsSyncReadPause
  split
  · exact .refl s
  split
  · exact .refl s
  split
  · exact hflags true true
  split
  · exact hflags false s.readingPaused
  · exact (hflags false false).trans (postRecv_unmoved postOk _)

theorem answer_unmoved (frames : List Bytes) (ended : Bool) (s : WsConn) :
    Unmoved s (answer backend frames ended s) := by
  have hframes : ∀ s : WsConn, Unmoved s (frames.foldl (fun s frame => httpEnqueue backend frame s) s) := by
    induction frames with
    | nil => exact .refl
    | cons frame frames ih => exact fun s => (httpEnqueue_unmoved frame s).trans (ih _)
  unfold answer
  dsimp only
  split
  · exact (hframes s).trans (httpCloseAfterWrite_unmoved _)
  · exact hframes s

theorem tlsFlushConn_unmoved (sealing : Sealed) (s : WsConn) : Unmoved s (tlsFlushConn backend sealing s) := by
  unfold tlsFlushConn
  split
  · rename_i entry tls he htls
    dsimp only
    have hstaged : ∀ rest, Unmoved s { s with tls := some { tls with staged := rest } } := by
      intro rest
      refine ⟨⟨by rw [htls]; rfl, fun _ => rfl, onwards_refl _, fun hshut => ?_⟩, rfl⟩
      rw [WsConn.shut, htls] at hshut
      exact hshut
    generalize tls.staged.drop sealing.consumed = rest
    have hrecords := (hstaged rest).trans (@raw_unmoved backend _ sealing.records)
    generalize { s with tls := some { tls with staged := rest } }.onNet
      (Net.httpEnqueueRaw backend sealing.records) = s₁ at hrecords ⊢
    split
    · exact hrecords
    · have hnotify : Unmoved s₁ (if tls.shutdownSent then s₁ else
          s₁.onNet (Net.httpEnqueueRaw backend sealing.alert)) := by
        split
        · exact .refl s₁
        · exact raw_unmoved sealing.alert
      have hall := hrecords.trans hnotify
      generalize (if tls.shutdownSent then s₁ else
        s₁.onNet (Net.httpEnqueueRaw backend sealing.alert)) = s₂ at hall ⊢
      have hclosed := httpCloseAfterWrite_unmoved { s₂ with
        tls := some { staged := rest, closeAfter := false, shutdownSent := true } }
      refine hall.trans ⟨⟨hclosed.secure.trans ?_, fun hplain => ?_, hclosed.onward,
        fun _ => httpCloseAfterWrite_shut _⟩, hclosed.stream⟩
      · have hsecure := hall.secure
        rw [htls] at hsecure
        exact hsecure.symm
      · have hsecure := hall.secure
        simp [htls, hplain] at hsecure
  · exact .refl s

/-! ## 2. What a step does with the stream -/

/-- The part of a chunk behind the upgrade head. -/
def HttpParser.behind (headLen : Nat) (data : Bytes) (p : HttpParser) : Bytes :=
  data.drop (headLen - p.fed.length)

def HttpParser.took (headLen : Nat) (data : Bytes) (p : HttpParser) : HttpParser where
  fed := p.fed ++ data.take (headLen - p.fed.length)
  upgraded := p.upgraded || decide (headLen - p.fed.length ≤ data.length)

/-- llhttp stops at the end of the upgrade head, which has its bytes and nothing behind them. -/
structure ByteStream.Parsed (headLen : Nat) (p : ByteStream) : Prop where
  within : p.parser.fed.length ≤ headLen
  head : p.parser.upgraded = true → p.parser.fed.length = headLen
  fresh : p.parser.upgraded = false → p.trailing = []
  dispatched : p.ws = true → p.parser.upgraded = true
  accepted : p.accepted = true → p.ws = true
  unpushed : p.accepted = false → p.pushed = []

theorem ByteStream.Parsed.receive {p : ByteStream} (h : p.Parsed headLen) (received : Bytes) :
    ByteStream.Parsed headLen { p with received := received } :=
  ⟨h.within, h.head, h.fresh, h.dispatched, h.accepted, h.unpushed⟩

theorem ByteStream.Parsed.past {p : ByteStream} (h : p.Parsed headLen) (hup : p.parser.upgraded = true)
    (data : Bytes) :
    p.parser.took headLen data = p.parser ∧ p.parser.behind headLen data = data := by
  have hnone : headLen - p.parser.fed.length = 0 := by
    have := h.head hup
    omega
  rw [HttpParser.took, HttpParser.behind, hnone, List.take_zero, List.append_nil, hup, Bool.true_or, ← hup]
  exact ⟨rfl, rfl⟩

theorem connFeed_took (h : s.stream.Parsed headLen) (data : Bytes) :
    connFeed headLen data s =
      if wsMaxMessage < s.trailing.length + (s.parser.behind headLen data).length then
        (true, { s with parser := s.parser.took headLen data, trailing := [] })
      else
        (false, { s with
          parser := s.parser.took headLen data
          trailing := s.trailing ++ s.parser.behind headLen data }) := by
  have hfresh : s.parser.upgraded = false → s.trailing = [] := h.fresh
  unfold connFeed HttpParser.feed
  cases hup : s.parser.upgraded with
  | true =>
    obtain ⟨htook, hbehind⟩ := h.past hup data
    have htook : s.parser.took headLen data = s.parser := htook
    have hbehind : s.parser.behind headLen data = data := hbehind
    rw [if_pos rfl, htook, hbehind]
    rfl
  | false =>
    rw [if_neg Bool.false_ne_true]
    dsimp only
    by_cases hend : headLen - s.parser.fed.length ≤ data.length
    · have htook : s.parser.took headLen data =
          { fed := s.parser.fed ++ data.take (headLen - s.parser.fed.length), upgraded := true } := by
        rw [HttpParser.took, hup, Bool.false_or, decide_eq_true hend]
      rw [if_pos hend, htook]
      rfl
    · have htook : s.parser.took headLen data = { fed := s.parser.fed ++ data, upgraded := false } := by
        rw [HttpParser.took, List.take_of_length_le (by omega), hup, Bool.false_or, decide_eq_false hend]
      have hbehind : s.parser.behind headLen data = [] := List.drop_of_length_le (by omega)
      rw [if_neg hend, htook, hbehind, hfresh hup, List.append_nil, if_neg (by decide), ← hfresh hup]

/-- What becomes of a chunk that is ingested. -/
inductive Ingested (headLen : Nat) (data : Bytes) (p : ByteStream) (s' : WsConn) : Prop where
  | fed (undispatched : p.ws = false)
      (fits : ¬ wsMaxMessage < p.trailing.length + (p.parser.behind headLen data).length)
      (stream : s'.stream = { p with
        parser := p.parser.took headLen data, trailing := p.trailing ++ p.parser.behind headLen data })
  | flooded (undispatched : p.ws = false)
      (excess : wsMaxMessage < p.trailing.length + (p.parser.behind headLen data).length)
      (gone : s'.net.entry = none)
      (stream : s'.stream = { p with parser := p.parser.took headLen data, trailing := [] })
  | buffered (dispatched : p.ws = true) (unaccepted : p.accepted = false)
      (fits : ¬ wsMaxMessage < p.trailing.length + data.length)
      (stream : s'.stream = { p with trailing := p.trailing ++ data })
  | overflowed (dispatched : p.ws = true) (unaccepted : p.accepted = false)
      (excess : wsMaxMessage < p.trailing.length + data.length) (shut : s'.shut = true)
      (stream : s'.stream = { p with trailing := [] })
  | pushed (dispatched : p.ws = true) (accepted : p.accepted = true)
      (stream : s'.stream = { p with pushed := p.pushed ++ data })

theorem Ingested.kept {data : Bytes} {p : ByteStream} {s'' : WsConn} (h : Ingested headLen data p s')
    (hkept : Unmoved s' s'') : Ingested headLen data p s'' := by
  cases h with
  | fed undispatched fits stream => exact .fed undispatched fits (hkept.stream.trans stream)
  | flooded undispatched excess gone stream =>
    exact .flooded undispatched excess (hkept.gone gone) (hkept.stream.trans stream)
  | buffered dispatched unaccepted fits stream =>
    exact .buffered dispatched unaccepted fits (hkept.stream.trans stream)
  | overflowed dispatched unaccepted excess shut stream =>
    exact .overflowed dispatched unaccepted excess (hkept.shut shut) (hkept.stream.trans stream)
  | pushed dispatched accepted stream => exact .pushed dispatched accepted (hkept.stream.trans stream)

theorem httpIngest_ingested (h : s.stream.Parsed headLen) (hws : s.ws = false) (pause : Bool)
    (data : Bytes) :
    Lasts s (httpIngest headLen pause data s) ∧
      Ingested headLen data s.stream (httpIngest headLen pause data s) := by
  unfold httpIngest
  rw [connFeed_took h]
  by_cases hover : wsMaxMessage < s.trailing.length + (s.parser.behind headLen data).length
  · rw [if_pos hover]
    have htorn := @teardown_unmoved { s with parser := s.parser.took headLen data, trailing := [] }
    refine ⟨htorn.toLasts.after rfl rfl rfl, .flooded hws hover ?_ htorn.stream⟩
    show (Net.teardown s.net .failed).entry = none
    unfold Net.teardown
    split
    · assumption
    · rfl
  · rw [if_neg hover]
    exact ⟨.of_same rfl rfl rfl, .fed hws hover rfl⟩

theorem wsIngestAccepted_unmoved (postOk : Bool) (data : Bytes) (s : WsConn) :
    Unmoved { s with pushed := s.pushed ++ data } (wsIngestAccepted backend postOk data s) := by
  unfold wsIngestAccepted
  extract_lets evs ended t t'
  have hpushed : Unmoved { s with pushed := s.pushed ++ data } { s with
      rx := (s.rx.push data).2
      closing := s.closing || ended
      recv := evs.foldl pushEvent s.recv
      pushed := s.pushed ++ data } := .of_same rfl rfl rfl rfl
  have ht : Unmoved { s with pushed := s.pushed ++ data } t := hpushed.trans (answer_unmoved _ _ _)
  refine Unmoved.trans ?_ (wsSyncReadPause_unmoved postOk t')
  dsimp only [t']
  split
  · exact ht.trans (.of_same rfl rfl rfl rfl)
  · exact ht

theorem wsIngest_ingested (hws : s.ws = true) (hthere : s.net.entry.isSome) (postOk : Bool)
    (data : Bytes) : Lasts s (wsIngest backend postOk data s) ∧
      Ingested headLen data s.stream (wsIngest backend postOk data s) := by
  unfold wsIngest
  rw [if_neg (by simpa using Option.isSome_iff_ne_none.mp hthere)]
  split
  · rename_i hnotyet
    have hunaccepted : s.accepted = false := by simpa using hnotyet
    split
    · rename_i hover
      have hclosed := (@httpEnqueue_unmoved backend (errorResponse 413 "payload too large" s.activeMinor)
        { s with trailing := [] }).trans (httpCloseAfterWrite_unmoved _)
      exact ⟨hclosed.toLasts.after rfl rfl rfl,
        .overflowed hws hunaccepted hover (httpCloseAfterWrite_shut _) hclosed.stream⟩
    · rename_i hunder
      exact ⟨.of_same rfl rfl rfl, .buffered hws hunaccepted hunder rfl⟩
  · rename_i haccepted
    have hpushed := @wsIngestAccepted_unmoved backend postOk data s
    exact ⟨hpushed.toLasts.after rfl rfl rfl,
      .pushed hws (not_not.mp haccepted) hpushed.stream⟩

/-- What a step does. -/
inductive Took (headLen : Nat) (s s' : WsConn) : Prop where
  | kept (stream : s'.stream = s.stream)
  -- discarded by a connection that closes
  | discarded (data : Bytes) (plain : s.tls = none) (shut : s.shut = true)
      (stream : s'.stream = { s.stream with received := s.received ++ data })
  -- decrypted by a connection that goes
  | lost (data : Bytes) (gone : s'.net.entry = none)
      (stream : s'.stream = { s.stream with received := s.received ++ data })
  | ingested (data : Bytes) (reads : s.reads = true)
      (h : Ingested headLen data { s.stream with received := s.received ++ data } s')
  | dispatched (upgraded : s.parser.upgraded = true) (stream : s'.stream = { s.stream with ws := true })
  | accepted (there : s.net.entry.isSome) (dispatched : s.ws = true) (unaccepted : s.accepted = false)
      (stream : s'.stream = { s.stream with
        accepted := true, trailing := [], pushed := s.pushed ++ s.trailing })
  -- the 101 could not be sent
  | refused (dispatched : s.ws = true) (gone : s'.net.entry = none)
      (stream : s'.stream = { s.stream with accepted := true, trailing := [] })
  | ended (dispatched : s.ws = true) (shut : s'.shut = true)
      (stream : s'.stream = { s.stream with accepted := true })

/-- The step of a connection whose parser has what belongs there. -/
def Stepped (headLen : Nat) (s s' : WsConn) : Prop := Lasts s s' ∧ Took headLen s s'

theorem Unmoved.stepped (h : Unmoved s s') : Stepped headLen s s' := ⟨h.toLasts, .kept h.stream⟩

theorem Took.unmoved_after {s'' : WsConn} (h : Took headLen s s') (hkept : Unmoved s' s'') :
    Took headLen s s'' := by
  cases h with
  | kept stream => exact .kept (hkept.stream.trans stream)
  | discarded data plain shut stream => exact .discarded data plain shut (hkept.stream.trans stream)
  | lost data gone stream => exact .lost data (hkept.gone gone) (hkept.stream.trans stream)
  | ingested data reads h => exact .ingested data reads (h.kept hkept)
  | dispatched upgraded stream => exact .dispatched upgraded (hkept.stream.trans stream)
  | accepted there dispatched unaccepted stream =>
    exact .accepted there dispatched unaccepted (hkept.stream.trans stream)
  | refused dispatched gone stream => exact .refused dispatched (hkept.gone gone) (hkept.stream.trans stream)
  | ended dispatched shut stream => exact .ended dispatched (hkept.shut shut) (hkept.stream.trans stream)

theorem Stepped.unmoved_after {s'' : WsConn} (h : Stepped headLen s s') (hkept : Unmoved s' s'') :
    Stepped headLen s s'' := ⟨h.1.trans hkept.toLasts, h.2.unmoved_after hkept⟩

/-- Bytes of a plaintext connection that is open. -/
theorem onRecvDone_open {entry : TransportEntry} {data : Bytes} (he : s.net.entry = some entry)
    (hlinger : entry.lingering = false) (hopen : entry.closing = false) (hplain : s.tls = none)
    (hdata : data ≠ []) (pause postOk : Bool) :
    onRecvDone backend headLen (some data) pause postOk s =
      let t : WsConn := { s with recvOp := false, received := s.received ++ data }
      postRecv postOk (if t.ws then wsIngest backend postOk data t else httpIngest headLen pause data t) := by
  unfold onRecvDone
  dsimp only
  rw [he]
  dsimp only
  rw [hlinger, hopen, if_neg Bool.false_ne_true, if_neg Bool.false_ne_true]
  split
  · rename_i hnone
    cases hnone
  · rename_i hempty
    injection hempty with hempty
    exact absurd hempty hdata
  rename_i data' _ hsome
  injection hsome with hsome
  subst hsome
  have hplaintext : (if s.tls.isSome then [] else (some data).getD []) = data := by
    rw [hplain]
    rfl
  rw [hplaintext, hplain, if_neg (by simp), apply_ite (postRecv postOk)]

theorem onRecvDone_ingested {entry : TransportEntry} {data : Bytes} (hp : s.stream.Parsed headLen)
    (he : s.net.entry = some entry) (hlinger : entry.lingering = false) (hopen : entry.closing = false)
    (hplain : s.tls = none) (hdata : data ≠ []) (pause postOk : Bool) :
    Lasts s (onRecvDone backend headLen (some data) pause postOk s) ∧
      Ingested headLen data { s.stream with received := s.received ++ data }
        (onRecvDone backend headLen (some data) pause postOk s) := by
  rw [onRecvDone_open he hlinger hopen hplain hdata]
  extract_lets t
  have hin : Lasts t (if t.ws then wsIngest backend postOk data t else httpIngest headLen pause data t) ∧
      Ingested headLen data t.stream
        (if t.ws then wsIngest backend postOk data t else httpIngest headLen pause data t) := by
    split
    · rename_i hws
      exact wsIngest_ingested hws (by rw [he]; rfl) postOk data
    · rename_i hws
      exact httpIngest_ingested (s := t) (hp.receive _) (by simpa using hws) pause data
  generalize (if t.ws then wsIngest backend postOk data t else httpIngest headLen pause data t) = t' at hin ⊢
  have hposted := postRecv_unmoved postOk t'
  exact ⟨(hin.1.trans hposted.toLasts).after rfl rfl rfl, hin.2.kept hposted⟩

theorem stepped_unread {plaintext : Bytes}
    (h : Unmoved { s with recvOp := false, received := s.received ++ plaintext } s')
    (hwhy : plaintext = [] ∨ s.tls = none ∧ s.shut = true) : Stepped headLen s s' := by
  refine ⟨h.toLasts.after rfl rfl rfl, ?_⟩
  rcases hwhy with rfl | ⟨hplain, hshut⟩
  · refine .kept (h.stream.trans ?_)
    show { s.stream with received := s.received ++ [] } = s.stream
    rw [List.append_nil]
    rfl
  · exact .discarded plaintext hplain hshut h.stream

theorem onRecvDone_stepped (hp : s.stream.Parsed headLen)
    (hlinger : ∀ entry, s.net.entry = some entry → entry.lingering = true → entry.closing = true)
    (result : Option Bytes) (pause postOk : Bool) :
    Stepped headLen s (onRecvDone backend headLen result pause postOk s) := by
  cases he : s.net.entry with
  | none =>
    unfold onRecvDone
    dsimp only
    rw [he]
    exact Unmoved.stepped (.of_same rfl rfl rfl rfl)
  | some entry =>
    have hclosed : entry.closing = true →
        (if s.tls.isSome then [] else result.getD []) = [] ∨ s.tls = none ∧ s.shut = true := by
      intro hclosing
      cases htls : s.tls with
      | some tls => exact .inl rfl
      | none =>
        refine .inr ⟨rfl, ?_⟩
        rw [WsConn.shut, he, Bool.or_eq_true]
        exact .inl hclosing
    by_cases hlingering : entry.lingering = true
    · have hwhy := hclosed (hlinger entry he hlingering)
      unfold onRecvDone
      dsimp only
      rw [he]
      dsimp only
      rw [if_pos hlingering]
      split
      · exact stepped_unread teardown_unmoved hwhy
      · exact stepped_unread (onNet_unmoved Net.lingerDone_grows.onwards) hwhy
      · exact stepped_unread (postRecv_unmoved postOk _) hwhy
    by_cases hclosing : entry.closing = true
    · unfold onRecvDone
      dsimp only
      rw [he]
      dsimp only
      rw [if_neg hlingering, if_pos hclosing]
      exact stepped_unread (.refl _) (hclosed hclosing)
    have hread : ∀ data, result = some data → data ≠ [] → s.tls = none →
        Stepped headLen s (onRecvDone backend headLen result pause postOk s) := by
      rintro data rfl hdata hplain
      obtain ⟨hlasts, hin⟩ := @onRecvDone_ingested backend headLen s entry data hp he
        (by simpa using hlingering) (by simpa using hclosing) hplain hdata pause postOk
      refine ⟨hlasts, .ingested data ?_ hin⟩
      rw [WsConn.reads, WsConn.shut, he, hplain]
      simpa using hclosing
    cases result with
    | none =>
      unfold onRecvDone
      dsimp only
      rw [he]
      dsimp only
      rw [if_neg hlingering, if_neg hclosing]
      exact stepped_unread teardown_unmoved (.inl (by simp))
    | some data =>
      by_cases hempty : data = []
      · subst hempty
        unfold onRecvDone
        dsimp only
        rw [he]
        dsimp only
        rw [if_neg hlingering, if_neg hclosing]
        have hnothing : (if s.tls.isSome then [] else (some ([] : Bytes)).getD []) = [] := by
          split <;> rfl
        refine stepped_unread ?_ (.inl hnothing)
        exact .of_same rfl rfl rfl rfl
      · cases htls : s.tls with
        | none => exact hread data rfl hempty htls
        | some tls =>
          unfold onRecvDone
          dsimp only
          rw [he]
          dsimp only
          rw [if_neg hlingering, if_neg hclosing]
          split
          · rename_i hnone
            cases hnone
          · rename_i hnil
            injection hnil with hnil
            exact absurd hnil hempty
          rw [if_pos (by simp [htls])]
          have hnothing : (if s.tls.isSome then [] else (some data).getD []) = [] := by
            rw [htls]
            rfl
          refine stepped_unread (Unmoved.trans ?_ (postRecv_unmoved postOk _)) (.inl hnothing)
          exact ⟨⟨rfl, fun hplain => absurd (htls.symm.trans hplain) (by simp), onwards_refl _, id⟩, rfl⟩

/-- A chunk of ciphertext: nothing in it, a connection that goes, or bytes. -/
theorem tlsIngest_cases (hp : s.stream.Parsed headLen) (unsealed : Unsealed) (sealing : Sealed)
    (pause postOk : Bool) :
    Lasts s (tlsIngest backend headLen unsealed sealing pause postOk s) ∧
      ((tlsIngest backend headLen unsealed sealing pause postOk s).stream = s.stream ∧
          (unsealed.plaintext = [] ∨ s.net.entry = none) ∨
        (tlsIngest backend headLen unsealed sealing pause postOk s).net.entry = none ∧
          (tlsIngest backend headLen unsealed sealing pause postOk s).stream =
            { s.stream with received := s.received ++ unsealed.plaintext } ∨
        s.net.entry.isSome ∧ Ingested headLen unsealed.plaintext
          { s.stream with received := s.received ++ unsealed.plaintext }
          (tlsIngest backend headLen unsealed sealing pause postOk s)) := by
  unfold tlsIngest
  split
  · rename_i hnone
    exact ⟨(Unmoved.refl s).toLasts, .inl ⟨rfl, .inr (by simpa using hnone)⟩⟩
  rename_i hthere
  extract_lets t₁ t₂ t₃ t₄
  have h₂ : Unmoved t₁ t₂ := by
    dsimp only [t₂]
    split
    · exact httpCloseAfterWrite_unmoved t₁
    · exact .refl t₁
  have h₃ : Unmoved t₂ t₃ := raw_unmoved unsealed.records
  have h₄ : Unmoved t₃ t₄ := by
    dsimp only [t₄]
    split
    · exact .refl t₃
    · exact tlsFlushConn_unmoved sealing t₃
  have hall : Unmoved t₁ t₄ := (h₂.trans h₃).trans h₄
  have hstream : t₄.stream = { s.stream with received := s.received ++ unsealed.plaintext } := hall.stream
  have hlasts : Lasts s t₄ := hall.toLasts.after rfl rfl rfl
  split
  · rename_i hnothing
    refine ⟨hlasts, ?_⟩
    rcases hnothing with hempty | hgone
    · refine .inl ⟨?_, .inl hempty⟩
      rw [hstream, hempty, List.append_nil]
      rfl
    · exact .inr (.inl ⟨by simpa using hgone, hstream⟩)
  · rename_i hmore
    rw [not_or] at hmore
    have hthere₄ : t₄.net.entry.isSome := by simpa [Option.isSome_iff_ne_none] using hmore.2
    split
    · rename_i hws
      obtain ⟨hlasts', hin⟩ := @wsIngest_ingested backend headLen t₄ hws hthere₄ postOk unsealed.plaintext
      rw [hstream] at hin
      exact ⟨hlasts.trans hlasts', .inr (.inr ⟨by simpa [Option.isSome_iff_ne_none] using hthere, hin⟩)⟩
    · rename_i hws
      have hp₄ : t₄.stream.Parsed headLen := by
        rw [hstream]
        exact hp.receive _
      obtain ⟨hlasts', hin⟩ := httpIngest_ingested hp₄ (by simpa using hws) pause unsealed.plaintext
      rw [hstream] at hin
      exact ⟨hlasts.trans hlasts', .inr (.inr ⟨by simpa [Option.isSome_iff_ne_none] using hthere, hin⟩)⟩

theorem tlsIngest_stepped (hp : s.stream.Parsed headLen) (hsecure : s.tls.isSome) (tlsData : Nat)
    (unsealed : Unsealed) (sealing : Sealed) (pause postOk : Bool) :
    Stepped headLen s
      (tlsIngest backend headLen unsealed sealing pause postOk { s with tlsData := tlsData }) := by
  obtain ⟨hlasts, hcases⟩ :=
    @tlsIngest_cases backend headLen { s with tlsData := tlsData } hp unsealed sealing pause postOk
  refine ⟨⟨hlasts.secure, fun hplain => by simp [hplain] at hsecure, hlasts.onward, hlasts.shut⟩, ?_⟩
  rcases hcases with ⟨hstream, -⟩ | ⟨hgone, hstream⟩ | ⟨hthere, hin⟩
  · exact .kept hstream
  · exact .lost unsealed.plaintext hgone hstream
  · refine .ingested unsealed.plaintext ?_ hin
    have hthere : s.net.entry.isSome = true := hthere
    rw [WsConn.reads, hthere, hsecure]
    rfl

theorem wsAccept_stepped (hws : s.ws = true) (head : Bytes) (postOk : Bool) :
    Stepped headLen s (wsAccept backend head postOk s) := by
  unfold wsAccept
  split
  · exact (Unmoved.refl s).stepped
  rename_i hmay
  rw [not_or] at hmay
  have hthere : s.net.entry.isSome := by simpa [Option.isSome_iff_ne_none] using hmay.1
  have hunaccepted : s.accepted = false := by simpa using hmay.2
  extract_lets trailing t
  have hsent : Unmoved { s with accepted := true, trailing := [] } t := httpEnqueue_unmoved head _
  have hlasts : Lasts s t := hsent.toLasts.after rfl rfl rfl
  have hstream : t.stream = { s.stream with accepted := true, trailing := [] } := hsent.stream
  split
  · rename_i hnone
    have hnone : s.trailing = [] := hnone
    refine ⟨hlasts, .accepted hthere hws hunaccepted ?_⟩
    rw [hstream, hnone, List.append_nil]
    rfl
  · cases hgone : t.net.entry with
    | none =>
      rw [wsIngest, if_pos (by simp [hgone])]
      exact ⟨hlasts, .refused hws hgone hstream⟩
    | some entry =>
      have htws : t.ws = true := (congrArg ByteStream.ws hstream).trans hws
      have htaccepted : t.accepted = true := congrArg ByteStream.accepted hstream
      rw [wsIngest, if_neg (by simp [hgone]), if_neg (by simp [htaccepted])]
      have hpushed := @wsIngestAccepted_unmoved backend postOk trailing t
      refine ⟨hlasts.trans (hpushed.toLasts.after rfl rfl rfl),
        .accepted hthere hws hunaccepted ?_⟩
      have hjoined : (wsIngestAccepted backend postOk trailing t).stream =
        { t.stream with pushed := t.stream.pushed ++ trailing } := hpushed.stream
      rw [hjoined, hstream]
      rfl

theorem wsEnd_stepped (hws : s.ws = true) (status : Nat) (reason : String) (code : Nat) (why : String) :
    Stepped headLen s (wsEnd backend status reason code why s) := by
  unfold wsEnd
  split
  · exact (Unmoved.refl s).stepped
  extract_lets bytes
  have hclosed := (@httpEnqueue_unmoved backend bytes { s with accepted := true, closing := true }).trans
    (httpCloseAfterWrite_unmoved _)
  exact ⟨hclosed.toLasts.after rfl rfl rfl,
    .ended hws (httpCloseAfterWrite_shut _) hclosed.stream⟩

theorem finishRequest_unmoved (s : WsConn) : Unmoved s (finishRequest s) := by
  have hclosed := httpCloseAfterWrite_unmoved { s with recv := { s.recv with recvWaiters := [] } }
  have hkept : Unmoved s (httpCloseAfterWrite { s with recv := { s.recv with recvWaiters := [] } }) :=
    ⟨hclosed.toLasts.after rfl rfl rfl, hclosed.stream⟩
  exact hkept.trans (.of_same rfl rfl rfl rfl)

theorem httpBeginShutdown_unmoved (s : WsConn) : Unmoved s (httpBeginShutdown backend s) := by
  unfold httpBeginShutdown
  split
  · exact .refl s
  extract_lets t waiters recv t'
  have ht : Unmoved s t := httpEnqueue_unmoved _ s
  split
  · exact ht
  have ht' : Unmoved s t' := ht.trans (.of_same rfl rfl rfl rfl)
  split
  · exact ht'.trans (httpCloseAfterWrite_unmoved t')
  · exact ht'.trans (.of_same rfl rfl rfl rfl)

theorem onReceive_unmoved (postOk : Bool) (event : ReceiveEvent) (s : WsConn) :
    Unmoved s (onReceive postOk event s) := by
  have hstepped : ∀ recv, Unmoved s { s with recv := recv } := fun _ => .of_same rfl rfl rfl rfl
  unfold onReceive
  dsimp only
  split
  · exact hstepped _
  · exact (hstepped _).trans (wsSyncReadPause_unmoved postOk _)

theorem connStep_stepped (hp : s.stream.Parsed headLen) (hqueue : s.tls = none → s.tlsData = 0)
    (hlinger : ∀ entry, s.net.entry = some entry → entry.lingering = true → entry.closing = true)
    (event : ConnEvent) : Stepped headLen s (connStep backend headLen s event) := by
  have hsame : Stepped headLen s s := (Unmoved.refl s).stepped
  unfold connStep
  cases event with
  | recvDone result pause postOk =>
    dsimp only
    split
    · exact onRecvDone_stepped hp hlinger result pause postOk
    · exact hsame
  | tlsData unsealed sealing pause postOk =>
    dsimp only
    split
    · rename_i hdue
      have hsecure : s.tls.isSome := by
        by_contra hplain
        have hnone := hqueue (by simpa using hplain)
        omega
      exact tlsIngest_stepped hp hsecure _ unsealed sealing pause postOk
    · exact hsame
  | tlsFlush sealing =>
    dsimp only
    split
    · have hdue : Unmoved s { s with tlsFlushes := s.tlsFlushes - 1 } :=
        .of_same rfl rfl rfl rfl
      exact (hdue.trans (tlsFlushConn_unmoved sealing _)).stepped
    · exact hsame
  | sendDone postOk =>
    exact ((onNet_unmoved Net.onSendDone_onwards).trans (wsSyncReadPause_unmoved postOk _)).stepped
  | flushCorked => exact (onNet_unmoved Net.flushCorked_grows.onwards).stepped
  | lingerExpired => exact (onNet_unmoved Net.lingerExpired_grows.onwards).stepped
  | teardown => exact teardown_unmoved.stepped
  | tick nowNs flushImmediately => exact (onNet_unmoved fun entry he => ⟨entry, he, .refl entry⟩).stepped
  | respond data =>
    dsimp only
    split
    · exact hsame
    · exact (httpEnqueue_unmoved data s).stepped
  | closeAfterWrite =>
    dsimp only
    split
    · exact hsame
    · exact (httpCloseAfterWrite_unmoved s).stepped
  | resumeReading postOk =>
    dsimp only
    split
    · exact hsame
    unfold httpResumeReading
    split
    · have hresumed : Unmoved s { s with pipelinePaused := false } :=
        .of_same rfl rfl rfl rfl
      exact (hresumed.trans (postRecv_unmoved postOk _)).stepped
    · exact hsame
  | dispatch minor =>
    dsimp only
    split
    · rename_i hready
      exact ⟨.of_same rfl rfl rfl, .dispatched hready.1 rfl⟩
    · exact hsame
  | accept head postOk =>
    dsimp only
    split
    · rename_i hws
      exact wsAccept_stepped hws head postOk
    · exact hsame
  | send frame =>
    dsimp only
    split
    · unfold wsSend
      split
      · exact hsame
      · exact (httpEnqueue_unmoved frame s).stepped
    · exact hsame
  | close code reason =>
    dsimp only
    split
    · rename_i hws
      exact wsEnd_stepped hws _ _ _ _
    · exact hsame
  | appDone =>
    dsimp only
    split
    · rename_i hws
      exact (wsEnd_stepped hws _ _ _ _).unmoved_after (finishRequest_unmoved _)
    · exact hsame
  | fail =>
    dsimp only
    split
    · rename_i hws
      exact (wsEnd_stepped hws _ _ _ _).unmoved_after (finishRequest_unmoved _)
    · exact hsame
  | receive event postOk =>
    dsimp only
    split
    · exact (onReceive_unmoved postOk event s).stepped
    · exact hsame
  | hangup => exact Unmoved.stepped (.of_same rfl rfl rfl rfl)
  | shutdown =>
    dsimp only
    split
    · exact (httpBeginShutdown_unmoved s).stepped
    · exact hsame

theorem wsStep_stepped (hp : s.stream.Parsed headLen) (hqueue : s.tls = none → s.tlsData = 0)
    (hlinger : ∀ entry, s.net.entry = some entry → entry.lingering = true → entry.closing = true)
    (event : ConnEvent) : Stepped headLen s (wsStep backend headLen s event) := by
  unfold wsStep
  split
  · exact (Unmoved.refl s).stepped
  · exact connStep_stepped hp hqueue hlinger event

end Cadeloop.Pyshim.Http
