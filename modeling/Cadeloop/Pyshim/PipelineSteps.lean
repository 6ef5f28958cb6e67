import Cadeloop.Pyshim.HttpFeedSteps
import Cadeloop.Pyshim.InboundRuns
import Cadeloop.Pyshim.Pipeline
import Cadeloop.Pyshim.WsConnSteps

/-!
# The moves of a pipelined connection

Every event is a chain of a few moves: something is written, the connection closes or goes, a chunk is
fed, a request starts, finishes or fails, a small change of the request that runs.  What holds across
each move holds across a run.
-/

namespace Cadeloop.Pyshim.Http

open Cadeloop.Reasoning
open Rfc7230 (Field)

/-! ## 1. What a message takes back -/

theorem enqueue_keepAlive (c : HttpConn) (out : Bytes) : (enqueue c out).conn.keepAlive = c.keepAlive := by
  unfold enqueue releaseAfterResponse
  dsimp only
  split <;> rfl

theorem checked_keepAlive {c next : HttpConn} (final : Bool) (out : Bytes)
    (h : next.keepAlive = c.keepAlive) : (checked c final next out).conn.keepAlive = c.keepAlive := by
  unfold checked
  split
  · rfl
  · rw [enqueue_keepAlive, h]

theorem sendFirstBody_keepAlive {c : HttpConn} {body : Bytes} {more : Bool}
    (h : (sendFirstBody c body more).conn.keepAlive = true) : c.keepAlive = true := by
  unfold sendFirstBody at h
  dsimp only at h
  split at h
  · split at h
    · rwa [checked_keepAlive] at h
      rfl
    · rwa [checked_keepAlive] at h
      rfl
  split at h
  · rw [checked_keepAlive] at h
    · split at h
      · exact absurd h Bool.false_ne_true
      · exact h
    · split <;> rfl
  · rwa [enqueue_keepAlive] at h

theorem sendNextBody_keepAlive (c : HttpConn) (body : Bytes) (more : Bool) :
    (sendNextBody c body more).conn.keepAlive = c.keepAlive := by
  unfold sendNextBody
  dsimp only
  split
  · exact checked_keepAlive _ _ rfl
  split
  · exact checked_keepAlive _ _ rfl
  · exact checked_keepAlive _ _ rfl

theorem sendStart_keepAlive {unixSecs : Nat} {c : HttpConn} {status : Option UInt16}
    {headers : List Field} {trailers : Bool}
    (h : (sendStart unixSecs c status headers trailers).conn.keepAlive = true) :
    c.keepAlive = true := by
  unfold sendStart at h
  split at h
  · exact h
  dsimp only at h
  split at h
  · exact h
  split at h
  · exact h
  split at h
  · exact h
  split at h
  · exact h
  · exact (Bool.and_eq_true_iff.mp h).1

/-- A connection that is to close is not kept alive by a message. -/
theorem processSend_keepAlive {unixSecs : Nat} {c : HttpConn} {msg : Message}
    (h : (processSend unixSecs c msg).conn.keepAlive = true) : c.keepAlive = true := by
  cases msg with
  | start status headers trailers => exact sendStart_keepAlive h
  | body body more =>
    unfold processSend sendBody at h
    dsimp only at h
    split at h
    · exact h
    · exact h
    · exact h
    · exact sendFirstBody_keepAlive h
    · rwa [sendNextBody_keepAlive] at h
  | trailers headers more =>
    unfold processSend sendTrailers at h
    dsimp only at h
    split at h
    · exact h
    split at h
    · exact h
    · split at h
      · rwa [enqueue_keepAlive] at h
      · rwa [enqueue_keepAlive] at h
  | other kind => exact h

/-- Behind a complete response every message is refused. -/
theorem processSend_done {unixSecs : Nat} {c : HttpConn} (hdone : c.resp = .done) (msg : Message) :
    (processSend unixSecs c msg).conn = c := by
  cases msg with
  | start status headers trailers =>
    unfold processSend sendStart
    dsimp only
    split
    · rfl
    split
    · rfl
    split
    · rfl
    split
    · rfl
    · rw [if_pos (by simp [hdone])]
      rfl
  | body body more =>
    unfold processSend sendBody
    simp only [hdone]
    rfl
  | trailers headers more =>
    unfold processSend sendTrailers
    dsimp only
    split
    · rfl
    · rw [if_pos (by simp [hdone])]
      rfl
  | other kind => rfl

end Cadeloop.Pyshim.Http

namespace Cadeloop.Pyshim.Pipeline

open Cadeloop.Reasoning
open Core.Http (Execution Request)
open Http (errorResponse)
open Net (Backend NetState TransportEntry)

variable {backend : Backend} {s s' : Conn}

/-! ## 2. What writes, closes or reads -/

/-- Reading goes on, unless something holds it back. -/
def Conn.Reads (s : Conn) : Prop :=
  s.shut = false → s.http.disconnected = false → s.readingPaused = false →
    s.http.pipelinePaused = false → s.recvOp = true

/-- Only an entry that closes lingers. -/
def Conn.Lingers (s : Conn) : Prop :=
  ∀ entry, s.net.entry = some entry → entry.lingering = true → entry.closing = true

/-- What is written, closed or read leaves the requests, and opens nothing that closes. -/
structure Outward (s s' : Conn) : Prop where
  rest : s' = { s with
    net := s'.net, recvOp := s'.recvOp, readingPaused := s'.readingPaused, tls := s'.tls,
    tlsFlushes := s'.tlsFlushes }
  gone : s.net.entry = none → s'.net.entry = none
  shut : s.shut = true → s'.shut = true
  reads : s.Reads → s'.Reads
  lingers : s.Lingers → s'.Lingers
  secure : s'.tls.isSome = s.tls.isSome

theorem Outward.http (h : Outward s s') : s'.http = s.http := by rw [h.rest]

theorem Outward.out (h : Outward s s') : s'.out = s.out := by rw [h.rest]

theorem Outward.refl (s : Conn) : Outward s s := ⟨rfl, id, id, id, id, rfl⟩

theorem Outward.trans {a b c : Conn} (h : Outward a b) (h' : Outward b c) : Outward a c where
  rest := by
    have hb := h.rest
    have hc := h'.rest
    generalize b.net = n, b.recvOp = r, b.readingPaused = p, b.tls = t, b.tlsFlushes = f at hb
    subst hb
    exact hc
  gone := fun hnone => h'.gone (h.gone hnone)
  shut := fun hshut => h'.shut (h.shut hshut)
  reads := fun hreads => h'.reads (h.reads hreads)
  lingers := fun hlingers => h'.lingers (h.lingers hlingers)
  secure := h'.secure.trans h.secure

theorem Conn.shut_of_gone (h : s.net.entry = none) : s.shut = true := by simp [Conn.shut, h]

theorem Conn.shut_of_closing {entry : TransportEntry} (he : s.net.entry = some entry)
    (h : entry.closing = true) : s.shut = true := by simp [Conn.shut, he, h]

theorem Conn.shut_iff (s : Conn) : s.shut = true ↔
    (∀ entry, s.net.entry = some entry → entry.closing = true) ∨
      ∃ tls, s.tls = some tls ∧ tls.closeAfter = true := by
  unfold Conn.shut
  cases s.net.entry <;> cases s.tls <;> simp

/-- An open connection is there, and not to close. -/
theorem Conn.open_entry (h : s.shut = false) :
    ∃ entry, s.net.entry = some entry ∧ entry.closing = false := by
  cases he : s.net.entry with
  | none => exact absurd (h.symm.trans (Conn.shut_of_gone he)) (by decide)
  | some entry =>
    cases hclosing : entry.closing with
    | false => exact ⟨entry, rfl, hclosing⟩
    | true => exact absurd (h.symm.trans (Conn.shut_of_closing he hclosing)) (by decide)

theorem onNet_lingers {f : NetState → NetState} (h : Net.Onwards s.net (f s.net))
    (hlingers : s.Lingers) : (s.onNet f).Lingers := by
  intro entry' he' hlingering
  obtain ⟨entry, he, honward⟩ := h entry' he'
  rcases honward.lingering hlingering with hlingering | hclosing
  · exact honward.closing (hlingers entry he hlingering)
  · exact hclosing

theorem onNet_outward {f : NetState → NetState} (h : Net.Onwards s.net (f s.net)) :
    Outward s (s.onNet f) := by
  have hshut : s.shut = true → (s.onNet f).shut = true := by
    intro hshut
    apply (Conn.shut_iff _).mpr
    rcases (Conn.shut_iff s).mp hshut with hclosing | htls
    · left
      intro entry' he'
      obtain ⟨entry, he, honward⟩ := h entry' he'
      exact honward.closing (hclosing entry he)
    · exact .inr htls
  constructor
  · rfl
  · intro hnone
    cases he' : (s.onNet f).net.entry with
    | none => rfl
    | some entry' =>
      obtain ⟨entry, he, -⟩ := h entry' he'
      exact absurd (hnone.symm.trans he) (by simp)
  · exact hshut
  · intro hreads hopen hhere hheld hpaused
    have hopen' : s.shut = false := by
      cases hs : s.shut with
      | false => rfl
      | true => exact absurd (hopen.symm.trans (hshut hs)) (by decide)
    show (s.recvOp || _) = true
    rw [hreads hopen' hhere hheld hpaused, Bool.true_or]
  · exact onNet_lingers h
  · rfl

theorem teardown_gone (s : Conn) : (teardown s).net.entry = none := Net.teardown_none s.net .failed

theorem teardown_shut (s : Conn) : (teardown s).shut = true := Conn.shut_of_gone (teardown_gone s)

theorem teardown_outward : Outward s (teardown s) :=
  onNet_outward (Net.teardown_grows 0 .failed).onwards

theorem tick_outward (nowNs : Nat) (flushImmediately : Bool) : Outward s (s.onNet fun net =>
    { net with nowNs := nowNs, flushImmediately := flushImmediately }) :=
  onNet_outward fun entry he => ⟨entry, he, .refl _⟩

theorem enqueueRaw_outward (data : Bytes) :
    Outward s (s.onNet (Net.httpEnqueueRaw backend data)) :=
  onNet_outward (Net.httpEnqueueRaw_grows data).onwards

/-- The session's fields change, and stay marked if they were. -/
theorem tls_outward {tls : Tls} (htls : s.tls = some tls) (tls' : Tls) (flushes : Nat)
    (h : tls.closeAfter = true → tls'.closeAfter = true) :
    Outward s { s with tls := some tls', tlsFlushes := flushes } := by
  have hshut : s.shut = true → Conn.shut { s with tls := some tls', tlsFlushes := flushes } = true := by
    intro hshut
    apply (Conn.shut_iff _).mpr
    rcases (Conn.shut_iff s).mp hshut with hclosing | ⟨tls₁, htls₁, hmarked⟩
    · exact .inl hclosing
    · obtain rfl := Option.some.inj (htls.symm.trans htls₁)
      exact .inr ⟨tls', rfl, h hmarked⟩
  constructor
  · rfl
  · exact id
  · exact hshut
  · intro hreads hopen
    apply hreads
    cases hs : s.shut with
    | false => rfl
    | true => exact absurd (hopen.symm.trans (hshut hs)) (by decide)
  · exact id
  · rw [htls]
    rfl

/-- Bytes that are handed in are recorded, or dropped by a connection that closes. -/
theorem httpEnqueue_outward (origin : Origin) (data : Bytes) : ∃ fresh,
    (fresh = [] ∨ fresh = [s.written origin data]) ∧
      Outward { s with out := s.out ++ fresh } (httpEnqueue backend origin data s) := by
  unfold httpEnqueue
  have hnone : Outward { s with out := s.out ++ [] } s := by
    rw [List.append_nil]
    exact .refl s
  split
  · exact ⟨[], .inl rfl, hnone⟩
  split
  · exact ⟨[], .inl rfl, hnone⟩
  split
  · rename_i tls htls
    refine ⟨_, .inr rfl, ?_⟩
    exact @tls_outward { s with out := s.out ++ [s.written origin data] } tls htls
      { tls with staged := tls.staged ++ data } _ id
  split
  · exact ⟨[], .inl rfl, hnone⟩
  · exact ⟨_, .inr rfl, enqueueRaw_outward data⟩

theorem closing_shut {f : NetState → NetState}
    (h : ∀ entry', (f s.net).entry = some entry' → entry'.closing = true) :
    (s.onNet f).shut = true :=
  (Conn.shut_iff _).mpr (.inl h)

theorem markClosing_shut (s : Conn) : (markClosing s).shut = true := by
  unfold markClosing
  split
  · rename_i he
    exact Conn.shut_of_gone he
  · rename_i entry he
    split
    · rename_i hclosing
      exact Conn.shut_of_closing he hclosing
    · exact closing_shut (Net.closeAfterWrite_closing _)

theorem httpCloseAfterWrite_shut (s : Conn) : (httpCloseAfterWrite s).shut = true := by
  unfold httpCloseAfterWrite
  split
  · rename_i he
    exact Conn.shut_of_gone he
  split
  · exact markClosing_shut s
  split
  · exact (Conn.shut_iff _).mpr (.inr ⟨_, rfl, rfl⟩)
  split
  · exact (Conn.shut_iff _).mpr (.inr ⟨_, rfl, rfl⟩)
  · exact markClosing_shut s

/-- What ends shut reads no more. -/
theorem Conn.reads_of_shut (h : s.shut = true) : s.Reads := by
  intro hopen
  exact absurd (h.symm.trans hopen) (by decide)

theorem markClosing_outward : Outward s (markClosing s) := by
  have hshut := markClosing_shut s
  have hreads := Conn.reads_of_shut hshut
  unfold markClosing at hshut hreads ⊢
  cases he : s.net.entry with
  | none => exact .refl s
  | some entry =>
    rw [he] at hshut hreads
    dsimp only at hshut hreads ⊢
    split at hshut
    · rename_i hclosing
      rw [if_pos hclosing]
      exact .refl s
    · rename_i hclosing
      rw [if_neg hclosing] at hreads ⊢
      constructor
      · rfl
      · exact fun hnone => absurd (he.symm.trans hnone) (by simp)
      · exact fun _ => hshut
      · exact fun _ => hreads
      · exact onNet_lingers (Net.closeAfterWrite_grows _).onwards
      · rfl

theorem httpCloseAfterWrite_outward : Outward s (httpCloseAfterWrite s) := by
  unfold httpCloseAfterWrite
  split
  · exact .refl s
  split
  · exact markClosing_outward
  rename_i tls htls
  split
  · exact tls_outward htls { tls with closeAfter := true } _ fun _ => rfl
  split
  · exact tls_outward htls { tls with closeAfter := true } _ fun _ => rfl
  · exact markClosing_outward

/-- A receive is asked for: it is posted, unless something holds it back. -/
theorem postRecv_reads (ok : Bool) (s : Conn) : (postRecv ok s).Reads := by
  unfold postRecv
  split
  · rename_i he
    exact Conn.reads_of_shut (Conn.shut_of_gone he)
  rename_i entry he
  intro hopen hhere hheld hpaused
  split at hopen <;> rename_i hposted
  · rw [if_pos hposted] at hheld ⊢
    rcases hposted with hrecv | hheld' | ⟨hclosing, -⟩
    · exact hrecv
    · exact absurd (hheld.symm.trans hheld') (by decide)
    · exact absurd (hopen.symm.trans (Conn.shut_of_closing he hclosing)) (by decide)
  rw [if_neg hposted] at hheld hpaused ⊢
  split at hopen <;> rename_i hbudget
  · rw [if_pos hbudget] at hpaused ⊢
    exact absurd (hpaused.symm.trans hbudget.2) (by decide)
  rw [if_neg hbudget]
  split at hopen <;> rename_i hok
  · rw [if_pos hok]
  · exact absurd (hopen.symm.trans (teardown_shut s)) (by decide)

theorem postRecv_outward (ok : Bool) : Outward s (postRecv ok s) := by
  have hreads := postRecv_reads ok s
  unfold postRecv at hreads ⊢
  split
  · exact .refl s
  rename_i entry he
  rw [he] at hreads
  dsimp only at hreads
  split
  · exact .refl s
  rename_i hposted
  rw [if_neg hposted] at hreads
  split
  · exact .refl s
  rename_i hbudget
  rw [if_neg hbudget] at hreads
  split
  · rename_i hok
    rw [if_pos hok] at hreads
    exact ⟨rfl, id, id, fun _ => hreads, id, rfl⟩
  · exact teardown_outward

theorem unheld_outward (ok : Bool) : Outward s (postRecv ok { s with readingPaused := false }) := by
  have h := @postRecv_outward { s with readingPaused := false } ok
  refine ⟨?_, h.gone, h.shut, fun _ => postRecv_reads ok _, h.lingers, h.secure⟩
  have hrest := h.rest
  exact hrest

theorem tlsFlushConn_outward (sealing : Sealed) : Outward s (tlsFlushConn backend sealing s) := by
  unfold tlsFlushConn
  split
  · rename_i entry tls he htls
    split
    · exact .refl s
    dsimp only
    have hrest := tls_outward htls { tls with staged := tls.staged.drop sealing.consumed } s.tlsFlushes id
    have hraw := hrest.trans (@enqueueRaw_outward backend _ sealing.records)
    split
    · exact hraw
    · generalize { s with tls := some { tls with staged := tls.staged.drop sealing.consumed } }.onNet
        (Net.httpEnqueueRaw backend sealing.records) = s₁ at hraw ⊢
      have halert : Outward s₁ (if tls.shutdownSent then s₁ else
          s₁.onNet (Net.httpEnqueueRaw backend sealing.alert)) := by
        split
        · exact .refl s₁
        · exact enqueueRaw_outward _
      have hsent := hraw.trans halert
      generalize (if tls.shutdownSent then s₁ else
        s₁.onNet (Net.httpEnqueueRaw backend sealing.alert)) = s₂ at hsent ⊢
      -- the mark comes off, and the entry closes behind it
      have hclosed := @httpCloseAfterWrite_outward { s₂ with tls := some { tls with
        staged := tls.staged.drop sealing.consumed, closeAfter := false, shutdownSent := true } }
      have hshut := httpCloseAfterWrite_shut { s₂ with tls := some { tls with
        staged := tls.staged.drop sealing.consumed, closeAfter := false, shutdownSent := true } }
      constructor
      · have h₂ := hsent.rest
        have h₃ := hclosed.rest
        generalize s₂.net = n, s₂.recvOp = r, s₂.readingPaused = p, s₂.tls = t,
          s₂.tlsFlushes = f at h₂
        subst h₂
        exact h₃
      · exact fun hnone => hclosed.gone (hsent.gone hnone)
      · exact fun _ => hshut
      · exact fun _ => Conn.reads_of_shut hshut
      · exact fun hlingers => hclosed.lingers (hsent.lingers hlingers)
      · rw [hclosed.secure, htls]
        rfl
  · exact .refl s

/-! ## 3. The moves -/

namespace HttpConn

/-- A small change of the request that runs, or of what the sweep remembers. -/
structure Quiet (c c' : HttpConn) : Prop where
  rest : c' = { c with
    disconnected := c'.disconnected, response := c'.response, reqBody := c'.reqBody, task := c'.task,
    ws := c'.ws, wsTrailing := c'.wsTrailing, sweepPhase := c'.sweepPhase,
    sweepSeen := c'.sweepSeen, sweepAnchorNs := c'.sweepAnchorNs, coros := c'.coros }
  keepAlive : c'.response.keepAlive = true → c.response.keepAlive = true
  done : c.response.resp = .done → c'.response.resp = .done
  -- before the first request nothing is answered
  fresh : c.handed = [] → c'.response.resp = c.response.resp
  ws : c'.ws.isSome = c.ws.isSome
  disconnected : c.disconnected = true → c'.disconnected = true

/-- A chunk ends behind a head that is owed its interim response at once. -/
def continuesNow (data : Bytes) (run : Execution) (c : HttpConn) : Bool :=
  match c.parser.feed data.length run with
  | (parser, .ok offset) =>
    parser.acc.owesContinue && parser.acc.completed.isEmpty && !c.active && c.pending.isEmpty &&
      !(c.keepTrailing data offset).1
  | (_, .error _) => false

/-- The request that runs is answered and kept alive, and the head behind it is owed its interim
response then. -/
def continuesLater (c : HttpConn) : Bool :=
  c.active && c.response.resp = .done && !c.closes && c.pending.isEmpty && c.deferredError.isNone &&
    c.continueDeferred && c.parser.expectingBody

end HttpConn

/-- The answer to an upgrade that the connection cannot take. -/
def refuseUpgrade (backend : Backend) (req : Request) (rest : List Request) (s : Conn) : Conn :=
  let c := (s.http.start req rest).2
  httpCloseAfterWrite (httpEnqueue backend (.request c.started)
    (errorResponse 400 "bad websocket upgrade" req.httpMinor.toNat) { s with
      pumping := none
      http := { c with active := false, response := { c.response with keepAlive := false } } })

/-- The answer to a request that failed before its response. -/
def answerFailure (backend : Backend) (s : Conn) : Conn :=
  httpCloseAfterWrite (releaseAfterResponse (httpEnqueue backend s.current
    (errorResponse 500 "internal server error" s.http.response.activeMinor) { s with
      http := { s.http with
        response := { s.http.response with resp := .done, keepAlive := false, logStatus := 500 } } }))

variable (backend) in
/-- `late` holds where an interim response is due on a connection that is shut already. -/
inductive Move (late : Prop) : Conn → Conn → Prop where
  | outward {s s' : Conn} (h : Outward s s') : Move late s s'
  | wrote {s : Conn} (origin : Origin) (data : Bytes) (h : origin ≠ .interim) :
    Move late s (httpEnqueue backend origin data s)
  | quiet {s : Conn} (c : HttpConn) (tlsData pumps : Nat) (releases : List Nat)
    (pumping : Option Nat) (delivered : List (Nat × HttpConn.Delivery)) (h : s.http.Quiet c) :
    Move late s { s with http := c, tlsData, pumps, releases, pumping, delivered }
  | fed {s : Conn} (chunk : Chunk) (here : s.net.entry.isSome = true) (follows : chunk.follows s = true)
    (noSession : s.http.ws = none) (alive : s.http.deferredError = none)
    (unshut : s.tls = none → s.shut = false)
    (due : s.shut = true → s.http.continuesNow chunk.data chunk.run = true → late) :
    Move late s (ingest backend chunk s).2
  | started {s : Conn} {req : Request} {rest : List Request} (pumping : Option Nat)
    (here : s.net.entry.isSome = true) (idle : s.http.active = false)
    (queued : s.http.pending = req :: rest) (good : (s.http.start req rest).1 = false) :
    Move late s { s with
      pumping
      http := { (s.http.start req rest).2 with
        handed := s.http.handed ++ [s.http.started + 1]
        coros := s.http.coros ++ [s.http.started + 1] } }
  | refused {s : Conn} {req : Request} {rest : List Request} (here : s.net.entry.isSome = true)
    (idle : s.http.active = false) (queued : s.http.pending = req :: rest)
    (bad : (s.http.start req rest).1 = true) : Move late s (refuseUpgrade backend req rest s)
  | finished {s : Conn} (postOk : Bool) (here : s.net.entry.isSome = true)
    (active : s.http.active = true) (answered : s.http.response.resp = .done ∨ s.http.closes = true)
    (due : s.tls.isSome = true → s.shut = true → s.http.continuesLater = true → late) :
    Move late s (finishRequest backend postOk s)
  | failed {s : Conn} (here : s.net.entry.isSome = true) (active : s.http.active = true)
    (noSession : s.http.ws = none) (unanswered : s.http.response.resp = .idle) :
    Move late s (answerFailure backend s)

variable (backend) in
def Moves (late : Prop) : Conn → Conn → Prop := Relation.ReflTransGen (Move backend late)

/-- What each move keeps, a chain of them keeps. -/
theorem Moves.keeps {late : Prop} {P : Conn → Prop} (h : Moves backend late s s')
    (hkeeps : ∀ {a b : Conn}, Move backend late a b → P a → P b) (hs : P s) : P s' := by
  induction h with
  | refl => exact hs
  | tail _ hmove ih => exact hkeeps hmove ih

/-! ## 4. Small changes -/

namespace HttpConn

variable {c : HttpConn}

theorem Quiet.refl (c : HttpConn) : c.Quiet c := ⟨rfl, id, id, fun _ => rfl, rfl, id⟩

/-- What no response depends on. -/
theorem Quiet.of_rest {c' : HttpConn} (hresponse : c'.response = c.response)
    (hws : c'.ws.isSome = c.ws.isSome) (hdisconnected : c.disconnected = true → c'.disconnected = true)
    (hrest : c' = { c with
      disconnected := c'.disconnected, response := c'.response, reqBody := c'.reqBody,
      task := c'.task, ws := c'.ws, wsTrailing := c'.wsTrailing, sweepPhase := c'.sweepPhase,
      sweepSeen := c'.sweepSeen, sweepAnchorNs := c'.sweepAnchorNs, coros := c'.coros }) :
    c.Quiet c' where
  rest := hrest
  keepAlive := by
    rw [hresponse]
    exact id
  done := by
    rw [hresponse]
    exact id
  fresh := fun _ => by rw [hresponse]
  ws := hws
  disconnected := hdisconnected

/-- The waiters come and go. -/
theorem Quiet.waiters (c : HttpConn) (waiters : List Nat) :
    c.Quiet { c with response := { c.response with recvWaiters := waiters } } :=
  ⟨rfl, id, id, fun _ => rfl, rfl, id⟩

theorem receive_quiet (k : Nat) (c : HttpConn) : c.Quiet (c.receive k).2 := by
  unfold receive
  split
  · exact .of_rest rfl rfl id rfl
  split
  · exact .refl c
  · exact .waiters c _

theorem putBack_quiet (body : Bytes) (c : HttpConn) : c.Quiet (c.putBack body).2 := by
  unfold putBack
  split
  · exact .waiters c _
  · dsimp only
    split
    · exact .of_rest rfl rfl id rfl
    · exact .refl c

end HttpConn

/-! ## 5. What each operation is made of -/

section operations

variable {late : Prop}

@[refl]
theorem Moves.refl (s : Conn) : Moves backend late s s := Relation.ReflTransGen.refl

theorem Moves.of (h : Move backend late s s') : Moves backend late s s' :=
  Relation.ReflTransGen.single h

theorem Moves.trans {a b c : Conn} (h : Moves backend late a b) (h' : Moves backend late b c) :
    Moves backend late a c := Relation.ReflTransGen.trans h h'

theorem Moves.outward (h : Outward s s') : Moves backend late s s' := .of (.outward h)

theorem Moves.wrote (origin : Origin) (data : Bytes) (h : origin ≠ .interim) :
    Moves backend late s (httpEnqueue backend origin data s) := .of (.wrote origin data h)

theorem Moves.quiet {c : HttpConn} (h : s.http.Quiet c) :
    Moves backend late s { s with http := c } :=
  .of (.quiet c s.tlsData s.pumps s.releases s.pumping s.delivered h)

/-- Only what is queued for later changes, and what is remembered of the `receive()` calls. -/
theorem Moves.queued (tlsData pumps : Nat) (releases : List Nat) (pumping : Option Nat)
    (delivered : List (Nat × HttpConn.Delivery)) :
    Moves backend late s { s with tlsData, pumps, releases, pumping, delivered } :=
  .of (.quiet s.http tlsData pumps releases pumping delivered (.refl _))

theorem current_ne (s : Conn) : s.current ≠ .interim := by simp [Conn.current]

theorem queuePump_moves (due : Bool) : Moves backend late s (queuePump due s) := by
  unfold queuePump
  split
  · exact .queued s.tlsData (s.pumps + 1) s.releases s.pumping s.delivered
  · exact .refl _

theorem frames_moves {origin : Conn → Origin} (h : ∀ s, origin s ≠ .interim) (frames : List Bytes) :
    Moves backend late s
      (frames.foldl (fun s frame => httpEnqueue backend (origin s) frame s) s) := by
  induction frames generalizing s with
  | nil => exact .refl _
  | cons frame frames ih => exact (Moves.wrote (origin s) frame (h s)).trans ih

theorem session_moves (accepted closing : Bool) (hws : s.http.ws.isSome = true) :
    Moves backend late s (setSession accepted closing s) :=
  .quiet (.of_rest rfl (by simp [hws]) id rfl)

theorem trailing_moves (trailing : Bytes) :
    Moves backend late s { s with http := { s.http with wsTrailing := trailing } } :=
  .quiet (.of_rest rfl rfl id rfl)

theorem wsIngest_moves (chunk : Chunk) : Moves backend late s (wsIngest backend chunk s) := by
  unfold wsIngest
  split
  · exact .refl _
  rename_i ws hws
  split
  · split
    · exact ((trailing_moves []).trans (.wrote _ _ (current_ne _))).trans
        (.outward httpCloseAfterWrite_outward)
    · exact trailing_moves _
  · dsimp only
    have hset : s.http.ws.isSome = true := by rw [hws, Option.isSome_some]
    have hframes := (@session_moves backend s late true (ws.closing || chunk.ended) hset).trans
      (frames_moves current_ne chunk.frames)
    split
    · exact hframes.trans (.outward httpCloseAfterWrite_outward)
    · exact hframes

theorem wsEnd_moves (status : Nat) (reason : String) (code : Nat) (why : String) :
    Moves backend late s (wsEnd backend status reason code why s) := by
  unfold wsEnd
  split
  · rename_i ws _ hws
    exact ((session_moves true true (by simp [hws])).trans (.wrote _ _ (current_ne s))).trans
      (.outward httpCloseAfterWrite_outward)
  · exact .refl _

theorem wsSend_moves (msg : WsMessage) : Moves backend late s (wsSend backend msg s) := by
  unfold wsSend
  split
  · exact .refl _
  rename_i ws hws
  cases msg with
  | accept head chunk =>
    dsimp only
    split
    · exact .refl _
    have haccepted : Moves backend late s (httpEnqueue backend s.current head
        (setSession true ws.closing { s with http := { s.http with wsTrailing := [] } })) :=
      ((trailing_moves []).trans (session_moves true ws.closing (by simp [hws]))).trans
        (.wrote _ _ (current_ne s))
    split
    · exact haccepted
    · exact haccepted.trans (wsIngest_moves _)
  | send frame =>
    dsimp only
    split
    · exact .refl _
    · exact .wrote _ _ (current_ne s)
  | close code reason => exact wsEnd_moves 403 "forbidden" code reason

theorem routePlaintext_moves {chunk : Chunk} (here : s.net.entry.isSome = true)
    (follows : chunk.follows s = true) (unshut : s.tls = none → s.shut = false)
    (due : s.http.ws = none → s.http.deferredError = none → s.shut = true →
      s.http.continuesNow chunk.data chunk.run = true → late) :
    Moves backend late s (routePlaintext backend chunk s).2 := by
  unfold routePlaintext
  split
  · exact wsIngest_moves chunk
  rename_i hws
  split
  · exact .refl _
  rename_i hparked
  have noSession : s.http.ws = none := by simpa using hws
  have alive : s.http.deferredError = none := by simpa using hparked
  exact .of (.fed chunk here follows noSession alive unshut (due noSession alive))

theorem peerGone_moves (s : Conn) : Moves backend late s (peerGone s) := by
  unfold peerGone
  dsimp only
  have hmove : Moves backend late s { s with
      delivered := s.delivered ++ s.http.response.recvWaiters.map fun k => (k, .disconnect)
      http := { s.http with
        disconnected := true
        response := { s.http.response with recvWaiters := [] } } } :=
    .of (.quiet _ s.tlsData s.pumps s.releases s.pumping _
      ⟨rfl, id, id, fun _ => rfl, rfl, fun _ => rfl⟩)
  split
  · exact hmove.trans (.outward teardown_outward)
  · exact hmove

theorem onRecvDone_moves {received : Received} (h : received.follows s = true) (postOk : Bool) :
    Moves backend late { s with recvOp := false } (onRecvDone backend received postOk s) := by
  unfold onRecvDone
  dsimp only
  cases he : s.net.entry with
  | none => exact .refl _
  | some entry =>
    dsimp only
    split
    · cases received with
      | failed => exact .outward teardown_outward
      | eof => exact .outward (onNet_outward Net.lingerDone_grows.onwards)
      | bytes chunk => exact .outward (postRecv_outward postOk)
    split
    · exact .refl _
    rename_i hclosing
    cases received with
    | failed => exact .outward teardown_outward
    | eof => exact peerGone_moves _
    | bytes chunk =>
      dsimp only
      split
      · exact (Moves.queued (s.tlsData + 1) s.pumps s.releases s.pumping s.delivered).trans
          (.outward (postRecv_outward postOk))
      rename_i htls
      have hopen : s.tls = none → Conn.shut { s with recvOp := false } = false := by
        intro hplain
        simpa [Conn.shut, he, hplain] using hclosing
      have hrouted := @routePlaintext_moves backend { s with recvOp := false } late chunk
        (by simp [he]) (Bool.and_eq_true_iff.mp h).1 hopen (by
          intro _ _ hshut
          have hplain : s.tls = none := by simpa using htls
          exact absurd ((hopen hplain).symm.trans hshut) (by decide))
      exact (hrouted.trans (queuePump_moves _)).trans (.outward (postRecv_outward postOk))

theorem pumpRequests_moves (ran : Nat) : Moves backend late s (pumpRequests backend ran s) := by
  unfold pumpRequests
  dsimp only
  have hstill : Moves backend late s { s with pumping := none } :=
    .queued s.tlsData s.pumps s.releases none s.delivered
  cases he : s.net.entry with
  | none => exact hstill
  | some entry =>
    dsimp only
    have here : s.net.entry.isSome = true := by rw [he, Option.isSome_some]
    split
    · exact hstill.trans (queuePump_moves _)
    split
    · exact hstill
    rename_i hactive
    have idle : s.http.active = false := by simpa using hactive
    split
    · exact hstill
    rename_i req rest hpending
    split
    · rename_i hbad
      exact .of (.refused here idle hpending hbad)
    · rename_i hgood
      exact .of (.started (some (ran + 1)) here idle hpending (by simpa using hgood))

/-- A WebSocket's connection ends with it. -/
def HttpConn.Session (c : HttpConn) : Prop :=
  c.ws.isSome = true → c.response.keepAlive = false ∧ (c.active = true ∨ c.pending = [])

/-- Where a request that ends has an interim response go out late. -/
def Conn.Due (late : Prop) (s : Conn) : Prop :=
  s.tls.isSome = true → s.shut = true → s.http.continuesLater = true → late

/-- The same, of request `k` where it is the one that runs. -/
def Conn.DueOf (late : Prop) (k : Nat) (s : Conn) : Prop :=
  s.net.entry.isSome = true → s.http.owns k = true → s.Due late

theorem enqueueRaw_kept (data : Bytes) (net : NetState) :
    Net.EntryKept backend net (Net.httpEnqueueRaw backend data net) := by
  unfold Net.httpEnqueueRaw
  split
  · exact .refl backend net
  cases he : net.entry with
  | none => exact .gone he he
  | some entry =>
    dsimp only
    split
    · exact .refl backend net
    · apply (Net.afterQueue_kept _).of_entry he rfl
      rw [Net.queueOwned_eq]

/-- Bytes on the wire mark nothing. -/
theorem enqueueRaw_unshut {data : Bytes} (hopen : s.shut = false)
    (here : (s.onNet (Net.httpEnqueueRaw backend data)).net.entry ≠ none) :
    (s.onNet (Net.httpEnqueueRaw backend data)).shut = false := by
  obtain ⟨entry, he, hclosing⟩ := Conn.open_entry hopen
  have htls : s.tls.any (·.closeAfter) = false := (Bool.or_eq_false_iff.mp hopen).2
  apply Bool.or_eq_false_iff.mpr
  refine ⟨?_, htls⟩
  cases @enqueueRaw_kept backend data s.net with
  | gone was is => exact absurd is here
  | kept was is closing =>
    rename_i entry₁ entry'
    obtain rfl := Option.some.inj (he.symm.trans was)
    rw [show (s.onNet (Net.httpEnqueueRaw backend data)).net.entry = some entry' from is]
    exact closing.trans hclosing
  | ended was is why => exact absurd is here

/-- A flush closes only what was to close. -/
theorem tlsFlushConn_unshut {sealing : Sealed} (hopen : s.shut = false)
    (here : (tlsFlushConn backend sealing s).net.entry ≠ none) :
    (tlsFlushConn backend sealing s).shut = false := by
  unfold tlsFlushConn at here ⊢
  split
  · rename_i entry tls he htls
    rw [he, htls] at here
    dsimp only at here
    have hmark : tls.closeAfter = false := by
      have hmarks := (Bool.or_eq_false_iff.mp hopen).2
      rwa [htls] at hmarks
    have hopen' : Conn.shut { s with tls := some { tls with
        staged := tls.staged.drop sealing.consumed } } = false := by
      simpa [Conn.shut, htls] using hopen
    split at here
    · rename_i handshaking
      rw [if_pos handshaking]
      exact hopen
    · rename_i handshaking
      rw [if_neg handshaking]
      rw [if_pos (.inr (by simp [hmark]))] at here ⊢
      exact enqueueRaw_unshut hopen' here
  · exact hopen

theorem httpEnqueue_http (origin : Origin) (data : Bytes) :
    (httpEnqueue backend origin data s).http = s.http := by
  obtain ⟨fresh, -, h⟩ := @httpEnqueue_outward backend s origin data
  exact h.http

theorem httpEnqueue_gone (origin : Origin) (data : Bytes) (h : s.net.entry = none) :
    httpEnqueue backend origin data s = s := by
  unfold httpEnqueue
  rw [h]

theorem wsEnd_http (status : Nat) (reason : String) (code : Nat) (why : String) :
    (wsEnd backend status reason code why s).http.response = s.http.response ∧
      (wsEnd backend status reason code why s).http.active = s.http.active := by
  unfold wsEnd
  split
  · rw [httpCloseAfterWrite_outward.http, httpEnqueue_http]
    exact ⟨rfl, rfl⟩
  · exact ⟨rfl, rfl⟩

theorem finishRequest_moves (postOk : Bool) (active : s.http.active = true)
    (answered : s.http.response.resp = .done ∨ s.http.closes = true) (due : s.Due late) :
    Moves backend late s (finishRequest backend postOk s) := by
  cases he : s.net.entry with
  | none =>
    unfold finishRequest
    rw [he]
  | some entry => exact .of (.finished postOk (by rw [he, Option.isSome_some]) active answered due)

/-- The end of a WebSocket's session. -/
theorem wsEnded_moves (status : Nat) (reason : String) (code : Nat) (why : String) (postOk : Bool)
    (active : s.http.active = true) (hkeep : s.http.response.keepAlive = false) :
    Moves backend late s
      (finishRequest backend postOk (wsEnd backend status reason code why s)) := by
  obtain ⟨hresponse, hactive⟩ := @wsEnd_http backend s status reason code why
  have hcloses : (wsEnd backend status reason code why s).http.closes = true := by
    simp [HttpConn.closes, hresponse, hkeep]
  apply (wsEnd_moves status reason code why).trans
  apply finishRequest_moves postOk (hactive.trans active) (.inr hcloses)
  intro _ _ hlater
  simp [HttpConn.continuesLater, hcloses] at hlater

theorem owns_active {k : Nat} {c : HttpConn} (h : c.owns k = true) : c.active = true :=
  (Bool.and_eq_true_iff.mp h).1

theorem failRequest_moves (k : Nat) (postOk : Bool) (session : s.http.Session)
    (due : s.DueOf late k) :
    Moves backend late s (failRequest backend k postOk s) := by
  unfold failRequest
  split
  · exact .refl s
  rename_i howns
  obtain ⟨hthere, howns⟩ := not_or.mp howns
  have here : s.net.entry.isSome = true := by simpa [Option.isSome_iff_ne_none] using hthere
  have active := owns_active (not_not.mp howns)
  split
  · rename_i hws
    exact wsEnded_moves 500 _ 1011 _ postOk active (session hws).1
  rename_i hws
  split
  · rename_i hdone
    exact finishRequest_moves postOk active (.inl hdone) (due here (not_not.mp howns))
  · rename_i hidle
    exact .of (.failed here active (by simpa using hws) hidle)
  · exact .outward teardown_outward

theorem onCoroFinished_moves (k : Nat) (postOk : Bool) (session : s.http.Session)
    (due : s.DueOf late k) : Moves backend late s (onCoroFinished backend k postOk s) := by
  unfold onCoroFinished
  split
  · exact .refl s
  rename_i howns
  obtain ⟨hthere, howns⟩ := not_or.mp howns
  have here : s.net.entry.isSome = true := by simpa [Option.isSome_iff_ne_none] using hthere
  have active := owns_active (not_not.mp howns)
  split
  · rename_i hws
    exact wsEnded_moves 403 _ 1000 _ postOk active (session hws).1
  split
  · rename_i hanswered
    apply finishRequest_moves postOk active _ (due here (not_not.mp howns))
    exact hanswered.imp_right fun hgone => by simp [HttpConn.closes, hgone]
  · exact failRequest_moves k postOk session due

theorem ended_moves (k : Nat) : Moves backend late s (ended k s) :=
  .quiet (.of_rest rfl rfl id rfl)

theorem settle_moves (k : Nat) (outcome : Outcome) (postOk : Bool) (session : s.http.Session)
    (due : s.DueOf late k) : Moves backend late s (settle backend k outcome postOk s) := by
  have hended : Conn.DueOf late k (ended k s) := due
  unfold settle
  split
  · split
    · rename_i h
      obtain ⟨here, h⟩ := h
      simp only [HttpConn.releasable, Bool.and_eq_true, decide_eq_true_eq] at h
      exact finishRequest_moves postOk (owns_active h.1.1) (.inl h.1.2) (due here h.1.1)
    · exact .refl s
  · exact (ended_moves k).trans (onCoroFinished_moves k postOk session hended)
  · exact (ended_moves k).trans (failRequest_moves k postOk session hended)

theorem unpumped_moves : Moves backend late s { s with pumping := none } :=
  .queued s.tlsData s.pumps s.releases none s.delivered

theorem stepped_moves (outcome : Outcome) (postOk : Bool) (ran : Nat) (session : s.http.Session)
    (due : s.DueOf late s.http.started) : Moves backend late s (stepped backend outcome postOk ran s) := by
  have hsettled := @settle_moves backend s late s.http.started outcome postOk session due
  unfold stepped
  dsimp only
  split
  · split
    · exact hsettled.trans unpumped_moves
    · exact hsettled.trans (pumpRequests_moves ran)
  · exact hsettled.trans unpumped_moves
  · exact hsettled.trans (pumpRequests_moves ran)

theorem task_moves (task : Option Nat) :
    Moves backend late s { s with http := { s.http with task } } :=
  .quiet (.of_rest rfl rfl id rfl)

theorem spawned_moves (ok postOk : Bool) (session : s.http.Session)
    (due : ok = false → s.DueOf late s.http.started) : Moves backend late s (spawned backend ok postOk s) := by
  unfold spawned
  dsimp only
  split
  · exact unpumped_moves.trans (task_moves _)
  · rename_i hfailed
    have due := due (by simpa using hfailed)
    exact unpumped_moves.trans ((ended_moves _).trans (failRequest_moves _ postOk session due))

theorem woken_moves (k : Nat) (outcome : Outcome) (postOk : Bool) (session : s.http.Session)
    (due : s.DueOf late k) : Moves backend late s (woken backend k outcome postOk s) := by
  have hsettled := @settle_moves backend s late k outcome postOk session due
  unfold woken
  dsimp only
  split
  · exact hsettled
  · exact hsettled.trans (queuePump_moves _)

theorem releaseRequest_moves (k : Nat) (postOk : Bool) (due : s.DueOf late k) :
    Moves backend late s (releaseRequest backend k postOk s) := by
  unfold releaseRequest
  split
  · rename_i h
    obtain ⟨here, h⟩ := h
    simp only [HttpConn.releasable, Bool.and_eq_true, decide_eq_true_eq] at h
    have hfinished : Moves backend late { s with http := { s.http with task := none } }
        (finishRequest backend postOk { s with http := { s.http with task := none } }) :=
      finishRequest_moves postOk (owns_active h.1.1) (.inl h.1.2) (due here h.1.1)
    exact ((task_moves none).trans hfinished).trans (pumpRequests_moves 0)
  · exact .refl s

theorem taskDone_moves (k : Nat) (failed postOk : Bool) (session : s.http.Session)
    (due : s.DueOf late k) : Moves backend late s (taskDone backend k failed postOk s) := by
  unfold taskDone
  dsimp only
  generalize (if s.http.task = some k then none else s.http.task) = task
  have hsettled := @settle_moves backend { s with http := { s.http with task } } late k
    (if failed then .raised else .returned) postOk session due
  exact ((task_moves task).trans hsettled).trans (pumpRequests_moves 0)

theorem onReceive_moves (k : Nat) : Moves backend late s (onReceive k s) := by
  have hquiet := HttpConn.receive_quiet k s.http
  unfold onReceive
  split
  · rename_i delivery c heq
    rw [heq] at hquiet
    exact .of (.quiet c s.tlsData s.pumps s.releases s.pumping _ hquiet)
  · rename_i c heq
    rw [heq] at hquiet
    exact .quiet hquiet

theorem onPutBack_moves (body : Bytes) : Moves backend late s (onPutBack body s) := by
  have hquiet := HttpConn.putBack_quiet body s.http
  unfold onPutBack
  split
  · rename_i waiter c heq
    rw [heq] at hquiet
    exact .of (.quiet c s.tlsData s.pumps s.releases s.pumping _ hquiet)
  · rename_i c heq
    rw [heq] at hquiet
    exact .quiet hquiet

theorem httpSend_moves {k : Nat} (unixSecs : Nat) (msg : Http.Message) (handed : s.http.handed ≠ []) :
    Moves backend late s (httpSend backend k unixSecs msg s) := by
  unfold httpSend
  dsimp only
  have hquiet : s.http.Quiet { s.http with
      response := (Http.processSend unixSecs s.http.response msg).conn } := by
    constructor
    · rfl
    · exact Http.processSend_keepAlive
    · intro hdone
      show (Http.processSend unixSecs s.http.response msg).conn.resp = .done
      rw [Http.processSend_done hdone, hdone]
    · exact fun hnone => absurd hnone handed
    · rfl
    · exact id
  have hset : Moves backend late s { s with
      delivered := s.delivered ++
        (Http.processSend unixSecs s.http.response msg).released.map fun k => (k, .disconnect)
      http := { s.http with response := (Http.processSend unixSecs s.http.response msg).conn } } :=
    .of (.quiet _ s.tlsData s.pumps s.releases s.pumping _ hquiet)
  have hsent := hset.trans (@frames_moves backend _ late (fun _ => .request k) (by simp)
    (Http.processSend unixSecs s.http.response msg).enqueued)
  split
  · exact hsent.trans (.queued _ _ _ _ _)
  · exact hsent

/-- The plaintext of a TLS chunk comes to the parser, where the connection is still there then. -/
def Unsealed.routes (unsealed : Unsealed) (s : Conn) : Bool :=
  s.net.entry.isSome && s.tls.any (fun tls => !tls.handshaking || unsealed.handshaken) &&
    !unsealed.chunk.data.isEmpty && s.http.ws.isNone && s.http.deferredError.isNone

theorem tlsIngest_moves {unsealed : Unsealed} (sealing : Sealed)
    (follows : unsealed.chunk.follows s = true)
    (due : unsealed.routes s = true → s.shut = true ∨ unsealed.closeNotify = true →
      s.http.continuesNow unsealed.chunk.data unsealed.chunk.run = true → late) :
    Moves backend late s (tlsIngest backend unsealed sealing s) := by
  unfold tlsIngest
  split
  · rename_i entry tls he htls
    split
    · exact .outward (enqueueRaw_outward _)
    rename_i hhandshake
    dsimp only
    have hshaken := tls_outward htls { tls with handshaking := false } s.tlsFlushes id
    have hshakenOpen : s.shut = false →
        Conn.shut { s with tls := some { tls with handshaking := false } } = false := by
      intro hopen
      simpa [Conn.shut, htls] using hopen
    generalize ({ s with tls := some { tls with handshaking := false } } : Conn) = s₁
      at hshaken hshakenOpen ⊢
    have hnotified : Outward s₁ (if unsealed.closeNotify then httpCloseAfterWrite s₁ else s₁) ∧
        (unsealed.closeNotify = false →
          (if unsealed.closeNotify then httpCloseAfterWrite s₁ else s₁) = s₁) := by
      split
      · rename_i hnotify
        exact ⟨httpCloseAfterWrite_outward, fun hnone => absurd (hnone.symm.trans hnotify) (by decide)⟩
      · exact ⟨.refl s₁, fun _ => rfl⟩
    generalize (if unsealed.closeNotify then httpCloseAfterWrite s₁ else s₁) = s₂ at hnotified ⊢
    have hanswered := @enqueueRaw_outward backend s₂ unsealed.records
    have hansweredOpen := @enqueueRaw_unshut backend s₂ unsealed.records
    generalize s₂.onNet (Net.httpEnqueueRaw backend unsealed.records) = s₃
      at hanswered hansweredOpen ⊢
    have hflushed : Outward s₃ (if s₃.staged = [] then s₃ else tlsFlushConn backend sealing s₃) ∧
        (s₃.shut = false →
          (if s₃.staged = [] then s₃ else tlsFlushConn backend sealing s₃).net.entry ≠ none →
          (if s₃.staged = [] then s₃ else tlsFlushConn backend sealing s₃).shut = false) := by
      split
      · exact ⟨.refl s₃, fun hopen _ => hopen⟩
      · exact ⟨tlsFlushConn_outward sealing, tlsFlushConn_unshut⟩
    generalize (if s₃.staged = [] then s₃ else tlsFlushConn backend sealing s₃) = s₄ at hflushed ⊢
    have houtward : Outward s s₄ :=
      ((hshaken.trans hnotified.1).trans hanswered).trans hflushed.1
    split
    · exact .outward houtward
    rename_i hrest
    have here : s₄.net.entry ≠ none := by
      intro hnone
      exact hrest (.inr (by rw [hnone, Option.isNone_none]))
    have hrouted := @routePlaintext_moves backend s₄ late unsealed.chunk
      (Option.isSome_iff_ne_none.mpr here)
      (by
        unfold Chunk.follows
        rw [houtward.http]
        exact follows)
      (by
        intro hplain
        have hsecure := houtward.secure
        rw [hplain, htls] at hsecure
        exact absurd hsecure Bool.false_ne_true)
      (by
        intro noSession alive hshut hnow
        rw [houtward.http] at noSession alive hnow
        have hroutes : unsealed.routes s = true := by
          have hdata : unsealed.chunk.data ≠ [] := fun hnone => hrest (.inl hnone)
          have hshaken : (!tls.handshaking || unsealed.handshaken) = true := by
            simpa [imp_iff_not_or] using hhandshake
          simp [Unsealed.routes, he, htls, hshaken, hdata, noSession, alive]
        apply due hroutes _ hnow
        -- what is shut here was shut, or is by the peer's close_notify
        by_contra hneither
        obtain ⟨hopen, hnotify⟩ := not_or.mp hneither
        have hopen : s.shut = false := by simpa using hopen
        have hsame := hnotified.2 (by simpa using hnotify)
        have hopen₂ : s₂.shut = false := hsame ▸ hshakenOpen hopen
        have here₃ : s₃.net.entry ≠ none := fun hnone => here (hflushed.1.gone hnone)
        have hopen₄ := hflushed.2 (hansweredOpen hopen₂ here₃) here
        exact absurd (hshut.symm.trans hopen₄) (by decide))
    have hfed := (Moves.outward houtward).trans hrouted
    split
    · exact hfed.trans (pumpRequests_moves 0)
    · exact hfed
  · exact .refl s

theorem expire_moves (phase : SweepPhase) (elapsed : Nat) :
    Moves backend late s (expire backend phase elapsed s) := by
  unfold expire
  cases phase with
  | idle =>
    dsimp only
    split
    · exact .outward teardown_outward
    · exact .refl s
  | head =>
    dsimp only
    split
    · split
      · exact .outward teardown_outward
      · exact (Moves.wrote .timeout _ (by decide)).trans (.outward httpCloseAfterWrite_outward)
    · exact .refl s
  | busy => exact .refl s
  | dead =>
    dsimp only
    generalize (if 0 < s.http.idleTimeoutNs then s.http.idleTimeoutNs
      else disconnectedReclaimFallbackNs) = deadline
    split
    · exact .outward teardown_outward
    · exact .refl s

theorem httpSweep_moves (nowNs : Nat) : Moves backend late s (httpSweep backend nowNs s) := by
  unfold httpSweep
  split
  · exact .refl s
  split
  · exact .outward teardown_outward
  split
  · exact .refl s
  dsimp only
  split
  · exact .quiet (.of_rest rfl rfl id rfl)
  · have hseen : Moves backend late s { s with http := { s.http with
        sweepSeen := s.http.activity } } := .quiet (.of_rest rfl rfl id rfl)
    exact hseen.trans (expire_moves _ _)

theorem httpBeginShutdown_moves (parked : Bool) :
    Moves backend late s (httpBeginShutdown backend parked s) := by
  unfold httpBeginShutdown
  split
  · exact .refl s
  split
  · exact .refl s
  dsimp only
  have hended : Moves backend late s { s with http := { s.http with
      response := { s.http.response with keepAlive := false } } } :=
    .quiet ⟨rfl, fun h => absurd h Bool.false_ne_true, id, fun _ => rfl, rfl, id⟩
  split
  · rename_i ws hws
    split
    · have hmarked : Moves backend late s (setSession true true
          (httpEnqueue backend s.current (Http.closeFrame 1012 "server shutdown") { s with
            http := { s.http with response := { s.http.response with keepAlive := false } } })) := by
        apply (hended.trans (.wrote s.current _ (current_ne s))).trans
        apply session_moves
        rw [httpEnqueue_http, hws, Option.isSome_some]
      split
      · exact hmarked
      · exact hmarked.trans (.outward httpCloseAfterWrite_outward)
    · exact hended
  · split
    · exact hended
    · exact hended.trans (.outward teardown_outward)

end operations

/-! ## 6. An event -/

/-- The request whose end an event can be. -/
def Conn.ending (s : Conn) : Event → Option Nat
  | .stepped outcome _ =>
    if s.pumping.isSome ∧ (s.http.eager ∨ outcome = .raised ∨ outcome = .exited) then
      some s.http.started
    else none
  | .spawned ok _ =>
    if s.pumping.isSome ∧ ¬ s.http.eager ∧ ¬ ok then some s.http.started else none
  | .woken k _ _ => if s.http.eager ∧ k ∈ s.http.coros then some k else none
  | .taskDone k _ _ => if ¬ s.http.eager ∧ k ∈ s.http.coros then some k else none
  | .release _ => s.releases.head?
  | _ => none

/-- An interim response becomes due on a TLS connection that is shut: plaintext still comes in behind
the mark, or the request that runs, and is kept alive, ends behind it. -/
def Conn.late (s : Conn) (event : Event) : Bool :=
  (s.pumping.isNone || event.inStep) && match event with
    | .tlsData unsealed sealing =>
      0 < s.tlsData && decide (sealing.Valid s) && unsealed.chunk.follows s && unsealed.routes s &&
        (s.shut || unsealed.closeNotify) &&
        s.http.continuesNow unsealed.chunk.data unsealed.chunk.run
    | event => s.net.entry.isSome && s.tls.isSome && s.shut &&
        (s.ending event).any (s.http.owns ·) && s.http.continuesLater

theorem due_of_ending {event : Event} {k : Nat} (hrun : (s.pumping.isNone || event.inStep) = true)
    (hending : s.ending event = some k) : s.DueOf (s.late event = true) k := by
  intro here howns htls hshut hlater
  unfold Conn.late
  rw [hrun, Bool.true_and]
  cases event with
  | tlsData unsealed sealing => exact absurd hending (by simp [Conn.ending])
  | _ =>
    dsimp only
    rw [here, htls, hshut, hending, Option.any_some, howns, hlater]
    rfl

/-- Whether the event is a receive that completes. -/
def Event.isRecv : Event → Bool
  | .recvDone _ _ => true
  | _ => false

theorem onRecvDone_reads (received : Received) (postOk : Bool) (hlingers : s.Lingers) :
    (onRecvDone backend received postOk s).Reads := by
  unfold onRecvDone
  dsimp only
  cases he : s.net.entry with
  | none =>
    apply Conn.reads_of_shut
    exact Conn.shut_of_gone he
  | some entry =>
    dsimp only
    split
    · rename_i hlingering
      have hshut : Conn.shut { s with recvOp := false } = true :=
        Conn.shut_of_closing he (hlingers entry he hlingering)
      apply Conn.reads_of_shut
      cases received with
      | failed => exact teardown_shut _
      | eof => exact (onNet_outward Net.lingerDone_grows.onwards).shut hshut
      | bytes chunk => exact (postRecv_outward postOk).shut hshut
    split
    · rename_i hclosing
      exact Conn.reads_of_shut (Conn.shut_of_closing he hclosing)
    cases received with
    | failed => exact Conn.reads_of_shut (teardown_shut _)
    | eof =>
      unfold peerGone
      dsimp only
      split
      · exact Conn.reads_of_shut (teardown_shut _)
      · intro _ hhere
        exact absurd hhere Bool.true_eq_false_eq_False
    | bytes chunk =>
      dsimp only
      split
      · exact postRecv_reads _ _
      · exact postRecv_reads _ _

theorem held_outward (s : Conn) : Outward s { s with readingPaused := true } :=
  ⟨rfl, id, id, fun _ _ _ hheld => absurd hheld Bool.true_eq_false_eq_False, id, rfl⟩

theorem handle_moves (event : Event) (session : s.http.Session) (hrecv : event.isRecv = false)
    (hrun : (s.pumping.isNone || event.inStep) = true) :
    Moves backend (s.late event = true) s (handle backend s event) := by
  unfold handle
  cases event with
  | recvDone received postOk => exact absurd hrecv Bool.true_eq_false_eq_False
  | sendDone =>
    apply Moves.outward
    exact onNet_outward Net.onSendDone_onwards
  | flushCorked => exact .outward (onNet_outward Net.flushCorked_grows.onwards)
  | tick nowNs flushImmediately => exact .outward (tick_outward nowNs flushImmediately)
  | teardown => exact .outward teardown_outward
  | readPause paused postOk =>
    dsimp only
    split
    · exact .refl s
    split
    · exact .outward (held_outward s)
    · exact .outward (unheld_outward postOk)
  | tlsData unsealed sealing =>
    dsimp only
    split
    · rename_i h
      have htaken : Moves backend (s.late (.tlsData unsealed sealing) = true) s
          { s with tlsData := s.tlsData - 1 } :=
        .queued (s.tlsData - 1) s.pumps s.releases s.pumping s.delivered
      apply htaken.trans
      apply tlsIngest_moves (s := { s with tlsData := s.tlsData - 1 }) sealing h.2.2
      intro hroutes hshut hnow
      have hroutes : unsealed.routes s = true := hroutes
      have hmarked : (s.shut || unsealed.closeNotify) = true := Bool.or_eq_true_iff.mpr hshut
      have hnow : s.http.continuesNow unsealed.chunk.data unsealed.chunk.run = true := hnow
      unfold Conn.late
      rw [hrun, Bool.true_and]
      dsimp only
      rw [decide_eq_true h.1, decide_eq_true h.2.1, h.2.2, hroutes, hmarked, hnow]
      rfl
    · exact .refl s
  | tlsFlush sealing =>
    dsimp only
    split
    · have hflushed := @tlsFlushConn_outward backend { s with tlsFlushes := s.tlsFlushes - 1 } sealing
      apply Moves.outward
      exact ⟨hflushed.rest, hflushed.gone, hflushed.shut, hflushed.reads, hflushed.lingers,
        hflushed.secure⟩
    · exact .refl s
  | pump =>
    dsimp only
    split
    · exact (Moves.queued s.tlsData (s.pumps - 1) s.releases s.pumping s.delivered).trans
        (pumpRequests_moves 0)
    · exact .refl s
  | release postOk =>
    dsimp only
    split
    · exact .refl s
    · rename_i k rest hreleases
      have hending : s.ending (.release postOk) = some k := by simp [Conn.ending, hreleases]
      have htaken : Moves backend (s.late (.release postOk) = true) s { s with releases := rest } :=
        .queued s.tlsData s.pumps rest s.pumping s.delivered
      exact htaken.trans (releaseRequest_moves k postOk (due_of_ending hrun hending))
  | stepped outcome postOk =>
    dsimp only
    split
    · exact .refl s
    rename_i ran hpumping
    split
    · rename_i h
      exact stepped_moves outcome postOk _ session
        (due_of_ending hrun (if_pos ⟨by rw [hpumping, Option.isSome_some], h⟩))
    · exact .refl s
  | spawned ok postOk =>
    dsimp only
    split
    · rename_i h
      apply spawned_moves ok postOk session
      intro hfailed
      exact due_of_ending hrun (if_pos ⟨h.1, h.2, by simp [hfailed]⟩)
    · exact .refl s
  | woken k outcome postOk =>
    dsimp only
    split
    · rename_i h
      exact woken_moves k outcome postOk session (due_of_ending hrun (if_pos h))
    · exact .refl s
  | taskDone k failed postOk =>
    dsimp only
    split
    · rename_i h
      exact taskDone_moves k failed postOk session (due_of_ending hrun (if_pos h))
    · exact .refl s
  | receive k =>
    dsimp only
    split
    · exact onReceive_moves k
    · exact .refl s
  | abandon k => exact .quiet (HttpConn.Quiet.waiters s.http _)
  | putBack k body =>
    dsimp only
    split
    · exact onPutBack_moves body
    · exact .refl s
  | send k unixSecs msg =>
    dsimp only
    split
    · rename_i h
      apply httpSend_moves
      intro hnone
      simp [Conn.calls, hnone] at h
    · exact .refl s
  | wsSend k msg =>
    dsimp only
    split
    · exact wsSend_moves msg
    · exact .refl s
  | sweep nowNs => exact httpSweep_moves nowNs
  | shutdown parked => exact httpBeginShutdown_moves parked

/-- An event is a chain of moves; a receive that completes is off the connection first, and what comes
of it reads again. -/
theorem connStep_moves (event : Event) (session : s.http.Session) :
    Moves backend (s.late event = true) s (connStep backend s event) ∨
      Moves backend (s.late event = true) { s with recvOp := false } (connStep backend s event) ∧
        (s.Lingers → (connStep backend s event).Reads) := by
  unfold connStep
  split
  · exact .inl (.refl s)
  by_cases hrecv : event.isRecv = true
  · cases event <;> simp only [Event.isRecv, Bool.false_eq_true] at hrecv
    unfold handle
    dsimp only
    split
    · rename_i h
      exact .inr ⟨onRecvDone_moves h.2 _, onRecvDone_reads _ _⟩
    · exact .inl (.refl s)
  · rename_i hrun
    exact .inl (handle_moves event session (by simpa using hrecv)
      (by cases hp : s.pumping <;> simp_all))

end Cadeloop.Pyshim.Pipeline
