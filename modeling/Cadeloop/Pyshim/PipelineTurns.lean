import Cadeloop.Pyshim.PipelineSteps

/-!
# What a chunk, and the end of a request, do to a connection

Each of the two moves that decide much has few outcomes.  They are listed here once, and what the
connection keeps of itself whatever happens.
-/

namespace Cadeloop.Pyshim.Pipeline

open Cadeloop.Reasoning
open Core.Http (Execution ParseError Request)
open Net (Backend NetState TransportEntry)

variable {backend : Backend} {s s' : Conn}

/-! ## 1. A chunk -/

/-- The connection behind a chunk that the parser took. -/
def HttpConn.took (data : Bytes) (run : Execution) (trailing : Bytes) (c : HttpConn) : HttpConn :=
  { (c.fedBy data run).owesTaken with
    wsTrailing := trailing
    pipelinePaused := c.pipelinePaused || (c.fedBy data run).pipelineFull }

variable (backend) in
inductive Ingested (chunk : Chunk) (s : Conn) : Conn → Prop where
  -- too much behind an upgrade
  | dropped (trailing : Bytes) : Ingested chunk s (teardown { s with
      http := { (s.http.fedBy chunk.data chunk.run).owesTaken with wsTrailing := trailing } })
  -- a parse error is answered at once, or behind the requests before it
  | answered (e : ParseError) : Ingested chunk s
      (httpCloseAfterWrite (httpEnqueue backend .refusal
        (errorBytes e (s.http.fedBy chunk.data chunk.run).seenMinor)
        { s with http := s.http.fedBy chunk.data chunk.run }))
  | parked (resp : Bytes) (behind : s.http.active = true ∨
      (s.http.fedBy chunk.data chunk.run).pending ≠ []) :
      Ingested chunk s { s with http := { s.http.fedBy chunk.data chunk.run with
        deferredError := some resp } }
  | took {offset : Option Nat} (trailing : Bytes)
      (ok : (s.http.parser.feed chunk.data.length chunk.run).2 = .ok offset)
      (owes : (s.http.fedBy chunk.data chunk.run).parser.acc.owesContinue = false) :
      Ingested chunk s { s with http := s.http.took chunk.data chunk.run trailing }
  | deferred {offset : Option Nat} (trailing : Bytes)
      (ok : (s.http.parser.feed chunk.data.length chunk.run).2 = .ok offset)
      (owes : (s.http.fedBy chunk.data chunk.run).parser.acc.owesContinue = true)
      (behind : s.http.active = true ∨ (s.http.fedBy chunk.data chunk.run).pending ≠ []) :
      Ingested chunk s { s with http := { s.http.took chunk.data chunk.run trailing with
        continueDeferred := true } }
  | continued {offset : Option Nat} (trailing : Bytes)
      (ok : (s.http.parser.feed chunk.data.length chunk.run).2 = .ok offset)
      (owes : (s.http.fedBy chunk.data chunk.run).parser.acc.owesContinue = true)
      (idle : s.http.active = false) (empty : (s.http.fedBy chunk.data chunk.run).pending = [])
      (now : s.http.continuesNow chunk.data chunk.run = true) :
      Ingested chunk s (sendContinue backend { s with
        http := s.http.took chunk.data chunk.run trailing })

/-- What a chunk leaves alone. -/
theorem HttpConn.fedBy_rest (data : Bytes) (run : Execution) (c : HttpConn) :
    (c.fedBy data run).active = c.active ∧ (c.fedBy data run).deferredError = c.deferredError ∧
      (c.fedBy data run).pipelinePaused = c.pipelinePaused := by
  rw [(fedBy_feeds data run c).rest]
  exact ⟨rfl, rfl, rfl⟩

theorem HttpConn.continuesNow_fedBy {data : Bytes} {run : Execution} {c : HttpConn}
    {offset : Option Nat} (h : (c.parser.feed data.length run).2 = .ok offset) :
    c.continuesNow data run = ((c.fedBy data run).parser.acc.owesContinue && !c.active &&
      (c.fedBy data run).pending.isEmpty &&
      !(HttpConn.keepTrailing data offset (c.fedBy data run)).1) := by
  have howes : (c.fedBy data run).parser.acc.owesContinue =
      (c.parser.feed data.length run).1.acc.owesContinue := by
    unfold fedBy
    dsimp only
    rw [takeRequests_eq _ rfl, dropContinue_eq]
    rfl
  have hkept : (HttpConn.keepTrailing data offset (c.fedBy data run)).1 =
      (HttpConn.keepTrailing data offset c).1 := by
    have htrailing : (c.fedBy data run).wsTrailing = c.wsTrailing := by
      unfold fedBy
      dsimp only
      rw [takeRequests_eq _ rfl, dropContinue_eq]
      rfl
    unfold HttpConn.keepTrailing
    rw [htrailing]
    cases offset with
    | none => rfl
    | some offset =>
      dsimp only
      split <;> rfl
  have hempty : (c.fedBy data run).pending.isEmpty =
      ((c.parser.feed data.length run).1.acc.completed.isEmpty && c.pending.isEmpty) := by
    rw [(fedBy_feeds data run c).rest]
    cases c.pending <;> simp
  unfold continuesNow
  rw [show c.parser.feed data.length run = ((c.parser.feed data.length run).1, .ok offset) from
    Prod.ext rfl h, howes, hkept, hempty]
  simp only [Bool.and_assoc, Bool.and_left_comm]

theorem ingest_ingested (chunk : Chunk) (alive : s.http.deferredError = none) :
    Ingested backend chunk s (ingest backend chunk s).2 := by
  obtain ⟨hactive, hparked, hpaused⟩ := HttpConn.fedBy_rest chunk.data chunk.run s.http
  cases hfeed : (s.http.parser.feed chunk.data.length chunk.run).2 with
  | error e =>
    unfold ingest
    rw [HttpConn.connFeed_error hfeed]
    unfold connParseFailed
    dsimp only
    rw [if_neg (by rw [hparked, alive]; decide)]
    split
    · rename_i hbehind
      rw [hactive] at hbehind
      exact .parked _ hbehind
    · exact .answered e
  | ok offset =>
    have hnow := HttpConn.continuesNow_fedBy hfeed
    unfold ingest
    rw [HttpConn.connFeed_ok hfeed]
    dsimp only
    generalize HttpConn.keepTrailing chunk.data offset (s.http.fedBy chunk.data chunk.run) = kept
      at hnow ⊢
    split
    · exact .dropped _
    rename_i hfits
    have htook : ∀ trailing : Bytes, { (s.http.fedBy chunk.data chunk.run).owesTaken with
        wsTrailing := trailing
        pipelinePaused := (s.http.fedBy chunk.data chunk.run).pipelinePaused ||
          (s.http.fedBy chunk.data chunk.run).pipelineFull } =
        s.http.took chunk.data chunk.run trailing := by
      intro trailing
      rw [hpaused]
      rfl
    cases howes : (s.http.fedBy chunk.data chunk.run).parser.acc.owesContinue with
    | false =>
      have h : Ingested backend chunk s { s with
          http := s.http.took chunk.data chunk.run kept.2.wsTrailing } := .took _ hfeed howes
      rw [← htook] at h
      exact h
    | true =>
      simp only [if_true]
      unfold HttpConn.continueNowOrLater
      split
      · rename_i hidle
        have hactive' : s.http.active = false := by
          simpa [HttpConn.owesTaken, hactive] using hidle.1
        have hempty : (s.http.fedBy chunk.data chunk.run).pending = [] := hidle.2
        have h : Ingested backend chunk s (sendContinue backend { s with
            http := s.http.took chunk.data chunk.run kept.2.wsTrailing }) := by
          refine .continued _ hfeed howes hactive' hempty ?_
          rw [hnow, howes, hactive', hempty]
          simpa using hfits
        rw [← htook] at h
        exact h
      · rename_i hbehind
        have hbehind' : s.http.active = true ∨
            (s.http.fedBy chunk.data chunk.run).pending ≠ [] := by
          cases hact : s.http.active with
          | true => exact .inl rfl
          | false =>
            right
            intro hempty
            exact hbehind ⟨by simp [HttpConn.owesTaken, hactive, hact], hempty⟩
        have h : Ingested backend chunk s { s with
            http := { s.http.took chunk.data chunk.run kept.2.wsTrailing with
              continueDeferred := true } } := .deferred _ hfeed howes hbehind'
        rw [← htook] at h
        exact h

/-! ## 2. The end of a request -/

/-- The requests behind one that ended and is kept alive. -/
def HttpConn.kept (c : HttpConn) : HttpConn :=
  { c with
    active := false
    reqBody := none
    activity := c.activity + 1
    continueDeferred := c.continueDeferred && !c.pending.isEmpty
    response := { c.response with recvWaiters := [] }
    answered := c.answered + 1 }

/-- Reading goes on once the queue has drained. -/
def HttpConn.resumed (c : HttpConn) : HttpConn :=
  { c with pipelinePaused := c.pipelinePaused && !c.pipelineDrained }

/-- The last request ended, and the head behind it is owed its interim response. -/
def HttpConn.owed (c : HttpConn) : Bool :=
  c.continueDeferred && c.pending.isEmpty && c.parser.expectingBody

variable (backend) in
inductive Finishing (postOk : Bool) (s : Conn) : Conn → Prop where
  | closed (delivered : List (Nat × HttpConn.Delivery)) (closes : s.http.closes = true) :
    Finishing postOk s (httpCloseAfterWrite { s with delivered, http := s.http.finish.2 })
  | refused (delivered : List (Nat × HttpConn.Delivery)) (resp : Bytes)
    (closes : s.http.closes = false) (empty : s.http.pending = [])
    (parked : s.http.deferredError = some resp) :
    Finishing postOk s (httpCloseAfterWrite
      (httpEnqueue backend .refusal resp { s with delivered, http := s.http.finish.2 }))
  | kept (delivered : List (Nat × HttpConn.Delivery)) (closes : s.http.closes = false)
    (owed : s.http.owed = false) (clean : s.http.pending = [] → s.http.deferredError = none) :
    Finishing postOk s (httpResumeReading postOk { s with delivered, http := s.http.kept })
  | continued (delivered : List (Nat × HttpConn.Delivery)) (closes : s.http.closes = false)
    (owed : s.http.owed = true) (clean : s.http.deferredError = none) :
    Finishing postOk s (httpResumeReading postOk
      (sendContinue backend { s with delivered, http := s.http.kept }))

theorem HttpConn.finish_closes {c : HttpConn} (h : c.closes = true) :
    c.finish.2.pending = [] ∧ c.finish.2.pendingBytes = 0 := by simp [HttpConn.finish, h]

/-- The queue stays behind a request that is kept alive. -/
theorem HttpConn.finish_kept {c : HttpConn} (h : c.closes = false)
    (clean : c.pending = [] → c.deferredError = none) :
    c.finish = (none, { c.kept with continueDeferred := c.continueDeferred }) := by
  unfold HttpConn.finish HttpConn.kept
  rw [h]
  by_cases hempty : c.pending = []
  · simp [hempty, clean hempty]
  · simp [hempty]

theorem finishRequest_finishing (postOk : Bool) (here : s.net.entry.isSome = true) :
    Finishing backend postOk s (finishRequest backend postOk s) := by
  obtain ⟨entry, he⟩ := Option.isSome_iff_exists.mp here
  unfold finishRequest
  rw [he]
  dsimp only
  cases hcloses : s.http.closes with
  | true =>
    rw [if_pos rfl]
    exact .closed _ hcloses
  | false =>
    rw [if_neg Bool.false_ne_true]
    by_cases hclean : s.http.pending = [] → s.http.deferredError = none
    · rw [HttpConn.finish_kept hcloses hclean]
      dsimp only
      by_cases hempty : s.http.pending = []
      · have hkept : { s.http.kept with continueDeferred := false } = s.http.kept := by
          simp [HttpConn.kept, hempty]
        have hempty' : s.http.kept.pending = [] := hempty
        rw [if_pos hempty', hkept]
        cases howed : s.http.owed with
        | false =>
          rw [if_neg]
          · exact .kept _ hcloses howed hclean
          · simp only [HttpConn.owed, hempty, List.isEmpty_nil, Bool.and_true] at howed
            simp [HttpConn.kept, hempty]
            simpa using howed
        | true =>
          rw [if_pos]
          · exact .continued _ hcloses howed (hclean hempty)
          · simp only [HttpConn.owed, hempty, List.isEmpty_nil, Bool.and_true, Bool.and_eq_true]
              at howed
            simp [HttpConn.kept, hempty, howed]
      · have hkept : { s.http.kept with continueDeferred := s.http.continueDeferred } =
            s.http.kept := by
          simp [HttpConn.kept, hempty]
        have hnonempty : s.http.kept.pending ≠ [] := hempty
        have howed : s.http.owed = false := by simp [HttpConn.owed, hempty]
        rw [if_neg hnonempty, if_neg (by simp [hnonempty]), hkept]
        exact .kept _ hcloses howed hclean
    · rw [Classical.not_imp] at hclean
      obtain ⟨hempty, hparked⟩ := hclean
      cases hresp : s.http.deferredError with
      | none => exact absurd hresp hparked
      | some resp =>
        have h := @Finishing.refused backend postOk s (s.delivered ++
          s.http.response.recvWaiters.map fun k => (k, .disconnect)) resp hcloses hempty hresp
        have hfirst : s.http.finish.1 = some resp := by simp [HttpConn.finish, hempty, hresp]
        rw [hfirst]
        exact h

theorem httpResumeReading_outward (postOk : Bool) :
    Outward { s with http := s.http.resumed } (httpResumeReading postOk s) := by
  unfold httpResumeReading HttpConn.resumed
  split
  · rename_i h
    rw [h.1, h.2]
    exact postRecv_outward postOk
  · rename_i h
    have hsame : (s.http.pipelinePaused && !s.http.pipelineDrained) = s.http.pipelinePaused := by
      cases hpaused : s.http.pipelinePaused with
      | false => rfl
      | true =>
        cases hdrained : s.http.pipelineDrained with
        | false => rfl
        | true => exact absurd ⟨hpaused, hdrained⟩ h
    rw [hsame]
    exact .refl s

theorem httpResumeReading_reads (postOk : Bool) (h : s.Reads) :
    (httpResumeReading postOk s).Reads := by
  unfold httpResumeReading
  split
  · exact postRecv_reads _ _
  · exact h

/-! ## 3. What any move does to the requests -/

/-- The requests, with what a chunk also decides left open. -/
inductive Turn (c : HttpConn) : HttpConn → Prop where
  | quiet {c' : HttpConn} (h : c.Quiet c') : Turn c c'
  | fed {c₁ c' : HttpConn} {reqs : List Request} (noSession : c.ws = none) (h : c.Feeds c₁ reqs)
    (rest : c' = { c₁ with
      parser := c'.parser, wsTrailing := c'.wsTrailing, pipelinePaused := c'.pipelinePaused,
      continueDeferred := c'.continueDeferred, deferredError := c'.deferredError }) : Turn c c'
  | started {req : Request} {rest : List Request} (idle : c.active = false)
    (queued : c.pending = req :: rest) (good : (c.start req rest).1 = false) :
    Turn c { (c.start req rest).2 with
      handed := c.handed ++ [c.started + 1], coros := c.coros ++ [c.started + 1] }
  | refused {req : Request} {rest : List Request} (idle : c.active = false)
    (queued : c.pending = req :: rest) (bad : (c.start req rest).1 = true) :
    Turn c { (c.start req rest).2 with
      active := false
      response := { (c.start req rest).2.response with keepAlive := false } }
  | finished {c' : HttpConn} (active : c.active = true)
    (rest : c' = { c.finish.2 with
      pipelinePaused := c'.pipelinePaused, continueDeferred := c'.continueDeferred }) : Turn c c'
  | failed {response : Http.HttpConn} (active : c.active = true) (keepAlive : response.keepAlive = false)
    (answered : response.resp = .done) : Turn c { c with response }

theorem Turn.refl (c : HttpConn) : Turn c c := .quiet (.refl c)

theorem sendContinue_http (s : Conn) : (sendContinue backend s).http = s.http := httpEnqueue_http _ _

theorem ingest_turn (chunk : Chunk) (noSession : s.http.ws = none)
    (alive : s.http.deferredError = none) : Turn s.http (ingest backend chunk s).2.http := by
  have hfeeds := HttpConn.fedBy_feeds chunk.data chunk.run s.http
  have hfed : ∀ c' : HttpConn, c' = { s.http.fedBy chunk.data chunk.run with
      parser := c'.parser, wsTrailing := c'.wsTrailing, pipelinePaused := c'.pipelinePaused,
      continueDeferred := c'.continueDeferred, deferredError := c'.deferredError } →
      Turn s.http c' := fun _ rest => .fed noSession hfeeds rest
  have h := @ingest_ingested backend s chunk alive
  generalize (ingest backend chunk s).2 = s' at h ⊢
  cases h with
  | dropped trailing => exact hfed _ rfl
  | answered e =>
    rw [httpCloseAfterWrite_outward.http, httpEnqueue_http]
    exact hfed _ rfl
  | parked resp behind => exact hfed _ rfl
  | took trailing ok owes => exact hfed _ rfl
  | deferred trailing ok owes behind => exact hfed _ rfl
  | continued trailing ok owes idle empty now =>
    rw [sendContinue_http]
    exact hfed _ rfl

theorem finishRequest_turn (postOk : Bool) (here : s.net.entry.isSome = true)
    (active : s.http.active = true) : Turn s.http (finishRequest backend postOk s).http := by
  have hkept : ∀ {c' : HttpConn}, s.http.closes = false →
      (s.http.pending = [] → s.http.deferredError = none) → c' = s.http.kept.resumed →
      Turn s.http c' := by
    intro c' hcloses hclean hc'
    apply Turn.finished active
    rw [HttpConn.finish_kept hcloses hclean, hc']
    rfl
  have h := @finishRequest_finishing backend s postOk here
  generalize finishRequest backend postOk s = s' at h ⊢
  cases h with
  | closed delivered closes =>
    rw [httpCloseAfterWrite_outward.http]
    exact .finished active rfl
  | refused delivered resp closes empty parked =>
    rw [httpCloseAfterWrite_outward.http, httpEnqueue_http]
    exact .finished active rfl
  | kept delivered closes owed clean =>
    exact hkept closes clean (httpResumeReading_outward postOk).http
  | continued delivered closes owed clean =>
    apply hkept closes fun _ => clean
    rw [(httpResumeReading_outward postOk).http]
    show HttpConn.resumed (sendContinue backend _).http = _
    rw [sendContinue_http]

theorem refuseUpgrade_http (req : Request) (rest : List Request) :
    (refuseUpgrade backend req rest s).http = { (s.http.start req rest).2 with
      active := false
      response := { (s.http.start req rest).2.response with keepAlive := false } } := by
  unfold refuseUpgrade
  rw [httpCloseAfterWrite_outward.http, httpEnqueue_http]

theorem refuseUpgrade_shut (req : Request) (rest : List Request) :
    (refuseUpgrade backend req rest s).shut = true := httpCloseAfterWrite_shut _

theorem releaseAfterResponse_keeps (c : Http.HttpConn) :
    (Http.releaseAfterResponse c).1.keepAlive = c.keepAlive ∧
      (Http.releaseAfterResponse c).1.resp = c.resp := by
  unfold Http.releaseAfterResponse
  split <;> exact ⟨rfl, rfl⟩

theorem answerFailure_shut (s : Conn) : (answerFailure backend s).shut = true :=
  httpCloseAfterWrite_shut _

theorem answerFailure_http (s : Conn) : ∃ response : Http.HttpConn, response.keepAlive = false ∧
    response.resp = .done ∧ (answerFailure backend s).http = { s.http with response } := by
  unfold answerFailure releaseAfterResponse
  rw [httpCloseAfterWrite_outward.http, httpEnqueue_http]
  obtain ⟨hkeep, hresp⟩ := releaseAfterResponse_keeps
    { s.http.response with resp := .done, keepAlive := false, logStatus := 500 }
  exact ⟨_, hkeep, hresp, rfl⟩

theorem Move.turn {late : Prop} (h : Move backend late s s') : Turn s.http s'.http := by
  cases h with
  | outward h =>
    rw [h.http]
    exact .refl _
  | wrote origin data h =>
    rw [httpEnqueue_http]
    exact .refl _
  | quiet c tlsData pumps releases pumping delivered h => exact .quiet h
  | fed chunk here follows noSession alive unshut due => exact ingest_turn chunk noSession alive
  | started pumping here idle queued good => exact .started idle queued good
  | refused here idle queued bad =>
    rw [refuseUpgrade_http]
    exact .refused idle queued bad
  | finished postOk here active answered due => exact finishRequest_turn postOk here active
  | failed here active noSession unanswered =>
    obtain ⟨response, hkeep, hresp, hhttp⟩ := @answerFailure_http backend s
    rw [hhttp]
    exact .failed active hkeep hresp

/-! ## 4. What every connection keeps -/

/-- Between requests, with one queued, there is no WebSocket. -/
theorem HttpConn.Session.none {c : HttpConn} {req : Request} {rest : List Request} (h : c.Session)
    (idle : c.active = false) (queued : c.pending = req :: rest) : c.ws = none := by
  cases hws : c.ws with
  | none => rfl
  | some ws =>
    rcases (h (by rw [hws, Option.isSome_some])).2 with hactive | hempty
    · exact absurd (idle.symm.trans hactive) (by decide)
    · exact absurd (queued.symm.trans hempty) (by simp)

theorem session_keeps {c c' : HttpConn} (h : Turn c c') (hsession : c.Session) : c'.Session := by
  intro hws
  cases h with
  | quiet h =>
    rw [h.ws] at hws
    obtain ⟨hkeep, hactive⟩ := hsession hws
    have hsame : c'.active = c.active ∧ c'.pending = c.pending := by
      rw [h.rest]
      exact ⟨rfl, rfl⟩
    constructor
    · by_contra hkept
      exact absurd (hkeep.symm.trans (h.keepAlive (by simpa using hkept))) (by decide)
    · rw [hsame.1, hsame.2]
      exact hactive
  | fed noSession h rest =>
    rw [rest, h.rest] at hws
    have hws : c.ws.isSome = true := hws
    rw [noSession] at hws
    exact absurd hws (by decide)
  | started idle queued good =>
    rename_i req rest
    have hnone := hsession.none idle queued
    refine ⟨?_, .inl rfl⟩
    show (req.keepAlive && !(req.upgrade && wsValidate req)) = false
    by_contra hkept
    have hplain : (req.upgrade && wsValidate req) = false := by
      simp only [Bool.not_eq_false, Bool.and_eq_true, Bool.not_eq_true'] at hkept
      exact hkept.2
    have hsame : (c.start req rest).2.ws = none := by
      simp only [HttpConn.start, hplain]
      exact hnone
    have hws : (c.start req rest).2.ws.isSome = true := hws
    rw [hsame] at hws
    exact absurd hws (by decide)
  | refused idle queued bad =>
    rename_i req rest
    have hnone := hsession.none idle queued
    have hplain : (req.upgrade && wsValidate req) = false := by
      simp only [HttpConn.start, Bool.and_eq_true, Bool.not_eq_true'] at bad
      exact bad.2
    have hsame : (c.start req rest).2.ws = none := by
      simp only [HttpConn.start, hplain]
      exact hnone
    have hws : (c.start req rest).2.ws.isSome = true := hws
    rw [hsame] at hws
    exact absurd hws (by decide)
  | finished active rest =>
    have hsame : c'.ws = c.ws ∧ c'.response.keepAlive = c.response.keepAlive ∧
        c'.pending = if c.closes then [] else c.pending := by
      rw [rest]
      exact ⟨rfl, rfl, rfl⟩
    rw [hsame.1] at hws
    obtain ⟨hkeep, -⟩ := hsession hws
    refine ⟨hsame.2.1.trans hkeep, .inr ?_⟩
    rw [hsame.2.2]
    exact if_pos (by simp [HttpConn.closes, hkeep])
  | failed active keepAlive answered => exact ⟨keepAlive, .inl active⟩

/-- What is counted for the queue is what the queue holds. -/
def HttpConn.Budgeted (c : HttpConn) : Prop := c.pendingBytes = HttpConn.queuedSizes c.pending

theorem budgeted_keeps {c c' : HttpConn} (h : Turn c c') (hbudget : c.Budgeted) : c'.Budgeted := by
  unfold HttpConn.Budgeted at hbudget ⊢
  have hpopped : ∀ {req : Request} {rest : List Request}, c.pending = req :: rest →
      c.pendingBytes - req.queuedSize = HttpConn.queuedSizes rest := by
    intro req rest queued
    rw [hbudget, queued]
    simp [HttpConn.queuedSizes]
  cases h with
  | quiet h =>
    rw [h.rest]
    exact hbudget
  | fed noSession h rest =>
    rw [rest, h.rest]
    show c.pendingBytes + _ = HttpConn.queuedSizes (c.pending ++ _)
    rw [HttpConn.queuedSizes_append, hbudget]
  | started idle queued good => exact hpopped queued
  | refused idle queued bad => exact hpopped queued
  | finished active rest =>
    rw [rest]
    show (if c.closes then 0 else c.pendingBytes) =
      HttpConn.queuedSizes (if c.closes then [] else c.pending)
    split
    · rfl
    · exact hbudget
  | failed active keepAlive answered => exact hbudget

theorem Move.gone {late : Prop} (h : Move backend late s s') (hnone : s.net.entry = none) :
    s'.net.entry = none := by
  have hnot : s.net.entry.isSome = false := by rw [hnone, Option.isSome_none]
  cases h with
  | outward h => exact h.gone hnone
  | wrote origin data h =>
    rw [httpEnqueue_gone _ _ hnone]
    exact hnone
  | quiet c tlsData pumps releases pumping delivered h => exact hnone
  | fed chunk here => exact absurd (hnot.symm.trans here) (by decide)
  | started pumping here => exact absurd (hnot.symm.trans here) (by decide)
  | refused here => exact absurd (hnot.symm.trans here) (by decide)
  | finished postOk here => exact absurd (hnot.symm.trans here) (by decide)
  | failed here => exact absurd (hnot.symm.trans here) (by decide)

/-! ## 5. What closes, reads and lingers -/

/-- What no move undoes. -/
structure Lasting (s s' : Conn) : Prop where
  shut : s.shut = true → s'.shut = true
  reads : s.Reads → s'.Reads
  lingers : s.Lingers → s'.Lingers

theorem Outward.lasting (h : Outward s s') : Lasting s s' := ⟨h.shut, h.reads, h.lingers⟩

theorem Lasting.trans {a b c : Conn} (h : Lasting a b) (h' : Lasting b c) : Lasting a c where
  shut := fun hshut => h'.shut (h.shut hshut)
  reads := fun hreads => h'.reads (h.reads hreads)
  lingers := fun hlingers => h'.lingers (h.lingers hlingers)

/-- A connection that is open was. -/
theorem Lasting.open (h : Lasting s s') (hopen : s'.shut = false) : s.shut = false := by
  cases hs : s.shut with
  | false => rfl
  | true => exact absurd (hopen.symm.trans (h.shut hs)) (by decide)

/-- Only the requests change, and neither a full queue nor the peer's EOF is taken back. -/
theorem lasting_of_http {c : HttpConn} (hpaused : c.pipelinePaused = false → s.http.pipelinePaused = false)
    (hhere : c.disconnected = false → s.http.disconnected = false) : Lasting s { s with http := c } where
  shut := id
  reads := fun hreads hopen here hheld paused => hreads hopen (hhere here) hheld (hpaused paused)
  lingers := id

theorem httpEnqueue_lasting (origin : Origin) (data : Bytes) :
    Lasting s (httpEnqueue backend origin data s) := by
  obtain ⟨fresh, -, h⟩ := @httpEnqueue_outward backend s origin data
  exact ⟨h.shut, h.reads, h.lingers⟩

theorem httpResumeReading_lasting (postOk : Bool) : Lasting s (httpResumeReading postOk s) where
  shut := (httpResumeReading_outward postOk).shut
  reads := httpResumeReading_reads postOk
  lingers := (httpResumeReading_outward postOk).lingers

theorem Ingested.lasting {chunk : Chunk} (h : Ingested backend chunk s s') : Lasting s s' := by
  have hhere : (s.http.fedBy chunk.data chunk.run).disconnected = s.http.disconnected := by
    rw [(HttpConn.fedBy_feeds chunk.data chunk.run s.http).rest]
  have hpaused := (HttpConn.fedBy_rest chunk.data chunk.run s.http).2.2
  have htook : ∀ (trailing : Bytes) (deferred : Bool), Lasting s { s with
      http := { s.http.took chunk.data chunk.run trailing with continueDeferred := deferred } } := by
    intro trailing deferred
    apply lasting_of_http
    · intro hnot
      exact (Bool.or_eq_false_iff.mp hnot).1
    · exact fun here => hhere ▸ here
  have hfed : ∀ parked : Option Bytes, Lasting s { s with
      http := { s.http.fedBy chunk.data chunk.run with deferredError := parked } } :=
    fun _ => lasting_of_http (fun h => hpaused ▸ h) (fun h => hhere ▸ h)
  cases h with
  | dropped trailing =>
    have hset : Lasting s { s with
        http := { (s.http.fedBy chunk.data chunk.run).owesTaken with wsTrailing := trailing } } :=
      lasting_of_http (fun h => hpaused ▸ h) (fun h => hhere ▸ h)
    exact hset.trans teardown_outward.lasting
  | answered e =>
    have hset : Lasting s { s with http := s.http.fedBy chunk.data chunk.run } :=
      lasting_of_http (fun h => hpaused ▸ h) (fun h => hhere ▸ h)
    exact (hset.trans (httpEnqueue_lasting _ _)).trans httpCloseAfterWrite_outward.lasting
  | parked resp behind => exact hfed (some resp)
  | took trailing ok owes => exact htook trailing _
  | deferred trailing ok owes behind => exact htook trailing true
  | continued trailing ok owes idle empty now => exact (htook trailing _).trans (httpEnqueue_lasting _ _)

theorem Finishing.lasting {postOk : Bool} (h : Finishing backend postOk s s') : Lasting s s' := by
  have hset : ∀ (c : HttpConn) (delivered : List (Nat × HttpConn.Delivery)),
      c.pipelinePaused = s.http.pipelinePaused → c.disconnected = s.http.disconnected →
      Lasting s { s with delivered, http := c } := by
    intro c delivered hpaused hhere
    constructor
    · exact id
    · exact fun hreads hopen here hheld paused => hreads hopen (hhere ▸ here) hheld (hpaused ▸ paused)
    · exact id
  cases h with
  | closed delivered closes =>
    exact (hset s.http.finish.2 delivered rfl rfl).trans httpCloseAfterWrite_outward.lasting
  | refused delivered resp closes empty parked =>
    exact ((hset s.http.finish.2 delivered rfl rfl).trans (httpEnqueue_lasting _ _)).trans
      httpCloseAfterWrite_outward.lasting
  | kept delivered closes owed clean =>
    exact (hset s.http.kept delivered rfl rfl).trans (httpResumeReading_lasting postOk)
  | continued delivered closes owed clean =>
    exact ((hset s.http.kept delivered rfl rfl).trans (httpEnqueue_lasting _ _)).trans
      (httpResumeReading_lasting postOk)

theorem Move.lasting {late : Prop} (h : Move backend late s s') : Lasting s s' := by
  cases h with
  | outward h => exact h.lasting
  | wrote origin data h => exact httpEnqueue_lasting _ _
  | quiet c tlsData pumps releases pumping delivered h =>
    constructor
    · exact id
    · intro hreads hopen here hheld hpaused
      apply hreads hopen _ hheld
      · rw [h.rest] at hpaused
        exact hpaused
      · by_contra hgone
        exact absurd (here.symm.trans (h.disconnected (by simpa using hgone))) (by decide)
    · exact id
  | fed chunk here follows noSession alive unshut due => exact (ingest_ingested chunk alive).lasting
  | started pumping here idle queued good => exact ⟨id, id, id⟩
  | refused here idle queued bad =>
    refine ⟨fun _ => refuseUpgrade_shut _ _, fun _ => Conn.reads_of_shut (refuseUpgrade_shut _ _), ?_⟩
    intro hlingers
    unfold refuseUpgrade
    apply httpCloseAfterWrite_outward.lingers
    apply (httpEnqueue_lasting _ _).lingers
    exact hlingers
  | finished postOk here active answered due => exact (finishRequest_finishing postOk here).lasting
  | failed here active noSession unanswered =>
    refine ⟨fun _ => answerFailure_shut s, fun _ => Conn.reads_of_shut (answerFailure_shut s), ?_⟩
    intro hlingers
    unfold answerFailure releaseAfterResponse
    apply httpCloseAfterWrite_outward.lingers
    apply (@httpEnqueue_lasting backend { s with http := { s.http with
      response := { s.http.response with resp := .done, keepAlive := false, logStatus := 500 } } }
      _ _).lingers
    exact hlingers

/-- What each move keeps, an event keeps. -/
theorem connStep_keeps {P : Conn → Prop} (event : Event) (hsession : s.http.Session)
    (hkeeps : ∀ {a b : Conn}, Move backend (s.late event = true) a b → a.http.Session → P a → P b)
    (hoff : P s → P { s with recvOp := false }) (h : P s) :
    (connStep backend s event).http.Session ∧ P (connStep backend s event) := by
  have hmove : ∀ {a b : Conn}, Move backend (s.late event = true) a b → a.http.Session ∧ P a →
      b.http.Session ∧ P b := fun hmove ha => ⟨session_keeps hmove.turn ha.1, hkeeps hmove ha.1 ha.2⟩
  rcases @connStep_moves backend s event hsession with hmoves | ⟨hmoves, -⟩
  · exact hmoves.keeps hmove ⟨hsession, h⟩
  · exact hmoves.keeps hmove ⟨hsession, hoff h⟩

end Cadeloop.Pyshim.Pipeline
