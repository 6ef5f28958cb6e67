import Cadeloop.Pyshim.PipelineNet
import Cadeloop.Pyshim.PipelineSweeps

/-!
# The shutdown of a pipelined connection

Neither the shutdown nor a sweep takes a connection away from work that it has to do.  The request that
runs at the shutdown is the last one: it is not kept alive, and its end marks the connection to close.
-/

namespace Cadeloop.Pyshim.Net

variable {backend : Backend} {net : NetState} {entry : TransportEntry}

/-! ## 1. A queue with bytes in it -/

theorem queueOwned_nonempty (entry : TransportEntry) (data : List UInt8) :
    (entry.queueOwned data).wq ≠ [] := by
  unfold TransportEntry.queueOwned
  cases hcoalesced : coalesceTail entry data with
  | none => simp
  | some entry' =>
    unfold coalesceTail at hcoalesced
    split at hcoalesced
    · simp at hcoalesced
    split at hcoalesced
    · split at hcoalesced
      · rw [← Option.some.inj hcoalesced]
        simp
      · simp at hcoalesced
    · simp at hcoalesced

/-- A flush leaves the bytes where they are, as long as the backend takes its send. -/
theorem flushPending_waits (he : net.entry = some entry) (hwq : entry.wq ≠ [])
    (htakes : backend.postSend net.nextOp = true) :
    ∃ entry', (flushPending backend net).entry = some entry' ∧ entry'.wq = entry.wq := by
  unfold flushPending
  rw [he]
  dsimp only
  split
  · exact ⟨_, rfl, rfl⟩
  · exact ⟨_, rfl, rfl⟩

theorem afterQueue_waits {early : Bool} (he : net.entry = some entry) (hwq : entry.wq ≠ [])
    (htakes : backend.postSend net.nextOp = true) :
    ∃ entry', (afterQueue backend early net).entry = some entry' ∧ entry'.wq = entry.wq := by
  unfold afterQueue
  rw [he]
  dsimp only
  split
  · exact ⟨entry, he, rfl⟩
  split
  · exact flushPending_waits he hwq htakes
  split
  · exact ⟨entry, he, rfl⟩
  · exact ⟨_, rfl, rfl⟩

theorem httpEnqueueRaw_waits {data : List UInt8} (hdata : data ≠ []) (he : net.entry = some entry)
    (hclosing : entry.closing = false) (htakes : backend.postSend net.nextOp = true) :
    ∃ entry', (httpEnqueueRaw backend data net).entry = some entry' ∧ entry'.wq ≠ [] := by
  unfold httpEnqueueRaw
  rw [if_neg hdata, he]
  dsimp only
  rw [if_neg (by simp [hclosing])]
  have hwq := queueOwned_nonempty { entry with queuedBytes := entry.queuedBytes + data.length } data
  obtain ⟨entry', he', hsame⟩ := @afterQueue_waits backend { net with
    entry := some ({ entry with queuedBytes := entry.queuedBytes + data.length }.queueOwned data)
    accepted := net.accepted ++ data } _ net.flushImmediately rfl hwq htakes
  exact ⟨entry', he', hsame ▸ hwq⟩

/-- What is still to go out goes out before the connection closes. -/
theorem closeAfterWrite_waits {linger : Bool} (he : net.entry = some entry) (hwq : entry.wq ≠ []) :
    ∃ entry', (closeAfterWrite linger net).entry = some entry' := by
  unfold closeAfterWrite
  rw [he]
  dsimp only
  split
  · exact ⟨entry, he⟩
  · unfold maybeFinishShutdown
    dsimp only
    rw [if_pos (.inr hwq)]
    exact ⟨_, rfl⟩

end Cadeloop.Pyshim.Net

namespace Cadeloop.Pyshim.Pipeline

open Cadeloop.Reasoning
open Core.Http (Request)
open Net (Backend NetState TransportEntry)

variable {backend : Backend} {s s' : Conn}

/-! ## 2. What neither takes away -/

/-- Nothing waits in the write queue or is in flight. -/
def Conn.Sent (s : Conn) : Prop := ∀ entry ∈ s.net.entry, entry.wq = [] ∧ entry.sendOp = none

/-- No request is dispatched or queued. -/
def Conn.Spent (s : Conn) : Prop := s.http.active = false ∧ s.http.pending = []

/-- Bytes of this connection wait: in its queue, or on TLS staged. -/
structure Conn.Waiting (s : Conn) (entry : TransportEntry) : Prop where
  here : s.net.entry = some entry
  queued : s.tls = none → entry.wq ≠ []
  staged : ∀ tls, s.tls = some tls → tls.staged ≠ []

theorem httpEnqueue_waiting {entry : TransportEntry} (origin : Origin) {data : Bytes} (hdata : data ≠ [])
    (he : s.net.entry = some entry) (hclosing : entry.closing = false)
    (htakes : backend.postSend s.net.nextOp = true) :
    ∃ entry', (httpEnqueue backend origin data s).Waiting entry' := by
  unfold httpEnqueue
  rw [he]
  dsimp only
  rw [if_neg hdata]
  cases htls : s.tls with
  | some tls =>
    refine ⟨entry, he, fun hplain => ?_, fun tls' htls' => ?_⟩
    · cases hplain
    · rw [← Option.some.inj htls']
      simp [hdata]
  | none =>
    dsimp only
    rw [if_neg (by simp [hclosing])]
    obtain ⟨entry', he', hwq⟩ := Net.httpEnqueueRaw_waits hdata he hclosing htakes
    exact ⟨entry', he', fun _ => hwq, fun tls htls' => by cases htls'⟩

theorem Conn.Waiting.close {entry : TransportEntry} (h : s.Waiting entry) :
    ∃ entry', (httpCloseAfterWrite s).net.entry = some entry' := by
  unfold httpCloseAfterWrite
  rw [h.here]
  cases htls : s.tls with
  | some tls =>
    dsimp only
    rw [if_pos (h.staged tls htls)]
    exact ⟨entry, h.here⟩
  | none =>
    dsimp only
    unfold markClosing
    rw [h.here]
    dsimp only
    split
    · exact ⟨entry, h.here⟩
    · exact Net.closeAfterWrite_waits h.here (h.queued htls)

theorem closeFrame_shutdown : Http.closeFrame 1012 "server shutdown" ≠ [] := by decide

/-- The shutdown takes away what is not busy, or what the close frame of its WebSocket broke. -/
theorem httpBeginShutdown_gone {entry : TransportEntry} {parked : Bool} (he : s.net.entry = some entry)
    (hgone : (httpBeginShutdown backend parked s).net.entry = none) :
    httpConnBusy entry s.http = false ∨ backend.postSend s.net.nextOp = false := by
  by_contra hneither
  obtain ⟨hbusy, htakes⟩ := not_or.mp hneither
  have hbusy : httpConnBusy entry s.http = true := by simpa using hbusy
  have htakes : backend.postSend s.net.nextOp = true := by simpa using htakes
  have hhere : ∃ entry', (httpBeginShutdown backend parked s).net.entry = some entry' := by
    unfold httpBeginShutdown
    rw [he]
    dsimp only
    split
    · exact ⟨entry, he⟩
    rename_i hclosing
    split
    · split
      · obtain ⟨entry', hwaiting⟩ := httpEnqueue_waiting (s := { s with http := { s.http with
            response := { s.http.response with keepAlive := false } } }) s.current
          closeFrame_shutdown he (by simpa using hclosing) htakes
        split
        · exact ⟨entry', hwaiting.here⟩
        · exact Conn.Waiting.close ⟨hwaiting.here, hwaiting.queued, hwaiting.staged⟩
      · exact ⟨entry, he⟩
    · exact ⟨entry, he⟩
  obtain ⟨entry', he'⟩ := hhere
  exact absurd (hgone.symm.trans he') (by simp)

theorem idle_of_unbusy {entry : TransportEntry} (he : s.net.entry = some entry)
    (hidle : httpConnBusy entry s.http = false) : s.Sent ∧ s.Spent := by
  unfold httpConnBusy at hidle
  simp only [decide_eq_false_iff_not, not_or, not_not, Bool.not_eq_true] at hidle
  refine ⟨fun entry' he' => ?_, hidle.2.2.1, hidle.2.2.2.1⟩
  obtain rfl := Option.some.inj (he.symm.trans he')
  exact ⟨hidle.1, by simpa using hidle.2.1⟩

/-- What is in flight is in the queue. -/
theorem Conn.Sent.of_empty (hcore : Net.Core true s.net) (h : ∀ entry ∈ s.net.entry, entry.wq = []) : s.Sent := by
  intro entry he
  have hwq := h entry he
  refine ⟨hwq, ?_⟩
  by_contra hsending
  obtain ⟨htake, -, hpost⟩ := (hcore.alive entry he).posted (Option.isSome_iff_ne_none.mpr hsending)
  have hpos := hpost.pos
  rw [← htake, hwq, List.take_nil] at hpos
  simp at hpos

/-- A connection lingers with its FIN behind everything it had to send. -/
theorem Conn.Overdue.sent {nowNs : Nat} (hcore : Net.Core true s.net) (h : s.Overdue nowNs) : s.Sent := by
  obtain ⟨entry, he, -, hnonzero, -⟩ := h
  intro entry' he'
  obtain rfl := Option.some.inj (Option.mem_def.mp he ▸ Option.mem_def.mp he')
  have hsound := hcore.alive entry he
  obtain ⟨hwq, hop, -⟩ := hsound.shut (hsound.deadline hnonzero)
  exact ⟨hwq, hop⟩

theorem httpSweep_gone {nowNs : Nat} (hcore : Net.Core true s.net) (hhere : s.http.disconnected = false)
    (he : s.net.entry.isSome = true) (hgone : (httpSweep backend nowNs s).net.entry = none) :
    s.Sent ∧ (s.Spent ∨ s.Overdue nowNs) := by
  by_cases hlinger : s.Overdue nowNs
  · exact ⟨hlinger.sent hcore, .inr hlinger⟩
  · have howing : ¬ s.Owing := by
      intro howing
      obtain ⟨phase, seen, anchor, hspared⟩ := httpSweep_spares howing hhere hlinger
      rw [hspared] at hgone
      have hgone : s.net.entry = none := hgone
      simp [hgone] at he
    obtain ⟨hidle, hrest⟩ := not_or.mp howing
    obtain ⟨hempty, hunsent⟩ := not_or.mp hrest
    refine ⟨.of_empty hcore fun entry he => ?_, .inl ⟨by simpa using hidle, not_not.mp hempty⟩⟩
    by_contra hwq
    exact hunsent ⟨entry, he, hwq⟩

/-! ## 3. The last request -/

theorem httpEnqueue_secure (origin : Origin) (data : Bytes) :
    (httpEnqueue backend origin data s).tls.isSome = s.tls.isSome := by
  obtain ⟨fresh, -, h⟩ := @httpEnqueue_outward backend s origin data
  exact h.secure

theorem ingest_secure (chunk : Chunk) (alive : s.http.deferredError = none) :
    (ingest backend chunk s).2.tls.isSome = s.tls.isSome := by
  have h := @ingest_ingested backend s chunk alive
  generalize (ingest backend chunk s).2 = s' at h ⊢
  cases h with
  | dropped trailing => exact teardown_outward.secure
  | answered e => exact httpCloseAfterWrite_outward.secure.trans (httpEnqueue_secure _ _)
  | parked resp behind => rfl
  | took trailing ok owes => rfl
  | deferred trailing ok owes behind => rfl
  | continued trailing ok owes idle empty now => exact httpEnqueue_secure _ _

theorem finishRequest_secure (postOk : Bool) (here : s.net.entry.isSome = true) :
    (finishRequest backend postOk s).tls.isSome = s.tls.isSome := by
  have h := @finishRequest_finishing backend s postOk here
  generalize finishRequest backend postOk s = s' at h ⊢
  cases h with
  | closed delivered closes => exact httpCloseAfterWrite_outward.secure
  | refused delivered resp closes empty parked =>
    exact httpCloseAfterWrite_outward.secure.trans (httpEnqueue_secure _ _)
  | kept delivered closes owed clean => exact (httpResumeReading_outward postOk).secure
  | continued delivered closes owed clean =>
    exact (httpResumeReading_outward postOk).secure.trans (httpEnqueue_secure _ _)

/-- A connection is TLS or plaintext for good. -/
theorem Move.secure {late : Prop} (h : Move backend late s s') : s'.tls.isSome = s.tls.isSome := by
  cases h with
  | outward h => exact h.secure
  | wrote origin data h => exact httpEnqueue_secure _ _
  | quiet c tlsData pumps releases pumping delivered h => rfl
  | fed chunk here follows noSession alive unshut due => exact ingest_secure chunk alive
  | started pumping here idle queued good => rfl
  | refused here idle queued bad => exact httpCloseAfterWrite_outward.secure.trans (httpEnqueue_secure _ _)
  | finished postOk here active answered due => exact finishRequest_secure postOk here
  | failed here active noSession unanswered =>
    exact httpCloseAfterWrite_outward.secure.trans (httpEnqueue_secure _ _)

/-- A chunk leaves the request that runs alone. -/
theorem ingest_running (chunk : Chunk) (alive : s.http.deferredError = none) :
    (ingest backend chunk s).2.http.response = s.http.response ∧
      (ingest backend chunk s).2.http.active = s.http.active ∧
      (ingest backend chunk s).2.http.started = s.http.started ∧
      (ingest backend chunk s).2.http.ws = s.http.ws := by
  have hfed : (s.http.fedBy chunk.data chunk.run).response = s.http.response ∧
      (s.http.fedBy chunk.data chunk.run).active = s.http.active ∧
      (s.http.fedBy chunk.data chunk.run).started = s.http.started ∧
      (s.http.fedBy chunk.data chunk.run).ws = s.http.ws := by
    rw [(HttpConn.fedBy_feeds chunk.data chunk.run s.http).rest]
    exact ⟨rfl, rfl, rfl, rfl⟩
  have h := @ingest_ingested backend s chunk alive
  generalize (ingest backend chunk s).2 = s' at h ⊢
  cases h with
  | dropped trailing => exact hfed
  | answered e =>
    rw [httpCloseAfterWrite_outward.http, httpEnqueue_http]
    exact hfed
  | parked resp behind => exact hfed
  | took trailing ok owes => exact hfed
  | deferred trailing ok owes behind => exact hfed
  | continued trailing ok owes idle empty now =>
    rw [sendContinue_http]
    exact hfed

/-- Request `k` is the last one, until the connection is marked to close; on plaintext, where nothing is
read behind that mark, it is the last one for good. -/
structure Conn.Draining (k : Nat) (s : Conn) : Prop where
  last : s.shut = false ∨ s.tls = none → s.http.response.keepAlive = false ∧ s.http.started = k
  running : s.shut = false → s.http.active = true
  unqueued : s.tls = none → s.http.active = true ∨ s.http.pending = []

/-- Behind the mark a TLS connection may go on. -/
theorem Conn.Draining.of_secure {k : Nat} (hshut : s.shut = true) (hsecure : s.tls.isSome = true) :
    s.Draining k := by
  have hnot : ¬ (s.shut = false ∨ s.tls = none) := by
    rintro (hopen | hplain)
    · simp [hshut] at hopen
    · simp [hplain] at hsecure
  exact ⟨fun h => absurd h hnot, fun hopen => absurd (.inl hopen) hnot, fun hplain => absurd (.inr hplain) hnot⟩

namespace Move

variable {late : Prop} {k : Nat}

/-- No request starts on a connection that drains, except behind the mark. -/
theorem draining_idle {req : Request} {rest : List Request} (h : s.Draining k)
    (idle : s.http.active = false) (queued : s.http.pending = req :: rest) :
    s.shut = true ∧ s.tls.isSome = true := by
  constructor
  · by_contra hopen
    simp [h.running (by simpa using hopen)] at idle
  · by_contra hplain
    rcases h.unqueued (by simpa using hplain) with hactive | hempty
    · simp [hactive] at idle
    · simp [hempty] at queued

/-- What leaves the running request alone, and no queue behind it. -/
theorem draining_same (hmove : Move backend late s s') (h : s.Draining k)
    (hkeep : s.http.response.keepAlive = false → s'.http.response.keepAlive = false)
    (hstarted : s'.http.started = s.http.started) (hactive : s'.http.active = s.http.active)
    (hpending : s.tls = none → s.http.active = false → s.http.pending = [] → s'.http.pending = []) :
    s'.Draining k := by
  have hopen : s'.shut = false → s.shut = false := hmove.lasting.open
  have hplain : s'.tls = none → s.tls = none := by
    intro hnone
    have hsecure := hmove.secure
    rw [hnone] at hsecure
    simpa using hsecure.symm
  constructor
  · intro hcase
    obtain ⟨hlast, hk⟩ := h.last (hcase.imp hopen hplain)
    exact ⟨hkeep hlast, hstarted.trans hk⟩
  · exact fun hopen' => hactive.trans (h.running (hopen hopen'))
  · intro hplain'
    rw [hactive]
    rcases h.unqueued (hplain hplain') with hrunning | hempty
    · exact .inl hrunning
    · cases hrunning : s.http.active with
      | true => exact .inl rfl
      | false => exact .inr (hpending (hplain hplain') hrunning hempty)

theorem draining (hmove : Move backend late s s') (h : s.Draining k) : s'.Draining k := by
  have hsecure := hmove.secure
  have hlasting := hmove.lasting
  have hsame := hmove.draining_same h
  cases hmove with
  | outward houtward =>
    rw [houtward.http] at hsame
    exact hsame id rfl rfl fun _ _ => id
  | wrote origin data horigin =>
    rw [httpEnqueue_http] at hsame
    exact hsame id rfl rfl fun _ _ => id
  | quiet c tlsData pumps releases pumping delivered hquiet =>
    have hrest := hquiet.rest
    refine hsame (fun hlast => ?_) (by rw [hrest]) (by rw [hrest]) fun _ _ hempty => by rw [hrest]; exact hempty
    by_contra hkept
    simp [hquiet.keepAlive (by simpa using hkept)] at hlast
  | fed chunk here follows noSession alive unshut due =>
    obtain ⟨hresponse, hactive, hstarted, -⟩ := @ingest_running backend s chunk alive
    refine hsame (fun hlast => by rw [hresponse]; exact hlast) hstarted hactive fun hplain hidle _ => ?_
    -- on plaintext nothing is read behind the mark, and before it a request runs
    simp [h.running (unshut hplain)] at hidle
  | started pumping here idle queued good =>
    obtain ⟨hshut, hsome⟩ := draining_idle h idle queued
    exact .of_secure hshut hsome
  | refused here idle queued bad =>
    obtain ⟨-, hsome⟩ := draining_idle h idle queued
    exact .of_secure (refuseUpgrade_shut _ _) (hsecure.trans hsome)
  | finished postOk here active answered due =>
    by_cases hbehind : s.shut = true ∧ s.tls.isSome = true
    · exact .of_secure (hlasting.shut hbehind.1) (hsecure.trans hbehind.2)
    · have hcase : s.shut = false ∨ s.tls = none := by
        rcases not_and_or.mp hbehind with hopen | hplain
        · exact .inl (by simpa using hopen)
        · exact .inr (by simpa using hplain)
      obtain ⟨hlast, hk⟩ := h.last hcase
      have hcloses : s.http.closes = true := by simp [HttpConn.closes, hlast]
      have hfinished := @finishRequest_finishing backend s postOk here
      generalize finishRequest backend postOk s = s' at hfinished ⊢
      cases hfinished with
      | closed delivered closes =>
        have hshut := httpCloseAfterWrite_shut { s with delivered, http := s.http.finish.2 }
        refine ⟨fun _ => ?_, fun hopen => ?_, fun _ => .inr ?_⟩
        · rw [httpCloseAfterWrite_outward.http]
          exact ⟨hlast, hk⟩
        · simp [hshut] at hopen
        · rw [httpCloseAfterWrite_outward.http]
          exact (HttpConn.finish_closes closes).1
      | refused delivered resp closes empty parked => simp [hcloses] at closes
      | kept delivered closes owed clean => simp [hcloses] at closes
      | continued delivered closes owed clean => simp [hcloses] at closes
  | failed here active noSession unanswered =>
    obtain ⟨response, hkeep, -, hhttp⟩ := @answerFailure_http backend s
    rw [hhttp] at hsame
    exact hsame (fun _ => hkeep) rfl rfl fun _ _ => id

end Move

/-! ## 4. Runs -/

/-- The connection, `later` further on. -/
def Conn.after (backend : Backend) (later : List Event) (s : Conn) : Conn :=
  later.foldl (connStep backend) s

theorem after_keeps {P : Conn → Prop} (later : List Event) (hsession : s.http.Session)
    (hkeeps : ∀ {late : Prop} {a b : Conn}, Move backend late a b → a.http.Session → P a → P b)
    (hoff : ∀ {a : Conn}, P a → P { a with recvOp := false }) (h : P s) : P (s.after backend later) :=
  (foldl_keeps (I := fun s => s.http.Session ∧ P s)
    (fun _ event ⟨hsession, h⟩ => connStep_keeps event hsession hkeeps hoff h) later ⟨hsession, h⟩).2

/-- A WebSocket's connection is done with it when it ends. -/
def Conn.Tended (s : Conn) : Prop := s.http.ws.isSome = true → s.http.active = true ∨ s.shut = true

theorem finishRequest_tended (postOk : Bool) (here : s.net.entry.isSome = true) (hsession : s.http.Session) :
    (finishRequest backend postOk s).Tended := by
  have hopen : s.http.closes = false → s.http.ws = none := by
    intro hkept
    by_contra hws
    have hkeep := (hsession (Option.isSome_iff_ne_none.mpr hws)).1
    simp [HttpConn.closes, hkeep] at hkept
  have hfinished := @finishRequest_finishing backend s postOk here
  generalize finishRequest backend postOk s = s' at hfinished ⊢
  cases hfinished with
  | closed delivered closes => exact fun _ => .inr (httpCloseAfterWrite_shut _)
  | refused delivered resp closes empty parked => exact fun _ => .inr (httpCloseAfterWrite_shut _)
  | kept delivered closes owed clean =>
    intro hws
    rw [(httpResumeReading_outward postOk).http] at hws
    have hws : s.http.ws.isSome = true := hws
    simp [hopen closes] at hws
  | continued delivered closes owed clean =>
    intro hws
    rw [(httpResumeReading_outward postOk).http] at hws
    have hws : (sendContinue backend { s with delivered, http := s.http.kept }).http.ws.isSome = true := hws
    rw [sendContinue_http] at hws
    have hws : s.http.ws.isSome = true := hws
    simp [hopen closes] at hws

theorem Move.tended {late : Prop} (hmove : Move backend late s s') (hsession : s.http.Session)
    (h : s.Tended) : s'.Tended := by
  intro hws
  cases hmove with
  | outward houtward =>
    rw [houtward.http] at hws ⊢
    exact (h hws).imp_right houtward.shut
  | wrote origin data horigin =>
    rw [httpEnqueue_http] at hws ⊢
    exact (h hws).imp_right (httpEnqueue_lasting origin data).shut
  | quiet c tlsData pumps releases pumping delivered hquiet =>
    refine (h (hquiet.ws.symm.trans hws)).imp_left fun hactive => ?_
    show c.active = true
    rw [hquiet.rest]
    exact hactive
  | fed chunk here follows noSession alive unshut due =>
    rw [(@ingest_running backend s chunk alive).2.2.2, noSession] at hws
    simp at hws
  | started pumping here idle queued good => exact .inl rfl
  | refused here idle queued bad => exact .inr (refuseUpgrade_shut _ _)
  | finished postOk here active answered due => exact finishRequest_tended postOk here hsession hws
  | failed here active noSession unanswered => exact .inr (answerFailure_shut s)

theorem run_tended (a : Accepted) (events : List Event) :
    ((connection backend a).run events).http.Session ∧ ((connection backend a).run events).Tended ∧
      ((connection backend a).run events).tls.isSome = a.tls := by
  refine (connection backend a).run_invariant
    (I := fun s => s.http.Session ∧ s.Tended ∧ s.tls.isSome = a.tls) ?_ ?_ events
  · refine ⟨(@run_sound backend a []).session, fun hws => absurd hws Bool.false_ne_true, ?_⟩
    show (newConn a.highWater a.lowWater a.tls a.eager a.limits a.headTimeoutNs a.idleTimeoutNs).tls.isSome = _
    unfold newConn
    cases a.tls <;> rfl
  · rintro s event ⟨hsession, h⟩
    exact connStep_keeps (P := fun s => s.Tended ∧ s.tls.isSome = a.tls) event hsession
      (fun hmove hsession h => ⟨hmove.tended hsession h.1, hmove.secure.trans h.2⟩) id h

/-! ## 5. The shutdown -/

theorem setSession_http (accepted closing : Bool) (s : Conn) :
    (setSession accepted closing s).http = { s.http with ws := some { accepted, closing } } := rfl

theorem httpBeginShutdown_http {entry : TransportEntry} (parked : Bool) (he : s.net.entry = some entry)
    (hclosing : entry.closing = false) : ∃ ws, (httpBeginShutdown backend parked s).http =
      { s.http with response := { s.http.response with keepAlive := false }, ws } := by
  unfold httpBeginShutdown
  rw [he]
  dsimp only
  rw [if_neg (by simp [hclosing])]
  split
  · split
    · split
      · rw [setSession_http, httpEnqueue_http]
        exact ⟨_, rfl⟩
      · rw [httpCloseAfterWrite_outward.http, setSession_http, httpEnqueue_http]
        exact ⟨_, rfl⟩
    · exact ⟨s.http.ws, rfl⟩
  · split
    · exact ⟨s.http.ws, rfl⟩
    · rw [teardown_outward.http]
      exact ⟨s.http.ws, rfl⟩

theorem httpBeginShutdown_draining (parked : Bool) (hopen : s.shut = false) (hactive : s.http.active = true) :
    (httpBeginShutdown backend parked s).Draining s.http.started := by
  obtain ⟨entry, he, hclosing⟩ := Conn.open_entry hopen
  obtain ⟨ws, hhttp⟩ := @httpBeginShutdown_http backend s entry parked he hclosing
  refine ⟨fun _ => ?_, fun _ => ?_, fun _ => .inl ?_⟩
  · rw [hhttp]
    exact ⟨rfl, rfl⟩
  · rw [hhttp]
    exact hactive
  · rw [hhttp]
    exact hactive

/-- What has nothing to do goes at once. -/
theorem httpBeginShutdown_idle (parked : Bool) (hs : Sound s) (htended : s.Tended) (hopen : s.shut = false)
    (hspent : s.Spent) (hsent : s.Sent) : (httpBeginShutdown backend parked s).net.entry = none := by
  obtain ⟨entry, he, hclosing⟩ := Conn.open_entry hopen
  obtain ⟨hidle, hempty⟩ := hspent
  obtain ⟨hwq, hop⟩ := hsent entry he
  have hws : s.http.ws = none := by
    by_contra hsome
    rcases htended (Option.isSome_iff_ne_none.mpr hsome) with hactive | hshut
    · simp [hidle] at hactive
    · simp [hopen] at hshut
  have hbusy : httpConnBusy entry s.http = false := by
    unfold httpConnBusy
    rcases ((hs.interims hopen).answering hopen).between hidle with hdone | ⟨hfresh, -⟩
    · simp [hwq, hop, hidle, hempty, hdone]
    · simp [hwq, hop, hidle, hempty, hfresh]
  unfold httpBeginShutdown
  rw [he]
  dsimp only
  rw [if_neg (by simp [hclosing]), hws]
  dsimp only
  rw [if_neg (by simp [hbusy])]
  exact teardown_gone _

/-- While its peer is there, neither a sweep nor the shutdown takes a connection away from a request
that is dispatched or queued, or from bytes in its write queue, unless it lingers past its deadline or the
close frame of the shutdown cannot be sent.  The request that runs at the shutdown is the last one of its
connection, at least until that is marked to close, and what has no work is closed at once. -/
theorem shutdown_finishes_work (backend : Backend) (a : Accepted) (events : List Event) :
    let s := (connection backend a).run events
    (s.net.entry.isSome = true → s.http.disconnected = false →
      (∀ nowNs, (httpSweep backend nowNs s).net.entry = none → s.Sent ∧ (s.Spent ∨ s.Overdue nowNs)) ∧
        ∀ parked, (httpBeginShutdown backend parked s).net.entry = none →
          s.Sent ∧ s.Spent ∨ backend.postSend s.net.nextOp = false) ∧
    ∀ parked later,
      let t := (httpBeginShutdown backend parked s).after backend later
      (s.shut = true → t.shut = true) ∧
        (s.shut = false → s.http.active = true →
          (t.shut = true ∨ t.http.active = true ∧ t.http.started = s.http.started) ∧
            (a.tls = false → t.http.started = s.http.started)) ∧
        (s.shut = false → s.Spent → s.Sent → t.net.entry = none) := by
  intro s
  obtain ⟨hsession, htended, hsecure⟩ := @run_tended backend a events
  have hcore := @run_core backend a events
  refine ⟨fun here hhere => ⟨fun nowNs => httpSweep_gone hcore hhere here, fun parked hgone => ?_⟩,
    fun parked later => ?_⟩
  · obtain ⟨entry, he⟩ := Option.isSome_iff_exists.mp here
    exact (httpBeginShutdown_gone he hgone).imp_left (idle_of_unbusy he)
  · intro t
    have hmoves : Moves backend False s (httpBeginShutdown backend parked s) := httpBeginShutdown_moves parked
    have hsession' : (httpBeginShutdown backend parked s).http.Session :=
      hmoves.keeps (P := fun s => s.http.Session) (fun hmove => session_keeps hmove.turn) hsession
    refine ⟨fun hshut => ?_, fun hopen hactive => ?_, fun hopen hspent hsent => ?_⟩
    · exact after_keeps later hsession' (fun hmove _ => hmove.lasting.shut) id (hmoves.lasting.shut hshut)
    · have hdraining : t.Draining s.http.started :=
        after_keeps later hsession' (fun hmove _ => hmove.draining) (fun h => ⟨h.last, h.running, h.unqueued⟩)
          (httpBeginShutdown_draining parked hopen hactive)
      constructor
      · cases hshut : t.shut with
        | true => exact .inl rfl
        | false => exact .inr ⟨hdraining.running hshut, (hdraining.last (.inl hshut)).2⟩
      · intro hplain
        have hsame : t.tls.isSome = a.tls :=
          after_keeps (P := fun s => s.tls.isSome = a.tls) later hsession'
            (fun hmove _ h => hmove.secure.trans h) id
            (hmoves.keeps (P := fun s => s.tls.isSome = a.tls) (fun hmove h => hmove.secure.trans h) hsecure)
        exact (hdraining.last (.inr (by simpa [hplain] using hsame))).2
    · exact after_keeps (P := fun s => s.net.entry = none) later hsession' (fun hmove _ => hmove.gone) id
        (httpBeginShutdown_idle parked (run_sound a events) htended hopen hspent hsent)

/-- A request comes in and is handed to the application. -/
def requested : List Event := [.recvDone (.bytes getRequest) true, .pump]

def responded (k : Nat) : List Event :=
  [.send k 0 (.start (some 204) [] false), .send k 0 (.body [] false)]

def sentOut : List Event := [.flushCorked, .sendDone]

/-- A request is dispatched and waits for something. -/
def dispatched : List Event := requested ++ [.stepped .suspended true]

/-- A second one comes in, and the first is answered. -/
def answeredBehind : List Event := requested ++ responded 1 ++ [.woken 1 .returned true] ++ sentOut

/-- The second request is parsed, and goes with the connection. -/
theorem shutdown_finishes_work_first :
    let s := (connection Net.Backend.taking impatient).run dispatched
    let t := (httpBeginShutdown Net.Backend.taking false s).after Net.Backend.taking answeredBehind
    (httpSweep Net.Backend.taking 9 s).net.entry ≠ none ∧ t.http.started = 1 ∧ t.http.parsed = 2 ∧
      t.shut = true := by
  have h := shutdown_finishes_work Net.Backend.taking impatient dispatched
  have hactive : ((connection Net.Backend.taking impatient).run dispatched).http.active = true := by
    decide +kernel
  refine ⟨fun hgone => ?_, ?_, by decide +kernel, by decide +kernel⟩
  · obtain ⟨-, ⟨hidle, -⟩ | ⟨entry, he, hlinger, -⟩⟩ :=
      (h.1 (by decide +kernel) (by decide +kernel)).1 9 hgone
    · simp [hactive] at hidle
    · have hnone : ∀ entry ∈ ((connection Net.Backend.taking impatient).run dispatched).net.entry,
          entry.lingering = false := by decide +kernel
      simp [hnone entry he] at hlinger
  · rw [((h.2 false answeredBehind).2.1 (by decide +kernel) hactive).2 rfl]
    decide +kernel

/-- A backend that takes the first send only. -/
def takesFirst : Backend := { Net.Backend.taking with postSend := fun op => op == 0 }

def upgradeChunk : Chunk where
  data := Http.upgradeRequest
  run := ⟨[.messageBegin, .url (ascii "/"), .headerField (ascii "Host"), .headerValue (ascii "x"),
    .headerField (ascii "Upgrade"), .headerValue (ascii "websocket"), .headerField (ascii "Connection"),
    .headerValue (ascii "Upgrade"), .headerField (ascii "Sec-WebSocket-Version"),
    .headerValue (ascii "13"), .headerField (ascii "Sec-WebSocket-Key"),
    .headerValue (ascii "AAAAAAAAAAAAAAAAAAAAAA=="), .headersComplete ⟨"GET", 1, 1, true, true⟩,
    .messageComplete ⟨"GET", 1, 1, true, true⟩], (1, 1), .pausedUpgrade Http.upgradeRequest.length⟩
  frames := []
  ended := false

/-- A WebSocket that is accepted, its 101 sent at once. -/
def acceptedSession : List Event :=
  [.tick 0 true, .recvDone (.bytes upgradeChunk) true, .pump,
    .wsSend 1 (.accept Http.switchingProtocols upgradeChunk), .stepped .suspended true, .sendDone]

/-- The handshake of a TLS connection, with a request behind it. -/
def securedRequest : List Event :=
  [.recvDone (.bytes getRequest) true, .tlsData ⟨true, [], false, getRequest⟩ ⟨0, [], []⟩]

/-- Its peer is there, and a request of it is dispatched. -/
def Conn.Serving (s : Conn) : Bool := s.net.entry.isSome && !s.http.disconnected && s.http.active

/-- A sweep ends a connection that serves a request, its deadline behind the FIN over; so does a shutdown
whose close frame cannot be sent, or one that finds a response staged for TLS.  A request that waits for
its pump, or a response on its way out, leaves the connection open behind the shutdown, for more. -/
theorem shutdown_leaves_work :
    let lingering := (connection Net.Backend.taking impatient).run raises
    let session := (connection takesFirst impatient).run acceptedSession
    let secured := (connection Net.Backend.taking (listener true)).run
      (securedRequest ++ responded 1 ++ [.stepped .returned true])
    let waiting := (connection Net.Backend.taking impatient).run [.recvDone (.bytes getRequest) true]
    let sending := (connection Net.Backend.taking impatient).run
      (requested ++ responded 1 ++ [.stepped .returned true])
    let waited := (httpBeginShutdown Net.Backend.taking false waiting).after Net.Backend.taking
      (.pump :: responded 1 ++ [.stepped .returned true] ++ sentOut)
    let sent := (httpBeginShutdown Net.Backend.taking false sending).after Net.Backend.taking sentOut
    lingering.Serving ∧ (httpSweep Net.Backend.taking Net.lingerNs lingering).net.entry = none ∧
      session.Serving ∧ (httpBeginShutdown takesFirst false session).net.entry = none ∧
      secured.staged ≠ [] ∧ secured.http.disconnected = false ∧ secured.net.entry.isSome = true ∧
      (httpBeginShutdown Net.Backend.taking false secured).net.entry = none ∧
      waiting.http.pending.length = 1 ∧ waited.Resting ∧ waited.shut = false ∧
      (waited.after Net.Backend.taking requested).http.started = 2 ∧
      ¬ sending.Resting ∧ sent.Resting ∧ sent.shut = false ∧
      (sent.after Net.Backend.taking requested).http.started = 2 := by
  decide +kernel

end Cadeloop.Pyshim.Pipeline
