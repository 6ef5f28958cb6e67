import Cadeloop.Pyshim.PipelineTurns

/-!
# Where the interim responses go

A head that expects `100 Continue` is answered once, while its body is not in, with everything ahead
of it answered and nothing behind it begun.  On TLS a connection that is close-marked still takes the
bytes; the events that have it do so are `Conn.late`.
-/

namespace Cadeloop.Pyshim.Pipeline

open Cadeloop.Reasoning
open Core.Http (Acc Execution HttpParser Request)
open Net (Backend NetState TransportEntry)

variable {backend : Backend} {s s' : Conn}

/-! ## 1. What is promised -/

/-- Written on an open connection between two responses, for a head whose body is not in. -/
structure Written.InPlace (w : Written) : Prop where
  unshut : w.shut = false
  answered : w.answered = w.parsed
  idle : w.active = false
  between : w.resp = .idle ∨ w.resp = .done
  expecting : w.expectingBody = true

/-- The heads an interim response was written for, by the number of requests parsed before. -/
def heads (out : List Written) : List Nat :=
  (out.filter fun w => w.origin = .interim).map Written.parsed

structure Placed (s : Conn) : Prop where
  inPlace : ∀ w ∈ s.out, w.origin = .interim → w.InPlace
  once : (heads s.out).Pairwise (· < ·)
  sent : s.shut = false → s.http.active = false → s.http.pending = [] →
    s.http.parser.expectingBody = true → s.http.parsed ∈ heads s.out

theorem heads_append (out out' : List Written) : heads (out ++ out') = heads out ++ heads out' := by
  simp [heads]

theorem heads_silent {out : List Written} (h : ∀ w ∈ out, w.origin ≠ .interim) : heads out = [] := by
  unfold heads
  rw [List.filter_eq_nil_iff.mpr]
  · rfl
  · intro w hw
    simpa using h w hw

/-! ## 2. The requests of an open connection -/

/-- Every request parsed is answered, runs or waits, and the head that is being answered for is the
last one. -/
structure HttpConn.Answering (c : HttpConn) (heads : List Nat) : Prop where
  balance : c.parsed = c.answered + c.active.toNat + c.pending.length
  between : c.active = false → c.response.resp = .done ∨ c.response.resp = .idle ∧ c.handed = []
  parked : c.deferredError.isSome = true → c.active = true ∨ c.pending ≠ []
  deferred : c.continueDeferred = true → c.active = true ∨ c.pending ≠ []
  tidy : c.deferredError = none → c.Tidy
  parsed : ∀ head ∈ heads, head ≤ c.parsed
  expecting : c.deferredError = none → c.parsed ∈ heads → c.parser.acc.expectingBody = true
  owed : c.deferredError = none → c.parser.acc.expectingBody = true →
    (c.continueDeferred = true ↔ c.parsed ∉ heads)

namespace HttpConn.Answering

variable {c c' : HttpConn} {heads : List Nat} {data : Bytes} {run : Execution}

theorem quiet (h : c.Answering heads) (hquiet : c.Quiet c') : c'.Answering heads := by
  have hbetween : c'.active = false →
      c'.response.resp = .done ∨ c'.response.resp = .idle ∧ c'.handed = [] := by
    intro hidle
    rw [hquiet.rest] at hidle
    rcases h.between hidle with hdone | ⟨hidle, hfresh⟩
    · exact .inl (hquiet.done hdone)
    · right
      refine ⟨(hquiet.fresh hfresh).trans hidle, ?_⟩
      rw [hquiet.rest]
      exact hfresh
  rw [hquiet.rest] at hbetween ⊢
  exact ⟨h.balance, hbetween, h.parked, h.deferred, fun alive => ⟨(h.tidy alive).staged,
    (h.tidy alive).completed, (h.tidy alive).owes⟩, h.parsed, h.expecting, h.owed⟩

theorem started {req : Request} {rest : List Request} (h : c.Answering heads)
    (idle : c.active = false) (queued : c.pending = req :: rest) (handed coros : List Nat) :
    Answering { (c.start req rest).2 with handed, coros } heads where
  balance := by
    have hbalance := h.balance
    rw [idle, queued] at hbalance
    show c.parsed = c.answered + 1 + rest.length
    simp only [Bool.toNat_false, List.length_cons] at hbalance
    omega
  between := fun hidle => absurd hidle Bool.true_eq_false_eq_False
  parked := fun _ => .inl rfl
  deferred := fun _ => .inl rfl
  tidy := fun alive => ⟨(h.tidy alive).staged, (h.tidy alive).completed, (h.tidy alive).owes⟩
  parsed := h.parsed
  expecting := h.expecting
  owed := h.owed

/-- The head that is owed an interim response has had none. -/
theorem unanswered (h : c.Answering heads) (alive : c.deferredError = none)
    (follows : c.follows run = true) {offset : Option Nat}
    (ok : (c.parser.feed data.length run).2 = .ok offset)
    (owes : (c.fedBy data run).parser.acc.owesContinue = true) :
    (c.fedBy data run).parsed ∉ heads := by
  have htaken := fedBy_taken (h.tidy alive) follows ok
  rw [(fedBy_feeds data run c).rest]
  intro hanswered
  have hanswered : c.parsed + _ ∈ heads := hanswered
  have hnone : (c.parser.feed data.length run).1.acc.completed = [] := by
    have hlast := h.parsed _ hanswered
    apply List.eq_nil_of_length_eq_zero
    omega
  rw [hnone] at hanswered htaken
  -- its head came in with this chunk, but the one answered was in before
  have hbody := (h.tidy alive).staged.expecting (h.expecting alive hanswered)
  exact htaken.owes owes rfl hbody

/-- The part that a chunk cannot change, whichever head came last. -/
theorem fed_tidy (h : c.Answering heads) (alive : c.deferredError = none)
    (follows : c.follows run = true) {offset : Option Nat}
    (ok : (c.parser.feed data.length run).2 = .ok offset) (trailing : Bytes) :
    (c.took data run trailing).Tidy := by
  have htaken := fedBy_taken (h.tidy alive) follows ok
  refine ⟨⟨htaken.staged.inHead, htaken.staged.expecting, ?_⟩, (fedBy_feeds data run c).completed, rfl⟩
  exact fun howes => absurd howes Bool.false_ne_true

/-- What a chunk does to the counts. -/
theorem fedBy_counts (data : Bytes) (run : Execution) (c : HttpConn) :
    (c.fedBy data run).parsed =
        c.parsed + (c.parser.feed data.length run).1.acc.completed.length ∧
      (c.fedBy data run).pending = c.pending ++ (c.parser.feed data.length run).1.acc.completed ∧
      (c.fedBy data run).answered = c.answered ∧ (c.fedBy data run).response = c.response ∧
      (c.fedBy data run).handed = c.handed ∧ (c.fedBy data run).continueDeferred =
        (c.continueDeferred && (c.fedBy data run).parser.acc.expectingBody) := by
  have hrest := (fedBy_feeds data run c).rest
  generalize (c.parser.feed data.length run).1.acc.completed = reqs at hrest ⊢
  generalize c.fedBy data run = c' at hrest ⊢
  rw [hrest]
  exact ⟨rfl, rfl, rfl, rfl, rfl, rfl⟩

theorem fed_balance (h : c.Answering heads) :
    (c.fedBy data run).parsed =
      (c.fedBy data run).answered + (c.fedBy data run).active.toNat +
        (c.fedBy data run).pending.length := by
  obtain ⟨hparsed, hpending, hanswered, -, -, -⟩ := fedBy_counts data run c
  rw [hparsed, hanswered, hpending, (fedBy_rest data run c).1, h.balance, List.length_append]
  omega

theorem fed_between (h : c.Answering heads) (idle : (c.fedBy data run).active = false) :
    (c.fedBy data run).response.resp = .done ∨
      (c.fedBy data run).response.resp = .idle ∧ (c.fedBy data run).handed = [] := by
  obtain ⟨-, -, -, hresponse, hhanded, -⟩ := fedBy_counts data run c
  rw [(fedBy_rest data run c).1] at idle
  rw [hresponse, hhanded]
  exact h.between idle

theorem fed_parsed (h : c.Answering heads) : ∀ head ∈ heads, head ≤ (c.fedBy data run).parsed := by
  intro head hhead
  rw [(fedBy_counts data run c).1]
  exact Nat.le_add_right_of_le (h.parsed head hhead)

theorem fed_deferred (h : c.Answering heads) (hset : (c.fedBy data run).continueDeferred = true) :
    (c.fedBy data run).active = true ∨ (c.fedBy data run).pending ≠ [] := by
  obtain ⟨-, hpending, -, -, -, hdeferred⟩ := fedBy_counts data run c
  rw [hdeferred, Bool.and_eq_true] at hset
  rw [(fedBy_rest data run c).1, hpending]
  exact (h.deferred hset.1).imp_right fun hbehind hempty =>
    hbehind (List.append_eq_nil_iff.mp hempty).1

/-- A parse error waits behind the requests before it. -/
theorem park (h : c.Answering heads) (resp : Bytes)
    (behind : c.active = true ∨ (c.fedBy data run).pending ≠ []) :
    Answering { c.fedBy data run with deferredError := some resp } heads where
  balance := h.fed_balance
  between := h.fed_between
  parked := by
    intro _
    show (c.fedBy data run).active = true ∨ (c.fedBy data run).pending ≠ []
    rw [(fedBy_rest data run c).1]
    exact behind
  deferred := h.fed_deferred
  tidy := fun alive => absurd alive (by simp)
  parsed := h.fed_parsed
  expecting := fun alive => absurd alive (by simp)
  owed := fun alive => absurd alive (by simp)

/-- A chunk without a new expecting head. -/
theorem took (h : c.Answering heads) (alive : c.deferredError = none)
    (follows : c.follows run = true) {offset : Option Nat}
    (ok : (c.parser.feed data.length run).2 = .ok offset)
    (owes : (c.fedBy data run).parser.acc.owesContinue = false) (trailing : Bytes) :
    (c.took data run trailing).Answering heads := by
  have htaken := fedBy_taken (h.tidy alive) follows ok
  obtain ⟨hparsed, -, -, -, -, hdeferred⟩ := fedBy_counts data run c
  have halive : (c.fedBy data run).deferredError = none := (fedBy_rest data run c).2.1.trans alive
  constructor
  · exact h.fed_balance
  · exact h.fed_between
  · intro hparked
    exact absurd ((show (c.fedBy data run).deferredError.isSome = true from hparked)) (by simp [halive])
  · exact h.fed_deferred
  · exact fun _ => h.fed_tidy alive follows ok trailing
  · exact h.fed_parsed
  · intro _ hanswered
    show (c.fedBy data run).parser.acc.expectingBody = true
    have hanswered : (c.fedBy data run).parsed ∈ heads := hanswered
    rw [hparsed] at hanswered
    have hnone : (c.parser.feed data.length run).1.acc.completed = [] := by
      have hlast := h.parsed _ hanswered
      apply List.eq_nil_of_length_eq_zero
      omega
    rw [hnone] at hanswered
    exact htaken.still (h.expecting alive hanswered) hnone
  · intro _ hset
    show (c.fedBy data run).continueDeferred = true ↔ (c.fedBy data run).parsed ∉ heads
    rcases htaken.expecting hset with howes | ⟨hbefore, hnone⟩
    · exact absurd (owes.symm.trans howes) (by decide)
    · have hset : (c.fedBy data run).parser.acc.expectingBody = true := hset
      rw [hdeferred, hset, Bool.and_true, hparsed, hnone]
      exact h.owed alive hbefore

/-- A new expecting head behind requests that are not answered yet. -/
theorem wait (h : c.Answering heads) (alive : c.deferredError = none)
    (follows : c.follows run = true) {offset : Option Nat}
    (ok : (c.parser.feed data.length run).2 = .ok offset)
    (owes : (c.fedBy data run).parser.acc.owesContinue = true)
    (behind : c.active = true ∨ (c.fedBy data run).pending ≠ []) (trailing : Bytes) :
    Answering { c.took data run trailing with continueDeferred := true } heads := by
  have hnew := h.unanswered alive follows ok owes
  have hactive := (fedBy_rest data run c).1
  have halive : (c.fedBy data run).deferredError = none := (fedBy_rest data run c).2.1.trans alive
  have htidy := h.fed_tidy alive follows ok trailing
  constructor
  · exact h.fed_balance
  · exact h.fed_between
  · intro hparked
    exact absurd ((show (c.fedBy data run).deferredError.isSome = true from hparked)) (by simp [halive])
  · intro _
    show (c.fedBy data run).active = true ∨ (c.fedBy data run).pending ≠ []
    rw [hactive]
    exact behind
  · exact fun _ => ⟨htidy.staged, htidy.completed, htidy.owes⟩
  · exact h.fed_parsed
  · exact fun _ hanswered => absurd hanswered hnew
  · exact fun _ _ => ⟨fun _ => hnew, fun _ => rfl⟩

/-- A new expecting head with everything ahead of it answered: its interim response goes out. -/
theorem continued (h : c.Answering heads) (alive : c.deferredError = none)
    (follows : c.follows run = true) {offset : Option Nat}
    (ok : (c.parser.feed data.length run).2 = .ok offset)
    (owes : (c.fedBy data run).parser.acc.owesContinue = true) (idle : c.active = false)
    (empty : (c.fedBy data run).pending = []) (trailing : Bytes) :
    (c.took data run trailing).Answering (heads ++ [(c.took data run trailing).parsed]) := by
  have htaken := fedBy_taken (h.tidy alive) follows ok
  obtain ⟨-, hpending, -, -, -, hdeferred⟩ := fedBy_counts data run c
  have halive : (c.fedBy data run).deferredError = none := (fedBy_rest data run c).2.1.trans alive
  have hnone : c.continueDeferred = false := by
    by_contra hset
    rcases h.deferred (by simpa using hset) with hactive | hbehind
    · exact absurd (idle.symm.trans hactive) (by decide)
    · rw [hpending] at empty
      exact hbehind (List.append_eq_nil_iff.mp empty).1
  have hnone' : (c.took data run trailing).continueDeferred = false := by
    show (c.fedBy data run).continueDeferred = false
    rw [hdeferred, hnone, Bool.false_and]
  constructor
  · exact h.fed_balance
  · exact h.fed_between
  · intro hparked
    exact absurd ((show (c.fedBy data run).deferredError.isSome = true from hparked)) (by simp [halive])
  · exact fun hset => absurd (hnone'.symm.trans hset) (by decide)
  · exact fun _ => h.fed_tidy alive follows ok trailing
  · intro head hhead
    rcases List.mem_append.mp hhead with hhead | hhead
    · exact h.fed_parsed head hhead
    · rw [List.mem_singleton.mp hhead]
  · exact fun _ _ => htaken.staged.owes owes
  · intro _ _
    simp [hnone']

/-- A request that ended and is kept alive; nothing is owed. -/
theorem kept (h : c.Answering heads) (active : c.active = true) (done : c.response.resp = .done)
    (clean : c.pending = [] → c.deferredError = none) (owed : c.owed = false) :
    c.kept.resumed.Answering heads := by
  constructor
  · have hbalance := h.balance
    rw [active] at hbalance
    show c.parsed = c.answered + 1 + 0 + c.pending.length
    rw [Bool.toNat_true] at hbalance
    omega
  · exact fun _ => .inl done
  · intro hparked
    right
    intro hempty
    rw [show c.kept.resumed.deferredError = none from clean hempty] at hparked
    exact absurd hparked (by decide)
  · intro hset
    right
    intro hempty
    have hset : (c.continueDeferred && !c.pending.isEmpty) = true := hset
    rw [show c.pending = [] from hempty] at hset
    simp at hset
  · exact fun alive => ⟨(h.tidy alive).staged, (h.tidy alive).completed, (h.tidy alive).owes⟩
  · exact h.parsed
  · exact h.expecting
  · intro alive hset
    have hset : c.parser.acc.expectingBody = true := hset
    have howed := h.owed alive hset
    show (c.continueDeferred && !c.pending.isEmpty) = true ↔ c.parsed ∉ heads
    by_cases hempty : c.pending = []
    · have hnone : c.continueDeferred = false := by
        simpa [HttpConn.owed, hempty, HttpParser.expectingBody, hset] using owed
      rw [hnone] at howed
      simpa [hempty] using howed
    · simpa [hempty] using howed

/-- A request that ended and is kept alive, and the head behind it is owed its interim response. -/
theorem resume (h : c.Answering heads) (active : c.active = true) (done : c.response.resp = .done)
    (alive : c.deferredError = none) (owed : c.owed = true) :
    c.kept.resumed.Answering (heads ++ [c.parsed]) ∧ c.parsed ∉ heads := by
  simp only [HttpConn.owed, HttpParser.expectingBody, Bool.and_eq_true, List.isEmpty_iff] at owed
  obtain ⟨⟨hset, hempty⟩, hexpecting⟩ := owed
  have hnone : c.kept.resumed.continueDeferred = false := by
    show (c.continueDeferred && !c.pending.isEmpty) = false
    rw [hempty]
    simp
  refine ⟨?_, (h.owed alive hexpecting).mp hset⟩
  constructor
  · have hbalance := h.balance
    rw [active] at hbalance
    show c.parsed = c.answered + 1 + 0 + c.pending.length
    rw [Bool.toNat_true] at hbalance
    omega
  · exact fun _ => .inl done
  · intro hparked
    rw [show c.kept.resumed.deferredError = none from alive] at hparked
    exact absurd hparked (by decide)
  · exact fun hset => absurd (hnone.symm.trans hset) (by decide)
  · exact fun alive => ⟨(h.tidy alive).staged, (h.tidy alive).completed, (h.tidy alive).owes⟩
  · intro head hhead
    rcases List.mem_append.mp hhead with hhead | hhead
    · exact h.parsed head hhead
    · rw [List.mem_singleton.mp hhead]
      exact Nat.le_refl _
  · exact fun _ _ => hexpecting
  · intro _ _
    rw [hnone]
    constructor
    · exact fun h => absurd h Bool.false_ne_true
    · exact fun hnot => absurd (List.mem_append_right _ (List.mem_singleton.mpr rfl)) hnot

end HttpConn.Answering

/-! ## 3. The moves -/

/-- What the invariant says of a connection: what was written is in place, and while it is open it
knows which head is still to be answered for. -/
structure Interims (s : Conn) : Prop where
  inPlace : ∀ w ∈ s.out, w.origin = .interim → w.InPlace
  once : (heads s.out).Pairwise (· < ·)
  answering : s.shut = false → s.http.Answering (heads s.out)

/-- No interim response is among what was written. -/
def Silent (s s' : Conn) : Prop :=
  ∃ fresh : List Written, (∀ w ∈ fresh, w.origin ≠ .interim) ∧ s'.out = s.out ++ fresh

theorem Silent.of_eq (h : s'.out = s.out) : Silent s s' :=
  ⟨[], fun w hw => absurd hw (List.not_mem_nil), by rw [h, List.append_nil]⟩

theorem Silent.outward {s₁ : Conn} (h : Silent s s₁) (h' : Outward s₁ s') : Silent s s' := by
  obtain ⟨fresh, hfresh, hout⟩ := h
  exact ⟨fresh, hfresh, h'.out.trans hout⟩

theorem httpEnqueue_silent (origin : Origin) (data : Bytes) (h : origin ≠ .interim) :
    Silent s (httpEnqueue backend origin data s) := by
  obtain ⟨fresh, hfresh, houtward⟩ := @httpEnqueue_outward backend s origin data
  refine ⟨fresh, ?_, houtward.out⟩
  intro w hw
  rcases hfresh with rfl | rfl
  · exact absurd hw (List.not_mem_nil)
  · rw [List.mem_singleton.mp hw]
    exact h

theorem Interims.silent (h : Interims s) {s₁ : Conn} (hsilent : Silent s₁ s') (hsame : s₁.out = s.out)
    (hnext : s'.shut = false → s'.http.Answering (heads s.out)) : Interims s' := by
  obtain ⟨fresh, hfresh, hout⟩ := hsilent
  rw [hsame] at hout
  have hheads : heads s'.out = heads s.out := by
    rw [hout, heads_append, heads_silent hfresh, List.append_nil]
  constructor
  · intro w hw horigin
    rw [hout] at hw
    rcases List.mem_append.mp hw with hw | hw
    · exact h.inPlace w hw horigin
    · exact absurd horigin (hfresh w hw)
  · rw [hheads]
    exact h.once
  · rw [hheads]
    exact hnext

theorem Interims.closed (h : Interims s) {s₁ : Conn} (hsilent : Silent s₁ s') (hsame : s₁.out = s.out)
    (hshut : s'.shut = true) : Interims s' := by
  apply h.silent hsilent hsame
  intro hopen
  exact absurd (hopen.symm.trans hshut) (by decide)

/-- An open connection takes the interim response. -/
theorem sendContinue_sent (hopen : s.shut = false) :
    (sendContinue backend s).out = s.out ++ [s.written .interim continueResponse] := by
  obtain ⟨entry, he, hclosing⟩ := Conn.open_entry hopen
  unfold sendContinue httpEnqueue
  rw [he]
  dsimp only
  rw [if_neg (by decide)]
  cases htls : s.tls with
  | none =>
    dsimp only
    rw [if_neg (by simp [hclosing])]
    rfl
  | some tls => rfl

/-- On plaintext a close-marked connection drops it. -/
theorem sendContinue_dropped (hplain : s.tls = none) (hshut : s.shut = true) :
    sendContinue backend s = s := by
  unfold sendContinue httpEnqueue
  cases he : s.net.entry with
  | none => rfl
  | some entry =>
    have hclosing : entry.closing = true := by
      rcases (Conn.shut_iff s).mp hshut with hclosing | ⟨tls, htls, -⟩
      · exact hclosing entry he
      · exact absurd (hplain.symm.trans htls) (by simp)
    dsimp only
    rw [if_neg (by decide), hplain]
    dsimp only
    rw [if_pos hclosing]

theorem Interims.sent (h : Interims s) {s₁ : Conn} (hsent : s'.out = (sendContinue backend s₁).out)
    (hout : s₁.out = s.out) (hopen : s₁.shut = false)
    (hplace : (s₁.written .interim continueResponse).InPlace)
    (hparsed : ∀ head ∈ heads s.out, head ≤ s₁.http.parsed) (hnew : s₁.http.parsed ∉ heads s.out)
    (hnext : s'.shut = false → s'.http.Answering (heads s.out ++ [s₁.http.parsed])) :
    Interims s' := by
  rw [sendContinue_sent hopen, hout] at hsent
  have hheads : heads s'.out = heads s.out ++ [s₁.http.parsed] := by
    rw [hsent, heads_append]
    rfl
  constructor
  · intro w hw horigin
    rw [hsent] at hw
    rcases List.mem_append.mp hw with hw | hw
    · exact h.inPlace w hw horigin
    · rw [List.mem_singleton.mp hw]
      exact hplace
  · rw [hheads]
    apply List.pairwise_append.mpr
    refine ⟨h.once, List.pairwise_singleton _ _, ?_⟩
    intro head hhead last hlast
    rw [List.mem_singleton.mp hlast]
    apply lt_of_le_of_ne (hparsed head hhead)
    intro heq
    exact hnew (heq ▸ hhead)
  · rw [hheads]
    exact hnext

/-- What is written between two requests is written where everything before is answered. -/
theorem HttpConn.Answering.inPlace {answered : List Nat} (h : s.http.Answering answered)
    (hopen : s.shut = false) (idle : s.http.active = false) (empty : s.http.pending = [])
    (expecting : s.http.parser.acc.expectingBody = true) (origin : Origin) (data : Bytes) :
    (s.written origin data).InPlace where
  unshut := hopen
  answered := by
    have hbalance := h.balance
    rw [idle, empty] at hbalance
    exact hbalance.symm
  idle := idle
  between := (h.between idle).symm.imp_left And.left
  expecting := expecting

theorem ingest_interims (chunk : Chunk) (h : Interims s) (alive : s.http.deferredError = none)
    (follows : chunk.follows s = true)
    (now : s.http.continuesNow chunk.data chunk.run = true → s.shut = false) :
    Interims (ingest backend chunk s).2 := by
  have hfed := @ingest_ingested backend s chunk alive
  generalize (ingest backend chunk s).2 = s' at hfed ⊢
  cases hfed with
  | dropped trailing => exact h.closed (.of_eq teardown_outward.out) rfl (teardown_shut _)
  | answered e =>
    exact h.closed ((httpEnqueue_silent .refusal _ (by decide)).outward httpCloseAfterWrite_outward) rfl
      (httpCloseAfterWrite_shut _)
  | parked resp behind =>
    exact h.silent (.of_eq rfl) rfl fun hopen => (h.answering hopen).park resp behind
  | took trailing ok owes =>
    exact h.silent (.of_eq rfl) rfl fun hopen => (h.answering hopen).took alive follows ok owes trailing
  | deferred trailing ok owes behind =>
    exact h.silent (.of_eq rfl) rfl
      fun hopen => (h.answering hopen).wait alive follows ok owes behind trailing
  | continued trailing ok owes idle empty hnow =>
    have hopen := now hnow
    have hanswering := h.answering hopen
    have hnext := hanswering.continued alive follows ok owes idle empty trailing
    have hactive : (s.http.took chunk.data chunk.run trailing).active = false :=
      (HttpConn.fedBy_rest chunk.data chunk.run s.http).1.trans idle
    have hexpecting : (s.http.took chunk.data chunk.run trailing).parser.acc.expectingBody = true :=
      hnext.expecting ((HttpConn.fedBy_rest chunk.data chunk.run s.http).2.1.trans alive)
        (List.mem_append_right _ (List.mem_singleton.mpr rfl))
    apply h.sent rfl
    · rfl
    · exact hopen
    · exact @HttpConn.Answering.inPlace { s with http := s.http.took chunk.data chunk.run trailing }
        _ hnext hopen hactive empty hexpecting _ _
    · exact hanswering.fed_parsed
    · exact hanswering.unanswered alive follows ok owes
    · intro _
      rw [sendContinue_http]
      exact hnext

theorem finishRequest_interims (postOk : Bool) (h : Interims s) (here : s.net.entry.isSome = true)
    (active : s.http.active = true)
    (answered : s.http.response.resp = .done ∨ s.http.closes = true)
    (later : s.tls.isSome = true → s.http.continuesLater = true → s.shut = false) :
    Interims (finishRequest backend postOk s) := by
  have hfinished := @finishRequest_finishing backend s postOk here
  have hdone : s.http.closes = false → s.http.response.resp = .done := by
    intro hcloses
    exact answered.resolve_right (by simp [hcloses])
  generalize finishRequest backend postOk s = s' at hfinished ⊢
  cases hfinished with
  | closed delivered closes =>
    exact h.closed (.of_eq httpCloseAfterWrite_outward.out) rfl (httpCloseAfterWrite_shut _)
  | refused delivered resp closes empty parked =>
    exact h.closed ((httpEnqueue_silent .refusal _ (by decide)).outward httpCloseAfterWrite_outward) rfl
      (httpCloseAfterWrite_shut _)
  | kept delivered closes owed clean =>
    refine h.silent (.of_eq (httpResumeReading_outward postOk).out) rfl fun hopen => ?_
    have hopen' := (httpResumeReading_lasting postOk).open hopen
    have hanswering := h.answering hopen'
    rw [(httpResumeReading_outward postOk).http]
    exact hanswering.kept active (hdone closes) clean owed
  | continued delivered closes owed clean =>
    generalize hs₁ : ({ s with delivered, http := s.http.kept } : Conn) = s₁
    have hout : (httpResumeReading postOk (sendContinue backend s₁)).out =
        (sendContinue backend s₁).out := (httpResumeReading_outward postOk).out
    have hhttp : (httpResumeReading postOk (sendContinue backend s₁)).http = s₁.http.resumed := by
      rw [(httpResumeReading_outward postOk).http]
      show (sendContinue backend s₁).http.resumed = _
      rw [sendContinue_http]
    cases hshut : s.shut with
    | true =>
      -- what is shut here is plaintext, which drops it
      have hplain : s.tls = none := by
        by_contra hsecure
        have hlater : s.http.continuesLater = true := by
          simp only [HttpConn.owed, Bool.and_eq_true] at owed
          simp [HttpConn.continuesLater, active, hdone closes, closes, clean, owed.1.1, owed.1.2,
            owed.2]
        have hopen := later (Option.isSome_iff_ne_none.mpr hsecure) hlater
        exact absurd (hopen.symm.trans hshut) (by decide)
      have hshut₁ : s₁.shut = true := by
        rw [← hs₁]
        exact hshut
      rw [sendContinue_dropped (by rw [← hs₁]; exact hplain) hshut₁]
      exact h.closed (.of_eq (httpResumeReading_outward postOk).out) (by rw [← hs₁])
        ((httpResumeReading_lasting postOk).shut hshut₁)
    | false =>
      have hanswering := h.answering hshut
      obtain ⟨hnext, hnew⟩ := hanswering.resume active (hdone closes) clean owed
      have howed := owed
      simp only [HttpConn.owed, HttpParser.expectingBody, Bool.and_eq_true, List.isEmpty_iff] at howed
      apply h.sent hout
      · rw [← hs₁]
      · rw [← hs₁]
        exact hshut
      · rw [← hs₁]
        exact @HttpConn.Answering.inPlace { s with delivered, http := s.http.kept.resumed } _ hnext hshut
          rfl howed.1.2 howed.2 .interim continueResponse
      · rw [← hs₁]
        exact hanswering.parsed
      · rw [← hs₁]
        exact hnew
      · intro _
        rw [hhttp, ← hs₁]
        exact hnext

theorem answerFailure_silent (s : Conn) : Silent s (answerFailure backend s) := by
  unfold answerFailure releaseAfterResponse
  obtain ⟨fresh, hfresh, hout⟩ := @httpEnqueue_silent backend { s with http := { s.http with
    response := { s.http.response with resp := .done, keepAlive := false, logStatus := 500 } } }
    s.current (Http.errorResponse 500 "internal server error" s.http.response.activeMinor)
    (current_ne s)
  exact ⟨fresh, hfresh, httpCloseAfterWrite_outward.out.trans hout⟩

theorem Move.interims {late : Prop} (h : Move backend late s s') (hlate : ¬ late) (hs : Interims s) :
    Interims s' := by
  cases h with
  | outward h =>
    apply hs.silent (.of_eq h.out) rfl
    intro hopen
    rw [h.http]
    exact hs.answering (h.lasting.open hopen)
  | wrote origin data h =>
    apply hs.silent (httpEnqueue_silent origin data h) rfl
    intro hopen
    rw [httpEnqueue_http]
    exact hs.answering ((httpEnqueue_lasting origin data).open hopen)
  | quiet c tlsData pumps releases pumping delivered h =>
    exact hs.silent (.of_eq rfl) rfl fun hopen => (hs.answering hopen).quiet h
  | fed chunk here follows noSession alive unshut due =>
    apply ingest_interims chunk hs alive follows
    intro hnow
    by_contra hshut
    exact hlate (due (by simpa using hshut) hnow)
  | started pumping here idle queued good =>
    exact hs.silent (.of_eq rfl) rfl fun hopen => (hs.answering hopen).started idle queued _ _
  | refused here idle queued bad =>
    exact hs.closed ((httpEnqueue_silent _ _ (by simp)).outward httpCloseAfterWrite_outward) rfl
      (refuseUpgrade_shut _ _)
  | finished postOk here active answered due =>
    apply finishRequest_interims postOk hs here active answered
    intro htls hlater
    by_contra hshut
    exact hlate (due htls (by simpa using hshut) hlater)
  | failed here active noSession unanswered =>
    exact hs.closed (answerFailure_silent s) rfl (answerFailure_shut s)

/-! ## 4. Runs -/

theorem connStep_interims {event : Event} (hlate : s.late event = false)
    (h : s.http.Session ∧ Interims s) :
    (connStep backend s event).http.Session ∧ Interims (connStep backend s event) := by
  obtain ⟨hsession, hs⟩ := h
  have hnot : ¬ s.late event = true := by simp [hlate]
  exact connStep_keeps event hsession (fun hmove _ ha => hmove.interims hnot ha)
    (fun hs => ⟨hs.inPlace, hs.once, hs.answering⟩) hs

theorem newConn_interims (a : Accepted) : Interims (connection backend a).init where
  inPlace := fun _ hw => absurd hw (List.not_mem_nil)
  once := List.Pairwise.nil
  answering := fun _ => {
    balance := rfl
    between := fun _ => .inr ⟨rfl, rfl⟩
    parked := fun hset => absurd hset Bool.false_ne_true
    deferred := fun hset => absurd hset Bool.false_ne_true
    tidy := fun _ => ⟨⟨rfl, fun hset => absurd hset Bool.false_ne_true,
      fun hset => absurd hset Bool.false_ne_true⟩, rfl, rfl⟩
    parsed := fun _ hhead => absurd hhead (List.not_mem_nil)
    expecting := fun _ hhead => absurd hhead (List.not_mem_nil)
    owed := fun _ hset => absurd hset Bool.false_ne_true }

theorem Interims.placed (h : Interims s) : Placed s where
  inPlace := h.inPlace
  once := h.once
  sent := by
    intro hopen idle empty expecting
    have hanswering := h.answering hopen
    have hnone : s.http.continueDeferred = false := by
      by_contra hset
      rcases hanswering.deferred (by simpa using hset) with hactive | hbehind
      · exact absurd (idle.symm.trans hactive) (by decide)
      · exact hbehind empty
    have halive : s.http.deferredError = none := by
      cases hparked : s.http.deferredError with
      | none => rfl
      | some resp =>
        rcases hanswering.parked (by rw [hparked, Option.isSome_some]) with hactive | hbehind
        · exact absurd (idle.symm.trans hactive) (by decide)
        · exact absurd empty hbehind
    have howed := hanswering.owed halive expecting
    by_contra hnew
    exact absurd (hnone.symm.trans (howed.mpr hnew)) (by decide)

/-- Unless an interim response comes late, all of them are in place, one for each head. -/
theorem interims_placed (backend : Backend) (a : Accepted) (events : List Event)
    (h : (connection backend a).Along (fun s event => s.late event = false) events) :
    Placed ((connection backend a).run events) := by
  have hrun := (connection backend a).run_invariant_along
    (I := fun s => s.http.Session ∧ Interims s) ⟨fun hws => absurd hws Bool.false_ne_true,
      newConn_interims a⟩ (fun s event hs hlate => connStep_interims hlate hs) events h
  exact hrun.2.placed

/-- A listener with the default limits and no timeouts. -/
def listener (tls : Bool) : Accepted where
  highWater := 65536
  lowWater := 16384
  tls := tls
  eager := true
  limits := {}
  headTimeoutNs := 0
  idleTimeoutNs := 0

/-- A head that expects `100 Continue`, its body still to come. -/
def expectingHead : Chunk where
  data := ascii "POST / HTTP/1.1\r\nHost: a\r\nExpect: 100-continue\r\nContent-Length: 2\r\n\r\n"
  run := ⟨[.messageBegin, .url (ascii "/"), .headerField (ascii "Host"), .headerValue (ascii "a"),
    .headerField (ascii "Expect"), .headerValue (ascii "100-continue"),
    .headerField (ascii "Content-Length"), .headerValue (ascii "2"),
    .headersComplete ⟨"POST", 1, 1, false, true⟩], (1, 1), .ok⟩
  frames := []
  ended := false

/-- On an idle plaintext connection the head is answered at once. -/
theorem interims_placed_head :
    let s := (connection Net.Backend.failing (listener false)).run [.recvDone (.bytes expectingHead) true]
    heads s.out = [0] ∧ Placed s := by
  refine ⟨by decide, ?_⟩
  apply interims_placed
  rw [Machine.along_singleton]
  decide

/-- On TLS, the handshake, and then the head with the peer's close_notify behind it. -/
def lastWords : List Event :=
  let record : Chunk := ⟨[22], ⟨[], (0, 0), .ok⟩, [], false⟩
  [.recvDone (.bytes record) true,
    .tlsData ⟨false, [22], false, ⟨[], ⟨[], (0, 0), .ok⟩, [], false⟩⟩ ⟨0, [], []⟩,
    .recvDone (.bytes record) true, .tlsData ⟨true, [], true, expectingHead⟩ ⟨0, [], []⟩]

/-- The head is answered behind the mark. -/
theorem interim_behind_mark :
    ¬ Placed ((connection Net.Backend.failing (listener true)).run lastWords) := by
  intro h
  have hlate : ((connection Net.Backend.failing (listener true)).run lastWords).out.any
      (fun w => w.origin = .interim && w.shut) = true := by decide
  obtain ⟨w, hw, hmarked⟩ := List.any_eq_true.mp hlate
  simp only [Bool.and_eq_true, decide_eq_true_eq] at hmarked
  exact absurd ((h.inPlace w hw hmarked.1).unshut.symm.trans hmarked.2) (by decide)

end Cadeloop.Pyshim.Pipeline
