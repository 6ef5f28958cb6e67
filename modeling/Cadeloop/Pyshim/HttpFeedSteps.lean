import Cadeloop.Pyshim.HttpFeed
import Cadeloop.Core.HttpSpans

/-!
# What a chunk does to the requests of a connection

The parser's flags for `Expect: 100-continue` and for a head under way follow where llhttp is in its
message.  From that, what `conn_feed` leaves: the requests it queues, and what it says of the head that
came last.
-/

namespace Cadeloop.Core.Http

open Cadeloop.Reasoning
open Cadeloop.Pyshim.Pipeline (Stage)

/-! ## 1. The flags, callback by callback -/

namespace Acc

/-- The flags say where in a message the parser is. -/
structure Staged (stage : Stage) (a : Acc) : Prop where
  inHead : a.inHead = decide (stage = .head)
  expecting : a.expectingBody = true → stage = .body
  owes : a.owesContinue = true → a.expectingBody = true

/-- What callbacks did, from the first to the last: the requests they completed, and the head that an
interim response is owed for is one of theirs. -/
structure Fed (stage stage' : Stage) (a a' : Acc) (reqs : List Request) : Prop where
  completed : a'.completed = a.completed ++ reqs
  inBody : stage = .body → reqs = [] → stage' = .body
  keeps : a.owesContinue = true → reqs = [] → a'.owesContinue = true
  expecting : a'.expectingBody = true → a'.owesContinue = true ∨ a.expectingBody = true ∧ reqs = []
  still : a.expectingBody = true → reqs = [] → a'.expectingBody = true
  owes : a'.owesContinue = true → reqs = [] → a.owesContinue = true ∨ stage ≠ .body

theorem Fed.refl (stage : Stage) (a : Acc) : Fed stage stage a a [] where
  completed := by simp
  inBody := fun h _ => h
  keeps := fun h _ => h
  expecting := fun h => .inr ⟨h, rfl⟩
  still := fun h _ => h
  owes := fun h _ => .inl h

theorem commitHeader_flags (a : Acc) : a.commitHeader.inHead = a.inHead ∧
    a.commitHeader.expectingBody = a.expectingBody ∧
    a.commitHeader.owesContinue = a.owesContinue ∧ a.commitHeader.completed = a.completed := by
  unfold commitHeader
  split
  · exact ⟨rfl, rfl, rfl, rfl⟩
  · dsimp only
    split <;> exact ⟨rfl, rfl, rfl, rfl⟩

/-- A callback that only collects leaves the flags. -/
def SameFlags (a a' : Acc) : Prop :=
  a'.inHead = a.inHead ∧ a'.expectingBody = a.expectingBody ∧
    a'.owesContinue = a.owesContinue ∧ a'.completed = a.completed

theorem onUrl_flags {a : Acc} (span : Bytes) (h : (a.onUrl span).2 = 0) :
    SameFlags a (a.onUrl span).1 := by
  unfold onUrl at h ⊢
  split at h
  · exact absurd h (fail_ne _ _)
  · rename_i hfits
    rw [if_neg hfits]
    exact ⟨rfl, rfl, rfl, rfl⟩

theorem onHeaderField_flags {a : Acc} (span : Bytes) (h : (a.onHeaderField span).2 = 0) :
    SameFlags a (a.onHeaderField span).1 := by
  unfold onHeaderField at h ⊢
  dsimp only at h ⊢
  split at h
  · exact absurd h (fail_ne _ _)
  rename_i hbytes
  split at h
  · exact absurd h (fail_ne _ _)
  rename_i hcount
  rw [if_neg hbytes, if_neg hcount]
  exact commitHeader_flags a

theorem onHeaderValue_flags {a : Acc} (span : Bytes) (h : (a.onHeaderValue span).2 = 0) :
    SameFlags a (a.onHeaderValue span).1 := by
  unfold onHeaderValue at h ⊢
  dsimp only at h ⊢
  split at h
  · exact absurd h (fail_ne _ _)
  · rename_i hbytes
    rw [if_neg hbytes]
    exact ⟨rfl, rfl, rfl, rfl⟩

theorem onBody_flags {a : Acc} (span : Bytes) (h : (a.onBody span).2 = 0) :
    SameFlags a (a.onBody span).1 := by
  unfold onBody at h ⊢
  split at h
  · rename_i cap hcap
    split at h
    · exact absurd h (fail_ne _ _)
    · rename_i hfits
      rw [if_neg hfits]
      exact ⟨rfl, rfl, rfl, rfl⟩
  · exact ⟨rfl, rfl, rfl, rfl⟩

/-- The end of a head sets both flags, or neither. -/
theorem onHeadersComplete_flags {a : Acc} (p : Llhttp) (h : (a.onHeadersComplete p).2 = 0) :
    (a.onHeadersComplete p).1.inHead = false ∧
      (a.onHeadersComplete p).1.completed = a.completed ∧
      ((a.onHeadersComplete p).1.expectingBody = true ∧
          (a.onHeadersComplete p).1.owesContinue = true ∨
        (a.onHeadersComplete p).1.expectingBody = a.expectingBody ∧
          (a.onHeadersComplete p).1.owesContinue = a.owesContinue) := by
  obtain ⟨-, hexpecting, howes, hcompleted⟩ := commitHeader_flags a
  unfold onHeadersComplete at h ⊢
  dsimp only at h ⊢
  split at h
  · exact absurd h (fail_ne _ _)
  rename_i hhost
  rw [if_neg hhost]
  split at h
  · exact absurd h (fail_ne _ _)
  rename_i hlarge
  rw [if_neg hlarge]
  split
  · exact ⟨rfl, hcompleted, .inl ⟨rfl, rfl⟩⟩
  · exact ⟨rfl, hcompleted, .inr ⟨hexpecting, howes⟩⟩

theorem Staged.same {stage stage' : Stage} {a a' : Acc} (h : Staged stage a) (hsame : SameFlags a a')
    (hstage : stage' = stage) : Staged stage' a' := by
  obtain ⟨hin, hexpecting, howes, -⟩ := hsame
  subst hstage
  constructor
  · rw [hin]
    exact h.inHead
  · rw [hexpecting]
    exact h.expecting
  · rw [hexpecting, howes]
    exact h.owes

theorem Fed.same {stage stage' : Stage} {a a' : Acc} (h : SameFlags a a') (hstage : stage' = stage) :
    Fed stage stage' a a' [] := by
  obtain ⟨-, hexpecting, howes, hcompleted⟩ := h
  subst hstage
  constructor
  · simp [hcompleted]
  · exact fun h _ => h
  · rw [howes]
    exact fun h _ => h
  · rw [hexpecting]
    exact fun h => .inr ⟨h, rfl⟩
  · rw [hexpecting]
    exact fun h _ => h
  · rw [howes]
    exact fun h _ => .inl h

theorem callback_staged {stage stage' : Stage} {a : Acc} {c : Callback} (h : Staged stage a)
    (hnext : stage.next c = some stage') (hok : (a.callback c).2 = 0) :
    Staged stage' (a.callback c).1 ∧ ∃ reqs, Fed stage stage' a (a.callback c).1 reqs := by
  cases c with
  | messageBegin =>
    cases stage <;> simp only [Stage.next, reduceCtorEq, Option.some.injEq] at hnext
    subst hnext
    have hquiet : a.expectingBody = false := by
      by_contra hexpecting
      exact absurd (h.expecting (by simpa using hexpecting)) (by decide)
    have howes : a.owesContinue = false := by
      by_contra howes
      exact absurd (h.owes (by simpa using howes)) (by simp [hquiet])
    refine ⟨⟨rfl, ?_, ?_⟩, [], ?_, ?_, ?_, ?_, ?_, ?_⟩ <;>
      simp [callback, onMessageBegin, hquiet, howes]
  | url span =>
    cases stage <;> simp only [Stage.next, reduceCtorEq, Option.some.injEq] at hnext
    have hsame := onUrl_flags span hok
    exact ⟨h.same hsame hnext.symm, [], .same hsame hnext.symm⟩
  | headerField span =>
    have hstage : stage' = stage := by
      cases stage <;> simp only [Stage.next, reduceCtorEq, Option.some.injEq] at hnext <;>
        exact hnext.symm
    have hsame := onHeaderField_flags span hok
    exact ⟨h.same hsame hstage, [], .same hsame hstage⟩
  | headerValue span =>
    have hstage : stage' = stage := by
      cases stage <;> simp only [Stage.next, reduceCtorEq, Option.some.injEq] at hnext <;>
        exact hnext.symm
    have hsame := onHeaderValue_flags span hok
    exact ⟨h.same hsame hstage, [], .same hsame hstage⟩
  | headersComplete p =>
    cases stage <;> simp only [Stage.next, reduceCtorEq, Option.some.injEq] at hnext
    subst hnext
    obtain ⟨hin, hcompleted, hflags⟩ := onHeadersComplete_flags p hok
    refine ⟨⟨hin, fun _ => rfl, ?_⟩, [], ?_, fun _ _ => rfl, ?_, ?_, ?_, fun _ _ => .inr (by decide)⟩
    · rcases hflags with ⟨hexpecting, -⟩ | ⟨hexpecting, howes⟩
      · exact fun _ => hexpecting
      · show (a.onHeadersComplete p).1.owesContinue = true →
          (a.onHeadersComplete p).1.expectingBody = true
        rw [hexpecting, howes]
        exact h.owes
    · rw [List.append_nil]
      exact hcompleted
    · rcases hflags with ⟨-, howes⟩ | ⟨-, howes⟩
      · exact fun _ _ => howes
      · intro hset _
        exact howes.trans hset
    · rcases hflags with ⟨-, howes⟩ | ⟨hexpecting, -⟩
      · exact fun _ => .inl howes
      · intro hset
        exact .inr ⟨hexpecting ▸ hset, rfl⟩
    · rcases hflags with ⟨hset, -⟩ | ⟨hexpecting, -⟩
      · exact fun _ _ => hset
      · exact fun hset _ => hexpecting.trans hset
  | body span =>
    cases stage <;> simp only [Stage.next, reduceCtorEq, Option.some.injEq] at hnext
    have hsame := onBody_flags span hok
    exact ⟨h.same hsame hnext.symm, [], .same hsame hnext.symm⟩
  | messageComplete p =>
    cases stage <;> simp only [Stage.next, reduceCtorEq, Option.some.injEq] at hnext
    subst hnext
    have hin : a.inHead = false := h.inHead
    refine ⟨⟨?_, ?_, ?_⟩, _, rfl, ?_, ?_, ?_, ?_, ?_⟩ <;> simp [callback, onMessageComplete, hin]

theorem Fed.trans {stage stage' stage'' : Stage} {a b c : Acc} {reqs reqs' : List Request}
    (h : Fed stage stage' a b reqs) (h' : Fed stage' stage'' b c reqs') :
    Fed stage stage'' a c (reqs ++ reqs') where
  completed := by rw [h'.completed, h.completed, List.append_assoc]
  inBody := by
    intro hbody hnone
    obtain ⟨hnone, hnone'⟩ := List.append_eq_nil_iff.mp hnone
    exact h'.inBody (h.inBody hbody hnone) hnone'
  keeps := by
    intro howes hnone
    obtain ⟨hnone, hnone'⟩ := List.append_eq_nil_iff.mp hnone
    exact h'.keeps (h.keeps howes hnone) hnone'
  expecting := by
    intro hset
    rcases h'.expecting hset with howes | ⟨hset, hnone'⟩
    · exact .inl howes
    rcases h.expecting hset with howes | ⟨hset, hnone⟩
    · exact .inl (h'.keeps howes hnone')
    · exact .inr ⟨hset, by simp [hnone, hnone']⟩
  still := by
    intro hset hnone
    obtain ⟨hnone, hnone'⟩ := List.append_eq_nil_iff.mp hnone
    exact h'.still (h.still hset hnone) hnone'
  owes := by
    intro howes hnone
    obtain ⟨hnone, hnone'⟩ := List.append_eq_nil_iff.mp hnone
    rcases h'.owes howes hnone' with howes | hstage'
    · exact h.owes howes hnone
    · exact .inr fun hbody => hstage' (h.inBody hbody hnone)

theorem drive_staged {cs : List Callback} {stage stage' : Stage} {a : Acc} (h : Staged stage a)
    (hafter : stage.after cs = some stage') (hok : (a.drive cs).2 = 0) :
    Staged stage' (a.drive cs).1 ∧ ∃ reqs, Fed stage stage' a (a.drive cs).1 reqs := by
  induction cs generalizing a stage with
  | nil =>
    obtain rfl : stage = stage' := Option.some.inj hafter
    exact ⟨h, [], .refl stage a⟩
  | cons c cs ih =>
    rw [Stage.after] at hafter
    rw [drive] at hok ⊢
    cases hnext : stage.next c with
    | none => simp [hnext] at hafter
    | some next =>
      rw [hnext, Option.bind_some] at hafter
      by_cases hc : (a.callback c).2 = 0
      · rw [if_pos hc] at hok ⊢
        obtain ⟨hstaged, reqs, hfed⟩ := callback_staged h hnext hc
        obtain ⟨hstaged', reqs', hfed'⟩ := ih hstaged hafter hok
        exact ⟨hstaged', reqs ++ reqs', hfed.trans hfed'⟩
      · rw [if_neg hc] at hok
        exact absurd hok hc

end Acc

end Cadeloop.Core.Http

namespace Cadeloop.Pyshim.Pipeline

open Cadeloop.Reasoning
open Core.Http (Acc Execution HttpParser ParseError Request)

namespace HttpConn

variable {c : HttpConn} {data : Bytes} {run : Execution}

/-! ## 2. What `conn_feed` leaves -/

/-- The bytes that requests retain while queued. -/
def queuedSizes (reqs : List Request) : Nat := (reqs.map Request.queuedSize).sum

theorem queuedSizes_append (reqs reqs' : List Request) :
    queuedSizes (reqs ++ reqs') = queuedSizes reqs + queuedSizes reqs' := by
  simp [queuedSizes]

theorem takeRequests_eq (reqs : List Request) (h : c.parser.acc.completed = reqs) :
    takeRequests reqs.length c = { c with
      parser := { c.parser with acc := { c.parser.acc with completed := [] } }
      pendingBytes := c.pendingBytes + queuedSizes reqs
      pending := c.pending ++ reqs
      parsed := c.parsed + reqs.length } := by
  induction reqs generalizing c with
  | nil =>
    have hacc : { c.parser.acc with completed := [] } = c.parser.acc := by rw [← h]
    simp only [List.length_nil, takeRequests, hacc, queuedSizes, List.map_nil, List.sum_nil,
      Nat.add_zero, List.append_nil]
  | cons req reqs ih =>
    rw [List.length_cons, takeRequests, HttpParser.nextRequest]
    simp only [h]
    rw [ih rfl]
    simp only [queuedSizes, List.map_cons, List.sum_cons, List.append_assoc, List.cons_append,
      List.nil_append, Nat.add_assoc, Nat.add_comm 1]

/-- What a chunk changes, with the requests it completed. -/
structure Feeds (c c' : HttpConn) (reqs : List Request) : Prop where
  rest : c' = { c with
    sawBytes := true
    parser := c'.parser
    stage := c'.stage
    pending := c.pending ++ reqs
    pendingBytes := c.pendingBytes + queuedSizes reqs
    parsed := c.parsed + reqs.length
    continueDeferred := c.continueDeferred && c'.parser.acc.expectingBody
    wsTrailing := c'.wsTrailing }
  completed : c'.parser.acc.completed = []

theorem keepTrailing_eq (data : Bytes) (offset : Option Nat) (c : HttpConn) :
    (keepTrailing data offset c).2 =
      { c with wsTrailing := (keepTrailing data offset c).2.wsTrailing } := by
  unfold keepTrailing
  cases offset with
  | none => rfl
  | some offset =>
    dsimp only
    split <;> rfl

theorem dropContinue_eq (c : HttpConn) : c.dropContinue =
    { c with continueDeferred := c.continueDeferred && c.parser.acc.expectingBody } := by
  unfold dropContinue HttpParser.expectingBody
  split
  · rename_i h
    simp [h.1, h.2]
  · rename_i h
    have hsame : (c.continueDeferred && c.parser.acc.expectingBody) = c.continueDeferred := by
      cases hdeferred : c.continueDeferred with
      | false => rfl
      | true =>
        by_contra hexpecting
        exact h ⟨hdeferred, by simpa using hexpecting⟩
    rw [hsame]

/-- What `conn_feed` makes of the connection but for the bytes behind an upgrade. -/
def fedBy (data : Bytes) (run : Execution) (c : HttpConn) : HttpConn :=
  let c := (fedParser data.length run { c with sawBytes := true }).2
  dropContinue (takeRequests c.parser.acc.completed.length c)

theorem fedBy_feeds (data : Bytes) (run : Execution) (c : HttpConn) :
    c.Feeds (c.fedBy data run) (c.parser.feed data.length run).1.acc.completed := by
  unfold fedBy
  dsimp only
  rw [takeRequests_eq _ rfl, dropContinue_eq]
  exact ⟨rfl, rfl⟩

theorem connFeed_error {e : ParseError} (h : (c.parser.feed data.length run).2 = .error e) :
    c.connFeed data run = (.error e, c.fedBy data run) := by
  have hfed : (fedParser data.length run { c with sawBytes := true }).1 = .error e := h
  unfold connFeed
  rw [show fedParser data.length run { c with sawBytes := true } =
    (.error e, (fedParser data.length run { c with sawBytes := true }).2) from Prod.ext hfed rfl]
  rfl

/-- The flag of the interim response is taken, and answered for by the caller. -/
def owesTaken (c : HttpConn) : HttpConn :=
  { c with parser := { c.parser with acc := { c.parser.acc with owesContinue := false } } }

theorem connFeed_ok {offset : Option Nat} (h : (c.parser.feed data.length run).2 = .ok offset) :
    c.connFeed data run =
      (.ok
        { pump := !(c.fedBy data run).pending.isEmpty && !(c.fedBy data run).active
          pauseReading := (c.fedBy data run).pipelineFull
          owesContinue := (c.fedBy data run).parser.acc.owesContinue
          oversizeWsTrailing := (keepTrailing data offset (c.fedBy data run)).1 },
        { (c.fedBy data run).owesTaken with
          wsTrailing := (keepTrailing data offset (c.fedBy data run)).2.wsTrailing }) := by
  have hfed : (fedParser data.length run { c with sawBytes := true }).1 = .ok offset := h
  unfold connFeed
  rw [show fedParser data.length run { c with sawBytes := true } =
    (.ok offset, (fedParser data.length run { c with sawBytes := true }).2) from Prod.ext hfed rfl]
  dsimp only
  rw [show dropContinue _ = c.fedBy data run from rfl]
  generalize hkept : keepTrailing data offset (c.fedBy data run) = kept
  have heq := keepTrailing_eq data offset (c.fedBy data run)
  rw [hkept] at heq
  obtain ⟨oversize, c₁⟩ := kept
  dsimp only at heq ⊢
  rw [heq]
  rfl

/-- llhttp ran, and no callback stopped it. -/
theorem feed_ok {p : HttpParser} {len : Nat} {offset : Option Nat}
    (hup : p.upgraded = false) (h : (p.feed len run).2 = .ok offset) :
    p.failed = false ∧ (p.acc.drive run.callbacks).2 = 0 ∧
      (p.feed len run).1.acc = (p.acc.drive run.callbacks).1 := by
  unfold HttpParser.feed at h ⊢
  rw [if_neg (by simp [hup])] at h ⊢
  cases hfailed : p.failed with
  | true => simp [hfailed] at h
  | false =>
    rw [if_neg (by simp [hfailed])] at h ⊢
    dsimp only at h ⊢
    by_cases hrc : (p.acc.drive run.callbacks).2 = 0
    · rw [if_neg (by simp [hrc])]
      refine ⟨rfl, hrc, ?_⟩
      split <;> rfl
    · rw [if_pos hrc] at h
      exact absurd h (by simp)

/-- The parser between two chunks: alive, its flags say where it is, and nothing is left to take. -/
structure Tidy (c : HttpConn) : Prop where
  staged : Acc.Staged c.stage c.parser.acc
  completed : c.parser.acc.completed = []
  owes : c.parser.acc.owesContinue = false

/-- A chunk that the parser took: where it is then, and which head the interim response is owed
for. -/
structure Taken (c c' : HttpConn) (reqs : List Request) : Prop where
  staged : Acc.Staged c'.stage c'.parser.acc
  expecting : c'.parser.acc.expectingBody = true →
    c'.parser.acc.owesContinue = true ∨ c.parser.acc.expectingBody = true ∧ reqs = []
  still : c.parser.acc.expectingBody = true → reqs = [] → c'.parser.acc.expectingBody = true
  owes : c'.parser.acc.owesContinue = true → reqs = [] → c.stage ≠ .body

theorem parser_of_fedBy (data : Bytes) (run : Execution) (c : HttpConn) :
    (c.fedBy data run).parser = { (c.parser.feed data.length run).1 with
      acc := { (c.parser.feed data.length run).1.acc with completed := [] } } := by
  unfold fedBy
  dsimp only
  rw [takeRequests_eq _ rfl, dropContinue_eq]
  rfl

theorem fedBy_stage (data : Bytes) (run : Execution) (c : HttpConn) : (c.fedBy data run).stage =
    if c.parser.upgraded || c.parser.failed then c.stage
    else (c.stage.after run.callbacks).getD c.stage := by
  unfold fedBy
  dsimp only
  rw [takeRequests_eq _ rfl, dropContinue_eq]
  rfl

theorem fedBy_taken (h : c.Tidy) (hfollows : c.follows run) {offset : Option Nat}
    (hok : (c.parser.feed data.length run).2 = .ok offset) :
    c.Taken (c.fedBy data run) (c.parser.feed data.length run).1.acc.completed := by
  have hparser := parser_of_fedBy data run c
  have hstage := fedBy_stage data run c
  cases hup : c.parser.upgraded with
  | true =>
    have hfeed : c.parser.feed data.length run = (c.parser, .ok (some 0)) := by
      simp [HttpParser.feed, hup]
    rw [hfeed] at hparser ⊢
    rw [hup, Bool.true_or, if_pos rfl] at hstage
    constructor
    · rw [hstage, hparser]
      exact ⟨h.staged.inHead, h.staged.expecting, h.staged.owes⟩
    · rw [hparser]
      exact fun hset => .inr ⟨hset, h.completed⟩
    · rw [hparser]
      exact fun hset _ => hset
    · rw [hparser]
      intro howes
      exact absurd (h.owes.symm.trans howes) (by decide)
  | false =>
    obtain ⟨hfailed, hrc, hacc⟩ := feed_ok hup hok
    obtain ⟨stage', hafter⟩ : ∃ stage', c.stage.after run.callbacks = some stage' := by
      rw [follows, hup, hfailed, Bool.false_or, Bool.false_or] at hfollows
      exact Option.isSome_iff_exists.mp hfollows
    rw [hup, hfailed, Bool.false_or, if_neg Bool.false_ne_true, hafter, Option.getD_some] at hstage
    obtain ⟨hstaged, reqs, hfed⟩ := Acc.drive_staged h.staged hafter hrc
    have hreqs : (c.parser.feed data.length run).1.acc.completed = reqs := by
      rw [hacc, hfed.completed, h.completed, List.nil_append]
    rw [hreqs]
    rw [hacc] at hparser
    constructor
    · rw [hstage, hparser]
      exact ⟨hstaged.inHead, hstaged.expecting, hstaged.owes⟩
    · rw [hparser]
      exact hfed.expecting
    · rw [hparser]
      exact hfed.still
    · rw [hparser]
      intro howes hnone
      rcases hfed.owes howes hnone with hbefore | hstage
      · exact absurd (h.owes.symm.trans hbefore) (by decide)
      · exact hstage

end HttpConn

end Cadeloop.Pyshim.Pipeline
