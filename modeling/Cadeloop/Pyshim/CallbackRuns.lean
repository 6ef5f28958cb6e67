import Cadeloop.Pyshim.Callbacks
import Cadeloop.Pyshim.InboundRuns

/-!
# The order of the calls to a protocol

`connection_made` first and one `connection_lost` last, for every run; and, as long as no protocol
changes the transport between two rounds of one chunk, no byte handed over while reading is paused,
twice, or out of order.
-/

namespace Cadeloop.Pyshim.Net

open Cadeloop.Reasoning

/-! ## 1. What a step leaves of the stream -/

/-- A step that hands nothing over, and brings nothing back to life. -/
structure Stays (s s' : Stream) : Prop where
  delivered : s'.delivered = s.delivered
  gone : s.net.entry = none → s'.net.entry = none
  live : s'.net.live → s.net.live

theorem Stays.refl (s : Stream) : Stays s s := ⟨rfl, id, id⟩

theorem Stays.trans {s s' s'' : Stream} (h : Stays s s') (h' : Stays s' s'') : Stays s s'' :=
  ⟨h'.delivered.trans h.delivered, fun hgone => h'.gone (h.gone hgone),
    fun hlive => h.live (h'.live hlive)⟩

theorem Stays.of_net {s s' : Stream} (hdelivered : s'.delivered = s.delivered)
    (hnet : s'.net = s.net) : Stays s s' := ⟨hdelivered, by rw [hnet]; exact id, by rw [hnet]; exact id⟩

theorem Stays.of_gone {s s' : Stream} (hdelivered : s'.delivered = s.delivered)
    (hgone : s'.net.entry = none) : Stays s s' :=
  ⟨hdelivered, fun _ => hgone, fun hlive => absurd hlive (not_live_of_gone hgone)⟩

theorem postRecv_stays (ok : Bool) (s : Stream) : Stays s (postRecv ok s) := by
  unfold postRecv
  split
  · exact .refl s
  split <;> exact .of_net rfl rfl

theorem Stays.posted (ok : Bool) {s s' : Stream} (hdelivered : s'.delivered = s.delivered)
    (hnet : s'.net = s.net) : Stays s (postRecv ok s') :=
  (Stays.of_net hdelivered hnet).trans (postRecv_stays ok s')

theorem onRecvDone_stays (result : Option (List UInt8)) (postOk : Bool) (s : Stream) :
    Stays s (onRecvDone result postOk s) := by
  unfold onRecvDone
  dsimp only
  split
  · exact .of_net rfl rfl
  split
  · exact .of_gone rfl (teardown_gone _ _)
  · split <;> exact .of_net rfl rfl
  · split
    · exact .of_net rfl rfl
    · exact .posted postOk rfl rfl

theorem resumeReading_stays (postOk : Bool) (s : Stream) : Stays s (resumeReading postOk s) := by
  unfold resumeReading
  dsimp only
  split
  · split
    · exact .posted postOk rfl rfl
    · exact .of_net rfl rfl
  · exact .refl s

theorem streamStep_stays {s : Stream} (hc : Conserved s) {event : StreamEvent}
    (hevent : event ≠ .dispatch) : Stays s (streamStep s event) := by
  cases event with
  | writing backend op =>
    exact ⟨rfl, netStep_gone backend op, live_before_netStep hc.py⟩
  | recvDone result postOk =>
    unfold streamStep
    dsimp only
    split
    · exact onRecvDone_stays result postOk s
    · exact .refl s
  | pauseReading =>
    show Stays s (pauseReading s)
    unfold pauseReading
    split
    · exact .of_net rfl rfl
    · exact .refl s
  | resumeReading postOk => exact resumeReading_stays postOk s
  | setProtocol buffered =>
    have hkept := netStep_kept .failing hc.py .setProtocol rfl
    exact ⟨rfl, netStep_gone .failing .setProtocol,
      hkept.live_before⟩
  | dispatch => exact absurd rfl hevent
  | connectionLost =>
    unfold streamStep
    dsimp only
    split
    · exact .of_net rfl rfl
    · exact .refl s

/-- An inbound event that is routed reaches the protocol; the transport is as it was. -/
theorem dispatch_routed {s : Stream} {event : NetEvent} {rest : List NetEvent}
    (he : s.events = event :: rest) (hlive : s.net.live) (hreading : s.readingPaused = false)
    (hfailed : event ≠ .recvFailed) :
    (streamStep s .dispatch).delivered = s.delivered ++ event.pieces ∧
      (streamStep s .dispatch).net = s.net ∧
      (streamStep s .dispatch).readingPaused = false := by
  show (dispatchNext s).delivered = _ ∧ (dispatchNext s).net = _ ∧
    (dispatchNext s).readingPaused = false
  have hdead : ¬ (¬ s.net.live = true) := not_not_intro hlive
  have hrunning : ¬ s.readingPaused = true := by rw [hreading]; decide
  unfold dispatchNext
  rw [he]
  cases event with
  | recvFailed => exact absurd rfl hfailed
  | eof =>
    simp only [dispatchOneEvent, routeEof, if_neg hdead, if_neg hrunning, NetEvent.pieces,
      List.append_nil]
    exact ⟨trivial, trivial, hreading⟩
  | _ =>
    simp only [dispatchOneEvent, routeInbound, if_neg hdead, if_neg hrunning, NetEvent.pieces]
    exact ⟨trivial, trivial, hreading⟩

/-- One that is not leaves the protocol what it got. -/
theorem dispatch_stays {s : Stream}
    (h : ¬ s.net.live ∨ s.readingPaused = true ∨ ∃ rest, s.events = .recvFailed :: rest) :
    Stays s (streamStep s .dispatch) := by
  show Stays s (dispatchNext s)
  have hroute : ∀ (pieces : List Piece) (events : List NetEvent),
      (¬ s.net.live ∨ s.readingPaused = true) →
      Stays s (routeInbound pieces { s with events }) := by
    intro pieces events hheld
    unfold routeInbound
    split
    · exact .of_net rfl rfl
    · rename_i hlive
      split
      · exact .of_net rfl rfl
      · rename_i hreading
        exact absurd (hheld.resolve_left (fun hdead => hlive hdead)) hreading
  unfold dispatchNext
  split
  · exact .refl s
  rename_i event rest he
  cases event with
  | recvFailed => exact .of_gone rfl (teardown_gone _ _)
  | eof =>
    show Stays s (routeEof _)
    unfold routeEof
    split
    · exact .of_net rfl rfl
    split <;> exact .of_net rfl rfl
  | _ =>
    refine hroute _ rest (h.imp_right fun h => h.resolve_right ?_)
    rintro ⟨rest', he'⟩
    rw [he] at he'
    cases he'

/-! ## 2. One `connection_lost`, and nothing behind it -/

namespace Transport

/-- An inbound event is left without a callback, or routed: to `eof_received`, or with its bytes. -/
theorem dispatchInbound_cases (t : Transport) :
    t.dispatchInbound = t ∨
    (Stays t.stream (streamStep t.stream .dispatch) ∧
      t.dispatchInbound = t.noticed false (streamStep t.stream .dispatch)) ∨
    ∃ event rest, t.stream.events = event :: rest ∧ t.stream.net.live ∧
      t.stream.readingPaused = false ∧ event ≠ .recvFailed ∧
      t.dispatchInbound =
        if event = .eof then (t.noticed false (streamStep t.stream .dispatch)).called .eofReceived
        else (t.noticed false (streamStep t.stream .dispatch)).deliver event.bytes := by
  unfold dispatchInbound
  cases he : t.stream.events with
  | nil => exact .inl rfl
  | cons event rest =>
  right
  dsimp only
  by_cases hheld : ¬ t.stream.net.live ∨ t.stream.readingPaused = true
  · left
    refine ⟨dispatch_stays (hheld.imp_right .inl), ?_⟩
    rw [if_pos]
    rcases hheld with hdead | hpaused
    · rw [Bool.not_eq_true] at hdead
      rw [hdead]
      rfl
    · rw [hpaused, Bool.or_true]
  rw [not_or, not_not, Bool.not_eq_true] at hheld
  rw [if_neg (by rw [hheld.1, hheld.2]; decide)]
  by_cases hfailed : event = .recvFailed
  · left
    subst hfailed
    exact ⟨dispatch_stays (.inr (.inr ⟨rest, he⟩)), rfl⟩
  · right
    refine ⟨event, rest, rfl, hheld.1, hheld.2, hfailed, ?_⟩
    cases event with
    | recvFailed => exact absurd rfl hfailed
    | eof => rw [if_pos rfl]
    | _ => rw [if_neg (by simp)]

def isLost : Pending → Bool
  | .lost _ => true
  | _ => false

/-- How often `connection_lost` was called. -/
def lostCount (t : Transport) : Nat := t.calls.countP fun c => c.call = .connectionLost

/-- How often it is still to be. -/
def lostPending (t : Transport) : Nat := (t.queue ++ t.hand).countP isLost + t.lostCalls

theorem lostCount_calledOn {t : Transport} {install : Nat} {call : Call}
    (hcall : call ≠ .connectionLost) : (t.calledOn install call).lostCount = t.lostCount := by
  rw [lostCount, calledOn, List.countP_append, List.countP_singleton]
  simp [hcall, lostCount]

structure Disciplined (t : Transport) : Prop where
  made : t.made = true
  conserved : Conserved t.stream
  first : (t.calls.map Called.call).head? = some .connectionMade
  once : t.lostCount + t.lostPending = if t.stream.net.entry.isNone then 1 else 0
  last : Call.connectionLost ∉ (t.calls.map Called.call).dropLast
  ended : t.lostCount ≠ 0 → t.chunk = none

namespace Disciplined

variable {t : Transport}

theorem none_called (h : Disciplined t) (hsome : t.stream.net.entry.isSome) : t.lostCount = 0 := by
  have honce := h.once
  rw [if_neg (by simpa [Option.isSome_iff_ne_none] using hsome)] at honce
  omega

theorem not_mem (h : t.lostCount = 0) : Call.connectionLost ∉ t.calls.map Called.call := by
  rw [lostCount, List.countP_eq_zero] at h
  intro hmem
  obtain ⟨c, hc, heq⟩ := List.mem_map.mp hmem
  exact h c hc (by simpa using heq)

/-- Another call, `connection_lost` not having been made. -/
theorem calledOn (h : Disciplined t) (hnone : t.lostCount = 0)
    (install : Nat) {call : Call} (hcall : call ≠ .connectionLost) :
    Disciplined (t.calledOn install call) where
  made := h.made
  conserved := h.conserved
  first := by
    show ((t.calls ++ [_]).map Called.call).head? = some .connectionMade
    rw [List.map_append, List.head?_append, h.first]
    rfl
  once := by
    rw [lostCount_calledOn hcall]
    exact h.once
  last := by
    show Call.connectionLost ∉ ((t.calls ++ [_]).map Called.call).dropLast
    rw [List.map_append, List.map_singleton, List.dropLast_concat]
    exact not_mem hnone
  ended := by
    rw [lostCount_calledOn hcall]
    exact fun hne => absurd hnone hne

/-- A step of the stream, which pushes `connection_lost` when it ends the transport. -/
theorem noticed (h : Disciplined t) (immediate : Bool) {stream : Stream}
    (hconserved : Conserved stream)
    (hgone : t.stream.net.entry = none → stream.net.entry = none) :
    Disciplined (t.noticed immediate stream) where
  made := h.made
  conserved := hconserved
  first := h.first
  once := by
    have honce := h.once
    have hresumes : ∀ n, (List.replicate n (Pending.resumeWriting t.install)).countP isLost = 0 := by
      intro n
      rw [List.countP_replicate]
      rfl
    show t.lostCount + ((t.queue ++ _ ++ _ ++ t.hand).countP isLost + t.lostCalls) =
      if stream.net.entry.isNone then 1 else 0
    rw [lostPending, List.countP_append] at honce
    rw [List.countP_append, List.countP_append, List.countP_append, hresumes]
    cases he : t.stream.net.entry with
    | none =>
      rw [hgone he]
      rw [he] at honce
      simp only [Option.isNone_none, if_true] at honce
      simp only [Option.isSome_none, Bool.false_and, Bool.false_eq_true, if_false, if_true,
        Option.isNone_none, List.countP_nil]
      omega
    | some entry =>
      rw [he] at honce
      simp only [Option.isNone_some, Bool.false_eq_true, if_false] at honce
      cases hs : stream.net.entry with
      | none =>
        simp only [Option.isSome_some, Option.isNone_none, Bool.true_and, if_true,
          List.countP_singleton, isLost]
        omega
      | some entry' =>
        simp only [Option.isSome_some, Option.isNone_some, Bool.and_false, Bool.false_eq_true,
          if_false, List.countP_nil]
        omega
  last := h.last
  ended := h.ended

/-- `connection_lost` is called once what was to be called of it is one less. -/
theorem connectionLost {t t' : Transport} (h : Disciplined t) (hmade : t'.made = t.made)
    (hcalls : t'.calls = t.calls) (hstream : t'.stream = t.stream)
    (hchunk : t'.chunk = none) (hpending : t'.lostPending + 1 = t.lostPending) :
    Disciplined t'.connectionLost := by
  have honce := h.once
  have hgone : t.stream.net.entry = none := by
    by_contra hsome
    rw [if_neg (by simpa using hsome)] at honce
    omega
  have hnone : t.lostCount = 0 := by
    rw [hgone, Option.isNone_none, if_pos rfl] at honce
    omega
  have hevent : StreamEvent.connectionLost ≠ .dispatch := by simp
  have hstays := streamStep_stays h.conserved hevent
  have hcount : t'.connectionLost.lostCount = t.lostCount + 1 := by
    rw [lostCount, Transport.connectionLost, Transport.called, Transport.calledOn,
      List.countP_append, List.countP_singleton, hcalls]
    simp [lostCount]
  refine ⟨hmade.trans h.made, ?_, ?_, ?_, ?_, fun _ => hchunk⟩
  · show Conserved (streamStep t'.stream .connectionLost)
    rw [hstream]
    exact streamStep_conserved _ h.conserved
  · show ((t'.calls ++ [_]).map Called.call).head? = some .connectionMade
    rw [hcalls, List.map_append, List.head?_append, h.first]
    rfl
  · have hpend : t'.connectionLost.lostPending = t'.lostPending := rfl
    have hgone' : t'.connectionLost.stream.net.entry = none := by
      show (streamStep t'.stream .connectionLost).net.entry = none
      rw [hstream]
      exact hstays.gone hgone
    rw [hcount, hpend, hgone', Option.isNone_none, if_pos rfl]
    rw [hgone, Option.isNone_none, if_pos rfl] at honce
    omega
  · show Call.connectionLost ∉ ((t'.calls ++ [_]).map Called.call).dropLast
    rw [List.map_append, List.map_singleton, List.dropLast_concat, hcalls]
    exact not_mem hnone

/-- The events and the callbacks change places, the count of what is pending being the same. -/
theorem moved {t t' : Transport} (h : Disciplined t) (hmade : t'.made = t.made)
    (hcalls : t'.calls = t.calls) (hstream : t'.stream = t.stream)
    (hpending : t'.lostPending = t.lostPending) (hchunk : t.chunk = none → t'.chunk = none) :
    Disciplined t' where
  made := hmade.trans h.made
  conserved := hstream ▸ h.conserved
  first := hcalls ▸ h.first
  once := by
    have hcount : t'.lostCount = t.lostCount := by rw [lostCount, lostCount, hcalls]
    rw [hcount, hpending, hstream]
    exact h.once
  last := hcalls ▸ h.last
  ended hne := by
    have hcount : t'.lostCount = t.lostCount := by rw [lostCount, lostCount, hcalls]
    exact hchunk (h.ended (hcount ▸ hne))

theorem failed (h : Disciplined t) : Disciplined t.failed := by
  have hstep := h.noticed false
    (failed_conserved h.conserved false t.stream.events) fun _ => teardown_gone _ _
  have hnoticed : Disciplined (t.noticed false { t.stream with
      net := teardown t.stream.net .failed, recvOp := false, released := true }) :=
    { hstep with conserved := { hstep.conserved with } }
  exact hnoticed.moved rfl rfl rfl rfl fun _ => rfl

theorem wrote (h : Disciplined t) (backend : Backend) (op : NetOp)
    (immediate : Bool) : Disciplined (t.wrote backend op immediate) := by
  have hwriting : StreamEvent.writing backend op ≠ .dispatch := by simp
  have hstays := streamStep_stays h.conserved hwriting
  have hnoticed := h.noticed immediate (streamStep_conserved (.writing backend op) h.conserved)
    hstays.gone
  unfold Transport.wrote
  dsimp only
  split
  · rename_i hpaused
    -- a paused transport is there
    refine hnoticed.calledOn (hnoticed.none_called ?_) _ (by decide)
    simp only [Bool.and_eq_true, NetState.paused] at hpaused
    cases he : (t.noticed immediate (streamStep t.stream (.writing backend op))).stream.net.entry with
    | none =>
      rw [he] at hpaused
      simp at hpaused
    | some entry => rfl
  · exact hnoticed

theorem writing (h : Disciplined t) (backend : Backend) (op : NetOp)
    (immediate : Bool) : Disciplined (t.writing backend op immediate) := by
  unfold Transport.writing
  split
  · exact h
  · exact h
  · exact h
  · split
    · exact h
    · exact (h.wrote backend _ immediate).moved rfl rfl rfl rfl id
  · exact h.wrote backend _ immediate

theorem deliver (h : Disciplined t) (hsome : t.stream.net.entry.isSome)
    (data : List UInt8) : Disciplined (t.deliver data) := by
  have hnone := h.none_called hsome
  have hcalled : ∀ {call : Call}, call ≠ .connectionLost → ∀ (chunk : Option Chunk)
      (handed : List UInt8), Disciplined { t.called call with chunk, handed } := by
    intro call hcall chunk handed
    have hd := h.calledOn hnone t.install hcall
    refine ⟨hd.made, hd.conserved, hd.first, hd.once, hd.last, fun hne => absurd ?_ hne⟩
    have hzero := hd.none_called hsome
    exact hzero
  unfold Transport.deliver
  split
  · exact hcalled (by simp) _ _
  split
  · exact h
  · exact hcalled (by simp) _ _

theorem dispatchInbound (h : Disciplined t) : Disciplined t.dispatchInbound := by
  have hconserved := streamStep_conserved .dispatch h.conserved
  rcases dispatchInbound_cases t with heq | ⟨hstays, heq⟩ |
    ⟨event, rest, he, hlive, hreading, hfailed, heq⟩
  · rw [heq]
    exact h
  · rw [heq]
    exact h.noticed false hconserved hstays.gone
  · rw [heq]
    obtain ⟨-, hnet, -⟩ := dispatch_routed he hlive hreading hfailed
    have hnoticed := h.noticed false hconserved fun hgone => by rw [hnet, hgone]
    have hsome : (streamStep t.stream .dispatch).net.entry.isSome := by
      rw [hnet]
      exact Option.isSome_of_any hlive
    split
    · exact hnoticed.calledOn (hnoticed.none_called hsome) _ (by simp)
    · exact hnoticed.deliver hsome _

theorem returned (h : Disciplined t) (outcome : Outcome) :
    Disciplined (t.returned outcome) := by
  unfold Transport.returned
  split
  · exact h
  rename_i c hc
  have hnone : t.lostCount = 0 := by
    by_contra hne
    rw [h.ended hne] at hc
    cases hc
  have hcalled : ∀ {call : Call}, call ≠ .connectionLost → ∀ (chunk : Option Chunk)
      (handed : List UInt8), Disciplined { t.calledOn c.install call with chunk, handed } := by
    intro call hcall chunk handed
    have hd := h.calledOn hnone c.install hcall
    refine ⟨hd.made, hd.conserved, hd.first, hd.once, hd.last, fun hne => absurd ?_ hne⟩
    show (t.calledOn c.install call).lostCount = 0
    rw [lostCount_calledOn hcall]
    exact hnone
  split
  · exact h.moved rfl rfl rfl rfl fun _ => rfl
  · exact h.failed
  · split
    · exact h.moved rfl rfl rfl rfl fun _ => rfl
    · dsimp only
      split
      · exact h.failed
      · exact hcalled (by simp) _ _
    · split
      · exact h.moved rfl rfl rfl rfl fun _ => rfl
      · exact hcalled (by simp) _ t.handed

theorem dispatchPending (h : Disciplined t) (hchunk : t.chunk = none) :
    Disciplined t.dispatchPending := by
  unfold Transport.dispatchPending
  split
  · exact h
  · rename_i install rest hhand
    have hpopped : Disciplined { t with hand := rest, resuming := true } := by
      refine h.moved rfl rfl rfl ?_ id
      simp [lostPending, hhand, isLost]
    dsimp only
    split
    · rename_i howed
      exact hpopped.calledOn (hpopped.none_called howed.1) _ (by simp)
    · exact hpopped
  · rename_i rest hhand
    refine h.connectionLost rfl rfl rfl hchunk ?_
    simp only [lostPending, hhand, List.countP_append, List.countP_cons, isLost]
    simp only [if_true]
    omega
  · rename_i rest hhand
    refine h.moved rfl rfl rfl ?_ id
    simp only [lostPending, hhand, List.countP_append, List.countP_cons, isLost]
    simp only [if_true]
    omega

/-- The stream moves on, and the transport is gone as before. -/
theorem streamed (h : Disciplined t) {stream : Stream} (install : Nat)
    (hconserved : Conserved stream)
    (hgone : stream.net.entry.isNone = t.stream.net.entry.isNone) :
    Disciplined { t with stream, install } where
  made := h.made
  conserved := hconserved
  first := h.first
  once := by
    show t.lostCount + t.lostPending = if stream.net.entry.isNone then 1 else 0
    rw [hgone]
    exact h.once
  last := h.last
  ended := h.ended

theorem setProtocol (h : Disciplined t) (buffered : Bool) :
    Disciplined (t.setProtocol buffered) := by
  refine h.streamed _ (streamStep_conserved (.setProtocol buffered) h.conserved) ?_
  show (t.stream.net.on false Net.setProtocol).entry.isNone = t.stream.net.entry.isNone
  unfold NetState.on Net.setProtocol
  cases he : t.stream.net.entry with
  | none => simp [he]
  | some entry => split <;> simp [he]

theorem postRecv (h : Disciplined t) (ok : Bool) :
    Disciplined { t with stream := Net.postRecv ok t.stream } := by
  refine h.streamed t.install (postRecv_conserved ok h.conserved) ?_
  unfold Net.postRecv
  split
  · rfl
  split <;> rfl

theorem requeued (h : Disciplined t) {queue hand : List Pending}
    (hperm : (queue ++ hand).Perm (t.queue ++ t.hand)) :
    Disciplined { t with queue, hand } := by
  refine h.moved rfl rfl rfl ?_ id
  show (queue ++ hand).countP isLost + t.lostCalls = (t.queue ++ t.hand).countP isLost + t.lostCalls
  rw [hperm.countP_eq]

theorem schedulePendingLost (h : Disciplined t) : Disciplined t.schedulePendingLost := by
  refine h.moved rfl rfl rfl ?_ id
  have hcount : ∀ queue : List Pending, (queue.filter (· ≠ .lost false)).countP isLost +
      (queue.filter (· = .lost false)).length = queue.countP isLost := by
    intro queue
    induction queue with
    | nil => rfl
    | cons pending queue ih =>
      rcases pending with install | immediate
      · simpa [isLost] using ih
      cases immediate <;>
        simp only [ne_eq, decide_not, isLost, List.countP_cons, List.filter_cons, decide_true,
          Bool.not_true, Bool.false_eq_true, Pending.lost.injEq, if_false, if_true,
          List.length_cons, decide_false, Bool.not_false, Bool.true_eq_false] at ih ⊢ <;>
        omega
  have hqueue := hcount t.queue
  rw [lostPending, lostPending, List.countP_append, List.countP_append]
  simp only [Transport.schedulePendingLost]
  omega

theorem free (h : Disciplined t) {f : Transport → Transport}
    (hf : t.busy = false → Disciplined (f t)) : Disciplined (t.free f) := by
  unfold Transport.free
  split
  · exact h
  · rename_i hidle
    exact hf (by simpa using hidle)

theorem not_busy (hidle : t.busy = false) : t.chunk = none := by
  unfold Transport.busy at hidle
  simp only [Bool.or_eq_false_iff, Option.isSome_eq_false_iff, Option.isNone_iff_eq_none] at hidle
  exact hidle.1

theorem moves (h : Disciplined t) (event : TransportEvent) : Disciplined (t.moves event) := by
  have hstream : ∀ (immediate : Bool) {event : StreamEvent}, event ≠ .dispatch →
      Disciplined (t.noticed immediate (streamStep t.stream event)) := fun immediate event hevent =>
    h.noticed immediate (streamStep_conserved event h.conserved)
      (streamStep_stays h.conserved hevent).gone
  cases event with
  | connectionMade => exact h
  | postRecv ok => exact h.postRecv ok
  | writing backend op immediate => exact h.writing backend op immediate
  | recvDone result postOk => exact hstream false (by simp)
  | pauseReading => exact hstream false (by simp)
  | resumeReading postOk => exact hstream false (by simp)
  | setProtocol buffered => exact h.setProtocol buffered
  | schedulePendingLost => exact h.schedulePendingLost
  | returned outcome => exact h.returned outcome
  | finishAfterResume backend immediate =>
    show Disciplined (if t.resuming then _ else t)
    split
    · have hfinished : StreamEvent.writing backend .finishAfterResume ≠ .dispatch := by simp
      exact (hstream immediate hfinished).moved rfl rfl rfl rfl id
    · exact h
  | takeEvents =>
    apply h.free
    intro _
    split
    · rename_i hhand
      apply h.requeued
      rw [hhand, List.append_nil, List.nil_append]
    · exact h
  | requeueEvents =>
    apply h.free
    intro _
    apply h.requeued
    rw [List.append_nil]
    exact List.perm_append_comm
  | dispatchInbound => exact h.free fun _ => h.dispatchInbound
  | dispatchPending => exact h.free fun hidle => h.dispatchPending (not_busy hidle)
  | lostCall =>
    apply h.free
    intro hidle
    split
    · exact h
    · refine h.connectionLost rfl rfl rfl (not_busy hidle) ?_
      show (t.queue ++ t.hand).countP isLost + (t.lostCalls - 1) + 1 =
        (t.queue ++ t.hand).countP isLost + t.lostCalls
      omega

end Disciplined

/-! ## 3. A run calls back in order -/

theorem new_made (buffered : Bool) (highWater lowWater : Nat) :
    Disciplined ((Transport.new buffered highWater lowWater).step .connectionMade) := by
  have hconserved : Conserved (newStream buffered highWater lowWater) :=
    (newStream_kept buffered highWater lowWater).1
  exact ⟨rfl, hconserved, rfl, rfl, List.not_mem_nil, fun _ => rfl⟩

/-- As it is before `connection_made`, or disciplined. -/
theorem transport_disciplined (buffered : Bool) (highWater lowWater : Nat)
    (events : List TransportEvent) :
    (transport buffered highWater lowWater).run events = .new buffered highWater lowWater ∨
      Disciplined ((transport buffered highWater lowWater).run events) := by
  apply (transport buffered highWater lowWater).run_invariant
    (I := fun t => t = .new buffered highWater lowWater ∨ Disciplined t) (.inl rfl)
  intro t event h
  rcases h with hnew | h
  · rw [hnew]
    cases event with
    | connectionMade => exact .inr (new_made buffered highWater lowWater)
    | _ => exact .inl rfl
  · right
    show Disciplined (t.step event)
    unfold step
    rw [if_pos h.made]
    exact h.moves event

/-- The steps of the loop that see to the events of a transport that is gone. -/
def TransportEvent.dispatches : TransportEvent → Bool
  | takeEvents => true
  | dispatchPending => true
  | finishAfterResume _ _ => true
  | lostCall => true
  | _ => false

theorem Disciplined.foldl_step {t : Transport} (h : Disciplined t) (later : List TransportEvent) :
    Disciplined (later.foldl step t) := by
  induction later generalizing t with
  | nil => exact h
  | cons event later ih =>
    apply ih
    unfold step
    rw [if_pos h.made]
    exact h.moves event

theorem connectionLost_counted (t : Transport) : t.connectionLost.lostCount = t.lostCount + 1 := by
  show ((t.calls ++ [_]).countP _) = t.calls.countP _ + 1
  rw [List.countP_append, List.countP_singleton]
  rfl

/-- The loop comes to the `connection_lost` of a transport that is gone. -/
theorem lost_comes {t : Transport} (h : Disciplined t)
    (hgone : t.stream.net.entry = none) (hidle : t.busy = false) :
    ∃ later : List TransportEvent, later.all TransportEvent.dispatches ∧ (later.foldl step t).lostCount = 1 := by
  obtain ⟨n, hn⟩ : ∃ n, 2 * t.queue.length + t.hand.length = n := ⟨_, rfl⟩
  induction n using Nat.strong_induction_on generalizing t with
  | _ n ih =>
  have honce := h.once
  rw [hgone, Option.isNone_none, if_pos rfl] at honce
  by_cases hlost : t.lostCount = 0
  case neg => exact ⟨[], rfl, by show t.lostCount = 1; omega⟩
  have hstep : ∀ event, t.step event = t.moves event := by
    intro event
    unfold step
    rw [if_pos h.made]
  have hfree : ∀ f : Transport → Transport, t.free f = f t := by
    intro f
    unfold free
    rw [hidle]
    rfl
  obtain ⟨hchunk, hresuming⟩ : t.chunk = none ∧ t.resuming = false := by
    simpa [busy] using hidle
  -- the loop takes the events that came before those in hand, and then the next in hand
  have hnext : ∀ (first : List TransportEvent) (t' : Transport),
      first.all TransportEvent.dispatches → first.foldl step t = t' →
      t'.stream.net.entry = none → t'.busy = false →
      2 * t'.queue.length + t'.hand.length < n →
      ∃ later : List TransportEvent, later.all TransportEvent.dispatches ∧ (later.foldl step t).lostCount = 1 := by
    intro first t' hfirst hrun hgone' hidle' hlt
    have hd : Disciplined t' := hrun ▸ h.foldl_step first
    obtain ⟨later, hall, hcount⟩ := ih _ hlt hd hgone' hidle' rfl
    refine ⟨first ++ later, ?_, ?_⟩
    · rw [List.all_append, hfirst, hall]
      rfl
    · rw [List.foldl_append, hrun]
      exact hcount
  cases hhand : t.hand with
  | nil =>
    by_cases hqueue : t.queue = []
    · have hcalls : t.lostCalls = 1 := by
        rw [lostPending, hqueue, hhand] at honce
        simpa [hlost] using honce
      refine ⟨[.lostCall], rfl, ?_⟩
      show (t.step .lostCall).lostCount = 1
      rw [hstep, moves, hfree, if_neg (by omega), connectionLost_counted]
      show t.lostCount + 1 = 1
      omega
    · apply hnext [.takeEvents] _ rfl rfl
      · show (t.step .takeEvents).stream.net.entry = none
        rw [hstep, moves, hfree, if_pos hhand]
        exact hgone
      · show (t.step .takeEvents).busy = false
        rw [hstep, moves, hfree, if_pos hhand]
        exact hidle
      · show 2 * (t.step .takeEvents).queue.length + (t.step .takeEvents).hand.length < n
        rw [hstep, moves, hfree, if_pos hhand]
        have hsome := List.length_pos_iff.mpr hqueue
        show 2 * 0 + t.queue.length < n
        omega
  | cons pending rest =>
    have hlt : 2 * t.queue.length + rest.length < n := by
      rw [hhand, List.length_cons] at hn
      omega
    have hpop : t.step .dispatchPending = t.dispatchPending := by rw [hstep, moves, hfree]
    match pending with
    | .resumeWriting install =>
      let popped : Transport := { t with hand := rest, resuming := true }
      have hpopped : t.step .dispatchPending = popped := by
        rw [hpop, dispatchPending, hhand]
        dsimp only
        rw [if_neg (by rw [hgone]; simp)]
      have hquiet : netStep .failing t.stream.net .finishAfterResume = t.stream.net := by
        show t.stream.net.on false finishAfterResume = t.stream.net
        rw [NetState.on, hgone]
        rfl
      have hfinish : popped.step (.finishAfterResume .failing false) =
          { popped.noticed false (streamStep t.stream (.writing .failing .finishAfterResume)) with
            resuming := false } := by
        show (if t.made then _ else _) = _
        rw [if_pos h.made]
        rfl
      apply hnext [.dispatchPending, .finishAfterResume .failing false] _ rfl
        (by rw [List.foldl_cons, hpopped, List.foldl_cons, hfinish, List.foldl_nil])
      · show (netStep .failing t.stream.net .finishAfterResume).entry = none
        rw [hquiet, hgone]
      · show (t.chunk.isSome || false) = false
        rw [hchunk]
        rfl
      · show 2 * (t.queue ++ List.replicate
          ((netStep .failing t.stream.net .finishAfterResume).resumeWriting -
            t.stream.net.resumeWriting) _ ++ _).length + rest.length < n
        rw [hquiet, hgone, Nat.sub_self, List.replicate_zero]
        simpa using hlt
    | .lost true =>
      refine ⟨[.dispatchPending], rfl, ?_⟩
      show (t.step .dispatchPending).lostCount = 1
      rw [hpop, dispatchPending, hhand]
      dsimp only
      rw [connectionLost_counted]
      show t.lostCount + 1 = 1
      omega
    | .lost false =>
      apply hnext [.dispatchPending] { t with hand := rest, lostCalls := t.lostCalls + 1 } rfl _
        hgone hidle hlt
      show t.step .dispatchPending = _
      rw [hpop, dispatchPending, hhand]

/-- `connection_made` comes first.  A transport that is there was not told of its loss; one that is
gone was or is to be, once in all, and the loop comes to it; and nothing is called behind. -/
theorem callbacks_in_order (buffered : Bool) (highWater lowWater : Nat)
    (events : List TransportEvent) :
    let t := (transport buffered highWater lowWater).run events
    (t.calls = [] ∨ (t.calls.map Called.call).head? = some .connectionMade) ∧
      (t.stream.net.entry.isSome → Call.connectionLost ∉ t.calls.map Called.call) ∧
      (t.stream.net.entry = none → t.lostCount + t.lostPending = 1) ∧
      (t.stream.net.entry = none → t.busy = false →
        ∃ later : List TransportEvent, later.all TransportEvent.dispatches ∧
          ((transport buffered highWater lowWater).run (events ++ later)).lostCount = 1) ∧
      ∀ before after, t.calls.map Called.call = before ++ .connectionLost :: after → after = [] := by
  intro t
  rcases transport_disciplined buffered highWater lowWater events with hnew | h
  · have ht : t = .new buffered highWater lowWater := hnew
    rw [ht]
    refine ⟨.inl rfl, fun _ => List.not_mem_nil, fun hgone => absurd hgone (Option.some_ne_none _),
      fun hgone => absurd hgone (Option.some_ne_none _), fun before after heq => ?_⟩
    exact absurd (congrArg List.length heq) (by simp [new])
  · change Disciplined t at h
    refine ⟨.inr h.first, fun hsome => Disciplined.not_mem (h.none_called hsome), fun hgone => ?_,
      fun hgone hidle => ?_, fun before after heq => ?_⟩
    · have honce := h.once
      rw [hgone, Option.isNone_none, if_pos rfl] at honce
      exact honce
    · obtain ⟨later, hall, hcount⟩ := lost_comes h hgone hidle
      refine ⟨later, hall, ?_⟩
      rw [Machine.run, List.foldl_append]
      exact hcount
    · by_contra hne
      apply h.last
      rw [heq, List.dropLast_append_of_ne_nil (by simp), List.dropLast_cons_of_ne_nil hne]
      simp

end Transport

end Cadeloop.Pyshim.Net
