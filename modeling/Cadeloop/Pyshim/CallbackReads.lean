import Cadeloop.Pyshim.CallbackRuns

/-!
# Reading, as the data callbacks find it

An event is routed once, and its bytes may take a buffered protocol many rounds.  As long as no round
finds the transport other than it was routed, a data callback is made to the protocol of the
transport, which reads; and what the protocols were handed is what arrived, up to some point.
-/

namespace Cadeloop.Pyshim.Net

open Cadeloop.Reasoning

namespace Transport

/-! ## 1. A chunk and its rounds -/

/-- What of the chunk under way is not copied yet. -/
def copying (t : Transport) : List UInt8 := (t.chunk.map Chunk.rest).getD []

/-- A callback that returns a buffer of some size, or none, has another behind it. -/
def Chunk.goesOn (size : Nat) (c : Chunk) : Prop :=
  match c.running with
  | .dataReceived => False
  | .getBuffer => 0 < size
  | .bufferUpdated => c.rest ≠ []

/-- The protocol of a chunk under way is still the transport's, which is there and reads. -/
structure Routed (t : Transport) (install : Nat) : Prop where
  live : t.stream.net.live
  reading : t.stream.readingPaused = false
  current : install = t.install

/-- No callback of a chunk leaves the next a transport that is paused, closing or another
protocol's, none unwinds the loop with bytes of its chunk to come, and nothing is overtaken. -/
def Settled (t : Transport) : TransportEvent → Prop
  | .returned (.ok size) => ∀ c, t.chunk = some c → Chunk.goesOn size c → Routed t c.install
  | .returned .fatal => t.copying = []
  | .dispatchInbound => t.busy = false → Undisturbed t.stream .dispatch
  | .resumeReading postOk => Undisturbed t.stream (.resumeReading postOk)
  | _ => True

/-! ## 2. What the protocols were handed -/

structure Honoured (t : Transport) : Prop where
  conserved : Conserved t.stream
  ordered : Ordered t.stream
  plain : ∀ c, t.chunk = some c → c.running = .dataReceived → c.rest = []
  handedOver : t.handed ++ t.copying <+: bytes t.stream.delivered
  whole : t.stream.net.live → t.handed ++ t.copying = bytes t.stream.delivered
  called : ∀ c ∈ t.calls, c.call.isData → c.live ∧ ¬ c.paused ∧ c.install = c.current

namespace Honoured

variable {t : Transport}

/-- A step that hands nothing over and calls back with no data. -/
theorem carried (h : Honoured t) {t' : Transport} (hconserved : Conserved t'.stream)
    (hordered : Ordered t'.stream) (hstays : Stays t.stream t'.stream)
    (hhanded : t'.handed = t.handed) (hchunk : t'.chunk = t.chunk)
    (hcalls : ∀ c ∈ t'.calls, c.call.isData → c ∈ t.calls) : Honoured t' := by
  have hcopying : t'.copying = t.copying := by rw [copying, copying, hchunk]
  refine ⟨hconserved, hordered, hchunk ▸ h.plain, ?_, ?_, fun c hc hdata =>
    h.called c (hcalls c hc hdata) hdata⟩
  · rw [hhanded, hcopying, hstays.delivered]
    exact h.handedOver
  · intro hlive
    rw [hhanded, hcopying, hstays.delivered]
    exact h.whole (hstays.live hlive)

/-- A data callback of a transport that is as the chunk was routed. -/
theorem round {install : Nat} (hrouted : Routed t install) (hconserved : Conserved t.stream)
    (hordered : Ordered t.stream)
    (hcalled : ∀ c ∈ t.calls, c.call.isData → c.live ∧ ¬ c.paused ∧ c.install = c.current)
    (call : Call) {handed : List UInt8} {chunk : Chunk}
    (hplain : chunk.running = .dataReceived → chunk.rest = [])
    (hbytes : handed ++ chunk.rest = bytes t.stream.delivered) :
    Honoured { t.calledOn install call with handed, chunk := some chunk } where
  conserved := hconserved
  ordered := hordered
  plain := by
    intro c hc
    obtain rfl := Option.some.inj hc
    exact hplain
  handedOver := by
    show handed ++ chunk.rest <+: bytes t.stream.delivered
    rw [hbytes]
  whole _ := hbytes
  called := by
    intro c hc hdata
    rcases List.mem_append.mp hc with hmem | hnew
    · exact hcalled c hmem hdata
    · rw [List.mem_singleton.mp hnew]
      refine ⟨hrouted.live, ?_, hrouted.current⟩
      show ¬ t.stream.readingPaused = true
      rw [hrouted.reading]
      decide

/-- The chunk under way is over. -/
theorem ended (h : Honoured t) (hnone : t.copying = []) : Honoured { t with chunk := none } := by
  have hcopying : t.handed ++ Transport.copying { t with chunk := none } = t.handed ++ t.copying := by
    rw [hnone]
    rfl
  refine ⟨h.conserved, h.ordered, fun c hc => absurd hc (by simp), ?_, ?_, h.called⟩
  · show t.handed ++ Transport.copying { t with chunk := none } <+: _
    rw [hcopying]
    exact h.handedOver
  · intro hlive
    show t.handed ++ Transport.copying { t with chunk := none } = _
    rw [hcopying]
    exact h.whole hlive

theorem failed (h : Honoured t) : Honoured t.failed := by
  have hgone : (teardown t.stream.net .failed).entry = none := teardown_gone _ _
  have hdead : ¬ (teardown t.stream.net .failed).live := not_live_of_gone hgone
  have hconserved := failed_conserved h.conserved false t.stream.events
  refine ⟨{ hconserved with }, .of_dead h.ordered.inOrder h.ordered.eof hdead,
    fun c hc => absurd hc (by simp [Transport.failed]), ?_, fun hlive => absurd hlive hdead,
    h.called⟩
  show t.handed ++ [] <+: bytes t.stream.delivered
  rw [List.append_nil]
  exact (List.prefix_append _ _).trans h.handedOver

theorem returned (h : Honoured t) {outcome : Outcome} (hsettled : Settled t (.returned outcome)) :
    Honoured (t.returned outcome) := by
  unfold Transport.returned
  split
  · exact h
  rename_i c hc
  have hcopying : t.copying = c.rest := by rw [copying, hc]; rfl
  cases outcome with
  | fatal => exact h.ended hsettled
  | raised => exact h.failed
  | ok size =>
    -- another round, with what is still to be copied
    have hround : Routed t c.install → ∀ (call : Call) (handed : List UInt8) {chunk : Chunk},
        chunk.running ≠ .dataReceived → handed ++ chunk.rest = t.handed ++ c.rest →
        Honoured { t.calledOn c.install call with handed, chunk := some chunk } := by
      intro hrouted call handed chunk hplain hmoved
      apply round hrouted h.conserved h.ordered h.called call fun hrunning => absurd hrunning hplain
      rw [hmoved, ← hcopying]
      exact h.whole hrouted.live
    have hnext : Chunk.goesOn size c → Routed t c.install := hsettled c hc
    unfold Chunk.goesOn at hnext
    dsimp only
    split
    · rename_i hrunning
      exact h.ended (hcopying.trans (h.plain c hc hrunning))
    · rename_i hrunning
      rw [hrunning] at hnext
      split
      · exact h.failed
      · apply hround (hnext (by omega)) _ _ (by simp)
        rw [List.append_assoc, List.take_append_drop]
    · rename_i hrunning
      rw [hrunning] at hnext
      split
      · rename_i hrest
        exact h.ended (hcopying.trans hrest)
      · rename_i hrest
        exact hround (hnext hrest) .getBuffer t.handed (by simp) rfl

/-- The next inbound event, with no callback under way. -/
theorem dispatchInbound (h : Honoured t) (hchunk : t.chunk = none)
    (hundisturbed : Undisturbed t.stream .dispatch) : Honoured t.dispatchInbound := by
  have hconserved := streamStep_conserved .dispatch h.conserved
  have hordered := streamStep_ordered .dispatch h.conserved h.ordered hundisturbed
  rcases dispatchInbound_cases t with heq | ⟨hstays, heq⟩ |
    ⟨event, rest, he, hlive, hreading, hfailed, heq⟩
  · rw [heq]
    exact h
  · rw [heq]
    exact h.carried hconserved hordered hstays rfl rfl fun _ hc _ => hc
  obtain ⟨hdelivered, hnet, hreading'⟩ := dispatch_routed he hlive hreading hfailed
  have hlive' : (streamStep t.stream .dispatch).net.live := by
    rw [hnet]
    exact hlive
  have hbytes : t.handed ++ event.bytes = bytes (streamStep t.stream .dispatch).delivered := by
    have hwhole := h.whole hlive
    rw [copying, hchunk] at hwhole
    change t.handed ++ [] = bytes t.stream.delivered at hwhole
    rw [hdelivered, bytes, List.flatMap_append, ← bytes, ← hwhole, List.append_nil]
    rfl
  generalize hnoticed : t.noticed false (streamStep t.stream .dispatch) = t' at heq
  have hstream : t'.stream = streamStep t.stream .dispatch := by rw [← hnoticed]; rfl
  have hhanded : t'.handed = t.handed := by rw [← hnoticed]; rfl
  have hchunk' : t'.chunk = none := by rw [← hnoticed]; exact hchunk
  have hcalls : t'.calls = t.calls := by rw [← hnoticed]; rfl
  rw [← hstream] at hconserved hordered hlive' hreading' hbytes
  rw [← hhanded] at hbytes
  have hcalled : ∀ c ∈ t'.calls, c.call.isData → c.live ∧ ¬ c.paused ∧ c.install = c.current := by
    rw [hcalls]
    exact h.called
  rw [heq]
  -- nothing handed over, and no chunk
  have hidle : ∀ calls, event.bytes = [] →
      (∀ c ∈ calls, c.call.isData → c.live ∧ ¬ c.paused ∧ c.install = c.current) →
      Honoured { t' with calls } := by
    intro calls hnone hcalls
    have hcopying : Transport.copying { t' with calls } = [] := by
      show (t'.chunk.map Chunk.rest).getD [] = []
      rw [hchunk']
      rfl
    rw [hnone] at hbytes
    refine ⟨hconserved, hordered, fun c hc => ?_, ?_, fun _ => ?_, hcalls⟩
    · exact absurd (hchunk'.symm.trans hc) (by simp)
    · rw [hcopying, hbytes]
    · rw [hcopying]
      exact hbytes
  have hround : ∀ (call : Call) (handed : List UInt8) {chunk : Chunk},
      (chunk.running = .dataReceived → chunk.rest = []) →
      handed ++ chunk.rest = bytes t'.stream.delivered →
      Honoured { t'.called call with handed, chunk := some chunk } := fun call handed _ =>
    round ⟨hlive', hreading', rfl⟩ hconserved hordered hcalled call
  split
  · rename_i heof
    apply hidle _ (by rw [heof]; rfl)
    intro c hc hdata
    rcases List.mem_append.mp hc with hmem | hnew
    · exact hcalled c hmem hdata
    · rw [List.mem_singleton.mp hnew] at hdata
      exact absurd hdata Bool.false_ne_true
  · unfold Transport.deliver
    split
    · apply hround _ _ fun _ => rfl
      rw [List.append_nil]
      exact hbytes
    split
    · rename_i hnone
      exact hidle t'.calls hnone hcalled
    · exact hround .getBuffer t'.handed (fun hrunning => absurd hrunning (by simp)) hbytes

/-- A step of the stream that hands nothing over. -/
theorem streamed (h : Honoured t) {event : StreamEvent} (hevent : event ≠ .dispatch)
    (hundisturbed : Undisturbed t.stream event) {t' : Transport}
    (hstream : t'.stream = streamStep t.stream event) (hhanded : t'.handed = t.handed)
    (hchunk : t'.chunk = t.chunk) (hcalls : ∀ c ∈ t'.calls, c.call.isData → c ∈ t.calls) :
    Honoured t' := by
  apply h.carried _ _ _ hhanded hchunk hcalls
  · rw [hstream]
    exact streamStep_conserved event h.conserved
  · rw [hstream]
    exact streamStep_ordered event h.conserved h.ordered hundisturbed
  · rw [hstream]
    exact streamStep_stays h.conserved hevent

/-- One that leaves the stream alone. -/
theorem moved (h : Honoured t) {t' : Transport} (hstream : t'.stream = t.stream)
    (hhanded : t'.handed = t.handed) (hchunk : t'.chunk = t.chunk)
    (hcalls : ∀ c ∈ t'.calls, c.call.isData → c ∈ t.calls) : Honoured t' := by
  apply h.carried _ _ _ hhanded hchunk hcalls
  · rw [hstream]
    exact h.conserved
  · rw [hstream]
    exact h.ordered
  · rw [hstream]
    exact .refl t.stream

theorem mem_of_isData {calls : List Called} {new c : Called} (hnew : new.call.isData = false)
    (hc : c ∈ calls ++ [new]) (hdata : c.call.isData) : c ∈ calls := by
  rcases List.mem_append.mp hc with hmem | hlast
  · exact hmem
  · rw [List.mem_singleton.mp hlast, hnew] at hdata
    cases hdata

theorem wrote (h : Honoured t) (backend : Backend) (op : NetOp) (immediate : Bool) :
    Honoured (t.wrote backend op immediate) := by
  have hwriting : StreamEvent.writing backend op ≠ .dispatch := by simp
  unfold Transport.wrote
  dsimp only
  split
  · exact h.streamed hwriting trivial rfl rfl rfl fun _ hc hdata =>
      mem_of_isData rfl hc hdata
  · exact h.streamed hwriting trivial rfl rfl rfl fun _ hc _ => hc

theorem writing (h : Honoured t) (backend : Backend) (op : NetOp) (immediate : Bool) :
    Honoured (t.writing backend op immediate) := by
  unfold Transport.writing
  split
  · exact h
  · exact h
  · exact h
  · split
    · exact h
    · exact (h.wrote backend _ immediate).moved rfl rfl rfl fun _ hc _ => hc
  · exact h.wrote backend _ immediate

theorem connectionLost (h : Honoured t) : Honoured t.connectionLost := by
  have hlost : StreamEvent.connectionLost ≠ .dispatch := by simp
  exact h.streamed hlost trivial rfl rfl rfl fun _ hc hdata =>
    mem_of_isData rfl hc hdata

theorem dispatchPending (h : Honoured t) : Honoured t.dispatchPending := by
  unfold Transport.dispatchPending
  split
  · exact h
  · dsimp only
    split
    · exact h.moved rfl rfl rfl fun _ hc hdata =>
        mem_of_isData rfl hc hdata
    · exact h.moved rfl rfl rfl fun _ hc _ => hc
  · apply connectionLost
    exact h.moved rfl rfl rfl fun _ hc _ => hc
  · exact h.moved rfl rfl rfl fun _ hc _ => hc

theorem free (h : Honoured t) {f : Transport → Transport} (hf : t.busy = false → Honoured (f t)) :
    Honoured (t.free f) := by
  unfold Transport.free
  split
  · exact h
  · rename_i hidle
    exact hf (by simpa using hidle)

theorem postRecv (h : Honoured t) (ok : Bool) :
    Honoured { t with stream := Net.postRecv ok t.stream } :=
  h.carried (postRecv_conserved ok h.conserved) (postRecv_ordered ok h.ordered)
    (postRecv_stays ok t.stream) rfl rfl fun _ hc _ => hc

theorem moves (h : Honoured t) {event : TransportEvent} (hsettled : Settled t event) :
    Honoured (t.moves event) := by
  have hstream : ∀ (immediate : Bool) {event : StreamEvent}, event ≠ .dispatch →
      Undisturbed t.stream event → Honoured (t.noticed immediate (streamStep t.stream event)) :=
    fun immediate event hevent hundisturbed =>
      h.streamed hevent hundisturbed rfl rfl rfl fun _ hc _ => hc
  cases event with
  | connectionMade => exact h
  | postRecv ok => exact h.postRecv ok
  | writing backend op immediate => exact h.writing backend op immediate
  | recvDone result postOk => exact hstream false (by simp) trivial
  | pauseReading => exact hstream false (by simp) trivial
  | resumeReading postOk => exact hstream false (by simp) hsettled
  | setProtocol buffered =>
    have hset : StreamEvent.setProtocol buffered ≠ .dispatch := by simp
    exact h.streamed hset trivial rfl rfl rfl fun _ hc _ => hc
  | schedulePendingLost => exact h.moved rfl rfl rfl fun _ hc _ => hc
  | returned outcome => exact h.returned hsettled
  | finishAfterResume backend immediate =>
    show Honoured (if t.resuming then _ else t)
    split
    · have hfinished : StreamEvent.writing backend .finishAfterResume ≠ .dispatch := by simp
      exact h.streamed hfinished trivial rfl rfl rfl fun _ hc _ => hc
    · exact h
  | takeEvents =>
    apply h.free
    intro _
    split
    · exact h.moved rfl rfl rfl fun _ hc _ => hc
    · exact h
  | requeueEvents =>
    apply h.free
    intro _
    exact h.moved rfl rfl rfl fun _ hc _ => hc
  | dispatchInbound =>
    exact h.free fun hidle => h.dispatchInbound (Disciplined.not_busy hidle) (hsettled hidle)
  | dispatchPending => exact h.free fun _ => h.dispatchPending
  | lostCall =>
    apply h.free
    intro _
    split
    · exact h
    · apply connectionLost
      exact h.moved rfl rfl rfl fun _ hc _ => hc

theorem step (h : Honoured t) {event : TransportEvent} (hsettled : Settled t event) :
    Honoured (t.step event) := by
  unfold Transport.step
  split
  · exact h.moves hsettled
  split
  · exact h.moved rfl rfl rfl fun _ hc hdata =>
      mem_of_isData rfl hc hdata
  · exact h

end Honoured

theorem new_honoured (buffered : Bool) (highWater lowWater : Nat) :
    Honoured (.new buffered highWater lowWater) := by
  obtain ⟨hconserved, hordered⟩ := newStream_kept buffered highWater lowWater
  exact ⟨hconserved, hordered, fun c hc => absurd hc (by simp [new]), List.prefix_refl _,
    fun _ => rfl, fun c hc => absurd hc List.not_mem_nil⟩

/-! ## 3. A run honours the reading state -/

/-- A live transport that waits for nothing has the protocols in step with the kernel. -/
theorem Honoured.all_handed {t : Transport} (h : Honoured t) (hlive : t.stream.net.live)
    (hreading : t.stream.readingPaused = false) (hevents : t.stream.events = [])
    (hchunk : t.chunk = none) : t.handed = bytes t.stream.received := by
  have hheld : t.stream.held = [] := Stream.held_none (h.conserved.unpaused hlive hreading).1
  have hdelivered := h.ordered.next_delivered h.conserved hlive hheld
  rw [Stream.waiting, hevents, List.flatMap_nil, List.append_nil] at hdelivered
  have hwhole := h.whole hlive
  rw [copying, hchunk] at hwhole
  change t.handed ++ [] = _ at hwhole
  rw [← hdelivered, ← hwhole, List.append_nil]

/-- Every data callback finds the protocol's transport live and reading, the bytes handed over are
what arrived first, none is lost while the transport lives, and once it reads and waits for nothing
they are all that arrived. -/
theorem reading_honoured (buffered : Bool) (highWater lowWater : Nat)
    (events : List TransportEvent)
    (h : (transport buffered highWater lowWater).Along Settled events) :
    let t := (transport buffered highWater lowWater).run events
    (∀ c ∈ t.calls, c.call.isData → c.live ∧ ¬ c.paused ∧ c.install = c.current) ∧
      t.handed <+: bytes t.stream.received ∧
      (t.stream.net.live → t.handed ++ t.copying = bytes t.stream.delivered ∧
        (t.stream.delivered ++ t.stream.held ++ t.stream.waiting).Perm t.stream.received) ∧
      (t.stream.net.live → t.stream.readingPaused = false → t.stream.events = [] →
        t.chunk = none → t.handed = bytes t.stream.received) := by
  intro t
  have hrun : Honoured t :=
    (transport buffered highWater lowWater).run_invariant_along (I := Honoured)
      (new_honoured buffered highWater lowWater)
      (fun _ _ hs hsettled => hs.step hsettled) events h
  obtain ⟨later, hlater⟩ := hrun.ordered.inOrder
  have hreceived : bytes t.stream.delivered <+: bytes t.stream.received := by
    refine ⟨bytes later, ?_⟩
    rw [← hlater, bytes, bytes, bytes, List.flatMap_append]
  exact ⟨hrun.called, ((List.prefix_append _ _).trans hrun.handedOver).trans hreceived,
    fun hlive => ⟨hrun.whole hlive, hrun.conserved.kept hlive⟩, hrun.all_handed⟩

/-- Two rounds of one chunk, and then a third event. -/
theorem reading_honoured_rounds :
    ((transport true 65536 16384).run
      [.connectionMade, .postRecv true, .recvDone (some [65, 66]) true, .dispatchInbound,
        .returned (.ok 1), .returned (.ok 0)]).handed <+:
    bytes ((transport true 65536 16384).run
      [.connectionMade, .postRecv true, .recvDone (some [65, 66]) true, .dispatchInbound,
        .returned (.ok 1), .returned (.ok 0)]).stream.received := by
  refine (reading_honoured true 65536 16384 _ ?_).2.1
  rw [show [TransportEvent.connectionMade, .postRecv true, .recvDone (some [65, 66]) true,
      .dispatchInbound, .returned (.ok 1), .returned (.ok 0)] =
    [] ++ [.connectionMade] ++ [.postRecv true] ++ [.recvDone (some [65, 66]) true] ++
      [.dispatchInbound] ++ [.returned (.ok 1)] ++ [.returned (.ok 0)] from rfl]
  simp only [Machine.along_concat]
  refine ⟨⟨⟨⟨⟨⟨Machine.along_nil _ _, trivial⟩, trivial⟩, trivial⟩, ?_⟩, ?_⟩, ?_⟩
  · exact fun _ _ hpaused => absurd hpaused (by decide)
  · intro c hc _
    obtain rfl : _ = c := Option.some.inj hc
    exact ⟨by decide, by decide, by decide⟩
  · intro c hc _
    obtain rfl : _ = c := Option.some.inj hc
    exact ⟨by decide, by decide, by decide⟩

/-- The next round of a chunk is made to a transport that was paused, aborted, or given another
protocol in the last. -/
theorem reading_ignored :
    let arrived : List TransportEvent :=
      [.connectionMade, .postRecv true, .recvDone (some [65, 66]) true, .dispatchInbound,
        .returned (.ok 1)]
    (∃ c ∈ ((transport true 65536 16384).run
      (arrived ++ [.pauseReading, .returned (.ok 0)])).calls, c.call = .getBuffer ∧ c.paused) ∧
    (∃ c ∈ ((transport true 65536 16384).run
      (arrived ++ [.writing .failing .abort true, .returned (.ok 0)])).calls,
      c.call = .getBuffer ∧ ¬ c.live) ∧
    (∃ c ∈ ((transport true 65536 16384).run
      (arrived ++ [.setProtocol true, .returned (.ok 0)])).calls,
      c.call = .getBuffer ∧ c.install ≠ c.current) := by
  decide +kernel

end Transport

end Cadeloop.Pyshim.Net
