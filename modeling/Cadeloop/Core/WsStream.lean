import Cadeloop.Core.Ws
import Cadeloop.Reasoning.Incremental

/-!
# WebSocket receive over a whole stream

`WsRx.parseOne` is an incremental parser: its decided answers survive more bytes.  `push` feeds
it, so the events and the state after any sequence of pushes are those of one push of the
concatenation, and every bound that one frame keeps holds after any stream.
-/

namespace Cadeloop.Core.Ws

open Cadeloop.Reasoning

namespace WsRx

/-! ## 1. What one frame keeps -/

theorem dispatch_frame (rx : WsRx) (opcode : UInt8) (fin : Bool) (payload : Bytes) :
    (dispatch rx opcode fin payload).2.buf = rx.buf ∧
      (dispatch rx opcode fin payload).2.ended = rx.ended ∧
      (dispatch rx opcode fin payload).2.maxMessage = rx.maxMessage := by
  unfold dispatch
  repeat' split
  all_goals exact ⟨rfl, rfl, rfl⟩

theorem parseOne_frame (rx : WsRx) (b : Bytes) :
    (rx.parseOne b).2.buf = rx.buf ∧ (rx.parseOne b).2.ended = rx.ended ∧
      (rx.parseOne b).2.maxMessage = rx.maxMessage := by
  unfold parseOne
  split
  · exact ⟨rfl, rfl, rfl⟩
  · exact ⟨rfl, rfl, rfl⟩
  · exact dispatch_frame { rx with consumed := _ } _ _ _

theorem parseOne_append {rx : WsRx} {b : Bytes} (c : Bytes)
    (h : (rx.parseOne b).1 ≠ .needMore) : rx.parseOne (b ++ c) = rx.parseOne b := by
  have hread : readFrame rx.maxMessage b ≠ .needMore := by
    intro hf
    exact h (by rw [parseOne, hf])
  rw [parseOne, parseOne, readFrame_append c hread]

/-- `parse_one` never answers "need more" once the frame is there, so a waiting buffer is short. -/
theorem length_of_needMore {rx : WsRx} {b : Bytes} (h : (rx.parseOne b).1 = .needMore) :
    b.length ≤ rx.maxMessage + 13 := by
  rcases readFrame_cases rx.maxMessage b with ⟨-, hb⟩ | ⟨code, why, hf⟩ | ⟨op, fin, pl, n, hf, -⟩
  · exact hb
  · rw [parseOne, hf] at h
    cases h
  · rw [parseOne, hf] at h
    simp only [dispatch, finishMessage] at h
    repeat' split at h
    all_goals simp at h

theorem parseOne_needMore_state {rx : WsRx} {b : Bytes} (h : (rx.parseOne b).1 = .needMore) :
    rx.parseOne b = (.needMore, rx) := by
  rcases readFrame_cases rx.maxMessage b with ⟨hf, -⟩ | ⟨code, why, hf⟩ | ⟨op, fin, pl, n, hf, -⟩
  · rw [parseOne, hf]
  · rw [parseOne, hf] at h
    cases h
  · rw [parseOne, hf] at h
    simp only [dispatch, finishMessage] at h
    repeat' split at h
    all_goals simp at h

end WsRx

/-! ## 2. The incremental parser -/

/-- One `parse_one` as a step of an incremental parser. -/
def step (rx : WsRx) (b : Bytes) : Parsed WsRx WsEvent :=
  match rx.parseOne b with
  | (.needMore, _) => .more
  | (.continue, rx') => .took rx'.consumed rx' []
  | (.event ev, rx') => if ev.last then .stop rx' [ev] else .took rx'.consumed rx' [ev]

theorem step_eq_more {rx : WsRx} {b : Bytes} : step rx b = .more ↔ (rx.parseOne b).1 = .needMore := by
  unfold step
  split <;> simp_all
  split <;> simp

theorem step_append {rx : WsRx} {b : Bytes} (c : Bytes) (h : step rx b ≠ .more) :
    step rx (b ++ c) = step rx b := by
  rw [step, WsRx.parseOne_append c (fun hm => h (step_eq_more.mpr hm)), step]

theorem step_took {rx rx' : WsRx} {b : Bytes} {n : Nat} {evs : List WsEvent}
    (h : step rx b = .took n rx' evs) :
    n = rx'.consumed ∧ ((rx.parseOne b = (.continue, rx') ∧ evs = []) ∨
      ∃ ev, rx.parseOne b = (.event ev, rx') ∧ ev.last = false ∧ evs = [ev]) := by
  unfold step at h
  split at h
  · cases h
  · rename_i rx₁ hp
    injection h with hn hs he
    subst hs
    exact ⟨hn.symm, .inl ⟨hp, he.symm⟩⟩
  · rename_i ev rx₁ hp
    split at h
    · cases h
    · rename_i hl
      injection h with hn hs he
      subst hs
      exact ⟨hn.symm, .inr ⟨ev, hp, by simpa using hl, he.symm⟩⟩

theorem step_stop {rx rx' : WsRx} {b : Bytes} {evs : List WsEvent}
    (h : step rx b = .stop rx' evs) :
    ∃ ev, rx.parseOne b = (.event ev, rx') ∧ ev.last = true ∧ evs = [ev] := by
  unfold step at h
  split at h
  · cases h
  · cases h
  · rename_i ev rx₁ hp
    split at h
    · rename_i hl
      injection h with hs he
      subst hs
      exact ⟨ev, hp, hl, he.symm⟩
    · cases h

theorem step_took_consumed {rx rx' : WsRx} {b : Bytes} {n : Nat} {evs : List WsEvent}
    (h : step rx b = .took n rx' evs) : 0 < n ∧ n ≤ b.length := by
  obtain ⟨rfl, ⟨hp, -⟩ | ⟨ev, hp, hl, -⟩⟩ := step_took h
  · have hc := WsRx.parseOne_consumed hp (by simp) (by simp)
    omega
  · have hc := WsRx.parseOne_consumed hp (by simp) (by simpa using hl)
    omega

def frames : Incremental WsRx UInt8 WsEvent where
  parse := step
  nil_more _ := rfl
  took_pos := step_took_consumed
  took_append c h := by rw [step_append c (by rw [h]; simp), h]
  stop_append c h := by rw [step_append c (by rw [h]; simp), h]

/-- What the parser state becomes when its scan is over. -/
def settle (q : Scanned WsRx UInt8 WsEvent) : WsRx :=
  if q.ended then { q.state with ended := true, buf := [] } else q.state

theorem parseAll_eq_scan (rx : WsRx) (b : Bytes) (pos : Nat) (hpos : pos ≤ b.length) :
    (rx.parseAll b pos).1 = (frames.scan rx (b.drop pos)).events ∧
      (rx.parseAll b pos).2.2 = settle (frames.scan rx (b.drop pos)) ∧
      ((frames.scan rx (b.drop pos)).ended = false →
        (rx.parseAll b pos).2.1 ≤ b.length ∧
        b.drop (rx.parseAll b pos).2.1 = (frames.scan rx (b.drop pos)).rest) := by
  induction rx, pos using WsRx.parseAll.induct (b := b) with
  | case1 rx pos rx' hp =>
    have hrx : rx' = rx := by
      have := WsRx.parseOne_needMore_state (congrArg Prod.fst hp)
      rw [hp] at this
      exact congrArg Prod.snd this
    subst hrx
    have hstep : frames.parse rx' (b.drop pos) = .more := by
      show step rx' (b.drop pos) = .more
      rw [step, hp]
    have heq : rx'.parseAll b pos = ([], pos, rx') := by
      rw [WsRx.parseAll]
      split <;> simp_all
    rw [frames.scan_more hstep, heq]
    exact ⟨rfl, rfl, fun _ => ⟨hpos, rfl⟩⟩
  | case2 rx pos ev rx' hp hl =>
    have hstep : frames.parse rx (b.drop pos) = .stop rx' [ev] := by
      show step rx (b.drop pos) = _
      rw [step, hp]
      exact if_pos hl
    have heq : rx.parseAll b pos =
        ([ev], pos + rx'.consumed, { rx' with ended := true, buf := [] }) := by
      rw [WsRx.parseAll]
      split <;> simp_all
    rw [frames.scan_stop hstep, heq]
    exact ⟨rfl, rfl, fun h => by cases h⟩
  | case3 rx pos ev rx' hp hl ih =>
    have hstep : frames.parse rx (b.drop pos) = .took rx'.consumed rx' [ev] := by
      show step rx (b.drop pos) = _
      rw [step, hp]
      exact if_neg hl
    have heq : rx.parseAll b pos = (ev :: (rx'.parseAll b (pos + rx'.consumed)).1,
        (rx'.parseAll b (pos + rx'.consumed)).2) := by
      rw [WsRx.parseAll]
      split <;> simp_all
    have hc := frames.took_pos hstep
    rw [List.length_drop] at hc
    have ih := ih (by omega)
    rw [← List.drop_drop] at ih
    rw [frames.scan_took hstep, heq]
    exact ⟨by rw [ih.1]; rfl, ih.2.1, ih.2.2⟩
  | case4 rx pos rx' hp ih =>
    have hstep : frames.parse rx (b.drop pos) = .took rx'.consumed rx' [] := by
      show step rx (b.drop pos) = _
      rw [step, hp]
    have heq : rx.parseAll b pos = rx'.parseAll b (pos + rx'.consumed) := by
      rw [WsRx.parseAll]
      split <;> simp_all
    have hc := frames.took_pos hstep
    rw [List.length_drop] at hc
    have ih := ih (by omega)
    rw [← List.drop_drop] at ih
    rw [frames.scan_took hstep, heq]
    exact ⟨by rw [ih.1]; rfl, ih.2.1, ih.2.2⟩

theorem scan_frame (rx : WsRx) (b : Bytes) :
    (frames.scan rx b).state.buf = rx.buf ∧ (frames.scan rx b).state.ended = rx.ended ∧
      (frames.scan rx b).state.maxMessage = rx.maxMessage := by
  let I : WsRx → Prop := fun s =>
    s.buf = rx.buf ∧ s.ended = rx.ended ∧ s.maxMessage = rx.maxMessage
  have hone : ∀ {s s' : WsRx} {b : Bytes} {r : ParseOne}, s.parseOne b = (r, s') → I s → I s' := by
    intro s s' b r hp hs
    have hf := s.parseOne_frame b
    rw [hp] at hf
    exact ⟨hf.1.trans hs.1, hf.2.1.trans hs.2.1, hf.2.2.trans hs.2.2⟩
  refine (frames.scan_invariant (I := I) (E := fun _ => True) ?_ ?_ rx b ⟨rfl, rfl, rfl⟩).1
  · intro s b n s' evs hs h
    obtain ⟨-, ⟨hp, -⟩ | ⟨ev, hp, -⟩⟩ := step_took h
    · exact ⟨hone hp hs, fun _ _ => trivial⟩
    · exact ⟨hone hp hs, fun _ _ => trivial⟩
  · intro s b s' evs hs h
    obtain ⟨ev, hp, -⟩ := step_stop h
    exact ⟨hone hp hs, fun _ _ => trivial⟩

/-! ## 3. `push` feeds the parser -/

/-- The state a read leaves: nothing is kept once the stream has ended, else the unread tail. -/
def stored (q : Scanned WsRx UInt8 WsEvent) : WsRx :=
  if q.ended then { q.state with ended := true, buf := [] } else { q.state with buf := q.rest }

theorem with_buf_self {s : WsRx} {b : Bytes} (h : s.buf = b) : { s with buf := b } = s := by
  subst h
  rfl

theorem cleared_self {s : WsRx} (hb : s.buf = []) (he : s.ended = false) :
    { s with buf := [], ended := false } = s := by
  cases s
  simp_all

-- Both routes of `push` come to the same: in place, or appended to the carried tail.
theorem push_eq_scan (rx : WsRx) (data : Bytes) (hopen : rx.ended = false) :
    rx.push data =
      ((frames.scan { rx with buf := [] } (rx.buf ++ data)).events,
        stored (frames.scan { rx with buf := [] } (rx.buf ++ data))) := by
  have hall := parseAll_eq_scan { rx with buf := [] } (rx.buf ++ data) 0 (Nat.zero_le _)
  have hframe := scan_frame { rx with buf := [] } (rx.buf ++ data)
  rw [List.drop_zero] at hall
  generalize hq : frames.scan { rx with buf := [] } (rx.buf ++ data) = q at hall hframe ⊢
  unfold WsRx.push
  rw [if_neg (by rw [hopen]; decide)]
  by_cases hbuf : rx.buf = []
  · have hrx : { rx with buf := [] } = rx := by rw [← hbuf]
    rw [hrx, hbuf, List.nil_append] at hall
    rw [if_pos hbuf]
    generalize rx.parseAll data 0 = r at hall
    obtain ⟨out, used, rx'⟩ := r
    obtain ⟨hout, hst, hrest⟩ := hall
    simp only at hout hst hrest ⊢
    rw [hout, hst]
    by_cases hend : q.ended = true
    · simp only [settle, stored, if_pos hend]
      rfl
    · have hend' : q.ended = false := by simpa using hend
      obtain ⟨hused, hrest⟩ := hrest hend'
      simp only [settle, stored, if_neg hend]
      rw [hframe.1, hframe.2.1, hopen, List.nil_append, hrest]
      by_cases hlt : used < data.length
      · rw [if_pos ⟨rfl, hlt⟩]
      · rw [if_neg (fun h => hlt h.2)]
        have hnil : q.rest = [] := by rw [← hrest]; exact List.drop_of_length_le (by omega)
        rw [hnil, cleared_self hframe.1 (hframe.2.1.trans hopen)]
  · rw [if_neg hbuf]
    dsimp only
    generalize WsRx.parseAll { rx with buf := [] } (rx.buf ++ data) 0 = r at hall
    obtain ⟨out, used, rx'⟩ := r
    obtain ⟨hout, hst, hrest⟩ := hall
    simp only at hout hst hrest ⊢
    rw [hout, hst]
    by_cases hend : q.ended = true
    · simp only [settle, stored, if_pos hend]
      rfl
    · have hend' : q.ended = false := by simpa using hend
      simp only [settle, stored, if_neg hend]
      rw [hframe.2.1, hopen, if_pos rfl, (hrest hend').2]

/-- A receiver as the incremental library sees it. -/
def receiver (rx : WsRx) : Incremental.Receiver WsRx UInt8 :=
  ⟨{ rx with buf := [], ended := false }, rx.buf, rx.ended⟩

theorem receiver_injective {a b : WsRx} (h : receiver a = receiver b) : a = b := by
  injection h with hs ht he
  cases a
  cases b
  simp_all

theorem push_eq_feed (rx : WsRx) (data : Bytes) :
    (rx.push data).1 = (frames.feed (receiver rx) data).1 ∧
      receiver (rx.push data).2 = (frames.feed (receiver rx) data).2 := by
  by_cases hopen : rx.ended = true
  · have hp : rx.push data = ([], rx) := by rw [WsRx.push, if_pos hopen]
    have hf : frames.feed (receiver rx) data = ([], receiver rx) := by
      rw [Incremental.feed]
      exact if_pos hopen
    rw [hp, hf]
    exact ⟨rfl, rfl⟩
  · have hopen' : rx.ended = false := by simpa using hopen
    have hbase : ({ rx with buf := [], ended := false } : WsRx) = { rx with buf := [] } := by
      rw [← hopen']
    have hframe := scan_frame { rx with buf := [] } (rx.buf ++ data)
    have hrest := frames.scan_rest_of_ended { rx with buf := [] } (rx.buf ++ data)
    rw [push_eq_scan rx data hopen', Incremental.feed]
    simp only [receiver, hopen', hbase]
    generalize frames.scan { rx with buf := [] } (rx.buf ++ data) = q at hframe hrest
    refine ⟨rfl, ?_⟩
    have hstate := cleared_self hframe.1 (hframe.2.1.trans hopen')
    cases hend : q.ended with
    | true => simp [stored, hend, hrest hend, hstate]
    | false => simp [stored, hend, hstate, hframe.2.1, hopen']

theorem pushAll_eq_feedAll (rx : WsRx) (chunks : List Bytes) :
    (rx.pushAll chunks).1 = (frames.feedAll (receiver rx) chunks).1 ∧
      receiver (rx.pushAll chunks).2 = (frames.feedAll (receiver rx) chunks).2 := by
  induction chunks generalizing rx with
  | nil => exact ⟨rfl, rfl⟩
  | cons data rest ih =>
    have hd := push_eq_feed rx data
    have hr := ih (rx.push data).2
    rw [hd.2] at hr
    exact ⟨by rw [WsRx.pushAll, Incremental.feedAll, hd.1, hr.1], hr.2⟩

theorem pushAll_eq_push (maxMessage : Nat) (chunks : List Bytes) :
    (WsRx.new maxMessage).pushAll chunks = (WsRx.new maxMessage).push chunks.flatten := by
  have hall := pushAll_eq_feedAll (WsRx.new maxMessage) chunks
  have hone := push_eq_feed (WsRx.new maxMessage) chunks.flatten
  rw [frames.feedAll_eq_feed _ (.inr rfl) chunks] at hall
  exact Prod.ext (hall.1.trans hone.1.symm) (receiver_injective (hall.2.trans hone.2.symm))

/-- **Receive is independent of how the stream is cut**: pushing chunks one by one appends the
events, and leaves the state, of pushing their concatenation in one call. -/
theorem push_chunks_eq_push_whole (maxMessage : Nat) (chunks : List Bytes) :
    let cut := (WsRx.new maxMessage).pushAll chunks
    let whole := (WsRx.new maxMessage).push chunks.flatten
    cut.1 = whole.1 ∧ cut.2.ended = whole.2.ended ∧ cut.2.fragOp = whole.2.fragOp ∧
      cut.2.frag = whole.2.frag ∧ cut.2.buf = whole.2.buf := by
  dsimp only
  rw [pushAll_eq_push]
  exact ⟨rfl, rfl, rfl, rfl, rfl⟩

/-! ## 4. Memory and termination -/

-- What is assembled so far fits, and there is none outside a fragmented message.
def Bounded (rx : WsRx) : Prop :=
  rx.frag.length ≤ rx.maxMessage ∧ (rx.fragOp = none → rx.frag = [])

/-- The size bound on what an event carries. -/
def WsEvent.Fits (maxMessage : Nat) : WsEvent → Prop
  | .text s => (asBytes s).length ≤ maxMessage
  | .binary payload => payload.length ≤ maxMessage
  | .ping payload => payload.length ≤ 125
  | _ => True

theorem finishMessage_fits {maxMessage : Nat} {opcode : UInt8} {payload : Bytes} {ev : WsEvent}
    (hlen : payload.length ≤ maxMessage)
    (h : WsRx.finishMessage opcode payload = .event ev) : ev.Fits maxMessage := by
  unfold WsRx.finishMessage at h
  split at h
  · split at h
    · rename_i s hs
      injection h with h
      subst h
      show (asBytes s).length ≤ maxMessage
      rwa [asBytes_of_fromUtf8 hs]
    · injection h with h
      subst h
      trivial
  · injection h with h
    subst h
    exact hlen

theorem closeEvent_fits (maxMessage : Nat) (payload : Bytes) :
    (WsRx.closeEvent payload).Fits maxMessage := by
  unfold WsRx.closeEvent
  dsimp only
  repeat' split
  all_goals trivial

theorem dispatch_bounded {rx : WsRx} {opcode : UInt8} {fin : Bool} {payload : Bytes}
    (hb : Bounded rx) (hlen : payload.length ≤ rx.maxMessage)
    (hctl : opcode ≥ opClose → payload.length ≤ 125) :
    Bounded (rx.dispatch opcode fin payload).2 ∧
      ∀ ev, (rx.dispatch opcode fin payload).1 = .event ev → ev.Fits rx.maxMessage := by
  unfold WsRx.dispatch
  split
  · rename_i hop
    refine ⟨hb, fun ev h => ?_⟩
    injection h with h
    subst h
    exact hctl (by rw [hop]; decide)
  split
  · exact ⟨hb, fun ev h => by injection h with h; subst h; trivial⟩
  split
  · refine ⟨hb, fun ev h => ?_⟩
    injection h with h
    subst h
    exact closeEvent_fits _ _
  split
  · split
    · exact ⟨hb, fun ev h => by injection h with h; subst h; trivial⟩
    split
    · exact ⟨hb, fun ev h => finishMessage_fits hlen h⟩
    · exact ⟨⟨hlen, fun h => by cases h⟩, fun ev h => by cases h⟩
  split
  · split
    · exact ⟨hb, fun ev h => by injection h with h; subst h; trivial⟩
    split
    · exact ⟨hb, fun ev h => by injection h with h; subst h; trivial⟩
    rename_i op hop hbig
    have happ : (rx.frag ++ payload).length ≤ rx.maxMessage := by
      rw [List.length_append]
      omega
    dsimp only
    split
    · exact ⟨⟨Nat.zero_le _, fun _ => rfl⟩, fun ev h => finishMessage_fits happ h⟩
    · exact ⟨⟨happ, fun h => by rw [hop] at h; cases h⟩, fun ev h => by cases h⟩
  · exact ⟨hb, fun ev h => by injection h with h; subst h; trivial⟩

theorem parseOne_bounded {rx : WsRx} (hb : Bounded rx) (b : Bytes) :
    Bounded (rx.parseOne b).2 ∧ ∀ ev, (rx.parseOne b).1 = .event ev → ev.Fits rx.maxMessage := by
  rcases readFrame_cases rx.maxMessage b with ⟨hf, -⟩ | ⟨code, why, hf⟩ |
    ⟨op, fin, payload, n, hf, -, -, hlen, hctl⟩
  · rw [WsRx.parseOne, hf]
    exact ⟨hb, fun ev h => by cases h⟩
  · rw [WsRx.parseOne, hf]
    exact ⟨hb, fun ev h => by injection h with h; subst h; trivial⟩
  · rw [WsRx.parseOne, hf]
    have hb' : Bounded { rx with consumed := n } := hb
    exact dispatch_bounded hb' hlen (fun h => (hctl h).1)

theorem scan_bounded (rx : WsRx) (hb : Bounded rx) (b : Bytes) :
    Bounded (frames.scan rx b).state ∧
      ∀ ev ∈ (frames.scan rx b).events, ev.Fits rx.maxMessage := by
  let I : WsRx → Prop := fun s => Bounded s ∧ s.maxMessage = rx.maxMessage
  have hone : ∀ {s s' : WsRx} {b : Bytes} {r : ParseOne}, s.parseOne b = (r, s') → I s →
      I s' ∧ ∀ ev, r = .event ev → ev.Fits rx.maxMessage := by
    intro s s' b r hp hs
    have hone := parseOne_bounded hs.1 b
    have hframe := s.parseOne_frame b
    rw [hp] at hone hframe
    rw [hs.2] at hone
    exact ⟨⟨hone.1, hframe.2.2.trans hs.2⟩, hone.2⟩
  have hscan := frames.scan_invariant (I := I) (E := fun ev => ev.Fits rx.maxMessage) ?_ ?_ rx b
    ⟨hb, rfl⟩
  · exact ⟨hscan.1.1, hscan.2⟩
  · intro s b n s' evs hs h
    obtain ⟨-, ⟨hp, rfl⟩ | ⟨ev, hp, -, rfl⟩⟩ := step_took h
    · exact ⟨(hone hp hs).1, by simp⟩
    · exact ⟨(hone hp hs).1, by simpa using (hone hp hs).2 ev rfl⟩
  · intro s b s' evs hs h
    obtain ⟨ev, hp, -, rfl⟩ := step_stop h
    exact ⟨(hone hp hs).1, by simpa using (hone hp hs).2 ev rfl⟩

/-- A scan emits a final event exactly when the stream ends, behind everything else. -/
theorem scan_final (rx : WsRx) (b : Bytes) :
    ∃ pre fin, (frames.scan rx b).events = pre ++ fin ∧ (∀ ev ∈ pre, ¬ ev.last = true) ∧
      if (frames.scan rx b).ended then ∃ ev, fin = [ev] ∧ ev.last = true else fin = [] := by
  refine frames.scan_last (fun ev => ev.last = true) ?_ ?_ rx b
  · intro s b n s' evs h
    obtain ⟨-, ⟨-, rfl⟩ | ⟨ev, -, hl, rfl⟩⟩ := step_took h
    · simp
    · simpa using hl
  · intro s b s' evs h
    obtain ⟨ev, -, hl, rfl⟩ := step_stop h
    exact ⟨ev, rfl, hl⟩

/-- One read: nothing once the stream has ended, else a final event at most, and that ends it. -/
theorem push_last (rx : WsRx) (data : Bytes) :
    (rx.ended = true ∧ rx.push data = ([], rx)) ∨
      (rx.ended = false ∧ (rx.push data).2.ended = false ∧
        ∀ ev ∈ (rx.push data).1, ev.last = false) ∨
      (rx.ended = false ∧ (rx.push data).2.ended = true ∧ ∃ pre fin, (rx.push data).1 = pre ++ [fin] ∧
        fin.last = true ∧ ∀ ev ∈ pre, ev.last = false) := by
  cases hopen : rx.ended with
  | true => exact .inl ⟨rfl, by rw [WsRx.push, if_pos hopen]⟩
  | false =>
    have hframe := (scan_frame { rx with buf := [] } (rx.buf ++ data)).2.1
    obtain ⟨pre, fin, hev, hpre, hfin⟩ := scan_final { rx with buf := [] } (rx.buf ++ data)
    rw [push_eq_scan rx data hopen]
    generalize frames.scan { rx with buf := [] } (rx.buf ++ data) = q at hframe hev hfin ⊢
    have hpre : ∀ ev ∈ pre, ev.last = false := fun ev hev => by simpa using hpre ev hev
    cases hend : q.ended with
    | true =>
      rw [hend, if_pos rfl] at hfin
      obtain ⟨last, rfl, hlast⟩ := hfin
      exact .inr (.inr ⟨rfl, by simp [stored, hend], pre, last, hev, hlast, hpre⟩)
    | false =>
      rw [hend] at hfin
      have hfin : fin = [] := hfin
      subst hfin
      refine .inr (.inl ⟨rfl, by simp [stored, hend, hframe, hopen], ?_⟩)
      rw [hev, List.append_nil]
      exact hpre

/-- **Memory and termination discipline against any peer.**  After any sequence of pushes the
buffers are bounded, so is every event, and a Close or Fail is the last event ever emitted:
later pushes emit nothing and retain nothing. -/
theorem receive_bounded_and_final (maxMessage : Nat) (chunks : List Bytes) :
    let r := (WsRx.new maxMessage).pushAll chunks
    (r.2.frag.length ≤ maxMessage ∧ (r.2.fragOp = none → r.2.frag = []) ∧
        r.2.buf.length ≤ maxMessage + 13) ∧
      (∀ ev ∈ r.1, ev.Fits maxMessage) ∧
      (∀ pre ev post, r.1 = pre ++ ev :: post → ev.last = true → post = []) ∧
      (∀ ev ∈ r.1, ev.last = true → r.2.buf = [] ∧ ∀ data, r.2.push data = ([], r.2)) := by
  dsimp only
  rw [pushAll_eq_push, push_eq_scan _ _ rfl]
  have hnew : Bounded { WsRx.new maxMessage with buf := [] } := ⟨Nat.zero_le _, fun _ => rfl⟩
  generalize hs : ({ WsRx.new maxMessage with buf := [] } : WsRx) = s at hnew
  have hmax : s.maxMessage = maxMessage := by rw [← hs]; rfl
  generalize (WsRx.new maxMessage).buf ++ chunks.flatten = b
  have hb := scan_bounded s hnew b
  have hframe := (scan_frame s b).2.2.trans hmax
  have hsettled := frames.scan_settled s b
  obtain ⟨pre, fin, hev, hpre, hfin⟩ := scan_final s b
  rw [hmax] at hb
  generalize frames.scan s b = q at hb hframe hsettled hev hfin
  have hfrag := hb.1.1
  rw [hframe] at hfrag
  cases hend : q.ended with
  | true =>
    rw [hend, if_pos rfl] at hfin
    obtain ⟨last, rfl, hlast⟩ := hfin
    have hst : stored q = { q.state with ended := true, buf := [] } := if_pos hend
    dsimp only
    rw [hst, hev]
    refine ⟨⟨hfrag, hb.1.2, Nat.zero_le _⟩, by rw [← hev]; exact hb.2, ?_, ?_⟩
    · intro pre' ev post heq hl
      rcases List.eq_nil_or_concat post with hnil | ⟨post', x, rfl⟩
      · exact hnil
      · have hsplit : pre ++ [last] = (pre' ++ ev :: post') ++ [x] := by simpa using heq
        have hpre' := List.append_inj_left' hsplit rfl
        exact absurd hl (hpre ev (by rw [hpre']; simp))
    · exact fun ev _ _ => ⟨rfl, fun data => rfl⟩
  | false =>
    rw [hend] at hfin
    have hfin : fin = [] := hfin
    have hst : stored q = { q.state with buf := q.rest } := by
      rw [stored, hend]
      rfl
    subst hfin
    rw [List.append_nil] at hev
    dsimp only
    rw [hst, hev]
    have hwait : q.rest.length ≤ maxMessage + 13 := by
      have hmore := hsettled.resolve_left (by rw [hend]; decide)
      rw [← hframe]
      exact WsRx.length_of_needMore (step_eq_more.mp hmore)
    refine ⟨⟨hfrag, hb.1.2, hwait⟩, by rw [← hev]; exact hb.2, ?_, ?_⟩
    · intro pre' ev post heq hl
      exact absurd hl (hpre ev (by rw [heq]; simp))
    · exact fun ev hmem hl => absurd hl (hpre ev hmem)

end Cadeloop.Core.Ws
