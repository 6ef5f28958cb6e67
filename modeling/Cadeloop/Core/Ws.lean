import Cadeloop.Reasoning.Bytes

/-!
# The WebSocket codec (`crates/core/src/ws.rs`)

Frame encoding (`frame`, `closeFrame`) and the receive side: `WsRx.parseOne` reads one frame off
the front of a buffer, `WsRx.parseAll` walks it, `WsRx.push` feeds it with what a read returned.
Lengths and positions are `usize` on a 64-bit target and never wrap here, so they are `Nat`.
`String` is Lean's, whose values are UTF-8 by construction, as Rust's are.
-/

namespace Cadeloop.Core.Ws

open Cadeloop.Reasoning

/-! ## 1. Frames -/

def opCont : UInt8 := 0x0
def opText : UInt8 := 0x1
def opBinary : UInt8 := 0x2
def opClose : UInt8 := 0x8
def opPing : UInt8 := 0x9
def opPong : UInt8 := 0xA

/-- The length field: one byte below 126, else an escape and two or eight big-endian bytes.
`maskBit` is 0 for the server's own frames and 0x80 for a client's. -/
def lengthField (maskBit : UInt8) (n : Nat) : Bytes :=
  if n < 126 then [maskBit ||| UInt8.ofNat n]
  else if n ≤ 0xFFFF then (maskBit ||| 126) :: beBytes 2 n
  else (maskBit ||| 127) :: beBytes 8 n

/-- Encode one server frame (FIN set, unmasked). -/
def frame (opcode : UInt8) (payload : Bytes) : Bytes :=
  (0x80 ||| (opcode &&& 0x0F)) :: lengthField 0 payload.length ++ payload

/-- The bytes of a string (`as_bytes`). -/
def asBytes (s : String) : Bytes := s.toByteArray.data.toList

/-- `String::from_utf8`. -/
def fromUtf8 (b : Bytes) : Option String := String.fromUTF8? ⟨b.toArray⟩

@[simp] theorem fromUtf8_asBytes (s : String) : fromUtf8 (asBytes s) = some s := by
  have hbytes : (⟨s.toByteArray.data.toList.toArray⟩ : ByteArray) = s.toByteArray := rfl
  rw [fromUtf8, asBytes, hbytes, String.fromUTF8?, dif_pos s.isValidUTF8]
  rfl

theorem asBytes_of_fromUtf8 {b : Bytes} {s : String} (h : fromUtf8 b = some s) :
    asBytes s = b := by
  rw [fromUtf8, String.fromUTF8?] at h
  split at h
  · injection h with h
    rw [← h]
    rfl
  · cases h

/-- `str::is_char_boundary`. -/
def isCharBoundary (s : String) (index : Nat) : Bool :=
  if index = 0 then true
  else if index ≥ (asBytes s).length then index = (asBytes s).length
  else (asBytes s).getD index 0 < 128 || (asBytes s).getD index 0 ≥ 192

/-- `&s[..end]`, which panics inside a character. -/
def sliceTo (s : String) (stop : Nat) : Option String :=
  if isCharBoundary s stop then fromUtf8 ((asBytes s).take stop) else none

/-- The loop of `truncate_on_char_boundary`. -/
def stepBack (s : String) : Nat → Nat
  | 0 => 0
  | stop + 1 => if isCharBoundary s (stop + 1) then stop + 1 else stepBack s stop

/-- Largest prefix of `s` that fits in `max` bytes without splitting a character. -/
def truncateOnCharBoundary (s : String) (max : Nat) : Option String :=
  if (asBytes s).length ≤ max then some s else sliceTo s (stepBack s max)

/-- Encode a close frame with a status code and a reason, cut to the 123 bytes left for it. -/
def closeFrame (code : UInt16) (reason : String) : Option Bytes :=
  (truncateOnCharBoundary reason 123).map fun reason =>
    frame opClose (beBytes 2 code.toNat ++ asBytes reason)

/-- One inbound event, message-assembled. -/
inductive WsEvent where
  | text (s : String)
  | binary (payload : Bytes)
  | ping (payload : Bytes)
  | pong
  | close (code : Nat) (reason : String)
  | fail (code : Nat) (why : String)
  deriving DecidableEq

/-- The events after which the stream is over: `Fail` and `Close`. -/
def WsEvent.last : WsEvent → Bool
  | .fail .. => true
  | .close .. => true
  | _ => false

inductive ParseOne where
  | needMore
  | continue
  | event (ev : WsEvent)

def validCloseCode (code : Nat) : Bool :=
  ((1000 ≤ code && code ≤ 1014) || (3000 ≤ code && code ≤ 4999)) &&
    !((1004 ≤ code && code ≤ 1006) || code == 1015)

/-! ## 2. Reading one frame -/

-- What the length bytes of a frame head say: not all there, refused, or a length and the
-- offset behind it.
inductive LengthRead where
  | needMore
  | fail (why : String)
  | len (n off : Nat)

/-- The length part of `parse_one`: the 7-bit field and its two extended forms. -/
def readLength (b : Bytes) : LengthRead :=
  let len := (b.getD 1 0 &&& 0x7F).toNat
  if len = 126 then
    if b.length < 2 + 2 then .needMore
    else
      let len := beNat (slice b 2 2)
      if len < 126 then .fail "non-minimal payload length" else .len len (2 + 2)
  else if len = 127 then
    if b.length < 2 + 8 then .needMore
    -- RFC 6455 section 5.2 limits this field to 63 bits
    else if b.getD 2 0 &&& 0x80 ≠ 0 then .fail "invalid payload length"
    else
      let len := beNat (slice b 2 8)
      if len ≤ 0xFFFF then .fail "non-minimal payload length" else .len len (2 + 8)
  else .len len 2

inductive FrameRead where
  | needMore
  | fail (code : Nat) (why : String)
  | frame (opcode : UInt8) (fin : Bool) (payload : Bytes) (consumed : Nat)

/-- The stateless part of `parse_one`, up to the unmasked payload. -/
def readFrame (maxMessage : Nat) (b : Bytes) : FrameRead :=
  if b.length < 2 then .needMore
  else
    let fin := b.getD 0 0 &&& 0x80 != 0
    -- RSV bits without a negotiated extension (we negotiate none)
    if b.getD 0 0 &&& 0x70 ≠ 0 then .fail 1002 "reserved bits set"
    else
      let opcode := b.getD 0 0 &&& 0x0F
      if b.getD 1 0 &&& 0x80 = 0 then .fail 1002 "client frame not masked"
      else
        match readLength b with
        | .needMore => .needMore
        | .fail why => .fail 1002 why
        | .len len off =>
          if opcode ≥ opClose ∧ (len > 125 ∨ fin = false) then .fail 1002 "malformed control frame"
          else if len > maxMessage then .fail 1009 "message too big"
          else if b.length < off + 4 then .needMore
          else
            let mask := slice b off 4
            let off := off + 4
            if b.length < off + len then .needMore
            else .frame opcode fin (xorKey mask (slice b off len)) (off + len)

/-! ## 3. The receive side -/

/-- Inbound frame accumulator and message assembler. -/
structure WsRx where
  -- the unparsed tail of earlier pushes: a frame not yet complete
  buf : Bytes
  -- bytes the last `parseOne` consumed
  consumed : Nat
  fragOp : Option UInt8
  frag : Bytes
  maxMessage : Nat
  -- the peer's Close frame, or a protocol failure, ended the stream
  ended : Bool

namespace WsRx

def new (maxMessage : Nat) : WsRx :=
  { buf := [], consumed := 0, fragOp := none, frag := [], maxMessage, ended := false }

def finishMessage (opcode : UInt8) (payload : Bytes) : ParseOne :=
  if opcode = opText then
    match fromUtf8 payload with
    | some s => .event (.text s)
    | none => .event (.fail 1007 "text message not utf-8")
  else .event (.binary payload)

-- the `OP_CLOSE` arm of `parse_one`
def closeEvent (payload : Bytes) : WsEvent :=
  if payload.length = 1 then .fail 1002 "malformed close payload"
  else if payload.length ≥ 2 then
    let code := beNat (slice payload 0 2)
    if !validCloseCode code then .fail 1002 "invalid close code"
    else
      match fromUtf8 (payload.drop 2) with
      | some r => .close code r
      | none => .fail 1007 "close reason not utf-8"
  else .close 1005 ""

/-- The opcode dispatch at the end of `parse_one`, on a whole unmasked frame. -/
def dispatch (rx : WsRx) (opcode : UInt8) (fin : Bool) (payload : Bytes) : ParseOne × WsRx :=
  if opcode = opPing then (.event (.ping payload), rx)
  else if opcode = opPong then (.event .pong, rx)
  else if opcode = opClose then (.event (closeEvent payload), rx)
  else if opcode = opText ∨ opcode = opBinary then
    if rx.fragOp.isSome then
      (.event (.fail 1002 "new message inside fragmented message"), rx)
    else if fin then (finishMessage opcode payload, rx)
    else (.continue, { rx with fragOp := some opcode, frag := payload })
  else if opcode = opCont then
    match rx.fragOp with
    | none => (.event (.fail 1002 "continuation without a message"), rx)
    | some op =>
      -- checked before the fragment is kept: `frag` never exceeds the limit
      if rx.frag.length + payload.length > rx.maxMessage then
        (.event (.fail 1009 "message too big"), rx)
      else
        let frag := rx.frag ++ payload
        if fin then (finishMessage op frag, { rx with fragOp := none, frag := [] })
        else (.continue, { rx with frag })
  else (.event (.fail 1002 "unknown opcode"), rx)

/-- One frame from the front of `b`. -/
def parseOne (rx : WsRx) (b : Bytes) : ParseOne × WsRx :=
  match readFrame rx.maxMessage b with
  | .needMore => (.needMore, rx)
  | .fail code why => (.event (.fail code why), rx)
  | .frame opcode fin payload consumed => dispatch { rx with consumed } opcode fin payload

theorem dispatch_consumed (rx : WsRx) (opcode : UInt8) (fin : Bool) (payload : Bytes) :
    (dispatch rx opcode fin payload).2.consumed = rx.consumed := by
  unfold dispatch
  repeat' split
  all_goals rfl

end WsRx

/-! ## 4. What a frame read can say -/

theorem readLength_cases (b : Bytes) :
    (readLength b = .needMore ∧ b.length < 10) ∨ (∃ why, readLength b = .fail why) ∨
      ∃ n off, readLength b = .len n off ∧ 2 ≤ off ∧ off ≤ 10 ∧ (2 ≤ b.length → off ≤ b.length) := by
  simp only [readLength]
  by_cases h126 : (b.getD 1 0 &&& 0x7F).toNat = 126
  · rw [if_pos h126]
    by_cases hlen : b.length < 2 + 2
    · exact .inl ⟨if_pos hlen, by omega⟩
    · rw [if_neg hlen]
      split
      · exact .inr (.inl ⟨_, rfl⟩)
      · exact .inr (.inr ⟨_, _, rfl, by omega, by omega, fun _ => by omega⟩)
  · rw [if_neg h126]
    by_cases h127 : (b.getD 1 0 &&& 0x7F).toNat = 127
    · rw [if_pos h127]
      by_cases hlen : b.length < 2 + 8
      · exact .inl ⟨if_pos hlen, by omega⟩
      · rw [if_neg hlen]
        split
        · exact .inr (.inl ⟨_, rfl⟩)
        · split
          · exact .inr (.inl ⟨_, rfl⟩)
          · exact .inr (.inr ⟨_, _, rfl, by omega, by omega, fun _ => by omega⟩)
    · rw [if_neg h127]
      exact .inr (.inr ⟨_, _, rfl, by omega, by omega, id⟩)

/-- A decided length does not change when more bytes arrive. -/
theorem readLength_append {b : Bytes} (c : Bytes) (h2 : 2 ≤ b.length)
    (h : readLength b ≠ .needMore) : readLength (b ++ c) = readLength b := by
  simp only [readLength] at h ⊢
  rw [getD_append_left (by omega : 1 < b.length)]
  by_cases h126 : (b.getD 1 0 &&& 0x7F).toNat = 126
  · rw [if_pos h126] at h
    have hlen : ¬ b.length < 2 + 2 := fun hlt => h (if_pos hlt)
    rw [if_pos h126, if_pos h126, if_neg hlen, if_neg (by rw [List.length_append]; omega),
      slice_append_left (by omega)]
  · rw [if_neg h126] at h
    rw [if_neg h126, if_neg h126]
    by_cases h127 : (b.getD 1 0 &&& 0x7F).toNat = 127
    · rw [if_pos h127] at h
      have hlen : ¬ b.length < 2 + 8 := fun hlt => h (if_pos hlt)
      rw [if_pos h127, if_pos h127, if_neg hlen, if_neg (by rw [List.length_append]; omega),
        getD_append_left (by omega : 2 < b.length), slice_append_left (by omega)]
    · rw [if_neg h127, if_neg h127]

/-- **The three outcomes of a frame read.**  It waits, holding at most 13 bytes more than the
limit; it fails on bytes it has seen; or it takes a whole frame within the limits. -/
theorem readFrame_cases (maxMessage : Nat) (b : Bytes) :
    (readFrame maxMessage b = .needMore ∧ b.length ≤ maxMessage + 13) ∨
      (∃ code why, readFrame maxMessage b = .fail code why) ∨
      ∃ opcode fin payload n, readFrame maxMessage b = .frame opcode fin payload n ∧
        6 ≤ n ∧ n ≤ b.length ∧ payload.length ≤ maxMessage ∧
        (opcode ≥ opClose → payload.length ≤ 125 ∧ fin = true) := by
  unfold readFrame
  by_cases h2 : b.length < 2
  · exact .inl ⟨if_pos h2, by omega⟩
  rw [if_neg h2]
  by_cases hrsv : b.getD 0 0 &&& 0x70 ≠ 0
  · exact .inr (.inl ⟨_, _, if_pos hrsv⟩)
  by_cases hmask : b.getD 1 0 &&& 0x80 = 0
  · exact .inr (.inl ⟨_, _, by simp only [if_neg hrsv, if_pos hmask]; rfl⟩)
  simp only [if_neg hrsv, if_neg hmask]
  rcases readLength_cases b with ⟨hl, hb⟩ | ⟨why, hl⟩ | ⟨n, off, hl, hoff, hoff', hb⟩
  · exact .inl ⟨by rw [hl], by omega⟩
  · exact .inr (.inl ⟨_, _, by rw [hl]⟩)
  rw [hl]
  dsimp only
  by_cases hctl : b.getD 0 0 &&& 0x0F ≥ opClose ∧ (n > 125 ∨ (b.getD 0 0 &&& 0x80 != 0) = false)
  · exact .inr (.inl ⟨_, _, if_pos hctl⟩)
  rw [if_neg hctl]
  by_cases hbig : n > maxMessage
  · exact .inr (.inl ⟨_, _, if_pos hbig⟩)
  rw [if_neg hbig]
  by_cases h4 : b.length < off + 4
  · exact .inl ⟨if_pos h4, by omega⟩
  rw [if_neg h4]
  by_cases hpay : b.length < off + 4 + n
  · exact .inl ⟨if_pos hpay, by omega⟩
  rw [if_neg hpay]
  have hlen : (xorKey (slice b off 4) (slice b (off + 4) n)).length = n := by
    rw [xorKey_length, slice_length (by omega)]
  refine .inr (.inr ⟨_, _, _, _, rfl, by omega, by omega, by omega, fun hop => ?_⟩)
  rw [hlen]
  simp only [not_and_or, not_or] at hctl
  exact ⟨by have := hctl.resolve_left (not_not.mpr hop); omega,
    by have := (hctl.resolve_left (not_not.mpr hop)).2; simpa using this⟩

/-- A decided frame read does not change when more bytes arrive. -/
theorem readFrame_append {maxMessage : Nat} {b : Bytes} (c : Bytes)
    (h : readFrame maxMessage b ≠ .needMore) :
    readFrame maxMessage (b ++ c) = readFrame maxMessage b := by
  unfold readFrame at h ⊢
  by_cases h2 : b.length < 2
  · exact absurd (if_pos h2) h
  have happ : (b ++ c).length = b.length + c.length := List.length_append
  rw [if_neg h2] at h
  rw [if_neg h2, if_neg (by omega), getD_append_left (by omega : 0 < b.length),
    getD_append_left (by omega : 1 < b.length)]
  by_cases hrsv : b.getD 0 0 &&& 0x70 ≠ 0
  · simp only [if_pos hrsv]
  by_cases hmask : b.getD 1 0 &&& 0x80 = 0
  · simp only [if_neg hrsv, if_pos hmask]
  simp only [if_neg hrsv, if_neg hmask] at h ⊢
  have hl : readLength b ≠ .needMore := fun hl => h (by rw [hl])
  rw [readLength_append c (by omega) hl]
  rcases readLength_cases b with ⟨hm, -⟩ | ⟨why, hm⟩ | ⟨n, off, hm, -, -, hb⟩
  · exact absurd hm hl
  · rw [hm]
  rw [hm] at h ⊢
  dsimp only at h ⊢
  split
  · rfl
  rename_i hctl
  rw [if_neg hctl] at h
  split
  · rfl
  rename_i hbig
  rw [if_neg hbig] at h
  have h4 : ¬ b.length < off + 4 := fun hlt => h (if_pos hlt)
  rw [if_neg h4] at h
  have hpay : ¬ b.length < off + 4 + n := fun hlt => h (if_pos hlt)
  rw [if_neg h4, if_neg hpay, if_neg (by omega), if_neg (by omega),
    slice_append_left (by omega), slice_append_left (by omega)]

/-! ## 5. Walking a buffer (`parse_all`, `push`) -/

namespace WsRx

/-- A frame that does not end the stream was consumed whole. -/
theorem parseOne_consumed {rx rx' : WsRx} {b : Bytes} {r : ParseOne}
    (h : rx.parseOne b = (r, rx')) (hmore : r ≠ .needMore)
    (hlast : ∀ ev, r = .event ev → ev.last = false) :
    6 ≤ rx'.consumed ∧ rx'.consumed ≤ b.length := by
  unfold parseOne at h
  rcases readFrame_cases rx.maxMessage b with ⟨hf, -⟩ | ⟨code, why, hf⟩ |
    ⟨opcode, fin, payload, n, hf, hn, hb, -, -⟩
  · rw [hf] at h
    exact absurd (congrArg Prod.fst h).symm hmore
  · rw [hf] at h
    have hr := (congrArg Prod.fst h).symm
    exact absurd (hlast _ hr) (by simp [WsEvent.last])
  · rw [hf] at h
    have hc := dispatch_consumed { rx with consumed := n } opcode fin payload
    have h' : dispatch { rx with consumed := n } opcode fin payload = (r, rx') := h
    rw [h'] at hc
    simp only at hc
    omega

/-- Parse every complete frame of `b` from `pos` on: the events, the position reached, the
state left.  A Close, or a protocol failure, ends the stream: nothing after it is parsed. -/
def parseAll (rx : WsRx) (b : Bytes) (pos : Nat) : List WsEvent × Nat × WsRx :=
  match _h : rx.parseOne (b.drop pos) with
  | (.needMore, rx') => ([], pos, rx')
  | (.event ev, rx') =>
    -- a failure leaves `consumed` stale, and the position behind it is never used
    if _hl : ev.last then ([ev], pos + rx'.consumed, { rx' with ended := true, buf := [] })
    else
      let r := parseAll rx' b (pos + rx'.consumed)
      (ev :: r.1, r.2)
  | (.continue, rx') => parseAll rx' b (pos + rx'.consumed)
termination_by b.length - pos
decreasing_by
  · have hc := parseOne_consumed _h (by simp) (by simpa using _hl)
    rw [List.length_drop] at hc
    omega
  · have hc := parseOne_consumed _h (by simp) (by simp)
    rw [List.length_drop] at hc
    omega

/-- One read: the events it appends and the state it leaves. -/
def push (rx : WsRx) (data : Bytes) : List WsEvent × WsRx :=
  if rx.ended then ([], rx)
  else if rx.buf = [] then
    -- nothing carried over: parse straight out of `data`, keep only an incomplete tail
    let (out, used, rx) := rx.parseAll data 0
    if rx.ended = false ∧ used < data.length then
      (out, { rx with buf := rx.buf ++ data.drop used })
    else (out, rx)
  else
    let buf := rx.buf ++ data
    let (out, used, rx) := parseAll { rx with buf := [] } buf 0
    if rx.ended = false then (out, { rx with buf := buf.drop used }) else (out, rx)

/-- Push chunks one by one. -/
def pushAll (rx : WsRx) : List Bytes → List WsEvent × WsRx
  | [] => ([], rx)
  | data :: rest =>
    let r := rx.push data
    let t := r.2.pushAll rest
    (r.1 ++ t.1, t.2)

end WsRx

end Cadeloop.Core.Ws
