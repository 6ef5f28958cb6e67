import Cadeloop.Core.WsRoundTrip
import Cadeloop.Reasoning.Utf8

/-!
# Close frames

What `closeFrame` sends is one short frame with the code and as much of the reason as fits.  A receiver as
strict as this one takes it, masked, for a close with that code and that much of the reason.
-/

namespace Cadeloop.Core.Ws

open Cadeloop.Reasoning
open Utf8 (LongestPrefix isValid_iff_not_continues not_continues)

/-! ## 1. Truncation -/

theorem asBytes_length (s : String) : (asBytes s).length = s.utf8ByteSize := rfl

theorem asBytes_append (s t : String) : asBytes (s ++ t) = asBytes s ++ asBytes t := by
  simp only [asBytes, String.toByteArray_append, ByteArray.data_append, Array.toList_append]

/-- The test of `is_char_boundary` on the byte there. -/
theorem isCharBoundary_iff {s : String} {n : Nat} :
    isCharBoundary s n = true ↔ (String.Pos.Raw.mk n).IsValid s := by
  have hend : ∀ {p : String.Pos.Raw}, p = s.rawEndPos → p.IsValid s := by
    rintro _ rfl
    exact String.Pos.Raw.isValid_rawEndPos
  unfold isCharBoundary
  rw [asBytes_length]
  split
  · rename_i hzero
    subst hzero
    exact ⟨fun _ => String.Pos.Raw.isValid_zero, fun _ => rfl⟩
  split
  · rename_i hover
    rw [decide_eq_true_eq]
    constructor
    · rintro rfl
      exact hend rfl
    · intro h
      exact Nat.le_antisymm h.le_rawEndPos hover
  · rename_i hin
    have hlt : String.Pos.Raw.mk n < s.rawEndPos := Nat.lt_of_not_le hin
    have hbyte : (asBytes s).getD n 0 = s.getUTF8Byte ⟨n⟩ hlt := by
      rw [String.getUTF8Byte_eq_getElem, ByteArray.getElem_eq_getElem_data, asBytes,
        List.getD_eq_getElem _ _ (Nat.lt_of_not_le hin), Array.getElem_toList]
    rw [hbyte, isValid_iff_not_continues, Bool.or_eq_true, decide_eq_true_eq, decide_eq_true_eq, ge_iff_le,
      ← not_continues]
    constructor
    · exact fun hb => .inr ⟨hlt, hb⟩
    · rintro (heq | ⟨_, hb⟩)
      · exact absurd (heq ▸ hlt) (Nat.lt_irrefl _)
      · exact hb

/-- A slice up to a boundary. -/
theorem sliceTo_boundary {s : String} {n : Nat} (h : (String.Pos.Raw.mk n).IsValid s) :
    ∃ p rest, sliceTo s n = some p ∧ p ++ rest = s ∧ p.utf8ByteSize = n := by
  obtain ⟨p, rest, rfl, hn⟩ := String.Pos.Raw.isValid_iff_exists_append.mp h
  have hn : n = p.utf8ByteSize := congrArg String.Pos.Raw.byteIdx hn
  refine ⟨p, rest, ?_, rfl, hn.symm⟩
  have htake : (asBytes (p ++ rest)).take n = asBytes p := by
    rw [asBytes_append, hn, ← asBytes_length, List.take_left]
  rw [sliceTo, if_pos (isCharBoundary_iff.mpr h), htake, fromUtf8_asBytes]

/-- Stepping back ends at the last boundary. -/
theorem stepBack_last (s : String) (n : Nat) :
    (String.Pos.Raw.mk (stepBack s n)).IsValid s ∧ stepBack s n ≤ n ∧
      ∀ m, m ≤ n → (String.Pos.Raw.mk m).IsValid s → m ≤ stepBack s n := by
  induction n with
  | zero => exact ⟨String.Pos.Raw.isValid_zero, Nat.le_refl 0, fun _ hm _ => hm⟩
  | succ n ih =>
    rw [stepBack]
    split
    · rename_i hboundary
      exact ⟨isCharBoundary_iff.mp hboundary, Nat.le_refl _, fun _ hm _ => hm⟩
    · rename_i hinside
      obtain ⟨hvalid, hle, hlast⟩ := ih
      refine ⟨hvalid, Nat.le_succ_of_le hle, fun m hm hboundary => ?_⟩
      rcases Nat.le_succ_iff.mp hm with hbefore | rfl
      · exact hlast m hbefore hboundary
      · exact absurd (isCharBoundary_iff.mpr hboundary) hinside

/-- The slice is never taken inside a character, and what it gives is the longest prefix. -/
theorem truncateOnCharBoundary_longest (s : String) (max : Nat) :
    ∃ p, truncateOnCharBoundary s max = some p ∧ LongestPrefix max s p := by
  unfold truncateOnCharBoundary
  split
  · rename_i hfits
    exact ⟨s, rfl, LongestPrefix.whole hfits⟩
  · obtain ⟨hvalid, hle, hlast⟩ := stepBack_last s max
    obtain ⟨p, rest, hslice, happend, hsize⟩ := sliceTo_boundary hvalid
    exact ⟨p, hslice, LongestPrefix.of_boundary happend hsize hle hlast⟩

/-! ## 2. The frame -/

/-- A code and a reason. -/
def closePayload (code : UInt16) (reason : String) : Bytes :=
  (code >>> 8).toUInt8 :: code.toUInt8 :: asBytes reason

theorem beBytes_code (code : UInt16) : beBytes 2 code.toNat = [(code >>> 8).toUInt8, code.toUInt8] := by
  have hhigh : UInt8.ofNat (code.toNat / 256) = (code >>> 8).toUInt8 := by
    apply UInt8.toNat_inj.mp
    simp [Nat.shiftRight_eq_div_pow]
  have hlow : UInt8.ofNat code.toNat = code.toUInt8 := by
    apply UInt8.toNat_inj.mp
    simp
  simp only [beBytes, pow_one, pow_zero, Nat.div_one, hhigh, hlow]

theorem frame_short (opcode : UInt8) {payload : Bytes} (h : payload.length ≤ 125) :
    frame opcode payload = (0x80 ||| (opcode &&& 0x0F)) :: UInt8.ofNat payload.length :: payload := by
  have hfield : lengthField 0 payload.length = [UInt8.ofNat payload.length] := by
    rw [lengthField, if_pos (by omega), UInt8.zero_or]
  rw [frame, hfield]
  rfl

theorem closeFrame_eq (code : UInt16) (reason : String) :
    ∃ p, LongestPrefix 123 reason p ∧ (closePayload code p).length ≤ 125 ∧
      closeFrame code reason = some (frame opClose (closePayload code p)) := by
  obtain ⟨p, htruncated, hlongest⟩ := truncateOnCharBoundary_longest reason 123
  have hpayload : beBytes 2 code.toNat ++ asBytes p = closePayload code p := by
    rw [beBytes_code]
    rfl
  have hlength : (closePayload code p).length ≤ 125 := by
    have hfits := hlongest.fits
    rw [closePayload, List.length_cons, List.length_cons, asBytes_length]
    omega
  refine ⟨p, hlongest, hlength, ?_⟩
  rw [closeFrame, htruncated, Option.map_some, hpayload]

/-! ## 3. What a receiver makes of it -/

/-- A frame with the one-byte length, masked: MASK bit, key, and the payload XORed with the key. -/
def masked (key : MaskKey) : Bytes → Bytes
  | b₀ :: b₁ :: payload => b₀ :: (0x80 ||| b₁) :: (key.val ++ xorKey key.val payload)
  | b => b

theorem masked_frame {opcode : UInt8} (hop : opcode &&& 0x0F = opcode) (key : MaskKey) {payload : Bytes}
    (h : payload.length ≤ 125) : masked key (frame opcode payload) = clientFrame ⟨opcode, true, payload⟩ key := by
  have hfield : lengthField 0x80 payload.length = [0x80 ||| UInt8.ofNat payload.length] := by
    rw [lengthField, if_pos (by omega)]
  rw [frame_short opcode h, hop, masked, clientFrame, hfield]
  rfl

theorem closeEvent_closePayload (code : UInt16) (reason : String) :
    WsRx.closeEvent (closePayload code reason) =
      if validCloseCode code.toNat then .close code.toNat reason else .fail 1002 "invalid close code" := by
  have hcode : beNat (slice (closePayload code reason) 0 2) = code.toNat := by
    have hslice : slice (closePayload code reason) 0 2 = beBytes 2 code.toNat := (beBytes_code code).symm
    rw [hslice, beNat_beBytes code.toNat_lt]
  have hlength : (closePayload code reason).length = (asBytes reason).length + 2 := rfl
  have hreason : (closePayload code reason).drop 2 = asBytes reason := rfl
  rw [WsRx.closeEvent, if_neg (by omega), if_pos (by omega)]
  simp only [hcode, hreason, fromUtf8_asBytes]
  cases validCloseCode code.toNat <;> rfl

/-- A fresh receiver has one event for a masked close frame, in whatever chunks it comes. -/
theorem pushAll_close {maxMessage : Nat} (hmax : 125 ≤ maxMessage) (p : ControlPayload) (key : MaskKey)
    {chunks : List Bytes} (hchunks : chunks.flatten = clientFrame ⟨opClose, true, p.val⟩ key) :
    ((WsRx.new maxMessage).pushAll chunks).1 = [WsRx.closeEvent p.val] := by
  obtain ⟨rx', hstop⟩ := step_close (WsRx.new maxMessage) hmax p key
  have hscan := (frames.reads_nil (WsRx.new maxMessage)).scan_stop frames hstop
  have hpush := push_eq_scan (WsRx.new maxMessage) chunks.flatten rfl
  have hnew : ({ WsRx.new maxMessage with buf := [] } : WsRx) = WsRx.new maxMessage := rfl
  rw [List.nil_append] at hscan
  rw [hnew, show (WsRx.new maxMessage).buf = [] from rfl, List.nil_append, hchunks, hscan] at hpush
  rw [pushAll_eq_push, hchunks, hpush]
  rfl

/-- **A strict peer takes every close frame.**  Its payload is the code and the longest part of the reason
that fits and ends with a character, in one frame with the short length; masked, it is received as a
close with these if the code is one that may be sent. -/
theorem close_frame_acceptable (code : UInt16) (reason : String) :
    ∃ p bytes, closeFrame code reason = some bytes ∧ LongestPrefix 123 reason p ∧
      (closePayload code p).length ≤ 125 ∧
      bytes = 0x88 :: UInt8.ofNat (closePayload code p).length :: closePayload code p ∧
      ∀ key maxMessage chunks, 125 ≤ maxMessage → chunks.flatten = masked key bytes →
        (((WsRx.new maxMessage).pushAll chunks).1 = [.close code.toNat p] ↔
          validCloseCode code.toNat = true) := by
  obtain ⟨p, hlongest, hlength, hframe⟩ := closeFrame_eq code reason
  have hbytes := frame_short opClose hlength
  refine ⟨p, _, hframe, hlongest, hlength, hbytes, fun key maxMessage chunks hmax hchunks => ?_⟩
  rw [masked_frame (by decide) key hlength] at hchunks
  rw [pushAll_close hmax ⟨closePayload code p, hlength⟩ key hchunks, closeEvent_closePayload]
  cases validCloseCode code.toNat with
  | true => exact ⟨fun _ => rfl, fun _ => rfl⟩
  | false => simp

/-- Two bytes each, 124 in all: the last character is cut whole. -/
def accents : String := String.ofList (List.replicate 62 'é')

theorem close_frame_acceptable_accents :
    ∃ p bytes, closeFrame 1000 accents = some bytes ∧ LongestPrefix 123 accents p ∧
      ((WsRx.new 125).pushAll [masked ⟨[1, 2, 3, 4], rfl⟩ bytes]).1 = [.close 1000 p] := by
  obtain ⟨p, bytes, hframe, hlongest, -, -, hreceived⟩ := close_frame_acceptable 1000 accents
  have hclose := hreceived ⟨[1, 2, 3, 4], rfl⟩ 125 [masked ⟨[1, 2, 3, 4], rfl⟩ bytes] (Nat.le_refl _)
    (List.flatten_singleton)
  exact ⟨p, bytes, hframe, hlongest, hclose.mpr (by decide)⟩

example : truncateOnCharBoundary accents 123 = some (String.ofList (List.replicate 61 'é')) := by
  decide +kernel

/-! ## 4. What a receiver has to answer -/

/-- A ping is short, a close has a code that may be sent or the one for none, and a failure one of three. -/
def WsEvent.Answerable : WsEvent → Prop
  | .ping payload => payload.length ≤ 125
  | .close code _ => validCloseCode code = true ∨ code = 1005
  | .fail code _ => code = 1002 ∨ code = 1007 ∨ code = 1009
  | _ => True

theorem finishMessage_answerable {opcode : UInt8} {payload : Bytes} {ev : WsEvent}
    (h : WsRx.finishMessage opcode payload = .event ev) : ev.Answerable := by
  unfold WsRx.finishMessage at h
  split at h
  · split at h
    · injection h with h
      subst h
      trivial
    · injection h with h
      subst h
      exact .inr (.inl rfl)
  · injection h with h
    subst h
    trivial

theorem closeEvent_answerable (payload : Bytes) : (WsRx.closeEvent payload).Answerable := by
  unfold WsRx.closeEvent
  dsimp only
  split
  · exact .inl rfl
  split
  · split
    · exact .inl rfl
    · rename_i hvalid
      split
      · exact .inl (by simpa using hvalid)
      · exact .inr (.inl rfl)
  · exact .inr rfl

theorem dispatch_answerable {rx : WsRx} {opcode : UInt8} {fin : Bool} {payload : Bytes} {ev : WsEvent}
    (hcontrol : opcode ≥ opClose → payload.length ≤ 125)
    (h : (rx.dispatch opcode fin payload).1 = .event ev) : ev.Answerable := by
  have hfail : ∀ {why : String}, ParseOne.event (.fail 1002 why) = .event ev → ev.Answerable := by
    intro why heq
    injection heq with heq
    subst heq
    exact .inl rfl
  unfold WsRx.dispatch at h
  split at h
  · rename_i hop
    injection h with h
    subst h
    exact hcontrol (by rw [hop]; decide)
  split at h
  · injection h with h
    subst h
    trivial
  split at h
  · injection h with h
    subst h
    exact closeEvent_answerable payload
  split at h
  · split at h
    · exact hfail h
    split at h
    · exact finishMessage_answerable h
    · cases h
  split at h
  · split at h
    · exact hfail h
    split at h
    · injection h with h
      subst h
      exact .inr (.inr rfl)
    dsimp only at h
    split at h
    · exact finishMessage_answerable h
    · cases h
  · exact hfail h

theorem readFrame_fail {maxMessage code : Nat} {b : Bytes} {why : String}
    (h : readFrame maxMessage b = .fail code why) : code = 1002 ∨ code = 1009 := by
  unfold readFrame at h
  split at h
  · cases h
  dsimp only at h
  split at h
  · injection h with hcode
    exact .inl hcode.symm
  split at h
  · injection h with hcode
    exact .inl hcode.symm
  split at h
  · cases h
  · injection h with hcode
    exact .inl hcode.symm
  split at h
  · injection h with hcode
    exact .inl hcode.symm
  split at h
  · injection h with hcode
    exact .inr hcode.symm
  split at h
  · cases h
  split at h <;> cases h

theorem parseOne_answerable {rx rx' : WsRx} {b : Bytes} {ev : WsEvent}
    (h : rx.parseOne b = (.event ev, rx')) : ev.Answerable := by
  have h := congrArg Prod.fst h
  unfold WsRx.parseOne at h
  rcases readFrame_cases rx.maxMessage b with ⟨hread, -⟩ | ⟨code, why, hread⟩ |
    ⟨opcode, fin, payload, n, hread, -, -, -, hcontrol⟩
  · rw [hread] at h
    cases h
  · rw [hread] at h
    injection h with h
    subst h
    exact (readFrame_fail hread).imp_right .inr
  · rw [hread] at h
    exact dispatch_answerable (fun hop => (hcontrol hop).1) h

theorem scan_answerable (rx : WsRx) (b : Bytes) : ∀ ev ∈ (frames.scan rx b).events, ev.Answerable := by
  refine (frames.scan_invariant (I := fun _ => True) (E := WsEvent.Answerable) ?_ ?_ rx b trivial).2
  · intro s b n s' evs _ h
    obtain ⟨-, ⟨-, rfl⟩ | ⟨ev, hp, -, rfl⟩⟩ := step_took h
    · exact ⟨trivial, by simp⟩
    · exact ⟨trivial, by simpa using parseOne_answerable hp⟩
  · intro s b s' evs _ h
    obtain ⟨ev, hp, -, rfl⟩ := step_stop h
    exact ⟨trivial, by simpa using parseOne_answerable hp⟩

theorem push_answerable (rx : WsRx) (data : Bytes) : ∀ ev ∈ (rx.push data).1, ev.Answerable := by
  by_cases hopen : rx.ended = true
  · rw [WsRx.push, if_pos hopen]
    intro ev hev
    cases hev
  · rw [push_eq_scan rx data (by simpa using hopen)]
    exact scan_answerable _ _

end Cadeloop.Core.Ws
