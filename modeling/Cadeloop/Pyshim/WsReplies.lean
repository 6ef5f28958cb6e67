import Cadeloop.Core.WsClose
import Cadeloop.Pyshim.WsConn

/-!
# What a WebSocket's connection answers with

Pongs, the echo of a close, and a close for what cannot be parsed.  A strict peer takes each of them.
-/

namespace Cadeloop.Pyshim.Http

open Core.Ws Cadeloop.Reasoning
open Utf8 (LongestPrefix ofList_cons prefix_ofList_cons utf8ByteSize_ofList_cons)

/-! ## 1. Close frames -/

/-- Character by character or from the bytes, truncation comes to the same prefix. -/
theorem truncateOnCharBoundary_longest (max : Nat) (cs : List Char) :
    LongestPrefix max (String.ofList cs) (String.ofList (truncateOnCharBoundary max cs)) := by
  induction cs generalizing max with
  | nil => exact LongestPrefix.whole (Nat.zero_le max)
  | cons c cs ih =>
    rw [truncateOnCharBoundary]
    split
    · rename_i hfits
      obtain ⟨⟨rest, hrest⟩, htail, hlongest⟩ := ih (max - c.utf8Size)
      refine ⟨⟨rest, ?_⟩, ?_, ?_⟩
      · rw [ofList_cons, ofList_cons c cs, String.append_assoc, hrest]
      · rw [utf8ByteSize_ofList_cons]
        omega
      · intro q rest' hq hle
        rw [utf8ByteSize_ofList_cons]
        rcases prefix_ofList_cons hq with hempty | ⟨q', hq', hsize⟩
        · omega
        · have hmore := hlongest q' rest' hq' (by omega)
          omega
    · rename_i hover
      refine ⟨⟨String.ofList (c :: cs), String.empty_append⟩, Nat.zero_le max, ?_⟩
      intro q rest' hq hle
      rcases prefix_ofList_cons hq with hempty | ⟨q', -, hsize⟩
      · exact hempty.le
      · omega

/-- The close frames sent are the codec's, which never fails. -/
theorem closeFrame_codec (code : UInt16) (reason : String) :
    Core.Ws.closeFrame code reason = some (closeFrame code.toNat reason) := by
  obtain ⟨p, htruncated, hlongest⟩ := Core.Ws.truncateOnCharBoundary_longest reason 123
  have hsame := truncateOnCharBoundary_longest 123 reason.toList
  rw [String.ofList_toList] at hsame
  rw [Core.Ws.closeFrame, htruncated, Option.map_some, hlongest.unique hsame]
  rfl

/-! ## 2. What a peer makes of an answer -/

/-- Masked, it is a pong or a close to any receiver, and no failure. -/
def Acceptable (bytes : Bytes) : Prop :=
  ∀ key maxMessage, 125 ≤ maxMessage →
    ((WsRx.new maxMessage).push (masked key bytes)).1 = [.pong] ∨
      ∃ code reason, ((WsRx.new maxMessage).push (masked key bytes)).1 = [.close code reason]

theorem pong_acceptable {payload : Bytes} (h : payload.length ≤ 125) : Acceptable (frame opPong payload) := by
  intro key maxMessage hmax
  left
  obtain ⟨rx, -, -, hread⟩ := takes_control hmax (none, []) (.pong ⟨payload, h⟩) (WsRx.new maxMessage)
    [((Control.pong ⟨payload, h⟩).frame, key)] rfl rfl rfl
  have hscan := hread.scan_eq frames
  have hpush := push_eq_scan (WsRx.new maxMessage) (masked key (frame opPong payload)) rfl
  have hnew : ({ WsRx.new maxMessage with buf := [] } : WsRx) = WsRx.new maxMessage := rfl
  have hmasked : masked key (frame opPong payload) = encode [((Control.pong ⟨payload, h⟩).frame, key)] := by
    rw [masked_frame (by decide) key h, encode, List.flatMap_singleton]
    rfl
  rw [hnew, show (WsRx.new maxMessage).buf = [] from rfl, List.nil_append, hmasked, hscan] at hpush
  rw [hmasked, hpush]
  rfl

theorem close_acceptable {payload : Bytes} (h : payload.length ≤ 125) {code : Nat} {reason : String}
    (hevent : WsRx.closeEvent payload = .close code reason) : Acceptable (frame opClose payload) := by
  intro key maxMessage hmax
  right
  have hmasked : [masked key (frame opClose payload)].flatten = clientFrame ⟨opClose, true, payload⟩ key := by
    rw [List.flatten_singleton]
    exact masked_frame (by decide) key h
  have hclose := pushAll_close hmax ⟨payload, h⟩ key hmasked
  rw [pushAll_eq_push, List.flatten_singleton, hevent] at hclose
  exact ⟨code, reason, hclose⟩

theorem closeFrame_acceptable {code : Nat} (h : validCloseCode code = true) (reason : String) :
    Acceptable (closeFrame code reason) := by
  have hcode : code < 2 ^ 16 := by
    simp only [validCloseCode, Bool.and_eq_true, Bool.or_eq_true, decide_eq_true_eq] at h
    omega
  obtain ⟨p, -, hlength, hframe⟩ := closeFrame_eq (UInt16.ofNat code) reason
  have hnat : (UInt16.ofNat code).toNat = code := UInt16.toNat_ofNat_of_lt' hcode
  have hevent := closeEvent_closePayload (UInt16.ofNat code) p
  rw [closeFrame_codec, hnat] at hframe
  rw [hnat, h, if_pos rfl] at hevent
  rw [Option.some.inj hframe]
  exact close_acceptable hlength hevent

/-- A strict peer takes everything a connection answers with. -/
theorem replies_acceptable {evs : List WsEvent} (h : ∀ ev ∈ evs, ev.Answerable) (closing : Bool) :
    ∀ bytes ∈ replies closing evs, Acceptable bytes := by
  induction evs generalizing closing with
  | nil => exact fun bytes hbytes => absurd hbytes List.not_mem_nil
  | cons ev evs ih =>
    have hev : ev.Answerable := h ev List.mem_cons_self
    have hrest := fun closing => ih (fun ev hev => h ev (List.mem_cons_of_mem _ hev)) closing
    intro bytes hbytes
    cases ev with
    | text s => exact hrest closing bytes hbytes
    | binary payload => exact hrest closing bytes hbytes
    | pong => exact hrest closing bytes hbytes
    | ping payload =>
      rcases List.mem_cons.mp hbytes with rfl | hbytes
      · exact pong_acceptable hev
      · exact hrest closing bytes hbytes
    | close code reason =>
      rcases List.mem_append.mp hbytes with hecho | hbytes
      · cases closing with
        | true => cases hecho
        | false =>
          obtain rfl := List.mem_singleton.mp hecho
          split
          · exact close_acceptable (Nat.zero_le _) rfl
          · rename_i hcoded
            exact closeFrame_acceptable (hev.resolve_right hcoded) ""
      · exact hrest true bytes hbytes
    | fail code why =>
      rcases List.mem_append.mp hbytes with hown | hbytes
      · cases closing with
        | true => cases hown
        | false =>
          obtain rfl := List.mem_singleton.mp hown
          rcases hev with rfl | rfl | rfl
          · exact closeFrame_acceptable (by decide) why
          · exact closeFrame_acceptable (by decide) why
          · exact closeFrame_acceptable (by decide) why
      · exact hrest true bytes hbytes

/-- Whatever its peer sent. -/
theorem push_replies_acceptable (rx : WsRx) (data : Bytes) (closing : Bool) :
    ∀ bytes ∈ replies closing (rx.push data).1, Acceptable bytes :=
  replies_acceptable (push_answerable rx data) closing

end Cadeloop.Pyshim.Http
