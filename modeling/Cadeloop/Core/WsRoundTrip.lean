import Cadeloop.Core.WsStream

/-!
# WebSocket decode undoes encode

What a well-behaved client may send — messages cut into fragments, control frames between them,
one close at the end — and the frames and events it stands for.  Encoding the frames with the
length rule of `frame` and any mask keys, and pushing the bytes, gives exactly the events.
-/

namespace Cadeloop.Core.Ws

open Cadeloop.Reasoning

/-! ## 1. What a client sends -/

/-- `isize::MAX`, the longest a slice can be. -/
def isizeMax : Nat := 2 ^ 63 - 1

abbrev Slice := { b : Bytes // b.length ≤ isizeMax }

/-- The payload of a control frame: 125 bytes at most (RFC 6455 section 5.5). -/
abbrev ControlPayload := { b : Bytes // b.length ≤ 125 }

abbrev MaskKey := { k : Bytes // k.length = 4 }

structure ClientFrame where
  opcode : UInt8
  fin : Bool
  payload : Bytes

/-- Encode one client frame: MASK bit, key, and the payload XORed with the key. -/
def clientFrame (f : ClientFrame) (key : MaskKey) : Bytes :=
  ((if f.fin then 0x80 else 0x00) ||| f.opcode) :: lengthField 0x80 f.payload.length ++
    (key.val ++ xorKey key.val f.payload)

def encode (masked : List (ClientFrame × MaskKey)) : Bytes :=
  masked.flatMap fun m => clientFrame m.1 m.2

inductive Control where
  | ping (payload : ControlPayload)
  | pong (payload : ControlPayload)

def Control.frame : Control → ClientFrame
  | .ping p => ⟨opPing, true, p.val⟩
  | .pong p => ⟨opPong, true, p.val⟩

def Control.event : Control → WsEvent
  | .ping p => .ping p.val
  | .pong _ => .pong

inductive Content where
  | text (s : String)
  | binary (payload : Bytes)

namespace Content

def opcode : Content → UInt8
  | .text _ => opText
  | .binary _ => opBinary

def bytes : Content → Bytes
  | .text s => asBytes s
  | .binary payload => payload

def event : Content → WsEvent
  | .text s => .text s
  | .binary payload => .binary payload

end Content

/-- A message cut into fragments, with the control frames sent before each later fragment.  The
cuts of a text message may fall inside a character. -/
structure Message where
  content : Content
  first : Slice
  rest : List (List Control × Slice)
  joined : first.val ++ (rest.map fun r => r.2.val).flatten = content.bytes

-- the continuation frames, FIN on the last one only
def continuations : List (List Control × Slice) → List ClientFrame
  | [] => []
  | (controls, p) :: rest =>
    controls.map Control.frame ++ ⟨opCont, rest.isEmpty, p.val⟩ :: continuations rest

def Message.frames (m : Message) : List ClientFrame :=
  ⟨m.content.opcode, m.rest.isEmpty, m.first.val⟩ :: continuations m.rest

-- control frames are answered at once, the message when its last fragment is there
def Message.events (m : Message) : List WsEvent :=
  (m.rest.flatMap Prod.fst).map Control.event ++ [m.content.event]

inductive Item where
  | message (m : Message)
  | control (c : Control)

def Item.frames : Item → List ClientFrame
  | .message m => m.frames
  | .control c => [c.frame]

def Item.events : Item → List WsEvent
  | .message m => m.events
  | .control c => [c.event]

/-- A closing handshake: empty, or a valid code and a reason that leaves the payload within 125
bytes. -/
inductive Closing where
  | empty
  | coded (code : Nat) (reason : String) (valid : validCloseCode code = true)
      (short : (asBytes reason).length ≤ 123)

def Closing.payload : Closing → Bytes
  | .empty => []
  | .coded code reason _ _ => beBytes 2 code ++ asBytes reason

def Closing.frame (c : Closing) : ClientFrame := ⟨opClose, true, c.payload⟩

def Closing.event : Closing → WsEvent
  | .empty => .close 1005 ""
  | .coded code reason _ _ => .close code reason

def sessionFrames (items : List Item) (closing : Option Closing) : List ClientFrame :=
  items.flatMap Item.frames ++ (closing.map Closing.frame).toList

def sessionEvents (items : List Item) (closing : Option Closing) : List WsEvent :=
  items.flatMap Item.events ++ (closing.map Closing.event).toList

/-! ## 2. One frame back -/

theorem maskedLength_low : ∀ n : Fin 126, ((0x80 ||| UInt8.ofNat n) &&& 0x7F).toNat = n ∧
    (0x80 ||| UInt8.ofNat n) &&& 0x80 ≠ 0 := by
  decide +kernel

theorem topBit_clear : ∀ n : Fin 128, UInt8.ofNat n &&& 0x80 = 0 := by
  decide +kernel

/-- The encoder's length field is the decoder's, on both sides of every boundary. -/
theorem readLength_lengthField (b0 : UInt8) (n : Nat) (tail : Bytes) (hn : n ≤ isizeMax) :
    readLength (b0 :: lengthField 0x80 n ++ tail) = .len n (1 + (lengthField 0x80 n).length) ∧
      (b0 :: lengthField 0x80 n ++ tail).getD 1 0 &&& 0x80 ≠ 0 := by
  unfold lengthField
  by_cases h126 : n < 126
  · rw [if_pos h126]
    have hlow := maskedLength_low ⟨n, h126⟩
    refine ⟨?_, hlow.2⟩
    have hval : ((b0 :: [0x80 ||| UInt8.ofNat n] ++ tail).getD 1 0 &&& 0x7F).toNat = n := hlow.1
    simp only [readLength]
    rw [hval, if_neg (by omega), if_neg (by omega)]
    rfl
  rw [if_neg h126]
  by_cases h16 : n ≤ 0xFFFF
  · rw [if_pos h16]
    refine ⟨?_, show (0x80 ||| 126 : UInt8) &&& 0x80 ≠ 0 by decide⟩
    have hval : ((b0 :: (0x80 ||| 126) :: beBytes 2 n ++ tail).getD 1 0 &&& 0x7F).toNat = 126 :=
      show ((0x80 ||| 126 : UInt8) &&& 0x7F).toNat = 126 by decide
    have hslice : slice (b0 :: (0x80 ||| 126) :: beBytes 2 n ++ tail) 2 2 = beBytes 2 n := by
      simp [slice, beBytes]
    have hlen : ¬ (b0 :: (0x80 ||| 126) :: beBytes 2 n ++ tail).length < 2 + 2 := by
      simp [beBytes]
    have hbe : beNat (beBytes 2 n) = n := beNat_beBytes (by omega)
    simp only [readLength]
    rw [if_pos hval, if_neg hlen, hslice, hbe, if_neg h126]
    simp
  · rw [if_neg h16]
    refine ⟨?_, show (0x80 ||| 127 : UInt8) &&& 0x80 ≠ 0 by decide⟩
    have hval : ((b0 :: (0x80 ||| 127) :: beBytes 8 n ++ tail).getD 1 0 &&& 0x7F).toNat = 127 :=
      show ((0x80 ||| 127 : UInt8) &&& 0x7F).toNat = 127 by decide
    have hslice : slice (b0 :: (0x80 ||| 127) :: beBytes 8 n ++ tail) 2 8 = beBytes 8 n := by
      simp [slice, beBytes]
    have hlen : ¬ (b0 :: (0x80 ||| 127) :: beBytes 8 n ++ tail).length < 2 + 8 := by
      simp [beBytes]
    have hbe : beNat (beBytes 8 n) = n := beNat_beBytes (by unfold isizeMax at hn; omega)
    have htop : (b0 :: (0x80 ||| 127) :: beBytes 8 n ++ tail).getD 2 0 &&& 0x80 = 0 := by
      have hdiv : n / 256 ^ 7 < 128 := by
        unfold isizeMax at hn
        omega
      exact topBit_clear ⟨n / 256 ^ 7, hdiv⟩
    simp only [readLength]
    rw [if_neg (by rw [hval]; decide), if_pos hval, if_neg hlen, hslice, hbe, if_neg h16,
      if_neg (not_not.mpr htop)]
    simp

/-- The frames a client may send: a known opcode, and control frames short and whole. -/
structure ClientFrame.Sendable (f : ClientFrame) (maxMessage : Nat) : Prop where
  opcode : f.opcode ∈ [opCont, opText, opBinary, opClose, opPing, opPong]
  fits : f.payload.length ≤ maxMessage
  slice : f.payload.length ≤ isizeMax
  control : f.opcode ≥ opClose → f.payload.length ≤ 125 ∧ f.fin = true

theorem firstByte {opcode : UInt8} (h : opcode ∈ [opCont, opText, opBinary, opClose, opPing, opPong])
    (fin : Bool) :
    ((if fin then 0x80 else 0x00) ||| opcode) &&& 0x70 = 0 ∧
      ((if fin then 0x80 else 0x00) ||| opcode) &&& 0x0F = opcode ∧
      ((((if fin then 0x80 else 0x00) ||| opcode) &&& 0x80) != 0) = fin := by
  simp only [List.mem_cons, List.not_mem_nil, or_false] at h
  rcases h with rfl | rfl | rfl | rfl | rfl | rfl <;> cases fin <;> decide

theorem readFrame_clientFrame {f : ClientFrame} {maxMessage : Nat} (h : f.Sendable maxMessage)
    (key : MaskKey) :
    readFrame maxMessage (clientFrame f key) =
      .frame f.opcode f.fin f.payload (clientFrame f key).length := by
  obtain ⟨hrsv, hop, hfin⟩ := firstByte h.opcode f.fin
  obtain ⟨hlen, hmask⟩ := readLength_lengthField ((if f.fin then 0x80 else 0x00) ||| f.opcode)
    f.payload.length (key.val ++ xorKey key.val f.payload) h.slice
  have hkey := key.property
  generalize hb0 : ((if f.fin then 0x80 else 0x00) ||| f.opcode) = b0 at hrsv hop hfin hlen hmask
  generalize hfield : lengthField 0x80 f.payload.length = field at hlen hmask
  have hb : clientFrame f key = b0 :: field ++ (key.val ++ xorKey key.val f.payload) := by
    rw [clientFrame, hb0, hfield]
  have htotal : (clientFrame f key).length = 1 + field.length + (4 + f.payload.length) := by
    rw [hb]
    simp only [List.cons_append, List.length_cons, List.length_append, xorKey_length, hkey]
    omega
  have hfirst : (clientFrame f key).getD 0 0 = b0 := by rw [hb]; rfl
  have hhead : (b0 :: field).length = 1 + field.length := by rw [List.length_cons]; omega
  have hkeySlice : slice (clientFrame f key) (1 + field.length) 4 = key.val := by
    have hshift := slice_append_right (key.val ++ xorKey key.val f.payload) hhead 0 4
    rw [hb]
    exact hshift.trans (slice_zero_append _ hkey)
  have hpaySlice : slice (clientFrame f key) (1 + field.length + 4) f.payload.length =
      xorKey key.val f.payload := by
    have hshift := slice_append_right (key.val ++ xorKey key.val f.payload) hhead 4
      f.payload.length
    have hskip := slice_append_right (xorKey key.val f.payload) hkey 0 f.payload.length
    have hexact := slice_zero_append [] (xorKey_length key.val f.payload)
    rw [List.append_nil] at hexact
    rw [hb]
    exact hshift.trans (hskip.trans hexact)
  rw [← hb] at hlen hmask
  unfold readFrame
  rw [if_neg (by omega), hfirst]
  simp only [hrsv, hop, hfin, hlen, ne_eq, not_true_eq_false, if_false, if_neg hmask]
  rw [if_neg, if_neg (by have := h.fits; omega), if_neg (by omega), if_neg (by omega),
    hkeySlice, hpaySlice, xorKey_xorKey, htotal]
  · congr 1
    omega
  · rintro ⟨hge, hbad⟩
    have hctl := h.control hge
    rcases hbad with hbad | hbad
    · omega
    · rw [hctl.2] at hbad
      cases hbad

/-! ## 3. What a receiver reads -/

def ParseOne.events : ParseOne → List WsEvent
  | .event ev => [ev]
  | _ => []

/-- Answers that let the stream go on. -/
def ParseOne.GoesOn (r : ParseOne) : Prop :=
  r = .continue ∨ ∃ ev, r = .event ev ∧ ev.last = false

theorem reads_clientFrame {f : ClientFrame} {rx rx' : WsRx} {r : ParseOne} {key : MaskKey}
    (hf : f.Sendable rx.maxMessage) (hr : r.GoesOn)
    (hd : WsRx.dispatch { rx with consumed := (clientFrame f key).length } f.opcode f.fin
      f.payload = (r, rx')) :
    frames.Reads rx (clientFrame f key) r.events rx' := by
  have hone : rx.parseOne (clientFrame f key) = (r, rx') := by
    rw [WsRx.parseOne, readFrame_clientFrame hf key]
    exact hd
  have hconsumed : rx'.consumed = (clientFrame f key).length := by
    have hc := WsRx.dispatch_consumed { rx with consumed := (clientFrame f key).length } f.opcode
      f.fin f.payload
    rw [hd] at hc
    exact hc
  apply frames.of_took
  show step rx (clientFrame f key) = _
  rw [step, hone, ← hconsumed]
  rcases hr with rfl | ⟨ev, rfl, hl⟩
  · rfl
  · exact if_neg (by rw [hl]; decide)

-- The part of the receiver that carries a message between frames.
abbrev Assembly := Option UInt8 × Bytes

/-- Under any keys, the frames take the receiver from one assembly to another, with these events. -/
def Takes (maxMessage : Nat) (s : Assembly) (fs : List ClientFrame) (evs : List WsEvent)
    (s' : Assembly) : Prop :=
  ∀ (rx : WsRx) (masked : List (ClientFrame × MaskKey)), rx.maxMessage = maxMessage →
    (rx.fragOp, rx.frag) = s → masked.map Prod.fst = fs →
    ∃ rx', rx'.maxMessage = maxMessage ∧ (rx'.fragOp, rx'.frag) = s' ∧
      frames.Reads rx (encode masked) evs rx'

section Takes

variable {maxMessage : Nat} {s s' s'' : Assembly} {fs gs : List ClientFrame}
  {evs evs' : List WsEvent}

theorem Takes.nil : Takes maxMessage s [] [] s := by
  intro rx masked hmax hs hfs
  rw [List.map_eq_nil_iff] at hfs
  subst hfs
  exact ⟨rx, hmax, hs, frames.reads_nil rx⟩

theorem Takes.append (h : Takes maxMessage s fs evs s') (h' : Takes maxMessage s' gs evs' s'') :
    Takes maxMessage s (fs ++ gs) (evs ++ evs') s'' := by
  intro rx masked hmax hs hfs
  obtain ⟨m₁, m₂, rfl, h₁, h₂⟩ := List.map_eq_append_iff.mp hfs
  obtain ⟨rx₁, hmax₁, hs₁, hread₁⟩ := h rx m₁ hmax hs h₁
  obtain ⟨rx₂, hmax₂, hs₂, hread₂⟩ := h' rx₁ m₂ hmax₁ hs₁ h₂
  refine ⟨rx₂, hmax₂, hs₂, ?_⟩
  rw [encode, List.flatMap_append]
  exact hread₁.append frames hread₂

/-- One frame, by what the dispatch does with it. -/
theorem Takes.one {f : ClientFrame} {r : ParseOne} (hf : f.Sendable maxMessage) (hr : r.GoesOn)
    (hd : ∀ rx : WsRx, rx.maxMessage = maxMessage → (rx.fragOp, rx.frag) = s →
      (rx.dispatch f.opcode f.fin f.payload).1 = r ∧
        ((rx.dispatch f.opcode f.fin f.payload).2.fragOp,
          (rx.dispatch f.opcode f.fin f.payload).2.frag) = s') :
    Takes maxMessage s [f] r.events s' := by
  intro rx masked hmax hs hfs
  obtain ⟨m, rest, rfl, rfl, hrest⟩ := List.map_eq_cons_iff.mp hfs
  rw [List.map_eq_nil_iff] at hrest
  subst hrest
  rw [← hmax] at hf
  generalize hrx : ({ rx with consumed := (clientFrame m.1 m.2).length } : WsRx) = rx₀
  have h₀ : rx₀.maxMessage = maxMessage ∧ (rx₀.fragOp, rx₀.frag) = s := by
    rw [← hrx]
    exact ⟨hmax, hs⟩
  obtain ⟨hans, hs'⟩ := hd rx₀ h₀.1 h₀.2
  have hframe := rx₀.dispatch_frame m.1.opcode m.1.fin m.1.payload
  refine ⟨(rx₀.dispatch m.1.opcode m.1.fin m.1.payload).2, hframe.2.2.trans h₀.1, hs', ?_⟩
  rw [encode, List.flatMap_singleton]
  apply reads_clientFrame hf hr
  rw [hrx, ← hans]

end Takes

/-! ## 4. Messages, control frames, sessions -/

theorem sendable_control {maxMessage : Nat} (hmax : 125 ≤ maxMessage) {opcode : UInt8}
    (hop : opcode = opClose ∨ opcode = opPing ∨ opcode = opPong) (p : ControlPayload) :
    ClientFrame.Sendable ⟨opcode, true, p.val⟩ maxMessage := by
  have hp := p.property
  have hmem : opcode ∈ [opCont, opText, opBinary, opClose, opPing, opPong] := by
    rcases hop with rfl | rfl | rfl <;> decide
  have hslice : p.val.length ≤ isizeMax := by unfold isizeMax; omega
  exact ⟨hmem, Nat.le_trans hp hmax, hslice, fun _ => ⟨hp, rfl⟩⟩

theorem takes_control {maxMessage : Nat} (hmax : 125 ≤ maxMessage) (s : Assembly) (c : Control) :
    Takes maxMessage s [c.frame] [c.event] s := by
  cases c with
  | ping p =>
    have hf := sendable_control hmax (.inr (.inl rfl)) p
    exact Takes.one (r := .event (.ping p.val)) hf (.inr ⟨_, rfl, rfl⟩) fun rx _ hs => ⟨rfl, hs⟩
  | pong p =>
    have hf := sendable_control hmax (.inr (.inr rfl)) p
    exact Takes.one (r := .event .pong) hf (.inr ⟨_, rfl, rfl⟩) fun rx _ hs => ⟨rfl, hs⟩

theorem takes_controls {maxMessage : Nat} (hmax : 125 ≤ maxMessage) (s : Assembly)
    (cs : List Control) : Takes maxMessage s (cs.map Control.frame) (cs.map Control.event) s := by
  induction cs with
  | nil => exact Takes.nil
  | cons c cs ih => exact (takes_control hmax s c).append ih

-- UTF-8 is judged on the joined message
theorem finishMessage_content (c : Content) :
    WsRx.finishMessage c.opcode c.bytes = .event c.event := by
  cases c with
  | text t =>
    simp only [Content.opcode, Content.bytes, Content.event]
    rw [WsRx.finishMessage, if_pos rfl, fromUtf8_asBytes]
  | binary payload => rfl

theorem Content.event_last (c : Content) : c.event.last = false := by
  cases c <;> rfl

theorem Content.opcode_cases (c : Content) : c.opcode = opText ∨ c.opcode = opBinary := by
  cases c with
  | text t => exact .inl rfl
  | binary payload => exact .inr rfl

theorem sendable_fragment {maxMessage : Nat} {opcode : UInt8} (fin : Bool) (p : Slice)
    (hop : opcode = opCont ∨ opcode = opText ∨ opcode = opBinary)
    (hlen : p.val.length ≤ maxMessage) :
    ClientFrame.Sendable ⟨opcode, fin, p.val⟩ maxMessage := by
  refine ⟨?_, hlen, p.property, fun hge => ?_⟩
  · show opcode ∈ _
    rcases hop with rfl | rfl | rfl <;> decide
  · have hge : opcode ≥ opClose := hge
    rcases hop with rfl | rfl | rfl <;> exact absurd hge (by decide)

theorem dispatch_continuation {rx : WsRx} {op : UInt8} {fin : Bool} {payload : Bytes}
    (hop : rx.fragOp = some op) (hfit : ¬ rx.frag.length + payload.length > rx.maxMessage) :
    rx.dispatch opCont fin payload =
      if fin then (WsRx.finishMessage op (rx.frag ++ payload), { rx with fragOp := none, frag := [] })
      else (.continue, { rx with frag := rx.frag ++ payload }) := by
  unfold WsRx.dispatch
  rw [if_neg (by decide), if_neg (by decide), if_neg (by decide), if_neg (by decide), if_pos rfl]
  split
  · rename_i hnone
    rw [hop] at hnone
    cases hnone
  · rename_i op' hsome
    rw [hop] at hsome
    injection hsome with hsome
    rw [if_neg hfit, hsome]

/-- The later fragments complete what has been assembled so far. -/
theorem takes_continuations {maxMessage : Nat} (hmax : 125 ≤ maxMessage) (c : Content)
    (rest : List (List Control × Slice)) (hne : rest ≠ []) (frag : Bytes)
    (hjoin : frag ++ (rest.map fun r => r.2.val).flatten = c.bytes)
    (hlen : c.bytes.length ≤ maxMessage) :
    Takes maxMessage (some c.opcode, frag) (continuations rest)
      ((rest.flatMap Prod.fst).map Control.event ++ [c.event]) (none, []) := by
  induction rest generalizing frag with
  | nil => exact absurd rfl hne
  | cons r rest ih =>
    obtain ⟨controls, p⟩ := r
    rw [List.map_cons, List.flatten_cons, ← List.append_assoc] at hjoin
    have htotal : frag.length + p.val.length ≤ maxMessage := by
      have := congrArg List.length hjoin
      simp only [List.length_append] at this
      omega
    have hsend (fin : Bool) : ClientFrame.Sendable ⟨opCont, fin, p.val⟩ maxMessage :=
      sendable_fragment fin p (.inl rfl) (by omega)
    have hcontrols := takes_controls hmax (some c.opcode, frag) controls
    have hfits (rx : WsRx) (hrx : rx.maxMessage = maxMessage) (hs : rx.frag = frag) :
        ¬ rx.frag.length + p.val.length > rx.maxMessage := by
      rw [hrx, hs]
      omega
    -- the frame with FIN is the last one: it hands the joined message over
    by_cases hlast : rest = []
    · subst hlast
      have hwhole : frag ++ p.val = c.bytes := by simpa using hjoin
      have hfin : Takes maxMessage (some c.opcode, frag) [⟨opCont, true, p.val⟩] [c.event]
          (none, []) := by
        refine Takes.one (r := .event c.event) (hsend true) (.inr ⟨_, rfl, c.event_last⟩) ?_
        intro rx hrx hs
        injection hs with hop hfrag
        have hd : rx.dispatch opCont true p.val =
            (.event c.event, { rx with fragOp := none, frag := [] }) := by
          rw [dispatch_continuation hop (hfits rx hrx hfrag), if_pos rfl, hfrag, hwhole,
            finishMessage_content]
        rw [hd]
        exact ⟨rfl, rfl⟩
      have hall := hcontrols.append hfin
      simpa [continuations] using hall
    · have hmore : Takes maxMessage (some c.opcode, frag) [⟨opCont, false, p.val⟩] []
          (some c.opcode, frag ++ p.val) := by
        refine Takes.one (r := .continue) (hsend false) (.inl rfl) ?_
        intro rx hrx hs
        injection hs with hop hfrag
        have hd : rx.dispatch opCont false p.val =
            (.continue, { rx with frag := rx.frag ++ p.val }) := by
          rw [dispatch_continuation hop (hfits rx hrx hfrag), if_neg (by decide)]
        rw [hd]
        exact ⟨rfl, by rw [hop, hfrag]⟩
      have hempty : rest.isEmpty = false := by simpa using hlast
      have hall := hcontrols.append (hmore.append (ih hlast (frag ++ p.val) hjoin))
      simpa [continuations, hempty] using hall

theorem takes_message {maxMessage : Nat} (hmax : 125 ≤ maxMessage) (m : Message)
    (hlen : m.content.bytes.length ≤ maxMessage) :
    Takes maxMessage (none, []) m.frames m.events (none, []) := by
  obtain ⟨c, first, rest, hjoin⟩ := m
  have hfirst : first.val.length ≤ maxMessage := by
    have := congrArg List.length hjoin
    simp only [List.length_append] at this hlen
    omega
  have hsend (fin : Bool) : ClientFrame.Sendable ⟨c.opcode, fin, first.val⟩ maxMessage :=
    sendable_fragment fin first (.inr c.opcode_cases) hfirst
  have hskip : c.opcode ≠ opPing ∧ c.opcode ≠ opPong ∧ c.opcode ≠ opClose := by
    rcases c.opcode_cases with h | h <;> rw [h] <;> decide
  by_cases hrest : rest = []
  · subst hrest
    have hwhole : first.val = c.bytes := by simpa using hjoin
    have hfin : Takes maxMessage (none, []) [⟨c.opcode, true, first.val⟩] [c.event]
        (none, []) := by
      refine Takes.one (r := .event c.event) (hsend true) (.inr ⟨_, rfl, c.event_last⟩) ?_
      intro rx hrx hs
      injection hs with hop hfrag
      have hd : rx.dispatch c.opcode true first.val = (.event c.event, rx) := by
        unfold WsRx.dispatch
        rw [if_neg hskip.1, if_neg hskip.2.1, if_neg hskip.2.2, if_pos c.opcode_cases, hop,
          if_neg (by decide), if_pos rfl, hwhole, finishMessage_content]
      rw [hd]
      exact ⟨rfl, by rw [hop, hfrag]⟩
    exact hfin
  · have hempty : rest.isEmpty = false := by simpa using hrest
    have hhead : Takes maxMessage (none, []) [⟨c.opcode, false, first.val⟩] []
        (some c.opcode, first.val) := by
      refine Takes.one (r := .continue) (hsend false) (.inl rfl) ?_
      intro rx hrx hs
      injection hs with hop hfrag
      have hd : rx.dispatch c.opcode false first.val =
          (.continue, { rx with fragOp := some c.opcode, frag := first.val }) := by
        unfold WsRx.dispatch
        rw [if_neg hskip.1, if_neg hskip.2.1, if_neg hskip.2.2, if_pos c.opcode_cases, hop,
          if_neg (by decide), if_neg (by decide)]
      rw [hd]
      exact ⟨rfl, rfl⟩
    have hall := hhead.append (takes_continuations hmax c rest hrest first.val hjoin hlen)
    simpa [Message.frames, Message.events, hempty] using hall

theorem takes_items {maxMessage : Nat} (hmax : 125 ≤ maxMessage) (items : List Item)
    (hfit : ∀ m, .message m ∈ items → m.content.bytes.length ≤ maxMessage) :
    Takes maxMessage (none, []) (items.flatMap Item.frames) (items.flatMap Item.events)
      (none, []) := by
  induction items with
  | nil => exact Takes.nil
  | cons item items ih =>
    have hrest := ih fun m hm => hfit m (List.mem_cons_of_mem _ hm)
    rw [List.flatMap_cons, List.flatMap_cons]
    refine Takes.append ?_ hrest
    cases item with
    | message m => exact takes_message hmax m (hfit m List.mem_cons_self)
    | control c => exact takes_control hmax (none, []) c

theorem closeEvent_payload (c : Closing) : WsRx.closeEvent c.payload = c.event := by
  cases c with
  | empty => rfl
  | coded code reason valid short =>
    have hcode : code < 256 ^ 2 := by
      simp only [validCloseCode, Bool.and_eq_true, Bool.or_eq_true, decide_eq_true_eq] at valid
      omega
    have hlen : (beBytes 2 code ++ asBytes reason).length = 2 + (asBytes reason).length := by
      rw [List.length_append, beBytes_length]
    have hslice : slice (beBytes 2 code ++ asBytes reason) 0 2 = beBytes 2 code :=
      slice_zero_append _ (beBytes_length 2 code)
    have hdrop : (beBytes 2 code ++ asBytes reason).drop 2 = asBytes reason := rfl
    rw [Closing.payload, WsRx.closeEvent, if_neg (by omega), if_pos (by omega)]
    simp only [hslice, beNat_beBytes hcode, valid, hdrop, fromUtf8_asBytes]
    rfl

theorem closeEvent_last (payload : Bytes) : (WsRx.closeEvent payload).last = true := by
  unfold WsRx.closeEvent
  dsimp only
  repeat' split
  all_goals rfl

/-- A close frame ends the stream, whatever is in it. -/
theorem step_close (rx : WsRx) (hmax : 125 ≤ rx.maxMessage) (p : ControlPayload) (key : MaskKey) :
    ∃ rx', step rx (clientFrame ⟨opClose, true, p.val⟩ key) = .stop rx' [WsRx.closeEvent p.val] := by
  refine ⟨{ rx with consumed := (clientFrame ⟨opClose, true, p.val⟩ key).length }, ?_⟩
  have hone : rx.parseOne (clientFrame ⟨opClose, true, p.val⟩ key) =
      (.event (WsRx.closeEvent p.val),
        { rx with consumed := (clientFrame ⟨opClose, true, p.val⟩ key).length }) := by
    rw [WsRx.parseOne, readFrame_clientFrame (sendable_control hmax (.inl rfl) p) key]
    rfl
  rw [step, hone]
  exact if_pos (closeEvent_last p.val)

theorem Closing.payload_length (c : Closing) : c.payload.length ≤ 125 := by
  cases c with
  | empty => exact Nat.zero_le _
  | coded code reason valid short =>
    rw [Closing.payload, List.length_append, beBytes_length]
    omega

theorem step_closing (rx : WsRx) (hmax : 125 ≤ rx.maxMessage) (c : Closing) (key : MaskKey) :
    ∃ rx', step rx (clientFrame c.frame key) = .stop rx' [c.event] := by
  rw [← closeEvent_payload]
  exact step_close rx hmax ⟨c.payload, c.payload_length⟩ key

/-- **Decoding undoes encoding over the whole format.**  Whatever the keys, a session of messages
that fit, cut and interleaved in any way, comes out as its events and leaves nothing buffered. -/
theorem push_encode_session (maxMessage : Nat) (items : List Item) (closing : Option Closing)
    (masked : List (ClientFrame × MaskKey)) (hmax : 125 ≤ maxMessage)
    (hfit : ∀ m, .message m ∈ items → m.content.bytes.length ≤ maxMessage)
    (hmasked : masked.map Prod.fst = sessionFrames items closing) :
    ((WsRx.new maxMessage).push (encode masked)).1 = sessionEvents items closing ∧
      ((WsRx.new maxMessage).push (encode masked)).2.buf = [] := by
  obtain ⟨m₁, m₂, rfl, h₁, h₂⟩ := List.map_eq_append_iff.mp hmasked
  obtain ⟨rx, hrx, -, hread⟩ := takes_items hmax items hfit (WsRx.new maxMessage) m₁ rfl rfl h₁
  have hpush := push_eq_scan (WsRx.new maxMessage) (encode (m₁ ++ m₂)) rfl
  have hnew : ({ WsRx.new maxMessage with buf := [] } : WsRx) = WsRx.new maxMessage := rfl
  rw [hnew, show (WsRx.new maxMessage).buf = [] from rfl, List.nil_append, encode,
    List.flatMap_append] at hpush
  rw [encode, List.flatMap_append, hpush, sessionEvents]
  cases closing with
  | none =>
    have hnil : m₂ = [] := List.map_eq_nil_iff.mp h₂
    subst hnil
    have hscan := hread.scan_eq frames
    rw [encode] at hscan
    rw [List.flatMap_nil, List.append_nil, hscan]
    exact ⟨(List.append_nil _).symm, rfl⟩
  | some c =>
    obtain ⟨m, rest, rfl, hm, hrest⟩ := List.map_eq_cons_iff.mp h₂
    rw [List.map_eq_nil_iff] at hrest
    subst hrest
    obtain ⟨rx', hstop⟩ := step_closing rx (by omega) c m.2
    rw [← hm] at hstop
    have hscan := hread.scan_stop frames hstop
    rw [encode] at hscan
    rw [List.flatMap_singleton]
    rw [show clientFrame m.1 m.2 = (fun m : ClientFrame × MaskKey => clientFrame m.1 m.2) m from rfl]
      at hscan
    rw [hscan]
    exact ⟨rfl, rfl⟩

/-- A text message cut inside its second character, a ping between the halves. -/
def splitMessage : Message where
  content := .text "hé"
  first := ⟨[0x68, 0xC3], by decide⟩
  rest := [([.ping ⟨[7], by decide⟩], ⟨[0xA9], by decide⟩)]
  joined := by decide

def splitClosing : Closing := .coded 1000 "bye" (by decide) (by decide)

theorem push_encode_session_split :
    125 ≤ 125 ∧ (∀ m, Item.message m ∈ [Item.message splitMessage] → m.content.bytes.length ≤ 125) ∧
      sessionEvents [.message splitMessage] (some splitClosing) =
        [.ping [7], .text "hé", .close 1000 "bye"] ∧
      ((WsRx.new 125).push (encode ((sessionFrames [.message splitMessage] (some splitClosing)).map
        fun f => (f, ⟨[1, 2, 3, 4], rfl⟩)))).1 =
        sessionEvents [.message splitMessage] (some splitClosing) ∧
      ((WsRx.new 125).push (encode ((sessionFrames [.message splitMessage] (some splitClosing)).map
        fun f => (f, ⟨[1, 2, 3, 4], rfl⟩)))).2.buf = [] := by
  have hfit : ∀ m, Item.message m ∈ [Item.message splitMessage] →
      m.content.bytes.length ≤ 125 := by
    intro m hm
    rw [List.mem_singleton] at hm
    injection hm with hm
    subst hm
    decide
  exact ⟨Nat.le_refl _, hfit, rfl,
    push_encode_session 125 [.message splitMessage] (some splitClosing) _ (Nat.le_refl _) hfit rfl⟩

end Cadeloop.Core.Ws
