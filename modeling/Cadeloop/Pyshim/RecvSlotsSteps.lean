import Cadeloop.Pyshim.RecvSlotsHeld

/-!
# The receive slots, call by call

Every call into the network layer keeps the books and the wiring.  A call that ends a receive is
handed the receive's reference, and hands it back.
-/

namespace Cadeloop.Pyshim.RecvSlots

open Cadeloop.Core.Buffers
open Cadeloop.Reasoning (Table)
open Cadeloop.Reasoning.Table (tally tally_pos tally_eq_zero unique_of_tally lookup_insert_some
  lookup_insert_ite erase_none)

/-! ## 1. What a call may rely on -/

structure Held (own lent : List SlotId) (net : Net) : Prop where
  books : Books own lent net
  wired : Wired net

/-- The backend's operations are new, and no class that has a slot for every index is asked for
one more. -/
structure Ready (a : Answers) (net : Net) : Prop where
  room : ∀ c, (net.buffers.classes c).Room
  recv : ∀ op, a.recv = some op → net.posted.lookup op = none
  send : ∀ op, a.send = some op → net.posted.lookup op = none
  sends : ∀ op, some op ∈ a.sends → net.posted.lookup op = none

variable {own lent : List SlotId} {net net' : Net} {a : Answers} {tid did : Nat}

theorem Ready.of_same (h : Ready a net) (hbuffers : net'.buffers = net.buffers)
    (hposted : net'.posted = net.posted) : Ready a net' := by
  obtain ⟨pagesOut, buffers, transports, datagrams, ops, reapGuards, events, nextId, nowNs, posted,
    parsing, delivering⟩ := net'
  dsimp only at hbuffers hposted
  subst hbuffers hposted
  exact ⟨h.room, h.recv, h.send, h.sends⟩

theorem Ready.release (h : Ready a net) (slot : SlotId) : Ready a (net.release a slot) := by
  refine ⟨fun c => ?_, h.recv, h.send, h.sends⟩
  show (Function.update net.buffers.classes slot.sizeClass _ c).Room
  by_cases hc : c = slot.sizeClass
  · rw [hc, Function.update_self]
    exact (h.room _).release _ _ _
  · rw [Function.update_of_ne hc]
    exact h.room c

namespace Held

theorem release {slot : SlotId} (h : Held (slot :: own) lent net) (a : Answers) :
    Held own lent (net.release a slot) :=
  ⟨h.books.release a, h.wired.of_same rfl rfl rfl rfl rfl rfl⟩

theorem releaseLent {slot : SlotId} (h : Held own (slot :: lent) net) (a : Answers) :
    Held own lent (net.release a slot) :=
  ⟨h.books.releaseLent a, h.wired.of_same rfl rfl rfl rfl rfl rfl⟩

theorem dropSlot {slot : Option SlotId} (h : Held (slot.toList ++ own) lent net) (a : Answers) :
    Held own lent (net.dropSlot a slot) := by
  cases slot with
  | none => exact h
  | some slot => exact h.release a

/-- A transport's slot has a reference. -/
theorem count_pos (h : Held own lent net) {entry : TransportEntry} {slot : SlotId}
    (hlook : net.transports.lookup tid = some entry) (hslot : entry.recvSlot = some slot) :
    0 < net.buffers.count slot := by
  have hholds : 0 < tally (TransportEntry.holds slot) net.transports :=
    tally_pos.mpr ⟨tid, entry, hlook, decide_eq_true hslot⟩
  rw [h.books.exact, Net.owners]
  omega

/-- No other transport has its slot. -/
theorem only (h : Held own lent net) {entry : TransportEntry} {slot : SlotId}
    (hlook : net.transports.lookup tid = some entry) (hslot : entry.recvSlot = some slot) {t : Nat}
    {e : TransportEntry} (hlook' : net.transports.lookup t = some e)
    (hslot' : e.recvSlot = some slot) : t = tid := by
  have hsingle := h.books.single slot
  rw [Net.owners] at hsingle
  exact unique_of_tally (p := TransportEntry.holds slot) (by omega) hlook' hlook
    (decide_eq_true hslot') (decide_eq_true hslot)

/-- Into the slot of a transport that reads, but has no receive posted, none is. -/
theorem unread (h : Held own lent net) {entry : TransportEntry} {slot : SlotId}
    (hlook : net.transports.lookup tid = some entry) (hslot : entry.recvSlot = some slot)
    (hnone : entry.recvOp = none) (hreads : entry.discards = false) :
    tally (OpTarget.holds slot) net.ops = 0 := by
  refine tally_eq_zero fun op target hmap => ?_
  cases target with
  | recv t slot' =>
    refine decide_eq_false ?_
    rintro rfl
    obtain rfl := h.wired.lender op t slot' tid entry hmap hlook hslot
    have hsome := h.wired.sole op t slot' entry hmap hlook hreads
    rw [hnone] at hsome
    cases hsome
  | send t => rfl
  | dgramRecv d => rfl
  | dgramSend d => rfl
  | other => rfl

/-! ## 2. Transports -/

theorem retire (h : Held own lent net) (a : Answers) (tid : Nat) :
    Held own lent (retire a tid net) := by
  unfold RecvSlots.retire
  cases hlook : net.transports.lookup tid with
  | none => exact h
  | some entry =>
    refine Held.dropSlot ?_ a
    have herased : Held (entry.recvSlot.toList ++ own) lent
        { net with transports := net.transports.erase tid } :=
      ⟨h.books.eraseTransport hlook, h.wired.eraseTransport tid⟩
    unfold cancelTransportOps
    cases hop : entry.sendOp with
    | none => exact herased
    | some op =>
      dsimp only
      split
      · exact herased
      · have hmap := h.wired.sendOp tid entry op hlook hop
        refine ⟨herased.books.guardWrites fun slot hguard => ?_, herased.wired.guardWrites hmap⟩
        obtain ⟨-, d, hmap', -⟩ := h.wired.guard op slot hguard
        rw [hmap] at hmap'
        cases hmap'

/-- An entry written over that keeps its slot and its operations. -/
theorem touch (h : Held own lent net) {entry entry' : TransportEntry}
    (hlook : net.transports.lookup tid = some entry) (hslot : entry'.recvSlot = entry.recvSlot)
    (hop : entry'.recvOp = entry.recvOp ∨ (entry'.recvOp = none ∧ entry'.discards = true))
    (hsend : entry'.sendOp = entry.sendOp)
    (hdiscards : entry.discards = true → entry'.discards = true)
    (hlingers : entry'.lingering = true → entry'.closing = true) :
    Held own lent (net.setTransport tid entry') :=
  ⟨h.books.setTransport_keep hlook hslot,
    h.wired.touch hlook (.inl hslot) hop hsend hdiscards hlingers⟩

/-- What has no part in receiving written over. -/
theorem amend (h : Held own lent net) {entry entry' : TransportEntry}
    (hlook : net.transports.lookup tid = some entry) (hslot : entry'.recvSlot = entry.recvSlot)
    (hop : entry'.recvOp = entry.recvOp) (hsend : entry'.sendOp = entry.sendOp)
    (hclosing : entry'.closing = entry.closing) (hlingering : entry'.lingering = entry.lingering) :
    Held own lent (net.setTransport tid entry') := by
  refine h.touch hlook hslot (.inl hop) hsend (fun hd => ?_) ?_
  · rwa [TransportEntry.discards, hclosing, hlingering]
  · rw [hclosing, hlingering]
    exact h.wired.lingers tid entry hlook

/-- The slot of an entry with no receive posted, taken from it. -/
theorem take (h : Held own lent net) {entry entry' : TransportEntry} {slot : SlotId}
    (hlook : net.transports.lookup tid = some entry) (hslot : entry.recvSlot = some slot)
    (hnone : entry.recvOp = none) (hslot' : entry'.recvSlot = none) (hnone' : entry'.recvOp = none)
    (hsend : entry'.sendOp = entry.sendOp) (hclosing : entry'.closing = entry.closing)
    (hlingering : entry'.lingering = entry.lingering) :
    Held (slot :: own) lent (net.setTransport tid entry') := by
  refine ⟨h.books.setTransport_take hlook hslot hslot', ?_⟩
  refine h.wired.touch hlook (.inr ⟨hslot', hnone'⟩) (.inl (by rw [hnone, hnone'])) hsend
    (fun hd => ?_) ?_
  · rwa [TransportEntry.discards, hclosing, hlingering]
  · rw [hclosing, hlingering]
    exact h.wired.lingers tid entry hlook

theorem declines_false {entry : TransportEntry} (h : entry.declines = false) :
    entry.recvOp = none ∧ entry.discards = false := by
  unfold TransportEntry.declines at h
  rw [Bool.or_eq_false_iff, Bool.or_eq_false_iff, Bool.or_eq_false_iff] at h
  exact ⟨Option.not_isSome_iff_eq_none.mp (by rw [h.1.1.1]; decide), h.1.2⟩

/-- The slot to read into is the entry's by now. -/
theorem recvSlotOf (h : Held own lent net) (hready : Ready a net) {entry : TransportEntry}
    (hlook : net.transports.lookup tid = some entry) (hnone : entry.recvOp = none) :
    ∃ slot net', recvSlotOf a tid entry net = some (slot, net') ∧ Held own lent net' ∧
      net'.transports.lookup tid = some { entry with recvSlot := some slot } ∧
      net'.posted = net.posted ∧ net'.parsing = net.parsing := by
  unfold RecvSlots.recvSlotOf
  cases hslot : entry.recvSlot with
  | some slot =>
    refine ⟨slot, net, rfl, h, ?_, rfl, rfl⟩
    rw [hlook, ← hslot]
  | none =>
    obtain ⟨slot, buffers, hacquire, hzero, hbooks⟩ :=
      h.books.acquire (hready.room entry.recvClass) a.region
    dsimp only
    rw [hacquire]
    have hunmapped : ∀ op t, net.ops.lookup op ≠ some (.recv t slot) := by
      intro op t hmap
      have hholds : 0 < tally (OpTarget.holds slot) net.ops :=
        tally_pos.mpr ⟨op, _, hmap, decide_eq_true rfl⟩
      have hexact := h.books.exact slot
      rw [hzero, Net.loans] at hexact
      omega
    refine ⟨slot, _, rfl, ⟨hbooks.setTransport_put hlook hslot rfl, ?_⟩, AList.lookup_insert _, rfl,
      rfl⟩
    have hwired : Wired { net with buffers } := h.wired.of_same rfl rfl rfl rfl rfl rfl
    refine hwired.setTransport (h.wired.transportId tid entry hlook) (fun op hop => ?_)
      (fun op slot' hmap hreads => ?_) (fun op t slot' hmap hslot' => ?_)
      (h.wired.lingers tid entry hlook) fun op hop => ?_
    · rw [show entry.recvOp = some op from hop] at hnone
      cases hnone
    · exact h.wired.sole op tid slot' entry hmap hlook hreads
    · injection hslot' with hslot'
      exact absurd (hslot' ▸ hmap) (hunmapped op t)
    · exact h.wired.sendOp tid entry op hlook hop

theorem postRecv (h : Held own lent net) (hlent : lent.length ≤ 1) (hready : Ready a net)
    (tid : Nat) : Held own lent (postRecv a tid net) := by
  unfold RecvSlots.postRecv
  cases hlook : net.transports.lookup tid with
  | none => exact h
  | some entry =>
    dsimp only
    split
    · exact h
    rename_i hdeclines
    obtain ⟨hnone, hreads⟩ := declines_false (Bool.eq_false_iff.mpr hdeclines)
    obtain ⟨slot, net', htaken, hheld, hlook', hposted, -⟩ := h.recvSlotOf hready hlook hnone
    rw [htaken]
    dsimp only
    have hslot : ({ entry with recvSlot := some slot } : TransportEntry).recvSlot = some slot := rfl
    cases hrecv : a.recv with
    | some op =>
      have hfresh : net'.posted.lookup op = none := by
        rw [hposted]
        exact hready.recv op hrecv
      have hretained := hheld.books.retain hlent (hheld.count_pos hlook' hslot)
      refine ⟨?_, ?_⟩
      · have hset : Books own (slot :: lent) ((net'.retain slot).setTransport tid
            { entry with recvSlot := some slot, recvOp := some op }) :=
          hretained.setTransport_keep hlook' rfl
        exact hset.postRecv (hheld.wired.fresh hfresh) (hheld.unread hlook' hslot hnone hreads) tid
          slot
      · have hwired : Wired (net'.retain slot) := hheld.wired.of_same rfl rfl rfl rfl rfl rfl
        exact hwired.postRecv hfresh hlook' hslot hnone hreads
          fun t e hlook'' hslot'' => hheld.only hlook' hslot hlook'' hslot''
    | none =>
      cases entry.proto with
      | py dataReceived => exact hheld
      | http conn => exact hheld.retire a tid

theorem maybeFinishShutdown (h : Held own lent net) (hlent : lent.length ≤ 1)
    (hready : Ready a net) (tid : Nat) : Held own lent (maybeFinishShutdown a tid net) := by
  unfold RecvSlots.maybeFinishShutdown
  cases hlook : net.transports.lookup tid with
  | none => exact h
  | some entry =>
    dsimp only
    split
    · exact h
    split
    · split
      · have hset : Held own lent (net.setTransport tid
            { entry with lingerUntilNs := max (min (net.nowNs + lingerNs) (2 ^ 64 - 1)) 1 }) :=
          h.amend hlook rfl rfl rfl rfl rfl
        exact hset.postRecv hlent (hready.of_same rfl rfl) tid
      · exact h
    · exact h.retire a tid

theorem flushPending (h : Held own lent net) (hlent : lent.length ≤ 1) (hready : Ready a net)
    (tid : Nat) : Held own lent (flushPending a tid net) := by
  unfold RecvSlots.flushPending
  cases hlook : net.transports.lookup tid with
  | none => exact h
  | some entry =>
    dsimp only
    split
    · exact h
    split
    · exact h.maybeFinishShutdown hlent hready tid
    cases hsend : a.send with
    | none => exact h.retire a tid
    | some op =>
      have hfresh := hready.send op hsend
      have hset : Books own lent (net.setTransport tid { entry with sendOp := some op }) :=
        h.books.setTransport_keep hlook rfl
      exact ⟨hset.post (h.wired.fresh hfresh) (fun _ => rfl) none, h.wired.postSend hfresh hlook⟩

theorem sendCorked (h : Held own lent net) (hlent : lent.length ≤ 1) (hready : Ready a net)
    (tid : Nat) : Held own lent (sendCorked a tid net) := by
  unfold RecvSlots.sendCorked
  split
  · exact h
  split
  · exact h
  · exact h.flushPending hlent hready tid

theorem httpCloseAfterWrite (h : Held own lent net) (hlent : lent.length ≤ 1)
    (hready : Ready a net) (tid : Nat) : Held own lent (httpCloseAfterWrite a tid net) := by
  unfold RecvSlots.httpCloseAfterWrite
  cases hlook : net.transports.lookup tid with
  | none => exact h
  | some entry =>
    dsimp only
    split
    · exact h.amend hlook rfl rfl rfl rfl rfl
    cases hclosing : entry.closing with
    | true => exact h
    | false =>
      -- open so far, it discarded nothing and did not linger
      have hopen : entry.discards = true → ∀ entry' : TransportEntry, entry'.discards = true := by
        rw [TransportEntry.discards, hclosing]
        exact fun hd => by cases hd
      have hlinger : entry.lingering = false := by
        cases hl : entry.lingering with
        | false => rfl
        | true => rw [h.wired.lingers tid entry hlook hl] at hclosing; cases hclosing
      rw [if_neg (by decide)]
      split
      · have hset : Held own lent (net.setTransport tid
            { entry with closing := true, lingering := true }) :=
          h.touch hlook rfl (.inl rfl) rfl (fun hd => hopen hd _) fun _ => rfl
        exact hset.maybeFinishShutdown hlent (hready.of_same rfl rfl) tid
      · have hset : Held own lent (net.setTransport tid
            { entry with closing := true, recvOp := none }) := by
          refine h.touch hlook rfl (.inr ⟨rfl, ?_⟩) rfl (fun hd => hopen hd _) fun _ => rfl
          rw [TransportEntry.discards, hlinger]
          rfl
        exact hset.maybeFinishShutdown hlent (hready.of_same rfl rfl) tid

theorem close (h : Held own lent net) (hlent : lent.length ≤ 1) (hready : Ready a net) (tid : Nat) :
    Held own lent (close a tid net) := by
  unfold RecvSlots.close
  cases hlook : net.transports.lookup tid with
  | none => exact h
  | some entry =>
    dsimp only
    cases hclosing : entry.closing with
    | true => exact h
    | false =>
      rw [if_neg (by decide)]
      have hlinger : entry.lingering = false := by
        cases hl : entry.lingering with
        | false => rfl
        | true => rw [h.wired.lingers tid entry hlook hl] at hclosing; cases hclosing
      have hset : Held own lent (net.setTransport tid
          { entry with closing := true, recvOp := none }) := by
        refine h.touch hlook rfl (.inr ⟨rfl, ?_⟩) rfl (fun hd => ?_) fun _ => rfl
        · rw [TransportEntry.discards, hlinger]
          rfl
        · rw [TransportEntry.discards, hclosing] at hd
          cases hd
      exact hset.sendCorked hlent (hready.of_same rfl rfl) tid

theorem forceClose (h : Held own lent net) (hlent : lent.length ≤ 1) (hready : Ready a net)
    (tid : Nat) : Held own lent (forceClose a tid net) :=
  (h.sendCorked hlent hready tid).retire a tid

theorem pauseReading (h : Held own lent net) (tid : Nat) :
    Held own lent (pauseReading tid net) := by
  unfold RecvSlots.pauseReading
  cases hlook : net.transports.lookup tid with
  | none => exact h
  | some entry =>
    dsimp only
    split
    · exact h
    · exact h.amend hlook rfl rfl rfl rfl rfl

theorem resumeReading (h : Held own lent net) (hlent : lent.length ≤ 1) (hready : Ready a net)
    (tid : Nat) : Held own lent (resumeReading a tid net) := by
  unfold RecvSlots.resumeReading
  cases hlook : net.transports.lookup tid with
  | none => exact h
  | some entry =>
    dsimp only
    split
    · exact h
    have hset : Held own lent (net.setTransport tid
        { entry with readingPaused := false, pausedEof := false }) :=
      h.amend hlook rfl rfl rfl rfl rfl
    split
    · exact hset
    · exact hset.postRecv hlent (hready.of_same rfl rfl) tid

theorem sizeNext (h : Held own lent net) (hready : Ready a net) (tid : Nat) (slot : SlotId)
    (bytes : Nat) : Held own lent (sizeNext a tid slot bytes net) ∧
      Ready a (RecvSlots.sizeNext a tid slot bytes net) := by
  unfold RecvSlots.sizeNext
  cases hlook : net.transports.lookup tid with
  | none => exact ⟨h, hready⟩
  | some entry =>
    dsimp only
    split
    · rename_i hother
      obtain ⟨-, hslot, hnone⟩ := hother
      refine ⟨Held.release ?_ a, Ready.release ?_ slot⟩
      · exact h.take hlook hslot hnone rfl hnone rfl rfl rfl
      · exact hready.of_same rfl rfl
    · exact ⟨h.amend hlook rfl rfl rfl rfl rfl, hready.of_same rfl rfl⟩

theorem sizeAndRepost (h : Held own lent net) (hlent : lent.length ≤ 1) (hready : Ready a net)
    (tid : Nat) (slot : SlotId) (bytes : Nat) (pipelinePause : Bool) :
    Held own lent (sizeAndRepost a tid slot bytes pipelinePause net) := by
  obtain ⟨hsized, hready'⟩ := h.sizeNext hready tid slot bytes
  unfold RecvSlots.sizeAndRepost
  split
  · exact hsized
  · exact hsized.postRecv hlent hready' tid

theorem recvEof (h : Held own lent net) (a : Answers) {entry : TransportEntry}
    (hlook : net.transports.lookup tid = some entry) :
    Held own lent (recvEof a tid entry net) := by
  unfold RecvSlots.recvEof
  split
  · split
    · exact h.amend hlook rfl rfl rfl rfl rfl
    · exact h
  · rename_i conn _
    have hset : Held own lent (net.setTransport tid
        { entry with proto := .http { conn with disconnected := true } }) :=
      h.amend hlook rfl rfl rfl rfl rfl
    dsimp only
    split
    · exact hset.retire a tid
    · exact hset

end Held

/-! ### The call under way is no other -/

theorem release_parsing (net : Net) (a : Answers) (slot : SlotId) :
    (net.release a slot).parsing = net.parsing := rfl

theorem retire_parsing (net : Net) (a : Answers) (tid : Nat) :
    (retire a tid net).parsing = net.parsing := by
  unfold retire cancelTransportOps Net.dropSlot
  repeat' split
  all_goals rfl

theorem postRecv_parsing (net : Net) (a : Answers) (tid : Nat) :
    (postRecv a tid net).parsing = net.parsing := by
  unfold postRecv recvSlotOf
  split
  · rfl
  split
  · rfl
  split
  · rfl
  rename_i slot net' htaken
  have hsame : net'.parsing = net.parsing := by
    split at htaken
    · injection htaken with htaken
      injection htaken with _ htaken
      rw [← htaken]
    · split at htaken
      · cases htaken
      · injection htaken with htaken
        injection htaken with _ htaken
        rw [← htaken]
        rfl
  split
  · exact hsame
  · exact hsame
  · rw [← hsame]
    exact retire_parsing net' a tid

theorem maybeFinishShutdown_parsing (net : Net) (a : Answers) (tid : Nat) :
    (maybeFinishShutdown a tid net).parsing = net.parsing := by
  unfold maybeFinishShutdown
  split
  · rfl
  split
  · rfl
  split
  · split
    · rw [postRecv_parsing]
      rfl
    · rfl
  · exact retire_parsing net a tid

theorem flushPending_parsing (net : Net) (a : Answers) (tid : Nat) :
    (flushPending a tid net).parsing = net.parsing := by
  unfold flushPending
  split
  · rfl
  split
  · rfl
  split
  · exact maybeFinishShutdown_parsing net a tid
  split
  · rfl
  · exact retire_parsing net a tid

theorem sizeNext_parsing (net : Net) (a : Answers) (tid : Nat) (slot : SlotId) (bytes : Nat) :
    (sizeNext a tid slot bytes net).parsing = net.parsing := by
  unfold sizeNext
  split
  · rfl
  · dsimp only
    split <;> rfl

theorem sizeAndRepost_parsing (net : Net) (a : Answers) (tid : Nat) (slot : SlotId) (bytes : Nat)
    (pipelinePause : Bool) :
    (sizeAndRepost a tid slot bytes pipelinePause net).parsing = net.parsing := by
  unfold sizeAndRepost
  split
  · exact sizeNext_parsing net a tid slot bytes
  · rw [postRecv_parsing, sizeNext_parsing]

theorem recvEof_parsing (net : Net) (a : Answers) (tid : Nat) (entry : TransportEntry) :
    (recvEof a tid entry net).parsing = net.parsing := by
  unfold recvEof
  split
  · split <;> rfl
  · dsimp only
    split
    · exact retire_parsing _ a tid
    · rfl

/-! ## 3. Completions of receives and sends -/

/-- A receive's completion is through: its reference is the call's, or the engine's. -/
def Done (own : List SlotId) (slot : SlotId) (net : Net) : Prop :=
  Held own (if net.parsing.isSome then [] else [slot]) net

theorem Done.of_idle {slot : SlotId} (h : Held own [slot] net) (hidle : net.parsing = none) :
    Done own slot net := by
  rw [Done, hidle]
  exact h

namespace Held

/-- Bytes for an open transport: of its two references to the slot one is the completion's. -/
theorem recvData {slot : SlotId} (h : Held own [slot] net) (hready : Ready a net)
    (hidle : net.parsing = none) {entry : TransportEntry}
    (hlook : net.transports.lookup tid = some entry) (hslot : entry.recvSlot = some slot)
    (hnone : entry.recvOp = none) (bytes : Nat) :
    Done own slot (recvData a tid entry slot bytes net) := by
  have htaken : Held (slot :: own) [slot] (net.setTransport tid { entry with recvSlot := none }) :=
    h.take hlook hslot hnone rfl hnone rfl rfl rfl
  unfold RecvSlots.recvData
  split
  · exact ⟨h.books.parse (p := ⟨tid, slot, bytes⟩) hidle, h.wired.of_same rfl rfl rfl rfl rfl rfl⟩
  split
  · exact Done.of_idle (htaken.release a) hidle
  split
  · refine Done.of_idle (h.sizeAndRepost (Nat.le_refl 1) hready tid slot bytes false) ?_
    rw [sizeAndRepost_parsing, hidle]
  · have hqueued : Held own [slot] { net.setTransport tid { entry with recvSlot := none } with
        events := net.events ++ [⟨tid, slot⟩] } :=
      ⟨Books.pushEvent htaken.books, htaken.wired.of_same rfl rfl rfl rfl rfl rfl⟩
    refine Done.of_idle (hqueued.sizeAndRepost (Nat.le_refl 1) (hready.of_same rfl rfl) tid slot
      bytes false) ?_
    rw [sizeAndRepost_parsing]
    exact hidle

/-- What is left of a transport's receive once it is reported. -/
theorem recvRouted {slot : SlotId} (h : Held own [slot] net) (hready : Ready a net)
    (hidle : net.parsing = none) {entry : TransportEntry}
    (hlook : net.transports.lookup tid = some entry)
    (hreads : entry.discards = false → entry.recvSlot = some slot ∧ entry.recvOp = none)
    (c : Completion) : Done own slot (recvRouted a tid slot c entry net) := by
  have hlent : [slot].length ≤ 1 := Nat.le_refl 1
  have hretired : Done own slot (RecvSlots.retire a tid net) :=
    Done.of_idle (h.retire a tid) ((retire_parsing net a tid).trans hidle)
  unfold RecvSlots.recvRouted
  cases hlinger : entry.lingering with
  | true =>
    have hclosing := h.wired.lingers tid entry hlook hlinger
    have hnone : entry.recvOp = none := by
      refine (hreads ?_).2
      rw [TransportEntry.discards, hclosing, hlinger]
      rfl
    rw [if_pos rfl]
    split
    · exact hretired
    split
    · have hset : Held own [slot] (net.setTransport tid { entry with lingering := false }) := by
        refine h.touch hlook rfl (.inl rfl) rfl (fun _ => ?_) fun hl => by cases hl
        rw [TransportEntry.discards, hclosing]
        rfl
      refine Done.of_idle (hset.maybeFinishShutdown hlent (hready.of_same rfl rfl) tid) ?_
      rw [maybeFinishShutdown_parsing]
      exact hidle
    · refine Done.of_idle (h.postRecv hlent hready tid) ?_
      rw [postRecv_parsing, hidle]
  | false =>
    rw [if_neg (by decide)]
    cases hclosing : entry.closing with
    | true => exact Done.of_idle h hidle
    | false =>
      have hopen : entry.discards = false := by rw [TransportEntry.discards, hclosing]; rfl
      obtain ⟨hslot, hnone⟩ := hreads hopen
      rw [if_neg (by decide)]
      split
      · exact hretired
      split
      · refine Done.of_idle (h.recvEof a hlook) ?_
        rw [recvEof_parsing, hidle]
      · exact h.recvData hready hidle hlook hslot hnone c.bytes

theorem sendRouted (h : Held own [] net) (hready : Ready a net) {entry : TransportEntry}
    (hlook : net.transports.lookup tid = some entry) (c : Completion) :
    Held own [] (sendRouted a tid c entry net) := by
  have hlent : ([] : List SlotId).length ≤ 1 := Nat.zero_le 1
  unfold RecvSlots.sendRouted
  split
  · exact h.retire a tid
  have hset : Held own [] (net.setTransport tid { entry with wq := entry.wq - c.popped }) :=
    h.amend hlook rfl rfl rfl rfl rfl
  dsimp only
  split
  · exact hset.flushPending hlent (hready.of_same rfl rfl) tid
  split
  · exact hset
  · exact hset.maybeFinishShutdown hlent (hready.of_same rfl rfl) tid

end Held

/-! ## 4. Datagram endpoints -/

namespace Held

theorem retireDgram (h : Held own lent net) (a : Answers) (did : Nat) :
    Held own lent (retireDgram a did net) := by
  unfold RecvSlots.retireDgram
  cases hlook : net.datagrams.lookup did with
  | none => exact h
  | some entry =>
    have hbooks := h.books.eraseDatagram hlook
    dsimp only
    refine Held.dropSlot ?_ a
    unfold cancelDgramOps
    split
    · rename_i op slot hop hslot
      obtain ⟨_, -, hmap, -⟩ := h.wired.dgramOp did entry op hlook hop
      rw [hslot] at hbooks
      refine ⟨hbooks.guardSlot fun slot' hguard => ?_, h.wired.guardDatagram hlook hop hslot⟩
      obtain ⟨-, d, hmap', hgone⟩ := h.wired.guard op slot' hguard
      rw [hmap] at hmap'
      injection hmap' with hmap'
      injection hmap' with hmap'
      rw [← hmap', hlook] at hgone
      cases hgone
    · rename_i hneither
      refine ⟨hbooks, h.wired.eraseDatagram hlook ?_⟩
      cases hop : entry.recvOp with
      | none => rfl
      | some op =>
        obtain ⟨slot, hslot, -⟩ := h.wired.dgramOp did entry op hlook hop
        exact absurd hslot (hneither op slot hop)

/-- An endpoint written over that keeps its slot and its receive. -/
theorem touchDgram (h : Held own lent net) {entry entry' : DatagramEntry}
    (hlook : net.datagrams.lookup did = some entry) (hslot : entry'.recvSlot = entry.recvSlot)
    (hop : entry'.recvOp = entry.recvOp) : Held own lent (net.setDatagram did entry') :=
  ⟨h.books.setDatagram_keep hlook hslot, h.wired.touchDatagram hlook hop (.inl hslot)⟩

/-- The slot to receive into, in the call's hands: taken from the entry, or new. -/
theorem dgramSlotOf (h : Held own lent net) (hready : Ready a net) {entry : DatagramEntry}
    (hlook : net.datagrams.lookup did = some entry) (hnone : entry.recvOp = none) :
    ∃ slot net', dgramSlotOf a entry net = some (slot, net') ∧
      Held (slot :: own) lent (net'.setDatagram did { entry with recvSlot := none }) ∧ Wired net' ∧
      net'.datagrams = net.datagrams ∧ net'.posted = net.posted := by
  unfold RecvSlots.dgramSlotOf
  cases hslot : entry.recvSlot with
  | some slot =>
    refine ⟨slot, net, rfl, ⟨h.books.setDatagram_take hlook hslot rfl, ?_⟩, h.wired, rfl, rfl⟩
    exact h.wired.touchDatagram hlook rfl (.inr hnone)
  | none =>
    obtain ⟨slot, buffers, hacquire, -, hbooks⟩ := h.books.acquire (hready.room .s64k) a.region
    dsimp only
    rw [hacquire]
    have hwired : Wired { net with buffers } := h.wired.of_same rfl rfl rfl rfl rfl rfl
    exact ⟨slot, _, rfl, ⟨hbooks.setDatagram_keep hlook hslot.symm,
      hwired.touchDatagram hlook rfl (.inr hnone)⟩, hwired, rfl, rfl⟩

theorem dgramPostRecv (h : Held own lent net) (hready : Ready a net) (did : Nat) :
    Held own lent (dgramPostRecv a did net).2 := by
  unfold RecvSlots.dgramPostRecv
  cases hlook : net.datagrams.lookup did with
  | none => exact h
  | some entry =>
    dsimp only
    split
    · exact h
    rename_i hposts
    rw [Bool.or_eq_true, not_or] at hposts
    have hnone : entry.recvOp = none := Option.not_isSome_iff_eq_none.mp hposts.2
    obtain ⟨slot, net', htaken, hheld, hwired, hdatagrams, hposted⟩ :=
      h.dgramSlotOf hready hlook hnone
    rw [htaken]
    dsimp only
    cases hrecv : a.recv with
    | none => exact hheld.release a
    | some op =>
      have hfresh : net'.posted.lookup op = none := by
        rw [hposted]
        exact hready.recv op hrecv
      have hput : Books own lent (net'.setDatagram did
          { entry with recvSlot := some slot, recvOp := some op }) := by
        have htwice : Books own lent ((net'.setDatagram did { entry with recvSlot := none }).setDatagram
            did { entry with recvSlot := some slot, recvOp := some op }) :=
          hheld.books.setDatagram_put (AList.lookup_insert _) rfl rfl
        rwa [Net.setDatagram, Net.setDatagram, AList.insert_insert] at htwice
      have hlook' : net'.datagrams.lookup did = some entry := by rw [hdatagrams, hlook]
      exact ⟨hput.post (hwired.fresh hfresh) (fun _ => rfl) _, hwired.postDgramRecv hfresh hlook' hnone⟩

theorem udpWire (h : Held own lent net) (hready : Ready a net) : Held own lent (udpWire a net) := by
  have hunused : net.datagrams.lookup (net.nextId + 1) = none := by
    cases hlook : net.datagrams.lookup (net.nextId + 1) with
    | none => rfl
    | some entry => exact absurd (h.wired.datagramId _ entry hlook) (Nat.not_succ_le_self _)
  have hnext : Books own lent { net with nextId := net.nextId + 1 } := h.books.of_same rfl rfl rfl rfl
  have hadded : Held own lent
      ({ net with nextId := net.nextId + 1 }.setDatagram (net.nextId + 1) .wired) :=
    ⟨hnext.addDatagram hunused rfl, h.wired.addDatagram rfl⟩
  have hposted := hadded.dgramPostRecv (hready.of_same rfl rfl) (net.nextId + 1)
  unfold RecvSlots.udpWire
  dsimp only
  split
  · exact hposted
  · exact hposted.retireDgram a _

theorem dgramStarve (h : Held own lent net) (did : Nat) : Held own lent (dgramStarve did net) := by
  unfold RecvSlots.dgramStarve
  cases hlook : net.datagrams.lookup did with
  | none => exact h
  | some entry => exact h.touchDgram hlook rfl rfl

theorem dgramRouted (h : Held own lent net) (hready : Ready a net) (did : Nat) (c : Completion)
    (entry : DatagramEntry) : Held own lent (dgramRouted a did c entry net) := by
  unfold RecvSlots.dgramRouted
  split
  · exact h
  split
  · exact h
  have hposted := h.dgramPostRecv hready did
  dsimp only
  split
  · exact hposted
  · exact hposted.dgramStarve did

theorem retryStarved (h : Held own lent net) (hready : Ready a net) (did : Nat) :
    Held own lent (retryStarved a did net) := by
  unfold RecvSlots.retryStarved
  split
  · exact h
  split
  · have hposted := h.dgramPostRecv hready did
    dsimp only
    split
    · rename_i entry _ hlook
      exact hposted.touchDgram hlook rfl rfl
    · exact hposted
  · exact h

theorem dgramSendNow (h : Held own lent net) {send : Option Nat}
    (hfresh : ∀ op, send = some op → net.posted.lookup op = none) (did : Nat) :
    Held own lent (dgramSendNow send did net) := by
  unfold RecvSlots.dgramSendNow
  split
  · rename_i entry op hlook
    have hop := hfresh op rfl
    have hset : Books own lent (net.setDatagram did { entry with sendOp := some op }) :=
      h.books.setDatagram_keep hlook rfl
    exact ⟨hset.post (h.wired.fresh hop) (fun _ => rfl) none, h.wired.postDgramSend hop hlook⟩
  · exact h

/-- Until a datagram is in flight the operations offered are new. -/
theorem pumpQueue (did : Nat) (queued : Nat) {sends : List (Option Nat)} (h : Held own lent net)
    (hfresh : ∀ entry, net.datagrams.lookup did = some entry → entry.sendOp = none →
      ∀ op, some op ∈ sends → net.posted.lookup op = none) :
    Held own lent (pumpQueue did queued sends net) := by
  induction queued generalizing sends net with
  | zero => exact h
  | succ queued ih =>
    unfold RecvSlots.pumpQueue
    cases hlook : net.datagrams.lookup did with
    | none => exact h
    | some entry =>
      dsimp only
      split
      · exact h
      rename_i hidle
      have hidle : entry.sendOp = none := Option.not_isSome_iff_eq_none.mp hidle
      have hset : Held own lent (net.setDatagram did { entry with sendQueue := queued }) :=
        h.touchDgram hlook rfl rfl
      have hnew := hfresh entry hlook hidle
      refine ih (hset.dgramSendNow (fun op hop => ?_) did) fun entry' hlook' hidle' op hop => ?_
      · refine hnew op ?_
        cases sends with
        | nil => cases hop
        | cons send rest => exact List.mem_cons.mpr (.inl hop.symm)
      · have hop : some op ∈ sends := List.mem_of_mem_tail hop
        unfold RecvSlots.dgramSendNow at hlook' ⊢
        rw [show (net.setDatagram did _).datagrams.lookup did = some _ from AList.lookup_insert _]
          at hlook' ⊢
        cases hsend : sends.headD none with
        | none => exact hnew op hop
        | some op' =>
          rw [hsend] at hlook'
          rw [show (Net.post _ _ _ _).datagrams.lookup did = some _ from AList.lookup_insert _]
            at hlook'
          injection hlook' with hlook'
          rw [← hlook'] at hidle'
          cases hidle'

theorem dgramPumpSend (h : Held own lent net) (hready : Ready a net) (did : Nat) :
    Held own lent (dgramPumpSend a did net) := by
  unfold RecvSlots.dgramPumpSend
  split
  · exact h
  rename_i entry _
  have hpumped := Held.pumpQueue did entry.sendQueue h fun _ _ _ => hready.sends
  dsimp only
  split
  · exact hpumped
  split
  · exact hpumped.retireDgram a did
  · exact hpumped

theorem onDgramSendDone (h : Held own lent net) (hready : Ready a net) (did : Nat) :
    Held own lent (onDgramSendDone a did net) := by
  unfold RecvSlots.onDgramSendDone
  cases hlook : net.datagrams.lookup did with
  | none => exact h
  | some entry =>
    have hset : Held own lent (net.setDatagram did { entry with sendOp := none }) :=
      h.touchDgram hlook rfl rfl
    exact hset.dgramPumpSend (hready.of_same rfl rfl) did

theorem udpSendto (h : Held own lent net) (hready : Ready a net) (did : Nat) (fits : Bool) :
    Held own lent (udpSendto a did fits net) := by
  unfold RecvSlots.udpSendto
  cases hlook : net.datagrams.lookup did with
  | none => exact h
  | some entry =>
    dsimp only
    split
    · exact h
    split
    · split
      · exact h.touchDgram hlook rfl rfl
      · exact h
    · exact h.dgramSendNow hready.send did

theorem udpClose (h : Held own lent net) (a : Answers) (did : Nat) (abort : Bool) :
    Held own lent (udpClose a did abort net) := by
  unfold RecvSlots.udpClose
  cases hlook : net.datagrams.lookup did with
  | none => exact h
  | some entry =>
    have hset : ∀ queue, Held own lent
        (net.setDatagram did { entry with closing := true, sendQueue := queue }) :=
      fun queue => h.touchDgram hlook rfl rfl
    dsimp only
    generalize (if abort then 0 else entry.sendQueue) = queue
    split
    · exact (hset _).retireDgram a did
    · exact hset _

end Held

end Cadeloop.Pyshim.RecvSlots
