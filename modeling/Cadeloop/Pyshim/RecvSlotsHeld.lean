import Cadeloop.Pyshim.RecvSlots

/-!
# Who holds a receive slot

Two invariants.  `Books` counts: the pool's refcounts are the references of the tables, the queue
and the call under way.  `Wired` says which operation, entry and guard belong together, so that what
a call takes out of one place is what the other place has.
-/

namespace Cadeloop.Pyshim.RecvSlots

open Cadeloop.Core.Buffers
open Cadeloop.Reasoning (Table)
open Cadeloop.Reasoning.Table (tally tally_erase tally_insert_none tally_insert_some tally_pos
  lookup_insert_some lookup_erase_some lookup_insert_ite lookup_erase_ite)

/-! ## 1. The references -/

def TransportEntry.holds (slot : SlotId) (entry : TransportEntry) : Bool :=
  decide (entry.recvSlot = some slot)

def DatagramEntry.holds (slot : SlotId) (entry : DatagramEntry) : Bool :=
  decide (entry.recvSlot = some slot)

def OpTarget.holds (slot : SlotId) : OpTarget → Bool
  | .recv _ slot' => decide (slot' = slot)
  | _ => false

def ReapGuard.holds (slot : SlotId) : ReapGuard → Bool
  | .slot slot' => decide (slot' = slot)
  | .writes => false

namespace Net

/-- Transports and datagram endpoints holding the slot, receives mapped to it, queued events
carrying it, and reap guards holding it. -/
def references (net : Net) (slot : SlotId) : Nat :=
  tally (TransportEntry.holds slot) net.transports + tally (DatagramEntry.holds slot) net.datagrams +
    tally (OpTarget.holds slot) net.ops + net.events.countP (fun event => event.slot = slot) +
    tally (ReapGuard.holds slot) net.reapGuards

def handing (net : Net) (slot : SlotId) : Nat :=
  (net.delivering.any fun event => event.slot = slot).toNat

def reading (net : Net) (slot : SlotId) : Nat := (net.parsing.any fun p => p.slot = slot).toNat

/-- References of calls under way: the event being dispatched, the receive being parsed. -/
def inHand (net : Net) (slot : SlotId) : Nat := net.handing slot + net.reading slot

/-- What a slot is acquired for, until it is let go: one reference, handed on. -/
def owners (net : Net) (slot : SlotId) : Nat :=
  tally (TransportEntry.holds slot) net.transports + tally (DatagramEntry.holds slot) net.datagrams +
    net.events.countP (fun event => event.slot = slot) +
    tally (ReapGuard.holds slot) net.reapGuards + net.handing slot

/-- What it is lent for: a receive, from its post to the end of its completion. -/
def loans (net : Net) (slot : SlotId) : Nat :=
  tally (OpTarget.holds slot) net.ops + net.reading slot

theorem owners_add_loans (net : Net) (slot : SlotId) :
    net.owners slot + net.loans slot = net.references slot + net.inHand slot := by
  unfold owners loans references inHand
  omega

end Net

/-- The refcounts are the references, with those in the hands of a call: `own` and `lent`. -/
structure Books (own lent : List SlotId) (net : Net) : Prop where
  pool : Residents net.buffers
  exact : ∀ slot, net.buffers.count slot =
    net.owners slot + own.count slot + (net.loans slot + lent.count slot)
  single : ∀ slot, net.owners slot + own.count slot ≤ 1
  once : ∀ slot, tally (OpTarget.holds slot) net.ops ≤ 1

/-- Nothing is read into the entry's slot any more. -/
def TransportEntry.discards (entry : TransportEntry) : Bool := entry.closing && !entry.lingering

structure Wired (net : Net) : Prop where
  -- a transport's receive is mapped to it and reads into its slot
  recvOp : ∀ tid entry op, net.transports.lookup tid = some entry → entry.recvOp = some op →
    ∃ slot, entry.recvSlot = some slot ∧ net.ops.lookup op = some (.recv tid slot)
  -- it has no other, short of one it cancelled as it closed
  sole : ∀ op tid slot entry, net.ops.lookup op = some (.recv tid slot) →
    net.transports.lookup tid = some entry → entry.discards = false → entry.recvOp = some op
  -- no receive of another transport reads into its slot
  lender : ∀ op tid slot tid' entry, net.ops.lookup op = some (.recv tid slot) →
    net.transports.lookup tid' = some entry → entry.recvSlot = some slot → tid = tid'
  lingers : ∀ tid entry, net.transports.lookup tid = some entry → entry.lingering = true →
    entry.closing = true
  sendOp : ∀ tid entry op, net.transports.lookup tid = some entry → entry.sendOp = some op →
    net.ops.lookup op = some (.send tid)
  dgramOp : ∀ did entry op, net.datagrams.lookup did = some entry → entry.recvOp = some op →
    ∃ slot, entry.recvSlot = some slot ∧ net.ops.lookup op = some (.dgramRecv did) ∧
      net.posted.lookup op = some (some slot)
  dgramSole : ∀ op did entry, net.ops.lookup op = some (.dgramRecv did) →
    net.datagrams.lookup did = some entry → entry.recvOp = some op
  -- a guard holds the slot of a receive whose endpoint is gone
  guard : ∀ op slot, net.reapGuards.lookup op = some (.slot slot) →
    net.posted.lookup op = some (some slot) ∧
      ∃ did, net.ops.lookup op = some (.dgramRecv did) ∧ net.datagrams.lookup did = none
  -- what the kernel may write has its receive mapped, or its guard
  reads : ∀ op slot, net.posted.lookup op = some (some slot) →
    (∃ tid, net.ops.lookup op = some (.recv tid slot)) ∨
      ∃ did, net.ops.lookup op = some (.dgramRecv did) ∧
        (net.datagrams.lookup did = none → net.reapGuards.lookup op = some (.slot slot))
  mapped : ∀ op tid slot, net.ops.lookup op = some (.recv tid slot) →
    net.posted.lookup op = some (some slot)
  posted : ∀ op target, net.ops.lookup op = some target → net.posted.lookup op ≠ none
  -- ids are given once
  transportId : ∀ tid entry, net.transports.lookup tid = some entry → tid ≤ net.nextId
  datagramId : ∀ did entry, net.datagrams.lookup did = some entry → did ≤ net.nextId
  recvId : ∀ op tid slot, net.ops.lookup op = some (.recv tid slot) → tid ≤ net.nextId
  dgramRecvId : ∀ op did, net.ops.lookup op = some (.dgramRecv did) → did ≤ net.nextId

/-! ## 2. The books, kept -/

theorem holds_toNat (entry : TransportEntry) (slot : SlotId) :
    (entry.holds slot).toNat = entry.recvSlot.toList.count slot := by
  unfold TransportEntry.holds
  cases entry.recvSlot with
  | none => rfl
  | some slot' => simp [List.count_singleton, Bool.toNat, Bool.cond_eq_ite]

theorem dgramHolds_toNat (entry : DatagramEntry) (slot : SlotId) :
    (entry.holds slot).toNat = entry.recvSlot.toList.count slot := by
  unfold DatagramEntry.holds
  cases entry.recvSlot with
  | none => rfl
  | some slot' => simp [List.count_singleton, Bool.toNat, Bool.cond_eq_ite]

namespace Books

variable {own lent own' lent' : List SlotId} {net net' : Net}

/-- References handed on between the tables and the call: the pool has no part in it. -/
theorem move (h : Books own lent net) (hbuffers : net'.buffers = net.buffers)
    (howners : ∀ slot, net'.owners slot + own'.count slot = net.owners slot + own.count slot)
    (hloans : ∀ slot, net'.loans slot + lent'.count slot = net.loans slot + lent.count slot)
    (honce : ∀ slot, tally (OpTarget.holds slot) net'.ops ≤ 1) : Books own' lent' net' where
  pool := by
    rw [hbuffers]
    exact h.pool
  exact slot := by rw [hbuffers, howners, hloans, h.exact]
  single slot := by
    rw [howners]
    exact h.single slot
  once := honce

theorem count_pos_own (h : Books own lent net) {slot : SlotId} (hmem : slot ∈ own) :
    0 < net.buffers.count slot := by
  have hcount := List.count_pos_iff.mpr hmem
  have hexact := h.exact slot
  omega

/-- The reference a call owns is given back to the pool. -/
theorem release {slot : SlotId} (h : Books (slot :: own) lent net) (a : Answers) :
    Books own lent (net.release a slot) := by
  have hpos := h.count_pos_own List.mem_cons_self
  have hcount := release_count hpos net.pagesOut a.pageOut
  refine ⟨h.pool.release _ _ _, fun slot' => ?_, fun slot' => ?_, h.once⟩
  · have hexact := h.exact slot'
    show ((net.buffers.release _ _ slot).2.count slot') = net.owners slot' + own.count slot' +
      (net.loans slot' + lent.count slot')
    rw [hcount]
    by_cases heq : slot' = slot
    · rw [heq, Function.update_self]
      rw [heq, List.count_cons_self] at hexact
      omega
    · rw [Function.update_of_ne heq, hexact, List.count_cons_of_ne (Ne.symm heq)]
  · have hsingle := h.single slot'
    have hle : own.count slot' ≤ (slot :: own).count slot' := List.count_le_count_cons
    show net.owners slot' + own.count slot' ≤ 1
    omega

/-- The reference of a receive that is over is given back to the pool. -/
theorem releaseLent {slot : SlotId} (h : Books own (slot :: lent) net) (a : Answers) :
    Books own lent (net.release a slot) := by
  have hpos : 0 < net.buffers.count slot := by
    have hexact := h.exact slot
    rw [List.count_cons_self] at hexact
    omega
  have hcount := release_count hpos net.pagesOut a.pageOut
  refine ⟨h.pool.release _ _ _, fun slot' => ?_, h.single, h.once⟩
  have hexact := h.exact slot'
  show ((net.buffers.release _ _ slot).2.count slot') = net.owners slot' + own.count slot' +
    (net.loans slot' + lent.count slot')
  rw [hcount]
  by_cases heq : slot' = slot
  · rw [heq, Function.update_self]
    rw [heq, List.count_cons_self] at hexact
    omega
  · rw [Function.update_of_ne heq, hexact, List.count_cons_of_ne (Ne.symm heq)]

/-- An acquired slot was nobody's. -/
theorem acquire (h : Books own lent net) {c : SizeClass} (hroom : (net.buffers.classes c).Room)
    (region : Region) : ∃ slot buffers, net.buffers.acquire c region = some (slot, buffers) ∧
      net.buffers.count slot = 0 ∧ Books (slot :: own) lent { net with buffers } := by
  obtain ⟨slot, buffers, hacquire, hpool, hzero, hcount⟩ := h.pool.acquire_count hroom region
  have hnone := h.exact slot
  rw [hzero] at hnone
  refine ⟨slot, buffers, hacquire, hzero, hpool, fun slot' => ?_, fun slot' => ?_, h.once⟩
  · show buffers.count slot' = net.owners slot' + (slot :: own).count slot' +
      (net.loans slot' + lent.count slot')
    rw [hcount]
    by_cases heq : slot' = slot
    · rw [heq, Function.update_self, List.count_cons_self]
      omega
    · rw [Function.update_of_ne heq, List.count_cons_of_ne (Ne.symm heq), h.exact]
  · show net.owners slot' + (slot :: own).count slot' ≤ 1
    by_cases heq : slot' = slot
    · rw [heq, List.count_cons_self]
      omega
    · rw [List.count_cons_of_ne (Ne.symm heq)]
      exact h.single slot'

/-- A slot with a reference gets one more: there are three at the most. -/
theorem retain (h : Books own lent net) (hlent : lent.length ≤ 1) {slot : SlotId}
    (hpos : 0 < net.buffers.count slot) : Books own (slot :: lent) (net.retain slot) := by
  have hbound : net.buffers.count slot ≤ 4 := by
    have hsingle := h.single slot
    have honce := h.once slot
    have hcount : lent.count slot ≤ lent.length := List.count_le_length
    have hreading : net.reading slot ≤ 1 := Bool.toNat_le _
    rw [h.exact, Net.loans]
    omega
  have hcount := retain_count hpos (by omega)
  refine ⟨h.pool.retain _, fun slot' => ?_, h.single, h.once⟩
  show (net.buffers.retain slot).count slot' = net.owners slot' + own.count slot' +
    (net.loans slot' + (slot :: lent).count slot')
  rw [hcount]
  by_cases heq : slot' = slot
  · rw [heq, Function.update_self, List.count_cons_self, h.exact]
    omega
  · rw [Function.update_of_ne heq, List.count_cons_of_ne (Ne.symm heq), h.exact]

section Transports

variable {tid : Nat} {entry entry' : TransportEntry}

/-- An entry written over: the slot it had is in hand, the one it has is not. -/
theorem setTransport (h : Books own lent net) (hlook : net.transports.lookup tid = some entry)
    (hown : ∀ slot, own'.count slot + entry'.recvSlot.toList.count slot =
      own.count slot + entry.recvSlot.toList.count slot) :
    Books own' lent (net.setTransport tid entry') := by
  refine h.move rfl (fun slot => ?_) (fun _ => rfl) h.once
  have htally := tally_insert_some (p := TransportEntry.holds slot) hlook entry'
  rw [holds_toNat, holds_toNat] at htally
  have hslot := hown slot
  simp only [Net.owners, Net.setTransport, Net.handing]
  omega

theorem setTransport_keep (h : Books own lent net)
    (hlook : net.transports.lookup tid = some entry) (hslot : entry'.recvSlot = entry.recvSlot) :
    Books own lent (net.setTransport tid entry') :=
  h.setTransport hlook fun slot => by rw [hslot]

theorem setTransport_take (h : Books own lent net)
    (hlook : net.transports.lookup tid = some entry) {slot : SlotId}
    (hslot : entry.recvSlot = some slot) (hnone : entry'.recvSlot = none) :
    Books (slot :: own) lent (net.setTransport tid entry') := by
  refine h.setTransport hlook fun slot' => ?_
  rw [hslot, hnone]
  simp only [Option.toList_none, Option.toList_some, List.count_nil, List.count_cons]
  omega

theorem setTransport_put {slot : SlotId} (h : Books (slot :: own) lent net)
    (hlook : net.transports.lookup tid = some entry) (hnone : entry.recvSlot = none)
    (hslot : entry'.recvSlot = some slot) : Books own lent (net.setTransport tid entry') := by
  refine h.setTransport hlook fun slot' => ?_
  rw [hslot, hnone]
  simp only [Option.toList_none, Option.toList_some, List.count_nil, List.count_cons]
  omega

theorem addTransport (h : Books own lent net) (hlook : net.transports.lookup tid = none)
    (hslot : entry.recvSlot = none) : Books own lent (net.setTransport tid entry) := by
  refine h.move rfl (fun slot => ?_) (fun _ => rfl) h.once
  have htally := tally_insert_none (p := TransportEntry.holds slot) hlook entry
  rw [holds_toNat, hslot, Option.toList_none, List.count_nil] at htally
  simp only [Net.owners, Net.setTransport, Net.handing]
  omega

theorem eraseTransport (h : Books own lent net) (hlook : net.transports.lookup tid = some entry) :
    Books (entry.recvSlot.toList ++ own) lent
      { net with transports := net.transports.erase tid } := by
  refine h.move rfl (fun slot => ?_) (fun _ => rfl) h.once
  have htally := tally_erase (p := TransportEntry.holds slot) hlook
  rw [holds_toNat] at htally
  rw [List.count_append]
  simp only [Net.owners, Net.handing]
  omega

end Transports

section Datagrams

variable {did : Nat} {entry entry' : DatagramEntry}

theorem setDatagram (h : Books own lent net) (hlook : net.datagrams.lookup did = some entry)
    (hown : ∀ slot, own'.count slot + entry'.recvSlot.toList.count slot =
      own.count slot + entry.recvSlot.toList.count slot) :
    Books own' lent (net.setDatagram did entry') := by
  refine h.move rfl (fun slot => ?_) (fun _ => rfl) h.once
  have htally := tally_insert_some (p := DatagramEntry.holds slot) hlook entry'
  rw [dgramHolds_toNat, dgramHolds_toNat] at htally
  have hslot := hown slot
  simp only [Net.owners, Net.setDatagram, Net.handing]
  omega

theorem setDatagram_keep (h : Books own lent net)
    (hlook : net.datagrams.lookup did = some entry) (hslot : entry'.recvSlot = entry.recvSlot) :
    Books own lent (net.setDatagram did entry') :=
  h.setDatagram hlook fun slot => by rw [hslot]

theorem setDatagram_put {slot : SlotId} (h : Books (slot :: own) lent net)
    (hlook : net.datagrams.lookup did = some entry) (hnone : entry.recvSlot = none)
    (hslot : entry'.recvSlot = some slot) : Books own lent (net.setDatagram did entry') := by
  refine h.setDatagram hlook fun slot' => ?_
  rw [hslot, hnone]
  simp only [Option.toList_none, Option.toList_some, List.count_nil, List.count_cons]
  omega

theorem setDatagram_take (h : Books own lent net)
    (hlook : net.datagrams.lookup did = some entry) {slot : SlotId}
    (hslot : entry.recvSlot = some slot) (hnone : entry'.recvSlot = none) :
    Books (slot :: own) lent (net.setDatagram did entry') := by
  refine h.setDatagram hlook fun slot' => ?_
  rw [hslot, hnone]
  simp only [Option.toList_none, Option.toList_some, List.count_nil, List.count_cons]
  omega

theorem addDatagram (h : Books own lent net) (hlook : net.datagrams.lookup did = none)
    (hslot : entry.recvSlot = none) : Books own lent (net.setDatagram did entry) := by
  refine h.move rfl (fun slot => ?_) (fun _ => rfl) h.once
  have htally := tally_insert_none (p := DatagramEntry.holds slot) hlook entry
  rw [dgramHolds_toNat, hslot, Option.toList_none, List.count_nil] at htally
  simp only [Net.owners, Net.setDatagram, Net.handing]
  omega

theorem eraseDatagram (h : Books own lent net) (hlook : net.datagrams.lookup did = some entry) :
    Books (entry.recvSlot.toList ++ own) lent
      { net with datagrams := net.datagrams.erase did } := by
  refine h.move rfl (fun slot => ?_) (fun _ => rfl) h.once
  have htally := tally_erase (p := DatagramEntry.holds slot) hlook
  rw [dgramHolds_toNat] at htally
  rw [List.count_append]
  simp only [Net.owners, Net.handing]
  omega

end Datagrams

section Operations

variable {op : Nat} {target : OpTarget}

/-- An operation that is no receive. -/
theorem post (h : Books own lent net) (hnone : net.ops.lookup op = none)
    (htarget : ∀ slot, target.holds slot = false) (slot : Option SlotId) :
    Books own lent (net.post op target slot) := by
  have htally : ∀ slot, tally (OpTarget.holds slot) (net.ops.insert op target) =
      tally (OpTarget.holds slot) net.ops := by
    intro slot
    rw [tally_insert_none hnone, htarget]
    rfl
  refine h.move rfl (fun _ => rfl) (fun slot' => ?_) fun slot' => ?_
  · simp only [Net.loans, Net.post, Net.reading, htally]
  · simp only [Net.post, htally]
    exact h.once slot'

/-- A receive: the reference retained for it is its own. -/
theorem postRecv {slot : SlotId} (h : Books own (slot :: lent) net)
    (hnone : net.ops.lookup op = none) (hfree : tally (OpTarget.holds slot) net.ops = 0) (tid : Nat)
    (buffer : Option SlotId) : Books own lent (net.post op (.recv tid slot) buffer) := by
  have htally : ∀ slot', tally (OpTarget.holds slot') (net.ops.insert op (.recv tid slot)) =
      tally (OpTarget.holds slot') net.ops + (decide (slot = slot')).toNat :=
    fun slot' => tally_insert_none hnone _
  have hcount : ∀ slot', (slot :: lent).count slot' = lent.count slot' + (decide (slot = slot')).toNat := by
    intro slot'
    rw [List.count_cons]
    by_cases heq : slot = slot' <;> simp [heq]
  refine h.move rfl (fun _ => rfl) (fun slot' => ?_) fun slot' => ?_
  · simp only [Net.loans, Net.post, Net.reading, htally, hcount]
    omega
  · simp only [Net.post, htally]
    by_cases heq : slot = slot'
    · rw [← heq, hfree, decide_eq_true rfl]
      exact Nat.le_refl 1
    · rw [decide_eq_false heq]
      exact h.once slot'

/-- A receive reported: its reference is the call's. -/
theorem unmapRecv {tid : Nat} {slot : SlotId} (h : Books own lent net)
    (hlook : net.ops.lookup op = some (.recv tid slot)) :
    Books own (slot :: lent) (net.unmap op) := by
  have htally : ∀ slot', tally (OpTarget.holds slot') (net.ops.erase op) +
      (decide (slot = slot')).toNat = tally (OpTarget.holds slot') net.ops :=
    fun slot' => tally_erase hlook
  have hcount : ∀ slot', (slot :: lent).count slot' = lent.count slot' + (decide (slot = slot')).toNat := by
    intro slot'
    rw [List.count_cons]
    by_cases heq : slot = slot' <;> simp [heq]
  refine h.move rfl (fun _ => rfl) (fun slot' => ?_) fun slot' => ?_
  · have hslot := htally slot'
    simp only [Net.loans, Net.unmap, Net.reading, hcount]
    omega
  · have hslot := htally slot'
    have honce := h.once slot'
    show tally _ (net.ops.erase op) ≤ 1
    omega

theorem unmap (h : Books own lent net) (hlook : net.ops.lookup op = some target)
    (htarget : ∀ slot, target.holds slot = false) :
    Books own lent (net.unmap op) := by
  have htally : ∀ slot, tally (OpTarget.holds slot) (net.ops.erase op) =
      tally (OpTarget.holds slot) net.ops := by
    intro slot
    rw [← tally_erase hlook, htarget]
    rfl
  refine h.move rfl (fun _ => rfl) (fun slot' => ?_) fun slot' => ?_
  · simp only [Net.loans, Net.unmap, Net.reading, htally]
  · simp only [Net.unmap, htally]
    exact h.once slot'

end Operations

section Guards

variable {op : Nat}

/-- A guard written where there is none that holds a slot. -/
theorem insertGuard (h : Books own lent net)
    (hlook : ∀ slot, net.reapGuards.lookup op ≠ some (.slot slot)) {g : ReapGuard}
    (hown : ∀ slot, own'.count slot + (g.holds slot).toNat = own.count slot) :
    Books own' lent { net with reapGuards := net.reapGuards.insert op g } := by
  have htally : ∀ slot, tally (ReapGuard.holds slot) (net.reapGuards.insert op g) =
      tally (ReapGuard.holds slot) net.reapGuards + (g.holds slot).toNat := by
    intro slot
    cases hold : net.reapGuards.lookup op with
    | none => exact tally_insert_none hold g
    | some old =>
      cases old with
      | slot slot' => exact absurd hold (hlook slot')
      | writes => exact tally_insert_some (p := ReapGuard.holds slot) hold g
  refine h.move rfl (fun slot => ?_) (fun _ => rfl) h.once
  have hslot := hown slot
  simp only [Net.owners, Net.handing, htally]
  omega

theorem guardWrites (h : Books own lent net)
    (hlook : ∀ slot, net.reapGuards.lookup op ≠ some (.slot slot)) :
    Books own lent { net with reapGuards := net.reapGuards.insert op .writes } :=
  h.insertGuard hlook fun _ => rfl

theorem guardSlot {slot : SlotId} (h : Books (slot :: own) lent net)
    (hlook : ∀ slot, net.reapGuards.lookup op ≠ some (.slot slot)) :
    Books own lent { net with reapGuards := net.reapGuards.insert op (.slot slot) } := by
  refine h.insertGuard hlook fun slot' => ?_
  rw [List.count_cons]
  by_cases heq : slot = slot' <;> simp [ReapGuard.holds, heq]

theorem unguardSlot {slot : SlotId} (h : Books own lent net)
    (hlook : net.reapGuards.lookup op = some (.slot slot)) :
    Books (slot :: own) lent { net with reapGuards := net.reapGuards.erase op } := by
  refine h.move rfl (fun slot' => ?_) (fun _ => rfl) h.once
  have htally := tally_erase (p := ReapGuard.holds slot') hlook
  have hcount : (slot :: own).count slot' = own.count slot' + (decide (slot = slot')).toNat := by
    rw [List.count_cons]
    by_cases heq : slot = slot' <;> simp [heq]
  simp only [ReapGuard.holds] at htally
  simp only [Net.owners, Net.handing, hcount]
  omega

theorem unguard (h : Books own lent net)
    (hlook : ∀ slot, net.reapGuards.lookup op ≠ some (.slot slot)) :
    Books own lent { net with reapGuards := net.reapGuards.erase op } := by
  have htally : ∀ slot, tally (ReapGuard.holds slot) (net.reapGuards.erase op) =
      tally (ReapGuard.holds slot) net.reapGuards := by
    intro slot
    cases hold : net.reapGuards.lookup op with
    | none => exact Table.tally_erase_none hold
    | some old =>
      cases old with
      | slot slot' => exact absurd hold (hlook slot')
      | writes => exact tally_erase (p := ReapGuard.holds slot) hold
  refine h.move rfl (fun slot => ?_) (fun _ => rfl) h.once
  simp only [Net.owners, Net.handing, htally]

end Guards

section Events

theorem pushEvent {event : BufData} (h : Books (event.slot :: own) lent net) :
    Books own lent { net with events := net.events ++ [event] } := by
  refine h.move rfl (fun slot => ?_) (fun _ => rfl) h.once
  simp only [Net.owners, Net.handing, List.countP_append, List.countP_singleton, List.count_cons,
    beq_iff_eq, decide_eq_true_eq]
  omega

/-- The event leaves the queue for the call. -/
theorem popEvent {event : BufData} {rest : List BufData} (h : Books own lent net)
    (hevents : net.events = event :: rest) (hnone : net.delivering = none) :
    Books own lent { net with events := rest, delivering := some event } := by
  refine h.move rfl (fun slot => ?_) (fun _ => rfl) h.once
  simp only [Net.owners, Net.handing, hevents, hnone, List.countP_cons, Option.any_some,
    Option.any_none, decide_eq_true_eq]
  by_cases heq : event.slot = slot
  · simp only [heq, if_true, decide_true, Bool.toNat_true, Bool.toNat_false]
    omega
  · simp only [heq, if_false, decide_false, Bool.toNat_false]
    omega

theorem deliver {event : BufData} (h : Books own lent net)
    (hsome : net.delivering = some event) :
    Books (event.slot :: own) lent { net with delivering := none } := by
  refine h.move rfl (fun slot => ?_) (fun _ => rfl) h.once
  simp only [Net.owners, Net.handing, hsome, Option.any_some, Option.any_none, List.count_cons,
    beq_iff_eq]
  by_cases heq : event.slot = slot
  · simp only [heq, if_true, decide_true, Bool.toNat_true, Bool.toNat_false]
    omega
  · simp only [heq, if_false, decide_false, Bool.toNat_false]
    omega

theorem parse {p : Parsing} (h : Books own (p.slot :: lent) net) (hnone : net.parsing = none) :
    Books own lent { net with parsing := some p } := by
  refine h.move rfl (fun _ => rfl) (fun slot => ?_) h.once
  simp only [Net.loans, Net.reading, hnone, Option.any_some, Option.any_none, List.count_cons,
    beq_iff_eq]
  by_cases heq : p.slot = slot
  · simp only [heq, if_true, decide_true, Bool.toNat_true, Bool.toNat_false]
    omega
  · simp only [heq, if_false, decide_false, Bool.toNat_false]
    omega

theorem unparse {p : Parsing} (h : Books own lent net) (hsome : net.parsing = some p) :
    Books own (p.slot :: lent) { net with parsing := none } := by
  refine h.move rfl (fun _ => rfl) (fun slot => ?_) h.once
  simp only [Net.loans, Net.reading, hsome, Option.any_some, Option.any_none, List.count_cons,
    beq_iff_eq]
  by_cases heq : p.slot = slot
  · simp only [heq, if_true, decide_true, Bool.toNat_true, Bool.toNat_false]
    omega
  · simp only [heq, if_false, decide_false, Bool.toNat_false]
    omega

end Events

/-- What the pool, the tables and the queue do not see. -/
theorem of_same (h : Books own lent net) (hbuffers : net'.buffers = net.buffers)
    (howners : net'.owners = net.owners) (hloans : net'.loans = net.loans)
    (hops : net'.ops = net.ops) : Books own lent net' :=
  h.move hbuffers (fun _ => by rw [howners]) (fun _ => by rw [hloans])
    fun slot => by rw [hops]; exact h.once slot

end Books

/-! ## 3. The wiring, kept -/

namespace Wired

variable {net net' : Net}

/-- What the wiring does not see: the pool, the queue, the call under way. -/
theorem of_same (h : Wired net) (htransports : net'.transports = net.transports)
    (hdatagrams : net'.datagrams = net.datagrams) (hops : net'.ops = net.ops)
    (hguards : net'.reapGuards = net.reapGuards) (hposted : net'.posted = net.posted)
    (hid : net'.nextId = net.nextId) : Wired net' := by
  obtain ⟨pagesOut, buffers, transports, datagrams, ops, reapGuards, events, nextId, nowNs, posted,
    parsing, delivering⟩ := net'
  dsimp only at htransports hdatagrams hops hguards hposted hid
  subst htransports hdatagrams hops hguards hposted hid
  exact ⟨h.recvOp, h.sole, h.lender, h.lingers, h.sendOp, h.dgramOp, h.dgramSole, h.guard, h.reads, h.mapped,
    h.posted, h.transportId, h.datagramId, h.recvId, h.dgramRecvId⟩

theorem fresh (h : Wired net) {op : Nat} (hnone : net.posted.lookup op = none) :
    net.ops.lookup op = none := by
  cases hop : net.ops.lookup op with
  | none => rfl
  | some target => exact absurd hnone (h.posted op target hop)

section Transports

variable {tid : Nat} {entry entry' : TransportEntry}

theorem setTransport (h : Wired net) (hid : tid ≤ net.nextId)
    (hrecv : ∀ op, entry'.recvOp = some op →
      ∃ slot, entry'.recvSlot = some slot ∧ net.ops.lookup op = some (.recv tid slot))
    (hsole : ∀ op slot, net.ops.lookup op = some (.recv tid slot) → entry'.discards = false →
      entry'.recvOp = some op)
    (hlender : ∀ op tid' slot, net.ops.lookup op = some (.recv tid' slot) →
      entry'.recvSlot = some slot → tid' = tid)
    (hlingers : entry'.lingering = true → entry'.closing = true)
    (hsend : ∀ op, entry'.sendOp = some op → net.ops.lookup op = some (.send tid)) :
    Wired (net.setTransport tid entry') where
  recvOp t e op hlook hop := by
    rcases lookup_insert_some hlook with ⟨rfl, rfl⟩ | ⟨-, hold⟩
    · exact hrecv op hop
    · exact h.recvOp t e op hold hop
  sole op t slot e hop hlook hreads := by
    rcases lookup_insert_some hlook with ⟨rfl, rfl⟩ | ⟨-, hold⟩
    · exact hsole op slot hop hreads
    · exact h.sole op t slot e hop hold hreads
  lender op t slot t' e hop hlook hslot := by
    rcases lookup_insert_some hlook with ⟨rfl, rfl⟩ | ⟨-, hold⟩
    · exact hlender op t slot hop hslot
    · exact h.lender op t slot t' e hop hold hslot
  lingers t e hlook hlinger := by
    rcases lookup_insert_some hlook with ⟨rfl, rfl⟩ | ⟨-, hold⟩
    · exact hlingers hlinger
    · exact h.lingers t e hold hlinger
  sendOp t e op hlook hop := by
    rcases lookup_insert_some hlook with ⟨rfl, rfl⟩ | ⟨-, hold⟩
    · exact hsend op hop
    · exact h.sendOp t e op hold hop
  dgramOp := h.dgramOp
  dgramSole := h.dgramSole
  guard := h.guard
  reads := h.reads
  mapped := h.mapped
  posted := h.posted
  transportId t e hlook := by
    rcases lookup_insert_some hlook with ⟨rfl, -⟩ | ⟨-, hold⟩
    · exact hid
    · exact h.transportId t e hold
  datagramId := h.datagramId
  recvId := h.recvId
  dgramRecvId := h.dgramRecvId

/-- An entry written over that keeps its operations, or cancels its receive as it closes; its slot
goes only when no receive is posted. -/
theorem touch (h : Wired net) (hlook : net.transports.lookup tid = some entry)
    (hslot : entry'.recvSlot = entry.recvSlot ∨ (entry'.recvSlot = none ∧ entry'.recvOp = none))
    (hop : entry'.recvOp = entry.recvOp ∨ (entry'.recvOp = none ∧ entry'.discards = true))
    (hsend : entry'.sendOp = entry.sendOp)
    (hdiscards : entry.discards = true → entry'.discards = true)
    (hlingers : entry'.lingering = true → entry'.closing = true) :
    Wired (net.setTransport tid entry') := by
  refine h.setTransport (h.transportId tid entry hlook) (fun op hsome => ?_)
    (fun op slot hmap hreads => ?_) (fun op t slot hmap hsome => ?_) hlingers fun op hsome => ?_
  · rcases hslot with hslot | ⟨-, hnone⟩
    · rcases hop with hop | ⟨hnone, -⟩
      · rw [hslot]
        exact h.recvOp tid entry op hlook (hop ▸ hsome)
      · rw [hnone] at hsome
        cases hsome
    · rw [hnone] at hsome
      cases hsome
  · have hold : entry.discards = false := by
      cases hd : entry.discards with
      | false => rfl
      | true => rw [hdiscards hd] at hreads; cases hreads
    rcases hop with hop | ⟨-, hgone⟩
    · rw [hop]
      exact h.sole op tid slot entry hmap hlook hold
    · rw [hgone] at hreads
      cases hreads
  · rcases hslot with hslot | ⟨hnone, -⟩
    · exact h.lender op t slot tid entry hmap hlook (hslot ▸ hsome)
    · rw [hnone] at hsome
      cases hsome
  · exact h.sendOp tid entry op hlook (hsend ▸ hsome)

theorem addTransport (h : Wired net) (hrecv : entry.recvOp = none) (hslot : entry.recvSlot = none)
    (hlingers : entry.lingering = true → entry.closing = true) (hsend : entry.sendOp = none) :
    Wired ({ net with nextId := net.nextId + 1 }.setTransport (net.nextId + 1) entry) := by
  have hnext : Wired { net with nextId := net.nextId + 1 } :=
    ⟨h.recvOp, h.sole, h.lender, h.lingers, h.sendOp, h.dgramOp, h.dgramSole, h.guard, h.reads,
      h.mapped, h.posted, fun t e hlook => Nat.le_succ_of_le (h.transportId t e hlook),
      fun d e hlook => Nat.le_succ_of_le (h.datagramId d e hlook),
      fun op t slot hop => Nat.le_succ_of_le (h.recvId op t slot hop),
      fun op d hop => Nat.le_succ_of_le (h.dgramRecvId op d hop)⟩
  refine hnext.setTransport (Nat.le_refl _) (fun op hsome => ?_) (fun op slot hmap _ => ?_)
    (fun op t slot _ hsome => ?_) hlingers fun op hsome => ?_
  · rw [hrecv] at hsome
    cases hsome
  · exact absurd (h.recvId op _ slot hmap) (Nat.not_succ_le_self _)
  · rw [hslot] at hsome
    cases hsome
  · rw [hsend] at hsome
    cases hsome

theorem eraseTransport (h : Wired net) (tid : Nat) :
    Wired { net with transports := net.transports.erase tid } where
  recvOp t e op hlook := h.recvOp t e op (lookup_erase_some hlook).2
  sole op t slot e hop hlook := h.sole op t slot e hop (lookup_erase_some hlook).2
  lender op t slot t' e hop hlook := h.lender op t slot t' e hop (lookup_erase_some hlook).2
  lingers t e hlook := h.lingers t e (lookup_erase_some hlook).2
  sendOp t e op hlook := h.sendOp t e op (lookup_erase_some hlook).2
  dgramOp := h.dgramOp
  dgramSole := h.dgramSole
  guard := h.guard
  reads := h.reads
  mapped := h.mapped
  posted := h.posted
  transportId t e hlook := h.transportId t e (lookup_erase_some hlook).2
  datagramId := h.datagramId
  recvId := h.recvId
  dgramRecvId := h.dgramRecvId

/-- A send's buffers guarded: its operation is no receive. -/
theorem guardWrites (h : Wired net) {op : Nat} (hop : net.ops.lookup op = some (.send tid)) :
    Wired { net with reapGuards := net.reapGuards.insert op .writes } where
  recvOp := h.recvOp
  sole := h.sole
  lender := h.lender
  lingers := h.lingers
  sendOp := h.sendOp
  dgramOp := h.dgramOp
  dgramSole := h.dgramSole
  guard op' slot hlook := by
    rcases lookup_insert_some hlook with ⟨-, hg⟩ | ⟨-, hold⟩
    · cases hg
    · exact h.guard op' slot hold
  reads op' slot hposted := by
    rcases h.reads op' slot hposted with hrecv | ⟨did, hmap, hguard⟩
    · exact .inl hrecv
    · refine .inr ⟨did, hmap, fun hnone => ?_⟩
      have hne : op' ≠ op := by
        rintro rfl
        rw [hop] at hmap
        cases hmap
      rw [lookup_insert_ite, if_neg hne]
      exact hguard hnone
  mapped := h.mapped
  posted := h.posted
  transportId := h.transportId
  datagramId := h.datagramId
  recvId := h.recvId
  dgramRecvId := h.dgramRecvId

end Transports

section Datagrams

variable {did : Nat} {entry entry' : DatagramEntry}

/-- An endpoint written over with its receive as it was; a slot with no receive may go or come. -/
theorem touchDatagram (h : Wired net) (hlook : net.datagrams.lookup did = some entry)
    (hop : entry'.recvOp = entry.recvOp)
    (hslot : entry'.recvSlot = entry.recvSlot ∨ entry'.recvOp = none) :
    Wired (net.setDatagram did entry') where
  recvOp := h.recvOp
  sole := h.sole
  lender := h.lender
  lingers := h.lingers
  sendOp := h.sendOp
  dgramOp d e op hlook' hsome := by
    rcases lookup_insert_some hlook' with ⟨rfl, rfl⟩ | ⟨-, hold⟩
    · rcases hslot with hslot | hnone
      · rw [hslot]
        exact h.dgramOp d entry op hlook (hop ▸ hsome)
      · rw [hnone] at hsome
        cases hsome
    · exact h.dgramOp d e op hold hsome
  dgramSole op d e hmap hlook' := by
    rcases lookup_insert_some hlook' with ⟨rfl, rfl⟩ | ⟨-, hold⟩
    · rw [hop]
      exact h.dgramSole op d entry hmap hlook
    · exact h.dgramSole op d e hmap hold
  guard op slot hguard := by
    obtain ⟨hposted, d, hmap, hnone⟩ := h.guard op slot hguard
    refine ⟨hposted, d, hmap, ?_⟩
    have hne : d ≠ did := by
      rintro rfl
      rw [hlook] at hnone
      cases hnone
    show (net.datagrams.insert did entry').lookup d = none
    rw [lookup_insert_ite, if_neg hne]
    exact hnone
  reads op slot hposted := by
    rcases h.reads op slot hposted with hrecv | ⟨d, hmap, hguard⟩
    · exact .inl hrecv
    · refine .inr ⟨d, hmap, fun hnone => hguard ?_⟩
      have hnone : (net.datagrams.insert did entry').lookup d = none := hnone
      rw [lookup_insert_ite] at hnone
      split at hnone
      · cases hnone
      · exact hnone
  mapped := h.mapped
  posted := h.posted
  transportId := h.transportId
  datagramId d e hlook' := by
    rcases lookup_insert_some hlook' with ⟨rfl, -⟩ | ⟨-, hold⟩
    · exact h.datagramId d entry hlook
    · exact h.datagramId d e hold
  recvId := h.recvId
  dgramRecvId := h.dgramRecvId

theorem addDatagram (h : Wired net) (hrecv : entry.recvOp = none) :
    Wired ({ net with nextId := net.nextId + 1 }.setDatagram (net.nextId + 1) entry) where
  recvOp := h.recvOp
  sole := h.sole
  lender := h.lender
  lingers := h.lingers
  sendOp := h.sendOp
  dgramOp d e op hlook hsome := by
    rcases lookup_insert_some hlook with ⟨rfl, rfl⟩ | ⟨-, hold⟩
    · rw [hrecv] at hsome
      cases hsome
    · exact h.dgramOp d e op hold hsome
  dgramSole op d e hmap hlook := by
    rcases lookup_insert_some hlook with ⟨rfl, rfl⟩ | ⟨-, hold⟩
    · exact absurd (h.dgramRecvId op _ hmap) (Nat.not_succ_le_self _)
    · exact h.dgramSole op d e hmap hold
  guard op slot hguard := by
    obtain ⟨hposted, d, hmap, hnone⟩ := h.guard op slot hguard
    refine ⟨hposted, d, hmap, ?_⟩
    have hne : d ≠ net.nextId + 1 := by
      have hle := h.dgramRecvId op d hmap
      omega
    show (net.datagrams.insert _ entry).lookup d = none
    rw [lookup_insert_ite, if_neg hne]
    exact hnone
  reads op slot hposted := by
    rcases h.reads op slot hposted with hrecv | ⟨d, hmap, hguard⟩
    · exact .inl hrecv
    · refine .inr ⟨d, hmap, fun hnone => hguard ?_⟩
      have hnone : (net.datagrams.insert (net.nextId + 1) entry).lookup d = none := hnone
      rw [lookup_insert_ite] at hnone
      split at hnone
      · cases hnone
      · exact hnone
  mapped := h.mapped
  posted := h.posted
  transportId t e hlook := Nat.le_succ_of_le (h.transportId t e hlook)
  datagramId d e hlook := by
    rcases lookup_insert_some hlook with ⟨rfl, -⟩ | ⟨-, hold⟩
    · exact Nat.le_refl _
    · exact Nat.le_succ_of_le (h.datagramId d e hold)
  recvId op t slot hop := Nat.le_succ_of_le (h.recvId op t slot hop)
  dgramRecvId op d hop := Nat.le_succ_of_le (h.dgramRecvId op d hop)

/-- An endpoint gone that had no receive posted. -/
theorem eraseDatagram (h : Wired net) (hlook : net.datagrams.lookup did = some entry)
    (hnone : entry.recvOp = none) :
    Wired { net with datagrams := net.datagrams.erase did } where
  recvOp := h.recvOp
  sole := h.sole
  lender := h.lender
  lingers := h.lingers
  sendOp := h.sendOp
  dgramOp d e op hlook' := h.dgramOp d e op (lookup_erase_some hlook').2
  dgramSole op d e hmap hlook' := h.dgramSole op d e hmap (lookup_erase_some hlook').2
  guard op slot hguard := by
    obtain ⟨hposted, d, hmap, hgone⟩ := h.guard op slot hguard
    refine ⟨hposted, d, hmap, ?_⟩
    show (net.datagrams.erase did).lookup d = none
    rw [lookup_erase_ite, hgone, ite_self]
  reads op slot hposted := by
    rcases h.reads op slot hposted with hrecv | ⟨d, hmap, hguard⟩
    · exact .inl hrecv
    · refine .inr ⟨d, hmap, fun hgone => hguard ?_⟩
      have hne : d ≠ did := by
        rintro rfl
        have hsome := h.dgramSole op d entry hmap hlook
        rw [hnone] at hsome
        cases hsome
      rw [← AList.lookup_erase_ne hne]
      exact hgone
  mapped := h.mapped
  posted := h.posted
  transportId := h.transportId
  datagramId d e hlook' := h.datagramId d e (lookup_erase_some hlook').2
  recvId := h.recvId
  dgramRecvId := h.dgramRecvId

/-- An endpoint gone whose receive is posted: the guard takes the slot. -/
theorem guardDatagram (h : Wired net) (hlook : net.datagrams.lookup did = some entry) {op : Nat}
    {slot : SlotId} (hop : entry.recvOp = some op) (hslot : entry.recvSlot = some slot) :
    Wired { net with
      datagrams := net.datagrams.erase did, reapGuards := net.reapGuards.insert op (.slot slot) } := by
  obtain ⟨slot', hslot', hmap, hposted⟩ := h.dgramOp did entry op hlook hop
  have heq : slot = slot' := by
    rw [hslot] at hslot'
    exact Option.some.inj hslot'
  subst heq
  exact {
    recvOp := h.recvOp
    sole := h.sole
    lender := h.lender
    lingers := h.lingers
    sendOp := h.sendOp
    dgramOp := fun d e op' hlook' => h.dgramOp d e op' (lookup_erase_some hlook').2
    dgramSole := fun op' d e hmap' hlook' => h.dgramSole op' d e hmap' (lookup_erase_some hlook').2
    guard := by
      intro op' slot' hguard
      rcases lookup_insert_some hguard with ⟨rfl, heq⟩ | ⟨-, hold⟩
      · injection heq with heq
        rw [heq]
        exact ⟨hposted, did, hmap, AList.lookup_erase _ _⟩
      · obtain ⟨hposted', d, hmap', hgone⟩ := h.guard op' slot' hold
        refine ⟨hposted', d, hmap', ?_⟩
        show (net.datagrams.erase did).lookup d = none
        rw [lookup_erase_ite, hgone, ite_self]
    reads := by
      intro op' slot' hposted'
      rcases h.reads op' slot' hposted' with hrecv | ⟨d, hmap', hguard⟩
      · exact .inl hrecv
      · refine .inr ⟨d, hmap', fun hgone => ?_⟩
        show (net.reapGuards.insert op (.slot slot)).lookup op' = _
        rw [lookup_insert_ite]
        split
        · rename_i heq
          rw [heq, hposted] at hposted'
          injection hposted' with hposted'
          injection hposted' with hposted'
          rw [hposted']
        · rename_i hne
          refine hguard ?_
          have hd : d ≠ did := by
            rintro rfl
            have hsome := h.dgramSole op' d entry hmap' hlook
            rw [hop] at hsome
            exact hne (Option.some.inj hsome).symm
          rw [← AList.lookup_erase_ne hd]
          exact hgone
    mapped := h.mapped
    posted := h.posted
    transportId := h.transportId
    datagramId := fun d e hlook' => h.datagramId d e (lookup_erase_some hlook').2
    recvId := h.recvId
    dgramRecvId := h.dgramRecvId }

end Datagrams

section Operations

variable {op : Nat} {target : OpTarget} {buffer : Option SlotId}

theorem post_ops (hunmapped : net.ops.lookup op = none) {op' : Nat} {target' : OpTarget}
    (hold : net.ops.lookup op' = some target') :
    (net.post op target buffer).ops.lookup op' = some target' := by
  show (net.ops.insert op target).lookup op' = some target'
  rw [lookup_insert_ite, if_neg, hold]
  rintro rfl
  rw [hunmapped] at hold
  cases hold

theorem post_posted (hfresh : net.posted.lookup op = none) {op' : Nat} {buffer' : Option SlotId}
    (hold : net.posted.lookup op' = some buffer') :
    (net.post op target buffer).posted.lookup op' = some buffer' := by
  show (net.posted.insert op buffer).lookup op' = some buffer'
  rw [lookup_insert_ite, if_neg, hold]
  rintro rfl
  rw [hfresh] at hold
  cases hold

/-- What is mapped is posted, the new operation included. -/
theorem posted_post (h : Wired net) {op' : Nat} {target' : OpTarget}
    (hmap : (net.post op target buffer).ops.lookup op' = some target') :
    (net.post op target buffer).posted.lookup op' ≠ none := by
  show (net.posted.insert op buffer).lookup op' ≠ none
  rw [lookup_insert_ite]
  split
  · simp
  · rcases lookup_insert_some hmap with ⟨heq, -⟩ | ⟨-, hold⟩
    · exact absurd heq ‹_›
    · exact h.posted op' target' hold

/-- An operation that is no receive. -/
theorem post (h : Wired net) (hfresh : net.posted.lookup op = none)
    (hrecv : ∀ tid slot, target ≠ .recv tid slot) (hdgram : ∀ did, target ≠ .dgramRecv did) :
    Wired (net.post op target none) := by
  have hnone := h.fresh hfresh
  have hkept : ∀ {op' target'}, net.ops.lookup op' = some target' →
      (net.post op target none).ops.lookup op' = some target' := post_ops hnone
  exact {
    recvOp := by
      intro t e op' hlook hop
      obtain ⟨slot, hslot, hmap⟩ := h.recvOp t e op' hlook hop
      exact ⟨slot, hslot, hkept hmap⟩
    sole := by
      intro op' t slot e hmap
      rcases lookup_insert_some hmap with ⟨-, heq⟩ | ⟨-, hold⟩
      · exact absurd heq.symm (hrecv t slot)
      · exact h.sole op' t slot e hold
    lender := by
      intro op' t slot t' e hmap
      rcases lookup_insert_some hmap with ⟨-, heq⟩ | ⟨-, hold⟩
      · exact absurd heq.symm (hrecv t slot)
      · exact h.lender op' t slot t' e hold
    lingers := h.lingers
    sendOp := fun t e op' hlook hop => hkept (h.sendOp t e op' hlook hop)
    dgramOp := by
      intro d e op' hlook hop
      obtain ⟨slot, hslot, hmap, hposted⟩ := h.dgramOp d e op' hlook hop
      exact ⟨slot, hslot, hkept hmap, post_posted hfresh hposted⟩
    dgramSole := by
      intro op' d e hmap
      rcases lookup_insert_some hmap with ⟨-, heq⟩ | ⟨-, hold⟩
      · exact absurd heq.symm (hdgram d)
      · exact h.dgramSole op' d e hold
    guard := by
      intro op' slot hguard
      obtain ⟨hposted, d, hmap, hgone⟩ := h.guard op' slot hguard
      exact ⟨post_posted hfresh hposted, d, hkept hmap, hgone⟩
    reads := by
      intro op' slot hposted
      rcases lookup_insert_some hposted with ⟨-, heq⟩ | ⟨-, hold⟩
      · cases heq
      · rcases h.reads op' slot hold with ⟨t, hmap⟩ | ⟨d, hmap, hguard⟩
        · exact .inl ⟨t, hkept hmap⟩
        · exact .inr ⟨d, hkept hmap, hguard⟩
    mapped := by
      intro op' t slot hmap
      rcases lookup_insert_some hmap with ⟨-, heq⟩ | ⟨-, hold⟩
      · exact absurd heq.symm (hrecv t slot)
      · exact post_posted hfresh (h.mapped op' t slot hold)
    posted := fun op' target' hmap => h.posted_post hmap
    transportId := h.transportId
    datagramId := h.datagramId
    recvId := by
      intro op' t slot hmap
      rcases lookup_insert_some hmap with ⟨-, heq⟩ | ⟨-, hold⟩
      · exact absurd heq.symm (hrecv t slot)
      · exact h.recvId op' t slot hold
    dgramRecvId := by
      intro op' d hmap
      rcases lookup_insert_some hmap with ⟨-, heq⟩ | ⟨-, hold⟩
      · exact absurd heq.symm (hdgram d)
      · exact h.dgramRecvId op' d hold }

theorem postSend (h : Wired net) (hfresh : net.posted.lookup op = none) {tid : Nat}
    {entry : TransportEntry} (hlook : net.transports.lookup tid = some entry) :
    Wired ((net.setTransport tid { entry with sendOp := some op }).post op (.send tid) none) := by
  have hposted : Wired (net.post op (.send tid) none) :=
    h.post hfresh (fun _ _ => by simp) fun _ => by simp
  show Wired ((net.post op (.send tid) none).setTransport tid { entry with sendOp := some op })
  refine hposted.setTransport (h.transportId tid entry hlook) (fun op' hsome => ?_)
    (fun op' slot hmap hreads => ?_) (fun op' t slot hmap hsome => ?_)
    (hposted.lingers tid entry hlook) fun op' hsome => ?_
  · exact hposted.recvOp tid entry op' hlook hsome
  · exact hposted.sole op' tid slot entry hmap hlook hreads
  · exact hposted.lender op' t slot tid entry hmap hlook hsome
  · injection hsome with hsome
    rw [← hsome]
    exact AList.lookup_insert _

theorem postDgramSend (h : Wired net) (hfresh : net.posted.lookup op = none) {did : Nat}
    {entry : DatagramEntry} (hlook : net.datagrams.lookup did = some entry) :
    Wired ((net.setDatagram did { entry with sendOp := some op }).post op (.dgramSend did) none) := by
  have hposted : Wired (net.post op (.dgramSend did) none) :=
    h.post hfresh (fun _ _ => by simp) fun _ => by simp
  have hset : Wired ((net.post op (.dgramSend did) none).setDatagram did
      { entry with sendOp := some op }) := hposted.touchDatagram hlook rfl (.inl rfl)
  exact hset

/-- A receive posted into the slot of an entry that has none posted. -/
theorem postRecv (h : Wired net) (hfresh : net.posted.lookup op = none) {tid : Nat}
    {entry : TransportEntry} {slot : SlotId} (hlook : net.transports.lookup tid = some entry)
    (hslot : entry.recvSlot = some slot) (hnone : entry.recvOp = none)
    (hreads : entry.discards = false)
    (honly : ∀ t e, net.transports.lookup t = some e → e.recvSlot = some slot → t = tid) :
    Wired ((net.setTransport tid { entry with recvOp := some op }).post op (.recv tid slot) slot) := by
  have hunmapped := h.fresh hfresh
  have hkept : ∀ {op' target}, net.ops.lookup op' = some target →
      (net.post op (.recv tid slot) slot).ops.lookup op' = some target := post_ops hunmapped
  have hstill : ∀ {op' buffer}, net.posted.lookup op' = some buffer →
      (net.post op (.recv tid slot) slot).posted.lookup op' = some buffer := post_posted hfresh
  exact {
    recvOp := by
      intro t e op' hlook' hop
      rcases lookup_insert_some hlook' with ⟨rfl, rfl⟩ | ⟨-, hold⟩
      · injection hop with hop
        exact ⟨slot, hslot, by rw [← hop]; exact AList.lookup_insert _⟩
      · obtain ⟨slot', hslot', hmap⟩ := h.recvOp t e op' hold hop
        exact ⟨slot', hslot', hkept hmap⟩
    sole := by
      intro op' t slot' e hmap hlook' hreads'
      rcases lookup_insert_some hmap with ⟨rfl, heq⟩ | ⟨-, hold⟩
      · injection heq with ht _
        rcases lookup_insert_some hlook' with ⟨-, rfl⟩ | ⟨hne, -⟩
        · rfl
        · exact absurd ht hne
      · rcases lookup_insert_some hlook' with ⟨rfl, rfl⟩ | ⟨-, hlook'⟩
        · have hsome := h.sole op' t slot' entry hold hlook hreads
          rw [hnone] at hsome
          cases hsome
        · exact h.sole op' t slot' e hold hlook' hreads'
    lender := by
      intro op' t slot' t' e hmap hlook' hslot'
      rcases lookup_insert_some hmap with ⟨-, heq⟩ | ⟨-, hold⟩
      · injection heq with ht hs
        rw [ht]
        rcases lookup_insert_some hlook' with ⟨rfl, -⟩ | ⟨-, hlook'⟩
        · rfl
        · exact (honly t' e hlook' (hs ▸ hslot')).symm
      · rcases lookup_insert_some hlook' with ⟨rfl, rfl⟩ | ⟨-, hlook'⟩
        · exact h.lender op' t slot' t' entry hold hlook hslot'
        · exact h.lender op' t slot' t' e hold hlook' hslot'
    lingers := by
      intro t e hlook'
      rcases lookup_insert_some hlook' with ⟨rfl, rfl⟩ | ⟨-, hold⟩
      · exact h.lingers t entry hlook
      · exact h.lingers t e hold
    sendOp := by
      intro t e op' hlook' hop
      rcases lookup_insert_some hlook' with ⟨rfl, rfl⟩ | ⟨-, hold⟩
      · exact hkept (h.sendOp t entry op' hlook hop)
      · exact hkept (h.sendOp t e op' hold hop)
    dgramOp := by
      intro d e op' hlook' hop
      obtain ⟨slot', hslot', hmap, hposted⟩ := h.dgramOp d e op' hlook' hop
      exact ⟨slot', hslot', hkept hmap, hstill hposted⟩
    dgramSole := by
      intro op' d e hmap
      rcases lookup_insert_some hmap with ⟨-, heq⟩ | ⟨-, hold⟩
      · cases heq
      · exact h.dgramSole op' d e hold
    guard := by
      intro op' slot' hguard
      obtain ⟨hposted, d, hmap, hgone⟩ := h.guard op' slot' hguard
      exact ⟨hstill hposted, d, hkept hmap, hgone⟩
    reads := by
      intro op' slot' hposted
      rcases lookup_insert_some hposted with ⟨rfl, heq⟩ | ⟨-, hold⟩
      · injection heq with heq
        rw [heq]
        exact .inl ⟨tid, AList.lookup_insert _⟩
      · rcases h.reads op' slot' hold with ⟨t, hmap⟩ | ⟨d, hmap, hguard⟩
        · exact .inl ⟨t, hkept hmap⟩
        · exact .inr ⟨d, hkept hmap, hguard⟩
    mapped := by
      intro op' t slot' hmap
      rcases lookup_insert_some hmap with ⟨rfl, heq⟩ | ⟨-, hold⟩
      · injection heq with _ hs
        rw [hs]
        exact AList.lookup_insert _
      · exact hstill (h.mapped op' t slot' hold)
    posted := fun op' target' hmap => h.posted_post hmap
    transportId := by
      intro t e hlook'
      rcases lookup_insert_some hlook' with ⟨rfl, -⟩ | ⟨-, hold⟩
      · exact h.transportId t entry hlook
      · exact h.transportId t e hold
    datagramId := h.datagramId
    recvId := by
      intro op' t slot' hmap
      rcases lookup_insert_some hmap with ⟨-, heq⟩ | ⟨-, hold⟩
      · injection heq with ht _
        rw [ht]
        exact h.transportId tid entry hlook
      · exact h.recvId op' t slot' hold
    dgramRecvId := by
      intro op' d hmap
      rcases lookup_insert_some hmap with ⟨-, heq⟩ | ⟨-, hold⟩
      · cases heq
      · exact h.dgramRecvId op' d hold }

/-- The same of an endpoint. -/
theorem postDgramRecv (h : Wired net) (hfresh : net.posted.lookup op = none) {did : Nat}
    {entry : DatagramEntry} {slot : SlotId} (hlook : net.datagrams.lookup did = some entry)
    (hnone : entry.recvOp = none) :
    Wired ((net.setDatagram did { entry with recvSlot := some slot, recvOp := some op }).post op
      (.dgramRecv did) slot) := by
  have hunmapped := h.fresh hfresh
  have hkept : ∀ {op' target}, net.ops.lookup op' = some target →
      (net.post op (.dgramRecv did) slot).ops.lookup op' = some target := post_ops hunmapped
  have hstill : ∀ {op' buffer}, net.posted.lookup op' = some buffer →
      (net.post op (.dgramRecv did) slot).posted.lookup op' = some buffer := post_posted hfresh
  have hgone : ∀ {d}, (net.datagrams.insert did
      { entry with recvSlot := some slot, recvOp := some op }).lookup d = none →
        net.datagrams.lookup d = none := by
    intro d hnone
    rw [lookup_insert_ite] at hnone
    split at hnone
    · cases hnone
    · exact hnone
  exact {
    recvOp := by
      intro t e op' hlook' hop
      obtain ⟨slot', hslot', hmap⟩ := h.recvOp t e op' hlook' hop
      exact ⟨slot', hslot', hkept hmap⟩
    sole := by
      intro op' t slot' e hmap
      rcases lookup_insert_some hmap with ⟨-, heq⟩ | ⟨-, hold⟩
      · cases heq
      · exact h.sole op' t slot' e hold
    lender := by
      intro op' t slot' t' e hmap
      rcases lookup_insert_some hmap with ⟨-, heq⟩ | ⟨-, hold⟩
      · cases heq
      · exact h.lender op' t slot' t' e hold
    lingers := h.lingers
    sendOp := fun t e op' hlook' hop => hkept (h.sendOp t e op' hlook' hop)
    dgramOp := by
      intro d e op' hlook' hop
      rcases lookup_insert_some hlook' with ⟨rfl, rfl⟩ | ⟨-, hold⟩
      · injection hop with hop
        rw [← hop]
        exact ⟨slot, rfl, AList.lookup_insert _, AList.lookup_insert _⟩
      · obtain ⟨slot', hslot', hmap, hposted⟩ := h.dgramOp d e op' hold hop
        exact ⟨slot', hslot', hkept hmap, hstill hposted⟩
    dgramSole := by
      intro op' d e hmap hlook'
      rcases lookup_insert_some hmap with ⟨rfl, heq⟩ | ⟨-, hold⟩
      · injection heq with hd
        rcases lookup_insert_some hlook' with ⟨-, rfl⟩ | ⟨hne, -⟩
        · rfl
        · exact absurd hd hne
      · rcases lookup_insert_some hlook' with ⟨rfl, rfl⟩ | ⟨-, hlook'⟩
        · have hsome := h.dgramSole op' d entry hold hlook
          rw [hnone] at hsome
          cases hsome
        · exact h.dgramSole op' d e hold hlook'
    guard := by
      intro op' slot' hguard
      obtain ⟨hposted, d, hmap, hlost⟩ := h.guard op' slot' hguard
      refine ⟨hstill hposted, d, hkept hmap, ?_⟩
      have hne : d ≠ did := by
        rintro rfl
        rw [hlook] at hlost
        cases hlost
      show (net.datagrams.insert did _).lookup d = none
      rw [lookup_insert_ite, if_neg hne]
      exact hlost
    reads := by
      intro op' slot' hposted
      rcases lookup_insert_some hposted with ⟨rfl, -⟩ | ⟨-, hold⟩
      · refine .inr ⟨did, AList.lookup_insert _, fun hnone => ?_⟩
        rw [hgone hnone] at hlook
        cases hlook
      · rcases h.reads op' slot' hold with ⟨t, hmap⟩ | ⟨d, hmap, hguard⟩
        · exact .inl ⟨t, hkept hmap⟩
        · exact .inr ⟨d, hkept hmap, fun hnone => hguard (hgone hnone)⟩
    mapped := by
      intro op' t slot' hmap
      rcases lookup_insert_some hmap with ⟨-, heq⟩ | ⟨-, hold⟩
      · cases heq
      · exact hstill (h.mapped op' t slot' hold)
    posted := fun op' target' hmap => h.posted_post hmap
    transportId := h.transportId
    datagramId := by
      intro d e hlook'
      rcases lookup_insert_some hlook' with ⟨rfl, -⟩ | ⟨-, hold⟩
      · exact h.datagramId d entry hlook
      · exact h.datagramId d e hold
    recvId := by
      intro op' t slot' hmap
      rcases lookup_insert_some hmap with ⟨-, heq⟩ | ⟨-, hold⟩
      · cases heq
      · exact h.recvId op' t slot' hold
    dgramRecvId := by
      intro op' d hmap
      rcases lookup_insert_some hmap with ⟨-, heq⟩ | ⟨-, hold⟩
      · injection heq with hd
        rw [hd]
        exact h.datagramId did entry hlook
      · exact h.dgramRecvId op' d hold }

end Operations

end Wired

/-! ## 4. An operation reported -/

/-- An entry that has forgotten an operation, and nothing else of its receive. -/
structure Forgets (op : Nat) (entry entry' : TransportEntry) : Prop where
  slot : entry'.recvSlot = entry.recvSlot
  closing : entry'.closing = entry.closing
  lingering : entry'.lingering = entry.lingering
  recvOp : ∀ op', entry'.recvOp = some op' ↔ entry.recvOp = some op' ∧ op' ≠ op
  sendOp : ∀ op', entry'.sendOp = some op' → entry.sendOp = some op' ∧ op' ≠ op

structure ForgetsDgram (op : Nat) (entry entry' : DatagramEntry) : Prop where
  slot : entry'.recvSlot = entry.recvSlot
  recvOp : ∀ op', entry'.recvOp = some op' ↔ entry.recvOp = some op' ∧ op' ≠ op

/-- An operation out of every table; entries may know of it yet. -/
structure Lifted (op : Nat) (net net' : Net) : Prop where
  ops : net'.ops = net.ops.erase op
  posted : net'.posted = net.posted.erase op
  guards : net'.reapGuards = net.reapGuards.erase op
  nextId : net'.nextId = net.nextId
  transports : net'.transports = net.transports
  datagrams : net'.datagrams = net.datagrams

/-- It is forgotten by every entry, too. -/
structure Reaped (op : Nat) (net net' : Net) : Prop where
  ops : net'.ops = net.ops.erase op
  posted : net'.posted = net.posted.erase op
  guards : net'.reapGuards = net.reapGuards.erase op
  nextId : net'.nextId = net.nextId
  transports : ∀ tid entry', net'.transports.lookup tid = some entry' →
    ∃ entry, net.transports.lookup tid = some entry ∧ Forgets op entry entry'
  datagrams : ∀ did entry', net'.datagrams.lookup did = some entry' →
    ∃ entry, net.datagrams.lookup did = some entry ∧ ForgetsDgram op entry entry'
  gone : ∀ did, net'.datagrams.lookup did = none ↔ net.datagrams.lookup did = none

theorem Forgets.discards {op : Nat} {entry entry' : TransportEntry} (h : Forgets op entry entry') :
    entry'.discards = entry.discards := by
  rw [TransportEntry.discards, TransportEntry.discards, h.closing, h.lingering]

theorem Forgets.self {op : Nat} {entry : TransportEntry} (hrecv : entry.recvOp ≠ some op)
    (hsend : entry.sendOp ≠ some op) : Forgets op entry entry := by
  refine ⟨rfl, rfl, rfl, fun op' => ⟨fun h => ⟨h, ?_⟩, And.left⟩, fun op' h => ⟨h, ?_⟩⟩
  · rintro rfl
    exact hrecv h
  · rintro rfl
    exact hsend h

theorem ForgetsDgram.self {op : Nat} {entry : DatagramEntry} (hrecv : entry.recvOp ≠ some op) :
    ForgetsDgram op entry entry := by
  refine ⟨rfl, fun op' => ⟨fun h => ⟨h, ?_⟩, And.left⟩⟩
  rintro rfl
  exact hrecv h

namespace Wired

variable {net net' : Net} {op : Nat}

theorem reap (h : Wired net) (hr : Reaped op net net') : Wired net' where
  recvOp t e' op' hlook hop := by
    obtain ⟨e, hold, hf⟩ := hr.transports t e' hlook
    obtain ⟨hop, hne⟩ := (hf.recvOp op').mp hop
    obtain ⟨slot, hslot, hmap⟩ := h.recvOp t e op' hold hop
    exact ⟨slot, by rw [hf.slot, hslot], by rw [hr.ops, lookup_erase_ite, if_neg hne, hmap]⟩
  sole op' t slot e' hmap hlook hreads := by
    rw [hr.ops] at hmap
    obtain ⟨hne, hmap⟩ := lookup_erase_some hmap
    obtain ⟨e, hold, hf⟩ := hr.transports t e' hlook
    exact (hf.recvOp op').mpr ⟨h.sole op' t slot e hmap hold (by rw [← hf.discards, hreads]), hne⟩
  lender op' t slot t' e' hmap hlook hslot := by
    rw [hr.ops] at hmap
    obtain ⟨e, hold, hf⟩ := hr.transports t' e' hlook
    exact h.lender op' t slot t' e (lookup_erase_some hmap).2 hold (by rw [← hf.slot, hslot])
  lingers t e' hlook := by
    obtain ⟨e, hold, hf⟩ := hr.transports t e' hlook
    rw [hf.closing, hf.lingering]
    exact h.lingers t e hold
  sendOp t e' op' hlook hop := by
    obtain ⟨e, hold, hf⟩ := hr.transports t e' hlook
    obtain ⟨hop, hne⟩ := hf.sendOp op' hop
    rw [hr.ops, lookup_erase_ite, if_neg hne]
    exact h.sendOp t e op' hold hop
  dgramOp d e' op' hlook hop := by
    obtain ⟨e, hold, hf⟩ := hr.datagrams d e' hlook
    obtain ⟨hop, hne⟩ := (hf.recvOp op').mp hop
    obtain ⟨slot, hslot, hmap, hposted⟩ := h.dgramOp d e op' hold hop
    exact ⟨slot, by rw [hf.slot, hslot], by rw [hr.ops, lookup_erase_ite, if_neg hne, hmap],
      by rw [hr.posted, lookup_erase_ite, if_neg hne, hposted]⟩
  dgramSole op' d e' hmap hlook := by
    rw [hr.ops] at hmap
    obtain ⟨hne, hmap⟩ := lookup_erase_some hmap
    obtain ⟨e, hold, hf⟩ := hr.datagrams d e' hlook
    exact (hf.recvOp op').mpr ⟨h.dgramSole op' d e hmap hold, hne⟩
  guard op' slot hguard := by
    rw [hr.guards] at hguard
    obtain ⟨hne, hguard⟩ := lookup_erase_some hguard
    obtain ⟨hposted, d, hmap, hgone⟩ := h.guard op' slot hguard
    exact ⟨by rw [hr.posted, lookup_erase_ite, if_neg hne, hposted], d,
      by rw [hr.ops, lookup_erase_ite, if_neg hne, hmap], (hr.gone d).mpr hgone⟩
  reads op' slot hposted := by
    rw [hr.posted] at hposted
    obtain ⟨hne, hposted⟩ := lookup_erase_some hposted
    rw [hr.ops, hr.guards, lookup_erase_ite, if_neg hne]
    rcases h.reads op' slot hposted with hrecv | ⟨d, hmap, hguard⟩
    · exact .inl hrecv
    · refine .inr ⟨d, hmap, fun hgone => ?_⟩
      rw [lookup_erase_ite, if_neg hne]
      exact hguard ((hr.gone d).mp hgone)
  mapped op' t slot hmap := by
    rw [hr.ops] at hmap
    obtain ⟨hne, hmap⟩ := lookup_erase_some hmap
    rw [hr.posted, lookup_erase_ite, if_neg hne]
    exact h.mapped op' t slot hmap
  posted op' target hmap := by
    rw [hr.ops] at hmap
    obtain ⟨hne, hmap⟩ := lookup_erase_some hmap
    rw [hr.posted, lookup_erase_ite, if_neg hne]
    exact h.posted op' target hmap
  transportId t e' hlook := by
    obtain ⟨e, hold, -⟩ := hr.transports t e' hlook
    rw [hr.nextId]
    exact h.transportId t e hold
  datagramId d e' hlook := by
    obtain ⟨e, hold, -⟩ := hr.datagrams d e' hlook
    rw [hr.nextId]
    exact h.datagramId d e hold
  recvId op' t slot hmap := by
    rw [hr.ops] at hmap
    rw [hr.nextId]
    exact h.recvId op' t slot (lookup_erase_some hmap).2
  dgramRecvId op' d hmap := by
    rw [hr.ops] at hmap
    rw [hr.nextId]
    exact h.dgramRecvId op' d (lookup_erase_some hmap).2

theorem recvOp_ne (h : Wired net) {tid : Nat} {entry : TransportEntry}
    (hlook : net.transports.lookup tid = some entry)
    (htarget : ∀ slot, net.ops.lookup op ≠ some (.recv tid slot)) : entry.recvOp ≠ some op := by
  intro hop
  obtain ⟨slot, -, hmap⟩ := h.recvOp tid entry op hlook hop
  exact htarget slot hmap

theorem sendOp_ne (h : Wired net) {tid : Nat} {entry : TransportEntry}
    (hlook : net.transports.lookup tid = some entry)
    (htarget : net.ops.lookup op ≠ some (.send tid)) : entry.sendOp ≠ some op :=
  fun hop => htarget (h.sendOp tid entry op hlook hop)

theorem dgramOp_ne (h : Wired net) {did : Nat} {entry : DatagramEntry}
    (hlook : net.datagrams.lookup did = some entry)
    (htarget : net.ops.lookup op ≠ some (.dgramRecv did)) : entry.recvOp ≠ some op := by
  intro hop
  obtain ⟨slot, -, hmap, -⟩ := h.dgramOp did entry op hlook hop
  exact htarget hmap

/-- No entry knows of the operation. -/
theorem lift (h : Wired net) (hl : Lifted op net net')
    (hrecv : ∀ tid entry slot, net.transports.lookup tid = some entry →
      net.ops.lookup op ≠ some (.recv tid slot))
    (hsend : ∀ tid entry, net.transports.lookup tid = some entry →
      net.ops.lookup op ≠ some (.send tid))
    (hdgram : ∀ did entry, net.datagrams.lookup did = some entry →
      net.ops.lookup op ≠ some (.dgramRecv did)) : Wired net' := by
  refine h.reap ⟨hl.ops, hl.posted, hl.guards, hl.nextId, fun tid entry hlook => ?_,
    fun did entry hlook => ?_, fun did => by rw [hl.datagrams]⟩
  · rw [hl.transports] at hlook
    exact ⟨entry, hlook, .self (h.recvOp_ne hlook fun slot => hrecv tid entry slot hlook)
      (h.sendOp_ne hlook (hsend tid entry hlook))⟩
  · rw [hl.datagrams] at hlook
    exact ⟨entry, hlook, .self (h.dgramOp_ne hlook (hdgram did entry hlook))⟩

/-- The one transport that knows of it forgets it. -/
theorem liftTransport (h : Wired net) (hl : Lifted op net net') {tid : Nat}
    {entry entry' : TransportEntry} (hlook : net.transports.lookup tid = some entry)
    (hforgets : Forgets op entry entry')
    (hrecv : ∀ t slot, t ≠ tid → net.ops.lookup op ≠ some (.recv t slot))
    (hsend : ∀ t, t ≠ tid → net.ops.lookup op ≠ some (.send t))
    (hdgram : ∀ did, net.ops.lookup op ≠ some (.dgramRecv did)) :
    Wired (net'.setTransport tid entry') := by
  refine h.reap ⟨hl.ops, hl.posted, hl.guards, hl.nextId, fun t e hlook' => ?_,
    fun did e hlook' => ?_, fun did => by rw [← hl.datagrams]; rfl⟩
  · rw [Net.setTransport, hl.transports] at hlook'
    rcases lookup_insert_some hlook' with ⟨rfl, rfl⟩ | ⟨hne, hold⟩
    · exact ⟨entry, hlook, hforgets⟩
    · exact ⟨e, hold, .self (h.recvOp_ne hold fun slot => hrecv t slot hne)
        (h.sendOp_ne hold (hsend t hne))⟩
  · rw [show (net'.setTransport tid entry').datagrams = net.datagrams from hl.datagrams] at hlook'
    exact ⟨e, hlook', .self (h.dgramOp_ne hlook' (hdgram did))⟩

/-- The one endpoint that knows of it forgets it. -/
theorem liftDatagram (h : Wired net) (hl : Lifted op net net') {did : Nat}
    {entry entry' : DatagramEntry} (hlook : net.datagrams.lookup did = some entry)
    (hforgets : ForgetsDgram op entry entry') (hmap : net.ops.lookup op = some (.dgramRecv did)) :
    Wired (net'.setDatagram did entry') := by
  refine h.reap ⟨hl.ops, hl.posted, hl.guards, hl.nextId, fun t e hlook' => ?_,
    fun d e hlook' => ?_, fun d => ?_⟩
  · rw [show (net'.setDatagram did entry').transports = net.transports from hl.transports] at hlook'
    refine ⟨e, hlook', .self (h.recvOp_ne hlook' fun slot => ?_) (h.sendOp_ne hlook' ?_)⟩
    · rw [hmap]
      simp
    · rw [hmap]
      simp
  · rw [Net.setDatagram, hl.datagrams] at hlook'
    rcases lookup_insert_some hlook' with ⟨rfl, rfl⟩ | ⟨hne, hold⟩
    · exact ⟨entry, hlook, hforgets⟩
    · refine ⟨e, hold, .self (h.dgramOp_ne hold ?_)⟩
      rw [hmap]
      simpa using Ne.symm hne
  · rw [Net.setDatagram, hl.datagrams, lookup_insert_ite]
    split
    · rename_i heq
      rw [heq, hlook]
      simp
    · rfl

end Wired

end Cadeloop.Pyshim.RecvSlots
