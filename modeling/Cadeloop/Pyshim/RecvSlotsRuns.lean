import Cadeloop.Pyshim.RecvSlotsSteps

/-!
# Runs of the receive slots

Whatever the order of calls, completions and dispatches, the refcount of a slot is the number of its
holders, so that nothing is freed under the kernel and nothing is kept that nobody holds.  The one
step that loses references is the loop's end over a queued `BufData` event.
-/

namespace Cadeloop.Pyshim.RecvSlots

open Cadeloop.Core.Buffers
open Cadeloop.Reasoning (Table Machine)
open Cadeloop.Reasoning.Table (tally tally_pos tally_eq_zero lookup_insert_some lookup_erase_ite
  erase_none)

/-! ## 1. Completions -/

variable {net net' : Net} {a : Answers}

theorem reapGuard_lifted (a : Answers) (op : Nat) (net : Net) :
    Lifted op net ((reapGuard a op net).unmap op) := by
  unfold reapGuard
  dsimp only
  split <;> exact ⟨rfl, rfl, rfl, rfl, rfl, rfl⟩

theorem reapGuard_same (a : Answers) (op : Nat) (net : Net) :
    (reapGuard a op net).ops = net.ops ∧ (reapGuard a op net).parsing = net.parsing ∧
      (reapGuard a op net).events = net.events := by
  unfold reapGuard
  dsimp only
  split <;> exact ⟨rfl, rfl, rfl⟩

theorem reapGuard_ready {op : Nat} (h : Ready a { net with posted := net.posted.erase op }) :
    Ready a (reapGuard a op net) := by
  unfold reapGuard
  dsimp only
  have hbase : Ready a { net with
      posted := net.posted.erase op, reapGuards := net.reapGuards.erase op } := h.of_same rfl rfl
  split
  · exact hbase.release _
  · exact hbase

theorem reapGuard_books (h : Books [] [] net) (a : Answers) (op : Nat) :
    Books [] [] (reapGuard a op net) := by
  unfold reapGuard
  dsimp only
  split
  · rename_i slot hguard
    have hreaped : Books [slot] [] { net with
        posted := net.posted.erase op, reapGuards := net.reapGuards.erase op } :=
      (h.unguardSlot hguard).of_same rfl rfl rfl rfl
    exact hreaped.release a
  · rename_i hnone
    exact (h.unguard hnone).of_same rfl rfl rfl rfl

theorem forgets_recv (entry : TransportEntry) {op : Nat} (hsend : entry.sendOp ≠ some op) :
    Forgets op entry
      { entry with recvOp := if entry.recvOp = some op then none else entry.recvOp } := by
  refine ⟨rfl, rfl, rfl, fun op' => ?_, fun op' hop => ⟨hop, ?_⟩⟩
  · by_cases heq : entry.recvOp = some op
    · simp only [heq, if_true, Option.some.injEq]
      constructor
      · intro hnone
        cases hnone
      · rintro ⟨rfl, hne⟩
        exact absurd rfl hne
    · simp only [heq, if_false]
      refine ⟨fun hop => ⟨hop, ?_⟩, And.left⟩
      rintro rfl
      exact heq hop
  · rintro rfl
    exact hsend hop

theorem forgets_send (entry : TransportEntry) {op : Nat} (hrecv : entry.recvOp ≠ some op) :
    Forgets op entry
      { entry with sendOp := if entry.sendOp = some op then none else entry.sendOp } := by
  refine ⟨rfl, rfl, rfl, fun op' => ⟨fun hop => ⟨hop, ?_⟩, And.left⟩, fun op' hop => ?_⟩
  · rintro rfl
    exact hrecv hop
  · by_cases heq : entry.sendOp = some op
    · simp only [heq, if_true] at hop
      cases hop
    · simp only [heq, if_false] at hop
      refine ⟨hop, ?_⟩
      rintro rfl
      exact heq hop

namespace Wired

variable {op tid did : Nat} {slot : SlotId}

/-- A reported receive has the target it was posted for, and no other. -/
theorem onRecvDone (h : Wired net) {c : Completion} (hmap : net.ops.lookup c.op = some (.recv tid slot))
    (hl : Lifted c.op net net') (hbooks : Books [] [slot] net') (hready : Ready a net')
    (hidle : net'.parsing = none) : Done [] slot (onRecvDone a tid slot c net') := by
  have hother : ∀ t slot', t ≠ tid → net.ops.lookup c.op ≠ some (.recv t slot') := by
    intro t slot' hne
    rw [hmap]
    intro heq
    injection heq with heq
    injection heq with heq _
    exact hne heq.symm
  have hsend : ∀ t, net.ops.lookup c.op ≠ some (.send t) := fun t => by rw [hmap]; simp
  have hdgram : ∀ d, net.ops.lookup c.op ≠ some (.dgramRecv d) := fun d => by rw [hmap]; simp
  unfold RecvSlots.onRecvDone
  cases hlook' : net'.transports.lookup tid with
  | none =>
    refine Done.of_idle ⟨hbooks, ?_⟩ hidle
    refine h.lift hl (fun t e slot' hlook => hother t slot' ?_) (fun t e _ => hsend t)
      fun d e _ => hdgram d
    rintro rfl
    rw [hl.transports, hlook] at hlook'
    cases hlook'
  | some entry =>
    have hlook : net.transports.lookup tid = some entry := by rw [← hl.transports, hlook']
    have hforgets := forgets_recv entry (h.sendOp_ne hlook (hsend tid))
    have hheld : Held [] [slot] (net'.setTransport tid
        { entry with recvOp := if entry.recvOp = some c.op then none else entry.recvOp }) :=
      ⟨hbooks.setTransport_keep hlook' rfl, h.liftTransport hl hlook hforgets hother
        (fun t _ => hsend t) hdgram⟩
    refine hheld.recvRouted (hready.of_same rfl rfl) hidle (AList.lookup_insert _)
      (fun hreads => ?_) c
    have hsole := h.sole c.op tid slot entry hmap hlook hreads
    obtain ⟨slot', hslot, hmap'⟩ := h.recvOp tid entry c.op hlook hsole
    rw [hmap] at hmap'
    injection hmap' with hmap'
    injection hmap' with _ hsame
    exact ⟨by rw [hsame]; exact hslot, if_pos hsole⟩

theorem onSendDone (h : Wired net) {c : Completion} (hmap : net.ops.lookup c.op = some (.send tid))
    (hl : Lifted c.op net net') (hbooks : Books [] [] net') (hready : Ready a net') :
    Held [] [] (onSendDone a tid c net') := by
  have hrecv : ∀ t slot, net.ops.lookup c.op ≠ some (.recv t slot) := fun t slot => by
    rw [hmap]; simp
  have hother : ∀ t, t ≠ tid → net.ops.lookup c.op ≠ some (.send t) := by
    intro t hne
    rw [hmap]
    simpa using Ne.symm hne
  have hdgram : ∀ d, net.ops.lookup c.op ≠ some (.dgramRecv d) := fun d => by rw [hmap]; simp
  unfold RecvSlots.onSendDone
  cases hlook' : net'.transports.lookup tid with
  | none =>
    refine ⟨hbooks, h.lift hl (fun t _ slot _ => hrecv t slot) (fun t e hlook => hother t ?_)
      fun d e _ => hdgram d⟩
    rintro rfl
    rw [hl.transports, hlook] at hlook'
    cases hlook'
  | some entry =>
    have hlook : net.transports.lookup tid = some entry := by rw [← hl.transports, hlook']
    have hforgets := forgets_send entry (h.recvOp_ne hlook (hrecv tid))
    have hheld : Held [] [] (net'.setTransport tid
        { entry with sendOp := if entry.sendOp = some c.op then none else entry.sendOp }) :=
      ⟨hbooks.setTransport_keep hlook' rfl, h.liftTransport hl hlook hforgets
        (fun t slot _ => hrecv t slot) hother hdgram⟩
    exact hheld.sendRouted (hready.of_same rfl rfl) (AList.lookup_insert _) c

theorem onDgramRecvDone (h : Wired net) {c : Completion}
    (hmap : net.ops.lookup c.op = some (.dgramRecv did)) (hl : Lifted c.op net net')
    (hbooks : Books [] [] net') (hready : Ready a net') :
    Held [] [] (onDgramRecvDone a did c net') := by
  unfold RecvSlots.onDgramRecvDone
  cases hlook' : net'.datagrams.lookup did with
  | none =>
    refine ⟨hbooks, h.lift hl (fun t _ slot _ => by rw [hmap]; simp) (fun t e _ => by rw [hmap]; simp)
      fun d e hlook => ?_⟩
    rw [hmap]
    intro heq
    injection heq with heq
    injection heq with heq
    rw [hl.datagrams, heq, hlook] at hlook'
    cases hlook'
  | some entry =>
    have hlook : net.datagrams.lookup did = some entry := by rw [← hl.datagrams, hlook']
    have hsole := h.dgramSole c.op did entry hmap hlook
    have hforgets : ForgetsDgram c.op entry { entry with recvOp := none } := by
      refine ⟨rfl, fun op' => ⟨(fun hnone => by cases hnone), ?_⟩⟩
      rintro ⟨hop, hne⟩
      rw [hsole] at hop
      exact absurd (Option.some.inj hop).symm hne
    have hheld : Held [] [] (net'.setDatagram did { entry with recvOp := none }) :=
      ⟨hbooks.setDatagram_keep hlook' rfl, h.liftDatagram hl hlook hforgets hmap⟩
    exact hheld.dgramRouted (hready.of_same rfl rfl) did c _

/-- An operation that no entry is known by. -/
theorem liftOther (h : Wired net) (hl : Lifted op net net')
    (hrecv : ∀ t slot, net.ops.lookup op ≠ some (.recv t slot))
    (hsend : ∀ t, net.ops.lookup op ≠ some (.send t))
    (hdgram : ∀ d, net.ops.lookup op ≠ some (.dgramRecv d)) : Wired net' :=
  h.lift hl (fun t _ slot _ => hrecv t slot) (fun t _ _ => hsend t) fun d _ _ => hdgram d

end Wired

theorem Held.translate (h : Held [] [] net) {c : Completion}
    (hready : Ready a { net with posted := net.posted.erase c.op }) :
    Held [] [] (translate a c net) := by
  unfold RecvSlots.translate
  split
  · exact h
  rename_i hidle
  have hidle : net.parsing = none := Option.not_isSome_iff_eq_none.mp hidle
  have hl := reapGuard_lifted a c.op net
  obtain ⟨hops, hparsing, -⟩ := reapGuard_same a c.op net
  have hbooks := reapGuard_books h.books a c.op
  have hready' := reapGuard_ready hready
  dsimp only
  generalize reapGuard a c.op net = reaped at *
  cases hmap : reaped.ops.lookup c.op with
  | none =>
    have hnone : net.ops.lookup c.op = none := by rw [← hops, hmap]
    have hsame : reaped.unmap c.op = reaped := by rw [Net.unmap, erase_none hmap]
    rw [hsame] at hl
    exact ⟨hbooks, h.wired.liftOther hl (fun _ _ => by rw [hnone]; simp) (fun _ => by rw [hnone]; simp)
      fun _ => by rw [hnone]; simp⟩
  | some target =>
    have hmap' : net.ops.lookup c.op = some target := by rw [← hops, hmap]
    have hready' : Ready a (reaped.unmap c.op) := hready'.of_same rfl rfl
    cases target with
    | recv tid slot =>
      have hdone := h.wired.onRecvDone hmap' hl (hbooks.unmapRecv hmap) hready'
        (hparsing.trans hidle)
      unfold Done at hdone
      dsimp only
      split
      · rename_i hparses
        rwa [if_pos hparses] at hdone
      · rename_i hparses
        rw [if_neg hparses] at hdone
        exact hdone.releaseLent a
    | send tid => exact h.wired.onSendDone hmap' hl (hbooks.unmap hmap fun _ => rfl) hready'
    | dgramRecv did =>
      exact h.wired.onDgramRecvDone hmap' hl (hbooks.unmap hmap fun _ => rfl) hready'
    | dgramSend did =>
      have hwired := h.wired.liftOther hl (fun _ _ => by rw [hmap']; simp)
        (fun _ => by rw [hmap']; simp) fun _ => by rw [hmap']; simp
      exact Held.onDgramSendDone ⟨hbooks.unmap hmap fun _ => rfl, hwired⟩ hready' did
    | other =>
      exact ⟨hbooks.unmap hmap fun _ => rfl, h.wired.liftOther hl (fun _ _ => by rw [hmap']; simp)
        (fun _ => by rw [hmap']; simp) fun _ => by rw [hmap']; simp⟩

namespace Held

theorem parsed (h : Held [] [] net) (hready : Ready a net) (oversize pipelinePause : Bool) :
    Held [] [] (parsed a oversize pipelinePause net) := by
  unfold RecvSlots.parsed
  cases hparsing : net.parsing with
  | none => exact h
  | some p =>
    have htaken : Held [] [p.slot] { net with parsing := none } :=
      ⟨h.books.unparse hparsing, h.wired.of_same rfl rfl rfl rfl rfl rfl⟩
    dsimp only
    refine Held.releaseLent ?_ a
    split
    · exact htaken.retire a p.tid
    · exact htaken.sizeAndRepost (Nat.le_refl 1) (hready.of_same rfl rfl) p.tid p.slot p.bytes
        pipelinePause

theorem dispatch (h : Held [] [] net) : Held [] [] (dispatch net) := by
  unfold RecvSlots.dispatch
  split
  · rename_i hnone hevents
    exact ⟨h.books.popEvent hevents hnone, h.wired.of_same rfl rfl rfl rfl rfl rfl⟩
  · exact h

theorem delivered (h : Held [] [] net) (a : Answers) : Held [] [] (delivered a net) := by
  unfold RecvSlots.delivered
  split
  · exact h
  · rename_i event hsome
    have htaken : Held [event.slot] [] { net with delivering := none } :=
      ⟨h.books.deliver hsome, h.wired.of_same rfl rfl rfl rfl rfl rfl⟩
    exact htaken.release a

theorem wire (h : Held [] [] net) (proto : ProtoKind) : Held [] [] (wire proto net) := by
  have hunused : net.transports.lookup (net.nextId + 1) = none := by
    cases hlook : net.transports.lookup (net.nextId + 1) with
    | none => rfl
    | some entry => exact absurd (h.wired.transportId _ entry hlook) (Nat.not_succ_le_self _)
  have hnext : Books [] [] { net with nextId := net.nextId + 1 } := h.books.of_same rfl rfl rfl rfl
  exact ⟨hnext.addTransport hunused rfl, h.wired.addTransport rfl rfl (fun hl => by cases hl) rfl⟩

theorem amended (h : Held [] [] net) (tid : Nat) {f : TransportEntry → TransportEntry}
    (hslot : ∀ e, (f e).recvSlot = e.recvSlot) (hop : ∀ e, (f e).recvOp = e.recvOp)
    (hsend : ∀ e, (f e).sendOp = e.sendOp) (hclosing : ∀ e, (f e).closing = e.closing)
    (hlingering : ∀ e, (f e).lingering = e.lingering) :
    Held [] [] (RecvSlots.amend tid f net) := by
  unfold RecvSlots.amend
  cases hlook : net.transports.lookup tid with
  | none => exact h
  | some entry =>
    exact h.amend hlook (hslot entry) (hop entry) (hsend entry) (hclosing entry) (hlingering entry)

end Held

/-! ## 2. The loop's end -/

theorem retire_fields (a : Answers) (tid : Nat) (net : Net) :
    (retire a tid net).transports = net.transports.erase tid ∧
      (retire a tid net).datagrams = net.datagrams ∧ (retire a tid net).events = net.events ∧
      (retire a tid net).posted = net.posted := by
  unfold retire
  split
  · rename_i hnone
    exact ⟨(erase_none hnone).symm, rfl, rfl, rfl⟩
  · unfold cancelTransportOps Net.dropSlot
    repeat' split
    all_goals exact ⟨rfl, rfl, rfl, rfl⟩

theorem retireDgram_fields (a : Answers) (did : Nat) (net : Net) :
    (retireDgram a did net).transports = net.transports ∧
      (retireDgram a did net).datagrams = net.datagrams.erase did ∧
      (retireDgram a did net).events = net.events ∧
      (retireDgram a did net).parsing = net.parsing ∧ (retireDgram a did net).posted = net.posted := by
  unfold retireDgram
  split
  · rename_i hnone
    exact ⟨rfl, (erase_none hnone).symm, rfl, rfl, rfl⟩
  · unfold cancelDgramOps Net.dropSlot
    dsimp only
    repeat' split
    all_goals exact ⟨rfl, rfl, rfl, rfl, rfl⟩

theorem Ready.dropSlot (h : Ready a net) (slot : Option SlotId) : Ready a (net.dropSlot a slot) := by
  cases slot with
  | none => exact h
  | some slot => exact h.release slot

theorem Ready.retire (h : Ready a net) (tid : Nat) : Ready a (retire a tid net) := by
  unfold RecvSlots.retire
  split
  · exact h
  · refine Ready.dropSlot ?_ _
    unfold cancelTransportOps
    split
    · split
      · exact h.of_same rfl rfl
      · exact h.of_same rfl rfl
    · exact h.of_same rfl rfl

theorem Ready.retireDgram (h : Ready a net) (did : Nat) : Ready a (retireDgram a did net) := by
  unfold RecvSlots.retireDgram
  split
  · exact h
  · refine Ready.dropSlot ?_ _
    unfold cancelDgramOps
    split
    · exact h.of_same rfl rfl
    · exact h.of_same rfl rfl

/-- An operation reported: what was new is. -/
theorem Ready.erase (h : Ready a net) (op : Nat) :
    Ready a { net with posted := net.posted.erase op } := by
  have hnew : ∀ op', net.posted.lookup op' = none → (net.posted.erase op).lookup op' = none := by
    intro op' hnone
    rw [lookup_erase_ite, hnone, ite_self]
  exact ⟨h.room, fun op' hop => hnew op' (h.recv op' hop), fun op' hop => hnew op' (h.send op' hop),
    fun op' hop => hnew op' (h.sends op' hop)⟩

/-- Nothing is left to report to, and no event is queued. -/
structure Ended (a : Answers) (net : Net) : Prop where
  held : Held [] [] net
  ready : Ready a net
  transports : net.transports = ∅
  datagrams : net.datagrams = ∅
  events : net.events = []

/-- A completion finds no entry: the guard and the receive's reference are released, no more. -/
theorem Ended.translate (h : Ended a net) (c : Completion) : Ended a (translate a c net) := by
  have hheld := h.held.translate (c := c) (h.ready.erase c.op)
  have hl := reapGuard_lifted a c.op net
  obtain ⟨-, -, hevents⟩ := reapGuard_same a c.op net
  have hready := reapGuard_ready (h.ready.erase c.op)
  unfold RecvSlots.translate at hheld ⊢
  split at hheld
  · rename_i hparses
    rw [if_pos hparses]
    exact h
  rename_i hidle
  rw [if_neg hidle]
  dsimp only at hheld ⊢
  generalize reapGuard a c.op net = reaped at *
  have htransports : reaped.transports = ∅ := by rw [← h.transports, ← hl.transports]; rfl
  have hdatagrams : reaped.datagrams = ∅ := by rw [← h.datagrams, ← hl.datagrams]; rfl
  have hevents : reaped.events = [] := by rw [hevents, h.events]
  have hready' : Ready a (reaped.unmap c.op) := hready.of_same rfl rfl
  have hstream : ∀ t, (reaped.unmap c.op).transports.lookup t = none := by
    intro t
    rw [show (reaped.unmap c.op).transports = ∅ from htransports, AList.lookup_empty]
  have hdgram : ∀ d, (reaped.unmap c.op).datagrams.lookup d = none := by
    intro d
    rw [show (reaped.unmap c.op).datagrams = ∅ from hdatagrams, AList.lookup_empty]
  cases hmap : reaped.ops.lookup c.op with
  | none =>
    rw [hmap] at hheld
    exact ⟨hheld, hready, htransports, hdatagrams, hevents⟩
  | some target =>
    rw [hmap] at hheld
    cases target with
    | recv tid slot =>
      dsimp only at hheld ⊢
      have hsame : onRecvDone a tid slot c (reaped.unmap c.op) = reaped.unmap c.op := by
        rw [onRecvDone, hstream tid]
      rw [hsame] at hheld ⊢
      split at hheld
      · rename_i hparses
        rw [if_pos hparses]
        exact ⟨hheld, hready', htransports, hdatagrams, hevents⟩
      · rename_i hparses
        rw [if_neg hparses]
        exact ⟨hheld, hready'.release slot, htransports, hdatagrams, hevents⟩
    | send tid =>
      dsimp only at hheld ⊢
      have hsame : onSendDone a tid c (reaped.unmap c.op) = reaped.unmap c.op := by
        rw [onSendDone, hstream tid]
      rw [hsame] at hheld ⊢
      exact ⟨hheld, hready', htransports, hdatagrams, hevents⟩
    | dgramRecv did =>
      dsimp only at hheld ⊢
      have hsame : onDgramRecvDone a did c (reaped.unmap c.op) = reaped.unmap c.op := by
        rw [onDgramRecvDone, hdgram did]
      rw [hsame] at hheld ⊢
      exact ⟨hheld, hready', htransports, hdatagrams, hevents⟩
    | dgramSend did =>
      dsimp only at hheld ⊢
      have hsame : onDgramSendDone a did (reaped.unmap c.op) = reaped.unmap c.op := by
        rw [onDgramSendDone, hdgram did]
      rw [hsame] at hheld ⊢
      exact ⟨hheld, hready', htransports, hdatagrams, hevents⟩
    | other => exact ⟨hheld, hready', htransports, hdatagrams, hevents⟩

/-- Every transport torn down. -/
theorem teardown_all (h : Held [] [] net) (hready : Ready a net) (tids : List Nat) :
    Held [] [] (tids.foldl (fun net tid => teardown a tid net) net) ∧
      Ready a (tids.foldl (fun net tid => teardown a tid net) net) ∧
      (tids.foldl (fun net tid => teardown a tid net) net).transports =
        tids.foldl (fun t k => t.erase k) net.transports ∧
      (tids.foldl (fun net tid => teardown a tid net) net).datagrams = net.datagrams ∧
      (tids.foldl (fun net tid => teardown a tid net) net).events = net.events := by
  induction tids generalizing net with
  | nil => exact ⟨h, hready, rfl, rfl, rfl⟩
  | cons tid tids ih =>
    obtain ⟨htransports, hdatagrams, hevents, -⟩ := retire_fields a tid net
    obtain ⟨hheld, hready', htransports', hdatagrams', hevents'⟩ :=
      ih (h.retire a tid) (hready.retire tid)
    rw [htransports] at htransports'
    exact ⟨hheld, hready', htransports', hdatagrams'.trans hdatagrams, hevents'.trans hevents⟩

/-- Every endpoint torn down. -/
theorem udpTeardown_all (h : Held [] [] net) (hready : Ready a net) (dids : List Nat) :
    Held [] [] (dids.foldl (fun net did => udpTeardownAtClose a did net) net) ∧
      Ready a (dids.foldl (fun net did => udpTeardownAtClose a did net) net) ∧
      (dids.foldl (fun net did => udpTeardownAtClose a did net) net).transports = net.transports ∧
      (dids.foldl (fun net did => udpTeardownAtClose a did net) net).datagrams =
        dids.foldl (fun t k => t.erase k) net.datagrams ∧
      (dids.foldl (fun net did => udpTeardownAtClose a did net) net).events = net.events := by
  induction dids generalizing net with
  | nil => exact ⟨h, hready, rfl, rfl, rfl⟩
  | cons did dids ih =>
    obtain ⟨htransports, hdatagrams, hevents, -⟩ := retireDgram_fields a did net
    obtain ⟨hheld, hready', htransports', hdatagrams', hevents'⟩ :=
      ih (h.retireDgram a did) (hready.retireDgram did)
    rw [hdatagrams] at hdatagrams'
    exact ⟨hheld, hready', htransports'.trans htransports, hdatagrams', hevents'.trans hevents⟩

/-- A loop that ends with no `BufData` event queued. -/
theorem Held.loopClose (h : Held [] [] net) (hready : Ready a net) (reaped : List Completion)
    (hevents : net.events = []) : Held [] [] (loopClose a reaped net) := by
  unfold RecvSlots.loopClose
  split
  · exact h
  obtain ⟨hheld, hready', htransports, hdatagrams, hqueue⟩ :=
    teardown_all h hready net.transports.keys
  dsimp only
  generalize net.transports.keys.foldl (fun net tid => teardown a tid net) net = torn at *
  obtain ⟨hheld', hready'', htransports', hdatagrams', hqueue'⟩ :=
    udpTeardown_all hheld hready' torn.datagrams.keys
  generalize torn.datagrams.keys.foldl (fun net did => udpTeardownAtClose a did net) torn = ended
    at *
  rw [Table.foldl_erase_keys] at htransports hdatagrams'
  have hended : Ended a ended :=
    ⟨hheld', hready'', htransports'.trans htransports, hdatagrams',
      hqueue'.trans (hqueue.trans hevents)⟩
  have hall := List.foldlRecOn reaped (fun net c => RecvSlots.translate a c net)
    (motive := Ended a) hended fun _ hnet c _ => hnet.translate c
  have hsame : { reaped.foldl (fun net c => RecvSlots.translate a c net) ended with events := [] } =
      reaped.foldl (fun net c => RecvSlots.translate a c net) ended := by
    generalize reaped.foldl (fun net c => RecvSlots.translate a c net) ended = last at hall
    rw [← hall.events]
  rw [hsame]
  exact hall.held

/-! ## 3. Every run -/

def Answers.ops (a : Answers) : List Nat :=
  a.recv.toList ++ a.send.toList ++ a.sends.filterMap id

/-- The operations a call posts have ids that no operation outstanding has. -/
def New (a : Answers) (posted : Table Nat (Option SlotId)) : Prop :=
  ∀ op ∈ a.ops, posted.lookup op = none

instance (a : Answers) (posted : Table Nat (Option SlotId)) : Decidable (New a posted) :=
  inferInstanceAs (Decidable (∀ op ∈ a.ops, posted.lookup op = none))

/-- The backend hands out new ids; that of a completion it reports it may hand out again. -/
def Served (net : Net) : Event → Prop
  | .translate c a => New a (net.posted.erase c.op)
  | .other op => net.posted.lookup op = none
  | .postRecv _ a | .resumeReading _ a | .flushPending _ a | .maybeFinishShutdown _ a
  | .httpCloseAfterWrite _ a | .close _ a | .forceClose _ a | .teardown _ a | .udpWire a
  | .udpSendto _ _ a | .udpClose _ _ a | .retryStarved _ a | .parsed _ _ a | .delivered a
  | .loopClose _ a => New a net.posted
  | _ => True

instance (net : Net) : (event : Event) → Decidable (Served net event)
  | .translate c a => inferInstanceAs (Decidable (New a (net.posted.erase c.op)))
  | .other op => inferInstanceAs (Decidable (net.posted.lookup op = none))
  | .postRecv _ a | .resumeReading _ a | .flushPending _ a | .maybeFinishShutdown _ a
  | .httpCloseAfterWrite _ a | .close _ a | .forceClose _ a | .teardown _ a | .udpWire a
  | .udpSendto _ _ a | .udpClose _ _ a | .retryStarved _ a | .parsed _ _ a | .delivered a
  | .loopClose _ a => inferInstanceAs (Decidable (New a net.posted))
  | .wire _ | .pauseReading _ | .setProtocol _ _ | .conn _ _ | .enqueue _ _ | .tick _ | .dispatch =>
    isTrue trivial

/-- No class that has a slot for every index, all in use, is asked for one more, and the loop does
not end over a queued `BufData` event. -/
def Meets (net : Net) (event : Event) : Prop :=
  (∀ c, (net.buffers.classes c).Room) ∧
    ∀ reaped a, event = .loopClose reaped a → net.events = []

theorem Ready.of_new (hroom : ∀ c, (net.buffers.classes c).Room) (h : New a net.posted) :
    Ready a net := by
  refine ⟨hroom, fun op hop => h op ?_, fun op hop => h op ?_, fun op hop => h op ?_⟩
  · simp [Answers.ops, hop]
  · simp [Answers.ops, hop]
  · exact List.mem_append_right _ (List.mem_filterMap.mpr ⟨some op, hop, rfl⟩)

/-- Empty tables, and a pool without a region. -/
theorem Held.new (pagesOut : Bool) : Held [] [] (.new pagesOut) := by
  refine ⟨⟨fun c => ⟨ClassPool.Resident.new c, rfl⟩, fun slot => ?_, fun slot => ?_, fun slot => ?_⟩, ?_⟩
  · exact BufferPool.count_new slot
  · exact Nat.zero_le 1
  · exact Nat.zero_le 1
  · constructor <;> simp [Net.new]

theorem Held.step (h : Held [] [] net) {event : Event} (hserved : Served net event)
    (hmeets : Meets net event) : Held [] [] (step net event) := by
  obtain ⟨hroom, hcloses⟩ := hmeets
  have hready : ∀ a, New a net.posted → Ready a net := fun a hnew => .of_new hroom hnew
  cases event with
  | wire proto => exact h.wire proto
  | postRecv tid a => exact h.postRecv (Nat.zero_le 1) (hready a hserved) tid
  | pauseReading tid => exact h.pauseReading tid
  | resumeReading tid a => exact h.resumeReading (Nat.zero_le 1) (hready a hserved) tid
  | setProtocol tid dataReceived =>
    exact h.amended tid (fun _ => rfl) (fun _ => rfl) (fun _ => rfl) (fun _ => rfl) fun _ => rfl
  | conn tid conn =>
    exact h.amended tid (fun _ => rfl) (fun _ => rfl) (fun _ => rfl) (fun _ => rfl) fun _ => rfl
  | enqueue tid buffers =>
    exact h.amended tid (fun _ => rfl) (fun _ => rfl) (fun _ => rfl) (fun _ => rfl) fun _ => rfl
  | flushPending tid a => exact h.flushPending (Nat.zero_le 1) (hready a hserved) tid
  | maybeFinishShutdown tid a => exact h.maybeFinishShutdown (Nat.zero_le 1) (hready a hserved) tid
  | httpCloseAfterWrite tid a => exact h.httpCloseAfterWrite (Nat.zero_le 1) (hready a hserved) tid
  | close tid a => exact h.close (Nat.zero_le 1) (hready a hserved) tid
  | forceClose tid a => exact h.forceClose (Nat.zero_le 1) (hready a hserved) tid
  | teardown tid a => exact h.retire a tid
  | udpWire a => exact h.udpWire (hready a hserved)
  | udpSendto did fits a => exact h.udpSendto (hready a hserved) did fits
  | udpClose did abort a => exact h.udpClose a did abort
  | retryStarved did a => exact h.retryStarved (hready a hserved) did
  | other op =>
    have hnone : net.posted.lookup op = none := hserved
    exact ⟨h.books.post (h.wired.fresh hnone) (fun _ => rfl) none,
      h.wired.post hnone (fun _ _ => by simp) fun _ => by simp⟩
  | tick nowNs =>
    exact ⟨h.books.of_same rfl rfl rfl rfl, h.wired.of_same rfl rfl rfl rfl rfl rfl⟩
  | translate c a =>
    have hnew : New a (net.posted.erase c.op) := hserved
    exact h.translate (.of_new hroom hnew)
  | parsed oversize pipelinePause a => exact h.parsed (hready a hserved) oversize pipelinePause
  | dispatch => exact h.dispatch
  | delivered a => exact h.delivered a
  | loopClose reaped a => exact h.loopClose (hready a hserved) reaped (hcloses reaped a rfl)

/-- Nobody has the slot: no transport or endpoint, no event or call, and no operation that the
kernel is not done with. -/
structure Net.Unheld (net : Net) (slot : SlotId) : Prop where
  transports : ∀ tid entry, net.transports.lookup tid = some entry → entry.recvSlot ≠ some slot
  datagrams : ∀ did entry, net.datagrams.lookup did = some entry → entry.recvSlot ≠ some slot
  events : ∀ event ∈ net.events, event.slot ≠ slot
  inHand : net.inHand slot = 0
  posted : ∀ op, net.posted.lookup op ≠ some (some slot)

/-- References are exact: nothing is freed that the kernel may still write, and nothing is kept that
nobody has. -/
structure Exact (net : Net) : Prop where
  counts : ∀ slot, net.buffers.count slot = net.references slot + net.inHand slot
  written : ∀ op slot, net.posted.lookup op = some (some slot) → 0 < net.buffers.count slot
  freed : ∀ slot, net.Unheld slot → net.buffers.count slot = 0

namespace Held

theorem counts (h : Held [] [] net) (slot : SlotId) :
    net.buffers.count slot = net.references slot + net.inHand slot := by
  have hexact := h.books.exact slot
  rw [List.count_nil, Nat.add_zero, Nat.add_zero, net.owners_add_loans] at hexact
  exact hexact

/-- What the kernel may write is mapped, guarded, or its endpoint's. -/
theorem written (h : Held [] [] net) {op : Nat} {slot : SlotId}
    (hposted : net.posted.lookup op = some (some slot)) : 0 < net.buffers.count slot := by
  rw [h.counts, Net.references]
  rcases h.wired.reads op slot hposted with ⟨tid, hmap⟩ | ⟨did, hmap, hguard⟩
  · have hholds : 0 < tally (OpTarget.holds slot) net.ops :=
      tally_pos.mpr ⟨op, _, hmap, decide_eq_true rfl⟩
    omega
  · cases hlook : net.datagrams.lookup did with
    | none =>
      have hholds : 0 < tally (ReapGuard.holds slot) net.reapGuards :=
        tally_pos.mpr ⟨op, _, hguard hlook, decide_eq_true rfl⟩
      omega
    | some entry =>
      have hsole := h.wired.dgramSole op did entry hmap hlook
      obtain ⟨slot', hslot, -, hposted'⟩ := h.wired.dgramOp did entry op hlook hsole
      rw [hposted] at hposted'
      obtain rfl : slot = slot' := by
        injection hposted' with hposted'
        injection hposted'
      have hholds : 0 < tally (DatagramEntry.holds slot) net.datagrams :=
        tally_pos.mpr ⟨did, entry, hlook, decide_eq_true hslot⟩
      omega

/-- A receive mapped to the slot, or a guard that has it, is outstanding. -/
theorem freed (h : Held [] [] net) {slot : SlotId} (hnone : net.Unheld slot) :
    net.buffers.count slot = 0 := by
  have htransports : tally (TransportEntry.holds slot) net.transports = 0 :=
    tally_eq_zero fun tid entry hlook => decide_eq_false (hnone.transports tid entry hlook)
  have hdatagrams : tally (DatagramEntry.holds slot) net.datagrams = 0 :=
    tally_eq_zero fun did entry hlook => decide_eq_false (hnone.datagrams did entry hlook)
  have hops : tally (OpTarget.holds slot) net.ops = 0 := by
    refine tally_eq_zero fun op target hmap => ?_
    cases target with
    | recv tid slot' =>
      refine decide_eq_false ?_
      rintro rfl
      exact hnone.posted op (h.wired.mapped op tid slot' hmap)
    | send tid => rfl
    | dgramRecv did => rfl
    | dgramSend did => rfl
    | other => rfl
  have hguards : tally (ReapGuard.holds slot) net.reapGuards = 0 := by
    refine tally_eq_zero fun op g hguard => ?_
    cases g with
    | slot slot' =>
      refine decide_eq_false ?_
      rintro rfl
      exact hnone.posted op (h.wired.guard op slot' hguard).1
    | writes => rfl
  have hevents : net.events.countP (fun event => event.slot = slot) = 0 := by
    rw [List.countP_eq_zero]
    intro event hmem
    rw [decide_eq_true_eq]
    exact hnone.events event hmem
  rw [h.counts, Net.references, htransports, hdatagrams, hops, hevents, hguards, hnone.inHand]

end Held

/-- What a call that posts one receive is answered. -/
def posting (op : Nat) : Answers :=
  { region := ⟨4096, none, false, true⟩, pageOut := true, recv := some op, send := none, sends := [] }

def reported (op bytes osError : Nat) : Completion :=
  { op, bytes, osError, popped := 0, resuming := false }

/-- Two transports of buffered protocols, each with an event queued; one event is dispatched. -/
def interrupted : List Event :=
  [.wire (.py false), .wire (.py false), .postRecv 1 (posting 0), .postRecv 2 (posting 1),
    .translate (reported 0 9 0) (posting 2), .translate (reported 1 9 0) (posting 3), .dispatch,
    .delivered (posting 4)]

-- over the event left queued, the loop's end keeps its slot for nobody
example :
    let net := (runs false).run (interrupted ++
      [.loopClose [reported 2 0 125, reported 3 0 125] (posting 4)])
    net.buffers.count ⟨.s4k, 1, 0⟩ = 1 ∧ net.references ⟨.s4k, 1, 0⟩ = 0 ∧
      net.inHand ⟨.s4k, 1, 0⟩ = 0 := by
  decide +kernel

end Cadeloop.Pyshim.RecvSlots
