import Cadeloop.Core.EpollHeld

/-!
# Calls of the epoll backend

What each call makes of the operations parked: a post parks its own on a free side or ends it, an
event ends what its syscall finished, a cancel or a detach gives up what is parked.
-/

namespace Cadeloop.Core.Epoll

open Cadeloop.Reasoning
open Ops (OpId OpKind OpState OpSlot)

/-! ## 1. The syscall and the post -/

open EpollBackend

/-- A syscall leaves an operation where it belongs; only an accept that ends gets a descriptor. -/
theorem EpollOp.attempt_place (answer : Answer) (op : EpollOp) :
    (op.attempt answer).2.fd = op.fd ∧
      (op.attempt answer).2.pending.writeSide = op.pending.writeSide ∧
      ((op.attempt answer).2.accepted = op.accepted ∨
        op.pending = .accept ∧ ∃ n, (op.attempt answer).2.accepted = some n ∧
          (op.attempt answer).1 = some (0, 0)) := by
  obtain ⟨fd, pending, accepted⟩ := op
  cases pending with
  | accept => cases answer <;> simp [EpollOp.attempt, Pending.writeSide]
  | recv buf len => cases answer <;> simp [EpollOp.attempt, Pending.writeSide]
  | send bufs done =>
    unfold EpollOp.attempt
    dsimp only
    split
    · simp [Pending.writeSide]
    · cases answer <;> simp [Pending.writeSide]
  | connect =>
    cases answer with
    | done n addr =>
      unfold EpollOp.attempt
      dsimp only
      split
      · simp [Pending.writeSide]
      split <;> simp [Pending.writeSide]
    | again => simp [EpollOp.attempt, Pending.writeSide]
    | failed e => simp [EpollOp.attempt, Pending.writeSide]
  | recvFrom buf len src => cases answer <;> simp [EpollOp.attempt, Pending.writeSide]
  | sendTo data dst => cases answer <;> simp [EpollOp.attempt, Pending.writeSide]

variable {s s' : EpollBackend} {hold : List OpId} {id : OpId} {slot : OpSlot EpollOp}

/-- What a try leaves: the payload, and the descriptor of an accept in the record. -/
theorem attempt_eq (hget : s.slab.slab.get id = some slot) (answer : Answer) :
    ∃ accepts, attempt answer id s = ((slot.data.attempt answer).1,
        { s.setData id (slot.data.attempt answer).2 with accepts := accepts }) ∧
      (∀ p ∈ s.accepts, p ∈ accepts) ∧
      ((slot.data.attempt answer).2.accepted = slot.data.accepted ∨
        ∀ n, (slot.data.attempt answer).2.accepted = some n → (id, n) ∈ accepts) := by
  unfold attempt
  rw [hget]
  dsimp only
  split
  · rename_i n r hpending haccepted hdone
    refine ⟨_, rfl, fun p hp => List.mem_append_left _ hp, .inr fun m hm => ?_⟩
    rw [haccepted] at hm
    injection hm with hm
    rw [← hm]
    exact List.mem_append_right _ (List.mem_singleton.mpr rfl)
  · rename_i hnot
    refine ⟨s.accepts, rfl, fun p hp => hp, .inl ?_⟩
    obtain ⟨-, -, hsame | ⟨hpending, n, haccepted, hdone⟩⟩ := slot.data.attempt_place answer
    · exact hsame
    · exact absurd hdone (hnot n (0, 0) hpending haccepted)

theorem attempt_held (h : Held hold s) (hget : s.slab.slab.get id = some slot) (answer : Answer)
    (hparked : s.Parked id → (slot.data.attempt answer).1 = none) :
    Held hold (attempt answer id s).2 := by
  obtain ⟨accepts, heq, hkept, haccepted⟩ := attempt_eq hget answer
  obtain ⟨hfd, hside, hplace⟩ := slot.data.attempt_place answer
  rw [heq]
  refine h.setData hget _ hfd hside (fun hid => ?_) hkept fun n hn => ?_
  · obtain ⟨fd, w, hat⟩ := hid
    obtain ⟨-, slot', hget', -, -, -, hnone⟩ := h.parked fd w id hat
    rw [hget] at hget'
    injection hget' with hget'
    subst hget'
    rcases hplace with hsame | ⟨-, n, -, hdone⟩
    · rw [hsame, hnone]
    · rw [hparked ⟨fd, w, hat⟩] at hdone
      cases hdone
  · rcases haccepted with hsame | hnew
    · rw [hsame] at hn
      exact hkept _ (h.accepted id slot n hget hn)
    · exact hnew n hn

/-- A try moves nothing else. -/
theorem attempt_frame (answer : Answer) (id : OpId) (s : EpollBackend) :
    Books s (attempt answer id s).2 ∧ (attempt answer id s).2.fds = s.fds ∧
      (attempt answer id s).2.completed = s.completed ∧
      (attempt answer id s).2.delivered = s.delivered ∧
      (attempt answer id s).2.returned = s.returned := by
  unfold attempt
  split
  · exact ⟨.refl s, rfl, rfl, rfl, rfl⟩
  · dsimp only
    split
    · exact ⟨(setData_books id _ s).trans (.of_slab rfl), rfl, rfl, rfl, rfl⟩
    · exact ⟨setData_books id _ s, rfl, rfl, rfl, rfl⟩

theorem attempt_get (hget : s.slab.slab.get id = some slot) (answer : Answer) :
    (attempt answer id s).1 = (slot.data.attempt answer).1 ∧
      (attempt answer id s).2.slab.slab.get id =
        some { slot with data := (slot.data.attempt answer).2 } := by
  obtain ⟨accepts, heq, -, -⟩ := attempt_eq hget answer
  rw [heq]
  refine ⟨rfl, ?_⟩
  have hlookup := Ops.Run.getMut_get hget (fun kd => (kd.1, (slot.data.attempt answer).2)) id
  rw [if_pos rfl] at hlookup
  exact hlookup

/-- Room for one operation more. -/
def Room (s : EpollBackend) : Prop :=
  s.slab.book.issued.length < s.slab.book.recycled.length + 2 ^ 32

/-- From `s` to `s'` one operation was allocated in the slab, under a new id. -/
structure Launched (s s' : EpollBackend) (id : OpId) : Prop where
  good : Ops.Good s'.slab
  fresh : id ∉ s.slab.book.issued
  issued : s'.slab.book.issued = s.slab.book.issued ++ [id]
  recycled : s'.slab.book.recycled = s.slab.book.recycled
  posted : ∃ slot, s'.slab.slab.get id = some slot ∧ slot.state = .posted
  others : ∀ id', id' ≠ id → s'.slab.slab.get id' = s.slab.slab.get id'
  inFlight : s'.slab.slab.inFlight = s.slab.slab.inFlight + 1

/-- The first lines of a post. -/
theorem launch_launched (hgood : Ops.Good s.slab) (hlive : Room s) (hroom : s.Roomy) (sys : Sys)
    (kind : OpKind) (fd : RawFd) (pending : Pending) :
    ∃ id s' generation, launch sys kind fd pending s = some (id, s') ∧ Launched s s' id ∧
      s'.slab.slab.get id = some ⟨.posted, generation, kind, ⟨some fd, pending, none⟩⟩ ∧
      s' = { s with slab := s'.slab } := by
  have hfits : (s.slab.step (.post sys.alloc kind)).book.Fits := by
    obtain ⟨id, slab, hpost⟩ := hgood.post_isSome sys.alloc kind
    simp only [Ops.Run.step, hpost, Ops.Book.post]
    unfold Room at hlive
    refine ⟨?_, hroom⟩
    simp only [List.length_append, List.length_singleton]
    omega
  obtain ⟨id, slab, data, hpost, hnew, hlookup⟩ := Ops.Run.post_get hgood hfits
  have hafter := (hgood.post sys.alloc kind hfits).1
  have hstep : s.slab.step (.post sys.alloc kind) =
      { s.slab with slab := slab, book := s.slab.book.post id } := by
    simp only [Ops.Run.step, hpost]
  have hself : (s.slab.step (.post sys.alloc kind)).slab.get id =
      some ⟨.posted, id.generation, kind, data⟩ := by
    rw [hstep]
    exact (hlookup id).trans (if_pos rfl)
  have hset := Ops.Run.getMut_get hself fun kd => (kd.1, (⟨some fd, pending, none⟩ : EpollOp))
  have hid := (hset id).trans (if_pos rfl)
  refine ⟨id, _, id.generation, by rw [launch, hpost],
    ⟨hafter.getMut id _, hnew, ?_, ?_, ⟨_, hid, rfl⟩, fun id' hne => ?_, ?_⟩, hid, rfl⟩
  · rw [setData, hstep]
    rfl
  · rw [setData, hstep]
    rfl
  · show ((s.slab.step (.post sys.alloc kind)).step
      (.getMut id fun kd => (kd.1, ⟨some fd, pending, none⟩))).slab.get id' = s.slab.slab.get id'
    rw [hset, if_neg hne, hstep]
    exact (hlookup id').trans (if_neg hne)
  · show ((s.slab.step (.post sys.alloc kind)).slab.getMut id _).inFlight = _
    rw [Ops.OpSlab.getMut_inFlight, hstep]
    exact Ops.OpSlab.post_inFlight hpost

/-- A new operation, in hand. -/
theorem Launched.held (hl : Launched s s' id) (hsame : s' = { s with slab := s'.slab })
    (hnone : ∀ slot, s'.slab.slab.get id = some slot → slot.data.accepted = none) (h : Held [] s) :
    Held [id] s' := by
  have hissued : ∀ id', id' ∈ s.slab.book.issued → id' ∈ s'.slab.book.issued := by
    intro id' hid'
    rw [hl.issued]
    exact List.mem_append_left _ hid'
  have hne : ∀ id', id' ∈ s.slab.book.issued → id' ≠ id := by
    rintro id' hid' rfl
    exact hl.fresh hid'
  obtain ⟨slot, hself, hposted⟩ := hl.posted
  have hothers := hl.others
  have hgood := hl.good
  rw [hsame]
  generalize s'.slab = slab at *
  constructor
  · exact hgood
  · intro fd' w id' hid'
    obtain ⟨hout, slot', hget', hrest⟩ := h.parked fd' w id' hid'
    have hid := hne id' (h.issued hget')
    exact ⟨fun hmem => hid (List.mem_singleton.mp hmem), slot', (hothers id' hid).trans hget', hrest⟩
  · intro id' hid'
    rw [List.mem_singleton.mp hid']
    exact ⟨slot, hself, by simp [OpSlot.inFlight, hposted]⟩
  · intro id' slot' hget' hbusy
    by_cases hid : id' = id
    · exact .inl (List.mem_singleton.mpr hid)
    · rcases h.busy id' slot' ((hothers id' hid).symm.trans hget') hbusy with hin | hplace
      · cases hin
      · exact .inr hplace
  · exact h.once
  · intro id' hid'
    obtain ⟨hold, hidle⟩ := h.completed id' hid'
    exact ⟨hissued id' hold, fun slot' hget' =>
      hidle slot' ((hothers id' (hne id' hold)).symm.trans hget')⟩
  · exact h.returned_once
  · intro id' hid'
    obtain ⟨hold, hplace⟩ := h.returned id' hid'
    refine ⟨hissued id' hold, ?_⟩
    rcases hplace with hdone | hin | hplace
    · exact .inl hdone
    · cases hin
    · exact .inr (.inr hplace)
  · intro id' slot' n hget' hn
    by_cases hid : id' = id
    · subst hid
      rw [hnone slot' hget'] at hn
      cases hn
    · exact h.accepted id' slot' n ((hothers id' hid).symm.trans hget') hn
  · exact h.handed_once
  · intro p hp
    obtain ⟨hin, hold, hgone⟩ := h.handed p hp
    exact ⟨hin, hissued p.1 hold, (hothers p.1 (hne p.1 hold)).trans hgone⟩
  · exact h.closed

/-! ## 2. Posts -/

/-- In the post made in `s`, the new operation is in hand. -/
structure InHand (s s' : EpollBackend) (id : OpId) : Prop where
  held : Held [id] s'
  fresh : id ∉ s.slab.book.issued
  fds : ∀ fd w, s'.fds.parked fd w = s.fds.parked fd w
  completed : s'.completed = s.completed
  delivered : s'.delivered = s.delivered
  returned : s'.returned = s.returned

/-- What a post made in `s` comes to. -/
structure PostSpec (s : EpollBackend) (r : Except PostError OpId × EpollBackend) : Prop where
  held : Held [] (posted r)
  delivered : r.2.delivered = s.delivered
  fresh : ∀ id, r.1 = .ok id → id ∉ s.slab.book.issued
  -- what was parked stays, and what parks takes a free side
  parked : ∀ fd w id, s.fds.parked fd w = some id → r.2.fds.parked fd w = some id
  free : ∀ id fd w, r.1 = .ok id → r.2.fds.parked fd w = some id → s.fds.parked fd w = none

/-- Tables in which the same is parked. -/
theorem InHand.table (hin : InHand s s' id) {fds : FdTable}
    (hsame : ∀ fd w, fds.parked fd w = s'.fds.parked fd w) :
    InHand s { s' with fds := fds } id where
  held := hin.held.congr rfl hsame rfl rfl ⟨rfl, rfl, rfl⟩
  fresh := hin.fresh
  fds fd w := (hsame fd w).trans (hin.fds fd w)
  completed := hin.completed
  delivered := hin.delivered
  returned := hin.returned

theorem InHand.not_returned (h : Held [] s) (hin : InHand s s' id) : id ∉ s'.returned := by
  rw [hin.returned]
  intro hid
  exact hin.fresh (h.returned id hid).1

/-- The operation ends in the post: with a completion, its id is the answer; without, an error. -/
theorem InHand.finish (h : Held [] s) (hin : InHand s s' id) {s'' : EpollBackend}
    (he : Ends id s' s'') (hcompleted : s''.completed.Perm (s'.completed ++ [id]))
    (hdelivered : s''.delivered = s'.delivered) : PostSpec s (.ok id, s'') := by
  have hheld := hin.held.ended List.not_mem_nil he (.inl hcompleted)
  have hmem : id ∈ s''.completed :=
    hcompleted.mem_iff.mpr (List.mem_append_right _ (List.mem_singleton.mpr rfl))
  obtain ⟨slot, hget, -⟩ := hin.held.held id (List.mem_singleton.mpr rfl)
  constructor
  · refine hheld.posted ?_ ?_ (.inl hmem)
    · rw [he.books.issued]
      exact hin.held.issued hget
    · rw [he.returned]
      exact hin.not_returned h
  · exact hdelivered.trans hin.delivered
  · intro id' hok
    injection hok with hok
    exact hok ▸ hin.fresh
  · intro fd w id' hid'
    show s''.fds.parked fd w = some id'
    rw [he.fds, hin.fds, hid']
  · intro id' fd w hok hat
    injection hok with hok
    subst hok
    have hparked : s.fds.parked fd w = some id := by
      rw [← hin.fds, ← he.fds]
      exact hat
    obtain ⟨-, slot', hget', -⟩ := h.parked fd w id hparked
    exact absurd (h.issued hget') hin.fresh

theorem InHand.fail (h : Held [] s) (hin : InHand s s' id) (e : PostError)
    (hroom : ((s'.complete id).release id).Roomy) :
    PostSpec s (.error e, (s'.complete id).release id) := by
  obtain ⟨slot, hget, hbusy⟩ := hin.held.held id (List.mem_singleton.mpr rfl)
  have he := retire_ends hin.held.good hget hbusy hroom
  constructor
  · exact hin.held.ended List.not_mem_nil he (.inr ⟨rfl, hin.not_returned h⟩)
  · exact hin.delivered
  · intro id' hok
    cases hok
  · intro fd w id' hid'
    show s'.fds.parked fd w = some id'
    rw [hin.fds, hid']
  · intro id' fd w hok
    cases hok

/-- The operation is as `park` needs it. -/
def Parkable (s : EpollBackend) (id : OpId) (fd : RawFd) (w : Bool) : Prop :=
  ∃ slot, s.slab.slab.get id = some slot ∧ slot.state = .posted ∧ slot.data.fd = some fd ∧
    slot.data.pending.writeSide = w ∧ slot.data.accepted = none

/-- The table with an operation in its place. -/
theorem park_table (ctl : Ctl) (fd : RawFd) (w : Bool) (id : OpId) (fds : FdTable) (fd' : RawFd)
    (w' : Bool) :
    (syncInterest false ctl fd ((fds.entry fd).2.put fd
      ((fds.entry fd).1.setOp w (some id)))).2.parked fd' w' =
        if fd' = fd ∧ w' = w then some id else fds.parked fd' w' := by
  obtain ⟨hentry, hsame⟩ := FdTable.entry_spec fds fd
  rw [syncInterest_parked, FdTable.parked_put, FdEntry.op_setOp]
  by_cases hfd' : fd' = fd
  · rw [if_pos hfd', hfd']
    by_cases hw' : w' = w
    · rw [if_pos hw', if_pos ⟨rfl, hw'⟩]
    · rw [if_neg hw', if_neg fun hboth => hw' hboth.2, ← hsame, FdTable.parked_of_get hentry]
  · rw [if_neg hfd', if_neg fun hboth => hfd' hboth.1, hsame]

theorem InHand.park (h : Held [] s) (hin : InHand s s' id) {fd : RawFd} {w : Bool}
    (hop : Parkable s' id fd w) (ctl : Ctl) (hroom : (park ctl id fd w s').2.Roomy) :
    PostSpec s (park ctl id fd w s') := by
  obtain ⟨hentry, hsame⟩ := FdTable.entry_spec s'.fds fd
  have hmade : InHand s { s' with fds := (s'.fds.entry fd).2 } id := hin.table hsame
  unfold Epoll.park at hroom ⊢
  dsimp only at hroom ⊢
  split
  · rename_i hbusy
    rw [if_pos hbusy] at hroom
    exact hmade.fail h .wouldBlock hroom
  · rename_i hidle
    have hside : (s'.fds.entry fd).1.op w = none := by
      simpa using hidle
    have hfree : s'.fds.parked fd w = none := by
      rw [← hsame, FdTable.parked_of_get hentry, hside]
    obtain ⟨slot, hget, hposted, hfd, hw, hnone⟩ := hop
    have hfds := park_table ctl fd w id s'.fds
    generalize syncInterest false ctl fd ((s'.fds.entry fd).2.put fd
      ((s'.fds.entry fd).1.setOp w (some id))) = sync at hfds
    have hheld : Held [] { s' with fds := sync.2 } :=
      hin.held.park List.not_mem_nil hget hposted hfd hw hnone hfree hfds
    have hstays : ∀ fd' w' id', s.fds.parked fd' w' = some id' →
        sync.2.parked fd' w' = some id' := by
      intro fd' w' id' hid'
      rw [← hin.fds] at hid'
      rw [hfds, if_neg, hid']
      rintro ⟨rfl, rfl⟩
      rw [hfree] at hid'
      cases hid'
    cases hrc : sync.1 with
    | none =>
      dsimp only
      constructor
      · have hnew : id ∉ s'.returned := hin.not_returned h
        refine hheld.posted (hin.held.issued hget) hnew (.inr ⟨fd, w, ?_⟩)
        show sync.2.parked fd w = some id
        rw [hfds, if_pos ⟨rfl, rfl⟩]
      · exact hin.delivered
      · intro id' hok
        injection hok with hok
        exact hok ▸ hin.fresh
      · exact hstays
      · intro id' fd' w' hok hat
        injection hok with hok
        subst hok
        have hplace : sync.2.parked fd' w' = some id := hat
        rw [hfds] at hplace
        rw [← hin.fds]
        by_cases hboth : fd' = fd ∧ w' = w
        · rw [hboth.1, hboth.2, hfree]
        · rw [if_neg hboth] at hplace
          exact absurd (List.mem_singleton.mpr rfl) (hin.held.parked fd' w' id hplace).1
    | some e =>
      dsimp only
      constructor
      · exact hheld.congr rfl (fun _ _ => rfl) rfl rfl ⟨rfl, rfl, rfl⟩
      · exact hin.delivered
      · intro id' hok
        cases hok
      · exact hstays
      · intro id' fd' w' hok
        cases hok

/-- A launched operation, in hand and ready to be parked. -/
theorem launch_inHand (h : Held [] s) (hlive : Room s) (hroom : s.Roomy) (sys : Sys) (kind : OpKind)
    (fd : RawFd) (pending : Pending) :
    ∃ id s' generation, launch sys kind fd pending s = some (id, s') ∧ InHand s s' id ∧
      s'.slab.slab.get id = some ⟨.posted, generation, kind, ⟨some fd, pending, none⟩⟩ ∧
      s'.slab.book.recycled = s.slab.book.recycled := by
  obtain ⟨id, s', generation, hlaunch, hl, hget, hsame⟩ :=
    launch_launched h.good hlive hroom sys kind fd pending
  have hheld : Held [id] s' := hl.held hsame (fun slot hslot => by cases hget.symm.trans hslot; rfl) h
  refine ⟨id, s', generation, hlaunch, ⟨hheld, hl.fresh, fun fd' w => ?_, ?_, ?_, ?_⟩, hget, hl.recycled⟩
  · rw [hsame]
  · rw [hsame]
    rfl
  · rw [hsame]
  · rw [hsame]

theorem InHand.attempt (hin : InHand s s' id) (hget : s'.slab.slab.get id = some slot)
    (answer : Answer) : InHand s (attempt answer id s').2 id := by
  obtain ⟨-, hfds, hcompleted, hdelivered, hreturned⟩ := attempt_frame answer id s'
  refine ⟨attempt_held hin.held hget answer fun hparked => ?_, hin.fresh, fun fd w => ?_,
    hcompleted.trans hin.completed, hdelivered.trans hin.delivered, hreturned.trans hin.returned⟩
  · obtain ⟨fd, w, hat⟩ := hparked
    exact absurd (List.mem_singleton.mpr rfl) (hin.held.parked fd w id hat).1
  · rw [hfds]
    exact hin.fds fd w

/-- A try that would block leaves the operation fit to be parked. -/
theorem attempt_parkable {fd : RawFd} {pending : Pending} {generation : UInt32} {kind : OpKind}
    (hget : s.slab.slab.get id = some ⟨.posted, generation, kind, ⟨some fd, pending, none⟩⟩)
    (answer : Answer) (hnone : (attempt answer id s).1 = none) :
    Parkable (attempt answer id s).2 id fd pending.writeSide := by
  obtain ⟨hsame, hafter⟩ := attempt_get hget answer
  obtain ⟨hfd, hside, hplace⟩ := EpollOp.attempt_place answer ⟨some fd, pending, none⟩
  refine ⟨_, hafter, rfl, hfd, hside, ?_⟩
  rcases hplace with haccepted | ⟨-, n, -, hdone⟩
  · exact haccepted
  · rw [hsame] at hnone
    rw [hnone] at hdone
    cases hdone

theorem finishInline_spec (h : Held [] s) (hin : InHand s s' id) (bytes osError : Nat)
    (hroom : (s'.finishInline id bytes osError).Roomy) :
    PostSpec s (.ok id, s'.finishInline id bytes osError) := by
  obtain ⟨slot, hget, hbusy⟩ := hin.held.held id (List.mem_singleton.mpr rfl)
  have he := retire_ends hin.held.good hget hbusy hroom
  exact hin.finish h (he.stage _)
    (.of_eq (completed_stage ((s'.complete id).release id) id bytes osError)) rfl

theorem postWrite_spec (h : Held [] s) (hlive : Room s) (hroom : s.Roomy) (sys : Sys) (kind : OpKind)
    (fd : RawFd) {pending : Pending} (hside : pending.writeSide = true)
    (hafter : (postWrite sys kind fd pending s).2.Roomy) :
    PostSpec s (postWrite sys kind fd pending s) := by
  obtain ⟨id, s', generation, hlaunch, hin, hget, -⟩ :=
    launch_inHand h hlive hroom sys kind fd pending
  unfold postWrite at hafter ⊢
  rw [hlaunch] at hafter ⊢
  dsimp only at hafter ⊢
  have htried := hin.attempt hget sys.answer
  have hparkable := attempt_parkable hget sys.answer
  rw [hside] at hparkable
  generalize attempt sys.answer id s' = r at htried hparkable hafter ⊢
  obtain ⟨done, s''⟩ := r
  cases done with
  | none => exact htried.park h (hparkable rfl) sys.ctl hafter
  | some done => exact finishInline_spec h htried done.1 done.2 hafter

theorem postRecvFrom_spec (h : Held [] s) (hlive : Room s) (hroom : s.Roomy) (sys : Sys)
    (socket : RawFd) (buf len : Nat) (hafter : (postRecvFrom sys socket buf len s).2.Roomy) :
    PostSpec s (postRecvFrom sys socket buf len s) := by
  obtain ⟨id, s', generation, hlaunch, hin, hget, -⟩ :=
    launch_inHand h hlive hroom sys .recvFrom socket (.recvFrom buf len [])
  unfold postRecvFrom at hafter ⊢
  rw [hlaunch] at hafter ⊢
  dsimp only at hafter ⊢
  have htried := hin.attempt hget sys.answer
  have hparkable := attempt_parkable hget sys.answer
  generalize attempt sys.answer id s' = r at htried hparkable hafter ⊢
  obtain ⟨done, s''⟩ := r
  cases done with
  | none => exact htried.park h (hparkable rfl) sys.ctl hafter
  | some done =>
    obtain ⟨bytes, err⟩ := done
    dsimp only at hafter ⊢
    obtain ⟨slot, hget', hbusy⟩ := htried.held.held id (List.mem_singleton.mpr rfl)
    by_cases herr : err ≠ 0
    · rw [if_pos herr] at hafter ⊢
      exact finishInline_spec h htried bytes err hafter
    · -- the slot keeps the sender's address
      rw [if_neg herr] at hafter ⊢
      have he := complete_ends htried.held.good hget' hbusy
      exact htried.finish h (he.stage _)
        (.of_eq (completed_stage (s''.complete id) id bytes err)) rfl

theorem postAccept_spec (h : Held [] s) (hlive : Room s) (hroom : s.Roomy) (sys : Sys)
    (listener : RawFd) (hafter : (postAccept sys listener s).2.Roomy) :
    PostSpec s (postAccept sys listener s) := by
  unfold postAccept at hafter ⊢
  split
  · exact ⟨h, rfl, (fun id hok => by cases hok), fun _ _ _ hid => hid, fun id fd w hok => by cases hok⟩
  rename_i hidle
  rw [if_neg hidle] at hafter
  obtain ⟨id, s', generation, hlaunch, hin, hget, -⟩ :=
    launch_inHand h hlive hroom sys .accept listener .accept
  rw [hlaunch] at hafter ⊢
  dsimp only at hafter ⊢
  have htried := hin.attempt hget sys.answer
  have hparkable := attempt_parkable hget sys.answer
  generalize attempt sys.answer id s' = r at htried hparkable hafter ⊢
  obtain ⟨done, s''⟩ := r
  cases done with
  | none => exact htried.park h (hparkable rfl) sys.ctl hafter
  | some done =>
    obtain ⟨bytes, err⟩ := done
    obtain ⟨slot, hget', hbusy⟩ := htried.held.held id (List.mem_singleton.mpr rfl)
    cases err with
    | zero =>
      have he := complete_ends htried.held.good hget' hbusy
      exact htried.finish h (he.stage (.io id bytes 0))
        (.of_eq (completed_stage (s''.complete id) id bytes 0)) rfl
    | succ err => exact htried.fail h (.os (err + 1)) hafter

theorem postConnect_spec (h : Held [] s) (hlive : Room s) (hroom : s.Roomy) (sys : Sys)
    (socket : RawFd) (hafter : (postConnect sys socket s).2.Roomy) :
    PostSpec s (postConnect sys socket s) := by
  obtain ⟨id, s', generation, hlaunch, hin, hget, -⟩ :=
    launch_inHand h hlive hroom sys .connect socket .connect
  unfold postConnect at hafter ⊢
  rw [hlaunch] at hafter ⊢
  dsimp only at hafter ⊢
  cases hanswer : sys.answer with
  | done n addr =>
    rw [hanswer] at hafter
    exact finishInline_spec h hin 0 0 hafter
  | again =>
    rw [hanswer] at hafter
    exact finishInline_spec h hin 0 11 hafter
  | failed e =>
    rw [hanswer] at hafter
    dsimp only at hafter ⊢
    by_cases hprogress : e = einprogress
    · rw [if_pos hprogress] at hafter ⊢
      exact hin.park h ⟨_, hget, rfl, rfl, rfl, rfl⟩ sys.ctl hafter
    · rw [if_neg hprogress] at hafter ⊢
      exact finishInline_spec h hin 0 e.code hafter

theorem postRecv_spec (h : Held [] s) (hlive : Room s) (hroom : s.Roomy) (sys : Sys)
    (socket : RawFd) (buf len : Nat) (hafter : (postRecv sys socket buf len s).2.Roomy) :
    PostSpec s (postRecv sys socket buf len s) := by
  obtain ⟨id, s', generation, hlaunch, hin, hget, -⟩ :=
    launch_inHand h hlive hroom sys .recv socket (.recv buf len)
  unfold postRecv at hafter ⊢
  rw [hlaunch] at hafter ⊢
  dsimp only at hafter ⊢
  split
  · rename_i hdrained
    rw [if_pos hdrained] at hafter
    exact hin.park h ⟨_, hget, rfl, rfl, rfl, rfl⟩ sys.ctl hafter
  rename_i hdrained
  rw [if_neg hdrained] at hafter
  have htried := hin.attempt hget sys.answer
  have hparkable := attempt_parkable hget sys.answer
  generalize attempt sys.answer id s' = r at htried hparkable hafter ⊢
  obtain ⟨done, s''⟩ := r
  cases done with
  | none => exact htried.park h (hparkable rfl) sys.ctl hafter
  | some done =>
    obtain ⟨bytes, err⟩ := done
    dsimp only at hafter ⊢
    by_cases herr : err = 0
    · rw [if_pos herr] at hafter ⊢
      -- the entry says whether the socket was drained
      have hsame : ∀ fd w, ((s''.fds.entry socket).2.put socket
          { (s''.fds.entry socket).1 with drained := decide (bytes < len) }).parked fd w =
            s''.fds.parked fd w := by
        intro fd w
        obtain ⟨hentry, hparked⟩ := FdTable.entry_spec s''.fds socket
        rw [FdTable.parked_put]
        by_cases hfd : fd = socket
        · rw [if_pos hfd, hfd, ← hparked, FdTable.parked_of_get hentry]
          rfl
        · rw [if_neg hfd, hparked]
      exact finishInline_spec h (htried.table hsame) bytes err hafter
    · rw [if_neg herr] at hafter ⊢
      exact finishInline_spec h htried bytes err hafter

theorem post_spec (h : Held [] s) (hlive : Room s) (hroom : s.Roomy) {i : Input}
    {r : Except PostError OpId × EpollBackend} (hpost : post s i = some r) (hafter : r.2.Roomy) :
    PostSpec s r := by
  cases i <;> simp only [post, Option.some.injEq, reduceCtorEq] at hpost
  case postAccept sys listener =>
    subst hpost
    exact postAccept_spec h hlive hroom sys listener hafter
  case postRecv sys socket buf len =>
    subst hpost
    exact postRecv_spec h hlive hroom sys socket buf len hafter
  case postSend sys socket bufs =>
    subst hpost
    exact postWrite_spec h hlive hroom sys .send socket rfl hafter
  case postConnect sys socket =>
    subst hpost
    exact postConnect_spec h hlive hroom sys socket hafter
  case postRecvFrom sys socket buf len =>
    subst hpost
    exact postRecvFrom_spec h hlive hroom sys socket buf len hafter
  case postSendTo sys socket data dst =>
    subst hpost
    exact postWrite_spec h hlive hroom sys .sendTo socket rfl hafter

/-! ## 3. Readiness -/

/-- What the handling of an event, or a part of it, makes of the backend. -/
structure Kept (s s' : EpollBackend) : Prop where
  books : Books s s'
  held : s'.Roomy → Held [] s → Held [] s'
  -- nothing parks
  parked : ∀ fd w id, s'.fds.parked fd w = some id → s.fds.parked fd w = some id
  delivered : s.delivered <+: s'.delivered

theorem Kept.refl (s : EpollBackend) : Kept s s :=
  ⟨.refl s, fun _ h => h, fun _ _ _ hid => hid, List.prefix_refl _⟩

theorem Kept.trans {s'' : EpollBackend} (h : Kept s s') (h' : Kept s' s'') : Kept s s'' where
  books := h.books.trans h'.books
  held hroom hs := h'.held hroom (h.held (hroom.of_books h'.books) hs)
  parked fd w id hid := h.parked fd w id (h'.parked fd w id hid)
  delivered := h.delivered.trans h'.delivered

/-- What leaves the slab, the places and the operations completed alone. -/
theorem Kept.of_same (hslab : s'.slab = s.slab)
    (hfds : ∀ fd w, s'.fds.parked fd w = s.fds.parked fd w) (hcompleted : s'.completed = s.completed)
    (hdelivered : s.delivered <+: s'.delivered) (hreturned : s'.returned = s.returned)
    (hrecord : s'.accepts = s.accepts ∧ s'.handed = s.handed ∧ s'.closed = s.closed) : Kept s s' where
  books := .of_slab hslab
  held _ hs := hs.congr hslab hfds hcompleted hreturned hrecord
  parked fd w _ hid := hfds fd w ▸ hid
  delivered := hdelivered

theorem attempt_table (answer : Answer) (id : OpId) (s : EpollBackend) (fds : FdTable) :
    (attempt answer id { s with fds := fds }).2 = { (attempt answer id s).2 with fds := fds } := by
  unfold attempt
  cases s.slab.slab.get id with
  | none => rfl
  | some slot =>
    dsimp only
    split <;> rfl

/-- A side's place, emptied. -/
theorem FdTable.parked_emptied {fd : RawFd} {w : Bool} {fds : FdTable} {entry e : FdEntry}
    (hget : fds.get fd = some entry) (he : ∀ w', e.op w' = (entry.setOp w none).op w') (fd' : RawFd)
    (w' : Bool) :
    (fds.put fd e).parked fd' w' = if fd' = fd ∧ w' = w then none else fds.parked fd' w' := by
  rw [FdTable.parked_put]
  by_cases hfd : fd' = fd
  · rw [if_pos hfd, he, FdEntry.op_setOp, hfd, FdTable.parked_of_get hget]
    by_cases hw : w' = w
    · rw [if_pos hw, if_pos ⟨rfl, hw⟩]
    · rw [if_neg hw, if_neg fun hboth => hw hboth.2]
  · rw [if_neg hfd, if_neg fun hboth => hfd hboth.1]

/-- The end of an operation that was parked: off its side, completed, perhaps recycled. -/
theorem driven_kept {answer : Answer} {fd : RawFd} {w : Bool} {bytes osError : Nat} {fds : FdTable}
    {s₁ tail : EpollBackend} (hid : s.fds.parked fd w = some id)
    (htry : attempt answer id s = (some (bytes, osError), s₁))
    (hfds : ∀ fd' w', fds.parked fd' w' = if fd' = fd ∧ w' = w then none else s.fds.parked fd' w')
    (htail : tail = complete id { s₁ with fds := fds } ∨
      tail = release id (complete id { s₁ with fds := fds })) :
    Kept s { tail with delivered := tail.delivered ++ [.io id bytes osError] } := by
  obtain ⟨hbooks, -, -, hdelivered, -⟩ := attempt_frame answer id s
  have htable := attempt_table answer id s fds
  rw [htry] at hbooks hdelivered htable
  have hunparked : Books s₁ { s₁ with fds := fds } := .of_slab rfl
  have hcompleted : Books s (complete id { s₁ with fds := fds }) :=
    (hbooks.trans hunparked).trans (complete_books id _)
  have htailBooks : Books s tail ∧ tail.fds = fds ∧ tail.delivered = s₁.delivered := by
    rcases htail with rfl | rfl
    · exact ⟨hcompleted, rfl, rfl⟩
    · exact ⟨hcompleted.trans (release_books id _), rfl, rfl⟩
  obtain ⟨hall, htailFds, htailDelivered⟩ := htailBooks
  constructor
  · exact hall.trans (.of_slab rfl)
  · intro hroom h
    -- off its side first, and tried there
    have hhand : Held [id] { s with fds := fds } := h.unpark hid hfds
    obtain ⟨slot, hget, -⟩ := hhand.held id (List.mem_singleton.mpr rfl)
    have htried : Held [id] { s₁ with fds := fds } := by
      rw [← htable]
      apply attempt_held hhand hget answer
      rintro ⟨fd', w', hat⟩
      exact absurd (List.mem_singleton.mpr rfl) (hhand.parked fd' w' id hat).1
    obtain ⟨slot₁, hget₁, hbusy₁⟩ := htried.held id (List.mem_singleton.mpr rfl)
    have hends : Ends id { s₁ with fds := fds } tail := by
      rcases htail with rfl | rfl
      · exact complete_ends htried.good hget₁ hbusy₁
      · exact retire_ends htried.good hget₁ hbusy₁ hroom
    have hsame : tail.completed = EpollBackend.completed { s₁ with fds := fds } := by
      rcases htail with rfl | rfl <;> rfl
    refine htried.ended List.not_mem_nil (hends.deliver (.io id bytes osError)) (.inl ?_)
    rw [← hsame]
    exact completed_deliver tail id bytes osError
  · intro fd' w' id' hid'
    have hat : fds.parked fd' w' = some id' := by
      rw [← htailFds]
      exact hid'
    rw [hfds] at hat
    split at hat
    · cases hat
    · exact hat
  · show s.delivered <+: tail.delivered ++ _
    rw [htailDelivered, ← hdelivered]
    exact List.prefix_append _ _

theorem driveSide_kept (answer : Answer) (ctl : Ctl) (fd : RawFd) (w : Bool) (s : EpollBackend) :
    Kept s (driveSide answer ctl fd w s).2 := by
  unfold driveSide
  cases hplace : (s.fds.get fd).bind (·.op w) with
  | none => exact .refl s
  | some id =>
    obtain ⟨hbooks, hfds, -, hdelivered, -⟩ := attempt_frame answer id s
    obtain ⟨entry, hentry, -⟩ := Option.bind_eq_some_iff.mp hplace
    dsimp only
    cases htry : attempt answer id s with
    | mk done s₁ =>
      rw [htry] at hbooks hfds hdelivered
      cases done with
      | none =>
        -- it would block still
        constructor
        · exact hbooks
        · intro hroom h
          obtain ⟨-, slot, hget, -⟩ := h.parked fd w id hplace
          have hheld := attempt_held h hget answer fun _ => by
            rw [← (attempt_get hget answer).1, htry]
          rw [htry] at hheld
          exact hheld
        · intro fd' w' id' hid'
          rw [← hfds]
          exact hid'
        · rw [← hdelivered]
      | some done =>
        dsimp only at hfds ⊢
        rw [hfds, hentry]
        dsimp only
        apply driven_kept hplace htry
        case htail =>
          split
          · split
            · exact .inl rfl
            · exact .inr rfl
          · split
            · exact .inl rfl
            · exact .inr rfl
          · exact .inr rfl
        · intro fd' w'
          rw [syncInterest_parked]
          apply FdTable.parked_emptied hentry
          intro w'
          split <;> rfl

/-- What is handed out beside the completions. -/
theorem Kept.deliver_other (s : EpollBackend) {c : Completion} (hc : ioOp c = none) :
    Kept s { s with delivered := s.delivered ++ [c] } := by
  refine Kept.of_same rfl (fun _ _ => rfl) ?_ (List.prefix_append _ _) rfl ⟨rfl, rfl, rfl⟩
  show ios (s.delivered ++ [c]) ++ _ = _
  rw [ios, List.filterMap_append, List.filterMap_cons, hc]
  simp [EpollBackend.completed, ios]

theorem syncInterest_kept (lazily : Bool) (ctl : Ctl) (fd : RawFd) (s : EpollBackend) :
    Kept s { s with fds := (syncInterest lazily ctl fd s.fds).2 } :=
  .of_same rfl (syncInterest_parked lazily ctl fd s.fds) rfl (List.prefix_refl _) rfl ⟨rfl, rfl, rfl⟩

/-- A side of an event, driven if it is reported ready. -/
def driveReady (ready : Bool) (answer : Answer) (ctl : Ctl) (fd : RawFd) (w : Bool)
    (s : EpollBackend) : Bool × EpollBackend :=
  if ready then driveSide answer ctl fd w s else (false, s)

theorem driveReady_kept (ready : Bool) (answer : Answer) (ctl : Ctl) (fd : RawFd) (w : Bool)
    (s : EpollBackend) : Kept s (driveReady ready answer ctl fd w s).2 := by
  unfold driveReady
  split
  · exact driveSide_kept answer ctl fd w s
  · exact .refl s

/-- After the two sides, an event settles the watches and the registration. -/
theorem handle_after (fd : RawFd) (readReady writeReady : Bool) (read write : Answer)
    (readCtl writeCtl tail : Ctl) (s : EpollBackend) :
    Kept (driveReady writeReady write writeCtl fd true (driveReady readReady read readCtl fd false s).2).2
      (handle s (.fd fd readReady writeReady read write readCtl writeCtl tail)) := by
  show Kept _ (let r := driveReady readReady read readCtl fd false s
    let w := driveReady writeReady write writeCtl fd true r.2
    let s := w.2
    let wr := (s.fds.get fd).any (·.watchR) && readReady
    let ww := (s.fds.get fd).any (·.watchW) && writeReady
    let s := if wr || ww then { s with delivered := s.delivered ++ [.ready fd wr ww] } else s
    if (readReady && !(r.1 || wr)) || (writeReady && !(w.1 || ww)) then
      { s with fds := (syncInterest false tail fd s.fds).2 }
    else s)
  dsimp only
  generalize driveReady writeReady write writeCtl fd true
    (driveReady readReady read readCtl fd false s).2 = w
  generalize ((w.2.fds.get fd).any (·.watchR) && readReady) = wr
  generalize ((w.2.fds.get fd).any (·.watchW) && writeReady) = ww
  have hwatched : Kept w.2
      (if wr || ww then { w.2 with delivered := w.2.delivered ++ [.ready fd wr ww] } else w.2) := by
    split
    · exact .deliver_other _ rfl
    · exact .refl w.2
  split
  · exact hwatched.trans (syncInterest_kept false tail fd _)
  · exact hwatched

theorem handle_kept (s : EpollBackend) (ev : Event) : Kept s (handle s ev) := by
  cases ev with
  | wake =>
    have harmed : Kept s { s with armed := false } :=
      .of_same rfl (fun _ _ => rfl) rfl (List.prefix_refl _) rfl ⟨rfl, rfl, rfl⟩
    exact harmed.trans (.deliver_other _ rfl)
  | fd fd readReady writeReady read write readCtl writeCtl tail =>
    have hread := driveReady_kept readReady read readCtl fd false s
    have hwrite := driveReady_kept writeReady write writeCtl fd true
      (driveReady readReady read readCtl fd false s).2
    exact (hread.trans hwrite).trans
      (handle_after fd readReady writeReady read write readCtl writeCtl tail s)

theorem handleAll_kept (es : List Event) (s : EpollBackend) : Kept s (es.foldl handle s) := by
  induction es generalizing s with
  | nil => exact .refl s
  | cons e es ih => exact (handle_kept s e).trans (ih (handle s e))

theorem takeStaged_kept (s : EpollBackend) : Kept s (takeStaged s) := by
  refine Kept.of_same rfl (fun _ _ => rfl) ?_ (List.prefix_append _ _) rfl ⟨rfl, rfl, rfl⟩
  show ios (s.delivered ++ s.inlineCompletions) ++ ios [] = _
  rw [ios, List.filterMap_append]
  exact List.append_nil _

theorem poll_kept (timeout : Nat) (wait : Wait) (s : EpollBackend) : Kept s (poll timeout wait s) := by
  unfold poll
  dsimp only
  generalize (if s.inlineCompletions.isEmpty then timeout else 0) = timeout
  split
  · exact takeStaged_kept s
  · cases wait with
    | events es => exact (takeStaged_kept s).trans (handleAll_kept es _)
    | interrupted => exact takeStaged_kept s
    | failed e => exact takeStaged_kept s

/-- An operation the kernel finished is off its side, and in a completion handed out. -/
theorem driveSide_finishes {answer : Answer} {fd : RawFd} {w : Bool} {bytes osError : Nat}
    (ctl : Ctl) (hid : s.fds.parked fd w = some id)
    (htry : (attempt answer id s).1 = some (bytes, osError)) :
    .io id bytes osError ∈ (driveSide answer ctl fd w s).2.delivered := by
  have hplace : (s.fds.get fd).bind (·.op w) = some id := hid
  unfold driveSide
  rw [hplace]
  dsimp only
  generalize attempt answer id s = r at htry
  obtain ⟨done, s₁⟩ := r
  cases htry
  exact List.mem_append_right _ (List.mem_singleton.mpr rfl)

/-! ## 4. The other calls -/

/-- An operation in hand is given up. -/
theorem EpollBackend.Held.abandon (h : Held (id :: hold) s) (hnot : id ∉ hold) (osError : Nat)
    (hroom : ((s.markCancelled id).finishInline id 0 osError).Roomy) :
    Held hold ((s.markCancelled id).finishInline id 0 osError) := by
  have hmarked := h.markCancelled List.mem_cons_self
  obtain ⟨slot, hget, hbusy⟩ := hmarked.held id List.mem_cons_self
  have hends := retire_ends hmarked.good hget hbusy hroom
  exact hmarked.ended hnot (hends.stage _)
    (.inl (.of_eq (completed_stage (((s.markCancelled id).complete id).release id) id 0 osError)))

theorem abandon_books (id : OpId) (osError : Nat) (s : EpollBackend) :
    Books s ((s.markCancelled id).finishInline id 0 osError) :=
  (markCancelled_books id s).trans (finishInline_books id 0 osError _)

/-- Between calls, an operation that is posted is parked where its payload says. -/
theorem EpollBackend.Held.place (h : Held [] s) (hget : s.slab.slab.get id = some slot)
    (hbusy : slot.inFlight = true) : ∃ fd, slot.data.fd = some fd ∧ slot.data.accepted = none ∧
      s.fds.parked fd slot.data.pending.writeSide = some id := by
  obtain ⟨fd, w, hid⟩ := (h.busy id slot hget hbusy).resolve_left List.not_mem_nil
  obtain ⟨-, slot', hget', -, hfd, hside, hnone⟩ := h.parked fd w id hid
  rw [hget] at hget'
  injection hget' with hget'
  subst hget'
  exact ⟨fd, hfd, hnone, hside ▸ hid⟩

theorem closeAccepted_none (hget : s.slab.slab.get id = some slot) (hnone : slot.data.accepted = none) :
    closeAccepted id s = s := by
  unfold closeAccepted
  rw [hget, Option.bind_some, hnone]

/-- Between calls, `cancel` of an operation in flight takes it off its side and gives it up. -/
theorem cancel_eq (h : Held [] s) (ctl : Ctl) (hget : s.slab.slab.get id = some slot)
    (hposted : slot.state = .posted) : ∃ fd w fds, s.fds.parked fd w = some id ∧
      (∀ fd' w', fds.parked fd' w' = if fd' = fd ∧ w' = w then none else s.fds.parked fd' w') ∧
      cancel ctl id s =
        (markCancelled id { s with fds := fds }).finishInline id 0 ecanceled.code := by
  obtain ⟨fd, hfd, hnone, hid⟩ := h.place hget (by simp [OpSlot.inFlight, hposted])
  obtain ⟨entry, hentry, hop⟩ := Option.bind_eq_some_iff.mp hid
  have hafter : (s.markCancelled id).slab.slab.get id = some { slot with state := .cancelled } :=
    (Ops.Run.markCancelled_get hget hposted id).trans (if_pos rfl)
  have hmark : (s.slab.slab.markCancelled id).1 ≠ false := by
    rw [Ops.OpSlab.markCancelled_of_get hget, if_pos hposted]
    simp
  have hentry' : (s.markCancelled id).fds.get fd = some entry := hentry
  refine ⟨fd, slot.data.pending.writeSide, _, hid, fun fd' w' => (syncInterest_parked true ctl fd _ fd' w').trans
    (FdTable.parked_emptied hentry (fun _ => rfl) fd' w'), ?_⟩
  unfold cancel
  rw [if_neg hmark]
  dsimp only
  rw [hafter]
  dsimp only
  rw [hfd]
  dsimp only
  rw [hentry']
  dsimp only
  rw [if_pos hop]
  -- a parked accept has no descriptor to close
  split
  · exact congrArg (finishInline id 0 ecanceled.code)
      (closeAccepted_none (s := { s.markCancelled id with fds := _ }) hafter hnone)
  · rfl

theorem cancel_held (h : Held [] s) (ctl : Ctl) (op : OpId) (hroom : (cancel ctl op s).Roomy) :
    Held [] (cancel ctl op s) ∧
      ∀ fd w, (cancel ctl op s).fds.parked fd w =
        if s.fds.parked fd w = some op then none else s.fds.parked fd w := by
  have hidle : (s.slab.slab.markCancelled op).1 = false → cancel ctl op s = s := by
    intro hmark
    rw [cancel, if_pos hmark]
  have hnowhere : (∀ slot, s.slab.slab.get op = some slot → slot.state ≠ .posted) →
      ∀ fd w, s.fds.parked fd w ≠ some op := by
    intro hnot fd w hid
    obtain ⟨-, slot, hget, hposted, -⟩ := h.parked fd w op hid
    exact hnot slot hget hposted
  have hsame : (∀ slot, s.slab.slab.get op = some slot → slot.state ≠ .posted) →
      cancel ctl op s = s := by
    intro hnot
    apply hidle
    cases hget : s.slab.slab.get op with
    | none => rw [(Ops.OpSlab.stale hget).1]
    | some slot => rw [Ops.OpSlab.markCancelled_of_get hget, if_neg (hnot slot hget)]
  by_cases hnot : ∀ slot, s.slab.slab.get op = some slot → slot.state ≠ .posted
  · rw [hsame hnot]
    refine ⟨h, fun fd w => ?_⟩
    rw [if_neg (hnowhere hnot fd w)]
  · obtain ⟨slot, hboth⟩ := not_forall.mp hnot
    obtain ⟨hget, hposted⟩ := Classical.not_imp.mp hboth
    obtain ⟨fd, w, fds, hid, hfds, heq⟩ := cancel_eq h ctl hget (not_not.mp hposted)
    rw [heq] at hroom ⊢
    refine ⟨(h.unpark hid hfds).abandon List.not_mem_nil _ hroom, fun fd' w' => ?_⟩
    show fds.parked fd' w' = _
    rw [hfds]
    by_cases hplace : fd' = fd ∧ w' = w
    · rw [if_pos hplace, if_pos]
      rw [hplace.1, hplace.2, hid]
    · rw [if_neg hplace, if_neg]
      intro hat
      -- it is parked in one place only
      exact hplace (h.one_place hat hid)

/-- Of a side that may be empty. -/
theorem EpollBackend.Held.unpark_toList (h : Held hold s) (fd : RawFd) (w : Bool) {fds : FdTable}
    (hfds : ∀ fd' w', fds.parked fd' w' =
      if fd' = fd ∧ w' = w then none else s.fds.parked fd' w') :
    Held ((s.fds.parked fd w).toList ++ hold) { s with fds := fds } := by
  cases hid : s.fds.parked fd w with
  | some id => exact h.unpark hid hfds
  | none =>
    refine h.congr rfl (fun fd' w' => ?_) rfl rfl ⟨rfl, rfl, rfl⟩
    show fds.parked fd' w' = _
    rw [hfds]
    by_cases hplace : fd' = fd ∧ w' = w
    · rw [if_pos hplace, hplace.1, hplace.2, hid]
    · rw [if_neg hplace]

theorem abandon_fds (osError : Nat) (ids : List OpId) (s : EpollBackend) :
    (ids.foldl (fun s id => (s.markCancelled id).finishInline id 0 osError) s).fds = s.fds := by
  induction ids generalizing s with
  | nil => rfl
  | cons id ids ih => exact ih _

/-- All that was in hand is given up. -/
theorem abandon_all {ids : List OpId} (h : Held ids s) (honce : ids.Nodup) (osError : Nat)
    (hroom : (ids.foldl (fun s id => (s.markCancelled id).finishInline id 0 osError) s).Roomy) :
    Held [] (ids.foldl (fun s id => (s.markCancelled id).finishInline id 0 osError) s) := by
  have hbooks : ∀ (ids : List OpId) (s : EpollBackend),
      Books s (ids.foldl (fun s id => (s.markCancelled id).finishInline id 0 osError) s) := by
    intro ids
    induction ids with
    | nil => exact fun s => .refl s
    | cons id ids ih => exact fun s => (abandon_books id osError s).trans (ih _)
  induction ids generalizing s with
  | nil => exact h
  | cons id ids ih =>
    obtain ⟨hnot, honce⟩ := List.nodup_cons.mp honce
    have hfirst := h.abandon hnot osError (hroom.of_books (hbooks ids _))
    exact ih hfirst honce hroom

theorem detachSocket_held (h : Held [] s) (fd : RawFd) (hroom : (detachSocket fd s).Roomy) :
    Held [] (detachSocket fd s) ∧
      ∀ fd' w, (detachSocket fd s).fds.parked fd' w =
        if fd' = fd then none else s.fds.parked fd' w := by
  unfold detachSocket at hroom ⊢
  cases hentry : s.fds.get fd with
  | none =>
    refine ⟨h, fun fd' w => ?_⟩
    by_cases hfd : fd' = fd
    · rw [if_pos hfd, hfd, FdTable.parked, hentry]
      rfl
    · rw [if_neg hfd]
  | some entry =>
    rw [hentry] at hroom
    dsimp only at hroom ⊢
    have hread : entry.readOp = s.fds.parked fd false := (FdTable.parked_of_get hentry false).symm
    have hwrite : entry.writeOp = s.fds.parked fd true := (FdTable.parked_of_get hentry true).symm
    rw [hread, hwrite] at hroom ⊢
    -- the write side comes into hand, then the read side
    have hw := h.unpark_toList fd true (FdTable.parked_emptied hentry fun _ => rfl)
    have hremoved : ∀ fd' w', (s.fds.forget fd).parked fd' w' =
        if fd' = fd ∧ w' = false then none
        else (s.fds.put fd (entry.setOp true none)).parked fd' w' := by
      intro fd' w'
      rw [FdTable.parked_forget, FdTable.parked_emptied hentry fun _ => rfl]
      cases w' <;> by_cases hfd : fd' = fd <;> simp [hfd]
    have hr := hw.unpark_toList fd false hremoved
    have hstill : (s.fds.put fd (entry.setOp true none)).parked fd false = s.fds.parked fd false := by
      rw [FdTable.parked_emptied hentry fun _ => rfl, if_neg (by simp)]
    rw [List.append_nil] at hr
    dsimp only at hr
    rw [hstill] at hr
    have honce : ((s.fds.parked fd false).toList ++ (s.fds.parked fd true).toList).Nodup := by
      rw [List.nodup_append]
      refine ⟨Option.toList_nodup _, Option.toList_nodup _, fun a ha b hb hab => ?_⟩
      subst hab
      have htwo := h.one_place (Option.mem_toList.mp ha) (Option.mem_toList.mp hb)
      cases htwo.2
    refine ⟨abandon_all hr honce ecanceled.code hroom, fun fd' w' => ?_⟩
    rw [abandon_fds]
    exact FdTable.parked_forget s.fds fd fd' w'

/-- An entry with the same operations on its sides, over the one there. -/
theorem FdTable.parked_replaced {fd : RawFd} {fds : FdTable} {entry e : FdEntry}
    (hget : fds.get fd = some entry) (he : ∀ w, e.op w = entry.op w) (fd' : RawFd) (w : Bool) :
    (fds.put fd e).parked fd' w = fds.parked fd' w := by
  rw [FdTable.parked_put]
  by_cases hfd : fd' = fd
  · rw [if_pos hfd, hfd, FdTable.parked_of_get hget, he]
  · rw [if_neg hfd]

theorem setWatch_same (ctl : Ctl) (fd : RawFd) (readable writable : Bool) (s : EpollBackend) :
    ∃ fds, setWatch ctl fd readable writable s = { s with fds := fds } ∧
      ∀ fd' w, fds.parked fd' w = s.fds.parked fd' w := by
  obtain ⟨hentry, hmade⟩ := FdTable.entry_spec s.fds fd
  unfold setWatch
  split
  · exact ⟨s.fds, rfl, fun _ _ => rfl⟩
  dsimp only
  generalize (if readable = true ∧ (s.fds.entry fd).1.watchR = true ∨
    writable = true ∧ (s.fds.entry fd).1.watchW = true then Mask.none
      else (s.fds.entry fd).1.kernel) = kernel
  generalize s.fds.entry fd = r at hentry hmade ⊢
  obtain ⟨entry, made⟩ := r
  have hsync : ∀ fd' w, (syncInterest false ctl fd (made.put fd { entry with
      kernel := kernel, watchR := readable, watchW := writable })).2.parked fd' w =
        s.fds.parked fd' w := by
    intro fd' w
    rw [syncInterest_parked, FdTable.parked_replaced hentry (fun w => by cases w <;> rfl)]
    exact hmade fd' w
  dsimp only
  generalize syncInterest false ctl fd (made.put fd { entry with
    kernel := kernel, watchR := readable, watchW := writable }) = sync at hsync ⊢
  split
  · exact ⟨sync.2, rfl, hsync⟩
  cases hget : sync.2.get fd with
  | none => exact ⟨sync.2, rfl, hsync⟩
  | some entry' =>
    have hback := FdTable.parked_replaced hget
      (e := { entry' with watchR := entry.watchR, watchW := entry.watchW }) fun w => by cases w <;> rfl
    refine ⟨_, rfl, fun fd' w => ?_⟩
    rw [← hsync, ← hback]
    split
    · rename_i hidle
      rw [FdTable.parked_remove]
      by_cases hfd : fd' = fd
      · -- an entry with no interest has nothing parked
        rw [if_pos hfd, hfd, FdTable.parked_put, if_pos rfl, FdEntry.op_of_idle hidle.1]
      · rw [if_neg hfd]
    · rfl

theorem registerSocket_held (h : Held [] s) {fd : RawFd} (hfree : ∀ w, s.fds.parked fd w = none) :
    Held [] (registerSocket fd s) := by
  refine h.congr rfl (fun fd' w => ?_) rfl rfl ⟨rfl, rfl, rfl⟩
  show (s.fds.forget fd).parked fd' w = _
  rw [FdTable.parked_forget]
  by_cases hfd : fd' = fd
  · rw [if_pos hfd, hfd, hfree]
  · rw [if_neg hfd]

theorem takeRecvFromAddr_held (h : Held [] s) (op : OpId)
    (hroom : (takeRecvFromAddr op s).2.Roomy) : Held [] (takeRecvFromAddr op s).2 := by
  unfold takeRecvFromAddr at hroom ⊢
  split
  · exact h
  · rename_i slot hget
    rw [hget] at hroom
    exact h.release op hroom

/-- `take_accept_socket`, with what it hands out on the record. -/
theorem takeAcceptSocket_held (h : Held [] s) (op : OpId)
    (hroom : (takeAcceptSocket op s).2.Roomy) :
    Held [] { (takeAcceptSocket op s).2 with
      handed := (takeAcceptSocket op s).2.handed ++
        ((takeAcceptSocket op s).1.map fun n => (op, n)).toList } := by
  unfold takeAcceptSocket at hroom ⊢
  cases hget : s.slab.slab.get op with
  | none =>
    exact h.congr rfl (fun _ _ => rfl) rfl rfl ⟨rfl, List.append_nil _, rfl⟩
  | some slot =>
    rw [hget] at hroom
    dsimp only at hroom ⊢
    have hemptied : Held [] (s.setData op { slot.data with accepted := none }) :=
      h.setData hget { slot.data with accepted := none } rfl rfl (fun _ => rfl) (fun p hp => hp)
        fun n hn => by cases hn
    have hlookup := Ops.Run.getMut_get hget (fun kd => (kd.1, { slot.data with accepted := none })) op
    rw [if_pos rfl] at hlookup
    have hreleased := hemptied.release op hroom
    cases haccepted : slot.data.accepted with
    | none => exact hreleased.congr rfl (fun _ _ => rfl) rfl rfl ⟨rfl, List.append_nil _, rfl⟩
    | some n =>
      -- what is parked has no descriptor, so the slot had completed
      have hdone : slot.state = .completed := by
        by_contra hnot
        have hbusy : slot.inFlight = true := by
          have hlive := (Ops.OpSlab.get_eq_some.mp hget).2.2
          cases hstate : slot.state <;> simp_all [OpSlot.inFlight]
        obtain ⟨fd, -, hnone, -⟩ := h.place hget hbusy
        rw [haccepted] at hnone
        cases hnone
      have hgone := Ops.Run.release_get hlookup hdone op
      rw [if_pos rfl] at hgone
      have hnever : op ∉ s.handed.map Prod.fst := by
        intro hmem
        obtain ⟨p, hp, rfl⟩ := List.mem_map.mp hmem
        rw [(h.handed p hp).2.2] at hget
        cases hget
      refine ⟨hreleased.good, hreleased.parked, hreleased.held, hreleased.busy, hreleased.once,
        hreleased.completed, hreleased.returned_once, hreleased.returned, hreleased.accepted, ?_,
        fun p hp => ?_, hreleased.closed⟩
      · show ((s.handed ++ [(op, n)]).map Prod.fst).Nodup
        rw [List.map_append, List.nodup_append]
        refine ⟨h.handed_once, List.nodup_singleton _, fun a ha b hb hab => ?_⟩
        rw [hab, List.mem_singleton.mp hb] at ha
        exact hnever ha
      · rcases List.mem_append.mp hp with hbefore | hnow
        · exact hreleased.handed p hbefore
        · rw [List.mem_singleton.mp hnow]
          refine ⟨h.accepted op slot n hget haccepted, ?_, hgone⟩
          rw [(release_books op _).issued]
          exact h.issued hget

end Cadeloop.Core.Epoll
