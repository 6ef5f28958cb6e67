import Cadeloop.Core.Epoll
import Cadeloop.Core.OpSlabLookups

/-!
# Operations parked and in hand

Between two calls an operation in flight is parked, on one side of one descriptor.  Inside a call it
may be in hand: posted and not parked yet, or taken off its side and not completed yet.  The
invariant names the ids in hand, and every part of a call moves an id from one place to the next.
-/

namespace Cadeloop.Core.Epoll

open Cadeloop.Reasoning
open Ops (OpId OpKind OpState OpSlot)

/-! ## 1. The table -/

namespace FdTable

/-- The operation parked on a side of a descriptor. -/
def parked (t : FdTable) (fd : RawFd) (writeSide : Bool) : Option OpId :=
  (t.get fd).bind (·.op writeSide)

variable {t : FdTable} {fd : RawFd}

theorem parked_of_get {e : FdEntry} (h : t.get fd = some e) (w : Bool) : t.parked fd w = e.op w := by
  rw [parked, h]
  rfl

theorem parked_put (t : FdTable) (fd : RawFd) (e : FdEntry) (fd' : RawFd) (w : Bool) :
    (t.put fd e).parked fd' w = if fd' = fd then e.op w else t.parked fd' w := by
  unfold parked get put
  by_cases hfd : fd' = fd
  · rw [if_pos hfd, hfd]
    simp
  · rw [if_neg hfd]
    simp [Function.update_of_ne hfd]

theorem parked_remove (t : FdTable) (fd fd' : RawFd) (w : Bool) :
    (t.remove fd).parked fd' w = if fd' = fd then none else t.parked fd' w := by
  unfold parked get remove
  cases hslot : t.slots fd with
  | none =>
    by_cases hfd : fd' = fd
    · rw [if_pos hfd, hfd]
      simp [hslot]
    · rw [if_neg hfd]
  | some e =>
    by_cases hfd : fd' = fd
    · rw [if_pos hfd, hfd]
      simp
    · rw [if_neg hfd]
      simp [Function.update_of_ne hfd]

theorem parked_forget (t : FdTable) (fd fd' : RawFd) (w : Bool) :
    (t.forget fd).parked fd' w = if fd' = fd then none else t.parked fd' w := by
  rw [← parked_remove]
  unfold forget
  split <;> rfl

/-- An entry made has nothing parked. -/
theorem entry_spec (t : FdTable) (fd : RawFd) :
    (t.entry fd).2.get fd = some (t.entry fd).1 ∧
      ∀ fd' w, (t.entry fd).2.parked fd' w = t.parked fd' w := by
  unfold entry
  cases hslot : t.slots fd with
  | some e => exact ⟨hslot, fun _ _ => rfl⟩
  | none =>
    refine ⟨by simp [get, put], fun fd' w => ?_⟩
    show (t.put fd .default).parked fd' w = _
    rw [parked_put]
    by_cases hfd : fd' = fd
    · rw [if_pos hfd, hfd, parked, get, hslot]
      cases w <;> rfl
    · rw [if_neg hfd]

end FdTable

theorem FdEntry.op_setOp (e : FdEntry) (w : Bool) (o : Option OpId) (w' : Bool) :
    (e.setOp w o).op w' = if w' = w then o else e.op w' := by
  cases w <;> cases w' <;> rfl

theorem FdEntry.op_of_idle {e : FdEntry} (h : e.interest = .none) (w : Bool) : e.op w = none := by
  unfold interest Mask.none at h
  injection h with hr hw
  cases w with
  | false =>
    cases hop : e.readOp with
    | none => exact hop
    | some id => simp [hop] at hr
  | true =>
    cases hop : e.writeOp with
    | none => exact hop
    | some id => simp [hop] at hw

/-- Whatever becomes of the registration, what is parked stays parked. -/
theorem syncInterest_parked (lazily : Bool) (ctl : Ctl) (fd : RawFd) (fds : FdTable) (fd' : RawFd)
    (w : Bool) : (syncInterest lazily ctl fd fds).2.parked fd' w = fds.parked fd' w := by
  unfold syncInterest
  cases hget : fds.get fd with
  | none => rfl
  | some entry =>
    have hremoved : entry.interest = .none → (fds.remove fd).parked fd' w = fds.parked fd' w := by
      intro hidle
      rw [FdTable.parked_remove]
      by_cases hfd : fd' = fd
      · rw [if_pos hfd, hfd, FdTable.parked_of_get hget, FdEntry.op_of_idle hidle]
      · rw [if_neg hfd]
    have hput : ∀ e : FdEntry, (∀ w, e.op w = entry.op w) →
        (fds.put fd e).parked fd' w = fds.parked fd' w := by
      intro e he
      rw [FdTable.parked_put]
      by_cases hfd : fd' = fd
      · rw [if_pos hfd, hfd, FdTable.parked_of_get hget, he]
      · rw [if_neg hfd]
    dsimp only
    split
    · rfl
    split
    · rfl
    split
    · rename_i hidle
      exact hremoved hidle.2
    split
    · rename_i hidle
      exact hremoved hidle
    split
    · exact hput _ fun w => rfl
    · dsimp only
      split
      · exact hput _ fun w => rfl
      · rfl

/-! ## 2. The record of ids -/

def ioOp : Completion → Option OpId
  | .io op _ _ => some op
  | _ => none

/-- The operations of a list of completions. -/
def ios (cs : List Completion) : List OpId := cs.filterMap ioOp

namespace EpollBackend

/-- The operations completed, delivered or staged. -/
def completed (s : EpollBackend) : List OpId := ios s.delivered ++ ios s.inlineCompletions

/-- No slot was recycled 2^32 times. -/
def Roomy (s : EpollBackend) : Prop :=
  ∀ i, Recycling.recyclings s.slab.book.recycled i < 2 ^ 32

/-- Only a post issues ids, and only a release recycles them. -/
structure Books (s s' : EpollBackend) : Prop where
  issued : s'.slab.book.issued = s.slab.book.issued
  recycled : s.slab.book.recycled <+: s'.slab.book.recycled

theorem Books.refl (s : EpollBackend) : Books s s := ⟨rfl, List.prefix_refl _⟩

variable {s s' s'' : EpollBackend}

theorem Books.trans (h : Books s s') (h' : Books s' s'') : Books s s'' :=
  ⟨h'.issued.trans h.issued, h.recycled.trans h'.recycled⟩

/-- What does not touch the slab. -/
theorem Books.of_slab (h : s'.slab = s.slab) : Books s s' := ⟨by rw [h], by rw [h]⟩

theorem Roomy.of_prefix (h : s'.Roomy)
    (hrecycled : s.slab.book.recycled <+: s'.slab.book.recycled) : s.Roomy := fun i =>
  lt_of_le_of_lt hrecycled.sublist.countP_le (h i)

theorem Roomy.of_books (h : s'.Roomy) (hbooks : Books s s') : s.Roomy := h.of_prefix hbooks.recycled

theorem setData_books (id : OpId) (data : EpollOp) (s : EpollBackend) : Books s (s.setData id data) :=
  ⟨rfl, List.prefix_refl _⟩

theorem markCancelled_books (id : OpId) (s : EpollBackend) : Books s (s.markCancelled id) := by
  constructor
  · show (s.slab.book.markCancelled id).issued = _
    unfold Ops.Book.markCancelled
    split <;> rfl
  · show _ <+: (s.slab.book.markCancelled id).recycled
    unfold Ops.Book.markCancelled
    split <;> exact List.prefix_refl _

theorem complete_books (id : OpId) (s : EpollBackend) : Books s (s.complete id) := by
  constructor
  · show (s.slab.book.complete id).issued = _
    unfold Ops.Book.complete
    split <;> rfl
  · show _ <+: (s.slab.book.complete id).recycled
    unfold Ops.Book.complete
    split <;> exact List.prefix_refl _

theorem release_books (id : OpId) (s : EpollBackend) : Books s (s.release id) := by
  constructor
  · show (s.slab.book.release id).issued = _
    unfold Ops.Book.release
    split <;> rfl
  · show _ <+: (s.slab.book.release id).recycled
    unfold Ops.Book.release
    split
    · exact List.prefix_append _ _
    · exact List.prefix_refl _

theorem finishInline_books (id : OpId) (bytes osError : Nat) (s : EpollBackend) :
    Books s (s.finishInline id bytes osError) :=
  ((complete_books id s).trans (release_books id _)).trans (.of_slab rfl)

/-! ## 3. Operations in hand -/

def Parked (s : EpollBackend) (id : OpId) : Prop := ∃ fd w, s.fds.parked fd w = some id

/-- The backend in the middle of a call, with the operations `hold` in hand. -/
structure Held (hold : List OpId) (s : EpollBackend) : Prop where
  good : Ops.Good s.slab
  -- what is parked is posted, in its place, and has no descriptor yet
  parked : ∀ fd w id, s.fds.parked fd w = some id → id ∉ hold ∧ ∃ slot,
    s.slab.slab.get id = some slot ∧ slot.state = .posted ∧ slot.data.fd = some fd ∧
      slot.data.pending.writeSide = w ∧ slot.data.accepted = none
  held : ∀ id ∈ hold, ∃ slot, s.slab.slab.get id = some slot ∧ slot.inFlight = true
  busy : ∀ id slot, s.slab.slab.get id = some slot → slot.inFlight = true → id ∈ hold ∨ s.Parked id
  once : s.completed.Nodup
  completed : ∀ id ∈ s.completed, id ∈ s.slab.book.issued ∧
    ∀ slot, s.slab.slab.get id = some slot → slot.inFlight = false
  returned_once : s.returned.Nodup
  returned : ∀ id ∈ s.returned, id ∈ s.slab.book.issued ∧
    (id ∈ s.completed ∨ id ∈ hold ∨ s.Parked id)
  accepted : ∀ id slot n, s.slab.slab.get id = some slot → slot.data.accepted = some n →
    (id, n) ∈ s.accepts
  handed_once : (s.handed.map Prod.fst).Nodup
  handed : ∀ p ∈ s.handed, p ∈ s.accepts ∧ p.1 ∈ s.slab.book.issued ∧ s.slab.slab.get p.1 = none
  closed : s.closed = []

variable {hold : List OpId} {id : OpId} {slot : OpSlot EpollOp}

theorem Held.new : Held [] EpollBackend.new where
  good := Ops.good_new emptyOp
  parked fd w id h := by cases h
  held id h := by cases h
  busy id slot h := by
    have hnone : (Ops.OpSlab.new emptyOp).get id = none := by
      unfold Ops.OpSlab.get Ops.OpSlab.slot Ops.OpSlab.new
      simp
    have hsome : (Ops.OpSlab.new emptyOp).get id = some slot := h
    rw [hnone] at hsome
    cases hsome
  once := List.nodup_nil
  completed id h := by cases h
  returned_once := List.nodup_nil
  returned id h := by cases h
  accepted id slot n h := by
    have hnone : (Ops.OpSlab.new emptyOp).get id = none := by
      unfold Ops.OpSlab.get Ops.OpSlab.slot Ops.OpSlab.new
      simp
    have hsome : (Ops.OpSlab.new emptyOp).get id = some slot := h
    rw [hnone] at hsome
    cases hsome
  handed_once := List.nodup_nil
  handed p h := by cases h
  closed := rfl

theorem Held.issued (h : Held hold s) (hget : s.slab.slab.get id = some slot) :
    id ∈ s.slab.book.issued := by
  rw [h.good.tracks.mem_issued, h.good.book_live hget]
  simp

theorem Held.not_completed (h : Held (id :: hold) s) : id ∉ s.completed := by
  intro hdone
  obtain ⟨slot, hget, hbusy⟩ := h.held id List.mem_cons_self
  rw [(h.completed id hdone).2 slot hget] at hbusy
  cases hbusy

/-- The payload of an operation says where it is parked. -/
theorem Held.one_place (h : Held hold s) {fd fd' : RawFd} {w w' : Bool}
    (hid : s.fds.parked fd w = some id) (hid' : s.fds.parked fd' w' = some id) : fd = fd' ∧ w = w' := by
  obtain ⟨-, slot, hget, -, hfd, hside, -⟩ := h.parked fd w id hid
  obtain ⟨-, slot', hget', -, hfd', hside', -⟩ := h.parked fd' w' id hid'
  rw [hget] at hget'
  injection hget' with hget'
  subst hget'
  rw [hfd] at hfd'
  injection hfd' with hfd'
  exact ⟨hfd', hside.symm.trans hside'⟩

/-- The slab, the places and the record are all there is. -/
theorem Held.congr (h : Held hold s) (hslab : s'.slab = s.slab)
    (hfds : ∀ fd w, s'.fds.parked fd w = s.fds.parked fd w) (hcompleted : s'.completed = s.completed)
    (hreturned : s'.returned = s.returned)
    (hrecord : s'.accepts = s.accepts ∧ s'.handed = s.handed ∧ s'.closed = s.closed) :
    Held hold s' := by
  obtain ⟨haccepts, hhanded, hclosed⟩ := hrecord
  have hparked : ∀ id, s'.Parked id ↔ s.Parked id := by
    intro id
    simp only [Parked, hfds]
  constructor
  · rw [hslab]
    exact h.good
  · intro fd w id hid
    rw [hslab]
    exact h.parked fd w id (hfds fd w ▸ hid)
  · rw [hslab]
    exact h.held
  · intro id slot hget hbusy
    rw [hslab] at hget
    rw [hparked]
    exact h.busy id slot hget hbusy
  · rw [hcompleted]
    exact h.once
  · rw [hcompleted, hslab]
    exact h.completed
  · rw [hreturned]
    exact h.returned_once
  · intro id hid
    rw [hreturned] at hid
    rw [hslab, hcompleted, hparked]
    exact h.returned id hid
  · rw [hslab, haccepts]
    exact h.accepted
  · rw [hhanded]
    exact h.handed_once
  · rw [hhanded, haccepts, hslab]
    exact h.handed
  · rw [hclosed]
    exact h.closed

/-- Only the book may differ, and not in the ids issued. -/
theorem Held.of_slots {slab : Ops.Run EpollOp} (h : Held hold s) (hgood : Ops.Good slab)
    (hslots : slab.slab = s.slab.slab) (hissued : slab.book.issued = s.slab.book.issued) :
    Held hold { s with slab := slab } := by
  constructor
  · exact hgood
  · intro fd w id hid
    rw [hslots]
    exact h.parked fd w id hid
  · rw [hslots]
    exact h.held
  · rw [hslots]
    exact h.busy
  · exact h.once
  · rw [hslots, hissued]
    exact h.completed
  · exact h.returned_once
  · rw [hissued]
    exact h.returned
  · rw [hslots]
    exact h.accepted
  · exact h.handed_once
  · rw [hslots, hissued]
    exact h.handed
  · exact h.closed

/-- What the payload of a live operation may become. -/
theorem Held.setData (h : Held hold s) (hget : s.slab.slab.get id = some slot) (data : EpollOp)
    (hfd : data.fd = slot.data.fd) (hside : data.pending.writeSide = slot.data.pending.writeSide)
    (hparked : s.Parked id → data.accepted = none) {accepts : List (OpId × RawFd)}
    (hkept : ∀ p ∈ s.accepts, p ∈ accepts) (haccepted : ∀ n, data.accepted = some n → (id, n) ∈ accepts) :
    Held hold { s.setData id data with accepts := accepts } := by
  have hlookup := Ops.Run.getMut_get hget fun kd => (kd.1, data)
  have hself := hlookup id
  rw [if_pos rfl] at hself
  have hothers : ∀ id', id' ≠ id → (s.setData id data).slab.slab.get id' = s.slab.slab.get id' := by
    intro id' hne
    exact (hlookup id').trans (if_neg hne)
  constructor
  · exact h.good.getMut id _
  · intro fd w id' hid'
    obtain ⟨hout, slot', hget', hposted, hfd', hside', hnone⟩ := h.parked fd w id' hid'
    refine ⟨hout, ?_⟩
    by_cases hid : id' = id
    · subst hid
      rw [hget] at hget'
      injection hget' with hget'
      subst hget'
      exact ⟨_, hself, hposted, hfd.trans hfd', hside.trans hside', hparked ⟨fd, w, hid'⟩⟩
    · exact ⟨slot', (hothers id' hid).trans hget', hposted, hfd', hside', hnone⟩
  · intro id' hid'
    obtain ⟨slot', hget', hbusy⟩ := h.held id' hid'
    by_cases hid : id' = id
    · subst hid
      rw [hget] at hget'
      injection hget' with hget'
      subst hget'
      exact ⟨_, hself, hbusy⟩
    · exact ⟨slot', (hothers id' hid).trans hget', hbusy⟩
  · intro id' slot' hget' hbusy
    by_cases hid : id' = id
    · subst hid
      have heq := hself.symm.trans hget'
      injection heq with heq
      subst heq
      exact h.busy id' slot hget hbusy
    · exact h.busy id' slot' ((hothers id' hid).symm.trans hget') hbusy
  · exact h.once
  · intro id' hid'
    obtain ⟨hissued, hidle⟩ := h.completed id' hid'
    refine ⟨hissued, fun slot' hget' => ?_⟩
    by_cases hid : id' = id
    · subst hid
      have heq := hself.symm.trans hget'
      injection heq with heq
      subst heq
      exact hidle slot hget
    · exact hidle slot' ((hothers id' hid).symm.trans hget')
  · exact h.returned_once
  · exact h.returned
  · intro id' slot' n hget' hn
    by_cases hid : id' = id
    · subst hid
      have heq := hself.symm.trans hget'
      injection heq with heq
      subst heq
      exact haccepted n hn
    · exact hkept _ (h.accepted id' slot' n ((hothers id' hid).symm.trans hget') hn)
  · exact h.handed_once
  · intro p hp
    obtain ⟨hin, hissued, hgone⟩ := h.handed p hp
    refine ⟨hkept p hin, hissued, ?_⟩
    have hid : p.1 ≠ id := by
      rintro rfl
      rw [hget] at hgone
      cases hgone
    exact (hothers p.1 hid).trans hgone
  · exact h.closed

/-- An operation comes off its side, into hand. -/
theorem Held.unpark (h : Held hold s) {fd : RawFd} {w : Bool} (hid : s.fds.parked fd w = some id)
    {fds : FdTable} (hfds : ∀ fd' w', fds.parked fd' w' =
      if fd' = fd ∧ w' = w then none else s.fds.parked fd' w') :
    Held (id :: hold) { s with fds := fds } := by
  obtain ⟨hout, slot, hget, hposted, -⟩ := h.parked fd w id hid
  have hstill : ∀ id', s.Parked id' → id' = id ∨ ∃ fd' w', fds.parked fd' w' = some id' := by
    rintro id' ⟨fd', w', hid'⟩
    by_cases hplace : fd' = fd ∧ w' = w
    · obtain ⟨rfl, rfl⟩ := hplace
      rw [hid] at hid'
      injection hid' with hid'
      exact .inl hid'.symm
    · exact .inr ⟨fd', w', by rw [hfds, if_neg hplace, hid']⟩
  refine ⟨h.good, fun fd' w' id' hid' => ?_, fun id' hid' => ?_, fun id' slot' hget' hbusy => ?_, h.once,
    h.completed, h.returned_once, fun id' hid' => ?_, h.accepted, h.handed_once, h.handed, h.closed⟩
  · have hparked : fds.parked fd' w' = some id' := hid'
    rw [hfds] at hparked
    by_cases hplace : fd' = fd ∧ w' = w
    · rw [if_pos hplace] at hparked
      cases hparked
    · rw [if_neg hplace] at hparked
      obtain ⟨hout', slot', hget', hposted', hfd', hside', hnone'⟩ := h.parked fd' w' id' hparked
      refine ⟨fun hmem => ?_, slot', hget', hposted', hfd', hside', hnone'⟩
      rcases List.mem_cons.mp hmem with rfl | hmem
      · exact hplace (h.one_place hparked hid)
      · exact hout' hmem
  · rcases List.mem_cons.mp hid' with rfl | hid'
    · exact ⟨slot, hget, by simp [OpSlot.inFlight, hposted]⟩
    · exact h.held id' hid'
  · rcases h.busy id' slot' hget' hbusy with hin | hparked
    · exact .inl (List.mem_cons_of_mem _ hin)
    · rcases hstill id' hparked with rfl | hparked
      · exact .inl List.mem_cons_self
      · exact .inr hparked
  · obtain ⟨hissued, hplace⟩ := h.returned id' hid'
    refine ⟨hissued, ?_⟩
    rcases hplace with hdone | hin | hparked
    · exact .inl hdone
    · exact .inr (.inl (List.mem_cons_of_mem _ hin))
    · rcases hstill id' hparked with rfl | hparked
      · exact .inr (.inl List.mem_cons_self)
      · exact .inr (.inr hparked)

/-- An operation in hand goes to a side that is free. -/
theorem Held.park (h : Held (id :: hold) s) (hnot : id ∉ hold)
    (hget : s.slab.slab.get id = some slot) (hposted : slot.state = .posted) {fd : RawFd} {w : Bool}
    (hfd : slot.data.fd = some fd) (hside : slot.data.pending.writeSide = w)
    (hnone : slot.data.accepted = none) (hfree : s.fds.parked fd w = none) {fds : FdTable}
    (hfds : ∀ fd' w', fds.parked fd' w' =
      if fd' = fd ∧ w' = w then some id else s.fds.parked fd' w') :
    Held hold { s with fds := fds } := by
  have hstill : ∀ id', s.Parked id' → ∃ fd' w', fds.parked fd' w' = some id' := by
    rintro id' ⟨fd', w', hid'⟩
    refine ⟨fd', w', ?_⟩
    rw [hfds, if_neg, hid']
    rintro ⟨rfl, rfl⟩
    rw [hfree] at hid'
    cases hid'
  have hnew : ∃ fd' w', fds.parked fd' w' = some id := ⟨fd, w, by rw [hfds, if_pos ⟨rfl, rfl⟩]⟩
  refine ⟨h.good, fun fd' w' id' hid' => ?_, fun id' hid' => h.held id' (List.mem_cons_of_mem _ hid'),
    fun id' slot' hget' hbusy => ?_, h.once, h.completed, h.returned_once, fun id' hid' => ?_, h.accepted,
    h.handed_once, h.handed, h.closed⟩
  · have hparked : fds.parked fd' w' = some id' := hid'
    rw [hfds] at hparked
    by_cases hplace : fd' = fd ∧ w' = w
    · rw [if_pos hplace] at hparked
      injection hparked with hparked
      obtain ⟨rfl, rfl⟩ := hplace
      subst hparked
      exact ⟨hnot, slot, hget, hposted, hfd, hside, hnone⟩
    · rw [if_neg hplace] at hparked
      obtain ⟨hout, hrest⟩ := h.parked fd' w' id' hparked
      exact ⟨fun hmem => hout (List.mem_cons_of_mem _ hmem), hrest⟩
  · rcases h.busy id' slot' hget' hbusy with hin | hparked
    · rcases List.mem_cons.mp hin with rfl | hin
      · exact .inr hnew
      · exact .inl hin
    · exact .inr (hstill id' hparked)
  · obtain ⟨hissued, hplace⟩ := h.returned id' hid'
    refine ⟨hissued, ?_⟩
    rcases hplace with hdone | hin | hparked
    · exact .inl hdone
    · rcases List.mem_cons.mp hin with rfl | hin
      · exact .inr (.inr hnew)
      · exact .inr (.inl hin)
    · exact .inr (.inr (hstill id' hparked))

theorem Held.markCancelled (h : Held hold s) (hid : id ∈ hold) : Held hold (s.markCancelled id) := by
  obtain ⟨slot, hget, hbusy⟩ := h.held id hid
  have hgood : Ops.Good (s.markCancelled id).slab := h.good.markCancelled id
  by_cases hposted : slot.state = .posted
  · have hlookup := Ops.Run.markCancelled_get hget hposted
    have hself := hlookup id
    rw [if_pos rfl] at hself
    have hothers : ∀ id', id' ≠ id →
        (s.markCancelled id).slab.slab.get id' = s.slab.slab.get id' := by
      intro id' hne
      exact (hlookup id').trans (if_neg hne)
    have hissued := (markCancelled_books id s).issued
    constructor
    · exact hgood
    · intro fd w id' hid'
      obtain ⟨hout, slot', hget', hrest⟩ := h.parked fd w id' hid'
      have hne : id' ≠ id := by
        rintro rfl
        exact hout hid
      exact ⟨hout, slot', (hothers id' hne).trans hget', hrest⟩
    · intro id' hid'
      obtain ⟨slot', hget', hbusy'⟩ := h.held id' hid'
      by_cases heq : id' = id
      · subst heq
        exact ⟨_, hself, by simp [OpSlot.inFlight]⟩
      · exact ⟨slot', (hothers id' heq).trans hget', hbusy'⟩
    · intro id' slot' hget' hbusy'
      by_cases heq : id' = id
      · subst heq
        exact .inl hid
      · exact h.busy id' slot' ((hothers id' heq).symm.trans hget') hbusy'
    · exact h.once
    · intro id' hid'
      obtain ⟨hold', hidle⟩ := h.completed id' hid'
      rw [hissued]
      refine ⟨hold', fun slot' hget' => ?_⟩
      by_cases heq : id' = id
      · subst heq
        rw [hidle slot hget] at hbusy
        cases hbusy
      · exact hidle slot' ((hothers id' heq).symm.trans hget')
    · exact h.returned_once
    · rw [hissued]
      exact h.returned
    · intro id' slot' n hget' hn
      by_cases heq : id' = id
      · subst heq
        have hsame := hself.symm.trans hget'
        injection hsame with hsame
        subst hsame
        exact h.accepted id' slot n hget hn
      · exact h.accepted id' slot' n ((hothers id' heq).symm.trans hget') hn
    · exact h.handed_once
    · intro p hp
      obtain ⟨hin, hold', hgone⟩ := h.handed p hp
      rw [hissued]
      refine ⟨hin, hold', ?_⟩
      have hne : p.1 ≠ id := by
        rintro rfl
        rw [hget] at hgone
        cases hgone
      exact (hothers p.1 hne).trans hgone
    · exact h.closed
  · -- cancelled before, and still to be reaped
    have hsame : (s.markCancelled id).slab.slab = s.slab.slab := by
      show (s.slab.slab.markCancelled id).2 = _
      rw [Ops.OpSlab.markCancelled_of_get hget, if_neg hposted]
    exact h.of_slots hgood hsame (markCancelled_books id s).issued

/-! ## 4. Operations that end -/

/-- From `s` to `s'`, the operation has ended: completed, and perhaps recycled. -/
structure Ends (id : OpId) (s s' : EpollBackend) : Prop where
  good : Ops.Good s'.slab
  books : Books s s'
  others : ∀ id', id' ≠ id → s'.slab.slab.get id' = s.slab.slab.get id'
  self : ∀ slot', s'.slab.slab.get id = some slot' →
    slot'.inFlight = false ∧ ∃ slot, s.slab.slab.get id = some slot ∧ slot'.data = slot.data
  fds : s'.fds = s.fds
  returned : s'.returned = s.returned
  accepts : s'.accepts = s.accepts
  handed : s'.handed = s.handed
  closed : s'.closed = s.closed

theorem complete_ends (hgood : Ops.Good s.slab) (hget : s.slab.slab.get id = some slot)
    (hbusy : slot.inFlight = true) : Ends id s (s.complete id) := by
  have hlookup := Ops.Run.complete_get hget hbusy
  refine ⟨hgood.complete id, complete_books id s, fun id' hne => (hlookup id').trans (if_neg hne),
    fun slot' hget' => ?_, rfl, rfl, rfl, rfl, rfl⟩
  have hself := hlookup id
  rw [if_pos rfl] at hself
  have hsame := hself.symm.trans hget'
  injection hsame with hsame
  subst hsame
  exact ⟨by simp [OpSlot.inFlight], slot, hget, rfl⟩

/-- Completed and recycled. -/
theorem retire_ends (hgood : Ops.Good s.slab) (hget : s.slab.slab.get id = some slot)
    (hbusy : slot.inFlight = true) (hroom : ((s.complete id).release id).Roomy) :
    Ends id s ((s.complete id).release id) := by
  have hends := complete_ends hgood hget hbusy
  have hdone := Ops.Run.complete_get hget hbusy id
  rw [if_pos rfl] at hdone
  have hlookup := Ops.Run.release_get hdone rfl
  refine ⟨hends.good.release id (Ops.Run.fits_release hends.good id hroom),
    hends.books.trans (release_books id _),
    fun id' hne => ((hlookup id').trans (if_neg hne)).trans (hends.others id' hne),
    fun slot' hget' => ?_, rfl, rfl, rfl, rfl, rfl⟩
  have hself := hlookup id
  rw [if_pos rfl] at hself
  have hsame := hself.symm.trans hget'
  cases hsame

theorem Ends.stage (he : Ends id s s') (c : Completion) : Ends id s (s'.stage c) where
  good := he.good
  books := he.books.trans (.of_slab rfl)
  others := he.others
  self := he.self
  fds := he.fds
  returned := he.returned
  accepts := he.accepts
  handed := he.handed
  closed := he.closed

theorem Ends.deliver (he : Ends id s s') (c : Completion) :
    Ends id s { s' with delivered := s'.delivered ++ [c] } where
  good := he.good
  books := he.books.trans (.of_slab rfl)
  others := he.others
  self := he.self
  fds := he.fds
  returned := he.returned
  accepts := he.accepts
  handed := he.handed
  closed := he.closed

theorem completed_stage (s : EpollBackend) (id : OpId) (bytes osError : Nat) :
    (s.stage (.io id bytes osError)).completed = s.completed ++ [id] := by
  show ios s.delivered ++ ios (s.inlineCompletions ++ [.io id bytes osError]) = _
  rw [ios, ios, List.filterMap_append, ← List.append_assoc]
  rfl

theorem completed_deliver (s : EpollBackend) (id : OpId) (bytes osError : Nat) :
    ({ s with delivered := s.delivered ++ [.io id bytes osError] } : EpollBackend).completed.Perm
      (s.completed ++ [id]) := by
  show (ios (s.delivered ++ [.io id bytes osError]) ++ ios s.inlineCompletions).Perm
    ((ios s.delivered ++ ios s.inlineCompletions) ++ [id])
  rw [ios, List.filterMap_append, List.append_assoc, List.append_assoc]
  exact List.Perm.append_left _ List.perm_append_comm

/-- What ended is in one completion more, or was never returned by a post. -/
theorem Held.ended (h : Held (id :: hold) s) (hnot : id ∉ hold) (he : Ends id s s')
    (hcompleted : s'.completed.Perm (s.completed ++ [id]) ∨
      s'.completed = s.completed ∧ id ∉ s.returned) : Held hold s' := by
  have hfresh := h.not_completed
  obtain ⟨slot, hget, hbusy⟩ := h.held id List.mem_cons_self
  have hparked : ∀ id', s'.Parked id' ↔ s.Parked id' := by
    intro id'
    rw [Parked, Parked, he.fds]
  have hmem : ∀ id', id' ∈ s.completed → id' ∈ s'.completed := by
    intro id' hid'
    rcases hcompleted with hperm | ⟨hsame, -⟩
    · exact hperm.mem_iff.mpr (List.mem_append_left _ hid')
    · rwa [hsame]
  have hback : ∀ id', id' ∈ s'.completed → id' ∈ s.completed ∨ id' = id := by
    intro id' hid'
    rcases hcompleted with hperm | ⟨hsame, -⟩
    · exact (List.mem_append.mp (hperm.mem_iff.mp hid')).imp_right List.mem_singleton.mp
    · exact .inl (hsame ▸ hid')
  constructor
  · exact he.good
  · intro fd w id' hid'
    rw [he.fds] at hid'
    obtain ⟨hout, slot', hget', hrest⟩ := h.parked fd w id' hid'
    have hne : id' ≠ id := by
      rintro rfl
      exact hout List.mem_cons_self
    exact ⟨fun hin => hout (List.mem_cons_of_mem _ hin), slot', (he.others id' hne).trans hget', hrest⟩
  · intro id' hid'
    obtain ⟨slot', hget', hbusy'⟩ := h.held id' (List.mem_cons_of_mem _ hid')
    have hne : id' ≠ id := by
      rintro rfl
      exact hnot hid'
    exact ⟨slot', (he.others id' hne).trans hget', hbusy'⟩
  · intro id' slot' hget' hbusy'
    by_cases hid : id' = id
    · subst hid
      rw [(he.self slot' hget').1] at hbusy'
      cases hbusy'
    · rw [hparked]
      rcases h.busy id' slot' ((he.others id' hid).symm.trans hget') hbusy' with hin | hplace
      · exact .inl ((List.mem_cons.mp hin).resolve_left hid)
      · exact .inr hplace
  · rcases hcompleted with hperm | ⟨hsame, -⟩
    · rw [hperm.nodup_iff, List.nodup_append]
      refine ⟨h.once, List.nodup_singleton _, fun a ha b hb hab => ?_⟩
      rw [List.mem_singleton.mp hb] at hab
      exact hfresh (hab ▸ ha)
    · rw [hsame]
      exact h.once
  · intro id' hid'
    rw [he.books.issued]
    by_cases hid : id' = id
    · subst hid
      exact ⟨h.issued hget, fun slot' hget' => (he.self slot' hget').1⟩
    · obtain ⟨hissued, hidle⟩ := h.completed id' ((hback id' hid').resolve_right hid)
      exact ⟨hissued, fun slot' hget' => hidle slot' ((he.others id' hid).symm.trans hget')⟩
  · rw [he.returned]
    exact h.returned_once
  · intro id' hid'
    rw [he.returned] at hid'
    obtain ⟨hissued, hplace⟩ := h.returned id' hid'
    rw [he.books.issued, hparked]
    refine ⟨hissued, ?_⟩
    rcases hplace with hdone | hin | hplace
    · exact .inl (hmem id' hdone)
    · rcases List.mem_cons.mp hin with rfl | hin
      · rcases hcompleted with hperm | ⟨-, hnever⟩
        · exact .inl (hperm.mem_iff.mpr (List.mem_append_right _ (List.mem_singleton.mpr rfl)))
        · exact absurd hid' hnever
      · exact .inr (.inl hin)
    · exact .inr (.inr hplace)
  · intro id' slot' n hget' hn
    rw [he.accepts]
    by_cases hid : id' = id
    · subst hid
      obtain ⟨-, slot₀, hget₀, hdata⟩ := he.self slot' hget'
      rw [hdata] at hn
      exact h.accepted id' slot₀ n hget₀ hn
    · exact h.accepted id' slot' n ((he.others id' hid).symm.trans hget') hn
  · rw [he.handed]
    exact h.handed_once
  · intro p hp
    rw [he.handed] at hp
    obtain ⟨hin, hissued, hgone⟩ := h.handed p hp
    rw [he.accepts, he.books.issued]
    refine ⟨hin, hissued, ?_⟩
    have hne : p.1 ≠ id := by
      rintro rfl
      rw [hget] at hgone
      cases hgone
    exact (he.others p.1 hne).trans hgone
  · rw [he.closed]
    exact h.closed

/-- A completed slot goes back to the freelist. -/
theorem Held.released (h : Held hold s) (hget : s.slab.slab.get id = some slot)
    (hdone : slot.state = .completed) (hroom : (s.release id).Roomy) : Held hold (s.release id) := by
  have hlookup := Ops.Run.release_get hget hdone
  have hidle : slot.inFlight = false := by simp [OpSlot.inFlight, hdone]
  have hback : ∀ id' slot', (s.release id).slab.slab.get id' = some slot' →
      s.slab.slab.get id' = some slot' := by
    intro id' slot' hget'
    have hboth := (hlookup id').symm.trans hget'
    by_cases hid : id' = id
    · rw [if_pos hid] at hboth
      cases hboth
    · rwa [if_neg hid] at hboth
  have hstill : ∀ id' slot', slot'.inFlight = true → s.slab.slab.get id' = some slot' →
      (s.release id).slab.slab.get id' = some slot' := by
    intro id' slot' hbusy hget'
    have hne : id' ≠ id := by
      rintro rfl
      rw [hget] at hget'
      injection hget' with hget'
      rw [← hget', hidle] at hbusy
      cases hbusy
    exact ((hlookup id').trans (if_neg hne)).trans hget'
  have hissued := (release_books id s).issued
  constructor
  · exact h.good.release id (Ops.Run.fits_release h.good id hroom)
  · intro fd w id' hid'
    obtain ⟨hout, slot', hget', hposted, hrest⟩ := h.parked fd w id' hid'
    exact ⟨hout, slot', hstill id' slot' (by simp [OpSlot.inFlight, hposted]) hget', hposted, hrest⟩
  · intro id' hid'
    obtain ⟨slot', hget', hbusy⟩ := h.held id' hid'
    exact ⟨slot', hstill id' slot' hbusy hget', hbusy⟩
  · intro id' slot' hget' hbusy
    exact h.busy id' slot' (hback id' slot' hget') hbusy
  · exact h.once
  · intro id' hid'
    rw [hissued]
    exact ⟨(h.completed id' hid').1, fun slot' hget' =>
      (h.completed id' hid').2 slot' (hback id' slot' hget')⟩
  · exact h.returned_once
  · rw [hissued]
    exact h.returned
  · intro id' slot' n hget' hn
    exact h.accepted id' slot' n (hback id' slot' hget') hn
  · exact h.handed_once
  · intro p hp
    obtain ⟨hin, hold', hgone⟩ := h.handed p hp
    rw [hissued]
    refine ⟨hin, hold', ?_⟩
    cases hafter : (s.release id).slab.slab.get p.1 with
    | none => rfl
    | some slot' =>
      rw [hback p.1 slot' hafter] at hgone
      cases hgone
  · exact h.closed

theorem Held.release (h : Held hold s) (id : OpId) (hroom : (s.release id).Roomy) :
    Held hold (s.release id) := by
  cases hget : s.slab.slab.get id with
  | none =>
    have hsame : s.release id = s := by
      show { s with slab := s.slab.step (.release id) } = s
      simp only [Ops.Run.step, (Ops.OpSlab.stale hget).2.2.1, (h.good.book_stale hget).2.2]
    rw [hsame]
    exact h
  | some slot =>
    by_cases hdone : slot.state = .completed
    · exact h.released hget hdone hroom
    · exact h.of_slots (h.good.release id (Ops.Run.fits_release h.good id hroom))
        (Ops.Run.release_unreleased hget hdone) (release_books id s).issued

/-- A post hands its id to the caller. -/
theorem Held.posted (h : Held [] s) (hissued : id ∈ s.slab.book.issued) (hnew : id ∉ s.returned)
    (hplace : id ∈ s.completed ∨ s.Parked id) :
    Held [] { s with returned := s.returned ++ [id] } := by
  refine ⟨h.good, h.parked, h.held, h.busy, h.once, h.completed, ?_, fun id' hid' => ?_, h.accepted,
    h.handed_once, h.handed, h.closed⟩
  · rw [List.nodup_append]
    refine ⟨h.returned_once, List.nodup_singleton _, fun a ha b hb hab => ?_⟩
    rw [List.mem_singleton.mp hb] at hab
    exact hnew (hab ▸ ha)
  · rcases List.mem_append.mp hid' with hold' | hlast
    · exact h.returned id' hold'
    · rw [List.mem_singleton.mp hlast]
      exact ⟨hissued, hplace.imp_right .inr⟩

end EpollBackend

end Cadeloop.Core.Epoll
