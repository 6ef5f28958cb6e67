import Cadeloop.Core.OpSlabRuns

/-!
# Lookups in the operation slab

What each operation on a slab does to `get`, at every id, and to the count of what is in flight.
-/

namespace Cadeloop.Core.Ops

open Cadeloop.Reasoning

variable {D : Type*}

namespace OpSlab

variable {s : OpSlab D} {id : OpId} {slot : OpSlot D}

theorem get_setSlot {i : UInt32} (h : s.slot i = some slot) (slot' : OpSlot D) (id : OpId) :
    (s.setSlot i slot').get id =
      if id.index = i then
        if slot'.generation = id.generation ∧ slot'.state ≠ .free then some slot' else none
      else s.get id := by
  have hlt : i.toNat < s.slots.length := (List.getElem?_eq_some_iff.mp h).1
  unfold get
  have hslot : (s.setSlot i slot').slot id.index =
      if id.index = i then some slot' else s.slot id.index := by
    show (s.slots.set i.toNat slot')[id.index.toNat]? = _
    rw [List.getElem?_set]
    by_cases hi : id.index = i
    · rw [if_pos (by rw [hi]), if_pos hlt, if_pos hi]
    · have hne : i.toNat ≠ id.index.toNat := fun h => hi (UInt32.toNat_inj.mp h.symm)
      rw [if_neg hne, if_neg hi]
      rfl
  rw [hslot]
  by_cases hi : id.index = i
  · rw [if_pos hi, if_pos hi]
  · rw [if_neg hi, if_neg hi]

/-- Of a slot in use, no other id resolves. -/
theorem get_other (h : s.get id = some slot) {id' : OpId} (hne : id' ≠ id)
    (hindex : id'.index = id.index) : s.get id' = none := by
  obtain ⟨hslot, hgen, -⟩ := get_eq_some.mp h
  have hgen' : slot.generation ≠ id'.generation := by
    intro heq
    apply hne
    cases id
    cases id'
    simp_all
  rw [get, hindex, hslot]
  dsimp only
  rw [if_neg fun hcur => hgen' hcur.1]

/-- A slot in use gets other contents, under the same id. -/
theorem get_replaced (h : s.get id = some slot) (slot' : OpSlot D)
    (hgen : slot'.generation = slot.generation) (hused : slot'.state ≠ .free) (id' : OpId) :
    (s.setSlot id.index slot').get id' = if id' = id then some slot' else s.get id' := by
  obtain ⟨hslot, hcur, -⟩ := get_eq_some.mp h
  rw [get_setSlot hslot]
  by_cases hid : id' = id
  · rw [hid, if_pos rfl, if_pos rfl, if_pos ⟨hgen.trans hcur, hused⟩]
  · rw [if_neg hid]
    by_cases hindex : id'.index = id.index
    · have hgen' : slot'.generation ≠ id'.generation := by
        rw [hgen, hcur]
        intro heq
        apply hid
        cases id
        cases id'
        simp_all
      rw [if_pos hindex, if_neg fun hboth => hgen' hboth.1, get_other h hid hindex]
    · rw [if_neg hindex]

theorem get_grow (s : OpSlab D) (addr : Nat) (id : OpId) : (s.grow addr).get id = s.get id := by
  unfold get
  have hslots : (s.grow addr).slot id.index =
      (s.slots ++ List.replicate chunkSize ⟨.free, 0, .wakeup, s.makeDefault⟩)[id.index.toNat]? := rfl
  rw [hslots]
  by_cases hlt : id.index.toNat < s.slots.length
  · rw [List.getElem?_append_left hlt]
    rfl
  · have hnone : s.slot id.index = none := List.getElem?_eq_none (Nat.le_of_not_lt hlt)
    rw [hnone, List.getElem?_append_right (Nat.le_of_not_lt hlt), List.getElem?_replicate]
    -- the slots added are free
    by_cases hin : id.index.toNat - s.slots.length < chunkSize
    · rw [if_pos hin]
      simp
    · rw [if_neg hin]

-- only `post` and `complete` count

theorem post_inFlight {slab : OpSlab D} {addr : Nat} {kind : OpKind}
    (h : s.post addr kind = some (id, slab)) : slab.inFlight = s.inFlight + 1 := by
  have hgrown : (if s.freelist = [] then s.grow addr else s).inFlight = s.inFlight := by
    split <;> rfl
  unfold post at h
  generalize (if s.freelist = [] then s.grow addr else s) = s' at h hgrown
  dsimp only at h
  split at h
  · cases h
  split at h
  · cases h
  · injection h with h
    injection h with hid hslab
    rw [← hslab]
    exact congrArg (· + 1) hgrown

theorem getMut_inFlight (s : OpSlab D) (id : OpId) (f : OpKind × D → OpKind × D) :
    (s.getMut id f).inFlight = s.inFlight := by
  unfold getMut
  split <;> rfl

theorem complete_inFlight (h : s.get id = some slot) (hbusy : slot.inFlight = true) :
    (s.complete id).2.inFlight = s.inFlight - 1 := by
  rw [complete_of_get h, if_pos hbusy]
  rfl

theorem release_inFlight (s : OpSlab D) (id : OpId) : (s.release id).inFlight = s.inFlight := by
  unfold release
  split
  · rfl
  · split <;> rfl

end OpSlab

namespace Run

variable {s : Run D} {id : OpId} {slot : OpSlot D}

theorem getMut_get (h : s.slab.get id = some slot) (f : OpKind × D → OpKind × D) (id' : OpId) :
    (s.step (.getMut id f)).slab.get id' =
      if id' = id then
        some { slot with kind := (f (slot.kind, slot.data)).1, data := (f (slot.kind, slot.data)).2 }
      else s.slab.get id' := by
  show (s.slab.getMut id f).get id' = _
  rw [OpSlab.getMut, h]
  exact OpSlab.get_replaced h
    { slot with kind := (f (slot.kind, slot.data)).1, data := (f (slot.kind, slot.data)).2 } rfl
    (OpSlab.get_eq_some.mp h).2.2 id'

theorem markCancelled_get (h : s.slab.get id = some slot) (hposted : slot.state = .posted)
    (id' : OpId) : (s.step (.markCancelled id)).slab.get id' =
      if id' = id then some { slot with state := .cancelled } else s.slab.get id' := by
  show (s.slab.markCancelled id).2.get id' = _
  rw [OpSlab.markCancelled_of_get h, if_pos hposted]
  exact OpSlab.get_replaced h { slot with state := .cancelled } rfl (by simp) id'

theorem complete_get (h : s.slab.get id = some slot) (hbusy : slot.inFlight = true) (id' : OpId) :
    (s.step (.complete id)).slab.get id' =
      if id' = id then some { slot with state := .completed } else s.slab.get id' := by
  show (s.slab.complete id).2.get id' = _
  rw [OpSlab.complete_of_get h, if_pos hbusy]
  exact OpSlab.get_replaced h { slot with state := .completed } rfl (by simp) id'

theorem release_get (h : s.slab.get id = some slot) (hdone : slot.state = .completed) (id' : OpId) :
    (s.step (.release id)).slab.get id' = if id' = id then none else s.slab.get id' := by
  show (s.slab.release id).get id' = _
  rw [OpSlab.release_of_get h, if_pos hdone]
  obtain ⟨hslot, -, -⟩ := OpSlab.get_eq_some.mp h
  have hset := OpSlab.get_setSlot (s := { s.slab with freelist := id.index :: s.slab.freelist })
    (i := id.index) hslot { slot with state := .free, generation := slot.generation + 1 } id'
  rw [hset]
  by_cases hindex : id'.index = id.index
  · rw [if_pos hindex, if_neg (by simp)]
    by_cases hid : id' = id
    · rw [if_pos hid]
    · rw [if_neg hid, OpSlab.get_other h hid hindex]
  · rw [if_neg hindex, if_neg (by rintro rfl; exact hindex rfl)]
    rfl

/-- A slot not completed is not released. -/
theorem release_unreleased (h : s.slab.get id = some slot) (hdone : slot.state ≠ .completed) :
    (s.step (.release id)).slab = s.slab := by
  show s.slab.release id = s.slab
  rw [OpSlab.release_of_get h, if_neg hdone]

/-- There are 2^32 slots at most, so a release leaves the live ids in bounds. -/
theorem fits_release (h : Good s) (id : OpId)
    (hroom : ∀ i, Recycling.recyclings (s.step (.release id)).book.recycled i < 2 ^ 32) :
    (s.step (.release id)).book.Fits where
  live := by
    have hcount := h.tracks.count
    have hheld : s.slab.view.cells.countP (fun c => c.held.isSome) ≤ 2 ^ 32 :=
      (List.countP_le_length).trans h.tracks.size
    show (s.book.release id).issued.length ≤ (s.book.release id).recycled.length + 2 ^ 32
    unfold Book.release
    split
    · simp only [List.length_append, List.length_singleton]
      omega
    · omega
  recyclings := hroom

/-- A post resolves at a new id, and everywhere else nothing changes. -/
theorem post_get (h : Good s) {addr : Nat} {kind : OpKind}
    (hfits : (s.step (.post addr kind)).book.Fits) :
    ∃ id slab data, s.slab.post addr kind = some (id, slab) ∧ id ∉ s.book.issued ∧
      ∀ id', slab.get id' =
        if id' = id then some ⟨.posted, id.generation, kind, data⟩ else s.slab.get id' := by
  obtain ⟨id, slab, hpost⟩ := h.post_isSome addr kind
  have hgood := (h.post addr kind hfits).1
  have hnew : id ∉ s.book.issued := by
    have honce := hgood.tracks.once
    simp only [Run.step, hpost, Book.post] at honce
    intro hold
    exact (List.nodup_append.mp honce).2.2 id hold id (List.mem_singleton.mpr rfl) rfl
  -- the slab with a free slot, and its first one
  have hgrown : ∃ (s' : OpSlab D) (i : UInt32) (rest : List UInt32), s.slab.post addr kind = s'.post addr kind ∧ s'.freelist = i :: rest ∧
      (∀ id', s'.get id' = s.slab.get id') ∧
      ∃ slot, s'.slot i = some slot ∧ slot.state = .free := by
    cases hfree : s.slab.freelist with
    | cons i rest =>
      exact ⟨s.slab, i, rest, rfl, hfree, fun _ => rfl,
        h.slot_of_free (by rw [hfree]; exact List.mem_cons_self)⟩
    | nil =>
      have hadded := s.slab.grow_freelist addr
      rw [hfree, List.append_nil] at hadded
      have hroom : s.slab.capacity + chunkSize ≤ 2 ^ 32 := by
        have hfull := h.tracks.full hfree
        have hlen : s.slab.view.cells.length = s.slab.capacity := List.length_map _
        have hlive := hfits.live
        simp only [Run.step, hpost, Book.post, List.length_append, List.length_singleton] at hlive
        have hchunks := h.chunks
        unfold chunkSize at hchunks ⊢
        omega
      refine ⟨s.slab.grow addr, _, _, OpSlab.post_of_empty hfree addr kind, hadded,
        fun id' => s.slab.get_grow addr id', ?_⟩
      exact (h.grow hroom addr).slot_of_free (by
        show _ ∈ (s.slab.grow addr).freelist
        rw [hadded]
        exact List.mem_cons_self)
  obtain ⟨s', i, rest, hsame, hfree, hget, slot, hslot, hstate⟩ := hgrown
  have hhead := OpSlab.post_of_nonempty hfree hslot addr kind
  rw [← hsame, hpost] at hhead
  injection hhead with hhead
  injection hhead with hid hslab
  refine ⟨id, slab, slot.data, hpost, hnew, fun id' => ?_⟩
  have hset := OpSlab.get_setSlot (s := { s' with freelist := rest, inFlight := s'.inFlight + 1 })
    (i := i) hslot { slot with state := .posted, kind } id'
  rw [hslab, hset]
  by_cases hindex : id'.index = i
  · rw [if_pos hindex]
    by_cases hid' : id' = id
    · rw [if_pos hid', hid']
      subst hid
      simp
    · have hgen : slot.generation ≠ id'.generation := by
        intro heq
        apply hid'
        rw [hid]
        cases id'
        simp_all
      have hold : s'.get id' = none := by
        rw [OpSlab.get, hindex, hslot]
        simp [hstate]
      rw [if_neg hid', if_neg fun hboth => hgen hboth.1, ← hget, hold]
  · have hid' : id' ≠ id := by
      rintro rfl
      exact hindex (by rw [hid])
    rw [if_neg hindex, if_neg hid', ← hget]
    rfl

end Run

end Cadeloop.Core.Ops
