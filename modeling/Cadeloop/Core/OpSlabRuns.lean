import Cadeloop.Core.OpSlab
import Cadeloop.Reasoning.Machine

/-!
# Runs of the operation slab

A book says what every id ever issued is: posted, cancelled, completed, or ended.  The book is kept
from the calls alone; the slab, which sees stale and made-up ids as well, agrees with it.
-/

namespace Cadeloop.Core.Ops

open Cadeloop.Reasoning
open Recycling (Life Tracks recyclings)

/-! ## 1. The book -/

structure Book where
  life : OpId → Life OpState
  issued : List OpId
  recycled : List OpId

namespace Book

def new : Book := { life := fun _ => .never, issued := [], recycled := [] }

def post (b : Book) (id : OpId) : Book :=
  { b with life := Function.update b.life id (.live .posted), issued := b.issued ++ [id] }

def markCancelled (b : Book) (id : OpId) : Book :=
  match b.life id with
  | .live .posted => { b with life := Function.update b.life id (.live .cancelled) }
  | _ => b

def complete (b : Book) (id : OpId) : Book :=
  match b.life id with
  | .live .posted => { b with life := Function.update b.life id (.live .completed) }
  | .live .cancelled => { b with life := Function.update b.life id (.live .completed) }
  | _ => b

def release (b : Book) (id : OpId) : Book :=
  match b.life id with
  | .live .completed =>
    { b with life := Function.update b.life id .ended, recycled := b.recycled ++ [id] }
  | _ => b

end Book

/-! ## 2. Runs -/

inductive Op (D : Type*) where
  | post (addr : Nat) (kind : OpKind)
  | get (id : OpId)
  | getMut (id : OpId) (f : OpKind × D → OpKind × D)
  | markCancelled (id : OpId)
  | complete (id : OpId)
  | release (id : OpId)
  | state (id : OpId)

structure Run (D : Type*) where
  slab : OpSlab D
  book : Book
  -- the ids for which `mark_cancelled` returned true
  granted : List OpId

variable {D : Type*}

def Run.new (makeDefault : D) : Run D := { slab := .new makeDefault, book := .new, granted := [] }

def Run.step (s : Run D) : Op D → Run D
  | .post addr kind =>
    match s.slab.post addr kind with
    | none => s
    | some (id, slab) => { s with slab, book := s.book.post id }
  | .get _ => s
  | .getMut id f => { s with slab := s.slab.getMut id f }
  | .markCancelled id =>
    let r := s.slab.markCancelled id
    { slab := r.2
      book := s.book.markCancelled id
      granted := if r.1 then s.granted ++ [id] else s.granted }
  | .complete id => { s with slab := (s.slab.complete id).2, book := s.book.complete id }
  | .release id => { s with slab := s.slab.release id, book := s.book.release id }
  | .state _ => s

def runs (makeDefault : D) : Machine (Run D) (Op D) := ⟨.new makeDefault, Run.step⟩

/-! ## 3. The invariant -/

/-- No more than 2^32 ids are live, and no slot was recycled 2^32 times. -/
structure Book.Fits (b : Book) : Prop where
  live : b.issued.length ≤ b.recycled.length + 2 ^ 32
  recyclings : ∀ i, recyclings b.recycled i < 2 ^ 32

structure Good (s : Run D) : Prop where
  tracks : Tracks s.slab.view s.book.life s.book.issued s.book.recycled
  inFlight : s.slab.inFlight = s.slab.view.cells.countP busy
  chunks : s.slab.capacity % chunkSize = 0
  once : s.granted.Nodup
  granted : ∀ id ∈ s.granted, s.book.life id ≠ .never ∧ s.book.life id ≠ .live .posted

theorem good_new (makeDefault : D) : Good (Run.new makeDefault) :=
  ⟨Tracks.empty, rfl, rfl, List.nodup_nil, fun id h => by cases h⟩

namespace Good

variable {s : Run D}

theorem slot_of_free (h : Good s) {i : UInt32} (hi : i ∈ s.slab.freelist) :
    ∃ slot, s.slab.slot i = some slot ∧ slot.state = .free := by
  obtain ⟨c, hc, hheld⟩ := (h.tracks.mem_free i).mp hi
  obtain ⟨slot, hslot, rfl⟩ := OpSlab.slot_of_view hc
  refine ⟨slot, hslot, ?_⟩
  rw [OpSlot.cell] at hheld
  by_contra hne
  rw [if_neg hne] at hheld
  cases hheld

/-- The head of the freelist is posted under a new id. -/
theorem post_nonempty (h : Good s) {i : UInt32} {rest : List UInt32}
    (hfree : s.slab.freelist = i :: rest) (addr : Nat) (kind : OpKind) :
    ∃ id slab, s.slab.post addr kind = some (id, slab) ∧ slab.freelist = rest ∧
      Good { s with slab, book := s.book.post id } := by
  obtain ⟨slot, hslot, hstate⟩ := h.slot_of_free (by rw [hfree]; exact List.mem_cons_self)
  refine ⟨_, _, OpSlab.post_of_nonempty hfree hslot addr kind, rfl, ?_⟩
  have hcell := OpSlab.view_cell hslot
  have hperm : s.slab.view.free.Perm (i :: rest) := by
    rw [show s.slab.view.free = i :: rest from hfree]
  obtain ⟨hnever, htracks⟩ := h.tracks.claim hperm hcell .posted
  have hcount := Recycling.countP_set_cell hcell
    ⟨slot.generation, some OpState.posted⟩ busy
  have hidle : busy slot.cell = false := by
    rw [slot.busy_cell, OpSlot.inFlight, hstate]
    rfl
  rw [hidle] at hcount
  refine ⟨?_, ?_, ?_, h.once, fun id hid => ?_⟩
  · dsimp only
    rw [OpSlab.view_setSlot]
    exact htracks
  · dsimp only
    rw [OpSlab.view_setSlot]
    show s.slab.inFlight + 1 =
      List.countP busy (s.slab.view.cells.set i.toNat ⟨slot.generation, some .posted⟩)
    rw [h.inFlight]
    simpa [busy] using hcount.symm
  · show (s.slab.slots.set _ _).length % chunkSize = 0
    rw [List.length_set]
    exact h.chunks
  · -- the new id was never issued, so it was never granted a cancellation
    have hold := h.granted id hid
    have hne : id ≠ ⟨i, slot.generation⟩ := by
      rintro rfl
      exact hold.1 hnever
    show Function.update _ _ _ _ ≠ _ ∧ Function.update _ _ _ _ ≠ _
    rw [Function.update_of_ne hne]
    exact hold

theorem grow (h : Good s) (hfit : s.slab.capacity + chunkSize ≤ 2 ^ 32) (addr : Nat) :
    Good { s with slab := s.slab.grow addr } := by
  refine ⟨OpSlab.grow_tracks h.tracks hfit addr, ?_, ?_, h.once, h.granted⟩
  · show s.slab.inFlight = _
    rw [h.inFlight]
    show _ = List.countP busy ((s.slab.slots ++ _).map _)
    rw [List.map_append, List.countP_append, List.map_replicate, List.countP_replicate]
    rfl
  · show (s.slab.slots ++ _).length % chunkSize = 0
    rw [List.length_append, List.length_replicate, Nat.add_mod_right]
    exact h.chunks

/-- Even past 2^32 slots, where the new indices wrap, `post` finds a slot. -/
theorem post_isSome (h : Good s) (addr : Nat) (kind : OpKind) :
    ∃ id slab, s.slab.post addr kind = some (id, slab) := by
  cases hfree : s.slab.freelist with
  | cons i rest =>
    obtain ⟨id, slab, hpost, -⟩ := h.post_nonempty hfree addr kind
    exact ⟨id, slab, hpost⟩
  | nil =>
    rw [OpSlab.post_of_empty hfree]
    have hgrown := s.slab.grow_freelist addr
    rw [hfree, List.append_nil] at hgrown
    have hhead : Recycling.Tracks.added s.slab.capacity chunkSize =
        UInt32.ofNat s.slab.capacity ::
          (Recycling.Tracks.added s.slab.capacity chunkSize).tail := rfl
    rw [hhead] at hgrown
    have hlt : (UInt32.ofNat s.slab.capacity).toNat < (s.slab.grow addr).slots.length := by
      have hle : (UInt32.ofNat s.slab.capacity).toNat ≤ s.slab.capacity := by
        rw [UInt32.toNat_ofNat']
        exact Nat.mod_le _ _
      have hlen : (s.slab.grow addr).slots.length = s.slab.capacity + chunkSize := by
        show (s.slab.slots ++ _).length = _
        rw [List.length_append, List.length_replicate]
        rfl
      rw [hlen]
      exact Nat.lt_of_le_of_lt hle (Nat.lt_add_of_pos_right (by decide))
    exact ⟨_, _, OpSlab.post_of_nonempty hgrown (List.getElem?_eq_getElem hlt) addr kind⟩

/-- Posting within the bounds: the new id, and what the freelist may then hold. -/
theorem post (h : Good s) (addr : Nat) (kind : OpKind)
    (hfits : (s.step (.post addr kind)).book.Fits) :
    Good (s.step (.post addr kind)) ∧ ∀ i ∈ (s.step (.post addr kind)).slab.freelist,
      i ∈ s.slab.freelist ∨ s.slab.capacity ≤ i.toNat := by
  cases hfree : s.slab.freelist with
  | cons i rest =>
    obtain ⟨id, slab, hpost, hrest, hgood⟩ := h.post_nonempty hfree addr kind
    simp only [Run.step, hpost]
    refine ⟨hgood, fun j hj => .inl ?_⟩
    rw [hrest] at hj
    exact List.mem_cons_of_mem i hj
  | nil =>
    obtain ⟨id, slab, hpost⟩ := h.post_isSome addr kind
    simp only [Run.step, hpost] at hfits ⊢
    have hroom : s.slab.capacity + chunkSize ≤ 2 ^ 32 := by
      have hfull := h.tracks.full hfree
      have hlen : s.slab.view.cells.length = s.slab.capacity := List.length_map _
      have hlive : (s.book.issued ++ [id]).length ≤ s.book.recycled.length + 2 ^ 32 := hfits.live
      have hchunks := h.chunks
      rw [List.length_append, List.length_singleton] at hlive
      unfold chunkSize at hchunks ⊢
      omega
    have hgrown := s.slab.grow_freelist addr
    rw [hfree, List.append_nil] at hgrown
    have hhead : Recycling.Tracks.added s.slab.capacity chunkSize =
        UInt32.ofNat s.slab.capacity ::
          (Recycling.Tracks.added s.slab.capacity chunkSize).tail := rfl
    rw [hhead] at hgrown
    obtain ⟨id', slab', hpost', hrest, hgood⟩ :=
      (h.grow hroom addr).post_nonempty hgrown addr kind
    rw [OpSlab.post_of_empty hfree, hpost'] at hpost
    injection hpost with hpost
    injection hpost with hid hslab
    subst hid hslab
    refine ⟨hgood, fun j hj => .inr ?_⟩
    rw [hrest] at hj
    have hmem : j ∈ Recycling.Tracks.added s.slab.capacity chunkSize := List.mem_of_mem_tail hj
    exact ((Recycling.Tracks.mem_added hroom j).mp hmem).1

/-- A live id moves on to another live state. -/
theorem move (h : Good s) {id : OpId} {slot : OpSlot D} (hget : s.slab.get id = some slot)
    (slot' : OpSlot D) {st : OpState} (hcell : slot'.cell = ⟨id.generation, some st⟩)
    (hst : st ≠ .posted) (inFlight : Nat)
    (hcount : inFlight + (if slot.inFlight then 1 else 0) =
      s.slab.inFlight + (if slot'.inFlight then 1 else 0)) :
    Good { s with
      slab := { s.slab with inFlight }.setSlot id.index slot'
      book := { s.book with life := Function.update s.book.life id (.live st) } } := by
  have hbusy := OpSlab.busy_setSlot hget slot'
  refine ⟨OpSlab.tracks_setSlot h.tracks hget hcell, ?_, ?_, h.once, fun id' hid => ?_⟩
  · show inFlight = (s.slab.setSlot id.index slot').view.cells.countP busy
    have := h.inFlight
    omega
  · show (s.slab.slots.set _ _).length % chunkSize = 0
    rw [List.length_set]
    exact h.chunks
  · have hold := h.granted id' hid
    show Function.update _ _ _ _ ≠ _ ∧ Function.update _ _ _ _ ≠ _
    by_cases heq : id' = id
    · rw [heq, Function.update_self]
      exact ⟨by simp, by simpa using hst⟩
    · rw [Function.update_of_ne heq]
      exact hold

theorem book_live (h : Good s) {id : OpId} {slot : OpSlot D} (hget : s.slab.get id = some slot) :
    s.book.life id = .live slot.state :=
  (OpSlab.live_iff_get h.tracks).mpr ⟨slot, hget, rfl⟩

/-- The book ignores what the slab refuses. -/
theorem book_stale (h : Good s) {id : OpId} (hget : s.slab.get id = none) :
    s.book.markCancelled id = s.book ∧ s.book.complete id = s.book ∧
      s.book.release id = s.book := by
  have hdead := OpSlab.not_live_of_get_none h.tracks hget
  unfold Book.markCancelled Book.complete Book.release
  cases hl : s.book.life id with
  | never => exact ⟨rfl, rfl, rfl⟩
  | ended => exact ⟨rfl, rfl, rfl⟩
  | live st => exact absurd hl (hdead st)

theorem markCancelled (h : Good s) (id : OpId) : Good (s.step (.markCancelled id)) := by
  cases hget : s.slab.get id with
  | none =>
    simp only [Run.step, (OpSlab.stale hget).1, (h.book_stale hget).1]
    exact h
  | some slot =>
    have hlive := h.book_live hget
    simp only [Run.step, OpSlab.markCancelled_of_get hget, Book.markCancelled, hlive]
    by_cases hst : slot.state = .posted
    · have hcell : OpSlot.cell { slot with state := .cancelled } =
          ⟨id.generation, some .cancelled⟩ := by
        rw [OpSlot.cell, ← (OpSlab.get_eq_some.mp hget).2.1]
        rfl
      have hmoved := h.move hget { slot with state := .cancelled } hcell (by decide)
        s.slab.inFlight (by simp [OpSlot.inFlight, hst])
      have hfresh : id ∉ s.granted := fun hid => (h.granted id hid).2 (by rw [hlive, hst])
      simp only [hst, if_true]
      refine ⟨hmoved.tracks, hmoved.inFlight, hmoved.chunks, ?_, fun id' hid => ?_⟩
      · rw [List.nodup_append]
        refine ⟨h.once, List.nodup_singleton _, fun a ha b hb hab => ?_⟩
        rw [List.mem_singleton] at hb
        subst hb hab
        exact hfresh ha
      · rcases List.mem_append.mp hid with hid | hid
        · exact hmoved.granted id' hid
        · rw [List.mem_singleton.mp hid]
          show Function.update _ _ _ _ ≠ _ ∧ Function.update _ _ _ _ ≠ _
          rw [Function.update_self]
          exact ⟨by simp, by simp⟩
    · have hbook : (match Life.live slot.state with
          | .live .posted => { s.book with life := Function.update s.book.life id (.live .cancelled) }
          | _ => s.book) = s.book := by
        cases hs : slot.state <;> simp_all
      simp only [if_neg hst, hbook]
      exact h

theorem complete (h : Good s) (id : OpId) : Good (s.step (.complete id)) := by
  cases hget : s.slab.get id with
  | none =>
    simp only [Run.step, (OpSlab.stale hget).2.1, (h.book_stale hget).2.1]
    exact h
  | some slot =>
    have hlive := h.book_live hget
    have hpos : slot.inFlight = true → 0 < s.slab.inFlight := by
      intro hbusy
      rw [h.inFlight, List.countP_pos_iff]
      refine ⟨slot.cell, List.mem_of_getElem? (OpSlab.view_cell (OpSlab.get_eq_some.mp hget).1), ?_⟩
      rw [slot.busy_cell, hbusy]
    have hcell : OpSlot.cell { slot with state := .completed } =
        ⟨id.generation, some .completed⟩ := by
      rw [OpSlot.cell, ← (OpSlab.get_eq_some.mp hget).2.1]
      rfl
    have hbook : s.book.complete id = if slot.inFlight then
        { s.book with life := Function.update s.book.life id (.live .completed) } else s.book := by
      rw [Book.complete, hlive]
      cases hs : slot.state <;> simp [OpSlot.inFlight, hs]
    simp only [Run.step, OpSlab.complete_of_get hget, hbook]
    by_cases hbusy : slot.inFlight = true
    · have hmoved := h.move hget { slot with state := .completed } hcell (by decide)
        (s.slab.inFlight - 1) (by
          have := hpos hbusy
          rw [if_pos hbusy, if_neg (by simp [OpSlot.inFlight])]
          omega)
      simp only [hbusy, if_true]
      exact hmoved
    · simp only [if_neg hbusy]
      exact h

theorem release (h : Good s) (id : OpId) (hfits : (s.step (.release id)).book.Fits) :
    Good (s.step (.release id)) := by
  cases hget : s.slab.get id with
  | none =>
    simp only [Run.step, (OpSlab.stale hget).2.2.1, (h.book_stale hget).2.2]
    exact h
  | some slot =>
    obtain ⟨hslot, hg, -⟩ := OpSlab.get_eq_some.mp hget
    have hlive := h.book_live hget
    have hbook : s.book.release id = if slot.state = .completed then
        { s.book with
          life := Function.update s.book.life id .ended, recycled := s.book.recycled ++ [id] }
        else s.book := by
      rw [Book.release, hlive]
      cases hs : slot.state <;> simp
    simp only [Run.step, OpSlab.release_of_get hget, hbook] at hfits ⊢
    by_cases hst : slot.state = .completed
    · simp only [hst, if_true] at hfits ⊢
      have hroom : recyclings s.book.recycled id.index + 1 < 2 ^ 32 := by
        have hlt := hfits.recyclings id.index
        rw [Recycling.Tracks.recyclings_concat, if_pos rfl] at hlt
        exact hlt
      have htracks := h.tracks.recycle hlive hroom (List.Perm.refl _)
      have hbusy := OpSlab.busy_setSlot hget
        { slot with state := .free, generation := slot.generation + 1 }
      refine ⟨?_, ?_, ?_, h.once, fun id' hid => ?_⟩
      · rw [OpSlab.view_setSlot]
        rw [← hg] at htracks
        exact htracks
      · show s.slab.inFlight = (s.slab.setSlot id.index _).view.cells.countP busy
        have := h.inFlight
        simp only [OpSlot.inFlight, hst] at hbusy
        simp at hbusy
        omega
      · show (s.slab.slots.set _ _).length % chunkSize = 0
        rw [List.length_set]
        exact h.chunks
      · have hold := h.granted id' hid
        show Function.update _ _ _ _ ≠ _ ∧ Function.update _ _ _ _ ≠ _
        by_cases heq : id' = id
        · rw [heq, Function.update_self]
          exact ⟨by simp, by simp⟩
        · rw [Function.update_of_ne heq]
          exact hold
    · simp only [if_neg hst]
      exact h

theorem getMut (h : Good s) (id : OpId) (f : OpKind × D → OpKind × D) :
    Good (s.step (.getMut id f)) := by
  obtain ⟨hview, hcount⟩ := s.slab.getMut_view id f
  have hlen : (s.slab.getMut id f).capacity = s.slab.capacity := by
    have := congrArg (fun v => v.cells.length) hview
    simpa [OpSlab.view, OpSlab.capacity] using this
  refine ⟨?_, ?_, ?_, h.once, h.granted⟩
  · show Tracks (s.slab.getMut id f).view _ _ _
    rw [hview]
    exact h.tracks
  · show (s.slab.getMut id f).inFlight = (s.slab.getMut id f).view.cells.countP busy
    rw [hview, hcount]
    exact h.inFlight
  · show (s.slab.getMut id f).capacity % chunkSize = 0
    rw [hlen]
    exact h.chunks

theorem step (h : Good s) (op : Op D) (hfits : (s.step op).book.Fits) : Good (s.step op) := by
  cases op with
  | post addr kind => exact (h.post addr kind hfits).1
  | get id => exact h
  | getMut id f => exact h.getMut id f
  | markCancelled id => exact h.markCancelled id
  | complete id => exact h.complete id
  | release id => exact h.release id hfits
  | state id => exact h

end Good

/-! ## 4. The lifecycle over whole runs -/

/-- At every point of the run, at most 2^32 ids are live and no slot was recycled 2^32 times. -/
def Fits (makeDefault : D) (ops : List (Op D)) : Prop :=
  ∀ pre, pre <+: ops → ((runs makeDefault).run pre).book.Fits

theorem run_good (makeDefault : D) (ops : List (Op D)) (hfits : Fits makeDefault ops) :
    Good ((runs makeDefault).run ops) := by
  revert hfits
  refine (runs makeDefault).run_induction (motive := fun ops s => Fits makeDefault ops → Good s)
    (fun _ => good_new makeDefault) ?_ ops
  intro ops op ih hfits
  have hnext := hfits (ops ++ [op]) (List.prefix_refl _)
  rw [Machine.run_concat] at hnext
  exact (ih fun pre hpre => hfits pre (hpre.trans (List.prefix_append _ _))).step op hnext

/-- The lifecycle is exact: freelist, in-flight count, ids, resolution and cancellation. -/
structure Exact (s : Run D) : Prop where
  freelist_once : s.slab.freelist.Nodup
  freelist : ∀ i, i ∈ s.slab.freelist ↔ ∃ slot, s.slab.slot i = some slot ∧ slot.state = .free
  inFlight : s.slab.inFlight = s.slab.slots.countP OpSlot.inFlight
  inFlightIds : ∀ id, id ∈ s.slab.inFlightIds ↔
    ∃ slot, s.slab.get id = some slot ∧ slot.inFlight = true
  posts : ∀ addr kind, (s.slab.post addr kind).isSome = true
  ids : s.book.issued.Nodup
  resolves : ∀ id, (s.slab.get id).isSome = true ↔ id ∈ s.book.issued ∧ id ∉ s.book.recycled
  states : ∀ id slot, s.slab.get id = some slot → s.book.life id = .live slot.state
  grants : ∀ id, (s.slab.markCancelled id).1 = true ↔ s.slab.state id = some .posted
  granted : s.granted.Nodup
  refused : ∀ id, s.slab.get id = none →
    s.slab.markCancelled id = (false, s.slab) ∧ s.slab.complete id = (none, s.slab) ∧
      s.slab.release id = s.slab ∧ ∀ f, s.slab.getMut id f = s.slab

theorem OpSlab.state_eq_some {s : OpSlab D} {id : OpId} {st : OpState} (hst : st ≠ .free) :
    s.state id = some st ↔ ∃ slot, s.get id = some slot ∧ slot.state = st := by
  unfold OpSlab.state
  constructor
  · intro h
    cases hslot : s.slot id.index with
    | none =>
      rw [hslot] at h
      cases h
    | some slot =>
      rw [hslot] at h
      dsimp only at h
      split at h
      · rename_i hg
        injection h with h
        exact ⟨slot, OpSlab.get_eq_some.mpr ⟨hslot, hg, by rw [h]; exact hst⟩, h⟩
      · cases h
  · rintro ⟨slot, hget, rfl⟩
    obtain ⟨hslot, hg, -⟩ := OpSlab.get_eq_some.mp hget
    rw [hslot]
    exact if_pos hg

/-- The ids to cancel and drain at loop close: those of the posted and cancelled ops. -/
theorem Good.mem_inFlightIds {s : Run D} (h : Good s) (id : OpId) :
    id ∈ s.slab.inFlightIds ↔ ∃ slot, s.slab.get id = some slot ∧ slot.inFlight = true := by
  have hsize := h.tracks.size
  rw [show s.slab.view.cells.length = s.slab.slots.length from List.length_map _] at hsize
  unfold OpSlab.inFlightIds
  rw [List.mem_filterMap]
  constructor
  · rintro ⟨⟨slot, i⟩, hmem, hsome⟩
    have hget := List.mem_zipIdx_iff_getElem?.mp hmem
    have hlt := (List.getElem?_eq_some_iff.mp hget).1
    have hi : (UInt32.ofNat i).toNat = i :=
      UInt32.toNat_ofNat_of_lt' (show i < 2 ^ 32 from Nat.lt_of_lt_of_le hlt hsize)
    dsimp only at hsome
    split at hsome
    · rename_i hbusy
      injection hsome with hid
      subst hid
      refine ⟨slot, OpSlab.get_eq_some.mpr ⟨?_, rfl, ?_⟩, hbusy⟩
      · show s.slab.slots[(UInt32.ofNat i).toNat]? = some slot
        rw [hi]
        exact hget
      · intro hfree
        rw [OpSlot.inFlight, hfree] at hbusy
        exact absurd hbusy (by decide)
    · cases hsome
  · rintro ⟨slot, hget, hbusy⟩
    obtain ⟨hslot, hg, -⟩ := OpSlab.get_eq_some.mp hget
    refine ⟨(slot, id.index.toNat), List.mem_zipIdx_iff_getElem?.mpr hslot, ?_⟩
    dsimp only
    rw [if_pos hbusy, UInt32.ofNat_toNat, hg]

theorem Good.exact {s : Run D} (h : Good s) : Exact s where
  freelist_once := h.tracks.free_once
  freelist i := by
    refine ⟨h.slot_of_free, ?_⟩
    rintro ⟨slot, hslot, hst⟩
    refine (h.tracks.mem_free i).mpr ⟨slot.cell, OpSlab.view_cell hslot, ?_⟩
    rw [OpSlot.cell, if_pos hst]
  inFlight := by
    rw [h.inFlight, OpSlab.view, List.countP_map]
    apply List.countP_congr
    intro slot _
    rw [Function.comp_apply, slot.busy_cell]
  inFlightIds := h.mem_inFlightIds
  posts addr kind := by
    obtain ⟨id, slab, hpost⟩ := h.post_isSome addr kind
    rw [hpost]
    rfl
  ids := h.tracks.once
  resolves id := by
    rw [h.tracks.mem_issued, h.tracks.mem_recycled]
    cases hget : s.slab.get id with
    | none =>
      have hdead := OpSlab.not_live_of_get_none h.tracks hget
      cases hl : s.book.life id with
      | never => simp
      | ended => simp
      | live st => exact absurd hl (hdead st)
    | some slot =>
      rw [h.book_live hget]
      simp
  states id slot hget := h.book_live hget
  grants id := by
    rw [OpSlab.state_eq_some (by decide)]
    cases hget : s.slab.get id with
    | none =>
      rw [(OpSlab.stale hget).1]
      simp
    | some slot =>
      rw [OpSlab.markCancelled_of_get hget]
      by_cases hst : slot.state = .posted <;> simp [hst]
  granted := h.once
  refused id hget := OpSlab.stale hget

/-- An index comes back to the freelist only through `release` of a completed op by its own id. -/
theorem Good.returned {s : Run D} (h : Good s) (op : Op D) (hfits : (s.step op).book.Fits)
    {i : UInt32} (hi : (s.slab.slot i).isSome = true) (hout : i ∉ s.slab.freelist)
    (hback : i ∈ (s.step op).slab.freelist) :
    ∃ id, op = .release id ∧ id.index = i ∧ s.slab.state id = some .completed := by
  cases op with
  | post addr kind =>
    rcases (h.post addr kind hfits).2 i hback with hin | hnew
    · exact absurd hin hout
    · obtain ⟨slot, hslot⟩ := Option.isSome_iff_exists.mp hi
      exact absurd (List.getElem?_eq_some_iff.mp hslot).1 (Nat.not_lt.mpr hnew)
  | get id => exact absurd hback hout
  | getMut id f =>
    have hview := congrArg Recycling.Slots.free (s.slab.getMut_view id f).1
    have hback : i ∈ (s.slab.getMut id f).freelist := hback
    rw [show (s.slab.getMut id f).freelist = s.slab.freelist from hview] at hback
    exact absurd hback hout
  | markCancelled id =>
    have hback : i ∈ (s.slab.markCancelled id).2.freelist := hback
    cases hget : s.slab.get id with
    | none =>
      rw [(OpSlab.stale hget).1] at hback
      exact absurd hback hout
    | some slot =>
      rw [OpSlab.markCancelled_of_get hget] at hback
      split at hback <;> exact absurd hback hout
  | complete id =>
    have hback : i ∈ (s.slab.complete id).2.freelist := hback
    cases hget : s.slab.get id with
    | none =>
      rw [(OpSlab.stale hget).2.1] at hback
      exact absurd hback hout
    | some slot =>
      rw [OpSlab.complete_of_get hget] at hback
      split at hback <;> exact absurd hback hout
  | release id =>
    have hback : i ∈ (s.slab.release id).freelist := hback
    cases hget : s.slab.get id with
    | none =>
      rw [(OpSlab.stale hget).2.2.1] at hback
      exact absurd hback hout
    | some slot =>
      rw [OpSlab.release_of_get hget] at hback
      by_cases hst : slot.state = .completed
      · rw [if_pos hst] at hback
        have hmem : i ∈ id.index :: s.slab.freelist := hback
        rcases List.mem_cons.mp hmem with heq | hmem
        · exact ⟨id, rfl, heq.symm, (OpSlab.state_eq_some (by decide)).mpr ⟨slot, hget, hst⟩⟩
        · exact absurd hmem hout
      · rw [if_neg hst] at hback
        exact absurd hback hout
  | state id => exact absurd hback hout

/-- **The op slab's lifecycle is exact under any ids**, within the bounds of its 32-bit indices
and generations. -/
theorem lifecycle_exact (makeDefault : D) (ops : List (Op D)) (hfits : Fits makeDefault ops) :
    Exact ((runs makeDefault).run ops) ∧
      ∀ op, Fits makeDefault (ops ++ [op]) → ∀ i : UInt32,
        (((runs makeDefault).run ops).slab.slot i).isSome = true →
        i ∉ ((runs makeDefault).run ops).slab.freelist →
        i ∈ ((runs makeDefault).run (ops ++ [op])).slab.freelist →
        ∃ id, op = .release id ∧ id.index = i ∧
          ((runs makeDefault).run ops).slab.state id = some .completed := by
  have hgood := run_good makeDefault ops hfits
  refine ⟨hgood.exact, fun op hop i hi hout hback => ?_⟩
  have hnext := hop (ops ++ [op]) (List.prefix_refl _)
  rw [Machine.run_concat] at hnext hback
  exact hgood.returned op hnext hi hout hback

theorem run_lengths (makeDefault : D) (ops : List (Op D)) :
    ((runs makeDefault).run ops).book.issued.length ≤ ops.length ∧
      ((runs makeDefault).run ops).book.recycled.length ≤ ops.length := by
  refine (runs makeDefault).run_induction (motive := fun ops s =>
    s.book.issued.length ≤ ops.length ∧ s.book.recycled.length ≤ ops.length)
    ⟨Nat.le_refl _, Nat.le_refl _⟩ ?_ ops
  intro ops op ih
  generalize (runs makeDefault).run ops = s at ih ⊢
  rw [List.length_append, List.length_singleton]
  show (s.step op).book.issued.length ≤ _ ∧ (s.step op).book.recycled.length ≤ _
  cases op <;>
    simp only [Run.step, Book.markCancelled, Book.complete, Book.release] <;>
    repeat' split
  all_goals
    first
    | omega
    | simp only [Book.post, List.length_append, List.length_singleton]
      omega

/-- Every run shorter than 2^32 is within the bounds. -/
theorem fits_of_short (makeDefault : D) {ops : List (Op D)} (h : ops.length < 2 ^ 32) :
    Fits makeDefault ops := by
  intro pre hpre
  have hlen := hpre.length_le
  obtain ⟨hissued, hrecycled⟩ := run_lengths makeDefault pre
  refine ⟨by omega, fun i => ?_⟩
  have hcount : recyclings ((runs makeDefault).run pre).book.recycled i ≤ _ :=
    List.countP_le_length
  omega

/-- A slot goes round once; its old id is refused afterwards. -/
theorem lifecycle_exact_round :
    let ops : List (Op Unit) := [.post 4096 .recv, .markCancelled ⟨0, 0⟩, .complete ⟨0, 0⟩,
      .release ⟨0, 0⟩, .release ⟨0, 0⟩, .post 0 .send]
    Fits () ops ∧ Exact ((runs ()).run ops) :=
  ⟨fits_of_short () (by decide), (lifecycle_exact () _ (fits_of_short () (by decide))).1⟩

/-! ## 5. More than 2^32 live operations -/

-- without recycling every generation is 0, also in the slots `grow` adds
theorem post_generation {s slab : OpSlab D} {addr : Nat} {kind : OpKind} {id : OpId}
    (hpost : s.post addr kind = some (id, slab))
    (hzero : ∀ slot ∈ s.slots, slot.generation = 0) :
    id.generation = 0 ∧ ∀ slot ∈ slab.slots, slot.generation = 0 := by
  have hgrown : ∀ slot ∈ (if s.freelist = [] then s.grow addr else s).slots,
      slot.generation = 0 := by
    split
    · intro slot hslot
      rcases List.mem_append.mp hslot with hold | hnew
      · exact hzero slot hold
      · rw [List.eq_of_mem_replicate hnew]
    · exact hzero
  unfold OpSlab.post at hpost
  generalize (if s.freelist = [] then s.grow addr else s) = s' at hpost hgrown
  dsimp only at hpost
  split at hpost
  · cases hpost
  split at hpost
  · cases hpost
  rename_i slot hslot
  have hslot0 := hgrown slot (List.mem_of_getElem? hslot)
  injection hpost with hpost
  injection hpost with hid hslab
  subst hid hslab
  refine ⟨hslot0, fun slot' hmem => ?_⟩
  rcases List.mem_or_eq_of_mem_set hmem with hold | rfl
  · exact hgrown slot' hold
  · exact hslot0

def posts (n : Nat) : List (Op Unit) := List.replicate n (.post 0 .recv)

theorem run_posts (hall : ∀ n, Exact ((runs ()).run (posts n))) (n : Nat) :
    ((runs ()).run (posts n)).book.issued.length = n ∧
      (∀ id ∈ ((runs ()).run (posts n)).book.issued, id.generation = 0) ∧
      ∀ slot ∈ ((runs ()).run (posts n)).slab.slots, slot.generation = 0 := by
  induction n with
  | zero => exact ⟨rfl, (fun id h => by cases h), (fun slot h => by cases h)⟩
  | succ n ih =>
    obtain ⟨hlen, hids, hslots⟩ := ih
    have hposts : posts (n + 1) = posts n ++ [.post 0 .recv] := List.replicate_succ'
    obtain ⟨⟨id, slab⟩, hpost⟩ := Option.isSome_iff_exists.mp ((hall n).posts 0 .recv)
    obtain ⟨hid, hslab⟩ := post_generation hpost hslots
    rw [hposts, Machine.run_concat]
    show (Run.step _ _).book.issued.length = _ ∧ (∀ id ∈ (Run.step _ _).book.issued, _) ∧
      ∀ slot ∈ (Run.step _ _).slab.slots, _
    simp only [Run.step, hpost, Book.post, List.length_append, List.length_singleton, hlen]
    refine ⟨trivial, fun id' hmem => ?_, hslab⟩
    rcases List.mem_append.mp hmem with hmem | hmem
    · exact hids id' hmem
    · rw [List.mem_singleton.mp hmem]
      exact hid

theorem posts_not_recycled (n : Nat) : ((runs ()).run (posts n)).book.recycled = [] := by
  induction n with
  | zero => rfl
  | succ n ih =>
    have hposts : posts (n + 1) = posts n ++ [.post 0 .recv] := List.replicate_succ'
    rw [hposts, Machine.run_concat]
    generalize (runs ()).run (posts n) = s at ih ⊢
    show (Run.step s _).book.recycled = []
    simp only [Run.step]
    split
    · exact ih
    · exact ih

theorem prefix_posts {pre : List (Op Unit)} {n : Nat} (h : pre <+: posts n) :
    pre = posts pre.length :=
  List.eq_replicate_of_mem fun _ hop => List.eq_of_mem_replicate (h.subset hop)

/-- With 2^32 + 1 operations posted and none released, two share an id: the base of the next chunk
is cut to 32 bits. -/
theorem lifecycle_not_exact_past_u32 :
    ¬ ∀ ops : List (Op Unit),
      (∀ pre, pre <+: ops → ∀ i, recyclings ((runs ()).run pre).book.recycled i < 2 ^ 32) →
        Exact ((runs ()).run ops) := by
  intro h
  have hall : ∀ n, Exact ((runs ()).run (posts n)) := by
    intro n
    apply h
    intro pre hpre i
    rw [prefix_posts hpre, posts_not_recycled]
    exact Nat.two_pow_pos 32
  obtain ⟨hlen, hids, -⟩ := run_posts hall (2 ^ 32 + 1)
  have hnodup := (hall (2 ^ 32 + 1)).ids
  generalize ((runs ()).run (posts (2 ^ 32 + 1))).book.issued = ids at hlen hids hnodup
  have hmap : (ids.map fun id => id.index.toNat).Nodup := by
    refine List.Nodup.map_on (fun a ha b hb hab => ?_) hnodup
    have hga := hids a ha
    have hgb := hids b hb
    cases a
    cases b
    simp_all [UInt32.toNat_inj]
  have hsub : (ids.map fun id => id.index.toNat) ⊆ List.range (2 ^ 32) := by
    intro k hk
    obtain ⟨id, -, rfl⟩ := List.mem_map.mp hk
    exact List.mem_range.mpr id.index.toNat_lt
  have hle := (hmap.subperm hsub).length_le
  rw [List.length_map, List.length_range, hlen] at hle
  omega

end Cadeloop.Core.Ops
