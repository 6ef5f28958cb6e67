import Cadeloop.Reasoning.Recycling

/-!
# The operation slab (`crates/core/src/opslab.rs`)

Slots for in-flight kernel operations, handed out under ids that embed the slot's generation.
`post` takes the address the allocator would give a new chunk; debug assertions are off, so an
operation on a wrong id falls through to its release behaviour.
-/

namespace Cadeloop.Core.Ops

open Cadeloop.Reasoning

/-! ## 1. The slab -/

inductive OpState where
  | free
  | posted
  | completed
  | cancelled
  deriving DecidableEq

inductive OpKind where
  | accept
  | recv
  | send
  | connect
  | disconnect
  | wakeup
  | recvFrom
  | sendTo
  | pipeRead
  | pipeWrite
  | poll
  deriving DecidableEq

abbrev OpId := Recycling.Id

structure OpSlot (D : Type*) where
  state : OpState
  generation : UInt32
  kind : OpKind
  data : D

-- `CHUNK`
def chunkSize : Nat := 256

structure OpSlab (D : Type*) where
  -- the chunks one behind the other: slot `i` is `chunks[i / CHUNK][i % CHUNK]`
  slots : List (OpSlot D)
  -- (base address, chunk index), sorted by address
  byAddr : List (Nat × Nat)
  -- the last pushed index first
  freelist : List UInt32
  inFlight : Nat
  makeDefault : D

variable {D : Type*}

-- what the kernel may still touch
def OpSlot.inFlight (slot : OpSlot D) : Bool := slot.state = .posted ∨ slot.state = .cancelled

namespace OpSlab

def new (makeDefault : D) : OpSlab D :=
  { slots := [], byAddr := [], freelist := [], inFlight := 0, makeDefault }

def capacity (s : OpSlab D) : Nat := s.slots.length

def slot (s : OpSlab D) (index : UInt32) : Option (OpSlot D) := s.slots[index.toNat]?

def setSlot (s : OpSlab D) (index : UInt32) (slot : OpSlot D) : OpSlab D :=
  { s with slots := s.slots.set index.toNat slot }

def grow (s : OpSlab D) (addr : Nat) : OpSlab D :=
  let base := UInt32.ofNat s.capacity
  let pos := (s.byAddr.takeWhile fun entry => decide (entry.1 < addr)).length
  { s with
    slots := s.slots ++ List.replicate chunkSize ⟨.free, 0, .wakeup, s.makeDefault⟩
    byAddr := s.byAddr.insertIdx pos (addr, s.capacity / chunkSize)
    -- pushed in reverse so low indices are handed out first
    freelist := (List.range chunkSize).map (fun i => base + UInt32.ofNat i) ++ s.freelist }

/-- Allocate a slot, Free -> Posted; `none` where an `expect` would panic. -/
def post (s : OpSlab D) (addr : Nat) (kind : OpKind) : Option (OpId × OpSlab D) :=
  let s := if s.freelist = [] then s.grow addr else s
  match s.freelist with
  | [] => none
  | index :: rest =>
    match s.slot index with
    | none => none
    | some slot =>
      some (⟨index, slot.generation⟩,
        { s with freelist := rest, inFlight := s.inFlight + 1 }.setSlot index
          { slot with state := .posted, kind })

def get (s : OpSlab D) (id : OpId) : Option (OpSlot D) :=
  match s.slot id.index with
  | none => none
  | some slot => if slot.generation = id.generation ∧ slot.state ≠ .free then some slot else none

/-- `get_mut`, and what the caller does with the public fields of the slot. -/
def getMut (s : OpSlab D) (id : OpId) (f : OpKind × D → OpKind × D) : OpSlab D :=
  match s.get id with
  | none => s
  | some slot =>
    s.setSlot id.index { slot with kind := (f (slot.kind, slot.data)).1, data := (f (slot.kind, slot.data)).2 }

/-- Posted -> Cancelled; true only on that edge. -/
def markCancelled (s : OpSlab D) (id : OpId) : Bool × OpSlab D :=
  match s.get id with
  | none => (false, s)
  | some slot =>
    match slot.state with
    | .posted => (true, s.setSlot id.index { slot with state := .cancelled })
    | .cancelled => (false, s)
    | .completed => (false, s)
    -- unreachable: `get` filters Free
    | .free => (false, s)

/-- {Posted, Cancelled} -> Completed: the kind, and whether it had been cancelled. -/
def complete (s : OpSlab D) (id : OpId) : Option (OpKind × Bool) × OpSlab D :=
  match s.slot id.index with
  | none => (none, s)
  | some slot =>
    if slot.generation ≠ id.generation then (none, s)
    else
      match slot.state with
      | .posted =>
        (some (slot.kind, false),
          { s with inFlight := s.inFlight - 1 }.setSlot id.index { slot with state := .completed })
      | .cancelled =>
        (some (slot.kind, true),
          { s with inFlight := s.inFlight - 1 }.setSlot id.index { slot with state := .completed })
      | .free => (none, s)
      | .completed => (none, s)

/-- Completed -> Free: the only transition that recycles a slot. -/
def release (s : OpSlab D) (id : OpId) : OpSlab D :=
  match s.slot id.index with
  | none => s
  | some slot =>
    if slot.generation = id.generation ∧ slot.state = .completed then
      { s with freelist := id.index :: s.freelist }.setSlot id.index
        { slot with state := .free, generation := slot.generation + 1 }
    else s

def state (s : OpSlab D) (id : OpId) : Option OpState :=
  match s.slot id.index with
  | none => none
  | some slot => if slot.generation = id.generation then some slot.state else none

def inFlightIds (s : OpSlab D) : List OpId :=
  s.slots.zipIdx.filterMap fun entry =>
    if entry.1.inFlight then some ⟨UInt32.ofNat entry.2, entry.1.generation⟩ else none

/-! ## 2. The slab as a table of recycled slots -/

end OpSlab

open Recycling (Cell Slots Life Tracks)

def OpSlot.cell (slot : OpSlot D) : Cell OpState :=
  ⟨slot.generation, if slot.state = .free then none else some slot.state⟩

def busy (c : Cell OpState) : Bool := c.held = some .posted ∨ c.held = some .cancelled

theorem OpSlot.busy_cell (slot : OpSlot D) : busy slot.cell = slot.inFlight := by
  obtain ⟨state, generation, kind, data⟩ := slot
  cases state <;> rfl

namespace OpSlab

def view (s : OpSlab D) : Slots OpState := ⟨s.slots.map OpSlot.cell, s.freelist⟩

theorem view_cell {s : OpSlab D} {i : UInt32} {slot : OpSlot D} (h : s.slot i = some slot) :
    s.view.cells[i.toNat]? = some slot.cell := by
  rw [view, List.getElem?_map, show s.slots[i.toNat]? = some slot from h]
  rfl

theorem slot_of_view {s : OpSlab D} {i : UInt32} {c : Cell OpState}
    (h : s.view.cells[i.toNat]? = some c) : ∃ slot, s.slot i = some slot ∧ slot.cell = c := by
  rw [view, List.getElem?_map, Option.map_eq_some_iff] at h
  exact h

theorem view_setSlot (s : OpSlab D) (i : UInt32) (slot : OpSlot D) :
    (s.setSlot i slot).view = ⟨s.view.cells.set i.toNat slot.cell, s.freelist⟩ := by
  rw [view, setSlot, view, List.map_set]

theorem get_eq_some {s : OpSlab D} {id : OpId} {slot : OpSlot D} :
    s.get id = some slot ↔
      s.slot id.index = some slot ∧ slot.generation = id.generation ∧ slot.state ≠ .free := by
  unfold get
  cases s.slot id.index with
  | none => simp
  | some slot' =>
    dsimp only
    constructor
    · intro h
      split at h
      · injection h with h
        subst h
        exact ⟨rfl, ‹_›⟩
      · cases h
    · rintro ⟨h, hcur⟩
      injection h with h
      subst h
      rw [if_pos hcur]

theorem cell_of_get {s : OpSlab D} {id : OpId} {slot : OpSlot D} (h : s.get id = some slot) :
    slot.cell = ⟨id.generation, some slot.state⟩ := by
  obtain ⟨-, hg, hs⟩ := get_eq_some.mp h
  rw [OpSlot.cell, if_neg hs, hg]

section Tracked

variable {s : OpSlab D} {life : OpId → Life OpState} {issued recycled : List OpId}

/-- An id is live in the book exactly when it resolves, and in the state it resolves to. -/
theorem live_iff_get (h : Tracks s.view life issued recycled) {id : OpId} {st : OpState} :
    life id = .live st ↔ ∃ slot, s.get id = some slot ∧ slot.state = st := by
  rw [h.live_iff]
  constructor
  · intro hc
    obtain ⟨slot, hslot, hcell⟩ := slot_of_view hc
    rw [OpSlot.cell] at hcell
    injection hcell with hg hheld
    by_cases hfree : slot.state = .free
    · rw [if_pos hfree] at hheld
      cases hheld
    · rw [if_neg hfree] at hheld
      injection hheld with hheld
      exact ⟨slot, get_eq_some.mpr ⟨hslot, hg, hfree⟩, hheld⟩
  · rintro ⟨slot, hget, rfl⟩
    rw [view_cell (get_eq_some.mp hget).1, cell_of_get hget]

theorem not_live_of_get_none (h : Tracks s.view life issued recycled) {id : OpId}
    (hget : s.get id = none) (st : OpState) : life id ≠ .live st := by
  intro hl
  obtain ⟨slot, hslot, -⟩ := (live_iff_get h).mp hl
  rw [hget] at hslot
  cases hslot

/-- A live slot moves to another live state. -/
theorem tracks_setSlot (h : Tracks s.view life issued recycled) {id : OpId} {slot slot' : OpSlot D}
    (hget : s.get id = some slot) {st : OpState}
    (hcell : slot'.cell = ⟨id.generation, some st⟩) :
    Tracks (s.setSlot id.index slot').view (Function.update life id (.live st)) issued recycled := by
  have hl := (live_iff_get h).mpr ⟨slot, hget, rfl⟩
  rw [view_setSlot, hcell]
  exact h.change hl st

theorem busy_setSlot {id : OpId} {slot : OpSlot D} (hget : s.get id = some slot)
    (slot' : OpSlot D) :
    (s.setSlot id.index slot').view.cells.countP busy + (if slot.inFlight then 1 else 0) =
      s.view.cells.countP busy + (if slot'.inFlight then 1 else 0) := by
  have hcount := Recycling.countP_set_cell
    (view_cell (get_eq_some.mp hget).1) slot'.cell busy
  rw [view_setSlot, ← slot.busy_cell, ← slot'.busy_cell]
  exact hcount

end Tracked

/-! ## 3. What the operations do -/

theorem getMut_view (s : OpSlab D) (id : OpId) (f : OpKind × D → OpKind × D) :
    (s.getMut id f).view = s.view ∧ (s.getMut id f).inFlight = s.inFlight := by
  unfold getMut
  cases hget : s.get id with
  | none => exact ⟨rfl, rfl⟩
  | some slot =>
    refine ⟨?_, rfl⟩
    have hcell := view_cell (get_eq_some.mp hget).1
    obtain ⟨hlt, hval⟩ := List.getElem?_eq_some_iff.mp hcell
    dsimp only
    rw [view_setSlot]
    show (⟨s.view.cells.set id.index.toNat slot.cell, s.freelist⟩ : Slots OpState) = s.view
    rw [← hval, List.set_getElem_self]
    rfl

theorem markCancelled_of_get {s : OpSlab D} {id : OpId} {slot : OpSlot D}
    (h : s.get id = some slot) :
    s.markCancelled id = if slot.state = .posted then
      (true, s.setSlot id.index { slot with state := .cancelled }) else (false, s) := by
  rw [markCancelled, h]
  cases hs : slot.state <;> simp [hs]

theorem complete_of_get {s : OpSlab D} {id : OpId} {slot : OpSlot D} (h : s.get id = some slot) :
    s.complete id = if slot.inFlight then
      (some (slot.kind, decide (slot.state = .cancelled)),
        { s with inFlight := s.inFlight - 1 }.setSlot id.index { slot with state := .completed })
      else (none, s) := by
  obtain ⟨hslot, hg, hfree⟩ := get_eq_some.mp h
  rw [complete, hslot]
  cases hs : slot.state <;> simp [hs, hg, OpSlot.inFlight]

theorem release_of_get {s : OpSlab D} {id : OpId} {slot : OpSlot D} (h : s.get id = some slot) :
    s.release id = if slot.state = .completed then
      { s with freelist := id.index :: s.freelist }.setSlot id.index
        { slot with state := .free, generation := slot.generation + 1 }
      else s := by
  obtain ⟨hslot, hg, hfree⟩ := get_eq_some.mp h
  rw [release, hslot]
  simp [hg]

/-- An id that is not current is refused by every operation, and nothing changes. -/
theorem stale {s : OpSlab D} {id : OpId} (h : s.get id = none) :
    s.markCancelled id = (false, s) ∧ s.complete id = (none, s) ∧ s.release id = s ∧
      ∀ f, s.getMut id f = s := by
  refine ⟨by rw [markCancelled, h], ?_, ?_, fun f => by rw [getMut, h]⟩
  · unfold get at h
    unfold complete
    cases hslot : s.slot id.index with
    | none => rfl
    | some slot =>
      rw [hslot] at h
      dsimp only at h ⊢
      by_cases hg : slot.generation = id.generation
      · have hfree : slot.state = .free := by
          by_contra hne
          rw [if_pos ⟨hg, hne⟩] at h
          cases h
        rw [if_neg (not_not.mpr hg), hfree]
      · rw [if_pos hg]
  · unfold get at h
    unfold release
    cases hslot : s.slot id.index with
    | none => rfl
    | some slot =>
      rw [hslot] at h
      dsimp only at h ⊢
      rw [if_neg]
      rintro ⟨hg, hs⟩
      rw [if_pos ⟨hg, by rw [hs]; decide⟩] at h
      cases h

theorem post_of_nonempty {s : OpSlab D} {i : UInt32} {rest : List UInt32} {slot : OpSlot D}
    (hfree : s.freelist = i :: rest) (hslot : s.slot i = some slot) (addr : Nat) (kind : OpKind) :
    s.post addr kind = some (⟨i, slot.generation⟩,
      { s with freelist := rest, inFlight := s.inFlight + 1 }.setSlot i
        { slot with state := .posted, kind }) := by
  rw [post, if_neg (by rw [hfree]; simp), hfree]
  dsimp only
  rw [hslot]

theorem grow_freelist (s : OpSlab D) (addr : Nat) : (s.grow addr).freelist =
    Recycling.Tracks.added s.capacity chunkSize ++ s.freelist := by
  have hadded : (List.range chunkSize).map (fun i => UInt32.ofNat s.capacity + UInt32.ofNat i) =
      Recycling.Tracks.added s.capacity chunkSize := by
    apply List.map_congr_left
    intro k _
    exact (UInt32.ofNat_add _ _).symm
  rw [← hadded]
  rfl

theorem post_of_empty {s : OpSlab D} (h : s.freelist = []) (addr : Nat) (kind : OpKind) :
    s.post addr kind = (s.grow addr).post addr kind := by
  have hne : (s.grow addr).freelist ≠ [] := by
    rw [grow_freelist]
    simp [Recycling.Tracks.added, chunkSize]
  rw [post, if_pos h, post, if_neg hne]

theorem grow_tracks {s : OpSlab D} {life : OpId → Life OpState} {issued recycled : List OpId}
    (h : Tracks s.view life issued recycled) (hfit : s.capacity + chunkSize ≤ 2 ^ 32)
    (addr : Nat) : Tracks (s.grow addr).view life issued recycled := by
  have hlen : s.view.cells.length = s.capacity := List.length_map _
  have hview : (s.grow addr).view =
      ⟨s.view.cells ++ List.replicate chunkSize ⟨0, none⟩, (s.grow addr).freelist⟩ := by
    rw [view, grow, view, List.map_append, List.map_replicate]
    rfl
  rw [hview]
  apply h.grow (by rw [hlen]; exact hfit)
  rw [grow_freelist, hlen]
  exact List.Perm.refl _

end OpSlab

end Cadeloop.Core.Ops
