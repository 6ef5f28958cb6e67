import Cadeloop.Reasoning.Recycling

/-!
# Buffer slabs (`crates/core/src/buffers.rs`)

Three size classes of refcounted slots, carved out of 2 MiB regions and handed out under ids that
embed the slot's generation.  `acquire` takes the region the OS would give it, `release` whether
paging a slot out succeeds; the platform constant `PAGES_OUT` is a parameter.
-/

namespace Cadeloop.Core.Buffers

open Cadeloop.Reasoning

/-! ## 1. Size classes, regions, ids -/

-- `REGION_SIZE`
def regionSize : Nat := 2 * 1024 * 1024

-- `RESIDENT_FREE_SLOTS`
def residentFreeSlots : Nat := 256

inductive SizeClass where
  | s4k
  | s16k
  | s64k
  deriving DecidableEq

namespace SizeClass

def size : SizeClass → Nat
  | .s4k => 4 * 1024
  | .s16k => 16 * 1024
  | .s64k => 64 * 1024

def slotsPerRegion (c : SizeClass) : Nat := regionSize / c.size

theorem slotsPerRegion_mul_size (c : SizeClass) : c.slotsPerRegion * c.size = regionSize := by
  cases c <;> rfl

theorem slotsPerRegion_pos (c : SizeClass) : 0 < c.slotsPerRegion := by
  cases c <;> decide

end SizeClass

structure SlotId where
  sizeClass : SizeClass
  index : UInt32
  generation : UInt32
  deriving DecidableEq

/-- The id within its class. -/
def SlotId.id (id : SlotId) : Recycling.Id := ⟨id.index, id.generation⟩

structure Region where
  ptr : Nat
  -- filled in once RIO has registered the region
  rioBufferId : Option Nat
  largePages : Bool
  -- its slots count against the OS before they are first used
  freshHeld : Bool

def Region.pageable (r : Region) : Bool := r.rioBufferId.isNone && !r.largePages

/-! ## 2. One class -/

structure ClassPool where
  sizeClass : SizeClass
  regions : List Region
  -- front to back: paged-out slots wait at the front, resident ones are handed out from the back
  freelist : List UInt32
  -- refcount per slot, 0 is free
  refcounts : List UInt32
  generations : List UInt32
  pagedOut : List Bool
  residentFree : Nat
  staleRejections : Nat
  inUse : Nat

namespace ClassPool

def new (sizeClass : SizeClass) : ClassPool :=
  { sizeClass, regions := [], freelist := [], refcounts := [], generations := [], pagedOut := [],
    residentFree := 0, staleRejections := 0, inUse := 0 }

def addRegion (p : ClassPool) (region : Region) : ClassPool :=
  let base := UInt32.ofNat (p.regions.length * p.sizeClass.slotsPerRegion)
  let n := p.sizeClass.slotsPerRegion
  { p with
    regions := p.regions ++ [region]
    refcounts := p.refcounts ++ List.replicate n 0
    generations := p.generations ++ List.replicate n 0
    pagedOut := p.pagedOut ++ List.replicate n (!region.freshHeld)
    residentFree := if region.freshHeld then p.residentFree + n else p.residentFree
    -- in reverse, so low indices are handed out first
    freelist := p.freelist ++ (List.range n).reverse.map fun i => base + UInt32.ofNat i }

/-- Is this id both in range and current? -/
def live (p : ClassPool) (id : SlotId) : Bool :=
  match p.refcounts[id.index.toNat]? with
  | some rc => decide (rc > 0) && decide (p.generations[id.index.toNat]? = some id.generation)
  | none => false

-- the indexing of `regions` would panic past the end
def pageable (p : ClassPool) (index : UInt32) : Bool :=
  match p.regions[index.toNat / p.sizeClass.slotsPerRegion]? with
  | some region => region.pageable
  | none => false

/-- The first byte of a slot; `none` where the indexing of `regions` would panic. -/
def slotPtr (p : ClassPool) (index : UInt32) : Option Nat :=
  match p.regions[index.toNat / p.sizeClass.slotsPerRegion]? with
  | some region =>
    some (region.ptr + index.toNat % p.sizeClass.slotsPerRegion * p.sizeClass.size)
  | none => none

/-- The class's part of `acquire`; `none` where an `expect` or an index would panic.  `page_in`
changes no state of the pool. -/
def acquire (p : ClassPool) (region : Region) : Option (SlotId × ClassPool) :=
  let p := if p.freelist = [] then p.addRegion region else p
  match p.freelist.getLast? with
  | none => none
  | some index =>
    match p.pagedOut[index.toNat]?, p.refcounts[index.toNat]?, p.generations[index.toNat]? with
    | some paged, some _, some generation =>
      some (⟨p.sizeClass, index, generation⟩,
        { p with
          freelist := p.freelist.dropLast
          pagedOut := p.pagedOut.set index.toNat false
          residentFree := if paged then p.residentFree else p.residentFree - 1
          refcounts := p.refcounts.set index.toNat 1
          inUse := p.inUse + 1 })
    | _, _, _ => none

/-- The class's part of `retain`; the addition wraps. -/
def retain (p : ClassPool) (id : SlotId) : ClassPool :=
  if p.live id then
    { p with refcounts := p.refcounts.set id.index.toNat (p.refcounts.getD id.index.toNat 0 + 1) }
  else { p with staleRejections := p.staleRejections + 1 }

/-- The class's part of `release`: true when the slot was actually freed.  `pageOut` is what
`page_out` would answer. -/
def release (pagesOut pageOut : Bool) (p : ClassPool) (id : SlotId) : Bool × ClassPool :=
  if p.live id then
    let rc := p.refcounts.getD id.index.toNat 0 - 1
    let p := { p with refcounts := p.refcounts.set id.index.toNat rc }
    if rc ≠ 0 then (false, p)
    else
      -- recycled: every id handed out for this slot is now stale
      let p :=
        { p with
          generations := p.generations.set id.index.toNat
            (p.generations.getD id.index.toNat 0 + 1)
          inUse := p.inUse - 1 }
      if pagesOut && decide (p.residentFree ≥ residentFreeSlots) && p.pageable id.index && pageOut then
        (true, { p with
          pagedOut := p.pagedOut.set id.index.toNat true
          freelist := id.index :: p.freelist })
      else
        (true, { p with
          residentFree := p.residentFree + 1
          freelist := p.freelist ++ [id.index] })
  else (false, { p with staleRejections := p.staleRejections + 1 })

def refcount (p : ClassPool) (id : SlotId) : UInt32 :=
  if p.live id then p.refcounts.getD id.index.toNat 0 else 0

-- the subtraction saturates
def bytesHeld (p : ClassPool) : Nat :=
  p.regions.length * regionSize - (p.freelist.length - p.residentFree) * p.sizeClass.size

end ClassPool

/-! ## 3. The pool -/

structure BufferPool where
  classes : SizeClass → ClassPool
  regionsDirty : Bool

namespace BufferPool

def new : BufferPool := { classes := ClassPool.new, regionsDirty := false }

/-- Acquire a slot with refcount 1. -/
def acquire (p : BufferPool) (c : SizeClass) (region : Region) : Option (SlotId × BufferPool) :=
  let regionsDirty := if (p.classes c).freelist = [] then true else p.regionsDirty
  match (p.classes c).acquire region with
  | none => none
  | some (id, pool) => some (id, { classes := Function.update p.classes c pool, regionsDirty })

def retain (p : BufferPool) (id : SlotId) : BufferPool :=
  { p with classes := Function.update p.classes id.sizeClass ((p.classes id.sizeClass).retain id) }

def release (pagesOut pageOut : Bool) (p : BufferPool) (id : SlotId) : Bool × BufferPool :=
  let r := (p.classes id.sizeClass).release pagesOut pageOut id
  (r.1, { p with classes := Function.update p.classes id.sizeClass r.2 })

def refcount (p : BufferPool) (id : SlotId) : UInt32 := (p.classes id.sizeClass).refcount id

def slotPtr (p : BufferPool) (id : SlotId) : Option Nat :=
  (p.classes id.sizeClass).slotPtr id.index

def inUse (p : BufferPool) : Nat :=
  (p.classes .s4k).inUse + (p.classes .s16k).inUse + (p.classes .s64k).inUse

/-- Bytes the pool keeps from the OS: its regions, less the free slots that hold nothing. -/
def bytesHeld (p : BufferPool) : Nat := (p.classes .s4k).bytesHeld + (p.classes .s16k).bytesHeld +
  (p.classes .s64k).bytesHeld

end BufferPool

/-! ## 4. A class as a table of recycled slots -/

open Recycling (Cell Slots Life Tracks)

-- what the parallel arrays say of one slot
def cell (rc generation : UInt32) : Cell Nat :=
  ⟨generation, if rc = 0 then none else some rc.toNat⟩

namespace ClassPool

def view (p : ClassPool) : Slots Nat :=
  ⟨List.zipWith cell p.refcounts p.generations, p.freelist⟩

/-- The parallel arrays are as long as the regions are wide. -/
structure Shaped (p : ClassPool) : Prop where
  refcounts : p.refcounts.length = p.regions.length * p.sizeClass.slotsPerRegion
  generations : p.generations.length = p.regions.length * p.sizeClass.slotsPerRegion
  pagedOut : p.pagedOut.length = p.regions.length * p.sizeClass.slotsPerRegion

theorem view_cell {p : ClassPool} {i : UInt32} {c : Cell Nat} :
    p.view.cells[i.toNat]? = some c ↔ ∃ rc generation, p.refcounts[i.toNat]? = some rc ∧
      p.generations[i.toNat]? = some generation ∧ c = cell rc generation := by
  rw [view, List.getElem?_zipWith]
  cases p.refcounts[i.toNat]? <;> cases p.generations[i.toNat]? <;> simp [eq_comm]

theorem zipWith_set (rcs gens : List UInt32) (i : Nat) (rc generation : UInt32) :
    List.zipWith cell (rcs.set i rc) (gens.set i generation) =
      (List.zipWith cell rcs gens).set i (cell rc generation) := by
  apply List.ext_getElem?
  intro j
  rw [List.getElem?_zipWith, List.getElem?_set, List.getElem?_set, List.getElem?_set,
    List.getElem?_zipWith, List.length_zipWith]
  by_cases hij : i = j
  · rw [if_pos hij, if_pos hij, if_pos hij]
    by_cases h₁ : i < rcs.length <;> by_cases h₂ : i < gens.length <;> simp [h₁, h₂]
  · rw [if_neg hij, if_neg hij, if_neg hij]

/-- Both arrays of one slot written: one cell of the table changes. -/
theorem view_set (p : ClassPool) (i : UInt32) (rc generation : UInt32) :
    List.zipWith cell (p.refcounts.set i.toNat rc) (p.generations.set i.toNat generation) =
      p.view.cells.set i.toNat (cell rc generation) :=
  zipWith_set _ _ _ _ _

theorem view_set_refcount {p : ClassPool} {i : UInt32} {generation : UInt32}
    (hg : p.generations[i.toNat]? = some generation) (rc : UInt32) :
    List.zipWith cell (p.refcounts.set i.toNat rc) p.generations =
      p.view.cells.set i.toNat (cell rc generation) := by
  obtain ⟨hlt, hval⟩ := List.getElem?_eq_some_iff.mp hg
  have hself : p.generations.set i.toNat generation = p.generations := by
    rw [← hval, List.set_getElem_self]
  have hset := p.view_set i rc generation
  rwa [hself] at hset

/-- What `live` says in terms of the table. -/
theorem live_iff {p : ClassPool} {id : SlotId} :
    p.live id = true ↔ ∃ rc, p.refcounts[id.index.toNat]? = some rc ∧ rc ≠ 0 ∧
      p.generations[id.index.toNat]? = some id.generation := by
  unfold live
  cases p.refcounts[id.index.toNat]? with
  | none => simp
  | some rc =>
    have hpos : rc > 0 ↔ rc ≠ 0 := by
      rw [gt_iff_lt, UInt32.lt_iff_toNat_lt, ne_eq, ← UInt32.toNat_inj]
      exact Nat.pos_iff_ne_zero
    simp [hpos]

theorem refcount_of {p : ClassPool} {id : SlotId} {rc : UInt32} (hl : p.live id = true)
    (hrc : p.refcounts[id.index.toNat]? = some rc) : p.refcount id = rc := by
  rw [refcount, if_pos hl, List.getD_eq_getElem?_getD, hrc]
  rfl

section Tracked

variable {p : ClassPool} {life : Recycling.Id → Life Nat} {issued recycled : List Recycling.Id}

/-- An id is live in the book with the count that the pool gives it. -/
theorem life_iff (h : Tracks p.view life issued recycled) {id : SlotId} {n : Nat} :
    life id.id = .live n ↔ p.live id = true ∧ (p.refcount id).toNat = n := by
  rw [h.live_iff]
  constructor
  · intro hc
    obtain ⟨rc, generation, hrc, hg, hcell⟩ := view_cell.mp hc
    rw [cell] at hcell
    injection hcell with hgen hheld
    by_cases hz : rc = 0
    · rw [if_pos hz] at hheld
      cases hheld
    · rw [if_neg hz] at hheld
      injection hheld with hheld
      have hgen : id.generation = generation := hgen
      have hl : p.live id = true := live_iff.mpr ⟨rc, hrc, hz, by rw [hgen]; exact hg⟩
      exact ⟨hl, by rw [refcount_of hl hrc, hheld]⟩
  · rintro ⟨hl, hn⟩
    obtain ⟨rc, hrc, hz, hg⟩ := live_iff.mp hl
    rw [refcount_of hl hrc] at hn
    refine view_cell.mpr ⟨rc, id.generation, hrc, hg, ?_⟩
    rw [cell, if_neg hz, hn]
    rfl

end Tracked

theorem refcount_of_dead {p : ClassPool} {id : SlotId} (h : p.live id = false) :
    p.refcount id = 0 := by
  rw [refcount, h]
  rfl

/-- The refcount of an id whose generation the slot has. -/
theorem refcount_of_cell {p : ClassPool} {id : SlotId} {n : Nat}
    (hc : p.view.cells[id.index.toNat]? = some ⟨id.generation, some n⟩) :
    (p.refcount id).toNat = n := by
  obtain ⟨rc, generation, hrc, hg, hcell⟩ := view_cell.mp hc
  rw [cell] at hcell
  injection hcell with hgen hheld
  by_cases hz : rc = 0
  · rw [if_pos hz] at hheld
    cases hheld
  · rw [if_neg hz] at hheld
    injection hheld with hheld
    rw [refcount_of (live_iff.mpr ⟨rc, hrc, hz, by rw [hgen]; exact hg⟩) hrc, hheld]

theorem refcount_of_free {p : ClassPool} {id : SlotId} {generation : UInt32}
    (hc : p.view.cells[id.index.toNat]? = some ⟨generation, none⟩) : p.refcount id = 0 := by
  apply refcount_of_dead
  rw [← Bool.not_eq_true, live_iff]
  rintro ⟨rc, hrc, hz, hg⟩
  obtain ⟨rc', generation', hrc', -, hcell⟩ := view_cell.mp hc
  rw [hrc] at hrc'
  injection hrc' with hrc'
  rw [cell, ← hrc', if_neg hz] at hcell
  injection hcell with _ hheld
  cases hheld

/-- A slot in a region: its first byte, and where it ends. -/
theorem slotPtr_of_lt {p : ClassPool} {i : UInt32}
    (hlt : i.toNat < p.regions.length * p.sizeClass.slotsPerRegion) :
    ∃ region, p.regions[i.toNat / p.sizeClass.slotsPerRegion]? = some region ∧
      p.slotPtr i = some (region.ptr + i.toNat % p.sizeClass.slotsPerRegion * p.sizeClass.size) := by
  have hk : i.toNat / p.sizeClass.slotsPerRegion < p.regions.length :=
    Nat.div_lt_of_lt_mul (by rwa [Nat.mul_comm])
  refine ⟨_, List.getElem?_eq_getElem hk, ?_⟩
  rw [slotPtr, List.getElem?_eq_getElem hk]

/-- The slots of a region end within it. -/
theorem offset_le (c : SizeClass) (n : Nat) :
    n % c.slotsPerRegion * c.size + c.size ≤ regionSize := by
  have hlt := Nat.mod_lt n c.slotsPerRegion_pos
  rw [← c.slotsPerRegion_mul_size, ← Nat.succ_mul]
  exact Nat.mul_le_mul_right c.size hlt

/-! ## 5. What the operations do -/

theorem addRegion_view (p : ClassPool) (region : Region) (hs : p.Shaped) :
    (p.addRegion region).view = ⟨p.view.cells ++ List.replicate p.sizeClass.slotsPerRegion ⟨0, none⟩,
      (p.addRegion region).freelist⟩ := by
  have hlen : p.refcounts.length = p.generations.length := by rw [hs.refcounts, hs.generations]
  rw [view, addRegion, view]
  dsimp only
  rw [List.zipWith_append hlen, List.zipWith_replicate]
  simp [cell]

/-- While indices fit, so do those of one more region: regions divide the index space. -/
theorem room_of_lt {c : SizeClass} {k : Nat} (h : k * c.slotsPerRegion < 2 ^ 32) :
    k * c.slotsPerRegion + c.slotsPerRegion ≤ 2 ^ 32 := by
  have hper : c.slotsPerRegion ∈ [512, 128, 32] := by cases c <;> decide
  generalize c.slotsPerRegion = per at h hper ⊢
  simp only [List.mem_cons, List.not_mem_nil, or_false] at hper
  rcases hper with rfl | rfl | rfl <;> omega

theorem addRegion_freelist (p : ClassPool) (region : Region) : (p.addRegion region).freelist =
    p.freelist ++ (Recycling.Tracks.added (p.regions.length * p.sizeClass.slotsPerRegion)
      p.sizeClass.slotsPerRegion).reverse := by
  have hadded : ∀ i, UInt32.ofNat (p.regions.length * p.sizeClass.slotsPerRegion) + UInt32.ofNat i =
      UInt32.ofNat (p.regions.length * p.sizeClass.slotsPerRegion + i) :=
    fun i => (UInt32.ofNat_add _ _).symm
  simp only [addRegion, Recycling.Tracks.added, hadded, List.map_reverse]

theorem addRegion_shaped {p : ClassPool} (hs : p.Shaped) (region : Region) :
    (p.addRegion region).Shaped := by
  have hone : (p.regions ++ [region]).length * p.sizeClass.slotsPerRegion =
      p.regions.length * p.sizeClass.slotsPerRegion + p.sizeClass.slotsPerRegion := by
    rw [List.length_append, List.length_singleton, Nat.add_mul, Nat.one_mul]
  have hpad : ∀ {α : Type} (l : List α) (x : α),
      l.length = p.regions.length * p.sizeClass.slotsPerRegion →
      (l ++ List.replicate p.sizeClass.slotsPerRegion x).length =
        (p.regions ++ [region]).length * p.sizeClass.slotsPerRegion := by
    intro α l x hl
    rw [List.length_append, List.length_replicate, hl, hone]
  exact ⟨hpad _ _ hs.refcounts, hpad _ _ hs.generations, hpad _ _ hs.pagedOut⟩

theorem addRegion_tracks {p : ClassPool} {life : Recycling.Id → Life Nat}
    {issued recycled : List Recycling.Id} (h : Tracks p.view life issued recycled) (hs : p.Shaped)
    (hfit : p.view.cells.length + p.sizeClass.slotsPerRegion ≤ 2 ^ 32) (region : Region) :
    Tracks (p.addRegion region).view life issued recycled := by
  have hlen : p.view.cells.length = p.regions.length * p.sizeClass.slotsPerRegion := by
    rw [view, List.length_zipWith, hs.refcounts, hs.generations, Nat.min_self]
  rw [p.addRegion_view region hs]
  apply h.grow hfit
  rw [addRegion_freelist, hlen]
  exact List.perm_append_comm.trans ((List.reverse_perm _).append_right _)

/-- `acquire` on a class with a free slot. -/
theorem acquire_nonempty {p : ClassPool} (hs : p.Shaped) {front : List UInt32} {i : UInt32}
    (hfree : p.freelist = front ++ [i]) {c : Cell Nat} (hc : p.view.cells[i.toNat]? = some c)
    (region : Region) :
    ∃ id pool, p.acquire region = some (id, pool) ∧ id.sizeClass = p.sizeClass ∧
      id.id = ⟨i, c.generation⟩ ∧
      pool.view = ⟨p.view.cells.set i.toNat ⟨c.generation, some 1⟩, front⟩ ∧
      pool.Shaped ∧ pool.regions = p.regions ∧ pool.inUse = p.inUse + 1 ∧
      pool.sizeClass = p.sizeClass := by
  obtain ⟨rc, generation, hrc, hg, rfl⟩ := view_cell.mp hc
  have hlt : i.toNat < p.pagedOut.length := by
    have := (List.getElem?_eq_some_iff.mp hrc).1
    rw [hs.refcounts, ← hs.pagedOut] at this
    exact this
  have hpaged := List.getElem?_eq_getElem hlt
  have hne : p.freelist ≠ [] := by rw [hfree]; simp
  have hlast : p.freelist.getLast? = some i := by rw [hfree, List.getLast?_concat]
  have hfront : p.freelist.dropLast = front := by rw [hfree, List.dropLast_concat]
  have hacquire : p.acquire region = some (⟨p.sizeClass, i, generation⟩,
      { p with
        freelist := front
        pagedOut := p.pagedOut.set i.toNat false
        residentFree := if p.pagedOut[i.toNat] then p.residentFree else p.residentFree - 1
        refcounts := p.refcounts.set i.toNat 1
        inUse := p.inUse + 1 }) := by
    rw [acquire, if_neg hne, hlast]
    dsimp only
    rw [hpaged, hrc, hg, hfront]
  refine ⟨_, _, hacquire, rfl, rfl, ?_, ?_, rfl, rfl, rfl⟩
  · rw [view]
    dsimp only
    rw [view_set_refcount hg]
    rfl
  · exact ⟨by dsimp only; rw [List.length_set, hs.refcounts], hs.generations,
      by dsimp only; rw [List.length_set, hs.pagedOut]⟩

theorem acquire_empty {p : ClassPool} (hfree : p.freelist = []) (region : Region) :
    p.acquire region = (p.addRegion region).acquire region := by
  have hne : (p.addRegion region).freelist ≠ [] := by
    rw [addRegion_freelist, hfree]
    cases hc : p.sizeClass <;>
      simp [Recycling.Tracks.added, SizeClass.slotsPerRegion, SizeClass.size, regionSize]
  rw [acquire, if_pos hfree, acquire, if_neg hne]

/-- `retain` of a live id, short of the counter's end. -/
theorem retain_live {p : ClassPool} {id : SlotId} (hl : p.live id = true) {n : Nat}
    (hn : (p.refcount id).toNat = n) (hroom : n + 1 < 2 ^ 32) :
    (p.retain id).view = ⟨p.view.cells.set id.index.toNat ⟨id.generation, some (n + 1)⟩,
      p.freelist⟩ := by
  obtain ⟨rc, hrc, hz, hg⟩ := live_iff.mp hl
  rw [refcount_of hl hrc] at hn
  have hget : p.refcounts.getD id.index.toNat 0 = rc := by
    rw [List.getD_eq_getElem?_getD, hrc]
    rfl
  have hnext : (rc + 1).toNat = n + 1 := by
    rw [UInt32.toNat_add, hn]
    exact Nat.mod_eq_of_lt hroom
  have hcell : cell (rc + 1) id.generation = ⟨id.generation, some (n + 1)⟩ := by
    have hne : rc + 1 ≠ 0 := by
      intro heq
      rw [heq] at hnext
      cases hnext
    rw [cell, if_neg hne, hnext]
  rw [retain, if_pos hl, view, hget]
  dsimp only
  rw [view_set_refcount hg, hcell]

theorem pred_toNat {rc : UInt32} {n : Nat} (hn : rc.toNat = n + 1) : (rc - 1).toNat = n := by
  have hle : (1 : UInt32) ≤ rc := by
    rw [UInt32.le_iff_toNat_le, hn]
    exact Nat.le_add_left 1 n
  rw [UInt32.toNat_sub_of_le _ _ hle, hn]
  rfl

/-- `release` of an id with other references. -/
theorem release_more {p : ClassPool} {id : SlotId} (hl : p.live id = true) {n : Nat}
    (hn : (p.refcount id).toNat = n + 1) (hpos : 0 < n) (pagesOut pageOut : Bool) :
    ∃ pool, p.release pagesOut pageOut id = (false, pool) ∧
      pool.view = ⟨p.view.cells.set id.index.toNat ⟨id.generation, some n⟩, p.freelist⟩ ∧
      (p.Shaped → pool.Shaped) ∧ pool.regions = p.regions ∧ pool.inUse = p.inUse ∧
      pool.sizeClass = p.sizeClass := by
  obtain ⟨rc, hrc, hz, hg⟩ := live_iff.mp hl
  rw [refcount_of hl hrc] at hn
  have hget : p.refcounts.getD id.index.toNat 0 = rc := by
    rw [List.getD_eq_getElem?_getD, hrc]
    rfl
  have hpred := pred_toNat hn
  have hne : rc - 1 ≠ 0 := by
    intro heq
    rw [heq] at hpred
    have hzero : (0 : UInt32).toNat = 0 := rfl
    omega
  have hcell : cell (rc - 1) id.generation = ⟨id.generation, some n⟩ := by
    rw [cell, if_neg hne, hpred]
  refine ⟨{ p with refcounts := p.refcounts.set id.index.toNat (rc - 1) }, ?_, ?_, fun hs => ?_,
    rfl, rfl, rfl⟩
  · rw [release, if_pos hl, hget]
    exact if_pos hne
  · rw [view]
    dsimp only
    rw [view_set_refcount hg, hcell]
  · exact ⟨by dsimp only; rw [List.length_set, hs.refcounts], hs.generations, hs.pagedOut⟩

/-- `release` of the last reference: the slot is recycled, to either end of the freelist. -/
theorem release_last {p : ClassPool} {id : SlotId} (hl : p.live id = true)
    (hn : (p.refcount id).toNat = 1) (pagesOut pageOut : Bool) :
    ∃ pool, p.release pagesOut pageOut id = (true, pool) ∧
      (∃ free, pool.view = ⟨p.view.cells.set id.index.toNat ⟨id.generation + 1, none⟩, free⟩ ∧
        free.Perm (id.index :: p.freelist)) ∧
      (p.Shaped → pool.Shaped) ∧ pool.regions = p.regions ∧ pool.inUse = p.inUse - 1 ∧
      pool.sizeClass = p.sizeClass := by
  obtain ⟨rc, hrc, hz, hg⟩ := live_iff.mp hl
  rw [refcount_of hl hrc] at hn
  have hget : p.refcounts.getD id.index.toNat 0 = rc := by
    rw [List.getD_eq_getElem?_getD, hrc]
    rfl
  have hgen : p.generations.getD id.index.toNat 0 = id.generation := by
    rw [List.getD_eq_getElem?_getD, hg]
    rfl
  have hzero : rc - 1 = 0 := UInt32.toNat_inj.mp (pred_toNat (n := 0) hn)
  have hcells : List.zipWith cell (p.refcounts.set id.index.toNat 0)
      (p.generations.set id.index.toNat (id.generation + 1)) =
      p.view.cells.set id.index.toNat ⟨id.generation + 1, none⟩ := by
    rw [view_set]
    rfl
  rw [release, if_pos hl]
  dsimp only
  rw [hget, hgen, hzero, if_neg (by simp)]
  split
  · refine ⟨_, rfl, ⟨id.index :: p.freelist, ?_, List.Perm.refl _⟩, fun hs => ?_, rfl, rfl, rfl⟩
    · rw [view]
      dsimp only
      rw [hcells]
    · exact ⟨by dsimp only; rw [List.length_set, hs.refcounts],
        by dsimp only; rw [List.length_set, hs.generations],
        by dsimp only; rw [List.length_set, hs.pagedOut]⟩
  · refine ⟨_, rfl, ⟨p.freelist ++ [id.index], ?_, List.perm_append_singleton _ _⟩, fun hs => ?_,
      rfl, rfl, rfl⟩
    · rw [view]
      dsimp only
      rw [hcells]
    · exact ⟨by dsimp only; rw [List.length_set, hs.refcounts],
        by dsimp only; rw [List.length_set, hs.generations], hs.pagedOut⟩

theorem stale {p : ClassPool} {id : SlotId} (h : p.live id = false) (pagesOut pageOut : Bool) :
    p.retain id = { p with staleRejections := p.staleRejections + 1 } ∧
      p.release pagesOut pageOut id =
        (false, { p with staleRejections := p.staleRejections + 1 }) := by
  have hne : ¬ p.live id = true := by rw [h]; decide
  exact ⟨if_neg hne, if_neg hne⟩

end ClassPool

end Cadeloop.Core.Buffers
