import Cadeloop.Core.Buffers
import Cadeloop.Reasoning.Machine

/-!
# Runs of the buffer pool

A book counts, for every id, the `retain` and `release` calls made while it had references; the
pool, which sees stale and made-up ids as well, has the refcount the book computes.
-/

namespace Cadeloop.Core.Buffers

open Cadeloop.Reasoning
open Recycling (Id Life Tracks recyclings)

/-! ## 1. The book of a class -/

structure Book where
  issued : List Id
  recycled : List Id
  retains : Id → Nat
  releases : Id → Nat

namespace Book

def new : Book := { issued := [], recycled := [], retains := fun _ => 0, releases := fun _ => 0 }

/-- References an id has: one from `acquire`, plus its retains, less its releases. -/
def count (b : Book) (id : Id) : Nat :=
  if id ∈ b.issued then 1 + b.retains id - b.releases id else 0

def acquire (b : Book) (id : Id) : Book := { b with issued := b.issued ++ [id] }

-- once the count is zero, calls with the id count no more
def retain (b : Book) (id : Id) : Book :=
  if 0 < b.count id then { b with retains := Function.update b.retains id (b.retains id + 1) } else b

def release (b : Book) (id : Id) : Book :=
  if 0 < b.count id then
    { b with
      releases := Function.update b.releases id (b.releases id + 1)
      recycled := if b.count id = 1 then b.recycled ++ [id] else b.recycled }
  else b

def life (b : Book) (id : Id) : Life Nat :=
  if id ∈ b.issued then if b.count id = 0 then .ended else .live (b.count id) else .never

theorem count_of_not_issued {b : Book} {id : Id} (h : id ∉ b.issued) : b.count id = 0 :=
  if_neg h

theorem issued_of_count {b : Book} {id : Id} (h : 0 < b.count id) : id ∈ b.issued := by
  by_contra hn
  rw [count_of_not_issued hn] at h
  omega

theorem life_live {b : Book} {id : Id} (h : 0 < b.count id) : b.life id = .live (b.count id) := by
  rw [life, if_pos (issued_of_count h), if_neg (by omega)]

theorem life_live_iff {b : Book} {id : Id} {n : Nat} :
    b.life id = .live n ↔ 0 < n ∧ b.count id = n := by
  constructor
  · intro h
    unfold life at h
    split at h
    · split at h
      · cases h
      · injection h with h
        omega
    · cases h
  · rintro ⟨hn, hcount⟩
    rw [life_live (by omega), hcount]

theorem count_congr {b b' : Book} {id : Id} (hissued : id ∈ b'.issued ↔ id ∈ b.issued)
    (hret : b'.retains id = b.retains id) (hrel : b'.releases id = b.releases id) :
    b'.count id = b.count id := by
  by_cases hi : id ∈ b.issued
  · rw [count, count, if_pos hi, if_pos (hissued.mpr hi), hret, hrel]
  · rw [count, count, if_neg hi, if_neg fun h => hi (hissued.mp h)]

theorem life_congr {b b' : Book} {id : Id} (hissued : id ∈ b'.issued ↔ id ∈ b.issued)
    (hret : b'.retains id = b.retains id) (hrel : b'.releases id = b.releases id) :
    b'.life id = b.life id := by
  have hcount := count_congr hissued hret hrel
  by_cases hi : id ∈ b.issued
  · rw [life, life, if_pos hi, if_pos (hissued.mpr hi), hcount]
  · rw [life, life, if_neg hi, if_neg fun h => hi (hissued.mp h)]

/-- Every release was of a reference there was, and ids not issued yet have no calls. -/
structure Balanced (b : Book) : Prop where
  releases : ∀ id, b.releases id ≤ 1 + b.retains id
  quiet : ∀ id, id ∉ b.issued → b.retains id = 0 ∧ b.releases id = 0

theorem balanced_new : Balanced new := ⟨fun _ => Nat.zero_le _, fun _ _ => ⟨rfl, rfl⟩⟩

variable {b : Book}

theorem acquire_life (hb : b.Balanced) {id : Id} (hn : b.life id = .never) :
    (b.acquire id).life = Function.update b.life id (.live 1) := by
  have hni : id ∉ b.issued := by
    intro hi
    rw [life, if_pos hi] at hn
    split at hn <;> cases hn
  obtain ⟨hret, hrel⟩ := hb.quiet id hni
  funext id'
  by_cases hid : id' = id
  · rw [hid, Function.update_self, life_live_iff]
    refine ⟨Nat.one_pos, ?_⟩
    rw [count, if_pos (by simp [acquire])]
    show 1 + b.retains id - b.releases id = 1
    omega
  · rw [Function.update_of_ne hid]
    have hmem : id' ∈ (b.acquire id).issued ↔ id' ∈ b.issued := by simp [acquire, hid]
    exact life_congr hmem rfl rfl

theorem acquire_balanced (hb : b.Balanced) (id : Id) : (b.acquire id).Balanced :=
  ⟨hb.releases, fun id' hid => hb.quiet id' fun h => hid (List.mem_append_left _ h)⟩

-- a call on one id moves that id's count only
theorem life_of_update {b' : Book} (hissued : b'.issued = b.issued) {id : Id}
    (hother : ∀ id', id' ≠ id → b'.retains id' = b.retains id' ∧ b'.releases id' = b.releases id')
    {l : Life Nat} (hself : b'.life id = l) : b'.life = Function.update b.life id l := by
  funext id'
  by_cases hid : id' = id
  · rw [hid, Function.update_self, hself]
  · rw [Function.update_of_ne hid]
    obtain ⟨hret, hrel⟩ := hother id' hid
    exact life_congr (by rw [hissued]) hret hrel

theorem retain_eq {id : Id} (h : 0 < b.count id) :
    b.retain id = { b with retains := Function.update b.retains id (b.retains id + 1) } :=
  if_pos h

theorem retain_count (hb : b.Balanced) {id : Id} (h : 0 < b.count id) :
    (b.retain id).count id = b.count id + 1 := by
  have hi := issued_of_count h
  have hrel := hb.releases id
  rw [retain_eq h, count, count, if_pos hi, if_pos hi]
  dsimp only
  rw [Function.update_self]
  omega

theorem retain_life (hb : b.Balanced) {id : Id} (h : 0 < b.count id) :
    (b.retain id).life = Function.update b.life id (.live (b.count id + 1)) := by
  refine life_of_update (by rw [retain_eq h]) (fun id' hid => ?_)
    (life_live_iff.mpr ⟨Nat.succ_pos _, retain_count hb h⟩)
  rw [retain_eq h]
  exact ⟨Function.update_of_ne hid _ _, rfl⟩

theorem retain_balanced (hb : b.Balanced) (id : Id) : (b.retain id).Balanced := by
  by_cases h : 0 < b.count id
  · rw [retain_eq h]
    refine ⟨fun id' => ?_, fun id' hid' => ?_⟩
    · have hrel := hb.releases id'
      dsimp only
      by_cases hid : id' = id
      · subst hid
        rw [Function.update_self]
        omega
      · rw [Function.update_of_ne hid]
        exact hrel
    · dsimp only
      have hne : id' ≠ id := by
        rintro rfl
        exact hid' (issued_of_count (b := b) h)
      rw [Function.update_of_ne hne]
      exact hb.quiet id' hid'
  · rw [retain, if_neg h]
    exact hb

theorem release_eq {id : Id} (h : 0 < b.count id) :
    b.release id =
      { b with
        releases := Function.update b.releases id (b.releases id + 1)
        recycled := if b.count id = 1 then b.recycled ++ [id] else b.recycled } :=
  if_pos h

theorem release_count {id : Id} (h : 0 < b.count id) :
    (b.release id).count id = b.count id - 1 := by
  have hi := issued_of_count h
  rw [release_eq h, count, count, if_pos hi, if_pos hi]
  dsimp only
  rw [Function.update_self]
  omega

theorem release_life {id : Id} (h : 0 < b.count id) :
    (b.release id).life = Function.update b.life id
      (if b.count id = 1 then .ended else .live (b.count id - 1)) := by
  refine life_of_update (by rw [release_eq h]) (fun id' hid => ?_) ?_
  · rw [release_eq h]
    exact ⟨rfl, Function.update_of_ne hid _ _⟩
  · by_cases hone : b.count id = 1
    · have hi : id ∈ (b.release id).issued := by
        rw [release_eq h]
        exact issued_of_count (b := b) h
      rw [if_pos hone, life, if_pos hi, if_pos (by rw [release_count h, hone])]
    · rw [if_neg hone, life_live_iff]
      exact ⟨by omega, release_count h⟩

theorem release_balanced (hb : b.Balanced) (id : Id) : (b.release id).Balanced := by
  by_cases h : 0 < b.count id
  · rw [release_eq h]
    refine ⟨fun id' => ?_, fun id' hid' => ?_⟩
    · have hrel := hb.releases id'
      dsimp only
      by_cases hid : id' = id
      · subst hid
        rw [Function.update_self]
        rw [count, if_pos (issued_of_count h)] at h
        omega
      · rw [Function.update_of_ne hid]
        exact hrel
    · dsimp only
      have hne : id' ≠ id := by
        rintro rfl
        exact hid' (issued_of_count (b := b) h)
      rw [Function.update_of_ne hne]
      exact hb.quiet id' hid'
  · rw [release, if_neg h]
    exact hb

/-- An id whose references are gone. -/
def Spent (b : Book) (id : Id) : Prop := id ∈ b.issued ∧ b.count id = 0

-- no call moves the count of a spent id
theorem Spent.acquire {id : Id} (h : b.Spent id) (id' : Id) : (b.acquire id').Spent id := by
  have hmem : id ∈ (b.acquire id').issued := List.mem_append_left _ h.1
  exact ⟨hmem, (count_congr (iff_of_true hmem h.1) rfl rfl).trans h.2⟩

theorem Spent.retain {id : Id} (h : b.Spent id) (id' : Id) : (b.retain id').Spent id := by
  by_cases hpos : 0 < b.count id'
  · have hne : id ≠ id' := by
      rintro rfl
      exact absurd h.2 (Nat.ne_of_gt hpos)
    rw [retain_eq hpos]
    refine ⟨h.1, Eq.trans ?_ h.2⟩
    exact count_congr Iff.rfl (Function.update_of_ne hne _ _) rfl
  · rw [Book.retain, if_neg hpos]
    exact h

theorem Spent.release {id : Id} (h : b.Spent id) (id' : Id) : (b.release id').Spent id := by
  by_cases hpos : 0 < b.count id'
  · have hne : id ≠ id' := by
      rintro rfl
      exact absurd h.2 (Nat.ne_of_gt hpos)
    rw [release_eq hpos]
    refine ⟨h.1, Eq.trans ?_ h.2⟩
    exact count_congr Iff.rfl rfl (Function.update_of_ne hne _ _)
  · rw [Book.release, if_neg hpos]
    exact h

end Book

/-! ## 2. One class keeps its book -/

structure ClassGood (p : ClassPool) (b : Book) : Prop where
  tracks : Tracks p.view b.life b.issued b.recycled
  shaped : p.Shaped
  inUse : p.inUse = p.view.cells.countP fun c => c.held.isSome
  balanced : b.Balanced

namespace ClassGood

variable {p : ClassPool} {b : Book}

theorem new (c : SizeClass) : ClassGood (.new c) .new :=
  ⟨Tracks.empty, ⟨(Nat.zero_mul _).symm, (Nat.zero_mul _).symm, (Nat.zero_mul _).symm⟩, rfl,
    Book.balanced_new⟩

theorem live_iff (h : ClassGood p b) {id : SlotId} :
    p.live id = true ↔ 0 < b.count id.id := by
  constructor
  · intro hl
    have hlive := (ClassPool.life_iff h.tracks).mpr ⟨hl, rfl⟩
    obtain ⟨hpos, hcount⟩ := Book.life_live_iff.mp hlive
    omega
  · intro hpos
    exact ((ClassPool.life_iff h.tracks).mp (Book.life_live hpos)).1

/-- **The refcount is the book's.** -/
theorem refcount (h : ClassGood p b) (id : SlotId) : (p.refcount id).toNat = b.count id.id := by
  by_cases hpos : 0 < b.count id.id
  · exact ((ClassPool.life_iff h.tracks).mp (Book.life_live hpos)).2
  · have hdead : p.live id = false := by
      rw [← Bool.not_eq_true, h.live_iff]
      exact hpos
    rw [ClassPool.refcount_of_dead hdead]
    have hzero : (0 : UInt32).toNat = 0 := rfl
    omega

theorem acquire_nonempty (h : ClassGood p b) {front : List UInt32} {i : UInt32}
    (hfree : p.freelist = front ++ [i]) (region : Region) :
    ∃ id pool, p.acquire region = some (id, pool) ∧ id.sizeClass = p.sizeClass ∧
      ClassGood pool (b.acquire id.id) ∧ pool.regions = p.regions ∧
      pool.sizeClass = p.sizeClass := by
  have hperm : p.view.free.Perm (i :: front) := by
    rw [show p.view.free = front ++ [i] from hfree]
    exact List.perm_append_singleton i front
  obtain ⟨c, hc, hheld, hnever⟩ := h.tracks.free_cell (hperm.mem_iff.mpr List.mem_cons_self)
  obtain ⟨id, pool, hacquire, hclass, hid, hview, hshaped, hregions, hinUse, hpool⟩ :=
    ClassPool.acquire_nonempty h.shaped hfree hc region
  refine ⟨id, pool, hacquire, hclass, ⟨?_, hshaped, ?_, ?_⟩, hregions, hpool⟩
  · rw [hview, hid, Book.acquire_life h.balanced hnever]
    exact (h.tracks.claim hperm hc 1).2
  · have hcount := Recycling.countP_set_cell hc ⟨c.generation, some 1⟩
      fun c => c.held.isSome
    rw [hheld] at hcount
    rw [hinUse, hview, h.inUse]
    simpa using hcount.symm
  · exact Book.acquire_balanced h.balanced id.id

/-- Acquiring with fewer than 2^32 ids live. -/
theorem acquire (h : ClassGood p b) (hlive : b.issued.length < b.recycled.length + 2 ^ 32)
    (region : Region) :
    ∃ id pool, p.acquire region = some (id, pool) ∧ id.sizeClass = p.sizeClass ∧
      ClassGood pool (b.acquire id.id) ∧
      (pool.regions = p.regions ∨ (p.freelist = [] ∧ pool.regions = p.regions ++ [region])) ∧
      pool.sizeClass = p.sizeClass := by
  rcases List.eq_nil_or_concat p.freelist with hfree | ⟨front, i, hfree⟩
  · have hlen : p.view.cells.length = p.regions.length * p.sizeClass.slotsPerRegion := by
      rw [ClassPool.view, List.length_zipWith, h.shaped.refcounts, h.shaped.generations,
        Nat.min_self]
    have hfull := h.tracks.full hfree
    have hroom : p.view.cells.length + p.sizeClass.slotsPerRegion ≤ 2 ^ 32 := by
      rw [hlen] at hfull ⊢
      exact ClassPool.room_of_lt (by omega)
    have hgrown : ClassGood (p.addRegion region) b := by
      refine ⟨ClassPool.addRegion_tracks h.tracks h.shaped hroom region,
        ClassPool.addRegion_shaped h.shaped region, ?_, h.balanced⟩
      rw [p.addRegion_view region h.shaped, List.countP_append, List.countP_replicate]
      exact h.inUse
    obtain ⟨front, i, hlast⟩ : ∃ front i, (p.addRegion region).freelist = front ++ [i] := by
      refine ⟨_, _, (List.dropLast_append_getLast (l := (p.addRegion region).freelist) ?_).symm⟩
      rw [ClassPool.addRegion_freelist, hfree]
      cases p.sizeClass <;>
        simp [Recycling.Tracks.added, SizeClass.slotsPerRegion, SizeClass.size, regionSize]
    obtain ⟨id, pool, hacquire, hclass, hgood, hregions, hpool⟩ :=
      hgrown.acquire_nonempty hlast region
    rw [← ClassPool.acquire_empty hfree] at hacquire
    exact ⟨id, pool, hacquire, hclass, hgood, .inr ⟨hfree, hregions⟩, hpool⟩
  · rw [List.concat_eq_append] at hfree
    obtain ⟨id, pool, hacquire, hclass, hgood, hregions, hpool⟩ :=
      h.acquire_nonempty hfree region
    exact ⟨id, pool, hacquire, hclass, hgood, .inl hregions, hpool⟩

theorem stale (h : ClassGood p b) :
    ClassGood { p with staleRejections := p.staleRejections + 1 } b :=
  ⟨h.tracks, ⟨h.shaped.refcounts, h.shaped.generations, h.shaped.pagedOut⟩, h.inUse, h.balanced⟩

theorem dead_iff (h : ClassGood p b) {id : SlotId} : p.live id = false ↔ b.count id.id = 0 := by
  rw [← Bool.not_eq_true, h.live_iff, Nat.not_lt, Nat.le_zero]

theorem retain (h : ClassGood p b) {id : SlotId} (hroom : b.count id.id + 1 < 2 ^ 32) :
    ClassGood (p.retain id) (b.retain id.id) := by
  by_cases hpos : 0 < b.count id.id
  · have hlive := h.live_iff.mpr hpos
    have hview := ClassPool.retain_live hlive (h.refcount id) hroom
    have hlife := Book.life_live hpos
    have hcell : p.view.cells[id.index.toNat]? = some ⟨id.generation, some (b.count id.id)⟩ :=
      h.tracks.live_iff.mp hlife
    refine ⟨?_, ?_, ?_, Book.retain_balanced h.balanced id.id⟩
    · rw [hview, Book.retain_life h.balanced hpos, Book.retain_eq hpos]
      exact h.tracks.change hlife (b.count id.id + 1)
    · rw [ClassPool.retain, if_pos hlive]
      exact ⟨by dsimp only; rw [List.length_set, h.shaped.refcounts], h.shaped.generations,
        h.shaped.pagedOut⟩
    · have hcount := Recycling.countP_set_cell hcell
        ⟨id.generation, some (b.count id.id + 1)⟩ fun c => c.held.isSome
      have hinUse : (p.retain id).inUse = p.inUse := by rw [ClassPool.retain, if_pos hlive]
      rw [hinUse, hview, h.inUse]
      simpa using hcount.symm
  · have hdead : p.live id = false := h.dead_iff.mpr (by omega)
    rw [(ClassPool.stale hdead false false).1, Book.retain, if_neg hpos]
    exact h.stale

/-- A release answers whether it dropped the last reference. -/
theorem release (h : ClassGood p b) {id : SlotId}
    (hroom : b.count id.id = 1 → recyclings b.recycled id.index + 1 < 2 ^ 32)
    (pagesOut pageOut : Bool) :
    ((p.release pagesOut pageOut id).1 = true ↔ b.count id.id = 1) ∧
      ClassGood (p.release pagesOut pageOut id).2 (b.release id.id) ∧
      (p.release pagesOut pageOut id).2.regions = p.regions ∧
      (p.release pagesOut pageOut id).2.sizeClass = p.sizeClass := by
  have href := h.refcount id
  have hbal := Book.release_balanced h.balanced id.id
  by_cases hpos : 0 < b.count id.id
  · have hlive := h.live_iff.mpr hpos
    have hlife := Book.life_live hpos
    have hcell : p.view.cells[id.index.toNat]? = some ⟨id.generation, some (b.count id.id)⟩ :=
      h.tracks.live_iff.mp hlife
    by_cases hone : b.count id.id = 1
    · obtain ⟨pool, hrelease, ⟨free, hview, hfree⟩, hshaped, hregions, hinUse, hclass⟩ :=
        ClassPool.release_last hlive (by rw [href, hone]) pagesOut pageOut
      rw [hrelease]
      refine ⟨by simp [hone], ⟨?_, hshaped h.shaped, ?_, hbal⟩, hregions, hclass⟩
      · rw [hview, Book.release_life hpos, Book.release_eq hpos, if_pos hone, if_pos hone]
        exact h.tracks.recycle hlife (hroom hone) hfree
      · have hcount := Recycling.countP_set_cell hcell ⟨id.generation + 1, none⟩
          fun c => c.held.isSome
        rw [hinUse, hview, h.inUse]
        simp only [Option.isSome_some, Option.isSome_none, if_true, Bool.false_eq_true,
          if_false] at hcount
        dsimp only
        change _ = (p.view.cells.set id.index.toNat ⟨id.generation + 1, none⟩).countP _
        omega
    · obtain ⟨n, hn⟩ : ∃ n, b.count id.id = n + 1 := ⟨b.count id.id - 1, by omega⟩
      obtain ⟨pool, hrelease, hview, hshaped, hregions, hinUse, hclass⟩ :=
        ClassPool.release_more hlive (by rw [href, hn]) (by omega) pagesOut pageOut
      rw [hrelease]
      refine ⟨by simp [hone], ⟨?_, hshaped h.shaped, ?_, hbal⟩, hregions, hclass⟩
      · rw [hview, Book.release_life hpos, Book.release_eq hpos, if_neg hone, if_neg hone, hn]
        exact h.tracks.change hlife n
      · have hcount := Recycling.countP_set_cell hcell ⟨id.generation, some n⟩
          fun c => c.held.isSome
        rw [hinUse, hview, h.inUse]
        simpa using hcount.symm
  · have hdead : p.live id = false := h.dead_iff.mpr (by omega)
    rw [(ClassPool.stale hdead pagesOut pageOut).2, Book.release, if_neg hpos]
    refine ⟨⟨fun h => (by cases h), fun hone => ?_⟩, h.stale, rfl, rfl⟩
    omega

/-- The answer of a release says whether the refcount came to zero. -/
theorem released (h : ClassGood p b) (id : SlotId) (pagesOut pageOut : Bool) :
    (p.release pagesOut pageOut id).1 = true ↔
      0 < (p.refcount id).toNat ∧ (p.release pagesOut pageOut id).2.refcount id = 0 := by
  have href := h.refcount id
  by_cases hpos : 0 < b.count id.id
  · have hlive := h.live_iff.mpr hpos
    have hcell : p.view.cells[id.index.toNat]? = some ⟨id.generation, some (b.count id.id)⟩ :=
      h.tracks.live_iff.mp (Book.life_live hpos)
    have hlt := (List.getElem?_eq_some_iff.mp hcell).1
    by_cases hone : b.count id.id = 1
    · obtain ⟨pool, hrelease, ⟨free, hview, -⟩, -⟩ :=
        ClassPool.release_last hlive (by rw [href, hone]) pagesOut pageOut
      have hafter : pool.refcount id = 0 :=
        ClassPool.refcount_of_free (by rw [hview, List.getElem?_set_self hlt])
      rw [hrelease]
      exact ⟨fun _ => ⟨by omega, hafter⟩, fun _ => rfl⟩
    · obtain ⟨n, hn⟩ : ∃ n, b.count id.id = n + 1 := ⟨b.count id.id - 1, by omega⟩
      obtain ⟨pool, hrelease, hview, -⟩ :=
        ClassPool.release_more hlive (by rw [href, hn]) (by omega) pagesOut pageOut
      have hafter : (pool.refcount id).toNat = n :=
        ClassPool.refcount_of_cell (by rw [hview, List.getElem?_set_self hlt])
      rw [hrelease]
      refine ⟨fun h => (by cases h), fun ⟨_, hzero⟩ => ?_⟩
      dsimp only at hzero
      rw [hzero] at hafter
      have hzero : (0 : UInt32).toNat = 0 := rfl
      omega
  · have hdead : p.live id = false := h.dead_iff.mpr (by omega)
    rw [(ClassPool.stale hdead pagesOut pageOut).2]
    refine ⟨fun h => (by cases h), fun ⟨hlive, _⟩ => ?_⟩
    omega

/-- The freelist is the slots without references. -/
theorem mem_freelist (h : ClassGood p b) (i : UInt32) :
    i ∈ p.freelist ↔ p.refcounts[i.toNat]? = some 0 := by
  have hmem := h.tracks.mem_free i
  rw [show p.view.free = p.freelist from rfl] at hmem
  rw [hmem]
  constructor
  · rintro ⟨c, hc, hheld⟩
    obtain ⟨rc, generation, hrc, hg, rfl⟩ := ClassPool.view_cell.mp hc
    by_cases hz : rc = 0
    · rw [hrc, hz]
    · rw [cell, if_neg hz] at hheld
      cases hheld
  · intro hrc
    have hlt := (List.getElem?_eq_some_iff.mp hrc).1
    rw [h.shaped.refcounts, ← h.shaped.generations] at hlt
    exact ⟨_, ClassPool.view_cell.mpr ⟨0, _, hrc, List.getElem?_eq_getElem hlt, rfl⟩, rfl⟩

/-- The ids of the class that have references. -/
theorem live_ids (h : ClassGood p b) :
    (b.issued.filter fun id => decide (0 < b.count id)).length = p.inUse := by
  have hlive : ∀ id ∈ b.issued, (b.life id).isLive = decide (0 < b.count id) := by
    intro id hid
    rw [Book.life, if_pos hid]
    split
    · rename_i hzero
      rw [hzero]
      rfl
    · rename_i hne
      rw [decide_eq_true (Nat.pos_of_ne_zero hne)]
      rfl
  rw [h.inUse, ← h.tracks.live_length, List.filter_congr hlive]

end ClassGood

/-! ## 3. Runs -/

inductive Op where
  -- `region` is what the OS maps should the class have no free slot
  | acquire (c : SizeClass) (region : Region)
  | retain (id : SlotId)
  | release (id : SlotId) (pageOut : Bool)

structure Run where
  pool : BufferPool
  books : SizeClass → Book

namespace Run

def new : Run := { pool := .new, books := fun _ => .new }

def book (s : Run) (id : SlotId) : Book := s.books id.sizeClass

def step (pagesOut : Bool) (s : Run) : Op → Run
  | .acquire c region =>
    match s.pool.acquire c region with
    | none => s
    | some (id, pool) =>
      { pool, books := Function.update s.books c ((s.books c).acquire id.id) }
  | .retain id =>
    { pool := s.pool.retain id
      books := Function.update s.books id.sizeClass ((s.book id).retain id.id) }
  | .release id pageOut =>
    { pool := (s.pool.release pagesOut pageOut id).2
      books := Function.update s.books id.sizeClass ((s.book id).release id.id) }

end Run

def runs (pagesOut : Bool) : Machine Run Op := ⟨.new, Run.step pagesOut⟩

/-- Two regions share no byte. -/
def Apart (r r' : Region) : Prop := r.ptr + regionSize ≤ r'.ptr ∨ r'.ptr + regionSize ≤ r.ptr

-- the OS maps no byte twice, and no slot is recycled 2^32 times
def Assumed (s : Run) : Op → Prop
  | .acquire c region => (s.pool.classes c).freelist = [] →
      ∀ c', ∀ r ∈ (s.pool.classes c').regions, Apart r region
  | .retain _ => True
  | .release id _ => (s.book id).count id.id = 1 →
      recyclings (s.book id).recycled id.index + 1 < 2 ^ 32

-- what the 32-bit counts and indices hold: 2^32 - 1 references, 2^32 ids live in a class
def Fits (s : Run) : Op → Prop
  | .acquire c _ => (s.books c).issued.length < (s.books c).recycled.length + 2 ^ 32
  | .retain id => (s.book id).count id.id + 1 < 2 ^ 32
  | .release _ _ => True

instance (s : Run) : (op : Op) → Decidable (Fits s op)
  | .acquire _ _ => Nat.decLt _ _
  | .retain _ => Nat.decLt _ _
  | .release _ _ => isTrue trivial

structure Good (s : Run) : Prop where
  classes : ∀ c, ClassGood (s.pool.classes c) (s.books c)
  sizeClass : ∀ c, (s.pool.classes c).sizeClass = c
  apart : ∀ (c : SizeClass) (k : Nat) (r : Region) (c' : SizeClass) (k' : Nat) (r' : Region),
    (s.pool.classes c).regions[k]? = some r → (s.pool.classes c').regions[k']? = some r' → c ≠ c' ∨ k ≠ k' → Apart r r'

theorem Apart.symm {r r' : Region} (h : Apart r r') : Apart r' r := Or.symm h

namespace Good

variable {s : Run}

theorem new : Good .new where
  classes c := ClassGood.new c
  sizeClass _ := rfl
  apart c k r c' k' r' h := by cases h

/-- One class and its book replaced, its regions as they were or with one more. -/
theorem update (h : Good s) {c : SizeClass} {pool : ClassPool} {b : Book} (hgood : ClassGood pool b)
    (hclass : pool.sizeClass = (s.pool.classes c).sizeClass) (region : Region)
    (hregions : pool.regions = (s.pool.classes c).regions ∨
      (pool.regions = (s.pool.classes c).regions ++ [region] ∧
        ∀ c', ∀ r ∈ (s.pool.classes c').regions, Apart r region)) (dirty : Bool) :
    Good ⟨⟨Function.update s.pool.classes c pool, dirty⟩, Function.update s.books c b⟩ := by
  -- a region is one there was, or the new one
  have hlook : ∀ (c' : SizeClass) (k : Nat) (r : Region),
      (Function.update s.pool.classes c pool c').regions[k]? = some r →
      (s.pool.classes c').regions[k]? = some r ∨
        (c' = c ∧ k = (s.pool.classes c).regions.length ∧ r = region ∧
          ∀ c', ∀ r ∈ (s.pool.classes c').regions, Apart r region) := by
    intro c' k r hr
    by_cases hc : c' = c
    · rw [hc, Function.update_self] at hr
      rcases hregions with hsame | ⟨hmore, hapart⟩
      · rw [hsame] at hr
        exact .inl (hc ▸ hr)
      · rw [hmore, List.getElem?_append] at hr
        split at hr
        · exact .inl (hc ▸ hr)
        · rw [List.getElem?_singleton] at hr
          split at hr
          · injection hr with hr
            exact .inr ⟨hc, by omega, hr.symm, hapart⟩
          · cases hr
    · rw [Function.update_of_ne hc] at hr
      exact .inl hr
  refine ⟨fun c' => ?_, fun c' => ?_, fun c₁ k₁ r₁ c₂ k₂ r₂ hr₁ hr₂ hne => ?_⟩
  · dsimp only
    by_cases hc : c' = c
    · rw [hc, Function.update_self, Function.update_self]
      exact hgood
    · rw [Function.update_of_ne hc, Function.update_of_ne hc]
      exact h.classes c'
  · dsimp only
    by_cases hc : c' = c
    · rw [hc, Function.update_self, hclass, h.sizeClass]
    · rw [Function.update_of_ne hc, h.sizeClass]
  · rcases hlook c₁ k₁ r₁ hr₁ with hold₁ | ⟨hc₁, hk₁, heq₁, hapart⟩ <;>
      rcases hlook c₂ k₂ r₂ hr₂ with hold₂ | ⟨hc₂, hk₂, heq₂, hapart⟩
    · exact h.apart c₁ k₁ r₁ c₂ k₂ r₂ hold₁ hold₂ hne
    · rw [heq₂]
      exact hapart c₁ r₁ (List.mem_of_getElem? hold₁)
    · rw [heq₁]
      exact (hapart c₂ r₂ (List.mem_of_getElem? hold₂)).symm
    · rw [hc₁, hc₂, hk₁, hk₂] at hne
      simp at hne

/-- `acquire` hands out a fresh id. -/
theorem acquire (h : Good s) {c : SizeClass} {region : Region}
    (hassumed : Assumed s (.acquire c region)) (hfits : Fits s (.acquire c region)) :
    ∃ id pool, s.pool.acquire c region = some (id, pool) ∧ id.sizeClass = c ∧
      id.id ∉ (s.books c).issued ∧
      Good ⟨pool, Function.update s.books c ((s.books c).acquire id.id)⟩ := by
  obtain ⟨id, pool, hacquire, hclass, hgood, hregions, hpool⟩ :=
    (h.classes c).acquire hfits region
  have hfresh : id.id ∉ (s.books c).issued := by
    have honce := hgood.tracks.once
    rw [Book.acquire, List.nodup_append] at honce
    exact fun hmem => honce.2.2 id.id hmem id.id (List.mem_singleton_self _) rfl
  refine ⟨id, _, by rw [BufferPool.acquire, hacquire], by rw [hclass, h.sizeClass], hfresh, ?_⟩
  refine h.update hgood hpool region ?_ _
  rcases hregions with hsame | ⟨hfree, hmore⟩
  · exact .inl hsame
  · exact .inr ⟨hmore, hassumed hfree⟩

theorem step (h : Good s) (pagesOut : Bool) (op : Op) (hassumed : Assumed s op) (hfits : Fits s op) :
    Good (s.step pagesOut op) := by
  cases op with
  | acquire c region =>
    obtain ⟨id, pool, hacquire, -, -, hgood⟩ := h.acquire hassumed hfits
    rw [Run.step, hacquire]
    exact hgood
  | retain id =>
    have hgood := (h.classes id.sizeClass).retain hfits
    have hkept : ((s.pool.classes id.sizeClass).retain id).regions =
          (s.pool.classes id.sizeClass).regions ∧
        ((s.pool.classes id.sizeClass).retain id).sizeClass =
          (s.pool.classes id.sizeClass).sizeClass := by
      rw [ClassPool.retain]
      split <;> exact ⟨rfl, rfl⟩
    exact h.update hgood hkept.2 ⟨0, none, false, false⟩ (.inl hkept.1) _
  | release id pageOut =>
    obtain ⟨-, hgood, hregions, hclass⟩ :=
      (h.classes id.sizeClass).release hassumed pagesOut pageOut
    exact h.update hgood hclass ⟨0, none, false, false⟩ (.inl hregions) _

end Good

/-! ## 4. The claims on a state -/

structure Exact (pagesOut : Bool) (s : Run) : Prop where
  ids : ∀ c, (s.books c).issued.Nodup
  balanced : ∀ c id, (s.books c).releases id ≤ 1 + (s.books c).retains id
  refcount : ∀ id, (s.pool.refcount id).toNat =
    if id.id ∈ (s.book id).issued then
      1 + (s.book id).retains id.id - (s.book id).releases id.id
    else 0
  released : ∀ id pageOut, (s.pool.release pagesOut pageOut id).1 = true ↔
    0 < (s.pool.refcount id).toNat ∧ (s.pool.release pagesOut pageOut id).2.refcount id = 0
  inside : ∀ id, 0 < (s.pool.refcount id).toNat → ∃ region ∈ (s.pool.classes id.sizeClass).regions,
    ∃ ptr, s.pool.slotPtr id = some ptr ∧ region.ptr ≤ ptr ∧
      ptr + id.sizeClass.size ≤ region.ptr + regionSize
  disjoint : ∀ id id', 0 < (s.pool.refcount id).toNat → 0 < (s.pool.refcount id').toNat → id ≠ id' →
    ∀ ptr ptr', s.pool.slotPtr id = some ptr → s.pool.slotPtr id' = some ptr' →
      ptr + id.sizeClass.size ≤ ptr' ∨ ptr' + id'.sizeClass.size ≤ ptr
  freelist : ∀ c, (s.pool.classes c).freelist.Nodup ∧
    ∀ i, i ∈ (s.pool.classes c).freelist ↔ (s.pool.classes c).refcounts[i.toNat]? = some 0
  inUse : ∃ ids : List SlotId, ids.Nodup ∧ (∀ id, id ∈ ids ↔ 0 < (s.pool.refcount id).toNat) ∧
    s.pool.inUse = ids.length

namespace Good

variable {s : Run}

theorem refcount (h : Good s) (id : SlotId) :
    (s.pool.refcount id).toNat = (s.book id).count id.id :=
  (h.classes id.sizeClass).refcount id

/-- Where the bytes of a live id are. -/
theorem place (h : Good s) {id : SlotId} (hlive : 0 < (s.pool.refcount id).toNat) :
    ∃ region, (s.pool.classes id.sizeClass).regions[id.index.toNat / id.sizeClass.slotsPerRegion]? =
        some region ∧
      s.pool.slotPtr id = some (region.ptr +
        id.index.toNat % id.sizeClass.slotsPerRegion * id.sizeClass.size) := by
  have hgood := h.classes id.sizeClass
  have hclass := h.sizeClass id.sizeClass
  have hpos : 0 < (s.book id).count id.id := by rwa [← h.refcount]
  obtain ⟨rc, hrc, -⟩ := ClassPool.live_iff.mp (hgood.live_iff.mpr hpos)
  have hlt := (List.getElem?_eq_some_iff.mp hrc).1
  rw [hgood.shaped.refcounts] at hlt
  obtain ⟨region, hregion, hptr⟩ := ClassPool.slotPtr_of_lt hlt
  rw [hclass] at hregion hptr
  exact ⟨region, hregion, hptr⟩

/-- Live ids of one class and index are one id. -/
theorem live_unique (h : Good s) {id id' : SlotId} (hlive : 0 < (s.pool.refcount id).toNat)
    (hlive' : 0 < (s.pool.refcount id').toNat) (hclass : id.sizeClass = id'.sizeClass)
    (hindex : id.index = id'.index) : id = id' := by
  rw [h.refcount] at hlive hlive'
  obtain ⟨-, -, -, hg⟩ := ClassPool.live_iff.mp ((h.classes _).live_iff.mpr hlive)
  obtain ⟨-, -, -, hg'⟩ := ClassPool.live_iff.mp ((h.classes _).live_iff.mpr hlive')
  rw [hclass, hindex, hg'] at hg
  injection hg with hg
  cases id
  cases id'
  simp_all

-- slots of one region are apart when their places in it differ
theorem offsets_apart (size : Nat) {a b : Nat} (hne : a ≠ b) :
    a * size + size ≤ b * size ∨ b * size + size ≤ a * size := by
  rcases Nat.lt_or_gt_of_ne hne with hlt | hlt
  · left
    rw [← Nat.succ_mul]
    exact Nat.mul_le_mul_right size hlt
  · right
    rw [← Nat.succ_mul]
    exact Nat.mul_le_mul_right size hlt

theorem disjoint (h : Good s) {id id' : SlotId} (hlive : 0 < (s.pool.refcount id).toNat)
    (hlive' : 0 < (s.pool.refcount id').toNat) (hne : id ≠ id') {ptr ptr' : Nat}
    (hptr : s.pool.slotPtr id = some ptr) (hptr' : s.pool.slotPtr id' = some ptr') :
    ptr + id.sizeClass.size ≤ ptr' ∨ ptr' + id'.sizeClass.size ≤ ptr := by
  obtain ⟨region, hregion, hplace⟩ := h.place hlive
  obtain ⟨region', hregion', hplace'⟩ := h.place hlive'
  rw [hplace] at hptr
  rw [hplace'] at hptr'
  injection hptr with hptr
  injection hptr' with hptr'
  by_cases hsame : id.sizeClass = id'.sizeClass ∧
      id.index.toNat / id.sizeClass.slotsPerRegion = id'.index.toNat / id'.sizeClass.slotsPerRegion
  · -- one region: the places differ, for the indices do
    obtain ⟨hclass, hk⟩ := hsame
    have hindex : id.index.toNat ≠ id'.index.toNat := fun heq =>
      hne (h.live_unique hlive hlive' hclass (UInt32.toNat_inj.mp heq))
    rw [hk, hclass, hregion'] at hregion
    injection hregion with hregion
    rw [hclass] at hk hptr
    have hmod : id.index.toNat % id'.sizeClass.slotsPerRegion ≠
        id'.index.toNat % id'.sizeClass.slotsPerRegion := by
      intro hmod
      apply hindex
      rw [← Nat.div_add_mod id.index.toNat id'.sizeClass.slotsPerRegion, hk, hmod,
        Nat.div_add_mod]
    have happart := offsets_apart id'.sizeClass.size hmod
    rw [hclass, ← hptr, ← hptr', hregion]
    omega
  · have hother : id.sizeClass ≠ id'.sizeClass ∨ id.index.toNat / id.sizeClass.slotsPerRegion ≠
        id'.index.toNat / id'.sizeClass.slotsPerRegion := not_and_or.mp hsame
    have hapart := h.apart _ _ _ _ _ _ hregion hregion' hother
    have hle := ClassPool.offset_le id.sizeClass id.index.toNat
    have hle' := ClassPool.offset_le id'.sizeClass id'.index.toNat
    unfold Apart at hapart
    omega

/-- The live ids, class by class. -/
theorem liveIds (h : Good s) : ∃ ids : List SlotId, ids.Nodup ∧
    (∀ id, id ∈ ids ↔ 0 < (s.pool.refcount id).toNat) ∧ s.pool.inUse = ids.length := by
  let ids (c : SizeClass) : List SlotId :=
    ((s.books c).issued.filter fun id => decide (0 < (s.books c).count id)).map
      fun id => ⟨c, id.index, id.generation⟩
  have hmem : ∀ c id, id ∈ ids c ↔ id.sizeClass = c ∧ 0 < (s.pool.refcount id).toNat := by
    intro c id
    rw [h.refcount]
    constructor
    · intro hid
      obtain ⟨i, hi, rfl⟩ := List.mem_map.mp hid
      exact ⟨rfl, of_decide_eq_true (List.mem_filter.mp hi).2⟩
    · rintro ⟨rfl, hpos⟩
      refine List.mem_map.mpr ⟨id.id, List.mem_filter.mpr ⟨?_, decide_eq_true hpos⟩, rfl⟩
      exact Book.issued_of_count hpos
  have honce : ∀ c, (ids c).Nodup := by
    intro c
    refine List.Nodup.map_on ?_ ((h.classes c).tracks.once.filter _)
    intro a _ b _ hab
    injection hab with _ hindex hgeneration
    cases a
    cases b
    simp_all
  have hlength : ∀ c, (ids c).length = (s.pool.classes c).inUse := by
    intro c
    rw [List.length_map, (h.classes c).live_ids]
  have hapart : ∀ c c', c ≠ c' → List.Disjoint (ids c) (ids c') := by
    intro c c' hne id hid hid'
    exact hne (((hmem c id).mp hid).1.symm.trans ((hmem c' id).mp hid').1)
  refine ⟨ids .s4k ++ ids .s16k ++ ids .s64k, ?_, fun id => ?_, ?_⟩
  · refine List.Nodup.append (List.Nodup.append (honce _) (honce _) (hapart _ _ (by decide)))
      (honce _) ?_
    rw [List.disjoint_append_left]
    exact ⟨hapart _ _ (by decide), hapart _ _ (by decide)⟩
  · rw [List.mem_append, List.mem_append, hmem, hmem, hmem]
    cases id.sizeClass <;> simp
  · rw [List.length_append, List.length_append, hlength, hlength, hlength]
    rfl

theorem exact (h : Good s) (pagesOut : Bool) : Exact pagesOut s where
  ids c := (h.classes c).tracks.once
  balanced c := (h.classes c).balanced.releases
  refcount := h.refcount
  released id pageOut := by
    have hreleased := (h.classes id.sizeClass).released id pagesOut pageOut
    rw [BufferPool.release, BufferPool.refcount, BufferPool.refcount]
    dsimp only
    rw [Function.update_self]
    exact hreleased
  inside id hlive := by
    obtain ⟨region, hregion, hptr⟩ := h.place hlive
    have hle := ClassPool.offset_le id.sizeClass id.index.toNat
    exact ⟨region, List.mem_of_getElem? hregion, _, hptr, Nat.le_add_right _ _, by omega⟩
  disjoint id id' hlive hlive' hne ptr ptr' hptr hptr' := h.disjoint hlive hlive' hne hptr hptr'
  freelist c := ⟨(h.classes c).tracks.free_once, (h.classes c).mem_freelist⟩
  inUse := h.liveIds

end Good

/-- Spent ids stay spent. -/
theorem Run.spent_step {id : SlotId} {s : Run} (h : (s.book id).Spent id.id) (pagesOut : Bool)
    (op : Op) : ((s.step pagesOut op).book id).Spent id.id := by
  have hupdate : ∀ (pool : BufferPool) (c : SizeClass) (b : Book),
      (c = id.sizeClass → b.Spent id.id) →
      (Run.book ⟨pool, Function.update s.books c b⟩ id).Spent id.id := by
    intro pool c b hb
    rw [Run.book]
    dsimp only
    by_cases hc : id.sizeClass = c
    · rw [← hc, Function.update_self]
      exact hb hc.symm
    · rw [Function.update_of_ne hc]
      exact h
  cases op with
  | acquire c region =>
    rw [Run.step]
    split
    · exact h
    · rename_i id' pool _
      exact hupdate pool c _ fun hc => by rw [hc]; exact h.acquire id'.id
  | retain id' =>
    exact hupdate _ _ _ fun hc => by rw [Run.book, hc]; exact h.retain id'.id
  | release id' pageOut =>
    exact hupdate _ _ _ fun hc => by rw [Run.book, hc]; exact h.release id'.id

/-! ## 5. Every run -/

/-- The runs there are: the OS and the generations as assumed, counts and indices in 32 bits. -/
def Fair (pagesOut : Bool) : List Op → Prop :=
  (runs pagesOut).Along fun s op => Assumed s op ∧ Fits s op

theorem run_good {pagesOut : Bool} {ops : List Op} (h : Fair pagesOut ops) :
    Good ((runs pagesOut).run ops) :=
  (runs pagesOut).run_invariant_along (I := Good) Good.new
    (fun _ op hgood hop => hgood.step pagesOut op hop.1 hop.2) ops h

/-- **Buffer ownership is exact**, also of an id that is spent, in every later state. -/
theorem ownership_exact (pagesOut : Bool) (ops : List Op) (hfair : Fair pagesOut ops) :
    Exact pagesOut ((runs pagesOut).run ops) ∧
      (∀ c region, Fair pagesOut (ops ++ [.acquire c region]) →
        ∃ id pool, ((runs pagesOut).run ops).pool.acquire c region = some (id, pool) ∧
          id.sizeClass = c ∧ id.id ∉ (((runs pagesOut).run ops).books c).issued ∧
          pool.refcount id = 1) ∧
      ∀ later, Fair pagesOut (ops ++ later) → ∀ id,
        id.id ∈ (((runs pagesOut).run ops).book id).issued →
        ((runs pagesOut).run ops).pool.refcount id = 0 →
        ((runs pagesOut).run (ops ++ later)).pool.refcount id = 0 := by
  have hgood := run_good hfair
  refine ⟨hgood.exact pagesOut, fun c region hnext => ?_, fun later hlater id hissued hzero => ?_⟩
  · obtain ⟨hassumed, hfits⟩ := hnext ops (.acquire c region) (List.prefix_refl _)
    obtain ⟨id, pool, hacquire, hclass, hfresh, hafter⟩ := hgood.acquire hassumed hfits
    refine ⟨id, pool, hacquire, hclass, hfresh, UInt32.toNat_inj.mp ?_⟩
    have hquiet := (hgood.classes c).balanced.quiet id.id hfresh
    rw [hafter.refcount, Run.book, hclass]
    dsimp only
    rw [Function.update_self, Book.count, if_pos (by simp [Book.acquire])]
    show 1 + (Run.books _ c).retains id.id - (Run.books _ c).releases id.id = 1
    rw [hquiet.1, hquiet.2]
  · have hcount := hgood.refcount id
    rw [hzero] at hcount
    have hspent : (((runs pagesOut).run (ops ++ later)).book id).Spent id.id := by
      rw [Machine.run, List.foldl_append]
      refine List.foldlRecOn later _ (motive := fun s => (Run.book s id).Spent id.id)
        ⟨hissued, hcount.symm⟩ ?_
      exact fun s hs op _ => Run.spent_step hs pagesOut op
    apply UInt32.toNat_inj.mp
    rw [(run_good hlater).refcount, hspent.2]
    rfl

theorem fair_concat {pagesOut : Bool} (ops : List Op) (op : Op) (h : Fair pagesOut ops)
    (hassumed : Assumed ((runs pagesOut).run ops) op) (hfits : Fits ((runs pagesOut).run ops) op) :
    Fair pagesOut (ops ++ [op]) := (Machine.along_concat _).mpr ⟨h, hassumed, hfits⟩

/-- A slot shared, dropped, and refused under its old id. -/
theorem ownership_exact_reuse :
    let ops : List Op := [.acquire .s64k ⟨4096, none, false, true⟩, .retain ⟨.s64k, 0, 0⟩,
      .release ⟨.s64k, 0, 0⟩ true, .release ⟨.s64k, 0, 0⟩ true]
    Exact true ((runs true).run ops) ∧
      ((runs true).run (ops ++ [.retain ⟨.s64k, 0, 0⟩])).pool.refcount ⟨.s64k, 0, 0⟩ = 0 := by
  intro ops
  have h₁ := fair_concat [] (.acquire .s64k ⟨4096, none, false, true⟩)
    (Machine.along_nil (runs true) _) (fun _ c' r hr => (by cases hr)) (by decide)
  have h₂ := fair_concat _ (.retain ⟨.s64k, 0, 0⟩) h₁ trivial (by decide)
  have h₃ := fair_concat _ (.release ⟨.s64k, 0, 0⟩ true) h₂ (fun _ => by decide) trivial
  have h₄ : Fair true ops := fair_concat _ (.release ⟨.s64k, 0, 0⟩ true) h₃ (fun _ => by decide) trivial
  have h₅ := fair_concat _ (.retain ⟨.s64k, 0, 0⟩) h₄ trivial (by decide)
  have h := ownership_exact true ops h₄
  exact ⟨h.1, h.2.2 _ h₅ ⟨.s64k, 0, 0⟩ (by decide) (by decide)⟩

/-! ## 6. 2^32 references -/

def retains (n : Nat) : List Op :=
  [.acquire .s64k ⟨4096, none, false, true⟩] ++ List.replicate n (.retain ⟨.s64k, 0, 0⟩)

theorem retains_succ (n : Nat) : retains (n + 1) = retains n ++ [.retain ⟨.s64k, 0, 0⟩] := by
  rw [retains, retains, List.replicate_succ', List.append_assoc]

theorem retains_assumed (n : Nat) : (runs true).Along Assumed (retains n) := by
  induction n with
  | zero =>
    refine (Machine.along_singleton _).mpr ?_
    intro _ c' r hr
    cases hr
  | succ n ih =>
    rw [retains_succ]
    exact (Machine.along_concat _).mpr ⟨ih, trivial⟩

theorem run_retains (n : Nat) :
    (((runs true).run (retains n)).books .s64k).issued = [⟨0, 0⟩] ∧
      (((runs true).run (retains n)).books .s64k).retains ⟨0, 0⟩ = n ∧
      (((runs true).run (retains n)).books .s64k).releases ⟨0, 0⟩ = 0 := by
  induction n with
  | zero => decide
  | succ n ih =>
    rw [retains_succ, Machine.run_concat]
    obtain ⟨hissued, hretains, hreleases⟩ := ih
    generalize (runs true).run (retains n) = s at hissued hretains hreleases ⊢
    have hpos : 0 < (s.books .s64k).count ⟨0, 0⟩ := by
      rw [Book.count, if_pos (by rw [hissued]; exact List.mem_singleton_self _), hreleases]
      omega
    have hbook : (Run.step true s (.retain ⟨.s64k, 0, 0⟩)).books .s64k =
        (s.books .s64k).retain ⟨0, 0⟩ := by
      rw [Run.step]
      dsimp only
      rw [Function.update_self]
      rfl
    change ((Run.step true s (.retain ⟨.s64k, 0, 0⟩)).books .s64k).issued = _ ∧
      ((Run.step true s (.retain ⟨.s64k, 0, 0⟩)).books .s64k).retains _ = _ ∧
      ((Run.step true s (.retain ⟨.s64k, 0, 0⟩)).books .s64k).releases _ = _
    rw [hbook, Book.retain_eq hpos]
    dsimp only
    rw [Function.update_self, hretains]
    exact ⟨hissued, rfl, hreleases⟩

/-- An id retained 2^32 - 1 times has 2^32 references: its refcount wraps to zero. -/
theorem ownership_not_exact_past_u32 :
    ¬ ∀ pagesOut ops, (runs pagesOut).Along Assumed ops →
      Exact pagesOut ((runs pagesOut).run ops) := by
  intro h
  obtain ⟨n, hn⟩ : ∃ n, n + 1 = 2 ^ 32 := ⟨2 ^ 32 - 1, by omega⟩
  have hcount := (h true (retains n) (retains_assumed n)).refcount ⟨.s64k, 0, 0⟩
  obtain ⟨hissued, hretains, hreleases⟩ := run_retains n
  generalize (runs true).run (retains n) = s at hcount hissued hretains hreleases
  have hlt := (s.pool.refcount ⟨.s64k, 0, 0⟩).toNat_lt
  have hmem : (⟨0, 0⟩ : Id) ∈ (s.books .s64k).issued := by
    rw [hissued]
    exact List.mem_singleton_self _
  have hbook : (s.pool.refcount ⟨.s64k, 0, 0⟩).toNat =
      1 + (s.books .s64k).retains ⟨0, 0⟩ - (s.books .s64k).releases ⟨0, 0⟩ :=
    hcount.trans (if_pos hmem)
  omega

end Cadeloop.Core.Buffers
