import Cadeloop.Core.BufferResidency

/-!
# What the operations do to the refcounts

`acquire`, `retain` and `release` move the refcount of one id and of no other.  Nothing is assumed
of how often a slot was recycled: an id with references is never recycled.
-/

namespace Cadeloop.Core.Buffers

open Cadeloop.Reasoning

/-! ## 1. One class -/

namespace ClassPool

variable {p p' : ClassPool} {id : SlotId}

/-- The refcount of the generation that the slot has; older ids have none. -/
theorem refcount_eq (p : ClassPool) (id : SlotId) : p.refcount id =
    if p.generations[id.index.toNat]? = some id.generation then p.refcounts.getD id.index.toNat 0
    else 0 := by
  rw [List.getD_eq_getElem?_getD]
  by_cases hl : p.live id = true
  · obtain ⟨rc, hrc, -, hg⟩ := live_iff.mp hl
    rw [refcount_of hl hrc, if_pos hg, hrc]
    rfl
  · rw [refcount_of_dead (Bool.eq_false_iff.mpr hl)]
    split
    · rename_i hg
      rw [live_iff] at hl
      cases hrc : p.refcounts[id.index.toNat]? with
      | none => rfl
      | some rc =>
        by_cases hz : rc = 0
        · rw [hz]
          rfl
        · exact absurd ⟨rc, hrc, hz, hg⟩ hl
    · rfl

theorem live_of_refcount (h : p.refcount id ≠ 0) : p.live id = true := by
  by_contra hl
  exact h (refcount_of_dead (Bool.eq_false_iff.mpr hl))

theorem getD_set_self {l : List UInt32} {i : Nat} {n : UInt32} (hlt : i < l.length) :
    (l.set i n).getD i 0 = n := by
  rw [List.getD_eq_getElem?_getD, List.getElem?_set_self hlt]
  rfl

theorem getD_set_ne {l : List UInt32} {i j : Nat} {n : UInt32} (hne : i ≠ j) :
    (l.set i n).getD j 0 = l.getD j 0 := by
  rw [List.getD_eq_getElem?_getD, List.getD_eq_getElem?_getD, List.getElem?_set_ne hne]

/-- The refcount of a slot that has one written over: its current id has the new one. -/
theorem refcount_set (hg : p.generations[id.index.toNat]? = some id.generation)
    (hlt : id.index.toNat < p.refcounts.length) (n : UInt32) (id' : SlotId) :
    ({ p with refcounts := p.refcounts.set id.index.toNat n } : ClassPool).refcount id' =
      if id'.id = id.id then n
      else if id'.index = id.index then 0 else p.refcount id' := by
  rw [refcount_eq]
  dsimp only
  by_cases hi : id'.index = id.index
  · rw [hi, hg, getD_set_self hlt]
    by_cases hgen : id'.generation = id.generation
    · rw [if_pos (by rw [hgen]), if_pos (by rw [SlotId.id, SlotId.id, hi, hgen])]
    · rw [if_neg fun h => hgen (Option.some.inj h).symm, if_pos rfl,
        if_neg fun h => hgen (congrArg Recycling.Id.generation h)]
  · have hne : id.index.toNat ≠ id'.index.toNat := fun h => hi (UInt32.toNat_inj.mp h).symm
    rw [getD_set_ne hne, if_neg fun h => hi (congrArg Recycling.Id.index h), if_neg hi, refcount_eq]

/-- An id of the slot other than the current one has no references. -/
theorem refcount_old {id' : SlotId} (hg : p.generations[id.index.toNat]? = some id.generation)
    (hi : id'.index = id.index) (hne : id'.id ≠ id.id) : p.refcount id' = 0 := by
  rw [refcount_eq, hi, hg, if_neg]
  intro h
  apply hne
  rw [SlotId.id, SlotId.id, hi, Option.some.inj h]

theorem grown_refcount (p : ClassPool) (hs : p.Shaped) (region : Region) (id : SlotId) :
    (p.grown region).refcount id = p.refcount id := by
  unfold grown
  split
  · have hlen : p.generations.length = p.refcounts.length := by rw [hs.generations, hs.refcounts]
    have hgens : (p.addRegion region).generations =
        p.generations ++ List.replicate p.sizeClass.slotsPerRegion 0 := rfl
    have hrcs : (p.addRegion region).refcounts =
        p.refcounts ++ List.replicate p.sizeClass.slotsPerRegion 0 := rfl
    rw [refcount_eq, refcount_eq, hgens, hrcs]
    by_cases hlt : id.index.toNat < p.refcounts.length
    · rw [List.getElem?_append_left (by rw [hlen]; exact hlt), List.getD_eq_getElem?_getD,
        List.getD_eq_getElem?_getD, List.getElem?_append_left hlt]
    · have hzero : (p.refcounts ++ List.replicate p.sizeClass.slotsPerRegion 0).getD
          id.index.toNat 0 = 0 := by
        rw [List.getD_eq_getElem?_getD, List.getElem?_append_right (by omega),
          List.getElem?_replicate]
        split <;> rfl
      have hnone : p.generations[id.index.toNat]? = none :=
        List.getElem?_eq_none (by rw [hlen]; omega)
      rw [hzero, hnone, ite_self, if_neg (by simp)]
  · rfl

/-- The id handed out is the current one of its slot. -/
theorem acquire_current {region : Region} (h : p.acquire region = some (id, p')) :
    id.sizeClass = p.sizeClass ∧
      (p.grown region).generations[id.index.toNat]? = some id.generation := by
  unfold acquire at h
  rw [show (if p.freelist = [] then p.addRegion region else p) = p.grown region from rfl] at h
  have hclass : (p.grown region).sizeClass = p.sizeClass := by
    unfold grown
    split <;> rfl
  generalize p.grown region = q at h hclass ⊢
  dsimp only at h
  split at h
  · cases h
  rename_i index hlast
  split at h
  · rename_i paged rc generation hpaged hrc hg
    injection h with h
    injection h with hid hp'
    subst hid
    exact ⟨hclass, hg⟩
  · cases h

end ClassPool

namespace ClassPool.Resident

variable {p p' : ClassPool} {id : SlotId}

/-- A slot handed out had no references and has one. -/
theorem acquire_refcount (h : p.Resident) (hroom : p.Room) {region : Region}
    (hacquire : p.acquire region = some (id, p')) : p.refcount id = 0 ∧
      ∀ id', p'.refcount id' = if id'.id = id.id then 1 else p.refcount id' := by
  have hgrown := h.grown hroom region
  obtain ⟨-, hg⟩ := acquire_current hacquire
  obtain ⟨front, n, hfree, rfl⟩ := acquire_some hacquire
  have hrc := hgrown.free id.index (by rw [hfree]; simp)
  have hzero : (p.grown region).refcount id = 0 := by
    rw [refcount_eq, if_pos hg, List.getD_eq_getElem?_getD, hrc]
    rfl
  refine ⟨by rw [← p.grown_refcount h.shaped region, hzero], fun id' => ?_⟩
  have hset := refcount_set hg (List.getElem?_eq_some_iff.mp hrc).1 1 id'
  rw [← p.grown_refcount h.shaped region id']
  by_cases hid : id'.id = id.id
  · rw [if_pos hid] at hset ⊢
    exact hset
  · rw [if_neg hid] at hset ⊢
    by_cases hi : id'.index = id.index
    · rw [if_pos hi] at hset
      rw [refcount_old hg hi hid]
      exact hset
    · rw [if_neg hi] at hset
      exact hset

end ClassPool.Resident

namespace ClassPool

variable {p : ClassPool} {id : SlotId}

theorem retain_refcount (hl : p.refcount id ≠ 0) (id' : SlotId) :
    (p.retain id).refcount id' = if id'.id = id.id then p.refcount id + 1 else p.refcount id' := by
  have hlive := live_of_refcount hl
  obtain ⟨rc, hrc, -, hg⟩ := live_iff.mp hlive
  have hget : p.refcounts.getD id.index.toNat 0 = rc := by
    rw [List.getD_eq_getElem?_getD, hrc]
    rfl
  rw [retain, if_pos hlive, hget, refcount_set hg (List.getElem?_eq_some_iff.mp hrc).1,
    refcount_of hlive hrc]
  by_cases hid : id'.id = id.id
  · rw [if_pos hid, if_pos hid]
  · rw [if_neg hid, if_neg hid]
    split
    · rename_i hi
      exact (refcount_old hg hi hid).symm
    · rfl

theorem release_refcount (hl : p.refcount id ≠ 0) (pagesOut pageOut : Bool) (id' : SlotId) :
    (p.release pagesOut pageOut id).2.refcount id' =
      if id'.id = id.id then p.refcount id - 1 else p.refcount id' := by
  have hlive := live_of_refcount hl
  obtain ⟨rc, hrc, hz, hg⟩ := live_iff.mp hlive
  have hlt := (List.getElem?_eq_some_iff.mp hrc).1
  have hget : p.refcounts.getD id.index.toNat 0 = rc := by
    rw [List.getD_eq_getElem?_getD, hrc]
    rfl
  have hset := refcount_set hg hlt (rc - 1) id'
  have hold : id'.index = id.index → id'.id ≠ id.id → p.refcount id' = 0 := refcount_old hg
  rw [release, if_pos hlive, refcount_of hlive hrc]
  dsimp only
  rw [hget]
  split
  · rw [hset]
    by_cases hid : id'.id = id.id
    · rw [if_pos hid, if_pos hid]
    · rw [if_neg hid, if_neg hid]
      split
      · rename_i hi
        exact (hold hi hid).symm
      · rfl
  · -- the last reference: a generation later the slot has none under any id
    rename_i hlast
    have hlast : rc - 1 = 0 := not_not.mp hlast
    have hfreed : ∀ q : ClassPool, q.refcounts = p.refcounts.set id.index.toNat (rc - 1) →
        q.generations = p.generations.set id.index.toNat
          (p.generations.getD id.index.toNat 0 + 1) →
        q.refcount id' = if id'.id = id.id then rc - 1 else p.refcount id' := by
      intro q hrcs hgens
      rw [refcount_eq, hrcs, hgens]
      by_cases hi : id'.index = id.index
      · rw [hi, getD_set_self hlt, hlast, ite_self]
        by_cases hid : id'.id = id.id
        · rw [if_pos hid]
        · rw [if_neg hid, hold hi hid]
      · have hne : id.index.toNat ≠ id'.index.toNat := fun h => hi (UInt32.toNat_inj.mp h).symm
        rw [getD_set_ne hne, List.getElem?_set_ne hne, if_neg fun h => hi
          (congrArg Recycling.Id.index h), refcount_eq]
    split
    · exact hfreed _ rfl rfl
    · exact hfreed _ rfl rfl

/-- A slot given back leaves a class as much room. -/
theorem Room.release (h : p.Room) (pagesOut pageOut : Bool) (id : SlotId) :
    (p.release pagesOut pageOut id).2.Room := by
  unfold ClassPool.release
  split
  · dsimp only
    split
    · exact h
    · split
      · exact fun hnone => by cases hnone
      · exact fun hnone => absurd hnone (List.concat_ne_nil _ _)
  · exact h

end ClassPool

/-! ## 2. The pool -/

/-- Ids of one class are one id when the class cannot tell them apart. -/
theorem SlotId.ext_id {id id' : SlotId} (hclass : id.sizeClass = id'.sizeClass)
    (hid : id.id = id'.id) : id = id' := by
  cases id
  cases id'
  rw [SlotId.id, SlotId.id] at hid
  injection hid with hindex hgeneration
  subst hclass hindex hgeneration
  rfl

namespace BufferPool

def count (p : BufferPool) (id : SlotId) : Nat := (p.refcount id).toNat

theorem count_new (id : SlotId) : new.count id = 0 := by
  rw [count, refcount, new, ClassPool.refcount_eq]
  cases id.sizeClass <;> rfl

/-- One class written over, with the refcounts of one id moved. -/
theorem count_update {p p' : BufferPool} {id : SlotId} {q : ClassPool} {n : UInt32}
    (hclasses : p'.classes = Function.update p.classes id.sizeClass q)
    (hq : ∀ id', q.refcount id' =
      if id'.id = id.id then n else (p.classes id.sizeClass).refcount id') :
    p'.count = Function.update p.count id n.toNat := by
  funext id'
  rw [count, refcount, hclasses]
  by_cases hid : id' = id
  · rw [hid, Function.update_self, Function.update_self, hq, if_pos rfl]
  · rw [Function.update_of_ne hid]
    by_cases hclass : id'.sizeClass = id.sizeClass
    · rw [hclass, Function.update_self, hq, if_neg fun h => hid (SlotId.ext_id hclass h), count,
        refcount, hclass]
    · rw [Function.update_of_ne hclass]
      rfl

end BufferPool

variable {p : BufferPool}

/-- A class with an index left hands out an id that had no references and has one. -/
theorem Residents.acquire_count (h : Residents p) {c : SizeClass} (hroom : (p.classes c).Room)
    (region : Region) : ∃ id p', p.acquire c region = some (id, p') ∧ Residents p' ∧
      p.count id = 0 ∧ p'.count = Function.update p.count id 1 := by
  obtain ⟨id, q, hacquire, -, -⟩ := (h c).1.handed hroom region
  obtain ⟨hclass, -⟩ := ClassPool.acquire_current hacquire
  have hclass : id.sizeClass = c := hclass.trans (h c).2
  obtain ⟨hzero, hone⟩ := (h c).1.acquire_refcount hroom hacquire
  refine ⟨id, _, by rw [BufferPool.acquire, hacquire], ?_, ?_, ?_⟩
  · exact h.update ((h c).1.acquire hroom hacquire) ((acquire_sizeClass hacquire).trans (h c).2) _
  · rw [BufferPool.count, BufferPool.refcount, hclass, hzero]
    rfl
  · refine BufferPool.count_update (q := q) (n := 1) (by rw [hclass]) ?_
    rw [hclass]
    exact hone

theorem Residents.retain (h : Residents p) (id : SlotId) : Residents (p.retain id) :=
  h.update ((h _).1.retain id) ((retain_sizeClass _ id).trans (h _).2) _

theorem Residents.release (h : Residents p) (pagesOut pageOut : Bool) (id : SlotId) :
    Residents (p.release pagesOut pageOut id).2 :=
  h.update ((h _).1.release pagesOut pageOut id)
    ((release_sizeClass pagesOut pageOut _ id).trans (h _).2) _

theorem retain_count {id : SlotId} (hpos : 0 < p.count id) (hlt : p.count id + 1 < 2 ^ 32) :
    (p.retain id).count = Function.update p.count id (p.count id + 1) := by
  have hne : p.refcount id ≠ 0 := by
    intro h
    rw [BufferPool.count, h] at hpos
    exact absurd hpos (by decide)
  have hcount : (p.retain id).count = Function.update p.count id (p.refcount id + 1).toNat :=
    BufferPool.count_update rfl (ClassPool.retain_refcount hne)
  rw [hcount, UInt32.toNat_add]
  congr 1
  exact Nat.mod_eq_of_lt hlt

theorem release_count {id : SlotId} (hpos : 0 < p.count id) (pagesOut pageOut : Bool) :
    (p.release pagesOut pageOut id).2.count = Function.update p.count id (p.count id - 1) := by
  have hne : p.refcount id ≠ 0 := by
    intro h
    rw [BufferPool.count, h] at hpos
    exact absurd hpos (by decide)
  have hcount : (p.release pagesOut pageOut id).2.count =
      Function.update p.count id (p.refcount id - 1).toNat :=
    BufferPool.count_update rfl (ClassPool.release_refcount hne pagesOut pageOut)
  rw [hcount]
  congr 1
  exact ClassPool.pred_toNat (n := p.count id - 1) (by
    show p.count id = p.count id - 1 + 1
    omega)

end Cadeloop.Core.Buffers
