import Cadeloop.Core.BufferRuns

/-!
# What the free slots of the pool hold

A free slot is counted resident or marked paged out.  The marked ones wait at the front of the
freelist, so a slot that is handed out is resident while one is free.
-/

namespace Cadeloop.Core.Buffers

open Cadeloop.Reasoning
open Recycling.Tracks (added mem_added added_nodup)

/-! ## 1. One class -/

namespace ClassPool

def isPaged (p : ClassPool) (i : UInt32) : Bool := p.pagedOut.getD i.toNat false

/-- The class `acquire` takes a slot from. -/
def grown (p : ClassPool) (region : Region) : ClassPool :=
  if p.freelist = [] then p.addRegion region else p

/-- There is an index for every slot of one more region, should one be needed. -/
def Room (p : ClassPool) : Prop :=
  p.freelist = [] → p.regions.length * p.sizeClass.slotsPerRegion < 2 ^ 32

instance (p : ClassPool) : Decidable p.Room := inferInstanceAs (Decidable (_ → _))

/-- The three views of the free slots agree. -/
structure Resident (p : ClassPool) : Prop where
  shaped : p.Shaped
  fits : p.regions.length * p.sizeClass.slotsPerRegion ≤ 2 ^ 32
  once : p.freelist.Nodup
  free : ∀ i ∈ p.freelist, p.refcounts[i.toNat]? = some 0
  live : ∀ i : UInt32, ∀ rc, p.refcounts[i.toNat]? = some rc → rc ≠ 0 → p.isPaged i = false
  ends : ∃ paged resident, p.freelist = paged ++ resident ∧ (∀ i ∈ paged, p.isPaged i = true) ∧
    (∀ i ∈ resident, p.isPaged i = false) ∧ p.residentFree = resident.length

namespace Resident

variable {p : ClassPool}

theorem new (c : SizeClass) : (ClassPool.new c).Resident where
  shaped := ⟨(Nat.zero_mul _).symm, (Nat.zero_mul _).symm, (Nat.zero_mul _).symm⟩
  fits := by
    show 0 * _ ≤ _
    omega
  once := List.nodup_nil
  free := fun _ hi => absurd hi List.not_mem_nil
  live := fun _ _ hrc => by cases hrc
  ends := ⟨[], [], rfl, fun _ hi => absurd hi List.not_mem_nil,
    fun _ hi => absurd hi List.not_mem_nil, rfl⟩

theorem index_lt (h : p.Resident) {i : UInt32} (hi : i ∈ p.freelist) :
    i.toNat < p.regions.length * p.sizeClass.slotsPerRegion := by
  have hlt := (List.getElem?_eq_some_iff.mp (h.free i hi)).1
  rwa [h.shaped.refcounts] at hlt

/-- A new region has slots that are all resident, or none. -/
theorem addRegion (h : p.Resident) (hnone : p.freelist = []) (hroom : p.Room) (region : Region) :
    (p.addRegion region).Resident := by
  have hfits := room_of_lt (hroom hnone)
  have hfree : (p.addRegion region).freelist = (added (p.regions.length * p.sizeClass.slotsPerRegion)
      p.sizeClass.slotsPerRegion).reverse := by
    rw [addRegion_freelist, hnone, List.nil_append]
  have hmem : ∀ i ∈ (p.addRegion region).freelist,
      p.regions.length * p.sizeClass.slotsPerRegion ≤ i.toNat ∧
        i.toNat < p.regions.length * p.sizeClass.slotsPerRegion + p.sizeClass.slotsPerRegion := by
    intro i hi
    rw [hfree, List.mem_reverse] at hi
    exact (mem_added hfits i).mp hi
  have hpaged : ∀ i ∈ (p.addRegion region).freelist,
      (p.addRegion region).isPaged i = !region.freshHeld := by
    intro i hi
    obtain ⟨hle, hlt⟩ := hmem i hi
    show (p.pagedOut ++ List.replicate p.sizeClass.slotsPerRegion (!region.freshHeld)).getD _ _ = _
    rw [List.getD_eq_getElem?_getD, List.getElem?_append_right (by rw [h.shaped.pagedOut]; exact hle),
      h.shaped.pagedOut, List.getElem?_replicate, if_pos (by omega)]
    rfl
  have hcount : p.residentFree = 0 := by
    obtain ⟨paged, resident, hsplit, -, -, hcount⟩ := h.ends
    rw [hnone] at hsplit
    rw [hcount, (List.append_eq_nil_iff.mp hsplit.symm).2]
    rfl
  have hlength : (p.addRegion region).freelist.length = p.sizeClass.slotsPerRegion := by
    rw [hfree, List.length_reverse, added, List.length_map, List.length_range]
  constructor
  · exact addRegion_shaped h.shaped region
  · show (p.regions ++ [region]).length * p.sizeClass.slotsPerRegion ≤ 2 ^ 32
    rw [List.length_append, List.length_singleton, Nat.add_mul, Nat.one_mul]
    exact hfits
  · rw [hfree]
    exact List.nodup_reverse.mpr (added_nodup hfits)
  · intro i hi
    obtain ⟨hle, hlt⟩ := hmem i hi
    show (p.refcounts ++ List.replicate p.sizeClass.slotsPerRegion 0)[i.toNat]? = some 0
    rw [List.getElem?_append_right (by rw [h.shaped.refcounts]; exact hle), h.shaped.refcounts,
      List.getElem?_replicate, if_pos (by omega)]
  · intro i rc hrc hne
    have hrc : (p.refcounts ++ List.replicate p.sizeClass.slotsPerRegion 0)[i.toNat]? = some rc := hrc
    by_cases hlt : i.toNat < p.refcounts.length
    · rw [List.getElem?_append_left hlt] at hrc
      have hlive := h.live i rc hrc hne
      rw [h.shaped.refcounts, ← h.shaped.pagedOut] at hlt
      show (p.pagedOut ++ _).getD _ _ = false
      rw [List.getD_eq_getElem?_getD, List.getElem?_append_left hlt, ← List.getD_eq_getElem?_getD]
      exact hlive
    · rw [List.getElem?_append_right (by omega), List.getElem?_replicate] at hrc
      split at hrc
      · injection hrc with hrc
        exact absurd hrc.symm hne
      · cases hrc
  · cases hheld : region.freshHeld with
    | true =>
      refine ⟨[], (p.addRegion region).freelist, rfl, fun _ hi => absurd hi List.not_mem_nil,
        fun i hi => ?_, ?_⟩
      · rw [hpaged i hi, hheld]
        rfl
      · rw [hlength]
        show (if region.freshHeld then p.residentFree + _ else p.residentFree) = _
        rw [if_pos hheld, hcount, Nat.zero_add]
    | false =>
      refine ⟨_, [], (List.append_nil _).symm, fun i hi => ?_, fun _ hi => absurd hi List.not_mem_nil,
        ?_⟩
      · rw [hpaged i hi, hheld]
        rfl
      · show (if region.freshHeld then p.residentFree + _ else p.residentFree) = _
        rw [if_neg (by rw [hheld]; decide), hcount]
        rfl

theorem grown (h : p.Resident) (hroom : p.Room) (region : Region) : (p.grown region).Resident := by
  unfold ClassPool.grown
  split
  · rename_i hnone
    exact h.addRegion hnone hroom region
  · exact h

/-- A resident slot comes last in the freelist, where one is free. -/
theorem last (h : p.Resident) {front : List UInt32} {i : UInt32} (hfree : p.freelist = front ++ [i]) :
    (p.isPaged i = true ∧ p.residentFree = 0 ∧ ∀ j ∈ p.freelist, p.isPaged j = true) ∨
      ∃ paged resident, p.isPaged i = false ∧ front = paged ++ resident ∧
        (∀ j ∈ paged, p.isPaged j = true) ∧ (∀ j ∈ resident, p.isPaged j = false) ∧
        p.residentFree = resident.length + 1 := by
  obtain ⟨paged, resident, hsplit, hpaged, hresident, hcount⟩ := h.ends
  rcases List.eq_nil_or_concat resident with hnone | ⟨rest, j, hlast⟩
  · left
    rw [hnone, List.append_nil] at hsplit
    rw [← hsplit] at hpaged
    refine ⟨hpaged i ?_, by rw [hcount, hnone]; rfl, hpaged⟩
    rw [hfree]
    exact List.mem_append_right _ (List.mem_singleton_self i)
  · right
    rw [List.concat_eq_append] at hlast
    rw [hfree, hlast, ← List.append_assoc] at hsplit
    obtain ⟨hfront, hij⟩ := List.append_inj' hsplit rfl
    injection hij with hij
    rw [hlast] at hresident
    refine ⟨paged, rest, ?_, hfront, hpaged, ?_, ?_⟩
    · rw [hij]
      exact hresident j (List.mem_append_right _ (List.mem_singleton_self j))
    · exact fun k hk => hresident k (List.mem_append_left _ hk)
    · rw [hcount, hlast, List.length_append, List.length_singleton]

theorem isPaged_set (p : ClassPool) (i : UInt32) (b : Bool) (j : UInt32) (hne : j ≠ i) :
    (p.pagedOut.set i.toNat b).getD j.toNat false = p.isPaged j := by
  have hne : i.toNat ≠ j.toNat := fun heq => hne (UInt32.toNat_inj.mp heq.symm)
  rw [List.getD_eq_getElem?_getD, List.getElem?_set_ne hne, ← List.getD_eq_getElem?_getD]
  rfl

theorem refcounts_set (p : ClassPool) (i : UInt32) (n : UInt32) (j : UInt32) (hne : j ≠ i) :
    (p.refcounts.set i.toNat n)[j.toNat]? = p.refcounts[j.toNat]? :=
  List.getElem?_set_ne fun heq => hne (UInt32.toNat_inj.mp heq.symm)

/-- The slot from the back of the freelist is handed out. -/
theorem taken (h : p.Resident) {front : List UInt32} {i : UInt32} (hfree : p.freelist = front ++ [i])
    (n : Nat) : Resident { p with
      freelist := front
      pagedOut := p.pagedOut.set i.toNat false
      residentFree := if p.isPaged i then p.residentFree else p.residentFree - 1
      refcounts := p.refcounts.set i.toNat 1
      inUse := n } := by
  have honce : (front ++ [i]).Nodup := hfree ▸ h.once
  have hnot : ∀ j ∈ front, j ≠ i := by
    rintro j hj rfl
    exact List.disjoint_of_nodup_append honce hj (List.mem_singleton_self j)
  have hmem : ∀ j ∈ front, j ∈ p.freelist := by
    intro j hj
    rw [hfree]
    exact List.mem_append_left _ hj
  have hlt := h.index_lt (i := i) (by rw [hfree]; simp)
  constructor
  · exact ⟨by dsimp only; rw [List.length_set, h.shaped.refcounts], h.shaped.generations,
      by dsimp only; rw [List.length_set, h.shaped.pagedOut]⟩
  · exact h.fits
  · exact (List.nodup_append.mp honce).1
  · intro j hj
    dsimp only
    rw [refcounts_set p i 1 j (hnot j hj)]
    exact h.free j (hmem j hj)
  · intro j rc hrc hne
    by_cases hji : j = i
    · show (p.pagedOut.set i.toNat false).getD j.toNat false = false
      rw [hji, List.getD_eq_getElem?_getD, List.getElem?_set_self (by rw [h.shaped.pagedOut]; exact hlt)]
      rfl
    · dsimp only at hrc
      rw [refcounts_set p i 1 j hji] at hrc
      show (p.pagedOut.set i.toNat false).getD j.toNat false = false
      rw [isPaged_set p i false j hji]
      exact h.live j rc hrc hne
  · have hsame : ∀ j ∈ front, (p.pagedOut.set i.toNat false).getD j.toNat false = p.isPaged j :=
      fun j hj => isPaged_set p i false j (hnot j hj)
    rcases h.last hfree with ⟨hpaged, hcount, hall⟩ | ⟨paged, resident, hpaged, hsplit, hp, hr, hcount⟩
    · refine ⟨front, [], (List.append_nil _).symm, fun j hj => ?_,
        fun _ hj => absurd hj List.not_mem_nil, ?_⟩
      · exact (hsame j hj).trans (hall j (hmem j hj))
      · dsimp only
        rw [if_pos hpaged, hcount]
        rfl
    · refine ⟨paged, resident, hsplit, fun j hj => ?_, fun j hj => ?_, ?_⟩
      · exact (hsame j (by rw [hsplit]; exact List.mem_append_left _ hj)).trans (hp j hj)
      · exact (hsame j (by rw [hsplit]; exact List.mem_append_right _ hj)).trans (hr j hj)
      · dsimp only
        rw [if_neg (by simp [hpaged]), hcount, Nat.add_sub_cancel]

end Resident

/-- What `acquire` hands out is the back of the freelist. -/
theorem acquire_some {p p' : ClassPool} {region : Region} {id : SlotId}
    (h : p.acquire region = some (id, p')) : ∃ front n, (p.grown region).freelist = front ++ [id.index] ∧
      p' = { p.grown region with
        freelist := front
        pagedOut := (p.grown region).pagedOut.set id.index.toNat false
        residentFree := if (p.grown region).isPaged id.index then (p.grown region).residentFree
          else (p.grown region).residentFree - 1
        refcounts := (p.grown region).refcounts.set id.index.toNat 1
        inUse := n } := by
  unfold acquire at h
  rw [show (if p.freelist = [] then p.addRegion region else p) = p.grown region from rfl] at h
  generalize p.grown region = q at h ⊢
  dsimp only at h
  split at h
  · cases h
  rename_i index hlast
  split at h
  · rename_i paged rc generation hpaged _ _
    injection h with h
    injection h with hid hp'
    subst hid
    refine ⟨q.freelist.dropLast, q.inUse + 1, (List.dropLast_append_getLast? index hlast).symm, ?_⟩
    rw [← hp', isPaged, List.getD_eq_getElem?_getD, hpaged]
    rfl
  · cases h

theorem Resident.acquire {p p' : ClassPool} (h : p.Resident) (hroom : p.Room) {region : Region}
    {id : SlotId} (hacquire : p.acquire region = some (id, p')) : p'.Resident := by
  obtain ⟨front, n, hfree, rfl⟩ := acquire_some hacquire
  exact (h.grown hroom region).taken hfree n

namespace Resident

variable {p : ClassPool} {i : UInt32} {rc : UInt32}

theorem not_free (h : p.Resident) (hrc : p.refcounts[i.toNat]? = some rc) (hne : rc ≠ 0) :
    ∀ j ∈ p.freelist, j ≠ i := by
  rintro j hj rfl
  have hzero := h.free _ hj
  rw [hrc] at hzero
  injection hzero with hzero
  exact hne hzero

theorem generations_set (h : p.Resident) (j : Nat) (n : UInt32) :
    (p.generations.set j n).length = p.regions.length * p.sizeClass.slotsPerRegion := by
  rw [List.length_set, h.shaped.generations]

/-- A reference more or less moves no slot. -/
theorem recount (h : p.Resident) (hrc : p.refcounts[i.toNat]? = some rc) (hne : rc ≠ 0) (n : UInt32) :
    Resident { p with refcounts := p.refcounts.set i.toNat n } where
  shaped := ⟨by dsimp only; rw [List.length_set, h.shaped.refcounts], h.shaped.generations,
    h.shaped.pagedOut⟩
  fits := h.fits
  once := h.once
  free := by
    intro j hj
    dsimp only
    rw [refcounts_set p i n j (h.not_free hrc hne j hj)]
    exact h.free j hj
  live := by
    intro j rc' hrc' hne'
    by_cases hji : j = i
    · rw [hji]
      exact h.live i rc hrc hne
    · dsimp only at hrc'
      rw [refcounts_set p i n j hji] at hrc'
      exact h.live j rc' hrc' hne'
  ends := h.ends

/-- The last reference goes, and the slot stays resident. -/
theorem freed_back (h : p.Resident) (hrc : p.refcounts[i.toNat]? = some rc) (hne : rc ≠ 0)
    (generation : UInt32) (n : Nat) : Resident { p with
      refcounts := p.refcounts.set i.toNat 0
      generations := p.generations.set i.toNat generation
      inUse := n
      residentFree := p.residentFree + 1
      freelist := p.freelist ++ [i] } where
  shaped := ⟨by dsimp only; rw [List.length_set, h.shaped.refcounts], h.generations_set _ _,
    h.shaped.pagedOut⟩
  fits := h.fits
  once := by
    dsimp only
    apply List.Nodup.append h.once (List.nodup_singleton i)
    intro j hj hji
    exact h.not_free hrc hne j hj (List.mem_singleton.mp hji)
  free := by
    intro j hj
    rcases List.mem_append.mp hj with hj | hj
    · dsimp only
      rw [refcounts_set p i 0 j (h.not_free hrc hne j hj)]
      exact h.free j hj
    · rw [List.mem_singleton.mp hj]
      exact List.getElem?_set_self (List.getElem?_eq_some_iff.mp hrc).1
  live := by
    intro j rc' hrc' hne'
    by_cases hji : j = i
    · rw [hji]
      exact h.live i rc hrc hne
    · dsimp only at hrc'
      rw [refcounts_set p i 0 j hji] at hrc'
      exact h.live j rc' hrc' hne'
  ends := by
    obtain ⟨paged, resident, hsplit, hpaged, hresident, hcount⟩ := h.ends
    refine ⟨paged, resident ++ [i], ?_, hpaged, fun j hj => ?_, ?_⟩
    · dsimp only
      rw [hsplit, List.append_assoc]
    · rcases List.mem_append.mp hj with hj | hj
      · exact hresident j hj
      · rw [List.mem_singleton.mp hj]
        exact h.live i rc hrc hne
    · rw [List.length_append, List.length_singleton, ← hcount]

/-- The last reference goes, and the slot is paged out. -/
theorem freed_front (h : p.Resident) (hrc : p.refcounts[i.toNat]? = some rc) (hne : rc ≠ 0)
    (generation : UInt32) (n : Nat) : Resident { p with
      refcounts := p.refcounts.set i.toNat 0
      generations := p.generations.set i.toNat generation
      inUse := n
      pagedOut := p.pagedOut.set i.toNat true
      freelist := i :: p.freelist } where
  shaped := ⟨by dsimp only; rw [List.length_set, h.shaped.refcounts], h.generations_set _ _,
    by dsimp only; rw [List.length_set, h.shaped.pagedOut]⟩
  fits := h.fits
  once := List.nodup_cons.mpr ⟨fun hi => h.not_free hrc hne i hi rfl, h.once⟩
  free := by
    intro j hj
    rcases List.mem_cons.mp hj with rfl | hj
    · exact List.getElem?_set_self (List.getElem?_eq_some_iff.mp hrc).1
    · dsimp only
      rw [refcounts_set p i 0 j (h.not_free hrc hne j hj)]
      exact h.free j hj
  live := by
    intro j rc' hrc' hne'
    by_cases hji : j = i
    · dsimp only at hrc'
      rw [hji, List.getElem?_set_self (List.getElem?_eq_some_iff.mp hrc).1] at hrc'
      injection hrc' with hrc'
      exact absurd hrc'.symm hne'
    · dsimp only at hrc'
      rw [refcounts_set p i 0 j hji] at hrc'
      show (p.pagedOut.set i.toNat true).getD j.toNat false = false
      rw [isPaged_set p i true j hji]
      exact h.live j rc' hrc' hne'
  ends := by
    have hlt : i.toNat < p.pagedOut.length := by
      rw [h.shaped.pagedOut, ← h.shaped.refcounts]
      exact (List.getElem?_eq_some_iff.mp hrc).1
    have hsame : ∀ j ∈ p.freelist,
        (p.pagedOut.set i.toNat true).getD j.toNat false = p.isPaged j :=
      fun j hj => isPaged_set p i true j (h.not_free hrc hne j hj)
    obtain ⟨paged, resident, hsplit, hpaged, hresident, hcount⟩ := h.ends
    rw [hsplit] at hsame
    refine ⟨i :: paged, resident, ?_, fun j hj => ?_, fun j hj => ?_, hcount⟩
    · dsimp only
      rw [hsplit, List.cons_append]
    · rcases List.mem_cons.mp hj with rfl | hj
      · show (p.pagedOut.set j.toNat true).getD j.toNat false = true
        rw [List.getD_eq_getElem?_getD, List.getElem?_set_self hlt]
        rfl
      · exact (hsame j (List.mem_append_left _ hj)).trans (hpaged j hj)
    · exact (hsame j (List.mem_append_right _ hj)).trans (hresident j hj)

theorem retain (h : p.Resident) (id : SlotId) : (p.retain id).Resident := by
  unfold ClassPool.retain
  split
  · rename_i hlive
    obtain ⟨rc, hrc, hne, -⟩ := live_iff.mp hlive
    exact h.recount hrc hne _
  · exact ⟨⟨h.shaped.refcounts, h.shaped.generations, h.shaped.pagedOut⟩, h.fits, h.once, h.free,
      h.live, h.ends⟩

theorem release (h : p.Resident) (pagesOut pageOut : Bool) (id : SlotId) :
    (p.release pagesOut pageOut id).2.Resident := by
  unfold ClassPool.release
  split
  · rename_i hlive
    obtain ⟨rc, hrc, hne, -⟩ := live_iff.mp hlive
    dsimp only
    split
    · exact h.recount hrc hne _
    · rename_i hlast
      rw [not_not.mp hlast]
      split
      · exact h.freed_front hrc hne _ _
      · exact h.freed_back hrc hne _ _
  · exact ⟨⟨h.shaped.refcounts, h.shaped.generations, h.shaped.pagedOut⟩, h.fits, h.once, h.free,
      h.live, h.ends⟩

end Resident

/-! ## 2. The counts of a class -/

/-- How many free slots are marked paged out. -/
def pagedFree (p : ClassPool) : Nat := p.freelist.countP p.isPaged

namespace Resident

variable {p : ClassPool}

theorem counted (h : p.Resident) : p.residentFree = p.freelist.countP fun i => !p.isPaged i := by
  obtain ⟨paged, resident, hsplit, hpaged, hresident, hcount⟩ := h.ends
  have hnone : paged.countP (fun i => !p.isPaged i) = 0 := by
    rw [List.countP_eq_zero]
    intro i hi
    simp [hpaged i hi]
  have hall : resident.countP (fun i => !p.isPaged i) = resident.length := by
    rw [List.countP_eq_length]
    intro i hi
    simp [hresident i hi]
  rw [hsplit, List.countP_append, hnone, hall, Nat.zero_add, hcount]

theorem counted_paged (h : p.Resident) : p.freelist.length - p.residentFree = p.pagedFree := by
  have hsum := List.length_eq_countP_add_countP (p := p.isPaged) (l := p.freelist)
  have hcount := h.counted
  have hnot : p.freelist.countP (fun i => !p.isPaged i) =
      p.freelist.countP (fun i => decide ¬ p.isPaged i = true) := by
    apply List.countP_congr
    intro i _
    simp
  unfold pagedFree
  omega

theorem ordered (h : p.Resident) :
    p.freelist.Pairwise fun i j => p.isPaged j = true → p.isPaged i = true := by
  obtain ⟨paged, resident, hsplit, hpaged, hresident, -⟩ := h.ends
  rw [hsplit]
  apply List.pairwise_append.mpr
  refine ⟨?_, ?_, fun i hi j _ _ => hpaged i hi⟩
  · exact List.pairwise_of_forall_mem_list fun i hi j _ _ => hpaged i hi
  · apply List.pairwise_of_forall_mem_list
    intro i _ j hj hmarked
    exact absurd ((hresident j hj).symm.trans hmarked) (by decide)

theorem length_le (h : p.Resident) :
    p.freelist.length ≤ p.regions.length * p.sizeClass.slotsPerRegion := by
  have honce : (p.freelist.map UInt32.toNat).Nodup :=
    h.once.map fun _ _ heq => UInt32.toNat_inj.mp heq
  have hsub : p.freelist.map UInt32.toNat ⊆
      List.range (p.regions.length * p.sizeClass.slotsPerRegion) := by
    intro n hn
    obtain ⟨i, hi, rfl⟩ := List.mem_map.mp hn
    exact List.mem_range.mpr (h.index_lt hi)
  have hle := (List.subperm_of_subset honce hsub).length_le
  rwa [List.length_map, List.length_range] at hle

/-- What the paged-out slots hold nothing of is part of the regions. -/
theorem paged_le (h : p.Resident) :
    p.pagedFree * p.sizeClass.size ≤ p.regions.length * regionSize := by
  calc p.pagedFree * p.sizeClass.size
      ≤ p.freelist.length * p.sizeClass.size := Nat.mul_le_mul_right _ List.countP_le_length
    _ ≤ p.regions.length * p.sizeClass.slotsPerRegion * p.sizeClass.size :=
      Nat.mul_le_mul_right _ h.length_le
    _ = p.regions.length * regionSize := by
      rw [Nat.mul_assoc, p.sizeClass.slotsPerRegion_mul_size]

theorem held (h : p.Resident) :
    p.bytesHeld + p.pagedFree * p.sizeClass.size = p.regions.length * regionSize := by
  have hle := h.paged_le
  rw [bytesHeld, h.counted_paged]
  omega

/-- Where the arrays have the slot at the back of the freelist, it is handed out. -/
theorem acquire_of_last {region : Region} {i : UInt32} (hs : (p.grown region).Shaped)
    (hlast : (p.grown region).freelist.getLast? = some i) (hlt : i.toNat <
      (p.grown region).regions.length * (p.grown region).sizeClass.slotsPerRegion) :
    ∃ id p', p.acquire region = some (id, p') := by
  unfold ClassPool.acquire
  rw [show (if p.freelist = [] then p.addRegion region else p) = p.grown region from rfl]
  generalize p.grown region = q at hs hlast hlt ⊢
  have hget : ∀ {α : Type} (l : List α),
      l.length = q.regions.length * q.sizeClass.slotsPerRegion → ∃ x, l[i.toNat]? = some x := by
    intro α l hl
    exact ⟨_, List.getElem?_eq_getElem (by rw [hl]; exact hlt)⟩
  obtain ⟨paged, hpaged⟩ := hget _ hs.pagedOut
  obtain ⟨rc, hrc⟩ := hget _ hs.refcounts
  obtain ⟨generation, hgeneration⟩ := hget _ hs.generations
  dsimp only
  rw [hlast]
  dsimp only
  rw [hpaged, hrc, hgeneration]
  exact ⟨_, _, rfl⟩

theorem grown_ne (p : ClassPool) (region : Region) : (p.grown region).freelist ≠ [] := by
  unfold ClassPool.grown
  split
  · rename_i hnone
    rw [addRegion_freelist, hnone]
    cases p.sizeClass <;> simp [added, SizeClass.slotsPerRegion, SizeClass.size, regionSize]
  · assumption

/-- A class with an index left for its slots hands one out, a resident one where there is one. -/
theorem handed (h : p.Resident) (hroom : p.Room) (region : Region) :
    ∃ id p', p.acquire region = some (id, p') ∧
      ((p.grown region).isPaged id.index = false → 0 < (p.grown region).residentFree) ∧
      ((∃ i ∈ (p.grown region).freelist, (p.grown region).isPaged i = false) →
        (p.grown region).isPaged id.index = false) := by
  have hgrown := h.grown hroom region
  obtain ⟨i, hlast⟩ := Option.isSome_iff_exists.mp (List.getLast?_isSome.mpr (grown_ne p region))
  have hsome := acquire_of_last hgrown.shaped hlast
    (hgrown.index_lt (List.mem_of_getLast? hlast))
  obtain ⟨id, p', hacquire⟩ := hsome
  refine ⟨id, p', hacquire, ?_⟩
  obtain ⟨front, n, hfree, -⟩ := acquire_some hacquire
  rcases hgrown.last hfree with ⟨hpaged, -, hall⟩ | ⟨_, resident, hpaged, -, -, -, hcount⟩
  · refine ⟨fun hnot => absurd (hpaged.symm.trans hnot) (by decide), ?_⟩
    rintro ⟨i, hi, hnot⟩
    exact absurd ((hall i hi).symm.trans hnot) (by decide)
  · exact ⟨fun _ => by omega, fun _ => hpaged⟩

end Resident

/-! ## 3. Where everything pages out -/

/-- No region came committed or cannot be paged, and few slots are resident. -/
structure Warm (p : ClassPool) : Prop where
  pageable : ∀ region ∈ p.regions, region.pageable = true
  few : p.residentFree ≤ residentFreeSlots

namespace Warm

variable {p p' : ClassPool}

theorem acquire (h : p.Warm) {region : Region} {id : SlotId} (hfresh : region.freshHeld = false)
    (hpageable : region.pageable = true) (hacquire : p.acquire region = some (id, p')) : p'.Warm := by
  have hgrown : (p.grown region).Warm := by
    unfold grown
    split
    · refine ⟨fun r hr => ?_, ?_⟩
      · rcases List.mem_append.mp hr with hr | hr
        · exact h.pageable r hr
        · rw [List.mem_singleton.mp hr]
          exact hpageable
      · show (if region.freshHeld then _ else p.residentFree) ≤ _
        rw [if_neg (by simp [hfresh])]
        exact h.few
    · exact h
  obtain ⟨front, n, -, rfl⟩ := acquire_some hacquire
  refine ⟨hgrown.pageable, ?_⟩
  have hfew := hgrown.few
  dsimp only
  split
  · exact hfew
  · omega

theorem retain (h : p.Warm) (id : SlotId) : (p.retain id).Warm := by
  unfold ClassPool.retain
  split
  · exact ⟨h.pageable, h.few⟩
  · exact ⟨h.pageable, h.few⟩

/-- A slot past the warm ones is paged out. -/
theorem release (h : p.Warm) (hshaped : p.Shaped) (id : SlotId) :
    (p.release true true id).2.Warm := by
  unfold ClassPool.release
  split
  · rename_i hlive
    obtain ⟨rc, hrc, -, -⟩ := live_iff.mp hlive
    have hlt := (List.getElem?_eq_some_iff.mp hrc).1
    rw [hshaped.refcounts] at hlt
    have hindex : id.index.toNat / p.sizeClass.slotsPerRegion < p.regions.length :=
      Nat.div_lt_of_lt_mul (by rwa [Nat.mul_comm])
    have hpageable : p.pageable id.index = true := by
      unfold ClassPool.pageable
      rw [List.getElem?_eq_getElem hindex]
      exact h.pageable _ (List.getElem_mem hindex)
    dsimp only
    split
    · exact ⟨h.pageable, h.few⟩
    split
    · exact ⟨h.pageable, h.few⟩
    · rename_i hwarm
      refine ⟨h.pageable, ?_⟩
      have hpageable' : ClassPool.pageable { p with
          refcounts := p.refcounts.set id.index.toNat (p.refcounts.getD id.index.toNat 0 - 1)
          generations := p.generations.set id.index.toNat
            (p.generations.getD id.index.toNat 0 + 1)
          inUse := p.inUse - 1 } id.index = true := hpageable
      simp only [hpageable', Bool.true_and, Bool.and_true, decide_eq_true_eq, not_le, ge_iff_le]
        at hwarm
      exact hwarm
  · exact ⟨h.pageable, h.few⟩

end Warm

end ClassPool

/-! ## 4. The pool -/

def poolStep (pagesOut : Bool) (s : BufferPool) : Op → BufferPool
  | .acquire c region =>
    match s.acquire c region with
    | none => s
    | some (_, pool) => pool
  | .retain id => s.retain id
  | .release id pageOut => (s.release pagesOut pageOut id).2

def pools (pagesOut : Bool) : Machine BufferPool Op := ⟨.new, poolStep pagesOut⟩

/-- No class that has a slot for every index is asked for one more. -/
def Room (s : BufferPool) : Op → Prop
  | .acquire c _ => (s.classes c).Room
  | _ => True

instance (s : BufferPool) : (op : Op) → Decidable (Room s op)
  | .acquire c _ => inferInstanceAs (Decidable (s.classes c).Room)
  | .retain _ => isTrue trivial
  | .release _ _ => isTrue trivial

/-- A pageable region that did not come committed, and a slot that can be paged out. -/
def Tame : Op → Prop
  | .acquire _ region => region.freshHeld = false ∧ region.pageable = true
  | .retain _ => True
  | .release _ pageOut => pageOut = true

def Residents (s : BufferPool) : Prop := ∀ c, (s.classes c).Resident ∧ (s.classes c).sizeClass = c

theorem Residents.update {s : BufferPool} (h : Residents s) {c : SizeClass} {p : ClassPool}
    (hp : p.Resident) (hclass : p.sizeClass = c) (dirty : Bool) :
    Residents ⟨Function.update s.classes c p, dirty⟩ := by
  intro c'
  by_cases hc : c' = c
  · dsimp only
    rw [hc, Function.update_self]
    exact ⟨hp, hclass⟩
  · dsimp only
    rw [Function.update_of_ne hc]
    exact h c'

theorem acquire_classes {s pool : BufferPool} {c : SizeClass} {region : Region} {id : SlotId}
    (h : s.acquire c region = some (id, pool)) :
    ∃ p, (s.classes c).acquire region = some (id, p) ∧ pool.classes = Function.update s.classes c p := by
  unfold BufferPool.acquire at h
  cases hacquire : (s.classes c).acquire region with
  | none =>
    rw [hacquire] at h
    cases h
  | some handed =>
    obtain ⟨id', p⟩ := handed
    rw [hacquire] at h
    injection h with h
    injection h with hid hpool
    subst hid hpool
    exact ⟨p, rfl, rfl⟩

theorem acquire_sizeClass {p p' : ClassPool} {region : Region} {id : SlotId}
    (h : p.acquire region = some (id, p')) : p'.sizeClass = p.sizeClass := by
  obtain ⟨front, n, -, rfl⟩ := ClassPool.acquire_some h
  show (p.grown region).sizeClass = p.sizeClass
  unfold ClassPool.grown
  split <;> rfl

theorem release_sizeClass (pagesOut pageOut : Bool) (p : ClassPool) (id : SlotId) :
    (p.release pagesOut pageOut id).2.sizeClass = p.sizeClass := by
  unfold ClassPool.release
  split
  · dsimp only
    split
    · rfl
    · split <;> rfl
  · rfl

theorem retain_sizeClass (p : ClassPool) (id : SlotId) : (p.retain id).sizeClass = p.sizeClass := by
  unfold ClassPool.retain
  split <;> rfl

theorem poolStep_residents {pagesOut : Bool} {s : BufferPool} (op : Op) (h : Residents s)
    (hroom : Room s op) : Residents (poolStep pagesOut s op) := by
  cases op with
  | acquire c region =>
    unfold poolStep
    dsimp only
    split
    · exact h
    · rename_i id pool hacquire
      obtain ⟨p, hp, hclasses⟩ := acquire_classes hacquire
      have hnext := h.update ((h c).1.acquire hroom hp) ((acquire_sizeClass hp).trans (h c).2)
        pool.regionsDirty
      rwa [← hclasses] at hnext
  | retain id =>
    exact h.update ((h _).1.retain id) ((retain_sizeClass _ id).trans (h _).2) _
  | release id pageOut =>
    exact h.update ((h _).1.release pagesOut pageOut id)
      ((release_sizeClass pagesOut pageOut _ id).trans (h _).2) _

theorem poolStep_warm {s : BufferPool} (op : Op) (h : Residents s)
    (hwarm : ∀ c, (s.classes c).Warm) (htame : Tame op) :
    ∀ c, ((poolStep true s op).classes c).Warm := by
  have hupdate : ∀ (c : SizeClass) (p : ClassPool), p.Warm →
      ∀ c', (Function.update s.classes c p c').Warm := by
    intro c p hp c'
    by_cases hc : c' = c
    · rw [hc, Function.update_self]
      exact hp
    · rw [Function.update_of_ne hc]
      exact hwarm c'
  cases op with
  | acquire c region =>
    unfold poolStep
    dsimp only
    split
    · exact hwarm
    · rename_i id pool hacquire
      obtain ⟨p, hp, hclasses⟩ := acquire_classes hacquire
      rw [hclasses]
      exact hupdate c p ((hwarm c).acquire htame.1 htame.2 hp)
  | retain id => exact hupdate _ _ ((hwarm _).retain id)
  | release id pageOut =>
    obtain rfl : pageOut = true := htame
    exact hupdate _ _ ((hwarm _).release (h _).1.shaped id)

/-! ## 5. Every run -/

/-- What the pool counts of its free slots, and of the bytes it keeps. -/
structure Accounted (s : BufferPool) : Prop where
  free : ∀ c, (s.classes c).freelist.Nodup ∧
    ∀ i ∈ (s.classes c).freelist, (s.classes c).refcounts[i.toNat]? = some 0
  counted : ∀ c, (s.classes c).residentFree =
    (s.classes c).freelist.countP fun i => !(s.classes c).isPaged i
  ordered : ∀ c, (s.classes c).freelist.Pairwise fun i j =>
    (s.classes c).isPaged j = true → (s.classes c).isPaged i = true
  live : ∀ id, 0 < (s.refcount id).toNat → (s.classes id.sizeClass).isPaged id.index = false
  -- nothing saturates
  saturates : ∀ c, (s.classes c).residentFree ≤ (s.classes c).freelist.length ∧
    (s.classes c).pagedFree * c.size ≤ (s.classes c).regions.length * regionSize
  held : s.bytesHeld + (∑ c ∈ {.s4k, .s16k, .s64k}, (s.classes c).pagedFree * c.size) =
    ∑ c ∈ {SizeClass.s4k, .s16k, .s64k}, (s.classes c).regions.length * regionSize

theorem Residents.accounted {s : BufferPool} (h : Residents s) : Accounted s where
  free c := ⟨(h c).1.once, (h c).1.free⟩
  counted c := (h c).1.counted
  ordered c := (h c).1.ordered
  live id hlive := by
    by_cases hl : (s.classes id.sizeClass).live id = true
    · obtain ⟨rc, hrc, hne, -⟩ := ClassPool.live_iff.mp hl
      exact (h id.sizeClass).1.live id.index rc hrc hne
    · rw [BufferPool.refcount, ClassPool.refcount_of_dead (by simpa using hl)] at hlive
      exact absurd hlive (by decide)
  saturates c := by
    refine ⟨?_, ?_⟩
    · rw [(h c).1.counted]
      exact List.countP_le_length
    · have hle := (h c).1.paged_le
      rwa [(h c).2] at hle
  held := by
    have hheld : ∀ c, (s.classes c).bytesHeld + (s.classes c).pagedFree * c.size =
        (s.classes c).regions.length * regionSize := by
      intro c
      have hc := (h c).1.held
      rwa [(h c).2] at hc
    have h₁ := hheld .s4k
    have h₂ := hheld .s16k
    have h₃ := hheld .s64k
    rw [Finset.sum_insert (by decide), Finset.sum_insert (by decide), Finset.sum_singleton,
      Finset.sum_insert (by decide), Finset.sum_insert (by decide), Finset.sum_singleton,
      BufferPool.bytesHeld]
    omega

theorem run_residents {pagesOut : Bool} {ops : List Op} (h : (pools pagesOut).Along Room ops) :
    Residents ((pools pagesOut).run ops) :=
  (pools pagesOut).run_invariant_along (I := Residents) (fun c => ⟨.new c, rfl⟩)
    (fun _ op hs hroom => poolStep_residents op hs hroom) ops h

theorem run_warm {ops : List Op} (h : (pools true).Along Room ops) (htame : ∀ op ∈ ops, Tame op) :
    ∀ c, (((pools true).run ops).classes c).Warm := by
  revert h htame
  refine (pools true).run_induction (motive := fun ops s => (pools true).Along Room ops →
    (∀ op ∈ ops, Tame op) → ∀ c, (s.classes c).Warm) ?_ ?_ ops
  · intro _ _ c
    exact ⟨fun _ hr => absurd hr List.not_mem_nil, Nat.zero_le _⟩
  · intro ops op ih h htame
    have hops := h.of_append
    exact poolStep_warm op (run_residents hops)
      (ih hops fun op hop => htame op (List.mem_append_left _ hop)) (htame op (by simp))

/-- **The accounts of the free slots agree** while every slot has an index; a slot that is handed out
is resident where one is free; and where everything pages out, few free slots are resident. -/
theorem residency (pagesOut : Bool) (ops : List Op) (h : (pools pagesOut).Along Room ops) :
    let s := (pools pagesOut).run ops
    Accounted s ∧
      (∀ c region, (s.classes c).Room → ∃ id pool, s.acquire c region = some (id, pool) ∧
        let p := (s.classes c).grown region
        (p.isPaged id.index = false → 0 < p.residentFree) ∧
          ((∃ i ∈ p.freelist, p.isPaged i = false) → p.isPaged id.index = false)) ∧
      (pagesOut = true → (∀ op ∈ ops, Tame op) →
        ∀ c, (s.classes c).residentFree ≤ residentFreeSlots) := by
  intro s
  have hs : Residents s := run_residents h
  refine ⟨hs.accounted, fun c region hroom => ?_, ?_⟩
  · obtain ⟨id, p, hacquire, hhanded⟩ := (hs c).1.handed hroom region
    have hsome : s.acquire c region = some (id, ⟨Function.update s.classes c p,
        if (s.classes c).freelist = [] then true else s.regionsDirty⟩) := by
      unfold BufferPool.acquire
      rw [hacquire]
    exact ⟨id, _, hsome, hhanded⟩
  · rintro rfl htame c
    exact (run_warm h htame c).few

/-- A slot used, and paged out again. -/
theorem residency_reuse :
    let ops : List Op := [.acquire .s64k ⟨4096, none, false, false⟩, .release ⟨.s64k, 0, 0⟩ true]
    Accounted ((pools true).run ops) ∧ (((pools true).run ops).classes .s64k).residentFree = 1 := by
  intro ops
  have h : (pools true).Along Room ops := by
    have h₁ : (pools true).Along Room [.acquire .s64k ⟨4096, none, false, false⟩] :=
      (Machine.along_singleton _).mpr fun _ => by decide
    have h₂ : Room ((pools true).run [.acquire .s64k ⟨4096, none, false, false⟩])
        (.release ⟨.s64k, 0, 0⟩ true) := trivial
    exact (Machine.along_concat _).mpr ⟨h₁, h₂⟩
  exact ⟨(residency true ops h).1, by decide⟩

/-! ## 6. 2^32 slots -/

def fresh : Region := ⟨4096, none, false, false⟩

/-- The small slots after `n` of them were handed out, and none came back. -/
structure Spent (n : Nat) (p : ClassPool) : Prop where
  resident : p.Resident
  sizeClass : p.sizeClass = .s4k
  length : p.regions.length * 512 = n + p.freelist.length
  few : p.freelist.length < 512
  none : p.residentFree = 0
  used : ∀ i : UInt32, i.toNat < p.regions.length * 512 → i ∉ p.freelist → p.isPaged i = false

theorem Spent.grown {n : Nat} {p : ClassPool} (h : Spent n p) (hlt : n < 2 ^ 32) :
    (p.grown fresh).Resident ∧ (p.grown fresh).sizeClass = .s4k ∧
      (p.grown fresh).regions.length * 512 = n + (p.grown fresh).freelist.length ∧
      (p.grown fresh).freelist.length ≤ 512 ∧ (p.grown fresh).residentFree = 0 ∧
      ∀ i : UInt32, i.toNat < (p.grown fresh).regions.length * 512 →
        i ∉ (p.grown fresh).freelist → (p.grown fresh).isPaged i = false := by
  have hper : p.sizeClass.slotsPerRegion = 512 := by
    rw [h.sizeClass]
    rfl
  have hroom : p.Room := by
    intro hnone
    have hlength := h.length
    rw [hnone, List.length_nil] at hlength
    rw [hper]
    omega
  refine ⟨h.resident.grown hroom fresh, ?_⟩
  unfold ClassPool.grown
  split
  · rename_i hnone
    have hlength := h.length
    rw [hnone, List.length_nil, Nat.add_zero] at hlength
    have hfits := ClassPool.room_of_lt (hroom hnone)
    have hfree := p.addRegion_freelist fresh
    rw [hnone, List.nil_append, hper, hlength] at hfree
    rw [hper, hlength] at hfits
    refine ⟨h.sizeClass, ?_, ?_, h.none, ?_⟩
    · rw [hfree, List.length_reverse, added, List.length_map, List.length_range]
      show (p.regions ++ [fresh]).length * 512 = _
      rw [List.length_append, List.length_singleton, Nat.add_mul, hlength]
    · rw [hfree, List.length_reverse, added, List.length_map, List.length_range]
    · intro i hi hnot
      rw [hfree, List.mem_reverse, mem_added hfits] at hnot
      have hi : i.toNat < (p.regions ++ [fresh]).length * 512 := hi
      rw [List.length_append, List.length_singleton, Nat.add_mul, hlength] at hi
      have hlt' : i.toNat < n := by omega
      have hold : i.toNat < p.regions.length * 512 := by
        rw [hlength]
        exact hlt'
      have hused := h.used i hold (by rw [hnone]; exact List.not_mem_nil)
      show (p.pagedOut ++ _).getD _ _ = false
      rw [List.getD_eq_getElem?_getD, List.getElem?_append_left
        (by rw [h.resident.shaped.pagedOut, hper]; exact hold), ← List.getD_eq_getElem?_getD]
      exact hused
  · exact ⟨h.sizeClass, h.length, Nat.le_of_lt h.few, h.none, h.used⟩

theorem Spent.acquire {n : Nat} {p : ClassPool} (h : Spent n p) (hlt : n < 2 ^ 32) :
    ∃ id p', p.acquire fresh = some (id, p') ∧ Spent (n + 1) p' := by
  obtain ⟨hresident, hclass, hlength, hfew, hnone, hused⟩ := h.grown hlt
  obtain ⟨i, hlast⟩ := Option.isSome_iff_exists.mp
    (List.getLast?_isSome.mpr (ClassPool.Resident.grown_ne p fresh))
  obtain ⟨id, p', hacquire⟩ := ClassPool.Resident.acquire_of_last hresident.shaped hlast
    (hresident.index_lt (List.mem_of_getLast? hlast))
  refine ⟨id, p', hacquire, ?_⟩
  obtain ⟨front, m, hfree, rfl⟩ := ClassPool.acquire_some hacquire
  have hcut : (p.grown fresh).freelist.length = front.length + 1 := by
    rw [hfree, List.length_append, List.length_singleton]
  constructor
  · exact hresident.taken hfree m
  · exact hclass
  · show (p.grown fresh).regions.length * 512 = n + 1 + front.length
    omega
  · show front.length < 512
    omega
  · dsimp only
    rw [hnone]
    split <;> rfl
  · intro j hj hnot
    by_cases hji : j = id.index
    · have hpaged : j.toNat < (p.grown fresh).pagedOut.length := by
        rw [hresident.shaped.pagedOut, hclass]
        exact hj
      show ((p.grown fresh).pagedOut.set id.index.toNat false).getD j.toNat false = false
      rw [← hji, List.getD_eq_getElem?_getD, List.getElem?_set_self hpaged]
      rfl
    · show ((p.grown fresh).pagedOut.set id.index.toNat false).getD j.toNat false = false
      rw [ClassPool.Resident.isPaged_set _ _ _ _ hji]
      apply hused j hj
      rw [hfree]
      intro hmem
      rcases List.mem_append.mp hmem with hmem | hmem
      · exact hnot hmem
      · exact hji (List.mem_singleton.mp hmem)

theorem run_spent {n : Nat} (h : n ≤ 2 ^ 32) :
    Spent n (((pools true).run (List.replicate n (.acquire .s4k fresh))).classes .s4k) := by
  induction n with
  | zero => exact ⟨.new .s4k, rfl, rfl, by decide, rfl, fun _ hi => absurd hi (Nat.not_lt_zero _)⟩
  | succ n ih =>
    rw [List.replicate_succ', Machine.run_concat]
    have hspent := ih (by omega)
    generalize (pools true).run (List.replicate n (.acquire .s4k fresh)) = s at hspent ⊢
    obtain ⟨id, p, hacquire, hnext⟩ := hspent.acquire (by omega)
    have hstep : ((pools true).step s (.acquire .s4k fresh)).classes = Function.update s.classes .s4k p := by
      show (poolStep true s (.acquire .s4k fresh)).classes = _
      unfold poolStep BufferPool.acquire
      dsimp only
      rw [hacquire]
    rw [hstep, Function.update_self]
    exact hnext

/-- Once all 2^32 indices are handed out, those of a new region are the first ones again. -/
theorem spent_full {p : ClassPool} (h : Spent (2 ^ 32) p) :
    ∃ id p', p.acquire fresh = some (id, p') ∧
      p'.residentFree ≠ p'.freelist.countP fun i => !p'.isPaged i := by
  have hnone : p.freelist = [] := by
    have hlength := h.length
    have hfew := h.few
    apply List.eq_nil_of_length_eq_zero
    omega
  have hregions : p.regions.length * 512 = 2 ^ 32 := by
    rw [h.length, hnone]
    rfl
  have hgrown : p.grown fresh = p.addRegion fresh := if_pos hnone
  have hbase : UInt32.ofNat (p.regions.length * p.sizeClass.slotsPerRegion) = 0 := by
    rw [h.sizeClass]
    show UInt32.ofNat (p.regions.length * 512) = 0
    rw [hregions]
    rfl
  have hfree : (p.addRegion fresh).freelist = ((List.range 512).map UInt32.ofNat).reverse := by
    show p.freelist ++ (List.range p.sizeClass.slotsPerRegion).reverse.map _ = _
    rw [hnone, hbase, h.sizeClass, List.nil_append, List.map_reverse]
    simp only [UInt32.zero_add]
    rfl
  have hlast : (p.addRegion fresh).freelist.getLast? = some 0 := by
    rw [hfree, List.getLast?_reverse, List.head?_map, List.head?_range]
    rfl
  have hshaped := ClassPool.addRegion_shaped h.resident.shaped fresh
  obtain ⟨id, p', hacquire⟩ := ClassPool.Resident.acquire_of_last (hgrown ▸ hshaped)
    (by rw [hgrown]; exact hlast) (by
      rw [hgrown]
      show 0 < (p.regions ++ [fresh]).length * p.sizeClass.slotsPerRegion
      rw [List.length_append]
      exact Nat.mul_pos (by simp) p.sizeClass.slotsPerRegion_pos)
  refine ⟨id, p', hacquire, ?_⟩
  obtain ⟨front, n, hsplit, rfl⟩ := ClassPool.acquire_some hacquire
  rw [hgrown] at hsplit ⊢
  have hindex : id.index = 0 := by
    rw [hsplit, List.getLast?_concat] at hlast
    injection hlast
  -- the second index is free again, and its slot is in use
  have hfront : (1 : UInt32) ∈ front := by
    have hmem : (1 : UInt32) ∈ front ++ [id.index] := by
      rw [← hsplit, hfree, List.mem_reverse]
      exact List.mem_map.mpr ⟨1, List.mem_range.mpr (by decide), rfl⟩
    rcases List.mem_append.mp hmem with hmem | hmem
    · exact hmem
    · rw [hindex] at hmem
      exact absurd (List.mem_singleton.mp hmem) (by decide)
  have hused : (p.addRegion fresh).isPaged 1 = false := by
    have hlt : (1 : UInt32).toNat < p.regions.length * 512 := by
      rw [hregions]
      decide
    show (p.pagedOut ++ _).getD _ _ = false
    rw [List.getD_eq_getElem?_getD, List.getElem?_append_left
      (by rw [h.resident.shaped.pagedOut, h.sizeClass]; exact hlt), ← List.getD_eq_getElem?_getD]
    exact h.used 1 hlt (by rw [hnone]; exact List.not_mem_nil)
  have hcount : (p.addRegion fresh).residentFree = 0 := h.none
  dsimp only
  rw [hcount, Nat.zero_sub, ite_self]
  apply Nat.ne_of_lt
  apply List.countP_pos_iff.mpr
  refine ⟨1, hfront, ?_⟩
  show (!((p.addRegion fresh).pagedOut.set id.index.toNat false).getD (1 : UInt32).toNat false) = true
  rw [ClassPool.Resident.isPaged_set _ _ _ _ (by rw [hindex]; decide), hused]
  rfl

/-- With 2^32 small buffers in use, one more is not accounted for. -/
theorem not_accounted_past_u32 :
    ¬ ∀ pagesOut ops, Accounted ((pools pagesOut).run ops) := by
  intro h
  obtain ⟨n, hn⟩ : ∃ n, n = 2 ^ 32 := ⟨_, rfl⟩
  have haccounted := (h true (List.replicate n (.acquire .s4k fresh) ++ [.acquire .s4k fresh])).counted .s4k
  rw [Machine.run_concat] at haccounted
  have hspent := run_spent (Nat.le_of_eq hn)
  generalize (pools true).run (List.replicate n (.acquire .s4k fresh)) = s at haccounted hspent
  rw [hn] at hspent
  obtain ⟨id, p, hacquire, hcount⟩ := spent_full hspent
  have hstep : (poolStep true s (.acquire .s4k fresh)).classes = Function.update s.classes .s4k p := by
    unfold poolStep BufferPool.acquire
    dsimp only
    rw [hacquire]
  have haccounted : ((poolStep true s (.acquire .s4k fresh)).classes .s4k).residentFree =
    ((poolStep true s (.acquire .s4k fresh)).classes .s4k).freelist.countP
      fun i => !((poolStep true s (.acquire .s4k fresh)).classes .s4k).isPaged i := haccounted
  rw [hstep, Function.update_self] at haccounted
  exact hcount haccounted

end Cadeloop.Core.Buffers
