import Mathlib

/-!
# d-ary heaps in an array

The implicit tree: position `i > 0` hangs below `(i - 1) / d`.  Sifting moves one entry along a
path, `heapify` sifts every parent down from the last one, and `partition` gathers the entries to
keep at the front, in place.  Keys are compared; the entries themselves are only moved.
-/

namespace Cadeloop.Reasoning.DaryHeap

section Swap

variable {ε : Type*} {a : Array ε} {i j k : Nat}

/-- The position whose entry stands at `k` after positions `i` and `j` were swapped. -/
def swapped (i j k : Nat) : Nat := if k = i then j else if k = j then i else k

theorem getElem?_swap (hi : i < a.size) (hj : j < a.size) (k : Nat) :
    (a.swapIfInBounds i j)[k]? = a[swapped i j k]? := by
  rw [Array.swapIfInBounds_def, dif_pos hi, dif_pos hj, Array.getElem?_swap, swapped]
  by_cases hki : k = i
  · rw [if_pos hki, Array.getElem?_eq_getElem hj, if_pos hki.symm]
    by_cases hjk : j = k
    · rw [if_pos hjk]
      congr 1
      simp only [← hki, hjk]
    · rw [if_neg hjk]
  · rw [if_neg hki]
    by_cases hkj : k = j
    · rw [if_pos hkj.symm, if_pos hkj, Array.getElem?_eq_getElem hi]
    · rw [if_neg (Ne.symm hkj), if_neg (Ne.symm hki), if_neg hkj]

theorem swap_perm (a : Array ε) (i j : Nat) : (a.swapIfInBounds i j).toList.Perm a.toList := by
  rw [Array.swapIfInBounds_def]
  split
  · split
    · exact (Array.swap_perm _ _).toList
    · exact List.Perm.refl _
  · exact List.Perm.refl _

end Swap

variable {ε κ : Type*} [LinearOrder κ] (key : ε → κ) (d : Nat)

/-! ## 1. Order along the tree -/

/-- Strictly smaller key at `i` than at `j`, both being positions of the array. -/
def less (a : Array ε) (i j : Nat) : Bool :=
  match a[i]?, a[j]? with
  | some x, some y => decide (key x < key y)
  | _, _ => false

/-- The key at `i` is at most the key at `j`, where both positions exist. -/
def Le (a : Array ε) (i j : Nat) : Prop :=
  ∀ x y, a[i]? = some x → a[j]? = some y → key x ≤ key y

variable {key} in
theorem Le.refl (a : Array ε) (i : Nat) : Le key a i i := by
  intro x y hx hy
  rw [hx] at hy
  injection hy with hy
  rw [hy]

variable {key} in
theorem Le.trans {a : Array ε} {i j k : Nat} (hij : Le key a i j) (hj : j < a.size)
    (hjk : Le key a j k) : Le key a i k := by
  intro x z hx hz
  have hy := Array.getElem?_eq_getElem hj
  exact le_trans (hij x a[j] hx hy) (hjk a[j] z hy hz)

theorem le_swap {a : Array ε} {i j : Nat} (hi : i < a.size) (hj : j < a.size) (p q : Nat) :
    Le key (a.swapIfInBounds i j) p q ↔ Le key a (swapped i j p) (swapped i j q) := by
  simp only [Le, getElem?_swap hi hj]

theorem of_less {a : Array ε} {i j : Nat} (h : less key a i j = true) :
    i < a.size ∧ j < a.size ∧ Le key a i j := by
  unfold less at h
  split at h
  · rename_i x y hx hy
    refine ⟨(Array.getElem?_eq_some_iff.mp hx).1, (Array.getElem?_eq_some_iff.mp hy).1, ?_⟩
    intro x' y' hx' hy'
    rw [hx] at hx'
    rw [hy] at hy'
    injection hx' with hx'
    injection hy' with hy'
    subst hx' hy'
    exact le_of_lt (by simpa using h)
  · cases h

theorem of_not_less {a : Array ε} {i j : Nat} (h : less key a i j ≠ true) : Le key a j i := by
  intro y x hy hx
  rw [less, hx, hy] at h
  exact not_lt.mp (by simpa using h)

def parent (i : Nat) : Nat := (i - 1) / d

theorem parent_lt {i : Nat} (h : 0 < i) : parent d i < i := by
  have := Nat.div_le_self (i - 1) d
  unfold parent
  omega

/-- Every edge whose parent stands at `m` or later is in order. -/
def HeapFrom (m : Nat) (a : Array ε) : Prop :=
  ∀ c, 0 < c → m ≤ parent d c → Le key a (parent d c) c

variable {key d} in
/-- **The root of a heap is a least entry.** -/
theorem HeapFrom.root_le {a : Array ε} (h : HeapFrom key d 0 a) (i : Nat) (hi : i < a.size) :
    Le key a 0 i := by
  induction i using Nat.strong_induction_on with
  | _ i ih =>
    rcases Nat.eq_zero_or_pos i with rfl | hpos
    · exact Le.refl a 0
    · have hlt := parent_lt d hpos
      exact (ih _ hlt (by omega)).trans (by omega) (h i hpos (Nat.zero_le _))

/-! ## 2. Sifting up -/

def siftUp (a : Array ε) (i : Nat) : Array ε :=
  if 0 < i ∧ less key a i (parent d i) = true then
    siftUp (a.swapIfInBounds i (parent d i)) (parent d i)
  else a
termination_by i
decreasing_by exact parent_lt d (And.left ‹_›)

theorem siftUp_perm (a : Array ε) (i : Nat) : (siftUp key d a i).toList.Perm a.toList := by
  induction a, i using siftUp.induct key d with
  | case1 a i h ih =>
    rw [siftUp, if_pos h]
    exact ih.trans (swap_perm _ _ _)
  | case2 a i h =>
    rw [siftUp, if_neg h]

/-- In order but for the edge above `i`; the entry above fits the edges below `i`. -/
structure UpReady (a : Array ε) (i : Nat) : Prop where
  off : ∀ c, 0 < c → c ≠ i → Le key a (parent d c) c
  across : 0 < i → ∀ c, 0 < c → parent d c = i → Le key a (parent d i) c

variable {key d} in
theorem UpReady.move {a : Array ε} {i : Nat} (h : UpReady key d a i) (hi : 0 < i)
    (hless : less key a i (parent d i) = true) :
    UpReady key d (a.swapIfInBounds i (parent d i)) (parent d i) := by
  obtain ⟨hib, hpb, hle⟩ := of_less key hless
  have hlt := parent_lt d hi
  constructor
  · intro c hc hcp
    have hcl := parent_lt d hc
    rw [le_swap key hib hpb]
    by_cases hci : c = i
    · subst hci
      rw [swapped, swapped, if_neg (by omega), if_pos rfl, if_pos rfl]
      exact hle
    · have hc' : swapped i (parent d i) c = c := by rw [swapped, if_neg hci, if_neg hcp]
      rw [hc']
      by_cases hpi : parent d c = i
      · rw [hpi, swapped, if_pos rfl]
        exact h.across hi c hc hpi
      · by_cases hpp : parent d c = parent d i
        · rw [hpp, swapped, if_neg (by omega), if_pos rfl]
          have hedge := h.off c hc hci
          rw [hpp] at hedge
          exact hle.trans hpb hedge
        · rw [swapped, if_neg hpi, if_neg hpp]
          exact h.off c hc hci
  · intro hp c hc hpc
    have hcl := parent_lt d hc
    have hpl := parent_lt d hp
    have hup := h.off (parent d i) hp (by omega)
    have hpp : swapped i (parent d i) (parent d (parent d i)) = parent d (parent d i) := by
      rw [swapped, if_neg (by omega), if_neg (by omega)]
    rw [le_swap key hib hpb, hpp]
    by_cases hci : c = i
    · rw [hci, swapped, if_pos rfl]
      exact hup
    · rw [swapped, if_neg hci, if_neg (by omega)]
      have hedge := h.off c hc hci
      rw [hpc] at hedge
      exact hup.trans hpb hedge

theorem siftUp_heap {a : Array ε} {i : Nat} (h : UpReady key d a i) :
    HeapFrom key d 0 (siftUp key d a i) := by
  induction a, i using siftUp.induct key d with
  | case1 a i hc ih =>
    rw [siftUp, if_pos hc]
    exact ih (h.move hc.1 hc.2)
  | case2 a i hc =>
    rw [siftUp, if_neg hc]
    intro c hpos _
    by_cases hci : c = i
    · subst hci
      exact of_not_less key fun hless => hc ⟨hpos, hless⟩
    · exact h.off c hpos hci

/-- Push an entry and sift it up. -/
def insert (a : Array ε) (x : ε) : Array ε := siftUp key d (a.push x) a.size

theorem insert_perm (a : Array ε) (x : ε) :
    (insert key d a x).toList.Perm (x :: a.toList) := by
  have hpush : (a.push x).toList.Perm (x :: a.toList) := by
    rw [Array.toList_push]
    exact List.perm_append_singleton x a.toList
  exact (siftUp_perm key d _ _).trans hpush

theorem insert_heap {a : Array ε} (h : HeapFrom key d 0 a) (x : ε) :
    HeapFrom key d 0 (insert key d a x) := by
  apply siftUp_heap
  constructor
  · intro c hc hne u v hu hv
    have hcb : c < (a.push x).size := (Array.getElem?_eq_some_iff.mp hv).1
    rw [Array.size_push] at hcb
    have hlt := parent_lt d hc
    rw [Array.getElem?_push_lt (by omega)] at hu hv
    exact h c hc (Nat.zero_le _) u v (by rw [Array.getElem?_eq_getElem (by omega), hu])
      (by rw [Array.getElem?_eq_getElem (by omega), hv])
  · intro _ c hc hpc u v _ hv
    have hcb : c < (a.push x).size := (Array.getElem?_eq_some_iff.mp hv).1
    rw [Array.size_push] at hcb
    have hlt := parent_lt d hc
    omega

/-! ## 3. Sifting down -/

/-- The children of `i` in an array of `n`. -/
def children (n i : Nat) : List Nat :=
  List.range' (i * d + 1) (min (i * d + 1 + d) n - (i * d + 1))

theorem children_bounds {n i c : Nat} (h : c ∈ children d n i) : i < c ∧ c < n := by
  rw [children, List.mem_range'_1] at h
  rcases Nat.eq_zero_or_pos d with rfl | hd
  · omega
  · have := Nat.le_mul_of_pos_right i hd
    omega

theorem mem_children [NeZero d] {n i c : Nat} :
    c ∈ children d n i ↔ (0 < c ∧ parent d c = i) ∧ c < n := by
  have hd := Nat.pos_of_neZero d
  have hlo := Nat.le_div_iff_mul_le hd (x := i) (y := c - 1)
  have hhi := Nat.div_lt_iff_lt_mul hd (x := c - 1) (y := i + 1)
  rw [Nat.add_mul, Nat.one_mul] at hhi
  rw [children, List.mem_range'_1, parent]
  omega

/-- The position of a least key among `i` and its children, `i` itself on ties. -/
def minChild (a : Array ε) (i : Nat) : Nat :=
  (children d a.size i).foldl (fun min c => if less key a c min then c else min) i

-- the scan keeps a least position of those it has passed
theorem foldl_less_le {a : Array ε} (cs : List Nat) (m : Nat) (hm : m < a.size)
    (hcs : ∀ c ∈ cs, c < a.size) :
    let r := cs.foldl (fun min c => if less key a c min then c else min) m
    (r = m ∨ r ∈ cs) ∧ Le key a r m ∧ ∀ c ∈ cs, Le key a r c := by
  induction cs generalizing m with
  | nil => exact ⟨.inl rfl, Le.refl a m, by simp⟩
  | cons c cs ih =>
    have hc := hcs c List.mem_cons_self
    have hrest : ∀ c ∈ cs, c < a.size := fun c hc => hcs c (List.mem_cons_of_mem _ hc)
    simp only [List.foldl_cons]
    by_cases hless : less key a c m = true
    · rw [if_pos hless]
      obtain ⟨hmem, hle, hall⟩ := ih c hc hrest
      refine ⟨.inr ?_, hle.trans hc (of_less key hless).2.2, ?_⟩
      · rcases hmem with h | h
        · rw [h]; exact List.mem_cons_self
        · exact List.mem_cons_of_mem _ h
      · exact List.forall_mem_cons.mpr ⟨hle, hall⟩
    · rw [if_neg hless]
      obtain ⟨hmem, hle, hall⟩ := ih m hm hrest
      refine ⟨hmem.imp_right (List.mem_cons_of_mem _), hle, ?_⟩
      exact List.forall_mem_cons.mpr ⟨hle.trans hm (of_not_less key hless), hall⟩

theorem minChild_spec {a : Array ε} {i : Nat} (hi : i < a.size) :
    (minChild key d a i = i ∨ minChild key d a i ∈ children d a.size i) ∧
      Le key a (minChild key d a i) i ∧
      ∀ c ∈ children d a.size i, Le key a (minChild key d a i) c :=
  foldl_less_le key (children d a.size i) i hi fun _ hc => (children_bounds d hc).2

def siftDown (a : Array ε) (i : Nat) : Array ε :=
  if _h : i * d + 1 < a.size then
    if _hm : minChild key d a i ≠ i then
      siftDown (a.swapIfInBounds i (minChild key d a i)) (minChild key d a i)
    else a
  else a
termination_by a.size - i
decreasing_by
  have hi : i < a.size := by
    rcases Nat.eq_zero_or_pos d with rfl | hd
    · have hnone : children 0 a.size i = [] := by
        rw [children, show min (i * 0 + 1 + 0) a.size - (i * 0 + 1) = 0 by omega]
        rfl
      exact absurd (by rw [minChild, hnone]; rfl) _hm
    · have := Nat.le_mul_of_pos_right i hd
      omega
  have hmem := (minChild_spec key d hi).1.resolve_left _hm
  have hlt := children_bounds d hmem
  rw [Array.size_swapIfInBounds]
  omega

theorem siftDown_perm (a : Array ε) (i : Nat) : (siftDown key d a i).toList.Perm a.toList := by
  induction a, i using siftDown.induct key d with
  | case1 a i h hm ih =>
    rw [siftDown, dif_pos h, dif_pos hm]
    exact ih.trans (swap_perm _ _ _)
  | case2 a i h hm =>
    rw [siftDown, dif_pos h, dif_neg hm]
  | case3 a i h =>
    rw [siftDown, dif_neg h]

section Order

variable [NeZero d]

theorem lt_of_firstChild {n i : Nat} (h : i * d + 1 < n) : i < n := by
  have hd := Nat.pos_of_neZero d
  have := Nat.le_mul_of_pos_right i hd
  omega

/-- In order from `m` on but for the edges below `i`; the entry above `i` fits them. -/
structure DownReady (m : Nat) (a : Array ε) (i : Nat) : Prop where
  off : ∀ c, 0 < c → m ≤ parent d c → parent d c ≠ i → Le key a (parent d c) c
  across : 0 < i → m ≤ parent d i → ∀ c, 0 < c → parent d c = i → Le key a (parent d i) c

variable {key} in
-- positions outside the array constrain nothing
theorem le_of_children {a : Array ε} {i j c : Nat} (hpc : parent d c = i) (hc : 0 < c)
    (h : ∀ c ∈ children d a.size i, Le key a j c) : Le key a j c := by
  intro x y hx hy
  have hcb : c < a.size := (Array.getElem?_eq_some_iff.mp hy).1
  exact h c ((mem_children d).mpr ⟨⟨hc, hpc⟩, hcb⟩) x y hx hy

variable {key d} in
theorem DownReady.move {m : Nat} {a : Array ε} {i j : Nat} (h : DownReady key d m a i)
    (hj : j ∈ children d a.size i) (hle : Le key a j i)
    (hmin : ∀ c ∈ children d a.size i, Le key a j c) :
    DownReady key d m (a.swapIfInBounds i j) j := by
  obtain ⟨⟨hjpos, hpj⟩, hjb⟩ := (mem_children d).mp hj
  have hij := parent_lt d hjpos
  rw [hpj] at hij
  have hib : i < a.size := by omega
  constructor
  · intro c hc hmc hcj
    have hcl := parent_lt d hc
    rw [le_swap key hib hjb]
    by_cases hpi : parent d c = i
    · have hpar : swapped i j (parent d c) = j := by rw [hpi, swapped, if_pos rfl]
      rw [hpar]
      by_cases hcj' : c = j
      · rw [hcj', swapped, if_neg (by omega), if_pos rfl]
        exact hle
      · rw [swapped, if_neg (by omega), if_neg hcj']
        exact le_of_children d hpi hc hmin
    · have hpar : swapped i j (parent d c) = parent d c := by
        rw [swapped, if_neg hpi, if_neg hcj]
      rw [hpar]
      by_cases hci : c = i
      · subst hci
        rw [swapped, if_pos rfl]
        exact h.across hc hmc j hjpos hpj
      · have hne : c ≠ j := fun heq => hpi (by rw [heq, hpj])
        rw [swapped, if_neg hci, if_neg hne]
        exact h.off c hc hmc hpi
  · intro _ hmj c hc hpc
    have hcl := parent_lt d hc
    rw [hpj] at hmj
    rw [le_swap key hib hjb, hpj]
    have hpar : swapped i j i = j := by rw [swapped, if_pos rfl]
    have hkid : swapped i j c = c := by rw [swapped, if_neg (by omega), if_neg (by omega)]
    rw [hpar, hkid]
    have hedge := h.off c hc (by omega) (by omega)
    rwa [hpc] at hedge

theorem siftDown_heap {m : Nat} {a : Array ε} {i : Nat} (h : DownReady key d m a i) :
    HeapFrom key d m (siftDown key d a i) := by
  induction a, i using siftDown.induct key d with
  | case1 a i hc hm ih =>
    obtain ⟨hmem, hle, hmin⟩ := minChild_spec key d (lt_of_firstChild d hc)
    rw [siftDown, dif_pos hc, dif_pos hm]
    exact ih (h.move (hmem.resolve_left hm) hle hmin)
  | case2 a i hc hm =>
    have hmin := (minChild_spec key d (lt_of_firstChild d hc)).2.2
    rw [not_not.mp hm] at hmin
    rw [siftDown, dif_pos hc, dif_neg hm]
    intro c hpos hmc
    by_cases hpi : parent d c = i
    · rw [hpi]
      exact le_of_children d hpi hpos hmin
    · exact h.off c hpos hmc hpi
  | case3 a i hc =>
    rw [siftDown, dif_neg hc]
    intro c hpos hmc
    by_cases hpi : parent d c = i
    · -- no child of `i` is in the array
      intro x y _ hy
      have hcb : c < a.size := (Array.getElem?_eq_some_iff.mp hy).1
      have hkid := (mem_children d).mpr ⟨⟨hpos, hpi⟩, hcb⟩
      rw [children, List.mem_range'_1] at hkid
      omega
    · exact h.off c hpos hmc hpi

end Order

/-! ## 4. Removing the root -/

/-- The last entry takes the place of the first (`swap_remove(0)`). -/
def swapRemoveFirst (a : Array ε) : Array ε :=
  match a.back? with
  | none => a
  | some last => a.pop.setIfInBounds 0 last

/-- Remove the root and sift its replacement down. -/
def popRoot (a : Array ε) : Array ε :=
  if (swapRemoveFirst a).size > 1 then siftDown key d (swapRemoveFirst a) 0
  else swapRemoveFirst a

theorem swapRemoveFirst_perm {a : Array ε} {x : ε} (hx : a[0]? = some x) :
    a.toList.Perm (x :: (swapRemoveFirst a).toList) := by
  obtain ⟨l⟩ := a
  rw [List.getElem?_toArray] at hx
  rcases l with _ | ⟨y, l⟩
  · cases hx
  injection hx with hx
  subst hx
  rcases List.eq_nil_or_concat l with rfl | ⟨mid, last, rfl⟩
  · exact List.Perm.refl _
  · rw [List.concat_eq_append]
    have hback : ((y :: (mid ++ [last])).toArray).back? = some last := by
      rw [List.back?_toArray, ← List.cons_append, List.getLast?_append, List.getLast?_singleton]
      rfl
    have hpop : ((y :: (mid ++ [last])).toArray).pop = (y :: mid).toArray := by
      rw [List.pop_toArray, ← List.cons_append, List.dropLast_concat]
    have hrem : swapRemoveFirst (y :: (mid ++ [last])).toArray = (last :: mid).toArray := by
      rw [swapRemoveFirst, hback]
      dsimp only
      rw [hpop, List.setIfInBounds_toArray, List.set_cons_zero]
    rw [hrem]
    exact (List.perm_append_singleton last mid).cons y

theorem getElem?_swapRemoveFirst (a : Array ε) {i : Nat} (hi : 0 < i) :
    (swapRemoveFirst a)[i]? = if i < a.size - 1 then a[i]? else none := by
  unfold swapRemoveFirst
  split
  · rename_i hback
    rw [Array.back?_eq_none_iff] at hback
    subst hback
    simp
  · rw [Array.getElem?_setIfInBounds, if_neg (by omega), Array.getElem?_pop]

theorem popRoot_perm {a : Array ε} {x : ε} (hx : a[0]? = some x) :
    a.toList.Perm (x :: (popRoot key d a).toList) := by
  have hrem := swapRemoveFirst_perm hx
  unfold popRoot
  split
  · exact hrem.trans ((siftDown_perm key d _ 0).symm.cons x)
  · exact hrem

theorem popRoot_heap [NeZero d] {a : Array ε} (h : HeapFrom key d 0 a) :
    HeapFrom key d 0 (popRoot key d a) := by
  have hoff : ∀ c, 0 < c → parent d c ≠ 0 → Le key (swapRemoveFirst a) (parent d c) c := by
    intro c hc hp x y hx hy
    rw [getElem?_swapRemoveFirst a hc] at hy
    rw [getElem?_swapRemoveFirst a (Nat.pos_of_ne_zero hp)] at hx
    split at hx
    · split at hy
      · exact h c hc (Nat.zero_le _) x y hx hy
      · cases hy
    · cases hx
  unfold popRoot
  split
  · exact siftDown_heap key d ⟨fun c hc _ hp => hoff c hc hp, fun h0 => absurd h0 (by omega)⟩
  · rename_i hsmall
    intro c hc _ x y _ hy
    have hcb : c < (swapRemoveFirst a).size := (Array.getElem?_eq_some_iff.mp hy).1
    omega

/-! ## 5. Building a heap in place -/

/-- Floyd's construction: sift down from the last parent to the root. -/
def heapify (a : Array ε) : Array ε :=
  if a.size > 1 then
    (List.range ((a.size - 2) / d + 1)).reverse.foldl (siftDown key d) a
  else a

theorem foldl_siftDown_perm (is : List Nat) (a : Array ε) :
    (is.foldl (siftDown key d) a).toList.Perm a.toList := by
  induction is generalizing a with
  | nil => exact List.Perm.refl _
  | cons i is ih => exact (ih _).trans (siftDown_perm key d a i)

theorem heapify_perm (a : Array ε) : (heapify key d a).toList.Perm a.toList := by
  unfold heapify
  split
  · exact foldl_siftDown_perm key d _ a
  · exact List.Perm.refl _

-- sifting `i` down turns a heap from `i + 1` on into a heap from `i` on
theorem foldl_siftDown_heap [NeZero d] (k : Nat) (a : Array ε) (h : HeapFrom key d k a) :
    HeapFrom key d 0 ((List.range k).reverse.foldl (siftDown key d) a) := by
  induction k generalizing a with
  | zero => exact h
  | succ k ih =>
    rw [List.range_succ, List.reverse_append, List.reverse_singleton, List.singleton_append,
      List.foldl_cons]
    apply ih
    apply siftDown_heap
    constructor
    · exact fun c hc hkc hne => h c hc (by omega)
    · intro hk hkp
      have := parent_lt d hk
      omega

theorem heapify_heap [NeZero d] (a : Array ε) : HeapFrom key d 0 (heapify key d a) := by
  unfold heapify
  split
  · apply foldl_siftDown_heap
    intro c hc hp x y _ hy
    have hcb : c < a.size := (Array.getElem?_eq_some_iff.mp hy).1
    have hle : parent d c ≤ (a.size - 2) / d := Nat.div_le_div_right (by omega)
    omega
  · intro c hc _ x y _ hy
    have hcb : c < a.size := (Array.getElem?_eq_some_iff.mp hy).1
    omega

/-! ## 6. Partition in place -/

/-- One step of the scan: the entry at `i` goes behind the `n` kept so far, if it is kept. -/
def partitionStep (keep : ε → Bool) (s : Array ε × Nat) (i : Nat) : Array ε × Nat :=
  match s.1[i]? with
  | some x => if keep x then (s.1.swapIfInBounds s.2 i, s.2 + 1) else s
  | none => s

/-- The entries to keep moved to the front, and their number. -/
def partition (keep : ε → Bool) (a : Array ε) : Array ε × Nat :=
  (List.range a.size).foldl (partitionStep keep) (a, 0)

theorem swap_front (K D R : List ε) (x : ε) :
    ∃ D', D'.Perm D ∧
      (K ++ (D ++ x :: R)).toArray.swapIfInBounds K.length (K.length + D.length) =
        (K ++ [x] ++ (D' ++ R)).toArray := by
  rcases D with _ | ⟨y, D⟩
  · refine ⟨[], List.Perm.refl _, ?_⟩
    apply Array.ext_getElem?
    intro k
    rw [getElem?_swap (by simp) (by simp)]
    have hself : swapped K.length (K.length + ([] : List ε).length) k = k := by
      rw [swapped, List.length_nil, Nat.add_zero]
      split
      · omega
      · rfl
    rw [hself]
    simp
  · refine ⟨D ++ [y], List.perm_append_singleton y D, ?_⟩
    rw [Array.swapIfInBounds_def, dif_pos (by simp), dif_pos (by simp), Array.swap_def]
    simp

/-- From the kept `K` and the passed-over `D` on, the scan sorts the rest `R` to either. -/
theorem foldl_partitionStep (keep : ε → Bool) (R K D : List ε) :
    ∃ D', D'.Perm (D ++ R.filter fun x => !keep x) ∧
      (List.range' (K.length + D.length) R.length).foldl (partitionStep keep)
        ((K ++ (D ++ R)).toArray, K.length) =
        ((K ++ R.filter keep ++ D').toArray, (K ++ R.filter keep).length) := by
  induction R generalizing K D with
  | nil => exact ⟨D, by simp, by simp⟩
  | cons x R ih =>
    have hx : (K ++ (D ++ x :: R)).toArray[K.length + D.length]? = some x := by simp
    rw [List.length_cons, List.range'_succ, List.foldl_cons, partitionStep, hx]
    dsimp only
    by_cases hk : keep x = true
    · obtain ⟨E, hE, hswap⟩ := swap_front K D R x
      obtain ⟨D', hD', hfold⟩ := ih (K ++ [x]) E
      have hlen : (K ++ [x]).length + E.length = K.length + D.length + 1 := by
        rw [List.length_append, List.length_singleton, hE.length_eq]
        omega
      refine ⟨D', hD'.trans ?_, ?_⟩
      · rw [List.filter_cons_of_neg (by simp [hk])]
        exact hE.append_right _
      · rw [if_pos hk, hswap, ← hlen, List.filter_cons_of_pos hk]
        rw [List.length_append, List.length_singleton] at hfold ⊢
        rw [hfold]
        simp
    · obtain ⟨D', hD', hfold⟩ := ih K (D ++ [x])
      refine ⟨D', ?_, ?_⟩
      · rw [List.filter_cons_of_pos (by simpa using hk)]
        simpa using hD'
      · rw [if_neg hk, List.filter_cons_of_neg hk, ← hfold]
        simp [Nat.add_assoc]

theorem partition_spec (keep : ε → Bool) (a : Array ε) :
    let r := partition keep a
    r.1.toList.take r.2 = a.toList.filter keep ∧
      (r.1.toList.drop r.2).Perm (a.toList.filter fun x => !keep x) := by
  obtain ⟨D, hD, hfold⟩ := foldl_partitionStep keep a.toList [] []
  simp only [List.length_nil, Nat.add_zero, List.nil_append, Array.length_toList,
    Array.toArray_toList] at hfold hD
  dsimp only
  rw [partition, List.range_eq_range', hfold]
  dsimp only
  rw [List.take_left, List.drop_left]
  exact ⟨rfl, hD⟩

end Cadeloop.Reasoning.DaryHeap
