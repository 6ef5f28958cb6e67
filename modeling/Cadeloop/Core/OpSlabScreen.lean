import Cadeloop.Core.OpSlabRuns
import Cadeloop.Reasoning.Ranges

/-!
# Screening pointers in the operation slab

`OpSlab::contains_data_ptr`: whether a pointer a completion carries is the address of the data of
some slot.  The chunks are numbered as they were made and searched by address; they never move.
-/

namespace Cadeloop.Core.Ops

open Cadeloop.Reasoning

variable {D : Type*}

/-! ## 1. The screen -/

/-- The layout of a slot: its size, and where `data` is in it. -/
structure Layout where
  stride : Nat
  dataOff : Nat
  inside : dataOff < stride

def Layout.chunk (layout : Layout) : Nat := layout.stride * chunkSize

/-- Is `ptr` the address of some slot's `data`?  `none` where an index would panic. -/
def OpSlab.containsDataPtr (layout : Layout) (ptr : Nat) (s : OpSlab D) : Option Bool :=
  if layout.stride = 0 then some false
  else
    -- the last chunk that starts at or below `ptr` is the only candidate
    let place := Ranges.partitionPoint (fun entry : Nat × Nat => decide (entry.1 ≤ ptr)) s.byAddr
    if place = 0 then some false
    else
      match s.byAddr[place - 1]? with
      | none => some false
      | some (base, ci) =>
        let offset := ptr - base
        if offset ≥ layout.stride * chunkSize then some false
        else
          let idx := offset / layout.stride
          if ci * chunkSize < s.slots.length ∧ idx < chunkSize then
            some (decide (offset % layout.stride = layout.dataOff))
          else none

/-! ## 2. Where the chunks are -/

/-- The address a step puts a new chunk at, if it makes one. -/
def grownAt (s : OpSlab D) : Op D → List Nat
  | .post addr _ => if s.freelist = [] then [addr] else []
  | _ => []

/-- The addresses of the chunks a run makes, in the order it makes them. -/
def chunkAddrs (s : Run D) : List (Op D) → List Nat
  | [] => []
  | op :: ops => grownAt s.slab op ++ chunkAddrs (s.step op) ops

/-- No two chunks share an address. -/
def Apart (layout : Layout) (addrs : List Nat) : Prop :=
  addrs.Pairwise fun a b => a + layout.chunk ≤ b ∨ b + layout.chunk ≤ a

/-- The index by address lists the chunks, each with its number. -/
structure Placed (layout : Layout) (addrs : List Nat) (s : OpSlab D) : Prop where
  capacity : s.slots.length = addrs.length * chunkSize
  entries : ∀ addr ci, (addr, ci) ∈ s.byAddr ↔ addrs[ci]? = some addr
  ordered : Ranges.Ordered (fun entry : Nat × Nat => entry.1) (fun _ => layout.chunk) s.byAddr

theorem Layout.chunk_pos (layout : Layout) : 0 < layout.chunk :=
  Nat.mul_pos (Nat.lt_of_le_of_lt (Nat.zero_le _) layout.inside) (by decide)

variable {layout : Layout} {addrs : List Nat} {s : OpSlab D}

theorem placed_new (layout : Layout) (makeDefault : D) : Placed layout [] (OpSlab.new makeDefault) :=
  ⟨rfl, fun addr ci => by simp [OpSlab.new], List.Pairwise.nil⟩

/-- What leaves the chunks alone. -/
theorem Placed.congr {s' : OpSlab D} (h : Placed layout addrs s)
    (hslots : s'.slots.length = s.slots.length) (hindex : s'.byAddr = s.byAddr) :
    Placed layout addrs s' :=
  ⟨hslots.trans h.capacity, fun addr ci => hindex ▸ h.entries addr ci, hindex ▸ h.ordered⟩

theorem Placed.grow (h : Placed layout addrs s) {addr : Nat} (hapart : Apart layout (addrs ++ [addr])) :
    Placed layout (addrs ++ [addr]) (s.grow addr) := by
  obtain ⟨low, high, hsplit, hplace, hlow, hhigh⟩ :=
    Ranges.partitionPoint_split (fun entry : Nat × Nat => decide (entry.1 < addr)) s.byAddr
  have hpos := layout.chunk_pos
  have hnumber : s.capacity / chunkSize = addrs.length := by
    unfold OpSlab.capacity
    rw [h.capacity, Nat.mul_div_cancel _ (by decide)]
  have hindex : (s.grow addr).byAddr = low ++ (addr, addrs.length) :: high := by
    show s.byAddr.insertIdx (Ranges.partitionPoint _ s.byAddr) (addr, s.capacity / chunkSize) = _
    rw [← hplace, hnumber, hsplit, Ranges.insertIdx_length]
  -- the new chunk is apart from each that is there
  have hdisjoint : ∀ entry ∈ s.byAddr,
      entry.1 + layout.chunk ≤ addr ∨ addr + layout.chunk ≤ entry.1 := by
    intro entry hentry
    have hin : entry.1 ∈ addrs := List.mem_of_getElem? ((h.entries entry.1 entry.2).mp hentry)
    exact (List.pairwise_append.mp hapart).2.2 entry.1 hin addr (List.mem_singleton.mpr rfl)
  constructor
  · show (s.slots ++ List.replicate chunkSize _).length = _
    rw [List.length_append, List.length_replicate, h.capacity, List.length_append,
      List.length_singleton, Nat.add_mul, Nat.one_mul]
  · intro a ci
    rw [hindex, List.perm_middle.mem_iff, List.mem_cons, ← hsplit, h.entries,
      List.getElem?_append]
    constructor
    · rintro (heq | hget)
      · injection heq with ha hci
        subst ha hci
        simp
      · have hlt := (List.getElem?_eq_some_iff.mp hget).1
        rw [if_pos hlt]
        exact hget
    · intro hget
      split at hget
      · exact .inr hget
      · rename_i hge
        obtain ⟨hlt, hval⟩ := List.getElem?_eq_some_iff.mp hget
        simp only [List.length_singleton] at hlt
        left
        rw [List.getElem_singleton] at hval
        rw [← hval, show ci = addrs.length by omega]
  · rw [hindex]
    have hordered := h.ordered
    rw [hsplit] at hordered hdisjoint
    apply hordered.insert
    · intro entry hlast
      have hin := List.mem_of_getLast? hlast
      have hbelow : entry.1 < addr := of_decide_eq_true (hlow entry hin)
      have happ := hdisjoint entry (List.mem_append_left _ hin)
      dsimp only
      omega
    · intro entry hfirst
      have habove : ¬ entry.1 < addr := of_decide_eq_false (hhigh entry hfirst)
      have happ := hdisjoint entry (List.mem_append_right _ (List.mem_of_head? hfirst))
      dsimp only
      omega

theorem Placed.post (h : Placed layout addrs s) {addr : Nat} (kind : OpKind)
    (hapart : Apart layout (addrs ++ if s.freelist = [] then [addr] else [])) {id : OpId} {s' : OpSlab D}
    (hpost : s.post addr kind = some (id, s')) :
    Placed layout (addrs ++ if s.freelist = [] then [addr] else []) s' := by
  have hgrown : Placed layout (addrs ++ if s.freelist = [] then [addr] else [])
      (if s.freelist = [] then s.grow addr else s) := by
    by_cases hfree : s.freelist = []
    · rw [if_pos hfree] at hapart
      rw [if_pos hfree, if_pos hfree]
      exact h.grow hapart
    · rw [if_neg hfree, if_neg hfree, List.append_nil]
      exact h
  unfold OpSlab.post at hpost
  generalize (if s.freelist = [] then s.grow addr else s) = grown at hpost hgrown
  dsimp only at hpost
  split at hpost
  · cases hpost
  split at hpost
  · cases hpost
  injection hpost with hpost
  injection hpost with hid hslab
  rw [← hslab]
  exact hgrown.congr List.length_set rfl

/-- A slab that has just grown hands out a slot of the new chunk. -/
theorem post_isSome_of_empty (hfree : s.freelist = []) (addr : Nat) (kind : OpKind) :
    ∃ id s', s.post addr kind = some (id, s') := by
  have hgrown := s.grow_freelist addr
  rw [hfree, List.append_nil] at hgrown
  have hhead : Recycling.Tracks.added s.capacity chunkSize =
      UInt32.ofNat s.capacity :: (Recycling.Tracks.added s.capacity chunkSize).tail := rfl
  rw [hhead] at hgrown
  have hne : (s.grow addr).freelist ≠ [] := by
    rw [hgrown]
    exact List.cons_ne_nil _ _
  -- the index is a `u32`, so it is below the capacity even where it wraps
  have hlt : (UInt32.ofNat s.capacity).toNat < (s.grow addr).slots.length := by
    show _ < (s.slots ++ List.replicate chunkSize _).length
    rw [List.length_append, List.length_replicate, UInt32.toNat_ofNat']
    have hle := Nat.mod_le s.capacity (2 ^ 32)
    unfold OpSlab.capacity chunkSize at *
    omega
  have hslot : (s.grow addr).slot (UInt32.ofNat s.capacity) =
      some (s.grow addr).slots[(UInt32.ofNat s.capacity).toNat] := List.getElem?_eq_getElem hlt
  rw [OpSlab.post_of_empty hfree, OpSlab.post, if_neg hne, hgrown]
  dsimp only
  rw [hslot]
  exact ⟨_, _, rfl⟩

/-- The other operations write a slot at most. -/
structure Kept (s s' : OpSlab D) : Prop where
  slots : s'.slots.length = s.slots.length
  index : s'.byAddr = s.byAddr

theorem Kept.refl (s : OpSlab D) : Kept s s := ⟨rfl, rfl⟩

theorem kept_setSlot (s : OpSlab D) (i : UInt32) (slot : OpSlot D) : Kept s (s.setSlot i slot) :=
  ⟨List.length_set, rfl⟩

theorem kept_getMut (s : OpSlab D) (id : OpId) (f : OpKind × D → OpKind × D) :
    Kept s (s.getMut id f) := by
  unfold OpSlab.getMut
  split
  · exact .refl s
  · exact kept_setSlot s _ _

theorem kept_markCancelled (s : OpSlab D) (id : OpId) : Kept s (s.markCancelled id).2 := by
  unfold OpSlab.markCancelled
  split
  · exact .refl s
  split
  · exact kept_setSlot s _ _
  all_goals exact .refl s

theorem kept_complete (s : OpSlab D) (id : OpId) : Kept s (s.complete id).2 := by
  unfold OpSlab.complete
  split
  · exact .refl s
  split
  · exact .refl s
  split
  · exact ⟨List.length_set, rfl⟩
  · exact ⟨List.length_set, rfl⟩
  all_goals exact .refl s

theorem kept_release (s : OpSlab D) (id : OpId) : Kept s (s.release id) := by
  unfold OpSlab.release
  split
  · exact .refl s
  split
  · exact ⟨List.length_set, rfl⟩
  · exact .refl s

theorem Placed.kept (h : Placed layout addrs s) {s' : OpSlab D} (hkept : Kept s s') :
    Placed layout (addrs ++ []) s' := by
  rw [List.append_nil]
  exact h.congr hkept.slots hkept.index

theorem Placed.step {r : Run D} (h : Placed layout addrs r.slab) (op : Op D)
    (hapart : Apart layout (addrs ++ grownAt r.slab op)) :
    Placed layout (addrs ++ grownAt r.slab op) (r.step op).slab := by
  cases op with
  | post addr kind =>
    cases hpost : r.slab.post addr kind with
    | some posted =>
      obtain ⟨id, slab⟩ := posted
      simp only [Run.step, hpost]
      exact h.post kind hapart hpost
    | none =>
      -- the `expect`s are on a list that was not empty, so nothing grew
      by_cases hfree : r.slab.freelist = []
      · obtain ⟨id, slab, hsome⟩ := post_isSome_of_empty hfree addr kind
        rw [hpost] at hsome
        cases hsome
      · simp only [Run.step, hpost, grownAt, if_neg hfree, List.append_nil]
        exact h
  | get id => exact h.kept (.refl r.slab)
  | getMut id f => exact h.kept (kept_getMut r.slab id f)
  | markCancelled id => exact h.kept (kept_markCancelled r.slab id)
  | complete id => exact h.kept (kept_complete r.slab id)
  | release id => exact h.kept (kept_release r.slab id)
  | state id => exact h.kept (.refl r.slab)

theorem Placed.run (ops : List (Op D)) : ∀ {addrs : List Nat} {r : Run D}, Placed layout addrs r.slab →
    Apart layout (addrs ++ chunkAddrs r ops) →
    Placed layout (addrs ++ chunkAddrs r ops) (ops.foldl Run.step r).slab := by
  induction ops with
  | nil =>
    intro addrs r h _
    rw [chunkAddrs, List.append_nil]
    exact h
  | cons op ops ih =>
    intro addrs r h hapart
    rw [chunkAddrs, ← List.append_assoc] at hapart ⊢
    exact ih (h.step op (List.pairwise_append.mp hapart).1) hapart

/-! ## 3. The screen agrees with a scan -/

/-- A pointer is at the data of a slot exactly if its offset in the chunk leaves the data's. -/
theorem Layout.data_iff (layout : Layout) {base ptr : Nat} (hbase : base ≤ ptr) :
    (∃ i < chunkSize, ptr = base + i * layout.stride + layout.dataOff) ↔
      ptr - base < layout.chunk ∧ (ptr - base) % layout.stride = layout.dataOff := by
  have hinside := layout.inside
  constructor
  · rintro ⟨i, hi, hptr⟩
    have hoff : ptr - base = layout.dataOff + i * layout.stride := by omega
    rw [hoff, Nat.add_mul_mod_self_right, Nat.mod_eq_of_lt hinside]
    refine ⟨?_, rfl⟩
    calc layout.dataOff + i * layout.stride < (i + 1) * layout.stride := by
          rw [Nat.add_mul, Nat.one_mul, Nat.add_comm]
          exact Nat.add_lt_add_left hinside _
      _ ≤ chunkSize * layout.stride := Nat.mul_le_mul_right _ hi
      _ = layout.chunk := Nat.mul_comm _ _
  · rintro ⟨hlt, hmod⟩
    refine ⟨(ptr - base) / layout.stride, Nat.div_lt_of_lt_mul hlt, ?_⟩
    have hdiv := Nat.div_add_mod (ptr - base) layout.stride
    rw [Nat.mul_comm, hmod] at hdiv
    omega

/-- `ptr` is the address of the data of some slot of some chunk. -/
def IsData (layout : Layout) (addrs : List Nat) (ptr : Nat) : Prop :=
  ∃ addr ∈ addrs, ∃ i < chunkSize, ptr = addr + i * layout.stride + layout.dataOff

theorem Placed.screen (h : Placed layout addrs s) (ptr : Nat) :
    ∃ b, s.containsDataPtr layout ptr = some b ∧ (b = true ↔ IsData layout addrs ptr) := by
  obtain ⟨low, high, hsplit, hplace, hlow, hhigh⟩ :=
    Ranges.partitionPoint_split (fun entry : Nat × Nat => decide (entry.1 ≤ ptr)) s.byAddr
  have hordered := h.ordered
  rw [hsplit] at hordered
  have hcovers := hordered.covers_iff Nat.one_pos (fun e he => of_decide_eq_true (hlow e he))
    (fun e he => Nat.lt_of_not_le (of_decide_eq_false (hhigh e he)))
  -- a slot's data lies in its chunk, and the chunk that covers an address is the candidate
  have hdata : IsData layout addrs ptr ↔ ∃ entry, low.getLast? = some entry ∧
      ptr - entry.1 < layout.chunk ∧ (ptr - entry.1) % layout.stride = layout.dataOff := by
    constructor
    · rintro ⟨addr, haddr, hslot⟩
      obtain ⟨ci, hci⟩ := List.mem_iff_getElem?.mp haddr
      have hle : addr ≤ ptr := by
        obtain ⟨i, -, hptr⟩ := hslot
        omega
      obtain ⟨hlt, hmod⟩ := (layout.data_iff hle).mp hslot
      have hmem : (addr, ci) ∈ low ++ high := hsplit ▸ (h.entries addr ci).mpr hci
      have hlast := ((hcovers (addr, ci)).mp ⟨hmem, hle, by dsimp only; omega⟩).1
      exact ⟨(addr, ci), hlast, hlt, hmod⟩
    · rintro ⟨entry, hlast, hlt, hmod⟩
      have hin := List.mem_of_getLast? hlast
      have hle : entry.1 ≤ ptr := of_decide_eq_true (hlow entry hin)
      have hmem : (entry.1, entry.2) ∈ s.byAddr := hsplit ▸ List.mem_append_left _ hin
      exact ⟨entry.1, List.mem_of_getElem? ((h.entries _ _).mp hmem),
        (layout.data_iff hle).mpr ⟨hlt, hmod⟩⟩
  have hstride : layout.stride ≠ 0 := Nat.ne_of_gt (Nat.lt_of_le_of_lt (Nat.zero_le _) layout.inside)
  rw [hdata]
  unfold OpSlab.containsDataPtr
  dsimp only
  rw [if_neg hstride, ← hplace, hsplit]
  rcases Nat.eq_zero_or_pos low.length with hzero | hpos
  · rw [if_pos hzero, List.length_eq_zero_iff.mp hzero]
    exact ⟨false, rfl, by simp⟩
  rw [if_neg (Nat.ne_of_gt hpos), Ranges.getElem?_low low high (Nat.ne_of_gt hpos)]
  cases hlast : low.getLast? with
  | none => exact ⟨false, rfl, by simp⟩
  | some entry =>
    obtain ⟨base, ci⟩ := entry
    dsimp only
    by_cases hbeyond : ptr - base ≥ layout.stride * chunkSize
    · rw [if_pos hbeyond]
      refine ⟨false, rfl, ?_⟩
      simp only [Option.some.injEq, exists_eq_left', Bool.false_eq_true, false_iff]
      exact fun hin => absurd hin.1 (Nat.not_lt.mpr hbeyond)
    · rw [if_neg hbeyond]
      have hlt : ptr - base < layout.stride * chunkSize := Nat.lt_of_not_le hbeyond
      have hmem : (base, ci) ∈ s.byAddr :=
        hsplit ▸ List.mem_append_left _ (List.mem_of_getLast? hlast)
      have hchunk : ci < addrs.length := (List.getElem?_eq_some_iff.mp ((h.entries _ _).mp hmem)).1
      have hbound : ci * chunkSize < s.slots.length ∧ (ptr - base) / layout.stride < chunkSize := by
        rw [h.capacity]
        exact ⟨Nat.mul_lt_mul_of_pos_right hchunk (by decide), Nat.div_lt_of_lt_mul hlt⟩
      rw [if_pos hbound]
      refine ⟨_, rfl, ?_⟩
      simp only [decide_eq_true_eq, Option.some.injEq, exists_eq_left']
      exact ⟨fun hmod => ⟨hlt, hmod⟩, fun hin => hin.2⟩

/-- After any run, with its chunks wherever the allocator puts them: the screen reads no index out
of range, and accepts a pointer exactly if it is the address of a slot's data. -/
theorem screens_exactly (layout : Layout) (makeDefault : D) (ops : List (Op D))
    (hapart : Apart layout (chunkAddrs (.new makeDefault) ops)) (ptr : Nat) :
    ∃ b, ((runs makeDefault).run ops).slab.containsDataPtr layout ptr = some b ∧
      (b = true ↔ IsData layout (chunkAddrs (.new makeDefault) ops) ptr) := by
  have hplaced := (placed_new layout makeDefault).run (r := .new makeDefault) ops
  rw [List.nil_append] at hplaced
  exact (hplaced hapart).screen ptr

/-- The second chunk is placed below the first. -/
theorem screens_exactly_second :
    let ops : List (Op Unit) := List.replicate chunkSize (.post 65536 .wakeup) ++ [.post 4096 .wakeup]
    ∃ b, ((runs ()).run ops).slab.containsDataPtr ⟨64, 16, by decide⟩ 4176 = some b ∧
      (b = true ↔ IsData ⟨64, 16, by decide⟩ (chunkAddrs (.new ()) ops) 4176) :=
  screens_exactly ⟨64, 16, by decide⟩ () _ (by
    have haddrs : chunkAddrs (Run.new ())
        (List.replicate chunkSize (Op.post 65536 .wakeup) ++ [.post 4096 .wakeup]) = [65536, 4096] := by
      decide +kernel
    rw [haddrs]
    unfold Apart
    decide) 4176

end Cadeloop.Core.Ops
