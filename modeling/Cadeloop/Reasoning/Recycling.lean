import Mathlib

/-!
# Slots recycled under generations

A table of slots is handed out under ids (index, generation).  Recycling a slot raises its
generation, so an old id stops naming it.  `Tracks` says that the table tells, for every id there
is, whether it was never issued, is live (and what it holds), or has ended; the rules below say that
claiming a free slot, changing what a live one holds, recycling it and growing the table keep that.
-/

namespace Cadeloop.Reasoning.Recycling

structure Id where
  index : UInt32
  generation : UInt32
  deriving DecidableEq

structure Cell (β : Type*) where
  generation : UInt32
  -- nothing is held by a free slot
  held : Option β

structure Slots (β : Type*) where
  cells : List (Cell β)
  free : List UInt32

/-- The life of an id. -/
inductive Life (β : Type*) where
  | never
  | live (b : β)
  | ended

variable {β : Type*}

def Life.isLive : Life β → Bool
  | .live _ => true
  | _ => false

def Cell.life (c : Cell β) (generation : UInt32) : Life β :=
  if generation < c.generation then .ended
  else if generation = c.generation then
    match c.held with
    | none => .never
    | some b => .live b
  else .never

def Slots.life (s : Slots β) (id : Id) : Life β :=
  match s.cells[id.index.toNat]? with
  | none => .never
  | some c => c.life id.generation

/-- How often the slot at `index` has been recycled. -/
def recyclings (recycled : List Id) (index : UInt32) : Nat :=
  recycled.countP fun id => id.index == index

/-- The table and the record of what was issued and recycled agree. -/
structure Tracks (s : Slots β) (life : Id → Life β) (issued recycled : List Id) : Prop where
  agrees : ∀ id, life id = s.life id
  mem_issued : ∀ id, id ∈ issued ↔ life id ≠ .never
  mem_recycled : ∀ id, id ∈ recycled ↔ life id = .ended
  once : issued.Nodup
  recycled_once : recycled.Nodup
  free_once : s.free.Nodup
  mem_free : ∀ i, i ∈ s.free ↔ ∃ c, s.cells[i.toNat]? = some c ∧ c.held = none
  size : s.cells.length ≤ 2 ^ 32
  generation : ∀ i c, s.cells[i.toNat]? = some c → c.generation.toNat = recyclings recycled i
  count : issued.length = recycled.length + s.cells.countP fun c => c.held.isSome

/-! ## 1. Tables with one cell changed -/

section Set

variable {s : Slots β} {i : UInt32} {c c' : Cell β}

theorem getElem?_set_cell (hc : s.cells[i.toNat]? = some c) (j : UInt32) :
    (s.cells.set i.toNat c')[j.toNat]? = if j = i then some c' else s.cells[j.toNat]? := by
  have hlt : i.toNat < s.cells.length := (List.getElem?_eq_some_iff.mp hc).1
  rw [List.getElem?_set]
  by_cases hij : j = i
  · rw [if_pos (by rw [hij]), if_pos hlt, if_pos hij]
  · have hne : i.toNat ≠ j.toNat := fun h => hij (UInt32.toNat_inj.mp h.symm)
    rw [if_neg hne, if_neg hij]

theorem countP_set_cell (hc : s.cells[i.toNat]? = some c) (c' : Cell β) (p : Cell β → Bool) :
    (s.cells.set i.toNat c').countP p + (if p c then 1 else 0) =
      s.cells.countP p + (if p c' then 1 else 0) := by
  obtain ⟨hlt, hget⟩ := List.getElem?_eq_some_iff.mp hc
  have hset := List.countP_set (p := p) (a := c') hlt
  rw [hget] at hset
  have hpos : p c = true → 0 < s.cells.countP p := fun hp =>
    List.countP_pos_iff.mpr ⟨c, List.mem_of_getElem? hc, hp⟩
  by_cases hp : p c = true
  · rw [if_pos hp] at hset ⊢
    have := hpos hp
    omega
  · rw [if_neg hp] at hset ⊢
    omega

end Set

theorem Cell.life_current (c : Cell β) : c.life c.generation =
    match c.held with
    | none => .never
    | some b => .live b := by
  rw [Cell.life, if_neg (UInt32.lt_irrefl _), if_pos rfl]

-- other generations do not see what the cell holds
theorem Cell.life_other (c : Cell β) (held : Option β) {g : UInt32} (hne : g ≠ c.generation) :
    Cell.life ⟨c.generation, held⟩ g = c.life g := by
  rw [Cell.life, Cell.life, if_neg hne, if_neg hne]

namespace Tracks

variable {s : Slots β} {life : Id → Life β} {issued recycled : List Id}

theorem empty : Tracks (⟨[], []⟩ : Slots β) (fun _ => .never) [] [] where
  agrees _ := rfl
  mem_issued _ := by simp
  mem_recycled _ := by simp
  once := List.nodup_nil
  recycled_once := List.nodup_nil
  free_once := List.nodup_nil
  mem_free _ := by simp
  size := Nat.zero_le _
  generation _ _ h := by cases h
  count := rfl

theorem live_iff (h : Tracks s life issued recycled) {id : Id} {b : β} :
    life id = .live b ↔ s.cells[id.index.toNat]? = some ⟨id.generation, some b⟩ := by
  rw [h.agrees, Slots.life]
  cases hc : s.cells[id.index.toNat]? with
  | none => simp
  | some c =>
    obtain ⟨g, held⟩ := c
    dsimp only
    constructor
    · intro hl
      rw [Cell.life] at hl
      split at hl
      · cases hl
      split at hl
      · rename_i heq
        cases held with
        | none => cases hl
        | some b' =>
          injection hl with hl
          rw [heq, hl]
      · cases hl
    · intro heq
      injection heq with heq
      injection heq with hg hheld
      rw [hg, hheld]
      exact Cell.life_current ⟨id.generation, some b⟩

/-- The current id of a slot. -/
theorem life_current (h : Tracks s life issued recycled) {i : UInt32} {c : Cell β}
    (hc : s.cells[i.toNat]? = some c) :
    life ⟨i, c.generation⟩ = match c.held with
      | none => .never
      | some b => .live b := by
  rw [h.agrees, Slots.life, hc]
  exact c.life_current

theorem inside (h : Tracks s life issued recycled) {id : Id} (hid : id ∈ recycled) :
    id.index.toNat < s.cells.length := by
  have hended := (h.mem_recycled id).mp hid
  rw [h.agrees, Slots.life] at hended
  split at hended
  · cases hended
  · rename_i c hc
    exact (List.getElem?_eq_some_iff.mp hc).1

theorem free_cell (h : Tracks s life issued recycled) {i : UInt32} (hi : i ∈ s.free) :
    ∃ c, s.cells[i.toNat]? = some c ∧ c.held = none ∧ life ⟨i, c.generation⟩ = .never := by
  obtain ⟨c, hc, hheld⟩ := (h.mem_free i).mp hi
  refine ⟨c, hc, hheld, ?_⟩
  rw [h.life_current hc, hheld]

/-- With no free slot, every slot is live. -/
theorem full (h : Tracks s life issued recycled) (hfree : s.free = []) :
    issued.length = recycled.length + s.cells.length := by
  have hall : s.cells.countP (fun c => c.held.isSome) = s.cells.length := by
    rw [List.countP_eq_length]
    intro c hc
    obtain ⟨i, hi⟩ := List.mem_iff_getElem?.mp hc
    have hlt : i < s.cells.length := (List.getElem?_eq_some_iff.mp hi).1
    have hsize := h.size
    have hto : (UInt32.ofNat i).toNat = i := UInt32.toNat_ofNat_of_lt' (show i < 2 ^ 32 by omega)
    cases hheld : c.held with
    | some b => rfl
    | none =>
      have hmem := (h.mem_free (UInt32.ofNat i)).mpr ⟨c, by rw [hto, hi], hheld⟩
      rw [hfree] at hmem
      cases hmem
  rw [← hall]
  exact h.count

/-- The live ids are as many as the cells that hold something. -/
theorem live_length (h : Tracks s life issued recycled) :
    (issued.filter fun id => (life id).isLive).length =
      s.cells.countP fun c => c.held.isSome := by
  have hended : (issued.filter fun id => !(life id).isLive).Perm recycled := by
    rw [List.perm_ext_iff_of_nodup (h.once.filter _) h.recycled_once]
    intro id
    rw [List.mem_filter, h.mem_issued, h.mem_recycled]
    cases life id <;> simp [Life.isLive]
  have hsplit := (List.filter_append_perm (fun id => (life id).isLive) issued).length_eq
  rw [List.length_append, hended.length_eq, h.count] at hsplit
  omega

/-! ## 2. The rules -/

theorem claim (h : Tracks s life issued recycled) {i : UInt32} {c : Cell β} {rest : List UInt32}
    (hfree : s.free.Perm (i :: rest)) (hc : s.cells[i.toNat]? = some c) (b : β) :
    life ⟨i, c.generation⟩ = .never ∧
      Tracks ⟨s.cells.set i.toNat ⟨c.generation, some b⟩, rest⟩
        (Function.update life ⟨i, c.generation⟩ (.live b)) (issued ++ [⟨i, c.generation⟩])
        recycled := by
  obtain ⟨hnot, hrest⟩ := List.nodup_cons.mp (hfree.nodup_iff.mp h.free_once)
  obtain ⟨c₀, hc₀, hheld₀⟩ := (h.mem_free i).mp (hfree.mem_iff.mpr List.mem_cons_self)
  have hheld : c.held = none := by
    rw [hc] at hc₀
    injection hc₀ with hc₀
    rw [hc₀, hheld₀]
  have hnever : life ⟨i, c.generation⟩ = .never := by rw [h.life_current hc, hheld]
  refine ⟨hnever, ?_, ?_, ?_, ?_, h.recycled_once, hrest, ?_, ?_, ?_, ?_⟩
  · intro id
    rw [Slots.life, getElem?_set_cell hc]
    by_cases hid : id = ⟨i, c.generation⟩
    · subst hid
      rw [Function.update_self, if_pos rfl]
      exact (Cell.life_current ⟨c.generation, some b⟩).symm
    · rw [Function.update_of_ne hid, h.agrees, Slots.life]
      by_cases hi : id.index = i
      · have hg : id.generation ≠ c.generation := by
          intro hg
          apply hid
          cases id
          simp_all
        rw [if_pos hi, hi, hc]
        exact (Cell.life_other c (some b) hg).symm
      · rw [if_neg hi]
  · intro id
    rw [List.mem_append, List.mem_singleton, h.mem_issued]
    by_cases hid : id = ⟨i, c.generation⟩
    · subst hid
      rw [Function.update_self]
      simp
    · rw [Function.update_of_ne hid]
      simp [hid]
  · intro id
    rw [h.mem_recycled]
    by_cases hid : id = ⟨i, c.generation⟩
    · rw [hid, Function.update_self, hnever]
      simp
    · rw [Function.update_of_ne hid]
  · have hfresh : (⟨i, c.generation⟩ : Id) ∉ issued := by
      rw [h.mem_issued, hnever]
      simp
    rw [List.nodup_append]
    refine ⟨h.once, List.nodup_singleton _, fun a ha b hb hab => ?_⟩
    rw [List.mem_singleton] at hb
    subst hb hab
    exact hfresh ha
  · intro j
    rw [getElem?_set_cell hc]
    by_cases hj : j = i
    · subst hj
      rw [if_pos rfl]
      simp [hnot]
    · rw [if_neg hj, ← h.mem_free, hfree.mem_iff]
      simp [hj]
  · rw [List.length_set]
    exact h.size
  · intro j c' hc'
    rw [getElem?_set_cell hc] at hc'
    by_cases hj : j = i
    · rw [if_pos hj] at hc'
      injection hc' with hc'
      rw [← hc', hj]
      exact h.generation i c hc
    · rw [if_neg hj] at hc'
      exact h.generation j c' hc'
  · have hcount := countP_set_cell hc ⟨c.generation, some b⟩ fun c => c.held.isSome
    rw [hheld] at hcount
    simp only [Option.isSome_none, Option.isSome_some, if_true] at hcount
    rw [List.length_append, List.length_singleton, h.count]
    simp only [Bool.false_eq_true, if_false] at hcount
    dsimp only
    omega

theorem change (h : Tracks s life issued recycled) {id : Id} {b : β} (hl : life id = .live b)
    (b' : β) :
    Tracks ⟨s.cells.set id.index.toNat ⟨id.generation, some b'⟩, s.free⟩
      (Function.update life id (.live b')) issued recycled := by
  have hc := h.live_iff.mp hl
  refine ⟨?_, ?_, ?_, h.once, h.recycled_once, h.free_once, ?_, ?_, ?_, ?_⟩
  · intro id'
    rw [Slots.life, getElem?_set_cell hc]
    by_cases hid : id' = id
    · rw [hid, Function.update_self, if_pos rfl]
      exact (Cell.life_current ⟨id.generation, some b'⟩).symm
    · rw [Function.update_of_ne hid, h.agrees, Slots.life]
      by_cases hi : id'.index = id.index
      · have hg : id'.generation ≠ id.generation := by
          intro hg
          apply hid
          cases id
          cases id'
          simp_all
        rw [if_pos hi, hi, hc]
        exact Cell.life_other ⟨id.generation, some b'⟩ (some b) hg
      · rw [if_neg hi]
  · intro id'
    rw [h.mem_issued]
    by_cases hid : id' = id
    · rw [hid, Function.update_self, hl]
      simp
    · rw [Function.update_of_ne hid]
  · intro id'
    rw [h.mem_recycled]
    by_cases hid : id' = id
    · rw [hid, Function.update_self, hl]
      simp
    · rw [Function.update_of_ne hid]
  · intro j
    rw [h.mem_free, getElem?_set_cell hc]
    by_cases hj : j = id.index
    · rw [if_pos hj, hj, hc]
      simp
    · rw [if_neg hj]
  · rw [List.length_set]
    exact h.size
  · intro j c' hc'
    rw [getElem?_set_cell hc] at hc'
    by_cases hj : j = id.index
    · rw [if_pos hj] at hc'
      injection hc' with hc'
      rw [← hc', hj]
      exact h.generation id.index ⟨id.generation, some b⟩ hc
    · rw [if_neg hj] at hc'
      exact h.generation j c' hc'
  · have hcount := countP_set_cell hc ⟨id.generation, some b'⟩ fun c => c.held.isSome
    simp only [Option.isSome_some, if_true] at hcount
    rw [h.count]
    simp only at hcount ⊢
    omega

theorem recyclings_concat (recycled : List Id) (id : Id) (i : UInt32) :
    recyclings (recycled ++ [id]) i = recyclings recycled i + if id.index = i then 1 else 0 := by
  simp [recyclings, List.countP_append, List.countP_cons]

theorem recycle (h : Tracks s life issued recycled) {id : Id} {b : β} (hl : life id = .live b)
    (hroom : recyclings recycled id.index + 1 < 2 ^ 32) {free' : List UInt32}
    (hfree : free'.Perm (id.index :: s.free)) :
    Tracks ⟨s.cells.set id.index.toNat ⟨id.generation + 1, none⟩, free'⟩
      (Function.update life id .ended) issued (recycled ++ [id]) := by
  have hc := h.live_iff.mp hl
  have hgen := h.generation id.index _ hc
  have hnext : (id.generation + 1).toNat = id.generation.toNat + 1 := by
    rw [UInt32.toNat_add]
    have hone : (1 : UInt32).toNat = 1 := rfl
    rw [hone]
    exact Nat.mod_eq_of_lt (by dsimp only at hgen; omega)
  have hnot : id.index ∉ s.free := by
    rw [h.mem_free, hc]
    simp
  refine ⟨?_, ?_, ?_, h.once, ?_, ?_, ?_, ?_, ?_, ?_⟩
  · intro id'
    rw [Slots.life, getElem?_set_cell hc]
    by_cases hid : id' = id
    · rw [hid, Function.update_self, if_pos rfl]
      dsimp only
      rw [Cell.life, if_pos (UInt32.lt_iff_toNat_lt.mpr (by dsimp only; omega))]
    · rw [Function.update_of_ne hid, h.agrees, Slots.life]
      by_cases hi : id'.index = id.index
      · have hg : id'.generation ≠ id.generation := by
          intro hg
          apply hid
          cases id
          cases id'
          simp_all
        have hg' : id'.generation.toNat ≠ id.generation.toNat := fun h => hg (UInt32.toNat_inj.mp h)
        rw [if_pos hi, hi, hc]
        -- the ids between the old and the new generation have ended, the others unchanged
        dsimp only
        simp only [Cell.life]
        by_cases hlt : id'.generation < id.generation
        · have hlt' : id'.generation < id.generation + 1 := by
            rw [UInt32.lt_iff_toNat_lt] at hlt ⊢
            omega
          rw [if_pos hlt, if_pos hlt']
        · have hlt' : ¬ id'.generation < id.generation + 1 := by
            rw [UInt32.lt_iff_toNat_lt] at hlt ⊢
            omega
          rw [if_neg hlt, if_neg hlt', if_neg hg]
          split <;> rfl
      · rw [if_neg hi]
  · intro id'
    rw [h.mem_issued]
    by_cases hid : id' = id
    · rw [hid, Function.update_self, hl]
      simp
    · rw [Function.update_of_ne hid]
  · intro id'
    rw [List.mem_append, List.mem_singleton, h.mem_recycled]
    by_cases hid : id' = id
    · rw [hid, Function.update_self]
      simp
    · rw [Function.update_of_ne hid]
      simp [hid]
  · have hfresh : id ∉ recycled := by
      rw [h.mem_recycled, hl]
      simp
    rw [List.nodup_append]
    refine ⟨h.recycled_once, List.nodup_singleton _, fun a ha b hb hab => ?_⟩
    rw [List.mem_singleton] at hb
    subst hb hab
    exact hfresh ha
  · exact hfree.nodup_iff.mpr (List.nodup_cons.mpr ⟨hnot, h.free_once⟩)
  · intro j
    rw [hfree.mem_iff, getElem?_set_cell hc, List.mem_cons]
    by_cases hj : j = id.index
    · rw [if_pos hj]
      simp [hj]
    · rw [if_neg hj, ← h.mem_free]
      simp [hj]
  · rw [List.length_set]
    exact h.size
  · intro j c' hc'
    rw [recyclings_concat]
    rw [getElem?_set_cell hc] at hc'
    by_cases hj : j = id.index
    · rw [if_pos hj] at hc'
      injection hc' with hc'
      rw [← hc', hj, if_pos rfl, ← hgen]
      exact hnext
    · rw [if_neg hj] at hc'
      rw [if_neg (Ne.symm hj)]
      exact h.generation j c' hc'
  · have hcount := countP_set_cell hc ⟨id.generation + 1, none⟩ fun c => c.held.isSome
    simp only [Option.isSome_some, Option.isSome_none, if_true] at hcount
    rw [h.count, List.length_append, List.length_singleton]
    simp only [Bool.false_eq_true, if_false] at hcount
    dsimp only
    omega

/-- The indices of `n` slots added behind `len` others. -/
def added (len n : Nat) : List UInt32 := (List.range n).map fun k => UInt32.ofNat (len + k)

theorem mem_added {len n : Nat} (hfit : len + n ≤ 2 ^ 32) (i : UInt32) :
    i ∈ added len n ↔ len ≤ i.toNat ∧ i.toNat < len + n := by
  rw [added, List.mem_map]
  constructor
  · rintro ⟨k, hk, rfl⟩
    rw [List.mem_range] at hk
    rw [UInt32.toNat_ofNat_of_lt' (show len + k < 2 ^ 32 by omega)]
    omega
  · intro hi
    refine ⟨i.toNat - len, List.mem_range.mpr (by omega), ?_⟩
    rw [Nat.add_sub_cancel' hi.1]
    exact UInt32.ofNat_toNat

theorem added_nodup {len n : Nat} (hfit : len + n ≤ 2 ^ 32) : (added len n).Nodup := by
  refine List.Nodup.map_on (fun a ha b hb hab => ?_) List.nodup_range
  rw [List.mem_range] at ha hb
  have hnat := congrArg UInt32.toNat hab
  rw [UInt32.toNat_ofNat_of_lt' (show len + a < 2 ^ 32 by omega),
    UInt32.toNat_ofNat_of_lt' (show len + b < 2 ^ 32 by omega)] at hnat
  omega

theorem grow (h : Tracks s life issued recycled) {n : Nat} (hfit : s.cells.length + n ≤ 2 ^ 32)
    {free' : List UInt32} (hfree : free'.Perm (added s.cells.length n ++ s.free)) :
    Tracks ⟨s.cells ++ List.replicate n ⟨0, none⟩, free'⟩ life issued recycled := by
  have hnew : ∀ (i : Nat) (c : Cell β), (s.cells ++ List.replicate n ⟨0, none⟩)[i]? = some c →
      s.cells[i]? = some c ∨ (s.cells.length ≤ i ∧ i < s.cells.length + n ∧ c = ⟨0, none⟩) := by
    intro i c hc
    rw [List.getElem?_append] at hc
    split at hc
    · exact .inl hc
    · rw [List.getElem?_replicate] at hc
      split at hc
      · injection hc with hc
        exact .inr ⟨by omega, by omega, hc.symm⟩
      · cases hc
  have hold : ∀ i < s.cells.length, (s.cells ++ List.replicate n ⟨0, none⟩)[i]? = s.cells[i]? :=
    fun i hi => List.getElem?_append_left hi
  refine ⟨fun id => ?_, h.mem_issued, h.mem_recycled, h.once, h.recycled_once, ?_, fun i => ?_, ?_,
    fun i c hc => ?_, ?_⟩
  · -- an id in a new slot was never issued, as generation 0 is not
    rw [h.agrees, Slots.life, Slots.life]
    by_cases hi : id.index.toNat < s.cells.length
    · rw [hold _ hi]
    · rw [List.getElem?_eq_none (by omega)]
      cases hc : (s.cells ++ List.replicate n ⟨0, none⟩)[id.index.toNat]? with
      | none => rfl
      | some c =>
        rcases hnew _ c hc with hc | ⟨-, -, rfl⟩
        · rw [List.getElem?_eq_none (by omega)] at hc
          cases hc
        · dsimp only
          rw [Cell.life, if_neg (by simp)]
          split <;> rfl
  · rw [hfree.nodup_iff, List.nodup_append]
    refine ⟨added_nodup hfit, h.free_once, fun a ha b hb hab => ?_⟩
    obtain ⟨c, hc, -⟩ := (h.mem_free b).mp hb
    have hlt := (List.getElem?_eq_some_iff.mp hc).1
    have hle := ((mem_added hfit a).mp ha).1
    rw [hab] at hle
    omega
  · rw [hfree.mem_iff, List.mem_append, mem_added hfit, h.mem_free]
    constructor
    · rintro (hi | ⟨c, hc, hheld⟩)
      · refine ⟨⟨0, none⟩, ?_, rfl⟩
        rw [List.getElem?_append_right hi.1, List.getElem?_replicate, if_pos (by omega)]
      · have hlt := (List.getElem?_eq_some_iff.mp hc).1
        exact ⟨c, by rw [hold _ hlt, hc], hheld⟩
    · rintro ⟨c, hc, hheld⟩
      rcases hnew _ c hc with hc | ⟨hle, hlt, -⟩
      · exact .inr ⟨c, hc, hheld⟩
      · exact .inl ⟨hle, hlt⟩
  · rw [List.length_append, List.length_replicate]
    exact hfit
  · rcases hnew _ c hc with hc | ⟨hle, -, rfl⟩
    · exact h.generation i c hc
    · symm
      show recyclings recycled i = 0
      rw [recyclings, List.countP_eq_zero]
      intro id hid heq
      have hlt := h.inside hid
      rw [beq_iff_eq.mp heq] at hlt
      omega
  · rw [h.count, List.countP_append, List.countP_replicate]
    rfl

end Tracks

end Cadeloop.Reasoning.Recycling
