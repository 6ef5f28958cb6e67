import Cadeloop.Reasoning.Machine
import Cadeloop.Reasoning.Ranges

/-!
# Bookkeeping of the RIO backend (`crates/core/src/backend/rio_util.rs`)

The registered buffer regions, looked up by pointer, and the reservations made of the completion
queue.  `usize` and `u32` sums wrap as in the source.
-/

namespace Cadeloop.Core.Rio

open Cadeloop.Reasoning

/-! ## 1. Registered regions -/

structure RegionEntry where
  base : Nat
  len : Nat
  cookie : Nat
  deriving DecidableEq

-- sorted by base
structure RegionMap where
  regions : List RegionEntry

def usizeAdd (a b : Nat) : Nat := (a + b) % 2 ^ 64

namespace RegionMap

def new : RegionMap := ⟨[]⟩

/-- Register a region; one that overlaps another is rejected. -/
def insert (m : RegionMap) (base len cookie : Nat) : Bool × RegionMap :=
  let place := Ranges.partitionPoint (fun r : RegionEntry => decide (r.base < base)) m.regions
  let overlapsPrev := place > 0 ∧
    (m.regions[place - 1]?).any fun r => decide (usizeAdd r.base r.len > base)
  let overlapsNext := (m.regions[place]?).any fun r => decide (usizeAdd base len > r.base)
  if overlapsPrev ∨ overlapsNext then (false, m)
  else (true, ⟨m.regions.insertIdx place ⟨base, len, cookie⟩⟩)

/-- Drop a region by its cookie; whether it existed. -/
def removeCookie (m : RegionMap) (cookie : Nat) : Bool × RegionMap :=
  match m.regions.findIdx? fun r => r.cookie = cookie with
  | some i => (true, ⟨m.regions.eraseIdx i⟩)
  | none => (false, m)

/-- The cookie and the offset of `[ptr, ptr + len)`, which has to lie inside one region. -/
def resolve (m : RegionMap) (ptr len : Nat) : Option (Nat × Nat) :=
  let place := Ranges.partitionPoint (fun r : RegionEntry => decide (r.base ≤ ptr)) m.regions
  if place = 0 then none
  else
    match m.regions[place - 1]? with
    | none => none
    | some r =>
      if ptr ≥ r.base ∧ usizeAdd ptr len ≤ usizeAdd r.base r.len then
        some (r.cookie, (ptr - r.base) % 2 ^ 32)
      else none

end RegionMap

/-! ## 2. What the regions cover -/

/-- Non-empty, its end an address, and at most 4 GiB. -/
structure Fits (base len : Nat) : Prop where
  nonempty : 0 < len
  address : base + len < 2 ^ 64
  short : len ≤ 2 ^ 32

abbrev Ordered (regions : List RegionEntry) : Prop :=
  Ranges.Ordered RegionEntry.base RegionEntry.len regions

structure Sound (m : RegionMap) : Prop where
  ordered : Ordered m.regions
  fits : ∀ r ∈ m.regions, Fits r.base r.len

theorem sound_new : Sound .new := ⟨List.Pairwise.nil, fun r h => by cases h⟩

theorem Fits.usizeAdd {base len : Nat} (h : Fits base len) : usizeAdd base len = base + len :=
  Nat.mod_eq_of_lt h.address

variable {m : RegionMap}

/-- `[base, base + len)` has an address in common with a registered region. -/
def Overlapped (m : RegionMap) (base len : Nat) : Prop :=
  ∃ r ∈ m.regions, Ranges.Overlaps RegionEntry.base RegionEntry.len r base len

/-- The items on both sides of a partition point, as the source reads them. -/
theorem prev_any (low high : List RegionEntry) (p : RegionEntry → Bool) :
    (low.length > 0 ∧ ((low ++ high)[low.length - 1]?).any p = true) ↔
      ∃ r, low.getLast? = some r ∧ p r = true := by
  rcases Nat.eq_zero_or_pos low.length with hzero | hpos
  · rw [List.length_eq_zero_iff.mp hzero]
    simp
  · rw [Ranges.getElem?_low low high (by omega)]
    cases low.getLast? with
    | none => simp
    | some r => simp [hpos]

theorem next_any (low high : List RegionEntry) (p : RegionEntry → Bool) :
    ((low ++ high)[low.length]?).any p = true ↔ ∃ r, high.head? = some r ∧ p r = true := by
  rw [Ranges.getElem?_high]
  cases high.head? with
  | none => simp
  | some r => simp

theorem insert_spec (h : Sound m) {base len : Nat} (hfits : Fits base len) (cookie : Nat) :
    (Overlapped m base len → m.insert base len cookie = (false, m)) ∧
      (¬ Overlapped m base len → ∃ low high, m.regions = low ++ high ∧
        m.insert base len cookie = (true, ⟨low ++ ⟨base, len, cookie⟩ :: high⟩) ∧
        Ordered (low ++ ⟨base, len, cookie⟩ :: high)) := by
  obtain ⟨low, high, hsplit, hplace, hlow, hhigh⟩ :=
    Ranges.partitionPoint_split (fun r : RegionEntry => decide (r.base < base)) m.regions
  have hordered := h.ordered
  rw [hsplit] at hordered
  have hbelow : ∀ r ∈ low, r.base < base := fun r hr => of_decide_eq_true (hlow r hr)
  have habove : ∀ r, high.head? = some r → base ≤ r.base := fun r hr =>
    Nat.le_of_not_lt (of_decide_eq_false (hhigh r hr))
  have hiff := hordered.overlaps_iff len
    (fun r hr => (h.fits r (hsplit ▸ List.mem_append_right _ hr)).nonempty) hbelow habove
  -- the two neighbours the source looks at
  have hprev : (∃ r, low.getLast? = some r ∧ decide (usizeAdd r.base r.len > base) = true) ↔
      ∃ r, low.getLast? = some r ∧ base < r.base + r.len := by
    apply exists_congr
    intro r
    apply and_congr_right
    intro hlast
    have hmem : r ∈ m.regions := hsplit ▸ List.mem_append_left _ (List.mem_of_getLast? hlast)
    rw [(h.fits r hmem).usizeAdd, decide_eq_true_iff]
  have hnext : (∃ r, high.head? = some r ∧ decide (usizeAdd base len > r.base) = true) ↔
      ∃ r, high.head? = some r ∧ r.base < base + len := by
    rw [hfits.usizeAdd]
    simp only [decide_eq_true_eq, gt_iff_lt]
  have hreads := (or_congr ((prev_any low high _).trans hprev) ((next_any low high _).trans hnext)).trans
    hiff.symm
  unfold Overlapped RegionMap.insert
  dsimp only
  rw [← hplace, hsplit]
  constructor
  · intro hover
    rw [if_pos (hreads.mpr hover)]
  · intro hapart
    rw [if_neg fun hread => hapart (hreads.mp hread), Ranges.insertIdx_length]
    refine ⟨low, high, rfl, rfl, hordered.insert ?_ ?_⟩
    · intro r hlast
      by_contra hreach
      exact hapart (hiff.mpr (.inl ⟨r, hlast, Nat.lt_of_not_le hreach⟩))
    · intro r hfirst
      by_contra hreach
      exact hapart (hiff.mpr (.inr ⟨r, hfirst, Nat.lt_of_not_le hreach⟩))

theorem Sound.insert (h : Sound m) {base len : Nat} (hfits : Fits base len) (cookie : Nat) :
    Sound (m.insert base len cookie).2 := by
  obtain ⟨hreject, haccept⟩ := insert_spec h hfits cookie
  by_cases hover : Overlapped m base len
  · rw [hreject hover]
    exact h
  · obtain ⟨low, high, hsplit, heq, hordered⟩ := haccept hover
    rw [heq]
    refine ⟨hordered, fun r hr => ?_⟩
    rcases List.mem_append.mp hr with hin | hin
    · exact h.fits r (hsplit ▸ List.mem_append_left _ hin)
    · rcases List.mem_cons.mp hin with rfl | hin
      · exact hfits
      · exact h.fits r (hsplit ▸ List.mem_append_right _ hin)

theorem Sound.removeCookie (h : Sound m) (cookie : Nat) : Sound (m.removeCookie cookie).2 := by
  unfold RegionMap.removeCookie
  split
  · exact ⟨h.ordered.sublist (List.eraseIdx_sublist _ _),
      fun r hr => h.fits r (List.mem_of_mem_eraseIdx hr)⟩
  · exact h

/-- A pointer resolves to the region its range lies in, and to none if there is none. -/
theorem resolve_iff (h : Sound m) {ptr len : Nat} (hlen : 0 < len) (haddress : ptr + len < 2 ^ 64)
    (cookie offset : Nat) :
    m.resolve ptr len = some (cookie, offset) ↔
      ∃ r ∈ m.regions, Ranges.Covers RegionEntry.base RegionEntry.len r ptr len ∧
        cookie = r.cookie ∧ offset = ptr - r.base := by
  obtain ⟨low, high, hsplit, hplace, hlow, hhigh⟩ :=
    Ranges.partitionPoint_split (fun r : RegionEntry => decide (r.base ≤ ptr)) m.regions
  have hordered := h.ordered
  rw [hsplit] at hordered
  have hcovers := Ranges.Ordered.covers_iff hordered hlen
    (fun r hr => of_decide_eq_true (hlow r hr))
    (fun r hr => Nat.lt_of_not_le (of_decide_eq_false (hhigh r hr)))
  have hright : (∃ r ∈ m.regions, Ranges.Covers RegionEntry.base RegionEntry.len r ptr len ∧
      cookie = r.cookie ∧ offset = ptr - r.base) ↔
      ∃ r, low.getLast? = some r ∧ Ranges.Covers RegionEntry.base RegionEntry.len r ptr len ∧
        cookie = r.cookie ∧ offset = ptr - r.base := by
    apply exists_congr
    intro r
    rw [hsplit, ← and_assoc, hcovers, and_assoc]
  rw [hright]
  unfold RegionMap.resolve
  dsimp only
  rw [← hplace, hsplit]
  rcases Nat.eq_zero_or_pos low.length with hzero | hpos
  · rw [if_pos hzero, List.length_eq_zero_iff.mp hzero]
    simp
  rw [if_neg (by omega), Ranges.getElem?_low low high (by omega)]
  cases hlast : low.getLast? with
  | none => simp
  | some r =>
    have hmem : r ∈ low := List.mem_of_getLast? hlast
    have hbelow : r.base ≤ ptr := of_decide_eq_true (hlow r hmem)
    have hfits := h.fits r (hsplit ▸ List.mem_append_left _ hmem)
    have hptr : usizeAdd ptr len = ptr + len := Nat.mod_eq_of_lt haddress
    dsimp only
    rw [hptr, hfits.usizeAdd]
    constructor
    · intro hsome
      split at hsome
      · rename_i hin
        injection hsome with hsome
        injection hsome with hcookie hoffset
        -- at most 4 GiB: the offset is a u32
        have hshort := hfits.short
        rw [Nat.mod_eq_of_lt (by omega)] at hoffset
        exact ⟨r, rfl, hin, hcookie.symm, hoffset.symm⟩
      · cases hsome
    · rintro ⟨r', hr', hin, rfl, rfl⟩
      injection hr' with hr'
      subst hr'
      have hshort := hfits.short
      have hend := hin.2
      rw [if_pos ⟨hin.1, hin.2⟩, Nat.mod_eq_of_lt (by omega)]

/-! ## 3. Runs of the region map -/

inductive RegionOp where
  | insert (base len cookie : Nat)
  | removeCookie (cookie : Nat)

def RegionMap.step (m : RegionMap) : RegionOp → RegionMap
  | .insert base len cookie => (m.insert base len cookie).2
  | .removeCookie cookie => (m.removeCookie cookie).2

def regionMaps : Machine RegionMap RegionOp := ⟨.new, RegionMap.step⟩

def RegionOp.cookie : RegionOp → Option Nat
  | .insert _ _ cookie => some cookie
  | .removeCookie _ => none

/-- The regions an operation registers fit. -/
def RegionOp.Fits : RegionOp → Prop
  | .insert base len _ => Rio.Fits base len
  | .removeCookie _ => True

/-- What the map is for: the regions registered, in no order. -/
def register (regs : List RegionEntry) : RegionOp → List RegionEntry
  | .insert base len cookie =>
    if ∃ r ∈ regs, Ranges.Overlaps RegionEntry.base RegionEntry.len r base len then regs
    else ⟨base, len, cookie⟩ :: regs
  | .removeCookie cookie => regs.filter fun r => r.cookie ≠ cookie

def registered (ops : List RegionOp) : List RegionEntry := ops.foldl register []

/-- Of entries with distinct cookies, the one found is the only one. -/
theorem eraseIdx_eq_filter {l : List RegionEntry} (honce : (l.map RegionEntry.cookie).Nodup)
    {cookie i : Nat} (hfind : l.findIdx? (fun r => decide (r.cookie = cookie)) = some i) :
    l.eraseIdx i = l.filter fun r => r.cookie ≠ cookie := by
  induction l generalizing i with
  | nil => cases hfind
  | cons r l ih =>
    rw [List.map_cons, List.nodup_cons] at honce
    rw [List.findIdx?_cons] at hfind
    by_cases hcookie : r.cookie = cookie
    · rw [if_pos (by simpa using hcookie)] at hfind
      injection hfind with hfind
      have hrest : ∀ r' ∈ l, r'.cookie ≠ cookie := by
        intro r' hr' heq
        exact honce.1 (List.mem_map.mpr ⟨r', hr', heq.trans hcookie.symm⟩)
      rw [← hfind, List.eraseIdx_cons_zero, List.filter_cons, if_neg (by simpa using hcookie)]
      exact (List.filter_eq_self.mpr fun r' hr' => by simpa using hrest r' hr').symm
    · rw [if_neg (by simpa using hcookie)] at hfind
      obtain ⟨j, hj, rfl⟩ := Option.map_eq_some_iff.mp hfind
      rw [List.eraseIdx_cons_succ, List.filter_cons, if_pos (by simpa using hcookie), ih honce.2 hj]

/-- The map holds the regions registered, each under its own cookie. -/
structure Holds (cookies : List Nat) (regs : List RegionEntry) (m : RegionMap) : Prop where
  sound : Sound m
  mem : ∀ r, r ∈ m.regions ↔ r ∈ regs
  once : (m.regions.map RegionEntry.cookie).Nodup
  used : ∀ r ∈ m.regions, r.cookie ∈ cookies

theorem Holds.overlapped {cookies : List Nat} {regs : List RegionEntry} (h : Holds cookies regs m)
    (base len : Nat) : Overlapped m base len ↔
      ∃ r ∈ regs, Ranges.Overlaps RegionEntry.base RegionEntry.len r base len := by
  simp only [Overlapped, h.mem]

theorem Holds.insert {cookies : List Nat} {regs : List RegionEntry} (h : Holds cookies regs m)
    {base len cookie : Nat} (hfits : Fits base len) (hnew : cookie ∉ cookies) :
    Holds (cookies ++ [cookie]) (register regs (.insert base len cookie))
      (m.insert base len cookie).2 := by
  obtain ⟨hreject, haccept⟩ := insert_spec h.sound hfits cookie
  have hsound := h.sound.insert hfits cookie
  unfold register
  dsimp only
  by_cases hover : Overlapped m base len
  · rw [if_pos ((h.overlapped base len).mp hover), hreject hover]
    exact ⟨h.sound, h.mem, h.once, fun r hr => List.mem_append_left _ (h.used r hr)⟩
  · rw [if_neg fun hover' => hover ((h.overlapped base len).mpr hover')]
    obtain ⟨low, high, hsplit, heq, -⟩ := haccept hover
    have hperm : (low ++ ⟨base, len, cookie⟩ :: high).Perm (⟨base, len, cookie⟩ :: m.regions) := by
      rw [hsplit]
      exact List.perm_middle
    rw [heq] at hsound ⊢
    refine ⟨hsound, fun r => ?_, ?_, fun r hr => ?_⟩
    · rw [hperm.mem_iff, List.mem_cons, List.mem_cons, h.mem]
    · rw [(hperm.map _).nodup_iff, List.map_cons, List.nodup_cons]
      refine ⟨fun hin => ?_, h.once⟩
      obtain ⟨r, hr, hcookie⟩ := List.mem_map.mp hin
      have hused := h.used r hr
      rw [hcookie] at hused
      exact hnew hused
    · rcases List.mem_cons.mp (hperm.mem_iff.mp hr) with rfl | hin
      · exact List.mem_append_right _ (List.mem_singleton.mpr rfl)
      · exact List.mem_append_left _ (h.used r hin)

theorem Holds.removeCookie {cookies : List Nat} {regs : List RegionEntry} (h : Holds cookies regs m)
    (cookie : Nat) :
    Holds cookies (register regs (.removeCookie cookie)) (m.removeCookie cookie).2 := by
  have hsame : (m.removeCookie cookie).2.regions = m.regions.filter fun r => r.cookie ≠ cookie := by
    unfold RegionMap.removeCookie
    split
    · rename_i i hfind
      exact eraseIdx_eq_filter h.once hfind
    · rename_i hnone
      refine (List.filter_eq_self.mpr fun r hr => ?_).symm
      have hne := List.findIdx?_eq_none_iff.mp hnone r hr
      simpa using hne
  refine ⟨h.sound.removeCookie cookie, fun r => ?_, ?_, fun r hr => ?_⟩
  · rw [hsame, register, List.mem_filter, List.mem_filter, h.mem]
  · rw [hsame]
    exact h.once.sublist (List.filter_sublist.map _)
  · rw [hsame] at hr
    exact h.used r (List.mem_filter.mp hr).1

theorem run_holds (ops : List RegionOp) (hfits : ∀ op ∈ ops, op.Fits)
    (honce : (ops.filterMap RegionOp.cookie).Nodup) :
    Holds (ops.filterMap RegionOp.cookie) (registered ops) (regionMaps.run ops) := by
  revert hfits honce
  refine regionMaps.run_induction (motive := fun ops m => (∀ op ∈ ops, op.Fits) →
    (ops.filterMap RegionOp.cookie).Nodup → Holds (ops.filterMap RegionOp.cookie) (registered ops) m)
    (fun _ _ => ⟨sound_new, fun r => Iff.rfl, List.nodup_nil, fun r h => by cases h⟩)
    (fun ops op ih hfits honce => ?_) ops
  rw [List.filterMap_append] at honce ⊢
  have h := ih (fun op' hop' => hfits op' (List.mem_append_left _ hop'))
    (honce.sublist (List.sublist_append_left _ _))
  have hop := hfits op (List.mem_append_right _ (List.mem_singleton.mpr rfl))
  rw [registered, List.foldl_append]
  cases op with
  | insert base len cookie =>
    have hnew : cookie ∉ ops.filterMap RegionOp.cookie := by
      intro hin
      exact (List.nodup_append.mp honce).2.2 cookie hin cookie (List.mem_singleton.mpr rfl) rfl
    exact h.insert hop hnew
  | removeCookie cookie =>
    rw [show [RegionOp.removeCookie cookie].filterMap RegionOp.cookie = [] from rfl, List.append_nil]
    exact h.removeCookie cookie

/-- **Lookup of a registered region is exact**: the map is ordered and holds what is registered, an
insert is refused exactly for an overlap, and a pointer resolves exactly to the region around it. -/
theorem lookup_exact (ops : List RegionOp) (hfits : ∀ op ∈ ops, op.Fits)
    (honce : (ops.filterMap RegionOp.cookie).Nodup) :
    (Ordered (regionMaps.run ops).regions ∧
      ∀ r, r ∈ (regionMaps.run ops).regions ↔ r ∈ registered ops) ∧
    (∀ base len cookie, Fits base len →
      (((regionMaps.run ops).insert base len cookie).1 = false ↔
        ∃ r ∈ registered ops, Ranges.Overlaps RegionEntry.base RegionEntry.len r base len) ∧
      (((regionMaps.run ops).insert base len cookie).1 = false →
        ((regionMaps.run ops).insert base len cookie).2 = regionMaps.run ops)) ∧
    ∀ ptr len, 0 < len → ptr + len < 2 ^ 64 → ∀ cookie offset,
      (regionMaps.run ops).resolve ptr len = some (cookie, offset) ↔
        ∃ r ∈ registered ops, Ranges.Covers RegionEntry.base RegionEntry.len r ptr len ∧
          cookie = r.cookie ∧ offset = ptr - r.base := by
  have h := run_holds ops hfits honce
  refine ⟨⟨h.sound.ordered, h.mem⟩, fun base len cookie hnew => ?_,
    fun ptr len hlen haddress cookie offset => ?_⟩
  · obtain ⟨hreject, haccept⟩ := insert_spec h.sound hnew cookie
    rw [← h.overlapped]
    by_cases hover : Overlapped (regionMaps.run ops) base len
    · rw [hreject hover]
      exact ⟨⟨fun _ => hover, fun _ => rfl⟩, fun _ => rfl⟩
    · obtain ⟨low, high, -, heq, -⟩ := haccept hover
      rw [heq]
      exact ⟨⟨(fun hfalse => by cases hfalse), fun hover' => absurd hover' hover⟩,
        (fun hfalse => by cases hfalse)⟩
  · simp only [resolve_iff h.sound hlen haddress, h.mem]

/-- Two regions that touch, one dropped and registered again; the last try overlaps. -/
theorem lookup_exact_touching :
    let ops : List RegionOp := [.insert 4096 4096 1, .insert 8192 4096 2, .removeCookie 1,
      .insert 4096 4096 3, .insert 12287 2 4]
    ((∀ op ∈ ops, op.Fits) ∧ (ops.filterMap RegionOp.cookie).Nodup) ∧
      (regionMaps.run ops).resolve 8191 1 = some (3, 4095) := by
  intro ops
  have hfits : ∀ op ∈ ops, op.Fits := by
    intro op hop
    simp only [ops, List.mem_cons, List.not_mem_nil, or_false] at hop
    rcases hop with rfl | rfl | rfl | rfl | rfl
    · exact ⟨by decide, by decide, by decide⟩
    · exact ⟨by decide, by decide, by decide⟩
    · trivial
    · exact ⟨by decide, by decide, by decide⟩
    · exact ⟨by decide, by decide, by decide⟩
  have honce : (ops.filterMap RegionOp.cookie).Nodup := by decide
  refine ⟨⟨hfits, honce⟩, ?_⟩
  apply ((lookup_exact ops hfits honce).2.2 8191 1 (by decide) (by decide) 3 4095).mpr
  exact ⟨⟨4096, 4096, 3⟩, by decide, ⟨by decide, by decide⟩, rfl, rfl⟩

/-! ## 4. The completion queue -/

-- all three are u32
structure CqLedger where
  size : Nat
  reserved : Nat
  maxSize : Nat

/-- The doubling loop of `plan_reserve`; `none` when the fuel runs out. -/
def growTo (maxSize needed : Nat) : Nat → Nat → Option (Except Unit Nat)
  | 0, _ => none
  | fuel + 1, newSize =>
    if newSize < needed then
      let newSize := min (min (newSize * 2) (2 ^ 32 - 1)) maxSize
      if newSize = maxSize ∧ newSize < needed then some (.error ())
      else growTo maxSize needed fuel newSize
    else some (.ok newSize)

namespace CqLedger

def new (size maxSize : UInt32) : CqLedger := ⟨size.toNat, 0, max maxSize.toNat size.toNat⟩

/-- `n` slots for a new request queue: the size to grow to first, if any; an error when even the cap
does not fit them. -/
def planReserve (n : UInt32) (l : CqLedger) : Option (Except Unit (Option Nat)) :=
  if 2 ^ 32 ≤ l.reserved + n.toNat then some (.error ())
  else
    let needed := l.reserved + n.toNat
    if needed ≤ l.size then some (.ok none)
    else
      match growTo l.maxSize needed 33 (max l.size 1) with
      | some (.ok newSize) => some (.ok (some newSize))
      | some (.error ()) => some (.error ())
      | none => none

def commit (n : UInt32) (grownTo : Option Nat) (l : CqLedger) : CqLedger :=
  { l with size := grownTo.getD l.size, reserved := (l.reserved + n.toNat) % 2 ^ 32 }

def release (n : UInt32) (l : CqLedger) : CqLedger := { l with reserved := l.reserved - n.toNat }

end CqLedger

/-- Each turn doubles, or comes to the cap. -/
theorem growTo_isSome (maxSize : Nat) {needed fuel newSize : Nat} (hneeded : needed < 2 ^ 32)
    (hfuel : needed ≤ newSize * 2 ^ fuel) : (growTo maxSize needed (fuel + 1) newSize).isSome = true := by
  induction fuel generalizing newSize with
  | zero =>
    rw [growTo, if_neg (by omega)]
    rfl
  | succ fuel ih =>
    rw [growTo]
    split
    · dsimp only
      split
      · rfl
      · rename_i hcap
        apply ih
        -- the next size: the double, or a bound that is enough already
        have hdouble : needed ≤ newSize * 2 * 2 ^ fuel := by
          rw [Nat.mul_assoc, ← Nat.pow_succ']
          exact hfuel
        have hpos : 1 ≤ 2 ^ fuel := Nat.one_le_two_pow
        by_cases hmax : min (min (newSize * 2) (2 ^ 32 - 1)) maxSize = maxSize
        · have henough := Nat.le_mul_of_pos_right (min (min (newSize * 2) (2 ^ 32 - 1)) maxSize) hpos
          omega
        · by_cases htop : newSize * 2 ≤ 2 ^ 32 - 1
          · rw [show min (min (newSize * 2) (2 ^ 32 - 1)) maxSize = newSize * 2 by omega]
            exact hdouble
          · have henough := Nat.le_mul_of_pos_right (min (min (newSize * 2) (2 ^ 32 - 1)) maxSize) hpos
            omega
    · rfl

/-- What the loop comes to, from a size within the cap. -/
theorem growTo_spec {maxSize needed fuel newSize : Nat} (hmax : newSize ≤ maxSize)
    {r : Except Unit Nat} (h : growTo maxSize needed fuel newSize = some r) :
    (∀ s, r = .ok s → needed ≤ s ∧ s ≤ maxSize) ∧ (r = .error () → maxSize < needed) := by
  induction fuel generalizing newSize with
  | zero => cases h
  | succ fuel ih =>
    rw [growTo] at h
    split at h
    · dsimp only at h
      split at h
      · rename_i hcap
        injection h with h
        rw [hcap.1] at hcap
        subst h
        exact ⟨(fun s hs => by cases hs), fun _ => hcap.2⟩
      · exact ih (Nat.min_le_right _ _) h
    · rename_i henough
      injection h with h
      subst h
      refine ⟨fun s hs => ?_, (fun hs => by cases hs)⟩
      injection hs with hs
      rw [← hs]
      exact ⟨Nat.le_of_not_lt henough, hmax⟩

theorem planReserve_isSome (n : UInt32) (l : CqLedger) : (l.planReserve n).isSome = true := by
  unfold CqLedger.planReserve
  split
  · rfl
  rename_i hfits
  dsimp only
  split
  · rfl
  have hgrown : (growTo l.maxSize (l.reserved + n.toNat) 33 (max l.size 1)).isSome = true := by
    apply growTo_isSome _ (Nat.lt_of_not_le hfits)
    have hone : 1 * 2 ^ 32 ≤ max l.size 1 * 2 ^ 32 := Nat.mul_le_mul_right _ (Nat.le_max_right _ _)
    omega
  obtain ⟨r, hr⟩ := Option.isSome_iff_exists.mp hgrown
  rw [hr]
  cases r <;> rfl

/-- Within the queue, and the queue within the cap. -/
structure Within (l : CqLedger) : Prop where
  reserved : l.reserved ≤ l.size
  size : l.size ≤ l.maxSize
  cap : 1 ≤ l.maxSize ∧ l.maxSize < 2 ^ 32

/-- What a plan says of the ledger. -/
structure Plans (l : CqLedger) (n : UInt32) (r : Except Unit (Option Nat)) : Prop where
  error : r = .error () ↔ l.maxSize < l.reserved + n.toNat
  enough : r = .ok none → l.reserved + n.toNat ≤ l.size
  grows : ∀ newSize, r = .ok (some newSize) →
    l.reserved + n.toNat ≤ newSize ∧ l.size < newSize ∧ newSize ≤ l.maxSize

variable {l : CqLedger}

theorem planReserve_plans (h : Within l) {n : UInt32} {r : Except Unit (Option Nat)}
    (hplan : l.planReserve n = some r) : Plans l n r := by
  obtain ⟨hreserved, hsize, hpos, hcap⟩ := h
  unfold CqLedger.planReserve at hplan
  split at hplan
  · injection hplan with hplan
    subst hplan
    exact ⟨⟨fun _ => by omega, fun _ => rfl⟩, (fun hr => by cases hr), fun s hr => by cases hr⟩
  dsimp only at hplan
  split at hplan
  · rename_i hfits
    injection hplan with hplan
    subst hplan
    exact ⟨⟨(fun hr => by cases hr), fun hover => by omega⟩, fun _ => hfits, fun s hr => by cases hr⟩
  rename_i hshort
  have hstart : max l.size 1 ≤ l.maxSize := by omega
  split at hplan
  · rename_i newSize hgrown
    injection hplan with hplan
    subst hplan
    obtain ⟨hneeded, hmax⟩ := (growTo_spec hstart hgrown).1 newSize rfl
    refine ⟨⟨(fun hr => by cases hr), fun hover => by omega⟩, (fun hr => by cases hr), fun s hr => ?_⟩
    injection hr with hr
    injection hr with hr
    subst hr
    exact ⟨hneeded, by omega, hmax⟩
  · rename_i hgrown
    injection hplan with hplan
    subst hplan
    have hover := (growTo_spec hstart hgrown).2 rfl
    exact ⟨⟨fun _ => hover, fun _ => rfl⟩, (fun hr => by cases hr), fun s hr => by cases hr⟩
  · cases hplan

theorem within_new {size maxSize : UInt32} (hcap : 1 ≤ max maxSize.toNat size.toNat) :
    Within (.new size maxSize) where
  reserved := Nat.zero_le _
  size := Nat.le_max_right _ _
  cap := ⟨hcap, Nat.max_lt.mpr ⟨maxSize.toNat_lt, size.toNat_lt⟩⟩

/-- A plan carried out. -/
theorem Within.commit (h : Within l) {n : UInt32} {plan : Option Nat}
    (hplan : Plans l n (.ok plan)) : Within (l.commit n plan) := by
  obtain ⟨hreserved, hsize, hpos, hcap⟩ := h
  cases plan with
  | none =>
    have henough := hplan.enough rfl
    have hmod : (l.reserved + n.toNat) % 2 ^ 32 = l.reserved + n.toNat := Nat.mod_eq_of_lt (by omega)
    refine ⟨?_, hsize, hpos, hcap⟩
    show (l.reserved + n.toNat) % 2 ^ 32 ≤ l.size
    omega
  | some newSize =>
    obtain ⟨hneeded, -, hmax⟩ := hplan.grows newSize rfl
    have hmod : (l.reserved + n.toNat) % 2 ^ 32 = l.reserved + n.toNat := Nat.mod_eq_of_lt (by omega)
    refine ⟨?_, hmax, hpos, hcap⟩
    show (l.reserved + n.toNat) % 2 ^ 32 ≤ newSize
    omega

/-! ## 5. Runs of the ledger -/

inductive CqOp where
  -- `plan_reserve`, and `commit` of its plan
  | reserve (n : UInt32)
  | release (n : UInt32)

def CqLedger.step (l : CqLedger) : CqOp → CqLedger
  | .reserve n =>
    match l.planReserve n with
    | some (.ok plan) => l.commit n plan
    | _ => l
  | .release n => l.release n

def ledgers (size maxSize : UInt32) : Machine CqLedger CqOp := ⟨.new size maxSize, CqLedger.step⟩

theorem Within.step (h : Within l) (op : CqOp) : Within (l.step op) := by
  cases op with
  | reserve n =>
    unfold CqLedger.step
    dsimp only
    split
    · rename_i plan hplan
      exact h.commit (planReserve_plans h hplan)
    · exact h
  | release n => exact ⟨(Nat.sub_le _ _).trans h.reserved, h.size, h.cap⟩

/-- **What is reserved never exceeds the queue**, nor the queue its cap; a reservation is refused
exactly when the cap does not fit it. -/
theorem reservation_exact (size maxSize : UInt32) (hcap : 1 ≤ max maxSize.toNat size.toNat)
    (ops : List CqOp) :
    Within ((ledgers size maxSize).run ops) ∧
      (∀ n, ∃ r, ((ledgers size maxSize).run ops).planReserve n = some r ∧
        Plans ((ledgers size maxSize).run ops) n r) ∧
      ∀ (l : CqLedger) n, (l.planReserve n).isSome = true := by
  have h : Within ((ledgers size maxSize).run ops) :=
    (ledgers size maxSize).run_invariant (I := Within) (within_new hcap) (fun l op hl => hl.step op) ops
  refine ⟨h, fun n => ?_, fun l n => planReserve_isSome n l⟩
  obtain ⟨r, hr⟩ := Option.isSome_iff_exists.mp (planReserve_isSome n ((ledgers size maxSize).run ops))
  exact ⟨r, hr, planReserve_plans h hr⟩

/-- A cap that is no double of the start: 3 doubles to 6, then comes to 7. -/
theorem reservation_exact_clamped :
    Within ((ledgers 3 7).run [.reserve 3, .reserve 4, .reserve 1, .release 4]) :=
  (reservation_exact 3 7 (by decide) _).1

end Cadeloop.Core.Rio
