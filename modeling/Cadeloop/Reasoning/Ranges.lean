import Mathlib

/-!
# Ranges in order

A list of items, each with the half-open range `[start, start + size)` it covers, in order and
without overlap; and the search for the first item that fails a predicate.  What covers a point is
the last item that starts at or below it, or nothing.
-/

namespace Cadeloop.Reasoning.Ranges

variable {α : Type*}

/-! ## 1. The partition point -/

/-- How many items come before the first one that fails `p`. -/
def partitionPoint (p : α → Bool) (l : List α) : Nat := (l.takeWhile p).length

/-- The items before the partition point, and those from it on. -/
theorem partitionPoint_split (p : α → Bool) (l : List α) :
    ∃ low high, l = low ++ high ∧ low.length = partitionPoint p l ∧
      (∀ a ∈ low, p a = true) ∧ ∀ a, high.head? = some a → p a = false := by
  refine ⟨l.takeWhile p, l.dropWhile p, List.takeWhile_append_dropWhile.symm, rfl,
    fun a ha => List.mem_takeWhile_imp ha, fun a ha => ?_⟩
  have hnot := List.head?_dropWhile_not p l
  rw [ha] at hnot
  simpa using hnot

theorem getElem?_low (low high : List α) (hne : low.length ≠ 0) :
    (low ++ high)[low.length - 1]? = low.getLast? := by
  rw [List.getElem?_append_left (by omega), List.getLast?_eq_getElem?]

theorem getElem?_high (low high : List α) : (low ++ high)[low.length]? = high.head? := by
  rw [List.getElem?_append_right (Nat.le_refl _), Nat.sub_self, List.head?_eq_getElem?]

theorem insertIdx_length (low high : List α) (a : α) :
    (low ++ high).insertIdx low.length a = low ++ a :: high := by
  induction low with
  | nil => rfl
  | cons b low ih => simpa using ih

/-! ## 2. Ranges -/

section Ordered

variable (start size : α → Nat)

/-- In order, and no two overlap. -/
def Ordered (l : List α) : Prop := l.Pairwise fun a b => start a + size a ≤ start b

/-- `[ptr, ptr + len)` lies inside the item's range. -/
def Covers (a : α) (ptr len : Nat) : Prop := start a ≤ ptr ∧ ptr + len ≤ start a + size a

/-- The item's range and `[base, base + len)` have an address in common. -/
def Overlaps (a : α) (base len : Nat) : Prop := start a < base + len ∧ base < start a + size a

instance (a : α) (base len : Nat) : Decidable (Overlaps start size a base len) :=
  inferInstanceAs (Decidable (_ ∧ _))

variable {start size} {low high : List α}

theorem Ordered.sublist {l l' : List α} (h : Ordered start size l) (hsub : l'.Sublist l) :
    Ordered start size l' := List.Pairwise.sublist hsub h

theorem Ordered.le_last {l : List α} (h : Ordered start size l) {a last : α} (ha : a ∈ l)
    (hlast : l.getLast? = some last) : a = last ∨ start a + size a ≤ start last := by
  obtain ⟨init, rfl⟩ := List.getLast?_eq_some_iff.mp hlast
  rcases List.mem_append.mp ha with hinit | hin
  · exact .inr ((List.pairwise_append.mp h).2.2 a hinit last (List.mem_singleton.mpr rfl))
  · exact .inl (List.mem_singleton.mp hin)

theorem Ordered.first_le {l : List α} (h : Ordered start size l) {a first : α} (ha : a ∈ l)
    (hfirst : l.head? = some first) : a = first ∨ start first + size first ≤ start a := by
  obtain ⟨rest, rfl⟩ := List.head?_eq_some_iff.mp hfirst
  rcases List.mem_cons.mp ha with rfl | hrest
  · exact .inl rfl
  · exact .inr (List.rel_of_pairwise_cons h hrest)

theorem exists_last {l : List α} {a : α} (ha : a ∈ l) : ∃ last, l.getLast? = some last ∧ last ∈ l :=
  ⟨l.getLast (List.ne_nil_of_mem ha), List.getLast?_eq_some_getLast _, List.getLast_mem _⟩

theorem exists_first {l : List α} {a : α} (ha : a ∈ l) : ∃ first, l.head? = some first ∧ first ∈ l :=
  ⟨l.head (List.ne_nil_of_mem ha), List.head?_eq_some_head _, List.head_mem _⟩

/-- An item is placed between two that end before it and start after it. -/
theorem Ordered.insert (h : Ordered start size (low ++ high)) {x : α}
    (hlow : ∀ a, low.getLast? = some a → start a + size a ≤ start x)
    (hhigh : ∀ a, high.head? = some a → start x + size x ≤ start a) :
    Ordered start size (low ++ x :: high) := by
  obtain ⟨hl, hh, hcross⟩ := List.pairwise_append.mp h
  have hbelow : ∀ a ∈ low, start a + size a ≤ start x := by
    intro a ha
    obtain ⟨last, hlast, -⟩ := exists_last ha
    have hend := hlow last hlast
    rcases Ordered.le_last hl ha hlast with rfl | hle
    · exact hend
    · omega
  have habove : ∀ b ∈ high, start x + size x ≤ start b := by
    intro b hb
    obtain ⟨first, hfirst, -⟩ := exists_first hb
    have hend := hhigh first hfirst
    rcases Ordered.first_le hh hb hfirst with rfl | hle
    · exact hend
    · omega
  refine List.pairwise_append.mpr ⟨hl, List.pairwise_cons.mpr ⟨habove, hh⟩, fun a ha b hb => ?_⟩
  rcases List.mem_cons.mp hb with rfl | hb
  · exact hbelow a ha
  · exact hcross a ha b hb

/-- A new range overlaps an item exactly if it overlaps a neighbour of its place. -/
theorem Ordered.overlaps_iff (h : Ordered start size (low ++ high)) {base : Nat} (len : Nat)
    (hsize : ∀ a ∈ high, 0 < size a) (hlow : ∀ a ∈ low, start a < base)
    (hhigh : ∀ a, high.head? = some a → base ≤ start a) :
    (∃ a ∈ low ++ high, Overlaps start size a base len) ↔
      (∃ a, low.getLast? = some a ∧ base < start a + size a) ∨
        ∃ a, high.head? = some a ∧ start a < base + len := by
  obtain ⟨hl, hh, -⟩ := List.pairwise_append.mp h
  constructor
  · rintro ⟨a, ha, hover⟩
    rcases List.mem_append.mp ha with hin | hin
    · left
      obtain ⟨last, hlast, hmem⟩ := exists_last hin
      refine ⟨last, hlast, ?_⟩
      rcases Ordered.le_last hl hin hlast with rfl | hle
      · exact hover.2
      · -- one that ends before the last starts does not reach the new range
        have hlt := hlow last hmem
        have hreach := hover.2
        omega
    · right
      obtain ⟨first, hfirst, -⟩ := exists_first hin
      refine ⟨first, hfirst, ?_⟩
      rcases Ordered.first_le hh hin hfirst with rfl | hle
      · exact hover.1
      · have hlt := hover.1
        omega
  · rintro (⟨a, ha, hreach⟩ | ⟨a, ha, hreach⟩)
    · have hin : a ∈ low := List.mem_of_getLast? ha
      have hlt := hlow a hin
      exact ⟨a, List.mem_append_left _ hin, Nat.lt_add_right len hlt, hreach⟩
    · have hin : a ∈ high := List.mem_of_head? ha
      have hpos := hsize a hin
      have hle := hhigh a ha
      exact ⟨a, List.mem_append_right _ hin, hreach, Nat.lt_of_le_of_lt hle (Nat.lt_add_of_pos_right hpos)⟩

/-- What covers a range is the last item that starts at or below it. -/
theorem Ordered.covers_iff (h : Ordered start size (low ++ high)) {ptr len : Nat} (hlen : 0 < len)
    (hlow : ∀ a ∈ low, start a ≤ ptr) (hhigh : ∀ a, high.head? = some a → ptr < start a) (a : α) :
    (a ∈ low ++ high ∧ Covers start size a ptr len) ↔
      low.getLast? = some a ∧ Covers start size a ptr len := by
  obtain ⟨hl, hh, -⟩ := List.pairwise_append.mp h
  constructor
  · rintro ⟨ha, hcovers⟩
    refine ⟨?_, hcovers⟩
    obtain ⟨hstart, hend⟩ := hcovers
    rcases List.mem_append.mp ha with hin | hin
    · obtain ⟨last, hlast, hmem⟩ := exists_last hin
      rcases Ordered.le_last hl hin hlast with rfl | hle
      · exact hlast
      · have hbelow := hlow last hmem
        omega
    · obtain ⟨first, hfirst, -⟩ := exists_first hin
      have habove := hhigh first hfirst
      rcases Ordered.first_le hh hin hfirst with rfl | hle
      · omega
      · omega
  · rintro ⟨ha, hcovers⟩
    exact ⟨List.mem_append_left _ (List.mem_of_getLast? ha), hcovers⟩

end Ordered

end Cadeloop.Reasoning.Ranges
