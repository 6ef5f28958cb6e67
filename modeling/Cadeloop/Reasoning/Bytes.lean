import Mathlib

/-!
# Bytes — big-endian words, windows and repeating-key masks

Byte strings are lists.  `beBytes` writes a number as a fixed count of big-endian bytes,
`beNat` reads it back, `slice` is the window `b[off .. off + n]`, and `xorKey` is the
involution that masks a payload with a repeating key.
-/

namespace Cadeloop.Reasoning

abbrev Bytes := List UInt8

/-! ## 1. Big-endian words -/

/-- The `k` big-endian bytes of `n` (`to_be_bytes`); higher digits are cut off. -/
def beBytes : Nat → Nat → Bytes
  | 0, _ => []
  | k + 1, n => UInt8.ofNat (n / 256 ^ k) :: beBytes k n

/-- The number a big-endian byte string stands for (`from_be_bytes`). -/
def beNat (bs : Bytes) : Nat :=
  bs.foldl (fun acc b => acc * 256 + b.toNat) 0

@[simp] theorem beBytes_length (k n : Nat) : (beBytes k n).length = k := by
  induction k with
  | zero => rfl
  | succ k ih => simp only [beBytes, List.length_cons, ih]

theorem beNat_foldl_beBytes (k n acc : Nat) :
    (beBytes k n).foldl (fun acc b => acc * 256 + b.toNat) acc = acc * 256 ^ k + n % 256 ^ k := by
  induction k generalizing acc with
  | zero => simp [beBytes, Nat.mod_one]
  | succ k ih =>
    have hdigit : (UInt8.ofNat (n / 256 ^ k)).toNat = n / 256 ^ k % 256 := by
      simp [UInt8.toNat_ofNat']
    have hsplit : n % 256 ^ (k + 1) = n / 256 ^ k % 256 * 256 ^ k + n % 256 ^ k := by
      rw [pow_succ, Nat.mod_mul, Nat.add_comm, Nat.mul_comm]
    rw [beBytes, List.foldl_cons, ih, hdigit, hsplit]
    ring

/-- Reading the bytes of a number that fits gives the number back. -/
theorem beNat_beBytes {k n : Nat} (h : n < 256 ^ k) : beNat (beBytes k n) = n := by
  rw [beNat, beNat_foldl_beBytes, Nat.mod_eq_of_lt h]
  omega

theorem beNat_lt (bs : Bytes) : beNat bs < 256 ^ bs.length := by
  suffices h : ∀ acc, bs.foldl (fun acc b => acc * 256 + b.toNat) acc <
      (acc + 1) * 256 ^ bs.length by
    simpa [beNat] using h 0
  induction bs with
  | nil => intro acc; simp
  | cons b bs ih =>
    intro acc
    have hb := b.toNat_lt
    calc (b :: bs).foldl (fun acc b => acc * 256 + b.toNat) acc
        < (acc * 256 + b.toNat + 1) * 256 ^ bs.length := ih _
      _ ≤ ((acc + 1) * 256) * 256 ^ bs.length := Nat.mul_le_mul_right _ (by omega)
      _ = (acc + 1) * 256 ^ (b :: bs).length := by rw [List.length_cons, pow_succ]; ring

theorem beNat_cons (b : UInt8) (bs : Bytes) : beNat (b :: bs) = b.toNat * 256 ^ bs.length + beNat bs := by
  have hacc : ∀ acc, bs.foldl (fun acc b => acc * 256 + b.toNat) acc =
      acc * 256 ^ bs.length + beNat bs := by
    induction bs with
    | nil => intro acc; simp [beNat]
    | cons c bs ih =>
      intro acc
      have hhead : beNat (c :: bs) = c.toNat * 256 ^ bs.length + beNat bs := by
        rw [beNat, List.foldl_cons, ih, Nat.zero_mul, Nat.zero_add]
      rw [List.foldl_cons, ih, hhead, List.length_cons, pow_succ]
      ring
  rw [beNat, List.foldl_cons, hacc, Nat.zero_mul, Nat.zero_add]

/-- The higher digits are cut off. -/
theorem beBytes_mul_add (k n m : Nat) : beBytes k (m * 256 ^ k + n) = beBytes k n := by
  induction k generalizing n m with
  | zero => rfl
  | succ k ih =>
    have hcarry : m * 256 ^ (k + 1) + n = (m * 256) * 256 ^ k + n := by rw [pow_succ]; ring
    rw [beBytes, beBytes, hcarry, ih]
    congr 1
    rw [Nat.mul_comm, Nat.mul_add_div (Nat.pos_of_ne_zero (by positivity))]
    apply UInt8.toNat_inj.mp
    simp only [UInt8.toNat_ofNat']
    omega

/-- Writing the number that was read gives the bytes back. -/
theorem beBytes_beNat (bs : Bytes) : beBytes bs.length (beNat bs) = bs := by
  induction bs with
  | nil => rfl
  | cons b bs ih =>
    have hlow := beNat_lt bs
    have hdigit : (b.toNat * 256 ^ bs.length + beNat bs) / 256 ^ bs.length = b.toNat := by
      rw [Nat.mul_comm, Nat.mul_add_div (Nat.pos_of_ne_zero (by positivity)), Nat.div_eq_of_lt hlow,
        Nat.add_zero]
    rw [beNat_cons, List.length_cons, beBytes, hdigit, beBytes_mul_add, ih, UInt8.ofNat_toNat]

/-! ## 2. Windows -/

/-- The window `b[off .. off + n]`. -/
def slice (b : Bytes) (off n : Nat) : Bytes := (b.drop off).take n

theorem slice_length {b : Bytes} {off n : Nat} (h : off + n ≤ b.length) :
    (slice b off n).length = n := by
  simp only [slice, List.length_take, List.length_drop]
  omega

/-- A window that fits does not change when more bytes arrive behind it. -/
theorem slice_append_left {b c : Bytes} {off n : Nat} (h : off + n ≤ b.length) :
    slice (b ++ c) off n = slice b off n := by
  rw [slice, slice, List.drop_append_of_le_length (by omega),
    List.take_append_of_le_length (by rw [List.length_drop]; omega)]

theorem slice_append_right {b : Bytes} (c : Bytes) {len : Nat} (hb : b.length = len)
    (off n : Nat) : slice (b ++ c) (len + off) n = slice c off n := by
  rw [slice, slice, List.drop_append, List.drop_of_length_le (by omega), List.nil_append, hb,
    Nat.add_sub_cancel_left]

theorem slice_zero_append {b : Bytes} (c : Bytes) {n : Nat} (hb : b.length = n) :
    slice (b ++ c) 0 n = b := by
  rw [slice, List.drop_zero, ← hb, List.take_left]

theorem getD_append_left {b c : Bytes} {i : Nat} (h : i < b.length) :
    (b ++ c).getD i 0 = b.getD i 0 :=
  List.getD_append b c 0 i h

/-! ## 3. Repeating-key masks -/

/-- `payload` with byte `i` XORed by key byte `i & 3`. -/
def xorKey (key payload : Bytes) : Bytes :=
  payload.mapIdx fun i x => x ^^^ key.getD (i &&& 3) 0

@[simp] theorem xorKey_length (key payload : Bytes) :
    (xorKey key payload).length = payload.length := by
  simp [xorKey]

/-- Masking twice with one key changes nothing. -/
@[simp] theorem xorKey_xorKey (key payload : Bytes) :
    xorKey key (xorKey key payload) = payload := by
  apply List.ext_getElem
  · simp
  · intro i h₁ h₂
    simp [xorKey]

end Cadeloop.Reasoning
