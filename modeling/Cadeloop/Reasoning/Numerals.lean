import Cadeloop.Reasoning.Bytes

/-!
# Text — ASCII literals, numerals, trimming

Numbers are written in a base up to 16 with lower-case digits and read with either case.
-/

namespace Cadeloop.Reasoning

def ascii (s : String) : Bytes := s.toList.map fun c => UInt8.ofNat c.toNat

/-! ## 1. Numerals -/

def digitByte (d : Nat) : UInt8 := UInt8.ofNat (if d < 10 then 48 + d else 87 + d)

def digitValue (b : UInt8) : Option Nat :=
  if 48 ≤ b.toNat ∧ b.toNat ≤ 57 then some (b.toNat - 48)
  else if 97 ≤ b.toNat ∧ b.toNat ≤ 102 then some (b.toNat - 87)
  else if 65 ≤ b.toNat ∧ b.toNat ≤ 70 then some (b.toNat - 55)
  else none

/-- `n` in base `base`, most significant digit first. -/
def numeral (base n : Nat) : Bytes :=
  if n = 0 then [48] else (Nat.digits base n).reverse.map digitByte

def readDigits (base : Nat) : Nat → Bytes → Option Nat
  | acc, [] => some acc
  | acc, b :: bs =>
    match digitValue b with
    | some d => if d < base then readDigits base (acc * base + d) bs else none
    | none => none

def readNumeral (base : Nat) (bs : Bytes) : Option Nat :=
  if bs = [] then none else readDigits base 0 bs

theorem digitValue_digitByte : ∀ d < 16, digitValue (digitByte d) = some d := by decide

theorem readDigits_map {base : Nat} (hbase : base ≤ 16) {ds : List Nat} (hds : ∀ d ∈ ds, d < base)
    (acc : Nat) : readDigits base acc (ds.map digitByte) =
      some (ds.foldl (fun acc d => acc * base + d) acc) := by
  induction ds generalizing acc with
  | nil => rfl
  | cons d ds ih =>
    have hd : d < base := hds d List.mem_cons_self
    rw [List.map_cons, readDigits, digitValue_digitByte d (by omega)]
    dsimp only
    rw [if_pos hd, ih fun d' hd' => hds d' (List.mem_cons_of_mem _ hd')]
    rfl

theorem foldl_digits (base n : Nat) :
    (Nat.digits base n).reverse.foldl (fun acc d => acc * base + d) 0 = n := by
  have h := Nat.ofDigits_digits base n
  rw [Nat.ofDigits_eq_foldr] at h
  rw [List.foldl_reverse]
  simpa [Nat.mul_comm, Nat.add_comm] using h

/-- Reading what was written. -/
theorem readNumeral_numeral {base : Nat} (hbase : 1 < base) (hle : base ≤ 16) (n : Nat) :
    readNumeral base (numeral base n) = some n := by
  unfold numeral
  by_cases hn : n = 0
  · rw [if_pos hn, readNumeral, if_neg (by simp), readDigits]
    have hzero : digitValue 48 = some 0 := by decide
    rw [hzero, hn]
    dsimp only
    rw [if_pos (by omega)]
    simp [readDigits]
  · have hne : (Nat.digits base n).reverse.map digitByte ≠ [] := by
      simp [Nat.digits_ne_nil_iff_ne_zero, hn]
    rw [if_neg hn, readNumeral, if_neg hne, readDigits_map hle, foldl_digits]
    intro d hd
    exact Nat.digits_lt_base hbase (List.mem_reverse.mp hd)

theorem mem_numeral {base : Nat} (hbase : 1 < base) {n : Nat} {b : UInt8}
    (hb : b ∈ numeral base n) : ∃ d < base, b = digitByte d := by
  unfold numeral at hb
  split at hb
  · exact ⟨0, by omega, List.mem_singleton.mp hb⟩
  · obtain ⟨d, hd, rfl⟩ := List.mem_map.mp hb
    exact ⟨d, Nat.digits_lt_base hbase (List.mem_reverse.mp hd), rfl⟩

theorem numeral_ne_nil (base n : Nat) : numeral base n ≠ [] := by
  unfold numeral
  split
  · simp
  · rename_i hn
    simp [Nat.digits_ne_nil_iff_ne_zero, hn]

/-- A number from 100 to 999 has three digits. -/
theorem numeral_three {n : Nat} (hlow : 100 ≤ n) (hhigh : n ≤ 999) :
    ∃ a b c, numeral 10 n = [a, b, c] := by
  have hlen : (Nat.digits 10 n).length = 3 := by
    rw [Nat.length_digits 10 n (by omega) (by omega)]
    have hlog : Nat.log 10 n = 2 := by
      rw [Nat.log_eq_iff (by omega)]
      omega
    rw [hlog]
  have hlen' : (numeral 10 n).length = 3 := by
    rw [numeral, if_neg (by omega), List.length_map, List.length_reverse, hlen]
  exact List.length_eq_three.mp hlen'

/-! ## 2. Trimming -/

/-- `v` without the bytes of `p` at its ends. -/
def trim (p : UInt8 → Bool) (v : Bytes) : Bytes := (v.dropWhile p).rdropWhile p

theorem trim_cons {p : UInt8 → Bool} {b : UInt8} (hb : p b = true) (v : Bytes) :
    trim p (b :: v) = trim p v := by
  rw [trim, trim, List.dropWhile_cons_of_pos hb]

theorem dropWhile_congr {p q : UInt8 → Bool} {v : Bytes} (h : ∀ b ∈ v, p b = q b) :
    v.dropWhile p = v.dropWhile q := by
  induction v with
  | nil => rfl
  | cons b v ih =>
    rw [List.dropWhile_cons, List.dropWhile_cons, h b List.mem_cons_self,
      ih fun c hc => h c (List.mem_cons_of_mem _ hc)]

theorem trim_congr {p q : UInt8 → Bool} {v : Bytes} (h : ∀ b ∈ v, p b = q b) :
    trim p v = trim q v := by
  rw [trim, trim, dropWhile_congr h, List.rdropWhile, List.rdropWhile, dropWhile_congr]
  intro b hb
  exact h b ((List.dropWhile_sublist _).subset (List.mem_reverse.mp hb))

theorem mem_of_mem_trim {p : UInt8 → Bool} {v : Bytes} {b : UInt8} (hb : b ∈ trim p v) : b ∈ v :=
  (List.dropWhile_sublist _).subset ((List.rdropWhile_prefix p _).subset hb)

/-! ## 3. Letter case -/

def toLower (b : UInt8) : UInt8 := if 65 ≤ b.toNat ∧ b.toNat ≤ 90 then b + 32 else b

def lower (v : Bytes) : Bytes := v.map toLower

end Cadeloop.Reasoning
