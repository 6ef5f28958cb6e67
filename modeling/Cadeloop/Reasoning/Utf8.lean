import Mathlib

/-!
# UTF-8 — character boundaries and prefixes

A byte of a string either starts a character or continues one, and the top two bits say which.  So the
boundaries of the characters are where no byte `10xxxxxx` stands, and stepping back over such bytes from
any position ends at the last boundary before it.
-/

namespace Cadeloop.Reasoning.Utf8

open String (utf8EncodeChar)

/-! ## 1. Bytes that continue a character -/

/-- `10xxxxxx` -/
def continues (b : UInt8) : Bool := 128 ≤ b && b < 192

theorem not_continues {b : UInt8} : continues b = false ↔ b < 128 ∨ 192 ≤ b := by
  rw [continues, Bool.and_eq_false_iff, decide_eq_false_iff_not, decide_eq_false_iff_not, UInt8.not_le,
    UInt8.not_lt]

theorem not_continues_of_isUTF8FirstByte (b : UInt8) (h : b.IsUTF8FirstByte) : continues b = false := by
  have hall : ∀ n : Fin 256, (UInt8.ofNat n).IsUTF8FirstByte → continues (UInt8.ofNat n) = false := by
    decide +kernel
  have hb := hall ⟨b.toNat, b.toNat_lt⟩
  simp only [UInt8.ofNat_toNat] at hb
  exact hb h

theorem continues_low (v : Nat) : continues (UInt8.ofNat (v % 64) + 128) = true := by
  have hall : ∀ n : Fin 64, continues (UInt8.ofNat n + 128) = true := by decide +kernel
  exact hall ⟨v % 64, Nat.mod_lt v (by decide)⟩

/-- What does not start a character continues it. -/
theorem continues_of_mem_utf8EncodeChar {c : Char} {b : UInt8} (h : b ∈ utf8EncodeChar c)
    (hfirst : ¬ b.IsUTF8FirstByte) : continues b = true := by
  obtain ⟨i, hi, rfl⟩ := List.getElem_of_mem h
  rw [UInt8.isUTF8FirstByte_getElem_utf8EncodeChar] at hfirst
  obtain ⟨i, rfl⟩ := Nat.exists_eq_succ_of_ne_zero hfirst
  have htail : ∀ b ∈ (utf8EncodeChar c).tail, continues b = true := by
    unfold utf8EncodeChar
    dsimp only
    split
    · simp
    split
    · simp [continues_low]
    split
    · simp [continues_low]
    · simp [continues_low]
  apply htail
  rw [← List.getElem_tail (by rw [List.length_tail]; omega)]
  exact List.getElem_mem _

theorem continues_of_mem_string {s : String} {b : UInt8} (h : b ∈ s.toByteArray.data.toList)
    (hfirst : ¬ b.IsUTF8FirstByte) : continues b = true := by
  have hbytes : s.toByteArray.data.toList = s.toList.flatMap utf8EncodeChar := by
    rw [← String.ofList_toList (s := s), String.toByteArray_ofList, String.toList_ofList, List.utf8Encode,
      List.toList_data_toByteArray]
  rw [hbytes, List.mem_flatMap] at h
  obtain ⟨c, -, hc⟩ := h
  exact continues_of_mem_utf8EncodeChar hc hfirst

/-! ## 2. Boundaries -/

/-- A position is a boundary unless the byte there continues a character. -/
theorem isValid_iff_not_continues {s : String} {p : String.Pos.Raw} :
    p.IsValid s ↔ p = s.rawEndPos ∨ ∃ h : p < s.rawEndPos, continues (s.getUTF8Byte p h) = false := by
  rw [String.Pos.Raw.isValid_iff_isUTF8FirstByte]
  refine or_congr_right (exists_congr fun h => ⟨not_continues_of_isUTF8FirstByte _, fun hb => ?_⟩)
  by_contra hfirst
  have hmem : s.getUTF8Byte p h ∈ s.toByteArray.data.toList := by
    rw [String.getUTF8Byte_eq_getElem, ByteArray.getElem_eq_getElem_data]
    exact Array.getElem_mem_toList _
  exact absurd (hb.symm.trans (continues_of_mem_string hmem hfirst)) (by decide)

/-- The longest prefix of at most `max` bytes. -/
structure LongestPrefix (max : Nat) (s p : String) : Prop where
  isPrefix : ∃ rest, p ++ rest = s
  fits : p.utf8ByteSize ≤ max
  longest : ∀ q rest, q ++ rest = s → q.utf8ByteSize ≤ max → q.utf8ByteSize ≤ p.utf8ByteSize

theorem eq_of_append {p q r r' : String} (h : p ++ r = q ++ r') (hsize : p.utf8ByteSize = q.utf8ByteSize) :
    p = q := by
  have hbytes := congrArg (fun s : String => s.toByteArray.data.toList) h
  simp only [String.toByteArray_append, ByteArray.data_append, Array.toList_append] at hbytes
  have hlength : p.toByteArray.data.toList.length = q.toByteArray.data.toList.length := hsize
  have hleft := (List.append_inj hbytes hlength).1
  apply String.toByteArray_inj.mp
  exact ByteArray.ext (Array.toList_inj.mp hleft)

theorem LongestPrefix.unique {max : Nat} {s p q : String} (hp : LongestPrefix max s p)
    (hq : LongestPrefix max s q) : p = q := by
  obtain ⟨r, hr⟩ := hp.isPrefix
  obtain ⟨r', hr'⟩ := hq.isPrefix
  apply eq_of_append (hr.trans hr'.symm)
  exact Nat.le_antisymm (hq.longest p r hr hp.fits) (hp.longest q r' hr' hq.fits)

/-- A string that fits is its own longest prefix. -/
theorem LongestPrefix.whole {max : Nat} {s : String} (h : s.utf8ByteSize ≤ max) : LongestPrefix max s s where
  isPrefix := ⟨"", String.append_empty⟩
  fits := h
  longest := by
    rintro q rest rfl -
    rw [String.utf8ByteSize_append]
    exact Nat.le_add_right _ _

/-- The prefix up to the last boundary. -/
theorem LongestPrefix.of_boundary {max n : Nat} {s p rest : String} (hs : p ++ rest = s)
    (hn : p.utf8ByteSize = n) (hle : n ≤ max)
    (hlast : ∀ m, m ≤ max → (String.Pos.Raw.mk m).IsValid s → m ≤ n) : LongestPrefix max s p where
  isPrefix := ⟨rest, hs⟩
  fits := hn.le.trans hle
  longest := by
    rintro q rest' rfl hfits
    rw [hn]
    apply hlast _ hfits
    exact String.Pos.Raw.isValid_iff_exists_append.mpr ⟨q, rest', rfl, rfl⟩

theorem ofList_cons (c : Char) (cs : List Char) :
    String.ofList (c :: cs) = String.ofList [c] ++ String.ofList cs := by
  rw [← String.ofList_append]
  rfl

theorem utf8ByteSize_ofList_cons (c : Char) (cs : List Char) :
    (String.ofList (c :: cs)).utf8ByteSize = c.utf8Size + (String.ofList cs).utf8ByteSize := by
  rw [ofList_cons, String.utf8ByteSize_append]
  simp

/-- A prefix of a string is empty or has its first character. -/
theorem prefix_ofList_cons {c : Char} {cs : List Char} {p rest : String}
    (h : p ++ rest = String.ofList (c :: cs)) :
    p.utf8ByteSize = 0 ∨
      ∃ p', p' ++ rest = String.ofList cs ∧ p.utf8ByteSize = c.utf8Size + p'.utf8ByteSize := by
  have hchars := congrArg String.toList h
  rw [String.toList_append, String.toList_ofList] at hchars
  rw [← String.ofList_toList (s := p)]
  cases hp : p.toList with
  | nil => exact .inl rfl
  | cons d ds =>
    rw [hp, List.cons_append, List.cons.injEq] at hchars
    obtain ⟨rfl, rfl⟩ := hchars
    right
    refine ⟨String.ofList ds, ?_, utf8ByteSize_ofList_cons d ds⟩
    rw [String.ofList_append, String.ofList_toList]

end Cadeloop.Reasoning.Utf8
