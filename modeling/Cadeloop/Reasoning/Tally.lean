import Mathlib.Data.List.AList

/-!
# Counting the entries of a table

How many entries of an association list meet a test, and how the number moves when one entry is
written or taken out.  A resource owned by entries of several tables is accounted for by the sum.
-/

namespace Cadeloop.Reasoning

abbrev Table (κ α : Type*) := AList fun _ : κ => α

namespace Table

variable {κ α : Type*} [DecidableEq κ]

def tally (p : α → Bool) (t : Table κ α) : Nat := t.entries.countP fun e => p e.2

omit [DecidableEq κ] in
theorem tally_empty (p : α → Bool) : tally p (∅ : Table κ α) = 0 := rfl

variable {p : α → Bool} {t : Table κ α} {k : κ} {a b : α}

theorem lookup_insert_ite (t : Table κ α) (k k' : κ) (a : α) :
    (t.insert k a).lookup k' = if k' = k then some a else t.lookup k' := by
  split
  · rename_i h
    rw [h, AList.lookup_insert]
  · exact AList.lookup_insert_ne ‹_›

theorem lookup_erase_ite (t : Table κ α) (k k' : κ) :
    (t.erase k).lookup k' = if k' = k then none else t.lookup k' := by
  split
  · rename_i h
    rw [h, AList.lookup_erase]
  · exact AList.lookup_erase_ne ‹_›

/-- What a table that had an entry written has: that one, or another it had. -/
theorem lookup_insert_some {k' : κ} (h : (t.insert k a).lookup k' = some b) :
    (k' = k ∧ b = a) ∨ (k' ≠ k ∧ t.lookup k' = some b) := by
  rw [lookup_insert_ite] at h
  split at h
  · injection h with h
    exact .inl ⟨‹_›, h.symm⟩
  · exact .inr ⟨‹_›, h⟩

theorem lookup_erase_some {k' : κ} (h : (t.erase k).lookup k' = some b) :
    k' ≠ k ∧ t.lookup k' = some b := by
  rw [lookup_erase_ite] at h
  split at h
  · cases h
  · exact ⟨‹_›, h⟩

/-- An entry taken out counts no more. -/
theorem tally_erase (h : t.lookup k = some a) :
    tally p (t.erase k) + (p a).toNat = tally p t := by
  have hmem : k ∈ t.entries.keys := AList.lookup_isSome.mp (by rw [h]; rfl)
  obtain ⟨b, l₁, l₂, hnot, hsplit, herase⟩ := List.exists_of_kerase hmem
  have hb : b = a := by
    have hlook : t.entries.dlookup k = some a := h
    rw [hsplit, List.dlookup_append, List.dlookup_eq_none.mpr hnot] at hlook
    simpa using hlook
  have hentries : (t.erase k).entries = l₁ ++ l₂ := herase
  rw [tally, tally, hentries, hsplit, hb, List.countP_append, List.countP_append, List.countP_cons]
  cases p a
  · simp
  · simp
    omega

theorem erase_none (h : t.lookup k = none) : t.erase k = t := by
  have hnot : k ∉ t.entries.keys := AList.lookup_eq_none.mp h
  exact AList.ext (List.kerase_of_notMem_keys hnot)

theorem tally_erase_none (h : t.lookup k = none) : tally p (t.erase k) = tally p t := by
  rw [erase_none h]

theorem tally_insert (a : α) : tally p (t.insert k a) = tally p (t.erase k) + (p a).toNat := by
  rw [tally, AList.entries_insert, List.countP_cons]
  show List.countP _ (t.erase k).entries + _ = _
  cases p a <;> rfl

/-- A new entry counts if it meets the test. -/
theorem tally_insert_none (h : t.lookup k = none) (a : α) :
    tally p (t.insert k a) = tally p t + (p a).toNat := by
  rw [tally_insert, tally_erase_none h]

/-- An entry written over: the old one counts no more, the new one does. -/
theorem tally_insert_some (h : t.lookup k = some a) (b : α) :
    tally p (t.insert k b) + (p a).toNat = tally p t + (p b).toNat := by
  rw [tally_insert, ← tally_erase h]
  omega

theorem tally_pos : 0 < tally p t ↔ ∃ k a, t.lookup k = some a ∧ p a = true := by
  rw [tally, List.countP_pos_iff]
  constructor
  · rintro ⟨⟨k, a⟩, hmem, hp⟩
    exact ⟨k, a, AList.mem_lookup_iff.mpr hmem, hp⟩
  · rintro ⟨k, a, hlook, hp⟩
    exact ⟨⟨k, a⟩, AList.mem_lookup_iff.mp hlook, hp⟩

/-- What one entry holds alone, no other does. -/
theorem unique_of_tally (hone : tally p t ≤ 1) {k k' : κ} (h : t.lookup k = some a)
    (h' : t.lookup k' = some b) (ha : p a = true) (hb : p b = true) : k = k' := by
  by_contra hne
  have herase := tally_erase (p := p) h
  have hother : 0 < tally p (t.erase k) :=
    tally_pos.mpr ⟨k', b, by rw [AList.lookup_erase_ne (Ne.symm hne)]; exact h', hb⟩
  rw [ha] at herase
  have htrue : true.toNat = 1 := rfl
  omega

/-- No entry meets the test. -/
theorem tally_eq_zero (h : ∀ k a, t.lookup k = some a → p a = false) : tally p t = 0 := by
  by_contra hne
  obtain ⟨k, a, hlook, hp⟩ := tally_pos.mp (Nat.pos_of_ne_zero hne)
  rw [h k a hlook] at hp
  cases hp

/-- Every key taken out, one after the other. -/
theorem foldl_erase_keys (t : Table κ α) : t.keys.foldl (fun t k => t.erase k) t = ∅ := by
  have hfold : ∀ (ks : List κ) (t : Table κ α) (k : κ),
      (ks.foldl (fun t k => t.erase k) t).lookup k = if k ∈ ks then none else t.lookup k := by
    intro ks
    induction ks with
    | nil =>
      intro t k
      rw [if_neg List.not_mem_nil]
      rfl
    | cons k' ks ih =>
      intro t k
      rw [List.foldl_cons, ih, lookup_erase_ite]
      by_cases hk : k = k'
      · rw [hk, if_pos rfl, ite_self, if_pos List.mem_cons_self]
      · rw [if_neg hk]
        simp only [List.mem_cons, hk, false_or]
  have hnone : ∀ k, (t.keys.foldl (fun t k => t.erase k) t).lookup k = none := by
    intro k
    rw [hfold]
    split
    · rfl
    · exact AList.lookup_eq_none.mpr fun hmem => absurd (AList.mem_keys.mp hmem) ‹_›
  generalize t.keys.foldl (fun t k => t.erase k) t = s at hnone
  refine AList.ext (List.eq_nil_iff_forall_not_mem.mpr fun e he => ?_)
  have hlook : s.lookup e.1 = some e.2 := AList.mem_lookup_iff.mpr he
  rw [hnone] at hlook
  cases hlook

end Table

end Cadeloop.Reasoning
