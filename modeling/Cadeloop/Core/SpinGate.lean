import Mathlib

/-!
# The adaptive spin gate (`crates/core/src/spin_gate.rs`)

Whether a park spins first.  A spin that catches work earns credit and one that catches nothing
spends it; with no credit left, one park in `probeEvery` spins anyway.  The bound on what that costs
is amortised: the credit pays for the spins that miss, and the parks since the last probe pay for
the next one.
-/

namespace Cadeloop.Core.Spin

/-! ## 1. The gate -/

def hitCredit : Nat := 3

def maxCredit : Nat := 12

def probeEvery : Nat := 8

-- both counters are u8
structure SpinGate where
  credit : Nat
  -- parks since the last probe while shut
  sinceProbe : Nat

namespace SpinGate

def new : SpinGate := ⟨maxCredit, 0⟩

/-- Spin before this park? -/
def shouldSpin (gate : SpinGate) : Bool × SpinGate :=
  -- open, or a probe is due, and stays due until `record`
  if gate.credit > 0 ∨ (gate.sinceProbe + 1) % 2 ^ 8 ≥ probeEvery then (true, gate)
  else (false, { gate with sinceProbe := (gate.sinceProbe + 1) % 2 ^ 8 })

/-- What a spin found: work that arrived during it, or nothing in its whole window. -/
def record (hit : Bool) (gate : SpinGate) : SpinGate where
  sinceProbe := 0
  credit := if hit then min ((gate.credit + hitCredit) % 2 ^ 8) maxCredit else gate.credit - 1

end SpinGate

/-! ## 2. Parks -/

/-- One park; `found` is what its spin would record, should it spin.  One ended early, by work already
waiting or by a due timer, records nothing. -/
def park (gate : SpinGate) (found : Option Bool) : SpinGate :=
  let r := gate.shouldSpin
  if r.1 then
    match found with
    | some hit => r.2.record hit
    | none => r.2
  else r.2

def parks (gate : SpinGate) (founds : List (Option Bool)) : SpinGate := founds.foldl park gate

/-- Which parks spin. -/
def spins (gate : SpinGate) : List (Option Bool) → List Bool
  | [] => []
  | found :: founds => gate.shouldSpin.1 :: spins (park gate found) founds

/-- The hits recorded. -/
def hits (gate : SpinGate) : List (Option Bool) → Nat
  | [] => 0
  | found :: founds =>
    (if gate.shouldSpin.1 ∧ found = some true then 1 else 0) + hits (park gate found) founds

/-! ## 3. What a park does -/

/-- The invariant: both counters stay under their bounds. -/
structure Bounded (gate : SpinGate) : Prop where
  credit : gate.credit ≤ maxCredit
  sinceProbe : gate.sinceProbe < probeEvery

theorem bounded_new : Bounded .new := ⟨Nat.le_refl _, by decide⟩

variable {gate : SpinGate}

/-- What a park comes to: no spin, a spin that records nothing, or one that records. -/
theorem park_cases (h : Bounded gate) (found : Option Bool) :
    (gate.shouldSpin.1 = false ∧ gate.credit = 0 ∧ gate.sinceProbe + 1 < probeEvery ∧
        park gate found = ⟨0, gate.sinceProbe + 1⟩) ∨
      (gate.shouldSpin.1 = true ∧ (0 < gate.credit ∨ gate.sinceProbe + 1 = probeEvery) ∧
        ((found = none ∧ park gate found = gate) ∨
          (found = some false ∧ park gate found = ⟨gate.credit - 1, 0⟩) ∨
          (found = some true ∧ park gate found = ⟨min (gate.credit + hitCredit) maxCredit, 0⟩))) := by
  obtain ⟨credit, sinceProbe⟩ := gate
  obtain ⟨hcredit, hsince⟩ := h
  simp only [maxCredit, probeEvery] at hcredit hsince
  -- neither counter comes near 2^8
  have hcreditMod : (credit + hitCredit) % 2 ^ 8 = credit + hitCredit := by
    simp only [hitCredit]
    omega
  have hsinceMod : (sinceProbe + 1) % 2 ^ 8 = sinceProbe + 1 := by omega
  by_cases hspin : credit > 0 ∨ sinceProbe + 1 ≥ probeEvery
  · right
    have hshould : SpinGate.shouldSpin ⟨credit, sinceProbe⟩ = (true, ⟨credit, sinceProbe⟩) := by
      unfold SpinGate.shouldSpin
      rw [if_pos (by rw [hsinceMod]; exact hspin)]
    refine ⟨by rw [hshould], ?_, ?_⟩
    · simp only [probeEvery] at hspin ⊢
      omega
    · unfold park
      rw [hshould]
      cases found with
      | none => exact .inl ⟨rfl, rfl⟩
      | some hit =>
        cases hit with
        | false => exact .inr (.inl ⟨rfl, rfl⟩)
        | true =>
          refine .inr (.inr ⟨rfl, ?_⟩)
          show (⟨min ((credit + hitCredit) % 2 ^ 8) maxCredit, 0⟩ : SpinGate) = _
          rw [hcreditMod]
  · left
    have hshould : SpinGate.shouldSpin ⟨credit, sinceProbe⟩ = (false, ⟨credit, sinceProbe + 1⟩) := by
      unfold SpinGate.shouldSpin
      rw [if_neg (by rw [hsinceMod]; exact hspin), hsinceMod]
    have hzero : credit = 0 := by omega
    refine ⟨by rw [hshould], hzero, ?_, ?_⟩
    · show sinceProbe + 1 < probeEvery
      omega
    · unfold park
      rw [hshould, hzero]
      rfl

theorem Bounded.park (h : Bounded gate) (found : Option Bool) : Bounded (park gate found) := by
  have hcredit := h.credit
  have hsince := h.sinceProbe
  rcases park_cases h found with ⟨-, -, hlt, heq⟩ | ⟨-, -, ⟨-, heq⟩ | ⟨-, heq⟩ | ⟨-, heq⟩⟩
  · rw [heq]
    exact ⟨Nat.zero_le _, hlt⟩
  · rw [heq]
    exact h
  · rw [heq]
    exact ⟨(Nat.sub_le _ _).trans hcredit, Nat.succ_pos _⟩
  · rw [heq]
    exact ⟨Nat.min_le_right _ _, Nat.succ_pos _⟩

theorem Bounded.parks (h : Bounded gate) (founds : List (Option Bool)) :
    Bounded (parks gate founds) := by
  induction founds generalizing gate with
  | nil => exact h
  | cons found founds ih => exact ih (h.park found)

/-! ## 4. The cost -/

/-- The credit left and the parks since the last probe pay for the spins to come. -/
theorem spins_le (h : Bounded gate) (founds : List Bool) :
    (spins gate (founds.map some)).count true ≤
      gate.credit + (hitCredit + 1) * hits gate (founds.map some) +
        (founds.length + gate.sinceProbe) / probeEvery := by
  induction founds generalizing gate with
  | nil => simp [spins]
  | cons found founds ih =>
    have hrest := ih (h.park (some found))
    have hsince := h.sinceProbe
    simp only [List.map_cons, spins, hits, List.length_cons]
    rcases park_cases h (some found) with ⟨hspin, -, hlt, heq⟩ |
      ⟨hspin, hdue, ⟨hfound, -⟩ | ⟨hfound, heq⟩ | ⟨hfound, heq⟩⟩
    · -- no spin: one park more since the last probe
      rw [heq] at hrest ⊢
      rw [hspin]
      simp only [List.count_cons, hitCredit, probeEvery] at hrest ⊢
      simp only [beq_iff_eq, Bool.false_eq_true, if_false, false_and]
      omega
    · cases hfound
    · -- a miss: paid by the credit, or by the parks since the last probe
      rw [heq] at hrest ⊢
      rw [hspin, hfound]
      simp only [List.count_cons, hitCredit, probeEvery] at hrest hdue ⊢
      simp
      omega
    · rw [heq] at hrest ⊢
      rw [hspin, hfound]
      simp only [List.count_cons, hitCredit, probeEvery, maxCredit] at hrest ⊢
      simp
      omega

/-- A stretch without a spin is as long as the parks it leaves on the counter. -/
theorem no_spin_length (h : Bounded gate) {founds : List (Option Bool)}
    (hnone : true ∉ spins gate founds) :
    (parks gate founds).sinceProbe = gate.sinceProbe + founds.length := by
  induction founds generalizing gate with
  | nil => rfl
  | cons found founds ih =>
    rw [spins, List.mem_cons, not_or] at hnone
    rcases park_cases h found with ⟨-, -, -, heq⟩ | ⟨hspin, -⟩
    · have hrest := ih (h.park found) hnone.2
      rw [heq] at hrest
      show (parks (park gate found) founds).sinceProbe = _
      rw [heq, hrest, List.length_cons]
      dsimp only
      omega
    · exact absurd hspin.symm hnone.1

/-- With credit for them, the next parks all spin. -/
theorem spins_of_credit (h : Bounded gate) {founds : List (Option Bool)}
    (hcredit : founds.length ≤ gate.credit) : ∀ b ∈ spins gate founds, b = true := by
  induction founds generalizing gate with
  | nil => simp [spins]
  | cons found founds ih =>
    rw [List.length_cons] at hcredit
    intro b hb
    rw [spins, List.mem_cons] at hb
    rcases park_cases h found with ⟨-, hzero, -⟩ | ⟨hspin, -, hpark⟩
    · omega
    rcases hb with rfl | hb
    · exact hspin
    · have hbound := h.credit
      apply ih (h.park found) _ b hb
      rcases hpark with ⟨-, heq⟩ | ⟨-, heq⟩ | ⟨-, heq⟩
      · rw [heq]
        omega
      · rw [heq]
        dsimp only
        omega
      · rw [heq]
        simp only [hitCredit]
        omega

/-- **What the spin gate costs**: the spins of `n` parks, every one of them recorded, are bounded by
the hits and `n`.  The credit is bounded, a probe is never further off than `probeEvery` parks, and
a hit opens the gate for the next `hitCredit`, recorded or not. -/
theorem gate_cost :
    (∀ founds : List Bool, (spins .new (founds.map some)).count true ≤
      maxCredit + (hitCredit + 1) * hits .new (founds.map some) + founds.length / probeEvery) ∧
    ∀ before : List (Option Bool),
      (parks .new before).credit ≤ maxCredit ∧
      (∀ founds : List (Option Bool), founds.length = probeEvery →
        true ∈ spins (parks .new before) founds) ∧
      ((parks .new before).shouldSpin.1 = true → ∀ founds : List (Option Bool),
        founds.length = hitCredit →
          ∀ b ∈ spins (park (parks .new before) (some true)) founds, b = true) := by
  constructor
  · intro founds
    have hle := spins_le bounded_new founds
    simpa [SpinGate.new] using hle
  · intro before
    have h := bounded_new.parks before
    refine ⟨h.credit, fun founds hlength => ?_, fun hspin founds hlength => ?_⟩
    · by_contra hnone
      have hcount := no_spin_length h hnone
      have hbound := (h.parks founds).sinceProbe
      omega
    · apply spins_of_credit (h.park (some true))
      rcases park_cases h (some true) with ⟨hnot, -⟩ | ⟨-, -, ⟨hfound, -⟩ | ⟨hfound, -⟩ | ⟨-, heq⟩⟩
      · rw [hspin] at hnot
        cases hnot
      · cases hfound
      · cases hfound
      · rw [heq, hlength]
        simp only [hitCredit, maxCredit]
        omega

end Cadeloop.Core.Spin
