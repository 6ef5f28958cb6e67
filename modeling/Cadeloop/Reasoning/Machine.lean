import Mathlib

/-!
# Machines — runs, invariants, reachability

A deterministic machine takes a list of inputs; a transition system takes any enabled step.  Both
have one rule: what holds at first and survives a step holds of every state a run comes to.
-/

namespace Cadeloop.Reasoning

/-- A deterministic machine: a first state, and a state for every state and input. -/
structure Machine (σ ι : Type*) where
  init : σ
  step : σ → ι → σ

namespace Machine

variable {σ ι : Type*} (m : Machine σ ι)

def run (is : List ι) : σ := is.foldl m.step m.init

theorem run_nil : m.run [] = m.init := rfl

theorem run_concat (is : List ι) (i : ι) : m.run (is ++ [i]) = m.step (m.run is) i := by
  rw [run, List.foldl_append]
  rfl

/-- Induction along a run, the history in hand. -/
theorem run_induction {motive : List ι → σ → Prop} (nil : motive [] m.init)
    (concat : ∀ is i, motive is (m.run is) → motive (is ++ [i]) (m.step (m.run is) i))
    (is : List ι) : motive is (m.run is) := by
  induction is using List.reverseRecOn with
  | nil => exact nil
  | append_singleton is i ih =>
    rw [m.run_concat]
    exact concat is i ih

theorem run_invariant {I : σ → Prop} (nil : I m.init) (step : ∀ s i, I s → I (m.step s i))
    (is : List ι) : I (m.run is) :=
  m.run_induction (motive := fun _ s => I s) nil (fun is i => step (m.run is) i) is

/-- Every step of the run meets a condition on the state before it and its input. -/
def Along (P : σ → ι → Prop) (is : List ι) : Prop :=
  ∀ pre i, pre ++ [i] <+: is → P (m.run pre) i

variable {m} in
theorem Along.of_append {P : σ → ι → Prop} {is later : List ι} (h : m.Along P (is ++ later)) :
    m.Along P is := fun pre i hpre => h pre i (hpre.trans (List.prefix_append _ _))

theorem along_nil (P : σ → ι → Prop) : m.Along P [] := by
  intro pre i hpre
  exact absurd (List.prefix_nil.mp hpre) (by simp)

theorem along_concat {P : σ → ι → Prop} {is : List ι} {i : ι} :
    m.Along P (is ++ [i]) ↔ m.Along P is ∧ P (m.run is) i := by
  refine ⟨fun h => ⟨h.of_append, h is i (List.prefix_refl _)⟩, fun ⟨his, hi⟩ pre j hpre => ?_⟩
  rcases List.prefix_concat_iff.mp hpre with heq | hpre
  · obtain ⟨rfl, hj⟩ := List.append_inj' heq rfl
    injection hj with hj
    rw [hj]
    exact hi
  · exact his pre j hpre

theorem along_singleton {P : σ → ι → Prop} {i : ι} : m.Along P [i] ↔ P m.init i :=
  ⟨fun h => h [] i (List.prefix_refl _), fun hi => (m.along_concat).mpr ⟨m.along_nil P, hi⟩⟩

/-- What survives every step that meets a condition holds along the runs that meet it. -/
theorem run_invariant_along {I : σ → Prop} {P : σ → ι → Prop} (nil : I m.init)
    (step : ∀ s i, I s → P s i → I (m.step s i)) (is : List ι) (h : m.Along P is) :
    I (m.run is) := by
  revert h
  refine m.run_induction (motive := fun is s => m.Along P is → I s) (fun _ => nil) ?_ is
  intro is i ih h
  exact step _ _ (ih h.of_append) (h is i (List.prefix_refl _))

end Machine

/-- A transition system: a step of an event that is not enabled is `none`. -/
structure System (σ ε : Type*) where
  init : σ
  step : σ → ε → Option σ

namespace System

variable {σ ε : Type*} (sys : System σ ε)

-- the interleavings are the lists of events every one of which is enabled in its turn
def replay (es : List ε) : Option σ := es.foldlM sys.step sys.init

def Reachable (s : σ) : Prop := ∃ es, sys.replay es = some s

theorem replay_concat (es : List ε) (e : ε) :
    sys.replay (es ++ [e]) = (sys.replay es).bind fun s => sys.step s e := by
  rw [replay, List.foldlM_append]
  cases h : es.foldlM sys.step sys.init with
  | none => simp [replay, h]
  | some s => simp [replay, h]

variable {sys} in
theorem Reachable.step {s s' : σ} {e : ε} (h : sys.Reachable s) (hstep : sys.step s e = some s') :
    sys.Reachable s' := by
  obtain ⟨es, hes⟩ := h
  exact ⟨es ++ [e], by rw [replay_concat, hes]; exact hstep⟩

theorem invariant {I : σ → Prop} (init : I sys.init)
    (step : ∀ s e s', sys.step s e = some s' → I s → I s') {s : σ} (h : sys.Reachable s) :
    I s := by
  obtain ⟨es, hes⟩ := h
  induction es using List.reverseRecOn generalizing s with
  | nil =>
    injection hes with hes
    rw [← hes]
    exact init
  | append_singleton es e ih =>
    rw [replay_concat, Option.bind_eq_some_iff] at hes
    obtain ⟨s₀, hs₀, hs⟩ := hes
    exact step s₀ e s hs (ih hs₀)

/-- `s'` comes later than `s` in some run. -/
def After (s s' : σ) : Prop := ∃ es : List ε, es.foldlM sys.step s = some s'

variable {sys} in
theorem After.invariant {I : σ → Prop} {s s' : σ} (h : sys.After s s') (start : I s)
    (step : ∀ s e s', sys.step s e = some s' → I s → I s') : I s' := by
  obtain ⟨es, hes⟩ := h
  induction es generalizing s with
  | nil =>
    injection hes with hes
    rw [← hes]
    exact start
  | cons e es ih =>
    obtain ⟨s₁, hs₁, hes⟩ := Option.bind_eq_some_iff.mp hes
    exact ih (step s e s₁ hs₁ start) hes

end System

/-- A sweep settles every key it comes to and unsettles none. -/
theorem foldl_settles {σ κ : Type*} {step : σ → κ → σ} {ok : σ → κ → Prop} {keys : List κ} {s : σ}
    (settles : ∀ s k, ok (step s k) k) (keeps : ∀ s k j, ok s j → ok (step s k) j)
    (start : ∀ k, k ∉ keys → ok s k) (k : κ) : ok (keys.foldl step s) k := by
  induction keys generalizing s with
  | nil => exact start k List.not_mem_nil
  | cons key keys ih =>
    apply ih
    intro j hj
    by_cases hkey : j = key
    · rw [hkey]
      exact settles s key
    · exact keeps s key j (start j (by simp [hkey, hj]))

theorem foldl_keeps {σ κ : Type*} {step : σ → κ → σ} {I : σ → Prop} (keeps : ∀ s k, I s → I (step s k))
    (keys : List κ) {s : σ} (start : I s) : I (keys.foldl step s) := by
  induction keys generalizing s with
  | nil => exact start
  | cons key keys ih => exact ih (keeps s key start)

/-- What ranks every state short of the goal gets there. -/
theorem iterate_reaches {σ : Type*} {f : σ → σ} {P Q : σ → Prop} (rank : σ → Nat)
    (step : ∀ s, P s → Q (f s) ∨ P (f s) ∧ rank (f s) < rank s) {s : σ} (start : P s) :
    ∃ n ≤ rank s + 1, Q (f^[n] s) := by
  induction hrank : rank s using Nat.strong_induction_on generalizing s with
  | _ r ih =>
    rcases step s start with hgoal | ⟨hstill, hlt⟩
    · exact ⟨1, Nat.le_add_left 1 r, hgoal⟩
    · obtain ⟨n, hn, hgoal⟩ := ih (rank (f s)) (hrank ▸ hlt) hstill rfl
      exact ⟨n + 1, by omega, hgoal⟩

end Cadeloop.Reasoning
