import Mathlib.Data.List.Basic

/-!
# Calls to another party, logged with their answers

A component calls another party and keeps a log of the calls and what they answered.  The other
party's state is not the component's: whether it could have answered so is found by replaying the
log on it.  A statement about both is about every state from which the log can be replayed.
-/

namespace Cadeloop.Reasoning

variable {γ κ : Type*} {call : κ → γ → Option κ}

/-- Between the two logs, whenever the calls are answered as logged, the other party's state before
and after are in the relation. -/
def Logs (call : κ → γ → Option κ) (R : κ → κ → Prop) (l l' : List γ) : Prop :=
  ∃ calls, l' = l ++ calls ∧ ∀ k k', calls.foldlM call k = some k' → R k k'

namespace Logs

variable {R S T : κ → κ → Prop} {l l' l'' : List γ}

theorem mono (h : Logs call R l l') (himp : ∀ k k', R k k' → S k k') : Logs call S l l' := by
  obtain ⟨calls, hl, hcalls⟩ := h
  exact ⟨calls, hl, fun k k' hk => himp k k' (hcalls k k' hk)⟩

/-- No call is made. -/
theorem quiet (h : ∀ k, R k k) (l : List γ) : Logs call R l l := by
  refine ⟨[], (List.append_nil l).symm, fun k k' hk => ?_⟩
  injection hk with hk
  exact hk ▸ h k

theorem comp (h : Logs call R l l') (h' : Logs call S l' l'')
    (hcomp : ∀ k k' k'', R k k' → S k' k'' → T k k'') : Logs call T l l'' := by
  obtain ⟨calls, rfl, hcalls⟩ := h
  obtain ⟨later, rfl, hlater⟩ := h'
  refine ⟨calls ++ later, List.append_assoc l calls later, fun k k'' hk => ?_⟩
  rw [List.foldlM_append] at hk
  obtain ⟨k', hfirst, hsecond⟩ := Option.bind_eq_some_iff.mp hk
  exact hcomp k k' k'' (hcalls k k' hfirst) (hlater k' k'' hsecond)

/-- The new part of the log is what was called. -/
theorem replayed (h : Logs call R l l') {k k' : κ} (hk : (l'.drop l.length).foldlM call k = some k') :
    R k k' := by
  obtain ⟨calls, rfl, hcalls⟩ := h
  rw [List.drop_left] at hk
  exact hcalls k k' hk

end Logs

end Cadeloop.Reasoning
