import Mathlib.Data.List.Basic

/-!
# One component of many

A system that is a list of components takes its steps by rewriting one of them.  What the components
hold between them then changes by what that one holds.
-/

namespace Cadeloop.Reasoning.Fleet

variable {α β : Type*} {l : List α} {i : Nat} {a : α}

theorem count_flatMap_set [DecidableEq β] (h : l[i]? = some a) (f : α → List β) (b : α) (x : β) :
    ((l.set i b).flatMap f).count x + (f a).count x = (l.flatMap f).count x + (f b).count x := by
  induction l generalizing i with
  | nil => cases h
  | cons c l ih =>
    cases i with
    | zero =>
      injection h with h
      subst h
      rw [List.set_cons_zero, List.flatMap_cons, List.flatMap_cons, List.count_append,
        List.count_append]
      omega
    | succ i =>
      have hrest := ih (show l[i]? = some a from h)
      rw [List.set_cons_succ, List.flatMap_cons, List.flatMap_cons, List.count_append,
        List.count_append]
      omega

/-- A component written over with one that holds as much. -/
theorem count_flatMap_set_same [DecidableEq β] (h : l[i]? = some a) {f : α → List β} {b : α} {x : β}
    (hsame : (f b).count x = (f a).count x) :
    ((l.set i b).flatMap f).count x = (l.flatMap f).count x := by
  have hcount := count_flatMap_set h f b x
  omega

theorem forall_set {P : α → Prop} (h : ∀ a ∈ l, P a) {b : α} (hb : P b) : ∀ a ∈ l.set i b, P a := by
  intro a ha
  rcases List.mem_or_eq_of_mem_set ha with hold | rfl
  · exact h a hold
  · exact hb

theorem forall_concat {P : α → Prop} (h : ∀ a ∈ l, P a) {b : α} (hb : P b) : ∀ a ∈ l ++ [b], P a := by
  intro a ha
  rcases List.mem_append.mp ha with hold | hnew
  · exact h a hold
  · rw [List.mem_singleton.mp hnew]
    exact hb

/-- What one component holds, the fleet holds. -/
theorem count_le_flatMap [DecidableEq β] (h : l[i]? = some a) (f : α → List β) (x : β) :
    (f a).count x ≤ (l.flatMap f).count x := by
  induction l generalizing i with
  | nil => cases h
  | cons c l ih =>
    rw [List.flatMap_cons, List.count_append]
    cases i with
    | zero =>
      injection h with h
      subst h
      omega
    | succ i =>
      have hrest := ih (show l[i]? = some a from h)
      omega

theorem sublist_flatMap {f g : α → List β} (h : ∀ a ∈ l, (f a).Sublist (g a)) :
    (l.flatMap f).Sublist (l.flatMap g) := by
  induction l with
  | nil => exact List.Sublist.refl _
  | cons c l ih =>
    rw [List.flatMap_cons, List.flatMap_cons]
    exact (h c List.mem_cons_self).append (ih fun a ha => h a (List.mem_cons_of_mem c ha))

end Cadeloop.Reasoning.Fleet
