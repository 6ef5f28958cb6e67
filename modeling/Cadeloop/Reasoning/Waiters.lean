import Mathlib

/-!
# Tasks woken by hints

Tasks wait on futures, and a line of futures says who is woken next.  A wake resolves the first
future of its line that is still pending and hands nothing over; the task may be cancelled before or
after, so who it is worth to wake is a matter of counting: as long as somebody of a line is still
pending, how many of it are woken and have not resumed.
-/

namespace Cadeloop.Reasoning.Waiters

inductive FutState where
  | pending
  -- woken, with nothing in its hands
  | resolved
  | cancelled
  deriving DecidableEq

/-- The first waiter still pending, and who is behind it. -/
def nextWaiter (futs : Nat → FutState) : List Nat → Option Nat × List Nat
  | [] => (none, [])
  | fut :: waiters => if futs fut = .pending then (some fut, waiters) else nextWaiter futs waiters

def setResult (futs : Nat → FutState) : Option Nat → Nat → FutState
  | none => futs
  | some fut => Function.update futs fut .resolved

def cancelFut (fut : Nat) (futs : Nat → FutState) : Nat → FutState :=
  if futs fut = .pending then Function.update futs fut .cancelled else futs

/-! ## 1. Lines -/

section Lines

-- the tasks, the future each waits on, and whether it is of the line
variable {τ : Type*} (fut : τ → Nat) (mine : τ → Bool)

/-- How many of a line are woken and have not resumed. -/
def woken (futs : Nat → FutState) (waits : List τ) : Nat :=
  waits.countP fun w => mine w && decide (futs (fut w) = .resolved)

/-- Somebody of the line waits. -/
def Starving (futs : Nat → FutState) (waits : List τ) : Prop :=
  ∃ w ∈ waits, mine w = true ∧ futs (fut w) = .pending

/-- The line of the futures of the tasks that wait in it. -/
structure Line (line : List Nat) (futs : Nat → FutState) (waits : List τ) : Prop where
  queued : ∀ w ∈ waits, mine w = true → futs (fut w) = .pending → fut w ∈ line
  owned : ∀ f ∈ line, ∃ w ∈ waits, mine w = true ∧ fut w = f
  unresolved : ∀ f ∈ line, futs f ≠ .resolved
  nodup : line.Nodup

variable {fut mine} {futs futs' : Nat → FutState} {line : List Nat} {waits left : List τ}

/-! ## 2. What leaves a line alone -/

theorem woken_congr (h : ∀ w ∈ waits, mine w = true → futs' (fut w) = futs (fut w)) :
    woken fut mine futs' waits = woken fut mine futs waits := by
  apply List.countP_congr
  intro w hw
  cases hmine : mine w with
  | false => simp
  | true => simp [h w hw hmine]

theorem Starving.congr (h : ∀ w ∈ waits, mine w = true → futs' (fut w) = futs (fut w))
    (hs : Starving fut mine futs' waits) : Starving fut mine futs waits := by
  obtain ⟨w, hw, hmine, hpending⟩ := hs
  exact ⟨w, hw, hmine, by rw [← h w hw hmine, hpending]⟩

theorem Line.congr (hl : Line fut mine line futs waits)
    (h : ∀ w ∈ waits, mine w = true → futs' (fut w) = futs (fut w)) :
    Line fut mine line futs' waits where
  queued w hw hmine hpending := hl.queued w hw hmine (by rw [← h w hw hmine, hpending])
  owned := hl.owned
  unresolved f hf := by
    obtain ⟨w, hw, hmine, rfl⟩ := hl.owned f hf
    rw [h w hw hmine]
    exact hl.unresolved _ hf
  nodup := hl.nodup

/-! ## 3. Waking -/

theorem nextWaiter_cases (futs : Nat → FutState) (line : List Nat) :
    nextWaiter futs line = (none, []) ∧ (∀ f ∈ line, futs f ≠ .pending) ∨
      ∃ skipped f waiters, line = skipped ++ f :: waiters ∧
        nextWaiter futs line = (some f, waiters) ∧ futs f = .pending ∧
        ∀ g ∈ skipped, futs g ≠ .pending := by
  induction line with
  | nil => exact .inl ⟨rfl, by simp⟩
  | cons fut line ih =>
    by_cases hpending : futs fut = .pending
    · exact .inr ⟨[], fut, line, rfl, by simp [nextWaiter, hpending], hpending, by simp⟩
    · simp only [nextWaiter, hpending, if_false]
      rcases ih with ⟨hnone, hall⟩ | ⟨skipped, f, waiters, hline, hnext, hf, hall⟩
      · refine .inl ⟨hnone, ?_⟩
        simpa [hpending] using hall
      · refine .inr ⟨fut :: skipped, f, waiters, by rw [hline]; rfl, hnext, hf, ?_⟩
        simpa [hpending] using hall

theorem fut_inj (hnodup : (waits.map fut).Nodup) {w w' : τ} (hw : w ∈ waits) (hw' : w' ∈ waits)
    (h : fut w = fut w') : w = w' :=
  List.inj_on_of_nodup_map hnodup hw hw' h

/-- One more of a line is woken. -/
theorem woken_setResult (hnodup : (waits.map fut).Nodup) {w : τ} (hw : w ∈ waits)
    (hmine : mine w = true) (hpending : futs (fut w) = .pending) :
    woken fut mine (setResult futs (some (fut w))) waits = woken fut mine futs waits + 1 := by
  obtain ⟨pre, post, rfl⟩ := List.append_of_mem hw
  rw [List.map_append, List.map_cons, List.nodup_append] at hnodup
  obtain ⟨-, hpost, hpre⟩ := hnodup
  rw [List.nodup_cons] at hpost
  have hother (ws : List τ) (hne : ∀ w' ∈ ws, fut w' ≠ fut w) :
      woken fut mine (setResult futs (some (fut w))) ws = woken fut mine futs ws := by
    apply woken_congr
    intro w' hw' _
    exact Function.update_of_ne (hne w' hw') _ _
  have hbefore := hother pre fun w' hw' =>
    hpre _ (List.mem_map_of_mem hw') _ (List.mem_cons_self ..)
  have hbehind := hother post fun w' hw' hsame =>
    hpost.1 (by rw [← hsame]; exact List.mem_map_of_mem hw')
  simp only [woken, List.countP_append, List.countP_cons] at hbefore hbehind ⊢
  rw [hbefore, hbehind]
  simp [setResult, hmine, hpending]
  omega

theorem Starving.of_setResult {o : Option Nat}
    (h : Starving fut mine (setResult futs o) waits) : Starving fut mine futs waits := by
  obtain ⟨w, hw, hmine, hpending⟩ := h
  refine ⟨w, hw, hmine, ?_⟩
  cases o with
  | none => exact hpending
  | some f =>
    by_cases hsame : fut w = f
    · simp [setResult, hsame] at hpending
    · rwa [setResult, Function.update_of_ne hsame] at hpending

/-- The wake of a line: nobody of it is pending any more, or one more is woken. -/
theorem Line.wake (hnodup : (waits.map fut).Nodup) (h : Line fut mine line futs waits) :
    Line fut mine (nextWaiter futs line).2 (setResult futs (nextWaiter futs line).1) waits ∧
      (¬ Starving fut mine (setResult futs (nextWaiter futs line).1) waits ∨
        woken fut mine (setResult futs (nextWaiter futs line).1) waits =
          woken fut mine futs waits + 1) := by
  rcases nextWaiter_cases futs line with ⟨hnext, hall⟩ | ⟨skipped, f, waiters, hline, hnext, hf, hall⟩
  · rw [hnext]
    have hnone : ∀ w ∈ waits, mine w = true → futs (fut w) ≠ .pending :=
      fun w hw hmine hpending => hall _ (h.queued w hw hmine hpending) hpending
    refine ⟨⟨fun w hw hmine hpending => absurd hpending (hnone w hw hmine), by simp, by simp,
      by simp⟩, .inl ?_⟩
    rintro ⟨w, hw, hmine, hpending⟩
    exact hnone w hw hmine hpending
  · rw [hnext]
    obtain ⟨w₀, hw₀, hmine₀, hfut₀⟩ := h.owned f (by rw [hline]; simp)
    have hlines := h.nodup
    rw [hline, List.nodup_append, List.nodup_cons] at hlines
    obtain ⟨-, ⟨hbehind, hwaiters⟩, -⟩ := hlines
    refine ⟨⟨?_, ?_, ?_, hwaiters⟩, .inr ?_⟩
    · intro w hw hmine hpending
      have hne : fut w ≠ f := by
        rintro rfl
        simp [setResult] at hpending
      simp only [setResult, Function.update_of_ne hne] at hpending
      have hmem := h.queued w hw hmine hpending
      rw [hline, List.mem_append, List.mem_cons] at hmem
      rcases hmem with hskipped | hsame | hmem
      · exact absurd hpending (hall _ hskipped)
      · exact absurd hsame hne
      · exact hmem
    · exact fun g hg => h.owned g (by rw [hline]; simp [hg])
    · intro g hg
      have hne : g ≠ f := by
        rintro rfl
        exact hbehind hg
      simp only [setResult, Function.update_of_ne hne]
      exact h.unresolved g (by rw [hline]; simp [hg])
    · rw [← hfut₀]
      exact woken_setResult hnodup hw₀ hmine₀ (by rw [hfut₀, hf])

/-- The wake of one line does not touch another. -/
theorem Line.wake_other {mine' : τ → Bool} (hnodup : (waits.map fut).Nodup)
    (h : Line fut mine line futs waits) (hother : ∀ w, mine' w = true → mine w = false) {w : τ}
    (hw : w ∈ waits) (hmine' : mine' w = true) :
    setResult futs (nextWaiter futs line).1 (fut w) = futs (fut w) := by
  rcases nextWaiter_cases futs line with ⟨hnext, -⟩ | ⟨skipped, f, waiters, hline, hnext, -, -⟩
  · rw [hnext]
    rfl
  · rw [hnext]
    obtain ⟨w₀, hw₀, hmine₀, rfl⟩ := h.owned f (by rw [hline]; simp)
    apply Function.update_of_ne
    intro hsame
    obtain rfl := fut_inj hnodup hw hw₀ hsame
    simp [hother w hmine'] at hmine₀

/-! ## 4. Parking, cancelling, leaving -/

/-- A task parks on a fresh future at the end of its line. -/
theorem Line.park (h : Line fut mine line futs waits) {w : τ} (hmine : mine w = true)
    (hfresh : ∀ w' ∈ waits, fut w' ≠ fut w) :
    Line fut mine (line ++ [fut w]) (Function.update futs (fut w) .pending) (waits ++ [w]) := by
  have hnew : fut w ∉ line := by
    intro hmem
    obtain ⟨w', hw', -, hsame⟩ := h.owned _ hmem
    exact hfresh w' hw' hsame
  constructor
  · intro w' hw' hmine' hpending
    rcases List.mem_append.mp hw' with hw' | hw'
    · rw [Function.update_of_ne (hfresh w' hw')] at hpending
      exact List.mem_append_left _ (h.queued w' hw' hmine' hpending)
    · rw [List.mem_singleton.mp hw']
      simp
  · intro f hf
    rcases List.mem_append.mp hf with hf | hf
    · obtain ⟨w', hw', hmine', rfl⟩ := h.owned f hf
      exact ⟨w', List.mem_append_left _ hw', hmine', rfl⟩
    · exact ⟨w, by simp, hmine, (List.mem_singleton.mp hf).symm⟩
  · intro f hf
    rcases List.mem_append.mp hf with hf | hf
    · have hne : f ≠ fut w := by
        rintro rfl
        exact hnew hf
      rw [Function.update_of_ne hne]
      exact h.unresolved f hf
    · rw [List.mem_singleton.mp hf, Function.update_self]
      decide
  · rw [List.nodup_append]
    refine ⟨h.nodup, List.nodup_singleton _, ?_⟩
    intro f hf g hg hsame
    rw [hsame, List.mem_singleton.mp hg] at hf
    exact hnew hf

/-- A task parks in another line. -/
theorem Line.park_other (h : Line fut mine line futs waits) {w : τ} (hmine : mine w = false)
    (hfresh : ∀ w' ∈ waits, fut w' ≠ fut w) :
    Line fut mine line (Function.update futs (fut w) .pending) (waits ++ [w]) := by
  have hsame : ∀ w' ∈ waits, mine w' = true →
      Function.update futs (fut w) .pending (fut w') = futs (fut w') :=
    fun w' hw' _ => Function.update_of_ne (hfresh w' hw') _ _
  have hl := h.congr hsame
  refine ⟨?_, ?_, hl.unresolved, hl.nodup⟩
  · intro w' hw' hmine'
    rcases List.mem_append.mp hw' with hw' | hw'
    · exact hl.queued w' hw' hmine'
    · rw [List.mem_singleton.mp hw', hmine] at hmine'
      cases hmine'
  · intro f hf
    obtain ⟨w', hw', hrest⟩ := hl.owned f hf
    exact ⟨w', List.mem_append_left _ hw', hrest⟩

theorem woken_park {w : τ} (hfresh : ∀ w' ∈ waits, fut w' ≠ fut w) :
    woken fut mine (Function.update futs (fut w) .pending) (waits ++ [w]) =
      woken fut mine futs waits := by
  have hsame : woken fut mine (Function.update futs (fut w) .pending) waits =
      woken fut mine futs waits :=
    woken_congr fun w' hw' _ => Function.update_of_ne (hfresh w' hw') _ _
  simp only [woken, List.countP_append, List.countP_singleton] at hsame ⊢
  rw [hsame]
  simp

theorem Starving.of_park_other {w : τ} (hmine : mine w = false)
    (hfresh : ∀ w' ∈ waits, fut w' ≠ fut w)
    (h : Starving fut mine (Function.update futs (fut w) .pending) (waits ++ [w])) :
    Starving fut mine futs waits := by
  obtain ⟨w', hw', hmine', hpending⟩ := h
  rcases List.mem_append.mp hw' with hw' | hw'
  · rw [Function.update_of_ne (hfresh w' hw')] at hpending
    exact ⟨w', hw', hmine', hpending⟩
  · rw [List.mem_singleton.mp hw', hmine] at hmine'
    cases hmine'

theorem cancelFut_eq (fut : Nat) (futs : Nat → FutState) (f : Nat) :
    cancelFut fut futs f = futs f ∨ futs f = .pending ∧ cancelFut fut futs f = .cancelled := by
  unfold cancelFut
  split
  · rename_i hpending
    by_cases hsame : f = fut
    · rw [hsame]
      exact .inr ⟨hpending, Function.update_self ..⟩
    · exact .inl (Function.update_of_ne hsame _ _)
  · exact .inl rfl

theorem cancelFut_resolved {fut f : Nat} : cancelFut fut futs f = .resolved ↔ futs f = .resolved := by
  rcases cancelFut_eq fut futs f with h | ⟨h, h'⟩
  · rw [h]
  · simp [h, h']

theorem cancelFut_pending {fut f : Nat} (h : cancelFut fut futs f = .pending) :
    futs f = .pending := by
  rcases cancelFut_eq fut futs f with h' | ⟨h', -⟩
  · rw [← h', h]
  · exact h'

theorem Line.cancel (h : Line fut mine line futs waits) (f : Nat) :
    Line fut mine line (cancelFut f futs) waits where
  queued w hw hmine hpending := h.queued w hw hmine (cancelFut_pending hpending)
  owned := h.owned
  unresolved g hg := fun hresolved => h.unresolved g hg (cancelFut_resolved.mp hresolved)
  nodup := h.nodup

theorem woken_cancel (f : Nat) :
    woken fut mine (cancelFut f futs) waits = woken fut mine futs waits := by
  simp only [woken, cancelFut_resolved]

theorem Starving.of_cancel {f : Nat} (h : Starving fut mine (cancelFut f futs) waits) :
    Starving fut mine futs waits := by
  obtain ⟨w, hw, hmine, hpending⟩ := h
  exact ⟨w, hw, hmine, cancelFut_pending hpending⟩

/-- A task leaves its line. -/
theorem Line.leave {w : τ} (hnodup : (waits.map fut).Nodup) (hperm : waits.Perm (w :: left))
    (h : Line fut mine line futs waits) : Line fut mine (line.erase (fut w)) futs left := by
  have hne : ∀ w' ∈ left, fut w' ≠ fut w := by
    have := (hperm.map fut).nodup_iff.mp hnodup
    rw [List.map_cons, List.nodup_cons] at this
    intro w' hw' hsame
    exact this.1 (hsame ▸ List.mem_map_of_mem hw')
  constructor
  · intro w' hw' hmine' hpending
    have hmem := h.queued w' (hperm.mem_iff.mpr (List.mem_cons_of_mem _ hw')) hmine' hpending
    exact (List.mem_erase_of_ne (hne w' hw')).mpr hmem
  · intro f hf
    obtain ⟨hf', hf⟩ := (h.nodup.mem_erase_iff).mp hf
    obtain ⟨w', hw', hmine', rfl⟩ := h.owned f hf
    rcases List.mem_cons.mp (hperm.mem_iff.mp hw') with rfl | hw'
    · exact absurd rfl hf'
    · exact ⟨w', hw', hmine', rfl⟩
  · exact fun f hf => h.unresolved f (List.mem_of_mem_erase hf)
  · exact h.nodup.erase _

/-- A task that is not in the line leaves. -/
theorem Line.leave_other {w : τ} (hnodup : (waits.map fut).Nodup) (hperm : waits.Perm (w :: left))
    (h : Line fut mine line futs waits) (hw : mine w = false ∨ futs (fut w) = .resolved) :
    Line fut mine line futs left := by
  have hout : fut w ∉ line := by
    intro hmem
    rcases hw with hmine | hresolved
    · obtain ⟨w', hw', hmine', hsame⟩ := h.owned _ hmem
      obtain rfl := fut_inj hnodup hw' (hperm.mem_iff.mpr (List.mem_cons_self ..)) hsame
      simp [hmine] at hmine'
    · exact h.unresolved _ hmem hresolved
  have hleft := h.leave hnodup hperm
  rwa [List.erase_of_not_mem hout] at hleft

theorem woken_leave {w : τ} (hperm : waits.Perm (w :: left)) :
    woken fut mine futs waits = woken fut mine futs left +
      if mine w = true ∧ futs (fut w) = .resolved then 1 else 0 := by
  unfold woken
  rw [hperm.countP_eq, List.countP_cons]
  simp

theorem Starving.of_leave {w : τ} (hperm : waits.Perm (w :: left))
    (h : Starving fut mine futs left) : Starving fut mine futs waits := by
  obtain ⟨w', hw', hrest⟩ := h
  exact ⟨w', hperm.mem_iff.mpr (List.mem_cons_of_mem _ hw'), hrest⟩

end Lines

end Cadeloop.Reasoning.Waiters
