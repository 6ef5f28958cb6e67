import Cadeloop.Reasoning.Machine

/-!
# The loop's state and the GIL (`crates/pyshim/src/gil_boundary.rs`)

The state is borrowed without a lock: a flag that only the holder of the GIL reads and writes says
whether a borrow is live.  A thread's calls nest, innermost first.  It gives up the GIL in a poll, between
two steps of Python, and where a borrow runs Python after all (a finalizer); native code that runs no
Python keeps it, and so do a test of the flag with the store behind it and a traversal of the collector.
-/

namespace Cadeloop.Pyshim.GilBoundary

open Cadeloop.Reasoning

abbrev Tid := Nat

structure StateCell where
  -- the thread that runs the loop; in the source 0 is no thread
  owner : Option Tid
  borrowed : Bool

namespace StateCell

def new : StateCell where
  owner := none
  borrowed := false

def claim (me : Tid) (c : StateCell) : Option StateCell :=
  if c.owner = none then some { c with owner := some me } else none

def isClaimed (c : StateCell) : Bool := c.owner.isSome

def ownedByOtherThread (me : Tid) (c : StateCell) : Bool := c.owner.any (· ≠ me)

/-- `try_with`: the closure is to run. -/
def admits (c : StateCell) : Bool := !c.borrowed

def peekForGc (c : StateCell) : Bool := c.owner.isNone && !c.borrowed

end StateCell

inductive Frame where
  -- `try_with`, between its test and its store
  | admitted
  -- its closure, over the `&mut`
  | borrow
  -- a traversal, over the `&` of `peek_for_gc`
  | traverse
  -- `run_forever`, with its `OwnerGuard`
  | guarded
  deriving DecidableEq

structure World where
  cell : StateCell
  gil : Option Tid
  calls : Tid → List Frame

namespace World

def new : World where
  cell := .new
  gil := none
  calls := fun _ => []

def setCalls (t : Tid) (frames : List Frame) (w : World) : World :=
  { w with calls := Function.update w.calls t frames }

/-- A thread that could run any Python now. -/
def free (w : World) (t : Tid) : Bool :=
  w.gil = some t ∧ (w.calls t).head? ≠ some .admitted ∧ (w.calls t).head? ≠ some .traverse

end World

inductive Event where
  | acquireGil (t : Tid)
  | releaseGil (t : Tid)
  -- `try_with`: the test, the store, the store behind the closure
  | test (t : Tid)
  | mark (t : Tid)
  | finish (t : Tid)
  | peekForGc (t : Tid)
  | traversed (t : Tid)
  | claim (t : Tid)
  | dropGuard (t : Tid)

namespace World

def step (w : World) : Event → Option World
  | .acquireGil t => if w.gil = none then some { w with gil := some t } else none
  | .releaseGil t => if w.free t then some { w with gil := none } else none
  | .test t =>
    if w.free t ∧ w.cell.admits then some (w.setCalls t (.admitted :: w.calls t)) else none
  | .mark t =>
    match w.calls t with
    | .admitted :: frames =>
      some ({ w with cell := { w.cell with borrowed := true } }.setCalls t (.borrow :: frames))
    | _ => none
  | .finish t =>
    match w.calls t with
    | .borrow :: frames =>
      if w.gil = some t then
        some ({ w with cell := { w.cell with borrowed := false } }.setCalls t frames)
      else none
    | _ => none
  | .peekForGc t =>
    if w.free t ∧ w.cell.peekForGc then some (w.setCalls t (.traverse :: w.calls t)) else none
  | .traversed t =>
    match w.calls t with
    | .traverse :: frames => some (w.setCalls t frames)
    | _ => none
  | .claim t =>
    if w.free t then
      (w.cell.claim t).map fun cell => { w with cell }.setCalls t (.guarded :: w.calls t)
    else none
  | .dropGuard t =>
    match w.calls t with
    | .guarded :: frames =>
      if w.gil = some t then
        some ({ w with cell := { w.cell with owner := none } }.setCalls t frames)
      else none
    | _ => none

end World

-- a step that cannot be taken leaves the world as it is
def threads : Machine World Event := ⟨.new, fun w e => (w.step e).getD w⟩

/-! ## 1. What every interleaving keeps -/

/-- What runs Python, or may. -/
def Frame.deep (f : Frame) : Prop := f = .borrow ∨ f = .guarded

structure Sound (w : World) : Prop where
  deep : ∀ t, ∀ f ∈ (w.calls t).tail, f.deep
  top : ∀ t f, (w.calls t).head? = some f → f.deep ∨ w.gil = some t
  live : w.cell.borrowed = true ↔ ∃ t, 0 < (w.calls t).count .borrow
  alone : ∀ t t', 0 < (w.calls t).count .borrow → 0 < (w.calls t').count .borrow → t = t'
  once : ∀ t, (w.calls t).count .borrow ≤ 1
  admitted : ∀ t, (w.calls t).head? = some .admitted → w.cell.borrowed = false
  traverse : ∀ t, (w.calls t).head? = some .traverse → w.cell.borrowed = false ∧ w.cell.owner = none
  owner : ∀ t, w.cell.owner = some t ↔ 0 < (w.calls t).count .guarded
  single : ∀ t, (w.calls t).count .guarded ≤ 1

/-- How the flag goes with the borrows of a thread. -/
def Flagged (borrowed borrowed' : Bool) (n n' : Nat) : Prop :=
  borrowed' = borrowed ∧ n' = n ∨ borrowed = false ∧ borrowed' = true ∧ n' = n + 1 ∨
    borrowed' = false ∧ n = n' + 1

/-- How the owner goes with the guards of a thread. -/
def Owned (t : Tid) (owner owner' : Option Tid) (n n' : Nat) : Prop :=
  owner' = owner ∧ n' = n ∨ owner = none ∧ owner' = some t ∧ n' = n + 1 ∨ owner' = none ∧ n = n' + 1

theorem calls_setCalls (w : World) (t : Tid) (frames : List Frame) (t' : Tid) :
    (w.setCalls t frames).calls t' = if t' = t then frames else w.calls t' :=
  Function.update_apply w.calls t frames t'

section Steps

variable {w w' : World}

theorem Frame.deep_of_ne {f : Frame} (hadmitted : f ≠ .admitted) (htraverse : f ≠ .traverse) : f.deep := by
  cases f with
  | admitted => exact absurd rfl hadmitted
  | borrow => exact .inl rfl
  | traverse => exact absurd rfl htraverse
  | guarded => exact .inr rfl

theorem free_iff {t : Tid} : w.free t = true ↔ w.gil = some t ∧
    (w.calls t).head? ≠ some .admitted ∧ (w.calls t).head? ≠ some .traverse := by
  simp [World.free]

theorem Sound.free_deep (hs : Sound w) {t : Tid} (hfree : w.free t = true) : ∀ f ∈ w.calls t, f.deep := by
  obtain ⟨-, hadmitted, htraverse⟩ := free_iff.mp hfree
  have hdeep := hs.deep t
  intro f hf
  cases hcalls : w.calls t with
  | nil =>
    rw [hcalls] at hf
    cases hf
  | cons g frames =>
    rw [hcalls] at hf hdeep hadmitted htraverse
    rcases List.mem_cons.mp hf with rfl | hf
    · exact Frame.deep_of_ne (fun heq => hadmitted (by rw [heq]; rfl))
        fun heq => htraverse (by rw [heq]; rfl)
    · exact hdeep f hf

/-- A test or a traversal keeps the GIL. -/
theorem Sound.held (hs : Sound w) {t : Tid} {f : Frame} (hhead : (w.calls t).head? = some f)
    (hf : ¬f.deep) : w.gil = some t := (hs.top t f hhead).resolve_left hf

/-- The holder of the GIL changes its own calls, and the cell with it. -/
theorem Sound.restack (hs : Sound w) {t : Tid} (hgil : w.gil = some t) {cell : StateCell}
    {frames : List Frame} (hdeep : ∀ f ∈ frames.tail, f.deep)
    (hflag : Flagged w.cell.borrowed cell.borrowed ((w.calls t).count .borrow) (frames.count .borrow))
    (howner : Owned t w.cell.owner cell.owner ((w.calls t).count .guarded) (frames.count .guarded))
    (hadmitted : frames.head? = some .admitted → cell.borrowed = false)
    (htraverse : frames.head? = some .traverse → cell.borrowed = false ∧ cell.owner = none) :
    Sound ({ w with cell }.setCalls t frames) := by
  have hcalls : ∀ t', ({ w with cell }.setCalls t frames).calls t' =
      if t' = t then frames else w.calls t' := calls_setCalls _ t frames
  -- the other threads wait for the GIL, in Python or in a poll
  have hothers : ∀ t' ≠ t, ∀ f, (w.calls t').head? = some f → f.deep := by
    intro t' hne f hf
    refine (hs.top t' f hf).resolve_right fun hgil' => hne ?_
    rw [hgil] at hgil'
    injection hgil' with heq
    exact heq.symm
  have hother_borrow : ∀ t' ≠ t, 0 < (w.calls t').count .borrow → (w.calls t).count .borrow = 0 := by
    intro t' hne hpos
    by_contra hhere
    exact hne (hs.alone t' t hpos (Nat.pos_of_ne_zero hhere))
  have hnone : w.cell.borrowed = false → ∀ t', (w.calls t').count .borrow = 0 := by
    intro hfalse t'
    by_contra hthere
    have htrue := hs.live.mpr ⟨t', Nat.pos_of_ne_zero hthere⟩
    rw [hfalse] at htrue
    cases htrue
  have honce := hs.once t
  have hsingle := hs.single t
  have hapart : ∀ t' ≠ t, 0 < (w.calls t').count .borrow → frames.count .borrow = 0 := by
    intro t' hne hpos
    have hzero := hother_borrow t' hne hpos
    rcases hflag with ⟨-, hsame⟩ | ⟨hfalse, -, -⟩ | ⟨-, hless⟩
    · rw [hsame, hzero]
    · rw [hnone hfalse t'] at hpos
      exact absurd hpos (Nat.lt_irrefl 0)
    · rw [hzero] at hless
      cases hless
  have hguards : ∀ t', cell.owner = some t' ↔
      0 < (if t' = t then frames else w.calls t').count .guarded := by
    intro t'
    have hhere := hs.owner t
    have hthere := hs.owner t'
    rcases howner with ⟨hsame, hcount⟩ | ⟨hfree, hmine, hcount⟩ | ⟨hfree, hcount⟩
    · rw [hsame]
      split
      · rename_i heq
        rw [heq, hcount]
        exact hhere
      · exact hthere
    · rw [hmine]
      split
      · rename_i heq
        rw [heq, hcount]
        simp
      · rename_i hne
        rw [← hthere, hfree]
        simp [Ne.symm hne]
    · have hmine : w.cell.owner = some t := hhere.mpr (by omega)
      rw [hfree]
      split
      · simp only [reduceCtorEq, false_iff]
        omega
      · rename_i hne
        rw [← hthere, hmine]
        simp [Ne.symm hne]
  refine ⟨fun t' => ?_, fun t' f hf => ?_, ⟨fun hlive => ?_, fun ⟨t', ht'⟩ => ?_⟩, fun t₁ t₂ h₁ h₂ => ?_,
    fun t' => ?_, fun t' hf => ?_, fun t' hf => ?_, fun t' => ?_, fun t' => ?_⟩
  · rw [hcalls]
    split
    · exact hdeep
    · exact hs.deep t'
  · rw [hcalls] at hf
    split at hf
    · rename_i heq
      exact .inr (heq ▸ hgil)
    · rename_i hne
      exact .inl (hothers t' hne f hf)
  · rcases hflag with ⟨hsame, hcount⟩ | ⟨-, -, hcount⟩ | ⟨hfalse, -⟩
    · obtain ⟨t', ht'⟩ := hs.live.mp (hsame ▸ hlive)
      refine ⟨t', ?_⟩
      rw [hcalls]
      split
      · rename_i heq
        rw [hcount, ← heq]
        exact ht'
      · exact ht'
    · refine ⟨t, ?_⟩
      rw [hcalls, if_pos rfl, hcount]
      exact Nat.succ_pos _
    · exact absurd (hfalse.symm.trans hlive) Bool.false_ne_true
  · rw [hcalls] at ht'
    split at ht'
    · rcases hflag with ⟨hsame, hcount⟩ | ⟨-, htrue, -⟩ | ⟨-, hcount⟩
      · exact hsame.trans (hs.live.mpr ⟨t, hcount ▸ ht'⟩)
      · exact htrue
      · omega
    · rename_i hne
      have hzero := hapart t' hne ht'
      have hzero' := hother_borrow t' hne ht'
      rcases hflag with ⟨hsame, -⟩ | ⟨-, htrue, -⟩ | ⟨-, hcount⟩
      · exact hsame.trans (hs.live.mpr ⟨t', ht'⟩)
      · exact htrue
      · omega
  · rw [hcalls] at h₁ h₂
    split at h₁ <;> split at h₂
    · rename_i heq₁ heq₂
      exact heq₁.trans heq₂.symm
    · rename_i hne
      have hzero := hapart t₂ hne h₂
      omega
    · rename_i hne _
      have hzero := hapart t₁ hne h₁
      omega
    · exact hs.alone t₁ t₂ h₁ h₂
  · rw [hcalls]
    split
    · rcases hflag with ⟨-, hcount⟩ | ⟨hfalse, -, hcount⟩ | ⟨-, hcount⟩
      · omega
      · rw [hcount, hnone hfalse t]
      · omega
    · exact hs.once t'
  · rw [hcalls] at hf
    split at hf
    · exact hadmitted hf
    · rename_i hne
      rcases hothers t' hne _ hf with hf | hf <;> cases hf
  · rw [hcalls] at hf
    split at hf
    · exact htraverse hf
    · rename_i hne
      rcases hothers t' hne _ hf with hf | hf <;> cases hf
  · rw [hcalls]
    exact hguards t'
  · rw [hcalls]
    split
    · rcases howner with ⟨-, hcount⟩ | ⟨hfree, -, hcount⟩ | ⟨-, hcount⟩
      · omega
      · have hzero : ¬0 < (w.calls t).count .guarded := fun hpos => by
          rw [(hs.owner t).mpr hpos] at hfree
          cases hfree
        omega
      · omega
    · exact hs.single t'

/-! ### The steps -/

theorem Sound.new : Sound .new where
  deep t f hf := by cases hf
  top t f hf := by cases hf
  live := ⟨(fun hh => by cases hh), fun ⟨t, ht⟩ => absurd ht (Nat.lt_irrefl 0)⟩
  alone t t' ht := absurd ht (Nat.lt_irrefl 0)
  once t := Nat.zero_le 1
  admitted t hf := by cases hf
  traverse t hf := by cases hf
  owner t := ⟨(fun hh => by cases hh), fun ht => absurd ht (Nat.lt_irrefl 0)⟩
  single t := Nat.zero_le 1

theorem Sound.acquire (hs : Sound w) {t : Tid} (hgil : w.gil = none) : Sound { w with gil := some t } where
  deep := hs.deep
  top t' f hf := .inl ((hs.top t' f hf).resolve_right (by rw [hgil]; simp))
  live := hs.live
  alone := hs.alone
  once := hs.once
  admitted := hs.admitted
  traverse := hs.traverse
  owner := hs.owner
  single := hs.single

theorem Sound.release (hs : Sound w) {t : Tid} (hfree : w.free t = true) :
    Sound { w with gil := none } where
  deep := hs.deep
  top t' f hf := by
    refine .inl ((hs.top t' f hf).elim id fun hgil => ?_)
    rw [(free_iff.mp hfree).1] at hgil
    injection hgil with heq
    exact hs.free_deep hfree f (heq ▸ List.mem_of_mem_head? hf)
  live := hs.live
  alone := hs.alone
  once := hs.once
  admitted := hs.admitted
  traverse := hs.traverse
  owner := hs.owner
  single := hs.single

theorem Sound.step (hs : Sound w) {e : Event} (hstep : w.step e = some w') : Sound w' := by
  cases e with
  | acquireGil t =>
    simp only [World.step, Option.ite_none_right_eq_some, Option.some.injEq] at hstep
    obtain ⟨hgil, rfl⟩ := hstep
    exact hs.acquire hgil
  | releaseGil t =>
    simp only [World.step, Option.ite_none_right_eq_some, Option.some.injEq] at hstep
    obtain ⟨hfree, rfl⟩ := hstep
    exact hs.release hfree
  | test t =>
    simp only [World.step, Option.ite_none_right_eq_some, Option.some.injEq] at hstep
    obtain ⟨⟨hfree, hadmits⟩, rfl⟩ := hstep
    refine hs.restack (free_iff.mp hfree).1 (hs.free_deep hfree) (.inl ⟨rfl, ?_⟩) (.inl ⟨rfl, ?_⟩)
      (fun _ => ?_) (fun hf => by cases hf)
    · exact List.count_cons_of_ne (by decide)
    · exact List.count_cons_of_ne (by decide)
    · simpa [StateCell.admits] using hadmits
  | mark t =>
    simp only [World.step] at hstep
    split at hstep
    · rename_i frames hcalls
      injection hstep with hstep
      subst hstep
      have hhead : (w.calls t).head? = some .admitted := by rw [hcalls]; rfl
      have hfalse := hs.admitted t hhead
      have hdeep := hs.deep t
      rw [hcalls] at hdeep
      refine hs.restack (hs.held hhead (by simp [Frame.deep])) hdeep (.inr (.inl ⟨hfalse, rfl, ?_⟩))
        (.inl ⟨rfl, ?_⟩) (fun hf => by cases hf) (fun hf => by cases hf)
      · rw [hcalls, List.count_cons_self, List.count_cons_of_ne (by decide)]
      · rw [hcalls, List.count_cons_of_ne (by decide), List.count_cons_of_ne (by decide)]
    · cases hstep
  | finish t =>
    simp only [World.step] at hstep
    split at hstep
    · rename_i frames hcalls
      simp only [Option.ite_none_right_eq_some, Option.some.injEq] at hstep
      obtain ⟨hgil, rfl⟩ := hstep
      have hdeep := hs.deep t
      rw [hcalls] at hdeep
      refine hs.restack hgil (fun f hf => hdeep f (List.mem_of_mem_tail hf)) (.inr (.inr ⟨rfl, ?_⟩))
        (.inl ⟨rfl, ?_⟩) (fun _ => rfl) (fun hf => ?_)
      · rw [hcalls, List.count_cons_self]
      · rw [hcalls, List.count_cons_of_ne (by decide)]
      · rcases hdeep _ (List.mem_of_mem_head? hf) with hf | hf <;> cases hf
    · cases hstep
  | peekForGc t =>
    simp only [World.step, Option.ite_none_right_eq_some, Option.some.injEq] at hstep
    obtain ⟨⟨hfree, hpeek⟩, rfl⟩ := hstep
    simp only [StateCell.peekForGc, Bool.and_eq_true, Option.isNone_iff_eq_none, Bool.not_eq_true']
      at hpeek
    refine hs.restack (free_iff.mp hfree).1 (hs.free_deep hfree) (.inl ⟨rfl, ?_⟩) (.inl ⟨rfl, ?_⟩)
      (fun hf => by cases hf) (fun _ => ⟨hpeek.2, hpeek.1⟩)
    · exact List.count_cons_of_ne (by decide)
    · exact List.count_cons_of_ne (by decide)
  | traversed t =>
    simp only [World.step] at hstep
    split at hstep
    · rename_i frames hcalls
      injection hstep with hstep
      subst hstep
      have hhead : (w.calls t).head? = some .traverse := by rw [hcalls]; rfl
      have hdeep := hs.deep t
      rw [hcalls] at hdeep
      refine hs.restack (hs.held hhead (by simp [Frame.deep]))
        (fun f hf => hdeep f (List.mem_of_mem_tail hf)) (.inl ⟨rfl, ?_⟩) (.inl ⟨rfl, ?_⟩)
        (fun _ => (hs.traverse t hhead).1) (fun _ => hs.traverse t hhead)
      · rw [hcalls, List.count_cons_of_ne (by decide)]
      · rw [hcalls, List.count_cons_of_ne (by decide)]
    · cases hstep
  | claim t =>
    simp only [World.step, Option.ite_none_right_eq_some] at hstep
    obtain ⟨hfree, hstep⟩ := hstep
    obtain ⟨cell, hclaim, rfl⟩ := Option.map_eq_some_iff.mp hstep
    simp only [StateCell.claim, Option.ite_none_right_eq_some, Option.some.injEq] at hclaim
    obtain ⟨hnone, rfl⟩ := hclaim
    refine hs.restack (free_iff.mp hfree).1 (hs.free_deep hfree) (.inl ⟨rfl, ?_⟩)
      (.inr (.inl ⟨hnone, rfl, ?_⟩)) (fun hf => by cases hf) (fun hf => by cases hf)
    · exact List.count_cons_of_ne (by decide)
    · exact List.count_cons_self
  | dropGuard t =>
    simp only [World.step] at hstep
    split at hstep
    · rename_i frames hcalls
      simp only [Option.ite_none_right_eq_some, Option.some.injEq] at hstep
      obtain ⟨hgil, rfl⟩ := hstep
      have hdeep := hs.deep t
      rw [hcalls] at hdeep
      refine hs.restack hgil (fun f hf => hdeep f (List.mem_of_mem_tail hf)) (.inl ⟨rfl, ?_⟩)
        (.inr (.inr ⟨rfl, ?_⟩)) (fun hf => ?_) (fun hf => ?_)
      · rw [hcalls, List.count_cons_of_ne (by decide)]
      · rw [hcalls, List.count_cons_self]
      · rcases hdeep _ (List.mem_of_mem_head? hf) with hf | hf <;> cases hf
      · rcases hdeep _ (List.mem_of_mem_head? hf) with hf | hf <;> cases hf
    · cases hstep

end Steps

theorem sound (events : List Event) : Sound (threads.run events) := by
  refine threads.run_invariant .new (fun w e hs => ?_) events
  show Sound ((w.step e).getD w)
  cases hstep : w.step e with
  | none => exact hs
  | some w' => exact hs.step hstep

/-- At most one `&mut`, no `&` beside it, and the flag and the owner say what there is. -/
theorem borrow_exclusive (events : List Event) :
    let w := threads.run events
    (∀ t t', .borrow ∈ w.calls t → .borrow ∈ w.calls t' → t = t') ∧
      (∀ t, (w.calls t).count .borrow ≤ 1) ∧
      (∀ t t', .traverse ∈ w.calls t → .borrow ∉ w.calls t' ∧ w.cell.isClaimed = false) ∧
      (w.cell.borrowed = true ↔ ∃ t, .borrow ∈ w.calls t) ∧
      ∀ t, w.cell.owner = some t ↔ .guarded ∈ w.calls t := by
  have hs := sound events
  refine ⟨fun t t' ht ht' => ?_, hs.once, fun t t' ht => ?_, ?_, fun t => ?_⟩
  · exact hs.alone t t' (List.count_pos_iff.mpr ht) (List.count_pos_iff.mpr ht')
  · have hhead : ((threads.run events).calls t).head? = some .traverse := by
      have hdeep := hs.deep t
      cases hcalls : (threads.run events).calls t with
      | nil =>
        rw [hcalls] at ht
        cases ht
      | cons f frames =>
        rw [hcalls] at ht hdeep
        rcases List.mem_cons.mp ht with rfl | ht
        · rfl
        · rcases hdeep _ ht with hf | hf <;> cases hf
    obtain ⟨hfalse, hnone⟩ := hs.traverse t hhead
    refine ⟨fun hin => ?_, by rw [StateCell.isClaimed, hnone]; rfl⟩
    rw [hs.live.mpr ⟨t', List.count_pos_iff.mpr hin⟩] at hfalse
    cases hfalse
  · simpa only [List.count_pos_iff] using hs.live
  · simpa only [List.count_pos_iff] using hs.owner t

/-! ## 2. The contract of the closures -/

/-- A closure runs no Python, and gives up the GIL in the poll of the loop's thread only. -/
def Contract (w : World) : Event → Prop
  | .releaseGil t => (w.calls t).head? = some .borrow → .guarded ∈ w.calls t
  | .test t => (w.calls t).head? ≠ some .borrow
  | .peekForGc t => (w.calls t).head? ≠ some .borrow
  | .claim t => (w.calls t).head? ≠ some .borrow
  | _ => True

/-- A borrow is the innermost call of its thread, which holds the GIL or polls. -/
structure Orderly (w : World) : Prop where
  inner : ∀ t, .borrow ∈ w.calls t → (w.calls t).head? = some .borrow
  polls : ∀ t, .borrow ∈ w.calls t → w.gil = some t ∨ .guarded ∈ w.calls t

section Contract

variable {w w' : World}

theorem Orderly.restack (ho : Orderly w) {t : Tid} {cell : StateCell} {frames : List Frame}
    (hnew : .borrow ∈ frames → frames.head? = some .borrow ∧ w.gil = some t) :
    Orderly ({ w with cell }.setCalls t frames) := by
  have hcalls : ∀ t', ({ w with cell }.setCalls t frames).calls t' =
      if t' = t then frames else w.calls t' := calls_setCalls _ t frames
  refine ⟨fun t' ht' => ?_, fun t' ht' => ?_⟩
  · rw [hcalls] at ht' ⊢
    by_cases heq : t' = t
    · rw [if_pos heq] at ht' ⊢
      exact (hnew ht').1
    · rw [if_neg heq] at ht' ⊢
      exact ho.inner t' ht'
  · rw [hcalls] at ht' ⊢
    by_cases heq : t' = t
    · rw [if_pos heq] at ht'
      exact .inl (heq ▸ (hnew ht').2)
    · rw [if_neg heq] at ht' ⊢
      exact ho.polls t' ht'

theorem Orderly.step (ho : Orderly w) (hs : Sound w) {e : Event} (hcontract : Contract w e)
    (hstep : w.step e = some w') : Orderly w' := by
  -- what is on top of no borrow can be pushed, or popped
  have hclear : ∀ {t : Tid}, (w.calls t).head? ≠ some .borrow → .borrow ∉ w.calls t :=
    fun hhead hin => hhead (ho.inner _ hin)
  have hpushed : ∀ {t : Tid} {f : Frame}, (w.calls t).head? ≠ some .borrow → f ≠ .borrow →
      .borrow ∉ f :: w.calls t := by
    intro t f hhead hf hin
    exact (List.mem_cons.mp hin).elim (fun heq => hf heq.symm) (hclear hhead)
  have hpopped : ∀ {t : Tid} {f : Frame} {frames : List Frame}, w.calls t = f :: frames → f ≠ .borrow →
      .borrow ∉ frames := by
    intro t f frames hcalls hf hin
    refine hclear (t := t) (by rw [hcalls]; simpa using hf) ?_
    rw [hcalls]
    exact List.mem_cons_of_mem f hin
  cases e with
  | acquireGil t =>
    simp only [World.step, Option.ite_none_right_eq_some, Option.some.injEq] at hstep
    obtain ⟨hgil, rfl⟩ := hstep
    refine ⟨ho.inner, fun t' ht' => .inr ((ho.polls t' ht').resolve_left ?_)⟩
    rw [hgil]
    simp
  | releaseGil t =>
    simp only [World.step, Option.ite_none_right_eq_some, Option.some.injEq] at hstep
    obtain ⟨hfree, rfl⟩ := hstep
    refine ⟨ho.inner, fun t' ht' => .inr ((ho.polls t' ht').elim (fun hgil => ?_) id)⟩
    rw [(free_iff.mp hfree).1] at hgil
    injection hgil with heq
    subst heq
    exact hcontract (ho.inner t ht')
  | test t =>
    simp only [World.step, Option.ite_none_right_eq_some, Option.some.injEq] at hstep
    obtain ⟨-, rfl⟩ := hstep
    exact ho.restack fun hin => absurd hin (hpushed hcontract (by decide))
  | mark t =>
    simp only [World.step] at hstep
    split at hstep
    · rename_i frames hcalls
      injection hstep with hstep
      subst hstep
      exact ho.restack fun _ => ⟨rfl, hs.held (by rw [hcalls]; rfl) (by simp [Frame.deep])⟩
    · cases hstep
  | finish t =>
    simp only [World.step] at hstep
    split at hstep
    · rename_i frames hcalls
      simp only [Option.ite_none_right_eq_some, Option.some.injEq] at hstep
      obtain ⟨-, rfl⟩ := hstep
      refine ho.restack fun hin => ?_
      have honce := hs.once t
      have hpos := List.count_pos_iff.mpr hin
      rw [hcalls, List.count_cons_self] at honce
      omega
    · cases hstep
  | peekForGc t =>
    simp only [World.step, Option.ite_none_right_eq_some, Option.some.injEq] at hstep
    obtain ⟨-, rfl⟩ := hstep
    exact ho.restack fun hin => absurd hin (hpushed hcontract (by decide))
  | traversed t =>
    simp only [World.step] at hstep
    split at hstep
    · rename_i frames hcalls
      injection hstep with hstep
      subst hstep
      exact ho.restack fun hin => absurd hin (hpopped hcalls (by decide))
    · cases hstep
  | claim t =>
    simp only [World.step, Option.ite_none_right_eq_some] at hstep
    obtain ⟨-, hstep⟩ := hstep
    obtain ⟨cell, -, rfl⟩ := Option.map_eq_some_iff.mp hstep
    exact ho.restack fun hin => absurd hin (hpushed hcontract (by decide))
  | dropGuard t =>
    simp only [World.step] at hstep
    split at hstep
    · rename_i frames hcalls
      simp only [Option.ite_none_right_eq_some, Option.some.injEq] at hstep
      obtain ⟨-, rfl⟩ := hstep
      exact ho.restack fun hin => absurd hin (hpopped hcalls (by decide))
    · cases hstep

end Contract

theorem orderly (events : List Event) (hcontract : threads.Along Contract events) :
    Orderly (threads.run events) := by
  refine (threads.run_invariant_along (I := fun w => Sound w ∧ Orderly w) ⟨.new, ?_⟩ (fun w e hw hc => ?_)
    events hcontract).2
  · exact ⟨(fun t ht => by cases ht), (fun t ht => by cases ht)⟩
  · show Sound ((w.step e).getD w) ∧ Orderly ((w.step e).getD w)
    cases hstep : w.step e with
    | none => exact hw
    | some w' => exact ⟨hw.1.step hstep, hw.2.step hw.1 hc hstep⟩

/-- While the closures keep their contract, a call is refused to other threads only, and only while the
loop's thread is in its poll. -/
theorem refused_parked (events : List Event) (hcontract : threads.Along Contract events) (t : Tid)
    (hfree : (threads.run events).free t = true)
    (hcall : ((threads.run events).calls t).head? ≠ some .borrow)
    (hrefused : (threads.run events).cell.admits = false) :
    let w := threads.run events
    ∃ t' ≠ t, (w.calls t').head? = some .borrow ∧ .guarded ∈ w.calls t' ∧ w.gil ≠ some t' ∧
      w.cell.ownedByOtherThread t = true := by
  have hs := sound events
  have ho := orderly events hcontract
  have hborrowed : (threads.run events).cell.borrowed = true := by
    simpa [StateCell.admits] using hrefused
  obtain ⟨t', ht'⟩ := hs.live.mp hborrowed
  have hin := List.count_pos_iff.mp ht'
  have hne : t' ≠ t := by
    rintro rfl
    exact hcall (ho.inner t' hin)
  have hgil : (threads.run events).gil ≠ some t' := by
    rw [(free_iff.mp hfree).1]
    exact fun heq => hne (Option.some.inj heq).symm
  have hguarded := (ho.polls t' hin).resolve_left hgil
  refine ⟨t', hne, ho.inner t' hin, hguarded, hgil, ?_⟩
  rw [StateCell.ownedByOtherThread, (hs.owner t').mpr (List.count_pos_iff.mpr hguarded)]
  simpa using hne

/-- The loop's thread polls, and another thread has the GIL. -/
def parked : List Event :=
  [] ++ [.acquireGil 0] ++ [.claim 0] ++ [.test 0] ++ [.mark 0] ++ [.releaseGil 0] ++ [.acquireGil 1]

theorem parked_contract : threads.Along Contract parked := by
  refine threads.along_concat.mpr ⟨?_, trivial⟩
  refine threads.along_concat.mpr ⟨?_, ?_⟩
  · refine threads.along_concat.mpr ⟨?_, trivial⟩
    refine threads.along_concat.mpr ⟨?_, ?_⟩
    · refine threads.along_concat.mpr ⟨?_, ?_⟩
      · exact threads.along_concat.mpr ⟨threads.along_nil _, trivial⟩
      · show (_ : Option Frame) ≠ _
        decide
    · show (_ : Option Frame) ≠ _
      decide
  · show _ → _
    decide

theorem refused_parked_polling :
    let w := threads.run parked
    ∃ t' ≠ 1, (w.calls t').head? = some .borrow ∧ .guarded ∈ w.calls t' ∧ w.gil ≠ some t' ∧
      w.cell.ownedByOtherThread 1 = true :=
  refused_parked parked parked_contract 1 (by decide) (by decide) rfl

end Cadeloop.Pyshim.GilBoundary
