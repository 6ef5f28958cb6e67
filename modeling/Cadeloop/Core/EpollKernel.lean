import Cadeloop.Core.EpollOnce
import Cadeloop.Reasoning.CallLog

/-!
# The kernel's epoll set

What is behind each descriptor, and which of the open files are in the epoll set with which mask.
The table of the backend is a view of it that nobody refreshes: a descriptor may be closed, and its
number given to another file, without a word.
-/

namespace Cadeloop.Core.Epoll

open Cadeloop.Reasoning
open Ops (OpId)

/-! ## 1. Files and masks -/

abbrev File := Nat

structure Kernel where
  -- the file behind a descriptor
  files : RawFd → Option File
  -- the mask of a file in the epoll set
  set : File → Option Mask
  -- the next file to be opened
  next : File

def CtlCall.fd : CtlCall → RawFd
  | .add fd _ _ => fd
  | .mod fd _ _ => fd
  | .del fd _ => fd
  | .forget fd => fd

namespace Kernel

def new : Kernel := ⟨fun _ => none, fun _ => none, 0⟩

/-- The mask with which the file behind `fd` is in the set, if it is. -/
def mask (k : Kernel) (fd : RawFd) : Option Mask := (k.files fd).bind k.set

def install (f : File) (m : Option Mask) (k : Kernel) : Kernel :=
  { k with set := Function.update k.set f m }

/-- What a call of `epoll_ctl` does, if the kernel answers it so. -/
def ctl (k : Kernel) : CtlCall → Option Kernel
  | .add fd events answer =>
    match k.files fd with
    | none => if answer = some ebadf then some k else none
    | some f =>
      if (k.set f).isSome then if answer = some eexist then some k else none
      else
        match answer with
        | none => some (k.install f (some events))
        -- out of watches or memory, or a file that cannot be polled
        | some e => if e = enoent ∨ e = eexist ∨ e = ebadf then none else some k
  -- a MOD or a DEL of what is in the set allocates nothing, and does not fail
  | .mod fd events answer =>
    match k.files fd with
    | none => if answer = some ebadf then some k else none
    | some f =>
      if (k.set f).isSome then if answer = none then some (k.install f (some events)) else none
      else if answer = some enoent then some k else none
  | .del fd answer =>
    match k.files fd with
    | none => if answer = some ebadf then some k else none
    | some f =>
      if (k.set f).isSome then if answer = none then some (k.install f none) else none
      else if answer = some enoent then some k else none
  | .forget fd =>
    match k.files fd with
    | none => some k
    | some f => some (k.install f none)

/-- `fd` is closed, which takes its file out of the set; its number may go to another file. -/
def reopen (fd : RawFd) (opened : Bool) (k : Kernel) : Kernel where
  files := Function.update k.files fd (if opened then some k.next else none)
  set :=
    match k.files fd with
    | none => k.set
    | some f => Function.update k.set f none
  next := k.next + 1

/-- A file is behind one descriptor, and none is in the set before it is opened. -/
structure Proper (k : Kernel) : Prop where
  opened : ∀ fd f, k.files fd = some f → f < k.next
  one : ∀ fd fd' f, k.files fd = some f → k.files fd' = some f → fd = fd'
  unopened : ∀ f, k.next ≤ f → k.set f = none

variable {k k' : Kernel} {fd : RawFd}

theorem Proper.new : Kernel.new.Proper where
  opened fd f h := by cases h
  one fd fd' f h := by cases h
  unopened f _ := rfl

theorem mask_closed (h : k.files fd = none) : k.mask fd = none := by
  rw [mask, h]
  rfl

theorem mask_open {f : File} (h : k.files fd = some f) : k.mask fd = k.set f := by
  rw [mask, h]
  rfl

theorem install_mask (h : k.Proper) {f : File} (hf : k.files fd = some f) (m : Option Mask) (fd' : RawFd) :
    (k.install f m).mask fd' = if fd' = fd then m else k.mask fd' := by
  show (k.files fd').bind (Function.update k.set f m) = _
  by_cases hfd : fd' = fd
  · rw [if_pos hfd, hfd, hf]
    simp
  · rw [if_neg hfd, mask]
    cases hf' : k.files fd' with
    | none => rfl
    | some f' =>
      have hne : f' ≠ f := fun heq => hfd (h.one fd' fd f (heq ▸ hf') hf)
      simp [Function.update_of_ne hne]

theorem install_proper (h : k.Proper) {f : File} (hf : k.files fd = some f) (m : Option Mask) :
    (k.install f m).Proper where
  opened := h.opened
  one := h.one
  unopened f' hf' := by
    have hne : f' ≠ f := by
      rintro rfl
      exact absurd hf' (Nat.not_le.mpr (h.opened fd f' hf))
    show Function.update k.set f m f' = none
    rw [Function.update_of_ne hne]
    exact h.unopened f' hf'

/-- After a call about `fd`, the mask of `fd` is `m`, and those of the others are what they were. -/
structure Called (fd : RawFd) (m : Option Mask) (k k' : Kernel) : Prop where
  proper : k'.Proper
  mask : k'.mask fd = m
  others : ∀ fd', fd' ≠ fd → k'.mask fd' = k.mask fd'

theorem Called.same (h : k.Proper) (fd : RawFd) : Called fd (k.mask fd) k k := ⟨h, rfl, fun _ _ => rfl⟩

theorem Called.install (h : k.Proper) {f : File} (hf : k.files fd = some f) (m : Option Mask) :
    Called fd m k (k.install f m) where
  proper := install_proper h hf m
  mask := by rw [install_mask h hf, if_pos rfl]
  others fd' hne := by rw [install_mask h hf, if_neg hne]

theorem Called.trans {k'' : Kernel} {m m' : Option Mask} (h : Called fd m k k') (h' : Called fd m' k' k'') :
    Called fd m' k k'' where
  proper := h'.proper
  mask := h'.mask
  others fd' hne := (h'.others fd' hne).trans (h.others fd' hne)

/-- What an ADD that is answered so leaves. -/
theorem ctl_add (h : k.Proper) {events : Mask} {answer : Option Errno}
    (hk : k.ctl (.add fd events answer) = some k') :
    (answer = some eexist ∧ k.mask fd ≠ none ∧ Called fd (k.mask fd) k k') ∨
      (k.mask fd = none ∧ answer ≠ some enoent ∧ answer ≠ some eexist ∧
        Called fd (if answer = none then some events else none) k k') := by
  unfold ctl at hk
  dsimp only at hk
  cases hf : k.files fd with
  | none =>
    rw [hf] at hk
    dsimp only at hk
    split at hk
    · rename_i hanswer
      injection hk with hk
      subst hk
      refine .inr ⟨mask_closed hf, by rw [hanswer]; decide, by rw [hanswer]; decide, ?_⟩
      rw [hanswer, if_neg (by simp), ← mask_closed hf]
      exact .same h fd
    · cases hk
  | some f =>
    rw [hf] at hk
    dsimp only at hk
    split at hk
    · rename_i hin
      split at hk
      · rename_i hanswer
        injection hk with hk
        subst hk
        refine .inl ⟨hanswer, fun hout => ?_, .same h fd⟩
        rw [← mask_open hf, hout] at hin
        cases hin
      · cases hk
    · rename_i hout
      have hnone : k.mask fd = none := by
        rw [mask_open hf]
        simpa using hout
      cases answer with
      | none =>
        injection hk with hk
        subst hk
        exact .inr ⟨hnone, by simp, by simp, .install h hf _⟩
      | some e =>
        dsimp only at hk
        split at hk
        · cases hk
        · rename_i hother
          injection hk with hk
          subst hk
          refine .inr ⟨hnone, fun he => ?_, fun he => ?_, ?_⟩
          · injection he with he
            exact hother (.inl he)
          · injection he with he
            exact hother (.inr (.inl he))
          · rw [if_neg (by simp), ← hnone]
            exact .same h fd

theorem ctl_mod (h : k.Proper) {events : Mask} {answer : Option Errno}
    (hk : k.ctl (.mod fd events answer) = some k') :
    (answer = none ∧ k.mask fd ≠ none ∧ Called fd (some events) k k') ∨
      (k.mask fd = none ∧ (answer = some enoent ∨ answer = some ebadf) ∧ Called fd none k k') := by
  unfold ctl at hk
  dsimp only at hk
  cases hf : k.files fd with
  | none =>
    rw [hf] at hk
    dsimp only at hk
    split at hk
    · rename_i hanswer
      injection hk with hk
      subst hk
      exact .inr ⟨mask_closed hf, .inr hanswer, mask_closed hf ▸ .same h fd⟩
    · cases hk
  | some f =>
    rw [hf] at hk
    dsimp only at hk
    split at hk
    · rename_i hin
      split at hk
      · rename_i hanswer
        injection hk with hk
        subst hk
        refine .inl ⟨hanswer, fun hout => ?_, .install h hf _⟩
        rw [← mask_open hf, hout] at hin
        cases hin
      · cases hk
    · rename_i hout
      have hnone : k.mask fd = none := by
        rw [mask_open hf]
        simpa using hout
      split at hk
      · rename_i hanswer
        injection hk with hk
        subst hk
        exact .inr ⟨hnone, .inl hanswer, hnone ▸ .same h fd⟩
      · cases hk

/-- After a DEL the file is not in the set. -/
theorem ctl_del (h : k.Proper) {answer : Option Errno} (hk : k.ctl (.del fd answer) = some k') :
    Called fd none k k' ∧ (answer = none ∨ answer = some enoent ∨ answer = some ebadf) := by
  unfold ctl at hk
  dsimp only at hk
  cases hf : k.files fd with
  | none =>
    rw [hf] at hk
    dsimp only at hk
    split at hk
    · rename_i hanswer
      injection hk with hk
      subst hk
      exact ⟨mask_closed hf ▸ .same h fd, .inr (.inr hanswer)⟩
    · cases hk
  | some f =>
    rw [hf] at hk
    dsimp only at hk
    split at hk
    · split at hk
      · rename_i hanswer
        injection hk with hk
        subst hk
        exact ⟨.install h hf none, .inl hanswer⟩
      · cases hk
    · rename_i hout
      have hnone : k.mask fd = none := by
        rw [mask_open hf]
        simpa using hout
      split at hk
      · rename_i hanswer
        injection hk with hk
        subst hk
        exact ⟨hnone ▸ .same h fd, .inr (.inl hanswer)⟩
      · cases hk

theorem ctl_forget (h : k.Proper) (hk : k.ctl (.forget fd) = some k') : Called fd none k k' := by
  unfold ctl at hk
  dsimp only at hk
  cases hf : k.files fd with
  | none =>
    rw [hf] at hk
    injection hk with hk
    subst hk
    exact mask_closed hf ▸ .same h fd
  | some f =>
    rw [hf] at hk
    injection hk with hk
    subst hk
    exact .install h hf none

/-- A number given to another file, or to none, is not in the set. -/
theorem reopen_called (h : k.Proper) (fd : RawFd) (opened : Bool) :
    Called fd none k (k.reopen fd opened) := by
  have hfiles : ∀ fd', (k.reopen fd opened).files fd' =
      if fd' = fd then (if opened then some k.next else none) else k.files fd' := by
    intro fd'
    show Function.update k.files fd _ fd' = _
    rw [Function.update_apply]
  have hset : ∀ f, (k.reopen fd opened).set f = if k.files fd = some f then none else k.set f := by
    intro f
    unfold reopen
    cases hf : k.files fd with
    | none => simp
    | some f' =>
      by_cases hff : f = f'
      · simp [hff]
      · have hne : f' ≠ f := fun heq => hff heq.symm
        simp [Function.update_of_ne hff, hne]
  have hself : (k.reopen fd opened).files fd = if opened then some k.next else none := by
    rw [hfiles, if_pos rfl]
  have hother : ∀ fd', fd' ≠ fd → (k.reopen fd opened).files fd' = k.files fd' := by
    intro fd' hne
    rw [hfiles, if_neg hne]
  -- the file opened is behind no other descriptor
  have hnew : ∀ fd' f, fd' ≠ fd → (k.reopen fd opened).files fd = some f →
      (k.reopen fd opened).files fd' ≠ some f := by
    intro fd' f hne hfd hfd'
    rw [hself] at hfd
    rw [hother fd' hne] at hfd'
    split at hfd
    · injection hfd with hfd
      have hlt := h.opened fd' f hfd'
      rw [← hfd] at hlt
      exact absurd hlt (Nat.lt_irrefl _)
    · cases hfd
  constructor
  · constructor
    · intro fd' f hf
      show f < k.next + 1
      by_cases hfd : fd' = fd
      · rw [hfd, hself] at hf
        split at hf
        · injection hf with hf
          rw [← hf]
          exact Nat.lt_succ_self k.next
        · cases hf
      · rw [hother fd' hfd] at hf
        exact Nat.lt_succ_of_lt (h.opened fd' f hf)
    · intro fd₁ fd₂ f h₁ h₂
      by_cases hfd₁ : fd₁ = fd
      · by_cases hfd₂ : fd₂ = fd
        · rw [hfd₁, hfd₂]
        · exact absurd h₂ (hnew fd₂ f hfd₂ (hfd₁ ▸ h₁))
      · by_cases hfd₂ : fd₂ = fd
        · exact absurd h₁ (hnew fd₁ f hfd₁ (hfd₂ ▸ h₂))
        · rw [hother fd₁ hfd₁] at h₁
          rw [hother fd₂ hfd₂] at h₂
          exact h.one fd₁ fd₂ f h₁ h₂
    · intro f hf
      have hle : k.next ≤ f := Nat.le_of_succ_le hf
      rw [hset, h.unopened f hle]
      split <;> rfl
  · rw [mask, hself]
    split
    · show (k.reopen fd opened).set k.next = none
      rw [hset, h.unopened k.next (Nat.le_refl _)]
      split <;> rfl
    · rfl
  · intro fd' hne
    rw [mask, hother fd' hne, mask]
    cases hf : k.files fd' with
    | none => rfl
    | some f =>
      show (k.reopen fd opened).set f = k.set f
      rw [hset, if_neg]
      intro hfd
      exact hne (h.one fd' fd f hf hfd)

end Kernel

/-! ## 2. A sync, and what the kernel has then -/

/-- What a sync of a descriptor with entry `e` and mask `m` leaves: the entry, the mask, and what it
returns. -/
inductive Synced (lazily : Bool) (e : FdEntry) (m : Option Mask) :
    Option FdEntry → Option Mask → Option Errno → Prop where
  -- no call: the mask installed is the one wanted, or covers it
  | kept (h : e.interest = e.kernel ∨ lazily = true ∧ e.interest.within e.kernel = true) :
    Synced lazily e m (some e) m none
  | dropped (h : e.interest = .none) (m' : Option Mask) (hm : m' = none ∨ e.registered = false ∧ m' = m) :
    Synced lazily e m none m' none
  | armed (h : e.interest ≠ .none) :
    Synced lazily e m (some { e with registered := true, kernel := e.interest }) (some e.interest) none
  -- what cannot be armed is not in the set
  | refused (h : m = none) (error : Errno) : Synced lazily e m (some e) none (some error)
  | closed (h : m = none) :
    Synced lazily e m (some { e with registered := false, kernel := .none }) none (some ebadf)

/-- From one table to the other, a change at `fd`. -/
structure SyncedAt (lazily : Bool) (e : FdEntry) (fd : RawFd) (error : Option Errno) (t' : FdTable)
    (k k' : Kernel) : Prop where
  proper : k'.Proper
  others : ∀ fd', fd' ≠ fd → k'.mask fd' = k.mask fd'
  synced : Synced lazily e (k.mask fd) (t'.get fd) (k'.mask fd) error

namespace FdTable

variable (t : FdTable) (fd : RawFd)

theorem get_put (e : FdEntry) (fd' : RawFd) : (t.put fd e).get fd' = if fd' = fd then some e else t.get fd' := by
  show Function.update t.slots fd (some e) fd' = _
  rw [Function.update_apply]
  rfl

theorem get_remove (fd' : RawFd) : (t.remove fd).get fd' = if fd' = fd then none else t.get fd' := by
  unfold remove get
  cases hslot : t.slots fd with
  | none =>
    by_cases hfd : fd' = fd
    · rw [if_pos hfd, hfd, hslot]
    · rw [if_neg hfd]
  | some e =>
    show Function.update t.slots fd none fd' = _
    rw [Function.update_apply]

theorem remove_ctls : (t.remove fd).ctls = t.ctls := by
  unfold remove
  split <;> rfl

theorem entry_get (fd' : RawFd) :
    (t.entry fd).2.get fd' = if fd' = fd then some (t.entry fd).1 else t.get fd' := by
  unfold entry get
  cases hslot : t.slots fd with
  | none =>
    show Function.update t.slots fd (some .default) fd' = _
    rw [Function.update_apply]
  | some e =>
    by_cases hfd : fd' = fd
    · rw [if_pos hfd, hfd, hslot]
    · rw [if_neg hfd]

theorem entry_ctls : (t.entry fd).2.ctls = t.ctls := by
  unfold entry
  split <;> rfl

end FdTable

theorem replay_one {k k' : Kernel} {c : CtlCall} (h : [c].foldlM Kernel.ctl k = some k') : k.ctl c = some k' := by
  rw [List.foldlM_cons] at h
  obtain ⟨k₁, hfirst, hrest⟩ := Option.bind_eq_some_iff.mp h
  injection hrest with hrest
  rw [hfirst, hrest]

theorem replay_two {k k' : Kernel} {c c' : CtlCall} (h : [c, c'].foldlM Kernel.ctl k = some k') :
    ∃ k₁, k.ctl c = some k₁ ∧ k₁.ctl c' = some k' := by
  rw [List.foldlM_cons] at h
  obtain ⟨k₁, hfirst, hrest⟩ := Option.bind_eq_some_iff.mp h
  exact ⟨k₁, hfirst, replay_one hrest⟩

/-- The calls with which a sync arms a descriptor. -/
def armCalls (ctl : Ctl) (fd : RawFd) (e : FdEntry) : List CtlCall :=
  if e.registered then
    if ctl.first = some enoent then [.mod fd e.interest ctl.first, .add fd e.interest ctl.second]
    else [.mod fd e.interest ctl.first]
  else
    if ctl.first = some eexist then [.add fd e.interest ctl.first, .mod fd e.interest ctl.second]
    else [.add fd e.interest ctl.first]

/-- What remains of them. -/
def armOutcome (ctl : Ctl) (e : FdEntry) : Option Errno :=
  if e.registered then if ctl.first = some enoent then ctl.second else ctl.first
  else if ctl.first = some eexist then ctl.second else ctl.first

/-- Armed, or not in the set: a registration that is gone is made again, and one that the table does
not know is adopted. -/
theorem armed_or_out {k k' : Kernel} {ctl : Ctl} {fd : RawFd} {e : FdEntry} (h : k.Proper)
    (hk : (armCalls ctl fd e).foldlM Kernel.ctl k = some k') :
    Kernel.Called fd (if armOutcome ctl e = none then some e.interest else none) k k' ∧
      (armOutcome ctl e ≠ none → k.mask fd = none) := by
  unfold armCalls at hk
  unfold armOutcome
  split at hk
  · rename_i hregistered
    rw [if_pos hregistered]
    split at hk
    · rename_i hgone
      rw [if_pos hgone]
      obtain ⟨k₁, hmod, hadd⟩ := replay_two hk
      rcases Kernel.ctl_mod h hmod with ⟨hok, -, -⟩ | ⟨hnone, -, hcalled⟩
      · rw [hgone] at hok
        cases hok
      · rcases Kernel.ctl_add hcalled.proper hadd with ⟨-, hin, -⟩ | ⟨-, -, -, hcalled'⟩
        · exact absurd hcalled.mask hin
        · exact ⟨hcalled.trans hcalled', fun _ => hnone⟩
    · rename_i hthere
      rw [if_neg hthere]
      rcases Kernel.ctl_mod h (replay_one hk) with ⟨hok, -, hcalled⟩ | ⟨hnone, hgone | hclosed, hcalled⟩
      · rw [if_pos hok]
        exact ⟨hcalled, fun hfailed => absurd hok hfailed⟩
      · exact absurd hgone hthere
      · rw [hclosed, if_neg (by simp)]
        exact ⟨hcalled, fun _ => hnone⟩
  · rename_i hunregistered
    rw [if_neg hunregistered]
    split at hk
    · rename_i hthere
      rw [if_pos hthere]
      obtain ⟨k₁, hadd, hmod⟩ := replay_two hk
      rcases Kernel.ctl_add h hadd with ⟨-, hin, hcalled⟩ | ⟨-, -, hnot, -⟩
      · rcases Kernel.ctl_mod hcalled.proper hmod with ⟨hok, -, hcalled'⟩ | ⟨hnone, -, -⟩
        · rw [if_pos hok]
          exact ⟨hcalled.trans hcalled', fun hfailed => absurd hok hfailed⟩
        · rw [hcalled.mask] at hnone
          exact absurd hnone hin
      · exact absurd hthere hnot
    · rename_i hnew
      rw [if_neg hnew]
      rcases Kernel.ctl_add h (replay_one hk) with ⟨hthere, -, -⟩ | ⟨hnone, -, -, hcalled⟩
      · exact absurd hthere hnew
      · exact ⟨hcalled, fun _ => hnone⟩

theorem syncInterest_logs {t : FdTable} {fd : RawFd} {e : FdEntry} (hget : t.get fd = some e) (lazily : Bool)
    (ctl : Ctl) :
    Logs Kernel.ctl (fun k k' => k.Proper →
        SyncedAt lazily e fd (syncInterest lazily ctl fd t).1 (syncInterest lazily ctl fd t).2 k k')
      t.ctls (syncInterest lazily ctl fd t).2.ctls := by
  unfold syncInterest
  rw [hget]
  dsimp only
  split
  · rename_i hsame
    exact .quiet (fun k h => ⟨h, fun _ _ => rfl, hget ▸ .kept (.inl hsame)⟩) _
  split
  · rename_i hcovers
    exact .quiet (fun k h => ⟨h, fun _ _ => rfl, hget ▸ .kept (.inr hcovers)⟩) _
  have hgone : (t.remove fd).get fd = none := by rw [FdTable.get_remove, if_pos rfl]
  split
  · rename_i hidle
    refine ⟨[.del fd ctl.first], by rw [FdTable.called, FdTable.remove_ctls], fun k k' hk h => ?_⟩
    obtain ⟨hcalled, hanswer⟩ := Kernel.ctl_del h (replay_one hk)
    refine ⟨hcalled.proper, hcalled.others, ?_⟩
    have hok : (if ctl.first = some enoent ∨ ctl.first = some ebadf then none else ctl.first) = none := by
      rcases hanswer with hnone | henoent | hebadf
      · rw [hnone, if_neg (by simp)]
      · rw [if_pos (.inl henoent)]
      · rw [if_pos (.inr hebadf)]
    rw [hok, hcalled.mask]
    have hafter : ((t.remove fd).called [.del fd ctl.first]).get fd = none := hgone
    rw [hafter]
    exact .dropped hidle.2 none (.inl rfl)
  rename_i hnot
  split
  · rename_i hidle
    have hunregistered : e.registered = false := by
      cases hr : e.registered with
      | false => rfl
      | true => exact absurd ⟨hr, hidle⟩ hnot
    show Logs _ _ t.ctls (t.remove fd).ctls
    rw [FdTable.remove_ctls]
    exact .quiet (fun k h =>
      ⟨h, fun _ _ => rfl, hgone ▸ .dropped hidle (k.mask fd) (.inr ⟨hunregistered, rfl⟩)⟩) _
  rename_i hneeded
  have houtcome : (if e.registered = true then if ctl.first = some enoent then ctl.second else ctl.first
      else if ctl.first = some eexist then ctl.second else ctl.first) = armOutcome ctl e := rfl
  have hcalls : (if e.registered = true then
        if ctl.first = some enoent then
          [CtlCall.mod fd e.interest ctl.first, CtlCall.add fd e.interest ctl.second]
        else [CtlCall.mod fd e.interest ctl.first]
      else
        if ctl.first = some eexist then
          [CtlCall.add fd e.interest ctl.first, CtlCall.mod fd e.interest ctl.second]
        else [CtlCall.add fd e.interest ctl.first]) = armCalls ctl fd e := rfl
  rw [houtcome, hcalls]
  have hput : ∀ e' : FdEntry, ((t.called (armCalls ctl fd e)).put fd e').get fd = some e' := by
    intro e'
    rw [FdTable.get_put, if_pos rfl]
  cases hrc : armOutcome ctl e with
  | none =>
    refine ⟨armCalls ctl fd e, rfl, fun k k' hk h => ?_⟩
    obtain ⟨hcalled, -⟩ := armed_or_out h hk
    rw [if_pos hrc] at hcalled
    refine ⟨hcalled.proper, hcalled.others, ?_⟩
    rw [hcalled.mask, hput]
    exact .armed hneeded
  | some error =>
    have hlog : ∀ t' : FdTable, t' = t.called (armCalls ctl fd e) ∨
        (∃ e', t' = (t.called (armCalls ctl fd e)).put fd e') → t'.ctls = t.ctls ++ armCalls ctl fd e := by
      rintro t' (rfl | ⟨e', rfl⟩) <;> rfl
    dsimp only
    refine ⟨armCalls ctl fd e, hlog _ ?_, fun k k' hk h => ?_⟩
    · split
      · exact .inr ⟨_, rfl⟩
      · exact .inl rfl
    · obtain ⟨hcalled, hout⟩ := armed_or_out h hk
      rw [if_neg (by rw [hrc]; simp)] at hcalled
      refine ⟨hcalled.proper, hcalled.others, ?_⟩
      rw [hcalled.mask]
      have hnone : k.mask fd = none := hout (by rw [hrc]; simp)
      split
      · rename_i hclosed
        rw [hput, hclosed]
        exact .closed hnone
      · have hstays : (t.called (armCalls ctl fd e)).get fd = some e := hget
        rw [hstays]
        exact .refused hnone error

theorem syncInterest_get (lazily : Bool) (ctl : Ctl) (t : FdTable) {fd fd' : RawFd} (hne : fd' ≠ fd) :
    (syncInterest lazily ctl fd t).2.get fd' = t.get fd' := by
  have hput : ∀ (t' : FdTable) e, t'.slots = t.slots → (t'.put fd e).get fd' = t.get fd' := by
    intro t' e hslots
    rw [FdTable.get_put, if_neg hne, FdTable.get, hslots]
    rfl
  have hremove : (t.remove fd).get fd' = t.get fd' := by rw [FdTable.get_remove, if_neg hne]
  unfold syncInterest
  split
  · rfl
  dsimp only
  split
  · rfl
  split
  · rfl
  split
  · exact hremove
  split
  · exact hremove
  split
  · exact hput _ _ rfl
  · dsimp only
    split
    · exact hput _ _ rfl
    · rfl

/-- A sync changes only what the table says of the kernel. -/
theorem syncInterest_entry {lazily : Bool} {ctl : Ctl} {t : FdTable} {fd fd' : RawFd} {e' : FdEntry}
    (h : (syncInterest lazily ctl fd t).2.get fd' = some e') :
    ∃ e, t.get fd' = some e ∧ e'.interest = e.interest := by
  by_cases hfd : fd' = fd
  · subst hfd
    have hput : ∀ {t' : FdTable} {e e₁ : FdEntry}, (t'.put fd' e₁).get fd' = some e' → t.get fd' = some e →
        e₁.interest = e.interest → ∃ e, t.get fd' = some e ∧ e'.interest = e.interest := by
      intro t' e e₁ hat he hsame
      rw [FdTable.get_put, if_pos rfl] at hat
      injection hat with hat
      exact ⟨e, he, hat ▸ hsame⟩
    have hgone : (t.remove fd').get fd' = some e' → False := by
      intro hat
      rw [FdTable.get_remove, if_pos rfl] at hat
      cases hat
    unfold syncInterest at h
    split at h
    · exact ⟨e', h, rfl⟩
    rename_i e hget
    dsimp only at h
    split at h
    · exact ⟨e', h, rfl⟩
    split at h
    · exact ⟨e', h, rfl⟩
    split at h
    · exact absurd h hgone
    split at h
    · exact absurd h hgone
    split at h
    · exact hput h hget rfl
    · dsimp only at h
      split at h
      · exact hput h hget rfl
      · exact ⟨e', h, rfl⟩
  · rw [syncInterest_get lazily ctl t hfd] at h
    exact ⟨e', h, rfl⟩

/-! ## 3. What the table and the kernel agree on -/

def Mask.side (m : Mask) (w : Bool) : Bool := if w then m.w else m.r

namespace Mask

theorem within_iff {m m' : Mask} : m.within m' = true ↔ ∀ w, m.side w = true → m'.side w = true := by
  obtain ⟨r, w⟩ := m
  obtain ⟨r', w'⟩ := m'
  constructor
  · intro h side
    cases side <;> cases r <;> cases w <;> simp_all [within, Mask.side]
  · intro h
    have hr := h false
    have hw := h true
    cases r <;> cases w <;> simp_all [within, Mask.side]

theorem within_refl (m : Mask) : m.within m = true := within_iff.mpr fun _ h => h

theorem within_trans {m m' m'' : Mask} (h : m.within m' = true) (h' : m'.within m'' = true) :
    m.within m'' = true := within_iff.mpr fun w hw => within_iff.mp h' w (within_iff.mp h w hw)

theorem eq_none_of_sides {m : Mask} (h : ∀ w, m.side w = false) : m = .none := by
  obtain ⟨r, w⟩ := m
  have hr := h false
  have hw := h true
  simp_all [Mask.side, Mask.none]

theorem side_none (w : Bool) : Mask.none.side w = false := by cases w <;> rfl

/-- What lies within no mask is none. -/
theorem eq_none_of_within {m : Mask} (h : m.within .none = true) : m = .none := by
  apply eq_none_of_sides
  intro w
  cases hw : m.side w with
  | false => rfl
  | true => rw [← within_iff.mp h w hw, side_none]

end Mask

namespace FdEntry

def watches (e : FdEntry) : Mask := ⟨e.watchR, e.watchW⟩

theorem side_interest (e : FdEntry) (w : Bool) :
    e.interest.side w = ((e.op w).isSome || e.watches.side w) := by cases w <;> rfl

theorem watches_within (e : FdEntry) : e.watches.within e.interest = true := by
  apply Mask.within_iff.mpr
  intro w hw
  rw [side_interest, hw, Bool.or_true]

theorem interest_of_plain {e : FdEntry} (hr : e.readOp = none) (hw : e.writeOp = none) :
    e.interest = e.watches := by simp [interest, watches, hr, hw]

end FdEntry

/-- Between an entry and the mask: what is in the set the entry knows, and what it says is there,
unless the number was given to another file. -/
structure Registered (recycled : Bool) (entry : Option FdEntry) (mask : Option Mask) : Prop where
  known : ∀ m, mask = some m → ∃ e, entry = some e ∧ e.registered = true ∧ e.kernel = m
  there : recycled = false → ∀ e, entry = some e → e.registered = true → mask = some e.kernel
  unregistered : ∀ e, entry = some e → e.registered = false → e.kernel = .none
  -- errors would be reported all the same
  events : mask ≠ some .none

/-- A mask that the entry believes in covers the watches; without operations it is no more. -/
structure Masked (operated : Bool) (e : FdEntry) : Prop where
  watched : e.kernel ≠ .none → e.watches.within e.kernel = true
  plain : operated = false →
    e.readOp = none ∧ e.writeOp = none ∧ (e.kernel = .none ∨ e.kernel = e.watches)

structure Tied (recycled operated : Bool) (entry : Option FdEntry) (mask : Option Mask) : Prop where
  registered : Registered recycled entry mask
  masked : ∀ e, entry = some e → Masked operated e

/-- The file is in the set with every bit wanted. -/
def Armed (entry : Option FdEntry) (mask : Option Mask) : Prop :=
  ∀ e, entry = some e → e.interest ≠ .none → ∃ m, mask = some m ∧ e.interest.within m = true

/-- Nobody wants the side. -/
def Idle (w : Bool) (entry : Option FdEntry) : Prop := ∀ e, entry = some e → e.interest.side w = false

/-- And the mask leaves it out. -/
structure Off (w : Bool) (entry : Option FdEntry) (mask : Option Mask) : Prop where
  idle : Idle w entry
  masked : ∀ m, mask = some m → m.side w = false

variable {recycled operated lazily : Bool} {e e' : FdEntry} {m m' : Option Mask} {entry entry' : Option FdEntry}
  {error : Option Errno}

/-- An entry as a sync finds it; its mask may be distrusted, to force the call. -/
structure Ready (recycled lazily : Bool) (e : FdEntry) (m : Option Mask) : Prop where
  known : ∀ m', m = some m' →
    e.registered = true ∧ (e.kernel = m' ∨ lazily = false ∧ e.kernel = .none ∧ e.interest ≠ .none)
  there : recycled = false → e.registered = true → m ≠ none
  unregistered : e.registered = false → e.kernel = .none
  events : m ≠ some .none

theorem Registered.ready (h : Registered recycled (some e) m) (lazily : Bool) : Ready recycled lazily e m where
  known m' hm := by
    obtain ⟨e', he, hregistered, hkernel⟩ := h.known m' hm
    injection he with he
    subst he
    exact ⟨hregistered, .inl hkernel⟩
  there hrecycled hregistered := by
    rw [h.there hrecycled e rfl hregistered]
    simp
  unregistered := h.unregistered e rfl
  events := h.events

/-- What is kept was to be trusted. -/
theorem Ready.kept (h : Ready recycled lazily e m)
    (hkept : e.interest = e.kernel ∨ lazily = true ∧ e.interest.within e.kernel = true) {m' : Mask}
    (hm : m = some m') : e.kernel = m' := by
  rcases (h.known m' hm).2 with hsame | ⟨heager, hnone, hneeded⟩
  · exact hsame
  · rcases hkept with heq | ⟨hlazy, -⟩
    · rw [heq] at hneeded
      exact absurd hnone hneeded
    · rw [heager] at hlazy
      cases hlazy

theorem Synced.registered (h : Synced lazily e m entry' m' error) (hready : Ready recycled lazily e m) :
    Registered recycled entry' m' := by
  cases h with
  | kept hkept =>
    refine ⟨fun m₁ hm => ⟨e, rfl, (hready.known m₁ hm).1, hready.kept hkept hm⟩, fun hrecycled e₁ he hreg => ?_,
      fun e₁ he hunreg => ?_, hready.events⟩
    · injection he with he
      subst he
      cases hm : m with
      | none => exact absurd hm (hready.there hrecycled hreg)
      | some m₁ => rw [hready.kept hkept hm]
    · injection he with he
      subst he
      exact hready.unregistered hunreg
  | dropped hidle m₁ hm =>
    refine ⟨fun m₂ hm₂ => ?_, fun _ e₁ he => (by cases he), fun e₁ he => (by cases he), fun hm₂ => ?_⟩
    all_goals rcases hm with hnone | ⟨hunreg, hsame⟩
    · rw [hnone] at hm₂
      cases hm₂
    · rw [(hready.known m₂ (hsame ▸ hm₂)).1] at hunreg
      cases hunreg
    · rw [hnone] at hm₂
      cases hm₂
    · exact hready.events (hsame ▸ hm₂)
  | armed hneeded =>
    refine ⟨fun m₁ hm => ?_, fun _ e₁ he _ => ?_, fun e₁ he hunreg => ?_, fun hm => hneeded ?_⟩
    · injection hm with hm
      exact ⟨_, rfl, rfl, hm⟩
    · injection he with he
      subst he
      rfl
    · injection he with he
      subst he
      cases hunreg
    · injection hm
  | refused hm error =>
    refine ⟨fun m₁ hm₁ => (by cases hm₁), fun hrecycled e₁ he hreg => ?_, fun e₁ he hunreg => ?_, nofun⟩
    · injection he with he
      subst he
      exact absurd hm (hready.there hrecycled hreg)
    · injection he with he
      subst he
      exact hready.unregistered hunreg
  | closed hm =>
    refine ⟨fun m₁ hm₁ => (by cases hm₁), fun _ e₁ he hreg => ?_, fun e₁ he _ => ?_, nofun⟩
    · injection he with he
      subst he
      cases hreg
    · injection he with he
      subst he
      rfl

/-- A sync leaves the operations and the watches. -/
theorem Synced.same (h : Synced lazily e m (some e') m' error) :
    e'.readOp = e.readOp ∧ e'.writeOp = e.writeOp ∧ e'.watchR = e.watchR ∧ e'.watchW = e.watchW := by
  cases h <;> exact ⟨rfl, rfl, rfl, rfl⟩

theorem Synced.interest (h : Synced lazily e m (some e') m' error) : e'.interest = e.interest := by
  obtain ⟨hr, hw, hwr, hww⟩ := h.same
  simp [FdEntry.interest, hr, hw, hwr, hww]

theorem Synced.masked (h : Synced lazily e m (some e') m' error) (hmasked : Masked operated e) :
    Masked operated e' := by
  cases h with
  | kept _ => exact hmasked
  | armed hneeded =>
    refine ⟨fun _ => e.watches_within, fun hplain => ?_⟩
    obtain ⟨hr, hw, -⟩ := hmasked.plain hplain
    exact ⟨hr, hw, .inr (FdEntry.interest_of_plain hr hw)⟩
  | refused _ _ => exact hmasked
  | closed _ =>
    refine ⟨fun hnone => absurd rfl hnone, fun hplain => ?_⟩
    obtain ⟨hr, hw, -⟩ := hmasked.plain hplain
    exact ⟨hr, hw, .inl rfl⟩

/-- A sync that succeeds arms what is wanted, unless it trusted a mask that is not there. -/
theorem Synced.arms (h : Synced lazily e m entry' m' none) (hready : Ready recycled lazily e m)
    (htrusted : e.interest = .none ∨ recycled = false ∨
      ¬ (e.interest = e.kernel ∨ lazily = true ∧ e.interest.within e.kernel = true)) : Armed entry' m' := by
  intro e₁ he hneeded
  cases h with
  | kept hkept =>
    injection he with he
    subst he
    rcases htrusted with hidle | hfresh | hnot
    · exact absurd hidle hneeded
    · have hin : e.interest.within e.kernel = true := by
        rcases hkept with heq | ⟨-, hcovers⟩
        · rw [heq]
          exact Mask.within_refl _
        · exact hcovers
      have hreg : e.registered = true := by
        cases hreg : e.registered with
        | true => rfl
        | false =>
          rw [hready.unregistered hreg] at hin
          exact absurd (Mask.eq_none_of_within hin) hneeded
      cases hm : m with
      | none => exact absurd hm (hready.there hfresh hreg)
      | some m₁ => exact ⟨m₁, rfl, hready.kept hkept hm ▸ hin⟩
    · exact absurd hkept hnot
  | dropped _ _ _ => cases he
  | armed _ =>
    injection he with he
    subst he
    exact ⟨_, rfl, Mask.within_refl _⟩

/-- What fails to be armed is out of the set. -/
theorem Synced.failed {e₀ : Errno} (h : Synced lazily e m entry' m' (some e₀)) : m = none ∧ m' = none := by
  cases h with
  | refused hm _ => exact ⟨hm, rfl⟩
  | closed hm => exact ⟨hm, rfl⟩

/-! ## 4. Steps that want no more -/

/-- An entry with no more operations than before. -/
structure Fewer (e e' : FdEntry) : Prop where
  ops : ∀ w, e'.op w = e.op w ∨ e'.op w = none
  watchR : e'.watchR = e.watchR
  watchW : e'.watchW = e.watchW
  registered : e'.registered = e.registered
  kernel : e'.kernel = e.kernel

/-- What a call other than a park or `set_watch` does to a descriptor, a step at a time. -/
inductive Wane : Option FdEntry × Option Mask → Option FdEntry × Option Mask → Prop where
  | made (m : Option Mask) : Wane (none, m) (some .default, m)
  | unparked {e e' : FdEntry} (h : Fewer e e') (m : Option Mask) : Wane (some e, m) (some e', m)
  | synced {lazily : Bool} {e : FdEntry} {m : Option Mask} {entry' : Option FdEntry} {m' : Option Mask}
      {error : Option Errno} (h : Synced lazily e m entry' m' error) : Wane (some e, m) (entry', m')
  | forgotten {e : FdEntry} {m m' : Option Mask} (h : m' = none ∨ e.registered = false ∧ m' = m) :
      Wane (some e, m) (none, m')

def Wanes : Option FdEntry × Option Mask → Option FdEntry × Option Mask → Prop := Relation.ReflTransGen Wane

theorem Fewer.sides (h : Fewer e e') (w : Bool) (hw : e'.interest.side w = true) : e.interest.side w = true := by
  have hwatches : e'.watches = e.watches := by simp [FdEntry.watches, h.watchR, h.watchW]
  rw [FdEntry.side_interest, hwatches] at hw
  rw [FdEntry.side_interest]
  rcases h.ops w with hsame | hnone
  · rwa [← hsame]
  · rw [hnone] at hw
    simp only [Option.isSome_none, Bool.false_or] at hw
    rw [hw, Bool.or_true]

theorem Fewer.interest (h : Fewer e e') : e'.interest.within e.interest = true :=
  Mask.within_iff.mpr h.sides

theorem Fewer.masked (h : Fewer e e') (hmasked : Masked operated e) : Masked operated e' := by
  have hwatches : e'.watches = e.watches := by simp [FdEntry.watches, h.watchR, h.watchW]
  refine ⟨fun hkernel => ?_, fun hplain => ?_⟩
  · rw [h.kernel] at hkernel ⊢
    rw [hwatches]
    exact hmasked.watched hkernel
  · obtain ⟨hr, hw, hkernel⟩ := hmasked.plain hplain
    have hread : e'.op false = none := (h.ops false).elim (fun hsame => hsame.trans hr) fun hnone => hnone
    have hwrite : e'.op true = none := (h.ops true).elim (fun hsame => hsame.trans hw) fun hnone => hnone
    refine ⟨hread, hwrite, ?_⟩
    rw [h.kernel, hwatches]
    exact hkernel

theorem Registered.replaced (h : Registered recycled (some e) m) (hregistered : e'.registered = e.registered)
    (hkernel : e'.kernel = e.kernel) : Registered recycled (some e') m where
  known m' hm := by
    obtain ⟨e₁, he, hreg, hk⟩ := h.known m' hm
    injection he with he
    subst he
    exact ⟨e', rfl, hregistered.trans hreg, hkernel.trans hk⟩
  there hrecycled e₁ he hreg := by
    injection he with he
    subst he
    rw [hkernel]
    exact h.there hrecycled e rfl (hregistered ▸ hreg)
  unregistered e₁ he hunreg := by
    injection he with he
    subst he
    rw [hkernel]
    exact h.unregistered e rfl (hregistered ▸ hunreg)
  events := h.events

/-- No entry: then the descriptor is not in the set, and all there is to say is said. -/
theorem Tied.absent (h : Tied recycled operated none m) (recycled' operated' : Bool) :
    m = none ∧ Tied recycled' operated' none m := by
  have hnone : m = none := by
    cases hm : m with
    | none => rfl
    | some m₁ =>
      obtain ⟨e, he, -⟩ := h.registered.known m₁ hm
      cases he
  subst hnone
  exact ⟨rfl, ⟨nofun, fun _ e he => (by cases he), fun e he => (by cases he), nofun⟩, fun e he => (by cases he)⟩

theorem Tied.made (h : Tied recycled operated none m) (recycled' operated' : Bool) :
    Tied recycled' operated' (some .default) m := by
  obtain ⟨hnone, -⟩ := h.absent recycled operated
  subst hnone
  refine ⟨⟨nofun, fun _ e he hreg => ?_, fun e he _ => ?_, nofun⟩, fun e he => ?_⟩
  · injection he with he
    subst he
    cases hreg
  · injection he with he
    subst he
    rfl
  · injection he with he
    subst he
    exact ⟨fun hkernel => absurd rfl hkernel, fun _ => ⟨rfl, rfl, .inl rfl⟩⟩

theorem Tied.wane {x x' : Option FdEntry × Option Mask} (hstep : Wane x x')
    (h : Tied recycled operated x.1 x.2) : Tied recycled operated x'.1 x'.2 := by
  cases hstep with
  | made m => exact h.made recycled operated
  | unparked hfewer m =>
    refine ⟨h.registered.replaced hfewer.registered hfewer.kernel, fun e₁ he => ?_⟩
    injection he with he
    subst he
    exact hfewer.masked (h.masked _ rfl)
  | synced hsync =>
    refine ⟨hsync.registered (h.registered.ready _), fun e₁ he => ?_⟩
    dsimp only at he
    subst he
    exact hsync.masked (h.masked _ rfl)
  | forgotten hm =>
    refine ⟨⟨fun m₁ hm₁ => ?_, fun _ e₁ he => (by cases he), fun e₁ he => (by cases he), fun hm₁ => ?_⟩,
      fun e₁ he => (by cases he)⟩
    all_goals rcases hm with hnone | ⟨hunreg, hsame⟩
    · rw [hnone] at hm₁
      cases hm₁
    · obtain ⟨e₁, he, hreg, -⟩ := h.registered.known m₁ (hsame ▸ hm₁)
      injection he with he
      subst he
      rw [hunreg] at hreg
      cases hreg
    · rw [hnone] at hm₁
      cases hm₁
    · exact h.registered.events (hsame ▸ hm₁)

theorem Armed.wane {x x' : Option FdEntry × Option Mask} (hstep : Wane x x') (h : Armed x.1 x.2) :
    Armed x'.1 x'.2 := by
  intro e₁ he hneeded
  cases hstep with
  | made m =>
    injection he with he
    subst he
    exact absurd rfl hneeded
  | unparked hfewer m =>
    injection he with he
    subst he
    obtain ⟨m₁, hm, hin⟩ := h _ rfl fun hidle => hneeded (Mask.eq_none_of_within (hidle ▸ hfewer.interest))
    exact ⟨m₁, hm, Mask.within_trans hfewer.interest hin⟩
  | synced hsync =>
    cases hsync with
    | kept _ => exact h e₁ he hneeded
    | dropped _ _ _ => cases he
    | armed _ =>
      injection he with he
      subst he
      exact ⟨_, rfl, Mask.within_refl _⟩
    | refused hm _ =>
      injection he with he
      subst he
      obtain ⟨m₁, hm₁, -⟩ := h _ rfl hneeded
      dsimp only at hm₁
      rw [hm] at hm₁
      cases hm₁
    | closed hm =>
      injection he with he
      subst he
      obtain ⟨m₁, hm₁, -⟩ := h _ rfl hneeded
      dsimp only at hm₁
      rw [hm] at hm₁
      cases hm₁
  | forgotten _ => cases he

theorem Idle.wane {w : Bool} {x x' : Option FdEntry × Option Mask} (hstep : Wane x x') (h : Idle w x.1) :
    Idle w x'.1 := by
  intro e₁ he
  cases hstep with
  | made m =>
    injection he with he
    subst he
    cases w <;> rfl
  | @unparked e e' hfewer m =>
    injection he with he
    subst he
    cases hw : e'.interest.side w with
    | false => rfl
    | true => rw [← h e rfl, hfewer.sides w hw]
  | synced hsync =>
    dsimp only at he
    subst he
    rw [hsync.interest]
    exact h _ rfl
  | forgotten _ => cases he

/-- What is wanted no more stays out of the mask. -/
theorem Off.wane {w : Bool} {x x' : Option FdEntry × Option Mask} (hstep : Wane x x')
    (h : Off w x.1 x.2) : Off w x'.1 x'.2 := by
  refine ⟨h.idle.wane hstep, fun m₁ hm₁ => ?_⟩
  cases hstep with
  | made m => exact h.masked m₁ hm₁
  | unparked hfewer m => exact h.masked m₁ hm₁
  | synced hsync =>
    cases hsync with
    | kept _ => exact h.masked m₁ hm₁
    | dropped _ _ hm =>
      rcases hm with hnone | ⟨-, hsame⟩
      · rw [hnone] at hm₁
        cases hm₁
      · exact h.masked m₁ (hsame ▸ hm₁)
    | armed _ =>
      injection hm₁ with hm₁
      subst hm₁
      exact h.idle _ rfl
    | refused _ _ => cases hm₁
    | closed _ => cases hm₁
  | forgotten hm =>
    rcases hm with hnone | ⟨-, hsame⟩
    · rw [hnone] at hm₁
      cases hm₁
    · exact h.masked m₁ (hsame ▸ hm₁)

end Cadeloop.Core.Epoll
