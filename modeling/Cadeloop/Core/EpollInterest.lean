import Cadeloop.Core.EpollKernel

/-!
# Kernel interest covers wanted interest

The backend beside the kernel, over any history of calls, with descriptors closed and their numbers
given to other files between them.  Nobody is told: what a sync believes of the kernel may be wrong,
but then it makes the call that finds out.
-/

namespace Cadeloop.Core.Epoll

open Cadeloop.Reasoning
open Ops (OpId OpKind OpState)
open EpollBackend

/-! ## 1. The table's counts -/

namespace FdTable

variable {t : FdTable} {fd : RawFd}

/-- `live` is how many entries there are, and `wake_present` says whether the wake descriptor has one. -/
structure Marked (t : FdTable) : Prop where
  counted : t.Counted
  wake : t.wakePresent = true ↔ ∃ fd, t.wakeFd = some fd ∧ (t.get fd).isSome = true

theorem Marked.empty : FdTable.empty.Marked where
  counted := .empty
  wake := by
    constructor
    · intro h
      cases h
    · rintro ⟨fd, h, -⟩
      cases h

/-- The entries present, and the wake descriptor, are all there is. -/
theorem Marked.congr {t' : FdTable} (h : t.Marked) (hcounted : t'.Counted) (hfd : t'.wakeFd = t.wakeFd)
    (hpresent : t'.wakePresent = t.wakePresent) (hsame : ∀ fd, (t'.get fd).isSome = (t.get fd).isSome) :
    t'.Marked where
  counted := hcounted
  wake := by
    simp only [hfd, hpresent, hsame]
    exact h.wake

theorem Marked.put (h : t.Marked) {entry : FdEntry} (hget : t.get fd = some entry) (e : FdEntry) :
    (t.put fd e).Marked := by
  refine h.congr ((Local.put hget e).counted h.counted) rfl rfl fun fd' => ?_
  rw [get_put]
  by_cases hfd : fd' = fd
  · rw [if_pos hfd, hfd, hget]
    rfl
  · rw [if_neg hfd]

theorem Marked.called (h : t.Marked) (calls : List CtlCall) : (t.called calls).Marked :=
  h.congr h.counted rfl rfl fun _ => rfl

theorem Marked.entry (h : t.Marked) (fd : RawFd) : (t.entry fd).2.Marked := by
  have hcounted := (Local.entry fd t).counted h.counted
  have hgets := t.entry_get fd
  cases hslot : t.slots fd with
  | some e =>
    have hsame : (t.entry fd).2 = t := by rw [FdTable.entry, hslot]
    rw [hsame]
    exact h
  | none =>
    have hmade : (t.entry fd).2.wakePresent = (t.wakePresent || decide (t.wakeFd = some fd)) ∧
        (t.entry fd).2.wakeFd = t.wakeFd := by
      rw [FdTable.entry, hslot]
      exact ⟨rfl, rfl⟩
    refine ⟨hcounted, ?_⟩
    rw [hmade.1, hmade.2, Bool.or_eq_true, h.wake, decide_eq_true_iff]
    constructor
    · rintro (⟨fd', hwake, hthere⟩ | hwake)
      · refine ⟨fd', hwake, ?_⟩
        rw [hgets]
        split
        · rfl
        · exact hthere
      · exact ⟨fd, hwake, by rw [hgets, if_pos rfl]; rfl⟩
    · rintro ⟨fd', hwake, hthere⟩
      rw [hgets] at hthere
      split at hthere
      · rename_i hfd
        exact .inr (hfd ▸ hwake)
      · exact .inl ⟨fd', hwake, hthere⟩

theorem Marked.remove (h : t.Marked) (fd : RawFd) : (t.remove fd).Marked := by
  have hcounted := (Local.remove fd t).counted h.counted
  have hgets := t.get_remove fd
  cases hslot : t.slots fd with
  | none =>
    have hsame : t.remove fd = t := by rw [FdTable.remove, hslot]
    rw [hsame]
    exact h
  | some e =>
    have hgone : (t.remove fd).wakePresent = (if t.wakeFd = some fd then false else t.wakePresent) ∧
        (t.remove fd).wakeFd = t.wakeFd := by
      rw [FdTable.remove, hslot]
      exact ⟨rfl, rfl⟩
    refine ⟨hcounted, ?_⟩
    rw [hgone.1, hgone.2]
    by_cases hwake : t.wakeFd = some fd
    · rw [if_pos hwake]
      constructor
      · intro hfalse
        cases hfalse
      · rintro ⟨fd', hfd', hthere⟩
        rw [hwake] at hfd'
        injection hfd' with hfd'
        rw [hgets, if_pos hfd'.symm] at hthere
        cases hthere
    · rw [if_neg hwake, h.wake]
      constructor
      · rintro ⟨fd', hfd', hthere⟩
        have hne : fd' ≠ fd := fun heq => hwake (heq ▸ hfd')
        exact ⟨fd', hfd', by rwa [hgets, if_neg hne]⟩
      · rintro ⟨fd', hfd', hthere⟩
        have hne : fd' ≠ fd := fun heq => hwake (heq ▸ hfd')
        exact ⟨fd', hfd', by rwa [hgets, if_neg hne] at hthere⟩

theorem Marked.forget (h : t.Marked) (fd : RawFd) : (t.forget fd).Marked := by
  unfold FdTable.forget
  split
  · exact (h.remove fd).called _
  · exact h.remove fd

theorem Marked.sync (h : t.Marked) (lazily : Bool) (ctl : Ctl) (fd : RawFd) :
    (syncInterest lazily ctl fd t).2.Marked := by
  unfold syncInterest
  split
  · exact h
  rename_i entry hget
  dsimp only
  split
  · exact h
  split
  · exact h
  split
  · exact (h.remove fd).called _
  split
  · exact h.remove fd
  have hcalled := fun calls => h.called calls
  have hthere : ∀ calls, (t.called calls).get fd = some entry := fun _ => hget
  split
  · exact (hcalled _).put (hthere _) _
  · dsimp only
    split
    · exact (hcalled _).put (hthere _) _
    · exact hcalled _

theorem Marked.setWakeFd (h : t.Marked) (fd : Option RawFd) : (t.setWakeFd fd).Marked where
  counted := h.counted
  wake := by
    show (fd.any fun fd => (t.get fd).isSome) = true ↔ ∃ fd', fd = some fd' ∧ (t.get fd').isSome = true
    cases fd with
    | none => simp
    | some fd => simp

/-- The wake descriptor is one of the entries counted. -/
theorem Marked.interestLen (h : t.Marked) : t.interestLen + t.wakePresent.toNat = t.live := by
  unfold FdTable.interestLen
  cases hwake : t.wakePresent with
  | false => rfl
  | true =>
    obtain ⟨fd, -, hthere⟩ := h.wake.mp hwake
    obtain ⟨fds, hmem, hlive⟩ := h.counted
    have hpos : 0 < fds.card := Finset.card_pos.mpr ⟨fd, (hmem fd).mpr hthere⟩
    show t.live - 1 + 1 = t.live
    omega

end FdTable

/-! ## 2. Calls that want no more -/

theorem Wanes.idle {w : Bool} {x x' : Option FdEntry × Option Mask} (h : Wanes x x') (hidle : Idle w x.1) :
    Idle w x'.1 := by
  induction h with
  | refl => exact hidle
  | tail _ hstep ih => exact ih.wane hstep

theorem Wanes.off {w : Bool} {x x' : Option FdEntry × Option Mask} (h : Wanes x x') (hoff : Off w x.1 x.2) :
    Off w x'.1 x'.2 := by
  induction h with
  | refl => exact hoff
  | tail _ hstep ih => exact ih.wane hstep

theorem Wanes.tied {recycled operated : Bool} {x x' : Option FdEntry × Option Mask} (h : Wanes x x')
    (htied : Tied recycled operated x.1 x.2) : Tied recycled operated x'.1 x'.2 := by
  induction h with
  | refl => exact htied
  | tail _ hstep ih => exact ih.wane hstep

theorem Wanes.armed {x x' : Option FdEntry × Option Mask} (h : Wanes x x') (harmed : Armed x.1 x.2) :
    Armed x'.1 x'.2 := by
  induction h with
  | refl => exact harmed
  | tail _ hstep ih => exact ih.wane hstep

/-- From one table to the other, every descriptor only wanes. -/
structure Waning (t t' : FdTable) : Prop where
  marked : t.Marked → t'.Marked
  parked : ∀ fd w id, t'.parked fd w = some id → t.parked fd w = some id
  idle : ∀ fd w, Idle w (t.get fd) → Idle w (t'.get fd)
  wanes : Logs Kernel.ctl (fun k k' => k.Proper →
    k'.Proper ∧ ∀ fd, Wanes (t.get fd, k.mask fd) (t'.get fd, k'.mask fd)) t.ctls t'.ctls

theorem Waning.refl (t : FdTable) : Waning t t :=
  ⟨fun h => h, fun _ _ _ h => h, fun _ _ h => h, .quiet (fun _ h => ⟨h, fun _ => .refl⟩) t.ctls⟩

theorem Waning.trans {t t' t'' : FdTable} (h : Waning t t') (h' : Waning t' t'') : Waning t t'' where
  marked ht := h'.marked (h.marked ht)
  parked fd w id hid := h.parked fd w id (h'.parked fd w id hid)
  idle fd w hidle := h'.idle fd w (h.idle fd w hidle)
  wanes := h.wanes.comp h'.wanes fun k k' k'' hfirst hsecond hk => by
    obtain ⟨hk', hone⟩ := hfirst hk
    obtain ⟨hk'', htwo⟩ := hsecond hk'
    exact ⟨hk'', fun fd => (hone fd).trans (htwo fd)⟩

/-- No call is made, and one entry changes. -/
theorem Waning.of_quiet {t t' : FdTable} (hmarked : t.Marked → t'.Marked)
    (hparked : ∀ fd w id, t'.parked fd w = some id → t.parked fd w = some id) (hctls : t'.ctls = t.ctls)
    (hstep : ∀ fd m, Wanes (t.get fd, m) (t'.get fd, m)) : Waning t t' where
  marked := hmarked
  parked := hparked
  idle fd w hidle := (hstep fd none).idle hidle
  wanes := by
    rw [hctls]
    exact .quiet (fun k h => ⟨h, fun fd => hstep fd (k.mask fd)⟩) t.ctls

theorem Waning.entry (t : FdTable) (fd : RawFd) : Waning t (t.entry fd).2 := by
  refine .of_quiet (fun h => h.entry fd) (fun fd' w id hid => ?_) (t.entry_ctls fd) fun fd' m => ?_
  · rwa [(FdTable.entry_spec t fd).2] at hid
  rw [t.entry_get fd fd']
  by_cases hfd : fd' = fd
  · rw [if_pos hfd, hfd]
    cases hslot : t.slots fd with
    | none =>
      have hmade : (t.entry fd).1 = .default := by rw [FdTable.entry, hslot]
      rw [hmade, FdTable.get, hslot]
      exact .single (.made m)
    | some e =>
      have hthere : (t.entry fd).1 = e := by rw [FdTable.entry, hslot]
      rw [hthere, FdTable.get, hslot]
      exact .refl
  · rw [if_neg hfd]
    exact .refl

theorem Waning.put {t : FdTable} {fd : RawFd} {e e' : FdEntry} (hget : t.get fd = some e) (hfewer : Fewer e e') :
    Waning t (t.put fd e') := by
  refine .of_quiet (fun h => h.put hget e') (fun fd' w id hid => ?_) rfl fun fd' m => ?_
  · rw [FdTable.parked_put] at hid
    split at hid
    · rename_i hfd
      rw [hfd, FdTable.parked_of_get hget]
      rcases hfewer.ops w with hsame | hnone
      · rwa [← hsame]
      · rw [hnone] at hid
        cases hid
    · exact hid
  rw [FdTable.get_put]
  by_cases hfd : fd' = fd
  · rw [if_pos hfd, hfd, hget]
    exact .single (.unparked hfewer m)
  · rw [if_neg hfd]
    exact .refl

theorem Waning.sync (lazily : Bool) (ctl : Ctl) (fd : RawFd) (t : FdTable) :
    Waning t (syncInterest lazily ctl fd t).2 where
  marked h := h.sync lazily ctl fd
  parked fd' w id hid := by rwa [syncInterest_parked] at hid
  idle fd' w hidle e' he' := by
    obtain ⟨e, he, hsame⟩ := syncInterest_entry he'
    rw [hsame]
    exact hidle e he
  wanes := by
    cases hget : t.get fd with
    | none =>
      have hsame : (syncInterest lazily ctl fd t).2 = t := by rw [syncInterest, hget]
      rw [hsame]
      exact .quiet (fun _ h => ⟨h, fun _ => .refl⟩) t.ctls
    | some e =>
      refine (syncInterest_logs hget lazily ctl).mono fun k k' hsync hk => ?_
      obtain ⟨hproper, hothers, hsynced⟩ := hsync hk
      refine ⟨hproper, fun fd' => ?_⟩
      by_cases hfd : fd' = fd
      · rw [hfd, hget]
        exact .single (.synced hsynced)
      · rw [syncInterest_get lazily ctl t hfd, hothers fd' hfd]
        exact .refl

theorem FdTable.get_forget (t : FdTable) (fd fd' : RawFd) :
    (t.forget fd).get fd' = if fd' = fd then none else t.get fd' := by
  rw [← get_remove]
  unfold forget
  split <;> rfl

theorem Waning.forget (t : FdTable) (fd : RawFd) : Waning t (t.forget fd) where
  marked h := h.forget fd
  parked fd' w id hid := by
    rw [FdTable.parked_forget] at hid
    split at hid
    · cases hid
    · exact hid
  idle fd' w hidle e' he' := by
    rw [FdTable.get_forget] at he'
    split at he'
    · cases he'
    · exact hidle e' he'
  wanes := by
    have hstep : ∀ (k k' : Kernel), (∀ fd', fd' ≠ fd → k'.mask fd' = k.mask fd') →
        (∀ e, t.get fd = some e → k'.mask fd = none ∨ e.registered = false ∧ k'.mask fd = k.mask fd) →
        (t.get fd = none → k'.mask fd = k.mask fd) →
        ∀ fd', Wanes (t.get fd', k.mask fd') ((t.forget fd).get fd', k'.mask fd') := by
      intro k k' hothers hsome hnone fd'
      rw [t.get_forget]
      by_cases hfd : fd' = fd
      · rw [if_pos hfd, hfd]
        cases hget : t.get fd with
        | none =>
          rw [hnone hget]
          exact .refl
        | some e => exact .single (.forgotten (hsome e hget))
      · rw [if_neg hfd, hothers fd' hfd]
        exact .refl
    by_cases hregistered : (t.get fd).any (·.registered) = true
    · have hlog : (t.forget fd).ctls = t.ctls ++ [.forget fd] := by
        rw [FdTable.forget, if_pos hregistered, FdTable.called, FdTable.remove_ctls]
      refine ⟨[.forget fd], hlog, fun k k' hk h => ?_⟩
      have hcalled := Kernel.ctl_forget h (replay_one hk)
      refine ⟨hcalled.proper, hstep k k' hcalled.others (fun e _ => .inl hcalled.mask) fun hget => ?_⟩
      rw [hget] at hregistered
      cases hregistered
    · have hlog : (t.forget fd).ctls = t.ctls := by
        rw [FdTable.forget, if_neg hregistered, FdTable.remove_ctls]
      rw [hlog]
      refine .quiet (fun k h => ⟨h, hstep k k (fun _ _ => rfl) (fun e hget => ?_) fun _ => rfl⟩) t.ctls
      rw [hget] at hregistered
      exact .inr ⟨by simpa using hregistered, rfl⟩

variable {s s' : EpollBackend} {id : OpId} {fd : RawFd}

theorem fewer_setOp (e : FdEntry) (w : Bool) : Fewer e (e.setOp w none) := by
  refine ⟨fun w' => ?_, ?_, ?_, ?_, ?_⟩
  · rw [FdEntry.op_setOp]
    split
    · exact .inr rfl
    · exact .inl rfl
  all_goals cases w <;> rfl

/-- Off its side, and the mask left if it covers the rest. -/
theorem Waning.unpark {t : FdTable} {e : FdEntry} (hget : t.get fd = some e) (w : Bool) (ctl : Ctl) :
    Waning t (syncInterest true ctl fd (t.put fd (e.setOp w none))).2 :=
  (Waning.put hget (fewer_setOp e w)).trans (.sync true ctl fd _)

theorem cancel_waning (ctl : Ctl) (op : OpId) (s : EpollBackend) : Waning s.fds (cancel ctl op s).fds := by
  unfold cancel
  split
  · exact .refl s.fds
  extract_lets t
  split
  · exact .refl s.fds
  rename_i slot hget
  extract_lets t₁ t₂
  have hunparked : Waning s.fds t₁.fds := by
    dsimp only [t₁]
    split
    · exact .refl s.fds
    split
    · exact .refl s.fds
    · rename_i entry hentry
      split
      · exact .unpark hentry slot.data.pending.writeSide ctl
      · exact .refl s.fds
  show Waning s.fds t₂.fds
  dsimp only [t₂]
  split
  · rw [closeAccepted_fds]
    exact hunparked
  · exact hunparked

theorem detachSocket_waning (fd : RawFd) (s : EpollBackend) : Waning s.fds (detachSocket fd s).fds := by
  unfold detachSocket
  split
  · exact .refl s.fds
  · rw [abandon_fds]
    exact .forget s.fds fd

theorem driveSide_waning (answer : Answer) (ctl : Ctl) (fd : RawFd) (w : Bool) (s : EpollBackend) :
    Waning s.fds (driveSide answer ctl fd w s).2.fds := by
  unfold driveSide
  split
  · exact .refl s.fds
  rename_i id hid
  extract_lets recvLen
  have htable := attempt_fds answer id s
  rcases hresult : attempt answer id s with ⟨outcome, s₁⟩
  rw [hresult] at htable
  dsimp only at htable
  rw [← htable]
  cases outcome with
  | none => exact .refl s₁.fds
  | some result =>
    dsimp -zeta only
    extract_lets fds t kind ended tail
    have hfds : Waning s₁.fds fds := by
      dsimp only [fds]
      split
      · exact .refl s₁.fds
      · rename_i entry hentry
        apply Waning.put hentry
        have hfewer := fewer_setOp entry w
        clear_value recvLen
        cases recvLen with
        | none => exact hfewer
        | some len => exact ⟨hfewer.ops, hfewer.watchR, hfewer.watchW, hfewer.registered, hfewer.kernel⟩
    have hended : Waning s₁.fds ended.fds := hfds.trans (.sync true ctl fd fds)
    have hrecycled : Waning s₁.fds (release id ended).fds := hended
    show Waning s₁.fds tail.fds
    dsimp only [tail]
    clear_value kind ended
    split
    · split
      · exact hended
      · exact hrecycled
    · split
      · exact hended
      · exact hrecycled
    · exact hrecycled

theorem driveReady_waning (ready : Bool) (answer : Answer) (ctl : Ctl) (fd : RawFd) (w : Bool)
    (s : EpollBackend) : Waning s.fds (driveReady ready answer ctl fd w s).2.fds := by
  unfold driveReady
  split
  · exact driveSide_waning answer ctl fd w s
  · exact .refl s.fds

/-- The backend after both sides of an event were tried. -/
def driven (fd : RawFd) (readReady writeReady : Bool) (read write : Answer) (readCtl writeCtl : Ctl)
    (s : EpollBackend) : EpollBackend :=
  (driveReady writeReady write writeCtl fd true (driveReady readReady read readCtl fd false s).2).2

theorem driven_waning (fd : RawFd) (readReady writeReady : Bool) (read write : Answer)
    (readCtl writeCtl : Ctl) (s : EpollBackend) :
    Waning s.fds (driven fd readReady writeReady read write readCtl writeCtl s).fds :=
  (driveReady_waning readReady read readCtl fd false s).trans
    (driveReady_waning writeReady write writeCtl fd true _)

theorem driveReady_unused (ready : Bool) (answer : Answer) (ctl : Ctl) {w : Bool}
    (hidle : Idle w (s.fds.get fd)) : (driveReady ready answer ctl fd w s).1 = false := by
  unfold driveReady
  split
  · have hnone : (s.fds.get fd).bind (·.op w) = none := by
      cases hget : s.fds.get fd with
      | none => rfl
      | some e =>
        have hside := hidle e hget
        rw [FdEntry.side_interest, Bool.or_eq_false_iff] at hside
        show e.op w = none
        simpa using hside.1
    unfold driveSide
    rw [hnone]
  · rfl

theorem unwatched_of_idle {w : Bool} {entry : Option FdEntry} (hidle : Idle w entry) :
    entry.any (fun e => e.watches.side w) = false := by
  cases entry with
  | none => rfl
  | some e =>
    have hside := hidle e rfl
    rw [FdEntry.side_interest, Bool.or_eq_false_iff] at hside
    exact hside.2

/-- After the sides are tried the registration is settled, if one of them fired for nobody. -/
theorem handle_fds (fd : RawFd) (readReady writeReady : Bool) (read write : Answer)
    (readCtl writeCtl tail : Ctl) (s : EpollBackend) :
    ∃ stale : Bool, (handle s (.fd fd readReady writeReady read write readCtl writeCtl tail)).fds =
        (if stale then (syncInterest false tail fd (driven fd readReady writeReady read write readCtl
          writeCtl s).fds).2 else (driven fd readReady writeReady read write readCtl writeCtl s).fds) ∧
      ∀ w, (if w then writeReady else readReady) = true → Idle w (s.fds.get fd) → stale = true := by
  have hread := driveReady_waning readReady read readCtl fd false s
  refine ⟨(readReady && !((driveReady readReady read readCtl fd false s).1 ||
      ((driven fd readReady writeReady read write readCtl writeCtl s).fds.get fd).any (·.watchR) && readReady)) ||
    (writeReady && !((driveReady writeReady write writeCtl fd true
        (driveReady readReady read readCtl fd false s).2).1 ||
      ((driven fd readReady writeReady read write readCtl writeCtl s).fds.get fd).any (·.watchW) && writeReady)),
    ?_, fun w hfired hidle => ?_⟩
  · show (let r := driveReady readReady read readCtl fd false s
      let w := driveReady writeReady write writeCtl fd true r.2
      let s := w.2
      let wr := (s.fds.get fd).any (·.watchR) && readReady
      let ww := (s.fds.get fd).any (·.watchW) && writeReady
      let s := if wr || ww then { s with delivered := s.delivered ++ [.ready fd wr ww] } else s
      if (readReady && !(r.1 || wr)) || (writeReady && !(w.1 || ww)) then
        { s with fds := (syncInterest false tail fd s.fds).2 }
      else s).fds = _
    extract_lets r w t wr ww watched
    have hwatched : watched.fds = t.fds := by
      dsimp only [watched]
      split <;> rfl
    have hboth : ∀ stale : Bool,
        (if stale then { watched with fds := (syncInterest false tail fd watched.fds).2 } else watched).fds =
          if stale then (syncInterest false tail fd t.fds).2 else t.fds := by
      intro stale
      cases stale
      · exact hwatched
      · show (syncInterest false tail fd watched.fds).2 = (syncInterest false tail fd t.fds).2
        rw [hwatched]
    exact hboth _
  · have hunwatched := unwatched_of_idle
      ((driven_waning fd readReady writeReady read write readCtl writeCtl s).idle fd w hidle)
    cases w with
    | false =>
      have hfired : readReady = true := hfired
      have hunused := driveReady_unused readReady read readCtl hidle
      rw [hunused, hfired]
      have hwatch : ((driven fd true writeReady read write readCtl writeCtl s).fds.get fd).any (·.watchR) = false :=
        hfired ▸ hunwatched
      rw [hwatch]
      rfl
    | true =>
      have hfired : writeReady = true := hfired
      have hunused := driveReady_unused writeReady write writeCtl (hread.idle fd true hidle)
      rw [hunused, hfired]
      have hwatch : ((driven fd readReady true read write readCtl writeCtl s).fds.get fd).any (·.watchW) = false :=
        hfired ▸ hunwatched
      rw [hwatch]
      simp

theorem handle_waning (s : EpollBackend) (ev : Event) : Waning s.fds (handle s ev).fds := by
  cases ev with
  | wake => exact .refl s.fds
  | fd fd readReady writeReady read write readCtl writeCtl tail =>
    obtain ⟨stale, hfds, -⟩ := handle_fds fd readReady writeReady read write readCtl writeCtl tail s
    rw [hfds]
    apply (driven_waning fd readReady writeReady read write readCtl writeCtl s).trans
    split
    · exact .sync false tail fd _
    · exact .refl _

theorem handleAll_waning (es : List Event) (s : EpollBackend) : Waning s.fds (es.foldl handle s).fds := by
  induction es generalizing s with
  | nil => exact .refl s.fds
  | cons e es ih => exact (handle_waning s e).trans (ih (handle s e))

theorem poll_waning (timeout : Nat) (wait : Wait) (s : EpollBackend) :
    Waning s.fds (poll timeout wait s).fds := by
  unfold poll
  extract_lets timeout t
  split
  · exact .refl s.fds
  · split
    · exact handleAll_waning _ t
    · exact .refl s.fds
    · exact .refl s.fds

theorem takeAcceptSocket_fds (op : OpId) (s : EpollBackend) : (takeAcceptSocket op s).2.fds = s.fds := by
  unfold takeAcceptSocket
  split <;> rfl

theorem takeRecvFromAddr_fds (op : OpId) (s : EpollBackend) : (takeRecvFromAddr op s).2.fds = s.fds := by
  unfold takeRecvFromAddr
  split <;> rfl

def Input.watches : Input → Bool
  | .setWatch _ _ _ _ => true
  | _ => false

theorem call_waning {i : Input} (hpost : post s i = none) (hwatch : i.watches = false) :
    Waning s.fds (step s i).fds := by
  unfold step
  rw [hpost]
  cases i with
  | registerSocket fd => exact .forget s.fds fd
  | cancel ctl op => exact cancel_waning ctl op s
  | detachSocket fd => exact detachSocket_waning fd s
  | setWatch ctl fd readable writable => cases hwatch
  | takeStaged => exact .refl s.fds
  | poll timeout wait => exact poll_waning timeout wait s
  | takeAcceptSocket op =>
    show Waning s.fds (takeAcceptSocket op s).2.fds
    rw [takeAcceptSocket_fds]
    exact .refl s.fds
  | takeRecvFromAddr op =>
    show Waning s.fds (takeRecvFromAddr op s).2.fds
    rw [takeRecvFromAddr_fds]
    exact .refl s.fds
  | wake => exact .refl s.fds
  | _ => cases hpost

/-! ## 3. Events without a consumer -/

theorem Synced.off {recycled w : Bool} {e : FdEntry} {m m' : Option Mask} {entry' : Option FdEntry}
    {error : Option Errno} (h : Synced false e m entry' m' error) (hregistered : Registered recycled (some e) m)
    (hidle : e.interest.side w = false) : Off w entry' m' := by
  cases h with
  | kept hkept =>
    refine ⟨fun e₁ he => ?_, fun m₁ hm => ?_⟩
    · injection he with he
      exact he ▸ hidle
    · rw [← (hregistered.ready false).kept hkept hm]
      rcases hkept with heq | ⟨hlazy, -⟩
      · rw [← heq]
        exact hidle
      · cases hlazy
  | dropped _ m₁ hm =>
    refine ⟨fun e₁ he => (by cases he), fun m₂ hm₂ => ?_⟩
    rcases hm with hnone | ⟨hunreg, hsame⟩
    · rw [hnone] at hm₂
      cases hm₂
    · obtain ⟨e₁, he, hreg, -⟩ := hregistered.known m₂ (hsame ▸ hm₂)
      injection he with he
      rw [← he, hunreg] at hreg
      cases hreg
  | armed _ =>
    refine ⟨fun e₁ he => ?_, fun m₁ hm => ?_⟩
    · injection he with he
      exact he ▸ hidle
    · injection hm with hm
      exact hm ▸ hidle
  | refused _ _ =>
    refine ⟨fun e₁ he => ?_, fun m₁ hm => (by cases hm)⟩
    injection he with he
    exact he ▸ hidle
  | closed _ =>
    refine ⟨fun e₁ he => ?_, fun m₁ hm => (by cases hm)⟩
    injection he with he
    exact he ▸ hidle

/-- When a side fires for nobody, every idle side is disarmed. -/
theorem handle_off (recycled operated : Bool) {w w' readReady writeReady : Bool} (read write : Answer)
    (readCtl writeCtl tail : Ctl) (hfired : (if w then writeReady else readReady) = true)
    (hidle : Idle w (s.fds.get fd)) (hidle' : Idle w' (s.fds.get fd)) :
    Logs Kernel.ctl (fun k k' => k.Proper → Tied recycled operated (s.fds.get fd) (k.mask fd) →
        k'.Proper ∧ Off w' ((handle s (.fd fd readReady writeReady read write readCtl writeCtl tail)).fds.get fd)
          (k'.mask fd))
      s.fds.ctls (handle s (.fd fd readReady writeReady read write readCtl writeCtl tail)).fds.ctls := by
  obtain ⟨stale, hfds, hstale⟩ := handle_fds fd readReady writeReady read write readCtl writeCtl tail s
  have hdriven := driven_waning fd readReady writeReady read write readCtl writeCtl s
  have hstill := hdriven.idle fd w' hidle'
  rw [hfds, if_pos (hstale w hfired hidle)]
  generalize (driven fd readReady writeReady read write readCtl writeCtl s).fds = t at hdriven hstill ⊢
  cases hget : t.get fd with
  | none =>
    have hsame : (syncInterest false tail fd t).2 = t := by rw [syncInterest, hget]
    rw [hsame]
    refine hdriven.wanes.mono fun k k' hwanes hk htied => ?_
    obtain ⟨hproper, hall⟩ := hwanes hk
    have hgone := (hall fd).tied htied
    rw [hget] at hgone
    refine ⟨hproper, ⟨hstill, fun m hm => ?_⟩⟩
    have hnone : k'.mask fd = none := (hgone.absent recycled operated).1
    rw [hnone] at hm
    cases hm
  | some e =>
    refine hdriven.wanes.comp (syncInterest_logs hget false tail) fun k k' k'' hwanes hsync hk htied => ?_
    obtain ⟨hproper, hall⟩ := hwanes hk
    obtain ⟨hproper', -, hsynced⟩ := hsync hproper
    have hbefore := (hall fd).tied htied
    rw [hget] at hbefore
    exact ⟨hproper', hsynced.off hbefore.registered (hstill e hget)⟩

theorem FdTable.Marked.get_of_isEmpty {t : FdTable} (h : t.Marked) (hempty : t.isEmpty = true) (fd : RawFd) :
    t.get fd = none := by
  cases hget : t.get fd with
  | none => rfl
  | some e =>
    obtain ⟨fds, hmem, hlive⟩ := h.counted
    have hin : fd ∈ fds := (hmem fd).mpr (Option.isSome_of_eq_some hget)
    have hpos : 0 < fds.card := Finset.card_pos.mpr ⟨fd, hin⟩
    unfold FdTable.isEmpty at hempty
    simp only [decide_eq_true_iff] at hempty
    omega

/-- And it stays out of the mask to the end of the poll. -/
theorem poll_off (recycled operated : Bool) {w w' readReady writeReady : Bool} (hmarked : s.fds.Marked) (timeout : Nat)
    (es later : List Event) (read write : Answer) (readCtl writeCtl tail : Ctl)
    (hfired : (if w then writeReady else readReady) = true)
    (hidle : Idle w ((es.foldl handle (takeStaged s)).fds.get fd))
    (hidle' : Idle w' ((es.foldl handle (takeStaged s)).fds.get fd)) :
    Logs Kernel.ctl (fun k k' => k.Proper → Tied recycled operated (s.fds.get fd) (k.mask fd) →
        Off w' ((poll timeout (.events
          (es ++ .fd fd readReady writeReady read write readCtl writeCtl tail :: later)) s).fds.get fd)
          (k'.mask fd))
      s.fds.ctls (poll timeout (.events
        (es ++ .fd fd readReady writeReady read write readCtl writeCtl tail :: later)) s).fds.ctls := by
  unfold poll
  extract_lets timeout t
  split
  · rename_i hskipped
    refine .quiet (fun k _ htied => ?_) _
    have hnone : s.fds.get fd = none := hmarked.get_of_isEmpty hskipped.2.1 fd
    have hgone : (takeStaged s).fds.get fd = none := hnone
    rw [hnone] at htied
    refine ⟨fun e he => ?_, fun m hm => ?_⟩
    · rw [hgone] at he
      cases he
    · rw [(htied.absent recycled operated).1] at hm
      cases hm
  · show Logs Kernel.ctl (fun k k' => k.Proper → Tied recycled operated (t.fds.get fd) (k.mask fd) →
        Off w' ((List.foldl handle t
          (es ++ .fd fd readReady writeReady read write readCtl writeCtl tail :: later)).fds.get fd) (k'.mask fd))
      t.fds.ctls (List.foldl handle t
        (es ++ .fd fd readReady writeReady read write readCtl writeCtl tail :: later)).fds.ctls
    rw [List.foldl_append, List.foldl_cons]
    have hbefore := handleAll_waning es t
    have hoff := handle_off recycled operated read write readCtl writeCtl tail hfired hidle hidle'
    have hafter := handleAll_waning later
      (handle (es.foldl handle t) (.fd fd readReady writeReady read write readCtl writeCtl tail))
    generalize (handle (es.foldl handle t)
      (.fd fd readReady writeReady read write readCtl writeCtl tail)) = handled at hoff hafter ⊢
    have hmid : Logs Kernel.ctl (fun k k' => k.Proper → Tied recycled operated (t.fds.get fd) (k.mask fd) →
        k'.Proper ∧ Off w' (handled.fds.get fd) (k'.mask fd)) t.fds.ctls handled.fds.ctls := by
      refine hbefore.wanes.comp hoff fun k k' k'' hwanes hoff hk htied => ?_
      obtain ⟨hproper, hall⟩ := hwanes hk
      exact hoff hproper ((hall fd).tied htied)
    refine hmid.comp hafter.wanes fun k k' k'' hmid hwanes hk htied => ?_
    obtain ⟨hproper, hoff⟩ := hmid hk htied
    exact ((hwanes hproper).2 fd).off hoff

/-! ## 4. Watches -/

/-- The entry that `set_watch` has synced. -/
def FdEntry.watch (e : FdEntry) (readable writable : Bool) : FdEntry :=
  { e with
    kernel := if readable ∧ e.watchR ∨ writable ∧ e.watchW then .none else e.kernel
    watchR := readable
    watchW := writable }

/-- What `set_watch` makes of the entry that its sync left. -/
def Restored (e : FdEntry) (error : Option Errno) (synced entry' : Option FdEntry) : Prop :=
  error = none ∧ entry' = synced ∨
    error ≠ none ∧ ∀ e', synced = some e' →
      entry' = some { e' with watchR := e.watchR, watchW := e.watchW } ∨ entry' = none

/-- The numbers given to other files are watched, with nothing parked on them; or they have had no
operation, and then no mask is kept on them. -/
def Watchable (operated : Bool) (e : FdEntry) : Prop :=
  operated = false ∨ (e.watchR || e.watchW) = true ∧ e.readOp = none ∧ e.writeOp = none

section Watch

variable {recycled operated readable writable : Bool} {e : FdEntry} {m m' : Option Mask}
  {synced entry' : Option FdEntry} {error : Option Errno}

theorem FdEntry.watch_eager (hwanted : (readable || writable) = true) :
    (e.watch readable writable).interest ≠ .none := by
  intro hidle
  have hr : (e.watch readable writable).interest.side false = false := by rw [hidle, Mask.side_none]
  have hw : (e.watch readable writable).interest.side true = false := by rw [hidle, Mask.side_none]
  rw [FdEntry.side_interest, Bool.or_eq_false_iff] at hr hw
  have hreadable : readable = false := hr.2
  have hwritable : writable = false := hw.2
  rw [hreadable, hwritable] at hwanted
  cases hwanted

theorem watch_ready (h : Registered recycled (some e) m) :
    Ready recycled false (e.watch readable writable) m where
  known m' hm := by
    obtain ⟨e₁, he, hreg, hkernel⟩ := h.known m' hm
    injection he with he
    subst he
    refine ⟨hreg, ?_⟩
    by_cases hagain : readable = true ∧ e.watchR = true ∨ writable = true ∧ e.watchW = true
    · refine .inr ⟨rfl, if_pos hagain, FdEntry.watch_eager ?_⟩
      rcases hagain with ⟨hr, -⟩ | ⟨hw, -⟩
      · rw [hr, Bool.true_or]
      · rw [hw, Bool.or_true]
    · exact .inl ((if_neg hagain).trans hkernel)
  there hrecycled hreg := by
    rw [h.there hrecycled e rfl hreg]
    simp
  unregistered hunreg := by
    show (if readable = true ∧ e.watchR = true ∨ writable = true ∧ e.watchW = true then Mask.none
      else e.kernel) = .none
    split
    · rfl
    · exact h.unregistered e rfl hunreg
  events := h.events

/-- **A mask left by another file is not trusted**: either a watch is made again, which forces the call,
or the mask wanted is another. -/
theorem watch_untrusted (hmasked : Masked operated e) (hwatchable : Watchable operated e)
    (hneeded : (e.watch readable writable).interest ≠ .none) :
    (e.watch readable writable).interest ≠ (e.watch readable writable).kernel := by
  intro hsame
  have hplain : e.readOp = none ∧ e.writeOp = none := by
    rcases hwatchable with hplain | ⟨-, hr, hw⟩
    · obtain ⟨hr, hw, -⟩ := hmasked.plain hplain
      exact ⟨hr, hw⟩
    · exact ⟨hr, hw⟩
  have hinterest : (e.watch readable writable).interest = ⟨readable, writable⟩ :=
    @FdEntry.interest_of_plain (e.watch readable writable) hplain.1 hplain.2
  by_cases hagain : readable = true ∧ e.watchR = true ∨ writable = true ∧ e.watchW = true
  · have hkernel : (e.watch readable writable).kernel = .none := if_pos hagain
    exact hneeded (hsame.trans hkernel)
  · have hkernel : (e.watch readable writable).kernel = e.kernel := if_neg hagain
    rw [hkernel, hinterest] at hsame
    have hthere : e.kernel ≠ .none := by
      rw [← hsame, ← hinterest]
      exact hneeded
    have hwatched := hmasked.watched hthere
    rw [← hsame] at hwatched
    -- a side watched before would be watched again
    have hr : e.watchR = false := by
      cases hr : e.watchR with
      | false => rfl
      | true => exact absurd (.inl ⟨Mask.within_iff.mp hwatched false hr, hr⟩) hagain
    have hw : e.watchW = false := by
      cases hw : e.watchW with
      | false => rfl
      | true => exact absurd (.inr ⟨Mask.within_iff.mp hwatched true hw, hw⟩) hagain
    rcases hwatchable with hoff | ⟨hon, -⟩
    · rcases (hmasked.plain hoff).2.2 with hnone | hwatches
      · exact hthere hnone
      · have hnone : e.kernel = .none := by simp [hwatches, FdEntry.watches, hr, hw, Mask.none]
        exact hthere hnone
    · rw [hr, hw] at hon
      cases hon

theorem watch_arms (h : Tied recycled operated (some e) m) (hwatchable : recycled = true → Watchable operated e)
    (hsync : Synced false (e.watch readable writable) m synced m' none) :
    Armed synced m' ∧ Tied recycled operated synced m' ∧
      ((readable || writable) = true → Tied false operated synced m') := by
  have hready : Ready recycled false (e.watch readable writable) m := watch_ready h.registered
  have htrusted : (e.watch readable writable).interest = .none ∨ recycled = false ∨
      ¬ ((e.watch readable writable).interest = (e.watch readable writable).kernel ∨
        false = true ∧ (e.watch readable writable).interest.within (e.watch readable writable).kernel = true) := by
    by_cases hidle : (e.watch readable writable).interest = .none
    · exact .inl hidle
    · cases recycled with
      | false => exact .inr (.inl rfl)
      | true =>
        refine .inr (.inr ?_)
        rintro (hsame | ⟨hlazy, -⟩)
        · exact watch_untrusted (h.masked e rfl) (hwatchable rfl) hidle hsame
        · cases hlazy
  have hmasked : ∀ e', synced = some e' → Masked operated e' := by
    intro e' he
    subst he
    have hplain : operated = false → (e.watch readable writable).interest = (e.watch readable writable).watches := by
      intro hoff
      obtain ⟨hr, hw, -⟩ := (h.masked e rfl).plain hoff
      exact @FdEntry.interest_of_plain (e.watch readable writable) hr hw
    have hops : operated = false → e.readOp = none ∧ e.writeOp = none := by
      intro hoff
      obtain ⟨hr, hw, -⟩ := (h.masked e rfl).plain hoff
      exact ⟨hr, hw⟩
    cases hsync with
    | kept hkept =>
      rcases hkept with hsame | ⟨hlazy, -⟩
      · refine ⟨fun _ => hsame ▸ FdEntry.watches_within _, fun hoff => ⟨(hops hoff).1, (hops hoff).2, .inr ?_⟩⟩
        rw [← hsame]
        exact hplain hoff
      · cases hlazy
    | armed _ =>
      exact ⟨fun _ => FdEntry.watches_within _, fun hoff => ⟨(hops hoff).1, (hops hoff).2, .inr (hplain hoff)⟩⟩
  have hregistered := hsync.registered hready
  refine ⟨hsync.arms hready htrusted, ⟨hregistered, hmasked⟩, fun hwanted => ⟨?_, hmasked⟩⟩
  refine ⟨hregistered.known, fun _ e' he hreg => ?_, hregistered.unregistered, hregistered.events⟩
  cases hsync with
  | kept hkept =>
    rcases htrusted with hidle | hfresh | hnot
    · exact absurd hidle (FdEntry.watch_eager hwanted)
    · exact hregistered.there hfresh e' he hreg
    · exact absurd hkept hnot
  | dropped _ _ _ => cases he
  | armed _ =>
    injection he with he
    subst he
    rfl

/-- The watches of before on an entry that is out of the set: nothing of a registration changes that was
not there. -/
theorem Tied.restored {e' : FdEntry} (h : Tied recycled operated (some e) none) (hr : e'.readOp = e.readOp)
    (hw : e'.writeOp = e.writeOp) (hkernel : e'.kernel = e.kernel ∨ e'.kernel = .none)
    (hregistered : e'.registered = e.registered ∨ e'.registered = false ∧ e'.kernel = .none) :
    Tied recycled operated (some { e' with watchR := e.watchR, watchW := e.watchW }) none := by
  refine ⟨⟨nofun, fun hfresh e₁ he hreg => ?_, fun e₁ he hunreg => ?_, nofun⟩, fun e₁ he => ?_⟩
  all_goals injection he with he
  all_goals subst he
  · rcases hregistered with hsame | ⟨hnot, -⟩
    · have hthere := h.registered.there hfresh e rfl (hsame.symm.trans hreg)
      cases hthere
    · have hreg : e'.registered = true := hreg
      rw [hnot] at hreg
      cases hreg
  · rcases hregistered with hsame | ⟨-, hnone⟩
    · rcases hkernel with hkept | hnone
      · exact hkept.trans (h.registered.unregistered e rfl (hsame.symm.trans hunreg))
      · exact hnone
    · exact hnone
  · refine ⟨fun hthere => ?_, fun hoff => ?_⟩
    · rcases hkernel with hkept | hnone
      · show e.watches.within e'.kernel = true
        rw [hkept]
        exact (h.masked e rfl).watched (hkept ▸ hthere)
      · exact absurd hnone hthere
    · obtain ⟨hro, hwo, hmask⟩ := (h.masked e rfl).plain hoff
      refine ⟨hr.trans hro, hw.trans hwo, ?_⟩
      rcases hkernel with hkept | hnone
      · exact hmask.imp hkept.trans fun hwatches => hkept.trans hwatches
      · exact .inl hnone

theorem watch_fails {e₀ : Errno} (h : Tied recycled operated (some e) m)
    (hsync : Synced false (e.watch readable writable) m synced m' (some e₀))
    (hrestored : Restored e (some e₀) synced entry') : Tied recycled operated entry' m' := by
  obtain ⟨hout, hout'⟩ := hsync.failed
  have hentries := (hrestored.resolve_left fun hok => by cases hok.1).2
  clear hrestored
  subst hout hout'
  have hgone : Tied recycled operated none none :=
    ⟨⟨nofun, fun _ e₁ he => (by cases he), fun e₁ he => (by cases he), nofun⟩, fun e₁ he => (by cases he)⟩
  cases hsync with
  | refused _ _ =>
    rcases hentries _ rfl with hentry | hentry
    · rw [hentry]
      refine @Tied.restored _ _ e (e.watch readable writable) h rfl rfl ?_ (.inl rfl)
      show (if readable = true ∧ e.watchR = true ∨ writable = true ∧ e.watchW = true then Mask.none
        else e.kernel) = e.kernel ∨ (if readable = true ∧ e.watchR = true ∨ writable = true ∧ e.watchW = true
          then Mask.none else e.kernel) = .none
      split
      · exact .inr rfl
      · exact .inl rfl
    · rw [hentry]
      exact hgone
  | closed _ =>
    rcases hentries _ rfl with hentry | hentry
    · rw [hentry]
      exact h.restored rfl rfl (.inr rfl) (.inr ⟨rfl, rfl⟩)
    · rw [hentry]
      exact hgone

end Watch

/-- The table with the entry for `fd` watched, before the sync. -/
def watchedTable (fd : RawFd) (readable writable : Bool) (t : FdTable) : FdTable :=
  (t.entry fd).2.put fd ((t.entry fd).1.watch readable writable)

/-- What `set_watch` does with its sync. -/
theorem setWatch_eq (ctl : Ctl) {readable writable : Bool} (s : EpollBackend)
    (hnot : ¬ (¬ readable = true ∧ ¬ writable = true ∧ (s.fds.get fd).isNone = true)) :
    let sync := syncInterest false ctl fd (watchedTable fd readable writable s.fds)
    let back := fun e' : FdEntry => sync.2.put fd
      { e' with watchR := (s.fds.entry fd).1.watchR, watchW := (s.fds.entry fd).1.watchW }
    setWatchError ctl fd readable writable s = sync.1 ∧
      (sync.1 = none ∨ sync.2.get fd = none → (setWatch ctl fd readable writable s).fds = sync.2) ∧
      (sync.1 ≠ none → ∀ e', sync.2.get fd = some e' →
        (setWatch ctl fd readable writable s).fds = back e' ∨
          (setWatch ctl fd readable writable s).fds = (back e').remove fd) := by
  intro sync back
  have hsync : syncInterest false ctl fd ((s.fds.entry fd).2.put fd
      { (s.fds.entry fd).1 with
        kernel := if readable = true ∧ (s.fds.entry fd).1.watchR = true ∨
            writable = true ∧ (s.fds.entry fd).1.watchW = true then .none else (s.fds.entry fd).1.kernel
        watchR := readable
        watchW := writable }) = sync := rfl
  unfold setWatchError setWatch
  rw [if_neg hnot, if_neg hnot]
  dsimp only
  rw [hsync]
  dsimp only [back]
  clear_value sync
  clear hsync
  obtain ⟨error, t⟩ := sync
  refine ⟨rfl, fun hok => ?_, fun hfailed e' he' => ?_⟩
  · cases error with
    | none => rfl
    | some e₀ =>
      have hnone : t.get fd = none := hok.resolve_left fun hnone => by cases hnone
      dsimp only
      rw [hnone]
  · cases error with
    | none => exact absurd rfl hfailed
    | some e₀ =>
      have he' : t.get fd = some e' := he'
      dsimp only
      rw [he']
      dsimp only
      split
      · exact .inr rfl
      · exact .inl rfl

/-- What `set_watch` does to its descriptor; the others are left alone. -/
theorem setWatch_at (ctl : Ctl) {readable writable : Bool} (s : EpollBackend)
    (hnot : ¬ (¬ readable = true ∧ ¬ writable = true ∧ (s.fds.get fd).isNone = true)) :
    (s.fds.Marked → (setWatch ctl fd readable writable s).fds.Marked) ∧
      (∀ fd', fd' ≠ fd → (setWatch ctl fd readable writable s).fds.get fd' = s.fds.get fd') ∧
      Logs Kernel.ctl (fun k k' => k.Proper → k'.Proper ∧ (∀ fd', fd' ≠ fd → k'.mask fd' = k.mask fd') ∧
        ∃ synced, Synced false ((s.fds.entry fd).1.watch readable writable) (k.mask fd) synced (k'.mask fd)
            (setWatchError ctl fd readable writable s) ∧
          Restored (s.fds.entry fd).1 (setWatchError ctl fd readable writable s) synced
            ((setWatch ctl fd readable writable s).fds.get fd))
        s.fds.ctls (setWatch ctl fd readable writable s).fds.ctls := by
  obtain ⟨herror, hkept, hback⟩ := setWatch_eq ctl s hnot
  have hmade : (s.fds.entry fd).2.get fd = some (s.fds.entry fd).1 := (FdTable.entry_spec s.fds fd).1
  have hwatched : (watchedTable fd readable writable s.fds).get fd =
      some ((s.fds.entry fd).1.watch readable writable) := by
    rw [watchedTable, FdTable.get_put, if_pos rfl]
  have hctls : (watchedTable fd readable writable s.fds).ctls = s.fds.ctls := s.fds.entry_ctls fd
  have hlogs := syncInterest_logs hwatched false ctl
  rw [hctls] at hlogs
  have hothers : ∀ fd', fd' ≠ fd →
      (syncInterest false ctl fd (watchedTable fd readable writable s.fds)).2.get fd' = s.fds.get fd' := by
    intro fd' hne
    rw [syncInterest_get false ctl _ hne, watchedTable, FdTable.get_put, if_neg hne, FdTable.entry_get, if_neg hne]
  have hmarked : s.fds.Marked →
      (syncInterest false ctl fd (watchedTable fd readable writable s.fds)).2.Marked := by
    intro h
    exact ((h.entry fd).put hmade _).sync false ctl fd
  rw [herror]
  generalize syncInterest false ctl fd (watchedTable fd readable writable s.fds) = sync at *
  generalize (setWatch ctl fd readable writable s).fds = t' at *
  dsimp only at hkept hback
  by_cases hok : sync.1 = none
  · rw [hkept (.inl hok)]
    refine ⟨hmarked, hothers, hlogs.mono fun k k' hsync hk => ?_⟩
    obtain ⟨hproper, hrest, hsynced⟩ := hsync hk
    exact ⟨hproper, hrest, _, hsynced, .inl ⟨hok, rfl⟩⟩
  cases hget : sync.2.get fd with
  | none =>
    rw [hkept (.inr hget)]
    refine ⟨hmarked, hothers, hlogs.mono fun k k' hsync hk => ?_⟩
    obtain ⟨hproper, hrest, hsynced⟩ := hsync hk
    exact ⟨hproper, hrest, _, hsynced, .inr ⟨hok, fun e' he' => (by rw [hget] at he'; cases he')⟩⟩
  | some e' =>
    have hafter : (s.fds.Marked → t'.Marked) ∧ (∀ fd', fd' ≠ fd → t'.get fd' = s.fds.get fd') ∧
        t'.ctls = sync.2.ctls ∧
        (t'.get fd = some { e' with watchR := (s.fds.entry fd).1.watchR, watchW := (s.fds.entry fd).1.watchW } ∨
          t'.get fd = none) := by
      rcases hback hok e' hget with rfl | rfl
      · refine ⟨fun h => (hmarked h).put hget _, fun fd' hne => ?_, rfl, .inl ?_⟩
        · rw [FdTable.get_put, if_neg hne]
          exact hothers fd' hne
        · rw [FdTable.get_put, if_pos rfl]
      · refine ⟨fun h => ((hmarked h).put hget _).remove fd, fun fd' hne => ?_, ?_, .inr ?_⟩
        · rw [FdTable.get_remove, if_neg hne, FdTable.get_put, if_neg hne]
          exact hothers fd' hne
        · rw [FdTable.remove_ctls]
          rfl
        · rw [FdTable.get_remove, if_pos rfl]
    obtain ⟨hmarked', hothers', hctls', hentry⟩ := hafter
    refine ⟨hmarked', hothers', hctls' ▸ hlogs.mono fun k k' hsync hk => ?_⟩
    obtain ⟨hproper, hrest, hsynced⟩ := hsync hk
    refine ⟨hproper, hrest, _, hsynced, .inr ⟨hok, fun e'' he'' => ?_⟩⟩
    rw [hget] at he''
    injection he'' with he''
    exact he'' ▸ hentry

/-! ## 5. Posts -/

/-- The sync of a park. -/
def parkSync (ctl : Ctl) (fd : RawFd) (w : Bool) (id : OpId) (t : FdTable) : Option Errno × FdTable :=
  syncInterest false ctl fd ((t.entry fd).2.put fd ((t.entry fd).1.setOp w (some id)))

/-- What a post makes of the table: no more is wanted, or it has parked on a side that was free. -/
def PostTable (t : FdTable) (fd : RawFd) (r : Except PostError OpId × EpollBackend) : Prop :=
  Waning t r.2.fds ∨ ∃ ctl w id, t.parked fd w = none ∧ r.2.fds = (parkSync ctl fd w id t).2 ∧
    ∀ id', r.1 = .ok id' → (parkSync ctl fd w id t).1 = none

theorem park_table_of (ctl : Ctl) (id : OpId) (fd : RawFd) (w : Bool) (s : EpollBackend) :
    PostTable s.fds fd (park ctl id fd w s) := by
  obtain ⟨hentry, hsame⟩ := FdTable.entry_spec s.fds fd
  unfold park
  extract_lets r t sync t'
  split
  · exact .inl (.entry s.fds fd)
  · rename_i hidle
    have hfree : s.fds.parked fd w = none := by
      rw [← hsame, FdTable.parked_of_get hentry]
      simpa using hidle
    refine .inr ⟨ctl, w, id, hfree, ?_⟩
    split
    · rename_i hok
      exact ⟨rfl, fun _ _ => hok⟩
    · exact ⟨rfl, fun id' hok => by cases hok⟩

theorem post_table {i : Input} {r : Except PostError OpId × EpollBackend} (h : post s i = some r) :
    ∃ socket, i.socket = some socket ∧ PostTable s.fds socket r := by
  obtain ⟨socket, hsocket, hending⟩ := post_ending h
  refine ⟨socket, hsocket, ?_⟩
  cases hending with
  | same hsame =>
    left
    rw [hsame]
    exact .refl s.fds
  | marked drained hmarked =>
    left
    rw [hmarked]
    -- the entry says whether the socket was drained
    have hmade := (FdTable.entry_spec s.fds socket).1
    exact (Waning.entry s.fds socket).trans (.put hmade ⟨fun w => .inl (by cases w <;> rfl), rfl, rfl, rfl, rfl⟩)
  | parked ctl id w s' hs hparked =>
    rw [hparked, ← hs]
    exact park_table_of ctl id socket w s'

end Cadeloop.Core.Epoll
