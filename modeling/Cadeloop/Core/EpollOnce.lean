import Cadeloop.Core.EpollRuns

/-!
# Every operation completes once

Over whole runs: an id a post returned is parked, or it is in one completion and no more.  The ids
are two 32-bit halves, so the runs are those that recycle no slot 2^32 times.
-/

namespace Cadeloop.Core.Epoll

open Cadeloop.Reasoning
open Ops (OpId OpKind OpState OpSlot)
open EpollBackend

/-! ## 1. Where the table changes -/

/-- `live` is how many entries there are. -/
def FdTable.Counted (t : FdTable) : Prop :=
  ∃ fds : Finset RawFd, (∀ fd, fd ∈ fds ↔ (t.slots fd).isSome = true) ∧ t.live = fds.card

/-- A table that changes at `fd`, if at all. -/
structure FdTable.Local (fd : RawFd) (t t' : FdTable) : Prop where
  counted : t.Counted → t'.Counted
  others : ∀ fd', fd' ≠ fd → ∀ w, t'.parked fd' w = t.parked fd' w

namespace FdTable

variable {t t' : FdTable} {fd : RawFd}

theorem Counted.empty : FdTable.empty.Counted := ⟨∅, fun fd => by simp [FdTable.empty], rfl⟩

/-- What is parked is in an entry. -/
theorem Counted.occupied (h : t.Counted) {w : Bool} {id : OpId} (hid : t.parked fd w = some id) :
    t.isEmpty = false := by
  obtain ⟨fds, hmem, hlive⟩ := h
  obtain ⟨e, he, -⟩ := Option.bind_eq_some_iff.mp hid
  have hin : fd ∈ fds := (hmem fd).mpr (Option.isSome_of_eq_some he)
  have hpos : 0 < fds.card := Finset.card_pos.mpr ⟨fd, hin⟩
  unfold isEmpty
  simp only [decide_eq_false_iff_not]
  omega

theorem Local.refl (fd : RawFd) (t : FdTable) : Local fd t t := ⟨fun h => h, fun _ _ _ => rfl⟩

theorem Local.trans {t'' : FdTable} (h : Local fd t t') (h' : Local fd t' t'') : Local fd t t'' where
  counted ht := h'.counted (h.counted ht)
  others fd' hne w := (h'.others fd' hne w).trans (h.others fd' hne w)

theorem Local.put {entry : FdEntry} (hget : t.get fd = some entry) (e : FdEntry) :
    Local fd t (t.put fd e) where
  counted h := by
    obtain ⟨fds, hmem, hlive⟩ := h
    refine ⟨fds, fun fd' => ?_, hlive⟩
    rw [hmem]
    by_cases hfd : fd' = fd
    · have hslot : t.slots fd = some entry := hget
      simp [FdTable.put, hfd, hslot]
    · simp [FdTable.put, Function.update_of_ne hfd]
  others fd' hne w := by rw [parked_put, if_neg hne]

theorem Local.entry (fd : RawFd) (t : FdTable) : Local fd t (t.entry fd).2 where
  counted h := by
    unfold FdTable.entry
    cases hslot : t.slots fd with
    | some e => exact h
    | none =>
      obtain ⟨fds, hmem, hlive⟩ := h
      have hnot : fd ∉ fds := by
        rw [hmem, hslot]
        simp
      refine ⟨insert fd fds, fun fd' => ?_, ?_⟩
      · rw [Finset.mem_insert, hmem]
        by_cases hfd : fd' = fd
        · simp [FdTable.put, hfd]
        · simp [FdTable.put, hfd]
      · rw [Finset.card_insert_of_notMem hnot, ← hlive]
  others fd' _ w := (entry_spec t fd).2 fd' w

theorem Local.remove (fd : RawFd) (t : FdTable) : Local fd t (t.remove fd) where
  counted h := by
    unfold FdTable.remove
    cases hslot : t.slots fd with
    | none => exact h
    | some e =>
      obtain ⟨fds, hmem, hlive⟩ := h
      have hin : fd ∈ fds := by
        rw [hmem, hslot]
        rfl
      refine ⟨fds.erase fd, fun fd' => ?_, ?_⟩
      · rw [Finset.mem_erase, hmem]
        by_cases hfd : fd' = fd
        · simp [hfd]
        · simp [hfd]
      · rw [Finset.card_erase_of_mem hin, ← hlive]
  others fd' hne w := by rw [parked_remove, if_neg hne]

theorem Local.forget (fd : RawFd) (t : FdTable) : Local fd t (t.forget fd) where
  counted h := by
    unfold FdTable.forget
    split
    · exact (Local.remove fd t).counted h
    · exact (Local.remove fd t).counted h
  others fd' hne w := by rw [parked_forget, if_neg hne]

theorem Local.sync (lazily : Bool) (ctl : Ctl) (fd : RawFd) (t : FdTable) :
    Local fd t (syncInterest lazily ctl fd t).2 := by
  constructor
  · intro h
    unfold syncInterest
    cases hget : t.get fd with
    | none => exact h
    | some entry =>
      have hput : ∀ e, (t.put fd e).Counted := fun e => (Local.put hget e).counted h
      have hremove : (t.remove fd).Counted := (Local.remove fd t).counted h
      dsimp only
      split
      · exact h
      split
      · exact h
      split
      · exact hremove
      split
      · exact hremove
      split
      · exact hput _
      · dsimp only
        split
        · exact hput _
        · exact h
  · intro fd' _ w
    exact syncInterest_parked lazily ctl fd t fd' w

end FdTable

variable {s s' : EpollBackend} {id : OpId} {fd : RawFd}

theorem launch_fds {sys : Sys} {kind : OpKind} {pending : Pending}
    (h : launch sys kind fd pending s = some (id, s')) : s'.fds = s.fds := by
  unfold launch at h
  split at h
  · cases h
  · cases h
    rfl

theorem attempt_fds (answer : Answer) (id : OpId) (s : EpollBackend) :
    (attempt answer id s).2.fds = s.fds := (attempt_frame answer id s).2.1

theorem park_local (ctl : Ctl) (id : OpId) (fd : RawFd) (w : Bool) (s : EpollBackend) :
    FdTable.Local fd s.fds (park ctl id fd w s).2.fds := by
  have hmade := FdTable.Local.entry fd s.fds
  have hentry := (FdTable.entry_spec s.fds fd).1
  unfold park
  dsimp only
  split
  · exact hmade
  · have hsync := (hmade.trans (.put hentry ((s.fds.entry fd).1.setOp w (some id)))).trans
      (.sync false ctl fd _)
    split
    · exact hsync
    · exact hsync

/-- The socket of a post. -/
def Input.socket : Input → Option RawFd
  | .postAccept _ listener => some listener
  | .postRecv _ socket _ _ => some socket
  | .postSend _ socket _ => some socket
  | .postConnect _ socket => some socket
  | .postRecvFrom _ socket _ _ => some socket
  | .postSendTo _ socket _ _ => some socket
  | _ => none

/-- How a post ends for the table: as it was, with the mark of a receive on its entry, or in a park. -/
inductive PostEnding (t : FdTable) (socket : RawFd) (r : Except PostError OpId × EpollBackend) : Prop where
  | same (h : r.2.fds = t)
  | marked (drained : Bool) (h : r.2.fds = (t.entry socket).2.put socket { (t.entry socket).1 with drained })
  | parked (ctl : Ctl) (id : OpId) (w : Bool) (s : EpollBackend) (hs : s.fds = t) (h : r = park ctl id socket w s)

theorem postAccept_ending (sys : Sys) (listener : RawFd) (s : EpollBackend) :
    PostEnding s.fds listener (postAccept sys listener s) := by
  unfold postAccept
  split
  · exact .same rfl
  split
  · exact .same rfl
  · rename_i id s₁ hlaunch
    rw [← launch_fds hlaunch, ← attempt_fds sys.answer id s₁]
    split
    · rename_i bytes s₂ htry
      rw [htry]
      exact .same rfl
    · rename_i bytes err s₂ hnot htry
      rw [htry]
      exact .same rfl
    · rename_i s₂ htry
      rw [htry]
      exact .parked sys.ctl id false s₂ rfl rfl

theorem postWrite_ending (sys : Sys) (kind : OpKind) (socket : RawFd) (pending : Pending)
    (s : EpollBackend) : PostEnding s.fds socket (postWrite sys kind socket pending s) := by
  unfold postWrite
  split
  · exact .same rfl
  · rename_i id s₁ hlaunch
    rw [← launch_fds hlaunch, ← attempt_fds sys.answer id s₁]
    split
    · rename_i bytes err s₂ htry
      rw [htry]
      exact .same rfl
    · rename_i s₂ htry
      rw [htry]
      exact .parked sys.ctl id true s₂ rfl rfl

theorem postRecvFrom_ending (sys : Sys) (socket : RawFd) (buf len : Nat) (s : EpollBackend) :
    PostEnding s.fds socket (postRecvFrom sys socket buf len s) := by
  unfold postRecvFrom
  split
  · exact .same rfl
  · rename_i id s₁ hlaunch
    rw [← launch_fds hlaunch, ← attempt_fds sys.answer id s₁]
    split
    · rename_i bytes err s₂ htry
      rw [htry]
      dsimp only
      split
      · exact .same rfl
      · exact .same rfl
    · rename_i s₂ htry
      rw [htry]
      exact .parked sys.ctl id false s₂ rfl rfl

theorem postConnect_ending (sys : Sys) (socket : RawFd) (s : EpollBackend) :
    PostEnding s.fds socket (postConnect sys socket s) := by
  unfold postConnect
  split
  · exact .same rfl
  · rename_i id s₁ hlaunch
    rw [← launch_fds hlaunch]
    split
    · exact .same rfl
    · exact .same rfl
    · split
      · exact .parked sys.ctl id true s₁ rfl rfl
      · exact .same rfl

theorem postRecv_ending (sys : Sys) (socket : RawFd) (buf len : Nat) (s : EpollBackend) :
    PostEnding s.fds socket (postRecv sys socket buf len s) := by
  unfold postRecv
  split
  · exact .same rfl
  · rename_i id s₁ hlaunch
    rw [← launch_fds hlaunch]
    split
    · exact .parked sys.ctl id false s₁ rfl rfl
    rw [← attempt_fds sys.answer id s₁]
    split
    · rename_i bytes err s₂ htry
      rw [htry]
      dsimp only
      split
      · exact .marked _ rfl
      · exact .same rfl
    · rename_i s₂ htry
      rw [htry]
      exact .parked sys.ctl id false s₂ rfl rfl

theorem post_ending {i : Input} {r : Except PostError OpId × EpollBackend} (h : post s i = some r) :
    ∃ socket, i.socket = some socket ∧ PostEnding s.fds socket r := by
  cases i <;> simp only [post, Option.some.injEq, reduceCtorEq] at h
  case postAccept sys listener =>
    subst h
    exact ⟨listener, rfl, postAccept_ending sys listener s⟩
  case postRecv sys socket buf len =>
    subst h
    exact ⟨socket, rfl, postRecv_ending sys socket buf len s⟩
  case postSend sys socket bufs =>
    subst h
    exact ⟨socket, rfl, postWrite_ending sys .send socket _ s⟩
  case postConnect sys socket =>
    subst h
    exact ⟨socket, rfl, postConnect_ending sys socket s⟩
  case postRecvFrom sys socket buf len =>
    subst h
    exact ⟨socket, rfl, postRecvFrom_ending sys socket buf len s⟩
  case postSendTo sys socket data dst =>
    subst h
    exact ⟨socket, rfl, postWrite_ending sys .sendTo socket _ s⟩

/-- A post changes the table at its socket only. -/
theorem post_local {i : Input} {r : Except PostError OpId × EpollBackend} (h : post s i = some r) :
    ∃ socket, i.socket = some socket ∧ FdTable.Local socket s.fds r.2.fds := by
  obtain ⟨socket, hsocket, hending⟩ := post_ending h
  refine ⟨socket, hsocket, ?_⟩
  cases hending with
  | same hsame =>
    rw [hsame]
    exact .refl socket s.fds
  | marked drained hmarked =>
    rw [hmarked]
    exact (FdTable.Local.entry socket s.fds).trans (.put (FdTable.entry_spec s.fds socket).1 _)
  | parked ctl id w s' hs hparked =>
    rw [hparked, ← hs]
    exact park_local ctl id socket w s'

theorem closeAccepted_fds (id : OpId) (s : EpollBackend) : (closeAccepted id s).fds = s.fds := by
  unfold closeAccepted
  split <;> rfl

theorem cancel_counted (ctl : Ctl) (op : OpId) (h : s.fds.Counted) : (cancel ctl op s).fds.Counted := by
  unfold cancel
  split
  · exact h
  extract_lets t
  split
  · exact h
  rename_i slot hget
  extract_lets t₁ t₂
  have hunparked : t₁.fds.Counted := by
    dsimp only [t₁]
    split
    · exact h
    split
    · exact h
    · rename_i fd _ _ entry hentry
      split
      · exact ((FdTable.Local.put hentry _).trans (.sync true ctl fd _)).counted h
      · exact h
  show t₂.fds.Counted
  dsimp only [t₂]
  split
  · rw [closeAccepted_fds]
    exact hunparked
  · exact hunparked

theorem detachSocket_counted (fd : RawFd) (h : s.fds.Counted) : (detachSocket fd s).fds.Counted := by
  unfold detachSocket
  split
  · exact h
  · rw [abandon_fds]
    exact (FdTable.Local.forget fd s.fds).counted h

theorem setWatch_counted (ctl : Ctl) (fd : RawFd) (readable writable : Bool) (h : s.fds.Counted) :
    (setWatch ctl fd readable writable s).fds.Counted := by
  have hmade := FdTable.Local.entry fd s.fds
  have hentry := (FdTable.entry_spec s.fds fd).1
  unfold setWatch
  split
  · exact h
  dsimp only
  have hsync := fun e => ((hmade.trans (.put hentry e)).trans (.sync false ctl fd _)).counted h
  split
  · exact hsync _
  split
  · exact hsync _
  · rename_i entry hget
    have hback := fun e => (FdTable.Local.put hget e).counted (hsync _)
    dsimp only
    split
    · exact (FdTable.Local.remove fd _).counted (hback _)
    · exact hback _

theorem driveSide_counted (answer : Answer) (ctl : Ctl) (fd : RawFd) (w : Bool) (h : s.fds.Counted) :
    (driveSide answer ctl fd w s).2.fds.Counted := by
  unfold driveSide
  split
  · exact h
  rename_i id hid
  extract_lets recvLen
  rcases htry : attempt answer id s with ⟨outcome, s₁⟩
  rw [← attempt_fds answer id s, htry] at h
  cases outcome with
  | none => exact h
  | some result =>
    dsimp -zeta only at h ⊢
    extract_lets fds t kind ended tail
    have hfds : FdTable.Local fd s₁.fds fds := by
      dsimp only [fds]
      split
      · exact .refl fd s₁.fds
      · rename_i entry hentry
        exact .put hentry _
    have hended : ended.fds.Counted := (hfds.trans (.sync true ctl fd fds)).counted h
    -- recycled or not
    have hrecycled : (release id ended).fds.Counted := hended
    show tail.fds.Counted
    dsimp only [tail]
    clear_value kind ended
    split
    · split
      · exact hended
      · exact hrecycled
    · split
      · exact hended
      · exact hrecycled
    · exact hrecycled

theorem handle_counted (ev : Event) (h : s.fds.Counted) : (handle s ev).fds.Counted := by
  cases ev with
  | wake => exact h
  | fd fd readReady writeReady read write readCtl writeCtl tail =>
    unfold handle
    dsimp only
    have hread : (if readReady then driveSide read readCtl fd false s
        else (false, s)).2.fds.Counted := by
      split
      · exact driveSide_counted read readCtl fd false h
      · exact h
    generalize (if readReady then driveSide read readCtl fd false s else (false, s)) = r at hread ⊢
    have hwrite : (if writeReady then driveSide write writeCtl fd true r.2
        else (false, r.2)).2.fds.Counted := by
      split
      · exact driveSide_counted write writeCtl fd true hread
      · exact hread
    generalize (if writeReady then driveSide write writeCtl fd true r.2 else (false, r.2)) = w at hwrite ⊢
    have hwatched : ∀ watched : Bool, ∀ c,
        (if watched then { w.2 with delivered := w.2.delivered ++ [c] } else w.2 : EpollBackend).fds =
          w.2.fds := by
      intro watched c
      split <;> rfl
    split
    · apply (FdTable.Local.sync false tail fd _).counted
      rw [hwatched]
      exact hwrite
    · rw [hwatched]
      exact hwrite

theorem handleAll_counted (es : List Event) (h : s.fds.Counted) : (es.foldl handle s).fds.Counted := by
  induction es generalizing s with
  | nil => exact h
  | cons e es ih => exact ih (handle_counted e h)

theorem poll_counted (timeout : Nat) (wait : Wait) (h : s.fds.Counted) :
    (poll timeout wait s).fds.Counted := by
  unfold poll
  dsimp only
  generalize (if s.inlineCompletions.isEmpty then timeout else 0) = timeout
  split
  · exact h
  · cases wait with
    | events es => exact handleAll_counted es h
    | interrupted => exact h
    | failed e => exact h

theorem step_counted (h : s.fds.Counted) (i : Input) : (step s i).fds.Counted := by
  unfold step
  cases hpost : post s i with
  | some r =>
    obtain ⟨socket, -, hlocal⟩ := post_local hpost
    have hfds : (posted r).fds = r.2.fds := by
      unfold posted
      split <;> rfl
    dsimp only
    rw [hfds]
    exact hlocal.counted h
  | none =>
    cases i with
    | registerSocket fd => exact (FdTable.Local.forget fd s.fds).counted h
    | cancel ctl op => exact cancel_counted ctl op h
    | detachSocket fd => exact detachSocket_counted fd h
    | setWatch ctl fd readable writable => exact setWatch_counted ctl fd readable writable h
    | takeStaged => exact h
    | poll timeout wait => exact poll_counted timeout wait h
    | takeAcceptSocket op =>
      have hfds : (takeAcceptSocket op s).2.fds = s.fds := by
        unfold takeAcceptSocket
        split <;> rfl
      show (takeAcceptSocket op s).2.fds.Counted
      rw [hfds]
      exact h
    | takeRecvFromAddr op =>
      have hfds : (takeRecvFromAddr op s).2.fds = s.fds := by
        unfold takeRecvFromAddr
        split <;> rfl
      show (takeRecvFromAddr op s).2.fds.Counted
      rw [hfds]
      exact h
    | wake => exact h
    | _ => exact h

/-! ## 2. Runs -/

def used (fd : RawFd) (inUse : Bool) (i : Input) : Bool :=
  if i.socket = some fd then true
  else
    match i with
    | .detachSocket fd' => if fd' = fd then false else inUse
    | _ => inUse

theorem used_post {i : Input} {socket : RawFd} (h : i.socket = some socket) (fd : RawFd) (b : Bool) :
    used fd b i = if socket = fd then true else b := by
  cases i <;> simp only [Input.socket, Option.some.injEq, reduceCtorEq] at h <;>
    simp [used, Input.socket, h]

theorem used_call {i : Input} (hpost : post s i = none) (hdetach : i ≠ .detachSocket fd) (b : Bool) :
    used fd b i = b := by
  cases i with
  | detachSocket fd' =>
    have hne : fd' ≠ fd := fun heq => hdetach (by rw [heq])
    simp [used, Input.socket, hne]
  | _ => first | rfl | cases hpost

/-- A post was made on `fd` since it was last detached. -/
def InUse (fd : RawFd) (is : List Input) : Bool := is.foldl (used fd) false

/-- The caller detaches a socket before its number is registered again. -/
def Careful (is : List Input) : Prop :=
  ∀ pre fd, pre ++ [.registerSocket fd] <+: is → InUse fd pre = false

theorem InUse.concat (fd : RawFd) (is : List Input) (i : Input) :
    InUse fd (is ++ [i]) = used fd (InUse fd is) i := by
  rw [InUse, List.foldl_append]
  rfl

theorem careful_nil : Careful [] := by
  intro pre fd hpre
  exact absurd (List.prefix_nil.mp hpre) (by simp)

theorem careful_concat {is : List Input} {i : Input} :
    Careful (is ++ [i]) ↔ Careful is ∧ ∀ fd, i = .registerSocket fd → InUse fd is = false := by
  constructor
  · intro h
    refine ⟨fun pre fd hpre => h pre fd (hpre.trans (List.prefix_append _ _)), ?_⟩
    rintro fd rfl
    exact h is fd (List.prefix_refl _)
  · rintro ⟨his, hi⟩ pre fd hpre
    rcases List.prefix_concat_iff.mp hpre with heq | hpre
    · obtain ⟨rfl, hlast⟩ := List.append_inj' heq rfl
      injection hlast with hlast
      exact hi fd hlast.symm
    · exact his pre fd hpre

theorem careful_singleton (i : Input) : Careful [i] :=
  careful_concat.mpr ⟨careful_nil, fun _ _ => rfl⟩

/-- Room for the ids of a step: 2^32 slots at most, and none recycled 2^32 times. -/
structure Fits (s : EpollBackend) (i : Input) : Prop where
  live : (post s i).isSome = true → Room s
  recycled : (step s i).Roomy

/-- What holds between calls, with what the caller did. -/
structure Sound (is : List Input) (s : EpollBackend) : Prop where
  held : Held [] s
  roomy : s.Roomy
  counted : s.fds.Counted
  free : ∀ fd, InUse fd is = false → ∀ w, s.fds.parked fd w = none

theorem posted_fds (r : Except PostError OpId × EpollBackend) : (posted r).fds = r.2.fds := by
  unfold posted
  split <;> rfl

theorem posted_slab (r : Except PostError OpId × EpollBackend) : (posted r).slab = r.2.slab := by
  unfold posted
  split <;> rfl

/-- What a call that posts nothing leaves. -/
theorem call_held (h : Held [] s) {i : Input} (hpost : post s i = none) (hroom : (step s i).Roomy)
    (hfree : ∀ fd, i = .registerSocket fd → ∀ w, s.fds.parked fd w = none) :
    Held [] (step s i) ∧
      ∀ fd w id, (step s i).fds.parked fd w = some id → s.fds.parked fd w = some id := by
  unfold step at hroom ⊢
  rw [hpost] at hroom ⊢
  cases i with
  | registerSocket fd =>
    refine ⟨registerSocket_held h (hfree fd rfl), fun fd' w id hid => ?_⟩
    have hat : (s.fds.forget fd).parked fd' w = some id := hid
    rw [FdTable.parked_forget] at hat
    split at hat
    · cases hat
    · exact hat
  | cancel ctl op =>
    obtain ⟨hheld, hparked⟩ := cancel_held h ctl op hroom
    refine ⟨hheld, fun fd w id hid => ?_⟩
    have hat : (cancel ctl op s).fds.parked fd w = some id := hid
    rw [hparked] at hat
    split at hat
    · cases hat
    · exact hat
  | detachSocket fd =>
    obtain ⟨hheld, hparked⟩ := detachSocket_held h fd hroom
    refine ⟨hheld, fun fd' w id hid => ?_⟩
    have hat : (detachSocket fd s).fds.parked fd' w = some id := hid
    rw [hparked] at hat
    split at hat
    · cases hat
    · exact hat
  | setWatch ctl fd readable writable =>
    obtain ⟨fds, heq, hfds⟩ := setWatch_same ctl fd readable writable s
    show Held [] (setWatch ctl fd readable writable s) ∧ ∀ fd' w id,
      (setWatch ctl fd readable writable s).fds.parked fd' w = some id → _
    rw [heq]
    exact ⟨h.congr rfl hfds rfl rfl ⟨rfl, rfl, rfl⟩, fun fd' w id hid => hfds fd' w ▸ hid⟩
  | takeStaged =>
    have hkept := takeStaged_kept s
    exact ⟨hkept.held hroom h, hkept.parked⟩
  | poll timeout wait =>
    have hkept := poll_kept timeout wait s
    exact ⟨hkept.held hroom h, hkept.parked⟩
  | takeAcceptSocket op =>
    refine ⟨takeAcceptSocket_held h op hroom, fun fd w id hid => ?_⟩
    have hfds : (takeAcceptSocket op s).2.fds = s.fds := by
      unfold takeAcceptSocket
      split <;> rfl
    rw [← hfds]
    exact hid
  | takeRecvFromAddr op =>
    refine ⟨takeRecvFromAddr_held h op hroom, fun fd w id hid => ?_⟩
    have hfds : (takeRecvFromAddr op s).2.fds = s.fds := by
      unfold takeRecvFromAddr
      split <;> rfl
    rw [← hfds]
    exact hid
  | wake => exact ⟨h.congr rfl (fun _ _ => rfl) rfl rfl ⟨rfl, rfl, rfl⟩, fun fd w id hid => hid⟩
  | _ => cases hpost

theorem Sound.nil : Sound [] backend.init where
  held := .new
  roomy i := by
    show 0 < 2 ^ 32
    decide
  counted := .empty
  free _ _ _ := rfl

theorem Sound.post_spec {is : List Input} (h : Sound is s) {i : Input} (hfits : Fits s i)
    {r : Except PostError OpId × EpollBackend} (hpost : post s i = some r) :
    PostSpec s r ∧ Epoll.step s i = posted r := by
  have hstep : Epoll.step s i = posted r := by
    unfold Epoll.step
    rw [hpost]
  refine ⟨?_, hstep⟩
  apply Epoll.post_spec h.held (hfits.live (Option.isSome_of_eq_some hpost)) h.roomy hpost
  have hroom := hfits.recycled
  unfold Roomy at hroom ⊢
  rwa [hstep, posted_slab] at hroom

theorem Sound.step {is : List Input} (h : Sound is s) {i : Input} (hfits : Fits s i)
    (hcareful : ∀ fd, i = .registerSocket fd → InUse fd is = false) :
    Sound (is ++ [i]) (step s i) := by
  have hcounted := step_counted h.counted i
  cases hpost : post s i with
  | some r =>
    obtain ⟨hspec, hstep⟩ := h.post_spec hfits hpost
    have hroom := hfits.recycled
    rw [hstep] at hroom hcounted ⊢
    refine ⟨hspec.held, hroom, hcounted, fun fd hunused w => ?_⟩
    obtain ⟨socket, hsocket, hlocal⟩ := post_local hpost
    rw [InUse.concat, used_post hsocket] at hunused
    split at hunused
    · cases hunused
    · rename_i hother
      rw [posted_fds, hlocal.others fd fun heq => hother heq.symm]
      exact h.free fd hunused w
  | none =>
    have hheld := call_held h.held hpost hfits.recycled fun fd hi => h.free fd (hcareful fd hi)
    refine ⟨hheld.1, hfits.recycled, hcounted, fun fd hunused w => ?_⟩
    by_cases hdetach : i = .detachSocket fd
    · subst hdetach
      show (detachSocket fd s).fds.parked fd w = none
      rw [(detachSocket_held h.held fd hfits.recycled).2, if_pos rfl]
    · rw [InUse.concat, used_call hpost hdetach] at hunused
      cases hid : (Epoll.step s i).fds.parked fd w with
      | none => rfl
      | some id =>
        rw [← h.free fd hunused w]
        exact (hheld.2 fd w id hid).symm

theorem run_sound (is : List Input) (hcareful : Careful is) (hfits : backend.Along Fits is) :
    Sound is (backend.run is) := by
  revert hcareful hfits
  refine backend.run_induction
    (motive := fun is s => Careful is → backend.Along Fits is → Sound is s)
    (fun _ _ => .nil) (fun is i ih hcareful hfits => ?_) is
  obtain ⟨hbefore, hlast⟩ := careful_concat.mp hcareful
  obtain ⟨hall, hfit⟩ := backend.along_concat.mp hfits
  exact (ih hbefore hall).step hfit hlast

/-! ## 3. Exactly once -/

/-- What a caller sees between calls. -/
structure Exact (s : EpollBackend) : Prop where
  returned : s.returned.Nodup
  -- in one completion, unless it is parked; then in none
  parked : ∀ id ∈ s.returned, s.Parked id → s.completed.count id = 0
  once : ∀ id ∈ s.returned, ¬ s.Parked id → s.completed.count id = 1
  -- what is parked on a descriptor is its operation, posted, and in one place
  posted : ∀ fd w id, s.fds.parked fd w = some id →
    (∃ slot, s.slab.slab.get id = some slot ∧ slot.state = .posted ∧ slot.data.fd = some fd) ∧
      ∀ fd' w', s.fds.parked fd' w' = some id → fd' = fd ∧ w' = w
  -- the descriptors of accepts
  handed : (s.handed.map Prod.fst).Nodup ∧ ∀ p ∈ s.handed, p ∈ s.accepts
  closed : s.closed = []

/-- The backend as a side of an event is tried: the write side comes after the read side. -/
def tried (s : EpollBackend) (fd : RawFd) (readReady : Bool) (read : Answer) (readCtl : Ctl)
    (writeSide : Bool) : EpollBackend :=
  if writeSide then (driveReady readReady read readCtl fd false s).2 else s

/-- What the next call does. -/
structure Next (s : EpollBackend) (i : Input) : Prop where
  -- nothing is handed out while a post is made, and its id is new
  fresh : ∀ r, post s i = some r → r.2.delivered = s.delivered ∧
    ∀ id, r.1 = .ok id → id ∉ s.returned ∧ id ∉ s.completed
  -- it is completed in the call or parks on its socket, on a side that was free; what was parked stays
  placed : ∀ r id, post s i = some r → r.1 = .ok id → id ∈ r.2.completed ∨
    ∃ socket w, i.socket = some socket ∧ s.fds.parked socket w = none ∧
      r.2.fds.parked socket w = some id
  undisturbed : ∀ r, post s i = some r → ∀ fd w id, s.fds.parked fd w = some id →
    r.2.fds.parked fd w = some id
  cancelled : ∀ ctl id, i = .cancel ctl id → ¬ (step s i).Parked id
  detached : ∀ fd, i = .detachSocket fd → ∀ w, (step s i).fds.parked fd w = none
  -- a descriptor is reported ready, and the syscall on the side reported is decisive
  finished : ∀ timeout es fd readReady writeReady read write readCtl writeCtl tail later w id bytes
    osError, i = .poll timeout (.events
      (es ++ .fd fd readReady writeReady read write readCtl writeCtl tail :: later)) →
    let s' := tried (es.foldl handle (takeStaged s)) fd readReady read readCtl w
    (if w then writeReady else readReady) = true → s'.fds.parked fd w = some id →
    (attempt (if w then write else read) id s').1 = some (bytes, osError) →
    .io id bytes osError ∈ (step s i).delivered
  -- what is staged comes out with the next of these
  staged : (i = .takeStaged ∨ ∃ timeout wait, i = .poll timeout wait) →
    s.delivered ++ s.inlineCompletions <+: (step s i).delivered

theorem Sound.exact {is : List Input} (h : Sound is s) : Exact s where
  returned := h.held.returned_once
  parked id hid hparked := by
    obtain ⟨fd, w, hat⟩ := hparked
    obtain ⟨-, slot, hget, hposted, -⟩ := h.held.parked fd w id hat
    rw [List.count_eq_zero]
    intro hdone
    have hidle := (h.held.completed id hdone).2 slot hget
    simp [OpSlot.inFlight, hposted] at hidle
  once id hid hparked := by
    have hdone : id ∈ s.completed := by
      rcases (h.held.returned id hid).2 with hdone | hin | hat
      · exact hdone
      · cases hin
      · exact absurd hat hparked
    exact List.count_eq_one_of_mem h.held.once hdone
  posted fd w id hid := by
    obtain ⟨-, slot, hget, hposted, hfd, -⟩ := h.held.parked fd w id hid
    refine ⟨⟨slot, hget, hposted, hfd⟩, fun fd' w' hid' => ?_⟩
    exact h.held.one_place hid' hid
  handed := ⟨h.held.handed_once, fun p hp => (h.held.handed p hp).1⟩
  closed := h.held.closed

/-- **A park on a busy side is refused**, and what is parked stays. -/
theorem park_refused (ctl : Ctl) (id : OpId) {fd : RawFd} {w : Bool} {first : OpId}
    (hbusy : s.fds.parked fd w = some first) :
    (park ctl id fd w s).1 = .error .wouldBlock ∧
      ∀ fd' w', (park ctl id fd w s).2.fds.parked fd' w' = s.fds.parked fd' w' := by
  obtain ⟨hentry, hsame⟩ := FdTable.entry_spec s.fds fd
  have hop : ((s.fds.entry fd).1.op w).isSome = true := by
    rw [← FdTable.parked_of_get hentry, hsame, hbusy]
    rfl
  unfold park
  dsimp only
  rw [if_pos hop]
  exact ⟨rfl, hsame⟩

theorem handle_finishes {fd : RawFd} {readReady writeReady : Bool} {read write : Answer}
    {readCtl : Ctl} (writeCtl tail : Ctl) {w : Bool} {bytes osError : Nat}
    (hready : (if w then writeReady else readReady) = true)
    (hid : (tried s fd readReady read readCtl w).fds.parked fd w = some id)
    (htry : (attempt (if w then write else read) id (tried s fd readReady read readCtl w)).1 =
      some (bytes, osError)) :
    .io id bytes osError ∈
      (handle s (.fd fd readReady writeReady read write readCtl writeCtl tail)).delivered := by
  have hafter := handle_after fd readReady writeReady read write readCtl writeCtl tail s
  apply hafter.delivered.subset
  cases w with
  | false =>
    have hready : readReady = true := hready
    have hdone : .io id bytes osError ∈ (driveReady readReady read readCtl fd false s).2.delivered := by
      rw [driveReady, if_pos hready]
      exact driveSide_finishes readCtl hid htry
    exact (driveReady_kept writeReady write writeCtl fd true _).delivered.subset hdone
  | true =>
    have hready : writeReady = true := hready
    rw [driveReady, if_pos hready]
    exact driveSide_finishes writeCtl hid htry

theorem poll_finishes {is : List Input} (h : Sound is s) (timeout : Nat) {es : List Event}
    (later : List Event) {fd : RawFd} {readReady writeReady : Bool} {read write : Answer}
    {readCtl : Ctl} (writeCtl tail : Ctl) {w : Bool} {bytes osError : Nat}
    (hready : (if w then writeReady else readReady) = true)
    (hid : (tried (es.foldl handle (takeStaged s)) fd readReady read readCtl w).fds.parked fd w =
      some id)
    (htry : (attempt (if w then write else read) id
      (tried (es.foldl handle (takeStaged s)) fd readReady read readCtl w)).1 =
        some (bytes, osError)) :
    .io id bytes osError ∈ (poll timeout (.events
      (es ++ .fd fd readReady writeReady read write readCtl writeCtl tail :: later)) s).delivered := by
  have htried : ∀ t, Kept t (tried t fd readReady read readCtl w) := by
    intro t
    unfold tried
    split
    · exact driveReady_kept readReady read readCtl fd false t
    · exact .refl t
  -- an operation is parked, so the wait is not skipped
  have hbefore := (handleAll_kept es (takeStaged s)).trans (htried _)
  have hoccupied : (takeStaged s).fds.isEmpty = false := h.counted.occupied (hbefore.parked fd w id hid)
  unfold poll
  dsimp only
  generalize (if s.inlineCompletions.isEmpty then timeout else 0) = timeout
  rw [if_neg (by rw [hoccupied]; simp), List.foldl_append, List.foldl_cons]
  exact (handleAll_kept later _).delivered.subset (handle_finishes writeCtl tail hready hid htry)

theorem Sound.next {is : List Input} (h : Sound is s) {i : Input} (hfits : Fits s i) : Next s i where
  fresh r hpost := by
    obtain ⟨hspec, -⟩ := h.post_spec hfits hpost
    refine ⟨hspec.delivered, fun id hok => ?_⟩
    have hnew := hspec.fresh id hok
    exact ⟨fun hid => hnew (h.held.returned id hid).1, fun hid => hnew (h.held.completed id hid).1⟩
  placed r id hpost hok := by
    obtain ⟨hspec, -⟩ := h.post_spec hfits hpost
    have hreturned : id ∈ (posted r).returned := by
      unfold posted
      rw [hok]
      exact List.mem_append_right _ (List.mem_singleton.mpr rfl)
    have hcompleted : (posted r).completed = r.2.completed := by
      unfold posted
      split <;> rfl
    rcases (hspec.held.returned id hreturned).2 with hdone | hin | ⟨fd, w, hat⟩
    · exact .inl (hcompleted ▸ hdone)
    · cases hin
    · rw [posted_fds] at hat
      have hfree := hspec.free id fd w hok hat
      obtain ⟨socket, hsocket, hlocal⟩ := post_local hpost
      have hfd : fd = socket := by
        by_contra hne
        rw [hlocal.others fd hne, hfree] at hat
        cases hat
      subst hfd
      exact .inr ⟨fd, w, hsocket, hfree, hat⟩
  undisturbed r hpost := (h.post_spec hfits hpost).1.parked
  cancelled ctl id hi := by
    subst hi
    rintro ⟨fd, w, hid⟩
    have hat : (cancel ctl id s).fds.parked fd w = some id := hid
    rw [(cancel_held h.held ctl id hfits.recycled).2] at hat
    split at hat
    · cases hat
    · rename_i hnot
      exact hnot hat
  detached fd hi w := by
    subst hi
    show (detachSocket fd s).fds.parked fd w = none
    rw [(detachSocket_held h.held fd hfits.recycled).2, if_pos rfl]
  finished timeout es fd readReady writeReady read write readCtl writeCtl tail later w id bytes osError hi := by
    subst hi
    exact fun hready hid htry => poll_finishes h timeout later writeCtl tail hready hid htry
  staged hi := by
    rcases hi with rfl | ⟨timeout, wait, rfl⟩
    · exact List.prefix_refl _
    · show (takeStaged s).delivered <+: (poll timeout wait s).delivered
      unfold poll
      dsimp only
      generalize (if s.inlineCompletions.isEmpty then timeout else 0) = timeout
      split
      · exact List.prefix_refl _
      · cases wait with
        | events es => exact (handleAll_kept es (takeStaged s)).delivered
        | interrupted => exact List.prefix_refl _
        | failed e => exact List.prefix_refl _

/-- **The backend completes every operation exactly once**, in runs in which no slot is recycled
2^32 times and no post is made while 2^32 are live. -/
theorem completes_exactly_once (is : List Input) (hcareful : Careful is)
    (hfits : backend.Along Fits is) :
    Exact (backend.run is) ∧
      (∀ pre i, pre ++ [i] <+: is → Next (backend.run pre) i) ∧
      ∀ (s : EpollBackend) ctl id fd w first, s.fds.parked fd w = some first →
        (park ctl id fd w s).1 = .error .wouldBlock ∧
          ∀ fd' w', (park ctl id fd w s).2.fds.parked fd' w' = s.fds.parked fd' w' := by
  refine ⟨(run_sound is hcareful hfits).exact, fun pre i hpre => ?_, ?_⟩
  · have hbefore : pre <+: is := (List.prefix_append pre [i]).trans hpre
    have hsound := run_sound pre (fun pre' fd hpre' => hcareful pre' fd (hpre'.trans hbefore))
      fun pre' j hpre' => hfits pre' j (hpre'.trans hbefore)
    exact hsound.next (hfits pre i hpre)
  · intro s ctl id fd w first hbusy
    exact park_refused ctl id hbusy

theorem fits_of_few {i : Input} (hissued : s.slab.book.issued.length < 2 ^ 32)
    (hrecycled : (step s i).slab.book.recycled.length < 2 ^ 32) : Fits s i where
  live _ := by
    unfold Room
    omega
  recycled _ := Nat.lt_of_le_of_lt List.countP_le_length hrecycled

/-- A receive parks, is finished from readiness, and its socket's number is used again. -/
theorem completes_exactly_once_reused :
    let is := [Input.registerSocket 5] ++ [.postRecv ⟨0, .again, ⟨none, none⟩⟩ 5 4096 16] ++
      [.poll 0 (.events [.fd 5 true false (.done 3 []) .again ⟨none, none⟩ ⟨none, none⟩
        ⟨none, none⟩])] ++ [.detachSocket 5] ++ [.registerSocket 5]
    (Careful is ∧ backend.Along Fits is) ∧ Exact (backend.run is) := by
  intro is
  have hcareful : Careful is := by
    refine careful_concat.mpr ⟨careful_concat.mpr ⟨careful_concat.mpr ⟨careful_concat.mpr
      ⟨careful_singleton _, ?_⟩, ?_⟩, ?_⟩, ?_⟩
    · exact fun fd h => by cases h
    · exact fun fd h => by cases h
    · exact fun fd h => by cases h
    · intro fd h
      cases h
      rfl
  have hfits : backend.Along Fits is := by
    refine (backend.along_concat).mpr ⟨(backend.along_concat).mpr ⟨(backend.along_concat).mpr
      ⟨(backend.along_concat).mpr ⟨(backend.along_singleton).mpr ?_, ?_⟩, ?_⟩, ?_⟩, ?_⟩
    · exact fits_of_few (by decide) (by decide)
    · exact fits_of_few (by decide) (by decide)
    · exact fits_of_few (by decide) (by decide)
    · exact fits_of_few (by decide) (by decide)
    · exact fits_of_few (by decide) (by decide)
  exact ⟨⟨hcareful, hfits⟩, (completes_exactly_once is hcareful hfits).1⟩

/-! ## 4. 2^32 rounds of one slot -/

/-- What is free in a slab, and what is in its first slot. -/
structure Top (slab : Ops.OpSlab EpollOp) (free : List UInt32) (slot : OpSlot EpollOp) : Prop where
  free : slab.freelist = free
  slot : slab.slot 0 = some slot

namespace Top

variable {slab : Ops.OpSlab EpollOp} {free : List UInt32} {slot : OpSlot EpollOp}

theorem get (h : Top slab free slot) (hused : slot.state ≠ .free) :
    slab.get ⟨0, slot.generation⟩ = some slot := Ops.OpSlab.get_eq_some.mpr ⟨h.slot, rfl, hused⟩

theorem set (h : Top slab free slot) (slot' : OpSlot EpollOp) : Top (slab.setSlot 0 slot') free slot' where
  free := h.free
  slot := by
    have hlt : (0 : UInt32).toNat < slab.slots.length := (List.getElem?_eq_some_iff.mp h.slot).1
    show (slab.slots.set (0 : UInt32).toNat slot')[(0 : UInt32).toNat]? = some slot'
    rw [List.getElem?_set, if_pos rfl, if_pos hlt]

theorem setData (h : Top slab free slot) (hused : slot.state ≠ .free) (data : EpollOp) :
    Top (slab.getMut ⟨0, slot.generation⟩ fun kd => (kd.1, data)) free { slot with data := data } := by
  rw [Ops.OpSlab.getMut, h.get hused]
  exact h.set _

/-- Completed, and released with its generation one up. -/
theorem recycle (h : Top slab free slot) (hposted : slot.state = .posted) :
    Top ((slab.complete ⟨0, slot.generation⟩).2.release ⟨0, slot.generation⟩) (0 :: free)
      { slot with state := .free, generation := slot.generation + 1 } := by
  have hget := h.get (by rw [hposted]; decide)
  rw [Ops.OpSlab.complete_of_get hget, if_pos (by simp [OpSlot.inFlight, hposted])]
  have hcounted : Top { slab with inFlight := slab.inFlight - 1 } free slot := ⟨h.free, h.slot⟩
  have hdone : Top ({ slab with inFlight := slab.inFlight - 1 }.setSlot 0 { slot with state := .completed })
      free { slot with state := .completed } := hcounted.set _
  dsimp only
  generalize Ops.OpSlab.setSlot { slab with inFlight := slab.inFlight - 1 } 0
    { slot with state := .completed } = slab' at hdone ⊢
  rw [Ops.OpSlab.release_of_get (hdone.get (by simp)), if_pos rfl]
  have hfreed : Top { slab' with freelist := 0 :: slab'.freelist } (0 :: free)
      { slot with state := .completed } := ⟨congrArg (0 :: ·) hdone.free, hdone.slot⟩
  exact hfreed.set _

end Top

/-- A send that finishes inline, and the completion taken. -/
def round : List Input :=
  [.postSend ⟨0, .done 1 [], ⟨none, none⟩⟩ 5 [⟨0, 1⟩], .takeStaged]

def rounds (n : Nat) : List Input := (List.replicate n round).flatten

/-- The ids of `n` rounds: the generation is a u32. -/
def roundIds (n : Nat) : List OpId := (List.range n).map fun k => ⟨0, UInt32.ofNat k⟩

/-- After `n` rounds the next post gets slot 0. -/
structure Turn (n : Nat) (s : EpollBackend) : Prop where
  next : ∃ slab free slot, (∀ kind, s.slab.slab.post 0 kind = slab.post 0 kind) ∧
    Top slab (0 :: free) slot ∧ slot.state = .free ∧ slot.generation = UInt32.ofNat n
  staged : s.inlineCompletions = []
  delivered : ios s.delivered = roundIds n
  returned : s.returned = roundIds n
  fds : s.fds = .empty

theorem Turn.zero : Turn 0 backend.init where
  next := by
    have hgrown : ((Ops.OpSlab.new emptyOp).grow 0).freelist =
        0 :: (List.range' 1 255).map UInt32.ofNat := by
      rw [Ops.OpSlab.grow_freelist]
      show (List.range (255 + 1)).map (fun k => UInt32.ofNat (0 + k)) ++ [] = _
      rw [List.append_nil, List.range_eq_range', List.range'_succ]
      simp only [Nat.zero_add, List.map_cons]
      rfl
    exact ⟨(Ops.OpSlab.new emptyOp).grow 0, _, _, Ops.OpSlab.post_of_empty rfl 0, ⟨hgrown, rfl⟩, rfl, rfl⟩
  staged := rfl
  delivered := rfl
  returned := rfl
  fds := rfl

theorem Turn.post {n : Nat} (h : Turn n s) :
    ∃ s', postSend ⟨0, .done 1 [], ⟨none, none⟩⟩ 5 [⟨0, 1⟩] s = (.ok ⟨0, UInt32.ofNat n⟩, s') ∧
      (∃ free slot, Top s'.slab.slab (0 :: free) slot ∧ slot.state = .free ∧
        slot.generation = UInt32.ofNat (n + 1)) ∧
      s'.inlineCompletions = [.io ⟨0, UInt32.ofNat n⟩ 1 0] ∧ s'.delivered = s.delivered ∧
      s'.returned = s.returned ∧ s'.fds = s.fds := by
  obtain ⟨slab, free, slot, hpost, htop, hfree, hgen⟩ := h.next
  have hposted := Ops.OpSlab.post_of_nonempty htop.free htop.slot 0 .send
  rw [← hpost] at hposted
  have hrest : Top { slab with freelist := free, inFlight := slab.inFlight + 1 } free slot :=
    ⟨rfl, htop.slot⟩
  have htaken : Top ({ slab with freelist := free, inFlight := slab.inFlight + 1 }.setSlot 0
      { slot with state := .posted, kind := .send }) free { slot with state := .posted, kind := .send } :=
    hrest.set _
  generalize Ops.OpSlab.setSlot { slab with freelist := free, inFlight := slab.inFlight + 1 } 0
    { slot with state := .posted, kind := .send } = slab₁ at hposted htaken
  have hdata := htaken.setData (by simp) ⟨some 5, .send [⟨0, 1⟩] 0, none⟩
  have hsent := hdata.setData (by simp) ⟨some 5, .send [⟨0, 1⟩] 1, none⟩
  have hback := hsent.recycle rfl
  have hstep : (s.slab.step (.post 0 .send)).slab = slab₁ := by
    simp only [Ops.Run.step, hposted]
  rw [← hstep] at hdata hback
  have hget := hdata.get (by simp)
  refine ⟨finishInline ⟨0, slot.generation⟩ 1 0
    (setData ⟨0, slot.generation⟩ ⟨some 5, .send [⟨0, 1⟩] 1, none⟩
      (setData ⟨0, slot.generation⟩ ⟨some 5, .send [⟨0, 1⟩] 0, none⟩
        { s with slab := s.slab.step (.post 0 .send) })), ?_, ⟨free, _, hback, rfl, ?_⟩, ?_, rfl, rfl, rfl⟩
  · unfold postSend postWrite launch
    rw [hposted, ← hgen]
    dsimp only
    unfold attempt
    have hfound : (setData ⟨0, slot.generation⟩ ⟨some 5, .send (List.take maxGather [⟨0, 1⟩]) 0, none⟩
        { s with slab := s.slab.step (.post 0 .send) }).slab.slab.get ⟨0, slot.generation⟩ = _ := hget
    rw [hfound]
    rfl
  · show slot.generation + 1 = _
    rw [hgen]
    exact (UInt32.ofNat_add n 1).symm
  · show s.inlineCompletions ++ _ = _
    rw [h.staged, hgen]
    rfl

theorem Turn.round {n : Nat} (h : Turn n s) : Turn (n + 1) (Epoll.round.foldl backend.step s) := by
  obtain ⟨s', hpost, ⟨free, slot, htop, hfree, hgen⟩, hstaged, hdelivered, hreturned, hfds⟩ := h.post
  have hstep : Epoll.round.foldl backend.step s =
      takeStaged { s' with returned := s'.returned ++ [⟨0, UInt32.ofNat n⟩] } := by
    show takeStaged (posted (postSend _ _ _ s)) = _
    rw [hpost]
    rfl
  have hids : roundIds (n + 1) = roundIds n ++ [⟨0, UInt32.ofNat n⟩] := by
    rw [roundIds, List.range_succ, List.map_append]
    rfl
  rw [hstep]
  constructor
  · exact ⟨s'.slab.slab, free, slot, fun kind => rfl, htop, hfree, hgen⟩
  · rfl
  · show ios (s'.delivered ++ s'.inlineCompletions) = _
    rw [hstaged, hdelivered, ios, List.filterMap_append, hids]
    exact congrArg (· ++ _) h.delivered
  · show s'.returned ++ _ = _
    rw [hreturned, h.returned, hids]
  · exact hfds.trans h.fds

theorem turn_rounds (n : Nat) : Turn n (backend.run (rounds n)) := by
  induction n with
  | zero => exact .zero
  | succ n ih =>
    have hrounds : rounds (n + 1) = rounds n ++ round := by
      rw [rounds, List.replicate_succ', List.flatten_append]
      simp [rounds]
    rw [hrounds, Machine.run, List.foldl_append]
    exact ih.round

/-- Slot 0 recycled 2^32 times, its first id comes again, and is completed again. -/
theorem completes_twice_past_u32 :
    ¬ ∀ is, Careful is → ∀ id ∈ (backend.run is).returned, ¬ (backend.run is).Parked id →
      (backend.run is).completed.count id = 1 := by
  intro hall
  have hturn := turn_rounds (2 ^ 32 + 1)
  have hcareful : Careful (rounds (2 ^ 32 + 1)) := by
    intro pre fd hpre
    have hin : Input.registerSocket fd ∈ rounds (2 ^ 32 + 1) :=
      hpre.subset (List.mem_append_right _ (List.mem_singleton.mpr rfl))
    obtain ⟨l, hl, hin⟩ := List.mem_flatten.mp hin
    rw [List.eq_of_mem_replicate hl] at hin
    simp [Epoll.round] at hin
  have hcompleted : (backend.run (rounds (2 ^ 32 + 1))).completed = roundIds (2 ^ 32 + 1) := by
    show ios _ ++ ios _ = _
    rw [hturn.delivered, hturn.staged]
    exact List.append_nil _
  have hidle : ¬ (backend.run (rounds (2 ^ 32 + 1))).Parked ⟨0, 0⟩ := by
    rintro ⟨fd, w, hid⟩
    rw [hturn.fds] at hid
    cases hid
  have hids : roundIds (2 ^ 32 + 1) = roundIds (2 ^ 32) ++ [⟨0, 0⟩] := by
    rw [roundIds, List.range_succ, List.map_append]
    rfl
  have honce := hall _ hcareful ⟨0, 0⟩ (by
    rw [hturn.returned, hids]
    exact List.mem_append_right _ (List.mem_singleton.mpr rfl)) hidle
  -- the first round's id and the last one's
  have hfirst : (⟨0, 0⟩ : OpId) ∈ roundIds (2 ^ 32) :=
    List.mem_map.mpr ⟨0, List.mem_range.mpr (by decide), rfl⟩
  have hcount := List.count_pos_iff.mpr hfirst
  rw [hcompleted, hids, List.count_append, List.count_singleton_self] at honce
  omega

end Cadeloop.Core.Epoll
