import Cadeloop.Core.EpollInterest

/-!
# Histories of the backend beside the kernel

Calls of the backend, and between them descriptors closed and their numbers given to other files.
What a call logs of `epoll_ctl` the kernel must be able to have answered.
-/

namespace Cadeloop.Core.Epoll

open Cadeloop.Reasoning
open Ops (OpId)
open EpollBackend

/-! ## 1. One descriptor -/

section Descriptor

variable {recycled operated recycled' operated' : Bool} {t : FdTable} {fd : RawFd} {e : FdEntry}
  {entry entry' : Option FdEntry} {m m' : Option Mask} {error : Option Errno}

/-- To say less of an entry: that its number may be another file's, that it had operations. -/
theorem Tied.weaken (h : Tied recycled operated entry m) (hrecycled : recycled' = false → recycled = false)
    (hoperated : operated' = false → operated = false) : Tied recycled' operated' entry m where
  registered := ⟨h.registered.known, fun hfresh => h.registered.there (hrecycled hfresh),
    h.registered.unregistered, h.registered.events⟩
  masked e he := ⟨(h.masked e he).watched, fun hplain => (h.masked e he).plain (hoperated hplain)⟩

/-- The entry made if there is none is as if it had been there. -/
theorem Tied.created (h : Tied recycled operated (t.get fd) m) : Tied recycled operated (some (t.entry fd).1) m := by
  cases hslot : t.slots fd with
  | none =>
    have hmade : (t.entry fd).1 = .default := by rw [FdTable.entry, hslot]
    rw [FdTable.get, hslot] at h
    rw [hmade]
    exact h.made recycled operated
  | some e =>
    have hthere : (t.entry fd).1 = e := by rw [FdTable.entry, hslot]
    rw [FdTable.get, hslot] at h
    rw [hthere]
    exact h

theorem Armed.created (h : Armed (t.get fd) m) : Armed (some (t.entry fd).1) m := by
  intro e₁ he hneeded
  injection he with he
  subst he
  cases hslot : t.slots fd with
  | none =>
    have hmade : (t.entry fd).1 = .default := by rw [FdTable.entry, hslot]
    rw [hmade] at hneeded
    exact absurd rfl hneeded
  | some e =>
    have hthere : (t.entry fd).1 = e := by rw [FdTable.entry, hslot]
    rw [hthere] at hneeded ⊢
    exact h e hslot hneeded

/-- A park that is not on a recycled number arms, or fails. -/
theorem park_arms {w : Bool} {id : OpId} (h : Tied false operated (some e) m)
    (hsync : Synced false (e.setOp w (some id)) m entry' m' error) :
    Tied false true entry' m' ∧ (error = none → Armed entry' m') := by
  have hwatches : (e.setOp w (some id)).watches = e.watches := by cases w <;> rfl
  have hsame : (e.setOp w (some id)).registered = e.registered ∧ (e.setOp w (some id)).kernel = e.kernel := by
    cases w <;> exact ⟨rfl, rfl⟩
  have hready : Ready false false (e.setOp w (some id)) m := (h.registered.replaced hsame.1 hsame.2).ready false
  have hmasked : Masked true (e.setOp w (some id)) := by
    refine ⟨fun hthere => ?_, nofun⟩
    rw [hsame.2] at hthere ⊢
    rw [hwatches]
    exact (h.masked e rfl).watched hthere
  refine ⟨⟨hsync.registered hready, fun e' he => ?_⟩, fun hok => ?_⟩
  · subst he
    exact hsync.masked hmasked
  · subst hok
    exact hsync.arms hready (.inr (.inl rfl))

/-- A watch that cannot be made leaves what was armed armed: nothing else was wanted. -/
theorem watch_keeps {readable writable : Bool} {synced : Option FdEntry} {e₀ : Errno} (h : Armed (some e) m)
    (hsync : Synced false (e.watch readable writable) m synced m' (some e₀))
    (hrestored : Restored e (some e₀) synced entry') : Armed entry' m' := by
  intro e₁ he hneeded
  have hentries := (hrestored.resolve_left fun hok => by cases hok.1).2
  cases hs : synced with
  | none =>
    rw [hs] at hsync
    cases hsync
  | some e' =>
    rw [hs] at hsync
    rcases hentries e' hs with hback | hgone
    · rw [hback] at he
      injection he with he
      subst he
      obtain ⟨hr, hw, -, -⟩ := hsync.same
      -- the operations and the watches are those of before
      have hinterest : FdEntry.interest { e' with watchR := e.watchR, watchW := e.watchW } = e.interest := by
        show Mask.mk (e'.readOp.isSome || e.watchR) (e'.writeOp.isSome || e.watchW) = e.interest
        rw [hr, hw]
        rfl
      obtain ⟨m₁, hm, -⟩ := h e rfl (hinterest ▸ hneeded)
      rw [hsync.failed.1] at hm
      cases hm
    · rw [hgone] at he
      cases he

end Descriptor

/-- What a park does to its descriptor; the others are left alone. -/
theorem parkSync_at (ctl : Ctl) (fd : RawFd) (w : Bool) (id : OpId) (t : FdTable) :
    (t.Marked → (parkSync ctl fd w id t).2.Marked) ∧
      (∀ fd', fd' ≠ fd → (parkSync ctl fd w id t).2.get fd' = t.get fd') ∧
      Logs Kernel.ctl (fun k k' => k.Proper → SyncedAt false ((t.entry fd).1.setOp w (some id)) fd
          (parkSync ctl fd w id t).1 (parkSync ctl fd w id t).2 k k')
        t.ctls (parkSync ctl fd w id t).2.ctls := by
  have hmade : (t.entry fd).2.get fd = some (t.entry fd).1 := (FdTable.entry_spec t fd).1
  refine ⟨fun h => ((h.entry fd).put hmade _).sync false ctl fd, fun fd' hne => ?_, ?_⟩
  · rw [parkSync, syncInterest_get false ctl _ hne, FdTable.get_put, if_neg hne, FdTable.entry_get, if_neg hne]
  · have hparked : ((t.entry fd).2.put fd ((t.entry fd).1.setOp w (some id))).get fd =
        some ((t.entry fd).1.setOp w (some id)) := by rw [FdTable.get_put, if_pos rfl]
    have hlogs := syncInterest_logs hparked false ctl
    have hctls : ((t.entry fd).2.put fd ((t.entry fd).1.setOp w (some id))).ctls = t.ctls := t.entry_ctls fd
    rw [hctls] at hlogs
    exact hlogs

/-! ## 2. The backend and the kernel -/

/-- `set_wake_only`. -/
def setWakeOnly (fd : Option RawFd) (s : EpollBackend) : EpollBackend := { s with fds := s.fds.setWakeFd fd }

structure World where
  backend : EpollBackend
  kernel : Kernel
  -- the number was given to another file, or to none, since the entry was made or watched
  recycled : RawFd → Bool
  -- there was a post since the entry was made
  operated : RawFd → Bool

inductive Happening where
  | call (i : Input)
  | setWakeOnly (fd : Option RawFd)
  -- what is behind `fd` is closed, and a new file opened there, or none
  | reopen (fd : RawFd) (opened : Bool)

/-- A watch is asked for, and made. -/
def Input.rewatched (s : EpollBackend) (fd : RawFd) : Input → Bool
  | .setWatch ctl fd' readable writable =>
    fd' = fd && (readable || writable) && (setWatchError ctl fd' readable writable s).isNone
  | _ => false

instance (operated : Bool) (e : FdEntry) : Decidable (Watchable operated e) :=
  inferInstanceAs (Decidable (_ ∨ _))

namespace World

def entry (w : World) (fd : RawFd) : Option FdEntry := w.backend.fds.get fd

def mask (w : World) (fd : RawFd) : Option Mask := w.kernel.mask fd

/-- On a number reused without notice, `set_watch` is in order while its entry is watched and has
nothing parked, or had no operation since it was made: a socket is detached before it is closed, or
registered again first.  A post is in order on a socket registered. -/
def orderly (w : World) : Happening → Bool
  | .call (.setWatch _ fd _ _) =>
    !w.recycled fd || (w.entry fd).all fun e => decide (Watchable (w.operated fd) e)
  | .call i => i.socket.all fun fd => !w.recycled fd
  | _ => true

/-- A call, if the kernel can have answered so. -/
def call (w : World) (i : Input) : Option World :=
  let s := step w.backend i
  ((s.fds.ctls.drop w.backend.fds.ctls.length).foldlM Kernel.ctl w.kernel).map fun kernel =>
    { backend := s
      kernel
      recycled := fun fd => w.recycled fd && !i.rewatched w.backend fd && (s.fds.get fd).isSome
      operated := fun fd => (w.operated fd || i.socket = some fd) && (s.fds.get fd).isSome }

def happen (w : World) : Happening → Option World
  | .call i => w.call i
  | .setWakeOnly fd => some { w with backend := Epoll.setWakeOnly fd w.backend }
  | .reopen fd opened =>
    some { w with
      kernel := w.kernel.reopen fd opened
      recycled := fun fd' => w.recycled fd' || (fd' = fd && (w.entry fd).isSome) }

end World

def world : System World Happening where
  init := ⟨.new, .new, fun _ => false, fun _ => false⟩
  step w e := if w.orderly e then w.happen e else none

structure Coherent (w : World) : Prop where
  proper : w.kernel.Proper
  marked : w.backend.fds.Marked
  tied : ∀ fd, Tied (w.recycled fd) (w.operated fd) (w.entry fd) (w.mask fd)

/-! ## 3. One call -/

/-- What a call leaves in the table and in the kernel. -/
structure Settled (w : World) (i : Input) (t : FdTable) (k : Kernel) : Prop where
  proper : k.Proper
  marked : t.Marked
  tied : ∀ fd, Tied (w.recycled fd && !i.rewatched w.backend fd) (w.operated fd || i.socket = some fd)
    (t.get fd) (k.mask fd)
  -- a post that fails may leave what is not armed
  kept : ∀ fd, (∀ r, post w.backend i = some r → i.socket = some fd → ∃ id, r.1 = .ok id) →
    Armed (w.entry fd) (w.mask fd) → Armed (t.get fd) (k.mask fd)

section Call

variable {w : World} {i : Input} {t : FdTable} {k : Kernel} {fd : RawFd}

theorem settled_of_waning (h : Coherent w) (hunwatched : ∀ fd, i.rewatched w.backend fd = false)
    (hwaning : Waning w.backend.fds t)
    (hk : (t.ctls.drop w.backend.fds.ctls.length).foldlM Kernel.ctl w.kernel = some k) : Settled w i t k := by
  obtain ⟨hproper, hwanes⟩ := hwaning.wanes.replayed hk h.proper
  refine ⟨hproper, hwaning.marked h.marked, fun fd => ?_, fun fd _ harmed => (hwanes fd).armed harmed⟩
  apply ((hwanes fd).tied (h.tied fd)).weaken
  · rw [hunwatched fd]
    simp
  · exact fun hplain => (Bool.or_eq_false_iff.mp hplain).1

/-- A change at one descriptor. -/
theorem settled_of_one (h : Coherent w) (hproper : k.Proper) (hmarked : t.Marked)
    (hothers : ∀ fd', fd' ≠ fd → t.get fd' = w.entry fd' ∧ k.mask fd' = w.mask fd')
    (hunwatched : ∀ fd', fd' ≠ fd → i.rewatched w.backend fd' = false)
    (htied : Tied (w.recycled fd && !i.rewatched w.backend fd) (w.operated fd || i.socket = some fd)
      (t.get fd) (k.mask fd))
    (hkept : (∀ r, post w.backend i = some r → i.socket = some fd → ∃ id, r.1 = .ok id) →
      Armed (w.entry fd) (w.mask fd) → Armed (t.get fd) (k.mask fd)) : Settled w i t k := by
  refine ⟨hproper, hmarked, fun fd' => ?_, fun fd' => ?_⟩
  · by_cases hfd : fd' = fd
    · rw [hfd]
      exact htied
    · rw [(hothers fd' hfd).1, (hothers fd' hfd).2]
      apply (h.tied fd').weaken
      · rw [hunwatched fd' hfd]
        simp
      · exact fun hplain => (Bool.or_eq_false_iff.mp hplain).1
  · by_cases hfd : fd' = fd
    · rw [hfd]
      exact hkept
    · rw [(hothers fd' hfd).1, (hothers fd' hfd).2]
      exact fun _ harmed => harmed

/-- What `set_watch` finds, if it is in order, or makes. -/
theorem watchable_entry {ctl : Ctl} {readable writable : Bool} (h : Coherent w)
    (horderly : w.orderly (.call (.setWatch ctl fd readable writable)) = true) :
    ∃ recycled operated, Tied recycled operated (some (w.backend.fds.entry fd).1) (w.mask fd) ∧
      (recycled = true → Watchable operated (w.backend.fds.entry fd).1) ∧
      (w.recycled fd = false → recycled = false) ∧ (w.operated fd = false → operated = false) := by
  cases hslot : w.backend.fds.slots fd with
  | none =>
    have htied := h.tied fd
    have hgone : w.entry fd = none := hslot
    rw [hgone] at htied
    have habsent : Tied false false (w.backend.fds.get fd) (w.mask fd) := by
      rw [FdTable.get, hslot]
      exact (htied.absent false false).2
    exact ⟨false, false, habsent.created, fun hfalse => (by cases hfalse), fun _ => rfl, fun _ => rfl⟩
  | some e =>
    have hthere : (w.backend.fds.entry fd).1 = e := by rw [FdTable.entry, hslot]
    refine ⟨w.recycled fd, w.operated fd, (h.tied fd).created, fun hrecycled => ?_, fun hr => hr, fun ho => ho⟩
    have hget : w.entry fd = some e := hslot
    rw [World.orderly, hrecycled, hget] at horderly
    rw [hthere]
    simpa using horderly

theorem settled_watch {ctl : Ctl} {readable writable : Bool} (h : Coherent w)
    (horderly : w.orderly (.call (.setWatch ctl fd readable writable)) = true)
    (hk : ((setWatch ctl fd readable writable w.backend).fds.ctls.drop w.backend.fds.ctls.length).foldlM
      Kernel.ctl w.kernel = some k) :
    Settled w (.setWatch ctl fd readable writable) (setWatch ctl fd readable writable w.backend).fds k ∧
      (setWatchError ctl fd readable writable w.backend = none →
        Armed ((setWatch ctl fd readable writable w.backend).fds.get fd) (k.mask fd)) := by
  by_cases hskip : ¬ readable = true ∧ ¬ writable = true ∧ (w.backend.fds.get fd).isNone = true
  · have hsame : (setWatch ctl fd readable writable w.backend).fds = w.backend.fds := by
      rw [setWatch, if_pos hskip]
    have hgone : w.backend.fds.get fd = none := by simpa using hskip.2.2
    have hnothing : ∀ fd', (Input.setWatch ctl fd readable writable).rewatched w.backend fd' = false := by
      intro fd'
      simp [Input.rewatched, hskip.1, hskip.2.1]
    rw [hsame] at hk ⊢
    exact ⟨settled_of_waning h hnothing (.refl _) hk, fun _ => by rw [hgone]; exact nofun⟩
  obtain ⟨hmarked, hothers, hlogs⟩ := setWatch_at ctl w.backend hskip
  obtain ⟨hproper, hmasks, synced, hsync, hrestored⟩ := hlogs.replayed hk h.proper
  obtain ⟨recycled, operated, htied, hwatchable, hrecycled, hoperated⟩ := watchable_entry h horderly
  have hunwatched : ∀ fd', fd' ≠ fd →
      (Input.setWatch ctl fd readable writable).rewatched w.backend fd' = false := by
    intro fd' hne
    simp [Input.rewatched, hne.symm]
  cases herror : setWatchError ctl fd readable writable w.backend with
  | none =>
    rw [herror] at hsync hrestored
    obtain ⟨harmed, hsettled, hfresh⟩ := watch_arms htied hwatchable hsync
    have hentry : (setWatch ctl fd readable writable w.backend).fds.get fd = synced := by
      rcases hrestored with ⟨-, hentry⟩ | ⟨hfailed, -⟩
      · exact hentry
      · exact absurd rfl hfailed
    rw [hentry]
    refine ⟨settled_of_one h hproper (hmarked h.marked) (fun fd' hne => ⟨hothers fd' hne, hmasks fd' hne⟩)
      hunwatched ?_ fun _ _ => ?_, fun _ => harmed⟩
    · rw [hentry]
      -- a side watched is armed anew: the number is no other file's
      cases hwanted : readable || writable with
      | false =>
        apply hsettled.weaken
        · simpa [Input.rewatched, hwanted] using hrecycled
        · exact fun hplain => hoperated (Bool.or_eq_false_iff.mp hplain).1
      | true =>
        apply (hfresh hwanted).weaken
        · exact fun _ => rfl
        · exact fun hplain => hoperated (Bool.or_eq_false_iff.mp hplain).1
    · rw [hentry]
      exact harmed
  | some e₀ =>
    rw [herror] at hsync hrestored
    refine ⟨settled_of_one h hproper (hmarked h.marked) (fun fd' hne => ⟨hothers fd' hne, hmasks fd' hne⟩)
      hunwatched ?_ fun _ harmed => ?_, fun hok => (by cases hok)⟩
    · apply (watch_fails htied hsync hrestored).weaken
      · simpa [Input.rewatched, herror] using hrecycled
      · exact fun hplain => hoperated (Bool.or_eq_false_iff.mp hplain).1
    · exact watch_keeps (Armed.created harmed) hsync hrestored

theorem orderly_post (hsocket : i.socket = some fd) (horderly : w.orderly (.call i) = true) :
    w.recycled fd = false := by
  cases i <;> simp only [Input.socket, Option.some.injEq, reduceCtorEq] at hsocket
  all_goals
    subst hsocket
    simpa [World.orderly, Input.socket] using horderly

theorem rewatched_post (hsocket : i.socket = some fd) (s : EpollBackend) (fd' : RawFd) :
    i.rewatched s fd' = false := by
  cases i <;> first | rfl | cases hsocket

theorem settled_post {r : Except PostError OpId × EpollBackend} (h : Coherent w)
    (horderly : w.orderly (.call i) = true) (hpost : post w.backend i = some r)
    (hk : (r.2.fds.ctls.drop w.backend.fds.ctls.length).foldlM Kernel.ctl w.kernel = some k) :
    Settled w i r.2.fds k ∧
      ∀ fd side id, i.socket = some fd → r.1 = .ok id → w.backend.fds.parked fd side = none →
        r.2.fds.parked fd side = some id → Armed (r.2.fds.get fd) (k.mask fd) := by
  obtain ⟨socket, hsocket, htable⟩ := post_table hpost
  have hunwatched : ∀ fd', i.rewatched w.backend fd' = false := rewatched_post hsocket w.backend
  rcases htable with hwaning | ⟨ctl, side, id, -, hfds, hok⟩
  · refine ⟨settled_of_waning h hunwatched hwaning hk, fun fd side id _ _ hfree hparked => ?_⟩
    have hbefore := hwaning.parked fd side id hparked
    rw [hfree] at hbefore
    cases hbefore
  rw [hfds] at hk ⊢
  obtain ⟨hmarked, hothers, hlogs⟩ := parkSync_at ctl socket side id w.backend.fds
  obtain ⟨hproper, hmasks, hsync⟩ := hlogs.replayed hk h.proper
  have hentry : Tied false (w.operated socket) (some (w.backend.fds.entry socket).1) (w.mask socket) := by
    have hfresh := (h.tied socket).created
    rw [orderly_post hsocket horderly] at hfresh
    exact hfresh
  obtain ⟨htied, harms⟩ := park_arms hentry hsync
  refine ⟨settled_of_one h hproper (hmarked h.marked) (fun fd' hne => ⟨hothers fd' hne, hmasks fd' hne⟩)
    (fun fd' _ => hunwatched fd') ?_ fun hposted _ => ?_, fun fd side' id' hfd hposted _ _ => ?_⟩
  · rw [hsocket, decide_eq_true rfl, Bool.or_true]
    exact htied.weaken (fun _ => rfl) fun hplain => hplain
  · obtain ⟨id', hposted⟩ := hposted r hpost hsocket
    exact harms (hok id' hposted)
  · rw [hsocket] at hfd
    injection hfd with hfd
    exact hfd ▸ harms (hok id' hposted)

theorem settled_call (h : Coherent w) (horderly : w.orderly (.call i) = true)
    (hk : ((step w.backend i).fds.ctls.drop w.backend.fds.ctls.length).foldlM Kernel.ctl w.kernel = some k) :
    Settled w i (step w.backend i).fds k := by
  cases hpost : post w.backend i with
  | some r =>
    have hstep : (step w.backend i).fds = r.2.fds := by
      unfold step
      rw [hpost]
      exact posted_fds r
    rw [hstep] at hk ⊢
    exact (settled_post h horderly hpost hk).1
  | none =>
    cases hwatch : i.watches with
    | false =>
      have hunwatched : ∀ fd, i.rewatched w.backend fd = false := by
        intro fd
        cases i <;> first | rfl | cases hwatch
      exact settled_of_waning h hunwatched (call_waning hpost hwatch) hk
    | true =>
      cases i with
      | setWatch ctl fd readable writable => exact (settled_watch h horderly hk).1
      | _ => cases hwatch

end Call

/-! ## 4. Histories -/

theorem Coherent.init : Coherent world.init where
  proper := .new
  marked := .empty
  tied _ := ⟨⟨nofun, nofun, nofun, nofun⟩, nofun⟩

/-- Out of the set, for all the entry says. -/
theorem Tied.lost {recycled operated : Bool} {entry : Option FdEntry} {m : Option Mask}
    (h : Tied recycled operated entry m) : Tied true operated entry none where
  registered := ⟨nofun, nofun, h.registered.unregistered, nofun⟩
  masked := h.masked

variable {w w' : World} {i : Input} {fd : RawFd}

theorem Coherent.call (h : Coherent w) (horderly : w.orderly (.call i) = true) (hcall : w.call i = some w') :
    Coherent w' := by
  unfold World.call at hcall
  obtain ⟨k, hk, rfl⟩ := Option.map_eq_some_iff.mp hcall
  have hsettled := settled_call h horderly hk
  refine ⟨hsettled.proper, hsettled.marked, fun fd => ?_⟩
  have htied := hsettled.tied fd
  show Tied (w.recycled fd && !i.rewatched w.backend fd && ((step w.backend i).fds.get fd).isSome)
    ((w.operated fd || decide (i.socket = some fd)) && ((step w.backend i).fds.get fd).isSome)
    ((step w.backend i).fds.get fd) (k.mask fd)
  cases hget : (step w.backend i).fds.get fd with
  | none =>
    rw [hget] at htied
    exact (htied.absent _ _).2
  | some e =>
    rw [hget] at htied
    simpa only [Option.isSome_some, Bool.and_true] using htied

theorem Coherent.setWakeOnly (h : Coherent w) (fd : Option RawFd) :
    Coherent { w with backend := Epoll.setWakeOnly fd w.backend } where
  proper := h.proper
  marked := h.marked.setWakeFd fd
  tied := h.tied

theorem Coherent.reopen (h : Coherent w) (fd : RawFd) (opened : Bool) :
    Coherent { w with
      kernel := w.kernel.reopen fd opened
      recycled := fun fd' => w.recycled fd' || (fd' = fd && (w.entry fd).isSome) } := by
  have hcalled := Kernel.reopen_called h.proper fd opened
  refine ⟨hcalled.proper, h.marked, fun fd' => ?_⟩
  show Tied (w.recycled fd' || (decide (fd' = fd) && (w.entry fd).isSome)) (w.operated fd') (w.entry fd')
    ((w.kernel.reopen fd opened).mask fd')
  by_cases hfd : fd' = fd
  · subst hfd
    rw [hcalled.mask]
    have hlost := (h.tied fd').lost
    cases hget : w.entry fd' with
    | none =>
      rw [hget] at hlost
      exact (hlost.absent _ _).2
    | some e =>
      rw [hget] at hlost
      simpa using hlost
  · rw [hcalled.others fd' hfd, decide_eq_false hfd, Bool.false_and, Bool.or_false]
    exact h.tied fd'

theorem coherent_of_reachable (h : world.Reachable w) : Coherent w := by
  refine world.invariant Coherent.init (fun w e w' hstep hw => ?_) h
  change (if w.orderly e then w.happen e else none) = some w' at hstep
  split at hstep
  · rename_i horderly
    cases e with
    | call i => exact hw.call horderly hstep
    | setWakeOnly fd =>
      injection hstep with hstep
      exact hstep ▸ hw.setWakeOnly fd
    | reopen fd opened =>
      injection hstep with hstep
      exact hstep ▸ hw.reopen fd opened
  · cases hstep

/-- What a call does for what is wanted. -/
structure Covered (w w' : World) (i : Input) : Prop where
  watched : ∀ ctl fd readable writable, i = .setWatch ctl fd readable writable →
    setWatchError ctl fd readable writable w.backend = none → Armed (w'.entry fd) (w'.mask fd)
  -- a post that parks, on a side that was free
  parked : ∀ fd side r id, i.socket = some fd → post w.backend i = some r → r.1 = .ok id →
    w.backend.fds.parked fd side = none → r.2.fds.parked fd side = some id → Armed (w'.entry fd) (w'.mask fd)
  -- whatever the call: but a post that fails may leave its operation parked
  kept : ∀ fd, (∀ r, post w.backend i = some r → i.socket = some fd → ∃ id, r.1 = .ok id) →
    Armed (w.entry fd) (w.mask fd) → Armed (w'.entry fd) (w'.mask fd)
  -- when a side fires that has no consumer as its event comes to be handled
  disarmed : ∀ timeout es fd readReady writeReady read write readCtl writeCtl tail later side,
    i = .poll timeout (.events
      (es ++ .fd fd readReady writeReady read write readCtl writeCtl tail :: later)) →
    (if side then writeReady else readReady) = true →
    Idle side ((es.foldl handle (takeStaged w.backend)).fds.get fd) →
    (∀ side', Idle side' ((es.foldl handle (takeStaged w.backend)).fds.get fd) →
        Off side' (w'.entry fd) (w'.mask fd)) ∧
      ((∀ side', Idle side' ((es.foldl handle (takeStaged w.backend)).fds.get fd)) → w'.mask fd = none)

theorem covered_of_coherent (h : Coherent w) (horderly : w.orderly (.call i) = true)
    (hcall : w.call i = some w') : Covered w w' i := by
  have hafter := h.call horderly hcall
  unfold World.call at hcall
  obtain ⟨k, hk, rfl⟩ := Option.map_eq_some_iff.mp hcall
  refine ⟨?_, ?_, (settled_call h horderly hk).kept, ?_⟩
  · rintro ctl fd readable writable rfl hok
    exact (settled_watch h horderly hk).2 hok
  · intro fd side r id hsocket hpost hok hfree hparked
    have hstep : (step w.backend i).fds = r.2.fds := by
      unfold step
      rw [hpost]
      exact posted_fds r
    rw [hstep] at hk
    show Armed ((step w.backend i).fds.get fd) (k.mask fd)
    rw [hstep]
    exact (settled_post h horderly hpost hk).2 fd side id hsocket hok hfree hparked
  · rintro timeout es fd readReady writeReady read write readCtl writeCtl tail later side rfl hfired hidle
    have hoff : ∀ side', Idle side' ((es.foldl handle (takeStaged w.backend)).fds.get fd) →
        Off side' ((step w.backend (.poll timeout (.events
          (es ++ .fd fd readReady writeReady read write readCtl writeCtl tail :: later)))).fds.get fd) (k.mask fd) := by
      intro side' hidle'
      exact (poll_off (w.recycled fd) (w.operated fd) h.marked timeout es later read write readCtl writeCtl tail
        hfired hidle hidle').replayed hk h.proper (h.tied fd)
    refine ⟨hoff, fun hboth => ?_⟩
    show k.mask fd = none
    cases hm : k.mask fd with
    | none => rfl
    | some m =>
      have hnone : m = .none := Mask.eq_none_of_sides fun side' => (hoff side' (hboth side')).masked m hm
      have hevents : k.mask fd ≠ some .none := (hafter.tied fd).registered.events
      exact absurd (hnone ▸ hm) hevents

/-- **Kernel interest covers wanted interest**, in every history of calls between which descriptors
are closed and their numbers reused; and the table's counts are right. -/
theorem kernel_covers_wanted (h : world.Reachable w) :
    (w.backend.fds.Marked ∧
        w.backend.fds.interestLen + w.backend.fds.wakePresent.toNat = w.backend.fds.live) ∧
      ∀ i w', world.step w (.call i) = some w' → Covered w w' i := by
  have hcoherent := coherent_of_reachable h
  refine ⟨⟨hcoherent.marked, hcoherent.marked.interestLen⟩, fun i w' hstep => ?_⟩
  change (if w.orderly (.call i) then w.call i else none) = some w' at hstep
  split at hstep
  · rename_i horderly
    exact covered_of_coherent hcoherent horderly hstep
  · cases hstep

/-- A watched descriptor is closed, and its number watched again: the MOD fails, and the file now there
is added. -/
theorem kernel_covers_wanted_reused : ∃ w w', world.replay
      [.reopen 5 true, .call (.setWatch ⟨none, none⟩ 5 true false), .reopen 5 true] = some w ∧
    world.step w (.call (.setWatch ⟨some enoent, none⟩ 5 true false)) = some w' ∧
    Armed (w'.entry 5) (w'.mask 5) ∧ w'.mask 5 = some ⟨true, false⟩ := by
  have harmed : ∀ w w', world.replay
      [.reopen 5 true, .call (.setWatch ⟨none, none⟩ 5 true false), .reopen 5 true] = some w →
      world.step w (.call (.setWatch ⟨some enoent, none⟩ 5 true false)) = some w' →
      setWatchError ⟨some enoent, none⟩ 5 true false w.backend = none → Armed (w'.entry 5) (w'.mask 5) := by
    intro w w' hrun hstep hok
    exact ((kernel_covers_wanted ⟨_, hrun⟩).2 _ w' hstep).watched _ 5 true false rfl hok
  exact ⟨_, _, rfl, rfl, harmed _ _ rfl rfl rfl, rfl⟩

end Cadeloop.Core.Epoll
