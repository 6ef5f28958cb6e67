import Cadeloop.Core.EpollOnce

/-!
# Posts that fail

A post that returns an error has taken its operation back: nothing of it is left in the slab or on
its descriptor, and no completion for it is ever handed out.  Only one way out of a post does not:
where the operation has parked and `epoll_ctl` then fails, it stays parked.  Nothing is assumed here
of how the caller registers and detaches its sockets.
-/

namespace Cadeloop.Core.Epoll

open Cadeloop.Reasoning
open Ops (OpId OpKind OpState OpSlot)
open EpollBackend

/-! ## 1. What a call does to the slab -/

/-- Every operation of the slab but `post`. -/
def calls {D : Type*} : Ops.Op D → Bool
  | .post _ _ => false
  | _ => true

/-- From one slab to another without a post. -/
def Called (slab slab' : Ops.Run EpollOp) : Prop :=
  Relation.ReflTransGen (fun a b => ∃ op, calls op = true ∧ b = a.step op) slab slab'

def Live (slab : Ops.Run EpollOp) (id : OpId) : Prop := ∃ slot, slab.slab.get id = some slot

/-- A slot rewritten resolves no id that it did not. -/
theorem live_setSlot {slab : Ops.OpSlab EpollOp} {i : UInt32} {slot slot' x : OpSlot EpollOp} {id : OpId}
    (hget : (slab.setSlot i slot').get id = some x) (hslot : slab.slot i = some slot)
    (hlive : slot'.state ≠ .free → slot.state ≠ .free ∧ slot'.generation = slot.generation) :
    ∃ y, slab.get id = some y := by
  rw [Ops.OpSlab.get_setSlot hslot] at hget
  split at hget
  · rename_i hindex
    split at hget
    · rename_i hcur
      obtain ⟨hused, hgen⟩ := hlive hcur.2
      exact ⟨slot, Ops.OpSlab.get_eq_some.mpr ⟨hindex ▸ hslot, hgen ▸ hcur.1, hused⟩⟩
    · cases hget
  · exact ⟨x, hget⟩

/-- Only a post makes an id live. -/
theorem live_of_step {slab : Ops.Run EpollOp} {op : Ops.Op EpollOp} (hop : calls op = true) {id : OpId}
    (h : Live (slab.step op) id) : Live slab id := by
  obtain ⟨x, hget⟩ := h
  cases op with
  | post addr kind => cases hop
  | get id' => exact ⟨x, hget⟩
  | state id' => exact ⟨x, hget⟩
  | getMut id' f =>
    have hget : (slab.slab.getMut id' f).get id = some x := hget
    unfold Ops.OpSlab.getMut at hget
    split at hget
    · exact ⟨x, hget⟩
    · rename_i slot hold
      obtain ⟨hslot, -, -⟩ := Ops.OpSlab.get_eq_some.mp hold
      exact live_setSlot hget hslot fun hused => ⟨hused, rfl⟩
  | markCancelled id' =>
    have hget : (slab.slab.markCancelled id').2.get id = some x := hget
    unfold Ops.OpSlab.markCancelled at hget
    split at hget
    · exact ⟨x, hget⟩
    · rename_i slot hold
      obtain ⟨hslot, -, hused⟩ := Ops.OpSlab.get_eq_some.mp hold
      split at hget
      · exact live_setSlot hget hslot fun _ => ⟨hused, rfl⟩
      all_goals exact ⟨x, hget⟩
  | complete id' =>
    have hget : (slab.slab.complete id').2.get id = some x := hget
    unfold Ops.OpSlab.complete at hget
    split at hget
    · exact ⟨x, hget⟩
    rename_i slot hslot
    split at hget
    · exact ⟨x, hget⟩
    split at hget
    · rename_i hstate
      exact live_setSlot hget hslot fun _ => ⟨by rw [hstate]; decide, rfl⟩
    · rename_i hstate
      exact live_setSlot hget hslot fun _ => ⟨by rw [hstate]; decide, rfl⟩
    all_goals exact ⟨x, hget⟩
  | release id' =>
    have hget : (slab.slab.release id').get id = some x := hget
    unfold Ops.OpSlab.release at hget
    split at hget
    · exact ⟨x, hget⟩
    rename_i slot hslot
    split at hget
    · exact live_setSlot hget hslot fun hused => absurd rfl hused
    · exact ⟨x, hget⟩

theorem Called.refl (slab : Ops.Run EpollOp) : Called slab slab := Relation.ReflTransGen.refl

theorem Called.one (slab : Ops.Run EpollOp) (op : Ops.Op EpollOp) (hop : calls op = true) :
    Called slab (slab.step op) := Relation.ReflTransGen.single ⟨op, hop, rfl⟩

theorem Called.trans {a b c : Ops.Run EpollOp} (h : Called a b) (h' : Called b c) : Called a c :=
  Relation.ReflTransGen.trans h h'

theorem Called.live {a b : Ops.Run EpollOp} (h : Called a b) {id : OpId} (hid : Live b id) :
    Live a id := by
  induction h with
  | refl => exact hid
  | tail _ hstep ih =>
    obtain ⟨op, hop, rfl⟩ := hstep
    exact ih (live_of_step hop hid)

theorem step_books {slab : Ops.Run EpollOp} {op : Ops.Op EpollOp} (hop : calls op = true) :
    (slab.step op).book.issued = slab.book.issued ∧
      slab.book.recycled <+: (slab.step op).book.recycled := by
  have hbackend : ∀ {s s' : EpollBackend}, Books s s' → s.slab = slab → s'.slab = slab.step op →
      (slab.step op).book.issued = slab.book.issued ∧
        slab.book.recycled <+: (slab.step op).book.recycled := by
    rintro s s' hbooks rfl hslab
    rw [← hslab]
    exact ⟨hbooks.issued, hbooks.recycled⟩
  cases op with
  | post addr kind => cases hop
  | get id => exact ⟨rfl, List.prefix_refl _⟩
  | state id => exact ⟨rfl, List.prefix_refl _⟩
  | getMut id f => exact ⟨rfl, List.prefix_refl _⟩
  | markCancelled id => exact hbackend (markCancelled_books id { EpollBackend.new with slab := slab }) rfl rfl
  | complete id => exact hbackend (complete_books id { EpollBackend.new with slab := slab }) rfl rfl
  | release id => exact hbackend (release_books id { EpollBackend.new with slab := slab }) rfl rfl

theorem Called.books {a b : Ops.Run EpollOp} (h : Called a b) :
    b.book.issued = a.book.issued ∧ a.book.recycled <+: b.book.recycled := by
  induction h with
  | refl => exact ⟨rfl, List.prefix_refl _⟩
  | tail _ hstep ih =>
    obtain ⟨op, hop, rfl⟩ := hstep
    obtain ⟨hissued, hrecycled⟩ := step_books hop
    exact ⟨hissued.trans ih.1, ih.2.trans hrecycled⟩

/-- Whatever is done to a slab keeps it good, if no slot is recycled 2^32 times. -/
theorem Called.good {a b : Ops.Run EpollOp} (h : Called a b) (hgood : Ops.Good a)
    (hroom : ∀ i, Recycling.recyclings b.book.recycled i < 2 ^ 32) : Ops.Good b := by
  induction h with
  | refl => exact hgood
  | tail _ hstep ih =>
    obtain ⟨op, hop, rfl⟩ := hstep
    obtain ⟨-, hrecycled⟩ := step_books hop
    have hbefore := ih fun i => lt_of_le_of_lt hrecycled.sublist.countP_le (hroom i)
    cases op with
    | post addr kind => cases hop
    | get id => exact hbefore
    | state id => exact hbefore
    | getMut id f => exact hbefore.getMut id f
    | markCancelled id => exact hbefore.markCancelled id
    | complete id => exact hbefore.complete id
    | release id => exact hbefore.release id (Ops.Run.fits_release hbefore id hroom)

/-! ## 2. Calls that are not posts -/

variable {s s' s'' : EpollBackend} {own : List OpId} {id : OpId}

/-- An operation that is over, or never was: nothing of it is in the backend. -/
structure Absent (id : OpId) (s : EpollBackend) : Prop where
  gone : ¬ Live s.slab id
  parked : ¬ s.Parked id
  completed : id ∉ s.completed

/-- From `s` to `s'` no operation but those of `own` comes up that was absent. -/
structure Draws (own : List OpId) (s s' : EpollBackend) : Prop where
  called : Called s.slab s'.slab
  absent : ∀ id, id ∉ own → Absent id s → Absent id s'

theorem Draws.refl (own : List OpId) (s : EpollBackend) : Draws own s s := ⟨.refl _, fun _ _ h => h⟩

theorem Draws.trans (h : Draws own s s') (h' : Draws own s' s'') : Draws own s s'' where
  called := h.called.trans h'.called
  absent id hid habsent := h'.absent id hid (h.absent id hid habsent)

theorem Draws.books (h : Draws own s s') : Books s s' := ⟨h.called.books.1, h.called.books.2⟩

theorem Draws.mono {more : List OpId} (h : Draws own s s') (hsub : own ⊆ more) : Draws more s s' where
  called := h.called
  absent id hid := h.absent id fun hin => hid (hsub hin)

/-- An operation the backend has is not absent. -/
theorem Draws.drop (h : Draws [id] s s') (hid : ¬ Absent id s) : Draws [] s s' where
  called := h.called
  absent id' _ habsent := by
    apply h.absent id' _ habsent
    intro hin
    rw [List.mem_singleton.mp hin] at habsent
    exact hid habsent

theorem Draws.of_places (hcalled : Called s.slab s'.slab)
    (hparked : ∀ id, id ∉ own → s'.Parked id → s.Parked id)
    (hcompleted : ∀ id, id ∉ own → id ∈ s'.completed → id ∈ s.completed) : Draws own s s' where
  called := hcalled
  absent id hid h :=
    ⟨fun hlive => h.gone (hcalled.live hlive), fun hat => h.parked (hparked id hid hat),
      fun hdone => h.completed (hcompleted id hid hdone)⟩

/-- One operation on the slab. -/
theorem Draws.call (own : List OpId) (s : EpollBackend) (op : Ops.Op EpollOp) (hop : calls op = true) :
    Draws own s { s with slab := s.slab.step op } :=
  .of_places (.one _ op hop) (fun _ _ h => h) fun _ _ h => h

/-- A table in which nothing more is parked. -/
theorem Draws.table (own : List OpId) (s : EpollBackend) {fds : FdTable}
    (hfds : ∀ fd w id, fds.parked fd w = some id → s.fds.parked fd w = some id) :
    Draws own s { s with fds := fds } := by
  refine .of_places (.refl _) (fun id _ hat => ?_) fun _ _ h => h
  obtain ⟨fd, w, hid⟩ := hat
  exact ⟨fd, w, hfds fd w id hid⟩

theorem Draws.stage (s : EpollBackend) (id : OpId) (bytes osError : Nat) :
    Draws [id] s (s.stage (.io id bytes osError)) := by
  refine .of_places (.refl _) (fun _ _ h => h) fun id' hid hdone => ?_
  rw [completed_stage] at hdone
  rcases List.mem_append.mp hdone with hbefore | hnow
  · exact hbefore
  · exact absurd hnow hid

theorem Draws.deliver (s : EpollBackend) (id : OpId) (bytes osError : Nat) :
    Draws [id] s { s with delivered := s.delivered ++ [.io id bytes osError] } := by
  refine .of_places (.refl _) (fun _ _ h => h) fun id' hid hdone => ?_
  rcases List.mem_append.mp ((completed_deliver s id bytes osError).mem_iff.mp hdone) with hbefore | hnow
  · exact hbefore
  · exact absurd hnow hid

theorem Draws.finishInline (s : EpollBackend) (id : OpId) (bytes osError : Nat) :
    Draws [id] s (s.finishInline id bytes osError) :=
  ((Draws.call [id] s (.complete id) rfl).trans (.call [id] (s.complete id) (.release id) rfl)).trans (.stage _ id bytes osError)

/-- What touches neither the slab nor the places, and completes nothing. -/
theorem Draws.of_same (own : List OpId) (hslab : s'.slab = s.slab) (hfds : s'.fds = s.fds)
    (hcompleted : s'.completed = s.completed) : Draws own s s' := by
  refine .of_places (hslab ▸ .refl _) (fun id _ hat => ?_) fun id _ hdone => hcompleted ▸ hdone
  obtain ⟨fd, w, hid⟩ := hat
  exact ⟨fd, w, hfds ▸ hid⟩

theorem attempt_draws (own : List OpId) (answer : Answer) (id : OpId) (s : EpollBackend) :
    Draws own s (attempt answer id s).2 := by
  obtain ⟨-, hfds, hcompleted, -, -⟩ := attempt_frame answer id s
  refine .of_places ?_ (fun id' _ hat => ?_) fun id' _ hdone => hcompleted ▸ hdone
  · unfold attempt
    split
    · exact .refl _
    dsimp only
    split
    · exact .one s.slab (.getMut id _) rfl
    · exact .one s.slab (.getMut id _) rfl
  · obtain ⟨fd, w, hid⟩ := hat
    exact ⟨fd, w, hfds ▸ hid⟩

theorem syncInterest_draws (own : List OpId) (lazily : Bool) (ctl : Ctl) (fd : RawFd) (s : EpollBackend) :
    Draws own s { s with fds := (syncInterest lazily ctl fd s.fds).2 } :=
  .table own s fun fd' w id hid => by rwa [syncInterest_parked] at hid

theorem driveSide_draws (answer : Answer) (ctl : Ctl) (fd : RawFd) (w : Bool) (s : EpollBackend) :
    Draws [] s (driveSide answer ctl fd w s).2 := by
  unfold driveSide
  split
  · exact .refl [] s
  rename_i id hid
  -- whatever happens happens to the operation parked there
  have hhere : ¬ Absent id s := fun habsent => habsent.parked ⟨fd, w, hid⟩
  apply Draws.drop _ hhere
  extract_lets recvLen
  have htry := attempt_draws [id] answer id s
  rcases hresult : attempt answer id s with ⟨outcome, s₁⟩
  rw [hresult] at htry
  cases outcome with
  | none => exact htry
  | some result =>
    dsimp -zeta only at htry ⊢
    extract_lets fds t kind ended tail
    have hfds : ∀ fd' w' id', fds.parked fd' w' = some id' → s₁.fds.parked fd' w' = some id' := by
      intro fd' w' id' hat
      dsimp only [fds] at hat
      split at hat
      · exact hat
      · rename_i entry hentry
        rw [FdTable.parked_emptied (w := w) hentry] at hat
        · split at hat
          · cases hat
          · exact hat
        · intro w'
          clear_value recvLen
          cases recvLen <;> rfl
    have hsynced : Draws [id] s₁ t :=
      .table [id] s₁ fun fd' w' id' hat => hfds fd' w' id' (by rwa [syncInterest_parked] at hat)
    have hended : Draws [id] s ended := (htry.trans hsynced).trans (.call [id] t (.complete id) rfl)
    have hrecycled : Draws [id] s (release id ended) := hended.trans (.call [id] ended (.release id) rfl)
    apply Draws.trans _ (.deliver tail id result.1 result.2)
    dsimp only [tail]
    clear_value kind ended
    split
    · split
      · exact hended
      · exact hrecycled
    · split
      · exact hended
      · exact hrecycled
    · exact hrecycled

theorem driveReady_draws (ready : Bool) (answer : Answer) (ctl : Ctl) (fd : RawFd) (w : Bool)
    (s : EpollBackend) : Draws [] s (driveReady ready answer ctl fd w s).2 := by
  unfold driveReady
  split
  · exact driveSide_draws answer ctl fd w s
  · exact .refl [] s

theorem handle_draws (s : EpollBackend) (ev : Event) : Draws [] s (handle s ev) := by
  have hother : ∀ (s : EpollBackend) (c : Completion), ioOp c = none →
      Draws [] s { s with delivered := s.delivered ++ [c] } := by
    intro s c hc
    refine Draws.of_same [] rfl rfl ?_
    show ios (s.delivered ++ [c]) ++ _ = _
    rw [ios, List.filterMap_append, List.filterMap_cons, hc]
    simp [EpollBackend.completed, ios]
  cases ev with
  | wake =>
    have harmed : Draws [] s { s with armed := false } := .of_same [] rfl rfl rfl
    exact harmed.trans (hother _ .wakeup rfl)
  | fd fd readReady writeReady read write readCtl writeCtl tail =>
    have hread := driveReady_draws readReady read readCtl fd false s
    have hwrite := driveReady_draws writeReady write writeCtl fd true
      (driveReady readReady read readCtl fd false s).2
    apply (hread.trans hwrite).trans
    show Draws [] _ (let r := driveReady readReady read readCtl fd false s
      let w := driveReady writeReady write writeCtl fd true r.2
      let s := w.2
      let wr := (s.fds.get fd).any (·.watchR) && readReady
      let ww := (s.fds.get fd).any (·.watchW) && writeReady
      let s := if wr || ww then { s with delivered := s.delivered ++ [.ready fd wr ww] } else s
      if (readReady && !(r.1 || wr)) || (writeReady && !(w.1 || ww)) then
        { s with fds := (syncInterest false tail fd s.fds).2 }
      else s)
    extract_lets r w t wr ww watched
    have hwatched : Draws [] t watched := by
      dsimp only [watched]
      split
      · exact hother t (.ready fd wr ww) rfl
      · exact .refl [] t
    split
    · exact hwatched.trans (syncInterest_draws [] false tail fd watched)
    · exact hwatched

theorem handleAll_draws (es : List Event) (s : EpollBackend) : Draws [] s (es.foldl handle s) := by
  induction es generalizing s with
  | nil => exact .refl [] s
  | cons e es ih => exact (handle_draws s e).trans (ih (handle s e))

theorem takeStaged_draws (s : EpollBackend) : Draws [] s (takeStaged s) := by
  refine Draws.of_same [] rfl rfl ?_
  show ios (s.delivered ++ s.inlineCompletions) ++ ios [] = _
  rw [ios, List.filterMap_append]
  exact List.append_nil _

theorem poll_draws (timeout : Nat) (wait : Wait) (s : EpollBackend) : Draws [] s (poll timeout wait s) := by
  unfold poll
  extract_lets timeout t
  split
  · exact takeStaged_draws s
  · split
    · exact (takeStaged_draws s).trans (handleAll_draws _ _)
    · exact takeStaged_draws s
    · exact takeStaged_draws s

theorem closeAccepted_draws (own : List OpId) (id : OpId) (s : EpollBackend) :
    Draws own s (closeAccepted id s) := by
  unfold closeAccepted
  split
  · exact .of_same own rfl rfl rfl
  · exact .refl own s

theorem cancel_draws (ctl : Ctl) (op : OpId) (s : EpollBackend) : Draws [] s (cancel ctl op s) := by
  unfold cancel
  split
  · exact .refl [] s
  rename_i hmark
  have hhere : ¬ Absent op s := by
    intro habsent
    cases hget : s.slab.slab.get op with
    | none => exact hmark (by rw [(Ops.OpSlab.stale hget).1])
    | some slot => exact habsent.gone ⟨slot, hget⟩
  apply Draws.drop _ hhere
  extract_lets t
  have hmarked : Draws [op] s t := .call [op] s (.markCancelled op) rfl
  split
  · exact hmarked
  rename_i slot hget
  extract_lets t₁ t₂
  have hunparked : Draws [op] t t₁ := by
    dsimp only [t₁]
    split
    · exact .refl [op] t
    split
    · exact .refl [op] t
    · rename_i entry hentry
      split
      · apply Draws.table
        intro fd' w' id' hat
        rw [syncInterest_parked, FdTable.parked_emptied hentry fun _ => rfl] at hat
        split at hat
        · cases hat
        · exact hat
      · exact .refl [op] t
  have hclosed : Draws [op] t₁ t₂ := by
    dsimp only [t₂]
    split
    · exact closeAccepted_draws [op] op t₁
    · exact .refl [op] t₁
  exact ((hmarked.trans hunparked).trans hclosed).trans (.finishInline t₂ op 0 _)

theorem detachSocket_draws (fd : RawFd) (s : EpollBackend) : Draws [] s (detachSocket fd s) := by
  have hfold : ∀ (own ids : List OpId), ids ⊆ own → ∀ t : EpollBackend,
      Draws own t (ids.foldl (fun t id => (t.markCancelled id).finishInline id 0 ecanceled.code) t) := by
    intro own ids
    induction ids with
    | nil => exact fun _ t => .refl own t
    | cons id ids ih =>
      intro hsub t
      have hhead : [id] ⊆ own := List.cons_subset.mpr ⟨hsub List.mem_cons_self, List.nil_subset own⟩
      have hfirst := (Draws.call own t (.markCancelled id) rfl).trans
        ((Draws.finishInline (t.markCancelled id) id 0 ecanceled.code).mono hhead)
      exact hfirst.trans (ih (List.subset_of_cons_subset hsub) _)
  unfold detachSocket
  split
  · exact .refl [] s
  rename_i entry hentry
  have hremoved : Draws (entry.readOp.toList ++ entry.writeOp.toList) s { s with fds := s.fds.forget fd } := by
    apply Draws.table
    intro fd' w id hat
    rw [FdTable.parked_forget] at hat
    split at hat
    · cases hat
    · exact hat
  have hall := hremoved.trans (hfold _ _ (List.Subset.refl _) _)
  refine ⟨hall.called, fun id _ habsent => hall.absent id (fun hid => ?_) habsent⟩
  -- what is given up was parked on the descriptor
  apply habsent.parked
  rcases List.mem_append.mp hid with hread | hwrite
  · exact ⟨fd, false, (FdTable.parked_of_get hentry false).trans (Option.mem_toList.mp hread)⟩
  · exact ⟨fd, true, (FdTable.parked_of_get hentry true).trans (Option.mem_toList.mp hwrite)⟩

/-- A call that is not a post brings up nothing that was absent. -/
theorem call_draws {i : Input} (hpost : post s i = none) : Draws [] s (step s i) := by
  unfold step
  rw [hpost]
  cases i with
  | registerSocket fd =>
    apply Draws.table
    intro fd' w id hat
    rw [FdTable.parked_forget] at hat
    split at hat
    · cases hat
    · exact hat
  | cancel ctl op => exact cancel_draws ctl op s
  | detachSocket fd => exact detachSocket_draws fd s
  | setWatch ctl fd readable writable =>
    obtain ⟨fds, heq, hfds⟩ := setWatch_same ctl fd readable writable s
    show Draws [] s (setWatch ctl fd readable writable s)
    rw [heq]
    exact .table [] s fun fd' w id hat => hfds fd' w ▸ hat
  | takeStaged => exact takeStaged_draws s
  | poll timeout wait => exact poll_draws timeout wait s
  | takeAcceptSocket op =>
    have htaken : Draws [] s (takeAcceptSocket op s).2 := by
      unfold takeAcceptSocket
      split
      · exact .refl [] s
      · exact (Draws.call [] s (.getMut op _) rfl).trans (.call [] _ (.release op) rfl)
    exact htaken.trans (.of_same [] rfl rfl rfl)
  | takeRecvFromAddr op =>
    show Draws [] s (takeRecvFromAddr op s).2
    unfold takeRecvFromAddr
    split
    · exact .refl [] s
    · exact .call [] s (.release op) rfl
  | wake => exact .of_same [] rfl rfl rfl
  | _ => cases hpost

/-! ## 3. Posts -/

/-- The mask to install when an operation parks on a side. -/
def FdEntry.wanted (e : FdEntry) (w : Bool) : Mask := ⟨e.interest.r || !w, e.interest.w || w⟩

/-- What remains of an ADD or a MOD, and of the other one where the first was the wrong one. -/
def Ctl.outcome (ctl : Ctl) (registered : Bool) : Option Errno :=
  if registered then if ctl.first = some enoent then ctl.second else ctl.first
  else if ctl.first = some eexist then ctl.second else ctl.first

/-- The side is free, but `epoll_ctl` does not arm it for an operation parked there. -/
structure Unarmed (ctl : Ctl) (fd : RawFd) (w : Bool) (s : EpollBackend) : Prop where
  free : s.fds.parked fd w = none
  stale : ((s.fds.get fd).getD .default).wanted w ≠ ((s.fds.get fd).getD .default).kernel
  refused : ctl.outcome ((s.fds.get fd).getD .default).registered ≠ none

/-- A post whose syscall would block, on a free side that `epoll_ctl` does not arm. -/
def ArmFails (s : EpollBackend) : Input → Prop
  | .postAccept sys listener => sys.answer = .again ∧ Unarmed sys.ctl listener false s
  | .postRecv sys socket _ _ =>
    ((s.fds.get socket).any (·.drained) = true ∨ sys.answer = .again) ∧ Unarmed sys.ctl socket false s
  | .postSend sys socket bufs =>
    ((∃ b ∈ bufs.take maxGather, b.len ≠ 0) ∧
      (sys.answer = .again ∨ ∃ addr, sys.answer = .done 0 addr)) ∧ Unarmed sys.ctl socket true s
  | .postConnect sys socket => sys.answer = .failed einprogress ∧ Unarmed sys.ctl socket true s
  | .postRecvFrom sys socket _ _ => sys.answer = .again ∧ Unarmed sys.ctl socket false s
  | .postSendTo sys socket _ _ => sys.answer = .again ∧ Unarmed sys.ctl socket true s
  | _ => False

/-- Nothing of a post is left: the slots, their count, and the sides of every descriptor. -/
structure Undone (s s' : EpollBackend) : Prop where
  slots : ∀ id, s'.slab.slab.get id = s.slab.slab.get id
  inFlight : s'.slab.slab.inFlight = s.slab.slab.inFlight
  parked : ∀ fd w, s'.fds.parked fd w = s.fds.parked fd w
  completed : s'.completed = s.completed

/-- What a post made in `s` comes to, where `unarmed` says that it parks and is not armed. -/
structure Outcome (unarmed : Prop) (s : EpollBackend) (r : Except PostError OpId × EpollBackend) :
    Prop where
  good : r.2.Roomy → Ops.Good r.2.slab
  -- the ids issued are new, and nothing else comes up
  issues : ∃ new, (∀ id ∈ new, id ∉ s.slab.book.issued) ∧
    r.2.slab.book.issued = s.slab.book.issued ++ new ∧
      ∀ id, id ∉ new → Absent id s → Absent id r.2
  undone : ¬ unarmed → ∀ e, r.1 = .error e → Undone s r.2
  stranded : unarmed → (∃ e, r.1 = .error e) ∧ ∃ fd w, r.2.fds.parked fd w ≠ s.fds.parked fd w

theorem Outcome.congr {p q : Prop} {r : Except PostError OpId × EpollBackend} (h : Outcome p s r)
    (hiff : q ↔ p) : Outcome q s r where
  good := h.good
  issues := h.issues
  undone hnot := h.undone fun hp => hnot (hiff.mpr hp)
  stranded hq := h.stranded (hiff.mp hq)

theorem Launched.attempt (hl : Launched s s' id) (answer : Answer) :
    Launched s (attempt answer id s').2 id := by
  obtain ⟨slot, hget, hposted⟩ := hl.posted
  obtain ⟨accepts, heq, -, -⟩ := attempt_eq hget answer
  have hlookup := Ops.Run.getMut_get hget fun kd => (kd.1, (slot.data.attempt answer).2)
  rw [heq]
  refine ⟨hl.good.getMut id _, hl.fresh, hl.issued, hl.recycled,
    ⟨_, (hlookup id).trans (if_pos rfl), hposted⟩, fun id' hne => ?_, ?_⟩
  · exact ((hlookup id').trans (if_neg hne)).trans (hl.others id' hne)
  · exact (Ops.OpSlab.getMut_inFlight _ id _).trans hl.inFlight

/-- In the post made in `s`, the operation is in the slab and nowhere else yet. -/
structure Begun (s s' : EpollBackend) (id : OpId) : Prop where
  launched : Launched s s' id
  unused : s.slab.slab.get id = none
  fds : s'.fds = s.fds
  completed : s'.completed = s.completed

theorem launch_begun (hgood : Ops.Good s.slab) (hlive : Room s) (hroom : s.Roomy) (sys : Sys)
    (kind : OpKind) (fd : RawFd) (pending : Pending) :
    ∃ id s' generation, launch sys kind fd pending s = some (id, s') ∧ Begun s s' id ∧
      s'.slab.slab.get id = some ⟨.posted, generation, kind, ⟨some fd, pending, none⟩⟩ := by
  obtain ⟨id, s', generation, hlaunch, hl, hget, hsame⟩ :=
    launch_launched hgood hlive hroom sys kind fd pending
  refine ⟨id, s', generation, hlaunch, ⟨hl, ?_, ?_, ?_⟩, hget⟩
  · cases hold : s.slab.slab.get id with
    | none => rfl
    | some slot =>
      refine absurd ?_ hl.fresh
      rw [hgood.tracks.mem_issued, hgood.book_live hold]
      simp
  · rw [hsame]
  · rw [hsame]
    rfl

theorem Begun.attempt (hb : Begun s s' id) (answer : Answer) : Begun s (attempt answer id s').2 id := by
  obtain ⟨-, hfds, hcompleted, -, -⟩ := attempt_frame answer id s'
  exact ⟨hb.launched.attempt answer, hb.unused, hfds.trans hb.fds, hcompleted.trans hb.completed⟩

/-- The rest of the post is about its own operation. -/
theorem Begun.issues (hb : Begun s s' id) (hdraws : Draws [id] s' s'') :
    ∃ new, (∀ id ∈ new, id ∉ s.slab.book.issued) ∧ s''.slab.book.issued = s.slab.book.issued ++ new ∧
      ∀ id, id ∉ new → Absent id s → Absent id s'' := by
  refine ⟨[id], fun id' hid' => ?_, ?_, fun id' hid' habsent => ?_⟩
  · rw [List.mem_singleton.mp hid']
    exact hb.launched.fresh
  · rw [hdraws.books.issued]
    exact hb.launched.issued
  · apply hdraws.absent id' hid'
    have hne : id' ≠ id := fun heq => hid' (List.mem_singleton.mpr heq)
    refine ⟨?_, ?_, ?_⟩
    · unfold Live
      rw [hb.launched.others id' hne]
      exact habsent.gone
    · unfold EpollBackend.Parked
      rw [hb.fds]
      exact habsent.parked
    · rw [hb.completed]
      exact habsent.completed

theorem Begun.succeeds (hb : Begun s s' id) (hdraws : Draws [id] s' s'') {unarmed : Prop}
    (hnot : ¬ unarmed) (id' : OpId) : Outcome unarmed s (.ok id', s'') where
  good hroom := hdraws.called.good hb.launched.good hroom
  issues := hb.issues hdraws
  undone _ e he := by cases he
  stranded hyes := absurd hyes hnot

/-- Completed and released, with no completion. -/
theorem Begun.fails (hb : Begun s s' id) {fds : FdTable}
    (hfds : ∀ fd w, fds.parked fd w = s'.fds.parked fd w) {unarmed : Prop} (hnot : ¬ unarmed)
    (e : PostError) : Outcome unarmed s (.error e, release id (complete id { s' with fds := fds })) := by
  have hdraws : Draws [id] s' (release id (complete id { s' with fds := fds })) :=
    ((Draws.table [id] s' fun fd w id' hat => hfds fd w ▸ hat).trans (.call [id] _ (.complete id) rfl)).trans
      (.call [id] _ (.release id) rfl)
  obtain ⟨slot, hget, hposted⟩ := hb.launched.posted
  have hbusy : slot.inFlight = true := by simp [OpSlot.inFlight, hposted]
  have hdone := Ops.Run.complete_get hget hbusy
  have hlookup := Ops.Run.release_get ((hdone id).trans (if_pos rfl)) rfl
  refine ⟨fun hroom => hdraws.called.good hb.launched.good hroom, hb.issues hdraws, fun _ e' _ => ?_,
    fun hyes => absurd hyes hnot⟩
  constructor
  · intro id'
    show ((s'.slab.step (.complete id)).step (.release id)).slab.get id' = _
    rw [hlookup]
    by_cases hid : id' = id
    · rw [if_pos hid, hid, hb.unused]
    · rw [if_neg hid, hdone, if_neg hid]
      exact hb.launched.others id' hid
  · show ((s'.slab.slab.complete id).2.release id).inFlight = _
    rw [Ops.OpSlab.release_inFlight, Ops.OpSlab.complete_inFlight hget hbusy, hb.launched.inFlight]
    exact Nat.add_sub_cancel _ 1
  · intro fd w
    exact (hfds fd w).trans (by rw [hb.fds])
  · exact hb.completed

theorem FdTable.entry_fst (t : FdTable) (fd : RawFd) : (t.entry fd).1 = (t.get fd).getD .default := by
  unfold entry get
  cases t.slots fd <;> rfl

theorem FdEntry.interest_setOp (e : FdEntry) (w : Bool) (id : OpId) :
    (e.setOp w (some id)).interest = e.wanted w := by
  cases w <;> simp [FdEntry.interest, FdEntry.setOp, FdEntry.wanted]

/-- Arming fails where the mask is not the one installed, and `epoll_ctl` fails. -/
theorem syncInterest_fails {fds : FdTable} {fd : RawFd} {e : FdEntry} (ctl : Ctl) (hget : fds.get fd = some e)
    (hneeded : e.interest ≠ .none) :
    (syncInterest false ctl fd fds).1 ≠ none ↔
      e.interest ≠ e.kernel ∧ ctl.outcome e.registered ≠ none := by
  unfold syncInterest
  rw [hget]
  dsimp only
  split
  · rename_i hsame
    simp [hsame]
  rename_i hstale
  rw [if_neg (by simp), if_neg fun hidle => hneeded hidle.2]
  have houtcome : (if e.registered = true then if ctl.first = some enoent then ctl.second else ctl.first
      else if ctl.first = some eexist then ctl.second else ctl.first) = ctl.outcome e.registered := rfl
  rw [houtcome]
  cases ctl.outcome e.registered with
  | none => simp
  | some error => simp [hstale]

theorem FdEntry.wanted_ne (e : FdEntry) (w : Bool) : e.wanted w ≠ .none := by
  cases w <;> simp [FdEntry.wanted, Mask.none]

theorem park_fails_iff (ctl : Ctl) {fd : RawFd} {w : Bool} (id : OpId) (hfree : s.fds.parked fd w = none) :
    (syncInterest false ctl fd ((s.fds.entry fd).2.put fd
      ((s.fds.entry fd).1.setOp w (some id)))).1 ≠ none ↔ Unarmed ctl fd w s := by
  have hput : ((s.fds.entry fd).2.put fd ((s.fds.entry fd).1.setOp w (some id))).get fd =
      some ((s.fds.entry fd).1.setOp w (some id)) := by
    simp [FdTable.get, FdTable.put]
  have hrest : ((s.fds.entry fd).1.setOp w (some id)).kernel = (s.fds.entry fd).1.kernel ∧
      ((s.fds.entry fd).1.setOp w (some id)).registered = (s.fds.entry fd).1.registered := by
    cases w
    · exact ⟨rfl, rfl⟩
    · exact ⟨rfl, rfl⟩
  rw [syncInterest_fails ctl hput (by rw [FdEntry.interest_setOp]; exact FdEntry.wanted_ne _ w),
    FdEntry.interest_setOp, hrest.1, hrest.2, FdTable.entry_fst]
  constructor
  · rintro ⟨hstale, hrefused⟩
    exact ⟨hfree, hstale, hrefused⟩
  · intro h
    exact ⟨h.stale, h.refused⟩

/-- A park that is not armed strands its operation; every other failure is undone. -/
theorem Begun.park (hb : Begun s s' id) (ctl : Ctl) (fd : RawFd) (w : Bool) :
    Outcome (Unarmed ctl fd w s) s (park ctl id fd w s') := by
  obtain ⟨hentry, hsame⟩ := FdTable.entry_spec s'.fds fd
  have hside : (s'.fds.entry fd).1.op w = s.fds.parked fd w := by
    rw [← FdTable.parked_of_get hentry, hsame, hb.fds]
  unfold Epoll.park
  extract_lets r t sync t'
  have hdraws : Draws [id] s' t' := by
    refine .of_places (.refl _) (fun id' hid' hat => ?_) fun _ _ h => h
    obtain ⟨fd', w', hplace⟩ := hat
    have hplace : sync.2.parked fd' w' = some id' := hplace
    rw [park_table] at hplace
    split at hplace
    · injection hplace with hplace
      exact absurd (List.mem_singleton.mpr hplace.symm) hid'
    · exact ⟨fd', w', hplace⟩
  split
  · rename_i hbusy
    refine hb.fails hsame (fun hunarmed => ?_) .wouldBlock
    have hnone : (s'.fds.entry fd).1.op w = none := hside.trans hunarmed.free
    have hsome : ((s'.fds.entry fd).1.op w).isSome = true := hbusy
    rw [hnone] at hsome
    cases hsome
  rename_i hidle
  have hfree : s.fds.parked fd w = none := by
    rw [← hside]
    simpa using hidle
  have harmed : sync.1 ≠ none ↔ Unarmed ctl fd w s := by
    rw [← park_fails_iff ctl id hfree, ← hb.fds]
  split
  · rename_i hok
    exact hb.succeeds hdraws (fun hunarmed => harmed.mpr hunarmed hok) id
  · rename_i error herror
    have hunarmed : Unarmed ctl fd w s := harmed.mp (by rw [herror]; simp)
    have hdraws' : Draws [id] s' { t' with orphans := t'.orphans ++ [id] } :=
      hdraws.trans (.of_same [id] rfl rfl rfl)
    refine ⟨fun hroom => hdraws'.called.good hb.launched.good hroom, hb.issues hdraws',
      fun hnot => absurd hunarmed hnot, fun _ => ⟨⟨_, rfl⟩, fd, w, ?_⟩⟩
    -- the operation is where it was parked
    show sync.2.parked fd w ≠ _
    rw [park_table, if_pos ⟨rfl, rfl⟩, hfree]
    simp

/-- The park of a post that `blocks` says would block. -/
theorem Begun.parks (hb : Begun s s' id) (ctl : Ctl) (fd : RawFd) (w : Bool) {blocks : Prop}
    (hblocks : blocks) : Outcome (blocks ∧ Unarmed ctl fd w s) s (Epoll.park ctl id fd w s') :=
  (hb.park ctl fd w).congr ⟨fun h => h.2, fun h => ⟨hblocks, h⟩⟩

theorem postWrite_outcome (hgood : Ops.Good s.slab) (hlive : Room s) (hroom : s.Roomy) (sys : Sys)
    (kind : OpKind) (fd : RawFd) {pending : Pending} {blocks : Prop}
    (hblocks : (EpollOp.attempt sys.answer ⟨some fd, pending, none⟩).1 = none ↔ blocks) :
    Outcome (blocks ∧ Unarmed sys.ctl fd true s) s (postWrite sys kind fd pending s) := by
  obtain ⟨id, s', generation, hlaunch, hb, hget⟩ := launch_begun hgood hlive hroom sys kind fd pending
  unfold postWrite
  rw [hlaunch]
  dsimp only
  have htried := hb.attempt sys.answer
  rw [← (attempt_get hget sys.answer).1] at hblocks
  generalize Epoll.attempt sys.answer id s' = r at htried hblocks ⊢
  obtain ⟨done, s''⟩ := r
  cases done with
  | none => exact htried.parks sys.ctl fd true (hblocks.mp rfl)
  | some done =>
    refine htried.succeeds (.finishInline s'' id done.1 done.2) (fun h => ?_) id
    cases hblocks.mpr h.1

theorem unsent_isEmpty (bufs : List IoSlice) : (unsent 0 bufs).isEmpty = true ↔ ¬ ∃ b ∈ bufs, b.len ≠ 0 := by
  induction bufs with
  | nil => simp [unsent]
  | cons b bufs ih =>
    by_cases hb : b.len = 0
    · simp [unsent, hb, ih]
    · have hshort : ¬ 0 ≥ b.len := by omega
      simp [unsent, hb, hshort]

theorem send_blocks (answer : Answer) (fd : RawFd) (bufs : List IoSlice) :
    (EpollOp.attempt answer ⟨some fd, .send bufs 0, none⟩).1 = none ↔
      (∃ b ∈ bufs, b.len ≠ 0) ∧ (answer = .again ∨ ∃ addr, answer = .done 0 addr) := by
  unfold EpollOp.attempt
  dsimp only
  split
  · rename_i hempty
    have hnone := (unsent_isEmpty bufs).mp hempty
    simp only [reduceCtorEq, false_iff]
    exact fun h => hnone h.1
  · rename_i hsome
    have hbuf : ∃ b ∈ bufs, b.len ≠ 0 := by
      by_contra hnone
      exact hsome ((unsent_isEmpty bufs).mpr hnone)
    cases answer with
    | done n addr =>
      by_cases hn : n = 0
      · simp [hn, hbuf]
      · simp [hn, Nat.pos_of_ne_zero hn]
    | again => simp [hbuf]
    | failed e => simp

theorem postRecvFrom_outcome (hgood : Ops.Good s.slab) (hlive : Room s) (hroom : s.Roomy) (sys : Sys)
    (socket : RawFd) (buf len : Nat) :
    Outcome (ArmFails s (.postRecvFrom sys socket buf len)) s (postRecvFrom sys socket buf len s) := by
  obtain ⟨id, s', generation, hlaunch, hb, hget⟩ :=
    launch_begun hgood hlive hroom sys .recvFrom socket (.recvFrom buf len [])
  unfold postRecvFrom
  rw [hlaunch]
  dsimp only
  have htried := hb.attempt sys.answer
  have hresult := (attempt_get hget sys.answer).1
  generalize Epoll.attempt sys.answer id s' = r at htried hresult ⊢
  obtain ⟨done, s''⟩ := r
  cases done with
  | none =>
    refine htried.parks sys.ctl socket false ?_
    cases hanswer : sys.answer <;> simp [EpollOp.attempt, hanswer] at hresult ⊢
  | some done =>
    have hnot : ¬ ArmFails s (.postRecvFrom sys socket buf len) := by
      intro hfails
      rw [hfails.1] at hresult
      cases hresult
    have hcompleted : Draws [id] s'' (s''.complete id) := .call [id] s'' (.complete id) rfl
    dsimp only
    split
    · exact htried.succeeds (.finishInline s'' id done.1 done.2) hnot id
    · exact htried.succeeds (hcompleted.trans (.stage _ id done.1 done.2)) hnot id

theorem postAccept_outcome (hgood : Ops.Good s.slab) (hlive : Room s) (hroom : s.Roomy) (sys : Sys)
    (listener : RawFd) :
    Outcome (ArmFails s (.postAccept sys listener)) s (postAccept sys listener s) := by
  unfold postAccept
  split
  · rename_i hbusy
    refine ⟨fun _ => hgood, ⟨[], fun id hid => ?_, ?_, fun _ _ h => h⟩,
      fun _ e _ => ⟨fun _ => rfl, rfl, fun _ _ => rfl, rfl⟩, fun hfails => ?_⟩
    · cases hid
    · exact (List.append_nil _).symm
    · -- nothing parks on a side that is taken
      have hfree := hfails.2.free
      cases hentry : s.fds.get listener with
      | none =>
        rw [hentry] at hbusy
        cases hbusy
      | some entry =>
        rw [FdTable.parked_of_get hentry] at hfree
        rw [hentry] at hbusy
        have hnone : entry.readOp = none := hfree
        simp [hnone] at hbusy
  obtain ⟨id, s', generation, hlaunch, hb, hget⟩ :=
    launch_begun hgood hlive hroom sys .accept listener .accept
  rw [hlaunch]
  dsimp only
  have htried := hb.attempt sys.answer
  have hresult := (attempt_get hget sys.answer).1
  generalize Epoll.attempt sys.answer id s' = r at htried hresult ⊢
  obtain ⟨done, s''⟩ := r
  cases done with
  | none =>
    refine htried.parks sys.ctl listener false ?_
    cases hanswer : sys.answer <;> simp [EpollOp.attempt, hanswer] at hresult ⊢
  | some done =>
    obtain ⟨bytes, err⟩ := done
    have hnot : ¬ ArmFails s (.postAccept sys listener) := by
      intro hfails
      rw [hfails.1] at hresult
      cases hresult
    have hcompleted : Draws [id] s'' (s''.complete id) := .call [id] s'' (.complete id) rfl
    cases err with
    | zero => exact htried.succeeds (hcompleted.trans (.stage _ id bytes 0)) hnot id
    | succ err => exact htried.fails (fun _ _ => rfl) hnot (.os (err + 1))

theorem postConnect_outcome (hgood : Ops.Good s.slab) (hlive : Room s) (hroom : s.Roomy) (sys : Sys)
    (socket : RawFd) :
    Outcome (ArmFails s (.postConnect sys socket)) s (postConnect sys socket s) := by
  obtain ⟨id, s', generation, hlaunch, hb, hget⟩ :=
    launch_begun hgood hlive hroom sys .connect socket .connect
  unfold postConnect
  rw [hlaunch]
  dsimp only
  split
  · rename_i n addr hanswer
    refine hb.succeeds (.finishInline s' id 0 0) (fun hfails => ?_) id
    rw [hfails.1] at hanswer
    cases hanswer
  · rename_i hanswer
    refine hb.succeeds (.finishInline s' id 0 11) (fun hfails => ?_) id
    rw [hfails.1] at hanswer
    cases hanswer
  · rename_i e hanswer
    split
    · rename_i hprogress
      exact hb.parks sys.ctl socket true (hprogress ▸ hanswer)
    · rename_i hother
      refine hb.succeeds (.finishInline s' id 0 e.code) (fun hfails => ?_) id
      rw [hfails.1] at hanswer
      injection hanswer with he
      exact hother he.symm

theorem postRecv_outcome (hgood : Ops.Good s.slab) (hlive : Room s) (hroom : s.Roomy) (sys : Sys)
    (socket : RawFd) (buf len : Nat) :
    Outcome (ArmFails s (.postRecv sys socket buf len)) s (postRecv sys socket buf len s) := by
  obtain ⟨id, s', generation, hlaunch, hb, hget⟩ :=
    launch_begun hgood hlive hroom sys .recv socket (.recv buf len)
  unfold postRecv
  rw [hlaunch]
  dsimp only
  rw [hb.fds]
  split
  · rename_i hdrained
    exact hb.parks sys.ctl socket false (.inl hdrained)
  rename_i hdrained
  have htried := hb.attempt sys.answer
  have hresult := (attempt_get hget sys.answer).1
  generalize Epoll.attempt sys.answer id s' = r at htried hresult ⊢
  obtain ⟨done, s''⟩ := r
  cases done with
  | none =>
    refine htried.parks sys.ctl socket false (.inr ?_)
    cases hanswer : sys.answer <;> simp [EpollOp.attempt, hanswer] at hresult ⊢
  | some done =>
    have hnot : ¬ ArmFails s (.postRecv sys socket buf len) := by
      rintro ⟨hdry | hagain, -⟩
      · exact hdrained hdry
      · rw [hagain] at hresult
        cases hresult
    dsimp only
    refine htried.succeeds (Draws.trans ?_ (.finishInline _ id done.1 done.2)) hnot id
    split
    · -- the entry says whether the socket was drained
      apply Draws.table
      obtain ⟨hentry, hparked⟩ := FdTable.entry_spec s''.fds socket
      intro fd w id' hat
      rw [FdTable.parked_replaced hentry (fun w => by cases w <;> rfl), hparked] at hat
      exact hat
    · exact .refl [id] s''

theorem post_outcome (hgood : Ops.Good s.slab) (hlive : Room s) (hroom : s.Roomy) {i : Input}
    {r : Except PostError OpId × EpollBackend} (hpost : post s i = some r) :
    Outcome (ArmFails s i) s r := by
  cases i <;> simp only [post, Option.some.injEq, reduceCtorEq] at hpost
  case postAccept sys listener =>
    subst hpost
    exact postAccept_outcome hgood hlive hroom sys listener
  case postRecv sys socket buf len =>
    subst hpost
    exact postRecv_outcome hgood hlive hroom sys socket buf len
  case postSend sys socket bufs =>
    subst hpost
    exact postWrite_outcome hgood hlive hroom sys .send socket (send_blocks sys.answer socket _)
  case postConnect sys socket =>
    subst hpost
    exact postConnect_outcome hgood hlive hroom sys socket
  case postRecvFrom sys socket buf len =>
    subst hpost
    exact postRecvFrom_outcome hgood hlive hroom sys socket buf len
  case postSendTo sys socket data dst =>
    subst hpost
    apply postWrite_outcome hgood hlive hroom sys .sendTo socket
    cases sys.answer <;> simp [EpollOp.attempt]

/-! ## 4. Runs -/

/-- In every state: the slab is good, and only ids issued are anywhere. -/
structure Issued (s : EpollBackend) : Prop where
  good : Ops.Good s.slab
  roomy : s.Roomy
  absent : ∀ id, id ∉ s.slab.book.issued → Absent id s

theorem Issued.new : Issued backend.init where
  good := Ops.good_new emptyOp
  roomy i := by
    show 0 < 2 ^ 32
    decide
  absent id _ := by
    refine ⟨?_, ?_, ?_⟩
    · rintro ⟨slot, hget⟩
      have hnone : (Ops.OpSlab.new emptyOp).get id = none := by
        simp [Ops.OpSlab.get, Ops.OpSlab.slot, Ops.OpSlab.new]
      exact absurd (hnone.symm.trans hget) (by simp)
    · rintro ⟨fd, w, hid⟩
      cases hid
    · exact List.not_mem_nil

theorem absent_posted {r : Except PostError OpId × EpollBackend} (h : Absent id r.2) : Absent id (posted r) := by
  unfold posted
  split
  · exact ⟨h.gone, h.parked, h.completed⟩
  · exact h

theorem step_post {i : Input} {r : Except PostError OpId × EpollBackend} (hpost : post s i = some r) :
    step s i = posted r := by
  unfold step
  rw [hpost]

theorem Issued.outcome (h : Issued s) {i : Input} (hfits : Fits s i)
    {r : Except PostError OpId × EpollBackend} (hpost : post s i = some r) :
    Outcome (ArmFails s i) s r :=
  post_outcome h.good (hfits.live (Option.isSome_of_eq_some hpost)) h.roomy hpost

/-- A step brings up no id that was issued before. -/
theorem Issued.step (h : Issued s) {i : Input} (hfits : Fits s i) :
    Issued (step s i) ∧ s.slab.book.issued <+: (Epoll.step s i).slab.book.issued ∧
      ∀ id ∈ s.slab.book.issued, Absent id s → Absent id (Epoll.step s i) := by
  have hroom := hfits.recycled
  cases hpost : post s i with
  | some r =>
    obtain ⟨hgood, ⟨new, hnew, hissued, habsent⟩, -, -⟩ := h.outcome hfits hpost
    rw [step_post hpost] at hroom ⊢
    have hslab := posted_slab r
    have hafter : r.2.Roomy := by
      unfold Roomy at hroom ⊢
      rwa [hslab] at hroom
    refine ⟨⟨hslab ▸ hgood hafter, hroom, fun id hid => ?_⟩, ?_, fun id hid hold => ?_⟩
    · rw [hslab, hissued, List.mem_append, not_or] at hid
      exact absent_posted (habsent id hid.2 (h.absent id hid.1))
    · rw [hslab, hissued]
      exact List.prefix_append _ _
    · exact absent_posted (habsent id (fun hin => hnew id hin hid) hold)
  | none =>
    have hdraws := call_draws hpost
    refine ⟨⟨hdraws.called.good h.good hroom, hroom, fun id hid => ?_⟩, ?_,
      fun id _ hold => hdraws.absent id List.not_mem_nil hold⟩
    · rw [hdraws.books.issued] at hid
      exact hdraws.absent id List.not_mem_nil (h.absent id hid)
    · rw [hdraws.books.issued]

theorem run_issued (is : List Input) (hfits : backend.Along Fits is) : Issued (backend.run is) :=
  backend.run_invariant_along .new (fun _ _ h hfit => (h.step hfit).1) is hfits

/-- An id issued whose operation is over stays so. -/
theorem absent_later (is later : List Input) (hfits : backend.Along Fits (is ++ later))
    (hid : id ∈ (backend.run is).slab.book.issued) (habsent : Absent id (backend.run is)) :
    id ∈ (backend.run (is ++ later)).slab.book.issued ∧ Absent id (backend.run (is ++ later)) := by
  induction later using List.reverseRecOn with
  | nil =>
    rw [List.append_nil]
    exact ⟨hid, habsent⟩
  | append_singleton later i ih =>
    rw [← List.append_assoc] at hfits ⊢
    obtain ⟨hbefore, hfit⟩ := backend.along_concat.mp hfits
    obtain ⟨hissued, hold⟩ := ih hbefore
    obtain ⟨-, hearlier, hkept⟩ := (run_issued _ hbefore).step hfit
    rw [Machine.run_concat]
    exact ⟨hearlier.subset hissued, hkept id hissued hold⟩

/-- What a post that failed after the calls `is` left behind: nothing. -/
structure NothingLeft (is : List Input) (i : Input) (s' : EpollBackend) : Prop where
  slots : ∀ id, s'.slab.slab.get id = (backend.run is).slab.slab.get id
  inFlight : s'.slab.slab.inFlight = (backend.run is).slab.slab.inFlight
  parked : ∀ fd w, s'.fds.parked fd w = (backend.run is).fds.parked fd w
  -- of the id it issued no completion is handed out, whatever is called later
  never : ∀ later, backend.Along Fits (is ++ [i] ++ later) →
    ∀ id, id ∈ (backend.run (is ++ [i])).slab.book.issued → id ∉ (backend.run is).slab.book.issued →
      ∀ bytes osError, .io id bytes osError ∉ (backend.run (is ++ [i] ++ later)).delivered

theorem Undone.nothing_left {is : List Input} {i : Input} (hfits : backend.Along Fits (is ++ [i]))
    {r : Except PostError OpId × EpollBackend} (hpost : post (backend.run is) i = some r)
    (h : Undone (backend.run is) r.2) : NothingLeft is i r.2 where
  slots := h.slots
  inFlight := h.inFlight
  parked := h.parked
  never later hlater id hid hnew bytes osError hin := by
    have hbefore := (run_issued is (backend.along_concat.mp hfits).1).absent id hnew
    have hafter : Absent id (backend.run (is ++ [i])) := by
      rw [Machine.run_concat]
      show Absent id (step (backend.run is) i)
      rw [step_post hpost]
      apply absent_posted
      refine ⟨?_, ?_, ?_⟩
      · unfold Live
        rw [h.slots]
        exact hbefore.gone
      · unfold EpollBackend.Parked
        simp only [h.parked]
        exact hbefore.parked
      · rw [h.completed]
        exact hbefore.completed
    apply (absent_later (is ++ [i]) later hlater hid hafter).2.completed
    exact List.mem_append_left _ (List.mem_filterMap.mpr ⟨_, hin, rfl⟩)

/-- **A post that fails leaves nothing behind exactly when its park is armed**, after any calls, in
runs in which no slot is recycled 2^32 times and no post is made while 2^32 are live. -/
theorem failed_post_leaves_nothing_iff (is : List Input) (i : Input)
    (hfits : backend.Along Fits (is ++ [i])) (r : Except PostError OpId × EpollBackend)
    (hpost : post (backend.run is) i = some r) :
    (∀ e, r.1 = .error e → NothingLeft is i r.2) ↔ ¬ ArmFails (backend.run is) i := by
  obtain ⟨hbefore, hfit⟩ := backend.along_concat.mp hfits
  have houtcome := (run_issued is hbefore).outcome hfit hpost
  constructor
  · intro hall hfails
    obtain ⟨⟨e, he⟩, fd, w, hmoved⟩ := houtcome.stranded hfails
    exact hmoved ((hall e he).parked fd w)
  · intro hnot e he
    exact (houtcome.undone hnot e he).nothing_left hfits hpost

/-- A second receive on a socket is refused, and the first is undisturbed. -/
theorem failed_post_leaves_nothing_refused :
    let i : Input := .postRecv ⟨0, .again, ⟨none, none⟩⟩ 5 4096 16
    (postRecv ⟨0, .again, ⟨none, none⟩⟩ 5 4096 16 (backend.run [i])).1 = .error .wouldBlock ∧
      NothingLeft [i] i (postRecv ⟨0, .again, ⟨none, none⟩⟩ 5 4096 16 (backend.run [i])).2 := by
  intro i
  have hfits : backend.Along Fits ([i] ++ [i]) := by
    refine (backend.along_concat).mpr ⟨(backend.along_singleton).mpr ?_, ?_⟩
    · exact fits_of_few (by decide) (by decide)
    · exact fits_of_few (by decide) (by decide)
  have hrefused : (postRecv ⟨0, .again, ⟨none, none⟩⟩ 5 4096 16 (backend.run [i])).1 =
      .error .wouldBlock := rfl
  refine ⟨hrefused, ?_⟩
  apply (failed_post_leaves_nothing_iff [i] i hfits _ rfl).mpr _ .wouldBlock hrefused
  intro hfails
  exact absurd hfails.2.free (by decide)

-- ENOSPC: the limit on watched descriptors
def enospc : Errno := ⟨28, by decide⟩

/-- The kernel refuses to watch a socket: the receive fails, and stays parked; its cancellation is
handed out when the socket is detached. -/
theorem failed_post_strands :
    (backend.run [.postRecv ⟨0, .again, ⟨some enospc, none⟩⟩ 5 4096 16, .detachSocket 5,
        .takeStaged]).delivered = [.io ⟨0, 0⟩ 0 125] ∧
      ¬ ∀ is i, backend.Along Fits (is ++ [i]) → ∀ r, post (backend.run is) i = some r →
        ∀ e, r.1 = .error e → NothingLeft is i r.2 := by
  refine ⟨by decide, fun hall => ?_⟩
  have hfits : backend.Along Fits
      ([] ++ [.postRecv ⟨0, .again, ⟨some enospc, none⟩⟩ 5 4096 16]) :=
    (backend.along_singleton).mpr (fits_of_few (by decide) (by decide))
  have hleft := hall [] _ hfits _ rfl (.os 28) rfl
  exact absurd (hleft.parked 5 false) (by decide)

end Cadeloop.Core.Epoll
