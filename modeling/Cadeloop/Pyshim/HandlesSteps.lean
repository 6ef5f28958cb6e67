import Cadeloop.Pyshim.HandlesCalls

/-!
# What an open loop keeps

The watch tables agree with the backend, and what leaves them goes by the graveyard; the ticks are those
of the thread that runs the loop; each call keeps what is kept of the callbacks.
-/

namespace Cadeloop.Pyshim.Handles

open Cadeloop.Reasoning

variable {s s' : CoreLoop}

/-! ## 1. Watches -/

def CoreLoop.Watched (s : CoreLoop) (h : HandleRef) : Prop := ∃ side fd, (s.table side).lookup fd = some h

structure Watches (s : CoreLoop) : Prop where
  kinds : ∀ h, h ∈ s.graveyardHandles ∨ s.Watched h ∨ h ∈ s.readyScratch → s.persistent h = true
  synced : ∀ side fd, s.watched side fd = ((s.table side).lookup fd).isSome
  covered : ∀ h, s.persistent h = true →
    h ∈ s.graveyardHandles ∨ s.Watched h ∨ s.tick.cancelled h = true

theorem table_setTable (side side' : Side) (t : Table) (s : CoreLoop) :
    (s.setTable side t).table side' = if side' = side then t else s.table side' := by
  cases side <;> cases side' <;> rfl

/-- Only a table is set. -/
theorem setTable_same (side : Side) (t : Table) (s : CoreLoop) :
    s.setTable side t = { s with
      readers := (s.setTable side t).readers, writers := (s.setTable side t).writers } := by
  cases side <;> rfl

theorem lookup_erase_at (t : Table) (socket fd : Socket) :
    (t.erase socket).lookup fd = if fd = socket then none else t.lookup fd := by
  split
  · rename_i heq
    rw [heq, AList.lookup_erase]
  · rename_i hne
    rw [AList.lookup_erase_ne hne]

theorem exists_side {p : Side → Prop} : (∃ side, p side) ↔ p .reader ∨ p .writer := by
  constructor
  · rintro ⟨side, hp⟩
    cases side with
    | reader => exact .inl hp
    | writer => exact .inr hp
  · rintro (hp | hp)
    · exact ⟨.reader, hp⟩
    · exact ⟨.writer, hp⟩

/-- The sides of a socket that a call is about. -/
def sides (r w : Bool) : Side → Bool
  | .reader => r
  | .writer => w

theorem table_unwatch (socket : Socket) (r w : Bool) (s : CoreLoop) (side : Side) :
    (s.unwatch socket r w).table side =
      if sides r w side then (s.table side).erase socket else s.table side := by
  cases r <;> cases w <;> cases side <;> rfl

theorem table_lookup_unwatch (socket : Socket) (r w : Bool) (s : CoreLoop) (side : Side) (fd : Socket) :
    ((s.unwatch socket r w).table side).lookup fd =
      if fd = socket ∧ sides r w side then none else (s.table side).lookup fd := by
  rw [table_unwatch]
  cases sides r w side with
  | true => simpa using lookup_erase_at (s.table side) socket fd
  | false => simp

theorem unwatch_same (socket : Socket) (r w : Bool) (s : CoreLoop) :
    s.unwatch socket r w = { s with
      readers := (s.unwatch socket r w).readers
      writers := (s.unwatch socket r w).writers
      watched := (s.unwatch socket r w).watched } := by
  cases r <;> cases w <;> rfl

theorem watched_syncWatch (socket : Socket) (s : CoreLoop) (side : Side) (fd : Socket) :
    (s.syncWatch socket).watched side fd =
      if fd = socket then ((s.table side).lookup socket).isSome else s.watched side fd := by
  cases side <;> rfl

namespace Watches

theorem new : Watches .new where
  kinds h := by
    rintro (hh | ⟨side, fd, hh⟩ | hh)
    · cases hh
    · cases side <;> cases hh
    · cases hh
  synced side fd := by cases side <;> rfl
  covered h hp := by cases hp

/-- The tables change, and what they drop goes to the graveyard. -/
theorem retable (hw : Watches s) (persistent : ∀ h, s.persistent h = true → s'.persistent h = true)
    (made : ∀ h, s'.persistent h = true →
      s.persistent h = true ∨ h ∈ s'.graveyardHandles ∨ s'.Watched h)
    (graveyard : ∀ h ∈ s.graveyardHandles, h ∈ s'.graveyardHandles)
    (kept : ∀ side fd h, (s.table side).lookup fd = some h →
      h ∈ s'.graveyardHandles ∨ (s'.table side).lookup fd = some h)
    (kinds : ∀ h, h ∈ s'.graveyardHandles ∨ s'.Watched h ∨ h ∈ s'.readyScratch →
      (h ∈ s.graveyardHandles ∨ s.Watched h ∨ h ∈ s.readyScratch) ∨ s'.persistent h = true)
    (cancelled : ∀ h, s.tick.cancelled h = true → s'.tick.cancelled h = true)
    (synced : ∀ side fd, s'.watched side fd = ((s'.table side).lookup fd).isSome) : Watches s' where
  kinds h hh := (kinds h hh).elim (fun hold => persistent h (hw.kinds h hold)) id
  synced := synced
  covered h hp := by
    rcases made h hp with hold | hgrave | hwatch
    · rcases hw.covered h hold with hgrave | ⟨side, fd, hwatch⟩ | hflag
      · exact .inl (graveyard h hgrave)
      · exact (kept side fd h hwatch).imp_right fun hkept => .inl ⟨side, fd, hkept⟩
      · exact .inr (.inr (cancelled h hflag))
    · exact .inl hgrave
    · exact .inr (.inl hwatch)

/-- The tables stay as they are. -/
theorem mono (hw : Watches s) (persistent : ∀ h, s'.persistent h = s.persistent h)
    (graveyard : s'.graveyardHandles = s.graveyardHandles) (table : ∀ side, s'.table side = s.table side)
    (scratch : ∀ h ∈ s'.readyScratch, h ∈ s.readyScratch)
    (cancelled : ∀ h, s.tick.cancelled h = true → s'.tick.cancelled h = true)
    (watched : s'.watched = s.watched) : Watches s' := by
  have hwatch : ∀ h, s'.Watched h → s.Watched h := by
    rintro h ⟨side, fd, hh⟩
    exact ⟨side, fd, table side ▸ hh⟩
  refine hw.retable (fun h hp => (persistent h).trans hp) (fun h hp => .inl ((persistent h).symm.trans hp))
    (fun h hh => graveyard ▸ hh) (fun side fd h hh => .inr ((table side).symm ▸ hh))
    (fun h hh => .inl (hh.imp (fun hh => graveyard ▸ hh) (Or.imp (hwatch h) (scratch h)))) cancelled ?_
  intro side fd
  rw [watched, table]
  exact hw.synced side fd

/-- The backend was asked about one socket. -/
theorem synced_at (hw : Watches s) {socket : Socket}
    (other : ∀ side fd, fd ≠ socket → (s'.table side).lookup fd = (s.table side).lookup fd)
    (watched : ∀ side fd, s'.watched side fd =
      if fd = socket then ((s'.table side).lookup socket).isSome else s.watched side fd) :
    ∀ side fd, s'.watched side fd = ((s'.table side).lookup fd).isSome := by
  intro side fd
  rw [watched]
  split
  · rename_i heq
    rw [heq]
  · rename_i hne
    rw [other side fd hne]
    exact hw.synced side fd

/-- A socket leaves the tables on some sides. -/
theorem erase (hw : Watches s) {socket : Socket} (gone : Side → Bool)
    (table : ∀ side fd, (s'.table side).lookup fd =
      if fd = socket ∧ gone side then none else (s.table side).lookup fd)
    (graveyard : ∀ h, h ∈ s'.graveyardHandles ↔
      h ∈ s.graveyardHandles ∨ ∃ side, gone side ∧ (s.table side).lookup socket = some h)
    (persistent : ∀ h, s'.persistent h = s.persistent h) (scratch : s'.readyScratch = s.readyScratch)
    (cancelled : s'.tick.cancelled = s.tick.cancelled)
    (watched : ∀ side fd, s'.watched side fd =
      if fd = socket then ((s'.table side).lookup socket).isSome else s.watched side fd) :
    Watches s' := by
  have hold : ∀ {side fd h}, (s'.table side).lookup fd = some h → (s.table side).lookup fd = some h := by
    intro side fd h hh
    rw [table] at hh
    split at hh
    · cases hh
    · exact hh
  refine hw.retable (fun h hp => (persistent h).trans hp) (fun h hp => .inl ((persistent h).symm.trans hp))
    (fun h hh => (graveyard h).mpr (.inl hh)) (fun side fd h hh => ?_) (fun h hh => .inl ?_)
    (fun h hh => cancelled ▸ hh) (hw.synced_at (fun side fd hne => ?_) watched)
  · rw [table]
    split
    · rename_i hgone
      obtain ⟨rfl, hside⟩ := hgone
      exact .inl ((graveyard h).mpr (.inr ⟨side, hside, hh⟩))
    · exact .inr hh
  · rcases hh with hh | ⟨side, fd, hh⟩ | hh
    · exact ((graveyard h).mp hh).imp_right fun ⟨side, _, hh⟩ => .inl ⟨side, socket, hh⟩
    · exact .inr (.inl ⟨side, fd, hold hh⟩)
    · exact .inr (.inr (scratch ▸ hh))
  · rw [table, if_neg fun hh => hne hh.1]

/-- The graveyard's handles are cancelled. -/
theorem drain (hw : Watches s) (hr : Retires { s with graveyardHandles := [] } s' s.graveyardHandles) :
    Watches s' := by
  have hgrave : s'.graveyardHandles = [] := by rw [hr.same]
  have htable : ∀ side, s'.table side = s.table side := by
    intro side
    rw [hr.same]
    cases side <;> rfl
  have hscratch : s'.readyScratch = s.readyScratch := by rw [hr.same]
  have hwatched : s'.watched = s.watched := by rw [hr.same]
  have hwatch : ∀ h, s'.Watched h ↔ s.Watched h := by
    intro h
    simp only [CoreLoop.Watched, htable]
  refine ⟨fun h hh => ?_, fun side fd => ?_, fun h hp => ?_⟩
  · rw [hgrave, hscratch, hwatch] at hh
    refine (hr.persistent h).trans (hw.kinds h ?_)
    exact hh.elim (fun hh => absurd hh List.not_mem_nil) .inr
  · rw [hwatched, htable]
    exact hw.synced side fd
  · rw [hgrave, hwatch, hr.cancelled, Bool.or_eq_true, decide_eq_true_eq]
    rcases hw.covered h ((hr.persistent h).symm.trans hp) with hin | hwatch | hflag
    · exact .inr (.inr (.inl hin))
    · exact .inr (.inl hwatch)
    · exact .inr (.inr (.inr hflag))

end Watches

/-! ## 2. Turns -/

/-- The ticks are those of the thread that runs the loop. -/
structure Turns (s : CoreLoop) : Prop where
  claimed : s.tick.phase ≠ .idle → s.claimed = true
  running : ∀ h, s.running = some h → s.tick.phase = .dispatching

theorem Turns.internal (ht : Turns s) {e : Core.Tick.Event HandleRef} (he : Internal e)
    {l : Core.Tick.Loop HandleRef} (hstep : s.tick.step e = some l)
    (hclaim : ∀ now, e = .prepareTick now [] [] → s.claimed = true)
    (hend : e = .handBack ∨ e = .endTick → s.running = none) : Turns { s with tick := l } where
  claimed hbusy := by
    by_cases hidle : s.tick.phase = .idle
    · rcases he.wakes hstep hidle with hstill | ⟨now, hprep⟩
      · exact absurd hstill hbusy
      · exact hclaim now hprep
    · exact ht.claimed hidle
  running h hrun := by
    rcases he.ends hstep (ht.running h hrun) with hstill | hover
    · exact hstill
    · exact absurd (hrun.symm.trans (hend hover)) (by simp)

/-! ## 3. The open loop -/

structure Open (s : CoreLoop) : Prop where
  closed : s.closed = false
  calls : Calls s
  watches : Watches s
  turns : Turns s

/-- Nothing is called, and what was cancelled stays so. -/
structure Quiet (s s' : CoreLoop) : Prop where
  calls : s'.calls = s.calls
  cancelled : ∀ h, s.tick.cancelled h = true → s'.tick.cancelled h = true

theorem Quiet.refl (s : CoreLoop) : Quiet s s := ⟨rfl, fun _ hh => hh⟩

theorem Quiet.trans {s'' : CoreLoop} (hq : Quiet s s') (hq' : Quiet s' s'') : Quiet s s'' :=
  ⟨hq'.calls.trans hq.calls, fun h hh => hq'.cancelled h (hq.cancelled h hh)⟩

namespace Open

theorem new : Open .new where
  closed := rfl
  calls := .new
  watches := .new
  turns := ⟨fun hh => absurd rfl hh, fun h hh => by cases hh⟩

theorem internal (ho : Open s) {e : Core.Tick.Event HandleRef} (he : Internal e)
    (hclaim : ∀ now, e = .prepareTick now [] [] → s.claimed = true)
    (hend : e = .handBack ∨ e = .endTick → s.running = none) (hstep : s.reactor e = some s') :
    Open s' ∧ Quiet s s' := by
  obtain ⟨l, hl, rfl⟩ := Option.map_eq_some_iff.mp hstep
  obtain ⟨hq, hsame⟩ := ho.calls.queues.internal he hl
  have hmore : ∀ h, s.tick.cancelled h = true → l.cancelled h = true := fun h hh => hsame.cancelled ▸ hh
  refine ⟨⟨ho.closed, ho.calls.ticks hq hsame, ?_, ho.turns.internal he hl hclaim hend⟩, rfl, hmore⟩
  exact ho.watches.mono (fun _ => rfl) rfl (fun side => by cases side <;> rfl) (fun _ hh => hh) hmore rfl

theorem retire (ho : Open s) {hs : List HandleRef} (hr : Retires s s' hs)
    (hlt : ∀ h ∈ hs, h < s.handles.length) : Open s' ∧ Quiet s s' := by
  have hmore : ∀ h, s.tick.cancelled h = true → s'.tick.cancelled h = true := by
    intro h hh
    rw [hr.cancelled, hh, Bool.or_true]
  have hphase : s'.tick.phase = s.tick.phase := by rw [hr.same]
  refine ⟨⟨?_, ho.calls.retire hr hlt, ?_, ?_, ?_⟩, ?_, hmore⟩
  · rw [hr.same]
    exact ho.closed
  · refine ho.watches.mono hr.persistent (by rw [hr.same]) (fun side => ?_) (fun h hh => ?_) hmore
      (by rw [hr.same])
    · rw [hr.same]
      cases side <;> rfl
    · rw [hr.same] at hh
      exact hh
  · rw [hphase, hr.same]
    exact ho.turns.claimed
  · rw [hphase, hr.same]
    exact ho.turns.running
  · rw [hr.same]

theorem drain (ho : Open s) (hstep : s.drainGraveyards = some s') : Open s' ∧ Quiet s s' := by
  obtain ⟨s₁, hs₁, rfl⟩ := Option.map_eq_some_iff.mp hstep
  obtain ⟨ho₁, hq₁⟩ := ho.internal .takeGraveyard (fun now hh => by cases hh)
    (fun hh => by rcases hh with hh | hh <;> cases hh) hs₁
  have hr := foldl_retires s₁.graveyardHandles { s₁ with graveyardHandles := [] }
  have hempty : Calls { s₁ with graveyardHandles := [] } := ho₁.calls.frame rfl rfl rfl rfl
  have hlt : ∀ h ∈ s₁.graveyardHandles, h < s₁.handles.length := fun h hh =>
    lt_of_persistent (ho₁.watches.kinds h (.inl hh))
  refine ⟨⟨?_, hempty.retire hr hlt, ho₁.watches.drain hr, ?_, ?_⟩, hq₁.trans ⟨?_, fun h hh => ?_⟩⟩
  · rw [hr.same]
    exact ho₁.closed
  · rw [hr.same]
    exact ho₁.turns.claimed
  · rw [hr.same]
    exact ho₁.turns.running
  · rw [hr.same]
  · rw [hr.cancelled]
    exact Bool.or_eq_true_iff.mpr (.inr hh)

theorem schedule (ho : Open s) {l : Core.Tick.Loop HandleRef} (hp : Pushes s.tick l s.handles.length) :
    Open { (s.make false).2 with tick := l } ∧ Quiet s { (s.make false).2 with tick := l } := by
  have hpersistent : ∀ h, ({ (s.make false).2 with tick := l } : CoreLoop).persistent h =
      s.persistent h := by
    intro h
    refine (persistent_make s false h).trans ?_
    rw [Bool.and_false, Bool.false_or]
  have hmore : ∀ h, s.tick.cancelled h = true → l.cancelled h = true := fun h hh => hp.cancelled ▸ hh
  refine ⟨⟨ho.closed, ho.calls.schedule hp, ?_, fun hbusy => ?_, fun h hrun => ?_⟩, rfl, hmore⟩
  · exact ho.watches.mono hpersistent rfl (fun side => by cases side <;> rfl) (fun _ hh => hh) hmore rfl
  · exact ho.turns.claimed (hp.phase ▸ hbusy)
  · exact hp.phase.trans (ho.turns.running h hrun)

theorem callSoon (ho : Open s) (hstep : s.callSoon = some s') : Open s' ∧ Quiet s s' := by
  unfold CoreLoop.callSoon at hstep
  rw [if_neg (by rw [ho.closed]; decide)] at hstep
  dsimp only at hstep
  split at hstep
  · obtain ⟨l, hl, rfl⟩ := Option.map_eq_some_iff.mp hstep
    exact ho.schedule (ho.calls.queues.pushReady hl)
  · split at hstep
    · obtain ⟨s₁, hs₁, hs'⟩ := Option.bind_eq_some_iff.mp hstep
      obtain ⟨l₁, hl₁, rfl⟩ := Option.map_eq_some_iff.mp hs₁
      obtain ⟨l, hl, rfl⟩ := Option.map_eq_some_iff.mp hs'
      exact ho.schedule (ho.calls.queues.foreign rfl hl₁ hl)
    · cases hstep

theorem callAt (ho : Open s) {deadline : Nat} (hstep : s.callAt deadline = some s') :
    Open s' ∧ Quiet s s' := by
  unfold CoreLoop.callAt at hstep
  rw [if_neg (by rw [ho.closed]; decide)] at hstep
  dsimp only at hstep
  split at hstep
  · obtain ⟨l, hl, rfl⟩ := Option.map_eq_some_iff.mp hstep
    exact ho.schedule (ho.calls.queues.scheduleTimer hl)
  · split at hstep
    · obtain ⟨s₁, hs₁, hs'⟩ := Option.bind_eq_some_iff.mp hstep
      obtain ⟨l₁, hl₁, rfl⟩ := Option.map_eq_some_iff.mp hs₁
      obtain ⟨l, hl, rfl⟩ := Option.map_eq_some_iff.mp hs'
      exact ho.schedule (ho.calls.queues.foreign rfl hl₁ hl)
    · cases hstep

/-- The count is of no matter to the flag and the release. -/
theorem cancel (ho : Open s) {h : HandleRef} (hstep : s.cancel h = some s') : Open s' ∧ Quiet s s' := by
  unfold CoreLoop.cancel at hstep
  split at hstep
  · cases hstep
  rename_i hlt
  have hlt : h < s.handles.length := Nat.lt_of_not_le fun hout => hlt (.inl hout)
  split at hstep
  · injection hstep with hstep
    exact hstep ▸ ⟨ho, .refl s⟩
  have hone : ∀ x ∈ [h], x < s.handles.length := fun x hx => List.mem_singleton.mp hx ▸ hlt
  dsimp only at hstep
  split at hstep
  · obtain ⟨s₁, hs₁, rfl⟩ := Option.map_eq_some_iff.mp hstep
    obtain ⟨ho₁, hq₁⟩ := ho.retire (foldl_retires [h] s) hone
    obtain ⟨l, hl, rfl⟩ := Option.map_eq_some_iff.mp hs₁
    have hcount : ((s.doCancel h).release h).reactor .countCancelled =
        some (({ s.doCancel h with tick := l } : CoreLoop).release h) := by
      unfold CoreLoop.reactor
      exact Option.map_eq_some_iff.mpr ⟨l, hl, rfl⟩
    obtain ⟨ho₂, hq₂⟩ := ho₁.internal .countCancelled (fun now hh => by cases hh)
      (fun hh => by rcases hh with hh | hh <;> cases hh) hcount
    exact ⟨ho₂, hq₁.trans hq₂⟩
  · injection hstep with hstep
    exact hstep ▸ ho.retire (foldl_retires [h] s) hone

/-! ### The watch tables -/

theorem make_watch (ho : Open s) : Calls (s.make true).2 ∧ ∀ h, (s.make true).2.persistent h = true ↔
    h = s.handles.length ∨ s.persistent h = true := by
  refine ⟨ho.calls.make_watch, fun h => ?_⟩
  rw [persistent_make, Bool.and_true, Bool.or_eq_true, decide_eq_true_eq]

theorem addWatch (ho : Open s) {side : Side} {socket : Socket} {agreed : Bool}
    (hstep : s.addWatch side socket agreed = some s') : Open s' ∧ Quiet s s' := by
  unfold CoreLoop.addWatch at hstep
  split at hstep
  · cases hstep
  obtain ⟨hcalls, hpersistent⟩ := ho.make_watch
  dsimp only at hstep
  split at hstep
  · set s₁ : CoreLoop := (s.make true).2 with hs₁
    set s₂ : CoreLoop :=
      (s₁.setTable side ((s₁.table side).insert socket s.handles.length)).syncWatch socket with hs₂
    have hdrain : CoreLoop.drainGraveyards { s₂ with
        graveyardHandles := s₂.graveyardHandles ++ ((s₁.table side).lookup socket).toList } = some s' :=
      hstep
    have htable : ∀ side' fd, (s₂.table side').lookup fd =
        if side' = side ∧ fd = socket then some s.handles.length else (s.table side').lookup fd := by
      intro side' fd
      have heq : s₂.table side' =
          if side' = side then (s.table side).insert socket s.handles.length else s.table side' := by
        cases side <;> cases side' <;> rfl
      rw [heq]
      by_cases hside : side' = side
      · subst hside
        by_cases hfd : fd = socket
        · subst hfd
          simp
        · simp [hfd, AList.lookup_insert_ne hfd]
      · simp [hside]
    have hgrave : s₂.graveyardHandles = s.graveyardHandles := by cases side <;> rfl
    have hscratch : s₂.readyScratch = s.readyScratch := by cases side <;> rfl
    have hsame : ∀ h, s₂.persistent h = s₁.persistent h := fun h => by cases side <;> rfl
    have hlookup : (s₁.table side).lookup socket = (s.table side).lookup socket := by cases side <;> rfl
    have hnew : (s₂.table side).lookup socket = some s.handles.length := by simp [htable]
    have hwatches : Watches { s₂ with
        graveyardHandles := s₂.graveyardHandles ++ ((s₁.table side).lookup socket).toList } := by
      refine ho.watches.retable (fun h hp => ?_) (fun h hp => ?_) (fun h hh => ?_)
        (fun side' fd h hh => ?_) (fun h hh => ?_) (fun h hh => ?_)
        (ho.watches.synced_at (fun side' fd (hne : fd ≠ socket) => ?_) (fun side' fd => ?_))
      · exact (hsame h).trans ((hpersistent h).mpr (.inr hp))
      · rcases (hpersistent h).mp ((hsame h).symm.trans hp) with rfl | hp
        · exact .inr (.inr ⟨side, socket, hnew⟩)
        · exact .inl hp
      · exact List.mem_append_left _ (hgrave.symm ▸ hh)
      · by_cases hat : side' = side ∧ fd = socket
        · obtain ⟨rfl, rfl⟩ := hat
          refine .inl (List.mem_append_right _ ?_)
          rw [hlookup, hh]
          exact List.mem_singleton_self h
        · refine .inr ((htable side' fd).trans ?_)
          rw [if_neg hat]
          exact hh
      · rcases hh with hh | ⟨side', fd, hh⟩ | hh
        · rcases List.mem_append.mp hh with hh | hh
          · exact .inl (.inl (hgrave ▸ hh))
          · rw [hlookup, Option.mem_toList] at hh
            exact .inl (.inr (.inl ⟨side, socket, hh⟩))
        · have hh := (htable side' fd).symm.trans hh
          split at hh
          · injection hh with hh
            exact .inr ((hsame h).trans ((hpersistent h).mpr (.inl hh.symm)))
          · exact .inl (.inr (.inl ⟨side', fd, hh⟩))
        · exact .inl (.inr (.inr (hscratch ▸ hh)))
      · cases side <;> exact hh
      · refine (htable side' fd).trans ?_
        rw [if_neg fun hh => hne hh.2]
      · cases side <;> cases side' <;> rfl
    have ho₂ : Open { s₂ with
        graveyardHandles := s₂.graveyardHandles ++ ((s₁.table side).lookup socket).toList } := by
      refine ⟨by cases side <;> exact ho.closed, ?_, hwatches, ?_, ?_⟩
      · cases side <;> exact hcalls.frame rfl rfl rfl rfl
      · cases side <;> exact ho.turns.claimed
      · cases side <;> exact ho.turns.running
    obtain ⟨ho', hq⟩ := ho₂.drain hdrain
    refine ⟨ho', Quiet.trans ⟨?_, fun h hh => ?_⟩ hq⟩
    · cases side <;> rfl
    · cases side <;> exact hh
  · injection hstep with hstep
    subst hstep
    refine ⟨⟨ho.closed, hcalls.frame rfl rfl rfl rfl, ?_, ho.turns.claimed, ho.turns.running⟩,
      rfl, fun _ hh => hh⟩
    refine ho.watches.retable (fun h hp => (hpersistent h).mpr (.inr hp)) (fun h hp => ?_)
      (fun h hh => List.mem_append_left _ hh) (fun side' fd h hh => .inr ?_) (fun h hh => ?_)
      (fun _ hh => hh) (fun side' fd => ?_)
    · rcases (hpersistent h).mp hp with rfl | hp
      · exact .inr (.inl (List.mem_append_right _ (List.mem_singleton_self _)))
      · exact .inl hp
    · cases side' <;> exact hh
    · rcases hh with hh | ⟨side', fd, hh⟩ | hh
      · rcases List.mem_append.mp hh with hh | hh
        · exact .inl (.inl hh)
        · exact .inr ((hpersistent h).mpr (.inl (List.mem_singleton.mp hh)))
      · refine .inl (.inr (.inl ⟨side', fd, ?_⟩))
        cases side' <;> exact hh
      · exact .inl (.inr (.inr hh))
    · refine (ho.watches.synced side' fd).trans ?_
      cases side' <;> rfl

theorem removeWatch (ho : Open s) {side : Side} {socket : Socket} {agreed : Bool}
    (hstep : s.removeWatch side socket agreed = some s') : Open s' ∧ Quiet s s' := by
  unfold CoreLoop.removeWatch at hstep
  split at hstep
  · cases hstep
  dsimp only at hstep
  split at hstep
  · split at hstep
    · set s₂ : CoreLoop := (s.setTable side ((s.table side).erase socket)).syncWatch socket with hs₂
      have ho₂ : Open { s₂ with
          graveyardHandles := s₂.graveyardHandles ++ ((s.table side).lookup socket).toList } := by
        refine ⟨by cases side <;> exact ho.closed, ?_, ?_, ?_, ?_⟩
        · cases side <;> exact ho.calls.frame rfl rfl rfl rfl
        · refine ho.watches.erase (fun side' => decide (side' = side)) (fun side' fd => ?_) (fun h => ?_)
            (fun h => by cases side <;> rfl) (by cases side <;> rfl) (by cases side <;> rfl)
            (fun side' fd => by cases side <;> cases side' <;> rfl)
          · have heq : s₂.table side' = if side' = side then (s.table side).erase socket
                else s.table side' := by
              cases side <;> cases side' <;> rfl
            refine (congrArg (AList.lookup fd) heq).trans ?_
            by_cases hside : side' = side
            · subst hside
              by_cases hfd : fd = socket
              · subst hfd
                simp
              · simp [hfd, AList.lookup_erase_ne hfd]
            · simp [hside]
          · have hgrave : s₂.graveyardHandles = s.graveyardHandles := by cases side <;> rfl
            show h ∈ s₂.graveyardHandles ++ _ ↔ _
            rw [List.mem_append, hgrave, Option.mem_toList]
            simp
        · cases side <;> exact ho.turns.claimed
        · cases side <;> exact ho.turns.running
      obtain ⟨ho', hq⟩ := ho₂.drain hstep
      refine ⟨ho', Quiet.trans ⟨?_, fun h hh => ?_⟩ hq⟩
      · cases side <;> rfl
      · cases side <;> exact hh
    · injection hstep with hstep
      exact hstep ▸ ⟨ho, .refl s⟩
  · exact ho.drain hstep

theorem unwatchCancelled (ho : Open s) (socket : Socket) (r w agreed : Bool) :
    Open (s.unwatchCancelled socket r w agreed) ∧ Quiet s (s.unwatchCancelled socket r w agreed) := by
  unfold CoreLoop.unwatchCancelled
  split
  · exact ⟨ho, .refl s⟩
  have hsame := unwatch_same socket r w s
  refine ⟨⟨?_, ?_, ?_, ?_, ?_⟩, ?_, fun h hh => ?_⟩
  · rw [hsame]
    exact ho.closed
  · rw [hsame]
    exact ho.calls.frame rfl rfl rfl rfl
  · refine ho.watches.erase (sides r w) (table_lookup_unwatch socket r w s) (fun h => ?_)
      (fun h => by rw [hsame]; rfl) (by rw [hsame]) (by rw [hsame])
      (fun side fd => by cases r <;> cases w <;> cases side <;> rfl)
    · rw [exists_side]
      cases r <;> cases w <;> simp [CoreLoop.table, sides]
  · rw [hsame]
    exact ho.turns.claimed
  · rw [hsame]
    exact ho.turns.running
  · rw [hsame]
  · rw [hsame]
    exact hh

theorem push_watches (ho : Open s) {hs : List HandleRef} (hpersistent : ∀ h ∈ hs, s.persistent h = true)
    (hstep : hs.foldlM (fun s h => s.reactor (.pushReady h)) s = some s') :
    Open s' ∧ Quiet s s' := by
  induction hs generalizing s with
  | nil =>
    injection hstep with hstep
    exact hstep ▸ ⟨ho, .refl s⟩
  | cons h hs ih =>
    rw [List.foldlM_cons] at hstep
    obtain ⟨s₁, hs₁, hrest⟩ := Option.bind_eq_some_iff.mp hstep
    obtain ⟨l, hl, rfl⟩ := Option.map_eq_some_iff.mp hs₁
    have hp := ho.calls.queues.pushReady hl
    have hmore : ∀ h, s.tick.cancelled h = true → l.cancelled h = true := fun h hh => hp.cancelled ▸ hh
    have ho₁ : Open { s with tick := l } := by
      refine ⟨ho.closed, ho.calls.push_watch (hpersistent h List.mem_cons_self) hp, ?_,
        fun hbusy => ho.turns.claimed (hp.phase ▸ hbusy),
        fun x hrun => hp.phase.trans (ho.turns.running x hrun)⟩
      exact ho.watches.mono (fun _ => rfl) rfl (fun side => by cases side <;> rfl) (fun _ hh => hh) hmore
        rfl
    obtain ⟨ho', hq'⟩ := ih ho₁ (fun x hx => hpersistent x (List.mem_cons_of_mem h hx)) hrest
    have hq₁ : Quiet s { s with tick := l } := ⟨rfl, hmore⟩
    exact ⟨ho', hq₁.trans hq'⟩

theorem take_cases (hstep : s.take = some s') :
    ∃ s₁, (s₁ = s ∨ ∃ s₀, s.pushScratch = some s₀ ∧ s₀.reactor .absorbIntoBatch = some s₁) ∧
      ∃ s₂, s₁.reactor .takeBatch = some s₂ ∧
        ∃ s₃, s₂.reactor .takeExpired = some s₃ ∧ s₃.reactor .takeGraveyard = some s' := by
  unfold CoreLoop.take at hstep
  simp only [Option.bind_eq_bind] at hstep
  split at hstep
  · obtain ⟨s₀, hs₀, hstep⟩ := Option.bind_eq_some_iff.mp hstep
    obtain ⟨s₁, hs₁, hstep⟩ := Option.bind_eq_some_iff.mp hstep
    obtain ⟨s₂, hs₂, hstep⟩ := Option.bind_eq_some_iff.mp hstep
    obtain ⟨s₃, hs₃, hstep⟩ := Option.bind_eq_some_iff.mp hstep
    exact ⟨s₁, .inr ⟨s₀, hs₀, hs₁⟩, s₂, hs₂, s₃, hs₃, hstep⟩
  · obtain ⟨s₂, hs₂, hstep⟩ := Option.bind_eq_some_iff.mp hstep
    obtain ⟨s₃, hs₃, hstep⟩ := Option.bind_eq_some_iff.mp hstep
    exact ⟨s, .inl rfl, s₂, hs₂, s₃, hs₃, hstep⟩

theorem pushScratch (ho : Open s) (hstep : s.pushScratch = some s') : Open s' ∧ Quiet s s' := by
  have ho₁ : Open { s with readyScratch := [] } := by
    refine ⟨ho.closed, ho.calls.frame rfl rfl rfl rfl, ?_, ho.turns.claimed, ho.turns.running⟩
    exact ho.watches.mono (fun _ => rfl) rfl (fun side => by cases side <;> rfl)
      (fun h hh => absurd hh List.not_mem_nil) (fun _ hh => hh) rfl
  obtain ⟨ho', hq⟩ := ho₁.push_watches (fun h hh => ho.watches.kinds h (.inr (.inr hh))) hstep
  exact ⟨ho', hq.calls, hq.cancelled⟩

theorem take (ho : Open s) (hstep : s.take = some s') : Open s' ∧ Quiet s s' := by
  have hnever : ∀ {e : Core.Tick.Event HandleRef} {s s' : CoreLoop}, Open s → Internal e →
      (∀ now, e ≠ .prepareTick now [] []) → e ≠ .handBack → e ≠ .endTick → s.reactor e = some s' →
      Open s' ∧ Quiet s s' := fun ho he hp hb hd hs =>
    ho.internal he (fun now hh => absurd hh (hp now)) (fun hh => absurd hh (not_or.mpr ⟨hb, hd⟩)) hs
  obtain ⟨s₁, hs₁, s₂, hs₂, s₃, hs₃, hs'⟩ := take_cases hstep
  have hpushed : Open s₁ ∧ Quiet s s₁ := by
    rcases hs₁ with rfl | ⟨s₀, hs₀, hs₁⟩
    · exact ⟨ho, .refl _⟩
    · obtain ⟨ho₀, hq₀⟩ := ho.pushScratch hs₀
      obtain ⟨ho₁, hq₁⟩ := hnever ho₀ .absorbIntoBatch (by simp) (by simp) (by simp) hs₁
      exact ⟨ho₁, hq₀.trans hq₁⟩
  obtain ⟨ho₁, hq₁⟩ := hpushed
  obtain ⟨ho₂, hq₂⟩ := hnever ho₁ .takeBatch (by simp) (by simp) (by simp) hs₂
  obtain ⟨ho₃, hq₃⟩ := hnever ho₂ .takeExpired (by simp) (by simp) (by simp) hs₃
  obtain ⟨ho', hq'⟩ := hnever ho₃ .takeGraveyard (by simp) (by simp) (by simp) hs'
  exact ⟨ho', ((hq₁.trans hq₂).trans hq₃).trans hq'⟩

/-- Watches of the tables fire. -/
theorem fire (ho : Open s) {fired : List HandleRef} (hfired : ∀ h ∈ fired, s.Watched h) :
    Open { s with readyScratch := s.readyScratch ++ fired } := by
  refine ⟨ho.closed, ho.calls.frame rfl rfl rfl rfl, ?_, ho.turns.claimed, ho.turns.running⟩
  have hwatch : ∀ h, ({ s with readyScratch := s.readyScratch ++ fired } : CoreLoop).Watched h →
      s.Watched h := by
    rintro h ⟨side, fd, hh⟩
    exact ⟨side, fd, by cases side <;> exact hh⟩
  refine ho.watches.retable (fun h hp => hp) (fun h hp => .inl hp) (fun h hh => hh)
    (fun side fd h hh => .inr (by cases side <;> exact hh)) (fun h hh => .inl ?_) (fun h hh => hh)
    (fun side fd => by cases side <;> exact ho.watches.synced _ fd)
  rcases hh with hh | hh | hh
  · exact .inl hh
  · exact .inr (.inl (hwatch h hh))
  · exact .inr ((List.mem_append.mp hh).symm.imp (hfired h) id)

theorem translateReady (ho : Open s) {socket : Socket} {readable writable agreed : Bool}
    (hstep : s.translateReady socket readable writable agreed = some s') : Open s' ∧ Quiet s s' := by
  unfold CoreLoop.translateReady at hstep
  split at hstep
  · cases hstep
  injection hstep with hstep
  generalize hdropR : (readable && _) = dropR at hstep
  generalize hdropW : (writable && _) = dropW at hstep
  have hdropped : Open (if dropR ∨ dropW then s.unwatchCancelled socket dropR dropW agreed else s) ∧
      Quiet s (if dropR ∨ dropW then s.unwatchCancelled socket dropR dropW agreed else s) := by
    split
    · exact ho.unwatchCancelled socket dropR dropW agreed
    · exact ⟨ho, .refl s⟩
  generalize (if dropR = true ∨ dropW = true then s.unwatchCancelled socket dropR dropW agreed else s) = s₁
    at hstep hdropped
  subst hstep
  refine ⟨hdropped.1.fire fun h hh => ?_, hdropped.2.calls, hdropped.2.cancelled⟩
  rcases List.mem_append.mp hh with hh | hh
  · split at hh
    · exact ⟨.reader, socket, Option.mem_toList.mp hh⟩
    · cases hh
  · split at hh
    · exact ⟨.writer, socket, Option.mem_toList.mp hh⟩
    · cases hh

theorem runHandle (ho : Open s) (hstep : s.runHandle = some s') :
    Open s' ∧ (∀ h, s.tick.cancelled h = true → s'.calls.count h = s.calls.count h) ∧
      s'.tick.cancelled = s.tick.cancelled := by
  unfold CoreLoop.runHandle at hstep
  split at hstep
  · cases hstep
  rename_i hidle
  have hidle : s.running = none := by simpa using hidle
  split at hstep
  · cases hstep
  rename_i h batch hbatch
  obtain ⟨l, hl, rfl⟩ := Option.map_eq_some_iff.mp hstep
  have hd := ho.calls.queues.dispatch hbatch hl
  refine ⟨⟨ho.closed, ho.calls.dispatch hidle hbatch hl, ?_, ?_, fun _ _ => hd.still⟩, fun x hx => ?_,
    hd.cancelled⟩
  · exact ho.watches.mono (fun _ => rfl) rfl (fun side => by cases side <;> rfl) (fun _ hh => hh)
      (fun x hx => hd.cancelled ▸ hx) rfl
  · intro _
    refine ho.turns.claimed ?_
    rw [hd.phase]
    decide
  · show (if ¬s.tick.cancelled h ∧ s.refs h then s.calls ++ [h] else s.calls).count x = _
    split
    · rename_i hrun
      have hne : h ≠ x := fun heq => hrun.1 (heq ▸ hx)
      rw [List.count_append, List.count_singleton, if_neg (by simpa using hne), Nat.add_zero]
    · rfl

theorem returned (ho : Open s) (hstep : s.returned = some s') : Open s' ∧ Quiet s s' := by
  obtain ⟨h, hrun, rfl⟩ := Option.map_eq_some_iff.mp hstep
  have hcalls := ho.calls.returned hrun
  have hkeep : s.releaseAfterDispatch h = s ∨ s.releaseAfterDispatch h = s.release h := by
    unfold CoreLoop.releaseAfterDispatch
    split
    · exact .inl rfl
    · exact .inr rfl
  rcases hkeep with heq | heq
  · rw [heq] at hcalls ⊢
    refine ⟨⟨ho.closed, hcalls, ?_, ho.turns.claimed, fun x hx => by cases hx⟩, rfl, fun _ hh => hh⟩
    exact ho.watches.mono (fun _ => rfl) rfl (fun side => by cases side <;> rfl) (fun _ hh => hh)
      (fun _ hh => hh) rfl
  · rw [heq] at hcalls ⊢
    refine ⟨⟨ho.closed, hcalls, ?_, ho.turns.claimed, fun x hx => by cases hx⟩, rfl, fun _ hh => hh⟩
    exact ho.watches.mono (persistent_release s h) rfl (fun side => by cases side <;> rfl)
      (fun _ hh => hh) (fun _ hh => hh) rfl

theorem runForever (ho : Open s) (hstep : s.runForever = some s') : Open s' ∧ Quiet s s' := by
  unfold CoreLoop.runForever at hstep
  split at hstep
  · cases hstep
  injection hstep with hstep
  subst hstep
  refine ⟨⟨ho.closed, ho.calls.frame rfl rfl rfl rfl, ?_, fun _ => rfl, ho.turns.running⟩, rfl,
    fun _ hh => hh⟩
  exact ho.watches.mono (fun _ => rfl) rfl (fun side => by cases side <;> rfl) (fun _ hh => hh)
    (fun _ hh => hh) rfl

theorem leave (ho : Open s) (hstep : s.leave = some s') : Open s' ∧ Quiet s s' := by
  unfold CoreLoop.leave at hstep
  split at hstep
  · rename_i hidle
    injection hstep with hstep
    subst hstep
    refine ⟨⟨ho.closed, ho.calls.frame rfl rfl rfl rfl, ?_, fun hbusy => absurd hidle.2 hbusy,
      ho.turns.running⟩, rfl, fun _ hh => hh⟩
    exact ho.watches.mono (fun _ => rfl) rfl (fun side => by cases side <;> rfl) (fun _ hh => hh)
      (fun _ hh => hh) rfl
  · cases hstep

/-- What still references anything is the loop's. -/
theorem owned (ho : Open s) {h : HandleRef} (hrefs : s.refs h = true) :
    h ∈ s.waiting ∨ s.running = some h ∨ s.Watched h ∨ h ∈ s.graveyardHandles := by
  cases hp : s.persistent h with
  | false => exact (ho.calls.held hrefs hp).imp_right .inl
  | true =>
    rcases ho.watches.covered h hp with hgrave | hwatch | hflag
    · exact .inr (.inr (.inr hgrave))
    · exact .inr (.inr (.inl hwatch))
    · rw [(ho.calls.flagged h hflag).2] at hrefs
      cases hrefs

end Open

end Cadeloop.Pyshim.Handles
