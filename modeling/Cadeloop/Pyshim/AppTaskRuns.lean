import Cadeloop.Pyshim.AppTask

/-!
# The driver over whole runs

Two invariants.  A task that is suspended has one resumption to come: its `_wake` with the future it
waits on, or one entry of the ready queue.  A request to cancel that no future took is latched until
the next step, which throws a `CancelledError` into the coroutine.
-/

namespace Cadeloop.Pyshim.AppTask

open Cadeloop.Reasoning

variable {M E F : Type*} {s s' : State M E F} {f : Nat}

/-! ## 1. Resumptions -/

/-- The resumptions on the ready queue. -/
def State.queued (s : State M E F) : List Entry := s.ready.filter Entry.resumes

/-- No resumption is to come. -/
def Unscheduled (s : State M E F) : Prop :=
  s.waitingOn = none ∧ s.queued = [] ∧ ∀ g, (s.futs g).wakes = 0

/-- One resumption is to come: registered on the future waited on, while that is pending, else on
    the ready queue. -/
def Scheduled (s : State M E F) : Prop :=
  match s.waitingOn with
  | none => s.queued = [.resumeBare] ∧ ∀ g, (s.futs g).wakes = 0
  | some f =>
    (∀ g, g ≠ f → (s.futs g).wakes = 0) ∧
      match (s.futs f).outcome with
      | none => (s.futs f).wakes = 1 ∧ s.queued = []
      | some _ => (s.futs f).wakes = 0 ∧ s.queued = [.wake f]

/-- What the coroutine's state asks for. -/
structure Resumable (s : State M E F) : Prop where
  suspended : s.coro = .suspended → Scheduled s
  awake : s.coro ≠ .suspended → Unscheduled s

theorem resumable_congr (h : Resumable s) (hcoro : s'.coro = s.coro)
    (hwaiting : s'.waitingOn = s.waitingOn) (hfuts : s'.futs = s.futs)
    (hqueued : s'.queued = s.queued) : Resumable s' := by
  constructor
  · intro hsuspended
    have hscheduled := h.suspended (hcoro ▸ hsuspended)
    unfold Scheduled at *
    rw [hwaiting, hfuts, hqueued]
    exact hscheduled
  · intro hawake
    obtain ⟨hnone, hempty, hwakes⟩ := h.awake (hcoro ▸ hawake)
    exact ⟨hwaiting.trans hnone, hqueued.trans hempty, fun g => by rw [hfuts, hwakes g]⟩

/-- How a future that finishes is seen from the task. -/
structure Completed (f : Nat) (s s' : State M E F) : Prop where
  coro : s'.coro = s.coro
  waitingOn : s'.waitingOn = s.waitingOn
  done : ((s'.futs f).outcome).isSome = true ∧ (s'.futs f).wakes = 0
  others : ∀ g, g ≠ f → s'.futs g = s.futs g
  queued : s'.queued = s.queued ++ List.replicate (s.futs f).wakes (.wake f)

theorem complete_completed (hpending : (s.futs f).outcome = none) (throw : Option (Exc M E)) :
    Completed f s (complete f throw s) := by
  unfold complete
  rw [hpending]
  constructor
  · rfl
  · rfl
  · simp
  · intro g hg
    simp [hg]
  · simp [State.queued, List.filter_append, Entry.resumes]

theorem Completed.resumable (h : Completed f s s') (hs : Resumable s)
    (hpending : (s.futs f).outcome = none) : Resumable s' := by
  constructor
  · intro hsuspended
    have hscheduled := hs.suspended (h.coro ▸ hsuspended)
    unfold Scheduled at *
    rw [h.waitingOn, h.queued]
    cases hwaiting : s.waitingOn with
    | none =>
      simp only [hwaiting] at hscheduled ⊢
      obtain ⟨hqueued, hwakes⟩ := hscheduled
      refine ⟨by simp [hwakes f, hqueued], fun g => ?_⟩
      by_cases hg : g = f
      · rw [hg, h.done.2]
      · rw [h.others g hg, hwakes g]
    | some f' =>
      simp only [hwaiting] at hscheduled ⊢
      obtain ⟨hothers, hthere⟩ := hscheduled
      by_cases hf : f' = f
      · -- the registered `_wake` moves to the queue
        subst hf
        rw [hpending] at hthere
        obtain ⟨hwakes, hqueued⟩ := hthere
        refine ⟨fun g hg => by rw [h.others g hg, hothers g hg], ?_⟩
        obtain ⟨throw, hthrow⟩ := Option.isSome_iff_exists.mp h.done.1
        rw [hthrow, hwakes, hqueued]
        exact ⟨h.done.2, rfl⟩
      · refine ⟨fun g hg => ?_, ?_⟩
        · by_cases hgf : g = f
          · rw [hgf, h.done.2]
          · rw [h.others g hgf, hothers g hg]
        · simpa [h.others f' hf, hothers f (Ne.symm hf)] using hthere
  · intro hawake
    obtain ⟨hnone, hempty, hwakes⟩ := hs.awake (h.coro ▸ hawake)
    refine ⟨h.waitingOn.trans hnone, by simp [h.queued, hempty, hwakes f], fun g => ?_⟩
    by_cases hg : g = f
    · rw [hg, h.done.2]
    · rw [h.others g hg, hwakes g]

theorem complete_resumable (hs : Resumable s) (f : Nat) (throw : Option (Exc M E)) :
    Resumable (complete f throw s) := by
  cases hpending : (s.futs f).outcome with
  | none => exact (complete_completed hpending throw).resumable hs hpending
  | some _ => simpa [complete, hpending] using hs

theorem futCancel_resumable (hs : Resumable s) (answer : Answer) (msg : Option M) (f : Nat) :
    Resumable (futCancel answer msg f s).2 := by
  unfold futCancel
  split
  · exact resumable_congr (complete_resumable hs f (some (.cancelled msg))) rfl rfl rfl rfl
  · exact resumable_congr hs rfl rfl rfl rfl
  · exact hs

theorem cancel_resumable (hs : Resumable s) (msg : Option M) (answer : Answer) :
    Resumable (cancel msg answer s).2 := by
  unfold cancel
  split
  · exact hs
  · have hcounted : Resumable { s with cancelsRequested := s.cancelsRequested + 1 } :=
      resumable_congr hs rfl rfl rfl rfl
    dsimp only
    split
    · exact resumable_congr hcounted rfl rfl rfl rfl
    · rename_i f _
      have hcancel := futCancel_resumable hcounted answer msg f
      split
      · rename_i heq
        rw [heq] at hcancel
        exact resumable_congr hcancel rfl rfl rfl rfl
      · rename_i heq
        rw [heq] at hcancel
        exact resumable_congr hcancel rfl rfl rfl rfl

/-- The coroutine awaits a future: its one resumption is the `_wake` registered there. -/
theorem await_resumable (hs : Unscheduled s) (answer : Answer) (f : Nat) :
    Resumable (await f answer s) := by
  obtain ⟨-, hempty, hwakes⟩ := hs
  have hadded : Resumable { addWake f s with waitingOn := some f, coro := .suspended } := by
    refine ⟨fun _ => ?_, fun h => absurd rfl h⟩
    unfold Scheduled addWake
    dsimp only
    cases hpending : (s.futs f).outcome with
    | some _ =>
      refine ⟨fun g _ => hwakes g, ?_⟩
      simp only [hpending]
      refine ⟨hwakes f, ?_⟩
      rw [State.queued] at hempty ⊢
      rw [List.filter_append, hempty]
      rfl
    | none =>
      refine ⟨fun g hg => by simp [hg, hwakes g], ?_⟩
      simp [hwakes f]
      exact hempty
  unfold await
  dsimp only
  split
  · have hcancel := futCancel_resumable hadded answer ({ addWake f s with
        waitingOn := some f, coro := .suspended } : State M E F).cancelMsg f
    split
    · rename_i heq
      rw [heq] at hcancel
      exact resumable_congr hcancel rfl rfl rfl rfl
    · rename_i heq
      rw [heq] at hcancel
      exact hcancel
  · exact hadded

theorem yields_resumable (hs : Resumable s) (foreign : Nat → Bool) (y : Yield) :
    Resumable (yields foreign s y) := by
  unfold yields
  split
  · exact hs
  · rename_i hrunning
    have hawake : Unscheduled s := hs.awake (by simp_all)
    cases y with
    | bare =>
      obtain ⟨hnone, hempty, hwakes⟩ := hawake
      refine ⟨fun _ => ?_, fun h => absurd rfl h⟩
      unfold Scheduled
      rw [State.queued] at hempty ⊢
      simp only [hnone, List.filter_append, hempty]
      exact ⟨rfl, hwakes⟩
    | future f answer =>
      dsimp only
      split
      · exact hs
      · exact await_resumable hawake answer f
    | bad => exact hs
    | returns => exact ⟨by simp, fun _ => hawake⟩
    | raises => exact ⟨by simp, fun _ => hawake⟩

/-! ## 2. One step of the coroutine for one resumption -/

/-- The queue without one entry, which is the one that was to come or a callback. -/
theorem queued_erase {i : Nat} {entry : Entry} (hi : s.ready[i]? = some entry) :
    s.queued.Perm ([entry].filter Entry.resumes ++ (s.ready.eraseIdx i).filter Entry.resumes) := by
  obtain ⟨hlt, hget⟩ := List.getElem?_eq_some_iff.mp hi
  have hperm := (List.getElem_cons_eraseIdx_perm hlt).filter Entry.resumes
  rw [hget, ← List.singleton_append, List.filter_append] at hperm
  exact hperm.symm

theorem queued_erase_callback {ready : List Entry} {i id : Nat}
    (hi : ready[i]? = some (.callback id)) :
    (ready.eraseIdx i).filter Entry.resumes = ready.filter Entry.resumes := by
  induction ready generalizing i with
  | nil => simp at hi
  | cons entry ready ih =>
    cases i with
    | zero =>
      obtain rfl : entry = .callback id := by simpa using hi
      rfl
    | succ i =>
      have hrest := ih (i := i) (by simpa using hi)
      rw [List.eraseIdx_cons_succ, List.filter_cons, List.filter_cons, hrest]

theorem resumption_taken (hs : Resumable s) {i : Nat} {entry : Entry}
    (hi : s.ready[i]? = some entry) (hentry : entry.resumes = true) :
    s.coro = .suspended ∧ s.queued = [entry] ∧
      Unscheduled { s with ready := s.ready.eraseIdx i, waitingOn := none } := by
  have hperm := queued_erase hi
  rw [List.filter_cons_of_pos hentry, List.filter_nil, List.singleton_append] at hperm
  have hcoro : s.coro = .suspended := by
    by_contra hcoro
    rw [(hs.awake hcoro).2.1] at hperm
    exact absurd hperm.symm.eq_nil (by simp)
  -- nothing else is queued, and so nothing is registered
  have hsingle (e : Entry) (he : s.queued = [e]) : e = entry ∧
      (s.ready.eraseIdx i).filter Entry.resumes = [] := by
    rw [he] at hperm
    have heq := List.perm_singleton.mp hperm.symm
    simp only [List.cons.injEq] at heq
    exact ⟨heq.1.symm, heq.2⟩
  have hscheduled := hs.suspended hcoro
  unfold Scheduled at hscheduled
  cases hwaiting : s.waitingOn with
  | none =>
    rw [hwaiting] at hscheduled
    obtain ⟨hqueued, hwakes⟩ := hscheduled
    obtain ⟨rfl, hrest⟩ := hsingle _ hqueued
    exact ⟨hcoro, hqueued, rfl, hrest, hwakes⟩
  | some f =>
    rw [hwaiting] at hscheduled
    obtain ⟨hothers, hthere⟩ := hscheduled
    cases houtcome : (s.futs f).outcome with
    | none =>
      simp only [houtcome] at hthere
      rw [hthere.2] at hperm
      exact absurd hperm.symm.eq_nil (by simp)
    | some throw =>
      simp only [houtcome] at hthere
      obtain ⟨rfl, hrest⟩ := hsingle _ hthere.2
      refine ⟨hcoro, hthere.2, rfl, hrest, fun g => ?_⟩
      by_cases hg : g = f
      · rw [hg]
        exact hthere.1
      · exact hothers g hg

theorem begin_resumable (incoming : Option (Exc M E))
    (hs : Unscheduled ({ s with waitingOn := none } : State M E F)) :
    Resumable (begin incoming s) := by
  refine ⟨fun h => ?_, fun _ => hs⟩
  simp [begin] at h

theorem dispatch_resumable (hs : Resumable s) (i : Nat) : Resumable (dispatch i s) := by
  unfold dispatch
  split
  · exact hs
  · exact hs
  · rename_i entry hi _
    dsimp only
    cases entry with
    | wake f =>
      obtain ⟨-, -, htaken⟩ := resumption_taken hs hi rfl
      exact begin_resumable _ htaken
    | resumeBare =>
      obtain ⟨-, -, htaken⟩ := resumption_taken hs hi rfl
      exact begin_resumable _ htaken
    | callback id =>
      exact resumable_congr hs rfl rfl rfl (queued_erase_callback hi)

/-! ## 3. Requests to cancel -/

/-- The requests of a step that no future took. -/
def State.latched (s : State M E F) (n : Nat) : List (Request M) :=
  s.requests.filter fun r => r.step = n ∧ r.forwarded.isNone

/-- What became of the requests that no future took before resumption `n`: a `CancelledError` went
    into the coroutine, with the message of the last of them, or as it was on its way in already. -/
def Delivered (s : State M E F) (n : Nat) : Prop :=
  s.latched n ≠ [] → ∃ e m, s.resumes[n]? = some e ∧ e.throw = some (.cancelled m) ∧
    (e.incoming = e.throw ∨ ∃ r, (s.latched n).getLast? = some r ∧ m = r.msg)

structure Remembered (s : State M E F) : Prop where
  steps : ∀ r ∈ s.requests, r.step ≤ s.resumes.length
  latch : s.mustCancel = true →
    ∃ r, (s.latched s.resumes.length).getLast? = some r ∧ s.cancelMsg = r.msg
  clear : s.mustCancel = false → s.coro ≠ .ended → s.latched s.resumes.length = []
  delivered : ∀ n < s.resumes.length, Delivered s n
  forwarded : ∀ r ∈ s.requests, ∀ f m, r.forwarded = some (f, m) → (f, m) ∈ s.agreed ∧
    ∃ r' ∈ s.requests, r'.step = r.step ∧ r'.forwarded = r.forwarded ∧ r'.msg = m

/-- Nothing that cancellation turns on changes, but that futures may agree to more. -/
structure Unmoved (s s' : State M E F) : Prop where
  mustCancel : s'.mustCancel = s.mustCancel
  cancelMsg : s'.cancelMsg = s.cancelMsg
  coro : s'.coro = s.coro
  resumes : s'.resumes = s.resumes
  requests : s'.requests = s.requests
  agreed : ∀ x ∈ s.agreed, x ∈ s'.agreed

theorem Unmoved.refl (s : State M E F) : Unmoved s s := ⟨rfl, rfl, rfl, rfl, rfl, fun _ h => h⟩

theorem Unmoved.trans {s'' : State M E F} (h : Unmoved s s') (h' : Unmoved s' s'') :
    Unmoved s s'' :=
  ⟨h'.mustCancel.trans h.mustCancel, h'.cancelMsg.trans h.cancelMsg, h'.coro.trans h.coro,
    h'.resumes.trans h.resumes, h'.requests.trans h.requests,
    fun x hx => h'.agreed x (h.agreed x hx)⟩

theorem Unmoved.latched (h : Unmoved s s') (n : Nat) : s'.latched n = s.latched n := by
  rw [State.latched, State.latched, h.requests]

theorem Unmoved.delivered (h : Unmoved s s') {n : Nat} (hn : Delivered s n) : Delivered s' n := by
  unfold Delivered at *
  rw [h.latched, h.resumes]
  exact hn

theorem Unmoved.remembered (h : Unmoved s s') (hs : Remembered s) : Remembered s' where
  steps := by
    rw [h.requests, h.resumes]
    exact hs.steps
  latch := by
    rw [h.mustCancel, h.cancelMsg, h.resumes, h.latched]
    exact hs.latch
  clear := by
    rw [h.mustCancel, h.coro, h.resumes, h.latched]
    exact hs.clear
  delivered n hn := h.delivered (hs.delivered n (h.resumes ▸ hn))
  forwarded := by
    rw [h.requests]
    intro r hr f m hf
    obtain ⟨hagreed, hsource⟩ := hs.forwarded r hr f m hf
    exact ⟨h.agreed _ hagreed, hsource⟩

theorem complete_unmoved (s : State M E F) (f : Nat) (throw : Option (Exc M E)) :
    Unmoved s (complete f throw s) := by
  unfold complete
  split
  · exact .refl s
  · exact ⟨rfl, rfl, rfl, rfl, rfl, fun _ h => h⟩

/-- A future that says `True` has agreed. -/
theorem futCancel_unmoved (s : State M E F) (answer : Answer) (msg : Option M) (f : Nat) :
    Unmoved s (futCancel answer msg f s).2 ∧
      ((futCancel answer msg f s).1 = true → (f, msg) ∈ (futCancel answer msg f s).2.agreed) := by
  unfold futCancel
  split
  · have hcomplete := complete_unmoved s f (some (.cancelled msg))
    refine ⟨⟨hcomplete.mustCancel, hcomplete.cancelMsg, hcomplete.coro, hcomplete.resumes,
      hcomplete.requests, fun x hx => ?_⟩, fun _ => ?_⟩
    · exact List.mem_append_left _ hx
    · exact List.mem_append_right _ (List.mem_singleton.mpr rfl)
  · refine ⟨⟨rfl, rfl, rfl, rfl, rfl, fun x hx => ?_⟩, fun _ => ?_⟩
    · exact List.mem_append_left _ hx
    · exact List.mem_append_right _ (List.mem_singleton.mpr rfl)
  · exact ⟨.refl s, fun h => by cases h⟩

/-! ### A request is made -/

theorem latch_latched (s : State M E F) (msg : Option M) (n : Nat) :
    (latch msg s).latched n =
      s.latched n ++ if s.resumes.length = n then [⟨msg, n, none⟩] else [] := by
  simp only [State.latched, latch, List.filter_append]
  split <;> simp_all

theorem latch_remembered (hs : Remembered s) (msg : Option M) : Remembered (latch msg s) where
  steps := by
    intro r hr
    rcases List.mem_append.mp hr with hr | hr
    · exact hs.steps r hr
    · rw [List.mem_singleton.mp hr]
      exact le_rfl
  latch _ := by
    refine ⟨⟨msg, s.resumes.length, none⟩, ?_, rfl⟩
    rw [latch_latched]
    simp [latch]
  clear h := by cases h
  delivered n hn := by
    have hdelivered := hs.delivered n hn
    have hne : s.resumes.length ≠ n := by
      have hlt : n < s.resumes.length := hn
      omega
    unfold Delivered at *
    rw [latch_latched, if_neg hne, List.append_nil]
    exact hdelivered
  forwarded := by
    intro r hr f m hf
    rcases List.mem_append.mp hr with hr | hr
    · obtain ⟨hagreed, r', hr', hsource⟩ := hs.forwarded r hr f m hf
      exact ⟨hagreed, r', List.mem_append_left _ hr', hsource⟩
    · rw [List.mem_singleton.mp hr] at hf
      cases hf

/-- A request that goes to the awaited future at once. -/
theorem forward_remembered (hs : Remembered s) {msg : Option M} (hagreed : (f, msg) ∈ s.agreed) :
    Remembered { s with
      requests := s.requests ++ [⟨msg, s.resumes.length, some (f, msg)⟩] } := by
  generalize hs' : ({ s with
      requests := s.requests ++ [⟨msg, s.resumes.length, some (f, msg)⟩] } : State M E F) = s'
  have hlatched (n : Nat) : s'.latched n = s.latched n := by
    subst hs'
    simp [State.latched, List.filter_append]
  have hrequests : s'.requests = s.requests ++ [⟨msg, s.resumes.length, some (f, msg)⟩] := by
    rw [← hs']
  have hresumes : s'.resumes = s.resumes := by rw [← hs']
  constructor
  · rw [hrequests, hresumes]
    intro r hr
    rcases List.mem_append.mp hr with hr | hr
    · exact hs.steps r hr
    · rw [List.mem_singleton.mp hr]
  · rw [hresumes, hlatched, ← hs']
    exact hs.latch
  · rw [hresumes, hlatched, ← hs']
    exact hs.clear
  · intro n hn
    have hdelivered := hs.delivered n (hresumes ▸ hn)
    unfold Delivered at *
    rw [hlatched, hresumes]
    exact hdelivered
  · rw [hrequests]
    intro r hr f' m hf
    have hkept : s'.agreed = s.agreed := by rw [← hs']
    rw [hkept]
    rcases List.mem_append.mp hr with hr | hr
    · obtain ⟨hmem, r', hr', hsource⟩ := hs.forwarded r hr f' m hf
      exact ⟨hmem, r', List.mem_append_left _ hr', hsource⟩
    · have hr' := List.mem_singleton.mp hr
      rw [hr'] at hf
      obtain ⟨rfl, rfl⟩ : f = f' ∧ msg = m := by simpa using hf
      exact ⟨hagreed, r, List.mem_append_right _ hr, rfl, rfl, by rw [hr']⟩

theorem cancel_remembered (hs : Remembered s) (msg : Option M) (answer : Answer) :
    Remembered (cancel msg answer s).2 := by
  unfold cancel
  split
  · exact hs
  · have hcount : Unmoved s { s with cancelsRequested := s.cancelsRequested + 1 } :=
      ⟨rfl, rfl, rfl, rfl, rfl, fun _ h => h⟩
    have hcounted := hcount.remembered hs
    dsimp only
    split
    · exact latch_remembered hcounted msg
    · rename_i f _
      obtain ⟨hunmoved, hagreed⟩ := futCancel_unmoved
        { s with cancelsRequested := s.cancelsRequested + 1 } answer msg f
      have hcancel := hunmoved.remembered hcounted
      split
      · rename_i heq
        rw [heq] at hcancel hagreed
        exact forward_remembered hcancel (hagreed rfl)
      · rename_i heq
        rw [heq] at hcancel
        exact latch_remembered hcancel msg

/-! ### A request is delivered -/

/-- The step throws what was latched. -/
theorem begin_remembered (hs : Remembered s) (hcoro : s.coro ≠ .ended)
    (incoming : Option (Exc M E)) : Remembered (begin incoming s) := by
  have hnew : (begin incoming s).latched (s.resumes.length + 1) = [] := by
    apply List.filter_eq_nil_iff.mpr
    intro r hr
    have hle := hs.steps r hr
    simp only [Bool.decide_and, Bool.and_eq_true, decide_eq_true_eq]
    omega
  have hlength : (begin incoming s).resumes.length = s.resumes.length + 1 := by simp [begin]
  constructor
  · intro r hr
    rw [hlength]
    exact Nat.le_succ_of_le (hs.steps r hr)
  · intro h
    cases h
  · intro _ _
    rw [hlength, hnew]
  · intro n hn hne
    rw [hlength] at hn
    by_cases hlast : n = s.resumes.length
    · subst hlast
      have hmust : s.mustCancel = true := by
        by_contra h
        exact hne (hs.clear (by simpa using h) hcoro)
      obtain ⟨r, hr, hmsg⟩ := hs.latch hmust
      simp only [begin, List.getElem?_concat_length, hmust, true_and]
      cases incoming with
      | none => exact ⟨_, s.cancelMsg, rfl, rfl, .inr ⟨r, hr, hmsg⟩⟩
      | some e =>
        cases e with
        | cancelled m => exact ⟨_, m, rfl, rfl, .inl rfl⟩
        | raised e => exact ⟨_, s.cancelMsg, rfl, rfl, .inr ⟨r, hr, hmsg⟩⟩
    · have hlt : n < s.resumes.length := by omega
      obtain ⟨e, m, he, hthrow⟩ := hs.delivered n hlt hne
      exact ⟨e, m, by simpa only [begin, List.getElem?_append_left hlt] using he, hthrow⟩
  · exact hs.forwarded

section Forward

variable {r : Request M} {n : Nat} {d : Nat × Option M}

@[simp] theorem forward_step : (r.forward n d).step = r.step := by
  unfold Request.forward
  split <;> rfl

@[simp] theorem forward_msg : (r.forward n d).msg = r.msg := by
  unfold Request.forward
  split <;> rfl

theorem forward_other (h : ¬ (r.step = n ∧ r.forwarded.isNone)) : r.forward n d = r := if_neg h

theorem forward_self (hstep : r.step = n) (hnone : r.forwarded = none) :
    (r.forward n d).forwarded = some d := by
  unfold Request.forward
  rw [if_pos ⟨hstep, by simp [hnone]⟩]

theorem forward_isSome (hstep : r.step = n) : (r.forward n d).forwarded ≠ none := by
  by_cases hnone : r.forwarded = none
  · simp [forward_self hstep hnone]
  · rwa [forward_other (by simp [hnone])]

end Forward

theorem forwardAll_latched (s : State M E F) (f n : Nat) :
    (s.forwardAll f).latched n = if n = s.resumes.length then [] else s.latched n := by
  split
  · rename_i hn
    apply List.filter_eq_nil_iff.mpr
    intro r hr
    obtain ⟨r, -, rfl⟩ := List.mem_map.mp hr
    by_cases hstep : r.step = n
    · have hsome := forward_isSome (d := (f, s.cancelMsg)) (hstep.trans hn)
      simpa using fun _ => hsome
    · simp [hstep]
  · rename_i hn
    -- those of other steps stay as they are
    have hother (r : Request M) (hr : r.step = n) :
        r.forward s.resumes.length (f, s.cancelMsg) = r := by
      apply forward_other
      rintro ⟨hstep, -⟩
      exact hn (hr.symm.trans hstep)
    rw [State.latched, State.latched, State.forwardAll, List.filter_map]
    have hsame : ((fun r : Request M => decide (r.step = n ∧ r.forwarded.isNone)) ∘
        Request.forward s.resumes.length (f, s.cancelMsg)) =
        fun r => decide (r.step = n ∧ r.forwarded.isNone) := by
      funext r
      by_cases hr : r.step = n
      · rw [Function.comp_apply, hother r hr]
      · simp [hr]
    rw [hsame]
    conv_rhs => rw [← List.map_id (List.filter _ _)]
    apply List.map_congr_left
    intro r hr
    have hstep := (List.mem_filter.mp hr).2
    simp only [decide_eq_true_eq] at hstep
    exact hother r hstep.1

/-- The latched requests go to the future that was just awaited. -/
theorem forwardAll_remembered (hs : Remembered s) (hmust : s.mustCancel = true)
    (hagreed : (f, s.cancelMsg) ∈ s.agreed) : Remembered (s.forwardAll f) := by
  obtain ⟨last, hlast, hmsg⟩ := hs.latch hmust
  have hlastMem := List.mem_of_getLast? hlast
  obtain ⟨hlastRequest, hlastStep⟩ := List.mem_filter.mp hlastMem
  simp only [decide_eq_true_eq, Option.isNone_iff_eq_none] at hlastStep
  constructor
  · intro r hr
    obtain ⟨r₀, hr₀, rfl⟩ := List.mem_map.mp hr
    rw [forward_step]
    exact hs.steps r₀ hr₀
  · intro h
    cases h
  · intro _ _
    exact (forwardAll_latched s f _).trans (if_pos rfl)
  · intro n hn
    have hdelivered := hs.delivered n hn
    have hne : n ≠ s.resumes.length := Nat.ne_of_lt hn
    unfold Delivered at *
    rw [forwardAll_latched, if_neg hne]
    exact hdelivered
  · intro r hr f' m hf
    obtain ⟨r₀, hr₀, rfl⟩ := List.mem_map.mp hr
    by_cases hhere : r₀.step = s.resumes.length ∧ r₀.forwarded.isNone
    · -- it went with the last one
      have hto := forward_self (d := (f, s.cancelMsg)) hhere.1 (by simpa using hhere.2)
      rw [hto] at hf
      obtain ⟨rfl, rfl⟩ : f = f' ∧ s.cancelMsg = m := by simpa using hf
      refine ⟨hagreed, _, List.mem_map.mpr ⟨last, hlastRequest, rfl⟩, ?_, ?_, ?_⟩
      · rw [forward_step, forward_step, hlastStep.1, hhere.1]
      · rw [hto, forward_self hlastStep.1 hlastStep.2]
      · rw [forward_msg, hmsg]
    · rw [forward_other hhere] at hf ⊢
      obtain ⟨hmem, r', hr', hstep, hforwarded, hmsg'⟩ := hs.forwarded r₀ hr₀ f' m hf
      have hother : ¬ (r'.step = s.resumes.length ∧ r'.forwarded.isNone) := by
        rw [hforwarded, hf]
        simp
      refine ⟨hmem, r', List.mem_map.mpr ⟨r', hr', forward_other hother⟩, hstep, hforwarded, hmsg'⟩

theorem await_remembered (hs : Remembered s) (hcoro : s.coro = .running) (answer : Answer)
    (f : Nat) : Remembered (await f answer s) := by
  have hadd : Remembered { addWake f s with waitingOn := some f, coro := .suspended } := by
    have hwake : Unmoved s { addWake f s with coro := s.coro } := by
      unfold addWake
      split <;> exact ⟨rfl, rfl, rfl, rfl, rfl, fun _ h => h⟩
    have hwoken := hwake.remembered hs
    exact
      { hwoken with
        clear := fun h _ => hwoken.clear h (by simp [hcoro]) }
  unfold await
  dsimp only
  split
  · rename_i hmust
    obtain ⟨hunmoved, hagreed⟩ := futCancel_unmoved
      { addWake f s with waitingOn := some f, coro := .suspended } answer (addWake f s).cancelMsg f
    have hcancel := hunmoved.remembered hadd
    split
    · rename_i s' heq
      rw [heq] at hcancel hagreed hunmoved
      apply forwardAll_remembered hcancel (hunmoved.mustCancel.trans hmust)
      have hmsg : s'.cancelMsg = (addWake f s).cancelMsg := hunmoved.cancelMsg
      rw [hmsg]
      exact hagreed rfl
    · rename_i heq
      rw [heq] at hcancel
      exact hcancel
  · exact hadd

theorem yields_remembered (hs : Remembered s) (foreign : Nat → Bool) (y : Yield) :
    Remembered (yields foreign s y) := by
  unfold yields
  split
  · exact hs
  · rename_i hrunning
    have hcoro : s.coro = .running := by simpa using hrunning
    cases y with
    | bare => exact { hs with clear := fun h _ => hs.clear h (by simp [hcoro]) }
    | future f answer =>
      dsimp only
      split
      · exact hs
      · exact await_remembered hs hcoro answer f
    | bad => exact hs
    | returns => exact { hs with clear := fun _ h => absurd rfl h }
    | raises => exact { hs with clear := fun _ h => absurd rfl h }

theorem dispatch_remembered (hresumable : Resumable s) (hs : Remembered s) (i : Nat) :
    Remembered (dispatch i s) := by
  unfold dispatch
  split
  · exact hs
  · exact hs
  · rename_i entry hi _
    have htake : Unmoved s { s with ready := s.ready.eraseIdx i } :=
      ⟨rfl, rfl, rfl, rfl, rfl, fun _ h => h⟩
    have htaken := htake.remembered hs
    dsimp only
    cases entry with
    | wake f =>
      obtain ⟨hcoro, -, -⟩ := resumption_taken hresumable hi rfl
      exact begin_remembered htaken (by simp [hcoro]) _
    | resumeBare =>
      obtain ⟨hcoro, -, -⟩ := resumption_taken hresumable hi rfl
      exact begin_remembered htaken (by simp [hcoro]) _
    | callback id => exact htaken

/-! ## 4. Done callbacks -/

/-- Every registration is kept, removed or called: one of the three, and once. -/
structure Registered (s : State M E F) : Prop where
  all : (s.callbacks.map Prod.fst ++ s.removed ++ s.called).Perm (List.range s.registered)
  kept : s.finished = true → s.callbacks = []
  early : s.finished = false → s.called = []
  ended : s.finished = true → s.coro = .ended

/-- Nothing that the done callbacks turn on changes. -/
structure Silent (s s' : State M E F) : Prop where
  callbacks : s'.callbacks = s.callbacks
  removed : s'.removed = s.removed
  called : s'.called = s.called
  registered : s'.registered = s.registered
  finished : s'.finished = s.finished
  ended : s.coro = .ended → s'.coro = .ended

theorem Silent.refl (s : State M E F) : Silent s s := ⟨rfl, rfl, rfl, rfl, rfl, id⟩

theorem Silent.trans {s'' : State M E F} (h : Silent s s') (h' : Silent s' s'') : Silent s s'' :=
  ⟨h'.callbacks.trans h.callbacks, h'.removed.trans h.removed, h'.called.trans h.called,
    h'.registered.trans h.registered, h'.finished.trans h.finished, h'.ended ∘ h.ended⟩

theorem Silent.registrations (h : Silent s s') (hs : Registered s) : Registered s' where
  all := by
    rw [h.callbacks, h.removed, h.called, h.registered]
    exact hs.all
  kept := by
    rw [h.finished, h.callbacks]
    exact hs.kept
  early := by
    rw [h.finished, h.called]
    exact hs.early
  ended hfinished := h.ended (hs.ended (h.finished ▸ hfinished))

theorem complete_silent (s : State M E F) (f : Nat) (throw : Option (Exc M E)) :
    Silent s (complete f throw s) := by
  unfold complete
  split
  · exact .refl s
  · exact ⟨rfl, rfl, rfl, rfl, rfl, id⟩

theorem futCancel_silent (s : State M E F) (answer : Answer) (msg : Option M) (f : Nat) :
    Silent s (futCancel answer msg f s).2 := by
  unfold futCancel
  split
  · exact (complete_silent s f (some (.cancelled msg))).trans ⟨rfl, rfl, rfl, rfl, rfl, id⟩
  · exact ⟨rfl, rfl, rfl, rfl, rfl, id⟩
  · exact .refl s

theorem cancel_silent (s : State M E F) (msg : Option M) (answer : Answer) :
    Silent s (cancel msg answer s).2 := by
  unfold cancel
  split
  · exact .refl s
  · dsimp only
    split
    · exact ⟨rfl, rfl, rfl, rfl, rfl, id⟩
    · rename_i f _
      have hcancel := futCancel_silent { s with cancelsRequested := s.cancelsRequested + 1 } answer msg f
      split
      · rename_i heq
        rw [heq] at hcancel
        exact ⟨hcancel.callbacks, hcancel.removed, hcancel.called, hcancel.registered,
          hcancel.finished, hcancel.ended⟩
      · rename_i heq
        rw [heq] at hcancel
        exact ⟨hcancel.callbacks, hcancel.removed, hcancel.called, hcancel.registered,
          hcancel.finished, hcancel.ended⟩

theorem yields_silent (s : State M E F) (foreign : Nat → Bool) (y : Yield) :
    Silent s (yields foreign s y) := by
  unfold yields
  split
  · exact .refl s
  · rename_i hrunning
    have hcoro : s.coro ≠ .ended := by simp_all
    cases y with
    | bare => exact ⟨rfl, rfl, rfl, rfl, rfl, fun h => absurd h hcoro⟩
    | future f answer =>
      dsimp only
      split
      · exact .refl s
      · have hadd : Silent s { addWake f s with waitingOn := some f, coro := .suspended } := by
          unfold addWake
          split <;> exact ⟨rfl, rfl, rfl, rfl, rfl, fun h => absurd h hcoro⟩
        unfold await
        dsimp only
        split
        · have hcancel := hadd.trans (futCancel_silent
            { addWake f s with waitingOn := some f, coro := .suspended } answer
            (addWake f s).cancelMsg f)
          split
          · rename_i heq
            rw [heq] at hcancel
            exact hcancel.trans ⟨rfl, rfl, rfl, rfl, rfl, id⟩
          · rename_i heq
            rw [heq] at hcancel
            exact hcancel
        · exact hadd
    | bad => exact .refl s
    | returns => exact ⟨rfl, rfl, rfl, rfl, rfl, fun _ => rfl⟩
    | raises => exact ⟨rfl, rfl, rfl, rfl, rfl, fun _ => rfl⟩

theorem dispatch_silent (hs : Resumable s) (i : Nat) : Silent s (dispatch i s) := by
  unfold dispatch
  split
  · exact .refl s
  · exact .refl s
  · rename_i entry hi _
    dsimp only
    cases entry with
    | wake f =>
      obtain ⟨hcoro, -, -⟩ := resumption_taken hs hi rfl
      exact ⟨rfl, rfl, rfl, rfl, rfl, fun h => absurd h (by simp [hcoro])⟩
    | resumeBare =>
      obtain ⟨hcoro, -, -⟩ := resumption_taken hs hi rfl
      exact ⟨rfl, rfl, rfl, rfl, rfl, fun h => absurd h (by simp [hcoro])⟩
    | callback id => exact ⟨rfl, rfl, rfl, rfl, rfl, fun h => h⟩

/-- Callbacks are scheduled one after the other, and nothing else changes. -/
theorem foldl_scheduleCallback (callbacks : List (Nat × F)) (s : State M E F) :
    callbacks.foldl (fun s entry => scheduleCallback entry.1 s) s =
      { s with
        ready := s.ready ++ callbacks.map fun entry => .callback entry.1
        called := s.called ++ callbacks.map Prod.fst } := by
  induction callbacks generalizing s with
  | nil => simp
  | cons entry callbacks ih =>
    rw [List.foldl_cons, ih]
    simp [scheduleCallback]

theorem fireDoneCallbacks_eq (s : State M E F) :
    fireDoneCallbacks s =
      { s with
        callbacks := []
        ready := s.ready ++ s.callbacks.map fun entry => .callback entry.1
        called := s.called ++ s.callbacks.map Prod.fst } := foldl_scheduleCallback ..

theorem settle_registered (hs : Registered s) : Registered (settle s) := by
  unfold settle
  split
  · rename_i hended
    rw [fireDoneCallbacks_eq]
    refine ⟨?_, fun _ => rfl, fun h => absurd h (by simp), fun _ => hended.1⟩
    have hall := hs.all
    rw [hs.early hended.2] at hall ⊢
    simp only [List.map_nil, List.nil_append, List.append_nil] at hall ⊢
    exact List.perm_append_comm.trans hall
  · exact hs

theorem addDoneCallback_registered (hs : Registered s) (fn : F) :
    Registered (addDoneCallback fn s) := by
  have hall : (s.registered :: (s.callbacks.map Prod.fst ++ s.removed ++ s.called)).Perm
      (List.range (s.registered + 1)) := by
    rw [List.range_succ]
    exact (hs.all.cons _).trans (List.perm_append_singleton _ _).symm
  unfold addDoneCallback
  dsimp only
  split
  · rename_i hfinished
    refine ⟨?_, fun _ => hs.kept hfinished, fun h => ?_, fun _ => hs.ended hfinished⟩
    · refine List.Perm.trans ?_ hall
      simp only [scheduleCallback, ← List.append_assoc]
      exact List.perm_append_singleton _ _
    · rw [scheduleCallback, hfinished] at h
      cases h
  · rename_i hfinished
    refine ⟨?_, fun h => absurd h hfinished, hs.early, fun h => absurd h hfinished⟩
    refine List.Perm.trans ?_ hall
    simp only [List.map_append, List.map_cons, List.map_nil, List.append_assoc]
    exact List.perm_middle

theorem removeDoneCallback_registered [DecidableEq F] (hs : Registered s) (fn : F) :
    Registered (removeDoneCallback fn s) := by
  refine ⟨?_, fun h => ?_, hs.early, hs.ended⟩
  · refine List.Perm.trans ?_ hs.all
    simp only [removeDoneCallback]
    apply List.Perm.append_right
    have hsplit := (List.filter_append_perm (fun entry : Nat × F => decide (entry.2 = fn))
      s.callbacks).map Prod.fst
    rw [List.map_append] at hsplit
    have hrest : (s.callbacks.filter fun entry => decide (entry.2 ≠ fn)) =
        s.callbacks.filter fun entry => !decide (entry.2 = fn) := by simp only [ne_eq, decide_not]
    rw [hrest, ← List.append_assoc]
    refine List.perm_append_comm.trans ?_
    rw [← List.append_assoc]
    exact hsplit.append_right _
  · have hkept := hs.kept h
    simp [removeDoneCallback, hkept]

/-! ## 5. Whole runs -/

structure Sound (s : State M E F) : Prop where
  resumable : Resumable s
  remembered : Remembered s
  registered : Registered s

theorem init_sound : Sound (init : State M E F) where
  resumable := ⟨by simp [init], fun _ => ⟨rfl, rfl, fun _ => rfl⟩⟩
  remembered := by
    constructor
    · simp [init]
    · simp [init]
    · simp [init, State.latched]
    · intro n _ hne
      exact absurd rfl hne
    · simp [init]
  registered := by constructor <;> simp [init]

theorem settle_unmoved (s : State M E F) : Unmoved s (settle s) := by
  unfold settle
  split
  · rw [fireDoneCallbacks_eq]
    exact ⟨rfl, rfl, rfl, rfl, rfl, fun _ h => h⟩
  · exact .refl s

/-- Callbacks queued are no resumptions. -/
theorem queued_callbacks (ready : List Entry) (ids : List Nat) :
    (ready ++ ids.map Entry.callback).filter Entry.resumes = ready.filter Entry.resumes := by
  rw [List.filter_append, List.filter_map]
  have hnone : ids.filter (Entry.resumes ∘ Entry.callback) = [] :=
    List.filter_eq_nil_iff.mpr (by simp [Entry.resumes])
  rw [hnone, List.map_nil, List.append_nil]

theorem settle_resumable (hs : Resumable s) : Resumable (settle s) := by
  unfold settle
  split
  · have hqueued := queued_callbacks s.ready (s.callbacks.map Prod.fst)
    rw [List.map_map] at hqueued
    rw [fireDoneCallbacks_eq]
    exact resumable_congr hs rfl rfl rfl hqueued
  · exact hs

theorem addDoneCallback_resumable (hs : Resumable s) (fn : F) : Resumable (addDoneCallback fn s) := by
  unfold addDoneCallback
  dsimp only
  split
  · exact resumable_congr hs rfl rfl rfl (queued_callbacks s.ready [s.registered])
  · exact resumable_congr hs rfl rfl rfl rfl

theorem addDoneCallback_unmoved (s : State M E F) (fn : F) : Unmoved s (addDoneCallback fn s) := by
  unfold addDoneCallback
  dsimp only
  split <;> exact ⟨rfl, rfl, rfl, rfl, rfl, fun _ h => h⟩

theorem yields_resumes (foreign : Nat → Bool) (s : State M E F) (y : Yield) :
    (yields foreign s y).resumes = s.resumes := by
  unfold yields
  split
  · rfl
  · cases y with
    | future f answer =>
      dsimp only
      split
      · rfl
      · have hadd : ({ addWake f s with waitingOn := some f, coro := .suspended } :
            State M E F).resumes = s.resumes := by
          unfold addWake
          split <;> rfl
        unfold await
        dsimp only
        split
        · have hcancel := (futCancel_unmoved { addWake f s with
            waitingOn := some f, coro := .suspended } answer (addWake f s).cancelMsg f).1.resumes
          split
          · rename_i heq
            rw [heq] at hcancel
            exact hcancel.trans hadd
          · rename_i heq
            rw [heq] at hcancel
            exact hcancel.trans hadd
        · exact hadd
    | _ => rfl

/-- A call of `cancel` says `True` until the task is finished, and is on record then. -/
theorem cancel_recorded (s : State M E F) (msg : Option M) (answer : Answer) :
    (cancel msg answer s).1 = !s.finished ∧ (cancel msg answer s).2.resumes = s.resumes ∧
      (s.finished = false → ∃ r, (cancel msg answer s).2.requests = s.requests ++ [r] ∧
        r.msg = msg ∧ r.step = s.resumes.length) := by
  unfold cancel
  by_cases hfinished : s.finished = true
  · simp [hfinished]
  · rw [if_neg hfinished]
    dsimp only
    split
    · exact ⟨by simp [hfinished], rfl, fun _ => ⟨_, rfl, rfl, rfl⟩⟩
    · rename_i f _
      have hcancel := (futCancel_unmoved { s with cancelsRequested := s.cancelsRequested + 1 }
        answer msg f).1
      split
      · rename_i s' heq
        rw [heq] at hcancel
        have hrequests : s'.requests = s.requests := hcancel.requests
        have hresumes : s'.resumes = s.resumes := hcancel.resumes
        refine ⟨by simp [hfinished], hresumes, fun _ =>
          ⟨⟨msg, s.resumes.length, some (f, msg)⟩, ?_, rfl, rfl⟩⟩
        rw [hrequests, hresumes]
      · rename_i s' heq
        rw [heq] at hcancel
        have hrequests : s'.requests = s.requests := hcancel.requests
        have hresumes : s'.resumes = s.resumes := hcancel.resumes
        refine ⟨by simp [hfinished], hresumes, fun _ =>
          ⟨⟨msg, s.resumes.length, none⟩, ?_, rfl, rfl⟩⟩
        rw [latch, hrequests, hresumes]

variable [DecidableEq F] (foreign : Nat → Bool)

theorem step_sound (hs : Sound s) (i : Input M E F) : Sound (step foreign s i) := by
  obtain ⟨hresumable, hremembered, hregistered⟩ := hs
  cases i with
  | dispatch i =>
    exact ⟨dispatch_resumable hresumable i, dispatch_remembered hresumable hremembered i,
      (dispatch_silent hresumable i).registrations hregistered⟩
  | yields y =>
    exact ⟨yields_resumable hresumable foreign y, yields_remembered hremembered foreign y,
      (yields_silent s foreign y).registrations hregistered⟩
  | settle =>
    exact ⟨settle_resumable hresumable, (settle_unmoved s).remembered hremembered,
      settle_registered hregistered⟩
  | complete f throw =>
    exact ⟨complete_resumable hresumable f throw,
      (complete_unmoved s f throw).remembered hremembered,
      (complete_silent s f throw).registrations hregistered⟩
  | cancel msg answer =>
    exact ⟨cancel_resumable hresumable msg answer, cancel_remembered hremembered msg answer,
      (cancel_silent s msg answer).registrations hregistered⟩
  | uncancel =>
    have hunmoved : Unmoved s (uncancel s) := ⟨rfl, rfl, rfl, rfl, rfl, fun _ h => h⟩
    have hsilent : Silent s (uncancel s) := ⟨rfl, rfl, rfl, rfl, rfl, id⟩
    exact ⟨resumable_congr hresumable rfl rfl rfl rfl, hunmoved.remembered hremembered,
      hsilent.registrations hregistered⟩
  | addDoneCallback fn =>
    exact ⟨addDoneCallback_resumable hresumable fn,
      (addDoneCallback_unmoved s fn).remembered hremembered,
      addDoneCallback_registered hregistered fn⟩
  | removeDoneCallback fn =>
    have hunmoved : Unmoved s (removeDoneCallback fn s) := ⟨rfl, rfl, rfl, rfl, rfl, fun _ h => h⟩
    exact ⟨resumable_congr hresumable rfl rfl rfl rfl, hunmoved.remembered hremembered,
      removeDoneCallback_registered hregistered fn⟩

/-- The coroutine is stepped by an entry of the queue that is a resumption, and by nothing else. -/
def SteppedOnce (s : State M E F) (i : Input M E F) : Prop :=
  (step foreign s i).resumes = s.resumes ∨
    ∃ k entry, i = .dispatch k ∧ s.ready[k]? = some entry ∧ entry.resumes = true ∧
      s.coro = .suspended ∧ (step foreign s i).ready = s.ready.eraseIdx k ∧
      (step foreign s i).resumes.length = s.resumes.length + 1

theorem dispatch_steppedOnce (hs : Resumable s) (i : Nat) :
    SteppedOnce foreign s (.dispatch i) := by
  unfold SteppedOnce step dispatch
  dsimp only
  split
  · exact .inl rfl
  · exact .inl rfl
  · rename_i entry hi _
    cases entry with
    | wake f =>
      obtain ⟨hcoro, -, -⟩ := resumption_taken hs hi rfl
      exact .inr ⟨i, .wake f, rfl, hi, rfl, hcoro, rfl, by simp [begin]⟩
    | resumeBare =>
      obtain ⟨hcoro, -, -⟩ := resumption_taken hs hi rfl
      exact .inr ⟨i, .resumeBare, rfl, hi, rfl, hcoro, rfl, by simp [begin]⟩
    | callback id => exact .inl rfl

theorem step_steppedOnce (hs : Resumable s) (i : Input M E F) : SteppedOnce foreign s i := by
  cases i with
  | dispatch i => exact dispatch_steppedOnce foreign hs i
  | yields y => exact .inl (yields_resumes foreign s y)
  | settle => exact .inl (settle_unmoved s).resumes
  | complete f throw => exact .inl (complete_unmoved s f throw).resumes
  | cancel msg answer => exact .inl (cancel_recorded s msg answer).2.1
  | uncancel => exact .inl rfl
  | addDoneCallback fn => exact .inl (addDoneCallback_unmoved s fn).resumes
  | removeDoneCallback fn => exact .inl rfl

theorem run_sound (is : List (Input M E F)) : Sound ((machine foreign).run is) :=
  (machine foreign).run_invariant init_sound (fun _ i hs => step_sound foreign hs i) is

/-- What is asked of the driver. -/
structure Driven (s : State M E F) : Prop where
  /-- While the coroutine is suspended one resumption is to come, and otherwise none. -/
  resumable : Resumable s
  /-- It is stepped once for one resumption, and after it ended no more. -/
  stepped : ∀ i, SteppedOnce foreign s i
  /-- `cancel` says `True` until the task is finished. -/
  accepted : ∀ msg answer, (cancel msg answer s).1 = !s.finished ∧
    (s.finished = false → ∃ r, (cancel msg answer s).2.requests = s.requests ++ [r] ∧
      r.msg = msg ∧ r.step = s.resumes.length)
  /-- A request went to the awaited future, which agreed, under its own message or that of another
      request of the same step; -/
  forwarded : ∀ r ∈ s.requests, ∀ f m, r.forwarded = some (f, m) → (f, m) ∈ s.agreed ∧
    ∃ r' ∈ s.requests, r'.step = r.step ∧ r'.forwarded = r.forwarded ∧ r'.msg = m
  /-- or the next resumption threw a `CancelledError` into the coroutine, with the message of the
      last such request, or with the awaited future's own where that was cancelled itself; -/
  delivered : ∀ r ∈ s.requests, r.forwarded = none → r.step < s.resumes.length →
    ∃ e m, s.resumes[r.step]? = some e ∧ e.throw = some (.cancelled m) ∧
      (e.incoming = e.throw ∨ ∃ last, (s.latched r.step).getLast? = some last ∧ m = last.msg)
  /-- or no resumption came since: then the next one will, or the coroutine ended in that step. -/
  latched : ∀ r ∈ s.requests, r.forwarded = none → ¬ r.step < s.resumes.length →
    r.step = s.resumes.length ∧ (s.mustCancel = true ∨ s.coro = .ended)
  /-- Every done callback registered is kept until the task is finished and then called once, unless
      it was removed. -/
  callbacks : Registered s

/-- In every run, whatever the coroutine, the futures and the callers do. -/
theorem task_driven (is : List (Input M E F)) : Driven foreign ((machine foreign).run is) := by
  obtain ⟨hresumable, hremembered, hregistered⟩ := run_sound foreign is
  have hmem (r : Request M) (hr : r ∈ ((machine foreign).run is).requests)
      (hnone : r.forwarded = none) : r ∈ ((machine foreign).run is).latched r.step :=
    List.mem_filter.mpr ⟨hr, by simp [hnone]⟩
  constructor
  · exact hresumable
  · exact fun i => step_steppedOnce foreign hresumable i
  · intro msg answer
    obtain ⟨hreply, -, hrecord⟩ := cancel_recorded ((machine foreign).run is) msg answer
    exact ⟨hreply, hrecord⟩
  · exact hremembered.forwarded
  · intro r hr hnone hlt
    exact hremembered.delivered r.step hlt (List.ne_nil_of_mem (hmem r hr hnone))
  · intro r hr hnone hlt
    have hstep : r.step = ((machine foreign).run is).resumes.length := by
      have hle := hremembered.steps r hr
      omega
    refine ⟨hstep, ?_⟩
    by_contra hneither
    obtain ⟨hmust, hcoro⟩ := not_or.mp hneither
    have hempty := hremembered.clear (by simpa using hmust) hcoro
    rw [← hstep] at hempty
    exact List.ne_nil_of_mem (hmem r hr hnone) hempty
  · exact hregistered

/-- The awaited future is cancelled by somebody else, and the task before it wakes: what arrives is
    the future's own `CancelledError`, with its message in place of the task's. -/
theorem message_of_the_future :
    let s : State String Unit Unit := (machine fun _ => false).run
      [.yields (.future 0 .refuses), .complete 0 (some (.cancelled (some "theirs"))),
        .cancel (some "ours") .refuses, .dispatch 0]
    ∃ r ∈ s.requests, r.msg = some "ours" ∧ r.forwarded = none ∧ s.requests.length = 1 ∧
      ∃ e, s.resumes[r.step]? = some e ∧ e.throw = some (.cancelled (some "theirs")) := by
  refine ⟨⟨some "ours", 1, none⟩, ?_, rfl, rfl, rfl, _, rfl, rfl⟩
  exact List.mem_singleton.mpr rfl

end Cadeloop.Pyshim.AppTask
