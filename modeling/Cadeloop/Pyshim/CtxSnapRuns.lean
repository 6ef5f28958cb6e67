import Cadeloop.Pyshim.CtxSnap

/-!
# Context isolation over whole runs

Snapshots are entered by nobody, a scratch context at rest and a handle's own context have one holder
each, and a variable is set in the entered context alone.  So what a pending callback was promised
stays as it was, whatever runs before it.
-/

namespace Cadeloop.Pyshim.CtxSnap

open Cadeloop.Reasoning

variable {V A : Type*} {l : Layout} {s s' : State V A} {c ctx : Nat}

/-! ## 1. Mappings -/

section Mappings

variable [DecidableEq V]

theorem mem_writers {m : Mapping V A} {w : Nat} :
    w ∈ writers m ↔ ∃ v x, m.lookup v = some (x, w) := by
  simp only [writers, Multiset.mem_toFinset, Multiset.mem_map]
  constructor
  · rintro ⟨⟨v, x, _⟩, hmem, rfl⟩
    exact ⟨v, x, Finmap.lookup_eq_some_iff.mpr hmem⟩
  · rintro ⟨v, x, hlookup⟩
    exact ⟨⟨v, x, w⟩, Finmap.lookup_eq_some_iff.mp hlookup, rfl⟩

theorem writers_empty : writers (∅ : Mapping V A) = ∅ := by
  ext w
  simp [mem_writers]

theorem writers_assigned (m : Mapping V A) (v : V) (x : Option A) (w : Nat) :
    writers (assigned m v x w) ⊆ insert w (writers m) := by
  intro w' hw'
  obtain ⟨v', x', hlookup⟩ := mem_writers.mp hw'
  cases x with
  | some x =>
    by_cases hv : v' = v
    · subst hv
      rw [assigned, Finmap.lookup_insert] at hlookup
      simp_all
    · rw [assigned, Finmap.lookup_insert_of_ne _ hv] at hlookup
      exact Finset.mem_insert_of_mem (mem_writers.mpr ⟨v', x', hlookup⟩)
  | none =>
    by_cases hv : v' = v
    · subst hv
      rw [assigned, Finmap.lookup_erase] at hlookup
      cases hlookup
    · rw [assigned, Finmap.lookup_erase_ne hv] at hlookup
      exact Finset.mem_insert_of_mem (mem_writers.mpr ⟨v', x', hlookup⟩)

end Mappings

/-! ## 2. Holders -/

namespace State

theorem refcnt_eq (s : State V A) (c : Nat) :
    s.refcnt c = [emptySnapshot].count c + (s.entered.map Frame.ctx).count c + s.held.count c +
      s.slot.toList.count c + s.scratch.toList.count c + (s.pending.map Handle.context).count c +
      (s.running.toList.map Running.ctx).count c + (s.running.bind Running.context).toList.count c := by
  simp only [refcnt, refs, List.count_append, List.count_cons, List.count_nil, List.cons_append]
  omega

theorem mem_refs : c ∈ s.refs ↔ 0 < s.refcnt c := List.count_pos_iff.symm

theorem pending_mem_refs {h : Handle V A} (hmem : h ∈ s.pending) : h.context ∈ s.refs := by
  simp only [refs, List.mem_append, List.mem_cons, List.mem_map]
  exact .inl (.inl (.inr ⟨h, hmem, rfl⟩))

/-- The contexts held as snapshots. -/
def Shared (s : State V A) (c : Nat) : Prop :=
  c = emptySnapshot ∨ s.slot = some c ∨ ∃ h ∈ s.pending, h.snapshot = true ∧ h.context = c

/-- The contexts code runs in, or may come to run in. -/
def Usable (s : State V A) (c : Nat) : Prop :=
  c ∈ s.entered.map Frame.ctx ∨ c ∈ s.held ∨ s.scratch = some c ∨
    (∃ h ∈ s.pending, h.snapshot = false ∧ h.context = c) ∨
    ∃ run, s.running = some run ∧ run.ctx = c

theorem Shared.mem_refs (h : s.Shared c) : c ∈ s.refs := by
  rcases h with rfl | hslot | ⟨h, hmem, -, rfl⟩
  · simp [refs]
  · simp [refs, hslot]
  · exact pending_mem_refs hmem

theorem Usable.mem_refs (h : s.Usable c) : c ∈ s.refs := by
  rcases h with hentered | hheld | hscratch | ⟨h, hmem, -, rfl⟩ | ⟨run, hrun, rfl⟩
  · simp only [refs, List.mem_append, List.mem_cons, hentered, or_true, true_or]
  · simp [refs, hheld]
  · simp [refs, hscratch]
  · exact pending_mem_refs hmem
  · simp [refs, hrun]

end State

/-- What holds of every state. -/
structure Sound (l : Layout) (s : State V A) : Prop where
  live : ∀ c ∈ s.refs, c < s.nextCtx
  emptyCtx : s.varsOf emptySnapshot = emptyVars
  emptyMap : s.maps emptyVars = ∅
  apart : ∀ c, s.Shared c → ¬ s.Usable c
  alone : ∀ c, s.scratch = some c → s.refcnt c = 1
  spare : ∀ c, s.scratch = some c →
    if l.layoutOk then s.scratchVars = some (s.varsOf c) else s.content c = ∅
  wanted : ∀ h ∈ s.pending, h.given = false → s.content h.context = h.wanted
  own : ∀ h ∈ s.pending, h.given = false → h.snapshot = false → s.refcnt h.context = 1
  unusable : l.layoutOk = false → ∀ h ∈ s.pending, h.snapshot = true → h.context = emptySnapshot
  given : ∀ h ∈ s.pending, h.given = true → h.snapshot = false
  origin : ∀ h ∈ s.pending, h.given = false → writers h.wanted ⊆ h.lineage
  frames : ∀ frame ∈ s.entered,
    writers (s.content frame.ctx) ⊆ frame.lineage ∧ frame.callback ∈ frame.lineage
  distinct : (s.entered.map Frame.ctx).Nodup

theorem init_sound : Sound l (init : State V A) := by
  constructor <;> simp [init, State.refs, State.Shared, State.Usable]

/-! ## 3. References dropped -/

/-- `s'` is `s` with some references less. -/
structure Sheds (s s' : State V A) : Prop where
  maps : s'.maps = s.maps
  varsOf : s'.varsOf = s.varsOf
  nextCtx : s'.nextCtx = s.nextCtx
  refcnt : ∀ c, s'.refcnt c ≤ s.refcnt c
  entered : List.Sublist s'.entered s.entered
  held : ∀ c ∈ s'.held, c ∈ s.held
  slot : ∀ c, s'.slot = some c → s.slot = some c
  scratch : ∀ c, s'.scratch = some c → s.scratch = some c ∧ s'.scratchVars = s.scratchVars
  pending : ∀ h ∈ s'.pending, h ∈ s.pending
  running : ∀ run', s'.running = some run' → ∃ run, s.running = some run ∧ run.ctx = run'.ctx

theorem Sheds.content (h : Sheds s s') (c : Nat) : s'.content c = s.content c := by
  rw [State.content, State.content, h.maps, h.varsOf]

theorem Sheds.shared (h : Sheds s s') (hc : s'.Shared c) : s.Shared c := by
  rcases hc with hempty | hslot | ⟨handle, hmem, hsnap, hctx⟩
  · exact .inl hempty
  · exact .inr (.inl (h.slot c hslot))
  · exact .inr (.inr ⟨handle, h.pending handle hmem, hsnap, hctx⟩)

theorem Sheds.usable (h : Sheds s s') (hc : s'.Usable c) : s.Usable c := by
  rcases hc with hentered | hheld | hscratch | ⟨handle, hmem, hsnap, hctx⟩ | ⟨run, hrun, hctx⟩
  · exact .inl ((h.entered.map Frame.ctx).subset hentered)
  · exact .inr (.inl (h.held c hheld))
  · exact .inr (.inr (.inl (h.scratch c hscratch).1))
  · exact .inr (.inr (.inr (.inl ⟨handle, h.pending handle hmem, hsnap, hctx⟩)))
  · obtain ⟨run₀, hrun₀, hctx₀⟩ := h.running run hrun
    exact .inr (.inr (.inr (.inr ⟨run₀, hrun₀, hctx₀.trans hctx⟩)))

/-- A holder left is the only one, where there was only one. -/
theorem Sheds.only (h : Sheds s s') (hc : c ∈ s'.refs) (hone : s.refcnt c = 1) :
    s'.refcnt c = 1 := by
  have hpos := State.mem_refs.mp hc
  have hle := h.refcnt c
  omega

theorem Sheds.sound (h : Sheds s s') (hs : Sound l s) : Sound l s' where
  live c hc := by
    rw [h.nextCtx]
    apply hs.live c
    have hpos := State.mem_refs.mp hc
    have hle := h.refcnt c
    exact State.mem_refs.mpr (by omega)
  emptyCtx := by rw [h.varsOf, hs.emptyCtx]
  emptyMap := by rw [h.maps, hs.emptyMap]
  apart c hshared husable := hs.apart c (h.shared hshared) (h.usable husable)
  alone c hc := by
    have husable : s'.Usable c := .inr (.inr (.inl hc))
    exact h.only husable.mem_refs (hs.alone c (h.scratch c hc).1)
  spare c hc := by
    obtain ⟨hscratch, hvars⟩ := h.scratch c hc
    rw [hvars, h.varsOf, h.content]
    exact hs.spare c hscratch
  wanted handle hmem hgiven := by
    rw [h.content]
    exact hs.wanted handle (h.pending handle hmem) hgiven
  own handle hmem hgiven hsnap := by
    have husable : s'.Usable handle.context := .inr (.inr (.inr (.inl ⟨handle, hmem, hsnap, rfl⟩)))
    exact h.only husable.mem_refs (hs.own handle (h.pending handle hmem) hgiven hsnap)
  unusable hl handle hmem := hs.unusable hl handle (h.pending handle hmem)
  given handle hmem := hs.given handle (h.pending handle hmem)
  origin handle hmem := hs.origin handle (h.pending handle hmem)
  frames frame hmem := by
    rw [h.content]
    exact hs.frames frame (h.entered.subset hmem)
  distinct := hs.distinct.sublist (h.entered.map Frame.ctx)

theorem Sheds.refl (s : State V A) : Sheds s s where
  maps := rfl
  varsOf := rfl
  nextCtx := rfl
  refcnt _ := le_rfl
  entered := List.Sublist.refl _
  held _ h := h
  slot _ h := h
  scratch _ h := ⟨h, rfl⟩
  pending _ h := h
  running run h := ⟨run, h, rfl⟩

theorem clear_sheds (s : State V A) : Sheds s (clear s) :=
  { Sheds.refl s with
    refcnt := fun c => by simp [clear, State.refcnt_eq]
    slot := by simp [clear] }

theorem trim_sheds (s : State V A) : Sheds s (trim s) := by
  unfold trim
  split
  · split
    · exact clear_sheds s
    · exact Sheds.refl s
  · exact Sheds.refl s

theorem exit_sheds (s : State V A) : Sheds s { s with entered := s.entered.tail } :=
  { Sheds.refl s with
    refcnt := fun c => by
      have hle := ((List.tail_sublist s.entered).map Frame.ctx).count_le c
      simp only [State.refcnt_eq]
      omega
    entered := List.tail_sublist s.entered }

theorem release_sheds (s : State V A) (i : Nat) : Sheds s { s with held := s.held.eraseIdx i } :=
  { Sheds.refl s with
    refcnt := fun c => by
      have hle := (List.eraseIdx_sublist s.held i).count_le c
      simp only [State.refcnt_eq]
      omega
    held := fun c => List.mem_of_mem_eraseIdx }

theorem take_sheds (s : State V A) (i : Nat) : Sheds s (s.take i) :=
  { Sheds.refl s with
    refcnt := fun c => by
      have hle := ((List.eraseIdx_sublist s.pending i).map Handle.context).count_le c
      simp only [State.take, State.refcnt_eq]
      omega
    pending := fun h => List.mem_of_mem_eraseIdx }

theorem cancel_sheds (s : State V A) (i : Nat) :
    Sheds s { s with pending := s.pending.eraseIdx i } :=
  { Sheds.refl s with
    refcnt := fun c => by
      have hle := ((List.eraseIdx_sublist s.pending i).map Handle.context).count_le c
      simp only [State.refcnt_eq]
      omega
    pending := fun h => List.mem_of_mem_eraseIdx }

theorem dropScratch_sheds (s : State V A) (vars : Option Nat) :
    Sheds s { s with scratch := none, scratchVars := vars } :=
  { Sheds.refl s with
    refcnt := fun c => by simp [State.refcnt_eq]
    scratch := by simp }

theorem cancelRunning_sheds (s : State V A) :
    Sheds s { s with running := s.running.map fun run => { run with context := none } } :=
  { Sheds.refl s with
    refcnt := fun c => by cases hrun : s.running <;> simp [State.refcnt_eq, hrun]
    running := by
      intro run' hrun'
      obtain ⟨run, hrun, rfl⟩ := Option.map_eq_some_iff.mp hrun'
      exact ⟨run, hrun, rfl⟩ }

theorem return_sheds (s : State V A) : Sheds s { s with running := none } :=
  { Sheds.refl s with
    refcnt := fun c => by
      simp only [State.refcnt_eq, Option.toList_none, List.map_nil, List.count_nil, Option.bind_none]
      omega
    running := by simp }

/-! ## 4. References taken -/

/-- A context that nothing counts on being alone, and no snapshot. -/
structure Loose (s : State V A) (ctx : Nat) : Prop where
  live : ctx < s.nextCtx
  shared : ¬ s.Shared ctx
  scratch : s.scratch ≠ some ctx
  own : ∀ h ∈ s.pending, h.given = false → h.snapshot = false → h.context ≠ ctx

theorem Loose.of_fresh (hlive : ctx < s.nextCtx) (hrefs : s.refcnt ctx = 0) : Loose s ctx := by
  have hnot : ctx ∉ s.refs := by
    rw [State.mem_refs]
    omega
  constructor
  · exact hlive
  · exact fun h => hnot h.mem_refs
  · intro h
    have husable : s.Usable ctx := .inr (.inr (.inl h))
    exact hnot husable.mem_refs
  · intro h hmem _ hsnap hctx
    have husable : s.Usable ctx := .inr (.inr (.inr (.inl ⟨h, hmem, hsnap, hctx⟩)))
    exact hnot husable.mem_refs

/-- What is entered or kept by the program counts for more than the holder that must be alone. -/
theorem Loose.of_used (hs : Sound l s) (hused : ctx ∈ s.entered.map Frame.ctx ∨ ctx ∈ s.held) :
    Loose s ctx := by
  have husable : s.Usable ctx := hused.imp_right .inl
  have hcount : 0 < (s.entered.map Frame.ctx).count ctx + s.held.count ctx := by
    rcases hused with h | h
    · have := List.count_pos_iff.mpr h
      omega
    · have := List.count_pos_iff.mpr h
      omega
  constructor
  · exact hs.live ctx husable.mem_refs
  · exact fun h => hs.apart ctx h husable
  · intro h
    have hone := hs.alone ctx h
    rw [State.refcnt_eq, h] at hone
    simp at hone
    omega
  · intro h hmem hgiven hsnap hctx
    have hone := hs.own h hmem hgiven hsnap
    have hpos : 0 < (s.pending.map Handle.context).count ctx :=
      List.count_pos_iff.mpr (List.mem_map.mpr ⟨h, hmem, hctx⟩)
    rw [hctx, State.refcnt_eq] at hone
    omega

/-- `s'` is `s` with more references to `ctx`. -/
structure Takes (ctx : Nat) (s s' : State V A) : Prop where
  maps : s'.maps = s.maps
  varsOf : s'.varsOf = s.varsOf
  nextCtx : s'.nextCtx = s.nextCtx
  slot : s'.slot = s.slot
  scratch : s'.scratch = s.scratch
  scratchVars : s'.scratchVars = s.scratchVars
  pending : s'.pending = s.pending
  refs : ∀ c ∈ s'.refs, c = ctx ∨ c ∈ s.refs ∨ c < s.nextCtx
  refcnt : ∀ c, s.Usable c → c ≠ ctx → s'.refcnt c = s.refcnt c
  usable : ∀ c, s'.Usable c → c = ctx ∨ s.Usable c

theorem Takes.content (h : Takes ctx s s') (c : Nat) : s'.content c = s.content c := by
  rw [State.content, State.content, h.maps, h.varsOf]

theorem Takes.shared (h : Takes ctx s s') : s'.Shared c ↔ s.Shared c := by
  rw [State.Shared, State.Shared, h.slot, h.pending]

theorem Takes.sound (h : Takes ctx s s') (hs : Sound l s) (hctx : Loose s ctx)
    (hframes : ∀ frame ∈ s'.entered,
      writers (s'.content frame.ctx) ⊆ frame.lineage ∧ frame.callback ∈ frame.lineage)
    (hdistinct : (s'.entered.map Frame.ctx).Nodup) : Sound l s' where
  live c hc := by
    rw [h.nextCtx]
    rcases h.refs c hc with rfl | hc | hc
    · exact hctx.live
    · exact hs.live c hc
    · exact hc
  emptyCtx := by rw [h.varsOf, hs.emptyCtx]
  emptyMap := by rw [h.maps, hs.emptyMap]
  apart c hshared husable := by
    rw [h.shared] at hshared
    rcases h.usable c husable with rfl | husable
    · exact hctx.shared hshared
    · exact hs.apart c hshared husable
  alone c hc := by
    rw [h.scratch] at hc
    have hne : c ≠ ctx := by
      rintro rfl
      exact hctx.scratch hc
    rw [h.refcnt c (.inr (.inr (.inl hc))) hne]
    exact hs.alone c hc
  spare c hc := by
    rw [h.scratchVars, h.varsOf, h.content]
    exact hs.spare c (h.scratch ▸ hc)
  wanted handle hmem := by
    rw [h.content]
    exact hs.wanted handle (h.pending ▸ hmem)
  own handle hmem hgiven hsnap := by
    rw [h.pending] at hmem
    rw [h.refcnt handle.context (.inr (.inr (.inr (.inl ⟨handle, hmem, hsnap, rfl⟩))))
      (hctx.own handle hmem hgiven hsnap)]
    exact hs.own handle hmem hgiven hsnap
  unusable hl handle hmem := hs.unusable hl handle (h.pending ▸ hmem)
  given handle hmem := hs.given handle (h.pending ▸ hmem)
  origin handle hmem := hs.origin handle (h.pending ▸ hmem)
  frames := hframes
  distinct := hdistinct

/-- The program keeps a context. -/
theorem hold_sound (hs : Sound l s) (hctx : Loose s ctx) :
    Sound l { s with held := ctx :: s.held } := by
  have htakes : Takes ctx s { s with held := ctx :: s.held } := by
    refine ⟨rfl, rfl, rfl, rfl, rfl, rfl, rfl, ?_, ?_, ?_⟩
    · intro c hc
      simp only [State.refs, List.mem_append, List.mem_cons] at hc ⊢
      grind
    · intro c _ hc
      simp [State.refcnt_eq, List.count_cons, Ne.symm hc]
    · intro c hc
      simp only [State.Usable, List.mem_cons] at hc ⊢
      grind
  exact htakes.sound hs hctx hs.frames hs.distinct

/-- Code enters a context. -/
theorem enter_sound (hs : Sound l s) {frame : Frame} (hctx : Loose s frame.ctx)
    (hlineage : writers (s.content frame.ctx) ⊆ frame.lineage)
    (hcallback : frame.callback ∈ frame.lineage) : Sound l (enter frame s) := by
  unfold enter
  split
  · exact hs
  · rename_i hnew
    have htakes : Takes frame.ctx s { s with entered := frame :: s.entered } := by
      refine ⟨rfl, rfl, rfl, rfl, rfl, rfl, rfl, ?_, ?_, ?_⟩
      · intro c hc
        simp only [State.refs, List.map_cons, List.mem_append, List.mem_cons] at hc ⊢
        grind
      · intro c _ hc
        simp [State.refcnt_eq, List.count_cons, Ne.symm hc]
      · intro c hc
        simp only [State.Usable, List.map_cons, List.mem_cons] at hc ⊢
        grind
    apply htakes.sound hs hctx
    · intro other hmem
      rcases List.mem_cons.mp hmem with rfl | hmem
      · exact ⟨hlineage, hcallback⟩
      · exact hs.frames other hmem
    · exact List.nodup_cons.mpr ⟨hnew, hs.distinct⟩

/-! ## 5. Contexts made -/

theorem Sound.unheld (hs : Sound l s) : s.refcnt s.nextCtx = 0 := by
  by_contra h
  exact lt_irrefl _ (hs.live s.nextCtx (State.mem_refs.mpr (Nat.pos_of_ne_zero h)))

theorem alloc_content (s : State V A) (vars : Nat) (hc : c < s.nextCtx) :
    (s.alloc vars).2.content c = s.content c := by
  simp [State.alloc, State.content, Function.update_of_ne hc.ne]

theorem alloc_self (s : State V A) (vars : Nat) :
    (s.alloc vars).2.content (s.alloc vars).1 = s.maps vars := by
  simp [State.alloc, State.content]

theorem alloc_sound (hs : Sound l s) (vars : Nat) : Sound l (s.alloc vars).2 where
  live c hc := Nat.lt_succ_of_lt (hs.live c hc)
  emptyCtx := by
    have hlive := hs.live emptySnapshot (by simp [State.refs])
    simp [State.alloc, Function.update_of_ne hlive.ne, hs.emptyCtx]
  emptyMap := hs.emptyMap
  apart := hs.apart
  alone := hs.alone
  spare c hc := by
    have hscratch : s.Usable c := .inr (.inr (.inl hc))
    have hlive := hs.live c hscratch.mem_refs
    rw [alloc_content s vars hlive]
    simp only [State.alloc, Function.update_of_ne hlive.ne]
    exact hs.spare c hc
  wanted h hmem := by
    rw [alloc_content s vars (hs.live _ (State.pending_mem_refs hmem))]
    exact hs.wanted h hmem
  own := hs.own
  unusable := hs.unusable
  given := hs.given
  origin := hs.origin
  frames frame hmem := by
    have hentered : s.Usable frame.ctx := .inl (List.mem_map.mpr ⟨frame, hmem, rfl⟩)
    rw [alloc_content s vars (hs.live _ hentered.mem_refs)]
    exact hs.frames frame hmem
  distinct := hs.distinct

/-- A context just made. -/
theorem alloc_loose (hs : Sound l s) (vars : Nat) : Loose (s.alloc vars).2 (s.alloc vars).1 :=
  Loose.of_fresh (Nat.lt_succ_self _) hs.unheld

theorem contextGet_nil (hs : s.entered = []) :
    s.contextGet = enter ⟨s.nextCtx, 0, {0}⟩ (s.alloc emptyVars).2 := by
  simp [State.contextGet, hs, enter, State.alloc]

theorem contextGet_cons (hs : s.entered ≠ []) : s.contextGet = s := by
  unfold State.contextGet
  split
  · contradiction
  · rfl

theorem contextGet_sound [DecidableEq V] (hs : Sound l s) : Sound l s.contextGet := by
  by_cases hnone : s.entered = []
  · rw [contextGet_nil hnone]
    apply enter_sound (alloc_sound hs emptyVars) (alloc_loose hs emptyVars)
    · have hself := alloc_self s emptyVars
      rw [hs.emptyMap] at hself
      simp only [State.alloc] at hself ⊢
      rw [hself, writers_empty]
      simp
    · simp
  · rw [contextGet_cons hnone]
    exact hs

theorem contextGet_refs (s : State V A) : s.refs ⊆ s.contextGet.refs := by
  by_cases hnone : s.entered = []
  · rw [contextGet_nil hnone]
    intro c hc
    simp only [enter, State.alloc, hnone, State.refs] at hc ⊢
    grind
  · rw [contextGet_cons hnone]
    exact List.Subset.refl _

theorem contextGet_content (s : State V A) (hc : c < s.nextCtx) :
    s.contextGet.content c = s.content c := by
  by_cases hnone : s.entered = []
  · simp [contextGet_nil hnone, enter, hnone, State.alloc, State.content,
      Function.update_of_ne hc.ne]
  · rw [contextGet_cons hnone]

/-- An empty context made for a thread that had none shows what the thread saw before. -/
theorem contextGet_current (s : State V A) :
    s.contextGet.currentContent = s.currentContent ∧ s.contextGet.currentVars = s.currentVars ∧
      s.contextGet.lineage = s.lineage ∧ s.contextGet.callback = s.callback := by
  by_cases hnone : s.entered = []
  · simp [contextGet_nil hnone, enter, hnone, State.alloc, State.currentContent, State.currentVars,
      State.current, State.lineage, State.callback]
  · simp [contextGet_cons hnone]

theorem contextGet_holders (s : State V A) :
    s.contextGet.pending = s.pending ∧ s.contextGet.held = s.held ∧ s.contextGet.slot = s.slot ∧
      s.nextCtx ≤ s.contextGet.nextCtx := by
  by_cases hnone : s.entered = []
  · simp [contextGet_nil hnone, enter, hnone, State.alloc]
  · simp [contextGet_cons hnone]

/-- What `PyContext_CopyCurrent` leaves. -/
structure Copied (l : Layout) (s : State V A) (got : Nat × State V A) : Prop where
  sound : Sound l got.2
  live : got.1 < got.2.nextCtx
  fresh : got.2.refcnt got.1 = 0
  content : got.2.content got.1 = s.currentContent
  pending : got.2.pending = s.pending
  kept : ∀ c < s.nextCtx, got.2.content c = s.content c

theorem copyCurrent_copied [DecidableEq V] (hs : Sound l s) : Copied l s s.copyCurrent := by
  have hget := contextGet_sound hs
  obtain ⟨hpending, -, -, hnext⟩ := contextGet_holders s
  refine ⟨alloc_sound hget _, Nat.lt_succ_self _, hget.unheld, ?_, hpending, ?_⟩
  · rw [← (contextGet_current s).1]
    exact alloc_self s.contextGet s.contextGet.currentVars
  · intro c hc
    rw [← contextGet_content s hc]
    exact alloc_content s.contextGet _ (lt_of_lt_of_le hc hnext)

/-! ## 6. Scheduling -/

theorem current_content (hs : Sound l s) (hcurrent : s.entered = []) : s.currentContent = ∅ := by
  simp [State.currentContent, State.currentVars, State.current, hcurrent, hs.emptyMap]

theorem current_origin [DecidableEq V] (hs : Sound l s) :
    writers s.currentContent ⊆ s.lineage ∧ s.callback ∈ s.lineage := by
  cases hentered : s.entered with
  | nil =>
    rw [current_content hs hentered, writers_empty]
    simp [State.lineage, State.callback, hentered]
  | cons frame rest =>
    have hframe := hs.frames frame (by simp [hentered])
    simpa [State.currentContent, State.currentVars, State.current, State.lineage, State.callback,
      hentered, State.content] using hframe

theorem emptySnapshot_content (hs : Sound l s) : s.content emptySnapshot = ∅ := by
  rw [State.content, hs.emptyCtx, hs.emptyMap]

theorem isEmpty_content [DecidableEq V] [DecidableEq A] (hs : Sound l s) (h : isEmpty l s c = true) : s.content c = ∅ := by
  unfold isEmpty at h
  split at h
  · rw [State.content, of_decide_eq_true h, hs.emptyMap]
  · exact of_decide_eq_true h

/-- A snapshot just taken is cached. -/
theorem cache_sound (hs : Sound l s) (hlive : ctx < s.nextCtx) (hfresh : s.refcnt ctx = 0) :
    Sound l { s with slot := some ctx } := by
  have hnot : ¬ s.Usable ctx := by
    intro h
    have hpos := State.mem_refs.mp h.mem_refs
    omega
  have hle (c : Nat) (hc : c ≠ ctx) : ({ s with slot := some ctx } : State V A).refcnt c ≤ s.refcnt c := by
    simp [State.refcnt_eq, List.count_cons, Ne.symm hc]
  have honly (c : Nat) (husable : s.Usable c) (hone : s.refcnt c = 1) :
      ({ s with slot := some ctx } : State V A).refcnt c = 1 := by
    have hne : c ≠ ctx := by
      rintro rfl
      exact hnot husable
    have husable' : ({ s with slot := some ctx } : State V A).Usable c := husable
    have hpos := State.mem_refs.mp husable'.mem_refs
    have := hle c hne
    omega
  exact
    { hs with
      live := by
        intro c hc
        by_cases hctx : c = ctx
        · rw [hctx]
          exact hlive
        · have hpos := State.mem_refs.mp hc
          have := hle c hctx
          exact hs.live c (State.mem_refs.mpr (by omega))
      apart := by
        intro c hshared husable
        rcases hshared with hempty | hslot | hpending
        · exact hs.apart c (.inl hempty) husable
        · cases hslot
          exact hnot husable
        · exact hs.apart c (.inr (.inr hpending)) husable
      alone := fun c hc => honly c (.inr (.inr (.inl hc))) (hs.alone c hc)
      own := fun h hmem hgiven hsnap =>
        honly h.context (.inr (.inr (.inr (.inl ⟨h, hmem, hsnap, rfl⟩)))) (hs.own h hmem hgiven hsnap) }

/-- What `capture` leaves: a snapshot that nobody enters, or a context of the callback's own. -/
structure Captured (l : Layout) (s : State V A) (got : (Nat × Bool) × State V A) : Prop where
  sound : Sound l got.2
  live : got.1.1 < got.2.nextCtx
  content : got.2.content got.1.1 = s.currentContent
  shared : got.1.2 = true → ¬ got.2.Usable got.1.1
  unusable : l.layoutOk = false → got.1.2 = true → got.1.1 = emptySnapshot
  own : got.1.2 = false → got.2.refcnt got.1.1 = 0
  pending : got.2.pending = s.pending
  kept : ∀ c < s.nextCtx, got.2.content c = s.content c

/-- The empty snapshot stands for every mapping that is empty. -/
theorem captured_empty (hs : Sound l s') (hempty : s.currentContent = ∅)
    (hpending : s'.pending = s.pending) (hkept : ∀ c < s.nextCtx, s'.content c = s.content c) :
    Captured l s ((emptySnapshot, true), s') where
  sound := hs
  live := hs.live emptySnapshot (by simp [State.refs])
  content := by rw [emptySnapshot_content hs, hempty]
  shared _ := hs.apart emptySnapshot (.inl rfl)
  unusable _ _ := rfl
  own h := by cases h
  pending := hpending
  kept := hkept

/-- The cached snapshot stands for the mapping whose map it has. -/
theorem captured_cached (hs : Sound l s') {vars snap : Nat} (hl : l.layoutOk = true)
    (hcached : cached s' vars = some snap) (hvars : s'.maps vars = s.currentContent)
    (hpending : s'.pending = s.pending) (hkept : ∀ c < s.nextCtx, s'.content c = s.content c) :
    Captured l s ((snap, true), s') := by
  obtain ⟨hslot, hsnap⟩ := Option.filter_eq_some_iff.mp hcached
  have hshared : s'.Shared snap := .inr (.inl hslot)
  refine ⟨hs, hs.live snap hshared.mem_refs, ?_, fun _ => hs.apart snap hshared, ?_, ?_, hpending,
    hkept⟩
  · rw [State.content, of_decide_eq_true hsnap, hvars]
  · intro h
    rw [hl] at h
    cases h
  · intro h
    cases h

theorem capture_captured [DecidableEq V] [DecidableEq A] (hs : Sound l s) :
    Captured l s (capture l s) := by
  unfold capture
  split
  · rename_i snap hplace
    unfold captureInPlace at hplace
    split at hplace
    · rename_i htstate
      have hl : l.layoutOk = true := by
        simp only [Layout.tstateOk, decide_eq_true_eq] at htstate
        rw [htstate]
        rfl
      split at hplace
      · rename_i hempty
        cases hplace
        apply captured_empty hs _ rfl fun _ _ => rfl
        rw [State.currentContent, hempty, hs.emptyMap]
      · exact captured_cached hs hl hplace rfl rfl fun _ _ => rfl
    · cases hplace
  · have hcopy := copyCurrent_copied hs
    dsimp only
    split
    · rename_i hempty
      apply captured_empty hcopy.sound _ hcopy.pending hcopy.kept
      rw [← hcopy.content]
      exact isEmpty_content hcopy.sound hempty
    · split
      · refine ⟨hcopy.sound, hcopy.live, hcopy.content, ?_, ?_, fun _ => hcopy.fresh, hcopy.pending,
          hcopy.kept⟩
        · intro h
          cases h
        · intro _ h
          cases h
      · rename_i hlayout
        have hl : l.layoutOk = true := by simpa using hlayout
        split
        · rename_i snap hcached
          exact captured_cached hcopy.sound hl hcached hcopy.content hcopy.pending hcopy.kept
        · have hcache := cache_sound hcopy.sound hcopy.live hcopy.fresh
          refine ⟨hcache, hcopy.live, hcopy.content, fun _ => ?_, ?_, ?_, hcopy.pending, hcopy.kept⟩
          · exact hcache.apart _ (.inr (.inl rfl))
          · intro h
            rw [hl] at h
            cases h
          · intro h
            cases h

theorem refcnt_append (s : State V A) (h : Handle V A) (c : Nat) :
    ({ s with pending := s.pending ++ [h] } : State V A).refcnt c =
      s.refcnt c + if h.context = c then 1 else 0 := by
  simp only [State.refcnt_eq, List.map_append, List.map_cons, List.map_nil, List.count_append,
    List.count_cons, List.count_nil, beq_iff_eq]
  omega

/-- A handle is queued: with a snapshot nobody enters, a context of its own, or one it was given. -/
theorem append_sound (hs : Sound l s) (h : Handle V A) (hlive : h.context < s.nextCtx)
    (hshared : h.snapshot = true → ¬ s.Usable h.context)
    (hunusable : l.layoutOk = false → h.snapshot = true → h.context = emptySnapshot)
    (hown : h.snapshot = false → Loose s h.context)
    (hfresh : h.given = false → h.snapshot = false → s.refcnt h.context = 0)
    (hwanted : h.given = false → s.content h.context = h.wanted)
    (horigin : h.given = false → writers h.wanted ⊆ h.lineage)
    (hgiven : h.given = true → h.snapshot = false) :
    Sound l { s with pending := s.pending ++ [h] } := by
  -- no holder that must be alone has the context of the new handle
  have hother (c : Nat) (husable : s.Usable c)
      (hloose : Loose s h.context → c ≠ h.context) : c ≠ h.context := by
    cases hsnap : h.snapshot with
    | true =>
      rintro rfl
      exact hshared hsnap husable
    | false => exact hloose (hown hsnap)
  have hrefcnt := refcnt_append s h
  exact
    { hs with
      live := by
        intro c hc
        rw [State.mem_refs, hrefcnt] at hc
        by_cases hctx : h.context = c
        · rw [← hctx]
          exact hlive
        · exact hs.live c (State.mem_refs.mpr (by simpa [hctx] using hc))
      apart := by
        intro c hc husable
        have hpending : s.Shared c ∨ (h.snapshot = true ∧ h.context = c) := by
          rcases hc with hc | hc | ⟨other, hmem, hsnap, hctx⟩
          · exact .inl (.inl hc)
          · exact .inl (.inr (.inl hc))
          · rcases List.mem_append.mp hmem with hmem | hmem
            · exact .inl (.inr (.inr ⟨other, hmem, hsnap, hctx⟩))
            · rw [List.mem_singleton.mp hmem] at hsnap hctx
              exact .inr ⟨hsnap, hctx⟩
        have husable' : s.Usable c ∨ (h.snapshot = false ∧ h.context = c) := by
          rcases husable with hc | hc | hc | ⟨other, hmem, hsnap, hctx⟩ | hc
          · exact .inl (.inl hc)
          · exact .inl (.inr (.inl hc))
          · exact .inl (.inr (.inr (.inl hc)))
          · rcases List.mem_append.mp hmem with hmem | hmem
            · exact .inl (.inr (.inr (.inr (.inl ⟨other, hmem, hsnap, hctx⟩))))
            · rw [List.mem_singleton.mp hmem] at hsnap hctx
              exact .inr ⟨hsnap, hctx⟩
          · exact .inl (.inr (.inr (.inr (.inr hc))))
        rcases hpending with hc | ⟨hsnap, rfl⟩
        · rcases husable' with husable | ⟨hsnap, rfl⟩
          · exact hs.apart c hc husable
          · exact (hown hsnap).shared hc
        · rcases husable' with husable | ⟨hsnap', -⟩
          · exact hshared hsnap husable
          · rw [hsnap] at hsnap'
            cases hsnap'
      alone := by
        intro c hc
        have hne := hother c (.inr (.inr (.inl hc))) fun hloose => by
          rintro rfl
          exact hloose.scratch hc
        rw [hrefcnt, if_neg (Ne.symm hne)]
        exact hs.alone c hc
      wanted := by
        intro other hmem hnot
        rcases List.mem_append.mp hmem with hmem | hmem
        · exact hs.wanted other hmem hnot
        · rw [List.mem_singleton.mp hmem] at hnot ⊢
          exact hwanted hnot
      own := by
        intro other hmem hnot hsnap
        rw [hrefcnt]
        rcases List.mem_append.mp hmem with hmem | hmem
        · have hne := hother other.context (.inr (.inr (.inr (.inl ⟨other, hmem, hsnap, rfl⟩))))
            fun hloose => hloose.own other hmem hnot hsnap
          rw [if_neg (Ne.symm hne)]
          exact hs.own other hmem hnot hsnap
        · rw [List.mem_singleton.mp hmem] at hnot hsnap ⊢
          rw [hfresh hnot hsnap, if_pos rfl]
      unusable := by
        intro hl other hmem
        rcases List.mem_append.mp hmem with hmem | hmem
        · exact hs.unusable hl other hmem
        · rw [List.mem_singleton.mp hmem]
          exact hunusable hl
      given := by
        intro other hmem
        rcases List.mem_append.mp hmem with hmem | hmem
        · exact hs.given other hmem
        · rw [List.mem_singleton.mp hmem]
          exact hgiven
      origin := by
        intro other hmem
        rcases List.mem_append.mp hmem with hmem | hmem
        · exact hs.origin other hmem
        · rw [List.mem_singleton.mp hmem]
          exact horigin }

theorem schedule_sound [DecidableEq V] [DecidableEq A] (hs : Sound l s) : Sound l (schedule l s) := by
  have hgot := capture_captured hs
  apply append_sound hgot.sound
  · exact hgot.live
  · exact hgot.shared
  · exact hgot.unusable
  · exact fun hsnap => .of_fresh hgot.live (hgot.own hsnap)
  · exact fun _ => hgot.own
  · exact fun _ => hgot.content
  · exact fun _ => (current_origin hs).1
  · intro h
    cases h

theorem scheduleIn_sound (hs : Sound l s) (i : Nat) : Sound l (scheduleIn i s) := by
  unfold scheduleIn
  split
  · rename_i ctx hctx
    have hloose := Loose.of_used hs (.inr (List.mem_of_getElem? hctx))
    apply append_sound hs
    · exact hloose.live
    · intro h
      cases h
    · intro _ h
      cases h
    · exact fun _ => hloose
    · intro h
      cases h
    · intro h
      cases h
    · intro h
      cases h
    · exact fun _ => rfl
  · exact hs

/-! ## 7. Dispatch -/

theorem refcnt_erase {i : Nat} {h : Handle V A} (hi : s.pending[i]? = some h) (c : Nat) :
    s.refcnt c = (s.take i).refcnt c + if h.context = c then 1 else 0 := by
  obtain ⟨hlt, hget⟩ := List.getElem?_eq_some_iff.mp hi
  have hperm := (List.getElem_cons_eraseIdx_perm hlt).map Handle.context
  have hcount := hperm.count_eq c
  rw [hget, List.map_cons, List.count_cons] at hcount
  simp only [State.take, State.refcnt_eq, ← hcount, beq_iff_eq]
  omega

/-- The context of a handle that is taken out to run. -/
theorem dispatched_loose (hs : Sound l s) {i : Nat} {h : Handle V A} (hi : s.pending[i]? = some h)
    (hsnap : h.snapshot = false) : Loose (s.take i) h.context := by
  have hmem := List.mem_of_getElem? hi
  have hsheds := take_sheds s i
  have husable : s.Usable h.context := .inr (.inr (.inr (.inl ⟨h, hmem, hsnap, rfl⟩)))
  -- what must be alone would have this handle beside it
  have halone (husable' : (s.take i).Usable h.context) : s.refcnt h.context ≠ 1 := by
    have hpos := State.mem_refs.mp husable'.mem_refs
    have hcount := refcnt_erase hi h.context
    rw [if_pos rfl] at hcount
    omega
  constructor
  · exact hs.live _ husable.mem_refs
  · exact fun hshared => hs.apart _ (hsheds.shared hshared) husable
  · exact fun hscratch => halone (.inr (.inr (.inl hscratch))) (hs.alone _ hscratch)
  · intro other hother hgiven hsnap' hctx
    apply halone (.inr (.inr (.inr (.inl ⟨other, hother, hsnap', hctx⟩))))
    rw [← hctx]
    exact hs.own other (hsheds.pending other hother) hgiven hsnap'

/-- What `acquire` leaves: a context that nothing holds, with the snapshot's variables. -/
structure Acquired (l : Layout) (s : State V A) (snap : Nat) (got : Nat × State V A) : Prop where
  sound : Sound l got.2
  live : got.1 < got.2.nextCtx
  fresh : got.2.refcnt got.1 = 0
  content : got.2.content got.1 = s.content snap
  usable : ∀ c, got.2.Usable c → s.Usable c
  next : s.nextCtx ≤ got.2.nextCtx
  entered : got.2.entered = s.entered
  held : got.2.held = s.held
  pending : got.2.pending = s.pending
  running : got.2.running = s.running
  kept : ∀ c < s.nextCtx, got.2.content c = s.content c

theorem acquired_alloc (hsheds : Sheds s s') (hs : Sound l s) (snap : Nat)
    (hentered : s'.entered = s.entered) (hheld : s'.held = s.held)
    (hpending : s'.pending = s.pending) (hrunning : s'.running = s.running) :
    Acquired l s snap (s'.alloc (s.varsOf snap)) where
  sound := alloc_sound (hsheds.sound hs) _
  live := Nat.lt_succ_self _
  fresh := (hsheds.sound hs).unheld
  content := by rw [alloc_self, hsheds.maps, State.content]
  usable c hc := hsheds.usable hc
  next := by
    rw [← hsheds.nextCtx]
    exact Nat.le_succ _
  entered := hentered
  held := hheld
  pending := hpending
  running := hrunning
  kept c hc := by
    rw [alloc_content s' _ (by rw [hsheds.nextCtx]; exact hc), hsheds.content]

theorem acquire_acquired [DecidableEq V] [DecidableEq A] (hs : Sound l s) (snap : Nat)
    (hempty : l.layoutOk = false → s.content snap = ∅) : Acquired l s snap (acquire l s snap) := by
  unfold acquire
  dsimp only
  generalize hwant : (if l.layoutOk then some (s.varsOf snap) else none) = want
  split
  · rename_i ctx hscratch
    have hsheds := dropScratch_sheds s s.scratchVars
    split
    · rename_i hsame
      have hspare := hs.spare ctx hscratch
      have hone := hs.alone ctx hscratch
      have husable : s.Usable ctx := .inr (.inr (.inl hscratch))
      refine ⟨hsheds.sound hs, hs.live ctx husable.mem_refs, ?_, ?_, fun c => hsheds.usable, le_rfl,
        rfl, rfl, rfl, rfl, fun _ _ => rfl⟩
      · simp only [State.refcnt_eq, hscratch, Option.toList_some, Option.toList_none,
          List.count_singleton_self, List.count_nil] at hone ⊢
        omega
      · cases hl : l.layoutOk with
        | false =>
          rw [hl, if_neg (by decide)] at hspare
          rw [hempty hl]
          exact hspare
        | true =>
          -- the same map, so the same variables
          rw [hl, if_pos rfl] at hspare
          have hvars : s.scratchVars = some (s.varsOf snap) := by simpa [hl, ← hwant] using hsame
          have heq := Option.some.inj (hspare.symm.trans hvars)
          simp [State.content, heq]
    · exact acquired_alloc (dropScratch_sheds s want) hs snap rfl rfl rfl rfl
  · rename_i hscratch
    have hnone : ({ s with scratchVars := want } : State V A) =
        { s with scratch := none, scratchVars := want } := by rw [← hscratch]
    rw [hnone]
    exact acquired_alloc (dropScratch_sheds s want) hs snap rfl rfl rfl rfl

/-- The dispatch takes its references. -/
theorem run_sound (hs : Sound l s) (run : Running) (hrunning : s.running = none)
    (hctx : Loose s run.ctx)
    (hcontext : ∀ c, run.context = some c → c < s.nextCtx ∧ (c = run.ctx ∨ ¬ s.Usable c)) :
    Sound l { s with running := some run } ∧ Loose { s with running := some run } run.ctx := by
  have htakes : Takes run.ctx s { s with running := some run } := by
    refine ⟨rfl, rfl, rfl, rfl, rfl, rfl, rfl, ?_, ?_, ?_⟩
    · intro c hc
      by_cases hown : run.context = some c
      · exact .inr (.inr (hcontext c hown).1)
      · simp only [State.refs, List.mem_append, List.mem_cons, Option.bind_some, Option.mem_toList,
          Option.toList_some, List.map_cons, List.map_nil, List.not_mem_nil, or_false, hown] at hc ⊢
        grind
    · intro c husable hc
      have hown : run.context ≠ some c := by
        intro h
        rcases (hcontext c h).2 with rfl | hnot
        · exact hc rfl
        · exact hnot husable
      have hcount : run.context.toList.count c = 0 :=
        List.count_eq_zero.mpr (by simpa [Option.mem_toList] using hown)
      simp [State.refcnt_eq, hrunning, List.count_cons, Ne.symm hc, hcount]
    · intro c hc
      simp only [State.Usable, hrunning] at hc ⊢
      grind
  exact ⟨htakes.sound hs hctx hs.frames hs.distinct, hctx.live, hctx.shared, hctx.scratch, hctx.own⟩

/-- What a dispatch leaves of the handle it took: one frame more, in a context of nobody else's where
    none was given. -/
structure Dispatched (l : Layout) (s : State V A) (h : Handle V A) (s' : State V A) : Prop where
  sound : Sound l s'
  kept : ∀ c < s.nextCtx, s'.content c = s.content c
  pending : ∀ other ∈ s'.pending, other ∈ s.pending
  enters : h.given = false → ∃ frame, s'.entered = frame :: s.entered ∧
    s'.content frame.ctx = h.wanted ∧ frame.callback = s.nextCallback ∧
    frame.lineage = insert s.nextCallback h.lineage ∧ frame.ctx ∉ s.entered.map Frame.ctx ∧
    frame.ctx ∉ s.held ∧ ∀ other ∈ s'.pending, other.context ≠ frame.ctx

theorem enter_content (frame : Frame) (s : State V A) (c : Nat) :
    (enter frame s).content c = s.content c := by
  unfold enter
  split <;> rfl

theorem enter_pending (frame : Frame) (s : State V A) : (enter frame s).pending = s.pending := by
  unfold enter
  split <;> rfl

/-- The callback starts in the context that the dispatch came to in `s'`. -/
theorem start_dispatched {h : Handle V A} {run : Running} {lineage : Finset Nat} (hs : Sound l s')
    (hrunning : s'.running = none) (hloose : Loose s' run.ctx)
    (hcontext : ∀ c, run.context = some c → c < s'.nextCtx ∧ (c = run.ctx ∨ ¬ s'.Usable c))
    (hentered : s'.entered = s.entered) (hheld : s'.held = s.held)
    (hpending : ∀ other ∈ s'.pending, other ∈ s.pending)
    (hkept : ∀ c < s.nextCtx, s'.content c = s.content c)
    (hlineage : writers (s'.content run.ctx) ⊆ lineage)
    (hown : h.given = false →
      s'.refcnt run.ctx = 0 ∧ s'.content run.ctx = h.wanted ∧ lineage = h.lineage) :
    Dispatched l s h (enter ⟨run.ctx, s.nextCallback, insert s.nextCallback lineage⟩
      { s' with running := some run }) := by
  obtain ⟨hsound, hloose'⟩ := run_sound hs run hrunning hloose hcontext
  constructor
  · apply enter_sound hsound hloose'
    · exact hlineage.trans (Finset.subset_insert _ _)
    · exact Finset.mem_insert_self _ _
  · intro c hc
    rw [enter_content]
    exact hkept c hc
  · intro other hmem
    rw [enter_pending] at hmem
    exact hpending other hmem
  · intro hgiven
    obtain ⟨hfresh, hwanted, rfl⟩ := hown hgiven
    -- nothing holds the context but the dispatch
    have hnot : run.ctx ∉ s'.refs := by
      rw [State.mem_refs]
      omega
    have hnotEntered : run.ctx ∉ s'.entered.map Frame.ctx := by
      intro hmem
      have husable : s'.Usable run.ctx := .inl hmem
      exact hnot husable.mem_refs
    refine ⟨⟨run.ctx, s.nextCallback, insert s.nextCallback h.lineage⟩, ?_, ?_, rfl, rfl, ?_, ?_, ?_⟩
    · rw [enter, if_neg hnotEntered, ← hentered]
    · rw [enter_content]
      exact hwanted
    · rw [← hentered]
      exact hnotEntered
    · intro hmem
      have husable : s'.Usable run.ctx := .inr (.inl (hheld ▸ hmem))
      exact hnot husable.mem_refs
    · intro other hmem hctx
      rw [enter_pending] at hmem
      have hrefs : other.context ∈ s'.refs := State.pending_mem_refs (s := s') hmem
      rw [hctx] at hrefs
      exact hnot hrefs

theorem dispatch_dispatched [DecidableEq V] [DecidableEq A] (hs : Sound l s) {i : Nat}
    {h : Handle V A} (hrunning : s.running = none) (hi : s.pending[i]? = some h) :
    Dispatched l s h (dispatch l i s) := by
  have hmem := List.mem_of_getElem? hi
  have hsheds := take_sheds s i
  have htaken := hsheds.sound hs
  have hlive := hs.live _ (State.pending_mem_refs hmem)
  unfold dispatch
  simp only [hrunning, hi]
  split
  · rename_i hsnap
    have hgiven : h.given = false := by
      by_contra hgiven
      have hnot := hs.given h hmem (by simpa using hgiven)
      simp [hnot] at hsnap
    have hshared : s.Shared h.context := .inr (.inr ⟨h, hmem, hsnap, rfl⟩)
    have hempty : l.layoutOk = false → (s.take i).content h.context = ∅ := by
      intro hl
      rw [hsheds.content, hs.unusable hl h hmem hsnap]
      exact emptySnapshot_content hs
    have hgot := acquire_acquired htaken h.context hempty
    have hwanted : _ = h.wanted := hgot.content.trans (hs.wanted h hmem hgiven)
    apply start_dispatched (s := s) hgot.sound (hgot.running.trans hrunning)
      (.of_fresh hgot.live hgot.fresh) _ hgot.entered hgot.held
      (fun other hother => hsheds.pending other (hgot.pending ▸ hother)) hgot.kept
    · rw [hwanted]
      exact hs.origin h hmem hgiven
    · exact fun _ => ⟨hgot.fresh, hwanted, rfl⟩
    · rintro c ⟨⟩
      refine ⟨lt_of_lt_of_le hlive hgot.next, .inr fun husable => ?_⟩
      exact hs.apart _ hshared (hsheds.usable (hgot.usable _ husable))
  · rename_i hsnap
    have hsnap' : h.snapshot = false := by simpa using hsnap
    apply start_dispatched (s := s) htaken hrunning (dispatched_loose hs hi hsnap') _ rfl rfl
      hsheds.pending fun _ _ => rfl
    · by_cases hgiven : h.given = true
      · rw [if_pos hgiven]
      · rw [if_neg hgiven, hsheds.content, hs.wanted h hmem (by simpa using hgiven)]
        exact hs.origin h hmem (by simpa using hgiven)
    · intro hgiven
      refine ⟨?_, hs.wanted h hmem hgiven, by simp [hgiven]⟩
      have hone := hs.own h hmem hgiven hsnap'
      rw [refcnt_erase hi, if_pos rfl] at hone
      exact Nat.succ.inj hone
    · rintro c ⟨⟩
      exact ⟨hlive, .inl rfl⟩

/-- The scratch is kept: nothing holds it but the state, and it is as it was. -/
theorem keep_sound (hs : Sound l s) (hlive : ctx < s.nextCtx) (hfresh : s.refcnt ctx = 0)
    (hnone : s.scratch = none)
    (hspare : if l.layoutOk then s.scratchVars = some (s.varsOf ctx) else s.content ctx = ∅) :
    Sound l { s with scratch := some ctx } := by
  have hnot : ctx ∉ s.refs := by
    rw [State.mem_refs]
    omega
  have hrefcnt (c : Nat) : ({ s with scratch := some ctx } : State V A).refcnt c =
      s.refcnt c + if ctx = c then 1 else 0 := by
    simp only [State.refcnt_eq, hnone, Option.toList_some, Option.toList_none, List.count_cons,
      List.count_nil, beq_iff_eq]
    omega
  exact
    { hs with
      live := by
        intro c hc
        rw [State.mem_refs, hrefcnt] at hc
        by_cases hctx : ctx = c
        · rw [← hctx]
          exact hlive
        · exact hs.live c (State.mem_refs.mpr (by simpa [hctx] using hc))
      apart := by
        intro c hshared husable
        have hshared' : s.Shared c := hshared
        rcases husable with hc | hc | hc | hc | hc
        · exact hs.apart c hshared' (.inl hc)
        · exact hs.apart c hshared' (.inr (.inl hc))
        · cases hc
          exact hnot hshared'.mem_refs
        · exact hs.apart c hshared' (.inr (.inr (.inr (.inl hc))))
        · exact hs.apart c hshared' (.inr (.inr (.inr (.inr hc))))
      alone := by
        rintro c ⟨⟩
        rw [hrefcnt, hfresh, if_pos rfl]
      spare := by
        rintro c ⟨⟩
        exact hspare
      own := by
        intro h hmem hgiven hsnap
        have hne : ctx ≠ h.context := by
          rintro rfl
          exact hnot (State.pending_mem_refs hmem)
        rw [hrefcnt, if_neg hne]
        exact hs.own h hmem hgiven hsnap }

theorem giveBack_sound [DecidableEq V] [DecidableEq A] (hs : Sound l s) {run : Running}
    (hrun : s.running = some run) : Sound l (giveBack l run.ctx s) := by
  have hreturn := return_sheds s
  unfold giveBack
  split
  · rename_i hunchanged
    simp only [unchanged, Bool.and_eq_true, decide_eq_true_eq] at hunchanged
    obtain ⟨hone, hvars⟩ := hunchanged
    have hsheds := dropScratch_sheds { s with running := none } s.scratchVars
    have husable : s.Usable run.ctx := .inr (.inr (.inr (.inr ⟨run, hrun, rfl⟩)))
    apply keep_sound (s := { s with running := none, scratch := none })
      (hsheds.sound (hreturn.sound hs)) (hs.live run.ctx husable.mem_refs) _ rfl
    · cases hl : l.layoutOk with
      | true =>
        rw [hl, if_pos rfl] at hvars
        rw [if_pos rfl]
        exact (of_decide_eq_true hvars).symm
      | false =>
        rw [hl, if_neg (by decide)] at hvars
        have hempty := isEmpty_content hs hvars
        rw [if_neg (by decide)]
        exact hempty
    · -- the one reference was the dispatch's own
      simp only [State.refcnt_eq, hrun, Option.toList_some, List.map_cons, List.map_nil,
        List.count_singleton_self, Option.bind_some, Option.toList_none, List.count_nil,
        Option.bind_none] at hone ⊢
      omega
  · exact hreturn.sound hs

theorem finish_sound [DecidableEq V] [DecidableEq A] (hs : Sound l s) : Sound l (finish l s) := by
  unfold finish
  split
  · rename_i run hrun
    split
    · exact hs
    · split
      · exact giveBack_sound hs hrun
      · exact (return_sheds s).sound hs
  · exact hs

/-! ## 8. Variables set -/

/-- What setting a variable leaves of every context in use but the one it is set in. -/
structure Assigned (l : Layout) (s s' : State V A) : Prop where
  sound : Sound l s'
  kept : ∀ c ∈ s.refs, s.current ≠ some c → s'.content c = s.content c

/-- The entered context gets a new map. -/
theorem replace_assigned [DecidableEq V] (hs : Sound l s) {frame : Frame} {rest : List Frame}
    (hentered : s.entered = frame :: rest) {new : Mapping V A} {address : Nat}
    (halloc : s.Allocates new address) (hnew : writers new ⊆ frame.lineage) :
    Assigned l s
      { s with
        maps := Function.update s.maps address new
        varsOf := Function.update s.varsOf frame.ctx address } := by
  generalize hs' : ({ s with
        maps := Function.update s.maps address new
        varsOf := Function.update s.varsOf frame.ctx address } : State V A) = s'
  have hframe : frame.ctx ∈ s.entered.map Frame.ctx := by simp [hentered]
  have hloose := Loose.of_used hs (.inl hframe)
  have hmaps (a : Nat) (ha : a ≠ address ∨ a = emptyVars) :
      Function.update s.maps address new a = s.maps a := by
    by_cases haddress : a = address
    · obtain rfl := haddress
      rcases halloc with ⟨hempty, -⟩ | hfree
      · rw [Function.update_self, hempty, ha.resolve_left (by simp), hs.emptyMap]
      · have hused := hfree emptySnapshot (by simp [State.refs])
        rw [hs.emptyCtx] at hused
        exact absurd (ha.resolve_left (by simp)).symm hused
    · rw [Function.update_of_ne haddress]
  -- no other context in use has the address, but for the empty map's
  have hother (c : Nat) (hc : c ∈ s.refs) (hne : c ≠ frame.ctx) :
      s'.content c = s.content c ∧ s'.varsOf c = s.varsOf c := by
    subst hs'
    refine ⟨?_, Function.update_of_ne hne _ _⟩
    simp only [State.content, Function.update_of_ne hne]
    apply hmaps
    rcases halloc with ⟨-, haddress⟩ | hfree
    · by_cases hvars : s.varsOf c = emptyVars
      · exact .inr hvars
      · rw [haddress]
        exact .inl hvars
    · exact .inl (hfree c hc)
  have hkept (c : Nat) (hc : c ∈ s.refs) (hne : c ≠ frame.ctx) := (hother c hc hne).1
  have hnot (h : Handle V A) (hmem : h ∈ s.pending) (hgiven : h.given = false) :
      h.context ≠ frame.ctx := by
    cases hsnap : h.snapshot with
    | true =>
      rintro hctx
      apply hloose.shared
      exact .inr (.inr ⟨h, hmem, hsnap, hctx⟩)
    | false => exact hloose.own h hmem hgiven hsnap
  have hscratch (c : Nat) (hc : s.scratch = some c) : c ∈ s.refs ∧ c ≠ frame.ctx := by
    have husable : s.Usable c := .inr (.inr (.inl hc))
    refine ⟨husable.mem_refs, ?_⟩
    rintro rfl
    exact hloose.scratch hc
  have hempty : emptySnapshot ≠ frame.ctx := by
    intro h
    exact hloose.shared (.inl h.symm)
  constructor
  · subst hs'
    exact
      { hs with
        emptyCtx := (hother emptySnapshot (by simp [State.refs]) hempty).2.trans hs.emptyCtx
        emptyMap := (hmaps emptyVars (.inr rfl)).trans hs.emptyMap
        spare := by
          intro c hc
          obtain ⟨hmem, hne⟩ := hscratch c hc
          have hspare := hs.spare c hc
          rw [← (hother c hmem hne).1, ← (hother c hmem hne).2] at hspare
          exact hspare
        wanted := by
          intro h hmem hgiven
          rw [hkept h.context (State.pending_mem_refs hmem) (hnot h hmem hgiven)]
          exact hs.wanted h hmem hgiven
        frames := by
          intro other hmem
          by_cases hctx : other.ctx = frame.ctx
          · have hsame : other = frame :=
              List.inj_on_of_nodup_map hs.distinct hmem (by simp [hentered]) hctx
            rw [hsame]
            refine ⟨?_, (hs.frames frame (by simp [hentered])).2⟩
            simpa [State.content] using hnew
          · have husable : s.Usable other.ctx := .inl (List.mem_map.mpr ⟨other, hmem, rfl⟩)
            rw [hkept other.ctx husable.mem_refs hctx]
            exact hs.frames other hmem }
  · intro c hc hcurrent
    apply hkept c hc
    rintro rfl
    exact hcurrent (by simp [State.current, hentered])

theorem assign_assigned [DecidableEq V] [DecidableEq A] (hs : Sound l s) (v : V) (x : Option A)
    (address : Nat) : Assigned l s (s.assign v x address) := by
  have hget := contextGet_sound hs
  have hstart : Assigned l s s.contextGet :=
    ⟨hget, fun c hc _ => contextGet_content s (hs.live c hc)⟩
  unfold State.assign
  dsimp only
  cases hentered : s.contextGet.entered with
  | nil => simpa [State.current, hentered] using hstart
  | cons frame rest =>
    have hcurrent : s.contextGet.current = some frame.ctx := by simp [State.current, hentered]
    have hframe := hget.frames frame (by simp [hentered])
    have hcallback : s.contextGet.callback = frame.callback := by simp [State.callback, hentered]
    simp only [hcurrent]
    split
    · exact hstart
    · split
      · rename_i halloc
        have hreplaced := replace_assigned hget hentered halloc (by
          rw [hcallback]
          apply (writers_assigned _ _ _ _).trans
          exact Finset.insert_subset hframe.2 hframe.1)
        rw [hentered] at hreplaced
        refine ⟨hreplaced.sound, fun c hc hne => ?_⟩
        rw [hreplaced.kept c (contextGet_refs s hc), contextGet_content s (hs.live c hc)]
        intro hcurrent'
        by_cases hnone : s.entered = []
        · -- the context just made is in nobody's hands
          rw [contextGet_nil hnone] at hcurrent'
          have hlive := hs.live c hc
          simp [enter, hnone, State.alloc, State.current] at hcurrent'
          omega
        · rw [contextGet_cons hnone] at hcurrent'
          exact hne hcurrent'
      · exact hstart

/-! ## 9. Whole runs -/

variable [DecidableEq V] [DecidableEq A]

theorem step_sound (hs : Sound l s) (i : Input V A) : Sound l (step l s i) := by
  cases i with
  | schedule => exact schedule_sound hs
  | scheduleIn i => exact scheduleIn_sound hs i
  | cancel i => exact (cancel_sheds s i).sound hs
  | cancelRunning => exact (cancelRunning_sheds s).sound hs
  | dispatch i =>
    cases hrunning : s.running with
    | some run => simpa [step, dispatch, hrunning] using hs
    | none =>
      cases hi : s.pending[i]? with
      | none => simpa [step, dispatch, hrunning, hi] using hs
      | some h => exact (dispatch_dispatched hs hrunning hi).sound
  | finish => exact finish_sound hs
  | trim => exact (trim_sheds s).sound hs
  | clear => exact (clear_sheds s).sound hs
  | leave =>
    unfold step
    dsimp only
    split
    · exact (dropScratch_sheds s none).sound hs
    · exact hs
  | assign v x address => exact (assign_assigned hs v x address).sound
  | copyContext =>
    have hcopy := copyCurrent_copied hs
    exact hold_sound hcopy.sound (.of_fresh hcopy.live hcopy.fresh)
  | retain =>
    cases hentered : s.entered with
    | nil =>
      have hcurrent : s.current = none := by simp [State.current, hentered]
      simpa [step, hcurrent] using hs
    | cons frame rest =>
      have hcurrent : s.current = some frame.ctx := by simp [State.current, hentered]
      have hloose : Loose s frame.ctx := .of_used hs (.inl (by simp [hentered]))
      simpa [step, hcurrent] using hold_sound hs hloose
  | release i => exact (release_sheds s i).sound hs
  | enter i =>
    unfold step
    dsimp only
    split
    · rename_i ctx hctx
      apply enter_sound hs (Loose.of_used hs (.inr (List.mem_of_getElem? hctx)))
      · exact Finset.subset_insert _ _
      · exact Finset.mem_insert_self _ _
    · exact hs
  | exit => exact (exit_sheds s).sound hs

/-- Contexts are changed by setting variables in them, and in no other way. -/
theorem step_kept (hs : Sound l s) (i : Input V A) (hc : c ∈ s.refs) (hcurrent : s.current ≠ some c) :
    (step l s i).content c = s.content c := by
  have hlive := hs.live c hc
  cases i with
  | schedule => exact (capture_captured hs).kept c hlive
  | scheduleIn i =>
    unfold step scheduleIn
    dsimp only
    split <;> rfl
  | cancel i => rfl
  | cancelRunning => rfl
  | dispatch i =>
    cases hrunning : s.running with
    | some run => simp [step, dispatch, hrunning]
    | none =>
      cases hi : s.pending[i]? with
      | none => simp [step, dispatch, hrunning, hi]
      | some h => exact (dispatch_dispatched hs hrunning hi).kept c hlive
  | finish =>
    unfold step finish giveBack
    dsimp only
    split
    · split
      · rfl
      · split
        · split <;> rfl
        · rfl
    · rfl
  | trim => exact (trim_sheds s).content c
  | clear => rfl
  | leave =>
    unfold step
    dsimp only
    split <;> rfl
  | assign v x address => exact (assign_assigned hs v x address).kept c hc hcurrent
  | copyContext => exact (copyCurrent_copied hs).kept c hlive
  | retain => rfl
  | release i => rfl
  | enter i =>
    unfold step
    dsimp only
    split
    · exact enter_content _ s c
    · rfl
  | exit => rfl

theorem assign_pending (s : State V A) (v : V) (x : Option A) (address : Nat) :
    (s.assign v x address).pending = s.pending := by
  have hget := (contextGet_holders s).1
  unfold State.assign
  dsimp only
  split
  · exact hget
  · split
    · exact hget
    · split <;> exact hget

/-- What was promised stays, and a promise is made by scheduling alone. -/
theorem step_promised (hs : Sound l s) (i : Input V A) {h : Handle V A}
    (hmem : h ∈ (step l s i).pending) :
    h ∈ s.pending ∨ h.given = true ∨ h.wanted = s.currentContent ∧ h.lineage = s.lineage := by
  cases i with
  | schedule =>
    simp only [step, schedule, (capture_captured hs).pending, List.mem_append,
      List.mem_singleton] at hmem
    rcases hmem with hmem | rfl
    · exact .inl hmem
    · exact .inr (.inr ⟨rfl, rfl⟩)
  | scheduleIn i =>
    unfold step scheduleIn at hmem
    dsimp only at hmem
    split at hmem
    · rcases List.mem_append.mp hmem with hmem | hmem
      · exact .inl hmem
      · rw [List.mem_singleton.mp hmem]
        exact .inr (.inl rfl)
    · exact .inl hmem
  | cancel i => exact .inl (List.mem_of_mem_eraseIdx hmem)
  | cancelRunning => exact .inl hmem
  | dispatch i =>
    left
    cases hrunning : s.running with
    | some run => simpa [step, dispatch, hrunning] using hmem
    | none =>
      cases hi : s.pending[i]? with
      | none => simpa [step, dispatch, hrunning, hi] using hmem
      | some taken => exact (dispatch_dispatched hs hrunning hi).pending h hmem
  | finish =>
    left
    unfold step finish giveBack at hmem
    dsimp only at hmem
    split at hmem
    · split at hmem
      · exact hmem
      · split at hmem
        · split at hmem <;> exact hmem
        · exact hmem
    · exact hmem
  | trim => exact .inl ((trim_sheds s).pending h hmem)
  | clear => exact .inl hmem
  | leave =>
    unfold step at hmem
    dsimp only at hmem
    split at hmem <;> exact .inl hmem
  | assign v x address =>
    simp only [step, assign_pending] at hmem
    exact .inl hmem
  | copyContext =>
    simp only [step, (copyCurrent_copied hs).pending] at hmem
    exact .inl hmem
  | retain => exact .inl hmem
  | release i => exact .inl hmem
  | enter i =>
    left
    unfold step at hmem
    dsimp only at hmem
    split at hmem
    · rwa [enter_pending] at hmem
    · exact hmem
  | exit => exact .inl hmem

theorem run_sound_all (l : Layout) (is : List (Input V A)) : Sound l ((machine l).run is) :=
  (machine l).run_invariant init_sound (fun _ i hs => step_sound hs i) is

/-- No callback sees or touches what is another's. -/
structure Isolated (l : Layout) (s : State V A) : Prop where
  /-- A callback scheduled without a context is promised what is current. -/
  scheduled : ∃ h : Handle V A, (schedule l s).pending = s.pending ++ [h] ∧ h.given = false ∧
    h.wanted = s.currentContent ∧ h.lineage = s.lineage
  /-- No step changes what a pending callback was promised. -/
  kept : ∀ (i : Input V A), ∀ h ∈ (step l s i).pending,
    h ∈ s.pending ∨ h.given = true ∨ h.wanted = s.currentContent ∧ h.lineage = s.lineage
  /-- It runs with exactly that, in a context that is nobody else's: not the program's, not one of a
      callback that still runs, not a pending one's. -/
  dispatched : ∀ i h, s.running = none → s.pending[i]? = some h → h.given = false →
    ∃ frame, (dispatch l i s).entered = frame :: s.entered ∧
      (dispatch l i s).content frame.ctx = h.wanted ∧ frame.callback = s.nextCallback ∧
      frame.lineage = insert s.nextCallback h.lineage ∧ frame.ctx ∉ s.entered.map Frame.ctx ∧
      frame.ctx ∉ s.held ∧ ∀ other ∈ (dispatch l i s).pending, other.context ≠ frame.ctx
  /-- No step changes a context in use but the one that the code taking the step is in. -/
  untouched : ∀ (i : Input V A), ∀ c ∈ s.refs, s.current ≠ some c →
    (step l s i).content c = s.content c
  /-- Code sees what it set itself, and what those set that led to it. -/
  visible : ∀ frame ∈ s.entered, ∀ v x w,
    (s.content frame.ctx).lookup v = some (x, w) → w ∈ frame.lineage
  /-- The same for a callback that is yet to run. -/
  promised : ∀ h ∈ s.pending, h.given = false → ∀ v x w,
    h.wanted.lookup v = some (x, w) → w ∈ h.lineage

/-- In every run, for every answer of the layout checks. -/
theorem contexts_isolated (l : Layout) (is : List (Input V A)) :
    Isolated l ((machine l).run is) := by
  have hs := run_sound_all l is
  constructor
  · have hgot := capture_captured hs
    refine ⟨_, by rw [schedule, hgot.pending], rfl, rfl, rfl⟩
  · intro i h hmem
    exact step_promised hs i hmem
  · intro i h hrunning hi
    exact (dispatch_dispatched hs hrunning hi).enters
  · intro i c hc hcurrent
    exact step_kept hs i hc hcurrent
  · intro frame hmem v x w hlookup
    exact (hs.frames frame hmem).1 (mem_writers.mpr ⟨v, x, hlookup⟩)
  · intro h hmem hgiven v x w hlookup
    exact hs.origin h hmem hgiven (mem_writers.mpr ⟨v, x, hlookup⟩)

end Cadeloop.Pyshim.CtxSnap
