import Cadeloop.Reasoning.Fleet
import Cadeloop.Server.Supervisor

/-!
# A slot has one worker, and none is left behind

The supervisor's dict holds exactly the workers it has not waited for, no two of them in one slot.
At the end it is empty, and no worker was killed that had not been told to stop.
-/

namespace Cadeloop.Server.Supervisor

open Cadeloop.Reasoning (Machine)
open Cadeloop.Reasoning.Fleet

/-! ## 1. What is true between two steps -/

/-- The slots still to be forked, or about to be. -/
def Phase.Reserves : Phase → Nat → Prop
  | .starting k, i | .forking k true, i => k ≤ i
  | .forking k false, i | .died k _ _ _ _, i => i = k
  | _, _ => False

def Phase.slot : Phase → Option Nat
  | .forking k _ | .died k _ _ _ _ => some k
  | _ => none

/-- `_stop_children` is past its SIGTERMs. -/
def Phase.stops : Phase → Bool
  | .draining _ | .killing | .returned => true
  | _ => false

structure State.Sound (n : Nat) (s : State) : Prop where
  entry : ∀ c ∈ s.children, ∃ p, s.procs[c.pid]? = some p ∧ p.idx = c.idx ∧ p.closes = 0
  forgotten : ∀ pid p, s.procs[pid]? = some p → pid ∉ s.children.map Child.pid →
    p.life = .gone ∧ p.closes = 1
  pids : (s.children.map Child.pid).Nodup
  slots : (s.children.map Child.idx).Nodup
  free : ∀ c ∈ s.children, ¬s.phase.Reserves c.idx
  slot : ∀ p ∈ s.procs, p.idx < n
  next : ∀ k, s.phase.slot = some k → k < n
  told : s.phase.stops = true → ∀ c ∈ s.children, ∀ p, s.procs[c.pid]? = some p →
    p.life = .gone ∨ p.told = true
  killed : ∀ p ∈ s.procs, p.killed = true → p.told = true
  done : s.phase = .returned → s.children = []

/-- What a worker's record keeps while the supervisor does not wait for it. -/
structure Proc.Keeps (p p' : Proc) : Prop where
  idx : p'.idx = p.idx
  closes : p'.closes = p.closes
  gone : p.life = .gone → p'.life = .gone
  told : p.told = true → p'.told = true
  killed : p'.killed = true → p.killed = true ∨ p.told = true

theorem Proc.Keeps.refl (p : Proc) : p.Keeps p := ⟨rfl, rfl, id, id, .inl⟩

theorem Proc.tell_keeps (p : Proc) : p.Keeps p.tell := by
  unfold Proc.tell
  split
  · exact .refl p
  · exact ⟨rfl, rfl, id, fun _ => rfl, .inl⟩

theorem Proc.kill_keeps {p : Proc} (h : p.life = .gone ∨ p.told = true) : p.Keeps p.kill := by
  unfold Proc.kill
  split
  · exact .refl p
  · rename_i hlive
    exact ⟨rfl, rfl, id, id, fun _ => .inr (h.resolve_left hlive)⟩

theorem Proc.serve_keeps (p : Proc) : p.Keeps p.serve := by
  unfold Proc.serve
  split
  · exact ⟨rfl, rfl, id, id, .inl⟩
  · exact .refl p

theorem Proc.exits_keeps (clean stopped : Bool) (p : Proc) : p.Keeps (p.exits clean stopped) := by
  unfold Proc.exits
  split
  · rename_i hrunning
    refine ⟨rfl, rfl, fun hgone => ?_, id, .inl⟩
    rw [hrunning] at hgone
    cases hgone
  · exact .refl p

theorem Proc.steal_keeps (p : Proc) : p.Keeps p.steal := by
  unfold Proc.steal
  split
  · exact .refl p
  · exact ⟨rfl, rfl, fun _ => rfl, id, .inl⟩

namespace State.Sound

variable {n : Nat} {s s' : State}

/-- Signals and deaths. -/
theorem update (h : s.Sound n) {f : Pid → Proc → Proc}
    (hprocs : ∀ pid, s'.procs[pid]? = (s.procs[pid]?).map (f pid))
    (hkeeps : ∀ pid p, s.procs[pid]? = some p → Proc.Keeps p (f pid p))
    (hchildren : s'.children = s.children) (hphase : s'.phase = s.phase) : s'.Sound n := by
  have hback : ∀ {pid : Nat} {p' : Proc}, s'.procs[pid]? = some p' →
      ∃ p, s.procs[pid]? = some p ∧ Proc.Keeps p p' := by
    intro pid p' hp'
    rw [hprocs, Option.map_eq_some_iff] at hp'
    obtain ⟨p, hp, rfl⟩ := hp'
    exact ⟨p, hp, hkeeps pid p hp⟩
  refine ⟨?_, ?_, ?_, ?_, ?_, ?_, ?_, ?_, ?_, ?_⟩
  · rw [hchildren]
    intro c hc
    obtain ⟨p, hp, hidx, hcloses⟩ := h.entry c hc
    have hkept := hkeeps c.pid p hp
    refine ⟨f c.pid p, ?_, hkept.idx.trans hidx, hkept.closes.trans hcloses⟩
    rw [hprocs, hp, Option.map_some]
  · rw [hchildren]
    intro pid p' hp' hpid
    obtain ⟨p, hp, hkept⟩ := hback hp'
    obtain ⟨hgone, hcloses⟩ := h.forgotten pid p hp hpid
    exact ⟨hkept.gone hgone, hkept.closes.trans hcloses⟩
  · rw [hchildren]
    exact h.pids
  · rw [hchildren]
    exact h.slots
  · rw [hchildren, hphase]
    exact h.free
  · intro p' hp'
    obtain ⟨pid, hpid⟩ := List.mem_iff_getElem?.mp hp'
    obtain ⟨p, hp, hkept⟩ := hback hpid
    rw [hkept.idx]
    exact h.slot p (List.mem_of_getElem? hp)
  · rw [hphase]
    exact h.next
  · rw [hchildren, hphase]
    intro hstops c hc p' hp'
    obtain ⟨p, hp, hkept⟩ := hback hp'
    exact (h.told hstops c hc p hp).imp hkept.gone hkept.told
  · intro p' hp' hkilled
    obtain ⟨pid, hpid⟩ := List.mem_iff_getElem?.mp hp'
    obtain ⟨p, hp, hkept⟩ := hback hpid
    apply hkept.told
    rcases hkept.killed hkilled with hold | htold
    · exact h.killed p (List.mem_of_getElem? hp) hold
    · exact htold
  · rw [hchildren, hphase]
    exact h.done

/-- The supervisor goes on, its workers as they were. -/
theorem goOn (h : s.Sound n) (hprocs : s'.procs = s.procs) (hchildren : s'.children = s.children)
    (hfree : ∀ c ∈ s.children, ¬s'.phase.Reserves c.idx) (hnext : ∀ k, s'.phase.slot = some k → k < n)
    (hstops : s'.phase.stops = true → ∀ c ∈ s.children, ∀ p, s.procs[c.pid]? = some p →
      p.life = .gone ∨ p.told = true)
    (hdone : s'.phase = .returned → s.children = []) : s'.Sound n := by
  refine ⟨?_, ?_, ?_, ?_, ?_, ?_, hnext, ?_, ?_, ?_⟩
  · rw [hprocs, hchildren]
    exact h.entry
  · rw [hprocs, hchildren]
    exact h.forgotten
  · rw [hchildren]
    exact h.pids
  · rw [hchildren]
    exact h.slots
  · rw [hchildren]
    exact hfree
  · rw [hprocs]
    exact h.slot
  · rw [hprocs, hchildren]
    exact hstops
  · rw [hprocs]
    exact h.killed
  · rw [hchildren]
    exact hdone

theorem modify (h : s.Sound n) {pid : Pid} {f : Proc → Proc}
    (hkeeps : ∀ p, s.procs[pid]? = some p → p.Keeps (f p)) :
    ({ s with procs := s.procs.modify pid f } : State).Sound n := by
  refine h.update (f := fun i p => if pid = i then f p else p) (fun i => ?_) (fun i p hp => ?_) rfl rfl
  · show (s.procs.modify pid f)[i]? = _
    rw [List.getElem?_modify]
    rfl
  · show p.Keeps (if pid = i then f p else p)
    split
    · rename_i hpid
      subst hpid
      exact hkeeps p hp
    · exact .refl p

theorem tellChildren (h : s.Sound n) : s.tellChildren.Sound n := by
  refine h.update (fun i => List.getElem?_mapIdx) (fun i p _ => ?_) rfl rfl
  show p.Keeps (if _ then p.tell else p)
  split
  · exact p.tell_keeps
  · exact .refl p

theorem forward (h : s.Sound n) (int : Bool) : (s.forward int).Sound n := by
  have hflags : ({ s with force := s.force || (s.stopping && int), stopping := true } : State).Sound n :=
    h.goOn rfl rfl h.free h.next h.told h.done
  exact hflags.tellChildren

/-- After the SIGTERMs every worker was told, unless it is gone. -/
theorem told_tellChildren (s : State) : ∀ c ∈ s.tellChildren.children, ∀ p,
    s.tellChildren.procs[c.pid]? = some p → p.life = .gone ∨ p.told = true := by
  intro c hc p hp
  have hc : c ∈ s.children := hc
  rw [State.tellChildren, List.getElem?_mapIdx, Option.map_eq_some_iff] at hp
  obtain ⟨q, -, rfl⟩ := hp
  rw [if_pos (List.mem_map_of_mem hc)]
  unfold Proc.tell
  split
  · exact .inl ‹_›
  · exact .inr rfl

/-- A worker waited for. -/
theorem forget (h : s.Sound n) {c : Child} (hc : c ∈ s.children) : (s.forget c).Sound n := by
  have hold : ∀ {pid}, pid ≠ c.pid → (s.forget c).procs[pid]? = s.procs[pid]? := by
    intro pid hne
    exact List.getElem?_modify_ne Proc.forget s.procs hne.symm
  have hchildren : ∀ {c'}, c' ∈ (s.forget c).children → c' ∈ s.children ∧ c'.pid ≠ c.pid := by
    intro c' hc'
    obtain ⟨hmem, hne⟩ := List.mem_filter.mp hc'
    exact ⟨hmem, of_decide_eq_true hne⟩
  have hsub : (s.forget c).children.Sublist s.children := List.filter_sublist
  have hback : ∀ p' ∈ (s.forget c).procs, ∃ p ∈ s.procs, p' = p ∨ p' = p.forget := by
    intro p' hp'
    obtain ⟨pid, hpid⟩ := List.mem_iff_getElem?.mp hp'
    rw [State.forget, List.getElem?_modify] at hpid
    obtain ⟨p, hp, hp'⟩ := Option.map_eq_some_iff.mp hpid
    refine ⟨p, List.mem_of_getElem? hp, ?_⟩
    split at hp'
    · exact .inr hp'.symm
    · exact .inl hp'.symm
  refine ⟨fun c' hc' => ?_, fun pid p hp hpid => ?_, h.pids.sublist (hsub.map _),
    h.slots.sublist (hsub.map _), fun c' hc' => h.free c' (hchildren hc').1, fun p' hp' => ?_, h.next,
    fun hstops c' hc' p hp => ?_, fun p' hp' => ?_, fun hdone => ?_⟩
  · obtain ⟨hmem, hne⟩ := hchildren hc'
    rw [hold hne]
    exact h.entry c' hmem
  · by_cases hsame : pid = c.pid
    · obtain ⟨q, hq, -, hcloses⟩ := h.entry c hc
      rw [hsame, State.forget, List.getElem?_modify_eq, hq] at hp
      injection hp with hp
      subst hp
      exact ⟨rfl, congrArg (· + 1) hcloses⟩
    · rw [hold hsame] at hp
      refine h.forgotten pid p hp fun hmem => hpid ?_
      obtain ⟨c', hc', rfl⟩ := List.mem_map.mp hmem
      exact List.mem_map_of_mem (List.mem_filter.mpr ⟨hc', decide_eq_true hsame⟩)
  · obtain ⟨p, hp, rfl | rfl⟩ := hback p' hp'
    · exact h.slot _ hp
    · exact h.slot p hp
  · obtain ⟨hmem, hne⟩ := hchildren hc'
    rw [hold hne] at hp
    exact h.told hstops c' hmem p hp
  · obtain ⟨p, hp, rfl | rfl⟩ := hback p' hp'
    · exact h.killed _ hp
    · exact h.killed p hp
  · rw [h.done hdone] at hc
    cases hc

/-- Its slot is free. -/
theorem forget_free (h : s.Sound n) {c c' : Child} (hc : c ∈ s.children)
    (hc' : c' ∈ (s.forget c).children) : c'.idx ≠ c.idx := by
  obtain ⟨hmem, hne⟩ := List.mem_filter.mp hc'
  intro hidx
  rw [List.inj_on_of_nodup_map h.slots hmem hc hidx] at hne
  exact absurd rfl (of_decide_eq_true hne)

theorem reap_mem {c : Child} {p : Proc} (h : s.reap = some (c, p)) :
    c ∈ s.children ∧ s.procs[c.pid]? = some p ∧ p.life ≠ .running := by
  obtain ⟨c', hc', hfound⟩ := List.exists_of_findSome?_eq_some h
  obtain ⟨p', hp', hfound⟩ := Option.bind_eq_some_iff.mp hfound
  split at hfound
  · cases hfound
  · rename_i hexited
    injection hfound with hfound
    injection hfound with hc hp
    subst hc hp
    exact ⟨hc', hp', hexited⟩

/-- A worker forked for a free slot. -/
theorem spawn (h : s.Sound n) {idx : Nat} {phase : Phase} (hidx : idx < n)
    (hfree : ∀ c ∈ s.children, c.idx ≠ idx) (hslot : phase.slot = none) (hstops : phase.stops = false)
    (hreserves : ∀ i, phase.Reserves i → s.phase.Reserves i ∧ i ≠ idx) :
    ({ s.spawn idx with phase } : State).Sound n := by
  have hfresh : ∀ c ∈ s.children, c.pid ≠ s.procs.length := by
    intro c hc
    obtain ⟨p, hp, -⟩ := h.entry c hc
    exact Nat.ne_of_lt (List.getElem?_eq_some_iff.mp hp).1
  have hold : ∀ {pid : Nat} {p : Proc}, s.procs[pid]? = some p →
      (s.procs ++ [Proc.new idx])[pid]? = some p := by
    intro pid p hp
    rw [List.getElem?_append_left (List.getElem?_eq_some_iff.mp hp).1]
    exact hp
  have hback : ∀ {pid : Nat} {p : Proc}, (s.procs ++ [Proc.new idx])[pid]? = some p →
      s.procs[pid]? = some p ∨ pid = s.procs.length := by
    intro pid p hp
    rw [List.getElem?_append] at hp
    split at hp
    · exact .inl hp
    · have hpid := (List.getElem?_eq_some_iff.mp hp).1
      rw [List.length_singleton] at hpid
      exact .inr (by omega)
  refine ⟨forall_concat (fun c hc => ?_) ?_, fun pid p hp hpid => ?_, ?_, ?_,
    forall_concat (fun c hc => ?_) ?_, forall_concat h.slot hidx, fun k hk => ?_, fun hs => ?_,
    forall_concat h.killed fun hkilled => ?_, fun hdone => ?_⟩
  · obtain ⟨p, hp, hentry⟩ := h.entry c hc
    exact ⟨p, hold hp, hentry⟩
  · exact ⟨.new idx, List.getElem?_concat_length, rfl, rfl⟩
  · have hpid : pid ∉ (s.children ++ [Child.mk s.procs.length idx s.clock]).map Child.pid := hpid
    rw [List.map_append, List.mem_append, not_or] at hpid
    rcases hback hp with hp | rfl
    · exact h.forgotten pid p hp hpid.1
    · exact absurd (List.mem_singleton_self _) hpid.2
  · show ((s.children ++ [Child.mk s.procs.length idx s.clock]).map Child.pid).Nodup
    rw [List.map_append, List.nodup_append]
    refine ⟨h.pids, List.nodup_singleton _, fun pid hpid pid' hpid' => ?_⟩
    obtain ⟨c, hc, rfl⟩ := List.mem_map.mp hpid
    rw [List.mem_singleton.mp hpid']
    exact hfresh c hc
  · show ((s.children ++ [Child.mk s.procs.length idx s.clock]).map Child.idx).Nodup
    rw [List.map_append, List.nodup_append]
    refine ⟨h.slots, List.nodup_singleton _, fun i hi i' hi' => ?_⟩
    obtain ⟨c, hc, rfl⟩ := List.mem_map.mp hi
    rw [List.mem_singleton.mp hi']
    exact hfree c hc
  · exact fun hreserved => h.free c hc (hreserves c.idx hreserved).1
  · exact fun hreserved => (hreserves idx hreserved).2 rfl
  · rw [hslot] at hk
    cases hk
  · rw [hstops] at hs
    cases hs
  · cases hkilled
  · have hdone : phase = .returned := hdone
    rw [hdone] at hstops
    cases hstops

/-! ## 2. The supervisor's steps -/

theorem start (h : s.Sound n) {idx : Nat} (hphase : s.phase = .starting idx) :
    (s.start n idx).Sound n := by
  have hfree : ∀ c ∈ s.children, ¬idx ≤ c.idx := by
    intro c hc
    have hc := h.free c hc
    rw [hphase] at hc
    exact hc
  unfold State.start
  split
  · rename_i hgo
    refine h.goOn rfl rfl hfree (fun k hk => ?_) (fun hs => by cases hs)
      fun hd => by cases hd
    injection hk with hk
    exact hk ▸ hgo.1
  · exact h.goOn rfl rfl (fun _ _ => id) (fun _ hk => by cases hk) (fun hs => by cases hs)
      fun hd => by cases hd

theorem fork (h : s.Sound n) {idx : Nat} {startup : Bool} (ok : Bool)
    (hphase : s.phase = .forking idx startup) : (s.fork idx startup ok).Sound n := by
  have hidx : idx < n := h.next idx (by rw [hphase]; rfl)
  unfold State.fork
  split
  · cases startup with
    | true =>
      have hfree : ∀ c ∈ s.children, ¬idx ≤ c.idx := by
        intro c hc
        have hc := h.free c hc
        rw [hphase] at hc
        exact hc
      refine h.spawn hidx (fun c hc heq => hfree c hc heq.ge) rfl rfl fun i hi => ?_
      rw [hphase]
      exact ⟨Nat.le_of_succ_le hi, Nat.ne_of_gt hi⟩
    | false =>
      refine h.spawn hidx (fun c hc heq => ?_) rfl rfl fun i hi => hi.elim
      have hc := h.free c hc
      rw [hphase] at hc
      exact hc heq
  · exact h.goOn rfl rfl (fun _ _ => id) (fun _ hk => by cases hk) (fun hs => by cases hs)
      fun hd => by cases hd

theorem watch (h : s.Sound n) : s.watch.Sound n := by
  unfold State.watch
  split
  · exact h.goOn rfl rfl (fun _ _ => id) (fun _ hk => by cases hk) (fun hs => by cases hs)
      fun hd => by cases hd
  · cases hreap : s.reap with
    | none => exact h
    | some r =>
      obtain ⟨c, p⟩ := r
      obtain ⟨hc, hp, -⟩ := reap_mem hreap
      refine (h.forget hc).goOn rfl rfl (fun c' hc' => h.forget_free hc hc') (fun k hk => ?_)
        (fun hs => by cases hs) fun hd => by cases hd
      obtain ⟨q, hq, hidx, -⟩ := h.entry c hc
      injection hk with hk
      rw [← hk, ← hidx]
      exact h.slot q (List.mem_of_getElem? hq)

theorem answer (h : s.Sound n) {idx spawned : Nat} {clean becameReady appStopped : Bool}
    (hphase : s.phase = .died idx spawned clean becameReady appStopped) :
    (s.answer idx spawned clean becameReady appStopped).Sound n := by
  have hidx : idx < n := h.next idx (by rw [hphase]; rfl)
  have hfree : ∀ c ∈ s.children, c.idx ≠ idx := by
    intro c hc
    have hc := h.free c hc
    rw [hphase] at hc
    exact hc
  -- back to watching, or on to a fork for the free slot
  have hwatching : ∀ s' : State, s'.procs = s.procs → s'.children = s.children →
      s'.phase = .watching → s'.Sound n := by
    intro s' hprocs hchildren hwatching
    refine h.goOn hprocs hchildren ?_ ?_ ?_ ?_
    · rw [hwatching]
      exact fun _ _ => id
    · rw [hwatching]
      exact fun _ hk => by cases hk
    · rw [hwatching]
      exact fun hs => by cases hs
    · rw [hwatching]
      exact fun hd => by cases hd
  have hforking : ∀ s' : State, s'.procs = s.procs → s'.children = s.children →
      s'.phase = .forking idx false → s'.Sound n := by
    intro s' hprocs hchildren hforking
    refine h.goOn hprocs hchildren ?_ ?_ ?_ ?_
    · rw [hforking]
      exact hfree
    · rw [hforking]
      intro k hk
      injection hk with hk
      exact hk ▸ hidx
    · rw [hforking]
      exact fun hs => by cases hs
    · rw [hforking]
      exact fun hd => by cases hd
  have hforward : ∀ s' : State, s'.procs = s.procs → s'.children = s.children →
      s'.phase = .watching → (s'.forward false).Sound n :=
    fun s' hprocs hchildren hphase => (hwatching s' hprocs hchildren hphase).forward false
  unfold State.answer
  split
  · exact hwatching _ rfl rfl rfl
  · split
    · split
      · exact hforward _ rfl rfl rfl
      · exact hforking _ rfl rfl rfl
    · unfold State.crash
      dsimp only
      split
      · exact hforward _ rfl rfl rfl
      · exact hforking _ rfl rfl rfl

theorem stopping (h : s.Sound n) (deadline : Nat) :
    ({ s with phase := .draining deadline } : State).tellChildren.Sound n :=
  h.tellChildren.goOn rfl rfl (fun _ _ => id) (fun _ hk => by cases hk)
    (fun _ => told_tellChildren s) fun hd => by cases hd

theorem drain (h : s.Sound n) {deadline : Nat} (hphase : s.phase = .draining deadline) :
    (s.drain deadline).Sound n := by
  have hstops : s.phase.stops = true := by
    rw [hphase]
    rfl
  unfold State.drain
  split
  · cases hreap : s.reap with
    | none => exact h
    | some r =>
      obtain ⟨c, p⟩ := r
      exact h.forget (reap_mem hreap).1
  · exact h.goOn rfl rfl (fun _ _ => id) (fun _ hk => by cases hk) (fun _ => h.told hstops)
      fun hd => by cases hd

theorem killNext (h : s.Sound n) (hphase : s.phase = .killing) : s.killNext.Sound n := by
  have hstops : s.phase.stops = true := by
    rw [hphase]
    rfl
  unfold State.killNext
  split
  · exact h.goOn rfl rfl (fun _ _ => id) (fun _ hk => by cases hk) (fun _ => h.told hstops)
      fun _ => ‹_›
  · rename_i c rest hchildren
    have hc : c ∈ s.children := by
      rw [hchildren]
      exact List.mem_cons_self
    have hkilled : ({ s with procs := s.procs.modify c.pid Proc.kill } : State).Sound n :=
      h.modify fun p hp => Proc.kill_keeps (h.told hstops c hc p hp)
    exact hkilled.forget hc

theorem go (h : s.Sound n) (grace : Nat) (forked : Bool) : (s.go n grace forked).Sound n := by
  unfold State.go
  split
  · exact h.start ‹_›
  · exact h.fork forked ‹_›
  · exact h.watch
  · exact h.answer ‹_›
  · exact h.stopping _
  · exact h.drain ‹_›
  · exact h.killNext ‹_›
  · exact h

theorem step (h : s.Sound n) (grace : Nat) (event : Event) : (s.step n grace event).Sound n := by
  cases event with
  | go forked => exact h.go grace forked
  | tick ms => exact h.goOn rfl rfl h.free h.next h.told h.done
  | signal int =>
    dsimp only [State.step]
    split
    · exact h
    · exact h.forward int
  | ready pid => exact h.modify fun p _ => p.serve_keeps
  | exits pid clean stopped => exact h.modify fun p _ => p.exits_keeps clean stopped
  | stolen pid => exact h.modify fun p _ => p.steal_keeps

end State.Sound

theorem State.new_sound (n : Nat) : State.new.Sound n where
  entry _ hc := absurd hc List.not_mem_nil
  forgotten _ _ hp := by cases hp
  pids := List.nodup_nil
  slots := List.nodup_nil
  free _ hc := absurd hc List.not_mem_nil
  slot _ hp := absurd hp List.not_mem_nil
  next _ hk := by cases hk
  told hs := by cases hs
  killed _ hp := absurd hp List.not_mem_nil
  done hd := by cases hd

theorem serveMulti_sound (n grace : Nat) (events : List Event) :
    ((serveMulti n grace).run events).Sound n :=
  (serveMulti n grace).run_invariant (State.new_sound n) (fun _ event h => h.step grace event) events

/-! ## 3. Every run -/

/-- Whatever dies, is signalled or fails to fork, and in whatever order: every worker is in a slot of
the pool, and no slot has two that were not waited for. -/
theorem one_worker_a_slot (n grace : Nat) (events : List Event) :
    (∀ p ∈ ((serveMulti n grace).run events).procs, p.idx < n) ∧
    ∀ (i j : Pid) (p q : Proc), ((serveMulti n grace).run events).procs[i]? = some p →
      ((serveMulti n grace).run events).procs[j]? = some q → p.life ≠ .gone → q.life ≠ .gone →
      p.idx = q.idx → i = j := by
  have h := serveMulti_sound n grace events
  refine ⟨h.slot, fun i j p q hp hq hpl hql hidx => ?_⟩
  have hentry : ∀ (k : Pid) (r : Proc), ((serveMulti n grace).run events).procs[k]? = some r →
      r.life ≠ .gone →
      ∃ c ∈ ((serveMulti n grace).run events).children, c.pid = k ∧ c.idx = r.idx := by
    intro k r hr hlive
    have hmem : k ∈ ((serveMulti n grace).run events).children.map Child.pid := by
      by_contra hout
      exact hlive (h.forgotten k r hr hout).1
    obtain ⟨c, hc, rfl⟩ := List.mem_map.mp hmem
    obtain ⟨r', hr', hcidx, -⟩ := h.entry c hc
    rw [hr] at hr'
    injection hr' with hr'
    exact ⟨c, hc, rfl, hr' ▸ hcidx.symm⟩
  obtain ⟨c, hc, rfl, hcp⟩ := hentry i p hp hpl
  obtain ⟨d, hd, rfl, hdq⟩ := hentry j q hq hql
  have hsame : c.idx = d.idx := by rw [hcp, hdq, hidx]
  exact congrArg Child.pid (List.inj_on_of_nodup_map h.slots hc hd hsame)

/-- When the supervisor returns, every worker it ever forked is waited for and its pipe was closed
once, and none was killed that had not been told to stop before. -/
theorem none_left_behind (n grace : Nat) (events : List Event)
    (hdone : ((serveMulti n grace).run events).phase = .returned) :
    ∀ p ∈ ((serveMulti n grace).run events).procs,
      p.life = .gone ∧ p.closes = 1 ∧ (p.killed = true → p.told = true) := by
  have h := serveMulti_sound n grace events
  intro p hp
  obtain ⟨pid, hpid⟩ := List.mem_iff_getElem?.mp hp
  have hout : pid ∉ ((serveMulti n grace).run events).children.map Child.pid := by
    rw [h.done hdone]
    exact List.not_mem_nil
  obtain ⟨hgone, hcloses⟩ := h.forgotten pid p hpid hout
  exact ⟨hgone, hcloses, h.killed p hp⟩

/-- A worker of two dies and is replaced; the stop comes while its replacement is forked, and one of
the two does not stop within the grace. -/
def stoppedLate : List Event :=
  [.go true, .go true, .go true, .go true, .go true, .ready 0, .ready 1, .exits 0 false false,
    .go true, .go true, .signal false, .go true, .go true, .go true, .exits 1 true false, .go true,
    .tick 30, .go true, .go true, .go true]

theorem none_left_behind_late : ((serveMulti 2 30).run stoppedLate).procs.length = 3 ∧
    ∀ p ∈ ((serveMulti 2 30).run stoppedLate).procs,
      p.life = .gone ∧ p.closes = 1 ∧ (p.killed = true → p.told = true) :=
  ⟨by decide +kernel, none_left_behind 2 30 stoppedLate (by rfl)⟩

end Cadeloop.Server.Supervisor
