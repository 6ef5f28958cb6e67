import Cadeloop.Server.SupervisorRuns
import Mathlib.Algebra.BigOperators.Group.Finset.Basic

/-!
# When the supervisor gives up

A slot's streak is what its last deaths make of it: five in a row, the last four of workers that
never served or died at once, end the pool.  Workers that never serve are not forked without end.
-/

namespace Cadeloop.Server.Supervisor

open Cadeloop.Reasoning (Machine)
open Cadeloop.Reasoning.Fleet

/-! ## 1. A streak as a count of deaths -/

/-- Never served, or died at once. -/
def Crash.early (d : Crash) : Bool := !d.becameReady || d.uptime < crashFast

/-- The first death counts whatever it was, and so does a late one: each starts the count anew. -/
def streakOf : List Crash → Nat
  | [] => 0
  | _ :: later => (later.reverse.takeWhile Crash.early).length + 1

/-- Five deaths in a row, the last four of them early. -/
def Looping (deaths : List Crash) : Prop :=
  crashStreakLimit ≤ deaths.length ∧ ∀ d ∈ deaths.reverse.take 4, d.early = true

theorem le_length_takeWhile {α : Type*} {p : α → Bool} {k : Nat} {l : List α} :
    k ≤ (l.takeWhile p).length ↔ k ≤ l.length ∧ ∀ a ∈ l.take k, p a = true := by
  induction l generalizing k with
  | nil => simp
  | cons a l ih =>
    cases k with
    | zero => simp
    | succ k =>
      rw [List.takeWhile_cons, List.take_succ_cons, List.forall_mem_cons, List.length_cons]
      split
      · rename_i ha
        rw [List.length_cons, Nat.add_le_add_iff_right, Nat.add_le_add_iff_right, ih]
        exact ⟨fun ⟨hlen, hall⟩ => ⟨hlen, ha, hall⟩, fun ⟨hlen, _, hall⟩ => ⟨hlen, hall⟩⟩
      · rename_i ha
        exact ⟨fun hle => absurd hle (Nat.not_succ_le_zero k), fun ⟨_, hhead, _⟩ => absurd hhead ha⟩

theorem streakOf_concat (deaths : List Crash) (d : Crash) :
    streakOf (deaths ++ [d]) =
      crashStreakNext (streakOf deaths) (some d.becameReady) d.uptime := by
  have hnext : crashStreakNext (streakOf deaths) (some d.becameReady) d.uptime =
      if d.early then streakOf deaths + 1 else 1 := by
    unfold crashStreakNext Crash.early
    cases d.becameReady with
    | false => rfl
    | true =>
      by_cases hstable : crashFast ≤ d.uptime
      · simp [hstable, Nat.not_lt.mpr hstable]
      · simp [hstable, Nat.lt_of_not_le hstable]
  rw [hnext]
  cases deaths with
  | nil =>
    show 1 = if d.early then 1 else 1
    rw [ite_self]
  | cons first later =>
    show ((later ++ [d]).reverse.takeWhile Crash.early).length + 1 = _
    rw [List.reverse_append, List.reverse_singleton, List.singleton_append, List.takeWhile_cons]
    split
    · rfl
    · rfl

theorem looping_iff (deaths : List Crash) : crashStreakLimit ≤ streakOf deaths ↔ Looping deaths := by
  cases deaths with
  | nil => exact ⟨fun h => absurd h (by decide), fun h => absurd h.1 (by decide)⟩
  | cons first later =>
    have hlast : 4 ≤ later.length → (first :: later).reverse.take 4 = later.reverse.take 4 := by
      intro hlen
      rw [List.reverse_cons, List.take_append_of_le_length]
      rw [List.length_reverse]
      exact hlen
    show 4 + 1 ≤ _ + 1 ↔ 4 + 1 ≤ later.length + 1 ∧ _
    rw [Nat.add_le_add_iff_right, Nat.add_le_add_iff_right, le_length_takeWhile, List.length_reverse]
    refine ⟨fun ⟨hlen, hall⟩ => ⟨hlen, ?_⟩, fun ⟨hlen, hall⟩ => ⟨hlen, ?_⟩⟩
    · rw [hlast hlen]
      exact hall
    · rw [← hlast hlen]
      exact hall

/-! ## 2. Every run gives up when a slot loops -/

/-- The deaths of a slot. -/
def State.deaths (idx : Nat) (s : State) : List Crash := s.crashes.filter (·.idx = idx)

structure State.Counted (s : State) : Prop where
  streak : ∀ idx, s.streaks idx = streakOf (s.deaths idx)
  exit : s.exitCode = 1 ↔ ∃ idx, crashStreakLimit ≤ s.streaks idx
  spent : (∃ idx, crashStreakLimit ≤ s.streaks idx) → s.stopping = true

/-- A step that counts no death. -/
structure Quiet (s s' : State) : Prop where
  streaks : s'.streaks = s.streaks
  crashes : s'.crashes = s.crashes
  exitCode : s'.exitCode = s.exitCode
  stopping : s.stopping = true → s'.stopping = true

theorem Quiet.refl (s : State) : Quiet s s := ⟨rfl, rfl, rfl, id⟩

variable {n grace : Nat} {s s' : State}

theorem start_quiet (n idx : Nat) (s : State) : Quiet s (s.start n idx) := by
  unfold State.start
  split
  · exact ⟨rfl, rfl, rfl, id⟩
  · exact ⟨rfl, rfl, rfl, id⟩

theorem fork_quiet (idx : Nat) (startup ok : Bool) (s : State) : Quiet s (s.fork idx startup ok) := by
  unfold State.fork
  split
  · exact ⟨rfl, rfl, rfl, id⟩
  · exact ⟨rfl, rfl, rfl, id⟩

theorem watch_quiet (s : State) : Quiet s s.watch := by
  unfold State.watch
  split
  · exact ⟨rfl, rfl, rfl, id⟩
  · split
    · exact .refl s
    · exact ⟨rfl, rfl, rfl, id⟩

theorem drain_quiet (deadline : Nat) (s : State) : Quiet s (s.drain deadline) := by
  unfold State.drain
  split
  · split
    · exact .refl s
    · exact ⟨rfl, rfl, rfl, id⟩
  · exact ⟨rfl, rfl, rfl, id⟩

theorem killNext_quiet (s : State) : Quiet s s.killNext := by
  unfold State.killNext
  split
  · exact ⟨rfl, rfl, rfl, id⟩
  · exact ⟨rfl, rfl, rfl, id⟩

namespace State.Counted

theorem quiet (h : s.Counted) (hquiet : Quiet s s') : s'.Counted := by
  refine ⟨fun idx => ?_, ?_, fun hover => ?_⟩
  · rw [hquiet.streaks, State.deaths, hquiet.crashes]
    exact h.streak idx
  · rw [hquiet.exitCode, hquiet.streaks]
    exact h.exit
  · rw [hquiet.streaks] at hover
    exact hquiet.stopping (h.spent hover)

theorem crash (h : s.Counted) (hrunning : s.stopping = false) (idx spawned : Nat) (becameReady : Bool) :
    (s.crash idx spawned becameReady).Counted := by
  -- no slot had come to the limit
  have hunder : ∀ i, ¬crashStreakLimit ≤ s.streaks i := by
    intro i hi
    have hover := h.spent ⟨i, hi⟩
    rw [hrunning] at hover
    cases hover
  have hzero : s.exitCode ≠ 1 := by
    intro hone
    obtain ⟨i, hi⟩ := h.exit.mp hone
    exact hunder i hi
  generalize hd : Crash.mk idx becameReady (s.clock - spawned) = d
  generalize hstreak : crashStreakNext (s.streaks idx) (some becameReady) (s.clock - spawned) = streak
  have hcount : ∀ i, (if i = idx then streak else s.streaks i) =
      streakOf ((s.crashes ++ [d]).filter (·.idx = i)) := by
    intro i
    rw [List.filter_append]
    split
    · rename_i hi
      rw [List.filter_cons_of_pos (by rw [← hd]; exact decide_eq_true hi.symm), List.filter_nil,
        streakOf_concat, ← State.deaths, ← h.streak, ← hstreak, ← hd, hi]
    · rename_i hi
      rw [List.filter_cons_of_neg (by rw [← hd]; simpa using fun heq => hi heq.symm), List.filter_nil,
        List.append_nil]
      exact h.streak i
  have hlimit : (∃ i, crashStreakLimit ≤ if i = idx then streak else s.streaks i) ↔
      crashStreakLimit ≤ streak := by
    refine ⟨fun ⟨i, hi⟩ => ?_, fun hle => ⟨idx, by rw [if_pos rfl]; exact hle⟩⟩
    split at hi
    · exact hi
    · exact absurd hi (hunder i)
  unfold State.crash
  dsimp only
  rw [hstreak, hd]
  split
  · rename_i hle
    exact ⟨hcount, ⟨fun _ => hlimit.mpr hle, fun _ => rfl⟩, fun _ => rfl⟩
  · rename_i hlt
    exact ⟨hcount, ⟨fun hone => absurd hone hzero, fun hover => absurd (hlimit.mp hover) hlt⟩,
      fun hover => absurd (hlimit.mp hover) hlt⟩

theorem answer (h : s.Counted) (idx spawned : Nat) (clean becameReady appStopped : Bool) :
    (s.answer idx spawned clean becameReady appStopped).Counted := by
  unfold State.answer
  split
  · exact h.quiet ⟨rfl, rfl, rfl, id⟩
  · rename_i hrunning
    split
    · split
      · exact h.quiet ⟨rfl, rfl, rfl, fun _ => rfl⟩
      · exact h.quiet ⟨rfl, rfl, rfl, id⟩
    · exact h.crash (eq_false_of_ne_true hrunning) idx spawned becameReady

theorem step (h : s.Counted) (n grace : Nat) (event : Event) : (s.step n grace event).Counted := by
  cases event with
  | go forked =>
    dsimp only [State.step, State.go]
    split
    · exact h.quiet (start_quiet _ _ s)
    · exact h.quiet (fork_quiet _ _ _ s)
    · exact h.quiet (watch_quiet s)
    · exact h.answer _ _ _ _ _
    · exact h.quiet ⟨rfl, rfl, rfl, id⟩
    · exact h.quiet (drain_quiet _ s)
    · exact h.quiet (killNext_quiet s)
    · exact h
  | tick ms => exact h.quiet ⟨rfl, rfl, rfl, id⟩
  | signal int =>
    dsimp only [State.step]
    split
    · exact h
    · exact h.quiet ⟨rfl, rfl, rfl, fun _ => rfl⟩
  | ready pid | exits pid clean stopped | stolen pid => exact h.quiet ⟨rfl, rfl, rfl, id⟩

end State.Counted

theorem State.new_counted : State.new.Counted where
  streak _ := rfl
  exit := ⟨(fun h => by cases h), fun ⟨_, hi⟩ => absurd hi (Nat.not_succ_le_zero 4)⟩
  spent := fun ⟨_, hi⟩ => absurd hi (Nat.not_succ_le_zero 4)

/-- A worker serves, or stops cleanly by itself alone. -/
def Event.serves : Event → Bool
  | .ready _ => true
  | .exits _ clean stopped => clean && !stopped
  | _ => false

/-- The slots to be forked for, the streak counted. -/
def Phase.Due : Phase → Nat → Prop
  | .starting k, i | .forking k true, i => k ≤ i
  | .forking k false, i => i = k
  | _, _ => False

/-- How often a slot was forked for. -/
def State.forks (idx : Nat) (s : State) : Nat := (s.procs.map Proc.idx).count idx

theorem forks_spawn (s : State) (idx i : Nat) (phase : Phase) :
    State.forks i { s.spawn idx with phase } = s.forks i + if idx = i then 1 else 0 := by
  show ((s.procs ++ [Proc.new idx]).map Proc.idx).count i = _
  rw [List.map_append, List.count_append, List.map_singleton, List.count_singleton]
  simp [State.forks, Proc.new]

/-- No worker served, and a clean exit stops the pool. -/
structure Proc.Barren (p : Proc) : Prop where
  unready : p.ready = false
  clean : p.life = .exited true → p.stopped = true

structure State.Barren (s : State) : Prop where
  procs : ∀ p ∈ s.procs, p.Barren
  died : ∀ idx spawned clean becameReady appStopped,
    s.phase = .died idx spawned clean becameReady appStopped →
      becameReady = false ∧ (clean = true → appStopped = true)
  few : ∀ idx, s.forks idx ≤ crashStreakLimit ∧ s.forks idx ≤ s.streaks idx + 1
  due : ∀ idx, s.phase.Due idx → s.forks idx ≤ s.streaks idx ∧ s.streaks idx < crashStreakLimit

namespace State.Barren

/-- The workers are the same, whatever became of them. -/
theorem goOn (h : s.Barren) (hidx : s'.procs.map Proc.idx = s.procs.map Proc.idx)
    (hprocs : ∀ p ∈ s'.procs, p.Barren) (hstreaks : s'.streaks = s.streaks)
    (hdied : ∀ idx spawned clean becameReady appStopped,
      s'.phase = .died idx spawned clean becameReady appStopped →
        becameReady = false ∧ (clean = true → appStopped = true))
    (hdue : ∀ idx, s'.phase.Due idx → s.phase.Due idx) : s'.Barren := by
  refine ⟨hprocs, hdied, fun idx => ?_, fun idx hd => ?_⟩
  · rw [State.forks, hidx, hstreaks]
    exact h.few idx
  · rw [State.forks, hidx, hstreaks]
    exact h.due idx (hdue idx hd)

theorem update (h : s.Barren) {f : Pid → Proc → Proc}
    (hprocs : ∀ pid : Nat, s'.procs[pid]? = (s.procs[pid]?).map (f pid))
    (hf : ∀ pid p, p.Barren → (f pid p).idx = p.idx ∧ (f pid p).Barren) (hstreaks : s'.streaks = s.streaks)
    (hphase : s'.phase = s.phase) : s'.Barren := by
  refine h.goOn ?_ (fun p' hp' => ?_) hstreaks ?_ ?_
  · apply List.ext_getElem?
    intro i
    rw [List.getElem?_map, List.getElem?_map, hprocs, Option.map_map]
    cases hp : s.procs[i]? with
    | none => rfl
    | some p => exact congrArg some (hf i p (h.procs p (List.mem_of_getElem? hp))).1
  · obtain ⟨pid, hpid⟩ := List.mem_iff_getElem?.mp hp'
    rw [hprocs, Option.map_eq_some_iff] at hpid
    obtain ⟨p, hp, rfl⟩ := hpid
    exact (hf pid p (h.procs p (List.mem_of_getElem? hp))).2
  · rw [hphase]
    exact h.died
  · rw [hphase]
    exact fun _ => id

theorem modify (h : s.Barren) {pid : Pid} {f : Proc → Proc}
    (hf : ∀ p : Proc, p.Barren → (f p).idx = p.idx ∧ (f p).Barren)
    (hprocs : s'.procs = s.procs.modify pid f) (hstreaks : s'.streaks = s.streaks)
    (hphase : s'.phase = s.phase) : s'.Barren := by
  refine h.update (f := fun i p => if pid = i then f p else p) (fun i => ?_) (fun i p hp => ?_)
    hstreaks hphase
  · rw [hprocs, List.getElem?_modify]
    rfl
  · split
    · exact hf p hp
    · exact ⟨rfl, hp⟩

theorem tellChildren (h : s.Barren) : s.tellChildren.Barren := by
  refine h.update (fun i => List.getElem?_mapIdx) (fun i p hp => ?_) rfl rfl
  split
  · unfold Proc.tell
    split
    · exact ⟨rfl, hp⟩
    · exact ⟨rfl, hp.unready, hp.clean⟩
  · exact ⟨rfl, hp⟩

theorem forward (h : s.Barren) (int : Bool) : (s.forward int).Barren := by
  have hflags : ({ s with force := s.force || (s.stopping && int), stopping := true } : State).Barren :=
    h.goOn rfl h.procs rfl h.died fun _ => id
  exact hflags.tellChildren

theorem forget (h : s.Barren) (c : Child) : (s.forget c).Barren :=
  h.modify (f := Proc.forget) (fun _ hp => ⟨rfl, hp.unready, fun hgone => by cases hgone⟩) rfl rfl rfl

theorem phase (h : s.Barren) {phase : Phase}
    (hdied : ∀ idx spawned clean becameReady appStopped,
      phase ≠ .died idx spawned clean becameReady appStopped)
    (hdue : ∀ idx, phase.Due idx → s.phase.Due idx) : ({ s with phase } : State).Barren :=
  h.goOn rfl h.procs rfl (fun _ _ _ _ _ heq => absurd heq (hdied _ _ _ _ _)) hdue

theorem start (h : s.Barren) {idx : Nat} (hphase : s.phase = .starting idx) (n : Nat) :
    (s.start n idx).Barren := by
  unfold State.start
  split
  · refine h.phase (fun _ _ _ _ _ heq => by cases heq) fun i hi => ?_
    rw [hphase]
    exact hi
  · exact h.phase (fun _ _ _ _ _ heq => by cases heq) fun i hi => hi.elim

theorem fork (h : s.Barren) {idx : Nat} {startup : Bool} (ok : Bool)
    (hphase : s.phase = .forking idx startup) : (s.fork idx startup ok).Barren := by
  unfold State.fork
  split
  · have hdue : s.phase.Due idx := by
      rw [hphase]
      cases startup with
      | true => exact Nat.le_refl idx
      | false => exact rfl
    refine ⟨forall_concat h.procs ⟨rfl, fun hgone => by cases hgone⟩, fun _ _ _ _ _ heq => ?_,
      fun i => ?_, fun i hi => ?_⟩
    · cases startup with
      | true => cases heq
      | false => cases heq
    · rw [forks_spawn]
      change _ ≤ _ ∧ _ ≤ s.streaks i + 1
      split
      · rename_i hi
        have hroom := h.due idx hdue
        rw [hi] at hroom
        omega
      · exact h.few i
    · have hlater : s.phase.Due i ∧ idx ≠ i := by
        rw [hphase]
        cases startup with
        | true => exact ⟨Nat.le_of_succ_le hi, Nat.ne_of_lt hi⟩
        | false => exact hi.elim
      rw [forks_spawn, if_neg hlater.2]
      exact h.due i hlater.1
  · exact ⟨h.procs, (fun _ _ _ _ _ heq => by cases heq), h.few, fun i hi => hi.elim⟩

theorem watch (h : s.Barren) : s.watch.Barren := by
  unfold State.watch
  split
  · exact h.phase (fun _ _ _ _ _ heq => by cases heq) fun i hi => hi.elim
  · split
    · exact h
    · rename_i c p hreap
      have hp := h.procs p (List.mem_of_getElem? (Sound.reap_mem hreap).2.1)
      have hforgot := h.forget c
      refine hforgot.goOn rfl hforgot.procs rfl (fun _ _ _ _ _ heq => ?_) fun i hi => hi.elim
      injection heq with hidx hspawned hclean hready hstopped
      refine ⟨hready ▸ hp.unready, fun hc => ?_⟩
      rw [← hstopped]
      exact hp.clean (of_decide_eq_true (hclean.trans hc))

/-- Every death counts, as none of the workers served. -/
theorem answer (h : s.Barren) {idx spawned : Nat} {clean becameReady appStopped : Bool}
    (hphase : s.phase = .died idx spawned clean becameReady appStopped) :
    (s.answer idx spawned clean becameReady appStopped).Barren := by
  obtain ⟨rfl, happ⟩ := h.died idx spawned clean becameReady appStopped hphase
  have hwatching : ({ s with phase := .watching } : State).Barren :=
    h.phase (fun _ _ _ _ _ heq => by cases heq) fun i hi => hi.elim
  unfold State.answer
  split
  · exact hwatching
  · split
    · rename_i hclean
      rw [if_pos (happ hclean)]
      exact hwatching.forward false
    · -- the streak is one more, and no less than the forks
      have hfew : ∀ i, s.forks i ≤ crashStreakLimit ∧
          s.forks i ≤ (if i = idx then s.streaks idx + 1 else s.streaks i) + 1 := by
        intro i
        have hi := h.few i
        split
        · rename_i heq
          rw [heq] at hi ⊢
          omega
        · exact hi
      have hnext : crashStreakNext (s.streaks idx) (some false) (s.clock - spawned) =
          s.streaks idx + 1 := if_pos rfl
      unfold State.crash
      dsimp only
      rw [hnext]
      split
      · refine forward (s := { s with streaks := _, crashes := _, exitCode := 1, phase := .watching }) ?_ false
        exact ⟨h.procs, (fun _ _ _ _ _ heq => by cases heq), hfew, fun i hi => hi.elim⟩
      · rename_i hlt
        refine ⟨h.procs, (fun _ _ _ _ _ heq => by cases heq), hfew, fun i hi => ?_⟩
        have hi : i = idx := hi
        subst hi
        refine ⟨?_, ?_⟩
        · show s.forks i ≤ if i = i then s.streaks i + 1 else s.streaks i
          rw [if_pos rfl]
          exact (h.few i).2
        · show (if i = i then s.streaks i + 1 else s.streaks i) < crashStreakLimit
          rw [if_pos rfl]
          exact Nat.lt_of_not_le hlt

theorem step (h : s.Barren) (n grace : Nat) {event : Event} (hserves : event.serves = false) :
    (s.step n grace event).Barren := by
  cases event with
  | go forked =>
    dsimp only [State.step, State.go]
    split
    · exact h.start ‹_› n
    · exact h.fork forked ‹_›
    · exact h.watch
    · exact h.answer ‹_›
    · have hdraining : ({ s with phase := .draining (s.clock + grace) } : State).Barren :=
        h.phase (fun _ _ _ _ _ heq => by cases heq) fun i hi => hi.elim
      exact hdraining.tellChildren
    · unfold State.drain
      split
      · split
        · exact h
        · exact h.forget _
      · exact h.phase (fun _ _ _ _ _ heq => by cases heq) fun i hi => hi.elim
    · unfold State.killNext
      split
      · exact h.phase (fun _ _ _ _ _ heq => by cases heq) fun i hi => hi.elim
      · rename_i c rest hchildren
        have hkilled : ({ s with procs := s.procs.modify c.pid Proc.kill } : State).Barren := by
          refine h.modify (fun p hp => ?_) rfl rfl rfl
          unfold Proc.kill
          split
          · exact ⟨rfl, hp⟩
          · exact ⟨rfl, hp.unready, hp.clean⟩
        exact hkilled.forget c
    · exact h
  | tick ms => exact h.goOn rfl h.procs rfl h.died fun _ => id
  | signal int =>
    dsimp only [State.step]
    split
    · exact h
    · exact h.forward int
  | ready pid => cases hserves
  | exits pid clean stopped =>
    refine h.modify (f := Proc.exits clean stopped) (fun p hp => ?_) rfl rfl rfl
    unfold Proc.exits
    split
    · refine ⟨rfl, hp.unready, fun hclean => ?_⟩
      injection hclean with hclean
      subst hclean
      cases stopped with
      | true => rfl
      | false => cases hserves
    · exact ⟨rfl, hp⟩
  | stolen pid =>
    refine h.modify (f := Proc.steal) (fun p hp => ?_) rfl rfl rfl
    unfold Proc.steal
    split
    · exact ⟨rfl, hp⟩
    · exact ⟨rfl, hp.unready, fun hgone => by cases hgone⟩

end State.Barren

theorem State.new_barren : State.new.Barren where
  procs _ hp := absurd hp List.not_mem_nil
  died _ _ _ _ _ heq := by cases heq
  few _ := ⟨Nat.zero_le _, Nat.zero_le _⟩
  due _ _ := ⟨Nat.le_refl 0, Nat.succ_pos 4⟩

theorem length_le_of_count_le {l : List Nat} {n k : Nat} (hlt : ∀ i ∈ l, i < n)
    (hcount : ∀ i, l.count i ≤ k) : l.length ≤ k * n := by
  calc l.length = ∑ i ∈ l.toFinset, l.count i := (List.sum_toFinset_count_eq_length l).symm
    _ ≤ l.toFinset.card • k := Finset.sum_le_card_nsmul _ _ k fun i _ => hcount i
    _ ≤ n * k := Nat.mul_le_mul_right k ?_
    _ = k * n := Nat.mul_comm n k
  calc l.toFinset.card ≤ (Finset.range n).card :=
        Finset.card_le_card fun i hi => Finset.mem_range.mpr (hlt i (List.mem_toFinset.mp hi))
    _ = n := Finset.card_range n

/-- One worker that dies as soon as it is forked, again and again. -/
def neverServed : List Event :=
  .go true :: .go true :: .go true ::
    (List.range 8).flatMap fun pid => [.exits pid false false, .go true, .go true, .go true]

end Cadeloop.Server.Supervisor
