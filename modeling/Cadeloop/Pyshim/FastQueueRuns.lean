import Cadeloop.Pyshim.FastQueue

/-!
# The queue is a FIFO without lost wakes

A wake is a hint, and every operation pays for the room or the item it leaves behind: while a getter
is pending there are no more items than getters woken, and while a putter is pending no more room
than putters woken.  In between an operation may owe one wake to either side, which `Counts` keeps
the books of.
-/

namespace Cadeloop.Pyshim.FastQueue

open Cadeloop.Reasoning Waiters

variable {α : Type*} {q : Queue α}

/-! ## 1. The invariant -/

namespace Waiting

def gets (w : Waiting α) : Bool :=
  match w.call with
  | .get => true
  | _ => false

def puts (w : Waiting α) : Bool :=
  match w.call with
  | .put _ => true
  | _ => false

def joins (w : Waiting α) : Bool :=
  match w.call with
  | .join => true
  | _ => false

theorem not_gets_of_puts (w : Waiting α) (h : w.puts = true) : w.gets = false := by
  cases w with | mk call fut => cases call <;> simp [puts, gets] at h ⊢

theorem not_gets_of_joins (w : Waiting α) (h : w.joins = true) : w.gets = false := by
  cases w with | mk call fut => cases call <;> simp [joins, gets] at h ⊢

theorem not_puts_of_gets (w : Waiting α) (h : w.gets = true) : w.puts = false := by
  cases w with | mk call fut => cases call <;> simp [puts, gets] at h ⊢

theorem not_puts_of_joins (w : Waiting α) (h : w.joins = true) : w.puts = false := by
  cases w with | mk call fut => cases call <;> simp [puts, joins] at h ⊢

end Waiting

namespace Queue

/-- How many getters are woken and have not resumed. -/
def wokenGetters (q : Queue α) : Nat := woken Waiting.fut Waiting.gets q.futs q.waits

def wokenPutters (q : Queue α) : Nat := woken Waiting.fut Waiting.puts q.futs q.waits

def GetterWaits (q : Queue α) : Prop := Starving Waiting.fut Waiting.gets q.futs q.waits

def PutterWaits (q : Queue α) : Prop := Starving Waiting.fut Waiting.puts q.futs q.waits

def JoinerWaits (q : Queue α) : Prop := Starving Waiting.fut Waiting.joins q.futs q.waits

end Queue

/-- The three lines, and the items in their order. -/
structure Kept (q : Queue α) : Prop where
  nodup : (q.waits.map Waiting.fut).Nodup
  fresh : ∀ w ∈ q.waits, w.fut < q.nextFut
  getting : Line Waiting.fut Waiting.gets q.getters q.futs q.waits
  putting : Line Waiting.fut Waiting.puts q.putters q.futs q.waits
  joining : Line Waiting.fut Waiting.joins q.joinWaiters q.futs q.waits
  inOrder : q.joinWaiters.Pairwise (· < ·)
  fifo : q.putItems = q.gotItems ++ q.items
  bounded : 0 < q.maxsize → (q.items.length : Int) ≤ q.maxsize

/-- Nobody waits for what is there, but for so many wakes still owed to either side. -/
structure Counts (getters putters : Nat) (q : Queue α) : Prop where
  items : q.GetterWaits → q.items.length ≤ q.wokenGetters + getters
  room : q.PutterWaits →
    0 < q.maxsize ∧ q.maxsize ≤ q.items.length + q.wokenPutters + putters

structure Sound (q : Queue α) : Prop extends Kept q where
  counts : Counts 0 0 q

theorem Counts.mono {g p g' p' : Nat} (h : Counts g p q) (hg : g ≤ g') (hp : p ≤ p') :
    Counts g' p' q := by
  constructor
  · intro hwaits
    have := h.items hwaits
    omega
  · intro hwaits
    have := h.room hwaits
    omega

/-! ## 2. Waking -/

theorem wakeGetter_kept (h : Kept q) : Kept (wakeGetter q) := by
  have hputs : ∀ w ∈ q.waits, w.puts = true → (wakeGetter q).futs w.fut = q.futs w.fut :=
    fun w hw hmine => h.getting.wake_other h.nodup Waiting.not_gets_of_puts hw hmine
  have hjoins : ∀ w ∈ q.waits, w.joins = true → (wakeGetter q).futs w.fut = q.futs w.fut :=
    fun w hw hmine => h.getting.wake_other h.nodup Waiting.not_gets_of_joins hw hmine
  exact {
    nodup := h.nodup
    fresh := h.fresh
    getting := (h.getting.wake h.nodup).1
    putting := h.putting.congr hputs
    joining := h.joining.congr hjoins
    inOrder := h.inOrder
    fifo := h.fifo
    bounded := h.bounded }

theorem wakeGetter_counts {g p : Nat} (h : Kept q) (hc : Counts (g + 1) p q) :
    Counts g p (wakeGetter q) := by
  have hputs : ∀ w ∈ q.waits, w.puts = true → (wakeGetter q).futs w.fut = q.futs w.fut :=
    fun w hw hmine => h.getting.wake_other h.nodup Waiting.not_gets_of_puts hw hmine
  constructor
  · intro hwaits
    have hitems := hc.items (Starving.of_setResult hwaits)
    rcases (h.getting.wake h.nodup).2 with hnone | hwoken
    · exact absurd hwaits hnone
    · have hmore : (wakeGetter q).wokenGetters = q.wokenGetters + 1 := hwoken
      change q.items.length ≤ (wakeGetter q).wokenGetters + g
      omega
  · intro hwaits
    have hsame : (wakeGetter q).wokenPutters = q.wokenPutters := woken_congr hputs
    rw [hsame]
    exact hc.room (Starving.congr hputs hwaits)

theorem wakePutter_kept (h : Kept q) : Kept (wakePutter q) := by
  have hgets : ∀ w ∈ q.waits, w.gets = true → (wakePutter q).futs w.fut = q.futs w.fut :=
    fun w hw hmine => h.putting.wake_other h.nodup Waiting.not_puts_of_gets hw hmine
  have hjoins : ∀ w ∈ q.waits, w.joins = true → (wakePutter q).futs w.fut = q.futs w.fut :=
    fun w hw hmine => h.putting.wake_other h.nodup Waiting.not_puts_of_joins hw hmine
  exact {
    nodup := h.nodup
    fresh := h.fresh
    getting := h.getting.congr hgets
    putting := (h.putting.wake h.nodup).1
    joining := h.joining.congr hjoins
    inOrder := h.inOrder
    fifo := h.fifo
    bounded := h.bounded }

theorem wakePutter_counts {g p : Nat} (h : Kept q) (hc : Counts g (p + 1) q) :
    Counts g p (wakePutter q) := by
  have hgets : ∀ w ∈ q.waits, w.gets = true → (wakePutter q).futs w.fut = q.futs w.fut :=
    fun w hw hmine => h.putting.wake_other h.nodup Waiting.not_puts_of_gets hw hmine
  constructor
  · intro hwaits
    have hsame : (wakePutter q).wokenGetters = q.wokenGetters := woken_congr hgets
    rw [hsame]
    exact hc.items (Starving.congr hgets hwaits)
  · intro hwaits
    have hroom := hc.room (Starving.of_setResult hwaits)
    rcases (h.putting.wake h.nodup).2 with hnone | hwoken
    · exact absurd hwaits hnone
    · have hmore : (wakePutter q).wokenPutters = q.wokenPutters + 1 := hwoken
      change 0 < q.maxsize ∧ q.maxsize ≤ q.items.length + (wakePutter q).wokenPutters + p
      omega

/-! ## 3. Parking -/

theorem park_kept (h : Kept q) (call : Await α) : Kept (park call q) := by
  have hfresh : ∀ w ∈ q.waits, w.fut ≠ q.nextFut := fun w hw => (h.fresh w hw).ne
  set parked : Waiting α := ⟨call, q.nextFut⟩
  have hnodup : ((q.waits ++ [parked]).map Waiting.fut).Nodup := by
    rw [List.map_append, List.nodup_append]
    refine ⟨h.nodup, List.nodup_singleton _, ?_⟩
    intro f hf g hg
    obtain ⟨w, hw, rfl⟩ := List.mem_map.mp hf
    rw [List.mem_singleton.mp hg]
    exact hfresh w hw
  have hnext : ∀ w ∈ q.waits ++ [parked], w.fut < q.nextFut + 1 := by
    intro w hw
    rcases List.mem_append.mp hw with hw | hw
    · exact (h.fresh w hw).trans (Nat.lt_succ_self _)
    · rw [List.mem_singleton.mp hw]
      exact Nat.lt_succ_self _
  cases call with
  | get => exact {
      nodup := hnodup
      fresh := hnext
      getting := h.getting.park (w := ⟨.get, q.nextFut⟩) rfl hfresh
      putting := h.putting.park_other (w := ⟨.get, q.nextFut⟩) rfl hfresh
      joining := h.joining.park_other (w := ⟨.get, q.nextFut⟩) rfl hfresh
      inOrder := h.inOrder
      fifo := h.fifo
      bounded := h.bounded }
  | put item => exact {
      nodup := hnodup
      fresh := hnext
      getting := h.getting.park_other (w := ⟨.put item, q.nextFut⟩) rfl hfresh
      putting := h.putting.park (w := ⟨.put item, q.nextFut⟩) rfl hfresh
      joining := h.joining.park_other (w := ⟨.put item, q.nextFut⟩) rfl hfresh
      inOrder := h.inOrder
      fifo := h.fifo
      bounded := h.bounded }
  | join => exact {
      nodup := hnodup
      fresh := hnext
      getting := h.getting.park_other (w := ⟨.join, q.nextFut⟩) rfl hfresh
      putting := h.putting.park_other (w := ⟨.join, q.nextFut⟩) rfl hfresh
      joining := h.joining.park (w := ⟨.join, q.nextFut⟩) rfl hfresh
      inOrder := by
        apply List.pairwise_append.mpr
        refine ⟨h.inOrder, List.pairwise_singleton _ _, ?_⟩
        intro f hf g hg
        obtain ⟨w, hw, -, rfl⟩ := h.joining.owned f hf
        rw [List.mem_singleton.mp hg]
        exact h.fresh w hw
      fifo := h.fifo
      bounded := h.bounded }

theorem park_fields (call : Await α) (q : Queue α) :
    (park call q).futs = Function.update q.futs q.nextFut .pending ∧
      (park call q).waits = q.waits ++ [⟨call, q.nextFut⟩] ∧
      (park call q).items = q.items ∧ (park call q).maxsize = q.maxsize := by
  cases call <;> exact ⟨rfl, rfl, rfl, rfl⟩

theorem park_woken (h : Kept q) (call : Await α) :
    (park call q).wokenGetters = q.wokenGetters ∧ (park call q).wokenPutters = q.wokenPutters := by
  have hfresh : ∀ w ∈ q.waits, w.fut ≠ q.nextFut := fun w hw => (h.fresh w hw).ne
  obtain ⟨hfuts, hwaits, -, -⟩ := park_fields call q
  constructor
  · rw [Queue.wokenGetters, hfuts, hwaits]
    exact @woken_park _ _ _ _ _ (⟨call, q.nextFut⟩ : Waiting α) hfresh
  · rw [Queue.wokenPutters, hfuts, hwaits]
    exact @woken_park _ _ _ _ _ (⟨call, q.nextFut⟩ : Waiting α) hfresh

theorem park_waits (h : Kept q) (call : Await α) :
    ((park call q).GetterWaits → q.GetterWaits ∨ call = .get) ∧
      ((park call q).PutterWaits → q.PutterWaits ∨ ∃ item, call = .put item) ∧
      ((park call q).JoinerWaits → q.JoinerWaits ∨ call = .join) := by
  obtain ⟨hfuts, hwaits, -, -⟩ := park_fields call q
  have hother (mine : Waiting α → Bool) (hmine : mine ⟨call, q.nextFut⟩ = false)
      (hs : Starving Waiting.fut mine (park call q).futs (park call q).waits) :
      Starving Waiting.fut mine q.futs q.waits := by
    rw [hfuts, hwaits] at hs
    exact Starving.of_park_other (w := ⟨call, q.nextFut⟩) hmine (fun w hw => (h.fresh w hw).ne) hs
  cases call with
  | get => exact ⟨fun _ => .inr rfl, fun hs => .inl (hother _ rfl hs), fun hs => .inl (hother _ rfl hs)⟩
  | put item =>
    exact ⟨fun hs => .inl (hother _ rfl hs), fun _ => .inr ⟨item, rfl⟩,
      fun hs => .inl (hother _ rfl hs)⟩
  | join => exact ⟨fun hs => .inl (hother _ rfl hs), fun hs => .inl (hother _ rfl hs), fun _ => .inr rfl⟩

/-- A getter parks on an empty queue, a putter on a full one. -/
theorem park_counts (h : Kept q) {call : Await α} {g p : Nat} (hc : Counts g p q)
    (hitems : g = 0 ∨ q.items = []) (hroom : p = 0 ∨ isFull q = true)
    (hget : call = .get → q.items = []) (hput : ∀ item, call = .put item → isFull q = true) :
    Counts 0 0 (park call q) := by
  obtain ⟨-, -, hsame, hmax⟩ := park_fields call q
  obtain ⟨hgetters, hputters⟩ := park_woken h call
  obtain ⟨hgets, hputs, -⟩ := park_waits h call
  have hfull (hfull : isFull q = true) : 0 < q.maxsize ∧ q.maxsize ≤ q.items.length := by
    simpa [isFull] using hfull
  constructor
  · intro hwaits
    rw [hsame, hgetters]
    rcases hgets hwaits with hbefore | hcall
    · have := hc.items hbefore
      rcases hitems with rfl | hempty
      · exact this
      · simp [hempty]
    · simp [hget hcall]
  · intro hwaits
    rw [hsame, hmax, hputters]
    rcases hputs hwaits with hbefore | ⟨item, hcall⟩
    · have := hc.room hbefore
      rcases hroom with rfl | hroom
      · exact this
      · have := hfull hroom
        omega
    · have := hfull (hput item hcall)
      omega

/-! ## 4. Putting and getting -/

theorem putNow_sound (h : Kept q) (hc : Counts 0 1 q) (hroom : isFull q = false) (item : α) :
    Sound (putNow item q) := by
  set put : Queue α := { q with
    items := q.items ++ [item]
    unfinished := i64 (q.unfinished + 1)
    putItems := q.putItems ++ [item] } with hput
  have hkept : Kept put := {
    nodup := h.nodup
    fresh := h.fresh
    getting := h.getting
    putting := h.putting
    joining := h.joining
    inOrder := h.inOrder
    fifo := by simp [hput, h.fifo]
    bounded := by
      intro hpos
      have hpos : 0 < q.maxsize := hpos
      simp only [isFull, hpos, true_and, decide_eq_false_iff_not, not_le] at hroom
      simp only [hput, List.length_append, List.length_singleton]
      omega }
  have hcounts : Counts 1 0 put := by
    constructor
    · intro hwaits
      have hitems := hc.items hwaits
      simp only [hput, List.length_append, List.length_singleton]
      exact Nat.succ_le_succ hitems
    · intro hwaits
      have hroom := hc.room hwaits
      have hlen : put.items.length = q.items.length + 1 := by simp [hput]
      have hmax : put.maxsize = q.maxsize := rfl
      have hwoken : put.wokenPutters = q.wokenPutters := rfl
      omega
  exact ⟨wakeGetter_kept hkept, wakeGetter_counts hkept hcounts⟩

theorem getNow_sound (h : Kept q) (hc : Counts 1 0 q) {item : α} {q' : Queue α}
    (hgot : getNow q = some (item, q')) : Sound q' := by
  unfold getNow at hgot
  cases hitems : q.items with
  | nil => simp [hitems] at hgot
  | cons first items =>
    simp only [hitems, Option.some.injEq, Prod.mk.injEq] at hgot
    obtain ⟨rfl, rfl⟩ := hgot
    set got : Queue α := { q with items := items, gotItems := q.gotItems ++ [first] } with hgot
    have hlen : q.items.length = got.items.length + 1 := by simp [hgot, hitems]
    have hkept : Kept got := {
      nodup := h.nodup
      fresh := h.fresh
      getting := h.getting
      putting := h.putting
      joining := h.joining
      inOrder := h.inOrder
      fifo := by simp [hgot, h.fifo, hitems]
      bounded := by
        intro hpos
        have hbound := h.bounded hpos
        have hmax : got.maxsize = q.maxsize := rfl
        omega }
    have hcounts : Counts 0 1 got := by
      constructor
      · intro hwaits
        have hbefore := hc.items hwaits
        have hwoken : got.wokenGetters = q.wokenGetters := rfl
        omega
      · intro hwaits
        have hbefore := hc.room hwaits
        have hmax : got.maxsize = q.maxsize := rfl
        have hwoken : got.wokenPutters = q.wokenPutters := rfl
        omega
    exact ⟨wakePutter_kept hkept, wakePutter_counts hkept hcounts⟩

theorem get_sound (h : Kept q) (hc : Counts 1 0 q) : Sound (get q) := by
  unfold get
  cases hgot : getNow q with
  | some got => exact getNow_sound h hc hgot
  | none =>
    have hempty : q.items = [] := by
      unfold getNow at hgot
      cases hitems : q.items with
      | nil => rfl
      | cons item items => simp [hitems] at hgot
    refine ⟨park_kept h .get, ?_⟩
    exact park_counts h hc (.inr hempty) (.inl rfl) (fun _ => hempty) (fun _ hcall => nomatch hcall)

theorem put_sound (h : Kept q) (hc : Counts 0 1 q) (item : α) : Sound (put item q) := by
  unfold put
  split
  · rename_i hfull
    refine ⟨park_kept h (.put item), ?_⟩
    exact park_counts h hc (.inl rfl) (.inr hfull) (fun hcall => nomatch hcall) (fun _ _ => hfull)
  · rename_i hroom
    exact putNow_sound h hc (by simpa using hroom) item

/-! ## 5. Resuming -/

/-- The task is gone, and of its line; what a pending future of it was is cancelled. -/
theorem left_nodup {w : Waiting α} {left : List (Waiting α)} (hperm : q.waits.Perm (w :: left))
    (h : Kept q) :
    (left.map Waiting.fut).Nodup ∧ ∀ w' ∈ left, w'.fut < q.nextFut := by
  constructor
  · have := (hperm.map Waiting.fut).nodup_iff.mp h.nodup
    exact (List.nodup_cons.mp this).2
  · exact fun w' hw' => h.fresh w' (hperm.mem_iff.mpr (List.mem_cons_of_mem _ hw'))

/-- The wakes that a task takes along when it leaves. -/
theorem left_counts {w : Waiting α} {left : List (Waiting α)} (hperm : q.waits.Perm (w :: left))
    (hc : Counts 0 0 q) {futs : Nat → FutState} (getters putters joinWaiters : List Nat)
    (hfuts : futs = q.futs ∨ futs = cancelFut w.fut q.futs) :
    Counts (if w.gets = true ∧ q.futs w.fut = .resolved then 1 else 0)
      (if w.puts = true ∧ q.futs w.fut = .resolved then 1 else 0)
      { q with
        waits := left
        futs := futs
        getters := getters
        putters := putters
        joinWaiters := joinWaiters } := by
  have hwoken (mine : Waiting α → Bool) :
      woken Waiting.fut mine futs left = woken Waiting.fut mine q.futs left := by
    rcases hfuts with rfl | rfl
    · rfl
    · exact woken_cancel w.fut
  have hstarving (mine : Waiting α → Bool) (hs : Starving Waiting.fut mine futs left) :
      Starving Waiting.fut mine q.futs q.waits := by
    rcases hfuts with rfl | rfl
    · exact hs.of_leave hperm
    · exact hs.of_cancel.of_leave hperm
  constructor
  · intro hwaits
    have hitems := hc.items (hstarving _ hwaits)
    have hleft : woken Waiting.fut Waiting.gets q.futs q.waits = woken Waiting.fut _ _ left + _ :=
      woken_leave hperm
    simp only [Queue.wokenGetters, hwoken] at hitems ⊢
    omega
  · intro hwaits
    have hroom := hc.room (hstarving _ hwaits)
    have hleft : woken Waiting.fut Waiting.puts q.futs q.waits = woken Waiting.fut _ _ left + _ :=
      woken_leave hperm
    simp only [Queue.wokenPutters, hwoken] at hroom ⊢
    omega

theorem getterRecovery_sound {w : Waiting α} {left : List (Waiting α)}
    (hperm : q.waits.Perm (w :: left)) (hcall : w.call = .get) (h : Sound q) :
    Sound (getterRecovery w.fut { q with waits := left }) := by
  have hgets : w.gets = true := by simp [Waiting.gets, hcall]
  have hputs : w.puts = false := Waiting.not_puts_of_gets w hgets
  have hjoins : w.joins = false := by simp [Waiting.joins, hcall]
  obtain ⟨hnodup, hfresh⟩ := left_nodup hperm h.toKept
  set q₁ : Queue α := { q with
    waits := left
    futs := cancelFut w.fut q.futs
    getters := q.getters.erase w.fut } with hq₁
  have hkept : Kept q₁ := {
    nodup := hnodup
    fresh := hfresh
    getting := (h.getting.leave h.nodup hperm).cancel w.fut
    putting := (h.putting.leave_other h.nodup hperm (.inl hputs)).cancel w.fut
    joining := (h.joining.leave_other h.nodup hperm (.inl hjoins)).cancel w.fut
    inOrder := h.inOrder
    fifo := h.fifo
    bounded := h.bounded }
  have hcounts := left_counts hperm h.counts (q.getters.erase w.fut) q.putters q.joinWaiters
    (.inr rfl)
  simp only [hgets, hputs, true_and, Bool.false_eq_true, false_and, if_false] at hcounts
  change Sound (if q₁.items ≠ [] ∧ q₁.futs w.fut ≠ .cancelled then wakeGetter q₁ else q₁)
  split
  · refine ⟨wakeGetter_kept hkept, wakeGetter_counts hkept (hcounts.mono ?_ le_rfl)⟩
    split <;> omega
  · rename_i hkeep
    refine ⟨hkept, ?_⟩
    by_cases hresolved : q.futs w.fut = .resolved
    -- woken, but there is nothing to pass the wake on for
    · have hempty : q₁.items = [] := by
        by_contra hitems
        refine hkeep ⟨hitems, ?_⟩
        rw [hq₁]
        simp [cancelFut, hresolved]
      constructor
      · intro _
        simp [hempty]
      · exact hcounts.room
    · rw [if_neg hresolved] at hcounts
      exact hcounts

theorem putterRecovery_sound {w : Waiting α} {left : List (Waiting α)}
    (hperm : q.waits.Perm (w :: left)) {item : α} (hcall : w.call = .put item) (h : Sound q) :
    Sound (putterRecovery w.fut { q with waits := left }) := by
  have hputs : w.puts = true := by simp [Waiting.puts, hcall]
  have hgets : w.gets = false := Waiting.not_gets_of_puts w hputs
  have hjoins : w.joins = false := by simp [Waiting.joins, hcall]
  obtain ⟨hnodup, hfresh⟩ := left_nodup hperm h.toKept
  set q₁ : Queue α := { q with
    waits := left
    futs := cancelFut w.fut q.futs
    putters := q.putters.erase w.fut } with hq₁
  have hkept : Kept q₁ := {
    nodup := hnodup
    fresh := hfresh
    getting := (h.getting.leave_other h.nodup hperm (.inl hgets)).cancel w.fut
    putting := (h.putting.leave h.nodup hperm).cancel w.fut
    joining := (h.joining.leave_other h.nodup hperm (.inl hjoins)).cancel w.fut
    inOrder := h.inOrder
    fifo := h.fifo
    bounded := h.bounded }
  have hcounts := left_counts hperm h.counts q.getters (q.putters.erase w.fut) q.joinWaiters
    (.inr rfl)
  simp only [hgets, hputs, true_and, Bool.false_eq_true, false_and, if_false] at hcounts
  change Sound (if isFull q₁ = false ∧ q₁.futs w.fut ≠ .cancelled then wakePutter q₁ else q₁)
  split
  · refine ⟨wakePutter_kept hkept, wakePutter_counts hkept (hcounts.mono le_rfl ?_)⟩
    split <;> omega
  · rename_i hkeep
    refine ⟨hkept, ?_⟩
    by_cases hresolved : q.futs w.fut = .resolved
    -- woken, but there is no room to pass the wake on for
    · have hfull : isFull q₁ = true := by
        by_contra hroom
        refine hkeep ⟨by simpa using hroom, ?_⟩
        rw [hq₁]
        simp [cancelFut, hresolved]
      constructor
      · exact hcounts.items
      · intro hwaits
        have hroom := hcounts.room hwaits
        have hbound : 0 < q₁.maxsize ∧ q₁.maxsize ≤ q₁.items.length := by simpa [isFull] using hfull
        change 0 < q₁.maxsize ∧ q₁.maxsize ≤ q₁.items.length + q₁.wokenPutters + (0 : Nat)
        omega
    · rw [if_neg hresolved] at hcounts
      exact hcounts

theorem unjoin_sound {w : Waiting α} {left : List (Waiting α)}
    (hperm : q.waits.Perm (w :: left)) (hcall : w.call = .join) (h : Sound q) :
    Sound (unjoin w.fut { q with waits := left }) := by
  have hgets : w.gets = false := by simp [Waiting.gets, hcall]
  have hputs : w.puts = false := by simp [Waiting.puts, hcall]
  obtain ⟨hnodup, hfresh⟩ := left_nodup hperm h.toKept
  have hcounts := left_counts hperm h.counts q.getters q.putters (q.joinWaiters.erase w.fut)
    (.inl rfl)
  simp only [hgets, hputs, Bool.false_eq_true, false_and, if_false] at hcounts
  exact {
    nodup := hnodup
    fresh := hfresh
    getting := h.getting.leave_other h.nodup hperm (.inl hgets)
    putting := h.putting.leave_other h.nodup hperm (.inl hputs)
    joining := h.joining.leave h.nodup hperm
    inOrder := h.inOrder.sublist List.erase_sublist
    fifo := h.fifo
    bounded := h.bounded
    counts := hcounts }

theorem recover_sound {w : Waiting α} {left : List (Waiting α)}
    (hperm : q.waits.Perm (w :: left)) (h : Sound q) : Sound (recover w { q with waits := left }) := by
  unfold recover
  cases hcall : w.call with
  | get => exact getterRecovery_sound hperm hcall h
  | put item => exact putterRecovery_sound hperm hcall h
  | join => exact unjoin_sound hperm hcall h

theorem resumed_perm {i : Nat} {w : Waiting α} (hw : q.waits[i]? = some w) :
    q.waits.Perm (w :: q.waits.eraseIdx i) := by
  obtain ⟨hi, rfl⟩ := List.getElem?_eq_some_iff.mp hw
  exact (List.getElem_cons_eraseIdx_perm hi).symm

theorem left_kept {w : Waiting α} {left : List (Waiting α)} (hperm : q.waits.Perm (w :: left))
    (hresolved : q.futs w.fut = .resolved) (h : Kept q) : Kept { q with waits := left } := by
  obtain ⟨hnodup, hfresh⟩ := left_nodup hperm h
  exact {
    nodup := hnodup
    fresh := hfresh
    getting := h.getting.leave_other h.nodup hperm (.inr hresolved)
    putting := h.putting.leave_other h.nodup hperm (.inr hresolved)
    joining := h.joining.leave_other h.nodup hperm (.inr hresolved)
    inOrder := h.inOrder
    fifo := h.fifo
    bounded := h.bounded }

/-- A woken task resumes: it takes its wake along, and looks again. -/
theorem goOn_sound {w : Waiting α} {left : List (Waiting α)} (hperm : q.waits.Perm (w :: left))
    (hresolved : q.futs w.fut = .resolved) (h : Sound q) : Sound (goOn w { q with waits := left }) := by
  have hkept := left_kept hperm hresolved h.toKept
  have hcounts := left_counts hperm h.counts q.getters q.putters q.joinWaiters (.inl rfl)
  unfold goOn
  cases hcall : w.call with
  | get =>
    simp only [Waiting.gets, Waiting.puts, hcall, hresolved, Bool.false_eq_true, false_and, and_self,
      if_true, if_false] at hcounts
    exact get_sound hkept hcounts
  | put item =>
    simp only [Waiting.gets, Waiting.puts, hcall, hresolved, Bool.false_eq_true, false_and, and_self,
      if_true, if_false] at hcounts
    exact put_sound hkept hcounts item
  | join => exact unjoin_sound hperm hcall h

theorem resume_sound (h : Sound q) (i : Nat) (thrown : Bool) : Sound (resume i thrown q) := by
  unfold resume
  cases hw : q.waits[i]? with
  | none => exact h
  | some w =>
    have hperm := resumed_perm hw
    dsimp only
    split
    · exact recover_sound hperm h
    · split
      · rename_i hresolved
        exact goOn_sound hperm hresolved h
      · exact h

theorem cancel_sound (h : Sound q) (i : Nat) : Sound (cancel i q) := by
  unfold cancel
  cases hw : q.waits[i]? with
  | none => exact h
  | some w =>
    have hcounts : Counts 0 0 { q with futs := cancelFut w.fut q.futs } := by
      constructor
      · intro hwaits
        have hsame : woken Waiting.fut Waiting.gets (cancelFut w.fut q.futs) q.waits =
          q.wokenGetters := woken_cancel w.fut
        exact (h.counts.items hwaits.of_cancel).trans hsame.ge
      · intro hwaits
        have hsame : woken Waiting.fut Waiting.puts (cancelFut w.fut q.futs) q.waits =
          q.wokenPutters := woken_cancel w.fut
        have hroom := h.counts.room hwaits.of_cancel
        rwa [← hsame] at hroom
    exact {
      nodup := h.nodup
      fresh := h.fresh
      getting := h.getting.cancel w.fut
      putting := h.putting.cancel w.fut
      joining := h.joining.cancel w.fut
      inOrder := h.inOrder
      fifo := h.fifo
      bounded := h.bounded
      counts := hcounts }

/-! ## 6. Joining -/

theorem releaseJoiners_futs (h : Kept q) {w : Waiting α} (hw : w ∈ q.waits)
    (hjoins : w.joins = false) : (releaseJoiners q).futs w.fut = q.futs w.fut := by
  have hout : w.fut ∉ q.joinWaiters.filter fun fut => q.futs fut = .pending := by
    intro hmem
    obtain ⟨w', hw', hmine, hsame⟩ := h.joining.owned _ (List.mem_of_mem_filter hmem)
    obtain rfl := fut_inj h.nodup hw' hw hsame
    simp [hjoins] at hmine
  exact if_neg hout

theorem releaseJoiners_released (h : Kept q) {w : Waiting α} (hw : w ∈ q.waits)
    (hjoins : w.joins = true) (hpending : q.futs w.fut = .pending) :
    (releaseJoiners q).futs w.fut = .resolved := by
  have hmem := h.joining.queued w hw hjoins hpending
  simp [releaseJoiners, hmem, hpending]

theorem releaseJoiners_sound (h : Sound q) : Sound (releaseJoiners q) := by
  have hgets : ∀ w ∈ q.waits, w.gets = true → (releaseJoiners q).futs w.fut = q.futs w.fut := by
    intro w hw hgets
    apply releaseJoiners_futs h.toKept hw
    by_contra hjoins
    simp [Waiting.not_gets_of_joins w (by simpa using hjoins)] at hgets
  have hputs : ∀ w ∈ q.waits, w.puts = true → (releaseJoiners q).futs w.fut = q.futs w.fut := by
    intro w hw hputs
    apply releaseJoiners_futs h.toKept hw
    by_contra hjoins
    simp [Waiting.not_puts_of_joins w (by simpa using hjoins)] at hputs
  have hnone : ∀ w ∈ q.waits, w.joins = true → (releaseJoiners q).futs w.fut ≠ .pending := by
    intro w hw hjoins hpending
    by_cases hbefore : q.futs w.fut = .pending
    · rw [releaseJoiners_released h.toKept hw hjoins hbefore] at hpending
      cases hpending
    · simp [releaseJoiners, hbefore] at hpending
  have hcounts : Counts 0 0 (releaseJoiners q) := by
    constructor
    · intro hwaits
      have hsame : (releaseJoiners q).wokenGetters = q.wokenGetters := woken_congr hgets
      rw [hsame]
      exact h.counts.items (Starving.congr hgets hwaits)
    · intro hwaits
      have hsame : (releaseJoiners q).wokenPutters = q.wokenPutters := woken_congr hputs
      rw [hsame]
      exact h.counts.room (Starving.congr hputs hwaits)
  exact {
    nodup := h.nodup
    fresh := h.fresh
    getting := h.getting.congr hgets
    putting := h.putting.congr hputs
    joining := ⟨fun w hw hjoins hpending => absurd hpending (hnone w hw hjoins), by
      simp [releaseJoiners], by simp [releaseJoiners], List.nodup_nil⟩
    inOrder := List.Pairwise.nil
    fifo := h.fifo
    bounded := h.bounded
    counts := hcounts }

theorem taskDone_sound {q' : Queue α} (hdone : taskDone q = .ok q') (h : Sound q) : Sound q' := by
  unfold taskDone at hdone
  split at hdone
  · cases hdone
  · have hcounted : Sound { q with unfinished := q.unfinished - 1, done := q.done + 1 } :=
      ⟨⟨h.nodup, h.fresh, h.getting, h.putting, h.joining, h.inOrder, h.fifo, h.bounded⟩,
        ⟨h.counts.items, h.counts.room⟩⟩
    cases hdone
    split
    · exact releaseJoiners_sound hcounted
    · exact hcounted

/-! ## 7. Runs -/

theorem step_sound (op : Op α) (h : Sound q) : Sound (step q op) := by
  cases op with
  | put item => exact put_sound h.toKept (h.counts.mono le_rfl (Nat.zero_le _)) item
  | get => exact get_sound h.toKept (h.counts.mono (Nat.zero_le _) le_rfl)
  | putNowait item =>
    simp only [step, putNowait]
    split
    · rename_i hput
      split at hput
      · cases hput
      · rename_i hroom
        cases hput
        exact putNow_sound h.toKept (h.counts.mono le_rfl (Nat.zero_le _)) (by simpa using hroom) item
    · exact h
  | getNowait =>
    simp only [step, getNowait]
    cases hgot : getNow q with
    | some got => exact getNow_sound h.toKept (h.counts.mono (Nat.zero_le _) le_rfl) hgot
    | none => exact h
  | taskDone =>
    simp only [step]
    cases hdone : taskDone q with
    | ok q' => exact taskDone_sound hdone h
    | error err => exact h
  | join =>
    simp only [step, join]
    split
    · exact h
    · refine ⟨park_kept h.toKept .join, ?_⟩
      exact park_counts h.toKept h.counts (.inl rfl) (.inl rfl) (fun hcall => nomatch hcall)
        (fun _ hcall => nomatch hcall)
  | cancel i => exact cancel_sound h i
  | resume i thrown => exact resume_sound h i thrown

theorem new_sound (maxsize : Int) : Sound (new maxsize : Queue α) := by
  have hline (mine : Waiting α → Bool) : Line Waiting.fut mine [] (fun _ => .pending) [] :=
    ⟨by simp, by simp, by simp, List.nodup_nil⟩
  exact {
    nodup := List.nodup_nil
    fresh := by simp [new]
    getting := hline _
    putting := hline _
    joining := hline _
    inOrder := List.Pairwise.nil
    fifo := rfl
    bounded := fun hpos => hpos.le
    counts := ⟨by simp [Queue.GetterWaits, Starving, new], by simp [Queue.PutterWaits, Starving, new]⟩ }

theorem run_sound (maxsize : Int) (ops : List (Op α)) : Sound ((queue maxsize).run ops) :=
  (queue maxsize).run_invariant (new_sound maxsize) (fun _ op => step_sound op) ops

/-! ## 8. The unfinished count -/

/-- What an operation does to the count, and to who waits for it. -/
inductive Tally (q q' : Queue α) : Prop where
  | aside (count : q'.unfinished = q.unfinished)
    (puts : q'.putItems.length = q.putItems.length) (done : q'.done = q.done)
    (joins : q'.JoinerWaits → q.JoinerWaits)
  | put (count : q'.unfinished = i64 (q.unfinished + 1))
    (puts : q'.putItems.length = q.putItems.length + 1) (done : q'.done = q.done)
    (joins : q'.JoinerWaits → q.JoinerWaits)
  | done (pos : 0 < q.unfinished) (count : q'.unfinished = q.unfinished - 1)
    (puts : q'.putItems.length = q.putItems.length) (done : q'.done = q.done + 1)
    (joins : q'.JoinerWaits → q'.unfinished ≠ 0)
  | joined (nonzero : q.unfinished ≠ 0) (count : q'.unfinished = q.unfinished)
    (puts : q'.putItems.length = q.putItems.length) (done : q'.done = q.done)

namespace Tally

theorem refl (q : Queue α) : Tally q q := .aside rfl rfl rfl id

theorem putNow (item : α) (q : Queue α) : Tally q (putNow item q) :=
  .put rfl (by simp [FastQueue.putNow, wakeGetter]) rfl Starving.of_setResult

theorem getNow {item : α} {q' : Queue α} (h : getNow q = some (item, q')) : Tally q q' := by
  unfold FastQueue.getNow at h
  split at h
  · cases h
  · cases h
    exact .aside rfl rfl rfl Starving.of_setResult

theorem park (h : Kept q) {call : Await α} (hcall : call ≠ .join) : Tally q (park call q) := by
  have hjoins (hwaits : (FastQueue.park call q).JoinerWaits) : q.JoinerWaits :=
    ((park_waits h call).2.2 hwaits).resolve_right hcall
  cases call with
  | get => exact .aside rfl rfl rfl hjoins
  | put item => exact .aside rfl rfl rfl hjoins
  | join => exact absurd rfl hcall

theorem get (h : Kept q) : Tally q (get q) := by
  unfold FastQueue.get
  cases hgot : FastQueue.getNow q with
  | some got => exact .getNow hgot
  | none => exact .park h (by simp)

theorem put_call (h : Kept q) (item : α) : Tally q (FastQueue.put item q) := by
  unfold FastQueue.put
  split
  · exact .park h (by simp)
  · exact .putNow item q

/-- The task that resumes was no reason for anything. -/
theorem left {q' : Queue α} {w : Waiting α} {waits : List (Waiting α)}
    (hperm : q.waits.Perm (w :: waits)) (h : Tally { q with waits := waits } q') : Tally q q' := by
  have hjoins : Queue.JoinerWaits { q with waits := waits } → q.JoinerWaits :=
    fun hwaits => hwaits.of_leave hperm
  cases h with
  | aside count puts done joins => exact .aside count puts done fun h => hjoins (joins h)
  | put count puts done joins => exact .put count puts done fun h => hjoins (joins h)
  | done pos count puts done joins => exact .done pos count puts done joins
  | joined nonzero count puts done => exact .joined nonzero count puts done

theorem recover (w : Waiting α) (q : Queue α) : Tally q (recover w q) := by
  unfold FastQueue.recover
  cases w.call with
  | get =>
    simp only [getterRecovery]
    split
    · exact .aside rfl rfl rfl fun hwaits => (Starving.of_setResult hwaits).of_cancel
    · exact .aside rfl rfl rfl Starving.of_cancel
  | put item =>
    simp only [putterRecovery]
    split
    · exact .aside rfl rfl rfl fun hwaits => (Starving.of_setResult hwaits).of_cancel
    · exact .aside rfl rfl rfl Starving.of_cancel
  | join => exact .aside rfl rfl rfl id

theorem goOn (h : Kept q) (w : Waiting α) : Tally q (goOn w q) := by
  unfold FastQueue.goOn
  cases w.call with
  | get => exact .get h
  | put item => exact .put_call h item
  | join => exact .aside rfl rfl rfl id

theorem taskDone (h : Kept q) {q' : Queue α} (hdone : taskDone q = .ok q') : Tally q q' := by
  unfold FastQueue.taskDone at hdone
  split at hdone
  · cases hdone
  · rename_i hpos
    cases hdone
    split
    · rename_i hlast
      refine .done (not_le.mp hpos) rfl rfl rfl fun hwaits => ?_
      -- nobody waits any more
      obtain ⟨w, hw, hjoins, hpending⟩ := hwaits
      by_cases hbefore : q.futs w.fut = .pending
      · have hmem := h.joining.queued w hw hjoins hbefore
        simp [releaseJoiners, hmem, hbefore] at hpending
      · simp [releaseJoiners, hbefore] at hpending
    · rename_i hmore
      refine .done (not_le.mp hpos) rfl rfl rfl fun _ => ?_
      dsimp only
      omega

theorem step (h : Sound q) (op : Op α) : Tally q (step q op) := by
  cases op with
  | put item => exact .put_call h.toKept item
  | get => exact .get h.toKept
  | putNowait item =>
    simp only [FastQueue.step, putNowait]
    split
    · rename_i hput
      split at hput
      · cases hput
      · cases hput
        exact .putNow item q
    · exact .refl q
  | getNowait =>
    simp only [FastQueue.step, getNowait]
    cases hgot : FastQueue.getNow q with
    | some got => exact .getNow hgot
    | none => exact .refl q
  | taskDone =>
    simp only [FastQueue.step]
    cases hdone : FastQueue.taskDone q with
    | ok q' => exact .taskDone h.toKept hdone
    | error err => exact .refl q
  | join =>
    simp only [FastQueue.step, join]
    split
    · exact .refl q
    · rename_i hnonzero
      exact .joined hnonzero rfl rfl rfl
  | cancel i =>
    simp only [FastQueue.step, cancel]
    split
    · exact .refl q
    · exact .aside rfl rfl rfl Starving.of_cancel
  | resume i thrown =>
    simp only [FastQueue.step, resume]
    cases hw : q.waits[i]? with
    | none => exact .refl q
    | some w =>
      have hperm := resumed_perm hw
      dsimp only
      split
      · exact .left hperm (.recover w _)
      · split
        · rename_i hresolved
          exact .left hperm (.goOn (left_kept hperm hresolved h.toKept) w)
        · exact .refl q

end Tally

/-- The count is that of the puts less the calls of `task_done`, cut to an `i64`. -/
def Wrapped (q : Queue α) : Prop := q.unfinished = i64 (q.putItems.length - q.done)

theorem i64_of_lt {n : Int} (hlow : 0 ≤ n) (hhigh : n < 2 ^ 63) : i64 n = n := by
  apply Int.bmod_eq_of_le
  · omega
  · omega

theorem i64_lt (n : Int) : i64 n < 2 ^ 63 := by
  have hlt : i64 n < ((2 ^ 64 : Nat) + 1) / 2 := Int.bmod_lt (Nat.two_pow_pos 64)
  omega

theorem Wrapped.step {q' : Queue α} (h : Wrapped q) (ht : Tally q q') : Wrapped q' := by
  unfold Wrapped at h ⊢
  cases ht with
  | aside count puts done joins => rw [count, puts, done, h]
  | joined nonzero count puts done => rw [count, puts, done, h]
  | put count puts done joins =>
    rw [count, puts, done, h, i64, i64, i64, Int.bmod_add_bmod]
    congr 1
    omega
  | done pos count puts done joins =>
    have hlow : 0 ≤ q.unfinished - 1 := by omega
    have hhigh := i64_lt (q.putItems.length - q.done)
    rw [← h] at hhigh
    rw [count, puts, done, ← i64_of_lt hlow (by omega), h, i64, i64, i64, Int.bmod_sub_bmod]
    congr 1
    omega

/-- The count as it is while it fits. -/
structure Counted (q : Queue α) : Prop where
  counted : q.unfinished = q.putItems.length - q.done
  nonneg : 0 ≤ q.unfinished
  joins : q.JoinerWaits → 0 < q.unfinished

theorem Counted.step {q' : Queue α} (h : Counted q) (ht : Tally q q')
    (hfits : q'.putItems.length < q'.done + 2 ^ 63) : Counted q' := by
  have hcounted := h.counted
  have hnonneg := h.nonneg
  cases ht with
  | aside count puts done joins =>
    refine ⟨by omega, by omega, fun hwaits => ?_⟩
    rw [count]
    exact h.joins (joins hwaits)
  | put count puts done joins =>
    have hsame : i64 (q.unfinished + 1) = q.unfinished + 1 := i64_of_lt (by omega) (by omega)
    refine ⟨by omega, by omega, fun _ => by omega⟩
  | done pos count puts done joins =>
    refine ⟨by omega, by omega, fun hwaits => ?_⟩
    have := joins hwaits
    omega
  | joined nonzero count puts done => exact ⟨by omega, by omega, fun _ => by omega⟩

theorem new_counted (maxsize : Int) : Counted (new maxsize : Queue α) :=
  ⟨rfl, le_rfl, by simp [Queue.JoinerWaits, Starving, new]⟩

theorem new_wrapped (maxsize : Int) : Wrapped (new maxsize : Queue α) := by
  have hzero : i64 0 = 0 := i64_of_lt le_rfl (by omega)
  simp [Wrapped, new, hzero]

theorem run_wrapped (maxsize : Int) (ops : List (Op α)) : Wrapped ((queue maxsize).run ops) := by
  have h := (queue maxsize).run_invariant (I := fun q : Queue α => Sound q ∧ Wrapped q)
    ⟨new_sound maxsize, new_wrapped maxsize⟩ (fun q op hq => ⟨step_sound op hq.1, hq.2.step (.step hq.1 op)⟩) ops
  exact h.2

/-! ## 9. The queue -/

theorem run_counted (maxsize : Int) (ops : List (Op α))
    (h : ∀ pre, pre <+: ops →
      ((queue maxsize).run pre).putItems.length < ((queue maxsize).run pre).done + 2 ^ 63) :
    Counted ((queue maxsize).run ops) := by
  revert h
  refine (queue maxsize).run_induction (motive := fun ops q => (∀ pre, pre <+: ops →
    ((queue maxsize).run pre).putItems.length < ((queue maxsize).run pre).done + 2 ^ 63) →
      Counted q) (fun _ => new_counted maxsize) ?_ ops
  intro ops op ih h
  have hcounted := ih fun pre hpre => h pre (hpre.trans (List.prefix_append _ _))
  have hfits := h (ops ++ [op]) (List.prefix_refl _)
  rw [Machine.run_concat] at hfits
  exact hcounted.step (.step (run_sound maxsize ops) op) hfits

/-- The `task_done` that brings the count to zero resolves the joiners, in the order of their
futures, which is that in which they parked. -/
theorem taskDone_releases (h : Sound q) (hlast : q.unfinished = 1) :
    ∃ q' released, taskDone q = .ok q' ∧ q'.unfinished = 0 ∧ q'.wakes = q.wakes ++ released ∧
      released.Pairwise (· < ·) ∧
      (∀ f, f ∈ released ↔ ∃ w ∈ q.waits, w.joins = true ∧ w.fut = f ∧ q.futs f = .pending) ∧
      ∀ f ∈ released, q'.futs f = .resolved := by
  set pending := q.joinWaiters.filter fun fut => q.futs fut = .pending with hpending
  refine ⟨releaseJoiners { q with unfinished := 0, done := q.done + 1 }, pending, ?_, rfl, rfl, ?_,
    ?_, ?_⟩
  · simp [taskDone, hlast]
  · exact h.inOrder.sublist List.filter_sublist
  · intro f
    rw [hpending, List.mem_filter, decide_eq_true_iff]
    constructor
    · rintro ⟨hmem, hf⟩
      obtain ⟨w, hw, hjoins, rfl⟩ := h.joining.owned f hmem
      exact ⟨w, hw, hjoins, rfl, hf⟩
    · rintro ⟨w, hw, hjoins, rfl, hf⟩
      exact ⟨h.joining.queued w hw hjoins hf, hf⟩
  · exact fun f hf => if_pos hf

/-- Items come out in the order they went in, each once; the queue keeps to its bound; nobody waits
while it could proceed and nothing is about to wake it; and, as long as fewer than `2 ^ 63` items
are unfinished, the count is exact and joiners wait just until it is zero. -/
theorem queue_exact (maxsize : Int) (ops : List (Op α))
    (h : ∀ pre, pre <+: ops →
      ((queue maxsize).run pre).putItems.length < ((queue maxsize).run pre).done + 2 ^ 63) :
    let q := (queue maxsize).run ops
    q.putItems = q.gotItems ++ q.items ∧
      (0 < q.maxsize → (q.items.length : Int) ≤ q.maxsize) ∧
      q.unfinished = q.putItems.length - q.done ∧ 0 ≤ q.unfinished ∧
      (q.GetterWaits → q.items.length ≤ q.wokenGetters) ∧
      (q.PutterWaits → 0 < q.maxsize ∧ q.maxsize - q.items.length ≤ q.wokenPutters) ∧
      (q.JoinerWaits → 0 < q.unfinished) ∧
      (q.unfinished = 1 → ∃ q' released, taskDone q = .ok q' ∧ q'.unfinished = 0 ∧
        q'.wakes = q.wakes ++ released ∧ released.Pairwise (· < ·) ∧
        (∀ f, f ∈ released ↔ ∃ w ∈ q.waits, w.joins = true ∧ w.fut = f ∧ q.futs f = .pending) ∧
        ∀ f ∈ released, q'.futs f = .resolved) := by
  intro q
  have hsound : Sound q := run_sound maxsize ops
  have hcounted : Counted q := run_counted maxsize ops h
  refine ⟨hsound.fifo, hsound.bounded, hcounted.counted, hcounted.nonneg, hsound.counts.items,
    fun hwaits => ?_, hcounted.joins, taskDone_releases hsound⟩
  have hroom := hsound.counts.room hwaits
  omega

/-- One item waits for room, one join for the item before it, and both come to their turn. -/
theorem queue_exact_waiting :
    let ops : List (Op Nat) := [.put 1, .put 2, .join, .getNowait, .resume 0 false, .taskDone]
    (∀ pre, pre <+: ops →
      ((queue 1).run pre).putItems.length < ((queue 1).run pre).done + 2 ^ 63) ∧
      ((queue 1).run ops).putItems = ((queue 1).run ops).gotItems ++ ((queue 1).run ops).items := by
  intro ops
  have hshort : ∀ pre ∈ ops.inits, ((queue 1).run pre).putItems.length ≤ 2 := by
    simp only [ops]
    decide
  have h : ∀ pre, pre <+: ops →
      ((queue 1).run pre).putItems.length < ((queue 1).run pre).done + 2 ^ 63 := by
    intro pre hpre
    have := hshort pre ((List.mem_inits pre ops).mpr hpre)
    omega
  exact ⟨h, (queue_exact 1 ops h).1⟩

/-! ## 10. The counter's end -/

/-- Rounds of putting an item and getting it. -/
def rounds (n : Nat) : List (Op Nat) := (List.replicate n [.putNowait 0, .getNowait]).flatten

theorem run_rounds (n : Nat) :
    ((queue 0).run (rounds n)).items = [] ∧ ((queue 0).run (rounds n)).maxsize = 0 ∧
      ((queue 0).run (rounds n)).putItems.length = n ∧ ((queue 0).run (rounds n)).done = 0 := by
  induction n with
  | zero => exact ⟨rfl, rfl, rfl, rfl⟩
  | succ n ih =>
    obtain ⟨hitems, hmax, hput, hdone⟩ := ih
    have hsplit : rounds (n + 1) = rounds n ++ [.putNowait 0] ++ [.getNowait] := by
      simp [rounds, List.replicate_succ']
    rw [hsplit, Machine.run_concat, Machine.run_concat]
    set q := (queue 0).run (rounds n)
    have hroom : isFull q = false := by simp [isFull, hmax]
    simp [queue, step, putNowait, getNowait, getNow, hroom, putNow, wakeGetter, wakePutter, hitems,
      hmax, hput, hdone]

/-- After `2 ^ 63` puts the `i64` is below zero. -/
theorem count_not_exact_past_i64 :
    ¬ ∀ (maxsize : Int) (ops : List (Op Nat)),
      ((queue maxsize).run ops).unfinished =
        ((queue maxsize).run ops).putItems.length - ((queue maxsize).run ops).done := by
  intro h
  have hcount := h 0 (rounds (2 ^ 63))
  obtain ⟨-, -, hput, hdone⟩ := run_rounds (2 ^ 63)
  have hbound := i64_lt ((2 ^ 63 : Nat) - (0 : Nat))
  have hwrapped := run_wrapped 0 (rounds (2 ^ 63))
  rw [Wrapped, hput, hdone] at hwrapped
  rw [hput, hdone] at hcount
  omega

end Cadeloop.Pyshim.FastQueue
