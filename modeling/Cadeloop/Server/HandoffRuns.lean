import Cadeloop.Server.Handoff

/-!
# Every connection goes to one worker

Wherever the threads of the supervisor and its workers are, an accepted connection is in one place;
it went down one channel at most, in the order it was accepted, and STOP went behind all of them.
-/

namespace Cadeloop.Server.Handoff

open Cadeloop.Reasoning (Machine)
open Cadeloop.Reasoning.Fleet

/-! ## 1. Places -/

def Accepter.hand : Accepter → List Conn
  | .accepting => []
  | .holding c _ _ | .offering c _ _ _ | .waiting c _ | .waitOffering c _ _ => [c]

/-- The connection the writer has. -/
def Writer.hand : Writer → List Conn
  | .took item => item.toList
  | .sending c | .sent c _ => [c]
  | _ => []

def Writer.unsent : Writer → List Conn
  | .took item => item.toList
  | .sending c => [c]
  | _ => []

def Writer.justSent : Writer → List Conn
  | .sent c false => [c]
  | _ => []

namespace Worker

def queuedConns (w : Worker) : List Conn := w.outq.flatMap Option.toList

def holding (w : Worker) : List Conn := w.queuedConns ++ w.writer.hand

/-- What went down the channel. -/
def sent (w : Worker) : List Conn := w.frames.filterMap Frame.conn?

/-- What is to go down the channel, in its order. -/
def pending (w : Worker) : List Conn := w.writer.unsent ++ w.queuedConns

end Worker

/-- Where in the supervisor a connection can be. -/
def Pool.places (s : Pool) : List Conn :=
  s.accepter.hand ++ s.workers.flatMap Worker.holding ++ s.closed ++ s.abandoned

/-- The next connection to be queued. -/
def Pool.next (s : Pool) : Conn := s.accepter.hand.headD s.accepted

/-! ## 2. One worker -/

/-- What the supervisor's side of a worker may do in a step: nothing new is held, and what went down
the channel is closed behind it. -/
structure Moves (w w' : Worker) (d : Dropped) : Prop where
  held : ∀ c, w'.holding.count c + (d.closed.count c + d.abandoned.count c) = w.holding.count c
  sent : ∀ c, w'.sent.count c + w.writer.justSent.count c ≤
    w.sent.count c + (w'.writer.justSent.count c + d.closed.count c)
  order : (w'.sent ++ w'.pending).Sublist (w.sent ++ w.pending)

variable {w w' : Worker} {d : Dropped}

theorem Moves.of_same (hqueue : w'.queuedConns = w.queuedConns) (hwriter : w'.writer = w.writer)
    (hframes : w'.frames = w.frames) : Moves w w' .none := by
  have hsent : w'.sent = w.sent := by rw [Worker.sent, hframes, Worker.sent]
  refine ⟨fun c => ?_, fun c => ?_, ?_⟩
  · rw [Worker.holding, Worker.holding, hqueue, hwriter]
    rfl
  · rw [hsent, hwriter]
    exact Nat.le_refl _
  · rw [hsent, Worker.pending, Worker.pending, hqueue, hwriter]

theorem queuedConns_cons {item : Option Conn} {rest : List (Option Conn)} (h : w.outq = item :: rest) :
    w.queuedConns = item.toList ++ rest.flatMap Option.toList := by
  rw [Worker.queuedConns, h, List.flatMap_cons]

theorem sent_concat (w : Worker) (f : Frame) (writer : Writer) :
    ({ w with frames := w.frames ++ [f], writer } : Worker).sent = w.sent ++ f.conn?.toList := by
  rw [Worker.sent, List.filterMap_append, Worker.sent]
  cases f <;> rfl

theorem put_outq {item : Option Conn} (h : w.put item = some w') :
    w.outq.length < handoffQueue ∧ w' = { w with outq := w.outq ++ [item] } := by
  unfold Worker.put at h
  split at h
  · injection h with h
    exact ⟨‹_›, h.symm⟩
  · cases h

theorem wake_outq (w : Worker) : ∃ more, more.length ≤ 1 ∧ (∀ item ∈ more, item = none) ∧
    w.wake.outq = w.outq ++ more ∧ w.wake.outq ≠ [] := by
  unfold Worker.wake
  cases hput : w.put none with
  | none =>
    refine ⟨[], Nat.zero_le 1, fun _ hmem => absurd hmem List.not_mem_nil, (List.append_nil _).symm,
      ?_⟩
    intro hempty
    have hempty : w.outq = [] := hempty
    rw [Worker.put, hempty, if_pos (by decide)] at hput
    cases hput
  | some w' =>
    obtain ⟨-, rfl⟩ := put_outq hput
    exact ⟨[none], Nat.le_refl 1, by simp, rfl, by simp⟩

theorem wake_queuedConns (w : Worker) : w.wake.queuedConns = w.queuedConns := by
  obtain ⟨more, -, hnone, houtq, -⟩ := wake_outq w
  have hmore : more.flatMap Option.toList = [] := by
    rw [List.flatMap_eq_nil_iff]
    intro item hmem
    rw [hnone item hmem]
    rfl
  rw [Worker.queuedConns, houtq, List.flatMap_append, hmore, List.append_nil, Worker.queuedConns]

theorem wake_rest (w : Worker) : w.wake.writer = w.writer ∧ w.wake.frames = w.frames ∧
    w.wake.closing = w.closing ∧ w.wake.stopRequested = w.stopRequested ∧
    w.wake.process = w.process := by
  unfold Worker.wake
  cases hput : w.put none with
  | none => exact ⟨rfl, rfl, rfl, rfl, rfl⟩
  | some w' =>
    obtain ⟨-, rfl⟩ := put_outq hput
    exact ⟨rfl, rfl, rfl, rfl, rfl⟩

/-- The front of the queue let go. -/
theorem Moves.dropped {item : Option Conn} {rest : List (Option Conn)} (h : w.outq = item :: rest) :
    Moves w { w with outq := rest } ⟨item.toList, []⟩ := by
  have hqueue := queuedConns_cons h
  refine ⟨fun c => ?_, fun c => ?_, ?_⟩
  · rw [Worker.holding, Worker.holding, hqueue, List.count_append, List.count_append,
      List.count_append]
    show (rest.flatMap Option.toList).count c + _ + _ = _
    dsimp only
    rw [List.count_nil]
    omega
  · show w.sent.count c + w.writer.justSent.count c ≤ w.sent.count c + (w.writer.justSent.count c + _)
    omega
  · refine List.Sublist.append_left ?_ _
    rw [Worker.pending, Worker.pending, hqueue]
    refine List.Sublist.append_left ?_ _
    exact List.sublist_append_right _ _

theorem dropQueued_moves (h : w.dropQueued = some (w', d)) : Moves w w' d := by
  unfold Worker.dropQueued at h
  split at h
  · cases h
  · rename_i houtq
    injection h with h
    injection h with hw hd
    subst hw hd
    exact .dropped houtq

theorem get_moves (h : w.get = some w') : Moves w w' .none := by
  unfold Worker.get at h
  split at h
  · rename_i item rest hwriter houtq
    injection h with h
    subst h
    have hqueue := queuedConns_cons houtq
    refine ⟨fun c => ?_, fun c => ?_, ?_⟩
    · rw [Worker.holding, Worker.holding, hqueue, hwriter, List.count_append, List.count_append,
        List.count_append]
      show (rest.flatMap Option.toList).count c + item.toList.count c + (0 + 0) = _
      show _ = item.toList.count c + (rest.flatMap Option.toList).count c + 0
      omega
    · rw [hwriter]
      exact Nat.le_refl _
    · rw [Worker.pending, Worker.pending, hwriter, hqueue]
      exact List.Sublist.refl _
  · cases h

theorem look_moves (h : w.look = some (w', d)) : Moves w w' d := by
  unfold Worker.look at h
  split at h
  · rename_i item hwriter
    split at h
    · injection h with h
      injection h with hw hd
      subst hw hd
      refine ⟨fun c => ?_, fun c => ?_, ?_⟩
      · rw [Worker.holding, Worker.holding, hwriter, List.count_append, List.count_append]
        show w.queuedConns.count c + 0 + (0 + item.toList.count c) = _
        show _ = w.queuedConns.count c + item.toList.count c
        omega
      · rw [hwriter]
        exact Nat.le_refl _
      · refine List.Sublist.append_left ?_ _
        rw [Worker.pending, Worker.pending, hwriter]
        exact List.sublist_append_right _ _
    · cases item with
      | none | some c =>
        injection h with h
        injection h with hw hd
        subst hw hd
        refine ⟨fun c => ?_, fun c => ?_, ?_⟩
        · rw [Worker.holding, Worker.holding, hwriter]
          rfl
        · rw [hwriter]
          exact Nat.le_refl _
        · rw [Worker.pending, Worker.pending, hwriter]
          exact List.Sublist.refl _
  · cases h

theorem send_moves {ok : Bool} (h : w.send ok = some w') : Moves w w' .none := by
  unfold Worker.send at h
  split at h
  · rename_i c hwriter
    split at h
    · injection h with h
      subst h
      have hsent := sent_concat w (.conn c) (.sent c false)
      refine ⟨fun x => ?_, fun x => ?_, ?_⟩
      · rw [Worker.holding, Worker.holding, hwriter]
        rfl
      · rw [hsent, hwriter, List.count_append]
        show w.sent.count x + [c].count x + 0 ≤ w.sent.count x + ([c].count x + 0)
        omega
      · rw [hsent, Worker.pending, Worker.pending, hwriter, List.append_assoc]
        exact List.Sublist.refl _
    · injection h with h
      subst h
      refine ⟨fun x => ?_, fun x => ?_, ?_⟩
      · rw [Worker.holding, Worker.holding, hwriter]
        rfl
      · rw [hwriter]
        exact Nat.le_refl _
      · refine List.Sublist.append_left ?_ _
        rw [Worker.pending, Worker.pending, hwriter]
        exact List.sublist_append_right _ _
  · cases h

theorem closeConn_moves (h : w.closeConn = some (w', d)) : Moves w w' d := by
  unfold Worker.closeConn at h
  split at h
  · rename_i c failed hwriter
    have hheld : ∀ x, w.holding.count x = w.queuedConns.count x + [c].count x := by
      intro x
      rw [Worker.holding, hwriter, List.count_append]
      rfl
    have hpending : w.pending = w.queuedConns := by
      rw [Worker.pending, hwriter]
      rfl
    have hjust : ∀ x, w.writer.justSent.count x ≤ [c].count x := by
      intro x
      rw [hwriter]
      cases failed with
      | false => exact Nat.le_refl _
      | true => exact Nat.zero_le _
    have hmoves : ∀ w' : Worker, w'.queuedConns = w.queuedConns → w'.frames = w.frames →
        w'.writer.hand = [] → w'.writer.unsent = [] → Moves w w' ⟨[c], []⟩ := by
      intro w' hqueue hframes hhand hunsent
      have hsent : w'.sent = w.sent := by rw [Worker.sent, hframes, Worker.sent]
      refine ⟨fun x => ?_, fun x => ?_, ?_⟩
      · rw [hheld, Worker.holding, hqueue, hhand, List.append_nil]
        rfl
      · rw [hsent]
        have hx := hjust x
        show w.sent.count x + _ ≤ w.sent.count x + (_ + [c].count x)
        omega
      · rw [hsent, hpending, Worker.pending, hqueue, hunsent, List.nil_append]
    split at h
    · injection h with h
      injection h with hw hd
      subst hw hd
      exact hmoves _ rfl rfl rfl rfl
    · injection h with h
      injection h with hw hd
      subst hw hd
      exact hmoves _ rfl rfl rfl rfl
  · cases h

theorem check_moves (h : w.check = some w') : Moves w w' .none := by
  unfold Worker.check at h
  split at h
  · rename_i hwriter
    have hmoves : ∀ writer : Writer, writer.hand = [] → writer.unsent = [] → writer.justSent = [] →
        Moves w { w with writer } .none := by
      intro writer hhand hunsent hjust
      refine ⟨fun c => ?_, fun c => ?_, ?_⟩
      · rw [Worker.holding, Worker.holding, hwriter]
        show (w.queuedConns ++ writer.hand).count c + 0 = _
        rw [hhand]
        rfl
      · rw [hwriter]
        exact Nat.le_add_right _ _
      · rw [Worker.pending, Worker.pending, hwriter]
        show (w.sent ++ (writer.unsent ++ w.queuedConns)).Sublist _
        rw [hunsent]
        exact List.Sublist.refl _
    split at h
    · injection h with h
      subst h
      exact hmoves _ rfl rfl rfl
    · injection h with h
      subst h
      exact hmoves _ rfl rfl rfl
  · cases h

theorem sendStop_moves {ok : Bool} (h : w.sendStop ok = some w') : Moves w w' .none := by
  unfold Worker.sendStop at h
  split at h
  · rename_i hwriter
    have hmoves : ∀ w' : Worker, w'.queuedConns = w.queuedConns → w'.writer = .dropping →
        w'.sent = w.sent → Moves w w' .none := by
      intro w' hqueue hdropping hsent
      refine ⟨fun c => ?_, fun c => ?_, ?_⟩
      · rw [Worker.holding, Worker.holding, hqueue, hwriter, hdropping]
        rfl
      · rw [hsent, hwriter, hdropping]
        exact Nat.le_refl _
      · rw [hsent, Worker.pending, Worker.pending, hqueue, hwriter, hdropping]
        exact List.Sublist.refl _
    split at h
    · injection h with h
      subst h
      refine hmoves _ rfl rfl ?_
      rw [sent_concat, Frame.conn?, Option.toList_none, List.append_nil]
    · injection h with h
      subst h
      exact hmoves _ rfl rfl rfl
  · cases h

theorem drop_moves (h : w.drop = some (w', d)) : Moves w w' d := by
  unfold Worker.drop at h
  split at h
  · rename_i hwriter
    split at h
    · rename_i houtq
      injection h with h
      injection h with hw hd
      subst hw hd
      refine ⟨fun c => ?_, fun c => ?_, ?_⟩
      · rw [Worker.holding, Worker.holding, hwriter]
        rfl
      · rw [hwriter]
        exact Nat.le_refl _
      · rw [Worker.pending, Worker.pending, hwriter]
        exact List.Sublist.refl _
    · rename_i houtq
      injection h with h
      injection h with hw hd
      subst hw hd
      exact .dropped houtq
  · cases h

theorem kept_eq {o : Option Worker} (h : o.map Worker.kept = some (w', d)) :
    o = some w' ∧ d = .none := by
  cases o with
  | none => cases h
  | some w =>
    injection h with h
    injection h with hw hd
    rw [hw]
    exact ⟨rfl, hd.symm⟩

theorem keptProcess_eq {o : Option Process}
    (h : (o.map fun p => { w with process := p }.kept) = some (w', d)) :
    ∃ p, o = some p ∧ w' = { w with process := p } ∧ d = .none := by
  cases o with
  | none => cases h
  | some p =>
    injection h with h
    injection h with hw hd
    exact ⟨p, rfl, hw.symm, hd.symm⟩

theorem step_moves {event : WorkerEvent} (h : w.step event = some (w', d)) : Moves w w' d := by
  have hkeep : ∀ {v : Worker}, some v.kept = some (w', d) → v = w' ∧ d = .none := by
    intro v hv
    injection hv with hv
    injection hv with hw hd
    exact ⟨hw, hd.symm⟩
  cases event with
  | requestStop =>
    obtain ⟨rfl, rfl⟩ := hkeep h
    exact .of_same rfl rfl rfl
  | wake =>
    obtain ⟨rfl, rfl⟩ := hkeep h
    exact .of_same (wake_queuedConns w) (wake_rest w).1 (wake_rest w).2.1
  | close =>
    obtain ⟨rfl, rfl⟩ := hkeep h
    exact .of_same rfl rfl rfl
  | dropQueued =>
    rw [Worker.step] at h
    split at h
    · exact dropQueued_moves h
    · cases h
  | get =>
    obtain ⟨hsome, rfl⟩ := kept_eq h
    exact get_moves hsome
  | look => exact look_moves h
  | send ok =>
    obtain ⟨hsome, rfl⟩ := kept_eq h
    exact send_moves hsome
  | closeConn => exact closeConn_moves h
  | check =>
    obtain ⟨hsome, rfl⟩ := kept_eq h
    exact check_moves hsome
  | sendStop ok =>
    obtain ⟨hsome, rfl⟩ := kept_eq h
    exact sendStop_moves hsome
  | drop => exact drop_moves h
  | recv made =>
    obtain ⟨p, -, rfl, rfl⟩ := keptProcess_eq h
    exact .of_same rfl rfl rfl
  | eof =>
    obtain ⟨rfl, rfl⟩ := hkeep h
    exact .of_same rfl rfl rfl
  | adopt ok =>
    obtain ⟨p, -, rfl, rfl⟩ := keptProcess_eq h
    exact .of_same rfl rfl rfl
  | closeLoop =>
    obtain ⟨rfl, rfl⟩ := hkeep h
    exact .of_same rfl rfl rfl

/-! ## 3. The channel and its ends -/

/-- The worker's process, seen from what it was sent. -/
structure Process.Sound (frames : List Frame) (p : Process) : Prop where
  read : p.read ≤ frames.length
  -- every connection is met once, in order
  served : (p.adopted ++ p.queued).Sublist ((frames.take p.read).filterMap Frame.conn?)
  slots : p.slots + p.queued.length ≤ maxPendingAdoptions

theorem Process.Sound.concat {frames : List Frame} {p : Process} (h : p.Sound frames) (f : Frame) :
    p.Sound (frames ++ [f]) := by
  refine ⟨?_, ?_, h.slots⟩
  · rw [List.length_append]
    exact Nat.le_add_right_of_le h.read
  · rw [List.take_append_of_le_length h.read]
    exact h.served

theorem Process.Sound.recv {frames : List Frame} {p p' : Process} {made : Bool} (h : p.Sound frames)
    (hrecv : p.recv frames made = some p') : p'.Sound frames := by
  unfold Process.recv at hrecv
  split at hrecv
  · cases hrecv
  have htake : ∀ {f : Frame}, frames[p.read]? = some f →
      p.read + 1 ≤ frames.length ∧ (frames.take (p.read + 1)).filterMap Frame.conn? =
        (frames.take p.read).filterMap Frame.conn? ++ f.conn?.toList := by
    intro f hf
    obtain ⟨hlt, heq⟩ := List.getElem?_eq_some_iff.mp hf
    refine ⟨hlt, ?_⟩
    rw [← List.take_concat_get' frames p.read hlt, List.filterMap_append, heq]
    cases f <;> rfl
  -- a frame read without a connection queued
  have hskip : ∀ {f : Frame} (shut : List Conn) (pumping : Bool), frames[p.read]? = some f →
      ({ p with read := p.read + 1, shut, pumping } : Process).Sound frames := by
    intro f shut pumping hf
    obtain ⟨hread, hconns⟩ := htake hf
    refine ⟨hread, ?_, h.slots⟩
    show (p.adopted ++ p.queued).Sublist _
    rw [hconns]
    exact h.served.trans (List.sublist_append_left _ _)
  split at hrecv
  · cases hrecv
  · rename_i hf
    injection hrecv with hrecv
    subst hrecv
    exact hskip p.shut false hf
  · rename_i c hf
    split at hrecv
    · injection hrecv with hrecv
      subst hrecv
      exact hskip _ p.pumping hf
    split at hrecv
    · injection hrecv with hrecv
      subst hrecv
      exact hskip _ false hf
    · rename_i hslots _
      injection hrecv with hrecv
      subst hrecv
      obtain ⟨hread, hconns⟩ := htake hf
      refine ⟨hread, ?_, ?_⟩
      · show (p.adopted ++ (p.queued ++ [c])).Sublist _
        rw [hconns, ← List.append_assoc]
        exact List.Sublist.append_right h.served _
      · have hslots' := h.slots
        have hne : p.slots ≠ 0 := fun hzero => hslots (.inr hzero)
        show p.slots - 1 + (p.queued ++ [c]).length ≤ maxPendingAdoptions
        rw [List.length_append, List.length_singleton]
        omega

theorem Process.Sound.adopt {frames : List Frame} {p p' : Process} {ok : Bool} (h : p.Sound frames)
    (hadopt : p.adopt ok = some p') : p'.Sound frames := by
  unfold Process.adopt at hadopt
  split at hadopt
  · cases hadopt
  rename_i c rest hqueued
  have hserved := h.served
  have hslots := h.slots
  rw [hqueued] at hserved hslots
  rw [List.length_cons] at hslots
  split at hadopt
  · injection hadopt with hadopt
    subst hadopt
    refine ⟨h.read, ?_, ?_⟩
    · show (p.adopted ++ [c] ++ rest).Sublist _
      rw [List.append_assoc]
      exact hserved
    · show p.slots + 1 + rest.length ≤ maxPendingAdoptions
      omega
  · injection hadopt with hadopt
    subst hadopt
    refine ⟨h.read, ?_, ?_⟩
    · exact (List.Sublist.append_left (List.sublist_cons_self c rest) _).trans hserved
    · show p.slots + 1 + rest.length ≤ maxPendingAdoptions
      omega

theorem Process.Sound.closeLoop {frames : List Frame} {p : Process} (h : p.Sound frames) :
    p.closeLoop.Sound frames := by
  refine ⟨h.read, ?_, ?_⟩
  · show (p.adopted ++ []).Sublist _
    rw [List.append_nil]
    exact (List.sublist_append_left _ _).trans h.served
  · have hslots := h.slots
    show p.slots + 0 ≤ maxPendingAdoptions
    omega

/-- STOP ends the channel. -/
structure Worker.Sound (w : Worker) : Prop where
  room : w.outq.length ≤ handoffQueue
  order : (w.sent ++ w.pending).Pairwise (· < ·)
  stops : .stop ∈ w.frames → w.writer = .dropping ∨ w.writer = .returned
  last : .stop ∉ w.frames.dropLast
  asked : w.stopAsked = true → w.stopRequested = true
  -- asked to stop, the writer does not sleep
  awake : w.stopAsked = true → w.closing = false → w.writer = .getting → w.outq ≠ []
  process : w.process.Sound w.frames

namespace Worker.Sound

theorem new : Worker.new.Sound where
  room := Nat.zero_le _
  order := List.Pairwise.nil
  stops hmem := absurd hmem List.not_mem_nil
  last := List.not_mem_nil
  asked h := by cases h
  awake h := by cases h
  process := ⟨Nat.le_refl _, List.Sublist.refl _, Nat.le_refl _⟩

/-- A step of the writer that sends nothing. -/
theorem advance (h : w.Sound) (hmoves : Moves w w' d) (houtq : w'.outq.Sublist w.outq)
    (hframes : w'.frames = w.frames) (hprocess : w'.process = w.process)
    (hasked : w'.stopAsked = w.stopAsked) (hrequested : w'.stopRequested = w.stopRequested)
    (hended : w.writer = .dropping ∨ w.writer = .returned →
      w'.writer = .dropping ∨ w'.writer = .returned)
    (hawake : w'.stopAsked = true → w'.closing = false → w'.writer = .getting → w'.outq ≠ []) :
    w'.Sound where
  room := houtq.length_le.trans h.room
  order := h.order.sublist hmoves.order
  stops hmem := by
    rw [hframes] at hmem
    exact hended (h.stops hmem)
  last := by
    rw [hframes]
    exact h.last
  asked hs := by
    rw [hasked] at hs
    rw [hrequested]
    exact h.asked hs
  awake := hawake
  process := by
    rw [hframes, hprocess]
    exact h.process

/-- A step of the worker's process. -/
theorem received (h : w.Sound) {p : Process} (hp : p.Sound w.frames) :
    ({ w with process := p } : Worker).Sound :=
  ⟨h.room, h.order, h.stops, h.last, h.asked, h.awake, hp⟩

/-- A frame sent by a writer that had not sent STOP. -/
theorem sends (h : w.Sound) (hmoves : Moves w w' d) {f : Frame} (houtq : w'.outq = w.outq)
    (hframes : w'.frames = w.frames ++ [f]) (hprocess : w'.process = w.process)
    (hasked : w'.stopAsked = w.stopAsked) (hrequested : w'.stopRequested = w.stopRequested)
    (hrunning : w.writer ≠ .dropping ∧ w.writer ≠ .returned) (hwriter : w'.writer ≠ .getting)
    (hends : f = .stop → w'.writer = .dropping) : w'.Sound := by
  have hnone : Frame.stop ∉ w.frames := by
    intro hmem
    rcases h.stops hmem with hdropping | hreturned
    · exact hrunning.1 hdropping
    · exact hrunning.2 hreturned
  refine ⟨?_, h.order.sublist hmoves.order, fun hmem => ?_, ?_, fun hs => ?_, ?_, ?_⟩
  · rw [houtq]
    exact h.room
  · rw [hframes] at hmem
    rcases List.mem_append.mp hmem with hold | hnew
    · exact absurd hold hnone
    · exact .inl (hends (List.mem_singleton.mp hnew).symm)
  · rw [hframes, List.dropLast_concat]
    exact hnone
  · rw [hasked] at hs
    rw [hrequested]
    exact h.asked hs
  · exact fun _ _ hgetting => absurd hgetting hwriter
  · rw [hframes, hprocess]
    exact h.process.concat f

theorem wake (h : w.Sound) : w.wake.Sound := by
  obtain ⟨hwriter, hframes, hclosing, hrequested, hprocess⟩ := wake_rest w
  have hmoves : Moves w w.wake .none := .of_same (wake_queuedConns w) hwriter hframes
  obtain ⟨-, -, -, -, hne⟩ := wake_outq w
  refine ⟨?_, h.order.sublist hmoves.order, ?_, ?_, fun hs => ?_, fun _ _ _ => hne, ?_⟩
  · unfold Worker.wake
    cases hput : w.put none with
    | none => exact h.room
    | some w' =>
      obtain ⟨hlt, rfl⟩ := put_outq hput
      show (w.outq ++ [none]).length ≤ handoffQueue
      rw [List.length_append, List.length_singleton]
      exact hlt
  · rw [hframes, hwriter]
    exact h.stops
  · rw [hframes]
    exact h.last
  · have hs : (w.stopAsked || w.stopRequested) = true := hs
    rw [hrequested]
    rcases Bool.or_eq_true _ _ ▸ hs with hasked | hflag
    · exact h.asked hasked
    · exact hflag
  · rw [hframes, hprocess]
    exact h.process

theorem get (h : w.Sound) (hget : w.get = some w') : w'.Sound := by
  have hmoves := get_moves hget
  unfold Worker.get at hget
  split at hget
  · rename_i item rest hwriter houtq
    injection hget with hget
    subst hget
    refine h.advance hmoves ?_ rfl rfl rfl rfl (fun hended => ?_) fun _ _ hgetting => by cases hgetting
    · rw [houtq]
      exact List.sublist_cons_self item rest
    · rw [hwriter] at hended
      rcases hended with heq | heq <;> cases heq
  · cases hget

theorem look (h : w.Sound) (hlook : w.look = some (w', d)) : w'.Sound := by
  have hmoves := look_moves hlook
  unfold Worker.look at hlook
  split at hlook
  · rename_i item hwriter
    have hrunning : ∀ v : Worker, w.writer = .dropping ∨ w.writer = .returned →
        v.writer = .dropping ∨ v.writer = .returned := by
      intro v hended
      rw [hwriter] at hended
      rcases hended with heq | heq <;> cases heq
    split at hlook
    · injection hlook with hlook
      injection hlook with hw hd
      subst hw hd
      exact h.advance hmoves (List.Sublist.refl _) rfl rfl rfl rfl (hrunning _)
        fun _ _ hgetting => by cases hgetting
    · cases item with
      | none | some c =>
        injection hlook with hlook
        injection hlook with hw hd
        subst hw hd
        exact h.advance hmoves (List.Sublist.refl _) rfl rfl rfl rfl (hrunning _)
          fun _ _ hgetting => by cases hgetting
  · cases hlook

theorem send (h : w.Sound) {ok : Bool} (hsend : w.send ok = some w') : w'.Sound := by
  have hmoves := send_moves hsend
  unfold Worker.send at hsend
  split at hsend
  · rename_i c hwriter
    have hrunning : w.writer ≠ .dropping ∧ w.writer ≠ .returned := by
      rw [hwriter]
      exact ⟨(fun heq => by cases heq), (fun heq => by cases heq)⟩
    split at hsend
    · injection hsend with hsend
      subst hsend
      exact h.sends hmoves rfl rfl rfl rfl rfl hrunning (fun heq => by cases heq)
        fun heq => by cases heq
    · injection hsend with hsend
      subst hsend
      refine h.advance hmoves (List.Sublist.refl _) rfl rfl rfl rfl (fun hended => ?_)
        fun _ _ hgetting => by cases hgetting
      rcases hended with heq | heq
      · exact absurd heq hrunning.1
      · exact absurd heq hrunning.2
  · cases hsend

theorem closeConn (h : w.Sound) (hclose : w.closeConn = some (w', d)) : w'.Sound := by
  have hmoves := closeConn_moves hclose
  unfold Worker.closeConn at hclose
  split at hclose
  · rename_i c failed hwriter
    have hrunning : ∀ v : Worker, w.writer = .dropping ∨ w.writer = .returned →
        v.writer = .dropping ∨ v.writer = .returned := by
      intro v hended
      rw [hwriter] at hended
      rcases hended with heq | heq <;> cases heq
    split at hclose
    · injection hclose with hclose
      injection hclose with hw hd
      subst hw hd
      exact h.advance hmoves (List.Sublist.refl _) rfl rfl rfl rfl (hrunning _)
        fun _ _ hgetting => by cases hgetting
    · injection hclose with hclose
      injection hclose with hw hd
      subst hw hd
      exact h.advance hmoves (List.Sublist.refl _) rfl rfl rfl rfl (hrunning _)
        fun _ _ hgetting => by cases hgetting
  · cases hclose

/-- Asked to stop, it goes back to sleep on an empty queue no more. -/
theorem check (h : w.Sound) (hcheck : w.check = some w') : w'.Sound := by
  have hmoves := check_moves hcheck
  unfold Worker.check at hcheck
  split at hcheck
  · rename_i hwriter
    have hrunning : ∀ v : Worker, w.writer = .dropping ∨ w.writer = .returned →
        v.writer = .dropping ∨ v.writer = .returned := by
      intro v hended
      rw [hwriter] at hended
      rcases hended with heq | heq <;> cases heq
    split at hcheck
    · injection hcheck with hcheck
      subst hcheck
      exact h.advance hmoves (List.Sublist.refl _) rfl rfl rfl rfl (hrunning _)
        fun _ _ hgetting => by cases hgetting
    · rename_i hempty
      injection hcheck with hcheck
      subst hcheck
      refine h.advance hmoves (List.Sublist.refl _) rfl rfl rfl rfl (hrunning _) ?_
      intro hasked _ _ hnone
      apply hempty
      have hasked : w.stopAsked = true := hasked
      have hnone : w.outq = [] := hnone
      rw [h.asked hasked, hnone]
      rfl
  · cases hcheck

theorem sendStop (h : w.Sound) {ok : Bool} (hsend : w.sendStop ok = some w') : w'.Sound := by
  have hmoves := sendStop_moves hsend
  unfold Worker.sendStop at hsend
  split at hsend
  · rename_i hwriter
    split at hsend
    · injection hsend with hsend
      subst hsend
      refine h.sends hmoves rfl rfl rfl rfl rfl ?_ (fun heq => by cases heq) fun _ => rfl
      rw [hwriter]
      exact ⟨(fun heq => by cases heq), (fun heq => by cases heq)⟩
    · injection hsend with hsend
      subst hsend
      exact h.advance hmoves (List.Sublist.refl _) rfl rfl rfl rfl (fun _ => .inl rfl)
        fun _ _ hgetting => by cases hgetting
  · cases hsend

theorem drop (h : w.Sound) (hdrop : w.drop = some (w', d)) : w'.Sound := by
  have hmoves := drop_moves hdrop
  unfold Worker.drop at hdrop
  split at hdrop
  · rename_i hwriter
    split at hdrop
    · injection hdrop with hdrop
      injection hdrop with hw hd
      subst hw hd
      exact h.advance hmoves (List.Sublist.refl _) rfl rfl rfl rfl (fun _ => .inr rfl)
        fun _ _ hgetting => by cases hgetting
    · rename_i item rest houtq
      injection hdrop with hdrop
      injection hdrop with hw hd
      subst hw hd
      refine h.advance hmoves ?_ rfl rfl rfl rfl id fun _ _ hgetting => ?_
      · rw [houtq]
        exact List.sublist_cons_self item rest
      · rw [show w.writer = .getting from hgetting] at hwriter
        cases hwriter
  · cases hdrop

theorem dropQueued (h : w.Sound) (hclosing : w.closing = true)
    (hdrop : w.dropQueued = some (w', d)) : w'.Sound := by
  have hmoves := dropQueued_moves hdrop
  unfold Worker.dropQueued at hdrop
  split at hdrop
  · cases hdrop
  · rename_i item rest houtq
    injection hdrop with hdrop
    injection hdrop with hw hd
    subst hw hd
    refine h.advance hmoves ?_ rfl rfl rfl rfl id fun _ hopen _ => ?_
    · rw [houtq]
      exact List.sublist_cons_self item rest
    · rw [show w.closing = false from hopen] at hclosing
      cases hclosing

theorem step (h : w.Sound) {event : WorkerEvent} (hstep : w.step event = some (w', d)) :
    w'.Sound := by
  have hkeep : ∀ {v : Worker}, some v.kept = some (w', d) → v = w' := by
    intro v hv
    injection hv with hv
    injection hv with hw _
  cases event with
  | requestStop =>
    obtain rfl := hkeep hstep
    exact ⟨h.room, h.order, h.stops, h.last, fun _ => rfl, h.awake, h.process⟩
  | wake =>
    obtain rfl := hkeep hstep
    exact h.wake
  | close =>
    obtain rfl := hkeep hstep
    exact ⟨h.room, h.order, h.stops, h.last, h.asked, (fun _ hopen => by cases hopen), h.process⟩
  | dropQueued =>
    rw [Worker.step] at hstep
    split at hstep
    · exact h.dropQueued ‹_› hstep
    · cases hstep
  | get => exact h.get (kept_eq hstep).1
  | look => exact h.look hstep
  | send ok => exact h.send (kept_eq hstep).1
  | closeConn => exact h.closeConn hstep
  | check => exact h.check (kept_eq hstep).1
  | sendStop ok => exact h.sendStop (kept_eq hstep).1
  | drop => exact h.drop hstep
  | recv made =>
    obtain ⟨p, hp, rfl, -⟩ := keptProcess_eq hstep
    exact h.received (h.process.recv hp)
  | eof =>
    obtain rfl := hkeep hstep
    exact h.received ⟨h.process.read, h.process.served, h.process.slots⟩
  | adopt ok =>
    obtain ⟨p, hp, rfl, -⟩ := keptProcess_eq hstep
    exact h.received (h.process.adopt hp)
  | closeLoop =>
    obtain rfl := hkeep hstep
    exact h.received h.process.closeLoop

/-- A connection younger than all before it, queued. -/
theorem put (h : w.Sound) {c : Conn} (hold : ∀ x ∈ w.sent ++ w.pending, x < c)
    (hput : w.put (some c) = some w') : w'.Sound := by
  obtain ⟨hlt, rfl⟩ := put_outq hput
  refine ⟨?_, ?_, h.stops, h.last, h.asked, fun _ _ _ => by simp, h.process⟩
  · show (w.outq ++ [some c]).length ≤ handoffQueue
    rw [List.length_append, List.length_singleton]
    exact hlt
  · have hpending : ({ w with outq := w.outq ++ [some c] } : Worker).pending = w.pending ++ [c] := by
      rw [Worker.pending, Worker.pending, Worker.queuedConns, List.flatMap_append, List.append_assoc]
      rfl
    show (w.sent ++ _).Pairwise _
    rw [hpending, ← List.append_assoc]
    refine List.pairwise_append.mpr ⟨h.order, List.pairwise_singleton _ _, ?_⟩
    intro x hx y hy
    rw [List.mem_singleton.mp hy]
    exact hold x hx

end Worker.Sound

/-! ## 4. The pool -/

structure Pool.Sound (s : Pool) : Prop where
  workers : ∀ w ∈ s.workers, w.Sound
  -- every connection accepted is in one place
  placed : ∀ c, s.places.count c = (List.range s.accepted).count c
  -- what went down a channel was closed here, or its writer is about to
  sent : ∀ c, (s.workers.flatMap Worker.sent).count c ≤
    s.closed.count c + (s.workers.flatMap (·.writer.justSent)).count c
  older : ∀ w ∈ s.workers, ∀ c ∈ w.sent ++ w.pending, c < s.next
  held : ∀ c ∈ s.accepter.hand, c + 1 = s.accepted

theorem Pool.places_count (s : Pool) (c : Conn) : s.places.count c =
    s.accepter.hand.count c + (s.workers.flatMap Worker.holding).count c + s.closed.count c +
      s.abandoned.count c := by
  rw [Pool.places, List.count_append, List.count_append, List.count_append]

namespace Pool.Sound

variable {s s' : Pool}

theorem new : Pool.new.Sound where
  workers _ hw := absurd hw List.not_mem_nil
  placed _ := rfl
  sent _ := Nat.le_refl _
  older _ hw := absurd hw List.not_mem_nil
  held _ hc := absurd hc List.not_mem_nil

theorem spawn (h : s.Sound) : ({ s with workers := s.workers ++ [.new] } : Pool).Sound := by
  have hnil : ∀ f : Worker → List Conn, f .new = [] →
      (s.workers ++ [Worker.new]).flatMap f = s.workers.flatMap f := by
    intro f hf
    rw [List.flatMap_append, List.flatMap_singleton, hf, List.append_nil]
  refine ⟨forall_concat h.workers .new, fun c => ?_, fun c => ?_, ?_, h.held⟩
  · rw [places_count, hnil Worker.holding rfl, ← h.placed c, places_count]
  · rw [hnil Worker.sent rfl, hnil (·.writer.justSent) rfl]
    exact h.sent c
  · exact forall_concat h.older fun c hc => absurd hc List.not_mem_nil

/-- A worker takes a step. -/
theorem worker (h : s.Sound) {i : Nat} {w w' : Worker} {d : Dropped} (hw : s.workers[i]? = some w)
    (hsound : w'.Sound) (hmoves : Moves w w' d) :
    ({ s with workers := s.workers.set i w', closed := s.closed ++ d.closed
              abandoned := s.abandoned ++ d.abandoned } : Pool).Sound := by
  refine ⟨forall_set h.workers hsound, fun c => ?_, fun c => ?_, ?_, h.held⟩
  · have hplaced := h.placed c
    have hheld := hmoves.held c
    have hset := count_flatMap_set hw Worker.holding w' c
    rw [places_count] at hplaced
    rw [places_count, List.count_append, List.count_append]
    dsimp only
    omega
  · have hsent := h.sent c
    have hstep := hmoves.sent c
    have hset := count_flatMap_set hw Worker.sent w' c
    have hjust := count_flatMap_set hw (·.writer.justSent) w' c
    rw [List.count_append]
    dsimp only at hjust ⊢
    omega
  · refine forall_set h.older fun c hc => ?_
    exact h.older w (List.mem_of_getElem? hw) c (hmoves.order.mem hc)

/-- The accept thread goes on with what it has. -/
theorem goOn (h : s.Sound) (turn : Nat) {accepter : Accepter} (hhand : accepter.hand = s.accepter.hand) :
    ({ s with turn, accepter } : Pool).Sound := by
  refine ⟨h.workers, fun c => ?_, h.sent, ?_, ?_⟩
  · rw [places_count, hhand, ← places_count]
    exact h.placed c
  · show ∀ w ∈ s.workers, ∀ c ∈ w.sent ++ w.pending, c < accepter.hand.headD s.accepted
    rw [hhand]
    exact h.older
  · show ∀ c ∈ accepter.hand, c + 1 = s.accepted
    rw [hhand]
    exact h.held

theorem held_lt (h : s.Sound) {c : Conn} (hhand : s.accepter.hand = [c]) : c < s.accepted := by
  have hnext : c + 1 = s.accepted := h.held c (by rw [hhand]; exact List.mem_singleton_self c)
  exact hnext ▸ Nat.lt_succ_self c

/-- It closes what no worker took. -/
theorem letGo (h : s.Sound) {c : Conn} (hhand : s.accepter.hand = [c]) :
    ({ s with accepter := .accepting, closed := s.closed ++ [c] } : Pool).Sound := by
  have hnext : c < s.accepted := h.held_lt hhand
  refine ⟨h.workers, fun x => ?_, fun x => ?_, fun w hw x hx => ?_, fun x hx => absurd hx List.not_mem_nil⟩
  · have hplaced := h.placed x
    rw [places_count, hhand] at hplaced
    rw [places_count, List.count_append]
    dsimp only [Accepter.hand, List.count_nil]
    omega
  · have hsent := h.sent x
    rw [List.count_append]
    dsimp only
    omega
  · have hlt := h.older w hw x hx
    rw [Pool.next, hhand] at hlt
    exact Nat.lt_trans hlt hnext

theorem put (h : s.Sound) {c : Conn} {i : Nat} {refused : Accepter} (hhand : s.accepter.hand = [c])
    (hrefused : refused.hand = [c]) : (s.put c i refused).Sound := by
  have hkept : ({ s with accepter := refused } : Pool).Sound :=
    h.goOn s.turn (hrefused.trans hhand.symm)
  have hnext : c < s.accepted := h.held_lt hhand
  unfold Pool.put
  cases hw : s.workers[i]? with
  | none => exact hkept
  | some w =>
    dsimp only
    cases hput : w.put (some c) with
    | none => exact hkept
    | some w' =>
      have hmem := List.mem_of_getElem? hw
      have hold : ∀ v ∈ s.workers, ∀ x ∈ v.sent ++ v.pending, x < c := by
        intro v hv x hx
        have hlt := h.older v hv x hx
        rw [Pool.next, hhand] at hlt
        exact hlt
      have hsound := (h.workers w hmem).put (hold w hmem) hput
      obtain ⟨-, rfl⟩ := put_outq hput
      have hqueue : ({ w with outq := w.outq ++ [some c] } : Worker).queuedConns =
          w.queuedConns ++ [c] := by
        rw [Worker.queuedConns, Worker.queuedConns, List.flatMap_append]
        rfl
      refine ⟨forall_set h.workers hsound, fun x => ?_, fun x => ?_, ?_,
        fun x hx => absurd hx List.not_mem_nil⟩
      · have hplaced := h.placed x
        have hset := count_flatMap_set hw Worker.holding
          ({ w with outq := w.outq ++ [some c] } : Worker) x
        have hholding : ({ w with outq := w.outq ++ [some c] } : Worker).holding.count x =
            w.holding.count x + [c].count x := by
          rw [Worker.holding, hqueue, Worker.holding, List.count_append, List.count_append,
            List.count_append]
          dsimp only
          omega
        rw [places_count, hhand] at hplaced
        rw [places_count]
        dsimp only [Accepter.hand, List.count_nil]
        omega
      · have hset : ∀ f : Worker → List Conn, f { w with outq := w.outq ++ [some c] } = f w →
            ((s.workers.set i { w with outq := w.outq ++ [some c] }).flatMap f).count x =
              (s.workers.flatMap f).count x :=
          fun f hf => count_flatMap_set_same hw (by rw [hf])
        dsimp only
        rw [hset Worker.sent rfl, hset (·.writer.justSent) rfl]
        exact h.sent x
      · show ∀ v ∈ s.workers.set i _, ∀ x ∈ v.sent ++ v.pending, x < s.accepted
        refine forall_set (fun v hv x hx => ?_) fun x hx => ?_
        · exact Nat.lt_trans (hold v hv x hx) hnext
        · rw [Worker.pending, hqueue, ← List.append_assoc, ← List.append_assoc] at hx
          rcases List.mem_append.mp hx with hbefore | hnew
          · rw [List.append_assoc] at hbefore
            exact Nat.lt_trans (hold w hmem x hbefore) hnext
          · rw [List.mem_singleton.mp hnew]
            exact hnext

theorem distribute (h : s.Sound) (hstep : s.distribute = some s') : s'.Sound := by
  unfold Pool.distribute at hstep
  split at hstep
  · cases hstep
  · rename_i c live hat
    split at hstep
    · cases hstep
    · injection hstep with hstep
      subst hstep
      exact h.goOn s.turn (by rw [hat]; rfl)
  · rename_i c live rounds hat
    dsimp only at hstep
    split at hstep
    · injection hstep with hstep
      subst hstep
      exact h.goOn _ (by rw [hat]; rfl)
    · injection hstep with hstep
      subst hstep
      exact h.goOn _ (by rw [hat]; rfl)
  · rename_i c live rounds w hat
    injection hstep with hstep
    subst hstep
    exact h.put (by rw [hat]; rfl) rfl
  · rename_i c live hat
    dsimp only at hstep
    split at hstep
    · injection hstep with hstep
      subst hstep
      exact h.goOn _ (by rw [hat]; rfl)
    · injection hstep with hstep
      subst hstep
      exact h.goOn _ rfl
  · rename_i c live w hat
    injection hstep with hstep
    subst hstep
    exact h.put (by rw [hat]; rfl) rfl

theorem giveUp (h : s.Sound) (hstep : s.giveUp = some s') : s'.Sound := by
  unfold Pool.giveUp at hstep
  split at hstep
  · rename_i c hat
    injection hstep with hstep
    subst hstep
    exact h.letGo (by rw [hat]; rfl)
  · rename_i c live hat
    injection hstep with hstep
    subst hstep
    exact h.letGo (by rw [hat]; rfl)
  · cases hstep

theorem accept (h : s.Sound) (hat : s.accepter = .accepting) (live : List Nat) (rounds : Nat) :
    ({ s with accepter := .holding s.accepted live rounds, accepted := s.accepted + 1 } : Pool).Sound := by
  refine ⟨h.workers, fun c => ?_, h.sent, fun w hw c hc => ?_, fun c hc => ?_⟩
  · have hplaced := h.placed c
    rw [places_count, hat] at hplaced
    rw [places_count, List.range_succ, List.count_append, ← hplaced]
    dsimp only [Accepter.hand, List.count_nil]
    omega
  · have hlt := h.older w hw c hc
    rw [Pool.next, hat] at hlt
    exact hlt
  · rw [List.mem_singleton.mp hc]

theorem step (h : s.Sound) {event : Event} (hstep : s.step event = some s') : s'.Sound := by
  cases event with
  | spawn =>
    injection hstep with hstep
    subst hstep
    exact h.spawn
  | worker i event =>
    dsimp only [Pool.step] at hstep
    cases hw : s.workers[i]? with
    | none =>
      rw [hw] at hstep
      cases hstep
    | some w =>
      rw [hw] at hstep
      obtain ⟨⟨w', d⟩, hworker, rfl⟩ := Option.map_eq_some_iff.mp hstep
      exact h.worker hw ((h.workers w (List.mem_of_getElem? hw)).step hworker) (step_moves hworker)
  | accept live =>
    dsimp only [Pool.step] at hstep
    split at hstep
    · injection hstep with hstep
      subst hstep
      exact h.accept ‹_› live live.length
    · cases hstep
  | distribute => exact h.distribute hstep
  | giveUp => exact h.giveUp hstep

end Pool.Sound

theorem pool_sound (events : List Event) : (pool.run events).Sound := by
  refine pool.run_invariant .new (fun s event h => ?_) events
  show ((s.step event).getD s).Sound
  cases hstep : s.step event with
  | none => exact h
  | some s' => exact h.step hstep

theorem Writer.justSent_sublist (w : Writer) : w.justSent.Sublist w.hand := by
  cases w with
  | sent c failed =>
    cases failed with
    | false => exact List.Sublist.refl _
    | true => exact List.nil_sublist _
  | _ => exact List.nil_sublist _

/-- No connection is in two places, or went down two channels. -/
theorem Pool.Sound.sent_once {s : Pool} (h : s.Sound) (c : Conn) :
    (s.workers.flatMap Worker.sent).count c ≤ 1 := by
  have honce : s.places.count c ≤ 1 := by
    rw [h.placed c]
    exact List.nodup_iff_count_le_one.mp List.nodup_range c
  have hjust : (s.workers.flatMap (·.writer.justSent)).count c ≤
      (s.workers.flatMap Worker.holding).count c := by
    refine (sublist_flatMap fun w _ => ?_).count_le c
    exact w.writer.justSent_sublist.trans (List.sublist_append_right _ _)
  have hsent := h.sent c
  rw [places_count] at honce
  omega

/-! ## 5. What the pool does with a connection -/

/-- Wherever the threads are, every accepted connection is in one place in the supervisor: with the
accept thread, in one worker's queue, with its writer, or let go.  At most one worker was sent it,
each was sent its own in the order they were accepted, STOP is the last frame of a channel, and a
queue holds no more than its bound. -/
theorem handed_over (events : List Event) :
    (pool.run events).places.Perm (List.range (pool.run events).accepted) ∧
    ((pool.run events).workers.flatMap Worker.sent).Nodup ∧
    ∀ w ∈ (pool.run events).workers,
      (w.sent ++ w.pending).Pairwise (· < ·) ∧ Frame.stop ∉ w.frames.dropLast ∧
        w.outq.length ≤ handoffQueue := by
  have h := pool_sound events
  refine ⟨List.perm_iff_count.mpr h.placed, List.nodup_iff_count_le_one.mpr h.sent_once, ?_⟩
  intro w hw
  exact ⟨(h.workers w hw).order, (h.workers w hw).last, (h.workers w hw).room⟩

/-- No two adoptions anywhere are of one connection: a worker adopts only what it was sent, each once
and in that order, and holds no more than its bound for its loop. -/
theorem adopted_once (events : List Event) :
    ((pool.run events).workers.flatMap fun w => w.process.adopted ++ w.process.queued).Nodup ∧
    ∀ w ∈ (pool.run events).workers,
      (w.process.adopted ++ w.process.queued).Sublist w.sent ∧
        (w.process.adopted ++ w.process.queued).Pairwise (· < ·) ∧
        w.process.slots + w.process.queued.length ≤ maxPendingAdoptions := by
  have h := pool_sound events
  have hserved : ∀ w ∈ (pool.run events).workers,
      (w.process.adopted ++ w.process.queued).Sublist w.sent := by
    intro w hw
    refine (h.workers w hw).process.served.trans ?_
    exact (List.take_sublist _ _).filterMap Frame.conn?
  refine ⟨List.nodup_iff_count_le_one.mpr fun c => ?_, fun w hw => ⟨hserved w hw, ?_, ?_⟩⟩
  · exact ((sublist_flatMap hserved).count_le c).trans (h.sent_once c)
  · have hsent : w.sent.Pairwise (· < ·) := (List.pairwise_append.mp (h.workers w hw).order).1
    exact hsent.sublist (hserved w hw)
  · exact (h.workers w hw).process.slots

/-! ## 6. STOP behind the backlog -/

/-- The writer's next step, when its sends succeed. -/
def Writer.next : Writer → Option WorkerEvent
  | .getting => some .get
  | .took _ => some .look
  | .sending _ => some (.send true)
  | .sent _ _ => some .closeConn
  | .checking => some .check
  | .stopping => some (.sendStop true)
  | .dropping => some .drop
  | .returned => none

/-- The writer alone takes a step; it sleeps where it cannot. -/
def Worker.write (w : Worker) : Worker :=
  ((w.writer.next.bind w.step).map Prod.fst).getD w

/-- It has not come to send STOP, and nothing failed. -/
def Writer.running : Writer → Bool
  | .getting | .took _ | .sending _ | .sent _ false | .checking => true
  | _ => false

def Writer.left : Writer → Nat
  | .took _ => 4
  | .sending _ => 3
  | .sent _ _ => 2
  | .checking => 1
  | _ => 0

/-- Its steps until STOP, at most. -/
def Worker.left (w : Worker) : Nat := w.writer.left + 5 * w.outq.length

/-- What its channel will have carried before STOP. -/
def Worker.told (w : Worker) : List Frame := w.frames ++ w.pending.map Frame.conn

/-- Asked to stop, with the backlog still to go. -/
structure Worker.Finishing (w : Worker) : Prop where
  kept : w.closing = false
  asked : w.stopRequested = true
  running : w.writer.running = true
  awake : w.writer = .getting → w.outq ≠ []

/-- The backlog has gone, and STOP is next. -/
def Worker.Last (told : List Frame) (w : Worker) : Prop :=
  w.writer = .stopping ∧ w.outq = [] ∧ w.frames = told

theorem Worker.Finishing.write (h : w.Finishing) :
    w.write.Last w.told ∨ (w.write.Finishing ∧ w.write.told = w.told) ∧ w.write.left < w.left := by
  obtain ⟨outq, broken, stopRequested, stopAsked, closing, writer, frames, process⟩ := w
  obtain ⟨hkept, hasked, hrunning, hawake⟩ := h
  dsimp only at hkept hasked hrunning hawake
  subst hkept hasked
  cases writer with
  | getting =>
    cases outq with
    | nil => exact absurd rfl (hawake rfl)
    | cons item rest =>
      refine .inr ⟨⟨⟨rfl, rfl, rfl, fun heq => by cases heq⟩, rfl⟩, ?_⟩
      show 4 + 5 * rest.length < 0 + 5 * (rest.length + 1)
      omega
  | took item =>
    cases item with
    | none =>
      refine .inr ⟨⟨⟨rfl, rfl, rfl, fun heq => by cases heq⟩, rfl⟩, ?_⟩
      show 1 + 5 * outq.length < 4 + 5 * outq.length
      omega
    | some c =>
      refine .inr ⟨⟨⟨rfl, rfl, rfl, fun heq => by cases heq⟩, rfl⟩, ?_⟩
      show 3 + 5 * outq.length < 4 + 5 * outq.length
      omega
  | sending c =>
    refine .inr ⟨⟨⟨rfl, rfl, rfl, fun heq => by cases heq⟩, List.append_assoc _ _ _⟩, ?_⟩
    show 2 + 5 * outq.length < 3 + 5 * outq.length
    omega
  | sent c failed =>
    cases failed with
    | true => cases hrunning
    | false =>
      refine .inr ⟨⟨⟨rfl, rfl, rfl, fun heq => by cases heq⟩, rfl⟩, ?_⟩
      show 1 + 5 * outq.length < 2 + 5 * outq.length
      omega
  | checking =>
    cases outq with
    | nil => exact .inl ⟨rfl, rfl, (List.append_nil frames).symm⟩
    | cons item rest =>
      refine .inr ⟨⟨⟨rfl, rfl, rfl, fun _ => List.cons_ne_nil item rest⟩, rfl⟩, ?_⟩
      show 0 + 5 * (rest.length + 1) < 1 + 5 * (rest.length + 1)
      omega
  | stopping | dropping | returned => cases hrunning

/-- STOP goes, and the writer returns with nothing left to drop. -/
theorem Worker.Last.write {told : List Frame} (h : w.Last told) :
    (write^[2] w).frames = told ++ [.stop] ∧ (write^[2] w).writer = .returned ∧
      (write^[2] w).outq = [] := by
  obtain ⟨outq, broken, stopRequested, stopAsked, closing, writer, frames, process⟩ := w
  obtain ⟨rfl, rfl, rfl⟩ := h
  exact ⟨rfl, rfl, rfl⟩

/-- Two connections are handed to the one worker, and it is asked to stop while the first is sent. -/
def askedMidway : List Event :=
  [.spawn, .accept [0], .distribute, .distribute, .accept [0], .distribute, .distribute,
    .worker 0 .get, .worker 0 .look, .worker 0 .requestStop, .worker 0 .wake]

end Cadeloop.Server.Handoff
