import Cadeloop.Pyshim.WsInbox

/-!
# Runs of a WebSocket's `receive()` calls

Any number of calls at once, awaited, cancelled or dropped in any order.  No message is lost or
returned twice, whatever happens.  That the inbox keeps its order, and that nobody stays parked
beside a message, takes two conditions on what destructors do; both fail without them.
-/

namespace Cadeloop.Pyshim.Http

open Core.Ws Cadeloop.Reasoning

/-! ## 1. Where a message is -/

/-- Every message that arrived is in the inbox, with a result object, or returned. -/
structure Accounted (s : Receiving) : Prop where
  here : s.peer = .here
  numbered : s.arrived.map Arrival.seq = List.range s.arrived.length
  kept : (s.inbox ++ s.unawaited ++ s.returned).Perm s.arrived

/-- A step that brings nothing and moves messages between the three. -/
theorem Accounted.moved {s s' : Receiving} (h : Accounted s) (hpeer : s'.peer = s.peer)
    (harrived : s'.arrived = s.arrived)
    (hmoved : (s'.inbox ++ s'.unawaited ++ s'.returned).Perm
      (s.inbox ++ s.unawaited ++ s.returned)) : Accounted s' where
  here := hpeer ▸ h.here
  numbered := harrived ▸ h.numbered
  kept := harrived ▸ hmoved.trans h.kept

theorem wakeWaiters_accounted {s : Receiving} (h : Accounted s) : Accounted (wakeWaiters s) :=
  h.moved rfl rfl (List.Perm.refl _)

theorem pushMsg_accounted {s : Receiving} (charged : Bool) (msg : WsMsg) (h : Accounted s) :
    Accounted (pushMsg charged msg s) where
  here := h.here
  numbered := by
    show (s.arrived ++ [_]).map Arrival.seq = List.range (s.arrived ++ [_]).length
    rw [List.map_append, h.numbered, List.length_append, List.length_singleton, List.range_succ]
    rfl
  kept := by
    have hkept := h.kept
    refine List.perm_iff_count.mpr fun m => ?_
    have hcount := List.perm_iff_count.mp hkept m
    simp only [pushMsg, Receiving.unawaited, List.count_append] at hcount ⊢
    omega

theorem arrive_accounted {s : Receiving} (evs : List WsEvent) (h : Accounted s) :
    Accounted (arrive evs s) := by
  have hpushed : Accounted (evs.foldl pushEvent s) := by
    induction evs generalizing s with
    | nil => exact h
    | cons ev evs ih =>
      refine ih ?_
      unfold pushEvent
      split
      · exact h
      · exact pushMsg_accounted _ _ h
  unfold arrive
  dsimp only
  split
  · exact wakeWaiters_accounted hpushed
  · exact hpushed

theorem wsWake_accounted {s : Receiving} (h : Accounted s) : Accounted (wsWake s) := by
  unfold wsWake
  split
  · exact h
  dsimp only
  split
  · exact h.moved rfl rfl (List.Perm.refl _)
  split
  · exact h.moved rfl rfl (List.Perm.refl _)
  split <;> exact h.moved rfl rfl (List.Perm.refl _)

theorem receive_accounted {s : Receiving} (h : Accounted s) : Accounted (receive s) := by
  unfold receive
  split
  · exact h.moved rfl rfl (List.Perm.refl _)
  split
  · refine h.moved rfl rfl ?_
    simp [Receiving.unawaited, TakenMsg.arrival, List.filterMap_cons]
  split
  · rename_i m rest hinbox
    refine h.moved rfl rfl (List.perm_iff_count.mpr fun n => ?_)
    rw [hinbox]
    simp only [popFront, Receiving.unawaited, List.filterMap_append, List.filterMap_cons,
      List.filterMap_nil, TakenMsg.arrival, List.count_append, List.count_cons, List.count_nil]
    omega
  · split <;> exact h.moved rfl rfl (List.Perm.refl _)

theorem parkWaiter_accounted {s : Receiving} (h : Accounted s) : Accounted (parkWaiter s) := by
  unfold parkWaiter
  split
  · exact h
  dsimp only
  split <;> exact h.moved rfl rfl (List.Perm.refl _)

theorem take_accounted {s : Receiving} (r : Nat) (h : Accounted s) : Accounted (take r s) := by
  unfold take
  dsimp only
  split
  · exact h.moved rfl rfl (List.Perm.refl _)
  split
  · rename_i m rest hinbox
    refine h.moved rfl rfl (List.perm_iff_count.mpr fun n => ?_)
    rw [hinbox]
    simp only [popFront, Receiving.unawaited, List.count_append, List.count_cons, List.count_nil]
    omega
  · split <;> exact h.moved rfl rfl (List.Perm.refl _)

theorem resume_accounted {s : Receiving} (r : Nat) (h : Accounted s) : Accounted (resume r s) := by
  unfold resume
  split
  · exact h.moved rfl rfl (List.Perm.refl _)
  · split
    · exact take_accounted r h
    · exact h.moved rfl rfl (List.Perm.refl _)
    · exact h.moved rfl rfl (List.Perm.refl _)
    · exact h
  · exact h

theorem cancelWaiter_accounted {s : Receiving} (r : Nat) (h : Accounted s) :
    Accounted (cancelWaiter r s) := by
  unfold cancelWaiter
  split
  · split
    · exact h.moved rfl rfl (List.Perm.refl _)
    · exact h
  · exact h

theorem abandon_accounted {s : Receiving} (r : Nat) (h : Accounted s) :
    Accounted (abandon r s) := by
  unfold abandon
  split
  · dsimp only
    split
    · exact h.moved rfl rfl (List.Perm.refl _)
    · split <;> exact h.moved rfl rfl (List.Perm.refl _)
    · exact h.moved rfl rfl (List.Perm.refl _)
  · exact h

/-- A result leaves the list of those not awaited, and its message with it. -/
theorem unawaited_erase {s : Receiving} {i : Nat} {taken : TakenMsg}
    (hi : s.results[i]? = some taken) :
    s.unawaited.Perm (taken.arrival.toList ++ (s.results.eraseIdx i).filterMap TakenMsg.arrival) := by
  obtain ⟨hlt, hget⟩ := List.getElem?_eq_some_iff.mp hi
  have hperm := (List.getElem_cons_eraseIdx_perm hlt).symm.filterMap TakenMsg.arrival
  rw [hget, List.filterMap_cons] at hperm
  unfold Receiving.unawaited
  cases harrival : taken.arrival with
  | none => simpa [harrival] using hperm
  | some m => simpa [harrival] using hperm

theorem awaitResult_accounted {s : Receiving} (i : Nat) (h : Accounted s) :
    Accounted (awaitResult i s) := by
  unfold awaitResult
  split
  · rename_i taken hi
    refine h.moved rfl rfl (List.perm_iff_count.mpr fun m => ?_)
    have hcount := List.perm_iff_count.mp (unawaited_erase hi) m
    simp only [Receiving.unawaited, List.count_append] at hcount ⊢
    omega
  · exact h

theorem dropResult_accounted {s : Receiving} (i : Nat) (h : Accounted s) :
    Accounted (dropResult i s) := by
  unfold dropResult
  split
  · exact h
  rename_i taken hi
  have herased := unawaited_erase hi
  dsimp only
  split
  · rename_i hgone
    exact absurd (hgone.symm.trans h.here) (by simp)
  split
  · have hsame : Accounted { s with results := s.results.eraseIdx i } :=
      h.moved rfl rfl ((herased.symm.append_left s.inbox).append_right s.returned)
    unfold putBackConnect
    split <;> exact hsame.moved rfl rfl (List.Perm.refl _)
  · rename_i m
    refine wakeWaiters_accounted (h.moved rfl rfl (List.perm_iff_count.mpr fun n => ?_))
    have hcount := List.perm_iff_count.mp herased n
    simp only [TakenMsg.arrival, Option.toList_some, List.singleton_append, Receiving.unawaited,
      List.count_append, List.count_cons] at hcount ⊢
    omega

theorem receiveStep_accounted {s : Receiving} (event : ReceiveEvent) (h : Accounted s) :
    Accounted (receiveStep s event) := by
  unfold receiveStep
  split
  · exact parkWaiter_accounted h
  · exact dropResult_accounted _ h
  · exact arrive_accounted _ h
  · exact wsWake_accounted h
  · exact receive_accounted h
  · exact resume_accounted _ h
  · exact cancelWaiter_accounted _ h
  · exact abandon_accounted _ h
  · exact awaitResult_accounted _ h
  · exact h

/-! ## 2. In turn, and nobody left parked -/

/-- What is not yet handed over is in the order of arrival, nobody is parked beside it, and whatever
came before a message that was handed over had been returned by then or was with another receive(). -/
structure InTurn (s : Receiving) : Prop where
  sorted : s.inbox.Pairwise fun m n => m.seq < n.seq
  quiet : s.inbox ≠ [] → s.recvWaiters = []
  fair : ∀ h ∈ s.handed, ∀ n < h.msg.seq, ∃ m ∈ h.unawaited ++ h.returned, m.seq = n

/-- A destructor restores a message only ahead of everything queued, and none does so between a
call's look at the inbox and its park. -/
def Restores (s : Receiving) : ReceiveEvent → Prop
  | .dropResult i => ∀ m, s.results[i]? = some (.ws m) → ∀ n ∈ s.inbox, m.seq < n.seq
  | .parkWaiter => s.parking.isSome → s.inbox = []
  | _ => True

theorem Accounted.seq_lt {s : Receiving} (h : Accounted s) {m : Arrival} (hm : m ∈ s.inbox) :
    m.seq < s.arrived.length := by
  have harrived : m ∈ s.arrived :=
    h.kept.subset (List.mem_append_left _ (List.mem_append_left _ hm))
  have hseq := List.mem_map_of_mem (f := Arrival.seq) harrived
  rw [h.numbered] at hseq
  exact List.mem_range.mp hseq

/-- The front of a sorted inbox is the oldest message neither returned nor with a receive(). -/
theorem front_is_next {s : Receiving} {m : Arrival} {rest : List Arrival} (h : Accounted s)
    (hturn : InTurn s) (hinbox : s.inbox = m :: rest) {n : Nat} (hn : n < m.seq) :
    ∃ earlier ∈ s.unawaited ++ s.returned, earlier.seq = n := by
  have hlt := h.seq_lt (m := m) (by rw [hinbox]; exact List.mem_cons_self)
  have hrange : n ∈ s.arrived.map Arrival.seq := by
    rw [h.numbered]
    exact List.mem_range.mpr (by omega)
  obtain ⟨earlier, hmem, hseq⟩ := List.mem_map.mp hrange
  have hwhere := h.kept.symm.subset hmem
  rw [List.append_assoc] at hwhere
  rcases List.mem_append.mp hwhere with hin | hout
  · have hsorted := hturn.sorted
    rw [hinbox] at hin hsorted
    rcases List.mem_cons.mp hin with rfl | hin
    · omega
    · have hafter := (List.pairwise_cons.mp hsorted).1 earlier hin
      omega
  · exact ⟨earlier, hout, hseq⟩

theorem popFront_inTurn {s s' : Receiving} {m : Arrival} {rest : List Arrival} (h : Accounted s)
    (hturn : InTurn s) (hinbox : s.inbox = m :: rest) (hrest : s'.inbox = rest)
    (hwaiters : s'.recvWaiters = s.recvWaiters)
    (hhanded : s'.handed = s.handed ++
      [{ msg := m, inbox := rest, unawaited := s.unawaited, returned := s.returned }]) :
    InTurn s' where
  sorted := by
    have hsorted := hturn.sorted
    rw [hinbox] at hsorted
    exact hrest ▸ (List.pairwise_cons.mp hsorted).2
  quiet := by
    intro _
    rw [hwaiters]
    exact hturn.quiet (by simp [hinbox])
  fair := by
    intro handover hmem n hn
    rw [hhanded] at hmem
    rcases List.mem_append.mp hmem with hmem | hmem
    · exact hturn.fair handover hmem n hn
    · rw [List.mem_singleton.mp hmem] at hn ⊢
      exact front_is_next h hturn hinbox hn

/-- A step that leaves the inbox and the record alone, and parks nobody beside a message. -/
theorem InTurn.same {s s' : Receiving} (h : InTurn s) (hinbox : s'.inbox = s.inbox)
    (hhanded : s'.handed = s.handed)
    (hquiet : s.inbox ≠ [] → s.recvWaiters = [] → s'.recvWaiters = []) : InTurn s' where
  sorted := hinbox ▸ h.sorted
  quiet := fun hne => hquiet (hinbox ▸ hne) (h.quiet (hinbox ▸ hne))
  fair := hhanded ▸ h.fair

theorem pushEvent_keeps {s : Receiving} (evs : List WsEvent) (h : Accounted s)
    (hsorted : s.inbox.Pairwise fun m n => m.seq < n.seq) :
    ((evs.foldl pushEvent s).inbox.Pairwise fun m n => m.seq < n.seq) ∧
      (evs.foldl pushEvent s).handed = s.handed ∧
      (wakes evs = false →
        (evs.foldl pushEvent s).inbox = s.inbox ∧
          (evs.foldl pushEvent s).recvWaiters = s.recvWaiters) := by
  induction evs generalizing s with
  | nil => exact ⟨hsorted, rfl, fun _ => ⟨rfl, rfl⟩⟩
  | cons ev evs ih =>
    rw [List.foldl_cons, wakes, List.any_cons]
    cases hmsg : WsMsg.ofEvent ev with
    | none =>
      have hsame : pushEvent s ev = s := by rw [pushEvent, hmsg]
      rw [hsame]
      simpa [wakes] using ih h hsorted
    | some msg =>
      have hpush : pushEvent s ev = pushMsg (!ev.last) msg s := by rw [pushEvent, hmsg]
      rw [hpush]
      have hgrown : (pushMsg (!ev.last) msg s).inbox.Pairwise fun m n => m.seq < n.seq := by
        refine List.pairwise_append.mpr ⟨hsorted, List.pairwise_singleton _ _, fun m hm n hn => ?_⟩
        rw [List.mem_singleton.mp hn]
        exact h.seq_lt hm
      obtain ⟨hsorted', hhanded, -⟩ := ih (pushMsg_accounted (!ev.last) msg h) hgrown
      exact ⟨hsorted', hhanded, fun hnone => absurd hnone (by simp)⟩

theorem receiveStep_inTurn {s : Receiving} (event : ReceiveEvent) (hacc : Accounted s)
    (h : InTurn s) (hrestores : Restores s event) : InTurn (receiveStep s event) := by
  unfold receiveStep
  split
  · -- the park
    unfold parkWaiter
    split
    · exact h
    rename_i who hparking
    have hempty := hrestores (by rw [hparking]; rfl)
    dsimp only
    split <;> exact h.same rfl rfl fun hne => absurd hempty hne
  · rename_i i
    unfold dropResult
    split
    · exact h
    rename_i taken hi
    dsimp only
    split
    · exact h.same rfl rfl fun _ hw => hw
    split
    · unfold putBackConnect
      split
      · exact h.same rfl rfl fun _ _ => rfl
      · rename_i hwaiting
        refine h.same rfl rfl fun _ hw => ?_
        rw [show ({ s with results := s.results.eraseIdx i } : Receiving).recvWaiters = [] from hw]
          at hwaiting
        exact absurd hwaiting (by simp)
    · rename_i m
      exact ⟨List.pairwise_cons.mpr ⟨hrestores m hi, h.sorted⟩, fun _ => rfl, h.fair⟩
  · rename_i evs _
    obtain ⟨hsorted, hhanded, hsame⟩ := pushEvent_keeps evs hacc h.sorted
    unfold arrive
    dsimp only
    split
    · exact ⟨hsorted, fun _ => rfl, hhanded ▸ h.fair⟩
    · rename_i hnone
      obtain ⟨hinbox, hwaiters⟩ := hsame (by simpa using hnone)
      exact h.same hinbox hhanded fun _ hw => hwaiters.trans hw
  · unfold wsWake
    split
    · exact h
    dsimp only
    split
    · exact h.same rfl rfl fun _ hw => hw
    split
    · exact h.same rfl rfl fun _ hw => hw
    rename_i hempty
    split
    · exact h.same rfl rfl fun hne => absurd hne hempty
    · exact h.same rfl rfl fun _ hw => hw
  · unfold receive
    split
    · exact h.same rfl rfl fun _ hw => hw
    split
    · exact h.same rfl rfl fun _ hw => hw
    split
    · rename_i m rest hinbox
      exact popFront_inTurn hacc h hinbox rfl rfl rfl
    · split <;> exact h.same rfl rfl fun _ hw => hw
  · unfold resume
    split
    · exact h.same rfl rfl fun _ hw => hw
    · split
      · unfold take
        dsimp only
        split
        · exact h.same rfl rfl fun _ hw => hw
        split
        · rename_i m rest hinbox
          exact popFront_inTurn hacc h hinbox rfl rfl rfl
        · split <;> exact h.same rfl rfl fun _ hw => hw
      · exact h.same rfl rfl fun _ hw => hw
      · exact h.same rfl rfl fun _ hw => hw
      · exact h
    · exact h
  · unfold cancelWaiter
    split
    · split
      · exact h.same rfl rfl fun _ hw => hw
      · exact h
    · exact h
  · unfold abandon
    split
    · dsimp only
      split
      · exact h.same rfl rfl fun _ hw => hw
      · split
        · exact h.same rfl rfl fun _ _ => rfl
        · exact h.same rfl rfl fun _ hw => hw
      · exact h.same rfl rfl fun _ hw => hw
    · exact h
  · unfold awaitResult
    split
    · exact h.same rfl rfl fun _ hw => hw
    · exact h
  · exact h

/-- Whatever is awaited, cancelled and dropped: no message is returned twice, and while messages are
restored in their place and calls park with nothing queued, each receive() is given the oldest
message that is neither returned nor with another, and none waits beside the inbox. -/
theorem receive_exactly_once (connectSent : Bool) (events : List ReceiveEvent)
    (h : (receiving connectSent).Along Restores events) :
    let s := (receiving connectSent).run events
    (s.returned.map Arrival.seq).Nodup ∧
      (s.inbox ++ s.unawaited ++ s.returned).Perm s.arrived ∧
      (s.inbox.Pairwise fun m n => m.seq < n.seq) ∧
      (∀ handover ∈ s.handed, ∀ n < handover.msg.seq,
        ∃ m ∈ handover.unawaited ++ handover.returned, m.seq = n) ∧
      (s.inbox ≠ [] → s.recvWaiters = []) := by
  intro s
  have hrun : Accounted s ∧ InTurn s := by
    refine (receiving connectSent).run_invariant_along (I := fun s => Accounted s ∧ InTurn s)
      ⟨⟨rfl, rfl, List.Perm.refl _⟩, ⟨List.Pairwise.nil, fun hne => absurd rfl hne, ?_⟩⟩
      (fun s event hs hevent =>
        ⟨receiveStep_accounted event hs.1, receiveStep_inTurn event hs.1 hs.2 hevent⟩) events h
    exact fun handover hmem => absurd hmem List.not_mem_nil
  obtain ⟨hacc, hturn⟩ := hrun
  refine ⟨?_, hacc.kept, hturn.sorted, hturn.fair, hturn.quiet⟩
  have hnodup : ((s.inbox ++ s.unawaited ++ s.returned).map Arrival.seq).Nodup := by
    rw [(hacc.kept.map Arrival.seq).nodup_iff, hacc.numbered]
    exact List.nodup_range
  rw [List.map_append] at hnodup
  exact (List.nodup_append.mp hnodup).2.1

theorem receive_exactly_once_put_back :
    let s := (receiving true).run
      [.arrive [.text "a", .text "b"], .receive, .receive, .dropResult 1, .dropResult 0, .receive]
    s.inbox.Pairwise fun m n => m.seq < n.seq := by
  refine (receive_exactly_once true _ ?_).2.2.1
  rw [show [ReceiveEvent.arrive [.text "a", .text "b"], .receive, .receive, .dropResult 1,
      .dropResult 0, .receive] =
    [] ++ [.arrive [.text "a", .text "b"]] ++ [.receive] ++ [.receive] ++ [.dropResult 1] ++
      [.dropResult 0] ++ [.receive] from rfl]
  simp only [Machine.along_concat]
  refine ⟨⟨⟨⟨⟨⟨Machine.along_nil _ _, trivial⟩, trivial⟩, trivial⟩, ?_⟩, ?_⟩, trivial⟩
  · intro m _ n hn
    exact absurd (show n ∈ [] from hn) List.not_mem_nil
  · intro m hm n hn
    have hfirst : some (TakenMsg.ws ⟨0, .text "a"⟩) = some (.ws m) := hm
    injection hfirst with hfirst
    injection hfirst with hfirst
    have hsecond : n ∈ [(⟨1, .text "b"⟩ : Arrival)] := hn
    rw [← hfirst, List.mem_singleton.mp hsecond]
    exact Nat.zero_lt_one

/-- Results dropped in the order they were made leave the newer message in front; and a result
dropped while another call is about to park leaves that one parked beside the message. -/
theorem receive_out_of_turn :
    (let s := (receiving true).run
      [.arrive [.text "a", .text "b"], .receive, .receive, .dropResult 0, .dropResult 0, .receive]
    s.unawaited.map Arrival.seq = [1] ∧ s.inbox.map Arrival.seq = [0]) ∧
    (let s := (receiving true).run
      [.arrive [.text "a"], .receive, .receive, .dropResult 0, .parkWaiter]
    s.inbox ≠ [] ∧ s.recvWaiters = [0] ∧ s.pending 0 ∧ s.wakes = []) := by
  decide +kernel

end Cadeloop.Pyshim.Http
