import Cadeloop.Core.WsStream
import Cadeloop.Pyshim.WsConn

/-!
# Messages before the disconnect (`crates/pyshim/src/http.rs`, `net.rs`)

What a WebSocket's frame parser assembled goes to the application before the application is told
that the peer left.  Two things break it: the connection's removal, which drops the inbox, and an EOF
that is answered while ciphertext is still to be decrypted.
-/

namespace Cadeloop.Pyshim.Http

open Core.Ws Cadeloop.Reasoning

/-! ## 1. What was handed over -/

def Receiving.taken (r : Receiving) : List Arrival := r.handed.map Handover.msg

/-- The messages in order, and an application told of the end only behind them.  `shut` is what keeps
more from coming once the peer's EOF is in. -/
structure Served (shut : Prop) (ended : Bool) (r : Receiving) : Prop where
  order : r.peer ≠ .gone → r.arrived = r.taken ++ r.inbox
  initial : r.taken <+: r.arrived
  lost : r.peer = .gone → r.inbox = [] ∧
    ∀ m ∈ r.arrived, m.msg.isDisconnect = false → m ∈ r.taken
  ends : ∀ m ∈ r.arrived, m.msg.isDisconnect = true → ended = true
  last : ∀ m ∈ r.arrived.dropLast, m.msg.isDisconnect = false
  told : r.told = true → r.peer = .gone ∨
    (∀ m ∈ r.inbox, m.msg.isDisconnect = true) ∧ (ended = true ∨ r.peer = .disconnected ∧ shut)
  hung : r.hangups ≠ [] → r.peer ≠ .here

variable {shut shut' : Prop} {ended : Bool} {r r' : Receiving}

theorem Served.mono (h : Served shut ended r) (himp : shut → shut') : Served shut' ended r where
  order := h.order
  initial := h.initial
  lost := h.lost
  ends := h.ends
  last := h.last
  told := fun htold => (h.told htold).imp_right fun hsealed =>
    ⟨hsealed.1, hsealed.2.imp_right fun hdone => ⟨hdone.1, himp hdone.2⟩⟩
  hung := h.hung

theorem Served.strict (h : Served shut ended r) (hmore : ¬ (r.peer = .disconnected ∧ shut)) :
    Served False ended r where
  order := h.order
  initial := h.initial
  lost := h.lost
  ends := h.ends
  last := h.last
  told := fun htold => (h.told htold).imp_right fun hsealed =>
    ⟨hsealed.1, hsealed.2.imp_right fun hdone => absurd hdone hmore⟩
  hung := h.hung

/-- A step that leaves the messages where they are, and tells the application of the end, if at all,
once there are none. -/
theorem Served.same (h : Served shut ended r) (hpeer : r'.peer = r.peer)
    (harrived : r'.arrived = r.arrived) (hhanded : r'.handed = r.handed)
    (hinbox : r'.inbox = r.inbox) (hhung : r'.hangups ≠ [] → r.hangups ≠ [])
    (htold : r'.told = true → r.told = true ∨ r.peer = .gone ∨
      r.inbox = [] ∧ r.peer = .disconnected ∧ shut) : Served shut ended r' where
  order := by
    rw [hpeer, harrived, hinbox, Receiving.taken, hhanded]
    exact h.order
  initial := by
    rw [harrived, Receiving.taken, hhanded]
    exact h.initial
  lost := by
    rw [hpeer, harrived, hinbox, Receiving.taken, hhanded]
    exact h.lost
  ends := harrived ▸ h.ends
  last := harrived ▸ h.last
  told := by
    intro htold'
    rw [hpeer, hinbox]
    rcases htold htold' with hbefore | hgone | ⟨hempty, hdone⟩
    · exact h.told hbefore
    · exact .inl hgone
    · exact .inr ⟨by simp [hempty], .inr hdone⟩
  hung := by
    rw [hpeer]
    exact fun hhangups => h.hung (hhung hhangups)

theorem Served.alive_of_inbox (h : Served shut ended r) (hinbox : r.inbox ≠ []) :
    r.peer ≠ .gone := fun hgone => hinbox (h.lost hgone).1

/-- A message is handed over; a disconnect is the last there is. -/
theorem Served.popped (h : Served shut ended r) {m : Arrival} {rest : List Arrival}
    (hinbox : r.inbox = m :: rest) (hpeer : r'.peer = r.peer) (harrived : r'.arrived = r.arrived)
    (htaken : r'.taken = r.taken ++ [m]) (hinbox' : r'.inbox = rest)
    (hhung : r'.hangups = r.hangups) (htold : r'.told = (r.told || m.msg.isDisconnect)) :
    Served shut ended r' := by
  have halive := h.alive_of_inbox (by rw [hinbox]; simp)
  have horder := h.order halive
  rw [hinbox] at horder
  have hlast : m.msg.isDisconnect = true → rest = [] := by
    intro hdisconnect
    by_contra hrest
    have hmem : m ∈ r.arrived.dropLast := by
      rw [horder, List.dropLast_append_of_ne_nil (by simp), List.dropLast_cons_of_ne_nil hrest]
      simp
    exact absurd ((h.last m hmem).symm.trans hdisconnect) (by simp)
  refine ⟨fun _ => ?_, ?_, fun hgone => absurd (hpeer ▸ hgone) halive, harrived ▸ h.ends,
    harrived ▸ h.last, fun htold' => ?_, ?_⟩
  · rw [harrived, htaken, hinbox', horder, List.append_assoc]
    rfl
  · rw [harrived, htaken, horder]
    exact ⟨rest, by simp⟩
  · refine .inr ?_
    rw [hinbox', hpeer]
    rw [htold, Bool.or_eq_true] at htold'
    rcases htold' with hbefore | hdisconnect
    · obtain ⟨hrest, hdone⟩ := (h.told hbefore).resolve_left halive
      exact ⟨fun n hn => hrest n (by rw [hinbox]; exact List.mem_cons_of_mem _ hn), hdone⟩
    · refine ⟨by simp [hlast hdisconnect], .inl (h.ends m ?_ hdisconnect)⟩
      rw [horder]
      simp
  · rw [hhung, hpeer]
    exact h.hung

/-! ## 2. What a read brings -/

theorem WsMsg.ofEvent_last {ev : WsEvent} {msg : WsMsg} (h : WsMsg.ofEvent ev = some msg) :
    msg.isDisconnect = ev.last := by
  cases ev <;> simp only [WsMsg.ofEvent, Option.some.injEq, reduceCtorEq] at h <;> subst h <;> rfl

theorem pushEvent_peer (r : Receiving) (ev : WsEvent) : (pushEvent r ev).peer = r.peer := by
  unfold pushEvent
  split <;> rfl

theorem pushEvent_served {ended' : Bool} (h : Served False false r) (hpeer : r.peer ≠ .gone)
    {ev : WsEvent} (hlast : ev.last = true → ended' = true) :
    Served False ended' (pushEvent r ev) := by
  have hnone : ∀ m ∈ r.arrived, m.msg.isDisconnect = false := by
    intro m hm
    by_contra hdisconnect
    exact absurd (h.ends m hm (by simpa using hdisconnect)) (by simp)
  have huntold : r.told = false := by
    by_contra htold
    rcases h.told (by simpa using htold) with hgone | ⟨-, hended | ⟨-, hshut⟩⟩
    · exact hpeer hgone
    · exact absurd hended (by simp)
    · exact hshut
  have hsilent : ∀ r' : Receiving, r'.told = r.told → r'.told = true →
      r'.peer = .gone ∨ (∀ m ∈ r'.inbox, m.msg.isDisconnect = true) ∧
        (ended' = true ∨ r'.peer = .disconnected ∧ False) := fun r' hsame htold =>
    absurd ((hsame.trans huntold).symm.trans htold) (by simp)
  unfold pushEvent
  split
  · exact ⟨h.order, h.initial, h.lost, fun m hm hdisconnect =>
      absurd ((hnone m hm).symm.trans hdisconnect) (by simp), h.last, hsilent r rfl, h.hung⟩
  · rename_i msg hmsg
    refine ⟨fun _ => ?_, h.initial.trans (List.prefix_append _ _), fun hgone => absurd hgone hpeer,
      ?_, ?_, hsilent _ rfl, h.hung⟩
    · show r.arrived ++ [_] = r.taken ++ (r.inbox ++ [_])
      rw [h.order hpeer, List.append_assoc]
    · intro m hm hdisconnect
      rcases List.mem_append.mp hm with hm | hm
      · exact absurd ((hnone m hm).symm.trans hdisconnect) (by simp)
      · rw [List.mem_singleton.mp hm] at hdisconnect
        exact hlast ((WsMsg.ofEvent_last hmsg).symm.trans hdisconnect)
    · rw [show (pushMsg (!ev.last) msg r).arrived = r.arrived ++ [_] from rfl, List.dropLast_concat]
      exact hnone

theorem foldl_pushEvent_served {evs : List WsEvent} (hopen : ∀ ev ∈ evs, ev.last = false)
    (h : Served False false r) (hpeer : r.peer ≠ .gone) :
    Served False false (evs.foldl pushEvent r) ∧ (evs.foldl pushEvent r).peer ≠ .gone := by
  induction evs generalizing r with
  | nil => exact ⟨h, hpeer⟩
  | cons ev evs ih =>
    refine ih (fun ev' hev' => hopen ev' (List.mem_cons_of_mem _ hev')) ?_ ?_
    · exact pushEvent_served h hpeer fun hlast =>
        absurd ((hopen ev List.mem_cons_self).symm.trans hlast) (by simp)
    · rw [pushEvent_peer]
      exact hpeer

/-- A Close or a failure is the last of the stream, so its disconnect is the last message. -/
theorem push_served (rx : WsRx) (data : Bytes) (h : Served False rx.ended r) (hpeer : r.peer ≠ .gone) :
    Served False (rx.push data).2.ended ((rx.push data).1.foldl pushEvent r) := by
  rcases push_last rx data with ⟨-, heq⟩ | ⟨hbefore, hended, hopen⟩ |
    ⟨hbefore, hended, pre, fin, heq, -, hopen⟩
  · rw [heq]
    exact h
  · rw [hended]
    exact (foldl_pushEvent_served hopen (hbefore ▸ h) hpeer).1
  · rw [heq, hended, List.foldl_append]
    obtain ⟨hpre, hpeer'⟩ := foldl_pushEvent_served hopen (hbefore ▸ h) hpeer
    exact pushEvent_served hpre hpeer' fun _ => rfl

/-! ## 3. What a `receive()` does -/

/-- Nobody is parked beside a message. -/
structure Attentive (r : Receiving) : Prop where
  quiet : r.inbox ≠ [] → r.recvWaiters = []
  parked : r.parking.isSome → r.inbox = []

/-- The step answers a `receive()` with the disconnect of an EOF. -/
def Receiving.answersEof (r : Receiving) : ConnEvent → Bool
  | .receive .receive _ => r.connectSent && r.inbox.isEmpty
  | .receive .wsWake _ => r.wakes.head?.any r.pending && r.inbox.isEmpty
  | .receive (.resume who) _ =>
    (match r.receivers[who]? with
      | some { fut := some fut, parkedPending := false } => r.futs[fut]? == some .woken
      | _ => false) && r.inbox.isEmpty
  | .hangup => r.hangups.head?.any r.pending
  | _ => false

theorem tornDown_served (h : Served shut ended r)
    (hspared : r.peer ≠ .gone → ∀ m ∈ r.inbox, m.msg.isDisconnect = true) :
    Served shut ended (tornDown r) := by
  unfold tornDown
  split
  · exact h
  · rename_i halive
    refine ⟨fun hgone => absurd rfl hgone, h.initial, fun _ => ⟨rfl, fun m hm hmessage => ?_⟩, h.ends,
      h.last, fun _ => .inl rfl, fun _ => by simp⟩
    have hm' : m ∈ r.taken ++ r.inbox := h.order halive ▸ hm
    rcases List.mem_append.mp hm' with hm | hm
    · exact hm
    · exact absurd ((hspared halive m hm).symm.trans hmessage) (by simp)

theorem peerGone_served (h : Served shut ended r) : Served shut ended (peerGone r) := by
  unfold peerGone
  split
  · rename_i hhere
    have halive : r.peer ≠ .gone := by simp [hhere]
    refine ⟨fun _ => h.order halive, h.initial, fun hgone => absurd hgone (by simp), h.ends, h.last,
      fun htold => .inr ?_, fun _ => by simp⟩
    obtain ⟨hrest, hended | ⟨hgone, -⟩⟩ := (h.told htold).resolve_left halive
    · exact ⟨hrest, .inl hended⟩
    · exact absurd (hgone.symm.trans hhere) (by simp)
  · exact h

theorem wsWake_served (h : Served shut ended r)
    (heof : r.peer = .disconnected → r.answersEof (.receive .wsWake true) → r.inbox = [] ∧ shut) :
    Served shut ended (wsWake r) := by
  unfold wsWake
  split
  · exact h
  rename_i fut rest hwakes
  dsimp only
  split
  · exact h.same rfl rfl rfl rfl id .inl
  rename_i hpending
  split
  · exact h.same rfl rfl rfl rfl id .inl
  rename_i hempty
  have hempty : r.inbox = [] := by simpa using hempty
  split
  · exact h.same rfl rfl rfl rfl id .inl
  rename_i haway
  refine h.same rfl rfl rfl rfl id fun _ => .inr ?_
  cases hpeer : r.peer with
  | here => exact absurd hpeer haway
  | gone => exact .inl rfl
  | disconnected =>
    have hpending : r.pending fut = true := by simpa [Receiving.pending] using hpending
    obtain ⟨-, hshut⟩ := heof hpeer (by simp [Receiving.answersEof, hwakes, hpending, hempty])
    exact .inr ⟨hempty, rfl, hshut⟩

theorem hangup_served (h : Served shut ended r)
    (heof : r.peer = .disconnected → r.answersEof .hangup → r.inbox = [] ∧ shut) :
    Served shut ended (hangup r) := by
  unfold hangup
  split
  · exact h
  rename_i fut rest hhangups
  have haway := h.hung (by rw [hhangups]; simp)
  dsimp only
  split
  · rename_i hpending
    refine h.same rfl rfl rfl rfl (fun _ => by rw [hhangups]; simp) fun _ => .inr ?_
    cases hpeer : r.peer with
    | here => exact absurd hpeer haway
    | gone => exact .inl rfl
    | disconnected =>
      have hpending : r.pending fut = true := hpending
      obtain ⟨hempty, hshut⟩ := heof hpeer (by simp [Receiving.answersEof, hhangups, hpending])
      exact .inr ⟨hempty, rfl, hshut⟩
  · exact h.same rfl rfl rfl rfl (fun _ => by rw [hhangups]; simp) .inl

theorem receive_served (h : Served shut ended r)
    (heof : r.peer = .disconnected → r.answersEof (.receive .receive true) → r.inbox = [] ∧ shut) :
    Served shut ended (receive r) := by
  unfold receive
  split
  · rename_i hgone
    exact h.same rfl rfl rfl rfl id fun _ => .inr (.inl hgone)
  split
  · exact h.same rfl rfl rfl rfl id .inl
  rename_i hconnect
  split
  · rename_i m rest hinbox
    exact h.popped hinbox rfl rfl (by simp [Receiving.taken, popFront]) rfl rfl rfl
  · rename_i hempty
    split
    · rename_i hpeer
      obtain ⟨-, hshut⟩ := heof hpeer (by simpa [Receiving.answersEof, hempty] using hconnect)
      exact h.same rfl rfl rfl rfl id fun _ => .inr (.inr ⟨hempty, hpeer, hshut⟩)
    · exact h.same rfl rfl rfl rfl id .inl

theorem parkWaiter_served (h : Served shut ended r) : Served shut ended (parkWaiter r) := by
  unfold parkWaiter
  split
  · exact h
  dsimp only
  split
  · rename_i hgone
    exact h.same rfl rfl rfl rfl id fun _ => .inr (.inl hgone)
  · exact h.same rfl rfl rfl rfl id .inl

theorem take_served (who : Nat) (h : Served shut ended r)
    (heof : r.peer = .disconnected → r.inbox = [] → shut) : Served shut ended (take who r) := by
  unfold take
  dsimp only
  split
  · rename_i hgone
    exact h.same rfl rfl rfl rfl id fun _ => .inr (.inl hgone)
  split
  · rename_i m rest hinbox
    exact h.popped hinbox rfl rfl (by simp [Receiving.taken, popFront]) rfl rfl rfl
  · rename_i hempty
    split
    · rename_i hpeer
      exact h.same rfl rfl rfl rfl id fun _ => .inr (.inr ⟨hempty, hpeer, heof hpeer hempty⟩)
    · exact h.same rfl rfl rfl rfl id .inl

theorem resume_served (who : Nat) (h : Served shut ended r)
    (heof : r.peer = .disconnected → r.answersEof (.receive (.resume who) true) →
      r.inbox = [] ∧ shut) : Served shut ended (resume who r) := by
  unfold resume
  split
  · exact h.same rfl rfl rfl rfl id .inl
  · rename_i fut hreceiver
    split
    · rename_i hwoken
      refine take_served who h fun hpeer hempty => (heof hpeer ?_).2
      simp [Receiving.answersEof, hreceiver, hwoken, hempty]
    · exact h.same rfl rfl rfl rfl id .inl
    · exact h.same rfl rfl rfl rfl id .inl
    · exact h
  · exact h

/-- The application goes on receiving, and awaits what it is given. -/
def ConnEvent.listens : ConnEvent → Bool
  | .receive (.dropResult _) _ => false
  | .appDone => false
  | .fail => false
  | .shutdown => false
  | _ => true

theorem receiveStep_served {event : ReceiveEvent} {postOk : Bool} (hcalled : event.called = true)
    (hlistens : (ConnEvent.receive event postOk).listens = true) (h : Served shut ended r)
    (heof : r.peer = .disconnected → r.answersEof (.receive event postOk) → r.inbox = [] ∧ shut) :
    Served shut ended (receiveStep r event) := by
  unfold receiveStep
  split
  · exact parkWaiter_served h
  · exact absurd hlistens (by simp [ConnEvent.listens])
  · exact absurd hcalled (by simp [ReceiveEvent.called])
  · exact wsWake_served h heof
  · exact receive_served h heof
  · exact resume_served _ h heof
  · unfold cancelWaiter
    split
    · split
      · exact h.same rfl rfl rfl rfl id .inl
      · exact h
    · exact h
  · unfold abandon
    split
    · dsimp only
      split
      · exact h.same rfl rfl rfl rfl id .inl
      · split <;> exact h.same rfl rfl rfl rfl id .inl
      · exact h.same rfl rfl rfl rfl id .inl
    · exact h
  · unfold awaitResult
    split
    · exact h.same rfl rfl rfl rfl id .inl
    · exact h
  · exact h

/-- A step that leaves the inbox alone and parks nobody beside it. -/
theorem Attentive.same (h : Attentive r) (hinbox : r'.inbox = r.inbox)
    (hquiet : r.inbox ≠ [] → r.recvWaiters = [] → r'.recvWaiters = [])
    (hparked : r'.parking.isSome → r.parking.isSome ∨ r.inbox = []) : Attentive r' where
  quiet := fun hne => hquiet (hinbox ▸ hne) (h.quiet (hinbox ▸ hne))
  parked := fun hparking => by
    rw [hinbox]
    exact (hparked hparking).elim h.parked id

theorem Attentive.popped (h : Attentive r) {m : Arrival} {rest : List Arrival}
    (hinbox : r.inbox = m :: rest) (hwaiters : r'.recvWaiters = r.recvWaiters)
    (hparking : r'.parking = r.parking) : Attentive r' where
  quiet := fun _ => hwaiters.trans (h.quiet (by rw [hinbox]; simp))
  parked := by
    rw [hparking]
    exact fun hparked => absurd (hinbox.symm.trans (h.parked hparked)) (by simp)

theorem receiveStep_attentive {event : ReceiveEvent} {postOk : Bool} (hcalled : event.called = true)
    (hlistens : (ConnEvent.receive event postOk).listens = true) (h : Attentive r) :
    Attentive (receiveStep r event) := by
  unfold receiveStep
  split
  · unfold parkWaiter
    split
    · exact h
    rename_i who hparking
    have hempty := h.parked (by rw [hparking]; rfl)
    dsimp only
    split <;> exact h.same rfl (fun hne => absurd hempty hne) fun hnone => absurd hnone (by simp)
  · exact absurd hlistens (by simp [ConnEvent.listens])
  · exact absurd hcalled (by simp [ReceiveEvent.called])
  · unfold wsWake
    split
    · exact h
    dsimp only
    split
    · exact h.same rfl (fun _ => id) .inl
    split
    · exact h.same rfl (fun _ => id) .inl
    rename_i hempty
    split
    · exact h.same rfl (fun hne => absurd hne hempty) .inl
    · exact h.same rfl (fun _ => id) .inl
  · unfold receive
    split
    · exact h.same rfl (fun _ => id) .inl
    split
    · exact h.same rfl (fun _ => id) .inl
    split
    · rename_i m rest hinbox
      exact h.popped hinbox rfl rfl
    · rename_i hempty
      split
      · exact h.same rfl (fun _ => id) .inl
      · exact h.same rfl (fun _ => id) fun _ => .inr hempty
  · unfold resume
    split
    · exact h.same rfl (fun _ => id) .inl
    · split
      · unfold take
        dsimp only
        split
        · exact h.same rfl (fun _ => id) .inl
        split
        · rename_i m rest hinbox
          exact h.popped hinbox rfl rfl
        · rename_i hempty
          split
          · exact h.same rfl (fun _ => id) .inl
          · exact h.same rfl (fun _ => id) fun _ => .inr hempty
      · exact h.same rfl (fun _ => id) .inl
      · exact h.same rfl (fun _ => id) .inl
      · exact h
    · exact h
  · unfold cancelWaiter
    split
    · split
      · exact h.same rfl (fun _ => id) .inl
      · exact h
    · exact h
  · unfold abandon
    split
    · dsimp only
      split
      · exact h.same rfl (fun _ => id) .inl
      · split
        · exact h.same rfl (fun _ _ => rfl) .inl
        · exact h.same rfl (fun _ => id) .inl
      · exact h.same rfl (fun _ => id) .inl
    · exact h
  · unfold awaitResult
    split
    · exact h.same rfl (fun _ => id) .inl
    · exact h
  · exact h

theorem tornDown_attentive (h : Attentive r) : Attentive (tornDown r) := by
  unfold tornDown
  split
  · exact h
  · exact ⟨fun _ => rfl, fun _ => rfl⟩

theorem peerGone_attentive (h : Attentive r) : Attentive (peerGone r) := by
  unfold peerGone
  split
  · exact h.same rfl (fun _ _ => rfl) .inl
  · exact h

theorem hangup_attentive (h : Attentive r) : Attentive (hangup r) := by
  unfold hangup
  split
  · exact h
  dsimp only
  split <;> exact h.same rfl (fun _ => id) .inl

/-- The waiters of a read that brought messages are woken. -/
theorem arrive_attentive (evs : List WsEvent) (hparking : r.parking = none) (h : Attentive r) :
    Attentive (arrive evs r) := by
  have hpushed : ∀ r : Receiving, (evs.foldl pushEvent r).parking = r.parking ∧
      (wakes evs = false → evs.foldl pushEvent r = r) := by
    induction evs with
    | nil => exact fun _ => ⟨rfl, fun _ => rfl⟩
    | cons ev evs ih =>
      intro r
      obtain ⟨hparking, hsame⟩ := ih (pushEvent r ev)
      rw [List.foldl_cons, hparking, wakes, List.any_cons]
      cases hmsg : WsMsg.ofEvent ev with
      | none =>
        have hskipped : pushEvent r ev = r := by rw [pushEvent, hmsg]
        rw [hskipped] at hsame ⊢
        exact ⟨rfl, hsame⟩
      | some msg =>
        have hparking : (pushEvent r ev).parking = r.parking := by rw [pushEvent, hmsg]; rfl
        exact ⟨hparking, fun hnone => absurd hnone (by simp)⟩
  obtain ⟨hparking', hsame⟩ := hpushed r
  have hnone : (arrive evs r).parking = none := by
    unfold arrive
    dsimp only
    split <;> exact hparking'.trans hparking
  refine ⟨fun hne => ?_, fun hparked => absurd (hnone ▸ hparked) (by simp)⟩
  unfold arrive at hne ⊢
  dsimp only at hne ⊢
  split
  · rfl
  · rename_i hwakes
    rw [if_neg hwakes] at hne
    rw [hsame (by simpa using hwakes)] at hne ⊢
    exact h.quiet hne

end Cadeloop.Pyshim.Http
