import Cadeloop.Pyshim.Datagram

/-!
# The discipline of a datagram endpoint

What was accepted is what was posted and then what is queued, and the counter says what the queue
costs.  An abort empties the queue and leaves the counter, so the counter is exact only in the runs
without one that drops something.
-/

namespace Cadeloop.Pyshim.Udp

open Cadeloop.Reasoning

variable {α : Type*} {backend : Backend} {net : NetState α} {exact : Prop}

/-! ## 1. The invariant -/

namespace NetState

def queued (net : NetState α) : List (Datagram α) := (net.entry.map (·.sendQueue)).getD []

/-- Neither gone nor closing. -/
def live (net : NetState α) : Bool := net.entry.any fun entry => !entry.closing

end NetState

def NetEvent.isLost : NetEvent α → Bool
  | .dgramLost _ => true
  | _ => false

def Call.isLost : Call α → Bool
  | .connectionLost => true
  | _ => false

structure DatagramEntry.Charged (exact : Prop) (entry : DatagramEntry α) : Prop where
  alive : entry.connLost = false
  covers : charges entry.sendQueue ≤ entry.queuedBytes
  exactly : exact → entry.queuedBytes = charges entry.sendQueue
  bounded : entry.queuedBytes ≤ dgramSendQueueMax

/-- Between operations nothing queues behind an idle socket, and an endpoint that closes waits for a
send. -/
structure DatagramEntry.Settled (entry : DatagramEntry α) : Prop where
  idle : entry.sendOp = none → entry.sendQueue = []
  waits : entry.closing = true → entry.sendOp ≠ none

/-- What holds also between two posts of one operation; `exact` where no abort dropped anything. -/
structure Core (exact : Prop) (net : NetState α) : Prop where
  order : net.posted ++ net.queued <+: net.accepted
  whole : exact ∨ net.live = true → net.posted ++ net.queued = net.accepted
  charged : ∀ entry, net.entry = some entry → entry.Charged exact
  lost : net.lost = if net.entry.isSome then 0 else 1
  owed : net.scheduled + net.events.countP NetEvent.isLost + net.calls.countP Call.isLost = net.lost

structure Sound (exact : Prop) (net : NetState α) : Prop extends Core exact net where
  settled : ∀ entry, net.entry = some entry → entry.Settled

theorem charges_cons (d : Datagram α) (queue : List (Datagram α)) :
    charges (d :: queue) = d.charge + charges queue := by
  simp [charges]

theorem charges_concat (queue : List (Datagram α)) (d : Datagram α) :
    charges (queue ++ [d]) = charges queue + d.charge := by
  simp [charges]

@[simp] theorem queued_some {entry : DatagramEntry α} (he : net.entry = some entry) :
    net.queued = entry.sendQueue := by
  simp [NetState.queued, he]

@[simp] theorem queued_none (he : net.entry = none) : net.queued = [] := by
  simp [NetState.queued, he]

/-! ## 2. What one operation does -/

/-- An endpoint with nothing left to post goes, and owes its `connection_lost`. -/
theorem udpTeardown_sound {entry : DatagramEntry α} (he : net.entry = some entry)
    (hempty : entry.sendQueue = []) (h : Core exact net) (immediate : Bool) :
    Sound exact (udpTeardown immediate net) := by
  have halive := (h.charged entry he).alive
  have hqueued : net.queued = [] := by rw [queued_some he, hempty]
  have horder := h.order
  have hwhole := h.whole
  have hlost := h.lost
  have howed := h.owed
  simp only [hqueued, List.append_nil] at horder hwhole
  simp only [he, Option.isSome_some, if_true] at hlost
  simp only [udpTeardown, he, halive, Bool.false_eq_true, if_false]
  constructor
  · constructor
    · simpa [NetState.queued] using horder
    · rintro (hexact | hlive)
      · simpa [NetState.queued] using hwhole (.inl hexact)
      · simp [NetState.live] at hlive
    · simp
    · simp [hlost]
    · simp only [List.countP_append, List.countP_singleton, NetEvent.isLost, if_true]
      omega
  · simp

theorem dgramSendNow_some {entry : DatagramEntry α} (he : net.entry = some entry)
    (d : Datagram α) :
    ∃ op events, dgramSendNow backend d net =
      { net with
        entry := some { entry with sendOp := op }
        events := net.events ++ events
        posted := net.posted ++ [d] } ∧
      events.countP NetEvent.isLost = 0 ∧ (op = entry.sendOp ∨ op.isSome = true) := by
  simp only [dgramSendNow, he]
  cases backend.postSendTo net.posted.length with
  | ok op =>
    refine ⟨some op, [], ?_, rfl, .inr rfl⟩
    simp
  | error err =>
    refine ⟨entry.sendOp, [.dgramError err], ?_, rfl, .inl rfl⟩
    cases net
    cases he
    rfl

/-- The datagram at the front of the queue is posted. -/
theorem popped_core {entry : DatagramEntry α} {d : Datagram α} {rest : List (Datagram α)}
    (he : net.entry = some entry) (hqueue : entry.sendQueue = d :: rest) (h : Core exact net)
    (op : Option Nat) {events : List (NetEvent α)} (hevents : events.countP NetEvent.isLost = 0) :
    Core exact { net with
      entry := some { entry with
        sendQueue := rest
        queuedBytes := entry.queuedBytes - d.charge
        sendOp := op }
      events := net.events ++ events
      posted := net.posted ++ [d] } := by
  have hcharged := h.charged entry he
  have hqueued : net.queued = d :: rest := by rw [queued_some he, hqueue]
  have hcost : charges entry.sendQueue = d.charge + charges rest := by
    rw [hqueue, charges_cons]
  have horder := h.order
  have hwhole := h.whole
  have hlost := h.lost
  have howed := h.owed
  simp only [hqueued] at horder hwhole
  simp only [he, Option.isSome_some, if_true] at hlost
  constructor
  · simpa [NetState.queued] using horder
  · simpa [NetState.queued, NetState.live, he] using hwhole
  · rintro entry' ⟨⟩
    have hcovers := hcharged.covers
    have hbounded := hcharged.bounded
    constructor
    · exact hcharged.alive
    · dsimp only
      omega
    · intro hexact
      have := hcharged.exactly hexact
      dsimp only
      omega
    · dsimp only
      omega
  · simpa using hlost
  · simp only [List.countP_append, hevents]
    omega

/-- The pump posts until a send is with the kernel or nothing is queued. -/
theorem pumpQueue_core (queue : List (Datagram α)) {entry : DatagramEntry α}
    (he : net.entry = some entry) (hqueue : entry.sendQueue = queue) (h : Core exact net) :
    Core exact (pumpQueue backend queue net) ∧
      ∃ entry', (pumpQueue backend queue net).entry = some entry' ∧
        entry'.closing = entry.closing ∧
        (entry'.sendOp = none → entry'.sendQueue = []) ∧
        entry'.sendQueue.length ≤ queue.length ∧
        (entry.sendOp = none → queue ≠ [] → entry'.sendQueue.length < queue.length) := by
  induction queue generalizing net entry with
  | nil => exact ⟨h, entry, he, rfl, fun _ => hqueue, by simp [hqueue], by simp⟩
  | cons d rest ih =>
    simp only [pumpQueue, he]
    split
    · rename_i hop
      refine ⟨h, entry, he, rfl, fun hnone => ?_, by simp [hqueue], fun hnone => ?_⟩
      · simp [hnone] at hop
      · simp [hnone] at hop
    · set net' : NetState α := { net with entry := some { entry with
        sendQueue := rest
        queuedBytes := entry.queuedBytes - d.charge } } with hnet'
      obtain ⟨op, events, hposted, hevents, -⟩ := @dgramSendNow_some α backend net' _ rfl d
      rw [hposted]
      obtain ⟨hcore, entry', he', hclosing, hidle, hlength, -⟩ :=
        ih rfl rfl (popped_core he hqueue h op hevents)
      have hshorter : entry'.sendQueue.length < (d :: rest).length := Nat.lt_succ_of_le hlength
      exact ⟨hcore, entry', he', hclosing, hidle, hshorter.le, fun _ _ => hshorter⟩

theorem finishClose_sound {entry : DatagramEntry α} (he : net.entry = some entry)
    (hidle : entry.sendOp = none → entry.sendQueue = []) (h : Core exact net) :
    Sound exact (finishClose net) := by
  have halive := (h.charged entry he).alive
  simp only [finishClose, he]
  split
  · rename_i hdone
    apply udpTeardown_sound he _ h
    apply hidle
    simpa using hdone.2.2
  · rename_i hdone
    refine ⟨h, fun entry' he' => ?_⟩
    obtain rfl := Option.some.inj (he.symm.trans he')
    refine ⟨hidle, fun hclosing hop => hdone ?_⟩
    simp [hclosing, halive, hop]

/-- The entry keeps its queue and its mark, and reports what it likes. -/
theorem Core.change {entry : DatagramEntry α} (he : net.entry = some entry) (h : Core exact net)
    (entry' : DatagramEntry α) (hcharged : entry'.Charged exact)
    (hqueue : entry'.sendQueue = entry.sendQueue) (hclosing : entry'.closing = entry.closing)
    {events : List (NetEvent α)} (hevents : events.countP NetEvent.isLost = 0) :
    Core exact { net with entry := some entry', events := net.events ++ events } := by
  have horder := h.order
  have hwhole := h.whole
  have hlost := h.lost
  have howed := h.owed
  constructor
  · simpa [NetState.queued, he, hqueue] using horder
  · simpa [NetState.queued, NetState.live, he, hqueue, hclosing] using hwhole
  · rintro _ ⟨⟩
    exact hcharged
  · simpa [he] using hlost
  · simp only [List.countP_append, hevents]
    omega

/-- A closing endpoint is gone after the completion, or has fewer datagrams left. -/
def Drains (entry : DatagramEntry α) (net : NetState α) : Prop :=
  ∀ entry', net.entry = some entry' →
    entry'.closing = true ∧ entry'.sendQueue.length < entry.sendQueue.length

theorem dgramPumpSend_sound {entry : DatagramEntry α} (he : net.entry = some entry)
    (hop : entry.sendOp = none) (h : Core exact net) :
    Sound exact (dgramPumpSend backend net) ∧
      (entry.closing = true → Drains entry (dgramPumpSend backend net)) := by
  obtain ⟨hcore, entry', he', hclosing, hidle, -, hlength⟩ :=
    @pumpQueue_core α backend net exact entry.sendQueue entry he rfl h
  simp only [dgramPumpSend, he]
  refine ⟨finishClose_sound he' hidle hcore, fun hentry => ?_⟩
  have halive := (hcore.charged entry' he').alive
  rw [hentry] at hclosing
  simp only [Drains, finishClose, he', hclosing, halive]
  intro entry'' he''
  split at he''
  · simp [udpTeardown, he', halive] at he''
  · rename_i hbusy
    obtain rfl := Option.some.inj (he'.symm.trans he'')
    refine ⟨hclosing, hlength hop fun hempty => hbusy ?_⟩
    -- with nothing queued the pump posts nothing
    rw [hempty] at he'
    obtain rfl := Option.some.inj (he.symm.trans he')
    simp [hop]

theorem onDgramSendDone_sound (osError : Nat) (h : Sound exact net) :
    Sound exact (onDgramSendDone backend osError net) ∧
      ∀ entry, net.entry = some entry → entry.closing = true →
        Drains entry (onDgramSendDone backend osError net) := by
  unfold onDgramSendDone
  cases he : net.entry with
  | none => exact ⟨h, by simp⟩
  | some entry =>
    have hcharged := h.charged entry he
    have hdone (events : List (NetEvent α)) (hevents : events.countP NetEvent.isLost = 0) :
        Sound exact (dgramPumpSend backend { net with
            entry := some { entry with sendOp := none }
            events := net.events ++ events }) ∧
          (entry.closing = true → Drains entry (dgramPumpSend backend { net with
            entry := some { entry with sendOp := none }
            events := net.events ++ events })) := by
      refine @dgramPumpSend_sound α backend _ exact { entry with sendOp := none } rfl rfl ?_
      apply h.toCore.change he { entry with sendOp := none } _ rfl rfl hevents
      exact ⟨hcharged.alive, hcharged.covers, hcharged.exactly, hcharged.bounded⟩
    dsimp only
    split
    · refine ⟨(hdone [.dgramError osError] rfl).1, ?_⟩
      rintro _ ⟨⟩
      exact (hdone [.dgramError osError] rfl).2
    · have hsilent := hdone [] rfl
      simp only [List.append_nil] at hsilent
      refine ⟨hsilent.1, ?_⟩
      rintro _ ⟨⟩
      exact hsilent.2

theorem udpSendto_sound {d : Datagram α} {net' : NetState α}
    (hsent : udpSendto backend d net = .ok net') (h : Sound exact net) : Sound exact net' := by
  unfold udpSendto at hsent
  cases he : net.entry with
  | none => simp [he] at hsent
  | some entry =>
    have hcharged := h.charged entry he
    have hsettled := h.settled entry he
    have horder := h.order
    have hwhole := h.whole
    have hlost := h.lost
    have howed := h.owed
    simp only [he] at hsent
    split at hsent
    · simp at hsent
    rename_i hopen
    have hclosing : entry.closing = false := by
      simp only [not_or, Bool.not_eq_true] at hopen
      exact hopen.1
    have hlive : net.live = true := by simp [NetState.live, he, hclosing]
    have hall := hwhole (.inr hlive)
    rw [queued_some he] at hall
    split at hsent
    · split at hsent
      -- the queue is full: dropped and reported
      · cases hsent
        have hcore := h.toCore.change he entry hcharged rfl rfl
          (rfl : [NetEvent.dgramError enobufs].countP NetEvent.isLost = 0)
        refine ⟨hcore, fun entry' he' => ?_⟩
        exact h.settled entry' (he.trans he')
      · rename_i hop hroom
        cases hsent
        constructor
        · constructor
          · simp [NetState.queued, ← hall]
          · simp [NetState.queued, ← hall]
          · rintro _ ⟨⟩
            have hcovers := hcharged.covers
            constructor
            · exact hcharged.alive
            · simp only [charges_concat, Datagram.charge]
              omega
            · intro hexact
              have := hcharged.exactly hexact
              simp only [charges_concat, Datagram.charge]
              omega
            · dsimp only
              omega
          · simpa [he] using hlost
          · exact howed
        · rintro _ ⟨⟩
          constructor
          · rintro (hnone : entry.sendOp = none)
            simp [hnone] at hop
          · intro hclosing'
            simp [hclosing] at hclosing'
    · rename_i hop
      have hnone : entry.sendOp = none := by simpa using hop
      have hempty := hsettled.idle hnone
      rw [hempty, List.append_nil] at hall
      obtain ⟨op, events, hposted, hevents, -⟩ := @dgramSendNow_some α backend
        { net with accepted := net.accepted ++ [d] } entry he d
      simp only [he] at hposted
      rw [hposted] at hsent
      cases hsent
      constructor
      · constructor
        · simp [NetState.queued, hempty, hall]
        · simp [NetState.queued, hempty, hall]
        · rintro _ ⟨⟩
          exact ⟨hcharged.alive, hcharged.covers, hcharged.exactly, hcharged.bounded⟩
        · simpa [he] using hlost
        · simp only [List.countP_append, hevents]
          omega
      · rintro _ ⟨⟩
        constructor
        · exact fun _ => hempty
        · intro hclosing'
          simp [hclosing] at hclosing'

/-- An abort that drops nothing, or a close that lets the queue drain. -/
def NetOp.Keeps (net : NetState α) (op : NetOp α) : Prop := op = .udpClose true → net.queued = []

theorem closing_sound {entry : DatagramEntry α} (he : net.entry = some entry)
    (h : Sound exact net) {queue : List (Datagram α)}
    (hqueue : queue = entry.sendQueue ∨ queue = [] ∧ (exact → entry.sendQueue = [])) :
    Sound exact
      (if entry.sendOp.isNone ∧ queue = [] then
        udpTeardown false
          { net with entry := some { entry with closing := true, sendQueue := queue } }
      else { net with entry := some { entry with closing := true, sendQueue := queue } }) := by
  have hcharged := h.charged entry he
  have hsettled := h.settled entry he
  have horder := h.order
  have hwhole := h.whole
  have hlost := h.lost
  rw [queued_some he] at horder hwhole
  have hcore : Core exact
      { net with entry := some { entry with closing := true, sendQueue := queue } } := by
    constructor
    · rcases hqueue with rfl | ⟨rfl, -⟩
      · simpa [NetState.queued] using horder
      · simpa [NetState.queued] using (List.prefix_append _ _).trans horder
    · rintro (hexact | hlive)
      · have hall := hwhole (.inl hexact)
        rcases hqueue with rfl | ⟨rfl, hempty⟩
        · simpa [NetState.queued] using hall
        · simpa [NetState.queued, hempty hexact] using hall
      · simp [NetState.live] at hlive
    · rintro _ ⟨⟩
      rcases hqueue with rfl | ⟨rfl, hempty⟩
      · exact ⟨hcharged.alive, hcharged.covers, hcharged.exactly, hcharged.bounded⟩
      · refine ⟨hcharged.alive, Nat.zero_le _, fun hexact => ?_, hcharged.bounded⟩
        have hcost := hcharged.exactly hexact
        rwa [hempty hexact] at hcost
    · simpa [he] using hlost
    · exact h.owed
  split
  · rename_i hdone
    exact udpTeardown_sound rfl hdone.2 hcore false
  · rename_i hdone
    refine ⟨hcore, ?_⟩
    rintro _ ⟨⟩
    have hidle (hnone : entry.sendOp = none) : queue = [] := by
      rcases hqueue with rfl | ⟨rfl, -⟩
      · exact hsettled.idle hnone
      · rfl
    refine ⟨hidle, fun _ (hnone : entry.sendOp = none) => hdone ?_⟩
    simp [hnone, hidle hnone]

theorem udpClose_sound {abort : Bool} (h : Sound exact net)
    (hkeeps : exact → NetOp.Keeps net (.udpClose abort)) : Sound exact (udpClose abort net) := by
  unfold udpClose
  cases he : net.entry with
  | none => exact h
  | some entry =>
    have halive := (h.charged entry he).alive
    cases abort with
    | false => simpa [halive] using closing_sound he h (.inl rfl)
    | true =>
      have hempty (hexact : exact) : entry.sendQueue = [] := by
        rw [← queued_some he]
        exact hkeeps hexact rfl
      simpa [halive] using closing_sound he h (.inr ⟨rfl, hempty⟩)

/-- The receiving side changes nothing of the sending one. -/
theorem Sound.receiving {entry : DatagramEntry α} (he : net.entry = some entry)
    (h : Sound exact net) (recvOp recvStarved : Bool) {events : List (NetEvent α)}
    (hevents : events.countP NetEvent.isLost = 0) :
    Sound exact { net with
      entry := some { entry with recvOp := recvOp, recvStarved := recvStarved }
      events := net.events ++ events } := by
  have hcharged := h.charged entry he
  have hsettled := h.settled entry he
  constructor
  · apply h.toCore.change he { entry with recvOp := recvOp, recvStarved := recvStarved } _ rfl rfl
      hevents
    exact ⟨hcharged.alive, hcharged.covers, hcharged.exactly, hcharged.bounded⟩
  · rintro _ ⟨⟩
    exact ⟨hsettled.idle, hsettled.waits⟩

theorem dgramPostRecv_cases (ok : Bool) (entry : DatagramEntry α) :
    (∃ recvOp, dgramPostRecv ok entry = .ok { entry with recvOp := recvOp }) ∨
      dgramPostRecv ok entry = .error () := by
  unfold dgramPostRecv
  split_ifs
  · exact .inl ⟨entry.recvOp, rfl⟩
  · exact .inl ⟨true, rfl⟩
  · exact .inr rfl

theorem received_cases (result : Except Nat (Datagram α)) (postOk : Bool)
    (entry : DatagramEntry α) :
    ∃ recvOp recvStarved events starves,
      entry.received result postOk =
        ({ entry with recvOp := recvOp, recvStarved := recvStarved }, events, starves) ∧
      events.countP NetEvent.isLost = 0 := by
  unfold DatagramEntry.received
  dsimp only
  rcases dgramPostRecv_cases postOk { entry with recvOp := false } with ⟨recvOp, hpost⟩ | hpost
  · simp only [hpost]
    split
    · exact ⟨false, entry.recvStarved, [], false, rfl, rfl⟩
    · cases result with
      | ok d => exact ⟨recvOp, entry.recvStarved, _, false, rfl, rfl⟩
      | error err =>
        dsimp only
        split
        · exact ⟨false, entry.recvStarved, [], false, rfl, rfl⟩
        · exact ⟨recvOp, entry.recvStarved, _, false, rfl, rfl⟩
  · simp only [hpost]
    split
    · exact ⟨false, entry.recvStarved, [], false, rfl, rfl⟩
    · cases result with
      | ok d => exact ⟨false, true, _, true, rfl, rfl⟩
      | error err =>
        dsimp only
        split
        · exact ⟨false, entry.recvStarved, [], false, rfl, rfl⟩
        · exact ⟨false, true, _, true, rfl, rfl⟩

theorem retried_cases (postOk : Bool) (entry : DatagramEntry α) :
    ∃ recvOp recvStarved fails,
      entry.retried postOk = ({ entry with recvOp := recvOp, recvStarved := recvStarved }, fails) := by
  unfold DatagramEntry.retried
  split
  · rcases dgramPostRecv_cases postOk entry with ⟨recvOp, hpost⟩ | hpost
    · exact ⟨recvOp, false, false, by simp [hpost]⟩
    · exact ⟨entry.recvOp, entry.recvStarved, true, by simp [hpost]⟩
  · exact ⟨entry.recvOp, entry.recvStarved, false, rfl⟩

theorem onDgramRecvDone_sound (result : Except Nat (Datagram α)) (postOk : Bool)
    (h : Sound exact net) : Sound exact (onDgramRecvDone result postOk net) := by
  cases he : net.entry with
  | none => simpa only [onDgramRecvDone, he] using h
  | some entry =>
    obtain ⟨recvOp, recvStarved, events, starves, hentry, hevents⟩ :=
      received_cases result postOk entry
    simp only [onDgramRecvDone, he, hentry]
    exact h.receiving he recvOp recvStarved hevents

theorem retryStarved_sound (postOk : Bool) (h : Sound exact net) :
    Sound exact (retryStarved postOk net) := by
  cases he : net.entry with
  | none =>
    have hsame : retryStarved postOk net = net := by
      cases net
      cases he
      rfl
    rwa [hsame]
  | some entry =>
    obtain ⟨recvOp, recvStarved, fails, hentry⟩ := retried_cases postOk entry
    have hsound := h.receiving he recvOp recvStarved (rfl : [].countP NetEvent.isLost = 0)
    simpa [retryStarved, he, hentry] using hsound

/-- The events and the calls change, and a `connection_lost` owed stays owed or is made. -/
theorem Sound.announced {scheduled : Nat} {events : List (NetEvent α)} {calls : List (Call α)}
    (h : Sound exact net)
    (howed : scheduled + events.countP NetEvent.isLost + calls.countP Call.isLost =
      net.scheduled + net.events.countP NetEvent.isLost + net.calls.countP Call.isLost) :
    Sound exact { net with scheduled := scheduled, events := events, calls := calls } := by
  constructor
  · exact ⟨h.order, h.whole, h.charged, h.lost, howed.trans h.owed⟩
  · exact h.settled

theorem isLost_of_deferred {event : NetEvent α} (h : event.deferred = true) :
    event.isLost = true := by
  cases event with
  | dgramLost immediate => rfl
  | dgramData payload addr => simp [NetEvent.deferred] at h
  | dgramError err => simp [NetEvent.deferred] at h

theorem countP_deferred (events : List (NetEvent α)) :
    events.countP NetEvent.deferred + (events.filter (!·.deferred)).countP NetEvent.isLost =
      events.countP NetEvent.isLost := by
  induction events with
  | nil => rfl
  | cons event events ih =>
    by_cases hdeferred : event.deferred = true
    · have hlost := isLost_of_deferred hdeferred
      rw [List.countP_cons_of_pos hdeferred, List.countP_cons_of_pos hlost,
        List.filter_cons_of_neg (by simp [hdeferred])]
      omega
    · rw [List.countP_cons_of_neg hdeferred, List.filter_cons_of_pos (by simpa using hdeferred),
        List.countP_cons, List.countP_cons]
      omega

theorem schedulePendingLost_sound (h : Sound exact net) : Sound exact (schedulePendingLost net) := by
  apply h.announced
  have := countP_deferred net.events
  omega

theorem dispatch_sound (h : Sound exact net) : Sound exact (dispatch net) := by
  unfold dispatch
  cases hevents : net.events with
  | nil => exact h
  | cons event events =>
    cases event with
    | dgramData payload addr =>
      simp only [handle]
      split
      · apply h.announced
        simp [hevents, NetEvent.isLost, Call.isLost]
      · apply h.announced
        simp [hevents, NetEvent.isLost]
    | dgramError err =>
      simp only [handle]
      split
      · apply h.announced
        simp [hevents, NetEvent.isLost, Call.isLost]
      · apply h.announced
        simp [hevents, NetEvent.isLost]
    | dgramLost immediate =>
      simp only [handle]
      split
      · apply h.announced
        simp only [hevents, List.countP_cons, List.countP_append, List.countP_nil, NetEvent.isLost,
          Call.isLost, if_true]
        omega
      · apply h.announced
        simp only [hevents, List.countP_cons, NetEvent.isLost, if_true]
        omega

theorem lostCall_sound (h : Sound exact net) : Sound exact (lostCall net) := by
  unfold lostCall
  split
  · exact h
  · apply h.announced
    simp only [List.countP_append, List.countP_singleton, Call.isLost, if_true]
    omega

/-! ## 3. Runs -/

theorem netStep_sound (op : NetOp α) (h : Sound exact net) (hkeeps : exact → op.Keeps net) :
    Sound exact (netStep backend net op) := by
  cases op with
  | udpSendto data addr =>
    simp only [netStep]
    cases hsent : udpSendto backend ⟨data, addr⟩ net with
    | ok net' => exact udpSendto_sound hsent h
    | error err => exact h
  | udpClose abort => exact schedulePendingLost_sound (udpClose_sound h hkeeps)
  | sendDone osError => exact (onDgramSendDone_sound osError h).1
  | recvDone result postOk => exact onDgramRecvDone_sound result postOk h
  | retryStarved postOk => exact retryStarved_sound postOk h
  | dispatch => exact dispatch_sound h
  | lostCall => exact lostCall_sound h

theorem udpWire_sound : Sound exact (udpWire : NetState α) := by
  constructor
  · constructor
    · exact List.prefix_refl _
    · exact fun _ => rfl
    · rintro _ ⟨⟩
      exact ⟨rfl, Nat.le_refl _, fun _ => rfl, Nat.zero_le _⟩
    · rfl
    · rfl
  · rintro _ ⟨⟩
    exact ⟨fun _ => rfl, by simp⟩

theorem netStep_gone (op : NetOp α) (h : net.entry = none) :
    (netStep backend net op).entry = none ∧
      ∃ calls, (netStep backend net op).calls = net.calls ++ calls ∧
        ∀ call ∈ calls, call = .connectionLost := by
  cases op with
  | udpSendto data addr => simp [netStep, udpSendto, h]
  | udpClose abort => simp [netStep, udpClose, schedulePendingLost, h]
  | sendDone osError => simp [netStep, onDgramSendDone, h]
  | recvDone result postOk => simp [netStep, onDgramRecvDone, h]
  | retryStarved postOk => simp [netStep, retryStarved, h]
  | dispatch =>
    simp only [netStep, dispatch]
    split
    · exact ⟨h, [], by simp⟩
    · rename_i event events hevents
      cases event with
      | dgramData payload addr => simp [handle, h]
      | dgramError err => simp [handle, h]
      | dgramLost immediate =>
        simp only [handle]
        split
        · exact ⟨h, [.connectionLost], rfl, by simp⟩
        · exact ⟨h, [], by simp⟩
  | lostCall =>
    simp only [netStep, lostCall]
    split
    · exact ⟨h, [], by simp⟩
    · exact ⟨h, [.connectionLost], rfl, by simp⟩

/-- Of an endpoint that is gone nothing is called but `connection_lost`. -/
theorem foldl_gone (ops : List (NetOp α)) (h : net.entry = none) :
    ∃ calls, (ops.foldl (netStep backend) net).calls = net.calls ++ calls ∧
      ∀ call ∈ calls, call = .connectionLost := by
  induction ops generalizing net with
  | nil => exact ⟨[], by simp⟩
  | cons op ops ih =>
    obtain ⟨hgone, calls, hcalls, hall⟩ := @netStep_gone α backend net op h
    obtain ⟨more, hmore, hrest⟩ := ih hgone
    refine ⟨calls ++ more, ?_, ?_⟩
    · rw [List.foldl_cons, hmore, hcalls, List.append_assoc]
    · intro call hcall
      exact (List.mem_append.mp hcall).elim (hall call) (hrest call)

/-- A closing endpoint is gone once the sends it waits for are through. -/
theorem foldl_sendDone (osErrors : List Nat) {entry : DatagramEntry α}
    (he : net.entry = some entry) (hclosing : entry.closing = true)
    (hlength : entry.sendQueue.length < osErrors.length) (h : Sound exact net) :
    ((osErrors.map NetOp.sendDone).foldl (netStep backend) net).entry = none := by
  induction osErrors generalizing net entry with
  | nil => simp at hlength
  | cons osError osErrors ih =>
    obtain ⟨hsound, hdrains⟩ := @onDgramSendDone_sound α backend net exact osError h
    rw [List.map_cons, List.foldl_cons]
    change (List.foldl (netStep backend) (onDgramSendDone backend osError net) _).entry = none
    cases he' : (onDgramSendDone backend osError net).entry with
    | none =>
      clear ih hlength
      have hstays (net : NetState α) (ops : List (NetOp α)) (hgone : net.entry = none) :
          (ops.foldl (netStep backend) net).entry = none := by
        induction ops generalizing net with
        | nil => exact hgone
        | cons op ops ih => exact ih _ (netStep_gone op hgone).1
      exact hstays _ _ he'
    | some entry' =>
      obtain ⟨hclosing', hshorter⟩ := hdrains entry he hclosing entry' he'
      rw [List.length_cons] at hlength
      exact ih he' hclosing' (by omega) hsound

/-! ## 4. The discipline -/

/-- How often the protocol was told that the endpoint is gone. -/
def NetState.lostCalls (net : NetState α) : Nat := net.calls.countP Call.isLost

/-- What a datagram endpoint keeps to at the end of every operation. -/
structure Disciplined (net : NetState α) : Prop where
  -- in the order they were accepted, each at most once
  inOrder : net.posted <+: net.accepted
  charged : udpQueuedBytes net = (net.queued.map fun d => d.data.length + dgramPerPacket).sum
  bounded : udpQueuedBytes net ≤ dgramSendQueueMax
  idle : ∀ entry, net.entry = some entry → entry.sendOp = none → entry.sendQueue = []
  -- what is not posted yet is queued
  kept : net.posted ++ net.queued = net.accepted
  drained : net.entry = none → net.posted = net.accepted
  lost : net.lost = if net.entry.isSome then 0 else 1
  told : net.lostCalls ≤ net.lost

theorem Sound.disciplined (h : Sound True net) : Disciplined net := by
  have hkept := h.whole (.inl trivial)
  have howed := h.owed
  constructor
  · rw [← hkept]
    exact List.prefix_append _ _
  · cases he : net.entry with
    | none => simp [udpQueuedBytes, NetState.queued, he]
    | some entry =>
      rw [udpQueuedBytes, queued_some he, he]
      exact (h.charged entry he).exactly trivial
  · cases he : net.entry with
    | none => simp [udpQueuedBytes, he]
    | some entry => simpa [udpQueuedBytes, he] using (h.charged entry he).bounded
  · exact fun entry he => (h.settled entry he).idle
  · exact hkept
  · intro hgone
    rw [queued_none hgone, List.append_nil] at hkept
    exact hkept
  · exact h.lost
  · unfold NetState.lostCalls
    omega

theorem run_sound (ops : List (NetOp α))
    (h : (endpoint backend).Along (fun net op => exact → op.Keeps net) ops) :
    Sound exact ((endpoint backend).run ops) := by
  apply (endpoint backend).run_invariant_along (P := fun net op => exact → op.Keeps net) _ _ ops h
  · exact udpWire_sound
  · exact fun net op hnet hkeeps => netStep_sound op hnet hkeeps

/-- In every run in which no abort finds datagrams queued, the endpoint keeps to its discipline; once
it closes it is gone after the sends it waits for, and then only its `connection_lost` is called. -/
theorem endpoint_disciplined (backend : Backend) (ops : List (NetOp α))
    (h : (endpoint backend).Along (fun net op => op = .udpClose true → net.queued = []) ops) :
    let net := (endpoint backend).run ops
    Disciplined net ∧
      (∀ entry, net.entry = some entry → entry.closing = true → ∀ osErrors : List Nat,
        entry.sendQueue.length < osErrors.length →
          ((endpoint backend).run (ops ++ osErrors.map .sendDone)).entry = none) ∧
      (net.entry = none → ∀ later, ∃ calls,
        ((endpoint backend).run (ops ++ later)).calls = net.calls ++ calls ∧
          ∀ call ∈ calls, call = .connectionLost) := by
  intro net
  have hsound : Sound True net := run_sound ops fun pre op hpre _ => h pre op hpre
  refine ⟨hsound.disciplined, ?_, ?_⟩
  · intro entry he hclosing osErrors hlength
    have hgone := @foldl_sendDone α backend net True osErrors entry he hclosing hlength hsound
    rw [Machine.run, List.foldl_append]
    exact hgone
  · intro hgone later
    obtain ⟨calls, hcalls⟩ := @foldl_gone α backend net later hgone
    refine ⟨calls, ?_⟩
    rw [Machine.run, List.foldl_append]
    exact hcalls

/-- The second datagram waits for the first; the abort comes when it is with the kernel. -/
theorem endpoint_disciplined_abort :
    let ops : List (NetOp Nat) :=
      [.udpSendto [1] none, .udpSendto [] (some 7), .sendDone 0, .udpClose true]
    (endpoint ⟨.ok⟩).Along (fun net op => op = .udpClose true → net.queued = []) ops ∧
      Disciplined ((endpoint ⟨.ok⟩).run ops) := by
  have h : (endpoint ⟨.ok⟩).Along
      (fun (net : NetState Nat) op => op = .udpClose true → net.queued = [])
      ([] ++ [.udpSendto [1] none] ++ [.udpSendto [] (some 7)] ++ [.sendDone 0] ++
        [.udpClose true]) := by
    rw [Machine.along_concat, Machine.along_concat, Machine.along_concat, Machine.along_concat]
    refine ⟨⟨⟨⟨Machine.along_nil _ _, ?_⟩, ?_⟩, ?_⟩, fun _ => rfl⟩ <;> exact fun h => nomatch h
  exact ⟨h, (endpoint_disciplined ⟨.ok⟩ _ h).1⟩

/-- The abort drops the second datagram and leaves what it cost on the counter. -/
theorem charge_left_behind :
    ¬ ∀ (backend : Backend) (ops : List (NetOp Nat)),
      udpQueuedBytes ((endpoint backend).run ops) =
        (((endpoint backend).run ops).queued.map fun d => d.data.length + dgramPerPacket).sum := by
  intro h
  have hdrift := h ⟨.ok⟩ [.udpSendto [1] none, .udpSendto [2] none, .udpClose true]
  revert hdrift
  decide

end Cadeloop.Pyshim.Udp
