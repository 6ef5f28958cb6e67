import Cadeloop.Pyshim.Listeners
import Cadeloop.Pyshim.DatagramRuns

/-!
# No listener goes deaf

A listener that accepts has an accept outstanding, or it waits for the tick and the flag is up.  The
retry takes the flag down and puts it up again for whoever still waits, so the invariant is said of
each listener and each endpoint, and a sweep settles them one after another.
-/

namespace Cadeloop.Pyshim.Listening

open Cadeloop.Reasoning

variable {α : Type*} {backend : Backend} {udp : Udp.Backend} {net net' : NetState α} {lid : Nat}

/-! ## 1. The invariant -/

structure ListenerEntry.Heard (flag : Bool) (l : ListenerEntry) : Prop where
  awake : l.started = true → l.closing = false → l.acceptOps ≠ [] ∨ l.starved = true
  raised : l.starved = true → l.closing = false → flag = true
  soon : l.starved = true → l.retryAt ≤ l.starvedAt + acceptRetryDelay
  empty : l.starved = true → l.acceptOps = []

def Heard (net : NetState α) (lid : Nat) : Prop :=
  ∀ l, net.listener lid = some l → l.Heard net.anyStarvedListener

def Received (net : NetState α) (did : Nat) : Prop :=
  ∀ endpoint entry, net.datagrams[did]? = some endpoint → endpoint.entry = some entry →
    entry.deaf = true → net.anyStarvedListener = true

structure Attentive (net : NetState α) : Prop where
  heard : ∀ lid, Heard net lid
  received : ∀ did, Received net did
  endpoints : ∀ endpoint ∈ net.datagrams, Udp.Sound False endpoint

theorem ListenerEntry.Heard.mono {flag flag' : Bool} {l : ListenerEntry} (h : l.Heard flag)
    (hflag : flag = true → flag' = true) : l.Heard flag' :=
  ⟨h.awake, fun hstarved hclosing => hflag (h.raised hstarved hclosing), h.soon, h.empty⟩

/-! ## 2. The table -/

theorem listener_eq (net : NetState α) (lid : Nat) :
    net.listener lid = (net.listeners[lid]?).getD none := by
  simp [NetState.listener]

theorem lid_lt {l : ListenerEntry} (h : net.listener lid = some l) :
    lid < net.listeners.length := by
  by_contra hlid
  rw [listener_eq, List.getElem?_eq_none (Nat.le_of_not_lt hlid)] at h
  simp at h

theorem setListener_self {l : ListenerEntry} (h : net.listener lid = some l)
    (x : Option ListenerEntry) : (net.setListener lid x).listener lid = x := by
  have hlt := lid_lt h
  simp [NetState.setListener, listener_eq, hlt]

theorem setListener_none : (net.setListener lid none).listener lid = none := by
  rw [listener_eq, NetState.setListener, List.getElem?_set_self']
  cases net.listeners[lid]? <;> rfl

theorem setListener_ne {j : Nat} (h : j ≠ lid) (x : Option ListenerEntry) :
    (net.setListener lid x).listener j = net.listener j := by
  simp [NetState.setListener, listener_eq, List.getElem?_set_ne h.symm]

/-- One listener's operation leaves the others, the endpoints and the time alone, and takes no flag
down. -/
structure Apart (lid : Nat) (net net' : NetState α) : Prop where
  others : ∀ j, j ≠ lid → net'.listener j = net.listener j
  datagrams : net'.datagrams = net.datagrams
  flag : net.anyStarvedListener = true → net'.anyStarvedListener = true
  nowNs : net'.nowNs = net.nowNs

namespace Apart

theorem refl (lid : Nat) (net : NetState α) : Apart lid net net :=
  ⟨fun _ _ => rfl, rfl, id, rfl⟩

theorem trans {net'' : NetState α} (h : Apart lid net net') (h' : Apart lid net' net'') :
    Apart lid net net'' where
  others j hj := (h'.others j hj).trans (h.others j hj)
  datagrams := h'.datagrams.trans h.datagrams
  flag hflag := h'.flag (h.flag hflag)
  nowNs := h'.nowNs.trans h.nowNs

theorem set (lid : Nat) (x : Option ListenerEntry) (net : NetState α) :
    Apart lid net (net.setListener lid x) :=
  ⟨fun _ hj => setListener_ne hj x, rfl, id, rfl⟩

theorem starve (delay lid : Nat) (l : ListenerEntry) (net : NetState α) :
    Apart lid net (starve delay lid l net) :=
  ⟨fun _ hj => setListener_ne hj _, rfl, fun _ => rfl, rfl⟩

theorem heard (h : Apart lid net net') (hlid : Heard net' lid) {j : Nat} (hj : Heard net j) :
    Heard net' j := by
  by_cases hsame : j = lid
  · rwa [hsame]
  · intro l hl
    rw [h.others j hsame] at hl
    exact (hj l hl).mono h.flag

theorem received (h : Apart lid net net') {did : Nat} (hdid : Received net did) :
    Received net' did := by
  intro endpoint entry he hentry hdeaf
  rw [h.datagrams] at he
  exact h.flag (hdid endpoint entry he hentry hdeaf)

theorem attentive (h : Apart lid net net') (hlid : Heard net' lid) (hnet : Attentive net) :
    Attentive net' :=
  ⟨fun j => h.heard hlid (hnet.heard j), fun did => h.received (hnet.received did), by
    rw [h.datagrams]
    exact hnet.endpoints⟩

end Apart

/-! ## 3. Posting -/

theorem saturatingAdd_le (a b : Nat) : saturatingAdd a b ≤ a + b := min_le_left _ _

/-- What posting does to a listener that is there. -/
structure Posted (lid : Nat) (l : ListenerEntry) (net' : NetState α) (l' : ListenerEntry) : Prop where
  here : net'.listener lid = some l'
  heard : l'.Heard net'.anyStarvedListener
  closing : l'.closing = l.closing
  started : l'.started = l.started
  asked : l.asked ≤ l'.asked

theorem starve_posted {l₀ l : ListenerEntry} (h : net.listener lid = some l₀)
    (hempty : l.acceptOps = []) {delay : Nat} (hdelay : delay ≤ acceptRetryDelay) : ∃ l', Posted lid l (starve delay lid l net) l' := by
  refine ⟨_, setListener_self h _, ?_, rfl, rfl, le_rfl⟩
  constructor
  · exact fun _ _ => .inr rfl
  · exact fun _ _ => rfl
  · intro _
    have := saturatingAdd_le net.nowNs delay
    dsimp only
    omega
  · exact fun _ => hempty

theorem acceptRefused_posted {l₀ l : ListenerEntry} (h : net.listener lid = some l₀)
    (hl : l.starved = true → l.Heard net.anyStarvedListener) (report : Bool) (error : PostError) :
    Apart lid net (acceptRefused report lid l error net) ∧
      ∃ l', Posted lid l (acceptRefused report lid l error net) l' := by
  unfold acceptRefused
  split
  · rename_i hops
    refine ⟨.set lid _ net, l, setListener_self h _, ?_, rfl, rfl, le_rfl⟩
    exact ⟨fun _ _ => .inl hops, fun hstarved => (hl hstarved).raised hstarved,
      fun hstarved => (hl hstarved).soon hstarved, fun hstarved => (hl hstarved).empty hstarved⟩
  · rename_i hops
    have hempty := not_not.mp hops
    cases error with
    | wouldBlock => exact ⟨.starve _ lid l net, starve_posted h hempty (by decide)⟩
    | failed rawOsError =>
      have hstarve := Apart.starve acceptRetryDelay lid l net
      obtain ⟨l', hposted⟩ := starve_posted h hempty (le_refl acceptRetryDelay)
      dsimp only
      split
      · exact ⟨⟨hstarve.others, rfl, fun _ => rfl, rfl⟩, l', hposted.here, hposted.heard,
          hposted.closing, hposted.started, hposted.asked⟩
      · exact ⟨hstarve, l', hposted⟩

/-- The loop leaves the pool full, or an accept outstanding, or the flag up. -/
theorem postAcceptsLoop_posted (report : Bool) {room : Nat} {l : ListenerEntry}
    (h : net.listener lid = some l) (hroom : room = l.target - l.acceptOps.length)
    (hl : l.starved = true → l.Heard net.anyStarvedListener) :
    Apart lid net (postAcceptsLoop backend report lid room net) ∧
      ∃ l', Posted lid l (postAcceptsLoop backend report lid room net) l' ∧
        (room ≠ 0 → l.closing = false → l.asked < l'.asked) := by
  induction room generalizing net l with
  | zero =>
    have hfull : l.acceptOps ≠ [] := by
      intro hempty
      have := l.room
      simp [hempty] at hroom
      omega
    simp only [postAcceptsLoop, h, Option.map_some]
    refine ⟨.set lid _ net, _, ⟨setListener_self h _, ?_, rfl, rfl, le_rfl⟩, by simp⟩
    exact ⟨fun _ _ => .inl hfull, by simp, by simp, by simp⟩
  | succ room ih =>
    simp only [postAcceptsLoop, h]
    split
    · rename_i hclosing
      refine ⟨.set lid _ net, _, ⟨setListener_self h _, ?_, rfl, rfl, le_rfl⟩, ?_⟩
      · exact ⟨fun _ hopen => by simp [hclosing] at hopen, by simp, by simp, by simp⟩
      · simp [hclosing]
    · cases backend.postAccept net.posts with
      | ok op =>
        dsimp only
        set l₁ : ListenerEntry := { l with
          asked := l.asked + 1
          acceptOps := l.acceptOps ++ [op]
          starved := false } with hl₁
        set net₁ : NetState α := { net.setListener lid (some l₁) with posts := net.posts + 1 }
        have here : net₁.listener lid = some l₁ := setListener_self h _
        have hless : room = l₁.target - l₁.acceptOps.length := by
          simp only [hl₁, List.length_append, List.length_singleton]
          omega
        obtain ⟨hapart, l', hposted, -⟩ := ih here hless (by simp [hl₁])
        have hfirst : Apart lid net net₁ := ⟨fun _ hj => setListener_ne hj _, rfl, id, rfl⟩
        refine ⟨hfirst.trans hapart, l', ⟨hposted.here, hposted.heard, hposted.closing,
          hposted.started, ?_⟩, ?_⟩
        · exact (Nat.le_succ _).trans hposted.asked
        · exact fun _ _ => hposted.asked
      | error error =>
        dsimp only
        obtain ⟨hapart, l', hposted⟩ := @acceptRefused_posted α { net with posts := net.posts + 1 }
          lid l { l with asked := l.asked + 1 } h
          (fun hstarved => ⟨(hl hstarved).awake, (hl hstarved).raised, (hl hstarved).soon,
            (hl hstarved).empty⟩) report error
        refine ⟨⟨hapart.others, hapart.datagrams, hapart.flag, hapart.nowNs⟩, l',
          ⟨hposted.here, hposted.heard, hposted.closing, hposted.started, ?_⟩, ?_⟩
        · exact (Nat.le_succ _).trans hposted.asked
        · exact fun _ _ => hposted.asked

theorem postAcceptsInner_posted (report : Bool) {l : ListenerEntry}
    (h : net.listener lid = some l) (hl : l.starved = true → l.Heard net.anyStarvedListener) :
    Apart lid net (postAcceptsInner backend report lid net) ∧
      ∃ l', Posted lid l (postAcceptsInner backend report lid net) l' ∧
        (l.acceptOps = [] → l.closing = false → l.asked < l'.asked) := by
  simp only [postAcceptsInner, h]
  obtain ⟨hapart, l', hposted, hasked⟩ :=
    @postAcceptsLoop_posted α backend net lid report _ l h rfl hl
  refine ⟨hapart, l', hposted, fun hempty => hasked ?_⟩
  have := l.room
  simp only [hempty, List.length_nil]
  omega

theorem postAcceptsInner_attentive (report : Bool) (h : Attentive net) (lid : Nat) :
    Attentive (postAcceptsInner backend report lid net) := by
  cases hl : net.listener lid with
  | none => simpa only [postAcceptsInner, hl] using h
  | some l =>
    obtain ⟨hapart, l', hposted, -⟩ :=
      @postAcceptsInner_posted α backend net lid report l hl fun _ => h.heard lid l hl
    apply hapart.attentive _ h
    intro l'' hl''
    obtain rfl := Option.some.inj (hposted.here.symm.trans hl'')
    exact hposted.heard

/-! ## 4. The operations -/

/-- The entry of one listener changes, and nothing else. -/
theorem Attentive.changed {l : ListenerEntry} (h : Attentive net)
    (hl : net.listener lid = some l) {x : Option ListenerEntry}
    (hx : ∀ l', x = some l' → l'.Heard net.anyStarvedListener) :
    Attentive (net.setListener lid x) := by
  apply (Apart.set lid x net).attentive _ h
  intro l' hl'
  rw [setListener_self hl] at hl'
  exact hx l' hl'

theorem listenerRemove_attentive (h : Attentive net) (lid : Nat) :
    Attentive (listenerRemove lid net) := by
  apply (Apart.set lid none net).attentive _ h
  intro l hl
  rw [setListener_none] at hl
  cases hl

theorem listenerStart_attentive (h : Attentive net) (lid : Nat) :
    Attentive (listenerStart backend lid net) := by
  have hposted := @postAcceptsInner_attentive α backend net false h lid
  unfold listenerStart
  dsimp only
  split
  · exact hposted
  · rename_i hfails
    cases hl : (postAcceptsInner backend false lid net).listener lid with
    | none => exact listenerRemove_attentive hposted lid
    | some l =>
      have hops : l.acceptOps ≠ [] := by simpa [startFails, hl] using hfails
      have heard := hposted.heard lid l hl
      apply hposted.changed hl
      rintro _ ⟨⟩
      exact ⟨fun _ _ => .inl hops, heard.raised, heard.soon, heard.empty⟩

theorem listenerCreate_attentive (h : Attentive net) (target : Nat) :
    Attentive (listenerCreate target net) := by
  constructor
  · intro lid l hl
    rw [listener_eq] at hl
    by_cases hlt : lid < net.listeners.length
    · apply h.heard lid l
      rw [listener_eq]
      simpa [listenerCreate, List.getElem?_append_left hlt] using hl
    · by_cases hlast : lid = net.listeners.length
      · simp only [listenerCreate, hlast, List.getElem?_concat_length, Option.getD_some] at hl
        cases hl
        exact ⟨by simp, by simp, by simp, by simp⟩
      · rw [listenerCreate, List.getElem?_eq_none (by simp; omega)] at hl
        simp at hl
  · exact h.received
  · exact h.endpoints

theorem listen_attentive (h : Attentive net) (target : Nat) (start : Bool) :
    Attentive (listen backend target start net) := by
  have hcreated := listenerCreate_attentive h target
  unfold listen
  dsimp only
  split
  · have hstarted := @listenerStart_attentive α backend _ hcreated net.listeners.length
    split
    · exact listenerRemove_attentive hstarted _
    · exact hstarted
  · exact hcreated

/-- A listener that lost an accept is posted again. -/
theorem Attentive.rearmed {l : ListenerEntry} (h : Attentive net) (hapart : Apart lid net net')
    (hl : net'.listener lid = some l) (hstarved : l.starved = true → l.Heard net'.anyStarvedListener) :
    Attentive (postAccepts backend lid net') := by
  obtain ⟨hposts, l', hposted, -⟩ :=
    @postAcceptsInner_posted α backend net' lid true l hl hstarved
  apply (hapart.trans hposts).attentive _ h
  intro l'' hl''
  obtain rfl := Option.some.inj (hposted.here.symm.trans hl'')
  exact hposted.heard

theorem onAcceptDone_attentive (h : Attentive net) (lid op osError : Nat) (sock : Option Nat) :
    Attentive (onAcceptDone backend lid op osError sock net) := by
  unfold onAcceptDone
  cases hl : net.listener lid with
  | none => exact h
  | some l =>
    have heard := h.heard lid l hl
    set l₁ : ListenerEntry := { l with acceptOps := l.acceptOps.filter (· != op) } with hl₁
    have hempty : l₁.starved = true → l₁.acceptOps = [] := by
      intro hstarved
      rw [hl₁]
      simp [heard.empty hstarved]
    have heard₁ : l₁.starved = true → l₁.Heard net.anyStarvedListener :=
      fun hstarved => ⟨fun _ _ => .inr hstarved, heard.raised, heard.soon, hempty⟩
    have here : (net.setListener lid (some l₁)).listener lid = some l₁ := setListener_self hl _
    have hset := Apart.set lid (some l₁) net
    -- the events change nothing of all this
    have hreported (events : List NetEvent) :
        Apart lid net { net.setListener lid (some l₁) with events := events } :=
      ⟨hset.others, hset.datagrams, hset.flag, hset.nowNs⟩
    dsimp only
    split
    · split
      · rename_i hclosing
        apply h.changed hl
        rintro _ ⟨⟩
        exact ⟨fun _ hopen => by simp [hclosing] at hopen, heard.raised, heard.soon, hempty⟩
      · split
        · exact h.rearmed hset here heard₁
        · split
          · rename_i hdry
            have hstarve := (hreported (net.events ++ [.acceptError osError])).trans
              (.starve acceptRetryDelay lid l₁ _)
            obtain ⟨l', hposted⟩ := @starve_posted α
              { net.setListener lid (some l₁) with events := net.events ++ [.acceptError osError] }
              lid l₁ l₁ here hdry acceptRetryDelay le_rfl
            apply hstarve.attentive _ h
            intro l'' hl''
            obtain rfl := Option.some.inj (hposted.here.symm.trans hl'')
            exact hposted.heard
          · rename_i hops
            apply (hreported _).attentive _ h
            intro l' hl'
            obtain rfl := Option.some.inj (here.symm.trans hl')
            exact ⟨fun _ _ => .inl hops, heard.raised, heard.soon, hempty⟩
    · cases sock with
      | none => exact h.rearmed hset here heard₁
      | some sock => exact h.rearmed (hreported _) here heard₁

/-- An endpoint that is deaf was deaf before. -/
def Hears (endpoint endpoint' : Udp.NetState α) : Prop :=
  ∀ entry', endpoint'.entry = some entry' → entry'.deaf = true →
    ∃ entry, endpoint.entry = some entry ∧ entry.deaf = true

namespace Hears

variable {endpoint endpoint' : Udp.NetState α}

theorem refl (endpoint : Udp.NetState α) : Hears endpoint endpoint :=
  fun entry he hdeaf => ⟨entry, he, hdeaf⟩

theorem trans {endpoint'' : Udp.NetState α} (h : Hears endpoint endpoint')
    (h' : Hears endpoint' endpoint'') : Hears endpoint endpoint'' := by
  intro entry he hdeaf
  obtain ⟨entry', he', hdeaf'⟩ := h' entry he hdeaf
  exact h entry' he' hdeaf'

theorem of_eq {entry : Udp.DatagramEntry α} (he : endpoint.entry = some entry)
    (entry' : Udp.DatagramEntry α) (he' : endpoint'.entry = some entry') (hdeaf : entry'.deaf = true → entry.deaf = true) :
    Hears endpoint endpoint' := by
  intro entry'' he''
  obtain rfl := Option.some.inj (he'.symm.trans he'')
  exact fun h => ⟨entry, he, hdeaf h⟩

theorem of_none (he : endpoint'.entry = none) : Hears endpoint endpoint' := by
  intro entry' he'
  rw [he] at he'
  cases he'

theorem same (he : endpoint'.entry = endpoint.entry) : Hears endpoint endpoint' := by
  intro entry' he'
  rw [he] at he'
  exact refl endpoint entry' he'

theorem udpTeardown (immediate : Bool) (endpoint : Udp.NetState α) :
    Hears endpoint (Udp.udpTeardown immediate endpoint) := by
  unfold Udp.udpTeardown
  split
  · exact .refl endpoint
  · split <;> exact .of_none rfl

theorem dgramSendNow (d : Udp.Datagram α) (endpoint : Udp.NetState α) :
    Hears endpoint (Udp.dgramSendNow udp d endpoint) := by
  cases he : endpoint.entry with
  | none => exact .same (by simp [Udp.dgramSendNow, he])
  | some entry =>
    obtain ⟨op, events, hsent, -⟩ := @Udp.dgramSendNow_some α udp endpoint entry he d
    rw [hsent]
    exact .of_eq he { entry with sendOp := op } rfl id

theorem pumpQueue (queue : List (Udp.Datagram α)) (endpoint : Udp.NetState α) :
    Hears endpoint (Udp.pumpQueue udp queue endpoint) := by
  induction queue generalizing endpoint with
  | nil => exact .refl endpoint
  | cons d rest ih =>
    cases he : endpoint.entry with
    | none => exact .same (by simp [Udp.pumpQueue, he])
    | some entry =>
      simp only [Udp.pumpQueue, he]
      split
      · exact .refl endpoint
      · set popped := { entry with
          sendQueue := rest
          queuedBytes := entry.queuedBytes - d.charge }
        exact (Hears.of_eq he popped rfl id).trans ((dgramSendNow d _).trans (ih _))

theorem onDgramSendDone (osError : Nat) (endpoint : Udp.NetState α) :
    Hears endpoint (Udp.onDgramSendDone udp osError endpoint) := by
  cases he : endpoint.entry with
  | none => exact .same (by simp [Udp.onDgramSendDone, he])
  | some entry =>
    have hpump (endpoint : Udp.NetState α) :
        Hears endpoint (Udp.dgramPumpSend udp endpoint) := by
      unfold Udp.dgramPumpSend Udp.finishClose
      split
      · exact .refl endpoint
      · split
        · exact pumpQueue _ endpoint
        · split
          · exact (pumpQueue _ endpoint).trans (.udpTeardown true _)
          · exact pumpQueue _ endpoint
    simp only [Udp.onDgramSendDone, he]
    split
    · exact (Hears.of_eq he { entry with sendOp := none } rfl id).trans (hpump _)
    · exact (Hears.of_eq he { entry with sendOp := none } rfl id).trans (hpump _)

theorem udpSendto {d : Udp.Datagram α} (h : Udp.udpSendto udp d endpoint = .ok endpoint') :
    Hears endpoint endpoint' := by
  unfold Udp.udpSendto at h
  cases he : endpoint.entry with
  | none => simp [he] at h
  | some entry =>
    simp only [he] at h
    split at h
    · cases h
    · split at h
      · split at h
        · cases h
          exact .same he.symm
        · cases h
          refine .of_eq he { entry with
            queuedBytes := entry.queuedBytes + (d.data.length + Udp.dgramPerPacket)
            sendQueue := entry.sendQueue ++ [d] } rfl id
      · cases h
        exact (Hears.same he.symm).trans (.dgramSendNow d _)

theorem udpClose (abort : Bool) (endpoint : Udp.NetState α) :
    Hears endpoint (Udp.udpClose abort endpoint) := by
  cases he : endpoint.entry with
  | none => exact .same (by simp [Udp.udpClose, he])
  | some entry =>
    simp only [Udp.udpClose, he]
    split
    · exact .refl endpoint
    · generalize hmarked : (if abort = true then
        { entry with closing := true, sendQueue := [] } else { entry with closing := true }) = marked
      have hclosing : marked.closing = true := by
        rw [← hmarked]
        split <;> rfl
      have hears : Hears endpoint { endpoint with entry := some marked } :=
        .of_eq he marked rfl fun hdeaf => by simp [Udp.DatagramEntry.deaf, hclosing] at hdeaf
      split
      · exact hears.trans (.udpTeardown false _)
      · exact hears

end Hears

theorem received_deaf {result : Except Nat (Udp.Datagram α)} {postOk : Bool}
    {entry : Udp.DatagramEntry α} (h : (entry.received result postOk).1.deaf = true) :
    entry.deaf = true ∨ (entry.received result postOk).2.2 = true := by
  unfold Udp.DatagramEntry.received at h ⊢
  dsimp only at h ⊢
  rcases Udp.dgramPostRecv_cases postOk { entry with recvOp := false } with ⟨recvOp, hpost⟩ | hpost
  · simp only [hpost] at h ⊢
    left
    split at h
    · exact h
    · cases result with
      | ok d => exact h
      | error err =>
        dsimp only at h
        split at h <;> exact h
  · simp only [hpost] at h ⊢
    split
    · rename_i hclosed
      simp only [hclosed, if_true] at h
      exact .inl h
    · cases result with
      | ok d => exact .inr rfl
      | error err =>
        dsimp only
        split
        · rename_i hclosed hcancelled
          simp only [hclosed, hcancelled, if_true, if_false] at h
          exact .inl h
        · exact .inr rfl

theorem retried_deaf {postOk : Bool} {entry : Udp.DatagramEntry α}
    (h : (entry.retried postOk).1.deaf = true) : (entry.retried postOk).2 = true := by
  unfold Udp.DatagramEntry.retried at h ⊢
  split
  · rename_i hdeaf
    simp only [hdeaf, if_true] at h
    rcases Udp.dgramPostRecv_cases postOk entry with ⟨recvOp, hpost⟩ | hpost
    · simp [hpost, Udp.DatagramEntry.deaf] at h
    · simp [hpost]
  · rename_i hdeaf
    simp only [hdeaf] at h
    exact absurd h hdeaf

/-- Only a receive that cannot be posted again makes an endpoint deaf. -/
theorem netStep_deaf {endpoint : Udp.NetState α} {op : Udp.NetOp α} {entry' : Udp.DatagramEntry α}
    (hop : isRetry op = false)
    (he' : (Udp.netStep udp endpoint op).entry = some entry') (hdeaf : entry'.deaf = true) :
    (∃ entry, endpoint.entry = some entry ∧ entry.deaf = true) ∨ starves endpoint op = true := by
  have hears (h : Hears endpoint (Udp.netStep udp endpoint op)) :
      (∃ entry, endpoint.entry = some entry ∧ entry.deaf = true) ∨ starves endpoint op = true :=
    .inl (h entry' he' hdeaf)
  cases op with
  | udpSendto data addr =>
    apply hears
    simp only [Udp.netStep]
    cases hsent : Udp.udpSendto udp ⟨data, addr⟩ endpoint with
    | ok endpoint' => exact .udpSendto hsent
    | error err => exact .refl endpoint
  | udpClose abort =>
    apply hears
    exact (Hears.udpClose abort endpoint).trans (.same rfl)
  | sendDone osError => exact hears (.onDgramSendDone osError endpoint)
  | recvDone result postOk =>
    cases he : endpoint.entry with
    | none => simp [Udp.netStep, Udp.onDgramRecvDone, he] at he'
    | some entry =>
      simp only [Udp.netStep, Udp.onDgramRecvDone, he, Option.some.injEq] at he'
      rw [← he'] at hdeaf
      rcases received_deaf hdeaf with hbefore | hstarves
      · exact .inl ⟨entry, rfl, hbefore⟩
      · exact .inr (by simpa [starves, he] using hstarves)
  | retryStarved postOk => cases hop
  | dispatch =>
    apply hears
    apply Hears.same
    simp only [Udp.netStep, Udp.dispatch]
    split
    · rfl
    · unfold Udp.handle
      repeat' split
      all_goals rfl
  | lostCall =>
    apply hears
    apply Hears.same
    simp only [Udp.netStep, Udp.lostCall]
    split <;> rfl

theorem onDatagram_attentive (h : Attentive net) (did : Nat) (op : Udp.NetOp α) :
    Attentive (onDatagram udp did op net) := by
  unfold onDatagram
  cases he : net.datagrams[did]? with
  | none => exact h
  | some endpoint =>
    dsimp only
    split
    · exact h
    rename_i hop
    have hflag : net.anyStarvedListener = true →
        (net.anyStarvedListener || starves endpoint op) = true := fun hup => by simp [hup]
    constructor
    · exact fun lid l hl => (h.heard lid l hl).mono hflag
    · intro j endpoint' entry' he' hentry' hdeaf
      by_cases hsame : j = did
      · rw [hsame, List.getElem?_set_self (List.getElem?_eq_some_iff.mp he).1] at he'
        obtain rfl := Option.some.inj he'
        rcases netStep_deaf (by simpa using hop) hentry' hdeaf with
          ⟨entry, hentry, hbefore⟩ | hstarves
        · exact hflag (h.received did endpoint entry he hentry hbefore)
        · simp [hstarves]
      · rw [List.getElem?_set_ne (Ne.symm hsame)] at he'
        exact hflag (h.received j endpoint' entry' he' hentry' hdeaf)
    · intro endpoint' hmem
      rcases List.mem_or_eq_of_mem_set hmem with hmem | rfl
      · exact h.endpoints endpoint' hmem
      · exact Udp.netStep_sound op (h.endpoints endpoint (List.mem_of_getElem? he)) False.elim

/-! ## 5. The retry -/

theorem retryListener_apart (lid : Nat) (net : NetState α) :
    Apart lid net (retryListener backend net lid) ∧ Heard (retryListener backend net lid) lid := by
  have hset := Apart.set lid ((net.listener lid).map fun l => { l with starved := false }) net
  unfold retryListener
  cases hl : net.listener lid with
  | none =>
    have hgone : (net.setListener lid none).listener lid = none := setListener_none
    rw [hl] at hset
    simp only [Option.map_none, postAccepts, postAcceptsInner, hgone]
    refine ⟨hset, fun l hl => ?_⟩
    rw [hgone] at hl
    cases hl
  | some l =>
    rw [hl] at hset
    have here := setListener_self hl (some { l with starved := false })
    obtain ⟨hposts, l', hposted, -⟩ := @postAcceptsInner_posted α backend _ lid true _ here
      (fun hstarved => absurd hstarved (by simp))
    refine ⟨hset.trans hposts, fun l'' hl'' => ?_⟩
    obtain rfl := Option.some.inj (hposted.here.symm.trans hl'')
    exact hposted.heard

theorem retryDatagram_listeners (postOk : Nat → Bool) (net : NetState α) (did : Nat) :
    (retryDatagram postOk net did).listeners = net.listeners ∧
      (net.anyStarvedListener = true → (retryDatagram postOk net did).anyStarvedListener = true) := by
  unfold retryDatagram
  split
  · exact ⟨rfl, id⟩
  · refine ⟨rfl, fun hflag => ?_⟩
    simp [hflag]

theorem retryDatagram_received (postOk : Nat → Bool) (net : NetState α) (did : Nat) :
    Received (retryDatagram postOk net did) did := by
  unfold retryDatagram
  cases he : net.datagrams[did]? with
  | none =>
    intro endpoint entry he'
    rw [he] at he'
    cases he'
  | some endpoint =>
    intro endpoint' entry' he' hentry' hdeaf
    dsimp only at he' ⊢
    rw [List.getElem?_set_self (List.getElem?_eq_some_iff.mp he).1] at he'
    obtain rfl := Option.some.inj he'
    cases hentry : endpoint.entry with
    | none => simp [Udp.retryStarved, hentry] at hentry'
    | some entry =>
      simp only [Udp.retryStarved, hentry, Option.map_some, Option.some.injEq] at hentry'
      rw [← hentry'] at hdeaf
      simp [retried_deaf hdeaf]

theorem retryDatagram_keeps (postOk : Nat → Bool) (net : NetState α) (did : Nat) {j : Nat}
    (h : Received net j) : Received (retryDatagram postOk net did) j := by
  by_cases hsame : j = did
  · rw [hsame]
    exact retryDatagram_received postOk net did
  · intro endpoint entry he hentry hdeaf
    apply (retryDatagram_listeners postOk net did).2
    apply h endpoint entry _ hentry hdeaf
    unfold retryDatagram at he
    split at he
    · exact he
    · rwa [List.getElem?_set_ne (Ne.symm hsame)] at he

theorem retryDatagram_endpoints (postOk : Nat → Bool) (net : NetState α) (did : Nat)
    (h : ∀ endpoint ∈ net.datagrams, Udp.Sound False endpoint) :
    ∀ endpoint ∈ (retryDatagram postOk net did).datagrams, Udp.Sound False endpoint := by
  unfold retryDatagram
  split
  · exact h
  · rename_i endpoint he
    intro endpoint' hmem
    rcases List.mem_or_eq_of_mem_set hmem with hmem | rfl
    · exact h endpoint' hmem
    · exact Udp.retryStarved_sound (postOk did) (h endpoint (List.mem_of_getElem? he))

theorem mem_waiting {l : ListenerEntry} (hl : net.listener lid = some l)
    (hstarved : l.starved = true) (hclosing : l.closing = false) : lid ∈ waiting net := by
  apply List.mem_filter.mpr
  refine ⟨List.mem_range.mpr (lid_lt hl), ?_⟩
  simp [hl, hstarved, hclosing]

/-- With the flag taken down to those not due yet, only the due ones are left unheard. -/
theorem kept_heard (h : Attentive net) (nowNs lid : Nat)
    (hlid : lid ∉ (waiting net).filter (due nowNs net)) :
    Heard { net with anyStarvedListener := (waiting net).any fun lid => !due nowNs net lid } lid := by
  intro l hl
  have heard := h.heard lid l hl
  refine ⟨heard.awake, fun hstarved hclosing => ?_, heard.soon, heard.empty⟩
  have hwaits := mem_waiting hl hstarved hclosing
  apply List.any_eq_true.mpr
  refine ⟨lid, hwaits, ?_⟩
  by_contra hdue
  exact hlid (List.mem_filter.mpr ⟨hwaits, by simpa using hdue⟩)

theorem retryStarvedListeners_attentive (h : Attentive net) (nowNs : Nat) (postOk : Nat → Bool) :
    Attentive (retryStarvedListeners backend nowNs postOk net) := by
  unfold retryStarvedListeners
  split
  · exact h
  dsimp only
  set kept : NetState α :=
    { net with anyStarvedListener := (waiting net).any fun lid => !due nowNs net lid }
  set posted := ((waiting net).filter (due nowNs net)).foldl (retryListener backend) kept
  have hposted : ∀ lid, Heard posted lid := by
    apply foldl_settles
    · exact fun net lid => (retryListener_apart lid net).2
    · exact fun net lid j hj => (retryListener_apart lid net).1.heard (retryListener_apart lid net).2 hj
    · exact fun lid hlid => kept_heard h nowNs lid hlid
  have hsame : posted.datagrams = net.datagrams := by
    have hkeeps (net' : NetState α) (lid : Nat) (hnet' : net'.datagrams = net.datagrams) :
        (retryListener backend net' lid).datagrams = net.datagrams :=
      (retryListener_apart lid net').1.datagrams.trans hnet'
    exact foldl_keeps hkeeps _ rfl
  constructor
  · apply foldl_keeps (I := fun net : NetState α => ∀ lid, Heard net lid)
    · intro net did hnet lid l hl
      obtain ⟨hlisteners, hflag⟩ := retryDatagram_listeners postOk net did
      rw [listener_eq, hlisteners, ← listener_eq] at hl
      exact (hnet lid l hl).mono hflag
    · exact hposted
  · apply foldl_settles
    · exact fun net did => retryDatagram_received postOk net did
    · exact fun net did j hj => retryDatagram_keeps postOk net did hj
    · intro did hdid endpoint entry he
      have hlt := (List.getElem?_eq_some_iff.mp he).1
      rw [hsame] at hlt
      exact absurd (List.mem_range.mpr hlt) hdid
  · apply foldl_keeps (retryDatagram_endpoints postOk)
    rw [hsame]
    exact h.endpoints

/-- A starved listener is posted again in its turn. -/
theorem retryListener_asks {l : ListenerEntry} (hl : net.listener lid = some l)
    (hempty : l.acceptOps = []) (hclosing : l.closing = false) :
    ∃ l', (retryListener backend net lid).listener lid = some l' ∧ l.asked < l'.asked := by
  have here := setListener_self hl (some { l with starved := false })
  obtain ⟨-, l', hposted, hasked⟩ := @postAcceptsInner_posted α backend _ lid true _ here
    (fun hstarved => absurd hstarved (by simp))
  refine ⟨l', ?_, hasked hempty hclosing⟩
  simpa only [retryListener, postAccepts, hl, Option.map_some] using hposted.here

theorem foldl_retryListener_other {lids : List Nat} (h : lid ∉ lids) :
    (lids.foldl (retryListener backend) net).listener lid = net.listener lid := by
  induction lids generalizing net with
  | nil => rfl
  | cons j lids ih =>
    rw [List.mem_cons, not_or] at h
    rw [List.foldl_cons, ih h.2, (retryListener_apart j net).1.others lid h.1]

theorem foldl_retryListener_asks {lids : List Nat} (hnodup : lids.Nodup) (hlid : lid ∈ lids)
    {l : ListenerEntry} (hl : net.listener lid = some l) (hempty : l.acceptOps = [])
    (hclosing : l.closing = false) :
    ∃ l', (lids.foldl (retryListener backend) net).listener lid = some l' ∧ l.asked < l'.asked := by
  induction lids generalizing net with
  | nil => cases hlid
  | cons j lids ih =>
    rw [List.nodup_cons] at hnodup
    rw [List.foldl_cons]
    by_cases hsame : lid = j
    · rw [← hsame] at hnodup ⊢
      rw [foldl_retryListener_other hnodup.1]
      exact retryListener_asks hl hempty hclosing
    · apply ih hnodup.2 (List.mem_of_ne_of_mem hsame hlid)
      rwa [(retryListener_apart j net).1.others lid hsame]

theorem retryStarvedListeners_asks (h : Attentive net) {l : ListenerEntry}
    (hl : net.listener lid = some l) (hstarved : l.starved = true) (hclosing : l.closing = false)
    {nowNs : Nat} (hdue : l.retryAt ≤ nowNs) (postOk : Nat → Bool) :
    ∃ l', (retryStarvedListeners backend nowNs postOk net).listener lid = some l' ∧
      l.asked < l'.asked := by
  have heard := h.heard lid l hl
  have hflag := heard.raised hstarved hclosing
  simp only [retryStarvedListeners, hflag, not_true_eq_false, if_false]
  set kept : NetState α :=
    { net with anyStarvedListener := (waiting net).any fun lid => !due nowNs net lid }
  set posted := ((waiting net).filter (due nowNs net)).foldl (retryListener backend) kept
  have hsame : ((List.range net.datagrams.length).foldl (retryDatagram postOk) posted).listeners =
      posted.listeners := by
    have hkeeps (net' : NetState α) (did : Nat) (hnet' : net'.listeners = posted.listeners) :
        (retryDatagram postOk net' did).listeners = posted.listeners :=
      (retryDatagram_listeners postOk net' did).1.trans hnet'
    exact foldl_keeps hkeeps _ rfl
  rw [listener_eq, hsame, ← listener_eq]
  have here : kept.listener lid = some l := hl
  apply foldl_retryListener_asks _ _ here (heard.empty hstarved) hclosing
  · exact (List.nodup_range.filter _).filter _
  · apply List.mem_filter.mpr
    refine ⟨mem_waiting hl hstarved hclosing, ?_⟩
    simpa [due, hl] using hdue

theorem min?_getD_le {delays : List Nat} {delay : Nat} (h : delay ∈ delays) :
    delays.min?.getD 0 ≤ delay := by
  cases hmin : delays.min? with
  | none => exact Nat.zero_le _
  | some soonest => exact (List.min?_eq_some_iff.mp hmin).2 delay h

/-- The tick parks no longer than until a starved listener is due, a millisecond at least. -/
theorem starvedRetryIn_le {l : ListenerEntry} (hl : net.listener lid = some l)
    (hstarved : l.starved = true) (hclosing : l.closing = false) (nowNs : Nat) :
    starvedRetryIn nowNs net ≤ max (l.retryAt - nowNs) 1000000 := by
  have hmem : l.retryAt - nowNs ∈ (waiting net).filterMap fun lid =>
      (net.listener lid).map fun l => l.retryAt - nowNs := by
    apply List.mem_filterMap.mpr
    exact ⟨lid, mem_waiting hl hstarved hclosing, by simp [hl]⟩
  have hsoonest := min?_getD_le hmem
  unfold starvedRetryIn
  dsimp only
  split <;> omega

/-! ## 6. Runs -/

theorem netStep_attentive (op : NetOp α) (h : Attentive net) :
    Attentive (netStep backend udp net op) := by
  cases op with
  | listen target start => exact listen_attentive h target start
  | start lid => exact listenerStart_attentive h lid
  | remove lid => exact listenerRemove_attentive h lid
  | acceptDone lid op osError sock => exact onAcceptDone_attentive h lid op osError sock
  | udpWire =>
    refine ⟨h.heard, fun did endpoint entry he hentry hdeaf => ?_, fun endpoint hmem => ?_⟩
    swap
    · rcases List.mem_append.mp hmem with hmem | hnew
      · exact h.endpoints endpoint hmem
      · rw [List.mem_singleton.mp hnew]
        exact Udp.udpWire_sound
    by_cases hlt : did < net.datagrams.length
    · simp only [netStep, List.getElem?_append_left hlt] at he
      exact h.received did endpoint entry he hentry hdeaf
    · simp only [netStep, List.getElem?_append_right (Nat.le_of_not_lt hlt),
        List.getElem?_singleton] at he
      split at he
      · cases he
        cases hentry
        simp [Udp.DatagramEntry.deaf] at hdeaf
      · cases he
  | datagram did op => exact onDatagram_attentive h did op
  | tick nowNs => exact ⟨h.heard, h.received, h.endpoints⟩
  | retry nowNs postOk =>
    have hnow : Attentive { net with nowNs := nowNs } := ⟨h.heard, h.received, h.endpoints⟩
    exact retryStarvedListeners_attentive hnow nowNs postOk

theorem run_attentive (backend : Backend) (udp : Udp.Backend) (ops : List (NetOp α)) :
    Attentive ((loop backend udp).run ops) := by
  apply (loop backend udp).run_invariant
  · constructor
    · intro lid l hl
      simp [loop, NetState.listener] at hl
    · intro did endpoint entry he
      simp [loop] at he
    · simp [loop]
  · exact fun net op => netStep_attentive op

/-- After every run a listener that accepts has an accept outstanding, or it is starved and the flag
says so, as it does for an endpoint without a receive; and a starved listener is posted again by the
first retry from its `retryAt` on, one delay after it starved at the latest. -/
theorem listeners_attentive (backend : Backend) (udp : Udp.Backend) (ops : List (NetOp α)) :
    let net := (loop backend udp).run ops
    (∀ lid l, net.listener lid = some l → l.started = true → l.closing = false →
      l.acceptOps ≠ [] ∨ l.starved = true ∧ net.anyStarvedListener = true) ∧
    (∀ (did : Nat) endpoint entry, net.datagrams[did]? = some endpoint →
      endpoint.entry = some entry → entry.recvStarved = true → entry.closing = false →
        net.anyStarvedListener = true) ∧
    (∀ lid l, net.listener lid = some l → l.starved = true → l.closing = false →
      l.retryAt ≤ l.starvedAt + acceptRetryDelay ∧
        ∀ nowNs postOk, l.retryAt ≤ nowNs →
          ∃ l', ((loop backend udp).run (ops ++ [.retry nowNs postOk])).listener lid = some l' ∧
            l.asked < l'.asked) := by
  intro net
  have h : Attentive net := run_attentive backend udp ops
  refine ⟨fun lid l hl hstarted hclosing => ?_, fun did endpoint entry he hentry hstarved hclosing => ?_,
    fun lid l hl hstarved hclosing => ⟨(h.heard lid l hl).soon hstarved, fun nowNs postOk hdue => ?_⟩⟩
  · have heard := h.heard lid l hl
    apply (heard.awake hstarted hclosing).imp_right
    exact fun hstarved => ⟨hstarved, heard.raised hstarved hclosing⟩
  · have halive := ((h.endpoints endpoint (List.mem_of_getElem? he)).charged entry hentry).alive
    apply h.received did endpoint entry he hentry
    simp [Udp.DatagramEntry.deaf, hstarved, hclosing, halive]
  · have hnow : Attentive { net with nowNs := nowNs } := ⟨h.heard, h.received, h.endpoints⟩
    rw [Machine.run_concat]
    exact retryStarvedListeners_asks hnow hl hstarved hclosing hdue postOk

end Cadeloop.Pyshim.Listening
