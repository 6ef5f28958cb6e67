import Cadeloop.Core.IocpWatch

/-!
# No watch is lost

Between two calls a watch that wants something has a poll in flight, is queued for one, or was found
dead.  A poll in flight belongs to the watch of its socket; it asks for what the watch wants, or it was
cancelled and its completion queues the next.
-/

namespace Cadeloop.Core.IocpWatch

open Cadeloop.Reasoning
open Ops (OpId OpKind OpState OpSlot)

/-! ## 1. Polls in flight -/

/-- The slot of a poll in flight. -/
structure Polling (slab : Ops.Run IocpOp) (id : OpId) (slot : OpSlot IocpOp) : Prop where
  get : slab.slab.get id = some slot
  inFlight : slot.inFlight = true
  kind : slot.kind = .poll

/-- The polls in flight are the same, and one that was cancelled still is. -/
structure Keeps (slab slab' : Ops.Run IocpOp) : Prop where
  still : ∀ id slot, Polling slab id slot → ∃ slot', Polling slab' id slot' ∧
    slot'.data = slot.data ∧ (slot.state = .cancelled → slot'.state = .cancelled)
  only : ∀ id slot', Polling slab' id slot' → ∃ slot, Polling slab id slot ∧ slot.data = slot'.data

variable {slab slab' : Ops.Run IocpOp} {id : OpId} {slot : OpSlot IocpOp}

theorem Polling.unique {slot' : OpSlot IocpOp} (h : Polling slab id slot) (h' : Polling slab id slot') :
    slot = slot' := by
  have hget := h.get
  rw [h'.get] at hget
  injection hget with hget
  exact hget.symm

theorem Keeps.of_get (h : ∀ id', slab'.slab.get id' = slab.slab.get id') : Keeps slab slab' where
  still id slot hp := ⟨slot, ⟨(h id).trans hp.get, hp.inFlight, hp.kind⟩, rfl, fun hc => hc⟩
  only id slot hp := ⟨slot, ⟨(h id).symm.trans hp.get, hp.inFlight, hp.kind⟩, rfl⟩

/-- One slot changes, which is not that of a poll in flight. -/
theorem Keeps.of_other (id : OpId) (hout : ∀ slot, ¬Polling slab id slot)
    (hout' : ∀ slot, ¬Polling slab' id slot)
    (h : ∀ id', id' ≠ id → slab'.slab.get id' = slab.slab.get id') : Keeps slab slab' := by
  refine ⟨fun id' slot hp => ?_, fun id' slot hp => ?_⟩
  · have hne : id' ≠ id := by
      rintro rfl
      exact hout slot hp
    exact ⟨slot, ⟨(h id' hne).trans hp.get, hp.inFlight, hp.kind⟩, rfl, fun hc => hc⟩
  · have hne : id' ≠ id := by
      rintro rfl
      exact hout' slot hp
    exact ⟨slot, ⟨(h id' hne).symm.trans hp.get, hp.inFlight, hp.kind⟩, rfl⟩

theorem keeps_markCancelled (slab : Ops.Run IocpOp) (id : OpId) :
    Keeps slab (slab.step (.markCancelled id)) := by
  cases hget : slab.slab.get id with
  | none =>
    refine .of_get fun id' => ?_
    show (slab.slab.markCancelled id).2.get id' = _
    rw [(Ops.OpSlab.stale hget).1]
  | some slot =>
    by_cases hposted : slot.state = .posted
    · have hgets := Ops.Run.markCancelled_get hget hposted
      refine ⟨fun id' slot' hp => ?_, fun id' slot' hp => ?_⟩
      · by_cases hid : id' = id
        · subst hid
          have hsame := hp.get
          rw [hget] at hsame
          injection hsame with hsame
          subst hsame
          refine ⟨{ slot with state := .cancelled }, ⟨?_, rfl, hp.kind⟩, rfl, fun _ => rfl⟩
          rw [hgets, if_pos rfl]
        · refine ⟨slot', ⟨?_, hp.inFlight, hp.kind⟩, rfl, fun hc => hc⟩
          rw [hgets, if_neg hid]
          exact hp.get
      · have hslot' := hp.get
        rw [hgets] at hslot'
        by_cases hid : id' = id
        · rw [if_pos hid] at hslot'
          injection hslot' with hslot'
          subst hslot' hid
          refine ⟨slot, ⟨hget, ?_, hp.kind⟩, rfl⟩
          rw [OpSlot.inFlight, hposted]
          rfl
        · rw [if_neg hid] at hslot'
          exact ⟨slot', ⟨hslot', hp.inFlight, hp.kind⟩, rfl⟩
    · refine .of_get fun id' => ?_
      show (slab.slab.markCancelled id).2.get id' = _
      rw [Ops.OpSlab.markCancelled_of_get hget, if_neg hposted]

/-- What `cancel_poll` leaves of a poll in flight. -/
theorem markCancelled_cancels (h : Polling slab id slot) :
    ∃ slot', Polling (slab.step (.markCancelled id)) id slot' ∧ slot'.data = slot.data ∧
      slot'.state = .cancelled := by
  obtain ⟨slot', hp, hdata, hcancelled⟩ := (keeps_markCancelled slab id).still id slot h
  by_cases hposted : slot.state = .posted
  · have hget := Ops.Run.markCancelled_get h.get hposted id
    rw [if_pos rfl, hp.get] at hget
    injection hget with hget
    exact ⟨slot', hp, hdata, by rw [hget]⟩
  · refine ⟨slot', hp, hdata, hcancelled ?_⟩
    have hinFlight := h.inFlight
    rw [OpSlot.inFlight, decide_eq_true_iff] at hinFlight
    exact hinFlight.resolve_left hposted

theorem keeps_release (slab : Ops.Run IocpOp) (id : OpId) : Keeps slab (slab.step (.release id)) := by
  cases hget : slab.slab.get id with
  | none =>
    refine .of_get fun id' => ?_
    show (slab.slab.release id).get id' = _
    rw [(Ops.OpSlab.stale hget).2.2.1]
  | some slot =>
    by_cases hdone : slot.state = .completed
    · have hgets := Ops.Run.release_get hget hdone
      refine .of_other id (fun slot' hp => ?_) (fun slot' hp => ?_) fun id' hne => ?_
      · have hsame := hp.get
        rw [hget] at hsame
        injection hsame with hsame
        have hinFlight := hp.inFlight
        rw [← hsame, OpSlot.inFlight, hdone] at hinFlight
        cases hinFlight
      · have hslot' := hp.get
        rw [hgets, if_pos rfl] at hslot'
        cases hslot'
      · rw [hgets, if_neg hne]
    · exact .of_get fun id' => by rw [Ops.Run.release_unreleased hget hdone]

theorem complete_gets (slab : Ops.Run IocpOp) (id : OpId) {id' : OpId} (hne : id' ≠ id) :
    (slab.step (.complete id)).slab.get id' = slab.slab.get id' := by
  cases hget : slab.slab.get id with
  | none =>
    show (slab.slab.complete id).2.get id' = _
    rw [(Ops.OpSlab.stale hget).2.1]
  | some slot =>
    by_cases hbusy : slot.inFlight = true
    · rw [Ops.Run.complete_get hget hbusy, if_neg hne]
    · show (slab.slab.complete id).2.get id' = _
      rw [Ops.OpSlab.complete_of_get hget, if_neg hbusy]

theorem release_gets (slab : Ops.Run IocpOp) (id : OpId) {id' : OpId} (hne : id' ≠ id) :
    (slab.step (.release id)).slab.get id' = slab.slab.get id' := by
  cases hget : slab.slab.get id with
  | none =>
    show (slab.slab.release id).get id' = _
    rw [(Ops.OpSlab.stale hget).2.2.1]
  | some slot =>
    by_cases hdone : slot.state = .completed
    · rw [Ops.Run.release_get hget hdone, if_neg hne]
    · rw [Ops.Run.release_unreleased hget hdone]

/-- A completed slot is that of no poll in flight. -/
theorem complete_done (slab : Ops.Run IocpOp) (id : OpId) :
    ∀ slot, ¬Polling (slab.step (.complete id)) id slot := by
  intro slot' hp
  cases hget : slab.slab.get id with
  | none =>
    have hslot' : (slab.slab.complete id).2.get id = some slot' := hp.get
    rw [(Ops.OpSlab.stale hget).2.1, hget] at hslot'
    cases hslot'
  | some slot =>
    by_cases hbusy : slot.inFlight = true
    · have hslot' := hp.get
      rw [Ops.Run.complete_get hget hbusy, if_pos rfl] at hslot'
      injection hslot' with hslot'
      have hinFlight := hp.inFlight
      rw [← hslot'] at hinFlight
      cases hinFlight
    · have hslot' : (slab.slab.complete id).2.get id = some slot' := hp.get
      rw [Ops.OpSlab.complete_of_get hget, if_neg hbusy, hget] at hslot'
      injection hslot' with hslot'
      exact hbusy (hslot' ▸ hp.inFlight)

theorem keeps_complete (hout : ∀ slot, ¬Polling slab id slot) : Keeps slab (slab.step (.complete id)) :=
  .of_other id hout (complete_done slab id) fun _ hne => complete_gets slab id hne

/-! ### A slot posted -/

/-- One operation was allocated, under a new id. -/
structure Launched (slab slab' : Ops.Run IocpOp) (id : OpId) (kind : OpKind) (data : IocpOp) : Prop where
  good : Ops.Good slab'
  fresh : slab.slab.get id = none
  posted : ∃ slot, slab'.slab.get id = some slot ∧ slot.state = .posted ∧ slot.kind = kind ∧
    slot.data = data
  others : ∀ id', id' ≠ id → slab'.slab.get id' = slab.slab.get id'

theorem newOp_launched {s : IocpBackend} {alloc : Nat} {kind : OpKind} {socket : Socket}
    (hgood : Ops.Good s.slab) (hfits : (s.slab.step (.post alloc kind)).book.Fits) :
    ∃ id s' data, s.newOp alloc kind socket = some (id, s') ∧ s' = { s with slab := s'.slab } ∧
      Launched s.slab s'.slab id kind data ∧ data.socket = socket ∧
      s'.slab.book = (s.slab.step (.post alloc kind)).book := by
  obtain ⟨id, slab, data, hpost, hnew, hlookup⟩ := Ops.Run.post_get hgood hfits
  have hafter := (hgood.post alloc kind hfits).1
  have hstep : s.slab.step (.post alloc kind) =
      { s.slab with slab := slab, book := s.slab.book.post id } := by
    simp only [Ops.Run.step, hpost]
  have hself : (s.slab.step (.post alloc kind)).slab.get id =
      some ⟨.posted, id.generation, kind, data⟩ := by
    rw [hstep]
    exact (hlookup id).trans (if_pos rfl)
  have hset := Ops.Run.getMut_get hself fun kd => (kd.1, { kd.2 with socket })
  have hfresh : s.slab.slab.get id = none := by
    cases hget : s.slab.slab.get id with
    | none => rfl
    | some slot =>
      refine absurd ?_ hnew
      rw [hgood.tracks.mem_issued, hgood.book_live hget]
      exact fun heq => by cases heq
  refine ⟨id, _, { data with socket }, by rw [IocpBackend.newOp, hpost]; rfl, rfl,
    ⟨hafter.getMut id _, hfresh, ⟨_, (hset id).trans (if_pos rfl), rfl, rfl, rfl⟩, fun id' hne => ?_⟩,
    rfl, rfl⟩
  refine (hset id').trans ?_
  rw [if_neg hne, hstep]
  exact (hlookup id').trans (if_neg hne)

theorem Launched.request {s : IocpBackend} {kind : OpKind} {data : IocpOp}
    (h : Launched slab s.slab id kind data) (handle : Nat) (events : UInt32) :
    Launched slab (s.request id handle events).slab id kind { data with handle, events } := by
  obtain ⟨slot, hget, hstate, hkind, rfl⟩ := h.posted
  have hset := Ops.Run.getMut_get hget fun kd => (kd.1, { kd.2 with handle, events })
  refine ⟨h.good.getMut id _, h.fresh, ⟨_, (hset id).trans (if_pos rfl), hstate, hkind, rfl⟩,
    fun id' hne => ?_⟩
  exact ((hset id').trans (if_neg hne)).trans (h.others id' hne)

theorem Launched.keeps {kind : OpKind} {data : IocpOp} (h : Launched slab slab' id kind data)
    (hkind : kind ≠ .poll) : Keeps slab slab' := by
  refine .of_other id (fun slot hp => ?_) (fun slot hp => ?_) h.others
  · have hget := hp.get
    rw [h.fresh] at hget
    cases hget
  · obtain ⟨slot', hget, -, hslot', -⟩ := h.posted
    rw [hp.get] at hget
    injection hget with hget
    exact hkind (hslot'.symm.trans (hget ▸ hp.kind))

/-! ### The book's bounds -/

/-- Operations were posted, none recycled. -/
structure Grown (b b' : Ops.Book) : Prop where
  issued : b.issued <+: b'.issued
  recycled : b'.recycled = b.recycled

theorem Grown.refl (b : Ops.Book) : Grown b b := ⟨List.prefix_refl _, rfl⟩

theorem Grown.trans {b b' b'' : Ops.Book} (h : Grown b b') (h' : Grown b' b'') : Grown b b'' :=
  ⟨h.issued.trans h'.issued, h'.recycled.trans h.recycled⟩

theorem Grown.fits {b b' : Ops.Book} (h : Grown b b') (hfits : b'.Fits) : b.Fits := by
  refine ⟨h.issued.length_le.trans ?_, ?_⟩
  · rw [← h.recycled]
    exact hfits.live
  · rw [← h.recycled]
    exact hfits.recyclings

theorem grown_complete (b : Ops.Book) (id : OpId) : Grown b (b.complete id) := by
  unfold Ops.Book.complete
  split
  · exact ⟨List.prefix_refl _, rfl⟩
  · exact ⟨List.prefix_refl _, rfl⟩
  · exact .refl b

theorem newOp_eq {s s' : IocpBackend} {alloc : Nat} {kind : OpKind} {socket : Socket}
    (h : s.newOp alloc kind socket = some (id, s')) :
    Grown s.slab.book s'.slab.book ∧ s'.slab.book = (s.slab.step (.post alloc kind)).book ∧
      s' = { s with slab := s'.slab } := by
  obtain ⟨⟨id', slab⟩, hpost, heq⟩ := Option.map_eq_some_iff.mp h
  injection heq with hid heq
  subst heq
  refine ⟨⟨?_, ?_⟩, rfl, rfl⟩
  · show _ <+: (s.slab.step (.post alloc kind)).book.issued
    simp only [Ops.Run.step, hpost]
    exact List.prefix_append _ _
  · show (s.slab.step (.post alloc kind)).book.recycled = _
    simp only [Ops.Run.step, hpost]
    rfl

theorem submitPoll_grown (sys : Submission) (socket : Socket) (s : IocpBackend) :
    Grown s.slab.book (s.submitPoll sys socket).slab.book := by
  unfold IocpBackend.submitPoll
  split
  · exact .refl _
  split
  · exact .refl _
  split
  · exact .refl _
  split
  · exact .refl _
  · rename_i hnew
    have hgrown := (newOp_eq hnew).1
    split
    · exact hgrown.trans (grown_complete _ _)
    · exact hgrown

theorem rearmWatch_grown (sys : Socket → Submission) (s : IocpBackend) (socket : Socket) :
    Grown s.slab.book (s.rearmWatch sys socket).slab.book := by
  unfold IocpBackend.rearmWatch
  split
  · exact submitPoll_grown (sys socket) socket s
  · exact submitPoll_grown (sys socket) socket (s.setEntry socket _)

/-! ## 2. The invariant -/

/-- The poll in flight for a watch.  Unless it was cancelled, it names the watch's handle and asks for
what the watch wants. -/
structure Flies (slab : Ops.Run IocpOp) (socket : Socket) (w : Watch) (id : OpId)
    (slot : OpSlot IocpOp) : Prop extends Polling slab id slot where
  socket : slot.data.socket = socket
  polled : w.polled = slot.data.events
  answers : slot.state = .cancelled ∨ (slot.data.handle = w.base ∧
    w.polled &&& afdPollEvents w.read w.write = afdPollEvents w.read w.write)

/-- A watch and its poll.  One that wants nothing waits for its cancelled poll to be reaped. -/
structure Armed (s : IocpBackend) (socket : Socket) (w : Watch) : Prop where
  flies : ∀ id, w.poll = some id → ∃ slot, Flies s.slab socket w id slot
  queued : w.queued = true → socket ∈ s.watchRearm ∧ w.poll = none
  dead : w.dead = true → w.poll = none
  wanted : w.read = true ∨ w.write = true → w.dead = true ∨ w.queued = true ∨ w.poll.isSome = true
  idle : ¬(w.read = true ∨ w.write = true) →
    ∃ id slot, w.poll = some id ∧ Polling s.slab id slot ∧ slot.state = .cancelled

structure Sound (s : IocpBackend) : Prop where
  good : Ops.Good s.slab
  -- no poll in flight is left without its watch
  owned : ∀ id slot, Polling s.slab id slot →
    ∃ w, s.watches slot.data.socket = some w ∧ w.poll = some id
  armed : ∀ socket w, s.watches socket = some w → Armed s socket w
  helper : ∀ socket w, s.watches socket = some w → s.afd = true

variable {s s' : IocpBackend} {socket : Socket} {later : List Socket} {w : Watch}

theorem Armed.keeps (h : Armed s socket w) (hkeeps : Keeps s.slab s'.slab)
    (hqueue : socket ∈ s.watchRearm → socket ∈ s'.watchRearm) : Armed s' socket w where
  flies id hpoll := by
    obtain ⟨slot, hflies⟩ := h.flies id hpoll
    obtain ⟨slot', hp', hdata, hcancelled⟩ := hkeeps.still id slot hflies.toPolling
    refine ⟨slot', hp', ?_, ?_, ?_⟩
    · rw [hdata]
      exact hflies.socket
    · rw [hdata]
      exact hflies.polled
    · rw [hdata]
      exact hflies.answers.imp_left hcancelled
  queued hq := (h.queued hq).imp hqueue fun hn => hn
  dead := h.dead
  wanted := h.wanted
  idle hnone := by
    obtain ⟨id, slot, hpoll, hp, hstate⟩ := h.idle hnone
    obtain ⟨slot', hp', -, hcancelled⟩ := hkeeps.still id slot hp
    exact ⟨id, slot', hpoll, hp', hcancelled hstate⟩

namespace Sound

theorem new : Sound .new where
  good := Ops.good_new _
  owned id slot hp := by
    have hget := hp.get
    rw [show IocpBackend.new.slab.slab.get id = none from rfl] at hget
    cases hget
  armed _ _ h := by cases h
  helper _ _ h := by cases h

/-- The slab changes, and no poll in flight. -/
theorem keeps (h : Sound s) (hgood : Ops.Good s'.slab) (hkeeps : Keeps s.slab s'.slab)
    (hwatches : s'.watches = s.watches) (hqueue : s'.watchRearm = s.watchRearm)
    (hafd : s.afd = true → s'.afd = true) : Sound s' := by
  refine ⟨hgood, fun id slot hp => ?_, fun socket w hw => ?_, fun socket w hw => ?_⟩
  · obtain ⟨slot₀, hp₀, hdata⟩ := hkeeps.only id slot hp
    rw [hwatches, ← hdata]
    exact h.owned id slot₀ hp₀
  · rw [hwatches] at hw
    refine (h.armed socket w hw).keeps hkeeps ?_
    rw [hqueue]
    exact fun hmem => hmem
  · rw [hwatches] at hw
    exact hafd (h.helper socket w hw)

theorem cancelPoll (h : Sound s) (id : OpId) : Sound (s.cancelPoll id) :=
  h.keeps (h.good.markCancelled id) (keeps_markCancelled s.slab id) rfl rfl fun ha => ha

/-- One watch is changed, with the polls in flight for its socket. -/
theorem replace (h : Sound s) {entry : Option Watch}
    (hwatches : s'.watches = Function.update s.watches socket entry) (hgood : Ops.Good s'.slab)
    (hqueue : ∀ x, x ≠ socket → x ∈ s.watchRearm → x ∈ s'.watchRearm)
    (hafd : s.afd = true → s'.afd = true)
    (hstill : ∀ id slot, Polling s.slab id slot → slot.data.socket ≠ socket → Polling s'.slab id slot)
    (honly : ∀ id slot, Polling s'.slab id slot →
      (slot.data.socket = socket ∧ ∃ w', entry = some w' ∧ w'.poll = some id) ∨
        (slot.data.socket ≠ socket ∧ Polling s.slab id slot))
    (harmed : ∀ w', entry = some w' → Armed s' socket w' ∧ s'.afd = true) : Sound s' := by
  have hself : ∀ w', s'.watches socket = some w' → entry = some w' := by
    intro w' hw'
    rw [hwatches, Function.update_self] at hw'
    exact hw'
  have hothers : ∀ {socket'}, socket' ≠ socket → s'.watches socket' = s.watches socket' := by
    intro socket' hne
    rw [hwatches, Function.update_of_ne hne]
  refine ⟨hgood, fun id slot hp => ?_, fun socket' w' hw' => ?_, fun socket' w' hw' => ?_⟩
  · rcases honly id slot hp with ⟨hdata, w', hentry, hpoll⟩ | ⟨hdata, hold⟩
    · refine ⟨w', ?_, hpoll⟩
      rw [hdata, hwatches, Function.update_self]
      exact hentry
    · obtain ⟨w, hw, hpoll⟩ := h.owned id slot hold
      refine ⟨w, ?_, hpoll⟩
      rw [hothers hdata]
      exact hw
  · by_cases hsame : socket' = socket
    · subst hsame
      exact (harmed w' (hself w' hw')).1
    · rw [hothers hsame] at hw'
      have hold := h.armed socket' w' hw'
      refine ⟨fun id hpoll => ?_, fun hq => ?_, hold.dead, hold.wanted, fun hnone => ?_⟩
      · obtain ⟨slot, hflies⟩ := hold.flies id hpoll
        exact ⟨slot, hstill id slot hflies.toPolling (hflies.socket ▸ hsame), hflies.socket,
          hflies.polled, hflies.answers⟩
      · exact (hold.queued hq).imp (hqueue socket' hsame) fun hn => hn
      · obtain ⟨id, slot, hpoll, hp, hstate⟩ := hold.idle hnone
        obtain ⟨slot', hflies⟩ := hold.flies id hpoll
        have hslot := hflies.socket
        rw [← hp.unique hflies.toPolling] at hslot
        exact ⟨id, slot, hpoll, hstill id slot hp (hslot ▸ hsame), hstate⟩
  · by_cases hsame : socket' = socket
    · subst hsame
      exact (harmed w' (hself w' hw')).2
    · rw [hothers hsame] at hw'
      exact hafd (h.helper socket' w' hw')

/-- The polls in flight for a socket are its watch's. -/
theorem poll_of_polling (h : Sound s) {id : OpId} {slot : OpSlot IocpOp} (hp : Polling s.slab id slot)
    (hdata : slot.data.socket = socket) : ∃ w, s.watches socket = some w ∧ w.poll = some id := by
  have howned := h.owned id slot hp
  rw [hdata] at howned
  exact howned

/-- The slab stays, and the watch keeps its poll. -/
theorem setEntry (h : Sound s) {entry : Option Watch}
    (hwatches : s'.watches = Function.update s.watches socket entry) (hslab : s'.slab = s.slab)
    (hqueue : ∀ x, x ≠ socket → x ∈ s.watchRearm → x ∈ s'.watchRearm) (hafd : s.afd = true → s'.afd = true)
    (hpoll : ∀ w id, s.watches socket = some w → w.poll = some id →
      ∃ w', entry = some w' ∧ w'.poll = some id)
    (harmed : ∀ w', entry = some w' → Armed s' socket w' ∧ s'.afd = true) : Sound s' := by
  refine h.replace hwatches (hslab ▸ h.good) hqueue hafd (fun id slot hp _ => hslab ▸ hp)
    (fun id slot hp => ?_) harmed
  rw [hslab] at hp
  by_cases hdata : slot.data.socket = socket
  · obtain ⟨w, hw, hid⟩ := h.poll_of_polling hp hdata
    exact .inl ⟨hdata, hpoll w id hw hid⟩
  · exact .inr ⟨hdata, hp⟩

/-- A watch without a poll, wanted, is queued for one. -/
theorem queueRearm (h : Sound s) {w : Watch} (hafd : s'.afd = true)
    (hwatches : s'.watches = Function.update s.watches socket (some w)) (hslab : s'.slab = s.slab)
    (hqueue : s'.watchRearm = s.watchRearm)
    (hold : ∀ w₀, s.watches socket = some w₀ → w₀.poll = none ∧ (w.queued = true → w₀.queued = true))
    (hnew : s.watches socket = none → w.queued = false) (hpoll : w.poll = none)
    (hwanted : w.read = true ∨ w.write = true) : Sound (s'.queueRearm socket) := by
  have hself : s'.watches socket = some w := by rw [hwatches, Function.update_self]
  have harmed : ∀ t : IocpBackend, socket ∈ t.watchRearm → ∀ w' : Watch, w'.poll = none →
      w'.queued = true → w'.read = w.read → w'.write = w.write → Armed t socket w' := by
    intro t hmem w' hnone hq hr hw
    refine ⟨fun id hid => ?_, fun _ => ⟨hmem, hnone⟩, fun _ => hnone, fun _ => .inr (.inl hq),
      fun hidle => ?_⟩
    · rw [hnone] at hid
      cases hid
    · rw [hr, hw] at hidle
      exact absurd hwanted hidle
  have hkept : ∀ w₀ id, s.watches socket = some w₀ → w₀.poll = some id →
      ∀ entry : Option Watch, ∃ w', entry = some w' ∧ w'.poll = some id := by
    intro w₀ id hw₀ hid
    rw [(hold w₀ hw₀).1] at hid
    cases hid
  unfold IocpBackend.queueRearm
  rw [hself]
  dsimp only
  split
  · rename_i hq
    refine h.setEntry hwatches hslab (fun x _ hx => hqueue ▸ hx) (fun _ => hafd)
      (fun w₀ id hw₀ hid => hkept w₀ id hw₀ hid _) fun w' hw' => ⟨?_, hafd⟩
    injection hw' with hw'
    subst hw'
    refine harmed s' ?_ w hpoll hq rfl rfl
    rw [hqueue]
    cases hw₀ : s.watches socket with
    | none =>
      rw [hnew hw₀] at hq
      cases hq
    | some w₀ => exact ((h.armed socket w₀ hw₀).queued ((hold w₀ hw₀).2 hq)).1
  · refine h.setEntry (?_ : _ = Function.update s.watches socket (some (w.queue true))) hslab
      (fun x _ hx => ?_) (fun _ => hafd) (fun w₀ id hw₀ hid => hkept w₀ id hw₀ hid _)
      fun w' hw' => ⟨?_, hafd⟩
    · show Function.update s'.watches socket _ = _
      rw [hwatches, Function.update_idem]
    · show x ∈ s'.watchRearm ++ [socket]
      rw [hqueue]
      exact List.mem_append_left _ hx
    · injection hw' with hw'
      subst hw'
      exact harmed _ (List.mem_append_right _ (List.mem_singleton_self socket)) _ hpoll rfl rfl rfl

/-! ## 3. The backend's calls -/

theorem takeAfd (h : Sound s) : Sound { s with afd := true } :=
  h.keeps h.good (.of_get fun _ => rfl) rfl rfl fun _ => rfl

theorem restart_spec {found : Option Nat} (h : s.restart found socket = some w) :
    w.dead = false ∧
      (∀ w₀, s.watches socket = some w₀ →
        w.poll = w₀.poll ∧ w.queued = w₀.queued ∧ w.polled = w₀.polled ∧
          (w.base = w₀.base ∨ w₀.dead = true ∨ ¬(w₀.read = true ∨ w₀.write = true))) ∧
      (s.watches socket = none → w.poll = none ∧ w.queued = false) := by
  unfold IocpBackend.restart at h
  cases hw₀ : s.watches socket with
  | none =>
    rw [hw₀] at h
    obtain ⟨base, -, rfl⟩ := Option.map_eq_some_iff.mp h
    exact ⟨rfl, (fun _ h => by cases h), fun _ => ⟨rfl, rfl⟩⟩
  | some w₀ =>
    rw [hw₀] at h
    dsimp only at h
    split at h
    · rename_i hstale
      obtain ⟨base, -, rfl⟩ := Option.map_eq_some_iff.mp h
      refine ⟨rfl, fun w₁ hw₁ => ?_, fun h => by cases h⟩
      injection hw₁ with hw₁
      subst hw₁
      exact ⟨rfl, rfl, rfl, .inr hstale⟩
    · rename_i hlive
      injection h with h
      subst h
      rw [not_or] at hlive
      refine ⟨eq_false_of_ne_true hlive.1, fun w₁ hw₁ => ?_, fun h => by cases h⟩
      injection hw₁ with hw₁
      subst hw₁
      exact ⟨rfl, rfl, rfl, .inl rfl⟩

/-- The watch's poll is cancelled, and its interest changed. -/
theorem cancelled (h : Sound s) {w₀ w : Watch} {id : OpId} (hw₀ : s.watches socket = some w₀)
    (hid : w₀.poll = some id) (hpoll : w.poll = some id) (hqueued : w.queued = w₀.queued)
    (hpolled : w.polled = w₀.polled) (hdead : w.dead = true → w₀.dead = true) :
    Sound ((s.setEntry socket (some w)).cancelPoll id) := by
  have hold := h.armed socket w₀ hw₀
  obtain ⟨slot, hflies⟩ := hold.flies id hid
  obtain ⟨slot', hp', hdata, hcancelled⟩ := markCancelled_cancels hflies.toPolling
  refine (h.cancelPoll id).setEntry rfl rfl (fun _ _ hx => hx) (fun ha => ha) (fun w₁ id' hw₁ hid' => ?_)
    fun w' hw' => ?_
  · have hw₁ : s.watches socket = some w₁ := hw₁
    rw [hw₀] at hw₁
    injection hw₁ with hw₁
    rw [← hw₁, hid] at hid'
    exact ⟨w, rfl, hpoll.trans hid'⟩
  · injection hw' with hw'
    subst hw'
    refine ⟨⟨fun id' hid' => ?_, fun hq => ?_, fun hd => ?_, fun _ => ?_, fun _ => ?_⟩,
      h.helper socket w₀ hw₀⟩
    · rw [hpoll] at hid'
      injection hid' with hid'
      subst hid'
      refine ⟨slot', hp', ?_, ?_, .inl hcancelled⟩
      · rw [hdata]
        exact hflies.socket
      · rw [hdata, hpolled]
        exact hflies.polled
    · rw [hqueued] at hq
      rw [(hold.queued hq).2] at hid
      cases hid
    · rw [hold.dead (hdead hd)] at hid
      cases hid
    · rw [hpoll]
      exact .inr (.inr rfl)
    · exact ⟨id, slot', hpoll, hp', hcancelled⟩

theorem unwatch (h : Sound s) (socket : Socket) (sys : Lookup) :
    Sound (s.setWatch sys socket false false).2 := by
  unfold IocpBackend.setWatch
  rw [if_pos (by simp)]
  cases hw : s.watches socket with
  | none => exact h
  | some w =>
    dsimp only
    cases hid : w.poll with
    | some id => exact h.cancelled hw hid hid rfl rfl fun hd => hd
    | none =>
      refine h.setEntry rfl rfl (fun _ _ hx => hx) (fun ha => ha) (fun w₁ id' hw₁ hid' => ?_)
        fun w' hw' => by cases hw'
      rw [hw] at hw₁
      injection hw₁ with hw₁
      rw [← hw₁, hid] at hid'
      cases hid'

theorem setWatch (h : Sound s) (sys : Lookup) (socket : Socket) (readable writable : Bool) :
    Sound (s.setWatch sys socket readable writable).2 := by
  by_cases hwanted : readable = true ∨ writable = true
  · unfold IocpBackend.setWatch
    rw [if_neg (not_not.mpr hwanted)]
    split
    · exact h
    dsimp only
    have htook := h.takeAfd
    cases hrestart : ({ s with afd := true } : IocpBackend).restart sys.base socket with
    | none => exact htook
    | some w =>
      obtain ⟨hlive, hsame, hfresh⟩ := restart_spec hrestart
      dsimp only
      cases hid : w.poll with
      | none =>
        show Sound (({ s with afd := true }.setEntry socket
          (some (w.want readable writable))).queueRearm socket)
        refine htook.queueRearm (w := w.want readable writable) rfl rfl rfl rfl (fun w₀ hw₀ => ?_)
          (fun hw₀ => (hfresh hw₀).2) hid hwanted
        obtain ⟨hpoll, hqueued, -⟩ := hsame w₀ hw₀
        exact ⟨hpoll.symm.trans hid, fun hq => hqueued.symm.trans hq⟩
      | some id =>
        cases hw₀ : s.watches socket with
        | none =>
          rw [(hfresh hw₀).1] at hid
          cases hid
        | some w₀ =>
          obtain ⟨hpoll, hqueued, hpolled, hbase⟩ := hsame w₀ hw₀
          have hold := htook.armed socket w₀ hw₀
          have hid₀ : w₀.poll = some id := hpoll.symm.trans hid
          dsimp only
          split
          · rename_i hcovers
            obtain ⟨slot, hflies⟩ := hold.flies id hid₀
            refine htook.setEntry rfl rfl (fun _ _ hx => hx) (fun ha => ha) (fun w₁ id' hw₁ hid' => ?_)
              fun w' hw' => ?_
            · have hw₁ : s.watches socket = some w₁ := hw₁
              rw [hw₀] at hw₁
              injection hw₁ with hw₁
              rw [← hw₁, hid₀] at hid'
              exact ⟨_, rfl, hid.trans hid'⟩
            · injection hw' with hw'
              subst hw'
              refine ⟨⟨fun id' hid' => ?_, fun hq => ?_, fun hd => ?_, fun _ => ?_, fun hnone => ?_⟩,
                rfl⟩
              · have hid' : w.poll = some id' := hid'
                rw [hid] at hid'
                injection hid' with hid'
                subst hid'
                refine ⟨slot, hflies.toPolling, hflies.socket, hpolled.trans hflies.polled, ?_⟩
                rcases hflies.answers with hcancelled | ⟨hnames, -⟩
                · exact .inl hcancelled
                rcases hbase with hbase | hdead | hidle
                · exact .inr ⟨hnames.trans hbase.symm, hcovers⟩
                · rw [hold.dead hdead] at hid₀
                  cases hid₀
                · obtain ⟨id', slot', hid', hp', hcancelled⟩ := hold.idle hidle
                  rw [hid₀] at hid'
                  injection hid' with hid'
                  subst hid'
                  rw [hflies.toPolling.unique hp']
                  exact .inl hcancelled
              · have hq : w.queued = true := hq
                rw [hqueued] at hq
                rw [(hold.queued hq).2] at hid₀
                cases hid₀
              · have hd : w.dead = true := hd
                rw [hlive] at hd
                cases hd
              · refine .inr (.inr ?_)
                show w.poll.isSome = true
                rw [hid]
                rfl
              · exact absurd hwanted hnone
          · refine htook.cancelled (w := w.want readable writable) hw₀ hid₀ hid hqueued hpolled
              fun hd => ?_
            have hd : w.dead = true := hd
            rw [hlive] at hd
            cases hd
  · obtain ⟨hr, hw⟩ := not_or.mp hwanted
    rw [eq_false_of_ne_true hr, eq_false_of_ne_true hw]
    exact h.unwatch socket sys

/-! ### Submissions -/

/-- A watch found dead: it has no poll. -/
theorem armed_dead {w : Watch} (hpoll : w.poll = none) (hdead : w.dead = true) (hqueued : w.queued = false)
    (hwanted : w.read = true ∨ w.write = true) (s : IocpBackend) (socket : Socket) :
    Armed s socket w where
  flies id hid := by
    rw [hpoll] at hid
    cases hid
  queued hq := by
    rw [hqueued] at hq
    cases hq
  dead _ := hpoll
  wanted _ := .inl hdead
  idle hnone := absurd hwanted hnone

/-- A poll was allocated for a watch that had none: it is in flight, or was completed at once. -/
theorem launched (h : Sound s) {w w' : Watch} {id : OpId} {slab : Ops.Run IocpOp} {data : IocpOp}
    (hw : s.watches socket = some w) (hnone : w.poll = none)
    (hl : Launched s.slab slab id .poll data) (hdata : data.socket = socket)
    (hwatches : s'.watches = Function.update s.watches socket (some w'))
    (hqueue : ∀ x, x ≠ socket → x ∈ s.watchRearm → x ∈ s'.watchRearm)
    (hafd : s.afd = true → s'.afd = true)
    (hslab : s'.slab = slab ∧ w'.poll = some id ∨ s'.slab = slab.step (.complete id))
    (harmed : Armed s' socket w') : Sound s' := by
  have hothers : ∀ id', id' ≠ id → s'.slab.slab.get id' = s.slab.slab.get id' := by
    intro id' hne
    rcases hslab with ⟨heq, -⟩ | heq
    · rw [heq]
      exact hl.others id' hne
    · rw [heq]
      exact (complete_gets slab id hne).trans (hl.others id' hne)
  have hfree : ∀ id' slot, Polling s.slab id' slot → slot.data.socket ≠ socket := by
    intro id' slot hp hdata
    obtain ⟨w₀, hw₀, hid⟩ := h.poll_of_polling hp hdata
    rw [hw] at hw₀
    injection hw₀ with hw₀
    rw [← hw₀, hnone] at hid
    cases hid
  refine h.replace hwatches ?_ hqueue hafd (fun id' slot hp _ => ?_) (fun id' slot hp => ?_)
    fun v hv => ⟨?_, hafd (h.helper socket w hw)⟩
  · rcases hslab with ⟨heq, -⟩ | heq
    · exact heq ▸ hl.good
    · exact heq ▸ hl.good.complete id
  · have hne : id' ≠ id := by
      rintro rfl
      have hget := hp.get
      rw [hl.fresh] at hget
      cases hget
    exact ⟨(hothers id' hne).trans hp.get, hp.inFlight, hp.kind⟩
  · by_cases hid : id' = id
    · subst hid
      rcases hslab with ⟨heq, hpoll⟩ | heq
      · obtain ⟨slot', hget, -, -, hslot'⟩ := hl.posted
        have hslot := hp.get
        rw [heq, hget] at hslot
        injection hslot with hslot
        rw [← hslot, hslot']
        exact .inl ⟨hdata, w', rfl, hpoll⟩
      · rw [heq] at hp
        exact absurd hp (complete_done slab id' slot)
    · have hold : Polling s.slab id' slot := ⟨(hothers id' hid).symm.trans hp.get, hp.inFlight, hp.kind⟩
      exact .inr ⟨hfree id' slot hold, hold⟩
  · injection hv with hv
    exact hv ▸ harmed

/-- The poll submitted: what becomes of its slot and its watch. -/
structure Submitted (s s' : IocpBackend) (socket : Socket) (w : Watch) (id : OpId) (w' : Watch)
    (slab : Ops.Run IocpOp) : Prop where
  launched : Launched s.slab slab id .poll ⟨socket, w.base, afdPollEvents w.read w.write⟩
  watches : s'.watches = Function.update s.watches socket (some w')
  rearm : s'.watchRearm = s.watchRearm
  afd : s'.afd = s.afd
  read : w'.read = w.read
  write : w'.write = w.write
  base : w'.base = w.base
  queued : w'.queued = w.queued
  answer : (s'.slab = slab ∧ w'.poll = some id ∧ w'.polled = afdPollEvents w.read w.write ∧
      w'.dead = w.dead) ∨
    (s'.slab = slab.step (.complete id) ∧ w'.poll = none ∧ w'.dead = true)

/-- A watch that needs no poll is left alone. -/
theorem submitPoll_spec {sys : Submission} (hgood : Ops.Good s.slab) (hw : s.watches socket = some w)
    (hafd : s.afd = true) (hfits : (s.submitPoll sys socket).slab.book.Fits) :
    ((w.dead = true ∨ w.poll.isSome = true ∨ ¬(w.read = true ∨ w.write = true)) ∧
      s.submitPoll sys socket = s) ∨
    (w.dead = false ∧ w.poll = none ∧ (w.read = true ∨ w.write = true) ∧
      ∃ id w' slab, Submitted s (s.submitPoll sys socket) socket w id w' slab) := by
  unfold IocpBackend.submitPoll at hfits ⊢
  rw [hw] at hfits ⊢
  dsimp only at hfits ⊢
  by_cases hdone : w.dead = true ∨ w.poll.isSome = true ∨ ¬(w.read = true ∨ w.write = true)
  · rw [if_pos hdone]
    exact .inl ⟨hdone, rfl⟩
  rw [if_neg hdone, if_neg (not_not.mpr hafd)] at hfits ⊢
  obtain ⟨hlive, hneeds⟩ := not_or.mp hdone
  obtain ⟨hnone, hwanted⟩ := not_or.mp hneeds
  refine .inr ⟨eq_false_of_ne_true hlive, Option.not_isSome_iff_eq_none.mp hnone,
    not_not.mp hwanted, ?_⟩
  cases hnew : s.newOp sys.alloc .poll socket with
  | none =>
    obtain ⟨id, slab, hpost⟩ := hgood.post_isSome sys.alloc .poll
    rw [IocpBackend.newOp, hpost] at hnew
    cases hnew
  | some r =>
    obtain ⟨id, s₁⟩ := r
    obtain ⟨-, hbook, hsame⟩ := newOp_eq hnew
    rw [hnew] at hfits
    dsimp only at hfits ⊢
    have hroom : (s.slab.step (.post sys.alloc .poll)).book.Fits := by
      rw [← hbook]
      split at hfits
      · exact (grown_complete _ id).fits hfits
      · exact hfits
    obtain ⟨id', s₂, data, hnew', -, hl, hdata, -⟩ := @newOp_launched s sys.alloc .poll socket hgood hroom
    rw [hnew] at hnew'
    injection hnew' with hnew'
    injection hnew' with hid hs
    subst hid hs
    have hl := hl.request w.base (afdPollEvents w.read w.write)
    rw [hdata] at hl
    have hnone := Option.not_isSome_iff_eq_none.mp hnone
    split
    · refine ⟨id, w.refuse, _, hl, ?_, ?_, ?_, rfl, rfl, rfl, rfl, .inr ⟨rfl, hnone, rfl⟩⟩
      · show Function.update s₁.watches _ _ = _
        rw [hsame]
      · show s₁.watchRearm = _
        rw [hsame]
      · show s₁.afd = _
        rw [hsame]
    · refine ⟨id, w.fly id, _, hl, ?_, ?_, ?_, rfl, rfl, rfl, rfl, .inl ⟨rfl, rfl, rfl, rfl⟩⟩
      · show Function.update s₁.watches _ _ = _
        rw [hsame]
      · show s₁.watchRearm = _
        rw [hsame]
      · show s₁.afd = _
        rw [hsame]

/-- The watch is off the queue, and has a poll if it needs one. -/
theorem rearmWatch (h : Sound { s with watchRearm := socket :: later }) (sys : Socket → Submission)
    (hfits : (s.rearmWatch sys socket).slab.book.Fits) :
    Sound { s.rearmWatch sys socket with watchRearm := later } := by
  have hqueue : ∀ x, x ≠ socket → x ∈ socket :: later → x ∈ later := by
    intro x hne hx
    exact (List.mem_cons.mp hx).resolve_left hne
  cases hw : s.watches socket with
  | none =>
    have hsame : s.rearmWatch sys socket = s := by
      unfold IocpBackend.rearmWatch IocpBackend.submitPoll
      simp only [hw]
    rw [hsame]
    refine h.setEntry (?_ : _ = Function.update s.watches socket none) rfl hqueue (fun ha => ha)
      (fun w id hw' _ => ?_)
      fun w' hw' => by cases hw'
    · show s.watches = Function.update s.watches socket none
      rw [← hw, Function.update_eq_self]
    · have hw' : s.watches socket = some w := hw'
      rw [hw] at hw'
      cases hw'
  | some w =>
    have hold := h.armed socket w hw
    have hafd : s.afd = true := h.helper socket w hw
    have hstep : s.rearmWatch sys socket =
        (s.setEntry socket (some (w.queue false))).submitPoll (sys socket) socket := by
      rw [IocpBackend.rearmWatch, hw]
    rw [hstep] at hfits ⊢
    rcases submitPoll_spec (s := s.setEntry socket (some (w.queue false))) (w := w.queue false) h.good
        (Function.update_self ..) hafd hfits with
      ⟨hdone, hleft⟩ | ⟨hlive, hnone, hwanted, id, w', slab, hsub⟩
    · rw [hleft]
      refine h.setEntry rfl rfl hqueue (fun ha => ha) (fun w₀ id hw₀ hid => ?_)
        fun w' hw' => ⟨?_, hafd⟩
      · have hw₀ : s.watches socket = some w₀ := hw₀
        rw [hw] at hw₀
        injection hw₀ with hw₀
        exact ⟨_, rfl, hw₀ ▸ hid⟩
      · injection hw' with hw'
        subst hw'
        refine ⟨fun id hid => ?_, (fun hq => by cases hq), hold.dead, fun hwanted => ?_, hold.idle⟩
        · obtain ⟨slot, hflies⟩ := hold.flies id hid
          exact ⟨slot, hflies.toPolling, hflies.socket, hflies.polled, hflies.answers⟩
        rcases hdone with hdead | hpoll | hidle
        · exact .inl hdead
        · exact .inr (.inr hpoll)
        · exact absurd hwanted hidle
    · have hwants : w'.read = true ∨ w'.write = true := by
        rw [hsub.read, hsub.write]
        exact hwanted
      refine h.launched hw hnone hsub.launched rfl (?_ : _ = Function.update s.watches socket (some w'))
        hqueue (fun _ => ?_) ?_ ?_
      · show (IocpBackend.submitPoll _ _ _).watches = _
        rw [hsub.watches]
        exact Function.update_idem ..
      · exact hsub.afd.trans hafd
      · exact hsub.answer.imp (fun ha => ⟨ha.1, ha.2.1⟩) fun ha => ha.1
      · rcases hsub.answer with ⟨hslab, hpoll, hpolled, hdead⟩ | ⟨-, hpoll, hdead⟩
        · obtain ⟨slot, hget, hstate, hkind, hdata⟩ := hsub.launched.posted
          have hp : Polling slab id slot := ⟨hget, by rw [OpSlot.inFlight, hstate]; rfl, hkind⟩
          refine ⟨fun id' hid' => ?_, fun hq => ?_, fun hd => ?_, fun _ => ?_, fun hidle => ?_⟩
          · rw [hpoll] at hid'
            injection hid' with hid'
            subst hid'
            refine ⟨slot, ?_, ?_, ?_, .inr ⟨?_, ?_⟩⟩
            · show Polling (IocpBackend.submitPoll _ _ _).slab id slot
              rw [hslab]
              exact hp
            · rw [hdata]
            · rw [hdata, hpolled]
            · rw [hdata, hsub.base]
            · rw [hpolled, hsub.read, hsub.write, UInt32.and_self]
          · rw [hsub.queued] at hq
            cases hq
          · rw [hdead, hlive] at hd
            cases hd
          · rw [hpoll]
            exact .inr (.inr rfl)
          · exact absurd hwants hidle
        · exact armed_dead hpoll hdead hsub.queued hwants _ _

theorem foldl_rearm (sys : Socket → Submission) {queue : List Socket}
    (h : Sound { s with watchRearm := queue })
    (hfits : (queue.foldl (IocpBackend.rearmWatch sys) s).slab.book.Fits) :
    Sound { queue.foldl (IocpBackend.rearmWatch sys) s with watchRearm := [] } := by
  induction queue generalizing s with
  | nil => exact h
  | cons socket later ih =>
    have hgrown : ∀ (l : List Socket) (t : IocpBackend),
        Grown t.slab.book (l.foldl (IocpBackend.rearmWatch sys) t).slab.book := by
      intro l
      induction l with
      | nil => exact fun t => .refl _
      | cons x l ihl => exact fun t => (rearmWatch_grown sys t x).trans (ihl _)
    exact ih (h.rearmWatch sys ((hgrown later _).fits hfits)) hfits

theorem rearmWatches (h : Sound s) (sys : Socket → Submission)
    (hfits : (s.rearmWatches sys).slab.book.Fits) : Sound (s.rearmWatches sys) :=
  foldl_rearm (s := { s with watchRearm := [] }) sys h hfits

/-! ### Packets -/

theorem onPollDone_slab (s : IocpBackend) (socket : Socket) (id : OpId) (status events : UInt32)
    (cancelled : Bool) : (s.onPollDone socket id status events cancelled).slab = s.slab := by
  unfold IocpBackend.onPollDone IocpBackend.queueRearm
  grind [IocpBackend.setEntry]

/-- Its poll is reaped: what its socket's watch becomes. -/
theorem landed (h : Sound s) {id : OpId} {slot : OpSlot IocpOp} (hp : Polling s.slab id slot)
    (hdata : slot.data.socket = socket) (hgood : Ops.Good ((s.slab.step (.complete id)).step (.release id)))
    (hslab : s'.slab = (s.slab.step (.complete id)).step (.release id)) {entry : Option Watch}
    (hwatches : s'.watches = Function.update s.watches socket entry)
    (hqueue : s'.watchRearm = s.watchRearm) (hafd : s'.afd = s.afd)
    (harmed : ∀ w', entry = some w' → Armed s' socket w') : Sound s' := by
  have hgets : ∀ id', id' ≠ id → s'.slab.slab.get id' = s.slab.slab.get id' := by
    intro id' hne
    rw [hslab]
    exact (release_gets _ id hne).trans (complete_gets s.slab id hne)
  obtain ⟨w, hw, hid⟩ := h.poll_of_polling hp hdata
  refine h.replace hwatches (hslab ▸ hgood) (fun x _ hx => hqueue ▸ hx) (fun ha => hafd.trans ha)
    (fun id' slot' hp' hother => ?_) (fun id' slot' hp' => ?_) fun w' hw' =>
      ⟨harmed w' hw', hafd.trans (h.helper socket w hw)⟩
  · have hne : id' ≠ id := by
      rintro rfl
      rw [hp'.unique hp] at hother
      exact hother hdata
    exact ⟨(hgets id' hne).trans hp'.get, hp'.inFlight, hp'.kind⟩
  · have hne : id' ≠ id := by
      rintro rfl
      rw [hslab] at hp'
      obtain ⟨slot₀, hp₀, -⟩ := (keeps_release (s.slab.step (.complete id')) id').only id' slot' hp'
      exact complete_done s.slab id' slot₀ hp₀
    have hold : Polling s.slab id' slot' := ⟨(hgets id' hne).symm.trans hp'.get, hp'.inFlight, hp'.kind⟩
    refine .inr ⟨fun hsame => hne ?_, hold⟩
    obtain ⟨w', hw', hid'⟩ := h.poll_of_polling hold hsame
    rw [hw] at hw'
    injection hw' with hw'
    rw [← hw', hid] at hid'
    injection hid' with hid'
    exact hid'.symm

/-- A poll is done: its watch is polled again, or ends with it. -/
theorem pollDone (h : Sound s) {id : OpId} {slot : OpSlot IocpOp} (hp : Polling s.slab id slot)
    (hfits : ((s.slab.step (.complete id)).step (.release id)).book.Fits) (status events : UInt32)
    (cancelled : Bool) :
    Sound ({ s with slab := (s.slab.step (.complete id)).step (.release id) }.onPollDone
      slot.data.socket id status events cancelled) := by
  obtain ⟨w, hw, hid⟩ := h.owned id slot hp
  have hgood : Ops.Good ((s.slab.step (.complete id)).step (.release id)) :=
    (h.good.complete id).release id hfits
  have hqueued : w.queued = false := by
    cases hq : w.queued with
    | false => rfl
    | true =>
      rw [((h.armed _ w hw).queued hq).2] at hid
      cases hid
  unfold IocpBackend.onPollDone
  rw [show ({ s with slab := (s.slab.step (.complete id)).step (.release id) } :
    IocpBackend).watches = s.watches from rfl, hw]
  dsimp only
  rw [if_neg (not_not.mpr hid)]
  generalize (if cancelled = true then PollOutcome.cancelled
    else afdOutcome status events w.read w.write) = outcome
  generalize outcome.dead w = dead
  split
  · refine h.landed hp rfl hgood rfl (?_ : _ = Function.update s.watches slot.data.socket none) rfl rfl
      fun w' hw' => by cases hw'
    exact Function.update_idem ..
  · rename_i hwanted
    have hwanted := not_not.mp hwanted
    split
    · rename_i hdead
      refine h.landed hp rfl hgood rfl rfl rfl rfl fun w' hw' => ?_
      injection hw' with hw'
      subst hw'
      exact armed_dead (w := w.land dead) rfl hdead hqueued hwanted _ _
    · -- as if it had been found dead, and then queued
      have hmid : Sound { s with
          slab := (s.slab.step (.complete id)).step (.release id)
          watches := Function.update s.watches slot.data.socket (some (w.land true)) } := by
        refine h.landed hp rfl hgood rfl rfl rfl rfl fun w' hw' => ?_
        injection hw' with hw'
        subst hw'
        exact armed_dead (w := w.land true) rfl rfl hqueued hwanted _ _
      refine hmid.queueRearm (w := w.land dead) (h.helper _ w hw) ?_ rfl rfl (fun w₀ hw₀ => ?_)
        (fun hnone => ?_) rfl hwanted
      · exact (Function.update_idem ..).symm
      · have hw₀ : Function.update s.watches slot.data.socket (some (w.land true)) slot.data.socket =
          some w₀ := hw₀
        rw [Function.update_self] at hw₀
        injection hw₀ with hw₀
        subst hw₀
        exact ⟨rfl, fun hq => hq⟩
      · have hnone : Function.update s.watches slot.data.socket (some (w.land true)) slot.data.socket =
          none := hnone
        rw [Function.update_self] at hnone
        cases hnone

theorem translateEntry (h : Sound s) (id : OpId) (status events : UInt32)
    (hfits : (s.translateEntry id status events).slab.book.Fits) :
    Sound (s.translateEntry id status events) := by
  unfold IocpBackend.translateEntry at hfits ⊢
  cases hget : s.slab.slab.get id with
  | none => exact h
  | some slot =>
    rw [hget] at hfits
    dsimp only at hfits ⊢
    by_cases hbusy : slot.inFlight = true
    · rw [if_neg (not_not.mpr hbusy)] at hfits ⊢
      by_cases hkind : slot.kind = .poll
      · rw [if_pos hkind] at hfits ⊢
        rw [onPollDone_slab] at hfits
        exact h.pollDone ⟨hget, hbusy, hkind⟩ hfits status events _
      · rw [if_neg hkind]
        refine h.keeps (h.good.complete id) (keeps_complete fun slot' hp => hkind ?_) rfl rfl fun ha => ha
        have hsame := hp.get
        rw [hget] at hsame
        injection hsame with hsame
        rw [hsame]
        exact hp.kind
    · rw [if_pos hbusy]
      exact h

theorem postOther (h : Sound s) (alloc : Nat) (kind : OpKind) (socket : Socket)
    (hfits : (s.postOther alloc kind socket).slab.book.Fits) : Sound (s.postOther alloc kind socket) := by
  unfold IocpBackend.postOther at hfits ⊢
  split
  · exact h
  · rename_i hkind
    rw [if_neg hkind] at hfits
    cases hnew : s.newOp alloc kind socket with
    | none => exact h
    | some r =>
      obtain ⟨id, s₁⟩ := r
      obtain ⟨-, hbook, -⟩ := newOp_eq hnew
      rw [hnew] at hfits
      have hroom : (s.slab.step (.post alloc kind)).book.Fits := hbook ▸ hfits
      obtain ⟨id', s₂, data, hnew', hs, hl, -⟩ := @newOp_launched s alloc kind socket h.good hroom
      rw [hnew] at hnew'
      injection hnew' with hnew'
      injection hnew' with hid hs₂
      subst hid hs₂
      show Sound s₁
      refine h.keeps hl.good (hl.keeps hkind) ?_ ?_ ?_
      · rw [hs]
      · rw [hs]
      · rw [hs]
        exact fun ha => ha

theorem completeInline (h : Sound s) (id : OpId) : Sound (s.completeInline id) := by
  unfold IocpBackend.completeInline
  cases hget : s.slab.slab.get id with
  | none => exact h
  | some slot =>
    dsimp only
    split
    · exact h
    · rename_i hkind
      refine h.keeps (h.good.complete id) (keeps_complete fun slot' hp => hkind ?_) rfl rfl fun ha => ha
      have hsame := hp.get
      rw [hget] at hsame
      injection hsame with hsame
      rw [hsame]
      exact hp.kind

theorem step (h : Sound s) (event : Event) (hfits : (s.step event).slab.book.Fits) :
    Sound (s.step event) := by
  cases event with
  | setWatch sys socket readable writable => exact h.setWatch sys socket readable writable
  | detachSocket socket => exact h.unwatch socket _
  | rearm sys => exact h.rearmWatches sys hfits
  | takeStaged => exact h.keeps h.good (.of_get fun _ => rfl) rfl rfl fun ha => ha
  | packet id status numberOfHandles events => exact h.translateEntry id status _ hfits
  | cancel id => exact h.cancelPoll id
  | setWakeOnly fd => exact h.keeps h.good (.of_get fun _ => rfl) rfl rfl fun ha => ha
  | post alloc kind socket => exact h.postOther alloc kind socket hfits
  | completeInline id => exact h.completeInline id
  | release id => exact h.keeps (h.good.release id hfits) (keeps_release s.slab id) rfl rfl fun ha => ha

end Sound

/-! ## 4. Runs -/

/-- The slab stays within its bounds. -/
def Fits (s : IocpBackend) (event : Event) : Prop := (s.step event).slab.book.Fits

theorem run_sound (events : List Event) (hfits : backend.Along Fits events) : Sound (backend.run events) :=
  backend.run_invariant_along Sound.new (fun _ event h hfits => h.step event hfits) events hfits

theorem rearmed (s : IocpBackend) (sys : Socket → Submission) : (s.step (.rearm sys)).watchRearm = [] := rfl

/-- No watch is lost, whatever is watched, cancelled and answered between: one that wants something has a
poll in flight, or is queued for one, or was found dead; and once a wait has begun, no longer queued. -/
theorem watch_armed (events : List Event) (hfits : backend.Along Fits events) :
    let s := backend.run events
    (∀ socket w, s.watches socket = some w → Armed s socket w) ∧
      (∀ id slot, Polling s.slab id slot →
        ∃ w, s.watches slot.data.socket = some w ∧ w.poll = some id) ∧
      ∀ before sys, events = before ++ [.rearm sys] → ∀ socket w, s.watches socket = some w →
        w.read = true ∨ w.write = true →
          w.dead = true ∨ ∃ id slot, w.poll = some id ∧ Flies s.slab socket w id slot := by
  intro s
  have hsound : Sound s := run_sound events hfits
  refine ⟨hsound.armed, hsound.owned, fun before sys hevents socket w hw hwanted => ?_⟩
  have hrearm : s.watchRearm = [] := by
    show (backend.run events).watchRearm = []
    rw [hevents, backend.run_concat]
    exact rearmed _ sys
  rcases (hsound.armed socket w hw).wanted hwanted with hdead | hqueued | hpoll
  · exact .inl hdead
  · have hmem := ((hsound.armed socket w hw).queued hqueued).1
    rw [hrearm] at hmem
    cases hmem
  · obtain ⟨id, hid⟩ := Option.isSome_iff_exists.mp hpoll
    obtain ⟨slot, hflies⟩ := (hsound.armed socket w hw).flies id hid
    exact .inr ⟨id, slot, hid, hflies⟩

theorem fits_of_few {s : IocpBackend} {event : Event}
    (hissued : (s.step event).slab.book.issued.length < 2 ^ 32)
    (hrecycled : (s.step event).slab.book.recycled.length < 2 ^ 32) : Fits s event where
  live := by omega
  recyclings _ := Nat.lt_of_le_of_lt List.countP_le_length hrecycled

/-- A socket's number is given to another while the poll that names the first is in flight. -/
def reissued : List Event :=
  [.setWatch ⟨true, some 7⟩ 5 true false] ++ [.rearm fun _ => ⟨0, false⟩] ++ [.detachSocket 5] ++
    [.setWatch ⟨true, some 9⟩ 5 true false]

theorem reissued_fits : backend.Along Fits reissued := by
  refine (backend.along_concat).mpr ⟨(backend.along_concat).mpr ⟨(backend.along_concat).mpr
    ⟨(backend.along_singleton).mpr ?_, ?_⟩, ?_⟩, ?_⟩
  · exact fits_of_few (by decide) (by decide)
  · exact fits_of_few (by decide) (by decide)
  · exact fits_of_few (by decide) (by decide)
  · exact fits_of_few (by decide) (by decide)

/-- The first socket's poll says that it was closed; the second is polled all the same. -/
theorem watch_armed_reissued :
    let events := reissued ++ [.packet ⟨0, 0⟩ 0 1 afdPollLocalClose] ++ [.rearm fun _ => ⟨0, false⟩]
    backend.Along Fits events ∧ ∀ socket w, (backend.run events).watches socket = some w →
      w.read = true ∨ w.write = true →
        w.dead = true ∨ ∃ id slot, w.poll = some id ∧ Flies (backend.run events).slab socket w id slot := by
  intro events
  have hfits : backend.Along Fits events := by
    refine (backend.along_concat).mpr ⟨(backend.along_concat).mpr ⟨reissued_fits, ?_⟩, ?_⟩
    · exact fits_of_few (by decide) (by decide)
    · exact fits_of_few (by decide) (by decide)
  exact ⟨hfits, (watch_armed events hfits).2.2 _ _ rfl⟩

end Cadeloop.Core.IocpWatch
