import Cadeloop.Core.IocpWatchRuns

/-!
# What the watches report, and what keeps the loop waiting

A packet's report is for the watch whose poll it ends, of the sides that watch asks for, and never from a
poll that was cancelled: what an old socket's poll says does not reach the socket that has its number
now.  The loop may sleep without the port exactly when no operation is in flight but the poll of its own
wakeup socket.
-/

namespace Cadeloop.Core

open Cadeloop.Reasoning
open Ops (OpId OpKind OpState OpSlot)

/-! ## 1. The slab's operations in flight -/

namespace Ops

variable {D : Type*}

theorem OpSlab.length_inFlightIds (s : OpSlab D) :
    s.inFlightIds.length = s.slots.countP OpSlot.inFlight := by
  unfold OpSlab.inFlightIds
  rw [List.length_filterMap_eq_countP]
  conv_rhs => rw [← List.zipIdx_map_fst 0 s.slots, List.countP_map]
  refine List.countP_congr fun entry _ => ?_
  rw [Function.comp_apply]
  split
  · rename_i hbusy
    exact iff_of_true rfl hbusy
  · rename_i hidle
    exact iff_of_false (fun h => by cases h) hidle

theorem Good.nodup_inFlightIds {s : Run D} (h : Good s) : s.slab.inFlightIds.Nodup := by
  have hsize := h.tracks.size
  rw [show s.slab.view.cells.length = s.slab.slots.length from List.length_map _] at hsize
  have hsnd : s.slab.slots.zipIdx.Pairwise fun a b => a.2 < b.2 := by
    rw [← List.pairwise_map (f := Prod.snd), List.zipIdx_map_snd]
    exact List.pairwise_lt_range'
  unfold OpSlab.inFlightIds
  rw [List.nodup_iff_pairwise_ne, List.pairwise_filterMap]
  refine hsnd.imp_of_mem fun {a b} ha hb hlt id hid id' hid' heq => ?_
  have hindex : ∀ c ∈ s.slab.slots.zipIdx, ∀ k : OpId,
      (if c.1.inFlight = true then some (⟨UInt32.ofNat c.2, c.1.generation⟩ : OpId) else none) = some k →
        k.index.toNat = c.2 := by
    intro c hc k hk
    have hget := List.mem_zipIdx_iff_getElem?.mp hc
    have hc := (List.getElem?_eq_some_iff.mp hget).1
    split at hk
    · injection hk with hk
      rw [← hk]
      exact UInt32.toNat_ofNat_of_lt' (Nat.lt_of_lt_of_le hc hsize)
    · cases hk
  have hsame := hindex a ha id hid
  rw [heq, hindex b hb id' hid'] at hsame
  omega

end Ops

namespace IocpWatch

variable {s : IocpBackend} {socket : Socket} {w : Watch}

/-! ## 2. Reports -/

theorem queueRearm_delivered (s : IocpBackend) (socket : Socket) :
    (s.queueRearm socket).delivered = s.delivered := by
  unfold IocpBackend.queueRearm
  grind [IocpBackend.setEntry]

theorem onPollDone_delivered {id : OpId} {status events : UInt32} {cancelled : Bool}
    (hw : s.watches socket = some w) (hid : w.poll = some id) :
    (s.onPollDone socket id status events cancelled).delivered = s.delivered ++
      (if cancelled then PollOutcome.cancelled
        else afdOutcome status events w.read w.write).report socket w := by
  unfold IocpBackend.onPollDone
  rw [hw]
  dsimp only
  rw [if_neg (not_not.mpr hid)]
  generalize (if cancelled = true then PollOutcome.cancelled
    else afdOutcome status events w.read w.write) = outcome
  by_cases hidle : ¬(w.read = true ∨ w.write = true)
  · rw [if_pos hidle]
    rfl
  rw [if_neg hidle]
  by_cases hdead : outcome.dead w = true
  · rw [if_pos hdead]
  · rw [if_neg hdead, queueRearm_delivered]

/-- A report is of sides the watch asks for. -/
theorem mem_report {status events : UInt32} {fd : Socket} {readable writable : Bool}
    (h : .ready fd readable writable ∈ (afdOutcome status events w.read w.write).report socket w) :
    fd = socket ∧ (readable = true → w.read = true) ∧ (writable = true → w.write = true) ∧
      (readable = true ∨ writable = true) := by
  unfold afdOutcome PollOutcome.report at h
  grind

/-- A poll cancelled says nothing, and its watch, if it is still wanted, is queued for another. -/
theorem onPollDone_cancelled {id : OpId} (status events : UInt32) (hw : s.watches socket = some w)
    (hid : w.poll = some id) (hlive : w.dead = false) (hwanted : w.read = true ∨ w.write = true) :
    let s' := s.onPollDone socket id status events true
    s'.delivered = s.delivered ∧ ∃ w', s'.watches socket = some w' ∧ w'.read = w.read ∧
      w'.write = w.write ∧ w'.base = w.base ∧ w'.dead = false ∧ w'.queued = true := by
  intro s'
  refine ⟨(onPollDone_delivered hw hid).trans (List.append_nil _), ?_⟩
  show ∃ w', (s.onPollDone socket id status events true).watches socket = some w' ∧ _
  unfold IocpBackend.onPollDone
  rw [hw]
  dsimp only
  rw [if_neg (not_not.mpr hid), if_neg (not_not.mpr hwanted), if_pos rfl,
    show PollOutcome.cancelled.dead w = false from hlive, if_neg Bool.false_ne_true]
  unfold IocpBackend.queueRearm
  rw [show (IocpBackend.setEntry socket (some (w.land false)) s).watches socket = some (w.land false) from
    Function.update_self ..]
  dsimp only
  split
  · rename_i hq
    exact ⟨w.land false, Function.update_self .., rfl, rfl, rfl, rfl, hq⟩
  · exact ⟨(w.land false).queue true, Function.update_self .., rfl, rfl, rfl, rfl, rfl⟩

theorem translateEntry_poll {id : OpId} {slot : OpSlot IocpOp} (hp : Polling s.slab id slot)
    (status events : UInt32) :
    s.translateEntry id status events =
      { s with slab := (s.slab.step (.complete id)).step (.release id) }.onPollDone slot.data.socket id
        status events (decide (slot.state = OpState.cancelled)) := by
  unfold IocpBackend.translateEntry
  rw [hp.get]
  dsimp only
  rw [if_neg (not_not.mpr hp.inFlight), if_pos hp.kind]

/-- A packet that ends no poll reports no readiness. -/
theorem translateEntry_other {id : OpId} (h : ∀ slot, ¬Polling s.slab id slot) (status events : UInt32) :
    ∃ reports, (s.translateEntry id status events).delivered = s.delivered ++ reports ∧
      ∀ fd readable writable, Completion.ready fd readable writable ∉ reports := by
  unfold IocpBackend.translateEntry
  cases hget : s.slab.slab.get id with
  | none => exact ⟨[], (List.append_nil _).symm, fun _ _ _ hmem => by cases hmem⟩
  | some slot =>
    dsimp only
    by_cases hbusy : slot.inFlight = true
    · rw [if_neg (not_not.mpr hbusy), if_neg fun hkind => h slot ⟨hget, hbusy, hkind⟩]
      exact ⟨[.io id], rfl, fun _ _ _ hmem => by cases List.mem_singleton.mp hmem⟩
    · rw [if_pos hbusy]
      exact ⟨[], (List.append_nil _).symm, fun _ _ _ hmem => by cases hmem⟩

/-- What a packet reports is for the watch whose poll it ends. -/
structure Reported (s : IocpBackend) (id : OpId) (fd : Socket) (readable writable : Bool) (w : Watch)
    (slot : OpSlot IocpOp) : Prop extends Flies s.slab fd w id slot where
  watch : s.watches fd = some w
  posted : slot.state = .posted
  handle : slot.data.handle = w.base
  read : readable = true → w.read = true
  write : writable = true → w.write = true
  some : readable = true ∨ writable = true

theorem Sound.packet_reports (h : Sound s) (id : OpId) (status events : UInt32) :
    ∃ reports, (s.translateEntry id status events).delivered = s.delivered ++ reports ∧
      ∀ fd readable writable, .ready fd readable writable ∈ reports →
        ∃ w slot, Reported s id fd readable writable w slot := by
  by_cases hpolls : ∃ slot, Polling s.slab id slot
  · obtain ⟨slot, hp⟩ := hpolls
    obtain ⟨w, hw, hid⟩ := h.owned id slot hp
    obtain ⟨slot', hflies⟩ := (h.armed _ w hw).flies id hid
    rw [← hp.unique hflies.toPolling] at hflies
    rw [translateEntry_poll hp]
    refine ⟨_, onPollDone_delivered hw hid, fun fd readable writable hmem => ?_⟩
    by_cases hcancelled : slot.state = .cancelled
    · rw [if_pos (decide_eq_true hcancelled)] at hmem
      cases hmem
    rw [if_neg fun hc => hcancelled (of_decide_eq_true hc)] at hmem
    obtain ⟨rfl, hread, hwrite, hsome⟩ := mem_report hmem
    have hposted : slot.state = .posted := by
      have hinFlight := hp.inFlight
      rw [OpSlot.inFlight, decide_eq_true_iff] at hinFlight
      exact hinFlight.resolve_right hcancelled
    exact ⟨w, slot, hflies, hw, hposted, (hflies.answers.resolve_left hcancelled).1, hread, hwrite, hsome⟩
  · obtain ⟨reports, hdelivered, hnone⟩ :=
      translateEntry_other (fun slot hp => hpolls ⟨slot, hp⟩) status events
    exact ⟨reports, hdelivered, fun fd readable writable hmem => absurd hmem (hnone fd readable writable)⟩

/-- Of the readiness a packet reports, all is for the watch whose poll it ends: one not cancelled, that
names the handle of the socket watched now.  A poll that was cancelled ends no watch still wanted. -/
theorem reports_watched (events : List Event) (hfits : backend.Along Fits events) (id : OpId)
    (status numberOfHandles answer : UInt32) :
    let s := backend.run events
    let s' := s.step (.packet id status numberOfHandles answer)
    (∃ reports, s'.delivered = s.delivered ++ reports ∧
      ∀ fd readable writable, .ready fd readable writable ∈ reports →
        ∃ w slot, Reported s id fd readable writable w slot) ∧
    ∀ slot w, s.watches slot.data.socket = some w → w.read = true ∨ w.write = true →
      Polling s.slab id slot → slot.state = .cancelled →
      s'.delivered = s.delivered ∧ ∃ w', s'.watches slot.data.socket = some w' ∧ w'.read = w.read ∧
        w'.write = w.write ∧ w'.base = w.base ∧ w'.dead = false ∧ w'.queued = true := by
  intro s s'
  have hsound : Sound s := run_sound events hfits
  refine ⟨hsound.packet_reports id status _, fun slot w hw hwanted hp hcancelled => ?_⟩
  have hid : w.poll = some id := by
    obtain ⟨w₀, hw₀, hid⟩ := hsound.owned id slot hp
    rw [hw] at hw₀
    injection hw₀ with hw₀
    rw [hw₀]
    exact hid
  have hlive : w.dead = false := by
    cases hd : w.dead with
    | false => rfl
    | true =>
      rw [(hsound.armed _ w hw).dead hd] at hid
      cases hid
  have hstep : s' = _ := translateEntry_poll hp status (afdReportedEvents numberOfHandles answer)
  rw [decide_eq_true hcancelled] at hstep
  rw [hstep]
  exact onPollDone_cancelled (s := { s with slab := _ }) status _ hw hid hlive hwanted

theorem reports_watched_reissued :
    let s := backend.run reissued
    let s' := s.step (.packet ⟨0, 0⟩ 0 1 afdPollLocalClose)
    backend.Along Fits reissued ∧ s.slab.slab.state ⟨0, 0⟩ = some OpState.cancelled ∧
      ∃ reports, s'.delivered = s.delivered ++ reports ∧
        ∀ fd readable writable, .ready fd readable writable ∈ reports →
          ∃ w slot, Reported s ⟨0, 0⟩ fd readable writable w slot :=
  ⟨reissued_fits, by decide, (reports_watched reissued reissued_fits ⟨0, 0⟩ 0 1 afdPollLocalClose).1⟩

/-! ## 3. Interest -/

/-- Ids no more than one that is among them are that one alone. -/
theorem length_le_iff {ids : List OpId} (hnodup : ids.Nodup) {wake : Option OpId}
    (hmem : ∀ id, wake = some id → id ∈ ids) :
    ids.length ≤ wake.isSome.toNat ↔ ∀ id ∈ ids, wake = some id := by
  cases wake with
  | none =>
    show ids.length ≤ 0 ↔ _
    rw [Nat.le_zero, List.length_eq_zero_iff, List.eq_nil_iff_forall_not_mem]
    exact forall_congr' fun id => imp_congr_right fun _ => ⟨fun h => h.elim, fun h => by cases h⟩
  | some wake =>
    show ids.length ≤ 1 ↔ _
    constructor
    · intro hle id hid
      have hperm : [wake].Perm ids :=
        ((List.nodup_singleton wake).subperm fun x hx =>
          List.mem_singleton.mp hx ▸ hmem wake rfl).perm_of_length_le hle
      rw [List.mem_singleton.mp (hperm.mem_iff.mpr hid)]
    · intro honly
      refine (hnodup.subperm fun id hid => ?_ : ids.Subperm [wake]).length_le
      have hid := honly id hid
      injection hid with hid
      exact hid ▸ List.mem_singleton_self wake

theorem Sound.hasIoInterest_iff (h : Sound s) :
    s.hasIoInterest = false ↔ s.inlineCompletions = [] ∧ s.watchRearm = [] ∧
      ∀ id slot, s.slab.slab.get id = some slot → slot.inFlight = true →
        ∃ fd w, s.wakeOnly = some fd ∧ s.watches fd = some w ∧ w.poll = some id := by
  have hwake : ∀ id, (s.wakeOnly.bind s.watches).bind Watch.poll = some id ↔
      ∃ fd w, s.wakeOnly = some fd ∧ s.watches fd = some w ∧ w.poll = some id := by
    intro id
    rw [Option.bind_eq_some_iff]
    constructor
    · rintro ⟨w, hw, hid⟩
      obtain ⟨fd, hfd, hw⟩ := Option.bind_eq_some_iff.mp hw
      exact ⟨fd, w, hfd, hw, hid⟩
    · rintro ⟨fd, w, hfd, hw, hid⟩
      exact ⟨w, Option.bind_eq_some_iff.mpr ⟨fd, hfd, hw⟩, hid⟩
  have hcount : s.slab.slab.inFlight = s.slab.slab.inFlightIds.length := by
    rw [h.good.exact.inFlight, Ops.OpSlab.length_inFlightIds]
  have hmem : ∀ id, (s.wakeOnly.bind s.watches).bind Watch.poll = some id →
      id ∈ s.slab.slab.inFlightIds := by
    intro id hid
    obtain ⟨fd, w, -, hw, hpoll⟩ := (hwake id).mp hid
    obtain ⟨slot, hflies⟩ := (h.armed fd w hw).flies id hpoll
    exact (h.good.mem_inFlightIds id).mpr ⟨slot, hflies.get, hflies.inFlight⟩
  have hpolls : s.wakePolls = ((s.wakeOnly.bind s.watches).bind Watch.poll).isSome.toNat := by
    unfold IocpBackend.wakePolls
    cases s.wakeOnly.bind s.watches <;> rfl
  unfold IocpBackend.hasIoInterest
  rw [hpolls, hcount]
  by_cases hstaged : s.inlineCompletions ≠ [] ∨ s.watchRearm ≠ []
  · rw [if_pos hstaged]
    refine iff_of_false (fun h => by cases h) fun ⟨hinline, hrearm, _⟩ => ?_
    exact hstaged.elim (fun hne => hne hinline) fun hne => hne hrearm
  · rw [if_neg hstaged, decide_eq_false_iff_not, Nat.not_lt,
      length_le_iff h.good.nodup_inFlightIds hmem]
    rw [not_or, not_not, not_not] at hstaged
    refine ⟨fun honly => ⟨hstaged.1, hstaged.2, fun id slot hget hbusy => ?_⟩, fun honly id hid => ?_⟩
    · exact (hwake id).mp (honly id ((h.good.mem_inFlightIds id).mpr ⟨slot, hget, hbusy⟩))
    · obtain ⟨slot, hget, hbusy⟩ := (h.good.mem_inFlightIds id).mp hid
      exact (hwake id).mpr (honly.2.2 id slot hget hbusy)

/-- The loop polls the port for as long as there is anything staged or queued, or in flight that is not the
poll of its own wakeup socket: so for any watch that wants something, and is neither that one nor dead. -/
theorem has_io_interest (events : List Event) (hfits : backend.Along Fits events) :
    let s := backend.run events
    (s.hasIoInterest = false ↔ s.inlineCompletions = [] ∧ s.watchRearm = [] ∧
      ∀ id slot, s.slab.slab.get id = some slot → slot.inFlight = true →
        ∃ fd w, s.wakeOnly = some fd ∧ s.watches fd = some w ∧ w.poll = some id) ∧
    ∀ socket w, s.watches socket = some w → w.read = true ∨ w.write = true → w.dead = false →
      s.wakeOnly ≠ some socket → s.hasIoInterest = true := by
  intro s
  have hsound : Sound s := run_sound events hfits
  refine ⟨hsound.hasIoInterest_iff, fun socket w hw hwanted hlive hother => ?_⟩
  by_contra hnone
  obtain ⟨-, hrearm, honly⟩ := hsound.hasIoInterest_iff.mp (eq_false_of_ne_true hnone)
  have harmed := hsound.armed socket w hw
  rcases harmed.wanted hwanted with hdead | hqueued | hpoll
  · rw [hlive] at hdead
    cases hdead
  · have hmem := (harmed.queued hqueued).1
    rw [hrearm] at hmem
    cases hmem
  · obtain ⟨id, hid⟩ := Option.isSome_iff_exists.mp hpoll
    obtain ⟨slot, hflies⟩ := harmed.flies id hid
    obtain ⟨fd, w', hfd, hw', hid'⟩ := honly id slot hflies.get hflies.inFlight
    obtain ⟨slot', hflies'⟩ := (hsound.armed fd w' hw').flies id hid'
    have hsame := hflies'.socket
    rw [hflies'.toPolling.unique hflies.toPolling, hflies.socket] at hsame
    exact hother (by rw [hsame, hfd])

theorem has_io_interest_reissued :
    backend.Along Fits reissued ∧ (backend.run reissued).hasIoInterest = true :=
  ⟨reissued_fits, (has_io_interest reissued reissued_fits).2 5 _ rfl (.inl rfl) rfl (by decide)⟩

end IocpWatch

end Cadeloop.Core
