import Cadeloop.Pyshim.WriteQueue

/-!
# Runs of the write queue

Every interleaving of writes, flushes, completions, limit changes and closes on one transport.  What
was sent and what is queued make up what was accepted, and the buffers of a post stay as they are
until its completion is in.
-/

namespace Cadeloop.Pyshim.Net

open Cadeloop.Reasoning

/-! ## 1. The buffers -/

def unsent (wq : List WriteBuf) : List UInt8 := wq.flatMap WriteBuf.unsent

theorem WriteBuf.remaining_eq (b : WriteBuf) : b.remaining = b.unsent.length := by
  cases b <;> exact (List.length_drop).symm

theorem WriteBuf.unsent_advance (n : Nat) (b : WriteBuf) :
    (b.advance n).unsent = b.unsent.drop n := by
  cases b <;> exact List.drop_drop.symm

theorem WriteBuf.slice_prefix (b : WriteBuf) : b.slice <+: b.unsent := List.take_prefix _ _

theorem WriteBuf.slice_length (b : WriteBuf) : b.slice.length = ioLen b.remaining := by
  have hle : ioLen b.remaining ≤ b.unsent.length := by
    rw [← b.remaining_eq]
    exact Nat.min_le_left _ _
  rw [WriteBuf.slice, List.length_take, Nat.min_eq_left hle]

theorem unsent_cons (b : WriteBuf) (wq : List WriteBuf) : unsent (b :: wq) = b.unsent ++ unsent wq :=
  rfl

theorem unsent_append (wq wq' : List WriteBuf) : unsent (wq ++ wq') = unsent wq ++ unsent wq' :=
  List.flatMap_append

/-- No buffer is queued empty. -/
def Full (wq : List WriteBuf) : Prop := ∀ b ∈ wq, 0 < b.remaining

theorem Full.append {wq wq' : List WriteBuf} (h : Full wq) (h' : Full wq') : Full (wq ++ wq') := by
  intro b hb
  rcases List.mem_append.mp hb with hb | hb
  · exact h b hb
  · exact h' b hb

theorem Full.of_prefix {wq wq' : List WriteBuf} (h : Full wq') (hpre : wq <+: wq') : Full wq :=
  fun b hb => h b (hpre.subset hb)

theorem Full.eq_nil {wq : List WriteBuf} (h : Full wq) (hnil : unsent wq = []) : wq = [] := by
  cases wq with
  | nil => rfl
  | cons front rest =>
    have hfront := h front List.mem_cons_self
    rw [front.remaining_eq] at hfront
    rw [unsent_cons, List.append_eq_nil_iff] at hnil
    rw [hnil.1] at hfront
    exact absurd hfront (Nat.lt_irrefl 0)

/-- A completion's pops and its advance drop that many bytes off the front. -/
theorem unsent_consume (n : Nat) (wq : List WriteBuf) :
    unsent (consume n wq) = (unsent wq).drop n := by
  induction wq generalizing n with
  | nil => exact List.drop_nil.symm
  | cons front rest ih =>
    rw [consume]
    by_cases hzero : n = 0
    · rw [if_pos hzero, hzero, List.drop_zero]
    rw [if_neg hzero]
    have hlen := front.remaining_eq
    by_cases hpop : n ≥ front.remaining
    · have hgone : front.unsent.drop n = [] := List.drop_eq_nil_of_le (by omega)
      rw [if_pos hpop, ih, unsent_cons, List.drop_append, hgone, ← hlen]
      rfl
    · rw [if_neg hpop, unsent_cons, unsent_cons, WriteBuf.unsent_advance,
        List.drop_append_of_le_length (by omega)]

theorem consume_full {n : Nat} {wq : List WriteBuf} (h : Full wq) : Full (consume n wq) := by
  induction wq generalizing n with
  | nil => exact h
  | cons front rest ih =>
    rw [consume]
    have hrest := fun b hb => h b (List.mem_cons_of_mem _ hb)
    split
    · exact h
    split
    · exact ih hrest
    · rename_i hpop
      intro b hb
      rcases List.mem_cons.mp hb with rfl | hb
      · have hlen := front.remaining_eq
        rw [WriteBuf.remaining_eq, WriteBuf.unsent_advance, List.length_drop]
        omega
      · exact hrest b hb

/-! ## 2. A post -/

theorem gather_initial (n total : Nat) (wq : List WriteBuf) : gather n total wq <+: wq := by
  induction wq generalizing n total with
  | nil => exact List.prefix_refl _
  | cons buf rest ih =>
    rw [gather]
    split
    · exact List.nil_prefix
    · exact List.prefix_cons_inj buf |>.mpr (ih _ _)

theorem gather_bounds (n total : Nat) (wq : List WriteBuf) (hn : n ≤ 16) :
    n + (gather n total wq).length ≤ 16 ∧
      (0 < n → total ≤ maxSendBytes →
        total + ((gather n total wq).flatMap WriteBuf.slice).length ≤ maxSendBytes) := by
  induction wq generalizing n total with
  | nil => exact ⟨hn, fun _ h => h⟩
  | cons buf rest ih =>
    rw [gather]
    split
    · exact ⟨hn, fun _ h => h⟩
    · rename_i hnot
      obtain ⟨hcount, hbytes⟩ := ih (n + 1) (total + buf.slice.length) (by omega)
      refine ⟨?_, fun hpos _ => ?_⟩
      · rw [List.length_cons]
        omega
      · have hb := hbytes (by omega) (by omega)
        rw [List.flatMap_cons, List.length_append]
        omega

theorem WriteBuf.slice_eq {b : WriteBuf} (h : b.slice.length < maxSendBytes) :
    b.slice = b.unsent := by
  have hrem : b.remaining ≤ ioLen b.remaining := by
    rw [b.slice_length] at h
    unfold ioLen at *
    omega
  rw [WriteBuf.slice, List.take_of_length_le]
  rw [← b.remaining_eq]
  exact hrem

theorem WriteBuf.slice_pos {b : WriteBuf} (h : 0 < b.remaining) : 0 < b.slice.length := by
  rw [b.slice_length]
  unfold ioLen maxSendBytes
  omega

/-- Behind another buffer none is cut short. -/
theorem gather_whole {n total : Nat} {wq : List WriteBuf} (hn : 0 < n) (ht : 0 < total) :
    (gather n total wq).flatMap WriteBuf.slice = unsent (gather n total wq) := by
  induction wq generalizing n total with
  | nil => rfl
  | cons buf rest ih =>
    rw [gather]
    split
    · rfl
    · have hslice : buf.slice = buf.unsent := WriteBuf.slice_eq (by omega)
      rw [List.flatMap_cons, unsent_cons, hslice, ih (by omega) (by omega)]

theorem gather_full {n : Nat} {wq : List WriteBuf} (hn : 0 < n) (hfull : Full wq) :
    gather n maxSendBytes wq = [] := by
  cases wq with
  | nil => rfl
  | cons buf rest =>
    have hbuf := WriteBuf.slice_pos (hfull buf List.mem_cons_self)
    rw [gather, if_pos (.inr ⟨hn, by omega⟩)]

/-- What the backend is handed: sixteen buffers at most, and `MAX_SEND_BYTES` unless it is one
single buffer. -/
structure Post (posted : List WriteBuf) : Prop where
  buffers : 1 ≤ posted.length ∧ posted.length ≤ 16
  bytes : posted.length = 1 ∨ (posted.flatMap WriteBuf.slice).length ≤ maxSendBytes
  full : Full posted
  contiguous : posted.flatMap WriteBuf.slice <+: unsent posted

theorem Post.pos {posted : List WriteBuf} (h : Post posted) :
    0 < (posted.flatMap WriteBuf.slice).length := by
  cases posted with
  | nil => exact absurd h.buffers.1 (Nat.not_succ_le_zero 0)
  | cons buf rest =>
    have hbuf := WriteBuf.slice_pos (h.full buf List.mem_cons_self)
    rw [List.flatMap_cons, List.length_append]
    omega

theorem gather_cons (buf : WriteBuf) (rest : List WriteBuf) :
    gather 0 0 (buf :: rest) = buf :: gather 1 buf.slice.length rest := by
  rw [gather, if_neg (by omega), Nat.zero_add, Nat.zero_add]

theorem gather_contiguous {wq : List WriteBuf} (hfull : Full wq) :
    (gather 0 0 wq).flatMap WriteBuf.slice <+: unsent (gather 0 0 wq) := by
  cases wq with
  | nil => exact List.prefix_refl _
  | cons buf rest =>
    have hle : buf.slice.length ≤ maxSendBytes := by
      rw [buf.slice_length]
      exact Nat.min_le_right _ _
    rw [gather_cons, List.flatMap_cons, unsent_cons]
    by_cases hcut : buf.slice.length < maxSendBytes
    · have hpos := WriteBuf.slice_pos (hfull buf List.mem_cons_self)
      rw [WriteBuf.slice_eq hcut, gather_whole Nat.one_pos (by rw [← WriteBuf.slice_eq hcut]; exact hpos)]
    · have hrest : Full rest := fun b hb => hfull b (List.mem_cons_of_mem _ hb)
      rw [show buf.slice.length = maxSendBytes by omega, gather_full Nat.one_pos hrest]
      exact (List.append_nil _).symm ▸ (buf.slice_prefix.trans (List.prefix_append _ _))

theorem gather_post {wq : List WriteBuf} (hfull : Full wq) (h : wq ≠ []) :
    Post (gather 0 0 wq) := by
  refine ⟨?_, ?_, hfull.of_prefix (gather_initial 0 0 wq), gather_contiguous hfull⟩
  · cases wq with
    | nil => exact absurd rfl h
    | cons buf rest =>
      have hcount := (gather_bounds 1 buf.slice.length rest (by omega)).1
      rw [gather_cons, List.length_cons]
      omega
  · cases wq with
    | nil => exact absurd rfl h
    | cons buf rest =>
      have hslice : buf.slice.length ≤ maxSendBytes := by
        rw [buf.slice_length]
        exact Nat.min_le_right _ _
      rw [gather_cons, List.flatMap_cons, List.length_append]
      exact .inr ((gather_bounds 1 _ rest (by omega)).2 Nat.one_pos hslice)

/-! ## 3. Queueing -/

/-- The bytes went behind what was queued, and the buffers in flight stayed as they were. -/
structure Grown (entry : TransportEntry) (data : List UInt8) (wq : List WriteBuf) : Prop where
  unsent : unsent wq = unsent entry.wq ++ data
  inflight : wq.take entry.inflight = entry.wq.take entry.inflight
  full : Full wq

theorem coalesceTail_grown {entry entry' : TransportEntry} {data : List UInt8}
    (hfull : Full entry.wq) (h : coalesceTail entry data = some entry') :
    Grown entry data entry'.wq ∧ entry' = { entry with wq := entry'.wq } := by
  unfold coalesceTail at h
  split at h
  · exact absurd h (by simp)
  rename_i hnot
  split at h
  · rename_i tail off hlast
    split at h
    · injection h with h
      rw [← h]
      have hwq : entry.wq.dropLast ++ [.owned tail off] = entry.wq :=
        List.dropLast_append_getLast? _ hlast
      have hlen : entry.wq.length = entry.wq.dropLast.length + 1 := by
        rw [← hwq, List.length_append]
        simp
      have hpos : 0 < tail.length - off := hfull (.owned tail off) (by rw [← hwq]; simp)
      have hinit : Full entry.wq.dropLast := fun b hb => hfull b (List.dropLast_subset _ hb)
      refine ⟨⟨?_, ?_, hinit.append ?_⟩, rfl⟩
      · have hdrop : (tail ++ data).drop off = tail.drop off ++ data :=
          List.drop_append_of_le_length (by omega)
        calc unsent (entry.wq.dropLast ++ [.owned (tail ++ data) off])
            = unsent entry.wq.dropLast ++ (tail.drop off ++ data) := by
              rw [unsent_append, ← hdrop]; simp [unsent, WriteBuf.unsent]
          _ = unsent (entry.wq.dropLast ++ [.owned tail off]) ++ data := by
              rw [unsent_append]; simp [unsent, WriteBuf.unsent]
          _ = unsent entry.wq ++ data := by rw [hwq]
      · have hle : entry.inflight ≤ entry.wq.dropLast.length := by omega
        show (entry.wq.dropLast ++ [_]).take entry.inflight = _
        rw [List.take_append_of_le_length hle]
        conv_rhs => rw [← hwq, List.take_append_of_le_length hle]
      · intro b hb
        rw [List.mem_singleton.mp hb]
        show 0 < (tail ++ data).length - off
        rw [List.length_append]
        omega
    · exact absurd h (by simp)
  · exact absurd h (by simp)

theorem push_grown {entry : TransportEntry} (buf : WriteBuf) (hfull : Full entry.wq)
    (hle : entry.inflight ≤ entry.wq.length) (hbuf : 0 < buf.remaining) :
    Grown entry buf.unsent (entry.wq ++ [buf]) := by
  refine ⟨?_, List.take_append_of_le_length hle, hfull.append ?_⟩
  · rw [unsent_append]
    simp [unsent]
  · intro b hb
    rw [List.mem_singleton.mp hb]
    exact hbuf

theorem queueOwned_grown (entry : TransportEntry) {data : List UInt8} (hfull : Full entry.wq)
    (hle : entry.inflight ≤ entry.wq.length) (hdata : data ≠ []) :
    Grown entry data (entry.queueOwned data).wq ∧
      entry.queueOwned data = { entry with wq := (entry.queueOwned data).wq } := by
  unfold TransportEntry.queueOwned
  cases h : coalesceTail entry data with
  | some entry' => exact coalesceTail_grown hfull h
  | none => exact ⟨push_grown (.owned data 0) hfull hle (List.length_pos_of_ne_nil hdata), rfl⟩

theorem queue_grown {entry : TransportEntry} {data : List UInt8} (exact' : Bool)
    (hfull : Full entry.wq) (hle : entry.inflight ≤ entry.wq.length) (hdata : data ≠ []) :
    Grown entry data (entry.queue (.of exact' data)).wq ∧
      entry.queue (.of exact' data) =
        { entry with
          wq := (entry.queue (.of exact' data)).wq
          queuedBytes := entry.queuedBytes + data.length } := by
  have howned : ∀ q, (q = .small data ∨ q = .buf (.owned data 0)) →
      Grown entry data (entry.queue q).wq ∧
        entry.queue q =
          { entry with wq := (entry.queue q).wq, queuedBytes := entry.queuedBytes + data.length } := by
    have h := queueOwned_grown { entry with queuedBytes := entry.queuedBytes + data.length }
      hfull hle hdata
    rintro q (rfl | rfl)
    · exact ⟨⟨h.1.unsent, h.1.inflight, h.1.full⟩, h.2⟩
    · exact ⟨⟨h.1.unsent, h.1.inflight, h.1.full⟩, h.2⟩
  unfold Queued.of
  split
  · split
    · exact howned _ (.inl rfl)
    · exact ⟨push_grown (.bytes data 0) hfull hle (List.length_pos_of_ne_nil hdata), rfl⟩
  · exact howned _ (.inr rfl)

/-! ## 4. What every operation keeps -/

/-- A transport that lives, against the record of its run. -/
structure Sound (http : Bool) (net : NetState) (entry : TransportEntry) : Prop where
  kind : entry.http = http
  account : net.sent ++ unsent entry.wq = net.accepted
  queued : entry.queuedBytes = (unsent entry.wq).length
  full : Full entry.wq
  idle : entry.sendOp = none → entry.inflight = 0
  posted : entry.sendOp.isSome → entry.wq.take entry.inflight = net.posted ∧
    net.posted.length = entry.inflight ∧ Post net.posted
  eof : entry.eofWanted → http = false ∧ net.eof
  lingering : entry.lingering → http ∧ entry.closing
  shut : entry.eofSent → entry.wq = [] ∧ entry.sendOp = none ∧
    (entry.eofWanted ∨ http ∧ entry.closing)
  deadline : entry.lingerUntilNs ≠ 0 → entry.eofSent
  running : net.ending = none

variable {http : Bool} {backend : Backend}

theorem Sound.inflight_le {net : NetState} {entry : TransportEntry} (h : Sound http net entry) :
    entry.inflight ≤ entry.wq.length := by
  cases hop : entry.sendOp with
  | none =>
    rw [h.idle hop]
    exact Nat.zero_le _
  | some op =>
    obtain ⟨htake, hlen, -⟩ := h.posted (by rw [hop]; rfl)
    rw [← hlen, ← htake]
    exact (List.take_prefix _ _).length_le

structure Core (http : Bool) (net : NetState) : Prop where
  posts : ∀ posted ∈ net.posts, Post posted
  alive : ∀ entry, net.entry = some entry → Sound http net entry
  gone : net.entry = none →
    net.sent <+: net.accepted ∧ (net.ending = some .closed → net.sent = net.accepted)

theorem Core.of_alive {net : NetState} {entry : TransportEntry}
    (hposts : ∀ posted ∈ net.posts, Post posted) (he : net.entry = some entry)
    (h : Sound http net entry) : Core http net where
  posts := hposts
  alive := by
    intro entry' he'
    rw [he] at he'
    injection he' with he'
    exact he' ▸ h
  gone := fun hnone => absurd (he.symm.trans hnone) (by simp)

/-- The clock, the flags and the lists outside the entry are not part of it. -/
theorem Core.congr {net net' : NetState} (h : Core http net) (hentry : net'.entry = net.entry)
    (hrecord : net'.accepted = net.accepted ∧ net'.sent = net.sent ∧ net'.posts = net.posts)
    (hend : net'.ending = net.ending ∧ net'.eof = net.eof) : Core http net' := by
  obtain ⟨haccepted, hsent, hposts⟩ := hrecord
  obtain ⟨hending, heof⟩ := hend
  refine ⟨by rw [hposts]; exact h.posts, fun entry he => ?_, fun hnone => ?_⟩
  · have hs := h.alive entry (hentry.symm.trans he)
    exact { hs with
      account := by rw [hsent, haccepted]; exact hs.account
      posted := by rw [NetState.posted, hposts]; exact hs.posted
      eof := by rw [heof]; exact hs.eof
      running := by rw [hending]; exact hs.running }
  · rw [hsent, haccepted, hending]
    exact h.gone (hentry.symm.trans hnone)

theorem teardown_core {net : NetState} {ending : Ending} (h : Core http net)
    (hclean : ending = .closed → ∀ entry, net.entry = some entry → entry.wq = []) :
    Core http (teardown net ending) := by
  unfold teardown
  cases he : net.entry with
  | none => exact h
  | some entry =>
    have haccount := (h.alive entry he).account
    refine ⟨h.posts, fun _ hsome => absurd hsome (by simp), fun _ => ⟨⟨_, haccount⟩, fun hend => ?_⟩⟩
    injection hend with hend
    rw [hclean hend entry he, unsent, List.flatMap_nil, List.append_nil] at haccount
    exact haccount

theorem maybeFinishShutdown_core {net : NetState} (h : Core http net) :
    Core http (maybeFinishShutdown net) := by
  unfold maybeFinishShutdown
  cases he : net.entry with
  | none => exact h
  | some entry =>
    have hs := h.alive entry he
    dsimp only
    split
    · exact h
    rename_i hdrained
    have hop : entry.sendOp = none := by
      cases hop : entry.sendOp with
      | none => rfl
      | some op => exact absurd (.inl (by rw [hop]; rfl)) hdrained
    have hwq : entry.wq = [] := by
      by_contra hwq
      exact hdrained (.inr hwq)
    have hs' : Sound http net (if entry.eofWanted then { entry with eofSent := true } else entry) := by
      split
      · rename_i hwanted
        exact { hs with
          shut := fun _ => ⟨hwq, hop, .inl hwanted⟩
          deadline := fun _ => rfl }
      · exact hs
    have hwq' : (if entry.eofWanted then { entry with eofSent := true } else entry).wq = [] := by
      split <;> exact hwq
    have hop' : (if entry.eofWanted then { entry with eofSent := true } else entry).sendOp = none := by
      split <;> exact hop
    generalize (if entry.eofWanted then { entry with eofSent := true } else entry) = entry'
      at hs' hwq' hop' ⊢
    split
    · exact Core.of_alive h.posts rfl { hs' with }
    rename_i hclosing
    split
    · rename_i hlinger
      split
      · exact Core.of_alive h.posts rfl { hs' with
          shut := fun _ => ⟨hwq', hop', .inr (hs'.lingering hlinger)⟩
          deadline := fun _ => rfl }
      · exact Core.of_alive h.posts rfl { hs' with }
    · refine teardown_core h fun _ entry₀ he₀ => ?_
      rw [he] at he₀
      injection he₀ with he₀
      exact he₀ ▸ hwq

theorem flushPending_core {net : NetState} (h : Core http net) : Core http (flushPending backend net) := by
  unfold flushPending
  cases he : net.entry with
  | none => exact h
  | some entry =>
    have hs := h.alive entry he
    have hs' : Sound http net { entry with flushScheduled := false } := { hs with }
    dsimp only
    split
    · exact Core.of_alive h.posts rfl { hs' with }
    rename_i hnone
    have hop : entry.sendOp = none := by simpa using hnone
    split
    · exact maybeFinishShutdown_core (Core.of_alive h.posts rfl { hs' with })
    rename_i hwq
    have hpost := gather_post hs.full hwq
    have hposts : ∀ posted ∈ gather 0 0 entry.wq :: net.posts, Post posted := by
      intro posted hmem
      rcases List.mem_cons.mp hmem with rfl | hmem
      · exact hpost
      · exact h.posts posted hmem
    have hshut : entry.eofSent ≠ true := fun heof => hwq (hs.shut heof).1
    split
    · refine Core.of_alive hposts rfl { hs' with
        idle := fun hsome => absurd hsome (by simp)
        posted := fun _ => ⟨(List.prefix_iff_eq_take.mp (gather_initial 0 0 entry.wq)).symm, rfl, hpost⟩
        shut := fun heof => absurd heof hshut }
    · refine teardown_core (Core.of_alive hposts rfl { hs' with
        posted := fun hsome => absurd hsome hnone }) (fun hclosed => absurd hclosed (by simp))

theorem onSendDone_core {net : NetState} (h : Core http net) : Core http (onSendDone backend net) := by
  unfold onSendDone
  cases he : net.entry with
  | none => exact h
  | some entry =>
    have hs := h.alive entry he
    dsimp only
    cases hop : entry.sendOp with
    | none => exact h
    | some op =>
      obtain ⟨htake, hlen, hpost⟩ := hs.posted (by rw [hop]; rfl)
      have hshut : entry.eofSent ≠ true := fun heof => by
        rw [(hs.shut heof).2.1] at hop
        exact absurd hop (by simp)
      dsimp only
      cases hreport : backend.reports op (net.posted.flatMap WriteBuf.slice).length with
      | none =>
        refine teardown_core (Core.of_alive h.posts rfl { hs with
          idle := fun _ => rfl
          posted := fun hsome => absurd hsome (by simp)
          shut := fun heof => absurd heof hshut }) (fun hclosed => absurd hclosed (by simp))
      | some bytes =>
        obtain ⟨-, hle⟩ := backend.count op _ bytes hpost.pos hreport
        -- what the kernel was pointed at is the front of the queue still
        have hfront : net.posted.flatMap WriteBuf.slice <+: unsent entry.wq := by
          have hposted : unsent net.posted <+: unsent entry.wq := by
            rw [← htake]
            conv_rhs => rw [← List.take_append_drop entry.inflight entry.wq, unsent_append]
            exact List.prefix_append _ _
          exact hpost.contiguous.trans hposted
        have hsent : (net.posted.flatMap WriteBuf.slice).take bytes = (unsent entry.wq).take bytes := by
          obtain ⟨rest, hrest⟩ := hfront
          rw [← hrest, List.take_append_of_le_length hle]
        have hbytes : bytes ≤ (unsent entry.wq).length := hle.trans hfront.length_le
        have haccount : (net.sent ++ (net.posted.flatMap WriteBuf.slice).take bytes) ++
            unsent (consume bytes entry.wq) = net.accepted := by
          rw [hsent, unsent_consume, List.append_assoc, List.take_append_drop, hs.account]
        have hqueued : entry.queuedBytes - min bytes entry.queuedBytes =
            (unsent (consume bytes entry.wq)).length := by
          rw [unsent_consume, List.length_drop, hs.queued]
          omega
        have hretired : Core http { net with
            entry := some (entry.retire bytes)
            sent := net.sent ++ (net.posted.flatMap WriteBuf.slice).take bytes
            resumeWriting := net.resumeWriting +
              (entry.protoPaused && !(entry.retire bytes).protoPaused && !entry.http).toNat } :=
          Core.of_alive h.posts rfl { hs with
            account := haccount
            queued := hqueued
            full := consume_full hs.full
            idle := fun _ => rfl
            posted := fun hsome => absurd hsome (by simp [TransportEntry.retire])
            shut := fun heof => absurd heof hshut }
        dsimp only
        split
        · exact flushPending_core hretired
        split
        · exact hretired
        · exact maybeFinishShutdown_core hretired

theorem settleInline_core {net : NetState} (staged : Nat) (h : Core http net) :
    Core http (settleInline backend staged net) := by
  induction staged generalizing net with
  | zero => exact h
  | succ staged ih => exact ih (onSendDone_core h)

theorem maybePause_core {net : NetState} (staged : Nat) (h : Core http net) :
    Core http (maybePause backend staged net) := by
  unfold maybePause
  cases he : net.entry with
  | none => exact h
  | some entry =>
    dsimp only
    split
    · exact h
    have hflushed : Core http (if entry.sendOp.isNone then flushPending backend net else net) := by
      split
      · exact flushPending_core h
      · exact h
    have hsettled : Core http (settleInline backend (min staged settleRounds) _) :=
      settleInline_core _ hflushed
    generalize settleInline backend (min staged settleRounds)
      (if entry.sendOp.isNone then flushPending backend net else net) = net' at hsettled ⊢
    cases he' : net'.entry with
    | none => exact hsettled
    | some entry' =>
      have hs' := hsettled.alive entry' he'
      dsimp only
      split
      · exact hsettled
      · exact Core.of_alive hsettled.posts rfl { hs' with }

theorem afterQueue_core {net : NetState} (early : Bool) (h : Core http net) :
    Core http (afterQueue backend early net) := by
  unfold afterQueue
  cases he : net.entry with
  | none => exact h
  | some entry =>
    have hs := h.alive entry he
    dsimp only
    split
    · exact h
    split
    · exact flushPending_core h
    split
    · exact h
    · exact Core.of_alive h.posts rfl { hs with }

/-- Bytes that go behind what is queued, on a transport whose send side is open. -/
theorem Grown.core {net : NetState} {entry : TransportEntry} {data : List UInt8}
    {wq : List WriteBuf} (h : Core http net) (he : net.entry = some entry) (hopen : entry.eofSent ≠ true)
    (hgrown : Grown entry data wq) :
    Core http { net with
      entry := some { entry with wq := wq, queuedBytes := entry.queuedBytes + data.length }
      accepted := net.accepted ++ data } := by
  have hs := h.alive entry he
  refine Core.of_alive h.posts rfl { hs with
    account := ?_
    queued := ?_
    full := hgrown.full
    posted := fun hsome => ?_
    shut := fun heof => absurd heof hopen }
  · rw [hgrown.unsent, ← List.append_assoc, hs.account]
  · rw [hgrown.unsent, List.length_append, hs.queued]
  · obtain ⟨htake, hlen, hpost⟩ := hs.posted hsome
    exact ⟨hgrown.inflight.trans htake, hlen, hpost⟩

theorem write_core {net : NetState} (exact' : Bool) (data : List UInt8) (staged : Nat)
    (h : Core false net) : Core false (write backend exact' data staged net) := by
  unfold write
  split
  · exact h
  rename_i hopen
  cases he : net.entry with
  | none => exact h
  | some entry =>
    have hs := h.alive entry he
    have heof : entry.eofSent ≠ true := fun heof => by
      rcases (hs.shut heof).2.2 with hwanted | ⟨hhttp, -⟩
      · exact hopen (.inl (hs.eof hwanted).2)
      · exact absurd hhttp (by simp)
    obtain ⟨hgrown, hentry⟩ := queue_grown exact' hs.full hs.inflight_le
      (fun hnil => hopen (.inr (.inr hnil)))
    dsimp only
    rw [hentry]
    exact maybePause_core staged (afterQueue_core false (hgrown.core h he heof))

theorem httpEnqueueRaw_core {net : NetState} (data : List UInt8) (h : Core true net) :
    Core true (httpEnqueueRaw backend data net) := by
  unfold httpEnqueueRaw
  split
  · exact h
  rename_i hdata
  cases he : net.entry with
  | none => exact h
  | some entry =>
    have hs := h.alive entry he
    dsimp only
    split
    · exact h
    rename_i hclosing
    have heof : entry.eofSent ≠ true := fun heof => by
      rcases (hs.shut heof).2.2 with hwanted | ⟨-, hclose⟩
      · exact absurd (hs.eof hwanted).1 (by simp)
      · exact hclosing hclose
    have hgrown := (queueOwned_grown { entry with queuedBytes := entry.queuedBytes + data.length }
      hs.full hs.inflight_le hdata)
    rw [hgrown.2]
    exact afterQueue_core _
      (Grown.core h he heof ⟨hgrown.1.unsent, hgrown.1.inflight, hgrown.1.full⟩)

theorem writelines_core {net : NetState} (items : List (Bool × List UInt8 × Nat))
    (h : Core false net) : Core false (writelines backend items net) := by
  unfold writelines
  induction items generalizing net with
  | nil => exact h
  | cons item items ih => exact ih (write_core item.1 item.2.1 item.2.2 h)

theorem flushCorked_core {net : NetState} (h : Core http net) :
    Core http (flushCorked backend net) := by
  have hcleared : Core http { net with flushList := 0 } :=
    h.congr rfl ⟨rfl, rfl, rfl⟩ ⟨rfl, rfl⟩
  unfold flushCorked
  induction net.flushList with
  | zero => exact hcleared
  | succ n ih => exact flushPending_core ih

theorem setWriteBufferLimits_core {net : NetState} (high low staged : Nat) (h : Core http net) :
    Core http (setWriteBufferLimits backend high low staged net) := by
  unfold setWriteBufferLimits
  cases he : net.entry with
  | none => exact h
  | some entry =>
    have hs := h.alive entry he
    exact maybePause_core staged (Core.of_alive h.posts rfl { hs with })

theorem writeEof_core {net : NetState} (h : Core false net) : Core false (writeEof net) := by
  unfold writeEof
  cases he : net.entry with
  | none => exact h
  | some entry =>
    have hs := h.alive entry he
    dsimp only
    split
    · exact h
    · refine maybeFinishShutdown_core (Core.of_alive h.posts rfl { hs with
        eof := fun _ => ⟨rfl, rfl⟩
        shut := fun heof => ?_ })
      obtain ⟨hwq, hop, -⟩ := hs.shut heof
      exact ⟨hwq, hop, .inl rfl⟩

theorem sendCorked_core {net : NetState} (h : Core http net) :
    Core http (sendCorked backend net) := by
  unfold sendCorked
  cases he : net.entry with
  | none => exact h
  | some entry =>
    dsimp only
    split
    · exact h
    · exact flushPending_core h

/-- Marking a transport that `closing` decides nothing else about. -/
theorem closing_core {net : NetState} {entry : TransportEntry} (linger : Bool)
    (h : Core http net) (he : net.entry = some entry) (hlinger : linger → http) :
    Core http { net with entry := some { entry with closing := true, lingering := linger } } := by
  have hs := h.alive entry he
  refine Core.of_alive h.posts rfl { hs with
    lingering := fun hon => ⟨hlinger hon, rfl⟩
    shut := fun heof => ?_ }
  obtain ⟨hwq, hop, hwhy⟩ := hs.shut heof
  exact ⟨hwq, hop, hwhy.imp_right fun hhttp => ⟨hhttp.1, rfl⟩⟩

theorem close_core {net : NetState} (staged : Nat) (h : Core false net) :
    Core false (close backend staged net) := by
  unfold close
  cases he : net.entry with
  | none => exact h
  | some entry =>
    have hs := h.alive entry he
    have hlingering : entry.lingering = false := by
      by_contra hon
      exact absurd (hs.lingering (by simpa using hon)).1 (by simp)
    have hclosing := closing_core entry.lingering h he (by simp [hlingering])
    dsimp only
    split
    · exact h
    split
    · exact maybeFinishShutdown_core hclosing
    · exact maybeFinishShutdown_core (settleInline_core _ (sendCorked_core hclosing))

theorem abort_core {net : NetState} (h : Core http net) : Core http (abort backend net) :=
  teardown_core (sendCorked_core h) (fun hclosed => absurd hclosed (by simp))

theorem closeAfterWrite_core {net : NetState} (linger : Bool) (h : Core true net) :
    Core true (closeAfterWrite linger net) := by
  unfold closeAfterWrite
  cases he : net.entry with
  | none => exact h
  | some entry =>
    dsimp only
    split
    · exact h
    · exact maybeFinishShutdown_core (closing_core _ h he (fun _ => rfl))

theorem lingerDone_core {net : NetState} (h : Core http net) : Core http (lingerDone net) := by
  unfold lingerDone
  cases he : net.entry with
  | none => exact h
  | some entry =>
    have hs := h.alive entry he
    dsimp only
    split
    · exact maybeFinishShutdown_core (Core.of_alive h.posts rfl { hs with
        lingering := fun hon => absurd hon (by simp) })
    · exact h

theorem lingerExpired_core {net : NetState} (h : Core http net) : Core http (lingerExpired net) := by
  unfold lingerExpired
  cases he : net.entry with
  | none => exact h
  | some entry =>
    have hs := h.alive entry he
    dsimp only
    split
    · rename_i hlinger
      refine teardown_core h fun _ entry₀ he₀ => ?_
      rw [he] at he₀
      injection he₀ with he₀
      exact he₀ ▸ (hs.shut (hs.deadline hlinger.2.1)).1
    · exact h

theorem setProtocol_core {net : NetState} (h : Core http net) : Core http (setProtocol net) := by
  unfold setProtocol
  cases he : net.entry with
  | none => exact h
  | some entry => exact Core.of_alive h.posts rfl { h.alive entry he with }

theorem finishAfterResume_core {net : NetState} (h : Core http net) :
    Core http (finishAfterResume net) := by
  have hdispatched : Core http { net with resumeWriting := net.resumeWriting - 1 } :=
    h.congr rfl ⟨rfl, rfl, rfl⟩ ⟨rfl, rfl⟩
  unfold finishAfterResume
  dsimp only
  split
  · exact hdispatched
  split
  · exact maybeFinishShutdown_core hdispatched
  · exact hdispatched

/-- Only the transport's own kind of operation is carried out on it. -/
theorem on_elim {kind : Bool} {f : NetState → NetState} {net : NetState} {P : NetState → Prop}
    (hcore : Core http net) (h : P net) (hf : kind = http → P (f net)) : P (net.on kind f) := by
  unfold NetState.on
  split
  · rename_i hkind
    cases he : net.entry with
    | none =>
      rw [he] at hkind
      exact absurd hkind (by simp)
    | some entry =>
      refine hf ?_
      rw [he] at hkind
      rw [← (hcore.alive entry he).kind]
      have hkind' : entry.http = kind := by simpa using hkind
      exact hkind'.symm
  · exact h

theorem netStep_core {net : NetState} (op : NetOp) (h : Core http net) :
    Core http (netStep backend net op) := by
  cases op with
  | write exact' data staged => exact on_elim h h fun hkind => by subst hkind; exact write_core _ _ _ h
  | writelines items => exact on_elim h h fun hkind => by subst hkind; exact writelines_core _ h
  | setWriteBufferLimits high low staged =>
    exact on_elim h h fun _ => setWriteBufferLimits_core _ _ _ h
  | writeEof => exact on_elim h h fun hkind => by subst hkind; exact writeEof_core h
  | close staged => exact on_elim h h fun hkind => by subst hkind; exact close_core _ h
  | abort => exact on_elim h h fun _ => abort_core h
  | setProtocol => exact on_elim h h fun _ => setProtocol_core h
  | finishAfterResume => exact on_elim h h fun _ => finishAfterResume_core h
  | sendfile running =>
    have hset : Core http { net with sendfile := running } :=
      h.congr rfl ⟨rfl, rfl, rfl⟩ ⟨rfl, rfl⟩
    exact on_elim (f := fun net => { net with sendfile := running }) h h fun _ => hset
  | httpEnqueueRaw data =>
    exact on_elim h h fun hkind => by subst hkind; exact httpEnqueueRaw_core _ h
  | closeAfterWrite linger =>
    exact on_elim h h fun hkind => by subst hkind; exact closeAfterWrite_core _ h
  | lingerDone => exact on_elim h h fun _ => lingerDone_core h
  | lingerExpired => exact on_elim h h fun _ => lingerExpired_core h
  | flushCorked => exact flushCorked_core h
  | onSendDone => exact onSendDone_core h
  | settleInline staged => exact settleInline_core _ h
  | teardown => exact teardown_core h (fun hclosed => absurd hclosed (by simp))
  | tick nowNs flushImmediately =>
    exact h.congr rfl ⟨rfl, rfl, rfl⟩ ⟨rfl, rfl⟩

/-! ## 5. Nothing waits without a flush -/

/-- The transport is in `flush_list` when it says so, and it says so while nothing else would send
what is queued. -/
structure Corked (net : NetState) : Prop where
  listed : ∀ entry, net.entry = some entry → entry.flushScheduled → 0 < net.flushList
  waiting : ∀ entry, net.entry = some entry → entry.wq ≠ [] →
    entry.sendOp.isSome ∨ entry.flushScheduled

theorem Corked.of_none {net : NetState} (h : net.entry = none) : Corked net where
  listed := fun entry he => absurd (h.symm.trans he) (by simp)
  waiting := fun entry he => absurd (h.symm.trans he) (by simp)

theorem Corked.of_alive {net : NetState} {entry : TransportEntry} (he : net.entry = some entry)
    (hlisted : entry.flushScheduled → 0 < net.flushList)
    (hwaiting : entry.wq ≠ [] → entry.sendOp.isSome ∨ entry.flushScheduled) : Corked net where
  listed := by
    intro entry' he'
    rw [he] at he'
    injection he' with he'
    exact he' ▸ hlisted
  waiting := by
    intro entry' he'
    rw [he] at he'
    injection he' with he'
    exact he' ▸ hwaiting

theorem teardown_corked (net : NetState) (ending : Ending) : Corked (teardown net ending) := by
  unfold teardown
  cases he : net.entry with
  | none => exact .of_none he
  | some entry => exact .of_none rfl

theorem maybeFinishShutdown_corked {net : NetState} (h : Corked net) :
    Corked (maybeFinishShutdown net) := by
  unfold maybeFinishShutdown
  cases he : net.entry with
  | none => exact h
  | some entry =>
    have hlisted := h.listed entry he
    have hwaiting := h.waiting entry he
    dsimp only
    split
    · exact h
    have hlisted' : (if entry.eofWanted then { entry with eofSent := true } else entry).flushScheduled
        → 0 < net.flushList := by split <;> exact hlisted
    have hwaiting' : (if entry.eofWanted then { entry with eofSent := true } else entry).wq ≠ [] →
        (if entry.eofWanted then { entry with eofSent := true } else entry).sendOp.isSome ∨
        (if entry.eofWanted then { entry with eofSent := true } else entry).flushScheduled := by
      split <;> exact hwaiting
    generalize (if entry.eofWanted then { entry with eofSent := true } else entry) = entry'
      at hlisted' hwaiting' ⊢
    split
    · exact .of_alive rfl hlisted' hwaiting'
    split
    · split <;> exact .of_alive rfl hlisted' hwaiting'
    · exact teardown_corked net .closed

theorem flushPending_corked (net : NetState) : Corked (flushPending backend net) := by
  unfold flushPending
  cases he : net.entry with
  | none => exact .of_none he
  | some entry =>
    dsimp only
    split
    · rename_i hop
      exact .of_alive rfl (fun hon => absurd hon (by simp)) (fun _ => .inl hop)
    split
    · rename_i hwq
      exact maybeFinishShutdown_corked
        (.of_alive rfl (fun hon => absurd hon (by simp)) (fun hne => absurd hwq hne))
    split
    · exact .of_alive rfl (fun hon => absurd hon (by simp)) (fun _ => .inl rfl)
    · exact teardown_corked _ .failed

theorem onSendDone_corked {net : NetState} (h : Corked net) :
    Corked (onSendDone backend net) := by
  unfold onSendDone
  cases he : net.entry with
  | none => exact h
  | some entry =>
    have hlisted := h.listed entry he
    dsimp only
    split
    · exact h
    split
    · exact teardown_corked _ .failed
    split
    · exact flushPending_corked _
    rename_i hwq
    have hdrained : ∀ net', net'.entry = some (entry.retire ‹_›) → net'.flushList = net.flushList →
        Corked net' := by
      intro net' he' hlist
      refine .of_alive he' ?_ (fun hne => absurd hne hwq)
      rw [hlist]
      exact hlisted
    split
    · exact hdrained _ rfl rfl
    · exact maybeFinishShutdown_corked (hdrained _ rfl rfl)

theorem settleInline_corked {net : NetState} (staged : Nat) (h : Corked net) :
    Corked (settleInline backend staged net) := by
  induction staged generalizing net with
  | zero => exact h
  | succ staged ih => exact ih (onSendDone_corked h)

theorem maybePause_corked {net : NetState} (staged : Nat) (h : Corked net) :
    Corked (maybePause backend staged net) := by
  unfold maybePause
  cases he : net.entry with
  | none => exact h
  | some entry =>
    dsimp only
    split
    · exact h
    have hflushed : Corked (if entry.sendOp.isNone then flushPending backend net else net) := by
      split
      · exact flushPending_corked net
      · exact h
    have hsettled : Corked (settleInline backend (min staged settleRounds) _) :=
      settleInline_corked _ hflushed
    generalize settleInline backend (min staged settleRounds)
      (if entry.sendOp.isNone then flushPending backend net else net) = net' at hsettled ⊢
    cases he' : net'.entry with
    | none => exact hsettled
    | some entry' =>
      dsimp only
      split
      · exact hsettled
      · exact .of_alive rfl (hsettled.listed entry' he') (hsettled.waiting entry' he')

/-- Whatever is queued, the flush that follows leaves nothing waiting. -/
theorem afterQueue_corked {net : NetState} (early : Bool)
    (hlisted : ∀ entry, net.entry = some entry → entry.flushScheduled → 0 < net.flushList) :
    Corked (afterQueue backend early net) := by
  unfold afterQueue
  cases he : net.entry with
  | none => exact .of_none he
  | some entry =>
    dsimp only
    split
    · rename_i hop
      exact .of_alive he (hlisted entry he) (fun _ => .inl hop)
    split
    · exact flushPending_corked net
    split
    · rename_i hon
      exact .of_alive he (hlisted entry he) (fun _ => .inr hon)
    · exact .of_alive rfl (fun _ => Nat.succ_pos _) (fun _ => .inr rfl)

theorem write_corked {net : NetState} (exact' : Bool) (data : List UInt8) (staged : Nat)
    (hcore : Core false net) (h : Corked net) :
    Corked (write backend exact' data staged net) := by
  unfold write
  split
  · exact h
  rename_i hopen
  cases he : net.entry with
  | none => exact h
  | some entry =>
    have hs := hcore.alive entry he
    have hentry := (queue_grown exact' hs.full hs.inflight_le
      (fun hnil => hopen (.inr (.inr hnil)))).2
    refine maybePause_corked staged (afterQueue_corked false fun entry' he' => ?_)
    injection he' with he'
    rw [← he', hentry]
    exact h.listed entry he

theorem writelines_corked {net : NetState} (items : List (Bool × List UInt8 × Nat))
    (hcore : Core false net) (h : Corked net) : Corked (writelines backend items net) := by
  unfold writelines
  induction items generalizing net with
  | nil => exact h
  | cons item items ih => exact ih (write_core _ _ _ hcore) (write_corked _ _ _ hcore h)

theorem httpEnqueueRaw_corked {net : NetState} (data : List UInt8) (hcore : Core true net)
    (h : Corked net) : Corked (httpEnqueueRaw backend data net) := by
  unfold httpEnqueueRaw
  split
  · exact h
  rename_i hdata
  cases he : net.entry with
  | none => exact h
  | some entry =>
    have hs := hcore.alive entry he
    dsimp only
    split
    · exact h
    have hentry := (queueOwned_grown { entry with queuedBytes := entry.queuedBytes + data.length }
      hs.full hs.inflight_le hdata).2
    refine afterQueue_corked _ fun entry' he' => ?_
    injection he' with he'
    rw [← he', hentry]
    exact h.listed entry he

theorem flushCorked_corked {net : NetState} (h : Corked net) :
    Corked (flushCorked backend net) := by
  unfold flushCorked
  cases hlist : net.flushList with
  | zero =>
    exact ⟨fun entry he hon => (Nat.ne_of_gt (h.listed entry he hon) hlist).elim, h.waiting⟩
  | succ n => exact flushPending_corked _

theorem sendCorked_corked {net : NetState} (h : Corked net) :
    Corked (sendCorked backend net) := by
  unfold sendCorked
  split
  · exact h
  split
  · exact h
  · exact flushPending_corked net

/-- What an operation does to the entry's other fields leaves nothing waiting either. -/
theorem Corked.entry {net : NetState} {entry entry' : TransportEntry} (h : Corked net)
    (he : net.entry = some entry) (hwq : entry'.wq = entry.wq) (hop : entry'.sendOp = entry.sendOp)
    (hon : entry'.flushScheduled = entry.flushScheduled) :
    Corked { net with entry := some entry' } := by
  refine .of_alive rfl ?_ ?_
  · rw [hon]
    exact h.listed entry he
  · rw [hwq, hop, hon]
    exact h.waiting entry he

theorem netStep_corked {net : NetState} (op : NetOp) (hcore : Core http net) (h : Corked net) :
    Corked (netStep backend net op) := by
  cases op with
  | write exact' data staged =>
    exact on_elim hcore h fun hkind => by subst hkind; exact write_corked _ _ _ hcore h
  | writelines items =>
    exact on_elim hcore h fun hkind => by subst hkind; exact writelines_corked _ hcore h
  | setWriteBufferLimits high low staged =>
    refine on_elim hcore h fun _ => ?_
    unfold setWriteBufferLimits
    split
    · exact h
    · rename_i entry he
      exact maybePause_corked staged (h.entry he rfl rfl rfl)
  | writeEof =>
    refine on_elim hcore h fun _ => ?_
    unfold writeEof
    split
    · exact h
    rename_i entry he
    split
    · exact h
    · have hwanted : Corked { net with entry := some { entry with eofWanted := true } } :=
        h.entry he rfl rfl rfl
      exact maybeFinishShutdown_corked ⟨hwanted.listed, hwanted.waiting⟩
  | close staged =>
    refine on_elim hcore h fun _ => ?_
    unfold close
    split
    · exact h
    rename_i entry he
    split
    · exact h
    have hclosing : Corked { net with entry := some { entry with closing := true } } :=
      h.entry he rfl rfl rfl
    dsimp only
    split
    · exact maybeFinishShutdown_corked hclosing
    · exact maybeFinishShutdown_corked (settleInline_corked _ (sendCorked_corked hclosing))
  | abort => exact on_elim hcore h fun _ => teardown_corked _ .aborted
  | setProtocol =>
    refine on_elim hcore h fun _ => ?_
    unfold setProtocol
    split
    · exact h
    · rename_i entry he
      exact h.entry he rfl rfl rfl
  | finishAfterResume =>
    refine on_elim hcore h fun _ => ?_
    have hdispatched : Corked { net with resumeWriting := net.resumeWriting - 1 } :=
      ⟨h.listed, h.waiting⟩
    unfold finishAfterResume
    dsimp only
    split
    · exact hdispatched
    split
    · exact maybeFinishShutdown_corked hdispatched
    · exact hdispatched
  | sendfile running =>
    exact on_elim (f := fun net => { net with sendfile := running }) hcore h
      fun _ => ⟨h.listed, h.waiting⟩
  | httpEnqueueRaw data =>
    exact on_elim hcore h fun hkind => by subst hkind; exact httpEnqueueRaw_corked _ hcore h
  | closeAfterWrite linger =>
    refine on_elim hcore h fun _ => ?_
    unfold closeAfterWrite
    split
    · exact h
    rename_i entry he
    split
    · exact h
    · exact maybeFinishShutdown_corked (h.entry he rfl rfl rfl)
  | lingerDone =>
    refine on_elim hcore h fun _ => ?_
    unfold lingerDone
    split
    · exact h
    rename_i entry he
    split
    · exact maybeFinishShutdown_corked (h.entry he rfl rfl rfl)
    · exact h
  | lingerExpired =>
    refine on_elim hcore h fun _ => ?_
    unfold lingerExpired
    split
    · exact h
    split
    · exact teardown_corked _ .closed
    · exact h
  | flushCorked => exact flushCorked_corked h
  | onSendDone => exact onSendDone_corked h
  | settleInline staged => exact settleInline_corked _ h
  | teardown => exact teardown_corked _ .failed
  | tick nowNs flushImmediately => exact ⟨h.listed, h.waiting⟩

/-! ## 6. The queue of a stream transport -/

theorem stream_sound (backend : Backend) (http : Bool) (highWater lowWater : Nat)
    (ops : List NetOp) :
    let net := (stream backend http highWater lowWater).run ops
    Core http net ∧ Corked net := by
  refine (stream backend http highWater lowWater).run_invariant
    (I := fun net => Core http net ∧ Corked net) ⟨Core.of_alive ?_ rfl ?_, .of_alive rfl ?_ ?_⟩
    (fun net op h => ⟨netStep_core op h.1, netStep_corked op h.1 h.2⟩) ops
  · exact fun posted hmem => absurd hmem (by simp [stream, initNet])
  · exact {
      kind := rfl
      account := rfl
      queued := rfl
      full := fun b hb => absurd hb (by simp [newEntry])
      idle := fun _ => rfl
      posted := fun hsome => absurd hsome (by simp [newEntry])
      eof := fun hon => absurd hon (by simp [newEntry])
      lingering := fun hon => absurd hon (by simp [newEntry])
      shut := fun hon => absurd hon (by simp [newEntry])
      deadline := fun hne => absurd rfl hne
      running := rfl }
  · exact fun hon => absurd hon (by simp [newEntry])
  · exact fun hne => absurd rfl hne

/-- Whatever is written, flushed, reported and closed, and in whatever order: what completions
reported is a prefix of what was accepted, the queue holds the rest, the buffers of the post in
flight stay as they were posted, what waits will be flushed, every post is in bounds, and the send
side ends only behind the last byte. -/
theorem write_queue_faithful (backend : Backend) (http : Bool) (highWater lowWater : Nat)
    (ops : List NetOp) :
    let net := (stream backend http highWater lowWater).run ops
    net.sent <+: net.accepted ∧
      (∀ posted ∈ net.posts, posted.length ≤ 16 ∧
        (posted.length = 1 ∨ (posted.flatMap WriteBuf.slice).length ≤ maxSendBytes)) ∧
      (∀ entry, net.entry = some entry →
        net.sent ++ entry.wq.flatMap WriteBuf.unsent = net.accepted ∧
        entry.queuedBytes = (entry.wq.map WriteBuf.remaining).sum ∧
        (entry.sendOp.isSome → 0 < entry.inflight ∧ entry.wq.take entry.inflight = net.posted) ∧
        (entry.wq ≠ [] → entry.sendOp.isSome ∨ 0 < net.flushList) ∧
        (entry.eofSent → entry.wq = [] ∧ entry.sendOp = none)) ∧
      (net.entry = none → net.ending = some .closed → net.sent = net.accepted) := by
  intro net
  obtain ⟨hcore, hcorked⟩ := stream_sound backend http highWater lowWater ops
  refine ⟨?_, fun posted hmem => ?_, fun entry he => ?_, fun hnone => (hcore.gone hnone).2⟩
  · cases he : net.entry with
    | none => exact (hcore.gone he).1
    | some entry => exact ⟨_, (hcore.alive entry he).account⟩
  · have hpost := hcore.posts posted hmem
    exact ⟨hpost.buffers.2, hpost.bytes⟩
  · have hs := hcore.alive entry he
    refine ⟨hs.account, ?_, fun hop => ?_, fun hne => ?_, fun heof => ?_⟩
    · rw [hs.queued, unsent, List.length_flatMap]
      exact congrArg List.sum (List.map_congr_left fun b _ => b.remaining_eq.symm)
    · obtain ⟨htake, hlen, hpost⟩ := hs.posted hop
      rw [← hlen]
      exact ⟨hpost.buffers.1, hlen ▸ htake⟩
    · exact (hcorked.waiting entry he hne).imp_right (hcorked.listed entry he)
    · exact ⟨(hs.shut heof).1, (hs.shut heof).2.1⟩

end Cadeloop.Pyshim.Net
