import Cadeloop.Pyshim.WsDelivery
import Cadeloop.Pyshim.WsPause

/-!
# Runs of a WebSocket to its end

The steps of a connection whose application listens, and which messages it is given before it is told
of the disconnect.
-/

namespace Cadeloop.Pyshim.Http

open Core.Ws Cadeloop.Reasoning
open Net (Backend NetState TransportEntry)

variable {shut shut' : Prop} {ended : Bool} {r r' : Receiving}

/-! ## 1. The connection -/

section Connection

variable {backend : Backend} {headLen : Nat} {s s' : WsConn}

/-- Past the peer's EOF nothing more comes to the frame parser. -/
def WsConn.exhausted (s : WsConn) : Prop := s.tlsData = 0 ∧ (s.accepted = true ∨ s.trailing = [])

instance (s : WsConn) : Decidable s.exhausted := inferInstanceAs (Decidable (_ ∧ _))

def carries (ev : WsEvent) : Bool := (WsMsg.ofEvent ev).any fun msg => !msg.isDisconnect

def Receiving.Spent (r : Receiving) : Prop := ∀ m ∈ r.inbox, m.msg.isDisconnect = true

instance (r : Receiving) : Decidable r.Spent := inferInstanceAs (Decidable (∀ m ∈ r.inbox, _))

structure Delivering (shut : Prop) (s : WsConn) : Prop where
  served : Served shut s.rx.ended s.recv
  gone : s.net.entry = none ↔ s.recv.peer = .gone
  attentive : Attentive s.recv

theorem Delivering.mono (h : Delivering shut s) (himp : shut → shut') : Delivering shut' s :=
  { h with served := h.served.mono himp }

theorem Delivering.strict (h : Delivering shut s) (hmore : ¬ (s.recv.peer = .disconnected ∧ shut)) :
    Delivering False s :=
  { h with served := h.served.strict hmore }

theorem Delivering.alive (h : Delivering shut s) (hthere : s.net.entry ≠ none) :
    s.recv.peer ≠ .gone := mt h.gone.mpr hthere

theorem Outward.served (hout : Outward s s') (h : Served shut s.rx.ended s.recv)
    (hgone : s.net.entry = none ↔ s.recv.peer = .gone)
    (hspared : s'.net.entry = none → s.net.entry ≠ none → s.recv.Spent) :
    Served shut s'.rx.ended s'.recv ∧ (s'.net.entry = none ↔ s'.recv.peer = .gone) := by
  have hrx : s'.rx = s.rx := by rw [hout.rest]
  rw [hrx]
  rcases hout.recv with ⟨hrecv, hthere⟩ | ⟨hnone, hrecv⟩
  · rw [hrecv]
    exact ⟨h, ⟨fun hnone => hgone.mp (hthere hnone), fun hpeer => hout.gone (hgone.mpr hpeer)⟩⟩
  · rw [hrecv]
    refine ⟨tornDown_served h fun halive => hspared hnone (mt hgone.mp halive), ?_⟩
    exact ⟨fun _ => tornDown_peer _, fun _ => hnone⟩

theorem Outward.attentive (hout : Outward s s') (h : Attentive s.recv) : Attentive s'.recv := by
  rcases hout.recv with ⟨hrecv, -⟩ | ⟨-, hrecv⟩
  · exact hrecv ▸ h
  · exact hrecv ▸ tornDown_attentive h

theorem Outward.delivering (hout : Outward s s') (h : Delivering shut s)
    (hspared : s'.net.entry = none → s.net.entry ≠ none → s.recv.Spent) : Delivering shut s' :=
  have hserved := hout.served h.served h.gone hspared
  ⟨hserved.1, hserved.2, hout.attentive h.attentive⟩

theorem Outward.spent (hout : Outward s s') (h : s.recv.Spent) : s'.recv.Spent := by
  rcases hout.recv with ⟨hrecv, -⟩ | ⟨-, hrecv⟩
  · exact hrecv ▸ h
  · rw [hrecv]
    unfold tornDown
    split
    · exact h
    · exact fun m hm => absurd hm List.not_mem_nil

theorem Outward.exhausted (hout : Outward s s') (h : s.exhausted) : s'.exhausted := by
  rw [hout.rest]
  exact h

theorem wsSyncReadPause_gone (postOk : Bool) (hnone : s.net.entry = none) :
    (wsSyncReadPause postOk s).net.entry = none := by
  obtain ⟨inboxPaused, readingPaused, hsteady⟩ := wsSyncReadPause_steady postOk s
  exact hsteady.gone hnone

theorem wsSyncReadPause_delivering (postOk : Bool) (h : Delivering shut s)
    (hspared : (wsSyncReadPause postOk s).net.entry = none → s.net.entry ≠ none → s.recv.Spent) :
    Delivering shut (wsSyncReadPause postOk s) := by
  obtain ⟨inboxPaused, readingPaused, hsteady⟩ := wsSyncReadPause_steady postOk s
  exact hsteady.outward.delivering ⟨h.served, h.gone, h.attentive⟩ hspared

theorem foldl_pushEvent_spent {evs : List WsEvent} (hcarries : ∀ ev ∈ evs, carries ev = false)
    (h : r.Spent) : (evs.foldl pushEvent r).Spent := by
  induction evs generalizing r with
  | nil => exact h
  | cons ev evs ih =>
    refine ih (fun ev' hev' => hcarries ev' (List.mem_cons_of_mem _ hev')) ?_
    have hev := hcarries ev List.mem_cons_self
    unfold pushEvent
    split
    · exact h
    · rename_i msg hmsg
      intro m hm
      rcases List.mem_append.mp hm with hm | hm
      · exact h m hm
      · rw [List.mem_singleton.mp hm]
        simpa [carries, hmsg] using hev

theorem wsIngestAccepted_delivering (postOk : Bool) {data : Bytes} (hthere : s.net.entry ≠ none)
    (hparking : s.recv.parking = none) (h : Delivering False s)
    (hspared : (wsIngestAccepted backend postOk data s).net.entry = none →
      s.recv.Spent ∧ ∀ ev ∈ (s.rx.push data).1, carries ev = false) :
    Delivering False (wsIngestAccepted backend postOk data s) := by
  have harrived := arrive_attentive (s.rx.push data).1 hparking h.attentive
  have hserved := push_served s.rx data h.served (h.alive hthere)
  have hspent : s.recv.Spent ∧ (∀ ev ∈ (s.rx.push data).1, carries ev = false) →
      ((s.rx.push data).1.foldl pushEvent s.recv).Spent := fun hlost =>
    foldl_pushEvent_spent hlost.2 hlost.1
  have hpeer := foldl_pushEvent_peer (s.rx.push data).1 s.recv
  unfold wsIngestAccepted at hspared ⊢
  dsimp only at hspared ⊢
  generalize hpushed : { s with
      rx := (s.rx.push data).2
      closing := s.closing || (s.rx.push data).1.any WsEvent.last
      recv := (s.rx.push data).1.foldl pushEvent s.recv
      pushed := s.pushed ++ data } = s₁ at hspared ⊢
  have hrecv₁ : s₁.recv = (s.rx.push data).1.foldl pushEvent s.recv := by rw [← hpushed]
  have hserved₁ : Served False s₁.rx.ended s₁.recv := hpushed ▸ hserved
  have hgone₁ : s₁.net.entry = none ↔ s₁.recv.peer = .gone := by
    rw [← hpushed, hpeer]
    exact h.gone
  have hsteady := @answer_steady backend s₁ (replies s.closing (s.rx.push data).1)
    ((s.rx.push data).1.any WsEvent.last)
  generalize answer backend _ _ s₁ = s₂ at hsteady hspared ⊢
  generalize hwoken : (if wakes (s.rx.push data).1 = true then
    { s₂ with recv := wakeWaiters s₂.recv } else s₂) = s₃ at hspared ⊢
  have hnet₃ : s₃.net = s₂.net := by rw [← hwoken]; split <;> rfl
  have hrx₃ : s₃.rx = s₂.rx := by rw [← hwoken]; split <;> rfl
  have hinbox₃ : s₃.recv.inbox = s₂.recv.inbox := by rw [← hwoken]; split <;> rfl
  have hpeer₃ : s₃.recv.peer = s₂.recv.peer := by rw [← hwoken]; split <;> rfl
  have hlost : s₃.net.entry = none → s₁.recv.Spent := by
    intro hnone
    rw [hrecv₁]
    exact hspent (hspared (wsSyncReadPause_gone postOk hnone))
  obtain ⟨hserved₂, hgone₂⟩ := hsteady.outward.served hserved₁ hgone₁
    fun hnone _ => hlost (by rw [hnet₃]; exact hnone)
  refine wsSyncReadPause_delivering postOk ⟨?_, by rw [hnet₃, hpeer₃]; exact hgone₂, ?_⟩
    fun hnone hthere₃ => ?_
  · rw [hrx₃, ← hwoken]
    split
    · exact hserved₂.same rfl rfl rfl rfl id .inl
    · exact hserved₂
  · rcases hsteady.recv with ⟨hrecv₂, -⟩ | ⟨-, hrecv₂⟩
    · have heq : s₃.recv = arrive (s.rx.push data).1 s.recv := by
        unfold arrive
        dsimp only
        rw [← hwoken, ← hrecv₁, ← hrecv₂]
        split <;> rfl
      rw [heq]
      exact harrived
    · -- the frames owed went out, and the connection with them
      have hinbox₂ : s₂.recv.inbox = [] := by
        refine (hserved₂.lost ?_).1
        rw [hrecv₂]
        exact tornDown_peer _
      rw [hinbox₂] at hinbox₃
      exact ⟨fun hne => absurd hinbox₃ hne, fun _ => hinbox₃⟩
  · have hsame : s₂.recv = s₁.recv := by
      rcases hsteady.recv with ⟨hrecv₂, -⟩ | ⟨hnone₂, -⟩
      · exact hrecv₂
      · exact absurd (hnet₃ ▸ hnone₂) hthere₃
    intro m hm
    rw [hinbox₃, hsame, hrecv₁] at hm
    exact hspent (hspared hnone) m hm

theorem wsIngest_spent (postOk : Bool) {data : Bytes} (h : s.recv.Spent)
    (hcarries : s.accepted = true → ∀ ev ∈ (s.rx.push data).1, carries ev = false) :
    (wsIngest backend postOk data s).recv.Spent := by
  unfold wsIngest
  split
  · exact h
  split
  · split
    · have hrejected : Steady { s with trailing := [] } _ :=
        (@httpEnqueue_steady backend _
          (errorResponse 413 "payload too large" s.activeMinor)).trans httpCloseAfterWrite_steady
      exact hrejected.outward.spent h
    · exact h
  · rename_i haccepted
    have hpushed := foldl_pushEvent_spent (hcarries (by simpa using haccepted)) h
    unfold wsIngestAccepted
    dsimp only
    obtain ⟨inboxPaused, readingPaused, hsteady⟩ := wsSyncReadPause_steady postOk
      (if wakes (s.rx.push data).1 = true then _ else _)
    refine hsteady.outward.spent ?_
    show Receiving.Spent (if wakes (s.rx.push data).1 = true then _ else _ : WsConn).recv
    split
    all_goals exact (@answer_steady backend _ _ _).outward.spent hpushed

theorem httpIngest_spent (pause : Bool) (data : Bytes) (h : s.recv.Spent) :
    (httpIngest headLen pause data s).recv.Spent := by
  have hfed := connFeed_eq headLen data s
  unfold httpIngest
  generalize connFeed headLen data s = fed at hfed ⊢
  obtain ⟨oversize, s₁⟩ := fed
  dsimp only at hfed ⊢
  have hsame : s₁.recv.Spent := by
    rw [hfed]
    exact h
  split
  · exact teardown_steady.outward.spent hsame
  · exact hsame

theorem wsIngest_delivering (postOk : Bool) {data : Bytes} (hparking : s.recv.parking = none)
    (h : Delivering False s)
    (hspared : (wsIngest backend postOk data s).net.entry = none → s.net.entry ≠ none →
      s.recv.Spent ∧ (s.accepted = true → ∀ ev ∈ (s.rx.push data).1, carries ev = false)) :
    Delivering False (wsIngest backend postOk data s) := by
  unfold wsIngest at hspared ⊢
  split at hspared
  · rename_i hnone
    rw [if_pos hnone]
    exact h
  rename_i hthere
  have hthere' : s.net.entry ≠ none := by simpa using hthere
  rw [if_neg hthere]
  split at hspared
  · rename_i hnotyet
    rw [if_pos hnotyet]
    split at hspared
    · rename_i hover
      rw [if_pos hover]
      have hrejected : Steady { s with trailing := [] } _ :=
        (@httpEnqueue_steady backend _
          (errorResponse 413 "payload too large" s.activeMinor)).trans httpCloseAfterWrite_steady
      exact hrejected.outward.delivering ⟨h.served, h.gone, h.attentive⟩
        fun hnone hthere => (hspared hnone hthere).1
    · rename_i hunder
      rw [if_neg hunder]
      exact ⟨h.served, h.gone, h.attentive⟩
  · rename_i haccepted
    rw [if_neg haccepted]
    refine wsIngestAccepted_delivering postOk hthere' hparking h fun hnone => ?_
    obtain ⟨hspent, hcarries⟩ := hspared hnone hthere'
    exact ⟨hspent, hcarries (by simpa using haccepted)⟩

theorem httpIngest_delivering (pause : Bool) (data : Bytes) (h : Delivering False s)
    (hspared : (httpIngest headLen pause data s).net.entry = none → s.net.entry ≠ none →
      s.recv.Spent) : Delivering False (httpIngest headLen pause data s) := by
  have hfed := connFeed_eq headLen data s
  unfold httpIngest at hspared ⊢
  generalize connFeed headLen data s = fed at hfed hspared ⊢
  obtain ⟨oversize, s₁⟩ := fed
  dsimp only at hfed hspared ⊢
  generalize s₁.parser = parser, s₁.trailing = trailing at hfed
  subst hfed
  split at hspared
  · rename_i hover
    rw [if_pos hover]
    exact teardown_steady.outward.delivering ⟨h.served, h.gone, h.attentive⟩ hspared
  · rename_i hunder
    rw [if_neg hunder]
    exact ⟨h.served, h.gone, h.attentive⟩

theorem postRecv_delivering (ok : Bool) (h : Delivering shut s)
    (hspared : (postRecv ok s).net.entry = none → s.net.entry ≠ none → s.recv.Spent) :
    Delivering shut (postRecv ok s) :=
  (postRecv_steady ok).outward.delivering h hspared

theorem Outward.lasting (hout : Outward s s') (h : Delivering s.exhausted s)
    (hspared : s'.net.entry = none → s.net.entry ≠ none → s.recv.Spent) :
    Delivering s'.exhausted s' :=
  (hout.delivering h hspared).mono hout.exhausted

theorem onRecvDone_delivering {result : Option Bytes} (pause postOk : Bool)
    (hmay : s.may result = true) (hparking : s.recv.parking = none)
    (h : Delivering s.exhausted s)
    (hspared : (onRecvDone backend headLen result pause postOk s).net.entry = none →
      s.net.entry ≠ none → s.recv.Spent ∧
        (s.accepted = true → s.ws = true → s.tls = none → (s.net.entry.any fun e => !e.closing) →
          ∀ data, result = some data → ∀ ev ∈ (s.rx.push data).1, carries ev = false)) :
    Delivering (onRecvDone backend headLen result pause postOk s).exhausted
      (onRecvDone backend headLen result pause postOk s) := by
  unfold onRecvDone at hspared ⊢
  dsimp only at hspared ⊢
  cases he : s.net.entry with
  | none => exact ⟨h.served, h.gone, h.attentive⟩
  | some entry =>
    have hthere : s.net.entry ≠ none := by simp [he]
    rw [he] at hspared
    dsimp only at hspared ⊢
    generalize s.received ++ (if s.tls.isSome then [] else result.getD []) = received at hspared ⊢
    have hbase : Delivering s.exhausted { s with recvOp := false, received := received } :=
      ⟨h.served, h.gone, h.attentive⟩
    split at hspared
    · rename_i hlingering
      rw [if_pos hlingering]
      split at hspared
      · exact teardown_steady.outward.lasting hbase fun hnone _ => (hspared hnone (by simp)).1
      · exact (onNet_steady Net.lingerDone_grows).outward.lasting hbase
          fun hnone _ => (hspared hnone (by simp)).1
      · exact (postRecv_steady postOk).outward.lasting hbase
          fun hnone _ => (hspared hnone (by simp)).1
    rename_i hnotlingering
    rw [if_neg hnotlingering]
    split at hspared
    · rename_i hclosing
      rw [if_pos hclosing]
      exact hbase
    rename_i hunclosed
    rw [if_neg hunclosed]
    split at hspared
    · exact teardown_steady.outward.lasting hbase fun hnone _ => (hspared hnone (by simp)).1
    · refine ⟨peerGone_served h.served, ?_, peerGone_attentive h.attentive⟩
      show s.net.entry = none ↔ (peerGone s.recv).peer = .gone
      unfold peerGone
      split
      · exact ⟨fun hnone => absurd hnone hthere, fun hgone => absurd hgone (by simp)⟩
      · exact h.gone
    · rename_i data hdata
      -- bytes come only before the EOF
      have hhere : s.recv.peer = .here := by
        have hne : data ≠ [] := by rintro rfl; exact hdata rfl
        simpa [WsConn.may, hne] using hmay
      have hstrict : Delivering False { s with recvOp := false, received := received } :=
        hbase.strict fun ⟨hpeer, _⟩ => absurd (hhere.symm.trans hpeer) (by simp)
      split at hspared
      · rename_i htls
        rw [if_pos htls]
        exact (postRecv_delivering (s := { s with
          recvOp := false, received := received, tlsData := s.tlsData + 1 }) postOk
          ⟨hstrict.served, hstrict.gone, hstrict.attentive⟩
          fun hnone _ => (hspared hnone (by simp)).1).mono False.elim
      rename_i htls
      rw [if_neg htls]
      have hposted : ∀ s₁ : WsConn, Delivering False s₁ →
          ((postRecv postOk s₁).net.entry = none → s₁.recv.Spent) →
            Delivering (postRecv postOk s₁).exhausted (postRecv postOk s₁) := fun s₁ h₁ hlost =>
        (postRecv_delivering postOk h₁ fun hnone _ => hlost hnone).mono False.elim
      have hthen : ∀ s₁ : WsConn, s₁.net.entry = none → (postRecv postOk s₁).net.entry = none :=
        fun s₁ hnone => (postRecv_steady postOk).gone hnone
      split at hspared
      · rename_i hws
        rw [if_pos hws]
        have hlost : (postRecv postOk (wsIngest backend postOk data
            { s with recvOp := false, received := received })).net.entry = none →
            s.recv.Spent ∧ (s.accepted = true → ∀ ev ∈ (s.rx.push data).1, carries ev = false) := by
          intro hnone
          obtain ⟨hspent, hcarries⟩ := hspared hnone (by simp)
          exact ⟨hspent, fun haccepted => hcarries haccepted hws (by simpa using htls)
            (by simpa using hunclosed) data rfl⟩
        refine hposted _ (wsIngest_delivering postOk hparking hstrict fun hnone _ =>
          hlost (hthen _ hnone)) fun hnone => ?_
        exact wsIngest_spent postOk (hlost hnone).1 (hlost hnone).2
      · rename_i hws
        rw [if_neg hws]
        refine hposted _ (httpIngest_delivering pause data hstrict fun hnone _ =>
          (hspared (hthen _ hnone) (by simp)).1) fun hnone => ?_
        exact httpIngest_spent pause data (hspared hnone (by simp)).1

theorem tlsIngest_delivering {unsealed : Unsealed} {sealing : Sealed} (pause postOk : Bool)
    (hvalid : sealing.Valid s) (hparking : s.recv.parking = none) (h : Delivering False s)
    (hspared : (tlsIngest backend headLen unsealed sealing pause postOk s).net.entry = none →
      s.net.entry ≠ none → s.recv.Spent ∧ (s.accepted = true → s.ws = true →
        ∀ ev ∈ (s.rx.push unsealed.plaintext).1, carries ev = false)) :
    Delivering False (tlsIngest backend headLen unsealed sealing pause postOk s) := by
  obtain ⟨s₁, hsteady, ⟨heq, -⟩ | heq⟩ :=
    @tlsIngest_eq backend _ headLen unsealed sealing pause postOk hvalid
  · rw [heq]
    exact h
  have hrest := hsteady.rest
  rw [heq] at hspared ⊢
  by_cases hover : unsealed.plaintext = [] ∨ s₁.net.entry.isNone
  · rw [if_pos hover] at hspared ⊢
    exact hsteady.outward.delivering ⟨h.served, h.gone, h.attentive⟩
      fun hnone hthere => (hspared hnone hthere).1
  rw [if_neg hover] at hspared ⊢
  obtain ⟨entry₁, he₁⟩ : ∃ entry₁, s₁.net.entry = some entry₁ := by
    simpa [← Option.isSome_iff_exists, Option.isSome_iff_ne_none] using (not_or.mp hover).2
  obtain ⟨entry, he, -⟩ := hsteady.entry entry₁ he₁
  have hthere : s.net.entry ≠ none := by
    intro hnone
    exact absurd (hnone.symm.trans he) (by simp)
  have hsame : s₁.recv = s.recv := by
    rcases hsteady.recv with ⟨hrecv, -⟩ | ⟨hnone, -⟩
    · exact hrecv
    · exact absurd (hnone.symm.trans he₁) (by simp)
  have h₁ : Delivering False s₁ := hsteady.outward.delivering ⟨h.served, h.gone, h.attentive⟩
    fun hnone _ => absurd (hnone.symm.trans he₁) (by simp)
  split at hspared
  · rename_i hws
    rw [if_pos hws]
    refine wsIngest_delivering postOk (by rw [hsame]; exact hparking) h₁ fun hnone _ => ?_
    obtain ⟨hspent, hcarries⟩ := hspared hnone hthere
    rw [hsame, hrest]
    rw [hrest] at hws
    exact ⟨hspent, fun haccepted => hcarries haccepted hws⟩
  · rename_i hws
    rw [if_neg hws]
    refine httpIngest_delivering pause _ h₁ fun hnone _ => ?_
    rw [hsame]
    exact (hspared hnone hthere).1

theorem wsAccept_delivering (head : Bytes) (postOk : Bool) (hparking : s.recv.parking = none)
    (h : Delivering s.exhausted s)
    (hspared : (wsAccept backend head postOk s).net.entry = none → s.net.entry ≠ none →
      s.recv.Spent ∧ (s.accepted = false → ∀ ev ∈ (s.rx.push s.trailing).1, carries ev = false)) :
    Delivering (wsAccept backend head postOk s).exhausted (wsAccept backend head postOk s) := by
  have hsteady : Steady { s with accepted := true, trailing := [] }
      (httpEnqueue backend head { s with accepted := true, trailing := [] }) :=
    httpEnqueue_steady head
  unfold wsAccept at hspared ⊢
  split at hspared
  · rename_i hrefused
    rw [if_pos hrefused]
    exact h
  rename_i hrefused
  rw [if_neg hrefused]
  obtain ⟨hthere, hnotyet⟩ := not_or.mp hrefused
  have hthere : s.net.entry ≠ none := by simpa using hthere
  dsimp only at hspared ⊢
  split at hspared
  · rename_i htrailing
    rw [if_pos htrailing]
    have haccepted : Delivering (WsConn.exhausted { s with accepted := true, trailing := [] })
        { s with accepted := true, trailing := [] } :=
      ⟨h.served.mono fun hdone => ⟨hdone.1, .inl rfl⟩, h.gone, h.attentive⟩
    exact hsteady.outward.lasting haccepted fun hnone _ => (hspared hnone hthere).1
  · rename_i htrailing
    rw [if_neg htrailing]
    have hstrict : Delivering False { s with accepted := true, trailing := [] } := by
      have hmore := h.strict fun ⟨_, _, hdone⟩ => hdone.elim (fun haccepted => hnotyet haccepted)
        htrailing
      exact ⟨hmore.served, hmore.gone, hmore.attentive⟩
    have hrest := hsteady.rest
    generalize httpEnqueue backend head { s with accepted := true, trailing := [] } = s₁
      at hsteady hrest hspared ⊢
    have hgone : s₁.net.entry = none → (wsIngest backend postOk s.trailing s₁).net.entry = none :=
      fun hnone => by
        rw [wsIngest, if_pos (by simp [hnone])]
        exact hnone
    have h₁ := hsteady.outward.delivering hstrict fun hnone _ => (hspared (hgone hnone) hthere).1
    refine Delivering.mono (wsIngest_delivering postOk ?_ h₁ fun hnone hthere₁ => ?_) False.elim
    · rcases hsteady.recv with ⟨hrecv, -⟩ | ⟨-, hrecv⟩
      · rw [hrecv]
        exact hparking
      · rw [hrecv]
        unfold tornDown
        split <;> exact hparking
    · obtain ⟨hspent, hcarries⟩ := hspared hnone hthere
      refine ⟨hsteady.outward.spent hspent, fun _ => ?_⟩
      rw [hrest]
      exact hcarries (by simpa using hnotyet)

theorem onReceive_delivering (postOk : Bool) {event : ReceiveEvent} (hcalled : event.called = true)
    (hlistens : (ConnEvent.receive event postOk).listens = true) (h : Delivering s.exhausted s)
    (heof : s.recv.peer = .disconnected → s.recv.answersEof (.receive event postOk) = true →
      s.recv.inbox = [] ∧ s.exhausted)
    (hspared : (onReceive postOk event s).net.entry = none → s.net.entry ≠ none → s.recv.Spent) :
    Delivering (onReceive postOk event s).exhausted (onReceive postOk event s) := by
  have hbase : Delivering s.exhausted { s with recv := receiveStep s.recv event } := by
    refine ⟨receiveStep_served hcalled hlistens h.served heof, ?_,
      receiveStep_attentive hcalled hlistens h.attentive⟩
    show s.net.entry = none ↔ (receiveStep s.recv event).peer = .gone
    rw [(receiveStep_shift s.recv hcalled).peer]
    exact h.gone
  unfold onReceive at hspared ⊢
  dsimp only at hspared ⊢
  split at hspared
  · rename_i hlength
    rw [if_pos hlength]
    exact hbase
  · rename_i hlength
    rw [if_neg hlength]
    obtain ⟨inboxPaused, readingPaused, hsteady⟩ :=
      wsSyncReadPause_steady postOk { s with recv := receiveStep s.recv event }
    refine (wsSyncReadPause_delivering postOk hbase fun hnone hthere m hm => ?_).mono
      hsteady.outward.exhausted
    refine hspared hnone hthere m ?_
    cases receiveStep_shift s.recv hcalled with
    | still _ inbox _ => exact inbox ▸ hm
    | popped _ m' rest was inbox _ =>
      rw [was]
      exact List.mem_cons_of_mem _ (inbox ▸ hm)
    | back hrestored => exact absurd hlistens (by
        cases event <;> simp_all [ReceiveEvent.restores, ConnEvent.listens])

/-- An application that listens; no connection is removed with a message in its inbox or in the read
at hand; no `receive()` is told of an EOF ahead of a message. -/
structure Heard (backend : Backend) (headLen : Nat) (s : WsConn) (event : ConnEvent) : Prop where
  listens : event.listens = true
  spared : (wsStep backend headLen s event).net.entry = none → s.net.entry ≠ none →
    s.recv.Spent ∧ ∀ ev ∈ (s.rx.push (s.ingests event)).1, carries ev = false
  eof : s.recv.peer = .disconnected → s.recv.answersEof event = true →
    s.recv.inbox = [] ∧ s.exhausted

theorem connStep_delivering {event : ConnEvent}
    (hparked : s.recv.parking = none ∨ event.midReceive = true) (hlistens : event.listens = true)
    (hspared : (connStep backend headLen s event).net.entry = none → s.net.entry ≠ none →
      s.recv.Spent ∧ ∀ ev ∈ (s.rx.push (s.ingests event)).1, carries ev = false)
    (heof : s.recv.peer = .disconnected → s.recv.answersEof event = true →
      s.recv.inbox = [] ∧ s.exhausted)
    (h : Delivering s.exhausted s) :
    Delivering (connStep backend headLen s event).exhausted (connStep backend headLen s event) := by
  have hunparked : event.midReceive = false → s.recv.parking = none := fun hmid =>
    hparked.resolve_right (by simp [hmid])
  cases event with
  | recvDone result pause postOk =>
    unfold connStep at hspared ⊢
    dsimp only at hspared ⊢
    split at hspared
    · rename_i hposted
      rw [if_pos hposted]
      refine onRecvDone_delivering pause postOk hposted.2 (hunparked rfl) h fun hnone hthere => ?_
      obtain ⟨hspent, hcarries⟩ := hspared hnone hthere
      refine ⟨hspent, fun haccepted hws htls hlive data hdata => ?_⟩
      subst hdata
      rw [WsConn.ingests, if_pos ⟨by simp [hunparked rfl], hposted.1, hposted.2, by simp [htls], hws,
        haccepted, hlive⟩] at hcarries
      exact hcarries
    · rename_i hidle
      rw [if_neg hidle]
      exact h
  | tlsData unsealed sealing pause postOk =>
    unfold connStep at hspared ⊢
    dsimp only at hspared ⊢
    split at hspared
    · rename_i hqueued
      rw [if_pos hqueued]
      have hstrict := h.strict fun hdone => absurd hdone.2.1 (by omega)
      refine (tlsIngest_delivering (s := { s with tlsData := s.tlsData - 1 }) pause postOk hqueued.2
        (hunparked rfl) ⟨hstrict.served, hstrict.gone, hstrict.attentive⟩
        fun hnone hthere => ?_).mono False.elim
      obtain ⟨hspent, hcarries⟩ := hspared hnone hthere
      refine ⟨hspent, fun haccepted hws => ?_⟩
      rw [WsConn.ingests, if_pos ⟨by simp [hunparked rfl], hqueued.1, hqueued.2, hws, haccepted,
        Option.isSome_iff_ne_none.mpr hthere⟩] at hcarries
      exact hcarries
    · rename_i hidle
      rw [if_neg hidle]
      exact h
  | tlsFlush sealing =>
    unfold connStep at hspared ⊢
    dsimp only at hspared ⊢
    split at hspared
    · rename_i hqueued
      rw [if_pos hqueued]
      exact (tlsFlushConn_steady (s := { s with tlsFlushes := s.tlsFlushes - 1 }) sealing
        hqueued.2).outward.lasting ⟨h.served, h.gone, h.attentive⟩
        fun hnone hthere => (hspared hnone hthere).1
    · rename_i hidle
      rw [if_neg hidle]
      exact h
  | sendDone postOk =>
    have hout := onNet_outward (s := s) (@Net.onSendDone_onwards backend _)
    have h₁ := hout.lasting h fun hnone hthere =>
      (hspared (wsSyncReadPause_gone postOk hnone) hthere).1
    obtain ⟨inboxPaused, readingPaused, hsteady⟩ :=
      wsSyncReadPause_steady postOk (s.onNet (Net.onSendDone backend))
    refine (wsSyncReadPause_delivering postOk h₁ fun hnone hthere => ?_).mono
      hsteady.outward.exhausted
    exact hout.spent (hspared hnone fun hgone => hthere (hout.gone hgone)).1
  | flushCorked =>
    exact (onNet_steady Net.flushCorked_grows).outward.lasting h
      fun hnone hthere => (hspared hnone hthere).1
  | lingerExpired =>
    exact (onNet_steady Net.lingerExpired_grows).outward.lasting h
      fun hnone hthere => (hspared hnone hthere).1
  | teardown =>
    exact teardown_steady.outward.lasting h fun hnone hthere => (hspared hnone hthere).1
  | tick nowNs flushImmediately =>
    exact (tick_steady nowNs flushImmediately).outward.lasting h
      fun hnone hthere => (hspared hnone hthere).1
  | respond data =>
    unfold connStep at hspared ⊢
    dsimp only at hspared ⊢
    split at hspared
    · rename_i hws
      rw [if_pos hws]
      exact h
    · rename_i hws
      rw [if_neg hws]
      exact (httpEnqueue_steady data).outward.lasting h fun hnone hthere => (hspared hnone hthere).1
  | closeAfterWrite =>
    unfold connStep at hspared ⊢
    dsimp only at hspared ⊢
    split at hspared
    · rename_i hws
      rw [if_pos hws]
      exact h
    · rename_i hws
      rw [if_neg hws]
      exact httpCloseAfterWrite_steady.outward.lasting h
        fun hnone hthere => (hspared hnone hthere).1
  | resumeReading postOk =>
    unfold connStep httpResumeReading at hspared ⊢
    dsimp only at hspared ⊢
    split at hspared
    · rename_i hws
      rw [if_pos hws]
      exact h
    rename_i hws
    rw [if_neg hws]
    split at hspared
    · rename_i hpaused
      rw [if_pos hpaused]
      exact (postRecv_steady (s := { s with pipelinePaused := false }) postOk).outward.lasting
        ⟨h.served, h.gone, h.attentive⟩ fun hnone hthere => (hspared hnone hthere).1
    · rename_i hpaused
      rw [if_neg hpaused]
      exact h
  | dispatch minor =>
    unfold connStep
    dsimp only
    split <;> exact ⟨h.served, h.gone, h.attentive⟩
  | accept head postOk =>
    unfold connStep at hspared ⊢
    dsimp only at hspared ⊢
    split at hspared
    · rename_i hws
      rw [if_pos hws]
      refine wsAccept_delivering head postOk (hunparked rfl) h fun hnone hthere => ?_
      obtain ⟨hspent, hcarries⟩ := hspared hnone hthere
      refine ⟨hspent, fun hnotyet => ?_⟩
      rw [WsConn.ingests, if_pos ⟨by simp [hunparked rfl], hws, by simp [hnotyet],
        Option.isSome_iff_ne_none.mpr hthere⟩] at hcarries
      exact hcarries
    · rename_i hws
      rw [if_neg hws]
      exact h
  | send frame =>
    unfold connStep wsSend at hspared ⊢
    dsimp only at hspared ⊢
    split at hspared
    · rename_i hws
      rw [if_pos hws]
      split at hspared
      · rename_i hrefused
        rw [if_pos hrefused]
        exact h
      · rename_i hrefused
        rw [if_neg hrefused]
        exact (httpEnqueue_steady frame).outward.lasting h
          fun hnone hthere => (hspared hnone hthere).1
    · rename_i hws
      rw [if_neg hws]
      exact h
  | close code reason =>
    unfold connStep wsClose wsEnd at hspared ⊢
    dsimp only at hspared ⊢
    split at hspared
    · rename_i hws
      rw [if_pos hws]
      split at hspared
      · rename_i hnone
        rw [if_pos hnone]
        exact h
      · rename_i hthere
        rw [if_neg hthere]
        have hmarked : Delivering (WsConn.exhausted { s with accepted := true, closing := true })
            { s with accepted := true, closing := true } :=
          ⟨h.served.mono fun hdone => ⟨hdone.1, .inl rfl⟩, h.gone, h.attentive⟩
        exact ((httpEnqueue_steady _).trans httpCloseAfterWrite_steady).outward.lasting hmarked
          fun hnone hthere => (hspared hnone hthere).1
    · rename_i hws
      rw [if_neg hws]
      exact h
  | appDone => exact absurd hlistens (by simp [ConnEvent.listens])
  | fail => exact absurd hlistens (by simp [ConnEvent.listens])
  | receive event postOk =>
    unfold connStep at hspared ⊢
    dsimp only at hspared ⊢
    split at hspared
    · rename_i hcalled
      rw [if_pos hcalled]
      exact onReceive_delivering postOk hcalled.2 hlistens h heof
        fun hnone hthere => (hspared hnone hthere).1
    · rename_i hcalled
      rw [if_neg hcalled]
      exact h
  | hangup =>
    refine ⟨hangup_served h.served heof, ?_, hangup_attentive h.attentive⟩
    show s.net.entry = none ↔ (hangup s.recv).peer = .gone
    rw [(hangup_same s.recv).1]
    exact h.gone
  | shutdown => exact absurd hlistens (by simp [ConnEvent.listens])

theorem wsStep_delivering {event : ConnEvent} (hheard : Heard backend headLen s event)
    (h : Delivering s.exhausted s) :
    Delivering (wsStep backend headLen s event).exhausted (wsStep backend headLen s event) := by
  have hspared := hheard.spared
  unfold wsStep at hspared ⊢
  split at hspared
  · rename_i hparked
    rw [if_pos hparked]
    exact h
  · rename_i hparked
    rw [if_neg hparked]
    refine connStep_delivering ?_ hheard.listens hspared hheard.eof h
    cases hparking : s.recv.parking with
    | none => exact .inl rfl
    | some _ => exact .inr (by simpa [hparking] using hparked)

end Connection

/-! ## 2. Runs -/

theorem newWsConn_delivering (highWater lowWater : Nat) (tls sweeps : Bool) :
    Delivering (newWsConn highWater lowWater tls sweeps).exhausted
      (newWsConn highWater lowWater tls sweeps) where
  served := ⟨fun _ => rfl, List.prefix_refl _, fun _ => ⟨rfl, fun m hm => absurd hm List.not_mem_nil⟩,
    fun m hm => absurd hm List.not_mem_nil, fun m hm => absurd hm List.not_mem_nil,
    fun htold => absurd htold (by simp [newWsConn, newReceiving]), fun hne => absurd rfl hne⟩
  gone := ⟨fun hnone => absurd hnone (by simp [newWsConn, Net.initNet]),
    fun hgone => absurd hgone (by simp [newWsConn, newReceiving])⟩
  attentive := ⟨fun hne => absurd rfl hne, fun _ => rfl⟩

theorem Served.all_taken (h : Served shut ended r)
    (hdone : r.told = true ∨ r.peer = .gone) {m : Arrival} (hm : m ∈ r.arrived)
    (hmessage : m.msg.isDisconnect = false) : m ∈ r.taken := by
  by_cases hgone : r.peer = .gone
  · exact (h.lost hgone).2 m hm hmessage
  · have hspent := ((h.told (hdone.resolve_right hgone)).resolve_left hgone).1
    rw [h.order hgone] at hm
    rcases List.mem_append.mp hm with hm | hm
    · exact hm
    · exact absurd ((hspent m hm).symm.trans hmessage) (by simp)

/-- The front message goes to the next `receive()`. -/
theorem receive_next {backend : Backend} {headLen : Nat} {s : WsConn} {m : Arrival}
    {rest : List Arrival} (h : Delivering s.exhausted s) (hinbox : s.recv.inbox = m :: rest)
    (hws : s.ws = true) (hconnect : s.recv.connectSent = true) (postOk : Bool) :
    (wsStep backend headLen s (.receive .receive postOk)).recv.taken = s.recv.taken ++ [m] := by
  have hpeer := h.served.alive_of_inbox (by rw [hinbox]; simp)
  have hparking : s.recv.parking = none := by
    by_contra hparked
    exact absurd (hinbox.symm.trans (h.attentive.parked (Option.isSome_iff_ne_none.mpr hparked)))
      (by simp)
  have hreceived : receiveStep s.recv .receive =
      { popFront m rest s.recv with results := s.recv.results ++ [.ws m] } := by
    unfold receiveStep receive
    rw [hparking]
    simp [hpeer, hconnect, hinbox]
  have htaken : (receiveStep s.recv .receive).taken = s.recv.taken ++ [m] := by
    rw [hreceived]
    simp [Receiving.taken, popFront]
  rw [wsStep, if_neg (by simp [hparking]), connStep, if_pos ⟨hws, rfl⟩, onReceive]
  split
  · exact htaken
  · obtain ⟨inboxPaused, readingPaused, hsteady⟩ :=
      wsSyncReadPause_steady postOk { s with recv := receiveStep s.recv .receive }
    rcases hsteady.recv with ⟨hrecv, -⟩ | ⟨-, hrecv⟩
    · rw [hrecv]
      exact htaken
    · rw [hrecv, ← htaken]
      unfold tornDown
      split <;> rfl

instance (backend : Backend) (headLen : Nat) (s : WsConn) (event : ConnEvent) :
    Decidable (Heard backend headLen s event) :=
  decidable_of_iff (event.listens = true ∧
    ((wsStep backend headLen s event).net.entry = none → s.net.entry ≠ none →
      s.recv.Spent ∧ ∀ ev ∈ (s.rx.push (s.ingests event)).1, carries ev = false) ∧
    (s.recv.peer = .disconnected → s.recv.answersEof event = true →
      s.recv.inbox = [] ∧ s.exhausted))
    ⟨fun h => ⟨h.1, h.2.1, h.2.2⟩, fun h => ⟨h.listens, h.spared, h.eof⟩⟩

def textFrame : Bytes := [0x81, 0x81, 0, 0, 0, 0, 0x61]

def emptyCloseFrame : Bytes := [0x88, 0x80, 0, 0, 0, 0]

end Cadeloop.Pyshim.Http
