import Cadeloop.Pyshim.WsUpgrade

/-!
# The stream of a WebSocket across its upgrade

No byte behind the upgrade head is lost, reordered or fed to llhttp, however the stream is cut and
whenever the upgrade is dispatched and accepted, as long as the connection is not to close.
-/

namespace Cadeloop.Pyshim.Http

open Core.Ws Cadeloop.Reasoning
open Net (Backend TransportEntry)

variable {backend : Backend} {headLen : Nat} {s s' : WsConn}

/-! ## 1. Every byte in its place -/

theorem reads_of_unshut (h : s.shut = false) : s.reads = true := by
  rw [WsConn.reads, h, Bool.not_false, Bool.or_true, Bool.and_true]
  rw [WsConn.shut, Bool.or_eq_false_iff] at h
  cases he : s.net.entry with
  | none => simp [he] at h
  | some entry => rfl

theorem unshut_of_reads (h : s.reads = true) (hplain : s.tls = none) : s.shut = false := by
  rw [WsConn.reads, hplain, Bool.and_eq_true] at h
  simpa using h.2

theorem reads_of_gone (h : s.net.entry = none) : s.reads = false := by
  rw [WsConn.reads, h]
  rfl

theorem Lasts.unshut (h : Lasts s s') (hshut : s'.shut = false) : s.shut = false := by
  by_contra hwas
  exact absurd ((h.shut (by simpa using hwas)).symm.trans hshut) (by simp)

theorem Lasts.reads (h : Lasts s s') (hreads : s'.reads = true) : s.reads = true := by
  rw [WsConn.reads, Bool.and_eq_true, Bool.or_eq_true] at hreads ⊢
  refine ⟨?_, hreads.2.imp h.secure.symm.trans fun hunshut => ?_⟩
  · by_contra hnone
    have hgone := h.gone (by simpa using hnone)
    simp [hgone] at hreads
  · simpa using h.unshut (by simpa using hunshut)

/-- llhttp has the front of what came in, and behind that are the frame parser's bytes and the
buffer's, the more exactly the less has become of the connection. -/
structure ByteStream.Placed (headLen : Nat) (reads unshut plain : Prop) (p : ByteStream) : Prop extends
    p.Parsed headLen where
  fed : p.parser.fed <+: p.received
  abreast : reads → p.parser.upgraded = false → p.parser.fed = p.received
  whole : unshut → p.received = p.parser.fed ++ p.pushed ++ p.trailing
  spent : unshut → p.accepted = true → p.trailing = []
  pushed : plain → p.parser.fed ++ p.pushed <+: p.received
  waiting : plain → p.accepted = false → p.parser.fed ++ p.trailing <+: p.received

namespace ByteStream.Placed

variable {reads unshut plain : Prop} {p : ByteStream}

theorem mono {reads' unshut' plain' : Prop} (h : p.Placed headLen reads unshut plain)
    (hreads : reads' → reads) (hunshut : unshut' → unshut) (hplain : plain' → plain) :
    p.Placed headLen reads' unshut' plain' where
  toParsed := h.toParsed
  fed := h.fed
  abreast := fun hr => h.abreast (hreads hr)
  whole := fun hu => h.whole (hunshut hu)
  spent := fun hu => h.spent (hunshut hu)
  pushed := fun hp => h.pushed (hplain hp)
  waiting := fun hp => h.waiting (hplain hp)

/-- Bytes that nothing takes. -/
theorem unread (h : p.Placed headLen reads unshut plain) (data : Bytes) :
    ByteStream.Placed headLen False False plain { p with received := p.received ++ data } where
  toParsed := h.toParsed.receive _
  fed := h.fed.trans (List.prefix_append _ _)
  abreast := False.elim
  whole := False.elim
  spent := False.elim
  pushed := fun hp => (h.pushed hp).trans (List.prefix_append _ _)
  waiting := fun hp hw => (h.waiting hp hw).trans (List.prefix_append _ _)

end ByteStream.Placed

theorem HttpParser.took_behind (headLen : Nat) (data : Bytes) (p : HttpParser) :
    (p.took headLen data).fed ++ p.behind headLen data = p.fed ++ data := by
  rw [took, behind, List.append_assoc, List.take_append_drop]

theorem HttpParser.took_short {data : Bytes} {p : HttpParser} (h : (p.took headLen data).upgraded = false) :
    p.upgraded = false ∧ (p.took headLen data).fed = p.fed ++ data ∧ p.behind headLen data = [] := by
  rw [took, Bool.or_eq_false_iff, decide_eq_false_iff_not] at h
  have hshort : data.length ≤ headLen - p.fed.length := by omega
  refine ⟨h.1, ?_, List.drop_of_length_le hshort⟩
  rw [took, List.take_of_length_le hshort]

/-- The head's part of a chunk goes to llhttp. -/
theorem ByteStream.Parsed.took {p : ByteStream} (h : p.Parsed headLen) (hws : p.ws = false)
    (data received : Bytes) {trailing : Bytes} (htrailing : (p.parser.took headLen data).upgraded = false → trailing = []) :
    ByteStream.Parsed headLen
      { p with parser := p.parser.took headLen data, trailing := trailing, received := received } where
  within := by
    have := h.within
    show (p.parser.fed ++ data.take _).length ≤ headLen
    rw [List.length_append, List.length_take]
    omega
  head := by
    intro hup
    have hwithin := h.within
    show (p.parser.fed ++ data.take _).length = headLen
    rw [List.length_append, List.length_take]
    rcases Bool.or_eq_true_iff.mp hup with hwas | hend
    · have := h.head hwas
      omega
    · have := of_decide_eq_true hend
      omega
  fresh := htrailing
  dispatched := fun hd => absurd (hws.symm.trans hd) (by simp)
  accepted := h.accepted
  unpushed := h.unpushed

namespace ByteStream.Placed

variable {reads unshut plain : Prop} {p : ByteStream}

theorem took_prefix (h : p.Placed headLen reads unshut plain) (hreads : reads) (data : Bytes) :
    (p.parser.took headLen data).fed <+: p.received ++ data := by
  cases hup : p.parser.upgraded with
  | true =>
    rw [(h.past hup data).1]
    exact h.fed.trans (List.prefix_append _ _)
  | false =>
    rw [← h.abreast hreads hup]
    exact (List.prefix_append_right_inj _).mpr (List.take_prefix _ _)

/-- The front of the stream, when nothing is pushed, is llhttp's and the buffer's. -/
theorem took_whole (h : p.Placed headLen reads unshut plain) (hunshut : unshut) (hws : p.ws = false)
    (data : Bytes) : p.received ++ data =
      (p.parser.took headLen data).fed ++ (p.trailing ++ p.parser.behind headLen data) := by
  have hnone : p.pushed = [] := by
    refine h.unpushed ?_
    by_contra haccepted
    exact absurd (hws.symm.trans (h.accepted (by simpa using haccepted))) (by simp)
  have hwhole := h.whole hunshut
  rw [hnone, List.append_nil] at hwhole
  cases hup : p.parser.upgraded with
  | true => rw [(h.past hup data).1, (h.past hup data).2, hwhole, List.append_assoc]
  | false =>
    rw [hwhole, h.fresh hup, List.append_nil, List.nil_append, HttpParser.took_behind]

theorem fed_chunk (h : p.Placed headLen reads unshut plain) (hreads : reads) (hopen : plain → unshut)
    (hws : p.ws = false) (data : Bytes) : ByteStream.Placed headLen reads unshut plain { p with
      parser := p.parser.took headLen data
      trailing := p.trailing ++ p.parser.behind headLen data
      received := p.received ++ data } := by
  have hunaccepted : p.accepted = false := by
    by_contra haccepted
    exact absurd (hws.symm.trans (h.accepted (by simpa using haccepted))) (by simp)
  have hnone : p.pushed = [] := h.unpushed hunaccepted
  exact {
    toParsed := h.toParsed.took hws data _ fun hshort => by
      obtain ⟨hup, -, hbehind⟩ := HttpParser.took_short hshort
      rw [h.fresh hup, hbehind]
      rfl
    fed := h.took_prefix hreads data
    abreast := fun _ hshort => by
      obtain ⟨hup, hfed, -⟩ := HttpParser.took_short hshort
      show (p.parser.took headLen data).fed = p.received ++ data
      rw [hfed, h.abreast hreads hup]
    whole := fun hunshut => by
      show p.received ++ data = _ ++ p.pushed ++ _
      rw [hnone, List.append_nil]
      exact h.took_whole hunshut hws data
    spent := fun _ haccepted => absurd (hunaccepted.symm.trans haccepted) (by simp)
    pushed := fun _ => by
      show _ ++ p.pushed <+: _
      rw [hnone, List.append_nil]
      exact h.took_prefix hreads data
    waiting := fun hplain _ => by
      show _ <+: p.received ++ data
      rw [h.took_whole (hopen hplain) hws data] }

theorem flooded (h : p.Placed headLen reads unshut plain) (hreads : reads) (hws : p.ws = false)
    (data : Bytes) : ByteStream.Placed headLen False False plain { p with
      parser := p.parser.took headLen data, trailing := [], received := p.received ++ data } := by
  have hnone : p.pushed = [] := by
    refine h.unpushed ?_
    by_contra haccepted
    exact absurd (hws.symm.trans (h.accepted (by simpa using haccepted))) (by simp)
  have hfront : ∀ behind : Bytes, behind = [] →
      (p.parser.took headLen data).fed ++ behind <+: p.received ++ data := by
    rintro behind rfl
    rw [List.append_nil]
    exact h.took_prefix hreads data
  exact {
    toParsed := h.toParsed.took hws data _ fun _ => rfl
    fed := h.took_prefix hreads data
    abreast := False.elim
    whole := False.elim
    spent := False.elim
    pushed := fun _ => hfront p.pushed hnone
    waiting := fun _ _ => hfront [] rfl }

theorem buffered (h : p.Placed headLen reads unshut plain) (hopen : plain → unshut) (hws : p.ws = true)
    (hunaccepted : p.accepted = false) (data : Bytes) : ByteStream.Placed headLen reads unshut plain { p with
      trailing := p.trailing ++ data, received := p.received ++ data } := by
  have hup := h.dispatched hws
  have hnone : p.pushed = [] := h.unpushed hunaccepted
  have hwhole : unshut → p.received ++ data = p.parser.fed ++ (p.trailing ++ data) := by
    intro hunshut
    rw [h.whole hunshut, hnone, List.append_nil, List.append_assoc]
  exact {
    toParsed := ⟨h.within, h.head, fun hfresh => absurd (hup.symm.trans hfresh) (by simp), h.dispatched,
      h.accepted, h.unpushed⟩
    fed := h.fed.trans (List.prefix_append _ _)
    abreast := fun _ hfresh => absurd (hup.symm.trans hfresh) (by simp)
    whole := fun hunshut => by
      show p.received ++ data = _ ++ p.pushed ++ _
      rw [hnone, List.append_nil]
      exact hwhole hunshut
    spent := fun _ haccepted => absurd (hunaccepted.symm.trans haccepted) (by simp)
    pushed := fun hplain => (h.pushed hplain).trans (List.prefix_append _ _)
    waiting := fun hplain _ => by
      show _ <+: p.received ++ data
      rw [hwhole (hopen hplain)] }

theorem overflowed (h : p.Placed headLen reads unshut plain) (hws : p.ws = true) (data : Bytes) :
    ByteStream.Placed headLen reads False plain { p with
      trailing := [], received := p.received ++ data } where
  toParsed := ⟨h.within, h.head, fun _ => rfl, h.dispatched, h.accepted, h.unpushed⟩
  fed := h.fed.trans (List.prefix_append _ _)
  abreast := fun _ hfresh => absurd ((h.dispatched hws).symm.trans hfresh) (by simp)
  whole := False.elim
  spent := False.elim
  pushed := fun hplain => (h.pushed hplain).trans (List.prefix_append _ _)
  waiting := fun _ _ => by
    show _ ++ [] <+: _
    rw [List.append_nil]
    exact h.fed.trans (List.prefix_append _ _)

theorem push (h : p.Placed headLen reads unshut plain) (hopen : plain → unshut) (hws : p.ws = true)
    (haccepted : p.accepted = true) (data : Bytes) : ByteStream.Placed headLen reads unshut plain { p with
      pushed := p.pushed ++ data, received := p.received ++ data } := by
  have hwhole : unshut → p.received ++ data = p.parser.fed ++ (p.pushed ++ data) := by
    intro hunshut
    rw [h.whole hunshut, h.spent hunshut haccepted, List.append_nil, List.append_assoc]
  exact {
    toParsed := ⟨h.within, h.head, h.fresh, h.dispatched, h.accepted,
      fun hunaccepted => absurd (hunaccepted.symm.trans haccepted) (by simp)⟩
    fed := h.fed.trans (List.prefix_append _ _)
    abreast := fun _ hfresh => absurd ((h.dispatched hws).symm.trans hfresh) (by simp)
    whole := fun hunshut => by
      show p.received ++ data = _ ++ p.trailing
      rw [h.spent hunshut haccepted, List.append_nil]
      exact hwhole hunshut
    spent := h.spent
    pushed := fun hplain => by
      show _ <+: p.received ++ data
      rw [hwhole (hopen hplain)]
    waiting := fun _ hunaccepted => absurd (hunaccepted.symm.trans haccepted) (by simp) }

theorem dispatch (h : p.Placed headLen reads unshut plain) (hup : p.parser.upgraded = true) :
    ByteStream.Placed headLen reads unshut plain { p with ws := true } where
  toParsed := ⟨h.within, h.head, h.fresh, fun _ => hup, fun _ => rfl, h.unpushed⟩
  fed := h.fed
  abreast := h.abreast
  whole := h.whole
  spent := h.spent
  pushed := h.pushed
  waiting := h.waiting

/-- What waited for the accept is pushed. -/
theorem accept (h : p.Placed headLen reads unshut plain) (hws : p.ws = true)
    (hunaccepted : p.accepted = false) : ByteStream.Placed headLen reads unshut plain { p with
      accepted := true, trailing := [], pushed := p.pushed ++ p.trailing } := by
  have hnone : p.pushed = [] := h.unpushed hunaccepted
  exact {
    toParsed := ⟨h.within, h.head, fun _ => rfl, h.dispatched, fun _ => hws,
      fun hun => absurd hun (by simp)⟩
    fed := h.fed
    abreast := h.abreast
    whole := fun hunshut => by
      show p.received = _ ++ (_ ++ _) ++ []
      rw [List.append_nil, ← List.append_assoc]
      exact h.whole hunshut
    spent := fun _ _ => rfl
    pushed := fun hplain => by
      show _ ++ (p.pushed ++ _) <+: _
      rw [hnone, List.nil_append]
      exact h.waiting hplain hunaccepted
    waiting := fun _ hun => absurd hun (by simp) }

/-- An accept, or the end of a session, that pushes nothing. -/
theorem ended (h : p.Placed headLen reads unshut plain) (hws : p.ws = true) {trailing : Bytes} :
    ByteStream.Placed headLen reads False plain { p with accepted := true, trailing := trailing } where
  toParsed := ⟨h.within, h.head, fun hfresh => absurd ((h.dispatched hws).symm.trans hfresh) (by simp),
    h.dispatched, fun _ => hws, fun hun => absurd hun (by simp)⟩
  fed := h.fed
  abreast := h.abreast
  whole := False.elim
  spent := False.elim
  pushed := h.pushed
  waiting := fun _ hun => absurd hun (by simp)

end ByteStream.Placed

/-- What holds of a connection all along. -/
structure Joined (headLen : Nat) (s : WsConn) : Prop where
  queue : s.tls = none → s.tlsData = 0
  lingers : ∀ entry, s.net.entry = some entry → entry.lingering = true → entry.closing = true
  placed : s.stream.Placed headLen (s.reads = true) (s.shut = false) (s.tls = none)
  bounded : s.trailing.length ≤ wsMaxMessage

theorem Took.bounded (h : Took headLen s s') (hbounded : s.trailing.length ≤ wsMaxMessage) :
    s'.trailing.length ≤ wsMaxMessage := by
  have hsame : ∀ {p : ByteStream}, s'.stream = p → p.trailing.length ≤ wsMaxMessage →
      s'.trailing.length ≤ wsMaxMessage := by
    rintro p rfl hp
    exact hp
  cases h with
  | kept stream => exact hsame stream hbounded
  | discarded data plain shut stream => exact hsame stream hbounded
  | lost data gone stream => exact hsame stream hbounded
  | ingested data reads hin =>
    cases hin with
    | fed undispatched fits stream =>
      refine hsame stream ?_
      rw [List.length_append]
      exact Nat.le_of_not_lt fits
    | flooded undispatched excess gone stream => exact hsame stream (Nat.zero_le _)
    | buffered dispatched unaccepted fits stream =>
      refine hsame stream ?_
      rw [List.length_append]
      exact Nat.le_of_not_lt fits
    | overflowed dispatched unaccepted excess shut stream => exact hsame stream (Nat.zero_le _)
    | pushed dispatched accepted stream => exact hsame stream hbounded
  | dispatched upgraded stream => exact hsame stream hbounded
  | accepted there dispatched unaccepted stream => exact hsame stream (Nat.zero_le _)
  | refused dispatched gone stream => exact hsame stream (Nat.zero_le _)
  | ended dispatched shut stream => exact hsame stream hbounded

theorem Joined.step (h : Joined headLen s) (hstepped : Stepped headLen s s') : Joined headLen s' := by
  obtain ⟨hlasts, htook⟩ := hstepped
  have hplain : s'.tls = none → s.tls = none := by
    intro hnone
    have hsecure := hlasts.secure
    rw [hnone] at hsecure
    simpa using hsecure.symm
  refine ⟨fun hnone => (hlasts.queue (hplain hnone)).trans (h.queue (hplain hnone)), ?_, ?_,
    htook.bounded h.bounded⟩
  · intro entry' he' hlingering
    obtain ⟨entry, he, honward⟩ := hlasts.onward entry' he'
    rcases honward.lingering hlingering with hlingering | hclosing
    · exact honward.closing (h.lingers entry he hlingering)
    · exact hclosing
  -- what is left of the connection decides how much is known of its bytes
  have hlast : ∀ {reads unshut : Prop} {p : ByteStream}, s'.stream = p →
      p.Placed headLen reads unshut (s.tls = none) → (s'.reads = true → reads) →
      (s'.shut = false → unshut) →
      s'.stream.Placed headLen (s'.reads = true) (s'.shut = false) (s'.tls = none) := by
    intro reads unshut p hstream hp hreads hunshut
    rw [hstream]
    exact hp.mono hreads hunshut hplain
  have hshut : s'.shut = true → s'.shut = false → False := fun hshut hunshut => by
    simp [hshut] at hunshut
  have hunread : s'.reads = false → s'.reads = true → False := fun hunread hreads => by
    simp [hunread] at hreads
  cases htook with
  | kept stream => exact hlast stream h.placed hlasts.reads hlasts.unshut
  | discarded data plain shut stream =>
    have hclosed := hshut (hlasts.shut shut)
    refine hlast stream (h.placed.unread data) (fun hreads => ?_) hclosed
    simp [unshut_of_reads (hlasts.reads hreads) plain] at shut
  | lost data gone stream =>
    exact hlast stream (h.placed.unread data) (hunread (reads_of_gone gone)) (hshut (shut_of_gone gone))
  | ingested data reads hin =>
    have hopen := unshut_of_reads reads
    cases hin with
    | fed undispatched fits stream =>
      exact hlast stream (h.placed.fed_chunk reads hopen undispatched data) hlasts.reads hlasts.unshut
    | flooded undispatched excess gone stream =>
      exact hlast stream (h.placed.flooded reads undispatched data) (hunread (reads_of_gone gone))
        (hshut (shut_of_gone gone))
    | buffered dispatched unaccepted fits stream =>
      exact hlast stream (h.placed.buffered hopen dispatched unaccepted data) hlasts.reads hlasts.unshut
    | overflowed dispatched unaccepted excess shut stream =>
      exact hlast stream (h.placed.overflowed dispatched data) hlasts.reads (hshut shut)
    | pushed dispatched accepted stream =>
      exact hlast stream (h.placed.push hopen dispatched accepted data) hlasts.reads hlasts.unshut
  | dispatched upgraded stream => exact hlast stream (h.placed.dispatch upgraded) hlasts.reads hlasts.unshut
  | accepted there dispatched unaccepted stream =>
    exact hlast stream (h.placed.accept dispatched unaccepted) hlasts.reads hlasts.unshut
  | refused dispatched gone stream =>
    exact hlast stream (h.placed.ended dispatched) hlasts.reads (hshut (shut_of_gone gone))
  | ended dispatched shut stream => exact hlast stream (h.placed.ended dispatched) hlasts.reads (hshut shut)

theorem Joined.wsStep (h : Joined headLen s) (event : ConnEvent) :
    Joined headLen (wsStep backend headLen s event) :=
  h.step (wsStep_stepped h.placed.toParsed h.queue h.lingers event)

theorem newWsConn_joined (highWater lowWater : Nat) (tls sweeps : Bool) :
    Joined headLen (newWsConn highWater lowWater tls sweeps) where
  queue := fun _ => rfl
  lingers := by
    intro entry he hlingering
    injection he with he
    rw [← he] at hlingering
    exact absurd hlingering Bool.false_ne_true
  placed := {
    within := Nat.zero_le _
    head := fun hup => absurd hup (by simp [WsConn.stream, newWsConn])
    fresh := fun _ => rfl
    dispatched := fun hws => absurd hws (by simp [WsConn.stream, newWsConn])
    accepted := fun haccepted => absurd haccepted (by simp [WsConn.stream, newWsConn])
    unpushed := fun _ => rfl
    fed := List.prefix_refl _
    abreast := fun _ _ => rfl
    whole := fun _ => rfl
    spent := fun _ _ => rfl
    pushed := fun _ => List.prefix_refl _
    waiting := fun _ _ => List.prefix_refl _ }
  bounded := Nat.zero_le _

/-! ## 2. More than the limit before the accept -/

/-- What of the stream the step takes in. -/
def WsConn.takes (s : WsConn) (event : ConnEvent) : Bytes :=
  match event with
  | .recvDone (some data) _ _ =>
    if s.recv.parking.isNone ∧ s.recvOp ∧ s.may (some data) ∧ s.tls.isNone ∧
        s.net.entry.any (fun entry => !entry.closing) then data
    else []
  | .tlsData unsealed sealing _ _ =>
    if s.recv.parking.isNone ∧ 0 < s.tlsData ∧ sealing.Valid s ∧ s.net.entry.isSome then
      unsealed.plaintext
    else []
  | _ => []

/-- With the step more bytes than a whole message wait for the accept. -/
def WsConn.Overflows (headLen : Nat) (s : WsConn) (event : ConnEvent) : Prop :=
  s.accepted = false ∧ wsMaxMessage < s.trailing.length + (s.parser.behind headLen (s.takes event)).length

instance (headLen : Nat) (s : WsConn) (event : ConnEvent) : Decidable (s.Overflows headLen event) :=
  inferInstanceAs (Decidable (_ ∧ _))

/-- Nothing was pushed, and nothing will be. -/
structure Flooded (s : WsConn) : Prop where
  pushed : s.pushed = []
  ends : s.net.entry = none ∨ s.tls = none ∧ s.shut = true ∧ s.trailing = []

theorem Flooded.step (h : Flooded s) (hstepped : Stepped headLen s s') : Flooded s' := by
  obtain ⟨hlasts, htook⟩ := hstepped
  have hstays : ∀ {p : ByteStream}, s'.stream = p → p.pushed = s.pushed →
      (p.trailing = s.trailing ∨ p.trailing = []) → Flooded s' := by
    intro p hstream hpushed htrailing
    refine ⟨((congrArg ByteStream.pushed hstream).trans hpushed).trans h.pushed, ?_⟩
    refine h.ends.imp hlasts.gone fun ⟨hplain, hshut, hnone⟩ => ⟨hlasts.plain hplain, hlasts.shut hshut, ?_⟩
    exact (congrArg ByteStream.trailing hstream).trans (htrailing.elim (·.trans hnone) id)
  cases htook with
  | kept stream => exact hstays stream rfl (.inl rfl)
  | discarded data plain shut stream => exact hstays stream rfl (.inl rfl)
  | lost data gone stream => exact hstays stream rfl (.inl rfl)
  | ingested data reads hin =>
    rcases h.ends with hnone | ⟨hplain, hshut, -⟩
    · exact absurd (reads.symm.trans (reads_of_gone hnone)) (by simp)
    · exact absurd (hshut.symm.trans (unshut_of_reads reads hplain)) (by simp)
  | dispatched upgraded stream => exact hstays stream rfl (.inl rfl)
  | accepted there dispatched unaccepted stream =>
    rcases h.ends with hnone | ⟨hplain, hshut, hnone⟩
    · exact absurd hnone (Option.isSome_iff_ne_none.mp there)
    · refine hstays stream ?_ (.inr rfl)
      show s.pushed ++ s.trailing = s.pushed
      rw [hnone, List.append_nil]
  | refused dispatched gone stream => exact hstays stream rfl (.inr rfl)
  | ended dispatched shut stream => exact hstays stream rfl (.inl rfl)

/-- A chunk that is taken in, unless the connection goes before its bytes are looked at. -/
theorem wsStep_takes (h : Joined headLen s) {event : ConnEvent} (htakes : s.takes event ≠ []) :
    Lasts s (wsStep backend headLen s event) ∧
      ((wsStep backend headLen s event).net.entry = none ∧
          (wsStep backend headLen s event).pushed = s.pushed ∨
        Ingested headLen (s.takes event) { s.stream with received := s.received ++ s.takes event }
          (wsStep backend headLen s event)) := by
  have hstep : s.recv.parking.isNone → wsStep backend headLen s event =
      connStep backend headLen s event := fun hparking => if_neg (by
    rw [Option.isNone_iff_eq_none.mp hparking]
    simp)
  unfold WsConn.takes at htakes ⊢
  split at htakes
  · rename_i data pause postOk
    dsimp only
    split at htakes
    · rename_i hguard
      rw [if_pos hguard]
      obtain ⟨hparking, hposted, hmay, hplain, hlive⟩ := hguard
      obtain ⟨entry, he, hopen⟩ := (Option.any_eq_true _ _).mp hlive
      have hopen : entry.closing = false := by simpa using hopen
      have hlinger : entry.lingering = false := by
        by_contra hlingering
        exact absurd ((h.lingers entry he (by simpa using hlingering)).symm.trans hopen) (by simp)
      rw [hstep hparking, connStep, if_pos ⟨hposted, hmay⟩]
      obtain ⟨hlasts, hin⟩ := @onRecvDone_ingested backend headLen s entry data h.placed.toParsed he hlinger
        hopen (Option.isNone_iff_eq_none.mp hplain) htakes pause postOk
      exact ⟨hlasts, .inr hin⟩
    · exact absurd rfl htakes
  · rename_i unsealed sealing pause postOk
    dsimp only
    split at htakes
    · rename_i hguard
      rw [if_pos hguard]
      obtain ⟨hparking, hdue, hvalid, hthere⟩ := hguard
      rw [hstep hparking, connStep, if_pos ⟨hdue, hvalid⟩]
      obtain ⟨hlasts, hcases⟩ := @tlsIngest_cases backend headLen { s with tlsData := s.tlsData - 1 }
        h.placed.toParsed unsealed sealing pause postOk
      have hsecure : s.tls ≠ none := by
        intro hplain
        have := h.queue hplain
        omega
      refine ⟨⟨hlasts.secure, fun hplain => absurd hplain hsecure, hlasts.onward, hlasts.shut⟩, ?_⟩
      rcases hcases with ⟨-, hnothing | hnone⟩ | ⟨hgone, hstream⟩ | ⟨-, hin⟩
      · exact absurd hnothing htakes
      · exact absurd hnone (Option.isSome_iff_ne_none.mp hthere)
      · exact .inl ⟨hgone, congrArg ByteStream.pushed hstream⟩
      · exact .inr hin
    · exact absurd rfl htakes
  · exact absurd rfl htakes

/-- Behind the limit nothing is pushed: the connection goes, or answers and closes. -/
theorem Joined.flooded (h : Joined headLen s) {event : ConnEvent} (hover : s.Overflows headLen event)
    (hplain : s.tls = none ∨ s.ws = false) :
    Flooded (Http.wsStep backend headLen s event) := by
  obtain ⟨hunaccepted, hover⟩ := hover
  have hnone : s.pushed = [] := h.placed.unpushed hunaccepted
  have htakes : s.takes event ≠ [] := by
    intro hnothing
    rw [hnothing, HttpParser.behind, List.drop_nil] at hover
    exact absurd hover (Nat.not_lt.mpr h.bounded)
  obtain ⟨hlasts, ⟨hgone, hpushed⟩ | hin⟩ := @wsStep_takes backend headLen s h event htakes
  · exact ⟨hpushed.trans hnone, .inl hgone⟩
  cases hin with
  | fed undispatched fits stream => exact absurd hover fits
  | flooded undispatched excess gone stream =>
    exact ⟨(congrArg ByteStream.pushed stream).trans hnone, .inl gone⟩
  | buffered dispatched unaccepted fits stream =>
    have hbehind : s.parser.behind headLen (s.takes event) = s.takes event :=
      (h.placed.past (h.placed.dispatched dispatched) _).2
    rw [hbehind] at hover
    exact absurd hover fits
  | overflowed dispatched unaccepted excess shut stream =>
    refine ⟨(congrArg ByteStream.pushed stream).trans hnone,
      .inr ⟨?_, shut, congrArg ByteStream.trailing stream⟩⟩
    exact hlasts.plain (hplain.resolve_right fun hws => by simp [WsConn.stream, hws] at dispatched)
  | pushed dispatched accepted stream => exact absurd (hunaccepted.symm.trans accepted) (by simp)

/-! ## 3. Runs -/

theorem websocket_joined (headLen highWater lowWater : Nat) (tls sweeps : Bool) (events : List ConnEvent) :
    Joined headLen ((websocket backend headLen highWater lowWater tls sweeps).run events) ∧
      ((websocket backend headLen highWater lowWater tls sweeps).run events).tls.isSome = tls := by
  refine Reasoning.Machine.run_invariant (I := fun s => Joined headLen s ∧ s.tls.isSome = tls)
    (websocket backend headLen highWater lowWater tls sweeps) ?_ (fun s event ⟨h, hsecure⟩ => ?_) events
  · refine ⟨newWsConn_joined highWater lowWater tls sweeps, ?_⟩
    cases tls <;> rfl
  · refine ⟨h.wsStep event, ?_⟩
    exact ((wsStep_stepped h.placed.toParsed h.queue h.lingers event).1.secure).trans hsecure

theorem run_flooded (later : List ConnEvent) (h : Joined headLen s)
    (hflooded : Flooded s) : Flooded (later.foldl (wsStep backend headLen) s) := by
  induction later generalizing s with
  | nil => exact hflooded
  | cons event later ih =>
    exact ih (h.wsStep event) (hflooded.step (wsStep_stepped h.placed.toParsed h.queue h.lingers event))

/-- Nothing behind the upgrade head is fed to llhttp, and all of it, in order, is pushed into the frame
parser of a WebSocket that is accepted and not to close; or, on a plaintext connection that is, all
that came before it was.  More than the limit before the accept is never delivered. -/
theorem upgrade_in_order (backend : Backend) (headLen highWater lowWater : Nat) (tls sweeps : Bool)
    (events : List ConnEvent) :
    let m := websocket backend headLen highWater lowWater tls sweeps
    let s := m.run events
    s.parser.fed <+: s.received.take headLen ∧
      (s.accepted = true → s.shut = false → s.pushed = s.received.drop headLen) ∧
      (tls = false → s.pushed <+: s.received.drop headLen) ∧
      ∀ event later, s.Overflows headLen event → tls = false ∨ s.ws = false →
        (m.run (events ++ event :: later)).pushed = [] := by
  intro m s
  obtain ⟨h, hsecure⟩ := @websocket_joined backend headLen highWater lowWater tls sweeps events
  have hp := h.placed
  have hplain : tls = false → s.tls = none := by
    rintro rfl
    simpa using hsecure
  have hend : s.accepted = true → s.parser.fed.length = headLen := fun haccepted =>
    hp.head (hp.dispatched (hp.accepted haccepted))
  refine ⟨List.prefix_take_iff.mpr ⟨hp.fed, hp.within⟩, fun haccepted hunshut => ?_, fun htls => ?_,
    fun event later hover hwhy => ?_⟩
  · have hwhole : s.received = s.parser.fed ++ s.pushed ++ s.trailing := hp.whole hunshut
    have hspent : s.trailing = [] := hp.spent hunshut haccepted
    rw [hwhole, hspent, List.append_nil, List.drop_left' (hend haccepted)]
  · cases haccepted : s.accepted with
    | false =>
      have hnone : s.pushed = [] := hp.unpushed haccepted
      rw [hnone]
      exact List.nil_prefix
    | true =>
      obtain ⟨rest, hrest⟩ := hp.pushed (hplain htls)
      have hrest : s.parser.fed ++ s.pushed ++ rest = s.received := hrest
      refine ⟨rest, ?_⟩
      rw [← hrest, List.append_assoc, List.drop_left' (hend haccepted)]
  · have hflooded := @Joined.flooded backend headLen s h event hover (hwhy.imp_left hplain)
    have hrun : m.run (events ++ event :: later) =
        later.foldl (wsStep backend headLen) (wsStep backend headLen s event) := by
      show (events ++ event :: later).foldl _ _ = _
      rw [List.foldl_append]
      rfl
    rw [hrun]
    exact (run_flooded later (h.wsStep event) hflooded).pushed

/-- A byte in each place: behind the head in its chunk, before the dispatch, before the accept and
behind it. -/
theorem upgrade_in_order_bytewise :
    let s := (websocket obliging upgradeRequest.length 65536 16384 false false).run
      [.recvDone (some (upgradeRequest ++ [0x81])) false true, .recvDone (some [0x81]) false true,
        .dispatch 1, .recvDone (some [0]) false true, .accept switchingProtocols true,
        .recvDone (some [0, 0]) false true]
    s.pushed = s.received.drop upgradeRequest.length ∧ s.pushed = [0x81, 0x81, 0, 0, 0] :=
  ⟨(upgrade_in_order obliging upgradeRequest.length 65536 16384 false false _).2.1 (by decide +kernel)
    (by decide +kernel), by decide +kernel⟩

/-- What comes behind the application's close is discarded. -/
theorem upgrade_discards :
    ¬ ∀ (backend : Backend) (headLen highWater lowWater : Nat) (tls sweeps : Bool)
        (events : List ConnEvent),
      let m := websocket backend headLen highWater lowWater tls sweeps
      let s := m.run events
      m.Along (fun s event => ¬ s.Overflows headLen event) events → s.accepted = true →
        s.pushed = s.received.drop headLen := by
  intro h
  have hnone := h obliging upgradeRequest.length 65536 16384 false true
    (handshake ++ [.close 1000 "", .recvDone (some [0x81]) false true]) ?_ (by decide +kernel)
  · exact absurd hnone (by decide +kernel)
  rw [show handshake ++ [.close 1000 "", .recvDone (some [0x81]) false true] =
    [] ++ [.recvDone (some upgradeRequest) false true] ++ [.dispatch 1] ++
      [.accept switchingProtocols true] ++ [.close 1000 ""] ++ [.recvDone (some [0x81]) false true] from rfl]
  simp only [Machine.along_concat]
  refine ⟨⟨⟨⟨⟨Machine.along_nil _ _, ?_⟩, ?_⟩, ?_⟩, ?_⟩, ?_⟩
  all_goals decide +kernel

end Cadeloop.Pyshim.Http
