import Cadeloop.Core.Http

/-!
# Requests out of spans

A `Message` is one request in the spans the parser hands over, every part cut into any number of
pieces.  `drive_message` is the one step: from between two messages the accumulator either takes the
whole message and is between two messages again, or stops because the message breaks a limit.
-/

namespace Cadeloop.Core.Http

open Cadeloop.Reasoning

/-! ## 1. Messages -/

/-- A header in the spans it is parsed in. -/
structure HeaderSpans where
  field : List Bytes
  value : List Bytes
  field_ne : field ≠ []
  value_ne : value ≠ []

namespace HeaderSpans

def callbacks (h : HeaderSpans) : List Callback :=
  h.field.map .headerField ++ h.value.map .headerValue

def pair (h : HeaderSpans) : Bytes × Bytes := (lower h.field.flatten, h.value.flatten)

def size (h : HeaderSpans) : Nat := h.field.flatten.length + h.value.flatten.length

end HeaderSpans

structure Message where
  parser : Llhttp
  url : List Bytes
  headers : List HeaderSpans
  body : List Bytes
  trailers : List HeaderSpans

namespace Message

def head (m : Message) : List Callback :=
  .messageBegin :: m.url.map .url ++ m.headers.flatMap HeaderSpans.callbacks

def rest (m : Message) : List Callback :=
  m.body.map .body ++ m.trailers.flatMap HeaderSpans.callbacks

def parts (m : Message) : List Callback := m.head ++ .headersComplete m.parser :: m.rest

def callbacks (m : Message) : List Callback := m.parts ++ [.messageComplete m.parser]

/-- The request a message stands for; its trailers are no part of it. -/
def request (m : Message) : Request where
  method := m.parser.method
  httpMinor := m.parser.httpMinor
  keepAlive := m.parser.shouldKeepAlive
  upgrade := m.parser.upgrade
  url := m.url.flatten
  headers := m.headers.map HeaderSpans.pair
  body := m.body.flatten

/-- The names and values of a message, its trailers' included. -/
def headerBytes (m : Message) : Nat := ((m.headers ++ m.trailers).map HeaderSpans.size).sum

/-- The ways a message breaks the limits, `NeedsHost` saying which owe exactly one `Host`. -/
inductive Breaks (lim : Limits) (NeedsHost : Llhttp → Prop) (m : Message) : Prop
  | url (h : lim.maxUrl < m.url.flatten.length)
  | headerBytes (h : lim.maxHeaderBytes < m.headerBytes)
  -- field `i` starts, trailers counted, when `maxHeaders` headers are held
  | headers (i : Nat) (hi : i < (m.headers ++ m.trailers).length)
      (h : lim.maxHeaders ≤ min i m.headers.length)
  | host (hneeds : NeedsHost m.parser) (h : hosts m.request.headers ≠ 1)
  | declared (cap n : Nat) (hcap : lim.maxBody = some cap)
      (hn : declaredLength m.request.headers = some n) (h : cap < n)
  | received (cap : Nat) (hcap : lim.maxBody = some cap) (h : cap < m.body.flatten.length)

end Message

/-- A request within the limits. -/
structure Request.Within (lim : Limits) (r : Request) : Prop where
  url : r.url.length ≤ lim.maxUrl
  headerBytes : fieldBytes r.headers ≤ lim.maxHeaderBytes
  headers : r.headers.length ≤ lim.maxHeaders
  body : ∀ cap, lim.maxBody = some cap → r.body.length ≤ cap

theorem fieldBytes_pairs (hs : List HeaderSpans) :
    fieldBytes (hs.map HeaderSpans.pair) = (hs.map HeaderSpans.size).sum := by
  have hsize : ∀ h : HeaderSpans, h.pair.1.length + h.pair.2.length = h.size := fun h => by
    rw [HeaderSpans.pair, HeaderSpans.size, lower, List.length_map]
  rw [fieldBytes, List.map_map]
  exact congrArg List.sum (List.map_congr_left fun h _ => hsize h)

/-- A message that breaks no limit makes a request within them. -/
theorem Message.within {lim : Limits} {NeedsHost : Llhttp → Prop} {m : Message}
    (h : ¬ m.Breaks lim NeedsHost) : m.request.Within lim where
  url := by
    by_contra hurl
    exact h (.url (by simpa [request] using hurl))
  headerBytes := by
    by_contra hbytes
    apply h
    apply Breaks.headerBytes
    rw [request, fieldBytes_pairs] at hbytes
    rw [Message.headerBytes, List.map_append, List.sum_append]
    omega
  headers := by
    by_contra hcount
    rw [request, List.length_map] at hcount
    exact h (.headers lim.maxHeaders (by rw [List.length_append]; omega) (by omega))
  body := by
    intro cap hcap
    by_contra hbody
    exact h (.received cap hcap (by simpa [request] using hbody))

/-! ## 2. Driving the accumulator -/

namespace Acc

theorem drive_append (a : Acc) (cs ds : List Callback) :
    a.drive (cs ++ ds) = if (a.drive cs).2 = 0 then (a.drive cs).1.drive ds else a.drive cs := by
  induction cs generalizing a with
  | nil => rfl
  | cons c cs ih =>
    rw [List.cons_append, drive, drive]
    by_cases hc : (a.callback c).2 = 0
    · rw [if_pos hc, if_pos hc, ih]
    · rw [if_neg hc, if_neg hc, if_neg hc]

theorem drive_append_ok {a b : Acc} {cs : List Callback} (h : a.drive cs = (b, 0))
    (ds : List Callback) : a.drive (cs ++ ds) = b.drive ds := by
  rw [drive_append, h]
  exact if_pos rfl

theorem drive_append_failed {a : Acc} {cs : List Callback} (h : (a.drive cs).2 ≠ 0)
    (ds : List Callback) : a.drive (cs ++ ds) = a.drive cs := by
  rw [drive_append, if_neg h]

theorem drive_cons_ok {a b : Acc} {c : Callback} (h : a.callback c = (b, 0))
    (ds : List Callback) : a.drive (c :: ds) = b.drive ds := by
  rw [drive, h]
  exact if_pos rfl

theorem drive_cons_failed {a : Acc} {c : Callback} (h : (a.callback c).2 ≠ 0)
    (ds : List Callback) : a.drive (c :: ds) = a.callback c := by
  rw [drive, if_neg h]

theorem fail_ne (a : Acc) (e : ParseError) : (a.fail e).2 ≠ 0 := by
  show (-1 : Int) ≠ 0
  decide

end Acc

/-- A callback that takes its span whole or stops, so that it does not matter how it is cut. -/
structure Spanwise (cb : Bytes → Callback) (put : Acc → Bytes → Acc) (Fits : Acc → Prop) :
    Prop where
  ok : ∀ a s, Fits (put a s) → a.callback (cb s) = (put a s, 0)
  failed : ∀ a s, ¬ Fits (put a s) → (a.callback (cb s)).2 ≠ 0
  append : ∀ a s t, put (put a s) t = put a (s ++ t)
  shrink : ∀ a s t, Fits (put a (s ++ t)) → Fits (put a s)

namespace Spanwise

variable {cb : Bytes → Callback} {put : Acc → Bytes → Acc} {Fits : Acc → Prop}

theorem drive_ok (h : Spanwise cb put Fits) {spans : List Bytes} (hne : spans ≠ []) (a : Acc)
    (hfits : Fits (put a spans.flatten)) :
    a.drive (spans.map cb) = (put a spans.flatten, 0) := by
  induction spans generalizing a with
  | nil => exact absurd rfl hne
  | cons s spans ih =>
    rw [List.flatten_cons] at hfits ⊢
    rw [List.map_cons, Acc.drive_cons_ok (h.ok a s (h.shrink a s _ hfits))]
    by_cases hnil : spans = []
    · subst hnil
      simp [Acc.drive]
    · rw [ih hnil _ (by rwa [h.append]), h.append]

theorem drive_failed (h : Spanwise cb put Fits) {spans : List Bytes} (hne : spans ≠ []) (a : Acc)
    (hfits : ¬ Fits (put a spans.flatten)) : (a.drive (spans.map cb)).2 ≠ 0 := by
  induction spans generalizing a with
  | nil => exact absurd rfl hne
  | cons s spans ih =>
    rw [List.flatten_cons] at hfits
    rw [List.map_cons]
    by_cases hs : Fits (put a s)
    · rw [Acc.drive_cons_ok (h.ok a s hs)]
      by_cases hnil : spans = []
      · subst hnil
        exact absurd (by simpa using hs) hfits
      · exact ih hnil _ (by rwa [h.append])
    · rw [Acc.drive_cons_failed (h.failed a s hs)]
      exact h.failed a s hs

end Spanwise

/-! ## 3. The four kinds of span -/

namespace Acc

def putUrl (a : Acc) (s : Bytes) : Acc := { a with url := a.url ++ s }

def putField (a : Acc) (s : Bytes) : Acc :=
  { a.commitHeader with
      field := a.commitHeader.field ++ s
      headerBytes := a.commitHeader.headerBytes + s.length }

def putValue (a : Acc) (s : Bytes) : Acc :=
  { a with inValue := true, value := a.value ++ s, headerBytes := a.headerBytes + s.length }

def putBody (a : Acc) (s : Bytes) : Acc := { a with body := a.body ++ s }

def BodyFits (a : Acc) : Prop := ∀ cap, a.limits.maxBody = some cap → a.body.length ≤ cap

theorem commitHeader_of_not_inValue {a : Acc} (h : a.inValue = false) : a.commitHeader = a := by
  simp [commitHeader, h]

theorem commitHeader_pending {a : Acc} (h : a.inValue = true) : a.commitHeader =
    { a with
        inValue := false
        field := []
        value := []
        headers := if a.inHead then a.headers ++ [(lower a.field, a.value)] else a.headers } := by
  cases hh : a.inHead <;> simp [commitHeader, h, hh]

@[simp] theorem commitHeader_inValue (a : Acc) : a.commitHeader.inValue = false := by
  unfold commitHeader
  split
  · simp_all
  · split <;> rfl

@[simp] theorem commitHeader_commitHeader (a : Acc) :
    a.commitHeader.commitHeader = a.commitHeader :=
  commitHeader_of_not_inValue a.commitHeader_inValue

@[simp] theorem commitHeader_putField (a : Acc) (s : Bytes) :
    (a.putField s).commitHeader = a.putField s :=
  commitHeader_of_not_inValue a.commitHeader_inValue

/-- `commitHeader` works on the pending pair and the header list only. -/
theorem commitHeader_kept (a : Acc) : a.commitHeader.limits = a.limits ∧
    a.commitHeader.headerBytes = a.headerBytes ∧ a.commitHeader.inHead = a.inHead ∧
    a.commitHeader.completed = a.completed ∧ a.commitHeader.url = a.url ∧
    a.commitHeader.body = a.body := by
  unfold commitHeader
  split
  · exact ⟨rfl, rfl, rfl, rfl, rfl, rfl⟩
  · split <;> exact ⟨rfl, rfl, rfl, rfl, rfl, rfl⟩

@[simp] theorem commitHeader_limits (a : Acc) : a.commitHeader.limits = a.limits :=
  a.commitHeader_kept.1

@[simp] theorem commitHeader_headerBytes (a : Acc) :
    a.commitHeader.headerBytes = a.headerBytes :=
  a.commitHeader_kept.2.1

@[simp] theorem commitHeader_inHead (a : Acc) : a.commitHeader.inHead = a.inHead :=
  a.commitHeader_kept.2.2.1

@[simp] theorem commitHeader_completed (a : Acc) : a.commitHeader.completed = a.completed :=
  a.commitHeader_kept.2.2.2.1

theorem commitHeader_headers_trailer {a : Acc} (hin : a.inHead = false) :
    a.commitHeader.headers = a.headers := by
  cases hv : a.inValue with
  | false => rw [commitHeader_of_not_inValue hv]
  | true =>
    rw [commitHeader_pending hv]
    exact if_neg (by rw [hin]; decide)

theorem spanwise_url : Spanwise .url putUrl fun a => a.url.length ≤ a.limits.maxUrl where
  ok a s h := by
    simp only [putUrl, List.length_append] at h
    show a.onUrl s = _
    rw [onUrl, if_neg (by omega)]
    rfl
  failed a s h := by
    simp only [putUrl, List.length_append] at h
    show (a.onUrl s).2 ≠ 0
    rw [onUrl, if_pos (by omega)]
    exact fail_ne _ _
  append a s t := by simp [putUrl]
  shrink a s t h := by
    simp only [putUrl, List.length_append] at h ⊢
    omega

theorem spanwise_field : Spanwise .headerField putField
    fun a => a.headerBytes ≤ a.limits.maxHeaderBytes ∧ a.headers.length < a.limits.maxHeaders where
  ok a s h := by
    obtain ⟨hbytes, hcount⟩ := h
    show a.onHeaderField s = _
    rw [onHeaderField]
    dsimp only [putField] at hbytes hcount ⊢
    rw [if_neg (by omega), if_neg (by omega)]
  failed a s h := by
    show (a.onHeaderField s).2 ≠ 0
    rw [onHeaderField]
    dsimp only [putField] at h ⊢
    by_cases hbytes : a.commitHeader.limits.maxHeaderBytes <
        a.commitHeader.headerBytes + s.length
    · rw [if_pos hbytes]
      exact fail_ne _ _
    · rw [if_neg hbytes, if_pos (by omega)]
      exact fail_ne _ _
  append a s t := by
    rw [putField, commitHeader_putField]
    simp [putField, Nat.add_assoc]
  shrink a s t h := by
    simp only [putField, List.length_append] at h ⊢
    omega

theorem spanwise_value : Spanwise .headerValue putValue
    fun a => a.headerBytes ≤ a.limits.maxHeaderBytes where
  ok a s h := by
    dsimp only [putValue] at h ⊢
    show a.onHeaderValue s = _
    rw [onHeaderValue]
    dsimp only
    rw [if_neg (by omega)]
  failed a s h := by
    dsimp only [putValue] at h
    show (a.onHeaderValue s).2 ≠ 0
    rw [onHeaderValue]
    dsimp only
    rw [if_pos (by omega)]
    exact fail_ne _ _
  append a s t := by simp [putValue, Nat.add_assoc]
  shrink a s t h := by
    simp only [putValue, List.length_append] at h ⊢
    omega

theorem spanwise_body : Spanwise .body putBody BodyFits where
  ok a s h := by
    show a.onBody s = _
    rw [onBody]
    cases hcap : a.limits.maxBody with
    | none => rfl
    | some cap =>
      have hfits := h cap hcap
      rw [putBody, List.length_append] at hfits
      dsimp only
      rw [if_neg (by omega)]
      rfl
  failed a s h := by
    show (a.onBody s).2 ≠ 0
    rw [onBody]
    cases hcap : a.limits.maxBody with
    | none =>
      refine absurd (fun cap h' => ?_) h
      change a.limits.maxBody = some cap at h'
      rw [hcap] at h'
      cases h'
    | some cap =>
      have hover : cap < a.body.length + s.length := by
        by_contra hle
        apply h
        intro cap' h'
        change a.limits.maxBody = some cap' at h'
        rw [hcap] at h'
        injection h' with h'
        rw [putBody, List.length_append]
        omega
      dsimp only
      rw [if_pos hover]
      exact fail_ne _ _
  append a s t := by simp [putBody]
  shrink a s t h := by
    intro cap hcap
    have hfits := h cap hcap
    simp only [putBody, List.length_append] at hfits ⊢
    omega

/-! ## 4. Header sections -/

/-- No span of a pair is left over from a pair before. -/
def Settled (a : Acc) : Prop := a.inValue = false → a.field = [] ∧ a.value = []

theorem Settled.commit {a : Acc} (h : a.Settled) :
    a.commitHeader.field = [] ∧ a.commitHeader.value = [] := by
  cases hv : a.inValue with
  | false =>
    rw [commitHeader_of_not_inValue hv]
    exact h hv
  | true =>
    cases hh : a.inHead <;> simp [commitHeader, hv, hh]

/-- The pair has come in and is not committed yet. -/
def putPair (a : Acc) (h : HeaderSpans) : Acc :=
  { a.commitHeader with
      field := h.field.flatten
      value := h.value.flatten
      inValue := true
      headerBytes := a.headerBytes + h.size }

theorem settled_putPair (a : Acc) (h : HeaderSpans) : (a.putPair h).Settled := by
  intro hv
  cases hv

@[simp] theorem putPair_limits (a : Acc) (h : HeaderSpans) : (a.putPair h).limits = a.limits :=
  a.commitHeader_limits

@[simp] theorem putPair_inHead (a : Acc) (h : HeaderSpans) : (a.putPair h).inHead = a.inHead :=
  a.commitHeader_inHead

theorem commitHeader_putPair_head {a : Acc} (hin : a.inHead = true) (hset : a.Settled)
    (h : HeaderSpans) : (a.putPair h).commitHeader =
      { a.commitHeader with
          headers := a.commitHeader.headers ++ [h.pair]
          headerBytes := a.headerBytes + h.size } := by
  obtain ⟨hf, hv⟩ := hset.commit
  have hin' : (a.putPair h).inHead = true := by rw [putPair_inHead, hin]
  have hvv : (a.putPair h).inValue = true := rfl
  have hcv := a.commitHeader_inValue
  rw [commitHeader_pending hvv, if_pos hin']
  simp only [putPair, hf, hv, hcv, HeaderSpans.pair]

theorem commitHeader_putPair_trailer {a : Acc} (hin : a.inHead = false) (hset : a.Settled)
    (h : HeaderSpans) : (a.putPair h).commitHeader =
      { a.commitHeader with headerBytes := a.headerBytes + h.size } := by
  obtain ⟨hf, hv⟩ := hset.commit
  have hin' : (a.putPair h).inHead = false := by rw [putPair_inHead, hin]
  have hvv : (a.putPair h).inValue = true := rfl
  have hcv := a.commitHeader_inValue
  rw [commitHeader_pending hvv, if_neg (by rw [hin']; decide)]
  simp only [putPair, hf, hv, hcv]

/-- The headers held when field `i` of a section starts. -/
def held (a : Acc) (i : Nat) : Nat :=
  a.commitHeader.headers.length + if a.inHead then i else 0

theorem held_putPair {a : Acc} (hset : a.Settled) (h : HeaderSpans) (i : Nat) :
    (a.putPair h).held i = a.held (i + 1) := by
  cases hin : a.inHead with
  | true =>
    rw [held, held, commitHeader_putPair_head hin hset, putPair_inHead, hin]
    simp only [List.length_append, List.length_singleton, if_true]
    omega
  | false =>
    rw [held, held, commitHeader_putPair_trailer hin hset, putPair_inHead, hin]
    rfl

/-- A section fits: its bytes, and the count at each of its fields. -/
def SectionFits (a : Acc) (hs : List HeaderSpans) : Prop :=
  a.headerBytes + (hs.map HeaderSpans.size).sum ≤ a.limits.maxHeaderBytes ∧
    ∀ i < hs.length, a.held i < a.limits.maxHeaders

/-- Field spans, then value spans. -/
theorem putValue_putField {a : Acc} (hset : a.Settled) (h : HeaderSpans) :
    (a.putField h.field.flatten).putValue h.value.flatten = a.putPair h := by
  obtain ⟨hf, hv⟩ := hset.commit
  simp only [putValue, putField, putPair, hf, hv, List.nil_append, HeaderSpans.size,
    commitHeader_headerBytes, Nat.add_assoc]

theorem drive_pair_ok {a : Acc} (hset : a.Settled) {h : HeaderSpans}
    (hbytes : a.headerBytes + h.size ≤ a.limits.maxHeaderBytes)
    (hcount : a.held 0 < a.limits.maxHeaders) : a.drive h.callbacks = (a.putPair h, 0) := by
  have hfield : a.drive (h.field.map .headerField) = (a.putField h.field.flatten, 0) := by
    apply spanwise_field.drive_ok h.field_ne
    constructor
    · dsimp only [putField]
      rw [commitHeader_limits, commitHeader_headerBytes]
      rw [HeaderSpans.size] at hbytes
      omega
    · dsimp only [putField]
      rw [commitHeader_limits]
      simpa [held] using hcount
  have hvalue : (a.putField h.field.flatten).drive (h.value.map .headerValue) =
      (a.putPair h, 0) := by
    rw [← putValue_putField hset]
    apply spanwise_value.drive_ok h.value_ne
    rw [putValue_putField hset, putPair_limits]
    exact hbytes
  rw [HeaderSpans.callbacks, drive_append_ok hfield, hvalue]

theorem drive_pair_failed {a : Acc} (hset : a.Settled) {h : HeaderSpans}
    (hnot : ¬ (a.headerBytes + h.size ≤ a.limits.maxHeaderBytes ∧
      a.held 0 < a.limits.maxHeaders)) : (a.drive h.callbacks).2 ≠ 0 := by
  rw [HeaderSpans.callbacks]
  by_cases hfits : (a.putField h.field.flatten).headerBytes ≤
      (a.putField h.field.flatten).limits.maxHeaderBytes ∧
      (a.putField h.field.flatten).headers.length <
      (a.putField h.field.flatten).limits.maxHeaders
  · rw [drive_append_ok (spanwise_field.drive_ok h.field_ne a hfits)]
    -- the field came in, so it is the value that is too long
    apply spanwise_value.drive_failed h.value_ne
    rw [putValue_putField hset, putPair_limits]
    intro hbytes
    apply hnot
    refine ⟨hbytes, ?_⟩
    have hcount := hfits.2
    dsimp only [putField] at hcount
    rw [commitHeader_limits] at hcount
    simpa [held] using hcount
  · have hfield := spanwise_field.drive_failed h.field_ne a hfits
    rw [drive_append_failed hfield]
    exact hfield

theorem drive_section_ok {a : Acc} (hset : a.Settled) {hs : List HeaderSpans}
    (hfits : a.SectionFits hs) :
    a.drive (hs.flatMap HeaderSpans.callbacks) = (hs.foldl putPair a, 0) := by
  induction hs generalizing a with
  | nil => rfl
  | cons h hs ih =>
    obtain ⟨hbytes, hcount⟩ := hfits
    rw [List.map_cons, List.sum_cons] at hbytes
    have hpair := drive_pair_ok hset (h := h) (by omega) (hcount 0 (by simp))
    rw [List.flatMap_cons, drive_append_ok hpair, List.foldl_cons]
    apply ih (settled_putPair a h)
    constructor
    · rw [putPair_limits]
      show a.headerBytes + h.size + _ ≤ _
      omega
    · intro i hi
      rw [putPair_limits, held_putPair hset]
      exact hcount (i + 1) (by simpa using hi)

theorem drive_section_failed {a : Acc} (hset : a.Settled)
    (hstart : a.headerBytes ≤ a.limits.maxHeaderBytes) {hs : List HeaderSpans}
    (hfits : ¬ a.SectionFits hs) : (a.drive (hs.flatMap HeaderSpans.callbacks)).2 ≠ 0 := by
  induction hs generalizing a with
  | nil =>
    refine absurd ⟨?_, ?_⟩ hfits
    · simpa using hstart
    · intro i hi
      cases hi
  | cons h hs ih =>
    rw [List.flatMap_cons]
    by_cases hpair : a.headerBytes + h.size ≤ a.limits.maxHeaderBytes ∧
        a.held 0 < a.limits.maxHeaders
    · rw [drive_append_ok (drive_pair_ok hset hpair.1 hpair.2)]
      refine ih (settled_putPair a h) ?_ ?_
      · rw [putPair_limits]
        exact hpair.1
      · rintro ⟨hbytes, hcount⟩
        apply hfits
        constructor
        · rw [putPair_limits] at hbytes
          change a.headerBytes + h.size + _ ≤ _ at hbytes
          rw [List.map_cons, List.sum_cons]
          omega
        · intro i hi
          cases i with
          | zero => exact hpair.2
          | succ i =>
            have hi' := hcount i (by simpa using hi)
            rwa [putPair_limits, held_putPair hset] at hi'
    · rw [drive_append_failed (drive_pair_failed hset hpair)]
      exact drive_pair_failed hset hpair

theorem commitHeader_section_head {a : Acc} (hin : a.inHead = true) (hset : a.Settled)
    (hs : List HeaderSpans) : (hs.foldl putPair a).commitHeader =
      { a.commitHeader with
          headers := a.commitHeader.headers ++ hs.map HeaderSpans.pair
          headerBytes := a.headerBytes + (hs.map HeaderSpans.size).sum } := by
  induction hs generalizing a with
  | nil =>
    simp only [List.foldl_nil, List.map_nil, List.append_nil, List.sum_nil, Nat.add_zero,
      ← commitHeader_headerBytes a]
  | cons h hs ih =>
    rw [List.foldl_cons, ih (by rw [putPair_inHead, hin]) (settled_putPair a h),
      commitHeader_putPair_head hin hset]
    simp only [List.map_cons, List.sum_cons, List.append_assoc, List.singleton_append, putPair,
      Nat.add_assoc]

theorem commitHeader_section_trailer {a : Acc} (hin : a.inHead = false) (hset : a.Settled)
    (hs : List HeaderSpans) : (hs.foldl putPair a).commitHeader =
      { a.commitHeader with headerBytes := a.headerBytes + (hs.map HeaderSpans.size).sum } := by
  induction hs generalizing a with
  | nil =>
    simp only [List.foldl_nil, List.map_nil, List.sum_nil, Nat.add_zero,
      ← commitHeader_headerBytes a]
  | cons h hs ih =>
    rw [List.foldl_cons, ih (by rw [putPair_inHead, hin]) (settled_putPair a h),
      commitHeader_putPair_trailer hin hset]
    simp only [List.map_cons, List.sum_cons, putPair, Nat.add_assoc]

/-! ## 5. A whole message -/

/-- Between two messages. -/
structure Fresh (a : Acc) : Prop where
  url : a.url = []
  headers : a.headers = []
  field : a.field = []
  value : a.value = []
  inValue : a.inValue = false
  headerBytes : a.headerBytes = 0
  body : a.body = []

theorem fresh_new (limits : Limits) : Fresh { limits } := ⟨rfl, rfl, rfl, rfl, rfl, rfl, rfl⟩

def minorOne (p : Llhttp) : Prop := 1 ≤ p.httpMinor

/-- The head of `m` has come in, its last header committed. -/
def taken (a : Acc) (m : Message) : Acc :=
  { a with
      inHead := true
      url := m.url.flatten
      headers := m.headers.map HeaderSpans.pair
      headerBytes := (m.headers.map HeaderSpans.size).sum }

def HeadFits (lim : Limits) (m : Message) : Prop :=
  m.url.flatten.length ≤ lim.maxUrl ∧
    (m.headers.map HeaderSpans.size).sum ≤ lim.maxHeaderBytes ∧
    m.headers.length ≤ lim.maxHeaders

theorem drive_url_ok {a : Acc} (hurl : a.url = []) {spans : List Bytes}
    (hfits : spans.flatten.length ≤ a.limits.maxUrl) :
    a.drive (spans.map .url) = ({ a with url := spans.flatten }, 0) := by
  by_cases hne : spans = []
  · subst hne
    rw [List.flatten_nil, ← hurl]
    rfl
  · rw [spanwise_url.drive_ok hne a (by simpa [putUrl, hurl] using hfits), putUrl, hurl,
      List.nil_append]

theorem drive_url_failed {a : Acc} (hurl : a.url = []) {spans : List Bytes}
    (hover : a.limits.maxUrl < spans.flatten.length) : (a.drive (spans.map .url)).2 ≠ 0 := by
  apply spanwise_url.drive_failed
  · rintro rfl
    cases hover
  · simpa [putUrl, hurl] using hover

theorem drive_body_ok {a : Acc} (hbody : a.body = []) {spans : List Bytes}
    (hfits : ∀ cap, a.limits.maxBody = some cap → spans.flatten.length ≤ cap) :
    a.drive (spans.map .body) = ({ a with body := spans.flatten }, 0) := by
  by_cases hne : spans = []
  · subst hne
    rw [List.flatten_nil, ← hbody]
    rfl
  · have hput : BodyFits (a.putBody spans.flatten) := by
      intro cap hcap
      rw [putBody, hbody]
      exact hfits cap hcap
    rw [spanwise_body.drive_ok hne a hput, putBody, hbody, List.nil_append]

theorem drive_body_failed {a : Acc} (hbody : a.body = []) {spans : List Bytes} {cap : Nat}
    (hcap : a.limits.maxBody = some cap) (hover : cap < spans.flatten.length) :
    (a.drive (spans.map .body)).2 ≠ 0 := by
  apply spanwise_body.drive_failed
  · rintro rfl
    cases hover
  · intro hput
    have hle := hput cap hcap
    simp only [putBody, hbody, List.nil_append] at hle
    omega

section Head

variable {a : Acc} (ha : a.Fresh) (m : Message)
include ha

theorem Fresh.settled_begun : Settled { a with inHead := true, url := m.url.flatten } :=
  fun _ => ⟨ha.field, ha.value⟩

theorem Fresh.held_begun (i : Nat) :
    held { a with inHead := true, url := m.url.flatten } i = i := by
  have hv : ({ a with inHead := true, url := m.url.flatten } : Acc).inValue = false := ha.inValue
  rw [held, commitHeader_of_not_inValue hv]
  simp [ha.headers]

theorem drive_head_ok (hfits : HeadFits a.limits m) :
    ∃ b, a.drive m.head = (b, 0) ∧ b.commitHeader = a.taken m ∧ b.Settled := by
  obtain ⟨hurl, hbytes, hcount⟩ := hfits
  have hsection : SectionFits { a with inHead := true, url := m.url.flatten } m.headers := by
    constructor
    · show a.headerBytes + _ ≤ a.limits.maxHeaderBytes
      rw [ha.headerBytes]
      omega
    · intro i hi
      rw [ha.held_begun]
      show i < a.limits.maxHeaders
      omega
  have hv : ({ a with inHead := true, url := m.url.flatten } : Acc).inValue = false := ha.inValue
  refine ⟨m.headers.foldl putPair { a with inHead := true, url := m.url.flatten }, ?_, ?_, ?_⟩
  · rw [Message.head, List.cons_append, drive_cons_ok (c := .messageBegin) rfl,
      drive_append_ok (drive_url_ok (a := { a with inHead := true }) ha.url hurl)]
    exact drive_section_ok (ha.settled_begun m) hsection
  · rw [commitHeader_section_head rfl (ha.settled_begun m), commitHeader_of_not_inValue hv]
    simp only [taken, ha.headers, ha.headerBytes, List.nil_append, Nat.zero_add]
  · generalize m.headers = hs
    induction hs using List.reverseRecOn with
    | nil => exact ha.settled_begun m
    | append_singleton hs h _ =>
      rw [List.foldl_append]
      exact settled_putPair _ h

theorem drive_head_failed (hfits : ¬ HeadFits a.limits m) : (a.drive m.head).2 ≠ 0 := by
  rw [Message.head, List.cons_append, drive_cons_ok (c := .messageBegin) rfl]
  by_cases hurl : m.url.flatten.length ≤ a.limits.maxUrl
  · rw [drive_append_ok (drive_url_ok (a := { a with inHead := true }) ha.url hurl)]
    apply drive_section_failed (ha.settled_begun m)
    · show a.headerBytes ≤ _
      rw [ha.headerBytes]
      omega
    · rintro ⟨hbytes, hcount⟩
      apply hfits
      refine ⟨hurl, ?_, ?_⟩
      · change a.headerBytes + _ ≤ _ at hbytes
        rw [ha.headerBytes, Nat.zero_add] at hbytes
        exact hbytes
      · by_contra hover
        have hlast := hcount a.limits.maxHeaders (by omega)
        rw [ha.held_begun] at hlast
        exact Nat.lt_irrefl _ hlast
  · have hover : { a with inHead := true }.limits.maxUrl < m.url.flatten.length := by
      simpa using hurl
    have hfail := drive_url_failed (a := { a with inHead := true }) ha.url hover
    rw [drive_append_failed hfail]
    exact hfail

end Head

/-- What `on_headers_complete` refuses a head for. -/
def HeadRefused (lim : Limits) (m : Message) : Prop :=
  (minorOne m.parser ∧ hosts m.request.headers ≠ 1) ∨
    ∃ cap n, lim.maxBody = some cap ∧ declaredLength m.request.headers = some n ∧ cap < n

theorem declaredTooLarge_iff (a : Acc) : a.declaredTooLarge = true ↔
    ∃ cap n, a.limits.maxBody = some cap ∧ declaredLength a.headers = some n ∧ cap < n := by
  rw [declaredTooLarge, declaredContentLength]
  cases a.limits.maxBody with
  | none => simp
  | some cap =>
    cases declaredLength a.headers with
    | none => simp
    | some n => simp

theorem onHeadersComplete_ok {a b : Acc} {m : Message} (hb : b.commitHeader = a.taken m)
    (hnot : ¬ HeadRefused a.limits m) : ∃ owes expecting, b.onHeadersComplete m.parser =
      ({ a.taken m with inHead := false, owesContinue := owes, expectingBody := expecting }, 0) := by
  rw [onHeadersComplete, hb]
  have hhost : ¬ (1 ≤ m.parser.httpMinor ∧ hosts (a.taken m).headers ≠ 1) :=
    fun h => hnot (.inl h)
  have hlen : ¬ ({ a.taken m with inHead := false } : Acc).declaredTooLarge = true := by
    rw [declaredTooLarge_iff]
    exact fun h => hnot (.inr h)
  dsimp only at hlen ⊢
  rw [if_neg hhost, if_neg hlen]
  split
  · exact ⟨true, true, rfl⟩
  · exact ⟨a.owesContinue, a.expectingBody, rfl⟩

theorem onHeadersComplete_failed {a b : Acc} {m : Message} (hb : b.commitHeader = a.taken m)
    (h : HeadRefused a.limits m) : (b.onHeadersComplete m.parser).2 ≠ 0 := by
  rw [onHeadersComplete, hb]
  dsimp only
  by_cases hhost : 1 ≤ m.parser.httpMinor ∧ hosts (a.taken m).headers ≠ 1
  · rw [if_pos hhost]
    exact fail_ne _ _
  · have hlen : ({ a.taken m with inHead := false } : Acc).declaredTooLarge = true := by
      rw [declaredTooLarge_iff]
      exact h.resolve_left hhost
    dsimp only at hlen
    rw [if_neg hhost, if_pos hlen]
    exact fail_ne _ _

/-- The body and the trailers fit behind the head. -/
def RestFits (lim : Limits) (m : Message) : Prop :=
  (∀ cap, lim.maxBody = some cap → m.body.flatten.length ≤ cap) ∧
    m.headerBytes ≤ lim.maxHeaderBytes ∧
    (m.trailers ≠ [] → m.headers.length < lim.maxHeaders)

section Rest

variable {a c : Acc} {m : Message} {owes expecting : Bool} (ha : a.Fresh)
  (hc : c = { a.taken m with
    inHead := false, owesContinue := owes, expectingBody := expecting, body := m.body.flatten })
include ha hc

theorem Fresh.settled_rest : c.Settled := by
  rw [hc]
  exact fun _ => ⟨ha.field, ha.value⟩

theorem Fresh.commit_rest : c.commitHeader = c := by
  apply commitHeader_of_not_inValue
  rw [hc]
  exact ha.inValue

theorem Fresh.section_rest : c.SectionFits m.trailers ↔
    m.headerBytes ≤ a.limits.maxHeaderBytes ∧
      (m.trailers ≠ [] → m.headers.length < a.limits.maxHeaders) := by
  have hheld : ∀ i, c.held i = m.headers.length := by
    intro i
    rw [held, ha.commit_rest hc, hc]
    simp [taken]
  have hlim : c.limits = a.limits := by rw [hc]; rfl
  have hbytes : c.headerBytes + (m.trailers.map HeaderSpans.size).sum = m.headerBytes := by
    rw [hc, Message.headerBytes, List.map_append, List.sum_append]
    rfl
  rw [SectionFits, hlim, hbytes]
  refine and_congr_right fun _ => ⟨fun h hne => ?_, fun h i hi => ?_⟩
  · have hfirst := h 0 (List.length_pos_of_ne_nil hne)
    rwa [hheld] at hfirst
  · rw [hheld]
    exact h (List.ne_nil_of_length_pos (by omega))

end Rest

/-- Only `on_message_complete` touches the queue of requests. -/
theorem drive_completed {cs : List Callback} (h : ∀ p, Callback.messageComplete p ∉ cs) (a : Acc) :
    (a.drive cs).1.completed = a.completed := by
  have hone : ∀ (a : Acc) (c : Callback), (∀ p, c ≠ .messageComplete p) →
      (a.callback c).1.completed = a.completed := by
    intro a c hc
    cases c with
    | messageBegin => rfl
    | url s =>
      show (a.onUrl s).1.completed = _
      rw [onUrl]
      split <;> rfl
    | headerField s =>
      show (a.onHeaderField s).1.completed = _
      rw [onHeaderField, ← a.commitHeader_completed]
      dsimp only
      split
      · rfl
      · split <;> rfl
    | headerValue s =>
      show (a.onHeaderValue s).1.completed = _
      rw [onHeaderValue]
      dsimp only
      split <;> rfl
    | headersComplete p =>
      show (a.onHeadersComplete p).1.completed = _
      rw [onHeadersComplete, ← a.commitHeader_completed]
      dsimp only
      split
      · rfl
      · split
        · rfl
        · split <;> rfl
    | body s =>
      show (a.onBody s).1.completed = _
      rw [onBody]
      split
      · split <;> rfl
      · rfl
    | messageComplete p => exact absurd rfl (hc p)
  induction cs generalizing a with
  | nil => rfl
  | cons c cs ih =>
    have hc := hone a c fun p heq => h p (heq ▸ List.mem_cons_self)
    rw [drive]
    split
    · rw [ih (fun p hp => h p (List.mem_cons_of_mem c hp)), hc]
    · exact hc

theorem drive_parts_completed (a : Acc) (m : Message) :
    (a.drive m.parts).1.completed = a.completed := by
  apply drive_completed
  simp [Message.parts, Message.head, Message.rest, HeaderSpans.callbacks]

theorem drive_parts_ok {a : Acc} (ha : a.Fresh) {m : Message} (hhead : HeadFits a.limits m)
    (hnot : ¬ HeadRefused a.limits m) (hrest : RestFits a.limits m) :
    ∃ d, a.drive m.parts = (d, 0) ∧ d.inHead = false ∧ d.limits = a.limits ∧
      d.completed = a.completed ∧ d.url = m.request.url ∧ d.headers = m.request.headers ∧
      d.body = m.request.body := by
  obtain ⟨b, hb, hcommit, -⟩ := drive_head_ok ha m hhead
  obtain ⟨owes, expecting, hcomplete⟩ := onHeadersComplete_ok hcommit hnot
  obtain ⟨hbody, hsection⟩ := hrest
  let c : Acc := { a.taken m with
    inHead := false, owesContinue := owes, expectingBody := expecting, body := m.body.flatten }
  have hset : c.Settled := ha.settled_rest (c := c) rfl
  have hfits : c.SectionFits m.trailers := (ha.section_rest (c := c) rfl).mpr hsection
  let d := m.trailers.foldl putPair c
  have hd : d.commitHeader = { c.commitHeader with
      headerBytes := c.headerBytes + (m.trailers.map HeaderSpans.size).sum } :=
    commitHeader_section_trailer rfl hset m.trailers
  rw [ha.commit_rest (c := c) rfl] at hd
  obtain ⟨hlim, -, hin, hcompleted, hurl, hbody'⟩ := d.commitHeader_kept
  have hin' : d.inHead = false := by rw [← hin, hd]
  refine ⟨d, ?_, hin', ?_, ?_, ?_, ?_, ?_⟩
  · have hbodies := drive_body_ok (a := { a.taken m with
      inHead := false, owesContinue := owes, expectingBody := expecting }) ha.body hbody
    rw [Message.parts, drive_append_ok hb, drive_cons_ok (c := .headersComplete _) hcomplete,
      Message.rest, drive_append_ok hbodies]
    exact drive_section_ok hset hfits
  · rw [← hlim, hd]
    rfl
  · rw [← hcompleted, hd]
    rfl
  · rw [← hurl, hd]
    rfl
  · rw [← commitHeader_headers_trailer hin', hd]
    rfl
  · rw [← hbody', hd]
    rfl

theorem drive_parts_failed {a : Acc} (ha : a.Fresh) {m : Message}
    (h : ¬ (HeadFits a.limits m ∧ ¬ HeadRefused a.limits m ∧ RestFits a.limits m)) :
    (a.drive m.parts).2 ≠ 0 := by
  rw [Message.parts]
  by_cases hhead : HeadFits a.limits m
  · obtain ⟨b, hb, hcommit, -⟩ := drive_head_ok ha m hhead
    rw [drive_append_ok hb]
    by_cases hrefused : HeadRefused a.limits m
    · have hfail := onHeadersComplete_failed hcommit hrefused
      rw [drive_cons_failed (c := .headersComplete _) hfail]
      exact hfail
    · obtain ⟨owes, expecting, hcomplete⟩ := onHeadersComplete_ok hcommit hrefused
      rw [drive_cons_ok (c := .headersComplete _) hcomplete, Message.rest]
      by_cases hbody : ∀ cap, a.limits.maxBody = some cap → m.body.flatten.length ≤ cap
      · rw [drive_append_ok (drive_body_ok (a := { a.taken m with
          inHead := false, owesContinue := owes, expectingBody := expecting }) ha.body hbody)]
        apply drive_section_failed (ha.settled_rest rfl)
        · exact hhead.2.1
        · rw [ha.section_rest rfl]
          exact fun hsection => h ⟨hhead, hrefused, hbody, hsection⟩
      · push Not at hbody
        obtain ⟨cap, hcap, hover⟩ := hbody
        have hfail := drive_body_failed (a := { a.taken m with
          inHead := false, owesContinue := owes, expectingBody := expecting }) ha.body hcap hover
        rw [drive_append_failed hfail]
        exact hfail
  · have hfail := drive_head_failed ha m hhead
    rw [drive_append_failed hfail]
    exact hfail

theorem not_breaks_iff {lim : Limits} {m : Message} : ¬ m.Breaks lim minorOne ↔
    HeadFits lim m ∧ ¬ HeadRefused lim m ∧ RestFits lim m := by
  constructor
  · intro h
    have hurl : m.url.flatten.length ≤ lim.maxUrl := by
      by_contra hover
      exact h (.url (by omega))
    have hbytes : m.headerBytes ≤ lim.maxHeaderBytes := by
      by_contra hover
      exact h (.headerBytes (by omega))
    have hsplit : m.headerBytes = (m.headers.map HeaderSpans.size).sum +
        (m.trailers.map HeaderSpans.size).sum := by
      rw [Message.headerBytes, List.map_append, List.sum_append]
    have hcount : m.headers.length ≤ lim.maxHeaders := by
      by_contra hover
      exact h (.headers lim.maxHeaders (by rw [List.length_append]; omega) (by omega))
    refine ⟨⟨hurl, by omega, hcount⟩, ?_, ?_, hbytes, ?_⟩
    · rintro (⟨hminor, hhosts⟩ | ⟨cap, n, hcap, hn, hover⟩)
      · exact h (.host hminor hhosts)
      · exact h (.declared cap n hcap hn hover)
    · intro cap hcap
      by_contra hover
      exact h (.received cap hcap (by omega))
    · intro hne
      by_contra hover
      have hpos := List.length_pos_of_ne_nil hne
      exact h (.headers m.headers.length (by rw [List.length_append]; omega) (by omega))
  · rintro ⟨⟨hurl, -, hcount⟩, hrefused, hbody, hbytes, htrailers⟩ hbreaks
    cases hbreaks with
    | url h => omega
    | headerBytes h => omega
    | headers i hi h =>
      rw [List.length_append] at hi
      have hne : m.trailers ≠ [] := by
        rintro hnil
        rw [hnil, List.length_nil] at hi
        omega
      have hlt := htrailers hne
      omega
    | host hminor hhosts => exact hrefused (.inl ⟨hminor, hhosts⟩)
    | declared cap n hcap hn h => exact hrefused (.inr ⟨cap, n, hcap, hn, h⟩)
    | received cap hcap h =>
      have hle := hbody cap hcap
      omega

/-- A message that breaks nothing is taken whole, as the request it stands for. -/
theorem drive_message_ok {a : Acc} (ha : a.Fresh) {m : Message}
    (h : ¬ m.Breaks a.limits minorOne) : ∃ b, a.drive m.callbacks = (b, 0) ∧ b.Fresh ∧
      b.limits = a.limits ∧ b.completed = a.completed ++ [m.request] := by
  obtain ⟨hhead, hrefused, hrest⟩ := not_breaks_iff.mp h
  obtain ⟨d, hd, -, hlim, hcompleted, hurl, hheaders, hbody⟩ :=
    drive_parts_ok ha hhead hrefused hrest
  refine ⟨(d.onMessageComplete m.parser).1, ?_, ⟨rfl, rfl, rfl, rfl, rfl, rfl, rfl⟩, hlim, ?_⟩
  · rw [Message.callbacks, drive_append_ok hd]
    rfl
  · rw [onMessageComplete, hcompleted, hurl, hheaders, hbody]
    rfl

/-- One that does stops the parser, and no request comes of it. -/
theorem drive_message_failed {a : Acc} (ha : a.Fresh) {m : Message}
    (h : m.Breaks a.limits minorOne) : (a.drive m.callbacks).2 ≠ 0 ∧
      (a.drive m.callbacks).1.completed = a.completed := by
  have hfail := drive_parts_failed ha fun hfits => (not_breaks_iff.mpr hfits) h
  rw [Message.callbacks, drive_append_failed hfail]
  exact ⟨hfail, a.drive_parts_completed m⟩

/-! ## 6. Messages one behind the other -/

def stream (ms : List Message) : List Callback := ms.flatMap Message.callbacks

theorem drive_stream_ok {a : Acc} (ha : a.Fresh) {ms : List Message}
    (h : ∀ m ∈ ms, ¬ m.Breaks a.limits minorOne) : ∃ b, a.drive (stream ms) = (b, 0) ∧ b.Fresh ∧
      b.limits = a.limits ∧ b.completed = a.completed ++ ms.map Message.request := by
  induction ms generalizing a with
  | nil => exact ⟨a, rfl, ha, rfl, by simp⟩
  | cons m ms ih =>
    obtain ⟨b, hb, hfresh, hlim, hcompleted⟩ :=
      drive_message_ok ha (h m List.mem_cons_self)
    obtain ⟨c, hc, hfresh', hlim', hcompleted'⟩ := ih hfresh fun m' hm' => by
      rw [hlim]
      exact h m' (List.mem_cons_of_mem m hm')
    refine ⟨c, ?_, hfresh', hlim'.trans hlim, ?_⟩
    · rw [stream, List.flatMap_cons, drive_append_ok hb]
      exact hc
    · rw [hcompleted', hcompleted, List.map_cons, List.append_assoc, List.singleton_append]

theorem drive_stream_failed {a : Acc} (ha : a.Fresh) {ms : List Message} (later : List Message)
    {m : Message}
    (h : ∀ m ∈ ms, ¬ m.Breaks a.limits minorOne) (hm : m.Breaks a.limits minorOne) :
    (a.drive (stream (ms ++ m :: later))).2 ≠ 0 ∧
      (a.drive (stream (ms ++ m :: later))).1.completed =
        a.completed ++ ms.map Message.request := by
  obtain ⟨b, hb, hfresh, hlim, hcompleted⟩ := drive_stream_ok ha h
  obtain ⟨hfail, hsame⟩ := drive_message_failed hfresh (hlim ▸ hm)
  change a.drive (ms.flatMap Message.callbacks) = (b, 0) at hb
  rw [stream, List.flatMap_append, List.flatMap_cons, drive_append_ok hb,
    drive_append_failed hfail]
  exact ⟨hfail, hsame.trans hcompleted⟩

/-- The messages before the first that breaks a limit. -/
theorem split_at_break (lim : Limits) (ms : List Message) :
    (∀ m ∈ ms, ¬ m.Breaks lim minorOne) ∨
      ∃ good m later, ms = good ++ m :: later ∧ (∀ m ∈ good, ¬ m.Breaks lim minorOne) ∧
        m.Breaks lim minorOne := by
  induction ms with
  | nil => exact .inl (by simp)
  | cons m ms ih =>
    by_cases hm : m.Breaks lim minorOne
    · exact .inr ⟨[], m, ms, rfl, by simp, hm⟩
    · rcases ih with hall | ⟨good, m', later, rfl, hgood, hm'⟩
      · exact .inl (List.forall_mem_cons.mpr ⟨hm, hall⟩)
      · exact .inr ⟨m :: good, m', later, rfl, List.forall_mem_cons.mpr ⟨hm, hgood⟩, hm'⟩

end Acc

/-- However the spans are cut, messages that break no limit come out as the requests they stand for;
the parser is stopped by the first that does, and what completed before it is within the limits. -/
theorem requests_of_spans (lim : Limits) (ms : List Message) :
    let r := Acc.drive { limits := lim } (Acc.stream ms)
    (r.2 ≠ 0 ↔ ∃ m ∈ ms, m.Breaks lim Acc.minorOne) ∧
      (r.2 = 0 → r.1.completed = ms.map Message.request) ∧
      ∀ q ∈ r.1.completed, q.Within lim := by
  have hfresh := Acc.fresh_new lim
  have hwithin : ∀ good : List Message, (∀ m ∈ good, ¬ m.Breaks lim Acc.minorOne) →
      ∀ q ∈ good.map Message.request, q.Within lim := by
    intro good hgood q hq
    obtain ⟨m, hm, rfl⟩ := List.mem_map.mp hq
    exact Message.within (hgood m hm)
  rcases Acc.split_at_break lim ms with hall | ⟨good, m, later, rfl, hgood, hm⟩
  · obtain ⟨b, hb, -, -, hcompleted⟩ := Acc.drive_stream_ok hfresh hall
    rw [List.nil_append] at hcompleted
    rw [hb]
    refine ⟨⟨fun hne => absurd rfl hne, fun ⟨m, hm, hbreaks⟩ => absurd hbreaks (hall m hm)⟩,
      fun _ => hcompleted, ?_⟩
    rw [hcompleted]
    exact hwithin ms hall
  · obtain ⟨hfail, hcompleted⟩ := Acc.drive_stream_failed hfresh later hgood hm
    rw [List.nil_append] at hcompleted
    refine ⟨⟨fun _ => ⟨m, by simp, hm⟩, fun _ => hfail⟩, fun hok => absurd hok hfail, ?_⟩
    rw [hcompleted]
    exact hwithin good hgood

/-- A request of one that says HTTP/1.1. -/
def http11 (p : Llhttp) : Prop := p.httpMajor = 1 ∧ p.httpMinor = 1

/-- `GET / HTTP/0.9`, which the parser takes, and no header. -/
def http09 : Message where
  parser :=
    { method := "GET"
      httpMajor := 0
      httpMinor := 9
      upgrade := false
      shouldKeepAlive := false }
  url := [ascii "/"]
  headers := []
  body := []
  trailers := []

/-- It is refused for its `Host`, which only a 1.1 head owes. -/
theorem http09_refused : (Acc.drive { limits := {} } (Acc.stream [http09])).2 ≠ 0 ∧
    ¬ ∃ m ∈ [http09], m.Breaks {} http11 := by
  refine ⟨by decide, ?_⟩
  rintro ⟨m, hm, hbreaks⟩
  obtain rfl := List.mem_singleton.mp hm
  cases hbreaks with
  | url h => exact absurd h (by decide)
  | headerBytes h => exact absurd h (by decide)
  | headers i hi h => cases hi
  | host hneeds h => exact absurd hneeds.1 (by decide)
  | declared cap n hcap hn h => cases hn
  | received cap hcap h => cases h

end Cadeloop.Core.Http
