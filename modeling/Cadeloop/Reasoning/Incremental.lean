import Mathlib

/-!
# Incremental parsers — cutting a stream does not change what is read

A parser that reads one item off the front of what it has, asks for more when the item is not
all there, and may end the stream.  If an answer other than "more" never changes when bytes are
added behind it, then feeding a stream piece by piece, carrying the unread tail, reads exactly
what feeding it in one piece reads (`feedAll_eq_feed`).
-/

namespace Cadeloop.Reasoning

variable {σ α ε : Type*}

/-- One attempt at the front of the input: wait for more, take `n` elements and go on in a new
state, or end the stream. -/
inductive Parsed (σ ε : Type*) where
  | more
  | took (n : Nat) (s : σ) (events : List ε)
  | stop (s : σ) (events : List ε)

/-- A parser whose decided answers are stable under extension of its input. -/
structure Incremental (σ α ε : Type*) where
  parse : σ → List α → Parsed σ ε
  nil_more : ∀ s, parse s [] = .more
  took_pos : ∀ {s b n s' evs}, parse s b = .took n s' evs → 0 < n ∧ n ≤ b.length
  took_append : ∀ {s b n s' evs} (c : List α),
    parse s b = .took n s' evs → parse s (b ++ c) = .took n s' evs
  stop_append : ∀ {s b s' evs} (c : List α),
    parse s b = .stop s' evs → parse s (b ++ c) = .stop s' evs

/-- What scanning an input leaves: the events read, the parser state, the unread tail, and
whether the stream ended (then nothing is kept). -/
structure Scanned (σ α ε : Type*) where
  events : List ε
  state : σ
  rest : List α
  ended : Bool

/-- The same scan with earlier events in front. -/
def Scanned.behind (evs : List ε) (r : Scanned σ α ε) : Scanned σ α ε :=
  { r with events := evs ++ r.events }

theorem Scanned.behind_behind (evs evs' : List ε) (r : Scanned σ α ε) :
    (r.behind evs').behind evs = r.behind (evs ++ evs') := by
  simp only [behind, List.append_assoc]

namespace Incremental

variable (p : Incremental σ α ε)

/-- Read items off the front until one is incomplete or the stream ends. -/
def scan (s : σ) (b : List α) : Scanned σ α ε :=
  match _h : p.parse s b with
  | .more => ⟨[], s, b, false⟩
  | .stop s' evs => ⟨evs, s', [], true⟩
  | .took n s' evs => (scan s' (b.drop n)).behind evs
termination_by b.length
decreasing_by
  have := p.took_pos _h
  rw [List.length_drop]
  omega

theorem scan_more {s : σ} {b : List α} (h : p.parse s b = .more) :
    p.scan s b = ⟨[], s, b, false⟩ := by
  rw [scan]
  split <;> simp_all

theorem scan_stop {s s' : σ} {b : List α} {evs : List ε} (h : p.parse s b = .stop s' evs) :
    p.scan s b = ⟨evs, s', [], true⟩ := by
  rw [scan]
  split <;> simp_all

theorem scan_took {s s' : σ} {b : List α} {n : Nat} {evs : List ε}
    (h : p.parse s b = .took n s' evs) :
    p.scan s b = (p.scan s' (b.drop n)).behind evs := by
  rw [scan]
  split <;> simp_all

/-- Induction over the items a scan reads. -/
theorem scan_induction {motive : σ → List α → Prop}
    (more : ∀ s b, p.parse s b = .more → motive s b)
    (stop : ∀ s b s' evs, p.parse s b = .stop s' evs → motive s b)
    (took : ∀ s b n s' evs, p.parse s b = .took n s' evs → motive s' (b.drop n) → motive s b)
    (s : σ) (b : List α) : motive s b := by
  induction hn : b.length using Nat.strong_induction_on generalizing s b with
  | _ n ih =>
    cases h : p.parse s b with
    | more => exact more s b h
    | stop s' evs => exact stop s b s' evs h
    | took k s' evs =>
      have hk := p.took_pos h
      apply took s b k s' evs h
      exact ih (b.drop k).length (by rw [List.length_drop]; omega) s' (b.drop k) rfl

/-- What a scan leaves unread waits for more. -/
theorem scan_settled (s : σ) (b : List α) :
    (p.scan s b).ended = true ∨ p.parse (p.scan s b).state (p.scan s b).rest = .more := by
  induction s, b using p.scan_induction with
  | more s b h => rw [p.scan_more h]; exact .inr h
  | stop s b s' evs h => rw [p.scan_stop h]; exact .inl rfl
  | took s b n s' evs h ih => rw [p.scan_took h]; exact ih

theorem scan_rest_of_ended (s : σ) (b : List α) (h : (p.scan s b).ended = true) :
    (p.scan s b).rest = [] := by
  induction s, b using p.scan_induction with
  | more s b hp => rw [p.scan_more hp] at h; cases h
  | stop s b s' evs hp => rw [p.scan_stop hp]
  | took s b n s' evs hp ih => rw [p.scan_took hp] at h ⊢; exact ih h

/-- Once the stream has ended, what comes behind changes nothing. -/
theorem scan_append_of_ended (s : σ) (b c : List α) (h : (p.scan s b).ended = true) :
    p.scan s (b ++ c) = p.scan s b := by
  induction s, b using p.scan_induction with
  | more s b hp => rw [p.scan_more hp] at h; cases h
  | stop s b s' evs hp => rw [p.scan_stop hp, p.scan_stop (p.stop_append c hp)]
  | took s b n s' evs hp ih =>
    have hn := p.took_pos hp
    rw [p.scan_took hp] at h
    rw [p.scan_took hp, p.scan_took (p.took_append c hp),
      List.drop_append_of_le_length hn.2, ih h]

/-- Scanning `b ++ c` is scanning `b`, then scanning what it left followed by `c`. -/
theorem scan_append (s : σ) (b c : List α) (h : (p.scan s b).ended = false) :
    p.scan s (b ++ c) =
      (p.scan (p.scan s b).state ((p.scan s b).rest ++ c)).behind (p.scan s b).events := by
  induction s, b using p.scan_induction with
  | more s b hp => rw [p.scan_more hp]; rfl
  | stop s b s' evs hp => rw [p.scan_stop hp] at h; cases h
  | took s b n s' evs hp ih =>
    have hn := p.took_pos hp
    rw [p.scan_took hp] at h
    rw [p.scan_took (p.took_append c hp), List.drop_append_of_le_length hn.2, ih h,
      p.scan_took hp, Scanned.behind_behind]
    rfl

/-- What every item keeps of the state, and says of its events, a scan keeps and says. -/
theorem scan_invariant {I : σ → Prop} {E : ε → Prop}
    (htook : ∀ s b n s' evs, I s → p.parse s b = .took n s' evs → I s' ∧ ∀ ev ∈ evs, E ev)
    (hstop : ∀ s b s' evs, I s → p.parse s b = .stop s' evs → I s' ∧ ∀ ev ∈ evs, E ev)
    (s : σ) (b : List α) (hs : I s) :
    I (p.scan s b).state ∧ ∀ ev ∈ (p.scan s b).events, E ev := by
  induction s, b using p.scan_induction with
  | more s b h => rw [p.scan_more h]; exact ⟨hs, by simp⟩
  | stop s b s' evs h => rw [p.scan_stop h]; exact hstop s b s' evs hs h
  | took s b n s' evs h ih =>
    have hstep := htook s b n s' evs hs h
    have hrest := ih hstep.1
    rw [p.scan_took h]
    refine ⟨hrest.1, fun ev hev => ?_⟩
    rcases List.mem_append.mp hev with hev | hev
    · exact hstep.2 ev hev
    · exact hrest.2 ev hev

/-- If only what stops the stream emits a final event, and nothing behind it, then a scan emits
one exactly when it ends, as its last event. -/
theorem scan_last (last : ε → Prop)
    (htook : ∀ s b n s' evs, p.parse s b = .took n s' evs → ∀ ev ∈ evs, ¬ last ev)
    (hstop : ∀ s b s' evs, p.parse s b = .stop s' evs → ∃ ev, evs = [ev] ∧ last ev)
    (s : σ) (b : List α) :
    ∃ pre fin, (p.scan s b).events = pre ++ fin ∧ (∀ ev ∈ pre, ¬ last ev) ∧
      if (p.scan s b).ended then ∃ ev, fin = [ev] ∧ last ev else fin = [] := by
  induction s, b using p.scan_induction with
  | more s b h => rw [p.scan_more h]; exact ⟨[], [], rfl, by simp, rfl⟩
  | stop s b s' evs h =>
    rw [p.scan_stop h]
    exact ⟨[], evs, rfl, by simp, by simpa using hstop s b s' evs h⟩
  | took s b n s' evs h ih =>
    obtain ⟨pre, fin, heq, hpre, hfin⟩ := ih
    rw [p.scan_took h]
    refine ⟨evs ++ pre, fin, ?_, fun ev hev => ?_, hfin⟩
    · rw [Scanned.behind, heq, List.append_assoc]
    · rcases List.mem_append.mp hev with hev | hev
      · exact htook s b n s' evs h ev hev
      · exact hpre ev hev

/-! ## Reading known input

`p.Reads s b evs s'`: whatever follows, `b` is read whole, with these events, into `s'`. -/

def Reads (s : σ) (b : List α) (evs : List ε) (s' : σ) : Prop :=
  ∀ rest, p.scan s (b ++ rest) = (p.scan s' rest).behind evs

theorem reads_nil (s : σ) : p.Reads s [] [] s := fun _ => rfl

theorem Reads.append {s s' s'' : σ} {b c : List α} {evs evs' : List ε}
    (h : p.Reads s b evs s') (h' : p.Reads s' c evs' s'') :
    p.Reads s (b ++ c) (evs ++ evs') s'' := by
  intro rest
  rw [List.append_assoc, h, h', Scanned.behind_behind]

/-- An item taken whole is read, whatever follows it. -/
theorem of_took {s s' : σ} {b : List α} {evs : List ε}
    (h : p.parse s b = .took b.length s' evs) : p.Reads s b evs s' := by
  intro rest
  rw [p.scan_took (p.took_append rest h), List.drop_left]

theorem Reads.scan_eq {s s' : σ} {b : List α} {evs : List ε} (h : p.Reads s b evs s') :
    p.scan s b = ⟨evs, s', [], false⟩ := by
  have hb := h []
  rw [List.append_nil, p.scan_more (p.nil_more s')] at hb
  rw [hb, Scanned.behind, List.append_nil]

/-- Known input, then one that stops the stream. -/
theorem Reads.scan_stop {s s' s'' : σ} {b c : List α} {evs evs' : List ε}
    (h : p.Reads s b evs s') (hc : p.parse s' c = .stop s'' evs') :
    p.scan s (b ++ c) = ⟨evs ++ evs', s'', [], true⟩ := by
  rw [h, p.scan_stop hc]
  rfl

/-! ## Receivers: a parser with a carried tail -/

/-- A parser between two reads. -/
structure Receiver (σ α : Type*) where
  state : σ
  tail : List α
  ended : Bool

/-- A read: scan the tail and the new data, keep what is left unread. -/
def feed (r : Receiver σ α) (data : List α) : List ε × Receiver σ α :=
  if r.ended then ([], r)
  else
    let q := p.scan r.state (r.tail ++ data)
    (q.events, ⟨q.state, q.rest, q.ended⟩)

def feedAll (r : Receiver σ α) : List (List α) → List ε × Receiver σ α
  | [] => ([], r)
  | data :: rest =>
    let q := p.feed r data
    let t := feedAll q.2 rest
    (q.1 ++ t.1, t.2)

/-- A receiver that holds no complete item. -/
def Settled (r : Receiver σ α) : Prop :=
  r.ended = true ∨ p.parse r.state r.tail = .more

theorem feed_settled (r : Receiver σ α) (data : List α) : p.Settled (p.feed r data).2 := by
  unfold feed
  split
  · exact .inl ‹_›
  · exact p.scan_settled _ _

theorem feed_nil (r : Receiver σ α) (h : p.Settled r) : p.feed r [] = ([], r) := by
  unfold feed
  split
  · rfl
  · rename_i he
    have hmore := h.resolve_left he
    rw [List.append_nil, p.scan_more hmore]
    simp only [Bool.not_eq_true] at he
    rw [← he]

/-- Two reads are one read of both. -/
theorem feed_feed (r : Receiver σ α) (a b : List α) :
    ((p.feed r a).1 ++ (p.feed (p.feed r a).2 b).1, (p.feed (p.feed r a).2 b).2) =
      p.feed r (a ++ b) := by
  by_cases he : r.ended = true
  · simp only [feed, if_pos he, List.append_nil]
  · by_cases hs : (p.scan r.state (r.tail ++ a)).ended = true
    · simp only [feed, if_neg he, if_pos hs, List.append_nil]
      rw [← List.append_assoc, p.scan_append_of_ended _ _ _ hs]
    · have happ := p.scan_append r.state (r.tail ++ a) b (by simpa using hs)
      simp only [feed, if_neg he, if_neg hs, ← List.append_assoc, happ, Scanned.behind]

/-- **Cutting a stream does not change what is read.** -/
theorem feedAll_eq_feed (r : Receiver σ α) (h : p.Settled r) (chunks : List (List α)) :
    p.feedAll r chunks = p.feed r chunks.flatten := by
  induction chunks generalizing r with
  | nil => rw [List.flatten_nil, p.feed_nil r h]; rfl
  | cons data rest ih =>
    rw [List.flatten_cons, ← p.feed_feed, feedAll, ih _ (p.feed_settled r data)]

end Incremental

end Cadeloop.Reasoning
