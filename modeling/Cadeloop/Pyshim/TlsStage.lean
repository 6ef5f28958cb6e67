import Cadeloop.Reasoning.Machine

/-!
# Staged plaintext of a TLS connection (`http.rs`, `net.rs`)

Responses are staged as plaintext, and a `TlsFlush` event has the stage encrypted.  The flush takes
the stage out of the state cell and writes it outside, where more may be staged behind it, so it is
a few steps here: `flush` (or `ingest`, or the handshake's end) takes the stage, each answer of
`SSLObject.write` is a step, and so is each return to the cell.  The last fields of the state are a
record of the run, which no operation reads.
-/

namespace Cadeloop.Pyshim.TlsStage

open Cadeloop.Reasoning

variable {α : Type*}

/-! ## 1. The connection -/

/-- A `tls_flush_conn` outside the cell. -/
inductive Flight (α : Type*) where
  -- the plaintext it has in hand, and whether it took a deferred close
  | writing (remaining : List α) (closeAfter : Bool)
  -- its close has gone through `tls_send_close_notify`
  | closing

/-- The fields of `TlsState`, `entry.closing`, and the `TlsFlush` events queued. -/
structure State (α : Type*) where
  handshaking : Bool
  staged : List α
  closeAfter : Bool
  shutdownSent : Bool
  closing : Bool
  flushes : Nat
  flight : Option (Flight α)
  -- the record: whether the last write asked for the peer, all plaintext, what was written of it,
  -- how much there was at each call to close, and how much was written at each `close_notify`
  asked : Bool
  enqueued : List α
  consumed : List α
  calls : List Nat
  notifies : List Nat

def init : State α where
  handshaking := true
  staged := []
  closeAfter := false
  shutdownSent := false
  closing := false
  flushes := 0
  flight := none
  asked := false
  enqueued := []
  consumed := []
  calls := []
  notifies := []

/-- What a flush has in hand. -/
def State.inHand (s : State α) : List α :=
  match s.flight with
  | some (.writing remaining _) => remaining
  | _ => []

/-- `http_enqueue` -/
def httpEnqueue (data : List α) (s : State α) : State α :=
  if data.isEmpty then s
  else
    { s with
      staged := s.staged ++ data
      flushes := if s.staged.isEmpty then s.flushes + 1 else s.flushes
      enqueued := s.enqueued ++ data }

/-- `http_close_after_write`, as far as the shutdown of the socket, on a connection not lost. -/
def httpCloseAfterWrite (s : State α) : State α :=
  if !s.staged.isEmpty then { s with closeAfter := true }
  else if !s.closing && !s.shutdownSent then
    { s with closeAfter := true, flushes := s.flushes + 1 }
  else if s.closing then s
  else { s with closing := true }

/-- The start of `tls_flush_conn`; while the handshake runs the stage is put back. -/
def takeStage (s : State α) : State α :=
  if s.handshaking then s
  else { s with staged := [], flight := some (.writing s.staged s.closeAfter) }

/-- `SSLObject.write` consumed some of the plaintext it was given. -/
def wrote (n : Nat) (s : State α) : State α :=
  match s.flight with
  | some (.writing remaining closeAfter) =>
    if n = 0 ∨ remaining.isEmpty then s
    else
      { s with
        flight := some (.writing (remaining.drop n) closeAfter)
        asked := false
        consumed := s.consumed ++ remaining.take n }
  | _ => s

/-- It raised want-read or want-write, and the rest is staged again, in front. -/
def wants (s : State α) : State α :=
  match s.flight with
  | some (.writing remaining _) =>
    if remaining.isEmpty then s
    else { s with staged := remaining ++ s.staged, flight := none, asked := true }
  | _ => s

/-- `tls_send_close_notify`; not twice. -/
def sendCloseNotify (s : State α) : State α :=
  if s.shutdownSent then s
  else { s with shutdownSent := true, notifies := s.notifies ++ [s.consumed.length] }

/-- Nothing is left in hand. -/
def written (s : State α) : State α :=
  match s.flight with
  | some (.writing [] closeAfter) =>
    if closeAfter then { sendCloseNotify s with flight := some .closing }
    else { s with flight := none }
  | _ => s

/-- The end of a flush that closes. -/
def closed (s : State α) : State α :=
  match s.flight with
  | some .closing => httpCloseAfterWrite { s with closeAfter := false, flight := none }
  | _ => s

/-! ## 2. The machine -/

inductive Input (α : Type*) where
  | enqueue (data : List α)
  -- the response is over, the peer sent its own `close_notify`, ...
  | close
  -- a `TlsFlush` is dispatched
  | flush
  -- ciphertext came and was read: `tls_ingest` tries again what is staged
  | ingest
  | handshakeDone
  | wrote (n : Nat)
  | wants
  | written
  | closed

/-- Flushes do not overlap: the dispatch of an event ends before the next. -/
def step (s : State α) : Input α → State α
  | .enqueue data => httpEnqueue data s
  | .close =>
    httpCloseAfterWrite
      { s with calls := if s.closing then s.calls else s.calls ++ [s.enqueued.length] }
  | .flush =>
    if s.flight.isNone ∧ 0 < s.flushes then takeStage { s with flushes := s.flushes - 1 } else s
  | .ingest => if s.flight.isNone ∧ !s.staged.isEmpty then takeStage s else s
  | .handshakeDone =>
    if s.flight.isNone ∧ s.handshaking then
      if s.staged.isEmpty then { s with handshaking := false }
      else takeStage { s with handshaking := false }
    else s
  | .wrote n => wrote n s
  | .wants => wants s
  | .written => written s
  | .closed => closed s

def machine (α : Type*) : Machine (State α) (Input α) where
  init := init
  step := step

/-! ## 3. One step -/

structure Sound (s : State α) : Prop where
  -- no byte is lost, and none changes its place
  split : s.enqueued = s.consumed ++ s.inHand ++ s.staged
  scheduled : s.staged ≠ [] → s.handshaking = true ∨ 0 < s.flushes ∨
    (s.asked = true ∧ s.flight = none)
  notified : if s.shutdownSent then ∃ k, s.notifies = [k] ∧ k ≤ s.consumed.length
    else s.notifies = []
  closing : s.closing = true → s.shutdownSent = true

/-- The calls to close are behind what they wait for. -/
structure Patient (s : State α) : Prop where
  sound : Sound s
  calls : ∀ n ∈ s.calls, n ≤ s.enqueued.length
  notifies : ∀ k ∈ s.notifies, ∀ n ∈ s.calls, n ≤ k
  flight : ∀ remaining, s.flight = some (.writing remaining true) → s.shutdownSent = false →
    ∀ n ∈ s.calls, n ≤ s.consumed.length + remaining.length

variable {s : State α}

theorem init_sound : Sound (init : State α) := by
  constructor <;> simp [init, State.inHand]

theorem httpEnqueue_sound (hs : Sound s) (data : List α) : Sound (httpEnqueue data s) := by
  unfold httpEnqueue
  split
  · exact hs
  · refine ⟨?_, fun _ => ?_, hs.notified, hs.closing⟩
    · have hsplit := hs.split
      simp only [State.inHand] at hsplit ⊢
      rw [hsplit]
      simp [List.append_assoc]
    · by_cases hstaged : s.staged = []
      · simp [hstaged]
      · simpa [hstaged] using hs.scheduled hstaged

/-- A change of the fields that say when the connection closes. -/
theorem httpCloseAfterWrite_sound (hs : Sound s) : Sound (httpCloseAfterWrite s) := by
  unfold httpCloseAfterWrite
  split
  · exact ⟨hs.split, hs.scheduled, hs.notified, hs.closing⟩
  · split
    · exact ⟨hs.split, fun _ => .inr (.inl (Nat.succ_pos _)), hs.notified, hs.closing⟩
    · split
      · exact hs
      · rename_i hstaged hsent hopen
        refine ⟨hs.split, hs.scheduled, hs.notified, fun _ => ?_⟩
        simpa [hopen] using hsent

theorem takeStage_sound (hs : Sound s) (hflight : s.flight = none) : Sound (takeStage s) := by
  unfold takeStage
  split
  · exact hs
  · refine ⟨?_, fun h => absurd rfl h, hs.notified, hs.closing⟩
    have hsplit := hs.split
    simp only [State.inHand, hflight] at hsplit ⊢
    simpa using hsplit

theorem wrote_sound (hs : Sound s) (n : Nat) : Sound (wrote n s) := by
  unfold wrote
  cases hflight : s.flight with
  | none => exact hs
  | some flight =>
    cases flight with
    | closing => exact hs
    | writing remaining closeAfter =>
      dsimp only
      split
      · exact hs
      · refine ⟨?_, fun hstaged => ?_, ?_, hs.closing⟩
        · have hsplit := hs.split
          simp only [State.inHand, hflight] at hsplit ⊢
          rw [hsplit, List.append_assoc s.consumed (remaining.take n), List.take_append_drop]
        · have hscheduled := hs.scheduled hstaged
          simpa [hflight] using hscheduled
        · have hnotified := hs.notified
          dsimp only
          split
          · rename_i hsent
            rw [if_pos hsent] at hnotified
            obtain ⟨k, hk, hle⟩ := hnotified
            refine ⟨k, hk, ?_⟩
            rw [List.length_append]
            omega
          · rename_i hsent
            rwa [if_neg hsent] at hnotified

theorem wants_sound (hs : Sound s) : Sound (wants s) := by
  unfold wants
  cases hflight : s.flight with
  | none => exact hs
  | some flight =>
    cases flight with
    | closing => exact hs
    | writing remaining closeAfter =>
      dsimp only
      split
      · exact hs
      · refine ⟨?_, fun _ => .inr (.inr ⟨rfl, rfl⟩), hs.notified, hs.closing⟩
        have hsplit := hs.split
        simp only [State.inHand, hflight] at hsplit ⊢
        simpa using hsplit

theorem sendCloseNotify_sound (hs : Sound s) : Sound (sendCloseNotify s) := by
  unfold sendCloseNotify
  split
  · exact hs
  · rename_i hsent
    have hnotified := hs.notified
    rw [if_neg hsent] at hnotified
    refine ⟨hs.split, hs.scheduled, ?_, fun _ => rfl⟩
    simp [hnotified]

/-- A flush that has nothing in hand leaves the cell as it is. -/
theorem landed_sound (hs : Sound s) (hhand : s.inHand = []) {flight : Option (Flight α)}
    (hsome : s.flight ≠ none) (hempty : ({ s with flight := flight } : State α).inHand = []) :
    Sound { s with flight := flight } := by
  refine ⟨?_, fun hstaged => ?_, hs.notified, hs.closing⟩
  · rw [hempty, ← hhand]
    exact hs.split
  · rcases hs.scheduled hstaged with h | h | h
    · exact .inl h
    · exact .inr (.inl h)
    · exact absurd h.2 hsome

theorem written_sound (hs : Sound s) : Sound (written s) := by
  unfold written
  split
  · rename_i closeAfter hflight
    have hhand : s.inHand = [] := by simp [State.inHand, hflight]
    split
    · have hsent : (sendCloseNotify s).flight = s.flight := by
        unfold sendCloseNotify
        split <;> rfl
      apply landed_sound (sendCloseNotify_sound hs)
      · simp [State.inHand, hsent, hflight]
      · simp [hsent, hflight]
      · rfl
    · exact landed_sound hs hhand (by simp [hflight]) rfl
  · exact hs

theorem closed_sound (hs : Sound s) : Sound (closed s) := by
  unfold closed
  split
  · rename_i hflight
    apply httpCloseAfterWrite_sound
    have hlanded : Sound { s with flight := none } :=
      landed_sound hs (by simp [State.inHand, hflight]) (by simp [hflight]) rfl
    exact ⟨hlanded.split, hlanded.scheduled, hlanded.notified, hlanded.closing⟩
  · exact hs

theorem step_sound (hs : Sound s) (i : Input α) : Sound (step s i) := by
  cases i with
  | enqueue data => exact httpEnqueue_sound hs data
  | close =>
    apply httpCloseAfterWrite_sound
    exact ⟨hs.split, hs.scheduled, hs.notified, hs.closing⟩
  | flush =>
    unfold step
    dsimp only
    split
    · rename_i h
      have hflight : s.flight = none := by simpa using h.1
      unfold takeStage
      dsimp only
      split
      · rename_i hshaking
        exact ⟨hs.split, fun _ => .inl hshaking, hs.notified, hs.closing⟩
      · refine ⟨?_, fun h => absurd rfl h, hs.notified, hs.closing⟩
        have hsplit := hs.split
        simp only [State.inHand, hflight] at hsplit ⊢
        simpa using hsplit
    · exact hs
  | ingest =>
    unfold step
    dsimp only
    split
    · rename_i h
      exact takeStage_sound hs (by simpa using h.1)
    · exact hs
  | handshakeDone =>
    unfold step
    dsimp only
    split
    · rename_i h
      have hflight : s.flight = none := by simpa using h.1
      split
      · rename_i hstaged
        exact ⟨hs.split, fun h => absurd (by simpa using hstaged) h, hs.notified, hs.closing⟩
      · refine ⟨?_, fun h => absurd rfl h, hs.notified, hs.closing⟩
        have hsplit := hs.split
        simp only [takeStage, State.inHand, hflight] at hsplit ⊢
        simpa using hsplit
    · exact hs
  | wrote n => exact wrote_sound hs n
  | wants => exact wants_sound hs
  | written => exact written_sound hs
  | closed => exact closed_sound hs

/-! ## 4. Calls to close -/

/-- A call to close is in time: nothing was staged behind a flush that took an earlier one, and
    nothing since its `close_notify`. -/
def InTime (s : State α) : Input α → Prop
  | .close => s.closing = true ∨
      (∀ remaining, s.flight = some (.writing remaining true) → s.staged = []) ∧
        ∀ k ∈ s.notifies, s.enqueued.length ≤ k
  | _ => True

theorem init_patient : Patient (init : State α) := by
  refine ⟨init_sound, ?_, ?_, ?_⟩ <;> simp [init]

theorem httpCloseAfterWrite_patient (hs : Patient s) : Patient (httpCloseAfterWrite s) := by
  have hsound := httpCloseAfterWrite_sound hs.sound
  refine ⟨hsound, ?_, ?_, ?_⟩ <;> unfold httpCloseAfterWrite
  · split
    · exact hs.calls
    · split
      · exact hs.calls
      · split <;> exact hs.calls
  · split
    · exact hs.notifies
    · split
      · exact hs.notifies
      · split <;> exact hs.notifies
  · split
    · exact hs.flight
    · split
      · exact hs.flight
      · split <;> exact hs.flight

/-- A flush starts with all that was enqueued in hand. -/
theorem started_patient {s' : State α} (hs : Patient s) (hsound : Sound s')
    (henqueued : s'.enqueued = s.enqueued) (hcalls : s'.calls = s.calls)
    (hnotifies : s'.notifies = s.notifies)
    (hflight : ∀ remaining, s'.flight = some (.writing remaining true) → s'.staged = []) :
    Patient s' where
  sound := hsound
  calls := by
    rw [hcalls, henqueued]
    exact hs.calls
  notifies := by
    rw [hcalls, hnotifies]
    exact hs.notifies
  flight remaining hwriting _ n hn := by
    have hsplit := hsound.split
    rw [hflight remaining hwriting, List.append_nil] at hsplit
    have hle := hs.calls n (hcalls ▸ hn)
    rw [← henqueued, hsplit, List.length_append] at hle
    simpa [State.inHand, hwriting] using hle

theorem takeStage_staged (s : State α) (hflight : s.flight = none) (remaining : List α)
    (hwriting : (takeStage s).flight = some (.writing remaining true)) : (takeStage s).staged = [] := by
  unfold takeStage at hwriting ⊢
  split
  · rename_i hshaking
    rw [if_pos hshaking, hflight] at hwriting
    cases hwriting
  · rfl

theorem takeStage_record (s : State α) : (takeStage s).enqueued = s.enqueued ∧
    (takeStage s).calls = s.calls ∧ (takeStage s).notifies = s.notifies := by
  unfold takeStage
  split <;> exact ⟨rfl, rfl, rfl⟩

theorem wrote_patient (hs : Patient s) (n : Nat) : Patient (wrote n s) := by
  have hsound := wrote_sound hs.sound n
  unfold wrote at hsound ⊢
  cases hflight : s.flight with
  | none => exact hs
  | some flight =>
    cases flight with
    | closing => exact hs
    | writing remaining closeAfter =>
      rw [hflight] at hsound
      dsimp only at hsound ⊢
      split
      · exact hs
      · rename_i hsome
        rw [if_neg hsome] at hsound
        refine ⟨hsound, hs.calls, hs.notifies, ?_⟩
        rintro rest hrest hsent m hm
        obtain ⟨rfl, rfl⟩ : remaining.drop n = rest ∧ closeAfter = true := by simpa using hrest
        have hle := hs.flight remaining hflight hsent m hm
        rw [List.length_append, List.length_take, List.length_drop]
        omega

theorem written_patient (hs : Patient s) : Patient (written s) := by
  have hsound := written_sound hs.sound
  unfold written at hsound ⊢
  split
  · rename_i closeAfter hflight
    rw [hflight] at hsound
    dsimp only at hsound
    cases closeAfter with
    | false => exact ⟨hsound, hs.calls, hs.notifies, fun _ h => by cases h⟩
    | true =>
      rw [if_pos rfl] at hsound ⊢
      refine ⟨hsound, ?_, ?_, fun _ h => by cases h⟩
      · unfold sendCloseNotify
        split <;> exact hs.calls
      · intro k hk n hn
        unfold sendCloseNotify at hk hn
        split at hk
        · rename_i hsent
          rw [if_pos hsent] at hn
          exact hs.notifies k hk n hn
        · -- nothing that a call waits for was left
          rename_i hsent
          rw [if_neg hsent] at hn
          have hle := hs.flight [] hflight (by simpa using hsent) n hn
          rcases List.mem_append.mp hk with hk | hk
          · exact hs.notifies k hk n hn
          · rw [List.mem_singleton.mp hk]
            exact hle
  · exact hs

theorem step_patient (i : Input α) (hs : Patient s) (htime : InTime s i) : Patient (step s i) := by
  have hsound := step_sound hs.sound i
  cases i with
  | enqueue data =>
    have hgrow : s.enqueued.length ≤ (httpEnqueue data s).enqueued.length := by
      unfold httpEnqueue
      split
      · exact le_rfl
      · simp
    have hcalls : (httpEnqueue data s).calls = s.calls := by
      unfold httpEnqueue
      split <;> rfl
    refine ⟨hsound, fun n hn => ?_, ?_, ?_⟩
    · exact (hs.calls n (hcalls ▸ hn)).trans hgrow
    · unfold step httpEnqueue
      dsimp only
      split <;> exact hs.notifies
    · unfold step httpEnqueue
      dsimp only
      split <;> exact hs.flight
  | close =>
    apply httpCloseAfterWrite_patient
    have hcalled : Sound { s with
        calls := if s.closing then s.calls else s.calls ++ [s.enqueued.length] } :=
      ⟨hs.sound.split, hs.sound.scheduled, hs.sound.notified, hs.sound.closing⟩
    by_cases hclosing : s.closing = true
    · rw [if_pos hclosing] at hcalled ⊢
      exact ⟨hcalled, hs.calls, hs.notifies, hs.flight⟩
    · rw [if_neg hclosing] at hcalled ⊢
      obtain ⟨hbehind, hsince⟩ := htime.resolve_left hclosing
      refine ⟨hcalled, fun n hn => ?_, fun k hk n hn => ?_, fun remaining hflight hsent n hn => ?_⟩
      · rcases List.mem_append.mp hn with hn | hn
        · exact hs.calls n hn
        · rw [List.mem_singleton.mp hn]
      · rcases List.mem_append.mp hn with hn | hn
        · exact hs.notifies k hk n hn
        · rw [List.mem_singleton.mp hn]
          exact hsince k hk
      · have hwriting : s.flight = some (.writing remaining true) := hflight
        rcases List.mem_append.mp hn with hn | hn
        · exact hs.flight remaining hwriting hsent n hn
        · -- all that was enqueued is in hand
          have hsplit := hs.sound.split
          rw [hbehind remaining hwriting, List.append_nil] at hsplit
          rw [List.mem_singleton.mp hn, hsplit, List.length_append]
          simp [State.inHand, hwriting]
  | flush =>
    unfold step at hsound ⊢
    dsimp only at hsound ⊢
    split
    · rename_i h
      rw [if_pos h] at hsound
      obtain ⟨henqueued, hcalls, hnotifies⟩ := takeStage_record { s with flushes := s.flushes - 1 }
      exact started_patient hs hsound henqueued hcalls hnotifies
        (takeStage_staged _ (by simpa using h.1))
    · exact hs
  | ingest =>
    unfold step at hsound ⊢
    dsimp only at hsound ⊢
    split
    · rename_i h
      rw [if_pos h] at hsound
      obtain ⟨henqueued, hcalls, hnotifies⟩ := takeStage_record s
      exact started_patient hs hsound henqueued hcalls hnotifies
        (takeStage_staged s (by simpa using h.1))
    · exact hs
  | handshakeDone =>
    unfold step at hsound ⊢
    dsimp only at hsound ⊢
    split
    · rename_i h
      rw [if_pos h] at hsound
      have hflight : s.flight = none := by simpa using h.1
      split
      · rename_i hstaged
        rw [if_pos hstaged] at hsound
        exact ⟨hsound, hs.calls, hs.notifies, hs.flight⟩
      · rename_i hstaged
        rw [if_neg hstaged] at hsound
        obtain ⟨henqueued, hcalls, hnotifies⟩ := takeStage_record { s with handshaking := false }
        exact started_patient hs hsound henqueued hcalls hnotifies (takeStage_staged _ hflight)
    · exact hs
  | wrote n => exact wrote_patient hs n
  | wants =>
    unfold step wants at hsound ⊢
    cases hflight : s.flight with
    | none => exact hs
    | some flight =>
      cases flight with
      | closing => exact hs
      | writing remaining closeAfter =>
        simp only [hflight] at hsound ⊢
        split
        · exact hs
        · rename_i hsome
          rw [if_neg hsome] at hsound
          exact ⟨hsound, hs.calls, hs.notifies, fun _ h => by cases h⟩
  | written => exact written_patient hs
  | closed =>
    unfold step closed
    dsimp only
    split
    · rename_i hflight
      have hlanded : Sound { s with flight := none } :=
        landed_sound hs.sound (by simp [State.inHand, hflight]) (by simp [hflight]) rfl
      apply httpCloseAfterWrite_patient
      exact ⟨⟨hlanded.split, hlanded.scheduled, hlanded.notified, hlanded.closing⟩, hs.calls,
        hs.notifies, fun _ h => by cases h⟩
    · exact hs

/-! ## 5. Whole runs -/

/-- Nothing is lost, and the connection closes in order. -/
structure Orderly (s : State α) : Prop where
  /-- What was written is what was enqueued first; the rest is in hand of the flush outside the
      cell, if there is one, and staged behind that. -/
  split : s.enqueued = s.consumed ++ s.inHand ++ s.staged
  /-- What is staged will be taken. -/
  scheduled : s.staged ≠ [] → s.handshaking = false → 0 < s.flushes ∨ s.asked = true
  /-- All that was enqueued before a call to close was written before the connection closes, -/
  closing : s.closing = true → ∀ n ∈ s.calls, n ≤ s.consumed.length
  /-- and before the `close_notify`, which comes before the closing and once. -/
  notified : ∀ k ∈ s.notifies, k ≤ s.consumed.length ∧ ∀ n ∈ s.calls, n ≤ k
  first : s.closing = true → s.notifies ≠ []
  once : s.notifies.length ≤ 1

theorem Patient.orderly (hs : Patient s) : Orderly s := by
  have hnotified := hs.sound.notified
  have hclosing (h : s.closing = true) : ∃ k, s.notifies = [k] ∧ k ≤ s.consumed.length := by
    rwa [if_pos (hs.sound.closing h)] at hnotified
  refine ⟨hs.sound.split, fun hstaged hdone => ?_, fun h n hn => ?_, fun k hk => ?_, fun h => ?_, ?_⟩
  · rcases hs.sound.scheduled hstaged with h | h | h
    · rw [hdone] at h
      cases h
    · exact .inl h
    · exact .inr h.1
  · obtain ⟨k, hk, hle⟩ := hclosing h
    exact (hs.notifies k (by simp [hk]) n hn).trans hle
  · refine ⟨?_, hs.notifies k hk⟩
    split at hnotified
    · obtain ⟨k', hk', hle⟩ := hnotified
      rw [hk', List.mem_singleton] at hk
      exact hk ▸ hle
    · rw [hnotified] at hk
      cases hk
  · obtain ⟨k, hk, -⟩ := hclosing h
    simp [hk]
  · split at hnotified
    · obtain ⟨k, hk, -⟩ := hnotified
      simp [hk]
    · simp [hnotified]

/-- Every run whose calls to close are in time is in order. -/
theorem staging_orderly (is : List (Input α)) (htime : (machine α).Along InTime is) :
    Orderly ((machine α).run is) := by
  have hpatient := (machine α).run_invariant_along init_patient
    (fun s i hs htime => step_patient i hs htime) is htime
  exact hpatient.orderly

theorem staging_orderly_response : Orderly ((machine Nat).run [.enqueue [1], .close]) := by
  apply staging_orderly
  have hcalled : InTime ((machine Nat).run [.enqueue [1]]) .close :=
    .inr ⟨(fun _ h => by cases h), (fun _ h => by cases h)⟩
  exact (Machine.along_concat _).mpr ⟨(Machine.along_singleton _).mpr trivial, hcalled⟩

/-- A flush takes `[1]` and the deferred close; `[2]` is staged behind it, and then the connection is
    asked to close again.  The `close_notify` goes out before `[2]`. -/
theorem close_notify_before_plaintext :
    ¬ Orderly ((machine Nat).run
      [.enqueue [1], .close, .handshakeDone, .enqueue [2], .close, .wrote 1, .written]) := by
  intro h
  have hle := (h.notified 1 (by decide)).2 2 (by decide)
  omega

end Cadeloop.Pyshim.TlsStage
