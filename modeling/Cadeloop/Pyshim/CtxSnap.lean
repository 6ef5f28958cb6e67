import Cadeloop.Reasoning.Machine

/-!
# Context snapshots (`crates/pyshim/src/ctxsnap.rs`, `handles.rs`)

A `contextvars.Context` is a mutable reference to an immutable map of variables.  A callback
scheduled without a context keeps a snapshot that is never entered, and it runs in a scratch context
with the snapshot's variables; the scratch is kept for the next callback where nothing shows it.
Objects are numbered: contexts as they are made, maps by their address, which a later map may have
again.  A reference count is the number of holders in `refs`.
-/

namespace Cadeloop.Pyshim.CtxSnap

open Cadeloop.Reasoning

variable {V A : Type*}

/-! ## 1. Contexts -/

/-- What the checks at import found: nothing usable, the `PyContext` layout, or the thread state's
    as well. -/
inductive Layout where
  | unusable
  | contexts
  | threadState
  deriving DecidableEq

def Layout.layoutOk (l : Layout) : Bool := l ≠ .unusable

def Layout.tstateOk (l : Layout) : Bool := l = .threadState

/-- The variables and their values; beside each value, for the record, the callback that set it. -/
abbrev Mapping (V A : Type*) := Finmap fun _ : V => A × Nat

/-- The callbacks whose values a mapping holds. -/
def writers (m : Mapping V A) : Finset Nat := (m.entries.map fun binding => binding.2.2).toFinset

/-- The map after a variable is set, or reset to nothing. -/
def assigned [DecidableEq V] (m : Mapping V A) (v : V) (x : Option A) (callback : Nat) : Mapping V A :=
  match x with
  | some x => m.insert v (x, callback)
  | none => m.erase v

/-- An entered context.  For the record: the callback that entered it, and the callbacks that led to
    what it holds. -/
structure Frame where
  ctx : Nat
  callback : Nat
  lineage : Finset Nat

/-- A pending callback.  For the record: whether it was given a context, what was current when it was
    scheduled, and the callbacks that led there. -/
structure Handle (V A : Type*) where
  context : Nat
  snapshot : Bool
  given : Bool
  wanted : Mapping V A
  lineage : Finset Nat

/-- The dispatch under way: the context it owns a reference to, and the handle's own reference,
    which a cancellation drops. -/
structure Running where
  ctx : Nat
  fresh : Bool
  context : Option Nat

/-- The interpreter's contexts, the loop's snapshot (`SnapCache`), the scratch (`Scratch`: `ctx` and
    `vars`), and who holds what. -/
structure State (V A : Type*) where
  maps : Nat → Mapping V A
  varsOf : Nat → Nat
  nextCtx : Nat
  entered : List Frame
  -- what the program keeps: tokens, copies, the contexts it ran in
  held : List Nat
  slot : Option Nat
  scratch : Option Nat
  scratchVars : Option Nat
  pending : List (Handle V A)
  running : Option Running
  nextCallback : Nat

/-- The one empty map. -/
def emptyVars : Nat := 0

/-- A context with no variables that nothing ever enters. -/
def emptySnapshot : Nat := 0

-- code outside every callback is callback 0
def init : State V A where
  maps := fun _ => ∅
  varsOf := fun _ => emptyVars
  nextCtx := emptySnapshot + 1
  entered := []
  held := []
  slot := none
  scratch := none
  scratchVars := none
  pending := []
  running := none
  nextCallback := 1

namespace State

variable (s : State V A)

/-- The variables of a context. -/
def content (c : Nat) : Mapping V A := s.maps (s.varsOf c)

/-- Every reference to a context, once for each holder. -/
def refs : List Nat :=
  emptySnapshot :: s.entered.map Frame.ctx ++ s.held ++ s.slot.toList ++ s.scratch.toList ++
    s.pending.map Handle.context ++ s.running.toList.map Running.ctx ++
    (s.running.bind Running.context).toList

def refcnt (c : Nat) : Nat := s.refs.count c

/-- The thread's current context; it may never have had one. -/
def current : Option Nat := s.entered.head?.map Frame.ctx

def currentVars : Nat := (s.current.map s.varsOf).getD emptyVars

def currentContent : Mapping V A := s.maps s.currentVars

/-- The callback at work, or 0. -/
def callback : Nat := (s.entered.head?.map Frame.callback).getD 0

def lineage : Finset Nat := (s.entered.head?.map Frame.lineage).getD {0}

/-- A context made with the map at address `vars`. -/
def alloc (vars : Nat) : Nat × State V A :=
  (s.nextCtx,
    { s with
      varsOf := Function.update s.varsOf s.nextCtx vars
      nextCtx := s.nextCtx + 1 })

/-- `context_get`: a thread that never had a context gets an empty one. -/
def contextGet : State V A :=
  match s.entered with
  | [] =>
    let (ctx, s) := s.alloc emptyVars
    { s with entered := [{ ctx := ctx, callback := 0, lineage := {0} }] }
  | _ :: _ => s

/-- `PyContext_CopyCurrent` -/
def copyCurrent : Nat × State V A :=
  let s := s.contextGet
  s.alloc s.currentVars

/-- Whether the interpreter may give a new map this address: the one empty map has its own, and any
    other one is at an address of no map in use. -/
def Allocates (new : Mapping V A) (address : Nat) : Prop :=
  (new = ∅ ∧ address = emptyVars) ∨ ∀ c ∈ s.refs, s.varsOf c ≠ address

instance [DecidableEq V] [DecidableEq A] (new : Mapping V A) (address : Nat) : Decidable (s.Allocates new address) :=
  inferInstanceAs (Decidable (_ ∨ _))

/-- `ContextVar.set`, and `reset` to a value or to none.  Setting what is set already leaves the map
    as it is. -/
def assign [DecidableEq V] [DecidableEq A] (v : V) (x : Option A) (address : Nat) : State V A :=
  let s := s.contextGet
  match s.current with
  | none => s
  | some ctx =>
    let old := s.content ctx
    let new := assigned old v x s.callback
    if address = s.varsOf ctx ∧ (old.lookup v).map Prod.fst = x then s
    else if s.Allocates new address then
      { s with
        maps := Function.update s.maps address new
        varsOf := Function.update s.varsOf ctx address }
    else s

end State

/-! ## 2. The snapshots -/

variable [DecidableEq V] [DecidableEq A] (l : Layout)

/-- `is_empty` -/
def isEmpty (s : State V A) (ctx : Nat) : Bool :=
  if l.layoutOk then s.varsOf ctx = emptyVars else s.content ctx = ∅

/-- The cached snapshot, where it has the map `vars`. -/
def cached (s : State V A) (vars : Nat) : Option Nat := s.slot.filter fun snap => s.varsOf snap = vars

/-- The part of `capture` that reads the current variables in place. -/
def captureInPlace (s : State V A) : Option Nat :=
  if l.tstateOk then
    if s.currentVars = emptyVars then some emptySnapshot else cached s s.currentVars
  else none

/-- `SnapCache::capture` -/
def capture (s : State V A) : (Nat × Bool) × State V A :=
  match captureInPlace l s with
  | some snap => ((snap, true), s)
  | none =>
    let (cur, s) := s.copyCurrent
    if isEmpty l s cur then ((emptySnapshot, true), s)
    else if !l.layoutOk then ((cur, false), s)
    else
      match cached s (s.varsOf cur) with
      | some snap => ((snap, true), s)
      | none => ((cur, true), { s with slot := some cur })

/-- `SnapCache::trim` -/
def trim (s : State V A) : State V A :=
  match s.slot with
  | some snap => if s.refcnt snap = 1 then { s with slot := none } else s
  | none => s

/-- `SnapCache::clear` -/
def clear (s : State V A) : State V A := { s with slot := none }

/-! ## 3. The scratch context -/

/-- `Scratch::acquire` -/
def acquire (s : State V A) (snap : Nat) : Nat × State V A :=
  let want := if l.layoutOk then some (s.varsOf snap) else none
  match s.scratch with
  | some ctx =>
    if !l.layoutOk ∨ s.scratchVars = want then (ctx, { s with scratch := none })
    else State.alloc { s with scratch := none, scratchVars := want } (s.varsOf snap)
  | none => State.alloc { s with scratchVars := want } (s.varsOf snap)

/-- Nobody else holds it, and it is as it was made. -/
def unchanged (s : State V A) (ctx : Nat) : Bool :=
  decide (s.refcnt ctx = 1) &&
    if l.layoutOk then some (s.varsOf ctx) = s.scratchVars else isEmpty l s ctx

/-- `Scratch::give_back` -/
def giveBack (ctx : Nat) (s : State V A) : State V A :=
  if unchanged l s ctx then { s with scratch := some ctx, running := none }
  else { s with running := none }

/-! ## 4. Scheduling and dispatch -/

/-- `call_soon` and its like without a context (`make_handle`). -/
def schedule (s : State V A) : State V A :=
  let got := capture l s
  { got.2 with
    pending := got.2.pending ++ [{ context := got.1.1, snapshot := got.1.2, given := false,
                                   wanted := s.currentContent, lineage := s.lineage }] }

/-- The same with a context the program holds; a readiness watch has one as well. -/
def scheduleIn (i : Nat) (s : State V A) : State V A :=
  match s.held[i]? with
  | some ctx =>
    { s with
      pending := s.pending ++ [{ context := ctx, snapshot := false, given := true,
                                 wanted := s.content ctx, lineage := s.lineage }] }
  | none => s

/-- `PyContext_Enter`; refused where the context is entered already. -/
def enter (frame : Frame) (s : State V A) : State V A :=
  if frame.ctx ∈ s.entered.map Frame.ctx then s else { s with entered := frame :: s.entered }

/-- A handle leaves the queue. -/
def State.take (i : Nat) (s : State V A) : State V A :=
  { s with pending := s.pending.eraseIdx i, nextCallback := s.nextCallback + 1 }

/-- The first half of `run_handle`, for one pending handle or another. -/
def dispatch (i : Nat) (s : State V A) : State V A :=
  match s.running, s.pending[i]? with
  | none, some h =>
    let id := s.nextCallback
    let s := s.take i
    if h.snapshot then
      let (ctx, s) := acquire l s h.context
      enter { ctx := ctx, callback := id, lineage := insert id h.lineage }
        { s with running := some { ctx := ctx, fresh := true, context := some h.context } }
    else
      let lineage := if h.given then writers (s.content h.context) else h.lineage
      enter { ctx := h.context, callback := id, lineage := insert id lineage }
        { s with running := some { ctx := h.context, fresh := false, context := some h.context } }
  | _, _ => s

/-- The second half, once the callback has returned or raised and its context was left; then the
    handle is released. -/
def finish (s : State V A) : State V A :=
  match s.running with
  | some run =>
    if run.ctx ∈ s.entered.map Frame.ctx then s
    else if run.fresh then giveBack l run.ctx s
    else { s with running := none }
  | none => s

/-! ## 5. The machine -/

/-- What happens, in any order: the loop dispatches, trims and clears, and whatever code runs -- a
    callback, a finalizer, the program before the loop -- uses its contexts. -/
inductive Input (V A : Type*) where
  | schedule
  | scheduleIn (i : Nat)
  | cancel (i : Nat)
  | cancelRunning
  | dispatch (i : Nat)
  | finish
  | trim
  | clear
  -- `run_forever` returns, and its scratch goes
  | leave
  | assign (v : V) (x : Option A) (address : Nat)
  | copyContext
  | retain
  | release (i : Nat)
  -- `Context.run`, or the callback's own return
  | enter (i : Nat)
  | exit

def step (s : State V A) : Input V A → State V A
  | .schedule => schedule l s
  | .scheduleIn i => scheduleIn i s
  | .cancel i => { s with pending := s.pending.eraseIdx i }
  | .cancelRunning => { s with running := s.running.map fun run => { run with context := none } }
  | .dispatch i => dispatch l i s
  | .finish => finish l s
  | .trim => trim s
  | .clear => clear s
  | .leave =>
    if s.running.isNone then { s with scratch := none, scratchVars := none } else s
  | .assign v x address => s.assign v x address
  | .copyContext =>
    let (ctx, s) := s.copyCurrent
    { s with held := ctx :: s.held }
  | .retain => { s with held := s.current.toList ++ s.held }
  | .release i => { s with held := s.held.eraseIdx i }
  | .enter i =>
    match s.held[i]? with
    | some ctx =>
      enter { ctx := ctx, callback := s.callback,
              lineage := insert s.callback (writers (s.content ctx)) } s
    | none => s
  | .exit => { s with entered := s.entered.tail }

def machine : Machine (State V A) (Input V A) where
  init := init
  step := step l

end Cadeloop.Pyshim.CtxSnap
