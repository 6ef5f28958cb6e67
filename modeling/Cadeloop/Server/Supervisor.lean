import Cadeloop.Reasoning.Machine

/-!
# The supervisor of a forked pool (`python/cadeloop/server.py`)

`_serve_multi` forks a worker for every slot, restarts the ones that die, and at the end tells all of
them to stop and waits for them.  Workers die, and stop signals arrive, between any two of its steps;
`fork()` can fail.  Times are in milliseconds.
-/

namespace Cadeloop.Server.Supervisor

open Cadeloop.Reasoning (Machine)

/-! ## 1. The restart limit -/

-- `_CRASH_STREAK_LIMIT`
def crashStreakLimit : Nat := 5

-- `_CRASH_FAST_SECS`
def crashFast : Nat := 1000

-- `_STABLE_SECS`
def stableAfter : Nat := 30000

/-- `_crash_streak_next`.  Without a readiness signal, `becameReady` is `none`. -/
def crashStreakNext (streak : Nat) (becameReady : Option Bool) (uptime : Nat) : Nat :=
  if becameReady = some false then streak + 1
  else
    let stable := if becameReady = some true then crashFast else stableAfter
    if stable ≤ uptime then 1 else streak + 1

/-! ## 2. Workers and the supervisor's state -/

-- workers are numbered as they are forked; the number stands for the pid and for the pipe
abbrev Pid := Nat

inductive Life where
  | running
  -- not waited for yet; `clean`: with status 0
  | exited (clean : Bool)
  | gone
  deriving DecidableEq

structure Proc where
  idx : Nat
  life : Life
  -- `b"R"` and `b"S"` in its readiness pipe
  ready : Bool
  stopped : Bool
  -- SIGTERM and SIGKILL sent to it
  told : Bool
  killed : Bool
  -- `close(ready_fd)`s
  closes : Nat

def Proc.new (idx : Nat) : Proc :=
  { idx, life := .running, ready := false, stopped := false, told := false, killed := false,
    closes := 0 }

structure Child where
  pid : Pid
  idx : Nat
  spawned : Nat

inductive Phase where
  -- `for idx in range(n)`
  | starting (idx : Nat)
  -- in `spawn`
  | forking (idx : Nat) (startup : Bool)
  | watching
  -- a worker is waited for and forgotten, and its report is read
  | died (idx spawned : Nat) (clean becameReady appStopped : Bool)
  -- `_stop_children`
  | stopping
  | draining (deadline : Nat)
  | killing
  | returned

/-- A death that counts for the restart limit. -/
structure Crash where
  idx : Nat
  becameReady : Bool
  uptime : Nat

structure State where
  clock : Nat
  procs : List Proc
  -- in the order of the dict
  children : List Child
  streaks : Nat → Nat
  stopping : Bool
  force : Bool
  exitCode : Nat
  -- an exception is on its way out
  raised : Bool
  phase : Phase
  -- what `streaks` counted
  crashes : List Crash

def State.new : State :=
  { clock := 0, procs := [], children := [], streaks := fun _ => 0, stopping := false,
    force := false, exitCode := 0, raised := false, phase := .starting 0, crashes := [] }

/-! ## 3. Signals and waiting -/

-- `kill` finds no process that was waited for
def Proc.tell (p : Proc) : Proc := if p.life = .gone then p else { p with told := true }

def Proc.kill (p : Proc) : Proc := if p.life = .gone then p else { p with killed := true }

/-- Waited for, and its pipe closed. -/
def Proc.forget (p : Proc) : Proc := { p with life := .gone, closes := p.closes + 1 }

namespace State

/-- SIGTERM to every worker. -/
def tellChildren (s : State) : State :=
  { s with procs := s.procs.mapIdx fun pid p =>
      if pid ∈ s.children.map Child.pid then p.tell else p }

/-- `_forward`. -/
def forward (int : Bool) (s : State) : State :=
  { s with force := s.force || (s.stopping && int), stopping := true }.tellChildren

/-- `_reap`: the first worker that has exited, or that something else waited for. -/
def reap (s : State) : Option (Child × Proc) :=
  s.children.findSome? fun c =>
    (s.procs[c.pid]?).bind fun p => if p.life = .running then none else some (c, p)

def forget (c : Child) (s : State) : State :=
  { s with
    procs := s.procs.modify c.pid Proc.forget
    children := s.children.filter (·.pid ≠ c.pid) }

/-! ## 4. `_serve_multi` -/

/-- The stop signals are blocked from the fork until the worker is recorded. -/
def spawn (idx : Nat) (s : State) : State :=
  { s with
    procs := s.procs ++ [.new idx]
    children := s.children ++ [Child.mk s.procs.length idx s.clock] }

def fork (idx : Nat) (startup ok : Bool) (s : State) : State :=
  if ok then
    { s.spawn idx with phase := if startup then .starting (idx + 1) else .watching }
  else { s with raised := true, phase := .stopping }

def start (n idx : Nat) (s : State) : State :=
  if idx < n ∧ s.stopping = false then { s with phase := .forking idx true }
  else { s with phase := .watching }

def watch (s : State) : State :=
  if s.children = [] ∨ s.stopping then { s with phase := .stopping }
  else
    match s.reap with
    | none => s
    | some (c, p) =>
      { s.forget c with
        phase := .died c.idx c.spawned (p.life = .exited true) p.ready p.stopped }

/-- A death that is no clean exit. -/
def crash (idx spawned : Nat) (becameReady : Bool) (s : State) : State :=
  let uptime := s.clock - spawned
  let streak := crashStreakNext (s.streaks idx) (some becameReady) uptime
  let s :=
    { s with
      streaks := fun i => if i = idx then streak else s.streaks i
      crashes := s.crashes ++ [Crash.mk idx becameReady uptime] }
  if crashStreakLimit ≤ streak then
    { s with exitCode := 1, phase := .watching }.forward false
  else { s with phase := .forking idx false }

def answer (idx spawned : Nat) (clean becameReady appStopped : Bool) (s : State) : State :=
  if s.stopping then { s with phase := .watching }
  else if clean then
    if appStopped then { s with phase := .watching }.forward false
    else { s with phase := .forking idx false }
  else s.crash idx spawned becameReady

/-- `_stop_children`, until the grace is over. -/
def drain (deadline : Nat) (s : State) : State :=
  if s.children ≠ [] ∧ s.clock < deadline ∧ s.force = false then
    match s.reap with
    | none => s
    | some (c, _) => s.forget c
  else { s with phase := .killing }

def killNext (s : State) : State :=
  match s.children with
  | [] => { s with phase := .returned }
  | c :: _ => { s with procs := s.procs.modify c.pid Proc.kill }.forget c

/-- What the supervisor does next.  `forked`: the fork, if it comes to one, succeeds. -/
def go (n grace : Nat) (forked : Bool) (s : State) : State :=
  match s.phase with
  | .starting idx => s.start n idx
  | .forking idx startup => s.fork idx startup forked
  | .watching => s.watch
  | .died idx spawned clean becameReady appStopped =>
    s.answer idx spawned clean becameReady appStopped
  | .stopping => { s with phase := .draining (s.clock + grace) }.tellChildren
  | .draining deadline => s.drain deadline
  | .killing => s.killNext
  | .returned => s

end State

/-! ## 5. Runs -/

inductive Event where
  | go (forked : Bool)
  | tick (ms : Nat)
  -- SIGINT or SIGTERM to the supervisor
  | signal (int : Bool)
  | ready (pid : Pid)
  | exits (pid : Pid) (clean stopped : Bool)
  -- something else in the process waits for it
  | stolen (pid : Pid)

def Proc.serve (p : Proc) : Proc := if p.life = .running then { p with ready := true } else p

def Proc.exits (clean stopped : Bool) (p : Proc) : Proc :=
  if p.life = .running then { p with life := .exited clean, stopped } else p

def Proc.steal (p : Proc) : Proc := if p.life = .running then p else { p with life := .gone }

def State.step (n grace : Nat) (s : State) : Event → State
  | .go forked => s.go n grace forked
  | .tick ms => { s with clock := s.clock + ms }
  -- the handlers are put back at the end
  | .signal int => match s.phase with
    | .returned => s
    | _ => s.forward int
  | .ready pid => { s with procs := s.procs.modify pid Proc.serve }
  | .exits pid clean stopped => { s with procs := s.procs.modify pid (Proc.exits clean stopped) }
  | .stolen pid => { s with procs := s.procs.modify pid Proc.steal }

/-- `_serve_multi` with `n` workers. -/
def serveMulti (n grace : Nat) : Machine State Event := ⟨.new, State.step n grace⟩

end Cadeloop.Server.Supervisor
