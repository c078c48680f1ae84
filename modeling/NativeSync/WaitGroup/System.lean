import NativeSync.Foundations.Runs
import NativeSync.WaitGroup.Core
import Mathlib.Data.Fintype.Basic
import Mathlib.Data.Finset.Basic

/-!
# The wait group: the system of its threads

Any number of threads use one wait group through shared handles. An `add` (and so a `done`) is one
step; a `wait` is a call, a pass through the mutex, and as long as the count is not zero, sleeps and
further passes. The primitives may fail with any status, and so may the test hooks.
-/

namespace NativeSync.WaitGroup

open Foundations

/-- The operations of the wait group. -/
inductive Op
  | add (delta : Int32)
  | wait
  deriving DecidableEq

/-- What a run shows: the operations that completed, and the end of the core. -/
inductive Event (T : Type)
  | ret (t : T) (op : Op) (r : Except SyncError Unit)
  | freed
  deriving DecidableEq

/-- Where a thread stands, with the handle it uses. -/
inductive Point
  | idle
  | wait (h : ℕ)
  deriving DecidableEq

/-- The condition variable that a thread at a point waits on. -/
def Point.cond : Point → Option Unit
  | wait _ => some ()
  | _ => none

/-- The handle that a thread at a point uses. -/
def Point.handle : Point → Option ℕ
  | wait h => some h
  | _ => none

/-- The core, its threads and its live handles. -/
structure State (T : Type) where
  core : Core
  threads : T → Pc Point
  handles : Finset ℕ
  freed : Bool

/-- The actions. `done` is the `add` of `-1`. -/
inductive Action (T : Type)
  | add (t : T) (h : ℕ) (delta : Int32) (injected : ℤ) (os : Os)
  | callWait (t : T) (h : ℕ) (injected : ℤ)
  | lock (t : T) (os : Os)
  | spurious (t : T)
  | resume (t : T) (os : Os)
  | share (h h' : ℕ)
  | drop (h : ℕ)

/-- `WaitGroup::done`. -/
def Action.done {T : Type} (t : T) (h : ℕ) (injected : ℤ) (os : Os) : Action T :=
  .add t h (-1) injected os

variable {T : Type} [DecidableEq T]

namespace State

/-- Thread `t` moves to `x`. -/
def move (s : State T) (t : T) (x : Pc Point) : State T :=
  { s with threads := Function.update s.threads t x }

/-- Leave thread `t` where a pass of `wait` ended. -/
def endWait (s : State T) (t : T) (h : ℕ) (sec : Section Core Unit WaitExit) :
    State T × List (Event T) :=
  match sec.exit with
  | .sleep => (s.move t (.wait .asleep (.wait h)), [])
  | .ret status => (s.move t (.run .idle), [.ret t .wait (waitResult status)])

end State

variable [Fintype T]

/-- One step of the system. -/
def step (s : State T) : Action T → Option (State T × List (Event T))
  | .add t h delta injected os =>
    if s.threads t = .run .idle ∧ h ∈ s.handles then
      -- the test hook of `sync_wait_group_add`
      if injected ≠ 0 then some (s, [.ret t (.add delta) (addResult 0 injected)])
      else
        let sec := add s.core delta os
        (deliver Point.cond none sec.wakes s.threads).map fun f =>
          ({ s with core := sec.core, threads := f },
            [.ret t (.add delta) (addResult sec.exit.1 sec.exit.2)])
    else none
  | .callWait t h injected =>
    if s.threads t = .run .idle ∧ h ∈ s.handles then
      -- the test hook of `sync_wait_group_wait`
      if injected ≠ 0 then some (s, [.ret t .wait (waitResult injected)])
      else some (s.move t (.run (.wait h)), [])
    else none
  | .lock t os =>
    match s.threads t with
    | .run (.wait h) => some (s.endWait t h (wait s.core os))
    | _ => none
  | .spurious t =>
    match s.threads t with
    | .wait .asleep p => some (s.move t (.wait .spurious p), [])
    | _ => none
  | .resume t os =>
    match s.threads t with
    | .wait .asleep _ => none
    | .wait _ (.wait h) => some (s.endWait t h (waitWoken s.core os))
    | _ => none
  | .share h h' =>
    if h ∈ s.handles ∧ h' ∉ s.handles then
      some ({ s with core := share s.core, handles := insert h' s.handles }, [])
    else none
  | .drop h =>
    if h ∈ s.handles ∧ ∀ t, (s.threads t).point.handle ≠ some h then
      let r := finalize s.core
      some ({ s with core := r.1, handles := s.handles.erase h, freed := s.freed || r.2 },
        if r.2 then [.freed] else [])
    else none

/-- The wait group that `WaitGroup::new` returned. -/
def State.init : State T :=
  { core := waitGroupNew, threads := fun _ => .run .idle, handles := {0}, freed := false }

/-- The statuses of the primitives that an action calls. -/
def Action.os : Action T → Os
  | add _ _ _ _ os => os
  | lock _ os => os
  | resume _ os => os
  | _ => {}

/-- The error that the test hooks inject. -/
def Action.injected : Action T → ℤ
  | add _ _ _ injected _ => injected
  | callWait _ _ injected => injected
  | _ => 0

/-- A step whose primitives succeed. -/
def NoFailure (_ : State T) (a : Action T) (_ : State T) : Prop := a.os = {} ∧ a.injected = 0

instance (s : State T) (a : Action T) (s' : State T) : Decidable (NoFailure s a s') :=
  inferInstanceAs (Decidable (_ ∧ _))

end NativeSync.WaitGroup
