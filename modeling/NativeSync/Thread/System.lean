import NativeSync.Foundations.Runs
import NativeSync.Foundations.Threads
import NativeSync.Thread.Core
import Mathlib.Data.Fintype.Option

/-!
# Threads: the system of a handle, its worker and its callers

One thread spawns the worker. When that has succeeded, any number of callers use the handle; they
are the elements of `Option T`, where `none` is the worker itself while it is in the call of its
task. A caller joins, detaches or asks whether the worker has finished. When nobody uses the handle
any more it may be dropped, if its state is terminal.

The operating system's part:

* the creation of the thread may fail;
* a join can only succeed after the worker has exited, and joins and detaches may fail at any time,
  with a positive status.

The events tell what the operating system answered, when the task was called, what became of the
task and of its outcome, when the core was freed, and what the calls returned.
-/

namespace NativeSync.Thread

open Foundations

/-- The two ways to close a handle. -/
inductive Op
  | join
  | detach
  deriving DecidableEq

/-- What a run shows. -/
inductive Event (α T : Type)
  | called
  | stored (o : Outcome α)
  | returned
  | taskReleased
  | resultReleased (o : Outcome α)
  | freed
  | os (op : Op) (status : ℤ)
  | spawned (status : ℤ)
  | ret (c : Option T) (op : Op) (status : ℤ) (result : Option (Outcome α))
  | asked (c : Option T) (result : Bool) (status : ℤ)
  deriving DecidableEq

/-- Where the spawning thread stands in `sync_thread_start`. -/
inductive SpawnPoint
  | start
  | create
  | publish
  | fail (status : ℤ)
  | release (status : ℤ)
  | done (status : ℤ)
  deriving DecidableEq

/-- Where the worker stands; from `finish` on with the outcome that it stored. -/
inductive WorkerPoint (α : Type)
  /-- It does not exist. -/
  | absent
  /-- Before the call of the task. -/
  | begin
  /-- In the call of the task. -/
  | running
  /-- In the call of the task, which has ended and whose outcome is to be stored. -/
  | completing (o : Outcome α)
  /-- In the call of the task, whose outcome was stored. -/
  | returning (o : Outcome α)
  /-- Before its last section. -/
  | finish (o : Outcome α)
  /-- After its last section, in which it took the task or not. -/
  | release (task : Bool) (o : Outcome α)
  /-- Before it gives up its reference. -/
  | leave (o : Outcome α)
  | exited (o : Outcome α)

/-- Where a caller stands. -/
inductive Point (α : Type)
  | idle
  /-- Before the call of the operating system. -/
  | claimed (op : Op)
  /-- After a successful call. -/
  | success (op : Op)
  /-- After a failed call. -/
  | failure (op : Op) (status : ℤ)
  /-- After its last section, with the outcome that it took, and the task if it took it. -/
  | ending (op : Op) (task : Bool) (result : Option (Outcome α))

/-- The handle and everybody who uses it. -/
structure State (α T : Type) where
  core : Core α
  spawner : SpawnPoint
  worker : WorkerPoint α
  callers : Option T → Point α
  handle : Bool
  freed : Bool

/-- The actions. `status` is an answer of the operating system, `outcome` how the task ends. -/
inductive Action (α T : Type)
  | spawn (status : ℤ)
  | work (outcome : Outcome α)
  | join (c : Option T) (injected : ℤ)
  | detach (c : Option T) (injected : ℤ)
  | os (c : Option T) (status : ℤ)
  | finish (c : Option T)
  | isFinished (c : Option T) (os : Os)
  | drop

variable {α T : Type}

/-- The spawning thread has left `sync_thread_start`. -/
def SpawnPoint.isDone : SpawnPoint → Bool
  | done _ => true
  | _ => false

/-- The worker is in the part of its task that may use the handle. -/
def WorkerPoint.isRunning : WorkerPoint α → Bool
  | running => true
  | _ => false

/-- The caller is in no operation. -/
def Point.isIdle : Point α → Bool
  | idle => true
  | _ => false

/-- The caller can start an operation: it is in none, and if it is the worker, its task runs. -/
def State.CanCall (s : State α T) (c : Option T) : Prop :=
  s.spawner = .done 0 ∧ s.handle = true ∧ (s.callers c).isIdle = true ∧
    (c = none → s.worker.isRunning = true)

variable [DecidableEq T]

instance (s : State α T) (c : Option T) : Decidable (s.CanCall c) :=
  inferInstanceAs (Decidable (_ ∧ _ ∧ _ ∧ (_ → _)))

namespace State

/-- Caller `c` moves to `p`. -/
def move (s : State α T) (c : Option T) (p : Point α) : State α T :=
  { s with callers := Function.update s.callers c p }

/-- Give up a reference of the core: the state, and what was given up with the core. -/
def unref (s : State α T) : State α T × List (Event α T) :=
  let r := coreRelease s.core
  ({ s with core := r.1, freed := s.freed || r.2.isSome },
    match r.2 with
    | none => []
    | some (task, result) =>
      (if task then [.taskReleased] else []) ++ (result.map Event.resultReleased).toList ++
        [.freed])

/-- A step of the spawning thread. -/
def spawn (s : State α T) (status : ℤ) : Option (State α T × List (Event α T)) :=
  match s.spawner with
  | .start => some ({ s with core := startBegin s.core, spawner := .create }, [])
  | .create =>
    if status = 0 then some ({ s with spawner := .publish, worker := .begin }, [])
    else some ({ s with core := startUndo s.core, spawner := .fail status }, [.taskReleased])
  | .publish => some ({ s with core := startEnd s.core, spawner := .done 0 }, [.spawned 0])
  | .fail st => some ({ s with core := startFail s.core, spawner := .release st }, [])
  | .release st =>
    some ({ s.unref.1 with spawner := .done st }, s.unref.2 ++ [.spawned st])
  | .done _ => none

/-- A step of the worker; while its task runs it ends, unless the task is in an operation. -/
def work (s : State α T) (outcome : Outcome α) : Option (State α T × List (Event α T)) :=
  match s.worker with
  | .absent => none
  | .begin => some ({ s with worker := .running }, [.called])
  | .running =>
    if (s.callers none).isIdle then some ({ s with worker := .completing outcome }, []) else none
  | .completing o =>
    let r := complete s.core o
    some ({ s with core := r.1, worker := .returning o },
      .stored o :: if r.2 then [.resultReleased o] else [])
  | .returning o => some ({ s with worker := .finish o }, [.returned])
  | .finish o =>
    let r := mainEnd s.core
    some ({ s with core := r.1, worker := .release r.2 o }, [])
  | .release task o =>
    some ({ s with worker := .leave o }, if task then [.taskReleased] else [])
  | .leave o => some ({ s.unref.1 with worker := .exited o }, s.unref.2)
  | .exited _ => none

end State

variable [Fintype T]

/-- One step of the system. -/
def step (s : State α T) : Action α T → Option (State α T × List (Event α T))
  | .spawn status => s.spawn status
  | .work outcome => s.work outcome
  | .join c injected =>
    if s.CanCall c then
      match joinBegin s.core c.isNone injected with
      | (core, some status) => some ({ s with core }, [.ret c .join status none])
      | (core, none) => some ({ s.move c (.claimed .join) with core }, [])
    else none
  | .detach c injected =>
    if s.CanCall c then
      match detachBegin s.core with
      | (core, some status) => some ({ s with core }, [.ret c .detach status none])
      | (core, none) =>
        if injected ≠ 0 then some ({ s.move c (.failure .detach injected) with core }, [])
        else some ({ s.move c (.claimed .detach) with core }, [])
    else none
  | .os c status =>
    match s.callers c with
    | .claimed op =>
      if status ≠ 0 then some (s.move c (.failure op status), [.os op status])
      else
        match op, s.worker with
        | .join, .exited _ => some (s.move c (.success .join), [.os .join 0])
        | .detach, _ => some (s.move c (.success .detach), [.os .detach 0])
        | _, _ => none
    | _ => none
  | .finish c =>
    match s.callers c with
    | .success .join =>
      let r := joinEnd s.core
      some ({ s.move c (.ending .join r.2.2 r.2.1) with core := r.1 }, [])
    | .success .detach =>
      let r := detachEnd s.core
      some ({ s.move c (.ending .detach r.2 none) with core := r.1 }, [])
    | .failure op status =>
      some ({ s.move c .idle with core := rollback s.core }, [.ret c op status none])
    | .ending op task result =>
      some (s.move c .idle, (if task then [.taskReleased] else []) ++ [.ret c op 0 result])
    | _ => none
  | .isFinished c os =>
    if s.CanCall c then
      some (s, [.asked c (isFinished s.core os).1 (isFinished s.core os).2])
    else none
  | .drop =>
    if s.spawner.isDone = true ∧ s.handle = true ∧ s.core.state.terminal = true ∧
        ∀ c, (s.callers c).isIdle = true then
      some ({ s.unref.1 with handle := false }, s.unref.2)
    else none

/-- A handle that `sync_thread_new` has returned to `spawn_raw`. -/
def State.init : State α T :=
  { core := threadNew, spawner := .start, worker := .absent, callers := fun _ => .idle
    handle := true, freed := false }

/-- The answer of the operating system to a join or a detach, or the one a test hook injects. -/
def Action.status : Action α T → ℤ
  | join _ injected => injected
  | detach _ injected => injected
  | os _ status => status
  | _ => 0

/-- The assumption on a step: a join or a detach of the operating system succeeds or fails with a
positive status. -/
def Assumed (_ : State α T) (a : Action α T) (_ : State α T) : Prop := 0 ≤ a.status

instance (s : State α T) (a : Action α T) (s' : State α T) : Decidable (Assumed s a s') :=
  inferInstanceAs (Decidable (_ ≤ _))

end NativeSync.Thread
