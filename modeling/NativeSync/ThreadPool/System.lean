import NativeSync.Foundations.Runs
import NativeSync.ThreadPool.Core
import Mathlib.Data.Fintype.Basic

/-!
# The thread pool: the system of its threads

A pool begins with one thread in the constructor, which creates the workers one by one; the
creation of any of them may fail. Once the constructor has returned a handle, any number of client
threads work with the pool through handles, of which `share` makes new ones and the finalizer
removes one. So do the tasks while they run: a task may submit, close, share, drop and observe, and
it may try to shut down its own pool.

A step is a call, a critical section, a spurious wake-up, a return from a wait, or a step outside
the mutex (`advance`): a worker calls its task, comes back from it, releases it or gives up its
reference, and the constructor goes on.

The events tell what happens to the tasks (`dequeued`, `called`, `finished`, `released`), when the
core is freed, and what the operations return. Where the C function has no result besides its
status, the event shows zero.
-/

namespace NativeSync.ThreadPool

open Foundations

/-- Who calls an operation: a client thread, or a worker inside the call of a task. -/
inductive Caller
  | client
  | task (id : ℕ)
  deriving DecidableEq

/-- Whether the caller is a worker of this pool (`sync_current_thread_pool == core`). -/
def Caller.own : Caller → Bool
  | client => false
  | task _ => true

/-- The operations of the pool. -/
inductive Op
  | new
  | submit (task : ℕ) (block : Bool)
  | close
  | shutdown
  | share
  | drop
  | isClosed
  | pendingCount
  deriving DecidableEq

/-- What a run shows. -/
inductive Event (T : Type)
  | dequeued (task : ℕ)
  | called (task : ℕ)
  | finished (task : ℕ)
  | released (task : ℕ)
  | freed
  | ret (t : T) (op : Op) (result error : ℤ)
  deriving DecidableEq

/-- Where a thread stands; `h` is the handle it uses. -/
inductive Point
  /-- The thread does not exist yet. -/
  | absent
  /-- In no operation of the pool. -/
  | idle (c : Caller)
  /-- In `sync_thread_pool_submit_task`, before the lock or in the wait. -/
  | submit (c : Caller) (h task : ℕ) (block : Bool)
  /-- In `sync_thread_pool_shutdown`, before it closes the core. -/
  | shutdown (h : ℕ)
  /-- In `sync_thread_pool_shutdown`, before the second lock or in the wait. -/
  | stop (h : ℕ)
  /-- A worker before the lock of its loop or in the wait. -/
  | loop
  /-- A worker that has taken a task and is about to call it. -/
  | fetched (task : ℕ)
  /-- A worker whose task has returned. -/
  | release (task : ℕ)
  /-- A worker that has left its loop. -/
  | leave
  /-- A worker that has given up its reference. -/
  | exited
  /-- In the constructor, at the head of the loop with this index. -/
  | create (index : ℕ)
  /-- In the constructor, about to count the worker. -/
  | count (index : ℕ)
  /-- In the constructor, about to create the worker. -/
  | spawn (index : ℕ)
  /-- In the constructor after a failure, about to take back the count. -/
  | uncount (status : ℤ)
  /-- In the constructor after a failure, about to give up the reference of the worker. -/
  | unref (status : ℤ)
  /-- In the constructor after a failure, about to close the core. -/
  | abandon (status : ℤ)
  /-- In the constructor after a failure, waiting for the workers. -/
  | drain (status : ℤ)
  /-- In the constructor after a failure, about to give up its own reference. -/
  | giveUp (status : ℤ)
  deriving DecidableEq

/-- The condition variable that a thread at a point waits on. -/
def Point.cond : Point → Option Cond
  | submit .. => some .notFull
  | stop _ => some .stopped
  | drain _ => some .stopped
  | loop => some .notEmpty
  | _ => none

/-- The handle that a thread at a point uses. -/
def Point.handle : Point → Option ℕ
  | submit _ h .. => some h
  | shutdown h => some h
  | stop h => some h
  | _ => none

/-- Whether a thread at a point may drop a handle: outside of every operation, or with the closure
of a task that it releases. -/
def Point.mayDrop : Point → Bool
  | idle _ => true
  | release _ => true
  | _ => false

/-- The pool, its threads and its live handles. `tasks` counts the submitted tasks, `starting` the
workers that were created and have not run yet, and `result` is what the constructor returned. -/
structure State (T : Type) where
  core : Core
  threads : T → Pc Point
  handles : Finset ℕ
  tasks : ℕ
  starting : ℕ
  result : Option ℤ
  freed : Bool

/-- The actions. `h` names a handle, `pick` the sleeper that a signal wakes, and `status` is the
outcome of the creation of a thread. -/
inductive Action (T : Type)
  | arrive (t : T)
  | start (t : T)
  | callSubmit (t : T) (h : ℕ) (block : Bool) (injected : ℤ)
  | callShutdown (t : T) (h : ℕ) (injected : ℤ)
  | lock (t : T) (os : Os) (pick : Option T)
  | spurious (t : T)
  | resume (t : T) (os : Os) (pick : Option T)
  | advance (t : T) (status : ℤ)
  | close (t : T) (h : ℕ) (os : Os)
  | isClosed (t : T) (h : ℕ) (os : Os)
  | pendingCount (t : T) (h : ℕ) (os : Os)
  | share (t : T) (h h' : ℕ) (os : Os)
  | drop (t : T) (h : ℕ) (os : Os)
  deriving DecidableEq

variable {T : Type} [Fintype T] [DecidableEq T]

namespace State

/-- Thread `t` moves to `x`. -/
def move (s : State T) (t : T) (x : Pc Point) : State T :=
  { s with threads := Function.update s.threads t x }

/-- A critical section is over: thread `t` is at `x`, and its notifications are carried out. -/
def settle {X : Type} (s : State T) (t : T) (x : Pc Point) (pick : Option T)
    (sec : Section Core Cond X) : Option (State T) :=
  (deliver Point.cond pick sec.wakes (Function.update s.threads t x)).map fun f =>
    { s with core := sec.core, threads := f }

/-- Leave thread `t` where a pass of a submission ended. -/
def endSubmit (s : State T) (t : T) (c : Caller) (h task : ℕ) (block : Bool) (pick : Option T)
    (sec : Section Core Cond SubmitExit) : Option (State T × List (Event T)) :=
  match sec.exit with
  | .sleep => some (s.move t (.wait .asleep (.submit c h task block)), [])
  | .ret result error =>
    (s.settle t (.run (.idle c)) pick sec).map fun s' =>
      (s', (if result ≠ 0 then [.released task] else []) ++
        [.ret t (.submit task block) result error])

/-- Leave thread `t` where the first half of a shutdown ended. -/
def endClose (s : State T) (t : T) (h : ℕ) (sec : Section Core Cond ℤ) :
    Option (State T × List (Event T)) :=
  if sec.exit ≠ 0 then
    (s.settle t (.run (.idle .client)) none sec).map fun s' =>
      (s', [.ret t .shutdown 0 sec.exit])
  else (s.settle t (.run (.stop h)) none sec).map fun s' => (s', [])

/-- Leave thread `t` where a pass of the second half of a shutdown ended. -/
def endStop (s : State T) (t : T) (h : ℕ) (sec : Section Core Cond StopExit) :
    State T × List (Event T) :=
  match sec.exit with
  | .sleep => (s.move t (.wait .asleep (.stop h)), [])
  | .ret status => (s.move t (.run (.idle .client)), [.ret t .shutdown 0 status])

/-- Leave thread `t` where a pass of the worker's loop ended. -/
def endLoop (s : State T) (t : T) (pick : Option T) (sec : Section Core Cond WorkerExit) :
    Option (State T × List (Event T)) :=
  match sec.exit with
  | .sleep => some (s.move t (.wait .asleep .loop), [])
  | .leave => (s.settle t (.run .leave) none sec).map fun s' => (s', [])
  | .fetched task =>
    (s.settle t (.run (.fetched task)) pick sec).map fun s' => (s', [.dequeued task])

/-- Leave thread `t` where a pass of the wait of a failed constructor ended. -/
def endDrain (s : State T) (t : T) (status : ℤ) (sec : Section Core Cond Bool) :
    State T × List (Event T) :=
  if sec.exit then (s.move t (.wait .asleep (.drain status)), [])
  else (s.move t (.run (.giveUp status)), [])

/-- Give up a reference of the core: the state, and what was released with the core. -/
def unref (s : State T) : State T × List (Event T) :=
  let r := coreRelease s.core
  ({ s with core := r.1, freed := s.freed || r.2.isSome },
    (r.2.map fun tasks => tasks.map Event.released ++ [.freed]).getD [])

/-- The end of a finalizer, whose section is over. -/
def endFinalize (s : State T) (t : T) (sec : Section Core Cond Unit) :
    Option (State T × List (Event T)) :=
  (s.settle t (s.threads t) none sec).map fun s' =>
    (s'.unref.1, s'.unref.2 ++ [.ret t .drop 0 0])

/-- A step of thread `t` outside the mutex; `status` is the outcome of the creation of a thread. -/
def advance (s : State T) (t : T) (status : ℤ) : Option (State T × List (Event T)) :=
  match s.threads t with
  | .run (.fetched task) => some (s.move t (.run (.idle (.task task))), [.called task])
  | .run (.idle (.task task)) => some (s.move t (.run (.release task)), [.finished task])
  | .run (.release task) => some (s.move t (.run .loop), [.released task])
  | .run .leave => some (s.move t (.run .exited)).unref
  | .run (.create index) =>
    if index < s.core.workerCount then
      some ({ s.move t (.run (.count index)) with
        core := { s.core with refs := arcInc s.core.refs } }, [])
    else
      some ({ s.move t (.run (.idle .client)) with handles := {0}, result := some 0 },
        [.ret t .new 0 0])
  | .run (.spawn index) =>
    if status = 0 then
      some ({ s.move t (.run (.create (index + 1))) with starting := s.starting + 1 }, [])
    else some (s.move t (.run (.uncount status)), [])
  | .run (.unref status) => some (s.move t (.run (.abandon status))).unref
  | .run (.giveUp status) =>
    let r := (s.move t (.run (.idle .client))).unref
    some ({ r.1 with result := some status }, r.2 ++ [.ret t .new 0 status])
  | _ => none

end State

/-- One step of the system. -/
def step (s : State T) : Action T → Option (State T × List (Event T))
  | .arrive t =>
    if s.threads t = .run .absent then some (s.move t (.run (.idle .client)), []) else none
  | .start t =>
    if s.threads t = .run .absent ∧ 0 < s.starting then
      some ({ s.move t (.run .loop) with starting := s.starting - 1 }, [])
    else none
  | .callSubmit t h block injected =>
    match s.threads t with
    | .run (.idle c) =>
      if h ∉ s.handles then none
      -- the test hook of `sync_thread_pool_submit_task`
      else if injected ≠ 0 then
        some ({ s with tasks := s.tasks + 1 },
          [.released s.tasks, .ret t (.submit s.tasks block) 2 injected])
      else some ({ s.move t (.run (.submit c h s.tasks block)) with tasks := s.tasks + 1 }, [])
    | _ => none
  | .callShutdown t h injected =>
    match s.threads t with
    | .run (.idle c) =>
      if h ∉ s.handles then none
      -- the test hook of `sync_thread_pool_shutdown`
      else if injected ≠ 0 then some (s, [.ret t .shutdown 0 injected])
      else if c.own then some (s, [.ret t .shutdown (-1) 0])
      else some (s.move t (.run (.shutdown h)), [])
    | _ => none
  | .lock t os pick =>
    match s.threads t with
    | .run (.submit c h task block) =>
      s.endSubmit t c h task block pick (submitTask s.core task block c.own os)
    | .run (.shutdown h) => s.endClose t h (closeCore s.core os)
    | .run (.stop h) => some (s.endStop t h (shutdownWait s.core os))
    | .run .loop => (workerLoop s.core os).bind (s.endLoop t pick)
    | .run (.count index) =>
      (countWorker s.core 1 os).bind fun sec =>
        (s.settle t (.run (.spawn index)) none sec).map fun s' => (s', [])
    | .run (.uncount status) =>
      (countWorker s.core (-1) os).bind fun sec =>
        (s.settle t (.run (.unref status)) none sec).map fun s' => (s', [])
    | .run (.abandon status) =>
      let sec := closeCore s.core os
      if sec.exit ≠ 0 then none
      else (s.settle t (.run (.drain status)) none sec).map fun s' => (s', [])
    | .run (.drain status) => (waitWorkers s.core os).map (s.endDrain t status)
    | _ => none
  | .spurious t =>
    match s.threads t with
    | .wait .asleep p => some (s.move t (.wait .spurious p), [])
    | _ => none
  | .resume t os pick =>
    match s.threads t with
    | .wait .asleep _ => none
    | .wait _ (.submit c h task block) =>
      s.endSubmit t c h task block pick (submitWoken s.core task block os)
    | .wait _ (.stop h) => some (s.endStop t h (shutdownWoken s.core os))
    | .wait _ .loop => (workerLoop s.core os).bind (s.endLoop t pick)
    | .wait _ (.drain status) => (waitWorkers s.core os).map (s.endDrain t status)
    | _ => none
  | .advance t status => s.advance t status
  | .close t h os =>
    match s.threads t with
    | .run (.idle c) =>
      if h ∉ s.handles then none
      else
        let sec := closeCore s.core os
        (s.settle t (.run (.idle c)) none sec).map fun s' => (s', [.ret t .close 0 sec.exit])
    | _ => none
  | .isClosed t h os =>
    match s.threads t with
    | .run (.idle _) =>
      if h ∉ s.handles then none
      else some (s, [.ret t .isClosed (isClosed s.core os).1 (isClosed s.core os).2])
    | _ => none
  | .pendingCount t h os =>
    match s.threads t with
    | .run (.idle _) =>
      if h ∉ s.handles then none
      else some (s, [.ret t .pendingCount (pendingCount s.core os).1 (pendingCount s.core os).2])
    | _ => none
  | .share t h h' os =>
    match s.threads t with
    | .run (.idle _) =>
      if h ∉ s.handles ∨ h' ∈ s.handles then none
      else
        (share s.core os).map fun sec =>
          ({ s with
              core := sec.core
              handles := if sec.exit.2 then insert h' s.handles else s.handles },
            [.ret t .share 0 sec.exit.1])
    | _ => none
  | .drop t h os =>
    match s.threads t with
    | .run p =>
      if p.mayDrop = true ∧ h ∈ s.handles ∧ ∀ u, (s.threads u).point.handle ≠ some h then
        (finalize s.core os).bind (State.endFinalize { s with handles := s.handles.erase h } t)
      else none
    | _ => none

/-- The pool at the start of the creation of its workers: only the thread `t₀` of the constructor
is there. -/
def State.init (N : Size) (t₀ : T) : State T :=
  { core := N.core
    threads := fun t => .run (if t = t₀ then .create 0 else .absent)
    handles := ∅, tasks := 0, starting := 0, result := none, freed := false }

/-- The statuses of the primitives that an action calls. -/
def Action.os : Action T → Os
  | lock _ os _ => os
  | resume _ os _ => os
  | close _ _ os => os
  | isClosed _ _ os => os
  | pendingCount _ _ os => os
  | share _ _ _ os => os
  | drop _ _ os => os
  | _ => {}

/-- The error that the test hooks inject. -/
def Action.injected : Action T → ℤ
  | callSubmit _ _ _ injected => injected
  | callShutdown _ _ injected => injected
  | _ => 0

/-- The assumption on a step: the primitives on the mutex and the condition variables succeed. The
creation of a thread may fail. -/
def Assumed (_ : State T) (a : Action T) (_ : State T) : Prop := a.os = {} ∧ a.injected = 0

instance (s : State T) (a : Action T) (s' : State T) : Decidable (Assumed s a s') :=
  inferInstanceAs (Decidable (_ ∧ _))

/-! ## What became of the tasks -/

namespace Event

/-- The task of an event that shows its acceptance. -/
@[simp] def accepted : Event T → Option ℕ
  | ret _ (.submit task _) result _ => if result = 0 then some task else none
  | _ => none

/-- The task of an event that shows its rejection. -/
@[simp] def rejected : Event T → Option ℕ
  | ret _ (.submit task _) result _ => if result = 0 then none else some task
  | _ => none

/-- The task that an event takes from the queue. -/
@[simp] def dequeues : Event T → Option ℕ
  | dequeued task => some task
  | _ => none

/-- The task that an event calls. -/
@[simp] def calls : Event T → Option ℕ
  | called task => some task
  | _ => none

/-- The task whose call an event ends. -/
@[simp] def finishes : Event T → Option ℕ
  | finished task => some task
  | _ => none

/-- The task that an event releases. -/
@[simp] def releases : Event T → Option ℕ
  | released task => some task
  | _ => none

end Event

end NativeSync.ThreadPool
