import NativeSync.Foundations.RingBuffer
import NativeSync.Foundations.Threads
import NativeSync.Native

/-!
# The thread pool: the core and its critical sections

The fixed-size pool with a bounded queue of tasks (`unsafe/thread_pool/native.c`), and the MoonBit
wrappers over it (`unsafe/thread_pool/thread_pool.mbt`). A task is a closure; the model knows it by
its identity.

Each definition is one critical section of the C code, from the lock (or the return of a condition
wait) to the unlock (or the next wait). The functions that abort the process when a primitive fails
have no section there:

* `submitTask` and `submitWoken` are the passes of `sync_thread_pool_submit_task`, `submitLoop` what
  they have in common from the `while` on;
* `shutdownWait` and `shutdownWoken` are the passes of the second half of
  `sync_thread_pool_shutdown`, whose first half is `closeCore`;
* `workerLoop` is a pass of `sync_thread_pool_worker`, first or after a wait;
* `waitWorkers` is a pass of `sync_thread_pool_wait_workers_or_abort`, which the constructor calls
  when it could not create all workers.
-/

namespace NativeSync.ThreadPool

open Foundations

/-- The condition variables of the pool. -/
inductive Cond
  | notEmpty
  | notFull
  | stopped
  deriving DecidableEq

/-- The shared state of a pool (`sync_thread_pool_core_t`): `ring` stands for the fields `tasks`,
`capacity`, `head`, `tail` and `length`. -/
structure Core where
  refs : ℤ
  ring : RingBuffer ℕ
  workerCount : ℤ
  liveWorkers : ℤ
  handles : ℤ
  accepting : Bool

/-- The queue has no free slot. -/
def Core.full (core : Core) : Bool := core.ring.count == core.ring.capacity

/-! ## Submitting -/

/-- How a pass of `sync_thread_pool_submit_task` through the mutex ends. -/
inductive SubmitExit
  /-- It sleeps on `not_full`. -/
  | sleep
  /-- It returns `result` with `*error = error`; unless the result is zero it gives up the task. -/
  | ret (result error : ℤ)

/-- A pass of `sync_thread_pool_submit_task` from the `while` loop on. -/
def submitLoop (core : Core) (task : ℕ) (block : Bool) (os : Os) : Section Core Cond SubmitExit :=
  if block && core.accepting && core.full then
    if os.wait ≠ 0 then { core, exit := .ret 2 (recordError (recordError 0 os.wait) os.unlock) }
    else { core, exit := .sleep }
  else if !core.accepting then { core, exit := .ret 2 (recordError 0 os.unlock) }
  else if core.full then { core, exit := .ret 1 (recordError 0 os.unlock) }
  else
    { core := { core with ring := core.ring.push task }
      wakes := if os.cond₁ = 0 then [.signal .notEmpty] else []
      exit := .ret 0 (recordError (recordError 0 os.cond₁) os.unlock) }

/-- A pass of `sync_thread_pool_submit_task` that starts by taking the mutex; `own` says that the
caller is one of the pool's workers (`sync_current_thread_pool == core`). -/
def submitTask (core : Core) (task : ℕ) (block own : Bool) (os : Os) :
    Section Core Cond SubmitExit :=
  if os.lock ≠ 0 then { core, exit := .ret 2 os.lock }
  else if block && core.accepting && own && core.full then
    { core, exit := .ret 3 (recordError 0 os.unlock) }
  else submitLoop core task block os

/-- A pass of `sync_thread_pool_submit_task` that starts with the return of its condition wait. -/
def submitWoken (core : Core) (task : ℕ) (block : Bool) (os : Os) :
    Section Core Cond SubmitExit :=
  if os.wake ≠ 0 then { core, exit := .ret 2 (recordError (recordError 0 os.wake) os.unlock) }
  else submitLoop core task block os

/-! ## Closing, shutting down and dropping -/

/-- The notifications of a section that stops the pool from accepting, as far as the calls
succeed. -/
def wakeBoth (os : Os) : List (Notify Cond) :=
  (if os.cond₁ = 0 then [.broadcast .notEmpty] else []) ++
    (if os.cond₂ = 0 then [.broadcast .notFull] else [])

/-- `sync_thread_pool_close_core`; the exit is the status. -/
def closeCore (core : Core) (os : Os) : Section Core Cond ℤ :=
  if os.lock ≠ 0 then { core, exit := os.lock }
  else
    { core := { core with accepting := false }
      wakes := wakeBoth os
      exit := recordError (recordError (recordError 0 os.cond₁) os.cond₂) os.unlock }

/-- How a pass of the second half of `sync_thread_pool_shutdown` ends. -/
inductive StopExit
  /-- It sleeps on `stopped`. -/
  | sleep
  /-- It returns zero with `*status = status`. -/
  | ret (status : ℤ)

/-- A pass of the second half of `sync_thread_pool_shutdown` from the `while` loop on. -/
def shutdownLoop (core : Core) (os : Os) : Section Core Cond StopExit :=
  if core.liveWorkers ≠ 0 then
    if os.wait ≠ 0 then { core, exit := .ret (recordError (recordError 0 os.wait) os.unlock) }
    else { core, exit := .sleep }
  else { core, exit := .ret (recordError 0 os.unlock) }

/-- A pass of the second half of `sync_thread_pool_shutdown` that starts by taking the mutex. -/
def shutdownWait (core : Core) (os : Os) : Section Core Cond StopExit :=
  if os.lock ≠ 0 then { core, exit := .ret os.lock } else shutdownLoop core os

/-- A pass of the second half of `sync_thread_pool_shutdown` that starts with the return of its
condition wait, after whose failure it does not wait again. -/
def shutdownWoken (core : Core) (os : Os) : Section Core Cond StopExit :=
  if os.wake ≠ 0 then { core, exit := .ret (recordError (recordError 0 os.wake) os.unlock) }
  else shutdownLoop core os

/-- `sync_thread_pool_share`; the exit is `*status` and whether a handle was made. -/
def share (core : Core) (os : Os) : Option (Section Core Cond (ℤ × Bool)) :=
  if os.lock ≠ 0 then some { core, exit := (os.lock, false) }
  else if core.handles = int32Max then
    let status := recordError 0 os.unlock
    some { core, exit := (if status = 0 then -1 else status, false) }
  else if os.unlock ≠ 0 then none
  else
    some { core := { core with handles := wrap32 (core.handles + 1), refs := arcInc core.refs }
           exit := (0, true) }

/-- The critical section of `sync_thread_pool_finalize`, which also aborts when no handle is
counted. -/
def finalize (core : Core) (os : Os) : Option (Section Core Cond Unit) :=
  if os ≠ {} ∨ core.handles ≤ 0 then none
  else
    let core := { core with handles := wrap32 (core.handles - 1) }
    if core.handles = 0 then
      some { core := { core with accepting := false }, wakes := wakeBoth os, exit := () }
    else some { core, exit := () }

/-- `sync_thread_pool_core_release`: the core without the reference, and the tasks released when it
was the last one (`none` if it was not). -/
def coreRelease (core : Core) : Core × Option (List ℕ) :=
  let core := { core with refs := arcDec core.refs }
  (core, if core.refs = 0 then some core.ring.toList else none)

/-! ## Observing -/

/-- `sync_thread_pool_is_closed`: the result and `*status`. -/
def isClosed (core : Core) (os : Os) : ℤ × ℤ :=
  if os.lock ≠ 0 then (0, os.lock) else (if core.accepting then 0 else 1, recordError 0 os.unlock)

/-- `sync_thread_pool_pending_count`: the result and `*status`. -/
def pendingCount (core : Core) (os : Os) : ℤ × ℤ :=
  if os.lock ≠ 0 then (0, os.lock) else (core.ring.count, recordError 0 os.unlock)

/-! ## The workers -/

/-- How a pass of a worker through the mutex ends. -/
inductive WorkerExit
  /-- It sleeps on `not_empty`. -/
  | sleep
  /-- It leaves its loop. -/
  | leave
  /-- It has taken a task. -/
  | fetched (task : ℕ)

/-- A pass of `sync_thread_pool_worker`, which aborts when a primitive fails. An occupied head slot
that holds no task would be a null pointer dereference: there is no section. -/
def workerLoop (core : Core) (os : Os) : Option (Section Core Cond WorkerExit) :=
  if os ≠ {} then none
  else if core.ring.count == 0 && core.accepting then some { core, exit := .sleep }
  else if core.ring.count == 0 then
    some { core := { core with liveWorkers := wrap32 (core.liveWorkers - 1) }
           wakes := [.broadcast .stopped]
           exit := .leave }
  else
    (core.ring.slots core.ring.head).map fun task =>
      { core := { core with ring := core.ring.pop }
        wakes := [.signal .notFull]
        exit := .fetched task }

/-! ## Construction -/

/-- The section of the constructor that counts a worker before it is created (`1`), or takes it back
(`-1`). -/
def countWorker (core : Core) (n : ℤ) (os : Os) : Option (Section Core Cond Unit) :=
  if os ≠ {} then none
  else some { core := { core with liveWorkers := wrap32 (core.liveWorkers + n) }, exit := () }

/-- A pass of `sync_thread_pool_wait_workers_or_abort`; the exit says whether it sleeps on
`stopped`. -/
def waitWorkers (core : Core) (os : Os) : Option (Section Core Cond Bool) :=
  if os ≠ {} then none else some { core, exit := core.liveWorkers ≠ 0 }

/-- `sync_thread_pool_new` up to the creation of the workers: the core, or `*status`. The test for
the size of the slot array is implied by the limit of the capacity. -/
def poolNew (workerCount capacity : ℤ) (allocCore allocTasks : Bool)
    (mutex notEmpty notFull stopped : ℤ) : Except ℤ Core :=
  if workerCount ≤ 0 ∨ workerCount > 64 ∨ capacity ≤ 0 ∨ capacity > 16384 then .error (-1)
  else if !allocCore then .error (-2)
  else if !allocTasks then .error (-2)
  else if mutex ≠ 0 then .error mutex
  else if notEmpty ≠ 0 then .error notEmpty
  else if notFull ≠ 0 then .error notFull
  else if stopped ≠ 0 then .error stopped
  else
    .ok { refs := 1, ring := .empty capacity.toNat, workerCount, liveWorkers := 0, handles := 1
          accepting := true }

/-- The sizes that the constructor accepts. -/
structure Size where
  workers : ℕ
  capacity : ℕ
  workers_pos : 0 < workers
  workers_le : workers ≤ 64
  capacity_pos : 0 < capacity
  capacity_le : capacity ≤ 16384

/-- The core of a pool of this size before its workers are created. -/
def Size.core (N : Size) : Core :=
  { refs := 1, ring := .empty N.capacity, workerCount := N.workers, liveWorkers := 0, handles := 1
    accepting := true }

/-- **The constructor accepts exactly the sizes of `Size`.** -/
theorem poolNew_eq_ok {workerCount capacity mutex notEmpty notFull stopped : ℤ}
    {allocCore allocTasks : Bool} {core : Core} :
    poolNew workerCount capacity allocCore allocTasks mutex notEmpty notFull stopped = .ok core ↔
      allocCore = true ∧ allocTasks = true ∧ mutex = 0 ∧ notEmpty = 0 ∧ notFull = 0 ∧
        stopped = 0 ∧ ∃ N : Size, workerCount = N.workers ∧ capacity = N.capacity ∧
          core = N.core := by
  constructor
  · intro h
    unfold poolNew at h
    split_ifs at h with h₁ h₂ h₃ h₄ h₅ h₆ h₇
    have hc := Except.ok.inj h
    refine ⟨by simpa using h₂, by simpa using h₃, not_not.1 h₄, not_not.1 h₅, not_not.1 h₆,
      not_not.1 h₇, ⟨workerCount.toNat, capacity.toNat, by omega, by omega, by omega, by omega⟩,
      by simp; omega, by simp; omega, ?_⟩
    rw [← hc, Size.core, Int.toNat_of_nonneg (by omega)]
  · rintro ⟨rfl, rfl, rfl, rfl, rfl, rfl, N, rfl, rfl, rfl⟩
    have h₁ := N.workers_pos
    have h₂ := N.workers_le
    have h₃ := N.capacity_pos
    have h₄ := N.capacity_le
    unfold poolNew
    rw [if_neg (by omega)]
    simp [Size.core]

/-! ## The wrappers -/

/-- The result of a non-blocking submission (`TryExecuteResult`). -/
inductive TryExecuteResult
  | submitted
  | queueFull
  | poolClosed
  deriving DecidableEq

/-- `ThreadPool::try_execute` after the native call. -/
def tryExecuteResult (result error : ℤ) : Except SyncError TryExecuteResult :=
  if error ≠ 0 then .error (.threadPoolOperationFailed error)
  else if result = 0 then .ok .submitted
  else if result = 1 then .ok .queueFull
  else .ok .poolClosed

/-- `ThreadPool::execute` after the native call. -/
def executeResult (result error : ℤ) : Except SyncError Unit :=
  if error ≠ 0 then .error (.threadPoolOperationFailed error)
  else if result = 0 then .ok ()
  else if result = 3 then .error .threadPoolWouldDeadlock
  else .error .threadPoolClosed

end NativeSync.ThreadPool
