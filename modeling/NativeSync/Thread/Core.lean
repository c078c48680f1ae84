import NativeSync.Native

/-!
# Threads: the core and its critical sections

The handle of a native thread (`unsafe/thread/native.c`) and the MoonBit wrappers over it
(`unsafe/thread/thread.mbt`). The core of a handle is shared with the thread it belongs to, the
worker. It holds the task, a closure, until the worker has called it and the handle was joined or
detached, and the outcome of the task until somebody joins.

`join` and `detach` go through the mutex twice: they claim the thread (`joinBegin`, `detachBegin`),
call the operating system outside the mutex, and then either take what there is to take (`joinEnd`,
`detachEnd`) or give the claim back (`rollback`). The worker calls the task, stores its outcome
(`complete`) and goes through the mutex a last time (`mainEnd`).

All sections but that of `isFinished` abort the process when the mutex fails; there is no section
then.
-/

namespace NativeSync.Thread

/-- The states of a handle (`SYNC_THREAD_CREATED` to `SYNC_THREAD_FAILED`). -/
inductive ThreadState
  | created
  | joinable
  | joining
  | detaching
  | joined
  | detached
  | failed
  deriving DecidableEq

/-- The states in which a handle may be dropped. -/
def ThreadState.terminal : ThreadState → Bool
  | joined => true
  | detached => true
  | failed => true
  | _ => false

/-- How a task ended (`ThreadOutcome`): with a value, or with an error of which the text is kept. -/
inductive Outcome (α : Type)
  | returned (value : α)
  | failed (message : String)
  deriving DecidableEq

/-- The shared state of a handle (`sync_thread_core_t`); `task` says that the pointer to the closure
is not null, and `result` is the boxed outcome if there is one. -/
structure Core (α : Type) where
  refs : ℤ
  task : Bool
  result : Option (Outcome α)
  started : Bool
  finished : Bool
  state : ThreadState

variable {α : Type}

/-! ## Starting a thread -/

/-- `sync_thread_new` after its mutex was made. -/
def threadNew : Core α :=
  { refs := 1, task := false, result := none, started := false, finished := false
    state := .created }

/-- `sync_thread_start` up to the creation of the thread. -/
def startBegin (core : Core α) : Core α := { core with task := true, refs := arcInc core.refs }

/-- `sync_thread_start` takes the task back after the creation failed. -/
def startUndo (core : Core α) : Core α := { core with task := false }

/-- The section of `sync_thread_start` after a failed creation. -/
def startFail (core : Core α) : Core α := { core with state := .failed }

/-- The section of `sync_thread_start` after a successful creation. -/
def startEnd (core : Core α) : Core α := { core with started := true, state := .joinable }

/-! ## The worker -/

/-- `sync_thread_complete`: the core, and whether the new outcome was given up. -/
def complete (core : Core α) (result : Outcome α) : Core α × Bool :=
  match core.result with
  | none => ({ core with result := some result }, false)
  | some _ => (core, true)

/-- The section of `sync_thread_main` after the call: the core, and whether it took the task. -/
def mainEnd (core : Core α) : Core α × Bool :=
  if core.state = .detached then ({ core with finished := true, task := false }, core.task)
  else ({ core with finished := true }, false)

/-- `sync_thread_core_release`: the core without the reference, and what was given up with it if it
was the last one: the task, and the outcome. -/
def coreRelease (core : Core α) : Core α × Option (Bool × Option (Outcome α)) :=
  let core := { core with refs := arcDec core.refs }
  (core, if core.refs = 0 then some (core.task, core.result) else none)

/-! ## Joining and detaching -/

/-- The first section of `sync_thread_join`: the core, and the status if the call ends here; `self`
says that the caller is the worker. -/
def joinBegin (core : Core α) (self : Bool) (injected : ℤ) : Core α × Option ℤ :=
  if !core.started || core.state = .failed || core.state = .joined then (core, some (-1))
  else if core.state = .detached then (core, some (-3))
  else if core.state = .joining || core.state = .detaching then (core, some (-4))
  else if self then (core, some (-2))
  else if injected ≠ 0 then (core, some injected)
  else ({ core with state := .joining }, none)

/-- The last section of `sync_thread_join`: the core, the outcome, and whether it took the task. -/
def joinEnd (core : Core α) : Core α × Option (Outcome α) × Bool :=
  ({ core with result := none, task := false, state := .joined }, core.result, core.task)

/-- The first section of `sync_thread_detach`: the core, and the status if the call ends here. -/
def detachBegin (core : Core α) : Core α × Option ℤ :=
  if !core.started || core.state = .failed || core.state = .joined then (core, some (-1))
  else if core.state = .detached then (core, some (-2))
  else if core.state = .joining || core.state = .detaching then (core, some (-3))
  else ({ core with state := .detaching }, none)

/-- The last section of `sync_thread_detach`: the core, and whether it took the task. -/
def detachEnd (core : Core α) : Core α × Bool :=
  if core.finished then ({ core with state := .detached, task := false }, core.task)
  else ({ core with state := .detached }, false)

/-- The section with which both give the claim back. -/
def rollback (core : Core α) : Core α := { core with state := .joinable }

/-- `sync_thread_is_finished`: the result and `*status`. -/
def isFinished (core : Core α) (os : Os) : Bool × ℤ :=
  if os.lock ≠ 0 then (false, os.lock) else (core.finished, recordError 0 os.unlock)

/-! ## The wrappers -/

/-- What the value of a successful join is to the caller. -/
def Outcome.toExcept : Outcome α → Except SyncError α
  | returned value => .ok value
  | failed message => .error (.threadPanicked message)

/-- `join_raw` after the native call; a null pointer has no result. -/
def joinResult (raw : Option (Outcome α)) (status : ℤ) : Option (Except SyncError α) :=
  if status = 0 then raw.map Outcome.toExcept
  else if status = -1 then some (.error .threadAlreadyJoined)
  else if status = -2 then some (.error .threadJoinSelf)
  else if status = -3 then some (.error .threadAlreadyDetached)
  else if status = -4 then some (.error .threadOperationInProgress)
  else some (.error (.threadJoinFailed status))

end NativeSync.Thread
