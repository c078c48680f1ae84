import Mathlib.Data.Int.Basic
import Mathlib.Data.Int.Order.Basic
import Mathlib.Tactic.Linarith

/-!
# The native layer

What the C files share (`internal/native_internal.h`, `internal/native_sync.h`): 32-bit counters,
the statuses of the operating system's primitives and how a function folds them into one error;
and the errors that the MoonBit wrappers raise (`types/error.mbt`).

A critical section is modelled as one function from the shared state it finds to the shared state
it leaves, so the statuses of all primitives that it calls are given to it at once, as an `Os`. A
status of zero is success. A finalizer aborts the process when a primitive fails; there the model
has no step.
-/

namespace NativeSync

/-- `INT32_MAX`. -/
def int32Max : ℤ := 2147483647

/-- The value of an `int32_t` after an operation whose exact result is `x`. -/
def wrap32 (x : ℤ) : ℤ := x.bmod 4294967296

/-- `sync_arc_inc`. -/
def arcInc (refs : ℤ) : ℤ := wrap32 (refs + 1)

/-- `sync_arc_dec`. -/
def arcDec (refs : ℤ) : ℤ := wrap32 (refs - 1)

theorem wrap32_of_mem {x : ℤ} (h₁ : -2147483648 ≤ x) (h₂ : x ≤ 2147483647) : wrap32 x = x := by
  rw [wrap32, Int.bmod_def]
  split_ifs <;> omega

theorem wrap32_add (x y : ℤ) : wrap32 (wrap32 x + y) = wrap32 (x + y) := Int.bmod_add_bmod

/-- A counter of fewer than `2^32` things is zero only when there is none. -/
theorem wrap32_eq_zero {n : ℕ} (h : n < 4294967296) : wrap32 n = 0 ↔ n = 0 := by
  rw [wrap32, Int.bmod_def]
  split_ifs <;> omega

/-- The statuses returned by the primitives of one critical section: the lock that opens it, the
wait it resumes from (`wake`), the wait it enters (`wait`; a call that fails does not sleep), its
first and second notification, and the unlock that closes it. -/
structure Os where
  lock : ℤ := 0
  wake : ℤ := 0
  wait : ℤ := 0
  cond₁ : ℤ := 0
  cond₂ : ℤ := 0
  unlock : ℤ := 0
  deriving DecidableEq

/-- `sync_record_error`: the first failure is kept. -/
def recordError (error status : ℤ) : ℤ :=
  if error = 0 ∧ status ≠ 0 then status else error

@[simp] theorem recordError_zero (error : ℤ) : recordError error 0 = error := by
  simp [recordError]

theorem zero_recordError (status : ℤ) : recordError 0 status = status := by
  by_cases h : status = 0 <;> simp [recordError, h]

theorem recordError_of_ne {error : ℤ} (h : error ≠ 0) (status : ℤ) :
    recordError error status = error := by
  simp [recordError, h]

theorem recordError_eq_zero {error status : ℤ} :
    recordError error status = 0 ↔ error = 0 ∧ status = 0 := by
  unfold recordError
  split_ifs with h <;> omega

/-- The error of a section that has changed the shared state, notified once and unlocked. -/
def lateError (os : Os) : ℤ := recordError (recordError 0 os.cond₁) os.unlock

theorem lateError_eq_zero {os : Os} : lateError os = 0 ↔ os.cond₁ = 0 ∧ os.unlock = 0 := by
  rw [lateError, recordError_eq_zero, zero_recordError]

theorem lateError_ne_zero {os : Os} : lateError os ≠ 0 ↔ os.cond₁ ≠ 0 ∨ os.unlock ≠ 0 := by
  rw [Ne, lateError_eq_zero, not_and_or]

/-- The errors raised by the wrappers. -/
inductive SyncError
  | invalidMemoryOrdering (message : String)
  | invalidCapacity (capacity : ℤ)
  | invalidMessageSizeLimit (limit : ℤ)
  | invalidQueuedByteLimit (limit : ℤ)
  | invalidOwnedBytesLimits
  | invalidWorkerCount (count : ℤ)
  | invalidWaitGroupCount
  | channelInitializationFailed (status : ℤ)
  | channelOperationFailed (status : ℤ)
  | mutexInitializationFailed (status : ℤ)
  | condvarInitializationFailed (status : ℤ)
  | condvarOperationFailed (status : ℤ)
  | rwLockInitializationFailed (status : ℤ)
  | rwLockOperationFailed (status : ℤ)
  | mutexOperationFailed (status : ℤ)
  | onceInitializationFailed (status : ℤ)
  | onceOperationFailed (status : ℤ)
  | waitGroupInitializationFailed (status : ℤ)
  | waitGroupOperationFailed (status : ℤ)
  | threadCreationFailed (status : ℤ)
  | threadInitializationFailed (status : ℤ)
  | threadJoinFailed (status : ℤ)
  | threadDetachFailed (status : ℤ)
  | threadAlreadyJoined
  | threadAlreadyDetached
  | threadOperationInProgress
  | threadOperationFailed (status : ℤ)
  | threadJoinSelf
  | threadPanicked (message : String)
  | threadPoolCreationFailed (status : ℤ)
  | threadPoolOperationFailed (status : ℤ)
  | threadPoolClosed
  | threadPoolWouldDeadlock
  | threadPoolShutdownFromWorker
  | oncePoisoned
  deriving DecidableEq

end NativeSync
