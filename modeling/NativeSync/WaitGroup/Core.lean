import NativeSync.Foundations.Threads
import NativeSync.Native

/-!
# The wait group: the core and its critical sections

The counter that threads wait for to become zero (`wait_group/native.c`), and the MoonBit wrappers
over it (`wait_group/wait_group.mbt`). `add` is one critical section; `wait` and `waitWoken` are the
passes of `sync_wait_group_wait`, `waitLoop` what they have in common from the `while` on.
-/

namespace NativeSync.WaitGroup

open Foundations

/-- The shared state (`sync_wait_group_core_t`). -/
structure Core where
  refs : ℤ
  count : ℤ
  deriving DecidableEq

/-- `sync_wait_group_new` with successful primitives. -/
def waitGroupNew : Core := { refs := 1, count := 0 }

/-- `sync_wait_group_share`. -/
def share (core : Core) : Core := { core with refs := arcInc core.refs }

/-- `sync_wait_group_finalize`: the core without the reference, and whether it was freed. -/
def finalize (core : Core) : Core × Bool :=
  let core := { core with refs := arcDec core.refs }
  (core, decide (core.refs = 0))

/-! ## Adding -/

/-- The exact sum that `sync_wait_group_add` computes in 64 bits. -/
def Core.next (core : Core) (delta : Int32) : ℤ := core.count + delta.toInt

/-- The sum is a count. -/
def Core.InRange (core : Core) (delta : Int32) : Prop :=
  0 ≤ core.next delta ∧ core.next delta ≤ int32Max

instance (core : Core) (delta : Int32) : Decidable (core.InRange delta) :=
  inferInstanceAs (Decidable (_ ∧ _))

/-- `sync_wait_group_add`; the exit is the result and `*status`. -/
def add (core : Core) (delta : Int32) (os : Os) : Section Core Unit (ℤ × ℤ) :=
  if os.lock ≠ 0 then { core, exit := (0, os.lock) }
  else if core.next delta < 0 ∨ core.next delta > int32Max then
    { core, exit := (0, recordError 0 os.unlock) }
  else
    let core := { core with count := wrap32 (core.next delta) }
    let status := if core.count = 0 then recordError 0 os.cond₁ else 0
    { core
      wakes := if core.count = 0 ∧ os.cond₁ = 0 then [.broadcast ()] else []
      exit := (if recordError status os.unlock = 0 then 1 else 0, recordError status os.unlock) }

/-! ## Waiting -/

/-- How a pass of `sync_wait_group_wait` through the mutex ends. -/
inductive WaitExit
  /-- It sleeps on the condition variable. -/
  | sleep
  /-- It returns with `*status = status`. -/
  | ret (status : ℤ)

/-- A pass of `sync_wait_group_wait` from the `while` loop on. -/
def waitLoop (core : Core) (os : Os) : Section Core Unit WaitExit :=
  if core.count ≠ 0 then
    if os.wait ≠ 0 then { core, exit := .ret (recordError (recordError 0 os.wait) os.unlock) }
    else { core, exit := .sleep }
  else { core, exit := .ret (recordError 0 os.unlock) }

/-- A pass of `sync_wait_group_wait` that starts by taking the mutex. -/
def wait (core : Core) (os : Os) : Section Core Unit WaitExit :=
  if os.lock ≠ 0 then { core, exit := .ret os.lock } else waitLoop core os

/-- A pass of `sync_wait_group_wait` that starts with the return of its condition wait. -/
def waitWoken (core : Core) (os : Os) : Section Core Unit WaitExit :=
  if os.wake ≠ 0 then { core, exit := .ret (recordError (recordError 0 os.wake) os.unlock) }
  else waitLoop core os

/-! ## The wrappers -/

/-- `WaitGroup::add` after the native call. -/
def addResult (result status : ℤ) : Except SyncError Unit :=
  if result = 0 then
    if status ≠ 0 then .error (.waitGroupOperationFailed status)
    else .error .invalidWaitGroupCount
  else .ok ()

/-- `WaitGroup::wait` after the native call. -/
def waitResult (status : ℤ) : Except SyncError Unit :=
  if status ≠ 0 then .error (.waitGroupOperationFailed status) else .ok ()

end NativeSync.WaitGroup
