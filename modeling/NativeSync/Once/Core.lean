import NativeSync.Foundations.Threads
import NativeSync.Native

/-!
# Once: the core and its critical sections

The once-initialization primitive (`unsafe/once/native.c`) and its wrapper `call_once`
(`unsafe/once/once.mbt`). The core holds the state of the initialization. A caller goes through
`begin`, which sleeps as long as an initializer runs and then either grants the caller the
initializer or says how it ended. The caller that was granted it runs its own one outside the mutex
and goes through `complete` or `poison`.
-/

namespace NativeSync.Once

open Foundations

/-- The values `0` to `3` of the field `state`. -/
inductive OnceState
  | fresh
  | running
  | done
  | poisoned
  deriving DecidableEq

/-- The shared state (`sync_once_core_t`). -/
structure Core where
  refs : ℤ
  state : OnceState
  deriving DecidableEq

/-- `sync_once_new` with successful primitives. -/
def onceNew : Core := { refs := 1, state := .fresh }

/-- `sync_once_share`. -/
def share (core : Core) : Core := { core with refs := arcInc core.refs }

/-- `sync_once_finalize`: the core without the reference, and whether it was freed. -/
def finalize (core : Core) : Core × Bool :=
  let core := { core with refs := arcDec core.refs }
  (core, decide (core.refs = 0))

/-! ## Beginning -/

/-- How a pass of `sync_once_begin` through the mutex ends. -/
inductive BeginExit
  /-- It sleeps on the condition variable. -/
  | sleep
  /-- It returns `result` with `*status = status`. -/
  | ret (result status : ℤ)

/-- A pass of `sync_once_begin` from the `while` loop on. -/
def beginLoop (core : Core) (os : Os) : Section Core Unit BeginExit :=
  if core.state = .running then
    if os.wait ≠ 0 then { core, exit := .ret 0 (recordError os.wait os.unlock) }
    else { core, exit := .sleep }
  else if core.state = .fresh then
    { core := { core with state := .running }, exit := .ret 1 (recordError 0 os.unlock) }
  else
    { core, exit := .ret (if core.state = .done then 0 else -1) (recordError 0 os.unlock) }

/-- A pass of `sync_once_begin` that starts by taking the mutex. -/
def begin (core : Core) (os : Os) : Section Core Unit BeginExit :=
  if os.lock ≠ 0 then { core, exit := .ret 0 os.lock } else beginLoop core os

/-- A pass of `sync_once_begin` that starts with the return of its condition wait. -/
def beginWoken (core : Core) (os : Os) : Section Core Unit BeginExit :=
  if os.wake ≠ 0 then { core, exit := .ret 0 (recordError os.wake os.unlock) }
  else beginLoop core os

/-! ## Ending -/

/-- The section that writes the final state and wakes everybody; the exit is `*status`. -/
def settle (state : OnceState) (core : Core) (os : Os) : Section Core Unit ℤ :=
  if os.lock ≠ 0 then { core, exit := os.lock }
  else
    { core := { core with state }
      wakes := if os.cond₁ = 0 then [.broadcast ()] else []
      exit := recordError (recordError 0 os.cond₁) os.unlock }

/-- `sync_once_complete`. -/
def complete (core : Core) (os : Os) : Section Core Unit ℤ := settle .done core os

/-- `sync_once_poison`. -/
def poison (core : Core) (os : Os) : Section Core Unit ℤ := settle .poisoned core os

/-! ## The wrapper -/

/-- What `call_once` raises: the error of its own initializer, or one of the library. -/
inductive Raised (ε : Type)
  | own (error : ε)
  | sync (error : SyncError)
  deriving DecidableEq

variable {ε : Type}

/-- `call_once` after `begin`: its result, or none if it runs its initializer now. -/
def beginResult (result status : ℤ) : Option (Except (Raised ε) Unit) :=
  if status ≠ 0 then some (.error (.sync (.onceOperationFailed status)))
  else if result = 0 then some (.ok ())
  else if result = 1 then none
  else some (.error (.sync .oncePoisoned))

/-- `call_once` after `complete`. -/
def completeResult (status : ℤ) : Except (Raised ε) Unit :=
  if status ≠ 0 then .error (.sync (.onceOperationFailed status)) else .ok ()

/-- `call_once` after `poison`: the error of the initializer goes on, unless `poison` failed. -/
def poisonResult (error : ε) (status : ℤ) : Except (Raised ε) Unit :=
  if status ≠ 0 then .error (.sync (.onceOperationFailed status)) else .error (.own error)

end NativeSync.Once
