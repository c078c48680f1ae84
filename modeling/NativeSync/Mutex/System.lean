import NativeSync.Foundations.Runs
import NativeSync.Foundations.Threads
import NativeSync.Native
import Mathlib.Data.Fintype.Basic

/-!
# Mutexes and condition variables: the system of their threads

The native mutex and condition variable (`unsafe/mutex/native.c`) and the MoonBit wrappers over them
(`unsafe/mutex/mutex.mbt`). Any number of threads use any number of mutexes and condition variables:
a thread runs callbacks under `Mutex::with_lock`, one inside the other, and waits and notifies where
it likes.

The fields `owner` and `locked` of a mutex are read by `sync_condvar_wait` in a thread that need not
hold it. So nothing here is a critical section: every read and every write of one of them is a step,
and so is every call of the operating system.

* `lock`, `lockOwner`, `lockLocked` are the points of `sync_mutex_lock_get`;
* `unlockLocked`, `unlockOwner`, `unlock` are those of `sync_mutex_release_unlock`;
* `checkLocked`, `checkOwner`, `sleep`, `wakeOwner`, `wakeLocked` are those of `sync_condvar_wait`.

The mutexes of the operating system follow POSIX: a lock is granted when nobody holds the mutex or
fails and grants nothing (a thread that locks a mutex it holds is never granted it), a wait that
fails has not released the mutex, a wait that succeeds releases it and takes it again before it
returns, perhaps for no reason, and an unlock by the holder succeeds. Where a guard is used out of
its time the wrapper panics, which ends the process; there is no step then.
-/

namespace NativeSync.Mutex

open Foundations

/-- The fields of a mutex besides the mutex of the operating system (`sync_mutex_core_t`). -/
structure Core where
  owner : UInt64 := 0
  locked : Bool := false
  deriving DecidableEq

/-- A guard (`MutexGuard`): its mutex, and the name of the cell `active`. -/
structure Guard (M : Type) where
  mutex : M
  active : ℕ
  deriving DecidableEq

/-- Where a thread stands. -/
inductive Point (M C : Type)
  /-- In its callback, or outside of every callback. -/
  | user
  /-- Before the lock. -/
  | lock (m : M)
  /-- Has got the mutex, and is about to write `owner`. -/
  | lockOwner (m : M)
  /-- About to write `locked`. -/
  | lockLocked (m : M)
  /-- Its callback has ended, by raising or not; about to write `locked`. -/
  | unlockLocked (g : Guard M) (raised : Bool)
  /-- About to write `owner`. -/
  | unlockOwner (g : Guard M) (raised : Bool)
  /-- About to unlock. -/
  | unlock (g : Guard M) (raised : Bool)
  /-- About to read `locked`. -/
  | checkLocked (m : M) (c : C)
  /-- About to read `owner`. -/
  | checkOwner (m : M) (c : C)
  /-- Before the wait or in it. -/
  | sleep (m : M) (c : C)
  /-- Back from the wait, and about to write `owner`. -/
  | wakeOwner (m : M) (c : C)
  /-- About to write `locked`. -/
  | wakeLocked (m : M) (c : C)
  deriving DecidableEq

/-- The condition variable that a thread at a point waits on. -/
def Point.cond {M C : Type} : Point M C → Option C
  | sleep _ c => some c
  | _ => none

/-- `Mutex::with_lock` after the native call that locks. -/
def lockResult (status : ℤ) : Except SyncError Unit :=
  if status ≠ 0 then .error (.mutexOperationFailed status) else .ok ()

/-- The wrappers of the condition variables after the native call. -/
def condvarResult (status : ℤ) : Except SyncError Unit :=
  if status ≠ 0 then .error (.condvarOperationFailed status) else .ok ()

/-- What a run shows: a callback begins, `with_lock` could not lock, a wait passes its check, a wait
is rejected by its check, a wait that passed it returns, the mutex is unlocked, `with_lock` ends, a
notification returns. -/
inductive Event (M C T : Type)
  | began (t : T) (g : Guard M)
  | failed (t : T) (m : M) (r : Except SyncError Unit)
  | passed (t : T) (m : M)
  | rejected (t : T) (m : M) (r : Except SyncError Unit)
  | waited (t : T) (m : M) (r : Except SyncError Unit)
  | unlocked (t : T) (g : Guard M)
  | ended (t : T) (g : Guard M) (raised : Bool)
  | notified (t : T) (c : C) (r : Except SyncError Unit)
  deriving DecidableEq

/-- The mutexes, who holds them, the threads with the guards of their callbacks (the innermost one
first), the mutexes of all guards ever made, and which of the guards are active. -/
structure State (M C T : Type) where
  core : M → Core
  holder : M → Option T
  threads : T → Pc (Point M C)
  frames : T → List (Guard M)
  made : List M
  active : ℕ → Bool

/-- How `sync_condvar_wait` is called: by `Condvar::wait` with a guard, or by
`condvar_wait_unchecked` with a mutex. -/
inductive Via (M : Type)
  | guard (k : ℕ)
  | unchecked (m : M)
  deriving DecidableEq

/-- The actions. `injected` is what the test hook returns, `status` what the operating system
does. -/
inductive Action (M C T : Type)
  | withLock (t : T) (m : M)
  | osLock (t : T) (status : ℤ)
  | finish (t : T) (raised : Bool)
  | wait (t : T) (c : C) (via : Via M)
  | osWait (t : T) (status : ℤ)
  | spurious (t : T)
  | osWake (t : T)
  | advance (t : T)
  | notify (t : T) (c : C) (all : Bool) (injected status : ℤ) (pick : Option T)
  deriving DecidableEq

/-- The identifiers of the threads (`sync_os_current_thread_id`), distinct and nonzero. -/
structure Ids (T : Type) where
  id : T → UInt64
  injective : Function.Injective id
  ne_zero : ∀ t, id t ≠ 0

variable {M C T : Type} [DecidableEq M] [DecidableEq T]

namespace State

/-- Thread `t` moves to `x`. -/
def move (s : State M C T) (t : T) (x : Pc (Point M C)) : State M C T :=
  { s with threads := Function.update s.threads t x }

/-- Write `owner` of a mutex. -/
def setOwner (s : State M C T) (m : M) (owner : UInt64) : State M C T :=
  { s with core := Function.update s.core m { s.core m with owner } }

/-- Write `locked` of a mutex. -/
def setLocked (s : State M C T) (m : M) (locked : Bool) : State M C T :=
  { s with core := Function.update s.core m { s.core m with locked } }

/-- The mutex of the operating system changes hands. -/
def setHolder (s : State M C T) (m : M) (h : Option T) : State M C T :=
  { s with holder := Function.update s.holder m h }

omit [DecidableEq M] in
@[simp] theorem move_frames (s : State M C T) (t : T) (x : Pc (Point M C)) :
    (s.move t x).frames = s.frames := rfl

omit [DecidableEq T] in
@[simp] theorem setOwner_frames (s : State M C T) (m : M) (owner : UInt64) :
    (s.setOwner m owner).frames = s.frames := rfl

omit [DecidableEq T] in
@[simp] theorem setLocked_frames (s : State M C T) (m : M) (locked : Bool) :
    (s.setLocked m locked).frames = s.frames := rfl

omit [DecidableEq T] in
@[simp] theorem setHolder_frames (s : State M C T) (m : M) (h : Option T) :
    (s.setHolder m h).frames = s.frames := rfl

/-- The mutex whose `sync_condvar_wait` a call reaches; it panics if the guard is not active
(`MutexGuard::ensure_active`). -/
def target (s : State M C T) : Via M → Option M
  | .guard k => if s.active k then s.made[k]? else none
  | .unchecked m => some m

/-- `with_lock` has locked the mutex: it makes a guard and calls `f`. -/
def begin (s : State M C T) (t : T) (m : M) : State M C T :=
  { s with
    frames := Function.update s.frames t (⟨m, s.made.length⟩ :: s.frames t)
    made := s.made ++ [m]
    active := Function.update s.active s.made.length true }

/-- A step of thread `t` inside one of the native functions. -/
def advance (ids : Ids T) (s : State M C T) (t : T) :
    Option (State M C T × List (Event M C T)) :=
  match s.threads t with
  | .run (.lockOwner m) => some ((s.setOwner m (ids.id t)).move t (.run (.lockLocked m)), [])
  | .run (.lockLocked m) =>
    some (((s.setLocked m true).begin t m).move t (.run .user), [.began t ⟨m, s.made.length⟩])
  | .run (.unlockLocked g raised) =>
    some ((s.setLocked g.mutex false).move t (.run (.unlockOwner g raised)), [])
  | .run (.unlockOwner g raised) =>
    some ((s.setOwner g.mutex 0).move t (.run (.unlock g raised)), [])
  | .run (.unlock g raised) =>
    some ({ (s.setHolder g.mutex none).move t (.run .user) with
        frames := Function.update s.frames t (s.frames t).tail },
      [.unlocked t g, .ended t g raised])
  | .run (.checkLocked m c) =>
    if (s.core m).locked then some (s.move t (.run (.checkOwner m c)), [])
    else some (s.move t (.run .user), [.rejected t m (condvarResult (-1))])
  | .run (.checkOwner m c) =>
    if (s.core m).owner = ids.id t then
      some (s.move t (.run (.sleep m c)), [.passed t m])
    else some (s.move t (.run .user), [.rejected t m (condvarResult (-1))])
  | .run (.wakeOwner m c) => some ((s.setOwner m (ids.id t)).move t (.run (.wakeLocked m c)), [])
  | .run (.wakeLocked m _) =>
    some ((s.setLocked m true).move t (.run .user), [.waited t m (condvarResult 0)])
  | _ => none

end State

variable [DecidableEq C] [Fintype T]

/-- One step of the system. -/
def step (ids : Ids T) (s : State M C T) :
    Action M C T → Option (State M C T × List (Event M C T))
  | .withLock t m =>
    match s.threads t with
    | .run .user => some (s.move t (.run (.lock m)), [])
    | _ => none
  | .osLock t status =>
    match s.threads t with
    | .run (.lock m) =>
      if status ≠ 0 then some (s.move t (.run .user), [.failed t m (lockResult status)])
      else if s.holder m = none then
        some ((s.setHolder m (some t)).move t (.run (.lockOwner m)), [])
      else none
    | _ => none
  | .finish t raised =>
    match s.threads t, s.frames t with
    | .run .user, g :: _ =>
      some ({ s.move t (.run (.unlockLocked g raised)) with
        active := Function.update s.active g.active false }, [])
    | _, _ => none
  | .wait t c via =>
    match s.threads t with
    | .run .user => (s.target via).map fun m => (s.move t (.run (.checkLocked m c)), [])
    | _ => none
  | .osWait t status =>
    match s.threads t with
    | .run (.sleep m c) =>
      if status ≠ 0 then some (s.move t (.run .user), [.waited t m (condvarResult status)])
      else some ((s.setHolder m none).move t (.wait .asleep (.sleep m c)), [])
    | _ => none
  | .spurious t =>
    match s.threads t with
    | .wait .asleep p => some (s.move t (.wait .spurious p), [])
    | _ => none
  | .osWake t =>
    match s.threads t with
    | .wait .asleep _ => none
    | .wait _ (.sleep m c) =>
      if s.holder m = none then
        some ((s.setHolder m (some t)).move t (.run (.wakeOwner m c)), [])
      else none
    | _ => none
  | .advance t => s.advance ids t
  | .notify t c all injected status pick =>
    match s.threads t with
    | .run .user =>
      -- the test hook of `sync_condvar_notify_one` and `sync_condvar_notify_all`
      if injected ≠ 0 then some (s, [.notified t c (condvarResult injected)])
      else if status ≠ 0 then some (s, [.notified t c (condvarResult status)])
      else
        (deliver Point.cond pick [if all then .broadcast c else .signal c] s.threads).map fun f =>
          ({ s with threads := f }, [.notified t c (condvarResult 0)])
    | _ => none

/-- Nothing is locked, and all threads are outside of every callback (`sync_mutex_new`). -/
def State.init : State M C T :=
  { core := fun _ => {}, holder := fun _ => none, threads := fun _ => .run .user
    frames := fun _ => [], made := [], active := fun _ => false }

/-- The only assumption on a step is the one that the model of the operating system makes. -/
def Any (_ : State M C T) (_ : Action M C T) (_ : State M C T) : Prop := True

instance (s : State M C T) (a : Action M C T) (s' : State M C T) : Decidable (Any s a s') :=
  inferInstanceAs (Decidable True)

end NativeSync.Mutex
