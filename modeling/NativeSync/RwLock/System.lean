import NativeSync.Foundations.Runs
import NativeSync.Native
import Mathlib.Data.Fintype.Basic
import Mathlib.Logic.Function.Basic

/-!
# Reader-writer locks: the system of their threads

The native reader-writer lock (`unsafe/rwlock/native.c`) and its wrapper (`unsafe/rwlock/rwlock.mbt`).
Any number of threads make, share, use and drop any number of locks. A thread runs callbacks under
`RwLock::with_read` and `RwLock::with_write`, one inside the other, on the same lock or on others.

Every atomic exchange of a test hook and every call of the operating system is a step.

* `takeLock`, `lock` are the points of `sync_rwlock_read_lock` and `sync_rwlock_write_lock`;
* `unlock`, `takeUnlock` are those of `sync_rwlock_read_unlock` and `sync_rwlock_write_unlock`.

The locks of the operating system follow POSIX: a lock is granted for reading when nobody holds it
for writing, for writing when nobody holds it, or the call fails and grants nothing; a thread may
hold a lock for reading several times. `pthread_rwlock_unlock` does not say what it gives back: the
lock for writing if the caller holds it so, else one lock for reading. An unlock that fails gives
nothing back. An unlock by a thread that holds nothing is undefined; there is no step then, and none
where the finalizer aborts.
-/

namespace NativeSync.RwLock

open Foundations

/-- What a lock is held for. -/
inductive Mode
  | read
  | write
  deriving DecidableEq

/-- The fields of a lock besides the lock of the operating system (`sync_rwlock_core_t`). -/
structure Core where
  refs : ℤ
  initialized : Bool
  deriving DecidableEq

/-- A handle (`sync_rwlock_handle_t`): its lock, and its name among the handles of the lock. -/
structure Handle (L : Type) where
  lock : L
  name : ℕ
  deriving DecidableEq

/-- A call of `with_read` or of `with_write`. -/
structure Call (L : Type) where
  handle : Handle L
  mode : Mode
  deriving DecidableEq

/-- The lock of a call. -/
def Call.lock {L : Type} (c : Call L) : L := c.handle.lock

/-- The test hooks (`sync_rwlock_test_next_init_error` and its siblings). -/
inductive Hook
  | init
  | lock
  | unlock
  deriving DecidableEq

/-- What is raised: an error of the library, or another one of a callback. -/
inductive Error (ε : Type)
  | sync (error : SyncError)
  | other (error : ε)
  deriving DecidableEq

/-- Where a thread stands; `out` is how its callback has ended. -/
inductive Point (L ε V : Type)
  /-- In its callback, or outside of every callback. -/
  | user
  /-- Before the test hook of the lock. -/
  | takeLock (c : Call L)
  /-- Before the lock. -/
  | lock (c : Call L)
  /-- Before the unlock. -/
  | unlock (c : Call L) (out : Except (Error ε) V)
  /-- Has unlocked, and is before the test hook of the unlock. -/
  | takeUnlock (c : Call L) (out : Except (Error ε) V)
  deriving DecidableEq

/-- What a run shows: a hook is set, a hook goes off, `RwLock::new` returns, a lock of the operating
system is initialized, one is destroyed (with those who hold it), a callback begins, a call could not
lock, a lock is given back (`mode` is what the operating system gives back), a call ends with `r`. -/
inductive Event (L T ε V : Type)
  | armed (hook : Hook) (status : ℤ)
  | fired (hook : Hook) (status : ℤ)
  | created (l : L) (r : Except SyncError Unit)
  | initialized (l : L)
  | destroyed (l : L) (held : List (T × Mode))
  | began (t : T) (c : Call L)
  | refused (t : T) (c : Call L) (r : Except (Error ε) V)
  | released (t : T) (c : Call L) (mode : Mode)
  | ended (t : T) (c : Call L) (out r : Except (Error ε) V)
  deriving DecidableEq

/-- The locks with their holders and live handles, the threads with the calls whose callbacks they
run (the innermost one first), and the hooks. -/
structure State (L T ε V : Type) where
  cores : L → Option Core
  holders : L → List (T × Mode)
  handles : L → Finset ℕ
  threads : T → Point L ε V
  frames : T → List (Call L)
  next : Hook → ℤ

/-- The actions. `status` is what the operating system answers, `destroy` what it answers to the
destruction of a lock, `out` how a callback ends. -/
inductive Action (L T ε V : Type)
  | arm (hook : Hook) (status : ℤ)
  | new (l : L) (status destroy : ℤ)
  | share (h : Handle L) (name : ℕ)
  | drop (h : Handle L) (destroy : ℤ)
  | call (t : T) (h : Handle L) (mode : Mode)
  | takeLock (t : T)
  | osLock (t : T) (status : ℤ)
  | finish (t : T) (out : Except (Error ε) V)
  | osUnlock (t : T) (status : ℤ)
  | takeUnlock (t : T)

/-! ## The lock of the operating system -/

section Os

variable {T : Type} [DecidableEq T]

/-- A lock held by `held` is granted. -/
def Grants (held : List (T × Mode)) : Mode → Prop
  | .read => ∀ x ∈ held, x.2 = .read
  | .write => held = []

instance (held : List (T × Mode)) (mode : Mode) : Decidable (Grants held mode) :=
  match mode with
  | .read => inferInstanceAs (Decidable (∀ x ∈ held, x.2 = .read))
  | .write => inferInstanceAs (Decidable (held = []))

/-- What `pthread_rwlock_unlock`, called by `t`, gives back. -/
def givenBack (held : List (T × Mode)) (t : T) : Mode :=
  if (t, Mode.write) ∈ held then .write else .read

end Os

/-! ## The wrapper -/

variable {L T ε V : Type}

/-- `RwLock::new` after the native call. -/
def newResult (status : ℤ) : Except SyncError Unit :=
  if status ≠ 0 then .error (.rwLockInitializationFailed status) else .ok ()

/-- What `with_read` and `with_write` raise when the native call fails. -/
def failure (status : ℤ) : Except (Error ε) V := .error (.sync (.rwLockOperationFailed status))

/-- The `defer` block of `with_read` and `with_write`: a failing unlock takes the place of what the
callback returned or raised. -/
def deferred (out : Except (Error ε) V) (status : ℤ) : Except (Error ε) V :=
  if status ≠ 0 then failure status else out

namespace Point

/-- The call that a thread at a point makes. -/
def call : Point L ε V → Option (Call L)
  | user => none
  | takeLock c => some c
  | lock c => some c
  | unlock c _ => some c
  | takeUnlock c _ => some c

end Point

variable [DecidableEq L] [DecidableEq T]

namespace State

/-- Thread `t` moves to `x`. -/
def move (s : State L T ε V) (t : T) (x : Point L ε V) : State L T ε V :=
  { s with threads := Function.update s.threads t x }

/-- The holders of a lock change. -/
def setHolders (s : State L T ε V) (l : L) (held : List (T × Mode)) : State L T ε V :=
  { s with holders := Function.update s.holders l held }

/-- Thread `t` enters or leaves a callback. -/
def setFrames (s : State L T ε V) (t : T) (fs : List (Call L)) : State L T ε V :=
  { s with frames := Function.update s.frames t fs }

/-- A hook is set, or is taken (`sync_test_atomic_store`, `sync_test_atomic_take`). -/
def setNext (s : State L T ε V) (hook : Hook) (status : ℤ) : State L T ε V :=
  { s with next := Function.update s.next hook status }

/-- The references of a lock change. -/
def setRefs (s : State L T ε V) (l : L) (core : Option Core) (handles : Finset ℕ) :
    State L T ε V :=
  { s with cores := Function.update s.cores l core, handles := Function.update s.handles l handles }

/-- No call of a thread uses the handle. -/
def Unused (s : State L T ε V) (h : Handle L) : Prop :=
  ∀ t, (∀ c ∈ s.frames t, c.handle ≠ h) ∧ ∀ c ∈ (s.threads t).call, c.handle ≠ h

instance [Fintype T] (s : State L T ε V) (h : Handle L) : Decidable (s.Unused h) :=
  inferInstanceAs (Decidable (∀ t, (∀ c ∈ s.frames t, c.handle ≠ h) ∧
    ∀ c ∈ (s.threads t).call, c.handle ≠ h))

/-- The lock has not been made yet, or it has been freed and nothing is left of it. -/
def Unborn (s : State L T ε V) (l : L) : Prop := s.cores l = none ∧ s.handles l = ∅

instance (s : State L T ε V) (l : L) : Decidable (s.Unborn l) :=
  inferInstanceAs (Decidable (_ ∧ _))

end State

variable [Fintype T]

/-- One step of the system. -/
def step (s : State L T ε V) : Action L T ε V → Option (State L T ε V × List (Event L T ε V))
  | .arm hook status => some (s.setNext hook status, [.armed hook status])
  | .new l status destroy =>
    if s.Unborn l then
      if status ≠ 0 then some (s, [.created l (newResult status)])
      else if s.next .init ≠ 0 then
        if destroy ≠ 0 then none
        else some (s.setNext .init 0, [.initialized l, .fired .init (s.next .init),
          .destroyed l [], .created l (newResult (s.next .init))])
      else some ((s.setHolders l []).setRefs l (some { refs := 1, initialized := true }) {0},
        [.initialized l, .created l (newResult 0)])
    else none
  | .share h name =>
    match s.cores h.lock with
    | some core =>
      if h.name ∈ s.handles h.lock ∧ name ∉ s.handles h.lock then
        some (s.setRefs h.lock (some { core with refs := arcInc core.refs })
          (insert name (s.handles h.lock)), [])
      else none
    | none => none
  | .drop h destroy =>
    match s.cores h.lock with
    | some core =>
      if h.name ∈ s.handles h.lock ∧ s.Unused h then
        if arcDec core.refs = 0 then
          if core.initialized then
            if destroy ≠ 0 then none
            else some (s.setRefs h.lock none ((s.handles h.lock).erase h.name),
              [.destroyed h.lock (s.holders h.lock)])
          else some (s.setRefs h.lock none ((s.handles h.lock).erase h.name), [])
        else some (s.setRefs h.lock (some { core with refs := arcDec core.refs })
          ((s.handles h.lock).erase h.name), [])
      else none
    | none => none
  | .call t h mode =>
    match s.threads t with
    | .user =>
      if h.name ∈ s.handles h.lock then some (s.move t (.takeLock ⟨h, mode⟩), []) else none
    | _ => none
  | .takeLock t =>
    match s.threads t with
    | .takeLock c =>
      if s.next .lock ≠ 0 then
        some ((s.setNext .lock 0).move t .user,
          [.fired .lock (s.next .lock), .refused t c (failure (s.next .lock))])
      else some (s.move t (.lock c), [])
    | _ => none
  | .osLock t status =>
    match s.threads t with
    | .lock c =>
      -- the core is read, so it has not been freed
      if s.cores c.lock = none then none
      else if status ≠ 0 then some (s.move t .user, [.refused t c (failure status)])
      else if Grants (s.holders c.lock) c.mode then
        some (((s.setHolders c.lock ((t, c.mode) :: s.holders c.lock)).setFrames t
          (c :: s.frames t)).move t .user, [.began t c])
      else none
    | _ => none
  | .finish t out =>
    match s.threads t, s.frames t with
    | .user, c :: _ => some (s.move t (.unlock c out), [])
    | _, _ => none
  | .osUnlock t status =>
    match s.threads t with
    | .unlock c out =>
      if s.cores c.lock = none then none
      else if status ≠ 0 then
        some ((s.setFrames t (s.frames t).tail).move t .user,
          [.ended t c out (deferred out status)])
      else
        let mode := givenBack (s.holders c.lock) t
        if (t, mode) ∈ s.holders c.lock then
          some ((s.setHolders c.lock ((s.holders c.lock).erase (t, mode))).move t
            (.takeUnlock c out), [.released t c mode])
        else none
    | _ => none
  | .takeUnlock t =>
    match s.threads t with
    | .takeUnlock c out =>
      if s.next .unlock ≠ 0 then
        some (((s.setNext .unlock 0).setFrames t (s.frames t).tail).move t .user,
          [.fired .unlock (s.next .unlock), .ended t c out (deferred out (s.next .unlock))])
      else some ((s.setFrames t (s.frames t).tail).move t .user, [.ended t c out (deferred out 0)])
    | _ => none

/-- There is no lock, and all threads are outside of every callback. -/
def State.init : State L T ε V :=
  { cores := fun _ => none, holders := fun _ => [], handles := fun _ => ∅
    threads := fun _ => .user, frames := fun _ => [], next := fun _ => 0 }

/-- The step is not an unlock that fails. -/
def Action.Unlocks : Action L T ε V → Prop
  | osUnlock _ status => status = 0
  | _ => True

/-- A step that is not an unlock that fails. -/
def Unlocking (_ : State L T ε V) (a : Action L T ε V) (_ : State L T ε V) : Prop := a.Unlocks

instance : (a : Action L T ε V) → Decidable a.Unlocks
  | .arm .. => inferInstanceAs (Decidable True)
  | .new .. => inferInstanceAs (Decidable True)
  | .share .. => inferInstanceAs (Decidable True)
  | .drop .. => inferInstanceAs (Decidable True)
  | .call .. => inferInstanceAs (Decidable True)
  | .takeLock .. => inferInstanceAs (Decidable True)
  | .osLock .. => inferInstanceAs (Decidable True)
  | .finish .. => inferInstanceAs (Decidable True)
  | .osUnlock _ status => inferInstanceAs (Decidable (status = 0))
  | .takeUnlock .. => inferInstanceAs (Decidable True)

instance (s : State L T ε V) (a : Action L T ε V) (s' : State L T ε V) :
    Decidable (Unlocking s a s') :=
  inferInstanceAs (Decidable a.Unlocks)

end NativeSync.RwLock
