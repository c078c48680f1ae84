import NativeSync.Foundations.Resources
import NativeSync.Native

/-!
# The constructors and what they acquire

Every object of the library has a native core: memory, and the mutexes, condition variables and
locks of the operating system in it. Here are the constructors statement by statement, as far as
they acquire and release these parts, and the code with which the last reference releases them.

A constructor makes the parts one after the other. When one cannot be had, it gives back those that
it has and returns a null pointer with the status. `sync_alloc` aborts when there is no memory, and
so does the code that destroys a part when that fails.
-/

namespace NativeSync.Constructors

open Foundations

/-- The parts of the objects. -/
inductive Part
  | core
  /-- The boxed value that a mutex protects; its constructor is given it. -/
  | value
  /-- The array of the slots of a channel, or of the tasks of a pool. -/
  | slots
  | mutex
  | lock
  | cond
  | readable
  | writable
  | notEmpty
  | notFull
  | stopped
  deriving DecidableEq

/-- What the system answers to the calls of a constructor: how many pointers an array may have
(`SIZE_MAX / sizeof(void *)`), whether there is memory, the statuses of the initializations and of
the destructions, and the error that a test hook injects. -/
structure Calls where
  maxLength : ℤ
  alloc : Part → Bool
  init : Part → ℤ
  destroy : Part → ℤ
  injected : ℤ

/-- `free`, and `moonbit_decref`. -/
def free (r : Part) : Build Part Unit := .release r

namespace Calls

variable (o : Calls)

/-- `sync_alloc`. -/
def syncAlloc (r : Part) : Build Part Unit := if o.alloc r = true then .acquire r else .aborts

/-- `sync_array_size_or_abort` of an array of pointers, and the `sync_alloc` of that size. -/
def syncAllocArray (length : ℤ) (r : Part) : Build Part Unit := do
  if length ≤ 0 ∨ length > o.maxLength then
    Build.aborts
  o.syncAlloc r

/-- `sync_thread_pool_try_alloc`: whether there is memory. -/
def tryAlloc (r : Part) : Build Part Bool :=
  if o.alloc r = true then do
    Build.acquire r
    return true
  else return false

/-- `sync_os_mutex_init` and its siblings. -/
def osInit (r : Part) : Build Part ℤ :=
  if o.init r = 0 then do
    Build.acquire r
    return 0
  else return o.init r

/-- An initialization that a test hook may replace by a failure. -/
def hookedInit (r : Part) : Build Part ℤ := if o.injected = 0 then o.osInit r else pure o.injected

/-- `sync_os_mutex_destroy` and its siblings, with the abort of a failure. -/
def osDestroy (r : Part) : Build Part Unit := if o.destroy r = 0 then .release r else .aborts

end Calls

/-! ## The code -/

variable (o : Calls)

/-- `sync_channel_new`: whether it returns a handle, and `*status`. -/
def channelNew (capacity : ℤ) : Build Part (Bool × ℤ) := do
  o.syncAlloc .core
  o.syncAllocArray capacity .slots
  let status ← o.hookedInit .mutex
  if status ≠ 0 then
    free .slots
    free .core
    return (false, status)
  let status ← o.osInit .readable
  if status ≠ 0 then
    o.osDestroy .mutex
    free .slots
    free .core
    return (false, status)
  let status ← o.osInit .writable
  if status ≠ 0 then
    o.osDestroy .readable
    o.osDestroy .mutex
    free .slots
    free .core
    return (false, status)
  return (true, status)

/-- `sync_channel_core_release` of the last reference, after the messages. -/
def channelRelease : Build Part Unit := do
  free .slots
  o.osDestroy .writable
  o.osDestroy .readable
  o.osDestroy .mutex
  free .core

/-- `sync_owned_bytes_channel_new`. -/
def ownedBytesChannelNew (capacity : ℤ) : Build Part (Bool × ℤ) := channelNew o capacity

/-- `sync_owned_bytes_core_release` of the last reference, after the messages. -/
def ownedBytesRelease : Build Part Unit := channelRelease o

/-- `sync_wait_group_new`. -/
def waitGroupNew : Build Part (Bool × ℤ) := do
  o.syncAlloc .core
  let status ← o.osInit .mutex
  if status ≠ 0 then
    free .core
    return (false, status)
  if o.injected ≠ 0 then
    o.osDestroy .mutex
    free .core
    return (false, o.injected)
  let status ← o.osInit .cond
  if status ≠ 0 then
    o.osDestroy .mutex
    free .core
    return (false, status)
  return (true, status)

/-- `sync_wait_group_finalize` of the last reference. -/
def waitGroupRelease : Build Part Unit := do
  o.osDestroy .cond
  o.osDestroy .mutex
  free .core

/-- `sync_once_new`. -/
def onceNew : Build Part (Bool × ℤ) := waitGroupNew o

/-- `sync_once_finalize` of the last reference. -/
def onceRelease : Build Part Unit := waitGroupRelease o

/-- `sync_mutex_new`. -/
def mutexNew : Build Part (Bool × ℤ) := do
  o.syncAlloc .core
  let status ← o.hookedInit .mutex
  if status ≠ 0 then
    free .value
    free .core
    return (false, status)
  return (true, status)

/-- `sync_mutex_finalize` of the last reference. -/
def mutexRelease : Build Part Unit := do
  free .value
  o.osDestroy .mutex
  free .core

/-- `sync_condvar_new`. -/
def condvarNew : Build Part (Bool × ℤ) := do
  o.syncAlloc .core
  let status ← o.hookedInit .cond
  if status ≠ 0 then
    free .core
    return (false, status)
  return (true, status)

/-- `sync_cond_finalize` of the last reference. -/
def condvarRelease : Build Part Unit := do
  o.osDestroy .cond
  free .core

/-- `sync_rwlock_new`. -/
def rwLockNew : Build Part (Bool × ℤ) := do
  o.syncAlloc .core
  let status ← o.osInit .lock
  if status ≠ 0 then
    free .core
    return (false, status)
  if o.injected ≠ 0 then
    o.osDestroy .lock
    free .core
    return (false, o.injected)
  return (true, status)

/-- `sync_rwlock_finalize` of the last reference; the lock was initialized. -/
def rwLockRelease : Build Part Unit := do
  o.osDestroy .lock
  free .core

/-- `sync_thread_new`. -/
def threadNew : Build Part (Bool × ℤ) := do
  o.syncAlloc .core
  let status ← o.osInit .mutex
  if status ≠ 0 then
    free .core
    return (false, status)
  return (true, status)

/-- `sync_thread_core_release` of the last reference, after the task and the result; the mutex was
initialized. -/
def threadRelease : Build Part Unit := do
  o.osDestroy .mutex
  free .core

/-- `sync_thread_pool_new` up to the creation of the workers. -/
def threadPoolNew (workerCount capacity : ℤ) : Build Part (Bool × ℤ) := do
  if workerCount ≤ 0 ∨ workerCount > 64 ∨ capacity ≤ 0 ∨ capacity > 16384 ∨
      capacity > o.maxLength then
    return (false, -1)
  let core ← o.tryAlloc .core
  if core = false then
    return (false, -2)
  let tasks ← o.tryAlloc .slots
  if tasks = false then
    free .core
    return (false, -2)
  let status ← o.osInit .mutex
  if status ≠ 0 then
    free .slots
    free .core
    return (false, status)
  let status ← o.osInit .notEmpty
  if status ≠ 0 then
    o.osDestroy .mutex
    free .slots
    free .core
    return (false, status)
  let status ← o.osInit .notFull
  if status ≠ 0 then
    o.osDestroy .notEmpty
    o.osDestroy .mutex
    free .slots
    free .core
    return (false, status)
  let status ← o.osInit .stopped
  if status ≠ 0 then
    o.osDestroy .notFull
    o.osDestroy .notEmpty
    o.osDestroy .mutex
    free .slots
    free .core
    return (false, status)
  return (true, status)

/-- `sync_thread_pool_core_release` of the last reference, after the tasks. -/
def threadPoolRelease : Build Part Unit := do
  free .slots
  o.osDestroy .stopped
  o.osDestroy .notFull
  o.osDestroy .notEmpty
  o.osDestroy .mutex
  free .core

/-! ## Cascades -/

/-- Give a part back. -/
def Calls.undo : Part → Build Part Unit
  | .core => free .core
  | .slots => free .slots
  | .value => free .value
  | r => o.osDestroy r

/-- Whether the array of the slots of a channel can be had. -/
def Calls.arrayOk (length : ℤ) (r : Part) : Bool :=
  decide (0 < length ∧ length ≤ o.maxLength) && o.alloc r

/-- The status of an allocation that may fail. -/
def Calls.tryStatus (r : Part) : ℤ := if o.alloc r = true then 0 else -2

/-- The status of the check of the arguments of a pool. -/
def Calls.poolArguments (workerCount capacity : ℤ) : ℤ :=
  if workerCount ≤ 0 ∨ workerCount > 64 ∨ capacity ≤ 0 ∨ capacity > 16384 ∨
      capacity > o.maxLength then -1 else 0

theorem Calls.tryStatus_cases (r : Part) : o.tryStatus r = 0 ∨ o.tryStatus r = -2 := by
  unfold Calls.tryStatus
  split_ifs
  · exact .inl rfl
  · exact .inr rfl

theorem undoes : Undoes o.undo := by
  intro r held hr
  cases r with
  | core => exact .release hr
  | slots => exact .release hr
  | value => exact .release hr
  | _ => exact .ite (fun _ => .release hr) fun _ => .aborts

section Steps

variable {β : Type} (r : Part)

theorem syncAlloc_bind (f : Unit → Build Part β) :
    (o.syncAlloc r >>= f) = if o.alloc r = true then Build.acquire r >>= f else .aborts := by
  unfold Calls.syncAlloc
  split_ifs <;> rfl

/-- An allocation and the test of its result. -/
theorem tryAlloc_bind (fail next : Build Part β) :
    (o.tryAlloc r >>= fun ok => if ok = false then fail else next) =
      if o.tryStatus r = 0 then Build.acquire r >>= fun _ => next else fail := by
  unfold Calls.tryAlloc Calls.tryStatus
  split_ifs <;> simp_all

/-- An initialization and the test of its status. -/
theorem osInit_bind (fail next : ℤ → Build Part β) :
    (o.osInit r >>= fun status => if status ≠ 0 then fail status else next status) =
      if o.init r = 0 then Build.acquire r >>= fun _ => next 0 else fail (o.init r) := by
  unfold Calls.osInit
  split_ifs with h
  · simp
  · simp [h]

/-- An initialization with a test hook, and the test of the status. -/
theorem hookedInit_bind (fail next : ℤ → Build Part β) :
    (o.hookedInit r >>= fun status => if status ≠ 0 then fail status else next status) =
      if o.injected = 0 then
        if o.init r = 0 then Build.acquire r >>= fun _ => next 0 else fail (o.init r)
      else fail o.injected := by
  unfold Calls.hookedInit
  by_cases h : o.injected = 0
  · rw [if_pos h, if_pos h, osInit_bind]
  · simp [h]

theorem syncAllocArray_bind (length : ℤ) (f : Unit → Build Part β) :
    (o.syncAllocArray length r >>= f) =
      if o.arrayOk length r = true then Build.acquire r >>= f else .aborts := by
  unfold Calls.syncAllocArray Calls.arrayOk
  by_cases h : length ≤ 0 ∨ length > o.maxLength
  · have h' : ¬(0 < length ∧ length ≤ o.maxLength) := by omega
    simp [h, h']
  · have h' : 0 < length ∧ length ≤ o.maxLength := by omega
    simp [h, h', syncAlloc_bind]

end Steps

/-- The objects, with the arguments of their constructors that are sizes. -/
inductive Kind
  | channel (capacity : ℤ)
  | ownedBytes (capacity : ℤ)
  | waitGroup
  | once
  | mutex
  | condvar
  | rwLock
  | thread
  | pool (workerCount capacity : ℤ)

namespace Kind

/-- The constructor of an object. -/
def new : Kind → Build Part (Bool × ℤ)
  | channel capacity => channelNew o capacity
  | ownedBytes capacity => ownedBytesChannelNew o capacity
  | waitGroup => waitGroupNew o
  | once => onceNew o
  | mutex => mutexNew o
  | condvar => condvarNew o
  | rwLock => rwLockNew o
  | thread => threadNew o
  | pool workerCount capacity => threadPoolNew o workerCount capacity

/-- The release of an object by its last reference. -/
def release : Kind → Build Part Unit
  | channel _ => channelRelease o
  | ownedBytes _ => ownedBytesRelease o
  | waitGroup => waitGroupRelease o
  | once => onceRelease o
  | mutex => mutexRelease o
  | condvar => condvarRelease o
  | rwLock => rwLockRelease o
  | thread => threadRelease o
  | pool .. => threadPoolRelease o

/-- The parts that the constructor of an object is given. -/
def given : Kind → List Part
  | mutex => [.value]
  | _ => []

/-- The parts of an object, in the order in which they are released. -/
def parts : Kind → List Part
  | channel _ => [.slots, .writable, .readable, .mutex, .core]
  | ownedBytes _ => [.slots, .writable, .readable, .mutex, .core]
  | waitGroup => [.cond, .mutex, .core]
  | once => [.cond, .mutex, .core]
  | mutex => [.value, .mutex, .core]
  | condvar => [.cond, .core]
  | rwLock => [.lock, .core]
  | thread => [.mutex, .core]
  | pool .. => [.slots, .stopped, .notFull, .notEmpty, .mutex, .core]

/-- The stages of the constructor of an object. -/
def stages : Kind → List (Stage Part)
  | channel capacity => [.must .core (o.alloc .core), .must .slots (o.arrayOk capacity .slots),
      .check o.injected, .take .mutex (o.init .mutex), .take .readable (o.init .readable),
      .take .writable (o.init .writable)]
  | ownedBytes capacity => [.must .core (o.alloc .core), .must .slots (o.arrayOk capacity .slots),
      .check o.injected, .take .mutex (o.init .mutex), .take .readable (o.init .readable),
      .take .writable (o.init .writable)]
  | waitGroup => [.must .core (o.alloc .core), .take .mutex (o.init .mutex), .check o.injected,
      .take .cond (o.init .cond)]
  | once => [.must .core (o.alloc .core), .take .mutex (o.init .mutex), .check o.injected,
      .take .cond (o.init .cond)]
  | mutex => [.must .core (o.alloc .core), .check o.injected, .take .mutex (o.init .mutex)]
  | condvar => [.must .core (o.alloc .core), .check o.injected, .take .cond (o.init .cond)]
  | rwLock => [.must .core (o.alloc .core), .take .lock (o.init .lock), .check o.injected]
  | thread => [.must .core (o.alloc .core), .take .mutex (o.init .mutex)]
  | pool workerCount capacity => [.check (o.poolArguments workerCount capacity),
      .take .core (o.tryStatus .core), .take .slots (o.tryStatus .slots),
      .take .mutex (o.init .mutex), .take .notEmpty (o.init .notEmpty),
      .take .notFull (o.init .notFull), .take .stopped (o.init .stopped)]

end Kind

theorem channelNew_eq (capacity : ℤ) :
    channelNew o capacity = cascade o.undo ((Kind.channel capacity).stages o) [] := by
  simp only [channelNew, syncAlloc_bind, syncAllocArray_bind, hookedInit_bind, osInit_bind,
    Kind.stages, cascade, unwind, Calls.undo, bind_assoc, pure_bind]

theorem waitGroupNew_eq : waitGroupNew o = cascade o.undo (Kind.waitGroup.stages o) [] := by
  simp only [waitGroupNew, syncAlloc_bind, osInit_bind, Kind.stages,
    cascade, unwind, Calls.undo, bind_assoc, pure_bind]
  simp only [ne_eq, ite_not]

theorem condvarNew_eq : condvarNew o = cascade o.undo (Kind.condvar.stages o) [] := by
  simp only [condvarNew, syncAlloc_bind, hookedInit_bind, Kind.stages,
    cascade, unwind, Calls.undo, bind_assoc, pure_bind]

theorem rwLockNew_eq : rwLockNew o = cascade o.undo (Kind.rwLock.stages o) [] := by
  simp only [rwLockNew, syncAlloc_bind, osInit_bind, Kind.stages,
    cascade, unwind, Calls.undo, bind_assoc, pure_bind]
  simp only [ne_eq, ite_not]

theorem threadNew_eq : threadNew o = cascade o.undo (Kind.thread.stages o) [] := by
  simp only [threadNew, syncAlloc_bind, osInit_bind, Kind.stages,
    cascade, unwind, Calls.undo, bind_assoc, pure_bind]

theorem threadPoolNew_eq (workerCount capacity : ℤ) : threadPoolNew o workerCount capacity =
    cascade o.undo ((Kind.pool workerCount capacity).stages o) [] := by
  by_cases h : workerCount ≤ 0 ∨ workerCount > 64 ∨ capacity ≤ 0 ∨ capacity > 16384 ∨
      capacity > o.maxLength
  · simp only [threadPoolNew, Kind.stages, cascade, Calls.poolArguments, if_pos h, unwind,
      pure_bind]
    rfl
  · simp only [threadPoolNew, tryAlloc_bind, osInit_bind, Kind.stages, cascade,
      Calls.poolArguments, if_neg h, unwind, Calls.undo, bind_assoc, pure_bind, ↓reduceIte]
    rcases o.tryStatus_cases .core with hc | hc <;> rcases o.tryStatus_cases .slots with hs | hs <;>
      simp only [hc, hs, ↓reduceIte]

namespace Kind

variable (k : Kind)

theorem release_eq : k.release o = unwind o.undo k.parts := by
  cases k <;>
    simp only [release, parts, channelRelease, ownedBytesRelease, waitGroupRelease, onceRelease,
      mutexRelease, condvarRelease, rwLockRelease, threadRelease, threadPoolRelease, unwind,
      Calls.undo, bind_pure_unit]

theorem parts_nodup : k.parts.Nodup := by cases k <;> simp [parts]

/-- The given parts and those that the stages make are the parts of the object. -/
theorem perm_parts : (k.given ++ (k.stages o).filterMap Stage.resource).Perm k.parts := by
  cases k <;>
    simp only [given, stages, parts, Stage.resource, List.filterMap_cons, List.filterMap_nil,
      List.nil_append, List.cons_append] <;>
    decide

/-- The constructor has made the object: the status is the first failure of the stages, and there
are all parts or none. -/
def Made (result : Bool × ℤ) (held : Finset Part) : Prop :=
  result = (decide (firstFailure (k.stages o) = 0), firstFailure (k.stages o)) ∧
    held = if firstFailure (k.stages o) = 0 then k.parts.toFinset else ∅

theorem spec_stages (hk : k.given = []) (hnew : k.new o = cascade o.undo (k.stages o) []) :
    Build.Spec k.given.toFinset (k.new o) (k.Made o) := by
  have hperm := k.perm_parts o
  have hspec := spec_cascade (undoes o) (k.stages o) k.given (hperm.nodup_iff.2 k.parts_nodup)
  rw [List.toFinset_eq_of_perm _ _ hperm] at hspec
  rw [hnew]
  rwa [hk] at hspec ⊢

theorem undo_aborts {o : Calls} {r : Part} (h : o.undo r = .aborts) : o.destroy r ≠ 0 := by
  intro hd
  cases r <;> simp [Calls.undo, free, Calls.osDestroy, hd, Build.release] at h

/-- The constructor of a mutex gives back the value before the core, so it is not a cascade. -/
theorem mutexNew_eq : mutexNew o =
    if o.alloc .core = true then do
      Build.acquire .core
      if o.injected = 0 then
        if o.init .mutex = 0 then do
          Build.acquire .mutex
          pure (true, 0)
        else do
          unwind o.undo [.value, .core]
          pure (false, o.init .mutex)
      else do
        unwind o.undo [.value, .core]
        pure (false, o.injected)
    else .aborts := by
  simp only [mutexNew, syncAlloc_bind, hookedInit_bind, unwind, Calls.undo, bind_assoc, pure_bind]

theorem spec_mutex : Build.Spec mutex.given.toFinset (mutexNew o) (mutex.Made o) := by
  rw [mutexNew_eq]
  refine .ite (fun _ => ?_) fun _ => .aborts
  refine .bind (.acquire (by decide)) ?_
  rintro - held rfl
  have hfail : ∀ status : ℤ, status ≠ 0 → firstFailure (mutex.stages o) = status →
      Build.Spec (insert .core mutex.given.toFinset)
        (do unwind o.undo [.value, .core]; pure (false, status)) (mutex.Made o) := by
    intro status hs hfirst
    rw [show insert .core mutex.given.toFinset = ([.value, .core] : List Part).toFinset by decide]
    refine .bind (spec_unwind (undoes o) [.value, .core] (by decide)) ?_
    rintro - held rfl
    refine .pure ⟨?_, ?_⟩
    · rw [hfirst, decide_eq_false hs]
    · rw [hfirst, if_neg hs]
  refine .ite (fun hi => ?_) fun hi => hfail _ hi ?_
  · refine .ite (fun hm => ?_) fun hm => hfail _ hm ?_
    · have hfirst : firstFailure (mutex.stages o) = 0 := by
        simp [stages, firstFailure, Stage.status, hi, hm]
      refine .bind (.acquire (by decide)) ?_
      rintro - held rfl
      refine .pure ⟨?_, ?_⟩
      · rw [hfirst]
        rfl
      · rw [hfirst]
        decide
    · simp [stages, firstFailure, Stage.status, hi, hm]
  · simp [stages, firstFailure, Stage.status, hi]

/-- **The constructors make all parts or none.** -/
theorem spec_new : Build.Spec k.given.toFinset (k.new o) (k.Made o) := by
  cases k with
  | mutex => exact spec_mutex o
  | channel capacity => exact spec_stages o _ rfl (channelNew_eq o capacity)
  | ownedBytes capacity => exact spec_stages o _ rfl (channelNew_eq o capacity)
  | waitGroup => exact spec_stages o _ rfl (waitGroupNew_eq o)
  | once => exact spec_stages o _ rfl (waitGroupNew_eq o)
  | condvar => exact spec_stages o _ rfl (condvarNew_eq o)
  | rwLock => exact spec_stages o _ rfl (rwLockNew_eq o)
  | thread => exact spec_stages o _ rfl (threadNew_eq o)
  | pool workerCount capacity => exact spec_stages o _ rfl (threadPoolNew_eq o workerCount capacity)

theorem mutexNew_aborts (h : mutexNew o = .aborts) :
    o.alloc .core = false ∨ ∃ r ∈ mutex.parts, o.undo r = .aborts := by
  have hfail : ∀ status : ℤ, (do unwind o.undo [.value, .core]; pure (false, status)) = .aborts →
      ∃ r ∈ mutex.parts, o.undo r = .aborts := by
    intro status hu
    obtain hu | ⟨-, hu⟩ := Build.bind_eq_aborts hu
    · obtain ⟨r, hr, hu⟩ := unwind_aborts hu
      refine ⟨r, ?_, hu⟩
      revert hr
      cases r <;> decide
    · cases hu
  rw [mutexNew_eq] at h
  by_cases hc : o.alloc .core = true
  · rw [if_pos hc] at h
    obtain h | ⟨-, h⟩ := Build.bind_eq_aborts h
    · cases h
    split_ifs at h
    · cases h
    · exact .inr (hfail _ h)
    · exact .inr (hfail _ h)
  · exact .inl (Bool.eq_false_of_not_eq_true hc)

theorem stages_abort (hnew : k.new o = cascade o.undo (k.stages o) []) (h : k.new o = .aborts) :
    (∃ r, .must r false ∈ k.stages o) ∨ ∃ r ∈ k.parts, o.undo r = .aborts := by
  rw [hnew] at h
  obtain hm | ⟨r, hr, hu⟩ := cascade_aborts h
  · exact .inl hm
  · refine .inr ⟨r, (k.perm_parts o).mem_iff.1 ?_, hu⟩
    exact List.mem_append_right _ hr

theorem new_aborts (h : k.new o = .aborts) :
    (∃ r, .must r false ∈ k.stages o) ∨ ∃ r ∈ k.parts, o.undo r = .aborts := by
  cases k with
  | mutex =>
    obtain hc | hu := mutexNew_aborts o h
    · exact .inl ⟨.core, by simp [stages, hc]⟩
    · exact .inr hu
  | channel capacity => exact stages_abort o _ (channelNew_eq o capacity) h
  | ownedBytes capacity => exact stages_abort o _ (channelNew_eq o capacity) h
  | waitGroup => exact stages_abort o _ (waitGroupNew_eq o) h
  | once => exact stages_abort o _ (waitGroupNew_eq o) h
  | condvar => exact stages_abort o _ (condvarNew_eq o) h
  | rwLock => exact stages_abort o _ (rwLockNew_eq o) h
  | thread => exact stages_abort o _ (threadNew_eq o) h
  | pool workerCount capacity => exact stages_abort o _ (threadPoolNew_eq o workerCount capacity) h

/-- What a constructor may end with. It aborts only when memory that it cannot do without is
missing, or when a part cannot be destroyed. Otherwise the status is the first failure of its calls,
there is an object just when the status is zero, all parts or none are held, and the release of the
object gives back every part. -/
def Outcome : Build Part (Bool × ℤ) → Prop
  | .aborts => (∃ r, .must r false ∈ k.stages o) ∨ ∃ r ∈ k.parts, o.destroy r ≠ 0
  | .returns (made, status) log =>
    status = firstFailure (k.stages o) ∧ (made = true ↔ status = 0) ∧
      replay k.given.toFinset log = some (if made = true then k.parts.toFinset else ∅) ∧
        ∀ log', made = true → k.release o = .returns () log' →
          replay k.given.toFinset (log ++ log') = some ∅

end Kind

/-- **The constructors make a whole object or leave nothing behind**, wherever one of their calls
fails, and the finalizers take apart what they made. -/
theorem constructors_all_or_nothing (k : Kind) : k.Outcome o (k.new o) := by
  cases hnew : k.new o with
  | aborts =>
    obtain hm | ⟨r, hr, hu⟩ := k.new_aborts o hnew
    · exact .inl hm
    · exact .inr ⟨r, hr, Kind.undo_aborts hu⟩
  | returns result log =>
    obtain ⟨held, hreplay, hresult, hheld⟩ := k.spec_new o result log hnew
    obtain ⟨made, status⟩ := result
    obtain ⟨rfl, rfl⟩ := Prod.mk.inj hresult
    have hmade : replay k.given.toFinset log =
        some (if decide (firstFailure (k.stages o) = 0) = true then k.parts.toFinset else ∅) := by
      rw [hreplay, hheld]
      simp only [decide_eq_true_eq]
    refine ⟨rfl, decide_eq_true_iff, hmade, ?_⟩
    intro log' hok hrelease
    rw [Build.replay_append, hmade, if_pos hok]
    rw [Kind.release_eq] at hrelease
    obtain ⟨held', hr, rfl⟩ := spec_unwind (undoes o) k.parts k.parts_nodup () log' hrelease
    exact hr

-- the second condition variable of a channel cannot be initialized
example : channelNew
    { maxLength := 1000
      alloc := fun _ => true
      init := fun r => if r = .writable then 12 else 0
      destroy := fun _ => 0
      injected := 0 } 4 =
    .returns (false, 12) [.acquire .core, .acquire .slots, .acquire .mutex, .acquire .readable,
      .release .readable, .release .mutex, .release .slots, .release .core] := by
  rfl

end NativeSync.Constructors
