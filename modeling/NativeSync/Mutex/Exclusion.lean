import NativeSync.Mutex.Moves
import Mathlib.Data.List.Basic
import Mathlib.Data.List.Nodup

/-!
# Mutexes and condition variables: who holds a mutex

A thread holds a mutex from its lock to its unlock, but not while it sleeps on the mutex in a wait;
so whether it does can be read off from where it stands (`Holds`). The fields `owner` and `locked`
follow with a delay, and a wait leaves them as they are, so that they name a sleeper until somebody
else has got the mutex. What keeps the check of `sync_condvar_wait` exact is `ThreadOk.stale`: if
`owner` is the identifier of a thread, the thread holds the mutex or sleeps on it, and a sleeper
does not make the check.

`ThreadOk` is the invariant of one thread. A step changes the invariant of another thread only
through `owner`, `locked` and the holder of a mutex; `Apart` says what it leaves alone, and
`ThreadOk.apart` that this is enough.
-/

namespace NativeSync.Mutex

open Foundations

variable {M C T : Type}

/-! ## What a program point says -/

namespace Point

/-- The thread has got mutex `m` and not yet begun its callback. -/
@[simp] def Acquires (m : M) : Point M C → Prop
  | lockOwner m' => m' = m
  | lockLocked m' => m' = m
  | _ => False

/-- A wait at this point is one on mutex `m`. -/
@[simp] def SleepsOn (m : M) : Point M C → Prop
  | sleep m' _ => m' = m
  | _ => False

/-- If the thread holds mutex `m`, it has written `owner`. -/
@[simp] def OwnerWritten (m : M) : Point M C → Prop
  | lockOwner m' => m' ≠ m
  | wakeOwner m' _ => m' ≠ m
  | unlock g _ => g.mutex ≠ m
  | _ => True

/-- If the thread holds mutex `m`, it has written `locked`. -/
@[simp] def LockedWritten (m : M) : Point M C → Prop
  | lockOwner m' => m' ≠ m
  | lockLocked m' => m' ≠ m
  | wakeOwner m' _ => m' ≠ m
  | wakeLocked m' _ => m' ≠ m
  | unlockOwner g _ => g.mutex ≠ m
  | unlock g _ => g.mutex ≠ m
  | _ => True

/-- The thread is about to unlock mutex `m`. -/
@[simp] def Unlocks (m : M) : Point M C → Prop
  | unlock g _ => g.mutex = m
  | _ => False

/-- What the point says about the callbacks of the thread. -/
@[simp] def Placed (fs : List (Guard M)) : Point M C → Prop
  | lockOwner m => m ∉ fs.map Guard.mutex
  | lockLocked m => m ∉ fs.map Guard.mutex
  | unlockLocked g _ => fs.head? = some g
  | unlockOwner g _ => fs.head? = some g
  | unlock g _ => fs.head? = some g
  | sleep m _ => m ∈ fs.map Guard.mutex
  | wakeOwner m _ => m ∈ fs.map Guard.mutex
  | wakeLocked m _ => m ∈ fs.map Guard.mutex
  | _ => True

end Point

/-- Where the thread stands and its callbacks say that it holds mutex `m`. -/
@[simp] def Holds (m : M) (fs : List (Guard M)) : Pc (Point M C) → Prop
  | .run p => p.Acquires m ∨ m ∈ fs.map Guard.mutex
  | .wait _ p => ¬p.SleepsOn m ∧ m ∈ fs.map Guard.mutex

/-- The thread sleeps on mutex `m`, or its wait on it is over and it has not got `m` yet. -/
@[simp] def Suspended (m : M) : Pc (Point M C) → Prop
  | .run _ => False
  | .wait _ p => p.SleepsOn m

/-! ## The invariant of a thread -/

/-- What holds of thread `t` at `x` with the callbacks `fs`. -/
structure ThreadOk (ids : Ids T) (core : M → Core) (holder : M → Option T) (t : T)
    (x : Pc (Point M C)) (fs : List (Guard M)) : Prop where
  held : ∀ m, holder m = some t ↔ Holds m fs x
  owner : ∀ m, holder m = some t → x.point.OwnerWritten m → (core m).owner = ids.id t
  locked : ∀ m, holder m = some t → x.point.LockedWritten m → (core m).locked = true
  cleared : ∀ m, holder m = some t → x.point.Unlocks m → (core m).owner = 0
  stale : ∀ m, (core m).owner = ids.id t → holder m = some t ∨ Suspended m x
  placed : x.point.Placed fs
  nodup : (fs.map Guard.mutex).Nodup

/-- The invariant of the threads. -/
def Inv (ids : Ids T) (s : State M C T) : Prop :=
  ∀ t, ThreadOk ids s.core s.holder t (s.threads t) (s.frames t)

variable {ids : Ids T} {s s' : State M C T} {e : List (Event M C T)} {t u : T} {m : M}
  {x y : Pc (Point M C)} {p q : Point M C} {fs : List (Guard M)} {core : M → Core}
  {holder : M → Option T}

namespace ThreadOk

/-- A thread that runs has its identifier in `owner` only of mutexes that it holds. -/
theorem holds_of_owner (h : ThreadOk ids core holder t (.run p) fs)
    (ho : (core m).owner = ids.id t) : holder m = some t :=
  (h.stale m ho).resolve_right id

/-- A thread holds the mutex of its innermost callback while it runs. -/
theorem holds_of_head {g : Guard M} (h : ThreadOk ids core holder t (.run p) fs)
    (hg : fs.head? = some g) : holder g.mutex = some t :=
  (h.held g.mutex).2 (.inr (List.mem_map_of_mem (List.mem_of_mem_head? hg)))

/-- **Between two writes, the check of a wait is exact.** -/
theorem check_iff (h : ThreadOk ids core holder t (.run p) fs) (hp : p.Settled) :
    (core m).locked = true ∧ (core m).owner = ids.id t ↔ holder m = some t := by
  refine ⟨fun hc => h.holds_of_owner hc.2, fun hm => ⟨h.locked m hm ?_, h.owner m hm ?_⟩⟩
  · cases p <;> trivial
  · cases p <;> trivial

/-- A thread that holds a mutex whose point does not touch it has written both fields. -/
theorem settled (h : ThreadOk ids core holder t (.run p) fs) (hp : p.Settled) (hq : q.Settled)
    (hplaced : q.Placed fs) : ThreadOk ids core holder t (.run q) fs where
  held := fun m => (h.held m).trans (by
    cases p <;> first | (cases q <;> first | exact Iff.rfl | exact hq.elim) | exact hp.elim)
  owner := fun m hm _ => ((h.check_iff hp).2 hm).2
  locked := fun m hm _ => ((h.check_iff hp).2 hm).1
  cleared := fun m _ hu => by cases q <;> first | exact hu.elim | exact hq.elim
  stale := fun m ho => .inl (h.holds_of_owner ho)
  placed := hplaced
  nodup := h.nodup

end ThreadOk

/-! ## What a step leaves alone -/

/-- What a step of thread `t` leaves alone: the other threads, but for notifications, and of the
mutexes what concerns another thread. -/
structure Apart (ids : Ids T) (s s' : State M C T) (t : T) : Prop where
  threads : ∀ u, u ≠ t → s'.threads u = s.threads u ∨
    ∃ p, s.threads u = .wait .asleep p ∧ s'.threads u = .wait .notified p
  frames : ∀ u, u ≠ t → s'.frames u = s.frames u
  holder : ∀ m u, u ≠ t → (s'.holder m = some u ↔ s.holder m = some u)
  core : ∀ m u, u ≠ t → s.holder m = some u → s'.core m = s.core m
  owner : ∀ m u, u ≠ t → (s'.core m).owner = ids.id u → (s.core m).owner = ids.id u

/-- A thread that is notified is where it was. -/
theorem ThreadOk.notified {w w' : Wake} (h : ThreadOk ids core holder t (.wait w p) fs) :
    ThreadOk ids core holder t (.wait w' p) fs :=
  ⟨h.held, h.owner, h.locked, h.cleared, h.stale, h.placed, h.nodup⟩

/-- **The other threads keep their invariant.** -/
theorem ThreadOk.apart (h : ThreadOk ids s.core s.holder u (s.threads u) (s.frames u))
    (ha : Apart ids s s' t) (hu : u ≠ t) :
    ThreadOk ids s'.core s'.holder u (s'.threads u) (s'.frames u) := by
  have hmid : ThreadOk ids s'.core s'.holder u (s.threads u) (s.frames u) := by
    refine ⟨fun m => (ha.holder m u hu).trans (h.held m), fun m hm => ?_, fun m hm => ?_,
      fun m hm => ?_, fun m ho => ?_, h.placed, h.nodup⟩
    · rw [ha.core m u hu ((ha.holder m u hu).1 hm)]
      exact h.owner m ((ha.holder m u hu).1 hm)
    · rw [ha.core m u hu ((ha.holder m u hu).1 hm)]
      exact h.locked m ((ha.holder m u hu).1 hm)
    · rw [ha.core m u hu ((ha.holder m u hu).1 hm)]
      exact h.cleared m ((ha.holder m u hu).1 hm)
    · rcases h.stale m (ha.owner m u hu ho) with hs | hs
      · exact .inl ((ha.holder m u hu).2 hs)
      · exact .inr hs
  rw [ha.frames u hu]
  rcases ha.threads u hu with he | ⟨p, hp, hp'⟩
  · rwa [he]
  · rw [hp'] at *
    rw [hp] at hmid
    exact hmid.notified

/-- A step that only moves threads. -/
theorem Apart.of_threads (hc : s'.core = s.core) (hh : s'.holder = s.holder)
    (hf : ∀ u, u ≠ t → s'.frames u = s.frames u)
    (ht : ∀ u, u ≠ t → s'.threads u = s.threads u ∨
      ∃ p, s.threads u = .wait .asleep p ∧ s'.threads u = .wait .notified p) :
    Apart ids s s' t where
  threads := ht
  frames := hf
  holder := fun m u _ => by rw [hh]
  core := fun m u _ _ => by rw [hc]
  owner := fun m u _ ho => by rwa [hc] at ho

variable [DecidableEq M]

/-- A step that writes to a mutex that the thread holds, but no identifier of another one. -/
theorem Apart.of_core {v : Core} (hm : s.holder m = some t)
    (hv : v.owner = (s.core m).owner ∨ ∀ u, u ≠ t → v.owner ≠ ids.id u)
    (hc : s'.core = Function.update s.core m v) (hh : s'.holder = s.holder)
    (hf : ∀ u, u ≠ t → s'.frames u = s.frames u)
    (ht : ∀ u, u ≠ t → s'.threads u = s.threads u) : Apart ids s s' t where
  threads := fun u hu => .inl (ht u hu)
  frames := hf
  holder := fun m u _ => by rw [hh]
  core := by
    intro m' u hu hm'
    have hne : m' ≠ m := by
      rintro rfl
      exact hu (Option.some.inj (hm'.symm.trans hm))
    rw [hc, Function.update_of_ne hne]
  owner := by
    intro m' u hu ho
    rw [hc] at ho
    by_cases hm' : m' = m
    · subst hm'
      rw [Function.update_self] at ho
      rcases hv with hv | hv
      · rwa [hv] at ho
      · exact absurd ho (hv u hu)
    · rwa [Function.update_of_ne hm'] at ho

/-- A step by which a mutex passes from the thread or to it. -/
theorem Apart.of_holder {o : Option T} (hm : s.holder m = none ∨ s.holder m = some t)
    (ho : o = none ∨ o = some t) (hc : s'.core = s.core)
    (hh : s'.holder = Function.update s.holder m o)
    (hf : ∀ u, u ≠ t → s'.frames u = s.frames u)
    (ht : ∀ u, u ≠ t → s'.threads u = s.threads u) : Apart ids s s' t where
  threads := fun u hu => .inl (ht u hu)
  frames := hf
  holder := by
    intro m' u hu
    rw [hh]
    by_cases hm' : m' = m
    · subst hm'
      have hne : ∀ {o' : Option T}, o' = none ∨ o' = some t → o' ≠ some u := by
        rintro _ (rfl | rfl) he
        · cases he
        · exact hu (Option.some.inj he).symm
      rw [Function.update_self]
      exact iff_of_false (hne ho) (hne hm)
    · rw [Function.update_of_ne hm']
  core := fun m u _ _ => by rw [hc]
  owner := fun m u _ ho => by rwa [hc] at ho

/-! ## The thread that moves -/

/-- For mutex `m` it makes no difference that the thread moves from `x` to `y`. -/
structure SameAt (m : M) (fs fs' : List (Guard M)) (x y : Pc (Point M C)) : Prop where
  holds : Holds m fs' y ↔ Holds m fs x
  owner : y.point.OwnerWritten m → x.point.OwnerWritten m
  locked : y.point.LockedWritten m → x.point.LockedWritten m
  unlocks : y.point.Unlocks m → x.point.Unlocks m
  suspended : Suspended m x → Suspended m y

/-- **The step rule**: the thread moves to `y` and touches no mutex but `m`. -/
theorem ThreadOk.touch {v : Core} {o : Option T} {fs' : List (Guard M)}
    (h : ThreadOk ids s.core s.holder t x fs) (hc : s'.core = Function.update s.core m v)
    (hh : s'.holder = Function.update s.holder m o) (hy : s'.threads t = y)
    (hfs : s'.frames t = fs') (hsame : ∀ m', m' ≠ m → SameAt m' fs fs' x y)
    (held : o = some t ↔ Holds m fs' y)
    (owner : o = some t → y.point.OwnerWritten m → v.owner = ids.id t)
    (locked : o = some t → y.point.LockedWritten m → v.locked = true)
    (cleared : o = some t → y.point.Unlocks m → v.owner = 0)
    (stale : v.owner = ids.id t → o = some t ∨ Suspended m y)
    (placed : y.point.Placed fs') (nodup : (fs'.map Guard.mutex).Nodup) :
    ThreadOk ids s'.core s'.holder t (s'.threads t) (s'.frames t) := by
  rw [hc, hh, hy, hfs]
  refine ⟨fun m' => ?_, fun m' => ?_, fun m' => ?_, fun m' => ?_, fun m' => ?_, placed, nodup⟩ <;>
    by_cases hne : m' = m
  · subst hne
    rwa [Function.update_self]
  · rw [Function.update_of_ne hne, h.held m', (hsame m' hne).holds]
  · subst hne
    rwa [Function.update_self, Function.update_self]
  · rw [Function.update_of_ne hne, Function.update_of_ne hne]
    exact fun hm hp => h.owner m' hm ((hsame m' hne).owner hp)
  · subst hne
    rwa [Function.update_self, Function.update_self]
  · rw [Function.update_of_ne hne, Function.update_of_ne hne]
    exact fun hm hp => h.locked m' hm ((hsame m' hne).locked hp)
  · subst hne
    rwa [Function.update_self, Function.update_self]
  · rw [Function.update_of_ne hne, Function.update_of_ne hne]
    exact fun hm hp => h.cleared m' hm ((hsame m' hne).unlocks hp)
  · subst hne
    rwa [Function.update_self, Function.update_self]
  · rw [Function.update_of_ne hne, Function.update_of_ne hne]
    exact fun ho => (h.stale m' ho).imp_right (hsame m' hne).suspended

variable [DecidableEq T]

/-- **A move keeps the invariant of the thread that makes it.** -/
theorem Move.self (hm : Move ids s t s' e)
    (h : ThreadOk ids s.core s.holder t (s.threads t) (s.frames t)) :
    ThreadOk ids s'.core s'.holder t (s'.threads t) (s'.frames t) := by
  cases hm with
  | quiet p q e ht hq =>
    rw [ht] at h
    change ThreadOk _ _ _ _ (Function.update s.threads t _ t) _
    rw [Function.update_self]
    refine h.settled hq.settled.1 hq.settled.2 ?_
    cases hq with
    | passed m c ho =>
      have hheld := (h.held m).1 (h.holds_of_owner ho)
      simpa using hheld
    | _ => trivial
  | granted m ht hm =>
    rw [ht] at h
    have hfs : m ∉ (s.frames t).map Guard.mutex := fun hin => by
      cases hm.symm.trans ((h.held m).2 (.inr hin))
    refine h.touch (Function.update_eq_self m s.core).symm rfl (Function.update_self ..) rfl
      (fun m' hne => ?_) ?_ ?_ ?_ ?_ ?_ hfs h.nodup
    · constructor <;> simp [Ne.symm hne]
    all_goals simp
  | lockOwner m ht =>
    rw [ht] at h
    have hheld := (h.held m).2 (.inl rfl)
    refine h.touch rfl (Function.update_eq_self m s.holder).symm (Function.update_self ..) rfl
      (fun m' hne => ?_) ?_ ?_ ?_ ?_ ?_ h.placed h.nodup
    · constructor <;> simp [Ne.symm hne]
    all_goals simp [hheld]
  | began m ht =>
    rw [ht] at h
    have hheld := (h.held m).2 (.inl rfl)
    have howner := h.owner m hheld trivial
    refine h.touch rfl (Function.update_eq_self m s.holder).symm (Function.update_self ..)
      (Function.update_self ..) (fun m' hne => ?_) ?_ ?_ ?_ ?_ ?_ trivial ?_
    · constructor <;> simp [hne, Ne.symm hne]
    · simp [hheld]
    · simp [howner]
    · simp
    · simp
    · simp [hheld]
    · exact List.nodup_cons.2 ⟨h.placed, h.nodup⟩
  | finish g fs raised ht hf =>
    rw [ht] at h
    have hwritten : ∀ m, s.holder m = some t → (s.core m).locked = true ∧
      (s.core m).owner = ids.id t := fun m hm => (h.check_iff trivial).2 hm
    refine h.touch (Function.update_eq_self g.mutex s.core).symm
      (Function.update_eq_self g.mutex s.holder).symm (Function.update_self ..) rfl
      (fun m' hne => ?_) (h.held _) ?_ ?_ ?_ ?_ ?_ h.nodup
    · constructor <;> simp
    · exact fun hm _ => (hwritten _ hm).2
    · exact fun hm _ => (hwritten _ hm).1
    · simp
    · exact fun ho => .inl (h.holds_of_owner ho)
    · exact congrArg List.head? hf
  | unlockLocked g raised ht =>
    rw [ht] at h
    have hheld := h.held g.mutex
    refine h.touch rfl (Function.update_eq_self g.mutex s.holder).symm (Function.update_self ..)
      rfl (fun m' hne => ?_) hheld ?_ ?_ ?_ ?_ h.placed h.nodup
    · constructor <;> simp [Ne.symm hne]
    · exact fun hm _ => h.owner _ hm trivial
    · simp
    · simp
    · exact fun ho => .inl (h.holds_of_owner ho)
  | unlockOwner g raised ht =>
    rw [ht] at h
    have hheld := h.held g.mutex
    refine h.touch rfl (Function.update_eq_self g.mutex s.holder).symm (Function.update_self ..)
      rfl (fun m' hne => ?_) hheld ?_ ?_ ?_ ?_ h.placed h.nodup
    · constructor <;> simp [Ne.symm hne]
    · simp
    · simp
    · simp
    · exact fun ho => absurd ho.symm (ids.ne_zero t)
  | unlock g raised ht =>
    rw [ht] at h
    obtain ⟨fs, hfs⟩ := List.head?_eq_some_iff.1 h.placed
    have hnodup := h.nodup
    rw [hfs, List.map_cons, List.nodup_cons] at hnodup
    have howner := h.cleared g.mutex (h.holds_of_head h.placed) rfl
    rw [hfs] at h
    refine h.touch (Function.update_eq_self g.mutex s.core).symm rfl (Function.update_self ..)
      ((Function.update_self ..).trans (by rw [hfs]; rfl)) (fun m' hne => ?_) ?_ ?_ ?_ ?_ ?_
      trivial hnodup.2
    · constructor <;> simp [hne, Ne.symm hne]
    · simpa using hnodup.1
    · simp
    · simp
    · simp
    · exact fun ho => absurd (howner.symm.trans ho).symm (ids.ne_zero t)
  | sleep m c ht =>
    rw [ht] at h
    refine h.touch (Function.update_eq_self m s.core).symm rfl (Function.update_self ..) rfl
      (fun m' hne => ?_) ?_ ?_ ?_ ?_ ?_ h.placed h.nodup
    · constructor <;> simp [Ne.symm hne]
    all_goals simp
  | spurious p ht =>
    rw [ht] at h
    change ThreadOk _ _ _ _ (Function.update s.threads t _ t) _
    rw [Function.update_self]
    exact h.notified
  | wake w m c ht hm =>
    rw [ht] at h
    refine h.touch (Function.update_eq_self m s.core).symm rfl (Function.update_self ..) rfl
      (fun m' hne => ?_) ?_ ?_ ?_ ?_ ?_ h.placed h.nodup
    · constructor <;> simp [Ne.symm hne]
    · simpa using h.placed
    all_goals simp
  | wakeOwner m c ht =>
    rw [ht] at h
    have hheld := (h.held m).2 (.inr h.placed)
    refine h.touch rfl (Function.update_eq_self m s.holder).symm (Function.update_self ..) rfl
      (fun m' hne => ?_) (h.held m) ?_ ?_ ?_ ?_ h.placed h.nodup
    · constructor <;> simp [Ne.symm hne]
    all_goals simp [hheld]
  | waited m c ht =>
    rw [ht] at h
    have hheld := (h.held m).2 (.inr h.placed)
    have howner := h.owner m hheld trivial
    refine h.touch rfl (Function.update_eq_self m s.holder).symm (Function.update_self ..) rfl
      (fun m' hne => ?_) (h.held m) ?_ ?_ ?_ ?_ trivial h.nodup
    · constructor <;> simp [Ne.symm hne]
    all_goals simp [hheld, howner]
  | notified c f r ht hw =>
    change ThreadOk _ _ _ _ (f t) _
    rcases hw t with he | ⟨p, hp, -⟩
    · rwa [he]
    · cases ht.symm.trans hp

/-- **A move leaves alone what concerns the other threads.** -/
theorem Move.apart (hm : Move ids s t s' e)
    (h : ThreadOk ids s.core s.holder t (s.threads t) (s.frames t)) : Apart ids s s' t := by
  have hthreads : ∀ {y : Pc (Point M C)}, ∀ u, u ≠ t →
      Function.update s.threads t y u = s.threads u := fun u hu => Function.update_of_ne hu ..
  have hframes : ∀ {fs : List (Guard M)}, ∀ u, u ≠ t →
      Function.update s.frames t fs u = s.frames u := fun u hu => Function.update_of_ne hu ..
  have hid : ∀ u, u ≠ t → ids.id t ≠ ids.id u := fun u hu he => hu (ids.injective he).symm
  cases hm with
  | quiet p q e ht hq => exact .of_threads rfl rfl (fun _ _ => rfl) fun u hu => .inl (hthreads u hu)
  | granted m ht hm =>
    exact .of_holder (.inl hm) (.inr rfl) rfl rfl (fun _ _ => rfl) hthreads
  | lockOwner m ht =>
    rw [ht] at h
    exact .of_core ((h.held m).2 (.inl rfl)) (.inr hid) rfl rfl (fun _ _ => rfl) hthreads
  | began m ht =>
    rw [ht] at h
    exact .of_core (v := { s.core m with locked := true }) ((h.held m).2 (.inl rfl)) (.inl rfl) rfl
      rfl hframes hthreads
  | finish g fs raised ht hf =>
    exact .of_threads rfl rfl (fun _ _ => rfl) fun u hu => .inl (hthreads u hu)
  | unlockLocked g raised ht =>
    rw [ht] at h
    exact .of_core (v := { s.core g.mutex with locked := false }) (h.holds_of_head h.placed)
      (.inl rfl) rfl rfl (fun _ _ => rfl) hthreads
  | unlockOwner g raised ht =>
    rw [ht] at h
    exact .of_core (h.holds_of_head h.placed) (.inr fun u _ he => ids.ne_zero u he.symm) rfl rfl
      (fun _ _ => rfl) hthreads
  | unlock g raised ht =>
    rw [ht] at h
    exact .of_holder (.inr (h.holds_of_head h.placed)) (.inl rfl) rfl rfl hframes hthreads
  | sleep m c ht =>
    rw [ht] at h
    exact .of_holder (.inr ((h.held m).2 (.inr h.placed))) (.inl rfl) rfl rfl (fun _ _ => rfl)
      hthreads
  | spurious p ht => exact .of_threads rfl rfl (fun _ _ => rfl) fun u hu => .inl (hthreads u hu)
  | wake w m c ht hm =>
    exact .of_holder (.inl hm) (.inr rfl) rfl rfl (fun _ _ => rfl) hthreads
  | wakeOwner m c ht =>
    rw [ht] at h
    exact .of_core ((h.held m).2 (.inr h.placed)) (.inr hid) rfl rfl (fun _ _ => rfl) hthreads
  | waited m c ht =>
    rw [ht] at h
    exact .of_core (v := { s.core m with locked := true }) ((h.held m).2 (.inr h.placed)) (.inl rfl)
      rfl rfl (fun _ _ => rfl) hthreads
  | notified c f r ht hw => exact .of_threads rfl rfl (fun _ _ => rfl) fun u _ => hw u

/-- **A move keeps the invariant.** -/
theorem Move.inv (hm : Move ids s t s' e) (h : Inv ids s) : Inv ids s' := by
  intro u
  by_cases hu : u = t
  · subst hu
    exact hm.self (h u)
  · exact (h u).apart (hm.apart (h t)) hu

omit [DecidableEq M] [DecidableEq T] in
theorem inv_init (ids : Ids T) : Inv ids (State.init : State M C T) := by
  refine fun t => ⟨fun m => ?_, nofun, nofun, nofun, fun m ho => ?_, trivial, List.nodup_nil⟩
  · simp [State.init]
  · exact absurd ho.symm (ids.ne_zero t)

variable [DecidableEq C] [Fintype T] {es : List (Event M C T)}

/-- **The invariant holds along every run.** -/
theorem inv_of_exec (h : Exec (step ids) Any State.init es s) : Inv ids s :=
  h.stateInvariant (inv_init ids) fun hI hs _ => (step_move hs).inv hI

end NativeSync.Mutex
