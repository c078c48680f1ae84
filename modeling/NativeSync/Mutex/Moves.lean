import NativeSync.Mutex.System

/-!
# Mutexes and condition variables: what a step can do

`step_move` says once what every step of the system does. The steps that change nothing but the
program point of the thread, and that start and end between two writes to a mutex, make up one move
(`Quiet`); among them are those of the check of `sync_condvar_wait`.
-/

namespace NativeSync.Mutex

open Foundations

variable {M C T : Type}

/-- The thread is between two writes to a mutex: what it holds, the fields say. -/
@[simp] def Point.Settled : Point M C → Prop
  | user => True
  | lock _ => True
  | checkLocked .. => True
  | checkOwner .. => True
  | sleep .. => True
  | _ => False

/-- The steps that change nothing but where the thread stands. -/
inductive Quiet (ids : Ids T) (s : State M C T) (t : T) :
    Point M C → Point M C → List (Event M C T) → Prop
  | withLock (m : M) : Quiet ids s t .user (.lock m) []
  | failed (m : M) (status : ℤ) (hst : status ≠ 0) :
      Quiet ids s t (.lock m) .user [.failed t m (lockResult status)]
  | wait (m : M) (c : C) : Quiet ids s t .user (.checkLocked m c) []
  | locked (m : M) (c : C) (hl : (s.core m).locked = true) :
      Quiet ids s t (.checkLocked m c) (.checkOwner m c) []
  | notLocked (m : M) (c : C) (hl : (s.core m).locked = false) :
      Quiet ids s t (.checkLocked m c) .user [.rejected t m (condvarResult (-1))]
  | passed (m : M) (c : C) (ho : (s.core m).owner = ids.id t) :
      Quiet ids s t (.checkOwner m c) (.sleep m c) [.passed t m]
  | notOwner (m : M) (c : C) (ho : (s.core m).owner ≠ ids.id t) :
      Quiet ids s t (.checkOwner m c) .user [.rejected t m (condvarResult (-1))]
  | waitFailed (m : M) (c : C) (status : ℤ) (hst : status ≠ 0) :
      Quiet ids s t (.sleep m c) .user [.waited t m (condvarResult status)]

theorem Quiet.settled {ids : Ids T} {s : State M C T} {t : T} {p q : Point M C}
    {e : List (Event M C T)} (h : Quiet ids s t p q e) : p.Settled ∧ q.Settled := by
  cases h <;> exact ⟨trivial, trivial⟩

variable [DecidableEq M] [DecidableEq T]

/-- The moves of thread `t`. -/
inductive Move (ids : Ids T) (s : State M C T) (t : T) :
    State M C T → List (Event M C T) → Prop
  | quiet (p q : Point M C) (e : List (Event M C T)) (ht : s.threads t = .run p)
      (hq : Quiet ids s t p q e) : Move ids s t (s.move t (.run q)) e
  | granted (m : M) (ht : s.threads t = .run (.lock m)) (hm : s.holder m = none) :
      Move ids s t ((s.setHolder m (some t)).move t (.run (.lockOwner m))) []
  | lockOwner (m : M) (ht : s.threads t = .run (.lockOwner m)) :
      Move ids s t ((s.setOwner m (ids.id t)).move t (.run (.lockLocked m))) []
  | began (m : M) (ht : s.threads t = .run (.lockLocked m)) :
      Move ids s t (((s.setLocked m true).begin t m).move t (.run .user))
        [.began t ⟨m, s.made.length⟩]
  | finish (g : Guard M) (fs : List (Guard M)) (raised : Bool) (ht : s.threads t = .run .user)
      (hf : s.frames t = g :: fs) :
      Move ids s t { s.move t (.run (.unlockLocked g raised)) with
        active := Function.update s.active g.active false } []
  | unlockLocked (g : Guard M) (raised : Bool) (ht : s.threads t = .run (.unlockLocked g raised)) :
      Move ids s t ((s.setLocked g.mutex false).move t (.run (.unlockOwner g raised))) []
  | unlockOwner (g : Guard M) (raised : Bool) (ht : s.threads t = .run (.unlockOwner g raised)) :
      Move ids s t ((s.setOwner g.mutex 0).move t (.run (.unlock g raised))) []
  | unlock (g : Guard M) (raised : Bool) (ht : s.threads t = .run (.unlock g raised)) :
      Move ids s t { (s.setHolder g.mutex none).move t (.run .user) with
          frames := Function.update s.frames t (s.frames t).tail }
        [.unlocked t g, .ended t g raised]
  | sleep (m : M) (c : C) (ht : s.threads t = .run (.sleep m c)) :
      Move ids s t ((s.setHolder m none).move t (.wait .asleep (.sleep m c))) []
  | spurious (p : Point M C) (ht : s.threads t = .wait .asleep p) :
      Move ids s t (s.move t (.wait .spurious p)) []
  | wake (w : Wake) (m : M) (c : C) (ht : s.threads t = .wait w (.sleep m c))
      (hm : s.holder m = none) :
      Move ids s t ((s.setHolder m (some t)).move t (.run (.wakeOwner m c))) []
  | wakeOwner (m : M) (c : C) (ht : s.threads t = .run (.wakeOwner m c)) :
      Move ids s t ((s.setOwner m (ids.id t)).move t (.run (.wakeLocked m c))) []
  | waited (m : M) (c : C) (ht : s.threads t = .run (.wakeLocked m c)) :
      Move ids s t ((s.setLocked m true).move t (.run .user)) [.waited t m (condvarResult 0)]
  | notified (c : C) (f : T → Pc (Point M C)) (r : Except SyncError Unit)
      (ht : s.threads t = .run .user) (hw : Woken s.threads f) :
      Move ids s t { s with threads := f } [.notified t c r]

/-- The thread that takes an action. -/
def Action.thread : Action M C T → T
  | withLock t _ => t
  | osLock t _ => t
  | finish t _ => t
  | wait t .. => t
  | osWait t _ => t
  | spurious t => t
  | osWake t => t
  | advance t => t
  | notify t .. => t

variable {ids : Ids T} {s s' : State M C T} {e : List (Event M C T)} {a : Action M C T} {t : T}

theorem advance_move (hs : s.advance ids t = some (s', e)) : Move ids s t s' e := by
  unfold State.advance at hs
  split at hs
  · rename_i m ht
    cases hs
    exact .lockOwner m ht
  · rename_i m ht
    cases hs
    exact .began m ht
  · rename_i g raised ht
    cases hs
    exact .unlockLocked g raised ht
  · rename_i g raised ht
    cases hs
    exact .unlockOwner g raised ht
  · rename_i g raised ht
    cases hs
    exact .unlock g raised ht
  · rename_i m c ht
    split_ifs at hs with hl
    · cases hs
      exact .quiet _ _ _ ht (.locked m c hl)
    · cases hs
      exact .quiet _ _ _ ht (.notLocked m c (Bool.eq_false_of_not_eq_true hl))
  · rename_i m c ht
    split_ifs at hs with ho
    · cases hs
      exact .quiet _ _ _ ht (.passed m c ho)
    · cases hs
      exact .quiet _ _ _ ht (.notOwner m c ho)
  · rename_i m c ht
    cases hs
    exact .wakeOwner m c ht
  · rename_i m c ht
    cases hs
    exact .waited m c ht
  · cases hs

variable [DecidableEq C] [Fintype T]

/-- **Every step is a move.** -/
theorem step_move (hs : step ids s a = some (s', e)) : Move ids s a.thread s' e := by
  cases a with
  | withLock t m =>
    simp only [step] at hs
    split at hs
    · rename_i ht
      cases hs
      exact .quiet _ _ _ ht (.withLock m)
    · cases hs
  | osLock t status =>
    simp only [step] at hs
    split at hs
    · rename_i m ht
      split_ifs at hs with hst hm
      · cases hs
        exact .quiet _ _ _ ht (.failed m status hst)
      · cases hs
        exact .granted m ht hm
    · cases hs
  | finish t raised =>
    simp only [step] at hs
    split at hs
    · rename_i g fs ht hf
      cases hs
      exact .finish g fs raised ht hf
    · cases hs
  | wait t c via =>
    simp only [step] at hs
    split at hs
    · rename_i ht
      obtain ⟨m, -, hs⟩ := Option.map_eq_some_iff.1 hs
      cases hs
      exact .quiet _ _ _ ht (.wait m c)
    · cases hs
  | osWait t status =>
    simp only [step] at hs
    split at hs
    · rename_i m c ht
      split_ifs at hs with hst
      · cases hs
        exact .quiet _ _ _ ht (.waitFailed m c status hst)
      · cases hs
        exact .sleep m c ht
    · cases hs
  | spurious t =>
    simp only [step] at hs
    split at hs
    · rename_i p ht
      cases hs
      exact .spurious p ht
    · cases hs
  | osWake t =>
    simp only [step] at hs
    split at hs
    · cases hs
    · rename_i w m c hne ht
      split_ifs at hs with hm
      cases hs
      exact .wake w m c ht hm
    · cases hs
  | advance t => exact advance_move hs
  | notify t c all injected status pick =>
    simp only [step] at hs
    split at hs
    · rename_i ht
      split_ifs at hs
      · cases hs
        exact .notified c _ _ ht (.refl _)
      · cases hs
        exact .notified c _ _ ht (.refl _)
      all_goals
        obtain ⟨f, hf, hs⟩ := Option.map_eq_some_iff.1 hs
        cases hs
        exact .notified c f _ ht (.of_deliver hf)
    · cases hs

end NativeSync.Mutex
