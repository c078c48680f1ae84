import NativeSync.ThreadPool.System

/-!
# The thread pool: what a step can do

`step_move` says once what every step of the system does when the primitives on the mutex and the
condition variables succeed: it is one of the moves of `Move`. Many steps change nothing but the
program point of the thread that takes them; they are the `Quiet` ones and make up one move.
-/

namespace NativeSync.ThreadPool

open Foundations

/-! ## The cores after a step -/

namespace Core

/-- The core after a task was enqueued. -/
def enqueue (core : Core) (task : ℕ) : Core := { core with ring := core.ring.push task }

/-- The core after the task at the head was dequeued. -/
def dequeue (core : Core) : Core := { core with ring := core.ring.pop }

/-- The core after it was closed. -/
def close (core : Core) : Core := { core with accepting := false }

/-- The core with another number of live workers. -/
def addWorkers (core : Core) (n : ℤ) : Core :=
  { core with liveWorkers := wrap32 (core.liveWorkers + n) }

/-- The core with one reference more. -/
def retain (core : Core) : Core := { core with refs := arcInc core.refs }

/-- The core with one reference less. -/
def release (core : Core) : Core := { core with refs := arcDec core.refs }

/-- The core after a handle was made. -/
def addHandle (core : Core) : Core :=
  { core with handles := wrap32 (core.handles + 1), refs := arcInc core.refs }

/-- The core after a handle was finalized: the last one closes it. -/
def dropHandle (core : Core) : Core :=
  { core with
    handles := wrap32 (core.handles - 1)
    accepting := core.accepting && decide (wrap32 (core.handles - 1) ≠ 0) }

end Core

variable {T : Type}

/-- The events of giving up a reference: the last one releases the queued tasks and the core. -/
def freeEvents (core : Core) : List (Event T) :=
  if core.refs = 0 then core.ring.toList.map Event.released ++ [.freed] else []

/-- Every sleeper but those on `stopped` is notified. -/
def wakeAll (f : T → Pc Point) : T → Pc Point :=
  broadcast Point.cond .notFull (broadcast Point.cond .notEmpty f)

theorem woken_wakeAll (f : T → Pc Point) : Woken f (wakeAll f) :=
  (Woken.of_broadcast _ f).trans (Woken.of_broadcast _ _)

theorem noSleeper_wakeAll (f : T → Pc Point) {c : Cond} (hc : c ≠ .stopped) :
    NoSleeper Point.cond c (wakeAll f) := by
  cases c with
  | notEmpty => exact (noSleeper_broadcast f).woken (Woken.of_broadcast _ _)
  | notFull => exact noSleeper_broadcast _
  | stopped => exact absurd rfl hc

/-- The points at which the code waits: a client in a blocking submission, a thread that waits for
the workers to stop, and a worker. -/
def Point.Waits : Point → Prop
  | submit .client _ _ block => block = true
  | stop _ => True
  | drain _ => True
  | loop => True
  | _ => False

/-! ## The moves -/

/-- Why a submission is refused, with the code it returns. -/
inductive Refusal (core : Core) (c : Caller) (block : Bool) : ℤ → Prop
  | closed (ha : core.accepting = false) : Refusal core c block 2
  | full (hb : block = false) (hf : core.ring.count = core.ring.capacity) :
      Refusal core c block 1
  | own (hb : block = true) (hc : c.own = true) (hf : core.ring.count = core.ring.capacity) :
      Refusal core c block 3

/-- The steps that change nothing but where the thread stands. -/
inductive Quiet (s : State T) (t : T) : Point → Pc Point → List (Event T) → Prop
  | arrive : Quiet s t .absent (.run (.idle .client)) []
  | callShutdown (h : ℕ) (hh : h ∈ s.handles) :
      Quiet s t (.idle .client) (.run (.shutdown h)) []
  | ownShutdown (c : Caller) (hc : c.own = true) :
      Quiet s t (.idle c) (.run (.idle c)) [.ret t .shutdown (-1) 0]
  | observed (c : Caller) (op : Op) (result error : ℤ)
      (hop : op = .isClosed ∨ op = .pendingCount ∨ op = .share) :
      Quiet s t (.idle c) (.run (.idle c)) [.ret t op result error]
  | refused (c : Caller) (h task : ℕ) (block : Bool) (code : ℤ)
      (hcode : Refusal s.core c block code) :
      Quiet s t (.submit c h task block) (.run (.idle c))
        [.released task, .ret t (.submit task block) code 0]
  | submitSleep (h task : ℕ) (ha : s.core.accepting = true)
      (hf : s.core.ring.count = s.core.ring.capacity) :
      Quiet s t (.submit .client h task true) (.wait .asleep (.submit .client h task true)) []
  | stopSleep (h : ℕ) (hl : s.core.liveWorkers ≠ 0) :
      Quiet s t (.stop h) (.wait .asleep (.stop h)) []
  | stopped (h : ℕ) (hl : s.core.liveWorkers = 0) :
      Quiet s t (.stop h) (.run (.idle .client)) [.ret t .shutdown 0 0]
  | loopSleep (hc : s.core.ring.count = 0) (ha : s.core.accepting = true) :
      Quiet s t .loop (.wait .asleep .loop) []
  | call (task : ℕ) : Quiet s t (.fetched task) (.run (.idle (.task task))) [.called task]
  | finish (task : ℕ) : Quiet s t (.idle (.task task)) (.run (.release task)) [.finished task]
  | released (task : ℕ) : Quiet s t (.release task) (.run .loop) [.released task]
  | spawnFailed (index : ℕ) (status : ℤ) (hst : status ≠ 0) :
      Quiet s t (.spawn index) (.run (.uncount status)) []
  | drainSleep (status : ℤ) (hl : s.core.liveWorkers ≠ 0) :
      Quiet s t (.drain status) (.wait .asleep (.drain status)) []
  | drained (status : ℤ) (hl : s.core.liveWorkers = 0) :
      Quiet s t (.drain status) (.run (.giveUp status)) []

/-- The steps that close the core. -/
inductive Closing (t : T) : Point → Point → List (Event T) → Prop
  | close (c : Caller) : Closing t (.idle c) (.idle c) [.ret t .close 0 0]
  | shutdown (h : ℕ) : Closing t (.shutdown h) (.stop h) []
  | abandon (status : ℤ) : Closing t (.abandon status) (.drain status) []

/-- The steps that give up a reference of a worker: its own, or the constructor for a worker that
could not be created. -/
inductive Leaving : Point → Point → Prop
  | worker : Leaving .leave .exited
  | constructor (status : ℤ) : Leaving (.unref status) (.abandon status)

variable [DecidableEq T]

/-- The moves of the system. -/
inductive Move (s : State T) : State T → List (Event T) → Prop
  | quiet (t : T) (p : Point) (x : Pc Point) (e : List (Event T)) (ht : (s.threads t).Ready p)
      (hq : Quiet s t p x e) : Move s (s.move t x) e
  | spurious (t : T) (p : Point) (ht : s.threads t = .wait .asleep p) :
      Move s (s.move t (.wait .spurious p)) []
  | callSubmit (t : T) (c : Caller) (h : ℕ) (block : Bool) (ht : (s.threads t).Ready (.idle c))
      (hh : h ∈ s.handles) :
      Move s { s with
        threads := Function.update s.threads t (.run (.submit c h s.tasks block))
        tasks := s.tasks + 1 } []
  | submitted (t : T) (c : Caller) (h task : ℕ) (block : Bool) (f : T → Pc Point)
      (ht : (s.threads t).Ready (.submit c h task block)) (ha : s.core.accepting = true)
      (hf : s.core.ring.count ≠ s.core.ring.capacity)
      (hs : Signalled Point.cond .notEmpty (Function.update s.threads t (.run (.idle c))) f) :
      Move s { s with core := s.core.enqueue task, threads := f }
        [.ret t (.submit task block) 0 0]
  | closed (t : T) (p q : Point) (e : List (Event T)) (ht : (s.threads t).Ready p)
      (hp : Closing t p q e) :
      Move s { s with
        core := s.core.close, threads := wakeAll (Function.update s.threads t (.run q)) } e
  | fetch (t : T) (task : ℕ) (f : T → Pc Point) (ht : (s.threads t).Ready .loop)
      (hc : s.core.ring.count ≠ 0) (hi : s.core.ring.slots s.core.ring.head = some task)
      (hs : Signalled Point.cond .notFull
        (Function.update s.threads t (.run (.fetched task))) f) :
      Move s { s with core := s.core.dequeue, threads := f } [.dequeued task]
  | leave (t : T) (ht : (s.threads t).Ready .loop) (hc : s.core.ring.count = 0)
      (ha : s.core.accepting = false) :
      Move s { s with
        core := s.core.addWorkers (-1)
        threads := broadcast Point.cond .stopped (Function.update s.threads t (.run .leave)) } []
  | unref (t : T) (p q : Point) (ht : (s.threads t).Ready p) (hp : Leaving p q) :
      Move s { s with
          core := s.core.release, threads := Function.update s.threads t (.run q)
          freed := s.freed || decide (s.core.release.refs = 0) }
        (freeEvents s.core.release)
  | gaveUp (t : T) (status : ℤ) (ht : (s.threads t).Ready (.giveUp status)) :
      Move s { s with
          core := s.core.release, threads := Function.update s.threads t (.run (.idle .client))
          freed := s.freed || decide (s.core.release.refs = 0), result := some status }
        (freeEvents s.core.release ++ [.ret t .new 0 status])
  | start (t : T) (ht : (s.threads t).Ready .absent) (hs : 0 < s.starting) :
      Move s { s with
        threads := Function.update s.threads t (.run .loop), starting := s.starting - 1 } []
  | counting (t : T) (index : ℕ) (ht : (s.threads t).Ready (.create index))
      (hi : index < s.core.workerCount) :
      Move s { s with
        core := s.core.retain, threads := Function.update s.threads t (.run (.count index)) } []
  | created (t : T) (index : ℕ) (ht : (s.threads t).Ready (.create index))
      (hi : ¬index < s.core.workerCount) :
      Move s { s with
          threads := Function.update s.threads t (.run (.idle .client)), handles := {0}
          result := some 0 }
        [.ret t .new 0 0]
  | counted (t : T) (index : ℕ) (ht : (s.threads t).Ready (.count index)) :
      Move s { s with
        core := s.core.addWorkers 1
        threads := Function.update s.threads t (.run (.spawn index)) } []
  | spawned (t : T) (index : ℕ) (ht : (s.threads t).Ready (.spawn index)) :
      Move s { s with
        threads := Function.update s.threads t (.run (.create (index + 1)))
        starting := s.starting + 1 } []
  | uncounted (t : T) (status : ℤ) (ht : (s.threads t).Ready (.uncount status)) :
      Move s { s with
        core := s.core.addWorkers (-1)
        threads := Function.update s.threads t (.run (.unref status)) } []
  | share (t : T) (c : Caller) (h h' : ℕ) (ht : (s.threads t).Ready (.idle c)) (hh : h ∈ s.handles)
      (hh' : h' ∉ s.handles) (hm : s.core.handles ≠ int32Max) :
      Move s { s with core := s.core.addHandle, handles := insert h' s.handles }
        [.ret t .share 0 0]
  | drop (t : T) (h : ℕ) (hh : h ∈ s.handles)
      (hu : ∀ u, (s.threads u).point.handle ≠ some h) :
      Move s { s with
          core := s.core.dropHandle.release
          threads := if s.core.dropHandle.handles = 0 then wakeAll s.threads else s.threads
          handles := s.handles.erase h
          freed := s.freed || decide (s.core.dropHandle.release.refs = 0) }
        (freeEvents s.core.dropHandle.release ++ [.ret t .drop 0 0])

/-! ## Every step is a move -/

variable [Fintype T] {s s' : State T} {e : List (Event T)} {t : T} {pick : Option T}

omit [Fintype T] in
/-- An operation that only looks at the pool. -/
theorem Move.observed {c : Caller} {op : Op} {result error : ℤ}
    (ht : s.threads t = .run (.idle c))
    (hop : op = .isClosed ∨ op = .pendingCount ∨ op = .share) :
    Move s s [.ret t op result error] := by
  have hm := Move.quiet t _ _ _ (.inl ht) (Quiet.observed (s := s) (t := t) c op result error hop)
  rwa [State.move, ← ht, Function.update_eq_self] at hm

omit [Fintype T] [DecidableEq T] in
theorem State.unref_eq (s : State T) :
    s.unref = ({ s with
      core := s.core.release, freed := s.freed || decide (s.core.release.refs = 0) },
      freeEvents s.core.release) := by
  by_cases h : s.core.release.refs = 0
  · have h' : arcDec s.core.refs = 0 := h
    simp [State.unref, coreRelease, freeEvents, Core.release, h']
  · have h' : arcDec s.core.refs ≠ 0 := h
    simp [State.unref, coreRelease, freeEvents, Core.release, h']

theorem submitLoop_move {c : Caller} {h i : ℕ} {block : Bool}
    (ht : (s.threads t).Ready (.submit c h i block))
    (hown : block = true → c.own = true → s.core.accepting = true →
      s.core.ring.count ≠ s.core.ring.capacity)
    (hs : s.endSubmit t c h i block pick (submitLoop s.core i block {}) = some (s', e)) :
    Move s s' e := by
  simp only [submitLoop, ne_eq, not_true_eq_false, if_false, if_true, recordError_zero,
    Core.full] at hs
  split_ifs at hs with h₁ h₂ h₃
  · simp only [Bool.and_eq_true, beq_iff_eq] at h₁
    obtain ⟨⟨rfl, ha⟩, hf⟩ := h₁
    obtain ⟨rfl, rfl⟩ := by simpa [State.endSubmit] using hs
    cases c with
    | client => exact .quiet t _ _ _ ht (.submitSleep h i ha hf)
    | task j => exact absurd hf (hown rfl rfl ha)
  · simp only [Bool.not_eq_true'] at h₂
    obtain ⟨rfl, rfl⟩ := by simpa [State.endSubmit, State.settle] using hs
    exact .quiet t _ _ _ ht (.refused c h i block 2 (.closed h₂))
  · simp only [Bool.not_eq_true', Bool.not_eq_false] at h₂
    simp only [beq_iff_eq] at h₃
    obtain ⟨rfl, rfl⟩ := by simpa [State.endSubmit, State.settle] using hs
    refine .quiet t _ _ _ ht (.refused c h i block 1 (.full ?_ h₃))
    simpa [h₂, h₃] using h₁
  · simp only [Bool.not_eq_true', Bool.not_eq_false] at h₂
    simp only [beq_iff_eq] at h₃
    simp only [State.endSubmit, State.settle, deliver_signal, Option.map_eq_some_iff,
      Prod.mk.injEq] at hs
    obtain ⟨_, ⟨f, hf, rfl⟩, rfl, rfl⟩ := hs
    exact .submitted t c h i block f ht h₂ h₃ (signal_signalled hf)

theorem submitTask_move {c : Caller} {h i : ℕ} {block : Bool}
    (ht : (s.threads t).Ready (.submit c h i block))
    (hs : s.endSubmit t c h i block pick (submitTask s.core i block c.own {}) = some (s', e)) :
    Move s s' e := by
  simp only [submitTask, ne_eq, not_true_eq_false, if_false] at hs
  split_ifs at hs with h₁
  · simp only [Bool.and_eq_true, Core.full, beq_iff_eq] at h₁
    obtain ⟨⟨⟨rfl, ha⟩, ho⟩, hf⟩ := h₁
    obtain ⟨rfl, rfl⟩ := by simpa [State.endSubmit, State.settle] using hs
    exact .quiet t _ _ _ ht (.refused c h i true 3 (.own rfl ho hf))
  · refine submitLoop_move ht (fun hb ho ha hf => h₁ ?_) hs
    simp [hb, ho, ha, Core.full, hf]

omit [Fintype T] in
theorem shutdownLoop_move {h : ℕ} (ht : (s.threads t).Ready (.stop h))
    (hs : s.endStop t h (shutdownLoop s.core {}) = (s', e)) : Move s s' e := by
  simp only [shutdownLoop, ne_eq, not_true_eq_false, if_false, recordError_zero] at hs
  split_ifs at hs with h₁
  · obtain ⟨rfl, rfl⟩ := by simpa [State.endStop] using hs
    exact .quiet t _ _ _ ht (.stopped h h₁)
  · obtain ⟨rfl, rfl⟩ := by simpa [State.endStop] using hs
    exact .quiet t _ _ _ ht (.stopSleep h h₁)

theorem workerLoop_move (ht : (s.threads t).Ready .loop)
    (hs : (workerLoop s.core {}).bind (s.endLoop t pick) = some (s', e)) : Move s s' e := by
  simp only [workerLoop, ne_eq, not_true_eq_false, if_false] at hs
  split_ifs at hs with h₁ h₂
  · simp only [Bool.and_eq_true, beq_iff_eq] at h₁
    obtain ⟨rfl, rfl⟩ := by simpa [State.endLoop] using hs
    exact .quiet t _ _ _ ht (.loopSleep h₁.1 h₁.2)
  · rw [h₂, Bool.true_and] at h₁
    obtain ⟨rfl, rfl⟩ := by simpa [State.endLoop, State.settle] using hs
    exact .leave t ht (by simpa using h₂) (by simpa using h₁)
  · simp only [Option.bind_eq_some_iff, Option.map_eq_some_iff] at hs
    obtain ⟨_, ⟨i, hi, rfl⟩, hs⟩ := hs
    simp only [State.endLoop, State.settle, deliver_signal, Option.map_eq_some_iff,
      Prod.mk.injEq] at hs
    obtain ⟨_, ⟨f, hf, rfl⟩, rfl, rfl⟩ := hs
    exact .fetch t i f ht (by simpa using h₂) hi (signal_signalled hf)

omit [Fintype T] in
theorem waitWorkers_move {status : ℤ} (ht : (s.threads t).Ready (.drain status))
    (hs : (waitWorkers s.core {}).map (s.endDrain t status) = some (s', e)) : Move s s' e := by
  by_cases hl : s.core.liveWorkers = 0
  · obtain ⟨rfl, rfl⟩ := by simpa [waitWorkers, State.endDrain, hl] using hs
    exact .quiet t _ _ _ ht (.drained status hl)
  · obtain ⟨rfl, rfl⟩ := by simpa [waitWorkers, State.endDrain, hl] using hs
    exact .quiet t _ _ _ ht (.drainSleep status hl)

omit [DecidableEq T] [Fintype T] in
theorem closeCore_exit : (closeCore s.core {}).exit = 0 := rfl

/-- The section that closes the core, with successful primitives. -/
theorem settle_closeCore {x : Pc Point} :
    s.settle t x none (closeCore s.core {}) =
      some { s with core := s.core.close, threads := wakeAll (Function.update s.threads t x) } :=
  rfl

omit [Fintype T] in
theorem advance_move {status : ℤ} (hs : s.advance t status = some (s', e)) : Move s s' e := by
  unfold State.advance at hs
  split at hs
  · rename_i i ht
    obtain ⟨rfl, rfl⟩ := by simpa using hs
    exact .quiet t _ _ _ (.inl ht) (.call i)
  · rename_i i ht
    obtain ⟨rfl, rfl⟩ := by simpa using hs
    exact .quiet t _ _ _ (.inl ht) (.finish i)
  · rename_i i ht
    obtain ⟨rfl, rfl⟩ := by simpa using hs
    exact .quiet t _ _ _ (.inl ht) (.released i)
  · rename_i ht
    rw [State.unref_eq] at hs
    obtain ⟨rfl, rfl⟩ := by simpa using hs
    exact .unref t _ _ (.inl ht) .worker
  · rename_i i ht
    split_ifs at hs with hi
    · obtain ⟨rfl, rfl⟩ := by simpa using hs
      exact .counting t i (.inl ht) hi
    · obtain ⟨rfl, rfl⟩ := by simpa using hs
      exact .created t i (.inl ht) hi
  · rename_i i ht
    split_ifs at hs with hst
    · obtain ⟨rfl, rfl⟩ := by simpa using hs
      exact .spawned t i (.inl ht)
    · obtain ⟨rfl, rfl⟩ := by simpa using hs
      exact .quiet t _ _ _ (.inl ht) (.spawnFailed i status hst)
  · rename_i st ht
    rw [State.unref_eq] at hs
    obtain ⟨rfl, rfl⟩ := by simpa using hs
    exact .unref t _ _ (.inl ht) (.constructor st)
  · rename_i st ht
    rw [State.unref_eq] at hs
    obtain ⟨rfl, rfl⟩ := by simpa using hs
    exact .gaveUp t st (.inl ht)
  · simp at hs

omit [DecidableEq T] [Fintype T] in
theorem finalize_ok {core : Core} (h : 0 < core.handles) :
    finalize core {} = some
      { core := core.dropHandle
        wakes := if core.dropHandle.handles = 0 then
          [.broadcast .notEmpty, .broadcast .notFull] else []
        exit := () } := by
  by_cases h' : wrap32 (core.handles - 1) = 0 <;>
    simp [finalize, Core.dropHandle, wakeBoth, h, h']

theorem finalize_move {h : ℕ} (hh : h ∈ s.handles)
    (hu : ∀ u, (s.threads u).point.handle ≠ some h)
    (hs : (finalize s.core {}).bind
      (State.endFinalize { s with handles := s.handles.erase h } t) = some (s', e)) :
    Move s s' e := by
  have hpos : 0 < s.core.handles := by
    by_contra hn
    simp [finalize, not_lt.1 hn] at hs
  rw [finalize_ok hpos, Option.bind_some] at hs
  have hsettle : State.settle { s with handles := s.handles.erase h } t (s.threads t) none
      { core := s.core.dropHandle
        wakes := if s.core.dropHandle.handles = 0 then
          [.broadcast .notEmpty, .broadcast .notFull] else []
        exit := () } = some { s with
          core := s.core.dropHandle
          threads := if s.core.dropHandle.handles = 0 then wakeAll s.threads else s.threads
          handles := s.handles.erase h } := by
    by_cases h' : s.core.dropHandle.handles = 0 <;>
      simp [State.settle, h', wakeAll]
  simp only [State.endFinalize] at hs
  rw [hsettle, Option.map_some, State.unref_eq] at hs
  obtain ⟨rfl, rfl⟩ := by simpa using hs
  exact .drop t h hh hu

/-- **Every step whose primitives succeed is a move.** -/
theorem step_move {a : Action T} (hw : ∀ t, (s.threads t).WaitsAt Point.Waits)
    (hs : step s a = some (s', e)) (hos : a.os = {}) (hinj : a.injected = 0) : Move s s' e := by
  cases a with
  | arrive t =>
    simp only [step] at hs
    split_ifs at hs with ht
    obtain ⟨rfl, rfl⟩ := by simpa using hs
    exact .quiet t _ _ _ (.inl ht) .arrive
  | start t =>
    simp only [step] at hs
    split_ifs at hs with ht
    obtain ⟨rfl, rfl⟩ := by simpa using hs
    exact .start t (.inl ht.1) ht.2
  | callSubmit t h block injected =>
    obtain rfl : injected = 0 := hinj
    simp only [step] at hs
    split at hs
    · rename_i c ht
      split_ifs at hs with hh h₂
      · exact absurd rfl h₂
      · obtain ⟨rfl, rfl⟩ := by simpa using hs
        exact .callSubmit t c h block (.inl ht) hh
    · simp at hs
  | callShutdown t h injected =>
    obtain rfl : injected = 0 := hinj
    simp only [step] at hs
    split at hs
    · rename_i c ht
      split_ifs at hs with hh h₂ ho
      · exact absurd rfl h₂
      · obtain ⟨rfl, rfl⟩ := by simpa using hs
        have hm := Move.quiet t _ _ _ (.inl ht) (Quiet.ownShutdown (s := s) (t := t) c ho)
        rwa [State.move, ← ht, Function.update_eq_self] at hm
      · obtain ⟨rfl, rfl⟩ := by simpa using hs
        cases c with
        | client => exact .quiet t _ _ _ (.inl ht) (.callShutdown h hh)
        | task i => exact absurd rfl ho
    · simp at hs
  | lock t os pick =>
    obtain rfl : os = {} := hos
    simp only [step] at hs
    split at hs
    · rename_i c h i block ht
      exact submitTask_move (.inl ht) hs
    · rename_i h ht
      rw [State.endClose, if_neg (not_not.2 closeCore_exit), settle_closeCore] at hs
      obtain ⟨rfl, rfl⟩ := by simpa using hs
      exact .closed t _ _ _ (.inl ht) (.shutdown h)
    · rename_i h ht
      exact shutdownLoop_move (.inl ht) (Option.some.inj hs)
    · rename_i ht
      exact workerLoop_move (.inl ht) hs
    · rename_i i ht
      obtain ⟨rfl, rfl⟩ := by simpa [countWorker, State.settle] using hs
      exact .counted t i (.inl ht)
    · rename_i st ht
      obtain ⟨rfl, rfl⟩ := by simpa [countWorker, State.settle] using hs
      exact .uncounted t st (.inl ht)
    · rename_i st ht
      rw [if_neg (not_not.2 closeCore_exit), settle_closeCore] at hs
      obtain ⟨rfl, rfl⟩ := by simpa using hs
      exact .closed t _ _ _ (.inl ht) (.abandon st)
    · rename_i st ht
      exact waitWorkers_move (.inl ht) hs
    · simp at hs
  | spurious t =>
    simp only [step] at hs
    split at hs
    · rename_i p ht
      obtain ⟨rfl, rfl⟩ := by simpa using hs
      exact .spurious t p ht
    · simp at hs
  | resume t os pick =>
    obtain rfl : os = {} := hos
    simp only [step] at hs
    split at hs
    · simp at hs
    · rename_i w c h i block hne ht
      have hc := hw t w _ ht
      cases c with
      | client => exact submitLoop_move (.inr ⟨w, hne, ht⟩) (fun _ ho => by cases ho) hs
      | task j => cases hc
    · rename_i w h hne ht
      exact shutdownLoop_move (.inr ⟨w, hne, ht⟩) (Option.some.inj hs)
    · rename_i w hne ht
      exact workerLoop_move (.inr ⟨w, hne, ht⟩) hs
    · rename_i w st hne ht
      exact waitWorkers_move (.inr ⟨w, hne, ht⟩) hs
    · simp at hs
  | advance t status => exact advance_move hs
  | close t h os =>
    obtain rfl : os = {} := hos
    simp only [step] at hs
    split at hs
    · rename_i c ht
      split_ifs at hs with hh
      rw [settle_closeCore] at hs
      obtain ⟨rfl, rfl⟩ := by simpa using hs
      exact .closed t _ _ _ (.inl ht) (.close c)
    · simp at hs
  | isClosed t h os =>
    simp only [step] at hs
    split at hs
    · rename_i c ht
      split_ifs at hs with hh
      obtain ⟨rfl, rfl⟩ := by simpa using hs
      exact .observed ht (.inl rfl)
    · simp at hs
  | pendingCount t h os =>
    simp only [step] at hs
    split at hs
    · rename_i c ht
      split_ifs at hs with hh
      obtain ⟨rfl, rfl⟩ := by simpa using hs
      exact .observed ht (.inr (.inl rfl))
    · simp at hs
  | share t h h' os =>
    obtain rfl : os = {} := hos
    simp only [step] at hs
    split at hs
    · rename_i c ht
      split_ifs at hs with hh
      rw [not_or, not_not] at hh
      simp only [share, ne_eq, not_true_eq_false, if_false, recordError_zero, if_true] at hs
      split_ifs at hs with hm
      · obtain ⟨rfl, rfl⟩ := by simpa using hs
        exact .observed ht (.inr (.inr rfl))
      · obtain ⟨rfl, rfl⟩ := by simpa using hs
        exact .share t c h h' (.inl ht) hh.1 hh.2 hm
    · simp at hs
  | drop t h os =>
    obtain rfl : os = {} := hos
    simp only [step] at hs
    split at hs
    · rename_i p ht
      split_ifs at hs with hh
      exact finalize_move hh.2.1 hh.2.2 hs
    · simp at hs

end NativeSync.ThreadPool
