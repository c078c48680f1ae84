import NativeSync.ThreadPool.Invariant

/-!
# The thread pool loses no wake-up

A submission adds a task and signals `not_empty` once, a worker that takes a task frees a slot and
signals `not_full` once. So the queued tasks are covered by the notified workers as long as a worker
sleeps, and the free slots of an accepting pool by the notified producers as long as a producer
sleeps. Whoever ends the acceptance wakes both sides, and every worker that leaves wakes those who
wait for the end.

The points at which the code waits (`Point.Waits`) are such that a worker never sleeps on
`not_full` or on `stopped`.
-/

namespace NativeSync.ThreadPool

open Foundations

/-- The demand for producers: the free slots of a pool that accepts tasks. -/
def Core.freeSlots (core : Core) : ℕ :=
  if core.accepting then core.ring.capacity - core.ring.count else 0

theorem Core.freeSlots_of_full {core : Core} (h : core.ring.count = core.ring.capacity) :
    core.freeSlots = 0 := by
  unfold Core.freeSlots
  split_ifs
  · rw [h, Nat.sub_self]
  · rfl

/-- The only wait of a worker. -/
theorem Point.eq_loop_of_waits {p : Point} (hw : p.Waits) (hp : p.worker = true) :
    p = .loop := by
  cases p with
  | loop => rfl
  | submit c h i block =>
    cases c with
    | client => cases hp
    | task j => cases hw
  | stop h => cases hp
  | drain st => cases hp
  | _ => cases hw

/-- Who waits for the workers to stop does not wait for anything else. -/
theorem Point.cond_ne_of_stopped {p : Point} {c : Cond} (hp : p.cond = some .stopped)
    (hc : c ≠ .stopped) : (Pc.wait .asleep p).asleepOn Point.cond c = false := by
  refine decide_eq_false fun h => hc ?_
  rw [hp] at h
  exact (Option.some.inj h).symm

theorem Point.worker_of_cond {p : Point} (h : p.cond = some .notEmpty) : p.worker = true := by
  cases p with
  | loop => rfl
  | _ => cases h

variable {T : Type} [Fintype T] {s s' : State T} {e : List (Event T)} {t t₀ : T} {p : Point}
  {N : Size}

/-- No wake-up is lost. -/
structure Awake (s : State T) : Prop where
  notEmpty : Covered Point.cond .notEmpty (Pc.notifiedOn Point.cond .notEmpty) s.core.ring.count
    s.threads
  notFull : Covered Point.cond .notFull (Pc.notifiedOn Point.cond .notFull) s.core.freeSlots
    s.threads
  closed : s.core.accepting = false → ∀ c ≠ .stopped, NoSleeper Point.cond c s.threads
  stopped : s.core.liveWorkers = 0 → NoSleeper Point.cond .stopped s.threads

namespace Awake

/-- Waking everybody after the end of the acceptance. -/
theorem of_wakeAll {f : T → Pc Point} (ha : Awake s) (hw : Woken s.threads f)
    (h₁ : NoSleeper Point.cond .notEmpty f) (h₂ : NoSleeper Point.cond .notFull f)
    (hs : s'.threads = f) (hl : s'.core.liveWorkers = s.core.liveWorkers) : Awake s' := by
  refine ⟨?_, ?_, fun _ c hc => ?_, fun h => ?_⟩
  · rw [hs]
    exact h₁.covered
  · rw [hs]
    exact h₂.covered
  · rw [hs]
    cases c with
    | notEmpty => exact h₁
    | notFull => exact h₂
    | stopped => exact absurd rfl hc
  · rw [hs]
    exact (ha.stopped (hl ▸ h)).woken hw

variable [DecidableEq T] {x : Pc Point}

/-- A thread that does not wait where it stands moves on, and the core keeps what counts. -/
theorem pass (ha : Awake s) (hp : (s.threads t).point = p) (hc : p.cond = none)
    (hx : ∀ c, x.asleepOn Point.cond c = false)
    (hs : s'.threads = Function.update s.threads t x) (hring : s'.core.ring = s.core.ring)
    (hacc : s'.core.accepting = s.core.accepting)
    (hlive : s'.core.liveWorkers = 0 → s.core.liveWorkers = 0) : Awake s' := by
  have hne : ∀ c, Point.cond (s.threads t).point ≠ some c := by
    intro c
    rw [hp, hc]
    exact nofun
  have hfree : s'.core.freeSlots = s.core.freeSlots := by
    unfold Core.freeSlots
    rw [hring, hacc]
  refine ⟨?_, ?_, fun h c hcs => ?_, fun h => ?_⟩
  · rw [hs, hring]
    exact ha.notEmpty.pass (hx _) (hne _)
  · rw [hs, hfree]
    exact ha.notFull.pass (hx _) (hne _)
  · rw [hs]
    exact (ha.closed (hacc ▸ h) c hcs).update (hx c)
  · rw [hs]
    exact (ha.stopped (hlive h)).update (hx _)

end Awake

variable [DecidableEq T]

/-- **A step that moves one thread only loses no wake-up.** -/
theorem Quiet.awake {x : Pc Point} (hq : Quiet s t p x e) (ht : (s.threads t).point = p)
    (ha : Awake s) : Awake (s.move t x) := by
  cases hq with
  | refused c k i block code hcode =>
    refine ⟨ha.notEmpty.pass rfl (by rw [ht]; exact nofun), ?_, fun h c hc =>
      (ha.closed h c hc).update rfl, fun h => (ha.stopped h).update rfl⟩
    cases hcode with
    | closed hacc => exact ((ha.closed hacc .notFull nofun).update rfl).covered
    | full _ hf => exact (covered_zero _).mono (Core.freeSlots_of_full hf).le
    | own _ _ hf => exact (covered_zero _).mono (Core.freeSlots_of_full hf).le
  | submitSleep k i hacc hf =>
    refine ⟨ha.notEmpty.pass rfl (by rw [ht]; exact nofun), ?_, fun h => ?_, fun h =>
      (ha.stopped h).update rfl⟩
    · exact (covered_zero _).mono (Core.freeSlots_of_full hf).le
    · cases hacc.symm.trans h
  | stopSleep k hl =>
    refine ⟨ha.notEmpty.pass rfl (by rw [ht]; exact nofun),
      ha.notFull.pass rfl (by rw [ht]; exact nofun), fun h c hc => ?_, fun h => absurd h hl⟩
    exact (ha.closed h c hc).update (Point.cond_ne_of_stopped rfl hc)
  | stopped k hl =>
    exact ⟨ha.notEmpty.pass rfl (by rw [ht]; exact nofun),
      ha.notFull.pass rfl (by rw [ht]; exact nofun), fun h c hc =>
      (ha.closed h c hc).update rfl, fun h => (ha.stopped h).update rfl⟩
  | loopSleep hc hacc =>
    refine ⟨(covered_zero _).mono hc.le, ha.notFull.pass rfl (by rw [ht]; exact nofun),
      fun h => ?_, fun h => (ha.stopped h).update rfl⟩
    cases hacc.symm.trans h
  | released i => exact ha.pass ht rfl (fun _ => rfl) rfl rfl rfl id
  | drainSleep st hl =>
    refine ⟨ha.notEmpty.pass rfl (by rw [ht]; exact nofun),
      ha.notFull.pass rfl (by rw [ht]; exact nofun), fun h c hc => ?_, fun h => absurd h hl⟩
    exact (ha.closed h c hc).update (Point.cond_ne_of_stopped rfl hc)
  | drained st hl =>
    exact ⟨ha.notEmpty.pass rfl (by rw [ht]; exact nofun),
      ha.notFull.pass rfl (by rw [ht]; exact nofun), fun h c hc =>
      (ha.closed h c hc).update rfl, fun h => (ha.stopped h).update rfl⟩
  | _ => exact ha.pass ht rfl (fun _ => rfl) rfl rfl rfl id

omit [DecidableEq T] in
/-- Nobody waits for the workers to stop while the constructor is before its own wait. -/
theorem Inv.noSleeper_stopped (h : Inv N t₀ s) (ht : (s.threads t).point.creating = true)
    (hd : (s.threads t).point.cond = none) : NoSleeper Point.cond .stopped s.threads := by
  intro u
  by_contra hu
  obtain ⟨p, hp, hc⟩ := (Pc.asleepOn_iff Point.cond).1 (Bool.eq_true_of_not_eq_false hu)
  have hpoint : (s.threads u).point = p := by rw [hp]; rfl
  obtain ⟨rfl, hr⟩ := (h.creator t).1 ht
  cases p with
  | stop k =>
    have hk := (h.pcs u).handle k (by rw [hpoint]; rfl)
    cases hr.symm.trans (h.result_of_mem hk)
  | drain st =>
    obtain rfl := ((h.creator u).1 (by rw [hpoint]; rfl)).1
    rw [hpoint] at hd
    cases hd
  | _ => cases hc

/-- **A move loses no wake-up.** -/
theorem Move.awake (hm : Move s s' e) (h : Inv N t₀ s) (ha : Awake s) : Awake s' := by
  have hI := hm.inv h
  cases hm with
  | quiet t p x e ht hq => exact hq.awake ht.point ha
  | spurious t p ht =>
    exact ⟨ha.notEmpty.spurious ht, ha.notFull.spurious ht, fun hacc c hc =>
      (ha.closed hacc c hc).update rfl, fun hl => (ha.stopped hl).update rfl⟩
  | callSubmit t c k block ht hk => exact ha.pass ht.point rfl (fun _ => rfl) rfl rfl rfl id
  | submitted t c k i block f ht hacc hf hs =>
    have hle : (s.core.enqueue i).freeSlots ≤ s.core.freeSlots - 1 := by
      simp only [Core.freeSlots, Core.enqueue, hacc, if_true, RingBuffer.capacity_push,
        RingBuffer.count_push]
      omega
    refine ⟨?_, (ha.notFull.leave rfl hle).signal_other hs nofun, fun hc => ?_, fun hl => ?_⟩
    · exact (ha.notEmpty.pass rfl (by rw [ht.point]; exact nofun)).signal_notified hs
    · cases hacc.symm.trans hc
    · exact ((ha.stopped hl).update rfl).woken (.of_signalled hs)
  | closed t p q e ht hp =>
    have hq : ∀ c, (Pc.run q).asleepOn Point.cond c = false := fun _ => rfl
    refine ⟨(noSleeper_wakeAll _ (c := .notEmpty) nofun).covered,
      (noSleeper_wakeAll _ (c := .notFull) nofun).covered, fun _ c hc => noSleeper_wakeAll _ hc,
      fun hl => ?_⟩
    exact ((ha.stopped hl).update (hq _)).woken (woken_wakeAll _)
  | fetch t i f ht hc hi hs =>
    have hw := Woken.of_signalled hs
    have hle : s.core.dequeue.freeSlots ≤ s.core.freeSlots + 1 := by
      cases hacc : s.core.accepting <;>
        simp only [Core.freeSlots, Core.dequeue, hacc, if_true, Bool.false_eq_true, if_false,
          RingBuffer.capacity_pop, RingBuffer.count_pop]
      · omega
      · omega
    refine ⟨(ha.notEmpty.leave rfl le_rfl).signal_other hs nofun, ?_, fun hacc c hcs =>
      ((ha.closed hacc c hcs).update rfl).woken hw, fun hl => ((ha.stopped hl).update rfl).woken hw⟩
    exact ((ha.notFull.pass rfl (by rw [ht.point]; exact nofun)).signal_notified hs).mono hle
  | leave t ht hc hacc =>
    have hno : ∀ c ≠ .stopped, NoSleeper Point.cond c (broadcast Point.cond .stopped
        (Function.update s.threads t (.run .leave))) := fun c hcs =>
      ((ha.closed hacc c hcs).update rfl).woken (.of_broadcast _ _)
    exact ⟨(hno .notEmpty nofun).covered, (hno .notFull nofun).covered, fun _ => hno,
      fun _ => noSleeper_broadcast _⟩
  | unref t p q ht hp =>
    have hc : p.cond = none := by cases hp <;> rfl
    exact ha.pass ht.point hc (fun _ => rfl) rfl rfl rfl id
  | gaveUp t st ht => exact ha.pass ht.point rfl (fun _ => rfl) rfl rfl rfl id
  | start t ht hpos => exact ha.pass ht.point rfl (fun _ => rfl) rfl rfl rfl id
  | counting t i ht hi => exact ha.pass ht.point rfl (fun _ => rfl) rfl rfl rfl id
  | created t i ht hi => exact ha.pass ht.point rfl (fun _ => rfl) rfl rfl rfl id
  | counted t i ht =>
    refine ha.pass ht.point rfl (fun _ => rfl) rfl rfl rfl fun hl => ?_
    -- the worker that was just counted is alive
    have hlive : numAt Point.live (Function.update s.threads t (.run (.spawn i))) +
      s.starting = 0 := hI.liveWorkers_eq_zero.1 hl
    have hpos : 0 < numAt Point.live (Function.update s.threads t (.run (.spawn i))) :=
      numAt_pos.2 ⟨t, by rw [Function.update_self]; rfl⟩
    omega
  | spawned t i ht => exact ha.pass ht.point rfl (fun _ => rfl) rfl rfl rfl id
  | uncounted t st ht =>
    have hno := h.noSleeper_stopped (t := t) (by rw [ht.point]; rfl) (by rw [ht.point]; rfl)
    have hpass : Awake (s.move t (.run (.unref st))) :=
      ha.pass ht.point rfl (fun _ => rfl) rfl rfl rfl id
    exact ⟨hpass.notEmpty, hpass.notFull, hpass.closed, fun _ => hno.update rfl⟩
  | share t c k k' ht hk hk' hmax => exact ⟨ha.notEmpty, ha.notFull, ha.closed, ha.stopped⟩
  | drop t k hk hu =>
    by_cases hlast : s.core.dropHandle.handles = 0
    · exact ha.of_wakeAll (woken_wakeAll _) (noSleeper_wakeAll _ nofun)
        (noSleeper_wakeAll _ nofun) (if_pos hlast) rfl
    · have hsame : s.core.dropHandle.accepting = s.core.accepting := by
        change (s.core.accepting && decide (s.core.dropHandle.handles ≠ 0)) = s.core.accepting
        rw [decide_eq_true hlast, Bool.and_true]
      simp only [if_neg hlast]
      refine ⟨ha.notEmpty, ?_, fun hacc => ha.closed (hsame ▸ hacc), ha.stopped⟩
      have hfree : s.core.dropHandle.release.freeSlots = s.core.freeSlots := by
        change (if s.core.dropHandle.accepting = true then _ else _) = _
        rw [hsame]
        rfl
      rw [hfree]
      exact ha.notFull

omit [DecidableEq T] in
/-- **No task is stranded**: when a worker sleeps and the others sleep too or have left their loop,
the queue is empty. -/
theorem Awake.count_eq_zero (ha : Awake s)
    (hsleep : ∃ t, (s.threads t).asleepOn Point.cond .notEmpty = true)
    (hall : ∀ t, (s.threads t).point.worker = true →
      (s.threads t).asleepOn Point.cond .notEmpty = true ∨ (s.threads t).point.left = true) :
    s.core.ring.count = 0 := by
  have hcov := ha.notEmpty (num_pos.2 hsleep)
  have hnone : num (Pc.notifiedOn Point.cond .notEmpty) s.threads = 0 := by
    refine num_eq_zero.2 fun u => ?_
    by_contra hu
    obtain ⟨p, hp, hc⟩ := (Pc.notifiedOn_iff _).1 (Bool.eq_true_of_not_eq_false hu)
    obtain hs | hl := hall u (by rw [hp]; exact Point.worker_of_cond hc)
    · rw [hp] at hs
      cases hs
    · rw [hp, Pc.point_wait] at hl
      cases p with
      | loop => cases hl
      | _ => cases hc
  omega

/-! ## Runs -/

theorem awake_of_exec {es : List (Event T)} (h : Exec step Assumed (State.init N t₀) es s) :
    Awake s := by
  refine (h.stateInvariant (I := fun s => Inv N t₀ s ∧ Awake s) ⟨inv_init N t₀, ?_⟩
    fun ⟨hI, ha⟩ hs hG => ?_).2
  · exact ⟨covered_zero _, NoSleeper.covered fun _ => rfl, fun _ _ _ _ => rfl, fun _ _ => rfl⟩
  · have hm := step_move (fun t => (hI.pcs t).wait) hs hG.1 hG.2
    exact ⟨hm.inv hI, hm.awake hI ha⟩

/-- **No wake-up is lost, and no worker blocks itself.** While a worker sleeps, the queued tasks are
at most the notified workers; while a producer sleeps and the pool accepts tasks, the free slots are
at most the notified producers; nobody sleeps on a queue that is closed, nor for the end of workers
that are gone; and a worker is in no wait but the one for tasks. So no task stays in the queue while
all workers sleep, and no producer sleeps on a queue with room when none has been notified. -/
theorem thread_pool_no_lost_wakeup {es : List (Event T)} {s : State T}
    (h : Exec step Assumed (State.init N t₀) es s) :
    ((∃ t, (s.threads t).asleepOn Point.cond .notEmpty = true) →
      s.core.ring.count ≤ num (Pc.notifiedOn Point.cond .notEmpty) s.threads) ∧
    (s.core.accepting = true → (∃ t, (s.threads t).asleepOn Point.cond .notFull = true) →
      s.core.ring.capacity - s.core.ring.count ≤
        num (Pc.notifiedOn Point.cond .notFull) s.threads) ∧
    (s.core.accepting = false → ∀ t, (s.threads t).asleepOn Point.cond .notEmpty = false ∧
      (s.threads t).asleepOn Point.cond .notFull = false) ∧
    (s.core.liveWorkers = 0 → ∀ t, (s.threads t).asleepOn Point.cond .stopped = false) ∧
    (∀ t w p, s.threads t = .wait w p → p.worker = true → p.cond = some .notEmpty) ∧
    (s.result = some 0 → s.starting = 0 → (∀ t, (s.threads t).point.worker = true →
      (s.threads t).asleepOn Point.cond .notEmpty = true) → s.core.ring.count = 0) ∧
    (s.core.accepting = true → (∃ t, (s.threads t).asleepOn Point.cond .notFull = true) →
      (∀ t, (s.threads t).notifiedOn Point.cond .notFull = false) →
      s.core.ring.count = s.core.ring.capacity) := by
  have hI := inv_of_exec h
  have ha := awake_of_exec h
  have hfull : s.core.accepting = true →
      (∃ t, (s.threads t).asleepOn Point.cond .notFull = true) →
      s.core.ring.capacity - s.core.ring.count ≤
        num (Pc.notifiedOn Point.cond .notFull) s.threads := by
    intro hacc hsleep
    have hcov := ha.notFull (num_pos.2 hsleep)
    rwa [Core.freeSlots, if_pos hacc] at hcov
  refine ⟨fun hsleep => ha.notEmpty (num_pos.2 hsleep), hfull, fun hacc t =>
    ⟨ha.closed hacc .notEmpty nofun t, ha.closed hacc .notFull nofun t⟩,
    fun hl => ha.stopped hl, ?_, ?_, ?_⟩
  · intro t w p ht hp
    rw [Point.eq_loop_of_waits ((hI.pcs t).wait w p ht) hp]
    rfl
  · intro hr hstart hall
    have hmade := hI.made hr
    have hpos := N.workers_pos
    rw [State.hired, hstart] at hmade
    obtain ⟨t, ht⟩ := numAt_pos.1 (show 0 < numAt Point.worker s.threads by omega)
    exact ha.count_eq_zero ⟨t, hall t ht⟩ fun u hu => .inl (hall u hu)
  · intro hacc hsleep hnone
    have hcov := hfull hacc hsleep
    rw [num_eq_zero.2 hnone] at hcov
    have hle := hI.core.ring.count_le
    omega

/-- Two workers sleep, and a submission wakes the first of them. -/
theorem thread_pool_no_lost_wakeup_two_workers :
    ∃ (es : List (Event (Fin 3))) (s : State (Fin 3)),
      Exec step Assumed
        (State.init ⟨2, 1, by decide, by decide, by decide, by decide⟩ 0) es s ∧
      (s.threads 2).asleepOn Point.cond .notEmpty = true ∧ s.core.ring.count = 1 ∧
      1 ≤ num (Pc.notifiedOn Point.cond .notEmpty) s.threads := by
  obtain ⟨es, s, h, ht⟩ := Exec.exists_of_run step Assumed
    (State.init (T := Fin 3) ⟨2, 1, by decide, by decide, by decide, by decide⟩ 0)
    [.advance 0 0, .lock 0 {} none, .advance 0 0, .advance 0 0, .lock 0 {} none, .advance 0 0,
      .advance 0 0, .start 1, .start 2, .lock 1 {} none, .lock 2 {} none,
      .callSubmit 0 0 true 0, .lock 0 {} (some 1)]
    (fun s _ => decide ((s.threads 2).asleepOn Point.cond .notEmpty = true ∧
      s.core.ring.count = 1)) (by decide +kernel)
  obtain ⟨ha, hc⟩ := of_decide_eq_true ht
  exact ⟨es, s, h, ha, hc, hc ▸ (thread_pool_no_lost_wakeup h).1 ⟨2, ha⟩⟩

end NativeSync.ThreadPool
