import NativeSync.Thread.Books

/-!
# Threads: the task and its outcome are released once

The duty to release the task moves: a failed creation leaves it to the spawning thread, a join to
the joiner, and a detach to the detacher or to the worker, whichever comes last through the mutex.
The books say that it is never with two of them and never lost. Together with the invariant they say
that it is not released while the worker may still use it.

The outcome goes to the joiner, or is released with the core. The core is freed by whoever gives up
the last reference, the handle or the worker, and at that moment the task is gone.
-/

namespace NativeSync.Thread

open Foundations

variable {α T : Type}

/-- The worker has not yet returned from the call of its task. -/
def WorkerPoint.usesTask : WorkerPoint α → Bool
  | begin => true
  | w => w.inCall

variable [Fintype T] {s s' : State α T} {es e : List (Event α T)}

/-! ## The task -/

theorem Books.task_le_one (hb : Books es s) : es.countP Event.isTaskReleased ≤ 1 := by
  have ht := hb.task
  have hle := Bool.toNat_le (decide (s.spawner ≠ .start))
  omega

/-- A task that was released is not in the core. -/
theorem Books.task_eq_false (hb : Books es s) (hx : .taskReleased ∈ es) : s.core.task = false := by
  have hpos : 0 < es.countP Event.isTaskReleased := List.countP_pos_iff.2 ⟨_, hx, rfl⟩
  have ht := hb.task
  have hle := Bool.toNat_le (decide (s.spawner ≠ .start))
  rw [State.tasks] at ht
  cases hc : s.core.task
  · rfl
  · rw [hc, Bool.toNat_true] at ht
    omega

/-- As long as the worker uses the task, it is in the core. -/
theorem Inv.task_of_uses (h : Inv s) (hw : s.worker.usesTask = true) : s.core.task = true := by
  have hfin : s.core.finished = false := by
    rw [h.finished]
    cases hwk : s.worker <;> rw [hwk] at hw <;> first | rfl | cases hw
  have hx : s.worker.isExited = false := by
    cases hwk : s.worker <;> rw [hwk] at hw <;> first | rfl | cases hw
  have ha : s.worker.isAbsent = false := by
    cases hwk : s.worker <;> rw [hwk] at hw <;> first | rfl | cases hw
  rw [h.task, taskThere, h.created_of_worker ha, decide_eq_false (h.not_joined hx), hfin]
  simp

/-- When the handle is closed, the worker is gone and no call is open, the task was released. -/
theorem Books.task_eq_one (hb : Books es s) (h : Inv s) (ht : s.core.state.terminal = true)
    (href : s.workerRef = false) (hc : ∀ c, s.callers c = .idle) :
    es.countP Event.isTaskReleased = 1 := by
  have hb := hb.task
  have hw : s.spawner.holdsRef = false ∧ s.worker.holdsRef = false := by
    simpa [State.workerRef] using href
  have hheld : s.worker.holdsTask = false := by
    cases hwk : s.worker with
    | release task o =>
      rw [hwk] at hw
      cases hw.2
    | _ => rfl
  have hnum : num Point.holdsTask s.callers = 0 := num_eq_zero.2 fun c => by rw [hc c]; rfl
  have htask : s.core.task = false := by
    refine h.task_eq_false ht fun hcr => ?_
    have ha := h.absent
    rw [hcr] at ha
    obtain ⟨o, hwk⟩ := WorkerPoint.eq_exited ha hw.2
    rw [h.finished, hwk]
    rfl
  have hsp : s.spawner ≠ .start := by
    intro hsp
    have hst := h.state
    rw [hsp] at hst
    rw [hst.1] at ht
    cases ht
  rw [State.tasks, htask, hheld, hnum, decide_eq_true hsp] at hb
  exact hb

omit [Fintype T] in
/-- The step that releases the task does not move the worker out of the call. -/
theorem Move.usesTask [DecidableEq T] (hm : Move s s' e) (hx : .taskReleased ∈ e) :
    s'.worker.usesTask = s.worker.usesTask := by
  cases hm with
  | created hsp => cases hx
  | called hw => cases List.mem_singleton.1 hx
  | ended o hw hc => cases hx
  | completed o hw =>
    rcases List.mem_cons.1 hx with hx | hx
    · cases hx
    · split_ifs at hx
      · cases List.mem_singleton.1 hx
      · cases hx
  | returned o hw => cases List.mem_singleton.1 hx
  | finished o hw => cases hx
  | left task o hw =>
    rw [hw]
    rfl
  | exited o hw =>
    rw [hw]
    rfl
  | _ => rfl

/-! ## The outcome -/

theorem Books.result_le_one (hb : Books es s) :
    es.countP Event.isResultReleased + es.countP Event.isJoin ≤ 1 := by
  have hr := hb.result
  have hle := Bool.toNat_le s.worker.outcome.isSome
  omega

/-- When the core is freed, the outcome is with the joiner or was released. -/
theorem Books.result_of_freed (hb : Books es s) (h : Inv s) (hf : s.freed = true) :
    es.countP Event.isResultReleased + es.countP Event.isJoin =
      if s.spawner = .done 0 then 1 else 0 := by
  obtain ⟨hh, href⟩ := h.freed.1 hf
  have hr := hb.result
  have hidle : num Point.holdsResult s.callers = 0 := by
    refine num_eq_zero.2 fun c => ?_
    by_cases hc : s.callers c = .idle
    · rw [hc]
      rfl
    · cases hh.symm.trans (h.busy c hc).2
  have hw : s.spawner.holdsRef = false ∧ s.worker.holdsRef = false := by
    simpa [State.workerRef] using href
  have hout : s.worker.outcome.isSome = decide (s.spawner = .done 0) := by
    have ha := h.absent
    have hd := (h.dropped hh).2
    cases hsp : s.spawner with
    | done status =>
      rw [hsp] at ha
      by_cases h0 : status = 0
      · obtain ⟨o, hwk⟩ := WorkerPoint.eq_exited (by rw [ha, h0]; rfl) hw.2
        rw [hwk, h0]
        rfl
      · rw [SpawnPoint.created, decide_eq_false h0] at ha
        have hwk : s.worker = .absent := WorkerPoint.eq_absent ha
        simp [hwk, WorkerPoint.outcome, h0]
    | _ =>
      rw [hsp] at hd
      cases hd
  rw [State.results, hf, hidle, hout] at hr
  split_ifs with hs
  · simpa [hs] using hr
  · simpa [hs] using hr

/-! ## Everything is released once -/

variable [DecidableEq T]

/-- **The task and its outcome are released exactly once.** In every run:

* the task is released at most once, and exactly once when the handle is closed, the worker is gone
  and no call is open, as is the case when the core was freed;
* it is not released before the worker has returned from its call;
* the outcome is returned or released, not both, and exactly one of them when the core was freed; it
  is the one that was stored;
* when the references reach zero the task field is null, and the core is freed then and only then,
  once, after the handle and the worker have given it up. -/
theorem thread_released_once (h : Exec step Assumed State.init es s) :
    es.countP Event.isTaskReleased ≤ 1 ∧
    (s.core.state.terminal = true → s.workerRef = false → (∀ c, s.callers c = .idle) →
      es.countP Event.isTaskReleased = 1) ∧
    (s.freed = true → es.countP Event.isTaskReleased = 1) ∧
    (.taskReleased ∈ es → s.worker.usesTask = false) ∧
    (∀ a s' e, step s a = some (s', e) → Assumed s a s' → .taskReleased ∈ e →
      s.worker.usesTask = false) ∧
    es.countP Event.isResultReleased + es.countP Event.isJoin ≤ 1 ∧
    (s.freed = true → es.countP Event.isResultReleased + es.countP Event.isJoin =
      if s.spawner = .done 0 then 1 else 0) ∧
    (∀ x ∈ es, ∀ r, x.given = some r → ∃ o, r = some o ∧ es.filterMap Event.completion = [o]) ∧
    (s.core.refs = 0 → s.core.task = false) ∧
    (s.core.refs = 0 ↔ s.handle = false ∧ s.workerRef = false) ∧
    es.countP Event.isFreed = (decide (s.core.refs = 0)).toNat := by
  have hI := inv_of_exec h
  have hb := books_of_exec h
  have huses : ∀ {es : List (Event α T)} {s}, Inv s → Books es s → .taskReleased ∈ es →
      s.worker.usesTask = false := by
    intro es s hI hb hx
    by_contra hw
    have ht := hI.task_of_uses (Bool.eq_true_of_not_eq_false hw)
    rw [hb.task_eq_false hx] at ht
    cases ht
  have hfreed : s.freed = true ↔ s.core.refs = 0 := by rw [hI.freed, hI.refs_eq_zero]
  have hgone : s.freed = true → es.countP Event.isTaskReleased = 1 := by
    intro hf
    obtain ⟨hh, href⟩ := hI.freed.1 hf
    refine hb.task_eq_one hI (hI.dropped hh).1 href fun c => ?_
    by_contra hc
    cases hh.symm.trans (hI.busy c hc).2
  refine ⟨hb.task_le_one, hb.task_eq_one hI, hgone, huses hI hb, ?_, hb.result_le_one,
    hb.result_of_freed hI, fun x hx r hr => given_of_exec h hx hr, ?_, hI.refs_eq_zero, ?_⟩
  · intro a s' e hs hG hx
    have hm := step_move hs hG
    rw [← hm.usesTask hx]
    exact huses (hm.inv hI) (hm.books hI hb) (List.mem_append_right es hx)
  · intro h0
    have hone := hgone (hfreed.2 h0)
    obtain ⟨x, hx, hk⟩ := List.countP_pos_iff.1 (by rw [hone]; exact one_pos)
    cases x with
    | taskReleased => exact hb.task_eq_false hx
    | _ => cases hk
  · rw [hb.freed]
    by_cases hf : s.freed = true
    · rw [hf, decide_eq_true (hfreed.1 hf)]
    · rw [Bool.eq_false_of_not_eq_true hf, decide_eq_false fun h0 => hf (hfreed.2 h0)]

/-- A detach that fails and is tried again while the task runs; the handle is dropped before the
worker has finished, which then releases the task, the outcome and the core. -/
theorem thread_released_once_detached :
    ∃ (es : List (Event ℕ (Fin 1))) (s : State ℕ (Fin 1)),
      Exec step Assumed State.init es s ∧ s.freed = true ∧
      .ret (some 0) .detach 7 none ∈ es ∧ .ret (some 0) .detach 0 none ∈ es ∧
      .resultReleased (.returned 3) ∈ es ∧ es.countP Event.isTaskReleased = 1 ∧
      es.countP Event.isResultReleased + es.countP Event.isJoin = 1 ∧ s.core.task = false := by
  obtain ⟨es, s, h, ht⟩ := Exec.exists_of_run step Assumed (State.init : State ℕ (Fin 1))
    [.spawn 0, .spawn 0, .spawn 0, .work (.returned 3), .detach (some 0) 0, .os (some 0) 7,
      .finish (some 0), .work (.returned 3), .detach (some 0) 0, .os (some 0) 0,
      .work (.returned 3), .finish (some 0), .finish (some 0), .drop, .work (.returned 3),
      .work (.returned 3), .work (.returned 3), .work (.returned 3)]
    (fun s es => decide (s.freed = true ∧ s.spawner = .done 0 ∧ s.core.refs = 0 ∧
      .ret (some 0) .detach 7 none ∈ es ∧ .ret (some 0) .detach 0 none ∈ es ∧
      .resultReleased (.returned 3) ∈ es))
    (by decide +kernel)
  obtain ⟨hf, hsp, h0, h₁, h₂, h₃⟩ := of_decide_eq_true ht
  obtain ⟨-, -, htask, -, -, -, hresult, -, hnull, -⟩ := thread_released_once h
  refine ⟨es, s, h, hf, h₁, h₂, h₃, htask hf, ?_, hnull h0⟩
  rw [hresult hf, if_pos hsp]

end NativeSync.Thread
