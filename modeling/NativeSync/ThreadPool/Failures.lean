import NativeSync.ThreadPool.Faults

/-!
# The thread pool: submissions that raise

The wrappers of a submission look at the error of the native call first and at its result only when
there is none. So a submission raises in three cases: its result is an error by itself (the pool is
closed, or the worker would block itself), a primitive failed before the task was stored, or the
signal or the unlock failed after it (`Late`). In the last case the task is in the queue, and a
worker will call it. In the others it never leaves the hands of the submission, which releases it.
-/

namespace NativeSync.ThreadPool

open Foundations

variable {T : Type}

/-- The wrapper of a submission raises. -/
def submitRaises (block : Bool) (result error : ℤ) : Bool :=
  if block then !(executeResult result error).isOk else !(tryExecuteResult result error).isOk

/-- A pass of a submission fails late: it has got the mutex and finds the pool accepting, with a
free slot, and then the signal or the unlock fails. -/
def Late (s : State T) (a : Action T) : Prop :=
  (a.os.cond₁ ≠ 0 ∨ a.os.unlock ≠ 0) ∧
    ∃ t c h task block, Entered s a t (.submit c h task block) ∧ s.core.accepting = true ∧
      s.core.ring.count ≠ s.core.ring.capacity

theorem submitRaises_of_error {block : Bool} {result error : ℤ} (h : error ≠ 0) :
    submitRaises block result error = true := by
  cases block <;> simp [submitRaises, executeResult, tryExecuteResult, h, Except.isOk,
    Except.toBool]

theorem error_of_submitRaises {block : Bool} {error : ℤ}
    (h : submitRaises block 0 error = true) : error ≠ 0 := by
  rintro rfl
  cases block <;> cases h

variable [Fintype T] [DecidableEq T]

/-- A submission of task `i` that ends with the events `e` leaves no trace but its release: the
queue is as before, and however the run goes on, no worker calls the task, which is released
once. -/
structure NoTrace (es e : List (Event T)) (s s' : State T) (i : ℕ) : Prop where
  queue : s'.core.ring = s.core.ring
  rest : ∀ es' s'', Exec step AnyStatus s' es' s'' →
    tally Event.calls (es ++ e ++ es') i = 0 ∧ tally Event.releases (es ++ e ++ es') i = 1

variable {N : Size} {s s' : State T} {es e : List (Event T)} {a : Action T} {t t₀ : T} {i : ℕ}
  {block : Bool} {result error : ℤ}

/-! ## What changes the queue -/

omit [Fintype T] in
theorem Move.ring_eq (hm : Move s s' e) (he : ∀ x ∈ e, x.accepted = none ∧ x.dequeues = none) :
    s'.core.ring = s.core.ring := by
  cases hm with
  | submitted t c h i block f ht ha hf hs => cases (he _ (.head _)).1
  | fetch t i f ht hc hi hs => cases (he _ (.head _)).2
  | _ => rfl

omit [Fintype T] in
theorem Fault.ring_eq (hm : Fault a s s' e)
    (he : ∀ x ∈ e, x.accepted = none ∧ x.dequeues = none) : s'.core.ring = s.core.ring := by
  cases hm with
  | submitted t c h i block f hin ha hf hw => cases (he _ (.head _)).1
  | _ => rfl

/-! ## How a submission ends -/

omit [Fintype T] in
/-- A submission at a fault has stored its task and fails late, or it gives the task up. -/
theorem Fault.submit_ret (hm : Fault a s s' e) (he : .ret t (.submit i block) result error ∈ e) :
    (result = 0 ∧ (error ≠ 0 → Late s a)) ∨
      result ≠ 0 ∧ e = [.released i, .ret t (.submit i block) result error] := by
  cases hm with
  | failed u p x e ht hp =>
    cases hp with
    | aside c op r err hop =>
      rcases hop with rfl | rfl <;> simp at he
    | refused c h j block code err hcode =>
      simp only [List.mem_cons, reduceCtorEq, Event.ret.injEq, Op.submit.injEq, List.not_mem_nil,
        or_false, false_or] at he
      obtain ⟨rfl, ⟨rfl, rfl⟩, rfl, rfl⟩ := he
      exact .inr ⟨hcode, rfl⟩
    | _ => simp at he
  | hook u c k block err ht hk =>
    simp only [List.mem_cons, reduceCtorEq, Event.ret.injEq, Op.submit.injEq, List.not_mem_nil,
      or_false, false_or] at he
    obtain ⟨rfl, ⟨rfl, rfl⟩, rfl, rfl⟩ := he
    exact .inr ⟨by decide, rfl⟩
  | submitted u c h j block f hin ha hf hw =>
    simp only [List.mem_singleton, Event.ret.injEq] at he
    obtain ⟨-, -, rfl, rfl⟩ := he
    exact .inl ⟨rfl, fun hne => ⟨lateError_ne_zero.1 hne, u, c, h, j, block, hin, ha, hf⟩⟩
  | closed u p q e f ht hp hw => cases hp <;> simp at he

/-- How a submission ends at a step. -/
theorem submit_ret (h : Inv N t₀ s) (hs : step s a = some (s', e))
    (he : .ret t (.submit i block) result error ∈ e) :
    (result = 0 ∧ (error ≠ 0 → Late s a)) ∨
      result ≠ 0 ∧ e = [.released i, .ret t (.submit i block) result error] := by
  rcases step_cases (fun u => (h.pcs u).wait) hs with hm | hf
  · obtain ⟨rfl, rfl | ⟨⟨c, hcode⟩, rfl⟩⟩ := hm.submit_ret h he
    · exact .inl ⟨rfl, fun hne => absurd rfl hne⟩
    · exact .inr ⟨hcode.ne_zero, rfl⟩
  · exact hf.submit_ret he

/-- A pass of a submission that has got the mutex of an accepting pool with a free slot stores its
task, whatever its last primitives return. -/
theorem step_submitted {c : Caller} {h : ℕ} (hin : Entered s a t (.submit c h i block))
    (ha : s.core.accepting = true) (hf : s.core.ring.count ≠ s.core.ring.capacity)
    (hs : step s a = some (s', e)) :
    s'.core = s.core.enqueue i ∧ e = [.ret t (.submit i block) 0 (lateError a.os)] := by
  have hend : ∀ {os : Os} {pick : Option T},
      s.endSubmit t c h i block pick (submitLoop s.core i block os) = some (s', e) →
        s'.core = s.core.enqueue i ∧ e = [.ret t (.submit i block) 0 (lateError os)] := by
    intro os pick hs
    simp only [submitLoop_of_room ha hf, State.endSubmit, State.settle, ne_eq, not_true_eq_false,
      if_false, List.nil_append, Option.map_map, Option.map_eq_some_iff, Function.comp_apply,
      Prod.mk.injEq] at hs
    obtain ⟨f, -, rfl, rfl⟩ := hs
    exact ⟨rfl, rfl⟩
  rcases hin with ⟨⟨os, pick, rfl, hl⟩, ht⟩ | ⟨⟨os, pick, rfl, hk⟩, w, hw, ht⟩
  · have hown : ¬(block && s.core.accepting && c.own && s.core.full) = true := by
      simp [Core.full, hf]
    simp only [step, ht, submitTask, hl, ne_eq, not_true_eq_false, if_false, hown] at hs
    exact hend hs
  · cases w with
    | asleep => exact absurd rfl hw
    | _ =>
      simp only [step, ht, submitWoken, hk, ne_eq, not_true_eq_false, if_false] at hs
      exact hend hs

/-- A submission that fails late raises with its task in the queue. -/
theorem Late.raises (hl : Late s a) (hs : step s a = some (s', e)) :
    ∃ t i block error, .ret t (.submit i block) 0 error ∈ e ∧
      submitRaises block 0 error = true ∧ s'.core.ring ≠ s.core.ring := by
  obtain ⟨hos, t, c, h, i, block, hin, ha, hf⟩ := hl
  obtain ⟨hcore, rfl⟩ := step_submitted hin ha hf hs
  refine ⟨t, i, block, _, .head _, submitRaises_of_error (lateError_ne_zero.2 hos), fun hr => ?_⟩
  rw [hcore] at hr
  exact Nat.succ_ne_self _ (congrArg RingBuffer.count hr)

/-! ## Runs -/

/-- A submission that gives its task up leaves no trace. -/
theorem noTrace_of_rejected (h : Exec step AnyStatus (State.init N t₀) es s)
    (hs : step s a = some (s', e)) (hne : result ≠ 0)
    (he : e = [.released i, .ret t (.submit i block) result error]) : NoTrace es e s s' i := by
  have hrej : i ∈ e.filterMap Event.rejected := by
    rw [he]
    simp [hne]
  refine ⟨?_, fun es' s'' hrest => ?_⟩
  · have hsilent : ∀ x ∈ e, x.accepted = none ∧ x.dequeues = none := by
      rw [he]
      simp [hne]
    rcases step_cases (fun u => ((ok_of_any h).1.pcs u).wait) hs with hm | hf
    · exact hm.ring_eq hsilent
    · exact hf.ring_eq hsilent
  · have hb := (ok_of_any ((h.step hs trivial).trans hrest)).2
    have hmem : i ∈ (es ++ e ++ es').filterMap Event.rejected := by
      rw [List.filterMap_append, List.filterMap_append]
      exact List.mem_append_left _ (List.mem_append_right _ hrej)
    exact (hb.of_rejected hmem).2

/-- **When a submission that raises leaves no trace**, in every reachable state and whatever the
primitives return: the queue changes only where a task is accepted or dequeued, and a submission
that raises leaves it alone, is never called in any continuation of the run and is released once,
if and only if its last pass does not fail late. -/
theorem submit_failure_atomic_iff (h : Exec step AnyStatus (State.init N t₀) es s)
    (hs : step s a = some (s', e)) :
    ((∀ x ∈ e, x.accepted = none ∧ x.dequeues = none) → s'.core.ring = s.core.ring) ∧
    ((∀ t i block result error, .ret t (.submit i block) result error ∈ e →
      submitRaises block result error = true → NoTrace es e s s' i) ↔ ¬Late s a) := by
  have hI := (ok_of_any h).1
  refine ⟨fun he => ?_, fun hall hl => ?_, fun hl t i block result error he hr => ?_⟩
  · rcases step_cases (fun u => (hI.pcs u).wait) hs with hm | hf
    · exact hm.ring_eq he
    · exact hf.ring_eq he
  · obtain ⟨t, i, block, error, he, hr, hne⟩ := hl.raises hs
    exact hne (hall t i block 0 error he hr).queue
  · rcases submit_ret hI hs he with ⟨rfl, hlate⟩ | ⟨hne, he⟩
    · exact absurd (hlate (error_of_submitRaises hr)) hl
    · exact noTrace_of_rejected h hs hne he

/-- A pool with one worker and one slot. -/
def oneSlot : Size := ⟨1, 1, by decide, by decide, by decide, by decide⟩

/-- A blocking submission to a full queue whose wait fails raises and leaves no trace. -/
theorem submit_failure_atomic_iff_wait :
    ∃ (es : List (Event (Fin 2))) (s s' : State (Fin 2)) (e : List (Event (Fin 2))),
      Exec step AnyStatus (State.init oneSlot 0) es s ∧
      step s (.lock 0 { wait := 7 } none) = some (s', e) ∧
      .ret 0 (.submit 1 true) 2 7 ∈ e ∧
      executeResult 2 7 = .error (.threadPoolOperationFailed 7) ∧ NoTrace es e s s' 1 := by
  obtain ⟨es, s, s', e, h, hs, ht⟩ := Exec.exists_step_of_run step AnyStatus
    (State.init (T := Fin 2) oneSlot 0)
    [.advance 0 0, .lock 0 {} none, .advance 0 0, .advance 0 0, .callSubmit 0 0 false 0,
      .lock 0 {} none, .callSubmit 0 0 true 0] (.lock 0 { wait := 7 } none)
    (fun _ _ e => decide (.ret 0 (.submit 1 true) 2 7 ∈ e)) (by decide +kernel)
  have hret := of_decide_eq_true ht
  have hnot : ¬Late s (.lock 0 { wait := 7 } none) := by
    rintro ⟨hos, -⟩
    exact absurd hos (by decide)
  exact ⟨es, s, s', e, h, hs, hret, rfl,
    (submit_failure_atomic_iff h hs).2.2 hnot 0 1 true 2 7 hret rfl⟩

/-- A non-blocking submission whose signal fails raises, and then the worker calls its task. -/
theorem submit_failure_not_atomic :
    ∃ (es : List (Event (Fin 2))) (s : State (Fin 2)),
      Exec step AnyStatus (State.init oneSlot 0) es s ∧
      es = [.ret 0 .new 0 0, .ret 0 (.submit 0 false) 0 9, .dequeued 0, .called 0] ∧
      tryExecuteResult 0 9 = .error (.threadPoolOperationFailed 9) := by
  obtain ⟨es, s, h, ht⟩ := Exec.exists_of_run step AnyStatus (State.init (T := Fin 2) oneSlot 0)
    [.advance 0 0, .lock 0 {} none, .advance 0 0, .advance 0 0, .callSubmit 0 0 false 0,
      .lock 0 { cond₁ := 9 } none, .start 1, .lock 1 {} none, .advance 1 0]
    (fun _ es => decide
      (es = [.ret 0 .new 0 0, .ret 0 (.submit 0 false) 0 9, .dequeued 0, .called 0]))
    (by decide +kernel)
  exact ⟨es, s, h, of_decide_eq_true ht, rfl⟩

end NativeSync.ThreadPool
