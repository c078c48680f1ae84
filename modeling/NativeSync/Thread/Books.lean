import NativeSync.Thread.Invariant

/-!
# Threads: the books

The task, its outcome and the claim on the thread of the operating system each are in one place at a
time. `Books` follows them along a run, by counting:

* the task is in the core, or the worker or a caller has taken it, or it was released;
* the outcome is in the core, or the joiner has taken it, or it was returned or released;
* a success of the operating system belongs to a caller in its last section or to a closed handle,
  and so does a close that was not yet returned.
-/

namespace NativeSync.Thread

open Foundations

variable {α T : Type}

/-! ## Kinds of events -/

namespace Event

def isTaskReleased : Event α T → Bool
  | taskReleased => true
  | _ => false

def isResultReleased : Event α T → Bool
  | resultReleased _ => true
  | _ => false

def isFreed : Event α T → Bool
  | freed => true
  | _ => false

/-- A join or a detach returned with success. -/
def isClose : Event α T → Bool
  | ret _ _ status _ => decide (status = 0)
  | _ => false

/-- A join returned with success. -/
def isJoin : Event α T → Bool
  | ret _ .join status _ => decide (status = 0)
  | _ => false

/-- The operating system was asked to join or to detach. -/
def isOs : Event α T → Bool
  | os .. => true
  | _ => false

/-- The operating system has joined or detached. -/
def isOsSuccess : Event α T → Bool
  | os _ status => decide (status = 0)
  | _ => false

/-- The outcome that a completion stored. -/
def completion : Event α T → Option (Outcome α)
  | stored o => some o
  | _ => none

/-- What became of the outcome: it was returned, or it was released. -/
def given : Event α T → Option (Option (Outcome α))
  | ret _ .join status r => if status = 0 then some r else none
  | resultReleased o => some (some o)
  | _ => none

end Event

namespace Point

/-- The operating system has done what the caller asked for. -/
def isSuccess : Point α → Bool
  | success _ => true
  | _ => false

/-- The status with which the operating system has failed. -/
def status : Point α → Option ℤ
  | failure _ status => some status
  | _ => none

/-- The caller has closed the handle and has not yet returned. -/
def isEnding : Point α → Bool
  | ending .. => true
  | _ => false

/-- The caller has taken the outcome and has not yet returned. -/
def holdsResult : Point α → Bool
  | ending .join .. => true
  | _ => false

theorem status_pos_of_none {p : Point α} (h : p.status = none) :
    ∀ status ∈ p.status, 0 < status := by
  intro status hx
  rw [h] at hx
  cases hx

theorem status_pos_of_pos {op : Op} {status : ℤ} (h : 0 < status) :
    ∀ x ∈ (failure op status : Point α).status, 0 < x := by
  intro x hx
  cases hx
  exact h

end Point

/-- The handle was joined or detached. -/
def ThreadState.isClosed : ThreadState → Bool
  | joined => true
  | detached => true
  | _ => false

/-! ## The laws -/

variable [Fintype T]

/-- The places where the task is, other than released. -/
def State.tasks (s : State α T) : ℕ :=
  s.core.task.toNat + s.worker.holdsTask.toNat + num Point.holdsTask s.callers

/-- The places where the outcome is, other than returned or released. -/
def State.results (s : State α T) : ℕ :=
  (s.core.result.isSome && !s.freed).toNat + num Point.holdsResult s.callers

/-- The books of a run. -/
structure Books (es : List (Event α T)) (s : State α T) : Prop where
  failure : ∀ c, ∀ status ∈ (s.callers c).status, 0 < status
  task : es.countP Event.isTaskReleased + s.tasks = (decide (s.spawner ≠ .start)).toNat
  result : es.countP Event.isResultReleased + es.countP Event.isJoin + s.results =
    s.worker.outcome.isSome.toNat
  close : es.countP Event.isClose + num Point.isEnding s.callers = s.core.state.isClosed.toNat
  os : es.countP Event.isOsSuccess = num Point.isSuccess s.callers + s.core.state.isClosed.toNat
  completion : es.filterMap Event.completion = s.worker.outcome.toList
  freed : es.countP Event.isFreed = s.freed.toNat

variable {s s' : State α T} {es e : List (Event α T)}

/-! ## What giving up the core gives up -/

omit [Fintype T] in
theorem countP_freeEvents (core : Core α) :
    (freeEvents core : List (Event α T)).countP Event.isTaskReleased =
        (decide (core.refs = 0) && core.task).toNat ∧
      (freeEvents core : List (Event α T)).countP Event.isResultReleased =
        (decide (core.refs = 0) && core.result.isSome).toNat ∧
      (freeEvents core : List (Event α T)).countP Event.isFreed =
        (decide (core.refs = 0)).toNat ∧
      (freeEvents core : List (Event α T)).countP Event.isClose = 0 ∧
      (freeEvents core : List (Event α T)).countP Event.isJoin = 0 ∧
      (freeEvents core : List (Event α T)).countP Event.isOsSuccess = 0 ∧
      (freeEvents core : List (Event α T)).filterMap Event.completion = [] := by
  unfold freeEvents
  by_cases hr : core.refs = 0
  · cases ht : core.task <;> cases ho : core.result <;>
      simp [hr, List.countP_cons, Event.isTaskReleased, Event.isResultReleased, Event.isFreed,
        Event.isClose,
        Event.isJoin, Event.isOsSuccess, Event.completion]
  · simp [hr]

omit [Fintype T] in
theorem mem_freeEvents {core : Core α} {x : Event α T} (hx : x ∈ freeEvents core) :
    x = .taskReleased ∧ core.refs = 0 ∧ core.task = true ∨
      (∃ o, x = .resultReleased o ∧ core.result = some o) ∨ x = .freed := by
  unfold freeEvents at hx
  split_ifs at hx with hr ht
  · rcases List.mem_append.1 hx with hx | hx
    · rcases List.mem_append.1 hx with hx | hx
      · exact .inl ⟨List.mem_singleton.1 hx, hr, ht⟩
      · obtain ⟨o, ho, rfl⟩ := by simpa using hx
        exact .inr (.inl ⟨o, rfl, ho⟩)
    · exact .inr (.inr (List.mem_singleton.1 hx))
  · rcases List.mem_append.1 hx with hx | hx
    · obtain ⟨o, ho, rfl⟩ := by simpa using hx
      exact .inr (.inl ⟨o, rfl, ho⟩)
    · exact .inr (.inr (List.mem_singleton.1 hx))
  · cases hx

omit [Fintype T] in
theorem mem_taskEvents {task : Bool} {x : Event α T} (hx : x ∈ taskEvents task) :
    x = .taskReleased ∧ task = true := by
  cases task
  · cases hx
  · exact ⟨List.mem_singleton.1 hx, rfl⟩

omit [Fintype T] in
/-- A call that fails closes nothing. -/
theorem countP_ret {c : Option T} {op : Op} {status : ℤ} {r : Option (Outcome α)}
    (hst : status ≠ 0) : [Event.ret c op status r].countP Event.isJoin = 0 ∧
      [Event.ret c op status r].countP Event.isClose = 0 := by
  cases op <;> simp [Event.isJoin, Event.isClose, hst]

omit [Fintype T] in
theorem countP_os {op : Op} {status : ℤ} (hst : status ≠ 0) :
    [(Event.os op status : Event α T)].countP Event.isOsSuccess = 0 := by
  simp [Event.isOsSuccess, hst]

/-- The last section of the worker passes the task on, or leaves it. -/
theorem mainEnd_parts (core : Core α) :
    (mainEnd core).1.task.toNat + (mainEnd core).2.toNat = core.task.toNat ∧
      (mainEnd core).1.result = core.result ∧ (mainEnd core).1.state = core.state := by
  unfold mainEnd
  split_ifs <;> simp

/-- The last section of a detach passes the task on, or leaves it. -/
theorem detachEnd_parts (core : Core α) :
    (detachEnd core).1.task.toNat + (detachEnd core).2.toNat = core.task.toNat ∧
      (detachEnd core).1.result = core.result ∧ (detachEnd core).1.state = .detached := by
  unfold detachEnd
  split_ifs <;> simp

namespace Inv

/-- The task is gone when the handle is closed and the worker, if there was one, has finished. -/
theorem task_eq_false (h : Inv s) (ht : s.core.state.terminal = true)
    (hf : s.spawner.created = true → s.core.finished = true) : s.core.task = false := by
  have hst := h.state
  rw [h.task, taskThere]
  cases hsp : s.spawner with
  | start => rfl
  | create =>
    rw [hsp] at hst
    rw [hst.1] at ht
    cases ht
  | publish =>
    rw [hsp] at hst
    rw [hst.1] at ht
    cases ht
  | fail status => rfl
  | release status => rfl
  | done status =>
    rw [hsp] at hst
    by_cases h0 : status = 0
    · rw [hf (by rw [hsp, h0]; rfl)]
      have hne : s.core.state ≠ .failed := (by simpa [StateOk, h0] using hst : _ ∧ _ ∧ _).2.2
      cases hs : s.core.state <;> simp_all [ThreadState.terminal]
    · simp [SpawnPoint.created, h0]

/-- A handle that is claimed is not closed. -/
theorem not_closed (h : Inv s) {c : Option T} (op : Op) (hc : (s.callers c).active op = true) :
    s.core.state.isClosed = false := by
  rw [h.state_of_active op hc]
  cases op <;> rfl

end Inv

/-! ## The step rules -/

namespace Books

/-- **The step rule of everybody but the callers.** -/
theorem other {core : Core α} {sp : SpawnPoint} {w : WorkerPoint α} {handle freed : Bool}
    (hb : Books es s)
    (htask : core.task.toNat + w.holdsTask.toNat + (decide (s.spawner ≠ .start)).toNat +
        e.countP Event.isTaskReleased =
      s.core.task.toNat + s.worker.holdsTask.toNat + (decide (sp ≠ .start)).toNat)
    (hresult : (core.result.isSome && !freed).toNat + s.worker.outcome.isSome.toNat +
        e.countP Event.isResultReleased =
      (s.core.result.isSome && !s.freed).toNat + w.outcome.isSome.toNat)
    (hjoin : e.countP Event.isJoin = 0) (hclose : e.countP Event.isClose = 0)
    (hos : e.countP Event.isOsSuccess = 0)
    (hstate : core.state.isClosed = s.core.state.isClosed)
    (hcompletion : s.worker.outcome.toList ++ e.filterMap Event.completion = w.outcome.toList)
    (hfreed : s.freed.toNat + e.countP Event.isFreed = freed.toNat) :
    Books (es ++ e) { s with core, spawner := sp, worker := w, handle, freed } where
  failure := hb.failure
  task := by
    have ht := hb.task
    simp only [State.tasks, List.countP_append] at ht ⊢
    omega
  result := by
    have hr := hb.result
    simp only [State.results, List.countP_append] at hr ⊢
    omega
  close := by
    rw [List.countP_append, hclose, hstate]
    exact hb.close
  os := by
    rw [List.countP_append, hos, hstate]
    exact hb.os
  completion := by rw [List.filterMap_append, hb.completion, hcompletion]
  freed := by
    rw [List.countP_append, hb.freed]
    exact hfreed

/-- A reference is given up: the last one frees the core, and what is still in it. -/
theorem free {sp : SpawnPoint} {w : WorkerPoint α} {handle : Bool} {tail : List (Event α T)}
    (hb : Books es s) (hf : s.freed = false)
    (htask : s.core.release.refs = 0 → s.core.task = false) (hsp : s.spawner ≠ .start)
    (hsp' : sp ≠ .start) (hw : w.holdsTask = s.worker.holdsTask)
    (hout : w.outcome = s.worker.outcome)
    (htail : tail = [] ∨ ∃ status, tail = [.spawned status]) :
    Books (es ++ (freeEvents s.core.release ++ tail)) { s with
      core := s.core.release, spawner := sp, worker := w, handle
      freed := s.freed || decide (s.core.release.refs = 0) } := by
  obtain ⟨h₁, h₂, h₃, h₄, h₅, h₆, h₇⟩ := countP_freeEvents (T := T) s.core.release
  have ht : tail.countP Event.isTaskReleased = 0 ∧ tail.countP Event.isResultReleased = 0 ∧
      tail.countP Event.isFreed = 0 ∧ tail.countP Event.isClose = 0 ∧
      tail.countP Event.isJoin = 0 ∧ tail.countP Event.isOsSuccess = 0 ∧
      tail.filterMap Event.completion = [] := by
    rcases htail with rfl | ⟨status, rfl⟩ <;> exact ⟨rfl, rfl, rfl, rfl, rfl, rfl, rfl⟩
  obtain ⟨t₁, t₂, t₃, t₄, t₅, t₆, t₇⟩ := ht
  refine hb.other ?_ ?_ ?_ ?_ ?_ rfl ?_ ?_
  · rw [List.countP_append, h₁, t₁, hw, decide_eq_true hsp, decide_eq_true hsp']
    by_cases h0 : s.core.release.refs = 0
    · simp [h0, htask h0]
    · simp [h0]
  · rw [List.countP_append, h₂, t₂, hout, hf]
    by_cases h0 : s.core.release.refs = 0 <;> simp [h0, Nat.add_comm]
  · rw [List.countP_append, h₅, t₅]
  · rw [List.countP_append, h₄, t₄]
  · rw [List.countP_append, h₆, t₆]
  · rw [List.filterMap_append, h₇, t₇, hout]
    simp
  · rw [List.countP_append, h₃, t₃, hf]
    simp

variable [DecidableEq T] {c : Option T} {p q : Point α} {core : Core α}

/-- **The step rule of the callers**: caller `c` moves from `q` to `p`. -/
theorem caller (hb : Books es s) (hc : s.callers c = q)
    (hfailure : ∀ status ∈ p.status, 0 < status)
    (htask : core.task.toNat + p.holdsTask.toNat + e.countP Event.isTaskReleased =
      s.core.task.toNat + q.holdsTask.toNat)
    (hresult : (core.result.isSome && !s.freed).toNat + p.holdsResult.toNat +
        e.countP Event.isJoin =
      (s.core.result.isSome && !s.freed).toNat + q.holdsResult.toNat)
    (hclose : p.isEnding.toNat + s.core.state.isClosed.toNat + e.countP Event.isClose =
      core.state.isClosed.toNat + q.isEnding.toNat)
    (hos : q.isSuccess.toNat + s.core.state.isClosed.toNat + e.countP Event.isOsSuccess =
      p.isSuccess.toNat + core.state.isClosed.toNat)
    (hrel : e.countP Event.isResultReleased = 0) (hcompletion : e.filterMap Event.completion = [])
    (hfreed : e.countP Event.isFreed = 0) :
    Books (es ++ e) { s with core, callers := Function.update s.callers c p } where
  failure := forall_update (Q := fun _ (x : Point α) => ∀ status ∈ x.status, 0 < status) hfailure
    fun u _ => hb.failure u
  task := by
    have ht := hb.task
    have hn := num_update Point.holdsTask s.callers c p
    rw [hc] at hn
    simp only [State.tasks, List.countP_append] at ht ⊢
    omega
  result := by
    have hr := hb.result
    have hn := num_update Point.holdsResult s.callers c p
    rw [hc] at hn
    simp only [State.results, List.countP_append] at hr ⊢
    omega
  close := by
    have hl := hb.close
    have hn := num_update Point.isEnding s.callers c p
    rw [hc] at hn
    simp only [List.countP_append]
    omega
  os := by
    have ho := hb.os
    have hn := num_update Point.isSuccess s.callers c p
    rw [hc] at hn
    simp only [List.countP_append]
    omega
  completion := by rw [List.filterMap_append, hb.completion, hcompletion, List.append_nil]
  freed := by rw [List.countP_append, hb.freed, hfreed, Nat.add_zero]

end Books

variable [DecidableEq T]

/-- **A move keeps the books.** -/
theorem Move.books (hm : Move s s' e) (h : Inv s) (hb : Books es s) : Books (es ++ e) s' := by
  cases hm with
  | start hsp =>
    have ht := h.task
    have hw : s.worker = .absent := WorkerPoint.eq_absent (by rw [h.absent, hsp]; rfl)
    rw [hsp] at ht
    refine hb.other ?_ rfl rfl rfl rfl rfl (List.append_nil _) rfl
    rw [hsp, ht, hw]
    rfl
  | created hsp =>
    have hw : s.worker = .absent := WorkerPoint.eq_absent (by rw [h.absent, hsp]; rfl)
    refine hb.other ?_ ?_ rfl rfl rfl rfl ?_ rfl
    · rw [hsp, hw]
      rfl
    · rw [hw]
      rfl
    · rw [hw]
      rfl
  | createFailed status hsp hst =>
    have ht := h.task
    have hstate := h.state
    rw [hsp] at hstate
    have hw : s.worker = .absent := WorkerPoint.eq_absent (by rw [h.absent, hsp]; rfl)
    rw [hsp, hstate.1] at ht
    refine hb.other ?_ rfl rfl rfl rfl rfl (List.append_nil _) rfl
    rw [hsp, ht, hw]
    rfl
  | published hsp =>
    have hstate := h.state
    rw [hsp] at hstate
    refine hb.other ?_ rfl rfl rfl rfl ?_ (List.append_nil _) rfl
    · rw [hsp]
      rfl
    · rw [hstate.1]
      rfl
  | failed status hsp =>
    have hstate := h.state
    rw [hsp] at hstate
    refine hb.other ?_ rfl rfl rfl rfl ?_ (List.append_nil _) rfl
    · rw [hsp]
      rfl
    · rw [hstate.1]
      rfl
  | raised status hsp =>
    have hstate := h.state
    rw [hsp] at hstate
    have hh := h.handle_of_not_done (by rw [hsp]; rfl)
    refine hb.free (h.not_freed hh) (fun _ => ?_) (by rw [hsp]; exact nofun) nofun rfl rfl
      (.inr ⟨status, rfl⟩)
    exact h.task_eq_false (by rw [hstate.1]; rfl) (by rw [hsp]; exact nofun)
  | called hw =>
    refine hb.other ?_ ?_ rfl rfl rfl rfl ?_ rfl <;> rw [hw] <;> rfl
  | ended o hw hc =>
    refine hb.other ?_ ?_ rfl rfl rfl rfl ?_ rfl <;> rw [hw] <;> rfl
  | completed o hw =>
    have hnone : s.core.result = none := by
      rw [h.result_of_worker (by rw [hw]; rfl) rfl, hw]
      rfl
    have hf : s.freed = false := by
      rw [← Bool.not_eq_true, h.freed, h.workerRef_of_worker (by rw [hw]; rfl), hw]
      exact fun hf => by cases hf.2
    rw [complete, hnone]
    refine hb.other ?_ ?_ rfl rfl rfl rfl ?_ rfl
    · rw [hw]
      rfl
    · rw [hw, hnone, hf]
      rfl
    · rw [hw]
      rfl
  | returned o hw =>
    refine hb.other ?_ ?_ rfl rfl rfl rfl ?_ rfl <;> rw [hw] <;> rfl
  | finished o hw =>
    obtain ⟨htask, hcore⟩ := mainEnd_parts s.core
    refine hb.other ?_ ?_ rfl rfl rfl (by rw [hcore.2]) (by rw [hw]; rfl) rfl
    · rw [hw]
      exact congrArg (· + (decide (s.spawner ≠ .start)).toNat) htask
    · rw [hw, hcore.1]
      rfl
  | left task o hw =>
    cases task <;> refine hb.other ?_ ?_ rfl rfl rfl rfl ?_ rfl <;> rw [hw]
    all_goals first | rfl | exact Nat.add_right_comm _ _ _
  | exited o hw =>
    have ha : s.worker.isAbsent = false := by rw [hw]; rfl
    have href := h.workerRef_of_worker ha
    have hcr := h.created_of_worker ha
    have hfin := h.finished
    rw [hw] at href hfin
    have hf : s.freed = false := by
      rw [← Bool.not_eq_true, h.freed, href]
      exact fun hf => by cases hf.2
    rw [← List.append_nil (freeEvents _)]
    refine hb.free hf (fun h0 => ?_) ?_ ?_ (by rw [hw]; rfl) (by rw [hw]; rfl) (.inl rfl)
    · have hr := (h.refs_release (n := s.handle.toNat) (by rw [href]; rfl)).1
      refine h.task_eq_false (h.dropped ?_).1 fun _ => hfin
      cases hh : s.handle
      · rfl
      · rw [h0, hh] at hr
        cases hr
    · intro hsp
      rw [hsp] at hcr
      cases hcr
    · intro hsp
      rw [hsp] at hcr
      cases hcr
  | drop hsp hh hstate hc =>
    rw [← List.append_nil (freeEvents _)]
    refine hb.free (h.not_freed hh) (fun h0 => ?_) ?_ ?_ rfl rfl (.inl rfl)
    · have hr := (h.refs_release (n := s.workerRef.toNat) (by rw [hh, Nat.add_comm]; rfl)).1
      refine h.task_eq_false hstate fun hcr => ?_
      have href : s.worker.holdsRef = false := by
        cases hw : s.worker.holdsRef
        · rfl
        · rw [h0, State.workerRef, hw, Bool.or_true] at hr
          cases hr
      have ha := h.absent
      rw [hcr] at ha
      obtain ⟨o, hw⟩ := WorkerPoint.eq_exited ha href
      rw [h.finished, hw]
      rfl
    · intro hs
      rw [hs] at hsp
      cases hsp
    · intro hs
      rw [hs] at hsp
      cases hsp
  | refused c op status hc hst hpos =>
    exact hb.other rfl rfl (countP_ret hst).1 (countP_ret hst).2 rfl rfl (List.append_nil _) rfl
  | asked c result status => exact hb.other rfl rfl rfl rfl rfl rfl (List.append_nil _) rfl
  | claimed c op p hc hop hstate hp =>
    have hi := Point.isIdle_iff.1 hc.2.2.1
    have hcl : s.core.state.isClosed = false := by
      rcases hstate with hst | hst <;> rw [hst] <;> rfl
    have hcl' : op.busy.isClosed = false := by cases op <;> rfl
    rcases hp with rfl | ⟨status, hst, rfl⟩
    · refine hb.caller hi (Point.status_pos_of_none rfl) rfl rfl ?_ ?_ rfl rfl rfl
      · rw [hcl, hcl']
        rfl
      · rw [hcl, hcl']
        rfl
    · refine hb.caller hi (Point.status_pos_of_pos hst) rfl rfl ?_ ?_ rfl rfl rfl
      · rw [hcl, hcl']
        rfl
      · rw [hcl, hcl']
        rfl
  | osFailed c op status hc hst =>
    refine hb.caller hc (Point.status_pos_of_pos hst) rfl rfl ?_ ?_ rfl rfl rfl
    · rw [h.not_closed op (c := c) (by rw [hc]; exact decide_eq_true rfl)]
      rfl
    · rw [countP_os hst.ne']
      rfl
  | osDone c op hc hw =>
    refine hb.caller hc (Point.status_pos_of_none rfl) rfl rfl ?_ ?_ rfl rfl rfl <;>
      rw [h.not_closed op (c := c) (by rw [hc]; exact decide_eq_true rfl)] <;> rfl
  | joined c hc =>
    have hr := h.result
    have hw := h.success c hc
    have hcl := h.not_closed (c := c) .join (by rw [hc]; rfl)
    have hne : s.callers c ≠ .idle := by
      intro hi
      rw [hc] at hi
      cases hi
    have hf := h.not_freed (h.busy c hne).2
    obtain ⟨o, hw⟩ := WorkerPoint.isExited_iff.1 hw
    rw [if_neg (by intro hj; rw [hj] at hcl; cases hcl), hw] at hr
    refine hb.caller hc (Point.status_pos_of_none rfl) ?_ ?_ ?_ ?_ rfl rfl rfl
    · exact Nat.zero_add _
    · rw [hr, hf]
      rfl
    · rw [hcl]
      rfl
    · rw [hcl]
      rfl
  | detached c hc =>
    have hcl := h.not_closed (c := c) .detach (by rw [hc]; rfl)
    obtain ⟨htask, hcore⟩ := detachEnd_parts s.core
    refine hb.caller hc (Point.status_pos_of_none rfl) htask ?_ ?_ ?_ rfl rfl rfl
    · rw [hcore.1]
      rfl
    · rw [hcore.2, hcl]
      rfl
    · rw [hcore.2, hcl]
      rfl
  | rolledBack c op status hc =>
    have hst := hb.failure c status (by rw [hc]; rfl)
    have hcl := h.not_closed (c := c) op (by rw [hc]; exact decide_eq_true rfl)
    refine hb.caller hc (Point.status_pos_of_none rfl) rfl ?_ ?_ ?_ rfl rfl rfl
    · rw [(countP_ret hst.ne').1]
      rfl
    · rw [hcl, (countP_ret hst.ne').2]
      rfl
    · rw [hcl]
      rfl
  | closed c op task result hc =>
    cases op <;> cases task <;>
      refine hb.caller hc (Point.status_pos_of_none rfl) ?_ ?_ ?_ ?_ rfl rfl rfl
    all_goals first | rfl | exact congrArg (· + 1) (Nat.zero_add _)

omit [DecidableEq T] in
theorem books_init : Books [] (State.init : State α T) := by
  have h0 : ∀ q : Point α → Bool, q .idle = false → num q (State.init : State α T).callers = 0 :=
    fun q hq => num_eq_zero.2 fun _ => hq
  refine ⟨fun _ => Point.status_pos_of_none rfl, ?_, ?_, ?_, ?_, rfl, rfl⟩
  · rw [State.tasks, h0 _ rfl]
    rfl
  · rw [State.results, h0 _ rfl]
    rfl
  · rw [h0 _ rfl]
    rfl
  · rw [h0 _ rfl]
    rfl

/-- **The books are right along every run.** -/
theorem books_of_exec (h : Exec step Assumed State.init es s) : Books es s :=
  (h.invariant (I := fun es s => Inv s ∧ Books es s) ⟨inv_init, books_init⟩
    fun ⟨hI, hb⟩ hs hG => ⟨(step_move hs hG).inv hI, (step_move hs hG).books hI hb⟩).2

/-! ## What is given up is what was stored -/

/-- An outcome that a move returns or releases is the one that the worker has stored. -/
theorem Move.given (hm : Move s s' e) (h : Inv s) (hb : Books es s) {x : Event α T} (hx : x ∈ e)
    {r : Option (Outcome α)} (hr : x.given = some r) :
    ∃ o, r = some o ∧ s'.worker.outcome = some o := by
  -- the events of a core that is given up
  have hfree : x ∈ freeEvents s.core.release → ∃ o, r = some o ∧ s.worker.outcome = some o := by
    intro hx
    rcases mem_freeEvents hx with ⟨rfl, -⟩ | ⟨o, rfl, ho⟩ | rfl
    · cases hr
    · obtain rfl : some o = r := by simpa [Event.given] using hr
      have hres := h.result
      rw [Core.release_result] at ho
      rw [ho] at hres
      split_ifs at hres
      exact ⟨o, rfl, hres.symm⟩
    · cases hr
  cases hm with
  | raised status hsp =>
    rcases List.mem_append.1 hx with hx | hx
    · exact hfree hx
    · cases List.mem_singleton.1 hx
      cases hr
  | completed o hw =>
    have hnone : s.core.result = none := by
      rw [h.result_of_worker (by rw [hw]; rfl) rfl, hw]
      rfl
    rw [complete, hnone] at hx
    cases List.mem_singleton.1 hx
    cases hr
  | left task o hw =>
    obtain ⟨rfl, -⟩ := mem_taskEvents hx
    cases hr
  | exited o hw =>
    obtain ⟨o', rfl, ho⟩ := hfree hx
    rw [hw] at ho
    exact ⟨o', rfl, ho⟩
  | refused c op status hc hst hpos =>
    cases List.mem_singleton.1 hx
    cases op <;> simp [Event.given, hst] at hr
  | rolledBack c op status hc =>
    cases List.mem_singleton.1 hx
    cases op <;> simp [Event.given, (hb.failure c status (by rw [hc]; rfl)).ne'] at hr
  | closed c op task result hc =>
    rcases List.mem_append.1 hx with hx | hx
    · obtain ⟨rfl, -⟩ := mem_taskEvents hx
      cases hr
    · cases List.mem_singleton.1 hx
      cases op with
      | join =>
        obtain rfl : result = r := by simpa [Event.given] using hr
        obtain ⟨hst, hres⟩ := h.ending c _ _ _ hc
        obtain ⟨o, hw⟩ := WorkerPoint.isExited_iff.1 (h.joined hst)
        rw [if_pos rfl, hw] at hres
        exact ⟨o, hres, by rw [State.move, hw]; rfl⟩
      | detach => cases hr
  | drop hsp hh hstate hc => exact hfree hx
  | _ =>
    -- no event, or one that does not concern the outcome
    first
    | exact absurd hx List.not_mem_nil
    | cases List.mem_singleton.1 hx
      cases hr

/-- **An outcome that was returned or released is the one that was stored**, and it was stored
once. -/
theorem given_of_exec (h : Exec step Assumed State.init es s) {x : Event α T} (hx : x ∈ es)
    {r : Option (Outcome α)} (hr : x.given = some r) :
    ∃ o, r = some o ∧ es.filterMap Event.completion = [o] := by
  refine (h.invariant (I := fun es s => (Inv s ∧ Books es s) ∧ ∀ x ∈ es, ∀ r, x.given = some r →
    ∃ o, r = some o ∧ es.filterMap Event.completion = [o]) ⟨⟨inv_init, books_init⟩, nofun⟩ ?_).2
    x hx r hr
  intro es s a s' e ⟨⟨hI, hb⟩, ih⟩ hs hG
  have hm := step_move hs hG
  have hb' := hm.books hI hb
  refine ⟨⟨hm.inv hI, hb'⟩, fun x hx r hr => ?_⟩
  rcases List.mem_append.1 hx with hx | hx
  · obtain ⟨o, rfl, ho⟩ := ih x hx r hr
    -- one completion before the step, and never more than one
    have hc := hb'.completion
    rw [List.filterMap_append, ho] at hc
    cases hw : s'.worker.outcome with
    | none =>
      rw [hw] at hc
      cases hc
    | some o' =>
      rw [hw] at hc
      obtain ⟨rfl, hnil⟩ := by simpa using hc
      refine ⟨o, rfl, ?_⟩
      rw [List.filterMap_append, ho, List.filterMap_eq_nil_iff.2 hnil]
      rfl
  · obtain ⟨o, rfl, ho⟩ := hm.given hI hb hx hr
    refine ⟨o, rfl, ?_⟩
    rw [hb'.completion, ho]
    rfl

end NativeSync.Thread
