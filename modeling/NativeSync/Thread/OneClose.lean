import NativeSync.Thread.Books

/-!
# Threads: a handle is closed once, and the joiner gets the outcome

`join` and `detach` leave the mutex for the call of the operating system. A caller that has claimed
the handle is alone there: the state says so to everybody else. So at most one call closes the
handle, and the operating system is not asked again after it has joined or detached the thread.

A call that fails takes nothing: as long as the handle is not closed the task and the outcome are in
the core. After a failure of the operating system the handle is joinable, and from every such state
a join can run to its end (`exists_join`): the worker exits, whatever its task does, and the joiner
is given what it stored.
-/

namespace NativeSync.Thread

open Foundations

variable {α T : Type} [Fintype T] [DecidableEq T] {s s' : State α T} {es e : List (Event α T)}

/-! ## The calls of the operating system -/

omit [Fintype T] in
/-- Only a caller that has claimed the handle asks the operating system. -/
theorem Move.os (hm : Move s s' e) :
    (∀ x ∈ e, x.isOs = false) ∨
      ∃ c op status, s.callers c = .claimed op ∧ e = [.os op status] := by
  have hfree : ∀ x ∈ (freeEvents s.core.release : List (Event α T)), x.isOs = false := by
    intro x hx
    rcases mem_freeEvents hx with ⟨rfl, -⟩ | ⟨o, rfl, -⟩ | rfl <;> rfl
  cases hm with
  | raised status hsp =>
    refine .inl fun x hx => ?_
    rcases List.mem_append.1 hx with hx | hx
    · exact hfree x hx
    · cases List.mem_singleton.1 hx
      rfl
  | completed o hw =>
    refine .inl fun x hx => ?_
    rcases List.mem_cons.1 hx with rfl | hx
    · rfl
    · split_ifs at hx
      · cases List.mem_singleton.1 hx
        rfl
      · cases hx
  | left task o hw =>
    refine .inl fun x hx => ?_
    obtain ⟨rfl, -⟩ := mem_taskEvents hx
    rfl
  | exited o hw => exact .inl hfree
  | osFailed c op status hc hst => exact .inr ⟨c, op, status, hc, rfl⟩
  | osDone c op hc hw => exact .inr ⟨c, op, 0, hc, rfl⟩
  | closed c op task result hc =>
    refine .inl fun x hx => ?_
    rcases List.mem_append.1 hx with hx | hx
    · obtain ⟨rfl, -⟩ := mem_taskEvents hx
      rfl
    · cases List.mem_singleton.1 hx
      rfl
  | drop hsp hh hstate hc => exact .inl hfree
  | _ =>
    -- no event, or one of another kind
    refine .inl fun x hx => ?_
    first
    | exact absurd hx List.not_mem_nil
    | cases List.mem_singleton.1 hx
      rfl

omit [DecidableEq T] in
/-- When a caller is about to ask the operating system, it was not successful before. -/
theorem Inv.no_success (h : Inv s) (hb : Books es s) {c : Option T} {op : Op}
    (hc : s.callers c = .claimed op) : ∀ x ∈ es, x.isOsSuccess = false := by
  have hact : (s.callers c).active op = true := by
    rw [hc]
    exact decide_eq_true rfl
  have hle : num (Point.active op) s.callers ≤ 1 := by
    rw [h.active]
    exact Bool.toNat_le _
  have hnone : num Point.isSuccess s.callers = 0 := by
    refine num_eq_zero.2 fun u => ?_
    cases hu : s.callers u with
    | success op' =>
      -- this caller has claimed the handle too, so it is the same one
      have hact' : (s.callers u).active op' = true := by
        rw [hu]
        exact decide_eq_true rfl
      obtain rfl : op = op' :=
        Op.busy_inj.1 ((h.state_of_active op hact).symm.trans (h.state_of_active op' hact'))
      obtain rfl := num_unique hle hact hact'
      rw [hc] at hu
      cases hu
    | _ => rfl
  have hos := hb.os
  rw [hnone, h.not_closed op hact] at hos
  intro x hx
  exact Bool.eq_false_of_not_eq_true (List.countP_eq_zero.1 hos x hx)

/-- After a success the operating system is not asked again. -/
theorem os_pairwise (h : Exec step Assumed State.init es s) :
    es.Pairwise fun x y => x.isOsSuccess = true → y.isOs = false := by
  refine (h.invariant (I := fun es s => (Inv s ∧ Books es s) ∧
    es.Pairwise fun x y => x.isOsSuccess = true → y.isOs = false)
    ⟨⟨inv_init, books_init⟩, List.Pairwise.nil⟩ ?_).2
  intro es s a s' e ⟨⟨hI, hb⟩, ih⟩ hs hG
  have hm := step_move hs hG
  refine ⟨⟨hm.inv hI, hm.books hI hb⟩, List.pairwise_append.2 ⟨ih, ?_⟩⟩
  rcases hm.os with hnot | ⟨c, op, status, hc, rfl⟩
  · exact ⟨List.pairwise_of_forall_mem_list fun x _ y hy _ => hnot y hy,
      fun x _ y hy _ => hnot y hy⟩
  · refine ⟨List.pairwise_singleton _ _, fun x hx y _ hsucc => ?_⟩
    rw [hI.no_success hb hc x hx] at hsucc
    cases hsucc

/-! ## The ends of a call -/

/-- A call that fails returns no outcome and leaves the task and the outcome where they are; a
positive status leaves the handle joinable. -/
theorem Move.ret (hm : Move s s' e) (h : Inv s) {c : Option T} {op : Op} {status : ℤ}
    {r : Option (Outcome α)} (hx : .ret c op status r ∈ e) (hst : status ≠ 0) :
    r = none ∧ s'.core.task = s.core.task ∧ s'.core.result = s.core.result ∧
      (0 < status → s'.core.state = .joinable) := by
  have hfree : .ret c op status r ∉ (freeEvents s.core.release : List (Event α T)) := by
    intro hx
    rcases mem_freeEvents hx with ⟨h, -⟩ | ⟨o, h, -⟩ | h <;> cases h
  cases hm with
  | raised status hsp =>
    rcases List.mem_append.1 hx with hx | hx
    · exact absurd hx hfree
    · cases List.mem_singleton.1 hx
  | completed o hw =>
    rcases List.mem_cons.1 hx with hx | hx
    · cases hx
    · split_ifs at hx
      · cases List.mem_singleton.1 hx
      · cases hx
  | left task o hw => cases (mem_taskEvents hx).1
  | exited o hw => exact absurd hx hfree
  | refused c op status hc hst hpos =>
    cases List.mem_singleton.1 hx
    refine ⟨rfl, rfl, rfl, fun hp => ?_⟩
    exact (hpos hp).resolve_left (h.state_of_done hc.1).2.1
  | rolledBack c op status hc =>
    cases List.mem_singleton.1 hx
    exact ⟨rfl, rfl, rfl, fun _ => rfl⟩
  | closed c op task result hc =>
    rcases List.mem_append.1 hx with hx | hx
    · cases (mem_taskEvents hx).1
    · cases List.mem_singleton.1 hx
      exact absurd rfl hst
  | drop hsp hh hstate hc => exact absurd hx hfree
  | _ =>
    -- no event, or one of another kind
    first
    | exact absurd hx List.not_mem_nil
    | cases List.mem_singleton.1 hx

omit [DecidableEq T] in
/-- As long as the handle is not closed, nothing is lost. -/
theorem Inv.kept (h : Inv s) (hs : s.spawner = .done 0) (hcl : s.core.state.isClosed = false) :
    s.core.task = true ∧ s.core.result = s.worker.outcome := by
  have ht := h.task
  have hr := h.result
  rw [hs] at ht
  cases hst : s.core.state with
  | joined =>
    rw [hst] at hcl
    cases hcl
  | detached =>
    rw [hst] at hcl
    cases hcl
  | _ =>
    rw [hst] at ht hr
    exact ⟨ht, hr⟩

/-! ## Terminal states -/

theorem Move.terminal (hm : Move s s' e) (h : Inv s) (ht : s.core.state.terminal = true) :
    s'.core.state = s.core.state := by
  -- a claimed handle is in no terminal state
  have hbusy : ∀ c op, (s.callers c).active op = false := by
    intro c op
    by_contra hc
    rw [h.state_of_active op (Bool.eq_true_of_not_eq_false hc)] at ht
    cases op <;> cases ht
  have hst := h.state
  cases hm with
  | published hsp =>
    rw [hsp] at hst
    rw [hst.1] at ht
    cases ht
  | failed status hsp =>
    rw [hsp] at hst
    rw [hst.1] at ht
    cases ht
  | completed o hw =>
    unfold complete
    split <;> rfl
  | finished o hw =>
    unfold mainEnd
    split_ifs <;> rfl
  | claimed c op p hc hop hstate hp =>
    rcases hstate with hst | hst <;> rw [hst] at ht <;> cases ht
  | joined c hc =>
    have hact := hbusy c .join
    rw [hc] at hact
    cases hact
  | detached c hc =>
    have hact := hbusy c .detach
    rw [hc] at hact
    cases hact
  | rolledBack c op status hc =>
    have hact := hbusy c op
    rw [hc] at hact
    exact absurd (decide_eq_true rfl) (by rw [Point.active] at hact; rw [hact]; exact nofun)
  | _ => rfl

/-- **A terminal state is never left.** -/
theorem terminal_of_exec (hI : Inv s) (h : Exec step Assumed s es s')
    (ht : s.core.state.terminal = true) : s'.core.state = s.core.state := by
  refine (h.stateInvariant (I := fun s' => Inv s' ∧ s'.core.state = s.core.state) ⟨hI, rfl⟩ ?_).2
  intro s₁ a s₂ e ⟨hI₁, hst⟩ hs hG
  have hm := step_move hs hG
  exact ⟨hm.inv hI₁, (hm.terminal hI₁ (by rw [hst]; exact ht)).trans hst⟩

/-! ## A joinable handle can be joined -/

omit [DecidableEq T] in
/-- Nobody is inside an operation while the handle is joinable. -/
theorem Inv.idle (h : Inv s) (hj : s.core.state = .joinable) (c : Option T) :
    s.callers c = .idle := by
  have hact : ∀ op, (s.callers c).active op = false := by
    intro op
    by_contra hc
    have hst := h.state_of_active op (Bool.eq_true_of_not_eq_false hc)
    rw [hj] at hst
    cases op <;> cases hst
  cases hc : s.callers c with
  | idle => rfl
  | ending op task r =>
    have hst := (h.ending c op task r hc).1
    rw [hj] at hst
    cases op <;> cases hst
  | claimed op =>
    have ha := hact op
    rw [hc] at ha
    exact absurd rfl (of_decide_eq_false ha)
  | success op =>
    have ha := hact op
    rw [hc] at ha
    exact absurd rfl (of_decide_eq_false ha)
  | failure op status =>
    have ha := hact op
    rw [hc] at ha
    exact absurd rfl (of_decide_eq_false ha)

omit [DecidableEq T] in
theorem Inv.spawned (h : Inv s) (hj : s.core.state = .joinable) : s.spawner = .done 0 := by
  have hst := h.state
  rw [hj] at hst
  cases hsp : s.spawner with
  | done status =>
    rw [hsp] at hst
    by_cases h0 : status = 0
    · rw [h0]
    · simp [StateOk, h0] at hst
  | _ =>
    rw [hsp] at hst
    cases hst.1

/-- The worker of a joinable handle can always take a step, and the handle stays joinable. -/
theorem Inv.exists_work (h : Inv s) (hj : s.core.state = .joinable)
    (hw : s.worker.isExited = false) : ∃ s' e, step s (.work (.failed "")) = some (s', e) ∧
      s'.core.state = .joinable ∧ s'.worker.left < s.worker.left := by
  have hidle := h.idle hj none
  simp only [step, State.work]
  cases hwk : s.worker with
  | absent =>
    have ha := h.absent
    rw [hwk, h.spawned hj] at ha
    cases ha
  | begin => exact ⟨_, _, rfl, hj, by simp [WorkerPoint.left]⟩
  | running =>
    rw [hidle]
    exact ⟨_, _, rfl, hj, by simp [WorkerPoint.left]⟩
  | completing o =>
    refine ⟨_, _, rfl, ?_, by simp [WorkerPoint.left]⟩
    unfold complete
    split <;> exact hj
  | returning o => exact ⟨_, _, rfl, hj, by simp [WorkerPoint.left]⟩
  | finish o =>
    refine ⟨_, _, rfl, ?_, by simp [WorkerPoint.left]⟩
    unfold mainEnd
    split_ifs <;> exact hj
  | release task o => exact ⟨_, _, rfl, hj, by simp [WorkerPoint.left]⟩
  | leave o => exact ⟨_, _, rfl, hj, by simp [WorkerPoint.left]⟩
  | exited o =>
    rw [hwk] at hw
    cases hw

/-- The worker of a joinable handle can exit. -/
theorem exists_exit (h : Inv s) (hj : s.core.state = .joinable) :
    ∃ es s', Exec step Assumed s es s' ∧ Inv s' ∧ s'.core.state = .joinable ∧
      ∃ o, s'.worker = .exited o := by
  induction hn : s.worker.left using Nat.strong_induction_on generalizing s with
  | _ n ih =>
    by_cases hx : s.worker.isExited = true
    · exact ⟨[], s, .start, h, hj, WorkerPoint.isExited_iff.1 hx⟩
    · obtain ⟨s₁, e, hs, hj₁, hlt⟩ := h.exists_work hj (Bool.eq_false_of_not_eq_true hx)
      have hG : Assumed s (.work (.failed "")) s₁ := le_refl 0
      obtain ⟨es, s', he, hI⟩ := ih _ (hn ▸ hlt) ((step_move hs hG).inv h) hj₁ rfl
      exact ⟨_, s', (Exec.start.step hs hG).trans he, hI⟩

/-- A joinable handle whose worker has exited can be joined. -/
theorem Inv.exists_close (h : Inv s) (hj : s.core.state = .joinable) {o : Outcome α}
    (hw : s.worker = .exited o) (t : T) :
    ∃ es s', Exec step Assumed s es s' ∧ .ret (some t) .join 0 (some o) ∈ es := by
  have hdone := h.spawned hj
  have hcall : s.CanCall (some t) := by
    refine ⟨hdone, ?_, by rw [h.idle hj]; rfl, nofun⟩
    by_contra hh
    have hd := (h.dropped (Bool.eq_false_of_not_eq_true hh)).1
    rw [hj] at hd
    cases hd
  have hres : s.core.result = some o := by
    rw [(h.kept hdone (by rw [hj]; rfl)).2, hw]
    rfl
  have hbegin : joinBegin s.core false 0 = ({ s.core with state := .joining }, none) := by
    simp [joinBegin, (h.state_of_done hdone).1, hj]
  let s₁ : State α T :=
    { s.move (some t) (.claimed .join) with core := { s.core with state := .joining } }
  have h₁ : step s (.join (some t) 0) = some (s₁, []) := by
    simp only [step, if_pos hcall]
    rw [show (some t).isNone = false from rfl, hbegin]
  have h₂ : step s₁ (.os (some t) 0) = some (s₁.move (some t) (.success .join), [.os .join 0]) := by
    simp [step, s₁, State.move, hw]
  let s₃ : State α T := { (s₁.move (some t) (.success .join)).move (some t)
    (.ending .join s.core.task (some o)) with core := (joinEnd s₁.core).1 }
  have h₃ : step (s₁.move (some t) (.success .join)) (.finish (some t)) = some (s₃, []) := by
    simp [step, s₁, s₃, State.move, joinEnd, hres]
  have h₄ : step s₃ (.finish (some t)) = some (s₃.move (some t) .idle,
      taskEvents s.core.task ++ [.ret (some t) .join 0 (some o)]) := by
    simp [step, s₃, State.move, taskEvents]
  refine ⟨_, _, (((Exec.start.step h₁ (le_refl 0)).step h₂ (le_refl 0)).step h₃
    (le_refl 0)).step h₄ (le_refl 0), ?_⟩
  simp

/-- **From every joinable state any caller can still join.** -/
theorem exists_join (h : Inv s) (hj : s.core.state = .joinable) (t : T) :
    ∃ es s' o, Exec step Assumed s es s' ∧ .ret (some t) .join 0 (some o) ∈ es := by
  obtain ⟨es, s₁, he, hI, hj₁, o, hw⟩ := exists_exit h hj
  obtain ⟨es', s₂, he', hret⟩ := hI.exists_close hj₁ hw t
  exact ⟨es ++ es', s₂, o, he.trans he', List.mem_append_right es hret⟩

/-! ## The lifecycle -/

omit [DecidableEq T] in
theorem Books.close_le_one (hb : Books es s) : es.countP Event.isClose ≤ 1 := by
  have hle := Bool.toNat_le s.core.state.isClosed
  have hc := hb.close
  omega

/-- **A handle is closed once and its outcome is delivered once.** In every run:

* at most one join or detach succeeds;
* the operating system is asked neither to join nor to detach after it has done one of them;
* a call that fails returns nothing and takes nothing, and a failure of the operating system leaves
  the handle joinable;
* nothing is lost while the handle is not closed, and a joinable handle can still be joined;
* a join that succeeds returns the one outcome that the task stored;
* the terminal states are never left. -/
theorem thread_one_close (h : Exec step Assumed State.init es s) :
    es.countP Event.isClose ≤ 1 ∧
    (es.Pairwise fun x y => x.isOsSuccess = true → y.isOs = false) ∧
    (∀ a s' e, step s a = some (s', e) → Assumed s a s' →
      ∀ c op status r, .ret c op status r ∈ e → status ≠ 0 →
        r = none ∧ s'.core.task = s.core.task ∧ s'.core.result = s.core.result ∧
          (0 < status → s'.core.state = .joinable)) ∧
    (s.spawner = .done 0 → s.core.state.isClosed = false →
      s.core.task = true ∧ s.core.result = s.worker.outcome) ∧
    (s.core.state = .joinable → ∀ t, ∃ es' s' o, Exec step Assumed s es' s' ∧
      .ret (some t) .join 0 (some o) ∈ es') ∧
    (∀ c r, .ret c .join 0 r ∈ es → ∃ o, es.filterMap Event.completion = [o] ∧ r = some o ∧
      (∀ value, o = .returned value → joinResult r 0 = some (.ok value)) ∧
      (∀ message, o = .failed message →
        joinResult r 0 = some (.error (.threadPanicked message)))) ∧
    (s.core.state.terminal = true → ∀ es' s', Exec step Assumed s es' s' →
      s'.core.state = s.core.state) := by
  have hI := inv_of_exec h
  refine ⟨(books_of_exec h).close_le_one, os_pairwise h, ?_, hI.kept, exists_join hI, ?_, ?_⟩
  · intro a s' e hs hG c op status r hx hst
    exact (step_move hs hG).ret hI hx hst
  · intro c r hr
    obtain ⟨o, rfl, ho⟩ := given_of_exec h hr rfl
    refine ⟨o, ho, rfl, ?_, ?_⟩
    · rintro value rfl
      rfl
    · rintro message rfl
      rfl
  · intro ht es' s' he
    exact terminal_of_exec hI he ht

/-- Two callers: the first join fails in the operating system while a detach is refused; the second
join returns the error of the task, and a third one comes too late. -/
theorem thread_one_close_retry :
    ∃ (es : List (Event ℕ (Fin 2))) (s : State ℕ (Fin 2)),
      Exec step Assumed State.init es s ∧
      .ret (some 0) .join 5 none ∈ es ∧ .ret (some 1) .detach (-3) none ∈ es ∧
      .ret (some 1) .join 0 (some (.failed "error")) ∈ es ∧
      .ret (some 0) .join (-1) none ∈ es ∧ es.countP Event.isClose ≤ 1 ∧
      es.filterMap Event.completion = [.failed "error"] := by
  obtain ⟨es, s, h, ht⟩ := Exec.exists_of_run step Assumed (State.init : State ℕ (Fin 2))
    [.spawn 0, .spawn 0, .work (.returned 0), .spawn 0, .join (some 0) 0, .detach (some 1) 0,
      .work (.failed "error"), .os (some 0) 5, .finish (some 0), .work (.returned 0),
      .join (some 1) 0, .work (.returned 0), .work (.returned 0), .work (.returned 0),
      .work (.returned 0), .os (some 1) 0, .finish (some 1), .finish (some 1),
      .join (some 0) 0]
    (fun _ es => decide (.ret (some 0) .join 5 none ∈ es ∧ .ret (some 1) .detach (-3) none ∈ es ∧
      .ret (some 1) .join 0 (some (.failed "error")) ∈ es ∧ .ret (some 0) .join (-1) none ∈ es))
    (by decide +kernel)
  obtain ⟨h₁, h₂, h₃, h₄⟩ := of_decide_eq_true ht
  obtain ⟨hone, -, -, -, -, hjoin, -⟩ := thread_one_close h
  obtain ⟨o, ho, hr, -⟩ := hjoin _ _ h₃
  cases hr
  exact ⟨es, s, h, h₁, h₂, h₃, h₄, hone, ho⟩

end NativeSync.Thread
