import NativeSync.Foundations.Progress
import NativeSync.Thread.Books

/-!
# Threads make progress

The spawning thread, the worker and the callers take by themselves the steps of `sync_thread_start`,
of `sync_thread_main` and of the joins and detaches that have claimed the handle. No call loops:
each has a fixed number of steps.

A join waits for the worker to exit, and the worker is itself a caller while its task runs. It does
not wait for itself, since a join of the worker is refused and a detach does not wait. So if the
operating system does what it is asked, everybody comes to an end.
-/

namespace NativeSync.Thread

open Foundations

variable {α T : Type}

/-- The steps that the spawning thread, the worker and the callers take by themselves. -/
def Action.own : Action α T → Bool
  | spawn _ => true
  | work _ => true
  | os .. => true
  | finish _ => true
  | _ => false

/-! ## The potential -/

/-- The steps that the spawning thread has before it, those of the worker that it creates
included. -/
def SpawnPoint.weight : SpawnPoint → ℕ
  | start => 10
  | create => 9
  | publish => 1
  | fail _ => 2
  | release _ => 1
  | done _ => 0

/-- The steps that a caller has before it. -/
def Point.weight : Point α → ℕ
  | idle => 0
  | claimed _ => 3
  | success _ => 2
  | failure .. => 1
  | ending .. => 1

variable [Fintype T]

/-- The potential. -/
def potential (s : State α T) : ℕ :=
  s.spawner.weight + s.worker.left + weigh Point.weight s.callers

variable [DecidableEq T] {s s' : State α T} {e es : List (Event α T)} {c : Option T} {p : Point α}

theorem weigh_move (c : Option T) (p : Point α) :
    weigh Point.weight (s.move c p).callers + (s.callers c).weight =
      weigh Point.weight s.callers + p.weight :=
  weigh_update _ _ _ _

omit [DecidableEq T] in
theorem spawn_lowers {status : ℤ} (hs : s.spawn status = some (s', e)) (hI : Inv s) :
    potential s' < potential s := by
  have habsent : s.spawner = .create → s.worker.left = 0 := by
    intro h
    have ha := hI.absent
    rw [h] at ha
    rw [WorkerPoint.eq_absent ha]
    rfl
  unfold potential
  cases h : s.spawner with
  | start =>
    simp only [State.spawn, h] at hs
    cases hs
    simp [SpawnPoint.weight]
  | create =>
    simp only [State.spawn, h] at hs
    have hzero := habsent h
    split_ifs at hs
    · cases hs
      simp only [SpawnPoint.weight, WorkerPoint.left]
      omega
    · cases hs
      simp only [SpawnPoint.weight]
      omega
  | publish =>
    simp only [State.spawn, h] at hs
    cases hs
    simp [SpawnPoint.weight]
  | fail st =>
    simp only [State.spawn, h] at hs
    cases hs
    simp [SpawnPoint.weight]
  | release st =>
    simp only [State.spawn, h] at hs
    cases hs
    simp [SpawnPoint.weight, State.unref]
  | done st =>
    simp only [State.spawn, h] at hs
    cases hs

omit [DecidableEq T] in
theorem work_lowers {o : Outcome α} (hs : s.work o = some (s', e)) :
    potential s' < potential s := by
  unfold potential
  cases h : s.worker with
  | absent =>
    simp only [State.work, h] at hs
    cases hs
  | running =>
    simp only [State.work, h] at hs
    split_ifs at hs
    cases hs
    simp [WorkerPoint.left]
  | leave o =>
    simp only [State.work, h] at hs
    cases hs
    simp [WorkerPoint.left, State.unref]
  | exited o =>
    simp only [State.work, h] at hs
    cases hs
  | _ =>
    simp only [State.work, h] at hs
    cases hs
    simp [WorkerPoint.left]

/-- A step in which a caller moves to a lighter point. -/
theorem move_lowers (hs : s'.spawner = s.spawner) (hw : s'.worker = s.worker)
    (hc : s'.callers = Function.update s.callers c p) (hlt : p.weight < (s.callers c).weight) :
    potential s' < potential s := by
  have hm := weigh_move (s := s) c p
  unfold potential
  rw [hs, hw, hc]
  change weigh Point.weight (Function.update s.callers c p) + _ = _ at hm
  omega

/-- **Every own step lowers the potential.** -/
theorem step_lowers {a : Action α T} (hI : Inv s) (hs : step s a = some (s', e))
    (ha : a.own = true) : potential s' < potential s := by
  cases a with
  | spawn status => exact spawn_lowers hs hI
  | work outcome => exact work_lowers hs
  | os c status =>
    simp only [step] at hs
    split at hs
    · rename_i op hc
      split_ifs at hs
      · cases hs
        exact move_lowers (c := c) (p := .failure op status) rfl rfl rfl (by simp [hc, Point.weight])
      · split at hs
        · cases hs
          exact move_lowers (c := c) (p := .success .join) rfl rfl rfl (by simp [hc, Point.weight])
        · cases hs
          exact move_lowers (c := c) (p := .success .detach) rfl rfl rfl
            (by simp [hc, Point.weight])
        · cases hs
    · cases hs
  | finish c =>
    simp only [step] at hs
    split at hs
    · rename_i hc
      cases hs
      exact move_lowers (c := c) rfl rfl rfl (by simp [hc, Point.weight])
    · rename_i hc
      cases hs
      exact move_lowers (c := c) rfl rfl rfl (by simp [hc, Point.weight])
    · rename_i op status hc
      cases hs
      exact move_lowers (c := c) rfl rfl rfl (by simp [hc, Point.weight])
    · rename_i op task result hc
      cases hs
      exact move_lowers (c := c) (p := .idle) rfl rfl rfl (by simp [hc, Point.weight])
    · cases hs
  | _ => cases ha

/-- A step in which a caller claims the handle. -/
theorem move_raises (hs : s'.spawner = s.spawner) (hw : s'.worker = s.worker)
    (hc : s'.callers = Function.update s.callers c p) (hle : p.weight ≤ 3) :
    potential s' ≤ potential s + 3 := by
  have hm := weigh_move (s := s) c p
  unfold potential
  rw [hs, hw, hc]
  change weigh Point.weight (Function.update s.callers c p) + _ = _ at hm
  omega

/-- **No step raises the potential by more than three.** -/
theorem step_raises {a : Action α T} (hs : step s a = some (s', e)) (ha : a.own = false) :
    potential s' ≤ potential s + 3 := by
  cases a with
  | join c injected =>
    obtain ⟨-, hs⟩ := Option.ite_none_right_eq_some.1 hs
    split at hs
    · cases hs
      exact Nat.le_add_right _ _
    · cases hs
      exact move_raises (c := c) (p := .claimed .join) rfl rfl rfl le_rfl
  | detach c injected =>
    obtain ⟨-, hs⟩ := Option.ite_none_right_eq_some.1 hs
    split at hs
    · cases hs
      exact Nat.le_add_right _ _
    · split_ifs at hs
      · cases hs
        exact move_raises (c := c) (p := .failure .detach injected) rfl rfl rfl
          (by simp [Point.weight])
      · cases hs
        exact move_raises (c := c) (p := .claimed .detach) rfl rfl rfl le_rfl
  | isFinished c os =>
    obtain ⟨-, hs⟩ := Option.ite_none_right_eq_some.1 hs
    cases hs
    exact Nat.le_add_right _ _
  | drop =>
    obtain ⟨-, hs⟩ := Option.ite_none_right_eq_some.1 hs
    cases hs
    exact Nat.le_add_right _ _
  | _ => cases ha

theorem hasPotential :
    Potential (step (α := α) (T := T)) Assumed Action.own Inv potential 3 where
  keep := fun hI hs hG => (step_move hs hG).inv hI
  lowers := fun hI hs _ ha => step_lowers hI hs ha
  raises := fun _ hs _ ha => step_raises hs ha

/-! ## Nobody waits for itself -/

/-- The worker does not join itself. -/
def NoSelfJoin (s : State α T) : Prop := s.callers none ≠ .claimed .join

omit [Fintype T] in
theorem NoSelfJoin.update {f : Option T → Point α} (h : NoSelfJoin s)
    (hf : f = Function.update s.callers c p) (hp : c = none → p ≠ .claimed .join) :
    f none ≠ .claimed .join := by
  rw [hf]
  by_cases hc : none = c
  · subst hc
    rw [Function.update_self]
    exact hp rfl
  · rw [Function.update_of_ne hc]
    exact h

omit [Fintype T] in
theorem Move.noSelfJoin (hm : Move s s' e) (h : NoSelfJoin s) : NoSelfJoin s' := by
  cases hm with
  | claimed c op p hc hop hstate hp =>
    refine h.update rfl fun hn => ?_
    rcases hp with rfl | ⟨status, -, rfl⟩
    · intro hx
      cases hx
      exact hop rfl hn
    · exact nofun
  | osFailed c op status hc hst => exact h.update rfl fun _ => nofun
  | osDone c op hc hw => exact h.update rfl fun _ => nofun
  | joined c hc => exact h.update rfl fun _ => nofun
  | detached c hc => exact h.update rfl fun _ => nofun
  | rolledBack c op status hc => exact h.update rfl fun _ => nofun
  | closed c op task result hc => exact h.update rfl fun _ => nofun
  | _ => exact h

theorem noSelfJoin_of_exec (h : Exec step Assumed State.init es s) : NoSelfJoin s :=
  h.stateInvariant (I := NoSelfJoin) (by exact nofun) fun hI hs hG =>
    (step_move hs hG).noSelfJoin hI

/-! ## Who can take a step -/

/-- A step in which the operating system joins and detaches as it is asked to. -/
def Granting (_ : State α T) (a : Action α T) (_ : State α T) : Prop := a.status = 0

instance (s : State α T) (a : Action α T) (s' : State α T) : Decidable (Granting s a s') :=
  inferInstanceAs (Decidable (_ = _))

/-- Caller `c` has nothing more to wait for. -/
theorem not_stuck_of_finish (h : (s.callers c).isSuccess = true ∨
    (s.callers c).isEnding = true ∨ (s.callers c).status.isSome = true) :
    ¬Stuck step Granting Action.own s := by
  intro hst
  cases hc : s.callers c with
  | idle =>
    rw [hc] at h
    rcases h with h | h | h <;> cases h
  | claimed op =>
    rw [hc] at h
    rcases h with h | h | h <;> cases h
  | success op =>
    cases op with
    | join => exact hst (.finish c) _ _ rfl (by simp only [step, hc]; rfl) rfl
    | detach => exact hst (.finish c) _ _ rfl (by simp only [step, hc]; rfl) rfl
  | failure op status => exact hst (.finish c) _ _ rfl (by simp only [step, hc]; rfl) rfl
  | ending op task result => exact hst (.finish c) _ _ rfl (by simp only [step, hc]; rfl) rfl

/-- A detach does not wait. -/
theorem not_stuck_of_detach (hc : s.callers c = .claimed .detach) :
    ¬Stuck step Granting Action.own s := by
  intro hst
  refine hst (.os c 0) (s.move c (.success .detach)) [.os .detach 0] rfl ?_ rfl
  simp only [step, hc, ne_eq, not_true_eq_false, if_false]

/-- **A worker that has not exited is not held up**, since it does not join itself. -/
theorem not_stuck_of_worker (hself : NoSelfJoin s) (ha : s.worker.isAbsent = false)
    (he : s.worker.isExited = false) : ¬Stuck step Granting Action.own s := by
  intro hst
  have hstep : ∀ r, s.work (.failed "") ≠ some r := fun r hr =>
    hst (.work (.failed "")) r.1 r.2 rfl hr rfl
  cases hw : s.worker with
  | absent =>
    rw [hw] at ha
    cases ha
  | exited o' =>
    rw [hw] at he
    cases he
  | running =>
    cases hc : s.callers none with
    | idle => exact hstep _ (by simp only [State.work, hw, hc]; rfl)
    | claimed op =>
      cases op with
      | join => exact hself hc
      | detach => exact not_stuck_of_detach hc hst
    | success op => exact not_stuck_of_finish (.inl (by rw [hc]; rfl)) hst
    | failure op status => exact not_stuck_of_finish (.inr (.inr (by rw [hc]; rfl))) hst
    | ending op task result => exact not_stuck_of_finish (.inr (.inl (by rw [hc]; rfl))) hst
  | _ => exact hstep _ (by simp only [State.work, hw]; rfl)

/-- **When nobody can take a step, nobody is in a call.** -/
theorem idle_of_stuck (hI : Inv s) (hself : NoSelfJoin s)
    (hst : Stuck step Granting Action.own s) (c : Option T) : s.callers c = .idle := by
  cases hc : s.callers c with
  | idle => rfl
  | success op => exact absurd hst (not_stuck_of_finish (.inl (by rw [hc]; rfl)))
  | failure op status =>
    exact absurd hst (not_stuck_of_finish (.inr (.inr (by rw [hc]; rfl))))
  | ending op task result =>
    exact absurd hst (not_stuck_of_finish (.inr (.inl (by rw [hc]; rfl))))
  | claimed op =>
    cases op with
    | detach => exact absurd hst (not_stuck_of_detach hc)
    | join =>
      exfalso
      -- the worker was created, and if it has exited the join succeeds
      have hdone := (hI.busy c (by rw [hc]; nofun)).1
      have habsent : s.worker.isAbsent = false := by
        rw [hI.absent, hdone]
        rfl
      cases hex : s.worker.isExited with
      | false => exact not_stuck_of_worker hself habsent hex hst
      | true =>
        obtain ⟨o', ho⟩ := WorkerPoint.isExited_iff.1 hex
        refine hst (.os c 0) (s.move c (.success .join)) [.os .join 0] rfl ?_ rfl
        simp only [step, hc, ho, ne_eq, not_true_eq_false, if_false]

omit [DecidableEq T] in
theorem done_of_stuck [DecidableEq T] (hst : Stuck step Granting Action.own s) :
    ∃ status, s.spawner = .done status := by
  have hstep : ∀ r, s.spawn 0 ≠ some r := fun r hr => hst (.spawn 0) r.1 r.2 rfl hr rfl
  cases h : s.spawner with
  | done status => exact ⟨status, rfl⟩
  | create => exact absurd (by simp only [State.spawn, h]; rfl) (hstep _)
  | _ => exact absurd (by simp only [State.spawn, h]; rfl) (hstep _)

/-- Everybody has come to an end. -/
structure Settled (es : List (Event α T)) (s : State α T) : Prop where
  spawner : ∃ status, s.spawner = .done status
  worker : s.worker = .absent ∨ ∃ o, s.worker = .exited o
  callers : ∀ c, s.callers c = .idle
  state : s.core.state = .joinable ∨ s.core.state.terminal = true
  task : es.countP Event.isTaskReleased = s.core.state.terminal.toNat
  freed : s.freed = true ↔ s.handle = false

omit [DecidableEq T] in
/-- The state of a handle that nobody has claimed, and the task that it still has. -/
theorem Inv.at_rest (hI : Inv s) {status : ℤ} (hdone : s.spawner = .done status)
    (hworker : s.worker = .absent ∨ ∃ o, s.worker = .exited o)
    (hbusy : ∀ op : Op, s.core.state ≠ op.busy) :
    (s.core.state = .joinable ∨ s.core.state.terminal = true) ∧
      s.core.task = !s.core.state.terminal := by
  have hstate := hI.state
  have htask := hI.task
  have hfinished := hI.finished
  have habsent := hI.absent
  rw [hdone] at hstate htask habsent
  by_cases hst : status = 0
  · subst hst
    obtain ⟨-, hcreated, hfailed⟩ : _ ∧ _ ∧ _ := by simpa [StateOk] using hstate
    have hfin : s.core.finished = true := by
      rcases hworker with hw | ⟨o, hw⟩
      · rw [hw] at habsent
        cases habsent
      · rw [hfinished, hw]
        rfl
    rw [hfin] at htask
    rw [htask]
    cases hs : s.core.state with
    | created => exact absurd hs hcreated
    | failed => exact absurd hs hfailed
    | joining => exact absurd hs (hbusy .join)
    | detaching => exact absurd hs (hbusy .detach)
    | joinable => exact ⟨.inl rfl, rfl⟩
    | joined => exact ⟨.inr rfl, rfl⟩
    | detached => exact ⟨.inr rfl, rfl⟩
  · obtain ⟨hfailed, -⟩ : _ ∧ _ := by simpa [StateOk, hst] using hstate
    rw [htask, hfailed]
    refine ⟨.inr rfl, ?_⟩
    simp [taskThere, SpawnPoint.created, hst, ThreadState.terminal]

/-- **When nobody can take a step, everybody has come to an end.** -/
theorem settled_of_stuck (h : Exec step Assumed State.init es s)
    (hst : Stuck step Granting Action.own s) : Settled es s := by
  have hI := inv_of_exec h
  have hself := noSelfJoin_of_exec h
  have hidle := idle_of_stuck hI hself hst
  obtain ⟨status, hdone⟩ := done_of_stuck hst
  have hworker : s.worker = .absent ∨ ∃ o, s.worker = .exited o := by
    cases ha : s.worker.isAbsent with
    | true => exact .inl (WorkerPoint.eq_absent ha)
    | false =>
      cases he : s.worker.isExited with
      | true => exact .inr (WorkerPoint.isExited_iff.1 he)
      | false => exact absurd hst (not_stuck_of_worker hself ha he)
  have hbusy : ∀ op : Op, s.core.state ≠ op.busy := by
    intro op hop
    have hnum := hI.active op
    rw [decide_eq_true hop] at hnum
    obtain ⟨c, hc⟩ := num_pos.1 (show 0 < num (Point.active op) s.callers by rw [hnum]; decide)
    rw [hidle c] at hc
    cases hc
  obtain ⟨hstate, htask⟩ := hI.at_rest hdone hworker hbusy
  refine ⟨⟨status, hdone⟩, hworker, hidle, hstate, ?_, ?_⟩
  · have hbooks := (books_of_exec h).task
    have hcallers : num Point.holdsTask s.callers = 0 := num_eq_zero.2 fun c => by
      rw [hidle c]
      rfl
    have hheld : s.worker.holdsTask = false := by
      rcases hworker with hw | ⟨o, hw⟩ <;> rw [hw] <;> rfl
    rw [State.tasks, hcallers, hheld, htask, hdone] at hbooks
    cases ht : s.core.state.terminal with
    | false =>
      rw [ht] at hbooks
      simpa using hbooks
    | true =>
      rw [ht] at hbooks
      simpa using hbooks
  · have href : s.workerRef = false := by
      rw [State.workerRef, hdone]
      rcases hworker with hw | ⟨o, hw⟩ <;> rw [hw] <;> rfl
    rw [hI.freed, href]
    exact and_iff_left rfl

/-- **Threads make progress.** In every run with `k` calls, drops and questions, the spawning thread,
the worker and the callers take by themselves at most `10 + 3 * k` steps. If from some state on the
operating system joins and detaches as it is asked to, such steps lead to a state in which no more
can be taken; and there `sync_thread_start` has returned, the worker has exited, if there is one, and
so has every call. The handle is joinable, or it has been closed and its task given up. -/
theorem thread_progress :
    (∀ m k es s, Paced (step (α := α) (T := T)) Assumed Action.own State.init m k es s →
      m ≤ 10 + 3 * k) ∧
    ∀ es s, Exec (step (α := α) (T := T)) Assumed State.init es s →
      (∃ m es' s', Paced step Granting Action.own s m 0 es' s' ∧
        Stuck step Granting Action.own s' ∧ Settled (es ++ es') s') ∧
      (Stuck step Granting Action.own s → Settled es s) := by
  have hgrant : ∀ {s : State α T} {a s'}, Granting s a s' → Assumed s a s' := fun hG => hG.ge
  refine ⟨fun m k es s h => ?_, fun es s h => ⟨?_, settled_of_stuck h⟩⟩
  · have hb := hasPotential.bound inv_init h
    have hinit : potential (State.init : State α T) = 10 := by
      have hzero : weigh Point.weight (State.init : State α T).callers = 0 :=
        Finset.sum_eq_zero fun _ _ => rfl
      unfold potential
      rw [hzero]
      rfl
    omega
  · have hP : Potential (step (α := α) (T := T)) Granting Action.own Inv potential 3 :=
      ⟨fun hI hs hG => hasPotential.keep hI hs (hgrant hG),
        fun hI hs hG ha => hasPotential.lowers hI hs (hgrant hG) ha,
        fun hI hs hG ha => hasPotential.raises hI hs (hgrant hG) ha⟩
    obtain ⟨m, es', s', hrun, hst⟩ := hP.settles (inv_of_exec h)
    exact ⟨m, es', s', hrun, hst, settled_of_stuck (h.trans (hrun.exec.mono hgrant)) hst⟩

/-- The task detaches its own handle while another caller's join has just failed; then the task ends,
and its closure is given up. -/
theorem thread_progress_own_handle :
    ∃ (m k : ℕ) (es : List (Event ℕ (Fin 1))) (s : State ℕ (Fin 1)),
      Paced step Assumed Action.own State.init m k es s ∧
      .ret (some 0) .join 5 none ∈ es ∧ .ret none .join (-2) none ∈ es ∧
      .ret none .detach 0 none ∈ es ∧ es.countP Event.isTaskReleased = 1 ∧ m ≤ 10 + 3 * k := by
  obtain ⟨es, s, h, ht⟩ := Exec.exists_of_run step Assumed (State.init : State ℕ (Fin 1))
    [.spawn 0, .spawn 0, .work (.returned 0), .spawn 0, .join (some 0) 0, .os (some 0) 5,
      .finish (some 0), .join none 0, .detach none 0, .os none 0, .finish none, .finish none,
      .work (.returned 7), .work (.returned 0), .work (.returned 0), .work (.returned 0),
      .work (.returned 0), .work (.returned 0)]
    (fun s es => decide (.ret (some 0) .join 5 none ∈ es ∧ .ret none .join (-2) none ∈ es ∧
      .ret none .detach 0 none ∈ es ∧ s.spawner = .done 0 ∧ s.worker.isExited = true ∧
      (∀ c, (s.callers c).isIdle = true) ∧ s.core.state = .detached)) (by decide +kernel)
  obtain ⟨h₁, h₂, h₃, hdone, hexit, hidle, hstate⟩ := of_decide_eq_true ht
  obtain ⟨m, k, hp⟩ := h.paced Action.own
  obtain ⟨o, ho⟩ := WorkerPoint.isExited_iff.1 hexit
  have hst : Stuck step Granting Action.own s := by
    intro a s' e ha hs
    have hc := fun c => Point.isIdle_iff.1 (hidle c)
    cases a with
    | spawn status => simp [step, State.spawn, hdone] at hs
    | work outcome => simp [step, State.work, ho] at hs
    | os c status => simp [step, hc] at hs
    | finish c => simp [step, hc] at hs
    | _ => cases ha
  obtain ⟨hbound, hsettled⟩ := thread_progress (α := ℕ) (T := Fin 1)
  have htask := ((hsettled es s h).2 hst).task
  rw [hstate] at htask
  exact ⟨m, k, es, s, hp, h₁, h₂, h₃, htask, hbound _ _ _ _ hp⟩

end NativeSync.Thread
