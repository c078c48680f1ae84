import NativeSync.ThreadPool.ExactlyOnce

/-!
# The thread pool: what a step can do when primitives fail

`Move` describes the steps whose primitives on the mutex and the condition variables succeed, and
`Fault` the others: a submission that fails before or after it has stored its task, a close or a
shutdown that fails at any of its calls, and the errors that the test hooks inject. The functions of
the workers, of the constructor and of the finalizer abort the process instead, so they have no such
steps. `step_cases` is the inversion lemma; the invariant and the books hold along all these runs
(`ok_of_any`), as a submission is booked by its result and not by its error.
-/

namespace NativeSync.ThreadPool

open Foundations

variable {T : Type}

/-- A pass of thread `t` from `p` on has got the mutex: its lock, or the wait it resumes from, has
succeeded. -/
def Entered (s : State T) (a : Action T) (t : T) (p : Point) : Prop :=
  (s.threads t).Entered (∃ os pick, a = .lock t os pick ∧ os.lock = 0)
    (∃ os pick, a = .resume t os pick ∧ os.wake = 0) p

/-- The failing steps that change nothing but where the thread stands. -/
inductive Failing (t : T) : Point → Pc Point → List (Event T) → Prop
  | aside (c : Caller) (op : Op) (result error : ℤ) (hop : op = .close ∨ op = .shutdown) :
      Failing t (.idle c) (.run (.idle c)) [.ret t op result error]
  | refused (c : Caller) (h task : ℕ) (block : Bool) (code error : ℤ) (hcode : code ≠ 0) :
      Failing t (.submit c h task block) (.run (.idle c))
        [.released task, .ret t (.submit task block) code error]
  | shutdown (h : ℕ) (status : ℤ) :
      Failing t (.shutdown h) (.run (.idle .client)) [.ret t .shutdown 0 status]
  | stop (h : ℕ) (status : ℤ) (hst : status ≠ 0) :
      Failing t (.stop h) (.run (.idle .client)) [.ret t .shutdown 0 status]

/-- The steps that close the core, as far as they get. -/
inductive FailingClose (t : T) : Point → Point → List (Event T) → Prop
  | close (c : Caller) (status : ℤ) : FailingClose t (.idle c) (.idle c) [.ret t .close 0 status]
  | shutdown (h : ℕ) (status : ℤ) :
      FailingClose t (.shutdown h) (.idle .client) [.ret t .shutdown 0 status]
  | goOn (h : ℕ) : FailingClose t (.shutdown h) (.stop h) []
  | abandon (status : ℤ) : FailingClose t (.abandon status) (.drain status) []

variable [DecidableEq T]

/-- What a step does that is no move. -/
inductive Fault (a : Action T) (s : State T) : State T → List (Event T) → Prop
  | failed (t : T) (p : Point) (x : Pc Point) (e : List (Event T)) (ht : (s.threads t).Ready p)
      (hp : Failing t p x e) : Fault a s (s.move t x) e
  | hook (t : T) (c : Caller) (h : ℕ) (block : Bool) (error : ℤ)
      (ht : s.threads t = .run (.idle c)) (hh : h ∈ s.handles) :
      Fault a s { s with tasks := s.tasks + 1 }
        [.released s.tasks, .ret t (.submit s.tasks block) 2 error]
  | submitted (t : T) (c : Caller) (h task : ℕ) (block : Bool) (f : T → Pc Point)
      (hin : Entered s a t (.submit c h task block)) (ha : s.core.accepting = true)
      (hf : s.core.ring.count ≠ s.core.ring.capacity)
      (hw : Woken (Function.update s.threads t (.run (.idle c))) f) :
      Fault a s { s with core := s.core.enqueue task, threads := f }
        [.ret t (.submit task block) 0 (lateError a.os)]
  | closed (t : T) (p q : Point) (e : List (Event T)) (f : T → Pc Point)
      (ht : (s.threads t).Ready p) (hp : FailingClose t p q e)
      (hw : Woken (Function.update s.threads t (.run q)) f) :
      Fault a s { s with core := s.core.close, threads := f } e

/-! ## Every step is a move or a fault -/

variable [Fintype T] {a : Action T} {s s' : State T} {es e : List (Event T)} {t t₀ : T}
  {pick : Option T} {os : Os} {N : Size}

omit [Fintype T] in
/-- An operation that leaves the pool alone. -/
theorem Fault.aside {c : Caller} {op : Op} {result error : ℤ}
    (ht : s.threads t = .run (.idle c)) (hop : op = .close ∨ op = .shutdown) :
    Fault a s s [.ret t op result error] := by
  have hf := Fault.failed (a := a) t _ _ _ (.inl ht) (Failing.aside c op result error hop)
  rwa [State.move, ← ht, Function.update_eq_self] at hf

/-- A pass of a submission that returns without having touched the core. -/
theorem endSubmit_failed {c : Caller} {h i : ℕ} {block : Bool} {code error : ℤ}
    (ht : (s.threads t).Ready (.submit c h i block)) (hcode : code ≠ 0)
    (hs : s.endSubmit t c h i block pick { core := s.core, exit := .ret code error } =
      some (s', e)) : Fault a s s' e := by
  simp only [State.endSubmit, State.settle, deliver_nil, Option.map_some, hcode, ne_eq,
    not_false_eq_true, if_true, Option.some.injEq, Prod.mk.injEq] at hs
  obtain ⟨rfl, rfl⟩ := hs
  exact .failed t _ _ _ ht (.refused c h i block code error hcode)

omit [DecidableEq T] [Fintype T] in
/-- A submission that finds the pool accepting and a free slot stores its task. -/
theorem submitLoop_of_room {core : Core} {i : ℕ} {block : Bool} (ha : core.accepting = true)
    (hf : core.ring.count ≠ core.ring.capacity) :
    submitLoop core i block os =
      { core := core.enqueue i
        wakes := if os.cond₁ = 0 then [.signal .notEmpty] else []
        exit := .ret 0 (lateError os) } := by
  have hfull : ¬core.full = true := by simpa [Core.full] using hf
  have hwait : ¬(block && core.accepting && core.full) = true := by
    rw [Bool.and_eq_true]
    exact fun h => hfull h.2
  have hopen : ¬(!core.accepting) = true := by simp [ha]
  rw [submitLoop, if_neg hwait, if_neg hopen, if_neg hfull]
  rfl

theorem submitLoop_cases {c : Caller} {h i : ℕ} {block : Bool}
    (hin : Entered s a t (.submit c h i block)) (hos : a.os = os)
    (hown : block = true → c.own = true → s.core.accepting = true →
      s.core.ring.count ≠ s.core.ring.capacity)
    (hs : s.endSubmit t c h i block pick (submitLoop s.core i block os) = some (s', e)) :
    Move s s' e ∨ Fault a s s' e := by
  have ht := hin.ready
  by_cases hgo : s.core.accepting = true ∧ s.core.ring.count ≠ s.core.ring.capacity
  · rw [submitLoop_of_room hgo.1 hgo.2] at hs
    simp only [State.endSubmit, State.settle, ne_eq, not_true_eq_false, if_false, List.nil_append,
      Option.map_map, Option.map_eq_some_iff, Function.comp_apply, Prod.mk.injEq] at hs
    obtain ⟨f, hf, rfl, rfl⟩ := hs
    subst hos
    exact .inr (.submitted t c h i block f hin hgo.1 hgo.2 (.of_deliver hf))
  · unfold submitLoop at hs
    split at hs
    · rename_i h₁
      split_ifs at hs
      · exact .inr (endSubmit_failed ht (by decide) hs)
      · simp only [Bool.and_eq_true, Core.full, beq_iff_eq] at h₁
        obtain ⟨⟨rfl, ha⟩, hf⟩ := h₁
        obtain ⟨rfl, rfl⟩ := by simpa [State.endSubmit] using hs
        cases c with
        | client => exact .inl (.quiet t _ _ _ ht (.submitSleep h i ha hf))
        | task j => exact absurd hf (hown rfl rfl ha)
    · split at hs
      · exact .inr (endSubmit_failed ht (by decide) hs)
      · rename_i h₂
        split at hs
        · exact .inr (endSubmit_failed ht (by decide) hs)
        · rename_i h₃
          refine absurd ⟨?_, ?_⟩ hgo
          · simpa using h₂
          · simpa [Core.full] using h₃

theorem submitTask_cases {c : Caller} {h i : ℕ} {block : Bool} (ha : a = .lock t os pick)
    (ht : s.threads t = .run (.submit c h i block))
    (hs : s.endSubmit t c h i block pick (submitTask s.core i block c.own os) = some (s', e)) :
    Move s s' e ∨ Fault a s s' e := by
  unfold submitTask at hs
  split_ifs at hs with h₁ h₂
  · exact .inr (endSubmit_failed (.inl ht) (by decide) hs)
  · exact .inr (endSubmit_failed (.inl ht) (by decide) hs)
  · refine submitLoop_cases (.inl ⟨⟨os, pick, ha, not_not.1 h₁⟩, ht⟩) (by rw [ha]; rfl)
      (fun hb ho hacc hf => h₂ ?_) hs
    simp [hb, ho, hacc, Core.full, hf]

omit [Fintype T] in
theorem shutdownLoop_cases {h : ℕ} (ht : (s.threads t).Ready (.stop h))
    (hs : s.endStop t h (shutdownLoop s.core os) = (s', e)) : Move s s' e ∨ Fault a s s' e := by
  unfold shutdownLoop at hs
  split_ifs at hs with h₁ h₂
  · simp only [State.endStop, Prod.mk.injEq] at hs
    obtain ⟨rfl, rfl⟩ := hs
    refine .inr (.failed t _ _ _ ht (.stop h _ ?_))
    rw [zero_recordError, Ne, recordError_eq_zero]
    exact fun h0 => h₂ h0.1
  · simp only [State.endStop, Prod.mk.injEq] at hs
    obtain ⟨rfl, rfl⟩ := hs
    exact .inl (.quiet t _ _ _ ht (.stopSleep h h₁))
  · simp only [State.endStop, zero_recordError, Prod.mk.injEq] at hs
    obtain ⟨rfl, rfl⟩ := hs
    by_cases hu : os.unlock = 0
    · rw [hu]
      exact .inl (.quiet t _ _ _ ht (.stopped h (not_not.1 h₁)))
    · exact .inr (.failed t _ _ _ ht (.stop h _ hu))

/-- A section that closes the core, once it has got the mutex. -/
theorem closeCore_cases {p q : Point} {e' : List (Event T)} (ht : (s.threads t).Ready p)
    (hp : FailingClose t p q e) (hl : os.lock = 0)
    (hs : (s.settle t (.run q) none (closeCore s.core os)).map (fun s' => (s', e')) =
      some (s', e)) : Fault a s s' e := by
  simp only [closeCore, hl, ne_eq, not_true_eq_false, if_false, State.settle, Option.map_map,
    Option.map_eq_some_iff, Function.comp_apply, Prod.mk.injEq] at hs
  obtain ⟨f, hf, rfl, rfl⟩ := hs
  exact .closed t p q _ f ht hp (.of_deliver hf)

/-- The first half of a shutdown. -/
theorem endClose_cases {h : ℕ} (ht : s.threads t = .run (.shutdown h))
    (hs : s.endClose t h (closeCore s.core os) = some (s', e)) : Fault a s s' e := by
  by_cases hl : os.lock = 0
  · unfold State.endClose at hs
    split_ifs at hs
    · exact closeCore_cases (.inl ht) (by
        obtain ⟨s₁, -, hs⟩ := Option.map_eq_some_iff.1 hs
        cases hs
        exact .shutdown h _) hl hs
    · exact closeCore_cases (.inl ht) (by
        obtain ⟨s₁, -, hs⟩ := Option.map_eq_some_iff.1 hs
        cases hs
        exact .goOn h) hl hs
  · obtain ⟨rfl, rfl⟩ := by
      simpa [State.endClose, closeCore, hl, State.settle] using hs
    exact .failed t _ _ _ (.inl ht) (.shutdown h _)

omit [Fintype T] [DecidableEq T] in
/-- The functions that abort when a primitive fails go on only if all of them succeed. -/
theorem workerLoop_os {core : Core} {sec : Section Core Cond WorkerExit}
    (hs : workerLoop core os = some sec) : os = {} := by
  by_contra hne
  simp [workerLoop, hne] at hs

omit [Fintype T] [DecidableEq T] in
theorem countWorker_os {core : Core} {n : ℤ} {sec : Section Core Cond Unit}
    (hs : countWorker core n os = some sec) : os = {} := by
  by_contra hne
  simp [countWorker, hne] at hs

omit [Fintype T] [DecidableEq T] in
theorem waitWorkers_os {core : Core} {sec : Section Core Cond Bool}
    (hs : waitWorkers core os = some sec) : os = {} := by
  by_contra hne
  simp [waitWorkers, hne] at hs

omit [Fintype T] [DecidableEq T] in
theorem finalize_os {core : Core} {sec : Section Core Cond Unit}
    (hs : finalize core os = some sec) : os = {} := by
  by_contra hne
  simp [finalize, hne] at hs

/-- **Every step is a move or a fault.** -/
theorem step_cases (hw : ∀ t, (s.threads t).WaitsAt Point.Waits)
    (hs : step s a = some (s', e)) : Move s s' e ∨ Fault a s s' e := by
  cases a with
  | arrive t => exact .inl (step_move hw hs rfl rfl)
  | start t => exact .inl (step_move hw hs rfl rfl)
  | callSubmit t h block injected =>
    by_cases hi : injected = 0
    · exact .inl (step_move hw hs rfl hi)
    · simp only [step] at hs
      split at hs
      · rename_i c ht
        split_ifs at hs with hh
        cases hs
        exact .inr (.hook t c h block injected ht hh)
      · cases hs
  | callShutdown t h injected =>
    by_cases hi : injected = 0
    · exact .inl (step_move hw hs rfl hi)
    · simp only [step] at hs
      split at hs
      · rename_i c ht
        split_ifs at hs
        cases hs
        exact .inr (.aside ht (.inr rfl))
      · cases hs
  | lock t os pick =>
    simp only [step] at hs
    split at hs
    · rename_i c h i block ht
      exact submitTask_cases rfl ht hs
    · rename_i h ht
      exact .inr (endClose_cases ht hs)
    · rename_i h ht
      have hs := Option.some.inj hs
      unfold shutdownWait at hs
      split_ifs at hs with hl
      · simp only [State.endStop, Prod.mk.injEq] at hs
        obtain ⟨rfl, rfl⟩ := hs
        exact .inr (.failed t _ _ _ (.inl ht) (.stop h _ hl))
      · exact shutdownLoop_cases (.inl ht) hs
    · rename_i ht
      obtain ⟨sec, hsec, -⟩ := Option.bind_eq_some_iff.1 hs
      obtain rfl := workerLoop_os hsec
      exact .inl (workerLoop_move (.inl ht) hs)
    · rename_i i ht
      obtain ⟨sec, hsec, -⟩ := Option.bind_eq_some_iff.1 hs
      obtain rfl := countWorker_os hsec
      obtain ⟨rfl, rfl⟩ := by simpa [countWorker, State.settle] using hs
      exact .inl (.counted t i (.inl ht))
    · rename_i st ht
      obtain ⟨sec, hsec, -⟩ := Option.bind_eq_some_iff.1 hs
      obtain rfl := countWorker_os hsec
      obtain ⟨rfl, rfl⟩ := by simpa [countWorker, State.settle] using hs
      exact .inl (.uncounted t st (.inl ht))
    · rename_i st ht
      split_ifs at hs with hx
      have hl : os.lock = 0 := by
        by_contra hl
        simp [closeCore, hl] at hx
      refine .inr (closeCore_cases (.inl ht) ?_ hl hs)
      obtain ⟨s₁, -, hs⟩ := Option.map_eq_some_iff.1 hs
      cases hs
      exact .abandon st
    · rename_i st ht
      obtain ⟨sec, hsec, -⟩ := Option.map_eq_some_iff.1 hs
      obtain rfl := waitWorkers_os hsec
      exact .inl (waitWorkers_move (.inl ht) hs)
    · cases hs
  | spurious t => exact .inl (step_move hw hs rfl rfl)
  | resume t os pick =>
    simp only [step] at hs
    split at hs
    · cases hs
    · rename_i w c h i block hne ht
      unfold submitWoken at hs
      split_ifs at hs with hk
      · exact .inr (endSubmit_failed (.inr ⟨w, hne, ht⟩) (by decide) hs)
      · have hc := hw t w _ ht
        cases c with
        | client =>
          exact submitLoop_cases (.inr ⟨⟨os, pick, rfl, not_not.1 hk⟩, w, hne, ht⟩) rfl
            (fun _ ho => by cases ho) hs
        | task j => cases hc
    · rename_i w h hne ht
      have hs := Option.some.inj hs
      unfold shutdownWoken at hs
      split_ifs at hs with hk
      · simp only [State.endStop, Prod.mk.injEq] at hs
        obtain ⟨rfl, rfl⟩ := hs
        refine .inr (.failed t _ _ _ (.inr ⟨w, hne, ht⟩) (.stop h _ ?_))
        rw [zero_recordError, Ne, recordError_eq_zero]
        exact fun h0 => hk h0.1
      · exact shutdownLoop_cases (.inr ⟨w, hne, ht⟩) hs
    · rename_i w hne ht
      obtain ⟨sec, hsec, -⟩ := Option.bind_eq_some_iff.1 hs
      obtain rfl := workerLoop_os hsec
      exact .inl (workerLoop_move (.inr ⟨w, hne, ht⟩) hs)
    · rename_i w st hne ht
      obtain ⟨sec, hsec, -⟩ := Option.map_eq_some_iff.1 hs
      obtain rfl := waitWorkers_os hsec
      exact .inl (waitWorkers_move (.inr ⟨w, hne, ht⟩) hs)
    · cases hs
  | advance t status => exact .inl (advance_move hs)
  | close t h os =>
    simp only [step] at hs
    split at hs
    · rename_i c ht
      split_ifs at hs
      by_cases hl : os.lock = 0
      · refine .inr (closeCore_cases (.inl ht) ?_ hl hs)
        obtain ⟨s₁, -, hs⟩ := Option.map_eq_some_iff.1 hs
        cases hs
        exact .close c _
      · obtain ⟨rfl, rfl⟩ := by simpa [closeCore, hl, State.settle] using hs
        exact .inr (.failed t _ _ _ (.inl ht) (.aside c .close 0 _ (.inl rfl)))
    · cases hs
  | isClosed t h os =>
    simp only [step] at hs
    split at hs
    · rename_i c ht
      split_ifs at hs
      cases hs
      exact .inl (.observed ht (.inl rfl))
    · cases hs
  | pendingCount t h os =>
    simp only [step] at hs
    split at hs
    · rename_i c ht
      split_ifs at hs
      cases hs
      exact .inl (.observed ht (.inr (.inl rfl)))
    · cases hs
  | share t h h' os =>
    simp only [step] at hs
    split at hs
    · rename_i c ht
      split_ifs at hs with hh
      rw [not_or, not_not] at hh
      unfold share at hs
      split_ifs at hs with h₁ h₂ h₃
      · cases hs
        exact .inl (.observed ht (.inr (.inr rfl)))
      · cases hs
        exact .inl (.observed ht (.inr (.inr rfl)))
      · cases hs
      · cases hs
        exact .inl (.share t c h h' (.inl ht) hh.1 hh.2 h₂)
    · cases hs
  | drop t h os =>
    simp only [step] at hs
    split at hs
    · rename_i p ht
      split_ifs at hs with hh
      obtain ⟨sec, hsec, -⟩ := Option.bind_eq_some_iff.1 hs
      obtain rfl := finalize_os hsec
      exact .inl (finalize_move hh.2.1 hh.2.2 hs)
    · cases hs

/-! ## The invariant and the books -/

omit [Fintype T] [DecidableEq T] in
theorem Failing.sameKind {p : Point} {x : Pc Point} (h : Failing t p x e) :
    SameKind p x.point := by
  cases h <;> exact ⟨rfl, rfl, rfl, rfl, rfl⟩

omit [Fintype T] [DecidableEq T] in
theorem FailingClose.sameKind {p q : Point} (h : FailingClose t p q e) : SameKind p q := by
  cases h <;> exact ⟨rfl, rfl, rfl, rfl, rfl⟩

/-- **A fault keeps the invariant.** -/
theorem Fault.inv (hm : Fault a s s' e) (h : Inv N t₀ s) : Inv N t₀ s' := by
  have hself : ∀ u, (s.threads u).point.left = true → s.core.accepting = false →
      s.core.ring.count = 0 → s.core.accepting = false ∧ s.core.ring.count = 0 :=
    fun _ _ h₁ h₂ => ⟨h₁, h₂⟩
  cases hm with
  | failed t p x e ht hp =>
    refine h.step_same (.refl _) (ht.point ▸ hp.sameKind) h.core ?_ hself (fun _ hc => hc)
      rfl rfl rfl
    cases hp <;> exact .plain rfl rfl rfl
  | hook t c k block error ht hk => exact ⟨h.core, h.pcs, h.creator, h.unmade, h.hired_le, h.made,
      h.live, h.handles, h.handles_le, h.refs, h.freed⟩
  | submitted t c k i block f hin ha hf hw =>
    have ht := hin.ready
    have hk : k ∈ s.handles := (h.pcs t).handle k (by rw [ht.point]; rfl)
    refine h.step_same hw (ht.point ▸ ⟨rfl, rfl, rfl, rfl, rfl⟩)
      ⟨h.core.capacity, ?_, h.core.workerCount⟩ (.plain rfl rfl rfl) ?_ ?_ rfl rfl rfl
    · exact RingBuffer.wf_push h.core.ring (lt_of_le_of_ne h.core.ring.count_le hf) i
    · intro u _ ha'
      cases ha.symm.trans ha'
    · intro he
      rw [he] at hk
      exact absurd hk (Finset.notMem_empty k)
  | closed t p q e f ht hp hw =>
    refine h.step_same hw (ht.point ▸ hp.sameKind)
      ⟨h.core.capacity, h.core.ring, h.core.workerCount⟩ ?_ (fun _ _ _ hc => ⟨rfl, hc⟩)
      (fun _ hc => hc) rfl rfl rfl
    have hok := h.pcs t
    cases hp with
    | goOn k =>
      have hk := hok.handle
      rw [ht.point] at hk
      exact ⟨Pc.waitsAt_run _, hk, nofun, nofun, nofun, nofun⟩
    | abandon st =>
      have hst := hok.failure
      rw [ht.point] at hst
      exact ⟨Pc.waitsAt_run _, nofun, nofun, nofun, hst, nofun⟩
    | _ => exact .plain rfl rfl rfl

omit [Fintype T] [DecidableEq T] in
theorem Failing.balanced {p : Point} {x : Pc Point} (h : Failing t p x e) :
    Balanced p x.point e := by
  cases h with
  | aside c op result error hop =>
    refine .of_ret ?_ fun _ => ⟨rfl, rfl, rfl, rfl⟩
    rcases hop with rfl | rfl <;> exact nofun
  | refused c k i block code error hcode => exact .rejected hcode
  | shutdown k status =>
    exact .of_ret nofun fun _ => ⟨rfl, rfl, rfl, rfl⟩
  | stop k status hst =>
    exact .of_ret nofun fun _ => ⟨rfl, rfl, rfl, rfl⟩

omit [Fintype T] [DecidableEq T] in
theorem FailingClose.balanced {p q : Point} (h : FailingClose t p q e) : Balanced p q e := by
  cases h with
  | close c status =>
    exact .of_ret nofun fun _ => ⟨rfl, rfl, rfl, rfl⟩
  | shutdown k status =>
    exact .of_ret nofun fun _ => ⟨rfl, rfl, rfl, rfl⟩
  | _ => exact .of_aside nofun fun _ => ⟨rfl, rfl, rfl, rfl⟩

omit [Fintype T] [DecidableEq T] in
theorem Failing.silent {p : Point} {x : Pc Point} (h : Failing t p x e) :
    e.filterMap Event.accepted = [] ∧ e.filterMap Event.dequeues = [] := by
  cases h with
  | aside c op result error hop => rcases hop with rfl | rfl <;> exact ⟨rfl, rfl⟩
  | refused c k i block code error hcode => simp [hcode]
  | _ => exact ⟨rfl, rfl⟩

/-- **A fault keeps the books.** -/
theorem Fault.books (hm : Fault a s s' e) (h : Inv N t₀ s) (hb : Books es s) :
    Books (es ++ e) s' := by
  cases hm with
  | failed t p x e ht hp =>
    refine hb.step ht.point (.refl _) hp.balanced rfl ?_
    rw [hp.silent.1, hp.silent.2, List.append_nil, List.nil_append]
    rfl
  | hook t c k block error ht hk =>
    refine ⟨fun i => ?_, ?_, fun i => ?_, fun i => ?_, fun i => ?_, fun i => ?_⟩
    · have h₁ := hb.submitted i
      change _ = if i < s.tasks + 1 then 1 else 0
      rw [tally_append, tally_append]
      by_cases hi : s.tasks = i
      · subst hi
        rw [if_neg (lt_irrefl _)] at h₁
        rw [if_pos (Nat.lt_succ_self _)]
        simp
        omega
      · have hlt : i < s.tasks + 1 ↔ i < s.tasks := by omega
        simp only [hlt]
        simpa [hi] using h₁
    · rw [List.filterMap_append, List.filterMap_append, hb.queue]
      simp only [List.append_assoc, List.append_cancel_left_eq]
      exact List.append_nil _
    · simpa [tally_append] using hb.dequeued i
    · simpa [tally_append] using hb.called i
    · have h₁ := hb.released i
      simp only [tally_append, tally_cons, tally_nil, Event.finishes, Event.rejected,
        Event.releases, reduceCtorEq, decide_false, Bool.toNat_false]
      change _ = numAt (Point.releasing i) s.threads + _
      simp
      omega
    · have h₁ := hb.refused i
      simp [tally_append]
      omega
  | submitted t c k j block f hin ha hf hw =>
    refine hb.step hin.ready.point hw .accepted rfl ?_
    exact (RingBuffer.toList_push h.core.ring (lt_of_le_of_ne h.core.ring.count_le hf) j).symm
  | closed t p q e f ht hp hw =>
    refine hb.step ht.point hw hp.balanced rfl ?_
    cases hp <;> exact List.append_nil _

/-- **The invariant and the books hold along every run**, whatever the primitives return. -/
theorem ok_of_any (h : Exec step AnyStatus (State.init N t₀) es s) : Inv N t₀ s ∧ Books es s := by
  refine h.invariant (I := fun es s => Inv N t₀ s ∧ Books es s) ⟨inv_init N t₀, books_init⟩
    fun ⟨hI, hb⟩ hs _ => ?_
  rcases step_cases (fun t => (hI.pcs t).wait) hs with hm | hf
  · exact ⟨hm.inv hI, hm.books hI hb⟩
  · exact ⟨hf.inv hI, hf.books hI hb⟩

end NativeSync.ThreadPool
