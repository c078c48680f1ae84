import NativeSync.Foundations.Progress
import NativeSync.ThreadPool.Faults

/-!
# The thread pool makes progress

Safety says that no accepted task is lost or called twice; here it is shown that it is called. The
steps that the threads take by themselves are the critical sections, the returns from waits, the
steps outside the mutex, the end of a task among them, and the first step of a created worker.

* `potential` is a number that every such step lowers, whatever the primitives return: a queued task,
  a worker to be started and a thread in an operation all have their weight. The other steps, calls
  and wake-ups for no reason among them, raise it by a constant at most. So a run has no more own
  steps than the others pay for: the threads of the pool never run in circles.
* When no thread can take a step of its own, and all created workers have started, then every
  operation is over, every accepted task is done, and if the pool has been closed its workers are
  gone. Otherwise they sleep on an empty queue.
-/

namespace NativeSync.ThreadPool

open Foundations

variable {T : Type}

/-- The steps that a thread takes by itself. -/
def Action.own : Action T → Bool
  | start _ => true
  | lock .. => true
  | resume .. => true
  | advance .. => true
  | _ => false

/-! ## The potential -/

/-- The weight of the constructor at the head of its loop. -/
def createWeight (n workers index : ℕ) : ℕ := (workers - index) * (n + 6) + (2 * n + 7)

/-- The weight of a thread that is awake at a point of a pool with `n` threads. -/
def Point.weight (n workers : ℕ) : Point → ℕ
  | absent => 0
  | exited => 0
  | idle .client => 0
  | leave => 1
  | loop => n + 2
  | release _ => n + 3
  | idle (.task _) => n + 4
  | fetched _ => n + 5
  | submit .client .. => 7
  | submit (.task _) .. => n + 11
  | stop _ => 2
  | shutdown _ => 2 * n + 3
  | giveUp _ => 1
  | drain _ => 3
  | abandon _ => 2 * n + 4
  | unref _ => 2 * n + 5
  | uncount _ => 2 * n + 6
  | spawn index => createWeight n workers (index + 1) + n + 4
  | count index => createWeight n workers (index + 1) + n + 5
  | create index => createWeight n workers index

/-- The weight of a thread. -/
abbrev weight (n workers : ℕ) : Pc Point → ℕ := passWeight (Point.weight n workers)

variable [Fintype T]

/-- The potential of a pool with `workers` workers. -/
def potential (workers : ℕ) (s : State T) : ℕ :=
  weigh (weight (Fintype.card T) workers) s.threads + 5 * s.core.ring.count +
    (Fintype.card T + 3) * s.starting

variable {s s' : State T} {e : List (Event T)} {t t₀ : T} {pick : Option T} {os : Os} {N : Size}
  {p : Point} {x : Pc Point} {n W : ℕ}

variable [DecidableEq T]

theorem State.weigh_settle {X : Type} {sec : Section Core Cond X} (ht : (s.threads t).Ready p)
    (hs : s.settle t x pick sec = some s') :
    weigh (ThreadPool.weight n W) s'.threads + p.weight n W ≤
      weigh (ThreadPool.weight n W) s.threads + ThreadPool.weight n W x +
        wakeWeight (Fintype.card T) sec.wakes := by
  obtain ⟨f, hf, rfl⟩ := Option.map_eq_some_iff.1 hs
  exact weigh_pass _ ht hf

theorem weigh_move (ht : (s.threads t).Ready p) :
    weigh (weight n W) (s.move t x).threads + p.weight n W =
      weigh (weight n W) s.threads + weight n W x :=
  weigh_moved _ ht x

theorem State.settle_core {X : Type} {sec : Section Core Cond X}
    (hs : s.settle t x pick sec = some s') :
    s'.core = sec.core ∧ s'.starting = s.starting := by
  obtain ⟨f, -, rfl⟩ := Option.map_eq_some_iff.1 hs
  exact ⟨rfl, rfl⟩

/-! ## Own steps lower it -/

/-- **The rule of a critical section** that ends with the thread at `x`. -/
theorem settle_lowers {X : Type} {sec : Section Core Cond X} (ht : (s.threads t).Ready p)
    (hs : s.settle t x pick sec = some s')
    (hlt : weight (Fintype.card T) W x + wakeWeight (Fintype.card T) sec.wakes +
      5 * sec.core.ring.count < p.weight (Fintype.card T) W + 5 * s.core.ring.count) :
    potential W s' < potential W s := by
  have hw := State.weigh_settle (n := Fintype.card T) (W := W) ht hs
  obtain ⟨hcore, hstart⟩ := State.settle_core hs
  unfold potential
  rw [hcore, hstart]
  omega

/-- A step that only moves the thread. -/
theorem move_lowers (ht : (s.threads t).Ready p)
    (hlt : weight (Fintype.card T) W x < p.weight (Fintype.card T) W) :
    potential W (s.move t x) < potential W s := by
  have hw := weigh_move (n := Fintype.card T) (W := W) (x := x) ht
  unfold potential
  change weigh _ (s.move t x).threads + 5 * s.core.ring.count + _ * s.starting < _
  omega

omit [Fintype T] [DecidableEq T] in
theorem weight_submit (c : Caller) (h i : ℕ) (block : Bool) :
    (Point.submit c h i block).weight n W = (Point.idle c).weight n W + 7 := by
  cases c <;> rfl

/-- A submission that returns. -/
theorem endSubmit_lowers {c : Caller} {h i : ℕ} {block : Bool}
    {sec : Section Core Cond SubmitExit} {result error : ℤ}
    (ht : (s.threads t).Ready (.submit c h i block)) (he : sec.exit = .ret result error)
    (hs : s.endSubmit t c h i block pick sec = some (s', e))
    (hlt : wakeWeight (Fintype.card T) sec.wakes + 5 * sec.core.ring.count <
      5 * s.core.ring.count + 7) : potential W s' < potential W s := by
  simp only [State.endSubmit, he, Option.map_eq_some_iff, Prod.mk.injEq] at hs
  obtain ⟨s₁, hs₁, rfl, -⟩ := hs
  refine settle_lowers ht hs₁ ?_
  rw [weight_submit]
  change (Point.idle c).weight _ _ + _ + _ < _
  omega

theorem submitLoop_lowers {c : Caller} {h i : ℕ} {block : Bool}
    (ht : (s.threads t).Ready (.submit c h i block))
    (hs : s.endSubmit t c h i block pick (submitLoop s.core i block os) = some (s', e)) :
    potential W s' < potential W s := by
  unfold submitLoop at hs
  split_ifs at hs with h₁ h₂ h₃ h₄ h₅
  · exact endSubmit_lowers ht rfl hs (by simp)
  · obtain ⟨rfl, rfl⟩ := by simpa [State.endSubmit] using hs
    refine move_lowers ht ?_
    change (Point.submit c h i block).weight _ _ - 1 < _
    rw [weight_submit]
    omega
  · exact endSubmit_lowers ht rfl hs (by simp)
  · exact endSubmit_lowers ht rfl hs (by simp)
  · exact endSubmit_lowers ht rfl hs (by simp [Notify.weight]; omega)
  · exact endSubmit_lowers ht rfl hs (by simp; omega)

theorem submitTask_lowers {c : Caller} {h i : ℕ} {block : Bool}
    (ht : (s.threads t).Ready (.submit c h i block))
    (hs : s.endSubmit t c h i block pick (submitTask s.core i block c.own os) = some (s', e)) :
    potential W s' < potential W s := by
  unfold submitTask at hs
  split_ifs at hs with h₁ h₂
  · exact endSubmit_lowers ht rfl hs (by simp)
  · exact endSubmit_lowers ht rfl hs (by simp)
  · exact submitLoop_lowers ht hs

theorem submitWoken_lowers {c : Caller} {h i : ℕ} {block : Bool}
    (ht : (s.threads t).Ready (.submit c h i block))
    (hs : s.endSubmit t c h i block pick (submitWoken s.core i block os) = some (s', e)) :
    potential W s' < potential W s := by
  unfold submitWoken at hs
  split_ifs at hs with h₁
  · exact endSubmit_lowers ht rfl hs (by simp)
  · exact submitLoop_lowers ht hs

/-- A pass of a shutdown waits, or the shutdown returns. -/
theorem endStop_lowers {h : ℕ} {sec : Section Core Cond StopExit}
    (ht : (s.threads t).Ready (.stop h)) (hs : s.endStop t h sec = (s', e)) :
    potential W s' < potential W s := by
  unfold State.endStop at hs
  split at hs
  · cases hs
    exact move_lowers ht (by simp only [passWeight, Point.weight]; omega)
  · cases hs
    exact move_lowers ht (by simp only [passWeight, Point.weight]; omega)

theorem workerLoop_lowers (ht : (s.threads t).Ready .loop)
    (hs : (workerLoop s.core os).bind (s.endLoop t pick) = some (s', e)) :
    potential W s' < potential W s := by
  unfold workerLoop at hs
  split_ifs at hs with h₀ h₁ h₂
  · cases hs
  · obtain ⟨rfl, rfl⟩ := by simpa [State.endLoop] using hs
    exact move_lowers ht (by simp only [passWeight, Point.weight]; omega)
  · simp only [Option.bind_some, State.endLoop, Option.map_eq_some_iff, Prod.mk.injEq] at hs
    obtain ⟨s₁, hs₁, rfl, -⟩ := hs
    refine settle_lowers ht hs₁ ?_
    simp only [wakeWeight_cons, wakeWeight_nil, Notify.weight, passWeight, Point.weight]
    omega
  · simp only [Option.bind_eq_some_iff, Option.map_eq_some_iff] at hs
    obtain ⟨_, ⟨i, hi, rfl⟩, hs⟩ := hs
    simp only [State.endLoop, Option.map_eq_some_iff, Prod.mk.injEq] at hs
    obtain ⟨s₁, hs₁, rfl, -⟩ := hs
    have hc : s.core.ring.count ≠ 0 := by simpa using h₂
    refine settle_lowers ht hs₁ ?_
    simp only [wakeWeight_cons, wakeWeight_nil, Notify.weight, passWeight, Point.weight,
      RingBuffer.count_pop]
    omega

theorem waitWorkers_lowers {status : ℤ} (ht : (s.threads t).Ready (.drain status))
    (hs : (waitWorkers s.core os).map (s.endDrain t status) = some (s', e)) :
    potential W s' < potential W s := by
  obtain ⟨sec, -, hs⟩ := Option.map_eq_some_iff.1 hs
  unfold State.endDrain at hs
  split_ifs at hs
  · cases hs
    exact move_lowers ht (by simp only [passWeight, Point.weight]; omega)
  · cases hs
    exact move_lowers ht (by simp only [passWeight, Point.weight]; omega)

/-- A worker is counted before it is created, or is taken back. -/
theorem countWorker_lowers {k : ℤ} {q : Point} (ht : (s.threads t).Ready p)
    (hs : ((countWorker s.core k os).bind fun sec =>
      (s.settle t (.run q) none sec).map fun s' => (s', ([] : List (Event T)))) = some (s', e))
    (hlt : q.weight (Fintype.card T) W < p.weight (Fintype.card T) W) :
    potential W s' < potential W s := by
  obtain ⟨sec, hsec, hs⟩ := Option.bind_eq_some_iff.1 hs
  obtain ⟨s₁, hs₁, hs⟩ := Option.map_eq_some_iff.1 hs
  obtain ⟨rfl, -⟩ := Prod.mk.inj hs
  unfold countWorker at hsec
  split_ifs at hsec
  cases hsec
  refine settle_lowers ht hs₁ ?_
  simp only [wakeWeight_nil, passWeight]
  omega

omit [DecidableEq T] in
theorem closeCore_wakes (core : Core) (os : Os) :
    wakeWeight (Fintype.card T) (closeCore core os).wakes ≤ 2 * Fintype.card T ∧
      (closeCore core os).core.ring = core.ring := by
  unfold closeCore
  split_ifs
  · exact ⟨Nat.zero_le _, rfl⟩
  · refine ⟨?_, rfl⟩
    unfold wakeBoth
    split_ifs <;> simp [Notify.weight] <;> omega

/-- A step that closes the core, as far as it gets. -/
theorem closeCore_lowers {q : Point} (ht : (s.threads t).Ready p)
    (hs : s.settle t (.run q) none (closeCore s.core os) = some s')
    (hlt : weight (Fintype.card T) W (.run q) + 2 * Fintype.card T <
      p.weight (Fintype.card T) W) : potential W s' < potential W s := by
  obtain ⟨hwakes, hring⟩ := closeCore_wakes (T := T) s.core os
  refine settle_lowers ht hs ?_
  rw [hring]
  omega

omit [Fintype T] [DecidableEq T] in
theorem createWeight_succ {workers index : ℕ} (h : index < workers) :
    createWeight n workers index = createWeight n workers (index + 1) + (n + 6) := by
  unfold createWeight
  rw [show workers - index = workers - (index + 1) + 1 by omega, Nat.succ_mul]
  omega

omit [DecidableEq T] in
/-- A step that changes neither the queue nor the number of workers to be started. -/
theorem lowers_of_weigh (hc : s'.core.ring.count = s.core.ring.count)
    (hst : s'.starting = s.starting)
    (hw : weigh (weight (Fintype.card T) W) s'.threads <
      weigh (weight (Fintype.card T) W) s.threads) : potential W s' < potential W s := by
  unfold potential
  rw [hc, hst]
  omega

theorem advance_lowers {status : ℤ} (hI : Inv N t₀ s)
    (hs : s.advance t status = some (s', e)) :
    potential N.workers s' < potential N.workers s := by
  have hcount := hI.core.workerCount
  unfold State.advance at hs
  split at hs
  · rename_i i ht
    cases hs
    exact move_lowers (.inl ht) (by simp only [passWeight, Point.weight]; omega)
  · rename_i i ht
    cases hs
    exact move_lowers (.inl ht) (by simp only [passWeight, Point.weight]; omega)
  · rename_i i ht
    cases hs
    exact move_lowers (.inl ht) (by simp only [passWeight, Point.weight]; omega)
  · rename_i ht
    rw [State.unref_eq] at hs
    cases hs
    have hw := weigh_move (n := Fintype.card T) (W := N.workers) (x := .run .exited) (.inl ht)
    refine lowers_of_weigh rfl rfl ?_
    simp only [passWeight, Point.weight] at hw
    change weigh _ (s.move t (.run .exited)).threads < _
    omega
  · rename_i i ht
    split_ifs at hs with hi
    · cases hs
      have hw := weigh_move (n := Fintype.card T) (W := N.workers) (x := .run (.count i))
        (.inl ht)
      refine lowers_of_weigh rfl rfl ?_
      simp only [passWeight, Point.weight] at hw
      rw [createWeight_succ (by omega)] at hw
      change weigh _ (s.move t (.run (.count i))).threads < _
      omega
    · cases hs
      have hw := weigh_move (n := Fintype.card T) (W := N.workers) (x := .run (.idle .client))
        (.inl ht)
      refine lowers_of_weigh rfl rfl ?_
      simp only [passWeight, Point.weight, createWeight] at hw
      change weigh _ (s.move t (.run (.idle .client))).threads < _
      omega
  · rename_i i ht
    split_ifs at hs with hst
    · cases hs
      have hw := weigh_move (n := Fintype.card T) (W := N.workers) (x := .run (.create (i + 1)))
        (.inl ht)
      simp only [passWeight, Point.weight] at hw
      change weigh _ (s.move t (.run (.create (i + 1)))).threads + 5 * s.core.ring.count +
        (Fintype.card T + 3) * (s.starting + 1) < _
      unfold potential
      rw [Nat.mul_succ]
      omega
    · cases hs
      exact move_lowers (.inl ht) (by simp only [passWeight, Point.weight, createWeight]; omega)
  · rename_i st ht
    rw [State.unref_eq] at hs
    cases hs
    have hw := weigh_move (n := Fintype.card T) (W := N.workers) (x := .run (.abandon st)) (.inl ht)
    refine lowers_of_weigh rfl rfl ?_
    simp only [passWeight, Point.weight] at hw
    change weigh _ (s.move t (.run (.abandon st))).threads < _
    omega
  · rename_i st ht
    rw [State.unref_eq] at hs
    cases hs
    have hw := weigh_move (n := Fintype.card T) (W := N.workers) (x := .run (.idle .client))
      (.inl ht)
    refine lowers_of_weigh rfl rfl ?_
    simp only [passWeight, Point.weight] at hw
    change weigh _ (s.move t (.run (.idle .client))).threads < _
    omega
  · cases hs

/-- **Every own step lowers the potential**, whatever the primitives return. -/
theorem step_lowers {a : Action T} (hI : Inv N t₀ s) (hs : step s a = some (s', e))
    (ha : a.own = true) : potential N.workers s' < potential N.workers s := by
  cases a with
  | start t =>
    simp only [step] at hs
    split_ifs at hs with ht
    cases hs
    have hw := weigh_move (n := Fintype.card T) (W := N.workers) (x := .run .loop) (.inl ht.1)
    simp only [passWeight, Point.weight] at hw
    obtain ⟨m, hm⟩ : ∃ m, s.starting = m + 1 := ⟨s.starting - 1, by omega⟩
    change weigh _ (s.move t (.run .loop)).threads + 5 * s.core.ring.count +
      (Fintype.card T + 3) * (s.starting - 1) < _
    unfold potential
    rw [hm, Nat.add_sub_cancel, Nat.mul_succ]
    omega
  | lock t os pick =>
    simp only [step] at hs
    split at hs
    · rename_i c h i block ht
      exact submitTask_lowers (.inl ht) hs
    · rename_i h ht
      unfold State.endClose at hs
      split_ifs at hs with hx
      · obtain ⟨s₁, hs₁, hs⟩ := Option.map_eq_some_iff.1 hs
        cases hs
        exact closeCore_lowers (.inl ht) hs₁ (by simp only [passWeight, Point.weight]; omega)
      · obtain ⟨s₁, hs₁, hs⟩ := Option.map_eq_some_iff.1 hs
        cases hs
        exact closeCore_lowers (.inl ht) hs₁ (by simp only [passWeight, Point.weight]; omega)
    · rename_i h ht
      exact endStop_lowers (.inl ht) (Option.some.inj hs)
    · rename_i ht
      exact workerLoop_lowers (.inl ht) hs
    · rename_i i ht
      exact countWorker_lowers (.inl ht) hs (by simp only [Point.weight]; omega)
    · rename_i st ht
      exact countWorker_lowers (.inl ht) hs (by simp only [Point.weight]; omega)
    · rename_i st ht
      split_ifs at hs with hx
      obtain ⟨s₁, hs₁, hs⟩ := Option.map_eq_some_iff.1 hs
      cases hs
      exact closeCore_lowers (.inl ht) hs₁ (by simp only [passWeight, Point.weight]; omega)
    · rename_i st ht
      exact waitWorkers_lowers (.inl ht) hs
    · cases hs
  | resume t os pick =>
    simp only [step] at hs
    split at hs
    · cases hs
    · rename_i w c h i block hne ht
      exact submitWoken_lowers (.inr ⟨w, hne, ht⟩) hs
    · rename_i w h hne ht
      exact endStop_lowers (.inr ⟨w, hne, ht⟩) (Option.some.inj hs)
    · rename_i w hne ht
      exact workerLoop_lowers (.inr ⟨w, hne, ht⟩) hs
    · rename_i w st hne ht
      exact waitWorkers_lowers (.inr ⟨w, hne, ht⟩) hs
    · cases hs
  | advance t status => exact advance_lowers hI hs
  | _ => cases ha

/-! ## Other steps raise it by a constant -/

omit [DecidableEq T] in
/-- A step that changes neither the queue nor the number of workers to be started. -/
theorem raises_of_weigh {c : ℕ} (hc : s'.core.ring.count = s.core.ring.count)
    (hst : s'.starting = s.starting)
    (hw : weigh (weight (Fintype.card T) W) s'.threads ≤
      weigh (weight (Fintype.card T) W) s.threads + c) : potential W s' ≤ potential W s + c := by
  unfold potential
  rw [hc, hst]
  omega

/-- The constant. -/
def callWeight (n : ℕ) : ℕ := 2 * n + 7

omit [DecidableEq T] in
theorem raises_refl : potential W s ≤ potential W s + callWeight (Fintype.card T) := by omega

/-- The end of a finalizer. -/
theorem finalize_raises {h : ℕ}
    (hs : (finalize s.core os).bind
      (State.endFinalize { s with handles := s.handles.erase h } t) = some (s', e)) :
    potential W s' ≤ potential W s + callWeight (Fintype.card T) := by
  obtain ⟨sec, hsec, -⟩ := Option.bind_eq_some_iff.1 hs
  obtain rfl := finalize_os hsec
  have hpos : 0 < s.core.handles := by
    by_contra hn
    simp [finalize, not_lt.1 hn] at hs
  rw [finalize_ok hpos, Option.bind_some] at hs
  obtain ⟨s₁, hs₁, hs⟩ := Option.map_eq_some_iff.1 hs
  rw [State.unref_eq] at hs
  obtain ⟨rfl, -⟩ := Prod.mk.inj hs
  obtain ⟨f, hf, rfl⟩ := Option.map_eq_some_iff.1 hs₁
  rw [Function.update_eq_self] at hf
  refine raises_of_weigh rfl rfl ?_
  have hd := weigh_deliver (gentle_passWeight (Point.weight (Fintype.card T) W)) hf
  refine hd.trans (Nat.add_le_add_left ?_ _)
  unfold callWeight
  split_ifs
  · simp only [wakeWeight_cons, wakeWeight_nil, Notify.weight]
    omega
  · exact Nat.zero_le _

/-- **No step raises the potential by more than the constant**, whatever the primitives return. -/
theorem step_raises {a : Action T} (hs : step s a = some (s', e)) (ha : a.own = false) :
    potential W s' ≤ potential W s + callWeight (Fintype.card T) := by
  cases a with
  | arrive t =>
    simp only [step] at hs
    split_ifs at hs with ht
    cases hs
    have hw := weigh_move (n := Fintype.card T) (W := W) (x := .run (.idle .client)) (.inl ht)
    simp only [passWeight, Point.weight] at hw
    exact raises_of_weigh rfl rfl (by omega)
  | callSubmit t h block injected =>
    simp only [step] at hs
    split at hs
    · rename_i c ht
      split_ifs at hs with hh h₂
      · cases hs
        exact raises_of_weigh rfl rfl (Nat.le_add_right _ _)
      · cases hs
        have hw := weigh_move (n := Fintype.card T) (W := W)
          (x := .run (.submit c h s.tasks block)) (.inl ht)
        change _ + _ = _ + (Point.submit c h s.tasks block).weight _ _ at hw
        rw [weight_submit] at hw
        refine raises_of_weigh rfl rfl ?_
        change weigh _ (s.move t (.run (.submit c h s.tasks block))).threads ≤ _
        unfold callWeight
        omega
    · cases hs
  | callShutdown t h injected =>
    simp only [step] at hs
    split at hs
    · rename_i c ht
      split_ifs at hs with hh h₂ ho
      · cases hs
        exact raises_refl
      · cases hs
        exact raises_refl
      · cases hs
        have hw := weigh_move (n := Fintype.card T) (W := W) (x := .run (.shutdown h)) (.inl ht)
        simp only [passWeight, Point.weight] at hw
        refine raises_of_weigh rfl rfl ?_
        unfold callWeight
        omega
    · cases hs
  | spurious t =>
    simp only [step] at hs
    split at hs
    · rename_i p ht
      cases hs
      have hw := weigh_spurious (Point.weight (Fintype.card T) W) ht
      refine raises_of_weigh rfl rfl (hw.trans (Nat.add_le_add_left ?_ _))
      unfold callWeight
      omega
    · cases hs
  | close t h os =>
    simp only [step] at hs
    split at hs
    · rename_i c ht
      split_ifs at hs with hh
      obtain ⟨s₁, hs₁, hs⟩ := Option.map_eq_some_iff.1 hs
      obtain ⟨rfl, -⟩ := Prod.mk.inj hs
      have hw := State.weigh_settle (n := Fintype.card T) (W := W) (.inl ht) hs₁
      change _ + _ ≤ _ + (Point.idle c).weight _ _ + _ at hw
      obtain ⟨hcore, hstart⟩ := State.settle_core hs₁
      obtain ⟨hwakes, hring⟩ := closeCore_wakes (T := T) s.core os
      refine raises_of_weigh (by rw [hcore, hring]) hstart ?_
      unfold callWeight
      omega
    · cases hs
  | isClosed t h os =>
    simp only [step] at hs
    split at hs
    · split_ifs at hs with hh
      cases hs
      exact raises_refl
    · cases hs
  | pendingCount t h os =>
    simp only [step] at hs
    split at hs
    · split_ifs at hs with hh
      cases hs
      exact raises_refl
    · cases hs
  | share t h h' os =>
    simp only [step] at hs
    split at hs
    · split_ifs at hs with hh
      obtain ⟨sec, hsec, hs⟩ := Option.map_eq_some_iff.1 hs
      cases hs
      have hring : sec.core.ring = s.core.ring := by
        unfold share at hsec
        split_ifs at hsec <;>
          · cases hsec
            rfl
      exact raises_of_weigh (congrArg RingBuffer.count hring) rfl (Nat.le_add_right _ _)
    · cases hs
  | drop t h os =>
    simp only [step] at hs
    split at hs
    · split_ifs at hs with hh
      exact finalize_raises hs
    · cases hs
  | _ => cases ha

theorem step_inv {a : Action T} (hI : Inv N t₀ s) (hs : step s a = some (s', e)) :
    Inv N t₀ s' := by
  rcases step_cases (fun t => (hI.pcs t).wait) hs with hm | hf
  · exact hm.inv hI
  · exact hf.inv hI

theorem hasPotential (N : Size) (t₀ : T) (G : State T → Action T → State T → Prop) :
    Potential step G Action.own (Inv N t₀) (potential N.workers)
      (callWeight (Fintype.card T)) where
  keep := fun hI hs _ => step_inv hI hs
  lowers := fun hI hs _ ha => step_lowers hI hs ha
  raises := fun _ hs _ ha => step_raises hs ha

/-! ## Who can take a step -/

/-- The points at which a thread has no step of its own to take: it is in no operation. -/
def Point.Rests (p : Point) : Prop := p = .absent ∨ p = .idle .client ∨ p = .exited

theorem submitLoop_enabled (s : State T) (t : T) (c : Caller) (h i : ℕ) (block : Bool) :
    ∃ pick r, s.endSubmit t c h i block pick (submitLoop s.core i block {}) = some r := by
  simp only [submitLoop, ne_eq, not_true_eq_false, if_false]
  split_ifs
  · exact ⟨none, _, rfl⟩
  · exact ⟨none, _, rfl⟩
  · exact ⟨none, _, rfl⟩
  · obtain ⟨pick, g, hg⟩ := exists_signal Point.cond .notEmpty
      (Function.update s.threads t (.run (.idle c)))
    refine ⟨pick, ?_⟩
    simp only [State.endSubmit, State.settle, deliver_signal, hg, Option.map_some]
    exact ⟨_, rfl⟩

theorem submitTask_enabled (s : State T) (t : T) (c : Caller) (h i : ℕ) (block : Bool) :
    ∃ pick r, s.endSubmit t c h i block pick (submitTask s.core i block c.own {}) = some r := by
  simp only [submitTask, ne_eq, not_true_eq_false, if_false]
  split_ifs
  · exact ⟨none, _, rfl⟩
  · exact submitLoop_enabled s t c h i block

theorem workerLoop_enabled (hI : Inv N t₀ s) (t : T) :
    ∃ pick r, (workerLoop s.core {}).bind (s.endLoop t pick) = some r := by
  simp only [workerLoop, ne_eq, not_true_eq_false, if_false]
  split_ifs with h₁ h₂
  · exact ⟨none, _, rfl⟩
  · exact ⟨none, _, rfl⟩
  · obtain ⟨i, hi, -⟩ := RingBuffer.exists_pop hI.core.ring (by simpa using h₂)
    obtain ⟨pick, g, hg⟩ := exists_signal Point.cond .notFull
      (Function.update s.threads t (.run (.fetched i)))
    refine ⟨pick, ?_⟩
    simp only [hi, Option.map_some, Option.bind_some, State.endLoop, State.settle, deliver_signal,
      hg]
    exact ⟨_, rfl⟩

theorem able_advance {r : State T × List (Event T)} (hs : s.advance t 0 = some r) :
    Able step Assumed Action.own s :=
  ⟨.advance t 0, r.1, r.2, rfl, hs, rfl, rfl⟩

theorem able_lock (pick : Option T) {r : State T × List (Event T)}
    (hs : step s (.lock t {} pick) = some r) : Able step Assumed Action.own s :=
  ⟨.lock t {} pick, r.1, r.2, rfl, hs, rfl, rfl⟩

theorem able_resume (pick : Option T) {r : State T × List (Event T)}
    (hs : step s (.resume t {} pick) = some r) : Able step Assumed Action.own s :=
  ⟨.resume t {} pick, r.1, r.2, rfl, hs, rfl, rfl⟩

/-- A thread that runs, in an operation or in a worker, can take its next step. -/
theorem able_of_run (hI : Inv N t₀ s) (ht : s.threads t = .run p)
    (hp : ¬p.Rests) : Able step Assumed Action.own s := by
  cases p with
  | absent => exact absurd (.inl rfl) hp
  | exited => exact absurd (.inr (.inr rfl)) hp
  | idle c =>
    cases c with
    | client => exact absurd (.inr (.inl rfl)) hp
    | task i => exact able_advance (t := t) (by rw [State.advance, ht])
  | submit c h i block =>
    obtain ⟨pick, r, hr⟩ := submitTask_enabled s t c h i block
    exact able_lock (t := t) pick (by simp only [step, ht]; exact hr)
  | shutdown h =>
    exact able_lock (t := t) none (by
      simp only [step, ht, State.endClose, if_neg (not_not.2 closeCore_exit), settle_closeCore]
      rfl)
  | stop h => exact able_lock (t := t) none (by simp only [step, ht]; rfl)
  | loop =>
    obtain ⟨pick, r, hr⟩ := workerLoop_enabled hI t
    exact able_lock (t := t) pick (by simp only [step, ht]; exact hr)
  | fetched i => exact able_advance (t := t) (by rw [State.advance, ht])
  | release i => exact able_advance (t := t) (by rw [State.advance, ht])
  | leave => exact able_advance (t := t) (by rw [State.advance, ht])
  | create i =>
    by_cases hi : i < s.core.workerCount
    · exact able_advance (t := t) (by simp only [State.advance, ht, if_pos hi]; rfl)
    · exact able_advance (t := t) (by simp only [State.advance, ht, if_neg hi]; rfl)
  | count i => exact able_lock (t := t) none (by simp only [step, ht]; rfl)
  | spawn i => exact able_advance (t := t) (by simp only [State.advance, ht, if_true]; rfl)
  | uncount st => exact able_lock (t := t) none (by simp only [step, ht]; rfl)
  | unref st => exact able_advance (t := t) (by rw [State.advance, ht])
  | abandon st =>
    exact able_lock (t := t) none (by
      simp only [step, ht, if_neg (not_not.2 closeCore_exit), settle_closeCore]
      rfl)
  | drain st => exact able_lock (t := t) none (by simp only [step, ht]; rfl)
  | giveUp st => exact able_advance (t := t) (by simp only [State.advance, ht]; rfl)

/-- A thread whose wait is over can go on. -/
theorem able_of_woken (hI : Inv N t₀ s) {w : Wake} (ht : s.threads t = .wait w p)
    (hw : w ≠ .asleep) : Able step Assumed Action.own s := by
  have hwait := (hI.pcs t).wait w p ht
  cases p with
  | submit c h i block =>
    obtain ⟨pick, r, hr⟩ := submitLoop_enabled s t c h i block
    refine able_resume (t := t) pick (r := r) ?_
    cases w with
    | asleep => exact absurd rfl hw
    | notified => simp only [step, ht]; exact hr
    | spurious => simp only [step, ht]; exact hr
  | stop h =>
    cases w with
    | asleep => exact absurd rfl hw
    | notified => exact able_resume (t := t) none (by simp only [step, ht]; rfl)
    | spurious => exact able_resume (t := t) none (by simp only [step, ht]; rfl)
  | loop =>
    obtain ⟨pick, r, hr⟩ := workerLoop_enabled hI t
    refine able_resume (t := t) pick (r := r) ?_
    cases w with
    | asleep => exact absurd rfl hw
    | notified => simp only [step, ht]; exact hr
    | spurious => simp only [step, ht]; exact hr
  | drain st =>
    cases w with
    | asleep => exact absurd rfl hw
    | notified => exact able_resume (t := t) none (by simp only [step, ht]; rfl)
    | spurious => exact able_resume (t := t) none (by simp only [step, ht]; rfl)
  | _ => cases hwait

/-- **In a stuck pool every thread is at rest.** -/
theorem rested_of_stuck (hI : Inv N t₀ s) (hst : Stuck step Assumed Action.own s) (t : T) :
    (s.threads t).Rested Point.Rests :=
  hst.rested (fun _ _ => able_of_run hI) (fun _ _ _ => able_of_woken hI) t

/-- Who takes a step of its own is not at rest, if no worker is to be started. -/
theorem not_rested_of_own {a : Action T} (hstart : s.starting = 0) (ha : a.own = true)
    (hs : step s a = some (s', e)) : ∃ t, ¬(s.threads t).Rested Point.Rests := by
  cases a with
  | start t =>
    simp only [step] at hs
    split_ifs at hs with ht
    omega
  | lock t os pick =>
    refine ⟨t, ?_⟩
    rintro (⟨p, rfl | rfl | rfl, h⟩ | ⟨p, h⟩) <;> simp [step, h] at hs
  | resume t os pick =>
    refine ⟨t, ?_⟩
    rintro (⟨p, rfl | rfl | rfl, h⟩ | ⟨p, h⟩) <;> simp [step, h] at hs
  | advance t status =>
    refine ⟨t, ?_⟩
    rintro (⟨p, rfl | rfl | rfl, h⟩ | ⟨p, h⟩) <;> simp [step, State.advance, h] at hs
  | _ => cases ha

/-! ## Who waits for the workers to stop -/

/-- The thread waits for the workers to stop. -/
def Point.stopping : Point → Bool
  | stop _ => true
  | drain _ => true
  | _ => false

/-- A thread waits for the workers to stop only after the pool was closed. -/
def Stopping (s : State T) : Prop :=
  ∀ t, (s.threads t).point.stopping = true → s.core.accepting = false

omit [Fintype T] in
/-- A thread moves to `x`, and others are woken. -/
theorem Stopping.step {f : T → Pc Point} (h : Stopping s)
    (hw : Woken (Function.update s.threads t x) f) (hf : s'.threads = f)
    (hacc : s.core.accepting = false → s'.core.accepting = false)
    (hx : x.point.stopping = true → s'.core.accepting = false) : Stopping s' := by
  intro u hu
  rw [hf, hw.point u] at hu
  by_cases hut : u = t
  · subst hut
    rw [Function.update_self] at hu
    exact hx hu
  · rw [Function.update_of_ne hut] at hu
    exact hacc (h u hu)

omit [Fintype T] [DecidableEq T] in
theorem Quiet.stopping (hq : Quiet s t p x e) (hx : x.point.stopping = true) :
    p.stopping = true := by
  cases hq <;> first | exact hx | rfl

theorem Move.stopping (hm : Move s s' e) (hI : Inv N t₀ s) (h : Stopping s) : Stopping s' := by
  have hacc := fun ha => (hm.closed_stays hI ha).1
  cases hm with
  | quiet t p x e ht hq =>
    refine h.step (.refl _) rfl hacc fun hx => h t ?_
    rw [ht.point]
    exact hq.stopping hx
  | spurious t p ht =>
    refine h.step (.refl _) rfl hacc fun hx => h t ?_
    rw [ht]
    exact hx
  | callSubmit t c k block ht hh => exact h.step (.refl _) rfl hacc nofun
  | submitted t c k i block f ht ha hf hs => exact h.step (.of_signalled hs) rfl hacc nofun
  | closed t p q e ht hp => exact h.step (woken_wakeAll _) rfl hacc fun _ => rfl
  | fetch t i f ht hc hi hs => exact h.step (.of_signalled hs) rfl hacc nofun
  | leave t ht hc ha => exact h.step (.of_broadcast _ _) rfl hacc nofun
  | unref t p q ht hp => exact h.step (.refl _) rfl hacc (by cases hp <;> nofun)
  | gaveUp t st ht => exact h.step (.refl _) rfl hacc nofun
  | start t ht hs => exact h.step (.refl _) rfl hacc nofun
  | counting t i ht hi => exact h.step (.refl _) rfl hacc nofun
  | created t i ht hi => exact h.step (.refl _) rfl hacc nofun
  | counted t i ht => exact h.step (.refl _) rfl hacc nofun
  | spawned t i ht => exact h.step (.refl _) rfl hacc nofun
  | uncounted t st ht => exact h.step (.refl _) rfl hacc nofun
  | share t c k k' ht hh hh' hm' => exact fun u hu => hacc (h u hu)
  | drop t k hh hu' =>
    intro u hu
    refine hacc (h u ?_)
    have hw : Woken s.threads
        (if s.core.dropHandle.handles = 0 then wakeAll s.threads else s.threads) := by
      split_ifs
      · exact woken_wakeAll _
      · exact .refl _
    rwa [← hw.point u]

theorem stopping_of_exec {es : List (Event T)} (h : Exec step Assumed (State.init N t₀) es s) :
    Stopping s := by
  refine (h.stateInvariant (I := fun s => Inv N t₀ s ∧ Stopping s) ⟨inv_init N t₀, ?_⟩
    fun ⟨hI, hst⟩ hs hG => ?_).2
  · intro t ht
    change (if t = t₀ then Point.create 0 else .absent).stopping = true at ht
    split_ifs at ht <;> cases ht
  · have hm := step_move (fun t => (hI.pcs t).wait) hs hG.1 hG.2
    exact ⟨hm.inv hI, hm.stopping hI hst⟩

/-! ## Stuck pools -/

/-- Nothing is left to do. -/
structure Settled (es : List (Event T)) (s : State T) : Prop where
  threads : ∀ t, s.threads t = .run .absent ∨ s.threads t = .run (.idle .client) ∨
    s.threads t = .run .exited ∨ s.threads t = .wait .asleep .loop ∧ s.core.accepting = true
  empty : s.core.ring.count = 0
  done : ∀ i ∈ es.filterMap Event.accepted, Done es i
  stopped : s.core.accepting = false → s.core.liveWorkers = 0 ∧ (s.freed = true ↔ s.handles = ∅)

variable {es : List (Event T)}

omit [DecidableEq T] in
/-- Nobody has been notified. -/
theorem num_notified_of_rested (hr : ∀ t, (s.threads t).Rested Point.Rests) (c : Cond) :
    num (Pc.notifiedOn Point.cond c) s.threads = 0 :=
  num_eq_zero.2 fun t => (hr t).notifiedOn _ c

omit [Fintype T] [DecidableEq T] in
/-- A worker at rest sleeps or is gone. -/
theorem worker_of_rested (hr : (s.threads t).Rested Point.Rests)
    (hok : (s.threads t).WaitsAt Point.Waits) (hw : (s.threads t).point.worker = true) :
    s.threads t = .wait .asleep .loop ∨ s.threads t = .run .exited := by
  rcases hr with ⟨p, rfl | rfl | rfl, h⟩ | ⟨p, h⟩
  · rw [h] at hw
    cases hw
  · rw [h] at hw
    cases hw
  · exact .inr h
  · have hwait := hok _ p h
    rw [h] at hw
    rw [h, Point.eq_loop_of_waits hwait hw]
    exact .inl rfl

omit [DecidableEq T] in
/-- **A stuck pool that accepts tasks**: nobody sleeps but workers, on an empty queue. -/
theorem asleep_of_accepting (hI : Inv N t₀ s) (ha : Awake s) (hst : Stopping s)
    (hr : ∀ t, (s.threads t).Rested Point.Rests) (hs : s.starting = 0)
    (hacc : s.core.accepting = true) (ht : s.threads t = .wait .asleep p) : p = .loop := by
  have hwait := (hI.pcs t).wait _ p ht
  cases p with
  | loop => rfl
  | stop h =>
    have hclosed := hst t (by rw [ht]; rfl)
    rw [hacc] at hclosed
    cases hclosed
  | drain st =>
    have hclosed := hst t (by rw [ht]; rfl)
    rw [hacc] at hclosed
    cases hclosed
  | submit c h i block =>
    exfalso
    -- the queue would be full
    have hfull := ha.notFull (num_pos.2 ⟨t, by rw [ht]; rfl⟩)
    rw [num_notified_of_rested hr, Core.freeSlots, if_pos hacc, hI.core.capacity] at hfull
    have hcap := N.capacity_pos
    -- and there is a worker, which does not take from it
    have hmem := (hI.pcs t).handle h (by rw [ht]; rfl)
    have hmade := hI.made (hI.result_of_mem hmem)
    have hpos := N.workers_pos
    rw [State.hired, hs] at hmade
    obtain ⟨u, hu⟩ := numAt_pos.1 (show 0 < numAt Point.worker s.threads by omega)
    rcases worker_of_rested (hr u) (hI.pcs u).wait hu with hloop | hgone
    · have hempty := ha.notEmpty (num_pos.2 ⟨u, by rw [hloop]; rfl⟩)
      rw [num_notified_of_rested hr] at hempty
      omega
    · have hleft := (hI.pcs u).left (by rw [hgone]; rfl)
      rw [hacc] at hleft
      cases hleft.1
  | _ => cases hwait

omit [DecidableEq T] in
/-- **A stuck pool that was closed**: nobody sleeps. -/
theorem awake_of_closed (hI : Inv N t₀ s) (ha : Awake s)
    (hr : ∀ t, (s.threads t).Rested Point.Rests) (hs : s.starting = 0)
    (hacc : s.core.accepting = false) :
    s.core.liveWorkers = 0 ∧ ∀ t p, s.threads t ≠ .wait .asleep p := by
  have hlive : s.alive = 0 := by
    rw [State.alive, hs]
    refine numAt_eq_zero.2 fun t => ?_
    rcases hr t with ⟨p, rfl | rfl | rfl, h⟩ | ⟨p, h⟩
    · rw [h]
      rfl
    · rw [h]
      rfl
    · rw [h]
      rfl
    · by_contra hl
      rw [h] at hl
      have hwait := (hI.pcs t).wait _ p h
      have hsleep := ha.closed hacc .notEmpty (by simp) t
      rw [h] at hsleep
      cases p with
      | loop => cases hsleep
      | submit c k i block =>
        cases c with
        | client => exact hl rfl
        | task j => cases hwait
      | stop k => exact hl rfl
      | drain st => exact hl rfl
      | _ => cases hwait
  have hzero := hI.liveWorkers_eq_zero.2 hlive
  refine ⟨hzero, fun t p ht => ?_⟩
  have hwait := (hI.pcs t).wait _ p ht
  have h₁ := ha.closed hacc .notEmpty (by simp) t
  have h₂ := ha.closed hacc .notFull (by simp) t
  have h₃ := ha.stopped hzero t
  rw [ht] at h₁ h₂ h₃
  cases p with
  | loop => cases h₁
  | submit c k i block => cases h₂
  | stop k => cases h₃
  | drain st => cases h₃
  | _ => cases hwait

/-- **A stuck pool is settled**, if all created workers have started. -/
theorem settled_of_stuck (h : Exec step Assumed (State.init N t₀) es s)
    (hst : Stuck step Assumed Action.own s) (hs : s.starting = 0) : Settled es s := by
  have hI := inv_of_exec h
  have ha := awake_of_exec h
  have hr := rested_of_stuck hI hst
  have hthreads : ∀ t, s.threads t = .run .absent ∨ s.threads t = .run (.idle .client) ∨
      s.threads t = .run .exited ∨ s.threads t = .wait .asleep .loop ∧
        s.core.accepting = true := by
    intro t
    rcases hr t with ⟨p, rfl | rfl | rfl, h₁⟩ | ⟨p, h₁⟩
    · exact .inl h₁
    · exact .inr (.inl h₁)
    · exact .inr (.inr (.inl h₁))
    · cases hacc : s.core.accepting with
      | true =>
        obtain rfl := asleep_of_accepting hI ha (stopping_of_exec h) hr hs hacc h₁
        exact .inr (.inr (.inr ⟨h₁, rfl⟩))
      | false => exact absurd h₁ ((awake_of_closed hI ha hr hs hacc).2 t p)
  have hnone : ∀ {q : Point → Bool}, q .absent = false → q (.idle .client) = false →
      q .exited = false → q .loop = false → numAt q s.threads = 0 := by
    intro q q₁ q₂ q₃ q₄
    refine numAt_eq_zero.2 fun t => ?_
    rcases hthreads t with h₁ | h₁ | h₁ | ⟨h₁, -⟩ <;> rw [h₁]
    exacts [q₁, q₂, q₃, q₄]
  have hempty : s.core.ring.count = 0 := by
    by_cases hres : s.result = some 0
    · refine State.Rest.count_eq_zero ⟨hres, hs, fun t ht => ?_⟩ hI ha
      rcases worker_of_rested (hr t) (hI.pcs t).wait ht with hloop | hgone
      · exact .inl (by rw [hloop]; rfl)
      · exact .inr (by rw [hgone]; rfl)
    · exact (hI.unmade hres).2
  refine ⟨hthreads, hempty, fun i hi => (books_of_exec h).done hempty (hnone rfl rfl rfl rfl)
    (hnone rfl rfl rfl rfl) (hnone rfl rfl rfl rfl) hi, fun hacc => ?_⟩
  obtain ⟨hlive, hawake⟩ := awake_of_closed hI ha hr hs hacc
  refine ⟨hlive, ?_⟩
  have hholds : numAt Point.holds s.threads = 0 := by
    refine numAt_eq_zero.2 fun t => ?_
    rcases hthreads t with h₁ | h₁ | h₁ | ⟨h₁, -⟩
    · rw [h₁]
      rfl
    · rw [h₁]
      rfl
    · rw [h₁]
      rfl
    · exact absurd h₁ (hawake t _)
  rw [hI.freed, State.owners, hholds, hnone rfl rfl rfl rfl, hs, ← Finset.card_eq_zero]
  exact Iff.rfl

omit [DecidableEq T] in
/-- The potential at the start. -/
theorem potential_init [DecidableEq T] (N : Size) (t₀ : T) :
    potential N.workers (State.init N t₀) =
      N.workers * (Fintype.card T + 6) + callWeight (Fintype.card T) := by
  have hthreads : (State.init N t₀).threads =
      Function.update (fun _ => Pc.run Point.absent) t₀ (.run (.create 0)) := by
    funext t
    by_cases ht : t = t₀
    · subst ht
      rw [Function.update_self]
      exact congrArg Pc.run (if_pos rfl)
    · rw [Function.update_of_ne ht]
      exact congrArg Pc.run (if_neg ht)
  have hw := weigh_update (weight (Fintype.card T) N.workers)
    (fun _ : T => Pc.run Point.absent) t₀ (.run (.create 0))
  have hzero : weigh (weight (Fintype.card T) N.workers) (fun _ : T => Pc.run Point.absent) = 0 :=
    Finset.sum_eq_zero fun _ _ => rfl
  rw [hzero, ← hthreads] at hw
  change weigh _ (State.init N t₀).threads + 0 = 0 + createWeight _ _ 0 at hw
  unfold potential
  rw [Nat.add_zero, Nat.zero_add] at hw
  rw [hw]
  rfl

/-- **The pool makes progress.** In every run, whatever the primitives return, with `k` steps that
are not a thread's own (calls, also of share and drop, arrivals, and wake-ups for no reason), the
`n` threads of the pool take by themselves at most `workers * (n + 6) + (2 * n + 7) * (k + 1)`
steps. If the primitives on the mutex and the condition variables succeed and no error is injected,
then from every state that is reached such steps lead to one in which no more can be taken; and
there, once all created workers have started, every operation has returned and every accepted task
is done. The workers then sleep on the empty queue, or if the pool was closed they are gone, and the
core has been freed if no handle is left. -/
theorem thread_pool_progress (N : Size) (t₀ : T) :
    (∀ G n k es s, Paced step G Action.own (State.init N t₀) n k es s →
      n ≤ N.workers * (Fintype.card T + 6) + (2 * Fintype.card T + 7) * (k + 1)) ∧
    ∀ es s, Exec step Assumed (State.init N t₀) es s →
      (∃ m es' s', Paced step Assumed Action.own s m 0 es' s' ∧
        Stuck step Assumed Action.own s' ∧ (s'.starting = 0 → Settled (es ++ es') s')) ∧
      (Stuck step Assumed Action.own s → s.starting = 0 → Settled es s) := by
  refine ⟨fun G n k es s h => ?_, fun es s h => ⟨?_, settled_of_stuck h⟩⟩
  · have hb := (hasPotential N t₀ G).bound (inv_init N t₀) h
    rw [potential_init] at hb
    have hk : callWeight (Fintype.card T) * (k + 1) =
        callWeight (Fintype.card T) * k + callWeight (Fintype.card T) := Nat.mul_succ _ _
    change _ ≤ _ + callWeight (Fintype.card T) * (k + 1)
    omega
  · obtain ⟨m, es', s', hrun, hstuck⟩ := (hasPotential N t₀ Assumed).settles (inv_of_exec h)
    exact ⟨m, es', s', hrun, hstuck, settled_of_stuck (h.trans hrun.exec) hstuck⟩

/-- One worker and one slot: a task is submitted, called and released while its submitter shuts the
pool down and drops the handle. -/
theorem thread_pool_progress_one_worker :
    ∃ (n k : ℕ) (es : List (Event (Fin 2))) (s : State (Fin 2)),
      Paced step Assumed Action.own
        (State.init ⟨1, 1, by decide, by decide, by decide, by decide⟩ 0) n k es s ∧
      Stuck step Assumed Action.own s ∧ .ret 0 .shutdown 0 0 ∈ es ∧ Done es 0 ∧
      s.core.liveWorkers = 0 ∧ s.freed = true ∧ n ≤ 8 + 11 * (k + 1) := by
  obtain ⟨es, s, h, ht⟩ := Exec.exists_of_run step Assumed
    (State.init (T := Fin 2) ⟨1, 1, by decide, by decide, by decide, by decide⟩ 0)
    [.advance 0 0, .lock 0 {} none, .advance 0 0, .advance 0 0, .start 1, .lock 1 {} none,
      .callSubmit 0 0 true 0, .lock 0 {} (some 1), .callShutdown 0 0 0, .lock 0 {} none,
      .lock 0 {} none, .spurious 0, .resume 0 {} none, .resume 1 {} none, .advance 1 0,
      .advance 1 0, .advance 1 0, .lock 1 {} none, .resume 0 {} none, .advance 1 0, .drop 0 0 {}]
    (fun s es => decide (s.threads 0 = .run (.idle .client) ∧ s.threads 1 = .run .exited ∧
      s.starting = 0 ∧ s.core.accepting = false ∧ s.handles = ∅ ∧
      es.filterMap Event.accepted = [0] ∧ .ret 0 .shutdown 0 0 ∈ es)) (by decide +kernel)
  obtain ⟨h₀, h₁, hs, hacc, hh, hes, hret⟩ := of_decide_eq_true ht
  obtain ⟨n, k, hp⟩ := h.paced Action.own
  have hr : ∀ t, (s.threads t).Rested Point.Rests := by
    intro t
    match t with
    | 0 => exact .inl ⟨_, .inr (.inl rfl), h₀⟩
    | 1 => exact .inl ⟨_, .inr (.inr rfl), h₁⟩
  have hst : Stuck step Assumed Action.own s := stuck_of_rested hr (not_rested_of_own hs)
  obtain ⟨hbound, hsettles⟩ := thread_pool_progress (T := Fin 2)
    ⟨1, 1, by decide, by decide, by decide, by decide⟩ 0
  have hn := hbound _ _ _ _ _ hp
  obtain ⟨-, hsettled⟩ := hsettles _ _ h
  obtain ⟨-, -, hdone, hstopped⟩ := hsettled hst hs
  obtain ⟨hlive, hfreed⟩ := hstopped hacc
  exact ⟨n, k, es, s, hp, hst, hret, hdone 0 (by rw [hes]; exact List.mem_singleton_self 0), hlive,
    hfreed.2 hh, hn⟩

end NativeSync.ThreadPool
