import NativeSync.ThreadPool.Moves
import Mathlib.Tactic.Linarith

/-!
# The thread pool: its invariant

The invariant relates the counters of the core to the threads.

* `hired` counts the workers that were created, whether or not they have run or are gone; after a
  successful construction it is the size of the pool.
* `alive` counts the workers that `live_workers` counts: those that have not left their loop, and
  the one that the constructor is about to create.
* `owners` counts the references of the core: one for each handle and for each worker that has not
  given up its own, and those of the constructor.

A worker leaves its loop only when the pool does not accept tasks any more and its queue is empty,
and from then on both stay so. As a pool has a worker, its last reference can only be given up after
that.
-/

namespace NativeSync.ThreadPool

open Foundations

/-! ## Kinds of program points -/

namespace Point

/-- The thread is a worker. -/
def worker : Point → Bool
  | idle c => c.own
  | submit c .. => c.own
  | loop => true
  | fetched _ => true
  | release _ => true
  | leave => true
  | exited => true
  | _ => false

/-- The thread is, or is about to create, a worker that `live_workers` counts. -/
def live : Point → Bool
  | idle c => c.own
  | submit c .. => c.own
  | loop => true
  | fetched _ => true
  | release _ => true
  | spawn _ => true
  | uncount _ => true
  | _ => false

/-- The thread is in the constructor. -/
def creating : Point → Bool
  | create _ => true
  | count _ => true
  | spawn _ => true
  | uncount _ => true
  | unref _ => true
  | abandon _ => true
  | drain _ => true
  | giveUp _ => true
  | _ => false

/-- The thread has a reference of the core. -/
def holds : Point → Bool
  | exited => false
  | p => p.worker || p.creating

/-- The thread has a second reference of the core, for the worker it is about to create. -/
def holdsTwice : Point → Bool
  | count _ => true
  | spawn _ => true
  | uncount _ => true
  | unref _ => true
  | _ => false

/-- The worker has left its loop. -/
def left : Point → Bool
  | leave => true
  | exited => true
  | _ => false

/-- The index of the constructor's loop. -/
def index : Point → Option ℕ
  | create i => some i
  | count i => some i
  | spawn i => some i
  | _ => none

/-- The index of the worker that the constructor is about to create. -/
def pending : Point → Option ℕ
  | count i => some i
  | spawn i => some i
  | _ => none

/-- The status with which the constructor fails. -/
def failure : Point → Option ℤ
  | uncount status => some status
  | unref status => some status
  | abandon status => some status
  | drain status => some status
  | giveUp status => some status
  | _ => none

theorem creating_of_index {p : Point} {i : ℕ} (h : p.index = some i) : p.creating = true := by
  cases p <;> first | rfl | cases h

theorem live_le {p : Point} (h : p.live = true) : p.worker = true ∨ p.creating = true := by
  cases p <;> first | exact .inl h | exact .inr h

theorem holds_le {p : Point} (h : p.holds = true) : p.worker = true ∨ p.creating = true := by
  cases p <;> simp_all [holds]

theorem creating_of_holdsTwice {p : Point} (h : p.holdsTwice = true) : p.creating = true := by
  cases p <;> first | rfl | cases h

theorem holds_of_live {p : Point} (h : p.live = true) : p.holds = true := by
  cases p <;> first | rfl | cases h | (cases ‹Caller› <;> first | rfl | cases h)

theorem left_of_worker {p : Point} (h : p.worker = true) : p.live = true ∨ p.left = true := by
  cases p <;> first | exact .inl h | exact .inr h

end Point

/-- Two points are of the same kind. -/
structure SameKind (p q : Point) : Prop where
  worker : q.worker = p.worker
  live : q.live = p.live
  creating : q.creating = p.creating
  holds : q.holds = p.holds
  holdsTwice : q.holdsTwice = p.holdsTwice

variable {T : Type} {s s' : State T} {e : List (Event T)} {t t₀ : T} {p q : Point} {N : Size}

theorem Quiet.sameKind {x : Pc Point} (h : Quiet s t p x e) : SameKind p x.point := by
  cases h <;> exact ⟨rfl, rfl, rfl, rfl, rfl⟩

theorem Closing.sameKind (h : Closing t p q e) : SameKind p q := by
  cases h <;> exact ⟨rfl, rfl, rfl, rfl, rfl⟩

/-! ## The invariant -/

/-- What holds of every thread: it waits only where the code waits, uses a live handle, and in the
constructor its index is the number of workers created. A worker that has left its loop found the
queue of a closed pool empty. -/
structure PcOk (N : Size) (handles : Finset ℕ) (hired : ℕ) (core : Core) (x : Pc Point) :
    Prop where
  wait : x.WaitsAt Point.Waits
  handle : ∀ h ∈ x.point.handle, h ∈ handles
  index : ∀ i ∈ x.point.index, i = hired
  pending : ∀ i ∈ x.point.pending, i < N.workers
  failure : ∀ st ∈ x.point.failure, st ≠ 0
  left : x.point.left = true → core.accepting = false ∧ core.ring.count = 0

/-- What holds of the core alone. -/
structure CoreOk (N : Size) (core : Core) : Prop where
  capacity : core.ring.capacity = N.capacity
  ring : core.ring.Wf
  workerCount : core.workerCount = N.workers

variable [Fintype T]

/-- The number of workers created. -/
def State.hired (s : State T) : ℕ := numAt Point.worker s.threads + s.starting

/-- The number of workers that count as live. -/
def State.alive (s : State T) : ℕ := numAt Point.live s.threads + s.starting

/-- The number of references of the core. -/
def State.owners (s : State T) : ℕ :=
  s.handles.card + numAt Point.holds s.threads + numAt Point.holdsTwice s.threads + s.starting

/-- The invariant of the pool of size `N` whose constructor was called by `t₀`. -/
structure Inv (N : Size) (t₀ : T) (s : State T) : Prop where
  core : CoreOk N s.core
  pcs : ∀ t, PcOk N s.handles s.hired s.core (s.threads t)
  creator : ∀ t, (s.threads t).point.creating = true ↔ t = t₀ ∧ s.result = none
  unmade : s.result ≠ some 0 → s.handles = ∅ ∧ s.core.ring.count = 0
  hired_le : s.hired ≤ N.workers
  made : s.result = some 0 → s.hired = N.workers
  live : s.core.liveWorkers = wrap32 s.alive
  handles : s.core.handles = if s.result = some 0 then (s.handles.card : ℤ) else 1
  handles_le : s.handles.card ≤ 2147483647
  refs : s.core.refs = wrap32 s.owners
  freed : s.freed = true ↔ s.owners = 0

namespace Inv

theorem creating_le (h : Inv N t₀ s) : numAt Point.creating s.threads ≤ 1 :=
  numAt_le_one fun u hu => ((h.creator u).1 hu).1

theorem alive_lt (h : Inv N t₀ s) : s.alive < 4294967296 := by
  have h₁ : numAt Point.live s.threads ≤ _ := numAt_le_add fun _ => Point.live_le
  have h₂ := h.creating_le
  have h₃ := h.hired_le
  have h₄ := N.workers_le
  unfold State.alive
  unfold State.hired at h₃
  omega

theorem owners_lt (h : Inv N t₀ s) : s.owners < 4294967296 := by
  have h₁ : numAt Point.holds s.threads ≤ _ := numAt_le_add fun _ => Point.holds_le
  have h₂ : numAt Point.holdsTwice s.threads ≤ _ :=
    numAt_mono fun _ => Point.creating_of_holdsTwice
  have h₃ := h.creating_le
  have h₄ := h.hired_le
  have h₅ := N.workers_le
  have h₆ := h.handles_le
  unfold State.owners
  unfold State.hired at h₄
  omega

/-- **`live_workers` is zero exactly when no worker is alive.** -/
theorem liveWorkers_eq_zero (h : Inv N t₀ s) : s.core.liveWorkers = 0 ↔ s.alive = 0 := by
  rw [h.live, wrap32_eq_zero h.alive_lt]

theorem refs_eq_zero (h : Inv N t₀ s) : s.core.refs = 0 ↔ s.owners = 0 := by
  rw [h.refs, wrap32_eq_zero h.owners_lt]

/-- A live handle shows that the constructor succeeded. -/
theorem result_of_mem (h : Inv N t₀ s) {k : ℕ} (hk : k ∈ s.handles) : s.result = some 0 := by
  by_contra hr
  rw [(h.unmade hr).1] at hk
  exact absurd hk (Finset.notMem_empty k)

/-- When no worker is alive in a pool that was made, one of them has left its loop. -/
theorem exists_left (h : Inv N t₀ s) (hr : s.result = some 0) (ha : s.alive = 0) :
    ∃ t, (s.threads t).point.left = true := by
  have hm := h.made hr
  have hpos := N.workers_pos
  unfold State.hired at hm
  unfold State.alive at ha
  obtain ⟨t, ht⟩ := numAt_pos.1 (show 0 < numAt Point.worker s.threads by omega)
  rcases Point.left_of_worker ht with hl | hl
  · have := numAt_eq_zero.1 (show numAt Point.live s.threads = 0 by omega) t
    rw [hl] at this
    cases this
  · exact ⟨t, hl⟩

/-- **When no worker is alive, the queue is empty.** -/
theorem count_eq_zero (h : Inv N t₀ s) (ha : s.alive = 0) : s.core.ring.count = 0 := by
  by_cases hr : s.result = some 0
  · obtain ⟨t, ht⟩ := h.exists_left hr ha
    exact ((h.pcs t).left ht).2
  · exact (h.unmade hr).2

theorem alive_le_owners : s.alive ≤ s.owners := by
  have : numAt Point.live s.threads ≤ _ := numAt_mono fun _ => Point.holds_of_live
  unfold State.alive State.owners
  omega

/-- **When the core is freed, its queue is empty.** -/
theorem toList_eq_nil_of_refs (h : Inv N t₀ s) (hr : s.core.refs = 0) :
    s.core.ring.toList = [] := by
  have hle := alive_le_owners (s := s)
  rw [h.refs_eq_zero.1 hr] at hle
  rw [RingBuffer.toList, h.count_eq_zero (Nat.le_zero.1 hle)]
  rfl

/-- So giving up a reference releases no task. -/
theorem freeEvents_eq (h : Inv N t₀ s) :
    (freeEvents s.core : List (Event T)) = if s.core.refs = 0 then [.freed] else [] := by
  unfold freeEvents
  split_ifs with hr
  · rw [h.toList_eq_nil_of_refs hr]
    rfl
  · rfl

end Inv

/-! ## Steps -/

section PcOk

variable {S S' : Finset ℕ} {n n' : ℕ} {core core' : Core} {x : Pc Point}

omit [Fintype T] in
theorem PcOk.woken {f f' : T → Pc Point} (hw : Woken f f') (h : PcOk N S n core (f t)) :
    PcOk N S n core (f' t) := by
  have hp := hw.point t
  refine ⟨hw.waitsAt h.wait, ?_, ?_, ?_, ?_, ?_⟩ <;> rw [hp]
  exacts [h.handle, h.index, h.pending, h.failure, h.left]

theorem PcOk.mono (h : PcOk N S n core x) (hS : ∀ k ∈ x.point.handle, k ∈ S → k ∈ S')
    (hn : x.point.creating = true → n' = n)
    (hc : x.point.left = true → core.accepting = false → core.ring.count = 0 →
      core'.accepting = false ∧ core'.ring.count = 0) : PcOk N S' n' core' x where
  wait := h.wait
  handle := fun k hk => hS k hk (h.handle k hk)
  index := fun i hi => (h.index i hi).trans (hn (Point.creating_of_index hi)).symm
  pending := h.pending
  failure := h.failure
  left := fun hl => hc hl (h.left hl).1 (h.left hl).2

/-- A point that uses no handle and is neither in the constructor nor past the worker's loop. -/
theorem PcOk.plain (h₁ : p.handle = none) (h₂ : p.creating = false) (h₃ : p.left = false) :
    PcOk N S n core (.run p) := by
  have hnone : ∀ {β : Type} {o : Option β} {P : β → Prop}, o = none → ∀ b ∈ o, P b := by
    rintro β _ P rfl b ⟨⟩
  refine ⟨Pc.waitsAt_run _, hnone h₁, ?_, ?_, ?_, fun hl => by cases h₃.symm.trans hl⟩
  all_goals
    apply hnone
    cases p <;> first | rfl | cases h₂

end PcOk

variable [DecidableEq T]

omit [DecidableEq T] in
theorem Quiet.pcOk {x : Pc Point} (hq : Quiet s t p x e) (h : Inv N t₀ s)
    (hp : (s.threads t).point = p) : PcOk N s.handles s.hired s.core x := by
  have ht := h.pcs t
  cases hq with
  | callShutdown k hk =>
    exact ⟨Pc.waitsAt_run _, by rintro _ ⟨⟩; exact hk, nofun, nofun, nofun, nofun⟩
  | submitSleep k i ha hf =>
    exact ⟨Pc.waitsAt_wait.2 rfl, hp ▸ ht.handle, nofun, nofun, nofun, nofun⟩
  | stopSleep k hl => exact ⟨Pc.waitsAt_wait.2 trivial, hp ▸ ht.handle, nofun, nofun, nofun, nofun⟩
  | loopSleep hc ha => exact ⟨Pc.waitsAt_wait.2 trivial, nofun, nofun, nofun, nofun, nofun⟩
  | spawnFailed i st hst =>
    exact ⟨Pc.waitsAt_run _, nofun, nofun, nofun, by rintro _ ⟨⟩; exact hst, nofun⟩
  | drainSleep st hl =>
    exact ⟨Pc.waitsAt_wait.2 trivial, nofun, nofun, nofun, hp ▸ ht.failure, nofun⟩
  | drained st hl =>
    have hf := ht.failure
    rw [hp] at hf
    exact ⟨Pc.waitsAt_run _, nofun, nofun, nofun, hf, nofun⟩
  | _ => exact .plain rfl rfl rfl

namespace Inv

variable {f : T → Pc Point} {x : Pc Point} {core : Core} {starting tasks : ℕ} {freed : Bool}

omit [Fintype T] in
/-- Every thread is well placed after thread `t` moved to `x` and threads were notified. -/
theorem pcs_step {S : Finset ℕ} {n : ℕ} (hw : Woken (Function.update s.threads t x) f)
    (hx : PcOk N S n core x)
    (hrest : ∀ u, u ≠ t → PcOk N S n core (s.threads u)) (u : T) : PcOk N S n core (f u) :=
  PcOk.woken hw (forall_update (Q := fun _ (y : Pc Point) => PcOk N S n core y) hx hrest u)

omit [Fintype T] in
/-- The constructor is where it was after thread `t` moved. -/
theorem creator_step {r r' : Option ℤ} (hw : Woken (Function.update s.threads t x) f)
    (h : ∀ u, (s.threads u).point.creating = true ↔ u = t₀ ∧ r = none)
    (hx : x.point.creating = true ↔ t = t₀ ∧ r' = none) (hr : r' = r ∨ t = t₀) (u : T) :
    (f u).point.creating = true ↔ u = t₀ ∧ r' = none := by
  rw [hw.point]
  refine forall_update
    (Q := fun u (y : Pc Point) => y.point.creating = true ↔ u = t₀ ∧ r' = none) hx ?_ u
  intro v hv
  rw [h v]
  rcases hr with rfl | rfl
  · rfl
  · exact ⟨fun hv' => absurd hv'.1 hv, fun hv' => absurd hv'.1 hv⟩

/-- How a count changes when thread `t` moves from `p` to `x`. -/
theorem count_step {r : Point → Bool} (hp : (s.threads t).point = p)
    (hw : Woken (Function.update s.threads t x) f) :
    numAt r f + (r p).toNat = numAt r s.threads + (r x.point).toNat := by
  rw [← hp]
  exact numAt_step hw

/-- **The step rule**: thread `t` moves to `x`, notifies threads and changes the core, but neither
the handles nor the number of workers created. -/
theorem step (h : Inv N t₀ s) (hw : Woken (Function.update s.threads t x) f)
    (hcore : CoreOk N core)
    (hx : PcOk N s.handles s.hired core x)
    (hleft : ∀ u, (s.threads u).point.left = true → s.core.accepting = false →
      s.core.ring.count = 0 → core.accepting = false ∧ core.ring.count = 0)
    (hcr : x.point.creating = (s.threads t).point.creating)
    (hun : s.handles = ∅ → s.core.ring.count = 0 → core.ring.count = 0)
    (hhandles : core.handles = s.core.handles)
    (hhired : numAt Point.worker f + starting = s.hired)
    (hlive : core.liveWorkers = wrap32 (numAt Point.live f + starting : ℕ))
    (hrefs : core.refs = wrap32 (s.handles.card + numAt Point.holds f +
      numAt Point.holdsTwice f + starting : ℕ))
    (hfreed : freed = true ↔ s.handles.card + numAt Point.holds f +
      numAt Point.holdsTwice f + starting = 0) :
    Inv N t₀ { s with core, threads := f, starting, tasks, freed } where
  core := hcore
  pcs := by
    refine pcs_step (n := numAt Point.worker f + starting) hw (by rwa [hhired]) fun u _ => ?_
    exact (h.pcs u).mono (fun _ _ hk => hk) (fun _ => hhired) (hleft u)
  creator := creator_step hw h.creator (by rw [hcr, h.creator]) (.inl rfl)
  unmade := fun hr => ⟨(h.unmade hr).1, hun (h.unmade hr).1 (h.unmade hr).2⟩
  hired_le := hhired.trans_le h.hired_le
  made := fun hr => hhired.trans (h.made hr)
  live := hlive
  handles := hhandles.trans h.handles
  handles_le := h.handles_le
  refs := hrefs
  freed := hfreed

/-- The step rule for a thread that stays at a point of the same kind. -/
theorem step_same (h : Inv N t₀ s) (hw : Woken (Function.update s.threads t x) f)
    (hk : SameKind (s.threads t).point x.point) (hcore : CoreOk N core)
    (hx : PcOk N s.handles s.hired core x)
    (hleft : ∀ u, (s.threads u).point.left = true → s.core.accepting = false →
      s.core.ring.count = 0 → core.accepting = false ∧ core.ring.count = 0)
    (hun : s.handles = ∅ → s.core.ring.count = 0 → core.ring.count = 0)
    (hhandles : core.handles = s.core.handles) (hlive : core.liveWorkers = s.core.liveWorkers)
    (hrefs : core.refs = s.core.refs) :
    Inv N t₀ { s with core, threads := f, tasks } := by
  have hsame : ∀ {q : Point → Bool}, q x.point = q (s.threads t).point →
      numAt q f = numAt q s.threads := by
    intro q hq
    have hn : numAt q f + _ = _ := numAt_step hw
    rw [hq] at hn
    omega
  have h₁ := hsame hk.worker
  have h₂ := hsame hk.live
  have h₃ := hsame hk.holds
  have h₄ := hsame hk.holdsTwice
  refine h.step hw hcore hx hleft hk.creating hun hhandles ?_ ?_ ?_ ?_
  · rw [h₁]
    rfl
  · rw [h₂, hlive]
    exact h.live
  · rw [h₃, h₄, hrefs]
    exact h.refs
  · rw [h₃, h₄]
    exact h.freed

section Counters

variable {n : ℕ}

omit [DecidableEq T]

theorem live_same (h : Inv N t₀ s) (hn : n = s.alive) : s.core.liveWorkers = wrap32 n := by
  rw [hn, h.live]

theorem live_add (h : Inv N t₀ s) {d : ℤ} (hn : (n : ℤ) = s.alive + d) :
    (s.core.addWorkers d).liveWorkers = wrap32 n := by
  change wrap32 (s.core.liveWorkers + d) = _
  rw [h.live, wrap32_add, hn]

theorem refs_same (h : Inv N t₀ s) (hn : n = s.owners) : s.core.refs = wrap32 n := by
  rw [hn, h.refs]

theorem refs_retain (h : Inv N t₀ s) (hn : n = s.owners + 1) :
    arcInc s.core.refs = wrap32 n := by
  rw [arcInc, h.refs, wrap32_add, hn, Nat.cast_add, Nat.cast_one]

theorem freed_same (h : Inv N t₀ s) (hn : n = s.owners) : s.freed = true ↔ n = 0 := by
  rw [hn, h.freed]

theorem not_freed (h : Inv N t₀ s) (hn : n ≠ 0) (hs : s.owners ≠ 0) :
    s.freed = true ↔ n = 0 := by
  rw [h.freed]
  exact ⟨fun h' => absurd h' hs, fun h' => absurd h' hn⟩

/-- A reference is given up: the core is freed when it was the last one. -/
theorem refs_release (h : Inv N t₀ s) (hn : n + 1 = s.owners) :
    s.core.release.refs = wrap32 n ∧
      ((s.freed || decide (s.core.release.refs = 0)) = true ↔ n = 0) := by
  have hrefs : s.core.release.refs = wrap32 n := by
    change wrap32 (s.core.refs - 1) = _
    rw [h.refs, Int.sub_eq_add_neg, wrap32_add, ← hn]
    congr 1
    omega
  have hlt := h.owners_lt
  have hnf : s.freed = false := by
    rw [← Bool.not_eq_true, h.freed]
    omega
  refine ⟨hrefs, ?_⟩
  rw [hnf, Bool.false_or, decide_eq_true_eq, hrefs, wrap32_eq_zero (by omega)]

end Counters

/-- The step rule for a thread that moves on with the core unchanged but for one counter, in a way
that the counts of its points show. -/
theorem step_local (h : Inv N t₀ s) (hw : Woken (Function.update s.threads t x) f)
    (hx : PcOk N s.handles s.hired s.core x)
    (hcr : x.point.creating = (s.threads t).point.creating)
    (hring : core.ring = s.core.ring) (hacc : core.accepting = s.core.accepting)
    (hcount : core.workerCount = s.core.workerCount) (hhandles : core.handles = s.core.handles)
    (hhired : numAt Point.worker f + starting = s.hired)
    (hlive : core.liveWorkers = wrap32 (numAt Point.live f + starting : ℕ))
    (hrefs : core.refs = wrap32 (s.handles.card + numAt Point.holds f +
      numAt Point.holdsTwice f + starting : ℕ))
    (hfreed : freed = true ↔ s.handles.card + numAt Point.holds f +
      numAt Point.holdsTwice f + starting = 0) :
    Inv N t₀ { s with core, threads := f, starting, tasks, freed } := by
  have hleft : ∀ {y : Pc Point}, y.point.left = true → s.core.accepting = false →
      s.core.ring.count = 0 → core.accepting = false ∧ core.ring.count = 0 := by
    intro y _ h₁ h₂
    rw [hacc, hring]
    exact ⟨h₁, h₂⟩
  refine h.step hw ?_ ?_ (fun u => hleft) hcr ?_ hhandles hhired hlive hrefs hfreed
  · exact ⟨by rw [hring]; exact h.core.capacity, by rw [hring]; exact h.core.ring,
      by rw [hcount]; exact h.core.workerCount⟩
  · exact hx.mono (fun _ _ hk => hk) (fun _ => rfl) hleft
  · intro _ h₂
    rw [hring]
    exact h₂

/-- The step rule for a thread that gives up a reference of a worker. -/
theorem step_release (h : Inv N t₀ s) (hw : Woken (Function.update s.threads t x) f)
    (hx : PcOk N s.handles s.hired s.core x)
    (hcr : x.point.creating = (s.threads t).point.creating)
    (hhired : numAt Point.worker f + s.starting = s.hired)
    (halive : numAt Point.live f + s.starting = s.alive)
    (howners : s.handles.card + numAt Point.holds f + numAt Point.holdsTwice f +
      s.starting + 1 = s.owners) :
    Inv N t₀ { s with
      core := s.core.release, threads := f
      freed := s.freed || decide (s.core.release.refs = 0) } :=
  h.step_local hw hx hcr rfl rfl rfl rfl hhired (h.live_same halive) (h.refs_release howners).1
    (h.refs_release howners).2

end Inv

/-- **A move keeps the invariant.** -/
theorem Move.inv (hm : Move s s' e) (h : Inv N t₀ s) : Inv N t₀ s' := by
  have hhired : s.hired = numAt Point.worker s.threads + s.starting := rfl
  have halive : s.alive = numAt Point.live s.threads + s.starting := rfl
  have howners : s.owners = s.handles.card + numAt Point.holds s.threads +
    numAt Point.holdsTwice s.threads + s.starting := rfl
  have hself : ∀ u, (s.threads u).point.left = true → s.core.accepting = false →
      s.core.ring.count = 0 → s.core.accepting = false ∧ s.core.ring.count = 0 :=
    fun _ _ h₁ h₂ => ⟨h₁, h₂⟩
  cases hm with
  | quiet t p x e ht hq =>
    exact h.step_same (.refl _) (ht.point ▸ hq.sameKind) h.core (hq.pcOk h ht.point) hself
      (fun _ hc => hc) rfl rfl rfl
  | spurious t p ht =>
    have hok := h.pcs t
    have hp : (s.threads t).point = p := by rw [ht]; rfl
    rw [ht] at hok
    exact h.step_same (.refl _) (hp ▸ ⟨rfl, rfl, rfl, rfl, rfl⟩) h.core
      ⟨Pc.waitsAt_wait.2 (hok.wait _ p rfl), hok.handle, hok.index, hok.pending, hok.failure,
        hok.left⟩ hself (fun _ hc => hc) rfl rfl rfl
  | callSubmit t c k block ht hk =>
    exact h.step_same (.refl _) (ht.point ▸ ⟨rfl, rfl, rfl, rfl, rfl⟩) h.core
      ⟨Pc.waitsAt_run _, by rintro _ ⟨⟩; exact hk, nofun, nofun, nofun, nofun⟩ hself
      (fun _ hc => hc) rfl rfl rfl
  | submitted t c k i block f ht ha hf hs =>
    have hk : k ∈ s.handles := (h.pcs t).handle k (by rw [ht.point]; rfl)
    refine h.step_same (.of_signalled hs) (ht.point ▸ ⟨rfl, rfl, rfl, rfl, rfl⟩)
      ⟨h.core.capacity, ?_, h.core.workerCount⟩ (.plain rfl rfl rfl) ?_ ?_ rfl rfl rfl
    · exact RingBuffer.wf_push h.core.ring (lt_of_le_of_ne h.core.ring.count_le hf) i
    · intro u _ ha'
      cases ha.symm.trans ha'
    · intro he
      rw [he] at hk
      exact absurd hk (Finset.notMem_empty k)
  | closed t p q e ht hp =>
    refine h.step_same (woken_wakeAll _) (ht.point ▸ hp.sameKind)
      ⟨h.core.capacity, h.core.ring, h.core.workerCount⟩ ?_ (fun _ _ _ hc => ⟨rfl, hc⟩)
      (fun _ hc => hc) rfl rfl rfl
    have hok := h.pcs t
    cases hp with
    | close c => exact .plain rfl rfl rfl
    | shutdown k =>
      have hk := hok.handle
      rw [ht.point] at hk
      exact ⟨Pc.waitsAt_run _, hk, nofun, nofun, nofun, nofun⟩
    | abandon st =>
      have hst := hok.failure
      rw [ht.point] at hst
      exact ⟨Pc.waitsAt_run _, nofun, nofun, nofun, hst, nofun⟩
  | fetch t i f ht hc hi hs =>
    refine h.step_same (.of_signalled hs) (ht.point ▸ ⟨rfl, rfl, rfl, rfl, rfl⟩)
      ⟨h.core.capacity, RingBuffer.wf_pop h.core.ring hc, h.core.workerCount⟩
      (.plain rfl rfl rfl) (fun _ _ _ hc' => absurd hc' hc) (fun _ hc' => absurd hc' hc)
      rfl rfl rfl
  | leave t ht hc ha =>
    have hw : Woken (Function.update s.threads t (.run .leave)) (broadcast Point.cond .stopped _) :=
      .of_broadcast Cond.stopped _
    have n₁ : numAt Point.worker _ + 1 = numAt Point.worker _ + 1 := Inv.count_step ht.point hw
    have n₂ : numAt Point.live _ + 1 = numAt Point.live _ + 0 := Inv.count_step ht.point hw
    have n₃ : numAt Point.holds _ + 1 = numAt Point.holds _ + 1 := Inv.count_step ht.point hw
    have n₄ : numAt Point.holdsTwice _ + 0 = numAt Point.holdsTwice _ + 0 :=
      Inv.count_step ht.point hw
    exact h.step_local hw ⟨Pc.waitsAt_run _, nofun, nofun, nofun, nofun, fun _ => ⟨ha, hc⟩⟩
      (by rw [ht.point]; rfl) rfl rfl rfl rfl (by omega) (h.live_add (by omega))
      (h.refs_same (by omega)) (h.freed_same (by omega))
  | unref t p q ht hp =>
    have hw : Woken _ (Function.update s.threads t (.run q)) := .refl _
    have hok := h.pcs t
    cases hp with
    | worker =>
      have n₁ : numAt Point.worker _ + 1 = numAt Point.worker _ + 1 := Inv.count_step ht.point hw
      have n₂ : numAt Point.live _ + 0 = numAt Point.live _ + 0 := Inv.count_step ht.point hw
      have n₃ : numAt Point.holds _ + 1 = numAt Point.holds _ + 0 := Inv.count_step ht.point hw
      have n₄ : numAt Point.holdsTwice _ + 0 = numAt Point.holdsTwice _ + 0 :=
        Inv.count_step ht.point hw
      have hl := hok.left (by rw [ht.point]; rfl)
      exact h.step_release hw ⟨Pc.waitsAt_run _, nofun, nofun, nofun, nofun, fun _ => hl⟩
        (by rw [ht.point]; rfl) (by omega) (by omega) (by omega)
    | constructor st =>
      have n₁ : numAt Point.worker _ + 0 = numAt Point.worker _ + 0 := Inv.count_step ht.point hw
      have n₂ : numAt Point.live _ + 0 = numAt Point.live _ + 0 := Inv.count_step ht.point hw
      have n₃ : numAt Point.holds _ + 1 = numAt Point.holds _ + 1 := Inv.count_step ht.point hw
      have n₄ : numAt Point.holdsTwice _ + 1 = numAt Point.holdsTwice _ + 0 :=
        Inv.count_step ht.point hw
      have hst := hok.failure
      rw [ht.point] at hst
      exact h.step_release hw ⟨Pc.waitsAt_run _, nofun, nofun, nofun, hst, nofun⟩
        (by rw [ht.point]; rfl) (by omega) (by omega) (by omega)
  | gaveUp t st ht =>
    generalize hf : Function.update s.threads t (.run (.idle .client)) = f
    have hw : Woken (Function.update s.threads t (.run (.idle .client))) f := hf ▸ .refl _
    have n₁ : numAt Point.worker f + 0 = numAt Point.worker _ + 0 := Inv.count_step ht.point hw
    have n₂ : numAt Point.live f + 0 = numAt Point.live _ + 0 := Inv.count_step ht.point hw
    have n₃ : numAt Point.holds f + 1 = numAt Point.holds _ + 0 := Inv.count_step ht.point hw
    have n₄ : numAt Point.holdsTwice f + 0 = numAt Point.holdsTwice _ + 0 :=
      Inv.count_step ht.point hw
    obtain ⟨rfl, hr⟩ := (h.creator t).1 (by rw [ht.point]; rfl)
    have hst : st ≠ 0 := (h.pcs t).failure st (by rw [ht.point]; rfl)
    have hne : (some st : Option ℤ) ≠ some 0 := fun he => hst (Option.some.inj he)
    have hnone : s.result ≠ some 0 := by rw [hr]; exact nofun
    have hsame : numAt Point.worker f + s.starting = s.hired := by omega
    have hrel := h.refs_release (n := s.handles.card + numAt Point.holds f +
      numAt Point.holdsTwice f + s.starting) (by omega)
    exact
      { core := ⟨h.core.capacity, h.core.ring, h.core.workerCount⟩
        pcs := Inv.pcs_step hw (.plain rfl rfl rfl) fun u hu => (h.pcs u).mono
          (fun _ _ hk => hk) (fun _ => hsame) (fun _ h₁ h₂ => ⟨h₁, h₂⟩)
        creator := Inv.creator_step hw h.creator ⟨nofun, fun hc => by cases hc.2⟩ (.inr rfl)
        unmade := fun _ => h.unmade hnone
        hired_le := hsame.trans_le h.hired_le
        made := fun he => absurd he hne
        live := h.live_same (show numAt Point.live f + s.starting = _ by omega)
        handles := (h.handles.trans (if_neg hnone)).trans (if_neg hne).symm
        handles_le := h.handles_le
        refs := hrel.1
        freed := hrel.2 }
  | start t ht hpos =>
    have hw : Woken _ (Function.update s.threads t (.run .loop)) := .refl _
    have n₁ : numAt Point.worker _ + 0 = numAt Point.worker _ + 1 := Inv.count_step ht.point hw
    have n₂ : numAt Point.live _ + 0 = numAt Point.live _ + 1 := Inv.count_step ht.point hw
    have n₃ : numAt Point.holds _ + 0 = numAt Point.holds _ + 1 := Inv.count_step ht.point hw
    have n₄ : numAt Point.holdsTwice _ + 0 = numAt Point.holdsTwice _ + 0 :=
      Inv.count_step ht.point hw
    exact h.step_local hw (.plain rfl rfl rfl) (by rw [ht.point]; rfl) rfl rfl rfl rfl
      (by omega) (h.live_same (by omega)) (h.refs_same (by omega)) (h.freed_same (by omega))
  | counting t i ht hi =>
    have hw : Woken _ (Function.update s.threads t (.run (.count i))) := .refl _
    have n₁ : numAt Point.worker _ + 0 = numAt Point.worker _ + 0 := Inv.count_step ht.point hw
    have n₂ : numAt Point.live _ + 0 = numAt Point.live _ + 0 := Inv.count_step ht.point hw
    have n₃ : numAt Point.holds _ + 1 = numAt Point.holds _ + 1 := Inv.count_step ht.point hw
    have n₄ : numAt Point.holdsTwice _ + 0 = numAt Point.holdsTwice _ + 1 :=
      Inv.count_step ht.point hw
    have hok := (h.pcs t).index
    rw [ht.point] at hok
    have hpos : 0 < numAt Point.holds s.threads := numAt_pos.2 ⟨t, by rw [ht.point]; rfl⟩
    rw [h.core.workerCount, Nat.cast_lt] at hi
    refine h.step_local hw ⟨Pc.waitsAt_run _, nofun, hok, ?_, nofun, nofun⟩
      (by rw [ht.point]; rfl) rfl rfl rfl rfl (by omega) (h.live_same (by omega))
      (h.refs_retain (by omega)) (h.not_freed (by omega) (by omega))
    rintro _ ⟨⟩
    exact hi
  | created t i ht hi =>
    generalize hf : Function.update s.threads t (.run (.idle .client)) = f
    have hw : Woken (Function.update s.threads t (.run (.idle .client))) f := hf ▸ .refl _
    have n₁ : numAt Point.worker f + 0 = numAt Point.worker _ + 0 := Inv.count_step ht.point hw
    have n₂ : numAt Point.live f + 0 = numAt Point.live _ + 0 := Inv.count_step ht.point hw
    have n₃ : numAt Point.holds f + 1 = numAt Point.holds _ + 0 := Inv.count_step ht.point hw
    have n₄ : numAt Point.holdsTwice f + 0 = numAt Point.holdsTwice _ + 0 :=
      Inv.count_step ht.point hw
    obtain ⟨rfl, hr⟩ := (h.creator t).1 (by rw [ht.point]; rfl)
    have hnone : s.result ≠ some 0 := by rw [hr]; exact nofun
    have hempty := (h.unmade hnone).1
    have hcard : s.handles.card = 0 := by rw [hempty]; rfl
    have hindex : i = s.hired := (h.pcs t).index i (by rw [ht.point]; rfl)
    have hle := h.hired_le
    rw [h.core.workerCount, Nat.cast_lt] at hi
    have hsame : numAt Point.worker f + s.starting = s.hired := by omega
    have howners' : 1 + numAt Point.holds f + numAt Point.holdsTwice f + s.starting =
      s.owners := by omega
    refine
      { core := h.core
        pcs := Inv.pcs_step hw (.plain rfl rfl rfl) fun u hu => (h.pcs u).mono
          (fun k _ hk => ?_) (fun _ => hsame) (fun _ h₁ h₂ => ⟨h₁, h₂⟩)
        creator := Inv.creator_step hw h.creator ⟨nofun, fun hc => by cases hc.2⟩ (.inr rfl)
        unmade := fun hne => absurd rfl hne
        hired_le := hsame.trans_le hle
        made := fun _ => hsame.trans (by omega)
        live := h.live_same (show numAt Point.live f + s.starting = _ by omega)
        handles := h.handles.trans (if_neg hnone)
        handles_le := by change 1 ≤ 2147483647; decide
        refs := h.refs_same howners'
        freed := h.freed_same howners' }
    rw [hempty] at hk
    exact absurd hk (Finset.notMem_empty k)
  | counted t i ht =>
    have hw : Woken _ (Function.update s.threads t (.run (.spawn i))) := .refl _
    have n₁ : numAt Point.worker _ + 0 = numAt Point.worker _ + 0 := Inv.count_step ht.point hw
    have n₂ : numAt Point.live _ + 0 = numAt Point.live _ + 1 := Inv.count_step ht.point hw
    have n₃ : numAt Point.holds _ + 1 = numAt Point.holds _ + 1 := Inv.count_step ht.point hw
    have n₄ : numAt Point.holdsTwice _ + 1 = numAt Point.holdsTwice _ + 1 :=
      Inv.count_step ht.point hw
    have hok := h.pcs t
    have hi := hok.index
    have hp := hok.pending
    rw [ht.point] at hi hp
    exact h.step_local hw ⟨Pc.waitsAt_run _, nofun, hi, hp, nofun, nofun⟩
      (by rw [ht.point]; rfl) rfl rfl rfl rfl (by omega) (h.live_add (by omega))
      (h.refs_same (by omega)) (h.freed_same (by omega))
  | spawned t i ht =>
    generalize hf : Function.update s.threads t (.run (.create (i + 1))) = f
    have hw : Woken (Function.update s.threads t (.run (.create (i + 1)))) f := hf ▸ .refl _
    have n₁ : numAt Point.worker f + 0 = numAt Point.worker _ + 0 := Inv.count_step ht.point hw
    have n₂ : numAt Point.live f + 1 = numAt Point.live _ + 0 := Inv.count_step ht.point hw
    have n₃ : numAt Point.holds f + 1 = numAt Point.holds _ + 1 := Inv.count_step ht.point hw
    have n₄ : numAt Point.holdsTwice f + 1 = numAt Point.holdsTwice _ + 0 :=
      Inv.count_step ht.point hw
    obtain ⟨rfl, hr⟩ := (h.creator t).1 (by rw [ht.point]; rfl)
    have hindex : i = s.hired := (h.pcs t).index i (by rw [ht.point]; rfl)
    have hlt : i < N.workers := (h.pcs t).pending i (by rw [ht.point]; rfl)
    have hmore : numAt Point.worker f + (s.starting + 1) = i + 1 := by omega
    have howners' : s.handles.card + numAt Point.holds f + numAt Point.holdsTwice f +
      (s.starting + 1) = s.owners := by omega
    refine
      { core := h.core
        pcs := Inv.pcs_step hw ⟨Pc.waitsAt_run _, nofun, ?_, nofun, nofun, nofun⟩ fun u hu =>
          (h.pcs u).mono (fun _ _ hk => hk) (fun hc => absurd ((h.creator u).1 hc).1 hu)
            (fun _ h₁ h₂ => ⟨h₁, h₂⟩)
        creator := Inv.creator_step hw h.creator ⟨fun _ => ⟨rfl, hr⟩, fun _ => rfl⟩ (.inl rfl)
        unmade := h.unmade
        hired_le := hmore.trans_le hlt
        made := fun he => absurd (hr.symm.trans he) nofun
        live := h.live_same (show numAt Point.live f + (s.starting + 1) = _ by omega)
        handles := h.handles
        handles_le := h.handles_le
        refs := h.refs_same howners'
        freed := h.freed_same howners' }
    rintro _ ⟨⟩
    exact hmore.symm
  | uncounted t st ht =>
    have hw : Woken _ (Function.update s.threads t (.run (.unref st))) := .refl _
    have n₁ : numAt Point.worker _ + 0 = numAt Point.worker _ + 0 := Inv.count_step ht.point hw
    have n₂ : numAt Point.live _ + 1 = numAt Point.live _ + 0 := Inv.count_step ht.point hw
    have n₃ : numAt Point.holds _ + 1 = numAt Point.holds _ + 1 := Inv.count_step ht.point hw
    have n₄ : numAt Point.holdsTwice _ + 1 = numAt Point.holdsTwice _ + 1 :=
      Inv.count_step ht.point hw
    have hst := (h.pcs t).failure
    rw [ht.point] at hst
    exact h.step_local hw ⟨Pc.waitsAt_run _, nofun, nofun, nofun, hst, nofun⟩
      (by rw [ht.point]; rfl) rfl rfl rfl rfl (by omega) (h.live_add (by omega))
      (h.refs_same (by omega)) (h.freed_same (by omega))
  | share t c k k' ht hk hk' hmax =>
    have hr := h.result_of_mem hk
    have hcount := h.handles
    rw [if_pos hr] at hcount
    have hlt : s.handles.card < 2147483647 := by
      refine lt_of_le_of_ne h.handles_le fun he => hmax ?_
      rw [hcount, he]
      rfl
    have hcard : (insert k' s.handles).card = s.handles.card + 1 :=
      Finset.card_insert_of_notMem hk'
    have howners' : (insert k' s.handles).card + numAt Point.holds s.threads +
      numAt Point.holdsTwice s.threads + s.starting = s.owners + 1 := by omega
    have hpos : 0 < s.handles.card := Finset.card_pos.2 ⟨k, hk⟩
    exact
      { core := ⟨h.core.capacity, h.core.ring, h.core.workerCount⟩
        pcs := fun u => (h.pcs u).mono (fun _ _ hu => Finset.mem_insert_of_mem hu) (fun _ => rfl)
          (fun _ h₁ h₂ => ⟨h₁, h₂⟩)
        creator := h.creator
        unmade := fun hne => absurd hr hne
        hired_le := h.hired_le
        made := h.made
        live := h.live
        handles := by
          change wrap32 (s.core.handles + 1) = if s.result = some 0 then _ else _
          rw [if_pos hr, hcount, wrap32_of_mem (by omega) (by omega), hcard, Nat.cast_add,
            Nat.cast_one]
        handles_le := by
          change (insert k' s.handles).card ≤ _
          omega
        refs := h.refs_retain howners'
        freed := h.not_freed (howners'.trans_ne (by omega)) (by omega) }
  | drop t k hk hu =>
    have hw : Woken s.threads (if s.core.dropHandle.handles = 0 then wakeAll s.threads
        else s.threads) := by
      split_ifs
      · exact woken_wakeAll _
      · exact .refl _
    generalize (if s.core.dropHandle.handles = 0 then wakeAll s.threads else s.threads) = f
      at hw ⊢
    have n₁ : numAt Point.worker f = _ := numAt_woken hw
    have n₂ : numAt Point.live f = _ := numAt_woken hw
    have n₃ : numAt Point.holds f = _ := numAt_woken hw
    have n₄ : numAt Point.holdsTwice f = _ := numAt_woken hw
    have hr := h.result_of_mem hk
    have hcount := h.handles
    rw [if_pos hr] at hcount
    have hpos : 0 < s.handles.card := Finset.card_pos.2 ⟨k, hk⟩
    have hcard : (s.handles.erase k).card = s.handles.card - 1 := Finset.card_erase_of_mem hk
    have hle := h.handles_le
    have hsame : numAt Point.worker f + s.starting = s.hired := by omega
    have hrel := h.refs_release (n := (s.handles.erase k).card + numAt Point.holds f +
      numAt Point.holdsTwice f + s.starting) (by omega)
    refine
      { core := ⟨h.core.capacity, h.core.ring, h.core.workerCount⟩
        pcs := fun u => PcOk.woken hw ((h.pcs u).mono (fun j hj hj' => ?_) (fun _ => hsame)
          (fun _ h₁ h₂ => ⟨?_, h₂⟩))
        creator := fun u => by rw [hw.point]; exact h.creator u
        unmade := fun hne => absurd hr hne
        hired_le := hsame.trans_le h.hired_le
        made := fun _ => hsame.trans (h.made hr)
        live := h.live_same (show numAt Point.live f + s.starting = _ by omega)
        handles := by
          change wrap32 (s.core.handles - 1) = if s.result = some 0 then _ else _
          rw [if_pos hr, hcount, wrap32_of_mem (by omega) (by omega), hcard, Nat.cast_sub hpos,
            Nat.cast_one]
        handles_le := by
          change (s.handles.erase k).card ≤ _
          omega
        refs := hrel.1
        freed := hrel.2 }
    · refine Finset.mem_erase.2 ⟨?_, hj'⟩
      rintro rfl
      exact hu u hj
    · change (s.core.accepting && _) = false
      rw [h₁, Bool.false_and]

omit [Fintype T] in
theorem pcOk_init {S : Finset ℕ} {core : Core} : PcOk N S 0 core (.run (.create 0)) :=
  ⟨Pc.waitsAt_run _, nofun, by rintro _ ⟨⟩; rfl, nofun, nofun, nofun⟩

theorem numAt_init {r : Point → Bool} (h₁ : r .absent = false) (h₂ : r (.create 0) = false) :
    numAt r (State.init N t₀).threads = 0 := by
  refine numAt_eq_zero.2 fun t => ?_
  by_cases ht : t = t₀ <;> simp [State.init, ht, h₁, h₂]

theorem inv_init (N : Size) (t₀ : T) : Inv N t₀ (State.init N t₀) := by
  have hone : numAt Point.holds (State.init N t₀).threads = 1 := by
    refine le_antisymm (numAt_le_one (t := t₀) fun u hu => ?_) (numAt_pos.2 ⟨t₀, ?_⟩)
    · by_contra hne
      simp [State.init, hne, Point.holds, Point.worker, Point.creating] at hu
    · simp [State.init, Point.holds, Point.worker, Point.creating]
  have h₁ : numAt Point.worker (State.init N t₀).threads = 0 := numAt_init rfl rfl
  have h₂ : numAt Point.live (State.init N t₀).threads = 0 := numAt_init rfl rfl
  have h₃ : numAt Point.holdsTwice (State.init N t₀).threads = 0 := numAt_init rfl rfl
  have hhired : (State.init N t₀).hired = 0 := by
    rw [State.hired, h₁]
    rfl
  have halive : (State.init N t₀).alive = 0 := by
    rw [State.alive, h₂]
    rfl
  have howners : (State.init N t₀).owners = 1 := by
    rw [State.owners, hone, h₃]
    rfl
  refine
    { core := ⟨rfl, RingBuffer.wf_empty N.capacity_pos, rfl⟩
      pcs := fun t => ?_
      creator := fun t => ?_
      unmade := fun _ => ⟨rfl, rfl⟩
      hired_le := hhired ▸ Nat.zero_le _
      made := nofun
      live := ?_
      handles := rfl
      handles_le := by change 0 ≤ _; exact Nat.zero_le _
      refs := ?_
      freed := ?_ }
  · rw [hhired]
    by_cases ht : t = t₀
    · simpa [State.init, ht] using pcOk_init
    · simpa [State.init, ht] using PcOk.plain rfl rfl rfl
  · by_cases ht : t = t₀ <;> simp [State.init, ht, Point.creating]
  · rw [halive, wrap32_of_mem (by omega) (by omega)]
    rfl
  · rw [howners, wrap32_of_mem (by omega) (by omega)]
    rfl
  · rw [howners]
    simp [State.init]

/-- **The invariant holds along every run.** -/
theorem inv_of_exec {es : List (Event T)} (h : Exec step Assumed (State.init N t₀) es s) :
    Inv N t₀ s :=
  h.stateInvariant (inv_init N t₀) fun hI hs hG =>
    (step_move (fun t => (hI.pcs t).wait) hs hG.1 hG.2).inv hI

end NativeSync.ThreadPool
