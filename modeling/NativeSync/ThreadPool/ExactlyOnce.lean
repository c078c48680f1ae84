import NativeSync.ThreadPool.Wakeups

/-!
# The thread pool executes every accepted task exactly once

The way of a task through the pool is a chain: it is submitted and then accepted or rejected; an
accepted task is queued and dequeued in the order of acceptance, called, finished and released by
the worker; a rejected one is released by the submission. `Books` says so by counting: at every
moment, as often as a task has passed a station it has passed the next one or a thread is between
the two. A task is submitted once, so every station is passed at most once.

When no worker is alive nobody is between two stations and the queue is empty, so every accepted
task has passed them all. This is the case when a shutdown returns and when the core is freed; and
it is so as soon as every worker sleeps or is gone.
-/

namespace NativeSync.ThreadPool

open Foundations

/-! ## The stations -/

namespace Point

/-- The thread is in a submission of task `i`. -/
@[simp] def submits (i : ℕ) : Point → Bool
  | submit _ _ j _ => decide (j = i)
  | _ => false

/-- The thread has taken task `i` and is about to call it. -/
@[simp] def fetches (i : ℕ) : Point → Bool
  | fetched j => decide (j = i)
  | _ => false

/-- The thread is in the call of task `i`. -/
@[simp] def runs (i : ℕ) : Point → Bool
  | idle (.task j) => decide (j = i)
  | submit (.task j) .. => decide (j = i)
  | _ => false

/-- The thread is about to release task `i`. -/
@[simp] def releasing (i : ℕ) : Point → Bool
  | release j => decide (j = i)
  | _ => false

/-- A task that is between two stations is in the hands of a live worker. -/
theorem working_of_fetches {i : ℕ} {p : Point} (h : p.fetches i = true) :
    p.worker = true ∧ p.live = true := by
  cases p <;> first | exact ⟨rfl, rfl⟩ | cases h

theorem working_of_runs {i : ℕ} {p : Point} (h : p.runs i = true) :
    p.worker = true ∧ p.live = true := by
  cases p with
  | idle c =>
    cases c with
    | client => cases h
    | task j => exact ⟨rfl, rfl⟩
  | submit c k j block =>
    cases c with
    | client => cases h
    | task j => exact ⟨rfl, rfl⟩
  | _ => cases h

theorem working_of_releasing {i : ℕ} {p : Point} (h : p.releasing i = true) :
    p.worker = true ∧ p.live = true := by
  cases p <;> first | exact ⟨rfl, rfl⟩ | cases h

end Point

variable {T : Type}

/-- How often task `i` passed the station that the events of the kind `kind` show. -/
def tally (kind : Event T → Option ℕ) (es : List (Event T)) (i : ℕ) : ℕ :=
  (es.filterMap kind).count i

section Tally

variable {kind : Event T → Option ℕ} {es : List (Event T)} {e : Event T} {i : ℕ}

@[simp] theorem tally_nil : tally kind [] i = 0 := rfl

theorem tally_append (es es' : List (Event T)) :
    tally kind (es ++ es') i = tally kind es i + tally kind es' i := by
  rw [tally, List.filterMap_append, List.count_append]
  rfl

@[simp] theorem tally_cons (e : Event T) (es : List (Event T)) :
    tally kind (e :: es) i = (decide (kind e = some i)).toNat + tally kind es i := by
  unfold tally
  cases he : kind e with
  | none => simp [he]
  | some j => by_cases hj : j = i <;> simp [he, hj, Nat.add_comm]

theorem tally_pos : 0 < tally kind es i ↔ i ∈ es.filterMap kind := List.count_pos_iff

end Tally

/-! ## The books -/

variable {s s' : State T} {es e : List (Event T)} {t t₀ : T} {p q : Point} {N : Size}

/-- The events of a thread that goes from `p` to `q` keep the books balanced. -/
structure Balanced (p q : Point) (e : List (Event T)) : Prop where
  submitted : ∀ i, (q.submits i).toNat + tally Event.accepted e i + tally Event.rejected e i =
    (p.submits i).toNat
  dequeued : ∀ i, tally Event.dequeues e i + (p.fetches i).toNat =
    (q.fetches i).toNat + tally Event.calls e i
  called : ∀ i, tally Event.calls e i + (p.runs i).toNat =
    (q.runs i).toNat + tally Event.finishes e i
  released : ∀ i, tally Event.finishes e i + tally Event.rejected e i + (p.releasing i).toNat =
    (q.releasing i).toNat + tally Event.releases e i
  refused : ∀ i, tally Event.rejected e i ≤ tally Event.releases e i

/-- Events that concern no task. -/
def Event.Aside (e : Event T) : Prop :=
  e.accepted = none ∧ e.rejected = none ∧ e.dequeues = none ∧ e.calls = none ∧
    e.finishes = none ∧ e.releases = none

theorem tally_aside {kind : Event T → Option ℕ} (h : ∀ x ∈ e, kind x = none) (i : ℕ) :
    tally kind e i = 0 := by
  rw [tally, List.filterMap_eq_nil_iff.2 h]
  rfl

/-- A thread at `p` and one at `q` are between the same stations. -/
def SameStations (p q : Point) : Prop :=
  ∀ i, q.submits i = p.submits i ∧ q.fetches i = p.fetches i ∧ q.runs i = p.runs i ∧
    q.releasing i = p.releasing i

/-- A thread that takes no task along moves on. -/
theorem Balanced.of_aside (he : ∀ x ∈ e, x.Aside) (h : SameStations p q) : Balanced p q e := by
  have hacc : ∀ i, tally Event.accepted e i = 0 := tally_aside fun x hx => (he x hx).1
  have hrej : ∀ i, tally Event.rejected e i = 0 := tally_aside fun x hx => (he x hx).2.1
  have hdeq : ∀ i, tally Event.dequeues e i = 0 := tally_aside fun x hx => (he x hx).2.2.1
  have hcal : ∀ i, tally Event.calls e i = 0 := tally_aside fun x hx => (he x hx).2.2.2.1
  have hfin : ∀ i, tally Event.finishes e i = 0 := tally_aside fun x hx => (he x hx).2.2.2.2.1
  have hrel : ∀ i, tally Event.releases e i = 0 := tally_aside fun x hx => (he x hx).2.2.2.2.2
  refine ⟨fun i => ?_, fun i => ?_, fun i => ?_, fun i => ?_, fun i => ?_⟩
  · rw [(h i).1, hacc, hrej]
    rfl
  · rw [(h i).2.1, hdeq, hcal]
    omega
  · rw [(h i).2.2.1, hcal, hfin]
    omega
  · rw [(h i).2.2.2, hfin, hrej, hrel]
    omega
  · rw [hrej, hrel]

theorem Event.aside_ret {op : Op} {result error : ℤ} (h : ∀ i b, op ≠ .submit i b) :
    (Event.ret t op result error).Aside := by
  cases op with
  | submit i b => exact absurd rfl (h i b)
  | _ => exact ⟨rfl, rfl, rfl, rfl, rfl, rfl⟩

/-- A thread that takes no task along returns from an operation that submits none. -/
theorem Balanced.of_ret {op : Op} {result error : ℤ} (h : ∀ i b, op ≠ .submit i b)
    (hp : SameStations p q) : Balanced p q [.ret t op result error] :=
  .of_aside (List.forall_mem_singleton.2 (Event.aside_ret h)) hp

section Submit

variable {c : Caller} {k j : ℕ} {block : Bool} {code error : ℤ}

/-- A submission returns with its task accepted. -/
theorem Balanced.accepted :
    Balanced (.submit c k j block) (.idle c) [.ret t (.submit j block) 0 error] := by
  refine ⟨?_, ?_, ?_, ?_, ?_⟩ <;> intro i
  · simp
  · simp
  · cases c <;> simp
  · simp
  · simp

/-- A submission gives up its task and returns. -/
theorem Balanced.rejected (hcode : code ≠ 0) : Balanced (.submit c k j block) (.idle c)
    [.released j, .ret t (.submit j block) code error] := by
  refine ⟨?_, ?_, ?_, ?_, ?_⟩ <;> intro i
  · simp [hcode]
  · simp
  · cases c <;> simp
  · simp [hcode]
  · simp [hcode]

end Submit

theorem Refusal.ne_zero {core : Core} {c : Caller} {block : Bool} {code : ℤ}
    (h : Refusal core c block code) : code ≠ 0 := by
  cases h <;> decide

theorem Quiet.balanced {x : Pc Point} (hq : Quiet s t p x e) : Balanced p x.point e := by
  cases hq with
  | ownShutdown c hc =>
    exact .of_ret nofun fun _ => ⟨rfl, rfl, rfl, rfl⟩
  | observed c op result error hop =>
    refine .of_ret ?_ fun _ => ⟨rfl, rfl, rfl, rfl⟩
    rcases hop with rfl | rfl | rfl <;> exact nofun
  | refused c k j block code hcode => exact .rejected hcode.ne_zero
  | stopped k hl =>
    exact .of_ret nofun fun _ => ⟨rfl, rfl, rfl, rfl⟩
  | call j => constructor <;> intro i <;> simp
  | finish j => constructor <;> intro i <;> simp
  | released j => constructor <;> intro i <;> simp
  | _ => exact .of_aside nofun fun _ => ⟨rfl, rfl, rfl, rfl⟩

theorem Closing.balanced (hp : Closing t p q e) : Balanced p q e := by
  cases hp with
  | close c => exact .of_ret nofun fun _ => ⟨rfl, rfl, rfl, rfl⟩
  | _ => exact .of_aside nofun fun _ => ⟨rfl, rfl, rfl, rfl⟩

variable [Fintype T]

/-- What the events and the threads of a run say about the tasks. -/
structure Books (es : List (Event T)) (s : State T) : Prop where
  submitted : ∀ i, numAt (Point.submits i) s.threads + tally Event.accepted es i +
    tally Event.rejected es i = if i < s.tasks then 1 else 0
  queue : es.filterMap Event.accepted = es.filterMap Event.dequeues ++ s.core.ring.toList
  dequeued : ∀ i, tally Event.dequeues es i =
    numAt (Point.fetches i) s.threads + tally Event.calls es i
  called : ∀ i, tally Event.calls es i =
    numAt (Point.runs i) s.threads + tally Event.finishes es i
  released : ∀ i, tally Event.finishes es i + tally Event.rejected es i =
    numAt (Point.releasing i) s.threads + tally Event.releases es i
  refused : ∀ i, tally Event.rejected es i ≤ tally Event.releases es i

variable [DecidableEq T] {f : T → Pc Point} {x : Pc Point}

/-- **The step rule**: thread `t` moves from `p` to `x` and emits `e`. -/
theorem Books.step (hb : Books es s) (hp : (s.threads t).point = p)
    (hw : Woken (Function.update s.threads t x) s'.threads) (he : Balanced p x.point e)
    (htasks : s'.tasks = s.tasks)
    (hqueue : s.core.ring.toList ++ e.filterMap Event.accepted =
      e.filterMap Event.dequeues ++ s'.core.ring.toList) : Books (es ++ e) s' := by
  have hn : ∀ r : Point → Bool, numAt r s'.threads + (r p).toNat =
      numAt r s.threads + (r x.point).toNat := fun r => Inv.count_step hp hw
  refine ⟨fun i => ?_, ?_, fun i => ?_, fun i => ?_, fun i => ?_, fun i => ?_⟩
  · have h₁ := hb.submitted i
    have h₂ := he.submitted i
    have h₃ := hn (Point.submits i)
    rw [tally_append, tally_append, htasks]
    omega
  · rw [List.filterMap_append, List.filterMap_append, hb.queue, List.append_assoc, hqueue,
      List.append_assoc]
  · have h₁ := hb.dequeued i
    have h₂ := he.dequeued i
    have h₃ := hn (Point.fetches i)
    rw [tally_append, tally_append]
    omega
  · have h₁ := hb.called i
    have h₂ := he.called i
    have h₃ := hn (Point.runs i)
    rw [tally_append, tally_append]
    omega
  · have h₁ := hb.released i
    have h₂ := he.released i
    have h₃ := hn (Point.releasing i)
    rw [tally_append, tally_append, tally_append]
    omega
  · have h₁ := hb.refused i
    have h₂ := he.refused i
    rw [tally_append, tally_append]
    omega

omit [Fintype T] [DecidableEq T] in
theorem filterMap_aside {kind : Event T → Option ℕ} (h : ∀ x ∈ e, kind x = none) :
    e.filterMap kind = [] :=
  List.filterMap_eq_nil_iff.2 h

/-- The step rule for events that concern no task. -/
theorem Books.step_aside (hb : Books es s) (hp : (s.threads t).point = p)
    (hw : Woken (Function.update s.threads t x) s'.threads) (he : ∀ y ∈ e, y.Aside)
    (hx : SameStations p x.point) (htasks : s'.tasks = s.tasks)
    (hring : s'.core.ring = s.core.ring) : Books (es ++ e) s' := by
  refine hb.step hp hw (.of_aside he hx) htasks ?_
  rw [filterMap_aside fun y hy => (he y hy).1, filterMap_aside fun y hy => (he y hy).2.2.1,
    hring, List.append_nil, List.nil_append]

omit [Fintype T] [DecidableEq T] in
theorem Quiet.silent (hq : Quiet s t p x e) :
    e.filterMap Event.accepted = [] ∧ e.filterMap Event.dequeues = [] := by
  cases hq with
  | observed c op result error hop => rcases hop with rfl | rfl | rfl <;> exact ⟨rfl, rfl⟩
  | refused c k j block code hcode => simp [hcode.ne_zero]
  | _ => exact ⟨rfl, rfl⟩

omit [DecidableEq T] in
theorem Inv.freeEvents_aside (h : Inv N t₀ s) : ∀ y ∈ (freeEvents s.core : List (Event T)),
    y.Aside := by
  rw [h.freeEvents_eq]
  split_ifs
  · exact List.forall_mem_singleton.2 ⟨rfl, rfl, rfl, rfl, rfl, rfl⟩
  · exact nofun

omit [DecidableEq T] in
theorem Inv.ret_notMem_freeEvents (h : Inv N t₀ s) {op : Op} {result error : ℤ} :
    .ret t op result error ∉ (freeEvents s.core : List (Event T)) := by
  rw [h.freeEvents_eq]
  split_ifs <;> simp

/-- **A move keeps the books.** -/
theorem Move.books (hm : Move s s' e) (h : Inv N t₀ s) (hb : Books es s) : Books (es ++ e) s' := by
  have hI := hm.inv h
  have hnil : ∀ y ∈ ([] : List (Event T)), y.Aside := nofun
  cases hm with
  | quiet t p x e ht hq =>
    refine hb.step ht.point (.refl _) hq.balanced rfl ?_
    rw [hq.silent.1, hq.silent.2, List.append_nil, List.nil_append]
    rfl
  | spurious t p ht =>
    have hp : (s.threads t).point = p := by rw [ht]; rfl
    exact hb.step_aside hp (.refl _) hnil (fun _ => ⟨rfl, rfl, rfl, rfl⟩) rfl rfl
  | callSubmit t c k block ht hk =>
    generalize hf : Function.update s.threads t (.run (.submit c k s.tasks block)) = f
    have hw : Woken (Function.update s.threads t (.run (.submit c k s.tasks block))) f :=
      hf ▸ .refl _
    have hn : ∀ r : Point → Bool, numAt r f + (r (.idle c)).toNat =
      numAt r s.threads + (r (.submit c k s.tasks block)).toNat :=
      fun r => Inv.count_step ht.point hw
    rw [List.append_nil]
    refine ⟨fun i => ?_, hb.queue, fun i => ?_, fun i => ?_, fun i => ?_, hb.refused⟩
    · have h₁ := hb.submitted i
      have h₂ := hn (Point.submits i)
      change numAt (Point.submits i) f + _ + _ = if i < s.tasks + 1 then 1 else 0
      by_cases hi : s.tasks = i
      · subst hi
        simp only [Point.submits, Bool.toNat_false, decide_true, Bool.toNat_true] at h₂
        rw [if_neg (lt_irrefl _)] at h₁
        rw [if_pos (Nat.lt_succ_self _)]
        omega
      · simp only [Point.submits, Bool.toNat_false, hi, decide_false] at h₂
        have hlt : i < s.tasks + 1 ↔ i < s.tasks := by omega
        simp only [hlt]
        omega
    · have h₂ : numAt (Point.fetches i) f + 0 = _ + 0 := hn (Point.fetches i)
      have h₁ := hb.dequeued i
      change _ = numAt (Point.fetches i) f + _
      omega
    · have h₂ := hn (Point.runs i)
      have h₁ := hb.called i
      change _ = numAt (Point.runs i) f + _
      cases c <;> simp only [Point.runs] at h₂ <;> omega
    · have h₂ : numAt (Point.releasing i) f + 0 = _ + 0 := hn (Point.releasing i)
      have h₁ := hb.released i
      change _ = numAt (Point.releasing i) f + _
      omega
  | submitted t c k j block f ht ha hf hs =>
    refine hb.step ht.point (.of_signalled hs) .accepted rfl ?_
    exact (RingBuffer.toList_push h.core.ring (lt_of_le_of_ne h.core.ring.count_le hf) j).symm
  | closed t p q e ht hp =>
    refine hb.step ht.point (woken_wakeAll _) hp.balanced rfl ?_
    cases hp <;> exact List.append_nil _
  | fetch t j f ht hc hj hs =>
    refine hb.step ht.point (.of_signalled hs) ⟨?_, ?_, ?_, ?_, ?_⟩ rfl ?_
    · intro i
      simp
    · intro i
      simp
    · intro i
      simp
    · intro i
      simp
    · intro i
      simp
    · obtain ⟨x, hx, hl⟩ := RingBuffer.exists_pop h.core.ring hc
      obtain rfl : x = j := Option.some.inj (hx.symm.trans hj)
      exact (List.append_nil _).trans hl
  | leave t ht hc ha =>
    exact hb.step_aside ht.point (.of_broadcast _ _) hnil (fun _ => ⟨rfl, rfl, rfl, rfl⟩) rfl rfl
  | unref t p q ht hp =>
    cases hp <;> exact hb.step_aside ht.point (.refl _) hI.freeEvents_aside
      (fun _ => ⟨rfl, rfl, rfl, rfl⟩) rfl rfl
  | gaveUp t st ht =>
    refine hb.step_aside ht.point (.refl _) ?_ (fun _ => ⟨rfl, rfl, rfl, rfl⟩) rfl rfl
    exact List.forall_mem_append.2 ⟨hI.freeEvents_aside,
      List.forall_mem_singleton.2 (Event.aside_ret nofun)⟩
  | start t ht hpos =>
    exact hb.step_aside ht.point (.refl _) hnil (fun _ => ⟨rfl, rfl, rfl, rfl⟩) rfl rfl
  | counting t i ht hi =>
    exact hb.step_aside ht.point (.refl _) hnil (fun _ => ⟨rfl, rfl, rfl, rfl⟩) rfl rfl
  | created t i ht hi =>
    exact hb.step_aside ht.point (.refl _) (List.forall_mem_singleton.2 (Event.aside_ret nofun))
      (fun _ => ⟨rfl, rfl, rfl, rfl⟩) rfl rfl
  | counted t i ht =>
    exact hb.step_aside ht.point (.refl _) hnil (fun _ => ⟨rfl, rfl, rfl, rfl⟩) rfl rfl
  | spawned t i ht =>
    exact hb.step_aside ht.point (.refl _) hnil (fun _ => ⟨rfl, rfl, rfl, rfl⟩) rfl rfl
  | uncounted t st ht =>
    exact hb.step_aside ht.point (.refl _) hnil (fun _ => ⟨rfl, rfl, rfl, rfl⟩) rfl rfl
  | share t c k k' ht hk hk' hmax =>
    refine hb.step_aside (t := t) (x := s.threads t) rfl ?_
      (List.forall_mem_singleton.2 (Event.aside_ret nofun)) (fun _ => ⟨rfl, rfl, rfl, rfl⟩) rfl rfl
    rw [Function.update_eq_self]
    exact .refl _
  | drop t k hk hu =>
    refine hb.step_aside (t := t) (x := s.threads t) rfl ?_ (List.forall_mem_append.2
      ⟨hI.freeEvents_aside, List.forall_mem_singleton.2 (Event.aside_ret nofun)⟩)
      (fun _ => ⟨rfl, rfl, rfl, rfl⟩) rfl rfl
    rw [Function.update_eq_self]
    split_ifs
    · exact woken_wakeAll _
    · exact .refl _

/-! ## What the books say -/

section Consequences

omit [DecidableEq T]

/-- The accepted task `i` is queued or has been dequeued, once; and it is between two stations or
has passed the next one. -/
structure OnItsWay (es : List (Event T)) (s : State T) (i : ℕ) : Prop where
  queued : tally Event.dequeues es i + s.core.ring.toList.count i = 1
  dequeued : tally Event.dequeues es i =
    numAt (Point.fetches i) s.threads + tally Event.calls es i
  called : tally Event.calls es i =
    numAt (Point.runs i) s.threads + tally Event.finishes es i
  finished : tally Event.finishes es i =
    numAt (Point.releasing i) s.threads + tally Event.releases es i

/-- Task `i` was dequeued, called, finished and released, each of it once. -/
structure Done (es : List (Event T)) (i : ℕ) : Prop where
  dequeued : tally Event.dequeues es i = 1
  called : tally Event.calls es i = 1
  finished : tally Event.finishes es i = 1
  released : tally Event.releases es i = 1

/-- The pool is at rest: it was made, all its workers have started, and each of them sleeps or has
left its loop. -/
structure State.Rest (s : State T) : Prop where
  result : s.result = some 0
  started : s.starting = 0
  workers : ∀ t, (s.threads t).point.worker = true →
    (s.threads t).asleepOn Point.cond .notEmpty = true ∨ (s.threads t).point.left = true

namespace Books

variable {i : ℕ}

/-- A task is answered at most once. -/
theorem answered_le (hb : Books es s) :
    tally Event.accepted es i + tally Event.rejected es i ≤ 1 := by
  have h := hb.submitted i
  split_ifs at h <;> omega

theorem nodup (hb : Books es s) : (es.filterMap Event.accepted).Nodup := by
  refine List.nodup_iff_count_le_one.2 fun i => ?_
  have h := hb.answered_le (i := i)
  have h' : (es.filterMap Event.accepted).count i = tally Event.accepted es i := rfl
  omega

theorem dequeues_add (hb : Books es s) :
    tally Event.dequeues es i + s.core.ring.toList.count i = tally Event.accepted es i := by
  rw [tally, tally, hb.queue, List.count_append]

theorem onItsWay (hb : Books es s) (hi : i ∈ es.filterMap Event.accepted) : OnItsWay es s i := by
  have h₁ := hb.answered_le (i := i)
  have h₂ := tally_pos.2 hi
  have h₃ := hb.dequeues_add (i := i)
  have h₄ := hb.released i
  exact ⟨by omega, hb.dequeued i, hb.called i, by omega⟩

theorem of_rejected (hb : Books es s) (hi : i ∈ es.filterMap Event.rejected) :
    tally Event.dequeues es i = 0 ∧ tally Event.calls es i = 0 ∧
      tally Event.releases es i = 1 := by
  have h₁ := hb.answered_le (i := i)
  have h₂ := tally_pos.2 hi
  have h₃ := hb.dequeues_add (i := i)
  have h₄ := hb.dequeued i
  have h₅ := hb.called i
  have h₆ := hb.released i
  have h₇ := hb.refused i
  exact ⟨by omega, by omega, by omega⟩

/-- With an empty queue and no thread between two stations, every accepted task is done. -/
theorem done (hb : Books es s) (hq : s.core.ring.count = 0)
    (h₁ : numAt (Point.fetches i) s.threads = 0) (h₂ : numAt (Point.runs i) s.threads = 0)
    (h₃ : numAt (Point.releasing i) s.threads = 0) (hi : i ∈ es.filterMap Event.accepted) :
    Done es i := by
  obtain ⟨w₁, w₂, w₃, w₄⟩ := hb.onItsWay hi
  have hnil : s.core.ring.toList = [] := by
    rw [RingBuffer.toList, hq]
    rfl
  rw [hnil, List.count_nil] at w₁
  exact ⟨by omega, by omega, by omega, by omega⟩

/-- **When no worker is alive, every accepted task is done.** -/
theorem done_of_alive (hb : Books es s) (h : Inv N t₀ s) (ha : s.alive = 0)
    (hi : i ∈ es.filterMap Event.accepted) : Done es i := by
  have hzero : numAt Point.live s.threads = 0 := by
    unfold State.alive at ha
    omega
  have hle : ∀ {r : Point → Bool}, (∀ p, r p = true → p.live = true) →
      numAt r s.threads = 0 := fun hr => Nat.le_zero.1 (hzero ▸ numAt_mono hr)
  exact hb.done (h.count_eq_zero ha) (hle fun _ hp => (Point.working_of_fetches hp).2)
    (hle fun _ hp => (Point.working_of_runs hp).2)
    (hle fun _ hp => (Point.working_of_releasing hp).2) hi

end Books

/-- A worker at rest is in the wait for tasks or past its loop, and has no task. -/
theorem State.Rest.numAt_eq_zero (hr : s.Rest) {r : Point → Bool}
    (hlive : ∀ p, r p = true → p.worker = true) (h₁ : r .loop = false) (h₂ : r .leave = false)
    (h₃ : r .exited = false) : numAt r s.threads = 0 := by
  refine Foundations.numAt_eq_zero.2 fun t => ?_
  by_contra ht
  have ht' := Bool.eq_true_of_not_eq_false ht
  rcases hr.workers t (hlive _ ht') with hs | hl
  · obtain ⟨p, hp, hc⟩ := (Pc.asleepOn_iff Point.cond).1 hs
    rw [hp, Pc.point_wait] at ht
    cases p with
    | loop => exact ht h₁
    | _ => cases hc
  · cases hp : (s.threads t).point with
    | leave => exact ht (hp ▸ h₂)
    | exited => exact ht (hp ▸ h₃)
    | _ => rw [hp] at hl; cases hl

/-- The queue of a pool at rest is empty. -/
theorem State.Rest.count_eq_zero (hr : s.Rest) (h : Inv N t₀ s) (ha : Awake s) :
    s.core.ring.count = 0 := by
  by_cases hsleep : ∃ t, (s.threads t).asleepOn Point.cond .notEmpty = true
  · exact ha.count_eq_zero hsleep hr.workers
  · have hmade := h.made hr.result
    have hpos := N.workers_pos
    rw [State.hired, hr.started] at hmade
    obtain ⟨t, ht⟩ := numAt_pos.1 (show 0 < numAt Point.worker s.threads by omega)
    rcases hr.workers t ht with hs | hl
    · exact absurd ⟨t, hs⟩ hsleep
    · exact ((h.pcs t).left hl).2

end Consequences

/-! ## What a step returns -/

/-- **Once the pool does not accept tasks, it never does again.** -/
theorem Move.closed_stays (hm : Move s s' e) (h : Inv N t₀ s) (ha : s.core.accepting = false) :
    s'.core.accepting = false ∧ e.filterMap Event.accepted = [] := by
  have hI := hm.inv h
  have haside : ∀ {l : List (Event T)}, (∀ y ∈ l, y.Aside) → l.filterMap Event.accepted = [] :=
    fun hl => filterMap_aside fun y hy => (hl y hy).1
  cases hm with
  | quiet t p x e ht hq => exact ⟨ha, hq.silent.1⟩
  | submitted t c k i block f ht ha' hf hs => cases ha.symm.trans ha'
  | closed t p q e ht hp => exact ⟨rfl, by cases hp <;> rfl⟩
  | unref t p q ht hp => exact ⟨ha, haside hI.freeEvents_aside⟩
  | gaveUp t st ht =>
    exact ⟨ha, haside (List.forall_mem_append.2 ⟨hI.freeEvents_aside,
      List.forall_mem_singleton.2 (Event.aside_ret nofun)⟩)⟩
  | drop t k hk hu =>
    refine ⟨?_, haside (List.forall_mem_append.2 ⟨hI.freeEvents_aside,
      List.forall_mem_singleton.2 (Event.aside_ret nofun)⟩)⟩
    change (s.core.accepting && _) = false
    rw [ha, Bool.false_and]
  | _ => exact ⟨ha, rfl⟩

/-- A submission returns no error; unless it accepts its task it gives it up for a reason. -/
theorem Move.submit_ret (hm : Move s s' e) (h : Inv N t₀ s) {i : ℕ} {block : Bool}
    {result error : ℤ} (he : .ret t (.submit i block) result error ∈ e) :
    error = 0 ∧ (result = 0 ∨ (∃ c, Refusal s.core c block result) ∧
      e = [.released i, .ret t (.submit i block) result 0]) := by
  have hI := hm.inv h
  cases hm with
  | quiet u p x e ht hq =>
    cases hq with
    | observed c op r err hop =>
      rcases hop with rfl | rfl | rfl <;> simp at he
    | refused c k j block code hcode =>
      simp only [List.mem_cons, reduceCtorEq, Event.ret.injEq, Op.submit.injEq, List.not_mem_nil,
        or_false, false_or] at he
      obtain ⟨rfl, ⟨rfl, rfl⟩, rfl, rfl⟩ := he
      exact ⟨rfl, .inr ⟨⟨c, hcode⟩, rfl⟩⟩
    | _ => simp at he
  | submitted u c k j block f ht ha hf hs =>
    simp only [List.mem_singleton, Event.ret.injEq] at he
    obtain ⟨-, -, rfl, rfl⟩ := he
    exact ⟨rfl, .inl rfl⟩
  | closed u p q e ht hp => cases hp <;> simp at he
  | unref u p q ht hp => exact absurd he hI.ret_notMem_freeEvents
  | gaveUp u st ht =>
    rcases List.mem_append.1 he with hf | hr
    · exact absurd hf hI.ret_notMem_freeEvents
    · simp at hr
  | drop u k hk hu =>
    rcases List.mem_append.1 he with hf | hr
    · exact absurd hf hI.ret_notMem_freeEvents
    · simp at hr
  | _ => simp at he

/-- A blocking submission returns zero, the code of a closed pool, or that of a worker that would
block itself. -/
theorem Move.execute_ret (hm : Move s s' e) (h : Inv N t₀ s) {i : ℕ} {result error : ℤ}
    (he : .ret t (.submit i true) result error ∈ e) :
    error = 0 ∧ (result = 0 ∨ result = 3 ∨ result = 2 ∧ s.core.accepting = false) := by
  obtain ⟨rfl, rfl | ⟨⟨c, hcode⟩, -⟩⟩ := hm.submit_ret h he
  · exact ⟨rfl, .inl rfl⟩
  · cases hcode with
    | closed ha => exact ⟨rfl, .inr (.inr ⟨rfl, ha⟩)⟩
    | full hb hf => cases hb
    | own hb hc hf => exact ⟨rfl, .inr (.inl rfl)⟩

/-- A shutdown that returns zero without an error has seen the end of the workers. -/
theorem Move.shutdown_ret (hm : Move s s' e) (h : Inv N t₀ s)
    (he : .ret t .shutdown 0 0 ∈ e) : s'.core.liveWorkers = 0 := by
  have hI := hm.inv h
  cases hm with
  | quiet u p x e ht hq =>
    cases hq with
    | observed c op r err hop =>
      rcases hop with rfl | rfl | rfl <;> simp at he
    | stopped k hl => exact hl
    | _ => simp at he
  | closed u p q e ht hp => cases hp <;> simp at he
  | unref u p q ht hp => exact absurd he hI.ret_notMem_freeEvents
  | gaveUp u st ht =>
    rcases List.mem_append.1 he with hf | hr
    · exact absurd hf hI.ret_notMem_freeEvents
    · simp at hr
  | drop u k hk hu =>
    rcases List.mem_append.1 he with hf | hr
    · exact absurd hf hI.ret_notMem_freeEvents
    · simp at hr
  | _ => simp at he

/-! ## Runs -/

theorem books_init : Books [] (State.init N t₀) := by
  refine ⟨fun i => ?_, rfl, fun i => ?_, fun i => ?_, fun i => ?_, fun i => le_rfl⟩
  · rw [numAt_init rfl rfl]
    rfl
  · rw [numAt_init rfl rfl]
    rfl
  · rw [numAt_init rfl rfl]
    rfl
  · rw [numAt_init rfl rfl]
    rfl

theorem books_of_exec (h : Exec step Assumed (State.init N t₀) es s) : Books es s := by
  refine (h.invariant (I := fun es s => Inv N t₀ s ∧ Books es s) ⟨inv_init N t₀, books_init⟩
    fun ⟨hI, hb⟩ hs hG => ?_).2
  have hm := step_move (fun t => (hI.pcs t).wait) hs hG.1 hG.2
  exact ⟨hm.inv hI, hm.books hI hb⟩

/-- Along a run from a pool that does not accept tasks, nothing is accepted. -/
theorem closed_of_exec (hI : Inv N t₀ s) (ha : s.core.accepting = false)
    (h : Exec step Assumed s e s') :
    s'.core.accepting = false ∧ e.filterMap Event.accepted = [] := by
  refine (h.invariant (I := fun e s' => Inv N t₀ s' ∧ s'.core.accepting = false ∧
    e.filterMap Event.accepted = []) ⟨hI, ha, rfl⟩ fun ⟨hI, ha, he⟩ hs hG => ?_).2
  have hm := step_move (fun t => (hI.pcs t).wait) hs hG.1 hG.2
  obtain ⟨ha', he'⟩ := hm.closed_stays hI ha
  exact ⟨hm.inv hI, ha', by rw [List.filterMap_append, he, he']; rfl⟩

/-- No blocking submission returns the code of a full queue. -/
theorem execute_ne_full (h : Exec step Assumed (State.init N t₀) es s) :
    ∀ t i result error, .ret t (.submit i true) result error ∈ es → result ≠ 1 := by
  refine (h.invariant (I := fun es s => Inv N t₀ s ∧ ∀ t i result error,
    .ret t (.submit i true) result error ∈ es → result ≠ 1) ⟨inv_init N t₀, nofun⟩
    fun ⟨hI, hes⟩ hs hG => ?_).2
  have hm := step_move (fun t => (hI.pcs t).wait) hs hG.1 hG.2
  refine ⟨hm.inv hI, fun t i result error hret => ?_⟩
  rcases List.mem_append.1 hret with hold | hnew
  · exact hes t i result error hold
  · obtain ⟨-, rfl | rfl | ⟨rfl, -⟩⟩ := hm.execute_ret hI hnew <;> decide

/-- **Exactly-once execution and complete shutdown.** In every run, the accepted tasks are distinct
and are dequeued in the order of their acceptance; each is queued or on its way through one worker,
and it is done as soon as the workers are at rest or the core is freed. A rejected task is never
called and is released once. A blocking submission never reports a full queue, and reports a closed
pool only when the pool does not accept tasks, which from then on it never does. A shutdown that
returns zero without an error leaves no live worker, an empty queue, and every accepted task
done. -/
theorem thread_pool_exactly_once (h : Exec step Assumed (State.init N t₀) es s) :
    es.filterMap Event.accepted = es.filterMap Event.dequeues ++ s.core.ring.toList ∧
    (es.filterMap Event.accepted).Nodup ∧
    (∀ i ∈ es.filterMap Event.accepted, OnItsWay es s i) ∧
    (s.Rest ∨ s.freed = true → ∀ i ∈ es.filterMap Event.accepted, Done es i) ∧
    (∀ i ∈ es.filterMap Event.rejected, tally Event.dequeues es i = 0 ∧
      tally Event.calls es i = 0 ∧ tally Event.releases es i = 1) ∧
    (∀ t i result error, .ret t (.submit i true) result error ∈ es → result ≠ 1) ∧
    (∀ e s', Exec step Assumed s e s' → s.core.accepting = false →
      s'.core.accepting = false ∧ e.filterMap Event.accepted = []) ∧
    (∀ a s' e, step s a = some (s', e) → Assumed s a s' →
      (∀ t i result error, .ret t (.submit i true) result error ∈ e →
        executeResult result error = .error .threadPoolClosed → s.core.accepting = false) ∧
      (∀ t, .ret t .shutdown 0 0 ∈ e → s'.core.liveWorkers = 0 ∧ s'.core.ring.count = 0 ∧
        ∀ i ∈ (es ++ e).filterMap Event.accepted, Done (es ++ e) i)) := by
  have hI := inv_of_exec h
  have hb := books_of_exec h
  refine ⟨hb.queue, hb.nodup, fun i hi => hb.onItsWay hi, ?_, fun i hi => hb.of_rejected hi,
    execute_ne_full h, fun e s' he ha => closed_of_exec hI ha he, fun a s' e hs hG => ?_⟩
  · rintro (hr | hf) i hi
    · refine hb.done (hr.count_eq_zero hI (awake_of_exec h)) ?_ ?_ ?_ hi
      · exact hr.numAt_eq_zero (fun _ hp => (Point.working_of_fetches hp).1) rfl rfl rfl
      · exact hr.numAt_eq_zero (fun _ hp => (Point.working_of_runs hp).1) rfl rfl rfl
      · exact hr.numAt_eq_zero (fun _ hp => (Point.working_of_releasing hp).1) rfl rfl rfl
    · have hle := Inv.alive_le_owners (s := s)
      rw [hI.freed.1 hf] at hle
      exact hb.done_of_alive hI (Nat.le_zero.1 hle) hi
  · have hm := step_move (fun t => (hI.pcs t).wait) hs hG.1 hG.2
    have hI' := hm.inv hI
    refine ⟨fun t i result error hret hres => ?_, fun t hret => ?_⟩
    · obtain ⟨rfl, rfl | rfl | ⟨rfl, ha⟩⟩ := hm.execute_ret hI hret
      · cases hres
      · cases hres
      · exact ha
    · have hl := hm.shutdown_ret hI hret
      have halive := hI'.liveWorkers_eq_zero.1 hl
      exact ⟨hl, hI'.count_eq_zero halive, fun i hi =>
        (hm.books hI hb).done_of_alive hI' halive hi⟩

/-- A pool with one worker and one slot: the second of three tasks is rejected, the first one
submits the third, and a shutdown waits for both. -/
theorem thread_pool_exactly_once_one_worker :
    ∃ (es : List (Event (Fin 2))) (s : State (Fin 2)),
      Exec step Assumed
        (State.init ⟨1, 1, by decide, by decide, by decide, by decide⟩ 0) es s ∧
      es.filterMap Event.accepted = [0, 2] ∧ es.filterMap Event.rejected = [1] ∧
      .ret 0 .shutdown 0 0 ∈ es ∧ s.freed = true ∧ Done es 0 ∧ Done es 2 ∧
      tally Event.calls es 1 = 0 ∧ tally Event.releases es 1 = 1 := by
  obtain ⟨es, s, h, ht⟩ := Exec.exists_of_run step Assumed
    (State.init (T := Fin 2) ⟨1, 1, by decide, by decide, by decide, by decide⟩ 0)
    [.advance 0 0, .lock 0 {} none, .advance 0 0, .advance 0 0, .start 1,
      .callSubmit 0 0 false 0, .lock 0 {} none, .callSubmit 0 0 false 0, .lock 0 {} none,
      .lock 1 {} none, .advance 1 0, .callSubmit 1 0 true 0, .lock 1 {} none, .advance 1 0,
      .advance 1 0, .callShutdown 0 0 0, .lock 0 {} none, .lock 0 {} none, .lock 1 {} none,
      .advance 1 0, .advance 1 0, .advance 1 0, .lock 1 {} none, .resume 0 {} none,
      .advance 1 0, .drop 0 0 {}]
    (fun s es => decide (es.filterMap Event.accepted = [0, 2] ∧
      es.filterMap Event.rejected = [1] ∧ .ret 0 .shutdown 0 0 ∈ es ∧ s.freed = true))
    (by decide +kernel)
  obtain ⟨hacc, hrej, hret, hfreed⟩ := of_decide_eq_true ht
  obtain ⟨-, -, -, hdone, hrejected, -⟩ := thread_pool_exactly_once h
  obtain ⟨-, hcalls, hreleases⟩ := hrejected 1 (by rw [hrej]; decide)
  exact ⟨es, s, h, hacc, hrej, hret, hfreed, hdone (.inr hfreed) 0 (by rw [hacc]; decide),
    hdone (.inr hfreed) 2 (by rw [hacc]; decide), hcalls, hreleases⟩

end NativeSync.ThreadPool
