import NativeSync.ThreadPool.Failures

/-!
# The thread pool: the lifetime of its core

A reference of the core belongs to a handle, to the constructor until it returns, or to a worker
until it gives the reference up at its end (`State.references`). The counter `refs` is their number
modulo `2^32`, and as there are at most `2^31 + 64` of them it is zero only when there is none.

* `freed_step` says that the core is freed at the step that gives up the last reference, so that a
  run frees it at most once.
* `step_covered` says that a thread that takes a step has a reference of its own or works through a
  live handle, so that nobody touches the core after it was freed.
* `Unmade` is what holds as long as the constructor has returned no handle: nothing was submitted,
  and the constructor gives up only when no worker is alive.

Everything here holds whatever the primitives return and wherever the creation of a thread fails.
-/

namespace NativeSync.ThreadPool

open Foundations

/-- The thread is a worker that has not given up its reference. -/
def Point.employed : Point → Bool
  | exited => false
  | p => p.worker

/-- The thread that takes an action. -/
def Action.thread {T : Type} : Action T → T
  | arrive t => t
  | start t => t
  | callSubmit t .. => t
  | callShutdown t .. => t
  | lock t .. => t
  | spurious t => t
  | resume t .. => t
  | advance t _ => t
  | close t .. => t
  | isClosed t .. => t
  | pendingCount t .. => t
  | share t .. => t
  | drop t .. => t

/-- The handle that an action is given. -/
def Action.handle {T : Type} : Action T → Option ℕ
  | callSubmit _ h .. => some h
  | callShutdown _ h _ => some h
  | close _ h _ => some h
  | isClosed _ h _ => some h
  | pendingCount _ h _ => some h
  | share _ h .. => some h
  | drop _ h _ => some h
  | _ => none

variable {T : Type}

/-- The thread of an action may touch the core: it has not given up the reference of a worker, the
handles that it uses are live, and if it uses none it has a reference of its own. -/
structure Covered (s : State T) (a : Action T) : Prop where
  employed : (s.threads a.thread).point ≠ .exited
  handle : ∀ h, a.handle = some h ∨ (s.threads a.thread).point.handle = some h → h ∈ s.handles
  own : a.handle = none → (s.threads a.thread).point.handle = none →
    (s.threads a.thread).point.holds = true ∨ a = .start a.thread ∧ 0 < s.starting

variable [Fintype T]

/-- The workers that have not released the core: those that run, those that were created and have
not run yet, and the one that the constructor has taken a reference for. -/
def State.unreleased (s : State T) : ℕ :=
  numAt Point.employed s.threads + numAt Point.holdsTwice s.threads + s.starting

/-- The references of the core: those of the live handles, that of a constructor that has not
returned, and those of the workers that have not released the core. -/
def State.references (s : State T) : ℕ :=
  s.handles.card + (if s.result = none then 1 else 0) + s.unreleased

variable {N : Size} {s s' : State T} {es e : List (Event T)} {a : Action T} {t t₀ u : T}
  {f : T → Pc Point} {x : Pc Point} {status : ℤ}

namespace Inv

/-- Only one thread is in the constructor. -/
theorem creator_unique (h : Inv N t₀ s) (ht : (s.threads t).point.creating = true)
    (hu : (s.threads u).point.creating = true) : t = u :=
  ((h.creator t).1 ht).1.trans ((h.creator u).1 hu).1.symm

theorem numAt_creating (h : Inv N t₀ s) :
    numAt Point.creating s.threads = if s.result = none then 1 else 0 := by
  split_ifs with hr
  · exact le_antisymm h.creating_le (numAt_pos.2 ⟨t₀, (h.creator t₀).2 ⟨rfl, hr⟩⟩)
  · refine numAt_eq_zero.2 fun u => Bool.eq_false_iff.2 fun hu => hr ?_
    exact ((h.creator u).1 hu).2

/-- **The references are those that the invariant counts.** -/
theorem owners_eq (h : Inv N t₀ s) : s.owners = s.references := by
  have hsplit : numAt Point.holds s.threads =
      numAt Point.employed s.threads + numAt Point.creating s.threads := by
    refine numAt_split (fun p => ?_) fun p hp => ?_
    · cases p <;> rfl
    · cases p <;> first | rfl | cases hp
  unfold State.owners State.references State.unreleased
  rw [hsplit, h.numAt_creating]
  omega

theorem owners_pos_of_holds (ht : (s.threads t).point.holds = true) : 0 < s.owners := by
  have hpos : 0 < numAt Point.holds s.threads := numAt_pos.2 ⟨t, ht⟩
  unfold State.owners
  omega

theorem owners_pos_of_mem {k : ℕ} (hk : k ∈ s.handles) : 0 < s.owners := by
  have hpos : 0 < s.handles.card := Finset.card_pos.2 ⟨k, hk⟩
  unfold State.owners
  omega

theorem not_freed_of_pos (h : Inv N t₀ s) (hpos : 0 < s.owners) : s.freed = false := by
  rw [← Bool.not_eq_true, h.freed]
  omega

/-- A live handle is counted, so its finalizer does not abort. -/
theorem handles_pos (h : Inv N t₀ s) {k : ℕ} (hk : k ∈ s.handles) : 0 < s.core.handles := by
  have hpos : 0 < s.handles.card := Finset.card_pos.2 ⟨k, hk⟩
  rw [h.handles, if_pos (h.result_of_mem hk)]
  omega

end Inv

/-! ## Who takes a step -/

omit [Fintype T] in
/-- Whoever is covered has a reference, so the core is there. -/
theorem Covered.references_pos [Fintype T] (hc : Covered s a) : 0 < s.owners := by
  cases ha : a.handle with
  | some h => exact Inv.owners_pos_of_mem (hc.handle h (.inl ha))
  | none =>
    cases hp : (s.threads a.thread).point.handle with
    | some h => exact Inv.owners_pos_of_mem (hc.handle h (.inr hp))
    | none =>
      rcases hc.own ha hp with ht | ⟨-, hs⟩
      · exact Inv.owners_pos_of_holds ht
      · unfold State.owners
        omega

variable [DecidableEq T]

omit [DecidableEq T] in
/-- A thread inside an operation or at the work of a worker or of the constructor is covered. -/
theorem covered_of_point (h : Inv N t₀ s) (ha : a.handle = none)
    (hp : (s.threads a.thread).point.holds = true ∨
      ∃ k, (s.threads a.thread).point.handle = some k) : Covered s a where
  employed := by
    intro he
    rw [he] at hp
    rcases hp with hp | ⟨k, hp⟩ <;> cases hp
  handle := by
    rintro k (hk | hk)
    · cases ha.symm.trans hk
    · exact (h.pcs _).handle k hk
  own := by
    intro _ hnone
    rcases hp with hp | ⟨k, hp⟩
    · exact .inl hp
    · cases hnone.symm.trans hp

omit [DecidableEq T] in
/-- A thread that calls an operation with a live handle is covered. -/
theorem covered_of_mem (h : Inv N t₀ s) {k : ℕ} (ha : a.handle = some k) (hk : k ∈ s.handles)
    (hp : (s.threads a.thread).point ≠ .exited) : Covered s a where
  employed := hp
  handle := by
    rintro j (hj | hj)
    · obtain rfl := Option.some.inj (ha.symm.trans hj)
      exact hk
    · exact (h.pcs _).handle j hj
  own := fun hnone => by cases hnone.symm.trans ha

/-- **Nobody touches the core without a reference**: every step but the arrival of a thread is
covered. -/
theorem step_covered (h : Inv N t₀ s) (hs : step s a = some (s', e)) :
    (∃ t, a = .arrive t) ∨ Covered s a := by
  cases a with
  | arrive t => exact .inl ⟨t, rfl⟩
  | start t =>
    refine .inr ?_
    simp only [step] at hs
    split_ifs at hs with hc
    have hp : (s.threads t).point = .absent := by
      rw [hc.1]
      rfl
    refine ⟨fun he => ?_, fun k hk => ?_, fun _ _ => .inr ⟨rfl, hc.2⟩⟩
    · cases hp.symm.trans he
    · rcases hk with hk | hk
      · cases hk
      · exact (h.pcs t).handle k hk
  | callSubmit t k block injected =>
    refine .inr ?_
    simp only [step] at hs
    split at hs
    · rename_i c ht
      split_ifs at hs with hk <;>
        exact covered_of_mem h rfl (by assumption) (by simp [Action.thread, ht])
    · cases hs
  | callShutdown t k injected =>
    refine .inr ?_
    simp only [step] at hs
    split at hs
    · rename_i c ht
      split_ifs at hs with hk <;>
        exact covered_of_mem h rfl (by assumption) (by simp [Action.thread, ht])
    · cases hs
  | spurious t =>
    refine .inr (covered_of_point h rfl ?_)
    simp only [step] at hs
    split at hs
    · rename_i p ht
      have hw := (h.pcs t).wait _ p ht
      change (s.threads t).point.holds = true ∨ ∃ k, (s.threads t).point.handle = some k
      rw [ht]
      cases p <;> first | exact .inl rfl | exact .inr ⟨_, rfl⟩ | cases hw
    · cases hs
  | lock t os pick | resume t os pick =>
    refine .inr (covered_of_point h rfl ?_)
    simp only [step] at hs
    split at hs
    all_goals first
      | rename_i ht
        change (s.threads t).point.holds = true ∨ ∃ k, (s.threads t).point.handle = some k
        rw [ht]
        first
        | exact .inl rfl
        | exact .inr ⟨_, rfl⟩
      | cases hs
  | advance t status =>
    refine .inr (covered_of_point h rfl (.inl ?_))
    simp only [step, State.advance] at hs
    change (s.threads t).point.holds = true
    split at hs
    all_goals first
      | rename_i ht
        rw [ht]
        rfl
      | cases hs
  | close t k os | isClosed t k os | pendingCount t k os =>
    refine .inr ?_
    simp only [step] at hs
    split at hs
    · rename_i c ht
      split_ifs at hs with hk
      exact covered_of_mem h rfl hk (by simp [Action.thread, ht])
    · cases hs
  | share t k k' os =>
    refine .inr ?_
    simp only [step] at hs
    split at hs
    · rename_i c ht
      split_ifs at hs with hk
      rw [not_or, not_not] at hk
      exact covered_of_mem h rfl hk.1 (by simp [Action.thread, ht])
    · cases hs
  | drop t k os =>
    refine .inr ?_
    simp only [step] at hs
    split at hs
    · rename_i p ht
      split_ifs at hs with hk
      refine covered_of_mem h rfl hk.2.1 fun he => ?_
      have hp : p = .exited := by simpa [Action.thread, ht] using he
      rw [hp] at hk
      cases hk.1
    · cases hs

/-! ## When the core is freed -/

omit [Fintype T] [DecidableEq T] in
theorem Quiet.not_freed {p : Point} (hq : Quiet s t p x e) : .freed ∉ e := by
  cases hq with
  | observed c op result error hop => rcases hop with rfl | rfl | rfl <;> simp
  | _ => simp

/-- A move gives up no reference, or it gives up one and frees the core if that was the last. -/
theorem Move.freed (hm : Move s s' e) :
    (.freed ∉ e ∧ s'.freed = s.freed) ∨
      0 < s.owners ∧ s'.freed = (s.freed || decide (s'.core.refs = 0)) ∧
        ∃ rest, .freed ∉ rest ∧ e = freeEvents s'.core ++ rest := by
  cases hm with
  | quiet t p x e ht hq => exact .inl ⟨hq.not_freed, rfl⟩
  | closed t p q e ht hp => exact .inl ⟨by cases hp <;> simp, rfl⟩
  | unref t p q ht hp =>
    refine .inr ⟨Inv.owners_pos_of_holds (t := t) ?_, rfl, [], by simp, by simp⟩
    rw [ht.point]
    cases hp <;> rfl
  | gaveUp t st ht =>
    refine .inr ⟨Inv.owners_pos_of_holds (t := t) ?_, rfl, _, by simp, rfl⟩
    rw [ht.point]
    rfl
  | drop t k hk hu => exact .inr ⟨Inv.owners_pos_of_mem hk, rfl, _, by simp, rfl⟩
  | _ => exact .inl ⟨by simp, rfl⟩

omit [Fintype T] in
theorem Fault.not_freed (hf : Fault a s s' e) : .freed ∉ e ∧ s'.freed = s.freed := by
  cases hf with
  | failed t p x e ht hp => exact ⟨by cases hp <;> simp, rfl⟩
  | closed t p q e f ht hp hw => exact ⟨by cases hp <;> simp, rfl⟩
  | _ => exact ⟨by simp, rfl⟩

theorem inv_step (h : Inv N t₀ s) (hs : step s a = some (s', e)) : Inv N t₀ s' := by
  rcases step_cases (fun t => (h.pcs t).wait) hs with hm | hf
  · exact hm.inv h
  · exact hf.inv h

/-- **The core is freed by the step that gives up the last reference.** -/
theorem freed_step (h : Inv N t₀ s) (hs : step s a = some (s', e)) :
    s.freed.toNat + e.count .freed = s'.freed.toNat := by
  have hI := inv_step h hs
  have hquiet : .freed ∉ e ∧ s'.freed = s.freed →
      s.freed.toNat + e.count .freed = s'.freed.toNat := by
    rintro ⟨hne, heq⟩
    rw [List.count_eq_zero.2 hne, heq, Nat.add_zero]
  rcases step_cases (fun t => (h.pcs t).wait) hs with hm | hf
  · rcases hm.freed with hq | ⟨hpos, hfreed, rest, hrest, he⟩
    · exact hquiet hq
    · rw [he, hI.freeEvents_eq, hfreed, h.not_freed_of_pos hpos, List.count_append,
        List.count_eq_zero.2 hrest]
      by_cases hr : s'.core.refs = 0 <;> simp [hr]
  · exact hquiet hf.not_freed

omit [DecidableEq T] in
theorem Inv.freed_eq (h : Inv N t₀ s) : s.freed = decide (s.references = 0) := by
  rw [Bool.eq_iff_iff, decide_eq_true_eq, h.freed, h.owners_eq]

theorem freed_mem_iff (h : Inv N t₀ s) (hs : step s a = some (s', e)) :
    .freed ∈ e ↔ 0 < s.references ∧ s'.references = 0 := by
  have hcount := freed_step h hs
  rw [h.freed_eq, (inv_step h hs).freed_eq] at hcount
  rw [← List.count_pos_iff]
  by_cases h₁ : s.references = 0 <;> by_cases h₂ : s'.references = 0 <;>
    simp only [h₁, h₂, decide_true, decide_false, Bool.toNat_true, Bool.toNat_false] at hcount <;>
    omega

theorem count_freed (h : Exec step AnyStatus (State.init N t₀) es s) :
    es.count .freed = s.freed.toNat := by
  refine (h.invariant (I := fun es s => Inv N t₀ s ∧ es.count .freed = s.freed.toNat)
    ⟨inv_init N t₀, rfl⟩ fun ⟨hI, hes⟩ hs _ => ⟨inv_step hI hs, ?_⟩).2
  rw [List.count_append, hes]
  exact freed_step hI hs

/-! ## A constructor that fails -/

/-- What holds until the constructor has returned a handle: no task was submitted, and it gives up
only when no worker is counted as live. -/
structure Unmade (s : State T) : Prop where
  tasks : s.result ≠ some 0 → s.tasks = 0
  drained : ∀ t st, (s.threads t).point = .giveUp st → s.core.liveWorkers = 0

omit [Fintype T] in
/-- A thread that moves elsewhere does not come to give up. -/
theorem giveUp_of_woken (hw : Woken (Function.update s.threads t x) f)
    (hx : ∀ st, x.point ≠ .giveUp st) (hu : (f u).point = .giveUp status) :
    (s.threads u).point = .giveUp status := by
  rw [hw.point] at hu
  by_cases hut : u = t
  · rw [hut, Function.update_self] at hu
    exact absurd hu (hx status)
  · rwa [Function.update_of_ne hut] at hu

omit [Fintype T] [DecidableEq T] in
theorem Quiet.giveUp {p : Point} (hq : Quiet s t p x e) (hx : x.point = .giveUp status) :
    s.core.liveWorkers = 0 := by
  cases hq with
  | drained st hl => exact hl
  | _ => cases hx

theorem Unmade.move (h : Unmade s) (hI : Inv N t₀ s) (hm : Move s s' e) : Unmade s' := by
  have hmade : ∀ {k}, k ∈ s.handles → s.result ≠ some 0 → ∀ {n : ℕ}, n = 0 :=
    fun hk hr => absurd (hI.result_of_mem hk) hr
  -- a thread that is elsewhere in the constructor shows that nobody gives up
  have hother : ∀ {t u p st}, (s.threads t).Ready p → p.creating = true → (∀ st, p ≠ .giveUp st) →
      (s.threads u).point = .giveUp st → False := by
    intro t u p st ht hp hne hu
    have htu := hI.creator_unique (t := t) (u := u) (by rwa [ht.point]) (by rw [hu]; rfl)
    rw [← htu, ht.point] at hu
    exact hne st hu
  cases hm with
  | quiet t p x e ht hq =>
    refine ⟨h.tasks, fun u st hu => ?_⟩
    by_cases hx : ∃ st, x.point = .giveUp st
    · exact hq.giveUp hx.choose_spec
    · exact h.drained u st (giveUp_of_woken (.refl _) (not_exists.1 hx) hu)
  | spurious t p ht =>
    refine ⟨h.tasks, fun u st hu => ?_⟩
    have hw := (hI.pcs t).wait _ p ht
    refine h.drained u st (giveUp_of_woken (.refl _) (fun st hp => ?_) hu)
    rw [show p = .giveUp st from hp] at hw
    cases hw
  | callSubmit t c k block ht hk =>
    exact ⟨fun hr => hmade hk hr, fun u st hu =>
      h.drained u st (giveUp_of_woken (.refl _) (by simp) hu)⟩
  | submitted t c k i block f ht ha hf hs =>
    exact ⟨h.tasks, fun u st hu => h.drained u st (giveUp_of_woken (.of_signalled hs) (by simp) hu)⟩
  | closed t p q e ht hp =>
    refine ⟨h.tasks, fun u st hu => h.drained u st (giveUp_of_woken (woken_wakeAll _) ?_ hu)⟩
    cases hp <;> simp
  | fetch t i f ht hc hi hs =>
    exact ⟨h.tasks, fun u st hu => h.drained u st (giveUp_of_woken (.of_signalled hs) (by simp) hu)⟩
  | leave t ht hc ha =>
    refine ⟨h.tasks, fun u st hu => ?_⟩
    have halive := hI.liveWorkers_eq_zero.1
      (h.drained u st (giveUp_of_woken (.of_broadcast _ _) (by simp) hu))
    have hpos : 0 < numAt Point.live s.threads := numAt_pos.2 ⟨t, by rw [ht.point]; rfl⟩
    unfold State.alive at halive
    omega
  | unref t p q ht hp =>
    refine ⟨h.tasks, fun u st hu => h.drained u st (giveUp_of_woken (.refl _) ?_ hu)⟩
    cases hp <;> simp
  | gaveUp t st ht =>
    obtain ⟨-, hr⟩ := (hI.creator t).1 (by rw [ht.point]; rfl)
    exact ⟨fun _ => h.tasks (by simp [hr]), fun u st hu =>
      h.drained u st (giveUp_of_woken (.refl _) (by simp) hu)⟩
  | start t ht hs =>
    exact ⟨h.tasks, fun u st hu => h.drained u st (giveUp_of_woken (.refl _) (by simp) hu)⟩
  | counting t i ht hi =>
    exact ⟨h.tasks, fun u st hu => h.drained u st (giveUp_of_woken (.refl _) (by simp) hu)⟩
  | created t i ht hi =>
    exact ⟨fun hr => absurd rfl hr, fun u st hu =>
      h.drained u st (giveUp_of_woken (.refl _) (by simp) hu)⟩
  | counted t i ht =>
    exact ⟨h.tasks, fun u st hu =>
      (hother ht rfl (by simp) (giveUp_of_woken (.refl _) (by simp) hu)).elim⟩
  | spawned t i ht =>
    exact ⟨h.tasks, fun u st hu => h.drained u st (giveUp_of_woken (.refl _) (by simp) hu)⟩
  | uncounted t st ht =>
    exact ⟨h.tasks, fun u st hu =>
      (hother ht rfl (by simp) (giveUp_of_woken (.refl _) (by simp) hu)).elim⟩
  | share t c k k' ht hk hk' hm => exact ⟨h.tasks, h.drained⟩
  | drop t k hk hu =>
    refine ⟨h.tasks, fun u st hu => h.drained u st ?_⟩
    have hw : Woken s.threads (if s.core.dropHandle.handles = 0 then wakeAll s.threads
        else s.threads) := by
      split_ifs
      · exact woken_wakeAll _
      · exact .refl _
    rw [← hw.point]
    exact hu

theorem Unmade.fault (h : Unmade s) (hI : Inv N t₀ s) (hf : Fault a s s' e) : Unmade s' := by
  cases hf with
  | failed t p x e ht hp =>
    refine ⟨h.tasks, fun u st hu => h.drained u st (giveUp_of_woken (.refl _) ?_ hu)⟩
    cases hp <;> simp
  | hook t c k block error ht hk =>
    exact ⟨fun hr => absurd (hI.result_of_mem hk) hr, h.drained⟩
  | submitted t c k i block f hin ha hf hw =>
    exact ⟨h.tasks, fun u st hu => h.drained u st (giveUp_of_woken hw (by simp) hu)⟩
  | closed t p q e f ht hp hw =>
    refine ⟨h.tasks, fun u st hu => h.drained u st (giveUp_of_woken hw ?_ hu)⟩
    cases hp <;> simp

/-- The constructor returns once. -/
theorem result_step (hI : Inv N t₀ s) (hs : step s a = some (s', e)) (hr : s.result ≠ none) :
    s'.result = s.result := by
  have hcreating : ∀ {t p}, (s.threads t).Ready p → p.creating = true → False := by
    intro t p ht hp
    exact hr ((hI.creator t).1 (by rwa [ht.point])).2
  rcases step_cases (fun t => (hI.pcs t).wait) hs with hm | hf
  · cases hm with
    | gaveUp t st ht => exact (hcreating ht rfl).elim
    | created t i ht hi => exact (hcreating ht rfl).elim
    | _ => rfl
  · cases hf <;> rfl

/-- A constructor that fails gave up at this step. -/
theorem new_ret (hI : Inv N t₀ s) (hs : step s a = some (s', e)) (hst : status ≠ 0)
    (he : .ret t .new 0 status ∈ e) :
    (s.threads t).point = .giveUp status ∧ s'.core.liveWorkers = s.core.liveWorkers ∧
      s'.result = some status := by
  have hI' := inv_step hI hs
  rcases step_cases (fun t => (hI.pcs t).wait) hs with hm | hf
  · cases hm with
    | quiet u p x e ht hq =>
      cases hq with
      | observed c op result error hop => rcases hop with rfl | rfl | rfl <;> simp at he
      | _ => simp at he
    | closed u p q e ht hp => cases hp <;> simp at he
    | unref u p q ht hp => exact absurd he hI'.ret_notMem_freeEvents
    | gaveUp u st ht =>
      rcases List.mem_append.1 he with he | he
      · exact absurd he hI'.ret_notMem_freeEvents
      · simp only [List.mem_singleton, Event.ret.injEq] at he
        obtain ⟨rfl, -, -, rfl⟩ := he
        exact ⟨ht.point, rfl, rfl⟩
    | created u i ht hi =>
      simp only [List.mem_singleton, Event.ret.injEq] at he
      exact absurd he.2.2.2 hst
    | drop u k hk hu =>
      rcases List.mem_append.1 he with he | he
      · exact absurd he hI'.ret_notMem_freeEvents
      · simp at he
    | _ => simp at he
  · cases hf with
    | failed u p x e ht hp =>
      cases hp with
      | aside c op result error hop => rcases hop with rfl | rfl <;> simp at he
      | _ => simp at he
    | closed u p q e f ht hp hw => cases hp <;> simp at he
    | _ => simp at he

theorem unmade_of_any (h : Exec step AnyStatus (State.init N t₀) es s) : Unmade s := by
  refine (h.stateInvariant (I := fun s => Inv N t₀ s ∧ Unmade s) ⟨inv_init N t₀, ?_⟩
    fun ⟨hI, hu⟩ hs _ => ⟨inv_step hI hs, ?_⟩).2
  · refine ⟨fun _ => rfl, fun t st ht => ?_⟩
    by_cases htt : t = t₀ <;> simp [State.init, htt] at ht
  · rcases step_cases (fun t => (hI.pcs t).wait) hs with hm | hf
    · exact hu.move hI hm
    · exact hu.fault hI hf

/-- As long as no handle was returned, nothing is called. -/
theorem calls_of_unmade (h : Exec step AnyStatus (State.init N t₀) es s)
    (hr : s.result ≠ some 0) (i : ℕ) : tally Event.calls es i = 0 := by
  have hb := (ok_of_any h).2
  have h₁ := hb.submitted i
  have h₂ := hb.dequeues_add (i := i)
  have h₃ := hb.dequeued i
  rw [(unmade_of_any h).tasks hr, if_neg (Nat.not_lt_zero i)] at h₁
  omega

theorem result_of_exec (hI : Inv N t₀ s) (hr : s.result ≠ none)
    (h : Exec step AnyStatus s es s') : s'.result = s.result := by
  refine (h.stateInvariant (I := fun s' => Inv N t₀ s' ∧ s'.result = s.result) ⟨hI, rfl⟩
    fun ⟨hI, heq⟩ hs _ => ⟨inv_step hI hs, ?_⟩).2
  rw [result_step hI hs (heq ▸ hr), heq]

/-! ## The lifetime -/

/-- What the counters of the core and its memory are in a state. -/
structure Lifetime (s : State T) : Prop where
  refs : s.core.refs = wrap32 s.references
  freed : s.freed = true ↔ s.references = 0
  handles : s.result = some 0 → s.core.handles = s.handles.card
  unmade : s.result ≠ some 0 → s.core.handles = 1 ∧ s.handles = ∅
  handles_le : s.core.handles ≤ int32Max
  handles_pos : ∀ h ∈ s.handles, 0 < s.core.handles

/-- A step of the run with the events `es` respects the lifetime of the core. -/
structure RespectsLifetime (es : List (Event T)) (s : State T) (a : Action T) (s' : State T)
    (e : List (Event T)) : Prop where
  covered : (∃ t, a = .arrive t) ∨ Covered s a ∧ s.freed = false
  freed : .freed ∈ e ↔ 0 < s.references ∧ s'.references = 0
  empty : .freed ∈ e → s'.core.ring.count = 0 ∧
    ∀ i ∈ (es ++ e).filterMap Event.accepted, Done (es ++ e) i
  share : ∀ t h h' os, a = .share t h h' os → s.core.handles = int32Max →
    s'.core = s.core ∧ s'.handles = s.handles ∧ ∃ status ≠ 0, e = [.ret t .share 0 status]
  failed : ∀ t status, status ≠ 0 → .ret t .new 0 status ∈ e → s'.core.liveWorkers = 0 ∧
    ∀ es' s'', Exec step AnyStatus s' es' s'' → ∀ i, tally Event.calls (es ++ e ++ es') i = 0

omit [DecidableEq T] in
theorem Inv.lifetime (h : Inv N t₀ s) : Lifetime s where
  refs := h.owners_eq ▸ h.refs
  freed := h.owners_eq ▸ h.freed
  handles := fun hr => h.handles.trans (if_pos hr)
  unmade := fun hr => ⟨h.handles.trans (if_neg hr), (h.unmade hr).1⟩
  handles_le := by
    have hle := h.handles_le
    rw [h.handles, int32Max]
    split_ifs <;> omega
  handles_pos := fun _ hk => h.handles_pos hk

/-- A share is rejected when `INT32_MAX` handles are counted. -/
theorem share_max {k k' : ℕ} {os : Os} (hmax : s.core.handles = int32Max)
    (hs : step s (.share t k k' os) = some (s', e)) :
    s'.core = s.core ∧ s'.handles = s.handles ∧ ∃ status ≠ 0, e = [.ret t .share 0 status] := by
  simp only [step] at hs
  split at hs
  · split_ifs at hs
    unfold ThreadPool.share at hs
    rw [if_pos hmax] at hs
    split_ifs at hs with hl
    · cases hs
      exact ⟨rfl, rfl, _, hl, rfl⟩
    · cases hs
      refine ⟨rfl, rfl, _, ?_, rfl⟩
      rw [zero_recordError]
      split_ifs with hu
      · exact show (-1 : ℤ) ≠ 0 by decide
      · exact hu
  · cases hs

/-- **The lifetime of the core.** In every run of a pool of any size, wherever the creation of a
thread fails and whatever the primitives return: `refs` counts the references modulo `2^32`, and the
core is freed exactly when there is none; once a handle was returned, `handles` is the number of
live handles, which never overflows, so that no finalizer aborts; the core is freed once, by the
step that gives up the last reference, with an empty queue and every accepted task done; nobody
takes a step without a reference; and when the constructor reports a failure, no worker is live and
no task was or will be called. -/
theorem thread_pool_lifetime (h : Exec step AnyStatus (State.init N t₀) es s) :
    Lifetime s ∧ es.count .freed = s.freed.toNat ∧
      ∀ a s' e, step s a = some (s', e) → RespectsLifetime es s a s' e := by
  have hI := (ok_of_any h).1
  refine ⟨hI.lifetime, count_freed h, fun a s' e hs => ?_⟩
  have hI' := inv_step hI hs
  have hnext := h.step hs trivial
  refine ⟨?_, freed_mem_iff hI hs, fun hf => ?_, ?_, fun t status hst hret => ?_⟩
  · rcases step_covered hI hs with hc | hc
    · exact .inl hc
    · exact .inr ⟨hc, hI.not_freed_of_pos hc.references_pos⟩
  · have hzero := ((freed_mem_iff hI hs).1 hf).2
    have halive : s'.alive = 0 := by
      have hle := Inv.alive_le_owners (s := s')
      rw [hI'.owners_eq, hzero] at hle
      exact Nat.le_zero.1 hle
    exact ⟨hI'.count_eq_zero halive, fun i hi => (ok_of_any hnext).2.done_of_alive hI' halive hi⟩
  · rintro t k k' os rfl hmax
    exact share_max hmax hs
  · obtain ⟨hp, hlive, hres⟩ := new_ret hI hs hst hret
    refine ⟨hlive.trans ((unmade_of_any h).drained t status hp), fun es' s'' hrest i => ?_⟩
    refine calls_of_unmade (hnext.trans hrest) ?_ i
    rw [result_of_exec hI' (by simp [hres]) hrest, hres]
    simpa using hst

/-- The only handle is dropped with a task in the queue; the worker calls the task and frees the
core. -/
theorem thread_pool_lifetime_last_worker :
    ∃ (es : List (Event (Fin 2))) (s s' : State (Fin 2)) (e : List (Event (Fin 2))),
      Exec step AnyStatus (State.init oneSlot 0) es s ∧
      step s (.advance 1 0) = some (s', e) ∧ .freed ∈ e ∧ Lifetime s ∧
      es.count .freed = s.freed.toNat ∧ s.references = 1 ∧ s'.references = 0 ∧
      es.filterMap Event.accepted = [0] ∧ Done (es ++ e) 0 := by
  obtain ⟨es, s, h, ht⟩ := Exec.exists_of_run step AnyStatus
    (State.init (T := Fin 2) oneSlot 0)
    [.advance 0 0, .lock 0 {} none, .advance 0 0, .advance 0 0, .callSubmit 0 0 false 0,
      .lock 0 {} none, .drop 0 0 {}, .start 1, .lock 1 {} none, .advance 1 0, .advance 1 0,
      .advance 1 0, .lock 1 {} none]
    (fun s es => decide (es.filterMap Event.accepted = [0] ∧ s.references = 1) &&
      (step s (.advance 1 0)).any fun (r : State (Fin 2) × List (Event (Fin 2))) =>
        decide (.freed ∈ r.2))
    (by decide +kernel)
  obtain ⟨hrun, hlast⟩ := Bool.and_eq_true_iff.1 ht
  obtain ⟨hacc, hone⟩ := of_decide_eq_true hrun
  obtain ⟨⟨s', e⟩, hs, hf⟩ := Option.any_eq_true _ _ |>.1 hlast
  have hf := of_decide_eq_true hf
  obtain ⟨hl, hc, hstep⟩ := thread_pool_lifetime h
  have hresp := hstep _ s' e hs
  refine ⟨es, s, s', e, h, hs, hf, hl, hc, hone, (hresp.freed.1 hf).2, hacc, ?_⟩
  refine (hresp.empty hf).2 0 ?_
  rw [List.filterMap_append, hacc]
  exact .head _

/-- Thread creation fails for the second of two workers. The constructor has reported the failure,
the first worker has not released the core yet, and `handles` is still one without a handle. -/
theorem handles_of_failed_constructor :
    ∃ (es : List (Event (Fin 2))) (s : State (Fin 2)),
      Exec step AnyStatus
        (State.init ⟨2, 1, by decide, by decide, by decide, by decide⟩ 0) es s ∧
      es = [.ret 0 .new 0 11] ∧ s.freed = false ∧ s.core.refs = 1 ∧ s.core.handles = 1 ∧
      s.handles = ∅ := by
  obtain ⟨es, s, h, ht⟩ := Exec.exists_of_run step AnyStatus
    (State.init (T := Fin 2) ⟨2, 1, by decide, by decide, by decide, by decide⟩ 0)
    [.advance 0 0, .lock 0 {} none, .advance 0 0, .advance 0 0, .lock 0 {} none,
      .advance 0 11, .lock 0 {} none, .advance 0 0, .lock 0 {} none, .start 1,
      .lock 1 {} none, .lock 0 {} none, .advance 0 0]
    (fun s es => decide (es = [.ret 0 .new 0 11] ∧ s.freed = false ∧ s.core.refs = 1 ∧
      s.core.handles = 1 ∧ s.handles = ∅))
    (by decide +kernel)
  exact ⟨es, s, h, of_decide_eq_true ht⟩

end NativeSync.ThreadPool
