import NativeSync.Foundations.Progress

/-!
# The allocation hook of the thread pool

A test may ask for the failure of a later allocation of the pool
(`sync_thread_pool_test_fail_alloc_after`). Every allocation then passes
`sync_thread_pool_test_should_fail_alloc`, which counts down by compare-and-exchange in a loop, in
any number of threads at once. The variable is one cell of memory; a step is one access to it, with
the test of what was read.

`Countdown` is what the hook is for: an object on which a pass is one move. The hook refines it; so
exactly one pass fails, the one that was asked for. A pass tries again only if another one has
changed the cell in the meantime.

The subtraction does not wrap, since it is from a positive value.
-/

namespace NativeSync.ThreadPool.AllocHook

open Foundations

/-- Where a thread stands in `sync_thread_pool_test_should_fail_alloc`. -/
inductive Point
  | idle
  /-- Before the load. -/
  | start
  /-- In the loop, with what it read last. -/
  | loop (current : ℤ)
  deriving DecidableEq

/-- The cell and the threads. -/
structure State (T : Type) where
  value : ℤ
  threads : T → Point

/-- What a run shows: the stores of the test, and the passes with their results. -/
inductive Event (T : Type)
  | armed (n : ℤ)
  | ret (t : T) (fails : Bool)
  deriving DecidableEq

inductive Action (T : Type)
  | arm (n : ℤ)
  | call (t : T)
  | load (t : T)
  | exchange (t : T)

variable {T : Type} [DecidableEq T]

namespace State

/-- Thread `t` moves to `p`. -/
def move (s : State T) (t : T) (p : Point) : State T :=
  { s with threads := Function.update s.threads t p }

/-- The head of the loop, for a thread that has just read the cell. -/
def head (s : State T) (t : T) : State T × List (Event T) :=
  if 0 ≤ s.value then (s.move t (.loop s.value), []) else (s.move t .idle, [.ret t false])

end State

/-- What the loop writes. -/
def next (current : ℤ) : ℤ := if current = 0 then -1 else current - 1

/-- One step of the system. -/
def step (s : State T) : Action T → Option (State T × List (Event T))
  | .arm n => some ({ s with value := n }, [.armed n])
  | .call t =>
    match s.threads t with
    | .idle => some (s.move t .start, [])
    | _ => none
  | .load t =>
    match s.threads t with
    | .start => some (s.head t)
    | _ => none
  | .exchange t =>
    match s.threads t with
    | .loop current =>
      if s.value = current then
        some ({ s.move t .idle with value := next current }, [.ret t (decide (current = 0))])
      else some (s.head t)
    | _ => none

/-- Nobody has asked for a failure. -/
def State.init : State T := { value := -1, threads := fun _ => .idle }

/-! ## The countdown -/

/-- The object that the hook implements, where a pass is one move. -/
inductive Countdown : ℤ → Event T → ℤ → Prop
  | armed (b n : ℤ) : Countdown b (.armed n) n
  | off (b : ℤ) (t : T) (hb : b < 0) : Countdown b (.ret t false) b
  | count (b : ℤ) (t : T) (hb : 0 < b) : Countdown b (.ret t false) (b - 1)
  | fail (t : T) : Countdown 0 (.ret t true) (-1)

/-- What a thread has read was not negative. -/
def Sensible (s : State T) : Prop := ∀ t current, s.threads t = .loop current → 0 ≤ current

variable {s s' : State T} {e es : List (Event T)} {t : T} {p : Point} {a : Action T}

/-- What a step can do. -/
inductive Move (s : State T) : State T → List (Event T) → Prop
  | armed (n : ℤ) : Move s { s with value := n } [.armed n]
  | called (t : T) (ht : s.threads t = .idle) : Move s (s.move t .start) []
  | read (t : T) (ht : s.threads t ≠ .loop s.value) (hne : s.threads t ≠ .idle)
      (hv : 0 ≤ s.value) : Move s (s.move t (.loop s.value)) []
  | off (t : T) (hne : s.threads t ≠ .idle) (hv : s.value < 0) :
      Move s (s.move t .idle) [.ret t false]
  | counted (t : T) (ht : s.threads t = .loop s.value) :
      Move s { s.move t .idle with value := next s.value } [.ret t (decide (s.value = 0))]

theorem head_move (ht : s.threads t ≠ .loop s.value) (hne : s.threads t ≠ .idle)
    (hs : s.head t = (s', e)) : Move s s' e := by
  unfold State.head at hs
  split_ifs at hs with hv
  · cases hs
    exact .read t ht hne hv
  · cases hs
    exact .off t hne (by omega)

/-- **Every step is a move.** -/
theorem step_move (hs : step s a = some (s', e)) : Move s s' e := by
  cases a with
  | arm n =>
    cases hs
    exact .armed n
  | call t =>
    simp only [step] at hs
    split at hs
    · rename_i ht
      cases hs
      exact .called t ht
    · cases hs
  | load t =>
    simp only [step] at hs
    split at hs
    · rename_i ht
      exact head_move (by rw [ht]; simp) (by rw [ht]; simp) (Option.some.inj hs)
    · cases hs
  | exchange t =>
    simp only [step] at hs
    split at hs
    · rename_i current ht
      split_ifs at hs with hv
      · subst hv
        cases hs
        exact .counted t ht
      · refine head_move ?_ (by rw [ht]; simp) (Option.some.inj hs)
        rw [ht]
        intro hx
        cases hx
        exact hv rfl
    · cases hs

theorem Sensible.update (h : Sensible s) {f : T → Point}
    (hf : f = Function.update s.threads t p) (hp : ∀ current, p = .loop current → 0 ≤ current) :
    ∀ u current, f u = .loop current → 0 ≤ current := by
  intro u current hu
  rw [hf] at hu
  by_cases hut : u = t
  · subst hut
    rw [Function.update_self] at hu
    exact hp current hu
  · rw [Function.update_of_ne hut] at hu
    exact h u current hu

theorem Move.sensible (hm : Move s s' e) (h : Sensible s) : Sensible s' := by
  cases hm with
  | armed n => exact h
  | called t ht => exact h.update rfl (by simp)
  | read t ht hne hv =>
    refine h.update rfl fun current hx => ?_
    cases hx
    exact hv
  | off t hne hv => exact h.update rfl (by simp)
  | counted t ht => exact h.update rfl (by simp)

/-- **A step is a move of the countdown, or it shows nothing and leaves the cell.** -/
theorem Move.history (hm : Move s s' e) (h : Sensible s) :
    History Countdown s.value e s'.value := by
  cases hm with
  | armed n => exact .single (.armed _ n)
  | called t ht => exact .nil
  | read t ht hne hv => exact .nil
  | off t hne hv => exact .single (.off _ t hv)
  | counted t ht =>
    have hpos := h t _ ht
    refine .single ?_
    by_cases hz : s.value = 0
    · have hfail : Countdown (T := T) 0 (.ret t true) (-1) := .fail t
      simpa [next, hz] using hfail
    · have hcount : Countdown s.value (.ret t false) (s.value - 1) := .count _ t (by omega)
      simpa [next, hz] using hcount

/-! ## Who fails -/

/-- A step that does not ask for a failure. -/
def Unarmed (_ : State T) (a : Action T) (_ : State T) : Prop := ∀ n, a ≠ .arm n

/-- After `es.length` passes since the cell was `n`: where it stands, and which of them failed. -/
structure Counted (n : ℤ) (es : List (Event T)) (s : State T) : Prop where
  value : s.value = if (es.length : ℤ) ≤ n then n - es.length else -1
  fails : ∀ (i : ℕ) (x : Event T), es[i]? = some x → ∃ t, x = .ret t (decide ((i : ℤ) = n))

omit [DecidableEq T] in
theorem Counted.keep {n : ℤ} (h : Counted n es s) (hv : s'.value = s.value) :
    Counted n (es ++ []) s' := by
  rw [List.append_nil]
  exact ⟨hv.trans h.value, h.fails⟩

omit [DecidableEq T] in
theorem Counted.pass {n : ℤ} {r : Bool} (h : Counted n es s)
    (hr : r = decide ((es.length : ℤ) = n))
    (hv : s'.value = if (es.length : ℤ) + 1 ≤ n then n - (es.length + 1) else -1) :
    Counted n (es ++ [.ret t r]) s' where
  value := by simpa using hv
  fails := by
    intro i x hx
    rw [List.getElem?_append] at hx
    split_ifs at hx with hi
    · exact h.fails i x hx
    · have hlen : i = es.length := by
        by_contra hne
        rw [List.getElem?_eq_none (by simp; omega)] at hx
        cases hx
      subst hlen
      rw [Nat.sub_self] at hx
      cases hx
      exact ⟨t, by rw [hr]⟩

theorem Move.counts {n : ℤ} (hm : Move s s' e) (hs : Sensible s) (harm : ∀ m, .armed m ∉ e)
    (h : Counted n es s) : Counted n (es ++ e) s' := by
  have hval := h.value
  cases hm with
  | armed m => exact absurd (List.mem_singleton_self _) (harm m)
  | called t ht => exact h.keep rfl
  | read t ht hne hv => exact h.keep rfl
  | off t hne hv =>
    refine h.pass ?_ ?_
    · split_ifs at hval with hle
      · omega
      · exact (decide_eq_false (by omega)).symm
    · change s.value = _
      split_ifs at hval with hle
      · omega
      · rw [hval, if_neg (by omega)]
  | counted t ht =>
    have hpos := hs t _ ht
    split_ifs at hval with hle
    · refine h.pass ?_ ?_
      · rw [hval]
        exact decide_eq_decide.2 (by omega)
      · change next s.value = _
        unfold next
        split_ifs <;> omega
    · omega

/-- Only the store of the test asks for a failure. -/
theorem step_unarmed (hs : step s a = some (s', e)) (ha : ∀ n, a ≠ .arm n) (m : ℤ) :
    .armed m ∉ e := by
  have hhead : ∀ {t}, s.head t = (s', e) → .armed m ∉ e := by
    intro t hs
    unfold State.head at hs
    split_ifs at hs <;> cases hs <;> simp
  cases a with
  | arm n => exact absurd rfl (ha n)
  | call t =>
    simp only [step] at hs
    split at hs <;> cases hs
    simp
  | load t =>
    simp only [step] at hs
    split at hs
    · exact hhead (Option.some.inj hs)
    · cases hs
  | exchange t =>
    simp only [step] at hs
    split at hs
    · split_ifs at hs
      · cases hs
        simp
      · exact hhead (Option.some.inj hs)
    · cases hs

theorem counted_of_exec (hs : Sensible s) (hv : 0 ≤ s.value) (h : Exec step Unarmed s es s') :
    Counted s.value es s' := by
  refine (h.invariant (I := fun es s' => Sensible s' ∧ Counted s.value es s')
    ⟨hs, by simp [hv], by simp⟩ ?_).2
  intro es s₁ a s₂ e hI hstep hG
  have hm := step_move hstep
  exact ⟨hm.sensible hI.1, hm.counts hI.1 (step_unarmed hstep hG) hI.2⟩

/-! ## Progress -/

variable [Fintype T]

/-- The steps that a thread takes by itself. -/
def Action.own : Action T → Bool
  | load _ => true
  | exchange _ => true
  | _ => false

/-- The weight of a thread in a system with `n` threads: with what is in the cell it can exchange,
which makes the others try again; else it has to read once more. -/
def Point.weight (n : ℕ) (value : ℤ) : Point → ℕ
  | idle => 0
  | start => n + 3
  | loop current => if current = value then n + 1 else n + 2

/-- The potential. -/
def potential (s : State T) : ℕ := weigh (Point.weight (Fintype.card T) s.value) s.threads

theorem weigh_move (w : Point → ℕ) (t : T) (p : Point) :
    weigh w (s.move t p).threads + w (s.threads t) = weigh w s.threads + w p :=
  weigh_update _ _ _ _

omit [DecidableEq T] in
/-- A change of the cell makes others try again. -/
theorem weigh_value (f : T → Point) (n : ℕ) (v v' : ℤ) :
    weigh (Point.weight n v') f ≤ weigh (Point.weight n v) f + Fintype.card T := by
  refine weigh_le_add_card fun t => ?_
  cases f t with
  | idle => exact Nat.zero_le _
  | start => exact Nat.le_succ _
  | loop current =>
    simp only [Point.weight]
    split_ifs <;> omega

theorem head_lowers
    (ht : Fintype.card T + 1 < (s.threads t).weight (Fintype.card T) s.value)
    (hs : s.head t = (s', e)) : potential s' < potential s := by
  unfold State.head at hs
  split_ifs at hs
  · cases hs
    have hw := weigh_move (s := s) (Point.weight (Fintype.card T) s.value) t (.loop s.value)
    simp only [Point.weight, if_true] at hw
    change weigh (Point.weight _ s.value) (s.move t _).threads < weigh _ s.threads
    simp only [Point.weight] at ht ⊢
    omega
  · cases hs
    have hw := weigh_move (s := s) (Point.weight (Fintype.card T) s.value) t .idle
    simp only [Point.weight] at hw
    change weigh (Point.weight _ s.value) (s.move t _).threads < weigh _ s.threads
    simp only [Point.weight] at ht ⊢
    omega

/-- **Every own step lowers the potential.** -/
theorem step_lowers (hs : step s a = some (s', e)) (ha : a.own = true) :
    potential s' < potential s := by
  cases a with
  | load t =>
    simp only [step] at hs
    split at hs
    · rename_i ht
      exact head_lowers (by rw [ht, Point.weight]; omega) (Option.some.inj hs)
    · cases hs
  | exchange t =>
    simp only [step] at hs
    split at hs
    · rename_i current ht
      split_ifs at hs with hv
      · subst hv
        cases hs
        have hw := weigh_move (s := s) (Point.weight (Fintype.card T) s.value) t .idle
        have hv := weigh_value (s.move t .idle).threads (Fintype.card T) s.value (next s.value)
        rw [ht] at hw
        simp only [Point.weight, if_true] at hw
        change weigh (Point.weight _ (next s.value)) (s.move t .idle).threads < weigh _ s.threads
        omega
      · refine head_lowers ?_ (Option.some.inj hs)
        rw [ht, Point.weight, if_neg (Ne.symm hv)]
        omega
    · cases hs
  | _ => cases ha

/-- **No step raises the potential by more than a constant.** -/
theorem step_raises (hs : step s a = some (s', e)) (ha : a.own = false) :
    potential s' ≤ potential s + (Fintype.card T + 3) := by
  cases a with
  | arm n =>
    cases hs
    have hv := weigh_value s.threads (Fintype.card T) s.value n
    change weigh (Point.weight _ n) s.threads ≤ weigh _ s.threads + _
    omega
  | call t =>
    simp only [step] at hs
    split at hs
    · rename_i ht
      cases hs
      have hw := weigh_move (s := s) (Point.weight (Fintype.card T) s.value) t .start
      rw [ht] at hw
      change weigh (Point.weight _ s.value) (s.move t .start).threads ≤ weigh _ s.threads + _
      simp only [Point.weight] at hw ⊢
      omega
    · cases hs
  | _ => cases ha

theorem hasPotential (G : State T → Action T → State T → Prop) :
    Potential step G Action.own (fun _ => True) potential (Fintype.card T + 3) where
  keep := fun _ _ _ => trivial
  lowers := fun _ hs _ ha => step_lowers hs ha
  raises := fun _ hs _ ha => step_raises hs ha

/-- A step of any kind. -/
def AnyStep (_ : State T) (_ : Action T) (_ : State T) : Prop := True

instance (s : State T) (a : Action T) (s' : State T) : Decidable (AnyStep s a s') :=
  inferInstanceAs (Decidable True)

instance (s : State T) (s' : State T) : (a : Action T) → Decidable (Unarmed s a s')
  | .arm n => .isFalse fun h => h n rfl
  | .call _ => .isTrue fun _ => nofun
  | .load _ => .isTrue fun _ => nofun
  | .exchange _ => .isTrue fun _ => nofun

omit [Fintype T] in
theorem idle_of_stuck (hst : Stuck step AnyStep Action.own s) (t : T) : s.threads t = .idle := by
  cases ht : s.threads t with
  | idle => rfl
  | start =>
    exact absurd trivial (hst (.load t) _ _ rfl (by simp only [step, ht]; rfl))
  | loop current =>
    by_cases hv : s.value = current
    · exact absurd trivial
        (hst (.exchange t) _ _ rfl (by simp only [step, ht]; exact if_pos hv))
    · exact absurd trivial
        (hst (.exchange t) _ _ rfl (by simp only [step, ht]; exact if_neg hv))

omit [Fintype T] in
theorem sensible_of_exec {G : State T → Action T → State T → Prop}
    (h : Exec step G State.init es s) : Sensible s :=
  h.stateInvariant (I := Sensible) (by simp [Sensible, State.init]) fun hI hs _ =>
    (step_move hs).sensible hI

/-- **The hook is a countdown.** For any number of threads, in every run:

* the passes and the stores are moves of the countdown, in this order;
* after a store of `n ≥ 0`, as long as nobody stores again, the pass with number `n`, from zero, is
  the one that fails;
* the `m` threads take at most `m + 3` steps for each pass and each store, and every pass can
  return. -/
theorem alloc_hook_countdown :
    (∀ (es : List (Event T)) (s : State T), Exec step AnyStep State.init es s →
      History Countdown (-1) es s.value ∧
      (0 ≤ s.value → ∀ es' s', Exec step Unarmed s es' s' → ∀ (i : ℕ) t r,
        es'[i]? = some (.ret t r) → (r = true ↔ (i : ℤ) = s.value)) ∧
      ∃ m es' s', Paced step AnyStep Action.own s m 0 es' s' ∧ ∀ t, s'.threads t = .idle) ∧
    ∀ m k (es : List (Event T)) (s : State T),
      Paced step AnyStep Action.own State.init m k es s → m ≤ (Fintype.card T + 3) * k := by
  refine ⟨fun es s h => ⟨?_, fun hv es' s' h' i t r hi => ?_, ?_⟩, fun m k es s h => ?_⟩
  · have hh := h.history (A := Countdown) some State.value (I := Sensible)
      (by simp [Sensible, State.init]) (fun hI hs _ => (step_move hs).sensible hI)
      fun hI hs _ => by simpa using (step_move hs).history hI
    rwa [List.filterMap_some] at hh
  · obtain ⟨u, hu⟩ := (counted_of_exec (sensible_of_exec h) hv h').fails i _ hi
    cases hu
    exact decide_eq_true_iff
  · obtain ⟨m, es', s', hrun, hst⟩ := (hasPotential AnyStep).settles (s := s) trivial
    exact ⟨m, es', s', hrun, idle_of_stuck hst⟩
  · have hb := (hasPotential AnyStep).bound trivial h
    have hzero : potential (State.init : State T) = 0 := Finset.sum_eq_zero fun _ _ => rfl
    omega

/-- The hook is asked to let one pass go. Two threads have read one when the first of them counts;
the other one has to read again, and fails. -/
theorem alloc_hook_countdown_two_threads :
    ∃ (s s' : State (Fin 2)) (es : List (Event (Fin 2))),
      Exec step AnyStep State.init [.armed 1] s ∧ Exec step Unarmed s es s' ∧
      es = [.ret 0 false, .ret 1 true] ∧ s'.value = -1 ∧
      ∀ (i : ℕ) t r, es[i]? = some (.ret t r) → (r = true ↔ (i : ℤ) = 1) := by
  have h₀ : Exec step AnyStep State.init [.armed 1] (State.mk (T := Fin 2) 1 fun _ => .idle) :=
    Exec.start.step (a := .arm 1) rfl trivial
  obtain ⟨es, s', h, ht⟩ := Exec.exists_of_run step Unarmed (State.mk (T := Fin 2) 1 fun _ => .idle)
    [.call 0, .call 1, .load 1, .load 0, .exchange 0, .exchange 1, .exchange 1]
    (fun s es => decide (es = [.ret 0 false, .ret 1 true] ∧ s.value = -1)) (by decide +kernel)
  obtain ⟨hes, hv⟩ := of_decide_eq_true ht
  exact ⟨_, s', es, h₀, h, hes, hv,
    (alloc_hook_countdown.1 _ _ h₀).2.1 (by decide) es s' h⟩

end NativeSync.ThreadPool.AllocHook
