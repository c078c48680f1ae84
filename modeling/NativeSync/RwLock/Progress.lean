import NativeSync.Foundations.Progress
import NativeSync.RwLock.Lifetime

/-!
# Reader-writer locks make progress

A call of `with_read` or of `with_write` takes at most five steps besides those of its callback, so
the threads never run in circles. A thread is held up only before its lock, by a thread that is in a
callback of that lock.

With nested calls threads can hold each other up for ever, and a thread even itself. If locks are
taken in ascending order only (`Ordered`), then whenever no thread can go on, all callbacks have
ended and nobody holds a lock.
-/

namespace NativeSync.RwLock

open Foundations

variable {L T ε V : Type}

/-- The steps that a thread takes by itself. -/
def Action.own : Action L T ε V → Bool
  | takeLock _ => true
  | osLock .. => true
  | finish .. => true
  | osUnlock .. => true
  | takeUnlock _ => true
  | _ => false

/-- The calls of `with_read` and `with_write`. -/
def Action.calls : Action L T ε V → Bool
  | call .. => true
  | _ => false

/-! ## What a thread does by itself -/

/-- A thread with the calls `fs` goes on to another point, and has these calls there. -/
inductive Ahead (fs : List (Call L)) : Point L ε V → Point L ε V → List (Call L) → Prop
  | fired (c : Call L) : Ahead fs (.takeLock c) .user fs
  | take (c : Call L) : Ahead fs (.takeLock c) (.lock c) fs
  | failed (c : Call L) : Ahead fs (.lock c) .user fs
  | began (c : Call L) : Ahead fs (.lock c) .user (c :: fs)
  | finish (c : Call L) (out : Except (Error ε) V) : Ahead fs .user (.unlock c out) fs
  | stuck (c : Call L) (out : Except (Error ε) V) : Ahead fs (.unlock c out) .user fs.tail
  | released (c : Call L) (out : Except (Error ε) V) :
      Ahead fs (.unlock c out) (.takeUnlock c out) fs
  | ended (c : Call L) (out : Except (Error ε) V) : Ahead fs (.takeUnlock c out) .user fs.tail

/-- What is left to do for a thread at a point, but for the callbacks that it is in. -/
def Point.cost : Point L ε V → ℕ
  | user => 3
  | takeLock _ => 8
  | lock _ => 7
  | unlock .. => 2
  | takeUnlock .. => 1

/-- What is left to do for some callbacks. -/
def framesCost (fs : List (Call L)) : ℕ := 3 * fs.length

/-- A thread that goes on has less to do than before. -/
theorem Ahead.cost_lt {fs fs' : List (Call L)} {x y : Point L ε V} (h : Ahead fs x y fs')
    (hx : x.Placed fs) : y.cost + framesCost fs' < x.cost + framesCost fs := by
  cases h with
  | began c =>
    simp only [Point.cost, framesCost, List.length_cons]
    omega
  | stuck c out =>
    obtain ⟨cs, rfl⟩ := List.head?_eq_some_iff.1 hx
    simp only [Point.cost, framesCost, List.length_cons, List.tail_cons]
    omega
  | ended c out =>
    obtain ⟨cs, rfl⟩ := List.head?_eq_some_iff.1 hx
    simp only [Point.cost, framesCost, List.length_cons, List.tail_cons]
    omega
  | _ => simp [Point.cost]

/-- Every thread weighs at least as much as outside of every callback. -/
theorem three_le_cost {fs : List (Call L)} {x : Point L ε V} (hx : x.Placed fs) :
    3 ≤ x.cost + framesCost fs := by
  have hhead : ∀ c : Call L, fs.head? = some c → 3 ≤ framesCost fs := by
    intro c hc
    obtain ⟨cs, rfl⟩ := List.head?_eq_some_iff.1 hc
    simp only [framesCost, List.length_cons]
    omega
  cases x with
  | unlock c out => exact (hhead c hx).trans (Nat.le_add_left _ _)
  | takeUnlock c out => exact (hhead c hx).trans (Nat.le_add_left _ _)
  | _ =>
    simp only [Point.cost]
    omega

variable [DecidableEq L] [DecidableEq T] [Fintype T] {s s' : State L T ε V}
  {e es : List (Event L T ε V)} {a : Action L T ε V} {t u : T} {c : Call L}

/-- **What an own step does.** -/
theorem own_ahead (hs : step s a = some (s', e)) (ha : a.own = true) : ∃ t y fs,
    Ahead (s.frames t) (s.threads t) y fs ∧
      s'.threads = Function.update s.threads t y ∧
      s'.frames = Function.update s.frames t fs := by
  have hsame : ∀ t, s.frames = Function.update s.frames t (s.frames t) := fun t =>
    (Function.update_eq_self t s.frames).symm
  cases a with
  | takeLock t =>
    simp only [step] at hs
    split at hs
    · rename_i c ht
      split_ifs at hs
      · cases hs
        exact ⟨t, _, _, ht ▸ .fired c, rfl, hsame t⟩
      · cases hs
        exact ⟨t, _, _, ht ▸ .take c, rfl, hsame t⟩
    · cases hs
  | osLock t status =>
    simp only [step] at hs
    split at hs
    · rename_i c ht
      split_ifs at hs
      · cases hs
        exact ⟨t, _, _, ht ▸ .failed c, rfl, hsame t⟩
      · cases hs
        exact ⟨t, _, _, ht ▸ .began c, rfl, rfl⟩
    · cases hs
  | finish t out =>
    simp only [step] at hs
    split at hs
    · rename_i c fs ht hf
      cases hs
      exact ⟨t, _, _, ht ▸ .finish c out, rfl, hsame t⟩
    · cases hs
  | osUnlock t status =>
    simp only [step] at hs
    split at hs
    · rename_i c out ht
      split_ifs at hs
      · cases hs
        exact ⟨t, _, _, ht ▸ .stuck c out, rfl, rfl⟩
      · cases hs
        exact ⟨t, _, _, ht ▸ .released c out, rfl, hsame t⟩
    · cases hs
  | takeUnlock t =>
    simp only [step] at hs
    split at hs
    · rename_i c out ht
      split_ifs at hs
      · cases hs
        exact ⟨t, _, _, ht ▸ .ended c out, rfl, rfl⟩
      · cases hs
        exact ⟨t, _, _, ht ▸ .ended c out, rfl, rfl⟩
    · cases hs
  | _ => cases ha

/-- **What another step does** to the threads: it is a call, or leaves them alone. -/
theorem other_step (hs : step s a = some (s', e)) (ha : a.own = false) :
    s'.threads = s.threads ∧ s'.frames = s.frames ∨
      ∃ t h mode, a = .call t h mode ∧ s.threads t = .user ∧
        s' = s.move t (.takeLock ⟨h, mode⟩) := by
  cases a with
  | call t h mode =>
    simp only [step] at hs
    split at hs
    · rename_i ht
      split_ifs at hs
      cases hs
      exact .inr ⟨t, h, mode, rfl, ht, rfl⟩
    · cases hs
  | arm hook status =>
    cases hs
    exact .inl ⟨rfl, rfl⟩
  | new l status destroy =>
    simp only [step] at hs
    split_ifs at hs <;>
      · cases hs
        exact .inl ⟨rfl, rfl⟩
  | share h name =>
    simp only [step] at hs
    split at hs
    · split_ifs at hs
      cases hs
      exact .inl ⟨rfl, rfl⟩
    · cases hs
  | drop h destroy =>
    simp only [step] at hs
    split at hs
    · split_ifs at hs <;>
        · cases hs
          exact .inl ⟨rfl, rfl⟩
    · cases hs
  | _ => cases ha

/-! ## The potential -/

/-- The potential: the weights of the threads and of their callbacks. -/
def potential (s : State L T ε V) : ℕ := weigh Point.cost s.threads + weigh framesCost s.frames

/-- **Every own step lowers the potential**, whatever the operating system answers. -/
theorem step_lowers (hI : Inv s) (hs : step s a = some (s', e)) (ha : a.own = true) :
    potential s' < potential s := by
  obtain ⟨t, y, fs, hahead, hthreads, hframes⟩ := own_ahead hs ha
  have hlt := hahead.cost_lt (hI.placed t)
  have hx := weigh_update Point.cost s.threads t y
  have hf := weigh_update framesCost s.frames t fs
  unfold potential
  rw [hthreads, hframes]
  omega

/-- **Only a call raises the potential.** -/
theorem step_raises (hs : step s a = some (s', e)) (ha : a.own = false) :
    potential s' ≤ potential s + 5 * a.calls.toNat := by
  obtain ⟨hthreads, hframes⟩ | ⟨t, h, mode, rfl, ht, rfl⟩ := other_step hs ha
  · unfold potential
    rw [hthreads, hframes]
    exact Nat.le_add_right _ _
  · have hx := weigh_update Point.cost s.threads t (.takeLock ⟨h, mode⟩)
    rw [ht] at hx
    change weigh _ (Function.update s.threads t _) + weigh _ s.frames ≤ weigh _ s.threads + _ + 5
    simp only [Point.cost] at hx ⊢
    omega

theorem hasPotential (G : State L T ε V → Action L T ε V → State L T ε V → Prop) :
    Potential step G Action.own Inv potential 5 where
  keep := fun hI hs _ => (step_move hs).inv hI
  lowers := fun hI hs _ ha => step_lowers hI hs ha
  raises := fun _ hs _ ha => (step_raises hs ha).trans
    (Nat.add_le_add_left (Nat.mul_le_mul_left 5 (Bool.toNat_le _)) _)

/-- The other steps are for free. -/
theorem potential_le_of_not_calls (hs : step s a = some (s', e)) (ha : a.own = false)
    (hc : a.calls = false) : potential s' ≤ potential s := by
  have hle := step_raises hs ha
  rwa [hc, Bool.toNat_false, Nat.mul_zero, Nat.add_zero] at hle

theorem le_potential (hI : Inv s) : 3 * Fintype.card T ≤ potential s :=
  le_weigh_add fun t => three_le_cost (hI.placed t)

omit [DecidableEq L] [DecidableEq T] in
theorem potential_init : potential (State.init : State L T ε V) = 3 * Fintype.card T := by
  simp [potential, weigh, State.init, Point.cost, framesCost, Nat.mul_comm]

/-! ## The order of the locks -/

section Order

variable {R : Type} [Preorder R] (rank : L → R)

/-- A careful step; a thread calls `with_read` and `with_write` only on locks above those whose
callbacks it is in, and no lock fails. -/
def Ordered (s : State L T ε V) (a : Action L T ε V) (s' : State L T ε V) : Prop :=
  Careful s a s' ∧
    match a with
    | .call t h _ => ∀ c ∈ s.frames t, rank c.lock < rank h.lock
    | .osLock _ status => status = 0
    | _ => True

instance [DecidableLT R] (s : State L T ε V) (a : Action L T ε V) (s' : State L T ε V) :
    Decidable (Ordered rank s a s') :=
  match a with
  | .arm .. => inferInstanceAs (Decidable (_ ∧ True))
  | .new .. => inferInstanceAs (Decidable (_ ∧ True))
  | .share .. => inferInstanceAs (Decidable (_ ∧ True))
  | .drop .. => inferInstanceAs (Decidable (_ ∧ True))
  | .call t h _ => inferInstanceAs (Decidable (_ ∧ ∀ c ∈ s.frames t, rank c.lock < rank h.lock))
  | .takeLock _ => inferInstanceAs (Decidable (_ ∧ True))
  | .osLock _ status => inferInstanceAs (Decidable (_ ∧ status = 0))
  | .finish .. => inferInstanceAs (Decidable (_ ∧ True))
  | .osUnlock .. => inferInstanceAs (Decidable (_ ∧ True))
  | .takeUnlock _ => inferInstanceAs (Decidable (_ ∧ True))

/-- What the point of a thread says about the order of its locks. -/
def Point.Above (fs : List (Call L)) : Point L ε V → Prop
  | takeLock c => ∀ d ∈ fs, rank d.lock < rank c.lock
  | lock c => ∀ d ∈ fs, rank d.lock < rank c.lock
  | _ => True

variable {rank}

omit [DecidableEq L] in
theorem Ahead.above {fs fs' : List (Call L)} {x y : Point L ε V} (h : Ahead fs x y fs')
    (hx : x.Above rank fs) : y.Above rank fs' := by
  cases h with
  | take c => exact hx
  | _ => trivial

/-- **A step keeps the order.** -/
theorem step_above (h : ∀ t, (s.threads t).Above rank (s.frames t))
    (hs : step s a = some (s', e)) (hG : Ordered rank s a s') (u : T) :
    (s'.threads u).Above rank (s'.frames u) := by
  cases ha : a.own with
  | true =>
    obtain ⟨t, y, fs, hahead, hthreads, hframes⟩ := own_ahead hs ha
    rw [hthreads, hframes]
    by_cases hu : u = t
    · subst hu
      rw [Function.update_self, Function.update_self]
      exact hahead.above (h _)
    · rw [Function.update_of_ne hu, Function.update_of_ne hu]
      exact h u
  | false =>
    obtain ⟨hthreads, hframes⟩ | ⟨t, k, mode, rfl, -, rfl⟩ := other_step hs ha
    · rw [hthreads, hframes]
      exact h u
    · have hcall : (Point.takeLock ⟨k, mode⟩ : Point L ε V).Above rank (s.frames t) := hG.2
      exact forall_update (Q := fun u (x : Point L ε V) => x.Above rank (s.frames u)) hcall
        (fun v _ => h v) u

theorem above_of_exec (h : Exec step (Ordered rank) State.init es s) (t : T) :
    (s.threads t).Above rank (s.frames t) :=
  h.stateInvariant (I := fun s => ∀ t, (s.threads t).Above rank (s.frames t))
    (fun _ => trivial) (fun hI hs hG => step_above hI hs hG) t

/-! ## Who is held up -/

/-- Thread `t` is before the lock of a call, and `u` is in a callback of that lock. -/
def WaitsFor (s : State L T ε V) (t u : T) : Prop :=
  ∃ c, s.threads t = .lock c ∧ ∃ d ∈ s.inside u, d.lock = c.lock

/-- The thread is outside of every callback. -/
def Out (s : State L T ε V) (t : T) : Prop := s.threads t = .user ∧ s.frames t = []

/-- All threads are outside of every callback, and nobody holds a lock. -/
structure Settled (s : State L T ε V) : Prop where
  out : ∀ t, Out s t
  free : ∀ l, s.holders l = []

omit [DecidableEq L] [DecidableEq T] [Fintype T] in
theorem not_out_of_inside (hc : c ∈ s.inside u) : ¬Out s u := by
  rintro ⟨-, hf⟩
  have hmem := Point.mem_of_inside hc
  rw [hf] at hmem
  cases hmem

omit [DecidableEq T] [Fintype T] in
/-- A lock that is not granted is held. -/
theorem exists_holder {held : List (T × Mode)} {mode : Mode} (h : ¬Grants held mode) :
    ∃ x, x ∈ held := by
  cases mode with
  | read =>
    unfold Grants at h
    push Not at h
    obtain ⟨x, hx, -⟩ := h
    exact ⟨x, hx⟩
  | write => exact List.exists_mem_of_ne_nil _ h

/-- **A thread that cannot go on** is outside of every callback, or waits for another. -/
theorem stuck_cases (hl : Life es s) (hst : Stuck step (Ordered rank) Action.own s) (t : T) :
    Out s t ∨ ∃ u, WaitsFor s t u := by
  have hcore : ∀ c, (s.threads t).call = some c → s.cores c.lock ≠ none := by
    intro c hc hn
    have hmem := hl.inv.used t c (.inr hc)
    rw [(hl.alive c.lock).cores_eq_none.1 hn] at hmem
    exact absurd hmem (Finset.notMem_empty _)
  cases ht : s.threads t with
  | user =>
    cases hf : s.frames t with
    | nil => exact .inl ⟨ht, hf⟩
    | cons c fs =>
      have hfinish := hst.none (.finish t (failure 0)) rfl fun _ =>
        ⟨⟨trivial, id⟩, trivial⟩
      simp [step, ht, hf] at hfinish
  | takeLock c =>
    have htake := hst.none (.takeLock t) rfl fun _ => ⟨⟨trivial, id⟩, trivial⟩
    simp only [step, ht] at htake
    split_ifs at htake
  | lock c =>
    have hlock := hst.none (.osLock t 0) rfl fun _ => ⟨⟨trivial, id⟩, rfl⟩
    by_cases hg : Grants (s.holders c.lock) c.mode
    · simp [step, ht, hg, hcore c (by rw [ht]; rfl)] at hlock
    · obtain ⟨⟨u, mode⟩, hx⟩ := exists_holder hg
      obtain ⟨d, hd, hdl, -⟩ := hl.balanced.mem_holders.1 hx
      exact .inr ⟨u, c, ht, d, hd, hdl⟩
  | unlock c out =>
    have hunlock := hst.none (.osUnlock t 0) rfl fun _ => ⟨⟨rfl, id⟩, trivial⟩
    simp [step, ht, hcore c (by rw [ht]; rfl), hl.inv.givenBack_eq ht, hl.inv.mem_of_unlock ht]
      at hunlock
  | takeUnlock c out =>
    have htake := hst.none (.takeUnlock t) rfl fun _ => ⟨⟨trivial, id⟩, trivial⟩
    simp only [step, ht] at htake
    split_ifs at htake

/-- **Stuck locks are settled.** -/
theorem settled_of_stuck (hl : Life es s) (hab : ∀ t, (s.threads t).Above rank (s.frames t))
    (hst : Stuck step (Ordered rank) Action.own s) : Settled s := by
  -- the wanted locks ascend along a chain of threads that wait for each other
  let above (t u : T) : Prop := ∃ c d, s.threads t = .lock c ∧ s.threads u = .lock d ∧
    rank c.lock < rank d.lock
  have htrans : ∀ {t u v}, above t u → above u v → above t v := by
    rintro t u v ⟨c₁, c₂, ht, hu, h₁⟩ ⟨c₂', c₃, hu', hv, h₂⟩
    obtain rfl : c₂ = c₂' := Point.lock.inj (hu.symm.trans hu')
    exact ⟨c₁, c₃, ht, hv, h₁.trans h₂⟩
  have hirrefl : ∀ t, ¬above t t := by
    rintro t ⟨c, d, hc, hd, hlt⟩
    obtain rfl : c = d := Point.lock.inj (hc.symm.trans hd)
    exact lt_irrefl _ hlt
  have hblocked : ∀ t, ¬Out s t → ∃ u, WaitsFor s t u ∧ (¬Out s u → above t u) := by
    intro t hout
    obtain ⟨u, c, ht, d, hd, hdl⟩ := (stuck_cases hl hst t).resolve_left hout
    refine ⟨u, ⟨c, ht, d, hd, hdl⟩, fun hout' => ?_⟩
    obtain ⟨-, c', hu, -⟩ := (stuck_cases hl hst u).resolve_left hout'
    have hu' := hab u
    rw [hu] at hu'
    exact ⟨c, c', ht, hu, hdl ▸ hu' d (Point.mem_of_inside hd)⟩
  have hout : ∀ t, Out s t := by
    intro t
    obtain ⟨u, htu, hu⟩ := exists_unblocked @htrans hirrefl hblocked t
    rcases htu.cases_tail with rfl | ⟨v, -, c, -, d, hd, -⟩
    · exact not_not.1 hu
    · exact absurd (not_not.1 hu) (not_out_of_inside hd)
  refine ⟨hout, fun l => List.eq_nil_iff_forall_not_mem.2 fun ⟨u, mode⟩ hx => ?_⟩
  obtain ⟨d, hd, -⟩ := hl.balanced.mem_holders.1 hx
  exact not_out_of_inside hd (hout u)

/-- **Reader-writer locks make progress.** In every run, whatever the operating system answers, the
threads take by themselves at most five steps for each call of `with_read` and `with_write`; the
steps that make, copy or drop a handle or set a hook cost nothing. If the locks are taken in ascending
order, no lock and no unlock of the operating system fails and no drop frees a core too early, then
from every state that is reached own steps lead to one in which all callbacks have ended and nobody
holds a lock; and every state in which no thread can go on is such a state. -/
theorem rwlock_progress (rank : L → R) :
    (∀ G n k es s,
      Metered (step (L := L) (T := T) (ε := ε) (V := V)) G Action.own Action.calls State.init
        n k es s → n ≤ 5 * k) ∧
    ∀ es s, Exec (step (L := L) (T := T) (ε := ε) (V := V)) (Ordered rank) State.init es s →
      (∃ n es' s', Paced step (Ordered rank) Action.own s n 0 es' s' ∧ Settled s') ∧
      (Stuck step (Ordered rank) Action.own s → Settled s) := by
  have hsettled : ∀ {es} {s : State L T ε V}, Exec step (Ordered rank) State.init es s →
      Stuck step (Ordered rank) Action.own s → Settled s := by
    intro es s h hst
    have hl : Life es s :=
      h.invariant life_init fun hI hs hG => hI.step (step_move hs) hG.1.1 hG.1.2
    exact settled_of_stuck hl (above_of_exec h) hst
  have hinv : ∀ {G es} {s : State L T ε V}, Exec step G State.init es s → Inv s := fun h =>
    h.stateInvariant inv_init fun hI hs _ => (step_move hs).inv hI
  refine ⟨fun G n k es s h => ?_, fun es s h => ⟨?_, hsettled h⟩⟩
  · have hb := (hasPotential G).bound_paid
      (fun _ hs _ ha hc => potential_le_of_not_calls hs ha hc) inv_init h
    have hle := le_potential (hinv h.exec)
    rw [potential_init] at hb
    omega
  · obtain ⟨n, es', s', hrun, hst⟩ := (hasPotential (Ordered rank)).settles (hinv h)
    exact ⟨n, es', s', hrun, hsettled (h.trans hrun.exec) hst⟩

end Order

/-- Thread 0 reads lock 0 and is held up before lock 1, which thread 1 writes; then thread 1 is held
up by nobody, and all callbacks end. -/
theorem rwlock_progress_nested :
    ∃ (es : List (Event (Fin 2) (Fin 2) Unit ℕ)) (s : State (Fin 2) (Fin 2) Unit ℕ),
      Exec step (Ordered Fin.val) State.init es s ∧ WaitsFor s 0 1 ∧
      ∃ n es' s', Paced step (Ordered Fin.val) Action.own s n 0 es' s' ∧ Settled s' := by
  obtain ⟨es, s, h, ht⟩ := Exec.exists_of_run step (Ordered Fin.val)
    (State.init : State (Fin 2) (Fin 2) Unit ℕ)
    [.new 0 0 0, .new 1 0 0, .call 1 ⟨1, 0⟩ .write, .takeLock 1, .osLock 1 0,
      .call 0 ⟨0, 0⟩ .read, .takeLock 0, .osLock 0 0, .call 0 ⟨1, 0⟩ .read, .takeLock 0]
    (fun s _ => decide (s.threads 0 = .lock ⟨⟨1, 0⟩, .read⟩ ∧ ⟨⟨1, 0⟩, .write⟩ ∈ s.inside 1))
    (by decide +kernel)
  obtain ⟨h₀, h₁⟩ := of_decide_eq_true ht
  obtain ⟨-, hsettles⟩ := rwlock_progress (T := Fin 2) (ε := Unit) (V := ℕ) (Fin.val : Fin 2 → ℕ)
  exact ⟨es, s, h, ⟨_, h₀, _, h₁, rfl⟩, (hsettles es s h).1⟩

end NativeSync.RwLock
