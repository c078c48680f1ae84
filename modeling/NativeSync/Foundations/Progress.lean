import NativeSync.Foundations.Runs
import NativeSync.Foundations.Threads
import Mathlib.Algebra.Order.BigOperators.Group.Finset
import Mathlib.Data.Fintype.EquivFin
import Mathlib.Logic.Relation

/-!
# Progress

A system makes progress if its threads do not run in circles and do not get stuck before their
operations are over. The steps that threads take by themselves are the `own` ones. The others come
from outside: calls, and with them copies and drops of handles, threads that arrive, test hooks that
are set, and wake-ups for no reason. `Paced` counts both along a run, and `Stuck` says that no thread
can take a step of its own. `Metered` counts of the others only those that are `paid` for.

* `Potential` is a number that every own step lowers and that every other step raises by at most a
  constant. `Potential.bound` is the amortized bound on the own steps of a run,
  `Potential.bound_paid` the one for runs in which not every other step raises it, and
  `Potential.settles` says that from every state own steps lead to one that is stuck.
* `Stuck.rested` and `stuck_of_rested` say when the stuck states are those in which every thread is
  at rest, at a point outside of all operations or asleep.
* `exists_unblocked` is the argument of the lock order: if who waits waits for somebody, and only
  for those above it, then at the end of the chain is somebody who does not wait.
* `weigh` is the sum of the weights of the threads. A thread that has been woken weighs at most one
  more than when it slept, so a signal adds at most one and a broadcast at most the number of
  threads (`weigh_deliver`).

What a stuck state looks like is what has to be shown of the system.
-/

namespace NativeSync.Foundations

/-! ## Runs with the numbers of their steps -/

section Paced

variable {σ α ε : Type*}

/-- A run from `s₀` with the number of its own steps and of its steps that are paid for. -/
inductive Metered (M : Machine σ α ε) (G : σ → α → σ → Prop) (own paid : α → Bool) (s₀ : σ) :
    ℕ → ℕ → List ε → σ → Prop
  | start : Metered M G own paid s₀ 0 0 [] s₀
  | step {n k : ℕ} {es e : List ε} {s s' : σ} {a : α} (h : Metered M G own paid s₀ n k es s)
      (hs : M s a = some (s', e)) (hG : G s a s') :
      Metered M G own paid s₀ (n + (own a).toNat) (k + (paid a).toNat) (es ++ e) s'

/-- A run from `s₀` with the number of its own steps and of its other ones. -/
def Paced (M : Machine σ α ε) (G : σ → α → σ → Prop) (own : α → Bool) (s₀ : σ) :
    ℕ → ℕ → List ε → σ → Prop :=
  Metered M G own (fun a => !own a) s₀

/-- No own step can be taken. -/
def Stuck (M : Machine σ α ε) (G : σ → α → σ → Prop) (own : α → Bool) (s : σ) : Prop :=
  ∀ a s' e, own a = true → M s a = some (s', e) → ¬G s a s'

variable {M : Machine σ α ε} {G : σ → α → σ → Prop} {own paid : α → Bool} {I : σ → Prop}
  {Φ : σ → ℕ} {s₀ s s' : σ} {n k c : ℕ} {es es' : List ε}

theorem Metered.exec (h : Metered M G own paid s₀ n k es s) : Exec M G s₀ es s := by
  induction h with
  | start => exact .start
  | step _ hs hG ih => exact ih.step hs hG

theorem Paced.exec (h : Paced M G own s₀ n k es s) : Exec M G s₀ es s := Metered.exec h

/-- Every run has its numbers. -/
theorem Exec.paced (own : α → Bool) (h : Exec M G s₀ es s) :
    ∃ n k, Paced M G own s₀ n k es s := by
  induction h with
  | start => exact ⟨0, 0, .start⟩
  | step _ hs hG ih =>
    obtain ⟨n, k, ih⟩ := ih
    exact ⟨_, _, Metered.step ih hs hG⟩

theorem Metered.trans {n' k' : ℕ} (h : Metered M G own paid s₀ n k es s)
    (h' : Metered M G own paid s n' k' es' s') :
    Metered M G own paid s₀ (n + n') (k + k') (es ++ es') s' := by
  induction h' with
  | start => simpa using h
  | step _ hs hG ih => simpa [Nat.add_assoc] using ih.step hs hG

/-- A number that own steps lower and other steps raise by at most `c`, in the states of an
invariant. -/
structure Potential (M : Machine σ α ε) (G : σ → α → σ → Prop) (own : α → Bool) (I : σ → Prop)
    (Φ : σ → ℕ) (c : ℕ) : Prop where
  keep : ∀ {s a s' e}, I s → M s a = some (s', e) → G s a s' → I s'
  lowers : ∀ {s a s' e}, I s → M s a = some (s', e) → G s a s' → own a = true → Φ s' < Φ s
  raises : ∀ {s a s' e}, I s → M s a = some (s', e) → G s a s' → own a = false → Φ s' ≤ Φ s + c

/-- **The amortized bound** for runs in which the other steps raise the number only if they are paid
for. -/
theorem Potential.bound_paid (hP : Potential M G own I Φ c)
    (hfree : ∀ {s a s' e}, I s → M s a = some (s', e) → G s a s' → own a = false →
      paid a = false → Φ s' ≤ Φ s)
    (h₀ : I s₀) (h : Metered M G own paid s₀ n k es s) : n + Φ s ≤ Φ s₀ + c * k := by
  have hI : ∀ {n k es s}, Metered M G own paid s₀ n k es s → I s := fun h =>
    h.exec.stateInvariant h₀ fun hI hs hG => hP.keep hI hs hG
  induction h with
  | start => simp
  | @step n k es e s s' a h hs hG ih =>
    rw [Nat.mul_add]
    cases ha : own a with
    | true =>
      have hlt := hP.lowers (hI h) hs hG ha
      rw [Bool.toNat_true]
      omega
    | false =>
      cases hp : paid a with
      | true =>
        have hle := hP.raises (hI h) hs hG ha
        simp only [Bool.toNat_false, Bool.toNat_true]
        omega
      | false =>
        have hle := hfree (hI h) hs hG ha hp
        simp only [Bool.toNat_false]
        omega

/-- **The amortized bound**: the own steps of a run are paid for by the others. -/
theorem Potential.bound (hP : Potential M G own I Φ c) (h₀ : I s₀)
    (h : Paced M G own s₀ n k es s) : n + Φ s ≤ Φ s₀ + c * k :=
  hP.bound_paid (fun _ _ _ ha hp => by simp [ha] at hp) h₀ h

/-- **The settling rule**: own steps lead to a state in which no more can be taken. -/
theorem Potential.settles (hP : Potential M G own I Φ c) (h : I s) :
    ∃ n es s', Paced M G own s n 0 es s' ∧ Stuck M G own s' := by
  induction hΦ : Φ s using Nat.strong_induction_on generalizing s with
  | _ m ih =>
    by_cases hst : Stuck M G own s
    · exact ⟨0, [], s, .start, hst⟩
    · unfold Stuck at hst
      push Not at hst
      obtain ⟨a, s₁, e, ha, hs, hG⟩ := hst
      obtain ⟨n, es, s', hrun, hstuck⟩ :=
        ih (Φ s₁) (hΦ ▸ hP.lowers h hs hG ha) (hP.keep h hs hG) rfl
      have hfirst : Paced M G own s _ _ _ s₁ := Metered.start.step hs hG
      rw [ha] at hfirst
      exact ⟨_, _, s', hfirst.trans hrun, hstuck⟩

/-- In a stuck state an own step that would be allowed cannot be taken. -/
theorem Stuck.none (h : Stuck M G own s) (a : α) (ha : own a = true) (hG : ∀ s', G s a s') :
    M s a = none := by
  cases hs : M s a with
  | none => rfl
  | some r => exact absurd (hG r.1) (h a r.1 r.2 ha hs)

variable (M G own s) in
/-- An own step can be taken. -/
def Able : Prop := ∃ a s' e, own a = true ∧ M s a = some (s', e) ∧ G s a s'

variable {T P : Type*} {f : T → Pc P} {rests : P → Prop}

/-- **A stuck state is at rest.** If a thread that runs could go on from every point but those of
rest, and one that has been woken from every point, then all threads are at rest. -/
theorem Stuck.rested (h : Stuck M G own s)
    (hrun : ∀ t p, f t = .run p → ¬rests p → Able M G own s)
    (hwoken : ∀ t w p, f t = .wait w p → w ≠ .asleep → Able M G own s) (t : T) :
    (f t).Rested rests := by
  have hno : ¬Able M G own s := by
    rintro ⟨a, s', e, ha, hs, hG⟩
    exact h a s' e ha hs hG
  cases ht : f t with
  | run p =>
    by_contra hp
    exact hno (hrun t p ht fun hr => hp (.inl ⟨p, hr, rfl⟩))
  | wait w p =>
    by_cases hw : w = .asleep
    · exact .inr ⟨p, by rw [hw]⟩
    · exact absurd (hwoken t w p ht hw) hno

/-- And conversely, if the own steps are those of threads that are not at rest. -/
theorem stuck_of_rested (hr : ∀ t, (f t).Rested rests)
    (hown : ∀ {a s' e}, own a = true → M s a = some (s', e) → ∃ t, ¬(f t).Rested rests) :
    Stuck M G own s := by
  intro a s' e ha hs _
  obtain ⟨t, ht⟩ := hown ha hs
  exact ht (hr t)

end Paced

/-! ## Who waits for whom -/

/-- **The lock order.** Of finitely many threads every blocked one waits for one that is not blocked
or above it. Then a chain of waiting threads leads from each of them to one that is not blocked. -/
theorem exists_unblocked {T : Type*} [Finite T] {waits above : T → T → Prop} {blocked : T → Prop}
    (htrans : ∀ {t u v}, above t u → above u v → above t v) (hirrefl : ∀ t, ¬above t t)
    (h : ∀ t, blocked t → ∃ u, waits t u ∧ (blocked u → above t u)) (t : T) :
    ∃ u, Relation.ReflTransGen waits t u ∧ ¬blocked u := by
  have : IsTrans T (Function.swap above) := ⟨fun _ _ _ htu huv => htrans huv htu⟩
  have : Std.Irrefl (Function.swap above) := ⟨hirrefl⟩
  have hwf : WellFounded (Function.swap above) := Finite.wellFounded_of_trans_of_irrefl _
  induction t using hwf.induction with
  | _ t ih =>
    by_cases ht : blocked t
    · obtain ⟨u, htu, habove⟩ := h t ht
      by_cases hu : blocked u
      · obtain ⟨v, huv, hv⟩ := ih u (habove hu)
        exact ⟨v, .head htu huv, hv⟩
      · exact ⟨u, .single htu, hu⟩
    · exact ⟨t, .refl, ht⟩

/-! ## The weights of the threads -/

section Weights

variable {T L P C : Type*} [Fintype T] {w : Pc P → ℕ} {f g : T → Pc P}

/-- The sum of the weights of the threads. -/
def weigh (w : L → ℕ) (f : T → L) : ℕ := ∑ t, w (f t)

theorem weigh_update [DecidableEq T] (w : L → ℕ) (f : T → L) (t : T) (x : L) :
    weigh w (Function.update f t x) + w (f t) = weigh w f + w x := by
  have hnew : weigh w (Function.update f t x) = w x + ∑ u ∈ Finset.univ.erase t, w (f u) := by
    rw [weigh, ← Finset.add_sum_erase _ _ (Finset.mem_univ t), Function.update_self]
    congr 1
    refine Finset.sum_congr rfl fun u hu => ?_
    rw [Function.update_of_ne (Finset.ne_of_mem_erase hu)]
  have hold : weigh w f = w (f t) + ∑ u ∈ Finset.univ.erase t, w (f u) :=
    (Finset.add_sum_erase _ _ (Finset.mem_univ t)).symm
  omega

/-- A thread that has been woken weighs at most one more than when it slept. -/
def Gentle (w : Pc P → ℕ) : Prop := ∀ p, w (.wait .notified p) ≤ w (.wait .asleep p) + 1

/-- What a notification adds to the weights of `n` threads at most. -/
def Notify.weight (n : ℕ) : Notify C → ℕ
  | signal _ => 1
  | broadcast _ => n

/-- What some notifications add to the weights of `n` threads at most. -/
def wakeWeight (n : ℕ) : List (Notify C) → ℕ
  | [] => 0
  | x :: ns => x.weight n + wakeWeight n ns

@[simp] theorem wakeWeight_nil (n : ℕ) : wakeWeight n ([] : List (Notify C)) = 0 := rfl

@[simp] theorem wakeWeight_cons (n : ℕ) (x : Notify C) (ns : List (Notify C)) :
    wakeWeight n (x :: ns) = x.weight n + wakeWeight n ns := rfl

/-- If every thread weighs at most one more, all together weigh at most their number more. -/
theorem weigh_le_add_card {v w : L → ℕ} {f g : T → L} (h : ∀ t, v (g t) ≤ w (f t) + 1) :
    weigh v g ≤ weigh w f + Fintype.card T :=
  calc weigh v g ≤ ∑ t, (w (f t) + 1) := Finset.sum_le_sum fun t _ => h t
    _ = weigh w f + Fintype.card T := by rw [Finset.sum_add_distrib]; simp [weigh]

/-- If every thread weighs at least `n` by two measures together, all weigh at least `n` each. -/
theorem le_weigh_add {K : Type*} {v : L → ℕ} {w : K → ℕ} {f : T → L} {g : T → K} {n : ℕ}
    (h : ∀ t, n ≤ v (f t) + w (g t)) : n * Fintype.card T ≤ weigh v f + weigh w g :=
  calc n * Fintype.card T = ∑ _t : T, n := by simp [Nat.mul_comm]
    _ ≤ ∑ t, (v (f t) + w (g t)) := Finset.sum_le_sum fun t _ => h t
    _ = weigh v f + weigh w g := Finset.sum_add_distrib

theorem weigh_woken (hw : Gentle w) (h : Woken f g) : weigh w g ≤ weigh w f + Fintype.card T := by
  refine weigh_le_add_card fun t => ?_
  rcases h t with he | ⟨p, hp, hp'⟩
  · rw [he]
    omega
  · rw [hp, hp']
    exact hw p

variable [DecidableEq T] [DecidableEq C] {cond : P → Option C}

theorem weigh_signalled (hw : Gentle w) {c : C} (h : Signalled cond c f g) :
    weigh w g ≤ weigh w f + 1 := by
  cases h with
  | lost hn => omega
  | woke t p ht hp =>
    have hup := weigh_update w f t (.wait .notified p)
    rw [ht] at hup
    have hone := hw p
    omega

/-- A signal finds its sleeper. -/
theorem exists_signal (cond : P → Option C) (c : C) (f : T → Pc P) :
    ∃ pick g, signal cond c pick f = some g := by
  by_cases h : ∀ t, (f t).asleepOn cond c = false
  · exact ⟨none, f, if_pos h⟩
  · push Not at h
    obtain ⟨t, ht⟩ := h
    exact ⟨some t, _, if_pos (Bool.eq_true_of_not_eq_false ht)⟩

/-- **The weight of notifications.** -/
theorem weigh_deliver (hw : Gentle w) {pick : Option T} {ns : List (Notify C)}
    (h : deliver cond pick ns f = some g) :
    weigh w g ≤ weigh w f + wakeWeight (Fintype.card T) ns := by
  induction ns generalizing f with
  | nil =>
    obtain rfl := Option.some.inj h
    simp
  | cons n ns ih =>
    rw [wakeWeight_cons]
    cases n with
    | signal c =>
      obtain ⟨f₁, hf₁, h⟩ := Option.bind_eq_some_iff.1 h
      have hone := weigh_signalled hw (signal_signalled hf₁)
      have hrest := ih h
      rw [Notify.weight]
      omega
    | broadcast c =>
      have hwoken : Woken f (broadcast cond c f) := .of_broadcast c f
      have hall := weigh_woken hw hwoken
      have hrest := ih h
      rw [Notify.weight]
      omega

/-! Most threads weigh what is left to do for them at their point, and asleep one less. -/

/-- The weight of a thread, given the weights of the points. -/
def passWeight (cost : P → ℕ) : Pc P → ℕ
  | .run p => cost p
  | .wait .asleep p => cost p - 1
  | .wait _ p => cost p

variable {cost : P → ℕ} {t : T} {p : P} {x : Pc P} {pick : Option T} {ns : List (Notify C)}

omit [Fintype T] [DecidableEq T] [DecidableEq C] in
theorem gentle_passWeight (cost : P → ℕ) : Gentle (passWeight cost) := by
  intro p
  change cost p ≤ cost p - 1 + 1
  omega

omit [Fintype T] [DecidableEq T] [DecidableEq C] in
theorem passWeight_ready (hx : x.Ready p) :
    passWeight cost x = cost p := by
  rcases hx with rfl | ⟨v, hv, rfl⟩
  · rfl
  · cases v with
    | asleep => exact absurd rfl hv
    | notified => rfl
    | spurious => rfl

omit [DecidableEq C] in
/-- A thread that is awake at `p` moves to `x`. -/
theorem weigh_moved (cost : P → ℕ) (ht : (f t).Ready p) (x : Pc P) :
    weigh (passWeight cost) (Function.update f t x) + cost p =
      weigh (passWeight cost) f + passWeight cost x := by
  have hup := weigh_update (passWeight cost) f t x
  rw [passWeight_ready ht] at hup
  exact hup

/-- **The weight of a pass**: a thread that is awake at `p` moves to `x`, and notifies. -/
theorem weigh_pass (cost : P → ℕ) (ht : (f t).Ready p)
    (hd : deliver cond pick ns (Function.update f t x) = some g) :
    weigh (passWeight cost) g + cost p ≤
      weigh (passWeight cost) f + passWeight cost x + wakeWeight (Fintype.card T) ns := by
  have hmove := weigh_moved cost ht x
  have hdel := weigh_deliver (gentle_passWeight cost) hd
  omega

omit [DecidableEq C] in
/-- The weight of a wake-up for no reason. -/
theorem weigh_spurious (cost : P → ℕ) (ht : f t = .wait .asleep p) :
    weigh (passWeight cost) (Function.update f t (.wait .spurious p)) ≤
      weigh (passWeight cost) f + 1 := by
  have hup := weigh_update (passWeight cost) f t (.wait .spurious p)
  rw [ht] at hup
  change _ + (cost p - 1) = _ + cost p at hup
  omega

end Weights

end NativeSync.Foundations
