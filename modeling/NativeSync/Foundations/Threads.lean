import Mathlib.Data.Fintype.Basic
import Mathlib.Data.Finset.Card
import Mathlib.Data.Fintype.Card
import Mathlib.Logic.Function.Basic

/-!
# Threads, condition variables and counting

A table of threads is a function `T → Pc P` from the (finitely many, but any number of) threads to
where each of them stands: at a program point, or inside a wait on a condition variable that it
entered at a program point. A program point has at most one wait, on the condition variable
`cond p`.

* A waiting thread is `asleep`, or it has been `notified`, or it has woken up without a
  notification (`spurious`); in the last two cases it is about to take the mutex again, and is
  `Ready` to run on from its point.
* `signal` wakes one sleeper of a condition variable, which one is the choice of the operating
  system, and is lost exactly when there is none; `broadcast` wakes every sleeper.
* `num p f` counts the threads of a table with a property; `num_update` says how the count changes
  when one thread moves, and is what every counting invariant rests on.
* `Woken f f'` is what any number of notifications can do to a table; `numAt_step` is the counting
  rule for a step that moves one thread and notifies others.
-/

namespace NativeSync.Foundations

/-- How far a thread inside a wait on a condition variable has got. -/
inductive Wake
  | asleep
  | notified
  | spurious
  deriving DecidableEq

/-- Where a thread stands: running from a program point, or in the wait entered at that point. -/
inductive Pc (P : Type*)
  | run (p : P)
  | wait (w : Wake) (p : P)
  deriving DecidableEq

namespace Pc

variable {P C : Type*} [DecidableEq C] (cond : P → Option C)

/-- The program point of a thread, whether or not it waits there. -/
def point : Pc P → P
  | run p => p
  | wait _ p => p

/-- The thread sleeps on `c` and nobody has notified it. -/
def asleepOn (c : C) : Pc P → Bool
  | wait .asleep p => cond p = some c
  | _ => false

/-- The thread has been notified on `c` and has not resumed yet. -/
def notifiedOn (c : C) : Pc P → Bool
  | wait .notified p => cond p = some c
  | _ => false

/-- The thread is about to run from `p`: it stands there, or its wait there is over. -/
def Ready (x : Pc P) (p : P) : Prop := x = run p ∨ ∃ w, w ≠ .asleep ∧ x = wait w p

/-- The thread gets the mutex and runs from `p`: it stands there and `locks`, or its wait there is
over and it `resumes`. -/
def Entered (locks resumes : Prop) (x : Pc P) (p : P) : Prop :=
  locks ∧ x = run p ∨ resumes ∧ ∃ w, w ≠ .asleep ∧ x = wait w p

/-- The thread waits, if it does, at a point of `waits`. -/
def WaitsAt (waits : P → Prop) (x : Pc P) : Prop := ∀ w p, x = wait w p → waits p

/-- The thread has no step of its own to take: it stands at a point of `rests`, or it sleeps. -/
def Rested (rests : P → Prop) (x : Pc P) : Prop :=
  (∃ p, rests p ∧ x = run p) ∨ ∃ p, x = wait .asleep p

/-- A sleeper becomes a notified thread. -/
def notify : Pc P → Pc P
  | wait .asleep p => wait .notified p
  | x => x

@[simp] theorem point_run (p : P) : (run p).point = p := rfl

@[simp] theorem point_wait (w : Wake) (p : P) : (wait w p).point = p := rfl

@[simp] theorem point_notify (x : Pc P) : x.notify.point = x.point := by
  rcases x with p | ⟨_ | _ | _, p⟩ <;> rfl

theorem Ready.point {x : Pc P} {p : P} (h : x.Ready p) : x.point = p := by
  rcases h with rfl | ⟨w, -, rfl⟩ <;> rfl

theorem Entered.ready {locks resumes : Prop} {x : Pc P} {p : P} (h : x.Entered locks resumes p) :
    x.Ready p := by
  rcases h with ⟨-, h⟩ | ⟨-, h⟩
  · exact .inl h
  · exact .inr h

theorem waitsAt_run {waits : P → Prop} (p : P) : (run p).WaitsAt waits := nofun

theorem waitsAt_wait {waits : P → Prop} {w : Wake} {p : P} :
    (wait w p).WaitsAt waits ↔ waits p := by
  refine ⟨fun h => h w p rfl, fun h v q hq => ?_⟩
  cases hq
  exact h

/-- A thread at rest has not been notified. -/
theorem Rested.notifiedOn {rests : P → Prop} {x : Pc P} (h : x.Rested rests) (c : C) :
    x.notifiedOn cond c = false := by
  rcases h with ⟨p, -, rfl⟩ | ⟨p, rfl⟩ <;> rfl

@[simp] theorem asleepOn_run (c : C) (p : P) : (run p).asleepOn cond c = false := rfl

@[simp] theorem asleepOn_asleep (c : C) (p : P) :
    (wait .asleep p).asleepOn cond c = decide (cond p = some c) := rfl

@[simp] theorem asleepOn_notified (c : C) (p : P) :
    (wait .notified p).asleepOn cond c = false := rfl

@[simp] theorem asleepOn_spurious (c : C) (p : P) :
    (wait .spurious p).asleepOn cond c = false := rfl

@[simp] theorem notifiedOn_run (c : C) (p : P) : (run p).notifiedOn cond c = false := rfl

@[simp] theorem notifiedOn_asleep (c : C) (p : P) :
    (wait .asleep p).notifiedOn cond c = false := rfl

@[simp] theorem notifiedOn_notified (c : C) (p : P) :
    (wait .notified p).notifiedOn cond c = decide (cond p = some c) := rfl

@[simp] theorem notifiedOn_spurious (c : C) (p : P) :
    (wait .spurious p).notifiedOn cond c = false := rfl

theorem asleepOn_iff {c : C} {x : Pc P} :
    x.asleepOn cond c = true ↔ ∃ p, x = wait .asleep p ∧ cond p = some c := by
  rcases x with p | ⟨_ | _ | _, p⟩ <;> simp

theorem notifiedOn_iff {c : C} {x : Pc P} :
    x.notifiedOn cond c = true ↔ ∃ p, x = wait .notified p ∧ cond p = some c := by
  rcases x with p | ⟨_ | _ | _, p⟩ <;> simp

end Pc

/-! ## Counting threads -/

section Counting

variable {T L : Type*} [Fintype T]

/-- The number of threads of the table with the property `p`. -/
def num (p : L → Bool) (f : T → L) : ℕ := (Finset.univ.filter fun t => p (f t) = true).card

theorem num_pos {p : L → Bool} {f : T → L} : 0 < num p f ↔ ∃ t, p (f t) = true := by
  simp [num, Finset.card_pos, Finset.Nonempty]

theorem num_eq_zero {p : L → Bool} {f : T → L} : num p f = 0 ↔ ∀ t, p (f t) = false := by
  simp [num, Finset.card_eq_zero, Finset.filter_eq_empty_iff]

theorem num_congr {p q : L → Bool} {f g : T → L} (h : ∀ t, p (f t) = q (g t)) :
    num p f = num q g := by
  unfold num
  congr 1
  exact Finset.filter_congr fun t _ => by rw [h t]

theorem num_le {p q : L → Bool} {f g : T → L} (h : ∀ t, p (f t) = true → q (g t) = true) :
    num p f ≤ num q g :=
  Finset.card_le_card fun t ht => by simpa using h t (by simpa using ht)

/-- Of a property that at most one thread has, two threads that have it are the same. -/
theorem num_unique {p : L → Bool} {f : T → L} (h : num p f ≤ 1) {t u : T} (ht : p (f t) = true)
    (hu : p (f u) = true) : t = u :=
  Finset.card_le_one.1 h t (by simpa using ht) u (by simpa using hu)

variable [DecidableEq T]

/-- **How a count changes when thread `t` moves from `f t` to `x`.** -/
theorem num_update (p : L → Bool) (f : T → L) (t : T) (x : L) :
    num p (Function.update f t x) + (p (f t)).toNat = num p f + (p x).toNat := by
  have hrest : (Finset.univ.erase t).filter (fun u => p (Function.update f t x u) = true) =
      (Finset.univ.erase t).filter (fun u => p (f u) = true) :=
    Finset.filter_congr fun u hu => by
      rw [Function.update_of_ne (Finset.ne_of_mem_erase hu)]
  have hsplit : ∀ g : T → L, num p g =
      ((Finset.univ.erase t).filter fun u => p (g u) = true).card + (p (g t)).toNat := by
    intro g
    unfold num
    rw [← Finset.insert_erase (Finset.mem_univ t), Finset.filter_insert,
      Finset.erase_insert (Finset.notMem_erase t _)]
    split_ifs with h
    · rw [Finset.card_insert_of_notMem (by simp), h]
      rfl
    · rw [Bool.eq_false_of_not_eq_true h]
      rfl
  rw [hsplit (Function.update f t x), hsplit f, hrest, Function.update_self]
  omega

/-- A move that does not change whether the thread has the property keeps the count. -/
theorem num_update_same {p : L → Bool} {f : T → L} {t : T} {x : L} (h : p x = p (f t)) :
    num p (Function.update f t x) = num p f := by
  have := num_update p f t x
  rw [h] at this
  omega

end Counting

/-! ## Pointwise facts about a table after a move -/

section Update

variable {T L : Type*} [DecidableEq T]

theorem forall_update {Q : T → L → Prop} {f : T → L} {t : T} {x : L} (hx : Q t x)
    (h : ∀ u, u ≠ t → Q u (f u)) : ∀ u, Q u (Function.update f t x u) := by
  intro u
  by_cases hu : u = t
  · subst hu; simpa using hx
  · simpa [Function.update_of_ne hu] using h u hu

end Update

/-! ## Notifications -/

/-- A call of a condition variable's notification function. -/
inductive Notify (C : Type*)
  | signal (c : C)
  | broadcast (c : C)

/-- The effect of a critical section: the shared state it leaves, the notifications it sends and
how it ends. -/
structure Section (κ C X : Type*) where
  core : κ
  wakes : List (Notify C) := []
  exit : X

/-- A critical section on a part of the shared state, as one on the whole. -/
def Section.map {κ κ' C X : Type*} (g : κ → κ') (sec : Section κ C X) : Section κ' C X :=
  { sec with core := g sec.core }

section Notifications

variable {T P C : Type*} [DecidableEq T] [DecidableEq C] (cond : P → Option C)

/-- Wake the sleeper `pick` of `c`; no sleeper can be picked exactly when there is none. -/
def signal [Fintype T] (c : C) (pick : Option T) (f : T → Pc P) : Option (T → Pc P) :=
  match pick with
  | none => if ∀ t, (f t).asleepOn cond c = false then some f else none
  | some t =>
    if (f t).asleepOn cond c then some (Function.update f t (f t).notify) else none

/-- Wake every sleeper of `c`. -/
def broadcast (c : C) (f : T → Pc P) : T → Pc P :=
  fun t => if (f t).asleepOn cond c then (f t).notify else f t

/-- Carry out the notifications of a critical section, in order; it holds at most one signal. -/
def deliver [Fintype T] (pick : Option T) : List (Notify C) → (T → Pc P) → Option (T → Pc P)
  | [], f => some f
  | .signal c :: ns, f => (signal cond c pick f).bind (deliver pick ns)
  | .broadcast c :: ns, f => deliver pick ns (broadcast cond c f)

/-- What a signal on `c` does to a table. -/
inductive Signalled (c : C) (f : T → Pc P) : (T → Pc P) → Prop
  | lost (h : ∀ t, (f t).asleepOn cond c = false) : Signalled c f f
  | woke (t : T) (p : P) (h : f t = .wait .asleep p) (hc : cond p = some c) :
      Signalled c f (Function.update f t (.wait .notified p))

variable {cond}

theorem signal_signalled [Fintype T] {c : C} {pick : Option T} {f f' : T → Pc P}
    (h : signal cond c pick f = some f') : Signalled cond c f f' := by
  rcases pick with _ | t
  · simp only [signal, Option.ite_none_right_eq_some, Option.some.injEq] at h
    obtain ⟨h, rfl⟩ := h
    exact .lost h
  · simp only [signal, Option.ite_none_right_eq_some, Option.some.injEq] at h
    obtain ⟨h, rfl⟩ := h
    obtain ⟨p, hp, hc⟩ := (Pc.asleepOn_iff cond).1 h
    rw [hp]
    exact .woke t p hp hc

@[simp] theorem deliver_nil [Fintype T] (pick : Option T) (f : T → Pc P) :
    deliver cond pick [] f = some f := rfl

@[simp] theorem deliver_signal [Fintype T] (pick : Option T) (c : C) (f : T → Pc P) :
    deliver cond pick [.signal c] f = signal cond c pick f := by
  simp [deliver, Option.bind_fun_some]

@[simp] theorem deliver_broadcast [Fintype T] (pick : Option T) (c : C) (ns : List (Notify C))
    (f : T → Pc P) :
    deliver cond pick (.broadcast c :: ns) f = deliver cond pick ns (broadcast cond c f) := rfl

end Notifications

/-- What notifications can do to a table: some sleepers become notified. -/
def Woken {T P : Type*} (f f' : T → Pc P) : Prop :=
  ∀ t, f' t = f t ∨ ∃ p, f t = .wait .asleep p ∧ f' t = .wait .notified p

namespace Woken

variable {T P C : Type*} {f f' g : T → Pc P}

theorem refl (f : T → Pc P) : Woken f f := fun _ => .inl rfl

theorem trans (h : Woken f f') (h' : Woken f' g) : Woken f g := by
  intro t
  rcases h t with e | ⟨p, hp, hp'⟩
  · rw [← e]; exact h' t
  · rcases h' t with e' | ⟨q, hq, -⟩
    · exact .inr ⟨p, hp, e'.trans hp'⟩
    · rw [hp'] at hq; cases hq

theorem point (h : Woken f f') (t : T) : (f' t).point = (f t).point := by
  rcases h t with e | ⟨p, hp, hp'⟩
  · rw [e]
  · rw [hp, hp']; rfl

theorem waitsAt {waits : P → Prop} {t : T} (h : Woken f f') (hf : (f t).WaitsAt waits) :
    (f' t).WaitsAt waits := by
  rcases h t with e | ⟨p, hp, hp'⟩
  · rwa [e]
  · rw [hp, Pc.waitsAt_wait] at hf
    rwa [hp', Pc.waitsAt_wait]

/-- A thread moves to a point or into a wait where it may be, and threads are notified. -/
theorem waitsAt_update [DecidableEq T] {waits : P → Prop} {t : T} {x : Pc P}
    (h : Woken (Function.update f t x) f') (hf : ∀ t, (f t).WaitsAt waits) (hx : x.WaitsAt waits)
    (u : T) : (f' u).WaitsAt waits :=
  h.waitsAt (forall_update (Q := fun _ => Pc.WaitsAt waits) hx (fun v _ => hf v) u)

variable [DecidableEq C] {cond : P → Option C}

theorem asleepOn (h : Woken f f') {c : C} {t : T} (ha : (f' t).asleepOn cond c = true) :
    f' t = f t := by
  rcases h t with e | ⟨p, -, hp'⟩
  · exact e
  · rw [hp'] at ha; cases ha

theorem of_signalled [DecidableEq T] {c : C} (h : Signalled cond c f f') : Woken f f' := by
  cases h with
  | lost _ => exact .refl _
  | woke t p hp hc =>
    exact forall_update (Q := fun u x => x = f u ∨ ∃ p, f u = .wait .asleep p ∧
      x = .wait .notified p) (.inr ⟨p, hp, rfl⟩) fun u _ => .inl rfl

theorem of_broadcast (c : C) (f : T → Pc P) : Woken f (broadcast cond c f) := by
  intro t
  unfold broadcast
  split_ifs with h
  · obtain ⟨p, hp, -⟩ := (Pc.asleepOn_iff cond).1 h
    exact .inr ⟨p, hp, by rw [hp]; rfl⟩
  · exact .inl rfl

theorem of_deliver [Fintype T] [DecidableEq T] {pick : Option T} {ns : List (Notify C)}
    (h : deliver cond pick ns f = some f') : Woken f f' := by
  induction ns generalizing f with
  | nil =>
    obtain rfl := Option.some.inj h
    exact .refl _
  | cons n ns ih =>
    cases n with
    | signal c =>
      simp only [deliver, Option.bind_eq_some_iff] at h
      obtain ⟨g, hg, h⟩ := h
      exact (of_signalled (signal_signalled hg)).trans (ih h)
    | broadcast c => exact (of_broadcast c f).trans (ih h)

end Woken

/-! ## Counting program points -/

section Points

variable {T P : Type*} [Fintype T] {f f' : T → Pc P} {q r r' : P → Bool} {t : T} {x : Pc P}

/-- The number of threads of the table at a point with the property `q`, waiting there or not. -/
def numAt (q : P → Bool) (f : T → Pc P) : ℕ := num (fun x => q x.point) f

theorem numAt_pos : 0 < numAt q f ↔ ∃ t, q (f t).point = true := num_pos

theorem numAt_eq_zero : numAt q f = 0 ↔ ∀ t, q (f t).point = false := num_eq_zero

theorem numAt_le_one (h : ∀ u, q (f u).point = true → u = t) : numAt q f ≤ 1 :=
  Finset.card_le_one.2 fun u hu v hv => by
    rw [h u (by simpa using hu), h v (by simpa using hv)]

theorem numAt_le_add (h : ∀ p, q p = true → r p = true ∨ r' p = true) :
    numAt q f ≤ numAt r f + numAt r' f := by
  classical
  refine le_trans (Finset.card_le_card fun t ht => ?_) (Finset.card_union_le _ _)
  simpa using h _ (by simpa using ht)

/-- A property that is one of two disjoint ones. -/
theorem numAt_split (h : ∀ p, q p = (r p || r' p)) (hd : ∀ p, r p = true → r' p = false) :
    numAt q f = numAt r f + numAt r' f := by
  classical
  unfold numAt num
  rw [← Finset.card_union_of_disjoint]
  · congr 1
    ext t
    simp [h]
  · refine Finset.disjoint_left.2 fun t ht ht' => ?_
    have hr : r (f t).point = true := by simpa using ht
    have hr' : r' (f t).point = true := by simpa using ht'
    rw [hd _ hr] at hr'
    cases hr'

theorem numAt_mono (h : ∀ p, q p = true → r p = true) : numAt q f ≤ numAt r f :=
  num_le fun _ ht => h _ ht

theorem numAt_woken (hw : Woken f f') : numAt q f' = numAt q f :=
  num_congr fun u => by rw [hw.point]

/-- **How a count of program points changes when thread `t` moves and threads are notified.** -/
theorem numAt_step [DecidableEq T] (hw : Woken (Function.update f t x) f') :
    numAt q f' + (q (f t).point).toNat = numAt q f + (q x.point).toNat := by
  rw [numAt_woken hw]
  exact num_update (fun x => q x.point) f t x

end Points

/-! ## The lost wake-up rules

`Covered c tok d f`: as long as somebody sleeps on `c`, at least `d` threads hold a token, that is
they are on their way to serve the demand `d`. A signal sent with every unit of new demand keeps
it; so does every move of a thread that gives up a token only where the demand goes down. -/

section Covered

variable {T P C : Type*} [Fintype T] [DecidableEq C] {cond : P → Option C} {c : C}
  {tok : Pc P → Bool} {d d' : ℕ} {f f' : T → Pc P}

variable (cond c) in
/-- Nobody sleeps on `c` without having been notified. -/
def NoSleeper (f : T → Pc P) : Prop := ∀ t, (f t).asleepOn cond c = false

variable (cond c) in
/-- While somebody sleeps on `c`, at least `d` threads hold a token. -/
def Covered (tok : Pc P → Bool) (d : ℕ) (f : T → Pc P) : Prop :=
  0 < num (Pc.asleepOn cond c) f → d ≤ num tok f

omit [Fintype T] in
theorem NoSleeper.woken (h : NoSleeper cond c f) (hw : Woken f f') : NoSleeper cond c f' := by
  intro t
  by_contra ha
  have ha' := Bool.eq_true_of_not_eq_false ha
  rw [hw.asleepOn ha', h t] at ha'
  cases ha'

omit [Fintype T] in
theorem noSleeper_broadcast (f : T → Pc P) : NoSleeper cond c (broadcast cond c f) := by
  intro t
  unfold broadcast
  split_ifs with h
  · obtain ⟨p, hp, -⟩ := (Pc.asleepOn_iff cond).1 h
    rw [hp]; rfl
  · exact Bool.eq_false_of_not_eq_true h

omit [Fintype T] in
theorem NoSleeper.update [DecidableEq T] (h : NoSleeper cond c f) {t : T} {x : Pc P}
    (hx : x.asleepOn cond c = false) : NoSleeper cond c (Function.update f t x) :=
  forall_update (Q := fun _ (y : Pc P) => y.asleepOn cond c = false) hx fun u _ => h u

omit [Fintype T] in
/-- A signal wakes the only sleeper. -/
theorem Signalled.noSleeper [DecidableEq T] (hs : Signalled cond c f f')
    (h : ∀ t u, (f t).asleepOn cond c = true → (f u).asleepOn cond c = true → t = u) :
    NoSleeper cond c f' := by
  cases hs with
  | lost hl => exact hl
  | woke t p hp hc =>
    refine forall_update (Q := fun _ (y : Pc P) => y.asleepOn cond c = false) rfl fun u hu => ?_
    by_contra ha
    exact hu (h u t (Bool.eq_true_of_not_eq_false ha) (by simp [hp, hc]))

theorem NoSleeper.covered (h : NoSleeper cond c f) : Covered cond c tok d f := fun hp => by
  rw [num_eq_zero.2 h] at hp
  omega

theorem covered_zero (f : T → Pc P) : Covered cond c tok 0 f := fun _ => Nat.zero_le _

theorem Covered.mono (h : Covered cond c tok d f) (hd : d' ≤ d) : Covered cond c tok d' f :=
  fun hp => hd.trans (h hp)

variable [DecidableEq T]

/-- **The move rule.** -/
theorem Covered.update (h : Covered cond c tok d f) {t : T} {x : Pc P}
    (hx : x.asleepOn cond c = false) (hd : d' + (tok (f t)).toNat ≤ d + (tok x).toNat) :
    Covered cond c tok d' (Function.update f t x) := by
  intro hp
  have ha := num_update (Pc.asleepOn cond c) f t x
  have ht := num_update tok f t x
  rw [hx] at ha
  have := h (by simp only [Bool.toNat_false] at ha; omega)
  omega

/-- **The signal rule.** -/
theorem Covered.signalled (h : Covered cond c tok d f) (hs : Signalled cond c f f')
    (htok : ∀ t p, f t = .wait .asleep p → cond p = some c →
      tok (.wait .asleep p) = false ∧ tok (.wait .notified p) = true) :
    Covered cond c tok (d + 1) f' := by
  cases hs with
  | lost hl => exact NoSleeper.covered hl
  | woke t p hp hc =>
    obtain ⟨h₁, h₂⟩ := htok t p hp hc
    intro hpos
    have ha := num_update (Pc.asleepOn cond c) f t (.wait .notified p)
    have ht := num_update tok f t (.wait .notified p)
    rw [hp] at ha ht
    simp only [Pc.asleepOn_asleep, hc, decide_true, Bool.toNat_true, Pc.asleepOn_notified,
      Bool.toNat_false, h₁, h₂] at ha ht
    have := h (by omega)
    omega

/-- A signal to threads whose token it leaves alone. -/
theorem Covered.signalled_same {c' : C} (h : Covered cond c tok d f)
    (hs : Signalled cond c' f f')
    (htok : ∀ p, cond p = some c' → tok (.wait .asleep p) = tok (.wait .notified p)) :
    Covered cond c tok d f' := by
  cases hs with
  | lost _ => exact h
  | woke t p hp hc =>
    refine h.update (t := t) rfl ?_
    rw [hp, htok p hc]

/-! When the tokens are the notifications themselves, the rules get simpler: a thread gives up its
token as it resumes, and only a thread whose point waits on `c` can have one. -/

theorem Covered.signal_notified (h : Covered cond c (Pc.notifiedOn cond c) d f)
    (hs : Signalled cond c f f') : Covered cond c (Pc.notifiedOn cond c) (d + 1) f' :=
  h.signalled hs fun _ _ _ hc => ⟨rfl, decide_eq_true hc⟩

theorem Covered.signal_other {c' : C} (h : Covered cond c (Pc.notifiedOn cond c) d f)
    (hs : Signalled cond c' f f') (hne : c' ≠ c) : Covered cond c (Pc.notifiedOn cond c) d f' :=
  h.signalled_same hs fun p hc => (decide_eq_false fun hc' => hne (by
    rw [hc, Option.some.injEq] at hc'
    exact hc')).symm

/-- A thread that may have been notified takes one unit of the demand away. -/
theorem Covered.leave (h : Covered cond c (Pc.notifiedOn cond c) d f) {t : T} {x : Pc P}
    (hx : x.asleepOn cond c = false) (hd : d' ≤ d - 1) :
    Covered cond c (Pc.notifiedOn cond c) d' (Function.update f t x) := by
  by_cases h0 : d' = 0
  · rw [h0]
    exact covered_zero _
  · refine h.update hx ?_
    have := Bool.toNat_le ((f t).notifiedOn cond c)
    omega

/-- A thread that does not wait on `c` moves. -/
theorem Covered.pass (h : Covered cond c (Pc.notifiedOn cond c) d f) {t : T} {x : Pc P}
    (hx : x.asleepOn cond c = false) (ht : cond (f t).point ≠ some c) :
    Covered cond c (Pc.notifiedOn cond c) d (Function.update f t x) := by
  have htok : (f t).notifiedOn cond c = false := by
    rcases hf : f t with p | ⟨_ | _ | _, p⟩
    · rfl
    · rfl
    · rw [hf] at ht
      exact decide_eq_false ht
    · rfl
  refine h.update hx ?_
  rw [htok]
  exact Nat.le_add_right _ _

/-- A sleeper wakes up without having been notified. -/
theorem Covered.spurious (h : Covered cond c (Pc.notifiedOn cond c) d f) {t : T} {p : P}
    (ht : f t = .wait .asleep p) :
    Covered cond c (Pc.notifiedOn cond c) d (Function.update f t (.wait .spurious p)) :=
  h.update rfl (by rw [ht]; exact Nat.le_add_right _ _)

end Covered

end NativeSync.Foundations
