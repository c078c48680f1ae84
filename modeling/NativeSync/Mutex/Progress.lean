import NativeSync.Foundations.Progress
import NativeSync.Mutex.Guards

/-!
# Mutexes and condition variables make progress

A thread takes steps by itself inside of the native functions, and when a callback ends. It is held
up by a mutex that another thread holds, before its callback or after a wait, or it sleeps. The
threads never run in circles, whatever the operating system returns.

With nested callbacks threads can hold each other up for ever. The usual remedy is an order of the
mutexes: a thread locks a mutex only above those that it holds, and waits only on the highest one
(`Ordered`). Then whoever is held up waits, through others perhaps, for a thread that sleeps on a
condition variable; and when nobody sleeps, the threads run until all callbacks have ended and all
mutexes are free.
-/

namespace NativeSync.Mutex

open Foundations

variable {M C T : Type}

/-- The steps that a thread takes by itself. -/
def Action.own : Action M C T → Bool
  | osLock .. => true
  | finish .. => true
  | osWait .. => true
  | osWake _ => true
  | advance _ => true
  | _ => false

/-! ## What a thread does by itself -/

/-- A thread with the callbacks `fs` goes on to another point, and has these callbacks there. -/
inductive Ahead (fs : List (Guard M)) :
    Pc (Point M C) → Pc (Point M C) → List (Guard M) → Prop
  | failed (m : M) : Ahead fs (.run (.lock m)) (.run .user) fs
  | granted (m : M) : Ahead fs (.run (.lock m)) (.run (.lockOwner m)) fs
  | lockOwner (m : M) : Ahead fs (.run (.lockOwner m)) (.run (.lockLocked m)) fs
  | began (m : M) (k : ℕ) : Ahead fs (.run (.lockLocked m)) (.run .user) (⟨m, k⟩ :: fs)
  | finish (g : Guard M) (raised : Bool) :
      Ahead fs (.run .user) (.run (.unlockLocked g raised)) fs
  | unlockLocked (g : Guard M) (raised : Bool) :
      Ahead fs (.run (.unlockLocked g raised)) (.run (.unlockOwner g raised)) fs
  | unlockOwner (g : Guard M) (raised : Bool) :
      Ahead fs (.run (.unlockOwner g raised)) (.run (.unlock g raised)) fs
  | unlock (g : Guard M) (raised : Bool) : Ahead fs (.run (.unlock g raised)) (.run .user) fs.tail
  | locked (m : M) (c : C) : Ahead fs (.run (.checkLocked m c)) (.run (.checkOwner m c)) fs
  | notLocked (m : M) (c : C) : Ahead fs (.run (.checkLocked m c)) (.run .user) fs
  | passed (m : M) (c : C) : Ahead fs (.run (.checkOwner m c)) (.run (.sleep m c)) fs
  | notOwner (m : M) (c : C) : Ahead fs (.run (.checkOwner m c)) (.run .user) fs
  | waitFailed (m : M) (c : C) : Ahead fs (.run (.sleep m c)) (.run .user) fs
  | sleep (m : M) (c : C) : Ahead fs (.run (.sleep m c)) (.wait .asleep (.sleep m c)) fs
  | wake (w : Wake) (hw : w ≠ .asleep) (m : M) (c : C) :
      Ahead fs (.wait w (.sleep m c)) (.run (.wakeOwner m c)) fs
  | wakeOwner (m : M) (c : C) : Ahead fs (.run (.wakeOwner m c)) (.run (.wakeLocked m c)) fs
  | waited (m : M) (c : C) : Ahead fs (.run (.wakeLocked m c)) (.run .user) fs

/-- What is left to do for a thread at a point, but for the callbacks that it is in. -/
def Point.cost : Point M C → ℕ
  | user => 4
  | lock _ => 11
  | lockOwner _ => 10
  | lockLocked _ => 9
  | unlockLocked .. => 3
  | unlockOwner .. => 2
  | unlock .. => 1
  | checkLocked .. => 9
  | checkOwner .. => 8
  | sleep .. => 7
  | wakeOwner .. => 6
  | wakeLocked .. => 5

/-- What is left to do for some callbacks. -/
def framesCost (fs : List (Guard M)) : ℕ := 4 * fs.length

/-- A thread that goes on has less to do than before. -/
theorem Ahead.cost_lt {fs fs' : List (Guard M)} {x y : Pc (Point M C)} (h : Ahead fs x y fs')
    (hx : x.point.Placed fs) : passWeight Point.cost y + framesCost fs' <
      passWeight Point.cost x + framesCost fs := by
  cases h with
  | began m k =>
    simp only [passWeight, Point.cost, framesCost, List.length_cons]
    omega
  | unlock g raised =>
    obtain ⟨gs, rfl⟩ := List.head?_eq_some_iff.1 hx
    simp only [passWeight, Point.cost, framesCost, List.length_cons, List.tail_cons]
    omega
  | wake w hw m c =>
    cases w with
    | asleep => exact absurd rfl hw
    | notified => simp [passWeight, Point.cost]
    | spurious => simp [passWeight, Point.cost]
  | _ => simp [passWeight, Point.cost]

/-- The point at which threads wait: the wait of a condition variable. -/
def Point.Waits (p : Point M C) : Prop := ∃ m c, p = .sleep m c

/-- Every thread weighs at least as much as outside of every callback. -/
theorem four_le_cost {fs : List (Guard M)} {x : Pc (Point M C)} (hw : x.WaitsAt Point.Waits)
    (hx : x.point.Placed fs) : 4 ≤ passWeight Point.cost x + framesCost fs := by
  cases x with
  | run p =>
    have hhead : ∀ g : Guard M, fs.head? = some g → 4 ≤ framesCost fs := by
      intro g hg
      obtain ⟨gs, rfl⟩ := List.head?_eq_some_iff.1 hg
      simp only [framesCost, List.length_cons]
      omega
    cases p with
    | unlockLocked g raised => exact (hhead g hx).trans (Nat.le_add_left _ _)
    | unlockOwner g raised => exact (hhead g hx).trans (Nat.le_add_left _ _)
    | unlock g raised => exact (hhead g hx).trans (Nat.le_add_left _ _)
    | _ =>
      simp only [passWeight, Point.cost]
      omega
  | wait w p =>
    obtain ⟨m, c, rfl⟩ := hw w p rfl
    cases w <;>
      · simp only [passWeight, Point.cost]
        omega

variable [DecidableEq M] [DecidableEq T] {ids : Ids T} {s s' : State M C T}
  {e es : List (Event M C T)} {a : Action M C T} {t u : T} {m : M}

theorem advance_ahead (hs : s.advance ids t = some (s', e)) : ∃ y fs,
    Ahead (s.frames t) (s.threads t) y fs ∧ s'.threads = Function.update s.threads t y ∧
      s'.frames = Function.update s.frames t fs := by
  have hsame : s.frames = Function.update s.frames t (s.frames t) :=
    (Function.update_eq_self t s.frames).symm
  unfold State.advance at hs
  split at hs
  · rename_i m ht
    cases hs
    exact ⟨_, _, ht ▸ .lockOwner m, rfl, hsame⟩
  · rename_i m ht
    cases hs
    exact ⟨_, _, ht ▸ .began m _, rfl, rfl⟩
  · rename_i g raised ht
    cases hs
    exact ⟨_, _, ht ▸ .unlockLocked g raised, rfl, hsame⟩
  · rename_i g raised ht
    cases hs
    exact ⟨_, _, ht ▸ .unlockOwner g raised, rfl, hsame⟩
  · rename_i g raised ht
    cases hs
    exact ⟨_, _, ht ▸ .unlock g raised, rfl, rfl⟩
  · rename_i m c ht
    split_ifs at hs
    · cases hs
      exact ⟨_, _, ht ▸ .locked m c, rfl, hsame⟩
    · cases hs
      exact ⟨_, _, ht ▸ .notLocked m c, rfl, hsame⟩
  · rename_i m c ht
    split_ifs at hs
    · cases hs
      exact ⟨_, _, ht ▸ .passed m c, rfl, hsame⟩
    · cases hs
      exact ⟨_, _, ht ▸ .notOwner m c, rfl, hsame⟩
  · rename_i m c ht
    cases hs
    exact ⟨_, _, ht ▸ .wakeOwner m c, rfl, hsame⟩
  · rename_i m c ht
    cases hs
    exact ⟨_, _, ht ▸ .waited m c, rfl, hsame⟩
  · cases hs

variable [DecidableEq C] [Fintype T]

/-- **What an own step does.** -/
theorem own_ahead (hs : step ids s a = some (s', e)) (ha : a.own = true) : ∃ y fs,
    Ahead (s.frames a.thread) (s.threads a.thread) y fs ∧
      s'.threads = Function.update s.threads a.thread y ∧
      s'.frames = Function.update s.frames a.thread fs := by
  have hsame : ∀ t, s.frames = Function.update s.frames t (s.frames t) := fun t =>
    (Function.update_eq_self t s.frames).symm
  cases a with
  | osLock t status =>
    simp only [step] at hs
    split at hs
    · rename_i m ht
      change ∃ y fs, Ahead (s.frames t) (s.threads t) y fs ∧ _
      split_ifs at hs
      · cases hs
        exact ⟨_, _, ht ▸ .failed m, rfl, hsame t⟩
      · cases hs
        exact ⟨_, _, ht ▸ .granted m, rfl, hsame t⟩
    · cases hs
  | finish t raised =>
    simp only [step] at hs
    split at hs
    · rename_i g fs ht hf
      change ∃ y fs, Ahead (s.frames t) (s.threads t) y fs ∧ _
      cases hs
      exact ⟨_, _, ht ▸ .finish g raised, rfl, hsame t⟩
    · cases hs
  | osWait t status =>
    simp only [step] at hs
    split at hs
    · rename_i m c ht
      change ∃ y fs, Ahead (s.frames t) (s.threads t) y fs ∧ _
      split_ifs at hs
      · cases hs
        exact ⟨_, _, ht ▸ .waitFailed m c, rfl, hsame t⟩
      · cases hs
        exact ⟨_, _, ht ▸ .sleep m c, rfl, hsame t⟩
    · cases hs
  | osWake t =>
    simp only [step] at hs
    split at hs
    · cases hs
    · rename_i w m c hw ht
      change ∃ y fs, Ahead (s.frames t) (s.threads t) y fs ∧ _
      split_ifs at hs
      cases hs
      exact ⟨_, _, ht ▸ .wake w hw m c, rfl, hsame t⟩
    · cases hs
  | advance t => exact advance_ahead hs
  | _ => cases ha

/-! ## The potential -/

/-- The potential: the weights of the threads and of their callbacks. -/
def potential (s : State M C T) : ℕ :=
  weigh (passWeight Point.cost) s.threads + weigh framesCost s.frames

/-- **Every own step lowers the potential**, whatever the operating system returns. -/
theorem step_lowers (hI : Inv ids s) (hs : step ids s a = some (s', e)) (ha : a.own = true) :
    potential s' < potential s := by
  obtain ⟨y, fs, hahead, hthreads, hframes⟩ := own_ahead hs ha
  have hlt := hahead.cost_lt (hI a.thread).placed
  have hx := weigh_update (passWeight Point.cost) s.threads a.thread y
  have hf := weigh_update framesCost s.frames a.thread fs
  unfold potential
  rw [hthreads, hframes]
  omega

omit [DecidableEq M] [DecidableEq C] in
theorem potential_move {x : Pc (Point M C)} {n : ℕ}
    (hx : passWeight Point.cost x ≤ passWeight Point.cost (s.threads t) + n) :
    potential (s.move t x) ≤ potential s + n := by
  have hup := weigh_update (passWeight Point.cost) s.threads t x
  change weigh _ (Function.update s.threads t x) + weigh _ s.frames ≤ weigh _ s.threads + _ + n
  omega

/-- **No step raises the potential by more than a constant.** -/
theorem step_raises (hs : step ids s a = some (s', e)) (ha : a.own = false) :
    potential s' ≤ potential s + (Fintype.card T + 7) := by
  cases a with
  | withLock t m =>
    simp only [step] at hs
    split at hs
    · rename_i ht
      cases hs
      refine potential_move ?_
      rw [ht]
      simp only [passWeight, Point.cost]
      omega
    · cases hs
  | wait t c via =>
    simp only [step] at hs
    split at hs
    · rename_i ht
      obtain ⟨m, -, hs⟩ := Option.map_eq_some_iff.1 hs
      cases hs
      refine potential_move ?_
      rw [ht]
      simp only [passWeight, Point.cost]
      omega
    · cases hs
  | spurious t =>
    simp only [step] at hs
    split at hs
    · rename_i p ht
      cases hs
      refine potential_move ?_
      rw [ht]
      simp only [passWeight]
      omega
    · cases hs
  | notify t c all injected status pick =>
    simp only [step] at hs
    split at hs
    · split_ifs at hs
      · cases hs
        exact Nat.le_add_right _ _
      · cases hs
        exact Nat.le_add_right _ _
      all_goals
        obtain ⟨f, hf, hs⟩ := Option.map_eq_some_iff.1 hs
        cases hs
        have hw := weigh_woken (gentle_passWeight Point.cost) (.of_deliver hf)
        change weigh _ f + weigh _ s.frames ≤ weigh _ s.threads + _ + _
        omega
    · cases hs
  | _ => cases ha

omit [Fintype T] [DecidableEq C] in
theorem Move.waitsAt (hm : Move ids s t s' e) (h : ∀ u, (s.threads u).WaitsAt Point.Waits) (u : T) :
    (s'.threads u).WaitsAt Point.Waits := by
  cases hm with
  | sleep m c ht =>
    exact (Woken.refl _).waitsAt_update h (Pc.waitsAt_wait.2 ⟨m, c, rfl⟩) u
  | spurious p ht =>
    exact (Woken.refl _).waitsAt_update h (Pc.waitsAt_wait.2 (h t _ p ht)) u
  | notified c f r ht hw => exact hw.waitsAt (h u)
  | _ => exact (Woken.refl _).waitsAt_update h (Pc.waitsAt_run _) u

/-- What the potential needs of a state. -/
structure Sound (ids : Ids T) (s : State M C T) : Prop where
  inv : Inv ids s
  wait : ∀ t, (s.threads t).WaitsAt Point.Waits

theorem hasPotential (ids : Ids T) (G : State M C T → Action M C T → State M C T → Prop) :
    Potential (step ids) G Action.own (Sound ids) potential (Fintype.card T + 7) where
  keep := fun hI hs _ => ⟨(step_move hs).inv hI.inv, (step_move hs).waitsAt hI.wait⟩
  lowers := fun hI hs _ ha => step_lowers hI.inv hs ha
  raises := fun _ hs _ ha => step_raises hs ha

omit [DecidableEq M] [DecidableEq T] [DecidableEq C] [Fintype T] in
theorem sound_init (ids : Ids T) : Sound ids (State.init : State M C T) := ⟨inv_init ids, nofun⟩

omit [DecidableEq M] [DecidableEq T] [DecidableEq C] in
theorem le_potential (hI : Sound ids s) : 4 * Fintype.card T ≤ potential s :=
  le_weigh_add fun t => four_le_cost (hI.wait t) (hI.inv t).placed

omit [DecidableEq M] [DecidableEq T] [DecidableEq C] in
theorem potential_init : potential (State.init : State M C T) = 4 * Fintype.card T := by
  simp [potential, weigh, State.init, passWeight, Point.cost, framesCost, Nat.mul_comm]

/-! ## The order of the mutexes -/

section Order

variable {R : Type} [Preorder R] (rank : M → R)

/-- A thread locks a mutex only above those whose callbacks it is in, and waits only on the highest
of them; and the operating system does what it is asked to. -/
def Ordered (s : State M C T) (a : Action M C T) (_ : State M C T) : Prop :=
  match a with
  | .withLock t m => ∀ g ∈ s.frames t, rank g.mutex < rank m
  | .wait t _ via => ∀ m ∈ s.target via, ∀ g ∈ s.frames t, g.mutex ≠ m → rank g.mutex < rank m
  | .osLock _ status => status = 0
  | .osWait _ status => status = 0
  | _ => True

instance [DecidableLT R] (s : State M C T) (a : Action M C T) (s' : State M C T) :
    Decidable (Ordered rank s a s') :=
  match a with
  | .withLock t m => inferInstanceAs (Decidable (∀ g ∈ s.frames t, rank g.mutex < rank m))
  | .wait t _ via => inferInstanceAs (Decidable (∀ m ∈ s.target via, ∀ g ∈ s.frames t,
      g.mutex ≠ m → rank g.mutex < rank m))
  | .osLock _ status => inferInstanceAs (Decidable (status = 0))
  | .osWait _ status => inferInstanceAs (Decidable (status = 0))
  | .finish .. => .isTrue trivial
  | .spurious _ => .isTrue trivial
  | .osWake _ => .isTrue trivial
  | .advance _ => .isTrue trivial
  | .notify .. => .isTrue trivial

/-- What the point of a thread says about the order of its mutexes. -/
def Point.Above (fs : List (Guard M)) : Point M C → Prop
  | lock m => ∀ g ∈ fs, rank g.mutex < rank m
  | checkLocked m _ => ∀ g ∈ fs, g.mutex ≠ m → rank g.mutex < rank m
  | checkOwner m _ => ∀ g ∈ fs, g.mutex ≠ m → rank g.mutex < rank m
  | sleep m _ => ∀ g ∈ fs, g.mutex ≠ m → rank g.mutex < rank m
  | _ => True

variable {rank}

omit [DecidableEq M] [DecidableEq C] in
theorem Ahead.above {fs fs' : List (Guard M)} {x y : Pc (Point M C)} (h : Ahead fs x y fs')
    (hx : x.point.Above rank fs) : y.point.Above rank fs' := by
  cases h with
  | locked m c => exact hx
  | passed m c => exact hx
  | sleep m c => exact hx
  | _ => trivial

/-- **A step keeps the order.** -/
theorem step_above (h : ∀ t, (s.threads t).point.Above rank (s.frames t))
    (hs : step ids s a = some (s', e)) (hG : Ordered rank s a s') (u : T) :
    (s'.threads u).point.Above rank (s'.frames u) := by
  have hmove : ∀ {t : T} {x : Pc (Point M C)}, x.point.Above rank (s.frames t) →
      ((s.move t x).threads u).point.Above rank (s.frames u) := fun hx =>
    forall_update (Q := fun u (x : Pc (Point M C)) => x.point.Above rank (s.frames u)) hx
      (fun v _ => h v) u
  cases ha : a.own with
  | true =>
    obtain ⟨y, fs, hahead, hthreads, hframes⟩ := own_ahead hs ha
    rw [hthreads, hframes]
    by_cases hu : u = a.thread
    · subst hu
      rw [Function.update_self, Function.update_self]
      exact hahead.above (h _)
    · rw [Function.update_of_ne hu, Function.update_of_ne hu]
      exact h u
  | false =>
    cases a with
    | withLock t m =>
      simp only [step] at hs
      split at hs
      · cases hs
        exact hmove hG
      · cases hs
    | wait t c via =>
      simp only [step] at hs
      split at hs
      · obtain ⟨m, hm, hs⟩ := Option.map_eq_some_iff.1 hs
        cases hs
        exact hmove (hG m hm)
      · cases hs
    | spurious t =>
      simp only [step] at hs
      split at hs
      · rename_i p ht
        have hp := h t
        rw [ht] at hp
        cases hs
        exact hmove hp
      · cases hs
    | notify t c all injected status pick =>
      simp only [step] at hs
      split at hs
      · split_ifs at hs
        · cases hs
          exact h u
        · cases hs
          exact h u
        all_goals
          obtain ⟨f, hf, hs⟩ := Option.map_eq_some_iff.1 hs
          cases hs
          change (f u).point.Above rank (s.frames u)
          rw [(Woken.of_deliver hf).point u]
          exact h u
      · cases hs
    | _ => cases ha

theorem above_of_exec (h : Exec (step ids) (Ordered rank) State.init es s) (t : T) :
    (s.threads t).point.Above rank (s.frames t) :=
  h.stateInvariant (I := fun s => ∀ t, (s.threads t).point.Above rank (s.frames t))
    (fun _ => trivial) (fun hI hs hG => step_above hI hs hG) t

/-! ## Who is held up -/

/-- The mutex that a thread waits to get. -/
def wants : Pc (Point M C) → Option M
  | .run (.lock m) => some m
  | .wait .notified (.sleep m _) => some m
  | .wait .spurious (.sleep m _) => some m
  | _ => none

/-- Thread `t` waits to get a mutex that `u` holds. -/
def WaitsFor (s : State M C T) (t u : T) : Prop :=
  ∃ m, wants (s.threads t) = some m ∧ s.holder m = some u

/-- The thread is outside of every callback. -/
def Out (s : State M C T) (t : T) : Prop := s.threads t = .run .user ∧ s.frames t = []

/-- The thread sleeps on a condition variable. -/
def Asleep (s : State M C T) (t : T) : Prop := ∃ m c, s.threads t = .wait .asleep (.sleep m c)

/-- Whoever is in a callback sleeps, or waits for a sleeper, through others perhaps; and when nobody
sleeps, all mutexes are free. -/
structure Settled (s : State M C T) : Prop where
  waits : ∀ t, Out s t ∨ ∃ u, Asleep s u ∧ Relation.ReflTransGen (WaitsFor s) t u
  free : (∀ t, ¬Asleep s t) → ∀ m, s.holder m = none

omit [DecidableEq M] [DecidableEq C] in
theorem wants_cases {x : Pc (Point M C)} (h : wants x = some m) :
    x = .run (.lock m) ∨ ∃ w c, w ≠ .asleep ∧ x = .wait w (.sleep m c) := by
  unfold wants at h
  split at h
  · cases h
    exact .inl rfl
  · cases h
    exact .inr ⟨_, _, by simp, rfl⟩
  · cases h
    exact .inr ⟨_, _, by simp, rfl⟩
  · cases h

omit [DecidableEq M] [DecidableEq C] in
/-- A thread holds mutexes only below the one that it wants. -/
theorem rank_lt {fs : List (Guard M)} {x : Pc (Point M C)} {m m' : M}
    (hx : x.point.Above rank fs) (hw : wants x = some m') (hm : Holds m fs x) :
    rank m < rank m' := by
  obtain rfl | ⟨w, c, -, rfl⟩ := wants_cases hw
  · obtain ⟨g, hg, rfl⟩ := List.mem_map.1 (hm.resolve_left id)
    exact hx g hg
  · obtain ⟨g, hg, rfl⟩ := List.mem_map.1 hm.2
    exact hx g hg fun he => hm.1 he.symm

omit [DecidableEq M] [DecidableEq T] [DecidableEq C] [Fintype T] in
theorem not_out_of_holder (hI : Inv ids s) (hm : s.holder m = some u) : ¬Out s u := by
  rintro ⟨ht, hf⟩
  have hholds := ((hI u).held m).1 hm
  rw [ht, hf] at hholds
  simp at hholds

/-- **A thread that cannot go on** is outside of every callback, or sleeps, or waits for another. -/
theorem stuck_cases (hI : Sound ids s) (hst : Stuck (step ids) (Ordered rank) Action.own s)
    (t : T) : Out s t ∨ Asleep s t ∨ ∃ u, WaitsFor s t u := by
  have hadvance := hst.none (.advance t) rfl fun _ => trivial
  simp only [step, State.advance] at hadvance
  cases ht : s.threads t with
  | run p =>
    cases p with
    | user =>
      cases hf : s.frames t with
      | nil => exact .inl ⟨ht, hf⟩
      | cons g fs =>
        have hfinish := hst.none (.finish t false) rfl fun _ => trivial
        simp [step, ht, hf] at hfinish
    | lock m =>
      cases hm : s.holder m with
      | none =>
        have hlock := hst.none (.osLock t 0) rfl fun _ => rfl
        simp [step, ht, hm] at hlock
      | some u => exact .inr (.inr ⟨u, m, by rw [ht]; rfl, hm⟩)
    | sleep m c =>
      have hwait := hst.none (.osWait t 0) rfl fun _ => rfl
      simp [step, ht] at hwait
    | checkLocked m c =>
      simp only [ht] at hadvance
      split_ifs at hadvance
    | checkOwner m c =>
      simp only [ht] at hadvance
      split_ifs at hadvance
    | _ => simp [ht] at hadvance
  | wait w p =>
    obtain ⟨m, c, rfl⟩ := hI.wait t w p ht
    have hwake := hst.none (.osWake t) rfl fun _ => trivial
    cases w with
    | asleep => exact .inr (.inl ⟨m, c, ht⟩)
    | notified =>
      cases hm : s.holder m with
      | none => simp [step, ht, hm] at hwake
      | some u => exact .inr (.inr ⟨u, m, by rw [ht]; rfl, hm⟩)
    | spurious =>
      cases hm : s.holder m with
      | none => simp [step, ht, hm] at hwake
      | some u => exact .inr (.inr ⟨u, m, by rw [ht]; rfl, hm⟩)

/-- And conversely. -/
theorem stuck_of_cases (h : ∀ t, Out s t ∨ Asleep s t ∨ ∃ u, WaitsFor s t u) :
    Stuck (step ids) (Ordered rank) Action.own s := by
  intro a s' e ha hs hG
  have hcases : ∀ t, s.threads t = .run .user ∧ s.frames t = [] ∨
      (∃ m c, s.threads t = .wait .asleep (.sleep m c)) ∨
      (∃ m u, s.threads t = .run (.lock m) ∧ s.holder m = some u) ∨
      ∃ m u w c, s.threads t = .wait w (.sleep m c) ∧ s.holder m = some u := by
    intro t
    obtain hout | hsleep | ⟨u, m, hw, hm⟩ := h t
    · exact .inl hout
    · exact .inr (.inl hsleep)
    · obtain ht | ⟨w, c, -, ht⟩ := wants_cases hw
      · exact .inr (.inr (.inl ⟨m, u, ht, hm⟩))
      · exact .inr (.inr (.inr ⟨m, u, w, c, ht, hm⟩))
  cases a with
  | osLock t status =>
    obtain rfl : status = 0 := hG
    rcases hcases t with ⟨ht, hf⟩ | ⟨m, c, ht⟩ | ⟨m, u, ht, hm⟩ | ⟨m, u, w, c, ht, hm⟩
    · simp [step, ht] at hs
    · simp [step, ht] at hs
    · simp [step, ht, hm] at hs
    · simp [step, ht] at hs
  | finish t raised =>
    rcases hcases t with ⟨ht, hf⟩ | ⟨m, c, ht⟩ | ⟨m, u, ht, hm⟩ | ⟨m, u, w, c, ht, hm⟩
    · simp [step, ht, hf] at hs
    · simp [step, ht] at hs
    · simp [step, ht] at hs
    · simp [step, ht] at hs
  | osWait t status =>
    rcases hcases t with ⟨ht, hf⟩ | ⟨m, c, ht⟩ | ⟨m, u, ht, hm⟩ | ⟨m, u, w, c, ht, hm⟩ <;>
      simp [step, ht] at hs
  | osWake t =>
    rcases hcases t with ⟨ht, hf⟩ | ⟨m, c, ht⟩ | ⟨m, u, ht, hm⟩ | ⟨m, u, w, c, ht, hm⟩
    · simp [step, ht] at hs
    · simp [step, ht] at hs
    · simp [step, ht] at hs
    · cases w <;> simp [step, ht, hm] at hs
  | advance t =>
    rcases hcases t with ⟨ht, hf⟩ | ⟨m, c, ht⟩ | ⟨m, u, ht, hm⟩ | ⟨m, u, w, c, ht, hm⟩ <;>
      simp [step, State.advance, ht] at hs
  | _ => cases ha

/-- **Stuck mutexes are settled.** -/
theorem settled_of_stuck (hI : Sound ids s)
    (hab : ∀ t, (s.threads t).point.Above rank (s.frames t))
    (hst : Stuck (step ids) (Ordered rank) Action.own s) : Settled s := by
  -- the wanted mutexes ascend along a chain of threads that wait for each other
  let above (t u : T) : Prop := ∃ m m', wants (s.threads t) = some m ∧
    wants (s.threads u) = some m' ∧ rank m < rank m'
  have htrans : ∀ {t u v}, above t u → above u v → above t v := by
    rintro t u v ⟨m₁, m₂, ht, hu, h₁⟩ ⟨m₂', m₃, hu', hv, h₂⟩
    obtain rfl : m₂ = m₂' := Option.some.inj (hu.symm.trans hu')
    exact ⟨m₁, m₃, ht, hv, h₁.trans h₂⟩
  have hirrefl : ∀ t, ¬above t t := by
    rintro t ⟨m, m', hm, hm', hlt⟩
    obtain rfl : m = m' := Option.some.inj (hm.symm.trans hm')
    exact lt_irrefl _ hlt
  have hblocked : ∀ t, ¬Out s t ∧ ¬Asleep s t →
      ∃ u, WaitsFor s t u ∧ (¬Out s u ∧ ¬Asleep s u → above t u) := by
    rintro t ⟨hout, hsleep⟩
    obtain ⟨u, m, hm, hu⟩ := ((stuck_cases hI hst t).resolve_left hout).resolve_left hsleep
    refine ⟨u, ⟨m, hm, hu⟩, fun ⟨hout', hsleep'⟩ => ?_⟩
    obtain ⟨v, m', hm', -⟩ := ((stuck_cases hI hst u).resolve_left hout').resolve_left hsleep'
    exact ⟨m, m', hm, hm', rank_lt (hab u) hm' (((hI.inv u).held m).1 hu)⟩
  have hwaits : ∀ t, Out s t ∨ ∃ u, Asleep s u ∧ Relation.ReflTransGen (WaitsFor s) t u := by
    intro t
    obtain ⟨u, htu, hu⟩ := exists_unblocked @htrans hirrefl hblocked t
    by_cases hsleep : Asleep s u
    · exact .inr ⟨u, hsleep, htu⟩
    · have hout : Out s u := not_not.1 fun hout => hu ⟨hout, hsleep⟩
      rcases htu.cases_tail with rfl | ⟨v, -, m, -, hm⟩
      · exact .inl hout
      · exact absurd hout (not_out_of_holder hI.inv hm)
  refine ⟨hwaits, fun hnone m => ?_⟩
  cases hm : s.holder m with
  | none => rfl
  | some t =>
    rcases hwaits t with hout | ⟨u, hu, -⟩
    · exact absurd hout (not_out_of_holder hI.inv hm)
    · exact absurd hu (hnone u)

/-- **The mutexes make progress.** In every run, whatever the operating system returns, the `n`
threads take by themselves at most `n + 7` steps for each call, notification and wake-up for no
reason. If the mutexes are locked in ascending order and the waits are on the highest one, then from
every state that is reached own steps lead to one in which no more can be taken; and there every
thread that is in a callback sleeps on a condition variable or waits for such a thread, through
others perhaps, so that all callbacks have ended and all mutexes are free when nobody sleeps. -/
theorem mutex_progress (ids : Ids T) (rank : M → R) :
    (∀ G n k es s, Paced (step (M := M) (C := C) ids) G Action.own State.init n k es s →
      n ≤ (Fintype.card T + 7) * k) ∧
    ∀ es s, Exec (step (M := M) (C := C) ids) (Ordered rank) State.init es s →
      (∃ n es' s', Paced (step ids) (Ordered rank) Action.own s n 0 es' s' ∧
        Stuck (step ids) (Ordered rank) Action.own s' ∧ Settled s') ∧
      (Stuck (step ids) (Ordered rank) Action.own s → Settled s) := by
  have hsound : ∀ {G es} {s : State M C T}, Exec (step ids) G State.init es s → Sound ids s :=
    fun h => h.stateInvariant (sound_init ids) fun hI hs hG => (hasPotential ids _).keep hI hs hG
  have hsettled : ∀ {es} {s : State M C T}, Exec (step ids) (Ordered rank) State.init es s →
      Stuck (step ids) (Ordered rank) Action.own s → Settled s := fun h hst =>
    settled_of_stuck (hsound h) (above_of_exec h) hst
  refine ⟨fun G n k es s h => ?_, fun es s h => ⟨?_, hsettled h⟩⟩
  · have hb := (hasPotential ids G).bound (sound_init ids) h
    have hle := le_potential (hsound h.exec)
    rw [potential_init] at hb
    omega
  · obtain ⟨n, es', s', hrun, hst⟩ := (hasPotential ids (Ordered rank)).settles (hsound h)
    exact ⟨n, es', s', hrun, hst, hsettled (h.trans hrun.exec) hst⟩

end Order

/-- Thread 0 is in a callback of mutex 0 and in one of mutex 1 inside of it, and sleeps on mutex 1.
So it still holds mutex 0, and thread 1 waits for it. -/
theorem mutex_progress_nested :
    ∃ (n k : ℕ) (es : List (Event (Fin 2) Unit (Fin 2))) (s : State (Fin 2) Unit (Fin 2)),
      Paced (step twoIds) (Ordered Fin.val) Action.own State.init n k es s ∧
      Stuck (step twoIds) (Ordered Fin.val) Action.own s ∧
      s.holder 0 = some 0 ∧ s.holder 1 = none ∧ ¬Out s 1 ∧ n ≤ 9 * k ∧
      ∃ u, Asleep s u ∧ Relation.ReflTransGen (WaitsFor s) 1 u := by
  obtain ⟨es, s, h, ht⟩ := Exec.exists_of_run (step twoIds) (Ordered Fin.val)
    (State.init : State (Fin 2) Unit (Fin 2))
    [.withLock 0 0, .osLock 0 0, .advance 0, .advance 0, .withLock 0 1, .osLock 0 0, .advance 0,
      .advance 0, .wait 0 () (.guard 1), .advance 0, .advance 0, .osWait 0 0, .withLock 1 0]
    (fun s _ => decide (s.threads 0 = .wait .asleep (.sleep 1 ()) ∧ s.threads 1 = .run (.lock 0) ∧
      s.holder 0 = some 0 ∧ s.holder 1 = none)) (by decide +kernel)
  obtain ⟨h₀, h₁, hheld, hfree⟩ := of_decide_eq_true ht
  obtain ⟨n, k, hp⟩ := h.paced Action.own
  have hst : Stuck (step twoIds) (Ordered Fin.val) Action.own s := by
    refine stuck_of_cases fun t => ?_
    match t with
    | 0 => exact .inr (.inl ⟨1, (), h₀⟩)
    | 1 => exact .inr (.inr ⟨0, 0, by rw [h₁]; rfl, hheld⟩)
  obtain ⟨hbound, hsettled⟩ := mutex_progress (C := Unit) twoIds (Fin.val : Fin 2 → ℕ)
  have hout : ¬Out s 1 := by
    rintro ⟨hu, -⟩
    cases h₁.symm.trans hu
  refine ⟨n, k, es, s, hp, hst, hheld, hfree, hout, hbound _ _ _ _ _ hp, ?_⟩
  exact (((hsettled es s h).2 hst).waits 1).resolve_left hout

end NativeSync.Mutex
