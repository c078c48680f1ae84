import NativeSync.Foundations.Progress
import NativeSync.WaitGroup.Counting

/-!
# The wait group makes progress

An `add` is one step. A `wait` passes through the mutex and may sleep; whoever wakes it, a broadcast
or nobody, pays for its next pass. So the waiters never run in circles, whatever the primitives
return.

As long as the broadcasts succeed nobody sleeps on a count of zero, even if all the other primitives
fail at times. So when no waiter can go on, every `wait` has returned, or the count is not zero.
-/

namespace NativeSync.WaitGroup

open Foundations

variable {T : Type}

/-- The steps that a waiter takes by itself. -/
def Action.own : Action T → Bool
  | lock .. => true
  | resume .. => true
  | _ => false

/-- What is left to do for a thread: it passes, and returns or sleeps. -/
def Point.cost : Point → ℕ
  | idle => 0
  | wait _ => 2

variable [Fintype T]

/-- The potential: the weights of the threads. -/
def potential (s : State T) : ℕ := weigh (passWeight Point.cost) s.threads

variable [DecidableEq T] {s s' : State T} {e es : List (Event T)} {t : T} {h : ℕ} {os : Os}
  {p : Point} {x : Pc Point}

theorem potential_move (ht : (s.threads t).Ready p) (x : Pc Point) :
    potential (s.move t x) + p.cost = potential s + passWeight Point.cost x :=
  weigh_moved _ ht x

theorem endWait_lowers {sec : Section Core Unit WaitExit} (ht : (s.threads t).Ready (.wait h))
    (hs : s.endWait t h sec = (s', e)) : potential s' < potential s := by
  unfold State.endWait at hs
  split at hs
  · cases hs
    have hp := potential_move ht (.wait .asleep (.wait h))
    simp only [Point.cost, passWeight] at hp
    omega
  · cases hs
    have hp := potential_move ht (.run .idle)
    simp only [Point.cost, passWeight] at hp
    omega

/-- **Every own step lowers the potential**, whatever the primitives return. -/
theorem step_lowers {a : Action T} (hs : step s a = some (s', e)) (ha : a.own = true) :
    potential s' < potential s := by
  cases a with
  | lock t os =>
    simp only [step] at hs
    split at hs
    · rename_i h ht
      exact endWait_lowers (.inl ht) (Option.some.inj hs)
    · cases hs
  | resume t os =>
    simp only [step] at hs
    split at hs
    · cases hs
    · rename_i w h hw ht
      exact endWait_lowers (.inr ⟨w, hw, ht⟩) (Option.some.inj hs)
    · cases hs
  | _ => cases ha

omit [DecidableEq T] in
theorem wakeWeight_add (core : Core) (delta : Int32) (os : Os) :
    wakeWeight (Fintype.card T) (add core delta os).wakes ≤ Fintype.card T := by
  unfold add
  split_ifs
  · simp
  · simp
  · dsimp only
    split_ifs <;> simp [Notify.weight]

/-- **No step raises the potential by more than a constant.** -/
theorem step_raises {a : Action T} (hs : step s a = some (s', e)) (ha : a.own = false) :
    potential s' ≤ potential s + (Fintype.card T + 2) := by
  cases a with
  | add t h delta injected os =>
    obtain ⟨-, hs⟩ := Option.ite_none_right_eq_some.1 hs
    split_ifs at hs
    · cases hs
      exact Nat.le_add_right _ _
    · obtain ⟨f, hf, hs⟩ := Option.map_eq_some_iff.1 hs
      cases hs
      have hw := weigh_deliver (gentle_passWeight Point.cost) hf
      have hwake := wakeWeight_add (T := T) s.core delta os
      change weigh _ f ≤ weigh _ s.threads + _
      omega
  | callWait t h injected =>
    obtain ⟨hr, hs⟩ := Option.ite_none_right_eq_some.1 hs
    split_ifs at hs
    · cases hs
      exact Nat.le_add_right _ _
    · cases hs
      have hp := potential_move (.inl hr.1) (.run (.wait h))
      simp only [Point.cost, passWeight] at hp
      omega
  | spurious t =>
    simp only [step] at hs
    split at hs
    · rename_i p ht
      cases hs
      exact (weigh_spurious _ ht).trans (Nat.add_le_add_left (by omega) _)
    · cases hs
  | share h h' =>
    obtain ⟨-, hs⟩ := Option.ite_none_right_eq_some.1 hs
    cases hs
    exact Nat.le_add_right _ _
  | drop h =>
    obtain ⟨-, hs⟩ := Option.ite_none_right_eq_some.1 hs
    obtain ⟨rfl, -⟩ := Prod.mk.inj (Option.some.inj hs)
    exact Nat.le_add_right _ _
  | _ => cases ha

theorem hasPotential (G : State T → Action T → State T → Prop) :
    Potential step G Action.own (fun _ => True) potential (Fintype.card T + 2) where
  keep := fun _ _ _ => trivial
  lowers := fun _ hs _ ha => step_lowers hs ha
  raises := fun _ hs _ ha => step_raises hs ha

/-! ## Who sleeps -/

/-- A step whose broadcast succeeds; any other primitive may fail. -/
def Broadcasting (_ : State T) (a : Action T) (_ : State T) : Prop := a.os.cond₁ = 0

instance (s : State T) (a : Action T) (s' : State T) : Decidable (Broadcasting s a s') :=
  inferInstanceAs (Decidable (_ = _))

/-- The points at which the code waits. -/
def Point.Waits : Point → Prop
  | wait _ => True
  | idle => False

/-- Nobody sleeps on a count of zero, and threads wait only in `wait`. -/
structure Waits (s : State T) : Prop where
  awake : s.core.count = 0 → NoSleeper Point.cond () s.threads
  wait : ∀ t, (s.threads t).WaitsAt Point.Waits

omit [Fintype T] in
theorem Waits.move (hI : Waits s) (hx : x.WaitsAt Point.Waits)
    (haw : s.core.count = 0 → x.asleepOn Point.cond () = false) : Waits (s.move t x) where
  awake := fun hz => (hI.awake hz).update (haw hz)
  wait := (Woken.refl _).waitsAt_update hI.wait hx

omit [Fintype T] in
/-- A pass sleeps only on a count that is not zero. -/
theorem endWait_waits {sec : Section Core Unit WaitExit} (hI : Waits s)
    (hsec : sec.exit = .sleep → s.core.count ≠ 0) (hs : s.endWait t h sec = (s', e)) :
    Waits s' := by
  unfold State.endWait at hs
  split at hs
  · rename_i hexit
    cases hs
    exact hI.move (Pc.waitsAt_wait.2 trivial) fun hz => absurd hz (hsec hexit)
  · cases hs
    exact hI.move (Pc.waitsAt_run _) fun _ => rfl

theorem waitLoop_sleep {core : Core} (h : (waitLoop core os).exit = .sleep) : core.count ≠ 0 := by
  unfold waitLoop at h
  split_ifs at h with hc
  exact hc

theorem wait_sleep {core : Core} (h : (wait core os).exit = .sleep) : core.count ≠ 0 := by
  unfold wait at h
  split_ifs at h
  exact waitLoop_sleep h

theorem waitWoken_sleep {core : Core} (h : (waitWoken core os).exit = .sleep) :
    core.count ≠ 0 := by
  unfold waitWoken at h
  split_ifs at h
  exact waitLoop_sleep h

/-- An addition leaves the core, or it leaves a count that is not zero, or it wakes everybody. -/
theorem add_cases (core : Core) (delta : Int32) (hc : os.cond₁ = 0) :
    (add core delta os).core.count ≠ 0 ∧ (add core delta os).wakes = [] ∨
      (add core delta os).core = core ∧ (add core delta os).wakes = [] ∨
      (add core delta os).wakes = [.broadcast ()] := by
  unfold add
  split_ifs with hl hr
  · exact .inr (.inl ⟨rfl, rfl⟩)
  · exact .inr (.inl ⟨rfl, rfl⟩)
  · by_cases hz : wrap32 (core.next delta) = 0
    · exact .inr (.inr (if_pos ⟨hz, hc⟩))
    · exact .inl ⟨hz, if_neg fun h => hz h.1⟩

/-- **A step whose broadcast succeeds leaves nobody asleep on a count of zero.** -/
theorem step_waits {a : Action T} (hI : Waits s) (hs : step s a = some (s', e))
    (hc : a.os.cond₁ = 0) : Waits s' := by
  cases a with
  | add t h delta injected os =>
    obtain ⟨-, hs⟩ := Option.ite_none_right_eq_some.1 hs
    split_ifs at hs
    · cases hs
      exact hI
    · obtain ⟨f, hf, hs⟩ := Option.map_eq_some_iff.1 hs
      cases hs
      rcases add_cases s.core delta (show os.cond₁ = 0 from hc) with ⟨hz, hw⟩ | ⟨hcore, hw⟩ | hw
      · rw [hw, deliver_nil, Option.some.injEq] at hf
        subst hf
        exact ⟨fun h => absurd h hz, hI.wait⟩
      · rw [hw, deliver_nil, Option.some.injEq] at hf
        subst hf
        exact ⟨fun h => hI.awake (hcore ▸ h), hI.wait⟩
      · rw [hw, deliver_broadcast, deliver_nil, Option.some.injEq] at hf
        subst hf
        exact ⟨fun _ => noSleeper_broadcast _,
          fun u => (Woken.of_broadcast _ _).waitsAt (hI.wait u)⟩
  | callWait t h injected =>
    obtain ⟨-, hs⟩ := Option.ite_none_right_eq_some.1 hs
    split_ifs at hs
    · cases hs
      exact hI
    · cases hs
      exact hI.move (Pc.waitsAt_run _) fun _ => rfl
  | lock t os =>
    simp only [step] at hs
    split at hs
    · exact endWait_waits hI wait_sleep (Option.some.inj hs)
    · cases hs
  | resume t os =>
    simp only [step] at hs
    split at hs
    · cases hs
    · exact endWait_waits hI waitWoken_sleep (Option.some.inj hs)
    · cases hs
  | spurious t =>
    simp only [step] at hs
    split at hs
    · rename_i p ht
      cases hs
      exact hI.move (Pc.waitsAt_wait.2 (hI.wait t _ p ht)) fun _ => rfl
    · cases hs
  | share h h' =>
    obtain ⟨-, hs⟩ := Option.ite_none_right_eq_some.1 hs
    cases hs
    exact ⟨hI.awake, hI.wait⟩
  | drop h =>
    obtain ⟨-, hs⟩ := Option.ite_none_right_eq_some.1 hs
    obtain ⟨rfl, -⟩ := Prod.mk.inj (Option.some.inj hs)
    exact ⟨hI.awake, hI.wait⟩

theorem waits_of_exec (h : Exec step Broadcasting State.init es s) : Waits s :=
  h.stateInvariant ⟨fun _ _ => rfl, fun _ => Pc.waitsAt_run _⟩ fun hI hs hG => step_waits hI hs hG

/-! ## Who can take a step -/

/-- A thread in a wait can go on. -/
theorem able_of_run (ht : s.threads t = .run p) (hp : p ≠ .idle) :
    Able step Broadcasting Action.own s := by
  cases p with
  | idle => exact absurd rfl hp
  | wait h => exact ⟨.lock t {}, _, _, rfl, by simp only [step, ht]; rfl, rfl⟩

/-- And so can one that has been woken. -/
theorem able_of_woken {w : Wake} (hp : p.Waits) (ht : s.threads t = .wait w p)
    (hw : w ≠ .asleep) : Able step Broadcasting Action.own s := by
  cases p with
  | idle => cases hp
  | wait h =>
    cases w with
    | asleep => exact absurd rfl hw
    | notified => exact ⟨.resume t {}, _, _, rfl, by simp only [step, ht]; rfl, rfl⟩
    | spurious => exact ⟨.resume t {}, _, _, rfl, by simp only [step, ht]; rfl, rfl⟩

/-- **In a stuck wait group every thread is at rest.** -/
theorem rested_of_stuck (hI : Waits s) (hst : Stuck step Broadcasting Action.own s) (t : T) :
    (s.threads t).Rested (· = .idle) :=
  hst.rested (fun _ _ => able_of_run) (fun u w p hu => able_of_woken (hI.wait u w p hu) hu) t

/-- Who takes a step of its own is not at rest. -/
theorem not_rested_of_own {a : Action T} (ha : a.own = true) (hs : step s a = some (s', e)) :
    ∃ t, ¬(s.threads t).Rested (· = .idle) := by
  cases a with
  | lock t os =>
    refine ⟨t, ?_⟩
    rintro (⟨p, rfl, h⟩ | ⟨p, h⟩) <;> simp [step, h] at hs
  | resume t os =>
    refine ⟨t, ?_⟩
    rintro (⟨p, rfl, h⟩ | ⟨p, h⟩) <;> simp [step, h] at hs
  | _ => cases ha

/-- Every wait has returned, or sleeps on a count that is not zero. -/
def Settled (s : State T) : Prop :=
  ∀ t, s.threads t = .run .idle ∨
    ∃ h, s.threads t = .wait .asleep (.wait h) ∧ s.core.count ≠ 0

/-- **A stuck wait group is settled.** -/
theorem settled_of_stuck (h : Exec step Broadcasting State.init es s)
    (hst : Stuck step Broadcasting Action.own s) : Settled s := by
  have hI := waits_of_exec h
  intro t
  rcases rested_of_stuck hI hst t with ⟨p, rfl, ht⟩ | ⟨p, ht⟩
  · exact .inl ht
  · cases p with
    | idle => cases hI.wait t _ _ ht
    | wait k =>
      refine .inr ⟨k, ht, fun hz => ?_⟩
      have hno := hI.awake hz t
      rw [ht] at hno
      cases hno

end NativeSync.WaitGroup
