import NativeSync.Foundations.Progress
import NativeSync.Once.Failures

/-!
# Once makes progress

A call of `call_once` passes through the mutex, may sleep and pass again, may run its initializer and
then wakes everybody; all of this is paid for when it is made. So the callers never run in circles,
whatever the primitives return.

As long as no failure strands the state and the broadcasts succeed, the callers can go on until every
call has returned: while somebody sleeps the state is running, and then there is a caller that will
end it. That initializers end is part of the assumption: their end is a step of the caller.
-/

namespace NativeSync.Once

open Foundations

variable {ε T : Type}

/-- The steps that a caller takes by itself. -/
def Action.own : Action ε T → Bool
  | lock .. => true
  | resume .. => true
  | ended .. => true
  | _ => false

/-- What is left to do for one of `n` callers: it is granted the initializer, the initializer ends,
and it returns and wakes everybody. -/
def Point.cost (n : ℕ) : Point ε → ℕ
  | idle => 0
  | completing _ => n + 1
  | poisoning .. => n + 1
  | running _ => n + 2
  | begin _ => n + 3

variable [Fintype T]

/-- The potential: the weights of the callers. -/
def potential (s : State ε T) : ℕ := weigh (passWeight (Point.cost (Fintype.card T))) s.threads

variable [DecidableEq T] {s s' : State ε T} {e es : List (Event ε T)} {t : T} {h : ℕ} {os : Os}
  {p : Point ε} {x : Pc (Point ε)}

theorem potential_move (ht : (s.threads t).Ready p) (x : Pc (Point ε)) :
    potential (s.move t x) + p.cost (Fintype.card T) =
      potential s + passWeight (Point.cost (Fintype.card T)) x :=
  weigh_moved _ ht x

theorem endBegin_lowers {sec : Section Core Unit BeginExit} (ht : (s.threads t).Ready (.begin h))
    (hs : s.endBegin t h sec = (s', e)) : potential s' < potential s := by
  unfold State.endBegin at hs
  split at hs
  · cases hs
    have hp := potential_move ht (.wait .asleep (.begin h))
    simp only [Point.cost, passWeight] at hp
    omega
  · split at hs
    · cases hs
      have hp := potential_move ht (.run (.running h))
      simp only [Point.cost, passWeight] at hp
      change potential (s.move t _) < _
      omega
    · cases hs
      have hp := potential_move ht (.run .idle)
      simp only [Point.cost, passWeight] at hp
      change potential (s.move t _) < _
      omega

theorem endCall_lowers {state : OnceState} {result : ℤ → Except (Raised ε) Unit}
    (ht : (s.threads t).Ready p) (hp : p.cost (Fintype.card T) = Fintype.card T + 1)
    (hs : s.endCall t (settle state s.core os) result = some (s', e)) :
    potential s' < potential s := by
  obtain ⟨f, hf, hs⟩ := Option.map_eq_some_iff.1 hs
  cases hs
  have hw := weigh_pass (Point.cost (Fintype.card T)) ht hf
  have hwake : wakeWeight (Fintype.card T) (settle state s.core os).wakes ≤ Fintype.card T := by
    unfold settle
    split_ifs <;> simp [Notify.weight]
  change _ + _ ≤ potential s + 0 + _ at hw
  change weigh _ f < potential s
  omega

/-- **Every own step lowers the potential**, whatever the primitives return. -/
theorem step_lowers {a : Action ε T} (hs : step s a = some (s', e)) (ha : a.own = true) :
    potential s' < potential s := by
  cases a with
  | lock t os =>
    simp only [step] at hs
    split at hs
    · rename_i h ht
      exact endBegin_lowers (.inl ht) (Option.some.inj hs)
    · rename_i h ht
      exact endCall_lowers (.inl ht) rfl hs
    · rename_i h error ht
      exact endCall_lowers (.inl ht) rfl hs
    · cases hs
  | resume t os =>
    simp only [step] at hs
    split at hs
    · cases hs
    · rename_i w h hw ht
      exact endBegin_lowers (.inr ⟨w, hw, ht⟩) (Option.some.inj hs)
    · cases hs
  | ended t outcome =>
    simp only [step] at hs
    split at hs
    · rename_i h ht
      split at hs
      · cases hs
        have hp := potential_move (.inl ht) (.run (.completing h))
        simp only [Point.cost, passWeight] at hp
        omega
      · rename_i error
        cases hs
        have hp := potential_move (.inl ht) (.run (.poisoning h error))
        simp only [Point.cost, passWeight] at hp
        omega
    · cases hs
  | _ => cases ha

/-- **No step raises the potential by more than a constant.** -/
theorem step_raises {a : Action ε T} (hs : step s a = some (s', e)) (ha : a.own = false) :
    potential s' ≤ potential s + (Fintype.card T + 3) := by
  cases a with
  | call t h injected =>
    simp only [step] at hs
    split_ifs at hs with hr hi
    · cases hs
      exact Nat.le_add_right _ _
    · cases hs
      have hp := potential_move (.inl (isIdle_iff.1 hr.1)) (.run (.begin h))
      simp only [Point.cost, passWeight] at hp
      omega
  | spurious t =>
    simp only [step] at hs
    split at hs
    · rename_i p ht
      cases hs
      exact (weigh_spurious _ ht).trans (Nat.add_le_add_left (by omega) _)
    · cases hs
  | share h h' =>
    simp only [step] at hs
    split_ifs at hs
    cases hs
    exact Nat.le_add_right _ _
  | drop h =>
    simp only [step, Option.ite_none_right_eq_some, Option.some.injEq, Prod.mk.injEq] at hs
    obtain ⟨-, rfl, -⟩ := hs
    exact Nat.le_add_right _ _
  | _ => cases ha

theorem hasPotential (G : State ε T → Action ε T → State ε T → Prop) :
    Potential step G Action.own (fun _ => True) potential (Fintype.card T + 3) where
  keep := fun _ _ _ => trivial
  lowers := fun _ hs _ ha => step_lowers hs ha
  raises := fun _ hs _ ha => step_raises hs ha

/-! ## Who can take a step -/

/-- A step that does not strand the state, and whose broadcast succeeds. -/
def Tending (s : State ε T) (a : Action ε T) (s' : State ε T) : Prop :=
  NotStranding s a s' ∧ a.os.cond₁ = 0

instance (s : State ε T) (a : Action ε T) (s' : State ε T) : Decidable (Tending s a s') :=
  inferInstanceAs (Decidable (_ ∧ _))

/-- The point at which the code waits. -/
def Point.Waits : Point ε → Prop
  | begin _ => True
  | _ => False

omit [Fintype T] in
theorem Move.waitsAt {clean : Bool} (hm : Move clean s s' e)
    (h : ∀ t, (s.threads t).WaitsAt Point.Waits) : ∀ t, (s'.threads t).WaitsAt Point.Waits := by
  -- most moves end at a point
  have hrun : ∀ {t p f}, Woken (Function.update s.threads t (.run p)) f →
      ∀ u, (f u).WaitsAt Point.Waits := fun hw => hw.waitsAt_update h (Pc.waitsAt_run _)
  cases hm with
  | called t k ht hh => exact hrun (.refl _)
  | hooked t status hc => exact h
  | failed t k status ht hc => exact hrun (.refl _)
  | slept t k ht hs => exact (Woken.refl _).waitsAt_update h (Pc.waitsAt_wait.2 trivial)
  | spurious t p ht =>
    exact (Woken.refl _).waitsAt_update h (Pc.waitsAt_wait.2 (h t _ p ht))
  | granted t k ht hs => exact hrun (.refl _)
  | lost t k status ht hs hc => exact hrun (.refl _)
  | passed t k ht hs => exact hrun (.refl _)
  | refused t k ht hs => exact hrun (.refl _)
  | returned t k ht => exact hrun (.refl _)
  | raised t k error ht => exact hrun (.refl _)
  | stuck t p status ht hp hc => exact hrun (.refl _)
  | completed t k f r ht hf hr =>
    rcases hf with rfl | ⟨-, rfl⟩
    · exact hrun (.of_broadcast _ _)
    · exact hrun (.refl _)
  | poisoned t k error f r ht hf hr =>
    rcases hf with rfl | ⟨-, rfl⟩
    · exact hrun (.of_broadcast _ _)
    · exact hrun (.refl _)
  | shared k hh => exact h
  | dropped k hh ht => exact h

/-- A caller in a call can go on. -/
theorem able_of_run (ht : s.threads t = .run p) (hp : p ≠ .idle) :
    Able step Tending Action.own s := by
  cases p with
  | idle => exact absurd rfl hp
  | begin h =>
    refine ⟨.lock t {}, _, _, rfl, by simp only [step, ht]; rfl, ?_, rfl⟩
    simp [NotStranding, Action.Strands, Strands, ht]
  | running h =>
    exact ⟨.ended t (.ok ()), _, _, rfl, by simp only [step, ht]; rfl, id, rfl⟩
  | completing h =>
    refine ⟨.lock t {}, _, _, rfl, by simp only [step, ht]; rfl, ?_, rfl⟩
    simp [NotStranding, Action.Strands, Strands, ht]
  | poisoning h error =>
    refine ⟨.lock t {}, _, _, rfl, by simp only [step, ht]; rfl, ?_, rfl⟩
    simp [NotStranding, Action.Strands, Strands, ht]

/-- And so can one that has been woken. -/
theorem able_of_woken {w : Wake} (hp : p.Waits) (ht : s.threads t = .wait w p)
    (hw : w ≠ .asleep) : Able step Tending Action.own s := by
  cases p with
  | begin h =>
    cases w with
    | asleep => exact absurd rfl hw
    | notified =>
      refine ⟨.resume t {}, _, _, rfl, by simp only [step, ht]; rfl, ?_, rfl⟩
      simp [NotStranding, Action.Strands, Strands, ht]
    | spurious =>
      refine ⟨.resume t {}, _, _, rfl, by simp only [step, ht]; rfl, ?_, rfl⟩
      simp [NotStranding, Action.Strands, Strands, ht]
  | _ => cases hp

/-- **When nobody can take a step, every caller is at rest.** -/
theorem rested_of_stuck (hw : ∀ t, (s.threads t).WaitsAt Point.Waits)
    (hst : Stuck step Tending Action.own s) (t : T) : (s.threads t).Rested (· = .idle) :=
  hst.rested (fun _ _ => able_of_run) (fun u w p hu => able_of_woken (hw u w p hu) hu) t

/-- Who takes a step of its own is not at rest. -/
theorem not_rested_of_own {a : Action ε T} (ha : a.own = true) (hs : step s a = some (s', e)) :
    ∃ t, ¬(s.threads t).Rested (· = .idle) := by
  cases a with
  | lock t os =>
    refine ⟨t, ?_⟩
    rintro (⟨p, rfl, h⟩ | ⟨p, h⟩) <;> simp [step, h] at hs
  | resume t os =>
    refine ⟨t, ?_⟩
    rintro (⟨p, rfl, h⟩ | ⟨p, h⟩) <;> simp [step, h] at hs
  | ended t outcome =>
    refine ⟨t, ?_⟩
    rintro (⟨p, rfl, h⟩ | ⟨p, h⟩) <;> simp [step, h] at hs
  | _ => cases ha

/-! ## Stuck callers -/

/-- What holds as long as no failure strands the state and the broadcasts succeed. -/
structure Cared (es : List (Event ε T)) (s : State ε T) : Prop where
  past : Past es s
  tended : Tended s
  awake : Awake s
  wait : ∀ t, (s.threads t).WaitsAt Point.Waits

theorem cared_of_exec (h : Exec step Tending State.init es s) : Cared es s := by
  refine h.invariant (I := Cared) ⟨Past.init, nofun, fun _ _ => rfl, fun _ => Pc.waitsAt_run _⟩ ?_
  intro es s a s' e hI hs hG
  have hm := step_move hs
  exact ⟨hm.past hI.past, ((step_strands hI.past hs).2 hG.1).tended hI.tended,
    step_awake hs hG.2 hI.awake, hm.waitsAt hI.wait⟩

/-- **When no caller can take a step, every call has returned.** -/
theorem settled_of_stuck (h : Exec step Tending State.init es s)
    (hst : Stuck step Tending Action.own s) :
    s.core.state ≠ .running ∧ ∀ t, s.threads t = .run .idle := by
  have hI := cared_of_exec h
  have hr := rested_of_stuck hI.wait hst
  have hcond : ∀ t p, s.threads t = .wait .asleep p → ∃ k, p = .begin k := by
    intro t p ht
    have hok := hI.wait t _ p ht
    cases p with
    | begin k => exact ⟨k, rfl⟩
    | _ => cases hok
  have hne : s.core.state ≠ .running := by
    intro hrun
    -- the caller that will end it is not at rest
    obtain ⟨t, ht⟩ := hI.tended hrun
    rcases hr t with ⟨p, rfl, hidle⟩ | ⟨p, hp⟩
    · rw [hidle] at ht
      cases ht
    · obtain ⟨k, rfl⟩ := hcond t p hp
      rw [hp] at ht
      cases ht
  refine ⟨hne, fun t => ?_⟩
  rcases hr t with ⟨p, rfl, hidle⟩ | ⟨p, hp⟩
  · exact hidle
  · obtain ⟨k, rfl⟩ := hcond t p hp
    have hno := hI.awake hne t
    rw [hp] at hno
    cases hno

end NativeSync.Once
