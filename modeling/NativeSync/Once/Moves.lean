import NativeSync.Once.System

/-!
# Once: what a step can do

`step_move` says once what every step of the system does, whatever the statuses of the primitives.
The moves that need a failure are marked: in a `Move true` no primitive fails.
-/

namespace NativeSync.Once

open Foundations

variable {ε T : Type}

/-- The result of a call in which a primitive failed. -/
def failure (status : ℤ) : Except (Raised ε) Unit := .error (.sync (.onceOperationFailed status))

/-- The core with another state. -/
def Core.set (core : Core) (state : OnceState) : Core := { core with state }

variable [DecidableEq T]

/-- The moves of the system; `clean` says that no primitive fails. -/
inductive Move (clean : Bool) (s : State ε T) : State ε T → List (Event ε T) → Prop
  | called (t : T) (h : ℕ) (ht : s.threads t = .run .idle) (hh : h ∈ s.handles) :
      Move clean s (s.move t (.run (.begin h))) []
  | hooked (t : T) (status : ℤ) (hc : clean = false) :
      Move clean s s [.ret t false (failure status)]
  | failed (t : T) (h : ℕ) (status : ℤ) (ht : (s.threads t).Ready (.begin h)) (hc : clean = false) :
      Move clean s (s.move t (.run .idle)) [.ret t false (failure status)]
  | slept (t : T) (h : ℕ) (ht : (s.threads t).Ready (.begin h)) (hs : s.core.state = .running) :
      Move clean s (s.move t (.wait .asleep (.begin h))) []
  | spurious (t : T) (p : Point ε) (ht : s.threads t = .wait .asleep p) :
      Move clean s (s.move t (.wait .spurious p)) []
  | granted (t : T) (h : ℕ) (ht : (s.threads t).Ready (.begin h)) (hs : s.core.state = .fresh) :
      Move clean s { s.move t (.run (.running h)) with core := s.core.set .running } [.started t]
  | lost (t : T) (h : ℕ) (status : ℤ) (ht : (s.threads t).Ready (.begin h))
      (hs : s.core.state = .fresh) (hc : clean = false) :
      Move clean s { s.move t (.run .idle) with core := s.core.set .running }
        [.ret t false (failure status)]
  | passed (t : T) (h : ℕ) (ht : (s.threads t).Ready (.begin h)) (hs : s.core.state = .done) :
      Move clean s (s.move t (.run .idle)) [.ret t false (.ok ())]
  | refused (t : T) (h : ℕ) (ht : (s.threads t).Ready (.begin h)) (hs : s.core.state = .poisoned) :
      Move clean s (s.move t (.run .idle)) [.ret t false (.error (.sync .oncePoisoned))]
  | returned (t : T) (h : ℕ) (ht : s.threads t = .run (.running h)) :
      Move clean s (s.move t (.run (.completing h))) [.returned t]
  | raised (t : T) (h : ℕ) (error : ε) (ht : s.threads t = .run (.running h)) :
      Move clean s (s.move t (.run (.poisoning h error))) [.raised t error]
  | stuck (t : T) (p : Point ε) (status : ℤ) (ht : s.threads t = .run p)
      (hp : (∃ h, p = .completing h) ∨ ∃ h error, p = .poisoning h error) (hc : clean = false) :
      Move clean s (s.move t (.run .idle)) [.ret t true (failure status)]
  | completed (t : T) (h : ℕ) (f : T → Pc (Point ε)) (r : Except (Raised ε) Unit)
      (ht : s.threads t = .run (.completing h))
      (hf : f = broadcast Point.cond () (Function.update s.threads t (.run .idle)) ∨
        clean = false ∧ f = Function.update s.threads t (.run .idle))
      (hr : r = .ok () ∨ clean = false ∧ ∃ status, r = failure status) :
      Move clean s { s with core := s.core.set .done, threads := f } [.ret t true r]
  | poisoned (t : T) (h : ℕ) (error : ε) (f : T → Pc (Point ε)) (r : Except (Raised ε) Unit)
      (ht : s.threads t = .run (.poisoning h error))
      (hf : f = broadcast Point.cond () (Function.update s.threads t (.run .idle)) ∨
        clean = false ∧ f = Function.update s.threads t (.run .idle))
      (hr : r = .error (.own error) ∨ clean = false ∧ ∃ status, r = failure status) :
      Move clean s { s with core := s.core.set .poisoned, threads := f } [.ret t true r]
  | shared (h' : ℕ) (hh : h' ∉ s.handles) :
      Move clean s { s with core := share s.core, handles := insert h' s.handles } []
  | dropped (h : ℕ) (hh : h ∈ s.handles) (ht : ∀ t, (s.threads t).point.handle ≠ some h) :
      Move clean s { s with
          core := (finalize s.core).1, handles := s.handles.erase h
          freed := s.freed || (finalize s.core).2 }
        (if (finalize s.core).2 then [.freed] else [])

/-! ## Every step is a move -/

variable {s s' : State ε T} {e : List (Event ε T)} {t : T} {h : ℕ}

/-- A status that is not zero is none of a step without failures. -/
theorem not_clean {os : Os} (x : Os → ℤ) (hx : x os ≠ 0) (h0 : x {} = 0) :
    decide (os = {}) = false := by
  refine decide_eq_false ?_
  rintro rfl
  exact hx h0

/-- A pass of `begin` in which a primitive failed. -/
theorem State.endBegin_failure (s : State ε T) (t : T) (h : ℕ) (core : Core) (result : ℤ)
    {status : ℤ} (hst : status ≠ 0) :
    s.endBegin t h { core, exit := .ret result status } =
      ({ s.move t (.run .idle) with core }, [.ret t false (failure status)]) := by
  simp only [State.endBegin, beginResult, if_pos hst]
  rfl

/-- A pass of `begin` from its loop on. -/
theorem endBegin_loop (ht : (s.threads t).Ready (.begin h)) (os : Os)
    (hs : s.endBegin t h (beginLoop s.core os) = (s', e)) :
    Move (decide (os = {})) s s' e := by
  unfold beginLoop at hs
  by_cases hrun : s.core.state = .running
  · rw [if_pos hrun] at hs
    by_cases hwait : os.wait = 0
    · rw [if_neg (not_not.2 hwait)] at hs
      obtain ⟨rfl, rfl⟩ := Prod.mk.inj hs
      exact .slept t h ht hrun
    · rw [if_pos hwait, recordError_of_ne hwait, s.endBegin_failure t h _ _ hwait] at hs
      obtain ⟨rfl, rfl⟩ := Prod.mk.inj hs
      exact .failed t h _ ht (not_clean Os.wait hwait rfl)
  · rw [if_neg hrun, zero_recordError] at hs
    by_cases hunlock : os.unlock = 0
    · rw [hunlock] at hs
      cases hst : s.core.state with
      | fresh =>
        rw [if_pos hst] at hs
        obtain ⟨rfl, rfl⟩ := Prod.mk.inj hs
        exact .granted t h ht hst
      | running => exact absurd hst hrun
      | done =>
        rw [if_neg (by rw [hst]; exact nofun), if_pos hst] at hs
        obtain ⟨rfl, rfl⟩ := Prod.mk.inj hs
        exact .passed t h ht hst
      | poisoned =>
        rw [if_neg (by rw [hst]; exact nofun), if_neg (by rw [hst]; exact nofun)] at hs
        obtain ⟨rfl, rfl⟩ := Prod.mk.inj hs
        exact .refused t h ht hst
    · have hc := not_clean Os.unlock hunlock rfl
      by_cases hfresh : s.core.state = .fresh
      · rw [if_pos hfresh, s.endBegin_failure t h _ _ hunlock] at hs
        obtain ⟨rfl, rfl⟩ := Prod.mk.inj hs
        exact .lost t h _ ht hfresh hc
      · rw [if_neg hfresh, s.endBegin_failure t h _ _ hunlock] at hs
        obtain ⟨rfl, rfl⟩ := Prod.mk.inj hs
        exact .failed t h _ ht hc

variable [Fintype T]

/-- The end of a call that was granted the initializer. -/
theorem endCall_settle {state : OnceState} {os : Os} {result : ℤ → Except (Raised ε) Unit}
    (hs : s.endCall t (settle state s.core os) result = some (s', e)) :
    (∃ status ≠ 0, decide (os = {}) = false ∧ s' = s.move t (.run .idle) ∧
      e = [.ret t true (result status)]) ∨
    ∃ f status, s' = { s with core := s.core.set state, threads := f } ∧
      (f = broadcast Point.cond () (Function.update s.threads t (.run .idle)) ∨
        decide (os = {}) = false ∧ f = Function.update s.threads t (.run .idle)) ∧
      (status = 0 ∨ decide (os = {}) = false) ∧ e = [.ret t true (result status)] := by
  unfold settle at hs
  by_cases hlock : os.lock = 0
  · rw [if_neg (not_not.2 hlock)] at hs
    right
    rw [zero_recordError] at hs
    by_cases hcond : os.cond₁ = 0
    · rw [if_pos hcond, hcond, zero_recordError] at hs
      obtain ⟨rfl, rfl⟩ := by simpa [State.endCall] using hs
      refine ⟨_, os.unlock, rfl, .inl rfl, ?_, rfl⟩
      by_cases hunlock : os.unlock = 0
      · exact .inl hunlock
      · exact .inr (not_clean Os.unlock hunlock rfl)
    · rw [if_neg hcond] at hs
      obtain ⟨rfl, rfl⟩ := by simpa [State.endCall] using hs
      have hc := not_clean Os.cond₁ hcond rfl
      exact ⟨_, _, rfl, .inr ⟨hc, rfl⟩, .inr hc, rfl⟩
  · rw [if_pos hlock] at hs
    obtain ⟨rfl, rfl⟩ := by simpa [State.endCall] using hs
    exact .inl ⟨os.lock, hlock, not_clean Os.lock hlock rfl, rfl, rfl⟩

/-- **Every step is a move**, one without failures if its primitives succeed. -/
theorem step_move {a : Action ε T} (hs : step s a = some (s', e)) :
    Move (decide (a.os = {} ∧ a.injected = 0)) s s' e := by
  cases a with
  | call t h injected =>
    simp only [step] at hs
    split_ifs at hs with hcall hinj
    · obtain ⟨rfl, rfl⟩ := by simpa using hs
      exact .hooked t injected (decide_eq_false fun hc => hinj hc.2)
    · obtain ⟨rfl, rfl⟩ := by simpa using hs
      exact .called t h (isIdle_iff.1 hcall.1) hcall.2
  | lock t os =>
    have hclean : decide ((Action.lock t os : Action ε T).os = {} ∧
        (Action.lock t os : Action ε T).injected = 0) = decide (os = {}) := by
      simp [Action.os, Action.injected]
    rw [hclean]
    simp only [step] at hs
    split at hs
    · rename_i h ht
      rw [Option.some.injEq, begin] at hs
      split_ifs at hs with hlock
      · rw [s.endBegin_failure t h _ _ hlock] at hs
        obtain ⟨rfl, rfl⟩ := Prod.mk.inj hs
        exact .failed t h _ (.inl ht) (not_clean Os.lock hlock rfl)
      · exact endBegin_loop (.inl ht) os hs
    · rename_i h ht
      rcases endCall_settle hs with ⟨status, hst, hc, rfl, rfl⟩ | ⟨f, status, rfl, hf, hst, rfl⟩
      · rw [completeResult, if_pos hst]
        exact .stuck t _ status ht (.inl ⟨h, rfl⟩) hc
      · refine .completed t h f _ ht hf ?_
        by_cases h0 : status = 0
        · exact .inl (if_neg (not_not.2 h0))
        · exact .inr ⟨hst.resolve_left h0, status, if_pos h0⟩
    · rename_i h error ht
      rcases endCall_settle hs with ⟨status, hst, hc, rfl, rfl⟩ | ⟨f, status, rfl, hf, hst, rfl⟩
      · rw [poisonResult, if_pos hst]
        exact .stuck t _ status ht (.inr ⟨h, error, rfl⟩) hc
      · refine .poisoned t h error f _ ht hf ?_
        by_cases h0 : status = 0
        · exact .inl (if_neg (not_not.2 h0))
        · exact .inr ⟨hst.resolve_left h0, status, if_pos h0⟩
    · cases hs
  | spurious t =>
    simp only [step] at hs
    split at hs
    · rename_i p ht
      obtain ⟨rfl, rfl⟩ := by simpa using hs
      exact .spurious t p ht
    · cases hs
  | resume t os =>
    have hclean : decide ((Action.resume t os : Action ε T).os = {} ∧
        (Action.resume t os : Action ε T).injected = 0) = decide (os = {}) := by
      simp [Action.os, Action.injected]
    rw [hclean]
    simp only [step] at hs
    split at hs
    · cases hs
    · rename_i w h hw ht
      have hready : (s.threads t).Ready (.begin h) := .inr ⟨w, hw, ht⟩
      rw [Option.some.injEq, beginWoken] at hs
      split_ifs at hs with hwake
      · rw [recordError_of_ne hwake, s.endBegin_failure t h _ _ hwake] at hs
        obtain ⟨rfl, rfl⟩ := Prod.mk.inj hs
        exact .failed t h _ hready (not_clean Os.wake hwake rfl)
      · exact endBegin_loop hready os hs
    · cases hs
  | ended t outcome =>
    simp only [step] at hs
    split at hs
    · rename_i h ht
      cases outcome with
      | ok =>
        obtain ⟨rfl, rfl⟩ := by simpa using hs
        exact .returned t h ht
      | error error =>
        obtain ⟨rfl, rfl⟩ := by simpa using hs
        exact .raised t h error ht
    · cases hs
  | share h h' =>
    simp only [step] at hs
    split_ifs at hs with hh
    obtain ⟨rfl, rfl⟩ := by simpa using hs
    exact .shared h' hh.2
  | drop h =>
    simp only [step] at hs
    by_cases hh : h ∈ s.handles ∧ ∀ t, (s.threads t).point.handle ≠ some h
    · rw [if_pos hh, Option.some.injEq] at hs
      obtain ⟨rfl, rfl⟩ := Prod.mk.inj hs
      exact .dropped h hh.1 hh.2
    · rw [if_neg hh] at hs
      cases hs

end NativeSync.Once
